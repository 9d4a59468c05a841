import Nnemu.Mmu.WalkRel

/-!
# Walks on a frozen picture of the machine

A walk that reads entries from RAM only, and needs no update of an A or D bit, is a function of
memory: `frozenMem` runs the walker with such a memory. The run also says when it meets an entry
that was changed since the TLB was last flushed, or one that is not in RAM. This is the
specification the TLB is compared with.

What the frozen walk finds the machine finds, without a write (`walk_of_frozen`), and the page does
not depend on the type of the access (`frozen_type`). Both are instances of `WalkRel.walk_rel`.

`World.clean` is the part of memory no store has touched since the last flush, and the frozen walk
stops with `changed` as soon as it leaves it. So its results have a definite meaning: what it finds
is what the tables said at the flush and still say, and what it does not find for a change is
nothing a program may rely on.
-/

namespace Nnemu

open Radix Bytes

variable {δ : Type}

/-! ### The frozen memory -/

/-- Why a frozen walk ends without a page. -/
inductive FrozenStop where
  /-- an entry was changed since the last flush, or is not in RAM -/
  | changed
  /-- the walk faults, or needs an update of A or D -/
  | refused
deriving DecidableEq

/-- Programs that look at a fixed world. -/
abbrev Frozen (δ : Type) : Type → Type :=
  ReaderT (World δ) (Except FrozenStop)

/-- No byte of the entry was changed since the last flush, other than by the walker. -/
def World.clean (w : World δ) (slot : Reg) (n : Nat) : Bool :=
  (List.range n).all fun i => !w.ptDirty (slot + BitVec.ofNat 64 i)

/-- The load of an entry. -/
def frozenLoad (bus : Bus δ) (r : Regime) (slot : Reg) (n : Nat) : Frozen δ Reg := fun w =>
  if !r.pmp.pmpOk slot n .load prvS then .error .refused
  else if bus.isMem slot && w.clean slot n then .ok (w.read slot n)
  else .error .changed

/-- Page-table memory of the frozen picture. -/
def frozenMem (bus : Bus δ) (r : Regime) : PteMem (Frozen δ) where
  load := fun slot _ _ _ n => frozenLoad bus r slot n
  store := fun _ _ _ _ _ _ _ => .error .refused
  stop := fun _ _ _ => .error .refused

/-- The page of an address for an access of this type. -/
def frozenWalk (bus : Bus δ) (r : Regime) (addr : Reg) (type : AccessType)
    (mode : Reg) (virt : Bool) :
    Frozen δ Reg :=
  walk (frozenMem bus r) r addr type mode virt false

variable {bus : Bus δ} {r : Regime} {w w' : World δ} {n : Nat} {slot : Reg}

theorem World.clean_iff : w.clean slot n = true ↔ ∀ i, i < n →
    w.ptDirty (slot + BitVec.ofNat 64 i) = false := by
  simp [World.clean]

theorem frozenLoad_ok_iff {pte : Reg} :
    frozenLoad bus r slot n w = .ok pte ↔
      r.pmp.pmpOk slot n .load prvS = true ∧ bus.isMem slot = true ∧ w.clean slot n = true ∧
        pte = w.read slot n := by
  rw [frozenLoad]
  cases r.pmp.pmpOk slot n .load prvS <;> cases bus.isMem slot <;> cases w.clean slot n <;>
    simp [eq_comm]

theorem frozenLoad_changed_iff :
    frozenLoad bus r slot n w = .error .changed ↔
      r.pmp.pmpOk slot n .load prvS = true ∧ (bus.isMem slot = true → w.clean slot n = false) := by
  rw [frozenLoad]
  cases r.pmp.pmpOk slot n .load prvS <;> cases bus.isMem slot <;> cases w.clean slot n <;> simp

/-! ### Rounds -/

section Rounds

variable {cls : Reg → PteClass} {vm : VmInfo} {vpn addr : Reg} {type trapType : AccessType}
  {virt hade : Bool} {i : Nat} {post post' : Reg → Reg}

/-- What a frozen round makes of an entry: the next table or the page. -/
def frozenRound (cls : Reg → PteClass) (vm : VmInfo) (vpn : Reg) (type : AccessType) (i : Nat)
    (pte : Reg) : Except FrozenStop (Visit Reg Reg) :=
  match cls pte with
  | .bad => .error .refused
  | .table => .ok (.next (ptePpn pte <<< pgShift))
  | .leaf =>
    if pte &&& adBits type = adBits type ∧ napotRefused i pte = false then
      .ok (.done (some (pageBase (i * vm.idxbits) pte vpn)))
    else .error .refused

/-- A decision with the address made of the page. -/
def visitMap (post : Reg → Reg) : Visit Reg Reg → Visit Reg Reg
  | .next b => .next b
  | .done page => .done (page.map post)

theorem frozenRound_eq_ok_iff {pte : Reg} {v : Visit Reg Reg} :
    frozenRound cls vm vpn type i pte = .ok v ↔
      (cls pte = .table ∧ v = .next (ptePpn pte <<< pgShift)) ∨
        (cls pte = .leaf ∧ pte &&& adBits type = adBits type ∧ napotRefused i pte = false ∧
          v = .done (some (pageBase (i * vm.idxbits) pte vpn))) := by
  rw [frozenRound]
  cases cls pte with
  | bad => simp
  | table =>
    simp only [Except.ok.injEq, true_and, reduceCtorEq, false_and, or_false]
    exact eq_comm
  | leaf =>
    simp only [reduceCtorEq, false_and, true_and, false_or]
    split
    · rename_i h
      simp only [h.1, h.2, true_and, Except.ok.injEq]
      exact eq_comm
    · rename_i h
      simp only [reduceCtorEq, false_iff]
      rintro ⟨had, hnapot, -⟩
      exact h ⟨had, hnapot⟩

theorem frozenRound_ne_changed (cls : Reg → PteClass) (vm : VmInfo) (vpn : Reg) (type : AccessType)
    (i : Nat) (pte : Reg) : frozenRound cls vm vpn type i pte ≠ .error .changed := by
  rw [frozenRound]
  split
  · simp
  · simp
  · split <;> simp

/-- Two rounds that decide alike. -/
theorem visitRel_of_frozenRound {pte : Reg} {v : Visit Reg Reg}
    (h : frozenRound cls vm vpn type i pte = .ok v) :
    VisitRel PageStart (OfPage post post') (visitMap post v) (visitMap post' v) := by
  rcases frozenRound_eq_ok_iff.1 h with ⟨-, rfl⟩ | ⟨-, -, -, rfl⟩
  · exact ⟨rfl, shiftLeft_mod_page _⟩
  · exact ⟨_, pageBase_mod_page _ _ _, rfl, rfl⟩

/-- **A frozen round** loads the entry and decides. -/
theorem live_visitAt_frozen {e : Stop} :
    live ((frozenMem bus r).stop _ e)
        (visitAt (frozenMem bus r) cls vm slot vpn addr type trapType virt hade i post) w =
      (frozenLoad bus r slot vm.ptesize w).bind fun pte =>
        (frozenRound cls vm vpn type i pte).map (visitMap post) := by
  rw [live, visitAt, bind_assoc]
  change (frozenLoad bus r slot vm.ptesize w).bind _ = _
  congr 1
  funext pte
  rw [frozenRound]
  beta_reduce
  cases cls pte with
  | bad => rfl
  | table => rfl
  | leaf =>
    rw [finishLeaf, updateAd]
    dsimp only
    by_cases had : pte &&& adBits type = adBits type
    · simp only [had, ne_eq, not_true_eq_false, if_false, pure_bind, if_true, true_and]
      cases hn : napotRefused i pte <;> rfl
    · simp only [ne_eq, had, not_false_eq_true, if_true, false_and, if_false]
      cases hade <;> rfl

/-- A frozen round that goes on has loaded a clean entry. -/
theorem live_visitAt_frozen_ok_iff {e : Stop} {x : Visit Reg Reg} :
    live ((frozenMem bus r).stop _ e)
        (visitAt (frozenMem bus r) cls vm slot vpn addr type trapType virt hade i post) w = .ok x ↔
      frozenLoad bus r slot vm.ptesize w = .ok (w.read slot vm.ptesize) ∧
        ∃ v, frozenRound cls vm vpn type i (w.read slot vm.ptesize) = .ok v ∧
        x = visitMap post v := by
  rw [live_visitAt_frozen]
  cases hload : frozenLoad bus r slot vm.ptesize w with
  | error s => simp [Except.bind]
  | ok pte =>
    obtain ⟨-, -, -, rfl⟩ := frozenLoad_ok_iff.1 hload
    cases hround : frozenRound cls vm vpn type i (w.read slot vm.ptesize) with
    | error s => simp [Except.bind, Except.map, hround]
    | ok v => simp [Except.bind, Except.map, hround, eq_comm]

/-- A frozen round meets a change where its load does. -/
theorem live_visitAt_frozen_changed_iff {e : Stop} :
    live ((frozenMem bus r).stop _ e)
        (visitAt (frozenMem bus r) cls vm slot vpn addr type trapType virt hade i post) w =
        .error .changed ↔
      frozenLoad bus r slot vm.ptesize w = .error .changed := by
  rw [live_visitAt_frozen]
  cases hload : frozenLoad bus r slot vm.ptesize w with
  | error s => simp [Except.bind]
  | ok pte =>
    have hne := frozenRound_ne_changed cls vm vpn type i pte
    cases hround : frozenRound cls vm vpn type i pte with
    | error s =>
      rw [hround] at hne
      simpa [Except.bind, Except.map, hround] using hne
    | ok v => simp [Except.bind, Except.map, hround]

/-- A round of the machine that goes on has loaded the entry, and either went down or has brought
the A and D bits of a leaf up to date. -/
theorem live_visitAt_ok_iff {e : Stop} {v : Visit Reg Reg} :
    live ((busMem bus r).stop _ e)
        (visitAt (busMem bus r) cls vm slot vpn addr type trapType virt hade i post) w = .ok v w' ↔
      ∃ pte u, pteLoad bus r slot addr virt trapType vm.ptesize w = .ok pte u ∧
        ((cls pte = .table ∧ v = .next (ptePpn pte <<< pgShift) ∧ w' = u) ∨
          (cls pte = .leaf ∧ napotRefused i pte = false ∧
            v = .done (some (post (pageBase (i * vm.idxbits) pte vpn))) ∧
            updateAd (busMem bus r) vm slot pte addr type virt hade u = .ok true w')) := by
  rw [live, visitAt, bind_assoc, Exec.bind_eq_ok_iff]
  refine exists_congr fun pte => exists_congr fun u => and_congr Iff.rfl ?_
  cases hc : cls pte with
  | bad =>
    simp only [pure_bind, reduceCtorEq, false_and, or_false, iff_false]
    rintro ⟨⟩
  | table =>
    simp only [pure_bind, Exec.pure_apply, EStateM.Result.ok.injEq, true_and,
      reduceCtorEq, false_and,
      or_false]
    exact and_congr eq_comm eq_comm
  | leaf =>
    simp only [reduceCtorEq, false_and, false_or, true_and]
    rw [bind_assoc, Exec.bind_eq_ok_iff]
    constructor
    · rintro ⟨page, t, hf, hv⟩
      obtain ⟨b, had, rfl⟩ := finishLeaf_ok_iff.1 hf
      rw [pure_bind] at hv
      cases b with
      | false => cases hv
      | true =>
        cases hn : napotRefused i pte with
        | true =>
          rw [hn] at hv
          cases hv
        | false =>
          rw [hn] at hv
          cases hv
          exact ⟨rfl, rfl, had⟩
    · rintro ⟨hn, rfl, had⟩
      exact ⟨_, w', finishLeaf_ok_iff.2 ⟨true, had, rfl⟩, by rw [hn]; rfl⟩

end Rounds

/-! ### What the machine finds -/

/-- The frozen picture and the machine it is a picture of. -/
def soundRelator (δ : Type) : Relator (Frozen δ) (Exec Stop (World δ)) where
  rel := fun V d e => ∀ w x, d w = .ok x → ∃ y, e w = .ok y w ∧ V x y
  rel_pure := by
    rintro α β V x y hV w _ ⟨⟩
    exact ⟨y, rfl, hV⟩
  rel_bind := by
    intro α β γ ι V W d e f g hd hf w z hz
    change (d w).bind (fun x => f x w) = .ok z at hz
    cases hx : d w with
    | error s =>
      rw [hx] at hz
      cases hz
    | ok x =>
      rw [hx] at hz
      obtain ⟨y, hy, hV⟩ := hd w x hx
      obtain ⟨u, hu, hW⟩ := hf x y hV w z hz
      exact ⟨u, by rw [Exec.bind_of_ok hy, hu], hW⟩

theorem walkRel_sound (bus : Bus δ) (r : Regime) (type : AccessType) (mode : Reg)
    (virt hlvx : Bool) :
    WalkRel (soundRelator δ) (frozenMem bus r) (busMem bus r) r r type type mode virt hlvx
      (fun ty ty' cls cls' => ty' = ty ∧ cls' = cls) where
  xlen := rfl
  hgatp := rfl
  atp := rfl
  stop_bind := fun _ _ => rfl
  stop_bind' := fun _ _ => rfl
  stop := by
    rintro α β V e d' w x ⟨⟩
  s2Class := by
    rintro - vm ty ty' hl i (⟨rfl, rfl⟩ | ⟨rfl, rfl⟩) <;> exact ⟨rfl, rfl⟩
  s1Class := fun _ _ _ => ⟨rfl, rfl⟩
  visit := by
    rintro cls _ vm slot vpn addr addr' ty _ tt tt' v hade hade' i post
      post' e e' ⟨rfl, rfl⟩ - - w x hx
    obtain ⟨hload, u, hround, rfl⟩ := live_visitAt_frozen_ok_iff.1 hx
    obtain ⟨hpmp, hmem, -⟩ := frozenLoad_ok_iff.1 hload
    refine ⟨visitMap post' u, live_visitAt_ok_iff.2 ⟨_, w, pteLoad_of_isMem hpmp hmem w, ?_⟩,
      visitRel_of_frozenRound hround⟩
    rcases frozenRound_eq_ok_iff.1 hround with ⟨hc, rfl⟩ | ⟨hc, had, hn, rfl⟩
    · exact .inl ⟨hc, rfl, rfl⟩
    · exact .inr ⟨hc, hn, rfl, updateAd_ok_iff.2 (.inl ⟨had, rfl, rfl⟩)⟩

/-- **Soundness.** A page the frozen walk finds is found by the machine, which writes nothing. -/
theorem walk_of_frozen {addr mode page : Reg} {type : AccessType} {virt : Bool}
    (h : frozenWalk bus r addr type mode virt w = .ok page) :
    walk (busMem bus r) r addr type mode virt false w = .ok page w := by
  obtain ⟨y, hy, rfl⟩ :=
    (walkRel_sound bus r type mode virt false).walk_rel (rfl : SamePage addr addr) w page h
  exact hy

/-! ### The type of the access -/

/-- Two frozen walks in one world, of which the second may be refused. -/
def typeRelator (δ : Type) : Relator (Frozen δ) (Frozen δ) where
  rel := fun V d d' => ∀ w x, d w = .ok x → (∃ y, d' w = .ok y ∧ V x y) ∨ d' w = .error .refused
  rel_pure := by
    rintro α β V x y hV w _ ⟨⟩
    exact .inl ⟨y, rfl, hV⟩
  rel_bind := by
    intro α β γ ι V W d d' f f' hd hf w z hz
    change (d w).bind (fun x => f x w) = .ok z at hz
    change (∃ u, (d' w).bind (fun y => f' y w) = .ok u ∧ W z u) ∨ (d' w).bind (fun y => f' y w) = _
    cases hx : d w with
    | error s =>
      rw [hx] at hz
      cases hz
    | ok x =>
      rw [hx] at hz
      rcases hd w x hx with ⟨y, hy, hV⟩ | hy
      · rw [hy]
        exact hf x y hV w z hz
      · rw [hy]
        exact .inr rfl

theorem s2Class_table_congr (vm : VmInfo) (ty ty' : AccessType) (hl : Bool) (i : Nat) (pte : Reg) :
    s2Class r vm ty hl i pte = .table ↔ s2Class r vm ty' hl i pte = .table := by
  rw [s2Class, s2Class, s2Classify_eq_table_iff, s2Classify_eq_table_iff]

theorem s1Class_table_congr (vm : VmInfo) (ty ty' : AccessType) (mode : Reg)
    (virt hlvx : Bool) (i : Nat)
    (pte : Reg) :
    s1Class r vm ty mode virt hlvx i pte = .table ↔
    s1Class r vm ty' mode virt hlvx i pte = .table := by
  rw [s1Class, s1Class, s1Classify_eq_table_iff, s1Classify_eq_table_iff]

theorem walkRel_type (bus : Bus δ) (r : Regime) (type type' : AccessType) (mode : Reg)
    (virt hlvx : Bool) :
    WalkRel (typeRelator δ) (frozenMem bus r) (frozenMem bus r) r r type type' mode virt hlvx
      (fun _ _ cls cls' => ∀ pte, cls pte = .table ↔ cls' pte = .table) where
  xlen := rfl
  hgatp := rfl
  atp := rfl
  stop_bind := fun _ _ => rfl
  stop_bind' := fun _ _ => rfl
  stop := by
    rintro α β V e d' w x ⟨⟩
  s2Class := fun _ vm ty ty' hl i _ => s2Class_table_congr vm ty ty' hl i
  s1Class := fun _ vm i => s1Class_table_congr vm type type' mode virt hlvx i
  visit := by
    intro cls cls' vm slot vpn addr addr' ty ty' tt tt' v hade hade' i
      post post' e e' hcls _ _ w x hx
    obtain ⟨hload, u, hround, rfl⟩ := live_visitAt_frozen_ok_iff.1 hx
    rw [live_visitAt_frozen, hload]
    -- the second round is at the same entry, which is a table for both or for none
    have hsecond : frozenRound cls' vm vpn ty' i (w.read slot vm.ptesize) = .ok u ∨
        frozenRound cls' vm vpn ty' i (w.read slot vm.ptesize) = .error .refused := by
      rcases frozenRound_eq_ok_iff.1 hround with ⟨hc, rfl⟩ | ⟨hc, -, hn, rfl⟩
      · exact .inl (frozenRound_eq_ok_iff.2 (.inl ⟨(hcls _).1 hc, rfl⟩))
      · cases hc' : cls' (w.read slot vm.ptesize) with
        | bad => exact .inr (by rw [frozenRound, hc'])
        | table =>
          rw [(hcls _).2 hc'] at hc
          cases hc
        | leaf =>
          by_cases had : w.read slot vm.ptesize &&& adBits ty' = adBits ty'
          · exact .inl (frozenRound_eq_ok_iff.2 (.inr ⟨hc', had, hn, rfl⟩))
          · refine .inr ?_
            rw [frozenRound, hc']
            exact if_neg fun h => had h.1
    change (∃ y, (frozenRound cls' vm vpn ty' i _).map _ = .ok y ∧ _) ∨
      (frozenRound cls' vm vpn ty' i _).map _ = _
    rcases hsecond with hsecond | hsecond
    · rw [hsecond]
      exact .inl ⟨_, rfl, visitRel_of_frozenRound hround⟩
    · rw [hsecond]
      exact .inr rfl

/-- **Type independence.** Walks of one address that differ in the type of the access find the same
page, or one of them is refused; they meet the same changes. -/
theorem frozen_type {addr mode page : Reg} {type : AccessType} {virt : Bool}
    (h : frozenWalk bus r addr type mode virt w = .ok page) (type' : AccessType) :
    frozenWalk bus r addr type' mode virt w = .ok page ∨
      frozenWalk bus r addr type' mode virt w = .error .refused := by
  rcases (walkRel_type bus r type type' mode virt false).walk_rel (rfl : SamePage addr addr)
    w page h with ⟨y, hy, rfl⟩ | hy
  · exact .inl hy
  · exact .inr hy

end Nnemu

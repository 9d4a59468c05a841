import Nnemu.Lib.Relator
import Nnemu.Mmu.Pte

/-!
# Relating two runs of the walker

The walker is one program text over a `PteMem`. Two runs of it, over different memories, regimes or
access types, are related as soon as their rounds are: `walk_rel` follows the text of both stages
once, and what is left to show of two memories is collected in `WalkRel`.

A round is the same in both stages: load the entry, classify it, go on or finish (`visitAt`).
`WalkRel` has one condition for each of these, and one on the addresses that are compared, which
need only agree in their pages (`SamePage`): the offset into the page never reaches a table. Four
relations are made of it later, in `Entries`, `Frozen` and `Later`.
-/

namespace Nnemu

open Radix Bytes

/-! ### Rounds -/

section Rounds

variable {m : Type → Type} [Monad m] (mem : PteMem m)

/-- What both kinds of rounds do once they have the address of the entry. -/
def visitAt (cls : Reg → PteClass) (vm : VmInfo) (slot vpn addr : Reg) (type trapType : AccessType)
    (virt hade : Bool) (i : Nat) (post : Reg → Reg) : m (Visit Reg Reg) := do
  let pte ← mem.load slot addr virt trapType vm.ptesize
  match cls pte with
  | .bad => pure (.done none)
  | .table => pure (.next (ptePpn pte <<< pgShift))
  | .leaf =>
    let page ← finishLeaf mem vm slot pte vpn addr type virt hade i
    pure (.done (page.map post))

variable {mem} {r : Regime} {vm : VmInfo} {addr mode : Reg} {type : AccessType} {virt hlvx : Bool}

theorem s2Visit_eq_visitAt {gpa : Reg} {trapType : AccessType} (i : Nat) (base : Reg) :
    s2Visit mem r vm addr gpa type trapType hlvx i base =
      visitAt mem (s2Class r vm type hlvx i) vm (s2Slot vm gpa i base) (gpa >>> pgShift) addr type
        trapType true (hasBits r.menvcfg envcfgHade) i (· ||| (gpa &&& pageMask)) :=
  rfl

theorem s1Visit_eq_visitAt (i : Nat) (base : Reg) :
    s1Visit mem r vm addr type mode virt hlvx i base =
      s2xlate mem r addr (s1Slot vm addr i base) .load type virt false >>= fun slot =>
        visitAt mem (s1Class r vm type mode virt hlvx i) vm slot (addr >>> pgShift)
          addr type type virt
          (hasBits (r.envcfg virt) envcfgHade) i id := by
  simp only [visitAt, Option.map_id, id]
  rfl

end Rounds

/-! ### Addresses of one page -/

/-- Addresses with one page number. -/
def SamePage (a b : Reg) : Prop :=
  a >>> pgShift = b >>> pgShift

namespace SamePage

variable {a b : Reg}

theorem getLsbD_eq (h : SamePage a b) {i : Nat} (hi : 12 ≤ i) : a.getLsbD i = b.getLsbD i := by
  have hbit := congrArg (fun x : Reg => x.getLsbD (i - 12)) h
  simpa [pgShift, Nat.add_sub_of_le hi] using hbit

theorem shiftRight_eq (h : SamePage a b) {k : Nat} (hk : 12 ≤ k) : a >>> k = b >>> k := by
  apply BitVec.eq_of_getLsbD_eq
  intro i _
  rw [BitVec.getLsbD_ushiftRight, BitVec.getLsbD_ushiftRight, h.getLsbD_eq (by omega)]

/-- A mask without offset bits selects the same from both. -/
theorem and_eq (h : SamePage a b) {m : Reg} (hm : ∀ i, i < 12 → m.getLsbD i = false) :
    a &&& m = b &&& m := by
  apply BitVec.eq_of_getLsbD_eq
  intro i _
  rw [BitVec.getLsbD_and, BitVec.getLsbD_and]
  by_cases hi : i < 12
  · rw [hm i hi, Bool.and_false, Bool.and_false]
  · rw [h.getLsbD_eq (by omega)]

theorem page_eq (h : SamePage a b) : a &&& ~~~pageMask = b &&& ~~~pageMask := by
  apply h.and_eq
  intro i hi
  simp [pageMask_eq, hi, show i < 64 by omega]

theorem zext (h : SamePage a b) (xlen : Xlen) : SamePage (xlen.zext a) (xlen.zext b) := by
  cases xlen with
  | rv64 => exact h
  | rv32 =>
    rw [SamePage, Xlen.zext, Xlen.zext, BitVec.ushiftRight_and_distrib,
      BitVec.ushiftRight_and_distrib, h]

theorem eq (h : SamePage a b) (hmod : a.toNat % 4096 = b.toNat % 4096) : a = b := by
  have hdiv : a.toNat / 4096 = b.toNat / 4096 := by
    have hnat := congrArg BitVec.toNat h
    simpa [pgShift, Nat.shiftRight_eq_div_pow] using hnat
  apply BitVec.eq_of_toNat_eq
  omega

end SamePage

/-- Offsets put into one page. -/
theorem samePage_or_offset (page a b : Reg) :
    SamePage (page ||| (a &&& pageMask)) (page ||| (b &&& pageMask)) := by
  have hz : ∀ x : Reg, (x &&& pageMask) >>> pgShift = 0#64 := by
    intro x
    apply BitVec.eq_of_getLsbD_eq
    intro i _
    simp [pageMask_eq, Bits.getLsbD_lowMask, pgShift]
  rw [SamePage, BitVec.ushiftRight_or_distrib, BitVec.ushiftRight_or_distrib, hz, hz]

theorem canonical_congr {xlen : Xlen} {vm : VmInfo} {a b : Reg} (h : SamePage a b)
    (hvm : 0 < vm.levels * vm.idxbits) : canonical xlen vm a = canonical xlen vm b := by
  rw [canonical, canonical,
    h.shiftRight_eq (k := vaBits vm - 1) (by simp only [vaBits, pgShift]; omega)]

theorem s1Slot_congr {vm : VmInfo} {a b : Reg} (h : SamePage a b) (i : Nat) (base : Reg) :
    s1Slot vm a i base = s1Slot vm b i base := by
  simp only [s1Slot, h.shiftRight_eq (k := pgShift + i * vm.idxbits) (Nat.le_add_right _ _)]

theorem s2Slot_congr {vm : VmInfo} {a b : Reg} (h : SamePage a b) (i : Nat) (base : Reg) :
    s2Slot vm a i base = s2Slot vm b i base := by
  simp only [s2Slot, h.shiftRight_eq (k := pgShift + i * vm.idxbits) (Nat.le_add_right _ _)]

theorem inRange_congr {vm : VmInfo} {a b : Reg} (h : SamePage a b) :
    a &&& ~~~maxGpa vm = b &&& ~~~maxGpa vm := by
  apply h.and_eq
  intro i hi
  have hset : (maxGpa vm).getLsbD i = true := by
    rw [maxGpa]
    by_cases hk : vm.levels * vm.idxbits + vm.widenbits + pgShift < 64
    · rw [Bits.one_shiftLeft_sub_one hk, Bits.getLsbD_lowMask]
      have hshift : pgShift = 12 := rfl
      simp only [Bool.and_eq_true, decide_eq_true_eq]
      omega
    · rw [BitVec.shiftLeft_eq_zero (by omega)]
      have hall : (0#64 - 1#64 : Reg) = BitVec.allOnes 64 := by decide
      rw [hall, BitVec.getLsbD_allOnes]
      exact decide_eq_true (by omega)
  rw [BitVec.getLsbD_not, hset, Bool.not_true, Bool.and_false]

/-- The addresses two rounds make of one page. -/
def OfPage (post post' : Reg → Reg) (a a' : Reg) : Prop :=
  ∃ page : Reg, page.toNat % 4096 = 0 ∧ a = post page ∧ a' = post' page

/-- A table starts a page. -/
def PageStart (base : Reg) : Prop :=
  base.toNat % 4096 = 0

/-! ### Related memories -/

section Related

variable {m n : Type → Type} [Monad m] [Monad n]

/-- What makes two runs of the walker for `type` and `type'` relate: both see the same tables,
stopping is related to everything, and rounds whose classifications are in `Cls` are related. -/
structure WalkRel (L : Relator m n) (mem : PteMem m) (mem' : PteMem n) (r r' : Regime)
    (type type' : AccessType) (mode : Reg) (virt hlvx : Bool)
    (Cls : AccessType → AccessType → (Reg → PteClass) → (Reg → PteClass) → Prop) : Prop where
  xlen : r'.xlen = r.xlen
  hgatp : r'.hgatp = r.hgatp
  atp : r'.atp virt = r.atp virt
  stop_bind : ∀ {α β : Type} (e : Stop) (f : α → m β), mem.stop α e >>= f = mem.stop β e
  stop_bind' : ∀ {α β : Type} (e : Stop) (f : α → n β), mem'.stop α e >>= f = mem'.stop β e
  stop : ∀ {α β : Type} {V : α → β → Prop} (e : Stop) (d' : n β), L.rel V (mem.stop α e) d'
  s2Class : virt = true → ∀ vm ty ty' hl i, (ty = .load ∧ ty' = .load) ∨ (ty = type ∧ ty' = type') →
    Cls ty ty' (s2Class r vm ty hl i) (s2Class r' vm ty' hl i)
  s1Class : mode ≠ prvM → ∀ vm i,
    Cls type type' (s1Class r vm type mode virt hlvx i) (s1Class r' vm type' mode virt hlvx i)
  visit : ∀ {cls cls' vm slot vpn addr addr' ty ty' tt tt' v hade hade' i post post' e e'},
    Cls ty ty' cls cls' → vm.ptesize = r.pteSize → Aligned r.pteSize slot →
    L.rel (VisitRel PageStart (OfPage post post'))
      (live (mem.stop _ e) (visitAt mem cls vm slot vpn addr ty tt v hade i post))
      (live (mem'.stop _ e') (visitAt mem' cls' vm slot vpn addr' ty' tt' v hade' i post'))

namespace WalkRel

variable [LawfulMonad m] [LawfulMonad n] {L : Relator m n} {mem : PteMem m} {mem' : PteMem n}
  {r r' : Regime} {type type' : AccessType} {mode : Reg} {virt hlvx : Bool}
  {Cls : AccessType → AccessType → (Reg → PteClass) → (Reg → PteClass) → Prop}

/-- The search of the second stage. -/
theorem s2xlate_eq_findOr {l : Type → Type} [Monad l] [LawfulMonad l] {mem : PteMem l}
    (hstop : ∀ {α β : Type} (e : Stop) (f : α → l β), mem.stop α e >>= f = mem.stop β e)
    {gvm : VmInfo} (hgvm : decodeVmInfo r.xlen true 0#64 r.hgatp = some gvm) (hl : gvm.levels ≠ 0)
    (gva gpa : Reg) (ty tt : AccessType) (hl' : Bool) :
    s2xlate mem r gva gpa ty tt true hl' =
      if gpa &&& ~~~maxGpa gvm = 0#64 then
        findOr (mem.stop _ (.trap (guestPageFault tt gva gpa)))
          (s2Visit mem r gvm gva gpa ty tt hl') gvm.levels gvm.ptbase
      else mem.stop _ (.trap (guestPageFault tt gva gpa)) := by
  simp only [s2xlate, hgvm, Bool.not_true, Bool.false_eq_true, if_false, hl, s2Find]
  split
  · exact (descend_bind_eq_findOr_bind (fun _ => rfl) (hstop _ pure).symm _ _).trans (bind_pure _)
  · rw [pure_bind]

/-- The results of translating two guest-physical addresses of one page. -/
def Translated (gpa gpa' x y : Reg) : Prop :=
  SamePage x y ∧ x.toNat % 4096 = gpa.toNat % 4096 ∧ y.toNat % 4096 = gpa'.toNat % 4096

/-- Both runs translate the guest-physical addresses of a page alike. -/
theorem s2xlate_rel (h : WalkRel L mem mem' r r' type type' mode virt hlvx Cls)
    {ty ty' : AccessType} (hty : (ty = .load ∧ ty' = .load) ∨ (ty = type ∧ ty' = type'))
    (gva gva' : Reg) {gpa gpa' : Reg} (hgpa : SamePage gpa gpa') (tt tt' : AccessType) (hl : Bool) :
    L.rel (Translated gpa gpa') (s2xlate mem r gva gpa ty tt virt hl)
      (s2xlate mem' r' gva' gpa' ty' tt' virt hl) := by
  cases virt with
  | false => exact L.rel_pure ⟨hgpa, rfl, rfl⟩
  | true =>
    cases hgvm : decodeVmInfo r.xlen true 0#64 r.hgatp with
    | none =>
      rw [s2xlate]
      simp only [hgvm, Bool.not_true, Bool.false_eq_true, if_false]
      exact h.stop _ _
    | some gvm =>
      have hgvm' : decodeVmInfo r'.xlen true 0#64 r'.hgatp = some gvm := by
        rw [h.xlen, h.hgatp, hgvm]
      by_cases hlev : gvm.levels = 0
      · simp only [s2xlate, hgvm, hgvm', hlev, Bool.not_true, Bool.false_eq_true, if_false, if_true]
        exact L.rel_pure ⟨hgpa, rfl, rfl⟩
      · rw [s2xlate_eq_findOr h.stop_bind hgvm hlev, s2xlate_eq_findOr h.stop_bind' hgvm' hlev,
          ← inRange_congr hgpa]
        split
        case isFalse => exact h.stop _ _
        case isTrue =>
          have hscheme := decodeVmInfo_scheme hgvm hlev
          have hsize : gvm.ptesize = r.pteSize := hscheme.ptesize
          have hround : ∀ i base, PageStart base →
              L.rel (VisitRel PageStart
                (OfPage (· ||| (gpa &&& pageMask)) (· ||| (gpa' &&& pageMask))))
                (live (mem.stop _ (.trap (guestPageFault tt gva gpa)))
                  (s2Visit mem r gvm gva gpa ty tt hl i base))
                (live (mem'.stop _ (.trap (guestPageFault tt' gva' gpa')))
                  (s2Visit mem' r' gvm gva' gpa' ty' tt' hl i base)) := by
            intro i base hbase
            rw [s2Visit_eq_visitAt, s2Visit_eq_visitAt, ← s2Slot_congr hgpa, ← hgpa]
            exact h.visit (h.s2Class rfl gvm ty ty' hl i hty) hsize
              (hsize ▸ aligned_entry hscheme.ptesize_cases hbase _)
          have hrel := findOr_rel L (h.stop_bind _) (h.stop_bind' _) (h.stop _) hround gvm.levels
            hscheme.ptbase
          -- a found address keeps the offset of the guest-physical one
          have himp := L.rel_bind hrel (fun x y hxy => L.rel_pure (x := x) (y := y)
            (V := Translated gpa gpa') (by
              obtain ⟨page, hpage, rfl, rfl⟩ := hxy
              exact ⟨samePage_or_offset _ _ _, or_offset_mod_page hpage, or_offset_mod_page hpage⟩))
          rwa [bind_pure, bind_pure] at himp

/-- The search of the first stage and what follows it. -/
theorem walkTables_eq_findOr {l : Type → Type} [Monad l] [LawfulMonad l] {mem : PteMem l}
    (hstop : ∀ {α β : Type} (e : Stop) (f : α → l β), mem.stop α e >>= f = mem.stop β e)
    (vm : VmInfo) (addr : Reg) (ty : AccessType) (mode : Reg) (virt hlvx : Bool) :
    walkTables mem r vm addr ty mode virt hlvx =
      findOr (mem.stop _ (.trap (pageFault ty virt addr)))
          (s1Visit mem r vm addr ty mode virt hlvx)
          (if canonical r.xlen vm addr then vm.levels else 0)
          vm.ptbase >>= fun page =>
        s2xlate mem r addr (page ||| (addr &&& pageMask)) ty ty virt hlvx >>= fun phys =>
          pure (phys &&& ~~~pageMask) :=
  descend_bind_eq_findOr_bind (fun _ => rfl) (hstop _ _).symm _ _

/-- A mode with levels is not machine mode. -/
theorem ne_prvM_of_levels {xlen : Xlen} {atp : Reg} {vm : VmInfo}
    (hvm : decodeVmInfo xlen false mode atp = some vm) (hl : vm.levels ≠ 0) : mode ≠ prvM := by
  rintro rfl
  rw [decodeVmInfo, if_pos rfl] at hvm
  cases hvm
  exact hl rfl

/-- **Related walks** of two addresses of a page find the same page. -/
theorem walk_rel (h : WalkRel L mem mem' r r' type type' mode virt hlvx Cls) {addr addr' : Reg}
    (haddr : SamePage addr addr') :
    L.rel (fun x y : Reg => x = y) (walk mem r addr type mode virt hlvx)
      (walk mem' r' addr' type' mode virt hlvx) := by
  have htype : (type = .load ∧ type' = .load) ∨ (type = type ∧ type' = type') := .inr ⟨rfl, rfl⟩
  have hvm' : decodeVmInfo r'.xlen false mode (r'.atp virt) =
      decodeVmInfo r.xlen false mode (r.atp virt) := by
    rw [h.xlen, h.atp]
  rw [walk, walk, hvm']
  cases hvm : decodeVmInfo r.xlen false mode (r.atp virt) with
  | none => exact h.stop _ _
  | some vm =>
    dsimp only
    by_cases hlev : vm.levels = 0
    · rw [if_pos hlev, if_pos hlev, h.xlen]
      apply L.rel_bind (h.s2xlate_rel htype addr addr' (haddr.zext r.xlen) type type' hlvx)
      rintro phys phys' ⟨hphys, -⟩
      exact L.rel_pure hphys.page_eq
    · have hscheme := decodeVmInfo_scheme hvm hlev
      have hsize : vm.ptesize = r.pteSize := hscheme.ptesize
      have hbits : 0 < vm.levels * vm.idxbits := by
        rw [hscheme.idxbits]
        exact Nat.mul_pos (Nat.pos_of_ne_zero hlev) (by split <;> decide)
      rw [if_neg hlev, if_neg hlev, walkTables_eq_findOr h.stop_bind,
        walkTables_eq_findOr h.stop_bind',
        h.xlen, ← canonical_congr haddr hbits]
      refine L.rel_bind (findOr_rel L (P := PageStart) (Q := OfPage id id) (h.stop_bind _)
        (h.stop_bind' _) (h.stop _) ?_ _ hscheme.ptbase) ?_
      · intro i base hbase
        rw [s1Visit_eq_visitAt, s1Visit_eq_visitAt, live, live, bind_assoc, bind_assoc,
          ← s1Slot_congr haddr, ← haddr]
        have hentry : Aligned vm.ptesize (s1Slot vm addr i base) :=
          aligned_entry hscheme.ptesize_cases hbase _
        apply L.rel_bind
          (h.s2xlate_rel (.inl ⟨rfl, rfl⟩) addr addr' (rfl : SamePage _ _) type type' false)
        rintro slot slot' ⟨hpage, hslot, hslot'⟩
        obtain rfl := hpage.eq (hslot.trans hslot'.symm)
        exact h.visit (h.s1Class (ne_prvM_of_levels hvm hlev) vm i) hsize
          (aligned_of_mod_page (hsize ▸ hentry) hslot)
      · rintro page page' ⟨p, -, hp, hp'⟩
        obtain rfl : page = page' := hp.trans hp'.symm
        apply L.rel_bind
          (h.s2xlate_rel htype addr addr' (samePage_or_offset page addr addr') type type' hlvx)
        rintro phys phys' ⟨hphys, -⟩
        exact L.rel_pure hphys.page_eq

end WalkRel

end Related

end Nnemu

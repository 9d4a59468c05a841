import Nnemu.Mmu.Again
import Nnemu.Mmu.Later
import Nnemu.Mmu.Peek

/-!
# The entries a walk reads

A walk that finds its entries in RAM changes nothing but A and D bits, and only in entries it has
read. So where two worlds differ in such bits alone, walks of one address go the same way whatever
the types of the accesses are, and where both find a page it is the same one: `translate_agree`.
Which entries these are is what a walk over `notedMem` writes down.

`notedMem` is the machine with a list beside it: the walk over it is the walk of the machine, and
the list has what was read. That an update changes A and D bits only, and of a noted entry only, is
proved for one round and carried along the descent. `walk_agree` then compares two walks over
memories that differ in such bits.
-/

namespace Nnemu

open Radix Bytes

variable {δ : Type} {bus : Bus δ} {r : Regime} {w w' u : World δ} {l entries : List Reg} {n : Nat}

/-! ### Writing entries down -/

/-- Programs of the walker that keep a list of entries. -/
abbrev Noted (δ : Type) : Type → Type :=
  Exec Stop (World δ × List Reg)

/-- A result, with a list of entries. -/
def withEntries {α : Type} (l : List Reg) : EStateM.Result Stop (World δ) α →
    EStateM.Result Stop (World δ × List Reg) α
  | .ok a w => .ok a (w, l)
  | .error e w => .error e (w, l)

/-- Page-table memory of the machine, with a note of every entry that is read. -/
def notedMem (bus : Bus δ) (r : Regime) : PteMem (Noted δ) where
  load := fun slot addr virt trapType n s =>
    match pteLoad bus r slot addr virt trapType n s.1 with
    | .ok pte w => .ok pte (w, slot :: s.2)
    | .error e w => .error e (w, s.2)
  store := fun slot pte addr virt trapType n s =>
    withEntries s.2 (pteStore bus r slot pte addr virt trapType n s.1)
  stop := fun _ e => throw e

/-- The entries that a walk reads. -/
def walkEntries (bus : Bus δ) (r : Regime) (addr : Reg) (type : AccessType)
    (mode : Reg) (virt : Bool) (w : World δ) :
    List Reg :=
  (Exec.final (walk (notedMem bus r) r addr type mode virt false (w, []))).2

/-! ### A and D bits -/

/-- Worlds whose RAM differs in A and D bits alone, of these entries of `n` bytes. -/
def AdOnly (entries : List Reg) (n : Nat) (w w' : World δ) : Prop :=
  ∀ a, w'.mem a = w.mem a ∨ (a ∈ entries ∧ Aligned n a ∧ w'.mem a &&& 0x3f#8 = w.mem a &&& 0x3f#8)

namespace AdOnly

theorem refl (entries : List Reg) (n : Nat) (w : World δ) : AdOnly entries n w w :=
  fun _ => .inl rfl

theorem symm (h : AdOnly entries n w w') : AdOnly entries n w' w := by
  intro a
  obtain heq | ⟨hin, ha, heq⟩ := h a
  · exact .inl heq.symm
  · exact .inr ⟨hin, ha, heq.symm⟩

theorem trans (h : AdOnly entries n w w') (h' : AdOnly entries n w' u) : AdOnly entries n w u := by
  intro a
  obtain heq | ⟨hin, ha, heq⟩ := h a
  · rw [← heq]
    exact h' a
  · obtain heq' | ⟨-, -, heq'⟩ := h' a
    · rw [heq']
      exact .inr ⟨hin, ha, heq⟩
    · exact .inr ⟨hin, ha, heq'.trans heq⟩

theorem mono (h : AdOnly l n w w') (hsub : l ⊆ entries) : AdOnly entries n w w' := by
  intro a
  obtain heq | ⟨hin, ha, heq⟩ := h a
  · exact .inl heq
  · exact .inr ⟨hsub hin, ha, heq⟩

theorem of_mem_eq (h : w'.mem = w.mem) : AdOnly entries n w w' :=
  fun a => .inl (congrFun h a)

/-- An entry is the same but for its A and D bits. -/
theorem read (h : AdOnly entries n w w') {slot : Reg} (hslot : Aligned n slot) :
    AgreeOffAd (w.read slot n) (w'.read slot n) := by
  apply BitVec.eq_of_getLsbD_eq
  intro j hj
  rw [BitVec.getLsbD_and, BitVec.getLsbD_and, World.read, World.read,
    getLsbD_fromBytes_readBytes _ _ _ hj,
    getLsbD_fromBytes_readBytes _ _ _ hj]
  by_cases hn : j / 8 < n
  · obtain heq | ⟨-, halign, heq⟩ := h (slot + BitVec.ofNat 64 (j / 8))
    · rw [heq]
    · -- the only aligned byte of an entry is the first
      have hsmall : j < 8 := by
        have hdvd := halign.dvd
        have hdvd' := hslot.dvd
        have hlt := slot.isLt
        rw [BitVec.toNat_add, BitVec.toNat_ofNat] at hdvd
        obtain rfl | rfl := hslot.size <;> omega
      have hbits (b : BitVec 8) : (b &&& 0x3f#8).getLsbD j =
          (b.getLsbD j && (~~~adMask).getLsbD j) := by
        rw [BitVec.getLsbD_and]
        have hmask : (0x3f#8).getLsbD j = (~~~adMask).getLsbD j := by
          have hall : ∀ k < 8, (0x3f#8).getLsbD k = (~~~adMask).getLsbD k := by decide
          exact hall j hsmall
        rw [hmask]
      have hbyte : (w'.mem (slot + BitVec.ofNat 64 (j / 8)) &&& 0x3f#8).getLsbD j = _ :=
        congrArg (fun b : BitVec 8 => b.getLsbD j) heq
      rw [hbits, hbits] at hbyte
      rw [Nat.mod_eq_of_lt hsmall, Bool.and_assoc, Bool.and_assoc, hbyte]
  · rw [decide_eq_false hn, Bool.false_and, Bool.false_and, Bool.false_and, Bool.false_and]

end AdOnly

theorem getLsbD_adBits {type : AccessType} {k : Nat} (hk : k < 64)
    (h : (adBits type).getLsbD k = true) : k = 6 ∨ k = 7 := by
  have hall : ∀ type, ∀ k < 64, (adBits type).getLsbD k = true → k = 6 ∨ k = 7 := by
    intro type
    cases type <;> decide
  exact hall type k hk h

/-- The update of a leaf. -/
theorem adOnly_update {slot : Reg} {type : AccessType} (hslot : Aligned n slot)
    (hin : slot ∈ entries) :
    AdOnly entries n w
    (w.setMem true (writeBytes w.mem slot (toBytes (w.read slot n ||| adBits type) n))) := by
  intro a
  change writeBytes w.mem slot _ a = _ ∨ _ ∧ _ ∧ writeBytes w.mem slot _ a &&& _ = _
  by_cases hlt : (a - slot).toNat < n
  · generalize hi : (a - slot).toNat = i at hlt
    obtain rfl : a = slot + BitVec.ofNat 64 i := by
      rw [← hi, BitVec.ofNat_toNat, BitVec.setWidth_eq, BitVec.add_comm, BitVec.sub_add_cancel]
    have hn : n ≤ 8 := by
      obtain rfl | rfl := hslot.size <;> decide
    rw [writeBytes_add (by omega), getElem?_toBytes, if_pos hlt, Option.getD_some]
    -- bit for bit, a byte of the entry or one of the A and D bits
    have hbit (j : Nat) (hj : j < 8) :
        (((w.read slot n ||| adBits type) >>> (8 * i)).setWidth 8).getLsbD j =
          ((w.mem (slot + BitVec.ofNat 64 i)).getLsbD j || (adBits type).getLsbD (8 * i + j)) := by
      have hdiv : (8 * i + j) / 8 = i := by omega
      have hmod : (8 * i + j) % 8 = j := by omega
      rw [BitVec.getLsbD_setWidth, decide_eq_true hj, Bool.true_and, BitVec.getLsbD_ushiftRight,
        BitVec.getLsbD_or,
        World.read, getLsbD_fromBytes_readBytes _ _ _ (by omega), hdiv,
        hmod, decide_eq_true hlt, Bool.true_and]
    obtain rfl | hpos := Nat.eq_zero_or_pos i
    · refine .inr ⟨?_, ?_, ?_⟩
      · simpa using hin
      · simpa using hslot
      · apply BitVec.eq_of_getLsbD_eq
        intro j hj
        rw [BitVec.getLsbD_and, BitVec.getLsbD_and, hbit j hj]
        cases had : (adBits type).getLsbD (8 * 0 + j) with
        | false => rw [Bool.or_false]
        | true =>
          have hmask : (0x3f#8).getLsbD j = false := by
            obtain h6 | h7 := getLsbD_adBits (by omega) had
            · obtain rfl : j = 6 := by omega
              decide
            · obtain rfl : j = 7 := by omega
              decide
          rw [hmask, Bool.and_false, Bool.and_false]
    · refine .inl (BitVec.eq_of_getLsbD_eq fun j hj => ?_)
      rw [hbit j hj]
      cases had : (adBits type).getLsbD (8 * i + j) with
      | false => rw [Bool.or_false]
      | true =>
        have hbits := getLsbD_adBits (by omega) had
        omega
  · refine .inl (writeBytes_of_le ?_)
    rw [length_toBytes]
    exact Nat.le_of_not_lt hlt

/-! ### Rounds -/

section Rounds

variable {cls : Reg → PteClass} {vm : VmInfo} {slot vpn addr : Reg} {type trapType : AccessType}
  {virt hade : Bool}
  {i : Nat} {post : Reg → Reg} {e : Stop}

theorem adOnly_updateAd (r : Regime) (addr : Reg) (type : AccessType) (virt hade : Bool)
    (hslot : Aligned vm.ptesize slot)
    (hin : slot ∈ entries) (hmem : bus.isMem slot = true) :
    AdOnly entries vm.ptesize w
      (Exec.final (updateAd (busMem bus r) vm slot
        (w.read slot vm.ptesize) addr type virt hade w)) := by
  cases h : updateAd (busMem bus r) vm slot (w.read slot vm.ptesize) addr type virt hade w with
  | ok b w' =>
    obtain ⟨-, -, rfl⟩ | ⟨-, -, -, hst⟩ | ⟨-, -, -, rfl⟩ := updateAd_ok_iff.1 h
    · exact .refl _ _ _
    · change AdOnly _ _ w w'
      rw [(pteStore_ok hst).2.1 hmem]
      exact adOnly_update hslot hin
    · exact .refl _ _ _
  | error e w' =>
    obtain ⟨-, -, hst⟩ := updateAd_error_iff.1 h
    -- a store to RAM is refused by PMP or not at all
    have hsame : w' = w := by
      rw [pteStore, if_pos hmem] at hst
      split at hst
      · cases hst
        rfl
      · cases hst
    rw [hsame]
    exact .refl _ _ _

/-- A round changes A and D bits of the entry that it reads. -/
theorem adOnly_visitAt (r : Regime) (cls : Reg → PteClass) (vpn addr : Reg)
    (type trapType : AccessType)
    (virt hade : Bool) (i : Nat) (post : Reg → Reg) (e : Stop) (hslot : Aligned vm.ptesize slot)
    (hread : ∀ pte u, pteLoad bus r slot addr virt trapType vm.ptesize w = .ok pte u →
      slot ∈ entries ∧ bus.isMem slot = true) :
    AdOnly entries vm.ptesize w (Exec.final (live ((busMem bus r).stop _ e)
      (visitAt (busMem bus r) cls vm slot vpn addr type trapType virt hade i post) w)) := by
  rw [live, visitAt, bind_assoc]
  change AdOnly _ _ _ (Exec.final ((pteLoad bus r slot addr virt trapType vm.ptesize >>= _) w))
  cases hload : pteLoad bus r slot addr virt trapType vm.ptesize w with
  | error s u =>
    rw [Exec.bind_of_error hload]
    exact .of_mem_eq (pteLoad_error hload).2.mem
  | ok pte u =>
    obtain ⟨hin, hmem⟩ := hread pte u hload
    obtain ⟨rfl, rfl⟩ := (pteLoad_ok hload).2.2 hmem
    rw [Exec.bind_of_ok hload]
    cases cls (u.read slot vm.ptesize) with
    | bad => exact .refl _ _ _
    | table => exact .refl _ _ _
    | leaf =>
      have had := adOnly_updateAd (w := u) r addr type virt hade hslot hin hmem
      dsimp only
      rw [finishLeaf, bind_assoc, bind_assoc]
      cases hupdate : updateAd (busMem bus r) vm slot
        (u.read slot vm.ptesize) addr type virt hade u with
      | error s t =>
        rw [hupdate] at had
        rw [Exec.bind_of_error hupdate]
        exact had
      | ok b t =>
        rw [hupdate] at had
        rw [Exec.bind_of_ok hupdate]
        cases b with
        | false => exact had
        | true => cases napotRefused i (u.read slot vm.ptesize) <;> exact had

/-- The update of a leaf reads no entry. -/
theorem updateAd_noted (pte : Reg) (u : World δ) (l : List Reg) :
    updateAd (notedMem bus r) vm slot pte addr type virt hade (u, l) =
      withEntries l (updateAd (busMem bus r) vm slot pte addr type virt hade u) := by
  simp only [updateAd, Exec.ite_apply]
  by_cases had : pte &&& adBits type = adBits type
  · simp only [had, ne_eq, not_true_eq_false, if_false]
    rfl
  · simp only [had, ne_eq, not_false_eq_true, if_true]
    cases hade with
    | false => rfl
    | true =>
      simp only [if_true, bind, EStateM.bind, notedMem, busMem]
      cases pteStore bus r slot (pte ||| adBits type) addr virt type vm.ptesize u with
      | error s t => rfl
      | ok x t => rfl

/-- A noted round is the round, with a note when it has read its entry. -/
theorem live_visitAt_noted (r : Regime) (cls : Reg → PteClass) (vm : VmInfo) (slot vpn addr : Reg)
    (type trapType : AccessType) (virt hade : Bool) (i : Nat) (post : Reg → Reg)
    (e : Stop) (w : World δ) (l : List Reg) :
    ∃ l', l ⊆ l' ∧
    (∀ pte u, pteLoad bus r slot addr virt trapType vm.ptesize w = .ok pte u → slot ∈ l') ∧
      live ((notedMem bus r).stop _ e)
          (visitAt (notedMem bus r) cls vm slot vpn addr type trapType virt hade i post) (w, l) =
        withEntries l' (live ((busMem bus r).stop _ e)
          (visitAt (busMem bus r) cls vm slot vpn addr type trapType virt hade i post) w) := by
  cases hload : pteLoad bus r slot addr virt trapType vm.ptesize w with
  | error s u =>
    refine ⟨l, List.Subset.refl l, fun _ _ h => (by cases h), ?_⟩
    simp only [live, visitAt, bind, EStateM.bind, notedMem, busMem, hload, withEntries]
  | ok pte u =>
    refine ⟨slot :: l, List.subset_cons_self slot l, fun _ _ _ => List.mem_cons_self, ?_⟩
    have hbus : (busMem bus r).load slot addr virt trapType vm.ptesize w = .ok pte u := hload
    have hnoted : (notedMem bus r).load slot addr virt trapType vm.ptesize
        (w, l) = .ok pte (u, slot :: l) := by
      simp only [notedMem, hload]
    simp only [live, visitAt, bind, EStateM.bind, hbus, hnoted]
    cases cls pte with
    | bad => rfl
    | table => rfl
    | leaf =>
      simp only [finishLeaf, bind, EStateM.bind, updateAd_noted pte u (slot :: l)]
      cases updateAd (busMem bus r) vm slot pte addr type virt hade u with
      | error s t => rfl
      | ok b t =>
        cases b with
        | false => rfl
        | true => cases napotRefused i pte <;> rfl

end Rounds

/-! ### The walk that is noted -/

/-- A noted result and the result it is of. -/
inductive NotedOf {α β : Type} (V : α → β → Prop) :
    EStateM.Result Stop (World δ × List Reg) α → EStateM.Result Stop (World δ) β → Prop
  | ok {x : α} {y : β} {w : World δ} {l : List Reg} (h : V x y) : NotedOf V (.ok x (w, l)) (.ok y w)
  | error (e : Stop) (w : World δ) (l : List Reg) : NotedOf V (.error e (w, l)) (.error e w)

/-- Noted programs and the programs they are of. -/
def notedRelator (δ : Type) : Relator (Noted δ) (Exec Stop (World δ)) where
  rel := fun V d e => ∀ w l, NotedOf V (d (w, l)) (e w)
  rel_pure := fun hV _ _ => .ok hV
  rel_bind := by
    intro α β γ ι V W d e f g hd hf w l
    have hfirst := hd w l
    cases hx : d (w, l) with
    | error s t =>
      rw [Exec.bind_of_error hx]
      rw [hx] at hfirst
      generalize he : e w = res at hfirst
      cases hfirst with
      | error _ u l' =>
        rw [Exec.bind_of_error he]
        exact .error s u l'
    | ok x t =>
      rw [Exec.bind_of_ok hx]
      rw [hx] at hfirst
      generalize he : e w = res at hfirst
      cases hfirst with
      | @ok _ y u l' hV =>
        rw [Exec.bind_of_ok he]
        exact hf x y hV u l'

theorem notedMem_alike (bus : Bus δ) (r : Regime) :
    PteMem.Alike (notedRelator δ) (notedMem bus r) (busMem bus r) where
  load := by
    intro slot addr virt trapType n w l
    simp only [notedMem, busMem]
    cases pteLoad bus r slot addr virt trapType n w with
    | ok pte u => exact .ok rfl
    | error e u => exact .error e u l
  store := by
    intro slot pte addr virt trapType n w l
    simp only [notedMem, busMem]
    cases pteStore bus r slot pte addr virt trapType n w with
    | ok x u => exact .ok rfl
    | error e u => exact .error e u l
  stop := fun {_ e} _ w l => .error e w l

/-! ### Two walks -/

/-- A noted run and a run in a world that differs in A and D bits of its entries, which are in RAM.
Neither changes anything else, and the second one finds the same when the first one finds
something. -/
def agreeRelator (bus : Bus δ) (entries : List Reg) (n : Nat) :
    Relator (Noted δ) (Exec Stop (World δ)) where
  rel := fun V d e => ∀ w l, l ⊆ (Exec.final (d (w, l))).2 ∧
    (∀ x t, d (w, l) = .ok x t → ∃ y, V x y) ∧
    ((∀ slot ∈ (Exec.final (d (w, l))).2, slot ∈ entries ∧ bus.isMem slot = true) →
      AdOnly entries n w (Exec.final (d (w, l))).1 ∧
        ∀ x t, d (w, l) = .ok x t → ∀ w', AdOnly entries n w w' →
          AdOnly entries n w' (Exec.final (e w')) ∧ ∀ y u, e w' = .ok y u → V x y)
  rel_pure := by
    intro α β V x y hV w l
    refine ⟨List.Subset.refl l, fun _ _ hx => ?_,
      fun _ => ⟨.refl _ _ _, fun _ _ hx w' _ => ⟨.refl _ _ _, ?_⟩⟩⟩
    · cases hx
      exact ⟨y, hV⟩
    · rintro _ _ ⟨⟩
      cases hx
      exact hV
  rel_bind := by
    intro α β γ ι V W d e f g hd hf w l
    obtain ⟨hsub, hsome, hfirst⟩ := hd w l
    cases hx : d (w, l) with
    | error s t =>
      rw [hx] at hsub hfirst
      rw [Exec.bind_of_error hx]
      refine ⟨hsub, ?_, fun hin => ⟨(hfirst hin).1, ?_⟩⟩
      · rintro _ _ ⟨⟩
      · rintro _ _ ⟨⟩
    | ok x t =>
      rw [hx] at hsub hfirst
      rw [Exec.bind_of_ok hx]
      obtain ⟨y, hV⟩ := hsome x t hx
      obtain ⟨hsub', hsome', -⟩ := hf x y hV t.1 t.2
      refine ⟨List.Subset.trans hsub hsub', hsome', fun hin => ?_⟩
      obtain ⟨had, hsecond⟩ := hfirst fun slot hslot => hin slot (hsub' hslot)
      refine ⟨had.trans ((hf x y hV t.1 t.2).2.2 hin).1, fun z t' hz w' hw' => ?_⟩
      obtain ⟨had', hfound⟩ := hsecond x t rfl w' hw'
      cases he : e w' with
      | error s u =>
        rw [he] at had'
        rw [Exec.bind_of_error he]
        refine ⟨had', ?_⟩
        rintro _ _ ⟨⟩
      | ok y' u =>
        rw [he] at had'
        rw [Exec.bind_of_ok he]
        obtain ⟨had'', hfound'⟩ :=
          ((hf x y' (hfound y' u he) t.1 t.2).2.2 hin).2 z t' hz u (had.symm.trans (hw'.trans had'))
        exact ⟨had'.trans had'', hfound'⟩

theorem AgreeOffAd.table_ne {p q : Reg} (h : AgreeOffAd p q) (hp : pteTable p = true)
    (hq : pteTable q = false) : False := by
  rw [h.pteTable_eq, hq] at hp
  cases hp

theorem walkRel_agree (bus : Bus δ) (r : Regime) (entries : List Reg) (type type' : AccessType)
    (mode : Reg) (virt : Bool) :
    WalkRel (agreeRelator bus entries r.pteSize) (notedMem bus r) (busMem bus r)
      r r type type' mode virt false
      (fun _ _ cls cls' => ∀ p q, AgreeOffAd p q → (cls p = .table → cls' q ≠ .leaf) ∧
        (cls p = .leaf → cls' q ≠ .table)) where
  xlen := rfl
  hgatp := rfl
  atp := rfl
  stop_bind := fun _ _ => rfl
  stop_bind' := fun _ _ => rfl
  stop := by
    intro _ _ _ _ _ w l
    refine ⟨List.Subset.refl l, ?_, fun _ => ⟨.refl _ _ w, ?_⟩⟩
    · rintro _ _ ⟨⟩
    · rintro _ _ ⟨⟩
  s2Class := by
    intro _ vm ty ty' hl i _ p q hpq
    refine ⟨fun hc hc' => ?_, fun hc hc' => ?_⟩
    · exact hpq.table_ne (s2Classify_eq_table_iff.1 hc).2.1 (s2Classify_eq_leaf_iff.1 hc').2.1
    · exact hpq.symm.table_ne (s2Classify_eq_table_iff.1 hc').2.1 (s2Classify_eq_leaf_iff.1 hc).2.1
  s1Class := by
    intro _ vm i p q hpq
    refine ⟨fun hc hc' => ?_, fun hc hc' => ?_⟩
    · exact hpq.table_ne (s1Classify_eq_table_iff.1 hc).2.1 (s1Classify_eq_leaf_iff.1 hc').2.1
    · exact hpq.symm.table_ne (s1Classify_eq_table_iff.1 hc').2.1 (s1Classify_eq_leaf_iff.1 hc).2.1
  visit := by
    intro cls cls' vm slot vpn addr addr' ty ty' tt tt' v hade hade' i
      post post' e e' hcls hsize hslot w l
    rw [← hsize] at hslot ⊢
    obtain ⟨l', hsub, hnoted, heq⟩ :=
      live_visitAt_noted r cls vm slot vpn addr ty tt v hade i post e w l
    rw [heq]
    generalize hfirst : live ((busMem bus r).stop _ e) _ w = first at hnoted ⊢
    have hslots (hin : ∀ slot ∈ l', slot ∈ entries ∧ bus.isMem slot = true)
      (pte : Reg) (u : World δ)
        (hload : pteLoad bus r slot addr v tt vm.ptesize w = .ok pte u) : slot ∈ entries ∧
          bus.isMem slot = true :=
      hin slot (hnoted pte u hload)
    have had (hin : ∀ slot ∈ l', slot ∈ entries ∧ bus.isMem slot = true) :
        AdOnly entries vm.ptesize w (Exec.final first) := by
      rw [← hfirst]
      exact adOnly_visitAt r cls vpn addr ty tt v hade i post e hslot (hslots hin)
    cases first with
    | error s u =>
      exact ⟨hsub, fun _ _ h => (by cases h), fun hin => ⟨had hin, fun _ _ h => (by cases h)⟩⟩
    | ok x u =>
      obtain ⟨p, t, hload, hround⟩ := live_visitAt_ok_iff.1 hfirst
      refine ⟨hsub, fun _ _ h => ?_, fun hin => ⟨had hin, fun _ _ h w' hw' => ?_⟩⟩
      · cases h
        obtain ⟨-, rfl, -⟩ | ⟨-, -, rfl, -⟩ := hround
        · exact ⟨.next _, rfl, shiftLeft_mod_page _⟩
        · exact ⟨.done (some _), _, pageBase_mod_page _ _ _, rfl, rfl⟩
      · cases h
        obtain ⟨hentry, hmem⟩ := hslots hin p t hload
        refine ⟨adOnly_visitAt r cls' vpn addr' ty' tt' v hade' i post' e' hslot fun _ _ _ =>
          ⟨hentry, hmem⟩, ?_⟩
        intro y u' hy
        obtain ⟨q, t', hload', hround'⟩ := live_visitAt_ok_iff.1 hy
        obtain ⟨rfl, rfl⟩ := (pteLoad_ok hload).2.2 hmem
        obtain ⟨rfl, rfl⟩ := (pteLoad_ok hload').2.2 hmem
        have hagree := hw'.read hslot
        obtain ⟨htables, hleaves⟩ := hcls _ _ hagree
        -- of words that agree off A and D neither is a table where the other is a leaf
        obtain ⟨hc, rfl, -⟩ | ⟨hc, -, rfl, -⟩ := hround
        · obtain ⟨-, rfl, -⟩ | ⟨hc', -⟩ := hround'
          · exact ⟨by rw [hagree.ptePpn_eq], shiftLeft_mod_page _⟩
          · exact absurd hc' (htables hc)
        · obtain ⟨hc', -⟩ | ⟨-, -, rfl, -⟩ := hround'
          · exact absurd hc' (hleaves hc)
          · exact ⟨_, pageBase_mod_page _ _ _, rfl, by rw [hagree.pageBase_eq]⟩

/-! ### Translations -/

theorem NotedOf.final_eq {α β : Type} {V : α → β → Prop}
    {d : EStateM.Result Stop (World δ × List Reg) α}
    {e : EStateM.Result Stop (World δ) β} (h : NotedOf V d e) :
    (Exec.final d).1 = Exec.final e := by
  cases h with
  | ok => rfl
  | error => rfl

section Walks

variable {addr mode : Reg} {type : AccessType} {virt : Bool}

/-- A walk with its entries in RAM changes A and D bits of theirs. -/
theorem walk_adOnly
    (hram : ∀ slot ∈ walkEntries bus r addr type mode virt w, bus.isMem slot = true) :
    AdOnly (walkEntries bus r addr type mode virt w) r.pteSize w
      (Exec.final (walk (busMem bus r) r addr type mode virt false w)) := by
  obtain ⟨-, -, h⟩ :=
    (walkRel_agree bus r (walkEntries bus r addr type mode virt w) type type mode virt).walk_rel
    (rfl : SamePage addr addr) w []
  have had := (h fun slot hslot => ⟨hslot, hram slot hslot⟩).1
  rwa [((notedMem_alike bus r).walk addr type mode virt false w []).final_eq] at had

/-- **One page.** After a walk that has found a page, with its entries in RAM, one that starts where
nothing but A and D bits has changed finds no other page, whatever the type of the access, and
changes nothing else. -/
theorem walk_agree {page : Reg} (type' : AccessType)
    (hram : ∀ slot ∈ walkEntries bus r addr type mode virt w, bus.isMem slot = true)
    (hsub : walkEntries bus r addr type mode virt w ⊆ entries)
    (h : walk (busMem bus r) r addr type mode virt false w = .ok page u)
    (hw : AdOnly entries r.pteSize w w') :
    AdOnly entries r.pteSize w' (Exec.final (walk (busMem bus r) r addr type' mode virt false w')) ∧
      ∀ page' u', walk (busMem bus r) r addr type' mode virt false w' = .ok page' u' →
      page' = page := by
  obtain ⟨-, -, hagree⟩ :=
    (walkRel_agree bus r entries type type' mode virt).walk_rel (rfl : SamePage addr addr) w []
  obtain ⟨-, hlater⟩ := hagree fun slot hslot => ⟨hsub hslot, hram slot hslot⟩
  have hnoted := (notedMem_alike bus r).walk (r := r) addr type mode virt false w []
  rw [h] at hnoted
  generalize hd : walk (notedMem bus r) r addr type mode virt false (w, []) = d at hnoted hlater
  cases hnoted with
  | ok hpage =>
    obtain ⟨had, hfound⟩ := hlater _ _ rfl w' hw
    exact ⟨had, fun page' u' h' => (hfound page' u' h').symm.trans hpage⟩

end Walks

/-- The entries that a translation reads. -/
def translateEntries (bus : Bus δ) (r : Regime) (s : Privilege) (addr : Reg)
    (type : AccessType) (w : World δ) : List Reg :=
  walkEntries bus r addr type (s.effective type {}).1 (s.effective type {}).2 w

section Translations

variable {s : Privilege} {addr : Reg} {len : Nat} {type : AccessType}

theorem final_translate (w : World δ) :
    Exec.final (translate (busMem bus r) r s addr len type {} w) =
      Exec.final (walk (busMem bus r) r addr type (s.effective type {}).1
        (s.effective type {}).2 false w) := by
  rw [translate, translateAs]
  cases h : walk (busMem bus r) r addr type (s.effective type {}).1
    (s.effective type {}).2 false w with
  | error e u => rw [Exec.bind_of_error h]
  | ok page u =>
    rw [Exec.bind_of_ok h, Exec.ite_apply]
    split
    · rfl
    · rfl

/-- A translation with its entries in RAM changes A and D bits of theirs. -/
theorem translate_adOnly
    (hram : ∀ slot ∈ translateEntries bus r s addr type w, bus.isMem slot = true) :
    AdOnly (translateEntries bus r s addr type w) r.pteSize w
      (Exec.final (translate (busMem bus r) r s addr len type {} w)) := by
  rw [final_translate]
  exact walk_adOnly hram

/-- **One place.** A load or a store after a load or a store to the same address. -/
theorem translate_agree {paddr : Reg} {type' : AccessType} (htype : type ≠ .fetch)
    (htype' : type' ≠ .fetch)
    (hram : ∀ slot ∈ translateEntries bus r s addr type w, bus.isMem slot = true)
    (hsub : translateEntries bus r s addr type w ⊆ entries)
    (h : translate (busMem bus r) r s addr len type {} w = .ok paddr u)
    (hw : AdOnly entries r.pteSize w w') :
    AdOnly entries r.pteSize w' (Exec.final (translate (busMem bus r) r s addr len type' {} w')) ∧
      ∀ paddr' u', translate (busMem bus r) r s addr len type' {} w' = .ok paddr' u' →
      paddr' = paddr := by
  have heffective : s.effective type' {} = s.effective type {} := by
    rw [Privilege.effective, Privilege.effective, if_neg htype, if_neg htype']
  obtain ⟨page, hwalk, rfl, -⟩ := translateAs_ok_iff.1 h
  obtain ⟨had, hfound⟩ := walk_agree type' hram hsub hwalk hw
  rw [final_translate, heffective]
  refine ⟨had, fun paddr' u' h' => ?_⟩
  rw [translate, heffective] at h'
  obtain ⟨page', hwalk', rfl, -⟩ := translateAs_ok_iff.1 h'
  rw [hfound page' u' hwalk']

end Translations

end Nnemu

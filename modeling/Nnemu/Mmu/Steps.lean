import Nnemu.Mmu.Walk

/-!
# One step of the walker on the machine

Inversion lemmas for the walker over `busMem`: for each function, what a run that returns and a run
that throws have done. Later files reason from these and never unfold the walker.

Each function gets two lemmas: an equivalence for the runs that return, and one for the runs that
throw with all the places they can throw from. They are ordered as the functions call each other,
from the load of an entry up to the walk, and the loops are taken to paths of rounds by
`Radix.descend_eq_ok_iff` and `Radix.descend_eq_error_iff`.
-/

namespace Nnemu

open Radix Bytes

variable {δ : Type} {bus : Bus δ} {r : Regime} {w w' : World δ}

/-! ### Loads and stores of entries -/

section PteAccess

variable {slot addr : Reg} {virt : Bool} {trapType : AccessType} {n : Nat}

/-- What a load of an entry cannot change. -/
structure SameMemory (w w' : World δ) : Prop where
  mem : w'.mem = w.mem
  ptDirty : w'.ptDirty = w.ptDirty
  codeDirty : w'.codeDirty = w.codeDirty

theorem SameMemory.refl (w : World δ) : SameMemory w w :=
  ⟨rfl, rfl, rfl⟩

theorem SameMemory.trans {w₁ w₂ w₃ : World δ} (h : SameMemory w₁ w₂) (h' : SameMemory w₂ w₃) :
    SameMemory w₁ w₃ :=
  ⟨h'.mem.trans h.mem, h'.ptDirty.trans h.ptDirty, h'.codeDirty.trans h.codeDirty⟩

/-- An entry that was loaded was permitted, and in RAM it is what was there. -/
theorem pteLoad_ok {pte : Reg} (h : pteLoad bus r slot addr virt trapType n w = .ok pte w') :
    r.pmp.pmpOk slot n .load prvS = true ∧ SameMemory w w' ∧
      (bus.isMem slot = true → pte = w.read slot n ∧ w' = w) := by
  unfold pteLoad at h
  split at h
  · cases h
  · rename_i hpmp
    refine ⟨by simpa using hpmp, ?_⟩
    split at h
    case isTrue hmem =>
      cases h
      exact ⟨SameMemory.refl w, fun _ => ⟨rfl, rfl⟩⟩
    case isFalse hmem =>
      split at h
      · cases h
        exact ⟨⟨rfl, rfl, rfl⟩, fun hm => absurd hm hmem⟩
      · cases h

/-- An entry that was not loaded is an access fault. -/
theorem pteLoad_error {e : Stop} (h : pteLoad bus r slot addr virt trapType n w = .error e w') :
    e = .trap (accessFault trapType virt addr) ∧ SameMemory w w' := by
  unfold pteLoad at h
  split at h
  · cases h
    exact ⟨rfl, SameMemory.refl w⟩
  · split at h
    · cases h
    · split at h
      · cases h
      · cases h
        exact ⟨rfl, rfl, rfl, rfl⟩

/-- A load of an entry in RAM that PMP permits. -/
theorem pteLoad_of_isMem (hpmp : r.pmp.pmpOk slot n .load prvS = true)
    (hmem : bus.isMem slot = true) (w : World δ) :
    pteLoad bus r slot addr virt trapType n w = .ok (w.read slot n) w := by
  unfold pteLoad
  rw [if_neg (by simp [hpmp]), if_pos hmem]

/-- An entry that was stored was permitted, and in RAM it is there now. -/
theorem pteStore_ok {pte : Reg} (h : pteStore bus r slot pte addr virt trapType n w = .ok () w') :
    r.pmp.pmpOk slot n .store prvS = true ∧
      (bus.isMem slot = true → w' = w.setMem true (writeBytes w.mem slot (toBytes pte n))) ∧
      (bus.isMem slot = false → ∃ mem dev, w' = { w.setMem false mem with dev := dev }) := by
  unfold pteStore at h
  split at h
  · cases h
  · rename_i hpmp
    refine ⟨by simpa using hpmp, ?_⟩
    split at h
    case isTrue hmem =>
      cases h
      exact ⟨fun _ => rfl, fun hm => absurd (hmem.symm.trans hm) (by decide)⟩
    case isFalse hmem =>
      split at h
      · rename_i mem dev _
        cases h
        exact ⟨fun hm => absurd hm hmem, fun _ => ⟨mem, dev, rfl⟩⟩
      · cases h

/-- An entry that was not stored is an access fault. -/
theorem pteStore_error {pte : Reg} {e : Stop}
    (h : pteStore bus r slot pte addr virt trapType n w = .error e w') :
    e = .trap (accessFault trapType virt addr) := by
  unfold pteStore at h
  split at h
  · cases h
    rfl
  · split at h
    · cases h
    · split at h
      · cases h
      · cases h
        rfl

/-- Only a device changes memory in a store that fails. -/
theorem mem_of_pteStore_error {pte : Reg} {e : Stop}
    (h : pteStore bus r slot pte addr virt trapType n w = .error e w') :
    w'.mem = w.mem ∨ bus.isMem slot = false := by
  unfold pteStore at h
  split at h
  · cases h
    exact .inl rfl
  · split at h
    · cases h
    · rename_i hdevice
      exact .inr (Bool.eq_false_iff.2 hdevice)

/-- A store to an entry in RAM that PMP permits. -/
theorem pteStore_of_isMem {pte : Reg} (hpmp : r.pmp.pmpOk slot n .store prvS = true)
    (hmem : bus.isMem slot = true) (w : World δ) :
    pteStore bus r slot pte addr virt trapType n w =
      .ok () (w.setMem true (writeBytes w.mem slot (toBytes pte n))) := by
  unfold pteStore
  rw [if_neg (by simp [hpmp]), if_pos hmem]

end PteAccess

/-! ### Leaves -/

section Leaf

variable {vm : VmInfo} {slot pte vpn addr : Reg} {type : AccessType} {virt hade : Bool} {i : Nat}

/-- The bits are there, or are set, or have to be set by software. -/
theorem updateAd_ok_iff {b : Bool} :
    updateAd (busMem bus r) vm slot pte addr type virt hade w = .ok b w' ↔
      (pte &&& adBits type = adBits type ∧ b = true ∧ w' = w) ∨
      (pte &&& adBits type ≠ adBits type ∧ hade = true ∧ b = true ∧
        pteStore bus r slot (pte ||| adBits type) addr virt type vm.ptesize w = .ok () w') ∨
      (pte &&& adBits type ≠ adBits type ∧ hade = false ∧ b = false ∧ w' = w) := by
  unfold updateAd
  by_cases had : pte &&& adBits type = adBits type
  · simp only [had, ne_eq, not_true, if_false, Exec.pure_apply, EStateM.Result.ok.injEq, true_and,
      false_and, or_false]
    exact ⟨fun ⟨h1, h2⟩ => ⟨h1.symm, h2.symm⟩, fun ⟨h1, h2⟩ => ⟨h1.symm, h2.symm⟩⟩
  · simp only [ne_eq, had, not_false_eq_true, if_true, false_and, false_or, true_and]
    cases hade with
    | true =>
      simp only [if_true, Exec.bind_eq_ok_iff, Exec.pure_apply, EStateM.Result.ok.injEq, true_and,
        Bool.true_eq_false, false_and, or_false, busMem]
      constructor
      · rintro ⟨⟨⟩, u, hs, rfl, rfl⟩
        exact ⟨rfl, hs⟩
      · rintro ⟨rfl, hs⟩
        exact ⟨(), w', hs, rfl, rfl⟩
    | false =>
      simp only [Bool.false_eq_true, if_false, Exec.pure_apply, EStateM.Result.ok.injEq, true_and,
        false_and, false_or]
      exact ⟨fun ⟨h1, h2⟩ => ⟨h1.symm, h2.symm⟩, fun ⟨h1, h2⟩ => ⟨h1.symm, h2.symm⟩⟩

/-- The update fails where its store does. -/
theorem updateAd_error_iff {e : Stop} :
    updateAd (busMem bus r) vm slot pte addr type virt hade w = .error e w' ↔
      pte &&& adBits type ≠ adBits type ∧ hade = true ∧
        pteStore bus r slot (pte ||| adBits type) addr virt type vm.ptesize w = .error e w' := by
  unfold updateAd
  by_cases had : pte &&& adBits type = adBits type
  · simp [had]
  · simp only [ne_eq, had, not_false_eq_true, if_true, true_and]
    cases hade with
    | true =>
      simp only [if_true, true_and, Exec.bind_eq_error_iff, busMem]
      constructor
      · rintro (h | ⟨⟨⟩, u, -, h⟩)
        · exact h
        · cases h
      · exact .inl
    | false => simp

/-- The page comes out when the bits are in order and the NAPOT bits are, which is asked
afterwards. -/
theorem finishLeaf_ok_iff {res : Option Reg} :
    finishLeaf (busMem bus r) vm slot pte vpn addr type virt hade i w = .ok res w' ↔
      ∃ b, updateAd (busMem bus r) vm slot pte addr type virt hade w = .ok b w' ∧
        res = if b && !napotRefused i pte then some (pageBase (i * vm.idxbits) pte vpn)
          else none := by
  unfold finishLeaf
  rw [Exec.bind_eq_ok_iff]
  constructor
  · rintro ⟨b, u, hu, h⟩
    cases b with
    | false =>
      cases h
      exact ⟨false, hu, rfl⟩
    | true =>
      cases hn : napotRefused i pte <;> rw [hn] at h <;> cases h <;> exact ⟨true, hu, rfl⟩
  · rintro ⟨b, hu, rfl⟩
    refine ⟨b, w', hu, ?_⟩
    cases b <;> cases napotRefused i pte <;> rfl

theorem finishLeaf_error_iff {e : Stop} :
    finishLeaf (busMem bus r) vm slot pte vpn addr type virt hade i w = .error e w' ↔
      pte &&& adBits type ≠ adBits type ∧ hade = true ∧
        pteStore bus r slot (pte ||| adBits type) addr virt type vm.ptesize w = .error e w' := by
  unfold finishLeaf
  rw [Exec.bind_eq_error_iff, updateAd_error_iff]
  constructor
  · rintro (h | ⟨b, u, -, h⟩)
    · exact h
    · cases b with
      | false => cases h
      | true => cases hn : napotRefused i pte <;> rw [hn] at h <;> cases h
  · exact .inl

end Leaf

/-! ### Visits -/

section Visits

variable {vm : VmInfo} {gva gpa addr mode : Reg} {type trapType : AccessType} {virt hlvx : Bool}
  {i : Nat} {base base' : Reg}

/-- The classification a round of `s2xlate` makes. -/
def s2Class (r : Regime) (vm : VmInfo) (type : AccessType) (hlvx : Bool) (i : Nat) (pte : Reg) :
    PteClass :=
  s2Classify r.svnapot (hasBits r.menvcfg envcfgPbmte) (hasBits r.sstatus mstatusMxr) type hlvx
    (i * vm.idxbits) pte

/-- The classification a round of `walk` makes. -/
def s1Class (r : Regime) (vm : VmInfo) (type : AccessType) (mode : Reg) (virt hlvx : Bool) (i : Nat)
    (pte : Reg) : PteClass :=
  s1Classify r.svnapot (hasBits (r.envcfg virt) envcfgPbmte) (mode == prvS)
    (hasBits (r.status virt) mstatusSum) (r.mxr virt) type hlvx (i * vm.idxbits) pte

/-- A round of the second stage goes down when the entry is a table. -/
theorem s2Visit_next_iff :
    s2Visit (busMem bus r) r vm gva gpa type trapType hlvx i base w = .ok (.next base') w' ↔
      ∃ pte, pteLoad bus r (s2Slot vm gpa i base) gva true trapType vm.ptesize w = .ok pte w' ∧
        s2Class r vm type hlvx i pte = .table ∧ base' = ptePpn pte <<< pgShift := by
  unfold s2Visit s2Class
  simp only [Exec.bind_eq_ok_iff, busMem]
  constructor
  · rintro ⟨pte, u, hl, h⟩
    cases hc : s2Classify r.svnapot (hasBits r.menvcfg envcfgPbmte) (hasBits r.sstatus mstatusMxr)
        type hlvx (i * vm.idxbits) pte with
    | bad => rw [hc] at h; cases h
    | table => rw [hc] at h; cases h; exact ⟨pte, hl, hc, rfl⟩
    | leaf =>
      rw [hc] at h
      obtain ⟨page, v, -, h⟩ := Exec.bind_eq_ok_iff.1 h
      cases h
  · rintro ⟨pte, hl, hc, rfl⟩
    exact ⟨pte, w', hl, by rw [hc]; rfl⟩

/-- A round of the second stage ends the loop at a bad entry or at a leaf. -/
theorem s2Visit_done_iff {res : Option Reg} :
    s2Visit (busMem bus r) r vm gva gpa type trapType hlvx i base w = .ok (.done res) w' ↔
      ∃ pte u, pteLoad bus r (s2Slot vm gpa i base) gva true trapType vm.ptesize w = .ok pte u ∧
        ((s2Class r vm type hlvx i pte = .bad ∧ res = none ∧ w' = u) ∨
          (s2Class r vm type hlvx i pte = .leaf ∧ ∃ page,
            finishLeaf (busMem bus r) vm (s2Slot vm gpa i base) pte (gpa >>> pgShift) gva type true
              (hasBits r.menvcfg envcfgHade) i u = .ok page w' ∧
            res = page.map (· ||| (gpa &&& pageMask)))) := by
  unfold s2Visit s2Class
  rw [Exec.bind_eq_ok_iff]
  constructor
  · rintro ⟨pte, u, hl, h⟩
    refine ⟨pte, u, hl, ?_⟩
    cases hc : s2Classify r.svnapot (hasBits r.menvcfg envcfgPbmte) (hasBits r.sstatus mstatusMxr)
        type hlvx (i * vm.idxbits) pte with
    | bad => rw [hc] at h; cases h; exact .inl ⟨rfl, rfl, rfl⟩
    | table => rw [hc] at h; cases h
    | leaf =>
      rw [hc] at h
      obtain ⟨page, v, hf, h⟩ := Exec.bind_eq_ok_iff.1 h
      cases h
      exact .inr ⟨rfl, page, hf, rfl⟩
  · rintro ⟨pte, u, hl, ⟨hc, rfl, rfl⟩ | ⟨hc, page, hf, rfl⟩⟩
    · exact ⟨pte, _, hl, by rw [hc]; rfl⟩
    · refine ⟨pte, u, hl, ?_⟩
      rw [hc]
      exact Exec.bind_eq_ok_iff.2 ⟨page, w', hf, rfl⟩

/-- A round of the second stage throws at the load of the entry or at its write-back. -/
theorem s2Visit_error_iff {e : Stop} :
    s2Visit (busMem bus r) r vm gva gpa type trapType hlvx i base w = .error e w' ↔
      pteLoad bus r (s2Slot vm gpa i base) gva true trapType vm.ptesize w = .error e w' ∨
        ∃ pte u, pteLoad bus r (s2Slot vm gpa i base) gva true trapType vm.ptesize w = .ok pte u ∧
          s2Class r vm type hlvx i pte = .leaf ∧ pte &&& adBits type ≠ adBits type ∧
          hasBits r.menvcfg envcfgHade = true ∧
          pteStore bus r (s2Slot vm gpa i base) (pte ||| adBits type) gva true type vm.ptesize u =
            .error e w' := by
  unfold s2Visit s2Class
  rw [Exec.bind_eq_error_iff]
  refine or_congr Iff.rfl ?_
  constructor
  · rintro ⟨pte, u, hl, h⟩
    refine ⟨pte, u, hl, ?_⟩
    cases hc : s2Classify r.svnapot (hasBits r.menvcfg envcfgPbmte) (hasBits r.sstatus mstatusMxr)
        type hlvx (i * vm.idxbits) pte with
    | bad => rw [hc] at h; cases h
    | table => rw [hc] at h; cases h
    | leaf =>
      rw [hc] at h
      rcases Exec.bind_eq_error_iff.1 h with hf | ⟨page, v, -, h⟩
      · exact ⟨rfl, finishLeaf_error_iff.1 hf⟩
      · cases h
  · rintro ⟨pte, u, hl, hc, hf⟩
    refine ⟨pte, u, hl, ?_⟩
    rw [hc]
    exact Exec.bind_eq_error_iff.2 (.inl (finishLeaf_error_iff.2 hf))

/-- A round of the first stage goes down when the entry is a table. -/
theorem s1Visit_next_iff :
    s1Visit (busMem bus r) r vm addr type mode virt hlvx i base w = .ok (.next base') w' ↔
      ∃ slot u pte,
        s2xlate (busMem bus r) r addr (s1Slot vm addr i base) .load type virt false w = .ok slot u ∧
        pteLoad bus r slot addr virt type vm.ptesize u = .ok pte w' ∧
        s1Class r vm type mode virt hlvx i pte = .table ∧ base' = ptePpn pte <<< pgShift := by
  unfold s1Visit s1Class
  rw [Exec.bind_eq_ok_iff]
  constructor
  · rintro ⟨slot, u, hs, h⟩
    obtain ⟨pte, v, hl, h⟩ := Exec.bind_eq_ok_iff.1 h
    refine ⟨slot, u, pte, hs, ?_⟩
    cases hc : s1Classify r.svnapot (hasBits (r.envcfg virt) envcfgPbmte) (mode == prvS)
        (hasBits (r.status virt) mstatusSum) (r.mxr virt) type hlvx (i * vm.idxbits) pte with
    | bad => rw [hc] at h; cases h
    | table => rw [hc] at h; cases h; exact ⟨hl, rfl, rfl⟩
    | leaf =>
      rw [hc] at h
      obtain ⟨page, v, -, h⟩ := Exec.bind_eq_ok_iff.1 h
      cases h
  · rintro ⟨slot, u, pte, hs, hl, hc, rfl⟩
    refine ⟨slot, u, hs, Exec.bind_eq_ok_iff.2 ⟨pte, w', hl, ?_⟩⟩
    rw [hc]
    rfl

/-- A round of the first stage ends the loop at a bad entry or at a leaf. -/
theorem s1Visit_done_iff {res : Option Reg} :
    s1Visit (busMem bus r) r vm addr type mode virt hlvx i base w = .ok (.done res) w' ↔
      ∃ slot u pte v,
        s2xlate (busMem bus r) r addr (s1Slot vm addr i base) .load type virt false w = .ok slot u ∧
        pteLoad bus r slot addr virt type vm.ptesize u = .ok pte v ∧
        ((s1Class r vm type mode virt hlvx i pte = .bad ∧ res = none ∧ w' = v) ∨
          (s1Class r vm type mode virt hlvx i pte = .leaf ∧
            finishLeaf (busMem bus r) vm slot pte (addr >>> pgShift) addr type virt
              (hasBits (r.envcfg virt) envcfgHade) i v = .ok res w')) := by
  unfold s1Visit s1Class
  rw [Exec.bind_eq_ok_iff]
  constructor
  · rintro ⟨slot, u, hs, h⟩
    obtain ⟨pte, v, hl, h⟩ := Exec.bind_eq_ok_iff.1 h
    refine ⟨slot, u, pte, v, hs, hl, ?_⟩
    cases hc : s1Classify r.svnapot (hasBits (r.envcfg virt) envcfgPbmte) (mode == prvS)
        (hasBits (r.status virt) mstatusSum) (r.mxr virt) type hlvx (i * vm.idxbits) pte with
    | bad => rw [hc] at h; cases h; exact .inl ⟨rfl, rfl, rfl⟩
    | table => rw [hc] at h; cases h
    | leaf =>
      rw [hc] at h
      obtain ⟨page, v, hf, h⟩ := Exec.bind_eq_ok_iff.1 h
      cases h
      exact .inr ⟨rfl, hf⟩
  · rintro ⟨slot, u, pte, v, hs, hl, h⟩
    refine ⟨slot, u, hs, Exec.bind_eq_ok_iff.2 ⟨pte, v, hl, ?_⟩⟩
    rcases h with ⟨hc, rfl, rfl⟩ | ⟨hc, hf⟩
    · rw [hc]
      rfl
    · rw [hc]
      exact Exec.bind_eq_ok_iff.2 ⟨res, w', hf, rfl⟩

/-- A round of the first stage throws at the translation of the entry's address, at the load of the
entry or at its write-back. -/
theorem s1Visit_error_iff {e : Stop} :
    s1Visit (busMem bus r) r vm addr type mode virt hlvx i base w = .error e w' ↔
      s2xlate (busMem bus r) r addr (s1Slot vm addr i base) .load type virt false w = .error e w' ∨
        ∃ slot u,
          s2xlate (busMem bus r) r addr (s1Slot vm addr i base) .load type virt false w =
            .ok slot u ∧
          (pteLoad bus r slot addr virt type vm.ptesize u = .error e w' ∨
            ∃ pte v, pteLoad bus r slot addr virt type vm.ptesize u = .ok pte v ∧
              s1Class r vm type mode virt hlvx i pte = .leaf ∧ pte &&& adBits type ≠ adBits type ∧
              hasBits (r.envcfg virt) envcfgHade = true ∧
              pteStore bus r slot (pte ||| adBits type) addr virt type vm.ptesize v =
                .error e w') := by
  unfold s1Visit s1Class
  rw [Exec.bind_eq_error_iff]
  refine or_congr Iff.rfl ?_
  constructor
  · rintro ⟨slot, u, hs, h⟩
    refine ⟨slot, u, hs, ?_⟩
    rcases Exec.bind_eq_error_iff.1 h with hl | ⟨pte, v, hl, h⟩
    · exact .inl hl
    · refine .inr ⟨pte, v, hl, ?_⟩
      cases hc : s1Classify r.svnapot (hasBits (r.envcfg virt) envcfgPbmte) (mode == prvS)
          (hasBits (r.status virt) mstatusSum) (r.mxr virt) type hlvx (i * vm.idxbits) pte with
      | bad => rw [hc] at h; cases h
      | table => rw [hc] at h; cases h
      | leaf =>
        rw [hc] at h
        rcases Exec.bind_eq_error_iff.1 h with hf | ⟨page, v, -, h⟩
        · exact ⟨rfl, finishLeaf_error_iff.1 hf⟩
        · cases h
  · rintro ⟨slot, u, hs, h⟩
    refine ⟨slot, u, hs, Exec.bind_eq_error_iff.2 ?_⟩
    rcases h with hl | ⟨pte, v, hl, hc, hf⟩
    · exact .inl hl
    · refine .inr ⟨pte, v, hl, ?_⟩
      rw [hc]
      exact Exec.bind_eq_error_iff.2 (.inl (finishLeaf_error_iff.2 hf))

end Visits

/-! ### Whole translations -/

section Translations

variable {vm : VmInfo} {gva gpa addr mode : Reg} {type trapType : AccessType} {virt hlvx : Bool}

/-- Without virtualization there is no second stage. -/
@[simp] theorem s2xlate_false {m : Type → Type} [Monad m] (mem : PteMem m) :
    s2xlate mem r gva gpa type trapType false hlvx = pure gpa := rfl

/-- Without virtualization there is no second stage. -/
theorem s2xlate_single : s2xlate (busMem bus r) r gva gpa type trapType false hlvx w =
    .ok gpa w := rfl

theorem s2xlate_abort (h : decodeVmInfo r.xlen true 0#64 r.hgatp = none) :
    s2xlate (busMem bus r) r gva gpa type trapType true hlvx w = .error .abort w := by
  simp only [s2xlate, Bool.not_true, Bool.false_eq_true, if_false, h]
  rfl

/-- A second stage that is bare changes no address. -/
theorem s2xlate_bare (h : decodeVmInfo r.xlen true 0#64 r.hgatp = some vm) (hl : vm.levels = 0) :
    s2xlate (busMem bus r) r gva gpa type trapType true hlvx w = .ok gpa w := by
  simp only [s2xlate, Bool.not_true, Bool.false_eq_true, if_false, h, hl, if_true]
  rfl

/-- The loop of the second stage, from the root table. -/
def s2Descend (bus : Bus δ) (r : Regime) (vm : VmInfo) (gva gpa : Reg) (type trapType : AccessType)
    (hlvx : Bool) : Exec Stop (World δ) (Option Reg) :=
  descend (s2Visit (busMem bus r) r vm gva gpa type trapType hlvx) vm.levels vm.ptbase

/-- An address beyond the guest's has no page, and the loop finds the others. -/
theorem s2Find_ok_iff {res : Option Reg} :
    s2Find (busMem bus r) r vm gva gpa type trapType hlvx w = .ok res w' ↔
      (gpa &&& ~~~maxGpa vm = 0#64 ∧ s2Descend bus r vm gva gpa type trapType hlvx w = .ok res w') ∨
      (gpa &&& ~~~maxGpa vm ≠ 0#64 ∧ res = none ∧ w' = w) := by
  unfold s2Find s2Descend
  by_cases hrange : gpa &&& ~~~maxGpa vm = 0#64
  · simp only [hrange, if_true, true_and, ne_eq, not_true, false_and, or_false]
  · simp only [hrange, if_false, false_and, false_or, ne_eq, not_false_eq_true, true_and]
    constructor
    · intro h
      cases h
      exact ⟨rfl, rfl⟩
    · rintro ⟨rfl, rfl⟩
      rfl

theorem s2Find_error_iff {e : Stop} :
    s2Find (busMem bus r) r vm gva gpa type trapType hlvx w = .error e w' ↔
      gpa &&& ~~~maxGpa vm = 0#64 ∧
        s2Descend bus r vm gva gpa type trapType hlvx w = .error e w' := by
  unfold s2Find s2Descend
  by_cases hrange : gpa &&& ~~~maxGpa vm = 0#64
  · simp only [hrange, if_true, true_and]
  · simp only [hrange, if_false, false_and, iff_false]
    intro h
    cases h

/-- The second stage returns what its loop finds. -/
theorem s2xlate_ok_iff (h : decodeVmInfo r.xlen true 0#64 r.hgatp = some vm) (hl : vm.levels ≠ 0)
    {paddr : Reg} :
    s2xlate (busMem bus r) r gva gpa type trapType true hlvx w = .ok paddr w' ↔
      gpa &&& ~~~maxGpa vm = 0#64 ∧
        s2Descend bus r vm gva gpa type trapType hlvx w = .ok (some paddr) w' := by
  simp only [s2xlate, Bool.not_true, Bool.false_eq_true, if_false, h, hl]
  rw [Exec.bind_eq_ok_iff]
  constructor
  · rintro ⟨res, u, hd, hres⟩
    cases res with
    | none => cases hres
    | some p =>
      cases hres
      rcases s2Find_ok_iff.1 hd with hd | ⟨-, hd, -⟩
      · exact hd
      · cases hd
  · intro hd
    exact ⟨some paddr, w', s2Find_ok_iff.2 (.inl hd), rfl⟩

/-- The second stage throws what its loop throws, or a guest page fault when the loop finds nothing
or the address is out of range. -/
theorem s2xlate_error_iff (h : decodeVmInfo r.xlen true 0#64 r.hgatp = some vm)
    (hl : vm.levels ≠ 0) {e : Stop} :
    s2xlate (busMem bus r) r gva gpa type trapType true hlvx w = .error e w' ↔
      (gpa &&& ~~~maxGpa vm = 0#64 ∧
        s2Descend bus r vm gva gpa type trapType hlvx w = .error e w') ∨
      (e = .trap (guestPageFault trapType gva gpa) ∧
        s2Find (busMem bus r) r vm gva gpa type trapType hlvx w = .ok none w') := by
  simp only [s2xlate, Bool.not_true, Bool.false_eq_true, if_false, h, hl]
  rw [Exec.bind_eq_error_iff, s2Find_error_iff]
  refine or_congr Iff.rfl ?_
  constructor
  · rintro ⟨res, u, hd, hres⟩
    cases res with
    | none => cases hres; exact ⟨rfl, hd⟩
    | some p => cases hres
  · rintro ⟨rfl, hd⟩
    exact ⟨none, w', hd, rfl⟩

/-- The number of levels `walk` looks through. -/
def walkLevels (r : Regime) (vm : VmInfo) (addr : Reg) : Nat :=
  if canonical r.xlen vm addr then vm.levels else 0

/-- The loop of the first stage, from the root table. -/
def s1Descend (bus : Bus δ) (r : Regime) (vm : VmInfo) (addr : Reg) (type : AccessType) (mode : Reg)
    (virt hlvx : Bool) : Exec Stop (World δ) (Option Reg) :=
  descend (s1Visit (busMem bus r) r vm addr type mode virt hlvx) (walkLevels r vm addr) vm.ptbase

@[simp] theorem atp_false : r.atp false = r.satp := rfl
@[simp] theorem atp_true : r.atp true = r.vsatp := rfl
@[simp] theorem envcfg_false : r.envcfg false = r.menvcfg := rfl
@[simp] theorem envcfg_true : r.envcfg true = r.henvcfg := rfl

theorem walk_abort (h : decodeVmInfo r.xlen false mode (r.atp virt) = none) :
    walk (busMem bus r) r addr type mode virt hlvx w = .error .abort w := by
  simp only [walk, h]
  rfl

/-- A walk in a mode without levels is the second stage of the address. -/
theorem walk_bare {m : Type → Type} [Monad m] (mem : PteMem m)
    (h : decodeVmInfo r.xlen false mode (r.atp virt) = some vm) (hl : vm.levels = 0) :
    walk mem r addr type mode virt hlvx = (do
      let phys ← s2xlate mem r addr (r.xlen.zext addr) type type virt hlvx
      pure (phys &&& ~~~pageMask)) := by
  simp only [walk, h, hl, if_true]

/-- Behind its tests the walk is a loop over tables. -/
theorem walk_eq_walkTables {m : Type → Type} [Monad m] (mem : PteMem m)
    (h : decodeVmInfo r.xlen false mode (r.atp virt) = some vm) (hl : vm.levels ≠ 0) :
    walk mem r addr type mode virt hlvx = walkTables mem r vm addr type mode virt hlvx := by
  simp only [walk, h, hl, if_false]

/-- A walk through tables returns the page its loop finds, through the second stage. -/
theorem walkTables_ok_iff {page : Reg} :
    walkTables (busMem bus r) r vm addr type mode virt hlvx w = .ok page w' ↔
      ∃ p u phys, s1Descend bus r vm addr type mode virt hlvx w = .ok (some p) u ∧
        s2xlate (busMem bus r) r addr (p ||| (addr &&& pageMask)) type type virt hlvx u =
          .ok phys w' ∧
        page = phys &&& ~~~pageMask := by
  unfold walkTables
  rw [Exec.bind_eq_ok_iff]
  constructor
  · rintro ⟨res, u, hd, hres⟩
    cases res with
    | none => cases hres
    | some p =>
      obtain ⟨phys, v, hs, hp⟩ := Exec.bind_eq_ok_iff.1 hres
      cases hp
      exact ⟨p, u, phys, hd, hs, rfl⟩
  · rintro ⟨p, u, phys, hd, hs, rfl⟩
    exact ⟨some p, u, hd, Exec.bind_eq_ok_iff.2 ⟨phys, w', hs, rfl⟩⟩

/-- A walk through tables throws what its loop throws, a page fault when the loop finds nothing, or
what the second stage of the final address throws. -/
theorem walkTables_error_iff {e : Stop} :
    walkTables (busMem bus r) r vm addr type mode virt hlvx w = .error e w' ↔
      s1Descend bus r vm addr type mode virt hlvx w = .error e w' ∨
      (s1Descend bus r vm addr type mode virt hlvx w = .ok none w' ∧
        e = .trap (pageFault type virt addr)) ∨
      ∃ p u, s1Descend bus r vm addr type mode virt hlvx w = .ok (some p) u ∧
        s2xlate (busMem bus r) r addr (p ||| (addr &&& pageMask)) type type virt hlvx u =
          .error e w' := by
  unfold walkTables
  rw [Exec.bind_eq_error_iff]
  refine or_congr Iff.rfl ?_
  constructor
  · rintro ⟨res, u, hd, hres⟩
    cases res with
    | none => cases hres; exact .inl ⟨hd, rfl⟩
    | some p =>
      rcases Exec.bind_eq_error_iff.1 hres with hs | ⟨phys, v, -, hp⟩
      · exact .inr ⟨p, u, hd, hs⟩
      · cases hp
  · rintro (⟨hd, rfl⟩ | ⟨p, u, hd, hs⟩)
    · exact ⟨none, w', hd, rfl⟩
    · exact ⟨some p, u, hd, Exec.bind_eq_error_iff.2 (.inl hs)⟩

end Translations

end Nnemu

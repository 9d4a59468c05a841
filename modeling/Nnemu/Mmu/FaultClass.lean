import Nnemu.Mmu.WriteBack

/-!
# The class of a fault

A fault of a translation is to be reported with the type of the access that was asked for, whichever
of the implicit accesses failed. Every throw site but one does so: the write-back of a second-stage
leaf takes its type from the access `s2xlate` was asked for, which is a load when it translates the
address of a first-stage entry.

The throw sites are those of the inversion lemmas in `Mmu.Steps`, so the proof goes through them one
by one and finds the type each is thrown with. `ImplicitUpdateFails` is the one run that goes wrong:
the leaf of the second stage, on the way to an entry of the first stage, cannot be updated.
-/

namespace Nnemu

open Radix

variable {δ : Type} {bus : Bus δ} {r : Regime} {addr mode : Reg} {type : AccessType}
  {virt hlvx : Bool} {w w' : World δ}

/-- Is the exception one of the access, page and guest-page faults of this access type? `abort()`
ends the simulator and is no exception. -/
def Stop.OfClass (type : AccessType) : Stop → Prop
  | .trap t => t.cause = causeOf 1#64 5#64 7#64 type ∨ t.cause = causeOf 12#64 13#64 15#64 type ∨
      t.cause = causeOf 20#64 21#64 23#64 type
  | .matched _ _ _ => False
  | .abort => True

theorem ofClass_accessFault (type : AccessType) (virt : Bool) (addr : Reg) :
    (Stop.trap (accessFault type virt addr)).OfClass type :=
  .inl rfl

theorem ofClass_pageFault (type : AccessType) (virt : Bool) (addr : Reg) :
    (Stop.trap (pageFault type virt addr)).OfClass type :=
  .inr (.inl rfl)

theorem ofClass_guestPageFault (type : AccessType) (gva gpa : Reg) :
    (Stop.trap (guestPageFault type gva gpa)).OfClass type :=
  .inr (.inr rfl)

/-- A load access fault is of no other class. -/
theorem not_ofClass_loadFault (h : type ≠ .load) (virt : Bool) (addr : Reg) :
    ¬ (Stop.trap (accessFault .load virt addr)).OfClass type := by
  cases type with
  | load => exact absurd rfl h
  | store => simp [Stop.OfClass, accessFault, causeOf]
  | fetch => simp [Stop.OfClass, accessFault, causeOf]

/-! ### The second stage -/

/-- The second stage, translating `gpa` for an access of this type, comes to a leaf whose A and D
bits need an update that is enabled and fails. -/
def UpdateFails (bus : Bus δ) (r : Regime) (gva gpa : Reg) (type trapType : AccessType)
    (hlvx : Bool)
    (w : World δ) : Prop :=
  ∃ vm i base w₁ pte w₂ e w₃, decodeVmInfo r.xlen true 0#64 r.hgatp = some vm ∧
    gpa &&& ~~~maxGpa vm = 0#64 ∧
    Reaches (s2Visit (busMem bus r) r vm gva gpa type trapType hlvx) vm.levels vm.ptbase w (i + 1)
      base w₁ ∧
    pteLoad bus r (s2Slot vm gpa i base) gva true trapType vm.ptesize w₁ = .ok pte w₂ ∧
    s2Class r vm type hlvx i pte = .leaf ∧ pte &&& adBits type ≠ adBits type ∧
    hasBits r.menvcfg envcfgHade = true ∧
    pteStore bus r (s2Slot vm gpa i base) (pte ||| adBits type) gva true type vm.ptesize w₂ =
      .error e w₃

/-- What the second stage throws has the class of the trap type, or is the failed write-back. -/
theorem s2xlate_error_class {gva gpa : Reg} {trapType : AccessType} {e : Stop}
    (h : s2xlate (busMem bus r) r gva gpa type trapType virt hlvx w = .error e w') :
    e.OfClass trapType ∨
      (e = .trap (accessFault type true gva) ∧ UpdateFails bus r gva gpa type trapType hlvx w) := by
  cases virt with
  | false => cases h
  | true =>
    cases hvm : decodeVmInfo r.xlen true 0#64 r.hgatp with
    | none =>
      rw [s2xlate_abort hvm] at h
      cases h
      exact .inl trivial
    | some vm =>
      by_cases hl : vm.levels = 0
      · rw [s2xlate_bare hvm hl] at h
        cases h
      · rcases (s2xlate_error_iff hvm hl).1 h with ⟨hrange, hd⟩ | ⟨rfl, -⟩
        · obtain ⟨i, base, w₁, hr, hv⟩ := descend_eq_error_iff.1 hd
          rcases s2Visit_error_iff.1 hv with hload | ⟨pte, w₂, hload, hc, had, hade, hst⟩
          · rw [(pteLoad_error hload).1]
            exact .inl (ofClass_accessFault _ _ _)
          · exact .inr ⟨pteStore_error hst,
              vm, i, base, w₁, pte, w₂, e, w', hvm, hrange, hr, hload, hc, had, hade, hst⟩
        · exact .inl (ofClass_guestPageFault _ _ _)

/-- A failed write-back is what the second stage throws. -/
theorem s2xlate_error_of_updateFails {gva gpa : Reg} {trapType : AccessType}
    (h : UpdateFails bus r gva gpa type trapType hlvx w) :
    ∃ w', s2xlate (busMem bus r) r gva gpa type trapType true hlvx w =
      .error (.trap (accessFault type true gva)) w' := by
  obtain ⟨vm, i, base, w₁, pte, w₂, e, w₃, hvm, hrange, hr, hload, hc, had, hade, hst⟩ := h
  obtain rfl := pteStore_error hst
  have hl : vm.levels ≠ 0 := by
    have := hr.le
    omega
  have hv := s2Visit_error_iff.2 (.inr ⟨pte, w₂, hload, hc, had, hade, hst⟩)
  exact ⟨w₃, (s2xlate_error_iff hvm hl).2
    (.inl ⟨hrange, descend_eq_error_iff.2 ⟨i, base, w₁, hr, hv⟩⟩)⟩

/-! ### The first stage -/

/-- The walk comes to a first-stage entry whose address the second stage translates through a leaf
with the A bit clear, whose update is enabled and fails. -/
def ImplicitUpdateFails (bus : Bus δ) (r : Regime) (addr : Reg) (type : AccessType) (mode : Reg)
    (virt hlvx : Bool) (w : World δ) : Prop :=
  virt = true ∧ ∃ vm i base w₁, decodeVmInfo r.xlen false mode (r.atp virt) = some vm ∧
    Reaches (s1Visit (busMem bus r) r vm addr type mode virt hlvx)
      (walkLevels r vm addr) vm.ptbase w
      (i + 1) base w₁ ∧
    UpdateFails bus r addr (s1Slot vm addr i base) .load type false w₁

/-- What a walk throws has the class of the access, or is the failed write-back of an implicit
load. -/
theorem walk_error_class {e : Stop}
    (h : walk (busMem bus r) r addr type mode virt hlvx w = .error e w') :
    e.OfClass type ∨ ImplicitUpdateFails bus r addr type mode virt hlvx w := by
  -- the second stage of the final address is asked for the type of the access
  have hfinal : ∀ {gpa u}, s2xlate (busMem bus r) r addr gpa type type virt hlvx u = .error e w' →
      e.OfClass type := by
    intro gpa u hs
    rcases s2xlate_error_class hs with hclass | ⟨rfl, -⟩
    · exact hclass
    · exact ofClass_accessFault _ _ _
  cases hvm : decodeVmInfo r.xlen false mode (r.atp virt) with
  | none =>
    rw [walk_abort hvm] at h
    cases h
    exact .inl trivial
  | some vm =>
    by_cases hl : vm.levels = 0
    · rw [walk_bare _ hvm hl] at h
      rcases Exec.bind_eq_error_iff.1 h with hs | ⟨phys, u, -, hp⟩
      · exact .inl (hfinal hs)
      · cases hp
    · rw [walk_eq_walkTables _ hvm hl] at h
      rcases walkTables_error_iff.1 h with hd | ⟨-, rfl⟩ | ⟨p, u, -, hs⟩
      · obtain ⟨i, base, w₁, hr, hv⟩ := descend_eq_error_iff.1 hd
        rcases s1Visit_error_iff.1 hv with hs | ⟨slot, u, -, hload | ⟨pte, v, -, -, -, -, hst⟩⟩
        · rcases s2xlate_error_class hs with hclass | ⟨-, hfail⟩
          · exact .inl hclass
          · cases virt with
            | false => cases hs
            | true => exact .inr ⟨rfl, vm, i, base, w₁, hvm, hr, hfail⟩
        · rw [(pteLoad_error hload).1]
          exact .inl (ofClass_accessFault _ _ _)
        · rw [pteStore_error hst]
          exact .inl (ofClass_accessFault _ _ _)
      · exact .inl (ofClass_pageFault _ _ _)
      · exact .inl (hfinal hs)

/-- The failed write-back of an implicit load is what the walk throws. -/
theorem walk_error_of_implicitUpdateFails
    (h : ImplicitUpdateFails bus r addr type mode virt hlvx w) :
    ∃ w', walk (busMem bus r) r addr type mode virt hlvx w =
      .error (.trap (accessFault .load true addr)) w' := by
  obtain ⟨rfl, vm, i, base, w₁, hvm, hr, hfail⟩ := h
  obtain ⟨w', hs⟩ := s2xlate_error_of_updateFails hfail
  have hl : vm.levels ≠ 0 := by
    have hle := hr.le
    intro h0
    unfold walkLevels at hle
    split at hle <;> omega
  have hv : s1Visit (busMem bus r) r vm addr type mode true hlvx i base w₁ =
      .error (.trap (accessFault .load true addr)) w' := s1Visit_error_iff.2 (.inl hs)
  rw [walk_eq_walkTables _ hvm hl]
  exact ⟨w', walkTables_error_iff.2 (.inl (descend_eq_error_iff.2 ⟨i, base, w₁, hr, hv⟩))⟩

/-! ### The exact condition -/

/-- Every exception of the translation has the class of the access. -/
def FaultsOfClass (bus : Bus δ) (r : Regime) (s : Privilege) (addr : Reg) (len : Nat)
    (type : AccessType) (flags : XlateFlags) (w : World δ) : Prop :=
  ∀ e w', translate (busMem bus r) r s addr len type flags w = .error e w' → e.OfClass type

/-- **The class of a fault.** Every exception of a translation has the class of the access, except
exactly when the access is not a load and the walk fails to write back the A bit of a second-stage
leaf on the way to a first-stage entry. -/
theorem faultsOfClass_iff (bus : Bus δ) (r : Regime) (s : Privilege) (addr : Reg) (len : Nat)
    (type : AccessType) (flags : XlateFlags) (w : World δ) :
    FaultsOfClass bus r s addr len type flags w ↔
      ¬ (type ≠ .load ∧ ImplicitUpdateFails bus r addr type (s.effective type flags).1
        (s.effective type flags).2 flags.hlvx w) := by
  unfold FaultsOfClass translate translateAs
  constructor
  · rintro hclass ⟨htype, hfail⟩
    obtain ⟨w', hwalk⟩ := walk_error_of_implicitUpdateFails hfail
    exact not_ofClass_loadFault htype _ _ (hclass _ w' (Exec.bind_of_error hwalk))
  · intro hno e w' h
    rcases Exec.bind_eq_error_iff.1 h with hwalk | ⟨page, u, -, hp⟩
    · rcases walk_error_class hwalk with hclass | hfail
      · exact hclass
      · -- a failed write-back throws a load fault, which is right for a load
        obtain ⟨w'', hwalk'⟩ := walk_error_of_implicitUpdateFails hfail
        rw [hwalk] at hwalk'
        cases hwalk'
        by_cases htype : type = .load
        · rw [htype]
          exact ofClass_accessFault _ _ _
        · exact absurd ⟨htype, hfail⟩ hno
    · split at hp
      · cases hp
        exact ofClass_accessFault _ _ _
      · cases hp

/-- One PMP entry over the whole address space, which supervisors may only read. -/
def readOnlyPmp : Pmp :=
  .ofEntries [Pmp.entryOf 0x19#8 0x3fffffffffffff#64]

/-- Sv39 in the guest with its root at 0, Sv39x4 in the host with its root at 0x4000. -/
def guestRegime (pmp : Pmp) : Regime where
  xlen := .rv64
  svnapot := false
  satp := 0#64
  vsatp := 0x8000000000000000#64
  hgatp := 0x8000000000000004#64
  sstatus := 0#64
  vsstatus := 0#64
  menvcfg := envcfgHade
  henvcfg := envcfgHade
  pmp := pmp
  debugMode := false

/-- The guest's supervisor. -/
def guestSupervisor : Privilege where
  prv := prvS
  v := true
  mstatus := 0#64
  mnstatus := none
  hstatus := 0#64
  debugMode := false

/-- The host maps the first gigabyte of the guest to itself, with the A bit clear. -/
def clearAWorld : World Unit :=
  World.ofDoublewords [(0x4000#64, 0x1f#64)]

/-- A guest store is refused with a load access fault. -/
theorem not_faultsOfClass :
    ¬ FaultsOfClass ramBus (guestRegime readOnlyPmp) guestSupervisor 0#64
      8 .store {} clearAWorld := by
  intro hclass
  have hthrown : thrownByte 0#64 (translate (busMem ramBus (guestRegime readOnlyPmp))
      (guestRegime readOnlyPmp) guestSupervisor 0#64 8 .store {} clearAWorld) =
        some (.trap (accessFault .load true 0#64), 0#8) := by decide
  cases h : translate (busMem ramBus (guestRegime readOnlyPmp)) (guestRegime readOnlyPmp)
      guestSupervisor 0#64 8 .store {} clearAWorld with
  | ok paddr w' =>
    rw [h] at hthrown
    cases hthrown
  | error e w' =>
    rw [h] at hthrown
    simp only [thrownByte, Option.some.injEq, Prod.mk.injEq] at hthrown
    obtain ⟨rfl, -⟩ := hthrown
    exact not_ofClass_loadFault (by decide) _ _ (hclass _ w' h)

end Nnemu

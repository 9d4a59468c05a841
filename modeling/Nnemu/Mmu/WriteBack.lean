import Nnemu.Mmu.Steps

/-!
# Write-backs and page faults

The update of the A and D bits is a store in the middle of a round, and one reject condition, the
NAPOT encoding, is tested after it. For a single-stage walk this is the only way a page fault can
leave memory changed: `faultKeepsMemory_iff` names it exactly.

`FaultKeepsMemory` has two clauses, one for page faults and one for the other ends of a walk, of
which none changes memory: an access fault is found before the entry is written. The condition of
the theorem is about the leaf at the end of the path, before the walk: its A or D bit is to be set,
and its NAPOT bits are not those of an allowed size.
-/

namespace Nnemu

open Radix

variable {δ : Type} {bus : Bus δ} {r : Regime} {addr mode : Reg} {type : AccessType} {hlvx : Bool}
  {w w' : World δ}

/-- `trap_instruction_page_fault`, `trap_load_page_fault` or `trap_store_page_fault` -/
def IsPageFault (t : Trap) : Prop :=
  t.cause = 12#64 ∨ t.cause = 13#64 ∨ t.cause = 15#64

theorem isPageFault_pageFault (type : AccessType) (virt : Bool) (addr : Reg) :
    IsPageFault (pageFault type virt addr) := by
  cases type with
  | load => exact .inr (.inl rfl)
  | store => exact .inr (.inr rfl)
  | fetch => exact .inl rfl

theorem not_isPageFault_accessFault (type : AccessType) (virt : Bool) (addr : Reg) :
    ¬ IsPageFault (accessFault type virt addr) := by
  cases type <;> simp [IsPageFault, accessFault, causeOf]

/-! ### Rounds of a single-stage walk -/

section SingleStage

variable {vm : VmInfo}

/-- Going down does not write. -/
theorem sameMemory_of_next {i : Nat} {base base' : Reg}
    (h : s1Visit (busMem bus r) r vm addr type mode false hlvx i base w = .ok (.next base') w') :
    SameMemory w w' := by
  obtain ⟨slot, u, pte, hs, hl, -⟩ := s1Visit_next_iff.1 h
  cases hs
  exact (pteLoad_ok hl).2.1

theorem sameMemory_of_reaches {n k : Nat} {b c : Reg}
    (h : Reaches (s1Visit (busMem bus r) r vm addr type mode false hlvx) n b w k c w') :
    SameMemory w w' :=
  h.induct (P := fun _ _ u => SameMemory w u)
    (fun _ _ _ _ _ hu hv => hu.trans (sameMemory_of_next hv)) (SameMemory.refl w)

/-- A round of a single-stage walk throws an access fault only. -/
theorem s1Visit_error_single {i : Nat} {base : Reg} {e : Stop}
    (h : s1Visit (busMem bus r) r vm addr type mode false hlvx i base w = .error e w') :
    e = .trap (accessFault type false addr) := by
  rcases s1Visit_error_iff.1 h with hs | ⟨slot, u, hs, hl | ⟨pte, v, -, -, -, -, hst⟩⟩
  · cases hs
  · exact (pteLoad_error hl).1
  · exact pteStore_error hst

end SingleStage

/-! ### The exact condition -/

/-- A device has refused the update of A and D bits: what it has done to memory on the way is not
known. -/
def UpdateRefused (bus : Bus δ) (r : Regime) (addr : Reg) (type : AccessType) (w w' : World δ) :
    Prop :=
  ∃ slot pte ptesize u, bus.isMem slot = false ∧ u.mem = w.mem ∧
    pteStore bus r slot pte addr false type ptesize u =
      .error (.trap (accessFault type false addr)) w'

/-- **A walk that returns no address leaves physical memory as it was.** A and D bits are written by
the others only. -/
structure FaultKeepsMemory (bus : Bus δ) (r : Regime) (addr : Reg) (type : AccessType) (mode : Reg)
    (hlvx : Bool) (w : World δ) : Prop where
  pageFault : ∀ t w', walk (busMem bus r) r addr type mode false hlvx w = .error (.trap t) w' →
    IsPageFault t → w'.mem = w.mem
  /-- an access fault or an `abort()` -/
  otherStop : ∀ e w', walk (busMem bus r) r addr type mode false hlvx w = .error e w' →
    (∀ t, e = .trap t → ¬IsPageFault t) → w'.mem = w.mem ∨ UpdateRefused bus r addr type w w'

/-- The walk comes to a leaf that passes every check up to its A and D bits, needs an update of them
that is enabled and succeeds in changing memory, and has a refused NAPOT encoding. -/
def WritesMalformedNapot (bus : Bus δ) (r : Regime) (addr : Reg) (type : AccessType) (mode : Reg)
    (hlvx : Bool) (w : World δ) : Prop :=
  ∃ vm i base w₁ pte w₂ w₃, decodeVmInfo r.xlen false mode (r.atp false) = some vm ∧
    Reaches (s1Visit (busMem bus r) r vm addr type mode false hlvx) (walkLevels r vm addr) vm.ptbase
      w (i + 1) base w₁ ∧
    pteLoad bus r (s1Slot vm addr i base) addr false type vm.ptesize w₁ = .ok pte w₂ ∧
    s1Class r vm type mode false hlvx i pte = .leaf ∧
    pte &&& adBits type ≠ adBits type ∧ hasBits r.menvcfg envcfgHade = true ∧
    napotRefused i pte = true ∧
    pteStore bus r (s1Slot vm addr i base) (pte ||| adBits type) addr false type vm.ptesize w₂ =
      .ok () w₃ ∧
    w₃.mem ≠ w.mem

/-- What the loop has done to memory when it finds no page. -/
theorem mem_eq_of_s1Descend_none {vm : VmInfo}
    (hvm : decodeVmInfo r.xlen false mode (r.atp false) = some vm)
    (hno : ¬ WritesMalformedNapot bus r addr type mode hlvx w)
    (h : s1Descend bus r vm addr type mode false hlvx w = .ok none w') : w'.mem = w.mem := by
  rcases descend_eq_ok_iff.1 h with ⟨-, c, hr⟩ | ⟨i, base, w₁, hr, hd⟩
  · exact (sameMemory_of_reaches hr).mem
  · obtain ⟨slot, u, pte, w₂, hs, hl, hend⟩ := s1Visit_done_iff.1 hd
    cases hs
    have hsame : w₂.mem = w.mem :=
      ((sameMemory_of_reaches hr).trans (pteLoad_ok hl).2.1).mem
    rcases hend with ⟨-, -, rfl⟩ | ⟨hc, hf⟩
    · exact hsame
    · obtain ⟨b, hu, hres⟩ := finishLeaf_ok_iff.1 hf
      rcases updateAd_ok_iff.1 hu with ⟨-, -, rfl⟩ | ⟨had, hade, rfl, hst⟩ | ⟨-, -, -, rfl⟩
      · exact hsame
      · -- the bits were written, so only the NAPOT check can have ended the walk
        by_contra hne
        have hnapot : napotRefused i pte = true := by
          cases hn : napotRefused i pte with
          | true => rfl
          | false =>
            rw [hn] at hres
            cases hres
        exact hno ⟨vm, i, base, w₁, pte, w₂, w', hvm, hr, hl, hc, had, hade, hnapot, hst, hne⟩
      · exact hsame

/-- A walk that ends in no page fault has no entry in RAM behind it that it has written. -/
theorem mem_of_otherStop {e : Stop}
    (hwalk : walk (busMem bus r) r addr type mode false hlvx w = .error e w')
    (hpf : ∀ t, e = .trap t → ¬IsPageFault t) :
    w'.mem = w.mem ∨ UpdateRefused bus r addr type w w' := by
  cases hvm : decodeVmInfo r.xlen false mode (r.atp false) with
  | none =>
    rw [walk_abort hvm] at hwalk
    cases hwalk
    exact .inl rfl
  | some vm =>
    by_cases hlevels : vm.levels = 0
    · rw [walk_bare _ hvm hlevels, Exec.bind_of_ok s2xlate_single] at hwalk
      cases hwalk
    · rw [walk_eq_walkTables _ hvm hlevels] at hwalk
      rcases walkTables_error_iff.1 hwalk with hd | ⟨-, rfl⟩ | ⟨p, u, -, hs⟩
      · -- a round has thrown
        obtain ⟨i, base, w₁, hr, hv⟩ := descend_eq_error_iff.1 hd
        have hsame : w₁.mem = w.mem := (sameMemory_of_reaches hr).mem
        rcases s1Visit_error_iff.1 hv with hs | ⟨slot, u, hs, hl | ⟨pte, v, hl, -, -, -, hst⟩⟩
        · cases hs
        · cases hs
          exact .inl ((pteLoad_error hl).2.mem.trans hsame)
        · cases hs
          have hv : v.mem = w.mem := (pteLoad_ok hl).2.1.mem.trans hsame
          obtain hmem | hdevice := mem_of_pteStore_error hst
          · exact .inl (hmem.trans hv)
          · rw [pteStore_error hst] at hst
            exact .inr ⟨_, _, _, v, hdevice, hv, hst⟩
      · exact absurd (isPageFault_pageFault _ _ _) (hpf _ rfl)
      · cases hs

/-- **Faults and memory.** A single-stage walk that ends in a page fault leaves memory unchanged,
except exactly when it has updated the A and D bits of a leaf and then refuses its NAPOT encoding. A
walk that ends in any other way without a page has changed nothing in any case. -/
theorem faultKeepsMemory_iff (bus : Bus δ) (r : Regime) (addr : Reg) (type : AccessType)
    (mode : Reg)
    (hlvx : Bool) (w : World δ) :
    FaultKeepsMemory bus r addr type mode hlvx w ↔
      ¬ WritesMalformedNapot bus r addr type mode hlvx w := by
  constructor
  · rintro hkeep ⟨vm, i, base, w₁, pte, w₂, w₃, hvm, hr, hl, hc, had, hade, hnapot, hst, hne⟩
    have hlevels : vm.levels ≠ 0 := by
      intro h0
      have hle := hr.le
      unfold walkLevels at hle
      split at hle <;> omega
    have hfinish : finishLeaf (busMem bus r) vm (s1Slot vm addr i base) pte (addr >>> pgShift) addr
        type false (hasBits (r.envcfg false) envcfgHade) i w₂ = .ok none w₃ := by
      refine finishLeaf_ok_iff.2 ⟨true, updateAd_ok_iff.2 (.inr (.inl ⟨had, hade, rfl, hst⟩)), ?_⟩
      simp [hnapot]
    have hvisit : s1Visit (busMem bus r) r vm addr type mode false hlvx i base w₁ =
        .ok (.done none) w₃ :=
      s1Visit_done_iff.2
        ⟨s1Slot vm addr i base, w₁, pte, w₂, s2xlate_single, hl, .inr ⟨hc, hfinish⟩⟩
    have hdesc : s1Descend bus r vm addr type mode false hlvx w = .ok none w₃ :=
      descend_eq_ok_iff.2 (.inr ⟨i, base, w₁, hr, hvisit⟩)
    have hwalk : walk (busMem bus r) r addr type mode false hlvx w =
        .error (.trap (pageFault type false addr)) w₃ := by
      rw [walk_eq_walkTables _ hvm hlevels]
      exact walkTables_error_iff.2 (.inr (.inl ⟨hdesc, rfl⟩))
    exact hne (hkeep.pageFault _ _ hwalk (isPageFault_pageFault _ _ _))
  · intro hno
    refine ⟨fun t w' hwalk hpf => ?_, fun e w' => mem_of_otherStop⟩
    cases hvm : decodeVmInfo r.xlen false mode (r.atp false) with
    | none =>
      rw [walk_abort hvm] at hwalk
      cases hwalk
    | some vm =>
      by_cases hlevels : vm.levels = 0
      · rw [walk_bare _ hvm hlevels, Exec.bind_of_ok s2xlate_single] at hwalk
        cases hwalk
      · rw [walk_eq_walkTables _ hvm hlevels] at hwalk
        rcases walkTables_error_iff.1 hwalk with hd | ⟨hd, -⟩ | ⟨p, u, -, hs⟩
        · obtain ⟨i, base, w₁, -, hv⟩ := descend_eq_error_iff.1 hd
          cases s1Visit_error_single hv
          exact absurd hpf (not_isPageFault_accessFault _ _ _)
        · exact mem_eq_of_s1Descend_none hvm hno hd
        · cases hs

/-- Sv39 with the root table at 0, hardware updates and Svnapot. -/
def napotRegime : Regime where
  xlen := .rv64
  svnapot := true
  satp := 0x8000000000000000#64
  vsatp := 0#64
  hgatp := 0#64
  sstatus := 0#64
  vsstatus := 0#64
  menvcfg := envcfgHade
  henvcfg := 0#64
  pmp := Pmp.absent
  debugMode := false

/-- A root table whose first entry is a NAPOT gigapage, which no level above 0 may hold. -/
def napotWorld : World Unit :=
  World.ofDoublewords [(0#64, 0x800000000000000f#64)]

/-- What a program that throws leaves at an address. -/
def thrownByte {δ α : Type} (a : Reg) : EStateM.Result Stop (World δ) α → Option (Stop × BitVec 8)
  | .error e w => some (e, w.mem a)
  | .ok _ _ => none

/-- The load page fault of the gigapage leaves its A bit set. -/
theorem not_faultKeepsMemory :
    ¬ FaultKeepsMemory ramBus napotRegime 0#64 .load prvS false napotWorld := by
  intro hkeep
  have hbyte : thrownByte 0#64 (walk (busMem ramBus napotRegime) napotRegime 0#64 .load prvS false
      false napotWorld) = some (.trap (pageFault .load false 0#64), 0x4f#8) := by decide
  cases hwalk : walk (busMem ramBus napotRegime) napotRegime 0#64 .load prvS false false
      napotWorld with
  | ok page w' =>
    rw [hwalk] at hbyte
    cases hbyte
  | error e w' =>
    rw [hwalk] at hbyte
    simp only [thrownByte, Option.some.injEq, Prod.mk.injEq] at hbyte
    obtain ⟨rfl, hmem⟩ := hbyte
    rw [hkeep.pageFault _ w' hwalk (isPageFault_pageFault _ _ _)] at hmem
    exact absurd hmem (by decide)

end Nnemu

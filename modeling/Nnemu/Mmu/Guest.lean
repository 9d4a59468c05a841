import Nnemu.Mmu.FaultClass
import Nnemu.Mmu.Pte

/-!
# Writes to guest page tables

The address of a first-stage entry under two-stage translation is translated as a load, once, and
then serves for the update of the entry's A and D bits as well. The second-stage leaf it went
through need not grant writes: what it must hold for the update to be one the hypervisor allowed is
the content of `guestWrites_iff`.

`GuestLoad` is the translation of the address of a first-stage entry, which is asked for as a load,
and `GuestWrite` the store to the place it found. The user bit, the place and the alignment come out
right whatever the leaf is; `GrantsDirty` is the part that is missing, and
`guestWritesPermitted_iff` says that it is all that is missing.
-/

namespace Nnemu

open Radix Bytes

variable {δ : Type} {bus : Bus δ} {r : Regime} {vm gvm : VmInfo} {addr mode : Reg}
  {type : AccessType} {hlvx : Bool} {w : World δ}

/-! ### Slots of both stages -/

/-- Every table the first stage comes to starts a page. -/
theorem s1_base_mod_page {virt : Bool} {n k : Nat} {b base : Reg} {u : World δ}
    (h : Reaches (s1Visit (busMem bus r) r vm addr type mode virt hlvx) n b w k base u)
    (hb : b.toNat % 4096 = 0) : base.toNat % 4096 = 0 := by
  refine h.induct (P := fun _ b _ => b.toNat % 4096 = 0) ?_ hb
  intro i b s b' s' _ hv
  obtain ⟨slot, u, pte, -, -, -, rfl⟩ := s1Visit_next_iff.1 hv
  exact shiftLeft_mod_page _

/-- Every table the second stage comes to starts a page. -/
theorem s2_base_mod_page {gpa : Reg} {trapType : AccessType} {n k : Nat}
    {b base : Reg} {u : World δ}
    (h : Reaches (s2Visit (busMem bus r) r gvm addr gpa type trapType hlvx) n b w k base u)
    (hb : b.toNat % 4096 = 0) : base.toNat % 4096 = 0 := by
  refine h.induct (P := fun _ b _ => b.toNat % 4096 = 0) ?_ hb
  intro i b s b' s' _ hv
  obtain ⟨pte, -, -, rfl⟩ := s2Visit_next_iff.1 hv
  exact shiftLeft_mod_page _

/-- An update sets no permission. -/
theorem hasBits_adBits_perm (type : AccessType) :
    hasBits (adBits type) pteV = false ∧ hasBits (adBits type) pteR = false ∧
      hasBits (adBits type) pteW = false ∧ hasBits (adBits type) pteU = false := by
  cases type <;> decide

/-- An update for a store marks the page dirty. -/
theorem hasBits_adBits_pteD (type : AccessType) :
    hasBits (adBits type) pteD = decide (type = .store) := by
  cases type <;> decide

/-! ### Updates of first-stage entries -/

/-- The second stage, asked to load from the guest-physical address `gpa`, ends at the leaf in
`gslot` with the host-physical address `slot`. -/
def GuestLoad (bus : Bus δ) (r : Regime) (gvm : VmInfo) (addr gpa : Reg) (type : AccessType)
    (u : World δ) (slot gslot : Reg) (u' : World δ) : Prop :=
  gpa &&& ~~~maxGpa gvm = 0#64 ∧ ∃ j gbase t,
    Reaches (s2Visit (busMem bus r) r gvm addr gpa .load type false) gvm.levels gvm.ptbase u (j + 1)
      gbase t ∧
    s2Visit (busMem bus r) r gvm addr gpa .load type false j gbase t = .ok (.done (some slot)) u' ∧
    gslot = s2Slot gvm gpa j gbase

/-- Whenever the second stage returns there is such a leaf. -/
theorem s2xlate_ok_iff_guestLoad (hgvm : decodeVmInfo r.xlen true 0#64 r.hgatp = some gvm)
    (hl : gvm.levels ≠ 0) {gpa slot : Reg} {u u' : World δ} :
    s2xlate (busMem bus r) r addr gpa .load type true false u = .ok slot u' ↔
      ∃ gslot, GuestLoad bus r gvm addr gpa type u slot gslot u' := by
  rw [s2xlate_ok_iff hgvm hl, s2Descend, descend_eq_ok_iff]
  constructor
  · rintro ⟨hrange, ⟨⟨⟩, -⟩ | ⟨j, gbase, t, hr, hv⟩⟩
    exact ⟨_, hrange, j, gbase, t, hr, hv, rfl⟩
  · rintro ⟨gslot, hrange, j, gbase, t, hr, hv, -⟩
    exact ⟨hrange, .inr ⟨j, gbase, t, hr, hv⟩⟩

/-- The walk of a guest's access, from `w`, updates the A and D bits of the first-stage entry in
`slot`, whose address it got through the second-stage leaf in `gslot`; `v` and `v'` are the worlds
before and after the store. Both entries are in RAM. -/
def GuestWrite (bus : Bus δ) (r : Regime) (addr : Reg) (type : AccessType)
    (mode : Reg) (hlvx : Bool)
    (w : World δ) (slot gslot : Reg) (v v' : World δ) : Prop :=
  ∃ vm gvm i base u u' pte, decodeVmInfo r.xlen false mode r.vsatp = some vm ∧
    decodeVmInfo r.xlen true 0#64 r.hgatp = some gvm ∧
    Reaches (s1Visit (busMem bus r) r vm addr type mode true hlvx)
      (walkLevels r vm addr) vm.ptbase w
      (i + 1) base u ∧
    GuestLoad bus r gvm addr (s1Slot vm addr i base) type u slot gslot u' ∧
    pteLoad bus r slot addr true type vm.ptesize u' = .ok pte v ∧
    s1Class r vm type mode true hlvx i pte = .leaf ∧ pte &&& adBits type ≠ adBits type ∧
    hasBits r.henvcfg envcfgHade = true ∧
    pteStore bus r slot (pte ||| adBits type) addr true type vm.ptesize v = .ok () v' ∧
    bus.isMem slot = true ∧ bus.isMem gslot = true

/-- The entry grants the guest writes and is marked dirty. -/
def GrantsDirty (pte : Reg) : Prop :=
  hasBits pte pteV = true ∧ hasBits pte pteR = true ∧ hasBits pte pteW = true ∧
    hasBits pte pteU = true ∧ hasBits pte pteD = true

/-- What the second stage knows of the leaf when it has returned: it is valid and a user page. -/
theorem GuestLoad.leaf {gpa slot gslot : Reg} {u u' : World δ}
    (hgvm : decodeVmInfo r.xlen true 0#64 r.hgatp = some gvm)
    (h : GuestLoad bus r gvm addr gpa type u slot gslot u') (hmem : bus.isMem gslot = true) :
    hasBits (u'.read gslot gvm.ptesize) pteV = true ∧
      hasBits (u'.read gslot gvm.ptesize) pteU = true := by
  obtain ⟨-, j, gbase, t, hr, hv, rfl⟩ := h
  have hscheme := decodeVmInfo_scheme hgvm (by have := hr.le; omega)
  obtain ⟨pte, t', hload, ⟨-, ⟨⟩, -⟩ | ⟨hc, page, hf, hres⟩⟩ := s2Visit_done_iff.1 hv
  obtain ⟨hpte, rfl⟩ := (pteLoad_ok hload).2.2 hmem
  obtain ⟨-, -, hu, hleaf⟩ := s2Classify_eq_leaf_iff.1 hc
  obtain ⟨b, had, hpage⟩ := finishLeaf_ok_iff.1 hf
  rcases updateAd_ok_iff.1 had with ⟨-, -, rfl⟩ | ⟨-, -, -, hst⟩ | ⟨-, -, rfl, -⟩
  · rw [← hpte]
    exact ⟨hleaf.1, hu⟩
  · obtain rfl := (pteStore_ok hst).2.1 hmem
    have hlt : (pte ||| adBits .load).toNat < 2 ^ (8 * gvm.ptesize) := by
      refine or_adBits_lt hscheme.ptesize_cases ?_
      rw [hpte]
      exact read_lt _ _ _
    rw [read_setMem_self _ _ _ hlt, hasBits_or, hasBits_or, hleaf.1, hu]
    exact ⟨rfl, rfl⟩
  · rw [hpage] at hres
    cases hres

/-- Translation keeps the offset in the page. -/
theorem GuestLoad.mod_page {gpa slot gslot : Reg} {u u' : World δ}
    (h : GuestLoad bus r gvm addr gpa type u slot gslot u') :
    slot.toNat % 4096 = gpa.toNat % 4096 := by
  obtain ⟨-, j, gbase, t, hr, hv, rfl⟩ := h
  obtain ⟨pte, t', -, ⟨-, ⟨⟩, -⟩ | ⟨-, page, hf, hres⟩⟩ := s2Visit_done_iff.1 hv
  obtain ⟨b, -, rfl⟩ := finishLeaf_ok_iff.1 hf
  split at hres
  · rw [Option.map_some, Option.some.injEq] at hres
    rw [hres]
    exact or_offset_mod_page (pageBase_mod_page _ _ _)
  · cases hres

/-- The leaf is a slot. -/
theorem GuestLoad.aligned {gpa slot gslot : Reg} {u u' : World δ}
    (hgvm : decodeVmInfo r.xlen true 0#64 r.hgatp = some gvm)
    (h : GuestLoad bus r gvm addr gpa type u slot gslot u') : Aligned gvm.ptesize gslot := by
  obtain ⟨-, j, gbase, t, hr, -, rfl⟩ := h
  have hscheme := decodeVmInfo_scheme hgvm (by have := hr.le; omega)
  exact aligned_entry hscheme.ptesize_cases (s2_base_mod_page hr hscheme.ptbase) _

/-- **One update.** After the update of a first-stage entry its second-stage leaf grants the guest
writes and is dirty, exactly when it was readable, writable and dirty before, or becomes dirty
because it is the updated entry itself and the access a store. -/
theorem guestWrite_iff {slot gslot : Reg} {v v' : World δ}
    (h : GuestWrite bus r addr type mode hlvx w slot gslot v v') :
    GrantsDirty (v'.read gslot r.pteSize) ↔
      hasBits (v.read gslot r.pteSize) pteR = true ∧ hasBits (v.read gslot r.pteSize) pteW = true ∧
        (hasBits (v.read gslot r.pteSize) pteD = true ∨ (gslot = slot ∧ type = .store)) := by
  obtain ⟨vm, gvm, i, base, u, u', pte, hvm, hgvm, hr, hgl, hload, -, -, -, hst, hslot, hgslot⟩ := h
  have hscheme : vm.Scheme r.xlen false := by
    refine decodeVmInfo_scheme hvm ?_
    have hle := hr.le
    unfold walkLevels at hle
    split at hle <;> omega
  have hgscheme : gvm.Scheme r.xlen true := by
    obtain ⟨-, j, gbase, t, hgr, -⟩ := hgl
    exact decodeVmInfo_scheme hgvm (by have := hgr.le; omega)
  have hsize : vm.ptesize = r.pteSize := hscheme.ptesize
  have hgsize : gvm.ptesize = r.pteSize := hgscheme.ptesize
  have hleaf := hgl.leaf hgvm hgslot
  have hgal := hgl.aligned hgvm
  have hal : Aligned vm.ptesize slot :=
    aligned_of_mod_page
      (aligned_entry hscheme.ptesize_cases (s1_base_mod_page hr hscheme.ptbase) _) hgl.mod_page
  -- the load of the entry leaves memory alone, so the store starts from what was read
  obtain ⟨hpte, rfl⟩ := (pteLoad_ok hload).2.2 hslot
  obtain rfl := (pteStore_ok hst).2.1 hslot
  rw [hgsize] at hleaf hgal
  rw [hsize] at hal hpte ⊢
  by_cases heq : gslot = slot
  · subst heq
    have hlt : (pte ||| adBits type).toNat < 2 ^ (8 * r.pteSize) := by
      refine or_adBits_lt hal.size ?_
      rw [hpte]
      exact read_lt _ _ _
    rw [read_setMem_self _ _ _ hlt, ← hpte]
    rw [← hpte] at hleaf
    obtain ⟨hv, hr, hw, hu⟩ := hasBits_adBits_perm type
    simp only [GrantsDirty, hasBits_or, hv, hr, hw, hu, hasBits_adBits_pteD, hleaf.1, hleaf.2,
      Bool.or_false, Bool.or_eq_true, decide_eq_true_eq, true_and]
  · rw [read_setMem_of_ne _ _ hal hgal heq, GrantsDirty, hleaf.1, hleaf.2]
    simp [heq]

/-- There are no other writes to first-stage entries: when the loop of the first stage ends, it has
stored nothing since it loaded the last entry, or has made such an update. -/
theorem guestWrite_of_done {i : Nat} {base : Reg} {u w' : World δ} {res : Option Reg}
    (hvm : decodeVmInfo r.xlen false mode r.vsatp = some vm)
    (hgvm : decodeVmInfo r.xlen true 0#64 r.hgatp = some gvm) (hl : gvm.levels ≠ 0)
    (hr : Reaches (s1Visit (busMem bus r) r vm addr type mode true hlvx) (walkLevels r vm addr)
      vm.ptbase w (i + 1) base u)
    (hv : s1Visit (busMem bus r) r vm addr type mode true hlvx i base u = .ok (.done res) w') :
    ∃ slot gslot u' pte v, GuestLoad bus r gvm addr (s1Slot vm addr i base) type u slot gslot u' ∧
      pteLoad bus r slot addr true type vm.ptesize u' = .ok pte v ∧
      (w' = v ∨ (bus.isMem slot = true → bus.isMem gslot = true →
        GuestWrite bus r addr type mode hlvx w slot gslot v w')) := by
  obtain ⟨slot, u', pte, v, hs, hload, hend⟩ := s1Visit_done_iff.1 hv
  obtain ⟨gslot, hgload⟩ := (s2xlate_ok_iff_guestLoad hgvm hl).1 hs
  refine ⟨slot, gslot, u', pte, v, hgload, hload, ?_⟩
  rcases hend with ⟨-, -, rfl⟩ | ⟨hc, hf⟩
  · exact .inl rfl
  · obtain ⟨b, had, -⟩ := finishLeaf_ok_iff.1 hf
    rcases updateAd_ok_iff.1 had with ⟨-, -, rfl⟩ | ⟨hlack, hhade, -, hst⟩ | ⟨-, -, -, rfl⟩
    · exact .inl rfl
    · exact .inr fun hslot hgslot => ⟨vm, gvm, i, base, u, u', pte, hvm,
        hgvm, hr, hgload, hload, hc,
        hlack, hhade, hst, hslot, hgslot⟩
    · exact .inl rfl

/-! ### The exact condition -/

/-- Every update of a first-stage entry in this walk goes through a second-stage leaf that grants
the guest writes and is dirty afterwards. -/
def GuestWritesPermitted (bus : Bus δ) (r : Regime) (addr : Reg) (type : AccessType) (mode : Reg)
    (hlvx : Bool) (w : World δ) : Prop :=
  ∀ slot gslot v v', GuestWrite bus r addr type mode hlvx w slot gslot v v' →
    GrantsDirty (v'.read gslot r.pteSize)

/-- **Writes to guest page tables.** They are permitted exactly when the leaf was readable, writable
and dirty before each of them, or is the entry a store's walk updates. Valid and user are the only
checked permissions: the leaf was found by a load. -/
theorem guestWritesPermitted_iff (bus : Bus δ) (r : Regime) (addr : Reg) (type : AccessType)
    (mode : Reg) (hlvx : Bool) (w : World δ) :
    GuestWritesPermitted bus r addr type mode hlvx w ↔
      ∀ slot gslot v v', GuestWrite bus r addr type mode hlvx w slot gslot v v' →
        hasBits (v.read gslot r.pteSize) pteR = true ∧
        hasBits (v.read gslot r.pteSize) pteW = true ∧
          (hasBits (v.read gslot r.pteSize) pteD = true ∨ (gslot = slot ∧ type = .store)) := by
  constructor
  · intro h slot gslot v v' hw
    exact (guestWrite_iff hw).1 (h slot gslot v v' hw)
  · intro h slot gslot v v' hw
    exact (guestWrite_iff hw).2 (h slot gslot v v' hw)

/-- The host maps the first gigabyte of the guest read-only to itself; the guest's root table is in
it and maps a gigapage whose A bit is clear. -/
def readOnlyWorld : World Unit :=
  World.ofDoublewords [(0#64, 0x0f#64), (0x4000#64, 0x53#64)]

/-- A guest load writes to a page the guest may only read. -/
theorem not_guestWritesPermitted :
    ¬ GuestWritesPermitted ramBus (guestRegime Pmp.absent) 0#64 .load prvS false readOnlyWorld := by
  intro h
  have hw : GuestWrite ramBus (guestRegime Pmp.absent) 0#64 .load prvS false readOnlyWorld 0#64
      0x4000#64 readOnlyWorld
      (readOnlyWorld.setMem true (writeBytes readOnlyWorld.mem 0#64 (toBytes 0x4f#64 8))) := by
    refine ⟨⟨3, 9, 0, 8, 0#64⟩, ⟨3, 9, 2, 8, 0x4000#64⟩, 2, 0#64, readOnlyWorld,
      readOnlyWorld, 0x0f#64,
      rfl, rfl, .refl _ _ _,
      ⟨by decide, 2, 0x4000#64, readOnlyWorld, .refl _ _ _, rfl, by decide⟩, rfl,
      by decide, by decide, by decide, rfl, rfl, rfl⟩
  exact absurd (h _ _ _ _ hw).2.2.1 (by decide)

end Nnemu

import Nnemu.Mmu.Path
import Nnemu.Pmp.Readable

/-!
# The same translation again

A single-stage translation that succeeds writes one entry at most: the leaf it uses, and there the A
and D bits. The tables on its path are no leaves, so the path is the same even when tables map
themselves, and the translation succeeds again, with no write: `translate_again`.

The first access may be a load or a store, and the second one the same access or a load: a leaf that
permits the store permits the load. The walk is followed round by round (`reaches_again`), where the
entries on the way are the same and the leaf differs by what the first access has added.
-/

namespace Nnemu

open Radix Bytes Bits

variable {δ : Type} {bus : Bus δ} {r : Regime} {vm : VmInfo} {addr mode : Reg}
  {type : AccessType} {virt hlvx : Bool}
  {w w' u : World δ}

/-! ### One stage -/

/-- There is no second stage, or it is off. -/
def SingleStage (r : Regime) (virt : Bool) : Prop :=
  virt = false ∨ ∃ vm, decodeVmInfo r.xlen true 0#64 r.hgatp = some vm ∧ vm.levels = 0

theorem SingleStage.s2xlate_eq (h : SingleStage r virt) {gva gpa : Reg}
    {type trapType : AccessType} (w : World δ) :
    s2xlate (busMem bus r) r gva gpa type trapType virt hlvx w = .ok gpa w := by
  cases virt with
  | false => exact s2xlate_single
  | true =>
    obtain ⟨vm, hvm, hlevels⟩ := h.resolve_left (by decide)
    exact s2xlate_bare hvm hlevels

/-- Every table entry the path from `b` comes to is in RAM. -/
def TablesInRam (bus : Bus δ) (w : World δ) (vm : VmInfo) (addr : Reg) (n : Nat) (b : Reg) : Prop :=
  ∀ i base, TablePath PointsOn w vm addr n b (i + 1) base →
    bus.isMem (entryAddr vm addr i base) = true

theorem TablesInRam.of_path {n k : Nat} {b c : Reg} (h : TablesInRam bus w vm addr n b)
    (hp : TablePath PointsOn w vm addr n b k c) : TablesInRam bus w vm addr k c :=
  fun i base hp' => h i base (hp.trans hp')

theorem aligned_entryAddr (addr : Reg) (hsize : vm.ptesize = 4 ∨ vm.ptesize = 8) {b : Reg}
    (hbase : b.toNat % 4096 = 0) (i : Nat) : Aligned vm.ptesize (entryAddr vm addr i b) := by
  rw [entryAddr, BitVec.ofNat_mul]
  exact aligned_entry hsize hbase _

/-! ### Rounds -/

section Rounds

variable (hone : SingleStage r virt) (hidx : vm.idxbits < 64)

include hone hidx

/-- A round goes down at an entry that points on and may be read. -/
theorem s1Visit_next_iff_single {i : Nat} {b b' : Reg}
    (hmem : bus.isMem (entryAddr vm addr i b) = true) :
    s1Visit (busMem bus r) r vm addr type mode virt hlvx i b w = .ok (.next b') w' ↔
      r.pmp.pmpOk (entryAddr vm addr i b) vm.ptesize .load prvS = true ∧
      PointsOn (w.entry vm addr i b) ∧
        b' = ptePpn (w.entry vm addr i b) <<< pgShift ∧ w' = w := by
  rw [s1Visit_next_iff, s1Slot_eq_entryAddr hidx]
  constructor
  · rintro ⟨slot, u, pte, hs, hl, hc, rfl⟩
    rw [hone.s2xlate_eq] at hs
    cases hs
    obtain ⟨hpmp, -, hram⟩ := pteLoad_ok hl
    obtain ⟨rfl, rfl⟩ := hram hmem
    exact ⟨hpmp, s1Class_eq_table_iff.1 hc, rfl, rfl⟩
  · rintro ⟨hpmp, hp, rfl, rfl⟩
    exact ⟨_, _, _, hone.s2xlate_eq _, pteLoad_of_isMem hpmp hmem _, s1Class_eq_table_iff.2 hp, rfl⟩

/-- A round finds a page at a leaf that may be read and whose A and D bits are there or are
written. -/
theorem s1Visit_page_iff_single {i : Nat} {b page : Reg}
    (hmem : bus.isMem (entryAddr vm addr i b) = true) :
    s1Visit (busMem bus r) r vm addr type mode virt hlvx i b w = .ok (.done (some page)) w' ↔
      r.pmp.pmpOk (entryAddr vm addr i b) vm.ptesize .load prvS = true ∧
        s1Class r vm type mode virt hlvx i (w.entry vm addr i b) = .leaf ∧
        napotRefused i (w.entry vm addr i b) = false ∧
        page = pageBase (i * vm.idxbits) (w.entry vm addr i b) (addr >>> pgShift) ∧
        updateAd (busMem bus r) vm (entryAddr vm addr i b) (w.entry vm addr i b) addr type virt
          (hasBits (r.envcfg virt) envcfgHade) w = .ok true w' := by
  rw [s1Visit_done_iff, s1Slot_eq_entryAddr hidx]
  constructor
  · rintro ⟨slot, u, pte, v, hs, hl, ⟨-, ⟨⟩, -⟩ | ⟨hc, hf⟩⟩
    rw [hone.s2xlate_eq] at hs
    cases hs
    obtain ⟨hpmp, -, hram⟩ := pteLoad_ok hl
    obtain ⟨rfl, rfl⟩ := hram hmem
    obtain ⟨b, had, hpage⟩ := finishLeaf_ok_iff.1 hf
    cases b with
    | false => cases hpage
    | true =>
      cases hn : napotRefused i (v.read (entryAddr vm addr i _) vm.ptesize) with
      | true =>
        rw [hn] at hpage
        cases hpage
      | false =>
        rw [hn] at hpage
        exact ⟨hpmp, hc, hn, Option.some.inj hpage, had⟩
  · rintro ⟨hpmp, hc, hn, rfl, had⟩
    refine ⟨_, _, _, w, hone.s2xlate_eq _, pteLoad_of_isMem hpmp hmem _,
      .inr ⟨hc, finishLeaf_ok_iff.2 ⟨true, had, ?_⟩⟩⟩
    rw [World.entry] at hn
    rw [hn]
    rfl

/-- **The path again**: where no entry that points on has changed, the loop comes to the same table,
for any access. -/
theorem reaches_again {n k : Nat} {b c : Reg} (hsize : vm.ptesize = 4 ∨ vm.ptesize = 8)
    (type' : AccessType)
    (hkeep : ∀ slot, Aligned vm.ptesize slot → PointsOn (w.read slot vm.ptesize) →
      w'.read slot vm.ptesize = w.read slot vm.ptesize)
    (h : Reaches (s1Visit (busMem bus r) r vm addr type mode virt hlvx) n b w k c u)
    (hram : TablesInRam bus w vm addr n b) (hbase : b.toNat % 4096 = 0) :
    u = w ∧ TablePath PointsOn w vm addr n b k c ∧ c.toNat % 4096 = 0 ∧
      Reaches (s1Visit (busMem bus r) r vm addr type' mode virt hlvx) n b w' k c w' := by
  generalize hs : w = s at h
  induction h with
  | refl n b s => exact ⟨rfl, .refl _ _, hbase, .refl _ _ _⟩
  | @step i b b' s s' k c t hv _ ih =>
    subst hs
    have hmem := hram i b (.refl _ _)
    obtain ⟨hpmp, hon, rfl, rfl⟩ := (s1Visit_next_iff_single hone hidx hmem).1 hv
    -- the entry points on, so that it is not the leaf that has been written
    have hread : w'.entry vm addr i b = s'.entry vm addr i b :=
      hkeep _ (aligned_entryAddr addr hsize hbase i) hon
    obtain ⟨rfl, hpath, hbase', hreach⟩ :=
      ih (hram.of_path (.step hon (.refl _ _))) (shiftLeft_mod_page _) rfl
    refine ⟨rfl, .step hon hpath, hbase',
      .step ((s1Visit_next_iff_single hone hidx hmem).2 ⟨hpmp, ?_, ?_, rfl⟩) hreach⟩
    · rwa [hread]
    · rw [hread]

end Rounds

/-! ### The leaf -/

/-- The one write of a translation: A and D bits of a leaf. -/
inductive GainsAd (type : AccessType) (n : Nat) (slot : Reg) (w : World δ) : World δ → Prop where
  | present (h : w.read slot n &&& adBits type = adBits type) : GainsAd type n slot w w
  | written : GainsAd type n slot w
      (w.setMem true (writeBytes w.mem slot (toBytes (w.read slot n ||| adBits type) n)))

namespace GainsAd

variable {n : Nat} {slot : Reg}

/-- The A and D bits are there, and the rest of the leaf is as it was. -/
theorem leaf (h : GainsAd type n slot w w') (hslot : Aligned n slot) :
    w'.read slot n &&& adBits type = adBits type ∧ AgreeOffAd (w'.read slot n) (w.read slot n) := by
  cases h with
  | present h => exact ⟨h, .refl _⟩
  | written =>
    rw [read_setMem_self _ _ _ (or_adBits_lt hslot.size (read_lt _ _ _))]
    refine ⟨?_, AgreeOffAd.or_adBits _ type⟩
    apply BitVec.eq_of_getLsbD_eq
    intro j _
    rw [BitVec.getLsbD_and, BitVec.getLsbD_or]
    cases (adBits type).getLsbD j <;> simp

/-- **Tables are not touched**: an entry that points on is no leaf, wherever it is. -/
theorem keeps (h : GainsAd type n slot w w') (hslot : Aligned n slot)
    (hleaf : pteTable (w.read slot n) = false)
    {slot' : Reg} (hslot' : Aligned n slot') (hon : PointsOn (w.read slot' n)) :
    w'.read slot' n = w.read slot' n := by
  cases h with
  | present => rfl
  | written =>
    refine read_setMem_of_ne w _ hslot hslot' ?_
    rintro rfl
    rw [hon.table] at hleaf
    cases hleaf

/-- Outside of the leaf nothing changes. -/
theorem mem_outside (h : GainsAd type n slot w w') {a : Reg}
    (ha : ∀ j < n, a ≠ slot + BitVec.ofNat 64 j) :
    w'.mem a = w.mem a := by
  cases h with
  | present => rfl
  | written =>
    refine writeBytes_of_le (Nat.le_of_not_lt fun hlt => ?_)
    rw [length_toBytes] at hlt
    refine ha _ hlt ?_
    rw [BitVec.ofNat_toNat, BitVec.setWidth_eq, BitVec.add_comm, BitVec.sub_add_cancel]

theorem dev (h : GainsAd type n slot w w') : w'.dev = w.dev := by
  cases h with
  | present => rfl
  | written => rfl

end GainsAd

theorem gainsAd_of_updateAd {slot : Reg} {hade : Bool} (hmem : bus.isMem slot = true)
    (h : updateAd (busMem bus r) vm slot (w.read slot vm.ptesize) addr type virt hade w =
      .ok true w') :
    GainsAd type vm.ptesize slot w w' := by
  obtain ⟨had, -, rfl⟩ | ⟨-, -, -, hst⟩ | ⟨-, -, ⟨⟩, -⟩ := updateAd_ok_iff.1 h
  · exact .present had
  · rw [(pteStore_ok hst).2.1 hmem]
    exact .written

/-- A leaf for a store is one for a load. -/
theorem s1Class_load_of_store {i : Nat} {pte : Reg}
    (h : s1Class r vm .store mode virt hlvx i pte = .leaf) :
    s1Class r vm .load mode virt hlvx i pte = .leaf := by
  rw [s1Class, s1Classify_eq_leaf_iff] at h ⊢
  obtain ⟨hres, htable, huser, hv, hrw, htype, halign⟩ := h
  refine ⟨hres, htable, ?_, hv, hrw, ?_, halign⟩
  · simp only [UserAllowed, reduceCtorEq, false_or] at huser ⊢
    exact huser
  · rw [typeRefused_eq_false_iff] at htype ⊢
    obtain ⟨hx, -, hstore⟩ := htype
    refine ⟨fun h => hx (.inr (h.resolve_left (by decide))),
      fun _ hhlvx => .inl (hstore rfl hhlvx).1, ?_⟩
    intro h
    cases h

/-- The leaf is a leaf for the same access again, and needs no write. -/
theorem s1Visit_again {i : Nat} {b page : Reg} (hone : SingleStage r virt) (hidx : vm.idxbits < 64)
    (hslot : Aligned vm.ptesize (entryAddr vm addr i b))
    (hmem : bus.isMem (entryAddr vm addr i b) = true)
    (h : s1Visit (busMem bus r) r vm addr type mode virt hlvx i b w = .ok (.done (some page)) w') :
    GainsAd type vm.ptesize (entryAddr vm addr i b) w w' ∧ pteTable (w.entry vm addr i b) = false ∧
      s1Visit (busMem bus r) r vm addr type mode virt hlvx i b w' = .ok (.done (some page)) w' ∧
      (type = .store → s1Visit (busMem bus r) r vm addr .load mode virt hlvx i b w' = .ok
        (.done (some page)) w') := by
  obtain ⟨hpmp, hc, hn, rfl, had⟩ := (s1Visit_page_iff_single hone hidx hmem).1 h
  have hgain := gainsAd_of_updateAd hmem had
  obtain ⟨hbits, hagree⟩ := hgain.leaf hslot
  have hpage : pageBase (i * vm.idxbits) (w.entry vm addr i b) (addr >>> pgShift) =
      pageBase (i * vm.idxbits) (w'.entry vm addr i b) (addr >>> pgShift) :=
        (hagree.pageBase_eq _ _).symm
  have hn' : napotRefused i (w'.entry vm addr i b) = false := (hagree.napotRefused_eq i).trans hn
  have hc' : s1Class r vm type mode virt hlvx i (w'.entry vm addr i b) = .leaf :=
    (s1Classify_leaf_congr hagree).2 hc
  refine ⟨hgain, (s1Classify_eq_leaf_iff.1 hc).2.1, ?_, ?_⟩
  · exact (s1Visit_page_iff_single hone hidx hmem).2
      ⟨hpmp, hc', hn', hpage, updateAd_ok_iff.2 (.inl ⟨hbits, rfl, rfl⟩)⟩
  · rintro rfl
    have hload : w'.entry vm addr i b &&& adBits .load = adBits .load := by
      have hsub : adBits .load = adBits .store &&& adBits .load := by decide
      rw [hsub, ← BitVec.and_assoc]
      exact congrArg (· &&& adBits .load) hbits
    exact (s1Visit_page_iff_single hone hidx hmem).2
      ⟨hpmp, s1Class_load_of_store hc', hn', hpage, updateAd_ok_iff.2 (.inl ⟨hload, rfl, rfl⟩)⟩

/-! ### Whole translations -/

/-- What a translation does to the world: nothing, or the A and D bits of the leaf at the end of its
path. -/
def TouchesLeaf (r : Regime) (addr mode : Reg) (virt : Bool) (w w' : World δ) : Prop :=
  w' = w ∨ ∃ vm i base, decodeVmInfo r.xlen false mode (r.atp virt) = some vm ∧
    TablePath PointsOn w vm addr vm.levels vm.ptbase (i + 1) base ∧
      pteTable (w.entry vm addr i base) = false ∧
    AgreeOffAd (w'.entry vm addr i base) (w.entry vm addr i base) ∧ w'.dev = w.dev ∧
    ∀ a, (∀ j < vm.ptesize, a ≠ entryAddr vm addr i base + BitVec.ofNat 64 j) → w'.mem a = w.mem a

/-- The page tables of a mode are in RAM, as far as the path of the address goes. -/
def PageTablesInRam (bus : Bus δ) (r : Regime) (addr mode : Reg) (virt : Bool) (w : World δ) :
    Prop :=
  ∀ vm, decodeVmInfo r.xlen false mode (r.atp virt) = some vm →
    TablesInRam bus w vm addr vm.levels vm.ptbase

theorem s1Descend_again {page : Reg} (hone : SingleStage r virt) (hscheme : vm.Scheme r.xlen false)
    (hvm : decodeVmInfo r.xlen false mode (r.atp virt) = some vm)
    (hram : TablesInRam bus w vm addr vm.levels vm.ptbase)
    (h : s1Descend bus r vm addr type mode virt hlvx w = .ok (some page) w') :
    TouchesLeaf r addr mode virt w w' ∧
      s1Descend bus r vm addr type mode virt hlvx w' = .ok (some page) w' ∧
      (type = .store → s1Descend bus r vm addr .load mode virt hlvx w' = .ok (some page) w') := by
  have hidx := hscheme.idxbits_lt
  have hsize := hscheme.ptesize_cases
  obtain ⟨⟨⟩, -⟩ | ⟨i, b, u, hreach, hvisit⟩ := descend_eq_ok_iff.1 h
  -- an address that is not canonical has no levels to come down
  have hlevels : walkLevels r vm addr = vm.levels := by
    have hle := hreach.le
    unfold walkLevels at hle ⊢
    split
    · rfl
    · rename_i hcan
      rw [if_neg hcan] at hle
      omega
  rw [hlevels] at hreach
  obtain ⟨rfl, hpath, hbase, -⟩ :=
    reaches_again hone hidx hsize type (fun _ _ _ => rfl) hreach hram hscheme.ptbase
  have hmem := hram i b hpath
  have hslot := aligned_entryAddr addr hsize hbase i
  obtain ⟨hgain, hleaf, hagain, hload⟩ := s1Visit_again hone hidx hslot hmem hvisit
  -- the same path in the world with the A and D bits
  have hcomes (type' : AccessType) := (reaches_again hone hidx hsize type'
    (fun slot hslot' hon => hgain.keeps hslot hleaf hslot' hon) hreach hram hscheme.ptbase).2.2.2
  refine ⟨.inr ⟨vm, i, b, hvm, hpath, hleaf, (hgain.leaf hslot).2, hgain.dev,
    fun a ha => hgain.mem_outside ha⟩, ?_,
    fun htype => ?_⟩
  · rw [s1Descend, hlevels]
    exact descend_eq_ok_iff.2 (.inr ⟨i, b, w', hcomes type, hagain⟩)
  · rw [s1Descend, hlevels]
    exact descend_eq_ok_iff.2 (.inr ⟨i, b, w', hcomes .load, hload htype⟩)

/-- A walk again, with the same access or with a load after a store. -/
theorem walk_again {page : Reg} (hone : SingleStage r virt)
    (hram : PageTablesInRam bus r addr mode virt w)
    (h : walk (busMem bus r) r addr type mode virt hlvx w = .ok page w') :
    TouchesLeaf r addr mode virt w w' ∧ walk (busMem bus r) r addr type mode virt hlvx w' =
      .ok page w' ∧
      (type = .store → walk (busMem bus r) r addr .load mode virt hlvx w' = .ok page w') := by
  cases hvm : decodeVmInfo r.xlen false mode (r.atp virt) with
  | none =>
    rw [walk_abort hvm] at h
    cases h
  | some vm =>
    by_cases hlevels : vm.levels = 0
    · have hbare (type : AccessType) (w : World δ) :
        walk (busMem bus r) r addr type mode virt hlvx w =
          .ok (r.xlen.zext addr &&& ~~~pageMask) w := by
        rw [walk_bare _ hvm hlevels, Exec.bind_of_ok (hone.s2xlate_eq w)]
        rfl
      rw [hbare] at h
      cases h
      exact ⟨.inl rfl, hbare _ _, fun _ => hbare _ _⟩
    · have hwalk (type : AccessType) (w w' : World δ) :
        walk (busMem bus r) r addr type mode virt hlvx w = .ok page w' ↔
          ∃ p, s1Descend bus r vm addr type mode virt hlvx w = .ok (some p) w' ∧
            page = (p ||| (addr &&& pageMask)) &&& ~~~pageMask := by
        rw [walk_eq_walkTables _ hvm hlevels, walkTables_ok_iff]
        constructor
        · rintro ⟨p, u, phys, hd, hs, rfl⟩
          rw [hone.s2xlate_eq] at hs
          cases hs
          exact ⟨p, hd, rfl⟩
        · rintro ⟨p, hd, rfl⟩
          exact ⟨p, w', _, hd, hone.s2xlate_eq w', rfl⟩
      obtain ⟨p, hd, rfl⟩ := (hwalk type w w').1 h
      obtain ⟨htouches, hagain, hload⟩ :=
        s1Descend_again hone (decodeVmInfo_scheme hvm hlevels) hvm (hram vm hvm) hd
      exact ⟨htouches, (hwalk type w' w').2 ⟨p, hagain, rfl⟩,
        fun htype => (hwalk .load w' w').2 ⟨p, hload htype, rfl⟩⟩

theorem translateAs_ok_iff {len : Nat} {paddr : Reg} :
    translateAs (busMem bus r) r addr len type mode virt hlvx w = .ok paddr w' ↔
      ∃ page, walk (busMem bus r) r addr type mode virt hlvx w = .ok page w' ∧
        paddr = page ||| (addr &&& pageMask) ∧ r.pmp.pmpOk paddr len type mode = true := by
  rw [translateAs, Exec.bind_eq_ok_iff]
  constructor
  · rintro ⟨page, u, hwalk, h⟩
    cases hok : r.pmp.pmpOk (page ||| (addr &&& pageMask)) len type mode with
    | false =>
      rw [hok] at h
      cases h
    | true =>
      rw [hok] at h
      cases h
      exact ⟨page, hwalk, rfl, hok⟩
  · rintro ⟨page, hwalk, rfl, hok⟩
    refine ⟨page, w', hwalk, ?_⟩
    rw [hok]
    rfl

/-- **The same translation again.** A single-stage translation with its page tables in RAM that
succeeds has changed at most the A and D bits of the leaf it used. It succeeds again with the same
address and changes nothing, and after a store so does the translation for a load. -/
theorem translate_again (bus : Bus δ) (r : Regime) (s : Privilege) (addr : Reg)
    (len : Nat) (type : AccessType)
    (flags : XlateFlags) (w w' : World δ) (paddr : Reg) (hpmp : r.pmp.Reached)
    (hone : SingleStage r (s.effective type flags).2)
    (hram : PageTablesInRam bus r addr (s.effective type flags).1 (s.effective type flags).2 w)
    (h : translate (busMem bus r) r s addr len type flags w = .ok paddr w') :
    TouchesLeaf r addr (s.effective type flags).1 (s.effective type flags).2 w w' ∧
      translate (busMem bus r) r s addr len type flags w' = .ok paddr w' ∧
      (type = .store → translate (busMem bus r) r s addr len .load flags w' = .ok paddr w') := by
  obtain ⟨page, hwalk, rfl, hok⟩ := translateAs_ok_iff.1 h
  obtain ⟨htouches, hagain, hload⟩ := walk_again hone hram hwalk
  refine ⟨htouches, translateAs_ok_iff.2 ⟨page, hagain, rfl, hok⟩, ?_⟩
  rintro rfl
  have heffective : s.effective .load flags = s.effective .store flags := rfl
  rw [translate, heffective]
  exact translateAs_ok_iff.2 ⟨page, hload rfl, rfl, Pmp.pmpOk_load_of_store hpmp.writeReadable hok⟩

/-- Sv39 with the root table at 0 and hardware updates. -/
def updatingRegime : Regime :=
  { sv39Regime with menvcfg := envcfgHade }

/-- A root table that maps itself: its first entry is a table entry to itself at the upper levels,
and the second one is the leaf of its own page. -/
def selfMapped : World Unit :=
  World.ofDoublewords [(0#64, 0x1#64), (8#64, 0x7#64)]

/-- A supervisor without virtualization. -/
def supervisor : Privilege where
  prv := prvS
  v := false
  mstatus := 0#64
  mnstatus := none
  hstatus := 0#64
  debugMode := false

/-- A store to the page of the table, by the entry that the store updates. -/
theorem translate_again_selfMapped :
    ∃ w', translate (busMem ramBus updatingRegime) updatingRegime supervisor 0x1008#64 8
      .store {} selfMapped = .ok 0x8#64 w' ∧
    translate (busMem ramBus updatingRegime) updatingRegime supervisor 0x1008#64 8 .store {} w' =
      .ok 0x8#64 w' ∧
    translate (busMem ramBus updatingRegime) updatingRegime supervisor 0x1008#64 8 .load {} w' =
      .ok 0x8#64 w' := by
  have hfirst : ∃ w', translate (busMem ramBus updatingRegime) updatingRegime
    supervisor 0x1008#64 8 .store {}
      selfMapped = .ok 0x8#64 w' := ⟨_, rfl⟩
  obtain ⟨w', h⟩ := hfirst
  have hreached : updatingRegime.pmp.Reached := ⟨Pmp.absent, [], fun _ => rfl, rfl⟩
  obtain ⟨-, hagain, hload⟩ :=
    translate_again ramBus updatingRegime supervisor 0x1008#64 8 .store {} selfMapped w' 0x8#64
    hreached (.inl rfl) (fun _ _ _ _ _ => rfl) h
  exact ⟨w', h, hagain, hload rfl⟩

end Nnemu

import Nnemu.Lib.Bits
import Nnemu.Mmu.Steps

/-!
# Entries and their slots

Facts about page-table entries that hold at every level and in both stages: what the two
classification chains accept, that neither they nor the page address look at the A and D bits of a
leaf, and that every slot the walker touches is a naturally aligned word.

Two entries `AgreeOffAd` when they differ in A and D only. The walker sets these bits behind its own
back, so nearly every lemma about a second look at an entry begins with this relation: the
classification, the NAPOT test and the page address are the same for both.
-/

namespace Nnemu

open Radix Bytes Bits

/-! ### The A and D bits -/

/-- `PTE_A | PTE_D` -/
def adMask : Reg :=
  pteA ||| pteD

/-- Two entries that differ at most in their A and D bits. -/
def AgreeOffAd (p q : Reg) : Prop :=
  p &&& ~~~adMask = q &&& ~~~adMask

namespace AgreeOffAd

variable {p q s : Reg}

theorem refl (p : Reg) : AgreeOffAd p p := rfl

theorem symm (h : AgreeOffAd p q) : AgreeOffAd q p := Eq.symm h

theorem trans (h : AgreeOffAd p q) (h' : AgreeOffAd q s) : AgreeOffAd p s := Eq.trans h h'

/-- Adding A and D bits changes nothing else. -/
theorem or_adBits (p : Reg) (type : AccessType) : AgreeOffAd (p ||| adBits type) p := by
  have hz : adBits type &&& ~~~adMask = 0#64 := by
    cases type <;> decide
  rw [AgreeOffAd, BitVec.and_comm, BitVec.and_or_distrib_left, BitVec.and_comm, BitVec.and_comm _
    (adBits type), hz, BitVec.or_zero]

/-- A field without A and D is the same in both. -/
theorem and_eq (h : AgreeOffAd p q) {m : Reg} (hm : ~~~adMask &&& m = m) : p &&& m = q &&& m := by
  rw [← hm, ← BitVec.and_assoc, ← BitVec.and_assoc, show p &&& ~~~adMask = q &&& ~~~adMask from h]

theorem hasBits_eq (h : AgreeOffAd p q) {m : Reg} (hm : ~~~adMask &&& m = m) :
    hasBits p m = hasBits q m := by
  rw [hasBits, hasBits, h.and_eq hm]

theorem pteTable_eq (h : AgreeOffAd p q) : pteTable p = pteTable q := by
  rw [pteTable, pteTable, h.and_eq (by decide)]

theorem ptePpn_eq (h : AgreeOffAd p q) : ptePpn p = ptePpn q := by
  have hshift : ∀ x : Reg,
      (x &&& ~~~pteAttr) >>> ptePpnShift = (x &&& (~~~pteAttr &&& ~~~lowMask 64 10)) >>> 10 := by
    intro x
    apply BitVec.eq_of_getLsbD_eq
    intro i hi
    simp only [ptePpnShift, BitVec.getLsbD_ushiftRight, BitVec.getLsbD_and, BitVec.getLsbD_not,
      getLsbD_lowMask,
      show ¬ 10 + i < 10 by omega, decide_false, Bool.and_false, Bool.not_false, Bool.and_true]
    by_cases h64 : 10 + i < 64
    · simp [h64]
    · simp [BitVec.getLsbD_of_ge x (10 + i) (by omega)]
  rw [ptePpn, ptePpn, hshift, hshift, h.and_eq (by decide)]

theorem napotBits_eq (h : AgreeOffAd p q) : napotBits p = napotBits q := by
  rw [napotBits, napotBits, h.hasBits_eq (by decide), h.ptePpn_eq]

theorem napotRefused_eq (h : AgreeOffAd p q) (i : Nat) : napotRefused i p = napotRefused i q := by
  rw [napotRefused, napotRefused, h.hasBits_eq (by decide), h.ptePpn_eq, h.napotBits_eq]

theorem pageBase_eq (h : AgreeOffAd p q) (ptshift : Nat) (vpn : Reg) :
    pageBase ptshift p vpn = pageBase ptshift q vpn := by
  rw [pageBase, pageBase, h.ptePpn_eq, h.napotBits_eq]

theorem typeRefused_eq (h : AgreeOffAd p q) (type : AccessType) (hlvx mxr : Bool) :
    typeRefused type hlvx mxr p = typeRefused type hlvx mxr q := by
  rw [typeRefused, typeRefused, h.hasBits_eq (by decide), h.hasBits_eq (by decide),
    h.hasBits_eq (by decide)]

theorem misalignedSuperpage_eq (h : AgreeOffAd p q) (ptshift : Nat) :
    misalignedSuperpage ptshift p = misalignedSuperpage ptshift q := by
  rw [misalignedSuperpage, misalignedSuperpage, h.ptePpn_eq]

end AgreeOffAd

/-! ### What the chains accept -/

/-- The checks both chains make before they distinguish tables from leaves. -/
def ReservedClear (svnapot pbmte : Bool) (pte : Reg) : Prop :=
  hasBits pte pteRsvd = false ∧ (svnapot = true ∨ hasBits pte pteN = false) ∧
    (pbmte = true ∨ hasBits pte ptePbmt = false) ∧ pte &&& ptePbmt ≠ ptePbmt

/-- The bits a table entry must not have. -/
def tableForbidden : Reg :=
  pteD ||| pteA ||| pteU ||| pteN ||| ptePbmt

/-- The privilege rule of the first stage. -/
def UserAllowed (sMode sum : Bool) (type : AccessType) (pte : Reg) : Prop :=
  if hasBits pte pteU then ¬ (sMode = true ∧ (type = .fetch ∨ sum = false)) else sMode = true

/-- What both chains ask of a leaf besides its U bit. -/
def LeafGrants (type : AccessType) (hlvx mxr : Bool) (ptshift : Nat) (pte : Reg) : Prop :=
  hasBits pte pteV = true ∧ (hasBits pte pteR = true ∨ hasBits pte pteW = false) ∧
    typeRefused type hlvx mxr pte = false ∧ misalignedSuperpage ptshift pte = false

section Classify

variable {svnapot pbmte sMode sum mxr hlvx : Bool} {type : AccessType} {ptshift : Nat} {pte : Reg}

/-- A `break` is no other class, so the check in front of it failed. -/
theorem bad_guard {c : Prop} [Decidable c] {x k : PteClass} (hk : k ≠ .bad) :
    (if c then .bad else x) = k ↔ ¬ c ∧ x = k := by
  by_cases hc : c
  · simp [hc, hk.symm]
  · simp [hc]

/-- The part of both chains in front of the distinction. -/
theorem reserved_guard {x k : PteClass} (hk : k ≠ .bad) :
    (if hasBits pte pteRsvd then .bad
      else if !svnapot && hasBits pte pteN then .bad
      else if !pbmte && hasBits pte ptePbmt then .bad
      else if pte &&& ptePbmt == ptePbmt then .bad else x) = k ↔
      ReservedClear svnapot pbmte pte ∧ x = k := by
  rw [bad_guard hk, bad_guard hk, bad_guard hk, bad_guard hk, ReservedClear]
  cases svnapot <;> cases pbmte <;> simp [and_assoc]

/-- The distinction between a table and what follows. -/
theorem table_iff {x : PteClass} (hx : x ≠ .table) :
    (if pteTable pte then if hasBits pte tableForbidden then .bad else .table else x) = .table ↔
      pteTable pte = true ∧ hasBits pte tableForbidden = false := by
  cases pteTable pte <;> cases hasBits pte tableForbidden <;> simp [hx]

theorem leaf_of_not_table {x : PteClass} :
    (if pteTable pte then if hasBits pte tableForbidden then .bad else .table else x) = .leaf ↔
      pteTable pte = false ∧ x = .leaf := by
  cases pteTable pte <;> cases hasBits pte tableForbidden <;> simp

theorem s1Classify_eq_table_iff :
    s1Classify svnapot pbmte sMode sum mxr type hlvx ptshift pte = .table ↔
      ReservedClear svnapot pbmte pte ∧ pteTable pte = true ∧
      hasBits pte tableForbidden = false := by
  unfold s1Classify
  rw [reserved_guard (by decide)]
  refine and_congr_right fun _ => table_iff ?_
  repeat' split
  all_goals decide

theorem s2Classify_eq_table_iff :
    s2Classify svnapot pbmte mxr type hlvx ptshift pte = .table ↔
      ReservedClear svnapot pbmte pte ∧ pteTable pte = true ∧
      hasBits pte tableForbidden = false := by
  unfold s2Classify
  rw [reserved_guard (by decide)]
  refine and_congr_right fun _ => table_iff ?_
  repeat' split
  all_goals decide

theorem s1Classify_eq_leaf_iff :
    s1Classify svnapot pbmte sMode sum mxr type hlvx ptshift pte = .leaf ↔
      ReservedClear svnapot pbmte pte ∧ pteTable pte = false ∧ UserAllowed sMode sum type pte ∧
        LeafGrants type hlvx mxr ptshift pte := by
  unfold s1Classify
  rw [reserved_guard (by decide)]
  refine and_congr_right fun _ => Iff.trans leaf_of_not_table (and_congr_right fun _ => ?_)
  rw [bad_guard (by decide), bad_guard (by decide), bad_guard (by decide), bad_guard (by decide)]
  unfold UserAllowed LeafGrants
  cases hasBits pte pteU <;> cases hasBits pte pteV <;> cases hasBits pte pteR <;>
    cases hasBits pte pteW <;> simp

theorem s2Classify_eq_leaf_iff :
    s2Classify svnapot pbmte mxr type hlvx ptshift pte = .leaf ↔
      ReservedClear svnapot pbmte pte ∧ pteTable pte = false ∧ hasBits pte pteU = true ∧
        LeafGrants type hlvx mxr ptshift pte := by
  unfold s2Classify
  rw [reserved_guard (by decide)]
  refine and_congr_right fun _ => Iff.trans leaf_of_not_table (and_congr_right fun _ => ?_)
  rw [bad_guard (by decide), bad_guard (by decide), bad_guard (by decide), bad_guard (by decide)]
  unfold LeafGrants
  cases hasBits pte pteU <;> cases hasBits pte pteV <;> cases hasBits pte pteR <;>
    cases hasBits pte pteW <;> simp

/-- Whether an entry is a leaf that grants the access does not depend on its A and D bits. -/
theorem s1Classify_leaf_congr {q : Reg} (h : AgreeOffAd pte q) :
    s1Classify svnapot pbmte sMode sum mxr type hlvx ptshift pte = .leaf ↔
      s1Classify svnapot pbmte sMode sum mxr type hlvx ptshift q = .leaf := by
  rw [s1Classify_eq_leaf_iff, s1Classify_eq_leaf_iff, ReservedClear, ReservedClear, UserAllowed,
    UserAllowed, LeafGrants, LeafGrants, h.hasBits_eq (m := pteRsvd) (by decide),
    h.hasBits_eq (m := pteN) (by decide), h.hasBits_eq (m := ptePbmt) (by decide),
    h.and_eq (m := ptePbmt) (by decide), h.pteTable_eq, h.hasBits_eq (m := pteU) (by decide),
    h.hasBits_eq (m := pteV) (by decide), h.hasBits_eq (m := pteR) (by decide),
    h.hasBits_eq (m := pteW) (by decide), h.typeRefused_eq, h.misalignedSuperpage_eq]

theorem s2Classify_leaf_congr {q : Reg} (h : AgreeOffAd pte q) :
    s2Classify svnapot pbmte mxr type hlvx ptshift pte = .leaf ↔
      s2Classify svnapot pbmte mxr type hlvx ptshift q = .leaf := by
  rw [s2Classify_eq_leaf_iff, s2Classify_eq_leaf_iff, ReservedClear, ReservedClear, LeafGrants,
    LeafGrants, h.hasBits_eq (m := pteRsvd) (by decide), h.hasBits_eq (m := pteN) (by decide),
    h.hasBits_eq (m := ptePbmt) (by decide), h.and_eq (m := ptePbmt) (by decide), h.pteTable_eq,
    h.hasBits_eq (m := pteU) (by decide), h.hasBits_eq (m := pteV) (by decide),
    h.hasBits_eq (m := pteR) (by decide), h.hasBits_eq (m := pteW) (by decide), h.typeRefused_eq,
    h.misalignedSuperpage_eq]

end Classify

/-! ### Slots -/

theorem pageMask_eq : pageMask = lowMask 64 12 := by decide

/-- Numbers whose low twelve bits agree have one offset in their page. -/
theorem mod_page_congr {a b : Reg} (h : ∀ i, i < 12 → a.getLsbD i = b.getLsbD i) :
    a.toNat % 4096 = b.toNat % 4096 := by
  apply Nat.eq_of_testBit_eq
  intro i
  rw [show (4096 : Nat) = 2 ^ 12 from rfl, Nat.testBit_mod_two_pow, Nat.testBit_mod_two_pow,
    BitVec.testBit_toNat, BitVec.testBit_toNat]
  by_cases hi : i < 12
  · rw [h i hi]
  · simp [hi]

/-- A shifted page number is the start of a page. -/
theorem shiftLeft_mod_page (x : Reg) : (x <<< pgShift).toNat % 4096 = 0 := by
  have h : (x <<< pgShift).toNat % 4096 = (0#64 : Reg).toNat % 4096 := by
    apply mod_page_congr
    intro i hi
    simp [pgShift, hi]
  exact h

/-- Putting an offset into a page keeps the offset. -/
theorem or_offset_mod_page {page a : Reg} (hp : page.toNat % 4096 = 0) :
    (page ||| (a &&& pageMask)).toNat % 4096 = a.toNat % 4096 := by
  apply mod_page_congr
  intro i hi
  have hz : page.getLsbD i = false := by
    have hbit : (page.toNat % 2 ^ 12).testBit i = (0 : Nat).testBit i :=
      congrArg (fun n => Nat.testBit n i) hp
    rw [Nat.testBit_mod_two_pow, BitVec.testBit_toNat, Nat.zero_testBit] at hbit
    simpa [hi] using hbit
  rw [BitVec.getLsbD_or, BitVec.getLsbD_and, hz, pageMask_eq, getLsbD_lowMask]
  simp [hi, show i < 64 by omega]

theorem pageBase_mod_page (ptshift : Nat) (pte vpn : Reg) :
    (pageBase ptshift pte vpn).toNat % 4096 = 0 :=
  shiftLeft_mod_page _

/-- An address with the offset of a slot is a slot. -/
theorem aligned_of_mod_page {n : Nat} {a b : Reg} (hb : Aligned n b)
    (h : a.toNat % 4096 = b.toNat % 4096) : Aligned n a := by
  refine ⟨hb.size, ?_⟩
  have hd := hb.dvd
  rcases hb.size with rfl | rfl <;> omega

/-- Entry `idx` of a table is a slot. -/
theorem aligned_entry {n : Nat} (hn : n = 4 ∨ n = 8) {base : Reg} (hbase : base.toNat % 4096 = 0)
    (idx : Reg) : Aligned n (base + idx * BitVec.ofNat 64 n) := by
  refine ⟨hn, ?_⟩
  rw [BitVec.toNat_add, BitVec.toNat_mul, BitVec.toNat_ofNat]
  rcases hn with rfl | rfl <;> omega

/-- The size of an entry in either stage. -/
def Regime.pteSize (r : Regime) : Nat :=
  r.xlen.bits / 8

/-- What `decode_vm_info` returns for a mode with levels: an Sv scheme, with the root of a G stage
four times as wide. -/
structure VmInfo.Scheme (xlen : Xlen) (stage2 : Bool) (vm : VmInfo) : Prop where
  levels : (xlen = .rv32 → vm.levels = 2) ∧ 2 ≤ vm.levels ∧ vm.levels ≤ 6
  idxbits : vm.idxbits = if xlen = .rv32 then 10 else 9
  widenbits : vm.widenbits = if stage2 then 2 else 0
  ptesize : vm.ptesize = xlen.bits / 8
  ptbase : vm.ptbase.toNat % 4096 = 0

theorem decodeVmInfo_scheme {xlen : Xlen} {stage2 : Bool} {prv satp : Reg} {vm : VmInfo}
    (h : decodeVmInfo xlen stage2 prv satp = some vm) (hl : vm.levels ≠ 0) :
    vm.Scheme xlen stage2 := by
  have hbare : some VmInfo.bare ≠ some vm := by
    rintro ⟨⟩
    exact hl rfl
  unfold decodeVmInfo at h
  split at h
  · exact absurd h hbare
  · cases xlen <;> cases stage2 <;>
      simp only [Bool.not_true, Bool.not_false, Bool.true_and, Bool.false_and, Bool.and_true,
        show (Xlen.rv32 == Xlen.rv64) = false from rfl,
        show (Xlen.rv64 == Xlen.rv32) = false from rfl,
        Bool.and_false, beq_self_eq_true, Bool.false_eq_true, if_false, if_true] at h
    all_goals
      repeat' split at h
    all_goals
      first
      | exact absurd h hbare
      | cases h
    all_goals exact ⟨by simp, rfl, rfl, rfl, shiftLeft_mod_page _⟩

/-- The size of an entry is a power of two. -/
theorem VmInfo.Scheme.ptesize_cases {xlen : Xlen} {stage2 : Bool} {vm : VmInfo}
    (h : vm.Scheme xlen stage2) : vm.ptesize = 4 ∨ vm.ptesize = 8 := by
  rw [h.ptesize]
  cases xlen
  · exact .inl rfl
  · exact .inr rfl

/-! ### Updates -/

section Updates

variable {δ : Type} {type : AccessType}

/-- A word of `n` bytes is below `2 ^ (8 * n)`. -/
theorem read_lt (w : World δ) (a : Reg) (n : Nat) : (w.read a n).toNat < 2 ^ (8 * n) := by
  apply Nat.lt_pow_two_of_testBit
  intro j hj
  rw [BitVec.testBit_toNat]
  by_cases h64 : j < 64
  · rw [World.read, getLsbD_fromBytes_readBytes _ _ _ h64, decide_eq_false (by omega),
      Bool.false_and]
  · exact BitVec.getLsbD_of_ge _ _ (by omega)

/-- The A and D bits are in the first byte of an entry. -/
theorem or_adBits_lt {pte : Reg} {n : Nat} (hn : n = 4 ∨ n = 8) (h : pte.toNat < 2 ^ (8 * n)) :
    (pte ||| adBits type).toNat < 2 ^ (8 * n) := by
  rw [BitVec.toNat_or]
  refine Nat.or_lt_two_pow h ?_
  have had : (adBits type).toNat < 2 ^ 32 := by
    cases type <;> decide
  rcases hn with rfl | rfl
  · exact had
  · exact Nat.lt_of_lt_of_le had (by decide)

/-- An updated entry reads back. -/
theorem read_setMem_self (w : World δ) (slot pte : Reg) {n : Nat} (h : pte.toNat < 2 ^ (8 * n)) :
    (w.setMem true (writeBytes w.mem slot (toBytes pte n))).read slot n = pte :=
  read_write_self _ _ _ h

/-- The update of one entry leaves the other ones. -/
theorem read_setMem_of_ne (w : World δ) {slot slot' : Reg} (pte : Reg) {n : Nat}
    (h : Aligned n slot) (h' : Aligned n slot') (hne : slot' ≠ slot) :
    (w.setMem true (writeBytes w.mem slot (toBytes pte n))).read slot' n = w.read slot' n :=
  congrArg fromBytes (read_write_of_ne _ _ h h' hne)

end Updates

end Nnemu

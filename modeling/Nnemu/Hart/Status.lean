import Nnemu.Field
import Nnemu.Hart.Trap

/-!
# The fields of the status registers

`mstatus` and its relatives are read and written field by field. Here each one-bit field is given
its position, the two-bit field `MPP` its two, and the write mask of `mstatus` its bits, so that
what a write leaves in a field is a computation with single bits.

Most lemmas are equations of masks with powers of two, which `rfl` proves, and the positions are
what the lemmas of `Field` speak about. `SD` gets its own part, since its place depends on XLEN and
its value on four fields: a write computes it anew, and every other bit of the register is what the
mask lets through (`getLsbD_mstatusWrite`).
-/

namespace Nnemu

/-! ### Positions -/

theorem mstatusSie_eq : mstatusSie = BitVec.twoPow 64 1 := rfl
theorem mstatusMie_eq : mstatusMie = BitVec.twoPow 64 3 := rfl
theorem mstatusSpie_eq : mstatusSpie = BitVec.twoPow 64 5 := rfl
theorem mstatusMpie_eq : mstatusMpie = BitVec.twoPow 64 7 := rfl
theorem mstatusSpp_eq : mstatusSpp = BitVec.twoPow 64 8 := rfl
theorem mstatusMprv_eq : mstatusMprv = BitVec.twoPow 64 17 := rfl
theorem mstatusTsr_eq : mstatusTsr = BitVec.twoPow 64 22 := rfl
theorem mstatusGva_eq : mstatusGva = BitVec.twoPow 64 38 := rfl
theorem mstatusMpv_eq : mstatusMpv = BitVec.twoPow 64 39 := rfl
theorem hstatusGva_eq : hstatusGva = BitVec.twoPow 64 6 := rfl
theorem hstatusSpv_eq : hstatusSpv = BitVec.twoPow 64 7 := rfl
theorem hstatusSpvp_eq : hstatusSpvp = BitVec.twoPow 64 8 := rfl
theorem mnstatusNmie_eq : mnstatusNmie = BitVec.twoPow 64 3 := rfl
theorem mnstatusMnpv_eq : mnstatusMnpv = BitVec.twoPow 64 7 := rfl

/-- `MNPP` stands where `MPP` does. -/
theorem mnstatusMnpp_eq : mnstatusMnpp = mstatusMpp := rfl

/-- The two bits of `MPP`. -/
theorem getLsbD_mpp (i : Nat) : mstatusMpp.getLsbD i = decide (i = 11 ∨ i = 12) := by
  have heq : mstatusMpp = BitVec.twoPow 64 11 ||| BitVec.twoPow 64 12 := rfl
  rw [heq, BitVec.getLsbD_or, BitVec.getLsbD_twoPow, BitVec.getLsbD_twoPow, Bool.eq_iff_iff]
  simp [eq_comm (a := i)]

/-- Writing `MPP`. -/
theorem getLsbD_setField_mpp (x v : Reg) (i : Nat) (hi : i < 64) :
    (setField x mstatusMpp v).getLsbD i =
      if i = 11 then v.getLsbD 0 else if i = 12 then v.getLsbD 1 else x.getLsbD i := by
  rw [getLsbD_setField (k := 11) rfl, getLsbD_mpp]
  by_cases h11 : i = 11
  · subst h11
    simp
  · by_cases h12 : i = 12
    · subst h12
      simp
    · simp [h11, h12, hi]

theorem getElem_setField_mpp (x v : Reg) (i : Nat) (hi : i < 64) :
    (setField x mstatusMpp v)[i] = if i = 11 then v[0] else if i = 12 then v[1] else x[i] :=
  getLsbD_setField_mpp x v i hi

/-- `MPP` is read from its two bits. -/
theorem getField_mpp_congr {x y : Reg} (h11 : x.getLsbD 11 = y.getLsbD 11)
    (h12 : x.getLsbD 12 = y.getLsbD 12) :
    getField x mstatusMpp = getField y mstatusMpp := by
  apply getField_congr
  apply BitVec.eq_of_getLsbD_eq
  intro i hi
  rw [BitVec.getLsbD_and, BitVec.getLsbD_and, getLsbD_mpp]
  by_cases hcase : i = 11 ∨ i = 12
  · obtain rfl | rfl := hcase
    · rw [h11]
    · rw [h12]
  · simp [hcase]

/-- `MPP` after a write of it. -/
theorem getField_setField_mpp (x v : Reg) : getField (setField x mstatusMpp v) mstatusMpp = v &&&
    3#64 :=
  getField_setField_self (k := 11) rfl (by decide) x v

/-- `MPP` has two bits. -/
theorem getField_mpp_le (x : Reg) : (getField x mstatusMpp).toNat ≤ 3 :=
  getField_toNat_le (k := 11) rfl (by decide) x

/-! ### `SD` -/

namespace Config

variable (cfg : Config)

/-- `SD` is the top bit of the register. -/
theorem sdBit_eq : cfg.sdBit = BitVec.twoPow 64 (cfg.isa.xlen.bits - 1) := by
  rw [sdBit]
  cases cfg.isa.xlen with
  | rv32 => rfl
  | rv64 => rfl

/-- `SD` is bit 31 or bit 63. -/
theorem ne_sd {i : Nat} (h31 : i ≠ 31) (h63 : i ≠ 63) : i ≠ cfg.isa.xlen.bits - 1 := by
  cases cfg.isa.xlen with
  | rv32 => exact h31
  | rv64 => exact h63

/-- Only `SD` is adjusted. -/
theorem getLsbD_adjustSd (x : Reg) (i : Nat) (hi : i < 64) (hne : i ≠ cfg.isa.xlen.bits - 1) :
    (cfg.adjustSd x).getLsbD i = x.getLsbD i := by
  rw [adjustSd, sdBit_eq]
  split
  · simp [hi, hne]
  · simp [hi, hne]

/-- A state field says that state is dirty. -/
def SomeDirty (x : Reg) : Prop :=
  x &&& mstatusFs = mstatusFs ∨ x &&& mstatusVs = mstatusVs ∨ x &&& mstatusXs = mstatusXs

instance (x : Reg) : Decidable (SomeDirty x) :=
  inferInstanceAs (Decidable (_ ∨ _))

/-- `SD` after the adjustment. -/
theorem getLsbD_adjustSd_sd (x : Reg) :
    (cfg.adjustSd x).getLsbD (cfg.isa.xlen.bits - 1) = decide (SomeDirty x) := by
  have hlt : cfg.isa.xlen.bits - 1 < 64 := by
    cases cfg.isa.xlen with
    | rv32 => decide
    | rv64 => decide
  have heq : cfg.adjustSd x = if SomeDirty x then x ||| cfg.sdBit else x &&& ~~~cfg.sdBit := rfl
  rw [heq, sdBit_eq]
  by_cases hd : SomeDirty x
  · simp [hd, hlt]
  · simp [hd, hlt]

/-- The state fields decide. -/
theorem someDirty_congr {x y : Reg} (h : x &&& 0x1E600#64 = y &&& 0x1E600#64) :
    SomeDirty x ↔ SomeDirty y := by
  have hfield {m : Reg} (hm : m &&& 0x1E600#64 = m) : x &&& m = y &&& m :=
    Bits.and_eq_of_subset hm h
  rw [SomeDirty, SomeDirty, hfield (m := mstatusFs) rfl, hfield (m := mstatusVs) rfl,
    hfield (m := mstatusXs) rfl]

/-- The adjustment leaves every mask alone that lies beside `SD`. -/
theorem and_adjustSd {m : Reg} (hm : m &&& 0x8000000080000000#64 = 0#64) (x : Reg) :
    cfg.adjustSd x &&& m = x &&& m := by
  apply BitVec.eq_of_getLsbD_eq
  intro i hi
  rw [BitVec.getLsbD_and, BitVec.getLsbD_and]
  cases hmi : m.getLsbD i with
  | false => simp
  | true =>
    have hne : i ≠ cfg.isa.xlen.bits - 1 := by
      rintro rfl
      have hbit := Bits.getLsbD_of_disjoint hm hmi
      cases hx : cfg.isa.xlen with
      | rv32 => simp [hx, Xlen.bits] at hbit
      | rv64 => simp [hx, Xlen.bits] at hbit
    rw [cfg.getLsbD_adjustSd x i hi hne]

/-- Words that agree in the state fields and beside `SD` agree after the adjustment. -/
theorem adjustSd_eq {x y : Reg} (hs : x &&& 0x1E600#64 = y &&& 0x1E600#64)
    (hxy : ∀ i, i < 64 → i ≠ cfg.isa.xlen.bits - 1 → x.getLsbD i = y.getLsbD i) :
    cfg.adjustSd x = cfg.adjustSd y := by
  apply BitVec.eq_of_getLsbD_eq
  intro i hi
  by_cases hsd : i = cfg.isa.xlen.bits - 1
  · subst hsd
    rw [getLsbD_adjustSd_sd, getLsbD_adjustSd_sd, decide_eq_decide]
    exact someDirty_congr hs
  · rw [cfg.getLsbD_adjustSd x i hi hsd, cfg.getLsbD_adjustSd y i hi hsd, hxy i hi hsd]

@[simp] theorem adjustSd_adjustSd (x : Reg) : cfg.adjustSd (cfg.adjustSd x) = cfg.adjustSd x :=
  cfg.adjustSd_eq (cfg.and_adjustSd rfl x) (cfg.getLsbD_adjustSd x)

end Config

/-! ### Writing `mstatus` -/

namespace Hart

variable (cfg : Config) (h : Hart)

/-- The write mask of `mstatus` with the constants evaluated. -/
theorem mstatusWriteMask_eq :
    h.mstatusWriteMask cfg =
      (((((((((h.sstatusWriteMask cfg ||| 0x8#64) ||| 0x80#64) |||
        (if h.extensionEnabled .u then 0x20000#64 else 0#64)) ||| 0x1800#64) ||| 0x200000#64) |||
        (if h.extensionEnabled .s then 0x400000#64 else 0#64)) |||
        (if h.hasPage cfg then 0x100000#64 else 0#64)) |||
        (if h.extensionEnabled .h then 0x4000000000#64 else 0#64)) |||
        (if h.extensionEnabled .h then 0x8000000000#64 else 0#64)) := rfl

theorem mstatusWriteMask_mie : (h.mstatusWriteMask cfg).getLsbD 3 = true := by
  simp [mstatusWriteMask_eq]

theorem mstatusWriteMask_mpie : (h.mstatusWriteMask cfg).getLsbD 7 = true := by
  simp [mstatusWriteMask_eq]

/-- The write mask of `sstatus` with the constants evaluated. -/
theorem sstatusWriteMask_eq :
    h.sstatusWriteMask cfg =
      (((((if cfg.isa.table .s then 0x122#64 else 0#64) |||
        (if h.hasPage cfg then 0xC0000#64 else 0#64)) |||
        (if (cfg.isa.table .s || cfg.isa.table .f || cfg.isa.table .v) && !cfg.isa.table .zfinx
          then 0x6000#64 else 0#64)) |||
        (if cfg.anyCustomExtensions then 0x18000#64 else 0#64)) |||
        (if cfg.isa.table .v then 0x600#64 else 0#64)) := rfl

theorem mstatusWriteMask_mpv : (h.mstatusWriteMask cfg).getLsbD 39 = h.extensionEnabled .h := by
  simp [mstatusWriteMask_eq, sstatusWriteMask_eq, getElem_ite]

/-- A flush or none. -/
theorem maybeFlushTlb_cases (newval old : Reg) :
    h.maybeFlushTlb cfg newval old = h.flushTlb ∨ h.maybeFlushTlb cfg newval old = h :=
  ite_eq_or_eq _ _ _

/-- `mstatus` after a write of it. -/
theorem reg_mstatusWrite (val : Reg) :
    (h.mstatusWrite cfg val).reg =
      Function.update h.reg .mstatus (cfg.adjustSd (h.newMstatus cfg val)) := by
  rw [mstatusWrite]
  obtain hf | hf := h.maybeFlushTlb_cases cfg (h.newMstatus cfg val) (h.reg .mstatus)
  · rw [hf]
    rfl
  · rw [hf]
    rfl

@[simp] theorem extTable_mstatusWrite (val : Reg) :
    (h.mstatusWrite cfg val).extTable = h.extTable := by
  rw [mstatusWrite]
  obtain hf | hf := h.maybeFlushTlb_cases cfg (h.newMstatus cfg val) (h.reg .mstatus)
  · rw [hf]
    rfl
  · rw [hf]
    rfl

/-- A bit that a write of `mstatus` leaves, `SD` apart. -/
theorem getLsbD_newMstatus (val : Reg) (i : Nat) :
    (h.newMstatus cfg val).getLsbD i =
      if (h.mstatusWriteMask cfg).getLsbD i then
        (setField val mstatusMpp (h.legalizePrivilege (getField val mstatusMpp))).getLsbD i
      else (h.reg .mstatus).getLsbD i :=
  Bits.getLsbD_replace _ _ _ i

/-- A bit of `mstatus` after a write of it, `SD` apart. -/
theorem getLsbD_mstatusWrite (val : Reg) (i : Nat) (hi : i < 64) (h31 : i ≠ 31) (h63 : i ≠ 63) :
    ((h.mstatusWrite cfg val).reg .mstatus).getLsbD i =
      if (h.mstatusWriteMask cfg).getLsbD i then
        (setField val mstatusMpp (h.legalizePrivilege (getField val mstatusMpp))).getLsbD i
      else (h.reg .mstatus).getLsbD i := by
  rw [reg_mstatusWrite, Function.update_self, cfg.getLsbD_adjustSd _ i hi (cfg.ne_sd h31 h63),
    getLsbD_newMstatus]

/-- `MPV` after a write of `mstatus`. -/
theorem mpv_mstatusWrite (val : Reg) :
    ((h.mstatusWrite cfg val).reg .mstatus).getLsbD 39 =
      if h.extensionEnabled .h then val.getLsbD 39 else (h.reg .mstatus).getLsbD 39 := by
  rw [getLsbD_mstatusWrite cfg h val 39 (by decide) (by decide) (by decide)]
  cases hh : h.extensionEnabled .h with
  | false => simp [mstatusWriteMask_eq, sstatusWriteMask_eq, getElem_ite, hh]
  | true => simp [mstatusWriteMask_eq, hh, getElem_setField_mpp]

/-- `MPP` after a write of `mstatus` is the legalized one. -/
theorem getField_newMstatus_mpp (val : Reg) :
    getField (cfg.adjustSd (h.newMstatus cfg val)) mstatusMpp =
      h.legalizePrivilege (getField val mstatusMpp) &&& 3#64 := by
  have hbit (i : Nat) (hi : i < 64) (hw : (h.mstatusWriteMask cfg).getLsbD i = true)
      (hne : i ≠ cfg.isa.xlen.bits - 1) :
      (cfg.adjustSd (h.newMstatus cfg val)).getLsbD i =
        (setField val mstatusMpp (h.legalizePrivilege (getField val mstatusMpp))).getLsbD i := by
    rw [cfg.getLsbD_adjustSd _ i hi hne, getLsbD_newMstatus, if_pos hw]
  rw [← getField_setField_mpp val]
  apply getField_mpp_congr
  · exact hbit 11 (by decide) (by simp [mstatusWriteMask_eq]) (cfg.ne_sd (by decide) (by decide))
  · exact hbit 12 (by decide) (by simp [mstatusWriteMask_eq]) (cfg.ne_sd (by decide) (by decide))

/-- A write by the address of `mstatus` reaches the lower half only on RV32. -/
theorem putCsr_mstatus (val : Reg) :
    h.putCsr cfg 0x300 val = h.mstatusWrite cfg (match cfg.isa.xlen with
      | .rv32 => (h.reg .mstatus >>> 32 <<< 32) ||| (val &&& 0xffffffff#64)
      | .rv64 => val) := by
  rw [putCsr, csrFind_mstatus]
  cases cfg.isa.xlen with
  | rv32 =>
    dsimp only [Xlen.zext, writeObj, writtenObj, writtenValue, Hart.read, Hart.write]
    rw [BitVec.and_assoc, BitVec.and_self]
  | rv64 => rfl

end Hart

end Nnemu

import Nnemu.Lib.Fields

/-!
# Narrow words in wide ones

A word of `v` bits is held in `w` of them, extended with its sign. The low bits of an operation on
the wide words are those of the operation on the narrow ones, and the wide words are ordered as the
narrow ones are, with signs and without.
-/

namespace Narrow

variable {v w : Nat} (a b : BitVec v)

/-- The narrow word is in the low bits. -/
theorem setWidth_signExtend (h : v ≤ w) : (a.signExtend w).setWidth v = a := by
  rw [Bits.setWidth_signExtend h, BitVec.signExtend_eq]

theorem setWidth_setWidth (h : v ≤ w) : (a.setWidth w).setWidth v = a := by
  rw [BitVec.setWidth_setWidth_of_le _ h, BitVec.setWidth_eq]

/-! ### Words that are held -/

/-- The wide word holds a narrow one. -/
def Holds (v : Nat) (x : BitVec w) : Prop :=
  (x.setWidth v).signExtend w = x

/-- So does one that holds a word which is narrower still. -/
theorem holds_signExtend {n : Nat} (hn : n ≤ v) (h : v ≤ w) (x : BitVec n) :
    Holds v (x.signExtend w) := by
  rw [Holds, Bits.setWidth_signExtend h, Bits.signExtend_signExtend hn]

/-- And one that ends in zeros. -/
theorem holds_shiftLeft {n k : Nat} (hpos : 0 < n) (hk : n + k ≤ v) (h : v ≤ w) (x : BitVec n) :
    Holds v (x.signExtend w <<< k) := by
  rw [Bits.signExtend_shiftLeft hpos]
  exact holds_signExtend hk h _

/-! ### Order -/

theorem slt_signExtend (h : v ≤ w) : (a.signExtend w).slt (b.signExtend w) = a.slt b := by
  rw [BitVec.slt_eq_decide, BitVec.slt_eq_decide, BitVec.toInt_signExtend_of_le h,
    BitVec.toInt_signExtend_of_le h]

theorem sle_signExtend (h : v ≤ w) : (a.signExtend w).sle (b.signExtend w) = a.sle b := by
  rw [BitVec.sle_eq_decide, BitVec.sle_eq_decide, BitVec.toInt_signExtend_of_le h,
    BitVec.toInt_signExtend_of_le h]

/-- The extension of the sign keeps the order of the words as numbers, too: it puts all negative
ones above. -/
theorem toNat_signExtend_lt (h : v ≤ w) : (a.signExtend w).toNat < (b.signExtend w).toNat ↔
    a.toNat < b.toNat := by
  have hpow : 2 ^ v ≤ 2 ^ w := Nat.pow_le_pow_right (by decide) h
  have ha : a.toNat < 2 ^ v := a.isLt
  have hb : b.toNat < 2 ^ v := b.isLt
  rw [BitVec.toNat_signExtend, BitVec.toNat_signExtend, BitVec.toNat_setWidth_of_le h,
    BitVec.toNat_setWidth_of_le h,
    BitVec.msb_eq_decide, BitVec.msb_eq_decide]
  simp only [decide_eq_true_eq]
  split_ifs <;> omega

theorem ult_signExtend (h : v ≤ w) : (a.signExtend w).ult (b.signExtend w) = a.ult b := by
  rw [BitVec.ult_eq_decide, BitVec.ult_eq_decide, decide_eq_decide]
  exact toNat_signExtend_lt a b h

theorem ule_signExtend (h : v ≤ w) : (a.signExtend w).ule (b.signExtend w) = a.ule b := by
  rw [BitVec.ule_eq_not_ult, BitVec.ule_eq_not_ult, ult_signExtend b a h]

/-! ### Shifts to the right -/

theorem setWidth_ushiftRight (h : v ≤ w) (n : Nat) : (a.setWidth w >>> n).setWidth v = a >>> n := by
  apply BitVec.eq_of_toNat_eq
  have hlt : a.toNat >>> n < 2 ^ v := Nat.lt_of_le_of_lt (Nat.shiftRight_le _ _) a.isLt
  rw [BitVec.toNat_setWidth, BitVec.toNat_ushiftRight, BitVec.toNat_setWidth_of_le h,
    BitVec.toNat_ushiftRight,
    Nat.mod_eq_of_lt hlt]

theorem sshiftRight_signExtend (h : v ≤ w) (n : Nat) :
    (a.signExtend w).sshiftRight n = (a.sshiftRight n).signExtend w := by
  apply BitVec.eq_of_toInt_eq
  rw [BitVec.toInt_sshiftRight, BitVec.toInt_signExtend_of_le h, BitVec.toInt_signExtend_of_le h,
    BitVec.toInt_sshiftRight]

/-! ### Division -/

/-- The low bits of a wide word, as a number with a sign. -/
theorem toInt_setWidth (h : v ≤ w) (x : BitVec w) :
    (x.setWidth v).toInt = x.toInt.bmod (2 ^ v) := by
  rw [← BitVec.signExtend_eq_setWidth_of_le x h, BitVec.toInt_signExtend_eq_toInt_bmod_of_le x h]

theorem setWidth_sdiv (h : v ≤ w) : ((a.signExtend w).sdiv (b.signExtend w)).setWidth v =
    a.sdiv b := by
  apply BitVec.eq_of_toInt_eq
  rw [toInt_setWidth h, BitVec.toInt_sdiv, BitVec.toInt_signExtend_of_le h,
    BitVec.toInt_signExtend_of_le h,
    Int.bmod_bmod_of_dvd (Nat.pow_dvd_pow 2 h), BitVec.toInt_sdiv]

theorem setWidth_srem (h : v ≤ w) : ((a.signExtend w).srem (b.signExtend w)).setWidth v =
    a.srem b := by
  apply BitVec.eq_of_toInt_eq
  rw [toInt_setWidth h, BitVec.toInt_srem, BitVec.toInt_signExtend_of_le h,
    BitVec.toInt_signExtend_of_le h,
    ← BitVec.toInt_srem, BitVec.toInt_bmod_cancel]

theorem setWidth_udiv (h : v ≤ w) : (a.setWidth w / b.setWidth w).setWidth v = a / b := by
  apply BitVec.eq_of_toNat_eq
  have hlt : a.toNat / b.toNat < 2 ^ v := Nat.lt_of_le_of_lt (Nat.div_le_self _ _) a.isLt
  rw [BitVec.toNat_setWidth, BitVec.toNat_udiv, BitVec.toNat_setWidth_of_le h,
    BitVec.toNat_setWidth_of_le h,
    BitVec.toNat_udiv, Nat.mod_eq_of_lt hlt]

theorem setWidth_umod (h : v ≤ w) : (a.setWidth w % b.setWidth w).setWidth v = a % b := by
  apply BitVec.eq_of_toNat_eq
  have hlt : a.toNat % b.toNat < 2 ^ v := Nat.lt_of_le_of_lt (Nat.mod_le _ _) a.isLt
  rw [BitVec.toNat_setWidth, BitVec.toNat_umod, BitVec.toNat_setWidth_of_le h,
    BitVec.toNat_setWidth_of_le h,
    BitVec.toNat_umod, Nat.mod_eq_of_lt hlt]

end Narrow

import Nnemu.Encoding
import Nnemu.Lib.Mask

/-!
# The field macros as masked writes

`set_field` and `get_field` scale by the lowest bit of the mask. For a mask whose lowest bit is bit
`k` this is a shift by `k`, so that writing a field is `Bits.replace` and reading one depends on the
bits under the mask only. The masks are constants: that a mask starts at a given bit, or lies under
or beside another one, is checked by `decide`.
-/

namespace Nnemu

variable {w : Nat} {m m' x y v : BitVec w} {k : Nat}

/-- Reading a field is masking and shifting. -/
theorem getField_eq (hm : fieldUnit m = BitVec.twoPow w k) (hk : k < w) (x : BitVec w) :
    getField x m = (x &&& m) >>> k := by
  rw [getField, hm, BitVec.udiv_twoPow_eq_of_lt hk]

/-- Writing a field is replacing the bits under its mask. -/
theorem setField_eq (hm : fieldUnit m = BitVec.twoPow w k) (x v : BitVec w) :
    setField x m v = Bits.replace m x (v <<< k) := by
  rw [setField, hm, BitVec.mul_twoPow_eq_shiftLeft, Bits.replace]

/-- A field depends on the bits under its mask only. -/
theorem getField_congr (h : x &&& m = y &&& m) : getField x m = getField y m := by
  rw [getField, getField, h]

/-- Writing a field leaves the bits beside its mask. -/
theorem and_setField_of_disjoint (h : m' &&& m = 0#w) (x v : BitVec w) :
    setField x m v &&& m' = x &&& m' := by
  rw [setField, ← Bits.replace]
  exact Bits.and_replace_of_disjoint h

/-- A field after another one was written. -/
theorem getField_setField_of_disjoint (h : m' &&& m = 0#w) (x v : BitVec w) :
    getField (setField x m v) m' = getField x m' :=
  getField_congr (and_setField_of_disjoint h x v)

/-- A field after it was written: the value, cut to the width of the field. -/
theorem getField_setField_self (hm : fieldUnit m = BitVec.twoPow w k) (hk : k < w)
    (x v : BitVec w) :
    getField (setField x m v) m = v &&& (m >>> k) := by
  rw [getField_eq hm hk, setField_eq hm, Bits.and_replace_of_subset BitVec.and_self]
  apply BitVec.eq_of_getLsbD_eq
  intro i hi
  simp only [BitVec.getLsbD_ushiftRight, BitVec.getLsbD_and, BitVec.getLsbD_shiftLeft,
    Nat.add_sub_cancel_left, Nat.not_lt.2 (Nat.le_add_right k i), decide_false, Bool.not_false,
    Bool.and_true]
  by_cases hki : k + i < w
  · simp [hki]
  · simp [BitVec.getLsbD_of_ge m (k + i) (Nat.not_lt.1 hki)]

/-- A field is as wide as its mask. -/
theorem getField_toNat_le (hm : fieldUnit m = BitVec.twoPow w k) (hk : k < w) (x : BitVec w) :
    (getField x m).toNat ≤ (m >>> k).toNat := by
  rw [getField_eq hm hk, BitVec.toNat_ushiftRight, BitVec.toNat_ushiftRight, BitVec.toNat_and,
    Nat.shiftRight_eq_div_pow, Nat.shiftRight_eq_div_pow]
  exact Nat.div_le_div_right Nat.and_le_right

/-- The bits of a word in which a field was written. -/
theorem getLsbD_setField (hm : fieldUnit m = BitVec.twoPow w k) (x v : BitVec w) (i : Nat) :
    (setField x m v).getLsbD i = if m.getLsbD i then (v <<< k).getLsbD i else x.getLsbD i := by
  rw [setField_eq hm, Bits.getLsbD_replace]

/-- A bit of a conditional mask. -/
theorem getElem_ite {c : Prop} [Decidable c] (x y : BitVec w) (i : Nat) (hi : i < w) :
    (if c then x else y)[i] = if c then x[i] else y[i] := by
  split
  · rfl
  · rfl

/-! ### One-bit fields -/

/-- Testing one bit. -/
theorem hasBits_twoPow (hk : k < w) (x : BitVec w) : hasBits x (BitVec.twoPow w k) = x[k] := by
  rw [hasBits, BitVec.and_twoPow, BitVec.getLsbD_eq_getElem hk]
  cases x[k] with
  | false => simp
  | true =>
    have hne : BitVec.twoPow w k ≠ 0#w := by
      intro h
      have hbit := congrArg (·.getLsbD k) h
      simp [hk] at hbit
    simpa using hne

/-- A one-bit mask is its own unit. -/
theorem fieldUnit_twoPow (w k : Nat) : fieldUnit (BitVec.twoPow w k) = BitVec.twoPow w k := by
  apply BitVec.eq_of_getLsbD_eq
  intro i hi
  simp only [fieldUnit, BitVec.getLsbD_and, BitVec.getLsbD_not, BitVec.getLsbD_shiftLeft,
    BitVec.getLsbD_twoPow]
  by_cases hk : k = i
  · subst hk
    simp [hi]
    omega
  · simp [hk]

/-- Reading a one-bit field. -/
theorem getField_twoPow (hk : k < w) (x : BitVec w) :
    getField x (BitVec.twoPow w k) = if x[k] then 1#w else 0#w := by
  rw [getField_eq (fieldUnit_twoPow w k) hk, BitVec.and_twoPow, BitVec.getLsbD_eq_getElem hk]
  cases x[k] with
  | false => simp
  | true =>
    apply BitVec.eq_of_toNat_eq
    have hlt : 2 ^ k < 2 ^ w := Nat.pow_lt_pow_right (by decide) hk
    have hw : 1 < 2 ^ w := Nat.lt_of_le_of_lt (Nat.one_le_two_pow) hlt
    simp [BitVec.toNat_twoPow, Nat.mod_eq_of_lt hlt, Nat.shiftRight_eq_div_pow,
      Nat.mod_eq_of_lt hw, Nat.div_self (Nat.two_pow_pos k)]

/-- Writing a one-bit field. -/
theorem getLsbD_setField_twoPow (x v : BitVec w) (i : Nat) (hi : i < w) :
    (setField x (BitVec.twoPow w k) v).getLsbD i = if k = i then v.getLsbD 0 else x.getLsbD i := by
  rw [getLsbD_setField (fieldUnit_twoPow w k), BitVec.getLsbD_twoPow, BitVec.getLsbD_shiftLeft]
  by_cases hk : k = i
  · subst hk
    simp [hi]
  · simp [hk]

theorem getElem_setField_twoPow (x v : BitVec w) (i : Nat) (hi : i < w) :
    (setField x (BitVec.twoPow w k) v)[i] = if k = i then v[0] else x[i] :=
  getLsbD_setField_twoPow x v i hi

end Nnemu

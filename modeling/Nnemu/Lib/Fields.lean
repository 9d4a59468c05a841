import Nnemu.Lib.Bits

/-!
# Fields of a word

A decoder cuts a word into fields, by shifts and masks, and puts immediates together as sums of
shifted fields; a manual draws the same fields side by side. The lemmas here take the first form to
the second: a cut is `extractLsb'`, extended with zeros or with its sign, and a sum in which every
field lies above the ones before it is an append.
-/

namespace Bits

variable {w m n : Nat}

/-! ### Cutting -/

/-- A shift and a mask. -/
theorem shiftRight_and_eq {len : Nat} (hlen : len < w) (b : BitVec w) (lo : Nat) :
    (b >>> lo) &&& ((1#w <<< len) - 1#w) = (b.extractLsb' lo len).setWidth w := by
  apply BitVec.eq_of_getLsbD_eq
  intro i hi
  rw [one_shiftLeft_sub_one hlen, BitVec.getLsbD_and, BitVec.getLsbD_ushiftRight, getLsbD_lowMask,
    BitVec.getLsbD_setWidth, BitVec.getLsbD_extractLsb']
  by_cases hlt : i < len
  · simp [hi, hlt]
  · simp [hlt]

/-- Two shifts, the second one arithmetic. -/
theorem shiftLeft_sshiftRight_eq {lo len : Nat} (hpos : 0 < len) (hle : lo + len ≤ w)
    (b : BitVec w) :
    (b <<< (w - lo - len)).sshiftRight (w - len) = (b.extractLsb' lo len).signExtend w := by
  apply BitVec.eq_of_getLsbD_eq
  intro i hi
  rw [BitVec.getLsbD_sshiftRight, BitVec.msb_eq_getLsbD_last, BitVec.getLsbD_shiftLeft,
    BitVec.getLsbD_shiftLeft,
    BitVec.getLsbD_signExtend, BitVec.msb_eq_getLsbD_last, BitVec.getLsbD_extractLsb',
    BitVec.getLsbD_extractLsb']
  have hlast : w - 1 - (w - lo - len) = lo + (len - 1) := by omega
  have hnot : ¬w ≤ i := Nat.not_le.2 hi
  by_cases hlt : i < len
  · have hin : w - len + i < w := by omega
    have hsub : w - len + i - (w - lo - len) = lo + i := by omega
    have hge : ¬w - len + i < w - lo - len := by omega
    simp [hi, hnot, hlt, hin, hsub, hge]
  · have hout : ¬w - len + i < w := by omega
    have hge : ¬w - 1 < w - lo - len := by omega
    have hw : w - 1 < w := by omega
    simp [hi, hnot, hlt, hout, hge, hw, hlast, hpos]

/-! ### Putting together -/

theorem toNat_append_eq (hi : BitVec m) (lo : BitVec n) :
    (hi ++ lo).toNat = hi.toNat * 2 ^ n + lo.toNat := by
  rw [BitVec.toNat_append, Nat.shiftLeft_eq, Nat.mul_comm, Nat.two_pow_add_eq_or_of_lt lo.isLt,
    Nat.mul_comm]

/-- A field above another one. -/
theorem add_shiftLeft_setWidth (hi : BitVec m) (lo : BitVec n) :
    lo.setWidth w + hi.setWidth w <<< n = (hi ++ lo).setWidth w := by
  apply BitVec.eq_of_toNat_eq
  rw [BitVec.toNat_setWidth, toNat_append_eq, BitVec.toNat_add, BitVec.toNat_shiftLeft,
    BitVec.toNat_setWidth,
    BitVec.toNat_setWidth, Nat.shiftLeft_eq, Nat.add_comm, Nat.add_mod, Nat.mod_mod, Nat.mod_mod,
    Nat.mul_mod, Nat.mod_mod, ← Nat.mul_mod, ← Nat.add_mod]

theorem signExtend_eq_ofInt (b : BitVec m) : b.signExtend w = BitVec.ofInt w b.toInt :=
  rfl

/-- A field with its sign above another one. -/
theorem add_shiftLeft_signExtend (hm : 0 < m) (hi : BitVec m) (lo : BitVec n) :
    lo.setWidth w + hi.signExtend w <<< n = (hi ++ lo).signExtend w := by
  have hlo : lo.setWidth w = BitVec.ofInt w lo.toNat := by
    rw [BitVec.ofInt_natCast, BitVec.ofNat_toNat]
  have hhi : hi.signExtend w <<< n = BitVec.ofInt w (hi.toInt * 2 ^ n) := by
    rw [BitVec.shiftLeft_eq_mul_twoPow, BitVec.ofInt_mul, signExtend_eq_ofInt]
    congr 1
    have hpow : (2 : Int) ^ n = ((2 ^ n : Nat) : Int) := by push_cast; rfl
    apply BitVec.eq_of_toNat_eq
    rw [BitVec.toNat_twoPow, hpow, BitVec.ofInt_natCast, BitVec.toNat_ofNat]
  have happ : (hi ++ lo).toInt = lo.toNat + hi.toInt * 2 ^ n := by
    rw [BitVec.toInt_append, if_neg (by simp [Nat.pos_iff_ne_zero.1 hm]),
      Int.mul_comm, Int.add_comm]
  rw [hlo, hhi, ← BitVec.ofInt_add, ← happ, ← signExtend_eq_ofInt]

/-- A field with nothing below it. -/
theorem setWidth_shiftLeft (b : BitVec m) (n : Nat) :
    b.setWidth w <<< n = (b ++ 0#n).setWidth w := by
  rw [← add_shiftLeft_setWidth, BitVec.setWidth_zero, BitVec.zero_add]

theorem signExtend_shiftLeft (hm : 0 < m) (b : BitVec m) (n : Nat) :
    b.signExtend w <<< n = (b ++ 0#n).signExtend w := by
  rw [← add_shiftLeft_signExtend hm, BitVec.setWidth_zero, BitVec.zero_add]

/-! ### Sums with nothing at the lower end -/

variable {lo' len len' k k' : Nat}

theorem add_shifted_setWidth (hk : k' = k + n) (hi : BitVec m) (lo : BitVec n) :
    lo.setWidth w <<< k + hi.setWidth w <<< k' = (hi ++ lo).setWidth w <<< k := by
  rw [hk, Nat.add_comm k, BitVec.shiftLeft_add, ← BitVec.shiftLeft_add_distrib,
    add_shiftLeft_setWidth]

theorem add_shifted_signExtend (hm : 0 < m) (hk : k' = k + n) (hi : BitVec m) (lo : BitVec n) :
    lo.setWidth w <<< k + hi.signExtend w <<< k' = (hi ++ lo).signExtend w <<< k := by
  rw [hk, Nat.add_comm k, BitVec.shiftLeft_add, ← BitVec.shiftLeft_add_distrib,
    add_shiftLeft_signExtend hm]

variable {b : BitVec m} {lo : Nat}

/-- Fields that are next to each other in the word and in the sum. -/
theorem add_adjacent_setWidth (hlo : lo' = lo + len) (hk : k' = k + len) :
    (b.extractLsb' lo len).setWidth w <<< k + (b.extractLsb' lo' len').setWidth w <<< k' =
      (b.extractLsb' lo (len' + len)).setWidth w <<< k := by
  rw [add_shifted_setWidth hk, BitVec.extractLsb'_append_extractLsb'_eq_extractLsb' hlo]

theorem add_adjacent_signExtend (hlen : 0 < len') (hlo : lo' = lo + len) (hk : k' = k + len) :
    (b.extractLsb' lo len).setWidth w <<< k + (b.extractLsb' lo' len').signExtend w <<< k' =
      (b.extractLsb' lo (len' + len)).signExtend w <<< k := by
  rw [add_shifted_signExtend hlen hk, BitVec.extractLsb'_append_extractLsb'_eq_extractLsb' hlo]

/-! ### Fields that are put together with `or` -/

/-- A field right above another one. -/
theorem or_shifted_setWidth (hk : k' = k + n) (hi : BitVec m) (lo : BitVec n) :
    hi.setWidth w <<< k' ||| lo.setWidth w <<< k = (hi ++ lo).setWidth w <<< k := by
  apply BitVec.eq_of_getLsbD_eq
  intro i hi'
  rw [BitVec.getLsbD_or, BitVec.getLsbD_shiftLeft, BitVec.getLsbD_shiftLeft,
    BitVec.getLsbD_shiftLeft,
    BitVec.getLsbD_setWidth, BitVec.getLsbD_setWidth, BitVec.getLsbD_setWidth,
    BitVec.getLsbD_append, hk]
  by_cases hlow : i < k
  · have hlt : i < k + n := by omega
    simp [hlow, hlt]
  by_cases hmid : i < k + n
  · have hlt : i - k < n := by omega
    simp [hlow, hmid, hlt]
  · have hge : ¬i - k < n := by omega
    have hsub : i - k - n = i - (k + n) := by omega
    have hw : i - (k + n) < w := by omega
    have hw' : i - k < w := by omega
    have hout : lo.getLsbD (i - k) = false := BitVec.getLsbD_of_ge _ _ (Nat.le_of_not_lt hge)
    simp [hlow, hmid, hge, hsub, hi', hw, hw', hout]

/-! ### Extending twice -/

theorem signExtend_setWidth (h : m < n) (b : BitVec m) :
    (b.setWidth n).signExtend w = b.setWidth w := by
  have hmsb : (b.setWidth n).msb = false := by
    rw [BitVec.msb_eq_getLsbD_last, BitVec.getLsbD_setWidth,
      BitVec.getLsbD_of_ge b (n - 1) (by omega), Bool.and_false]
  rw [BitVec.signExtend_eq_setWidth_of_msb_false hmsb, BitVec.setWidth_setWidth (by omega)]

theorem signExtend_signExtend (h : m ≤ n) (b : BitVec m) :
    (b.signExtend n).signExtend w = b.signExtend w := by
  rw [signExtend_eq_ofInt, BitVec.toInt_signExtend_of_le h, ← signExtend_eq_ofInt]

/-- Cutting an extension short. -/
theorem setWidth_signExtend (h : n ≤ w) (b : BitVec m) :
    (b.signExtend w).setWidth n = b.signExtend n := by
  apply BitVec.eq_of_getLsbD_eq
  intro i hi
  rw [BitVec.getLsbD_setWidth, BitVec.getLsbD_signExtend, BitVec.getLsbD_signExtend,
    decide_eq_true hi,
    decide_eq_true (Nat.lt_of_lt_of_le hi h), Bool.true_and]

/-! ### Extensions are injective -/

theorem setWidth_inj (h : m ≤ w) {a b : BitVec m} : a.setWidth w = b.setWidth w ↔ a = b := by
  constructor
  · intro heq
    have hback := congrArg (BitVec.setWidth m) heq
    rwa [BitVec.setWidth_setWidth_of_le _ h, BitVec.setWidth_setWidth_of_le _ h, BitVec.setWidth_eq,
      BitVec.setWidth_eq] at hback
  · exact congrArg _

theorem signExtend_inj (h : m ≤ w) {a b : BitVec m} : a.signExtend w = b.signExtend w ↔ a = b := by
  constructor
  · intro heq
    have hback := congrArg (BitVec.setWidth m) heq
    rwa [setWidth_signExtend h, setWidth_signExtend h, BitVec.signExtend_eq,
      BitVec.signExtend_eq] at hback
  · exact congrArg _

theorem setWidth_eq_zero_iff (h : m ≤ w) {b : BitVec m} : b.setWidth w = 0#w ↔ b = 0#m := by
  rw [← setWidth_inj h, BitVec.setWidth_zero]

theorem signExtend_zero : (0#m).signExtend w = 0#w := by
  rw [BitVec.signExtend_eq_setWidth_of_msb_false BitVec.msb_zero, BitVec.setWidth_zero]

theorem signExtend_eq_zero_iff (h : m ≤ w) {b : BitVec m} : b.signExtend w = 0#w ↔ b = 0#m := by
  rw [← signExtend_inj h, signExtend_zero]

end Bits

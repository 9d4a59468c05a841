import Mathlib.Data.Nat.Find
import Mathlib.Tactic.Ring

/-!
# Masks, blocks and trailing ones

Hardware code compares addresses with masks: `((a ^ b) & mask) == 0` says that `a` and `b` lie in
one naturally aligned block, `a & -len` rounds down to one, and `x & ~(x + 1)` isolates the run of
ones at the bottom of `x`. This file states what those idioms mean as numbers, so that a proof about
the code never has to look at single bits again:

* `lowMask w k` is the vector whose low `k` bits are one;
* `xor_and_not_lowMask_eq_zero_iff`: the masked comparison is equality of the quotients by `2 ^ k`;
* `and_not_add_one`: `x &&& ~~~(x + 1)` is `lowMask` of the number of trailing ones;
* `LowZero k x`: `x` is a multiple of `2 ^ k`, and adding it leaves the low `k` bits alone.
-/

namespace Bits

variable {w : Nat}

/-! ### Low masks -/

/-- The vector of width `w` whose low `k` bits are one and whose other bits are zero. -/
def lowMask (w k : Nat) : BitVec w :=
  BitVec.ofNat w (2 ^ k - 1)

@[simp] theorem getLsbD_lowMask (w k i : Nat) :
    (lowMask w k).getLsbD i = (decide (i < w) && decide (i < k)) := by
  simp [lowMask, BitVec.getLsbD_ofNat, Nat.testBit_two_pow_sub_one]

@[simp] theorem getElem_lowMask (w k i : Nat) (hi : i < w) :
    (lowMask w k)[i] = decide (i < k) := by
  rw [← BitVec.getLsbD_eq_getElem hi, getLsbD_lowMask, decide_eq_true hi, Bool.true_and]

theorem toNat_one_shiftLeft {k : Nat} (hk : k < w) : (1#w <<< k).toNat = 2 ^ k := by
  have hpow : 2 ^ k < 2 ^ w := Nat.pow_lt_pow_right (by omega) hk
  have hone : 1 < 2 ^ w := Nat.lt_of_le_of_lt Nat.one_le_two_pow hpow
  simp only [BitVec.toNat_shiftLeft, BitVec.toNat_ofNat, Nat.mod_eq_of_lt hone, Nat.one_shiftLeft,
    Nat.mod_eq_of_lt hpow]

/-- `(1 << k) - 1`, the way source code spells the mask. -/
theorem one_shiftLeft_sub_one {k : Nat} (hk : k < w) :
    ((1#w <<< k) - 1#w : BitVec w) = lowMask w k := by
  have hpow : 2 ^ k < 2 ^ w := Nat.pow_lt_pow_right (by omega) hk
  have hpos : 0 < 2 ^ k := Nat.two_pow_pos k
  apply BitVec.eq_of_toNat_eq
  rw [BitVec.toNat_sub, toNat_one_shiftLeft hk]
  simp only [BitVec.toNat_ofNat, lowMask]
  rw [Nat.mod_eq_of_lt (show 1 < 2 ^ w by omega),
    show 2 ^ w - 1 + 2 ^ k = 2 ^ w + (2 ^ k - 1) by omega, Nat.add_mod_left]

/-- `-(1 << k)` is the complement of the low mask. -/
theorem neg_one_shiftLeft {k : Nat} (hk : k < w) : -(1#w <<< k) = ~~~lowMask w k := by
  rw [← one_shiftLeft_sub_one hk, BitVec.not_eq_neg_add]
  generalize 1#w <<< k = x
  grind

/-! ### Naturally aligned blocks -/

/-- Two numbers have the same quotient by `2 ^ k` when their bits from `k` on agree. -/
theorem div_two_pow_eq_iff (a b k : Nat) :
    a / 2 ^ k = b / 2 ^ k ↔ ∀ i, k ≤ i → a.testBit i = b.testBit i := by
  constructor
  · intro h i hi
    have hbit := congrArg (fun n => n.testBit (i - k)) h
    simpa only [Nat.testBit_div_two_pow, Nat.sub_add_cancel hi] using hbit
  · intro h
    apply Nat.eq_of_testBit_eq
    intro i
    rw [Nat.testBit_div_two_pow, Nat.testBit_div_two_pow]
    exact h (i + k) (Nat.le_add_left k i)

/-- Rounding down to a block first does not change the number of a larger block. -/
theorem div_mul_div_of_le (a : Nat) {g k : Nat} (h : g ≤ k) :
    a / 2 ^ g * 2 ^ g / 2 ^ k = a / 2 ^ k := by
  obtain ⟨m, rfl⟩ := Nat.exists_eq_add_of_le h
  rw [Nat.pow_add, ← Nat.div_div_eq_div_mul, Nat.mul_div_cancel _ (Nat.two_pow_pos g),
    Nat.div_div_eq_div_mul]

/-- Numbers in one block are in one larger block. -/
theorem div_two_pow_congr {a b k s : Nat} (h : k ≤ s) (hab : a / 2 ^ k = b / 2 ^ k) :
    a / 2 ^ s = b / 2 ^ s := by
  obtain ⟨m, rfl⟩ := Nat.exists_eq_add_of_le h
  rw [Nat.pow_add, ← Nat.div_div_eq_div_mul, hab, Nat.div_div_eq_div_mul]

/-- An interval that ends before the block of `a`, begins after it or covers it contains all numbers
of the block or none. -/
theorem interval_mem_congr {n lo hi a b b' : Nat} (ha : a % n = 0) (hb : b / n = a / n)
    (hb' : b' / n = a / n)
    (h : a / n < lo / n ∨ hi ≤ a ∨ lo ≤ a ∧ a / n < hi / n) :
    (lo ≤ b ∧ b < hi) ↔ (lo ≤ b' ∧ b' < hi) := by
  have hbase : a / n * n = a := Nat.div_mul_cancel (Nat.dvd_of_mod_eq_zero ha)
  have hle : ∀ x, x / n = a / n → a ≤ x := by
    intro x hx
    rw [← hbase, ← hx]
    exact Nat.div_mul_le_self x n
  have hlt : ∀ x y, x / n = a / n → a / n < y / n → x < y := by
    intro x y hx hxy
    exact Nat.lt_of_div_lt_div (hx ▸ hxy)
  have h1 := hle b hb
  have h2 := hle b' hb'
  rcases h with hlo | hhi | ⟨hlo, hhi⟩
  · have h3 := hlt b lo hb hlo
    have h4 := hlt b' lo hb' hlo
    omega
  · omega
  · have h3 := hlt b hi hb hhi
    have h4 := hlt b' hi hb' hhi
    omega

/-- A masked comparison looks only at the bits the mask selects. -/
theorem xor_and_eq_zero_iff (a b m : BitVec w) :
    (a ^^^ b) &&& m = 0#w ↔ ∀ i, m.getLsbD i = true → a.getLsbD i = b.getLsbD i := by
  constructor
  · intro h i hm
    have hbit := congrArg (fun x => x.getLsbD i) h
    simpa [hm] using hbit
  · intro h
    apply BitVec.eq_of_getLsbD_eq
    intro i _
    have hi := h i
    simp only [BitVec.getLsbD_and, BitVec.getLsbD_xor, BitVec.getLsbD_zero]
    cases hm : m.getLsbD i with
    | false => simp
    | true => simp [hi hm]

/-- Words that differ in no bit of a mask are the same under it. -/
theorem and_eq_of_xor_and {a b m : BitVec w} (h : (a ^^^ b) &&& m = 0#w) : a &&& m = b &&& m := by
  rw [xor_and_eq_zero_iff] at h
  apply BitVec.eq_of_getLsbD_eq
  intro i _
  rw [BitVec.getLsbD_and, BitVec.getLsbD_and]
  cases hm : m.getLsbD i with
  | false => rw [Bool.and_false, Bool.and_false]
  | true => rw [h i hm]

/-- **Same block.** The comparison with the complement of a low mask is equality of the
quotients. -/
theorem xor_and_not_lowMask_eq_zero_iff (a b : BitVec w) (k : Nat) :
    (a ^^^ b) &&& ~~~lowMask w k = 0#w ↔ a.toNat / 2 ^ k = b.toNat / 2 ^ k := by
  rw [xor_and_eq_zero_iff, div_two_pow_eq_iff]
  constructor
  · intro h i hi
    by_cases hw : i < w
    · exact h i (by simp [hw, hi])
    · rw [BitVec.testBit_toNat, BitVec.testBit_toNat, BitVec.getLsbD_of_ge _ _ (by omega),
        BitVec.getLsbD_of_ge _ _ (by omega)]
  · intro h i hi
    have hk : k ≤ i := by
      by_contra hlt
      simp [show i < k by omega] at hi
    exact h i hk

/-- Rounding down to a block. -/
theorem toNat_and_not_lowMask (a : BitVec w) (k : Nat) :
    (a &&& ~~~lowMask w k).toNat = a.toNat / 2 ^ k * 2 ^ k := by
  apply Nat.eq_of_testBit_eq
  intro i
  rw [BitVec.testBit_toNat, Nat.testBit_mul_two_pow, Nat.testBit_div_two_pow]
  by_cases hk : k ≤ i
  · by_cases hw : i < w
    · simp [hk, hw, Nat.sub_add_cancel hk, BitVec.testBit_toNat]
    · simp [hk, Nat.sub_add_cancel hk, BitVec.testBit_toNat, BitVec.getLsbD_of_ge _ _
        (show w ≤ i by omega)]
  · simp [hk, show i < k by omega]

/-- An address is a multiple of `2 ^ k` when its bits below `k` are zero. -/
theorem and_lowMask_eq_zero_iff (a : BitVec w) (k : Nat) :
    a &&& lowMask w k = 0#w ↔ a.toNat % 2 ^ k = 0 := by
  constructor
  · intro h
    apply Nat.eq_of_testBit_eq
    intro i
    have hbit := congrArg (fun x => x.getLsbD i) h
    simp only [BitVec.getLsbD_and, getLsbD_lowMask, BitVec.getLsbD_zero] at hbit
    rw [Nat.testBit_mod_two_pow, Nat.zero_testBit, BitVec.testBit_toNat]
    by_cases hw : i < w
    · by_cases hk : i < k
      · simpa [hw, hk] using hbit
      · simp [hk]
    · simp [BitVec.getLsbD_of_ge _ _ (show w ≤ i by omega)]
  · intro h
    apply BitVec.eq_of_getLsbD_eq
    intro i hi
    have hbit := congrArg (fun n => n.testBit i) h
    simp only [Nat.testBit_mod_two_pow, Nat.zero_testBit, BitVec.testBit_toNat] at hbit
    simp only [BitVec.getLsbD_and, getLsbD_lowMask, BitVec.getLsbD_zero, hi, decide_true,
      Bool.true_and]
    rw [Bool.and_comm]
    exact hbit

/-- The single bit `1 << k` tested by an `and`. -/
theorem and_one_shiftLeft_eq_zero_iff (a : BitVec w) (k : Nat) :
    a &&& (1#w <<< k) = 0#w ↔ a.getLsbD k = false := by
  constructor
  · intro h
    by_cases hk : k < w
    · have hbit := congrArg (fun x => x.getLsbD k) h
      simpa [hk, show 0 < w by omega] using hbit
    · exact BitVec.getLsbD_of_ge _ _ (by omega)
  · intro h
    apply BitVec.eq_of_getLsbD_eq
    intro i hi
    simp only [BitVec.getLsbD_and, BitVec.getLsbD_shiftLeft, BitVec.getLsbD_one,
      BitVec.getLsbD_zero]
    by_cases hik : i = k
    · rw [hik, h, Bool.false_and]
    · have : ¬ (i - k = 0 ∧ k ≤ i) := by omega
      by_cases hlt : i < k
      · simp [hlt]
      · simp [show ¬ (i - k = 0) by omega]

/-! ### Trailing ones -/

/-- The number of ones below the lowest zero of `x` (all `w` of them when `x` has no zero). -/
def trailingOnes (x : BitVec w) : Nat :=
  Nat.find (p := fun i => x.getLsbD i = false) ⟨w, BitVec.getLsbD_of_ge x w (Nat.le_refl w)⟩

theorem getLsbD_trailingOnes (x : BitVec w) : x.getLsbD (trailingOnes x) = false :=
  Nat.find_spec (p := fun i => x.getLsbD i = false) _

theorem getLsbD_of_lt_trailingOnes {x : BitVec w} {i : Nat} (hi : i < trailingOnes x) :
    x.getLsbD i = true := by
  have h := Nat.find_min (p := fun i => x.getLsbD i = false) _ hi
  simpa using h

/-- A zero bit bounds the run of ones below it. -/
theorem trailingOnes_le {x : BitVec w} {i : Nat} (hi : x.getLsbD i = false) :
    trailingOnes x ≤ i :=
  Nat.find_min' _ hi

theorem le_trailingOnes {x : BitVec w} {k : Nat} (h : ∀ i, i < k → x.getLsbD i = true) :
    k ≤ trailingOnes x := by
  by_contra hlt
  have hbit := h (trailingOnes x) (by omega)
  rw [getLsbD_trailingOnes] at hbit
  exact Bool.false_ne_true hbit

/-- The run of ones is found by its two ends. -/
theorem trailingOnes_eq {x : BitVec w} {k : Nat} (hlow : ∀ i, i < k → x.getLsbD i = true)
    (hend : x.getLsbD k = false) : trailingOnes x = k :=
  Nat.le_antisymm (trailingOnes_le hend) (le_trailingOnes hlow)

/-- Peeling the run of ones off as a number: what is left starts with a zero. -/
theorem exists_eq_mul_add_of_trailingOnes (x : BitVec w) :
    ∃ q, x.toNat = 2 ^ (trailingOnes x + 1) * q + (2 ^ trailingOnes x - 1) := by
  refine ⟨x.toNat / 2 ^ (trailingOnes x + 1), ?_⟩
  have hmod : x.toNat % 2 ^ (trailingOnes x + 1) = 2 ^ trailingOnes x - 1 := by
    apply Nat.eq_of_testBit_eq
    intro i
    rw [Nat.testBit_mod_two_pow, Nat.testBit_two_pow_sub_one, BitVec.testBit_toNat]
    rcases Nat.lt_trichotomy i (trailingOnes x) with hlt | heq | hgt
    · simp [hlt, show i < trailingOnes x + 1 by omega, getLsbD_of_lt_trailingOnes hlt]
    · simp [heq, getLsbD_trailingOnes]
    · simp [show ¬ i < trailingOnes x + 1 by omega, show ¬ i < trailingOnes x by omega]
  rw [← hmod, Nat.div_add_mod]

/-- **Isolating the trailing ones.** `x & ~(x + 1)` keeps exactly the run of ones at the bottom,
provided there is a zero above it. -/
theorem and_not_add_one (x : BitVec w) (h : trailingOnes x < w) :
    x &&& ~~~(x + 1#w) = lowMask w (trailingOnes x) := by
  obtain ⟨q, hq⟩ := exists_eq_mul_add_of_trailingOnes x
  have hpos : 0 < 2 ^ trailingOnes x := Nat.two_pow_pos _
  have hlt : 2 ^ trailingOnes x - 1 < 2 ^ (trailingOnes x + 1) := by rw [Nat.pow_succ]; omega
  have hlt' : 2 ^ trailingOnes x < 2 ^ (trailingOnes x + 1) := by rw [Nat.pow_succ]; omega
  have hbits : ∀ i, i < w → (x + 1#w).getLsbD i =
      (2 ^ (trailingOnes x + 1) * q + 2 ^ trailingOnes x).testBit i := by
    intro i hi
    have hone : 1 % 2 ^ w = 1 := Nat.mod_eq_of_lt (Nat.one_lt_two_pow (by omega))
    rw [← BitVec.testBit_toNat, BitVec.toNat_add, BitVec.toNat_ofNat, hone, hq,
      Nat.testBit_mod_two_pow, decide_eq_true hi, Bool.true_and]
    congr 1
    omega
  apply BitVec.eq_of_getLsbD_eq
  intro i hi
  rw [BitVec.getLsbD_and, BitVec.getLsbD_not, hbits i hi, getLsbD_lowMask, ← BitVec.testBit_toNat,
    hq, Nat.testBit_two_pow_mul_add _ hlt, Nat.testBit_two_pow_mul_add _ hlt',
    Nat.testBit_two_pow_sub_one, Nat.testBit_two_pow]
  -- below the run, at the zero that ends it, and above it, where `x + 1` agrees with `x`
  rcases Nat.lt_trichotomy i (trailingOnes x) with hlt | heq | hgt
  · simp [hi, hlt, show i < trailingOnes x + 1 by omega, show ¬ trailingOnes x = i by omega]
  · simp [heq]
  · simp [hi, show ¬ i < trailingOnes x + 1 by omega, show ¬ i < trailingOnes x by omega]

/-! ### Multiples of a power of two -/

/-- The low `k` bits are zero. -/
def LowZero (k : Nat) (x : BitVec w) : Prop :=
  x.setWidth k = 0#k

namespace LowZero

variable {k : Nat} {x y : BitVec w}

instance (k : Nat) (x : BitVec w) : Decidable (LowZero k x) :=
  inferInstanceAs (Decidable (x.setWidth k = 0#k))

theorem getLsbD (hx : LowZero k x) {i : Nat} (hi : i < k) : x.getLsbD i = false := by
  have hbit : (x.setWidth k).getLsbD i = x.getLsbD i := by
    rw [BitVec.getLsbD_setWidth, decide_eq_true hi, Bool.true_and]
  rw [← hbit, hx, BitVec.getLsbD_zero]

theorem of_getLsbD (hx : ∀ i, i < k → x.getLsbD i = false) : LowZero k x := by
  apply BitVec.eq_of_getLsbD_eq
  intro i hi
  rw [BitVec.getLsbD_setWidth, hx i hi, Bool.and_false, BitVec.getLsbD_zero]

theorem zero (w k : Nat) : LowZero k (0#w) :=
  of_getLsbD fun _ _ => BitVec.getLsbD_zero

theorem add (hk : k ≤ w) (hx : LowZero k x) (hy : LowZero k y) : LowZero k (x + y) := by
  rw [LowZero, BitVec.setWidth_add x y hk, hx, hy, BitVec.add_zero]

theorem mul (hk : k ≤ w) (hx : LowZero k x) (y : BitVec w) : LowZero k (x * y) := by
  rw [LowZero, BitVec.setWidth_mul x y hk, hx, BitVec.zero_mul]

theorem shiftLeft {j : Nat} (hj : k ≤ j) (x : BitVec w) : LowZero k (x <<< j) :=
  of_getLsbD fun i hi => by
    rw [BitVec.getLsbD_shiftLeft, decide_eq_true (Nat.lt_of_lt_of_le hi hj),
      Bool.not_true, Bool.and_false,
      Bool.false_and]

/-- Adding a multiple leaves the low bits alone. -/
theorem getLsbD_add (hk : k ≤ w) (hy : LowZero k y) (x : BitVec w) {i : Nat} (hi : i < k) :
    (x + y).getLsbD i = x.getLsbD i := by
  have hsum : (x + y).setWidth k = x.setWidth k := by
    rw [BitVec.setWidth_add x y hk, hy, BitVec.add_zero]
  have hbit (z : BitVec w) : (z.setWidth k).getLsbD i = z.getLsbD i := by
    rw [BitVec.getLsbD_setWidth, decide_eq_true hi, Bool.true_and]
  rw [← hbit (x + y), hsum, hbit x]

end LowZero

theorem getLsbD_and_not_one (x : BitVec w) : (x &&& ~~~1#w).getLsbD 0 = false := by
  rw [BitVec.getLsbD_and, BitVec.getLsbD_not]
  simp

/-- Rounding an even number down to an even number. -/
theorem and_not_one_of_even {x : BitVec w} (hx : x.getLsbD 0 = false) : x &&& ~~~1#w = x := by
  apply BitVec.eq_of_getLsbD_eq
  intro i hi
  rw [BitVec.getLsbD_and, BitVec.getLsbD_not, BitVec.getLsbD_one]
  by_cases h0 : i = 0
  · rw [h0, hx, Bool.false_and]
  · rw [decide_eq_false h0, Bool.and_false, Bool.not_false, decide_eq_true hi,
      Bool.true_and, Bool.and_true]

end Bits

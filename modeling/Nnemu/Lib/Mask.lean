import Mathlib.Tactic.Common

/-!
# Replacing the bits under a mask

A register write with a write mask keeps some bits of the old value and takes the others from the
new one: `(old & ~mask) | (new & mask)`. `Bits.replace` is that idiom. What a later read of some
bits finds is decided by how their mask lies to the mask of the write: under it
(`and_replace_of_subset`) or beside it (`and_replace_of_disjoint`).
-/

namespace Bits

variable {w : Nat} {m m' a b : BitVec w}

/-- The value `old` with the bits under the mask `m` taken from `new`. -/
def replace (m old new : BitVec w) : BitVec w :=
  (old &&& ~~~m) ||| (new &&& m)

@[simp] theorem getLsbD_replace (m a b : BitVec w) (i : Nat) :
    (replace m a b).getLsbD i = if m.getLsbD i then b.getLsbD i else a.getLsbD i := by
  rw [replace, BitVec.getLsbD_or, BitVec.getLsbD_and, BitVec.getLsbD_and, BitVec.getLsbD_not]
  by_cases hi : i < w
  · cases m.getLsbD i <;> simp [hi]
  · simp [BitVec.getLsbD_of_ge _ _ (Nat.not_lt.1 hi)]

/-- Two masks without a common bit, bit by bit. -/
theorem getLsbD_of_disjoint (h : m' &&& m = 0#w) {i : Nat} (hi : m'.getLsbD i = true) :
    m.getLsbD i = false := by
  have := congrArg (·.getLsbD i) h
  simpa [hi] using this

/-- A mask under another, bit by bit. -/
theorem getLsbD_of_subset (h : m' &&& m = m') {i : Nat} (hi : m'.getLsbD i = true) :
    m.getLsbD i = true := by
  have := congrArg (·.getLsbD i) h
  simpa [hi] using this

/-- Bits beside the mask of a write keep their value. -/
theorem and_replace_of_disjoint (h : m' &&& m = 0#w) : replace m a b &&& m' = a &&& m' := by
  apply BitVec.eq_of_getLsbD_eq
  intro i _
  rw [BitVec.getLsbD_and, BitVec.getLsbD_and, getLsbD_replace]
  cases hi : m'.getLsbD i with
  | false => simp
  | true => simp [getLsbD_of_disjoint h hi]

/-- Bits under the mask of a write take their new value. -/
theorem and_replace_of_subset (h : m' &&& m = m') : replace m a b &&& m' = b &&& m' := by
  apply BitVec.eq_of_getLsbD_eq
  intro i _
  rw [BitVec.getLsbD_and, BitVec.getLsbD_and, getLsbD_replace]
  cases hi : m'.getLsbD i with
  | false => simp
  | true => simp [getLsbD_of_subset h hi]

/-- What agrees under a mask agrees under a smaller one. -/
theorem and_eq_of_subset (h : m' &&& m = m') (hab : a &&& m = b &&& m) : a &&& m' = b &&& m' := by
  rw [← h, BitVec.and_comm m', ← BitVec.and_assoc, ← BitVec.and_assoc, hab]

/-- Zero under a mask is zero under a smaller one. -/
theorem and_eq_zero_of_subset (h : m' &&& m = m') (ha : a &&& m = 0#w) : a &&& m' = 0#w := by
  rw [← h, BitVec.and_comm m', ← BitVec.and_assoc, ha, BitVec.zero_and]

/-- A mask with nothing beside another one lies under it. -/
theorem and_eq_self_of_and_not (h : m' &&& ~~~m = 0#w) : m' &&& m = m' := by
  apply BitVec.eq_of_getLsbD_eq
  intro i hi
  have hbit := congrArg (·.getLsbD i) h
  simp only [BitVec.getLsbD_and, BitVec.getLsbD_not, hi, decide_true, Bool.true_and,
    BitVec.getLsbD_zero] at hbit
  rw [BitVec.getLsbD_and]
  cases hm : m.getLsbD i with
  | false => simpa [hm] using hbit
  | true => simp

/-- A mask lies under another one, bit by bit. -/
theorem and_not_eq_zero_iff : m &&& ~~~m' = 0#w ↔ ∀ i, m.getLsbD i = true →
    m'.getLsbD i = true := by
  constructor
  · intro h i hi
    exact getLsbD_of_subset (and_eq_self_of_and_not h) hi
  · intro h
    apply BitVec.eq_of_getLsbD_eq
    intro i hi
    rw [BitVec.getLsbD_and, BitVec.getLsbD_not, BitVec.getLsbD_zero]
    cases hm : m.getLsbD i with
    | false => rw [Bool.false_and]
    | true => rw [h i hm, Bool.not_true, Bool.and_false, Bool.and_false]

theorem and_not_trans {m'' : BitVec w} (h : m &&& ~~~m' = 0#w) (h' : m' &&& ~~~m'' = 0#w) :
    m &&& ~~~m'' = 0#w := by
  rw [and_not_eq_zero_iff] at h h' ⊢
  exact fun i hi => h' i (h i hi)

theorem or_and_not (ha : a &&& ~~~m = 0#w) (hb : b &&& ~~~m = 0#w) : (a ||| b) &&& ~~~m = 0#w := by
  rw [and_not_eq_zero_iff] at ha hb ⊢
  intro i hi
  rw [BitVec.getLsbD_or, Bool.or_eq_true] at hi
  exact hi.elim (ha i) (hb i)

/-- Fewer bits lie under the same masks. -/
theorem and_and_not (ha : a &&& ~~~m = 0#w) (b : BitVec w) : a &&& b &&& ~~~m = 0#w := by
  rw [BitVec.and_assoc, BitVec.and_comm b, ← BitVec.and_assoc, ha, BitVec.zero_and]

theorem and_not_or_left (m m' : BitVec w) : m &&& ~~~(m ||| m') = 0#w := by
  rw [and_not_eq_zero_iff]
  intro i hi
  rw [BitVec.getLsbD_or, hi, Bool.true_or]

/-- Bits that were clear stay clear when the write brings none of them. -/
theorem and_replace_eq_zero (h : a &&& m' = 0#w) (h' : m' &&& m &&& b = 0#w) :
    replace m a b &&& m' = 0#w := by
  apply BitVec.eq_of_getLsbD_eq
  intro i _
  have hold := congrArg (·.getLsbD i) h
  have hnew := congrArg (·.getLsbD i) h'
  simp only [BitVec.getLsbD_and, BitVec.getLsbD_zero] at hold hnew ⊢
  rw [getLsbD_replace]
  cases hm : m.getLsbD i with
  | false => exact hold
  | true =>
    rw [hm, Bool.and_true] at hnew
    rw [if_pos rfl, Bool.and_comm]
    exact hnew

/-- Writing back what is there changes nothing. -/
@[simp] theorem replace_self (m a : BitVec w) : replace m a a = a := by
  apply BitVec.eq_of_getLsbD_eq
  intro i _
  rw [getLsbD_replace, ite_self]

end Bits

import Mathlib.Logic.Function.Basic

/-!
# Arrays of words as sets of numbers

A bitmap spreads a set of numbers over an array of words, `n` numbers a word: number `id` is bit `id
% n` of word `id / n`. The word operations of the code are membership, insertion and removal.
-/

/-- An array of words. -/
abbrev Words (n : Nat) : Type :=
  Nat → BitVec n

namespace Words

variable {n : Nat} (w : Words n) (id : Nat)

/-- The bit of a number in its word. -/
def mask (n id : Nat) : BitVec n :=
  1#n <<< (id % n)

/-- `w[id / n] & mask` -/
def has : Bool :=
  w (id / n) &&& mask n id != 0#n

/-- `w[id / n] |= mask` -/
def insert : Words n :=
  Function.update w (id / n) (w (id / n) ||| mask n id)

/-- `w[id / n] &= ~mask` -/
def erase : Words n :=
  Function.update w (id / n) (w (id / n) &&& ~~~mask n id)

/-- The empty set. -/
def empty (n : Nat) : Words n :=
  fun _ => 0#n

variable {w : Words n} {id id' : Nat}

theorem mask_eq (n id : Nat) : mask n id = BitVec.twoPow n (id % n) := by
  rw [mask, BitVec.twoPow]

/-- Membership is a bit. -/
theorem has_eq (w : Words n) (id : Nat) : w.has id = (w (id / n)).getLsbD (id % n) := by
  rw [has, mask_eq, BitVec.and_twoPow]
  cases hb : (w (id / n)).getLsbD (id % n) with
  | false =>
    rw [if_neg Bool.false_ne_true]
    exact bne_self_eq_false _
  | true =>
    have hlt : id % n < n := BitVec.lt_of_getLsbD hb
    rw [if_pos rfl, bne_iff_ne]
    intro hzero
    have hbit := congrArg (fun x => BitVec.getLsbD x (id % n)) hzero
    rw [BitVec.getLsbD_zero, BitVec.getLsbD_twoPow] at hbit
    simp only [hlt, decide_true, Bool.and_self, Bool.true_eq_false] at hbit

/-- Two numbers of one word have different bits. -/
theorem eq_of_div_mod (hdiv : id / n = id' / n) (hmod : id % n = id' % n) : id = id' := by
  rw [← Nat.div_add_mod id n, ← Nat.div_add_mod id' n, hdiv, hmod]

theorem getLsbD_mask (hn : 0 < n) (id j : Nat) : (mask n id).getLsbD j = decide (j = id % n) := by
  rw [mask_eq, BitVec.getLsbD_twoPow]
  have hlt : id % n < n := Nat.mod_lt id hn
  rw [decide_eq_true hlt, Bool.true_and]
  exact decide_eq_decide.2 eq_comm

/-- **Insertion.** -/
theorem has_insert (hn : 0 < n) (w : Words n) (id id' : Nat) :
    (w.insert id).has id' = (decide (id' = id) || w.has id') := by
  rw [has_eq, has_eq, insert, Function.update_apply]
  by_cases hdiv : id' / n = id / n
  · rw [if_pos hdiv, BitVec.getLsbD_or, getLsbD_mask hn, hdiv, Bool.or_comm]
    congr 1
    refine decide_eq_decide.2 ⟨fun hmod => eq_of_div_mod hdiv hmod, fun heq => by rw [heq]⟩
  · rw [if_neg hdiv]
    have hne : id' ≠ id := fun heq => hdiv (by rw [heq])
    rw [decide_eq_false hne, Bool.false_or]

/-- **Removal.** -/
theorem has_erase (hn : 0 < n) (w : Words n) (id id' : Nat) :
    (w.erase id).has id' = (!decide (id' = id) && w.has id') := by
  rw [has_eq, has_eq, erase, Function.update_apply]
  by_cases hdiv : id' / n = id / n
  · have hlt : id' % n < n := Nat.mod_lt id' hn
    rw [if_pos hdiv, BitVec.getLsbD_and, BitVec.getLsbD_not, decide_eq_true hlt,
      Bool.true_and, getLsbD_mask hn, hdiv,
      Bool.and_comm]
    congr 2
    refine decide_eq_decide.2 ⟨fun hmod => eq_of_div_mod hdiv hmod, fun heq => by rw [heq]⟩
  · rw [if_neg hdiv]
    have hne : id' ≠ id := fun heq => hdiv (by rw [heq])
    rw [decide_eq_false hne, Bool.not_false, Bool.true_and]

/-- Arrays of the same numbers are equal. -/
theorem eq_of_has (hn : 0 < n) {w w' : Words n} (h : ∀ id, w.has id = w'.has id) : w = w' := by
  funext i
  apply BitVec.eq_of_getLsbD_eq
  intro j hj
  have hbit := h (n * i + j)
  rw [has_eq, has_eq, Nat.mul_add_div hn, Nat.div_eq_of_lt hj, Nat.add_zero,
    Nat.mul_add_mod, Nat.mod_eq_of_lt hj] at hbit
  exact hbit

/-- Removal changes the array when the number is in it. -/
theorem erase_eq_self_iff (hn : 0 < n) (w : Words n) (id : Nat) : w.erase id = w ↔
    w.has id = false := by
  constructor
  · intro h
    rw [← h, has_erase hn, decide_eq_true rfl, Bool.not_true, Bool.false_and]
  · intro h
    refine eq_of_has hn fun id' => ?_
    rw [has_erase hn]
    by_cases heq : id' = id
    · rw [heq, h, Bool.and_false]
    · rw [decide_eq_false heq, Bool.not_false, Bool.true_and]

theorem has_empty (n id : Nat) : (empty n).has id = false := by
  rw [has_eq, empty, BitVec.getLsbD_zero]

/-- A new word decides for its own numbers. -/
theorem has_update (w : Words n) (i : Nat) (val : BitVec n) (id : Nat) :
    has (Function.update w i val) id = if id / n = i then val.getLsbD (id % n) else w.has id := by
  rw [has_eq, has_eq, Function.update_apply]
  split
  · rfl
  · rfl

/-- The numbers of the words in front. -/
theorem range_mul (n k : Nat) :
    List.range (k * n) = (List.range k).flatMap fun i => (List.range n).map (i * n + ·) := by
  induction k with
  | zero => rw [Nat.zero_mul, List.range_zero, List.flatMap_nil]
  | succ k ih =>
    rw [Nat.succ_mul, List.range_add, ih, List.range_succ, List.flatMap_append,
      List.flatMap_singleton]

end Words

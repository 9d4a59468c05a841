import Mathlib.Tactic.TypeStar

/-!
# Shift registers

The low `n` bits of a word as a shift register: each bit that comes in takes the place of bit `n -
1`, and the others move down by one. After any list of bits the register holds the end of what it
held followed by the list, so `n` bits replace it whole.
-/

namespace ShiftRegister

variable {w n : Nat}

/-- Shift one bit in. -/
def shift (n : Nat) (x : BitVec w) (b : Bool) : BitVec w :=
  x >>> 1 ||| (BitVec.ofBool b).setWidth w <<< (n - 1)

/-- Shift a list of bits in, the first one first. -/
def shiftAll (n : Nat) (x : BitVec w) (bs : List Bool) : BitVec w :=
  bs.foldl (shift n) x

@[simp] theorem shiftAll_nil (x : BitVec w) : shiftAll n x [] = x := rfl

@[simp] theorem shiftAll_cons (x : BitVec w) (b : Bool) (bs : List Bool) :
    shiftAll n x (b :: bs) = shiftAll n (shift n x b) bs := rfl

theorem shiftAll_append (x : BitVec w) (bs bs' : List Bool) :
    shiftAll n x (bs ++ bs') = shiftAll n (shiftAll n x bs) bs' :=
  List.foldl_append

/-- The bits of a value, the lowest first. -/
def bitsOf (v : BitVec n) : List Bool := List.ofFn fun i : Fin n => v[i]

@[simp] theorem length_bitsOf (v : BitVec n) : (bitsOf v).length = n := List.length_ofFn

theorem getElem?_bitsOf (v : BitVec n) {i : Nat} (hi : i < n) : (bitsOf v)[i]? = some v[i] := by
  simp [bitsOf, hi]

/-! ### The register fits -/

/-- Nothing is set above the register. -/
def Fits (n : Nat) (x : BitVec w) : Prop := ∀ i, n ≤ i → x.getLsbD i = false

theorem Fits.zero : Fits n (0#w) := fun _ _ => BitVec.getLsbD_zero

/-- A shift, bit by bit. -/
theorem getLsbD_shift (hn : 0 < n) (hw : n ≤ w) (x : BitVec w) (b : Bool) (i : Nat) :
    (shift n x b).getLsbD i = (x.getLsbD (i + 1) || (decide (i = n - 1) && b)) := by
  have hbit : ((BitVec.ofBool b).setWidth w <<< (n - 1)).getLsbD i = (decide (i = n - 1) && b) := by
    rw [BitVec.getLsbD_shiftLeft, BitVec.getLsbD_setWidth, BitVec.getLsbD_ofBool]
    by_cases hi : i = n - 1
    · subst hi
      have hlt : n - 1 < w := by omega
      have hw' : 0 < w := by omega
      simp [hlt, hw']
    · by_cases hlt : i < n - 1
      · simp [hi, hlt]
      · have hne : ¬i - (n - 1) = 0 := by omega
        simp [hi, hne]
  rw [shift, BitVec.getLsbD_or, BitVec.getLsbD_ushiftRight, hbit, Nat.add_comm]

theorem Fits.shift {x : BitVec w} (hx : Fits n x) (hn : 0 < n) (hw : n ≤ w) (b : Bool) :
    Fits n (shift n x b) := by
  intro i hi
  have hne : ¬i = n - 1 := by omega
  rw [getLsbD_shift hn hw, hx (i + 1) (by omega)]
  simp [hne]

theorem Fits.shiftAll {x : BitVec w} (hx : Fits n x) (hn : 0 < n) (hw : n ≤ w) (bs : List Bool) :
    Fits n (shiftAll n x bs) := by
  induction bs generalizing x with
  | nil => exact hx
  | cons b bs ih => exact ih (hx.shift hn hw b)

/-! ### What the register holds -/

/-- **The contents.** After a list of bits, the low bits are what was above them at first, and the
others are the last bits of the list. -/
theorem getLsbD_shiftAll {x : BitVec w} (hx : Fits n x) (hn : 0 < n) (hw : n ≤ w)
    (bs : List Bool) {i : Nat}
    (hi : i < n) :
    (shiftAll n x bs).getLsbD i =
      if i + bs.length < n then x.getLsbD (i + bs.length)
        else bs.getD (i + bs.length - n) false := by
  induction bs generalizing x with
  | nil =>
    rw [shiftAll_nil, List.length_nil, Nat.add_zero, if_pos hi]
  | cons b bs ih =>
    rw [shiftAll_cons, ih (hx.shift hn hw b), List.length_cons, getLsbD_shift hn hw]
    obtain hlt | heq | hgt := Nat.lt_trichotomy (i + bs.length) (n - 1)
    · have hne : ¬i + bs.length = n - 1 := by omega
      rw [if_pos (by omega), if_pos (by omega)]
      simp [hne, Nat.add_assoc]
    · have hin : i + (bs.length + 1) - n = 0 := by omega
      have hout : x.getLsbD (i + bs.length + 1) = false := hx _ (by omega)
      rw [if_pos (by omega), if_neg (by omega), hout, hin]
      simp [heq]
    · have hsucc : i + (bs.length + 1) - n = i + bs.length - n + 1 := by omega
      rw [if_neg (by omega), if_neg (by omega), hsucc, List.getD_cons_succ]

/-- **A whole value.** Shifting in the bits of a value as wide as the register leaves the value. -/
theorem shiftAll_bitsOf {x : BitVec w} (hx : Fits n x) (hn : 0 < n) (hw : n ≤ w) (v : BitVec n) :
    shiftAll n x (bitsOf v) = v.setWidth w := by
  apply BitVec.eq_of_getLsbD_eq
  intro i hiw
  rw [BitVec.getLsbD_setWidth, decide_eq_true hiw, Bool.true_and]
  by_cases hi : i < n
  · rw [getLsbD_shiftAll hx hn hw _ hi, length_bitsOf, if_neg (by omega), Nat.add_sub_cancel,
      List.getD_eq_getElem?_getD, getElem?_bitsOf v hi, Option.getD_some,
      BitVec.getLsbD_eq_getElem hi]
  · rw [hx.shiftAll hn hw _ i (by omega), BitVec.getLsbD_of_ge v i (by omega)]

end ShiftRegister

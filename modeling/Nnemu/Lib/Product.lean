import Mathlib.Tactic.Ring
import Mathlib.Data.Nat.Basic

/-!
# Products by halves

The high half of a product of two numbers of two digits, from the four products of their digits, and
the high half of a product of signed words, from that of their magnitudes.
-/

namespace Product

/-! ### Digits -/

variable {B a₀ a₁ b₀ b₁ : Nat}

/-- The product of the first number with the low digit of the second, less its low digit. -/
def crossed (B a₀ a₁ b₀ : Nat) : Nat :=
  a₁ * b₀ + a₀ * b₀ / B

theorem mul_add_lt {x y z : Nat} (hx : x < B) (hy : y < B) (hz : z < B) : x * y + z < B * B := by
  have hxy : x * y ≤ (B - 1) * (B - 1) :=
    Nat.mul_le_mul (Nat.le_sub_one_of_lt hx) (Nat.le_sub_one_of_lt hy)
  obtain ⟨C, rfl⟩ : ∃ C, B = C + 1 := ⟨B - 1, by omega⟩
  rw [Nat.add_sub_cancel] at hxy
  have hsq : (C + 1) * (C + 1) = C * C + C + C + 1 := by ring
  omega

theorem mul_div_lt {x y : Nat} (hx : x < B) (hy : y < B) : x * y / B < B :=
  Nat.div_lt_of_lt_mul (Nat.mul_lt_mul'' hx hy)

/-- The first sum fits two digits. -/
theorem crossed_lt (ha₀ : a₀ < B) (ha₁ : a₁ < B) (hb₀ : b₀ < B) : crossed B a₀ a₁ b₀ < B * B :=
  mul_add_lt ha₁ hb₀ (mul_div_lt ha₀ hb₀)

/-- The second one, too. -/
theorem second_lt (ha₀ : a₀ < B) (hb₁ : b₁ < B) (c : Nat) : a₀ * b₁ + c % B < B * B :=
  mul_add_lt ha₀ hb₁ (Nat.mod_lt _ (Nat.zero_lt_of_lt ha₀))

/-- **The high half of a product.** -/
theorem mul_div_sq (a₀ a₁ b₀ b₁ : Nat) (hB : 0 < B) : (a₀ + B * a₁) * (b₀ + B * b₁) / (B * B) =
    a₁ * b₁ + crossed B a₀ a₁ b₀ / B + (a₀ * b₁ + crossed B a₀ a₁ b₀ % B) / B := by
  have hexpand : (a₀ + B * a₁) * (b₀ + B * b₁) = a₀ * b₀ + B *
      (a₁ * b₀ + a₀ * b₁ + B * (a₁ * b₁)) := by ring
  have hlow : (a₀ + B * a₁) * (b₀ + B * b₁) / B = crossed B a₀ a₁ b₀ + a₀ * b₁ + B * (a₁ * b₁) := by
    rw [hexpand, Nat.add_mul_div_left _ _ hB, crossed]
    omega
  have hcarry : (crossed B a₀ a₁ b₀ + a₀ * b₁) / B =
      crossed B a₀ a₁ b₀ / B + (a₀ * b₁ + crossed B a₀ a₁ b₀ % B) / B := by
    conv_lhs => rw [← Nat.mod_add_div (crossed B a₀ a₁ b₀) B]
    rw [show crossed B a₀ a₁ b₀ % B + B * (crossed B a₀ a₁ b₀ / B) + a₀ * b₁ =
      a₀ * b₁ + crossed B a₀ a₁ b₀ % B + B * (crossed B a₀ a₁ b₀ / B) by
        omega, Nat.add_mul_div_left _ _ hB, Nat.add_comm]
  rw [← Nat.div_div_eq_div_mul, hlow, Nat.add_mul_div_left _ _ hB, hcarry]
  omega

/-- A product of two numbers of two digits has four digits. -/
theorem mul_div_sq_lt (ha₀ : a₀ < B) (ha₁ : a₁ < B) (hb₀ : b₀ < B) (hb₁ : b₁ < B) :
    (a₀ + B * a₁) * (b₀ + B * b₁) / (B * B) < B * B := by
  have hlt {x y : Nat} (hx : x < B) (hy : y < B) : x + B * y < B * B := by
    have hle : B * y + B ≤ B * B := by
      rw [← Nat.mul_succ]
      exact Nat.mul_le_mul_left B hy
    omega
  exact Nat.div_lt_of_lt_mul (Nat.mul_lt_mul'' (hlt ha₀ ha₁) (hlt hb₀ hb₁))

/-! ### Signs -/

variable {w : Nat}

/-- The magnitude of a word as a number. -/
theorem toNat_abs (a : BitVec w) : a.abs.toNat = a.toInt.natAbs := by
  have hlt := a.isLt
  rw [BitVec.toNat_abs, BitVec.toInt_eq_msb_cond]
  split
  · omega
  · exact (Int.natAbs_natCast _).symm

/-- A signed word is its magnitude with its sign. -/
theorem toInt_eq_natAbs (a : BitVec w) : a.toInt = if a.msb then -(a.toInt.natAbs : Int)
    else a.toInt.natAbs := by
  have hlt := a.isLt
  rw [BitVec.toInt_eq_msb_cond]
  split <;> omega

/-- The low half of a product is zero when that of the magnitudes is, whatever numbers the words
stand for. -/
theorem mul_eq_zero_iff {a b : BitVec w} {x y : Int} (hx : BitVec.ofInt w x = a)
    (hy : BitVec.ofInt w y = b) :
    a * b = 0#w ↔ 2 ^ w ∣ x.natAbs * y.natAbs := by
  rw [← hx, ← hy, ← BitVec.ofInt_mul, ← Int.natAbs_mul, ← Int.natCast_dvd,
    ← BitVec.toInt_inj, BitVec.toInt_ofInt,
    BitVec.toInt_zero, ← Int.dvd_iff_bmod_eq_zero]

/-- **The high half of a negative product** is the complement of that of the magnitudes, and one
more when nothing is lost. -/
theorem ofInt_neg_ediv (n : Nat) :
    BitVec.ofInt w (-(n : Int) / 2 ^ w) = ~~~BitVec.ofNat w (n / 2 ^ w) + if 2 ^ w ∣ n then 1#w
      else 0#w := by
  have hpos : (0 : Int) < 2 ^ w := Int.pow_pos (by decide)
  have hdvd : ((2 : Int) ^ w ∣ (n : Int)) ↔ 2 ^ w ∣ n :=
    by exact_mod_cast Int.natCast_dvd_natCast (m := 2 ^ w) (n := n)
  have hquot : ((n : Int) / 2 ^ w) = ((n / 2 ^ w : Nat) : Int) :=
    by rw [Int.natCast_ediv, Int.natCast_pow]; rfl
  have hnot : ~~~BitVec.ofNat w (n / 2 ^ w) = -BitVec.ofNat w (n / 2 ^ w) - 1#w := by
    rw [BitVec.neg_eq_not_add, BitVec.add_sub_cancel]
  rw [Int.neg_ediv, Int.sign_eq_one_of_pos hpos, hquot, hnot, Int.sub_eq_add_neg,
    BitVec.ofInt_add, BitVec.ofInt_neg,
    BitVec.ofInt_natCast]
  by_cases h : 2 ^ w ∣ n
  · rw [if_pos (hdvd.2 h), if_pos h, BitVec.sub_add_cancel]
    simp
  · rw [if_neg fun hd => h (hdvd.1 hd), if_neg h, BitVec.add_zero, BitVec.sub_eq_add_neg,
      BitVec.ofInt_neg]
    rfl

end Product

import Nnemu.Lib.Product
import Nnemu.Insn.Values

/-!
# Multiplication

`mulhu` of `arith.h` adds up four products of halves, and `mulh` and `mulhsu` multiply magnitudes
and negate. `multiply_exact` compares them, and the handlers of the five instructions, with the
exact products, and says which of their sums fit 64 bits: all of `mulhu`, and the last one of a
negation unless the product is zero.

The products are compared as integers. A half of a product is a quotient by `2 ^ 64`
(`Lib.Product`), for `mulhu` by adding four products of halves, for the signed ones by negating the
product of magnitudes. Where the host wraps is part of the statement: it is harmless, and it
happens.
-/

namespace Nnemu

/-! ### What the instructions are for -/

namespace Product

variable {w : Nat}

/-- The lower half of a product. -/
def mul (a b : BitVec w) : BitVec w :=
  BitVec.ofInt w (a.toInt * b.toInt)

/-- The upper half of a product of signed numbers. -/
def mulh (a b : BitVec w) : BitVec w :=
  BitVec.ofInt w (a.toInt * b.toInt / 2 ^ w)

/-- The upper half of a product of a signed and an unsigned number. -/
def mulhsu (a b : BitVec w) : BitVec w :=
  BitVec.ofInt w (a.toInt * b.toNat / 2 ^ w)

/-- The upper half of a product of unsigned numbers. -/
def mulhu (a b : BitVec w) : BitVec w :=
  BitVec.ofNat w (a.toNat * b.toNat / 2 ^ w)

end Product

/-- An operation of the width of the hart: on RV32 registers hold words of 32 bits with their
signs. -/
def Frame.atXlen (f : Frame) (op : ∀ {w : Nat}, BitVec w → BitVec w → BitVec w) (a b : Reg) : Reg :=
  match f.cfg.isa.xlen with
  | .rv64 => op a b
  | .rv32 => held (op (a.setWidth 32) (b.setWidth 32))

/-! ### The sums of the host -/

/-- The operands of the sums of `mulhu64`, in order. -/
def mulhuSums (a b : Reg) : List (Reg × Reg) :=
  let a0 := zext32 a
  let a1 := a >>> 32
  let b0 := zext32 b
  let b1 := b >>> 32
  let t := a1 * b0 + ((a0 * b0) >>> 32)
  let y1 := zext32 t
  let y2 := t >>> 32
  let t' := a0 * b1 + y1
  [(a1 * b0, (a0 * b0) >>> 32), (a0 * b1, y1), (a1 * b1, y2), (a1 * b1 + y2, t' >>> 32)]

/-- Does a sum fit 64 bits? -/
def SumFits (sum : Reg × Reg) : Prop :=
  sum.1.toNat + sum.2.toNat < 2 ^ 64

/-- The operands of the sum of a negation. -/
def negateSum (res product : Reg) : Reg × Reg :=
  (~~~res, flag (product == 0#64))

/-! ### Unsigned -/

theorem toNat_zext32 (a : Reg) : (zext32 a).toNat = a.toNat % 2 ^ 32 := by
  rw [zext32, BitVec.toNat_setWidth_of_le (by decide), BitVec.toNat_setWidth]

theorem toNat_high (a : Reg) : (a >>> 32).toNat = a.toNat / 2 ^ 32 := by
  rw [BitVec.toNat_ushiftRight, Nat.shiftRight_eq_div_pow]

/-- A product of halves does not overflow. -/
theorem toNat_mul_of_halves {a b : Reg} (ha : a.toNat < 2 ^ 32) (hb : b.toNat < 2 ^ 32) :
    (a * b).toNat = a.toNat * b.toNat :=
  BitVec.toNat_mul_of_lt (show a.toNat * b.toNat < 2 ^ 32 * 2 ^ 32 from Nat.mul_lt_mul'' ha hb)

theorem toNat_add_of_fits {a b : Reg} (h : SumFits (a, b)) : (a + b).toNat = a.toNat + b.toNat :=
  BitVec.toNat_add_of_lt h

/-- The two halves of the result are put together again. -/
theorem halves_or (t : Reg) : (t >>> 32) <<< 32 ||| zext32 t = t := by
  apply BitVec.eq_of_getLsbD_eq
  intro i hi
  rw [zext32, BitVec.getLsbD_or, BitVec.getLsbD_shiftLeft, BitVec.getLsbD_ushiftRight,
    BitVec.getLsbD_setWidth,
    BitVec.getLsbD_setWidth]
  by_cases h : i < 32
  · simp [h, hi]
  · have hsum : 32 + (i - 32) = i := by omega
    simp [h, hi, hsum]

theorem toNat_zext32_lt (c : Reg) : (zext32 c).toNat < 2 ^ 32 := by
  rw [toNat_zext32]
  exact Nat.mod_lt _ (by decide)

theorem toNat_high_lt (c : Reg) : (c >>> 32).toNat < 2 ^ 32 := by
  rw [toNat_high]
  exact Nat.div_lt_of_lt_mul c.isLt

/-- **`mulhu`**: every sum fits, and the result is the high half of the product. -/
theorem mulhu64_eq (a b : Reg) : mulhu64 a b = Product.mulhu a b ∧ ∀ sum ∈ mulhuSums a b,
    SumFits sum := by
  have hsplit (c : Reg) : c.toNat = (zext32 c).toNat + 2 ^ 32 * (c >>> 32).toNat := by
    rw [toNat_zext32, toNat_high, Nat.mod_add_div]
  have ha₀ := toNat_zext32_lt a
  have ha₁ := toNat_high_lt a
  have hb₀ := toNat_zext32_lt b
  have hb₁ := toNat_high_lt b
  rw [mulhu64, mulhuSums, Product.mulhu, hsplit a, hsplit b]
  generalize zext32 a = a₀ at *
  generalize a >>> 32 = a₁ at *
  generalize zext32 b = b₀ at *
  generalize b >>> 32 = b₁ at *
  -- the first sum, and its two halves
  have hfirst : SumFits (a₁ * b₀, (a₀ * b₀) >>> 32) := by
    rw [SumFits, toNat_high, toNat_mul_of_halves ha₁ hb₀, toNat_mul_of_halves ha₀ hb₀]
    exact Product.crossed_lt ha₀ ha₁ hb₀
  have ht : (a₁ * b₀ + (a₀ * b₀) >>> 32).toNat = Product.crossed
      (2 ^ 32) a₀.toNat a₁.toNat b₀.toNat := by
    rw [toNat_add_of_fits hfirst, toNat_high, toNat_mul_of_halves ha₁ hb₀,
      toNat_mul_of_halves ha₀ hb₀, Product.crossed]
  generalize a₁ * b₀ + (a₀ * b₀) >>> 32 = t at *
  have hsecond : SumFits (a₀ * b₁, zext32 t) := by
    rw [SumFits, toNat_mul_of_halves ha₀ hb₁, toNat_zext32]
    exact Product.second_lt ha₀ hb₁ t.toNat
  have ht' : (a₀ * b₁ + zext32 t).toNat = a₀.toNat * b₁.toNat + t.toNat % 2 ^ 32 := by
    rw [toNat_add_of_fits hsecond, toNat_mul_of_halves ha₀ hb₁, toNat_zext32]
  generalize a₀ * b₁ + zext32 t = t' at *
  -- what the last two sums come to is the result, which has two digits
  have hprod := Product.mul_div_sq a₀.toNat a₁.toNat b₀.toNat b₁.toNat (by decide : 0 < 2 ^ 32)
  have hlt := Product.mul_div_sq_lt ha₀ ha₁ hb₀ hb₁
  rw [← ht, ← ht'] at hprod
  rw [hprod] at hlt
  have hthird : SumFits (a₁ * b₁, t >>> 32) := by
    rw [SumFits, toNat_mul_of_halves ha₁ hb₁, toNat_high]
    omega
  have hlast : SumFits (a₁ * b₁ + t >>> 32, t' >>> 32) := by
    rw [SumFits, toNat_add_of_fits hthird, toNat_mul_of_halves ha₁ hb₁, toNat_high, toNat_high]
    exact hlt
  constructor
  · apply BitVec.eq_of_toNat_eq
    rw [halves_or, toNat_add_of_fits hlast, toNat_add_of_fits hthird, toNat_mul_of_halves ha₁ hb₁,
      toNat_high, toNat_high,
      BitVec.toNat_ofNat, Nat.mod_eq_of_lt]
    · exact hprod.symm
    · exact hprod.symm ▸ hlt
  · intro sum hsum
    simp only [List.mem_cons, List.not_mem_nil, or_false] at hsum
    obtain rfl | rfl | rfl | rfl := hsum
    · exact hfirst
    · exact hsecond
    · exact hthird
    · exact hlast

/-- The last of the sums is the result. -/
theorem getLast_mulhuSums (a b : Reg) :
    (mulhuSums a b).getLast?.map (fun sum => sum.1 + sum.2) = some (mulhu64 a b) := by
  rw [mulhu64, halves_or]
  rfl

/-! ### Signed -/

theorem toNat_magnitude (a : Reg) : (magnitude a).toNat = a.toInt.natAbs :=
  Product.toNat_abs a

/-- The high half of the magnitude of a product, negated if its sign says so. -/
theorem negateHigh_eq (negate : Bool) {n : Nat} {product : Reg}
    (hzero : product = 0#64 ↔ 2 ^ 64 ∣ n) :
    negateHigh negate (BitVec.ofNat 64 (n / 2 ^ 64)) product =
      BitVec.ofInt 64 ((if negate then -(n : Int) else n) / 2 ^ 64) := by
  rw [negateHigh]
  cases negate with
  | false =>
    rw [if_neg Bool.false_ne_true, if_neg Bool.false_ne_true, ← BitVec.ofInt_natCast,
      Int.natCast_ediv]
    rfl
  | true =>
    rw [if_pos rfl, if_pos rfl, Product.ofInt_neg_ediv, flag]
    by_cases h : 2 ^ 64 ∣ n
    · rw [if_pos h, if_pos (beq_iff_eq.2 (hzero.2 h))]
    · rw [if_neg h, if_neg fun heq => h (hzero.1 (beq_iff_eq.1 heq))]

/-- The sum of a negation wraps when the product is zero. -/
theorem sumFits_negateSum_iff {n : Nat} {product : Reg} (hzero : product = 0#64 ↔ 2 ^ 64 ∣ n)
    (hn : n / 2 ^ 64 < 2 ^ 64) :
    SumFits (negateSum (BitVec.ofNat 64 (n / 2 ^ 64)) product) ↔ n ≠ 0 := by
  have hnot : (~~~BitVec.ofNat 64 (n / 2 ^ 64)).toNat = 2 ^ 64 - 1 - n / 2 ^ 64 := by
    rw [BitVec.toNat_not, BitVec.toNat_ofNat, Nat.mod_eq_of_lt hn]
  rw [SumFits, negateSum, hnot, flag]
  by_cases h : 2 ^ 64 ∣ n
  · rw [if_pos (beq_iff_eq.2 (hzero.2 h)), BitVec.toNat_ofNat]
    omega
  · rw [if_neg fun heq => h (hzero.1 (beq_iff_eq.1 heq)), BitVec.toNat_ofNat]
    refine ⟨fun _ => ?_, fun _ => by omega⟩
    rintro rfl
    exact h (Nat.dvd_zero _)

/-- The sign of a product. -/
theorem toInt_mul_toInt (a b : Reg) : a.toInt * b.toInt =
    if (a.msb != b.msb) = true then -((a.toInt.natAbs * b.toInt.natAbs : Nat) : Int)
    else (a.toInt.natAbs * b.toInt.natAbs : Nat) := by
  rw [Product.toInt_eq_natAbs a, Product.toInt_eq_natAbs b]
  cases a.msb <;> cases b.msb <;> simp

theorem toInt_mul_toNat (a b : Reg) : a.toInt * b.toNat =
    if a.msb = true then -((a.toInt.natAbs * b.toNat : Nat) : Int)
      else (a.toInt.natAbs * b.toNat : Nat) := by
  rw [Product.toInt_eq_natAbs a]
  cases a.msb <;> simp

theorem ofInt_toNat (b : Reg) : BitVec.ofInt 64 (b.toNat : Int) = b := by
  rw [BitVec.ofInt_natCast, BitVec.ofNat_toNat, BitVec.setWidth_eq]

/-- **`mulh`** -/
theorem mulh64_eq (a b : Reg) : mulh64 a b = Product.mulh a b := by
  have hzero := Product.mul_eq_zero_iff (BitVec.ofInt_toInt (x := a)) (BitVec.ofInt_toInt (x := b))
  rw [mulh64, (mulhu64_eq _ _).1, Product.mulhu, toNat_magnitude, toNat_magnitude,
    negateHigh_eq _ hzero, Product.mulh,
    toInt_mul_toInt]

/-- **`mulhsu`** -/
theorem mulhsu64_eq (a b : Reg) : mulhsu64 a b = Product.mulhsu a b := by
  have hzero := Product.mul_eq_zero_iff (BitVec.ofInt_toInt (x := a)) (ofInt_toNat b)
  rw [Int.natAbs_natCast] at hzero
  rw [mulhsu64, (mulhu64_eq _ _).1, Product.mulhu, toNat_magnitude, negateHigh_eq _ hzero,
    Product.mulhsu, toInt_mul_toNat]

/-- A product of magnitudes has two words. -/
theorem mul_div_lt {m n : Nat} (hm : m < 2 ^ 64) (hn : n < 2 ^ 64) : m * n / 2 ^ 64 < 2 ^ 64 :=
  Nat.div_lt_of_lt_mul (Nat.mul_lt_mul'' hm hn)

/-- When the sum of `mulh` fits. -/
theorem sumFits_mulh_iff (a b : Reg) :
    SumFits (negateSum (mulhu64 (magnitude a) (magnitude b)) (a * b)) ↔ a.toInt * b.toInt ≠ 0 := by
  have hzero := Product.mul_eq_zero_iff (BitVec.ofInt_toInt (x := a)) (BitVec.ofInt_toInt (x := b))
  have hlt := mul_div_lt (magnitude a).isLt (magnitude b).isLt
  rw [toNat_magnitude, toNat_magnitude] at hlt
  rw [(mulhu64_eq _ _).1, Product.mulhu, toNat_magnitude, toNat_magnitude,
    sumFits_negateSum_iff hzero hlt, ← Int.natAbs_mul,
    Int.natAbs_ne_zero]

/-- When the sum of `mulhsu` fits. -/
theorem sumFits_mulhsu_iff (a b : Reg) :
    SumFits (negateSum (mulhu64 (magnitude a) b) (a * b)) ↔ a.toInt * b.toNat ≠ 0 := by
  have hzero := Product.mul_eq_zero_iff (BitVec.ofInt_toInt (x := a)) (ofInt_toNat b)
  have hlt := mul_div_lt (magnitude a).isLt b.isLt
  rw [Int.natAbs_natCast] at hzero
  rw [toNat_magnitude] at hlt
  rw [(mulhu64_eq _ _).1, Product.mulhu, toNat_magnitude, sumFits_negateSum_iff hzero hlt,
    ← Int.natAbs_natCast b.toNat,
    ← Int.natAbs_mul, Int.natAbs_ne_zero, Int.natAbs_natCast]

/-! ### Handlers -/

section

variable {x y : BitVec 32}

theorem sext32_eq (a : Reg) : sext32 a = held (a.setWidth 32) :=
  rfl

theorem toInt_held (x : BitVec 32) : (held x).toInt = x.toInt :=
  BitVec.toInt_signExtend_of_le (by decide)

/-- The high word of a product that fits. -/
theorem high_of_toInt {product : Reg} {n : Int} (h : product.toInt = n) :
    (product.sshiftRight 32).setWidth 32 = BitVec.ofInt 32 (n / 2 ^ 32) := by
  apply BitVec.eq_of_toInt_eq
  rw [Narrow.toInt_setWidth (by decide), BitVec.toInt_sshiftRight, h, BitVec.toInt_ofInt,
    Int.shiftRight_eq_div_pow]
  rfl

theorem natAbs_toInt_le (x : BitVec 32) : x.toInt.natAbs ≤ 2 ^ 31 := by
  have hlt := BitVec.toInt_lt (x := x)
  have hle := BitVec.le_toInt x
  omega

/-- Products of numbers of 32 bits fit. -/
theorem bmod_mul {m n : Int} (hm : m.natAbs ≤ 2 ^ 31) (hn : n.natAbs < 2 ^ 32) :
    (m * n).bmod (2 ^ 64) = m * n := by
  have hle : (m * n).natAbs ≤ 2 ^ 31 * (2 ^ 32 - 1) := by
    rw [Int.natAbs_mul]
    exact Nat.mul_le_mul hm (Nat.le_sub_one_of_lt hn)
  generalize m * n = product at hle
  apply Int.bmod_eq_of_le
  · omega
  · omega

theorem toInt_mul_held (x y : BitVec 32) : (held x * held y).toInt = x.toInt * y.toInt := by
  rw [BitVec.toInt_mul, toInt_held, toInt_held, bmod_mul (natAbs_toInt_le x)]
  exact Nat.lt_of_le_of_lt (natAbs_toInt_le y) (by decide)

theorem toInt_mul_setWidth (x y : BitVec 32) :
    (held x * y.setWidth 64).toInt = x.toInt * y.toNat := by
  have hlt := y.isLt
  have hnat : (y.setWidth 64).toNat = y.toNat := BitVec.toNat_setWidth_of_le (by decide)
  have hint : (y.setWidth 64).toInt = y.toNat := by
    rw [BitVec.toInt_eq_toNat_of_lt (by omega), hnat]
  rw [BitVec.toInt_mul, toInt_held, hint, bmod_mul (natAbs_toInt_le x)]
  rwa [Int.natAbs_natCast]

/-- `mul`: the low half of a product is that of the low words. -/
theorem held_mul (a b : Reg) :
    held ((a * b).setWidth 32) = held (Product.mul (a.setWidth 32) (b.setWidth 32)) := by
  rw [BitVec.setWidth_mul _ _ (by decide), Product.mul, BitVec.ofInt_mul,
    BitVec.ofInt_toInt, BitVec.ofInt_toInt]

/-- `mulhu`: the high word of a product of low words. -/
theorem high_mul_zext32 (a b : Reg) :
    Rv32.high (zext32 a * zext32 b) = Product.mulhu (a.setWidth 32) (b.setWidth 32) := by
  have hnat (x : Reg) : (zext32 x).toNat = (x.setWidth 32).toNat :=
    BitVec.toNat_setWidth_of_le (by decide)
  apply BitVec.eq_of_toNat_eq
  rw [Rv32.high, BitVec.toNat_setWidth, toNat_high,
    toNat_mul_of_halves (toNat_zext32_lt a) (toNat_zext32_lt b), hnat, hnat,
    Product.mulhu, BitVec.toNat_ofNat]

end

namespace Frame

variable (f : Frame)

theorem atXlen_rv64 (h : f.cfg.isa.xlen = .rv64) (op : ∀ {w : Nat}, BitVec w → BitVec w → BitVec w)
    (a b : Reg) :
    f.atXlen op a b = op a b := by
  rw [atXlen, h]

theorem atXlen_rv32 (h : f.cfg.isa.xlen = .rv32) (op : ∀ {w : Nat}, BitVec w → BitVec w → BitVec w)
    (a b : Reg) :
    f.atXlen op a b = held (op (a.setWidth 32) (b.setWidth 32)) := by
  rw [atXlen, h]

variable {ω ι : Type}

theorem mul_eq : (f.mul : InsnM 64 ω ι Reg) = f.withMul (f.regReg (f.atXlen Product.mul)) := by
  rw [mul]
  refine congrArg (fun op => f.withMul (f.regReg op)) (funext₂ fun a b => ?_)
  cases h : f.cfg.isa.xlen with
  | rv32 => rw [sextXlen_rv32 h, atXlen_rv32 f h, held_mul]
  | rv64 =>
    rw [sextXlen, Hart.sextXlen, h, atXlen_rv64 f h, Product.mul, BitVec.ofInt_mul,
      BitVec.ofInt_toInt, BitVec.ofInt_toInt]

theorem mulh_eq : (f.mulh : InsnM 64 ω ι Reg) = f.withMul (f.regReg (f.atXlen Product.mulh)) := by
  rw [mulh]
  refine congrArg (fun op => f.withMul (f.regReg op)) (funext₂ fun a b => ?_)
  cases h : f.cfg.isa.xlen with
  | rv32 =>
    rw [atXlen_rv32 f h, Product.mulh, sext32_eq, sext32_eq, sext32_eq,
      high_of_toInt (toInt_mul_held _ _)]
  | rv64 => rw [atXlen_rv64 f h, mulh64_eq]

theorem mulhsu_eq :
    (f.mulhsu : InsnM 64 ω ι Reg) = f.withMul (f.regReg (f.atXlen Product.mulhsu)) := by
  rw [mulhsu]
  refine congrArg (fun op => f.withMul (f.regReg op)) (funext₂ fun a b => ?_)
  cases h : f.cfg.isa.xlen with
  | rv32 =>
    rw [atXlen_rv32 f h, Product.mulhsu, Rv32.high_held, ← Rv32.setWidth_sshiftRight,
      sext32_eq, zext32,
      high_of_toInt (toInt_mul_setWidth _ _)]
  | rv64 => rw [atXlen_rv64 f h, mulhsu64_eq]

theorem mulhu_eq :
    (f.mulhu : InsnM 64 ω ι Reg) = f.withMul (f.regReg (f.atXlen Product.mulhu)) := by
  rw [mulhu]
  refine congrArg (fun op => f.withMul (f.regReg op)) (funext₂ fun a b => ?_)
  cases h : f.cfg.isa.xlen with
  | rv32 => rw [atXlen_rv32 f h, Rv32.high_held, high_mul_zext32]
  | rv64 => rw [atXlen_rv64 f h, (mulhu64_eq a b).1]

theorem mulw_eq : (f.mulw : InsnM 64 ω ι Reg) =
    f.withMul (f.onRv64 (f.regReg fun a b => held (Product.mul (a.setWidth 32) (b.setWidth 32)))) :=
  by
  rw [mulw]
  exact congrArg (fun op => f.withMul (f.onRv64 (f.regReg op))) (funext₂ held_mul)

end Frame

/-! ### The result -/

/-- **Multiplication is exact.** The three functions of `arith.h` give the upper halves of the exact
products, and the handlers write the results of the M extension at the width of the hart. The sums
of `mulhu` fit 64 bits, also in the signed functions; the sum of a negation fits, where there is
one, unless the product is zero, when it wraps to zero. -/
theorem multiply_exact :
    (∀ a b : Reg, mulhu64 a b = Product.mulhu a b ∧ mulh64 a b = Product.mulh a b ∧
      mulhsu64 a b = Product.mulhsu a b) ∧
    (∀ a b : Reg, (∀ sum ∈ mulhuSums a b, SumFits sum) ∧
      (SumFits (negateSum (mulhu64 (magnitude a) (magnitude b)) (a * b)) ↔ a.toInt * b.toInt ≠ 0) ∧
      (SumFits (negateSum (mulhu64 (magnitude a) b) (a * b)) ↔ a.toInt * b.toNat ≠ 0)) ∧
    ∀ (f : Frame) (ω ι : Type),
      (f.mul : InsnM 64 ω ι Reg) = f.withMul (f.regReg (f.atXlen Product.mul)) ∧
      (f.mulh : InsnM 64 ω ι Reg) = f.withMul (f.regReg (f.atXlen Product.mulh)) ∧
      (f.mulhsu : InsnM 64 ω ι Reg) = f.withMul (f.regReg (f.atXlen Product.mulhsu)) ∧
      (f.mulhu : InsnM 64 ω ι Reg) = f.withMul (f.regReg (f.atXlen Product.mulhu)) ∧
      (f.mulw : InsnM 64 ω ι Reg) = f.withMul (f.onRv64 (f.regReg fun a b =>
        held (Product.mul (a.setWidth 32) (b.setWidth 32)))) := by
  refine ⟨fun a b => ⟨(mulhu64_eq a b).1, mulh64_eq a b, mulhsu64_eq a b⟩,
    fun a b => ⟨(mulhu64_eq a b).2, sumFits_mulh_iff a b, sumFits_mulhsu_iff a b⟩, fun f _ _ => ?_⟩
  exact ⟨f.mul_eq, f.mulh_eq, f.mulhsu_eq, f.mulhu_eq, f.mulw_eq⟩

/-- `mulh` of minus one and zero: the complement of zero and one wrap. -/
theorem mulh_sum_wraps :
    (BitVec.msb (-1#64) != BitVec.msb 0#64) = true ∧
      ¬SumFits (negateSum (mulhu64 (magnitude (-1#64)) (magnitude 0#64)) (-1#64 * 0#64)) := by
  refine ⟨by decide, ?_⟩
  rw [SumFits]
  decide

end Nnemu

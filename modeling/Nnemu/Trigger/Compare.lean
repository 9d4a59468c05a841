import Nnemu.Trigger.Match
import Nnemu.Lib.Bits

/-!
# What `simple_match` compares

A NAPOT trigger is meant for the values that agree with `tdata2` above its lowest zero. The mask is
built with a shift of an `int` by one more than the number of trailing ones, so it is right as long
as there is a zero among the low 31 bits of `tdata2` (`compares_iff`). With more ones the shift is
as wide as its type or wider, and every such `tdata2` misses a value: the one that differs from it
in the bit the shift comes out at.
-/

namespace Nnemu

namespace Xlen

/-- The bits of a value cut to the register width. -/
theorem getLsbD_zext (xlen : Xlen) (x : Reg) (i : Nat) :
    (xlen.zext x).getLsbD i = (decide (i < xlen.bits) && x.getLsbD i) := by
  cases xlen with
  | rv32 =>
    have hmask : 0xffffffff#64 = Bits.lowMask 64 32 := rfl
    rw [zext, hmask, BitVec.getLsbD_and, Bits.getLsbD_lowMask, Bool.and_comm]
    by_cases hi : i < 32
    · simp [bits, hi, show i < 64 by omega]
    · simp [bits, hi]
  | rv64 =>
    by_cases hi : i < 64
    · simp [zext, bits, hi]
    · simp [zext, bits, hi, BitVec.getLsbD_of_ge x i (by omega)]

/-- As a number it is the value of the low bits. -/
theorem toNat_zext (xlen : Xlen) (x : Reg) :
    (xlen.zext x).toNat = (x.setWidth xlen.bits).toNat := by
  have hbits : xlen.zext x = (x.setWidth xlen.bits).setWidth 64 := by
    apply BitVec.eq_of_getLsbD_eq
    intro i hi
    rw [getLsbD_zext, BitVec.getLsbD_setWidth, BitVec.getLsbD_setWidth,
      decide_eq_true hi, Bool.true_and]
  have hle : xlen.bits ≤ 64 := by cases xlen <;> decide
  have hlt := (x.setWidth xlen.bits).isLt
  have hpow : 2 ^ xlen.bits ≤ 2 ^ 64 := Nat.pow_le_pow_right (by omega) hle
  rw [hbits, BitVec.toNat_setWidth, Nat.mod_eq_of_lt (by omega)]

/-- Cutting twice is cutting once. -/
theorem zext_zext (xlen : Xlen) (x : Reg) : xlen.zext (xlen.zext x) = xlen.zext x := by
  apply BitVec.eq_of_getLsbD_eq
  intro i hi
  rw [getLsbD_zext, getLsbD_zext, ← Bool.and_assoc, Bool.and_self]

end Xlen

namespace Trigger

/-! ### The mask -/

/-- `cto` counts the trailing ones. -/
theorem cto_eq (val : Reg) : cto val = Bits.trailingOnes val := by
  have hle : Bits.trailingOnes val ≤ 64 :=
    Bits.trailingOnes_le (BitVec.getLsbD_of_ge val 64 (Nat.le_refl 64))
  have hsplit : List.range 64 = List.range (Bits.trailingOnes val) ++
      List.range' (Bits.trailingOnes val) (64 - Bits.trailingOnes val) := by
    have happend := @List.range'_append_1 0 (Bits.trailingOnes val) (64 - Bits.trailingOnes val)
    rw [Nat.zero_add, Nat.add_sub_cancel' hle] at happend
    rw [List.range_eq_range', List.range_eq_range', happend]
  have hones : ∀ i ∈ List.range (Bits.trailingOnes val), val.getLsbD i = true := fun i hi =>
    Bits.getLsbD_of_lt_trailingOnes (List.mem_range.1 hi)
  have hend : (List.range' (Bits.trailingOnes val) (64 - Bits.trailingOnes val)).takeWhile
      (fun i => val.getLsbD i) = [] := by
    cases 64 - Bits.trailingOnes val with
    | zero => rfl
    | succ n =>
      rw
      [List.range'_succ, List.takeWhile_cons, Bits.getLsbD_trailingOnes, if_neg Bool.false_ne_true]
  rw [cto, hsplit, List.takeWhile_append_of_pos hones, hend, List.append_nil, List.length_range]

/-- The bit the shift of the mask comes out at. -/
def napotShift (t : Trigger) : Nat := (Bits.trailingOnes t.tdata2 + 1) % 32

/-- The mask selects the bits from there on. -/
theorem getLsbD_napotMatchMask (t : Trigger) {i : Nat} (hi : i < 64) :
    t.napotMatchMask.getLsbD i = decide (t.napotShift ≤ i) := by
  have hlt : t.napotShift < 32 := Nat.mod_lt _ (by omega)
  rw [napotMatchMask, cto_eq, ← napotShift, Bits.one_shiftLeft_sub_one hlt,
    BitVec.getLsbD_signExtend]
  by_cases hlow : i < 32
  · simp only [hlow, hi, if_true, BitVec.getLsbD_not, Bits.getLsbD_lowMask,
      decide_true, Bool.true_and]
    by_cases hle : t.napotShift ≤ i
    · simp [hle, Nat.not_lt.2 hle]
    · simp [hle, Nat.not_le.1 hle]
  · have hmsb : (~~~Bits.lowMask 32 t.napotShift).msb = true := by
      rw [BitVec.msb_eq_getLsbD_last]
      simp
      omega
    rw [if_neg hlow, hmsb]
    simp [hi]
    omega

/-- What a NAPOT match compares. -/
theorem simpleMatch_napot (xlen : Xlen) (t : Trigger) (value : Reg) :
    t.simpleMatch xlen .napot value = true ↔
      ∀ i, i < 64 → t.napotShift ≤ i → value.getLsbD i = t.tdata2.getLsbD i := by
  rw [simpleMatch, beq_iff_eq]
  constructor
  · intro h i hi hle
    have hbit := congrArg (·.getLsbD i) h
    simpa [getLsbD_napotMatchMask t hi, hle] using hbit
  · intro h
    apply BitVec.eq_of_getLsbD_eq
    intro i hi
    rw [BitVec.getLsbD_and, BitVec.getLsbD_and, getLsbD_napotMatchMask t hi]
    by_cases hle : t.napotShift ≤ i
    · rw [h i hi hle]
    · simp [hle]

/-! ### The comparisons as they are meant -/

/-- The value agrees with `tdata2` on all bits above the lowest zero of `tdata2`. -/
def AgreesAboveZero (xlen : Xlen) (tdata2 value : Reg) : Prop :=
  ∀ i, i < xlen.bits → (∃ z, z < i ∧ tdata2.getLsbD z = false) → value.getLsbD i = tdata2.getLsbD i

/-- The comparisons of a trigger with a value of `xlen` bits. -/
structure Compares (xlen : Xlen) (t : Trigger) (value : Reg) : Prop where
  /-- the `1` that is shifted for the mask is an `int` -/
  shift : cto t.tdata2 + 1 < 32
  napot : t.simpleMatch xlen .napot value = true ↔ AgreesAboveZero xlen t.tdata2 value
  equal : t.simpleMatch xlen .equal value = true ↔
    value.setWidth xlen.bits = t.tdata2.setWidth xlen.bits
  ge : t.simpleMatch xlen .ge value = true ↔ t.tdata2.setWidth xlen.bits ≤ value.setWidth xlen.bits
  lt : t.simpleMatch xlen .lt value = true ↔ value.setWidth xlen.bits < t.tdata2.setWidth xlen.bits

/-- Being above the lowest zero is being above the trailing ones. -/
theorem exists_zero_below {x : Reg} {i : Nat} :
    (∃ z, z < i ∧ x.getLsbD z = false) ↔ Bits.trailingOnes x < i := by
  constructor
  · rintro ⟨z, hz, hzero⟩
    exact Nat.lt_of_le_of_lt (Bits.trailingOnes_le hzero) hz
  · intro h
    exact ⟨_, h, Bits.getLsbD_trailingOnes x⟩

variable (t : Trigger) (xlen : Xlen) (val value : Reg)

/-- With a zero among its low 31 bits, a NAPOT trigger matches what it is meant for. -/
theorem napot_of_zero (h : Bits.trailingOnes t.tdata2 < 31) (ht : xlen.zext t.tdata2 = t.tdata2) :
    t.simpleMatch xlen .napot (xlen.zext value) = true ↔
    AgreesAboveZero xlen t.tdata2 (xlen.zext value) := by
  have hshift : t.napotShift = Bits.trailingOnes t.tdata2 + 1 := Nat.mod_eq_of_lt (by omega)
  have hle : xlen.bits ≤ 64 := by cases xlen <;> decide
  rw [simpleMatch_napot, hshift]
  constructor
  · intro hmatch i hi hzero
    exact hmatch i (by omega) (exists_zero_below.1 hzero)
  · intro hagree i hi hlow
    by_cases hx : i < xlen.bits
    · exact hagree i hx (exists_zero_below.2 hlow)
    · rw [← ht, Xlen.getLsbD_zext, Xlen.getLsbD_zext]
      simp [hx]

/-- Without one it misses a value: the shift comes out below the lowest zero. -/
theorem exists_missed (h : 31 ≤ Bits.trailingOnes t.tdata2) (ht : xlen.zext t.tdata2 = t.tdata2) :
    ∃ value, AgreesAboveZero xlen t.tdata2 (xlen.zext value) ∧
    t.simpleMatch xlen .napot (xlen.zext value) ≠ true := by
  have hlt : t.napotShift < 32 := Nat.mod_lt _ (by omega)
  have hx : t.napotShift < xlen.bits := by
    cases xlen with
    | rv32 => exact hlt
    | rv64 => exact Nat.lt_of_lt_of_le hlt (by decide)
  have hbit : ∀ i, i < xlen.bits →
      (xlen.zext (t.tdata2 ^^^ BitVec.twoPow 64 t.napotShift)).getLsbD i =
        (t.tdata2.getLsbD i ^^ decide (t.napotShift = i)) := by
    intro i hi
    have hle : xlen.bits ≤ 64 := by cases xlen <;> decide
    rw [Xlen.getLsbD_zext, BitVec.getLsbD_xor, BitVec.getLsbD_twoPow]
    simp [hi, show t.napotShift < 64 by omega]
  refine ⟨t.tdata2 ^^^ BitVec.twoPow 64 t.napotShift, ?_, ?_⟩
  · intro i hi hzero
    have hlow := exists_zero_below.1 hzero
    rw [hbit i hi, decide_eq_false (by omega), Bool.xor_false]
  · intro hmatch
    have hsame := (simpleMatch_napot xlen t _).1 hmatch t.napotShift (by omega) (Nat.le_refl _)
    rw [hbit _ hx, decide_eq_true rfl, Bool.xor_true] at hsame
    exact Bool.not_ne_self _ hsame

/-- The other comparisons are those of the low bits as unsigned numbers. -/
theorem compares_of_zero (h : Bits.trailingOnes t.tdata2 < 31)
    (ht : xlen.zext t.tdata2 = t.tdata2) :
    Compares xlen t (xlen.zext value) := by
  have hnat : t.tdata2.toNat = (t.tdata2.setWidth xlen.bits).toNat := by
    rw [← Xlen.toNat_zext, ht]
  have hvalue : (xlen.zext value).toNat = ((xlen.zext value).setWidth xlen.bits).toNat := by
    rw [← Xlen.toNat_zext, Xlen.zext_zext]
  constructor
  case shift =>
    rw [cto_eq]
    omega
  case napot => exact napot_of_zero t xlen value h ht
  case equal =>
    rw [simpleMatch, beq_iff_eq, ← BitVec.toNat_inj, ← BitVec.toNat_inj, ← hnat, ← hvalue]
  case ge => rw [simpleMatch, decide_eq_true_iff, BitVec.le_def, BitVec.le_def, ← hnat, ← hvalue]
  case lt => rw [simpleMatch, decide_eq_true_iff, BitVec.lt_def, BitVec.lt_def, ← hnat, ← hvalue]

/-- **The comparisons are the ones that are meant exactly as long as `tdata2` has a zero among its
low 31 bits.** This is about every value that is compared, at both widths, and includes that the
shift behind the mask is defined. The comparisons that use no mask are right in any case. -/
theorem compares_iff : (∀ value, Compares xlen (t.tdata2Write (xlen.zext val)) (xlen.zext value)) ↔
    ∃ i, i < 31 ∧ val.getLsbD i = false := by
  have hwrite : (t.tdata2Write (xlen.zext val)).tdata2 = xlen.zext val := rfl
  have hidem := xlen.zext_zext val
  have hbits : 31 < xlen.bits := by cases xlen <;> decide
  have hzero : (∃ i, i < 31 ∧ val.getLsbD i = false) ↔ Bits.trailingOnes (xlen.zext val) < 31 := by
    rw [← exists_zero_below]
    refine exists_congr fun i => and_congr_right fun hi => ?_
    rw [Xlen.getLsbD_zext, decide_eq_true (by omega), Bool.true_and]
  rw [hzero]
  constructor
  · intro h
    by_contra hge
    obtain ⟨value, hagree, hmiss⟩ :=
      exists_missed (t.tdata2Write (xlen.zext val)) xlen (by rw [hwrite]; omega) hidem
    exact hmiss ((h value).napot.2 hagree)
  · intro h value
    exact compares_of_zero (t.tdata2Write (xlen.zext val)) xlen value
      (by rw [hwrite]; exact h) hidem

/-- A range of `2 ^ 32` addresses: the trigger does not match its first one. -/
theorem compares_wide_range : ¬ Compares .rv64 (reset.tdata2Write 0x7fffffff#64) 0#64 := by
  intro h
  have hagree : AgreesAboveZero .rv64 0x7fffffff#64 0#64 := by
    intro i hi hzero
    have hones : Bits.trailingOnes 0x7fffffff#64 = 31 :=
      (cto_eq 0x7fffffff#64).symm.trans (by decide)
    have hlow := exists_zero_below.1 hzero
    have hmask : 0x7fffffff#64 = Bits.lowMask 64 31 := rfl
    rw [hones] at hlow
    rw [hmask, Bits.getLsbD_lowMask, decide_eq_false (show ¬ i < 31 by omega),
      Bool.and_false, BitVec.getLsbD_zero]
  exact absurd (h.napot.2 hagree) (by decide)

end Trigger

end Nnemu

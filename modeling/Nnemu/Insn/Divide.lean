import Nnemu.Insn.Multiply

/-!
# Division

A division of the host has no result when the divisor is zero, and a signed one has none for the
least number and minus one. The handlers see to it that these never happen, half of them by
comparing and half of them by their width. `divide_exact` says so, and that quotient and remainder
obey the law of the M extension at the width of the operation.

The host's division is a partial function here (`Insn.sdiv` and so on return an `Option`), and the
handlers are written with the comparisons that guard it. So the theorem has two halves, that the
value is always there, and that it obeys the laws of the manual, with the results for division by
zero and for overflow that it fixes.
-/

namespace Nnemu

/-! ### What the instructions are for -/

namespace Quotient

variable {w : Nat}

/-- A signed quotient. -/
def div (a b : BitVec w) : BitVec w :=
  if b = 0#w then BitVec.allOnes w else a.sdiv b

/-- An unsigned quotient. -/
def divu (a b : BitVec w) : BitVec w :=
  if b = 0#w then BitVec.allOnes w else a / b

/-- A signed remainder. -/
def rem (a b : BitVec w) : BitVec w :=
  if b = 0#w then a else a.srem b

/-- An unsigned remainder. -/
def remu (a b : BitVec w) : BitVec w :=
  if b = 0#w then a else a % b

/-- **The law of signed division.** -/
structure SignedLaw (lhs rhs q r : BitVec w) : Prop where
  byZero : rhs = 0#w → q = BitVec.allOnes w ∧ r = lhs
  overflow : lhs = BitVec.intMin w → rhs = -1#w → rhs ≠ 0#w → q = lhs ∧ r = 0#w
  sum : lhs = q * rhs + r
  magnitude : rhs ≠ 0#w → r.toInt.natAbs < rhs.toInt.natAbs
  sign : rhs ≠ 0#w → r = 0#w ∨ r.toInt.sign = lhs.toInt.sign
  truncated : rhs ≠ 0#w → (lhs ≠ BitVec.intMin w ∨ rhs ≠ -1#w) → q.toInt = lhs.toInt.tdiv rhs.toInt

/-- **The law of unsigned division.** -/
structure UnsignedLaw (lhs rhs q r : BitVec w) : Prop where
  byZero : rhs = 0#w → q = BitVec.allOnes w ∧ r = lhs
  sum : lhs = q * rhs + r
  bound : rhs ≠ 0#w → r.toNat < rhs.toNat
  floor : rhs ≠ 0#w → q.toNat = lhs.toNat / rhs.toNat

theorem toInt_ne_zero {b : BitVec w} (h : b ≠ 0#w) : b.toInt ≠ 0 :=
  fun hz => h (BitVec.eq_of_toInt_eq (hz.trans BitVec.toInt_zero.symm))

theorem sdiv_eq_ofInt (a b : BitVec w) : a.sdiv b = BitVec.ofInt w (a.toInt.tdiv b.toInt) :=
  BitVec.eq_of_toInt_eq (by rw [BitVec.toInt_sdiv, BitVec.toInt_ofInt])

theorem srem_eq_ofInt (a b : BitVec w) : a.srem b = BitVec.ofInt w (a.toInt.tmod b.toInt) := by
  rw [← BitVec.toInt_srem, BitVec.ofInt_toInt]

/-- Quotient and remainder make up the dividend. -/
theorem sdiv_mul_add_srem (a b : BitVec w) : a.sdiv b * b + a.srem b = a := by
  have hb := BitVec.ofInt_toInt (x := b)
  calc a.sdiv b * b + a.srem b
      = BitVec.ofInt w (a.toInt.tdiv b.toInt) * BitVec.ofInt w b.toInt + BitVec.ofInt w
        (a.toInt.tmod b.toInt) := by
        rw [sdiv_eq_ofInt, srem_eq_ofInt, hb]
    _ = BitVec.ofInt w (a.toInt.tdiv b.toInt * b.toInt + a.toInt.tmod b.toInt) := by
        rw [← BitVec.ofInt_mul, ← BitVec.ofInt_add]
    _ = a := by rw [Int.add_comm, Int.tmod_add_tdiv_mul, BitVec.ofInt_toInt]

/-- The remainder of a division by minus one. -/
theorem srem_neg_one (a : BitVec w) : a.srem (-1#w) = 0#w := by
  apply BitVec.srem_zero_of_dvd
  rw [BitVec.neg_one_eq_allOnes, BitVec.toInt_allOnes]
  split
  · exact Int.neg_dvd.2 (Int.one_dvd _)
  · rename_i h
    obtain rfl : w = 0 := Nat.eq_zero_of_not_pos h
    rw [BitVec.of_length_zero (x := a)]
    exact dvd_rfl

/-- **The law of signed division**, at any width. -/
theorem signedLaw (lhs rhs : BitVec w) : SignedLaw lhs rhs (div lhs rhs) (rem lhs rhs) := by
  by_cases h : rhs = 0#w
  · rw [div, rem, if_pos h, if_pos h]
    refine ⟨fun _ => ⟨rfl, rfl⟩, fun _ _ hne => absurd h hne, ?_, fun hne => absurd h hne,
      fun hne => absurd h hne,
      fun hne => absurd h hne⟩
    rw [h, BitVec.mul_zero, BitVec.zero_add]
  · rw [div, rem, if_neg h, if_neg h]
    refine ⟨fun hz => absurd hz h, ?_, (sdiv_mul_add_srem lhs rhs).symm, fun _ => ?_, fun _ => ?_,
      fun _ hne => BitVec.toInt_sdiv_of_ne_or_ne lhs rhs hne⟩
    · rintro rfl rfl -
      exact ⟨BitVec.intMin_sdiv_neg_one, srem_neg_one _⟩
    · rw [BitVec.toInt_srem, Int.natAbs_tmod]
      exact Nat.mod_lt _ (Int.natAbs_pos.2 (toInt_ne_zero h))
    · -- a remainder has the sign of the dividend, or is zero
      by_cases hdvd : rhs.toInt ∣ lhs.toInt
      · exact Or.inl (BitVec.srem_zero_of_dvd hdvd)
      · rw [BitVec.toInt_srem, Int.sign_tmod, if_neg hdvd]
        exact Or.inr rfl

/-- **The law of unsigned division**, at any width. -/
theorem unsignedLaw (lhs rhs : BitVec w) : UnsignedLaw lhs rhs (divu lhs rhs) (remu lhs rhs) := by
  by_cases h : rhs = 0#w
  · rw [divu, remu, if_pos h, if_pos h]
    refine ⟨fun _ => ⟨rfl, rfl⟩, ?_, fun hne => absurd h hne, fun hne => absurd h hne⟩
    rw [h, BitVec.mul_zero, BitVec.zero_add]
  · rw [divu, remu, if_neg h, if_neg h]
    have hpos : 0 < rhs.toNat := Nat.pos_of_ne_zero fun hz => h (BitVec.eq_of_toNat_eq hz)
    refine ⟨fun hz => absurd hz h, ?_, fun _ => ?_, fun _ => BitVec.toNat_udiv⟩
    · apply BitVec.eq_of_toNat_eq
      rw [BitVec.toNat_add, BitVec.toNat_mul, BitVec.toNat_udiv, BitVec.toNat_umod,
        Nat.mod_add_mod, Nat.mul_comm,
        Nat.div_add_mod, Nat.mod_eq_of_lt lhs.isLt]
    · rw [BitVec.toNat_umod]
      exact Nat.mod_lt _ hpos

end Quotient

/-! ### Divisions of the host -/

namespace Host

/-- `/` of `sreg_t` -/
def sdiv (lhs rhs : Reg) : Option Reg :=
  if rhs = 0#64 ∨ (lhs = int64Min ∧ rhs = -1#64) then none else some (lhs.sdiv rhs)

/-- `%` of `sreg_t` -/
def srem (lhs rhs : Reg) : Option Reg :=
  if rhs = 0#64 ∨ (lhs = int64Min ∧ rhs = -1#64) then none else some (lhs.srem rhs)

/-- `/` of `reg_t` -/
def udiv (lhs rhs : Reg) : Option Reg :=
  if rhs = 0#64 then none else some (lhs / rhs)

/-- `%` of `reg_t` -/
def urem (lhs rhs : Reg) : Option Reg :=
  if rhs = 0#64 then none else some (lhs % rhs)

/-- A handler that looks for zero only. -/
def unlessZero (op : Reg → Reg → Option Reg) (extend : Reg → Reg) (lhs rhs atZero : Reg) :
    Option Reg :=
  if rhs = 0#64 then some atZero else (op lhs rhs).map extend

/-- A handler that looks for the least number and minus one, too. -/
def unlessOverflow (op : Reg → Reg → Option Reg) (extend : Reg → Reg)
    (lhs rhs atZero atOverflow : Reg) : Option Reg :=
  if rhs = 0#64 then some atZero
  else if lhs = int64Min ∧ rhs = -1#64 then some atOverflow
  else (op lhs rhs).map extend

end Host

namespace Frame

variable (f : Frame) (a b : Reg)

/-- What `div` writes. There is nothing when the host divides where it may not. -/
def divHost : Option Reg :=
  Host.unlessOverflow Host.sdiv f.sextXlen (f.sextXlen a) (f.sextXlen b)
    (BitVec.allOnes 64) (f.sextXlen a)

/-- What `rem` writes. -/
def remHost : Option Reg :=
  Host.unlessOverflow Host.srem f.sextXlen (f.sextXlen a) (f.sextXlen b) (f.sextXlen a) 0#64

/-- What `divu` writes. -/
def divuHost : Option Reg :=
  Host.unlessZero Host.udiv f.sextXlen (f.zextXlen a) (f.zextXlen b) (BitVec.allOnes 64)

/-- What `remu` writes. -/
def remuHost : Option Reg :=
  Host.unlessZero Host.urem f.sextXlen (f.zextXlen a) (f.zextXlen b) (f.sextXlen a)

end Frame

/-- What `divw` writes. -/
def divwHost (a b : Reg) : Option Reg :=
  Host.unlessZero Host.sdiv sext32 (sext32 a) (sext32 b) (BitVec.allOnes 64)

/-- What `remw` writes. -/
def remwHost (a b : Reg) : Option Reg :=
  Host.unlessZero Host.srem sext32 (sext32 a) (sext32 b) (sext32 a)

/-- What `divuw` writes. -/
def divuwHost (a b : Reg) : Option Reg :=
  Host.unlessZero Host.udiv sext32 (zext32 a) (zext32 b) (BitVec.allOnes 64)

/-- What `remuw` writes. -/
def remuwHost (a b : Reg) : Option Reg :=
  Host.unlessZero Host.urem sext32 (zext32 a) (zext32 b) (sext32 (zext32 a))

namespace Host

variable {lhs rhs : Reg} (extend : Reg → Reg) (atZero atOverflow : Reg)

/-! ### They are defined -/

variable {op : Reg → Reg → Option Reg} {quotient : Reg}

/-- A division that is guarded against zero has a result if the host has one there. -/
theorem unlessZero_eq (hop : rhs ≠ 0#64 → op lhs rhs = some quotient) :
    unlessZero op extend lhs rhs atZero =
      some (if rhs = 0#64 then atZero else extend quotient) := by
  rw [unlessZero]
  split_ifs with hzero
  · rfl
  · rw [hop hzero]
    rfl

/-- A division that is guarded against zero and overflow. -/
theorem unlessOverflow_eq
    (hop : rhs ≠ 0#64 → ¬(lhs = int64Min ∧ rhs = -1#64) → op lhs rhs = some quotient) :
    unlessOverflow op extend lhs rhs atZero atOverflow =
      some (if rhs = 0#64 then atZero else if lhs = int64Min ∧ rhs = -1#64 then atOverflow
        else extend quotient) := by
  rw [unlessOverflow]
  split_ifs with hzero hoverflow
  · rfl
  · rfl
  · rw [hop hzero hoverflow]
    rfl

theorem unlessOverflow_sdiv : unlessOverflow sdiv extend lhs rhs atZero atOverflow =
    some (if rhs = 0#64 then atZero else if lhs = int64Min ∧ rhs = -1#64 then atOverflow
      else extend (lhs.sdiv rhs)) :=
  unlessOverflow_eq _ _ _ fun hzero hoverflow => if_neg (not_or.2 ⟨hzero, hoverflow⟩)

theorem unlessOverflow_srem : unlessOverflow srem extend lhs rhs atZero atOverflow =
    some (if rhs = 0#64 then atZero else if lhs = int64Min ∧ rhs = -1#64 then atOverflow
      else extend (lhs.srem rhs)) :=
  unlessOverflow_eq _ _ _ fun hzero hoverflow => if_neg (not_or.2 ⟨hzero, hoverflow⟩)

theorem unlessZero_udiv : unlessZero udiv extend lhs rhs atZero =
    some (if rhs = 0#64 then atZero else extend (lhs / rhs)) :=
  unlessZero_eq _ _ fun hzero => if_neg hzero

theorem unlessZero_urem : unlessZero urem extend lhs rhs atZero =
    some (if rhs = 0#64 then atZero else extend (lhs % rhs)) :=
  unlessZero_eq _ _ fun hzero => if_neg hzero

/-- Words of 32 bits do not reach the least number of 64. -/
theorem unlessZero_sdiv (x y : BitVec 32) : unlessZero sdiv extend (held x) (held y) atZero =
    some (if held y = 0#64 then atZero else extend ((held x).sdiv (held y))) :=
  unlessZero_eq _ _ fun hzero => if_neg (not_or.2 ⟨hzero, fun h => Rv32.held_ne_intMin x h.1⟩)

theorem unlessZero_srem (x y : BitVec 32) : unlessZero srem extend (held x) (held y) atZero =
    some (if held y = 0#64 then atZero else extend ((held x).srem (held y))) :=
  unlessZero_eq _ _ fun hzero => if_neg (not_or.2 ⟨hzero, fun h => Rv32.held_ne_intMin x h.1⟩)

end Host

/-! ### Words of 32 bits -/

section

variable (x y : BitVec 32)

/-- A signed quotient of 32 bits, by a division of the host that cannot overflow. -/
theorem div_held : (if held y = 0#64 then BitVec.allOnes 64 else sext32 ((held x).sdiv (held y))) =
    held (Quotient.div x y) := by
  rw [Quotient.div, sext32_eq, Narrow.setWidth_sdiv x y (by decide)]
  by_cases h : y = 0#32
  · rw [if_pos (Rv32.held_eq_zero.2 h), if_pos h, Rv32.allOnes_held]
  · rw [if_neg (mt Rv32.held_eq_zero.1 h), if_neg h]

/-- The remainder beside it. -/
theorem rem_held : (if held y = 0#64 then held x else sext32 ((held x).srem (held y))) =
    held (Quotient.rem x y) := by
  rw [Quotient.rem, sext32_eq, Narrow.setWidth_srem x y (by decide)]
  by_cases h : y = 0#32
  · rw [if_pos (Rv32.held_eq_zero.2 h), if_pos h]
  · rw [if_neg (mt Rv32.held_eq_zero.1 h), if_neg h]

/-- An unsigned quotient of 32 bits. -/
theorem divu_held :
    (if y.setWidth 64 = 0#64 then BitVec.allOnes 64 else sext32 (x.setWidth 64 / y.setWidth 64)) =
    held (Quotient.divu x y) := by
  rw [Quotient.divu, sext32_eq, Narrow.setWidth_udiv x y (by decide)]
  by_cases h : y = 0#32
  · rw [if_pos (Rv32.setWidth_eq_zero.2 h), if_pos h, Rv32.allOnes_held]
  · rw [if_neg (mt Rv32.setWidth_eq_zero.1 h), if_neg h]

/-- The remainder beside it. -/
theorem remu_held :
    (if y.setWidth 64 = 0#64 then held x else sext32 (x.setWidth 64 % y.setWidth 64)) =
    held (Quotient.remu x y) := by
  rw [Quotient.remu, sext32_eq, Narrow.setWidth_umod x y (by decide)]
  by_cases h : y = 0#32
  · rw [if_pos (Rv32.setWidth_eq_zero.2 h), if_pos h]
  · rw [if_neg (mt Rv32.setWidth_eq_zero.1 h), if_neg h]

end

namespace Frame

variable (f : Frame) {ω ι : Type}

/-! ### Handlers -/

theorem sextXlen_rv64 (h : f.cfg.isa.xlen = .rv64) (x : Reg) : f.sextXlen x = x := by
  rw [sextXlen, Hart.sextXlen, h]

theorem zextXlen_rv64 (h : f.cfg.isa.xlen = .rv64) (x : Reg) : f.zextXlen x = x := by
  rw [zextXlen, h]
  rfl

theorem sextXlen_eq_sext32 (h : f.cfg.isa.xlen = .rv32) : f.sextXlen = sext32 :=
  funext (sextXlen_rv32 h)

/-- The least number over minus one is itself, as in the M extension. -/
theorem divHost_eq (a b : Reg) : f.divHost a b = some (f.atXlen Quotient.div a b) := by
  rw [divHost, Host.unlessOverflow_sdiv]
  cases h : f.cfg.isa.xlen with
  | rv32 =>
    -- the test for the least number never succeeds on words of 32 bits
    have hmin : ¬(held (a.setWidth 32) = int64Min ∧ held (b.setWidth 32) = -1#64) :=
      fun h => Rv32.held_ne_intMin _ h.1
    rw [atXlen_rv32 f h, sextXlen_eq_sext32 f h, sext32_eq a, sext32_eq b, if_neg hmin, div_held]
  | rv64 =>
    rw [atXlen_rv64 f h, sextXlen_rv64 f h, sextXlen_rv64 f h, sextXlen_rv64 f h, Quotient.div]
    split_ifs with hzero hoverflow
    · rfl
    · rw [hoverflow.1, hoverflow.2]
      exact congrArg some BitVec.intMin_sdiv_neg_one.symm
    · rfl

/-- `rem` at the width of the hart. -/
theorem remHost_eq (a b : Reg) : f.remHost a b = some (f.atXlen Quotient.rem a b) := by
  rw [remHost, Host.unlessOverflow_srem]
  cases h : f.cfg.isa.xlen with
  | rv32 =>
    have hmin : ¬(held (a.setWidth 32) = int64Min ∧ held (b.setWidth 32) = -1#64) :=
      fun h => Rv32.held_ne_intMin _ h.1
    rw [atXlen_rv32 f h, sextXlen_eq_sext32 f h, sext32_eq a, sext32_eq b, if_neg hmin, rem_held]
  | rv64 =>
    rw [atXlen_rv64 f h, sextXlen_rv64 f h, sextXlen_rv64 f h, sextXlen_rv64 f h, Quotient.rem]
    split_ifs with hzero hoverflow
    · rfl
    · rw [hoverflow.2, Quotient.srem_neg_one]
    · rfl

/-- `divu` at the width of the hart. -/
theorem divuHost_eq (a b : Reg) : f.divuHost a b = some (f.atXlen Quotient.divu a b) := by
  rw [divuHost, Host.unlessZero_udiv]
  cases h : f.cfg.isa.xlen with
  | rv32 =>
    rw [atXlen_rv32 f h, sextXlen_eq_sext32 f h, zextXlen_rv32 h, zextXlen_rv32 h,
      zext32, zext32, divu_held]
  | rv64 =>
    rw [atXlen_rv64 f h, sextXlen_rv64 f h, zextXlen_rv64 f h, zextXlen_rv64 f h, Quotient.divu]

theorem remuHost_eq (a b : Reg) : f.remuHost a b = some (f.atXlen Quotient.remu a b) := by
  rw [remuHost, Host.unlessZero_urem]
  cases h : f.cfg.isa.xlen with
  | rv32 =>
    rw [atXlen_rv32 f h, sextXlen_eq_sext32 f h, zextXlen_rv32 h, zextXlen_rv32 h,
      zext32, zext32, sext32_eq a, remu_held]
  | rv64 =>
    rw [atXlen_rv64 f h, sextXlen_rv64 f h, sextXlen_rv64 f h, zextXlen_rv64 f h,
      zextXlen_rv64 f h, Quotient.remu]

end Frame

/-- An operation of 32 bits: its operands are the low words. -/
def atWord (op : ∀ {w : Nat}, BitVec w → BitVec w → BitVec w) (a b : Reg) : Reg :=
  held (op (a.setWidth 32) (b.setWidth 32))

/-- `divw`, on words. -/
theorem divwHost_eq (a b : Reg) : divwHost a b = some (atWord Quotient.div a b) := by
  rw [divwHost, sext32_eq a, sext32_eq b, Host.unlessZero_sdiv, div_held, atWord]

theorem remwHost_eq (a b : Reg) : remwHost a b = some (atWord Quotient.rem a b) := by
  rw [remwHost, sext32_eq a, sext32_eq b, Host.unlessZero_srem, rem_held, atWord]

theorem divuwHost_eq (a b : Reg) : divuwHost a b = some (atWord Quotient.divu a b) := by
  rw [divuwHost, Host.unlessZero_udiv, zext32, zext32, divu_held, atWord]

theorem remuwHost_eq (a b : Reg) : remuwHost a b = some (atWord Quotient.remu a b) := by
  have hlow : sext32 (zext32 a) = held (a.setWidth 32) := by
    rw [sext32, zext32, Narrow.setWidth_setWidth _ (by decide)]
  rw [remuwHost, Host.unlessZero_urem, hlow, zext32, zext32, remu_held, atWord]

namespace Frame

variable (f : Frame) {ω ι : Type}

/-! ### Handlers -/

/-- The file of `div`. -/
theorem div_eq : (f.div : InsnM 64 ω ι Reg) = f.withM (f.regReg (f.atXlen Quotient.div)) :=
  congrArg (fun op => f.withM (f.regReg op))
    (funext₂ fun a b =>
      Option.some.inj ((Host.unlessOverflow_sdiv _ _ _).symm.trans (f.divHost_eq a b)))

theorem rem_eq : (f.rem : InsnM 64 ω ι Reg) = f.withM (f.regReg (f.atXlen Quotient.rem)) :=
  congrArg (fun op => f.withM (f.regReg op))
    (funext₂ fun a b =>
      Option.some.inj ((Host.unlessOverflow_srem _ _ _).symm.trans (f.remHost_eq a b)))

theorem divu_eq : (f.divu : InsnM 64 ω ι Reg) = f.withM (f.regReg (f.atXlen Quotient.divu)) :=
  congrArg (fun op => f.withM (f.regReg op))
    (funext₂ fun a b => Option.some.inj ((Host.unlessZero_udiv _ _).symm.trans (f.divuHost_eq a b)))

theorem remu_eq : (f.remu : InsnM 64 ω ι Reg) = f.withM (f.regReg (f.atXlen Quotient.remu)) :=
  congrArg (fun op => f.withM (f.regReg op))
    (funext₂ fun a b => Option.some.inj ((Host.unlessZero_urem _ _).symm.trans (f.remuHost_eq a b)))

theorem divw_eq :
    (f.divw : InsnM 64 ω ι Reg) = f.withM (f.onRv64 (f.regReg (atWord Quotient.div))) :=
  congrArg (fun op => f.withM (f.onRv64 (f.regReg op)))
    (funext₂ fun a b =>
      Option.some.inj ((Host.unlessZero_sdiv _ _ _ _).symm.trans (divwHost_eq a b)))

theorem remw_eq :
    (f.remw : InsnM 64 ω ι Reg) = f.withM (f.onRv64 (f.regReg (atWord Quotient.rem))) :=
  congrArg (fun op => f.withM (f.onRv64 (f.regReg op)))
    (funext₂ fun a b =>
      Option.some.inj ((Host.unlessZero_srem _ _ _ _).symm.trans (remwHost_eq a b)))

theorem divuw_eq :
    (f.divuw : InsnM 64 ω ι Reg) = f.withM (f.onRv64 (f.regReg (atWord Quotient.divu))) :=
  congrArg (fun op => f.withM (f.onRv64 (f.regReg op)))
    (funext₂ fun a b => Option.some.inj ((Host.unlessZero_udiv _ _).symm.trans (divuwHost_eq a b)))

theorem remuw_eq :
    (f.remuw : InsnM 64 ω ι Reg) = f.withM (f.onRv64 (f.regReg (atWord Quotient.remu))) :=
  congrArg (fun op => f.withM (f.onRv64 (f.regReg op)))
    (funext₂ fun a b => Option.some.inj ((Host.unlessZero_urem _ _).symm.trans (remuwHost_eq a b)))

/-- **Division is defined and obeys its law.** Every handler writes what its file comes to with
divisions of the host that have no result where they are undefined, so it never makes such a one.
What it writes is the quotient or the remainder at the width of the operation, and these obey the
laws of the M extension at every width. -/
theorem divide_exact :
    (∀ (f : Frame) (ω ι : Type),
      ((f.div : InsnM 64 ω ι Reg) = f.withM (f.regReg (f.atXlen Quotient.div)) ∧
        ∀ a b, f.divHost a b = some (f.atXlen Quotient.div a b)) ∧
      ((f.rem : InsnM 64 ω ι Reg) = f.withM (f.regReg (f.atXlen Quotient.rem)) ∧
        ∀ a b, f.remHost a b = some (f.atXlen Quotient.rem a b)) ∧
      ((f.divu : InsnM 64 ω ι Reg) = f.withM (f.regReg (f.atXlen Quotient.divu)) ∧
        ∀ a b, f.divuHost a b = some (f.atXlen Quotient.divu a b)) ∧
      ((f.remu : InsnM 64 ω ι Reg) = f.withM (f.regReg (f.atXlen Quotient.remu)) ∧
        ∀ a b, f.remuHost a b = some (f.atXlen Quotient.remu a b)) ∧
      ((f.divw : InsnM 64 ω ι Reg) = f.withM (f.onRv64 (f.regReg (atWord Quotient.div))) ∧
        ∀ a b, divwHost a b = some (atWord Quotient.div a b)) ∧
      ((f.remw : InsnM 64 ω ι Reg) = f.withM (f.onRv64 (f.regReg (atWord Quotient.rem))) ∧
        ∀ a b, remwHost a b = some (atWord Quotient.rem a b)) ∧
      ((f.divuw : InsnM 64 ω ι Reg) = f.withM (f.onRv64 (f.regReg (atWord Quotient.divu))) ∧
        ∀ a b, divuwHost a b = some (atWord Quotient.divu a b)) ∧
      ((f.remuw : InsnM 64 ω ι Reg) = f.withM (f.onRv64 (f.regReg (atWord Quotient.remu))) ∧
        ∀ a b, remuwHost a b = some (atWord Quotient.remu a b))) ∧
    ∀ (w : Nat) (lhs rhs : BitVec w),
    Quotient.SignedLaw lhs rhs (Quotient.div lhs rhs) (Quotient.rem lhs rhs) ∧
      Quotient.UnsignedLaw lhs rhs (Quotient.divu lhs rhs) (Quotient.remu lhs rhs) := by
  refine ⟨fun f ω ι => ⟨?_, ?_, ?_, ?_, ?_, ?_, ?_, ?_⟩, fun w lhs rhs =>
    ⟨Quotient.signedLaw lhs rhs, Quotient.unsignedLaw lhs rhs⟩⟩
  · exact ⟨f.div_eq, f.divHost_eq⟩
  · exact ⟨f.rem_eq, f.remHost_eq⟩
  · exact ⟨f.divu_eq, f.divuHost_eq⟩
  · exact ⟨f.remu_eq, f.remuHost_eq⟩
  · exact ⟨f.divw_eq, divwHost_eq⟩
  · exact ⟨f.remw_eq, remwHost_eq⟩
  · exact ⟨f.divuw_eq, divuwHost_eq⟩
  · exact ⟨f.remuw_eq, remuwHost_eq⟩

end Frame

end Nnemu

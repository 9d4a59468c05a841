import Mathlib.Algebra.Group.Nat.Defs
import Mathlib.Tactic.Tauto

/-!
# Registers, access types and privilege levels

The words every other file uses: the 64-bit `reg_t` of the simulator, the three access types of the
memory management unit, the privilege encodings and the two register widths. Constants keep the
spelling of `encoding.h`, in lower camel case.
-/

namespace Nnemu

/-- `reg_t`: every CSR, address and page-table entry is held in 64 bits, also on RV32. -/
abbrev Reg := BitVec 64

/-- `access_type`. -/
inductive AccessType where
  | load
  | store
  | fetch
deriving DecidableEq, Repr

/-- The two values of `xlen`. -/
inductive Xlen where
  | rv32
  | rv64
deriving DecidableEq, Repr

/-- The number of bits of an integer register. -/
def Xlen.bits : Xlen → Nat
  | rv32 => 32
  | rv64 => 64

/-- `zext_xlen(x)`: keep the low `xlen` bits. -/
def Xlen.zext (xlen : Xlen) (x : Reg) : Reg :=
  match xlen with
  | .rv32 => x &&& 0xffffffff#64
  | .rv64 => x

/-! ### Privilege levels -/

/-- `PRV_U` -/
def prvU : Reg := 0#64
/-- `PRV_S` -/
def prvS : Reg := 1#64
/-- `PRV_M` -/
def prvM : Reg := 3#64

/-! ### Fields -/

/-- `x & mask` read as a condition. -/
def hasBits {w : Nat} (x mask : BitVec w) : Bool :=
  x &&& mask != 0#w

@[simp] theorem hasBits_zero {w : Nat} (x : BitVec w) : hasBits x 0#w = false := by
  simp [hasBits]

/-- A bit of the mask is found in a disjunction when it is found in one of its parts. -/
theorem hasBits_or {w : Nat} (x y mask : BitVec w) :
    hasBits (x ||| y) mask = (hasBits x mask || hasBits y mask) := by
  rw [hasBits, hasBits, hasBits, BitVec.and_comm, BitVec.and_or_distrib_left,
    BitVec.and_comm mask x,
    BitVec.and_comm mask y]
  generalize x &&& mask = a
  generalize y &&& mask = b
  rw [Bool.eq_iff_iff]
  simp only [bne_iff_ne, Bool.or_eq_true, ne_eq, BitVec.or_eq_zero_iff]
  tauto

/-- Masking a word first restricts the bits that are looked for. -/
theorem hasBits_and {w : Nat} (x m mask : BitVec w) :
    hasBits (x &&& m) mask = hasBits x (m &&& mask) := by
  rw [hasBits, hasBits, BitVec.and_assoc]

/-- The lowest set bit of a mask, `(mask) & ~((mask) << 1)`, which both field macros scale by. -/
def fieldUnit {w : Nat} (mask : BitVec w) : BitVec w :=
  mask &&& ~~~(mask <<< 1)

/-- `get_field(reg, mask)` -/
def getField {w : Nat} (reg mask : BitVec w) : BitVec w :=
  (reg &&& mask) / fieldUnit mask

/-- `set_field(reg, mask, val)` -/
def setField {w : Nat} (reg mask val : BitVec w) : BitVec w :=
  (reg &&& ~~~mask) ||| ((val * fieldUnit mask) &&& mask)

/-- Writing zero to a field clears it and nothing else. -/
@[simp] theorem setField_zero {w : Nat} (reg mask : BitVec w) :
    setField reg mask 0#w = reg &&& ~~~mask := by
  simp [setField]

end Nnemu

import Nnemu.Encoding

/-!
# Instruction words for the debugger

The encoders of `opcodes.h`. Registers and immediates are `unsigned`, of which the encoders take the
bits that they need.
-/

namespace Nnemu

namespace Opcodes

/-- `ZERO` -/
def zero : BitVec 32 := 0#32
/-- `S0` -/
def s0 : BitVec 32 := 8#32

/-- `bits(value, hi, lo)` -/
def bits (value : BitVec 32) (hi lo : Nat) : BitVec 32 :=
  (value >>> lo) &&& ((1#32 <<< (hi + 1 - lo)) - 1#32)

/-- `bit(value, b)` -/
def bit (value : BitVec 32) (b : Nat) : BitVec 32 :=
  (value >>> b) &&& 1#32

def jal (rd imm : BitVec 32) : BitVec 32 :=
  (bit imm 20 <<< 31) ||| (bits imm 10 1 <<< 21) ||| (bit imm 11 <<< 20) |||
    (bits imm 19 12 <<< 12) |||
    (rd <<< 7) ||| 0x6f#32

/-- The stores of `src`, which differ in the last word. -/
def storeWord (src base offset matchBits : BitVec 32) : BitVec 32 :=
  (bits offset 11 5 <<< 25) ||| (src <<< 20) ||| (base <<< 15) ||| (bits offset 4 0 <<< 7) |||
    matchBits

def sw (src base offset : BitVec 32) : BitVec 32 := storeWord src base offset 0x2023#32
def sd (src base offset : BitVec 32) : BitVec 32 := storeWord src base offset 0x3023#32
def fsw (src base offset : BitVec 32) : BitVec 32 := storeWord (bits src 4 0) base offset 0x2027#32
def fsd (src base offset : BitVec 32) : BitVec 32 := storeWord (bits src 4 0) base offset 0x3027#32

/-- The loads to `rd`, which differ in the last word. -/
def loadWord (rd base offset matchBits : BitVec 32) : BitVec 32 :=
  (bits offset 11 0 <<< 20) ||| (base <<< 15) ||| (bits rd 4 0 <<< 7) ||| matchBits

def lw (rd base offset : BitVec 32) : BitVec 32 := loadWord rd base offset 0x2003#32
def ld (rd base offset : BitVec 32) : BitVec 32 := loadWord rd base offset 0x3003#32
def flw (dest base offset : BitVec 32) : BitVec 32 := loadWord dest base offset 0x2007#32
def fld (dest base offset : BitVec 32) : BitVec 32 := loadWord dest base offset 0x3007#32

def csrw (source csr : BitVec 32) : BitVec 32 := (csr <<< 20) ||| (source <<< 15) ||| 0x1073#32
def csrr (rd csr : BitVec 32) : BitVec 32 := (csr <<< 20) ||| (rd <<< 7) ||| 0x2073#32
def csrrs (rd rs1 csr : BitVec 32) : BitVec 32 :=
  (csr <<< 20) ||| (rs1 <<< 15) ||| (rd <<< 7) ||| 0x2073#32

def lui (dest imm : BitVec 32) : BitVec 32 := (bits imm 19 0 <<< 12) ||| (dest <<< 7) ||| 0x37#32

def csrsi (csr imm : BitVec 32) : BitVec 32 := (csr <<< 20) ||| (bits imm 4 0 <<< 15) ||| 0x6073#32

/-- The operations on `src` and an immediate, which differ in the last word. -/
def immWord (dest src imm matchBits : BitVec 32) : BitVec 32 :=
  (bits imm 11 0 <<< 20) ||| (src <<< 15) ||| (dest <<< 7) ||| matchBits

def addi (dest src imm : BitVec 32) : BitVec 32 := immWord dest src imm 0x13#32
def xori (dest src imm : BitVec 32) : BitVec 32 := immWord dest src imm 0x4013#32

def srli (dest src shamt : BitVec 32) : BitVec 32 :=
  (bits shamt 4 0 <<< 20) ||| (src <<< 15) ||| (dest <<< 7) ||| 0x5013#32

def ebreak : BitVec 32 := 0x100073#32

/-! The words that an assembler gives for `jal zero, . - 584` and `csrrs zero, mstatus, s0`. -/

example : jal zero 0xfffffdb8#32 = 0xdb9ff06f#32 := by decide
example : csrrs zero s0 0x300#32 = 0x30042073#32 := by decide

end Opcodes

end Nnemu

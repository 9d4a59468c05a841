import Nnemu.Insn.Format

/-!
# The C extension

What the manual says of 16-bit instructions: the tables of the three quadrants, the places of the
immediates and the 32-bit instruction that each one stands for. Nothing here is taken from the
handlers. Hints are the instructions they look like.
-/

namespace Nnemu

/-- What a 16-bit word means. -/
inductive Expansion where
  /-- the same as this word, an encoding of a base instruction -/
  | base (op : Opcode) (word : BitVec 32)
  /-- reserved or, on RV32, left to custom extensions -/
  | reserved
  /-- a load or store of a floating-point register, or part of a longer instruction -/
  | other

namespace Rvc

variable (w : BitVec 16)

/-! ### Fields -/

/-- `rd`, `rs1` -/
def rd : BitVec 5 := w.extractLsb' 7 5

/-- `rs2` -/
def rs2 : BitVec 5 := w.extractLsb' 2 5

/-- `rd'`, `rs1'` in the middle of the word: x8 to x15 -/
def rs1' : BitVec 5 := 0b01#2 ++ w.extractLsb' 7 3

/-- `rd'`, `rs2'` at its end -/
def rs2' : BitVec 5 := 0b01#2 ++ w.extractLsb' 2 3

/-- `imm[5] | imm[4:0]` -/
def imm6 : BitVec 6 := w.extractLsb' 12 1 ++ w.extractLsb' 2 5

/-- c.addi4spn: `nzuimm[5:4|9:6|2|3]` -/
def uimm4spn : BitVec 10 :=
  w.extractLsb' 7 4 ++ (w.extractLsb' 11 2 ++ (w.extractLsb' 5 1 ++ (w.extractLsb' 6 1 ++ 0#2)))

/-- c.addi16sp: `nzimm[9] | nzimm[4|6|8:7|5]` -/
def imm16sp : BitVec 10 :=
  w.extractLsb' 12 1 ++
    (w.extractLsb' 3 2 ++ (w.extractLsb' 5 1 ++ (w.extractLsb' 2 1 ++ (w.extractLsb' 6 1 ++ 0#4))))

/-- c.lw, c.sw: `uimm[5:3] | uimm[2|6]` -/
def uimmW : BitVec 7 :=
  w.extractLsb' 5 1 ++ (w.extractLsb' 10 3 ++ (w.extractLsb' 6 1 ++ 0#2))

/-- c.ld, c.sd: `uimm[5:3] | uimm[7:6]` -/
def uimmD : BitVec 8 :=
  w.extractLsb' 5 2 ++ (w.extractLsb' 10 3 ++ 0#3)

/-- c.lwsp: `uimm[5] | uimm[4:2|7:6]` -/
def uimmLwsp : BitVec 8 :=
  w.extractLsb' 2 2 ++ (w.extractLsb' 12 1 ++ (w.extractLsb' 4 3 ++ 0#2))

/-- c.ldsp: `uimm[5] | uimm[4:3|8:6]` -/
def uimmLdsp : BitVec 9 :=
  w.extractLsb' 2 3 ++ (w.extractLsb' 12 1 ++ (w.extractLsb' 5 2 ++ 0#3))

/-- c.swsp: `uimm[5:2|7:6]` -/
def uimmSwsp : BitVec 8 :=
  w.extractLsb' 7 2 ++ (w.extractLsb' 9 4 ++ 0#2)

/-- c.sdsp: `uimm[5:3|8:6]` -/
def uimmSdsp : BitVec 9 :=
  w.extractLsb' 7 3 ++ (w.extractLsb' 10 3 ++ 0#3)

/-- c.j, c.jal: `imm[11|4|9:8|10|6|7|3:1|5]`, in halfwords -/
def immJ : BitVec 11 :=
  w.extractLsb' 12 1 ++
    (w.extractLsb' 8 1 ++ (w.extractLsb' 9 2 ++ (w.extractLsb' 6 1 ++ (w.extractLsb' 7 1 ++
    (w.extractLsb' 2 1 ++ (w.extractLsb' 11 1 ++ w.extractLsb' 3 3))))))

/-- c.beqz, c.bnez: `imm[8|4:3] | imm[7:6|2:1|5]`, in halfwords -/
def immB : BitVec 8 :=
  w.extractLsb' 12 1 ++
    (w.extractLsb' 5 2 ++ (w.extractLsb' 2 1 ++ (w.extractLsb' 10 2 ++ w.extractLsb' 3 2)))

/-! ### Opcodes -/

/-- OP-IMM -/
def opImm : BitVec 7 := 0b0010011#7
/-- OP-IMM-32 -/
def opImm32 : BitVec 7 := 0b0011011#7
/-- OP -/
def opReg : BitVec 7 := 0b0110011#7
/-- OP-32 -/
def opReg32 : BitVec 7 := 0b0111011#7
/-- LOAD -/
def opLoad : BitVec 7 := 0b0000011#7
/-- STORE -/
def opStore : BitVec 7 := 0b0100011#7
/-- BRANCH -/
def opBranch : BitVec 7 := 0b1100011#7
/-- JAL -/
def opJal : BitVec 7 := 0b1101111#7
/-- JALR -/
def opJalr : BitVec 7 := 0b1100111#7
/-- LUI -/
def opLui : BitVec 7 := 0b0110111#7

/-- x0 -/
def x0 : BitVec 5 := 0#5
/-- x1, the link register -/
def x1 : BitVec 5 := 1#5
/-- x2, the stack pointer -/
def x2 : BitVec 5 := 2#5

/-! ### Base instructions -/

open Insn

/-- addi rd, rs1, imm -/
def addi (rd rs1 : BitVec 5) (imm : BitVec 12) : Expansion :=
  .base .addi (iType imm rs1 0b000#3 rd opImm)

/-- addiw rd, rs1, imm -/
def addiw (rd rs1 : BitVec 5) (imm : BitVec 12) : Expansion :=
  .base .addiw (iType imm rs1 0b000#3 rd opImm32)

/-- andi rd, rs1, imm -/
def andi (rd rs1 : BitVec 5) (imm : BitVec 12) : Expansion :=
  .base .andi (iType imm rs1 0b111#3 rd opImm)

/-- slli rd, rs1, shamt -/
def slli (rd rs1 : BitVec 5) (shamt : BitVec 6) : Expansion :=
  .base .slli (iType (0b000000#6 ++ shamt) rs1 0b001#3 rd opImm)

/-- srli rd, rs1, shamt -/
def srli (rd rs1 : BitVec 5) (shamt : BitVec 6) : Expansion :=
  .base .srli (iType (0b000000#6 ++ shamt) rs1 0b101#3 rd opImm)

/-- srai rd, rs1, shamt -/
def srai (rd rs1 : BitVec 5) (shamt : BitVec 6) : Expansion :=
  .base .srai (iType (0b010000#6 ++ shamt) rs1 0b101#3 rd opImm)

/-- lui rd, imm -/
def lui (rd : BitVec 5) (imm : BitVec 20) : Expansion := .base .lui (uType imm rd opLui)

/-- jal rd, offset -/
def jal (rd : BitVec 5) (offset : BitVec 20) : Expansion := .base .jal (jType offset rd opJal)

/-- jalr rd, 0(rs1) -/
def jalr (rd rs1 : BitVec 5) : Expansion := .base .jalr (iType 0#12 rs1 0b000#3 rd opJalr)

/-- beq rs1, x0, offset -/
def beqz (rs1 : BitVec 5) (offset : BitVec 12) : Expansion :=
  .base .beq (bType offset x0 rs1 0b000#3 opBranch)

/-- bne rs1, x0, offset -/
def bnez (rs1 : BitVec 5) (offset : BitVec 12) : Expansion :=
  .base .bne (bType offset x0 rs1 0b001#3 opBranch)

/-- ebreak -/
def ebreak : Expansion := .base .ebreak 0x00100073#32

/-! ### The tables -/

/-- An instruction of RV64 at the place of a floating-point access of RV32. -/
def onRv64 (xlen : Xlen) (e : Expansion) : Expansion :=
  match xlen with
  | .rv32 => .other
  | .rv64 => e

/-- Is the shift amount of a shift too large? -/
def longShift (xlen : Xlen) : Bool :=
  xlen == .rv32 && (imm6 w).msb

/-- An instruction for which one value of a field is reserved. -/
def reservedIf (b : Bool) (e : Expansion) : Expansion :=
  if b then .reserved else e

/-- Quadrant 0. -/
def quadrant0 (xlen : Xlen) : Expansion :=
  match w.extractLsb' 13 3 with
  | 0b000#3 => reservedIf (uimm4spn w == 0#10) (addi (rs2' w) x2 ((uimm4spn w).setWidth 12))
  | 0b010#3 => .base .lw (iType ((uimmW w).setWidth 12) (rs1' w) 0b010#3 (rs2' w) opLoad)
  | 0b011#3 => onRv64 xlen
    (.base .ld (iType ((uimmD w).setWidth 12) (rs1' w) 0b011#3 (rs2' w) opLoad))
  | 0b100#3 => .reserved
  | 0b110#3 => .base .sw (sType ((uimmW w).setWidth 12) (rs2' w) (rs1' w) 0b010#3 opStore)
  | 0b111#3 => onRv64 xlen
    (.base .sd (sType ((uimmD w).setWidth 12) (rs2' w) (rs1' w) 0b011#3 opStore))
  | _ => .other

/-- MISC-ALU with two registers. -/
def registers (xlen : Xlen) : Expansion :=
  let reg (op : Opcode) (funct7 : BitVec 7) (funct3 : BitVec 3) (opcode : BitVec 7) : Expansion :=
    .base op (rType funct7 (rs2' w) (rs1' w) funct3 (rs1' w) opcode)
  match w.extractLsb' 12 1, w.extractLsb' 5 2 with
  | 0b0#1, 0b00#2 => reg .sub 0b0100000#7 0b000#3 opReg
  | 0b0#1, 0b01#2 => reg .xor 0b0000000#7 0b100#3 opReg
  | 0b0#1, 0b10#2 => reg .or 0b0000000#7 0b110#3 opReg
  | 0b0#1, 0b11#2 => reg .and 0b0000000#7 0b111#3 opReg
  | 0b1#1, 0b00#2 => reservedIf (xlen == .rv32) (reg .subw 0b0100000#7 0b000#3 opReg32)
  | 0b1#1, 0b01#2 => reservedIf (xlen == .rv32) (reg .addw 0b0000000#7 0b000#3 opReg32)
  | _, _ => .reserved

/-- MISC-ALU. -/
def miscAlu (xlen : Xlen) : Expansion :=
  match w.extractLsb' 10 2 with
  | 0b00#2 => reservedIf (longShift w xlen) (srli (rs1' w) (rs1' w) (imm6 w))
  | 0b01#2 => reservedIf (longShift w xlen) (srai (rs1' w) (rs1' w) (imm6 w))
  | 0b10#2 => andi (rs1' w) (rs1' w) ((imm6 w).signExtend 12)
  | _ => registers w xlen

/-- Quadrant 1. -/
def quadrant1 (xlen : Xlen) : Expansion :=
  match w.extractLsb' 13 3 with
  | 0b000#3 => addi (rd w) (rd w) ((imm6 w).signExtend 12)
  | 0b001#3 =>
    match xlen with
    | .rv32 => jal x1 ((immJ w).signExtend 20)
    | .rv64 => reservedIf (rd w == x0) (addiw (rd w) (rd w) ((imm6 w).signExtend 12))
  | 0b010#3 => addi (rd w) x0 ((imm6 w).signExtend 12)
  | 0b011#3 =>
    if rd w = x2 then reservedIf (imm16sp w == 0#10) (addi x2 x2 ((imm16sp w).signExtend 12))
    else reservedIf (imm6 w == 0#6) (lui (rd w) ((imm6 w).signExtend 20))
  | 0b100#3 => miscAlu w xlen
  | 0b101#3 => jal x0 ((immJ w).signExtend 20)
  | 0b110#3 => beqz (rs1' w) ((immB w).signExtend 12)
  | _ => bnez (rs1' w) ((immB w).signExtend 12)

/-- The jumps, the moves and `c.ebreak`. -/
def jumps : Expansion :=
  match w.extractLsb' 12 1 with
  | 0b0#1 =>
    if rs2 w = x0 then reservedIf (rd w == x0) (jalr x0 (rd w))
    else .base .add (rType 0b0000000#7 (rs2 w) x0 0b000#3 (rd w) opReg)
  | _ =>
    if rs2 w = x0 then if rd w = x0 then ebreak else jalr x1 (rd w)
    else .base .add (rType 0b0000000#7 (rs2 w) (rd w) 0b000#3 (rd w) opReg)

/-- Quadrant 2. -/
def quadrant2 (xlen : Xlen) : Expansion :=
  match w.extractLsb' 13 3 with
  | 0b000#3 => reservedIf (longShift w xlen) (slli (rd w) (rd w) (imm6 w))
  | 0b010#3 => reservedIf (rd w == x0)
    (.base .lw (iType ((uimmLwsp w).setWidth 12) x2 0b010#3 (rd w) opLoad))
  | 0b011#3 =>
    onRv64 xlen (reservedIf (rd w == x0)
      (.base .ld (iType ((uimmLdsp w).setWidth 12) x2 0b011#3 (rd w) opLoad)))
  | 0b100#3 => jumps w
  | 0b110#3 => .base .sw (sType ((uimmSwsp w).setWidth 12) (rs2 w) x2 0b010#3 opStore)
  | 0b111#3 => onRv64 xlen (.base .sd (sType ((uimmSdsp w).setWidth 12) (rs2 w) x2 0b011#3 opStore))
  | _ => .other

/-- What a 16-bit word means. -/
def expand (xlen : Xlen) : Expansion :=
  match w.extractLsb' 0 2 with
  | 0b00#2 => quadrant0 w xlen
  | 0b01#2 => quadrant1 w xlen
  | 0b10#2 => quadrant2 w xlen
  | _ => .other

end Rvc

end Nnemu

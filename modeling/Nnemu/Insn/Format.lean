import Nnemu.Insn.Encoding
import Nnemu.Insn.Fields

/-!
# Instruction formats

The formats of 32-bit instructions as a manual draws them, from the highest bit to the lowest, and
what the decoders of `insn_t` find in them. Offsets of branches and jumps are counted in halfwords.

A format is an append of its fields, so that a decoder that cuts with shifts and masks is compared
with it by `extractLsb'` alone. The immediates of stores, branches and jumps are in pieces; that the
decoders put them together in the right order is what the lemmas of this file say.
-/

namespace Nnemu

namespace Insn

/-! ### Formats -/

/-- R: `funct7 | rs2 | rs1 | funct3 | rd | opcode` -/
def rType (funct7 : BitVec 7) (rs2 rs1 : BitVec 5) (funct3 : BitVec 3)
    (rd : BitVec 5) (opcode : BitVec 7) : BitVec 32 :=
  funct7 ++ rs2 ++ rs1 ++ funct3 ++ rd ++ opcode

/-- I: `imm[11:0] | rs1 | funct3 | rd | opcode` -/
def iType (imm : BitVec 12) (rs1 : BitVec 5) (funct3 : BitVec 3) (rd : BitVec 5)
    (opcode : BitVec 7) : BitVec 32 :=
  imm ++ rs1 ++ funct3 ++ rd ++ opcode

/-- S: `imm[11:5] | rs2 | rs1 | funct3 | imm[4:0] | opcode` -/
def sType (imm : BitVec 12) (rs2 rs1 : BitVec 5) (funct3 : BitVec 3) (opcode : BitVec 7) :
    BitVec 32 :=
  rType (imm.extractLsb' 5 7) rs2 rs1 funct3 (imm.extractLsb' 0 5) opcode

/-- B: `imm[12] | imm[10:5] | rs2 | rs1 | funct3 | imm[4:1] | imm[11] | opcode` -/
def bType (imm : BitVec 12) (rs2 rs1 : BitVec 5) (funct3 : BitVec 3) (opcode : BitVec 7) :
    BitVec 32 :=
  rType (imm.extractLsb' 11 1 ++ imm.extractLsb' 4 6) rs2 rs1 funct3
    (imm.extractLsb' 0 4 ++ imm.extractLsb' 10 1) opcode

/-- U: `imm[31:12] | rd | opcode` -/
def uType (imm : BitVec 20) (rd : BitVec 5) (opcode : BitVec 7) : BitVec 32 :=
  imm ++ rd ++ opcode

/-- J: `imm[20] | imm[10:1] | imm[11] | imm[19:12] | rd | opcode` -/
def jType (imm : BitVec 20) (rd : BitVec 5) (opcode : BitVec 7) : BitVec 32 :=
  uType (imm.extractLsb' 19 1 ++ imm.extractLsb' 0 10 ++ imm.extractLsb' 10 1 ++
    imm.extractLsb' 11 8) rd opcode

/-! ### Registers -/

variable {funct7 : BitVec 7} {rs2' rs1' rd' : BitVec 5} {funct3 : BitVec 3} {opcode : BitVec 7}

theorem rd_rType : rd ((rType funct7 rs2' rs1' funct3 rd' opcode).setWidth 64) =
    rd'.setWidth 64 := by
  rw [rd, x_setWidth (by decide) (by decide), rType]
  simp (disch := decide) only
    [BitVec.extractLsb'_append_eq_of_le, BitVec.extractLsb'_append_eq_of_add_le,
    Nat.reduceSub, BitVec.extractLsb'_eq_self]

theorem rs1_rType : rs1 ((rType funct7 rs2' rs1' funct3 rd' opcode).setWidth 64) =
    rs1'.setWidth 64 := by
  rw [rs1, x_setWidth (by decide) (by decide), rType]
  simp (disch := decide) only
    [BitVec.extractLsb'_append_eq_of_le, BitVec.extractLsb'_append_eq_of_add_le,
    Nat.reduceSub, BitVec.extractLsb'_eq_self]

theorem rs2_rType : rs2 ((rType funct7 rs2' rs1' funct3 rd' opcode).setWidth 64) =
    rs2'.setWidth 64 := by
  rw [rs2, x_setWidth (by decide) (by decide), rType]
  simp (disch := decide) only
    [BitVec.extractLsb'_append_eq_of_le, BitVec.extractLsb'_append_eq_of_add_le,
    Nat.reduceSub, BitVec.extractLsb'_eq_self]

variable {imm : BitVec 12}

theorem rd_iType : rd ((iType imm rs1' funct3 rd' opcode).setWidth 64) = rd'.setWidth 64 := by
  rw [rd, x_setWidth (by decide) (by decide), iType]
  simp (disch := decide) only
    [BitVec.extractLsb'_append_eq_of_le, BitVec.extractLsb'_append_eq_of_add_le,
    Nat.reduceSub, BitVec.extractLsb'_eq_self]

theorem rs1_iType : rs1 ((iType imm rs1' funct3 rd' opcode).setWidth 64) = rs1'.setWidth 64 := by
  rw [rs1, x_setWidth (by decide) (by decide), iType]
  simp (disch := decide) only
    [BitVec.extractLsb'_append_eq_of_le, BitVec.extractLsb'_append_eq_of_add_le,
    Nat.reduceSub, BitVec.extractLsb'_eq_self]

theorem rs1_sType : rs1 ((sType imm rs2' rs1' funct3 opcode).setWidth 64) = rs1'.setWidth 64 :=
  rs1_rType

theorem rs2_sType : rs2 ((sType imm rs2' rs1' funct3 opcode).setWidth 64) = rs2'.setWidth 64 :=
  rs2_rType

theorem rs1_bType : rs1 ((bType imm rs2' rs1' funct3 opcode).setWidth 64) = rs1'.setWidth 64 :=
  rs1_rType

theorem rs2_bType : rs2 ((bType imm rs2' rs1' funct3 opcode).setWidth 64) = rs2'.setWidth 64 :=
  rs2_rType

variable {imm20 : BitVec 20}

theorem rd_uType : rd ((uType imm20 rd' opcode).setWidth 64) = rd'.setWidth 64 := by
  rw [rd, x_setWidth (by decide) (by decide), uType]
  simp (disch := decide) only
    [BitVec.extractLsb'_append_eq_of_le, BitVec.extractLsb'_append_eq_of_add_le,
    Nat.reduceSub, BitVec.extractLsb'_eq_self]

theorem rd_jType : rd ((jType imm20 rd' opcode).setWidth 64) = rd'.setWidth 64 :=
  rd_uType

/-! ### Immediates -/

theorem iImm_iType : iImm ((iType imm rs1' funct3 rd' opcode).setWidth 64) = imm.signExtend 64 := by
  rw [iImm, xs_setWidth (by decide) (by decide), iType]
  simp (disch := decide) only
    [BitVec.extractLsb'_append_eq_of_le, Nat.reduceSub, BitVec.extractLsb'_eq_self]

theorem uImm_uType : uImm ((uType imm20 rd' opcode).setWidth 64) = imm20.signExtend 64 <<< 12 := by
  rw [uImm, xs_setWidth (by decide) (by decide), uType]
  simp (disch := decide) only
    [BitVec.extractLsb'_append_eq_of_le, Nat.reduceSub, BitVec.extractLsb'_eq_self]

theorem sImm_sType : sImm ((sType imm rs2' rs1' funct3 opcode).setWidth 64) =
    imm.signExtend 64 := by
  rw [sImm, x_setWidth (by decide) (by decide), xs_setWidth (by decide) (by decide), sType, rType,
    Bits.add_shiftLeft_signExtend (by decide)]
  simp (disch := decide) only
    [BitVec.extractLsb'_append_eq_of_le, BitVec.extractLsb'_append_eq_of_add_le,
    Nat.reduceSub, BitVec.extractLsb'_eq_self]
  rw [BitVec.extractLsb'_append_extractLsb'_eq_extractLsb' (by decide), BitVec.extractLsb'_eq_self]

theorem sbImm_bType : sbImm ((bType imm rs2' rs1' funct3 opcode).setWidth 64) =
    imm.signExtend 64 <<< 1 := by
  rw [sbImm, immSign, x_setWidth (by decide) (by decide), x_setWidth (by decide) (by decide),
    x_setWidth (by decide) (by decide), xs_setWidth (by decide) (by decide), bType, rType]
  simp (disch := decide) only
    [BitVec.extractLsb'_append_eq_of_le, BitVec.extractLsb'_append_eq_of_add_le,
    Nat.reduceSub]
  simp only [Nat.reduceAdd, Nat.reduceSub, BitVec.extractLsb'_eq_self]
  rw [Bits.add_adjacent_setWidth (by decide) (by decide),
    Bits.add_adjacent_setWidth (by decide) (by decide),
    Bits.add_adjacent_signExtend (by decide) (by decide) (by decide), BitVec.extractLsb'_eq_self]

theorem ujImm_jType : ujImm ((jType imm20 rd' opcode).setWidth 64) = imm20.signExtend 64 <<< 1 := by
  rw [ujImm, immSign, x_setWidth (by decide) (by decide), x_setWidth (by decide) (by decide),
    x_setWidth (by decide) (by decide), xs_setWidth (by decide) (by decide), jType, uType]
  simp (disch := decide) only
    [BitVec.extractLsb'_append_eq_of_le, BitVec.extractLsb'_append_eq_of_add_le,
    Nat.reduceSub]
  simp only [BitVec.extractLsb'_eq_self]
  rw [Bits.add_adjacent_setWidth (by decide) (by decide),
    Bits.add_adjacent_setWidth (by decide) (by decide),
    Bits.add_adjacent_signExtend (by decide) (by decide) (by decide), BitVec.extractLsb'_eq_self]

/-- The shift amount of a shift by an immediate is in the low bits of the immediate. -/
theorem shamt_iType {funct6 shamt' : BitVec 6} :
    shamt ((iType (funct6 ++ shamt') rs1' funct3 rd' opcode).setWidth 64) = shamt'.setWidth 64 := by
  have hmask : (0x3f#64 : Reg) = Bits.lowMask 64 6 := by decide
  rw [shamt, iImm_iType, hmask]
  apply BitVec.eq_of_getLsbD_eq
  intro i hi
  rw [BitVec.getLsbD_and, BitVec.getLsbD_signExtend, Bits.getLsbD_lowMask, BitVec.getLsbD_setWidth,
    BitVec.getLsbD_append]
  by_cases hlow : i < 6
  · have hin : i < 6 + 6 := by omega
    simp [hi, hlow, hin]
  · have hout : shamt'.getLsbD i = false := BitVec.getLsbD_of_ge _ _ (Nat.le_of_not_lt hlow)
    simp [hlow, hout]

/-! ### Encodings -/

/-- A word that is held in 64 bits has an encoding. -/
theorem hits_setWidth {e : Encoding} {mask value word : BitVec 32}
    (hmask : e.mask = mask.setWidth 64)
    (hmatch : e.matchBits = value.setWidth 64) (h : word &&& mask = value) :
    e.hits (word.setWidth 64) = true := by
  rw [Encoding.hits, hmask, hmatch, ← BitVec.setWidth_and, h, beq_self_eq_true]

theorem hits_rType {e : Encoding} (hmask : e.mask = 0xfe00707f#64)
    (hmatch : e.matchBits =
      (funct7 ++ 0#5 ++ 0#5 ++ funct3 ++ 0#5 ++ opcode : BitVec 32).setWidth 64) :
    e.hits ((rType funct7 rs2' rs1' funct3 rd' opcode).setWidth 64) = true := by
  have heq : (0xfe00707f#64 : Reg) =
      (BitVec.allOnes 7 ++ 0#5 ++ 0#5 ++ BitVec.allOnes 3 ++ 0#5 ++
        BitVec.allOnes 7 : BitVec 32).setWidth 64 := by
    decide
  have hand : (funct7 ++ rs2' ++ rs1' ++ funct3 ++ rd' ++ opcode) &&&
      (BitVec.allOnes 7 ++ 0#5 ++ 0#5 ++ BitVec.allOnes 3 ++ 0#5 ++ BitVec.allOnes 7) = funct7 ++
        0#5 ++ 0#5 ++ funct3 ++ 0#5 ++ opcode := by
    simp only [BitVec.and_append, BitVec.and_allOnes, BitVec.and_zero]
  exact hits_setWidth (hmask.trans heq) hmatch hand

theorem hits_iType {e : Encoding} (hmask : e.mask = 0x707f#64)
    (hmatch : e.matchBits = (0#12 ++ 0#5 ++ funct3 ++ 0#5 ++ opcode : BitVec 32).setWidth 64) :
    e.hits ((iType imm rs1' funct3 rd' opcode).setWidth 64) = true := by
  have heq : (0x707f#64 : Reg) =
      (0#12 ++ 0#5 ++ BitVec.allOnes 3 ++ 0#5 ++ BitVec.allOnes 7 : BitVec 32).setWidth 64 := by
    decide
  have hand : (imm ++ rs1' ++ funct3 ++ rd' ++ opcode) &&&
      (0#12 ++ 0#5 ++ BitVec.allOnes 3 ++ 0#5 ++ BitVec.allOnes 7) = 0#12 ++
        0#5 ++ funct3 ++ 0#5 ++ opcode := by
    simp only [BitVec.and_append, BitVec.and_allOnes, BitVec.and_zero]
  exact hits_setWidth (hmask.trans heq) hmatch hand

/-- Shifts by an immediate have six more fixed bits. -/
theorem hits_shift {e : Encoding} {funct6 shamt' : BitVec 6} (hmask : e.mask = 0xfc00707f#64)
    (hmatch : e.matchBits =
      (funct6 ++ 0#6 ++ 0#5 ++ funct3 ++ 0#5 ++ opcode : BitVec 32).setWidth 64) :
    e.hits ((iType (funct6 ++ shamt') rs1' funct3 rd' opcode).setWidth 64) = true := by
  have heq : (0xfc00707f#64 : Reg) =
      (BitVec.allOnes 6 ++ 0#6 ++ 0#5 ++ BitVec.allOnes 3 ++ 0#5 ++
        BitVec.allOnes 7 : BitVec 32).setWidth 64 := by
    decide
  have hand : ((funct6 ++ shamt') ++ rs1' ++ funct3 ++ rd' ++ opcode) &&&
      ((BitVec.allOnes 6 ++ 0#6) ++ 0#5 ++ BitVec.allOnes 3 ++ 0#5 ++ BitVec.allOnes 7) =
        (funct6 ++ 0#6) ++ 0#5 ++ funct3 ++ 0#5 ++ opcode := by
    simp only [BitVec.and_append, BitVec.and_allOnes, BitVec.and_zero]
  exact hits_setWidth (hmask.trans heq) hmatch hand

theorem hits_sType {e : Encoding} (hmask : e.mask = 0x707f#64)
    (hmatch : e.matchBits =
      (0#7 ++ 0#5 ++ 0#5 ++ funct3 ++ 0#5 ++ opcode : BitVec 32).setWidth 64) :
    e.hits ((sType imm rs2' rs1' funct3 opcode).setWidth 64) = true := by
  have heq : (0x707f#64 : Reg) =
      (0#7 ++ 0#5 ++ 0#5 ++ BitVec.allOnes 3 ++ 0#5 ++ BitVec.allOnes 7 : BitVec 32).setWidth
        64 := by
    decide
  have hand : (imm.extractLsb' 5 7 ++ rs2' ++ rs1' ++ funct3 ++ imm.extractLsb' 0 5 ++ opcode) &&&
      (0#7 ++ 0#5 ++ 0#5 ++ BitVec.allOnes 3 ++ 0#5 ++ BitVec.allOnes 7) = 0#7 ++
        0#5 ++ 0#5 ++ funct3 ++ 0#5 ++ opcode := by
    simp only [BitVec.and_append, BitVec.and_allOnes, BitVec.and_zero]
  exact hits_setWidth (hmask.trans heq) hmatch hand

theorem hits_bType {e : Encoding} (hmask : e.mask = 0x707f#64)
    (hmatch : e.matchBits =
      (0#7 ++ 0#5 ++ 0#5 ++ funct3 ++ 0#5 ++ opcode : BitVec 32).setWidth 64) :
    e.hits ((bType imm rs2' rs1' funct3 opcode).setWidth 64) = true := by
  have heq : (0x707f#64 : Reg) =
      (0#7 ++ 0#5 ++ 0#5 ++ BitVec.allOnes 3 ++ 0#5 ++ BitVec.allOnes 7 : BitVec 32).setWidth
        64 := by
    decide
  have hand : ((imm.extractLsb' 11 1 ++ imm.extractLsb' 4 6) ++ rs2' ++ rs1' ++ funct3 ++
      (imm.extractLsb' 0 4 ++ imm.extractLsb' 10 1) ++ opcode) &&&
      (0#(1 + 6) ++ 0#5 ++ 0#5 ++ BitVec.allOnes 3 ++ 0#(4 + 1) ++ BitVec.allOnes 7) = 0#(1 + 6) ++
        0#5 ++ 0#5 ++ funct3 ++ 0#(4 + 1) ++ opcode := by
    simp only [BitVec.and_append, BitVec.and_allOnes, BitVec.and_zero]
  exact hits_setWidth (hmask.trans heq) hmatch hand

theorem hits_uType {e : Encoding} (hmask : e.mask = 0x7f#64)
    (hmatch : e.matchBits = (0#20 ++ 0#5 ++ opcode : BitVec 32).setWidth 64) :
    e.hits ((uType imm20 rd' opcode).setWidth 64) = true := by
  have heq : (0x7f#64 : Reg) = (0#20 ++ 0#5 ++ BitVec.allOnes 7 : BitVec 32).setWidth 64 := by
    decide
  have hand : (imm20 ++ rd' ++ opcode) &&&
      (0#20 ++ 0#5 ++ BitVec.allOnes 7) = 0#20 ++ 0#5 ++ opcode := by
    simp only [BitVec.and_append, BitVec.and_allOnes, BitVec.and_zero]
  exact hits_setWidth (hmask.trans heq) hmatch hand

theorem hits_jType {e : Encoding} (hmask : e.mask = 0x7f#64)
    (hmatch : e.matchBits = (0#20 ++ 0#5 ++ opcode : BitVec 32).setWidth 64) :
    e.hits ((jType imm20 rd' opcode).setWidth 64) = true :=
  hits_uType hmask hmatch

end Insn

end Nnemu

import Nnemu.Hart.Flow
import Nnemu.Lib.Fields

/-!
# The fields of an instruction

The decoders of `insn_t`, in `decode.h`, besides those that jumps need. Every immediate is a sum of
shifted fields.
-/

namespace Nnemu

namespace Insn

variable (b : Reg)

/-! ### Decoders -/

/-- `insn_t::s_imm` -/
def sImm : Reg :=
  x b 7 5 + (xs b 25 7 <<< 5)

/-- `insn_t::u_imm` -/
def uImm : Reg :=
  xs b 12 20 <<< 12

/-- `insn_t::rd` -/
def rd : Reg :=
  x b 7 5

/-- `insn_t::rs1` -/
def rs1 : Reg :=
  x b 15 5

/-- `insn_t::rs2` -/
def rs2 : Reg :=
  x b 20 5

/-- `insn_t::csr` -/
def csr : Reg :=
  x b 20 12

/-- `SHAMT` -/
def shamt : Reg :=
  iImm b &&& 0x3f#64

/-- `insn_t::rvc_imm` -/
def rvcImm : Reg :=
  x b 2 5 + (xs b 12 1 <<< 5)

/-- `insn_t::rvc_zimm` -/
def rvcZimm : Reg :=
  x b 2 5 + (x b 12 1 <<< 5)

/-- `insn_t::rvc_addi4spn_imm` -/
def rvcAddi4spnImm : Reg :=
  (x b 6 1 <<< 2) + (x b 5 1 <<< 3) + (x b 11 2 <<< 4) + (x b 7 4 <<< 6)

/-- `insn_t::rvc_addi16sp_imm` -/
def rvcAddi16spImm : Reg :=
  (x b 6 1 <<< 4) + (x b 2 1 <<< 5) + (x b 5 1 <<< 6) + (x b 3 2 <<< 7) + (xs b 12 1 <<< 9)

/-- `insn_t::rvc_lwsp_imm` -/
def rvcLwspImm : Reg :=
  (x b 4 3 <<< 2) + (x b 12 1 <<< 5) + (x b 2 2 <<< 6)

/-- `insn_t::rvc_ldsp_imm` -/
def rvcLdspImm : Reg :=
  (x b 5 2 <<< 3) + (x b 12 1 <<< 5) + (x b 2 3 <<< 6)

/-- `insn_t::rvc_swsp_imm` -/
def rvcSwspImm : Reg :=
  (x b 9 4 <<< 2) + (x b 7 2 <<< 6)

/-- `insn_t::rvc_sdsp_imm` -/
def rvcSdspImm : Reg :=
  (x b 10 3 <<< 3) + (x b 7 3 <<< 6)

/-- `insn_t::rvc_lw_imm` -/
def rvcLwImm : Reg :=
  (x b 6 1 <<< 2) + (x b 10 3 <<< 3) + (x b 5 1 <<< 6)

/-- `insn_t::rvc_ld_imm` -/
def rvcLdImm : Reg :=
  (x b 10 3 <<< 3) + (x b 5 2 <<< 6)

/-- `insn_t::rvc_rd` -/
def rvcRd : Reg :=
  rd b

/-- `insn_t::rvc_rs2` -/
def rvcRs2 : Reg :=
  x b 2 5

/-- `insn_t::rvc_rs1s` -/
def rvcRs1s : Reg :=
  8#64 + x b 7 3

/-- `insn_t::rvc_rs2s` -/
def rvcRs2s : Reg :=
  8#64 + x b 2 3

/-- `insn_length` -/
def length (bits : Reg) : Reg :=
  if bits &&& 0x03#64 < 0x03#64 then 2#64
  else if bits &&& 0x1f#64 < 0x1f#64 then 4#64
  else if bits &&& 0x3f#64 < 0x3f#64 then 6#64
  else 8#64

/-! ### Cuts -/

variable {b}

theorem x_eq {lo len : Nat} (hlen : len < 64) : x b lo len = (b.extractLsb' lo len).setWidth 64 :=
  Bits.shiftRight_and_eq hlen b lo

theorem xs_eq {lo len : Nat} (hpos : 0 < len) (hle : lo + len ≤ 64) :
    xs b lo len = (b.extractLsb' lo len).signExtend 64 :=
  Bits.shiftLeft_sshiftRight_eq hpos hle b

/-- The same of a word that is held in 64 bits. -/
theorem x_setWidth {n lo len : Nat} (hlen : len < 64) (hle : lo + len ≤ 64) (word : BitVec n) :
    x (word.setWidth 64) lo len = (word.extractLsb' lo len).setWidth 64 := by
  rw [x_eq hlen, BitVec.extractLsb'_setWidth_of_le hle]

theorem xs_setWidth {n lo len : Nat} (hpos : 0 < len) (hle : lo + len ≤ 64) (word : BitVec n) :
    xs (word.setWidth 64) lo len = (word.extractLsb' lo len).signExtend 64 := by
  rw [xs_eq hpos hle, BitVec.extractLsb'_setWidth_of_le hle]

end Insn

end Nnemu

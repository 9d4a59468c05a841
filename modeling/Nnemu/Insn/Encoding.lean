import Nnemu.Isa.Extension

/-!
# The encodings of the instructions

The instructions of `riscv_insn_list.txt`, in the order of that file, and their lines of
`encoding.h`.
-/

namespace Nnemu

/-- `riscv_insn_list.txt` -/
inductive Opcode where
  | amoaddD | amoaddW | amoandD | amoandW | amomaxD | amomaxuD | amomaxuW | amomaxW | amominD
  | amominuD | amominuW | amominW | amoorD | amoorW | amoswapD | amoswapW | amoxorD | amoxorW | lrD
  | lrW | scD | scW | cAdd | cAddi | cAddi4spn | cAddw | cAnd | cAndi | cBeqz | cBnez | cEbreak
  | cFld | cFldsp | cFlw | cFlwsp | cFsd | cFsdsp | cFsw | cFswsp | cJ | cJal | cJalr | cJr | cLi
  | cLui | cLw | cLwsp | cMv | cOr | cSlli | cSrai | cSrli | cSub | cSubw | cSw | cSwsp | cXor | add
  | addi | addiw | addw | and | andi | auipc | beq | bge | bgeu | blt | bltu | bne | jal | jalr | lb
  | lbu | ld | lh | lhu | lui | lw | lwu | or | ori | sb | sd | sh | sll | slli | slliw | sllw | slt
  | slti | sltiu | sltu | sra | srai | sraiw | sraw | srl | srli | srliw | srlw | sub | subw | sw
  | xor | xori | fence | fenceI | div | divu | divuw | divw | mul | mulh | mulhsu | mulhu | mulw
  | rem | remu | remuw | remw | csrrc | csrrci | csrrs | csrrsi | csrrw | csrrwi | dret | ebreak
  | ecall | mret | sfenceVma | sret | wfi
deriving DecidableEq, Repr

/-- `MATCH_X` and `MASK_X` -/
structure Encoding where
  matchBits : Reg
  mask : Reg
deriving DecidableEq

/-- `(insn.bits() & mask) == match` -/
def Encoding.hits (e : Encoding) (bits : Reg) : Bool :=
  bits &&& e.mask == e.matchBits

namespace Opcode

/-- `DECLARE_INSN` -/
def encoding : Opcode → Encoding
  | amoaddD => ⟨0x302f#64, 0xf800707f#64⟩
  | amoaddW => ⟨0x202f#64, 0xf800707f#64⟩
  | amoandD => ⟨0x6000302f#64, 0xf800707f#64⟩
  | amoandW => ⟨0x6000202f#64, 0xf800707f#64⟩
  | amomaxD => ⟨0xa000302f#64, 0xf800707f#64⟩
  | amomaxuD => ⟨0xe000302f#64, 0xf800707f#64⟩
  | amomaxuW => ⟨0xe000202f#64, 0xf800707f#64⟩
  | amomaxW => ⟨0xa000202f#64, 0xf800707f#64⟩
  | amominD => ⟨0x8000302f#64, 0xf800707f#64⟩
  | amominuD => ⟨0xc000302f#64, 0xf800707f#64⟩
  | amominuW => ⟨0xc000202f#64, 0xf800707f#64⟩
  | amominW => ⟨0x8000202f#64, 0xf800707f#64⟩
  | amoorD => ⟨0x4000302f#64, 0xf800707f#64⟩
  | amoorW => ⟨0x4000202f#64, 0xf800707f#64⟩
  | amoswapD => ⟨0x800302f#64, 0xf800707f#64⟩
  | amoswapW => ⟨0x800202f#64, 0xf800707f#64⟩
  | amoxorD => ⟨0x2000302f#64, 0xf800707f#64⟩
  | amoxorW => ⟨0x2000202f#64, 0xf800707f#64⟩
  | lrD => ⟨0x1000302f#64, 0xf9f0707f#64⟩
  | lrW => ⟨0x1000202f#64, 0xf9f0707f#64⟩
  | scD => ⟨0x1800302f#64, 0xf800707f#64⟩
  | scW => ⟨0x1800202f#64, 0xf800707f#64⟩
  | cAdd => ⟨0x9002#64, 0xf003#64⟩
  | cAddi => ⟨0x1#64, 0xe003#64⟩
  | cAddi4spn => ⟨0x0#64, 0xe003#64⟩
  | cAddw => ⟨0x9c21#64, 0xfc63#64⟩
  | cAnd => ⟨0x8c61#64, 0xfc63#64⟩
  | cAndi => ⟨0x8801#64, 0xec03#64⟩
  | cBeqz => ⟨0xc001#64, 0xe003#64⟩
  | cBnez => ⟨0xe001#64, 0xe003#64⟩
  | cEbreak => ⟨0x9002#64, 0xffff#64⟩
  | cFld => ⟨0x2000#64, 0xe003#64⟩
  | cFldsp => ⟨0x2002#64, 0xe003#64⟩
  | cFlw => ⟨0x6000#64, 0xe003#64⟩
  | cFlwsp => ⟨0x6002#64, 0xe003#64⟩
  | cFsd => ⟨0xa000#64, 0xe003#64⟩
  | cFsdsp => ⟨0xa002#64, 0xe003#64⟩
  | cFsw => ⟨0xe000#64, 0xe003#64⟩
  | cFswsp => ⟨0xe002#64, 0xe003#64⟩
  | cJ => ⟨0xa001#64, 0xe003#64⟩
  | cJal => ⟨0x2001#64, 0xe003#64⟩
  | cJalr => ⟨0x9002#64, 0xf07f#64⟩
  | cJr => ⟨0x8002#64, 0xf07f#64⟩
  | cLi => ⟨0x4001#64, 0xe003#64⟩
  | cLui => ⟨0x6001#64, 0xe003#64⟩
  | cLw => ⟨0x4000#64, 0xe003#64⟩
  | cLwsp => ⟨0x4002#64, 0xe003#64⟩
  | cMv => ⟨0x8002#64, 0xf003#64⟩
  | cOr => ⟨0x8c41#64, 0xfc63#64⟩
  | cSlli => ⟨0x2#64, 0xe003#64⟩
  | cSrai => ⟨0x8401#64, 0xec03#64⟩
  | cSrli => ⟨0x8001#64, 0xec03#64⟩
  | cSub => ⟨0x8c01#64, 0xfc63#64⟩
  | cSubw => ⟨0x9c01#64, 0xfc63#64⟩
  | cSw => ⟨0xc000#64, 0xe003#64⟩
  | cSwsp => ⟨0xc002#64, 0xe003#64⟩
  | cXor => ⟨0x8c21#64, 0xfc63#64⟩
  | add => ⟨0x33#64, 0xfe00707f#64⟩
  | addi => ⟨0x13#64, 0x707f#64⟩
  | addiw => ⟨0x1b#64, 0x707f#64⟩
  | addw => ⟨0x3b#64, 0xfe00707f#64⟩
  | and => ⟨0x7033#64, 0xfe00707f#64⟩
  | andi => ⟨0x7013#64, 0x707f#64⟩
  | auipc => ⟨0x17#64, 0x7f#64⟩
  | beq => ⟨0x63#64, 0x707f#64⟩
  | bge => ⟨0x5063#64, 0x707f#64⟩
  | bgeu => ⟨0x7063#64, 0x707f#64⟩
  | blt => ⟨0x4063#64, 0x707f#64⟩
  | bltu => ⟨0x6063#64, 0x707f#64⟩
  | bne => ⟨0x1063#64, 0x707f#64⟩
  | jal => ⟨0x6f#64, 0x7f#64⟩
  | jalr => ⟨0x67#64, 0x707f#64⟩
  | lb => ⟨0x3#64, 0x707f#64⟩
  | lbu => ⟨0x4003#64, 0x707f#64⟩
  | ld => ⟨0x3003#64, 0x707f#64⟩
  | lh => ⟨0x1003#64, 0x707f#64⟩
  | lhu => ⟨0x5003#64, 0x707f#64⟩
  | lui => ⟨0x37#64, 0x7f#64⟩
  | lw => ⟨0x2003#64, 0x707f#64⟩
  | lwu => ⟨0x6003#64, 0x707f#64⟩
  | or => ⟨0x6033#64, 0xfe00707f#64⟩
  | ori => ⟨0x6013#64, 0x707f#64⟩
  | sb => ⟨0x23#64, 0x707f#64⟩
  | sd => ⟨0x3023#64, 0x707f#64⟩
  | sh => ⟨0x1023#64, 0x707f#64⟩
  | sll => ⟨0x1033#64, 0xfe00707f#64⟩
  | slli => ⟨0x1013#64, 0xfc00707f#64⟩
  | slliw => ⟨0x101b#64, 0xfe00707f#64⟩
  | sllw => ⟨0x103b#64, 0xfe00707f#64⟩
  | slt => ⟨0x2033#64, 0xfe00707f#64⟩
  | slti => ⟨0x2013#64, 0x707f#64⟩
  | sltiu => ⟨0x3013#64, 0x707f#64⟩
  | sltu => ⟨0x3033#64, 0xfe00707f#64⟩
  | sra => ⟨0x40005033#64, 0xfe00707f#64⟩
  | srai => ⟨0x40005013#64, 0xfc00707f#64⟩
  | sraiw => ⟨0x4000501b#64, 0xfe00707f#64⟩
  | sraw => ⟨0x4000503b#64, 0xfe00707f#64⟩
  | srl => ⟨0x5033#64, 0xfe00707f#64⟩
  | srli => ⟨0x5013#64, 0xfc00707f#64⟩
  | srliw => ⟨0x501b#64, 0xfe00707f#64⟩
  | srlw => ⟨0x503b#64, 0xfe00707f#64⟩
  | sub => ⟨0x40000033#64, 0xfe00707f#64⟩
  | subw => ⟨0x4000003b#64, 0xfe00707f#64⟩
  | sw => ⟨0x2023#64, 0x707f#64⟩
  | xor => ⟨0x4033#64, 0xfe00707f#64⟩
  | xori => ⟨0x4013#64, 0x707f#64⟩
  | fence => ⟨0xf#64, 0x707f#64⟩
  | fenceI => ⟨0x100f#64, 0x707f#64⟩
  | div => ⟨0x2004033#64, 0xfe00707f#64⟩
  | divu => ⟨0x2005033#64, 0xfe00707f#64⟩
  | divuw => ⟨0x200503b#64, 0xfe00707f#64⟩
  | divw => ⟨0x200403b#64, 0xfe00707f#64⟩
  | mul => ⟨0x2000033#64, 0xfe00707f#64⟩
  | mulh => ⟨0x2001033#64, 0xfe00707f#64⟩
  | mulhsu => ⟨0x2002033#64, 0xfe00707f#64⟩
  | mulhu => ⟨0x2003033#64, 0xfe00707f#64⟩
  | mulw => ⟨0x200003b#64, 0xfe00707f#64⟩
  | rem => ⟨0x2006033#64, 0xfe00707f#64⟩
  | remu => ⟨0x2007033#64, 0xfe00707f#64⟩
  | remuw => ⟨0x200703b#64, 0xfe00707f#64⟩
  | remw => ⟨0x200603b#64, 0xfe00707f#64⟩
  | csrrc => ⟨0x3073#64, 0x707f#64⟩
  | csrrci => ⟨0x7073#64, 0x707f#64⟩
  | csrrs => ⟨0x2073#64, 0x707f#64⟩
  | csrrsi => ⟨0x6073#64, 0x707f#64⟩
  | csrrw => ⟨0x1073#64, 0x707f#64⟩
  | csrrwi => ⟨0x5073#64, 0x707f#64⟩
  | dret => ⟨0x7b200073#64, 0xffffffff#64⟩
  | ebreak => ⟨0x100073#64, 0xffffffff#64⟩
  | ecall => ⟨0x73#64, 0xffffffff#64⟩
  | mret => ⟨0x30200073#64, 0xffffffff#64⟩
  | sfenceVma => ⟨0x12000073#64, 0xfe007fff#64⟩
  | sret => ⟨0x10200073#64, 0xffffffff#64⟩
  | wfi => ⟨0x10500073#64, 0xffffffff#64⟩

/-- `insn_list.h` -/
def all : List Opcode :=
  [.amoaddD, .amoaddW, .amoandD, .amoandW, .amomaxD, .amomaxuD, .amomaxuW,
    .amomaxW, .amominD, .amominuD,
   .amominuW, .amominW, .amoorD, .amoorW, .amoswapD, .amoswapW, .amoxorD,
   .amoxorW, .lrD, .lrW, .scD, .scW,
   .cAdd, .cAddi, .cAddi4spn, .cAddw, .cAnd, .cAndi, .cBeqz, .cBnez, .cEbreak,
   .cFld, .cFldsp, .cFlw, .cFlwsp,
   .cFsd, .cFsdsp, .cFsw, .cFswsp, .cJ, .cJal, .cJalr, .cJr, .cLi, .cLui,
   .cLw, .cLwsp, .cMv, .cOr, .cSlli,
   .cSrai, .cSrli, .cSub, .cSubw, .cSw, .cSwsp, .cXor, .add, .addi, .addiw,
   .addw, .and, .andi, .auipc, .beq,
   .bge, .bgeu, .blt, .bltu, .bne, .jal, .jalr, .lb, .lbu, .ld, .lh, .lhu,
   .lui, .lw, .lwu, .or, .ori, .sb,
   .sd, .sh, .sll, .slli, .slliw, .sllw, .slt, .slti, .sltiu, .sltu, .sra,
   .srai, .sraiw, .sraw, .srl, .srli,
   .srliw, .srlw, .sub, .subw, .sw, .xor, .xori, .fence, .fenceI, .div,
   .divu, .divuw, .divw, .mul, .mulh,
   .mulhsu, .mulhu, .mulw, .rem, .remu, .remuw, .remw, .csrrc, .csrrci,
   .csrrs, .csrrsi, .csrrw, .csrrwi,
   .dret, .ebreak, .ecall, .mret, .sfenceVma, .sret, .wfi]

theorem mem_all (op : Opcode) : op ∈ all := by
  cases op <;> decide

/-- `DECLARE_OVERLAP_INSN`, for what is built: the extension without which the instruction is not
registered. -/
def overlap : Opcode → Option Ext
  | cFld => some .zcd
  | cFldsp => some .zcd
  | cFsd => some .zcd
  | cFsdsp => some .zcd
  | _ => none

end Opcode

end Nnemu

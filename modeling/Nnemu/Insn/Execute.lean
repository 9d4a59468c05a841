import Nnemu.Hart.Instret
import Nnemu.Insn.Compressed

/-!
# Executing an instruction

The functions behind an `insn_func_t`: `illegal_instruction`, and the instantiations of
`insn_template.cc`. What `decode_insn` returns, after any history, acts as the first entry of the
sorted list that hits.
-/

namespace Nnemu

variable {ω ι : Type}

/-- `#include "insns/NAME.h"` -/
def Opcode.file (op : Opcode) (mmu : Mmu ω ι) (f : Frame) : InsnM 64 ω ι Reg :=
  match op with
  | .amoaddD => f.amoaddD mmu
  | .amoaddW => f.amoaddW mmu
  | .amoandD => f.amoandD mmu
  | .amoandW => f.amoandW mmu
  | .amomaxD => f.amomaxD mmu
  | .amomaxuD => f.amomaxuD mmu
  | .amomaxuW => f.amomaxuW mmu
  | .amomaxW => f.amomaxW mmu
  | .amominD => f.amominD mmu
  | .amominuD => f.amominuD mmu
  | .amominuW => f.amominuW mmu
  | .amominW => f.amominW mmu
  | .amoorD => f.amoorD mmu
  | .amoorW => f.amoorW mmu
  | .amoswapD => f.amoswapD mmu
  | .amoswapW => f.amoswapW mmu
  | .amoxorD => f.amoxorD mmu
  | .amoxorW => f.amoxorW mmu
  | .lrD => f.lrD mmu
  | .lrW => f.lrW mmu
  | .scD => f.scD mmu
  | .scW => f.scW mmu
  | .cAdd => f.cAdd
  | .cAddi => f.cAddi
  | .cAddi4spn => f.cAddi4spn
  | .cAddw => f.cAddw
  | .cAnd => f.cAnd
  | .cAndi => f.cAndi
  | .cBeqz => f.cBeqz
  | .cBnez => f.cBnez
  | .cEbreak => f.cEbreak
  | .cFld => f.cFld mmu
  | .cFldsp => f.cFldsp mmu
  | .cFlw => f.cFlw mmu
  | .cFlwsp => f.cFlwsp mmu
  | .cFsd => f.cFsd mmu
  | .cFsdsp => f.cFsdsp mmu
  | .cFsw => f.cFsw mmu
  | .cFswsp => f.cFswsp mmu
  | .cJ => f.cJ
  | .cJal => f.cJal
  | .cJalr => f.cJalr
  | .cJr => f.cJr
  | .cLi => f.cLi
  | .cLui => f.cLui
  | .cLw => f.cLw mmu
  | .cLwsp => f.cLwsp mmu
  | .cMv => f.cMv
  | .cOr => f.cOr
  | .cSlli => f.cSlli
  | .cSrai => f.cSrai
  | .cSrli => f.cSrli
  | .cSub => f.cSub
  | .cSubw => f.cSubw
  | .cSw => f.cSw mmu
  | .cSwsp => f.cSwsp mmu
  | .cXor => f.cXor
  | .add => f.add
  | .addi => f.addi
  | .addiw => f.addiw
  | .addw => f.addw
  | .and => f.and
  | .andi => f.andi
  | .auipc => f.auipc
  | .beq => f.beq
  | .bge => f.bge
  | .bgeu => f.bgeu
  | .blt => f.blt
  | .bltu => f.bltu
  | .bne => f.bne
  | .jal => f.jal
  | .jalr => f.jalr
  | .lb => f.lb mmu
  | .lbu => f.lbu mmu
  | .ld => f.ld mmu
  | .lh => f.lh mmu
  | .lhu => f.lhu mmu
  | .lui => f.lui
  | .lw => f.lw mmu
  | .lwu => f.lwu mmu
  | .or => f.or
  | .ori => f.ori
  | .sb => f.sb mmu
  | .sd => f.sd mmu
  | .sh => f.sh mmu
  | .sll => f.sll
  | .slli => f.slli
  | .slliw => f.slliw
  | .sllw => f.sllw
  | .slt => f.slt
  | .slti => f.slti
  | .sltiu => f.sltiu
  | .sltu => f.sltu
  | .sra => f.sra
  | .srai => f.srai
  | .sraiw => f.sraiw
  | .sraw => f.sraw
  | .srl => f.srl
  | .srli => f.srli
  | .srliw => f.srliw
  | .srlw => f.srlw
  | .sub => f.sub
  | .subw => f.subw
  | .sw => f.sw mmu
  | .xor => f.xor
  | .xori => f.xori
  | .fence => f.fence
  | .fenceI => f.fenceI
  | .div => f.div
  | .divu => f.divu
  | .divuw => f.divuw
  | .divw => f.divw
  | .mul => f.mul
  | .mulh => f.mulh
  | .mulhsu => f.mulhsu
  | .mulhu => f.mulhu
  | .mulw => f.mulw
  | .rem => f.rem
  | .remu => f.remu
  | .remuw => f.remuw
  | .remw => f.remw
  | .csrrc => f.csrrc
  | .csrrci => f.csrrci
  | .csrrs => f.csrrs
  | .csrrsi => f.csrrsi
  | .csrrw => f.csrrw
  | .csrrwi => f.csrrwi
  | .dret => f.dret
  | .ebreak => f.ebreak
  | .ecall => f.ecall
  | .mret => f.mret
  | .sfenceVma => f.sfenceVma
  | .sret => f.sret
  | .wfi => f.wfi

/-- The frame of a function of `insn_template.cc`. -/
def Opcode.frame (op : Opcode) (cfg : Config) (variant : Variant) (bits pc : Reg) : Frame where
  cfg := cfg
  rve := variant.rve
  insn := bits
  pc := pc
  npc := Hart.sextXlen cfg (pc + Insn.length op.encoding.matchBits)
  bits := bits

/-- `illegal_instruction` -/
def illegalInstruction (bits : Reg) : InsnM 64 ω ι Reg :=
  throw (.trap { cause := Hart.causeIllegalInstruction, tval := bits &&& 0xffffffff#64 })

/-- A call of an `insn_func_t`. -/
def Handler.execute (h : Handler) (cfg : Config) (mmu : Mmu ω ι) (bits pc : Reg) :
    InsnM 64 ω ι Reg :=
  match h.func with
  | .illegalInstruction => illegalInstruction bits
  | .insn op => op.file mmu (op.frame cfg h.variant bits pc)

/-! ### CSR instructions -/

/-- What the file of a CSR instruction says of its access: whether it writes, and what it makes of
the old value for `put_csr`. -/
structure CsrOperation (ω ι : Type) where
  write : Bool
  operand : Reg → InsnM 64 ω ι Reg

/-- The access of a CSR instruction. -/
def Opcode.csrOperation (op : Opcode) (f : Frame) : Option (CsrOperation ω ι) :=
  match op with
  | .csrrw => some ⟨true, fun _ => f.rs1⟩
  | .csrrs => some ⟨f.writes, fun old => do
      let a ← f.rs1
      pure (old ||| a)⟩
  | .csrrc => some ⟨f.writes, fun old => do
      let a ← f.rs1
      pure (old &&& ~~~a)⟩
  | .csrrwi => some ⟨true, fun _ => pure (Insn.rs1 f.insn)⟩
  | .csrrsi => some ⟨f.writes, fun old => pure (old ||| Insn.rs1 f.insn)⟩
  | .csrrci => some ⟨f.writes, fun old => pure (old &&& ~~~Insn.rs1 f.insn)⟩
  | _ => none

/-- The file of a CSR instruction is its access. -/
theorem Opcode.file_csr {op : Opcode} {f : Frame} {a : CsrOperation ω ι}
    (h : op.csrOperation f = some a) (mmu : Mmu ω ι) :
    op.file mmu f = f.csrFile a.write a.operand f.sextXlen := by
  cases op <;> first | cases h; rfl | cases h

/-- Does the entry of the map show `minstret`? -/
def CsrObj.showsMinstret : CsrObj → Bool
  | .plain .minstret | .rv32Low (.plain .minstret) | .rv32High (.plain .minstret) => true
  | .counterProxy _ delegate => delegate.showsMinstret
  | _ => false

namespace CsrOperation

variable (a : CsrOperation ω ι) (f : Frame) (c : Cpu (Machine 64 ω) ι)

/-- What `put_csr` gets here. There is nothing where the access is refused or does not write. -/
def put : Option Reg :=
  match c.hart.getCsr f.cfg (Insn.csr f.insn).toNat a.write with
  | .error _ => none
  | .ok old =>
    if a.write then
      match a.operand old c with
      | .ok val _ => some val
      | .error _ _ => none
    else none

/-- The hart behind `put_csr`, where `WRITE_RD` refuses the register then. -/
def strands : Option Hart :=
  if c.serialized && f.rve && !decide (Insn.rd f.insn < 16#64) then
    (a.put f c).map fun val => c.hart.putCsr f.cfg (Insn.csr f.insn).toNat val
  else none

end CsrOperation

namespace Handler

variable (h : Handler) (cfg : Config) (bits : Reg)

/-- The access of a CSR instruction, with the frame of its file. The program counter is not read. -/
def csrOperation : Option (Frame × CsrOperation ω ι) :=
  match h.func with
  | .illegalInstruction => none
  | .insn op =>
    let f := op.frame cfg h.variant bits 0#64
    (op.csrOperation f).map fun a => (f, a)

/-- Does the file begin with `validate_csr`? -/
def serializes : Bool :=
  (h.csrOperation (ω := Unit) (ι := Unit) cfg bits).isSome

/-- Does the instruction read or write `minstret`? -/
def accesses : Bool :=
  h.serializes cfg bits && (csrFind cfg (Insn.csr bits).toNat).any CsrObj.showsMinstret

/-- What the instruction gives to `minstret` here. -/
def written (c : Cpu (Machine 64 ω) ι) : Option Reg := do
  let (f, a) ← h.csrOperation cfg bits
  let val ← a.put f c
  c.hart.minstretPut cfg (Insn.csr bits).toNat val

/-- The hart that the write of the instruction leaves, where its destination register is refused
behind it. -/
def strands (c : Cpu (Machine 64 ω) ι) : Option Hart := do
  let (f, a) ← h.csrOperation cfg bits
  a.strands f c

end Handler

/-! ### The word 0 -/

theorem Opcode.of_matchBits_zero {op : Opcode} (h : op.encoding.matchBits = 0#64) :
    op = .cAddi4spn := by
  revert h
  cases op <;> decide

/-- `c.addi4spn` refuses the word 0, with or without its extension. -/
theorem Frame.cAddi4spn_zero {f : Frame} (hinsn : f.insn = 0#64) :
    (f.cAddi4spn : InsnM 64 ω ι Reg) = throw f.illegalTrap := by
  have himm : (Insn.rvcAddi4spnImm f.insn != 0#64) = false := by
    rw [hinsn]
    decide
  funext c
  rw [cAddi4spn, himm, requiring_false, withZca_apply]
  exact ite_self _

namespace Handler

variable {isa : Isa} {bits : Reg} {desc : InsnDesc}

/-- An answer acts as the first entry that hits. -/
theorem execute_eq {func : Func} (ha : Answers isa bits func)
    (hfirst : firstMatch (opcodeMap isa) bits = some desc)
    (variant : Variant) (cfg : Config) (mmu : Mmu ω ι) (pc : Reg) :
    execute ⟨func, variant⟩ cfg mmu bits pc = (desc.handler variant).execute cfg mmu bits pc := by
  obtain ⟨desc', hfirst', rfl⟩ | ⟨rfl, rfl⟩ := ha
  · rw [hfirst] at hfirst'
    cases hfirst'
    rfl
  · have hhit : desc.hits 0#64 = true :=
      List.find?_some (p := fun d : InsnDesc => d.hits 0#64) hfirst
    obtain rfl | ⟨op, rfl⟩ := mem_opcodeMap (List.mem_of_find?_eq_some hfirst)
    · rfl
    · rw [Encoding.hits, BitVec.zero_and, beq_iff_eq] at hhit
      cases Opcode.of_matchBits_zero hhit.symm
      have hzero : (Opcode.cAddi4spn.frame cfg variant 0#64 pc).insn = 0#64 := rfl
      exact (Frame.cAddi4spn_zero hzero).symm

end Handler

/-- **Decoding.** After any history `decode_insn` stays inside the list, and what it returns acts on
the word as the first entry of the sorted list does. Neither the cache nor the order that earlier
lookups have left is visible. -/
theorem decodeInsn_firstMatch (isa : Isa) (history : List Reg) (variant : Variant) (bits : Reg) :
    ∃ handler d desc,
      (Run.run Decoder.after (.build isa) history).decodeInsn variant bits = some (handler, d) ∧
        firstMatch (opcodeMap isa) bits = some desc ∧
          ∀ (ω ι : Type) (cfg : Config) (mmu : Mmu ω ι) (pc : Reg),
            handler.execute cfg mmu bits pc = (desc.handler variant).execute cfg mmu bits pc := by
  obtain ⟨desc, d, hlookup, hanswers, -⟩ := (DecoderOk.run isa history).lookup bits
  obtain ⟨-, first, -, -, -, hfirst⟩ := (listing_opcodeMap isa).search bits
  refine ⟨desc.handler variant, d, first, ?_, hfirst, fun ω ι cfg mmu pc => ?_⟩
  · rw [Decoder.decodeInsn, hlookup]
    rfl
  · exact Handler.execute_eq hanswers hfirst variant cfg mmu pc

end Nnemu

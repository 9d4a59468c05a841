import Nnemu.Insn.Execute

/-!
# The instructions of RV32

What the manual says of the built instructions on a processor with registers of 32 bits. Addresses
are 32 bits, too, where the simulator has 64: an address is known to memory, and to traps, by some
name of 64 bits that ends in it (`Naming`).

It is a second meaning of the same instructions, written from the manual and with registers of 32
bits, and the handlers of the simulator are compared with it in `Insn.Extended`. The checks for
extensions and privilege are the same in both, because they are no matter of the width.
-/

namespace Nnemu

/-- Names of 64 bits for the addresses of RV32. -/
structure Naming where
  name : BitVec 32 → Reg
  low : ∀ a, (name a).setWidth 32 = a

namespace Rv32

variable (f : Frame) {ω ι : Type}

/-! ### Values -/

/-- A comparison as a value. -/
def flag (b : Bool) : BitVec 32 :=
  if b then 1#32 else 0#32

/-- The number of places of a shift. -/
def places (b : BitVec 32) : BitVec 32 :=
  b &&& 0x1f#32

/-- The high word of a product. -/
def high (product : BitVec 64) : BitVec 32 :=
  (product >>> 32).setWidth 32

/-- Division by zero gives all ones. -/
def div (a b : BitVec 32) : BitVec 32 :=
  if b = 0#32 then BitVec.allOnes 32 else a.sdiv b

def divu (a b : BitVec 32) : BitVec 32 :=
  if b = 0#32 then BitVec.allOnes 32 else a / b

/-- The remainder of a division by zero is the dividend. -/
def rem (a b : BitVec 32) : BitVec 32 :=
  if b = 0#32 then a else a.srem b

def remu (a b : BitVec 32) : BitVec 32 :=
  if b = 0#32 then a else a % b

/-- The greater of two words. -/
def max (less : BitVec 32 → BitVec 32 → Bool) (a b : BitVec 32) : BitVec 32 :=
  if less a b then b else a

/-- The smaller of two words. -/
def min (less : BitVec 32 → BitVec 32 → Bool) (a b : BitVec 32) : BitVec 32 :=
  if less b a then b else a

/-- The program counter. -/
def pc : BitVec 32 :=
  f.pc.setWidth 32

/-- An immediate. -/
def imm (x : Reg) : BitVec 32 :=
  x.setWidth 32

/-! ### Families -/

/-- A check in front of an instruction. -/
def behind (check : InsnM 32 ω ι Unit) (body : InsnM 32 ω ι Reg) : InsnM 32 ω ι Reg := do
  check
  body

/-- Two registers. -/
def regReg (op : BitVec 32 → BitVec 32 → BitVec 32) : InsnM 32 ω ι Reg := do
  let a ← f.rs1
  let b ← f.rs2
  f.writeRd (op a b)
  pure f.npc

/-- A register. -/
def regImm (op : BitVec 32 → BitVec 32) : InsnM 32 ω ι Reg := do
  let a ← f.rs1
  f.writeRd (op a)
  pure f.npc

/-- No register. -/
def constant (value : BitVec 32) : InsnM 32 ω ι Reg := do
  f.writeRd value
  pure f.npc

/-- A shift by a number of places, of which there are less than 32. -/
def shiftImm (op : BitVec 32 → BitVec 32) : InsnM 32 ω ι Reg :=
  behind (f.require (decide (Insn.shamt f.insn < 32#64))) (regImm f op)

variable (names : Naming)

/-- Go somewhere. -/
def jumpTo (target : BitVec 32) : InsnM 32 ω ι Reg :=
  f.setPc (names.name target)

/-- A branch. -/
def branch (taken : BitVec 32 → BitVec 32 → Bool) : InsnM 32 ω ι Reg := do
  let a ← f.rs1
  let b ← f.rs2
  if taken a b then jumpTo f names (pc f + imm (Insn.sbImm f.insn)) else pure f.npc

/-- A jump that leaves the address of the instruction behind it in a register. -/
def link (reg : Reg) (size : BitVec 32) (target : BitVec 32) : InsnM 32 ω ι Reg := do
  let npc ← jumpTo f names target
  f.writeReg reg (pc f + size)
  pure npc

/-- `jalr` -/
def jalr : InsnM 32 ω ι Reg := do
  let a ← f.rs1
  link f names (Insn.rd f.insn) 4#32 ((a + imm (Insn.iImm f.insn)) &&& ~~~1#32)

variable (mmu : Mmu ω ι)

/-- A load. -/
def load (n : Nat) (extend : BitVec n → BitVec 32) : InsnM 32 ω ι Reg := do
  let a ← f.rs1
  let val ← InsnM.access (mmu.load n (names.name (a + imm (Insn.iImm f.insn))))
  f.writeRd (extend val)
  pure f.npc

/-- A store. -/
def store (n : Nat) : InsnM 32 ω ι Reg := do
  let a ← f.rs1
  let b ← f.rs2
  InsnM.access (mmu.store n (names.name (a + imm (Insn.sImm f.insn))) (b.setWidth n))
  pure f.npc

/-- An operation on a word in memory. -/
def amo (op : BitVec 32 → BitVec 32 → BitVec 32) : InsnM 32 ω ι Reg :=
  behind (f.requireExtension .a) do
    let a ← f.rs1
    let b ← f.laterRs2
    let lhs ← InsnM.access (mmu.amo 32 (names.name a) fun lhs => b.map (op lhs))
    f.writeRd lhs
    pure f.npc

/-- `lr.w` -/
def lrW : InsnM 32 ω ι Reg :=
  behind (f.requireExtension .a) do
    let a ← f.rs1
    let val ← InsnM.access (mmu.loadReserved 32 (names.name a))
    f.writeRd val
    pure f.npc

/-- `sc.w` -/
def scW : InsnM 32 ω ι Reg :=
  behind (f.requireExtension .a) do
    let a ← f.rs1
    let b ← f.rs2
    let haveReservation ← InsnM.access (mmu.storeConditional 32 (names.name a) b)
    f.writeRd (flag !haveReservation)
    pure f.npc

/-- An access to a CSR, of which the register gets the low word. -/
def csrFile (write : Bool) (operand : Reg → InsnM 32 ω ι Reg) : InsnM 32 ω ι Reg :=
  f.csrFile write operand fun old => old.setWidth 32

/-- A CSR is written with what is made of its old value and of a register. -/
def csrReg (write : Bool) (op : Reg → Reg → Reg) : InsnM 32 ω ι Reg :=
  csrFile f write fun old => do
    let a ← f.rs1
    pure (op old (a.signExtend 64))

/-! ### Compressed instructions -/

/-- One register and another one. -/
def rvcRegReg (op : BitVec 32 → BitVec 32 → BitVec 32) : InsnM 32 ω ι Reg :=
  behind (f.requireExtension .zca) do
    let a ← f.rvcRs1s
    let b ← f.rvcRs2s
    f.writeRvcRs1s (op a b)
    pure f.npc

/-- One register. -/
def rvcRegImm (op : BitVec 32 → BitVec 32) : InsnM 32 ω ι Reg := do
  let a ← f.rvcRs1s
  f.writeRvcRs1s (op a)
  pure f.npc

/-- One register, which may be any. -/
def rvcRdImm (op : BitVec 32 → BitVec 32) : InsnM 32 ω ι Reg := do
  let a ← f.rvcRs1
  f.writeRd (op a)
  pure f.npc

/-- A shift. -/
def rvcShift (body : InsnM 32 ω ι Reg) : InsnM 32 ω ι Reg :=
  behind (f.requireExtension .zca) (behind (f.require (decide (Insn.rvcZimm f.insn < 32#64))) body)

/-- A sum with the stack pointer. -/
def rvcAddSp (offset : Reg) (writeReg : BitVec 32 → InsnM 32 ω ι Unit) : InsnM 32 ω ι Reg :=
  behind (f.require (offset != 0#64)) do
    let sp ← f.rvcSp
    writeReg (sp + imm offset)
    pure f.npc

/-- A branch. -/
def rvcBranch (taken : BitVec 32 → Bool) : InsnM 32 ω ι Reg :=
  behind (f.requireExtension .zca) do
    let a ← f.rvcRs1s
    if taken a then jumpTo f names (pc f + imm (Insn.rvcBImm f.insn)) else pure f.npc

/-- A jump to the address in a register, if it is not `x0`. -/
def rvcJump (jump : BitVec 32 → InsnM 32 ω ι Reg) : InsnM 32 ω ι Reg :=
  behind (f.requireExtension .zca) (behind (f.require (Insn.rvcRs1 f.insn != 0#64)) do
    let a ← f.rvcRs1
    jump (a &&& ~~~1#32))

/-- A load of a word. -/
def rvcLoad (base : InsnM 32 ω ι (BitVec 32)) (offset : Reg)
    (writeReg : BitVec 32 → InsnM 32 ω ι Unit) :
    InsnM 32 ω ι Reg := do
  let a ← base
  let val ← InsnM.access (mmu.load 32 (names.name (a + imm offset)))
  writeReg val
  pure f.npc

/-- A store of a word. -/
def rvcStore (base reg : InsnM 32 ω ι (BitVec 32)) (offset : Reg) : InsnM 32 ω ι Reg :=
  behind (f.requireExtension .zca) do
    let a ← base
    let b ← reg
    InsnM.access (mmu.store 32 (names.name (a + imm offset)) b)
    pure f.npc

/-- A load of a floating-point register. -/
def fpLoad (ext : Ext) (n : Nat) (base : InsnM 32 ω ι (BitVec 32)) (offset reg : Reg)
    (freg : BitVec n → BitVec 128) :
    InsnM 32 ω ι Reg :=
  behind (f.requireExtension ext) (behind f.requireFp do
    let a ← base
    let val ← InsnM.access (mmu.load n (names.name (a + imm offset)))
    f.writeFreg reg (freg val)
    pure f.npc)

/-- A store of a floating-point register. -/
def fpStore (ext : Ext) (n : Nat) (base : InsnM 32 ω ι (BitVec 32)) (offset reg : Reg) :
    InsnM 32 ω ι Reg :=
  behind (f.requireExtension ext) (behind f.requireFp do
    let a ← base
    let b ← Frame.readFreg reg
    InsnM.access (mmu.store n (names.name (a + imm offset)) (b.setWidth n))
    pure f.npc)

/-! ### Instructions -/

/-- **RV32.** The instructions of RV64 are illegal. -/
def file (op : Opcode) : InsnM 32 ω ι Reg :=
  match op with
  | .add => regReg f fun a b => a + b
  | .sub => regReg f fun a b => a - b
  | .and => regReg f fun a b => a &&& b
  | .or => regReg f fun a b => a ||| b
  | .xor => regReg f fun a b => a ^^^ b
  | .slt => regReg f fun a b => flag (a.slt b)
  | .sltu => regReg f fun a b => flag (a.ult b)
  | .sll => regReg f fun a b => a <<< places b
  | .srl => regReg f fun a b => a >>> places b
  | .sra => regReg f fun a b => a.sshiftRight' (places b)
  | .addi => regImm f fun a => a + imm (Insn.iImm f.insn)
  | .andi => regImm f fun a => a &&& imm (Insn.iImm f.insn)
  | .ori => regImm f fun a => a ||| imm (Insn.iImm f.insn)
  | .xori => regImm f fun a => a ^^^ imm (Insn.iImm f.insn)
  | .slti => regImm f fun a => flag (a.slt (imm (Insn.iImm f.insn)))
  | .sltiu => regImm f fun a => flag (a.ult (imm (Insn.iImm f.insn)))
  | .slli => shiftImm f fun a => a <<< imm (Insn.shamt f.insn)
  | .srli => shiftImm f fun a => a >>> imm (Insn.shamt f.insn)
  | .srai => shiftImm f fun a => a.sshiftRight' (imm (Insn.shamt f.insn))
  | .lui => constant f (imm (Insn.uImm f.insn))
  | .auipc => constant f (imm (Insn.uImm f.insn) + pc f)
  | .mul => behind (f.requireEitherExtension .m .zmmul) (regReg f fun a b => a * b)
  | .mulh =>
    behind (f.requireEitherExtension .m .zmmul)
      (regReg f fun a b => high (a.signExtend 64 * b.signExtend 64))
  | .mulhsu =>
    behind (f.requireEitherExtension .m .zmmul)
      (regReg f fun a b => high (a.signExtend 64 * b.setWidth 64))
  | .mulhu =>
    behind (f.requireEitherExtension .m .zmmul)
      (regReg f fun a b => high (a.setWidth 64 * b.setWidth 64))
  | .div => behind (f.requireExtension .m) (regReg f div)
  | .divu => behind (f.requireExtension .m) (regReg f divu)
  | .rem => behind (f.requireExtension .m) (regReg f rem)
  | .remu => behind (f.requireExtension .m) (regReg f remu)
  | .beq => branch f names fun a b => a == b
  | .bne => branch f names fun a b => a != b
  | .blt => branch f names fun a b => a.slt b
  | .bge => branch f names fun a b => b.sle a
  | .bltu => branch f names fun a b => a.ult b
  | .bgeu => branch f names fun a b => b.ule a
  | .jal => link f names (Insn.rd f.insn) 4#32 (pc f + imm (Insn.ujImm f.insn))
  | .jalr => jalr f names
  | .lb => load f names mmu 8 fun val => val.signExtend 32
  | .lbu => load f names mmu 8 fun val => val.setWidth 32
  | .lh => load f names mmu 16 fun val => val.signExtend 32
  | .lhu => load f names mmu 16 fun val => val.setWidth 32
  | .lw => load f names mmu 32 fun val => val
  | .sb => store f names mmu 8
  | .sh => store f names mmu 16
  | .sw => store f names mmu 32
  | .amoaddW => amo f names mmu fun lhs b => lhs + b
  | .amoandW => amo f names mmu fun lhs b => lhs &&& b
  | .amoorW => amo f names mmu fun lhs b => lhs ||| b
  | .amoxorW => amo f names mmu fun lhs b => lhs ^^^ b
  | .amoswapW => amo f names mmu fun _ b => b
  | .amomaxW => amo f names mmu (max BitVec.slt)
  | .amomaxuW => amo f names mmu (max BitVec.ult)
  | .amominW => amo f names mmu (min BitVec.slt)
  | .amominuW => amo f names mmu (min BitVec.ult)
  | .lrW => lrW f names mmu
  | .scW => scW f names mmu
  | .csrrw => csrReg f true fun _ a => a
  | .csrrs => csrReg f f.writes fun old a => old ||| a
  | .csrrc => csrReg f f.writes fun old a => old &&& ~~~a
  | .csrrwi => csrFile f true fun _ => pure (Insn.rs1 f.insn)
  | .csrrsi => csrFile f f.writes fun old => pure (old ||| Insn.rs1 f.insn)
  | .csrrci => csrFile f f.writes fun old => pure (old &&& ~~~Insn.rs1 f.insn)
  | .cAdd =>
    behind (f.requireExtension .zca) (behind (f.require (Insn.rvcRs2 f.insn != 0#64)) do
      let a ← f.rvcRs1
      let b ← f.rvcRs2
      f.writeRd (a + b)
      pure f.npc)
  | .cMv =>
    behind (f.requireExtension .zca) (behind (f.require (Insn.rvcRs2 f.insn != 0#64)) do
      let b ← f.rvcRs2
      f.writeRd b
      pure f.npc)
  | .cAddi => behind (f.requireExtension .zca) (rvcRdImm f fun a => a + imm (Insn.rvcImm f.insn))
  | .cAddi4spn => behind (f.requireExtension .zca)
    (rvcAddSp f (Insn.rvcAddi4spnImm f.insn) f.writeRvcRs2s)
  | .cLi => behind (f.requireExtension .zca) (constant f (imm (Insn.rvcImm f.insn)))
  | .cLui =>
    behind (f.requireExtension .zca) (
      if Insn.rvcRd f.insn = 2#64 then rvcAddSp f (Insn.rvcAddi16spImm f.insn)
        (f.writeReg Frame.xSp)
      else behind (f.require (Insn.rvcImm f.insn != 0#64))
        (constant f (imm (Insn.rvcImm f.insn) <<< 12)))
  | .cSlli => rvcShift f (rvcRdImm f fun a => a <<< imm (Insn.rvcZimm f.insn))
  | .cSrli => rvcShift f (rvcRegImm f fun a => a >>> imm (Insn.rvcZimm f.insn))
  | .cSrai => rvcShift f (rvcRegImm f fun a => a.sshiftRight' (imm (Insn.rvcZimm f.insn)))
  | .cAndi => behind (f.requireExtension .zca) (rvcRegImm f fun a => a &&& imm (Insn.rvcImm f.insn))
  | .cSub => rvcRegReg f fun a b => a - b
  | .cXor => rvcRegReg f fun a b => a ^^^ b
  | .cOr => rvcRegReg f fun a b => a ||| b
  | .cAnd => rvcRegReg f fun a b => a &&& b
  | .cJ => behind (f.requireExtension .zca) (jumpTo f names (pc f + imm (Insn.rvcJImm f.insn)))
  | .cJal =>
    behind (f.requireExtension .zca)
      (link f names Frame.xRa 2#32 (pc f + imm (Insn.rvcJImm f.insn)))
  | .cJr => rvcJump f fun target => jumpTo f names target
  | .cJalr => rvcJump f fun target => link f names Frame.xRa 2#32 target
  | .cBeqz => rvcBranch f names fun a => a == 0#32
  | .cBnez => rvcBranch f names fun a => a != 0#32
  | .cEbreak => behind (f.requireExtension .zca) f.ebreak
  | .cLw =>
    behind (f.requireExtension .zca)
      (rvcLoad f names mmu f.rvcRs1s (Insn.rvcLwImm f.insn) f.writeRvcRs2s)
  | .cLwsp =>
    behind (f.requireExtension .zca) (behind (f.require (Insn.rvcRd f.insn != 0#64))
      (rvcLoad f names mmu f.rvcSp (Insn.rvcLwspImm f.insn) f.writeRd))
  | .cSw => rvcStore f names mmu f.rvcRs1s f.rvcRs2s (Insn.rvcLwImm f.insn)
  | .cSwsp => rvcStore f names mmu f.rvcSp f.rvcRs2 (Insn.rvcSwspImm f.insn)
  | .cFld => fpLoad f names mmu .zcd 64 f.rvcRs1s (Insn.rvcLdImm f.insn)
    (Insn.rvcRs2s f.insn) Frame.freg64
  | .cFldsp => fpLoad f names mmu .zcd 64 f.rvcSp (Insn.rvcLdspImm f.insn)
    (Insn.rd f.insn) Frame.freg64
  | .cFlw => fpLoad f names mmu .zcf 32 f.rvcRs1s (Insn.rvcLwImm f.insn)
    (Insn.rvcRs2s f.insn) Frame.freg32
  | .cFlwsp => fpLoad f names mmu .zcf 32 f.rvcSp (Insn.rvcLwspImm f.insn)
    (Insn.rd f.insn) Frame.freg32
  | .cFsd => fpStore f names mmu .zcd 64 f.rvcRs1s (Insn.rvcLdImm f.insn) (Insn.rvcRs2s f.insn)
  | .cFsdsp => fpStore f names mmu .zcd 64 f.rvcSp (Insn.rvcSdspImm f.insn) (Insn.rvcRs2 f.insn)
  | .cFsw => fpStore f names mmu .zcf 32 f.rvcRs1s (Insn.rvcLwImm f.insn) (Insn.rvcRs2s f.insn)
  | .cFswsp => fpStore f names mmu .zcf 32 f.rvcSp (Insn.rvcSwspImm f.insn) (Insn.rvcRs2 f.insn)
  | .fence => f.fence
  | .fenceI => f.fenceI
  | .dret => f.dret
  | .ebreak => f.ebreak
  | .ecall => f.ecall
  | .mret => f.mret
  | .sret => f.sret
  | .sfenceVma => f.sfenceVma
  | .wfi => f.wfi
  | .addw | .subw | .sllw | .srlw | .sraw | .addiw | .slliw | .srliw | .sraiw
  | .mulw | .divw | .divuw | .remw | .remuw | .lwu | .ld | .sd
  | .amoaddD | .amoandD | .amomaxD | .amomaxuD | .amominD | .amominuD | .amoorD
  | .amoswapD | .amoxorD | .lrD | .scD | .cAddw | .cSubw => throw f.illegalTrap

end Rv32

end Nnemu

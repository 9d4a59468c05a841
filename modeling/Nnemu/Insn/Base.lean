import Nnemu.Insn.Machine

/-!
# Handlers of the base instructions

The files of the integer, multiplication and atomic instructions, in `insns/`. Most are one
expression for the value of `rd`; the families share what surrounds it.

A family is a function of what its files differ in: `regReg` of the operation, `branch` of the
comparison, `load` of the width and the extension, `amo` of the operation and the width. The
multiplications of `arith.h` are written out as the source computes them, by halves and magnitudes,
since what they come to is a theorem and no definition.
-/

namespace Nnemu

/-! ### Arithmetic of the host -/

/-- `sext32` -/
def sext32 (x : Reg) : Reg :=
  (x.setWidth 32).signExtend 64

/-- `zext32` -/
def zext32 (x : Reg) : Reg :=
  (x.setWidth 32).setWidth 64

/-- A comparison as a value. -/
def flag (b : Bool) : Reg :=
  if b then 1#64 else 0#64

/-- `INT64_MIN` -/
def int64Min : Reg := BitVec.intMin 64

/-- `mulhu` of `arith.h` -/
def mulhu64 (a b : Reg) : Reg :=
  let a0 := zext32 a
  let a1 := a >>> 32
  let b0 := zext32 b
  let b1 := b >>> 32
  let t := a1 * b0 + ((a0 * b0) >>> 32)
  let y1 := zext32 t
  let y2 := t >>> 32
  let t := a0 * b1 + y1
  let t := a1 * b1 + y2 + (t >>> 32)
  let y2 := zext32 t
  let y3 := t >>> 32
  (y3 <<< 32) ||| y2

/-- `a < 0 ? -a : a` -/
def magnitude (a : Reg) : Reg :=
  if a.msb then -a else a

/-- `negate ? ~res + (a * b == 0) : res` -/
def negateHigh (negate : Bool) (res product : Reg) : Reg :=
  if negate then ~~~res + flag (product == 0#64) else res

/-- `mulh` of `arith.h` -/
def mulh64 (a b : Reg) : Reg :=
  negateHigh (a.msb != b.msb) (mulhu64 (magnitude a) (magnitude b)) (a * b)

/-- `mulhsu` of `arith.h` -/
def mulhsu64 (a b : Reg) : Reg :=
  negateHigh a.msb (mulhu64 (magnitude a) b) (a * b)

namespace Frame

variable (f : Frame) {ω ι : Type}

/-! ### Families -/

/-- `WRITE_RD(op(RS1, RS2))` -/
def regReg (op : Reg → Reg → Reg) : InsnM 64 ω ι Reg := do
  let a ← f.rs1
  let b ← f.rs2
  f.writeRd (op a b)
  pure f.npc

/-- `WRITE_RD(op(RS1))` -/
def regImm (op : Reg → Reg) : InsnM 64 ω ι Reg := do
  let a ← f.rs1
  f.writeRd (op a)
  pure f.npc

/-- `require_rv64` in front of a file. -/
def onRv64 (body : InsnM 64 ω ι Reg) : InsnM 64 ω ι Reg := do
  f.requireRv64
  body

/-- `require_extension('M')` in front of a file. -/
def withM (body : InsnM 64 ω ι Reg) : InsnM 64 ω ι Reg := do
  f.requireExtension .m
  body

/-- `require_either_extension('M', EXT_ZMMUL)` in front of a file. -/
def withMul (body : InsnM 64 ω ι Reg) : InsnM 64 ω ι Reg := do
  f.requireEitherExtension .m .zmmul
  body

/-! ### Registers -/

/-- `add` -/
def add : InsnM 64 ω ι Reg :=
  f.regReg fun a b => f.sextXlen (a + b)

/-- `sub` -/
def sub : InsnM 64 ω ι Reg :=
  f.regReg fun a b => f.sextXlen (a - b)

/-- `and` -/
def and : InsnM 64 ω ι Reg :=
  f.regReg fun a b => a &&& b

/-- `or` -/
def or : InsnM 64 ω ι Reg :=
  f.regReg fun a b => a ||| b

/-- `xor` -/
def xor : InsnM 64 ω ι Reg :=
  f.regReg fun a b => a ^^^ b

/-- `slt` -/
def slt : InsnM 64 ω ι Reg :=
  f.regReg fun a b => flag (a.slt b)

/-- `sltu` -/
def sltu : InsnM 64 ω ι Reg :=
  f.regReg fun a b => flag (a.ult b)

/-- `sll` -/
def sll : InsnM 64 ω ι Reg :=
  f.regReg fun a b => f.sextXlen (a <<< (b &&& f.shamtMask))

/-- `srl` -/
def srl : InsnM 64 ω ι Reg :=
  f.regReg fun a b => f.sextXlen (f.zextXlen a >>> (b &&& f.shamtMask))

/-- `sra` -/
def sra : InsnM 64 ω ι Reg :=
  f.regReg fun a b => f.sextXlen ((f.sextXlen a).sshiftRight' (b &&& f.shamtMask))

/-- `addw` -/
def addw : InsnM 64 ω ι Reg :=
  f.onRv64 (f.regReg fun a b => sext32 (a + b))

/-- `subw` -/
def subw : InsnM 64 ω ι Reg :=
  f.onRv64 (f.regReg fun a b => sext32 (a - b))

/-- `sllw` -/
def sllw : InsnM 64 ω ι Reg :=
  f.onRv64 (f.regReg fun a b => sext32 (a <<< (b &&& 0x1f#64)))

/-- `srlw` -/
def srlw : InsnM 64 ω ι Reg :=
  f.onRv64 (f.regReg fun a b => (a.setWidth 32 >>> (b &&& 0x1f#64)).signExtend 64)

/-- `sraw` -/
def sraw : InsnM 64 ω ι Reg :=
  f.onRv64 (f.regReg fun a b => ((a.setWidth 32).sshiftRight' (b &&& 0x1f#64)).signExtend 64)

/-! ### Immediates -/

/-- `addi` -/
def addi : InsnM 64 ω ι Reg :=
  f.regImm fun a => f.sextXlen (a + Insn.iImm f.insn)

/-- `andi` -/
def andi : InsnM 64 ω ι Reg :=
  f.regImm fun a => Insn.iImm f.insn &&& a

/-- `ori` -/
def ori : InsnM 64 ω ι Reg :=
  f.regImm fun a => Insn.iImm f.insn ||| a

/-- `xori` -/
def xori : InsnM 64 ω ι Reg :=
  f.regImm fun a => Insn.iImm f.insn ^^^ a

/-- `slti` -/
def slti : InsnM 64 ω ι Reg :=
  f.regImm fun a => flag (a.slt (Insn.iImm f.insn))

/-- `sltiu` -/
def sltiu : InsnM 64 ω ι Reg :=
  f.regImm fun a => flag (a.ult (Insn.iImm f.insn))

/-- `require(SHAMT < xlen)` in front of a file. -/
def withShamt (body : InsnM 64 ω ι Reg) : InsnM 64 ω ι Reg := do
  f.require (decide (Insn.shamt f.insn < BitVec.ofNat 64 f.cfg.isa.xlen.bits))
  body

/-- `slli` -/
def slli : InsnM 64 ω ι Reg :=
  f.withShamt (f.regImm fun a => f.sextXlen (a <<< Insn.shamt f.insn))

/-- `srli` -/
def srli : InsnM 64 ω ι Reg :=
  f.withShamt (f.regImm fun a => f.sextXlen (f.zextXlen a >>> Insn.shamt f.insn))

/-- `srai` -/
def srai : InsnM 64 ω ι Reg :=
  f.withShamt (f.regImm fun a => f.sextXlen ((f.sextXlen a).sshiftRight' (Insn.shamt f.insn)))

/-- `addiw` -/
def addiw : InsnM 64 ω ι Reg :=
  f.onRv64 (f.regImm fun a => sext32 (Insn.iImm f.insn + a))

/-- `slliw` -/
def slliw : InsnM 64 ω ι Reg :=
  f.onRv64 (f.regImm fun a => sext32 (a <<< Insn.shamt f.insn))

/-- `srliw` -/
def srliw : InsnM 64 ω ι Reg :=
  f.onRv64 (f.regImm fun a => (a.setWidth 32 >>> Insn.shamt f.insn).signExtend 64)

/-- `sraiw` -/
def sraiw : InsnM 64 ω ι Reg :=
  f.onRv64 (f.regImm fun a => ((a.setWidth 32).sshiftRight' (Insn.shamt f.insn)).signExtend 64)

/-- `lui` -/
def lui : InsnM 64 ω ι Reg := do
  f.writeRd (Insn.uImm f.insn)
  pure f.npc

/-- `auipc` -/
def auipc : InsnM 64 ω ι Reg := do
  f.writeRd (f.sextXlen (Insn.uImm f.insn + f.pc))
  pure f.npc

/-! ### Multiplication and division -/

/-- `mul` -/
def mul : InsnM 64 ω ι Reg :=
  f.withMul (f.regReg fun a b => f.sextXlen (a * b))

/-- `mulh` -/
def mulh : InsnM 64 ω ι Reg :=
  f.withMul (f.regReg fun a b =>
    match f.cfg.isa.xlen with
    | .rv64 => mulh64 a b
    | .rv32 => sext32 ((sext32 a * sext32 b).sshiftRight 32))

/-- `mulhsu`: the product is unsigned. -/
def mulhsu : InsnM 64 ω ι Reg :=
  f.withMul (f.regReg fun a b =>
    match f.cfg.isa.xlen with
    | .rv64 => mulhsu64 a b
    | .rv32 => sext32 ((sext32 a * zext32 b) >>> 32))

/-- `mulhu` -/
def mulhu : InsnM 64 ω ι Reg :=
  f.withMul (f.regReg fun a b =>
    match f.cfg.isa.xlen with
    | .rv64 => mulhu64 a b
    | .rv32 => sext32 ((zext32 a * zext32 b) >>> 32))

/-- `mulw` -/
def mulw : InsnM 64 ω ι Reg :=
  f.withMul (f.onRv64 (f.regReg fun a b => sext32 (a * b)))

/-- `div` -/
def div : InsnM 64 ω ι Reg :=
  f.withM (f.regReg fun a b =>
    let lhs := f.sextXlen a
    let rhs := f.sextXlen b
    if rhs = 0#64 then BitVec.allOnes 64
    else if lhs = int64Min ∧ rhs = -1#64 then lhs
    else f.sextXlen (lhs.sdiv rhs))

/-- `divu` -/
def divu : InsnM 64 ω ι Reg :=
  f.withM (f.regReg fun a b =>
    let lhs := f.zextXlen a
    let rhs := f.zextXlen b
    if rhs = 0#64 then BitVec.allOnes 64 else f.sextXlen (lhs / rhs))

/-- `rem` -/
def rem : InsnM 64 ω ι Reg :=
  f.withM (f.regReg fun a b =>
    let lhs := f.sextXlen a
    let rhs := f.sextXlen b
    if rhs = 0#64 then lhs
    else if lhs = int64Min ∧ rhs = -1#64 then 0#64
    else f.sextXlen (lhs.srem rhs))

/-- `remu` -/
def remu : InsnM 64 ω ι Reg :=
  f.withM (f.regReg fun a b =>
    let lhs := f.zextXlen a
    let rhs := f.zextXlen b
    if rhs = 0#64 then f.sextXlen a else f.sextXlen (lhs % rhs))

/-- `divw` -/
def divw : InsnM 64 ω ι Reg :=
  f.withM (f.onRv64 (f.regReg fun a b =>
    let lhs := sext32 a
    let rhs := sext32 b
    if rhs = 0#64 then BitVec.allOnes 64 else sext32 (lhs.sdiv rhs)))

/-- `divuw` -/
def divuw : InsnM 64 ω ι Reg :=
  f.withM (f.onRv64 (f.regReg fun a b =>
    let lhs := zext32 a
    let rhs := zext32 b
    if rhs = 0#64 then BitVec.allOnes 64 else sext32 (lhs / rhs)))

/-- `remw` -/
def remw : InsnM 64 ω ι Reg :=
  f.withM (f.onRv64 (f.regReg fun a b =>
    let lhs := sext32 a
    let rhs := sext32 b
    if rhs = 0#64 then lhs else sext32 (lhs.srem rhs)))

/-- `remuw` -/
def remuw : InsnM 64 ω ι Reg :=
  f.withM (f.onRv64 (f.regReg fun a b =>
    let lhs := zext32 a
    let rhs := zext32 b
    if rhs = 0#64 then sext32 lhs else sext32 (lhs % rhs)))

/-! ### Branches and jumps -/

/-- A file that tests and jumps. -/
def branch (taken : Reg → Reg → Bool) : InsnM 64 ω ι Reg := do
  let a ← f.rs1
  let b ← f.rs2
  if taken a b then f.setPc (f.pc + Insn.sbImm f.insn) else pure f.npc

/-- `beq` -/
def beq : InsnM 64 ω ι Reg :=
  f.branch fun a b => a == b

/-- `bne` -/
def bne : InsnM 64 ω ι Reg :=
  f.branch fun a b => a != b

/-- `blt` -/
def blt : InsnM 64 ω ι Reg :=
  f.branch fun a b => a.slt b

/-- `bge` -/
def bge : InsnM 64 ω ι Reg :=
  f.branch fun a b => b.sle a

/-- `bltu` -/
def bltu : InsnM 64 ω ι Reg :=
  f.branch fun a b => a.ult b

/-- `bgeu` -/
def bgeu : InsnM 64 ω ι Reg :=
  f.branch fun a b => b.ule a

/-- `jal` -/
def jal : InsnM 64 ω ι Reg := do
  let npc ← f.setPc (f.pc + Insn.ujImm f.insn)
  f.writeRd f.npc
  pure npc

/-- `jalr` -/
def jalr : InsnM 64 ω ι Reg := do
  let a ← f.rs1
  let npc ← f.setPc ((a + Insn.iImm f.insn) &&& ~~~1#64)
  f.writeRd f.npc
  pure npc

/-! ### Loads and stores -/

variable (mmu : Mmu ω ι)

/-- `WRITE_RD(MMU.load<T>(RS1 + insn.i_imm()))` -/
def load (n : Nat) (extend : BitVec n → Reg) : InsnM 64 ω ι Reg := do
  let a ← f.rs1
  let val ← InsnM.access (mmu.load n (a + Insn.iImm f.insn))
  f.writeRd (extend val)
  pure f.npc

/-- `MMU.store<T>(RS1 + insn.s_imm(), RS2)` -/
def store (n : Nat) : InsnM 64 ω ι Reg := do
  let a ← f.rs1
  let b ← f.rs2
  InsnM.access (mmu.store n (a + Insn.sImm f.insn) (b.setWidth n))
  pure f.npc

/-- `lb` -/
def lb : InsnM 64 ω ι Reg :=
  f.load mmu 8 fun val => val.signExtend 64

/-- `lbu` -/
def lbu : InsnM 64 ω ι Reg :=
  f.load mmu 8 fun val => val.setWidth 64

/-- `lh` -/
def lh : InsnM 64 ω ι Reg :=
  f.load mmu 16 fun val => val.signExtend 64

/-- `lhu` -/
def lhu : InsnM 64 ω ι Reg :=
  f.load mmu 16 fun val => val.setWidth 64

/-- `lw` -/
def lw : InsnM 64 ω ι Reg :=
  f.load mmu 32 fun val => val.signExtend 64

/-- `lwu` -/
def lwu : InsnM 64 ω ι Reg :=
  f.onRv64 (f.load mmu 32 fun val => val.setWidth 64)

/-- `ld` -/
def ld : InsnM 64 ω ι Reg :=
  f.onRv64 (f.load mmu 64 fun val => val)

/-- `sb` -/
def sb : InsnM 64 ω ι Reg :=
  f.store mmu 8

/-- `sh` -/
def sh : InsnM 64 ω ι Reg :=
  f.store mmu 16

/-- `sw` -/
def sw : InsnM 64 ω ι Reg :=
  f.store mmu 32

/-- `sd` -/
def sd : InsnM 64 ω ι Reg :=
  f.onRv64 (f.store mmu 64)

/-! ### Atomics -/

/-- `require_extension('A')` in front of a file. -/
def withA (body : InsnM 64 ω ι Reg) : InsnM 64 ω ι Reg := do
  f.requireExtension .a
  body

/-- `RS2` in a function that is called later: the value, or the trap of `CHECK_REG`. -/
def laterRs2 {w : Nat} : InsnM w ω ι (Except Thrown (BitVec w)) := do
  let c ← get
  let reg := Insn.rs2 f.insn
  pure (if !f.rve || decide (reg < 16#64) then .ok (c.rest.xpr.val (reg.setWidth 5))
    else .error f.illegalTrap)

/-- `WRITE_RD(MMU.amo<T>(RS1, op))`, extended with its sign. -/
def amo (n : Nat) (op : BitVec n → Reg → BitVec n) : InsnM 64 ω ι Reg := do
  let a ← f.rs1
  let b ← f.laterRs2
  let lhs ← InsnM.access (mmu.amo n a fun lhs => b.map (op lhs))
  f.writeRd (lhs.signExtend 64)
  pure f.npc

/-- `amoX_w` -/
def amoW (op : BitVec 32 → Reg → BitVec 32) : InsnM 64 ω ι Reg :=
  f.withA (f.amo mmu 32 op)

/-- `amoX_d` -/
def amoD (op : BitVec 64 → Reg → BitVec 64) : InsnM 64 ω ι Reg :=
  f.withA (f.onRv64 (f.amo mmu 64 op))

/-- The sum, cut to the width by the store. -/
def amoAddOp (n : Nat) (lhs : BitVec n) (rs2 : Reg) : BitVec n :=
  (lhs.setWidth 64 + rs2).setWidth n

/-- `lhs & RS2` -/
def amoAndOp (n : Nat) (lhs : BitVec n) (rs2 : Reg) : BitVec n :=
  (lhs.setWidth 64 &&& rs2).setWidth n

/-- `lhs | RS2` -/
def amoOrOp (n : Nat) (lhs : BitVec n) (rs2 : Reg) : BitVec n :=
  (lhs.setWidth 64 ||| rs2).setWidth n

/-- `lhs ^ RS2` -/
def amoXorOp (n : Nat) (lhs : BitVec n) (rs2 : Reg) : BitVec n :=
  (lhs.setWidth 64 ^^^ rs2).setWidth n

/-- `RS2` -/
def amoSwapOp (n : Nat) (_ : BitVec n) (rs2 : Reg) : BitVec n :=
  rs2.setWidth n

/-- `std::max(lhs, RS2)` by `less` -/
def amoMaxOp (n : Nat) (less : BitVec n → BitVec n → Bool) (lhs : BitVec n) (rs2 : Reg) :
    BitVec n :=
  if less lhs (rs2.setWidth n) then rs2.setWidth n else lhs

/-- `std::min(lhs, RS2)` by `less` -/
def amoMinOp (n : Nat) (less : BitVec n → BitVec n → Bool) (lhs : BitVec n) (rs2 : Reg) :
    BitVec n :=
  if less (rs2.setWidth n) lhs then rs2.setWidth n else lhs

/-- `amoadd_d` -/
def amoaddD : InsnM 64 ω ι Reg := f.amoD mmu (amoAddOp 64)
/-- `amoadd_w` -/
def amoaddW : InsnM 64 ω ι Reg := f.amoW mmu (amoAddOp 32)
/-- `amoand_d` -/
def amoandD : InsnM 64 ω ι Reg := f.amoD mmu (amoAndOp 64)
/-- `amoand_w` -/
def amoandW : InsnM 64 ω ι Reg := f.amoW mmu (amoAndOp 32)
/-- `amomax_d` -/
def amomaxD : InsnM 64 ω ι Reg := f.amoD mmu (amoMaxOp 64 BitVec.slt)
/-- `amomaxu_d` -/
def amomaxuD : InsnM 64 ω ι Reg := f.amoD mmu (amoMaxOp 64 BitVec.ult)
/-- `amomaxu_w` -/
def amomaxuW : InsnM 64 ω ι Reg := f.amoW mmu (amoMaxOp 32 BitVec.ult)
/-- `amomax_w` -/
def amomaxW : InsnM 64 ω ι Reg := f.amoW mmu (amoMaxOp 32 BitVec.slt)
/-- `amomin_d` -/
def amominD : InsnM 64 ω ι Reg := f.amoD mmu (amoMinOp 64 BitVec.slt)
/-- `amominu_d` -/
def amominuD : InsnM 64 ω ι Reg := f.amoD mmu (amoMinOp 64 BitVec.ult)
/-- `amominu_w` -/
def amominuW : InsnM 64 ω ι Reg := f.amoW mmu (amoMinOp 32 BitVec.ult)
/-- `amomin_w` -/
def amominW : InsnM 64 ω ι Reg := f.amoW mmu (amoMinOp 32 BitVec.slt)
/-- `amoor_d` -/
def amoorD : InsnM 64 ω ι Reg := f.amoD mmu (amoOrOp 64)
/-- `amoor_w` -/
def amoorW : InsnM 64 ω ι Reg := f.amoW mmu (amoOrOp 32)
/-- `amoswap_d` -/
def amoswapD : InsnM 64 ω ι Reg := f.amoD mmu (amoSwapOp 64)
/-- `amoswap_w` -/
def amoswapW : InsnM 64 ω ι Reg := f.amoW mmu (amoSwapOp 32)
/-- `amoxor_d` -/
def amoxorD : InsnM 64 ω ι Reg := f.amoD mmu (amoXorOp 64)
/-- `amoxor_w` -/
def amoxorW : InsnM 64 ω ι Reg := f.amoW mmu (amoXorOp 32)

/-- `WRITE_RD(MMU.load_reserved<T>(RS1))` -/
def loadReserved (n : Nat) : InsnM 64 ω ι Reg := do
  let a ← f.rs1
  let val ← InsnM.access (mmu.loadReserved n a)
  f.writeRd (val.signExtend 64)
  pure f.npc

/-- `lr_w` -/
def lrW : InsnM 64 ω ι Reg :=
  f.withA (f.loadReserved mmu 32)

/-- `lr_d` -/
def lrD : InsnM 64 ω ι Reg :=
  f.withA (f.onRv64 (f.loadReserved mmu 64))

/-- The files of the conditional stores. -/
def storeConditional (n : Nat) : InsnM 64 ω ι Reg := do
  let a ← f.rs1
  let b ← f.rs2
  let haveReservation ← InsnM.access (mmu.storeConditional n a (b.setWidth n))
  f.writeRd (flag !haveReservation)
  pure f.npc

/-- `sc_w` -/
def scW : InsnM 64 ω ι Reg :=
  f.withA (f.storeConditional mmu 32)

/-- `sc_d` -/
def scD : InsnM 64 ω ι Reg :=
  f.withA (f.onRv64 (f.storeConditional mmu 64))

end Frame

end Nnemu

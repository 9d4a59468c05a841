import Nnemu.Insn.Decode
import Nnemu.Insn.Fields
import Nnemu.Loop.Basic

/-!
# What handlers are written in

The macros of `decode_macros.h`. A handler is a program on a processor whose rest is a `Machine`:
the integer and the floating-point registers, and what lies behind the MMU. Accesses to memory are
programs of the MMU (`Mmu`), a parameter: they see the hart, the triggers and the memory, and no
register file.

The file of an instruction is included into eight functions. What differs between them, and their
arguments, is a `Frame`; the file is a function of it. Registers have a width, 64 in the simulator,
so that the same words serve for a machine with registers of 32 bits.

A refusal of a check is an exception of the program (`require` and its relatives), and what has been
done before stays done, as in the source. Accesses to memory come back with a value or a trap, and
may change the hart they are given, since devices drive it.
-/

namespace Nnemu

/-! ### Registers -/

/-- `regfile_t<reg_t, NXPR, true>`: register 0 is hard-wired. -/
structure Xpr (w : Nat) where
  val : BitVec 5 → BitVec w
  zero : val 0#5 = 0#w

namespace Xpr

variable {w : Nat}

/-- `regfile_t::reset` -/
def reset : Xpr w :=
  ⟨fun _ => 0#w, rfl⟩

/-- `regfile_t::write` -/
def write (x : Xpr w) (i : BitVec 5) (value : BitVec w) : Xpr w where
  val := if i = 0#5 then x.val else Function.update x.val i value
  zero := by
    by_cases hi : i = 0#5
    · rw [if_pos hi, x.zero]
    · rw [if_neg hi, Function.update_of_ne (Ne.symm hi), x.zero]

end Xpr

/-- The rest of a processor. -/
structure Machine (w : Nat) (ω : Type) where
  xpr : Xpr w
  /-- `FPR`, the low and the high part of an `freg_t` -/
  fpr : BitVec 5 → BitVec 128
  /-- memory, devices, TLBs, the reservation and the other harts -/
  world : ω

/-- Programs of handlers. -/
abbrev InsnM (w : Nat) (ω ι : Type) : Type → Type :=
  CpuM (Machine w ω) ι

/-- Registers of `w` bits as the simulator holds them: extended with their signs. -/
def Xpr.widen {w : Nat} (x : Xpr w) : Xpr 64 where
  val i := (x.val i).signExtend 64
  zero := by
    rw [x.zero, BitVec.signExtend_eq_setWidth_of_msb_false BitVec.msb_zero, BitVec.setWidth_zero]

/-! ### Memory -/

/-- The same processor with something else for the rest. -/
def Cpu.withRest {σ τ ι : Type} (c : Cpu σ ι) (s : τ) : Cpu τ ι where
  hart := c.hart
  serialized := c.serialized
  checkTriggersIcount := c.checkTriggersIcount
  matchedTrigger := c.matchedTrigger
  icache := c.icache
  ledger := c.ledger
  rest := s

/-- A processor with registers of `w` bits as the simulator holds it. -/
def Cpu.widen {w : Nat} {ω ι : Type} (c : Cpu (Machine w ω) ι) : Cpu (Machine 64 ω) ι :=
  c.withRest { xpr := c.rest.xpr.widen, fpr := c.rest.fpr, world := c.rest.world }

/-- What a handler asks of `mmu_t`, by the number of bits. -/
structure Mmu (ω ι : Type) where
  /-- `load<T>` -/
  load (n : Nat) (addr : Reg) : CpuM ω ι (BitVec n)
  /-- `store<T>` -/
  store (n : Nat) (addr : Reg) (val : BitVec n) : CpuM ω ι Unit
  /-- `store_slow_path(addr, sizeof(T), nullptr, 0, false, true)` -/
  checkStore (n : Nat) (addr : Reg) : CpuM ω ι Unit
  /-- `load_reserved<T>` -/
  loadReserved (n : Nat) (addr : Reg) : CpuM ω ι (BitVec n)
  /-- `check_load_reservation(addr, sizeof(T))` -/
  checkLoadReservation (n : Nat) (addr : Reg) : CpuM ω ι Bool
  /-- `yield_load_reservation` -/
  yieldLoadReservation : CpuM ω ι Unit

namespace Mmu

variable {ω ι : Type} (mmu : Mmu ω ι)

/-- The trap that a store reports where a load reports this one. -/
def storeTrap (t : Trap) : Trap :=
  { t with
    cause :=
      if t.cause = 4#64 then 6#64
      else if t.cause = 5#64 then 7#64
      else if t.cause = 13#64 then 15#64
      else if t.cause = 21#64 then 23#64
      else t.cause }

/-- `convert_load_traps_to_store_traps` -/
def convertLoadTrapsToStoreTraps {α : Type} (body : CpuM ω ι α) : CpuM ω ι α := fun c =>
  match body c with
  | .ok a c' => .ok a c'
  | .error (.trap t) c' => .error (.trap (storeTrap t)) c'
  | .error e c' => .error e c'

/-- `mmu_t::amo`. The operation reads a register, which `CHECK_REG` may refuse. -/
def amo (n : Nat) (addr : Reg) (f : BitVec n → Except Thrown (BitVec n)) : CpuM ω ι (BitVec n) :=
  convertLoadTrapsToStoreTraps do
    mmu.checkStore n addr
    let lhs ← mmu.load n addr
    let val ← match f lhs with
      | .ok val => pure val
      | .error e => throw e
    mmu.store n addr val
    pure lhs

/-- `mmu_t::store_conditional` -/
def storeConditional (n : Nat) (addr : Reg) (val : BitVec n) : CpuM ω ι Bool := do
  let haveReservation ← mmu.checkLoadReservation n addr
  if haveReservation then mmu.store n addr val
  mmu.yieldLoadReservation
  pure haveReservation

end Mmu

/-- A program of the MMU in a handler. -/
def InsnM.access {w : Nat} {ω ι α : Type} (x : CpuM ω ι α) : InsnM w ω ι α := fun c =>
  match x (c.withRest c.rest.world) with
  | .ok a c' => .ok a (c'.withRest { c.rest with world := c'.rest })
  | .error e c' => .error e (c'.withRest { c.rest with world := c'.rest })

/-! ### Frames -/

/-- What the file of an instruction sees besides the state. -/
structure Frame where
  cfg : Config
  /-- is `CHECK_REG` that of RV32E and RV64E? -/
  rve : Bool
  insn : Reg
  pc : Reg
  npc : Reg
  /-- `insn.bits()` in `require` -/
  bits : Reg

namespace Frame

variable (f : Frame) {w : Nat} {ω ι : Type}

/-! ### Arithmetic -/

/-- `sext_xlen` -/
def sextXlen (x : Reg) : Reg :=
  Hart.sextXlen f.cfg x

/-- `zext_xlen` -/
def zextXlen (x : Reg) : Reg :=
  f.cfg.isa.xlen.zext x

/-- `xlen - 1`, as a mask. -/
def shamtMask : Reg :=
  BitVec.ofNat 64 (f.cfg.isa.xlen.bits - 1)

/-! ### Checks -/

/-- `trap_illegal_instruction(insn.bits())` -/
def illegalTrap : Thrown :=
  .trap { cause := Hart.causeIllegalInstruction, tval := f.bits }

/-- `require` -/
def require (b : Bool) : InsnM w ω ι Unit :=
  if b then pure () else throw f.illegalTrap

/-- `require_rv64` -/
def requireRv64 : InsnM w ω ι Unit :=
  f.require (f.cfg.isa.xlen == .rv64)

/-- `require_extension` -/
def requireExtension (ext : Ext) : InsnM w ω ι Unit := do
  let c ← get
  f.require (c.hart.extensionEnabled ext)

/-- `require_either_extension` -/
def requireEitherExtension (ext ext' : Ext) : InsnM w ω ι Unit := do
  let c ← get
  f.require (c.hart.extensionEnabled ext || c.hart.extensionEnabled ext')

@[simp] theorem require_true : (f.require true : InsnM w ω ι Unit) = pure () := rfl

@[simp] theorem require_false : (f.require false : InsnM w ω ι Unit) = throw f.illegalTrap := rfl

theorem requireExtension_apply (ext : Ext) (c : Cpu (Machine w ω) ι) :
    f.requireExtension ext c = f.require (c.hart.extensionEnabled ext) c := rfl

/-- The trap of a refused access, or the result. -/
def orRefuse {α : Type} : Except Refusal α → InsnM w ω ι α
  | .ok a => pure a
  | .error .illegal => throw f.illegalTrap
  | .error .virtual => throw (.trap { cause := Hart.causeVirtualInstruction, tval := f.bits })
  -- the program is over, whatever is thrown
  | .error .crash => do
    modify fun c => c.withHart Hart.abort
    throw f.illegalTrap

/-- `require_fp` -/
def requireFp : InsnM w ω ι Unit := do
  let c ← get
  f.orRefuse (c.hart.verifyCsr f.cfg false .fflags)

/-! ### Integer registers -/

/-- `CHECK_REG` -/
def checkReg (reg : Reg) : InsnM w ω ι Unit :=
  f.require (!f.rve || decide (reg < 16#64))

/-- `READ_REG`. The numbers that decoders give have five bits. -/
def readReg (reg : Reg) : InsnM w ω ι (BitVec w) := do
  f.checkReg reg
  let c ← get
  pure (c.rest.xpr.val (reg.setWidth 5))

/-- `WRITE_REG` -/
def writeReg (reg : Reg) (value : BitVec w) : InsnM w ω ι Unit := do
  f.checkReg reg
  modify fun c => c.withRest { c.rest with xpr := c.rest.xpr.write (reg.setWidth 5) value }

/-- `RS1` -/
def rs1 : InsnM w ω ι (BitVec w) :=
  f.readReg (Insn.rs1 f.insn)

/-- `RS2` -/
def rs2 : InsnM w ω ι (BitVec w) :=
  f.readReg (Insn.rs2 f.insn)

/-- `WRITE_RD` -/
def writeRd (value : BitVec w) : InsnM w ω ι Unit :=
  f.writeReg (Insn.rd f.insn) value

/-- `RVC_RS1` -/
def rvcRs1 : InsnM w ω ι (BitVec w) :=
  f.readReg (Insn.rvcRs1 f.insn)

/-- `RVC_RS2` -/
def rvcRs2 : InsnM w ω ι (BitVec w) :=
  f.readReg (Insn.rvcRs2 f.insn)

/-- `RVC_RS1S` -/
def rvcRs1s : InsnM w ω ι (BitVec w) :=
  f.readReg (Insn.rvcRs1s f.insn)

/-- `RVC_RS2S` -/
def rvcRs2s : InsnM w ω ι (BitVec w) :=
  f.readReg (Insn.rvcRs2s f.insn)

/-- `X_RA` -/
def xRa : Reg := 1#64

/-- `X_SP` -/
def xSp : Reg := 2#64

/-- `RVC_SP` -/
def rvcSp : InsnM w ω ι (BitVec w) :=
  f.readReg xSp

/-- `WRITE_RVC_RS1S` -/
def writeRvcRs1s (value : BitVec w) : InsnM w ω ι Unit :=
  f.writeReg (Insn.rvcRs1s f.insn) value

/-- `WRITE_RVC_RS2S` -/
def writeRvcRs2s (value : BitVec w) : InsnM w ω ι Unit :=
  f.writeReg (Insn.rvcRs2s f.insn) value

/-! ### Floating-point registers -/

/-- `READ_FREG(reg).v[0]` -/
def readFreg (reg : Reg) : InsnM w ω ι Reg := do
  let c ← get
  pure ((c.rest.fpr (reg.setWidth 5)).setWidth 64)

/-- `WRITE_FREG`, which makes the state dirty. -/
def writeFreg (reg : Reg) (value : BitVec 128) : InsnM w ω ι Unit := do
  modify fun c => c.withRest
    { c.rest with fpr := Function.update c.rest.fpr (reg.setWidth 5) value }
  modify fun c => c.withHart fun h => h.dirty f.cfg mstatusFs

/-- `freg(f32(v))`: boxed -/
def freg32 (v : BitVec 32) : BitVec 128 :=
  BitVec.allOnes 96 ++ v

/-- `freg(f64(v))`: boxed -/
def freg64 (v : BitVec 64) : BitVec 128 :=
  BitVec.allOnes 64 ++ v

/-! ### The program counter -/

/-- `set_pc`: the new `npc`. -/
def setPc (x : Reg) : InsnM w ω ι Reg := do
  let c ← get
  match c.hart.setPc f.cfg x with
  | .ok npc => pure npc
  | .error t => throw (.trap t)

/-- `set_pc_and_serialize`: the new `npc`. -/
def setPcAndSerialize (x : Reg) : InsnM w ω ι Reg := do
  modify fun c => c.withHart fun h => h.setPcAndSerialize x
  pure pcSerializeAfter

end Frame

end Nnemu

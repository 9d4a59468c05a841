import Nnemu.Insn.Machine

/-!
# Handlers of the system instructions

The files of the CSR instructions, the calls, the returns and the fences. They are stated for
registers of any width, since all they do with registers is to hand CSR values over: what a `Config`
of RV32 makes of these is decided by `sext_xlen` and by `put_csr`, for which the value of a register
is extended with its sign.
-/

namespace Nnemu

namespace Frame

variable (f : Frame) {w : Nat} {ω ι : Type}

/-! ### CSR accesses -/

/-- `p->get_csr` -/
def getCsr (which : Reg) (write : Bool) : InsnM w ω ι Reg := do
  let c ← get
  f.orRefuse (c.hart.getCsr f.cfg which.toNat write)

/-- `p->put_csr`. A write to a trigger may change what `trigger_updated` keeps. -/
def putCsr (which val : Reg) : InsnM w ω ι Unit :=
  modify fun c =>
    let c' := c.withHart fun h => h.putCsr f.cfg which.toNat val
    if which ∈ [0x7a1#64, 0x7a2#64, 0x7a3#64] ∧ c'.hart.tlbFlushes ≠ c.hart.tlbFlushes then
      { c' with checkTriggersIcount := c'.hart.triggers.any Trigger.icountCheckNeeded }
    else c'

/-- `validate_csr`: the rest of the file, unless the instruction has to wait for serialization. -/
def validateCsr (rest : InsnM w ω ι Reg) : InsnM w ω ι Reg := do
  let c ← get
  if c.serialized then
    modify fun c => { c with serialized := false }
    rest
  else pure pcSerializeBefore

/-- The files of the CSR instructions. `operand` is what `put_csr` gets, made of the old value;
`result` what `rd` gets. -/
def csrFile (write : Bool) (operand : Reg → InsnM w ω ι Reg) (result : Reg → BitVec w) :
    InsnM w ω ι Reg :=
  validateCsr do
    let old ← f.getCsr (Insn.csr f.insn) write
    if write then
      let val ← operand old
      f.putCsr (Insn.csr f.insn) val
    f.writeRd (result old)
    setPcAndSerialize f.npc

/-- `insn.rs1() != 0` -/
def writes : Bool :=
  Insn.rs1 f.insn != 0#64

/-- `csrrw` -/
def csrrw : InsnM 64 ω ι Reg :=
  f.csrFile true (fun _ => f.rs1) f.sextXlen

/-- `csrrs` -/
def csrrs : InsnM 64 ω ι Reg :=
  f.csrFile f.writes (fun old => do
    let a ← f.rs1
    pure (old ||| a)) f.sextXlen

/-- `csrrc` -/
def csrrc : InsnM 64 ω ι Reg :=
  f.csrFile f.writes (fun old => do
    let a ← f.rs1
    pure (old &&& ~~~a)) f.sextXlen

/-- `csrrwi` -/
def csrrwi : InsnM 64 ω ι Reg :=
  f.csrFile true (fun _ => pure (Insn.rs1 f.insn)) f.sextXlen

/-- `csrrsi` -/
def csrrsi : InsnM 64 ω ι Reg :=
  f.csrFile f.writes (fun old => pure (old ||| Insn.rs1 f.insn)) f.sextXlen

/-- `csrrci` -/
def csrrci : InsnM 64 ω ι Reg :=
  f.csrFile f.writes (fun old => pure (old &&& ~~~Insn.rs1 f.insn)) f.sextXlen

/-! ### Calls and returns -/

/-- A trap without values. -/
def trapOf (cause : Reg) : Thrown :=
  .trap { cause := cause }

/-- `ecall` -/
def ecall : InsnM w ω ι Reg := do
  let h := (← get).hart
  if h.prv = prvU then throw (trapOf 8#64)
  else if h.prv = prvS then throw (trapOf (if h.v then 10#64 else 9#64))
  else if h.prv = prvM then throw (trapOf 11#64)
  else
    modify fun c => c.withHart Hart.abort
    pure f.npc

/-- The trap of `ebreak`, or entry to debug mode. -/
def ebreak : InsnM w ω ι Reg := do
  let h := (← get).hart
  if !h.debugMode && ((h.prv == prvM && h.dcsr.ebreakm) || (h.prv == prvS && h.dcsr.ebreaks) ||
      (h.prv == prvU && h.dcsr.ebreaku)) then
    throw .debugMode
  else throw (.trap (h.breakpointTrap f.pc))

/-- A file that is a step of the hart and serializes. -/
def hartFile (step : Hart → Except Refusal Hart) : InsnM w ω ι Reg := do
  let c ← get
  let h ← f.orRefuse (step c.hart)
  modify fun c => c.withHart fun _ => h
  pure pcSerializeAfter

/-- `mret` -/
def mret : InsnM w ω ι Reg :=
  f.hartFile fun h => h.mret f.cfg

/-- `sret` -/
def sret : InsnM w ω ι Reg :=
  f.hartFile fun h => h.sret f.cfg

/-- `dret` -/
def dret : InsnM w ω ι Reg :=
  f.hartFile fun h => h.dret f.cfg

/-- Go on, or refuse. -/
def refuseIf : Option Refusal → InsnM w ω ι Unit
  | none => pure ()
  | some e => f.orRefuse (.error e)

/-- The checks of `wfi`. -/
def wfiRefused (h : Hart) : Option Refusal :=
  if h.v && h.prv == prvU then some .virtual
  else if hasBits (h.read .mstatus) mstatusTw then if h.prv < prvM then some .illegal else none
  else if h.v then if hasBits (h.read .hstatus) hstatusVtw then some .virtual else none
  else if h.extensionEnabled .s then if h.prv < prvS then some .illegal else none
  else none

/-- `wfi` -/
def wfi : InsnM w ω ι Reg := do
  let c ← get
  f.refuseIf (wfiRefused c.hart)
  let _ ← setPcAndSerialize f.npc
  throw .waitForInterrupt

/-! ### Fences -/

/-- The checks of `sfence_vma`. -/
def sfenceVmaRefused (h : Hart) : Option Refusal :=
  if !h.extensionEnabled .s then some .illegal
  else if !f.cfg.impl.mmu then some .illegal
  else if h.v then
    if h.prv = prvU ∨ hasBits (h.read .hstatus) hstatusVtvm then some .virtual else none
  else if h.prv < (if hasBits (h.read .mstatus) mstatusTvm then prvM else prvS) then some .illegal
  else none

/-- `sfence_vma` -/
def sfenceVma : InsnM w ω ι Reg := do
  let c ← get
  f.refuseIf (f.sfenceVmaRefused c.hart)
  modify fun c => c.withHart Hart.flushTlb
  pure f.npc

/-- `fence` -/
def fence : InsnM w ω ι Reg :=
  pure f.npc

/-- `fence_i` -/
def fenceI : InsnM w ω ι Reg := do
  modify Cpu.flushIcache
  pure f.npc

end Frame

end Nnemu

import Nnemu.Hart.Trap
import Nnemu.Isa.Parser
import Nnemu.Lib.Run

/-!
# A hart and everything that can happen to it

`Hart.reset` is the state `state_t::reset` and `processor_t::reset` build, `Hart.step` one event: a
CSR or return instruction, any other instruction as far as it touches this state, an exception, a
pending interrupt, debug entry, the timer, the interrupt pins, a reset. A run is a list of events,
in any order and with any operands, so that it covers every program and every environment.

An instruction that is refused takes its trap in the same event (`Hart.refused`), and an event finds
the hart as the last one left it. `Reachable` are the harts some run from `Hart.init` leads to. The
model has one flag for the assertions and aborts of the source: a hart that has run into one takes
no further step (`Hart.step`), so that nothing is claimed about what the host would do then.
-/

namespace Nnemu

/-! ### Reset -/

/-- `mstatus_csr_t::compute_mstatus_initial_value` -/
def Config.mstatusInit (cfg : Config) : Reg :=
  let wide := cfg.isa.xlen == .rv64
  (if cfg.isa.table .u && wide then setField 0#64 mstatusUxl (xlenToUxl cfg.isa.xlen) else 0#64) |||
    (if cfg.isa.table .s && wide then setField 0#64 mstatusSxl (xlenToUxl cfg.isa.xlen)
      else 0#64) |||
    (if cfg.bigEndian then
      (if cfg.isa.table .u then mstatusUbe else 0#64) |||
        (if cfg.isa.table .s then mstatusSbe else 0#64) ||| mstatusMbe
    else 0#64)

/-- The value `set_vl` leaves in `vtype`: the configuration is illegal. -/
def Config.vtypeInit (cfg : Config) : Reg :=
  (~~~0#64) <<< (cfg.isa.xlen.bits - 1)

/-- The values the CSR objects are constructed with. -/
def Config.resetReg (cfg : Config) (sstatusReadMask : Reg) : Csr → Reg
  | .misa => cfg.isa.maxIsa
  | .mstatus => cfg.mstatusInit
  | .vsstatus => cfg.mstatusInit &&& sstatusReadMask
  | .hstatus => setField 0#64 hstatusVsxl (xlenToUxl cfg.isa.xlen)
  | .menvcfg => cfg.envcfgInit
  | .henvcfg => cfg.envcfgInit
  | .vtype => cfg.vtypeInit
  | .vlenb => cfg.vlenb
  | _ => 0#64

namespace Hart

variable (cfg : Config)

/-- `state_t::reset`. The extension table survives a reset, and so does `jvt` where its object is
not built anew. -/
def stateReset (h : Hart) : Hart :=
  let built : Hart := { h with builtWithMmu := cfg.impl.mmu, builtWithZcmt := h.extTable .zcmt }
  { built with
    pc := defaultRstvec
    prv := prvM
    v := false
    reg := fun c =>
      if c = .jvt ∧ h.extTable .zcmt = false then h.reg .jvt
      else cfg.resetReg (built.sstatusReadMask cfg) c
    dcsr := ⟨0#64, false, false, false, false, false, false, 0#64⟩
    pmp := { h.pmp with pmpaddr := fun _ => PmpEntry.reset, mseccfg := 0#64 }
    debugMode := false
    singleStep := .none }

/-- `processor_t::reset`. PMP is initialized to permit access to all of memory. -/
def reset (h : Hart) (halt : Bool) : Hart :=
  let h := h.stateReset cfg
  let h : Hart := { h with dcsr := { h.dcsr with halt := halt }, inWfi := false }
  if 0 < h.pmp.nPmp then
    (h.writeObj cfg (cfg.isa.xlen.zext (~~~0#64)) (.pmpaddr 0)).writeObj cfg 0x1f#64 (.pmpcfg 0)
  else h

/-- A hart before its first reset: `processor_t::processor_t` up to the call of `reset()`, with
every MMU mode of the register width. -/
def unbuilt : Hart where
  pc := 0#64
  prv := prvM
  v := false
  reg := fun _ => 0#64
  dcsr := ⟨0#64, false, false, false, false, false, false, 0#64⟩
  pmp := cfg.pmp
  triggers := Triggers.ofCount cfg.triggerCount
  extTable := cfg.isa.table
  builtWithMmu := true
  builtWithZcmt := cfg.isa.table .zcmt
  debugMode := false
  singleStep := .none
  inWfi := false
  tlbFlushes := 0
  aborted := false

/-- The hart as the constructor leaves it. The MMU is present at that time, whatever the device tree
makes of it later. -/
def init (halt : Bool) : Hart :=
  reset { cfg with impl := { cfg.impl with mmu := true } } (unbuilt cfg) halt

end Hart

/-! ### Events -/

/-- What a CSR instruction does with the old value. -/
inductive CsrInsn where
  /-- `csrrs`, `csrrc` and their immediate forms with `x0` or 0 -/
  | read
  /-- `csrrw`, `csrrwi` -/
  | write (val : Reg)
  /-- `csrrs`, `csrrsi` -/
  | set (val : Reg)
  /-- `csrrc`, `csrrci` -/
  | clear (val : Reg)

/-- Does the instruction ask for write permission? -/
def CsrInsn.writes : CsrInsn → Bool
  | read => false
  | write _ => true
  | set _ => true
  | clear _ => true

/-- The interrupt lines that devices drive through `backdoor_write_with_mask`. -/
inductive Pin where
  | msip
  | mtip
  | seip
  | meip

/-- The bit of a line in `mip`. -/
def Pin.mask : Pin → Reg
  | msip => mipMsip
  | mtip => mipMtip
  | seip => mipSeip
  | meip => mipMeip

/-- The status fields an instruction can make dirty. -/
inductive ExtState where
  | fs
  | vs
  | xs

/-- `SSTATUS_FS`, `SSTATUS_VS` or `SSTATUS_XS` -/
def ExtState.mask : ExtState → Reg
  | fs => mstatusFs
  | vs => mstatusVs
  | xs => mstatusXs

/-- One event. Instructions carry their bits, the trap value of a refused one. -/
inductive HartOp where
  | csr (which : Nat) (insn : CsrInsn) (bits : Reg)
  | mret (bits : Reg)
  | sret (bits : Reg)
  | mnret (bits : Reg)
  | dret (bits : Reg)
  /-- any other instruction, with the next `pc` -/
  | retire (npc : Reg)
  /-- an instruction on floating-point, vector or custom state -/
  | dirty (state : ExtState)
  /-- a synchronous exception of the instruction at `pc` -/
  | exception (code : Fin 24) (gva : Bool) (tval tval2 tinst : Reg)
  /-- `take_pending_interrupt()` with the `catch (trap_t&)` behind it -/
  | interrupt
  /-- `enter_debug_mode(cause)`: a halt request, a trigger, `ebreak` or a single step -/
  | enterDebug (cause : Reg)
  /-- trigger detection leaves `hit` bits and counts -/
  | triggers (ts : Triggers)
  /-- `wfi` -/
  | wfi
  /-- `bump` of the two counters -/
  | bump (instret : Reg)
  /-- `time->sync(mtime)` of the CLINT -/
  | timeSync (mtime : Reg)
  /-- a device drives an interrupt line -/
  | pin (p : Pin) (level : Bool)
  | reset (halt : Bool)

namespace Hart

variable (cfg : Config) (h : Hart)

/-- `CAUSE_ILLEGAL_INSTRUCTION` -/
def causeIllegalInstruction : Reg := 2#64
/-- `CAUSE_VIRTUAL_INSTRUCTION` -/
def causeVirtualInstruction : Reg := 0x16#64

/-- The trap of a refused instruction. -/
def refused (bits : Reg) : Refusal → Hart
  | .illegal => h.takeTrap cfg { cause := causeIllegalInstruction, tval := bits } h.pc
  | .virtual => h.takeTrap cfg { cause := causeVirtualInstruction, tval := bits } h.pc
  | .crash => h.abort

/-- The end of an instruction that may be refused. -/
def orRefused (bits : Reg) : Except Refusal Hart → Hart
  | .ok h' => h'
  | .error e => h.refused cfg bits e

/-- `sext_xlen` -/
def sextXlen (x : Reg) : Reg :=
  match cfg.isa.xlen with
  | .rv32 => (x.setWidth 32).signExtend 64
  | .rv64 => x

/-- The value a CSR instruction writes, given the old one. -/
def csrInsnValue (insn : CsrInsn) (old : Reg) : Option Reg :=
  match insn with
  | .read => none
  | .write val => some val
  | .set val => some (old ||| val)
  | .clear val => some (old &&& ~~~val)

/-- A CSR instruction, as far as the hart goes: the check, the write and `serialize()`. -/
def csrInsn (which : Nat) (insn : CsrInsn) : Except Refusal Hart :=
  match h.getCsr cfg which insn.writes with
  | .error e => .error e
  | .ok old =>
    let h' :=
      match csrInsnValue insn old with
      | none => h
      | some val => h.putCsr cfg which val
    .ok (h'.setPcAndSerialize (sextXlen cfg (h.pc + 4#64)))

/-- `take_pending_interrupt()`, and `take_trap` for what it throws. -/
def takePendingInterrupt : Hart :=
  let pending := h.reg .mip &&& h.reg .mie
  -- exit WFI if there are any pending interrupts
  let awake : Hart := if pending = 0#64 then h else { h with inWfi := false }
  match h.takeInterrupt cfg pending with
  | .none => awake
  | .throw t => awake.takeTrap cfg t h.pc
  | .abort => awake.abort

/-- `time_counter_csr_t::sync` -/
def timeSync (mtime : Reg) : Hart :=
  let h := h.set .time mtime
  if h.extensionEnabled .sstc then
    let mipVal :=
      (if h.reg .stimecmp ≤ h.reg .time then mipStip else 0#64) |||
        (if h.reg .vstimecmp ≤ h.reg .time + h.reg .htimedelta then mipVstip else 0#64)
    h.writeWithMask .mip (mipStip ||| mipVstip) mipVal
  else h

/-- `bump` of `minstret` and `mcycle`. -/
def bump (instret : Reg) : Hart :=
  let h := h.set .minstret (h.reg .minstret + instret)
  h.set .mcycle (h.reg .mcycle + instret)

/-- One event. -/
def event : HartOp → Hart
  | .csr which insn bits => h.orRefused cfg bits (h.csrInsn cfg which insn)
  | .mret bits => h.orRefused cfg bits (h.mret cfg)
  | .sret bits => h.orRefused cfg bits (h.sret cfg)
  | .mnret bits => h.orRefused cfg bits (h.mnret cfg)
  | .dret bits => h.orRefused cfg bits (h.dret cfg)
  | .retire npc => h.setPcAndSerialize (npc &&& ~~~1#64)
  | .dirty state =>
    -- where the state is off the instruction is refused: an `exception`
    if h.sstatusEnabled cfg state.mask then h.dirty cfg state.mask else h
  | .exception code gva tval tval2 tinst =>
    h.takeTrap cfg ⟨BitVec.ofNat 64 code, gva, tval, tval2, tinst⟩ h.pc
  | .interrupt => h.takePendingInterrupt cfg
  | .enterDebug cause => h.enterDebugMode cfg cause
  | .triggers ts => { h with triggers := ts }
  | .wfi => { h with inWfi := true }
  | .bump instret => h.bump instret
  | .timeSync mtime => h.timeSync mtime
  | .pin p level => h.writeWithMask .mip p.mask (if level then p.mask else 0#64)
  | .reset halt => reset cfg h halt

/-- One event of a hart whose simulator has not aborted. -/
def step (op : HartOp) : Hart :=
  if h.aborted then h else h.event cfg op

/-- The state after a list of events. -/
abbrev runFrom (ops : List HartOp) : Hart :=
  Run.run (step cfg) h ops

/-- The states of a configuration: what a run from the constructed hart reaches. -/
def Reachable : Prop :=
  ∃ halt ops, h = (init cfg halt).runFrom cfg ops

end Hart

/-! ### Configurations of their ISA string -/

/-- A hart with every translation mode, four triggers and no PMP entries. -/
def Config.ofIsa (isa : Isa) : Config where
  isa := isa
  impl := ⟨true, true, true, true, true⟩
  id := 0#64
  bigEndian := false
  triggerCount := 4
  pmp := Pmp.absent
  vlen := 128#64
  vlenb := 16#64

/-- RV64 with H, Sstc and the interrupts of Sscofpmf. -/
def rv64h : Config :=
  .ofIsa ((Isa.accepted "rv64imach_zicntr_sscofpmf_sstc" "msu").get (by decide))

/-- RV32 with H and Sstc. -/
def rv32h : Config :=
  .ofIsa ((Isa.accepted "rv32imach_zicntr_sstc" "msu").get (by decide))

end Nnemu

import Nnemu.Hart.Access

/-!
# Traps, returns and debug mode

The functions of `processor.cc` that change the privilege level, `take_trap`, `take_interrupt`,
`enter_debug_mode`, and the return instructions of `insns/`. An instruction that is refused does not
change the hart: its result is the `Refusal`, from which `Hart.Machine` makes a trap.
-/

namespace Nnemu

namespace Hart

variable (cfg : Config) (h : Hart)

/-! ### Privilege -/

/-- `processor_t::set_privilege` -/
def setPrivilege (prv : Reg) : Hart :=
  { h.flushTlb with prv := h.legalizePrivilege prv }

/-- `processor_t::set_virt`: does nothing when the privilege is M. -/
def setVirt (virt : Bool) : Hart :=
  if h.prv = prvM then h else { h with v := virt }

/-- `processor_t::get_privilege_string`; `none` is `abort()`. -/
def getPrivilegeString : Option String :=
  if h.v then
    if h.prv = 0#64 then some "VU"
    else if h.prv = 1#64 then some "VS"
    else none
  else
    if h.prv = 0#64 then some "U"
    else if h.prv = 1#64 then some "S"
    else if h.prv = 3#64 then some "M"
    else none

/-- Is an RNMI handler interruptible? Without `mnstatus` it always is. -/
def nmie : Bool :=
  !(cfg.isa.table .smrnmi && !hasBits (h.reg .mnstatus) mnstatusNmie)

/-! ### The virtualized registers -/

/-- `sstatus->read()` -/
def sstatusRead : Reg :=
  if h.v then h.reg .vsstatus else h.sstatusProxyRead cfg

/-- `sstatus->write(val)` -/
def sstatusWrite (val : Reg) : Hart :=
  if h.v then h.vsstatusWrite cfg val else h.sstatusProxyWrite cfg val

/-- The write to a virtualized register: `virt` when `V = 1`, else `orig`. -/
def virtWrite (orig virt : Csr) (val : Reg) : Hart :=
  if h.v then h.write cfg val virt else h.write cfg val orig

/-- The read of a virtualized register. -/
def virtRead (orig virt : Csr) : Reg :=
  if h.v then h.read virt else h.read orig

/-! ### Traps -/

/-- `(reg_t)1 << (max_xlen - 1)` -/
def interruptBit : Reg := 1#64 <<< (cfg.isa.xlen.bits - 1)

/-- Is the trap an interrupt? -/
def isInterrupt (t : Trap) : Bool :=
  hasBits t.cause (interruptBit cfg)

/-- `bit`: the cause of the trap without the interrupt bit. -/
def trapBit (t : Trap) : Reg :=
  if isInterrupt cfg t then t.cause &&& ~~~interruptBit cfg else t.cause

/-- `vsdeleg` -/
def vsdeleg (t : Trap) : Reg :=
  if h.v && h.prv ≤ prvS then
    if isInterrupt cfg t then h.hidelegRead else h.reg .medeleg &&& h.reg .hedeleg
  else 0#64

/-- `hsdeleg` -/
def hsdeleg (t : Trap) : Reg :=
  if h.prv ≤ prvS then
    if isInterrupt cfg t then h.midelegRead else h.reg .medeleg
  else 0#64

/-- `state.prv <= PRV_S && bit < max_xlen && ((deleg >> bit) & 1)` -/
def delegated (deleg bit : Reg) : Bool :=
  h.prv ≤ prvS && bit.toNat < cfg.isa.xlen.bits && deleg.getLsbD bit.toNat

/-- Where a trap is handled. -/
inductive Destination where
  | vs
  | hs
  | m
deriving DecidableEq

/-- The branch `take_trap` goes into. -/
def trapDestination (t : Trap) : Destination :=
  if h.delegated cfg (h.vsdeleg cfg t) (trapBit cfg t) then .vs
  else if h.delegated cfg (h.hsdeleg cfg t) (trapBit cfg t) then .hs
  else .m

/-- The address of the handler: `vector` is added for an interrupt in vectored mode. -/
def handlerAddress (tvec bit : Reg) (interrupt : Bool) : Reg :=
  (tvec &&& ~~~1#64) + (if hasBits tvec 1#64 && interrupt then 4#64 * bit else 0#64)

/-- `sstatus` on entry to VS or HS. -/
def stackSstatus (s prv : Reg) : Reg :=
  let s := setField s mstatusSpie (getField s mstatusSie)
  let s := setField s mstatusSpp prv
  setField s mstatusSie 0#64

/-- A flag as the value of a field. -/
def flagReg (b : Bool) : Reg :=
  if b then 1#64 else 0#64

/-- `mstatus` on entry to M. -/
def stackMstatus (s prv : Reg) (virt gva : Bool) : Reg :=
  let s := setField s mstatusMpie (getField s mstatusMie)
  let s := setField s mstatusMpp prv
  let s := setField s mstatusMie 0#64
  let s := setField s mstatusMpv (flagReg virt)
  setField s mstatusGva (flagReg gva)

/-- `hstatus` on entry to HS. -/
def stackHstatus (s prv : Reg) (virt gva : Bool) : Reg :=
  let s := if virt then setField s hstatusSpvp prv else s
  let s := setField s hstatusSpv (flagReg virt)
  setField s hstatusGva (flagReg gva)

/-- Handle the trap in VS-mode. -/
def trapToVs (t : Trap) (epc : Reg) : Hart :=
  let prv := h.prv
  let interrupt := isInterrupt cfg t
  let h := { h with pc := handlerAddress (h.read .vstvec) (trapBit cfg t) interrupt }
  let h := h.write cfg (if interrupt then t.cause - 1#64 else t.cause) .vscause
  let h := h.write cfg epc .vsepc
  let h := h.write cfg t.tval .vstval
  let h := h.sstatusWrite cfg (stackSstatus (h.sstatusRead cfg) prv)
  h.setPrivilege prvS

/-- Handle the trap in HS-mode. -/
def trapToHs (t : Trap) (epc : Reg) : Hart :=
  let prv := h.prv
  let currVirt := h.v
  let h := h.setVirt false
  let h := { h with
    pc := handlerAddress (h.virtRead .stvec .vstvec) (trapBit cfg t) (isInterrupt cfg t) }
  let h := h.virtWrite cfg .scause .vscause t.cause
  let h := h.virtWrite cfg .sepc .vsepc epc
  let h := h.virtWrite cfg .stval .vstval t.tval
  let h := h.write cfg t.tval2 .htval
  let h := h.write cfg t.tinst .htinst
  let h := h.sstatusWrite cfg (stackSstatus (h.sstatusRead cfg) prv)
  let h :=
    if h.extensionEnabled .h then
      h.write cfg (stackHstatus (h.read .hstatus) prv currVirt t.gva) .hstatus
    else h
  h.setPrivilege prvS

/-- Handle the trap in M-mode. With an RNMI handler running the handler address is invalid. -/
def trapToM (t : Trap) (epc : Reg) : Hart :=
  let prv := h.prv
  let currVirt := h.v
  let h := h.setVirt false
  let h := { h with
    pc := if h.nmie cfg then handlerAddress (h.read .mtvec) (trapBit cfg t) (isInterrupt cfg t)
      else 0#64 }
  let h := h.write cfg epc .mepc
  let h := h.write cfg t.cause .mcause
  let h := h.write cfg t.tval .mtval
  let h := h.write cfg t.tval2 .mtval2
  let h := h.write cfg t.tinst .mtinst
  let s := stackMstatus (h.read .mstatus) prv currVirt t.gva
  let h := h.mstatusWrite cfg s
  let h := h.mstatushWrite cfg (s >>> 32)
  h.setPrivilege prvM

/-- `CAUSE_BREAKPOINT` -/
def causeBreakpoint : Reg := 3#64

/-- `processor_t::take_trap` -/
def takeTrap (t : Trap) (epc : Reg) : Hart :=
  if h.debugMode then
    { h with pc := if t.cause = causeBreakpoint then debugRomEntry else debugRomTvec }
  else
    match h.trapDestination cfg t with
    | .vs => h.trapToVs cfg t epc
    | .hs => h.trapToHs cfg t epc
    | .m => h.trapToM cfg t epc

/-! ### Interrupts -/

/-- `-enabled` of a condition: all ones or zero. -/
def enableMask (b : Bool) : Reg :=
  if b then ~~~0#64 else 0#64

/-- `m_enabled` -/
def mEnabled : Bool :=
  h.prv < prvM || (h.prv == prvM && hasBits (h.reg .mstatus) mstatusMie)

/-- `sie` -/
def sie : Bool :=
  hasBits (h.sstatusRead cfg) mstatusSie

/-- `hs_enabled` -/
def hsEnabled : Bool :=
  h.v || h.prv < prvS || (h.prv == prvS && h.sie cfg)

/-- `vs_enabled` -/
def vsEnabled : Bool :=
  h.prv < prvS || (h.prv == prvS && h.sie cfg)

/-- `enabled_interrupts` before one is picked: M-ints have higher priority over HS-ints and these
over VS-ints. -/
def enabledInterrupts (pending : Reg) : Reg :=
  let mInts := pending &&& ~~~h.midelegRead &&& enableMask h.mEnabled
  if mInts = 0#64 then
    let hsInts := pending &&& (h.midelegRead &&& ~~~h.hidelegRead) &&& enableMask (h.hsEnabled cfg)
    if h.v && hsInts == 0#64 then
      -- VS-ints have least priority and can only be taken with virt enabled
      pending &&& h.hidelegRead &&& enableMask (h.vsEnabled cfg)
    else hsInts
  else mInts

/-- The standard interrupts in the order of the chain of `else if`s. -/
def interruptPriority : List Reg :=
  [mipMeip, mipMsip, mipMtip, mipSeip, mipSsip, mipStip, mipLcofip, mipVseip, mipVssip, mipVstip]

/-- Pick one of the enabled interrupts; `none` is `abort()`. -/
def pickInterrupt (enabled : Reg) : Option Reg :=
  -- nonstandard interrupts have highest priority
  if enabled >>> 12 ≠ 0#64 then some ((enabled >>> 12) <<< 12)
  else interruptPriority.find? fun mask => hasBits enabled mask

/-- What `take_interrupt` does: return, throw a trap or call `abort()`. -/
inductive Interrupt where
  | none
  | throw (t : Trap)
  | abort
deriving DecidableEq

/-- `processor_t::take_interrupt` -/
def takeInterrupt (pending : Reg) : Interrupt :=
  if pending = 0#64 then .none
  else
    let enabled := h.enabledInterrupts cfg pending
    if !h.debugMode && h.nmie cfg && enabled != 0#64 then
      match pickInterrupt enabled with
      | some picked => .throw { cause := interruptBit cfg ||| BitVec.ofNat 64 (ctz picked) }
      | none => .abort
    else .none

/-! ### Return instructions -/

/-- `set_pc_and_serialize` -/
def setPcAndSerialize (x : Reg) : Hart :=
  { h with pc := x &&& h.pcAlignmentMask }

/-- The value `mret` writes to `mstatus`. -/
def mretMstatus (s : Reg) : Reg :=
  let prevPrv := getField s mstatusMpp
  let s := if prevPrv ≠ prvM then setField s mstatusMprv 0#64 else s
  let s := setField s mstatusMie (getField s mstatusMpie)
  let s := setField s mstatusMpie 1#64
  let s := setField s mstatusMpp (if h.extensionEnabled .u then prvU else prvM)
  setField s mstatusMpv 0#64

/-- `mret` -/
def mret : Except Refusal Hart :=
  if h.prv < prvM then .error .illegal
  else
    let h := h.setPcAndSerialize (h.read .mepc)
    let s := h.read .mstatus
    let h := h.putCsr cfg 0x300 (h.mretMstatus s)
    let h := h.setPrivilege (getField s mstatusMpp)
    .ok (h.setVirt (hasBits s mstatusMpv))

/-- The value `sret` writes to `sstatus`. -/
def sretSstatus (s : Reg) : Reg :=
  let s := setField s mstatusSie (getField s mstatusSpie)
  let s := setField s mstatusSpie 1#64
  setField s mstatusSpp prvU

/-- The checks of `sret`. -/
def sretRefused : Option Refusal :=
  if !h.extensionEnabled .s then some .illegal
  else if h.v then
    if h.prv = prvU ∨ hasBits (h.read .hstatus) hstatusVtsr then some .virtual else none
  else
    if h.prv < (if hasBits (h.read .mstatus) mstatusTsr then prvM else prvS) then some .illegal
    else none

/-- `sret` -/
def sret : Except Refusal Hart :=
  match h.sretRefused with
  | some e => .error e
  | none =>
    let prevHstatus := h.read .hstatus
    let h := h.setPcAndSerialize (h.virtRead .sepc .vsepc)
    let s := h.sstatusRead cfg
    let h := h.sstatusWrite cfg (sretSstatus s)
    let h := h.setPrivilege (getField s mstatusSpp)
    if h.v then .ok h
    else
      let h :=
        if h.extensionEnabled .h then
          (h.setVirt (hasBits prevHstatus hstatusSpv)).write cfg
            (setField prevHstatus hstatusSpv 0#64) .hstatus
        else h
      .ok (h.mstatusWrite cfg (setField (h.read .mstatus) mstatusMprv 0#64))

/-- `mnret` -/
def mnret : Except Refusal Hart :=
  if !h.extensionEnabled .smrnmi then .error .illegal
  else if h.prv < prvM then .error .illegal
  else
    let h := h.setPcAndSerialize (h.read .mnepc)
    let s := h.read .mnstatus
    let prevPrv := getField s mnstatusMnpp
    let h :=
      if prevPrv ≠ prvM then h.mstatusWrite cfg (setField (h.read .mstatus) mstatusMprv 0#64) else h
    let h := h.mnstatusWrite (setField s mnstatusNmie 1#64)
    let h := h.setPrivilege prevPrv
    .ok (h.setVirt (hasBits s mnstatusMnpv))

/-- `dret` -/
def dret : Except Refusal Hart :=
  if !h.debugMode then .error .illegal
  else
    let h := h.setPcAndSerialize (h.read .dpc)
    let h := h.setPrivilege h.dcsr.prv
    let h :=
      if h.prv < prvM then h.mstatusWrite cfg (h.read .mstatus &&& ~~~mstatusMprv) else h
    let h := { h with debugMode := false }
    .ok (if h.dcsr.step then { h with singleStep := .stepping } else h)

/-- `processor_t::enter_debug_mode` -/
def enterDebugMode (cause : Reg) : Hart :=
  let h := { h with debugMode := true, dcsr := { h.dcsr with cause := cause, prv := h.prv } }
  let h := h.setPrivilege prvM
  let h := h.write cfg h.pc .dpc
  { h with pc := debugRomEntry, inWfi := false }

end Hart

end Nnemu

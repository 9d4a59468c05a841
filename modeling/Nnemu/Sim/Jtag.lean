import Nnemu.Field

/-!
# The JTAG transport

`jtag_dtm_t`: a client sets three pins, and a TAP controller scans values in and out of the register
that the instruction register selects. Of the debug module only the three functions it calls are
used, so it is a parameter. A call of `set_pins` returns the accesses it makes to the debug module.

`rise` and `other` are the two parts of `set_pins`, and `setPins` decides between them by the last
and the new value of TCK. `TapAction` names what a call does besides moving through the graph, so
that the calls of a scan can be counted.
-/

namespace Nnemu

/-- `jtag_state_t` -/
inductive JtagState where
  | testLogicReset
  | runTestIdle
  | selectDrScan
  | captureDr
  | shiftDr
  | exit1Dr
  | pauseDr
  | exit2Dr
  | updateDr
  | selectIrScan
  | captureIr
  | shiftIr
  | exit1Ir
  | pauseIr
  | exit2Ir
  | updateIr
deriving DecidableEq

/-- The table `next` of `set_pins`, by the state and TMS. -/
def JtagState.next : JtagState → Bool → JtagState
  | testLogicReset, tms => if tms then testLogicReset else runTestIdle
  | runTestIdle, tms => if tms then selectDrScan else runTestIdle
  | selectDrScan, tms => if tms then selectIrScan else captureDr
  | captureDr, tms => if tms then exit1Dr else shiftDr
  | shiftDr, tms => if tms then exit1Dr else shiftDr
  | exit1Dr, tms => if tms then updateDr else pauseDr
  | pauseDr, tms => if tms then exit2Dr else pauseDr
  | exit2Dr, tms => if tms then updateDr else shiftDr
  | updateDr, tms => if tms then selectDrScan else runTestIdle
  | selectIrScan, tms => if tms then testLogicReset else captureIr
  | captureIr, tms => if tms then exit1Ir else shiftIr
  | shiftIr, tms => if tms then exit1Ir else shiftIr
  | exit1Ir, tms => if tms then updateIr else pauseIr
  | pauseIr, tms => if tms then exit2Ir else pauseIr
  | exit2Ir, tms => if tms then updateIr else shiftIr
  | updateIr, tms => if tms then selectDrScan else runTestIdle

/-- What the transport calls of the debug module: `dmi_read` with its value if it succeeds,
`dmi_write` and `run_test_idle`. -/
structure DmiPort (σ : Type*) where
  dmiRead : σ → BitVec 32 → Option (BitVec 32) × σ
  dmiWrite : σ → BitVec 32 → BitVec 32 → Bool × σ
  runTestIdle : σ → σ

/-- An access to the debug module. -/
inductive DmiRequest where
  | read (address : BitVec 32)
  | write (address data : BitVec 32)
deriving DecidableEq

/-- `jtag_dtm_t`, with the debug module. -/
structure JtagDtm (σ : Type*) where
  dm : σ
  requiredRtiCycles : Nat
  tck : Bool
  tms : Bool
  tdi : Bool
  tdo : Bool
  ir : BitVec 32
  dr : BitVec 64
  drLength : Nat
  dmi : BitVec 64
  bypass : BitVec 32
  rtiRemaining : Nat
  busyStuck : Bool
  state : JtagState

namespace JtagDtm

variable {σ : Type*}

/-! ### Registers -/

/-- `IR_IDCODE` -/
def irIdcode : BitVec 32 := 1#32
/-- `IR_DTMCONTROL` -/
def irDtmcontrol : BitVec 32 := 0x10#32
/-- `IR_DBUS` -/
def irDbus : BitVec 32 := 0x11#32
/-- `IR_BYPASS` -/
def irBypass : BitVec 32 := 0x1f#32

/-- `abits` -/
def abits : Nat := 6
/-- `ir_length` -/
def irLength : Nat := 5
/-- `idcode` -/
def idcode : BitVec 64 := 0xdeadbeef#64
/-- `dtmcontrol`: `abits` and the version -/
def dtmcontrol : BitVec 64 := 0x61#64

/-- `DTMCONTROL_DMIRESET` -/
def dtmcontrolDmireset : BitVec 64 := 0x10000#64
/-- `DTMCONTROL_DMIHARDRESET` -/
def dtmcontrolDmihardreset : BitVec 64 := 0x20000#64

/-- `DMI_OP` -/
def dmiOp : BitVec 64 := 3#64
/-- `DMI_DATA` -/
def dmiData : BitVec 64 := 0x3fffffffc#64
/-- `DMI_ADDRESS` -/
def dmiAddress : BitVec 64 := (1#64 <<< (abits + 34)) - (1#64 <<< 34)

/-- `DMI_OP_STATUS_SUCCESS` -/
def dmiOpStatusSuccess : BitVec 64 := 0#64
/-- `DMI_OP_STATUS_FAILED` -/
def dmiOpStatusFailed : BitVec 64 := 2#64
/-- `DMI_OP_STATUS_BUSY` -/
def dmiOpStatusBusy : BitVec 64 := 3#64

variable (port : DmiPort σ) (j : JtagDtm σ)

/-! ### The functions -/

/-- `reset` -/
def reset : JtagDtm σ :=
  { j with state := .testLogicReset, busyStuck := false, rtiRemaining := 0, dmi := 0#64 }

/-- `capture_dr` -/
def captureDr : JtagDtm σ :=
  if j.ir = irIdcode then { j with dr := idcode, drLength := 32 }
  else if j.ir = irDtmcontrol then { j with dr := dtmcontrol, drLength := 32 }
  else if j.ir = irDbus then
    if 0 < j.rtiRemaining ∨
      j.busyStuck then { j with dr := dmiOpStatusBusy, busyStuck := true, drLength := abits + 34 }
    else { j with dr := j.dmi, drLength := abits + 34 }
  else if j.ir = irBypass then { j with dr := j.bypass.setWidth 64, drLength := 1 }
  else j

/-- The access that `update_dr` makes for the value in `dr`, when it makes one. -/
def access (dr : BitVec 64) : Option DmiRequest :=
  let op := getField dr dmiOp
  let data := (getField dr dmiData).setWidth 32
  let address := (getField dr dmiAddress).setWidth 32
  if op = 1#64 then some (.read address)
  else if op = 2#64 then some (.write address data)
  else none

/-- Make the access: the debug module afterwards, the value read, and whether it succeeded. -/
def perform (dm : σ) : Option DmiRequest → σ × Option (BitVec 32) × Bool
  | none => (dm, none, true)
  | some (.read address) =>
    let r := port.dmiRead dm address
    (r.2, r.1, r.1.isSome)
  | some (.write address data) =>
    let r := port.dmiWrite dm address data
    (r.2, none, r.1)

/-- The part of `update_dr` for the `dbus` register. -/
def updateDbus : JtagDtm σ :=
  let r := perform port j.dm (access j.dr)
  let dmi := match r.2.1 with
    | some value => setField j.dr dmiData (value.setWidth 64)
    | none => j.dr
  { j with
    dm := r.1
    dmi := setField dmi dmiOp (if r.2.2 then dmiOpStatusSuccess else dmiOpStatusFailed)
    rtiRemaining := j.requiredRtiCycles }

/-- `update_dr` -/
def updateDr : JtagDtm σ :=
  if j.ir = irDtmcontrol then
    let j := if hasBits j.dr dtmcontrolDmireset then { j with busyStuck := false } else j
    if hasBits j.dr dtmcontrolDmihardreset then j.reset else j
  else if j.ir = irBypass then { j with bypass := j.dr.setWidth 32 }
  else if j.ir = irDbus ∧ !j.busyStuck then j.updateDbus port
  else j

/-- The accesses of `update_dr`. -/
def updateAccesses : List DmiRequest :=
  if j.ir = irDbus ∧ !j.busyStuck then (access j.dr).toList else []

/-- The branch of `set_pins` for a rising edge. -/
def rise : JtagDtm σ :=
  let shifted := match j.state with
    | .shiftDr =>
      { j with dr := j.dr >>> 1 ||| ((BitVec.ofBool j.tdi).setWidth 64 <<< (j.drLength - 1)) }
    | .shiftIr =>
      { j with ir := j.ir >>> 1 ||| ((BitVec.ofBool j.tdi).setWidth 32 <<< (irLength - 1)) }
    | _ => j
  { shifted with state := j.state.next j.tms }

/-- The branch for every other call. -/
def other : JtagDtm σ :=
  match j.state with
  | .runTestIdle => { j with rtiRemaining := j.rtiRemaining - 1, dm := port.runTestIdle j.dm }
  | .testLogicReset => { j with ir := irIdcode }
  | .captureDr => j.captureDr
  | .shiftDr => { j with tdo := j.dr.getLsbD 0 }
  | .updateDr => j.updateDr port
  | .shiftIr => { j with tdo := j.ir.getLsbD 0 }
  | _ => j

/-- The pins of a call. -/
structure Pins where
  tck : Bool
  tms : Bool
  tdi : Bool
deriving DecidableEq

/-- `_tck = tck`, `_tms = tms`, `_tdi = tdi` -/
def latch (p : Pins) : JtagDtm σ :=
  { j with tck := p.tck, tms := p.tms, tdi := p.tdi }

/-- Is the call a rising edge of TCK? -/
def rising (p : Pins) : Bool := !j.tck && p.tck

/-- `set_pins` -/
def setPins (p : Pins) : JtagDtm σ :=
  (if j.rising p then j.rise else j.other port).latch p

/-- The actions that a call can perform in a state. -/
inductive TapAction where
  | idle
  | capture
  | update
deriving DecidableEq

/-- The actions that the call performs. -/
def actions (p : Pins) : List TapAction :=
  if j.rising p then []
  else match j.state with
    | .runTestIdle => [.idle]
    | .captureDr => [.capture]
    | .updateDr => [.update]
    | _ => []

/-- The accesses to the debug module that the call makes. -/
def accesses (p : Pins) : List DmiRequest :=
  if !j.rising p && j.state == .updateDr then j.updateAccesses else []

/-- What the constructor leaves, whatever is in the members it does not initialise. -/
def ofConfig (dm : σ) (requiredRtiCycles : Nat) (ir : BitVec 32) (dr : BitVec 64)
    (drLength rtiRemaining : Nat)
    (busyStuck : Bool) : JtagDtm σ where
  dm := dm
  requiredRtiCycles := requiredRtiCycles
  tck := false
  tms := false
  tdi := false
  tdo := false
  ir := ir
  dr := dr
  drLength := drLength
  dmi := 0#64
  bypass := 0#32
  rtiRemaining := rtiRemaining
  busyStuck := busyStuck
  state := .testLogicReset

end JtagDtm

end Nnemu

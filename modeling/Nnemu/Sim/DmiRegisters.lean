import Nnemu.Sim.Dmi

/-!
# The registers of the Debug Module Interface

`dmi_read` and `dmi_write`: the data registers and the program buffer, which may be busy and may
start a command when they are accessed, and then the other registers, by their addresses.
-/

namespace Nnemu

open Bytes

namespace DebugModule

variable (d : DebugModule)

/-! ### Addresses -/

/-- `DM_DATA0` -/
def dmData0 : Nat := 0x04
/-- `DM_DMCONTROL` -/
def dmDmcontrol : Nat := 0x10
/-- `DM_DMSTATUS` -/
def dmDmstatus : Nat := 0x11
/-- `DM_HARTINFO` -/
def dmHartinfo : Nat := 0x12
/-- `DM_HAWINDOWSEL` -/
def dmHawindowsel : Nat := 0x14
/-- `DM_HAWINDOW` -/
def dmHawindow : Nat := 0x15
/-- `DM_ABSTRACTCS` -/
def dmAbstractcs : Nat := 0x16
/-- `DM_COMMAND` -/
def dmCommand : Nat := 0x17
/-- `DM_ABSTRACTAUTO` -/
def dmAbstractauto : Nat := 0x18
/-- `DM_PROGBUF0` -/
def dmProgbuf0 : Nat := 0x20
/-- `DM_AUTHDATA` -/
def dmAuthdata : Nat := 0x30
/-- `DM_DMCS2` -/
def dmDmcs2 : Nat := 0x32
/-- `DM_SBADDRESS3` -/
def dmSbaddress3 : Nat := 0x37
/-- `DM_SBCS` -/
def dmSbcs : Nat := 0x38
/-- `DM_SBADDRESS0` -/
def dmSbaddress0 : Nat := 0x39
/-- `DM_SBADDRESS1` -/
def dmSbaddress1 : Nat := 0x3a
/-- `DM_SBADDRESS2` -/
def dmSbaddress2 : Nat := 0x3b
/-- `DM_SBDATA0` -/
def dmSbdata0 : Nat := 0x3c
/-- `DM_SBDATA1` -/
def dmSbdata1 : Nat := 0x3d
/-- `DM_SBDATA2` -/
def dmSbdata2 : Nat := 0x3e
/-- `DM_SBDATA3` -/
def dmSbdata3 : Nat := 0x3f

/-- Is it one of the data registers? -/
def isData (address : Nat) : Bool :=
  decide (dmData0 ≤ address) && decide (address < dmData0 + dmDatasize)

/-- Is it a word of the program buffer? -/
def isProgbuf (address : Nat) : Bool :=
  decide (dmProgbuf0 ≤ address) && decide (address < dmProgbuf0 + d.config.progbufsize)

/-! ### Values -/

/-- A flag as the value of a field. -/
def flag (b : Bool) : BitVec 32 :=
  if b then 1#32 else 0#32

/-- `set_field`, for a list of fields. -/
def fields (fs : List (BitVec 32 × BitVec 32)) : BitVec 32 :=
  fs.foldl (fun result f => setField result f.1 f.2) 0#32

/-- The value of `dmcontrol`. -/
def dmcontrolValue : BitVec 32 :=
  let c := d.dmcontrol
  fields [(0x80000000#32, flag c.haltreq), (0x40000000#32, flag c.resumereq),
    (0xffc0#32, BitVec.ofNat 32 (c.hartsel >>> 10)), (0x4000000#32, flag c.hasel),
    (0x3ff0000#32, BitVec.ofNat 32 c.hartsel), (0x20000000#32, flag c.hartreset),
    (0x2#32, flag c.ndmreset),
    (0x1#32, flag c.dmactive)]

/-- The value of `dmstatus`, from the states of the selected harts. -/
def dmstatusValue : BitVec 32 :=
  let selected := (d.config.hartids.filter d.hartSelected).map d.hartState
  let all (p : HartDebugState → Bool) := flag (selected.all p)
  let any (p : HartDebugState → Bool) := flag (selected.any p)
  fields [(0x400000#32, flag d.config.supportImpebreak),
    (0x80000#32, flag d.selectedHartState.havereset),
    (0x40000#32, flag d.selectedHartState.havereset), (0x8000#32, flag selected.isEmpty),
    (0x2000#32, 0#32),
    (0x800#32, all fun s => !s.halted), (0x200#32, all fun s => s.halted),
    (0x20000#32, all fun s => s.resumeack),
    (0x4000#32, flag (decide (d.config.nprocs ≤ d.dmcontrol.hartsel))), (0x1000#32, 0#32),
    (0x400#32, any fun s => !s.halted), (0x100#32, any fun s => s.halted),
    (0x10000#32, any fun s => s.resumeack),
    (0x80#32, flag d.authenticated), (0x40#32, 0#32), (0xf#32, 2#32)]

/-- The value of `abstractcs`. -/
def abstractcsValue : BitVec 32 :=
  fields [(0x700#32, d.abstractcs.cmderr.setWidth 32), (0x1000#32, flag d.abstractcs.busy),
    (0xf#32, BitVec.ofNat 32 dmDatasize), (0x1f000000#32, BitVec.ofNat 32 d.config.progbufsize)]

/-- The value of `sbcs`. -/
def sbcsValue : BitVec 32 :=
  let s := d.sbcs
  fields [(0xe0000000#32, s.version), (0x100000#32, flag s.readonaddr), (0xe0000#32, s.sbaccess),
    (0x10000#32, flag s.autoincrement), (0x8000#32, flag s.readondata),
    (0x7000#32, s.error), (0xfe0#32, s.asize),
    (0x10#32, flag s.access128), (0x8#32, flag s.access64), (0x4#32, flag s.access32),
    (0x2#32, flag s.access16),
    (0x1#32, flag s.access8)]

/-- The value of `hawindow`: the mask of 32 harts. -/
def hawindowValue : BitVec 32 :=
  (List.range 32).foldl (fun result i =>
    match d.config.hartids[d.hawindowsel * 32 + i]? with
    | some id => if d.hartArrayMask id then result ||| (1#32 <<< i) else result
    | none => result) 0#32

/-- What a register holds that has no effect when it is read, if there is one at the address. -/
def plainValue (address : Nat) : Option (BitVec 32) :=
  if address = dmDmcontrol then some d.dmcontrolValue
  else if address = dmDmstatus then some d.dmstatusValue
  else if address = dmAbstractcs then some d.abstractcsValue
  else if address = dmAbstractauto then
    some (fields [(0xffff0000#32, d.abstractauto.autoexecprogbuf),
      (0xfff#32, d.abstractauto.autoexecdata)])
  else if address = dmCommand then some 0#32
  else if address = dmHartinfo then
    some (fields [(0xf00000#32, 1#32), (0x10000#32, 1#32), (0xf000#32, BitVec.ofNat 32 dmDatasize),
      (0xfff#32, BitVec.ofNat 32 debugDataStart)])
  else if address = dmHawindowsel then some (BitVec.ofNat 32 d.hawindowsel)
  else if address = dmHawindow then some d.hawindowValue
  else if address = dmSbcs then some d.sbcsValue
  else if address = dmSbaddress0 then some (d.sbaddress 0)
  else if address = dmSbaddress1 then some (d.sbaddress 1)
  else if address = dmSbaddress2 then some (d.sbaddress 2)
  else if address = dmSbaddress3 then some (d.sbaddress 3)
  else if address = dmSbdata1 then some (d.sbdata 1)
  else if address = dmSbdata2 then some (d.sbdata 2)
  else if address = dmSbdata3 then some (d.sbdata 3)
  else if address = dmAuthdata then some d.challenge
  else if address = dmDmcs2 then some
    (setField 0#32 0x7c#32 (d.selectedHartState.haltgroup.setWidth 32))
  else none

/-! ### Reads -/

/-- The data of a command may not be accessed while it runs. -/
def noteBusy : DebugModule :=
  if d.abstractcs.busy ∧ d.abstractcs.cmderr = CmdErr.none then d.setCmderr CmdErr.busy else d

/-- An access that may start the command again. -/
def autoexec (auto : BitVec 32) (i : Nat) : DebugModule :=
  if !d.abstractcs.busy ∧ auto.getLsbD i then d.performAbstractCommand else d

/-- A read of `sbdata0`. -/
def readSbdata0 (bus : SysBus) : Option DebugModule :=
  if d.sbcs.error ≠ 0#32 then some d
  else if d.sbcs.readondata then (d.sbRead bus).map sbNext
  else some d.sbNext

/-- `dmi_read`: whether it succeeds and the value, with the state. There is no result when the load
of the system bus traps. -/
def dmiRead (address : Nat) (bus : SysBus) : Option (Option (BitVec 32) × DebugModule) :=
  if isData address then
    let i := address - dmData0
    let result := if d.abstractcs.busy then 0xffffffff#32 else d.dmdata.read32 i
    some (some result, d.noteBusy.autoexec d.abstractauto.autoexecdata i)
  else if d.isProgbuf address then
    let i := address - dmProgbuf0
    let result := if d.abstractcs.busy then 0xffffffff#32 else d.programBuffer.read32 i
    some (some result, d.autoexec d.abstractauto.autoexecprogbuf i)
  else if address = dmSbdata0 then (d.readSbdata0 bus).map fun d' => (some (d.sbdata 0), d')
  else some (d.plainValue address, d)

/-! ### Writes -/

/-- Set `dmcontrol`. -/
def setDmcontrol (c : DmControl) : DebugModule :=
  { d with dmcontrol := c }

/-- Set the `halt_request` of a hart. -/
def setHaltRequest (id : Nat) (req : HaltRequest) : DebugModule :=
  { d with haltRequest := Function.update d.haltRequest id req }

/-- A hart that is selected when `dmcontrol` is written. -/
def controlHart (value : BitVec 32) (id : Nat) : DebugModule :=
  let s := d.hartState id
  let s := if hasBits value 0x10000000#32 then { s with havereset := false } else s
  let d' := (d.setHart id s).setHaltRequest id (if d.dmcontrol.haltreq then .regular else .none)
  let d' :=
    if d.dmcontrol.resumereq then (d'.setHart id { s with resumeack := false }).setFlags id
      (d.debugRomFlags id ||| 2#8)
    else d'
  if d.dmcontrol.hartreset then d'.procReset id else d'

/-- The fields of `dmcontrol`, when the module is active. -/
def controlFields (value : BitVec 32) : DmControl :=
  let hartsel := (getField value 0xffc0#32 <<< 10 ||| getField value 0x3ff0000#32).toNat
  { haltreq := hasBits value 0x80000000#32
    resumereq := hasBits value 0x40000000#32
    hasel := d.config.supportHasel && hasBits value 0x4000000#32
    hartsel := min hartsel (d.config.nprocs - 1)
    hartreset := hasBits value 0x20000000#32
    dmactive := true
    ndmreset := hasBits value 0x2#32 }

/-- The harts are told what `dmcontrol` says. -/
def controlHarts (value : BitVec 32) : DebugModule :=
  let d' := d.config.hartids.foldl
    (fun d id => if d.hartSelected id then d.controlHart value id else d) d
  if d.dmcontrol.ndmreset then d.config.hartids.foldl procReset d' else d'

/-- `dmcontrol.dmactive` is written. The module is reset when it becomes active. -/
def writeDmactive (value challenge : BitVec 32) : DebugModule :=
  let active := hasBits value 0x1#32
  let d' := if !d.dmcontrol.dmactive && active then d.reset challenge else d
  d'.setDmcontrol { d'.dmcontrol with dmactive := active }

/-- A write of `dmcontrol`. -/
def writeDmcontrol (value challenge : BitVec 32) : DebugModule :=
  let d' := d.writeDmactive value challenge
  if !d'.authenticated || !d'.dmcontrol.dmactive then d'
  else (d'.setDmcontrol (d'.controlFields value)).controlHarts value

/-- `field_width`: the bits it takes to hold `n` different values. -/
def fieldWidth (n : Nat) : Nat :=
  if n ≤ 1 then 0 else (n - 1).log2 + 1

/-- A write of `hawindow`. -/
def writeHawindow (value : BitVec 32) : DebugModule :=
  { d with hartArrayMask := (List.range 32).foldl (fun mask i =>
      match d.config.hartids[d.hawindowsel * 32 + i]? with
      | some id => Function.update mask id (value.getLsbD i)
      | none => mask) d.hartArrayMask }

/-- A write of `hawindowsel`. -/
def writeHawindowsel (value : BitVec 32) : DebugModule :=
  { d with hawindowsel := value.toNat % 2 ^ fieldWidth (d.config.hartids.foldl max 0 + 1) }

/-- A write of `abstractcs`, where ones clear the bits of `cmderr`. -/
def writeAbstractcs (value : BitVec 32) : DebugModule :=
  d.setCmderr (d.abstractcs.cmderr &&& ~~~(getField value 0x700#32).setWidth 3)

/-- A write of `abstractauto`. -/
def writeAbstractauto (value : BitVec 32) : DebugModule :=
  { d with abstractauto := ⟨getField value 0xffff0000#32, getField value 0xfff#32⟩ }

/-- A write of `sbcs`. -/
def writeSbcs (value : BitVec 32) : DebugModule :=
  { d with sbcs := { d.sbcs with
      readonaddr := hasBits value 0x100000#32
      sbaccess := getField value 0xe0000#32
      autoincrement := hasBits value 0x10000#32
      readondata := hasBits value 0x8000#32
      error := d.sbcs.error &&& ~~~getField value 0x7000#32 } }

/-- A write of `authdata`. The secret is 1. -/
def writeAuthdata (value challenge : BitVec 32) : DebugModule :=
  if !d.config.requireAuthentication then d
  else if value = d.challenge + 1#32 then { d with authenticated := true }
  else { d with authenticated := false, challenge := challenge }

/-- A write of `dmcs2`. -/
def writeDmcs2 (value : BitVec 32) : DebugModule :=
  if d.config.supportHaltgroups && hasBits value 0x2#32 && !hasBits value 0x800#32 then
    d.setHart d.selectedHartId
      { d.selectedHartState with haltgroup := (getField value 0x7c#32).setWidth 8 }
  else d

/-- A write of `sbaddress0`. -/
def writeSbaddress0 (value : BitVec 32) (bus : SysBus) : Option DebugModule :=
  let d' := d.setSbaddress 0 value
  if d.sbcs.error = 0#32 ∧ d.sbcs.readonaddr then (d'.sbRead bus).map sbAutoincrement else some d'

/-- A write of `sbdata0`. -/
def writeSbdata0 (value : BitVec 32) (bus : SysBus) : Option DebugModule :=
  let d' := d.setSbdata 0 value
  if d.sbcs.error = 0#32 then (d'.sbWrite bus).map sbNext else some d'

/-- The registers that a write always reaches, with what becomes of the module. -/
def writePlain (address : Nat) (value challenge : BitVec 32) : Option DebugModule :=
  if address = dmDmcontrol then some (d.writeDmcontrol value challenge)
  else if address = dmHawindowsel then some (d.writeHawindowsel value)
  else if address = dmHawindow then some (d.writeHawindow value)
  else if address = dmAbstractcs then some (d.writeAbstractcs value)
  else if address = dmAbstractauto then some (d.writeAbstractauto value)
  else if address = dmSbcs then some (d.writeSbcs value)
  else if address = dmSbaddress1 then some (d.setSbaddress 1 value)
  else if address = dmSbaddress2 then some (d.setSbaddress 2 value)
  else if address = dmSbaddress3 then some (d.setSbaddress 3 value)
  else if address = dmSbdata1 then some (d.setSbdata 1 value)
  else if address = dmSbdata2 then some (d.setSbdata 2 value)
  else if address = dmSbdata3 then some (d.setSbdata 3 value)
  else if address = dmAuthdata then some (d.writeAuthdata value challenge)
  else if address = dmDmcs2 then some (d.writeDmcs2 value)
  else none

/-- The word `i` of the data is written, unless a command runs. -/
def writeData (i : Nat) (value : BitVec 32) : DebugModule :=
  if d.abstractcs.busy then d else { d with dmdata := d.dmdata.write32 i value }

/-- The word `i` of the program buffer is written, unless a command runs. -/
def writeProgbuf (i : Nat) (value : BitVec 32) : DebugModule :=
  if d.abstractcs.busy then d else { d with programBuffer := d.programBuffer.write32 i value }

/-- Set `command`. -/
def setCommand (value : BitVec 32) : DebugModule :=
  { d with command := value }

/-- `dmi_write`. There is no result when an access of the system bus traps. -/
def dmiWrite (address : Nat) (value : BitVec 32) (bus : SysBus) (challenge : BitVec 32) :
    Option (Bool × DebugModule) :=
  if !d.authenticated ∧ address ≠ dmAuthdata ∧ address ≠ dmDmcontrol then some (false, d)
  else if isData address then
    let i := address - dmData0
    some (true, ((d.writeData i value).noteBusy).autoexec d.abstractauto.autoexecdata i)
  else if d.isProgbuf address then
    let i := address - dmProgbuf0
    some (true, (d.writeProgbuf i value).autoexec d.abstractauto.autoexecprogbuf i)
  else if address = dmCommand then some (true, (d.setCommand value).performAbstractCommand)
  else if address = dmSbaddress0 then (d.writeSbaddress0 value bus).map fun d' => (true, d')
  else if address = dmSbdata0 then (d.writeSbdata0 value bus).map fun d' => (true, d')
  else some ((d.writePlain address value challenge).isSome,
    (d.writePlain address value challenge).getD d)

end DebugModule

/-! ### Runs -/

/-- What happens to a debug module. -/
inductive DmOp where
  | dmiRead (address : Nat) (bus : DebugModule.SysBus)
  | dmiWrite (address : Nat) (value : BitVec 32) (bus : DebugModule.SysBus) (challenge : BitVec 32)
  | runTestIdle
  | store (addr : Nat) (bytes : List (BitVec 8))
  | procReset (id : Nat)

namespace DebugModule

/-- One operation. There is no state after one that ends the simulation. -/
def act (d : DebugModule) : DmOp → Option DebugModule
  | .dmiRead address bus => (d.dmiRead address bus).map Prod.snd
  | .dmiWrite address value bus challenge => (d.dmiWrite address value bus challenge).map Prod.snd
  | .runTestIdle => some d.runTestIdle
  | .store addr bytes => (d.store addr bytes).map Prod.snd
  | .procReset id => some (d.procReset id)

/-- One operation of a run, which may have ended. -/
def step (d : Option DebugModule) (op : DmOp) : Option DebugModule :=
  d.bind fun d => d.act op

end DebugModule

end Nnemu

import Mathlib.Logic.Function.Basic
import Nnemu.Hart.State
import Nnemu.Sim.Device
import Nnemu.Sim.Opcodes

/-!
# The debug module

`debug_module_t`, between a debugger, which reads and writes its registers through the Debug Module
Interface, and the harts, which load and store to its memory while they are halted. An abstract
command is a program that the module writes to `debug_abstract` and then tells the selected hart to
run.
-/

namespace Nnemu

open Bytes

/-! ### State -/

/-- `debug_module_config_t`, with the `cfg_t` of the simulator. -/
structure DmConfig where
  progbufsize : Nat
  maxSbaDataWidth : Nat
  requireAuthentication : Bool
  abstractRti : Nat
  supportHasel : Bool
  supportAbstractCsrAccess : Bool
  supportAbstractFprAccess : Bool
  supportHaltgroups : Bool
  supportImpebreak : Bool
  /-- `hartids()` -/
  hartids : List Nat
  /-- the program buffer and the abstract program lie between the two other regions of the memory -/
  fits : 4 * progbufsize + (if supportImpebreak then 4 else 0) + 48 ≤ 0x7c

/-- `dmcontrol_t` -/
structure DmControl where
  haltreq : Bool
  resumereq : Bool
  hasel : Bool
  hartsel : Nat
  hartreset : Bool
  dmactive : Bool
  ndmreset : Bool
deriving DecidableEq

/-- `cmderr_t`: the values are those of a field of 3 bits. -/
abbrev CmdErr := BitVec 3

namespace CmdErr

/-- `CMDERR_NONE` -/
def none : CmdErr := 0#3
/-- `CMDERR_BUSY` -/
def busy : CmdErr := 1#3
/-- `CMDERR_NOTSUP` -/
def notsup : CmdErr := 2#3
/-- `CMDERR_EXCEPTION` -/
def exception : CmdErr := 3#3
/-- `CMDERR_HALTRESUME` -/
def haltresume : CmdErr := 4#3

end CmdErr

/-- `abstractcs_t`, less the two sizes. -/
structure AbstractCs where
  busy : Bool
  cmderr : CmdErr
deriving DecidableEq

/-- `abstractauto_t` -/
structure AbstractAuto where
  autoexecprogbuf : BitVec 32
  autoexecdata : BitVec 32
deriving DecidableEq

/-- `sbcs_t` -/
structure Sbcs where
  version : BitVec 32
  readonaddr : Bool
  sbaccess : BitVec 32
  autoincrement : Bool
  readondata : Bool
  error : BitVec 32
  asize : BitVec 32
  access128 : Bool
  access64 : Bool
  access32 : Bool
  access16 : Bool
  access8 : Bool
deriving DecidableEq

/-- `hart_debug_state_t` -/
structure HartDebugState where
  halted : Bool
  resumeack : Bool
  havereset : Bool
  haltgroup : BitVec 8

/-- A region of the memory of the module. -/
abbrev Region := Nat → BitVec 8

/-- `debug_module_t`, with the `halt_request` of each hart. -/
structure DebugModule where
  config : DmConfig
  dmdata : Region
  programBuffer : Region
  debugAbstract : Region
  debugRomFlags : Region
  hartState : Nat → HartDebugState
  haltRequest : Nat → HaltRequest
  dmcontrol : DmControl
  /-- `dmstatus.authenticated`. What else is in `dmstatus` is computed when it is read. -/
  authenticated : Bool
  abstractcs : AbstractCs
  abstractauto : AbstractAuto
  command : BitVec 32
  hawindowsel : Nat
  hartArrayMask : Nat → Bool
  sbcs : Sbcs
  sbaddress : Nat → BitVec 32
  sbdata : Nat → BitVec 32
  challenge : BitVec 32
  customBase : BitVec 32
  abstractCommandCompleted : Bool
  rtiRemaining : Nat

/-! ### Layout -/

namespace DebugModule

/-- `debug_data_start` -/
def debugDataStart : Nat := 0x380
/-- `datasize`, in words -/
def dmDatasize : Nat := 2
/-- `debug_abstract_size`, in words -/
def debugAbstractSize : Nat := 12
/-- `DEBUG_ROM_HALTED` -/
def debugRomHalted : Nat := 0x100
/-- `DEBUG_ROM_GOING` -/
def debugRomGoing : Nat := 0x104
/-- `DEBUG_ROM_RESUMING` -/
def debugRomResuming : Nat := 0x108
/-- `DEBUG_ROM_EXCEPTION` -/
def debugRomException : Nat := 0x10c
/-- `DEBUG_ROM_WHERETO` -/
def debugRomWhereto : Nat := 0x300
/-- `DEBUG_ROM_FLAGS` -/
def debugRomFlagsStart : Nat := 0x400
/-- `DEBUG_ROM_ENTRY` -/
def debugRomEntry : Nat := 0x800

/-- `debug_rom_raw` -/
def debugRomRaw : List (BitVec 8) :=
  [0x6f, 0x00, 0xc0, 0x00, 0x6f, 0x00, 0x00, 0x06, 0x6f, 0x00, 0x80, 0x03,
   0x0f, 0x00, 0xf0, 0x0f, 0x73, 0x10, 0x24, 0x7b, 0x73, 0x24, 0x40, 0xf1,
   0x23, 0x20, 0x80, 0x10, 0x03, 0x44, 0x04, 0x40, 0x13, 0x74, 0x14, 0x00,
   0x63, 0x14, 0x04, 0x02, 0x73, 0x24, 0x40, 0xf1, 0x03, 0x44, 0x04, 0x40,
   0x13, 0x74, 0x24, 0x00, 0x63, 0x18, 0x04, 0x02, 0x73, 0x00, 0x50, 0x10,
   0x6f, 0xf0, 0x9f, 0xfd, 0x73, 0x24, 0x20, 0x7b, 0x23, 0x26, 0x00, 0x10,
   0x73, 0x00, 0x10, 0x00, 0x73, 0x24, 0x40, 0xf1, 0x23, 0x22, 0x80, 0x10,
   0x73, 0x24, 0x20, 0x7b, 0x0f, 0x00, 0xf0, 0x0f, 0x0f, 0x10, 0x00, 0x00,
   0x67, 0x00, 0x00, 0x30, 0x73, 0x24, 0x40, 0xf1, 0x23, 0x24, 0x80, 0x10,
   0x73, 0x24, 0x20, 0x7b, 0x73, 0x00, 0x20, 0x7b]

end DebugModule

namespace DmConfig

variable (c : DmConfig)

/-- `nprocs()` -/
def nprocs : Nat := c.hartids.length

/-- `program_buffer_bytes` -/
def programBufferBytes : Nat :=
  (if c.supportImpebreak then 4 else 0) + 4 * c.progbufsize

/-- `debug_progbuf_start` -/
def debugProgbufStart : Nat :=
  DebugModule.debugDataStart - c.programBufferBytes

/-- `debug_abstract_start` -/
def debugAbstractStart : Nat :=
  c.debugProgbufStart - DebugModule.debugAbstractSize * 4

/-- `debug_rom_whereto`: a jump to the abstract program. -/
def whereto : BitVec 32 :=
  Opcodes.jal Opcodes.zero
    (BitVec.ofNat 32 c.debugAbstractStart - BitVec.ofNat 32 DebugModule.debugRomWhereto)

end DmConfig

namespace Region

/-- `write32` -/
def write32 (memory : Region) (index : Nat) (value : BitVec 32) : Region := fun a =>
  if 4 * index ≤ a ∧ a < 4 * index + 4 then (value >>> (8 * (a - 4 * index))).setWidth 8
    else memory a

/-- `read32` -/
def read32 (memory : Region) (index : Nat) : BitVec 32 :=
  (memory (4 * index)).setWidth 32 ||| ((memory (4 * index + 1)).setWidth 32 <<< 8) |||
    ((memory (4 * index + 2)).setWidth 32 <<< 16) ||| ((memory (4 * index + 3)).setWidth 32 <<< 24)

/-- `memcpy` into a region. -/
def copyIn (memory : Region) (at_ : Nat) (bytes : List (BitVec 8)) : Region := fun a =>
  if at_ ≤ a then (bytes[a - at_]?).getD (memory a) else memory a

/-- `memcpy` out of a region. -/
def copyOut (memory : Region) (at_ len : Nat) : List (BitVec 8) :=
  (List.range len).map fun i => memory (at_ + i)

/-- A region that holds these bytes. -/
def ofList (bytes : List (BitVec 8)) : Region := fun a =>
  (bytes[a]?).getD 0#8

end Region

namespace DebugModule

variable (d : DebugModule)

/-! ### Harts -/

/-- `selected_hart_id` -/
def selectedHartId : Nat :=
  d.config.hartids.getD d.dmcontrol.hartsel 0

/-- `hart_selected` -/
def hartSelected (hartid : Nat) : Bool :=
  hartid == d.selectedHartId || (d.dmcontrol.hasel && d.hartArrayMask hartid)

/-- `selected_hart_state` -/
def selectedHartState : HartDebugState :=
  d.hartState d.selectedHartId

/-- Set the state of a hart. -/
def setHart (id : Nat) (s : HartDebugState) : DebugModule :=
  { d with hartState := Function.update d.hartState id s }

/-- `proc_reset` -/
def procReset (id : Nat) : DebugModule :=
  d.setHart id { d.hartState id with havereset := true, halted := false, haltgroup := 0#8 }

/-- Set `cmderr`. -/
def setCmderr (err : CmdErr) : DebugModule :=
  { d with abstractcs := { d.abstractcs with cmderr := err } }

/-- The byte of flags of one hart. -/
def setFlags (id : Nat) (flags : BitVec 8) : DebugModule :=
  { d with debugRomFlags := Function.update d.debugRomFlags id flags }

/-! ### Loads and stores of the harts -/

/-- Do `len` bytes at an address lie in a region of `size` bytes? -/
def inRegion (start size addr len : Nat) : Bool :=
  decide (start ≤ addr) && decide (addr + len ≤ start + size)

/-- `debug_module_t::load` -/
def load (addr len : Nat) : LoadResult :=
  let c := d.config
  if inRegion debugRomEntry debugRomRaw.length addr len then
    some ((Region.ofList debugRomRaw).copyOut (addr - debugRomEntry) len)
  else if inRegion debugRomWhereto 4 addr len then
    some ((Region.ofList (toBytes (c.whereto.setWidth 64) 4)).copyOut (addr - debugRomWhereto) len)
  else if inRegion debugRomFlagsStart 1024 addr len then
    some (d.debugRomFlags.copyOut (addr - debugRomFlagsStart) len)
  else if inRegion c.debugAbstractStart (debugAbstractSize * 4) addr len then
    some (d.debugAbstract.copyOut (addr - c.debugAbstractStart) len)
  else if inRegion debugDataStart (dmDatasize * 4) addr len then
    some (d.dmdata.copyOut (addr - debugDataStart) len)
  else if inRegion c.debugProgbufStart c.programBufferBytes addr len then
    some (d.programBuffer.copyOut (addr - c.debugProgbufStart) len)
  else none

/-- A hart says that it is halted. The harts of its group are asked to halt, too. -/
def halted (id : Nat) : DebugModule :=
  if (d.hartState id).halted then d
  else
    let d' := d.setHart id { d.hartState id with halted := true }
    if (d.hartState id).haltgroup = 0#8 then d'
    else
      { d' with haltRequest := fun i =>
          if i ∈ d.config.hartids ∧ !(d'.hartState i).halted ∧
            (d'.hartState i).haltgroup = (d'.hartState id).haltgroup then .group
          else d.haltRequest i }

/-- The command has run when the selected hart is halted again and not about to go. -/
def completed (id : Nat) : DebugModule :=
  if d.selectedHartId = id ∧ !hasBits (d.debugRomFlags id) 1#8 then
    { d with abstractCommandCompleted := true } else d

/-- A hart says that it is resuming. -/
def resuming (id : Nat) : DebugModule :=
  (d.setHart id { d.hartState id with halted := false, resumeack := true }).setFlags id
    (d.debugRomFlags id &&& ~~~2#8)

/-- `debug_module_t::store`. There is no result when an assertion fails. -/
def store (addr : Nat) (bytes : List (BitVec 8)) : Option (Bool × DebugModule) :=
  let len := bytes.length
  let id := if len = 4 then (fromBytes bytes).toNat else 0
  let c := d.config
  if inRegion debugDataStart (dmDatasize * 4) addr len then
    some (true, { d with dmdata := d.dmdata.copyIn (addr - debugDataStart) bytes })
  else if inRegion c.debugProgbufStart c.programBufferBytes addr len then
    some
      (true, { d with programBuffer := d.programBuffer.copyIn (addr - c.debugProgbufStart) bytes })
  else if addr = debugRomHalted then
    -- `assert (len == 4)`
    if len ≠ 4 then none else some (true, (d.halted id).completed id)
  else if addr = debugRomGoing then
    if len ≠ 4 then none else some (true, d.setFlags id (d.debugRomFlags id &&& ~~~1#8))
  else if addr = debugRomResuming then
    if len ≠ 4 then none else some (true, d.resuming id)
  else if addr = debugRomException then
    some (true, if d.abstractcs.cmderr = CmdErr.none then d.setCmderr CmdErr.exception else d)
  else some (false, d)

end DebugModule

end Nnemu

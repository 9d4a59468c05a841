import Nnemu.Sim.DebugModule

/-!
# The Debug Module Interface

What the debugger does to the debug module: `dmi_read`, `dmi_write` and `run_test_idle`.
-/

namespace Nnemu

open Bytes Opcodes

namespace DebugModule

variable (d : DebugModule)

/-! ### Abstract commands -/

/-- `AC_ACCESS_REGISTER_AARSIZE` -/
def acAarsize : BitVec 32 := 0x700000#32
/-- `AC_ACCESS_REGISTER_POSTEXEC` -/
def acPostexec : BitVec 32 := 0x40000#32
/-- `AC_ACCESS_REGISTER_TRANSFER` -/
def acTransfer : BitVec 32 := 0x20000#32
/-- `AC_ACCESS_REGISTER_WRITE` -/
def acWrite : BitVec 32 := 0x10000#32
/-- `AC_ACCESS_REGISTER_REGNO` -/
def acRegno : BitVec 32 := 0xffff#32

def dscratch0 : BitVec 32 := 0x7b2#32
def dscratch1 : BitVec 32 := 0x7b3#32
def mstatusCsr : BitVec 32 := 0x300#32

/-- `is_fpu_reg` -/
def isFpuReg (regno : BitVec 32) : Bool :=
  (decide (0x1020#32 ≤ regno) && decide (regno ≤ 0x103f#32)) || regno == 1#32 ||
    regno == 2#32 || regno == 3#32

/-- What becomes of a register transfer: a program for the hart, none because the command is not
supported, with what has been written of the program by then, or one of the custom registers of the
module. -/
inductive Draft where
  | program (words : List (BitVec 32))
  | notsup (words : List (BitVec 32))
  | custom

/-- The instruction that moves a register of 4 or 8 bytes to or from the data registers. -/
def moveWord (size : BitVec 32) (word double : BitVec 32 → BitVec 32 → BitVec 32 → BitVec 32)
    (reg : BitVec 32) :
    Option (BitVec 32) :=
  if size = 2#32 then some (word reg zero (BitVec.ofNat 32 debugDataStart))
  else if size = 3#32 then some (double reg zero (BitVec.ofNat 32 debugDataStart))
  else none

/-- The program for a CSR, which goes through `s0`. That of an FPU register is saved already. -/
def draftCsr (size regno : BitVec 32) (write : Bool) : Draft :=
  let save := if isFpuReg regno then [] else [csrw s0 dscratch0]
  let restore := if isFpuReg regno then [] else [csrr s0 dscratch0]
  if write then
    match moveWord size lw ld s0 with
    | none => .notsup save
    | some w => .program (save ++ [w, csrw s0 regno] ++ restore)
  else
    match moveWord size sw sd s0 with
    | none => .notsup (save ++ [csrr s0 regno])
    | some w => .program (save ++ [csrr s0 regno, w] ++ restore)

/-- The program for a GPR. The exception handler restores `s0` from `dscratch0`, so a new `s0` goes
there as well. -/
def draftGpr (size regno : BitVec 32) (write : Bool) : Draft :=
  let regnum := regno - 0x1000#32
  match if write then moveWord size lw ld regnum else moveWord size sw sd regnum with
  | none => .notsup []
  | some w => .program (w :: if regno = 0x1000#32 + s0 ∧ write then [csrw s0 dscratch0] else [])

/-- The program for an FPR. -/
def draftFpr (size regno : BitVec 32) (write : Bool) : Draft :=
  let fprnum := regno - 0x1020#32
  match if write then moveWord size flw fld fprnum else moveWord size fsw fsd fprnum with
  | none => .notsup []
  | some w => .program [w]

/-- The program for a register, by its number. -/
def draftReg (c : DmConfig) (size regno : BitVec 32) (write : Bool) : Draft :=
  if regno < 0x1000#32 ∧ c.supportAbstractCsrAccess then draftCsr size regno write
  else if 0x1000#32 ≤ regno ∧ regno < 0x1020#32 then draftGpr size regno write
  else if 0x1020#32 ≤ regno ∧ regno < 0x1040#32 ∧
    c.supportAbstractFprAccess then draftFpr size regno write
  -- odd-numbered custom registers, to allow for debugger testing
  else if 0xc000#32 ≤ regno ∧ regno &&& 1#32 = 1#32 then .custom
  else .notsup []

/-- Before an FPU register is accessed: save `s0` and `mstatus`, and set `mstatus.FS`. -/
def enableFpu : List (BitVec 32) :=
  [csrw s0 dscratch0, csrr s0 mstatusCsr, csrw s0 dscratch1, lui s0 6#32, csrrs zero s0 mstatusCsr]

/-- After it: restore `mstatus` and `s0`. -/
def restoreFpu : List (BitVec 32) :=
  [csrr s0 dscratch1, csrw s0 mstatusCsr, csrr s0 dscratch0]

/-- The program for a transfer. -/
def draft (c : DmConfig) (size regno : BitVec 32) (write : Bool) : Draft :=
  match isFpuReg regno, draftReg c size regno write with
  | true, .program words => .program (enableFpu ++ words ++ restoreFpu)
  | true, .notsup words => .notsup (enableFpu ++ words)
  | _, other => other

/-- Words are written to `debug_abstract`, from the first on. -/
def assemble (words : List (BitVec 32)) : DebugModule :=
  { d with debugAbstract := words.zipIdx.foldl (fun mem w => mem.write32 w.2 w.1) d.debugAbstract }

/-- The last word of the program, at index `i`. -/
def lastWord (i : Nat) : BitVec 32 :=
  if hasBits d.command acPostexec then
    jal zero (BitVec.ofNat 32 d.config.debugProgbufStart - BitVec.ofNat
      32 d.config.debugAbstractStart -
      4#32 * BitVec.ofNat 32 i)
  else ebreak

/-- The selected hart is told to run a program. -/
def launch (words : List (BitVec 32)) : DebugModule :=
  let id := d.selectedHartId
  let d' := (d.assemble (words ++ [d.lastWord words.length])).setFlags id
    (d.debugRomFlags id ||| 1#8)
  { d' with
    rtiRemaining := d.config.abstractRti
    abstractCommandCompleted := false
    abstractcs := { d.abstractcs with busy := true } }

/-- A custom register: writing `v` to `n` causes reads of `n` to return `v`, of `n - 1` to return `v
- 1`, and so on. -/
def customRegister (regno : BitVec 32) (write : Bool) : DebugModule :=
  let customNumber := regno - 0xc000#32
  if write then { d with customBase := d.dmdata.read32 0 - customNumber }
  else { d with dmdata := (d.dmdata.write32 0 (customNumber + d.customBase)).write32 1 0#32 }

/-- `perform_abstract_command`, which always returns true. -/
def performAbstractCommand : DebugModule :=
  if d.abstractcs.cmderr ≠ CmdErr.none then d
  else if d.abstractcs.busy then d.setCmderr CmdErr.busy
  else if d.command >>> 24 = 0#32 then
    -- register access
    let size := getField d.command acAarsize
    let write := hasBits d.command acWrite
    let regno := getField d.command acRegno
    if !d.selectedHartState.halted then d.setCmderr CmdErr.haltresume
    else if hasBits d.command acTransfer then
      match draft d.config size regno write with
      | .program words => d.launch words
      | .notsup words => (d.assemble words).setCmderr CmdErr.notsup
      | .custom => d.customRegister regno write
    else d.launch []
  else d.setCmderr CmdErr.notsup

/-- `run_test_idle` -/
def runTestIdle : DebugModule :=
  let rti := d.rtiRemaining - 1
  { d with
    rtiRemaining := rti
    abstractcs :=
      if rti = 0 ∧ d.abstractcs.busy ∧ d.abstractCommandCompleted then
        { d.abstractcs with busy := false }
      else d.abstractcs }

/-! ### System bus -/

/-- How a load over the bus ends: with a value, with the access fault that `sb_read` catches, or
with another trap, which nobody catches. -/
inductive SbLoad where
  | value (v : BitVec 64)
  | accessFault
  | otherTrap

/-- What the rest of the system answers to the debugger's own loads and stores. -/
structure SysBus where
  load : BitVec 64 → Nat → SbLoad
  /-- Is a store outside the debug module accepted? -/
  accepts : BitVec 64 → Nat → Bool

/-- The size of the window of the debug module. -/
def debugSize : Nat := 0x1000

/-- `sb_access_bits() / 8` -/
def sbAccessBytes : BitVec 32 :=
  (8#32 <<< d.sbcs.sbaccess.toNat) / 8#32

/-- `sb_autoincrement` -/
def sbAutoincrement : DebugModule :=
  if !d.sbcs.autoincrement || d.config.maxSbaDataWidth = 0 then d
  else
    -- a sum of two `uint32_t` wraps before it is widened
    let v0 := (d.sbaddress 0 + d.sbAccessBytes).setWidth 64
    let v1 := (d.sbaddress 1 + (v0 >>> 32).setWidth 32).setWidth 64
    let v2 := (d.sbaddress 2 + (v1 >>> 32).setWidth 32).setWidth 64
    { d with sbaddress := fun i =>
        if i = 0 then v0.setWidth 32 else if i = 1 then v1.setWidth 32
          else if i = 2 then v2.setWidth 32
        else d.sbaddress 3 + (v2 >>> 32).setWidth 32 }

/-- The address of an access over the bus. -/
def sbTarget : BitVec 64 :=
  ((d.sbaddress 1).setWidth 64 <<< 32) ||| (d.sbaddress 0).setWidth 64

/-- How many bytes does an access move, if it is supported? -/
def sbLen : Option Nat :=
  let width := d.config.maxSbaDataWidth
  if d.sbcs.sbaccess = 0#32 ∧ 8 ≤ width then some 1
  else if d.sbcs.sbaccess = 1#32 ∧ 16 ≤ width then some 2
  else if d.sbcs.sbaccess = 2#32 ∧ 32 ≤ width then some 4
  else if d.sbcs.sbaccess = 3#32 ∧ 64 ≤ width then some 8
  else none

/-- Set `sbcs.error`. -/
def setSbError (err : BitVec 32) : DebugModule :=
  { d with sbcs := { d.sbcs with error := err } }

/-- Set one of the words of `sbdata`. -/
def setSbdata (i : Nat) (value : BitVec 32) : DebugModule :=
  { d with sbdata := Function.update d.sbdata i value }

/-- Set one of the words of `sbaddress`. -/
def setSbaddress (i : Nat) (value : BitVec 32) : DebugModule :=
  { d with sbaddress := Function.update d.sbaddress i value }

/-- `sb_read` -/
def sbRead (bus : SysBus) : Option DebugModule :=
  match d.sbLen with
  | none => some (d.setSbError 3#32)
  | some len =>
    match bus.load d.sbTarget len with
    | .value v =>
      let d' := d.setSbdata 0 (v.setWidth 32)
      some (if len = 8 then d'.setSbdata 1 ((v >>> 32).setWidth 32) else d')
    | .accessFault => some (d.setSbError 2#32)
    | .otherTrap => none

/-- A store over the bus, which traps when it is misaligned or refused. The module itself is on the
bus. -/
def sbStore (bus : SysBus) (addr : BitVec 64) (bytes : List (BitVec 8)) : Option DebugModule :=
  if addr.toNat % bytes.length ≠ 0 then none
  else if addr.toNat < debugSize then (d.store addr.toNat bytes).bind fun r => if r.1 then some r.2
    else none
  else if bus.accepts addr bytes.length then some d
  else none

/-- `sb_write` -/
def sbWrite (bus : SysBus) : Option DebugModule :=
  match d.sbLen with
  | none => some (d.setSbError 3#32)
  | some len =>
    d.sbStore bus d.sbTarget
      (toBytes (((d.sbdata 1).setWidth 64 <<< 32) ||| (d.sbdata 0).setWidth 64) len)

/-- The address moves on, when there has been no error. -/
def sbNext : DebugModule :=
  if d.sbcs.error = 0#32 then d.sbAutoincrement else d

/-! ### Reset -/

/-- `reset`, with the new `challenge`. -/
def reset (challenge : BitVec 32) : DebugModule :=
  let width := d.config.maxSbaDataWidth
  { d with
    haltRequest := fun i => if i ∈ d.config.hartids then .none else d.haltRequest i
    dmcontrol := ⟨false, false, false, 0, false, false, false⟩
    authenticated := !d.config.requireAuthentication
    abstractcs := ⟨false, CmdErr.none⟩
    abstractauto := ⟨0#32, 0#32⟩
    sbcs := ⟨if 0 < width then 1#32 else 0#32, false, 0#32, false, false,
      0#32, if 0 < width then 64#32 else 0#32, false,
      decide (64 ≤ width), decide (32 ≤ width), decide (16 ≤ width), decide (8 ≤ width)⟩
    challenge := challenge }

/-- The constructor. What it leaves uninitialised is zero here. -/
def initial (c : DmConfig) (challenge : BitVec 32) : DebugModule :=
  let zeros : Region := fun _ => 0#8
  let d : DebugModule := {
    config := c
    dmdata := zeros
    programBuffer := if c.supportImpebreak then zeros.write32 c.progbufsize ebreak else zeros
    debugAbstract := zeros
    debugRomFlags := zeros
    hartState := fun _ => ⟨false, false, false, 0#8⟩
    haltRequest := fun _ => .none
    dmcontrol := ⟨false, false, false, 0, false, false, false⟩
    authenticated := false
    abstractcs := ⟨false, CmdErr.none⟩
    abstractauto := ⟨0#32, 0#32⟩
    command := 0#32
    hawindowsel := 0
    hartArrayMask := fun _ => false
    sbcs := ⟨0#32, false, 0#32, false, false, 0#32, 0#32, false, false, false, false, false⟩
    sbaddress := fun _ => 0#32
    sbdata := fun _ => 0#32
    challenge := challenge
    customBase := 0#32
    abstractCommandCompleted := false
    rtiRemaining := 0 }
  d.reset challenge

/-- One hart, a program buffer of two words and nothing else. -/
def oneHart : DmConfig where
  progbufsize := 2
  maxSbaDataWidth := 0
  requireAuthentication := false
  abstractRti := 0
  supportHasel := false
  supportAbstractCsrAccess := true
  supportAbstractFprAccess := true
  supportHaltgroups := false
  supportImpebreak := true
  hartids := [0]
  fits := by decide

end DebugModule

end Nnemu

import Nnemu.Fesvr.Memif
import Nnemu.Lib.Bytes
import Nnemu.Lib.Exec

/-!
# Devices of the host interface

A target sends commands to the devices of `htif_t`: the proxy of system calls, the terminal and
whatever has been added. A command is one word, which says which device is meant, what it is asked
to do, and what to do it with. The answers wait in a queue. What the proxied system calls do is a
parameter.

What has been sent, handled, answered and taken is noted in a log, which only statements look at. A
system call outside the table stops the host, as does an address that is not there; the devices
themselves answer or keep silent.
-/

namespace Nnemu

open Bytes

/-- `command_t`. The memory and the queue that it refers to are those of the host. -/
structure HtifCommand where
  tohost : BitVec 64
deriving DecidableEq

namespace HtifCommand

variable (c : HtifCommand)

/-- `device()` -/
def device : BitVec 8 :=
  (c.tohost >>> 56).setWidth 8

/-- `cmd()` -/
def cmd : BitVec 8 :=
  (c.tohost >>> 48).setWidth 8

/-- `payload()` -/
def payload : BitVec 64 :=
  c.tohost <<< 16 >>> 16

/-- What `respond(resp)` hands to the callback. -/
def response (resp : BitVec 64) : BitVec 64 :=
  (c.tohost >>> 48 <<< 48) ||| (resp <<< 16 >>> 16)

end HtifCommand

/-- What the host was doing when it met an address that is not there. -/
inductive HtifSituation where
  | accessingTohost
  /-- on behalf of the target, with the word it had sent -/
  | onBehalfOfTarget (tohost : BitVec 64)
  | accessingFromhost
deriving DecidableEq

/-- How the host comes to an end. -/
inductive HtifStop where
  /-- `mem_trap_t` -/
  | memTrap (addr : BitVec 64)
  /-- `bad_address` -/
  | badAddress (situation : HtifSituation) (addr : BitVec 64)
  /-- `std::runtime_error("misaligned address")` -/
  | misaligned
  /-- `std::runtime_error("bad syscall #…")` -/
  | badSyscall (n : BitVec 64)
deriving DecidableEq

/-- What was sent and received, which the code does not keep. -/
structure HtifLog where
  /-- what the target has sent -/
  sent : List HtifCommand
  /-- what has been handed to a device -/
  handled : List HtifCommand
  /-- what the devices have responded -/
  issued : List (BitVec 64)
  /-- what the target has taken out of `fromhost` -/
  taken : List (BitVec 64)
  /-- what was read from the terminal -/
  typed : List (BitVec 8)

/-- The host, over the states of what the system calls act on. -/
structure HtifState (σ : Type) where
  /-- memory of the target -/
  mem : ByteMem
  fromhostQueue : List (BitVec 64)
  /-- `bcd.pending_reads` -/
  pendingReads : List HtifCommand
  /-- what the terminal has shown -/
  console : List (BitVec 8)
  exitcode : BitVec 32
  proxy : σ
  log : HtifLog

/-- A program of the host. -/
abbrev HtifM (σ : Type) : Type → Type :=
  Exec HtifStop (HtifState σ)

/-- A proxied system call: it is given seven arguments and may access memory, set the exit code and
throw. -/
abbrev SyscallFn (σ : Type) : Type :=
  List (BitVec 64) → Exec HtifStop (ByteMem × BitVec 32 × σ) (BitVec 64)

/-- What the host is made with. -/
structure HtifConfig (σ : Type) where
  tohostAddr : BitVec 64
  fromhostAddr : BitVec 64
  /-- `get_target_endianness() == endianness_big` -/
  bigEndian : Bool
  /-- is there memory at the address? -/
  mapped : BitVec 64 → Bool
  /-- `syscall_t::table` -/
  table : Nat → Option (SyscallFn σ)

/-- `table.size()` -/
def syscallTableSize : Nat := 2048

/-- `command_t::MAX_COMMANDS` -/
def maxCommands : Nat := 256

/-- `device_t::IDENTITY_SIZE` -/
def identitySize : Nat := 64

namespace Htif

variable {σ : Type} (cfg : HtifConfig σ)

/-! ### Memory of the target -/

/-- The value of eight bytes, in the order of the target. -/
def wordOf (bigEndian : Bool) (bytes : List (BitVec 8)) : BitVec 64 :=
  fromBytes (if bigEndian then bytes.reverse else bytes)

/-- The eight bytes of a value, in the order of the target. -/
def bytesOf (bigEndian : Bool) (w : BitVec 64) : List (BitVec 8) :=
  if bigEndian then (toBytes w 8).reverse else toBytes w 8

/-- `mem.read` -/
def readMem (addr : BitVec 64) (n : Nat) : HtifM σ (List (BitVec 8)) := do
  if !(List.range n).all fun i => cfg.mapped (addr + BitVec.ofNat 64 i) then throw (.memTrap addr)
  let s ← get
  pure (readBytes s.mem addr n)

/-- `mem.write` -/
def writeMem (addr : BitVec 64) (bytes : List (BitVec 8)) : HtifM σ Unit := do
  if !(List.range bytes.length).all fun i => cfg.mapped (addr + BitVec.ofNat 64 i) then
    throw (.memTrap addr)
  modify fun s => { s with mem := writeBytes s.mem addr bytes }

/-- `mem.read_uint64`, as a value of the host -/
def readUint64 (addr : BitVec 64) : HtifM σ (BitVec 64) := do
  if addr &&& 7#64 ≠ 0#64 then throw .misaligned
  let bytes ← readMem cfg addr 8
  pure (wordOf cfg.bigEndian bytes)

/-- `mem.write_uint64`, of a value of the host -/
def writeUint64 (addr w : BitVec 64) : HtifM σ Unit := do
  if addr &&& 7#64 ≠ 0#64 then throw .misaligned
  writeMem cfg addr (bytesOf cfg.bigEndian w)

/-! ### Devices -/

/-- `respond`: the callback puts the response into the queue. -/
def respond (c : HtifCommand) (resp : BitVec 64) : HtifM σ Unit :=
  modify fun s => { s with
    fromhostQueue := s.fromhostQueue ++ [c.response resp]
    log := { s.log with issued := s.log.issued ++ [c.response resp] } }

/-- A device: what it calls itself, and the commands that it has registered with their names. -/
structure Device (σ : Type) where
  identity : List (BitVec 8)
  commands : List (BitVec 8 × List (BitVec 8) × (HtifCommand → HtifM σ Unit))

/-- The characters of a string. -/
def chars (s : String) : List (BitVec 8) :=
  s.toList.map fun ch => BitVec.ofNat 8 ch.toNat

/-- `command_names[what]` -/
def Device.commandName (d : Device σ) (what : BitVec 8) : List (BitVec 8) :=
  match d.commands.find? fun entry => entry.1 = what with
  | some entry => entry.2.1
  | none => []

/-- `device_t::handle_identify` -/
def handleIdentify (d : Device σ) (c : HtifCommand) : HtifM σ Unit := do
  let what := c.payload.setWidth 8
  let addr := c.payload / BitVec.ofNat 64 maxCommands
  let id := if what = 255#8 then d.identity else d.commandName what
  writeMem cfg addr (id ++ List.replicate (identitySize - id.length) 0#8)
  respond c 1#64

/-- `device_t::handle_command`. The last command identifies the device, the others are registered or
do nothing. -/
def Device.handleCommand (d : Device σ) (c : HtifCommand) : HtifM σ Unit :=
  match d.commands.find? fun entry => entry.1 = c.cmd with
  | some entry => entry.2.2 c
  | none => if c.cmd = 255#8 then handleIdentify cfg d c else pure ()

/-- A system call, with what it may change. -/
def proxied (f : SyscallFn σ) (args : List (BitVec 64)) : HtifM σ (BitVec 64) := fun s =>
  match f args (s.mem, s.exitcode, s.proxy) with
  | .ok ret t => .ok ret { s with mem := t.1, exitcode := t.2.1, proxy := t.2.2 }
  | .error e t => .error e { s with mem := t.1, exitcode := t.2.1, proxy := t.2.2 }

/-- `syscall_t::dispatch` -/
def dispatch (mm : BitVec 64) : HtifM σ Unit := do
  let magicmem ← readMem cfg mm 64
  let words := (List.range 8).map fun k => wordOf cfg.bigEndian ((magicmem.drop (8 * k)).take 8)
  let n := words.headD 0#64
  if syscallTableSize ≤ n.toNat then throw (.badSyscall n)
  match cfg.table n.toNat with
  | none => throw (.badSyscall n)
  | some f =>
    let ret ← proxied f words.tail
    writeMem cfg mm (bytesOf cfg.bigEndian ret ++ magicmem.drop 8)

/-- `syscall_t::handle_syscall` -/
def handleSyscall (c : HtifCommand) : HtifM σ Unit := do
  if c.payload &&& 1#64 ≠ 0#64 then modify fun s => { s with exitcode := c.payload.setWidth 32 }
  else
    dispatch cfg c.payload
    respond c 1#64

/-- `bcd_t::handle_read` -/
def bcdRead (c : HtifCommand) : HtifM σ Unit :=
  modify fun s => { s with pendingReads := s.pendingReads ++ [c] }

/-- `bcd_t::handle_write` -/
def bcdWrite (c : HtifCommand) : HtifM σ Unit :=
  modify fun s => { s with console := s.console ++ [c.payload.setWidth 8] }

/-- `bcd_t::tick`, with what the terminal would return -/
def bcdTick (typed : Option (BitVec 8)) : HtifM σ Unit := do
  let s ← get
  match s.pendingReads with
  | [] => pure ()
  | c :: rest =>
    match typed with
    | none => pure ()
    | some ch =>
      modify fun s => { s with log := { s.log with typed := s.log.typed ++ [ch] } }
      respond c (0x100#64 ||| ch.setWidth 64)
      modify fun s => { s with pendingReads := rest }

/-- `syscall_proxy` -/
def syscallProxy : Device σ where
  identity := chars "syscall_proxy"
  commands := [(0#8, chars "syscall", handleSyscall cfg)]

/-- `bcd` -/
def bcd : Device σ where
  identity := chars "bcd"
  commands := [(0#8, chars "read", bcdRead), (1#8, chars "write", bcdWrite)]

/-- `null_device` -/
def nullDevice : Device σ where
  identity := []
  commands := []

/-- `device_list_t::devices`, without devices that are added -/
def deviceAt (n : BitVec 8) : Device σ :=
  if n = 0#8 then syscallProxy cfg else if n = 1#8 then bcd else nullDevice

/-- `device_list_t::handle_command`. That it was called is noted. -/
def handleCommand (c : HtifCommand) : HtifM σ Unit := do
  modify fun s => { s with log := { s.log with handled := s.log.handled ++ [c] } }
  (deviceAt cfg c.device).handleCommand cfg c

end Htif

end Nnemu

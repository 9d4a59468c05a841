import Mathlib.Data.Nat.Basic
import Nnemu.Lib.Routing
import Nnemu.Sim.Clint
import Nnemu.Sim.DebugModule
import Nnemu.Sim.Disk
import Nnemu.Sim.Memory
import Nnemu.Sim.Plic
import Nnemu.Sim.Uart

/-!
# The bus

`bus_t` with the devices that `sim_t` puts on it. An access is handed to the device with the
greatest base that is not above its address. The disk is on the bus and uses it as well: a command
moves as many bytes as it is told to, at once.
-/

namespace Nnemu

open Bytes

/-! ### The image of the disk -/

/-- The contents of a file, of which the size is an `off_t`. -/
structure Image where
  bytes : List (BitVec 8)
  sized : bytes.length < 2 ^ 63

/-- What the host does when the image is read and written. -/
structure Host where
  /-- `pread`, or its error -/
  pread : Image → Nat → Int → Except (BitVec 32) (List (BitVec 8))
  /-- `pwrite`, or its error -/
  pwrite : Image → List (BitVec 8) → Int → Except (BitVec 32) Nat × Image
  length_pread : ∀ {image n offset got}, pread image n offset = .ok got → got.length ≤ n

/-! ### Devices -/

/-- `vga_t`: a frame buffer that fits its window. -/
structure Vga where
  pixels : Reg → BitVec 8
  fbSize : Reg
  fits : fbSize.toNat ≤ 0x200000

namespace Vga

variable (v : Vga)

/-- `vga_t::load` -/
def load (addr : Reg) (len : Nat) : LoadResult :=
  if addr + BitVec.ofNat 64 len > v.fbSize then none else some (readBytes v.pixels addr len)

/-- `vga_t::store` -/
def store (addr : Reg) (bytes : List (BitVec 8)) : Bool × Vga :=
  if addr + BitVec.ofNat 64 bytes.length > v.fbSize then (false, v)
  else (true, { v with pixels := writeBytes v.pixels addr bytes })

end Vga

/-- `rom_device_t::load` -/
def romLoad (data : List (BitVec 8)) (addr : Reg) (len : Nat) : LoadResult :=
  if addr + BitVec.ofNat 64 len > BitVec.ofNat 64 data.length then none
    else some ((data.drop addr.toNat).take len)

namespace Uart

/-- Does a load end in `update_interrupt`? -/
def loadDrives (u : Uart) (addr : Reg) (len : Nat) : Bool :=
  u.regIoWidth == len && (u.regOf addr == 0#64 || (u.regOf addr == 2#64 && hasBits u.iir iirThri))

/-- Does a store end in `update_interrupt`? -/
def storeDrives (u : Uart) (addr : Reg) (len : Nat) : Bool :=
  u.regIoWidth == len && decide (u.regOf addr < 5#64)

end Uart

/-- The devices of the simulator. -/
inductive Device where
  | debug
  | rom
  | clint
  | plic
  | uart
  | disk
  | vga
  | flash
  | dram
deriving DecidableEq

/-- `sim_t`: the devices, while no assertion has failed. -/
structure Devices where
  debug : DebugModule
  rom : List (BitVec 8)
  clint : Clint
  plic : Plic
  uart : Uart
  /-- the disk, when there is an image -/
  disk : Option SyncDisk
  image : Image
  vga : Vga
  flash : Mem
  dram : Mem
  running : clint.aborted = false

/-- `NS16550_INTERRUPT_ID` -/
def uartInterruptId : Nat := 10

namespace Devices

variable (s : Devices)

/-! ### The map -/

/-- `DEBUG_START` -/
def debugStart : Nat := 0
/-- `DEFAULT_RSTVEC` -/
def romBase : Nat := 0x1000
/-- `CLINT_BASE` -/
def clintBase : Nat := 0x2000000
/-- `PLIC_BASE` -/
def plicBase : Nat := 0xc000000
/-- `NS16550_BASE` -/
def uartBase : Nat := 0x10000000
/-- `SYNC_DISK_BASE` -/
def diskBase : Nat := 0x10001000
/-- `VGA_BASE` -/
def vgaBase : Nat := 0x21000000
/-- `FLASH_BASE` -/
def flashBase : Nat := 0x30000000
/-- `DRAM_BASE` -/
def dramBase : Nat := 0x80000000

/-- `bus_t::devices`, in ascending order. -/
def map : List (Nat × Device) :=
  [(debugStart, .debug), (romBase, .rom), (clintBase, .clint), (plicBase, .plic),
    (uartBase, .uart)] ++
    (if s.disk.isSome then [(diskBase, .disk)] else []) ++
    [(vgaBase, .vga), (flashBase, .flash), (dramBase, .dram)]

/-- `bus_t::find_device` -/
def findDevice (addr : Reg) : Option (Nat × Device) :=
  Routing.find s.map addr.toNat

/-! ### Harts -/

/-- The interrupt controller has been used. The harts are those of the timer as well. -/
def withPlic (p : Plic) : Devices :=
  { s with
    plic := p
    clint := { s.clint with harts := fun id => (s.clint.harts id).map fun _ => p.harts id }
    running := s.running }

/-- The timer has been used. -/
def withClint (c : Clint) (h : c.aborted = false) : Devices :=
  { s with
    clint := c
    plic := { s.plic with harts := fun id => (c.harts id).getD (s.plic.harts id) }
    running := h }

/-- The timer has been used, unless an assertion failed. -/
def afterClint {α : Type} (r : α × Clint) : Option (α × Devices) :=
  if h : r.2.aborted = false then some (r.1, s.withClint r.2 h) else none

/-- The serial port has been used. -/
def withUart (u : Uart) (drives : Bool) : Devices :=
  let s' := { s with uart := u }
  if drives then s'.withPlic (s'.plic.setInterruptLevel uartInterruptId u.level) else s'

/-- The registers of the disk have changed. -/
def updateDisk (f : SyncDisk → SyncDisk) : Devices :=
  { s with disk := s.disk.map f }

/-! ### Loads -/

/-- The load of one device, at an offset in it. -/
def deviceLoad (dev : Device) (offset : Reg) (len : Nat) : Option (LoadResult × Devices) :=
  match dev with
  | .debug => some (s.debug.load offset.toNat len, s)
  | .rom => some (romLoad s.rom offset len, s)
  | .clint => s.afterClint (s.clint.load offset len)
  | .plic =>
    let (r, p) := s.plic.load offset len
    some (r, s.withPlic p)
  | .uart =>
    let (r, u) := s.uart.load offset len
    some (r, s.withUart u (s.uart.loadDrives offset len))
  | .disk =>
    match s.disk with
    | none => some (none, s)
    | some d => (d.load offset len).map fun r => (r, s)
  | .vga => some (s.vga.load offset len, s)
  | .flash =>
    let (r, m) := s.flash.load offset (BitVec.ofNat 64 len)
    some (r, { s with flash := m })
  | .dram =>
    let (r, m) := s.dram.load offset (BitVec.ofNat 64 len)
    some (r, { s with dram := m })

/-- `bus_t::load` -/
def busLoad (addr : Reg) (len : Nat) : Option (LoadResult × Devices) :=
  match s.findDevice addr with
  | none => some (none, s)
  | some (base, dev) => s.deviceLoad dev (addr - BitVec.ofNat 64 base) len

/-! ### The command of the disk -/

/-- A store over the bus. There is no result when an assertion fails. -/
abbrev BusStore := Devices → Reg → List (BitVec 8) → Option (Bool × Devices)

section

variable (host : Host) (store : BusStore)

/-- `CMD_READ`: from the image to the guest. -/
def executeRead (d : SyncDisk) : Option (Bool × Devices) :=
  match host.pread s.image d.totalBytes d.offset with
  | .error errno => some (false, s.updateDisk fun d => d.failed errno)
  | .ok got =>
    let buffer := got ++ List.replicate (d.totalBytes - got.length) 0#8
    match store s d.guestPa buffer with
    | none => none
    | some (false, s') => some (false, s'.updateDisk fun d => d.failed SyncDisk.efault)
    | some (true, s') => some (true, s'.updateDisk fun d => d.completed buffer.length)

/-- `CMD_WRITE`: from the guest to the image. -/
def executeWrite (d : SyncDisk) : Option (Bool × Devices) :=
  match s.busLoad d.guestPa d.totalBytes with
  | none => none
  | some (none, s') => some (false, s'.updateDisk fun d => d.failed SyncDisk.efault)
  | some (some buffer, s') =>
    match host.pwrite s'.image buffer d.offset with
    | (.error errno, image) => some
      (false, { s' with image := image }.updateDisk fun d => d.failed errno)
    | (.ok wrote, image) =>
      if wrote ≠ buffer.length then some
        (false, { s' with image := image }.updateDisk fun d => d.failed SyncDisk.eio)
      else some (true, { s' with image := image }.updateDisk fun d => d.completed buffer.length)

/-- `sync_disk_t::execute_command` -/
def executeCommand (d : SyncDisk) : Option (Bool × Devices) :=
  if d.count = 0#32 then some (true, s.updateDisk fun d => d.completed 0)
  else if d.cmd ≠ SyncDisk.cmdRead ∧ d.cmd ≠ SyncDisk.cmdWrite then
    some (false, s.updateDisk fun d => d.failed SyncDisk.einval)
  else if 0xffffffff < d.totalBytes then some
    (false, s.updateDisk fun d => d.failed SyncDisk.einval)
  else if d.cmd = SyncDisk.cmdRead then s.executeRead host store d
  else s.executeWrite host d

/-- The command register has been written. -/
def commandWritten (d : SyncDisk) : Option (Bool × Devices) :=
  if d.cmd = SyncDisk.cmdNone then
    some (true, s.updateDisk fun _ => { d with status := SyncDisk.statusIdle, errorCode := 0#32 })
  else (s.updateDisk fun _ => d).executeCommand host store d

/-- A store to the command register. -/
def storeCmd (d : SyncDisk) (addr : Reg) (bytes : List (BitVec 8)) : Option (Bool × Devices) :=
  if 4 < bytes.length then none
  else s.commandWritten host store { d with cmd := SyncDisk.rewrite d.cmd addr bytes }

/-- `sync_disk_t::store` -/
def diskStore (d : SyncDisk) (addr : Reg) (bytes : List (BitVec 8)) : Option (Bool × Devices) :=
  if SyncDisk.outside addr (BitVec.ofNat 64 bytes.length) then some (false, s)
  else if SyncDisk.regOf addr = 0x00#64 then s.storeCmd host store d addr bytes
  else
    match d.write addr bytes with
    | none => some (false, s)
    | some d' => if 4 < bytes.length then none else some (true, s.updateDisk fun _ => d')

/-! ### Stores -/

/-- The store of one device, at an offset in it. -/
def deviceStore (dev : Device) (offset : Reg) (bytes : List (BitVec 8)) : Option (Bool × Devices) :=
  match dev with
  | .debug => (s.debug.store offset.toNat bytes).map fun r => (r.1, { s with debug := r.2 })
  | .rom => some (false, s)
  | .clint => s.afterClint (s.clint.store offset bytes)
  | .plic =>
    let (ok, p) := s.plic.store offset bytes
    some (ok, s.withPlic p)
  | .uart =>
    let (ok, u) := s.uart.store offset bytes
    some (ok, s.withUart u (s.uart.storeDrives offset bytes.length))
  | .disk =>
    match s.disk with
    | none => some (false, s)
    | some d => s.diskStore host store d offset bytes
  | .vga =>
    let (ok, v) := s.vga.store offset bytes
    some (ok, { s with vga := v })
  | .flash =>
    let (ok, m) := s.flash.store offset bytes
    some (ok, { s with flash := m })
  | .dram =>
    let (ok, m) := s.dram.store offset bytes
    some (ok, { s with dram := m })

/-- `bus_t::store`, where `store` is what the disk uses the bus for in turn. -/
def storeWith (s : Devices) (addr : Reg) (bytes : List (BitVec 8)) : Option (Bool × Devices) :=
  match s.findDevice addr with
  | none => some (false, s)
  | some (base, dev) => s.deviceStore host store dev (addr - BitVec.ofNat 64 base) bytes

end

/-- `bus_t::store`, where commands of the disk may start each other to a given depth. -/
def storeDeep (host : Host) : Nat → BusStore
  | 0 => fun _ _ _ => none
  | n + 1 => storeWith host (storeDeep host n)

/-- `bus_t::store`. A command of the disk does not start another one (`storeDeep_eq`), so this is
deep enough. -/
def busStore (host : Host) : BusStore :=
  storeDeep host 2

/-! ### The simulator -/

/-- `MAX_PADDR_BITS` -/
def maxPaddrBits : Nat := 56

/-- `paddr_ok` -/
def paddrOk (addr : Reg) : Bool :=
  addr >>> maxPaddrBits == 0#64

/-- Is an access refused before it gets to the bus? -/
def refused (paddr len : Reg) : Bool :=
  decide (paddr + len < paddr) || !paddrOk (paddr + len - 1#64)

/-- `sim_t::mmio_load` -/
def mmioLoad (paddr : Reg) (len : Nat) : Option (LoadResult × Devices) :=
  if refused paddr (BitVec.ofNat 64 len) then some (none, s) else s.busLoad paddr len

/-- `sim_t::mmio_store` -/
def mmioStore (host : Host) (paddr : Reg) (bytes : List (BitVec 8)) : Option (Bool × Devices) :=
  if refused paddr (BitVec.ofNat 64 bytes.length) then some (false, s)
    else busStore host s paddr bytes

end Devices

end Nnemu

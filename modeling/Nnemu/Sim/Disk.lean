import Nnemu.Sim.Device

/-!
# The registers of the disk

`sync_disk_t`, but for the command register: ten registers of 4 bytes, of which eight can be
written. The register is selected by the address of the first byte alone, and it is asserted that
the access fits one register.
-/

namespace Nnemu

/-- `SYNC_DISK_SIZE` -/
def syncDiskSize : Reg := 0x1000#64

/-- `sync_disk_t`, less the descriptor of the image. -/
structure SyncDisk where
  cmd : BitVec 32
  status : BitVec 32
  count : BitVec 32
  reserved : BitVec 32
  lbaLow : BitVec 32
  lbaHigh : BitVec 32
  guestPaLow : BitVec 32
  guestPaHigh : BitVec 32
  errorCode : BitVec 32
  lastResultBytes : BitVec 32

namespace SyncDisk

/-! ### Values -/

/-- `CMD_NONE` -/
def cmdNone : BitVec 32 := 0#32
/-- `CMD_READ` -/
def cmdRead : BitVec 32 := 1#32
/-- `CMD_WRITE` -/
def cmdWrite : BitVec 32 := 2#32

/-- `STATUS_IDLE` -/
def statusIdle : BitVec 32 := 0#32
/-- `STATUS_DONE` -/
def statusDone : BitVec 32 := 1#32
/-- `STATUS_ERROR` -/
def statusError : BitVec 32 := 2#32

/-- `EIO` -/
def eio : BitVec 32 := 5#32
/-- `EFAULT` -/
def efault : BitVec 32 := 14#32
/-- `EINVAL` -/
def einval : BitVec 32 := 22#32

/-- `kSectorSize` -/
def sectorSize : Nat := 512

/-- The constructor. -/
def new : SyncDisk :=
  ⟨cmdNone, statusIdle, 0#32, 0#32, 0#32, 0#32, 0#32, 0#32, 0#32, 0#32⟩

variable (d : SyncDisk)

/-- `lba` -/
def lba : Reg :=
  d.lbaHigh ++ d.lbaLow

/-- `guest_pa` -/
def guestPa : Reg :=
  d.guestPaHigh ++ d.guestPaLow

/-- `total_bytes`, which does not wrap. -/
def totalBytes : Nat :=
  d.count.toNat * sectorSize

/-- `offset`: the product is taken modulo 2^64, and its first bit is the sign. -/
def offset : Int :=
  (d.lba * BitVec.ofNat 64 sectorSize).toInt

/-- A command has failed. -/
def failed (error : BitVec 32) : SyncDisk :=
  { d with status := statusError, errorCode := error, lastResultBytes := 0#32, cmd := cmdNone }

/-- A command has succeeded. -/
def completed (bytes : Nat) : SyncDisk :=
  { d with status := statusDone, errorCode := 0#32, lastResultBytes :=
    BitVec.ofNat 32 bytes, cmd := cmdNone }

/-! ### Accesses -/

/-- Is an access outside the window? -/
def outside (addr len : Reg) : Bool :=
  decide (addr + len < addr) || decide (addr + len > syncDiskSize)

/-- The register that an address selects. -/
def regOf (addr : Reg) : Reg :=
  addr &&& ~~~3#64

/-- The registers that can be read. -/
def readable (reg : Reg) : Option (BitVec 32) :=
  if reg = 0x00#64 then some d.cmd
  else if reg = 0x04#64 then some d.status
  else if reg = 0x08#64 then some d.count
  else if reg = 0x0c#64 then some d.reserved
  else if reg = 0x10#64 then some d.lbaLow
  else if reg = 0x14#64 then some d.lbaHigh
  else if reg = 0x18#64 then some d.guestPaLow
  else if reg = 0x1c#64 then some d.guestPaHigh
  else if reg = 0x20#64 then some d.errorCode
  else if reg = 0x24#64 then some d.lastResultBytes
  else none

/-- `sync_disk_t::load`. There is no result when an assertion fails. -/
def load (addr : Reg) (len : Nat) : Option LoadResult :=
  if outside addr (BitVec.ofNat 64 len) then some none
  else
    match d.readable (regOf addr) with
    | none => some none
    | some word =>
      -- `assert(len <= sizeof(T))`
      if 4 < len then none else some (some (readLittleEndianReg 4 (word.setWidth 64) addr len))

/-- A register of which some bytes are written. -/
def rewrite (word : BitVec 32) (addr : Reg) (bytes : List (BitVec 8)) : BitVec 32 :=
  (writeLittleEndianReg 4 (word.setWidth 64) addr bytes).setWidth 32

/-- The registers that can be written, but for the command register. -/
def write (addr : Reg) (bytes : List (BitVec 8)) : Option SyncDisk :=
  let reg := regOf addr
  if reg = 0x04#64 then
    let status := rewrite d.status addr bytes
    some { d with status := status, errorCode := if status = statusIdle then 0#32 else d.errorCode }
  else if reg = 0x08#64 then some { d with count := rewrite d.count addr bytes }
  else if reg = 0x0c#64 then some { d with reserved := rewrite d.reserved addr bytes }
  else if reg = 0x10#64 then some { d with lbaLow := rewrite d.lbaLow addr bytes }
  else if reg = 0x14#64 then some { d with lbaHigh := rewrite d.lbaHigh addr bytes }
  else if reg = 0x18#64 then some { d with guestPaLow := rewrite d.guestPaLow addr bytes }
  else if reg = 0x1c#64 then some { d with guestPaHigh := rewrite d.guestPaHigh addr bytes }
  else none

end SyncDisk

end Nnemu

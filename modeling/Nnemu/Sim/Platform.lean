import Nnemu.Hart.Machine
import Nnemu.Sim.Devices
import Nnemu.Sim.Dmi

/-!
# The platform

The devices that `sim_t` makes, with the sizes of the platform.
-/

namespace Nnemu

namespace Devices

/-- `DRAM_SIZE`, and `FLASH_SIZE` -/
def ramSize : Reg := 0x10000000#64

/-- The sizes of the platform. The boot ROM ends below the next device. -/
structure OnPlatform (s : Devices) : Prop where
  rom : s.rom.length ≤ clintBase - romBase
  /-- `NS16550_REG_IO_WIDTH` -/
  uart : s.uart.regIoWidth = 1
  flash : s.flash.sz = ramSize
  dram : s.dram.sz = ramSize

/-- How far the window of a device reaches: the sizes of the platform, of the boot ROM and of the
memories. -/
def windowSize (s : Devices) : Device → Nat
  -- `DEBUG_END`
  | .debug => 0x1000
  | .rom => s.rom.length
  | .clint => 0x10000
  | .plic => 0x400000
  | .uart => 0x1000
  | .disk => 0x1000
  | .vga => 0x200000
  | .flash => s.flash.sz.toNat
  | .dram => s.dram.sz.toNat

/-- An address lies in the window of a device. -/
def Maps (s : Devices) (addr : Reg) (dev : Device) : Prop :=
  ∃ base, (base, dev) ∈ s.map ∧ base ≤ addr.toNat ∧ addr.toNat < base + s.windowSize dev

/-- A memory that has not been used. -/
def freshRam : Mem :=
  ⟨fun _ => none, ramSize, rfl⟩

/-- `sim_t`, when the devices have been made. There is a disk when there is an image. -/
def new (debug : DebugModule) (rom : List (BitVec 8)) (clint : Clint) (plic : Plic)
    (image : Option Image)
    (h : clint.aborted = false) : Devices where
  debug := debug
  rom := rom
  clint := clint
  plic := plic
  -- `NS16550_REG_SHIFT` and `NS16550_REG_IO_WIDTH`
  uart := Uart.new 0 1 0#8
  disk := image.map fun _ => SyncDisk.new
  image := image.getD ⟨[], by decide⟩
  -- `VGA_WIDTH`, `VGA_HEIGHT` and four bytes each
  vga := ⟨fun _ => 0#8, BitVec.ofNat 64 (640 * 480 * 4), by decide⟩
  flash := freshRam
  dram := freshRam
  running := h

/-- The devices of a simulator with one hart. -/
def ofOneHart (image : Option Image) : Devices :=
  let hart := Hart.init rv64h false
  new (DebugModule.initial DebugModule.oneHart 0#32) []
    ⟨none, 0, 0#64, fun _ => 0#64, fun id => if id = 0 then some hart else none, false⟩
    (Plic.init 32 [(0, true), (0, false)] fun _ => hart) image rfl

theorem onPlatform_ofOneHart (image : Option Image) : OnPlatform (ofOneHart image) :=
  ⟨Nat.zero_le _, rfl, rfl, rfl⟩

end Devices

end Nnemu

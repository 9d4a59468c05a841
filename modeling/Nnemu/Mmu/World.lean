import Mathlib.Logic.Function.Basic
import Nnemu.Encoding
import Nnemu.Lib.Bytes
import Nnemu.Lib.Exec
import Nnemu.Trigger.Basic

/-!
# Memory, devices and traps

What a memory access reaches outside the hart. RAM is a map from physical addresses to bytes, and
the host pointer `addr_to_mem` returns for a physical address is that address. Everything else is a
device behind the bus of `sim_t`, which is a parameter: `Bus δ` says what loads and stores do to
devices in a state of type `δ`.

A `World` also carries two sets the code does not have, which only statements look at: the bytes of
RAM changed since the TLB was last flushed by anything but the page-table walker, and the bytes
changed at all since the instruction cache was last flushed.

Page-table entries are loaded and stored through RAM or through the device window of the bus, as
`pte_load` and `pte_store` do it, and a device may refuse. The two sets make statements about stale
TLBs and stale instruction caches possible; no function of the source reads them.
-/

namespace Nnemu

open Bytes

/-! ### Traps -/

/-- `trap_t` with the values its subclasses report; a trap without one reports 0. -/
structure Trap where
  cause : Reg
  gva : Bool := false
  tval : Reg := 0#64
  tval2 : Reg := 0#64
  tinst : Reg := 0#64
deriving DecidableEq

/-- What a function of the simulator can throw, and the `abort()` that ends the program. -/
inductive Stop where
  | trap (t : Trap)
  | matched (operation : Trigger.Operation) (address : Reg) (action : Trigger.Action)
  | abort
deriving DecidableEq

/-- What a walk of page tables throws: it does not look at triggers. -/
def Stop.Unmatched : Stop → Prop
  | .matched _ _ _ => False
  | _ => True

/-- The three causes of one kind of memory trap, by access type. -/
def causeOf (fetch load store : Reg) : AccessType → Reg
  | .fetch => fetch
  | .load => load
  | .store => store

/-- `trap_instruction_access_fault`, `trap_load_access_fault`, `trap_store_access_fault` -/
def accessFault (type : AccessType) (virt : Bool) (addr : Reg) : Trap :=
  ⟨causeOf 1#64 5#64 7#64 type, virt, addr, 0#64, 0#64⟩

/-- `trap_instruction_page_fault`, `trap_load_page_fault`, `trap_store_page_fault` -/
def pageFault (type : AccessType) (virt : Bool) (addr : Reg) : Trap :=
  ⟨causeOf 12#64 13#64 15#64 type, virt, addr, 0#64, 0#64⟩

/-- `trap_instruction_guest_page_fault`, `trap_load_guest_page_fault`,
`trap_store_guest_page_fault` -/
def guestPageFault (type : AccessType) (gva gpa : Reg) : Trap :=
  ⟨causeOf 20#64 21#64 23#64 type, true, gva, gpa >>> 2, 0#64⟩

/-! ### Pages -/

/-- `PGSHIFT` -/
def pgShift : Nat := 12

/-- `PGSIZE - 1` -/
def pageMask : Reg := 0xfff#64

/-! ### The world -/

/-- RAM and devices, with the two sets of changed bytes. -/
structure World (δ : Type) where
  mem : Reg → BitVec 8
  dev : δ
  /-- RAM changed since the last `flush_tlb`, other than by the walker's updates of A and D bits -/
  ptDirty : Reg → Bool
  /-- RAM changed since the last `flush_icache` -/
  codeDirty : Reg → Bool

/-- The parameter behind `simif_t`: where RAM is, and what devices do. `mem_t` consists of whole
pages, so RAM is a set of page numbers. A device store may write RAM, as a disk does. -/
structure Bus (δ : Type) where
  /-- is the page with this number RAM? -/
  ramPage : Reg → Bool
  /-- `sim_t::mmio_load`: the bytes, or none when the access fails -/
  load : δ → Reg → Nat → Option (List (BitVec 8)) × δ
  /-- `sim_t::mmio_store`: whether the access succeeds -/
  store : (Reg → BitVec 8) → δ → Reg → List (BitVec 8) → Bool × (Reg → BitVec 8) × δ

variable {δ : Type}

/-- `addr_to_mem(paddr) != NULL` -/
def Bus.isMem (bus : Bus δ) (paddr : Reg) : Bool :=
  bus.ramPage (paddr >>> pgShift)

namespace World

/-- Replace RAM, recording what changed. `walker` marks the walker's own updates. -/
def setMem (w : World δ) (walker : Bool) (mem : Reg → BitVec 8) : World δ :=
  { w with
    mem := mem
    ptDirty := fun a => w.ptDirty a || (!walker && mem a != w.mem a)
    codeDirty := fun a => w.codeDirty a || mem a != w.mem a }

/-- `n` bytes of RAM as a value. -/
def read (w : World δ) (a : Reg) (n : Nat) : Reg :=
  fromBytes (readBytes w.mem a n)

end World

/-- A machine whose whole address space is RAM. -/
def ramBus : Bus Unit where
  ramPage := fun _ => true
  load := fun _ _ _ => (none, ())
  store := fun mem _ _ _ => (false, mem, ())

/-- A RAM of zeros with the given doublewords at the given addresses, which are multiples of 8. -/
def World.ofDoublewords (l : List (Reg × Reg)) : World Unit where
  mem := fun a =>
    match l.find? fun p => p.1 == a &&& ~~~7#64 with
    | some p => (p.2 >>> (8 * (a &&& 7#64).toNat)).setWidth 8
    | none => 0#8
  dev := ()
  ptDirty := fun _ => false
  codeDirty := fun _ => false

/-! ### Device accesses -/

/-- `mmu_t::mmio_ok`: the debug region `DEBUG_START` to `DEBUG_END` needs debug mode. -/
def mmioOk (debugMode : Bool) (paddr : Reg) : Bool :=
  !(paddr ≤ 0xfff#64 && !debugMode)

/-- Is a device access of this size passed on whole? -/
def mmioWhole (paddr : Reg) (len : Nat) : Bool :=
  (BitVec.ofNat 64 len &&& (BitVec.ofNat 64 len - 1#64) == 0#64) &&
    (paddr &&& (BitVec.ofNat 64 len - 1#64) == 0#64)

/-- The loads of single bytes that `mmu_t::mmio` makes of a misaligned access. -/
def mmioLoadBytes (bus : Bus δ) (debugMode : Bool) (dev : δ) (paddr : Reg) :
    Nat → Option (List (BitVec 8)) × δ
  | 0 => (some [], dev)
  | n + 1 =>
    if mmioOk debugMode paddr then
      match bus.load dev paddr 1 with
      | (none, dev') => (none, dev')
      | (some b, dev') =>
        match mmioLoadBytes bus debugMode dev' (paddr + 1#64) n with
        | (none, dev'') => (none, dev'')
        | (some bs, dev'') => (some (b ++ bs), dev'')
    else (none, dev)

/-- `mmu_t::mmio_load`, and `mmio_fetch` of an aligned halfword. -/
def mmioLoad (bus : Bus δ) (debugMode : Bool) (dev : δ) (paddr : Reg) (len : Nat) :
    Option (List (BitVec 8)) × δ :=
  if mmioWhole paddr len then
    if mmioOk debugMode paddr then bus.load dev paddr len else (none, dev)
  else mmioLoadBytes bus debugMode dev paddr len

/-- The stores of single bytes that `mmu_t::mmio` makes of a misaligned access. -/
def mmioStoreBytes (bus : Bus δ) (debugMode : Bool) (mem : Reg → BitVec 8) (dev : δ) (paddr : Reg) :
    List (BitVec 8) → Bool × (Reg → BitVec 8) × δ
  | [] => (true, mem, dev)
  | b :: bs =>
    if mmioOk debugMode paddr then
      match bus.store mem dev paddr [b] with
      | (false, mem', dev') => (false, mem', dev')
      | (true, mem', dev') => mmioStoreBytes bus debugMode mem' dev' (paddr + 1#64) bs
    else (false, mem, dev)

/-- `mmu_t::mmio_store` -/
def mmioStore (bus : Bus δ) (debugMode : Bool) (mem : Reg → BitVec 8) (dev : δ) (paddr : Reg)
    (bytes : List (BitVec 8)) : Bool × (Reg → BitVec 8) × δ :=
  if mmioWhole paddr bytes.length then
    if mmioOk debugMode paddr then bus.store mem dev paddr bytes else (false, mem, dev)
  else mmioStoreBytes bus debugMode mem dev paddr bytes

end Nnemu

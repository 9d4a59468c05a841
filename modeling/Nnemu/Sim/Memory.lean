import Mathlib.Logic.Function.Basic
import Nnemu.Sim.Device

/-!
# Sparse memory

`mem_t`: a memory of a given size, in pages of 4 KiB that are allocated when they are first used.
Accesses through the bus are checked against the size and split at page boundaries; `contents` hands
out pointers into pages.

Addresses are 64 bits and the size of the memory a number, so the checks are made without overflow.
`MemOp` has the ways in which the memory is used, loads, stores, dumps and writes through a pointer
into a page, and a run is a list of them.
-/

namespace Nnemu

open Bytes

/-- A page, by the offset in it. -/
abbrev Page := BitVec 12 → BitVec 8

/-- What `calloc` returns. -/
def Page.zero : Page := fun _ => 0#8

/-- `memcpy` into a page, at an offset. -/
def Page.write (p : Page) (pgoff : BitVec 12) (bytes : List (BitVec 8)) : Page :=
  fun off => (bytes[(off - pgoff).toNat]?).getD (p off)

/-- `memcpy` out of a page, at an offset. -/
def Page.read (p : Page) (pgoff : BitVec 12) (n : Nat) : List (BitVec 8) :=
  (List.range n).map fun i => p (pgoff + BitVec.ofNat 12 i)

/-- `mem_t` -/
structure Mem where
  /-- `sparse_memory_map` -/
  pages : Reg → Option Page
  sz : Reg
  whole : sz.toNat % 4096 = 0

namespace Mem

/-- The constructor. -/
def new (size : Reg) : Except String Mem :=
  if h : size ≠ 0#64 ∧ size.toNat % 4096 = 0 then .ok ⟨fun _ => none, size, h.2⟩
  else .error "memory size must be a positive multiple of 4 KiB"

variable (m : Mem)

/-- The page number of an address. -/
def ppn (addr : Reg) : Reg :=
  addr >>> 12

/-- The offset of an address in its page. -/
def pgoff (addr : Reg) : BitVec 12 :=
  addr.setWidth 12

/-- The page that `contents` finds, or allocates. -/
def page (addr : Reg) : Page :=
  (m.pages (ppn addr)).getD Page.zero

/-- What `contents` leaves behind: the page is there. -/
def touch (addr : Reg) : Mem :=
  { m with pages := Function.update m.pages (ppn addr) (some (m.page addr)) }

/-- `memcpy` from the pointer that `contents` returns. -/
def copyOut (addr : Reg) (n : Nat) : List (BitVec 8) × Mem :=
  ((m.page addr).read (pgoff addr) n, m.touch addr)

/-- `memcpy` to the pointer that `contents` returns. -/
def copyIn (addr : Reg) (bytes : List (BitVec 8)) : Mem :=
  { m with
    pages := Function.update m.pages (ppn addr) (some ((m.page addr).write (pgoff addr) bytes)) }

/-- `std::min(PGSIZE - (addr % PGSIZE), len)` -/
def chunk (addr : Reg) (len : Nat) : Nat :=
  min (4096 - addr.toNat % 4096) len

theorem chunk_pos (addr : Reg) {len : Nat} (h : len ≠ 0) : 0 < chunk addr len := by
  rw [chunk]
  omega

/-- The loop of `load_store`, for a load. -/
def loadLoop (m : Mem) (addr : Reg) (len : Nat) : List (BitVec 8) × Mem :=
  if len = 0 then ([], m)
  else
    let n := chunk addr len
    let rest := loadLoop (m.copyOut addr n).2 (addr + BitVec.ofNat 64 n) (len - n)
    ((m.copyOut addr n).1 ++ rest.1, rest.2)
termination_by len
decreasing_by
  have := chunk_pos addr ‹_›
  omega

/-- The loop of `load_store`, for a store. -/
def storeLoop (m : Mem) (addr : Reg) (bytes : List (BitVec 8)) : Mem :=
  if bytes.length = 0 then m
  else
    let n := chunk addr bytes.length
    storeLoop (m.copyIn addr (bytes.take n)) (addr + BitVec.ofNat 64 n) (bytes.drop n)
termination_by bytes.length
decreasing_by
  have := chunk_pos addr ‹_›
  rw [List.length_drop]
  omega

/-- The bounds check of `load_store`. -/
def rejects (addr len : Reg) : Bool :=
  decide (addr + len < addr) || decide (addr + len > m.sz)

/-- `mem_t::load` -/
def load (addr len : Reg) : LoadResult × Mem :=
  if m.rejects addr len then (none, m)
  else (some (loadLoop m addr len.toNat).1, (loadLoop m addr len.toNat).2)

/-- `mem_t::store` -/
def store (addr : Reg) (bytes : List (BitVec 8)) : Bool × Mem :=
  if m.rejects addr (BitVec.ofNat 64 bytes.length) then (false, m)
  else (true, storeLoop m addr bytes)

theorem toNat_next (i : Reg) : (i + 4096#64).toNat = (i.toNat + 4096) % 2 ^ 64 :=
  BitVec.toNat_add i 4096#64

/-- What `dump` writes for a page. -/
def dumpPage (i : Reg) : List (BitVec 8) :=
  match m.pages (ppn i) with
  | none => List.replicate 4096 0#8
  | some p => p.read 0#12 4096

/-- The addresses from `i` on of which the pages are still to be dumped. -/
def dumpLoop (i : Reg) (hi : i.toNat % 4096 = 0) : List (BitVec 8) :=
  if h : i < m.sz then
    m.dumpPage i ++ dumpLoop (i + 4096#64) (by rw [toNat_next]; omega)
  else []
termination_by m.sz.toNat - i.toNat
decreasing_by
  -- both are multiples of the page size, so the sum does not wrap
  have hw := m.whole
  have hlt : i.toNat < m.sz.toNat := h
  have _ := m.sz.isLt
  rw [toNat_next]
  omega

/-- `mem_t::dump` -/
def dump : List (BitVec 8) :=
  m.dumpLoop 0#64 rfl

end Mem

/-! ### Runs -/

/-- Bytes that a `size_t` can count. -/
structure Buffer where
  bytes : List (BitVec 8)
  counted : bytes.length < 2 ^ 64

/-- Bytes to be written through the pointer that `contents(addr)` returns, which is good up to the
end of the page. -/
structure Poke where
  addr : Reg
  bytes : List (BitVec 8)
  inPage : addr.toNat % 4096 + bytes.length ≤ 4096

/-- What is done to a memory. -/
inductive MemOp where
  | load (addr len : Reg)
  | store (addr : Reg) (buffer : Buffer)
  | poke (p : Poke)

/-- One operation: what it returns, and the memory afterwards. -/
def Mem.act (m : Mem) : MemOp → LoadResult × Mem
  | .load addr len => m.load addr len
  | .store addr buffer =>
    let (ok, m) := m.store addr buffer.bytes
    (if ok then some [] else none, m)
  | .poke p => (some [], m.copyIn p.addr p.bytes)

/-- The memory after one operation. -/
def Mem.step (m : Mem) (op : MemOp) : Mem :=
  (m.act op).2

end Nnemu

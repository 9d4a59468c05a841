import Nnemu.Insn.Extended
import Nnemu.Mmu.Runs

/-!
# The processor of the built instructions

The loop and the handlers leave memory open: a `Core` has a fetch, and handlers have an `Mmu`. Here
both are those of the source. A processor has its MMU, with the TLB, the reservation and the decoder
(`Periphery`), and what it reaches through it: RAM, and the devices of a bus. `Setup.hartCore` is
the core of such a processor, and what is proved of the loop is meant of this core.

Two things happen between an access and the hart. The TLB is flushed at the latest when it is used
next, because the source flushes it wherever the hart says so. And devices drive the hart while they
are accessed: the CLINT sets its time and its interrupt lines, the PLIC its external interrupts.

A `Setup` is what does not change: the configuration of the hart, the bus, and what the devices do
to the hart when an access has changed them. `HartCpu` is the state, with the MMU of the source in
the place the loop leaves open, and `settle` is what happens at the end of an access.
-/

namespace Nnemu

open Bytes Trigger

/-- What a device does to the hart. -/
inductive Signal where
  /-- `time->sync(mtime)` -/
  | time (mtime : Reg)
  /-- an interrupt line -/
  | pin (p : Pin) (level : Bool)

/-- The hart behind a signal. -/
def Hart.signal (h : Hart) : Signal → Hart
  | .time mtime => h.timeSync mtime
  | .pin p level => h.writeWithMask .mip p.mask (if level then p.mask else 0#64)

/-- A processor and its board. -/
structure Setup (δ : Type) where
  cfg : Config
  /-- `debug || log_commits_enabled || histogram_enabled` -/
  logged : Bool
  /-- `cfg_t::misaligned` -/
  misaligned : Bool
  bus : Bus δ
  /-- what the devices do to the hart when an access brings them from one state to another -/
  signals : δ → δ → List Signal

/-- `mmu_t` without the instruction cache, the decoder, and what the MMU reaches. -/
structure Periphery (δ : Type) where
  tlb : Tlb
  /-- how often the hart had asked for a flush of the TLB when it was flushed last -/
  flushes : Nat
  world : World δ
  /-- `load_reservation_address` -/
  reservation : Reg
  decoder : Decoder

namespace Periphery

variable {δ : Type}

/-- `flush_tlb`, where the hart has asked for it, and `trigger_updated`. That sets the flags for
the triggers, which change with the triggers only. -/
def catchUp (u : Periphery δ) (h : Hart) : Periphery δ :=
  if u.flushes = h.tlbFlushes then u
  else
    { u with
      tlb := u.tlb.flush.triggerUpdated h.triggers
      flushes := h.tlbFlushes
      world := u.world.afterFlush }

end Periphery

namespace Setup

variable {δ α : Type} (p : Setup δ)

/-- The processors of the built instructions. -/
abbrev HartCpu (δ : Type) : Type :=
  Cpu (Periphery δ) InsnFetch

/-! ### Accesses -/

/-- A processor as the programs of the MMU see it. -/
def reserving (c : HartCpu δ) : Reserving δ InsnFetch :=
  let u := c.rest.catchUp c.hart
  { hart := (c.withRest ⟨fun _ => 0#64, u.tlb⟩, u.world), reservation :=
    u.reservation, note := none }

/-- The processor behind such a program. -/
def settle (c : HartCpu δ) (s : Reserving δ InsnFetch) : HartCpu δ :=
  let c' := s.hart.1.withRest
    { c.rest with
      tlb := s.hart.1.rest.tlb
      flushes := c.hart.tlbFlushes
      world := s.hart.2
      reservation := s.reservation }
  (p.signals c.rest.world.dev s.hart.2.dev).foldl (fun c signal => c.withHart (·.signal signal)) c'

/-- A program of the MMU. Where it calls `abort()` the program is over, whatever is thrown. -/
def access (x : ReserveM δ InsnFetch α) : CpuM (Periphery δ) InsnFetch α := fun c =>
  match x (reserving c) with
  | .ok a s => .ok a (p.settle c s)
  | .error (.trap t) s => .error (.trap t) (p.settle c s)
  | .error (.matched operation address action) s =>
    .error (.matched ⟨operation, address, action⟩) (p.settle c s)
  | .error .abort s => .error (.trap { cause := 0#64 }) ((p.settle c s).withHart Hart.abort)

/-- The size of an LR or SC. -/
def lrSize (n : Nat) : LrSize :=
  if n = 64 then .doubleword else .word

/-- `mmu_t`, as handlers use it. -/
def mmu : Mmu (Periphery δ) InsnFetch where
  load n addr := do
    let bytes ← p.access (HartMmu.aside (HartMmu.loadAny p.cfg p.bus p.misaligned addr (n / 8)))
    pure ((fromBytes bytes).setWidth n)
  store n addr val :=
    p.access (HartMmu.aside
      (HartMmu.store p.cfg p.bus p.misaligned addr (n / 8) (val.setWidth 64)))
  checkStore n addr :=
    p.access (HartMmu.aside
      (HartMmu.storeSlowPath p.cfg p.bus p.misaligned addr (n / 8) [] false true))
  loadReserved n addr := do
    let bytes ← p.access (HartMmu.loadReserved p.cfg p.bus p.misaligned addr (lrSize n))
    pure ((fromBytes bytes).setWidth n)
  checkLoadReservation n addr := do
    let found ← p.access (HartMmu.checkLoadReservation p.cfg p.bus p.misaligned addr (lrSize n))
    pure found.2
  yieldLoadReservation :=
    modify fun c => { c with rest := { c.rest with reservation := noReservation } }

/-! ### Fetches -/

/-- A parcel of an instruction. -/
def parcel (addr : Reg) : ReserveM δ InsnFetch Reg := do
  let bytes ← HartMmu.aside (HartMmu.fetch p.cfg p.bus addr)
  pure (fromBytes bytes)

/-- The word of an instruction in `refill_icache`, whose last parcels are read first. -/
def insnBits (addr : Reg) : ReserveM δ InsnFetch Reg := do
  let insn ← p.parcel addr
  if Insn.length insn = 4#64 then
    let p₁ ← p.parcel (addr + 2#64)
    pure (insn ||| (p₁ <<< 16))
  else if Insn.length insn = 2#64 then pure insn
  else if Insn.length insn = 6#64 then
    let p₂ ← p.parcel (addr + 4#64)
    let p₁ ← p.parcel (addr + 2#64)
    pure (insn ||| (p₂ <<< 32) ||| (p₁ <<< 16))
  else
    let p₃ ← p.parcel (addr + 6#64)
    let p₂ ← p.parcel (addr + 4#64)
    let p₁ ← p.parcel (addr + 2#64)
    pure (insn ||| (p₃ <<< 48) ||| (p₂ <<< 32) ||| (p₁ <<< 16))

/-- `proc->decode_insn(insn)` -/
def decode (bits : Reg) : CpuM (Periphery δ) InsnFetch InsnFetch := fun c =>
  match c.rest.decoder.decodeInsn ⟨c.hart.extensionEnabled .e, p.logged⟩ bits with
  | some (handler, d) => .ok ⟨handler, bits⟩ { c with rest := { c.rest with decoder := d } }
  -- read behind the list, which no history comes to
  | none => .error (.trap { cause := 0#64 }) (c.withHart Hart.abort)

/-- `refill_icache` behind its first test -/
def fetch (addr : Reg) : CpuM (Periphery δ) InsnFetch InsnFetch := do
  let bits ← p.access (p.insnBits addr)
  p.decode bits

/-! ### The core -/

/-- **The processor of the source**: its fetch, its MMU and its handlers. -/
def hartCore : Core (Machine 64 (Periphery δ)) InsnFetch :=
  insnCore p.cfg p.logged p.mmu p.fetch fun fetched => fetched.func.written p.cfg fetched.insn

end Setup

end Nnemu

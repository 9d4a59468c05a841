import Nnemu.Mmu.Reserved

/-!
# Fetches, and loads at any address

`translate_insn_addr` with `fetch_slow_path`, for one parcel of an instruction, and `mmu_t::load`
for addresses of any alignment. With `mmu_t::store` and `mmu_t::amo` these are the accesses without
flags that go through the TLB.
-/

namespace Nnemu

open Bytes Trigger

namespace Tlb

variable (t : Tlb)

/-- `tlb_insn_tag[vpn % TLB_ENTRIES] == vpn` -/
def hitFetch (addr : Reg) : Bool :=
  t.insnTag (index addr) == vpn addr

/-- `tlb_insn_tag[vpn % TLB_ENTRIES] == (vpn | TLB_CHECK_TRIGGERS)` -/
def hitFetchChecked (addr : Reg) : Bool :=
  t.insnTag (index addr) == vpn addr ||| tlbCheckTriggers

end Tlb

namespace HartMmu

variable {δ ι : Type} (cfg : Config) (bus : Bus δ)

/-! ### Fetches -/

/-- The TLB entry is filled in after a walk. -/
def refillFetch (addr paddr : Reg) : LoadM δ ι Unit := fun s =>
  match s.1.rest.tlb.refill cfg s.1.hart addr paddr .fetch with
  | some t => .ok () ({ s.1 with rest := { s.1.rest with tlb := t } }, s.2)
  | none => .error .abort s

/-- `mmio_fetch` into `fetch_temp` -/
def deviceFetch (addr paddr : Reg) : LoadM δ ι (List (BitVec 8)) := fun s =>
  if mmioOk s.1.hart.debugMode paddr then
    match bus.load s.2.dev paddr 2 with
    | (some bytes, dev) => .ok bytes (s.1, { s.2 with dev := dev })
    | (none, dev) => .error (.trap (accessFault .fetch s.1.hart.v addr))
      (s.1, { s.2 with dev := dev })
  else .error (.trap (accessFault .fetch s.1.hart.v addr)) s

/-- `fetch_slow_path` between its checks for triggers, with the parcel that is found there. -/
def fetchIntrapage (addr : Reg) : LoadM δ ι (List (BitVec 8)) := do
  let (c, w) ← get
  if c.rest.tlb.hitFetchChecked addr then
    pure (readBytes w.mem (c.rest.tlb.data (Tlb.index addr) + addr) 2)
  else
    let paddr ← translateIn cfg bus addr 2 .fetch
    if bus.isMem paddr then
      let (_, w) ← get
      refillFetch cfg addr paddr
      pure (readBytes w.mem paddr 2)
    else deviceFetch bus addr paddr

/-- `fetch_slow_path` -/
def fetchSlowPath (addr : Reg) : LoadM δ ι (List (BitVec 8)) := do
  checkData cfg .execute addr none
  let bytes ← fetchIntrapage cfg bus addr
  checkData cfg .execute addr (some (fromBytes bytes))
  pure bytes

/-- `translate_insn_addr_to_host`, with the parcel that is read there. -/
def fetch (addr : Reg) : LoadM δ ι (List (BitVec 8)) := do
  let (c, w) ← get
  if c.rest.tlb.hitFetch addr then
    pure (readBytes w.mem (c.rest.tlb.data (Tlb.index addr) + addr) 2)
  else fetchSlowPath cfg bus addr

/-! ### Loads at any address -/

variable (misalignedEnabled : Bool)

/-- An access in one part, or in two when it goes over the end of a page. -/
def inParts (part : Reg → Nat → LoadM δ ι (List (BitVec 8))) (addr : Reg) (len : Nat) :
    LoadM δ ι (List (BitVec 8)) := do
  let lenPage0 := min len (4096 - addr.toNat % 4096)
  let bytes ← part addr lenPage0
  if lenPage0 ≠ len then
    let rest ← part (addr + BitVec.ofNat 64 lenPage0) (len - lenPage0)
    pure (bytes ++ rest)
  else pure bytes

/-- `load_slow_path`, over `load_slow_path_intrapage` -/
def loadSlowPathOver (part : Reg → Nat → LoadM δ ι (List (BitVec 8))) (addr : Reg) (len : Nat) :
    LoadM δ ι (List (BitVec 8)) := do
  checkLoad cfg addr none
  let bytes ←
    if isAligned addr len then part addr len
    else
      let (c, _) ← get
      if !misalignedEnabled then throw (.trap (loadAddressMisaligned c.hart.v addr))
      inParts part addr len
  checkLoad cfg addr (some (fromBytes bytes))
  pure bytes

/-- `mmu_t::load`, at an address of any alignment -/
def loadAny (addr : Reg) (len : Nat) : LoadM δ ι (List (BitVec 8)) := do
  let (c, w) ← get
  if isAligned addr len && c.rest.tlb.hit addr then
    pure (readBytes w.mem (c.rest.tlb.data (Tlb.index addr) + addr) len)
  else loadSlowPathOver cfg misalignedEnabled (loadSlowPathIntrapage cfg bus) addr len

/-- Loads at aligned addresses are those of `load`. -/
theorem loadAny_of_isAligned {addr : Reg} {len : Nat} (h : isAligned addr len = true) :
    loadAny (δ := δ) (ι := ι) cfg bus misalignedEnabled addr len = load cfg bus addr len := by
  rw [loadAny, loadSlowPathOver, if_pos h, h]
  rfl

end HartMmu

end Nnemu

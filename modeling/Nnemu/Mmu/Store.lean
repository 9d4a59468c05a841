import Nnemu.Mmu.Load

/-!
# Stores and atomic operations of a hart

`mmu_t::store` with the TLB in front of the walker, and `mmu_t::amo`, which is a store that is only
tried, a load and a store. The store that is tried asks for an aligned address, so the load and the
store of an atomic operation are aligned.
-/

namespace Nnemu

open Bytes Trigger

namespace Tlb

variable (t : Tlb)

/-- `tlb_store_tag[vpn % TLB_ENTRIES] == vpn` -/
def hitStore (addr : Reg) : Bool :=
  t.storeTag (index addr) == vpn addr

/-- `vpn == (tlb_store_tag[vpn % TLB_ENTRIES] & ~TLB_CHECK_TRIGGERS)` -/
def hitStoreChecked (addr : Reg) : Bool :=
  vpn addr == t.storeTag (index addr) &&& ~~~tlbCheckTriggers

end Tlb

/-- `trap_store_address_misaligned` -/
def storeAddressMisaligned (gva : Bool) (addr : Reg) : Trap :=
  { cause := 6#64, gva := gva, tval := addr }

namespace HartMmu

variable {δ ι : Type} (cfg : Config) (bus : Bus δ)

/-! ### Stores -/

/-- `check_triggers` -/
def checkStore (addr data : Reg) : LoadM δ ι Unit := fun s =>
  match checkTriggers cfg .store addr (some data) s.1 with
  | .ok _ c => .ok () (c, s.2)
  | .error (.matched m) c => .error (.matched m.operation m.address m.action) (c, s.2)
  -- it throws nothing else
  | .error _ c => .error .abort (c, s.2)

/-- The TLB entry is filled in after a walk. -/
def refillStore (addr paddr : Reg) : LoadM δ ι Unit := fun s =>
  match s.1.rest.tlb.refill cfg s.1.hart addr paddr .store with
  | some t => .ok () ({ s.1 with rest := { s.1.rest with tlb := t } }, s.2)
  | none => .error .abort s

/-- `memcpy` to RAM -/
def writeRam (paddr : Reg) (bytes : List (BitVec 8)) : LoadM δ ι Unit := fun s =>
  .ok () (s.1, s.2.setMem false (writeBytes s.2.mem paddr bytes))

/-- The store of a device. -/
def deviceStore (addr paddr : Reg) (bytes : List (BitVec 8)) : LoadM δ ι Unit := fun s =>
  match mmioStore bus s.1.hart.debugMode s.2.mem s.2.dev paddr bytes with
  | (true, mem, dev) => .ok () (s.1, { s.2.setMem false mem with dev := dev })
  | (false, mem, dev) =>
    .error (.trap (accessFault .store s.1.hart.v addr))
      (s.1, { s.2.setMem false mem with dev := dev })

/-- `translate` -/
def translateStore (addr : Reg) (len : Nat) : LoadM δ ι Reg := fun s =>
  let r := s.1.hart.regime cfg
  match translate (busMem bus r) r (s.1.hart.privilege cfg) addr len .store {} s.2 with
  | .ok paddr w => .ok paddr (s.1, w)
  | .error e w => .error e (s.1, w)

/-- `store_slow_path_intrapage` -/
def storeSlowPathIntrapage (addr : Reg) (len : Nat) (bytes : List (BitVec 8))
    (actuallyStore : Bool) :
    LoadM δ ι Unit := do
  let (c, _) ← get
  if c.rest.tlb.hitStoreChecked addr then
    if actuallyStore then writeRam (c.rest.tlb.data (Tlb.index addr) + addr) bytes
  else
    let paddr ← translateStore cfg bus addr len
    if actuallyStore then
      if bus.isMem paddr then
        writeRam paddr bytes
        refillStore cfg addr paddr
      else deviceStore bus addr paddr bytes

/-- `(addr & (len - 1)) == 0` -/
def isAligned (addr : Reg) (len : Nat) : Bool :=
  addr &&& (BitVec.ofNat 64 len - 1#64) == 0#64

variable (misalignedEnabled : Bool)

/-- `store_slow_path` -/
def storeSlowPath (addr : Reg) (len : Nat) (bytes : List (BitVec 8))
    (actuallyStore requireAlignment : Bool) :
    LoadM δ ι Unit := do
  if actuallyStore then checkStore cfg addr (fromBytes bytes)
  if !isAligned addr len then
    let (c, _) ← get
    if !misalignedEnabled then throw (.trap (storeAddressMisaligned c.hart.v addr))
    if requireAlignment then throw (.trap (accessFault .store c.hart.v addr))
    let lenPage0 := min len (4096 - addr.toNat % 4096)
    storeSlowPathIntrapage cfg bus addr lenPage0 (bytes.take lenPage0) actuallyStore
    if lenPage0 ≠ len then
      storeSlowPathIntrapage cfg bus (addr + BitVec.ofNat 64 lenPage0)
        (len - lenPage0) (bytes.drop lenPage0) actuallyStore
  else storeSlowPathIntrapage cfg bus addr len bytes actuallyStore

/-- `mmu_t::store` -/
def store (addr : Reg) (len : Nat) (val : Reg) : LoadM δ ι Unit := do
  let (c, _) ← get
  if isAligned addr len && c.rest.tlb.hitStore addr then
    writeRam (c.rest.tlb.data (Tlb.index addr) + addr) (toBytes val len)
  else storeSlowPath cfg bus misalignedEnabled addr len (toBytes val len) true false

/-! ### Atomic operations -/

/-- The store trap for a load trap. -/
def storeTrapOf (t : Trap) : Trap :=
  if t.cause = causeOf 0#64 4#64 6#64 .load then { t with cause := causeOf 0#64 4#64 6#64 .store }
  else if t.cause = causeOf 12#64 13#64 15#64 .load then
    { t with cause := causeOf 12#64 13#64 15#64 .store }
  else if t.cause = causeOf 1#64 5#64 7#64 .load then
    { t with cause := causeOf 1#64 5#64 7#64 .store }
  else if t.cause = causeOf 20#64 21#64 23#64 .load then
    { t with cause := causeOf 20#64 21#64 23#64 .store, gva := true }
  else t

/-- `convert_load_traps_to_store_traps` -/
def convertLoadTrapsToStoreTraps {α : Type} (body : LoadM δ ι α) : LoadM δ ι α := fun s =>
  match body s with
  | .error (.trap t) s' => .error (.trap (storeTrapOf t)) s'
  | res => res

/-- The statements of `mmu_t::amo` -/
def amoBody (addr : Reg) (len : Nat) (f : Reg → Reg) : LoadM δ ι Reg := do
  storeSlowPath cfg bus misalignedEnabled addr len [] false true
  let bytes ← load cfg bus addr len
  let lhs := fromBytes bytes
  store cfg bus misalignedEnabled addr len (f lhs)
  pure lhs

/-- `mmu_t::amo` -/
def amo (addr : Reg) (len : Nat) (f : Reg → Reg) : LoadM δ ι Reg :=
  convertLoadTrapsToStoreTraps (amoBody cfg bus misalignedEnabled addr len f)

end HartMmu

end Nnemu

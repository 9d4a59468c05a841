import Nnemu.Hart.Translation
import Nnemu.Loop.Basic

/-!
# Loads of a hart

`mmu_t::load` with the TLB in front of the page-table walker, for loads without flags. A TLB entry
is the distance from a virtual page to its physical page, which is also where the host finds it. The
loads of this module are aligned, as those of the commands are that inspect memory; what the slow
path does to a misaligned access is left out.
-/

namespace Nnemu

open Bytes Trigger

/-! ### The TLB -/

/-- `TLB_ENTRIES` -/
def tlbEntries : Nat := 256

/-- `TLB_CHECK_TRIGGERS` -/
def tlbCheckTriggers : Reg := 1#64 <<< 63

/-- The TLB of `mmu_t`, with the flags that say which accesses are checked for triggers. -/
structure Tlb where
  insnTag : Nat → Reg
  loadTag : Nat → Reg
  storeTag : Nat → Reg
  /-- `tlb_data[i].target_offset` -/
  data : Nat → Reg
  checkTriggersFetch : Bool
  checkTriggersLoad : Bool
  checkTriggersStore : Bool

/-- A TLB after `flush_tlb`. -/
def Tlb.flushed : Tlb where
  insnTag := fun _ => invalidTag
  loadTag := fun _ => invalidTag
  storeTag := fun _ => invalidTag
  data := fun _ => 0#64
  checkTriggersFetch := false
  checkTriggersLoad := false
  checkTriggersStore := false

/-- What a processor has besides its hart. -/
structure Files where
  /-- `XPR` -/
  xpr : Nat → Reg
  tlb : Tlb

namespace Tlb

variable (t : Tlb)

/-- `vpn` -/
def vpn (addr : Reg) : Reg :=
  addr >>> pgShift

/-- `vpn % TLB_ENTRIES` -/
def index (addr : Reg) : Nat :=
  (vpn addr).toNat % tlbEntries

/-- `tlb_load_tag[vpn % TLB_ENTRIES] == vpn` -/
def hit (addr : Reg) : Bool :=
  t.loadTag (index addr) == vpn addr

/-- `vpn == (tlb_load_tag[vpn % TLB_ENTRIES] & ~TLB_CHECK_TRIGGERS)` -/
def hitChecked (addr : Reg) : Bool :=
  vpn addr == t.loadTag (index addr) &&& ~~~tlbCheckTriggers

/-- A tag of another page is invalidated. -/
def keepTag (addr tag : Reg) : Reg :=
  if tag &&& ~~~tlbCheckTriggers ≠ vpn addr then invalidTag else tag

/-- The tag that an access of this type leaves. -/
def expectedTag (addr : Reg) (type : AccessType) : Reg :=
  let check :=
    match type with
    | .fetch => t.checkTriggersFetch
    | .load => t.checkTriggersLoad
    | .store => t.checkTriggersStore
  if check then vpn addr ||| tlbCheckTriggers else vpn addr

/-- `refill_tlb` behind the test of `in_mprv()`, for a page on which the PMP entries agree or do
not. -/
def fill (addr paddr : Reg) (type : AccessType) (homogeneous : Bool) : Tlb :=
  let i := index addr
  let tag (ty : AccessType) (old : Reg) : Reg :=
    if homogeneous && ty == type then t.expectedTag addr type else keepTag addr old
  { t with
    insnTag := Function.update t.insnTag i (tag .fetch (t.insnTag i))
    loadTag := Function.update t.loadTag i (tag .load (t.loadTag i))
    storeTag := Function.update t.storeTag i (tag .store (t.storeTag i))
    data := Function.update t.data i (paddr - addr) }

/-- `refill_tlb` of a hart. There is no result where `pmp_homogeneous` calls `abort()`. -/
def refill (cfg : Config) (h : Hart) (addr paddr : Reg) (type : AccessType) : Option Tlb :=
  if (h.privilege cfg).inMprv then some t
  else (h.pmp.pmpHomogeneous (paddr &&& ~~~pageMask) 4096#64).map (t.fill addr paddr type)

end Tlb

/-! ### Loads -/

namespace HartMmu

variable {δ ι : Type}

/-- A program of a processor that uses the memory and the devices. -/
abbrev LoadM (δ ι : Type) : Type → Type :=
  Exec Stop (Cpu Files ι × World δ)

variable (cfg : Config) (bus : Bus δ)

/-- `check_triggers` -/
def checkLoad (addr : Reg) (data : Option Reg) : LoadM δ ι Unit := fun s =>
  match checkTriggers cfg .load addr data s.1 with
  | .ok _ c => .ok () (c, s.2)
  | .error (.matched m) c => .error (.matched m.operation m.address m.action) (c, s.2)
  -- it throws nothing else
  | .error _ c => .error .abort (c, s.2)

/-- The TLB entry is filled in after a walk. -/
def refillLoad (addr paddr : Reg) : LoadM δ ι Unit := fun s =>
  match s.1.rest.tlb.refill cfg s.1.hart addr paddr .load with
  | some t => .ok () ({ s.1 with rest := { s.1.rest with tlb := t } }, s.2)
  | none => .error .abort s

/-- The load of a device. -/
def deviceLoad (addr paddr : Reg) (len : Nat) : LoadM δ ι (List (BitVec 8)) := fun s =>
  match mmioLoad bus s.1.hart.debugMode s.2.dev paddr len with
  | (some bytes, dev) => .ok bytes (s.1, { s.2 with dev := dev })
  | (none, dev) => .error (.trap (accessFault .load s.1.hart.v addr)) (s.1, { s.2 with dev := dev })

/-- `translate` -/
def translateLoad (addr : Reg) (len : Nat) : LoadM δ ι Reg := fun s =>
  let r := s.1.hart.regime cfg
  match translate (busMem bus r) r (s.1.hart.privilege cfg) addr len .load {} s.2 with
  | .ok paddr w => .ok paddr (s.1, w)
  | .error e w => .error e (s.1, w)

/-- `load_slow_path_intrapage` -/
def loadSlowPathIntrapage (addr : Reg) (len : Nat) : LoadM δ ι (List (BitVec 8)) := do
  let (c, w) ← get
  if c.rest.tlb.hitChecked addr then
    pure (readBytes w.mem (c.rest.tlb.data (Tlb.index addr) + addr) len)
  else
    let paddr ← translateLoad cfg bus addr len
    if bus.isMem paddr then
      let (_, w) ← get
      refillLoad cfg addr paddr
      pure (readBytes w.mem paddr len)
    else deviceLoad bus addr paddr len

/-- `load_slow_path` -/
def loadSlowPath (addr : Reg) (len : Nat) : LoadM δ ι (List (BitVec 8)) := do
  checkLoad cfg addr none
  let bytes ← loadSlowPathIntrapage cfg bus addr len
  checkLoad cfg addr (some (fromBytes bytes))
  pure bytes

/-- `mmu_t::load` -/
def load (addr : Reg) (len : Nat) : LoadM δ ι (List (BitVec 8)) := do
  let (c, w) ← get
  if c.rest.tlb.hit addr then pure (readBytes w.mem (c.rest.tlb.data (Tlb.index addr) + addr) len)
  else loadSlowPath cfg bus addr len

end HartMmu

end Nnemu

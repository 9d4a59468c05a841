import Nnemu.Hart.Machine
import Nnemu.Lib.Words
import Nnemu.Sim.Device

/-!
# The platform-level interrupt controller

`plic_t`. Devices raise and lower the levels of sources. A context is one interrupt line of a hart:
it enables sources, is told which of them are pending, claims one and completes it. What is pending
is kept for each context, and changed in two places only: where a level changes, for the first
context that enables the source, and where a context enables or disables sources. Every access is
made of a few operations on words (`PlicOp`), which is what the results about runs are stated for.
-/

namespace Nnemu

/-- `PLIC_PRIO_BITS`, as a mask -/
def plicPrioMask : BitVec 32 := 0xf#32

/-- `plic_context_t` -/
structure PlicContext where
  /-- the id of `proc` -/
  hart : Nat
  mmode : Bool
  priorityThreshold : BitVec 8
  enable : Words 32
  pending : Words 32
  pendingPriority : Nat → BitVec 8
  claimed : Words 32

/-- `plic_t`, and the harts its contexts belong to. -/
structure Plic where
  /-- `contexts.size()` -/
  size : Nat
  contexts : Nat → PlicContext
  numIds : Nat
  priority : Nat → BitVec 8
  level : Words 32
  harts : Nat → Hart

namespace PlicContext

variable (c : PlicContext)

/-- A context of a hart, at first. -/
def new (hart : Nat) (mmode : Bool) : PlicContext where
  hart := hart
  mmode := mmode
  priorityThreshold := 0#8
  enable := Words.empty 32
  pending := Words.empty 32
  pendingPriority := fun _ => 0#8
  claimed := Words.empty 32

/-- The interrupt line of the context: `MIP_MEIP` or `MIP_SEIP`. -/
def pin : Pin :=
  if c.mmode then .meip else .seip

/-- The source becomes pending. -/
def pend (id : Nat) (prio : BitVec 8) : PlicContext :=
  { c with pending := c.pending.insert id, pendingPriority :=
    Function.update c.pendingPriority id prio }

/-- The source is no longer pending, nor claimed. -/
def unpend (id : Nat) : PlicContext :=
  { c with
    pending := c.pending.erase id
    pendingPriority := Function.update c.pendingPriority id 0#8
    claimed := c.claimed.erase id }

end PlicContext

namespace Plic

variable (p : Plic)

/-- `num_ids_word` -/
def numIdsWord : Nat :=
  (p.numIds + 31) / 32

/-- A context changes. -/
def setContext (i : Nat) (c : PlicContext) : Plic :=
  { p with contexts := Function.update p.contexts i c }

/-! ### Claims -/

/-- One source in the loops of `context_best_pending`: the best id so far, with its priority. -/
def bestStep (c : PlicContext) (best : Nat × BitVec 8) (id : Nat) : Nat × BitVec 8 :=
  if p.numIds ≤ id || !c.pending.has id || c.claimed.has id then best
  else if best.1 = 0 ∨ best.2 < c.pendingPriority id then (id, c.pendingPriority id)
  else best

/-- `plic_t::context_best_pending` -/
def contextBestPending (c : PlicContext) : Nat :=
  ((List.range p.numIdsWord).foldl (fun best i =>
    if c.pending i = 0#32 then best
    else (List.range 32).foldl (fun best j => p.bestStep c best (i * 32 + j)) best) (0, 0#8)).1

/-- `plic_t::context_update` -/
def contextUpdate (i : Nat) : Plic :=
  let c := p.contexts i
  let mask := c.pin.mask
  { p with
    harts := Function.update p.harts c.hart
      ((p.harts c.hart).writeWithMask .mip mask (if p.contextBestPending c ≠ 0 then mask else 0#64))
        }

/-- `plic_t::context_claim` -/
def contextClaim (i : Nat) : Nat × Plic :=
  let c := p.contexts i
  let best := p.contextBestPending c
  let p := if best ≠ 0 then p.setContext i { c with claimed := c.claimed.insert best } else p
  (best, p.contextUpdate i)

/-! ### Registers -/

/-- `uint32_t id = (offset >> 2)` -/
def wordOf (offset : Reg) : Nat :=
  ((offset >>> 2).setWidth 32).toNat

/-- `plic_t::priority_read` -/
def priorityRead (offset : Reg) : BitVec 32 :=
  let id := wordOf offset
  if 0 < id ∧ id < p.numIds then (p.priority id).setWidth 32 else 0#32

/-- `plic_t::priority_write` -/
def priorityWrite (offset : Reg) (val : BitVec 32) : Plic :=
  let id := wordOf offset
  if 0 < id ∧ id < p.numIds then
    { p with priority := Function.update p.priority id ((val &&& plicPrioMask).setWidth 8) }
  else p

/-- `plic_t::context_enable_read` -/
def contextEnableRead (i : Nat) (offset : Reg) : BitVec 32 :=
  let idWord := wordOf offset
  if idWord < p.numIdsWord then (p.contexts i).enable idWord else 0#32

/-- One bit in the loop of `context_enable_write`, which runs over the changed ones. -/
def enableBit (idWord : Nat) (newVal xorVal : BitVec 32) (c : PlicContext) (j : Nat) :
    PlicContext :=
  let id := idWord * 32 + j
  if !xorVal.getLsbD j then c
  else if newVal.getLsbD j && (p.level idWord).getLsbD j then c.pend id (p.priority id)
  else if !newVal.getLsbD j then c.unpend id
  else c

/-- `plic_t::context_enable_write` -/
def contextEnableWrite (i : Nat) (offset : Reg) (val : BitVec 32) : Plic :=
  let idWord := wordOf offset
  if p.numIdsWord ≤ idWord then p
  else
    let c := p.contexts i
    let oldVal := c.enable idWord
    -- source 0 does not exist
    let newVal := if idWord = 0 then val &&& ~~~1#32 else val
    let c := { c with enable := Function.update c.enable idWord newVal }
    let c := (List.range 32).foldl (p.enableBit idWord newVal (oldVal ^^^ newVal)) c
    (p.setContext i c).contextUpdate i

/-- `CONTEXT_THRESHOLD` -/
def contextThreshold : Reg := 0#64
/-- `CONTEXT_CLAIM` -/
def contextClaimOffset : Reg := 4#64

/-- `plic_t::context_read` -/
def contextRead (i : Nat) (offset : Reg) : BitVec 32 × Plic :=
  if offset = contextThreshold then ((p.contexts i).priorityThreshold.setWidth 32, p)
  else if offset = contextClaimOffset then
    let (best, p) := p.contextClaim i
    (BitVec.ofNat 32 best, p)
  else (0#32, p)

/-- `plic_t::context_write` -/
def contextWrite (i : Nat) (offset : Reg) (val : BitVec 32) : Bool × Plic :=
  let c := p.contexts i
  if offset = contextThreshold then
    -- the masked value is at most `max_prio`
    (true, (p.setContext i
      { c with priorityThreshold := (val &&& plicPrioMask).setWidth 8 }).contextUpdate i)
  else if offset = contextClaimOffset then
    if val.toNat < p.numIds ∧ c.enable.has val.toNat then
      (true, (p.setContext i { c with claimed := c.claimed.erase val.toNat }).contextUpdate i)
    else (true, p)
  else (false, p)

/-! ### Levels -/

/-- The first context that enables a source. -/
def firstEnabled (id : Nat) : Option Nat :=
  (List.range p.size).find? fun i => (p.contexts i).enable.has id

/-- `plic_t::set_interrupt_level` -/
def setInterruptLevel (id : Nat) (lvl : Bool) : Plic :=
  if id = 0 ∨ p.numIds ≤ id then p
  else
    let prio := p.priority id
    let p := { p with level := if lvl then p.level.insert id else p.level.erase id }
    -- the loop over the contexts stops at the first that enables the source
    match p.firstEnabled id with
    | none => p
    | some i =>
      let c := p.contexts i
      (p.setContext i (if lvl then c.pend id prio else c.unpend id)).contextUpdate i

/-! ### Accesses -/

/-- `ENABLE_BASE` -/
def enableBase : Reg := 0x2000#64
/-- `ENABLE_PER_HART` -/
def enablePerHart : Nat := 0x80
/-- `CONTEXT_BASE` -/
def contextBase : Reg := 0x200000#64
/-- `CONTEXT_PER_HART` -/
def contextPerHart : Nat := 0x1000
/-- `REG_SIZE` -/
def regSize : Reg := 0x1000000#64

/-- `plic_t::load`, for one word. -/
def loadWord (addr : Reg) : LoadResult × Plic :=
  let found : Option (BitVec 32 × Plic) :=
    if addr < enableBase then some (p.priorityRead addr, p)
    else if addr < contextBase then
      let cntx := (addr - enableBase).toNat / enablePerHart
      if cntx < p.size then
        some (p.contextEnableRead cntx
          (addr - (BitVec.ofNat 64 (cntx * enablePerHart) + enableBase)), p)
      else none
    else if addr < regSize then
      let cntx := (addr - contextBase).toNat / contextPerHart
      if cntx < p.size then
        some (p.contextRead cntx (addr - (BitVec.ofNat 64 (cntx * contextPerHart) + contextBase)))
      else none
    else none
  match found with
  | some (val, p) => (some (readLittleEndianReg 4 (val.setWidth 64) addr 4), p)
  | none => (none, p)

/-- `plic_t::load`. Double-word loads are a pair of word loads. -/
def load (addr : Reg) (len : Nat) : LoadResult × Plic :=
  if len = 4 then p.loadWord addr
  else if len = 8 then
    match p.loadWord addr with
    | (none, p) => (none, p)
    | (some low, p) =>
      match p.loadWord (addr + 4#64) with
      | (none, p) => (none, p)
      | (some high, p) => (some (low ++ high), p)
  else (none, p)

/-- `plic_t::store`, for one word. -/
def storeWord (addr : Reg) (bytes : List (BitVec 8)) : Bool × Plic :=
  let val := (writeLittleEndianReg 4 0#64 addr bytes).setWidth 32
  if addr < enableBase then (true, p.priorityWrite addr val)
  else if addr < contextBase then
    let cntx := (addr - enableBase).toNat / enablePerHart
    if cntx < p.size then
      (true, p.contextEnableWrite cntx
        (addr - (BitVec.ofNat 64 (cntx * enablePerHart) + enableBase)) val)
    else (false, p)
  else if addr < regSize then
    let cntx := (addr - contextBase).toNat / contextPerHart
    if cntx < p.size then
      p.contextWrite cntx (addr - (BitVec.ofNat 64 (cntx * contextPerHart) + contextBase)) val
    else (false, p)
  else (false, p)

/-- `plic_t::store`. Double-word stores are a pair of word stores. -/
def store (addr : Reg) (bytes : List (BitVec 8)) : Bool × Plic :=
  if bytes.length = 4 then p.storeWord addr bytes
  else if bytes.length = 8 then
    match p.storeWord addr (bytes.take 4) with
    | (false, p) => (false, p)
    | (true, p) => p.storeWord (addr + 4#64) (bytes.drop 4)
  else (false, p)

end Plic

/-! ### Operations -/

/-- What happens to the controller. -/
inductive PlicOp where
  | priorityWrite (offset : Reg) (val : BitVec 32)
  | contextEnableWrite (cntx : Nat) (offset : Reg) (val : BitVec 32)
  | contextRead (cntx : Nat) (offset : Reg)
  | contextWrite (cntx : Nat) (offset : Reg) (val : BitVec 32)
  | setInterruptLevel (id : Nat) (lvl : Bool)

namespace Plic

/-- One operation. There are no others on contexts that there are not. -/
def step (p : Plic) : PlicOp → Plic
  | .priorityWrite offset val => p.priorityWrite offset val
  | .contextEnableWrite i offset val => if i < p.size then p.contextEnableWrite i offset val else p
  | .contextRead i offset => if i < p.size then (p.contextRead i offset).2 else p
  | .contextWrite i offset val => if i < p.size then (p.contextWrite i offset val).2 else p
  | .setInterruptLevel id lvl => p.setInterruptLevel id lvl

/-- The controller of these contexts, at first. -/
def init (numIds : Nat) (lines : List (Nat × Bool)) (harts : Nat → Hart) : Plic where
  size := lines.length
  contexts i := (lines[i]?.map fun l => PlicContext.new l.1 l.2).getD (.new 0 true)
  numIds := numIds
  priority := fun _ => 0#8
  level := Words.empty 32
  harts := harts

end Plic

end Nnemu

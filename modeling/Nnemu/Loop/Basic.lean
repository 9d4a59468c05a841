import Nnemu.Hart.Flow
import Nnemu.Lib.Exec
import Nnemu.Trigger.Events

/-!
# The execute loop

`processor_t::step`, cut at the heads of its loops. A `Batch` is a call of `step(n)` under way, with
the local variables of the function; `Batch.tick` runs it from one loop head to the next, so that
one tick enters the outer loop, or fetches and executes one instruction on the fast or on the slow
path. What instructions do is a parameter (`Core`): the fetch behind `refill_icache`, and the
handlers. The tests for triggers and interrupts, the instruction cache, single-stepping, the ways
out of the loops with their exceptions, and the counters are those of the source.

A `Cpu` also carries a `Ledger`, which the code does not have and which only statements look at.

The variables of a batch are the arguments and locals of `step`: how much is to be done, how much is
done, where the loop is (`Phase`), and the index of the cache on the fast path. `LoopOp` is what
happens to a processor over its life: calls of `step` with any argument, and between them events
from outside and resets. The runs of the theorems are lists of these.
-/

namespace Nnemu

open Trigger

/-! ### Processors -/

/-- `matched_t` -/
structure Matched where
  operation : Operation
  address : Reg
  action : Action
deriving DecidableEq

/-- What a fetch or a handler throws. -/
inductive Thrown where
  | trap (t : Trap)
  | matched (m : Matched)
  /-- `trap_debug_mode` -/
  | debugMode
  /-- `wait_for_interrupt_t` -/
  | waitForInterrupt

/-- `icache_entry_t`; the pointer `next` is an index. -/
structure IcacheEntry (ι : Type) where
  tag : Reg
  next : Nat
  data : ι

/-- What an observer keeps: the count of the instructions that have retired, where writes to
`minstret` set it anew, and where the program goes on behind the instruction that owes a trigger
action. -/
structure Ledger where
  count : Reg
  due : Option Reg

/-- One processor: the hart, what `step` reads besides it, and everything else. -/
structure Cpu (σ ι : Type) where
  hart : Hart
  /-- `state.serialized` -/
  serialized : Bool
  /-- `check_triggers_icount` -/
  checkTriggersIcount : Bool
  /-- `mmu->matched_trigger` -/
  matchedTrigger : Option Matched
  icache : Nat → IcacheEntry ι
  ledger : Ledger
  /-- registers, memory, devices, TLBs -/
  rest : σ

/-- A program of the processor. -/
abbrev CpuM (σ ι : Type) : Type → Type :=
  Exec Thrown (Cpu σ ι)

/-- A processor and its instructions. -/
structure Core (σ ι : Type) where
  cfg : Config
  /-- `debug || log_commits_enabled || histogram_enabled` -/
  logged : Bool
  /-- `refill_icache` behind its first test, with the checks for triggers on instructions -/
  fetch : Reg → CpuM σ ι ι
  /-- `insn_length` -/
  length : ι → Reg
  /-- the handler, `fetch.func(this, fetch.insn, pc)` -/
  execute : ι → Reg → CpuM σ ι Reg
  /-- what the instruction writes to `minstret` here, if it does -/
  written : ι → Cpu σ ι → Option Reg
  /-- does the handler begin with `validate_csr`? -/
  serializes : ι → Bool
  /-- does the instruction read or write `minstret`? -/
  accesses : ι → Bool
  /-- the hart that the write of the instruction leaves, where its destination register is refused
  behind it -/
  strands : ι → Cpu σ ι → Option Hart

/-! ### Trigger actions -/

/-- `DCSR_CAUSE_SWBP` -/
def dcsrCauseSwbp : Reg := 1#64
/-- `DCSR_CAUSE_HWBP` -/
def dcsrCauseHwbp : Reg := 2#64
/-- `DCSR_CAUSE_DEBUGINT` -/
def dcsrCauseDebugint : Reg := 3#64
/-- `DCSR_CAUSE_STEP` -/
def dcsrCauseStep : Reg := 4#64
/-- `DCSR_CAUSE_HALT` -/
def dcsrCauseHalt : Reg := 5#64
/-- `DCSR_CAUSE_GROUP` -/
def dcsrCauseGroup : Reg := 6#64

namespace Hart

variable (cfg : Config) (h : Hart)

/-- What matching reads of the hart. -/
def matchEnv : MatchEnv where
  toEnv := h.triggerEnv cfg
  prv := h.prv
  v := h.v
  scontext := h.read .scontext
  satp := h.virtRead .satp .vsatp
  mcontext := h.read .hcontext
  hgatp := h.read .hgatp

/-- `trap_breakpoint` -/
def breakpointTrap (tval : Reg) : Trap :=
  { cause := causeBreakpoint, gva := h.v, tval := tval }

/-- `processor_t::take_trigger_action` -/
def takeTriggerAction (action : Action) (tval epc : Reg) : Hart :=
  match action with
  | .debugMode => h.enterDebugMode cfg dcsrCauseHwbp
  | .debugException => h.takeTrap cfg (h.breakpointTrap tval) epc
  | _ => h.abort

/-- `mip->read() & mie->read()` -/
def pendingInterrupts : Reg :=
  h.read .mip &&& h.read .mie

end Hart

namespace Cpu

variable {σ ι : Type} (c : Cpu σ ι)

/-- `mmu_t::flush_icache` -/
def flushIcache : Cpu σ ι :=
  { c with icache := fun i => { c.icache i with tag := invalidTag } }

/-- A step of the hart. Where it flushes the TLBs it flushes the instruction cache as well. -/
def withHart (f : Hart → Hart) : Cpu σ ι :=
  let h := f c.hart
  let c' : Cpu σ ι := { c with hart := h }
  if h.tlbFlushes = c.hart.tlbFlushes then c' else c'.flushIcache

/-- `delete mmu->matched_trigger`; its action is no longer due. -/
def dropMatch : Cpu σ ι :=
  { c with matchedTrigger := none, ledger := { c.ledger with due := none } }

/-- `processor_t::slow_path` -/
def slowPath (core : Core σ ι) : Bool :=
  core.logged || c.hart.singleStep != .none || c.hart.debugMode || c.hart.inWfi ||
    c.checkTriggersIcount

end Cpu

/-! ### Triggers on accesses -/

/-- `mmu_t::check_triggers` -/
def checkTriggers {σ ι : Type} (cfg : Config) (operation : Operation) (address : Reg)
    (data : Option Reg) :
    CpuM σ ι Unit := fun c =>
  if c.matchedTrigger.isSome then .ok () c
  else
    let found :=
      c.hart.triggers.detectMemoryAccessMatch (c.hart.matchEnv cfg) operation address data
    let c := c.withHart fun h => { h with triggers := found.1 }
    match found.2 with
    | none => .ok () c
    | some ⟨.before, action⟩ => .error (.matched ⟨operation, address, action⟩) c
    -- the next instruction is the one to stop, so none may come from the cache
    | some ⟨.after, action⟩ => .ok ()
      { c.flushIcache with matchedTrigger := some ⟨operation, address, action⟩ }

/-! ### Fetching and executing -/

namespace Core

variable {σ ι : Type} (core : Core σ ι)

/-- `icache_index` -/
def icacheIndex (addr : Reg) : Nat :=
  addr.toNat / 2 % 1024

/-- `refill_icache`, as far as `load_insn` uses it. -/
def loadInsn (addr : Reg) : CpuM σ ι ι := do
  let c ← get
  match c.matchedTrigger with
  | some m => throw (.matched m)
  | none => core.fetch addr

/-- `access_icache` -/
def accessIcache (addr : Reg) : CpuM σ ι (IcacheEntry ι) := do
  let c ← get
  let entry := c.icache (icacheIndex addr)
  if entry.tag = addr then pure entry
  else
    let insn ← core.loadInsn addr
    let entry : IcacheEntry ι := ⟨addr, icacheIndex (addr + core.length insn), insn⟩
    modify fun c => { c with icache := Function.update c.icache (icacheIndex addr) entry }
    pure entry

/-- The instruction is complete. The ledger gets its line: the counter, and the match of the
instruction. -/
def retire (next : Reg) (written : Option Reg) (c : Cpu σ ι) : Cpu σ ι :=
  { c with
    ledger :=
      { count := written.getD (c.ledger.count + 1#64)
        due := if c.matchedTrigger.isSome then some next else none } }

/-- A handler runs. What it returns says whether the instruction has retired. -/
def run (insn : ι) (pc : Reg) : CpuM σ ι Reg := fun c =>
  match core.execute insn pc c with
  | .ok npc c' =>
    if npc = pcSerializeBefore then .ok npc c'
    else .ok npc
      (retire (if npc = pcSerializeAfter then c'.hart.pc else npc) (core.written insn c) c')
  | .error .waitForInterrupt c' => .error .waitForInterrupt
    (retire c'.hart.pc (core.written insn c) c')
  | .error e c' => .error e c'

end Core

/-! ### Batches -/

/-- Where in `step` a batch is: before or after it, at the head of the outer loop, in one of the
inner loops. On the fast path the cache entry of the instruction may be known already. -/
inductive Phase (ι : Type) where
  | idle
  | head
  | slow
  | fast (entry : Option (IcacheEntry ι))

/-- Is a call under way? -/
def Phase.busy {ι : Type} : Phase ι → Bool
  | .idle => false
  | _ => true

theorem Phase.eq_idle {ι : Type} {phase : Phase ι} (h : phase.busy = false) : phase = .idle := by
  cases phase <;> first | rfl | cases h

/-- A call of `step(n)` under way. -/
structure Batch (σ ι : Type) where
  cpu : Cpu σ ι
  n : BitVec 64
  instret : BitVec 64
  pc : Reg
  phase : Phase ι

namespace Batch

variable {σ ι : Type} (core : Core σ ι) (b : Batch σ ι)

/-- A step of the hart. -/
def withHart (f : Hart → Hart) : Batch σ ι :=
  { b with cpu := b.cpu.withHart f }

/-- The end of the outer loop's body: the counters, and `n -= instret`. -/
def leave : Batch σ ι :=
  { b.withHart (·.bump b.instret) with n := b.n - b.instret, phase := .head }

/-- `catch (trap_t&)`. Trigger action takes priority over single step. -/
def catchTrap (t : Trap) : Batch σ ι :=
  let b := { b.withHart fun h => h.takeTrap core.cfg t b.pc with n := b.instret }
  let found := b.cpu.hart.triggers.detectTrapMatch (b.cpu.hart.matchEnv core.cfg) t.cause
  let b := b.withHart fun h => { h with triggers := found.1 }
  match found.2 with
  | some m => (b.withHart fun h => h.takeTriggerAction core.cfg m.action 0#64 h.pc).leave
  | none =>
    if b.cpu.hart.singleStep = .stepped then
      (b.withHart fun h => { h with singleStep := .none }.enterDebugMode
        core.cfg dcsrCauseStep).leave
    else b.leave

/-- `catch (triggers::matched_t&)` -/
def catchMatched (m : Matched) : Batch σ ι :=
  let b : Batch σ ι := { b with cpu := b.cpu.dropMatch }
  (b.withHart fun h => h.takeTriggerAction core.cfg m.action m.address b.pc).leave

/-- `catch (wait_for_interrupt_t&)` -/
def catchWait : Batch σ ι :=
  { b.withHart fun h => { h with inWfi := true } with n := b.instret + 1#64, instret :=
    b.instret + 1#64 }.leave

/-- The `catch` clauses. -/
def caught : Thrown → Batch σ ι
  | .trap t => b.catchTrap core t
  | .matched m => b.catchMatched core m
  | .debugMode => (b.withHart fun h => h.enterDebugMode core.cfg dcsrCauseSwbp).leave
  | .waitForInterrupt => b.catchWait

/-- `advance_pc`, and the test of the inner loop. `next` is the loop it goes on in. -/
def advance (npc : Reg) (next : Phase ι) : Batch σ ι :=
  if invalidPc npc then
    if npc = pcSerializeBefore then { b with cpu := { b.cpu with serialized := true } }.leave
    else if npc = pcSerializeAfter then { b with instret := b.instret + 1#64 }.leave
    else b.withHart (·.abort)
  else
    let b :=
      { b.withHart fun h => { h with pc := npc } with pc := npc, instret := b.instret + 1#64 }
    if b.instret < b.n then { b with phase := next } else b.leave

/-! ### Calls -/

/-- `step(n)` is called. -/
def call (request : HaltRequest) (n : BitVec 64) : Batch σ ι :=
  let enterDebug (cause : Reg) : Batch σ ι := b.withHart (·.enterDebugMode core.cfg cause)
  let b :=
    if b.cpu.hart.debugMode then b
    else
      match request with
      | .regular => enterDebug dcsrCauseDebugint
      | .group => enterDebug dcsrCauseGroup
      -- the halt bit in `dcsr` is deprecated
      | .none => if b.cpu.hart.dcsr.halt then enterDebug dcsrCauseHalt else b
  { b with n := n, phase := .head }

/-! ### The outer loop -/

/-- `take_interrupt` lets the counts of triggers go on before it throws. It ignores what they
match. -/
def countInterrupt : Batch σ ι :=
  if b.cpu.checkTriggersIcount then
    b.withHart fun h =>
      { h with triggers := (h.triggers.detectIcountMatch (h.matchEnv core.cfg)).1 }
  else b

/-- The body of the outer loop up to the inner one. -/
def enter : Batch σ ι :=
  let b := { b with instret := 0#64, pc := b.cpu.hart.pc }
  let pending := b.cpu.hart.pendingInterrupts
  -- exit WFI if there are any pending interrupts
  let awake := if pending = 0#64 then b else b.withHart fun h => { h with inWfi := false }
  match b.cpu.hart.takeInterrupt core.cfg pending with
  | .none => { awake with phase := if awake.cpu.slowPath core then .slow else .fast none }
  | .throw t => (awake.countInterrupt core).catchTrap core t
  | .abort => awake.withHart (·.abort)

/-! ### The slow path -/

/-- Does the single-step test end the batch here? -/
def stepDone : Bool :=
  !b.cpu.serialized && b.cpu.hart.singleStep == .stepped

/-- The slow path from the test of `STEP_STEPPING` to the test of `check_triggers_icount`. -/
def stepOn : Batch σ ι :=
  if b.cpu.hart.singleStep = .stepping then b.withHart fun h => { h with singleStep := .stepped }
    else b

/-- The test of `check_triggers_icount`: the batch afterwards, and the match. -/
def icountMatch : Batch σ ι × Option MatchResult :=
  if !b.cpu.serialized && b.cpu.checkTriggersIcount then
    let found := b.cpu.hart.triggers.detectIcountMatch (b.cpu.hart.matchEnv core.cfg)
    (b.withHart fun h => { h with triggers := found.1 }, found.2)
  else (b, none)

/-- What the tests at the head of a round of the slow loop decide. -/
inductive Round where
  | execute
  /-- the single step is over -/
  | stepped
  | throw (e : Thrown)

/-- The tests behind the single-step test. -/
def laterTests : Batch σ ι × Round :=
  let (b, found) := b.stepOn.icountMatch core
  match found with
  | some m => (b, .throw (.matched ⟨.execute, 0#64, m.action⟩))
  | none =>
    -- debug mode wfis must nop
    if b.cpu.hart.inWfi && !b.cpu.hart.debugMode then (b, .throw .waitForInterrupt)
    else (b.withHart fun h => { h with inWfi := false }, .execute)

/-- The tests of the slow loop, and what they change. -/
def slowTests : Batch σ ι × Round :=
  if b.stepDone then
    let b := b.withHart fun h => { h with singleStep := .none }
    if !b.cpu.hart.debugMode then (b, .stepped) else b.laterTests core
  else b.laterTests core

/-- One instruction on the slow path. -/
def slowAttempt : CpuM σ ι Reg := do
  let insn ← core.loadInsn b.pc
  core.run insn b.pc

/-- The slow path behind its tests. -/
def slowExecute : Batch σ ι :=
  match b.slowAttempt core b.cpu with
  | .ok npc c => { b with cpu := c }.advance npc .slow
  | .error e c => { b with cpu := c }.caught core e

/-- One round of the slow loop. -/
def slow : Batch σ ι :=
  match b.slowTests core with
  | (b, .stepped) => (b.withHart (·.enterDebugMode core.cfg dcsrCauseStep)).leave
  | (b, .throw e) => b.caught core e
  | (b, .execute) => b.slowExecute core

/-! ### The fast path -/

/-- One instruction on the fast path: its cache entry, and what the handler returns. -/
def fastAttempt (entry : Option (IcacheEntry ι)) : CpuM σ ι (IcacheEntry ι × Reg) := do
  let entry ← match entry with
    | some entry => pure entry
    | none => core.accessIcache b.pc
  let npc ← core.run entry.data b.pc
  pure (entry, npc)

/-- One round of the fast loop. It goes on with the next entry where that has the right tag. -/
def fast (entry : Option (IcacheEntry ι)) : Batch σ ι :=
  match b.fastAttempt core entry b.cpu with
  | .ok (entry, npc) c =>
    let b := { b with cpu := c }
    let next := c.icache entry.next
    if next.tag = npc ∧ b.instret + 1#64 ≠ b.n then
      { b.withHart fun h => { h with pc := npc } with
        pc := npc, instret := b.instret + 1#64, phase := .fast (some next) }
    else b.advance npc (.fast none)
  | .error e c => { b with cpu := c }.caught core e

/-! ### Ticks -/

/-- From one loop head to the next. -/
def tick : Batch σ ι :=
  if b.cpu.hart.aborted then { b with phase := .idle }
  else
    match b.phase with
    | .idle => b
    | .head => if b.n = 0#64 then { b with phase := .idle } else b.enter core
    | .slow => b.slow core
    | .fast entry => b.fast core entry

end Batch

/-! ### Runs -/

/-- What happens to a processor. -/
inductive LoopOp (σ : Type) where
  /-- the call of `step` that is under way goes on -/
  | tick
  /-- `step(n)` is called -/
  | call (request : HaltRequest) (n : BitVec 64)
  /-- `time->sync(mtime)` of the CLINT -/
  | timeSync (mtime : Reg)
  /-- a device drives an interrupt line -/
  | pin (p : Pin) (level : Bool)
  /-- devices, other harts and the loader change the rest -/
  | others (s : σ)
  | reset (halt : Bool)

namespace Batch

variable {σ ι : Type} (core : Core σ ι) (b : Batch σ ι)

/-- `processor_t::reset`. Neither the MMU nor the trigger module is. -/
def reset (halt : Bool) : Batch σ ι :=
  let c := b.cpu.withHart fun h => h.reset core.cfg halt
  { b with
    cpu :=
    { c with serialized := false, ledger := { c.ledger with count := c.hart.reg .minstret } } }

/-- What happens between two calls. -/
def between : LoopOp σ → Batch σ ι
  | .tick => b
  | .call request n => b.call core request n
  | .timeSync mtime => b.withHart (·.timeSync mtime)
  | .pin p level => b.withHart fun h => h.writeWithMask .mip p.mask (if level then p.mask else 0#64)
  | .others s => { b with cpu := { b.cpu with rest := s } }
  | .reset halt => b.reset core halt

/-- One step of a run. A call of `step` is over before anything else happens. -/
def play (op : LoopOp σ) : Batch σ ι :=
  match op with
  | .tick => b.tick core
  | op => if b.phase.busy || b.cpu.hart.aborted then b else b.between core op

end Batch

end Nnemu

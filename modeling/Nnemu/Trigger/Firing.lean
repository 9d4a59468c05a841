import Nnemu.Loop.Laws
import Nnemu.Trigger.Actions

/-!
# Firing triggers

The parts of `processor_t::step` that deal with triggers, as operations on a call under way:
accesses by fetches, loads and stores, a match that is due, the count before an instruction, traps
and interrupts. Between them anything can happen to the hart, CSR instructions of any kind among it.
A run is any list of these, so the order that `step` brings them into is one of many. `handed` is
what an operation hands to `take_trigger_action`, and `checked` the harts in which it matches.

The operations are cut at the places where `step` may be left by an exception, so that a run can
stop between any two of them. `Tame` is what every operation keeps: the hart is well formed, its
triggers have implemented actions, and so has a match that is waiting. It follows for every run that
no assert fails and no action aborts, as long as no write stores a trace action
(`triggers_harmless`).
-/

namespace Nnemu

open Trigger

/-- What happens to a processor, as far as its triggers go. -/
inductive TriggerOp where
  /-- a CSR instruction, a return, debug entry or anything else that happens to the hart -/
  | hart (op : HartOp)
  /-- `serialized` and `check_triggers_icount` change -/
  | flags (serialized checkTriggersIcount : Bool)
  /-- a fetch, load or store checks the triggers -/
  | access (operation : Operation) (address : Reg) (data : Option Reg)
  /-- `refill_icache` finds `matched_trigger` -/
  | due
  /-- the test of `check_triggers_icount` on the slow path -/
  | count
  /-- `catch (trap_t&)` for an exception -/
  | exception (code : Fin 24) (gva : Bool) (tval tval2 tinst : Reg)
  /-- `take_pending_interrupt()`, and `catch (trap_t&)` for what it throws -/
  | interrupt

namespace Batch

variable {σ ι : Type} (core : Core σ ι) (b : Batch σ ι)

/-- The trap of an exception. -/
def exceptionTrap (code : Fin 24) (gva : Bool) (tval tval2 tinst : Reg) : Trap :=
  ⟨BitVec.ofNat 64 code, gva, tval, tval2, tinst⟩

/-- One operation. The triggers change by detections and CSR instructions only. -/
def triggerStep (op : TriggerOp) : Batch σ ι :=
  match op with
  | .hart (.triggers _) => b
  | .hart op => b.withHart fun h => h.step core.cfg op
  | .flags serialized checkTriggersIcount =>
    { b with
      cpu := { b.cpu with serialized := serialized, checkTriggersIcount := checkTriggersIcount } }
  | .access operation address data =>
    match checkTriggers core.cfg operation address data b.cpu with
    | .ok _ c => { b with cpu := c }
    | .error e c => { b with cpu := c }.caught core e
  | .due =>
    match b.cpu.matchedTrigger with
    | some m => b.catchMatched core m
    | none => b
  | .count =>
    let (b, found) := b.icountMatch core
    match found with
    | some m => b.catchMatched core ⟨.execute, 0#64, m.action⟩
    | none => b
  | .exception code gva tval tval2 tinst => b.catchTrap core
    (exceptionTrap code gva tval tval2 tinst)
  | .interrupt =>
    match b.cpu.hart.takeInterrupt core.cfg b.cpu.hart.pendingInterrupts with
    | .throw t => (b.countInterrupt core).catchTrap core t
    | _ => b

/-! ### The parts of `step` -/

section Parts

variable {core : Core σ ι} {b : Batch σ ι}

/-- The outer loop up to the test for interrupts. -/
def awake (b : Batch σ ι) : Batch σ ι :=
  let b := { b with instret := 0#64, pc := b.cpu.hart.pc }
  if b.cpu.hart.pendingInterrupts = 0#64 then b else b.withHart fun h => { h with inWfi := false }

/-- An interrupt that is taken is the operation `interrupt`. -/
theorem enter_throw {t : Trap}
    (h : b.cpu.hart.takeInterrupt core.cfg b.cpu.hart.pendingInterrupts = .throw t) :
    b.enter core = b.awake.triggerStep core .interrupt := by
  have hsame : b.awake.cpu.hart.takeInterrupt core.cfg b.awake.cpu.hart.pendingInterrupts =
      .throw t := by
    rw [awake]
    dsimp only
    split
    · exact h
    · rw [withHart, Cpu.hart_withHart]
      exact h
  rw [enter, triggerStep, hsame]
  dsimp only
  rw [h]
  rfl

/-- A count that fires before an instruction is the operation `count`. -/
theorem slow_count (hdone : b.stepDone = false) {m : MatchResult}
    (h : (b.stepOn.icountMatch core).2 = some m) :
    b.slow core = b.stepOn.triggerStep core .count := by
  rw [slow, slowTests, hdone, if_neg (by decide), laterTests, triggerStep]
  generalize b.stepOn.icountMatch core = counted at h
  obtain ⟨b', found⟩ := counted
  obtain rfl : found = some m := h
  rfl

/-- A match that is due is the operation `due`. -/
theorem slow_due (hgo : b.slowTests core = (b, .execute)) {m : Matched}
    (h : b.cpu.matchedTrigger = some m) :
    b.slow core = b.triggerStep core .due := by
  have hload : core.loadInsn b.pc b.cpu = .error (.matched m) b.cpu := by
    obtain ⟨m', hm, herr⟩ | ⟨hnone, -⟩ := Core.loadInsn_cases core b.pc b.cpu
    · obtain rfl := Option.some.inj (h.symm.trans hm)
      exact herr
    · rw [h] at hnone
      cases hnone
  rw [slow, hgo, triggerStep, h]
  dsimp only
  rw [slowExecute, slowAttempt, Exec.bind_of_error hload]
  rfl

end Parts

/-! ### What is handed over, and what is checked -/

/-- The hart in which `catch (trap_t&)` matches the trap. -/
def trapped (t : Trap) : Hart :=
  b.cpu.hart.takeTrap core.cfg t b.pc

/-- What `catch (trap_t&)` matches. -/
def trapMatch (t : Trap) : Option MatchResult :=
  ((b.trapped core t).triggers.detectTrapMatch ((b.trapped core t).matchEnv core.cfg) t.cause).2

/-- The actions that the operation hands to `take_trigger_action`. -/
def handed (op : TriggerOp) : List Action :=
  match op with
  | .access operation address data =>
    match checkTriggers core.cfg operation address data b.cpu with
    | .error (.matched m) _ => [m.action]
    | _ => []
  | .due => (b.cpu.matchedTrigger.map Matched.action).toList
  | .count => ((b.icountMatch core).2.map MatchResult.action).toList
  | .exception code gva tval tval2 tinst =>
    ((b.trapMatch core (exceptionTrap code gva tval tval2 tinst)).map MatchResult.action).toList
  | .interrupt =>
    match b.cpu.hart.takeInterrupt core.cfg b.cpu.hart.pendingInterrupts with
    | .throw t => (((b.countInterrupt core).trapMatch core t).map MatchResult.action).toList
    | _ => []
  | _ => []

/-- The harts in which the operation matches triggers, with the cause of the trap where it matches
one. -/
def checked (op : TriggerOp) : List (Hart × Option Reg) :=
  match op with
  | .access _ _ _ => [(b.cpu.hart, none)]
  | .count => [(b.cpu.hart, none)]
  | .exception code gva tval tval2 tinst =>
    let t := exceptionTrap code gva tval tval2 tinst
    [(b.trapped core t, some t.cause)]
  | .interrupt =>
    match b.cpu.hart.takeInterrupt core.cfg b.cpu.hart.pendingInterrupts with
    | .throw t => [(b.cpu.hart, none), ((b.countInterrupt core).trapped core t, some t.cause)]
    | _ => []
  | _ => []

end Batch

/-- The asserts of the matching code hold. -/
structure Asserts (cfg : Config) (h : Hart) (cause : Option Reg) : Prop where
  /-- `mode_match`: the mode is one of the three -/
  mode : h.prv = prvM ∨ h.prv = prvS ∨ h.prv = prvU
  /-- `interpret_mhselect`: the table has a row for the legal value, with a `shift_mhvalue` where
  one is asked for -/
  mhselect : ∀ t ∈ h.triggers, t.legalizeMhselect (h.matchEnv cfg).enabledH ∉ [3#3, 7#3] ∧
    ((mhselectTable (t.legalizeMhselect (h.matchEnv cfg).enabledH)).1 ≠ .ignore →
      (mhselectTable (t.legalizeMhselect (h.matchEnv cfg).enabledH)).2 ≠ none)
  /-- `detect_trap_match`: `bit < xlen` -/
  bit : ∀ c, cause = some c → (c &&& ~~~(1#64 <<< (cfg.isa.xlen.bits - 1))).toNat <
    cfg.isa.xlen.bits

/-- The operation hands over actions that are implemented, and its asserts hold. -/
structure Harmless {σ ι : Type} (core : Core σ ι) (b : Batch σ ι) (op : TriggerOp) : Prop where
  handed : ∀ a ∈ b.handed core op, a.implemented = true
  asserts : ∀ d ∈ b.checked core op, Asserts core.cfg d.1 d.2

/-- The operation is no CSR instruction that stores a trace action. -/
def NoTrace {σ ι : Type} (core : Core σ ι) (b : Batch σ ι) (op : TriggerOp) : Prop :=
  ∀ op', op = .hart op' → ¬b.cpu.hart.WritesTrace core.cfg op'

/-! ### The asserts -/

theorem Trigger.mhselect_table (legal : BitVec 3) : legal ∉ [3#3, 7#3] →
    (mhselectTable legal).1 ≠ .ignore → (mhselectTable legal).2 ≠ none := by
  revert legal
  decide

/-- `interpret_mhselect` never asks for one of the missing rows. -/
theorem Trigger.legalizeMhselect_mem (t : Trigger) (enabledH : Bool) :
    t.legalizeMhselect enabledH ∉ [3#3, 7#3] := by
  have hall : ∀ (mhselect : BitVec 3) (enabledH : Bool),
      (if enabledH then if mhselect = 3#3 then 0#3 else if mhselect = 7#3 then 4#3 else mhselect
        else if mhselect < 4#3 then 0#3 else 4#3) ∉ [3#3, 7#3] := by
    decide
  exact hall t.mhselect enabledH

/-- What `tdata3_write` stores as `mhselect` is below 8. -/
theorem Trigger.mhselect_lt (xlen : Xlen) (val : Reg) :
    getField val (textraMhselect xlen) < 8#64 := by
  have hle : (getField val (textraMhselect xlen)).toNat ≤ 7 := by
    cases xlen with
    | rv32 => exact getField_toNat_le (k := 23) (by decide) (by decide) val
    | rv64 => exact getField_toNat_le (k := 48) (by decide) (by decide) val
  exact Nat.lt_of_le_of_lt hle (by decide)

/-- The number of an exception is that of a bit of `tdata2`. -/
theorem bit_exception (cfg : Config) (code : Fin 24) :
    (BitVec.ofNat 64 code &&& ~~~(1#64 <<< (cfg.isa.xlen.bits - 1))).toNat < cfg.isa.xlen.bits := by
  rw [BitVec.toNat_and]
  refine Nat.lt_of_le_of_lt Nat.and_le_left ?_
  have hcode : (BitVec.ofNat 64 code).toNat < 32 := by
    rw [BitVec.toNat_ofNat]
    omega
  cases cfg.isa.xlen with
  | rv32 => exact hcode
  | rv64 => exact Nat.lt_trans hcode (by decide)

namespace Hart

variable {cfg : Config} {h : Hart}

/-- So is the number of an interrupt that is taken. -/
theorem bit_interrupt (wf : WellFormed cfg h) {t : Trap}
    (ht : h.takeInterrupt cfg h.pendingInterrupts = .throw t) :
    (t.cause &&& ~~~(1#64 <<< (cfg.isa.xlen.bits - 1))).toNat < cfg.isa.xlen.bits := by
  obtain ⟨-, -, i, hi, rfl, hbit⟩ := of_takeInterrupt ht
  have hpending := (of_enabledInterrupts hbit).1
  have hlt : i < 14 := by
    rw [pendingInterrupts, BitVec.getLsbD_and, Bool.and_eq_true] at hpending
    by_contra hge
    have hmask : enableableMask.getLsbD i = false := by
      refine Nat.testBit_lt_two_pow
        (Nat.lt_of_lt_of_le (by decide : enableableMask.toNat < 2 ^ 14) ?_)
      exact Nat.pow_le_pow_right (by decide) (Nat.not_lt.1 hge)
    have hmie : (h.reg .mie).getLsbD i = true := hpending.2
    have hzero := congrArg (BitVec.getLsbD · i) wf.regs.mie
    rw [BitVec.getLsbD_and, BitVec.getLsbD_not, hmie, hmask] at hzero
    simp [hi] at hzero
  have hnumber : trapBit cfg (interruptTrap cfg i) = BitVec.ofNat 64 i := trapBit_interruptTrap hi
  rw [trapBit, isInterrupt_interruptTrap, if_pos rfl, interruptBit] at hnumber
  rw [hnumber, BitVec.toNat_ofNat]
  refine Nat.lt_of_le_of_lt (Nat.mod_le _ _) (Nat.lt_trans hlt ?_)
  cases cfg.isa.xlen with
  | rv32 => decide
  | rv64 => decide

/-- **Matching keeps its asserts**, for harts in order. -/
theorem asserts_of_wellFormed (wf : WellFormed cfg h) {cause : Option Reg}
    (hcause : ∀ c, cause = some c → (c &&& ~~~(1#64 <<< (cfg.isa.xlen.bits - 1))).toNat <
      cfg.isa.xlen.bits) :
    Asserts cfg h cause where
  mode := by
    obtain hm | ⟨hs, -⟩ | ⟨hu, -⟩ := wf.prv
    · exact .inl hm
    · exact .inr (.inl hs)
    · exact .inr (.inr hu)
  mhselect t _ :=
    ⟨t.legalizeMhselect_mem _, Trigger.mhselect_table _ (t.legalizeMhselect_mem _)⟩
  bit := hcause

theorem triggers_takeTriggerAction (action : Action) (tval epc : Reg) :
    (h.takeTriggerAction cfg action tval epc).triggers = h.triggers := by
  cases action with
  | debugException => exact triggers_takeTrap _ _
  | debugMode => exact triggers_enterDebugMode _
  | _ => rfl

end Hart

/-! ### One operation -/

/-- The hart is in order, and every action that is or was stored is implemented. -/
structure Tame {σ ι : Type} (core : Core σ ι) (b : Batch σ ι) : Prop where
  wellFormed : b.cpu.hart.WellFormed core.cfg
  triggers : b.cpu.hart.triggers.Implemented
  matched : ∀ m, b.cpu.matchedTrigger = some m → m.action.implemented = true

namespace Tame

variable {σ ι : Type} {core : Core σ ι} {b : Batch σ ι}

theorem withHart (h : Tame core b) {f : Hart → Hart} (hwf : (f b.cpu.hart).WellFormed core.cfg)
    (hts : (f b.cpu.hart).triggers.Implemented) : Tame core (b.withHart f) where
  wellFormed := by rw [Batch.withHart, Cpu.hart_withHart]; exact hwf
  triggers := by rw [Batch.withHart, Cpu.hart_withHart]; exact hts
  matched m hm := by
    rw [Batch.withHart, Cpu.matchedTrigger_withHart] at hm
    exact h.matched m hm

/-- A step of the hart that leaves the triggers alone. -/
theorem withSame (h : Tame core b) {f : Hart → Hart} (hwf : (f b.cpu.hart).WellFormed core.cfg)
    (hts : (f b.cpu.hart).triggers = b.cpu.hart.triggers) : Tame core (b.withHart f) :=
  h.withHart hwf (hts ▸ h.triggers)

/-- A detection. -/
theorem withTriggers (h : Tame core b) {ts : Triggers} (hts : ts.Implemented) :
    Tame core (b.withHart fun hart => { hart with triggers := ts }) :=
  h.withHart ((Hart.Acted.triggers _ _).wellFormed h.wellFormed) hts

theorem leave (h : Tame core b) : Tame core b.leave := by
  have hbump := h.withSame (f := (·.bump b.instret)) (h.wellFormed.bump _) rfl
  exact ⟨hbump.wellFormed, hbump.triggers, hbump.matched⟩

theorem act (h : Tame core b) (action : Action) (tval : Reg) (epc : Hart → Reg) :
    Tame core (b.withHart fun hart => hart.takeTriggerAction core.cfg action tval (epc hart)) :=
  h.withSame ((Hart.Acted.takeTriggerAction _ _ _ _).wellFormed h.wellFormed)
    (Hart.triggers_takeTriggerAction _ _ _)

theorem catchMatched (h : Tame core b) (m : Matched) : Tame core (b.catchMatched core m) := by
  have hdrop : Tame core { b with cpu := b.cpu.dropMatch } :=
    ⟨h.wellFormed, h.triggers, fun _ hm => by cases hm⟩
  exact (hdrop.act m.action m.address fun _ => b.pc).leave

theorem catchTrap (h : Tame core b) (t : Trap) : Tame core (b.catchTrap core t) := by
  have htrap : Tame core (b.withHart fun hart => hart.takeTrap core.cfg t b.pc) :=
    h.withSame (h.wellFormed.takeTrap _ _) (Hart.triggers_takeTrap _ _)
  unfold Batch.catchTrap
  extract_lets src b₁ found b₂
  have htrap₁ : Tame core b₁ := ⟨htrap.wellFormed, htrap.triggers, htrap.matched⟩
  have hfound : found.1.Implemented :=
    ((Triggers.keepsActions_trap _ _ _).implemented htrap₁.triggers).1
  have hmatched : Tame core b₂ := htrap₁.withTriggers hfound
  split
  · rename_i m hm
    exact (hmatched.act m.action 0#64 fun hart => hart.pc).leave
  · split
    · refine Tame.leave
        (hmatched.withSame ((Hart.Acted.endStep _ _).wellFormed hmatched.wellFormed) ?_)
      exact Hart.triggers_enterDebugMode _
    · exact hmatched.leave

/-- What a handler throws is caught. -/
theorem caught (h : Tame core b) (e : Thrown) : Tame core (b.caught core e) := by
  cases e with
  | trap t => exact h.catchTrap t
  | matched m => exact h.catchMatched m
  | debugMode =>
    exact (h.withSame (h.wellFormed.enterDebugMode _) (Hart.triggers_enterDebugMode _)).leave
  | waitForInterrupt =>
    have hwait : Tame core (b.withHart fun hart => { hart with inWfi := true }) :=
      h.withSame ((Hart.Quiet.inWfi _ _).wellFormed h.wellFormed) rfl
    exact Tame.leave ⟨hwait.wellFormed, hwait.triggers, hwait.matched⟩

/-- The match of an access. -/
theorem memoryMatch (h : Tame core b) (operation : Operation) (address : Reg) (data : Option Reg) :
    Tame core (b.withHart fun hart => { hart with
        triggers := (b.cpu.hart.triggers.detectMemoryAccessMatch
          (b.cpu.hart.matchEnv core.cfg) operation address data).1 }) ∧
      ∀ r, (b.cpu.hart.triggers.detectMemoryAccessMatch
        (b.cpu.hart.matchEnv core.cfg) operation address data).2 = some r →
        r.action.implemented = true := by
  obtain ⟨hts, hresult⟩ :=
    (Triggers.keepsActions_memory (b.cpu.hart.matchEnv core.cfg) operation address data
    b.cpu.hart.triggers).implemented h.triggers
  exact ⟨h.withTriggers hts, hresult⟩

/-- A check for triggers that lets the access go on. -/
theorem checkTriggers_ok (h : Tame core b) {operation : Operation} {address : Reg}
    {data : Option Reg} {c : Cpu σ ι}
    (hr : checkTriggers core.cfg operation address data b.cpu = .ok () c) :
    Tame core { b with cpu := c } := by
  rw [checkTriggers] at hr
  obtain ⟨hfound, hresult⟩ := h.memoryMatch operation address data
  split at hr
  · cases hr
    exact h
  · dsimp only at hr
    split at hr
    · cases hr
      exact ⟨hfound.wellFormed, hfound.triggers, hfound.matched⟩
    · cases hr
    · rename_i action hm
      cases hr
      refine ⟨hfound.wellFormed, hfound.triggers, fun m h => ?_⟩
      obtain rfl := Option.some.inj h
      exact hresult _ hm

/-- A check that throws: what it throws is implemented. -/
theorem checkTriggers_error (h : Tame core b) {operation : Operation} {address : Reg}
    {data : Option Reg} {e : Thrown}
    {c : Cpu σ ι} (hr : checkTriggers core.cfg operation address data b.cpu = .error e c) :
    Tame core { b with cpu := c } ∧ ∀ m, e = .matched m → m.action.implemented = true := by
  rw [checkTriggers] at hr
  obtain ⟨hfound, hresult⟩ := h.memoryMatch operation address data
  split at hr
  · cases hr
  · dsimp only at hr
    split at hr
    · cases hr
    · rename_i action hm
      cases hr
      refine ⟨⟨hfound.wellFormed, hfound.triggers, hfound.matched⟩, fun m h => ?_⟩
      obtain rfl := Thrown.matched.inj h
      exact hresult _ hm
    · cases hr

/-- The count before an instruction. -/
theorem icountMatch (h : Tame core b) : Tame core (b.icountMatch core).1 ∧
    ∀ r, (b.icountMatch core).2 = some r → r.action.implemented = true := by
  rw [Batch.icountMatch]
  split
  · obtain ⟨hts, hresult⟩ := (Triggers.keepsActions_icount (b.cpu.hart.matchEnv core.cfg)
      b.cpu.hart.triggers).implemented h.triggers
    exact ⟨h.withTriggers hts, hresult⟩
  · exact ⟨h, fun r hr => by cases hr⟩

/-- The count before an interrupt. -/
theorem countInterrupt (h : Tame core b) : Tame core (b.countInterrupt core) := by
  rw [Batch.countInterrupt]
  split
  · exact h.withTriggers ((Triggers.keepsActions_icount _ _).implemented h.triggers).1
  · exact h

/-- What `catch (trap_t&)` matches is implemented. -/
theorem trapMatch (h : Tame core b) (t : Trap) : ∀ r, b.trapMatch core t = some r →
    r.action.implemented = true := by
  refine ((Triggers.keepsActions_trap _ _ _).implemented ?_).2
  rw [Batch.trapped, Hart.triggers_takeTrap]
  exact h.triggers

/-- **Every operation** keeps the actions in order. -/
theorem step (h : Tame core b) {op : TriggerOp} (hop : NoTrace core b op) :
    Tame core (b.triggerStep core op) := by
  cases op with
  | hart op =>
    by_cases hdetect : ∃ ts, op = .triggers ts
    · obtain ⟨ts, rfl⟩ := hdetect
      exact h
    · have hne : ∀ ts, op ≠ .triggers ts := fun ts heq => hdetect ⟨ts, heq⟩
      have heq : b.triggerStep core (.hart op) = b.withHart fun hart => hart.step core.cfg op := by
        cases op with
        | triggers ts => exact absurd rfl (hne ts)
        | _ => rfl
      rw [heq]
      exact h.withHart (h.wellFormed.step op) (Hart.implemented_step h.triggers (hop op rfl) hne)
  | flags serialized checkTriggersIcount => exact ⟨h.wellFormed, h.triggers, h.matched⟩
  | access operation address data =>
    rw [Batch.triggerStep]
    cases hr : Nnemu.checkTriggers core.cfg operation address data b.cpu with
    | ok _ c => exact h.checkTriggers_ok hr
    | error e c => exact (h.checkTriggers_error hr).1.caught e
  | due =>
    rw [Batch.triggerStep]
    cases b.cpu.matchedTrigger with
    | none => exact h
    | some m => exact h.catchMatched m
  | count =>
    obtain ⟨hcount, -⟩ := h.icountMatch
    rw [Batch.triggerStep]
    generalize b.icountMatch core = counted at hcount
    obtain ⟨b', found⟩ := counted
    cases found with
    | none => exact hcount
    | some m => exact hcount.catchMatched _
  | exception code gva tval tval2 tinst => exact h.catchTrap _
  | interrupt =>
    rw [Batch.triggerStep]
    cases b.cpu.hart.takeInterrupt core.cfg b.cpu.hart.pendingInterrupts with
    | throw t => exact h.countInterrupt.catchTrap t
    | _ => exact h

/-- A choice of actions, all of them implemented. -/
theorem implemented_toList {α : Type} {action : α → Action} {found : Option α}
    (h : ∀ r, found = some r → (action r).implemented = true) :
    ∀ a ∈ (found.map action).toList, a.implemented = true := by
  intro a ha
  rw [Option.mem_toList] at ha
  obtain ⟨r, hr, rfl⟩ := Option.map_eq_some_iff.1 ha
  exact h r hr

/-- **Operations in order are harmless.** -/
theorem harmless (h : Tame core b) (op : TriggerOp) : Harmless core b op where
  handed := by
    cases op with
    | hart op => exact fun a ha => by cases ha
    | flags serialized checkTriggersIcount => exact fun a ha => by cases ha
    | access operation address data =>
      rw [Batch.handed]
      cases hr : Nnemu.checkTriggers core.cfg operation address data b.cpu with
      | ok _ c => exact fun a ha => by cases ha
      | error e c =>
        cases e with
        | matched m =>
          intro a ha
          rw [List.mem_singleton.1 ha]
          exact (h.checkTriggers_error hr).2 m rfl
        | _ => exact fun a ha => by cases ha
    | due => exact implemented_toList h.matched
    | count => exact implemented_toList h.icountMatch.2
    | exception code gva tval tval2 tinst => exact implemented_toList (h.trapMatch _)
    | interrupt =>
      rw [Batch.handed]
      cases b.cpu.hart.takeInterrupt core.cfg b.cpu.hart.pendingInterrupts with
      | throw t => exact implemented_toList (h.countInterrupt.trapMatch t)
      | _ => exact fun a ha => by cases ha
  asserts := by
    have plain : ∀ c, (none : Option Reg) = some c →
        (c &&& ~~~(1#64 <<< (core.cfg.isa.xlen.bits - 1))).toNat < core.cfg.isa.xlen.bits :=
      fun c hc => by cases hc
    cases op with
    | access operation address data =>
      intro d hd
      rw [List.mem_singleton.1 hd]
      exact Hart.asserts_of_wellFormed h.wellFormed plain
    | count =>
      intro d hd
      rw [List.mem_singleton.1 hd]
      exact Hart.asserts_of_wellFormed h.wellFormed plain
    | exception code gva tval tval2 tinst =>
      intro d hd
      rw [List.mem_singleton.1 hd]
      refine Hart.asserts_of_wellFormed (h.wellFormed.takeTrap _ _) fun c hc => ?_
      obtain rfl := Option.some.inj hc
      exact bit_exception core.cfg code
    | interrupt =>
      rw [Batch.checked]
      cases ht : b.cpu.hart.takeInterrupt core.cfg b.cpu.hart.pendingInterrupts with
      | throw t =>
        intro d hd
        obtain rfl | hd := List.mem_cons.1 hd
        · exact Hart.asserts_of_wellFormed h.wellFormed plain
        · rw [List.mem_singleton.1 hd]
          refine Hart.asserts_of_wellFormed (h.countInterrupt.wellFormed.takeTrap _ _)
            fun c hc => ?_
          obtain rfl := Option.some.inj hc
          exact Hart.bit_interrupt h.wellFormed ht
      | _ => exact fun d hd => by cases hd
    | _ => exact fun d hd => by cases hd

end Tame

/-! ### Runs -/

/-- **Triggers stop nothing.** From reset, as long as no CSR instruction stores a trace action in
`tdata1`, every action that is handed to `take_trigger_action` is one it implements and the matching
code finds its asserts true, whatever happens and in whatever order. What a write to `tdata3` stores
as `mhselect` is below 8 in any case. -/
theorem triggers_harmless {σ ι : Type} (core : Core σ ι) (b : Batch σ ι) (halt : Bool)
    (hhart : b.cpu.hart = Hart.init core.cfg halt) (hmatched : b.cpu.matchedTrigger = none)
    (ops : List TriggerOp)
    (hops : Run.Along (Batch.triggerStep core) (NoTrace core) b ops) :
    Run.Along (Batch.triggerStep core) (Harmless core) b ops ∧
      ∀ (xlen : Xlen) (val : Reg), getField val (textraMhselect xlen) < 8#64 := by
  refine ⟨?_, Trigger.mhselect_lt⟩
  have hstart : Tame core b := by
    refine ⟨hhart ▸ Hart.wellFormed_init halt, ?_, fun m hm => ?_⟩
    · rw [hhart, Hart.init, Hart.triggers_reset]
      exact Triggers.implemented_ofCount _
    · rw [hmatched] at hm
      cases hm
  exact Run.Along.of_step (I := Tame core) (fun _ _ hI hok => hI.step hok)
    (fun _ op hI _ => hI.harmless op) hstart hops

/-- A processor that has no program. -/
def emptyCore : Core Unit Unit where
  cfg := rv64h
  logged := false
  fetch addr := throw (.trap { cause := 1#64, tval := addr })
  length _ := 4#64
  execute _ pc := pure (pc + 4#64)
  written _ _ := none
  serializes _ := false
  accesses _ := false
  strands _ _ := none

/-- It after reset, between two calls of `step`. -/
def emptyBatch : Batch Unit Unit where
  cpu :=
    { hart := Hart.init rv64h false
      serialized := false
      checkTriggersIcount := false
      matchedTrigger := none
      icache := fun _ => ⟨invalidTag, 0, ()⟩
      ledger := ⟨0#64, none⟩
      rest := () }
  n := 0#64
  instret := 0#64
  pc := 0#64
  phase := .idle

/-- It, with an `mcontrol` trigger on the fetch at address 0 that has the given action. -/
def firingOps (action : Reg) : List TriggerOp :=
  [.hart (.csr 0x7a1 (.write (0x2000000000000044#64 ||| action <<< 12)) 0#64),
    .access .execute 0#64 none]

/-- The write of an action that is implemented is no trace. -/
theorem noTrace_write {σ ι : Type} {core : Core σ ι} {b : Batch σ ι} {which : Nat} {bits val : Reg}
    (h : ¬Traces core.cfg.isa.xlen (core.cfg.isa.xlen.zext val)) :
    NoTrace core b (.hart (.csr which (.write val) bits)) := by
  intro op hop
  obtain rfl := TriggerOp.hart.inj hop
  rintro ⟨val', w, htrace⟩
  obtain rfl := Option.some.inj w.value
  exact h htrace

theorem triggers_harmless_breakpoint : Run.Along (Batch.triggerStep emptyCore) (Harmless emptyCore)
      emptyBatch (firingOps 0#64) ∧
    ∀ (xlen : Xlen) (val : Reg), getField val (textraMhselect xlen) < 8#64 :=
  triggers_harmless emptyCore emptyBatch false rfl rfl (firingOps 0#64)
    ⟨noTrace_write (by decide), fun _ hop => (by cases hop), trivial⟩

/-- The action of `mcontrol` is the number 2: the trigger fires, and the simulator stops. -/
theorem triggers_abort : ¬Run.Along (Batch.triggerStep emptyCore) (Harmless emptyCore)
      emptyBatch (firingOps 2#64) ∧
    (Run.run (Batch.triggerStep emptyCore) emptyBatch (firingOps 2#64)).cpu.hart.aborted =
      true := by
  refine ⟨fun h => ?_, by decide +kernel⟩
  have hbad := h.2.1.handed .traceStart
  revert hbad
  decide +kernel

end Nnemu

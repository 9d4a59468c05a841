import Nnemu.Loop.Counting
import Nnemu.Loop.Places
import Nnemu.Trigger.Firing

/-!
# What lets counts go on

The loop looks at the count triggers in two places: before an instruction on the slow path, and when
an interrupt is taken. Nothing else that it does concerns a counter, but for instructions that write
a trigger register. `Tallied` says what a tick is to do about the counters, and `loses` which ticks
fail to: the definitions are all about one tick, from the batch before it.

What there is to count is said in terms of the tick alone: an instruction that finishes is one, and
so is a trap or an interrupt that is taken. `tallies` says when the loop lets the counts go on. What
can go wrong is a list of tests on the batch before the tick, each for a place where the source
forgets a count or takes one too many; `loses` is their disjunction.
-/

namespace Nnemu

open Trigger

namespace Cpu

variable {σ ι : Type}

/-- The counters are the same, and so is the request for serialization. -/
structure SameTally (c c' : Cpu σ ι) : Prop extends c.SameCounters c' where
  serialized : c'.serialized = c.serialized

namespace SameTally

variable {c c' c'' : Cpu σ ι}

theorem refl (c : Cpu σ ι) : SameTally c c :=
  ⟨.refl c, rfl⟩

theorem trans (s : SameTally c c') (s' : SameTally c' c'') : SameTally c c'' :=
  ⟨s.toSameCounters.trans s'.toSameCounters, s'.serialized.trans s.serialized⟩

theorem withHart (f : Hart → Hart) (hf : (f c.hart).triggers.counters = c.hart.triggers.counters) :
    SameTally c (c.withHart f) :=
  ⟨.withHart hf, c.serialized_withHart f⟩

end SameTally

end Cpu

namespace Batch

open Nnemu.Core

variable {σ ι : Type} (core : Core σ ι) (b : Batch σ ι)

/-! ### What there is to count -/

/-- What `trigger_updated` finds: there is a count trigger that counts or is pending. -/
def needed : Bool :=
  b.cpu.hart.triggers.any icountCheckNeeded

/-- Does a count go on in the mode of the hart? -/
def counts : Bool :=
  !b.cpu.hart.debugMode && b.cpu.hart.triggers.any (isCounting (b.cpu.hart.matchEnv core.cfg))

/-- The triggers that fire before the next instruction in the mode of the hart. -/
def dues : Triggers :=
  if b.cpu.hart.debugMode then [] else b.cpu.hart.triggers.due (b.cpu.hart.matchEnv core.cfg)

/-! ### What a tick does about it -/

/-- The interrupt that the tick takes. -/
def interrupt : Option Trap :=
  match b.phase with
  | .head =>
    if b.n = 0#64 then none
    else
      match b.cpu.hart.takeInterrupt core.cfg b.cpu.hart.pendingInterrupts with
      | .throw t => some t
      | _ => none
  | _ => none

/-- Does the tick let the counts go on? -/
def tallies : Bool :=
  b.cpu.checkTriggersIcount && !b.cpu.hart.debugMode &&
    match b.phase with
    | .head => (b.interrupt core).isSome
    | .slow => !b.cpu.serialized && b.cpu.hart.singleStep != .stepped
    | _ => false

/-- The counters behind that. -/
def talliedCounters : List (Option Trigger) :=
  if b.tallies core then Triggers.tallied (b.cpu.hart.matchEnv core.cfg)
    b.cpu.hart.triggers.counters
  else b.cpu.hart.triggers.counters

/-- The action that a round of the slow loop takes instead of an instruction. -/
def fired : Option Action :=
  match b.phase with
  | .slow =>
    match b.slowTests core with
    | (_, .throw (.matched m)) => some m.action
    | _ => none
  | _ => none

/-- Does the instruction retire, or end in a trap? -/
def finishes : EStateM.Result Thrown (Cpu σ ι) Reg → Bool
  | .ok npc _ => npc != pcSerializeBefore
  | .error .debugMode _ => false
  | .error (.matched m) _ => m.action == .debugException
  | .error _ _ => true

/-- Does an instruction retire in the tick, or is a trap taken? -/
def completes : Bool :=
  match b.attempt core with
  | some (_, r) => finishes r
  | none => (b.interrupt core).isSome || b.fired core == some .debugException

/-! ### What goes wrong -/

/-- Do the triggers that are due disagree about their action? -/
def clash : Bool :=
  (b.dues core).any fun t => (b.dues core).any fun u => t.getAction != u.getAction

/-- An action gets lost: `take_interrupt` ignores what `detect_icount_match` finds, and of several
actions that finds the highest. -/
def drops : Bool :=
  b.tallies core && ((b.interrupt core).isSome && !(b.dues core).isEmpty || b.clash core)

/-- A request for serialization goes beyond the instruction that has made it, and the next one is
not counted: an interrupt is taken, or the loop gets to no instruction that takes it back. -/
def outlives : Bool :=
  b.cpu.serialized && ((b.interrupt core).isSome ||
    b.inner && !(b.fetched core).any fun x => core.serializes x.1)

/-- Does the instruction lead to debug mode instead? -/
def halts : EStateM.Result Thrown (Cpu σ ι) Reg → Bool
  | .error .debugMode _ => true
  | .error (.matched m) _ => m.action != .debugException
  | _ => false

/-- Something is counted that is neither an instruction nor a trap: the hart waits, or enters debug
mode. -/
def overcounts : Bool :=
  match b.attempt core with
  | some (_, r) => halts r
  | none => (b.waits core && !b.cpu.serialized) || (b.fired core).any (· != .debugException)

/-- A breakpoint exception follows the trap at once, in a mode in which a count goes on: a trigger
is set for the trap in the mode that it leads to, and has that action. -/
def breaks (h : Hart) (counters : List (Option Trigger)) (t : Trap) : Bool :=
  !h.debugMode && h.triggers.breaksAgain (h.trapEnv core.cfg t) t.cause &&
    counters.any fun c => c.any (isCounting (h.trapEnv core.cfg t))

/-- The second of two traps is not counted. An instruction may trap behind its write to a trigger
register; any other trap finds the triggers of the hart. -/
def undercounts : Bool :=
  match b.interrupt core with
  | some t => breaks core b.cpu.hart (b.talliedCounters core) t
  | none =>
    match b.attempt core with
    | some (_, .error (.trap t) _) =>
      match core.stranded (b.fetched core) with
      | some h => breaks core h h.triggers.counters t
      | none => breaks core b.cpu.hart (b.talliedCounters core) t
    | _ => false

/-- **The ticks that lose something.** -/
def loses : Bool :=
  b.drops core || (b.needed && b.outlives core) || (b.counts core && b.overcounts core) ||
    b.undercounts core

/-- Behind the trap there is a breakpoint trap, taken by the trigger that matches the first one, in
a mode in which a count goes on. -/
def retraps (t : Trap) : Bool :=
  (b.trapMatch core t).any (·.action == .debugException) &&
    (b.trapped core t).triggers.any (isCounting ((b.trapped core t).matchEnv core.cfg))

/-- Are two traps taken where one is counted? -/
def retrapped : Bool :=
  match b.interrupt core with
  | some t => (b.awake.countInterrupt core).retraps core t
  | none =>
    match b.attempt core with
    | some (_, .error (.trap t) c) => retraps core { b with cpu := c } t
    | _ => false

/-- **What a tick does about the counts.** -/
structure Tallied : Prop where
  /-- Counters tally before the instruction, and nothing but an instruction changes them
  otherwise. -/
  idle : b.attempt core = none → (b.tick core).cpu.hart.triggers.counters = b.talliedCounters core
  ran : ∀ {c r}, b.attempt core = some (c, r) → c.hart.triggers.counters = b.talliedCounters core ∧
    (b.tick core).cpu.hart.triggers.counters = (Exec.final r).hart.triggers.counters
  /-- They tally once for each instruction that retires and each trap that is taken. What has asked
  for serialization has been counted and is still to complete. -/
  exact : b.counts core = true →
    (b.tallies core).toNat + b.cpu.serialized.toNat = (b.completes core).toNat +
      (b.tick core).cpu.serialized.toNat
  /-- A trap that is taken is the only one. -/
  once : b.retrapped core = false
  /-- The instruction that has asked for serialization comes next. -/
  again : b.needed = true → b.cpu.serialized = true → match b.attempt core with
    | none => b.cpu.Undisturbed (b.tick core).cpu ∧ (b.tick core).phase = .slow
    | some _ => (b.tick core).cpu.serialized = false
  /-- No other instruction begins while a trigger is due. -/
  waits : b.dues core ≠ [] → b.cpu.serialized = false → b.attempt core = none
  /-- The tick that ends this takes the action. -/
  fires : ∀ t ∈ b.dues core, b.tallies core = true →
    ∃ b₁, Tested b b₁ ∧ b.tick core = b₁.catchMatched core ⟨.execute, 0#64, t.getAction⟩

variable {core : Core σ ι} {b b' : Batch σ ι}

/-! ### Ways out of the loops -/

/-- The end of the outer loop's body. -/
theorem tally_leave {c : Cpu σ ι} (s : c.SameTally b.cpu) : c.SameTally b.leave.cpu :=
  s.trans (.withHart (·.bump b.instret) rfl)

theorem tally_enterDebugMode (core : Core σ ι) (b : Batch σ ι) (cause : Reg) :
    b.cpu.SameTally (leave (b.withHart (·.enterDebugMode core.cfg cause))).cpu :=
  tally_leave (.withHart (·.enterDebugMode core.cfg cause)
    (congrArg Triggers.counters (Hart.triggers_enterDebugMode cause)))

/-- **A trap** lets no count go on. -/
theorem tally_catchTrap (core : Core σ ι) (b : Batch σ ι) (t : Trap) :
    b.cpu.SameTally (b.catchTrap core t).cpu := by
  unfold catchTrap
  extract_lets trapped b₁ found b₂
  have s₁ : b.cpu.SameTally b₁.cpu :=
    .withHart (fun h => h.takeTrap core.cfg t b.pc)
      (congrArg Triggers.counters (Hart.triggers_takeTrap t b.pc))
  have s₂ : b.cpu.SameTally b₂.cpu := s₁.trans
    (.withHart (fun h => { h with triggers := found.1 })
      (Triggers.counters_detectTrapMatch t.cause b₁.cpu.hart.triggers))
  split
  · rename_i m hm
    exact tally_leave
      (s₂.trans (.withHart (fun h => h.takeTriggerAction core.cfg m.action 0#64 h.pc)
      (congrArg Triggers.counters (Hart.triggers_takeTriggerAction m.action 0#64 _))))
  · split
    · exact tally_leave
        (s₂.trans
        (.withHart (fun h => { h with singleStep := .none }.enterDebugMode core.cfg dcsrCauseStep)
        (congrArg Triggers.counters (Hart.triggers_enterDebugMode _))))
    · exact tally_leave s₂

theorem tally_catchMatched (core : Core σ ι) (b : Batch σ ι) (m : Matched) :
    b.cpu.SameTally (b.catchMatched core m).cpu := by
  have hdrop : b.cpu.SameTally b.cpu.dropMatch := ⟨⟨rfl, rfl⟩, rfl⟩
  exact tally_leave
    (hdrop.trans (.withHart (fun h => h.takeTriggerAction core.cfg m.action m.address b.pc)
    (congrArg Triggers.counters (Hart.triggers_takeTriggerAction m.action m.address b.pc))))

theorem tally_catchWait (b : Batch σ ι) : b.cpu.SameTally b.catchWait.cpu :=
  tally_leave (.withHart (fun h => { h with inWfi := true }) rfl)

/-- **What is thrown** lets no count go on. -/
theorem tally_caught (core : Core σ ι) (b : Batch σ ι) (e : Thrown) :
    b.cpu.SameTally (b.caught core e).cpu := by
  cases e with
  | trap t => exact tally_catchTrap core b t
  | matched m => exact tally_catchMatched core b m
  | debugMode => exact tally_enterDebugMode core b dcsrCauseSwbp
  | waitForInterrupt => exact tally_catchWait b

/-- Neither does going on to the next instruction. -/
theorem tally_advance (b : Batch σ ι) {npc : Reg} (hne : npc ≠ pcSerializeBefore) (next : Phase ι) :
    b.cpu.SameTally (b.advance npc next).cpu := by
  rw [advance, if_neg hne]
  have hpc : b.cpu.SameTally (b.cpu.withHart fun h => { h with pc := npc }) :=
    .withHart (fun h => { h with pc := npc }) rfl
  split
  · split
    · exact tally_leave (b := { b with instret := b.instret + 1#64 }) (.refl b.cpu)
    · exact .withHart (·.abort) rfl
  · dsimp only
    split
    · exact hpc
    · exact tally_leave
        (b := { b.withHart fun h => { h with pc := npc } with pc := npc, instret :=
          b.instret + 1#64 }) hpc

theorem phase_caught (core : Core σ ι) (b : Batch σ ι) (e : Thrown) :
    (b.caught core e).phase = .head := by
  cases e with
  | trap t =>
    obtain ⟨c, -, heq⟩ := catchTrap_acted core b t
    rw [caught, heq]
    rfl
  | _ => rfl

/-! ### The tests of the slow loop -/

/-- What the tests at the head of a round do about the counts, where `tallies` says whether they let
them go on. -/
structure Decides (core : Core σ ι) (b : Batch σ ι) (tallies : Bool) (tested : Batch σ ι × Round) :
    Prop where
  counters : tested.1.cpu.hart.triggers.counters =
    if tallies then Triggers.tallied (b.cpu.hart.matchEnv core.cfg) b.cpu.hart.triggers.counters
    else b.cpu.hart.triggers.counters
  checkTriggersIcount : tested.1.cpu.checkTriggersIcount = b.cpu.checkTriggersIcount
  steps : tested.2 = .stepped → tallies = false
  passes : tested.2 = .execute ∨ tested.2 = .throw .waitForInterrupt → b.cpu.serialized = false →
    b.cpu.checkTriggersIcount = true → b.dues core = [] ∧
      (b.cpu.hart.debugMode = false → tallies = true)
  fires : ∀ {m}, tested.2 = .throw (.matched m) → tallies = true ∧
    ∀ t ∈ b.dues core, b.clash core = false → m = ⟨.execute, 0#64, t.getAction⟩

theorem stepOn_cases (b : Batch σ ι) :
    b.stepOn = b ∨ b.stepOn = b.withHart fun h => { h with singleStep := .stepped } := by
  rw [stepOn]
  split
  · exact .inr rfl
  · exact .inl rfl

/-- Triggers that do not clash have one action. -/
theorem agree_of_clash (h : b.clash core = false) {t : Trigger} (ht : t ∈ b.dues core) :
    ∀ u ∈ b.dues core, u.getAction = t.getAction := by
  intro u hu
  by_contra hne
  have hclash : b.clash core = true :=
    List.any_eq_true.2 ⟨u, hu, List.any_eq_true.2 ⟨t, ht, bne_iff_ne.2 hne⟩⟩
  rw [h] at hclash
  cases hclash

/-- **The tests behind the single-step test.** -/
theorem laterTests_decides (core : Core σ ι) (b : Batch σ ι) : Decides core b
    (!b.cpu.serialized && b.cpu.checkTriggersIcount && !b.cpu.hart.debugMode)
    (b.laterTests core) := by
  have hon : b.stepOn.cpu.hart.triggers = b.cpu.hart.triggers ∧
      b.stepOn.cpu.hart.matchEnv core.cfg = b.cpu.hart.matchEnv core.cfg ∧
        b.stepOn.cpu.serialized = b.cpu.serialized ∧
      b.stepOn.cpu.checkTriggersIcount = b.cpu.checkTriggersIcount := by
    obtain heq | heq := stepOn_cases b
    · rw [heq]
      exact ⟨rfl, rfl, rfl, rfl⟩
    · rw [heq, withHart, Cpu.hart_withHart, Cpu.serialized_withHart,
        Cpu.checkTriggersIcount_withHart]
      exact ⟨rfl, rfl, rfl, rfl⟩
  obtain ⟨htriggers, henv, hs, hflag⟩ := hon
  have hdebug : (b.cpu.hart.matchEnv core.cfg).debugMode = b.cpu.hart.debugMode := rfl
  rw [laterTests, icountMatch, hs, hflag, htriggers, henv]
  -- whether the icount triggers are asked at all
  cases htest : !b.cpu.serialized && b.cpu.checkTriggersIcount with
  | false =>
    rw [if_neg Bool.false_ne_true, Bool.false_and]
    have hnot : b.cpu.serialized = false → b.cpu.checkTriggersIcount = true →
        b.dues core = [] ∧ (b.cpu.hart.debugMode = false → false = true) := by
      intro hs hflag
      rw [hs, hflag] at htest
      cases htest
    dsimp only
    split
    · exact ⟨congrArg Triggers.counters htriggers, hflag, fun _ => rfl,
        fun _ => hnot, fun heq => by cases heq⟩
    · refine ⟨?_, ?_, fun _ => rfl, fun _ => hnot, fun heq => by cases heq⟩
      · rw [withHart, Cpu.hart_withHart]
        exact congrArg Triggers.counters htriggers
      · rw [withHart, Cpu.checkTriggersIcount_withHart]
        exact hflag
  | true =>
    rw [if_pos rfl, Bool.true_and]
    have hcounters :
      (b.cpu.hart.triggers.detectIcountMatch (b.cpu.hart.matchEnv core.cfg)).1.counters =
        if !b.cpu.hart.debugMode then Triggers.tallied
          (b.cpu.hart.matchEnv core.cfg) b.cpu.hart.triggers.counters
        else b.cpu.hart.triggers.counters := by
      rw [Triggers.counters_detectIcountMatch, hdebug]
      cases b.cpu.hart.debugMode <;> rfl
    -- none fired, so none was due, and in debug mode none is
    have hnone : (b.cpu.hart.triggers.detectIcountMatch (b.cpu.hart.matchEnv core.cfg)).2 = none →
        b.dues core = [] := by
      intro hnone
      rw [dues]
      cases hd : b.cpu.hart.debugMode with
      | true => rfl
      | false => exact Triggers.due_of_none (hdebug.trans hd) hnone
    -- one fired, and without a clash its action is that of every due trigger
    have hsome {m : MatchResult}
      (hm : (b.cpu.hart.triggers.detectIcountMatch (b.cpu.hart.matchEnv core.cfg)).2 = some m) :
        b.cpu.hart.debugMode = false ∧ ∀ t ∈ b.dues core, b.clash core = false →
          m.action = t.getAction := by
      cases hd : b.cpu.hart.debugMode with
      | true =>
        rw [Triggers.detectIcountMatch, hdebug, hd] at hm
        cases hm
      | false =>
        refine ⟨rfl, fun t ht hclash => ?_⟩
        have hall := agree_of_clash hclash ht
        rw [dues, hd, if_neg Bool.false_ne_true] at ht hall
        rw [Triggers.result_of_due (hdebug.trans hd) (List.ne_nil_of_mem ht) hall] at hm
        cases hm
        rfl
    generalize b.cpu.hart.triggers.detectIcountMatch (b.cpu.hart.matchEnv core.cfg) =
      found at hcounters hnone hsome
    obtain ⟨ts, found⟩ := found
    have hts : (b.stepOn.withHart fun h => { h with triggers := ts }).cpu.hart.triggers.counters =
        if !b.cpu.hart.debugMode then Triggers.tallied
          (b.cpu.hart.matchEnv core.cfg) b.cpu.hart.triggers.counters
        else b.cpu.hart.triggers.counters := by
      rw [withHart, Cpu.hart_withHart]
      exact hcounters
    have hkeep : (b.stepOn.withHart fun h => { h with triggers := ts }).cpu.checkTriggersIcount =
        b.cpu.checkTriggersIcount := by
      rw [withHart, Cpu.checkTriggersIcount_withHart]
      exact hflag
    have hgo (hd : b.cpu.hart.debugMode = false) : (!b.cpu.hart.debugMode) = true := by
      rw [hd]
      rfl
    cases found with
    | some m =>
      obtain ⟨hd, haction⟩ := hsome rfl
      refine ⟨hts, hkeep, fun heq => (by cases heq),
        fun heq => (by obtain heq | heq := heq <;> cases heq), fun heq => ?_⟩
      cases heq
      exact ⟨by rw [hd]; rfl, fun t ht hclash => by rw [haction t ht hclash]⟩
    | none =>
      dsimp only
      split
      · exact ⟨hts, hkeep, fun heq => (by cases heq), fun _ _ _ => ⟨hnone rfl, hgo⟩,
          fun heq => by cases heq⟩
      · refine ⟨?_, ?_, fun heq => (by cases heq), fun _ _ _ => ⟨hnone rfl, hgo⟩,
          fun heq => by cases heq⟩
        · rw [withHart, Cpu.hart_withHart]
          exact hts
        · rw [withHart, Cpu.checkTriggersIcount_withHart]
          exact hkeep

/-- **The tests of the slow loop.** -/
theorem slowTests_decides (core : Core σ ι) (b : Batch σ ι) (hphase : b.phase = .slow) :
    Decides core b (b.tallies core) (b.slowTests core) := by
  have htallies : b.tallies core = (b.cpu.checkTriggersIcount && !b.cpu.hart.debugMode &&
      (!b.cpu.serialized && b.cpu.hart.singleStep != .stepped)) := by
    rw [tallies, hphase]
  rw [slowTests]
  cases hdone : b.stepDone with
  | false =>
    -- the step is not done, and the rest of the tests decides
    have heq : b.tallies core =
        (!b.cpu.serialized && b.cpu.checkTriggersIcount && !b.cpu.hart.debugMode) := by
      rw [stepDone] at hdone
      rw [htallies]
      cases hs : b.cpu.serialized with
      | true => simp
      | false =>
        rw [hs] at hdone
        have hne : (b.cpu.hart.singleStep != .stepped) = true := by
          rw [bne, ← Bool.true_and (b.cpu.hart.singleStep == .stepped)]
          exact congrArg (!·) hdone
        rw [hne]
        simp
    rw [if_neg Bool.false_ne_true, heq]
    exact laterTests_decides core b
  | true =>
    rw [stepDone, Bool.and_eq_true, Bool.not_eq_true', beq_iff_eq] at hdone
    obtain ⟨hs, hstepped⟩ := hdone
    -- a finished step enters debug mode before the triggers are counted
    have hfalse : b.tallies core = false := by
      rw [htallies, hstepped]
      simp
    rw [if_pos rfl, hfalse]
    dsimp only
    have hhart : (b.withHart fun h => { h with singleStep := .none }).cpu.hart =
        { b.cpu.hart with singleStep := .none } := by
      rw [withHart, Cpu.hart_withHart]
    have hflag : (b.withHart fun h => { h with singleStep := .none }).cpu.checkTriggersIcount =
        b.cpu.checkTriggersIcount := by
      rw [withHart, Cpu.checkTriggersIcount_withHart]
    cases hd : b.cpu.hart.debugMode with
    | false =>
      have hd₁ : (b.withHart fun h => { h with singleStep := .none }).cpu.hart.debugMode =
          false := by
        rw [hhart]
        exact hd
      rw [hd₁, Bool.not_false, if_pos rfl]
      refine ⟨?_, hflag, fun _ => rfl, fun heq => (by obtain heq | heq := heq <;> cases heq),
        fun heq => by cases heq⟩
      rw [hhart]
      rfl
    | true =>
      have hd₁ : (b.withHart fun h => { h with singleStep := .none }).cpu.hart.debugMode =
          true := by
        rw [hhart]
        exact hd
      have hlater := laterTests_decides core (b.withHart fun h => { h with singleStep := .none })
      rw [hd₁, Bool.not_true, Bool.and_false] at hlater
      rw [hd₁, if_neg (by decide)]
      refine ⟨?_, hlater.checkTriggersIcount.trans hflag, fun _ => rfl,
        fun _ _ _ => ⟨?_, fun hfalse => ?_⟩, fun heq => ?_⟩
      · rw [hlater.counters, hhart]
        rfl
      · rw [dues, hd]
        rfl
      · rw [hd] at hfalse
        cases hfalse
      · obtain ⟨htrue, -⟩ := hlater.fires heq
        cases htrue

end Batch

end Nnemu

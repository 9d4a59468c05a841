import Nnemu.Trigger.Actions

/-!
# Counts

What a detection does to all count triggers at once. The `hit` bits and the values for reads, which
only tell of the past, are left out of a counter. A detection outside debug mode lets every counter
tally that matches the mode, and its result is the action of the counters that are due, where these
agree about it. Nothing else that triggers do concerns the counters.

A counter is a count trigger with its history removed. `detect_icount_match` acts on counters alone:
which of them match the mode, what their counts become, and which are pending. The agreement about
the action is needed because the source takes the highest action of all that fire.
-/

namespace Nnemu

namespace Trigger

/-- A count trigger without what tells of the past. -/
def counter (t : Trigger) : Option Trigger :=
  match t.body with
  | .icount f => some
    { t with
      body := .icount { f with hit := false, countReadValue := 0#32, pendingReadValue := false } }
  | _ => none

/-- An instruction is counted. The last one makes the trigger pending, and a match that was pending
is over. -/
def tally (t : Trigger) : Trigger :=
  match t.body with
  | .icount f =>
    { t with body := .icount { f with
        pending := f.count == 1#32
        count := if 1#32 ≤ f.count then f.count - 1#32 else f.count } }
  | _ => t

/-- The count goes on in this mode. -/
def isCounting (env : MatchEnv) (t : Trigger) : Bool :=
  match t.body with
  | .icount f => 1#32 ≤ f.count && t.commonMatch env
  | _ => false

/-- The trigger fires before the next instruction in this mode. -/
def isDue (env : MatchEnv) (t : Trigger) : Bool :=
  match t.body with
  | .icount f => f.pending && t.commonMatch env
  | _ => false

variable {env : MatchEnv} {t : Trigger}

/-! ### One trigger -/

theorem counter_of_icount {f : Icount} (h : t.body = .icount f) : t.counter =
    some { t with
      body := .icount { f with hit := false, countReadValue := 0#32, pendingReadValue := false }
        } := by
  rw [counter, h]

theorem counter_stashReadValues (t : Trigger) : t.stashReadValues.counter = t.counter := by
  cases t with
  | mk tdata2 vs vu m s u sselect svalue sbytemask mhselect mhvalue body => cases body <;> rfl

/-- **Detecting counts.** -/
theorem counter_detectIcountMatch (t : Trigger) : (t.detectIcountMatch env).1.counter =
    t.counter.map fun c => if c.commonMatch env then c.tally else c := by
  rw [detectIcountMatch]
  cases hbody : t.body with
  | icount f =>
    rw [counter_of_icount hbody, Option.map_some]
    have hmatch : Trigger.commonMatch env
        { t with
          body :=
          .icount { f with hit := false, countReadValue := 0#32, pendingReadValue := false } } =
        t.commonMatch env := rfl
    rw [hmatch]
    dsimp only
    cases t.commonMatch env with
    | true => rfl
    | false => exact counter_of_icount hbody
  | _ =>
    have hnone : t.counter = none := by rw [counter, hbody]
    rw [hnone]
    rfl

/-- A trigger that is due gives its action. -/
theorem result_detectIcountMatch (t : Trigger) :
    (t.detectIcountMatch env).2 = if t.isDue env then some ⟨.before, t.getAction⟩ else none := by
  rw [detectIcountMatch]
  cases hbody : t.body with
  | icount f =>
    have hdue : t.isDue env = (f.pending && t.commonMatch env) := by rw [isDue, hbody]
    have haction : t.getAction = f.action := by rw [getAction, hbody]
    rw [hdue, haction]
    dsimp only
    cases t.commonMatch env with
    | true => rw [Bool.and_true, if_pos rfl]
    | false => rw [Bool.and_false, if_neg Bool.false_ne_true, if_neg Bool.false_ne_true]
  | _ =>
    have hdue : t.isDue env = false := by rw [isDue, hbody]
    rw [hdue, if_neg Bool.false_ne_true]

theorem counter_eraseHit (t : Trigger) : t.eraseHit.counter = t.counter := by
  cases t with
  | mk tdata2 vs vu m s u sselect svalue sbytemask mhselect mhvalue body => cases body <;> rfl

theorem counter_detectTrapMatch (cause : Reg) (t : Trigger) :
    (t.detectTrapMatch env cause).1.counter = t.counter := by
  unfold detectTrapMatch
  dsimp only
  split
  · cases hbody : t.body with
    | itrigger f nmi => rw [counter, counter, hbody]
    | etrigger f => rw [counter, counter, hbody]
    | _ => rfl
  · rfl

/-- What counts, and what is due, is to be checked for. -/
theorem needed_of_isCounting (t : Trigger) (h : t.isCounting env = true) :
    t.icountCheckNeeded = true := by
  rw [isCounting] at h
  cases hbody : t.body with
  | icount f =>
    rw [hbody] at h
    rw [Bool.and_eq_true, decide_eq_true_eq] at h
    have hpos : 0#32 < f.count := by
      have hle := h.1
      rw [BitVec.le_def] at hle
      rw [BitVec.lt_def]
      exact hle
    have hneeded : t.icountCheckNeeded = (0#32 < f.count || f.pending) :=
      by rw [icountCheckNeeded, hbody]
    rw [hneeded, decide_eq_true hpos, Bool.true_or]
  | _ =>
    rw [hbody] at h
    cases h

theorem needed_of_isDue (t : Trigger) (h : t.isDue env = true) : t.icountCheckNeeded = true := by
  rw [isDue] at h
  cases hbody : t.body with
  | icount f =>
    rw [hbody] at h
    rw [Bool.and_eq_true] at h
    have hneeded : t.icountCheckNeeded = (0#32 < f.count || f.pending) :=
      by rw [icountCheckNeeded, hbody]
    rw [hneeded, h.1, Bool.or_true]
  | _ =>
    rw [hbody] at h
    cases h

theorem isDue_stashReadValues (t : Trigger) : t.stashReadValues.isDue env = t.isDue env := by
  cases t with
  | mk tdata2 vs vu m s u sselect svalue sbytemask mhselect mhvalue body => cases body <;> rfl

end Trigger

namespace Triggers

open Trigger

variable {env : MatchEnv}

/-! ### All triggers -/

/-- The counters among the triggers. -/
def counters (ts : Triggers) : List (Option Trigger) :=
  ts.map counter

/-- Counters tally in a mode. -/
def tallied (env : MatchEnv) (cs : List (Option Trigger)) : List (Option Trigger) :=
  cs.map (Option.map fun c => if c.commonMatch env then c.tally else c)

/-- The triggers that fire in this mode. -/
def due (env : MatchEnv) (ts : Triggers) : Triggers :=
  ts.filter (isDue env)

theorem counters_stash (ts : Triggers) :
    Triggers.counters (ts.map stashReadValues) = ts.counters := by
  rw [counters, counters, List.map_map]
  exact List.map_congr_left fun t _ => counter_stashReadValues t

/-- The loop that keeps the highest action changes each trigger by itself. -/
theorem detectBest_fst (detect : Trigger → Trigger × Option MatchResult) (ts : Triggers) : ∀ ret,
    (detectBest detect ret ts).1 = ts.map fun t => (detect t).1 := by
  induction ts with
  | nil => exact fun ret => rfl
  | cons t ts ih =>
    intro ret
    rw [detectBest, List.map_cons]
    dsimp only
    rw [ih]

/-- **Counting** outside debug mode. -/
theorem counters_detectIcountMatch (ts : Triggers) : (ts.detectIcountMatch env).1.counters =
    if env.debugMode then ts.counters else tallied env ts.counters := by
  rw [detectIcountMatch]
  cases env.debugMode with
  | true => exact counters_stash ts
  | false =>
    have hmap (us : Triggers) : Triggers.counters (us.map fun t => (t.detectIcountMatch env).1) =
        tallied env us.counters := by
      rw [counters, tallied, counters, List.map_map, List.map_map]
      exact List.map_congr_left fun t _ => counter_detectIcountMatch t
    rw [if_neg Bool.false_ne_true, if_neg Bool.false_ne_true, detectBest_fst, hmap, counters_stash]

/-- A `hit` bit is no part of a counter. -/
theorem counters_of_eraseHit {ts us : Triggers} (h : us.map eraseHit = ts.map eraseHit) :
    us.counters = ts.counters := by
  have hmap (ts : Triggers) : ts.counters = (ts.map eraseHit).map counter := by
    rw [counters, List.map_map]
    exact List.map_congr_left fun t _ => (counter_eraseHit t).symm
  rw [hmap us, hmap ts, h]

/-- **Matching a trap** concerns none either. -/
theorem counters_detectTrapMatch (cause : Reg) (ts : Triggers) :
    (ts.detectTrapMatch env cause).1.counters = ts.counters := by
  rw [detectTrapMatch]
  split
  · rfl
  · rw [detectBest_fst, counters, counters, List.map_map]
    exact List.map_congr_left fun t _ => counter_detectTrapMatch cause t

/-! ### What fires -/

/-- The loop finds nothing among triggers that are not due, their action where those that are agree
about it, and something in any case where one is due. -/
theorem detectBest_due (ts : Triggers) : ∀ ret : Option MatchResult,
    (due env ts = [] → (detectBest (·.detectIcountMatch env) ret ts).2 = ret) ∧
      (∀ action, (∀ t ∈ due env ts, t.getAction = action) → due env ts ≠ [] ∧
        ret = none ∨ ret = some ⟨.before, action⟩ →
        (detectBest (·.detectIcountMatch env) ret ts).2 = some ⟨.before, action⟩) ∧
      (ret.isSome = true ∨ due env ts ≠ [] →
        (detectBest (·.detectIcountMatch env) ret ts).2.isSome = true) := by
  induction ts with
  | nil =>
    refine fun ret => ⟨fun _ => rfl, fun action _ h => ?_,
      fun h => h.resolve_right fun hne => hne rfl⟩
    exact h.resolve_left fun hne => hne.1 rfl
  | cons t ts ih =>
    intro ret
    rw [detectBest]
    dsimp only
    rw [result_detectIcountMatch, due]
    cases hdue : t.isDue env with
    | false =>
      rw [List.filter_cons_of_neg (by rw [hdue]; exact Bool.false_ne_true),
        if_neg Bool.false_ne_true]
      have hkeep : (if better ret none then none else ret) = ret := by
        cases ret <;> rfl
      rw [hkeep]
      exact ih ret
    | true =>
      rw [List.filter_cons_of_pos hdue, if_pos rfl]
      obtain ⟨hnone, hsame, hsome⟩ :=
        ih (if better ret (some ⟨.before, t.getAction⟩) then some ⟨.before, t.getAction⟩ else ret)
      refine ⟨fun h => (by cases h), fun action hall hret => ?_, fun _ => hsome (Or.inl ?_)⟩
      · obtain rfl := hall t List.mem_cons_self
        refine hsame t.getAction (fun u hu => hall u (List.mem_cons_of_mem t hu)) (.inr ?_)
        obtain ⟨-, rfl⟩ | rfl := hret
        · rfl
        · rw [better, decide_eq_false (Nat.lt_irrefl _)]
          rfl
      · cases ret with
        | none => rfl
        | some r =>
          split
          · rfl
          · rfl

/-- Stashing changes nothing about what is due. -/
theorem due_stash (ts : Triggers) : due env (ts.map stashReadValues) =
    (due env ts).map stashReadValues := by
  rw [due, due, List.filter_map]
  congr 1
  exact List.filter_congr fun t _ => isDue_stashReadValues t

/-- A detection that finds nothing has nothing due. -/
theorem due_of_none {ts : Triggers} (hdebug : env.debugMode = false)
    (h : (ts.detectIcountMatch env).2 = none) :
    due env ts = [] := by
  by_contra hne
  rw [detectIcountMatch, hdebug, if_neg Bool.false_ne_true] at h
  have hsome : (detectBest (·.detectIcountMatch env) none (ts.map stashReadValues)).2.isSome =
      true := by
    refine (detectBest_due (ts.map stashReadValues) none).2.2 (Or.inr ?_)
    rw [due_stash]
    exact fun hnil => hne (List.map_eq_nil_iff.1 hnil)
  rw [h] at hsome
  cases hsome

/-- **The triggers that are due** agree about their action, and it is found. -/
theorem result_of_due {ts : Triggers} {action : Action} (hdebug : env.debugMode = false)
    (hne : due env ts ≠ [])
    (hall : ∀ t ∈ due env ts, t.getAction = action) :
    (ts.detectIcountMatch env).2 = some ⟨.before, action⟩ := by
  rw [detectIcountMatch, hdebug, if_neg Bool.false_ne_true]
  refine (detectBest_due (ts.map stashReadValues) none).2.1 action (fun t ht => ?_) (.inl ⟨?_, rfl⟩)
  · rw [due_stash] at ht
    obtain ⟨u, hu, rfl⟩ := List.mem_map.1 ht
    rw [getAction_stashReadValues]
    exact hall u hu
  · rw [due_stash]
    exact fun hnil => hne (List.map_eq_nil_iff.1 hnil)

/-! ### What is to be counted -/

/-- A counter that counts or is pending is one that `icount_check_needed` finds. -/
theorem any_icountCheckNeeded (ts : Triggers) :
    ts.any icountCheckNeeded = ts.counters.any fun c => c.any icountCheckNeeded := by
  have hone (t : Trigger) : t.icountCheckNeeded = t.counter.any icountCheckNeeded := by
    cases t with
    | mk tdata2 vs vu m s u sselect svalue sbytemask mhselect mhvalue body => cases body <;> rfl
  rw [counters, List.any_map]
  exact congrArg (List.any ts) (funext hone)

/-- A count goes on where a counter is counting. -/
theorem any_isCounting (ts : Triggers) :
    ts.any (isCounting env) = ts.counters.any fun c => c.any (isCounting env) := by
  have hone (t : Trigger) : t.isCounting env = t.counter.any (isCounting env) := by
    cases hbody : t.body with
    | icount f =>
      rw [counter_of_icount hbody, isCounting, hbody]
      rfl
    | _ => rw [isCounting, counter, hbody, Option.any_none]
  rw [counters, List.any_map]
  exact congrArg (List.any ts) (funext hone)

theorem needed_of_tally (c : Trigger) (h : c.tally.icountCheckNeeded = true) :
    c.icountCheckNeeded = true := by
  cases hbody : c.body with
  | icount f =>
    have hneeded : c.icountCheckNeeded = (0#32 < f.count || f.pending) :=
      by rw [icountCheckNeeded, hbody]
    have htally : c.tally.icountCheckNeeded =
        (0#32 < (if 1#32 ≤ f.count then f.count - 1#32 else f.count) || f.count == 1#32) := by
      rw [tally, hbody]
      rfl
    rw [htally] at h
    rw [hneeded]
    by_cases hzero : f.count = 0#32
    · rw [hzero] at h
      exact absurd h (by decide)
    · have hpos : 0#32 < f.count := by
        rw [BitVec.lt_def]
        exact Nat.pos_of_ne_zero fun heq => hzero (BitVec.eq_of_toNat_eq heq)
      rw [Bool.or_eq_true]
      exact Or.inl (decide_eq_true hpos)
  | _ =>
    have htally : c.tally = c := by rw [tally, hbody]
    rw [htally] at h
    exact h

/-- Counting leaves nothing to be counted where there was nothing. -/
theorem needed_of_tallied {cs : List (Option Trigger)}
    (h : (tallied env cs).any (fun c => c.any icountCheckNeeded) = true) :
    cs.any (fun c => c.any icountCheckNeeded) = true := by
  obtain ⟨c, hc, hneeded⟩ := List.any_eq_true.1 h
  obtain ⟨o, ho, rfl⟩ := List.mem_map.1 hc
  refine List.any_eq_true.2 ⟨o, ho, ?_⟩
  cases o with
  | none => exact hneeded
  | some c =>
    rw [Option.map_some, Option.any_some] at hneeded
    rw [Option.any_some]
    split at hneeded
    · exact needed_of_tally c hneeded
    · exact hneeded

end Triggers

end Nnemu

import Nnemu.Trigger.Icount

/-!
# Triggers on traps

`module_t::detect_trap_match` looks for the highest action among the triggers that are set for a
trap. So it finds the breakpoint exception exactly where some trigger is set for the trap, and all
that are have that action (`Triggers.breaksAgain`). This depends on the interrupt and exception
triggers without their `hit` bits only (`Triggers.trapTriggers`), and these stay as they are where
accesses are matched or counts go on.
-/

namespace Nnemu

namespace Trigger

/-- A trigger on traps, without its `hit` bit. -/
def trapTrigger (t : Trigger) : Option Trigger :=
  match t.body with
  | .itrigger f nmi => some { t with body := .itrigger { f with hit := false } nmi }
  | .etrigger f => some { t with body := .etrigger { f with hit := false } }
  | _ => none

/-- The trigger is set for traps with this cause, in this mode. -/
def catches (env : MatchEnv) (cause : Reg) (t : Trigger) : Bool :=
  let interruptBit : Reg := 1#64 <<< (env.xlen.bits - 1)
  t.commonMatch env &&
    t.trapSimpleMatch (hasBits cause interruptBit) (cause &&& ~~~interruptBit).toNat

variable {env : MatchEnv} {cause : Reg}

/-- A trigger that is set for the trap gives its action. -/
theorem result_detectTrapMatch (t : Trigger) :
    (t.detectTrapMatch env cause).2 =
      if t.catches env cause then some ⟨.after, t.getAction⟩ else none := by
  rw [detectTrapMatch, catches]
  split
  · rename_i hset
    rw [Bool.and_eq_true] at hset
    cases hbody : t.body with
    | itrigger f nmi => rw [getAction, hbody]
    | etrigger f => rw [getAction, hbody]
    | _ =>
      have hno := hset.2
      rw [trapSimpleMatch, hbody] at hno
      cases hno
  · rfl

/-- Only triggers on traps are set for one, whatever their `hit` bits. -/
theorem catches_eq (t : Trigger) :
    t.catches env cause = t.trapTrigger.any (catches env cause) := by
  cases hbody : t.body with
  | itrigger f nmi =>
    rw [trapTrigger, hbody, catches, trapSimpleMatch, hbody]
    rfl
  | etrigger f =>
    rw [trapTrigger, hbody, catches, trapSimpleMatch, hbody]
    rfl
  | _ =>
    rw [trapTrigger, hbody, catches, trapSimpleMatch, hbody]
    exact Bool.and_false _

theorem getAction_trapTrigger {t u : Trigger} (h : t.trapTrigger = some u) :
    u.getAction = t.getAction := by
  rw [trapTrigger] at h
  cases hbody : t.body with
  | itrigger f nmi =>
    rw [hbody] at h
    cases h
    rw [getAction, getAction, hbody]
  | etrigger f =>
    rw [hbody] at h
    cases h
    rw [getAction, getAction, hbody]
  | _ =>
    rw [hbody] at h
    cases h

theorem trapTrigger_eraseHit (t : Trigger) : t.eraseHit.trapTrigger = t.trapTrigger := by
  cases t with
  | mk tdata2 vs vu m s u sselect svalue sbytemask mhselect mhvalue body => cases body <;> rfl

theorem trapTrigger_stashReadValues (t : Trigger) :
    t.stashReadValues.trapTrigger = t.trapTrigger := by
  cases t with
  | mk tdata2 vs vu m s u sselect svalue sbytemask mhselect mhvalue body => cases body <;> rfl

theorem trapTrigger_detectIcountMatch (t : Trigger) :
    (t.detectIcountMatch env).1.trapTrigger = t.trapTrigger := by
  rw [detectIcountMatch]
  cases hbody : t.body with
  | icount f =>
    dsimp only
    split
    · rw [trapTrigger, trapTrigger, hbody]
    · rfl
  | _ => rfl

end Trigger

namespace Triggers

open Trigger

/-- The triggers on traps, without their `hit` bits. -/
def trapTriggers (ts : Triggers) : List (Option Trigger) :=
  ts.map trapTrigger

/-- A breakpoint exception follows the trap: a trigger is set for it, and none with a higher
action. -/
def breaksAgain (env : MatchEnv) (cause : Reg) (ts : Triggers) : Bool :=
  ts.any (catches env cause) &&
    ts.all fun t => !t.catches env cause || t.getAction == .debugException

variable {env : MatchEnv} {cause : Reg} {ts us : Triggers}

/-- The loop ends with the breakpoint exception where it has found nothing else on its way. -/
theorem detectBest_trap (ts : Triggers) : ∀ ret : Option MatchResult,
    (detectBest (·.detectTrapMatch env cause) ret ts).2.any (·.action == .debugException) =
      ((ret.isSome || ts.any (catches env cause)) && ret.all (·.action == .debugException) &&
        ts.all fun t => !t.catches env cause || t.getAction == .debugException) := by
  have hexc (a : Action) : (a == .debugException) = decide (a = .debugException) := by
    cases a <;> rfl
  induction ts with
  | nil =>
    intro ret
    cases ret with
    | none => rfl
    | some r => simp [detectBest]
  | cons t ts ih =>
    intro ret
    rw [detectBest]
    dsimp only
    rw [ih, result_detectTrapMatch, List.any_cons, List.all_cons]
    cases t.catches env cause with
    | false =>
      have hkeep : (if better ret none then none else ret) = ret := by
        cases ret <;> rfl
      rw [if_neg Bool.false_ne_true, hkeep, Bool.false_or, Bool.not_false,
        Bool.true_or, Bool.true_and]
    | true =>
      rw [if_pos rfl]
      cases ret with
      | none => simp [better]
      | some r =>
        -- the action that is kept is the breakpoint exception when both are
        obtain ⟨timing, action⟩ := r
        cases action <;> cases t.getAction <;> simp [better, Action.toNat, hexc]

/-- **What a detection finds.** -/
theorem any_detectTrapMatch (hdebug : env.debugMode = false) (ts : Triggers) :
    (ts.detectTrapMatch env cause).2.any (·.action == .debugException) =
      ts.breaksAgain env cause := by
  rw [detectTrapMatch, hdebug, if_neg Bool.false_ne_true, detectBest_trap, breaksAgain]
  simp

/-- It depends on the triggers on traps only. -/
theorem breaksAgain_congr (h : us.trapTriggers = ts.trapTriggers) :
    us.breaksAgain env cause = ts.breaksAgain env cause := by
  have hany (ts : Triggers) : ts.any (catches env cause) =
      ts.trapTriggers.any fun t => t.any (catches env cause) := by
    rw [trapTriggers, List.any_map]
    exact congrArg (List.any ts) (funext catches_eq)
  have hall (ts : Triggers) :
      (ts.all fun t => !t.catches env cause || t.getAction == .debugException) =
        ts.trapTriggers.all fun t =>
          t.all fun u => !u.catches env cause || u.getAction == .debugException := by
    rw [trapTriggers, List.all_map]
    refine congrArg (List.all ts) (funext fun t => ?_)
    rw [catches_eq t]
    cases ht : t.trapTrigger with
    | none =>
      rw [Function.comp_apply, ht]
      rfl
    | some u =>
      rw [Function.comp_apply, ht, ← getAction_trapTrigger ht]
      rfl
  rw [breaksAgain, breaksAgain, hany us, hany ts, hall us, hall ts, h]

/-! ### What leaves them alone -/

theorem trapTriggers_of_eraseHit (h : us.map eraseHit = ts.map eraseHit) :
    us.trapTriggers = ts.trapTriggers := by
  have hmap (ts : Triggers) : ts.trapTriggers = (ts.map eraseHit).map trapTrigger := by
    rw [trapTriggers, List.map_map]
    exact List.map_congr_left fun t _ => (trapTrigger_eraseHit t).symm
  rw [hmap us, hmap ts, h]

/-- **Counting** leaves the triggers on traps alone. -/
theorem trapTriggers_detectIcountMatch (ts : Triggers) :
    (ts.detectIcountMatch env).1.trapTriggers = ts.trapTriggers := by
  have hstash (ts : Triggers) :
      Triggers.trapTriggers (ts.map stashReadValues) = ts.trapTriggers := by
    rw [trapTriggers, trapTriggers, List.map_map]
    exact List.map_congr_left fun t _ => trapTrigger_stashReadValues t
  rw [detectIcountMatch]
  split
  · exact hstash ts
  · rw [detectBest_fst, trapTriggers, List.map_map, ← hstash ts]
    exact List.map_congr_left fun t _ => trapTrigger_detectIcountMatch t

end Triggers

end Nnemu

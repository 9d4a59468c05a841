import Nnemu.Trigger.Match

/-!
# Triggers on counts and traps

`detect_icount_match` and `detect_trap_match` of `triggers.cc`. A count trigger fires one
instruction after its count has run out: the detection that finds the count at 1 makes it pending,
the next one fires. What is left of all counts (`Triggers.countdown`) never grows by a detection,
and gets less when one fires.

A detection goes through the triggers in order, and each of them is changed by its own rule. So the
lists before and after are compared entry by entry, and the sum over the list decides about the
measure.
-/

namespace Nnemu

namespace Trigger

variable (env : MatchEnv) (t : Trigger)

/-! ### Counts -/

/-- `stash_read_values` -/
def stashReadValues : Trigger :=
  match t.body with
  | .icount f =>
    { t with body := .icount { f with countReadValue := f.count, pendingReadValue := f.pending } }
  | _ => t

/-- The fields of a count trigger after `detect_icount_match` in a mode it is for. -/
def Icount.detected (f : Icount) : Icount :=
  { f with
    hit := f.hit || f.pending
    pending := f.count == 1#32
    count := if 1#32 ≤ f.count then f.count - 1#32 else f.count }

/-- `detect_icount_match` of one trigger: the trigger afterwards, and the result. -/
def detectIcountMatch : Trigger × Option MatchResult :=
  match t.body with
  | .icount f =>
    if t.commonMatch env then
      ({ t with body := .icount f.detected }, if f.pending then some ⟨.before, f.action⟩ else none)
    else (t, none)
  | _ => (t, none)

/-! ### Traps -/

/-- `simple_match` of `itrigger_t` and `etrigger_t` -/
def trapSimpleMatch (interrupt : Bool) (bit : Nat) : Bool :=
  match t.body with
  | .itrigger _ nmi => interrupt && ((bit == 0 && nmi) || t.tdata2.getLsbD bit)
  | .etrigger _ => !interrupt && t.tdata2.getLsbD bit
  | _ => false

/-- `detect_trap_match` of one trigger, for a trap with this cause. -/
def detectTrapMatch (cause : Reg) : Trigger × Option MatchResult :=
  let interruptBit : Reg := 1#64 <<< (env.xlen.bits - 1)
  let interrupt := hasBits cause interruptBit
  let bit := (cause &&& ~~~interruptBit).toNat
  if t.commonMatch env && t.trapSimpleMatch interrupt bit then
    match t.body with
    | .itrigger f nmi => ({ t with body := .itrigger { f with hit := true } nmi },
      some ⟨.after, f.action⟩)
    | .etrigger f => ({ t with body := .etrigger { f with hit := true } }, some ⟨.after, f.action⟩)
    | _ => (t, none)
  else (t, none)

end Trigger

namespace Triggers

open Trigger

variable (env : MatchEnv) (ts : Triggers)

/-- The loop over the triggers that keeps the result with the highest action. -/
def detectBest (detect : Trigger → Trigger × Option MatchResult) : Option MatchResult → Triggers →
    Triggers × Option MatchResult
  | ret, [] => ([], ret)
  | ret, t :: ts =>
    let found := detect t
    let rest := detectBest detect (if better ret found.2 then found.2 else ret) ts
    (found.1 :: rest.1, rest.2)

/-- `module_t::detect_icount_match` -/
def detectIcountMatch : Triggers × Option MatchResult :=
  let ts := ts.map stashReadValues
  if env.debugMode then (ts, none) else detectBest (·.detectIcountMatch env) none ts

/-- `module_t::detect_trap_match` -/
def detectTrapMatch (cause : Reg) : Triggers × Option MatchResult :=
  if env.debugMode then (ts, none) else detectBest (·.detectTrapMatch env cause) none ts

end Triggers

/-! ### What is left of the counts -/

/-- How often a trigger can still fire because of its count. -/
def Trigger.countdown (t : Trigger) : Nat :=
  match t.body with
  | .icount f => f.count.toNat + f.pending.toNat
  | _ => 0

/-- How often the triggers can still fire because of their counts. -/
def Triggers.countdown : Triggers → Nat
  | [] => 0
  | t :: ts => t.countdown + Triggers.countdown ts

namespace Trigger

variable {env : MatchEnv} {t : Trigger}

theorem countdown_stashReadValues (t : Trigger) : t.stashReadValues.countdown = t.countdown := by
  cases t with
  | mk tdata2 vs vu m s u sselect svalue sbytemask mhselect mhvalue body => cases body <;> rfl

/-- A detection uses up a pending match, and turns the last count into one. -/
theorem countdown_detected (f : Icount) :
    f.detected.count.toNat + f.detected.pending.toNat + f.pending.toNat ≤
      f.count.toNat + f.pending.toNat := by
  have hlt := f.count.isLt
  unfold Icount.detected
  dsimp only
  by_cases h1 : f.count = 1#32
  · rw [h1, if_pos (by decide)]
    show 0 + 1 + f.pending.toNat ≤ 1 + f.pending.toNat
    omega
  · rw [beq_eq_false_iff_ne.2 h1]
    split
    · simp only [BitVec.toNat_sub, BitVec.toNat_ofNat, Bool.toNat_false]
      rename_i hle
      have hle : 1 ≤ f.count.toNat := hle
      omega
    · simp only [Bool.toNat_false]
      omega

/-- **A detection counts down**, by one more where it fires. -/
theorem countdown_detectIcountMatch (t : Trigger) :
    (t.detectIcountMatch env).1.countdown + (t.detectIcountMatch env).2.isSome.toNat ≤
      t.countdown := by
  rw [detectIcountMatch, countdown.eq_def t]
  cases hbody : t.body with
  | icount f =>
    dsimp only
    split
    · have hf := countdown_detected f
      show f.detected.count.toNat + f.detected.pending.toNat + _ ≤ _
      cases hp : f.pending with
      | true => rw [hp] at hf; exact hf
      | false => rw [hp] at hf; exact hf
    · rw [countdown, hbody]
      exact Nat.le_refl _
  | _ => rw [countdown, hbody]; exact Nat.le_refl _

end Trigger

namespace Triggers

open Trigger

variable {env : MatchEnv}

theorem countdown_stash (ts : Triggers) :
    Triggers.countdown (ts.map stashReadValues) = ts.countdown := by
  induction ts with
  | nil => rfl
  | cons t ts ih => rw [List.map_cons, countdown, countdown, countdown_stashReadValues, ih]

theorem countdown_detectBest (ts : Triggers) : ∀ ret,
    (detectBest (·.detectIcountMatch env) ret ts).1.countdown ≤ ts.countdown ∧
      (ret = none → (detectBest (·.detectIcountMatch env) ret ts).2.isSome = true →
        (detectBest (·.detectIcountMatch env) ret ts).1.countdown < ts.countdown) := by
  induction ts with
  | nil => exact fun ret => ⟨Nat.le_refl _, fun hret hsome => by rw [hret] at hsome; cases hsome⟩
  | cons t ts ih =>
    intro ret
    have hone : (t.detectIcountMatch env).1.countdown + (t.detectIcountMatch env).2.isSome.toNat ≤
      t.countdown :=
      countdown_detectIcountMatch t
    rw [detectBest, countdown, countdown]
    dsimp only
    generalize hret' :
      (if better ret (t.detectIcountMatch env).2 then (t.detectIcountMatch env).2 else ret) = ret'
    obtain ⟨hle, hlt⟩ := ih ret'
    refine ⟨by omega, fun hret hsome => ?_⟩
    cases hfired : (t.detectIcountMatch env).2 with
    | some r =>
      rw [hfired, Option.isSome_some, Bool.toNat_true] at hone
      omega
    | none =>
      rw [hfired, hret] at hret'
      have hlt := hlt hret'.symm hsome
      omega

/-- **The countdown.** A detection never sets the counts back, and one that fires uses them up. -/
theorem countdown_detectIcountMatch (env : MatchEnv) (ts : Triggers) :
    (ts.detectIcountMatch env).1.countdown ≤ ts.countdown ∧
      ((ts.detectIcountMatch env).2.isSome = true →
        (ts.detectIcountMatch env).1.countdown < ts.countdown) := by
  rw [detectIcountMatch]
  split
  · rw [countdown_stash]
    exact ⟨Nat.le_refl _, fun hsome => by cases hsome⟩
  · rw [← countdown_stash ts]
    exact ⟨(countdown_detectBest _ none).1, (countdown_detectBest _ none).2 rfl⟩

/-- Matching an access leaves all counts alone. -/
theorem countdown_detectMemoryAccessMatch (operation : Operation) (address : Reg)
    (data : Option Reg) (ts : Triggers) :
    (ts.detectMemoryAccessMatch env operation address data).1.countdown = ts.countdown := by
  have hone (t : Trigger) : (t.detectMemoryAccessMatch env operation address data).1.countdown =
      t.countdown := by
    rw [Trigger.detectMemoryAccessMatch]
    split
    · rename_i hbody
      split
      · rw [Trigger.countdown, Trigger.countdown, hbody]
      · rfl
    · rename_i hbody
      split
      · rw [Trigger.countdown, Trigger.countdown, hbody]
      · rfl
    · rfl
  have hloop (ts : Triggers) : ∀ ok ret,
      Triggers.countdown (detectLoop env operation address data ok ret ts).1 = ts.countdown := by
    induction ts with
    | nil => exact fun ok ret => by cases ok <;> rfl
    | cons t ts ih =>
      intro ok ret
      cases ok with
      | false =>
        rw [detectLoop]
        dsimp only
        rw [countdown, countdown, ih]
      | true =>
        rw [detectLoop]
        dsimp only
        rw [countdown, countdown, ih, hone]
  rw [detectMemoryAccessMatch]
  split
  · rfl
  · exact hloop ts true none

/-- No access matches in debug mode. -/
theorem debugMode_of_match {operation : Operation} {address : Reg} {data : Option Reg}
    {ts : Triggers}
    (hm : (ts.detectMemoryAccessMatch env operation address data).2 ≠ none) :
    env.debugMode = false := by
  cases hd : env.debugMode with
  | false => rfl
  | true =>
    rw [detectMemoryAccessMatch, hd] at hm
    exact absurd rfl hm

end Triggers

end Nnemu

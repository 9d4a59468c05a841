import Nnemu.Lib.Run
import Mathlib.Data.List.Find
import Mathlib.Logic.Function.Basic

/-!
# Sources and contexts

What an interrupt controller decides, without its registers. For each of its contexts a source is
enabled, pending and claimed, or not, and it has the priority it became pending with. Levels come
from the devices and are shared; all else is kept for each context. `SourceEvent` lists what can
happen, `Sources.next` says what becomes of each source, and `Sources.Sound` is what holds of every
source at all times.

This layer names no register and no word. A source is in one of the contexts what the three bits and
the recorded priority say, and every event is a function on that (`Source.pend`, `Source.switch` and
the like), applied to the sources the event is about. Which source a claim answers with is left to
the layer below, which has to show that it is a best candidate (`Sources.IsBest`).

`Becomes` lists what an event can make of one source, and the invariants are proved from it case by
case, so that none of them unfolds `Sources.effect`: a source is claimed only where it is pending,
pending only where it is enabled, and the identifiers are those the controller has.
-/

namespace Nnemu

/-- What a context keeps of one source: whether the context enables it, whether it is pending and
claimed there, and the priority it had when it became pending. -/
@[ext]
structure Source where
  enabled : Bool
  pending : Bool
  claimed : Bool
  /-- what it became pending with -/
  prio : BitVec 8

namespace Source

variable (s : Source)

/-- A source that is not enabled. -/
def off : Source :=
  ⟨false, false, false, 0#8⟩

/-- It becomes pending. -/
def pend (prio : BitVec 8) : Source :=
  { s with pending := true, prio := prio }

/-- It is no longer pending, nor claimed. -/
def unpend : Source :=
  { s with pending := false, claimed := false, prio := 0#8 }

/-- Its enable bit is written. Nothing happens but at a change. -/
def switch (on level : Bool) (prio : BitVec 8) : Source :=
  if s.enabled = on then s
  else if on then
    if level then { s with enabled := true }.pend prio else { s with enabled := true }
  else off

/-- **Per source.** What is claimed is pending, and what is pending is enabled. -/
structure Sound : Prop where
  enabled : s.pending = true → s.enabled = true
  pending : s.claimed = true → s.pending = true

variable {s}

theorem sound_off : off.Sound :=
  ⟨fun h => h, fun h => h⟩

theorem Sound.pend (he : s.enabled = true) (prio : BitVec 8) : (s.pend prio).Sound :=
  ⟨fun _ => he, fun _ => rfl⟩

theorem Sound.unpend : s.unpend.Sound :=
  ⟨fun h => absurd h Bool.false_ne_true, fun h => absurd h Bool.false_ne_true⟩

theorem Sound.switch (hs : s.Sound) (on level : Bool) (prio : BitVec 8) :
    (s.switch on level prio).Sound := by
  rw [Source.switch]
  split
  · exact hs
  · split
    · split
      · exact ⟨fun _ => rfl, fun _ => rfl⟩
      · exact ⟨fun _ => rfl, hs.pending⟩
    · exact sound_off

/-- A claim of a pending source. -/
theorem Sound.claim (hs : s.Sound) (hp : s.pending = true) : Sound { s with claimed := true } :=
  ⟨hs.enabled, fun _ => hp⟩

theorem Sound.complete (hs : s.Sound) : Sound { s with claimed := false } :=
  ⟨hs.enabled, fun h => absurd h Bool.false_ne_true⟩

/-- The enable bit is as written. -/
theorem enabled_switch (s : Source) (on level : Bool) (prio : BitVec 8) :
    (s.switch on level prio).enabled = on := by
  rw [Source.switch]
  split
  · assumption
  · cases on with
    | true =>
      rw [if_pos rfl]
      split
      · rfl
      · rfl
    | false => rfl

/-- What is pending after the enable bit is written. -/
theorem pending_switch (hs : s.Sound) (on level : Bool) (prio : BitVec 8) :
    (s.switch on level prio).pending = (on && (s.pending || (!s.enabled && level))) := by
  have he := hs.enabled
  obtain ⟨enabled, pending, claimed, prio⟩ := s
  cases on <;> cases enabled <;> cases pending <;> cases level <;>
    first | rfl | exact absurd (he rfl) Bool.false_ne_true

end Source

/-- A controller, by its sources. The levels and the programmed priorities belong to the sources,
the thresholds to the contexts, and `source i id` is what context `i` keeps of source `id`. -/
@[ext]
structure Sources where
  /-- the number of contexts -/
  size : Nat
  numIds : Nat
  priority : Nat → BitVec 8
  threshold : Nat → BitVec 8
  level : Nat → Bool
  source : Nat → Nat → Source

/-- What happens to the sources. -/
inductive SourceEvent where
  | quiet
  /-- a priority is programmed -/
  | program (id : Nat) (prio : BitVec 8)
  /-- enable bits of a context are written -/
  | switch (i : Nat) (on : Nat → Option Bool)
  | threshold (i : Nat) (val : BitVec 8)
  | claim (i id : Nat)
  | complete (i id : Nat)
  /-- a device drives a level -/
  | level (id : Nat) (lvl : Bool)

namespace Sources

variable (v : Sources)

/-- All sources off. -/
def init (size numIds : Nat) : Sources where
  size := size
  numIds := numIds
  priority := fun _ => 0#8
  threshold := fun _ => 0#8
  level := fun _ => false
  source := fun _ _ => .off

/-! ### Events -/

/-- What a context can claim. -/
def Candidate (i id : Nat) : Prop :=
  (v.source i id).pending = true ∧ (v.source i id).claimed = false

/-- The first among the candidates of highest priority. -/
structure IsBest (i id : Nat) : Prop where
  candidate : v.Candidate i id
  highest : ∀ id', v.Candidate i id' → (v.source i id').prio ≤ (v.source i id).prio
  first : ∀ id', v.Candidate i id' → (v.source i id').prio = (v.source i id).prio → id ≤ id'

/-- The first context that enables a source. -/
def first (id : Nat) : Option Nat :=
  (List.range v.size).find? fun i => (v.source i id).enabled

/-- The events that there are: source 0 is never enabled, and a claim takes the best. -/
def Allowed : SourceEvent → Prop
  | .quiet => True
  | .program id _ => 0 < id ∧ id < v.numIds
  | .switch i on => i < v.size ∧ on 0 ≠ some true
  | .threshold i _ => i < v.size
  | .claim i id => i < v.size ∧ v.IsBest i id
  | .complete i id => i < v.size ∧ (v.source i id).enabled = true
  | .level id _ => 0 < id ∧ id < v.numIds

/-- What becomes of one source. -/
def effect (e : SourceEvent) (i id : Nat) : Source :=
  let s := v.source i id
  match e with
  | .switch k on =>
    if i = k then ((on id).map fun b => s.switch b (v.level id) (v.priority id)).getD s else s
  | .claim k id' => if i = k ∧ id = id' then { s with claimed := true } else s
  | .complete k id' => if i = k ∧ id = id' then { s with claimed := false } else s
  | .level id' lvl =>
    -- only the first context that enables the source is told
    if id = id' ∧ v.first id' = some i then (if lvl then s.pend (v.priority id') else s.unpend)
      else s
  | _ => s

/-- The state after an event. -/
def next (e : SourceEvent) : Sources :=
  { v with
    priority := match e with
      | .program id prio => Function.update v.priority id prio
      | _ => v.priority
    threshold := match e with
      | .threshold i val => Function.update v.threshold i val
      | _ => v.threshold
    level := match e with
      | .level id lvl => Function.update v.level id lvl
      | _ => v.level
    source := v.effect e }

@[simp] theorem next_size (e : SourceEvent) : (v.next e).size = v.size := rfl

@[simp] theorem next_numIds (e : SourceEvent) : (v.next e).numIds = v.numIds := rfl

theorem next_source (e : SourceEvent) (i id : Nat) : (v.next e).source i id = v.effect e i id := rfl

variable {v}

/-- The first context enables the source. -/
theorem enabled_of_first {i id : Nat} (hf : v.first id = some i) :
    i < v.size ∧ (v.source i id).enabled = true := by
  refine ⟨List.mem_range.1 (List.mem_of_find?_eq_some hf), ?_⟩
  have he := List.find?_some hf
  exact he

/-- There is a first one when there is any. -/
theorem exists_first {i id : Nat} (hi : i < v.size) (he : (v.source i id).enabled = true) :
    ∃ k, v.first id = some k := by
  cases hf : v.first id with
  | some k => exact ⟨k, rfl⟩
  | none => exact absurd he (List.find?_eq_none.1 hf i (List.mem_range.2 hi))

/-- What an event can make of one source. -/
inductive Becomes (v : Sources) (i id : Nat) : SourceEvent → Source → Prop
  | same (e : SourceEvent) : Becomes v i id e (v.source i id)
  | switch (on : Nat → Option Bool) (b : Bool) (hb : on id = some b) :
      Becomes v i id (.switch i on) ((v.source i id).switch b (v.level id) (v.priority id))
  | claim : Becomes v i id (.claim i id) { v.source i id with claimed := true }
  | complete : Becomes v i id (.complete i id) { v.source i id with claimed := false }
  | raise (hf : v.first id = some i) : Becomes v i id (.level id true)
      ((v.source i id).pend (v.priority id))
  | lower (hf : v.first id = some i) : Becomes v i id (.level id false) (v.source i id).unpend

theorem becomes_effect (v : Sources) (e : SourceEvent) (i id : Nat) :
    Becomes v i id e (v.effect e i id) := by
  cases e with
  | switch k on =>
    rw [effect]
    split
    · rename_i hk
      subst hk
      cases hb : on id with
      | none => exact .same _
      | some b => exact .switch on b hb
    · exact .same _
  | claim k id' =>
    rw [effect]
    split
    · rename_i heq
      obtain ⟨rfl, rfl⟩ := heq
      exact .claim
    · exact .same _
  | complete k id' =>
    rw [effect]
    split
    · rename_i heq
      obtain ⟨rfl, rfl⟩ := heq
      exact .complete
    · exact .same _
  | level id' lvl =>
    rw [effect]
    split
    · rename_i heq
      obtain ⟨rfl, hf⟩ := heq
      cases lvl with
      | true => exact .raise hf
      | false => exact .lower hf
    · exact .same _
  | quiet => exact .same _
  | program id' prio => exact .same _
  | threshold k val => exact .same _

/-- One bit of an enable write. -/
theorem effect_switch (v : Sources) (i : Nat) (on : Nat → Option Bool)
    {id : Nat} {b : Bool} (hb : on id = some b) :
    v.effect (.switch i on) i id = (v.source i id).switch b (v.level id) (v.priority id) := by
  rw [effect, if_pos rfl, hb]
  rfl

/-- The other sources of an enable write. -/
theorem effect_switch_of_ne (v : Sources) {i k : Nat} {on : Nat → Option Bool}
    {id : Nat} (h : k = i → on id = none) :
    v.effect (.switch i on) k id = v.source k id := by
  rw [effect]
  split
  · rename_i hk
    rw [h hk]
    rfl
  · rfl

/-- A source becomes pending in a context, or pending anew: its level rises, or the context enables
it while the level is high. -/
def Pends (v : Sources) (e : SourceEvent) (i id : Nat) : Prop :=
  (e = .level id true ∧ v.first id = some i) ∨
    ((v.source i id).enabled = false ∧ v.level id = true ∧ ∃ on, e = .switch i on ∧
      on id = some true)

/-- It does so with the priority of that moment. -/
theorem Pends.prio {e : SourceEvent} {i id : Nat} (h : v.Pends e i id) :
    (v.effect e i id).prio = v.priority id := by
  obtain ⟨rfl, hf⟩ | ⟨hoff, hl, on, rfl, hon⟩ := h
  · have heffect : v.effect (.level id true) i id = (v.source i id).pend (v.priority id) :=
      if_pos ⟨rfl, hf⟩
    rw [heffect]
    rfl
  · have hne : ¬(v.source i id).enabled = true :=
      fun hen => absurd (hen.symm.trans hoff) (by decide)
    rw [effect_switch v i on hon, Source.switch, if_neg hne, if_pos rfl, if_pos hl]
    rfl

/-! ### What always holds -/

/-- **Sound sources.** -/
structure Sound (v : Sources) : Prop where
  source : ∀ i id, (v.source i id).Sound
  /-- there are no other contexts -/
  context : ∀ i id, (v.source i id).enabled = true → i < v.size
  level : ∀ id, v.level id = true → 0 < id ∧ id < v.numIds
  pending : ∀ i id, (v.source i id).pending = true → 0 < id ∧ id < v.numIds

namespace Sound

theorem init (size numIds : Nat) : Sound (init size numIds) where
  source _ _ := Source.sound_off
  context _ _ h := absurd h Bool.false_ne_true
  level _ h := absurd h Bool.false_ne_true
  pending _ _ h := absurd h Bool.false_ne_true

theorem becomes (hv : v.Sound) {e : SourceEvent} (he : v.Allowed e) {i id : Nat} {s : Source}
    (h : Becomes v i id e s) : s.Sound := by
  have hs := hv.source i id
  cases h with
  | same => exact hs
  | switch on b hb => exact hs.switch b _ _
  | claim => exact hs.claim he.2.candidate.1
  | complete => exact hs.complete
  | raise hf => exact .pend (enabled_of_first hf).2 _
  | lower hf => exact .unpend

/-- Enable bits change in the context that is written only. -/
theorem becomes_enabled (hv : v.Sound) {e : SourceEvent} (he : v.Allowed e)
    {i id : Nat} {s : Source}
    (h : Becomes v i id e s) (hen : s.enabled = true) : i < v.size := by
  have hi := hv.context i id
  cases h with
  | same => exact hi hen
  | switch on b hb => exact he.1
  | claim => exact he.1
  | complete => exact he.1
  | raise hf => exact (enabled_of_first hf).1
  | lower hf => exact (enabled_of_first hf).1

/-- **Pending sources** became pending with the priority of that moment, or have been pending with
the one they have. -/
theorem pending_cases (hv : v.Sound) {e : SourceEvent} (he : v.Allowed e) {i id : Nat} {s : Source}
    (h : Becomes v i id e s) (hp : s.pending = true) : (v.Pends e i id ∧ s.prio = v.priority id) ∨
      ((v.source i id).pending = true ∧ s.prio = (v.source i id).prio) := by
  cases h with
  | same => exact .inr ⟨hp, rfl⟩
  | switch on b hb =>
    rw [Source.pending_switch (hv.source i id), Bool.and_eq_true, Bool.or_eq_true, Bool.and_eq_true,
      Bool.not_eq_true'] at hp
    obtain ⟨rfl, hp⟩ := hp
    by_cases hen : (v.source i id).enabled = true
    · rw [Source.switch, if_pos hen]
      obtain hp | ⟨hoff, -⟩ := hp
      · exact .inr ⟨hp, rfl⟩
      · exact absurd (hen.symm.trans hoff) (by decide)
    · have hoff : (v.source i id).enabled = false := Bool.eq_false_of_not_eq_true hen
      obtain hp | ⟨-, hl⟩ := hp
      · exact absurd ((hv.source i id).enabled hp) hen
      · rw [Source.switch, if_neg hen, if_pos rfl, if_pos hl]
        exact .inl ⟨.inr ⟨hoff, hl, on, rfl, hb⟩, rfl⟩
  | claim => exact .inr ⟨he.2.candidate.1, rfl⟩
  | complete => exact .inr ⟨hp, rfl⟩
  | raise hf => exact .inl ⟨.inl ⟨rfl, hf⟩, rfl⟩
  | lower hf => exact absurd hp Bool.false_ne_true

/-- Only sources that there are become pending. -/
theorem pends_lt (hv : v.Sound) {e : SourceEvent} (he : v.Allowed e) {i id : Nat}
    (h : v.Pends e i id) :
    0 < id ∧ id < v.numIds := by
  obtain ⟨rfl, -⟩ | ⟨-, hl, -⟩ := h
  · exact he
  · exact hv.level id hl

theorem becomes_pending (hv : v.Sound) {e : SourceEvent} (he : v.Allowed e)
    {i id : Nat} {s : Source}
    (h : Becomes v i id e s) (hp : s.pending = true) : 0 < id ∧ id < v.numIds := by
  obtain ⟨hpends, -⟩ | ⟨hold, -⟩ := hv.pending_cases he h hp
  · exact hv.pends_lt he hpends
  · exact hv.pending i id hold

/-- **Soundness is kept.** -/
theorem next (hv : v.Sound) {e : SourceEvent} (he : v.Allowed e) : (v.next e).Sound where
  source i id := hv.becomes he (becomes_effect v e i id)
  context i id hen := hv.becomes_enabled he (becomes_effect v e i id) hen
  pending i id hp := hv.becomes_pending he (becomes_effect v e i id) hp
  level id hl := by
    cases e with
    | level id' lvl =>
      by_cases hid : id = id'
      · rw [hid]
        exact he
      · refine hv.level id ?_
        rw [← hl]
        exact (Function.update_of_ne hid lvl v.level).symm
    | quiet => exact hv.level id hl
    | program id' prio => exact hv.level id hl
    | switch k on => exact hv.level id hl
    | threshold k val => exact hv.level id hl
    | claim k id' => exact hv.level id hl
    | complete k id' => exact hv.level id hl

end Sound

end Sources

end Nnemu

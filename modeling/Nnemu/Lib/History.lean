import Mathlib.Logic.Function.Basic

/-!
# What a store holds, by its history

A history is the list of what has happened to the keys of a store, the latest event first. A key is
held from the event that brought it to the one that evicts or invalidates it (`held_isSome_iff`); in
between it is dirty or not.
-/

namespace History

variable {L : Type*}

/-- What can happen to a key. -/
inductive Event (L : Type*) where
  | brought (l : L)
  | wrote (l : L)
  | cleaned (l : L)
  | evicted (l : L) (dirty : Bool)
  | invalidated (l : L)

/-- The key an event is about. -/
def Event.key : Event L → L
  | brought l => l
  | wrote l => l
  | cleaned l => l
  | evicted l _ => l
  | invalidated l => l

/-- What the event makes of a held key, with its dirty flag, or of one that is not held. -/
def Event.apply : Event L → Option Bool → Option Bool
  | brought _, _ => some false
  | wrote _, d => d.map fun _ => true
  | cleaned _, d => d.map fun _ => false
  | evicted _ _, _ => none
  | invalidated _, _ => none

/-- Does the event remove its key? -/
def Event.removes : Event L → Prop
  | evicted _ _ => True
  | invalidated _ => True
  | _ => False

/-- Does the event write its key back? -/
def Event.writesBack : Event L → Bool
  | evicted _ dirty => dirty
  | cleaned _ => true
  | _ => false

/-- Whether a key is held after an event. -/
theorem isSome_apply (e : Event L) (d : Option Bool) :
    (e.apply d).isSome = true ↔ (∃ l, e = .brought l) ∨ ¬ e.removes ∧ d.isSome = true := by
  cases e <;> cases d <;> simp [Event.apply, Event.removes]

variable [DecidableEq L]

/-- The dirty flag of a key, when it is held. -/
def held : List (Event L) → L → Option Bool
  | [], _ => none
  | e :: h, l => if e.key = l then e.apply (held h l) else held h l

/-- How often keys were written back. -/
def writebacks (h : List (Event L)) : Nat := h.countP Event.writesBack

/-- An event changes its key only. -/
theorem held_cons (e : Event L) (h : List (Event L)) :
    held (e :: h) = Function.update (held h) e.key (e.apply (held h e.key)) := by
  funext l
  rw [held, Function.update_apply]
  by_cases hl : e.key = l
  · rw [if_pos hl, if_pos hl.symm, hl]
  · rw [if_neg hl, if_neg fun heq => hl heq.symm]

/-- The key was brought, and has not been removed since. -/
def Present (h : List (Event L)) (l : L) : Prop :=
  ∃ later earlier, h = later ++ .brought l :: earlier ∧ ∀ e ∈ later, e.key = l → ¬ e.removes

/-- **A key is held exactly when it was brought and has not been removed since.** -/
theorem held_isSome_iff (h : List (Event L)) (l : L) : (held h l).isSome = true ↔ Present h l := by
  rw [Present]
  induction h with
  | nil =>
    constructor
    · intro hsome
      cases hsome
    · rintro ⟨later, earlier, h, -⟩
      cases later <;> cases h
  | cons e h ih =>
    rw [held]
    by_cases hl : e.key = l
    · rw [if_pos hl, isSome_apply, ih]
      constructor
      · rintro (⟨l', rfl⟩ | ⟨hkeep, later, earlier, rfl, hlater⟩)
        · obtain rfl : l' = l := hl
          exact ⟨[], h, rfl, fun e he => absurd he List.not_mem_nil⟩
        · refine ⟨e :: later, earlier, rfl, fun e' he' hkey => ?_⟩
          obtain rfl | he' := List.mem_cons.1 he'
          · exact hkeep
          · exact hlater e' he' hkey
      · rintro ⟨later, earlier, h', hlater⟩
        cases later with
        | nil =>
          rw [List.nil_append, List.cons.injEq] at h'
          exact .inl ⟨l, h'.1⟩
        | cons e' later =>
          rw [List.cons_append, List.cons.injEq] at h'
          obtain ⟨rfl, rfl⟩ := h'
          exact .inr ⟨hlater e List.mem_cons_self hl, later, earlier, rfl, fun e' he' =>
            hlater e' (List.mem_cons_of_mem e he')⟩
    · rw [if_neg hl, ih]
      constructor
      · rintro ⟨later, earlier, rfl, hlater⟩
        refine ⟨e :: later, earlier, rfl, fun e' he' hkey => ?_⟩
        obtain rfl | he' := List.mem_cons.1 he'
        · exact absurd hkey hl
        · exact hlater e' he' hkey
      · rintro ⟨later, earlier, h', hlater⟩
        cases later with
        | nil =>
          rw [List.nil_append, List.cons.injEq] at h'
          exact absurd (congrArg Event.key h'.1) hl
        | cons e' later =>
          rw [List.cons_append, List.cons.injEq] at h'
          obtain ⟨rfl, rfl⟩ := h'
          exact ⟨later, earlier, rfl, fun e' he' => hlater e' (List.mem_cons_of_mem e he')⟩

end History

import Mathlib.Tactic.TypeStar

/-!
# Programs with state that may not end

A loop that is given a number of rounds has no result when it needs more. `Ends` says of a program
that it has one, and what holds then: the rules below take it through a program one statement at a
time.
-/

/-- Programs over states `σ` that may run out of rounds. -/
abbrev Rounds (σ : Type) : Type → Type :=
  StateT σ Option

namespace Rounds

variable {σ α β : Type} {s : σ} {post : α → σ → Prop}

/-- The program ends, and the result is as it should be. -/
def Ends (p : Rounds σ α) (s : σ) (post : α → σ → Prop) : Prop :=
  ∃ a t, p s = some (a, t) ∧ post a t

/-- Out of rounds. -/
def exhausted : Rounds σ α := fun _ => none

theorem ends_pure {a : α} (h : post a s) : Ends (pure a) s post :=
  ⟨a, s, rfl, h⟩

theorem ends_bind {p : Rounds σ β} {f : β → Rounds σ α}
    (h : Ends p s fun b t => Ends (f b) t post) :
    Ends (p >>= f) s post := by
  obtain ⟨b, t, hp, a, u, hf, hpost⟩ := h
  refine ⟨a, u, ?_, hpost⟩
  change (p s).bind (fun r => f r.1 r.2) = _
  rw [hp, Option.bind_some, hf]

theorem Ends.mono {p : Rounds σ α} {post' : α → σ → Prop} (h : Ends p s post)
    (himp : ∀ a t, post a t → post' a t) :
    Ends p s post' := by
  obtain ⟨a, t, hp, hpost⟩ := h
  exact ⟨a, t, hp, himp a t hpost⟩

/-- A statement and what follows it. -/
theorem Ends.bind {p : Rounds σ β} {f : β → Rounds σ α} {mid : β → σ → Prop} (h : Ends p s mid)
    (hf : ∀ b t, mid b t → Ends (f b) t post) : Ends (p >>= f) s post :=
  ends_bind (h.mono hf)

theorem ends_ite {c : Prop} [Decidable c] {p q : Rounds σ α} (hp : c → Ends p s post)
    (hq : ¬c → Ends q s post) :
    Ends (if c then p else q) s post := by
  split
  · exact hp ‹_›
  · exact hq ‹_›

end Rounds

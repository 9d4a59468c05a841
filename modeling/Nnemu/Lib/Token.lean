import Mathlib.Data.List.Basic
import Mathlib.Data.Option.Basic

/-!
# A token and its holder

A history is the list of what has happened, the latest event first. Of every event it is known
whether somebody takes the token with it, whether it ends that the token is held, or who acts
otherwise: that somebody else acts ends it too. So who holds the token is who took it last and has
been alone since (`holder_eq_some_iff`).
-/

namespace Token

variable {I P E : Type*}

/-- What an event is to a token that is held for a `P`. -/
inductive Effect (I P : Type*) where
  | takes (i : I) (p : P)
  | ends
  | acts (i : I)
  | nothing

variable {effect : E → Effect I P}

/-- It was taken, and since then nobody else has acted and nothing has ended it. -/
def TakenBy (effect : E → Effect I P) (h : List E) (i : I) (p : P) : Prop :=
  ∃ later e earlier, h = later ++ e :: earlier ∧ effect e = .takes i p ∧
    ∀ e ∈ later, effect e = .acts i ∨ effect e = .nothing

theorem TakenBy.cons {h : List E} {i : I} {p : P} (ht : TakenBy effect h i p) {e : E}
    (he : effect e = .acts i ∨ effect e = .nothing) : TakenBy effect (e :: h) i p := by
  obtain ⟨later, t, earlier, rfl, htakes, hlater⟩ := ht
  exact ⟨e :: later, t, earlier, rfl, htakes, List.forall_mem_cons.2 ⟨he, hlater⟩⟩

/-- What has been taken is still to be found below an event that does not take it. -/
theorem TakenBy.of_cons {h : List E} {i : I} {p : P} {e : E} (ht : TakenBy effect (e :: h) i p)
    (he : effect e ≠ .takes i p) : (effect e = .acts i ∨ effect e = .nothing) ∧
    TakenBy effect h i p := by
  obtain ⟨later, t, earlier, heq, htakes, hlater⟩ := ht
  cases later with
  | nil =>
    cases heq
    exact absurd htakes he
  | cons e' later =>
    cases heq
    obtain ⟨hfirst, hlater⟩ := List.forall_mem_cons.1 hlater
    exact ⟨hfirst, later, t, earlier, rfl, htakes, hlater⟩

variable [DecidableEq I]

/-- Who holds the token, and what for. -/
def holder (effect : E → Effect I P) : List E → Option (I × P)
  | [] => none
  | e :: h =>
    match effect e with
    | .takes i p => some (i, p)
    | .ends => none
    | .acts i => (holder effect h).filter fun held => held.1 = i
    | .nothing => holder effect h

theorem holder_takes {e : E} {i : I} {p : P} (he : effect e = .takes i p) (h : List E) :
    holder effect (e :: h) = some (i, p) := by
  simp only [holder, he]

theorem holder_ends {e : E} (he : effect e = .ends) (h : List E) :
    holder effect (e :: h) = none := by
  simp only [holder, he]

theorem holder_acts {e : E} {i : I} (he : effect e = .acts i) (h : List E) :
    holder effect (e :: h) = (holder effect h).filter fun held => held.1 = i := by
  simp only [holder, he]

theorem holder_nothing {e : E} (he : effect e = .nothing) (h : List E) :
    holder effect (e :: h) = holder effect h := by
  simp only [holder, he]

/-- **The holder** is the one who took it and has been alone since. -/
theorem holder_eq_some_iff (h : List E) (i : I) (p : P) : holder effect h = some (i, p) ↔
    TakenBy effect h i p := by
  induction h with
  | nil =>
    refine iff_of_false (by rintro ⟨⟩) ?_
    rintro ⟨later, e, earlier, heq, -⟩
    cases later <;> cases heq
  | cons e h ih =>
    cases he : effect e with
    | takes j q =>
      rw [holder_takes he, Option.some.injEq, Prod.mk.injEq]
      constructor
      · rintro ⟨rfl, rfl⟩
        exact ⟨[], e, h, rfl, he, fun _ hmem => absurd hmem List.not_mem_nil⟩
      · intro ht
        by_contra hne
        obtain ⟨hfirst, -⟩ := ht.of_cons (by
          rw [he]
          rintro ⟨⟩
          exact hne ⟨rfl, rfl⟩)
        rw [he] at hfirst
        obtain h | h := hfirst <;> cases h
    | ends =>
      rw [holder_ends he]
      refine iff_of_false (by rintro ⟨⟩) fun ht => ?_
      obtain ⟨hfirst, -⟩ := ht.of_cons (by rw [he]; rintro ⟨⟩)
      rw [he] at hfirst
      obtain h | h := hfirst <;> cases h
    | acts j =>
      rw [holder_acts he, Option.filter_eq_some_iff, ih, decide_eq_true_eq]
      constructor
      · rintro ⟨ht, rfl⟩
        exact ht.cons (.inl he)
      · intro ht
        obtain ⟨hfirst, ht⟩ := ht.of_cons (by rw [he]; rintro ⟨⟩)
        rw [he] at hfirst
        obtain hfirst | hfirst := hfirst
        · cases hfirst
          exact ⟨ht, rfl⟩
        · cases hfirst
    | nothing =>
      rw [holder_nothing he, ih]
      exact ⟨fun ht => ht.cons (.inr he), fun ht => (ht.of_cons (by rw [he]; rintro ⟨⟩)).2⟩

end Token

import Mathlib.Tactic.TypeStar

/-!
# Programs with state and exceptions

A C++ function that changes the machine and may throw is a program in `Exec ε σ`: it takes a state
and ends, in a new state, with a value or with an exception. The lemmas here invert a run of a
sequence, so that a proof about a result works backwards through the program one statement at a
time.
-/

/-- Programs over states `σ` that may stop with an `ε`. -/
abbrev Exec (ε σ : Type) : Type → Type :=
  EStateM ε σ

namespace Exec

variable {ε σ α β : Type} {s t : σ}

@[simp] theorem pure_apply (a : α) (s : σ) : (pure a : Exec ε σ α) s = .ok a s := rfl

@[simp] theorem throw_apply (e : ε) (s : σ) : (throw e : Exec ε σ α) s = .error e s := rfl

theorem ite_apply (c : Prop) [Decidable c] (x y : Exec ε σ α) (s : σ) :
    (if c then x else y) s = if c then x s else y s := by
  split <;> rfl

/-- A sequence whose first part succeeds goes on with the second part. -/
theorem bind_of_ok {x : Exec ε σ α} {f : α → Exec ε σ β} {a : α} (h : x s = .ok a t) :
    (x >>= f) s = f a t := by
  change EStateM.bind x f s = f a t
  simp only [EStateM.bind, h]

/-- A sequence whose first part throws throws. -/
theorem bind_of_error {x : Exec ε σ α} {f : α → Exec ε σ β} {e : ε} (h : x s = .error e t) :
    (x >>= f) s = .error e t := by
  change EStateM.bind x f s = .error e t
  simp only [EStateM.bind, h]

/-- A sequence returns when both parts return. -/
theorem bind_eq_ok_iff {x : Exec ε σ α} {f : α → Exec ε σ β} {b : β} :
    (x >>= f) s = .ok b t ↔ ∃ a u, x s = .ok a u ∧ f a u = .ok b t := by
  constructor
  · intro h
    cases hx : x s with
    | ok a u =>
      rw [bind_of_ok hx] at h
      exact ⟨a, u, rfl, h⟩
    | error e u =>
      rw [bind_of_error hx] at h
      exact absurd h (by simp)
  · rintro ⟨a, u, hx, hf⟩
    rw [bind_of_ok hx, hf]

/-- A sequence throws when its first part throws, or returns and the second part throws. -/
theorem bind_eq_error_iff {x : Exec ε σ α} {f : α → Exec ε σ β} {e : ε} :
    (x >>= f) s = .error e t ↔
      x s = .error e t ∨ ∃ a u, x s = .ok a u ∧ f a u = .error e t := by
  constructor
  · intro h
    cases hx : x s with
    | ok a u =>
      rw [bind_of_ok hx] at h
      exact .inr ⟨a, u, rfl, h⟩
    | error e' u =>
      rw [bind_of_error hx] at h
      cases h
      exact .inl rfl
  · rintro (hx | ⟨a, u, hx, hf⟩)
    · exact bind_of_error hx
    · rw [bind_of_ok hx, hf]

/-! ### Programs along a preorder -/

/-- The state in which a run ends. -/
def final : EStateM.Result ε σ α → σ
  | .ok _ t => t
  | .error _ t => t

/-- A relation between the states before and after that parts of a program may be composed along. -/
structure Composes (R : σ → σ → Prop) : Prop where
  refl : ∀ s, R s s
  trans : ∀ {s t u}, R s t → R t u → R s u

/-- Every run of the program, to a value or to an exception, moves the state along `R`. -/
def Keeps (R : σ → σ → Prop) (x : Exec ε σ α) : Prop :=
  ∀ s, R s (final (x s))

variable {R : σ → σ → Prop}

theorem Keeps.of_ok {x : Exec ε σ α} {a : α} (k : Keeps R x) (h : x s = .ok a t) : R s t := by
  have hs := k s
  rw [h] at hs
  exact hs

theorem Keeps.of_error {x : Exec ε σ α} {e : ε} (k : Keeps R x) (h : x s = .error e t) : R s t := by
  have hs := k s
  rw [h] at hs
  exact hs

theorem keeps_pure (hR : Composes R) (a : α) : Keeps R (pure a : Exec ε σ α) :=
  hR.refl

theorem keeps_throw (hR : Composes R) (e : ε) : Keeps R (throw e : Exec ε σ α) :=
  hR.refl

/-- Sequences compose. -/
theorem keeps_bind (hR : Composes R) {x : Exec ε σ α} {f : α → Exec ε σ β} (hx : Keeps R x)
    (hf : ∀ a, Keeps R (f a)) : Keeps R (x >>= f) := by
  intro s
  cases h : x s with
  | ok a t =>
    rw [bind_of_ok h]
    exact hR.trans (hx.of_ok h) (hf a t)
  | error e t =>
    rw [bind_of_error h]
    exact hx.of_error h

/-- A sequence of which the first part moves the state along a smaller relation, which the other one
takes in. -/
theorem final_bind {R : σ → σ → Prop} (R' : σ → σ → Prop) (hsub : ∀ s t, R s t → R' s t)
    (htrans : ∀ s t u, R s t → R' t u → R' s u) {x : Exec ε σ α} {f : α → Exec ε σ β}
    (hx : R s (final (x s)))
    (hf : ∀ a t, x s = .ok a t → R' t (final (f a t))) :
    R' s (final ((x >>= f) s)) := by
  cases h : x s with
  | ok a t =>
    rw [h] at hx
    rw [bind_of_ok h]
    exact htrans s t _ hx (hf a t h)
  | error e t =>
    rw [h] at hx
    rw [bind_of_error h]
    exact hsub s t hx

/-- What holds after the first part, and is kept by the second one, holds after a sequence. -/
theorem final_of_bind {P : σ → Prop} {x : Exec ε σ α} {f : α → Exec ε σ β} (hx : P (final (x s)))
    (hf : ∀ a t, x s = .ok a t → P t → P (final (f a t))) : P (final ((x >>= f) s)) := by
  cases h : x s with
  | ok a t =>
    rw [h] at hx
    rw [bind_of_ok h]
    exact hf a t h hx
  | error e t =>
    rw [h] at hx
    rw [bind_of_error h]
    exact hx

/-- Both branches. -/
theorem keeps_ite {c : Prop} [Decidable c] {x y : Exec ε σ α} (hx : Keeps R x) (hy : Keeps R y) :
    Keeps R (if c then x else y) := by
  split
  · exact hx
  · exact hy

/-! ### Programs that throw little -/

/-- Every run of the program moves the state along `R`, and what it throws is allowed in the state
in which it began. -/
structure Confined (R : σ → σ → Prop) (P : σ → ε → Prop) (x : Exec ε σ α) : Prop where
  keeps : Keeps R x
  error : ∀ {s e t}, x s = .error e t → P s e

namespace Confined

variable {P : σ → ε → Prop}

theorem pure (hR : Composes R) (a : α) : Confined R P (Pure.pure a : Exec ε σ α) :=
  ⟨keeps_pure hR a, fun h => by cases h⟩

theorem throw (hR : Composes R) {e : ε} (he : ∀ s, P s e) :
    Confined R P (MonadExcept.throw e : Exec ε σ α) := by
  refine ⟨keeps_throw hR e, fun h => ?_⟩
  cases h
  exact he _

theorem get (hR : Composes R) : Confined R P (MonadState.get : Exec ε σ σ) :=
  ⟨hR.refl, fun h => by cases h⟩

/-- A step that throws nothing. -/
theorem modify {f : σ → σ} (hf : ∀ s, R s (f s)) :
    Confined R P (modify f : Exec ε σ PUnit) :=
  ⟨hf, fun h => by cases h⟩

/-- Sequences compose where what is allowed later was allowed before. -/
theorem bind (hR : Composes R) (hP : ∀ {s t e}, R s t → P t e → P s e) {x : Exec ε σ α}
    {f : α → Exec ε σ β} (hx : Confined R P x) (hf : ∀ a, Confined R P (f a)) :
    Confined R P (x >>= f) := by
  refine ⟨keeps_bind hR hx.keeps fun a => (hf a).keeps, fun h => ?_⟩
  obtain h | ⟨a, u, hok, h⟩ := bind_eq_error_iff.1 h
  · exact hx.error h
  · exact hP (hx.keeps.of_ok hok) ((hf a).error h)

theorem ite {c : Prop} [Decidable c] {x y : Exec ε σ α} (hx : Confined R P x)
    (hy : Confined R P y) : Confined R P (if c then x else y) := by
  split
  · exact hx
  · exact hy

end Confined

end Exec

import Nnemu.Lib.Radix

/-!
# Relating two monadic programs

A `Relator` between two monads lifts a relation on results to a relation on programs and is closed
under `pure` and `bind`. One program text run in both monads is related by following its `do`
blocks. A search that stops when it finds nothing, `findOr`, is the form in which two runs of
`Radix.descend` are compared: a round that breaks off is the same as one that stops (`live`), so
nothing need be said about the other side of a round that finds nothing.
-/

/-- A lifting of relations on results to relations on programs of two monads. -/
structure Relator (m n : Type → Type) [Monad m] [Monad n] where
  rel : {α β : Type} → (α → β → Prop) → m α → n β → Prop
  rel_pure : ∀ {α β : Type} {V : α → β → Prop} {x : α} {y : β}, V x y → rel V (pure x) (pure y)
  rel_bind : ∀ {α β γ ι : Type} {V : α → β → Prop} {W : γ → ι → Prop} {d : m α} {d' : n β}
    {f : α → m γ} {f' : β → n ι}, rel V d d' → (∀ x y, V x y → rel W (f x) (f' y)) →
    rel W (d >>= f) (d' >>= f')

namespace Relator

variable {m n : Type → Type} [Monad m] [Monad n] (L : Relator m n) {α β : Type}

/-- Programs that return the same are related. -/
theorem eq_pure (a : α) : L.rel Eq (pure a : m α) (pure a : n α) :=
  L.rel_pure rfl

/-- Sequences of programs that come to the same. -/
theorem eq_bind {x : m α} {x' : n α} {f : α → m β} {f' : α → n β} (hx : L.rel Eq x x')
    (hf : ∀ a, L.rel Eq (f a) (f' a)) :
    L.rel Eq (x >>= f) (x' >>= f') :=
  L.rel_bind hx fun a _ hab => hab ▸ hf a

/-- Searches of which the visits come to the same. -/
theorem eq_descend {visit : Nat → β → m (Radix.Visit β α)} {visit' : Nat → β → n (Radix.Visit β α)}
    (hvisit : ∀ i b, L.rel Eq (visit i b) (visit' i b)) (k : Nat) (b : β) :
    L.rel Eq (Radix.descend visit k b) (Radix.descend visit' k b) := by
  induction k generalizing b with
  | zero => exact L.eq_pure none
  | succ k ih =>
    refine L.eq_bind (hvisit k b) fun v => ?_
    cases v with
    | next b' => exact ih b'
    | done res => exact L.eq_pure res

end Relator

namespace Radix

variable {α β γ : Type}

section Search

variable {m : Type → Type} [Monad m]

/-- A visit that stops where it would break off. -/
def live (stop : m (Visit β α)) (visit : m (Visit β α)) : m (Visit β α) := do
  match ← visit with
  | .next b => pure (.next b)
  | .done (some a) => pure (.done (some a))
  | .done none => stop

/-- The loop of `descend`, stopping when it finds nothing. -/
def findOr (stop : m α) (visit : Nat → β → m (Visit β α)) : Nat → β → m α
  | 0, _ => stop
  | i + 1, b => do
    match ← visit i b with
    | .next b' => findOr stop visit i b'
    | .done (some a) => pure a
    | .done none => stop

variable [LawfulMonad m] {visit : Nat → β → m (Visit β α)} {stop : m α}

/-- A loop whose result is taken apart afterwards is a search. -/
theorem descend_bind_eq_findOr_bind {F : Option α → m γ} {K : α → m γ}
    (hsome : ∀ a, F (some a) = K a)
    (hnone : F none = stop >>= K) (k : Nat) (b : β) :
    descend visit k b >>= F = findOr stop visit k b >>= K := by
  induction k generalizing b with
  | zero => simp [descend, findOr, hnone]
  | succ k ih =>
    rw [descend, findOr, bind_assoc, bind_assoc]
    congr 1
    funext v
    rcases v with b' | _ | a
    · exact ih b'
    · simp [hnone]
    · simp [hsome]

/-- A search sees its visits only through `live`. -/
theorem findOr_succ {stopV : m (Visit β α)} (hstop : ∀ f : Visit β α → m α, stopV >>= f = stop)
    (i : Nat) (b : β) :
    findOr stop visit (i + 1) b = live stopV (visit i b) >>= fun v =>
      match v with
      | .next b' => findOr stop visit i b'
      | .done (some a) => pure a
      | .done none => stop := by
  rw [findOr, live, bind_assoc]
  congr 1
  funext v
  rcases v with b' | _ | a
  · simp
  · simp [hstop]
  · simp

end Search

section Related

variable {m n : Type → Type} [Monad m] [Monad n] [LawfulMonad m] [LawfulMonad n] (L : Relator m n)

/-- Related decisions: the same child, with `P`, or results related by `Q`. -/
def VisitRel (P : β → Prop) (Q : α → α → Prop) : Visit β α → Visit β α → Prop
  | .next b, .next b' => b = b' ∧ P b
  | .done (some a), .done (some a') => Q a a'
  | _, _ => False

/-- **Related searches.** When the visits to every node that has `P` are related, and to stop is
related to everything, the searches find related results. -/
theorem findOr_rel {visit : Nat → β → m (Visit β α)} {visit' : Nat → β → n (Visit β α)} {stop : m α}
    {stop' : n α} {stopV : m (Visit β α)} {stopV' : n (Visit β α)} {P : β → Prop} {Q : α → α → Prop}
    (hstopV : ∀ f : Visit β α → m α, stopV >>= f = stop)
    (hstopV' : ∀ f : Visit β α → n α, stopV' >>= f = stop')
    (hstop : ∀ d', L.rel Q stop d')
    (hvisit : ∀ i b, P b →
      L.rel (VisitRel P Q) (live stopV (visit i b)) (live stopV' (visit' i b)))
    (k : Nat) {b : β} (hb : P b) : L.rel Q (findOr stop visit k b) (findOr stop' visit' k b) := by
  induction k generalizing b with
  | zero => exact hstop _
  | succ k ih =>
    rw [findOr_succ hstopV, findOr_succ hstopV']
    apply L.rel_bind (hvisit k b hb)
    intro v v' hv
    rcases v with b₁ | _ | a <;> rcases v' with b₂ | _ | a' <;> try exact hv.elim
    · obtain ⟨rfl, hP⟩ := hv
      exact ih hP
    · exact L.rel_pure hv

end Related

end Radix

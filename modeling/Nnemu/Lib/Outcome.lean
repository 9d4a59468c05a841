import Nnemu.Lib.Exec

/-!
# Outcomes of programs

A program that may throw has two ways to end. `Outcome` says what holds at each: the rules below
take it through a program one statement at a time, and through a loop with an invariant on the
number of its rounds.
-/

namespace Exec

variable {ε σ α β : Type} {s : σ} {post : α → σ → Prop} {stop : ε → σ → Prop}

/-- The program returns to where `post` holds, or throws where `stop` holds. -/
structure Outcome (x : Exec ε σ α) (s : σ) (post : α → σ → Prop) (stop : ε → σ → Prop) : Prop where
  ok : ∀ {a t}, x s = .ok a t → post a t
  error : ∀ {e t}, x s = .error e t → stop e t

theorem outcome_pure {a : α} (h : post a s) : Outcome (pure a) s post stop where
  ok hrun := by
    cases hrun
    exact h
  error hrun := by cases hrun

theorem outcome_throw {e : ε} (h : stop e s) : Outcome (throw e) s post stop where
  ok hrun := by cases hrun
  error hrun := by
    cases hrun
    exact h

/-- A statement and what follows it. -/
theorem outcome_bind {x : Exec ε σ α} {f : α → Exec ε σ β} {post : β → σ → Prop}
    (h : Outcome x s (fun a t => Outcome (f a) t post stop) stop) :
    Outcome (x >>= f) s post stop where
  ok hrun := by
    obtain ⟨a, u, hx, hf⟩ := bind_eq_ok_iff.1 hrun
    exact (h.ok hx).ok hf
  error hrun := by
    obtain hx | ⟨a, u, hx, hf⟩ := bind_eq_error_iff.1 hrun
    · exact h.error hx
    · exact (h.ok hx).error hf

theorem Outcome.mono {x : Exec ε σ α} {post' : α → σ → Prop} {stop' : ε → σ → Prop}
    (h : Outcome x s post stop)
    (hpost : ∀ a t, post a t → post' a t) (hstop : ∀ e t, stop e t → stop' e t) :
    Outcome x s post' stop' where
  ok hrun := hpost _ _ (h.ok hrun)
  error hrun := hstop _ _ (h.error hrun)

theorem Outcome.bind {x : Exec ε σ α} {f : α → Exec ε σ β} {mid : α → σ → Prop}
    {post : β → σ → Prop}
    (h : Outcome x s mid stop) (hf : ∀ a t, mid a t → Outcome (f a) t post stop) :
    Outcome (x >>= f) s post stop :=
  outcome_bind (h.mono hf fun _ _ => id)

theorem outcome_ite {c : Prop} [Decidable c] {x y : Exec ε σ α} (hx : c → Outcome x s post stop)
    (hy : ¬c → Outcome y s post stop) : Outcome (if c then x else y) s post stop := by
  split
  · exact hx ‹_›
  · exact hy ‹_›

/-- **A loop** over the numbers below `n`. -/
theorem outcome_range {f : β → Nat → Exec ε σ β} {n : Nat} {b : β} (I : Nat → β → σ → Prop)
    (h0 : I 0 b s)
    (hstep : ∀ i b s, i < n → I i b s → Outcome (f b i) s (I (i + 1)) stop) :
    Outcome ((List.range n).foldlM f b) s (I n) stop := by
  induction n with
  | zero => exact outcome_pure h0
  | succ n ih =>
    rw [List.range_succ, List.foldlM_append]
    refine (ih fun i b s hi => hstep i b s (Nat.lt_succ_of_lt hi)).bind fun b t hb => ?_
    rw [List.foldlM_cons]
    exact (hstep n b t n.lt_succ_self hb).bind fun b u hu => outcome_pure hu

end Exec

import Nnemu.Lib.Exec

/-!
# Descending a radix tree

A page-table walk is a loop over levels that starts at a root, visits one node a level and either
goes on to a child or ends, with a result or without. `descend` is that loop for an arbitrary monad
and an arbitrary `visit`. `Reaches` says that the loop comes to a node; a run of `descend` is
determined by the node at which it ends (`descend_eq_ok_iff`, `descend_eq_error_iff`).
-/

namespace Radix

variable {α β ε σ : Type}

/-- What a visit decides: go on to a child, or end the loop, with a result or by `break`. -/
inductive Visit (β α : Type) where
  | next (b : β)
  | done (r : Option α)

/-- The loop over the levels below `n`. It runs out of levels without a result. -/
def descend {m : Type → Type} [Monad m] (visit : Nat → β → m (Visit β α)) :
    Nat → β → m (Option α)
  | 0, _ => pure none
  | i + 1, b => do
    match ← visit i b with
    | .next b' => descend visit i b'
    | .done r => pure r

variable {visit : Nat → β → Exec ε σ (Visit β α)}

/-- The loop comes from node `b` with `n` levels left to node `c` with `k` levels left. -/
inductive Reaches (visit : Nat → β → Exec ε σ (Visit β α)) : Nat → β → σ → Nat → β → σ → Prop where
  | refl (n : Nat) (b : β) (s : σ) : Reaches visit n b s n b s
  | step {i : Nat} {b b' : β} {s s' : σ} {k : Nat} {c : β} {t : σ} :
      visit i b s = .ok (.next b') s' → Reaches visit i b' s' k c t →
        Reaches visit (i + 1) b s k c t

namespace Reaches

variable {n k : Nat} {b c : β} {s t : σ}

theorem le (h : Reaches visit n b s k c t) : k ≤ n := by
  induction h with
  | refl => exact Nat.le_refl _
  | step _ _ ih => exact Nat.le_succ_of_le ih

/-- **Invariants.** A property of the level, the node and the state that every step down preserves
holds wherever the loop comes. -/
theorem induct {P : Nat → β → σ → Prop}
    (hstep : ∀ i b s b' s', P (i + 1) b s → visit i b s = .ok (.next b') s' → P i b' s')
    (h : Reaches visit n b s k c t) (h0 : P n b s) : P k c t := by
  induction h with
  | refl => exact h0
  | step hv _ ih => exact ih (hstep _ _ _ _ _ h0 hv)

end Reaches

/-- **Where a returning loop ends**: at a visit that ends it, or below the last level. -/
theorem descend_eq_ok_iff {n : Nat} {b : β} {s t : σ} {r : Option α} :
    descend visit n b s = .ok r t ↔
      (r = none ∧ ∃ c, Reaches visit n b s 0 c t) ∨
        ∃ i c u, Reaches visit n b s (i + 1) c u ∧ visit i c u = .ok (.done r) t := by
  induction n generalizing b s with
  | zero =>
    rw [descend]
    constructor
    · intro h
      cases h
      exact .inl ⟨rfl, b, .refl _ _ _⟩
    · rintro (⟨rfl, c, hr⟩ | ⟨i, c, u, hr, -⟩)
      · cases hr
        rfl
      · exact absurd hr.le (by omega)
  | succ n ih =>
    rw [descend, Exec.bind_eq_ok_iff]
    constructor
    · rintro ⟨v, u, hv, h⟩
      cases v with
      | next b' =>
        rcases ih.1 h with ⟨hr, c, hc⟩ | ⟨i, c, u', hc, hd⟩
        · exact .inl ⟨hr, c, .step hv hc⟩
        · exact .inr ⟨i, c, u', .step hv hc, hd⟩
      | done r' =>
        cases h
        exact .inr ⟨n, b, s, .refl _ _ _, hv⟩
    · rintro (⟨hr, c, hc⟩ | ⟨i, c, u, hc, hd⟩)
      · cases hc with
        | step hv hc' => exact ⟨_, _, hv, ih.2 (.inl ⟨hr, c, hc'⟩)⟩
      · cases hc with
        | refl => exact ⟨_, _, hd, rfl⟩
        | step hv hc' => exact ⟨_, _, hv, ih.2 (.inr ⟨i, c, u, hc', hd⟩)⟩

/-- **Where a throwing loop throws**: at a visit it comes to. -/
theorem descend_eq_error_iff {n : Nat} {b : β} {s t : σ} {e : ε} :
    descend visit n b s = .error e t ↔
      ∃ i c u, Reaches visit n b s (i + 1) c u ∧ visit i c u = .error e t := by
  induction n generalizing b s with
  | zero =>
    rw [descend]
    constructor
    · intro h
      cases h
    · rintro ⟨i, c, u, hr, -⟩
      exact absurd hr.le (by omega)
  | succ n ih =>
    rw [descend, Exec.bind_eq_error_iff]
    constructor
    · rintro (hv | ⟨v, u, hv, h⟩)
      · exact ⟨n, b, s, .refl _ _ _, hv⟩
      · cases v with
        | next b' =>
          obtain ⟨i, c, u', hc, hd⟩ := ih.1 h
          exact ⟨i, c, u', .step hv hc, hd⟩
        | done r => cases h
    · rintro ⟨i, c, u, hc, hd⟩
      cases hc with
      | refl => exact .inl hd
      | step hv hc' => exact .inr ⟨_, _, hv, ih.2 ⟨i, c, u, hc', hd⟩⟩

end Radix

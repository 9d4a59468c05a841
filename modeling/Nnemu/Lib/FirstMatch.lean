import Mathlib.Data.List.Basic

/-!
# First-match protection rules

A protection unit holds a priority list of regions. The rule for an access, a set of points, is: the
first region that contains any point of the access must contain all of them and must grant the
access; when no region contains a point, a default decides. `Permits` states the rule for an
arbitrary set of points. `verdict` is the check a program makes on a finite list of sample points.

Both are expressed through `owner`, the first region that contains a given point: an access is
permitted when all its points have one owner and that owner permits it (`permits_iff`,
`verdict_eq_true_iff`). Checking samples instead of all points is therefore right exactly as far as
the owners of the samples determine the owners of the rest.
-/

namespace FirstMatch

variable {α : Type*} (n : Nat) (r : Nat → α → Bool)

/-- The first of `n` regions that contains `a`. -/
def owner (a : α) : Option Nat :=
  (List.range n).find? fun i => r i a

/-- The check on a list of samples: the first region matching any sample must match them all. -/
def verdict (perm : Option Nat → Bool) (xs : List α) : Bool :=
  match (List.range n).find? fun i => xs.any (r i) with
  | some i => xs.all (r i) && perm (some i)
  | none => perm none

/-- The rule for a set of points. -/
def Permits (perm : Option Nat → Prop) (s : α → Prop) : Prop :=
  (∃ i, i < n ∧ (∃ a, s a ∧ r i a) ∧ (∀ j, j < i → ∀ a, s a → ¬ r j a) ∧ (∀ a, s a → r i a) ∧
      perm (some i)) ∨
    ((∀ i, i < n → ∀ a, s a → ¬ r i a) ∧ perm none)

variable {n r}

theorem owner_eq_some_iff {a : α} {i : Nat} :
    owner n r a = some i ↔ i < n ∧ r i a = true ∧ ∀ j, j < i → r j a = false := by
  simp only [owner, List.find?_range_eq_some, List.mem_range, Bool.not_eq_true']
  exact ⟨fun ⟨h1, h2, h3⟩ => ⟨h2, h1, h3⟩, fun ⟨h1, h2, h3⟩ => ⟨h2, h1, h3⟩⟩

theorem owner_eq_none_iff {a : α} : owner n r a = none ↔ ∀ i, i < n → r i a = false := by
  simp [owner]

/-- Points no region tells apart have one owner. -/
theorem owner_congr {a b : α} (h : ∀ i, i < n → r i a = r i b) : owner n r a = owner n r b := by
  cases hb : owner n r b with
  | none =>
    rw [owner_eq_none_iff] at hb ⊢
    intro i hi
    rw [h i hi, hb i hi]
  | some i =>
    rw [owner_eq_some_iff] at hb ⊢
    obtain ⟨hi, hm, hlow⟩ := hb
    exact ⟨hi, (h i hi).trans hm, fun j hj => (h j (Nat.lt_trans hj hi)).trans (hlow j hj)⟩

/-- **Owners decide.** A nonempty set of points is permitted when its points have one owner and that
owner permits the access. -/
theorem permits_iff {perm : Option Nat → Prop} {s : α → Prop} {a₀ : α} (h₀ : s a₀) :
    Permits n r perm s ↔ (∀ a, s a → owner n r a = owner n r a₀) ∧ perm (owner n r a₀) := by
  constructor
  · rintro (⟨i, hi, -, hlow, hall, hp⟩ | ⟨hnone, hp⟩)
    · have hown : ∀ a, s a → owner n r a = some i := by
        intro a ha
        exact owner_eq_some_iff.2 ⟨hi, hall a ha, fun j hj => by simpa using hlow j hj a ha⟩
      refine ⟨fun a ha => ?_, ?_⟩
      · rw [hown a ha, hown a₀ h₀]
      · rwa [hown a₀ h₀]
    · have hown : ∀ a, s a → owner n r a = none := by
        intro a ha
        exact owner_eq_none_iff.2 fun i hi => by simpa using hnone i hi a ha
      refine ⟨fun a ha => ?_, ?_⟩
      · rw [hown a ha, hown a₀ h₀]
      · rwa [hown a₀ h₀]
  · rintro ⟨hown, hp⟩
    cases ho : owner n r a₀ with
    | none =>
      rw [ho] at hown hp
      refine .inr ⟨fun i hi a ha => ?_, hp⟩
      simp [owner_eq_none_iff.1 (hown a ha) i hi]
    | some i =>
      rw [ho] at hown hp
      obtain ⟨hi, hm, -⟩ := owner_eq_some_iff.1 ho
      refine .inl ⟨i, hi, ⟨a₀, h₀, hm⟩, fun j hj a ha => ?_, fun a ha => ?_, hp⟩
      · simp [(owner_eq_some_iff.1 (hown a ha)).2.2 j hj]
      · exact (owner_eq_some_iff.1 (hown a ha)).2.1

/-- The check on samples is the rule for the set of samples. -/
theorem verdict_eq_true_iff_permits {perm : Option Nat → Bool} {xs : List α} :
    verdict n r perm xs = true ↔ Permits n r (fun o => perm o = true) (· ∈ xs) := by
  unfold verdict
  split
  case h_1 i hfind =>
    simp only [List.find?_range_eq_some, List.mem_range, List.any_eq_true, Bool.not_eq_true',
      List.any_eq_false] at hfind
    obtain ⟨⟨x, hx, hm⟩, hi, hlow⟩ := hfind
    simp only [Bool.and_eq_true, List.all_eq_true]
    constructor
    · intro ⟨hall, hp⟩
      exact .inl ⟨i, hi, ⟨x, hx, hm⟩, fun j hj a ha => hlow j hj a ha, hall, hp⟩
    · rintro (⟨k, hk, ⟨y, hy, hmy⟩, hlowk, hall, hp⟩ | ⟨hnone, -⟩)
      · -- both `i` and `k` are the first region matching a sample
        have hki : k = i := by
          rcases Nat.lt_trichotomy k i with hlt | heq | hgt
          · exact absurd hmy (hlow k hlt y hy)
          · exact heq
          · exact absurd hm (hlowk i hgt x hx)
        subst hki
        exact ⟨hall, hp⟩
      · exact absurd hm (hnone i hi x hx)
  case h_2 hfind =>
    simp only [List.find?_range_eq_none, Bool.not_eq_true', List.any_eq_false] at hfind
    constructor
    · intro hp
      exact .inr ⟨hfind, hp⟩
    · rintro (⟨i, hi, ⟨x, hx, hm⟩, -⟩ | ⟨-, hp⟩)
      · exact absurd hm (hfind i hi x hx)
      · exact hp

/-- The check on a nonempty list of samples, through the owner of the first one. -/
theorem verdict_eq_true_iff {perm : Option Nat → Bool} {xs : List α} {x₀ : α} (h₀ : x₀ ∈ xs) :
    verdict n r perm xs = true ↔
      (∀ x, x ∈ xs → owner n r x = owner n r x₀) ∧ perm (owner n r x₀) = true := by
  rw [verdict_eq_true_iff_permits, permits_iff (s := (· ∈ xs)) h₀]

end FirstMatch

import Mathlib.Order.Basic

/-!
# Chains of consecutive positions

A position may be linked to the next one. Positions linked to each other form a chain, which ends at
a position that is not linked. A loop that runs over the positions once knows of a chain only
whether it has been good so far (`Sound`); `complete_iff` says that this is enough to recognise the
chains that are good altogether.
-/

namespace Chains

variable {link good : Nat → Prop} {i j k n : Nat}

/-- From `k` on every position below `n` is linked to the next. -/
def Reaches (link : Nat → Prop) (k n : Nat) : Prop :=
  ∀ m, k ≤ m → m < n → link m

/-- The positions `i` to `j` are a chain that cannot be extended to either side. -/
structure Maximal (link : Nat → Prop) (i j : Nat) : Prop where
  le : i ≤ j
  linked : Reaches link i j
  last : ¬ link j
  first : i = 0 ∨ ¬ link (i - 1)

/-- The chain that is open at `n` is good so far. -/
def Sound (link good : Nat → Prop) (n : Nat) : Prop :=
  ∀ k, k < n → Reaches link k n → good k

/-- A chain ends at `j`, and it is good. -/
structure Complete (link good : Nat → Prop) (j : Nat) : Prop where
  last : ¬ link j
  here : good j
  sound : Sound link good j

theorem reaches_succ (hk : k ≤ n) : Reaches link k (n + 1) ↔ Reaches link k n ∧ link n := by
  constructor
  · intro h
    exact ⟨fun m hkm hmn => h m hkm (by omega), h n hk (by omega)⟩
  · rintro ⟨h, hn⟩ m hkm hmn
    obtain hlt | rfl := Nat.lt_or_eq_of_le (Nat.le_of_lt_succ hmn)
    · exact h m hkm hlt
    · exact hn

theorem sound_zero : Sound link good 0 :=
  fun _ hk => absurd hk (Nat.not_lt_zero _)

/-- A chain is closed at an unlinked position, and otherwise goes on with it. -/
theorem sound_succ : Sound link good (n + 1) ↔ (link n → good n ∧ Sound link good n) := by
  constructor
  · intro h hn
    refine ⟨h n (Nat.lt_succ_self n)
      ((reaches_succ (Nat.le_refl n)).2 ⟨fun m hm hmn => by omega, hn⟩), ?_⟩
    intro k hk hreach
    exact h k (by omega) ((reaches_succ (by omega)).2 ⟨hreach, hn⟩)
  · intro h k hk hreach
    obtain ⟨hreach', hn⟩ := (reaches_succ (by omega)).1 hreach
    obtain ⟨hgood, hsound⟩ := h hn
    obtain hlt | rfl := Nat.lt_or_eq_of_le (Nat.le_of_lt_succ hk)
    · exact hsound k hlt hreach'
    · exact hgood

/-- Every position is reached from the start of its chain. -/
theorem exists_start (link : Nat → Prop) (j : Nat) : ∃ i, i ≤ j ∧ Reaches link i j ∧
    (i = 0 ∨ ¬ link (i - 1)) := by
  induction j with
  | zero => exact ⟨0, Nat.le_refl 0, fun m _ hm => absurd hm (Nat.not_lt_zero m), .inl rfl⟩
  | succ j ih =>
    by_cases hj : link j
    · obtain ⟨i, hi, hreach, hfirst⟩ := ih
      exact ⟨i, by omega, (reaches_succ hi).2 ⟨hreach, hj⟩, hfirst⟩
    · exact ⟨j + 1, Nat.le_refl _, fun m hm hmj => by omega, .inr hj⟩

/-- Nothing before the start of a chain reaches into it. -/
theorem start_le (hfirst : i = 0 ∨ ¬ link (i - 1)) (hi : i ≤ j) (h : Reaches link k j) : i ≤ k := by
  by_contra hlt
  obtain rfl | hfirst := hfirst
  · omega
  · exact hfirst (h (i - 1) (by omega) (by omega))

/-- **A chain is complete exactly when it is a maximal one with good positions only.** -/
theorem complete_iff : Complete link good j ↔ ∃ i, Maximal link i j ∧ ∀ k, i ≤ k →
    k ≤ j → good k := by
  constructor
  · rintro ⟨hlast, hgood, hsound⟩
    obtain ⟨i, hi, hreach, hfirst⟩ := exists_start link j
    refine ⟨i, ⟨hi, hreach, hlast, hfirst⟩, fun k hik hkj => ?_⟩
    obtain hlt | rfl := Nat.lt_or_eq_of_le hkj
    · exact hsound k hlt fun m hkm hmj => hreach m (by omega) hmj
    · exact hgood
  · rintro ⟨i, hmax, hgood⟩
    refine ⟨hmax.last, hgood j hmax.le (Nat.le_refl j), fun k hkj hreach => ?_⟩
    exact hgood k (start_le hmax.first hmax.le hreach) (by omega)

/-! ### The best position -/

variable {p : Nat → Prop} {rank : Nat → Nat}

/-- `j` has the greatest rank among the positions below `n` that satisfy `p`, and is the first of
that rank. -/
structure Best (p : Nat → Prop) (rank : Nat → Nat) (n j : Nat) : Prop where
  lt : j < n
  mem : p j
  le : ∀ k, k < n → p k → rank k ≤ rank j
  first : ∀ k, k < j → p k → rank k < rank j

/-- The next position is not taken: it is no candidate, or no better one. -/
theorem Best.skip (h : Best p rank n j) (hn : p n → rank n ≤ rank j) : Best p rank (n + 1) j := by
  refine ⟨Nat.lt_succ_of_lt h.lt, h.mem, fun k hk hp => ?_, h.first⟩
  obtain hlt | rfl := Nat.lt_or_eq_of_le (Nat.le_of_lt_succ hk)
  · exact h.le k hlt hp
  · exact hn hp

/-- It is taken: it is a better one. -/
theorem Best.replace (h : Best p rank n j) (hn : p n) (hrank : rank j < rank n) :
    Best p rank (n + 1) n := by
  refine ⟨Nat.lt_succ_self n, hn, fun k hk hp => ?_,
    fun k hk hp => Nat.lt_of_le_of_lt (h.le k hk hp) hrank⟩
  obtain hlt | rfl := Nat.lt_or_eq_of_le (Nat.le_of_lt_succ hk)
  · exact Nat.le_of_lt (Nat.lt_of_le_of_lt (h.le k hlt hp) hrank)
  · exact Nat.le_refl _

/-- It is the first candidate. -/
theorem Best.of_first (hnone : ∀ k, k < n → ¬ p k) (hn : p n) : Best p rank (n + 1) n := by
  refine ⟨Nat.lt_succ_self n, hn, fun k hk hp => ?_, fun k hk hp => absurd hp (hnone k hk)⟩
  obtain hlt | rfl := Nat.lt_or_eq_of_le (Nat.le_of_lt_succ hk)
  · exact absurd hp (hnone k hlt)
  · exact Nat.le_refl _

end Chains

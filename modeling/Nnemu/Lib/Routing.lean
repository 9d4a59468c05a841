import Mathlib.Order.Lattice

/-!
# Routing by the greatest base

A map from bases to targets, as a list in ascending order. A key belongs to the entry with the
greatest base that is not above it; how far an entry reaches is not looked at.
-/

namespace Routing

variable {K α : Type*} [LinearOrder K]

/-- The last entry whose base is not above the key. -/
def find : List (K × α) → K → Option (K × α)
  | [], _ => none
  | (base, target) :: rest, key => (find rest key).or
    (if base ≤ key then some (base, target) else none)

/-- What is found is an entry, and its base is not above the key. -/
theorem mem_and_le {entries : List (K × α)} {key : K} {entry : K × α}
    (h : find entries key = some entry) :
    entry ∈ entries ∧ entry.1 ≤ key := by
  induction entries with
  | nil => cases h
  | cons head rest ih =>
    rw [find, Option.or_eq_some_iff] at h
    obtain hrest | ⟨-, hhead⟩ := h
    · exact ⟨List.mem_cons_of_mem _ (ih hrest).1, (ih hrest).2⟩
    · by_cases hle : head.1 ≤ key
      · rw [if_pos hle] at hhead
        cases hhead
        exact ⟨List.mem_cons_self, hle⟩
      · rw [if_neg hle] at hhead
        cases hhead

/-- What is found is an entry. -/
theorem find_mem {entries : List (K × α)} {key : K} {entry : K × α}
    (h : find entries key = some entry) :
    entry ∈ entries :=
  (mem_and_le h).1

/-- Its base is not above the key. -/
theorem find_le {entries : List (K × α)} {key : K} {entry : K × α}
    (h : find entries key = some entry) :
    entry.1 ≤ key :=
  (mem_and_le h).2

/-- An entry above all others. -/
theorem find_concat (entries : List (K × α)) (base : K) (target : α) (key : K) :
    find (entries ++ [(base, target)]) key = if base ≤ key then some (base, target)
      else find entries key := by
  induction entries with
  | nil => rfl
  | cons entry entries ih =>
    rw [List.cons_append, find, ih, find]
    by_cases h : base ≤ key
    · rw [if_pos h, if_pos h, Option.some_or]
    · rw [if_neg h, if_neg h]

end Routing

import Mathlib.Data.List.Basic

/-!
# Tables that reorder themselves

A table of rules answers a query with its first rule that hits. A lookup may move the rule it found
to the front, so that the next lookup is faster, and the answers stay the same as long as the rules
that share queries keep their order. That is what `SameHits` says: for each query, the rules that
hit stand in the same order.

Rules of one key may share queries, and they stand together (`Grouped`). A rule whose neighbours
have other keys is therefore the only one with its key, and moving it to the front changes no
answer.
-/

namespace MoveToFront

variable {α κ Q : Type*} {hits : α → Q → Bool} {key : α → κ} {l l' l'' pre post : List α}
  {p u v : α}

/-! ### Answers -/

/-- The rules that hit a query stand in the same order. -/
def SameHits (hits : α → Q → Bool) (l l' : List α) : Prop :=
  ∀ q, (l.filter fun a => hits a q) = l'.filter fun a => hits a q

theorem SameHits.refl (hits : α → Q → Bool) (l : List α) : SameHits hits l l :=
  fun _ => rfl

theorem SameHits.trans (s : SameHits hits l l') (s' : SameHits hits l' l'') : SameHits hits l l'' :=
  fun q => (s q).trans (s' q)

/-- **Tables with the same hits give the same answers.** -/
theorem SameHits.find? (s : SameHits hits l l') (q : Q) :
    (l.find? fun a => hits a q) = l'.find? fun a => hits a q := by
  rw [← List.head?_filter, ← List.head?_filter, s q]

/-- A rule may pass rules with which it shares no query. -/
theorem SameHits.moveToFront (hdisj : ∀ a ∈ pre, ∀ q, hits p q = true → hits a q = false)
    (post : List α) :
    SameHits hits (p :: (pre ++ post)) (pre ++ p :: post) := by
  intro q
  rw [List.filter_append, List.filter_cons, List.filter_cons, List.filter_append]
  by_cases hp : hits p q = true
  · have hpre : (pre.filter fun a => hits a q) = [] := by
      rw [List.filter_eq_nil_iff]
      intro a ha
      rw [hdisj a ha q hp]
      decide
    rw [if_pos hp, if_pos hp, hpre, List.nil_append, List.nil_append]
  · rw [if_neg hp, if_neg hp]

/-! ### Groups -/

/-- Rules of one key stand together. -/
def Grouped (key : α → κ) (l : List α) : Prop :=
  ∀ a y b, [a, y, b].Sublist l → key a = key b → key y = key a

theorem Grouped.sublist (g : Grouped key l) (h : l'.Sublist l) : Grouped key l' :=
  fun a y b hs => g a y b (hs.trans h)

/-- Lists that are sorted by the key are grouped. -/
theorem Grouped.of_pairwise {le : κ → κ → Prop} (hanti : ∀ {x y}, le x y → le y x → x = y)
    (h : l.Pairwise fun a b => le (key a) (key b)) : Grouped key l := by
  intro a y b hs heq
  have hay : le (key a) (key y) :=
    List.pairwise_iff_forall_sublist.1 h ((List.sublist_append_left [a, y] [b]).trans hs)
  have hyb : le (key y) (key b) :=
    List.pairwise_iff_forall_sublist.1 h ((List.sublist_cons_self a [y, b]).trans hs)
  rw [← heq] at hyb
  exact hanti hyb hay

/-- **Alone.** A rule whose neighbours have other keys is the only one with its key. -/
theorem Grouped.alone (g : Grouped key (pre ++ u :: p :: v :: post)) (hu : key p ≠ key u)
    (hv : key p ≠ key v) :
    ∀ a ∈ pre ++ u :: v :: post, key a ≠ key p := by
  intro a ha heq
  rw [List.mem_append, List.mem_cons, List.mem_cons] at ha
  rcases ha with ha | rfl | rfl | ha
  · have hsub : [a, u, p].Sublist (pre ++ u :: p :: v :: post) :=
      (List.singleton_sublist.2 ha).append (((List.nil_sublist _).cons_cons p).cons_cons u)
    exact hu ((g a u p hsub heq).trans heq).symm
  · exact hu heq.symm
  · exact hv heq.symm
  · have hsub : [p, v, a].Sublist (pre ++ u :: p :: v :: post) :=
      (((List.singleton_sublist.2 ha).cons_cons v).cons_cons p).trans
        ((List.sublist_cons_self u _).trans (List.sublist_append_right pre _))
    exact hv (g p v a hsub heq.symm).symm

/-- A rule with a key of its own may move. -/
theorem Grouped.moveToFront (g : Grouped key (pre ++ p :: post))
    (halone : ∀ a ∈ pre ++ post, key a ≠ key p) :
    Grouped key (p :: (pre ++ post)) := by
  have hrest : Grouped key (pre ++ post) :=
    g.sublist ((List.Sublist.refl pre).append (List.sublist_cons_self p post))
  intro a y b hs heq
  rw [List.sublist_cons_iff] at hs
  obtain hs | ⟨r, hr, hs⟩ := hs
  · exact hrest a y b hs heq
  · cases hr
    exact absurd heq.symm
      (halone b (hs.subset (List.mem_cons_of_mem y (List.mem_singleton_self b))))

end MoveToFront

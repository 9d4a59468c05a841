import Mathlib.Tactic.TypeStar

/-!
# Components on top of each other

A component serves a request and sends requests of its own to the one below, which knows nothing of
who is above. When every component simulates its specification, the stack simulates the stack of the
specifications (`simulates`), whatever the depth.
-/

namespace Levels

universe u

variable {α C A : Type u} {R : Type*}

/-- `n` components, the topmost first. -/
def Stack (α : Type u) : Nat → Type u
  | 0 => PUnit
  | n + 1 => α × Stack α n

/-- A function of every component. -/
def map (f : C → A) : (n : Nat) → Stack C n → Stack A n
  | 0, _ => PUnit.unit
  | n + 1, s => (f s.1, map f n s.2)

/-- Every component of the stack satisfies `P`. -/
def Each (P : α → Prop) : (n : Nat) → Stack α n → Prop
  | 0, _ => True
  | n + 1, s => P s.1 ∧ Each P n s.2

/-- Every component is related to the one at its level. -/
def Related (rel : C → A → Prop) : (n : Nat) → Stack C n → Stack A n → Prop
  | 0, _, _ => True
  | n + 1, s, t => rel s.1 t.1 ∧ Related rel n s.2 t.2

/-- The topmost component serves a request; what it sends is served below, in order. `none` is a
failure. -/
def serve (step : C → R → Option (C × List R)) : (n : Nat) → Stack C n → R → Option (Stack C n)
  | 0, s, _ => some s
  | n + 1, s, r => (step s.1 r).bind fun p => (p.2.foldlM (serve step n) s.2).map fun rest =>
    (p.1, rest)

/-- A list of requests, one after the other. -/
def serveAll (step : C → R → Option (C × List R)) (n : Nat) (s : Stack C n) (rs : List R) :
    Option (Stack C n) :=
  rs.foldlM (serve step n) s

/-- A list of steps of a specification. -/
def Steps (spec : A → R → A → Prop) : A → List R → A → Prop
  | a, [], a' => a' = a
  | a, r :: rs, a' => ∃ mid, spec a r mid ∧ Steps spec mid rs a'

/-- What a stack of specifications may do with a request. -/
def Spec (spec : A → R → A → List R → Prop) : (n : Nat) → Stack A n → R → Stack A n → Prop
  | 0, _, _, _ => True
  | n + 1, s, r, s' => ∃ sent, spec s.1 r s'.1 sent ∧ Steps (Spec spec n) s.2 sent s'.2

/-- A list of requests that are all allowed in the state in which they are served. -/
def Allowed (step : C → R → Option C) (ok : C → R → Prop) : C → List R → Prop
  | _, [] => True
  | c, r :: rs => ok c r ∧ ∀ c', step c r = some c' → Allowed step ok c' rs

/-- The request, and all that are sent on its account, are allowed at their levels. -/
def Ok (step : C → R → Option (C × List R)) (ok : C → R → Prop) : (n : Nat) → Stack C n → R → Prop
  | 0, _, _ => True
  | n + 1, s, r => ok s.1 r ∧ ∀ p, step s.1 r = some p →
    Allowed (serve step n) (Ok step ok n) s.2 p.2

instance Allowed.decidable {step : C → R → Option C} {ok : C → R → Prop}
    [∀ c r, Decidable (ok c r)] : ∀ c rs, Decidable (Allowed step ok c rs)
  | _, [] => isTrue trivial
  | c, r :: rs =>
    have (c' : C) : Decidable (Allowed step ok c' rs) := Allowed.decidable c' rs
    inferInstanceAs (Decidable (ok c r ∧ ∀ c' ∈ step c r, Allowed step ok c' rs))

instance Ok.decidable {step : C → R → Option (C × List R)} {ok : C → R → Prop}
    [∀ c r, Decidable (ok c r)] : ∀ n s r, Decidable (Ok step ok n s r)
  | 0, _, _ => isTrue trivial
  | n + 1, s, r =>
    have (s : Stack C n) (r : R) : Decidable (Ok step ok n s r) := Ok.decidable n s r
    inferInstanceAs (Decidable (ok s.1 r ∧ ∀ p ∈ step s.1 r,
      Allowed (serve step n) (Ok step ok n) s.2 p.2))

/-- What holds of every component relates the stack to its image. -/
theorem Related.of_each {P : C → Prop} {rel : C → A → Prop} {f : C → A}
    (h : ∀ c, P c → rel c (f c)) (n : Nat) :
    ∀ s, Each P n s → Related rel n s (map f n s) := by
  induction n with
  | zero => exact fun _ _ => trivial
  | succ n ih => exact fun s hs => ⟨h s.1 hs.1, ih s.2 hs.2⟩

/-- One step lifts to a list of them. -/
theorem steps_of_step {step : C → R → Option C} {spec : A → R → A → Prop}
    {ok : C → R → Prop} {good : R → Prop}
    {rel : C → A → Prop}
    (hstep : ∀ c a r, rel c a → ok c r → good r → ∃ c' a',
      step c r = some c' ∧ spec a r a' ∧ rel c' a') (rs : List R) :
    ∀ c a, rel c a → Allowed step ok c rs → (∀ r ∈ rs, good r) →
      ∃ c' a', rs.foldlM step c = some c' ∧ Steps spec a rs a' ∧ rel c' a' := by
  induction rs with
  | nil =>
    intro c a hrel _ _
    exact ⟨c, a, rfl, rfl, hrel⟩
  | cons r rs ih =>
    intro c a hrel hallowed hgood
    obtain ⟨hok, hnext⟩ := hallowed
    obtain ⟨mid, b, hmid, hb, hrel'⟩ := hstep c a r hrel hok (hgood r List.mem_cons_self)
    obtain ⟨c', a', hc', ha', hrel''⟩ := ih mid b hrel' (hnext mid hmid) fun r' hr' =>
      hgood r' (List.mem_cons_of_mem r hr')
    refine ⟨c', a', ?_, ⟨b, hb, ha'⟩, hrel''⟩
    rw [List.foldlM_cons, hmid]
    exact hc'

/-- **Simulations compose.** When a component simulates its specification, so does a stack of
them. -/
theorem simulates {step : C → R → Option (C × List R)} {spec : A → R → A → List R → Prop}
    {ok : C → R → Prop}
    {good : R → Prop} {rel : C → A → Prop}
    (hstep : ∀ c a r, rel c a → ok c r → good r →
      ∃ c' a' sent, step c r = some (c', sent) ∧ spec a r a' sent ∧ rel c' a' ∧ ∀ r' ∈ sent,
      good r') (n : Nat) :
    ∀ s t r, Related rel n s t → Ok step ok n s r → good r →
      ∃ s' t', serve step n s r = some s' ∧ Spec spec n t r t' ∧ Related rel n s' t' := by
  induction n with
  | zero =>
    intro s t r _ _ _
    exact ⟨s, t, rfl, trivial, trivial⟩
  | succ n ih =>
    intro s t r hrel hok hgood
    obtain ⟨c', a', sent, hc', ha', hrel', hsent⟩ := hstep s.1 t.1 r hrel.1 hok.1 hgood
    obtain ⟨rest, below, hrest, hbelow, hrel''⟩ :=
      steps_of_step ih sent s.2 t.2 hrel.2 (hok.2 (c', sent) hc') hsent
    refine ⟨(c', rest), (a', below), ?_, ⟨sent, ha', hbelow⟩, hrel', hrel''⟩
    rw [serve, hc', Option.bind_some, hrest]
    rfl

/-- The same over a list of requests. -/
theorem simulates_all {step : C → R → Option (C × List R)} {spec : A → R → A → List R → Prop}
    {ok : C → R → Prop}
    {good : R → Prop} {rel : C → A → Prop}
    (hstep : ∀ c a r, rel c a → ok c r → good r →
      ∃ c' a' sent, step c r = some (c', sent) ∧ spec a r a' sent ∧ rel c' a' ∧ ∀ r' ∈ sent,
      good r') (n : Nat)
    (rs : List R) (s : Stack C n) (t : Stack A n) (hrel : Related rel n s t)
    (hallowed : Allowed (serve step n) (Ok step ok n) s rs) (hgood : ∀ r ∈ rs, good r) :
    ∃ s' t', serveAll step n s rs = some s' ∧ Steps (Spec spec n) t rs t' ∧ Related rel n s' t' :=
  steps_of_step (simulates hstep n) rs s t hrel hallowed hgood

end Levels

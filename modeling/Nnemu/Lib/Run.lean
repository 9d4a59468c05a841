import Mathlib.Logic.Function.Iterate
import Mathlib.Tactic.TypeStar

/-!
# Runs of a deterministic machine

A machine is a total step function `step : S → O → S`. `run` plays a list of operations, `Along`
says that every operation of a run is played in a state that allows it, and `Always` says that a
property holds in every state the run passes through. The induction over runs is done here, once:
a development states what one step preserves and obtains its run theorems from `run_induct`,
`run_rel` and `Always.of_step`. That a loop ends follows from what one round does to a rank, by
`exists_of_descent`.
-/

namespace Run

variable {S O : Type*} {step : S → O → S}

/-- The state after a list of operations. -/
def run (step : S → O → S) : S → List O → S
  | s, [] => s
  | s, o :: os => run step (step s o) os

@[simp] theorem run_nil (s : S) : run step s [] = s := rfl

@[simp] theorem run_cons (s : S) (o : O) (os : List O) :
    run step s (o :: os) = run step (step s o) os := rfl

theorem run_append (s : S) (os os' : List O) :
    run step s (os ++ os') = run step (run step s os) os' := by
  induction os generalizing s with
  | nil => rfl
  | cons o os ih => exact ih (step s o)

/-- Every operation of the run satisfies `P` in the state in which it is played. -/
def Along (step : S → O → S) (P : S → O → Prop) : S → List O → Prop
  | _, [] => True
  | s, o :: os => P s o ∧ Along step P (step s o) os

theorem along_append {P : S → O → Prop} (s : S) (os os' : List O) :
    Along step P s (os ++ os') ↔ Along step P s os ∧ Along step P (run step s os) os' := by
  induction os generalizing s with
  | nil => exact ⟨fun h => ⟨trivial, h⟩, fun h => h.2⟩
  | cons o os ih =>
    refine ⟨fun h => ?_, fun h => ⟨h.1.1, (ih (step s o)).2 ⟨h.1.2, h.2⟩⟩⟩
    obtain ⟨hos, hos'⟩ := (ih (step s o)).1 h.2
    exact ⟨⟨h.1, hos⟩, hos'⟩

theorem Along.take {P : S → O → Prop} {s : S} {os : List O} (h : Along step P s os) (k : Nat) :
    Along step P s (os.take k) := by
  rw [← List.take_append_drop k os] at h
  exact ((along_append s _ _).1 h).1

/-- **Idle operations.** Operations that change nothing in the states in which they are played may
be left out. -/
theorem run_filter {P : S → O → Prop} {p : O → Bool}
    (hidle : ∀ s o, P s o → p o = false → step s o = s) {s : S}
    {os : List O} (hos : Along step P s os) : run step s os = run step s (os.filter p) := by
  induction os generalizing s with
  | nil => rfl
  | cons o os ih =>
    obtain ⟨ho, hos⟩ := hos
    cases hp : p o with
    | true =>
      rw [List.filter_cons_of_pos hp]
      exact ih hos
    | false =>
      have hstep := hidle s o ho hp
      rw [hstep] at hos
      rw [List.filter_cons_of_neg (by rw [hp]; exact Bool.false_ne_true), run_cons, hstep]
      exact ih hos

instance Along.decidable {P : S → O → Prop} [∀ s o, Decidable (P s o)] :
    (s : S) → (os : List O) → Decidable (Along step P s os)
  | _, [] => isTrue trivial
  | s, o :: os => @instDecidableAnd _ _ inferInstance (Along.decidable (step s o) os)

/-- Every state of the run, the first and the last included, satisfies `Q`. -/
def Always (step : S → O → S) (Q : S → Prop) : S → List O → Prop
  | s, [] => Q s
  | s, o :: os => Q s ∧ Always step Q (step s o) os

/-- **Invariants.** What every step preserves holds at the end of a run. -/
theorem run_induct {I : S → Prop} (hstep : ∀ s o, I s → I (step s o)) {s : S} (hs : I s)
    (os : List O) : I (run step s os) := by
  induction os generalizing s with
  | nil => exact hs
  | cons o os ih => exact ih (hstep s o hs)

/-- **Step relations.** A reflexive, transitive relation that every step respects relates the two
ends of a run. -/
theorem run_rel {R : S → S → Prop} (hrefl : ∀ s, R s s)
    (htrans : ∀ s₁ s₂ s₃, R s₁ s₂ → R s₂ s₃ → R s₁ s₃) (hstep : ∀ s o, R s (step s o)) (s : S)
    (os : List O) : R s (run step s os) := by
  induction os generalizing s with
  | nil => exact hrefl s
  | cons o os ih => exact htrans _ _ _ (hstep s o) (ih (step s o))

/-- **Guarded invariants.** When every operation of the run is played under `P`, and steps under `P`
keep the invariant, what the invariant implies holds in every state of the run. -/
theorem Always.of_step {I Q : S → Prop} {P : S → O → Prop}
    (hstep : ∀ s o, I s → P s o → I (step s o)) (hIQ : ∀ s, I s → Q s) {s : S} {os : List O}
    (hs : I s) (hos : Along step P s os) : Always step Q s os := by
  induction os generalizing s with
  | nil => exact hIQ s hs
  | cons o os ih =>
    obtain ⟨ho, hos⟩ := hos
    exact ⟨hIQ s hs, ih (hstep s o hs ho) hos⟩

/-- The same for the steps: what the invariant implies of every operation that is played under `P`
holds along the run. -/
theorem Along.of_step {I : S → Prop} {P Q : S → O → Prop}
    (hstep : ∀ s o, I s → P s o → I (step s o))
    (hIQ : ∀ s o, I s → P s o → Q s o) {s : S} {os : List O} (hs : I s) (hos : Along step P s os) :
    Along step Q s os := by
  induction os generalizing s with
  | nil => trivial
  | cons o os ih =>
    obtain ⟨ho, hos⟩ := hos
    exact ⟨hIQ s o hs ho, ih (hstep s o hs ho) hos⟩

/-- What an invariant of every step implies holds in every state of a run. -/
theorem Always.of_invariant {I Q : S → Prop} (hstep : ∀ s o, I s → I (step s o))
    (hIQ : ∀ s, I s → Q s)
    {s : S} (hs : I s) (os : List O) : Always step Q s os := by
  induction os generalizing s with
  | nil => exact hIQ s hs
  | cons o os ih => exact ⟨hIQ s hs, ih (hstep s o hs)⟩

/-- A property of every state of a run holds in its last one. -/
theorem Always.last {Q : S → Prop} {s : S} {os : List O} (h : Always step Q s os) :
    Q (run step s os) := by
  induction os generalizing s with
  | nil => exact h
  | cons o os ih => exact ih h.2

/-- **Exact guards.** When a step keeps a property exactly under `P`, the property holds in every
state of a run exactly when every operation is played under `P`. -/
theorem always_iff_along {I Q : S → Prop} {P : S → O → Prop} (hI : ∀ s o, I s → I (step s o))
    (hstep : ∀ s o, I s → Q s → (Q (step s o) ↔ P s o)) {s : S} (hs : I s)
    (hq : Q s) (os : List O) :
    Always step Q s os ↔ Along step P s os := by
  induction os generalizing s with
  | nil => exact ⟨fun _ => trivial, fun _ => hq⟩
  | cons o os ih =>
    refine ⟨fun h => ?_, fun h => ?_⟩
    · have hq' : Q (step s o) := by
        cases os with
        | nil => exact h.2
        | cons o' os => exact h.2.1
      exact ⟨(hstep s o hs hq).1 hq', (ih (hI s o hs) hq').1 h.2⟩
    · exact ⟨hq, (ih (hI s o hs) ((hstep s o hs hq).2 h.1)).2 h.2⟩

/-! ### Observations -/

/-- What is observed along a run, one list for each operation. -/
def collect {α : Type*} (step : S → O → S) (f : S → O → List α) : S → List O → List α
  | _, [] => []
  | s, o :: os => f s o ++ collect step f (step s o) os

theorem collect_map {α β : Type*} (f : S → O → List α) (g : α → β) (s : S) (os : List O) :
    (collect step f s os).map g = collect step (fun s o => (f s o).map g) s os := by
  induction os generalizing s with
  | nil => rfl
  | cons o os ih => rw [collect, collect, List.map_append, ih (step s o)]

theorem collect_filter {α : Type*} (f : S → O → List α) (p : α → Bool) (s : S) (os : List O) :
    (collect step f s os).filter p = collect step (fun s o => (f s o).filter p) s os := by
  induction os generalizing s with
  | nil => rfl
  | cons o os ih => rw [collect, collect, List.filter_append, ih (step s o)]

/-- **Conservation.** What a store holds at first and what goes in are, in this order, what comes
out and what the store holds in the end, when this is so of every step. -/
theorem collect_balance {α : Type*} {I : S → Prop} {held : S → List α} {into out : S → O → List α}
    (hI : ∀ s o, I s → I (step s o))
    (hstep : ∀ s o, I s → held s ++ into s o = out s o ++ held (step s o))
    {s : S} (hs : I s) (os : List O) :
    held s ++ collect step into s os = collect step out s os ++ held (run step s os) := by
  induction os generalizing s with
  | nil => exact List.append_nil _
  | cons o os ih =>
    calc held s ++ (into s o ++ collect step into (step s o) os)
        = out s o ++ (held (step s o) ++ collect step into (step s o) os) := by
          rw [← List.append_assoc, hstep s o hs, List.append_assoc]
      _ = out s o ++ (collect step out (step s o) os ++ held (run step s (o :: os))) := by
          rw [ih (hI s o hs), run_cons]
      _ = collect step out s (o :: os) ++ held (run step s (o :: os)) :=
        (List.append_assoc _ _ _).symm

/-- **Simulation.** Two machines that stay related when they do the same, and then show the same,
are related after every run and show the same along it. -/
theorem collect_simulate {T α : Type*} {step' : T → O → T} {f : S → O → List α}
    {g : T → O → List α} {R : S → T → Prop}
    (hstep : ∀ s t o, R s t → f s o = g t o ∧ R (step s o) (step' t o))
    {s : S} {t : T} (h : R s t) (os : List O) :
    collect step f s os = collect step' g t os ∧ R (run step s os) (run step' t os) := by
  induction os generalizing s t with
  | nil => exact ⟨rfl, h⟩
  | cons o os ih =>
    obtain ⟨hshow, hnext⟩ := hstep s t o h
    obtain ⟨hshows, hrun⟩ := ih hnext
    refine ⟨?_, hrun⟩
    rw [collect, collect, hshow, hshows]

/-- **Guarded simulation.** The same when the operations of the run are played under `P`. -/
theorem collect_simulate_along {T α : Type*} {step' : T → O → T} {f : S → O → List α}
    {g : T → O → List α} {R : S → T → Prop}
    {P : S → O → Prop} (hstep : ∀ s t o, R s t → P s o → f s o = g t o ∧ R (step s o) (step' t o))
    {s : S} {t : T}
    (h : R s t) {os : List O} (hos : Along step P s os) :
    collect step f s os = collect step' g t os ∧ R (run step s os) (run step' t os) := by
  induction os generalizing s t with
  | nil => exact ⟨rfl, h⟩
  | cons o os ih =>
    obtain ⟨ho, hos⟩ := hos
    obtain ⟨hshow, hnext⟩ := hstep s t o h ho
    obtain ⟨hshows, hrun⟩ := ih hnext hos
    refine ⟨?_, hrun⟩
    rw [collect, collect, hshow, hshows]

/-! ### Loops -/

/-- **Descent.** A loop whose rounds lower a well-founded rank until they reach the goal does reach
it. -/
theorem exists_of_descent {α : Type*} {r : α → α → Prop} (hr : WellFounded r) {f : S → S}
    {I P G : S → Prop} (rank : S → α)
    (hstep : ∀ s, I s → P s → G (f s) ∨ (I (f s) ∧ r (rank (f s)) (rank s))) {s : S} (hs : I s)
    (hP : ∀ k, P (f^[k] s)) : ∃ k, G (f^[k] s) := by
  induction hn : rank s using hr.induction generalizing s with
  | h n ih =>
    subst hn
    obtain hg | ⟨hi, hlt⟩ := hstep s hs (hP 0)
    · exact ⟨1, hg⟩
    · obtain ⟨k, hk⟩ := ih _ hlt hi (fun k => hP (k + 1)) rfl
      exact ⟨k + 1, hk⟩

/-- What every round keeps holds after any number of rounds. -/
theorem iterate_induct {f : S → S} {I P : S → Prop} (hstep : ∀ s, I s → P s → I (f s))
    {s : S} (hs : I s)
    (hP : ∀ k, P (f^[k] s)) (k : Nat) : I (f^[k] s) := by
  induction k generalizing s with
  | zero => exact hs
  | succ k ih => exact ih (hstep s hs (hP 0)) fun k => hP (k + 1)

end Run

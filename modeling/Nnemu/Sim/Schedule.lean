import Mathlib.Algebra.BigOperators.Group.List.Basic
import Mathlib.Algebra.GroupWithZero.Nat
import Mathlib.Algebra.Order.Group.Nat
import Nnemu.Lib.Run

/-!
# The scheduler

`sim_t::step` gives every processor turns of `INTERLEAVE` steps, in whatever portions the steps are
asked for, and lets the clock and the devices go on after a turn of each. What it calls is a
parameter: processors, devices and memory have states in `σ`. A run over any such states plays back
the calls that a recorder writes down (`step_played`), so that what is said about the order of the
calls is said about recordings.

Nothing is assumed of what is called but that steps can be asked for in portions
(`SimCalls.Additive`), which is used where two ways to cut the same number of steps are compared.
`step_shares` is about any number of processors: what each of them has got after any number of
steps, and how far the clock has come.
-/

namespace Nnemu

/-- `INTERLEAVE` -/
def interleave : Nat := 5000

/-- `INSNS_PER_RTC_TICK` -/
def insnsPerRtcTick : Nat := 100

/-- What `sim_t::step` calls. -/
structure SimCalls (σ : Type) (nprocs : Nat) where
  /-- `procs[i]->step(n)` -/
  procStep : Fin nprocs → Nat → σ → σ
  /-- `procs[i]->get_mmu()->yield_load_reservation()` -/
  yieldLoadReservation : Fin nprocs → σ → σ
  /-- `clint->increment(n)`, if there is one -/
  clintIncrement : Nat → σ → σ
  /-- `ns16550->tick()`, if there is one -/
  uartTick : σ → σ
  /-- what the board does, if there is one -/
  boardUpdate : σ → σ

/-- A simulation between two rounds of `sim_t::step`. -/
structure Sim (σ : Type) (nprocs : Nat) where
  currentStep : Nat
  currentProc : Fin nprocs
  state : σ
  /-- a turn that is over is handed on at once -/
  step_lt : currentStep < interleave

/-- Portions of a turn make no difference to the processors. -/
structure SimCalls.Additive {σ : Type} {nprocs : Nat} (calls : SimCalls σ nprocs) : Prop where
  zero : ∀ i x, calls.procStep i 0 x = x
  add : ∀ i m n x, calls.procStep i n (calls.procStep i m x) = calls.procStep i (m + n) x

namespace Sim

variable {σ : Type} {nprocs : Nat} [NeZero nprocs] (calls : SimCalls σ nprocs)

/-- The constructor of `sim_t` -/
def init (nprocs : Nat) [NeZero nprocs] (state : σ) : Sim σ nprocs where
  currentStep := 0
  currentProc := 0
  state := state
  step_lt := by decide

/-- A turn of the processor is over. -/
def endTurn (i : Fin nprocs) (state : σ) : Sim σ nprocs :=
  let state := calls.yieldLoadReservation i state
  if h : i.val + 1 = nprocs then
    init nprocs (calls.boardUpdate
      (calls.uartTick (calls.clintIncrement (interleave / insnsPerRtcTick) state)))
  else
    { currentStep := 0
      currentProc := ⟨i.val + 1, Nat.lt_of_le_of_ne i.isLt h⟩
      state := state
      step_lt := by decide }

/-- A round of the loop, in which `n` steps are left. -/
def round (n : Nat) (s : Sim σ nprocs) : Sim σ nprocs :=
  let steps := min n (interleave - s.currentStep)
  let state := calls.procStep s.currentProc steps s.state
  if h : s.currentStep + steps = interleave then endTurn calls s.currentProc state
  else
    { currentStep := s.currentStep + steps
      currentProc := s.currentProc
      state := state
      step_lt := by have := s.step_lt; omega }

/-- `sim_t::step` -/
def step (n : Nat) (s : Sim σ nprocs) : Sim σ nprocs :=
  if n = 0 then s else step (n - min n (interleave - s.currentStep)) (round calls n s)
termination_by n
decreasing_by
  have := s.step_lt
  omega

/-- A sequence of calls of `sim_t::step`. -/
def steps (s : Sim σ nprocs) (ns : List Nat) : Sim σ nprocs :=
  Run.run (fun s n => step calls n s) s ns

theorem step_zero (s : Sim σ nprocs) : step calls 0 s = s := by
  rw [step, if_pos rfl]

theorem step_of_ne {n : Nat} (hn : n ≠ 0) (s : Sim σ nprocs) :
    step calls n s = step calls (n - min n (interleave - s.currentStep)) (round calls n s) := by
  rw [step, if_neg hn]

/-! ### Rules for runs -/

/-- **Invariants of a schedule**: what the calls keep, with respect to the processor whose turn it
is. -/
theorem step_induct {I : Fin nprocs → σ → Prop} (hrun : ∀ i n x, I i x → I i (calls.procStep i n x))
    (hyield : ∀ i j x, I i x → I j (calls.yieldLoadReservation i x))
    (hclint : ∀ i n x, I i x → I i (calls.clintIncrement n x))
    (huart : ∀ i x, I i x → I i (calls.uartTick x))
    (hboard : ∀ i x, I i x → I i (calls.boardUpdate x)) (n : Nat)
    {s : Sim σ nprocs} (hs : I s.currentProc s.state) :
    I (step calls n s).currentProc (step calls n s).state := by
  induction n using Nat.strong_induction_on generalizing s with
  | _ n ih =>
    have hround : I (round calls n s).currentProc (round calls n s).state := by
      have hran := hrun s.currentProc (min n (interleave - s.currentStep)) s.state hs
      rw [round]
      split
      · rw [endTurn]
        split
        · exact hboard _ _ (huart _ _ (hclint _ _ _ (hyield _ _ _ hran)))
        · exact hyield _ _ _ hran
      · exact hran
    by_cases hn : n = 0
    · subst hn
      rw [step_zero]
      exact hs
    · rw [step_of_ne calls hn]
      have hlt := s.step_lt
      exact ih _ (by omega) hround

/-- Two runs of which the calls are related. -/
theorem step_rel {τ : Type} (calls' : SimCalls τ nprocs) (R : σ → τ → Prop)
    (hrun : ∀ i n x y, R x y → R (calls.procStep i n x) (calls'.procStep i n y))
    (hyield : ∀ i x y, R x y → R (calls.yieldLoadReservation i x) (calls'.yieldLoadReservation i y))
    (hclint : ∀ n x y, R x y → R (calls.clintIncrement n x) (calls'.clintIncrement n y))
    (huart : ∀ x y, R x y → R (calls.uartTick x) (calls'.uartTick y))
    (hboard : ∀ x y, R x y → R (calls.boardUpdate x) (calls'.boardUpdate y))
    (n : Nat) {s : Sim σ nprocs}
    {t : Sim τ nprocs} (hstep : t.currentStep = s.currentStep)
    (hproc : t.currentProc = s.currentProc)
    (hs : R s.state t.state) :
    (step calls' n t).currentStep = (step calls n s).currentStep ∧
      (step calls' n t).currentProc = (step calls n s).currentProc ∧
      R (step calls n s).state (step calls' n t).state := by
  induction n using Nat.strong_induction_on generalizing s t with
  | _ n ih =>
    obtain ⟨cur, i, x, hlt⟩ := s
    obtain ⟨_, _, y, _⟩ := t
    cases hstep
    cases hproc
    have hran := hrun i (min n (interleave - cur)) x y hs
    -- the two rounds end the turn together
    have hround : (round calls' n ⟨cur, i, y, hlt⟩).currentStep =
      (round calls n ⟨cur, i, x, hlt⟩).currentStep ∧
        (round calls' n ⟨cur, i, y, hlt⟩).currentProc =
          (round calls n ⟨cur, i, x, hlt⟩).currentProc ∧
        R (round calls n ⟨cur, i, x, hlt⟩).state (round calls' n ⟨cur, i, y, hlt⟩).state := by
      rw [round, round]
      dsimp only
      split
      · rw [endTurn, endTurn]
        split
        · exact ⟨rfl, rfl, hboard _ _ (huart _ _ (hclint _ _ _ (hyield _ _ _ hran)))⟩
        · exact ⟨rfl, rfl, hyield _ _ _ hran⟩
      · exact ⟨rfl, rfl, hran⟩
    obtain ⟨hstep, hproc, hstate⟩ := hround
    by_cases hn : n = 0
    · subst hn
      rw [step_zero, step_zero]
      exact ⟨rfl, rfl, hs⟩
    · rw [step_of_ne calls hn, step_of_ne calls' hn]
      exact ih _ (by dsimp only; omega) hstep hproc hstate

end Sim

/-! ### Recordings -/

/-- A call that `sim_t::step` makes. -/
inductive SimCall (nprocs : Nat) where
  | procStep (i : Fin nprocs) (n : Nat)
  | yieldLoadReservation (i : Fin nprocs)
  | clintIncrement (n : Nat)
  | uartTick
  | boardUpdate
deriving DecidableEq

namespace SimCall

variable {σ : Type} {nprocs : Nat}

/-- The recorder, which writes down every call. -/
def recorder (nprocs : Nat) : SimCalls (List (SimCall nprocs)) nprocs where
  procStep := fun i n log => log ++ [.procStep i n]
  yieldLoadReservation := fun i log => log ++ [.yieldLoadReservation i]
  clintIncrement := fun n log => log ++ [.clintIncrement n]
  uartTick := fun log => log ++ [.uartTick]
  boardUpdate := fun log => log ++ [.boardUpdate]

/-- A call of a recording is made again. -/
def play (calls : SimCalls σ nprocs) (x : σ) : SimCall nprocs → σ
  | .procStep i n => calls.procStep i n x
  | .yieldLoadReservation i => calls.yieldLoadReservation i x
  | .clintIncrement n => calls.clintIncrement n x
  | .uartTick => calls.uartTick x
  | .boardUpdate => calls.boardUpdate x

/-- The steps that a call gives to a processor. -/
def stepsOf (i : Fin nprocs) : SimCall nprocs → Nat
  | .procStep j n => if j = i then n else 0
  | _ => 0

/-- The ticks that a call gives to the clock. -/
def ticksOf : SimCall nprocs → Nat
  | .clintIncrement n => n
  | _ => 0

/-- The steps a processor has been given. -/
def given (i : Fin nprocs) (log : List (SimCall nprocs)) : Nat :=
  (log.map (stepsOf i)).sum

/-- The ticks the clock has been given. -/
def clock (log : List (SimCall nprocs)) : Nat :=
  (log.map ticksOf).sum

theorem given_concat (i : Fin nprocs) (log : List (SimCall nprocs)) (call : SimCall nprocs) :
    given i (log ++ [call]) = given i log + call.stepsOf i := by
  rw [given, List.map_append, List.sum_append]
  rfl

theorem clock_concat (log : List (SimCall nprocs)) (call : SimCall nprocs) :
    clock (log ++ [call]) = clock log + call.ticksOf := by
  rw [clock, List.map_append, List.sum_append]
  rfl

/-! ### Portions put together -/

/-- Puts a portion of a turn to what there is of it. The last call is the first of the list. -/
def merge (i : Fin nprocs) (n : Nat) : List (SimCall nprocs) → List (SimCall nprocs)
  | .procStep j m :: log => if j = i then .procStep i (m + n) :: log
    else .procStep i n :: .procStep j m :: log
  | log => .procStep i n :: log

/-- There is a portion at the top, which takes in whatever is put to it. -/
theorem merge_eq (i : Fin nprocs) (m : Nat) (log : List (SimCall nprocs)) :
    ∃ k rest, ∀ n, merge i (m + n) log = .procStep i (k + n) :: rest := by
  cases log with
  | nil => exact ⟨m, [], fun _ => rfl⟩
  | cons call log =>
    cases call with
    | procStep j k =>
      by_cases hj : j = i
      · exact ⟨k + m, log, fun n => by rw [merge, if_pos hj, Nat.add_assoc]⟩
      · exact ⟨m, .procStep j k :: log, fun n => by rw [merge, if_neg hj]⟩
    | yieldLoadReservation j => exact ⟨m, _, fun _ => rfl⟩
    | clintIncrement k => exact ⟨m, _, fun _ => rfl⟩
    | uartTick => exact ⟨m, _, fun _ => rfl⟩
    | boardUpdate => exact ⟨m, _, fun _ => rfl⟩

theorem merge_merge (i : Fin nprocs) (m n : Nat) (log : List (SimCall nprocs)) :
    merge i n (merge i m log) = merge i (m + n) log := by
  obtain ⟨k, rest, h⟩ := merge_eq i m log
  have hm : merge i m log = .procStep i k :: rest := h 0
  rw [hm, h n, merge, if_pos rfl]

/-- The recorder that puts the portions of a turn together. -/
def merger (nprocs : Nat) : SimCalls (List (SimCall nprocs)) nprocs where
  procStep := fun i n log => if n = 0 then log else merge i n log
  yieldLoadReservation := fun i log => .yieldLoadReservation i :: log
  clintIncrement := fun n log => .clintIncrement n :: log
  uartTick := fun log => .uartTick :: log
  boardUpdate := fun log => .boardUpdate :: log

theorem additive_merger (nprocs : Nat) : SimCalls.Additive (merger nprocs) where
  zero := fun _ _ => rfl
  add := by
    intro i m n log
    cases m with
    | zero => rw [Nat.zero_add]; rfl
    | succ m =>
      cases n with
      | zero => rfl
      | succ n => exact merge_merge i (m + 1) (n + 1) log

end SimCall

namespace Sim

open SimCall

variable {σ : Type} {nprocs : Nat} [NeZero nprocs] {calls : SimCalls σ nprocs}

/-- **Runs are recordings that are played.** -/
theorem step_played (calls : SimCalls σ nprocs) (x : σ) (ns : List Nat) :
    (steps calls (init nprocs x) ns).state =
      (steps (recorder nprocs) (init nprocs []) ns).state.foldl (play calls) x := by
  -- the recorder is kept such that it leads to the state of the run
  let R : List (SimCall nprocs) → σ → Prop := fun log y => log.foldl (play calls) x = y
  have hcall : ∀ (log : List (SimCall nprocs)) (y : σ) (call : SimCall nprocs), R log y →
      R (log ++ [call]) (play calls y call) := by
    intro log y call h
    change (log ++ [call]).foldl (play calls) x = _
    rw [List.foldl_append, h]
    rfl
  have hsteps : ∀ {s : Sim (List (SimCall nprocs)) nprocs} {t : Sim σ nprocs},
  t.currentStep = s.currentStep →
      t.currentProc = s.currentProc → R s.state t.state →
      R (steps (recorder nprocs) s ns).state (steps calls t ns).state := by
    induction ns with
    | nil => exact fun _ _ h => h
    | cons n ns ih =>
      intro s t hstep hproc h
      obtain ⟨hstep', hproc', h'⟩ := step_rel (recorder nprocs) calls R
        (fun i n log y => hcall log y (.procStep i n))
          (fun i log y => hcall log y (.yieldLoadReservation i))
        (fun n log y => hcall log y (.clintIncrement n)) (fun log y => hcall log y .uartTick)
        (fun log y => hcall log y .boardUpdate) n hstep hproc h
      exact ih hstep' hproc' h'
  exact (hsteps rfl rfl rfl).symm

/-! ### Portions -/

theorem round_of_lt {s : Sim σ nprocs} {n : Nat} (h : s.currentStep + n < interleave) :
    round calls n s =
      ⟨s.currentStep + n, s.currentProc, calls.procStep s.currentProc n s.state, h⟩ := by
  have hmin : min n (interleave - s.currentStep) = n := by omega
  rw [round]
  split
  · omega
  · simp only [hmin]

theorem round_of_le {s : Sim σ nprocs} {n : Nat} (h : interleave ≤ s.currentStep + n) :
    round calls n s =
      endTurn calls s.currentProc
      (calls.procStep s.currentProc (interleave - s.currentStep) s.state) := by
  have hmin : min n (interleave - s.currentStep) = interleave - s.currentStep := by omega
  have hlt := s.step_lt
  rw [round]
  split
  · rw [hmin]
  · omega

/-- Two portions are as good as one. -/
theorem step_add (h : calls.Additive) (m n : Nat) (s : Sim σ nprocs) :
    step calls n (step calls m s) = step calls (m + n) s := by
  induction m using Nat.strong_induction_on generalizing s with
  | _ m ih =>
    have hlt := s.step_lt
    by_cases hm : m = 0
    · subst hm
      rw [step_zero, Nat.zero_add]
    · by_cases hturn : interleave ≤ s.currentStep + m
      · -- the turn ends with the first portion
        rw [step_of_ne calls hm, step_of_ne calls (n := m + n) (by omega), round_of_le hturn,
          round_of_le (n := m + n) (by omega), ih _ (by omega)]
        congr 1
        omega
      · -- the first portion is part of the turn
        have hopen : s.currentStep + m < interleave := by omega
        have hfirst :
            step calls m s = ⟨s.currentStep + m, s.currentProc,
              calls.procStep s.currentProc m s.state, hopen⟩ := by
          rw [step_of_ne calls hm, round_of_lt hopen]
          have hrest : m - min m (interleave - s.currentStep) = 0 := by omega
          rw [hrest, step_zero]
        rw [hfirst]
        by_cases hn : n = 0
        · subst hn
          rw [step_zero, Nat.add_zero, hfirst]
        · rw [step_of_ne calls hn, step_of_ne calls (n := m + n) (by omega)]
          dsimp only
          have hleft :
              n - min n (interleave - (s.currentStep + m)) = m + n - min
                (m + n) (interleave - s.currentStep) := by
            omega
          rw [hleft]
          congr 1
          by_cases hends : interleave ≤ s.currentStep + (m + n)
          · rw [round_of_le (by dsimp only; omega), round_of_le hends]
            dsimp only
            rw [h.add]
            congr 2
            omega
          · rw [round_of_lt (by dsimp only; omega), round_of_lt (by omega)]
            simp only [h.add, Nat.add_assoc]

/-- Only the number of steps matters. -/
theorem steps_eq (h : calls.Additive) (s : Sim σ nprocs) (ns : List Nat) :
    steps calls s ns = step calls ns.sum s := by
  induction ns generalizing s with
  | nil => exact (step_zero calls s).symm
  | cons n ns ih =>
    rw [List.sum_cons, ← step_add h]
    exact ih _

/-! ### Shares -/

/-- What a processor has had of a round in which this is the position. -/
def sharePart (proc step i : Nat) : Nat :=
  min interleave (proc * interleave + step - i * interleave)

theorem sharePart_add {proc step i k : Nat} (h : step + k ≤ interleave) :
    sharePart proc (step + k) i = sharePart proc step i + if proc = i then k else 0 := by
  have hI : interleave = 5000 := rfl
  rw [hI] at h
  rw [sharePart, sharePart, hI]
  split <;> omega

theorem sharePart_turn (proc i : Nat) : sharePart proc interleave i = sharePart (proc + 1) 0 i := by
  rw [sharePart, sharePart, Nat.succ_mul, Nat.add_zero]

theorem sharePart_round {proc i : Nat} (h : i < proc) : sharePart proc 0 i = interleave := by
  have hI : interleave = 5000 := rfl
  rw [sharePart, hI]
  omega

theorem sharePart_zero (i : Nat) : sharePart 0 0 i = 0 := by
  rw [sharePart, Nat.zero_mul, Nat.add_zero, Nat.zero_sub, Nat.min_zero]

/-- The calls of so many rounds that are over and of the one that is not. -/
structure Shared (rounds total : Nat) (s : Sim (List (SimCall nprocs)) nprocs) : Prop where
  given : ∀ i : Fin nprocs, given i s.state = rounds * interleave +
    sharePart s.currentProc s.currentStep i
  clock : clock s.state = rounds * (interleave / insnsPerRtcTick)
  total : total = rounds * (interleave * nprocs) + s.currentProc * interleave + s.currentStep

theorem Shared.round {rounds total : Nat} {s : Sim (List (SimCall nprocs)) nprocs}
    (h : Shared rounds total s) (n : Nat) :
    ∃ rounds', Shared rounds' (total + min n (interleave - s.currentStep))
    (round (recorder nprocs) n s) := by
  obtain ⟨hgiven, hclock, htotal⟩ := h
  have hlt := s.step_lt
  -- what the portion changes
  have hportion (i : Fin nprocs) :
      SimCall.given i (s.state ++ [.procStep s.currentProc (min n (interleave - s.currentStep))]) =
        rounds * interleave + sharePart s.currentProc
          (s.currentStep + min n (interleave - s.currentStep)) i := by
    rw [given_concat, hgiven, stepsOf, sharePart_add (by omega), Nat.add_assoc]
    simp only [Fin.ext_iff]
  rw [Sim.round]
  split
  · rename_i hfull
    have hturn (i : Fin nprocs) :
        SimCall.given i
          (s.state ++ [.procStep s.currentProc (min n (interleave - s.currentStep))]) =
          rounds * interleave + sharePart (s.currentProc + 1) 0 i := by
      rw [hportion, hfull, sharePart_turn]
    rw [endTurn]
    split
    · rename_i hlast
      -- everybody has had a turn
      refine ⟨rounds + 1, fun i => ?_, ?_, ?_⟩
      · have hi : i.val < s.currentProc.val + 1 := by rw [hlast]; exact i.isLt
        simp only [init, recorder, given_concat, stepsOf, hturn, sharePart_round hi,
          sharePart_zero, Nat.add_zero,
          Fin.val_zero]
        rw [Nat.succ_mul]
      · simp only [init, recorder, clock_concat, ticksOf, hclock, Nat.add_zero]
        rw [Nat.succ_mul]
      · have hwhole : interleave * nprocs = s.currentProc * interleave + interleave :=
          calc interleave * nprocs = interleave * (s.currentProc + 1) := by rw [hlast]
            _ = s.currentProc * interleave + interleave := by rw [Nat.mul_comm, Nat.succ_mul]
        simp only [init, Fin.val_zero, Nat.zero_mul, Nat.add_zero]
        rw [Nat.succ_mul]
        omega
    · refine ⟨rounds, fun i => ?_, ?_, ?_⟩
      · simp only [recorder, given_concat, stepsOf, hturn, Nat.add_zero]
      · simp only [recorder, clock_concat, ticksOf, hclock, Nat.add_zero]
      · simp only [Nat.succ_mul, Nat.add_zero]
        omega
  · refine ⟨rounds, hportion, ?_, ?_⟩
    · simp only [recorder, clock_concat, ticksOf, hclock, Nat.add_zero]
    · dsimp only
      omega

/-- A call of `sim_t::step` shares out its steps. -/
theorem Shared.step {rounds total : Nat} {s : Sim (List (SimCall nprocs)) nprocs}
    (h : Shared rounds total s) (n : Nat) :
    ∃ rounds', Shared rounds' (total + n) (step (recorder nprocs) n s) := by
  induction n using Nat.strong_induction_on generalizing rounds total s with
  | _ n ih =>
    by_cases hn : n = 0
    · subst hn
      rw [step_zero]
      exact ⟨rounds, h⟩
    · obtain ⟨rounds', hround⟩ := h.round n
      have hlt := s.step_lt
      obtain ⟨rounds'', hrest⟩ := ih (n - min n (interleave - s.currentStep)) (by omega) hround
      refine ⟨rounds'', ?_⟩
      rw [step_of_ne _ hn]
      rwa [Nat.add_assoc, Nat.add_sub_cancel' (Nat.min_le_left _ _)] at hrest

theorem shared_init (nprocs : Nat) [NeZero nprocs] : Shared 0 0 (init nprocs []) where
  given := fun i => by simp [SimCall.given, Sim.init, sharePart_zero]
  clock := by simp [SimCall.clock, Sim.init]
  total := by simp [Sim.init]

theorem Shared.steps {rounds total : Nat} {s : Sim (List (SimCall nprocs)) nprocs}
    (h : Shared rounds total s)
    (ns : List Nat) : ∃ rounds', Shared rounds' (total + ns.sum)
    (steps (recorder nprocs) s ns) := by
  induction ns generalizing rounds total s with
  | nil => exact ⟨rounds, h⟩
  | cons n ns ih =>
    obtain ⟨_, hstep⟩ := h.step n
    rw [List.sum_cons, ← Nat.add_assoc]
    exact ih hstep

/-- **The share of a processor** after a number of steps, in whatever portions they were asked for:
a turn in every round that is over, and what it has had of the turn in the one that is not. The
clock has had its ticks of the rounds that are over. The calls are those of one call of
`sim_t::step` for all of the steps, but for the portions. -/
theorem step_shares (calls : SimCalls σ nprocs) (x : σ) (ns : List Nat) :
    ∃ log : List (SimCall nprocs), (steps calls (init nprocs x) ns).state =
      log.foldl (play calls) x ∧
      (∀ i : Fin nprocs, given i log = ns.sum / (interleave * nprocs) * interleave +
        min interleave (ns.sum % (interleave * nprocs) - i * interleave)) ∧
      SimCall.clock log = ns.sum / (interleave * nprocs) * (interleave / insnsPerRtcTick) ∧
      log.foldl (play (merger nprocs)) [] =
        (step (merger nprocs) ns.sum (init nprocs [])).state := by
  refine ⟨(steps (recorder nprocs) (init nprocs []) ns).state, step_played calls x ns, ?_⟩
  rw [← step_played, steps_eq (additive_merger nprocs)]
  obtain ⟨rounds, hgiven, hclock, htotal⟩ := (shared_init nprocs).steps ns
  generalize steps (recorder nprocs) (init nprocs []) ns = s at hgiven hclock htotal
  have hlt := s.step_lt
  rw [Nat.zero_add, Nat.add_assoc, Nat.mul_comm rounds] at htotal
  -- the turns of the round that is not over
  have hrest : s.currentProc * interleave + s.currentStep < interleave * nprocs := by
    have hle : (s.currentProc + 1) * interleave ≤ nprocs * interleave :=
      Nat.mul_le_mul_right _ s.currentProc.isLt
    rw [Nat.succ_mul, Nat.mul_comm nprocs] at hle
    omega
  have hdiv : ns.sum / (interleave * nprocs) = rounds := by
    rw [htotal, Nat.mul_add_div (by omega), Nat.div_eq_of_lt hrest, Nat.add_zero]
  have hmod : ns.sum % (interleave * nprocs) = s.currentProc * interleave + s.currentStep := by
    rw [htotal, Nat.mul_add_mod, Nat.mod_eq_of_lt hrest]
  refine ⟨fun i => ?_, ?_, rfl⟩
  · rw [hgiven, hdiv, hmod, sharePart]
  · rw [hclock, hdiv]

theorem step_shares_two : ∃ log : List (SimCall 2),
    (steps (recorder 2) (init 2 []) [7000, 4000]).state = log.foldl (play (recorder 2)) [] ∧
      given 0 log = 6000 ∧ given 1 log = 5000 ∧ SimCall.clock log = 50 := by
  obtain ⟨log, hplayed, hgiven, hclock, -⟩ := step_shares (recorder 2) [] [7000, 4000]
  exact ⟨log, hplayed, hgiven 0, hgiven 1, hclock⟩

end Sim

end Nnemu

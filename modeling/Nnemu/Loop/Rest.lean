import Nnemu.Loop.Laws

/-!
# The rest of a processor in the loop

The loop itself does not look at registers and memory. What fetches and handlers preserve of them is
preserved by every tick.
-/

namespace Nnemu

namespace Batch

variable {σ ι : Type} {core : Core σ ι} {b : Batch σ ι}

/-! ### Ways out of the loops -/

theorem rest_withHart (f : Hart → Hart) : (b.withHart f).cpu.rest = b.cpu.rest :=
  b.cpu.rest_withHart f

theorem rest_leave : b.leave.cpu.rest = b.cpu.rest :=
  rest_withHart _

theorem rest_catchTrap (t : Trap) : (b.catchTrap core t).cpu.rest = b.cpu.rest := by
  rw [catchTrap]
  dsimp only
  split
  · simp only [rest_leave, rest_withHart]
  · split
    · simp only [rest_leave, rest_withHart]
    · simp only [rest_leave, rest_withHart]

theorem rest_caught (e : Thrown) : (b.caught core e).cpu.rest = b.cpu.rest := by
  cases e with
  | trap t => exact rest_catchTrap t
  | matched m =>
    rw [caught, catchMatched, rest_leave, rest_withHart]
    rfl
  | debugMode => rw [caught, rest_leave, rest_withHart]
  | waitForInterrupt =>
    rw [caught, catchWait, rest_leave]
    exact rest_withHart _

theorem rest_advance (npc : Reg) (next : Phase ι) : (b.advance npc next).cpu.rest = b.cpu.rest := by
  rw [advance]
  split
  · split
    · rw [rest_leave]
    · split
      · rw [rest_leave]
      · rw [rest_withHart]
  · dsimp only
    split
    · exact rest_withHart _
    · rw [rest_leave]
      exact rest_withHart _

/-! ### Ways in -/

theorem rest_call (request : HaltRequest) (n : BitVec 64) :
    (b.call core request n).cpu.rest = b.cpu.rest := by
  unfold call
  extract_lets enterDebug entered
  change entered.cpu.rest = b.cpu.rest
  have henter : ∀ cause, (enterDebug cause).cpu.rest = b.cpu.rest := fun _ => rest_withHart _
  change (if _ then _ else _ : Batch σ ι).cpu.rest = _
  split
  · rfl
  · split
    · exact henter _
    · exact henter _
    · split
      · exact henter _
      · rfl

theorem rest_countInterrupt : (b.countInterrupt core).cpu.rest = b.cpu.rest := by
  rw [countInterrupt]
  split
  · exact rest_withHart _
  · rfl

theorem rest_enter : (b.enter core).cpu.rest = b.cpu.rest := by
  unfold enter
  extract_lets b₁ pending awake
  have hawake : awake.cpu.rest = b.cpu.rest := by
    change (if _ then _ else _ : Batch σ ι).cpu.rest = _
    split
    · rfl
    · exact rest_withHart _
  split
  · exact hawake
  · rw [rest_catchTrap, rest_countInterrupt, hawake]
  · rw [rest_withHart, hawake]

/-! ### Tests -/

theorem rest_laterTests : (b.laterTests core).1.cpu.rest = b.cpu.rest := by
  have hon : b.stepOn.cpu.rest = b.cpu.rest := by
    rw [stepOn]
    split
    · exact rest_withHart _
    · rfl
  have hcount : (b.stepOn.icountMatch core).1.cpu.rest = b.cpu.rest := by
    rw [icountMatch]
    split
    · exact (rest_withHart _).trans hon
    · exact hon
  rw [laterTests]
  generalize b.stepOn.icountMatch core = tested at hcount
  obtain ⟨b', found⟩ := tested
  cases found with
  | some m => exact hcount
  | none =>
    dsimp only
    split
    · exact hcount
    · exact (rest_withHart _).trans hcount

theorem rest_slowTests : (b.slowTests core).1.cpu.rest = b.cpu.rest := by
  rw [slowTests]
  split
  · dsimp only
    split
    · exact rest_withHart _
    · exact rest_laterTests.trans (rest_withHart _)
  · exact rest_laterTests

/-! ### Instructions -/

variable {P : σ → Prop}

/-- What fetches and handlers preserve is preserved by an attempt. -/
theorem rest_attempt (hfetch : ∀ addr c, P c.rest → P (Exec.final (core.fetch addr c)).rest)
    (hexecute : ∀ insn pc c, P c.rest → P (Exec.final (core.execute insn pc c)).rest)
    {pc : Reg} {c : Cpu σ ι}
    {d : Option (ι × Cpu σ ι)} {r : EStateM.Result Thrown (Cpu σ ι) Reg}
    (a : Core.Attempt core pc c d r) (h : P c.rest) : P (Exec.final r).rest := by
  cases a with
  | due hm => exact h
  | unfetched hnone herr =>
    have hf := hfetch pc c h
    rw [herr] at hf
    exact hf
  | @handled insn c₁ hf =>
    have hc₁ : P c₁.rest := by
      cases hf with
      | cached => exact h
      | fresh hnone hok hfiled =>
        have hf := hfetch pc c h
        rw [hok] at hf
        exact hf
    have hex := hexecute insn pc c₁ hc₁
    rw [Core.run]
    cases hr : core.execute insn pc c₁ with
    | ok npc c' =>
      rw [hr] at hex
      dsimp only
      split
      · exact hex
      · exact hex
    | error e c' =>
      rw [hr] at hex
      cases e with
      | waitForInterrupt => exact hex
      | trap t => exact hex
      | matched m => exact hex
      | debugMode => exact hex

/-- A round of the slow loop. -/
theorem rest_slow (hfetch : ∀ addr c, P c.rest → P (Exec.final (core.fetch addr c)).rest)
    (hexecute : ∀ insn pc c, P c.rest → P (Exec.final (core.execute insn pc c)).rest)
    (h : P b.cpu.rest) :
    P (b.slow core).cpu.rest := by
  have htests : (b.slowTests core).1.cpu.rest = b.cpu.rest := rest_slowTests
  rw [slow]
  generalize b.slowTests core = tested at htests
  obtain ⟨b', round⟩ := tested
  rw [← htests] at h
  cases round with
  | stepped =>
    dsimp only
    rw [rest_leave, rest_withHart]
    exact h
  | throw e =>
    dsimp only
    rw [rest_caught]
    exact h
  | execute =>
    have hdone := rest_attempt hfetch hexecute (attempt_slow core b' b'.cpu) h
    dsimp only
    rw [slowExecute]
    cases hr : b'.slowAttempt core b'.cpu with
    | ok npc c =>
      rw [hr] at hdone
      dsimp only
      rw [rest_advance]
      exact hdone
    | error e c =>
      rw [hr] at hdone
      dsimp only
      rw [rest_caught]
      exact hdone

/-- A round of the fast loop. -/
theorem rest_fast (hfetch : ∀ addr c, P c.rest → P (Exec.final (core.fetch addr c)).rest)
    (hexecute : ∀ insn pc c, P c.rest → P (Exec.final (core.execute insn pc c)).rest)
    (h : P b.cpu.rest)
    (entry : Option (IcacheEntry ι)) : P (b.fast core entry).cpu.rest := by
  have hdone := rest_attempt hfetch hexecute (attempt_fast core b entry b.cpu) h
  rw [fast]
  generalize b.fastAttempt core entry b.cpu = r at hdone
  cases r with
  | ok found c =>
    obtain ⟨found, npc⟩ := found
    dsimp only
    split
    · exact (congrArg P (rest_withHart _)).mpr hdone
    · rw [rest_advance]
      exact hdone
  | error e c =>
    dsimp only
    rw [rest_caught]
    exact hdone

/-- **Ticks preserve what instructions preserve.** -/
theorem rest_tick (hfetch : ∀ addr c, P c.rest → P (Exec.final (core.fetch addr c)).rest)
    (hexecute : ∀ insn pc c, P c.rest → P (Exec.final (core.execute insn pc c)).rest)
    (h : P b.cpu.rest) :
    P (b.tick core).cpu.rest := by
  rw [tick]
  split
  · exact h
  · split
    · exact h
    · split
      · exact h
      · rw [rest_enter]
        exact h
    · exact rest_slow hfetch hexecute h
    · exact rest_fast hfetch hexecute h _

end Batch

end Nnemu

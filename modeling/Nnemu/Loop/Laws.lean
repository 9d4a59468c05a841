import Nnemu.Loop.Handled
import Nnemu.Trigger.Traps

/-!
# What a tick does

An attempt to execute an instruction fetches it, from the cache or anew, and runs its handler. A
tick of the loop tests, attempts an instruction or goes back to the head of the outer loop, and
`Batch.Ticks` lists the cases. All of it holds of every core; what attempts keep to is derived from
`Core.Lawful`.

`Attempt` is what one instruction can come to on either path: it retires, it waits, or it is stopped
by a trap or a match, before or after its handler ran. `Batch.Ticks` has one constructor for each
way from a loop head to the next, and `tick_cases` says that there is no other. The invariants of
the following files are all proved by cases on it, so that `tick` is unfolded here and nowhere else.
-/

namespace Nnemu

open Trigger

namespace Core

variable {σ ι : Type} {core : Core σ ι} {pc : Reg} {c c' : Cpu σ ι}

/-! ### Attempts -/

/-- An instruction comes from the cache, or is fetched and perhaps put there. -/
inductive Fetched (core : Core σ ι) (pc : Reg) (c : Cpu σ ι) : ι → Cpu σ ι → Prop where
  | cached (insn : ι) : Fetched core pc c insn c
  | fresh {insn : ι} {c' : Cpu σ ι} (hnone : c.matchedTrigger = none)
      (hok : core.fetch pc c = .ok insn c') {icache : Nat → IcacheEntry ι}
      (hfiled : icache = c'.icache ∨
        icache = Function.update c'.icache (icacheIndex pc)
          ⟨pc, icacheIndex (pc + core.length insn), insn⟩) :
      Fetched core pc c insn { c' with icache := icache }

/-- How an attempt to execute the instruction at `pc` goes: what is fetched, with the processor that
the handler finds, and what comes of it. -/
inductive Attempt (core : Core σ ι) (pc : Reg) (c : Cpu σ ι) :
    Option (ι × Cpu σ ι) → EStateM.Result Thrown (Cpu σ ι) Reg → Prop where
  /-- an earlier match is due -/
  | due {m : Matched} (hm : c.matchedTrigger = some m) :
      Attempt core pc c none (.error (.matched m) c)
  /-- the fetch throws -/
  | unfetched {e : Thrown} {c' : Cpu σ ι} (hnone : c.matchedTrigger = none)
      (herr : core.fetch pc c = .error e c') : Attempt core pc c none (.error e c')
  /-- the handler runs -/
  | handled {insn : ι} {c' : Cpu σ ι} (hf : Fetched core pc c insn c') :
      Attempt core pc c (some (insn, c')) (core.run insn pc c')

theorem Fetched.intact {insn : ι} (law : core.Lawful) (hf : Fetched core pc c insn c') :
    c.Intact c' := by
  cases hf with
  | cached => exact .refl c
  | fresh hnone hok hfiled =>
    have s := (law.fetch pc).keeps.of_ok hok
    exact ⟨⟨s.hart, s.serialized⟩, s.triggers, s.minstret, s.checkTriggersIcount, s.ledger⟩

/-- `load_insn` -/
theorem loadInsn_cases (core : Core σ ι) (pc : Reg) (c : Cpu σ ι) :
    (∃ m, c.matchedTrigger = some m ∧ core.loadInsn pc c = .error (.matched m) c) ∨
      (c.matchedTrigger = none ∧ core.loadInsn pc c = core.fetch pc c) := by
  cases hm : c.matchedTrigger with
  | some m =>
    refine .inl ⟨m, rfl, ?_⟩
    rw [loadInsn, Exec.bind_of_ok (rfl : (get : CpuM σ ι (Cpu σ ι)) c = .ok c c), hm]
    rfl
  | none =>
    refine .inr ⟨rfl, ?_⟩
    rw [loadInsn, Exec.bind_of_ok (rfl : (get : CpuM σ ι (Cpu σ ι)) c = .ok c c), hm]

/-- What a run of a handler is, read back. -/
theorem run_eq_ok {insn : ι} {npc : Reg} (h : core.run insn pc c = .ok npc c') :
    ∃ c₁, core.execute insn pc c = .ok npc c₁ ∧
      ((npc = pcSerializeBefore ∧ c' = c₁) ∨
        (npc ≠ pcSerializeBefore ∧
          c' = retire (if npc = pcSerializeAfter then c₁.hart.pc else npc)
            (core.written insn c) c₁)) := by
  rw [run] at h
  split at h
  · rename_i npc₁ c₁ hex
    split at h
    · cases h
      exact ⟨_, hex, .inl ⟨by assumption, rfl⟩⟩
    · cases h
      exact ⟨_, hex, .inr ⟨by assumption, rfl⟩⟩
  · cases h
  · cases h

theorem run_eq_error {insn : ι} {e : Thrown} (h : core.run insn pc c = .error e c') :
    ∃ c₁, core.execute insn pc c = .error e c₁ ∧
      ((e = .waitForInterrupt ∧ c' = retire c₁.hart.pc (core.written insn c) c₁) ∨
        (e ≠ .waitForInterrupt ∧ c' = c₁)) := by
  rw [run] at h
  split at h
  · split at h <;> cases h
  · rename_i c₁ hex
    cases h
    exact ⟨_, hex, .inl ⟨rfl, rfl⟩⟩
  · rename_i e₁ c₁ hne hex
    cases h
    exact ⟨_, hex, .inr ⟨hne, rfl⟩⟩

/-- What a run of a handler ends in, but for the ledger. -/
theorem run_cases (core : Core σ ι) (insn : ι) (pc : Reg) (c : Cpu σ ι) :
    (∃ npc c₁ ledger, core.execute insn pc c = .ok npc c₁ ∧
        core.run insn pc c = .ok npc { c₁ with ledger := ledger }) ∨
      ∃ e c₁ ledger, core.execute insn pc c = .error e c₁ ∧
        core.run insn pc c = .error e { c₁ with ledger := ledger } := by
  cases hr : core.run insn pc c with
  | ok npc c' =>
    obtain ⟨c₁, hex, ⟨-, rfl⟩ | ⟨-, rfl⟩⟩ := run_eq_ok hr
    · exact .inl ⟨npc, c', _, hex, rfl⟩
    · exact .inl ⟨npc, c₁, _, hex, rfl⟩
  | error e c' =>
    obtain ⟨c₁, hex, ⟨-, rfl⟩ | ⟨-, rfl⟩⟩ := run_eq_error hr
    · exact .inr ⟨e, c₁, _, hex, rfl⟩
    · exact .inr ⟨e, c', _, hex, rfl⟩

/-- Whatever does not read the ledger holds behind a run that holds behind the handler. -/
theorem final_run {P : Cpu σ ι → Prop} (hP : ∀ c ledger, P c → P { c with ledger := ledger })
    {insn : ι} (h : P (Exec.final (core.execute insn pc c))) :
    P (Exec.final (core.run insn pc c)) := by
  obtain ⟨npc, c₁, ledger, hex, hrun⟩ | ⟨e, c₁, ledger, hex, hrun⟩ := run_cases core insn pc c
  · rw [hex] at h
    rw [hrun]
    exact hP c₁ ledger h
  · rw [hex] at h
    rw [hrun]
    exact hP c₁ ledger h

namespace Attempt

variable {e : Thrown} {m : Matched} {d : Option (ι × Cpu σ ι)}
  {r : EStateM.Result Thrown (Cpu σ ι) Reg}

/-- What is fetched. -/
theorem fetched {insn : ι} (a : Attempt core pc c (some (insn, c')) r) :
    Fetched core pc c insn c' := by
  cases a with
  | handled hf => exact hf

/-- A fetch that throws has done nothing. -/
theorem unfetched_error (law : core.Lawful) (herr : core.fetch pc c = .error e c') :
    c.Intact c' ∧ ((∃ t, e = .trap t) ∨ ∃ m, e = .matched m ∧ c.hart.debugMode = false) :=
  ⟨((law.fetch pc).keeps.of_error herr).toIntact, (law.fetch pc).error herr⟩

/-- A request for serialization comes before anything else. -/
theorem before (law : core.Lawful) (heven : pc.getLsbD 0 = false)
    (a : Attempt core pc c d (.ok pcSerializeBefore c')) :
    c.Intact c' ∧ c.serialized = false := by
  generalize hr : (EStateM.Result.ok pcSerializeBefore c' :
    EStateM.Result Thrown (Cpu σ ι) Reg) = r at a
  cases a with
  | due hm => cases hr
  | unfetched hnone herr => cases hr
  | @handled insn c₁ hf =>
    have i := hf.intact law
    have handled := law.execute insn c₁ heven
    obtain ⟨c₂, hex, ⟨-, rfl⟩ | ⟨hne, -⟩⟩ := run_eq_ok hr.symm
    · rw [hex] at handled
      cases handled with
      | ordinary hv ends =>
        generalize hbefore : pcSerializeBefore = npc at ends
        cases ends with
        | next hnpc w =>
          rw [← hbefore] at hnpc
          exact absurd hnpc (by decide)
        | after w => exact absurd hbefore (by decide)
      | before hv hs => exact ⟨i, i.serialized.symm.trans hs⟩
    · exact absurd rfl hne

/-- A match is due, or stops the instruction that has done nothing so far. -/
theorem matched (law : core.Lawful) (heven : pc.getLsbD 0 = false)
    (a : Attempt core pc c d (.error (.matched m) c')) :
    (c.matchedTrigger = some m ∧ c' = c) ∨ (c.Intact c' ∧ c.hart.debugMode = false) := by
  generalize hr : (EStateM.Result.error (.matched m) c' :
    EStateM.Result Thrown (Cpu σ ι) Reg) = r at a
  cases a with
  | due hm =>
    cases hr
    exact .inl ⟨hm, rfl⟩
  | unfetched hnone herr =>
    cases hr
    obtain ⟨i, ⟨t, heq⟩ | ⟨m', -, hd⟩⟩ := unfetched_error law herr
    · cases heq
    · exact .inr ⟨i, hd⟩
  | @handled insn c₁ hf =>
    have i := hf.intact law
    have handled := law.execute insn c₁ heven
    obtain ⟨c₂, hex, ⟨heq, -⟩ | ⟨-, rfl⟩⟩ := run_eq_error hr.symm
    · cases heq
    · rw [hex] at handled
      cases handled with
      | ordinary hv ends =>
        cases ends with
        | matched s hd => exact .inr ⟨i.trans s.toIntact, i.hart.debugMode.symm.trans hd⟩

/-- `ebreak` has done nothing. -/
theorem debugMode (law : core.Lawful) (heven : pc.getLsbD 0 = false)
    (a : Attempt core pc c d (.error .debugMode c')) :
    c.Intact c' ∧ c.hart.debugMode = false := by
  generalize hr : (EStateM.Result.error .debugMode c' :
    EStateM.Result Thrown (Cpu σ ι) Reg) = r at a
  cases a with
  | due hm => cases hr
  | unfetched hnone herr =>
    cases hr
    obtain ⟨-, ⟨t, heq⟩ | ⟨m', heq, -⟩⟩ := unfetched_error law herr
    · cases heq
    · cases heq
  | @handled insn c₁ hf =>
    have i := hf.intact law
    have handled := law.execute insn c₁ heven
    obtain ⟨c₂, hex, ⟨heq, -⟩ | ⟨-, rfl⟩⟩ := run_eq_error hr.symm
    · cases heq
    · rw [hex] at handled
      cases handled with
      | ordinary hv ends =>
        cases ends with
        | debugMode s hd => exact ⟨i.trans s.toIntact, i.hart.debugMode.symm.trans hd⟩

/-- A handler returns an even address or a sentinel. -/
theorem npc (law : core.Lawful) (heven : pc.getLsbD 0 = false) {npc : Reg}
    (a : Attempt core pc c d (.ok npc c')) :
    npc.getLsbD 0 = false ∨ npc = pcSerializeBefore ∨ npc = pcSerializeAfter := by
  generalize hr : (EStateM.Result.ok npc c' : EStateM.Result Thrown (Cpu σ ι) Reg) = r at a
  cases a with
  | due hm => cases hr
  | unfetched hnone herr => cases hr
  | @handled insn c₁ hf =>
    have handled := law.execute insn c₁ heven
    obtain ⟨c₂, hex, -⟩ := run_eq_ok hr.symm
    rw [hex] at handled
    cases handled with
    | ordinary hv ends =>
      cases ends with
      | next hnpc w => exact .inl hnpc
      | after w => exact .inr (.inr rfl)
    | before hv hs => exact .inr (.inl rfl)
    | written hv hs w hminstret => exact .inr (.inr rfl)

/-- **A trap** comes before the effect of the instruction, or behind its write. -/
theorem trap (law : core.Lawful) (heven : pc.getLsbD 0 = false) {t : Trap}
    (a : Attempt core pc c d (.error (.trap t) c')) :
    (c.hart.Quiet c'.hart ∧ c'.hart.triggers.map eraseHit = c.hart.triggers.map eraseHit ∧
        c'.hart.reg .minstret = c.hart.reg .minstret ∧ core.stranded d = none) ∨
      core.stranded d = some c'.hart := by
  generalize hr : (EStateM.Result.error (.trap t) c' :
    EStateM.Result Thrown (Cpu σ ι) Reg) = r at a
  cases a with
  | due hm => cases hr
  | unfetched hnone herr =>
    cases hr
    have i := (unfetched_error law herr).1
    exact .inl ⟨i.hart, i.triggers, i.minstret, rfl⟩
  | @handled insn c₁ hf =>
    have i := hf.intact law
    have handled := law.execute insn c₁ heven
    obtain ⟨c₂, hex, ⟨heq, -⟩ | ⟨-, rfl⟩⟩ := run_eq_error hr.symm
    · cases heq
    · rw [hex] at handled
      cases handled with
      | ordinary hv ends =>
        cases ends with
        | trap s =>
          refine .inl ⟨i.hart.trans s.hart, s.triggers.trans i.triggers,
            s.minstret.trans i.minstret, ?_⟩
          by_contra hstrands
          rw [law.strands hstrands] at hv
          cases hv
      | refused hv hs s hnone =>
        exact .inl ⟨i.hart.trans s.hart, s.triggers.trans i.triggers,
          s.minstret.trans i.minstret, hnone⟩
      | stranded hv hs w hstrands hminstret => exact .inr hstrands

/-- Behind an attempt no request is left where the handler begins with `validate_csr`, and no other
attempt changes it. -/
theorem serialized (law : core.Lawful) (heven : pc.getLsbD 0 = false) (a : Attempt core pc c d r) :
    (Exec.final r).serialized = (c.serialized && !d.any fun x => core.serializes x.1) := by
  cases a with
  | due hm => exact (Bool.and_true _).symm
  | unfetched hnone herr =>
    exact (unfetched_error law herr).1.serialized.trans (Bool.and_true _).symm
  | @handled insn c₁ hf =>
    rw [Option.any_some, ← (hf.intact law).serialized]
    exact final_run (P := fun c => c.serialized = (c₁.serialized && !core.serializes insn))
      (fun _ _ h => h) (law.execute insn c₁ heven).serialized

/-- **An attempt** leaves the counters of triggers alone, or writes a register of the triggers. -/
theorem counters (law : core.Lawful) (heven : pc.getLsbD 0 = false) (a : Attempt core pc c d r) :
    c.SameCounters (Exec.final r) ∨
      ∃ c', (r = .ok pcSerializeAfter c' ∨ ∃ t, r = .error (.trap t) c') ∧
        c'.checkTriggersIcount = c'.hart.triggers.any icountCheckNeeded ∧
        c'.serialized = false := by
  cases a with
  | due hm => exact .inl (.refl c)
  | unfetched hnone herr => exact .inl (unfetched_error law herr).1.sameCounters
  | @handled insn c₁ hf =>
    have hfetched := (hf.intact law).sameCounters
    have handled := law.execute insn c₁ heven
    obtain ⟨npc, c₂, ledger, hex, hrun⟩ | ⟨e, c₂, ledger, hex, hrun⟩ := run_cases core insn pc c₁
    · rw [hrun]
      rw [hex] at handled
      have same (s : c₁.SameCounters c₂) :
          c.SameCounters ({ c₂ with ledger := ledger } : Cpu σ ι) :=
        hfetched.trans ⟨s.counters, s.checkTriggersIcount⟩
      cases handled with
      | ordinary hv ends =>
        cases ends with
        | next hnpc w => exact .inl (same w.toSameCounters)
        | after w => exact .inl (same w.toSameCounters)
      | before hv hs => exact .inl (same (.refl c₁))
      | written hv hs w hminstret =>
        obtain s | hflag := w.counters
        · exact .inl (same s)
        · exact .inr ⟨_, .inl rfl, hflag, w.serialized⟩
    · rw [hrun]
      rw [hex] at handled
      have same (s : c₁.SameCounters c₂) :
          c.SameCounters ({ c₂ with ledger := ledger } : Cpu σ ι) :=
        hfetched.trans ⟨s.counters, s.checkTriggersIcount⟩
      cases handled with
      | ordinary hv ends =>
        cases ends with
        | wait w => exact .inl (same w.toSameCounters)
        | trap s => exact .inl (same s.sameCounters)
        | matched s hd => exact .inl (same s.sameCounters)
        | debugMode s hd => exact .inl (same s.sameCounters)
      | refused hv hs s hnone =>
        exact .inl (same ⟨s.sameCounters.counters, s.checkTriggersIcount⟩)
      | stranded hv hs w hstrands hminstret =>
        obtain s | hflag := w.counters
        · exact .inl (same s)
        · exact .inr ⟨_, .inr ⟨_, rfl⟩, hflag, w.serialized⟩

end Attempt

end Core

namespace Cpu

variable {σ ι : Type}

/-! ### Actions -/

/-- What traps, debug entry and the flags of triggers leave alone. -/
structure Acted (cfg : Config) (c c' : Cpu σ ι) : Prop where
  serialized : c'.serialized = c.serialized
  matchedTrigger : c'.matchedTrigger = c.matchedTrigger
  ledger : c'.ledger = c.ledger
  hart : c.hart.Acted cfg c'.hart
  forgets : c.Forgets c'

/-- The action of a match is taken. -/
def actOn (cfg : Config) (c : Cpu σ ι) (m : Matched) (epc : Reg) : Cpu σ ι :=
  c.dropMatch.withHart fun h => h.takeTriggerAction cfg m.action m.address epc

namespace Acted

variable {cfg : Config} {c c' c'' : Cpu σ ι}

theorem trans (a : Acted cfg c c') (a' : Acted cfg c' c'') : Acted cfg c c'' where
  serialized := a'.serialized.trans a.serialized
  matchedTrigger := a'.matchedTrigger.trans a.matchedTrigger
  ledger := a'.ledger.trans a.ledger
  hart := a.hart.trans a'.hart
  forgets := a.forgets.trans a'.forgets

theorem withHart (f : Hart → Hart) (a : c.hart.Acted cfg (f c.hart)) :
    Acted cfg c (c.withHart f) where
  serialized := c.serialized_withHart f
  matchedTrigger := c.matchedTrigger_withHart f
  ledger := c.ledger_withHart f
  hart := by rw [hart_withHart]; exact a
  forgets := .withHart c f

/-- The end of a single step. -/
theorem endStep (c : Cpu σ ι) (cause : Reg) : Acted cfg c
    (c.withHart fun h => { h with singleStep := .none }.enterDebugMode cfg cause) :=
  .withHart _ (.endStep c.hart cause)

end Acted

end Cpu

/-- Is it one of the inner loops? -/
def Phase.inner {ι : Type} : Phase ι → Bool
  | .slow | .fast _ => true
  | _ => false

namespace Batch

open Nnemu.Core

variable {σ ι : Type} {core : Core σ ι} {b : Batch σ ι}

/-- Is the batch in one of the inner loops? -/
def inner (b : Batch σ ι) : Bool :=
  b.phase.inner

theorem inner_eq {p : Phase ι} (hphase : b.phase = p) : b.inner = p.inner := by
  rw [inner, hphase]

/-! ### The ways out -/

/-- **A trap ends the batch** after the instructions that have retired. -/
theorem catchTrap_acted (core : Core σ ι) (b : Batch σ ι) (t : Trap) :
    ∃ c, b.cpu.Acted core.cfg c ∧ b.catchTrap core t =
      leave { b with cpu := c, n := b.instret } := by
  unfold catchTrap
  extract_lets h₁ b₁ found b₂
  have a₁ : b.cpu.Acted core.cfg b₁.cpu :=
    .withHart (fun h => h.takeTrap core.cfg t b.pc) (.takeTrap b.cpu.hart t b.pc)
  have a₂ : b.cpu.Acted core.cfg b₂.cpu :=
    a₁.trans (.withHart (fun h => { h with triggers := found.1 }) (.triggers b₁.cpu.hart found.1))
  split
  · rename_i m hm
    exact ⟨_, a₂.trans (.withHart (fun h => h.takeTriggerAction core.cfg m.action 0#64 h.pc)
      (.takeTriggerAction b₂.cpu.hart _ _ _)), rfl⟩
  · split
    · exact ⟨_, a₂.trans (.endStep b₂.cpu dcsrCauseStep), rfl⟩
    · exact ⟨_, a₂, rfl⟩

theorem catchMatched_eq (core : Core σ ι) (b : Batch σ ι) (m : Matched) :
    b.catchMatched core m = leave { b with cpu := b.cpu.actOn core.cfg m b.pc } := rfl

/-! ### The tests of the slow path -/

/-- What the tests of the slow loop may change, for what they decide: flags of the hart that no
program sees, and the counts of triggers. -/
structure Tested (b b' : Batch σ ι) : Prop where
  n : b'.n = b.n
  instret : b'.instret = b.instret
  pc : b'.pc = b.pc
  phase : b'.phase = b.phase
  undisturbed : b.cpu.Undisturbed b'.cpu
  forgets : b.cpu.Forgets b'.cpu
  trapTriggers : b'.cpu.hart.triggers.trapTriggers = b.cpu.hart.triggers.trapTriggers
  reg : b'.cpu.hart.reg = b.cpu.hart.reg
  aborted : b'.cpu.hart.aborted = b.cpu.hart.aborted
  matchedTrigger : b'.cpu.matchedTrigger = b.cpu.matchedTrigger
  ledger : b'.cpu.ledger = b.cpu.ledger

namespace Tested

variable {b' b'' : Batch σ ι}

theorem refl (b : Batch σ ι) : Tested b b :=
  ⟨rfl, rfl, rfl, rfl, .refl _, .refl _, rfl, rfl, rfl, rfl, rfl⟩

theorem trans (t : Tested b b') (t' : Tested b' b'') : Tested b b'' where
  n := t'.n.trans t.n
  instret := t'.instret.trans t.instret
  pc := t'.pc.trans t.pc
  phase := t'.phase.trans t.phase
  undisturbed := t.undisturbed.trans t'.undisturbed
  forgets := t.forgets.trans t'.forgets
  trapTriggers := t'.trapTriggers.trans t.trapTriggers
  reg := t'.reg.trans t.reg
  aborted := t'.aborted.trans t.aborted
  matchedTrigger := t'.matchedTrigger.trans t.matchedTrigger
  ledger := t'.ledger.trans t.ledger

theorem withHart {f : Hart → Hart} (q : b.cpu.hart.Quiet (f b.cpu.hart))
    (htriggers : (f b.cpu.hart).triggers.trapTriggers = b.cpu.hart.triggers.trapTriggers)
    (hreg : (f b.cpu.hart).reg = b.cpu.hart.reg)
    (ha : (f b.cpu.hart).aborted = b.cpu.hart.aborted) : Tested b (b.withHart f) where
  n := rfl
  instret := rfl
  pc := rfl
  phase := rfl
  undisturbed := .withHart q
  forgets := .withHart b.cpu f
  trapTriggers := by rw [Batch.withHart, Cpu.hart_withHart, htriggers]
  reg := (congrArg Hart.reg (b.cpu.hart_withHart f)).trans hreg
  aborted := (congrArg Hart.aborted (b.cpu.hart_withHart f)).trans ha
  matchedTrigger := b.cpu.matchedTrigger_withHart f
  ledger := b.cpu.ledger_withHart f

theorem stepOn (b : Batch σ ι) : Tested b b.stepOn := by
  rw [Batch.stepOn]
  split
  · exact .withHart (.singleStep _ _) rfl rfl rfl
  · exact .refl b

end Tested

/-- Why a round of the slow loop does not execute an instruction. -/
def Refuses (b b' : Batch σ ι) : Round → Prop
  | .execute => True
  | .stepped => b.cpu.serialized = false ∧ b'.cpu.hart.debugMode = false
  | .throw e =>
    (∃ m : Matched, e = .matched m ∧ b.cpu.serialized = false ∧ b.cpu.hart.debugMode = false ∧
      b'.cpu.hart.triggers.countdown < b.cpu.hart.triggers.countdown) ∨
    (e = .waitForInterrupt ∧ b.cpu.hart.inWfi = true ∧ b.cpu.hart.debugMode = false)

theorem laterTests_spec (core : Core σ ι) (b : Batch σ ι) :
    Tested b (b.laterTests core).1 ∧ Refuses b (b.laterTests core).1 (b.laterTests core).2 := by
  have hon := Tested.stepOn b
  have hwfi : b.stepOn.cpu.hart.inWfi = b.cpu.hart.inWfi := by
    rw [stepOn]
    split
    · rw [withHart, Cpu.hart_withHart]
    · rfl
  rw [laterTests, icountMatch]
  cases hcheck : !b.stepOn.cpu.serialized && b.stepOn.cpu.checkTriggersIcount with
  | true =>
    rw [if_pos rfl]
    rw [Bool.and_eq_true, Bool.not_eq_true', hon.undisturbed.serialized] at hcheck
    have hcount := Triggers.countdown_detectIcountMatch (b.stepOn.cpu.hart.matchEnv core.cfg)
      b.stepOn.cpu.hart.triggers
    have htraps : (b.stepOn.cpu.hart.triggers.detectIcountMatch
        (b.stepOn.cpu.hart.matchEnv core.cfg)).1.trapTriggers =
          b.stepOn.cpu.hart.triggers.trapTriggers := Triggers.trapTriggers_detectIcountMatch _
    -- no trigger fires in debug mode
    have hdebug :
      ((b.stepOn.cpu.hart.triggers.detectIcountMatch
        (b.stepOn.cpu.hart.matchEnv core.cfg)).2.isSome = true →
        b.stepOn.cpu.hart.debugMode = false) := by
      intro hsome
      cases hd : b.stepOn.cpu.hart.debugMode with
      | false => rfl
      | true =>
        have henv : (b.stepOn.cpu.hart.matchEnv core.cfg).debugMode = true := hd
        rw [Triggers.detectIcountMatch, henv] at hsome
        exact absurd hsome Bool.noConfusion
    generalize b.stepOn.cpu.hart.triggers.detectIcountMatch
      (b.stepOn.cpu.hart.matchEnv core.cfg) = found
      at hcount htraps hdebug
    dsimp only
    have t : Tested b (b.stepOn.withHart fun h => { h with triggers := found.1 }) :=
      hon.trans (.withHart (.triggers hcount.1) htraps rfl rfl)
    cases hm : found.2 with
    | some m =>
      rw [hm] at hcount hdebug
      refine ⟨t, .inl
        ⟨_, rfl, hcheck.1, hon.undisturbed.hart.debugMode.symm.trans (hdebug rfl), ?_⟩⟩
      have hlt := Nat.lt_of_lt_of_le (hcount.2 rfl) hon.undisturbed.hart.countdown
      rw [withHart, Cpu.hart_withHart]
      exact hlt
    -- nothing fired, and a hart that waits is refused
    | none =>
      dsimp only
      split
      · rename_i hw
        rw [withHart, Cpu.hart_withHart, Bool.and_eq_true, Bool.not_eq_true'] at hw
        exact ⟨t, .inr ⟨rfl, hwfi.symm.trans hw.1, hon.undisturbed.hart.debugMode.symm.trans hw.2⟩⟩
      · exact ⟨t.trans (.withHart (.inWfi _ _) rfl rfl rfl), trivial⟩
  | false =>
    rw [if_neg Bool.false_ne_true]
    dsimp only
    split
    · rename_i hw
      rw [Bool.and_eq_true, Bool.not_eq_true'] at hw
      exact ⟨hon, .inr ⟨rfl, hwfi.symm.trans hw.1, hon.undisturbed.hart.debugMode.symm.trans hw.2⟩⟩
    · exact ⟨hon.trans (.withHart (.inWfi _ _) rfl rfl rfl), trivial⟩

/-- **The tests of the slow loop.** -/
theorem slowTests_spec (core : Core σ ι) (b : Batch σ ι) :
    Tested b (b.slowTests core).1 ∧ Refuses b (b.slowTests core).1 (b.slowTests core).2 := by
  rw [slowTests]
  split
  · rename_i hdone
    rw [stepDone, Bool.and_eq_true, Bool.not_eq_true'] at hdone
    have t : Tested b (b.withHart fun h => { h with singleStep := .none }) :=
      .withHart (.singleStep _ _) rfl rfl rfl
    dsimp only
    split
    · rename_i hd
      rw [Bool.not_eq_true'] at hd
      exact ⟨t, hdone.1, hd⟩
    · obtain ⟨t', hr⟩ := laterTests_spec core (b.withHart fun h => { h with singleStep := .none })
      refine ⟨t.trans t', ?_⟩
      generalize laterTests core (b.withHart fun h => { h with singleStep := .none }) =
        tested at hr ⊢
      obtain ⟨b', round⟩ := tested
      cases round with
      | execute => trivial
      | stepped =>
        obtain ⟨hs, hd⟩ := hr
        exact ⟨t.undisturbed.serialized ▸ hs, hd⟩
      | throw e =>
        obtain ⟨m, rfl, hs, hd, hlt⟩ | ⟨rfl, hw, hd⟩ := hr
        · refine .inl ⟨m, rfl, t.undisturbed.serialized ▸ hs, t.undisturbed.hart.debugMode ▸ hd, ?_⟩
          exact Nat.lt_of_lt_of_le hlt t.undisturbed.hart.countdown
        · refine .inr ⟨rfl, ?_, t.undisturbed.hart.debugMode ▸ hd⟩
          rw [withHart, Cpu.hart_withHart] at hw
          exact hw
  · exact laterTests_spec core b

/-! ### Attempts of both paths -/

/-- What a program fetches, with the processor that it leaves. -/
def fetchedBy {α : Type} (f : α → ι) :
    EStateM.Result Thrown (Cpu σ ι) α → Option (ι × Cpu σ ι)
  | .ok a c => some (f a, c)
  | .error _ _ => none

/-- What is fetched on the slow path. -/
def slowFetched (core : Core σ ι) (pc : Reg) (c : Cpu σ ι) : Option (ι × Cpu σ ι) :=
  fetchedBy id (core.loadInsn pc c)

/-- What is fetched on the fast path. -/
def fastFetched (core : Core σ ι) (pc : Reg) (entry : Option (IcacheEntry ι)) (c : Cpu σ ι) :
    Option (ι × Cpu σ ι) :=
  match entry with
  | some entry => some (entry.data, c)
  | none => fetchedBy IcacheEntry.data (core.accessIcache pc c)

theorem attempt_slow (core : Core σ ι) (b : Batch σ ι) (c : Cpu σ ι) :
    Attempt core b.pc c (slowFetched core b.pc c) (b.slowAttempt core c) := by
  rw [slowAttempt, slowFetched]
  obtain ⟨m, hm, herr⟩ | ⟨hnone, heq⟩ := loadInsn_cases core b.pc c
  · rw [Exec.bind_of_error herr, herr]
    exact .due hm
  · cases hf : core.fetch b.pc c with
    | ok insn c' =>
      rw [Exec.bind_of_ok (heq.trans hf), heq.trans hf]
      exact .handled (.fresh hnone hf (.inl rfl))
    | error e c' =>
      rw [Exec.bind_of_error (heq.trans hf), heq.trans hf]
      exact .unfetched hnone hf

/-- What the handler returns on the fast path. -/
def handlerResult : EStateM.Result Thrown (Cpu σ ι) (IcacheEntry ι × Reg) →
    EStateM.Result Thrown (Cpu σ ι) Reg
  | .ok (_, npc) c => .ok npc c
  | .error e c => .error e c

theorem attempt_entry (core : Core σ ι) {pc : Reg} {c c' : Cpu σ ι} {entry : IcacheEntry ι}
    (hf : Fetched core pc c entry.data c') :
    Attempt core pc c (some (entry.data, c')) (handlerResult ((do
      let npc ← core.run entry.data pc
      pure (entry, npc) : CpuM σ ι (IcacheEntry ι × Reg)) c')) := by
  have hrun : Attempt core pc c (some (entry.data, c')) (core.run entry.data pc c') := .handled hf
  cases hr : core.run entry.data pc c' with
  | ok npc c'' =>
    rw [Exec.bind_of_ok hr]
    rw [hr] at hrun
    exact hrun
  | error e c'' =>
    rw [Exec.bind_of_error hr]
    rw [hr] at hrun
    exact hrun

theorem attempt_fast (core : Core σ ι) (b : Batch σ ι) (entry : Option (IcacheEntry ι))
    (c : Cpu σ ι) :
    Attempt core b.pc c (fastFetched core b.pc entry c)
      (handlerResult (b.fastAttempt core entry c)) := by
  cases entry with
  | some entry => exact attempt_entry core (.cached entry.data)
  | none =>
    rw [fastAttempt, fastFetched]
    dsimp only
    cases hacc : core.accessIcache b.pc c with
    | ok entry c' =>
      rw [Exec.bind_of_ok hacc]
      refine attempt_entry core ?_
      rw [accessIcache, Exec.bind_of_ok (rfl : (get : CpuM σ ι (Cpu σ ι)) c = .ok c c)] at hacc
      dsimp only at hacc
      split at hacc
      · cases hacc
        exact .cached _
      · obtain ⟨insn, c₁, hload, hrest⟩ := Exec.bind_eq_ok_iff.1 hacc
        cases hrest
        obtain ⟨m, -, herr⟩ | ⟨hnone, heq⟩ := loadInsn_cases core b.pc c
        · rw [herr] at hload
          cases hload
        · exact .fresh hnone (heq.symm.trans hload) (.inr rfl)
    | error e c' =>
      rw [Exec.bind_of_error hacc]
      rw [accessIcache, Exec.bind_of_ok (rfl : (get : CpuM σ ι (Cpu σ ι)) c = .ok c c)] at hacc
      dsimp only at hacc
      split at hacc
      · cases hacc
      · obtain hload | ⟨insn, c₁, hload, hrest⟩ := Exec.bind_eq_error_iff.1 hacc
        · obtain ⟨m, hm, herr⟩ | ⟨hnone, heq⟩ := loadInsn_cases core b.pc c
          · rw [herr] at hload
            cases hload
            exact .due hm
          · exact .unfetched hnone (heq.symm.trans hload)
        · cases hrest

/-! ### Ticks -/

/-- The instruction a tick attempts to execute: the processor before, and the outcome. -/
def attempt (core : Core σ ι) (b : Batch σ ι) :
    Option (Cpu σ ι × EStateM.Result Thrown (Cpu σ ι) Reg) :=
  match b.phase with
  | .slow =>
    match b.slowTests core with
    | (b', .execute) => some (b'.cpu, b'.slowAttempt core b'.cpu)
    | _ => none
  | .fast entry => some (b.cpu, handlerResult (b.fastAttempt core entry b.cpu))
  | _ => none

/-- The instruction that is fetched in a tick, with the processor that its handler finds. -/
def fetched (core : Core σ ι) (b : Batch σ ι) : Option (ι × Cpu σ ι) :=
  match b.phase with
  | .slow =>
    match b.slowTests core with
    | (b', .execute) => slowFetched core b'.pc b'.cpu
    | _ => none
  | .fast entry => fastFetched core b.pc entry b.cpu
  | _ => none

/-- An instruction is attempted behind the tests. -/
theorem attempt_cases {c : Cpu σ ι} {r : EStateM.Result Thrown (Cpu σ ι) Reg}
    (hatt : b.attempt core = some (c, r)) :
    b.inner = true ∧ ∃ b₁, Tested b b₁ ∧ b₁.cpu = c ∧
      Attempt core b.pc c (b.fetched core) r := by
  rw [attempt] at hatt
  split at hatt
  · rename_i hphase
    obtain ⟨t, -⟩ := slowTests_spec core b
    split at hatt
    · rename_i b₁ htests
      rw [htests] at t
      have a := attempt_slow core b₁ b₁.cpu
      rw [t.pc] at a
      have hfetched : b.fetched core = slowFetched core b₁.pc b₁.cpu := by
        rw [fetched, hphase]
        dsimp only
        rw [htests]
      rw [t.pc] at hfetched
      rw [← hfetched] at a
      cases hatt
      exact ⟨inner_eq hphase, b₁, t, rfl, a⟩
    · cases hatt
  · rename_i entry hphase
    have a := attempt_fast core b entry b.cpu
    have hfetched : b.fetched core = fastFetched core b.pc entry b.cpu := by
      rw [fetched, hphase]
    rw [← hfetched] at a
    cases hatt
    exact ⟨inner_eq hphase, b, .refl b, rfl, a⟩
  · cases hatt

/-- What is fetched in a tick is fetched behind its tests. -/
theorem fetched_cases {insn : ι} {c : Cpu σ ι} (hf : b.fetched core = some (insn, c)) :
    b.inner = true ∧ ∃ b₁, Tested b b₁ ∧ Fetched core b₁.pc b₁.cpu insn c := by
  rw [fetched] at hf
  split at hf
  · rename_i hphase
    obtain ⟨t, -⟩ := slowTests_spec core b
    split at hf
    · rename_i b₁ htests
      rw [htests] at t
      have a := attempt_slow core b₁ b₁.cpu
      rw [hf] at a
      exact ⟨inner_eq hphase, b₁, t, a.fetched⟩
    · cases hf
  · rename_i entry hphase
    have a := attempt_fast core b entry b.cpu
    rw [hf] at a
    exact ⟨inner_eq hphase, b, .refl b, a.fetched⟩
  · cases hf

/-- The batch at the head of the outer loop, with its local variables. -/
def atHead (b : Batch σ ι) : Batch σ ι :=
  { b with instret := 0#64, pc := b.cpu.hart.pc }

/-- **What a tick can do.** -/
inductive Ticks (core : Core σ ι) (b : Batch σ ι) : Batch σ ι → Prop where
  | idle (hphase : b.phase = .idle) : Ticks core b b
  | done (hphase : b.phase = .head) (hn : b.n = 0#64) : Ticks core b { b with phase := .idle }
  /-- no interrupt is taken -/
  | entered (hphase : b.phase = .head) (hn : b.n ≠ 0#64) {b₁ : Batch σ ι}
      (t : Tested b.atHead b₁) {next : Phase ι}
      (hnext : next.inner = true) : Ticks core b { b₁ with phase := next }
  | interrupted (hphase : b.phase = .head) (hn : b.n ≠ 0#64) {b₁ : Batch σ ι}
      (t : Tested b.atHead b₁) {trap : Trap}
      (htake : b.cpu.hart.takeInterrupt core.cfg b.cpu.hart.pendingInterrupts = .throw trap) :
      Ticks core b (b₁.catchTrap core trap)
  | crashed (hphase : b.phase = .head) (hn : b.n ≠ 0#64) {b₁ : Batch σ ι} (t : Tested b.atHead b₁) :
      Ticks core b (b₁.withHart (·.abort))
  /-- the single step is over -/
  | stepped (hphase : b.phase = .slow) {b₁ : Batch σ ι} (htests : b.slowTests core = (b₁, .stepped))
      (t : Tested b b₁)
      (hs : b.cpu.serialized = false) (hd : b₁.cpu.hart.debugMode = false) :
      Ticks core b (leave (b₁.withHart (·.enterDebugMode core.cfg dcsrCauseStep)))
  /-- a count has run out -/
  | counted (hphase : b.phase = .slow) {b₁ : Batch σ ι} {m : Matched}
      (htests : b.slowTests core = (b₁, .throw (.matched m))) (t : Tested b b₁)
      (hs : b.cpu.serialized = false) (hd : b.cpu.hart.debugMode = false)
      (hlt : b₁.cpu.hart.triggers.countdown < b.cpu.hart.triggers.countdown) :
        Ticks core b (b₁.catchMatched core m)
  /-- the hart waits after `wfi` -/
  | waiting (hphase : b.phase = .slow) {b₁ : Batch σ ι}
      (htests : b.slowTests core = (b₁, .throw .waitForInterrupt))
      (t : Tested b b₁) : Ticks core b b₁.catchWait
  /-- the handler returns -/
  | returned (hi : b.inner = true) {b₁ : Batch σ ι} (t : Tested b b₁) {npc : Reg} {c : Cpu σ ι}
      (hatt : b.attempt core = some (b₁.cpu, .ok npc c))
        (a : Attempt core b.pc b₁.cpu (b.fetched core) (.ok npc c)) {next : Phase ι}
      (hnext : next.inner = true) : Ticks core b (advance { b₁ with cpu := c } npc next)
  /-- the handler returns, and the next entry of the cache has the right tag -/
  | linked {entry : Option (IcacheEntry ι)} (hphase : b.phase = .fast entry)
      {npc : Reg} {c : Cpu σ ι} {next : IcacheEntry ι}
      (hatt : b.attempt core = some (b.cpu, .ok npc c))
        (a : Attempt core b.pc b.cpu (b.fetched core) (.ok npc c)) (htag : next.tag = npc)
      {i : Nat} (hnext : next = c.icache i) (hne : b.instret + 1#64 ≠ b.n) :
      Ticks core b { b with
        cpu := c.withHart fun h => { h with pc := npc }
        pc := npc
        instret := b.instret + 1#64
        phase := .fast (some next) }
  /-- the fetch or the handler throws -/
  | thrown (hi : b.inner = true) {b₁ : Batch σ ι} (t : Tested b b₁) {e : Thrown} {c : Cpu σ ι}
      (hatt : b.attempt core = some (b₁.cpu, .error e c))
        (a : Attempt core b.pc b₁.cpu (b.fetched core) (.error e c)) :
      Ticks core b (caught core { b₁ with cpu := c } e)

/-- An interrupt lets the counts go on, no more. -/
theorem tested_countInterrupt (core : Core σ ι) (b : Batch σ ι) :
    Tested b (b.countInterrupt core) := by
  rw [countInterrupt]
  split
  · exact .withHart (.triggers (Triggers.countdown_detectIcountMatch _ _).1)
      (Triggers.trapTriggers_detectIcountMatch _) rfl rfl
  · exact .refl b

theorem ticks_enter (hphase : b.phase = .head) (hn : b.n ≠ 0#64) : Ticks core b (b.enter core) := by
  unfold enter
  extract_lets b₁ pending awake
  have t : Tested b.atHead awake := by
    show Tested b.atHead (if _ then _ else _)
    split
    · exact .refl b₁
    · exact .withHart (.inWfi _ _) rfl rfl rfl
  split
  · refine .entered hphase hn t ?_
    split <;> rfl
  · rename_i trap htake
    exact .interrupted hphase hn (t.trans (tested_countInterrupt core awake)) htake
  · exact .crashed hphase hn t

theorem ticks_slow (hphase : b.phase = .slow) : Ticks core b (b.slow core) := by
  have hi : b.inner = true := inner_eq hphase
  obtain ⟨t, hr⟩ := slowTests_spec core b
  have hatt : b.attempt core = match b.slowTests core with
      | (b', .execute) => some (b'.cpu, b'.slowAttempt core b'.cpu)
      | _ => none := by
    rw [attempt, hphase]
  have hfetched : b.fetched core = match b.slowTests core with
      | (b', .execute) => slowFetched core b'.pc b'.cpu
      | _ => none := by
    rw [fetched, hphase]
  rw [slow]
  cases htests : b.slowTests core with
  | mk b₁ round =>
    rw [htests] at t hr hatt hfetched
    cases round with
    | stepped => exact .stepped hphase htests t hr.1 hr.2
    | throw e =>
      obtain ⟨m, rfl, hs, hd, hlt⟩ | ⟨rfl, -⟩ := hr
      · exact .counted hphase htests t hs hd hlt
      · exact .waiting hphase htests t
    | execute =>
      have a := attempt_slow core b₁ b₁.cpu
      show Ticks core b (b₁.slowExecute core)
      rw [slowExecute]
      dsimp only at hatt hfetched
      rw [← hfetched, t.pc] at a
      cases hattempt : b₁.slowAttempt core b₁.cpu with
      | ok npc c =>
        rw [hattempt] at a hatt
        exact .returned hi t hatt a rfl
      | error e c =>
        rw [hattempt] at a hatt
        exact .thrown hi t hatt a

theorem ticks_fast {entry : Option (IcacheEntry ι)} (hphase : b.phase = .fast entry) :
    Ticks core b (b.fast core entry) := by
  have hi : b.inner = true := inner_eq hphase
  have a := attempt_fast core b entry b.cpu
  have hatt : b.attempt core = some (b.cpu, handlerResult (b.fastAttempt core entry b.cpu)) := by
    rw [attempt, hphase]
  have hfetched : b.fetched core = fastFetched core b.pc entry b.cpu := by
    rw [fetched, hphase]
  rw [← hfetched] at a
  rw [fast]
  cases hattempt : b.fastAttempt core entry b.cpu with
  | ok result c =>
    obtain ⟨entry', npc⟩ := result
    rw [hattempt] at a hatt
    dsimp only
    split
    · rename_i hnext
      exact .linked hphase hatt a hnext.1 rfl hnext.2
    · exact .returned hi (.refl b) hatt a rfl
  | error e c =>
    rw [hattempt] at a hatt
    exact .thrown hi (.refl b) hatt a

/-- **The cases of a tick.** -/
theorem tick_cases (core : Core σ ι) (b : Batch σ ι) (ha : b.cpu.hart.aborted = false) :
    Ticks core b (b.tick core) := by
  rw [tick, ha, if_neg Bool.false_ne_true]
  split
  · rename_i hphase
    exact .idle hphase
  · rename_i hphase
    split
    · rename_i hn
      exact .done hphase hn
    · rename_i hn
      exact ticks_enter hphase hn
  · rename_i hphase
    exact ticks_slow hphase
  · rename_i entry hphase
    exact ticks_fast hphase

/-! ### Runs -/

/-- A processor that has been built, before the first call: nothing is cached, nothing is
pending. -/
structure Fresh (core : Core σ ι) (b : Batch σ ι) : Prop where
  phase : b.phase = .idle
  reachable : Hart.Reachable core.cfg b.cpu.hart
  serialized : b.cpu.serialized = false
  icache : ∀ i, (b.cpu.icache i).tag = invalidTag
  matchedTrigger : b.cpu.matchedTrigger = none
  due : b.cpu.ledger.due = none
  count : b.cpu.ledger.count = b.cpu.hart.reg .minstret

theorem Fresh.inner (f : b.Fresh core) : b.inner = false := by
  rw [Batch.inner, f.phase]
  rfl

theorem play_cases (core : Core σ ι) (b : Batch σ ι) (op : LoopOp σ) :
    b.play core op = b.tick core ∨
    b.play core op = if b.phase.busy || b.cpu.hart.aborted then b else b.between core op := by
  cases op with
  | tick => exact .inl rfl
  | _ => exact .inr rfl

/-- Nothing happens to a processor whose simulator has aborted. -/
theorem cpu_play_of_aborted (ha : b.cpu.hart.aborted = true) (op : LoopOp σ) :
    (b.play core op).cpu = b.cpu := by
  obtain heq | heq := play_cases core b op
  · rw [heq, tick, if_pos ha]
  · rw [heq, ha, Bool.or_true, if_pos rfl]

/-- **One step of a run**, for what holds as long as the simulator has not aborted. -/
theorem play_alive {I : Batch σ ι → Prop} {op : LoopOp σ} (hI : b.cpu.hart.aborted = false → I b)
    (htick : I b → b.cpu.hart.aborted = false → (b.tick core).cpu.hart.aborted = false →
      I (b.tick core))
    (hbetween : b.phase = .idle → I b → I (b.between core op))
    (ha' : (b.play core op).cpu.hart.aborted = false) :
    I (b.play core op) := by
  cases ha : b.cpu.hart.aborted with
  | true =>
    rw [cpu_play_of_aborted ha, ha] at ha'
    cases ha'
  | false =>
    obtain heq | heq := play_cases core b op
    · rw [heq] at ha' ⊢
      exact htick (hI ha) ha ha'
    · rw [heq, ha, Bool.or_false]
      cases hphase : b.phase with
      | idle => exact hbetween hphase (hI ha)
      | _ => exact hI ha

end Batch

end Nnemu

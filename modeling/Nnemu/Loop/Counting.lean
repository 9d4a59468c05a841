import Nnemu.Loop.Links

/-!
# What `minstret` counts

Between two batches `minstret` is the count of the instructions that have retired (`Ledger.count`);
within one it is `instret` behind. An instruction that reads or writes the counter asks for
serialization first, so that it comes first in its batch, where the counter is exact. This goes
wrong where the loop counts a wait that no `wfi` is behind, where such an instruction finds the
request of another one in the middle of a batch, and where its destination register is refused
after it has written the counter (`Batch.miscounts`).

`Behind` is the invariant of a batch, `Counted` of what a tick has done to it. Retiring an
instruction adds one to both sides, the tail of `step` adds `instret` to the register, and an
instruction that reads the counter does so at the head of a batch, where `instret` is zero.
`miscounts` is a test on the batch before the tick.
-/

namespace Nnemu

namespace Core

variable {σ ι : Type} {core : Core σ ι} {pc : Reg} {c c' : Cpu σ ι}

/-! ### Where the count goes wrong -/

/-- Does the instruction find the counter behind, or write it and trap? -/
def misattempts (core : Core σ ι) (instret : BitVec 64) (x : ι × Cpu σ ι) : Bool :=
  (core.accesses x.1 && x.2.serialized && instret != 0#64) ||
    ((core.strands x.1 x.2).isSome && (core.written x.1 x.2).isSome)

/-! ### Attempts -/

/-- The counter is `instret` behind the count. -/
def Behind (instret : BitVec 64) (c : Cpu σ ι) : Prop :=
  c.hart.reg .minstret + instret = c.ledger.count

theorem Behind.congr {instret : BitVec 64} (h : Behind instret c)
    (hminstret : c'.hart.reg .minstret = c.hart.reg .minstret) (hledger : c'.ledger = c.ledger) :
    Behind instret c' := by
  rw [Behind, hminstret, hledger]
  exact h

theorem Behind.intact {instret : BitVec 64} (h : Behind instret c) (i : c.Intact c') :
    Behind instret c' :=
  h.congr i.minstret i.ledger

/-- The loop writes its line behind an instruction that leaves the counter alone. -/
theorem Behind.retire {instret : BitVec 64} (h : Behind instret c) (next : Reg) :
    Behind (instret + 1#64) (retire next none c) := by
  have hcount : c.hart.reg .minstret + instret + 1#64 = c.ledger.count + 1#64 :=
    congrArg (· + 1#64) h
  exact (BitVec.add_assoc _ _ _).symm.trans hcount

/-- An instruction that writes nothing to the counter. -/
theorem written_of_ordinary (law : core.Lawful) {insn : ι} (hv : core.serializes insn = false)
    (c : Cpu σ ι) : core.written insn c = none := by
  by_contra hwritten
  rw [(law.written hwritten).2] at hv
  cases hv

namespace Attempt

variable {instret : BitVec 64} {npc : Reg} {d : Option (ι × Cpu σ ι)}

/-- **One more has retired.** What the instruction writes to the counter is the count. -/
theorem behind_ok (law : core.Lawful) (heven : pc.getLsbD 0 = false) (h : Behind instret c)
    (hok : d.any (core.misattempts instret) = false) (a : Attempt core pc c d (.ok npc c'))
    (hne : npc ≠ pcSerializeBefore) : Behind (instret + 1#64) c' := by
  generalize hr : (EStateM.Result.ok npc c' : EStateM.Result Thrown (Cpu σ ι) Reg) = r at a
  cases a with
  | due hm => cases hr
  | unfetched hnone herr => cases hr
  | @handled insn c₁ hf =>
    have h₁ := h.intact (hf.intact law)
    have handled := law.execute insn c₁ heven
    obtain ⟨c₂, hex, ⟨heq, -⟩ | ⟨-, rfl⟩⟩ := run_eq_ok hr.symm
    · exact absurd heq hne
    · rw [hex] at handled
      cases handled with
      | ordinary hv ends =>
        rw [written_of_ordinary law hv c₁]
        cases ends with
        | next hnpc w => exact (h₁.congr w.minstret w.ledger).retire _
        | after w => exact (h₁.congr w.minstret w.ledger).retire _
      | before hv hs => exact absurd rfl hne
      | written hv hs w hminstret =>
        cases hw : core.written insn c₁ with
        | none =>
          rw [hw] at hminstret
          exact (h₁.congr hminstret w.ledger).retire _
        | some val =>
          -- the counter was up to date
          have hinstret : instret = 0#64 := by
            rw [Option.any_some, misattempts, Bool.or_eq_false_iff,
              (law.written (hw ▸ Option.some_ne_none val)).1, hs] at hok
            exact bne_eq_false_iff_eq.1 hok.1
          rw [hw] at hminstret
          show c₂.hart.reg .minstret + (instret + 1#64) = val
          rw [hminstret, hinstret, BitVec.zero_add]
          exact BitVec.sub_add_cancel val 1#64

/-- `wfi` has retired when the hart begins to wait. -/
theorem behind_wait (law : core.Lawful) (heven : pc.getLsbD 0 = false) (h : Behind instret c)
    (a : Attempt core pc c d (.error .waitForInterrupt c')) : Behind (instret + 1#64) c' := by
  generalize hr : (EStateM.Result.error .waitForInterrupt c' :
    EStateM.Result Thrown (Cpu σ ι) Reg) = r at a
  cases a with
  | due hm => cases hr
  | unfetched hnone herr =>
    cases hr
    obtain ⟨-, ⟨t, heq⟩ | ⟨m, heq, -⟩⟩ := unfetched_error law herr
    · cases heq
    · cases heq
  | @handled insn c₁ hf =>
    have h₁ := h.intact (hf.intact law)
    have handled := law.execute insn c₁ heven
    obtain ⟨c₂, hex, ⟨-, rfl⟩ | ⟨hne, -⟩⟩ := run_eq_error hr.symm
    · rw [hex] at handled
      cases handled with
      | ordinary hv ends =>
        rw [written_of_ordinary law hv c₁]
        cases ends with
        | wait w => exact (h₁.congr w.minstret w.ledger).retire _
    · exact absurd rfl hne

/-- **What throws** has not retired. -/
theorem behind_error (law : core.Lawful) (heven : pc.getLsbD 0 = false) (h : Behind instret c)
    (hok : d.any (core.misattempts instret) = false) {e : Thrown} (hne : e ≠ .waitForInterrupt)
    (a : Attempt core pc c d (.error e c')) : Behind instret c' := by
  generalize hr : (EStateM.Result.error e c' : EStateM.Result Thrown (Cpu σ ι) Reg) = r at a
  cases a with
  | due hm =>
    cases hr
    exact h
  | unfetched hnone herr =>
    cases hr
    exact h.intact (unfetched_error law herr).1
  | @handled insn c₁ hf =>
    have h₁ := h.intact (hf.intact law)
    have handled := law.execute insn c₁ heven
    obtain ⟨c₂, hex, ⟨heq, -⟩ | ⟨-, rfl⟩⟩ := run_eq_error hr.symm
    · exact absurd heq hne
    · rw [hex] at handled
      cases handled with
      | ordinary hv ends =>
        cases ends with
        | wait w => exact absurd rfl hne
        | trap s => exact h₁.intact s.toIntact
        | matched s hd => exact h₁.intact s.toIntact
        | debugMode s hd => exact h₁.intact s.toIntact
      | refused hv hs s hnone => exact h₁.congr s.minstret s.ledger
      | stranded hv hs w hstrands hminstret =>
        have hnone : core.written insn c₁ = none := by
          rw [Option.any_some, misattempts, Bool.or_eq_false_iff, hstrands] at hok
          exact Option.not_isSome_iff_eq_none.1 (Bool.eq_false_iff.1 hok.2)
        rw [hnone] at hminstret
        exact h₁.congr hminstret w.ledger

end Attempt

end Core

namespace Batch

open Nnemu.Core

variable {σ ι : Type} (core : Core σ ι) (b : Batch σ ι)

/-! ### Rounds -/

/-- Does the test of `check_triggers_icount` end the round? -/
def countDue : Bool :=
  !b.cpu.serialized && b.cpu.checkTriggersIcount &&
    (b.cpu.hart.triggers.detectIcountMatch (b.cpu.hart.matchEnv core.cfg)).2.isSome

/-- Is this a round of the slow loop that finds the hart waiting? It counts as an instruction all
the same. -/
def waits : Bool :=
  match b.phase with
  | .slow => b.cpu.hart.inWfi && !b.cpu.hart.debugMode && !b.stepDone && !b.countDue core
  | _ => false

/-- **The rounds that miscount.** -/
def miscounts : Bool :=
  b.waits core || (b.fetched core).any (core.misattempts b.instret)

/-- The counter is exact between batches. -/
def Exact : Prop :=
  b.inner = false → b.cpu.hart.reg .minstret = b.cpu.ledger.count

/-- The counter is exact for the instruction that gets to read or write it. -/
def Current : Prop :=
  ∀ insn c, b.fetched core = some (insn, c) → core.accesses insn = true → c.serialized = true →
    c.hart.reg .minstret = c.ledger.count

/-- The invariant. -/
structure Counted : Prop where
  between : b.Exact
  behind : b.inner = true → Behind b.instret b.cpu

variable {core : Core σ ι} {b b' : Batch σ ι}

theorem isSome_icountMatch (core : Core σ ι) (b : Batch σ ι) :
    (b.stepOn.icountMatch core).2.isSome = b.countDue core := by
  have hon : b.stepOn.cpu.serialized = b.cpu.serialized ∧
      b.stepOn.cpu.checkTriggersIcount = b.cpu.checkTriggersIcount ∧
      b.stepOn.cpu.hart.triggers = b.cpu.hart.triggers ∧
      b.stepOn.cpu.hart.matchEnv core.cfg = b.cpu.hart.matchEnv core.cfg := by
    rw [stepOn]
    split
    · rw [withHart, Cpu.serialized_withHart, Cpu.checkTriggersIcount_withHart, Cpu.hart_withHart]
      exact ⟨rfl, rfl, rfl, rfl⟩
    · exact ⟨rfl, rfl, rfl, rfl⟩
  obtain ⟨hs, hc, hts, henv⟩ := hon
  rw [icountMatch, countDue, hs, hc, hts, henv]
  cases !b.cpu.serialized && b.cpu.checkTriggersIcount with
  | true => rw [if_pos rfl, Bool.true_and]
  | false => rw [if_neg Bool.false_ne_true, Bool.false_and, Option.isSome_none]

/-- A round that throws `wait_for_interrupt_t` has found the hart waiting. -/
theorem waits_of_slowTests (hphase : b.phase = .slow)
    (htests : b.slowTests core = (b', .throw .waitForInterrupt)) : b.waits core = true := by
  have hr := (slowTests_spec core b).2
  rw [htests] at hr
  obtain ⟨m, heq, -⟩ | ⟨-, hwfi, hd⟩ := hr
  · cases heq
  have hstep : b.stepDone = false := by
    cases hdone : b.stepDone with
    | false => rfl
    | true =>
      rw [slowTests, hdone, if_pos rfl] at htests
      dsimp only at htests
      rw [withHart, Cpu.hart_withHart, hd] at htests
      cases htests
  have hcount : b.countDue core = false := by
    rw [slowTests, hstep, if_neg Bool.false_ne_true, laterTests] at htests
    rw [← isSome_icountMatch, Option.isSome_eq_false_iff, Option.isNone_iff_eq_none]
    cases hmatch : (b.stepOn.icountMatch core).2 with
    | none => rfl
    | some m =>
      dsimp only at htests
      rw [hmatch] at htests
      cases htests
  rw [waits, hphase]
  dsimp only
  rw [hwfi, hd, hstep, hcount]
  rfl

theorem Tested.behind {instret : BitVec 64} (t : Tested b b') (h : Behind instret b.cpu) :
    Behind instret b'.cpu :=
  h.congr (congrFun t.reg .minstret) t.ledger

/-- The counter is up to date where an instruction gets to it. -/
theorem Counted.current (law : core.Lawful) (h : Counted b) (hok : b.miscounts core = false) :
    b.Current core := by
  intro insn c hf ha hs
  obtain ⟨hi, b₁, t, fetched⟩ := fetched_cases hf
  have hinstret : b.instret = 0#64 := by
    rw [miscounts, Bool.or_eq_false_iff, hf, Option.any_some, misattempts,
      Bool.or_eq_false_iff, ha, hs] at hok
    exact bne_eq_false_iff_eq.1 hok.2.1
  have hcount := (t.behind (h.behind hi)).intact (fetched.intact law)
  rw [Behind, hinstret, BitVec.add_zero] at hcount
  exact hcount

/-! ### Heads and tails -/

/-- At the end of the outer loop's body the counter catches up. -/
theorem counted_leave (hcount : Behind b.instret b.cpu) : Counted b.leave where
  between _ := by
    rw [leave, withHart, Cpu.hart_withHart, Cpu.ledger_withHart, Hart.bump, Hart.reg_set,
      if_neg (by decide), Hart.reg_set, if_pos rfl]
    exact hcount
  behind hi := absurd (show false = true from hi) Bool.false_ne_true

theorem counted_catchTrap (hcount : Behind b.instret b.cpu) (t : Trap) :
    Counted (b.catchTrap core t) := by
  obtain ⟨c, a, heq⟩ := catchTrap_acted core b t
  rw [heq]
  exact counted_leave (hcount.congr a.hart.minstret a.ledger)

theorem counted_catchMatched (hcount : Behind b.instret b.cpu) (m : Matched) :
    Counted (b.catchMatched core m) := by
  rw [catchMatched_eq]
  refine counted_leave ?_
  show Behind b.instret (b.cpu.actOn core.cfg m b.pc)
  rw [Behind, Cpu.actOn, Cpu.hart_withHart, Cpu.ledger_withHart,
    (Hart.Acted.takeTriggerAction _ m.action m.address b.pc).minstret]
  exact hcount

theorem counted_enterDebugMode (hcount : Behind b.instret b.cpu) (cause : Reg) :
    Counted (leave (b.withHart (·.enterDebugMode core.cfg cause))) := by
  refine counted_leave (hcount.congr ?_ (b.cpu.ledger_withHart _))
  rw [withHart, Cpu.hart_withHart, Hart.minstret_enterDebugMode]

theorem counted_catchWait (hcount : Behind (b.instret + 1#64) b.cpu) : Counted b.catchWait := by
  refine counted_leave (hcount.congr ?_ (b.cpu.ledger_withHart _))
  rw [withHart, Cpu.hart_withHart]

/-- After an instruction that has retired. -/
theorem counted_advance (hcount : Behind (b.instret + 1#64) b.cpu) {npc : Reg}
    (hne : npc ≠ pcSerializeBefore) {next : Phase ι} (hnext : next.inner = true)
    (ha : (b.advance npc next).cpu.hart.aborted = false) : Counted (b.advance npc next) := by
  rw [advance, if_neg hne] at ha ⊢
  by_cases hinvalid : invalidPc npc = true
  · rw [if_pos hinvalid] at ha ⊢
    by_cases hafter : npc = pcSerializeAfter
    · rw [if_pos hafter]
      exact counted_leave (b := { b with instret := b.instret + 1#64 }) hcount
    · rw [if_neg hafter, withHart, Cpu.hart_withHart] at ha
      cases ha
  · rw [if_neg hinvalid] at ha ⊢
    have hpc : Behind (b.instret + 1#64) (b.withHart fun h => { h with pc := npc }).cpu := by
      refine hcount.congr ?_ (b.cpu.ledger_withHart _)
      rw [withHart, Cpu.hart_withHart]
    dsimp only
    split
    · exact ⟨fun hi => Bool.noConfusion (hnext.symm.trans hi), fun _ => hpc⟩
    · exact counted_leave hpc

/-- An instruction that has not retired is thrown back. -/
theorem counted_caught (law : core.Lawful) {pc : Reg} (heven : pc.getLsbD 0 = false)
    {c : Cpu σ ι} {e : Thrown} (h : Behind b.instret c) {d : Option (ι × Cpu σ ι)}
    (hok : d.any (core.misattempts b.instret) = false)
    (a : Attempt core pc c d (.error e b.cpu)) : Counted (b.caught core e) := by
  have hkept (hne : e ≠ .waitForInterrupt) : Behind b.instret b.cpu :=
    a.behind_error law heven h hok hne
  cases e with
  | trap t => exact counted_catchTrap (hkept fun heq => by cases heq) t
  | matched m => exact counted_catchMatched (hkept fun heq => by cases heq) m
  | debugMode => exact counted_enterDebugMode (hkept fun heq => by cases heq) dcsrCauseSwbp
  | waitForInterrupt => exact counted_catchWait (a.behind_wait law heven h)

/-! ### Ticks -/

/-- **One tick.** -/
theorem counted_tick (law : core.Lawful) (l : b.Linked core.cfg) (h : Counted b)
    (hok : b.miscounts core = false) (ha : b.cpu.hart.aborted = false)
    (ha' : (b.tick core).cpu.hart.aborted = false) : Counted (b.tick core) := by
  have hslow (hphase : b.phase = .slow) : b.inner = true := inner_eq hphase
  have hhead (hphase : b.phase = .head) : b.cpu.hart.reg .minstret = b.cpu.ledger.count :=
    h.between (inner_eq hphase)
  have hatHead (hphase : b.phase = .head) {b₁ : Batch σ ι} (t : Tested b.atHead b₁) :
      Behind b₁.instret b₁.cpu := by
    rw [t.instret]
    exact t.behind ((BitVec.add_zero _).trans (hhead hphase))
  have htested {b₁ : Batch σ ι} (hi : b.inner = true) (t : Tested b b₁) :
      Behind b₁.instret b₁.cpu := by
    rw [t.instret]
    exact t.behind (h.behind hi)
  have hmis {b₁ : Batch σ ι} (t : Tested b b₁) :
      (b.fetched core).any (core.misattempts b₁.instret) = false := by
    rw [miscounts, Bool.or_eq_false_iff] at hok
    rw [t.instret]
    exact hok.2
  have hticks := tick_cases core b ha
  generalize b.tick core = b' at hticks ha'
  cases hticks with
  | idle hphase => exact h
  | done hphase hn =>
    exact ⟨fun _ => hhead hphase,
      fun hi => absurd (show false = true from hi) Bool.false_ne_true⟩
  | entered hphase hn t hnext =>
    have hb := hatHead hphase t
    exact ⟨fun hi => Bool.noConfusion (hnext.symm.trans hi), fun _ => hb⟩
  | interrupted hphase hn t htake => exact counted_catchTrap (hatHead hphase t) _
  | crashed hphase hn t =>
    rw [withHart, Cpu.hart_withHart] at ha'
    cases ha'
  | stepped hphase htests t hs hd =>
    exact counted_enterDebugMode (htested (hslow hphase) t) dcsrCauseStep
  | counted hphase htests t hs hd hlt => exact counted_catchMatched (htested (hslow hphase) t) _
  -- a wait is one of the miscounts
  | waiting hphase htests t =>
    rw [miscounts, waits_of_slowTests hphase htests] at hok
    cases hok
  -- the serialization comes back with nothing counted on either side
  | @returned hi b₁ t npc c hatt a next hnext =>
    have hb := htested hi t
    have hok := hmis t
    by_cases hbefore : npc = pcSerializeBefore
    · subst hbefore
      have hcount := hb.intact (a.before law (l.pc hi)).1
      exact counted_leave (b := { b₁ with cpu := { c with serialized := true } }) hcount
    · have hcount := a.behind_ok law (l.pc hi) hb hok hbefore
      exact counted_advance (b := { b₁ with cpu := c }) hcount hbefore hnext ha'
  -- the sentinels are odd, and the tag of a cached instruction is even
  | @linked entry hphase npc c next hatt a htag i hnext hne =>
    have hi : b.inner = true := inner_eq hphase
    have lc : c.Linked core.cfg := a.linked law l.cpu (l.pc hi)
    have heven : npc.getLsbD 0 = false :=
      lc.even (by rw [← hnext]; exact htag) (a.npc law (l.pc hi))
    have hbefore : npc ≠ pcSerializeBefore := by
      rintro rfl
      exact absurd heven (by decide)
    have hcount := a.behind_ok law (l.pc hi) (h.behind hi) (hmis (.refl b)) hbefore
    refine ⟨fun hi' => absurd (show true = false from hi') Bool.true_eq_false.mp, fun _ => ?_⟩
    refine hcount.congr ?_ (c.ledger_withHart _)
    rw [Cpu.hart_withHart]
  | @thrown hi b₁ t e c hatt a =>
    have hb := htested hi t
    have hok := hmis t
    exact counted_caught (b := { b₁ with cpu := c }) law (l.pc hi) hb hok a

theorem counted_between (hidle : b.phase = .idle) (h : Counted b) (op : LoopOp σ) :
    Counted (b.between core op) := by
  have hcount : b.cpu.hart.reg .minstret = b.cpu.ledger.count := by
    refine h.between ?_
    rw [inner, hidle]
    rfl
  have same {b' : Batch σ ι} (hphase : b'.phase.inner = false)
      (hcount' : b'.cpu.hart.reg .minstret = b'.cpu.ledger.count) : Counted b' :=
    ⟨fun _ => hcount', fun hi => Bool.noConfusion (hphase.symm.trans hi)⟩
  have hinner : b.phase.inner = false := by
    rw [hidle]
    rfl
  have hhart (f : Hart → Hart) (hf : (f b.cpu.hart).reg .minstret = b.cpu.hart.reg .minstret) :
      (b.cpu.withHart f).hart.reg .minstret = (b.cpu.withHart f).ledger.count := by
    rw [Cpu.hart_withHart, Cpu.ledger_withHart, hf]
    exact hcount
  cases op with
  | tick => exact h
  | call request n =>
    refine same rfl ?_
    have enter (cause : Reg) :=
      hhart (·.enterDebugMode core.cfg cause) (Hart.minstret_enterDebugMode cause)
    show (b.call core request n).cpu.hart.reg .minstret = (b.call core request n).cpu.ledger.count
    unfold call
    extract_lets enterDebug b₁
    show (Batch.cpu (if _ then _ else _)).hart.reg .minstret =
      (Batch.cpu (if _ then _ else _)).ledger.count
    split
    · exact hcount
    · cases request with
      | none =>
        dsimp only
        split
        · exact enter _
        · exact hcount
      | regular => exact enter _
      | group => exact enter _
  | timeSync mtime =>
    exact same hinner (hhart (·.timeSync mtime) ((Hart.regFrame_timeSync mtime).reg .minstret rfl))
  | pin p level => exact same hinner (hhart (fun h => h.writeWithMask .mip p.mask _) rfl)
  | others s => exact same hinner hcount
  | reset halt => exact same hinner rfl

/-- **`minstret` is exact** in every run whose rounds do not miscount: between two batches, and
for every instruction that gets to it. -/
theorem instret_exact (law : core.Lawful) (hfresh : b.Fresh core) (ops : List (LoopOp σ))
    (hops : Run.Along (play core) (fun b _ => b.miscounts core = false) b ops) :
    Run.Always (play core) (fun b => b.cpu.hart.aborted = false → b.Exact) b ops ∧
      Run.Along (play core) (fun b _ => b.cpu.hart.aborted = false → b.Current core) b ops := by
  have hstart : b.cpu.hart.aborted = false → b.Linked core.cfg ∧ b.Counted := fun _ =>
    ⟨hfresh.linked, fun _ => hfresh.count.symm,
      fun hi => Bool.noConfusion (hfresh.inner.symm.trans hi)⟩
  have hstep (b : Batch σ ι) (op : LoopOp σ)
      (hI : b.cpu.hart.aborted = false → b.Linked core.cfg ∧ b.Counted)
      (hok : b.miscounts core = false) :
      (b.play core op).cpu.hart.aborted = false →
        (b.play core op).Linked core.cfg ∧ (b.play core op).Counted := by
    refine play_alive (I := fun b => b.Linked core.cfg ∧ b.Counted) hI (fun h ha ha' => ?_)
      fun hidle h => ?_
    · exact ⟨linked_tick law h.1 ha ha', counted_tick law h.1 h.2 hok ha ha'⟩
    · exact ⟨linked_between hidle h.1 op, counted_between hidle h.2 op⟩
  exact ⟨Run.Always.of_step hstep (fun b hI ha => (hI ha).2.between) hstart hops,
    Run.Along.of_step hstep (fun b _ hI hok ha => (hI ha).2.current law hok) hstart hops⟩

end Batch

end Nnemu

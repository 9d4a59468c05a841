import Nnemu.Loop.Tally

/-!
# Count triggers along a run

In a tick that does not lose anything every counter tallies that should and no other, a trigger that
is due has its action taken, and no instruction begins before that. The invariant is that whatever
is to be counted is checked for, so that the fast path has nothing to count, and that an instruction
that has asked for serialization, and has been counted by then, is the next to run.

The ticks are taken by phase. On the fast path nothing is to be counted, by the invariant
(`Coherent`). On the slow path the count is taken before the instruction is attempted, and what
comes of the attempt decides whether it was right to count. A round that executes nothing is
described separately (`Refused`), since there every counter has to keep still.

From the tick follows the run: `counts_tally` says for every list of calls and of events between
them that each tick tallies, as long as none of them loses anything.
-/

namespace Nnemu

open Trigger

namespace Batch

open Nnemu.Core

variable {σ ι : Type} {core : Core σ ι} {b b' : Batch σ ι}

/-! ### Ticks by phase -/

/-- Outside the inner loops nothing is executed. -/
theorem attempt_head (core : Core σ ι) {b : Batch σ ι} (hi : b.inner = false) :
    b.attempt core = none := by
  rw [attempt]
  rw [inner] at hi
  cases hphase : b.phase with
  | slow =>
    rw [hphase] at hi
    cases hi
  | fast entry =>
    rw [hphase] at hi
    cases hi
  | _ => rfl

/-- The heads of the inner loops take no interrupt. -/
theorem interrupt_inner (core : Core σ ι) {b : Batch σ ι} (hi : b.inner = true) :
    b.interrupt core = none := by
  rw [interrupt]
  rw [inner] at hi
  cases hphase : b.phase with
  | head =>
    rw [hphase] at hi
    cases hi
  | _ => rfl

/-- Waking up does not concern the counts. -/
theorem tally_awake (b : Batch σ ι) (cfg : Config) : b.cpu.SameTally b.awake.cpu ∧
    b.cpu.Undisturbed b.awake.cpu ∧
    b.awake.cpu.hart.matchEnv cfg = b.cpu.hart.matchEnv cfg := by
  rw [awake]
  dsimp only
  split
  · exact ⟨.refl b.cpu, .refl b.cpu, rfl⟩
  · refine ⟨.withHart (fun h => { h with inWfi := false }) rfl,
      Cpu.Undisturbed.withHart (c := b.cpu) (f := fun h => { h with inWfi := false })
        (.inWfi _ _), ?_⟩
    rw [withHart, Cpu.hart_withHart]
    rfl

/-- **The outer loop.** -/
theorem tick_head (core : Core σ ι) {b : Batch σ ι} (hphase : b.phase = .head)
    (hn : b.n ≠ 0#64) (ha : b.cpu.hart.aborted = false) :
    (∃ t, b.interrupt core = some t ∧ b.cpu.hart.debugMode = false ∧
        b.tick core = (b.awake.countInterrupt core).catchTrap core t) ∨
      (b.interrupt core = none ∧
        ((∃ next, b.tick core = { b.awake with phase := next } ∧
            (next = .slow ∨ next = .fast none ∧ b.cpu.checkTriggersIcount = false)) ∨
          (b.tick core).cpu.hart.aborted = true)) := by
  have htick : b.tick core = b.enter core := by
    rw [tick, ha, if_neg Bool.false_ne_true, hphase]
    exact if_neg hn
  have hinterrupt {i : Hart.Interrupt}
    (htake : b.cpu.hart.takeInterrupt core.cfg b.cpu.hart.pendingInterrupts = i) :
      (∀ t, i = .throw t → b.interrupt core = some t) ∧
        ((∀ t, i ≠ .throw t) → b.interrupt core = none) := by
    rw [interrupt, hphase]
    dsimp only
    rw [if_neg hn, htake]
    cases i with
    | throw t => exact ⟨fun t' heq => (by cases heq; rfl), fun hne => absurd rfl (hne t)⟩
    | none => exact ⟨fun t' heq => (by cases heq), fun _ => rfl⟩
    | abort => exact ⟨fun t' heq => (by cases heq), fun _ => rfl⟩
  rw [htick, enter]
  dsimp only
  cases htake : b.cpu.hart.takeInterrupt core.cfg b.cpu.hart.pendingInterrupts with
  | throw t => exact .inl ⟨t, (hinterrupt htake).1 t rfl, (Hart.of_takeInterrupt htake).1, rfl⟩
  | none =>
    refine .inr ⟨(hinterrupt htake).2 fun t heq => (by cases heq), .inl ?_⟩
    refine ⟨if b.awake.cpu.slowPath core then .slow else .fast none, rfl, ?_⟩
    cases hslow : b.awake.cpu.slowPath core with
    | true => exact .inl rfl
    | false =>
      rw [Cpu.slowPath, Bool.or_eq_false_iff] at hslow
      exact .inr ⟨rfl, (tally_awake b core.cfg).1.checkTriggersIcount.symm.trans hslow.2⟩
  | abort =>
    refine .inr ⟨(hinterrupt htake).2 fun t heq => (by cases heq), .inr ?_⟩
    dsimp only
    rw [withHart, Cpu.hart_withHart]
    rfl

/-- **Interrupts** let the counts go on. -/
theorem countInterrupt_tally (core : Core σ ι) (b : Batch σ ι) (hd : b.cpu.hart.debugMode = false) :
    (b.countInterrupt core).cpu.hart.triggers.counters =
        (if b.cpu.checkTriggersIcount then Triggers.tallied (b.cpu.hart.matchEnv core.cfg)
          b.cpu.hart.triggers.counters
        else b.cpu.hart.triggers.counters) ∧
      (b.countInterrupt core).cpu.checkTriggersIcount = b.cpu.checkTriggersIcount ∧
      (b.countInterrupt core).cpu.serialized = b.cpu.serialized := by
  rw [countInterrupt]
  cases hflag : b.cpu.checkTriggersIcount with
  | false => exact ⟨rfl, hflag, rfl⟩
  | true =>
    have hdebug : (b.cpu.hart.matchEnv core.cfg).debugMode = false := hd
    rw [if_pos rfl, if_pos rfl, withHart, Cpu.hart_withHart, Cpu.checkTriggersIcount_withHart,
      Cpu.serialized_withHart]
    refine ⟨?_, hflag, rfl⟩
    dsimp only
    rw [Triggers.counters_detectIcountMatch, hdebug, if_neg Bool.false_ne_true]

/-! ### The invariant -/

/-- What is to be counted is checked for, so that the fast path has nothing to count. What has asked
for serialization goes on in the same call. -/
structure Coherent (cfg : Config) (b : Batch σ ι) : Prop where
  checked : b.needed = true → b.cpu.checkTriggersIcount = true
  fast : ∀ {entry}, b.phase = .fast entry → b.cpu.checkTriggersIcount = false
  again : b.needed = true → b.cpu.serialized = true → b.phase = .slow ∨ b.phase = .head ∧ b.n ≠ 0#64
  room : b.inner = true → b.instret.toNat < b.n.toNat
  linked : b.Linked cfg

theorem needed_eq (b : Batch σ ι) :
    b.needed = b.cpu.hart.triggers.counters.any fun c => c.any icountCheckNeeded :=
  Triggers.any_icountCheckNeeded _

theorem needed_of_sameCounters {c : Cpu σ ι} (s : b.cpu.SameCounters c) :
    c.hart.triggers.any icountCheckNeeded = b.needed := by
  rw [needed_eq, ← s.counters, Triggers.any_icountCheckNeeded]

/-- Counting leaves nothing to be counted where there was nothing. -/
theorem needed_of_talliedCounters (core : Core σ ι) (b : Batch σ ι) {c : Cpu σ ι}
    (hc : c.hart.triggers.counters = b.talliedCounters core)
    (h : c.hart.triggers.any icountCheckNeeded = true) :
    b.needed = true := by
  rw [Triggers.any_icountCheckNeeded, hc, talliedCounters] at h
  rw [needed_eq]
  split at h
  · exact Triggers.needed_of_tallied h
  · exact h

/-- A count that goes on, and a trigger that is due, is to be checked for. -/
theorem needed_of_counts (h : b.counts core = true) : b.needed = true ∧
    b.cpu.hart.debugMode = false := by
  rw [counts, Bool.and_eq_true, Bool.not_eq_true'] at h
  refine ⟨?_, h.1⟩
  obtain ⟨t, ht, hcounting⟩ := List.any_eq_true.1 h.2
  exact List.any_eq_true.2 ⟨t, ht, t.needed_of_isCounting hcounting⟩

theorem needed_of_dues (h : b.dues core ≠ []) : b.needed = true ∧ b.cpu.hart.debugMode = false := by
  rw [dues] at h
  cases hd : b.cpu.hart.debugMode with
  | true =>
    rw [hd, if_pos rfl] at h
    exact absurd rfl h
  | false =>
    rw [hd, if_neg Bool.false_ne_true] at h
    obtain ⟨t, ht⟩ := List.exists_mem_of_ne_nil _ h
    obtain ⟨hmem, hdue⟩ := List.mem_filter.1 ht
    exact ⟨List.any_eq_true.2 ⟨t, hmem, t.needed_of_isDue hdue⟩, rfl⟩

/-! ### Behind an instruction -/

/-- Has the instruction asked for serialization? -/
def asks : EStateM.Result Thrown (Cpu σ ι) Reg → Bool
  | .ok npc _ => npc == pcSerializeBefore
  | .error _ _ => false

/-- What the loop makes of the outcome of an instruction. -/
structure Outcome (b : Batch σ ι) (r : EStateM.Result Thrown (Cpu σ ι) Reg) (b' : Batch σ ι) :
    Prop where
  same : (Exec.final r).SameCounters b'.cpu
  serialized : b'.cpu.serialized = (asks r || (Exec.final r).serialized)
  asked : asks r = true → b'.phase = .head ∧ b'.n ≠ 0#64
  phase : b'.phase = .head ∨
    (b'.instret.toNat < b'.n.toNat ∧ ((b.phase = .slow ∧ b'.phase = .slow) ∨
    ∃ entry npc c, b.phase = .fast entry ∧ r = .ok npc c ∧ npc ≠ pcSerializeAfter))

theorem Outcome.of_caught (core : Core σ ι) (b : Batch σ ι) (e : Thrown) (c : Cpu σ ι) :
    Outcome b (.error e c) (caught core { b with cpu := c } e) := by
  have s := tally_caught core { b with cpu := c } e
  exact ⟨s.toSameCounters, s.serialized, fun h => (by cases h),
    .inl (phase_caught core { b with cpu := c } e)⟩

theorem Outcome.of_advance {b : Batch σ ι} (hroom : b.instret.toNat < b.n.toNat)
    {npc : Reg} {c : Cpu σ ι} {next : Phase ι}
    (hnext : (b.phase = .slow ∧ next = .slow) ∨ ∃ entry, b.phase = .fast entry)
    (ha : (advance { b with cpu := c } npc next).cpu.hart.aborted = false) :
    Outcome b (.ok npc c) (advance { b with cpu := c } npc next) := by
  by_cases hbefore : npc = pcSerializeBefore
  · subst hbefore
    have hleave : advance { b with cpu := c } pcSerializeBefore next =
        leave { b with cpu := { c with serialized := true } } := by
      rw [advance, if_pos (by decide), if_pos rfl]
    rw [hleave]
    have s : ({ c with serialized := true } : Cpu σ ι).SameTally
        (leave { b with cpu := { c with serialized := true } }).cpu := tally_leave (.refl _)
    refine ⟨⟨s.counters, s.checkTriggersIcount⟩, s.serialized, fun _ => ⟨rfl, fun hzero => ?_⟩,
      .inl rfl⟩
    have hsub : b.n - b.instret = 0#64 := hzero
    have hle := congrArg BitVec.toNat hsub
    rw [BitVec.toNat_sub_of_le (Nat.le_of_lt hroom)] at hle
    have hpos : b.n.toNat - b.instret.toNat = 0 := hle
    omega
  · have s := tally_advance { b with cpu := c } hbefore next
    have hasks : asks (.ok npc c : EStateM.Result Thrown (Cpu σ ι) Reg) = false :=
      beq_false_of_ne hbefore
    refine ⟨s.toSameCounters, ?_, fun h => ?_, ?_⟩
    · rw [hasks, Bool.false_or]
      exact s.serialized
    · rw [hasks] at h
      cases h
    · rw [advance, if_neg hbefore] at ha ⊢
      split
      · rename_i hinvalid
        rw [if_pos hinvalid] at ha
        split
        · exact .inl rfl
        · rename_i hafter
          rw [if_neg hafter, withHart, Cpu.hart_withHart] at ha
          cases ha
      · rename_i hvalid
        have hafter : npc ≠ pcSerializeAfter := by
          rintro rfl
          exact hvalid (by decide)
        dsimp only
        split
        · rename_i hlt
          refine .inr ⟨hlt, ?_⟩
          obtain ⟨hphase, rfl⟩ | ⟨entry, hphase⟩ := hnext
          · exact .inl ⟨hphase, rfl⟩
          · exact .inr ⟨entry, npc, c, hphase, rfl, hafter⟩
        · exact .inl rfl

/-- **One instruction on the slow path.** -/
theorem outcome_slow (h : Coherent core.cfg b) (hphase : b.phase = .slow)
    (ha : b.cpu.hart.aborted = false)
    (ha' : (b.tick core).cpu.hart.aborted = false) {b₁ : Batch σ ι}
    (htests : b.slowTests core = (b₁, .execute)) :
    b.attempt core = some (b₁.cpu, b₁.slowAttempt core b₁.cpu) ∧
      Outcome b (b₁.slowAttempt core b₁.cpu) (b.tick core) := by
  obtain ⟨t, -⟩ := slowTests_spec core b
  rw [htests] at t
  have hsame (c : Cpu σ ι) : { b₁ with cpu := c } = { b with cpu := c } := by
    obtain ⟨hn, hinstret, hpc, hphase, -⟩ := t
    cases b₁
    cases hn
    cases hinstret
    cases hpc
    cases hphase
    rfl
  have hroom : b.instret.toNat < b.n.toNat := h.room (inner_eq hphase)
  have htick : b.tick core = b₁.slowExecute core := by
    rw [tick, ha, if_neg Bool.false_ne_true, hphase]
    dsimp only
    rw [slow, htests]
  rw [htick, slowExecute] at ha' ⊢
  refine ⟨?_, ?_⟩
  · rw [attempt, hphase]
    dsimp only
    rw [htests]
  · cases hr : b₁.slowAttempt core b₁.cpu with
    | ok npc c =>
      rw [hr] at ha'
      dsimp only at ha' ⊢
      rw [hsame] at ha' ⊢
      exact .of_advance hroom (.inl ⟨hphase, rfl⟩) ha'
    | error e c =>
      dsimp only
      rw [hsame]
      exact .of_caught core b e c

/-- **One instruction on the fast path.** -/
theorem outcome_fast (law : core.Lawful) (h : Coherent core.cfg b) {entry : Option (IcacheEntry ι)}
    (hphase : b.phase = .fast entry)
    (ha : b.cpu.hart.aborted = false) (ha' : (b.tick core).cpu.hart.aborted = false) :
    b.attempt core = some (b.cpu, handlerResult (b.fastAttempt core entry b.cpu)) ∧
      Outcome b (handlerResult (b.fastAttempt core entry b.cpu)) (b.tick core) := by
  have hi : b.inner = true := inner_eq hphase
  have htick : b.tick core = b.fast core entry := by
    rw [tick, ha, if_neg Bool.false_ne_true, hphase]
  have a := attempt_fast core b entry b.cpu
  rw [htick, fast] at ha' ⊢
  refine ⟨by rw [attempt, hphase], ?_⟩
  cases hr : b.fastAttempt core entry b.cpu with
  | error e c => exact .of_caught core b e c
  | ok result c =>
    obtain ⟨found, npc⟩ := result
    rw [hr] at a ha'
    dsimp only at ha' ⊢
    by_cases hlinked : (c.icache found.next).tag = npc ∧ b.instret + 1#64 ≠ b.n
    · rw [if_pos hlinked]
      -- the tags of the cache are even, so this is no sentinel
      have lc : c.Linked core.cfg := a.linked law h.linked.cpu (h.linked.pc hi)
      have heven : npc.getLsbD 0 = false := lc.even hlinked.1 (a.npc law (h.linked.pc hi))
      have hbefore : npc ≠ pcSerializeBefore := by
        rintro rfl
        exact absurd heven (by decide)
      have hafter : npc ≠ pcSerializeAfter := by
        rintro rfl
        exact absurd heven (by decide)
      have s : c.SameTally (c.withHart fun h => { h with pc := npc }) :=
        .withHart (fun h => { h with pc := npc }) rfl
      have hasks : asks (.ok npc c : EStateM.Result Thrown (Cpu σ ι) Reg) = false :=
        beq_false_of_ne hbefore
      refine ⟨s.toSameCounters, ?_, fun h => ?_,
        .inr ⟨?_, .inr ⟨entry, npc, c, hphase, rfl, hafter⟩⟩⟩
      · rw [handlerResult, hasks, Bool.false_or]
        exact s.serialized
      · rw [handlerResult, hasks] at h
        cases h
      · have hroom := h.room hi
        have hlt := b.n.isLt
        have hplus : (b.instret + 1#64).toNat = b.instret.toNat + 1 := by
          rw [BitVec.toNat_add, BitVec.toNat_ofNat]
          omega
        have hne : b.instret.toNat + 1 ≠ b.n.toNat := by
          rw [← hplus]
          exact fun heq => hlinked.2 (BitVec.eq_of_toNat_eq heq)
        show (b.instret + 1#64).toNat < b.n.toNat
        omega
    · rw [if_neg hlinked] at ha' ⊢
      exact .of_advance (h.room hi) (.inr ⟨entry, hphase⟩) ha'

/-- **The invariant** behind an instruction. -/
theorem Outcome.coherent (law : core.Lawful) (h : Coherent core.cfg b)
    (heven : b.pc.getLsbD 0 = false) {c : Cpu σ ι} {d : Option (ι × Cpu σ ι)}
    {r : EStateM.Result Thrown (Cpu σ ι) Reg} (a : Attempt core b.pc c d r)
    (hcounters : c.hart.triggers.counters = b.talliedCounters core)
    (hflag : c.checkTriggersIcount = b.cpu.checkTriggersIcount)
    (hstale : b.needed = true → (Exec.final r).serialized = false) (o : Outcome b r b')
    (l : b'.Linked core.cfg) : Coherent core.cfg b' where
  checked hneeded := by
    have hneeded : b'.cpu.hart.triggers.any icountCheckNeeded = true := hneeded
    obtain s | ⟨c', hr, hwritten, -⟩ := a.counters law heven
    · rw [Triggers.any_icountCheckNeeded, o.same.counters, s.counters,
        ← Triggers.any_icountCheckNeeded] at hneeded
      rw [o.same.checkTriggersIcount, s.checkTriggersIcount, hflag]
      exact h.checked (needed_of_talliedCounters core b hcounters hneeded)
    · have hfinal : Exec.final r = c' := by
        obtain rfl | ⟨t, rfl⟩ := hr
        · rfl
        · rfl
      rw [Triggers.any_icountCheckNeeded, o.same.counters, ← Triggers.any_icountCheckNeeded,
        hfinal] at hneeded
      rw [o.same.checkTriggersIcount, hfinal]
      exact hwritten.trans hneeded
  fast {entry'} hphase := by
    obtain hhead | ⟨-, ⟨-, hslow⟩ | ⟨entry, npc, c', hfast, rfl, hafter⟩⟩ := o.phase
    · rw [hhead] at hphase
      cases hphase
    · rw [hslow] at hphase
      cases hphase
    · obtain s | ⟨c'', heq | ⟨t, heq⟩, -⟩ := a.counters law heven
      · rw [o.same.checkTriggersIcount, s.checkTriggersIcount, hflag]
        exact h.fast hfast
      · cases heq
        exact absurd rfl hafter
      · cases heq
  again hneeded hs := by
    have hneeded : b'.cpu.hart.triggers.any icountCheckNeeded = true := hneeded
    rw [o.serialized, Bool.or_eq_true] at hs
    obtain hasks | hs := hs
    · exact .inr (o.asked hasks)
    · obtain s | ⟨c', hr, -, hserialized⟩ := a.counters law heven
      · rw [Triggers.any_icountCheckNeeded, o.same.counters, s.counters,
          ← Triggers.any_icountCheckNeeded] at hneeded
        rw [hstale (needed_of_talliedCounters core b hcounters hneeded)] at hs
        cases hs
      · have hs : c'.serialized = true := by
          obtain rfl | ⟨t, rfl⟩ := hr
          · exact hs
          · exact hs
        rw [hserialized] at hs
        cases hs
  room hi := by
    obtain hhead | ⟨hroom, -⟩ := o.phase
    · rw [inner, hhead] at hi
      cases hi
    · exact hroom
  linked := l

/-- **One instruction** that has been counted retires or ends in a trap, or asks for
serialization. -/
theorem finishes_of_counted (law : core.Lawful) (heven : b.pc.getLsbD 0 = false) {c : Cpu σ ι}
    {d : Option (ι × Cpu σ ι)} {r : EStateM.Result Thrown (Cpu σ ι) Reg}
    (a : Attempt core b.pc c d r) (hserial : c.serialized = b.cpu.serialized)
    (hhalts : halts r = false) (hfinal : (Exec.final r).serialized = false) (o : Outcome b r b') :
    1 = (finishes r).toNat + b'.cpu.serialized.toNat ∧
      (b.cpu.serialized = true → b'.cpu.serialized = false) := by
  rw [o.serialized, hfinal, Bool.or_false]
  refine ⟨?_, fun hs => ?_⟩
  · cases r with
    | ok npc c' =>
      rw [finishes, asks, bne]
      cases npc == pcSerializeBefore <;> rfl
    | error e c' =>
      cases e with
      | trap t => rfl
      | waitForInterrupt => rfl
      | debugMode => cases hhalts
      | matched m =>
        rw [halts, bne, Bool.not_eq_false'] at hhalts
        rw [finishes, hhalts]
        rfl
  · cases r with
    | error e c' => rfl
    | ok npc c' =>
      refine beq_false_of_ne ?_
      rintro rfl
      obtain ⟨-, hfalse⟩ := a.before law heven
      rw [hserial, hs] at hfalse
      cases hfalse

/-- A request for serialization that does not go beyond its instruction is not there behind it. -/
theorem serialized_of_outlives (law : core.Lawful) (hi : b.inner = true)
    (heven : b.pc.getLsbD 0 = false) {c : Cpu σ ι} {r : EStateM.Result Thrown (Cpu σ ι) Reg}
    (a : Attempt core b.pc c (b.fetched core) r) (hserial : c.serialized = b.cpu.serialized)
    (hok : b.outlives core = false) : (Exec.final r).serialized = false := by
  rw [a.serialized law heven, hserial]
  cases hs : b.cpu.serialized with
  | false => rfl
  | true =>
    rw [outlives, hs, hi, Bool.true_and, Bool.true_and, Bool.or_eq_false_iff] at hok
    rw [Bool.true_and]
    exact hok.2

/-! ### Second traps -/

/-- What the loop finds behind a trap is there before it. -/
theorem retraps_eq {h : Hart} (q : h.Quiet b.cpu.hart)
    (htraps : b.cpu.hart.triggers.trapTriggers = h.triggers.trapTriggers)
    {counters : List (Option Trigger)} (hcounters : b.cpu.hart.triggers.counters = counters)
    (t : Trap) : b.retraps core t = breaks core h counters t := by
  have same : Hart.SameDebug b.cpu.hart (b.trapped core t) := .takeTrap b.cpu.hart t b.pc
  have hdebug : (b.trapped core t).debugMode = h.debugMode := same.debugMode.trans q.debugMode
  rw [retraps, breaks, trapMatch, ← hcounters, ← Triggers.any_isCounting,
    ← Triggers.breaksAgain_congr htraps]
  cases hd : h.debugMode with
  | true =>
    -- nothing matches in debug mode
    have hnone : ((b.trapped core t).triggers.detectTrapMatch
        ((b.trapped core t).matchEnv core.cfg) t.cause).2 = none := by
      have henv : ((b.trapped core t).matchEnv core.cfg).debugMode = true := hdebug.trans hd
      rw [Triggers.detectTrapMatch, henv]
      rfl
    rw [hnone]
    rfl
  | false =>
    have henv : (b.trapped core t).matchEnv core.cfg = h.trapEnv core.cfg t := by
      rw [trapped, Hart.matchEnv_takeTrap (q.debugMode.trans hd), q.trapEnv]
    have houtside : ((b.trapped core t).matchEnv core.cfg).debugMode = false := hdebug.trans hd
    rw [Triggers.any_detectTrapMatch houtside, henv, same.triggers]
    rfl

/-- **The trap of an instruction** is the only one. -/
theorem once_of_attempt (law : core.Lawful) (l : b.Linked core.cfg)
    (hok : b.undercounts core = false) {c : Cpu σ ι} {r : EStateM.Result Thrown (Cpu σ ι) Reg}
    (hatt : b.attempt core = some (c, r))
    (hcounters : c.hart.triggers.counters = b.talliedCounters core) :
    b.retrapped core = false := by
  obtain ⟨hi, b₁, t, rfl, a⟩ := attempt_cases hatt
  rw [undercounts, interrupt_inner core hi, hatt] at hok
  rw [retrapped, interrupt_inner core hi, hatt]
  cases r with
  | ok npc c' => rfl
  | error e c' =>
    cases e with
    | trap trap =>
      obtain ⟨q, hts, -, hnone⟩ | hsome := a.trap law (l.pc hi)
      · dsimp only at hok ⊢
        rw [hnone] at hok
        have htraps : c'.hart.triggers.trapTriggers = b.cpu.hart.triggers.trapTriggers :=
          (Triggers.trapTriggers_of_eraseHit hts).trans t.trapTriggers
        rw [retraps_eq (b := { b with cpu := c' }) (t.undisturbed.hart.trans q) htraps
          ((Triggers.counters_of_eraseHit hts).trans hcounters)]
        exact hok
      · dsimp only at hok ⊢
        rw [hsome] at hok
        rw [retraps_eq (b := { b with cpu := c' }) (.refl c'.hart) rfl rfl]
        exact hok
    | _ => rfl

/-- Where no instruction is attempted and no interrupt is taken there is no trap. -/
theorem once_of_none (hatt : b.attempt core = none) (hinterrupt : b.interrupt core = none) :
    b.retrapped core = false := by
  rw [retrapped, hinterrupt, hatt]

/-! ### Ticks -/

/-- Where nothing is to be counted, a tick has nothing to do but to leave the counters alone. -/
theorem Tallied.of_unneeded (hneeded : b.needed = false) (honce : b.retrapped core = false)
    (htallies : b.tallies core = false)
    (hidle : b.attempt core = none →
      (b.tick core).cpu.hart.triggers.counters = b.cpu.hart.triggers.counters)
    (hran : ∀ {c r}, b.attempt core = some (c, r) →
      c.hart.triggers.counters = b.cpu.hart.triggers.counters ∧
        (b.tick core).cpu.hart.triggers.counters = (Exec.final r).hart.triggers.counters) :
    Tallied core b := by
  have hcounters : b.talliedCounters core = b.cpu.hart.triggers.counters := by
    rw [talliedCounters, htallies]
    rfl
  refine ⟨?_, ?_, fun h => ?_, honce, fun h => ?_, fun h => ?_, fun t _ h => ?_⟩
  · rw [hcounters]
    exact hidle
  · rw [hcounters]
    exact hran
  · rw [(needed_of_counts h).1] at hneeded
    cases hneeded
  · rw [h] at hneeded
    cases hneeded
  · rw [(needed_of_dues h).1] at hneeded
    cases hneeded
  · rw [htallies] at h
    cases h

/-- What does not go wrong. -/
theorem of_loses (h : b.loses core = false) : b.drops core = false ∧
    (b.needed = true → b.outlives core = false) ∧
    (b.counts core = true → b.overcounts core = false) ∧ b.undercounts core = false := by
  rw [loses, Bool.or_eq_false_iff, Bool.or_eq_false_iff, Bool.or_eq_false_iff] at h
  obtain ⟨⟨⟨hdrops, houtlives⟩, hover⟩, hunder⟩ := h
  refine ⟨hdrops, fun hn => ?_, fun hc => ?_, hunder⟩
  · rw [hn, Bool.true_and] at houtlives
    exact houtlives
  · rw [hc, Bool.true_and] at hover
    exact hover

/-- **A round of the fast loop** has nothing to count. -/
theorem tallied_fast (law : core.Lawful) (h : Coherent core.cfg b) (hok : b.loses core = false)
    {entry : Option (IcacheEntry ι)} (hphase : b.phase = .fast entry)
    (ha : b.cpu.hart.aborted = false) (ha' : (b.tick core).cpu.hart.aborted = false)
    (l : (b.tick core).Linked core.cfg) : Tallied core b ∧ Coherent core.cfg (b.tick core) := by
  have hi : b.inner = true := inner_eq hphase
  obtain ⟨hatt, o⟩ := outcome_fast law h hphase ha ha'
  have hneeded : b.needed = false := by
    cases hn : b.needed with
    | false => rfl
    | true =>
      have hflag := h.checked hn
      rw [h.fast hphase] at hflag
      cases hflag
  have htallies : b.tallies core = false := by
    rw [tallies, h.fast hphase, Bool.false_and, Bool.false_and]
  have hcounters : b.cpu.hart.triggers.counters = b.talliedCounters core := by
    rw [talliedCounters, htallies]
    rfl
  have honce : b.retrapped core = false :=
    once_of_attempt law h.linked (of_loses hok).2.2.2 hatt hcounters
  refine ⟨.of_unneeded hneeded honce htallies (fun hnone => ?_) (fun hsome => ?_),
    o.coherent law h (h.linked.pc hi) (attempt_fast core b entry b.cpu) hcounters rfl
      (fun hn => ?_) l⟩
  · rw [hatt] at hnone
    cases hnone
  · rw [hatt] at hsome
    cases hsome
    exact ⟨rfl, o.same.counters⟩
  · rw [hneeded] at hn
    cases hn

/-- When the slow loop lets the counts go on. -/
theorem tallies_slow (core : Core σ ι) (hphase : b.phase = .slow) :
    b.tallies core = (b.cpu.checkTriggersIcount && !b.cpu.hart.debugMode &&
      (!b.cpu.serialized && b.cpu.hart.singleStep != .stepped)) := by
  rw [tallies, hphase]

/-- The slow loop tests the counts of what does not run serialized. -/
theorem of_tallies_slow (hphase : b.phase = .slow) (h : b.tallies core = true) :
    b.cpu.checkTriggersIcount = true ∧ b.cpu.serialized = false := by
  rw [tallies_slow core hphase, Bool.and_eq_true, Bool.and_eq_true, Bool.and_eq_true,
    Bool.not_eq_true', Bool.not_eq_true'] at h
  exact ⟨h.1.1, h.2.1⟩

/-- The action that a round takes is that of its match. -/
theorem fired_matched (hphase : b.phase = .slow) {b₁ : Batch σ ι} {m : Matched}
    (htests : b.slowTests core = (b₁, .throw (.matched m))) : b.fired core = some m.action := by
  rw [fired, hphase]
  dsimp only
  rw [htests]

theorem fired_none (hphase : b.phase = .slow) {b₁ : Batch σ ι} {round : Round}
    (htests : b.slowTests core = (b₁, round)) (hround : ∀ m, round ≠ .throw (.matched m)) :
    b.fired core = none := by
  rw [fired, hphase]
  dsimp only
  rw [htests]
  cases round with
  | throw e =>
    cases e with
    | matched m => exact absurd rfl (hround m)
    | _ => rfl
  | _ => rfl

/-- **An instruction on the slow path.** -/
theorem tallied_execute (law : core.Lawful) (h : Coherent core.cfg b) (hok : b.loses core = false)
    (hphase : b.phase = .slow) (ha : b.cpu.hart.aborted = false)
    (ha' : (b.tick core).cpu.hart.aborted = false) (l : (b.tick core).Linked core.cfg)
    {b₁ : Batch σ ι} (htests : b.slowTests core = (b₁, .execute)) :
    Tallied core b ∧ Coherent core.cfg (b.tick core) := by
  have hi : b.inner = true := inner_eq hphase
  have heven := h.linked.pc hi
  obtain ⟨hatt, o⟩ := outcome_slow h hphase ha ha' htests
  obtain ⟨-, b₂, t, hsame, a⟩ := attempt_cases hatt
  have hserial : b₁.cpu.serialized = b.cpu.serialized := hsame ▸ t.undisturbed.serialized
  have d := slowTests_decides core b hphase
  rw [htests] at d
  obtain ⟨-, houtlives, hover, hunder⟩ := of_loses hok
  have hstale (hn : b.needed = true) :
      (Exec.final (b₁.slowAttempt core b₁.cpu)).serialized = false :=
    serialized_of_outlives law hi heven a hserial (houtlives hn)
  have hfinish (hn : b.needed = true) (hhalts : halts (b₁.slowAttempt core b₁.cpu) = false) :=
    finishes_of_counted law heven a hserial hhalts (hstale hn) o
  refine ⟨⟨fun hnone => ?_, fun hsome => ?_, fun hcounts => ?_,
    once_of_attempt law h.linked hunder hatt d.counters, fun hn hs => ?_, fun hdues hs => ?_,
    fun t ht htrue => ?_⟩, o.coherent law h heven a d.counters d.checkTriggersIcount hstale l⟩
  · rw [hatt] at hnone
    cases hnone
  · rw [hatt] at hsome
    cases hsome
    exact ⟨d.counters, o.same.counters⟩
  · obtain ⟨hn, hd⟩ := needed_of_counts hcounts
    have hhalts := hover hcounts
    rw [overcounts, hatt] at hhalts
    obtain ⟨hone, -⟩ := hfinish hn hhalts
    rw [completes, hatt]
    dsimp only
    rw [← hone]
    cases hs : b.cpu.serialized with
    | false =>
      rw [(d.passes (.inl rfl) hs (h.checked hn)).2 hd]
      rfl
    | true =>
      rw [tallies_slow core hphase, hs]
      simp
  · rw [hatt]
    dsimp only
    cases hhalts : halts (b₁.slowAttempt core b₁.cpu) with
    | false => exact (hfinish hn hhalts).2 hs
    | true =>
      have hasks : asks (b₁.slowAttempt core b₁.cpu) = false := by
        cases hr : b₁.slowAttempt core b₁.cpu with
        | ok npc c =>
          rw [hr] at hhalts
          cases hhalts
        | error e c => rfl
      rw [o.serialized, hasks, hstale hn]
      rfl
  · exact absurd (d.passes (.inl rfl) hs (h.checked (needed_of_dues hdues).1)).1 hdues
  · obtain ⟨hflag, hs⟩ := of_tallies_slow hphase htrue
    rw [(d.passes (.inl rfl) hs hflag).1] at ht
    exact absurd ht List.not_mem_nil

/-- What keeps to the counters on the way to the head of the outer loop keeps the invariant. -/
theorem Coherent.of_head (h : Coherent core.cfg b) (hphase : b'.phase = .head)
    (hcounters : b'.cpu.hart.triggers.counters = b.talliedCounters core)
    (hflag : b'.cpu.checkTriggersIcount = b.cpu.checkTriggersIcount)
    (hserial : b.needed = true → b'.cpu.serialized = false) (l : b'.Linked core.cfg) :
    Coherent core.cfg b' where
  checked hn := hflag.trans (h.checked (needed_of_talliedCounters core b hcounters hn))
  fast hfast := by
    rw [hphase] at hfast
    cases hfast
  again hn hs := by
    rw [hserial (needed_of_talliedCounters core b hcounters hn)] at hs
    cases hs
  room hi := by
    rw [inner, hphase] at hi
    cases hi
  linked := l

/-! ### Rounds that execute nothing -/

/-- A round of the slow loop that executes nothing goes back to the head of the outer loop. -/
structure Refused (core : Core σ ι) (b b₁ : Batch σ ι) (round : Round) : Prop where
  phase : b.phase = .slow
  tests : b.slowTests core = (b₁, round)
  attempt : b.attempt core = none
  decides : Decides core b (b.tallies core) (b₁, round)
  tested : Tested b b₁
  same : b₁.cpu.SameTally (b.tick core).cpu
  head : (b.tick core).phase = .head

namespace Refused

variable {b₁ : Batch σ ι} {round : Round}

theorem completes (f : Refused core b b₁ round) :
    b.completes core = (b.fired core == some .debugException) := by
  rw [Batch.completes, f.attempt, interrupt_inner core (inner_eq f.phase)]
  rfl

/-- In whatever way the round ends, the counters are those behind the tests. -/
theorem tallied (f : Refused core b b₁ round) (h : Coherent core.cfg b)
    (l : (b.tick core).Linked core.cfg) (hserial : b.needed = true → b.cpu.serialized = false)
    (hexact : b.counts core = true → b.cpu.serialized = false →
      b.tallies core = b.completes core)
    (hfires : ∀ t ∈ b.dues core, b.tallies core = true →
      ∃ b₁, Tested b b₁ ∧ b.tick core = b₁.catchMatched core ⟨.execute, 0#64, t.getAction⟩) :
    Tallied core b ∧ Coherent core.cfg (b.tick core) := by
  have hcounters : (b.tick core).cpu.hart.triggers.counters = b.talliedCounters core :=
    f.same.counters.trans f.decides.counters
  have hkeep : (b.tick core).cpu.serialized = b.cpu.serialized :=
    f.same.serialized.trans f.tested.undisturbed.serialized
  refine ⟨⟨fun _ => hcounters, fun hsome => ?_, fun hcounts => ?_,
    once_of_none f.attempt (interrupt_inner core (inner_eq f.phase)), fun hn hs => ?_,
    fun _ _ => f.attempt, hfires⟩,
    h.of_head f.head hcounters (f.same.checkTriggersIcount.trans f.decides.checkTriggersIcount)
      (fun hn => hkeep.trans (hserial hn)) l⟩
  · rw [f.attempt] at hsome
    cases hsome
  · have hs := hserial (needed_of_counts hcounts).1
    rw [hkeep, hexact hcounts hs]
  · rw [hserial hn] at hs
    cases hs

/-- The single step is over. -/
theorem stepped (f : Refused core b b₁ .stepped) (h : Coherent core.cfg b)
    (hs : b.cpu.serialized = false) (l : (b.tick core).Linked core.cfg) :
    Tallied core b ∧ Coherent core.cfg (b.tick core) := by
  have hfalse := f.decides.steps rfl
  refine f.tallied h l (fun _ => hs) (fun _ _ => ?_) fun t ht htrue => ?_
  · rw [hfalse, f.completes, fired_none f.phase f.tests fun m heq => by cases heq]
    rfl
  · rw [hfalse] at htrue
    cases htrue

/-- A count has run out, and the action of its trigger is taken. -/
theorem fired {m : Matched} (f : Refused core b b₁ (.throw (.matched m)))
    (h : Coherent core.cfg b) (hok : b.loses core = false) (hs : b.cpu.serialized = false)
    (htick : b.tick core = b₁.catchMatched core m) (l : (b.tick core).Linked core.cfg) :
    Tallied core b ∧ Coherent core.cfg (b.tick core) := by
  obtain ⟨hdrops, -, hover, -⟩ := of_loses hok
  obtain ⟨htrue, haction⟩ := f.decides.fires rfl
  have hfired := fired_matched f.phase f.tests
  refine f.tallied h l (fun _ => hs) (fun hcounts _ => ?_) fun t ht _ => ⟨b₁, f.tested, ?_⟩
  · have hexception := hover hcounts
    rw [overcounts, f.attempt, hfired] at hexception
    have haction : (m.action != .debugException) = false := by
      rw [Bool.or_eq_false_iff] at hexception
      exact hexception.2
    rw [bne_eq_false_iff_eq] at haction
    rw [htrue, f.completes, hfired, haction]
    rfl
  · rw [drops, htrue, Bool.true_and, Bool.or_eq_false_iff] at hdrops
    rw [htick, ← haction t ht hdrops.2]

/-- The hart waits. -/
theorem waiting (f : Refused core b b₁ (.throw .waitForInterrupt)) (h : Coherent core.cfg b)
    (hok : b.loses core = false) (l : (b.tick core).Linked core.cfg) :
    Tallied core b ∧ Coherent core.cfg (b.tick core) := by
  obtain ⟨-, houtlives, hover, -⟩ := of_loses hok
  have hi : b.inner = true := inner_eq f.phase
  have hwaits : b.waits core = true := waits_of_slowTests f.phase f.tests
  have hfetched : b.fetched core = none := by
    rw [fetched, f.phase]
    dsimp only
    rw [f.tests]
  have hserial (hn : b.needed = true) : b.cpu.serialized = false := by
    cases hs : b.cpu.serialized with
    | false => rfl
    | true =>
      have hout := houtlives hn
      rw [outlives, hs, hi, hfetched, Option.any_none, Bool.or_comm] at hout
      cases hout
  refine f.tallied h l hserial (fun hcounts hs => ?_) fun t ht htrue => ?_
  · have hwait := hover hcounts
    rw [overcounts, f.attempt, hwaits, hs] at hwait
    cases hwait
  · obtain ⟨hflag, hs⟩ := of_tallies_slow f.phase htrue
    rw [(f.decides.passes (.inr rfl) hs hflag).1] at ht
    exact absurd ht List.not_mem_nil

end Refused

/-- **A round of the slow loop that executes nothing.** -/
theorem tallied_refused (h : Coherent core.cfg b) (hok : b.loses core = false)
    (hphase : b.phase = .slow) (ha : b.cpu.hart.aborted = false)
    (l : (b.tick core).Linked core.cfg) {b₁ : Batch σ ι} {round : Round}
    (htests : b.slowTests core = (b₁, round)) (hround : round ≠ .execute) :
    Tallied core b ∧ Coherent core.cfg (b.tick core) := by
  obtain ⟨t, refuses⟩ := slowTests_spec core b
  have d := slowTests_decides core b hphase
  rw [htests] at t d refuses
  have hatt : b.attempt core = none := by
    rw [attempt, hphase]
    dsimp only
    rw [htests]
    cases round with
    | execute => exact absurd rfl hround
    | _ => rfl
  have htick : b.tick core = b.slow core := by
    rw [tick, ha, if_neg Bool.false_ne_true, hphase]
  rw [slow, htests] at htick
  cases round with
  | execute => exact absurd rfl hround
  | stepped =>
    have f : Refused core b b₁ .stepped :=
      ⟨hphase, htests, hatt, d, t, htick ▸ tally_enterDebugMode core b₁ dcsrCauseStep,
        by rw [htick]; rfl⟩
    exact f.stepped h refuses.1 l
  | throw e =>
    have f : Refused core b b₁ (.throw e) :=
      ⟨hphase, htests, hatt, d, t, htick ▸ tally_caught core b₁ e,
        by rw [htick]; exact phase_caught core b₁ e⟩
    obtain ⟨m, rfl, hs, -⟩ | ⟨rfl, -⟩ := refuses
    · exact f.fired h hok hs htick l
    · exact f.waiting h hok l

/-- Outside the inner loops the slow path decides nothing. -/
theorem fired_head {b : Batch σ ι} (hi : b.inner = false) :
    b.fired core = none ∧ b.waits core = false := by
  rw [fired, waits]
  rw [inner] at hi
  cases hphase : b.phase with
  | slow =>
    rw [hphase] at hi
    cases hi
  | _ => exact ⟨rfl, rfl⟩

/-- **A tick that does nothing yet** leaves the counts alone. -/
theorem tallied_still (hi : b.inner = false) (hinterrupt : b.interrupt core = none)
    (s : b.cpu.SameTally (b.tick core).cpu)
    (hagain : b.needed = true → b.cpu.serialized = true →
      b.cpu.Undisturbed (b.tick core).cpu ∧ (b.tick core).phase = .slow) : Tallied core b := by
  have hatt := attempt_head core hi
  have htallies : b.tallies core = false := by
    rw [tallies, hinterrupt]
    rw [inner] at hi
    cases hphase : b.phase with
    | slow =>
      rw [hphase] at hi
      cases hi
    | _ => exact Bool.and_false _
  refine ⟨fun _ => ?_, fun hsome => ?_, fun _ => ?_, once_of_none hatt hinterrupt, ?_,
    fun _ _ => hatt, fun t _ htrue => ?_⟩
  · rw [talliedCounters, htallies]
    exact s.counters
  · rw [hatt] at hsome
    cases hsome
  · rw [htallies, completes, hatt, hinterrupt, (fired_head hi).1, s.serialized]
    rfl
  · rw [hatt]
    exact hagain
  · rw [htallies] at htrue
    cases htrue

/-- **The trap of an interrupt** is the only one. -/
theorem once_of_interrupt (hok : b.undercounts core = false) {t : Trap}
    (hinterrupt : b.interrupt core = some t)
    (hcounters : (b.awake.countInterrupt core).cpu.hart.triggers.counters =
      b.talliedCounters core) :
    b.retrapped core = false := by
  obtain ⟨-, u, -⟩ := tally_awake b core.cfg
  have count := tested_countInterrupt core b.awake
  have htraps : b.awake.cpu.hart.triggers.trapTriggers = b.cpu.hart.triggers.trapTriggers := by
    rw [awake]
    dsimp only
    split
    · rfl
    · rw [withHart, Cpu.hart_withHart]
  rw [undercounts, hinterrupt] at hok
  rw [retrapped, hinterrupt]
  dsimp only at hok ⊢
  rw [retraps_eq (u.hart.trans count.undisturbed.hart) (count.trapTriggers.trans htraps) hcounters]
  exact hok

/-- **An interrupt** lets the counts go on. -/
theorem tallied_interrupted (h : Coherent core.cfg b) (hok : b.loses core = false)
    (hphase : b.phase = .head) {t : Trap} (hinterrupt : b.interrupt core = some t)
    (hd : b.cpu.hart.debugMode = false)
    (htick : b.tick core = (b.awake.countInterrupt core).catchTrap core t)
    (l : (b.tick core).Linked core.cfg) :
    Tallied core b ∧ Coherent core.cfg (b.tick core) := by
  have hi : b.inner = false := inner_eq hphase
  have hatt := attempt_head core hi
  obtain ⟨hdrops, houtlives, -, hunder⟩ := of_loses hok
  obtain ⟨w, -, henv⟩ := tally_awake b core.cfg
  have hd₁ : b.awake.cpu.hart.debugMode = false :=
    (congrArg (fun env => env.debugMode) henv).trans hd
  obtain ⟨hcounters, hflag, hserial⟩ := countInterrupt_tally core b.awake hd₁
  have s : (b.awake.countInterrupt core).cpu.SameTally (b.tick core).cpu :=
    htick ▸ tally_catchTrap core _ t
  have htallies : b.tallies core = b.cpu.checkTriggersIcount := by
    rw [tallies, hphase, hinterrupt, hd]
    exact (Bool.and_true _).trans (Bool.and_true _)
  have hcounted : (b.awake.countInterrupt core).cpu.hart.triggers.counters =
      b.talliedCounters core := by
    rw [hcounters, henv, w.counters, w.checkTriggersIcount, talliedCounters, htallies]
  have hafter := s.counters.trans hcounted
  have hkeep : (b.tick core).cpu.serialized = b.cpu.serialized :=
    s.serialized.trans (hserial.trans w.serialized)
  have hplain (hn : b.needed = true) : b.cpu.serialized = false := by
    cases hs : b.cpu.serialized with
    | false => rfl
    | true =>
      have hout := houtlives hn
      rw [outlives, hs, hinterrupt] at hout
      cases hout
  have hhead : (b.tick core).phase = .head := by
    rw [htick]
    exact phase_caught core _ (.trap t)
  refine ⟨⟨fun _ => hafter, fun hsome => ?_, fun hcounts => ?_,
    once_of_interrupt hunder hinterrupt hcounted, fun hn hs => ?_, fun _ _ => hatt,
    fun t ht htrue => ?_⟩,
    h.of_head hhead hafter (s.checkTriggersIcount.trans (hflag.trans w.checkTriggersIcount))
      (fun hn => hkeep.trans (hplain hn)) l⟩
  · rw [hatt] at hsome
    cases hsome
  · have hn := (needed_of_counts hcounts).1
    rw [hkeep, htallies, h.checked hn, completes, hatt, hinterrupt]
    rfl
  · rw [hplain hn] at hs
    cases hs
  · rw [drops, htrue, Bool.true_and, hinterrupt, Option.isSome_some, Bool.true_and,
      Bool.or_eq_false_iff, Bool.not_eq_false', List.isEmpty_iff] at hdrops
    rw [hdrops.1] at ht
    exact absurd ht List.not_mem_nil

/-- **One tick.** -/
theorem tallied_tick (law : core.Lawful) (h : Coherent core.cfg b) (hok : b.loses core = false)
    (ha : b.cpu.hart.aborted = false) (ha' : (b.tick core).cpu.hart.aborted = false) :
    Tallied core b ∧ Coherent core.cfg (b.tick core) := by
  have l := linked_tick law h.linked ha ha'
  cases hphase : b.phase with
  | slow =>
    cases htests : b.slowTests core with
    | mk b₁ round =>
      by_cases hround : round = .execute
      · subst hround
        exact tallied_execute law h hok hphase ha ha' l htests
      · exact tallied_refused h hok hphase ha l htests hround
  | fast entry => exact tallied_fast law h hok hphase ha ha' l
  | idle =>
    have hi : b.inner = false := inner_eq hphase
    have htick : b.tick core = b := by
      rw [tick, ha, if_neg Bool.false_ne_true, hphase]
    have hinterrupt : b.interrupt core = none := by rw [interrupt, hphase]
    refine ⟨tallied_still hi hinterrupt (by rw [htick]; exact .refl b.cpu) fun hn hs => ?_,
      by rw [htick]; exact h⟩
    obtain hslow | ⟨hhead, -⟩ := h.again hn hs
    · rw [hphase] at hslow
      cases hslow
    · rw [hphase] at hhead
      cases hhead
  | head =>
    have hi : b.inner = false := inner_eq hphase
    by_cases hn : b.n = 0#64
    · have htick : b.tick core = { b with phase := .idle } := by
        rw [tick, ha, if_neg Bool.false_ne_true, hphase]
        exact if_pos hn
      have hinterrupt : b.interrupt core = none := by
        rw [interrupt, hphase]
        exact if_pos hn
      have hagain (hneeded : b.needed = true) (hs : b.cpu.serialized = true) : False := by
        obtain hslow | ⟨-, hne⟩ := h.again hneeded hs
        · rw [hphase] at hslow
          cases hslow
        · exact hne hn
      refine ⟨tallied_still hi hinterrupt (by rw [htick]; exact .refl b.cpu) fun hneeded hs =>
        (hagain hneeded hs).elim, ?_⟩
      rw [htick] at l ⊢
      exact ⟨h.checked, fun heq => (by cases heq), fun hneeded hs => (hagain hneeded hs).elim,
        fun heq => (by cases heq), l⟩
    · obtain ⟨t, hinterrupt, hd, htick⟩ | ⟨hinterrupt, ⟨next, htick, hnext⟩ | hcrash⟩ :=
        tick_head core hphase hn ha
      · exact tallied_interrupted h hok hphase hinterrupt hd htick l
      · obtain ⟨w, u, -⟩ := tally_awake b core.cfg
        have hneeded : (b.tick core).needed = b.needed := by
          rw [htick]
          exact needed_of_sameCounters w.toSameCounters
        -- what is to be counted is not entered on the fast path
        have hslow (hn : b.needed = true) : next = .slow := by
          obtain rfl | ⟨-, hfalse⟩ := hnext
          · rfl
          · rw [h.checked hn] at hfalse
            cases hfalse
        refine ⟨tallied_still hi hinterrupt (by rw [htick]; exact w) fun hn _ => ?_, ?_⟩
        · rw [htick]
          exact ⟨u, hslow hn⟩
        · have hkeep : (b.tick core).cpu = b.awake.cpu := by rw [htick]
          have hphase' : (b.tick core).phase = next := by rw [htick]
          refine ⟨fun hn => ?_, fun {entry} hfast => ?_, fun hn hs => .inl ?_, fun _ => ?_, l⟩
          · rw [hkeep, w.checkTriggersIcount]
            exact h.checked (hneeded.symm.trans hn)
          · rw [hkeep, w.checkTriggersIcount]
            obtain rfl | ⟨-, hfalse⟩ := hnext
            · rw [hphase'] at hfast
              cases hfast
            · exact hfalse
          · rw [hphase']
            exact hslow (hneeded.symm.trans hn)
          · have hroom : (b.tick core).instret = 0#64 ∧ (b.tick core).n = b.n := by
              rw [htick, awake]
              dsimp only
              split
              · exact ⟨rfl, rfl⟩
              · exact ⟨rfl, rfl⟩
            rw [hroom.1, hroom.2]
            exact Nat.pos_of_ne_zero fun hz => hn (BitVec.eq_of_toNat_eq hz)
      · rw [hcrash] at ha'
        cases ha'

/-! ### Runs -/

theorem tally_call (core : Core σ ι) (b : Batch σ ι) (request : HaltRequest) (n : BitVec 64) :
    b.cpu.SameTally (b.call core request n).cpu := by
  have enter (cause : Reg) : b.cpu.SameTally (b.withHart (·.enterDebugMode core.cfg cause)).cpu :=
    .withHart (·.enterDebugMode core.cfg cause)
      (congrArg Triggers.counters (Hart.triggers_enterDebugMode cause))
  unfold call
  extract_lets enterDebug b₁
  show b.cpu.SameTally (Batch.cpu (if _ then _ else _))
  split
  · exact .refl b.cpu
  · cases request with
    | none =>
      dsimp only
      split
      · exact enter _
      · exact .refl b.cpu
    | regular => exact enter _
    | group => exact enter _

/-- **Between two calls** no count goes on. A reset takes a request for serialization back. -/
theorem tally_between (core : Core σ ι) (b : Batch σ ι) (op : LoopOp σ) :
    b.cpu.SameCounters (b.between core op).cpu ∧
      ((b.between core op).cpu.serialized = true → b.cpu.serialized = true) := by
  have same {b' : Batch σ ι} (s : b.cpu.SameTally b'.cpu) :
      b.cpu.SameCounters b'.cpu ∧ (b'.cpu.serialized = true → b.cpu.serialized = true) :=
    ⟨s.toSameCounters, fun hs => s.serialized ▸ hs⟩
  cases op with
  | tick => exact same (.refl b.cpu)
  | call request n => exact same (tally_call core b request n)
  | timeSync mtime =>
    exact same (.withHart (·.timeSync mtime)
      (congrArg Triggers.counters (Hart.triggers_timeSync mtime)))
  | pin p level => exact same (.withHart (fun h => h.writeWithMask .mip p.mask _) rfl)
  | others s => exact same ⟨⟨rfl, rfl⟩, rfl⟩
  | reset halt =>
    have s : b.cpu.SameTally (b.cpu.withHart fun h => h.reset core.cfg halt) :=
      .withHart (fun h => h.reset core.cfg halt)
        (congrArg Triggers.counters (Hart.triggers_reset halt))
    exact ⟨⟨s.counters, s.checkTriggersIcount⟩, fun hs => by cases hs⟩

theorem coherent_between (hidle : b.phase = .idle) (h : Coherent core.cfg b) (op : LoopOp σ) :
    Coherent core.cfg (b.between core op) := by
  obtain ⟨s, hserial⟩ := tally_between core b op
  have hinner : (b.between core op).inner = false := by
    have hi : b.phase.inner = false := by
      rw [hidle]
      rfl
    cases op <;> first | exact hi | rfl
  have hneeded : (b.between core op).needed = b.needed := needed_of_sameCounters s
  refine ⟨fun hn => ?_, fun {entry} hfast => ?_, fun hn hs => ?_, fun hi => ?_,
    linked_between hidle h.linked op⟩
  · rw [s.checkTriggersIcount]
    exact h.checked (hneeded.symm.trans hn)
  · rw [inner, hfast] at hinner
    cases hinner
  · obtain hslow | ⟨hhead, -⟩ := h.again (hneeded.symm.trans hn) (hserial hs)
    · rw [hidle] at hslow
      cases hslow
    · rw [hidle] at hhead
      cases hhead
  · rw [hinner] at hi
    cases hi

/-- What is not a tick happens between two calls, if at all. -/
theorem play_between (core : Core σ ι) (b : Batch σ ι) {op : LoopOp σ} (hne : op ≠ .tick) :
    b.play core op = b ∨ b.phase = .idle ∧ b.play core op = b.between core op := by
  have hplay : b.play core op = if b.phase.busy || b.cpu.hart.aborted then b
      else b.between core op := by
    cases op with
    | tick => exact absurd rfl hne
    | _ => rfl
  rw [hplay]
  split
  · exact .inl rfl
  · rename_i hquiet
    rw [Bool.or_eq_true, not_or, Bool.not_eq_true] at hquiet
    exact .inr ⟨Phase.eq_idle hquiet.1, rfl⟩

/-- A step of a run. Ticks count, and nothing else does. -/
structure PlayTallies (core : Core σ ι) (b : Batch σ ι) (op : LoopOp σ) : Prop where
  tick : op = .tick → Tallied core b
  between : op ≠ .tick → (b.play core op).cpu.hart.triggers.counters = b.cpu.hart.triggers.counters

theorem Fresh.coherent (f : b.Fresh core)
    (hchecked : b.needed = true → b.cpu.checkTriggersIcount = true) :
    Coherent core.cfg b where
  checked := hchecked
  fast hfast := by
    rw [f.phase] at hfast
    cases hfast
  again _ hs := by
    rw [f.serialized] at hs
    cases hs
  room hi := Bool.noConfusion (f.inner.symm.trans hi)
  linked := f.linked

/-- **Count triggers lose nothing** in a run whose ticks lose nothing. -/
theorem counts_tally (law : core.Lawful) (hfresh : b.Fresh core)
    (hchecked : b.needed = true → b.cpu.checkTriggersIcount = true) (ops : List (LoopOp σ))
    (hops : Run.Along (play core) (fun b op => op = .tick → b.loses core = false) b ops) :
    Run.Along (play core) (fun b op => b.cpu.hart.aborted = false →
      (b.play core op).cpu.hart.aborted = false →
      PlayTallies core b op) b ops := by
  refine Run.Along.of_step (I := fun b => b.cpu.hart.aborted = false → Coherent core.cfg b)
    (fun b op hI hok => ?_)
    (fun b op hI hok ha ha' => ⟨fun htick => ?_, fun hne => ?_⟩)
      (fun _ => hfresh.coherent hchecked) hops
  · intro ha'
    cases ha : b.cpu.hart.aborted with
    | true =>
      rw [cpu_play_of_aborted ha, ha] at ha'
      cases ha'
    | false =>
      by_cases htick : op = .tick
      · subst htick
        exact (tallied_tick law (hI ha) (hok rfl) ha ha').2
      · obtain heq | ⟨hidle, heq⟩ := play_between core b htick
        · rw [heq]
          exact hI ha
        · rw [heq]
          exact coherent_between hidle (hI ha) op
  · subst htick
    exact (tallied_tick law (hI ha) (hok rfl) ha ha').1
  · obtain heq | ⟨-, heq⟩ := play_between core b hne
    · rw [heq]
    · rw [heq]
      exact (tally_between core b op).1.counters

end Batch

end Nnemu

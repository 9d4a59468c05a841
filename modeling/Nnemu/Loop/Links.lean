import Nnemu.Loop.Laws

/-!
# Where the loop goes on

The fast path compares what a handler returns with the tag of the next entry of the cache before it
looks for a sentinel. Nothing can go wrong there: the program counter is even wherever the loop
reads it, so that entries are filed under even addresses (`Batch.Linked`), and the sentinels are
odd. This is also what makes the laws of handlers apply to every instruction of a run.
-/

namespace Nnemu

namespace Cpu

variable {σ ι : Type}

/-- The hart is fit to run, and entries are filed under even addresses. -/
structure Linked (cfg : Config) (c : Cpu σ ι) : Prop where
  fit : c.hart.Fit cfg
  tags : ∀ i, (c.icache i).tag.getLsbD 0 = false ∨ (c.icache i).tag = invalidTag

namespace Linked

variable {cfg : Config} {c c' : Cpu σ ι}

theorem forgets (l : Linked cfg c) (f : Forgets c c') (hfit : c'.hart.Fit cfg) :
    Linked cfg c' := by
  refine ⟨hfit, fun i => ?_⟩
  obtain heq | hinvalid := f i
  · rw [heq]
    exact l.tags i
  · exact .inr hinvalid

theorem withHart (l : Linked cfg c) (f : Hart → Hart) (hfit : (f c.hart).Fit cfg) :
    Linked cfg (c.withHart f) :=
  l.forgets (.withHart c f) (by rw [hart_withHart]; exact hfit)

/-- An entry whose tag a handler returns is filed under an even address. -/
theorem even (l : Linked cfg c) {npc : Reg} {i : Nat} (htag : (c.icache i).tag = npc)
    (hnpc : npc.getLsbD 0 = false ∨ npc = pcSerializeBefore ∨ npc = pcSerializeAfter) :
    npc.getLsbD 0 = false := by
  obtain heven | hinvalid := l.tags i
  · rw [← htag]
    exact heven
  · obtain heven | rfl | rfl := hnpc
    · exact heven
    · exact absurd (htag.symm.trans hinvalid) (by decide)
    · exact absurd (htag.symm.trans hinvalid) (by decide)

end Linked

end Cpu

namespace Core

variable {σ ι : Type} {core : Core σ ι} {pc : Reg} {c c' : Cpu σ ι}

/-! ### Attempts -/

theorem Fetched.linked (law : core.Lawful) {insn : ι} (l : c.Linked core.cfg)
    (heven : pc.getLsbD 0 = false) (hf : Fetched core pc c insn c') : c'.Linked core.cfg := by
  cases hf with
  | cached => exact l
  | fresh hnone hok hfiled =>
    have s := (law.fetch pc).keeps.of_ok hok
    have l₁ := l.forgets s.forgets (l.fit.quiet s.hart)
    obtain rfl | rfl := hfiled
    · exact l₁
    · refine ⟨l₁.fit, fun i => ?_⟩
      dsimp only
      rw [Function.update_apply]
      split
      · exact .inl heven
      · exact l₁.tags i

/-- However an attempt goes, the hart stays fit and entries stay where they belong. -/
theorem Attempt.linked (law : core.Lawful) (l : c.Linked core.cfg) (heven : pc.getLsbD 0 = false)
    {d : Option (ι × Cpu σ ι)} {r : EStateM.Result Thrown (Cpu σ ι) Reg}
    (a : Attempt core pc c d r) : (Exec.final r).Linked core.cfg := by
  cases a with
  | due hm => exact l
  | unfetched hnone herr =>
    have s := (law.fetch pc).keeps.of_error herr
    exact l.forgets s.forgets (l.fit.quiet s.hart)
  | @handled insn c₁ hf =>
    have l₁ := hf.linked law l heven
    have k := (law.execute insn c₁ heven).kept
    exact final_run (P := Cpu.Linked core.cfg) (fun _ _ l => ⟨l.fit, l.tags⟩)
      (l₁.forgets k.forgets (k.fit l₁.fit))

end Core

/-! ### Batches -/

namespace Batch

open Nnemu.Core

variable {σ ι : Type} {core : Core σ ι} {b b' : Batch σ ι}

/-- The processor is linked, and the instruction that is next is at an even address. -/
structure Linked (cfg : Config) (b : Batch σ ι) : Prop where
  cpu : b.cpu.Linked cfg
  pc : b.inner = true → b.pc.getLsbD 0 = false

/-- What the tests leave alone. -/
theorem Tested.linked {cfg : Config} (t : Tested b b') (l : b.Linked cfg) : b'.Linked cfg where
  cpu := l.cpu.forgets t.forgets (l.cpu.fit.quiet t.undisturbed.hart)
  pc hi := by
    rw [t.pc]
    refine l.pc ?_
    rw [inner, ← t.phase]
    exact hi

/-- At the head of the outer loop the program counter of the hart is all there is. -/
theorem linked_leave {cfg : Config} (l : b.cpu.Linked cfg) : b.leave.Linked cfg where
  cpu := l.withHart (·.bump b.instret) (l.fit.quiet (.bump b.cpu.hart b.instret))
  pc hi := absurd (show false = true from hi) Bool.false_ne_true

theorem linked_catchTrap (l : b.cpu.Linked core.cfg) (t : Trap) :
    (b.catchTrap core t).Linked core.cfg := by
  obtain ⟨c, a, heq⟩ := catchTrap_acted core b t
  rw [heq]
  exact linked_leave (b := { b with cpu := c, n := b.instret })
    (l.forgets a.forgets (l.fit.acted a.hart))

theorem linked_enterDebugMode (l : b.cpu.Linked core.cfg) (cause : Reg) :
    (leave (b.withHart (·.enterDebugMode core.cfg cause))).Linked core.cfg :=
  linked_leave (l.withHart (·.enterDebugMode core.cfg cause)
    (l.fit.acted (.enterDebugMode b.cpu.hart cause)))

theorem linked_catchMatched (l : b.cpu.Linked core.cfg) (m : Matched) :
    (b.catchMatched core m).Linked core.cfg := by
  have l₁ : b.cpu.dropMatch.Linked core.cfg := ⟨l.fit, l.tags⟩
  exact linked_leave (l₁.withHart
    (fun h => h.takeTriggerAction core.cfg m.action m.address b.pc)
    (l.fit.acted (.takeTriggerAction _ m.action m.address b.pc)))

theorem linked_catchWait {cfg : Config} (l : b.cpu.Linked cfg) : b.catchWait.Linked cfg :=
  linked_leave (l.withHart (fun h => { h with inWfi := true }) (l.fit.quiet (.inWfi _ _)))

theorem linked_caught (l : b.cpu.Linked core.cfg) (e : Thrown) :
    (b.caught core e).Linked core.cfg := by
  cases e with
  | trap t => exact linked_catchTrap l t
  | matched m => exact linked_catchMatched l m
  | debugMode => exact linked_enterDebugMode l dcsrCauseSwbp
  | waitForInterrupt => exact linked_catchWait l

/-- An instruction is over. -/
theorem linked_advance {cfg : Config} (l : b.cpu.Linked cfg) (npc : Reg) (next : Phase ι)
    (ha : (b.advance npc next).cpu.hart.aborted = false) : (b.advance npc next).Linked cfg := by
  rw [advance] at ha ⊢
  by_cases hinvalid : invalidPc npc = true
  · rw [if_pos hinvalid] at ha ⊢
    by_cases hbefore : npc = pcSerializeBefore
    · rw [if_pos hbefore]
      exact linked_leave (b := { b with cpu := { b.cpu with serialized := true } })
        ⟨l.fit, l.tags⟩
    · rw [if_neg hbefore] at ha ⊢
      by_cases hafter : npc = pcSerializeAfter
      · rw [if_pos hafter]
        exact linked_leave (b := { b with instret := b.instret + 1#64 }) l
      · rw [if_neg hafter, withHart, Cpu.hart_withHart] at ha
        cases ha
  · rw [if_neg hinvalid]
    have heven : npc.getLsbD 0 = false := by
      rw [← Hart.invalidPc_eq, Bool.eq_false_iff]
      exact hinvalid
    have l₁ : (b.withHart fun h => { h with pc := npc }).cpu.Linked cfg :=
      l.withHart (fun h => { h with pc := npc }) (l.fit.withPc heven)
    dsimp only
    split
    · exact ⟨l₁, fun _ => heven⟩
    · exact linked_leave (b := { b.withHart fun h => { h with pc := npc } with
        pc := npc, instret := b.instret + 1#64 }) l₁

/-- **One tick.** -/
theorem linked_tick (law : core.Lawful) (l : b.Linked core.cfg) (ha : b.cpu.hart.aborted = false)
    (ha' : (b.tick core).cpu.hart.aborted = false) : (b.tick core).Linked core.cfg := by
  have hatHead {b₁ : Batch σ ι} (t : Tested b.atHead b₁) : b₁.cpu.Linked core.cfg :=
    l.cpu.forgets t.forgets (l.cpu.fit.quiet t.undisturbed.hart)
  have hticks := tick_cases core b ha
  generalize b.tick core = b' at hticks ha'
  cases hticks with
  | idle hphase => exact l
  | done hphase hn =>
    exact ⟨l.cpu, fun hi => absurd (show false = true from hi) Bool.false_ne_true⟩
  | @entered hphase hn b₁ t next hnext =>
    have hpc : b₁.pc = b.cpu.hart.pc := t.pc
    have l₁ : b₁.cpu.Linked core.cfg := hatHead t
    exact ⟨l₁, fun _ => (congrArg (·.getLsbD 0) hpc).trans l.cpu.fit.evenPc.even⟩
  | interrupted hphase hn t htake => exact linked_catchTrap (hatHead t) _
  | crashed hphase hn t =>
    rw [withHart, Cpu.hart_withHart] at ha'
    cases ha'
  | stepped hphase htests t hs hd => exact linked_enterDebugMode (t.linked l).cpu dcsrCauseStep
  | counted hphase htests t hs hd hlt => exact linked_catchMatched (t.linked l).cpu _
  | waiting hphase htests t => exact linked_catchWait (t.linked l).cpu
  | @returned hi b₁ t npc c hatt a next hnext =>
    exact linked_advance (b := { b₁ with cpu := c }) (a.linked law (t.linked l).cpu (l.pc hi)) npc
      next ha'
  | @linked entry hphase npc c next hatt a htag i hnext hne =>
    have hi : b.inner = true := inner_eq hphase
    have lc : c.Linked core.cfg := a.linked law l.cpu (l.pc hi)
    have heven : npc.getLsbD 0 = false :=
      lc.even (by rw [← hnext]; exact htag) (a.npc law (l.pc hi))
    exact ⟨lc.withHart (fun h => { h with pc := npc }) (lc.fit.withPc heven), fun _ => heven⟩
  | @thrown hi b₁ t e c hatt a =>
    exact linked_caught (b := { b₁ with cpu := c }) (a.linked law (t.linked l).cpu (l.pc hi)) e

/-! ### Runs -/

theorem linked_call (l : b.cpu.Linked core.cfg) (request : HaltRequest) (n : BitVec 64) :
    (b.call core request n).Linked core.cfg := by
  have hcpu : (b.call core request n).cpu.Linked core.cfg := by
    have enter (cause : Reg) :
        (b.cpu.withHart (·.enterDebugMode core.cfg cause)).Linked core.cfg :=
      l.withHart (·.enterDebugMode core.cfg cause)
        (l.fit.acted (.enterDebugMode b.cpu.hart cause))
    unfold call
    extract_lets enterDebug b₁
    show Cpu.Linked core.cfg (Batch.cpu (if _ then _ else _))
    split
    · exact l
    · cases request with
      | none =>
        dsimp only
        split
        · exact enter _
        · exact l
      | regular => exact enter _
      | group => exact enter _
  exact ⟨hcpu, fun hi => absurd (show false = true from hi) Bool.false_ne_true⟩

/-- What happens between two calls. -/
theorem linked_between (hidle : b.phase = .idle) (l : b.Linked core.cfg) (op : LoopOp σ) :
    (b.between core op).Linked core.cfg := by
  have same {c : Cpu σ ι} (lc : c.Linked core.cfg) :
      ({ b with cpu := c } : Batch σ ι).Linked core.cfg := by
    refine ⟨lc, fun hi => ?_⟩
    have hinner : b.phase.inner = true := hi
    rw [hidle] at hinner
    cases hinner
  cases op with
  | tick => exact l
  | call request n => exact linked_call l.cpu request n
  | timeSync mtime => exact same (l.cpu.withHart (·.timeSync mtime) (l.cpu.fit.timeSync mtime))
  | pin p level =>
    exact same (l.cpu.withHart (fun h => h.writeWithMask .mip p.mask _) (l.cpu.fit.pin p _))
  | others s => exact same ⟨l.cpu.fit, l.cpu.tags⟩
  | reset halt =>
    have hfit : (b.cpu.hart.reset core.cfg halt).Fit core.cfg :=
      ⟨l.cpu.fit.wf.event (.reset halt), .reset core.cfg b.cpu.hart halt⟩
    have l₁ := l.cpu.withHart (fun h => h.reset core.cfg halt) hfit
    exact same ⟨l₁.fit, l₁.tags⟩

theorem Fresh.linked (f : b.Fresh core) : b.Linked core.cfg where
  cpu := ⟨f.reachable.fit, fun i => .inr (f.icache i)⟩
  pc hi := Bool.noConfusion (f.inner.symm.trans hi)

/-- **Every reached state is linked**, until the simulator aborts. -/
theorem Fresh.linked_run (law : core.Lawful) (f : b.Fresh core) (ops : List (LoopOp σ))
    (ha : (Run.run (play core) b ops).cpu.hart.aborted = false) :
    (Run.run (play core) b ops).Linked core.cfg := by
  refine Run.run_induct (I := fun b : Batch σ ι => b.cpu.hart.aborted = false → b.Linked core.cfg)
    (fun b op hI => ?_) (fun _ => f.linked) ops ha
  exact play_alive hI (fun l ha ha' => linked_tick law l ha ha')
    fun hidle l => linked_between hidle l op

end Batch

end Nnemu

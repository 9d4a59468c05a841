import Nnemu.Loop.Quiet
import Nnemu.Trigger.Icount

/-!
# What fetches and handlers do

A fetch, and an instruction that is stopped before it has an effect, may set `hit` bits and read
devices, and leave the rest of the processor as the loop sees it (`Cpu.Still`). Of an instruction
that works the loop knows that it files nothing in the cache, keeps to even addresses and leaves the
counters alone (`Cpu.Works`), unless it is one of those that begin with `validate_csr`.

`Core.Handled` lists the ways in which a handler ends, and a core is `Core.Lawful` when its handlers
end in one of them for every even `pc`. The loop is verified for lawful cores, and the processor of
the built instructions is one.

The relations on processors are graded: `Undisturbed` keeps all the loop looks at, `Intact` and
`Still` let the `hit` bits of triggers and the devices go on, `SameCounters` speaks about counters
only. A program that keeps one of them is `Mild`, which composes, so that a handler is classified by
its statements.
-/

namespace Nnemu

open Trigger

namespace Cpu

variable {σ ι : Type}

/-! ### Steps of the hart -/

section Fields

variable (c : Cpu σ ι) (f : Hart → Hart)

@[simp] theorem hart_withHart : (c.withHart f).hart = f c.hart := by
  rw [withHart]
  split <;> rfl

@[simp] theorem serialized_withHart : (c.withHart f).serialized = c.serialized := by
  rw [withHart]
  split <;> rfl

@[simp] theorem checkTriggersIcount_withHart :
    (c.withHart f).checkTriggersIcount = c.checkTriggersIcount := by
  rw [withHart]
  split <;> rfl

@[simp] theorem matchedTrigger_withHart : (c.withHart f).matchedTrigger = c.matchedTrigger := by
  rw [withHart]
  split <;> rfl

@[simp] theorem ledger_withHart : (c.withHart f).ledger = c.ledger := by
  rw [withHart]
  split <;> rfl

@[simp] theorem rest_withHart : (c.withHart f).rest = c.rest := by
  rw [withHart]
  split <;> rfl

/-- An empty cache stays empty. -/
theorem icache_withHart (hempty : ∀ i, (c.icache i).tag = invalidTag) (i : Nat) :
    ((c.withHart f).icache i).tag = invalidTag := by
  rw [withHart]
  split
  · exact hempty i
  · rfl

end Fields

/-! ### Nothing has been done -/

/-- Nothing has been done to the hart. -/
structure Undisturbed (c c' : Cpu σ ι) : Prop where
  hart : c.hart.Quiet c'.hart
  serialized : c'.serialized = c.serialized

namespace Undisturbed

variable {c c' c'' : Cpu σ ι}

theorem refl (c : Cpu σ ι) : Undisturbed c c :=
  ⟨.refl c.hart, rfl⟩

theorem trans (u : Undisturbed c c') (u' : Undisturbed c' c'') : Undisturbed c c'' :=
  ⟨u.hart.trans u'.hart, u'.serialized.trans u.serialized⟩

theorem withHart {f : Hart → Hart} (q : c.hart.Quiet (f c.hart)) : Undisturbed c (c.withHart f) :=
  ⟨by rw [hart_withHart]; exact q, c.serialized_withHart f⟩

end Undisturbed

/-- Nothing is added to the instruction cache, but entries may be invalidated. -/
def Forgets (c c' : Cpu σ ι) : Prop :=
  ∀ i, c'.icache i = c.icache i ∨ (c'.icache i).tag = invalidTag

namespace Forgets

variable {c c' c'' : Cpu σ ι}

theorem refl (c : Cpu σ ι) : Forgets c c :=
  fun _ => .inl rfl

theorem trans (f : Forgets c c') (f' : Forgets c' c'') : Forgets c c'' := by
  intro i
  obtain heq | hinvalid := f' i
  · rw [heq]
    exact f i
  · exact .inr hinvalid

theorem flush (c : Cpu σ ι) : Forgets c c.flushIcache :=
  fun _ => .inr rfl

theorem withHart (c : Cpu σ ι) (f : Hart → Hart) : Forgets c (c.withHart f) := by
  rw [Cpu.withHart]
  split
  · exact .refl c
  · exact .flush { c with hart := f c.hart }

end Forgets

/-- The counters of triggers are the same. -/
structure SameCounters (c c' : Cpu σ ι) : Prop where
  counters : c'.hart.triggers.counters = c.hart.triggers.counters
  checkTriggersIcount : c'.checkTriggersIcount = c.checkTriggersIcount

namespace SameCounters

variable {c c' c'' : Cpu σ ι}

theorem refl (c : Cpu σ ι) : SameCounters c c :=
  ⟨rfl, rfl⟩

theorem trans (s : SameCounters c c') (s' : SameCounters c' c'') : SameCounters c c'' :=
  ⟨s'.counters.trans s.counters, s'.checkTriggersIcount.trans s.checkTriggersIcount⟩

/-- A step of the hart. -/
theorem withHart {f : Hart → Hart}
    (hf : (f c.hart).triggers.counters = c.hart.triggers.counters) :
    SameCounters c (c.withHart f) where
  counters := by rw [hart_withHart, hf]
  checkTriggersIcount := c.checkTriggersIcount_withHart f

end SameCounters

/-- **Nothing has been done**, as far as the loop goes, but to the instruction cache: the hart is as
it was, but for `hit` bits and what devices drive. -/
structure Intact (c c' : Cpu σ ι) : Prop extends Undisturbed c c' where
  triggers : c'.hart.triggers.map eraseHit = c.hart.triggers.map eraseHit
  minstret : c'.hart.reg .minstret = c.hart.reg .minstret
  checkTriggersIcount : c'.checkTriggersIcount = c.checkTriggersIcount
  ledger : c'.ledger = c.ledger

namespace Intact

variable {c c' c'' : Cpu σ ι}

theorem refl (c : Cpu σ ι) : Intact c c :=
  ⟨.refl c, rfl, rfl, rfl, rfl⟩

theorem trans (i : Intact c c') (i' : Intact c' c'') : Intact c c'' where
  toUndisturbed := i.toUndisturbed.trans i'.toUndisturbed
  triggers := i'.triggers.trans i.triggers
  minstret := i'.minstret.trans i.minstret
  checkTriggersIcount := i'.checkTriggersIcount.trans i.checkTriggersIcount
  ledger := i'.ledger.trans i.ledger

theorem sameCounters (i : Intact c c') : SameCounters c c' :=
  ⟨Triggers.counters_of_eraseHit i.triggers, i.checkTriggersIcount⟩

end Intact

/-- Nothing has been done, and nothing was filed in the cache. -/
structure Still (c c' : Cpu σ ι) : Prop extends Intact c c' where
  forgets : Forgets c c'

namespace Still

variable {c c' c'' : Cpu σ ι}

theorem refl (c : Cpu σ ι) : Still c c :=
  ⟨.refl c, .refl c⟩

theorem trans (s : Still c c') (s' : Still c' c'') : Still c c'' :=
  ⟨s.toIntact.trans s'.toIntact, s.forgets.trans s'.forgets⟩

/-- A step of the hart that does nothing to it. -/
theorem withHart {f : Hart → Hart} (q : c.hart.Quiet (f c.hart))
    (htriggers : (f c.hart).triggers.map eraseHit = c.hart.triggers.map eraseHit)
    (hminstret : (f c.hart).reg .minstret = c.hart.reg .minstret) : Still c (c.withHart f) where
  toUndisturbed := .withHart q
  triggers := by rw [hart_withHart, htriggers]
  minstret := by rw [hart_withHart, hminstret]
  checkTriggersIcount := c.checkTriggersIcount_withHart f
  ledger := c.ledger_withHart f
  forgets := .withHart c f

theorem abort (c : Cpu σ ι) : Still c (c.withHart Hart.abort) :=
  .withHart ⟨rfl, rfl, rfl, rfl, rfl, rfl, fun _ _ => rfl, Nat.le_refl _⟩ rfl rfl

theorem flushIcache (c : Cpu σ ι) : Still c c.flushIcache :=
  ⟨⟨⟨.refl c.hart, rfl⟩, rfl, rfl, rfl, rfl⟩, .flush c⟩

/-- Devices drive a line. -/
theorem pin (c : Cpu σ ι) (p : Pin) (val : Reg) :
    Still c (c.withHart fun h => h.writeWithMask .mip p.mask val) := by
  refine .withHart ⟨rfl, rfl, rfl, rfl, rfl, rfl, fun r hr => ?_, Nat.le_refl _⟩ rfl rfl
  have hne : r ≠ .mip := by
    rintro rfl
    cases hr
  rw [Hart.writeWithMask, Hart.reg_set, if_neg hne]

end Still

/-! ### An instruction works -/

/-- What every instruction keeps: it files nothing in the cache, leaves the ledger to the loop, and
the hart fit to run. -/
structure Kept (cfg : Config) (c c' : Cpu σ ι) : Prop where
  ledger : c'.ledger = c.ledger
  forgets : Forgets c c'
  fit : c.hart.Fit cfg → c'.hart.Fit cfg

namespace Kept

variable {cfg : Config} {c c' c'' : Cpu σ ι}

theorem of_still (s : Still c c') : Kept cfg c c' where
  ledger := s.ledger
  forgets := s.forgets
  fit f := f.quiet s.hart

theorem trans (k : Kept cfg c c') (k' : Kept cfg c' c'') : Kept cfg c c'' where
  ledger := k'.ledger.trans k.ledger
  forgets := k.forgets.trans k'.forgets
  fit f := k'.fit (k.fit f)

/-- A step of the hart. -/
theorem withHart {f : Hart → Hart} (hfit : c.hart.Fit cfg → (f c.hart).Fit cfg) :
    Kept cfg c (c.withHart f) where
  ledger := c.ledger_withHart f
  forgets := .withHart c f
  fit h := by
    rw [hart_withHart]
    exact hfit h

end Kept

/-- **What an instruction does** that begins with no `validate_csr`. -/
structure Works (cfg : Config) (c c' : Cpu σ ι) : Prop
    extends SameCounters c c', Kept cfg c c' where
  serialized : c'.serialized = c.serialized
  minstret : c'.hart.reg .minstret = c.hart.reg .minstret

namespace Works

variable {cfg : Config} {c c' c'' : Cpu σ ι}

theorem of_still (s : Still c c') : Works cfg c c' :=
  ⟨s.sameCounters, .of_still s, s.serialized, s.minstret⟩

theorem trans (w : Works cfg c c') (w' : Works cfg c' c'') : Works cfg c c'' where
  toSameCounters := w.toSameCounters.trans w'.toSameCounters
  toKept := w.toKept.trans w'.toKept
  serialized := w'.serialized.trans w.serialized
  minstret := w'.minstret.trans w.minstret

/-- A step of the hart that writes no counter. -/
theorem withHart {f : Hart → Hart} (htriggers : (f c.hart).triggers = c.hart.triggers)
    (hminstret : (f c.hart).reg .minstret = c.hart.reg .minstret)
    (hfit : c.hart.Fit cfg → (f c.hart).Fit cfg) : Works cfg c (c.withHart f) where
  toSameCounters := .withHart (congrArg Triggers.counters htriggers)
  toKept := .withHart hfit
  serialized := c.serialized_withHart f
  minstret := by rw [hart_withHart, hminstret]

end Works

/-- **The ways an instruction ends** that begins with no `validate_csr`. It goes on at an even
address, and what is thrown before its end comes before its effect. -/
inductive Ends (cfg : Config) (c : Cpu σ ι) : EStateM.Result Thrown (Cpu σ ι) Reg → Prop where
  | next {npc : Reg} {c' : Cpu σ ι} (heven : npc.getLsbD 0 = false) (w : Works cfg c c') :
      Ends cfg c (.ok npc c')
  /-- `xret` -/
  | after {c' : Cpu σ ι} (w : Works cfg c c') : Ends cfg c (.ok pcSerializeAfter c')
  /-- `wfi` -/
  | wait {c' : Cpu σ ι} (w : Works cfg c c') : Ends cfg c (.error .waitForInterrupt c')
  | trap {t : Trap} {c' : Cpu σ ι} (s : Still c c') : Ends cfg c (.error (.trap t) c')
  /-- triggers do not match in debug mode -/
  | matched {m : Matched} {c' : Cpu σ ι} (s : Still c c') (hd : c.hart.debugMode = false) :
      Ends cfg c (.error (.matched m) c')
  /-- `ebreak`, which does not enter debug mode from there -/
  | debugMode {c' : Cpu σ ι} (s : Still c c') (hd : c.hart.debugMode = false) :
      Ends cfg c (.error .debugMode c')

/-- **What a write does** to the CSRs. It may be one to the triggers, and then `trigger_updated`
has been called. -/
structure Writes (cfg : Config) (c c' : Cpu σ ι) : Prop extends Kept cfg c c' where
  serialized : c'.serialized = false
  counters : c.SameCounters c' ∨
    c'.checkTriggersIcount = c'.hart.triggers.any icountCheckNeeded

end Cpu

/-! ### Mild programs -/

theorem Cpu.composes_still {σ ι : Type} : Exec.Composes (Cpu.Still (σ := σ) (ι := ι)) :=
  ⟨.refl, .trans⟩

/-- A program that has done nothing yet may throw a trap or, outside debug mode, a match. -/
def Cpu.Allows {σ ι : Type} (c : Cpu σ ι) (e : Thrown) : Prop :=
  (∃ t, e = .trap t) ∨ ∃ m, e = .matched m ∧ c.hart.debugMode = false

theorem Cpu.Still.allows {σ ι : Type} {c c' : Cpu σ ι} (s : c.Still c') {e : Thrown}
    (h : c'.Allows e) : c.Allows e := by
  obtain ht | ⟨m, rfl, hd⟩ := h
  · exact .inl ht
  · exact .inr ⟨m, rfl, s.hart.debugMode.symm.trans hd⟩

/-- A program that leaves the hart alone. It may stop with a trap or, outside debug mode, with a
match. -/
abbrev Mild {σ ι α : Type} (x : CpuM σ ι α) : Prop :=
  Exec.Confined Cpu.Still Cpu.Allows x

namespace Mild

variable {σ ι α β : Type}

theorem pure (a : α) : Mild (Pure.pure a : CpuM σ ι α) :=
  Exec.Confined.pure Cpu.composes_still a

theorem get : Mild (MonadState.get : CpuM σ ι (Cpu σ ι)) :=
  Exec.Confined.get Cpu.composes_still

theorem modify {f : Cpu σ ι → Cpu σ ι} (hf : ∀ c, Cpu.Still c (f c)) :
    Mild (modify f : CpuM σ ι PUnit) :=
  Exec.Confined.modify hf

theorem trap (t : Trap) : Mild (throw (.trap t) : CpuM σ ι α) :=
  Exec.Confined.throw Cpu.composes_still fun _ => .inl ⟨t, rfl⟩

theorem bind {x : CpuM σ ι α} {f : α → CpuM σ ι β} (hx : Mild x) (hf : ∀ a, Mild (f a)) :
    Mild (x >>= f) := by
  refine Exec.Confined.bind Cpu.composes_still ?_ hx hf
  exact fun s h => s.allows h

theorem ite {p : Prop} [Decidable p] {x y : CpuM σ ι α} (hx : Mild x) (hy : Mild y) :
    Mild (if p then x else y) :=
  Exec.Confined.ite hx hy

/-- **Triggers only look.** -/
theorem checkTriggers (cfg : Config) (operation : Operation) (address : Reg)
    (data : Option Reg) :
    Mild (Nnemu.checkTriggers cfg operation address data : CpuM σ ι Unit) := by
  have hfound (c : Cpu σ ι) : c.Still (c.withHart fun h =>
      { h with
        triggers := (c.hart.triggers.detectMemoryAccessMatch (c.hart.matchEnv cfg) operation
          address data).1 }) :=
    .withHart (.triggers (Triggers.countdown_detectMemoryAccessMatch operation address data _).le)
      (Triggers.eraseHit_detectMemoryAccessMatch _) rfl
  constructor
  · intro c
    rw [Nnemu.checkTriggers]
    split
    · exact .refl c
    · dsimp only
      split
      · exact hfound c
      · exact hfound c
      · have s := (hfound c).trans (.flushIcache _)
        exact ⟨⟨⟨s.hart, s.serialized⟩, s.triggers, s.minstret, s.checkTriggersIcount, s.ledger⟩,
          s.forgets⟩
  · intro c e c' h
    rw [Nnemu.checkTriggers] at h
    split at h
    · cases h
    · dsimp only at h
      split at h
      · cases h
      · rename_i action hresult
        cases h
        refine .inr ⟨_, rfl, ?_⟩
        have hsome : (c.hart.triggers.detectMemoryAccessMatch (c.hart.matchEnv cfg) operation
            address data).2 ≠ none := by
          rw [hresult]
          exact Option.some_ne_none _
        exact Triggers.debugMode_of_match hsome
      · cases h

end Mild

/-! ### Laws -/

namespace Core

variable {σ ι : Type}

/-- **The ways a handler ends.** One that begins with `validate_csr` asks for serialization, and
runs with it; it is refused before it has written anything, or writes and may be refused then. -/
inductive Handled (core : Core σ ι) (insn : ι) (c : Cpu σ ι) :
    EStateM.Result Thrown (Cpu σ ι) Reg → Prop where
  | ordinary (hv : core.serializes insn = false) {r : EStateM.Result Thrown (Cpu σ ι) Reg}
      (ends : c.Ends core.cfg r) : Handled core insn c r
  | before (hv : core.serializes insn = true) (hs : c.serialized = false) :
      Handled core insn c (.ok pcSerializeBefore c)
  | written (hv : core.serializes insn = true) (hs : c.serialized = true) {c' : Cpu σ ι}
      (w : c.Writes core.cfg c')
      (hminstret : c'.hart.reg .minstret =
        (core.written insn c).elim (c.hart.reg .minstret) (· - 1#64)) :
      Handled core insn c (.ok pcSerializeAfter c')
  | refused (hv : core.serializes insn = true) (hs : c.serialized = true) {t : Trap}
      {c' : Cpu σ ι} (s : Cpu.Still { c with serialized := false } c')
      (hnone : core.strands insn c = none) : Handled core insn c (.error (.trap t) c')
  /-- the destination register is refused behind the write -/
  | stranded (hv : core.serializes insn = true) (hs : c.serialized = true) {t : Trap}
      {c' : Cpu σ ι} (w : c.Writes core.cfg c') (hstrands : core.strands insn c = some c'.hart)
      (hminstret : c'.hart.reg .minstret =
        (core.written insn c).elim (c.hart.reg .minstret) (· - 1#64)) :
      Handled core insn c (.error (.trap t) c')

/-- **What fetches and handlers keep to**, at the even addresses that there are. -/
structure Lawful (core : Core σ ι) : Prop where
  fetch : ∀ addr, Mild (core.fetch addr)
  execute : ∀ insn {pc : Reg} (c : Cpu σ ι), pc.getLsbD 0 = false →
    core.Handled insn c (core.execute insn pc c)
  /-- what writes the counter accesses it, and begins with `validate_csr` -/
  written : ∀ {insn c}, core.written insn c ≠ none →
    core.accesses insn = true ∧ core.serializes insn = true
  strands : ∀ {insn c}, core.strands insn c ≠ none → core.serializes insn = true

/-- The hart that the write leaves of an instruction that is stranded here. -/
def stranded (core : Core σ ι) (d : Option (ι × Cpu σ ι)) : Option Hart :=
  d.bind fun x => core.strands x.1 x.2

namespace Handled

variable {core : Core σ ι} {insn : ι} {c : Cpu σ ι} {r : EStateM.Result Thrown (Cpu σ ι) Reg}

/-- Every handler keeps what instructions keep. -/
theorem kept (h : core.Handled insn c r) : c.Kept core.cfg (Exec.final r) := by
  cases h with
  | ordinary hv ends =>
    cases ends with
    | next heven w => exact w.toKept
    | after w => exact w.toKept
    | wait w => exact w.toKept
    | trap s => exact .of_still s
    | matched s hd => exact .of_still s
    | debugMode s hd => exact .of_still s
  | before hv hs => exact .of_still (.refl c)
  | written hv hs w hminstret => exact w.toKept
  | refused hv hs s hnone =>
    exact ⟨s.ledger, s.forgets, fun f => f.quiet s.hart⟩
  | stranded hv hs w hstrands hminstret => exact w.toKept

/-- Behind a handler that begins with `validate_csr` no request is left, and no other handler
changes it. -/
theorem serialized (h : core.Handled insn c r) :
    (Exec.final r).serialized = (c.serialized && !core.serializes insn) := by
  cases h with
  | ordinary hv ends =>
    rw [hv, Bool.not_false, Bool.and_true]
    cases ends with
    | next heven w => exact w.serialized
    | after w => exact w.serialized
    | wait w => exact w.serialized
    | trap s => exact s.serialized
    | matched s hd => exact s.serialized
    | debugMode s hd => exact s.serialized
  | before hv hs =>
    rw [hs, Bool.false_and]
    exact hs
  | written hv hs w hminstret =>
    rw [hv, Bool.not_true, Bool.and_false]
    exact w.serialized
  | refused hv hs s hnone =>
    rw [hv, Bool.not_true, Bool.and_false]
    exact s.serialized
  | stranded hv hs w hstrands hminstret =>
    rw [hv, Bool.not_true, Bool.and_false]
    exact w.serialized

end Handled

end Core

end Nnemu

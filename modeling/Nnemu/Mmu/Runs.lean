import Nnemu.Hart.Flush
import Nnemu.Lib.Run
import Nnemu.Loop.Handled
import Nnemu.Mmu.Transparent

/-!
# Runs with a TLB

A unit takes fetches, loads, stores and atomic operations, and between them the hart takes events:
CSR instructions, traps, returns and interrupts, of which some flush the TLB. In every run, in any
order, a unit with a TLB shows what the one without shows and leaves the same state
(`tlb_transparent`). The run has to keep to two rules. Page tables are flushed after changes before
the pages are used (`Settled`), and so is what the source does not flush for by itself (`Unseen`).

The TLB is flushed late: the source flushes it inside the event, here it is flushed when the count
of flushes has moved (`flushedTlb`). What the two units show is the value of each access, or how it
was stopped. The rules are asked of the run of the unit without a TLB, so that a program can be
checked against them without knowing what a TLB would do.
-/

namespace Nnemu

open Trigger

/-! ### Flushes -/

namespace Tlb

/-- `flush_tlb` -/
def flush (t : Tlb) : Tlb :=
  { t with
    insnTag := fun _ => invalidTag
    loadTag := fun _ => invalidTag
    storeTag := fun _ => invalidTag }

/-- `trigger_updated`, as far as the unit goes. -/
def triggerUpdated (t : Tlb) (ts : Triggers) : Tlb :=
  { t with
    checkTriggersFetch := ts.any getExecute
    checkTriggersLoad := ts.any getLoad
    checkTriggersStore := ts.any getStore }

variable {t : Tlb} {type : AccessType} {addr : Reg} {ts : Triggers}

theorem tag_flush (t : Tlb) (type : AccessType) (i : Nat) : t.flush.tag type i = invalidTag := by
  cases type <;> rfl

theorem hits_flush (t : Tlb) (type : AccessType) (addr : Reg) : t.flush.hits type addr = false := by
  rw [hits, tag_flush]
  exact beq_eq_false_iff_ne.2 (ne_vpn (by decide) addr).symm

theorem hits_triggerUpdated (t : Tlb) (ts : Triggers) (type : AccessType) (addr : Reg) :
    (t.triggerUpdated ts).hits type addr = t.hits type addr := by
  cases type <;> rfl

theorem checks_flush (t : Tlb) (type : AccessType) : t.flush.checks type = t.checks type := by
  cases type <;> rfl

/-- The flags say what is watched. -/
theorem checks_triggerUpdated (t : Tlb) (ts : Triggers) (type : AccessType) :
    (t.triggerUpdated ts).checks type = ts.any fun u => u.watches type.operation := by
  cases type <;> rfl

theorem unwatched_of_triggerUpdated (h : (t.triggerUpdated ts).checks type = false) :
    ts.Unwatched type.operation := by
  rw [checks_triggerUpdated] at h
  intro u hu
  exact Bool.eq_false_iff.2 fun hwatches => List.any_eq_false.1 h u hu hwatches

/-- A TLB without entries is sound when its flags are. -/
theorem sound_of_no_hits {δ : Type} {cfg : Config} {bus : Bus δ} {h : Hart} {w : World δ}
    (hhits : ∀ type addr, t.hits type addr = false)
    (hchecks : ∀ type, t.checks type = false → h.triggers.Unwatched type.operation) :
    t.Sound cfg bus h w where
  inMprv := fun _ => hhits
  leads := fun type addr hhit => absurd hhit (by rw [hhits]; exact Bool.false_ne_true)
  skips := fun type addr hskips => absurd (hits_of_skips hskips)
    (by rw [hhits]; exact Bool.false_ne_true)
  checks := hchecks

end Tlb

/-! ### Accesses -/

/-- An access of the processor, of 2, or of 1, 2, 4 or 8 bytes. -/
inductive Access where
  | fetch (addr : Reg)
  | load (addr : Reg) (size : Fin 4)
  | store (addr : Reg) (size : Fin 4) (val : Reg)
  | amo (addr : Reg) (size : Fin 4) (f : Reg → Reg)

namespace Access

variable {δ ι : Type} (cfg : Config) (bus : Bus δ) (misalignedEnabled : Bool)

/-- The unit with a TLB. -/
def run : Access → HartMmu.LoadM δ ι (List (BitVec 8))
  | .fetch addr => HartMmu.fetch cfg bus addr
  | .load addr size => HartMmu.loadAny cfg bus misalignedEnabled addr (2 ^ size.val)
  | .store addr size val => do
    HartMmu.store cfg bus misalignedEnabled addr (2 ^ size.val) val
    pure []
  | .amo addr size f => do
    let lhs ← HartMmu.amo cfg bus misalignedEnabled addr (2 ^ size.val) f
    pure (Bytes.toBytes lhs (2 ^ size.val))

/-- The unit without one. -/
def plain : Access → HartMmu.LoadM δ ι (List (BitVec 8))
  | .fetch addr => HartMmu.fetchPlain cfg bus addr
  | .load addr size => HartMmu.loadPlain cfg bus misalignedEnabled addr (2 ^ size.val)
  | .store addr size val => do
    HartMmu.storePlain cfg bus misalignedEnabled addr (2 ^ size.val) val
    pure []
  | .amo addr size f => do
    let lhs ← HartMmu.amoPlain cfg bus misalignedEnabled addr (2 ^ size.val) f
    pure (Bytes.toBytes lhs (2 ^ size.val))

/-- The places of an access. -/
def places : Access → List (AccessType × Reg)
  | .fetch addr => [(.fetch, addr)]
  | .load addr size => HartMmu.bytesOf .load addr (2 ^ size.val)
  | .store addr size _ => HartMmu.bytesOf .store addr (2 ^ size.val)
  | .amo addr size _ => HartMmu.bytesOf .store addr (2 ^ size.val) ++
    HartMmu.bytesOf .load addr (2 ^ size.val)

/-- The `pc` is even. -/
def Even : Access → Prop
  | .fetch addr => addr.toNat % 2 = 0
  | _ => True

/-- **One access** comes to the same with and without a TLB. -/
theorem simulates (a : Access) (heven : a.Even) :
    HartMmu.Simulates (ι := ι) cfg bus a.places (a.run cfg bus misalignedEnabled)
      (a.plain cfg bus misalignedEnabled) := by
  have hsize (size : Fin 4) : size.val ≤ 12 := by omega
  cases a with
  | fetch addr => exact HartMmu.simulates_fetch heven List.mem_cons_self
  | load addr size => exact HartMmu.simulates_loadAny (hsize size) (List.Subset.refl _)
  | store addr size val =>
    exact .bind (HartMmu.simulates_store (hsize size) val (List.Subset.refl _)) fun _ _ => .pure []
  | amo addr size f =>
    exact .bind (HartMmu.simulates_amo (hsize size) f (List.Subset.refl _)) fun lhs _ => .pure _

end Access

/-! ### The machine -/

/-- Has a register of a trigger been written? -/
def Hart.updatesTrigger (cfg : Config) (h : Hart) : HartOp → Bool
  | .csr which insn _ =>
    match h.csrInsn cfg which insn with
    | .ok h' => decide (which ∈ [0x7a1, 0x7a2, 0x7a3]) && h'.tlbFlushes != h.tlbFlushes
    | .error _ => false
  | _ => false

/-- What no register of theirs was written for leaves the triggers alone. -/
theorem Hart.triggers_step {cfg : Config} {h : Hart} {op : HartOp} (hop : op.Runs)
    (hno : h.updatesTrigger cfg op = false) : (h.step cfg op).triggers = h.triggers := by
  rw [Hart.step]
  split
  · rfl
  · cases op with
    | csr which insn bits =>
      rw [updatesTrigger] at hno
      change (h.orRefused cfg bits (h.csrInsn cfg which insn)).triggers = h.triggers
      cases hrun : h.csrInsn cfg which insn with
      | error e => exact triggers_refused bits e
      | ok h' =>
        rw [hrun] at hno
        obtain hsame | ⟨hwhich, hcount⟩ := Hart.triggers_csrInsn hrun
        · exact hsame
        · simp [hwhich, hcount] at hno
    | triggers ts => exact hop.elim
    | _ => exact triggers_event trivial

variable {δ ι : Type} {cfg : Config} {bus : Bus δ} {misalignedEnabled : Bool}

/-- The processor with another TLB. -/
def Cpu.withTlb (c : Cpu Files ι) (t : Tlb) : Cpu Files ι :=
  { c with rest := { c.rest with tlb := t } }

/-- From a flush on page tables count as unchanged. -/
def World.afterFlush (w : World δ) : World δ :=
  { w with ptDirty := fun _ => false }

theorem Cpu.withHart_withTlb (c : Cpu Files ι) (t : Tlb) (f : Hart → Hart) :
    (c.withTlb t).withHart f = (c.withHart f).withTlb t := by
  change (if (f c.hart).tlbFlushes = c.hart.tlbFlushes then _ else _) =
    withTlb (if (f c.hart).tlbFlushes = c.hart.tlbFlushes then _ else _) t
  split <;> rfl

/-- An event of the hart, with what `flush_tlb` and `trigger_updated` do to the unit. -/
def hartStep (cfg : Config) (op : HartOp) (s : Cpu Files ι × World δ) : Cpu Files ι × World δ :=
  let c := s.1.withHart fun h => h.step cfg op
  if c.hart.tlbFlushes = s.1.hart.tlbFlushes then (c, s.2)
  else if s.1.hart.updatesTrigger cfg op then
    (c.withTlb (c.rest.tlb.flush.triggerUpdated c.hart.triggers), s.2.afterFlush)
  else (c.withTlb c.rest.tlb.flush, s.2.afterFlush)

/-- The TLB after an event that flushes it. -/
def flushedTlb (cfg : Config) (h : Hart) (op : HartOp) (t : Tlb) : Tlb :=
  if h.updatesTrigger cfg op then t.flush.triggerUpdated (h.step cfg op).triggers else t.flush

theorem hartStep_of_same {op : HartOp} {s : Cpu Files ι × World δ}
    (h : (s.1.hart.step cfg op).tlbFlushes = s.1.hart.tlbFlushes) :
    hartStep cfg op s = (s.1.withHart fun h => h.step cfg op, s.2) := by
  rw [hartStep, Cpu.hart_withHart, if_pos h]

theorem hartStep_of_flush {op : HartOp} {s : Cpu Files ι × World δ}
    (h : (s.1.hart.step cfg op).tlbFlushes ≠ s.1.hart.tlbFlushes) :
    hartStep cfg op s =
      ((s.1.withHart fun h => h.step cfg op).withTlb (flushedTlb cfg s.1.hart op s.1.rest.tlb),
        s.2.afterFlush) := by
  rw [hartStep, flushedTlb, Cpu.hart_withHart, Cpu.rest_withHart, if_neg h]
  split <;> rfl

theorem hits_flushedTlb (cfg : Config) (h : Hart) (op : HartOp) (t : Tlb)
    (type : AccessType) (addr : Reg) :
    (flushedTlb cfg h op t).hits type addr = false := by
  rw [flushedTlb]
  split
  · rw [Tlb.hits_triggerUpdated, Tlb.hits_flush]
  · exact t.hits_flush type addr

/-- What a unit does, or what is done between two accesses. -/
inductive UnitOp where
  | access (a : Access)
  | hart (op : HartOp)
  /-- `sfence_vma`, where it is not refused -/
  | sfenceVma

namespace UnitOp

/-- One step of a unit with these programs. -/
def step (cfg : Config) (program : Access → HartMmu.LoadM δ ι (List (BitVec 8)))
    (s : Cpu Files ι × World δ) :
    UnitOp → Cpu Files ι × World δ
  | .access a => Exec.final (program a s)
  | .hart op => hartStep cfg op s
  | .sfenceVma =>
    let c := s.1.withHart Hart.flushTlb
    (c.withTlb c.rest.tlb.flush, s.2.afterFlush)

/-- What an access returns or throws. -/
def outcome {ε σ α : Type} : EStateM.Result ε σ α → Except ε α
  | .ok a _ => .ok a
  | .error e _ => .error e

/-- What a step shows. -/
def shows (program : Access → HartMmu.LoadM δ ι (List (BitVec 8))) (s : Cpu Files ι × World δ) :
    UnitOp → List (Except Stop (List (BitVec 8)))
  | .access a => [outcome (program a s)]
  | _ => []

/-- **The rules of the run.** Accesses find their tables as they were at the last flush, but for A
and D bits, and events that do not flush keep what is not flushed for. -/
def Obeys (cfg : Config) (bus : Bus δ) (misalignedEnabled : Bool) (s : Cpu Files ι × World δ) :
    UnitOp → Prop
  | .access a => a.Even ∧
  HartMmu.SettledAt cfg bus a.places (Exec.final (a.run cfg bus misalignedEnabled s))
  | .hart op =>
    op.Runs ∧ ((s.1.hart.step cfg op).tlbFlushes = s.1.hart.tlbFlushes →
      s.1.hart.Unseen (s.1.hart.step cfg op))
  | .sfenceVma => True

end UnitOp

namespace HartMmu

variable {s p : Cpu Files ι × World δ}

/-- Ends that come to the same are related, and show the same. -/
theorem Comes.ends {α : Type} {x y : EStateM.Result Stop (Cpu Files ι × World δ) α}
    (h : Comes cfg bus x y) :
    UnitOp.outcome x = UnitOp.outcome y ∧ Refines cfg bus (Exec.final x) (Exec.final y) := by
  cases h with
  | ok a h => exact ⟨rfl, h⟩
  | error e h => exact ⟨rfl, h⟩

/-- Two units after a flush. -/
theorem Refines.flush {c c' : Cpu Files ι} {w : World δ} {t t' : Tlb}
    (hcpu : ∃ old, c' = c.withTlb old)
    (hhits : ∀ type addr, t.hits type addr = false)
    (hchecks : ∀ type, t.checks type = false → c.hart.triggers.Unwatched type.operation) :
    Refines cfg bus (c.withTlb t, w) (c'.withTlb t', w) where
  world := rfl
  cpu := by
    obtain ⟨old, rfl⟩ := hcpu
    exact ⟨t', rfl⟩
  sound := Tlb.sound_of_no_hits hhits hchecks

/-- **One event** of the hart keeps the TLB sound, or empties it. -/
theorem Refines.hartStep {op : HartOp} (href : Refines cfg bus s p) (hop : op.Runs)
    (hunseen : (s.1.hart.step cfg op).tlbFlushes = s.1.hart.tlbFlushes →
      s.1.hart.Unseen (s.1.hart.step cfg op)) :
    Refines cfg bus (Nnemu.hartStep cfg op s) (Nnemu.hartStep cfg op p) := by
  obtain ⟨c, w⟩ := s
  obtain ⟨c', w'⟩ := p
  obtain ⟨old, hcpu⟩ := href.cpu
  obtain rfl : c' = c.withTlb old := hcpu
  obtain rfl : w' = w := href.world
  by_cases hcount : (c.hart.step cfg op).tlbFlushes = c.hart.tlbFlushes
  · rw [hartStep_of_same hcount, hartStep_of_same (s := (c.withTlb old, w')) hcount,
      Cpu.withHart_withTlb]
    refine ⟨⟨rfl, old, rfl⟩, ?_⟩
    have hview := (Hart.flushes_step cfg c.hart op hop).view hcount
    have hlater : Hart.Later cfg c.hart w' (c.hart.step cfg op) w' :=
      ⟨hview.prv, hview.v, hview.inMprv (hunseen hcount).nmie, hview.agrees (hunseen hcount),
        .refl _ w'⟩
    have hsound := href.sound.later hlater fun operation ho => by
      rw [hview.triggers]
      exact ho
    rw [Cpu.hart_withHart, Cpu.rest_withHart]
    exact hsound
  · rw [hartStep_of_flush hcount, hartStep_of_flush (s := (c.withTlb old, w')) hcount,
      Cpu.withHart_withTlb]
    refine .flush ⟨old, rfl⟩ (hits_flushedTlb cfg c.hart op c.rest.tlb) fun type hchecks => ?_
    rw [Cpu.hart_withHart]
    rw [flushedTlb] at hchecks
    cases hupdates : c.hart.updatesTrigger cfg op with
    | true =>
      rw [hupdates, if_pos rfl] at hchecks
      exact Tlb.unwatched_of_triggerUpdated hchecks
    | false =>
      rw [hupdates, if_neg Bool.false_ne_true, Tlb.checks_flush] at hchecks
      rw [Hart.triggers_step hop hupdates]
      exact href.sound.checks type hchecks

/-- **One step** shows the same with and without a TLB. -/
theorem Refines.step {o : UnitOp} (href : Refines cfg bus s p)
    (hobeys : o.Obeys cfg bus misalignedEnabled s) :
    o.shows (fun a => a.run cfg bus misalignedEnabled) s =
      o.shows (fun a => a.plain cfg bus misalignedEnabled) p ∧
      Refines cfg bus (o.step cfg (fun a => a.run cfg bus misalignedEnabled) s)
        (o.step cfg (fun a => a.plain cfg bus misalignedEnabled) p) := by
  cases o with
  | access a =>
    obtain ⟨hshows, href⟩ :=
      ((a.simulates cfg bus misalignedEnabled hobeys.1).comes s p href hobeys.2).ends
    exact ⟨congrArg (fun r => [r]) hshows, href⟩
  | hart op => exact ⟨rfl, href.hartStep hobeys.1 hobeys.2⟩
  | sfenceVma =>
    refine ⟨rfl, ?_⟩
    obtain ⟨c, w⟩ := s
    obtain ⟨c', w'⟩ := p
    obtain ⟨old, hcpu⟩ := href.cpu
    obtain rfl : c' = c.withTlb old := hcpu
    obtain rfl : w' = w := href.world
    have hflush : Refines cfg bus
        ((c.withHart Hart.flushTlb).withTlb (c.withHart Hart.flushTlb).rest.tlb.flush,
          w'.afterFlush)
        (((c.withTlb old).withHart Hart.flushTlb).withTlb
          ((c.withTlb old).withHart Hart.flushTlb).rest.tlb.flush,
          w'.afterFlush) := by
      refine .flush ⟨old, Cpu.withHart_withTlb c old _⟩ (Tlb.hits_flush _) fun type hchecks => ?_
      rw [Tlb.checks_flush, Cpu.rest_withHart] at hchecks
      rw [Cpu.hart_withHart]
      exact href.sound.checks type hchecks
    exact hflush

/-- **The TLB is transparent.** From a flush on, a unit with a TLB returns and throws, in every run
that obeys the rules, what a unit does that walks the tables for every access, and leaves the same
registers, RAM and devices. -/
theorem tlb_transparent (cfg : Config) (bus : Bus δ) (misalignedEnabled : Bool)
    (s : Cpu Files ι × World δ)
    (hempty : ∀ type addr, s.1.rest.tlb.hits type addr = false)
    (hchecks : ∀ type, s.1.rest.tlb.checks type = false →
      s.1.hart.triggers.Unwatched type.operation) (ops : List UnitOp)
    (hobeys : Run.Along (UnitOp.step cfg fun a => a.run cfg bus misalignedEnabled)
      (UnitOp.Obeys cfg bus misalignedEnabled) s ops) :
    Run.collect (UnitOp.step cfg fun a => a.run cfg bus misalignedEnabled)
        (UnitOp.shows fun a => a.run cfg bus misalignedEnabled) s ops =
      Run.collect (UnitOp.step cfg fun a => a.plain cfg bus misalignedEnabled)
        (UnitOp.shows fun a => a.plain cfg bus misalignedEnabled) s ops ∧
    Without (Run.run (UnitOp.step cfg fun a => a.run cfg bus misalignedEnabled) s ops)
      (Run.run (UnitOp.step cfg fun a => a.plain cfg bus misalignedEnabled) s ops) := by
  have hstart : Refines cfg bus s s := ⟨.refl s, Tlb.sound_of_no_hits hempty hchecks⟩
  obtain ⟨hshows, hend⟩ :=
    Run.collect_simulate_along (fun s p o href hobeys => href.step hobeys) hstart hobeys
  exact ⟨hshows, hend.toWithout⟩

/-! ### A run -/

/-- Is this a walk through entries that were changed? -/
def stopped : Except FrozenStop Reg → Bool
  | .error .changed => true
  | _ => false

instance (h : Hart) (w : World δ) (type : AccessType) (addr : Reg) :
    Decidable (h.Settled cfg bus w type addr) :=
  decidable_of_iff (stopped (h.frozenPage cfg bus w type addr) = false) (by
    rw [Hart.Settled]
    cases h.frozenPage cfg bus w type addr with
    | ok page => simp [stopped]
    | error e => cases e <;> simp [stopped])

instance (pages : List (AccessType × Reg)) (s : Cpu Files ι × World δ) :
    Decidable (SettledAt cfg bus pages s) :=
  List.decidableBAll _ pages

instance : DecidablePred Access.Even
  | .fetch addr => inferInstanceAs (Decidable (addr.toNat % 2 = 0))
  | .load .. | .store .. | .amo .. => .isTrue trivial

instance (h h' : Hart) : Decidable (h.Unseen h') :=
  decidable_of_iff
    (hasBits (h'.reg .mnstatus) mnstatusNmie = hasBits (h.reg .mnstatus) mnstatusNmie ∧
      (hasBits (h.reg .menvcfg) envcfgPbmte = true → hasBits (h'.reg .menvcfg) envcfgPbmte = true) ∧
      (hasBits (h.reg .henvcfg) envcfgPbmte = true → hasBits (h'.reg .henvcfg) envcfgPbmte = true))
    ⟨fun h => ⟨h.1, h.2.1, h.2.2⟩, fun h => ⟨h.nmie, h.menvcfg, h.henvcfg⟩⟩

instance (s : Cpu Files ι × World δ) : DecidablePred (UnitOp.Obeys cfg bus misalignedEnabled s)
  | .access _ => inferInstanceAs (Decidable (_ ∧ _))
  | .hart _ => inferInstanceAs (Decidable (_ ∧ _))
  | .sfenceVma => .isTrue trivial

/-- A page is read twice. Another one is not mapped, until a store to the table and a fence. -/
def remapRun : List UnitOp :=
  let double := Fin.last 3
  [.access (.load 0x2000#64 double), .access (.load 0x2000#64 double),
    .access (.load 0x40002000#64 double),
    .access (.store 0x1008#64 double 0x100000cf#64), .hart (.csr 0x140 (.write 9#64) 0x14001073#64),
    .sfenceVma,
    .access (.load 0x40002000#64 double), .access (.fetch 0x40002000#64),
    .access (.amo 0x40002000#64 double (· + 1#64))]

theorem tlb_transparent_remapRun :
    Run.collect (UnitOp.step rv64svadu fun a => a.run rv64svadu ramBus false)
        (UnitOp.shows fun a => a.run rv64svadu ramBus false)
        (supervisorOf 1#64 [], mappedBy 0xcf#64) remapRun =
      Run.collect (UnitOp.step rv64svadu fun a => a.plain rv64svadu ramBus false)
        (UnitOp.shows fun a => a.plain rv64svadu ramBus false)
        (supervisorOf 1#64 [], mappedBy 0xcf#64) remapRun ∧
    Without
      (Run.run (UnitOp.step rv64svadu fun a => a.run rv64svadu ramBus false)
        (supervisorOf 1#64 [], mappedBy 0xcf#64)
        remapRun)
      (Run.run (UnitOp.step rv64svadu fun a => a.plain rv64svadu ramBus false)
        (supervisorOf 1#64 [], mappedBy 0xcf#64)
        remapRun) := by
  refine tlb_transparent rv64svadu ramBus false (supervisorOf 1#64 [], mappedBy 0xcf#64)
    (Tlb.hits_flush .flushed) ?_
    remapRun (by decide +kernel)
  have hnone (operation : Operation) : ∀ t ∈ (supervisorOf 1#64 []).hart.triggers,
      t.watches operation = false := by
    cases operation <;> decide +kernel
  exact fun type _ => hnone type.operation

end HartMmu

end Nnemu

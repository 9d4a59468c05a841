import Nnemu.Loop.Links
import Nnemu.Loop.Places

/-!
# Does a batch end?

Every round of `processor_t::step` that executes an instruction makes `n - instret` less, and the
other ways back to the loop head use something up: debug mode is entered, a request for
serialization is noted, a count runs out, a match is taken, or the hart goes to its breakpoint
handler (`Cpu.weight`). What uses nothing up is a breakpoint exception at the first instruction of
the breakpoint handler (`Batch.Stuck`): the action leads to the instruction that a trigger keeps
from being executed, and neither `n` nor `instret` moves.

The rank of a batch is what remains to be done, and below it what can be used up without doing
anything (`rank`, `Progress`). Each case of `Batch.Ticks` makes it smaller unless the batch is
stuck, and `exists_of_descent` of `Lib.Run` does the rest: a call returns after finitely many ticks
or comes to a round in which it is stuck.
-/

namespace Nnemu

open Trigger

/-! ### Breakpoint handlers -/

namespace Hart

variable (cfg : Config) (h : Hart)

/-- The hart is at the first instruction of its breakpoint handler. -/
def AtHandler : Prop :=
  h.place = h.trapPlace cfg { cause := causeBreakpoint }

instance : Decidable (h.AtHandler cfg) :=
  inferInstanceAs (Decidable (_ = _))

variable {cfg : Config} {h h' : Hart}

theorem Quiet.atHandler (q : Quiet h h') : h'.AtHandler cfg ↔ h.AtHandler cfg := by
  have hplace : h'.place = h.place := by
    rw [place, place, q.pc, q.prv, q.v]
  rw [AtHandler, AtHandler, hplace, q.trapPlace]

/-! ### The second breakpoint -/

theorem isInterrupt_breakpoint (cfg : Config) :
    isInterrupt cfg { cause := causeBreakpoint } = false := by
  rw [isInterrupt, interruptBit]
  cases cfg.isa.xlen <;> decide

/-- S is there where something is delegated. -/
theorem legalizePrivilege_of_medeleg (wf : WellFormed cfg h) (hm : h.reg .medeleg ≠ 0#64) :
    h.legalizePrivilege prvS = prvS := by
  have hs : cfg.isa.table .s = true := by
    cases hs : cfg.isa.table .s with
    | true => rfl
    | false => exact absurd (wf.regs.deleg hs).2 hm
  have hns : h.extensionEnabled .s ≠ false := by
    rw [wf.regs.enabled_s, hs]
    decide
  rw [legalizePrivilege, wf.regs.enabled_u, cfg.isa.u_of_s hs, if_neg (by decide), if_neg]
  rintro (heq | ⟨-, heq⟩)
  · exact absurd heq (by decide)
  · exact hns heq

theorem delegated_iff (deleg bit : Reg) : h.delegated cfg deleg bit = true ↔
    h.prv ≤ prvS ∧ bit.toNat < cfg.isa.xlen.bits ∧ deleg.getLsbD bit.toNat = true := by
  rw [delegated, Bool.and_eq_true, Bool.and_eq_true, decide_eq_true_eq,
    decide_eq_true_eq, and_assoc]

/-- Nothing is delegated from M. -/
theorem trapDestination_machine (hp : ¬h.prv ≤ prvS) (t : Trap) : h.trapDestination cfg t = .m := by
  rw [trapDestination, if_neg fun hd => hp ((delegated_iff _ _).1 hd).1,
    if_neg fun hd => hp ((delegated_iff _ _).1 hd).1]

theorem not_delegated_zero (bit : Reg) : h.delegated cfg 0#64 bit ≠ true := by
  intro hd
  have hbit := ((delegated_iff _ _).1 hd).2.2
  rw [BitVec.getLsbD_zero] at hbit
  exact Bool.noConfusion hbit

/-- **Breakpoints in a breakpoint handler lead to its start.** -/
theorem atHandler_takeTrap (wf : WellFormed cfg h) (hd : h.debugMode = false) (tval epc : Reg) :
    (h.takeTrap cfg (h.breakpointTrap tval) epc).AtHandler cfg := by
  have hplace : (h.takeTrap cfg (h.breakpointTrap tval) epc).place = h.trapPlace cfg
    { cause := causeBreakpoint } :=
    place_takeTrap hd _ epc
  rw [AtHandler, hplace]
  have hintr := isInterrupt_breakpoint cfg
  have hentry := takeTrap_entry cfg hd (h.breakpointTrap tval) epc
  have heq : h.trapDestination cfg (h.breakpointTrap tval) = h.trapDestination cfg
      { cause := causeBreakpoint } := rfl
  rw [heq] at hentry
  generalize h.takeTrap cfg (h.breakpointTrap tval) epc = h₁ at hentry
  unfold trapPlace
  cases hdest : h.trapDestination cfg { cause := causeBreakpoint } with
  -- the handler runs in VS, and its own breakpoints are delegated there as well
  | vs =>
    rw [hdest] at hentry
    obtain ⟨hv, hp⟩ := of_destination_vs hdest
    have hvs : h.delegated cfg (h.vsdeleg cfg { cause := causeBreakpoint })
        (trapBit cfg { cause := causeBreakpoint }) = true := by
      by_contra hno
      rw [trapDestination, if_neg hno] at hdest
      split at hdest <;> cases hdest
    have hdeleg : h.vsdeleg cfg { cause := causeBreakpoint } = h.reg .medeleg &&&
        h.reg .hedeleg := by
      rw [vsdeleg, hv, decide_eq_true hp, hintr]
      rfl
    obtain ⟨-, hlt, hbit⟩ := (delegated_iff _ _).1 hvs
    rw [hdeleg] at hbit
    have hm : h.reg .medeleg ≠ 0#64 := by
      intro hz
      rw [hz, BitVec.zero_and, BitVec.getLsbD_zero] at hbit
      cases hbit
    have hleg := legalizePrivilege_of_medeleg wf hm
    have hext (ext : Ext) : h₁.extensionEnabled ext = h.extensionEnabled ext := by
      rw [extensionEnabled, extensionEnabled, hentry.extTable, hentry.reg .misa rfl]
    have hdest₁ : h₁.trapDestination cfg { cause := causeBreakpoint } = .vs := by
      rw [trapDestination, if_pos]
      rw [delegated_iff, vsdeleg, hentry.v, hentry.prv, hleg, hintr, hentry.reg .medeleg rfl,
        hentry.reg .hedeleg rfl]
      exact ⟨by decide, hlt, hbit⟩
    rw [hdest₁]
    dsimp only
    rw [hentry.reg .vstvec rfl, legalizePrivilege, legalizePrivilege, hext, hext]
  -- in HS with V clear nothing goes to VS, and `medeleg` still sends the cause to HS
  | hs =>
    rw [hdest] at hentry
    have hp := of_destination_hs hdest
    have hhs : h.delegated cfg (h.hsdeleg cfg { cause := causeBreakpoint })
        (trapBit cfg { cause := causeBreakpoint }) = true := by
      rw [trapDestination] at hdest
      split at hdest
      · cases hdest
      · split at hdest
        · assumption
        · cases hdest
    have hdeleg : h.hsdeleg cfg { cause := causeBreakpoint } = h.reg .medeleg := by
      rw [hsdeleg, if_pos hp, hintr]
      rfl
    obtain ⟨-, hlt, hbit⟩ := (delegated_iff _ _).1 hhs
    rw [hdeleg] at hbit
    have hm : h.reg .medeleg ≠ 0#64 := by
      intro hz
      rw [hz, BitVec.getLsbD_zero] at hbit
      cases hbit
    have hleg := legalizePrivilege_of_medeleg wf hm
    have hext (ext : Ext) : h₁.extensionEnabled ext = h.extensionEnabled ext := by
      rw [extensionEnabled, extensionEnabled, hentry.extTable, hentry.reg .misa rfl]
    have hdest₁ : h₁.trapDestination cfg { cause := causeBreakpoint } = .hs := by
      have hvs : h₁.vsdeleg cfg { cause := causeBreakpoint } = 0#64 := by
        rw [vsdeleg, hentry.v]
        rfl
      rw [trapDestination, hvs, if_neg (not_delegated_zero _), if_pos]
      rw [delegated_iff, hsdeleg, hentry.prv, hleg, hintr, hentry.reg .medeleg rfl]
      exact ⟨by decide, hlt, hbit⟩
    rw [hdest₁]
    dsimp only
    rw [hentry.reg .stvec rfl, legalizePrivilege, legalizePrivilege, hext, hext]
  -- a trap taken in M stays in M, whatever is delegated
  | m =>
    rw [hdest] at hentry
    have hprv : h₁.prv = prvM := hentry.prv.trans legalizePrivilege_machine
    have hdest₁ : h₁.trapDestination cfg { cause := causeBreakpoint } = .m :=
      trapDestination_machine (by rw [hprv]; decide) _
    have hnmie : h₁.nmie cfg = h.nmie cfg := by
      rw [nmie, nmie, hentry.reg .mnstatus rfl]
    rw [hdest₁]
    dsimp only
    rw [hentry.reg .mtvec rfl, legalizePrivilege_machine, legalizePrivilege_machine,
      hnmie, hprv, hentry.v,
      beq_self_eq_true, Bool.and_true]

/-! ### What a hart can use up -/

/-- What the hart can still use up: it is not in debug mode, counts have not run out, it is not at
its breakpoint handler. -/
def load (cfg : Config) (h : Hart) : Nat :=
  2 * (!h.debugMode).toNat + h.triggers.countdown + if h.debugMode = true ∨ h.AtHandler cfg then 0
    else 1

theorem Quiet.load (q : Quiet h h') (cfg : Config) : h'.load cfg ≤ h.load cfg := by
  have hcount := q.countdown
  have hif : (if h'.debugMode = true ∨ h'.AtHandler cfg then 0 else 1) =
      if h.debugMode = true ∨ h.AtHandler cfg then 0 else 1 := by
    rw [q.debugMode]
    exact if_congr (or_congr_right q.atHandler) rfl rfl
  rw [Hart.load, Hart.load, hif, q.debugMode]
  omega

theorem Quiet.load_lt (q : Quiet h h') (hlt : h'.triggers.countdown < h.triggers.countdown) :
    h'.load cfg < h.load cfg := by
  have hif : (if h'.debugMode = true ∨ h'.AtHandler cfg then 0 else 1) =
      if h.debugMode = true ∨ h.AtHandler cfg then 0 else 1 := by
    rw [q.debugMode]
    exact if_congr (or_congr_right q.atHandler) rfl rfl
  rw [Hart.load, Hart.load, hif, q.debugMode]
  omega

theorem load_of_debugMode (hd : h.debugMode = true) : h.load cfg = h.triggers.countdown := by
  rw [load, hd, if_pos (.inl rfl)]
  simp

/-- Debug entry uses two units up. -/
theorem load_enterDebugMode (cfg : Config) (h : Hart) (cause : Reg) :
    (h.enterDebugMode cfg cause).load cfg + 2 * (!h.debugMode).toNat ≤ h.load cfg := by
  have hafter : (h.enterDebugMode cfg cause).load cfg = h.triggers.countdown :=
    load_of_debugMode rfl
  rw [hafter, load]
  omega

/-- A breakpoint exception uses a unit up, except at the start of its own handler. -/
theorem load_takeTrap (wf : WellFormed cfg h) (tval epc : Reg) :
    (h.takeTrap cfg (h.breakpointTrap tval) epc).load cfg +
      (if h.debugMode = true ∨ h.AtHandler cfg then 0 else 1) ≤ h.load cfg := by
  have same : SameDebug h (h.takeTrap cfg (h.breakpointTrap tval) epc) := .takeTrap h _ epc
  cases hd : h.debugMode with
  | true =>
    rw [load_of_debugMode (same.debugMode.trans hd), same.triggers, load_of_debugMode hd,
      if_pos (.inl rfl)]
    exact Nat.le_refl _
  | false =>
    have hat := atHandler_takeTrap wf hd tval epc
    rw [load, load, if_pos (.inr hat), same.debugMode, same.triggers, hd]
    omega

/-- Every action keeps the load. -/
theorem load_takeTriggerAction (wf : WellFormed cfg h) (action : Action) (tval epc : Reg) :
    (h.takeTriggerAction cfg action tval epc).load cfg ≤ h.load cfg := by
  have habort : h.abort.load cfg ≤ h.load cfg :=
    Quiet.load ⟨rfl, rfl, rfl, rfl, rfl, rfl, fun _ _ => rfl, Nat.le_refl _⟩ cfg
  cases action with
  | debugException => exact Nat.le_of_add_right_le (load_takeTrap wf tval epc)
  | debugMode => exact Nat.le_of_add_right_le (load_enterDebugMode cfg h dcsrCauseHwbp)
  | _ => exact habort

end Hart

/-! ### What a processor can use up -/

namespace Cpu

variable {σ ι : Type} {cfg : Config} {c c' : Cpu σ ι}

/-- What the processor can still use up, its request for serialization and its pending match
included. -/
def weight (cfg : Config) (c : Cpu σ ι) : Nat :=
  c.hart.load cfg + 2 * (!c.serialized).toNat + c.matchedTrigger.isSome.toNat

theorem isSome_le (m : Option Matched) : m.isSome.toNat ≤ 1 :=
  Bool.toNat_le _

/-- Without a pending match at the end, nothing has been added. -/
theorem Undisturbed.weight (u : Undisturbed c c') (hnone : c'.matchedTrigger = none) :
    c'.weight cfg + c.matchedTrigger.isSome.toNat ≤ c.weight cfg := by
  have hload := u.hart.load cfg
  rw [Cpu.weight, Cpu.weight, u.serialized, hnone, Option.isSome_none, Bool.toNat_false]
  omega

end Cpu

/-! ### Rounds -/

namespace Batch

open Nnemu.Core

variable {σ ι : Type} (core : Core σ ι) (b : Batch σ ι)

/-- **The round that gets nowhere.** The hart is at the first instruction of its breakpoint handler,
and the instruction is stopped by a match whose action is a breakpoint exception. -/
def Stuck : Prop :=
  ∃ c m c', b.attempt core = some (c, .error (.matched m) c') ∧ m.action = .debugException ∧
    c.matchedTrigger = none ∧ c.hart.AtHandler core.cfg

/-- The same, read off the attempt. -/
def gotStuck : Option (Cpu σ ι × EStateM.Result Thrown (Cpu σ ι) Reg) → Bool
  | some (c, .error (.matched m) _) =>
    m.action == .debugException && c.matchedTrigger.isNone && decide (c.hart.AtHandler core.cfg)
  | _ => false

theorem gotStuck_iff : gotStuck core (b.attempt core) = true ↔ b.Stuck core := by
  rw [Stuck]
  constructor
  · intro h
    unfold gotStuck at h
    split at h
    · rename_i c m c' hatt
      rw [Bool.and_eq_true, Bool.and_eq_true, beq_iff_eq, Option.isNone_iff_eq_none,
        decide_eq_true_eq] at h
      exact ⟨c, m, c', hatt, h.1.1, h.1.2, h.2⟩
    · cases h
  · rintro ⟨c, m, c', hatt, haction, hnone, hat⟩
    rw [hatt, gotStuck, haction, hnone, decide_eq_true hat]
    rfl

instance : Decidable (b.Stuck core) :=
  decidable_of_iff _ (b.gotStuck_iff core)

/-- How many instructions the batch has left. -/
def remaining : Nat :=
  if b.inner then b.n.toNat - b.instret.toNat else b.n.toNat

/-- The call is over, or the process. -/
def Done : Prop :=
  b.phase = .idle ∨ b.cpu.hart.aborted = true

/-- The invariant of a batch: there is room for another instruction in the inner loops. -/
structure Sound : Prop where
  wf : b.cpu.hart.WellFormed core.cfg
  room : b.inner = true → b.instret.toNat < b.n.toNat

/-- What gets less in every round. -/
def rank : Nat × Nat :=
  (b.remaining, 2 * b.cpu.weight core.cfg + (!b.inner).toNat)

/-- One round: `n` does not wrap, and the batch is over or its rank is less. -/
def Progress (b' : Batch σ ι) : Prop :=
  b'.n.toNat ≤ b.n.toNat ∧
    (b'.Done ∨ b'.Sound core ∧ Prod.Lex (· < ·) (· < ·) (b'.rank core) (b.rank core))

variable {core : Core σ ι} {b b' : Batch σ ι}

theorem remaining_le (b : Batch σ ι) : b.remaining ≤ b.n.toNat := by
  rw [remaining]
  split
  · exact Nat.sub_le _ _
  · exact Nat.le_refl _

theorem remaining_inner (hi : b.inner = true) : b.remaining = b.n.toNat - b.instret.toNat :=
  if_pos hi

theorem Sound.remaining_pos (s : b.Sound core) (hi : b.inner = true) : 0 < b.remaining := by
  have hroom := s.room hi
  rw [remaining_inner hi]
  omega

/-! ### Back at the head -/

/-- With fewer instructions left. -/
theorem Progress.of_less (wf : b'.cpu.hart.WellFormed core.cfg) (hphase : b'.phase = .head)
    (hlt : b'.n.toNat < b.remaining) : b.Progress core b' := by
  have hinner : b'.inner = false := inner_eq hphase
  refine ⟨Nat.le_trans (Nat.le_of_lt hlt) b.remaining_le,
    .inr ⟨⟨wf, fun hi => Bool.noConfusion (hinner.symm.trans hi)⟩, ?_⟩⟩
  refine Prod.Lex.left _ _ ?_
  rw [remaining, hinner, if_neg Bool.false_ne_true]
  exact hlt

/-- With as many instructions left, and less to use up. -/
theorem Progress.of_weight (wf : b'.cpu.hart.WellFormed core.cfg) (hphase : b'.phase = .head)
    (heq : b'.n.toNat = b.remaining) (hw : b'.cpu.weight core.cfg < b.cpu.weight core.cfg) :
    b.Progress core b' := by
  have hinner : b'.inner = false := inner_eq hphase
  refine ⟨heq ▸ b.remaining_le, .inr ⟨⟨wf, fun hi => Bool.noConfusion (hinner.symm.trans hi)⟩, ?_⟩⟩
  have hrem : b'.remaining = b.remaining := by
    rw [remaining, hinner, if_neg Bool.false_ne_true, heq]
  rw [rank, rank, hrem, hinner, Bool.not_false, Bool.toNat_true]
  refine Prod.Lex.right _ ?_
  omega

/-- In an inner loop with fewer instructions left. -/
theorem Progress.of_next (wf : b'.cpu.hart.WellFormed core.cfg) (hi : b'.inner = true)
    (hn : b'.n = b.n)
    (hroom : b'.instret.toNat < b'.n.toNat) (hlt : b'.n.toNat - b'.instret.toNat < b.remaining) :
    b.Progress core b' := by
  refine ⟨hn ▸ Nat.le_refl _, .inr ⟨⟨wf, fun _ => hroom⟩, Prod.Lex.left _ _ ?_⟩⟩
  rw [remaining_inner hi]
  exact hlt

/-! ### The end of the outer loop's body -/

theorem hart_leave (b : Batch σ ι) : b.leave.cpu.hart = b.cpu.hart.bump b.instret := by
  rw [leave, withHart, Cpu.hart_withHart]

theorem wellFormed_leave (wf : b.cpu.hart.WellFormed core.cfg) :
    b.leave.cpu.hart.WellFormed core.cfg := by
  rw [hart_leave]
  exact wf.bump b.instret

theorem undisturbed_leave (b : Batch σ ι) : b.cpu.Undisturbed b.leave.cpu := by
  rw [leave, withHart]
  exact .withHart (f := fun h => h.bump b.instret) (.bump _ _)

theorem weight_leave (b : Batch σ ι) : b.leave.cpu.weight core.cfg ≤ b.cpu.weight core.cfg := by
  have u := b.undisturbed_leave
  have hload := u.hart.load core.cfg
  have hmatched : b.leave.cpu.matchedTrigger = b.cpu.matchedTrigger := by
    rw [leave, withHart, Cpu.matchedTrigger_withHart]
  rw [Cpu.weight, Cpu.weight, u.serialized, hmatched]
  omega

theorem toNat_n_leave (hle : b.instret.toNat ≤ b.n.toNat) :
    b.leave.n.toNat = b.n.toNat - b.instret.toNat :=
  BitVec.toNat_sub_of_le hle

/-! ### What is thrown -/

theorem n_catchTrap (core : Core σ ι) (b : Batch σ ι) (t : Trap) :
    (b.catchTrap core t).n = 0#64 := by
  obtain ⟨c, -, heq⟩ := catchTrap_acted core b t
  rw [heq]
  exact BitVec.sub_self b.instret

/-- **A trap ends the batch.** -/
theorem progress_catchTrap (wf : b.cpu.hart.WellFormed core.cfg) (hpos : 0 < b'.remaining)
    (t : Trap) :
    b'.Progress core (b.catchTrap core t) := by
  obtain ⟨c, acted, heq⟩ := catchTrap_acted core b t
  refine .of_less ?_ ?_ ?_
  · rw [heq]
    exact wellFormed_leave (acted.hart.wellFormed wf)
  · rw [heq]
    rfl
  · rw [n_catchTrap]
    exact hpos

/-- **Waiting ends the batch.** -/
theorem progress_catchWait (wf : b.cpu.hart.WellFormed core.cfg) (hpos : 0 < b'.remaining) :
    b'.Progress core b.catchWait := by
  refine .of_less ?_ rfl ?_
  · refine wellFormed_leave ?_
    rw [withHart, Cpu.hart_withHart]
    exact (Hart.Quiet.inWfi _ _).wellFormed wf
  · have hn : b.catchWait.n = 0#64 := BitVec.sub_self (b.instret + 1#64)
    rw [hn]
    exact hpos

/-- A match is taken: the action is a breakpoint exception somewhere else, or debug entry, or uses
up a pending match or a count. -/
theorem progress_catchMatched (wf : b.cpu.hart.WellFormed core.cfg)
    (hle : b.instret.toNat ≤ b.n.toNat)
    (hrem : b.n.toNat - b.instret.toNat = b'.remaining) (m : Matched)
    (hw : m.action = .debugException ∨ m.action = .debugMode →
      (b.cpu.hart.takeTriggerAction core.cfg m.action m.address b.pc).load core.cfg +
        2 * (!b.cpu.serialized).toNat <
        b'.cpu.weight core.cfg) :
    b'.Progress core (b.catchMatched core m) := by
  rw [catchMatched_eq]
  have hhart : (b.cpu.actOn core.cfg m b.pc).hart =
      b.cpu.hart.takeTriggerAction core.cfg m.action m.address b.pc := Cpu.hart_withHart _ _
  have hser : (b.cpu.actOn core.cfg m b.pc).serialized = b.cpu.serialized :=
    Cpu.serialized_withHart _ _
  have hnone : (b.cpu.actOn core.cfg m b.pc).matchedTrigger = none :=
    Cpu.matchedTrigger_withHart _ _
  generalize b.cpu.actOn core.cfg m b.pc = c at hhart hser hnone
  have hn : (leave { b with cpu := c }).n.toNat = b'.remaining := (toNat_n_leave hle).trans hrem
  by_cases haction : m.action = .debugException ∨ m.action = .debugMode
  · refine .of_weight (wellFormed_leave ?_) rfl hn (Nat.lt_of_le_of_lt (weight_leave _) ?_)
    · rw [hhart]
      exact (Hart.Acted.takeTriggerAction _ _ _ _).wellFormed wf
    · rw [Cpu.weight, hhart, hser, hnone]
      exact hw haction
  · refine ⟨?_, .inl (.inr ?_)⟩
    · rw [hn]
      exact remaining_le b'
    · rw [hart_leave, hhart]
      cases hm : m.action with
      | debugException => exact absurd (.inl hm) haction
      | debugMode => exact absurd (.inr hm) haction
      | _ => rfl

/-! ### Attempts -/

/-- The next instruction, or none: either way there are fewer left. -/
theorem progress_retire (wf : b.cpu.hart.WellFormed core.cfg) (hroom : b.instret.toNat < b.n.toNat)
    (hrem : b.n.toNat - b.instret.toNat = b'.remaining) (hn : b.n = b'.n)
    {npc : Reg} (hnpc : npc ≠ pcSerializeBefore)
    {next : Phase ι} (hnext : next.inner = true) :
    b'.Progress core (b.advance npc next) := by
  have hplus : (b.instret + 1#64).toNat = b.instret.toNat + 1 := by
    have hlt := b.n.isLt
    rw [BitVec.toNat_add, BitVec.toNat_ofNat]
    omega
  rw [advance, if_neg hnpc]
  split
  · split
    · refine .of_less (wellFormed_leave wf) rfl ?_
      rw [toNat_n_leave (by rw [hplus]; exact hroom)]
      dsimp only
      omega
    · refine ⟨?_, .inl (.inr ?_)⟩
      · rw [← hn]
        exact Nat.le_refl _
      · rw [withHart, Cpu.hart_withHart]
        rfl
  · dsimp only
    have wf' : (b.withHart fun h => { h with pc := npc }).cpu.hart.WellFormed core.cfg := by
      rw [withHart, Cpu.hart_withHart]
      exact wf.withPc npc
    split
    · rename_i hlt
      refine .of_next wf' hnext hn hlt ?_
      dsimp only
      rw [hplus]
      show b.n.toNat - _ < _
      omega
    · refine .of_less (wellFormed_leave wf') rfl ?_
      rw [toNat_n_leave (by rw [hplus]; exact hroom)]
      dsimp only
      rw [hplus]
      show b.n.toNat - _ < _
      omega

/-- Serialization is asked for. -/
theorem progress_before (wf : b.cpu.hart.WellFormed core.cfg) (hle : b.instret.toNat ≤ b.n.toNat)
    (hrem : b.n.toNat - b.instret.toNat = b'.remaining) (hs : b'.cpu.serialized = false)
    (u : b'.cpu.Undisturbed b.cpu) (next : Phase ι) :
    b'.Progress core (b.advance pcSerializeBefore next) := by
  show b'.Progress core (leave { b with cpu := { b.cpu with serialized := true } })
  refine .of_weight (wellFormed_leave wf) rfl
    ((toNat_n_leave hle).trans hrem) (Nat.lt_of_le_of_lt (weight_leave _) ?_)
  have hload := u.hart.load core.cfg
  have hone := Cpu.isSome_le b.cpu.matchedTrigger
  rw [Cpu.weight, Cpu.weight, hs]
  show b.cpu.hart.load core.cfg + 2 * 0 + b.cpu.matchedTrigger.isSome.toNat < _
  rw [Bool.not_false, Bool.toNat_true]
  omega

/-- **An instruction is thrown back**: unless it rebreaks, the batch gets on. -/
theorem progress_caught (law : core.Lawful) {c c' : Cpu σ ι} (l : c.Linked core.cfg)
    (u : b'.cpu.Undisturbed c) (hm : c.matchedTrigger = b'.cpu.matchedTrigger) (hb : b.cpu = c')
    (hroom : b.instret.toNat < b.n.toNat) (hrem : b.n.toNat - b.instret.toNat = b'.remaining)
    {pc : Reg}
    (heven : pc.getLsbD 0 = false) {d : Option (ι × Cpu σ ι)} {e : Thrown}
    (a : Attempt core pc c d (.error e c'))
    (hgo : ∀ m, e = .matched m → m.action = .debugException → c.matchedTrigger = none →
      ¬c.hart.AtHandler core.cfg) :
    b'.Progress core (b.caught core e) := by
  have hpos : 0 < b'.remaining := by omega
  have wf' : b.cpu.hart.WellFormed core.cfg := hb ▸ (a.linked law l heven).fit.wf
  cases e with
  | trap t => exact progress_catchTrap wf' hpos t
  | waitForInterrupt => exact progress_catchWait wf' hpos
  | debugMode =>
    obtain ⟨i, hd⟩ := a.debugMode law heven
    have u' := i.toUndisturbed
    subst hb
    have u := u.trans u'
    have hd : b.cpu.hart.debugMode = false := u'.hart.debugMode.trans hd
    show b'.Progress core (leave (b.withHart (·.enterDebugMode core.cfg dcsrCauseSwbp)))
    refine .of_weight (wellFormed_leave ?_) rfl ((toNat_n_leave (Nat.le_of_lt hroom)).trans hrem)
      (Nat.lt_of_le_of_lt (weight_leave _) ?_)
    · rw [withHart, Cpu.hart_withHart]
      exact wf'.enterDebugMode _
    -- the breakpoint ends in debug mode, which the hart was not in
    · have hload := u.hart.load core.cfg
      have henter := Hart.load_enterDebugMode core.cfg b.cpu.hart dcsrCauseSwbp
      have hone := Cpu.isSome_le b.cpu.matchedTrigger
      rw [hd, Bool.not_false, Bool.toNat_true] at henter
      rw [Cpu.weight, Cpu.weight, withHart, Cpu.hart_withHart, Cpu.serialized_withHart,
        Cpu.matchedTrigger_withHart,
        u.serialized]
      omega
  | matched m =>
    refine progress_catchMatched wf' (Nat.le_of_lt hroom) hrem m fun haction => ?_
    have hact := Hart.load_takeTriggerAction wf' m.action m.address b.pc
    obtain ⟨hdue, rfl⟩ | ⟨i, hd⟩ := a.matched law heven
    -- the match left over from the last access is used up
    · subst hb
      have hload := u.hart.load core.cfg
      rw [Cpu.weight, ← u.serialized, ← hm, hdue, Option.isSome_some, Bool.toNat_true]
      omega
    · have u' := i.toUndisturbed
      subst hb
      have hload := (u.trans u').hart.load core.cfg
      rw [Cpu.weight, ← (u.trans u').serialized]
      cases hnone : c.matchedTrigger with
      | some m' =>
        rw [← hm, hnone, Option.isSome_some, Bool.toNat_true]
        omega
      | none =>
        rw [← hm, hnone, Option.isSome_none, Bool.toNat_false]
        obtain haction | haction := haction
        -- a new match that traps: the hart was not at its handler, and is now
        · have hnot : ¬(b.cpu.hart.debugMode = true ∨ b.cpu.hart.AtHandler core.cfg) := by
            rintro (hd' | hat)
            · rw [u'.hart.debugMode, hd] at hd'
              cases hd'
            · exact hgo m rfl haction hnone (u'.hart.atHandler.1 hat)
          have hlt := Hart.load_takeTrap wf' m.address b.pc
          rw [if_neg hnot] at hlt
          rw [haction]
          show (b.cpu.hart.takeTrap core.cfg _ _).load core.cfg + _ < _
          omega
        -- a new match that enters debug mode
        · have henter := Hart.load_enterDebugMode core.cfg b.cpu.hart dcsrCauseHwbp
          rw [u'.hart.debugMode, hd, Bool.not_false, Bool.toNat_true] at henter
          rw [haction]
          show (b.cpu.hart.enterDebugMode core.cfg _).load core.cfg + _ < _
          omega

/-! ### Ticks -/

/-- The head of the outer loop, where no interrupt is taken. -/
theorem progress_entered (s : b.Sound core) (hphase : b.phase = .head)
    (hn : b.n ≠ 0#64) (t : Tested b.atHead b')
    {next : Phase ι} (hnext : next.inner = true) : b.Progress core { b' with phase := next } := by
  have hi : b.inner = false := inner_eq hphase
  have hn' : b'.n = b.n := t.n
  have hinstret : b'.instret = 0#64 := t.instret
  have hroom : b'.instret.toNat < b'.n.toNat := by
    rw [hn', hinstret]
    exact Nat.pos_of_ne_zero fun hz => hn (BitVec.eq_of_toNat_eq hz)
  have hrem : ({ b' with phase := next } : Batch σ ι).remaining = b.remaining := by
    rw [remaining_inner (b := { b' with phase := next }) hnext, remaining,
      hi, if_neg Bool.false_ne_true]
    show b'.n.toNat - b'.instret.toNat = _
    rw [hn', hinstret]
    exact Nat.sub_zero _
  have hweight : b'.cpu.weight core.cfg ≤ b.cpu.weight core.cfg := by
    have hload := t.undisturbed.hart.load core.cfg
    have hs : b'.cpu.serialized = b.cpu.serialized := t.undisturbed.serialized
    have hm : b'.cpu.matchedTrigger = b.cpu.matchedTrigger := t.matchedTrigger
    rw [Cpu.weight, Cpu.weight, hs, hm]
    exact Nat.add_le_add_right (Nat.add_le_add_right hload _) _
  have hinner : ({ b' with phase := next } : Batch σ ι).inner = true := hnext
  refine ⟨?_, .inr ⟨⟨t.undisturbed.hart.wellFormed s.wf, fun _ => hroom⟩, ?_⟩⟩
  · show b'.n.toNat ≤ _
    rw [hn']
  · rw [rank, rank, hrem, hi, hinner, Bool.not_false, Bool.toNat_true,
      Bool.not_true, Bool.toNat_false]
    refine Prod.Lex.right _ ?_
    show 2 * b'.cpu.weight core.cfg + 0 < 2 * b.cpu.weight core.cfg + 1
    omega

/-- An instruction retires on the fast path, and the next entry is known. -/
theorem progress_linked (s : b.Sound core) (hi : b.inner = true) {c : Cpu σ ι}
    (wf : c.hart.WellFormed core.cfg)
    {npc : Reg} {next : Phase ι} (hnext : next.inner = true) (hne : b.instret + 1#64 ≠ b.n) :
    b.Progress core { b with
      cpu := c.withHart fun h => { h with pc := npc }
      pc := npc
      instret := b.instret + 1#64
      phase := next } := by
  have hroom := s.room hi
  have hplus : (b.instret + 1#64).toNat = b.instret.toNat + 1 := by
    have hlt := b.n.isLt
    rw [BitVec.toNat_add, BitVec.toNat_ofNat]
    omega
  have hless : b.instret.toNat + 1 ≠ b.n.toNat := by
    rw [← hplus]
    exact fun heq => hne (BitVec.eq_of_toNat_eq heq)
  refine .of_next ?_ hnext rfl ?_ ?_
  · rw [Cpu.hart_withHart]
    exact wf.withPc npc
  · dsimp only
    omega
  · rw [remaining_inner hi]
    dsimp only
    omega

/-- **One tick.** -/
theorem progress_tick (law : core.Lawful) (s : b.Sound core) (l : b.Linked core.cfg)
    (hgo : ¬b.Stuck core) : b.Progress core (b.tick core) := by
  cases ha : b.cpu.hart.aborted with
  | true =>
    rw [tick, ha, if_pos rfl]
    exact ⟨Nat.le_refl _, .inl (.inl rfl)⟩
  | false =>
    have hinner (hphase : b.phase = .slow) : b.inner = true := inner_eq hphase
    have hpos (hphase : b.phase = .head) (hn : b.n ≠ 0#64) : 0 < b.remaining := by
      rw [remaining, inner, hphase]
      exact Nat.pos_of_ne_zero fun hz => hn (BitVec.eq_of_toNat_eq hz)
    have hroom {b₁ : Batch σ ι} (t : Tested b b₁) (hi : b.inner = true) :
        b₁.instret.toNat < b₁.n.toNat := by
      rw [t.n, t.instret]
      exact s.room hi
    have hrem {b₁ : Batch σ ι} (t : Tested b b₁) (hi : b.inner = true) :
        b₁.n.toNat - b₁.instret.toNat = b.remaining := by
      rw [t.n, t.instret]
      exact (remaining_inner hi).symm
    have hwf {b₁ : Batch σ ι} (t : Tested b b₁) : b₁.cpu.hart.WellFormed core.cfg :=
      t.undisturbed.hart.wellFormed s.wf
    have hticks := tick_cases core b ha
    generalize b.tick core = b' at hticks
    cases hticks with
    | idle hphase => exact ⟨Nat.le_refl _, .inl (.inl hphase)⟩
    | done hphase hn => exact ⟨Nat.le_refl _, .inl (.inl rfl)⟩
    | entered hphase hn t hnext => exact progress_entered s hphase hn t hnext
    | interrupted hphase hn t htake =>
      exact progress_catchTrap (t.undisturbed.hart.wellFormed s.wf) (hpos hphase hn) _
    | @crashed hphase hn b₁ t =>
      refine ⟨?_, .inl (.inr ?_)⟩
      · show b₁.n.toNat ≤ _
        rw [t.n]
        exact Nat.le_refl _
      · rw [withHart, Cpu.hart_withHart]
        rfl
    -- no progress by instructions, but the hart is in debug mode now, which lowers its load
    | @stepped hphase b₁ htests t hs hd =>
      have hi := hinner hphase
      have henter := Hart.load_enterDebugMode core.cfg b₁.cpu.hart dcsrCauseStep
      rw [hd, Bool.not_false, Bool.toNat_true] at henter
      refine .of_weight (wellFormed_leave ?_) rfl
        ((toNat_n_leave (Nat.le_of_lt (hroom t hi))).trans (hrem t hi))
        (Nat.lt_of_le_of_lt (weight_leave _) ?_)
      · rw [withHart, Cpu.hart_withHart]
        exact (hwf t).enterDebugMode _
      · have hload := t.undisturbed.hart.load core.cfg
        rw [Cpu.weight, Cpu.weight, withHart, Cpu.hart_withHart, Cpu.serialized_withHart,
          Cpu.matchedTrigger_withHart,
          t.undisturbed.serialized, t.matchedTrigger]
        omega
    | @counted hphase b₁ m htests t hs hd hlt =>
      have hi := hinner hphase
      refine progress_catchMatched (hwf t) (Nat.le_of_lt (hroom t hi)) (hrem t hi) m fun _ => ?_
      have hact := Hart.load_takeTriggerAction (hwf t) m.action m.address b₁.pc
      have hless : b₁.cpu.hart.load core.cfg < b.cpu.hart.load core.cfg :=
        t.undisturbed.hart.load_lt hlt
      rw [Cpu.weight, t.undisturbed.serialized]
      omega
    | waiting hphase htests t => exact progress_catchWait (hwf t) (s.remaining_pos (hinner hphase))
    -- the serialization retires nothing, but sets the flag that keeps it from coming back
    | @returned hi b₁ t npc c hatt a next hnext =>
      have hroom₁ := hroom t hi
      have hrem₁ := hrem t hi
      have wf : c.hart.WellFormed core.cfg :=
        (a.linked law (t.linked l).cpu (l.pc hi)).fit.wf
      by_cases hbefore : npc = pcSerializeBefore
      · subst hbefore
        obtain ⟨i, hs⟩ := a.before law (l.pc hi)
        exact progress_before (b := { b₁ with cpu := c }) wf (Nat.le_of_lt hroom₁) hrem₁
          (t.undisturbed.serialized ▸ hs) (t.undisturbed.trans i.toUndisturbed) next
      · exact progress_retire (b := { b₁ with cpu := c }) wf hroom₁ hrem₁ t.n hbefore hnext
    | linked hphase hatt a htag hnext hne =>
      have hi : b.inner = true := inner_eq hphase
      exact progress_linked s hi (a.linked law l.cpu (l.pc hi)).fit.wf rfl hne
    | @thrown hi b₁ t e c hatt a =>
      have hroom₁ := hroom t hi
      have hrem₁ := hrem t hi
      refine progress_caught (b := { b₁ with cpu := c }) law (t.linked l).cpu t.undisturbed
        t.matchedTrigger rfl hroom₁ hrem₁ (l.pc hi) a fun m hm haction hnone hat => hgo ?_
      subst hm
      exact ⟨_, m, c, hatt, haction, hnone, hat⟩

/-! ### Calls of `step` -/

theorem aborted_call (core : Core σ ι) (b : Batch σ ι) (request : HaltRequest) (n : BitVec 64) :
    (b.call core request n).cpu.hart.aborted = b.cpu.hart.aborted := by
  have enter (cause : Reg) :
      (b.withHart (·.enterDebugMode core.cfg cause)).cpu.hart.aborted = b.cpu.hart.aborted := by
    rw [withHart, Cpu.hart_withHart]
    rfl
  unfold call
  extract_lets enterDebug b₁
  show Hart.aborted (Batch.cpu (if _ then _ else _)).hart = _
  split
  · rfl
  · cases request with
    | none =>
      dsimp only
      split
      · exact enter _
      · rfl
    | regular => exact enter _
    | group => exact enter _

/-- A call that is over stays over. -/
theorem tick_done (hdone : b.Done) : (b.tick core).Done ∧ (b.tick core).n = b.n := by
  rw [tick]
  split
  · exact ⟨.inl rfl, rfl⟩
  · obtain hidle | habort := hdone
    · rw [hidle]
      exact ⟨.inl hidle, rfl⟩
    · contradiction

/-- What a call keeps as long as it is not over. -/
def Runs (core : Core σ ι) (b : Batch σ ι) : Prop :=
  b.Sound core ∧ b.Linked core.cfg

/-- One tick of a call that is under way. -/
theorem runs_tick (law : core.Lawful) (s : b.Runs core) (hgo : ¬b.Stuck core) :
    (b.tick core).Done ∨
      (b.tick core).Runs core ∧
        Prod.Lex (· < ·) (· < ·) ((b.tick core).rank core) (b.rank core) := by
  obtain hdone | ⟨sound, hlt⟩ := (progress_tick law s.1 s.2 hgo).2
  · exact .inl hdone
  · cases ha : b.cpu.hart.aborted with
    | true => exact .inl (tick_done (.inr ha)).1
    | false =>
      cases ha' : (b.tick core).cpu.hart.aborted with
      | true => exact .inl (.inr ha')
      | false => exact .inr ⟨⟨sound, linked_tick law s.2 ha ha'⟩, hlt⟩

/-- A call that is over returns. -/
theorem idle_of_done (core : Core σ ι) {k : Nat} (hdone : ((tick core)^[k] b).Done) :
    ∃ k, ((tick core)^[k] b).phase = .idle := by
  obtain hidle | habort := hdone
  · exact ⟨k, hidle⟩
  · refine ⟨k + 1, ?_⟩
    rw [Function.iterate_succ_apply', tick, habort, if_pos rfl]

/-- A call that has returned stays where it is. -/
theorem iterate_idle (core : Core σ ι) (hidle : b.phase = .idle) (ha : b.cpu.hart.aborted = false)
    (k : Nat) :
    ((tick core)^[k] b).phase = .idle := by
  have hfix : b.tick core = b := by
    rw [tick, ha, if_neg Bool.false_ne_true, hidle]
  rw [Function.iterate_fixed hfix, hidle]

/-- **`step(n)` returns, and `n` does not wrap**, where no round gets nowhere. -/
theorem returns (law : core.Lawful) (f : b.Fresh core) (ops : List (LoopOp σ))
    (request : HaltRequest) (n : BitVec 64)
    (hgo : ∀ k, ¬((tick core)^[k] ((Run.run (play core) b ops).call core request n)).Stuck core) :
    (∃ k, ((tick core)^[k] ((Run.run (play core) b ops).call core request n)).phase = .idle) ∧
      ∀ k, ((tick core)^[k + 1] ((Run.run (play core) b ops).call core request n)).n.toNat ≤
        ((tick core)^[k] ((Run.run (play core) b ops).call core request n)).n.toNat := by
  have start : ((Run.run (play core) b ops).call core request n).Done ∨
      ((Run.run (play core) b ops).call core request n).Runs core := by
    cases ha : (Run.run (play core) b ops).cpu.hart.aborted with
    | true => exact .inl (.inr ((aborted_call core _ request n).trans ha))
    | false =>
      have l := linked_call (f.linked_run law ops ha).cpu request n
      exact .inr ⟨⟨l.cpu.fit.wf, fun hi => Bool.noConfusion (show false = true from hi)⟩, l⟩
  generalize (Run.run (play core) b ops).call core request n = b₀ at hgo start
  constructor
  · obtain hdone | s := start
    · exact idle_of_done core (k := 0) hdone
    · obtain ⟨k, hdone⟩ := Run.exists_of_descent (f := tick core) (I := Runs core)
        (P := fun b => ¬b.Stuck core) (G := Done) (Prod.lex Nat.lt_wfRel Nat.lt_wfRel).wf
        (rank core) (fun b s hgo => runs_tick law s hgo) s hgo
      exact idle_of_done core hdone
  · intro k
    have hI : ((tick core)^[k] b₀).Done ∨ ((tick core)^[k] b₀).Runs core := by
      refine Run.iterate_induct (I := fun b : Batch σ ι => b.Done ∨ b.Runs core)
        (P := fun b => ¬b.Stuck core) (fun b hI hgo => ?_) start hgo k
      obtain hdone | s := hI
      · exact .inl (tick_done hdone).1
      · exact (runs_tick law s hgo).imp_right And.left
    rw [Function.iterate_succ_apply']
    obtain hdone | s := hI
    · rw [(tick_done hdone).2]
    · exact (progress_tick law s.1 s.2 (hgo k)).1

end Batch

end Nnemu

import Nnemu.Loop.Termination
import Nnemu.Proc.Lawful

/-!
# Calls of `step` that return

On the processor of the built instructions every call of `step(n)` returns, unless a round gets
nowhere: a breakpoint handler whose first instruction is stopped by a trigger, of which the action
is a breakpoint exception. Such a round is not rare, as it takes one write to `tdata1`.
-/

namespace Nnemu

open Trigger

/-! ### Built processors -/

namespace Setup

/-- A board with RAM everywhere. -/
def ramOnly (cfg : Config) : Setup Unit where
  cfg := cfg
  logged := false
  misaligned := false
  bus := ramBus
  signals := fun _ _ => []

/-- A processor that has been built, with this hart, and RAM with these doublewords. -/
def boot (cfg : Config) (h : Hart) (ram : List (Reg × Reg)) :
    Batch (Machine 64 (Periphery Unit)) InsnFetch where
  cpu :=
    { hart := h
      serialized := false
      checkTriggersIcount := h.triggers.any icountCheckNeeded
      matchedTrigger := none
      icache := fun _ => ⟨invalidTag, 0, ⟨⟨.illegalInstruction, ⟨false, false⟩⟩, 0#64⟩⟩
      ledger := ⟨h.reg .minstret, none⟩
      rest :=
        { xpr := .reset
          fpr := fun _ => 0#128
          world :=
            { tlb := Tlb.flushed.triggerUpdated h.triggers
              flushes := h.tlbFlushes
              world := .ofDoublewords ram
              reservation := noReservation
              decoder := .built cfg.isa } } }
  n := 0#64
  instret := 0#64
  pc := 0#64
  phase := .idle

theorem fresh_boot {cfg : Config} {h : Hart} (hr : Hart.Reachable cfg h) (ram : List (Reg × Reg)) :
    (boot cfg h ram).Fresh (ramOnly cfg).hartCore :=
  ⟨rfl, hr, rfl, fun _ => rfl, rfl, rfl, rfl⟩

end Setup

/-- The core of such a board. -/
abbrev ramCore : Core (Machine 64 (Periphery Unit)) InsnFetch :=
  (Setup.ramOnly rv64h).hartCore

namespace Batch

open Nnemu.Core

/-! ### Calls that return -/

/-- **`step(n)` returns, and `n` does not wrap**, in every call from a reachable state of which no
round gets nowhere. The bound on the number of ticks is not given; that there is one follows from
the rank that every other round makes smaller. -/
theorem step_returns {δ : Type} (p : Setup δ)
    {b : Batch (Machine 64 (Periphery δ)) InsnFetch} (f : b.Fresh p.hartCore)
    (ops : List (LoopOp (Machine 64 (Periphery δ)))) (request : HaltRequest) (n : BitVec 64)
    (hgo : ∀ k, ¬((tick p.hartCore)^[k]
      ((Run.run (play p.hartCore) b ops).call p.hartCore request n)).Stuck p.hartCore) :
    (∃ k, ((tick p.hartCore)^[k]
        ((Run.run (play p.hartCore) b ops).call p.hartCore request n)).phase = .idle) ∧
      ∀ k,
        ((tick p.hartCore)^[k + 1]
          ((Run.run (play p.hartCore) b ops).call p.hartCore request n)).n.toNat ≤
        ((tick p.hartCore)^[k]
          ((Run.run (play p.hartCore) b ops).call p.hartCore request n)).n.toNat :=
  returns p.hartCore_lawful f ops request n hgo

/-- A trigger on the execution in M of the instruction at which the hart is. Its action is a
breakpoint exception, and the handler is at another address. -/
def trappingHart : Hart :=
  (Hart.init rv64h false).runFrom rv64h
    [.csr 0x7a2 (.write 0x1008#64) 0x7a201073#64,
      .csr 0x7a1 (.write 0x2000000000000044#64) 0x7a101073#64]

/-- The trap is taken, and the handler is an instruction that traps. -/
theorem step_returns_trap :
    (∃ k, ((tick ramCore)^[k]
        ((Setup.boot rv64h trappingHart []).call ramCore .none 1#64)).phase = .idle) ∧
      ∀ k,
        ((tick ramCore)^[k + 1]
          ((Setup.boot rv64h trappingHart []).call ramCore .none 1#64)).n.toNat ≤
        ((tick ramCore)^[k]
          ((Setup.boot rv64h trappingHart []).call ramCore .none 1#64)).n.toNat := by
  refine step_returns (Setup.ramOnly rv64h) (Setup.fresh_boot ⟨false, _, rfl⟩ []) [] .none 1#64
    fun k => ?_
  match k with
  | 0 => decide +kernel
  | 1 => decide +kernel
  | 2 => decide +kernel
  | 3 => decide +kernel
  | 4 => decide +kernel
  | k + 5 =>
    -- the call is over
    rintro ⟨c, m, c', hatt, -⟩
    rw [Function.iterate_add_apply, attempt,
      iterate_idle _ (Phase.eq_idle (by decide +kernel)) (by decide +kernel) k] at hatt
    cases hatt

end Batch

/-! ### A call that does not return -/

namespace Periphery

/-- A TLB without the address has none behind a flush. -/
theorem hitFetch_catchUp {δ : Type} {u : Periphery δ} (hmiss : u.tlb.hitFetch 0#64 = false)
    (h : Hart) : (u.catchUp h).tlb.hitFetch 0#64 = false := by
  rw [catchUp]
  split
  · exact hmiss
  · rfl

end Periphery

namespace Setup

/-- A fetch that misses the TLB looks at the triggers first. -/
theorem fetch_matched {cfg : Config} {addr : Reg} {c : HartCpu Unit} {ts : Triggers}
    {action : Action} (hnone : c.matchedTrigger = none)
    (hmiss : (c.rest.catchUp c.hart).tlb.hitFetch addr = false)
    (hfound : c.hart.triggers.detectMemoryAccessMatch (c.hart.matchEnv cfg) .execute addr none =
      (ts, some ⟨.before, action⟩)) :
    ∃ u : Periphery Unit, u.tlb = (c.rest.catchUp c.hart).tlb ∧
      (ramOnly cfg).fetch addr c = .error (.matched ⟨.execute, addr, action⟩)
        { c with hart := { c.hart with triggers := ts }, rest := u } := by
  let s := reserving c
  let c₁ : Cpu Files InsnFetch := { s.hart.1 with hart := { c.hart with triggers := ts } }
  have hcheck : checkTriggers cfg .execute addr none s.hart.1 =
      .error (.matched ⟨.execute, addr, action⟩) c₁ := by
    have hnone' : s.hart.1.matchedTrigger.isSome = false := congrArg Option.isSome hnone
    have hfound' : s.hart.1.hart.triggers.detectMemoryAccessMatch (s.hart.1.hart.matchEnv cfg)
        .execute addr none = (ts, some ⟨.before, action⟩) := hfound
    rw [checkTriggers, hnone', if_neg Bool.false_ne_true]
    dsimp only
    rw [hfound', HartMmu.withHart_triggers]
    rfl
  have hdata : HartMmu.checkData cfg .execute addr none s.hart =
      .error (.matched .execute addr action) (c₁, s.hart.2) := by
    rw [HartMmu.checkData, hcheck]
  have hfetch : HartMmu.fetch cfg ramBus addr s.hart =
      .error (.matched .execute addr action) (c₁, s.hart.2) := by
    have hslow : HartMmu.fetch cfg ramBus addr s.hart =
        HartMmu.fetchSlowPath cfg ramBus addr s.hart :=
      congrFun (if_neg (Bool.not_eq_true _ ▸ hmiss)) s.hart
    rw [hslow]
    exact Exec.bind_of_error hdata
  have hparcel : (HartMmu.aside (HartMmu.fetch cfg ramBus addr)) s =
      .error (.matched .execute addr action) { s with hart := (c₁, s.hart.2) } := by
    rw [HartMmu.aside, hfetch]
  have hbits : (ramOnly cfg).insnBits addr s =
      .error (.matched .execute addr action) { s with hart := (c₁, s.hart.2) } :=
    Exec.bind_of_error (Exec.bind_of_error hparcel)
  have haccess : (ramOnly cfg).access ((ramOnly cfg).insnBits addr) c =
      .error (.matched ⟨.execute, addr, action⟩)
        ((ramOnly cfg).settle c { s with hart := (c₁, s.hart.2) }) := by
    rw [access, hbits]
  exact ⟨((ramOnly cfg).settle c { s with hart := (c₁, s.hart.2) }).rest, rfl,
    Exec.bind_of_error haccess⟩

end Setup

/-- What a program does to the hart before: it writes `tdata1`, and gets a breakpoint exception
with `mtvec` as it is after a reset. The trigger is one on the execution in M of the instruction at
0, with a breakpoint exception as its action. -/
def spinningOps : List HartOp :=
  [.csr 0x7a1 (.write 0x2000000000000044#64) 0x7a101073#64,
    .exception 3 false 0#64 0#64 0#64]

/-- The hart in the first instruction of the handler. -/
def spinningHart : Hart :=
  (Hart.init rv64h false).runFrom rv64h spinningOps

/-- The triggers of that hart. -/
def spinningTriggers (hit : Bool) : Triggers :=
  { Trigger.reset with
    m := true
    body := .mcontrol
      { dmode := false, action := .debugException, hit := hit, select := false, timing := false,
        chain := false, matchType := .equal, execute := true, store := false, load := false } } ::
    List.replicate 3 Trigger.reset

/-- The trigger matches again and again. -/
theorem detect_spinning (env : MatchEnv) (hprv : env.prv = prvM) (hd : env.debugMode = false)
    (hx : env.xlen = .rv64) (hit : Bool) :
    (spinningTriggers hit).detectMemoryAccessMatch env .execute 0#64 none =
      (spinningTriggers true, some ⟨.before, .debugException⟩) := by
  obtain ⟨⟨xlen, constS, constU, enabledH, debugMode⟩, prv, v, scontext, satp, mcontext, hgatp⟩ :=
    env
  cases hprv
  cases hd
  cases hx
  cases enabledH <;> rfl

/-- The hart at the head of the outer loop, every time. -/
structure SpinningHart (h : Hart) : Prop where
  place : h.place = ⟨0#64, prvM, false⟩
  debugMode : h.debugMode = false
  singleStep : h.singleStep = .none
  inWfi : h.inWfi = false
  aborted : h.aborted = false
  mip : h.reg .mip = 0#64
  mtvec : h.reg .mtvec = 0#64
  triggers : ∃ hit, h.triggers = spinningTriggers hit

namespace SpinningHart

variable {h : Hart}

theorem matched (s : SpinningHart h) : SpinningHart { h with triggers := spinningTriggers true } :=
  { s with triggers := ⟨true, rfl⟩ }

theorem bump (s : SpinningHart h) (instret : Reg) : SpinningHart (h.bump instret) := by
  have hreg {c : Csr} (hc : c.volatile = false) : (h.bump instret).reg c = h.reg c :=
    (Hart.Quiet.bump h instret).reg c hc
  exact { s with mip := s.mip, mtvec := (hreg rfl).trans s.mtvec }

/-- The breakpoint exception leads to where the hart is. -/
theorem takeTrap (s : SpinningHart h) (tval epc : Reg) :
    SpinningHart (h.takeTrap rv64h (h.breakpointTrap tval) epc) := by
  have hplace := @Hart.place_takeTrap rv64h h s.debugMode (h.breakpointTrap tval) epc
  have same : h.SameDebug (h.takeTrap rv64h (h.breakpointTrap tval) epc) := .takeTrap h _ _
  have regs : Hart.RegFrame Csr.control h (h.takeTrap rv64h (h.breakpointTrap tval) epc) :=
    (Hart.ControlWrites.takeTrap (h.breakpointTrap tval) epc).regFrame
  have hprv : h.prv = prvM := congrArg Place.prv s.place
  have hv : h.v = false := congrArg Place.v s.place
  have hdest : h.trapDestination rv64h (h.breakpointTrap tval) = .m :=
    Hart.trapDestination_machine (by rw [hprv]; decide) _
  have htrap : h.trapPlace rv64h (h.breakpointTrap tval) = ⟨0#64, prvM, false⟩ := by
    have hnmie : h.nmie rv64h = true := rfl
    rw [Hart.trapPlace, hdest]
    dsimp only
    rw [hnmie, if_pos rfl, s.mtvec, Hart.legalizePrivilege_machine, hv, Bool.false_and]
    rfl
  exact
    { place := hplace.trans htrap
      debugMode := same.debugMode.trans s.debugMode
      singleStep := same.singleStep.trans s.singleStep
      inWfi := same.inWfi.trans s.inWfi
      aborted := same.aborted.trans s.aborted
      mip := (regs.reg .mip rfl).trans s.mip
      mtvec := (regs.reg .mtvec rfl).trans s.mtvec
      triggers := s.triggers.imp fun _ heq => same.triggers.trans heq }

end SpinningHart

/-- The processor at the head of the outer loop, every time. -/
structure Spinning (c : Cpu (Machine 64 (Periphery Unit)) InsnFetch) : Prop where
  hart : SpinningHart c.hart
  matchedTrigger : c.matchedTrigger = none
  checkTriggersIcount : c.checkTriggersIcount = false
  icache : ∀ i, (c.icache i).tag = invalidTag
  tlb : c.rest.world.tlb.hitFetch 0#64 = false

namespace Spinning

variable {c : Cpu (Machine 64 (Periphery Unit)) InsnFetch}

/-- The fetch is stopped. -/
theorem stopped (s : Spinning c) :
    ∃ c', ramCore.fetch 0#64 c =
        .error (.matched ⟨.execute, 0#64, .debugException⟩) c' ∧ Spinning c' := by
  obtain ⟨hit, hts⟩ := s.hart.triggers
  have hfound : c.hart.triggers.detectMemoryAccessMatch (c.hart.matchEnv rv64h) .execute 0#64
      none = (spinningTriggers true, some ⟨.before, .debugException⟩) := by
    rw [hts]
    exact detect_spinning _ (congrArg Place.prv s.hart.place) s.hart.debugMode rfl hit
  have hmiss := Periphery.hitFetch_catchUp s.tlb c.hart
  obtain ⟨u, hu, hfetch⟩ := @Setup.fetch_matched rv64h 0#64
    (c.withRest c.rest.world) _ _ s.matchedTrigger hmiss hfound
  have hcore : ramCore.fetch 0#64 c =
      .error (.matched ⟨.execute, 0#64, .debugException⟩)
        { c with
          hart := { c.hart with triggers := spinningTriggers true }
          rest := { c.rest with world := u } } := by
    show InsnM.access _ c = _
    rw [InsnM.access, hfetch]
    rfl
  exact ⟨_, hcore, s.hart.matched, s.matchedTrigger, s.checkTriggersIcount, s.icache,
    (congrArg (·.hitFetch 0#64) hu).trans hmiss⟩

/-- A step of the hart behind which it is there again. -/
theorem withHart (s : Spinning c) {f : Hart → Hart} (hf : SpinningHart (f c.hart)) :
    Spinning (c.withHart f) where
  hart := by
    rw [Cpu.hart_withHart]
    exact hf
  matchedTrigger := (c.matchedTrigger_withHart f).trans s.matchedTrigger
  checkTriggersIcount := (c.checkTriggersIcount_withHart f).trans s.checkTriggersIcount
  icache := Cpu.icache_withHart c f s.icache
  tlb := by
    rw [Cpu.rest_withHart]
    exact s.tlb

end Spinning

namespace Batch

open Nnemu.Core

/-- The batch at the head of the outer loop, every time. -/
structure Spins (b : Batch (Machine 64 (Periphery Unit)) InsnFetch) : Prop where
  phase : b.phase = .head
  n : b.n = 1#64
  cpu : Spinning b.cpu

namespace Spins

variable {b : Batch (Machine 64 (Periphery Unit)) InsnFetch}

/-- Nothing is pending, and the fast path is entered. -/
theorem enters (s : Spins b) :
    b.tick ramCore =
      { b with instret := 0#64, pc := b.cpu.hart.pc, phase := .fast none } := by
  have hpending : b.cpu.hart.pendingInterrupts = 0#64 := by
    rw [Hart.pendingInterrupts]
    show b.cpu.hart.reg .mip &&& _ = _
    rw [s.cpu.hart.mip, BitVec.zero_and]
  have hslow : b.cpu.slowPath ramCore = false := by
    rw [Cpu.slowPath, s.cpu.hart.singleStep, s.cpu.hart.debugMode, s.cpu.hart.inWfi,
      s.cpu.checkTriggersIcount]
    rfl
  have hn : b.n ≠ 0#64 := by
    rw [s.n]
    decide
  rw [tick, s.cpu.hart.aborted, if_neg Bool.false_ne_true, s.phase]
  dsimp only
  rw [if_neg hn, enter]
  dsimp only
  rw [hpending, if_pos rfl]
  show ({ b with
    instret := 0#64, pc := b.cpu.hart.pc
    phase := if b.cpu.slowPath ramCore then .slow else .fast none } :
      Batch (Machine 64 (Periphery Unit)) InsnFetch) = _
  rw [hslow]
  rfl

/-- The instruction is stopped, whatever the counters of the batch are. -/
theorem attempt (s : Spins b) (b' : Batch (Machine 64 (Periphery Unit)) InsnFetch)
    (hpc : b'.pc = 0#64) :
    ∃ c, b'.fastAttempt ramCore none b.cpu =
        .error (.matched ⟨.execute, 0#64, .debugException⟩) c ∧ Spinning c := by
  obtain ⟨c, hfetch, spinning⟩ := s.cpu.stopped
  have hload : ramCore.loadInsn 0#64 b.cpu =
      .error (.matched ⟨.execute, 0#64, .debugException⟩) c := by
    obtain ⟨m, hm, -⟩ | ⟨-, heq⟩ := loadInsn_cases ramCore 0#64 b.cpu
    · rw [s.cpu.matchedTrigger] at hm
      cases hm
    · rw [heq, hfetch]
  have htag : (b.cpu.icache (icacheIndex 0#64)).tag ≠ 0#64 := by
    rw [s.cpu.icache]
    decide
  refine ⟨c, ?_, spinning⟩
  rw [fastAttempt, hpc]
  refine Exec.bind_of_error ?_
  rw [accessIcache, Exec.bind_of_ok (rfl : (get : CpuM _ _ _) b.cpu = .ok b.cpu b.cpu)]
  dsimp only
  rw [if_neg htag]
  exact Exec.bind_of_error hload

/-- **Round and round.** The action is taken, and the hart is where it was. -/
theorem again (s : Spins b) :
    Spins (tick ramCore (b.tick ramCore)) := by
  have hpc : b.cpu.hart.pc = 0#64 := congrArg Place.pc s.cpu.hart.place
  obtain ⟨c, hattempt, spinning⟩ := s.attempt
    { b with instret := 0#64, pc := b.cpu.hart.pc, phase := .fast none } hpc
  have heq : tick ramCore (b.tick ramCore) =
      leave { b with
        cpu := c.actOn rv64h ⟨.execute, 0#64, .debugException⟩ 0#64
        instret := 0#64, pc := 0#64, phase := .fast none } := by
    rw [s.enters, tick]
    dsimp only
    rw [s.cpu.hart.aborted, if_neg Bool.false_ne_true, fast, hattempt, hpc]
    rfl
  rw [heq]
  have dropped : Spinning c.dropMatch := { spinning with matchedTrigger := rfl }
  have acted : Spinning (c.actOn rv64h ⟨.execute, 0#64, .debugException⟩ 0#64) :=
    dropped.withHart (spinning.hart.takeTrap _ _)
  exact ⟨rfl, (BitVec.sub_zero b.n).trans s.n,
    acted.withHart (f := (·.bump 0#64)) (acted.hart.bump 0#64)⟩

/-- No number of ticks ends the call. -/
theorem busy (s : Spins b) (k : Nat) :
    ((tick ramCore)^[k] b).phase ≠ .idle := by
  induction k using Nat.twoStepInduction generalizing b with
  | zero =>
    show b.phase ≠ .idle
    rw [s.phase]
    exact nofun
  | one =>
    show (b.tick ramCore).phase ≠ .idle
    rw [s.enters]
    exact nofun
  | more k ih _ => exact ih s.again

end Spins

theorem spins_boot : ((Setup.boot rv64h spinningHart []).call ramCore .none 1#64).Spins where
  phase := rfl
  n := rfl
  cpu :=
    { hart :=
        { place := by decide
          debugMode := by decide
          singleStep := by decide
          inWfi := by decide
          aborted := by decide
          mip := by decide
          mtvec := by decide
          triggers := ⟨false, rfl⟩ }
      matchedTrigger := rfl
      checkTriggersIcount := rfl
      icache := fun _ => rfl
      tlb := rfl }

/-- `step(1)` does not return: the trigger keeps the breakpoint handler from starting. -/
theorem step_spins : (Setup.boot rv64h spinningHart []).Fresh ramCore ∧
    ∀ k, ((tick ramCore)^[k]
      ((Setup.boot rv64h spinningHart []).call ramCore .none 1#64)).phase ≠ .idle :=
  ⟨Setup.fresh_boot ⟨false, spinningOps, rfl⟩ [], spins_boot.busy⟩

end Batch

end Nnemu

import Nnemu.Proc.Access

/-!
# How handlers end

A handler is built from statements that leave the hart alone, and ends with an address: the next
one, or that of a jump. Both are even where the instruction is. What a handler does besides is one
of a few steps of the hart: a return, a flush, the status of the floating-point registers. So its
file is `Ordinary`, unless it is that of a CSR instruction.

The statements come first, in the order of `decode_macros.h`, then the patterns that the files
share, and then the files by families: registers and immediates, jumps, memory, atomics, system. The
last theorem is a case analysis over the opcodes in which each case names its family
(`Opcode.ordinary_file`).
-/

namespace Nnemu

open Hart

/-! ### Steps of the hart -/

namespace Hart

variable {cfg : Config} {h h' : Hart}

theorem minstret_dirty (h : Hart) (dirties : Reg) :
    (h.dirty cfg dirties).reg .minstret = h.reg .minstret :=
  (Hart.Frame.dirty dirties).reg .minstret rfl

namespace Fit

theorem dirty (f : Fit cfg h) (dirties : Reg) : Fit cfg (h.dirty cfg dirties) := by
  have frame : Hart.Frame Csr.dirtyFootprint h (h.dirty cfg dirties) := .dirty dirties
  refine ⟨f.wf.of_frame frame (f.wf.regs.dirty _), frame.pc ▸ f.evenPc.even,
    f.evenPc.targets.of_reg fun c hc => frame.reg c ?_⟩
  cases c <;> first | rfl | exact absurd hc Bool.noConfusion

theorem flushTlb (f : Fit cfg h) : Fit cfg h.flushTlb :=
  f.acted ⟨rfl, fun wf => ⟨wf.regs, wf.prv, wf.dcsr, wf.virt⟩, fun e => e.congr rfl fun _ _ => rfl⟩

/-- A return. -/
theorem mret (f : Fit cfg h) (hok : h.mret cfg = .ok h') : Fit cfg h' :=
  ⟨f.wf.mret hok, f.evenPc.returns (.mret hok) (f.evenPc.targets.read rfl) (pc_mret hok)⟩

theorem sret (f : Fit cfg h) (hok : h.sret cfg = .ok h') : Fit cfg h' :=
  ⟨f.wf.sret hok, f.evenPc.returns (.sret hok) f.evenPc.targets.virtRead (pc_sret hok)⟩

theorem dret (f : Fit cfg h) (hok : h.dret cfg = .ok h') : Fit cfg h' :=
  ⟨f.wf.dret hok, f.evenPc.returns (.dret hok) (f.evenPc.targets.read rfl) (pc_dret hok)⟩

end Fit

end Hart

/-! ### Ends of programs -/

namespace Cpu

variable {σ ι : Type} {cfg : Config} {c c' : Cpu σ ι} {r : EStateM.Result Thrown (Cpu σ ι) Reg}

/-- What ends so ends so behind statements that leave the hart alone. -/
theorem Ends.of_still (s : c.Still c') (h : c'.Ends cfg r) : c.Ends cfg r := by
  cases h with
  | next heven w => exact .next heven ((Works.of_still s).trans w)
  | after w => exact .after ((Works.of_still s).trans w)
  | wait w => exact .wait ((Works.of_still s).trans w)
  | trap s' => exact .trap (s.trans s')
  | matched s' hd => exact .matched (s.trans s') (s.hart.debugMode.symm.trans hd)
  | debugMode s' hd => exact .debugMode (s.trans s') (s.hart.debugMode.symm.trans hd)

/-- What a mild program throws. -/
theorem Ends.of_error {α : Type} {x : CpuM σ ι α} (hx : Mild x) {e : Thrown}
    (h : x c = .error e c') : c.Ends cfg (.error e c') := by
  have still := hx.keeps.of_error h
  obtain ⟨t, rfl⟩ | ⟨m, rfl, hd⟩ := hx.error h
  · exact .trap still
  · exact .matched still hd

end Cpu

/-- A program of a handler that does not begin with `validate_csr`. -/
def Ordinary {σ ι : Type} (cfg : Config) (x : CpuM σ ι Reg) : Prop :=
  ∀ c : Cpu σ ι, c.Ends cfg (x c)

namespace Ordinary

variable {σ ι α : Type} {cfg : Config} {x : CpuM σ ι α} {f : α → CpuM σ ι Reg}

/-- Mild statements come first, and tell what they return. -/
theorem bind_of {P : α → Prop} (hx : Mild x) (hP : ∀ {c₁ a c₂}, x c₁ = .ok a c₂ → P a)
    (hf : ∀ a, P a → Ordinary cfg (f a)) : Ordinary cfg (x >>= f) := by
  intro c
  cases hrun : x c with
  | ok a c' =>
    rw [Exec.bind_of_ok hrun]
    exact (hf a (hP hrun) c').of_still (hx.keeps.of_ok hrun)
  | error e c' =>
    rw [Exec.bind_of_error hrun]
    exact .of_error hx hrun

theorem bind (hx : Mild x) (hf : ∀ a, Ordinary cfg (f a)) : Ordinary cfg (x >>= f) :=
  bind_of (P := fun _ => True) hx (fun _ => trivial) fun a _ => hf a

theorem pure {npc : Reg} (heven : npc.getLsbD 0 = false) :
    Ordinary cfg (Pure.pure npc : CpuM σ ι Reg) :=
  fun c => .next heven (.of_still (.refl c))

theorem trap (t : Trap) : Ordinary cfg (throw (.trap t) : CpuM σ ι Reg) :=
  fun c => .trap (.refl c)

theorem ite {p : Prop} [Decidable p] {x y : CpuM σ ι Reg} (hx : Ordinary cfg x)
    (hy : Ordinary cfg y) : Ordinary cfg (if p then x else y) := by
  split
  · exact hx
  · exact hy

/-- A step of the hart comes last, and an address. -/
theorem modify {f : Hart → Hart} (htriggers : ∀ h, (f h).triggers = h.triggers)
    (hminstret : ∀ h, (f h).reg .minstret = h.reg .minstret)
    (hfit : ∀ h, h.Fit cfg → (f h).Fit cfg) {npc : Reg} (heven : npc.getLsbD 0 = false) :
    Ordinary cfg (modify (·.withHart f) >>= fun _ => Pure.pure npc : CpuM σ ι Reg) :=
  fun _ => .next heven (.withHart (htriggers _) (hminstret _) (hfit _))

end Ordinary

/-! ### Statements -/

namespace InsnM

variable {w : Nat} {ω ι α : Type}

/-- A program of the MMU does to the hart what it does without the register files. -/
theorem mild_access {x : CpuM ω ι α} (hx : Mild x) :
    Mild (access x : InsnM w ω ι α) := by
  constructor
  · intro c
    have still := hx.keeps (c.withRest c.rest.world)
    rw [access]
    cases hrun : x (c.withRest c.rest.world) <;>
      · rw [hrun] at still
        exact Cpu.Still.withRest still _
  · intro c e c' h
    rw [access] at h
    cases hrun : x (c.withRest c.rest.world) with
    | ok a c₁ =>
      rw [hrun] at h
      cases h
    | error e' c₁ =>
      rw [hrun] at h
      cases h
      exact hx.error hrun

end InsnM

namespace Frame

variable {f : Frame} {w : Nat} {ω ι α : Type}

theorem mild_require (b : Bool) : Mild (f.require b : InsnM w ω ι Unit) :=
  .ite (.pure _) (.trap _)

theorem mild_requireExtension (ext : Ext) : Mild (f.requireExtension ext : InsnM w ω ι Unit) :=
  .bind .get fun _ => mild_require _

theorem mild_requireEitherExtension (ext ext' : Ext) :
    Mild (f.requireEitherExtension ext ext' : InsnM w ω ι Unit) :=
  .bind .get fun _ => mild_require _

theorem mild_orRefuse (r : Except Refusal α) : Mild (f.orRefuse r : InsnM w ω ι α) := by
  cases r with
  | ok a => exact .pure a
  | error e =>
    cases e with
    | illegal => exact .trap _
    | virtual => exact .trap _
    | crash => exact .bind (.modify fun c => .abort c) fun _ => .trap _

theorem mild_refuseIf (r : Option Refusal) : Mild (f.refuseIf r : InsnM w ω ι Unit) := by
  cases r with
  | none => exact .pure _
  | some e => exact mild_orRefuse (.error e)

theorem mild_requireFp : Mild (f.requireFp : InsnM w ω ι Unit) :=
  .bind .get fun _ => mild_orRefuse _

/-- Reading a register changes nothing, and may be refused on RV32E and RV64E. -/
theorem mild_readReg (reg : Reg) : Mild (f.readReg reg : InsnM w ω ι (BitVec w)) :=
  .bind (mild_require _) fun _ => .bind .get fun _ => .pure _

/-- A step of the register files. -/
theorem still_withRest {σ : Type} (c : Cpu σ ι) (s : σ) : c.Still (c.withRest s) :=
  Cpu.Still.withRest (.refl _) s

theorem mild_writeReg (reg : Reg) (value : BitVec w) :
    Mild (f.writeReg reg value : InsnM w ω ι Unit) :=
  .bind (mild_require _) fun _ => .modify fun c => still_withRest c _

theorem mild_readFreg (reg : Reg) : Mild (readFreg reg : InsnM w ω ι Reg) :=
  .bind .get fun _ => .pure _

theorem mild_laterRs2 : Mild (f.laterRs2 : InsnM w ω ι (Except Thrown (BitVec w))) :=
  .bind .get fun _ => .pure _

/-- What `RS2` throws later. -/
theorem trap_laterRs2 {c c' : Cpu (Machine w ω) ι} {r : Except Thrown (BitVec w)}
    (h : f.laterRs2 c = .ok r c') : ∀ e, r = .error e → ∃ t, e = .trap t := by
  rintro e rfl
  obtain ⟨c₁, c₂, hget, h⟩ := Exec.bind_eq_ok_iff.1 h
  cases hread : !f.rve || decide (Insn.rs2 f.insn < 16#64) with
  | true =>
    rw [hread] at h
    cases h
  | false =>
    rw [hread] at h
    cases h
    exact ⟨_, rfl⟩

/-- `set_pc` leaves the hart alone. -/
theorem mild_setPc (x : Reg) : Mild (f.setPc x : InsnM w ω ι Reg) := by
  refine .bind .get fun c => ?_
  cases c.hart.setPc f.cfg x with
  | ok npc => exact .pure npc
  | error t => exact .trap t

/-- **Jumps to even addresses** come to even addresses. -/
theorem even_setPc {x : Reg} (heven : x.getLsbD 0 = false) {c c' : Cpu (Machine w ω) ι} {npc : Reg}
    (h : f.setPc x c = .ok npc c') : npc.getLsbD 0 = false := by
  obtain ⟨c₁, c₂, hget, h⟩ := Exec.bind_eq_ok_iff.1 h
  cases hset : c₁.hart.setPc f.cfg x with
  | error t =>
    rw [hset] at h
    cases h
  | ok npc' =>
    rw [hset] at h
    cases h
    rw [Hart.setPc] at hset
    split at hset
    · cases hset
      rw [getLsbD_sextXlen _ (by decide), heven]
    · cases hset

/-! ### Files -/

section Files

variable (hnpc : f.npc.getLsbD 0 = false)
include hnpc

/-- The value of a register is the last thing. -/
theorem ordinary_writeReg (reg value : Reg) :
    Ordinary f.cfg (f.writeReg reg value >>= fun _ => pure f.npc : InsnM 64 ω ι Reg) :=
  .bind (mild_writeReg _ _) fun _ => .pure hnpc

theorem ordinary_regReg (op : Reg → Reg → Reg) :
    Ordinary f.cfg (f.regReg op : InsnM 64 ω ι Reg) :=
  .bind (mild_readReg _) fun _ => .bind (mild_readReg _) fun _ => ordinary_writeReg hnpc _ _

theorem ordinary_regImm (op : Reg → Reg) : Ordinary f.cfg (f.regImm op : InsnM 64 ω ι Reg) :=
  .bind (mild_readReg _) fun _ => ordinary_writeReg hnpc _ _

theorem ordinary_rvcRegReg (op : Reg → Reg → Reg) :
    Ordinary f.cfg (f.rvcRegReg op : InsnM 64 ω ι Reg) :=
  .bind (mild_readReg _) fun _ => .bind (mild_readReg _) fun _ => ordinary_writeReg hnpc _ _

theorem ordinary_rvcRegImm (op : Reg → Reg) :
    Ordinary f.cfg (f.rvcRegImm op : InsnM 64 ω ι Reg) :=
  .bind (mild_readReg _) fun _ => ordinary_writeReg hnpc _ _

theorem ordinary_rvcRdImm (op : Reg → Reg) : Ordinary f.cfg (f.rvcRdImm op : InsnM 64 ω ι Reg) :=
  .bind (mild_readReg _) fun _ => ordinary_writeReg hnpc _ _

end Files

/-! ### Checks -/

section Checks

variable {body : InsnM 64 ω ι Reg} (h : Ordinary f.cfg body)
include h

theorem ordinary_onRv64 : Ordinary f.cfg (f.onRv64 body) :=
  .bind (mild_require _) fun _ => h

theorem ordinary_withM : Ordinary f.cfg (f.withM body) :=
  .bind (mild_requireExtension _) fun _ => h

theorem ordinary_withMul : Ordinary f.cfg (f.withMul body) :=
  .bind (mild_requireEitherExtension _ _) fun _ => h

theorem ordinary_withA : Ordinary f.cfg (f.withA body) :=
  .bind (mild_requireExtension _) fun _ => h

theorem ordinary_withZca : Ordinary f.cfg (f.withZca body) :=
  .bind (mild_requireExtension _) fun _ => h

theorem ordinary_withFp (ext : Ext) : Ordinary f.cfg (f.withFp ext body) :=
  .bind (mild_requireExtension _) fun _ => .bind mild_requireFp fun _ => h

theorem ordinary_requiring (b : Bool) : Ordinary f.cfg (f.requiring b body) :=
  .bind (mild_require _) fun _ => h

theorem ordinary_withShamt : Ordinary f.cfg (f.withShamt body) :=
  .bind (mild_require _) fun _ => h

theorem ordinary_withZimm : Ordinary f.cfg (f.withZimm body) :=
  ordinary_requiring h _

end Checks

/-! ### Jumps -/

/-- A sum with an even number. -/
theorem even_add {x y : Reg} (hx : x.getLsbD 0 = false) (hy : Bits.LowZero 1 y) :
    (x + y).getLsbD 0 = false := by
  rw [Bits.LowZero.getLsbD_add (by decide) hy x (by decide), hx]

theorem even_and_not_one (x : Reg) : (x &&& ~~~1#64).getLsbD 0 = false := by
  rw [BitVec.getLsbD_and]
  exact Bool.and_false _

/-- A jump, and a link. -/
theorem ordinary_link {x : Reg} (heven : x.getLsbD 0 = false) (reg : Reg) :
    Ordinary f.cfg (do
      let npc ← f.setPc x
      f.writeReg reg f.npc
      pure npc : InsnM 64 ω ι Reg) :=
  .bind_of (mild_setPc x) (even_setPc heven) fun _ hnpc =>
    .bind (mild_writeReg _ _) fun _ => .pure hnpc

theorem ordinary_setPc {x : Reg} (heven : x.getLsbD 0 = false) :
    Ordinary f.cfg (f.setPc x : InsnM 64 ω ι Reg) := by
  rw [← bind_pure (f.setPc x : InsnM 64 ω ι Reg)]
  exact .bind_of (mild_setPc x) (even_setPc heven) fun _ hnpc => .pure hnpc

/-- A branch goes on or jumps, to an even address either way. -/
theorem ordinary_branch (hpc : f.pc.getLsbD 0 = false) (hnpc : f.npc.getLsbD 0 = false)
    (taken : Reg → Reg → Bool) : Ordinary f.cfg (f.branch taken : InsnM 64 ω ι Reg) :=
  .bind (mild_readReg _) fun _ => .bind (mild_readReg _) fun _ =>
    .ite (ordinary_setPc (even_add hpc (Insn.even_sbImm _))) (.pure hnpc)

theorem ordinary_rvcBranch (hpc : f.pc.getLsbD 0 = false) (hnpc : f.npc.getLsbD 0 = false)
    (taken : Reg → Bool) : Ordinary f.cfg (f.rvcBranch taken : InsnM 64 ω ι Reg) :=
  ordinary_withZca (.bind (mild_readReg _) fun _ =>
    .ite (ordinary_setPc (even_add hpc (Insn.even_rvcBImm _))) (.pure hnpc))

/-! ### Memory -/

section Memory

variable {mmu : Mmu ω ι} (hmmu : Setup.MildMmu mmu) (hnpc : f.npc.getLsbD 0 = false)
include hmmu hnpc

/-- A load writes the register after the access, so that a trap leaves it as it was. -/
theorem ordinary_load (n : Nat) (extend : BitVec n → Reg) :
    Ordinary f.cfg (f.load mmu n extend) :=
  .bind (mild_readReg _) fun _ => .bind (InsnM.mild_access (hmmu.load _ _)) fun _ =>
    ordinary_writeReg hnpc _ _

theorem ordinary_store (n : Nat) : Ordinary f.cfg (f.store mmu n) :=
  .bind (mild_readReg _) fun _ => .bind (mild_readReg _) fun _ =>
    .bind (InsnM.mild_access (hmmu.store _ _ _)) fun _ => .pure hnpc

theorem ordinary_rvcLoad (n : Nat) (offset : Reg) : Ordinary f.cfg (f.rvcLoad mmu n offset) :=
  .bind (mild_readReg _) fun _ => .bind (InsnM.mild_access (hmmu.load _ _)) fun _ =>
    ordinary_writeReg hnpc _ _

theorem ordinary_rvcLoadSp (n : Nat) (offset : Reg) :
    Ordinary f.cfg (f.rvcLoadSp mmu n offset) :=
  ordinary_requiring (.bind (mild_readReg _) fun _ =>
    .bind (InsnM.mild_access (hmmu.load _ _)) fun _ => ordinary_writeReg hnpc _ _) _

theorem ordinary_rvcStore (n : Nat) (offset : Reg) : Ordinary f.cfg (f.rvcStore mmu n offset) :=
  .bind (mild_readReg _) fun _ => .bind (mild_readReg _) fun _ =>
    .bind (InsnM.mild_access (hmmu.store _ _ _)) fun _ => .pure hnpc

theorem ordinary_rvcStoreSp (n : Nat) (offset : Reg) :
    Ordinary f.cfg (f.rvcStoreSp mmu n offset) :=
  .bind (mild_readReg _) fun _ => .bind (mild_readReg _) fun _ =>
    .bind (InsnM.mild_access (hmmu.store _ _ _)) fun _ => .pure hnpc

/-- A floating-point register is written last, and is dirty then. -/
theorem ordinary_fpLoad (n : Nat) {base : InsnM 64 ω ι Reg} (hbase : Mild base) (offset reg : Reg)
    (freg : BitVec n → BitVec 128) : Ordinary f.cfg (f.fpLoad mmu n base offset reg freg) := by
  refine .bind hbase fun a => .bind (InsnM.mild_access (hmmu.load _ _)) fun val => ?_
  rw [writeFreg, bind_assoc]
  refine .bind (.modify fun c => still_withRest c _) fun _ => ?_
  exact .modify (fun h => h.triggers_dirty _) (fun h => h.minstret_dirty _)
    (fun h fit => fit.dirty _) hnpc

theorem ordinary_fpStore (n : Nat) {base : InsnM 64 ω ι Reg} (hbase : Mild base)
    (offset reg : Reg) : Ordinary f.cfg (f.fpStore mmu n base offset reg) :=
  .bind hbase fun _ => .bind (mild_readFreg _) fun _ =>
    .bind (InsnM.mild_access (hmmu.store _ _ _)) fun _ => .pure hnpc

end Memory

/-! ### Atomics -/

section Atomics

/-- The traps of another program. -/
theorem mild_convertLoadTrapsToStoreTraps {α : Type} {x : CpuM ω ι α} (hx : Mild x) :
    Mild (Mmu.convertLoadTrapsToStoreTraps x) := by
  constructor
  · intro c
    have still := hx.keeps c
    rw [Mmu.convertLoadTrapsToStoreTraps]
    split <;>
      · rename_i heq
        rw [heq] at still
        exact still
  · intro c e c' h
    rw [Mmu.convertLoadTrapsToStoreTraps] at h
    split at h
    · cases h
    · cases h
      exact .inl ⟨_, rfl⟩
    · rename_i heq
      cases h
      exact hx.error heq

variable {mmu : Mmu ω ι} (hmmu : Setup.MildMmu mmu)
include hmmu

/-- `mmu_t::amo`, where the operation throws traps only. -/
theorem mild_amo (n : Nat) (addr : Reg) {g : BitVec n → Except Thrown (BitVec n)}
    (hg : ∀ lhs e, g lhs = .error e → ∃ t, e = .trap t) : Mild (mmu.amo n addr g) := by
  refine mild_convertLoadTrapsToStoreTraps ?_
  refine .bind (hmmu.checkStore _ _) fun _ => .bind (hmmu.load _ _) fun lhs => ?_
  cases hlhs : g lhs with
  | ok val => exact .bind (.pure val) fun _ => .bind (hmmu.store _ _ _) fun _ => .pure _
  | error e =>
    obtain ⟨t, rfl⟩ := hg lhs e hlhs
    exact .bind (.trap t) fun _ => .bind (hmmu.store _ _ _) fun _ => .pure _

theorem mild_storeConditional (n : Nat) (addr : Reg) (val : BitVec n) :
    Mild (mmu.storeConditional n addr val) :=
  .bind (hmmu.checkLoadReservation _ _) fun _ =>
    .ite (.bind (hmmu.store _ _ _) fun _ => .bind hmmu.yieldLoadReservation fun _ => .pure _)
      (.bind hmmu.yieldLoadReservation fun _ => .pure _)

variable (hnpc : f.npc.getLsbD 0 = false)
include hnpc

/-- An atomic operation is one access of the MMU. -/
theorem ordinary_amo (n : Nat) (op : BitVec n → Reg → BitVec n) :
    Ordinary f.cfg (f.amo mmu n op) := by
  refine .bind (mild_readReg _) fun a => .bind_of mild_laterRs2 trap_laterRs2 fun b hb => ?_
  refine .bind (InsnM.mild_access (mild_amo hmmu n a fun lhs e he => ?_)) fun lhs =>
    ordinary_writeReg hnpc _ _
  cases b with
  | ok val => cases he
  | error e' =>
    cases he
    exact hb _ rfl

theorem ordinary_amoW (op : BitVec 32 → Reg → BitVec 32) : Ordinary f.cfg (f.amoW mmu op) :=
  ordinary_withA (ordinary_amo hmmu hnpc 32 op)

theorem ordinary_amoD (op : BitVec 64 → Reg → BitVec 64) : Ordinary f.cfg (f.amoD mmu op) :=
  ordinary_withA (ordinary_onRv64 (ordinary_amo hmmu hnpc 64 op))

theorem ordinary_loadReserved (n : Nat) : Ordinary f.cfg (f.loadReserved mmu n) :=
  .bind (mild_readReg _) fun _ => .bind (InsnM.mild_access (hmmu.loadReserved _ _)) fun _ =>
    ordinary_writeReg hnpc _ _

theorem ordinary_storeConditional (n : Nat) : Ordinary f.cfg (f.storeConditional mmu n) :=
  .bind (mild_readReg _) fun _ => .bind (mild_readReg _) fun _ =>
    .bind (InsnM.mild_access (mild_storeConditional hmmu _ _ _)) fun _ =>
      ordinary_writeReg hnpc _ _

end Atomics

/-! ### Calls, returns and fences -/

theorem ordinary_ecall (hnpc : f.npc.getLsbD 0 = false) :
    Ordinary f.cfg (f.ecall : InsnM 64 ω ι Reg) :=
  .bind .get fun _ => .ite (.trap _) (.ite (.trap _) (.ite (.trap _)
    (.bind (.modify fun c => .abort c) fun _ => .pure hnpc)))

/-- `ebreak` enters debug mode from outside only. -/
theorem ordinary_ebreak : Ordinary f.cfg (f.ebreak : InsnM 64 ω ι Reg) := by
  intro c
  have hrun : ∃ enters : Bool, f.ebreak c =
      if !c.hart.debugMode && enters then .error .debugMode c
      else .error (.trap (c.hart.breakpointTrap f.pc)) c := ⟨_, Exec.ite_apply _ _ _ c⟩
  obtain ⟨enters, hrun⟩ := hrun
  rw [hrun]
  split
  · rename_i henter
    rw [Bool.and_eq_true, Bool.not_eq_true'] at henter
    exact .debugMode (.refl c) henter.1
  · exact .trap (.refl c)

/-- A step of the hart that returns. -/
theorem ordinary_hartFile {step : Hart → Except Refusal Hart}
    (htriggers : ∀ {h h'}, step h = .ok h' → h'.triggers = h.triggers)
    (hminstret : ∀ {h h'}, step h = .ok h' → h'.reg .minstret = h.reg .minstret)
    (hfit : ∀ {h h'}, h.Fit f.cfg → step h = .ok h' → h'.Fit f.cfg) :
    Ordinary f.cfg (f.hartFile step : InsnM 64 ω ι Reg) := by
  intro c
  rw [hartFile, Exec.bind_of_ok (rfl : (get : InsnM 64 ω ι _) c = .ok c c)]
  cases hstep : step c.hart with
  | error e =>
    have hmild : Mild (f.orRefuse (.error e) : InsnM 64 ω ι Hart) := mild_orRefuse _
    cases hrun : (f.orRefuse (.error e) : InsnM 64 ω ι Hart) c with
    | ok h c' => cases e <;> cases hrun
    | error e' c' =>
      rw [Exec.bind_of_error hrun]
      exact .of_error hmild hrun
  | ok h =>
    exact .after (.withHart (htriggers hstep) (hminstret hstep) fun fit => hfit fit hstep)

/-- `mret` is a step of the hart, with the program counter it returns to. -/
theorem ordinary_mret : Ordinary f.cfg (f.mret : InsnM 64 ω ι Reg) :=
  ordinary_hartFile triggers_mret (fun h => (ControlWrites.mret h).regFrame.reg .minstret rfl)
    fun fit h => fit.mret h

theorem ordinary_sret : Ordinary f.cfg (f.sret : InsnM 64 ω ι Reg) :=
  ordinary_hartFile triggers_sret (fun h => (ControlWrites.sret h).regFrame.reg .minstret rfl)
    fun fit h => fit.sret h

theorem ordinary_dret : Ordinary f.cfg (f.dret : InsnM 64 ω ι Reg) :=
  ordinary_hartFile triggers_dret (fun h => (ControlWrites.dret h).regFrame.reg .minstret rfl)
    fun fit h => fit.dret h

/-- `wfi` goes on behind itself. -/
theorem ordinary_wfi (hnpc : f.npc.getLsbD 0 = false) :
    Ordinary f.cfg (f.wfi : InsnM 64 ω ι Reg) :=
  .bind .get fun _ => .bind (mild_refuseIf _) fun _ => fun _ =>
    .wait (.withHart rfl rfl fun fit => fit.withPc (by rw [BitVec.getLsbD_and, hnpc]; rfl))

/-- A fence flushes the TLB, which the hart counts. -/
theorem ordinary_sfenceVma (hnpc : f.npc.getLsbD 0 = false) :
    Ordinary f.cfg (f.sfenceVma : InsnM 64 ω ι Reg) :=
  .bind .get fun _ => .bind (mild_refuseIf _) fun _ =>
    .modify (f := Hart.flushTlb) (fun _ => rfl) (fun _ => rfl) (fun _ fit => fit.flushTlb) hnpc

theorem ordinary_fenceI (hnpc : f.npc.getLsbD 0 = false) :
    Ordinary f.cfg (f.fenceI : InsnM 64 ω ι Reg) :=
  .bind (.modify fun c => .flushIcache c) fun _ => .pure hnpc

/-! ### Compressed instructions -/

theorem ordinary_cLui (hnpc : f.npc.getLsbD 0 = false) :
    Ordinary f.cfg (f.cLui : InsnM 64 ω ι Reg) :=
  ordinary_withZca (.ite
    (ordinary_requiring (.bind (mild_readReg _) fun _ => ordinary_writeReg hnpc _ _) _)
    (ordinary_requiring (ordinary_writeReg hnpc _ _) _))

/-- `c.jal` of RV32, and `c.addiw` of RV64. -/
theorem ordinary_cJal (hpc : f.pc.getLsbD 0 = false) (hnpc : f.npc.getLsbD 0 = false) :
    Ordinary f.cfg (f.cJal : InsnM 64 ω ι Reg) := by
  rw [cJal]
  cases f.cfg.isa.xlen with
  | rv32 => exact ordinary_withZca (ordinary_link (even_add hpc (Insn.even_rvcJImm _)) _)
  | rv64 => exact ordinary_withZca (ordinary_requiring (ordinary_rvcRdImm hnpc _) _)

section Widths

variable {mmu : Mmu ω ι} (hmmu : Setup.MildMmu mmu) (hnpc : f.npc.getLsbD 0 = false)
include hmmu hnpc

theorem ordinary_cFlw : Ordinary f.cfg (f.cFlw mmu) := by
  rw [cFlw]
  cases f.cfg.isa.xlen with
  | rv32 => exact ordinary_withFp (ordinary_fpLoad hmmu hnpc _ (mild_readReg _) _ _ _) _
  | rv64 => exact ordinary_withZca (ordinary_rvcLoad hmmu hnpc _ _)

theorem ordinary_cFlwsp : Ordinary f.cfg (f.cFlwsp mmu) := by
  rw [cFlwsp]
  cases f.cfg.isa.xlen with
  | rv32 => exact ordinary_withFp (ordinary_fpLoad hmmu hnpc _ (mild_readReg _) _ _ _) _
  | rv64 => exact ordinary_withZca (ordinary_rvcLoadSp hmmu hnpc _ _)

theorem ordinary_cFsw : Ordinary f.cfg (f.cFsw mmu) := by
  rw [cFsw]
  cases f.cfg.isa.xlen with
  | rv32 => exact ordinary_withFp (ordinary_fpStore hmmu hnpc _ (mild_readReg _) _ _) _
  | rv64 => exact ordinary_withZca (ordinary_rvcStore hmmu hnpc _ _)

theorem ordinary_cFswsp : Ordinary f.cfg (f.cFswsp mmu) := by
  rw [cFswsp]
  cases f.cfg.isa.xlen with
  | rv32 => exact ordinary_withFp (ordinary_fpStore hmmu hnpc _ (mild_readReg _) _ _) _
  | rv64 => exact ordinary_withZca (ordinary_rvcStoreSp hmmu hnpc _ _)

end Widths

end Frame

/-! ### All files -/

open Nnemu.Frame in
/-- **A file that does not begin with `validate_csr` is ordinary.** -/
theorem Opcode.ordinary_file {op : Opcode} {f : Frame} {ω ι : Type} {mmu : Mmu ω ι}
    (hmmu : Setup.MildMmu mmu) (hpc : f.pc.getLsbD 0 = false) (hnpc : f.npc.getLsbD 0 = false)
    (hcsr : (op.csrOperation f : Option (CsrOperation ω ι)) = none) :
    Ordinary f.cfg (op.file mmu f) := by
  cases op with
  | csrrw | csrrs | csrrc | csrrwi | csrrsi | csrrci => cases hcsr
  -- atomics
  | amoaddD | amoandD | amomaxD | amomaxuD | amominD | amominuD | amoorD | amoswapD | amoxorD =>
    exact ordinary_amoD hmmu hnpc _
  | amoaddW | amoandW | amomaxW | amomaxuW | amominW | amominuW | amoorW | amoswapW | amoxorW =>
    exact ordinary_amoW hmmu hnpc _
  | lrD => exact ordinary_withA (ordinary_onRv64 (ordinary_loadReserved hmmu hnpc _))
  | lrW => exact ordinary_withA (ordinary_loadReserved hmmu hnpc _)
  | scD => exact ordinary_withA (ordinary_onRv64 (ordinary_storeConditional hmmu hnpc _))
  | scW => exact ordinary_withA (ordinary_storeConditional hmmu hnpc _)
  -- registers and immediates
  | add | sub | and | or | xor | slt | sltu | sll | srl | sra => exact ordinary_regReg hnpc _
  | addw | subw | sllw | srlw | sraw => exact ordinary_onRv64 (ordinary_regReg hnpc _)
  | addi | andi | ori | xori | slti | sltiu => exact ordinary_regImm hnpc _
  | addiw | slliw | srliw | sraiw => exact ordinary_onRv64 (ordinary_regImm hnpc _)
  | slli | srli | srai => exact ordinary_withShamt (ordinary_regImm hnpc _)
  | lui | auipc => exact ordinary_writeReg hnpc _ _
  | mul | mulh | mulhsu | mulhu => exact ordinary_withMul (ordinary_regReg hnpc _)
  | mulw => exact ordinary_withMul (ordinary_onRv64 (ordinary_regReg hnpc _))
  | div | divu | rem | remu => exact ordinary_withM (ordinary_regReg hnpc _)
  | divw | divuw | remw | remuw => exact ordinary_withM (ordinary_onRv64 (ordinary_regReg hnpc _))
  -- jumps
  | beq | bne | blt | bge | bltu | bgeu => exact ordinary_branch hpc hnpc _
  | jal => exact ordinary_link (even_add hpc (Insn.even_ujImm _)) _
  | jalr => exact .bind (mild_readReg _) fun _ => ordinary_link (even_and_not_one _) _
  -- memory
  | lb | lbu | lh | lhu | lw => exact ordinary_load hmmu hnpc _ _
  | lwu | ld => exact ordinary_onRv64 (ordinary_load hmmu hnpc _ _)
  | sb | sh | sw => exact ordinary_store hmmu hnpc _
  | sd => exact ordinary_onRv64 (ordinary_store hmmu hnpc _)
  -- the system
  | ecall => exact ordinary_ecall hnpc
  | ebreak => exact ordinary_ebreak
  | mret => exact ordinary_mret
  | sret => exact ordinary_sret
  | dret => exact ordinary_dret
  | wfi => exact ordinary_wfi hnpc
  | sfenceVma => exact ordinary_sfenceVma hnpc
  | fence => exact .pure hnpc
  | fenceI => exact ordinary_fenceI hnpc
  -- compressed instructions
  | cAddi => exact ordinary_withZca (ordinary_rvcRdImm hnpc _)
  | cAndi => exact ordinary_withZca (ordinary_rvcRegImm hnpc _)
  | cSlli => exact ordinary_withZca (ordinary_withZimm (ordinary_rvcRdImm hnpc _))
  | cSrli | cSrai => exact ordinary_withZca (ordinary_withZimm (ordinary_rvcRegImm hnpc _))
  | cSub | cXor | cOr | cAnd => exact ordinary_withZca (ordinary_rvcRegReg hnpc _)
  | cAddw | cSubw => exact ordinary_withZca (ordinary_onRv64 (ordinary_rvcRegReg hnpc _))
  | cLi => exact ordinary_withZca (ordinary_writeReg hnpc _ _)
  | cLui => exact ordinary_cLui hnpc
  | cAdd =>
    exact ordinary_withZca (ordinary_requiring (.bind (mild_readReg _) fun _ =>
      .bind (mild_readReg _) fun _ => ordinary_writeReg hnpc _ _) _)
  | cMv | cAddi4spn =>
    exact ordinary_withZca (ordinary_requiring (.bind (mild_readReg _) fun _ =>
      ordinary_writeReg hnpc _ _) _)
  | cJ => exact ordinary_withZca (ordinary_setPc (even_add hpc (Insn.even_rvcJImm _)))
  | cJal => exact ordinary_cJal hpc hnpc
  | cJr =>
    exact ordinary_withZca (ordinary_requiring (.bind (mild_readReg _) fun _ =>
      ordinary_setPc (even_and_not_one _)) _)
  | cJalr =>
    exact ordinary_withZca (ordinary_requiring (.bind (mild_readReg _) fun _ =>
      ordinary_link (even_and_not_one _) _) _)
  | cBeqz | cBnez => exact ordinary_rvcBranch hpc hnpc _
  | cEbreak => exact ordinary_withZca ordinary_ebreak
  | cLw => exact ordinary_withZca (ordinary_rvcLoad hmmu hnpc _ _)
  | cLwsp => exact ordinary_withZca (ordinary_rvcLoadSp hmmu hnpc _ _)
  | cSw => exact ordinary_withZca (ordinary_rvcStore hmmu hnpc _ _)
  | cSwsp => exact ordinary_withZca (ordinary_rvcStoreSp hmmu hnpc _ _)
  | cFld | cFldsp =>
    exact ordinary_withFp (ordinary_fpLoad hmmu hnpc _ (mild_readReg _) _ _ _) _
  | cFsd | cFsdsp => exact ordinary_withFp (ordinary_fpStore hmmu hnpc _ (mild_readReg _) _ _) _
  | cFlw => exact ordinary_cFlw hmmu hnpc
  | cFlwsp => exact ordinary_cFlwsp hmmu hnpc
  | cFsw => exact ordinary_cFsw hmmu hnpc
  | cFswsp => exact ordinary_cFswsp hmmu hnpc

end Nnemu

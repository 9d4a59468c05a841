import Nnemu.Hart.Reachable
import Nnemu.Loop.Basic

/-!
# Harts in the loop

What traps, trigger actions and debug entry leave of a hart, as far as the loop goes: debugging
(`SameDebug`), the counter, well-formedness and an even program counter (`EvenPc`). A hart to which
nothing has been done is `Quiet`.

These are facts of the hart alone. They say for every trap, return and CSR instruction what the loop
has to know afterwards and no more, and put the fields together in `Fit`, which every reachable hart
is and every step of the loop keeps.
-/

namespace Nnemu

/-- The registers that devices and the counters change behind the back of a program. -/
def Csr.volatile : Csr → Bool
  | mip | time | minstret | mcycle => true
  | _ => false

namespace Hart

/-! ### What traps leave alone -/

/-- The parts of a hart that debugging is about are the same. -/
structure SameDebug (h h' : Hart) : Prop where
  triggers : h'.triggers = h.triggers
  debugMode : h'.debugMode = h.debugMode
  singleStep : h'.singleStep = h.singleStep
  inWfi : h'.inWfi = h.inWfi
  aborted : h'.aborted = h.aborted

namespace SameDebug

variable {cfg : Config} {h h' h'' : Hart}

theorem refl (h : Hart) : SameDebug h h :=
  ⟨rfl, rfl, rfl, rfl, rfl⟩

theorem trans (f : SameDebug h h') (g : SameDebug h' h'') : SameDebug h h'' where
  triggers := g.triggers.trans f.triggers
  debugMode := g.debugMode.trans f.debugMode
  singleStep := g.singleStep.trans f.singleStep
  inWfi := g.inWfi.trans f.inWfi
  aborted := g.aborted.trans f.aborted

theorem ite {p : Prop} [Decidable p] (f : SameDebug h h') (g : SameDebug h h'') :
    SameDebug h (if p then h' else h'') := by
  split
  · exact f
  · exact g

theorem set (h : Hart) (c : Csr) (val : Reg) : SameDebug h (h.set c val) :=
  ⟨rfl, rfl, rfl, rfl, rfl⟩

theorem setPrivilege (h : Hart) (prv : Reg) : SameDebug h (h.setPrivilege prv) :=
  ⟨rfl, rfl, rfl, rfl, rfl⟩

theorem setVirt (h : Hart) (virt : Bool) : SameDebug h (h.setVirt virt) :=
  ite (refl h) ⟨rfl, rfl, rfl, rfl, rfl⟩

theorem maybeFlushTlb (h : Hart) (newval old : Reg) :
    SameDebug h (h.maybeFlushTlb cfg newval old) :=
  ite ⟨rfl, rfl, rfl, rfl, rfl⟩ (refl h)

theorem mstatusWrite (h : Hart) (val : Reg) : SameDebug h (h.mstatusWrite cfg val) :=
  (maybeFlushTlb h _ _).trans (set _ _ _)

theorem mstatushWrite (h : Hart) (val : Reg) : SameDebug h (h.mstatushWrite cfg val) := by
  rw [Hart.mstatushWrite]
  split
  · exact mstatusWrite h _
  · exact refl h

theorem sstatusWrite (h : Hart) (val : Reg) : SameDebug h (h.sstatusWrite cfg val) :=
  ite ((ite (maybeFlushTlb h _ _) (refl h)).trans (set _ _ _)) (mstatusWrite h _)

theorem virtWrite {c v : Csr} (val : Reg) (hc : SameDebug h (h.write cfg val c))
    (hv : SameDebug h (h.write cfg val v)) :
    SameDebug h (h.virtWrite cfg c v val) :=
  ite hv hc

theorem trapToVs (h : Hart) (t : Trap) (epc : Reg) : SameDebug h (h.trapToVs cfg t epc) := by
  unfold Hart.trapToVs
  extract_lets prv interrupt h₁ h₂ h₃ h₄ h₅
  have f₁ : SameDebug h h₁ := ⟨rfl, rfl, rfl, rfl, rfl⟩
  have f₄ : SameDebug h h₄ := ((f₁.trans (set _ _ _)).trans (set _ _ _)).trans (set _ _ _)
  exact (f₄.trans (sstatusWrite h₄ _)).trans (setPrivilege _ _)

theorem trapToHs (h : Hart) (t : Trap) (epc : Reg) : SameDebug h (h.trapToHs cfg t epc) := by
  unfold Hart.trapToHs
  extract_lets prv currVirt h₁ h₂ h₃ h₄ h₅ h₆ h₇ h₈ h₉
  have f₁ : SameDebug h h₁ := setVirt h false
  have f₂ : SameDebug h h₂ := f₁.trans ⟨rfl, rfl, rfl, rfl, rfl⟩
  have f₅ : SameDebug h h₅ :=
    ((f₂.trans (virtWrite _ (set _ _ _) (set _ _ _))).trans
      (virtWrite _ (set _ _ _) (set _ _ _))).trans
      (virtWrite _ (set _ _ _) (set _ _ _))
  have f₈ : SameDebug h h₈ := ((f₅.trans (set _ _ _)).trans (set _ _ _)).trans (sstatusWrite h₇ _)
  exact (f₈.trans (ite (set _ _ _) (refl h₈))).trans (setPrivilege _ _)

theorem trapToM (h : Hart) (t : Trap) (epc : Reg) : SameDebug h (h.trapToM cfg t epc) := by
  unfold Hart.trapToM
  extract_lets prv currVirt h₁ h₂ h₃ h₄ h₅ h₆ h₇ s h₈ h₉
  have f₁ : SameDebug h h₁ := setVirt h false
  have f₂ : SameDebug h h₂ := f₁.trans ⟨rfl, rfl, rfl, rfl, rfl⟩
  have f₇ : SameDebug h h₇ :=
    ((((f₂.trans (set _ _ _)).trans (set _ _ _)).trans (set _ _ _)).trans (set _ _ _)).trans
      (set _ _ _)
  exact ((f₇.trans (mstatusWrite h₇ s)).trans (mstatushWrite h₈ _)).trans (setPrivilege _ _)

/-- **Traps leave debugging alone.** -/
theorem takeTrap (h : Hart) (t : Trap) (epc : Reg) : SameDebug h (h.takeTrap cfg t epc) := by
  rw [Hart.takeTrap]
  split
  · exact ⟨rfl, rfl, rfl, rfl, rfl⟩
  · split
    · exact trapToVs h t epc
    · exact trapToHs h t epc
    · exact trapToM h t epc

end SameDebug

/-- No trap writes the counter. -/
theorem minstret_takeTrap {cfg : Config} {h : Hart} (t : Trap) (epc : Reg) :
    (h.takeTrap cfg t epc).reg .minstret = h.reg .minstret := by
  cases hd : h.debugMode with
  | true =>
    rw [takeTrap, hd, if_pos rfl]
  | false =>
    have hentry := takeTrap_entry cfg hd t epc
    cases hdest : h.trapDestination cfg t with
    | vs =>
      rw [hdest] at hentry
      exact hentry.reg .minstret rfl
    | hs =>
      rw [hdest] at hentry
      exact hentry.reg .minstret rfl
    | m =>
      rw [hdest] at hentry
      exact hentry.reg .minstret rfl

theorem minstret_enterDebugMode {cfg : Config} {h : Hart} (cause : Reg) :
    (h.enterDebugMode cfg cause).reg .minstret = h.reg .minstret := rfl

/-! ### Fetches -/

/-- Nothing has been done: what a program sees of the hart is as it was, and no count of a trigger
is set back. -/
structure Quiet (h h' : Hart) : Prop where
  pc : h'.pc = h.pc
  prv : h'.prv = h.prv
  v : h'.v = h.v
  dcsr : h'.dcsr = h.dcsr
  extTable : h'.extTable = h.extTable
  debugMode : h'.debugMode = h.debugMode
  reg : ∀ c, c.volatile = false → h'.reg c = h.reg c
  countdown : h'.triggers.countdown ≤ h.triggers.countdown

namespace Quiet

variable {cfg : Config} {h h' h'' : Hart}

theorem refl (h : Hart) : Quiet h h :=
  ⟨rfl, rfl, rfl, rfl, rfl, rfl, fun _ _ => rfl, Nat.le_refl _⟩

theorem trans (q : Quiet h h') (q' : Quiet h' h'') : Quiet h h'' where
  pc := q'.pc.trans q.pc
  prv := q'.prv.trans q.prv
  v := q'.v.trans q.v
  dcsr := q'.dcsr.trans q.dcsr
  extTable := q'.extTable.trans q.extTable
  debugMode := q'.debugMode.trans q.debugMode
  reg c hc := (q'.reg c hc).trans (q.reg c hc)
  countdown := q'.countdown.trans q.countdown

theorem triggers {ts : Triggers} (hts : ts.countdown ≤ h.triggers.countdown) :
    Quiet h { h with triggers := ts } :=
  { refl h with countdown := hts }

theorem singleStep (h : Hart) (s : SingleStep) : Quiet h { h with singleStep := s } :=
  ⟨rfl, rfl, rfl, rfl, rfl, rfl, fun _ _ => rfl, Nat.le_refl _⟩

theorem inWfi (h : Hart) (b : Bool) : Quiet h { h with inWfi := b } :=
  ⟨rfl, rfl, rfl, rfl, rfl, rfl, fun _ _ => rfl, Nat.le_refl _⟩

theorem bump (h : Hart) (instret : Reg) : Quiet h (h.bump instret) where
  pc := rfl
  prv := rfl
  v := rfl
  dcsr := rfl
  extTable := rfl
  debugMode := rfl
  reg c hc := by
    have hcycle : c ≠ .mcycle := by rintro rfl; exact absurd hc (by decide)
    have hinstret : c ≠ .minstret := by rintro rfl; exact absurd hc (by decide)
    rw [Hart.bump, reg_set, if_neg hcycle, reg_set, if_neg hinstret]
  countdown := Nat.le_refl _

theorem extensionEnabled (q : Quiet h h') (ext : Ext) :
    h'.extensionEnabled ext = h.extensionEnabled ext := by
  rw [Hart.extensionEnabled, Hart.extensionEnabled, q.extTable, q.reg .misa rfl]

theorem legalizePrivilege (q : Quiet h h') (prv : Reg) :
    h'.legalizePrivilege prv = h.legalizePrivilege prv := by
  rw [Hart.legalizePrivilege, Hart.legalizePrivilege, q.extensionEnabled, q.extensionEnabled]

theorem wellFormed (q : Quiet h h') (wf : WellFormed cfg h) : WellFormed cfg h' where
  regs := wf.regs.congr (fun c hc => q.reg c (by cases c <;> first | rfl | cases hc)) q.extTable
  prv := q.prv ▸ wf.prv
  dcsr := q.dcsr ▸ wf.dcsr
  virt := q.v ▸ wf.virt

end Quiet

/-! ### Even addresses -/

/-- The program counter is even, and so is whatever traps and returns make of the registers. -/
structure EvenPc (h : Hart) : Prop where
  even : h.pc.getLsbD 0 = false
  targets : Targets h

namespace EvenPc

variable {cfg : Config} {h h' : Hart}

theorem of_pcOk (ok : PcOk h) : EvenPc h :=
  ⟨ok.pc.even, ok.targets⟩

/-- Registers that devices and counters leave alone are enough. -/
theorem congr (e : EvenPc h) (hpc : h'.pc = h.pc)
    (hreg : ∀ c, c.volatile = false → h'.reg c = h.reg c) :
    EvenPc h' := by
  refine ⟨hpc ▸ e.even, e.targets.of_reg fun c hc => hreg c ?_⟩
  cases c <;> first | rfl | exact absurd hc Bool.noConfusion

theorem quiet (e : EvenPc h) (q : Quiet h h') : EvenPc h' :=
  e.congr q.pc q.reg

theorem withPc (e : EvenPc h) {pc : Reg} (heven : pc.getLsbD 0 = false) :
    EvenPc { h with pc := pc } :=
  ⟨heven, e.targets.of_reg fun _ _ => rfl⟩

theorem takeTrap (e : EvenPc h) (t : Trap) (epc : Reg) : EvenPc (h.takeTrap cfg t epc) :=
  ⟨(lowZero_takeTrap e.targets t epc).getLsbD (by decide),
    e.targets.controlWrites (.takeTrap t epc)⟩

theorem enterDebugMode (e : EvenPc h) (cause : Reg) : EvenPc (h.enterDebugMode cfg cause) :=
  ⟨show debugRomEntry.getLsbD 0 = false by decide, e.targets.controlWrites (.enterDebugMode cause)⟩

theorem abort (e : EvenPc h) : EvenPc h.abort :=
  e.congr rfl fun _ _ => rfl

/-- A return goes to what an `epc` register reads as. -/
theorem returns (e : EvenPc h) (w : ControlWrites cfg h h') {epc : Reg}
    (heven : epc.getLsbD 0 = false)
    (hpc : h'.pc = epc &&& h.pcAlignmentMask) : EvenPc h' := by
  refine ⟨?_, e.targets.controlWrites w⟩
  rw [hpc, BitVec.getLsbD_and, heven, Bool.false_and]

/-- The next instruction is at an even address. -/
theorem even_next (e : EvenPc h) : (Hart.sextXlen cfg (h.pc + 4#64)).getLsbD 0 = false := by
  rw [getLsbD_sextXlen _ (by decide),
    Bits.LowZero.getLsbD_add (k := 1) (by decide) (by decide) _ (by decide)]
  exact e.even

theorem csrInsn (e : EvenPc h) {which : Nat} {insn : CsrInsn}
    (hok : h.csrInsn cfg which insn = .ok h') :
    EvenPc h' := by
  obtain ⟨h₁, w, rfl⟩ := csrInsn_writes hok
  refine ⟨?_, (e.targets.objWrites w).of_reg fun _ _ => rfl⟩
  show (Hart.sextXlen cfg (h.pc + 4#64) &&& h₁.pcAlignmentMask).getLsbD 0 = false
  rw [BitVec.getLsbD_and, e.even_next, Bool.false_and]

/-- What a device does to the hart between two instructions. -/
theorem timeSync (e : EvenPc h) (mtime : Reg) : EvenPc (h.timeSync mtime) := by
  have hpc : (h.timeSync mtime).pc = h.pc := by
    rw [Hart.timeSync]
    dsimp only
    split
    · rfl
    · rfl
  refine ⟨hpc ▸ e.even, e.targets.of_regFrame (regFrame_timeSync mtime) fun c hc => ?_⟩
  cases c <;> first | rfl | exact absurd hc Bool.noConfusion

theorem pin (e : EvenPc h) (p : Pin) (val : Reg) : EvenPc (h.writeWithMask .mip p.mask val) := by
  refine e.congr rfl fun c hc => ?_
  have hne : c ≠ .mip := by
    rintro rfl
    cases hc
  rw [writeWithMask, reg_set, if_neg hne]

theorem reset (cfg : Config) (h : Hart) (halt : Bool) : EvenPc (Hart.reset cfg h halt) :=
  .of_pcOk (.reset cfg h halt)

end EvenPc

/-- The program counter of a reachable hart is even. -/
theorem Reachable.evenPc {cfg : Config} {h : Hart} (hr : Reachable cfg h) : EvenPc h := by
  obtain ⟨halt, ops, rfl⟩ := hr
  exact .of_pcOk (PcOk.runFrom (.reset _ (unbuilt cfg) halt) ops)

/-! ### What traps and actions do -/

/-- What traps, debug entry, trigger actions and the flags of triggers keep. -/
structure Acted (cfg : Config) (h h' : Hart) : Prop where
  minstret : h'.reg .minstret = h.reg .minstret
  wellFormed : WellFormed cfg h → WellFormed cfg h'
  evenPc : EvenPc h → EvenPc h'

namespace Acted

variable {cfg : Config} {h h' h'' : Hart}

theorem refl (h : Hart) : Acted cfg h h :=
  ⟨rfl, id, id⟩

theorem trans (a : Acted cfg h h') (a' : Acted cfg h' h'') : Acted cfg h h'' where
  minstret := a'.minstret.trans a.minstret
  wellFormed wf := a'.wellFormed (a.wellFormed wf)
  evenPc e := a'.evenPc (a.evenPc e)

theorem quiet (q : Quiet h h') (hminstret : h'.reg .minstret = h.reg .minstret) : Acted cfg h h' :=
  ⟨hminstret, fun wf => q.wellFormed wf, fun e => e.quiet q⟩

theorem takeTrap (h : Hart) (t : Trap) (epc : Reg) : Acted cfg h (h.takeTrap cfg t epc) :=
  ⟨minstret_takeTrap t epc, fun wf => wf.takeTrap t epc, fun e => e.takeTrap t epc⟩

theorem enterDebugMode (h : Hart) (cause : Reg) : Acted cfg h (h.enterDebugMode cfg cause) :=
  ⟨minstret_enterDebugMode cause, fun wf => wf.enterDebugMode cause,
    fun e => e.enterDebugMode cause⟩

theorem abort (h : Hart) : Acted cfg h h.abort :=
  ⟨rfl, fun wf => wf.abort, fun e => e.abort⟩

theorem takeTriggerAction (h : Hart) (action : Trigger.Action) (tval epc : Reg) :
    Acted cfg h (h.takeTriggerAction cfg action tval epc) := by
  cases action with
  | debugException => exact .takeTrap h _ _
  | debugMode => exact .enterDebugMode h _
  | _ => exact .abort h

/-- The end of a single step. -/
theorem endStep (h : Hart) (cause : Reg) :
    Acted cfg h ({ h with singleStep := .none }.enterDebugMode cfg cause) :=
  (Acted.quiet (.singleStep h .none) rfl).trans (.enterDebugMode _ cause)

theorem triggers (h : Hart) (ts : Triggers) : Acted cfg h { h with triggers := ts } :=
  ⟨rfl, fun wf => ⟨wf.regs, wf.prv, wf.dcsr, wf.virt⟩, fun e => e.congr rfl fun _ _ => rfl⟩

end Acted

/-! ### Harts that run -/

/-- A hart as the loop relies on it: it is well formed, and at even addresses. -/
structure Fit (cfg : Config) (h : Hart) : Prop where
  wf : WellFormed cfg h
  evenPc : EvenPc h

namespace Fit

variable {cfg : Config} {h h' : Hart}

theorem quiet (f : Fit cfg h) (q : Quiet h h') : Fit cfg h' :=
  ⟨q.wellFormed f.wf, f.evenPc.quiet q⟩

theorem acted (f : Fit cfg h) (a : Acted cfg h h') : Fit cfg h' :=
  ⟨a.wellFormed f.wf, a.evenPc f.evenPc⟩

theorem withPc (f : Fit cfg h) {pc : Reg} (heven : pc.getLsbD 0 = false) :
    Fit cfg { h with pc := pc } :=
  ⟨f.wf.withPc pc, f.evenPc.withPc heven⟩

theorem timeSync (f : Fit cfg h) (mtime : Reg) : Fit cfg (h.timeSync mtime) :=
  ⟨f.wf.timeSync mtime, f.evenPc.timeSync mtime⟩

theorem pin (f : Fit cfg h) (p : Pin) (val : Reg) : Fit cfg (h.writeWithMask .mip p.mask val) :=
  ⟨f.wf.mip p.mask val, f.evenPc.pin p val⟩

end Fit

/-- Reachable harts are fit. -/
theorem Reachable.fit {cfg : Config} {h : Hart} (hr : Reachable cfg h) : Fit cfg h :=
  ⟨hr.wellFormed, hr.evenPc⟩

end Hart

end Nnemu

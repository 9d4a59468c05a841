import Nnemu.Hart.Entry
import Nnemu.Hart.Reachable

/-!
# What an event leaves alone

`Frame` is about CSR writes, which keep the mode. Traps, returns and debug entry change the mode as
well, but they write few registers: those in `Csr.control`. `ControlWrites` lists what such an event
is made of, and one lemma for each of them says that it is. What only looks at registers is then
argued by induction over these writes (`ControlWrites.induct`), and `HartOp.footprint` says for each
event which registers it may change.

`Csr.control` has the registers the trap and return code names: the status registers, and the
registers of exceptions in the three modes, and those of the non-maskable interrupts. `RegFrame` is
`Frame` without the mode, and holds of every event whose footprint does not have `misa`.
-/

namespace Nnemu

/-- The registers that traps, returns and debug entry write. -/
def Csr.control : Csr → Bool
  | mstatus | mepc | mcause | mtval | mtval2 | mtinst => true
  | hstatus | scause | sepc | stval | htval | htinst => true
  | vsstatus | vscause | vsepc | vstval => true
  | mnstatus | dpc => true
  | _ => false

/-- The registers an event may change. -/
def HartOp.footprint : HartOp → Csr → Bool
  | csr _ _ _ => fun _ => true
  | mret _ => Csr.control
  | sret _ => Csr.control
  | mnret _ => Csr.control
  | dret _ => Csr.control
  | retire _ => fun _ => false
  | dirty _ => Csr.dirtyFootprint
  | exception _ _ _ _ _ => Csr.control
  | interrupt => Csr.control
  | enterDebug _ => Csr.control
  | triggers _ => fun _ => false
  | wfi => fun _ => false
  | bump _ => fun c => c = .minstret || c = .mcycle
  | timeSync _ => fun c => c = .time || c = .mip
  | pin _ _ => fun c => c = .mip
  | reset _ => fun _ => true

namespace Hart

variable {cfg : Config} {h h' h'' : Hart}

/-! ### The registers alone -/

/-- The parts of a hart that are no registers may differ. -/
structure SameRegs (h h' : Hart) : Prop where
  reg : h'.reg = h.reg
  extTable : h'.extTable = h.extTable
  builtWithMmu : h'.builtWithMmu = h.builtWithMmu

theorem SameRegs.setVirt (h : Hart) (virt : Bool) : SameRegs h (h.setVirt virt) := by
  rw [Hart.setVirt]
  split
  · exact ⟨rfl, rfl, rfl⟩
  · exact ⟨rfl, rfl, rfl⟩

/-- Only the registers in `changed` differ; the extensions stay, and so do the masks that are fixed
when the objects are built. -/
structure RegFrame (changed : Csr → Bool) (h h' : Hart) : Prop where
  reg : ∀ c, changed c = false → h'.reg c = h.reg c
  extTable : h'.extTable = h.extTable
  builtWithMmu : h'.builtWithMmu = h.builtWithMmu

namespace RegFrame

variable {s : Csr → Bool}

theorem refl (s : Csr → Bool) (h : Hart) : RegFrame s h h :=
  ⟨fun _ _ => rfl, rfl, rfl⟩

theorem trans (f : RegFrame s h h') (g : RegFrame s h' h'') : RegFrame s h h'' where
  reg c hc := (g.reg c hc).trans (f.reg c hc)
  extTable := g.extTable.trans f.extTable
  builtWithMmu := g.builtWithMmu.trans f.builtWithMmu

theorem of_sameRegs (f : SameRegs h h') : RegFrame s h h' :=
  ⟨fun c _ => congrFun f.reg c, f.extTable, f.builtWithMmu⟩

/-- A CSR write that leaves `misa` alone. -/
theorem of_frame (f : Frame s h h') (hm : s .misa = false) : RegFrame s h h' :=
  ⟨f.reg, f.extTable hm, f.builtWithMmu⟩

/-- An extension keeps its state. -/
theorem extensionEnabled (f : RegFrame s h h') (hm : s .misa = false) (ext : Ext) :
    h'.extensionEnabled ext = h.extensionEnabled ext := by
  rw [Hart.extensionEnabled, Hart.extensionEnabled, f.reg _ hm, f.extTable]

end RegFrame

/-! ### What traps and returns are made of -/

/-- The steps of a trap, a return or debug entry: writes to control registers, to `hstatus` with H
only, and steps that touch no register. -/
inductive ControlWrites (cfg : Config) (h : Hart) : Hart → Prop
  | refl : ControlWrites cfg h h
  | write {h' : Hart} (c : Csr) (val : Reg) (hc : c.control = true)
      (hh : c = .hstatus → h'.extensionEnabled .h = true) (w : ControlWrites cfg h h') :
      ControlWrites cfg h (h'.write cfg val c)
  | quiet {h' h'' : Hart} (f : SameRegs h' h'') (w : ControlWrites cfg h h') :
      ControlWrites cfg h h''

namespace ControlWrites

theorem trans (w : ControlWrites cfg h h') (w' : ControlWrites cfg h' h'') :
    ControlWrites cfg h h'' := by
  induction w' with
  | refl => exact w
  | write c val hc hh _ ih => exact .write c val hc hh ih
  | quiet f _ ih => exact .quiet f ih

/-- A step that touches no register. -/
theorem same (w : ControlWrites cfg h h') (f : SameRegs h' h'') : ControlWrites cfg h h'' :=
  .quiet f w

/-- A write to any control register but `hstatus`. -/
theorem other {c : Csr} (w : ControlWrites cfg h h') (val : Reg) (hc : c.control = true)
    (hne : c ≠ .hstatus) : ControlWrites cfg h (h'.write cfg val c) :=
  w.write c val hc fun heq => absurd heq hne

theorem withPc (w : ControlWrites cfg h h') (pc : Reg) : ControlWrites cfg h { h' with pc := pc } :=
  w.same ⟨rfl, rfl, rfl⟩

theorem setPrivilege (w : ControlWrites cfg h h') (prv : Reg) :
    ControlWrites cfg h (h'.setPrivilege prv) :=
  w.same ⟨rfl, rfl, rfl⟩

theorem setVirt (w : ControlWrites cfg h h') (virt : Bool) :
    ControlWrites cfg h (h'.setVirt virt) :=
  w.same (SameRegs.setVirt h' virt)

theorem mstatusWrite (w : ControlWrites cfg h h') (val : Reg) :
    ControlWrites cfg h (h'.mstatusWrite cfg val) :=
  w.other (c := .mstatus) val rfl (by decide)

theorem mstatushWrite (w : ControlWrites cfg h h') (val : Reg) :
    ControlWrites cfg h (h'.mstatushWrite cfg val) := by
  rw [Hart.mstatushWrite]
  split
  · exact w.mstatusWrite _
  · exact w

theorem sstatusWrite (w : ControlWrites cfg h h') (val : Reg) :
    ControlWrites cfg h (h'.sstatusWrite cfg val) := by
  rw [Hart.sstatusWrite]
  split
  · exact w.other (c := .vsstatus) val rfl (by decide)
  · exact w.mstatusWrite _

theorem virtWrite (w : ControlWrites cfg h h') {c v : Csr} (val : Reg) (hc : c.control = true)
    (hv : v.control = true) (hne : c ≠ .hstatus) (hne' : v ≠ .hstatus) :
    ControlWrites cfg h (h'.virtWrite cfg c v val) := by
  rw [Hart.virtWrite]
  split
  · exact w.other val hv hne'
  · exact w.other val hc hne

/-- A trap to VS writes its exception registers and `vsstatus`. -/
theorem trapToVs (t : Trap) (epc : Reg) : ControlWrites cfg h (h.trapToVs cfg t epc) := by
  unfold Hart.trapToVs
  extract_lets prv interrupt h₁ h₂ h₃ h₄ h₅
  have w₂ : ControlWrites cfg h h₂ := (refl.withPc _).other (c := .vscause) _ rfl (by decide)
  have w₃ : ControlWrites cfg h h₃ := w₂.other (c := .vsepc) _ rfl (by decide)
  have w₄ : ControlWrites cfg h h₄ := w₃.other (c := .vstval) _ rfl (by decide)
  exact (w₄.sstatusWrite _).setPrivilege _

/-- A trap to HS writes its exception registers, `mstatus` and `hstatus`. -/
theorem trapToHs (t : Trap) (epc : Reg) : ControlWrites cfg h (h.trapToHs cfg t epc) := by
  unfold Hart.trapToHs
  extract_lets prv currVirt h₁ h₂ h₃ h₄ h₅ h₆ h₇ h₈ h₉
  have w₂ : ControlWrites cfg h h₂ := (refl.setVirt false).withPc _
  have w₃ : ControlWrites cfg h h₃ := w₂.virtWrite _ rfl rfl (by decide) (by decide)
  have w₄ : ControlWrites cfg h h₄ := w₃.virtWrite _ rfl rfl (by decide) (by decide)
  have w₅ : ControlWrites cfg h h₅ := w₄.virtWrite _ rfl rfl (by decide) (by decide)
  have w₆ : ControlWrites cfg h h₆ := w₅.other (c := .htval) _ rfl (by decide)
  have w₇ : ControlWrites cfg h h₇ := w₆.other (c := .htinst) _ rfl (by decide)
  have w₈ : ControlWrites cfg h h₈ := w₇.sstatusWrite _
  refine setPrivilege ?_ _
  show ControlWrites cfg h (if _ then _ else _)
  split
  · rename_i hh
    exact w₈.write .hstatus _ rfl fun _ => hh
  · exact w₈

/-- A trap to M writes its exception registers and the status. -/
theorem trapToM (t : Trap) (epc : Reg) : ControlWrites cfg h (h.trapToM cfg t epc) := by
  unfold Hart.trapToM
  extract_lets prv currVirt h₁ h₂ h₃ h₄ h₅ h₆ h₇ s h₈ h₉
  have w₂ : ControlWrites cfg h h₂ := (refl.setVirt false).withPc _
  have w₃ : ControlWrites cfg h h₃ := w₂.other (c := .mepc) _ rfl (by decide)
  have w₄ : ControlWrites cfg h h₄ := w₃.other (c := .mcause) _ rfl (by decide)
  have w₅ : ControlWrites cfg h h₅ := w₄.other (c := .mtval) _ rfl (by decide)
  have w₆ : ControlWrites cfg h h₆ := w₅.other (c := .mtval2) _ rfl (by decide)
  have w₇ : ControlWrites cfg h h₇ := w₆.other (c := .mtinst) _ rfl (by decide)
  exact ((w₇.mstatusWrite s).mstatushWrite _).setPrivilege _

theorem takeTrap (t : Trap) (epc : Reg) : ControlWrites cfg h (h.takeTrap cfg t epc) := by
  rw [Hart.takeTrap]
  split
  · exact refl.withPc _
  · split
    · exact trapToVs t epc
    · exact trapToHs t epc
    · exact trapToM t epc

/-- `mret` writes `mstatus` and goes to another mode. -/
theorem mret (hok : h.mret cfg = .ok h') : ControlWrites cfg h h' := by
  unfold Hart.mret at hok
  split at hok
  · cases hok
  · extract_lets h₁ s h₂ h₃ at hok
    obtain rfl := Except.ok.inj hok
    have w₂ : ControlWrites cfg h h₂ := by
      show ControlWrites cfg h (h₁.putCsr cfg 0x300 _)
      rw [putCsr_mstatus]
      exact (refl.withPc _).mstatusWrite _
    exact (w₂.setPrivilege _).setVirt _

/-- `sret` writes `sstatus`, and `hstatus` where it leaves HS. -/
theorem sret (hok : h.sret cfg = .ok h') : ControlWrites cfg h h' := by
  unfold Hart.sret at hok
  split at hok
  · cases hok
  · extract_lets prevHstatus h₁ s h₂ h₃ h₄ at hok
    have w₃ : ControlWrites cfg h h₃ := ((refl.withPc _).sstatusWrite _).setPrivilege _
    split at hok
    · obtain rfl := Except.ok.inj hok
      exact w₃
    · obtain rfl := Except.ok.inj hok
      refine mstatusWrite ?_ _
      show ControlWrites cfg h (if _ then _ else _)
      split
      · rename_i hh
        refine (w₃.setVirt _).write .hstatus _ rfl fun _ => ?_
        rw [extensionEnabled_setVirt]
        exact hh
      · exact w₃

theorem mnret (hok : h.mnret cfg = .ok h') : ControlWrites cfg h h' := by
  unfold Hart.mnret at hok
  split at hok
  · cases hok
  split at hok
  · cases hok
  · extract_lets h₁ s prevPrv h₂ h₃ h₄ at hok
    obtain rfl := Except.ok.inj hok
    have w₁ : ControlWrites cfg h h₁ := refl.withPc _
    have w₂ : ControlWrites cfg h h₂ := by
      show ControlWrites cfg h (if _ then _ else _)
      split
      · exact w₁.mstatusWrite _
      · exact w₁
    have w₃ : ControlWrites cfg h h₃ := w₂.other (c := .mnstatus) _ rfl (by decide)
    exact (w₃.setPrivilege _).setVirt _

/-- `dret` clears `MPRV` of `mstatus` on the way to a level below M. -/
theorem dret (hok : h.dret cfg = .ok h') : ControlWrites cfg h h' := by
  unfold Hart.dret at hok
  split at hok
  · cases hok
  · extract_lets h₁ h₂ h₃ h₄ at hok
    obtain rfl := Except.ok.inj hok
    have w₂ : ControlWrites cfg h h₂ := (refl.withPc _).setPrivilege _
    have w₃ : ControlWrites cfg h h₃ := by
      show ControlWrites cfg h (if _ then _ else _)
      split
      · exact w₂.mstatusWrite _
      · exact w₂
    have w₄ : ControlWrites cfg h h₄ := w₃.same ⟨rfl, rfl, rfl⟩
    split
    · exact w₄.same ⟨rfl, rfl, rfl⟩
    · exact w₄

/-- Debug entry writes `dpc`; the cause goes to `dcsr`, which is kept apart. -/
theorem enterDebugMode (cause : Reg) : ControlWrites cfg h (h.enterDebugMode cfg cause) := by
  unfold Hart.enterDebugMode
  extract_lets dcsr h₁ h₂ h₃
  have w₁ : ControlWrites cfg h h₁ := refl.same ⟨rfl, rfl, rfl⟩
  have w₃ : ControlWrites cfg h h₃ := (w₁.setPrivilege _).other (c := .dpc) _ rfl (by decide)
  exact w₃.same ⟨rfl, rfl, rfl⟩

theorem takePendingInterrupt : ControlWrites cfg h (h.takePendingInterrupt cfg) := by
  unfold Hart.takePendingInterrupt
  extract_lets pending awake
  have wa : SameRegs h awake := by
    show SameRegs h (if _ then _ else _)
    split
    · exact ⟨rfl, rfl, rfl⟩
    · exact ⟨rfl, rfl, rfl⟩
  split
  · exact refl.same wa
  · exact trans (refl.same wa) (takeTrap _ _)
  · exact (refl.same wa).same ⟨rfl, rfl, rfl⟩

theorem refused (bits : Reg) (r : Refusal) : ControlWrites cfg h (h.refused cfg bits r) := by
  cases r with
  | illegal => exact takeTrap _ _
  | virtual => exact takeTrap _ _
  | crash => exact refl.same ⟨rfl, rfl, rfl⟩

theorem orRefused (bits : Reg) {result : Except Refusal Hart}
    (hok : ∀ h', result = .ok h' → ControlWrites cfg h h') :
    ControlWrites cfg h (h.orRefused cfg bits result) := by
  cases result with
  | ok h' => exact hok h' rfl
  | error r => exact refused bits r

/-- A control register brings no other with it. -/
theorem footprint_control {c c' : Csr} (hc : c.control = true) (hc' : c'.control = false) :
    c.footprint c' = false := by
  have hside : c.sideFootprint = fun _ => false := by
    cases c <;> first | rfl | exact absurd hc (by decide)
  rw [Csr.footprint, hside, Bool.or_false, decide_eq_false_iff_not]
  rintro rfl
  exact absurd (hc.symm.trans hc') (by decide)

/-- The other registers stay. -/
theorem regFrame (w : ControlWrites cfg h h') : RegFrame Csr.control h h' := by
  induction w with
  | refl => exact .refl _ h
  | @write h₁ c val hc _ _ ih =>
    have f : Frame c.footprint h₁ (h₁.write cfg val c) := Frame.write val c
    exact ih.trans ⟨fun c' hc' => f.reg c' (footprint_control hc hc'),
      f.extTable (footprint_control hc rfl),
      f.builtWithMmu⟩
  | quiet f _ ih => exact ih.trans (.of_sameRegs f)

end ControlWrites

/-! ### Events -/

/-- The events that are made of control writes. -/
def ControlEvent : HartOp → Prop
  | .mret _ | .sret _ | .mnret _ | .dret _ | .exception _ _ _ _ _ | .interrupt | .enterDebug
    _ => True
  | .retire _ | .triggers _ | .wfi => True
  | _ => False

/-- **Traps and returns write control registers only.** -/
theorem controlWrites_event {op : HartOp} (hop : ControlEvent op) :
    ControlWrites cfg h (h.event cfg op) := by
  cases op with
  | mret bits => exact .orRefused bits fun _ => .mret
  | sret bits => exact .orRefused bits fun _ => .sret
  | mnret bits => exact .orRefused bits fun _ => .mnret
  | dret bits => exact .orRefused bits fun _ => .dret
  | exception code gva tval tval2 tinst => exact .takeTrap _ _
  | interrupt => exact .takePendingInterrupt
  | enterDebug cause => exact .enterDebugMode cause
  | retire npc => exact .same .refl ⟨rfl, rfl, rfl⟩
  | triggers ts => exact .same .refl ⟨rfl, rfl, rfl⟩
  | wfi => exact .same .refl ⟨rfl, rfl, rfl⟩
  | _ => exact absurd hop id

/-- The time and the two timer bits of `mip` are what a comparison changes. -/
theorem regFrame_timeSync (mtime : Reg) :
    RegFrame (fun c => c = .time || c = .mip) h (h.timeSync mtime) := by
  unfold Hart.timeSync
  extract_lets h₁ mipVal
  refine .of_frame (Frame.trans (Frame.set (c := .time) rfl mtime) ?_) rfl
  exact Frame.ite (Frame.set rfl _) (Frame.refl _ _)

/-- **Footprints of events.** An event that leaves `misa` alone changes the registers in its
footprint only. -/
theorem RegFrame.event (op : HartOp) (hm : op.footprint .misa = false) :
    RegFrame op.footprint h (h.event cfg op) := by
  cases op with
  | csr which insn bits => exact absurd hm Bool.noConfusion
  | reset halt => exact absurd hm Bool.noConfusion
  | retire npc => exact .of_sameRegs ⟨rfl, rfl, rfl⟩
  | triggers ts => exact .of_sameRegs ⟨rfl, rfl, rfl⟩
  | wfi => exact .of_sameRegs ⟨rfl, rfl, rfl⟩
  | dirty state =>
    show RegFrame Csr.dirtyFootprint h (if _ then _ else _)
    split
    · exact .of_frame (Frame.dirty _) rfl
    · exact .refl _ _
  | bump instret =>
    exact .of_frame ((Frame.set (c := .minstret) rfl _).trans (Frame.set (c := .mcycle) rfl _)) rfl
  | timeSync mtime => exact regFrame_timeSync mtime
  | pin p level => exact .of_frame (Frame.set rfl _) rfl
  | mret bits => exact (ControlWrites.orRefused bits fun _ => .mret).regFrame
  | sret bits => exact (ControlWrites.orRefused bits fun _ => .sret).regFrame
  | mnret bits => exact (ControlWrites.orRefused bits fun _ => .mnret).regFrame
  | dret bits => exact (ControlWrites.orRefused bits fun _ => .dret).regFrame
  | exception code gva tval tval2 tinst => exact (ControlWrites.takeTrap _ _).regFrame
  | interrupt => exact ControlWrites.takePendingInterrupt.regFrame
  | enterDebug cause => exact (ControlWrites.enterDebugMode cause).regFrame

end Hart

end Nnemu

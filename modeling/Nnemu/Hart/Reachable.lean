import Nnemu.Hart.Invariant

/-!
# What holds in every reachable state

`WellFormed` adds the privilege level to the register invariant. One lemma for each event says that
it is kept; the induction over runs then gives it for every reachable hart, whatever the program and
the environment do.

Most events are sequences of writes that `Hart.Invariant` covers. What is new here are the privilege
level and the virtualization mode, which traps, returns and debug mode take from fields of the
status registers: `enabled_of_mpv` and `enabled_of_mnpv` say that those fields can only hold what
the hart implements. Every other invariant of this part is proved over reachable harts and uses
`Reachable.wellFormed`.
-/

namespace Nnemu

namespace Hart

/-- **The invariant of a hart.** -/
structure WellFormed (cfg : Config) (h : Hart) : Prop where
  regs : RegsOk cfg h.reg h.extTable
  prv : cfg.Implemented h.prv
  dcsr : h.dcsr.prv.toNat ≤ 3
  /-- virtualization needs a configuration with H -/
  virt : h.v = true → cfg.isa.table .h = true

namespace WellFormed

variable {cfg : Config} {h h' : Hart}

/-! ### Small steps -/

/-- A write that keeps the mode keeps the invariant when it keeps the registers in order. -/
theorem of_frame {s : Csr → Bool} (wf : WellFormed cfg h) (f : Frame s h h')
    (hregs : RegsOk cfg h'.reg h'.extTable) : WellFormed cfg h' where
  regs := hregs
  prv := by rw [f.prv]; exact wf.prv
  dcsr := f.dcsr wf.dcsr
  virt := by rw [f.v]; exact wf.virt

/-- The program counter does not matter. -/
theorem withPc (wf : WellFormed cfg h) (pc : Reg) : WellFormed cfg { h with pc := pc } :=
  ⟨wf.regs, wf.prv, wf.dcsr, wf.virt⟩

theorem abort (wf : WellFormed cfg h) : WellFormed cfg h.abort :=
  ⟨wf.regs, wf.prv, wf.dcsr, wf.virt⟩

theorem setPcAndSerialize (wf : WellFormed cfg h) (x : Reg) :
    WellFormed cfg (h.setPcAndSerialize x) :=
  wf.withPc _

/-- A write to an object that needs no permission check. -/
theorem write (wf : WellFormed cfg h) {c : Csr} (hc : (CsrObj.plain c).free = true) (val : Reg) :
    WellFormed cfg (h.write cfg val c) :=
  wf.of_frame (Frame.anyWrite val c) (wf.regs.write (canWrite_of_free hc) val)

theorem mstatusWrite (wf : WellFormed cfg h) (val : Reg) :
    WellFormed cfg (h.mstatusWrite cfg val) :=
  wf.write (c := .mstatus) rfl val

theorem mstatushWrite (wf : WellFormed cfg h) (val : Reg) :
    WellFormed cfg (h.mstatushWrite cfg val) :=
  wf.of_frame (Frame.mstatushWrite (s := fun _ => true) rfl val) (wf.regs.mstatushWrite val)

theorem virtWrite (wf : WellFormed cfg h) {c v : Csr} (hc : (CsrObj.plain c).free = true)
    (hv : (CsrObj.plain v).free = true) (val : Reg) : WellFormed cfg (h.virtWrite cfg c v val) := by
  rw [Hart.virtWrite]
  split
  · exact wf.write hv val
  · exact wf.write hc val

theorem sstatusWrite (wf : WellFormed cfg h) (val : Reg) :
    WellFormed cfg (h.sstatusWrite cfg val) := by
  rw [Hart.sstatusWrite]
  split
  · exact wf.write (c := .vsstatus) rfl val
  · exact wf.mstatusWrite _

/-- A masked write of `mip`. -/
theorem mip (wf : WellFormed cfg h) (mask val : Reg) :
    WellFormed cfg (h.writeWithMask .mip mask val) :=
  ⟨wf.regs.set_untracked rfl, wf.prv, wf.dcsr, wf.virt⟩

/-- A write to `mstatus` by its address. -/
theorem putMstatus (wf : WellFormed cfg h) (val : Reg) :
    WellFormed cfg (h.putCsr cfg 0x300 val) := by
  rw [putCsr_mstatus]
  exact wf.mstatusWrite _

/-- A change of the privilege level. -/
theorem setPrivilege (wf : WellFormed cfg h) {prv : Reg} (hp : prv.toNat ≤ 3) :
    WellFormed cfg (h.setPrivilege prv) :=
  ⟨wf.regs, implemented_legalizePrivilege wf.regs hp, wf.dcsr, wf.virt⟩

/-- A change of virtualization, to `true` with H only. -/
theorem setVirt (wf : WellFormed cfg h) {virt : Bool} (hv : virt = true → cfg.isa.table .h = true) :
    WellFormed cfg (h.setVirt virt) := by
  rw [Hart.setVirt]
  split
  · exact wf
  · exact ⟨wf.regs, wf.prv, wf.dcsr, hv⟩

/-- The levels fit in two bits. -/
theorem prv_le (wf : WellFormed cfg h) : h.prv.toNat ≤ 3 := by
  obtain heq | ⟨heq, -⟩ | ⟨heq, -⟩ := wf.prv
  · rw [heq]; decide
  · rw [heq]; decide
  · rw [heq]; decide

/-! ### Traps -/

/-- A trap to VS saves the mode in `vsstatus` and goes to S with `V = 1`. -/
theorem trapToVs (wf : WellFormed cfg h) (t : Trap) (epc : Reg) :
    WellFormed cfg (h.trapToVs cfg t epc) := by
  unfold Hart.trapToVs
  extract_lets prv interrupt h₁ h₂ h₃ h₄ h₅
  have wf₁ : WellFormed cfg h₁ := wf.withPc _
  have wf₄ : WellFormed cfg h₄ :=
    ((wf₁.write (c := .vscause) rfl _).write (c := .vsepc) rfl _).write (c := .vstval) rfl _
  exact (wf₄.sstatusWrite _).setPrivilege (by decide)

/-- A trap to HS saves the mode in `mstatus` and `hstatus`. -/
theorem trapToHs (wf : WellFormed cfg h) (t : Trap) (epc : Reg) :
    WellFormed cfg (h.trapToHs cfg t epc) := by
  unfold Hart.trapToHs
  extract_lets prv currVirt h₁ h₂ h₃ h₄ h₅ h₆ h₇ h₈ h₉
  have wf₂ : WellFormed cfg h₂ := (wf.setVirt (fun hv => absurd hv (by decide))).withPc _
  have wf₅ : WellFormed cfg h₅ :=
    ((wf₂.virtWrite (c := .scause) (v := .vscause) rfl rfl _).virtWrite (c := .sepc) (v := .vsepc)
      rfl rfl _).virtWrite (c := .stval) (v := .vstval) rfl rfl _
  have wf₈ : WellFormed cfg h₈ :=
    ((wf₅.write (c := .htval) rfl _).write (c := .htinst) rfl _).sstatusWrite _
  refine setPrivilege ?_ (by decide)
  show WellFormed cfg (if _ then _ else _)
  split
  · exact wf₈.write (c := .hstatus) rfl _
  · exact wf₈

/-- A trap to M saves the mode in `mstatus`, of which the upper half is written separately. -/
theorem trapToM (wf : WellFormed cfg h) (t : Trap) (epc : Reg) :
    WellFormed cfg (h.trapToM cfg t epc) := by
  unfold Hart.trapToM
  extract_lets prv currVirt h₁ h₂ h₃ h₄ h₅ h₆ h₇ s h₈ h₉
  have wf₂ : WellFormed cfg h₂ := (wf.setVirt (fun hv => absurd hv (by decide))).withPc _
  have wf₇ : WellFormed cfg h₇ :=
    ((((wf₂.write (c := .mepc) rfl _).write (c := .mcause) rfl _).write (c := .mtval) rfl _).write
      (c := .mtval2) rfl _).write (c := .mtinst) rfl _
  exact ((wf₇.mstatusWrite s).mstatushWrite _).setPrivilege (by decide)

/-- A trap, to whatever level it goes. -/
theorem takeTrap (wf : WellFormed cfg h) (t : Trap) (epc : Reg) :
    WellFormed cfg (h.takeTrap cfg t epc) := by
  rw [Hart.takeTrap]
  split
  · exact wf.withPc _
  · split
    · exact wf.trapToVs t epc
    · exact wf.trapToHs t epc
    · exact wf.trapToM t epc

/-! ### Returns and debug mode -/

/-- `MPV` is set with H only. -/
theorem enabled_of_mpv (wf : WellFormed cfg h) (hv : hasBits (h.reg .mstatus) mstatusMpv = true) :
    h.extensionEnabled .h = true := by
  rw [extensionEnabled_h]
  cases hh : (h.reg .misa).getLsbD 7 with
  | true => rfl
  | false =>
    rw [mstatusMpv_eq, hasBits_twoPow (by decide), ← BitVec.getLsbD_eq_getElem,
      wf.regs.mpv hh] at hv
    exact absurd hv (by decide)

/-- `MNPV` is set with H only. -/
theorem enabled_of_mnpv (wf : WellFormed cfg h) (hs : h.extensionEnabled .smrnmi = true)
    (hv : hasBits (h.reg .mnstatus) mnstatusMnpv = true) : h.extensionEnabled .h = true := by
  rw [wf.regs.enabled_fixed .smrnmi rfl rfl] at hs
  rw [extensionEnabled_h]
  cases hh : (h.reg .misa).getLsbD 7 with
  | true => rfl
  | false =>
    rw [mnstatusMnpv_eq, hasBits_twoPow (by decide), ← BitVec.getLsbD_eq_getElem,
      wf.regs.mnpv hs hh] at hv
    exact absurd hv (by decide)

/-- `mret` goes to the mode in `MPP` and `MPV`, which the invariant says is implemented. -/
theorem mret (wf : WellFormed cfg h) (hok : h.mret cfg = .ok h') : WellFormed cfg h' := by
  unfold Hart.mret at hok
  split at hok
  · exact absurd hok (by simp)
  · extract_lets h₁ s h₂ h₃ at hok
    obtain rfl := Except.ok.inj hok
    have wf₁ : WellFormed cfg h₁ := wf.setPcAndSerialize _
    have wf₃ : WellFormed cfg h₃ := (wf₁.putMstatus _).setPrivilege (getField_mpp_le s)
    exact wf₃.setVirt fun hv => wf.regs.table_h (wf.enabled_of_mpv hv)

/-- `sret` goes to S at most. -/
theorem sret (wf : WellFormed cfg h) (hok : h.sret cfg = .ok h') : WellFormed cfg h' := by
  unfold Hart.sret at hok
  split at hok
  · exact absurd hok (by simp)
  · extract_lets prevHstatus h₁ s h₂ h₃ h₄ at hok
    have wf₁ : WellFormed cfg h₁ := wf.setPcAndSerialize _
    have wf₃ : WellFormed cfg h₃ := by
      refine (wf₁.sstatusWrite _).setPrivilege ?_
      exact Nat.le_trans (getField_toNat_le (k := 8) rfl (by decide) s) (by decide)
    split at hok
    · obtain rfl := Except.ok.inj hok
      exact wf₃
    · obtain rfl := Except.ok.inj hok
      refine mstatusWrite ?_ _
      show WellFormed cfg (if _ then _ else _)
      split
      · rename_i hh
        exact (wf₃.setVirt fun _ => wf₃.regs.table_h hh).write (c := .hstatus) rfl _
      · exact wf₃

/-- `mnret` goes to the mode in `MNPP` and `MNPV`. -/
theorem mnret (wf : WellFormed cfg h) (hok : h.mnret cfg = .ok h') : WellFormed cfg h' := by
  unfold Hart.mnret at hok
  split at hok
  · exact absurd hok (by simp)
  · split at hok
    · exact absurd hok (by simp)
    · rename_i hs _
      extract_lets h₁ s prevPrv h₂ h₃ h₄ at hok
      obtain rfl := Except.ok.inj hok
      have wf₁ : WellFormed cfg h₁ := wf.setPcAndSerialize _
      have wf₂ : WellFormed cfg h₂ := by
        show WellFormed cfg (if _ then _ else _)
        split
        · exact wf₁.mstatusWrite _
        · exact wf₁
      have wf₄ : WellFormed cfg h₄ :=
        (wf₂.write (c := .mnstatus) rfl _).setPrivilege (getField_mpp_le s)
      refine wf₄.setVirt fun hv => wf.regs.table_h (wf.enabled_of_mnpv ?_ hv)
      simpa using hs

/-- `dret` goes to the level in `dcsr` and leaves `V` alone. -/
theorem dret (wf : WellFormed cfg h) (hok : h.dret cfg = .ok h') : WellFormed cfg h' := by
  unfold Hart.dret at hok
  split at hok
  · exact absurd hok (by simp)
  · extract_lets h₁ h₂ h₃ h₄ at hok
    obtain rfl := Except.ok.inj hok
    have wf₂ : WellFormed cfg h₂ := (wf.setPcAndSerialize _).setPrivilege wf.dcsr
    have wf₃ : WellFormed cfg h₃ := by
      show WellFormed cfg (if _ then _ else _)
      split
      · exact wf₂.mstatusWrite _
      · exact wf₂
    split
    · exact ⟨wf₃.regs, wf₃.prv, wf₃.dcsr, wf₃.virt⟩
    · exact ⟨wf₃.regs, wf₃.prv, wf₃.dcsr, wf₃.virt⟩

/-- Debug mode is entered with the level of M. -/
theorem enterDebugMode (wf : WellFormed cfg h) (cause : Reg) :
    WellFormed cfg (h.enterDebugMode cfg cause) := by
  unfold Hart.enterDebugMode
  extract_lets dcsr h₁ h₂ h₃
  have wf₁ : WellFormed cfg h₁ := ⟨wf.regs, wf.prv, wf.prv_le, wf.virt⟩
  have wf₂ : WellFormed cfg h₂ := wf₁.setPrivilege (by decide)
  have wf₃ : WellFormed cfg h₃ := wf₂.write (c := .dpc) rfl _
  exact ⟨wf₃.regs, wf₃.prv, wf₃.dcsr, wf₃.virt⟩

/-! ### Events -/

theorem objWrites (wf : WellFormed cfg h) (w : ObjWrites cfg h h') : WellFormed cfg h' := by
  refine w.induct (P := WellFormed cfg) ?_ ?_ ?_ ?_ wf
  · exact fun h c val hc wf => wf.of_frame (Frame.anyWrite val c) (wf.regs.write hc val)
  · exact fun h mask val wf => wf.mip mask val
  · exact fun h mask val hm wf =>
      wf.of_frame (s := fun _ => true) (Frame.set rfl _)
        (wf.regs.objWrites (.mie mask val hm .refl))
  · exact fun h h' f wf => wf.of_frame f (wf.regs.of_frame f (fun _ _ => rfl))

/-- A CSR instruction writes through the objects of `Hart.Writes`. -/
theorem csrInsn (wf : WellFormed cfg h) {which : Nat} {insn : CsrInsn}
    (hok : h.csrInsn cfg which insn = .ok h') : WellFormed cfg h' := by
  obtain ⟨h₁, w, rfl⟩ := csrInsn_writes hok
  exact setPcAndSerialize (wf.objWrites w) _

theorem refused (wf : WellFormed cfg h) (bits : Reg) (r : Refusal) :
    WellFormed cfg (h.refused cfg bits r) := by
  cases r with
  | illegal => exact wf.takeTrap _ _
  | virtual => exact wf.takeTrap _ _
  | crash => exact wf.abort

theorem orRefused (wf : WellFormed cfg h) (bits : Reg) {result : Except Refusal Hart}
    (hres : ∀ h', result = .ok h' → WellFormed cfg h') :
    WellFormed cfg (h.orRefused cfg bits result) := by
  cases result with
  | ok h' => exact hres h' rfl
  | error r => exact wf.refused bits r

theorem takePendingInterrupt (wf : WellFormed cfg h) :
    WellFormed cfg (h.takePendingInterrupt cfg) := by
  unfold Hart.takePendingInterrupt
  extract_lets pending awake
  have wfa : WellFormed cfg awake := by
    show WellFormed cfg (if _ then _ else _)
    split
    · exact wf
    · exact ⟨wf.regs, wf.prv, wf.dcsr, wf.virt⟩
  split
  · exact wfa
  · exact wfa.takeTrap _ _
  · exact wfa.abort

/-- The time is shown to the hart, and the comparators write `mip`. -/
theorem timeSync (wf : WellFormed cfg h) (mtime : Reg) : WellFormed cfg (h.timeSync mtime) := by
  unfold Hart.timeSync
  extract_lets h₁ mipVal
  have wf₁ : WellFormed cfg h₁ := ⟨wf.regs.set_untracked rfl, wf.prv, wf.dcsr, wf.virt⟩
  split
  · exact wf₁.mip _ _
  · exact wf₁

theorem bump (wf : WellFormed cfg h) (instret : Reg) : WellFormed cfg (h.bump instret) :=
  ⟨(wf.regs.set_untracked (c := .minstret) rfl).set_untracked rfl, wf.prv, wf.dcsr, wf.virt⟩

end WellFormed

/-! ### Reset -/

variable {cfg : Config}

/-- The status register a hart starts with has a consistent `SD` and no field set. -/
theorem mstatusInit_ok :
    cfg.adjustSd cfg.mstatusInit = cfg.mstatusInit ∧ getField cfg.mstatusInit mstatusMpp = prvU ∧
      cfg.mstatusInit.getLsbD 39 = false := by
  rw [Config.adjustSd, Config.sdBit, Config.mstatusInit]
  cases cfg.isa.xlen <;> cases cfg.isa.table .u <;> cases cfg.isa.table .s <;>
    cases cfg.bigEndian <;>
    decide

/-- The registers after a reset. -/
theorem regsOk_resetReg {ext : ExtTable}
    (hext : ∀ name : Ext, name.dynamic = false → ext name = cfg.isa.table name)
    (mask : Reg) : RegsOk cfg (cfg.resetReg mask) ext where
  misaFixed _ _ := rfl
  misaMax _ hb := hb
  extFixed := hext
  mpp hu := .inr (.inr ⟨mstatusInit_ok.2.1, hu⟩)
  mpv _ := mstatusInit_ok.2.2
  mnpv _ _ := BitVec.getLsbD_zero
  sd := mstatusInit_ok.1
  mideleg := BitVec.zero_and
  deleg _ := ⟨rfl, rfl⟩
  mie := BitVec.zero_and
  satp := AtpModeOk.zero
  vsatp := AtpModeOk.zero
  hgatp := AtpModeOk.zero

/-- `state_t::reset` -/
theorem wellFormed_stateReset {h : Hart}
    (hext : ∀ name : Ext, name.dynamic = false → h.extTable name = cfg.isa.table name) :
    WellFormed cfg (h.stateReset cfg) := by
  unfold stateReset
  extract_lets built
  refine ⟨?_, .inl rfl, Nat.zero_le 3, fun hv => Bool.noConfusion (show false = true from hv)⟩
  refine (regsOk_resetReg hext (built.sstatusReadMask cfg)).congr (fun c hc => ?_) rfl
  exact if_neg fun hj => absurd (hj.1 ▸ hc) (by decide)

/-- `processor_t::reset` -/
theorem wellFormed_reset {h : Hart}
    (hext : ∀ name : Ext, name.dynamic = false → h.extTable name = cfg.isa.table name)
    (halt : Bool) :
    WellFormed cfg (reset cfg h halt) := by
  unfold reset
  extract_lets h₁ dcsr h₂
  have wf₁ : WellFormed cfg h₁ := wellFormed_stateReset hext
  have wf₂ : WellFormed cfg h₂ := ⟨wf₁.regs, wf₁.prv, wf₁.dcsr, wf₁.virt⟩
  split
  · have f : Frame (fun _ => false) h₂
      ((h₂.writeObj cfg (cfg.isa.xlen.zext (~~~0#64)) (.pmpaddr 0)).writeObj
        cfg 0x1f#64 (.pmpcfg 0)) := (Frame.pmpWrite _ h₂ _).trans (Frame.pmpWrite _ _ _)
    exact wf₂.of_frame f (wf₂.regs.of_frame f fun _ _ => rfl)
  · exact wf₂

/-- A reset leaves the initial values in the registers and the table of the names as it is. -/
theorem reset_reg (cfg : Config) (h : Hart) (halt : Bool) :
    (∃ mask, ∀ c, c ≠ .jvt → (reset cfg h halt).reg c = cfg.resetReg mask c) ∧
      (reset cfg h halt).extTable = h.extTable := by
  unfold reset
  extract_lets h₁ dcsr h₂
  have hreg : ∃ mask, ∀ c, c ≠ .jvt → h₂.reg c = cfg.resetReg mask c :=
    ⟨_, fun c hc => if_neg fun hj => hc hj.1⟩
  split
  · have f : Frame (fun _ => false) h₂
      ((h₂.writeObj cfg (cfg.isa.xlen.zext (~~~0#64)) (.pmpaddr 0)).writeObj
        cfg 0x1f#64 (.pmpcfg 0)) := (Frame.pmpWrite _ h₂ _).trans (Frame.pmpWrite _ _ _)
    obtain ⟨mask, hreg⟩ := hreg
    exact ⟨⟨mask, fun c hc => (f.reg c rfl).trans (hreg c hc)⟩, f.extTable rfl⟩
  · exact ⟨hreg, rfl⟩

/-! ### Runs -/

namespace WellFormed

variable {h : Hart}

/-- One event. -/
theorem event (wf : WellFormed cfg h) (op : HartOp) : WellFormed cfg (h.event cfg op) := by
  cases op with
  | csr which insn bits => exact wf.orRefused bits fun h' => wf.csrInsn
  | mret bits => exact wf.orRefused bits fun h' => wf.mret
  | sret bits => exact wf.orRefused bits fun h' => wf.sret
  | mnret bits => exact wf.orRefused bits fun h' => wf.mnret
  | dret bits => exact wf.orRefused bits fun h' => wf.dret
  | retire npc => exact wf.withPc _
  | dirty state =>
    have f : Frame (fun _ => true) h (h.dirty cfg state.mask) :=
      (Frame.dirty state.mask).mono fun _ hc => absurd hc (by decide)
    show WellFormed cfg (if _ then _ else _)
    split
    · exact wf.of_frame f (wf.regs.dirty _)
    · exact wf
  | exception code gva tval tval2 tinst => exact wf.takeTrap _ _
  | interrupt => exact wf.takePendingInterrupt
  | enterDebug cause => exact wf.enterDebugMode cause
  | triggers ts => exact ⟨wf.regs, wf.prv, wf.dcsr, wf.virt⟩
  | wfi => exact ⟨wf.regs, wf.prv, wf.dcsr, wf.virt⟩
  | bump instret => exact wf.bump instret
  | timeSync mtime => exact wf.timeSync mtime
  | pin p level => exact wf.mip _ _
  | reset halt => exact wellFormed_reset wf.regs.extFixed halt

/-- A hart that has aborted stays, and any other takes the event. -/
theorem step (wf : WellFormed cfg h) (op : HartOp) : WellFormed cfg (h.step cfg op) := by
  rw [Hart.step]
  split
  · exact wf
  · exact wf.event op

/-- A configuration that differs in the device tree only. -/
theorem of_isa (cfg' : Config) (heq : cfg'.isa = cfg.isa) (wf : WellFormed cfg' h) :
    WellFormed cfg h := by
  obtain ⟨ok, hprv, hdcsr, hvirt⟩ := wf
  cases cfg
  cases cfg'
  subst heq
  exact ⟨⟨ok.misaFixed, ok.misaMax, ok.extFixed, ok.mpp, ok.mpv, ok.mnpv,
    ok.sd, ok.mideleg, ok.deleg,
    ok.mie, ok.satp, ok.vsatp, ok.hgatp⟩, hprv, hdcsr, hvirt⟩

end WellFormed

/-- A hart as it is constructed. -/
theorem wellFormed_init (halt : Bool) : WellFormed cfg (init cfg halt) := by
  refine WellFormed.of_isa { cfg with impl := { cfg.impl with mmu := true } } rfl ?_
  exact wellFormed_reset (fun _ _ => rfl) halt

/-- **Reachable harts are well formed.** -/
theorem Reachable.wellFormed {h : Hart} (hr : Reachable cfg h) : WellFormed cfg h := by
  obtain ⟨halt, ops, rfl⟩ := hr
  exact Run.run_induct (I := WellFormed cfg) (fun h op wf => wf.step op) (wellFormed_init halt) ops

end Hart

end Nnemu

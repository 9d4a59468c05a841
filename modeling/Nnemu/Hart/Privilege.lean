import Nnemu.Hart.Entry
import Nnemu.Hart.Reachable
import Nnemu.Trigger.Match

/-!
# Privilege and virtualization together

`set_privilege` and `set_virt` change the two halves of the mode one by one. What ties them is that
`V = 1` needs H (`VirtOk`) and excludes M (`MachineOk`). Traps and returns keep both. Three events
can break them: debug mode is entered without leaving `V`, `dret` restores a privilege level but not
`V`, and `misa.H` can be cleared with `V = 1` in a state that already is out of order. Where no step
of a run does the first two, every state of it is in order (`privilegeOk_always`).

`ModeStep` is what the other events have in common: a mode with `V = 1` afterwards comes from such a
mode, or H is there, and M with `V = 1` comes from M with `V = 1` only. Traps and returns are shown
to be such steps one by one. `OutsideOk` asks the two conditions outside debug mode only, since a
hart that was entered with `V = 1` is out of order until it leaves again.
-/

namespace Nnemu

namespace Hart

variable {cfg : Config} {h h' h'' : Hart}

/-! ### What one event does to the mode -/

/-- `V = 1` needs H. -/
def VirtOk (h : Hart) : Prop :=
  h.v = true → h.extensionEnabled .h = true

/-- `V = 1` excludes M. -/
def MachineOk (h : Hart) : Prop :=
  h.prv = prvM → h.v = false

/-- Virtualization comes from a hart that has it or has H, and H stays. -/
def VirtStep (h h' : Hart) : Prop :=
  h'.v = true → h'.extensionEnabled .h = h.extensionEnabled .h ∧
    (h.v = true ∨ h.extensionEnabled .h = true)

/-- Both steps: M with `V = 1` comes from M with `V = 1` only. -/
structure ModeStep (h h' : Hart) : Prop where
  virt : VirtStep h h'
  machine : h'.prv = prvM → h'.v = true → h.prv = prvM ∧ h.v = true

theorem VirtOk.step (ok : VirtOk h) (s : VirtStep h h') : VirtOk h' := by
  intro hv
  obtain ⟨heq, hor⟩ := s hv
  rw [heq]
  exact hor.elim ok id

theorem MachineOk.step (ok : MachineOk h) (s : ModeStep h h') : MachineOk h' := by
  intro hp
  cases hv : h'.v with
  | false => rfl
  | true =>
    obtain ⟨hp, hv⟩ := s.machine hp hv
    rw [ok hp] at hv
    exact absurd hv (by decide)

/-- A hart without virtualization is in order. -/
theorem ModeStep.of_not_virt (hv : h'.v = false) : ModeStep h h' where
  virt ht := absurd (hv.symm.trans ht) (by decide)
  machine _ ht := absurd (hv.symm.trans ht) (by decide)

/-- Steps that leave `misa` and the mode alone. -/
theorem ModeStep.of_frame {s : Csr → Bool} (f : Frame s h h') (hm : s .misa = false) :
    ModeStep h h' where
  virt hv := ⟨f.extensionEnabled hm .h, .inl (f.v.symm.trans hv)⟩
  machine hp hv := ⟨f.prv.symm.trans hp, f.v.symm.trans hv⟩

/-- Nothing of it changes. -/
theorem ModeStep.of_eq (hp : h'.prv = h.prv) (hv : h'.v = h.v)
    (hh : h'.extensionEnabled .h = h.extensionEnabled .h) : ModeStep h h' where
  virt hv' := ⟨hh, .inl (hv.symm.trans hv')⟩
  machine hp' hv' := ⟨hp.symm.trans hp', hv.symm.trans hv'⟩

/-! ### Traps -/

/-- With S, the level S is legal. -/
theorem legalizePrivilege_supervisor (wf : WellFormed cfg h) (hs : cfg.isa.table .s = true) :
    h.legalizePrivilege prvS = prvS := by
  rw [legalizePrivilege, wf.regs.enabled_u, wf.regs.enabled_s, hs, cfg.isa.u_of_s hs]
  rfl

/-- With S, a level up to S stays below M. -/
theorem legalizePrivilege_ne_machine (wf : WellFormed cfg h) (hs : cfg.isa.table .s = true)
    {prv : Reg}
    (hp : prv.toNat ≤ 1) : h.legalizePrivilege prv ≠ prvM := by
  have hcases : prv = 0#64 ∨ prv = 1#64 := by bv_omega
  obtain rfl | rfl := hcases
  · rw [legalizePrivilege, wf.regs.enabled_u, wf.regs.enabled_s, hs, cfg.isa.u_of_s hs]
    decide
  · rw [show (1#64 : Reg) = prvS from rfl, legalizePrivilege_supervisor wf hs]
    decide

theorem modeStep_takeTrap (wf : WellFormed cfg h) (t : Trap) (epc : Reg) :
    ModeStep h (h.takeTrap cfg t epc) := by
  cases hd : h.debugMode with
  | true =>
    rw [takeTrap, hd, if_pos rfl]
    exact .of_eq rfl rfl rfl
  | false =>
    have hentry := takeTrap_entry cfg hd t epc
    cases hdest : h.trapDestination cfg t with
    | vs =>
      rw [hdest] at hentry
      have hv := (of_destination_vs hdest).1
      have hs := cfg.isa.s_of_h (wf.virt hv)
      refine ⟨fun _ => ⟨?_, .inl hv⟩, fun hp _ => ?_⟩
      · rw [extensionEnabled_h, extensionEnabled_h, hentry.reg .misa rfl]
      · rw [hentry.prv, legalizePrivilege_supervisor wf hs] at hp
        exact absurd hp (by decide)
    | hs =>
      rw [hdest] at hentry
      exact .of_not_virt hentry.v
    | m =>
      rw [hdest] at hentry
      have hand (hv : (h.takeTrap cfg t epc).v = true) : h.prv = prvM ∧ h.v = true := by
        rw [hentry.v, Bool.and_eq_true, beq_iff_eq] at hv
        exact hv.symm
      refine ⟨fun hv => ⟨?_, .inl (hand hv).2⟩, fun _ hv => hand hv⟩
      rw [extensionEnabled_h, extensionEnabled_h, hentry.reg .misa rfl]

/-! ### Returns -/

/-- A return from M: it goes to a level and, below M, to a virtualization that needs H. -/
theorem modeStep_return (hp : h.prv = prvM) {s : Csr → Bool} (f : Frame s h h')
    (hm : s .misa = false)
    (prv : Reg) {virt : Bool} (hv : virt = true → h.extensionEnabled .h = true) :
    ModeStep h ((h'.setPrivilege prv).setVirt virt) := by
  refine ⟨fun ht => ⟨?_, ?_⟩, fun hpm ht => ⟨hp, ?_⟩⟩
  · rw [extensionEnabled_setVirt]
    exact f.extensionEnabled hm .h
  · rw [v_setVirt] at ht
    split at ht
    · exact .inl (f.v.symm.trans ht)
    · exact .inr (hv ht)
  · rw [prv_setVirt] at hpm
    rw [v_setVirt, if_pos hpm] at ht
    exact f.v.symm.trans ht

/-- An implemented level that is not below M is M. -/
theorem machine_of_not_lt (wf : WellFormed cfg h) (hp : ¬ h.prv < prvM) : h.prv = prvM := by
  obtain heq | ⟨heq, -⟩ | ⟨heq, -⟩ := wf.prv
  · exact heq
  · rw [heq] at hp
    exact absurd (by decide) hp
  · rw [heq] at hp
    exact absurd (by decide) hp

theorem modeStep_mret (wf : WellFormed cfg h) (hok : h.mret cfg = .ok h') : ModeStep h h' := by
  unfold mret at hok
  split at hok
  · exact absurd hok (by simp)
  · rename_i hlt
    have hp := machine_of_not_lt wf hlt
    extract_lets h₁ s h₂ h₃ at hok
    obtain rfl := Except.ok.inj hok
    have f : Frame (fun c => c == .mstatus) h₁ h₂ := by
      show Frame _ h₁ (h₁.putCsr cfg 0x300 _)
      rw [putCsr_mstatus]
      exact Frame.mstatusWrite rfl _
    have step : ModeStep h₁
      ((h₂.setPrivilege (getField s mstatusMpp)).setVirt (hasBits s mstatusMpv)) :=
      modeStep_return (h := h₁) hp f rfl _ wf.enabled_of_mpv
    exact ⟨step.virt, step.machine⟩

theorem modeStep_mnret (wf : WellFormed cfg h) (hok : h.mnret cfg = .ok h') : ModeStep h h' := by
  unfold mnret at hok
  split at hok
  · exact absurd hok (by simp)
  · split at hok
    · exact absurd hok (by simp)
    · rename_i hs hlt
      have hp := machine_of_not_lt wf hlt
      extract_lets h₁ s prevPrv h₂ h₃ h₄ at hok
      obtain rfl := Except.ok.inj hok
      have f : Frame (fun c => c == .mstatus || c == .mnstatus) h₁ h₃ :=
        (Frame.ite (Frame.mstatusWrite rfl _) (Frame.refl _ h₁)).trans (Frame.set rfl _)
      have step : ModeStep h₁ ((h₃.setPrivilege prevPrv).setVirt (hasBits s mnstatusMnpv)) :=
        modeStep_return (h := h₁) hp f rfl _
          (wf.enabled_of_mnpv (by simpa using hs))
      exact ⟨step.virt, step.machine⟩

/-- What the checks of `sret` leave. -/
theorem of_sretRefused (hn : h.sretRefused = none) :
    h.extensionEnabled .s = true ∧
      (h.v = true → h.prv ≠ prvU ∧ hasBits (h.reg .hstatus) hstatusVtsr = false) ∧
      (h.v = false → prvS ≤ h.prv) := by
  unfold sretRefused at hn
  split at hn
  · exact absurd hn (by simp)
  · rename_i hs
    refine ⟨by simpa using hs, fun hv => ?_, fun hv => ?_⟩
    · rw [if_pos hv] at hn
      split at hn
      · exact absurd hn (by simp)
      · rename_i hor
        exact ⟨fun hu => hor (.inl hu), Bool.eq_false_iff.2 fun hb => hor (.inr hb)⟩
    · rw [if_neg (by simp [hv])] at hn
      refine BitVec.not_lt.1 fun hlt => ?_
      have hlt' : h.prv < (if hasBits (h.read .mstatus) mstatusTsr then prvM else prvS) := by
        split
        · exact BitVec.lt_def.2 (Nat.lt_of_lt_of_le (BitVec.lt_def.1 hlt) (by decide))
        · exact hlt
      rw [if_pos hlt'] at hn
      exact absurd hn (by simp)

/-- The write of `sstatus` touches the two status registers. -/
theorem Frame.sstatusWrite {s : Csr → Bool} (hm : s .mstatus = true) (hvs : s .vsstatus = true)
    (val : Reg) :
    Frame s h (h.sstatusWrite cfg val) :=
  Frame.ite (Frame.vsstatusWrite hvs val) (Frame.sstatusProxyWrite hm val)

theorem modeStep_sret (wf : WellFormed cfg h) (hok : h.sret cfg = .ok h') : ModeStep h h' := by
  unfold sret at hok
  split at hok
  · exact absurd hok (by simp)
  · rename_i hrefused
    extract_lets prevHstatus h₁ s h₂ h₃ h₄ at hok
    have hs : cfg.isa.table .s = true := wf.regs.enabled_s ▸ (of_sretRefused hrefused).1
    have wf₂ : WellFormed cfg h₂ := (wf.setPcAndSerialize _).sstatusWrite _
    have f : Frame Csr.dirtyFootprint h₁ h₂ := Frame.sstatusWrite rfl rfl _
    have hp₃ : h₃.prv ≠ prvM :=
      legalizePrivilege_ne_machine wf₂ hs (getField_toNat_le (k := 8) rfl (by decide) s)
    have hh₃ : h₃.extensionEnabled .h = h.extensionEnabled .h := f.extensionEnabled rfl .h
    split at hok
    · obtain rfl := Except.ok.inj hok
      exact ⟨fun hv => ⟨hh₃, .inl (f.v.symm.trans hv)⟩, fun hp => absurd hp hp₃⟩
    · rename_i hv₃
      obtain rfl := Except.ok.inj hok
      have f₅ : Frame (fun c => c == .mstatus) h₄
          (h₄.mstatusWrite cfg (setField (h₄.read .mstatus) mstatusMprv 0#64)) :=
            Frame.mstatusWrite rfl _
      cases he : h₃.extensionEnabled .h with
      | false =>
        have heq : h₄ = h₃ := if_neg (by simp [he])
        refine .of_not_virt ?_
        rw [f₅.v, heq]
        exact Bool.eq_false_iff.2 hv₃
      | true =>
        have heq : h₄ = (h₃.setVirt (hasBits prevHstatus hstatusSpv)).write cfg
            (setField prevHstatus hstatusSpv 0#64) .hstatus := if_pos he
        have f₄ : Frame (fun c => c == .hstatus)
            (h₃.setVirt (hasBits prevHstatus hstatusSpv)) h₄ := by
          rw [heq]
          exact Frame.set rfl _
        refine ⟨fun _ => ⟨?_, .inr (hh₃.symm.trans he)⟩, fun hp => absurd ?_ hp₃⟩
        · rw [f₅.extensionEnabled rfl, f₄.extensionEnabled rfl, extensionEnabled_setVirt]
          exact hh₃
        · rw [f₅.prv, f₄.prv, prv_setVirt] at hp
          exact hp

/-! ### Events -/

/-- An instruction that is refused traps. -/
theorem modeStep_orRefused (wf : WellFormed cfg h) (bits : Reg) {result : Except Refusal Hart}
    (hres : ∀ h', result = .ok h' → ModeStep h h') : ModeStep h (h.orRefused cfg bits result) := by
  cases result with
  | ok h' => exact hres h' rfl
  | error r =>
    cases r with
    | illegal => exact modeStep_takeTrap wf _ _
    | virtual => exact modeStep_takeTrap wf _ _
    | crash => exact .of_eq rfl rfl rfl

/-- A CSR instruction, which may write `misa`. -/
theorem modeStep_csr (wf : WellFormed cfg h) {which : Nat} {insn : CsrInsn} (bits : Reg)
    (hmisa : ∀ val, h.WritesMisa cfg which insn val → h.v = true →
      (h.misaWrite cfg val).extensionEnabled .h = h.extensionEnabled .h) :
    ModeStep h (h.event cfg (.csr which insn bits)) := by
  refine modeStep_orRefused wf bits fun h' hok => ?_
  obtain ⟨h₁, rfl, f | ⟨val, hw, rfl⟩⟩ := csrInsn_misa hok
  · exact .of_eq f.prv f.v (f.extensionEnabled rfl .h)
  · have f : Frame Csr.misaFootprint h (h.misaWrite cfg val) := Frame.misaWrite val
    cases hv : h.v with
    | false => exact .of_not_virt (f.v.trans hv)
    | true => exact .of_eq f.prv f.v (hmisa val hw hv)

theorem virtStep_enterDebugMode (cause : Reg) : VirtStep h (h.enterDebugMode cfg cause) :=
  fun hv => ⟨rfl, .inl hv⟩

/-- `dret` keeps `V`. -/
theorem dret_mode (hok : h.dret cfg = .ok h') :
    h.debugMode = true ∧ h'.v = h.v ∧ h'.prv = h.legalizePrivilege h.dcsr.prv ∧
      h'.extensionEnabled .h = h.extensionEnabled .h := by
  unfold dret at hok
  split at hok
  · exact absurd hok (by simp)
  · rename_i hd
    extract_lets h₁ h₂ h₃ h₄ at hok
    have f : Frame (fun c => c == .mstatus) h₂ h₃ :=
      Frame.ite (Frame.mstatusWrite rfl _) (Frame.refl _ h₂)
    have hh := f.extensionEnabled rfl .h
    obtain rfl := Except.ok.inj hok
    refine ⟨by simpa using hd, ?_, ?_, ?_⟩
    · split <;> exact f.v
    · split <;> exact f.prv
    · split <;> exact hh

theorem virtStep_dret (hok : h.dret cfg = .ok h') : VirtStep h h' := by
  obtain ⟨-, hv, -, hh⟩ := dret_mode hok
  exact fun hv' => ⟨hh, .inl (hv.symm.trans hv')⟩

/-- A pending interrupt is a trap, if anything. -/
theorem modeStep_takePendingInterrupt (wf : WellFormed cfg h) :
    ModeStep h (h.takePendingInterrupt cfg) := by
  unfold takePendingInterrupt
  extract_lets pending awake
  obtain ⟨b, hb⟩ : ∃ b, awake = { h with inWfi := b } := by
    by_cases hp : pending = 0#64
    · exact ⟨h.inWfi, if_pos hp⟩
    · exact ⟨false, if_neg hp⟩
  clear_value awake
  subst hb
  split
  · exact .of_eq rfl rfl rfl
  · have wfb : WellFormed cfg { h with inWfi := b } := ⟨wf.regs, wf.prv, wf.dcsr, wf.virt⟩
    have step := modeStep_takeTrap wfb ‹Trap› h.pc
    exact ⟨step.virt, step.machine⟩
  · exact .of_eq rfl rfl rfl

theorem reset_v (halt : Bool) : (reset cfg h halt).v = false := by
  unfold reset
  extract_lets h₁ dcsr h₂
  split
  · have f : Frame (fun _ => false) h₂
      ((h₂.writeObj cfg (cfg.isa.xlen.zext (~~~0#64)) (.pmpaddr 0)).writeObj
        cfg 0x1f#64 (.pmpcfg 0)) := (Frame.pmpWrite _ h₂ _).trans (Frame.pmpWrite _ _ _)
    exact f.v
  · rfl

/-- Events other than CSR instructions and the two ends of debug mode. -/
theorem modeStep_event (wf : WellFormed cfg h) (op : HartOp)
    (hcsr : ∀ which insn bits, op ≠ .csr which insn bits) (hdret : ∀ bits, op ≠ .dret bits)
    (hdebug : ∀ cause, op ≠ .enterDebug cause) : ModeStep h (h.event cfg op) := by
  cases op with
  | csr which insn bits => exact absurd rfl (hcsr which insn bits)
  | mret bits => exact modeStep_orRefused wf bits fun h' => modeStep_mret wf
  | sret bits => exact modeStep_orRefused wf bits fun h' => modeStep_sret wf
  | mnret bits => exact modeStep_orRefused wf bits fun h' => modeStep_mnret wf
  | dret bits => exact absurd rfl (hdret bits)
  | retire npc => exact .of_eq rfl rfl rfl
  | dirty state => exact .of_frame (Frame.ite (Frame.dirty state.mask) (Frame.refl _ h)) rfl
  | exception code gva tval tval2 tinst => exact modeStep_takeTrap wf _ _
  | interrupt => exact modeStep_takePendingInterrupt wf
  | enterDebug cause => exact absurd rfl (hdebug cause)
  | triggers ts => exact .of_eq rfl rfl rfl
  | wfi => exact .of_eq rfl rfl rfl
  | bump instret =>
    exact .of_frame (s := fun c => c == .minstret || c == .mcycle)
      ((Frame.set rfl _).trans (Frame.set rfl _)) rfl
  | timeSync mtime =>
    have f : Frame (fun c => c == .time || c == .mip) h (h.timeSync mtime) :=
      (Frame.set (c := .time) rfl mtime).trans (Frame.ite (Frame.set rfl _) (Frame.refl _ _))
    exact .of_frame f rfl
  | pin p level => exact .of_frame (s := fun c => c == .mip) (Frame.set rfl _) rfl
  | reset halt => exact .of_not_virt (reset_v halt)

/-! ### The two invariants -/

/-- No CSR instruction switches H off with `V = 1`. -/
def KeepsH (cfg : Config) (h : Hart) : HartOp → Prop
  | .csr which insn _ => h.v = true → ∀ val, h.WritesMisa cfg which insn val →
      (h.misaWrite cfg val).extensionEnabled .h = true
  | _ => True

/-- Debug mode is not entered with `V = 1`, and `dret` does not go to M with `V = 1`. -/
def DebugInOrder (h : Hart) : HartOp → Prop
  | .enterDebug _ => h.v = false
  | .dret _ => h.debugMode = true → h.v = true → h.legalizePrivilege h.dcsr.prv ≠ prvM
  | _ => True

/-- `V = 1` needs H, as long as no instruction switches H off under it. -/
theorem VirtOk.event (wf : WellFormed cfg h) (ok : VirtOk h) (op : HartOp) (hop : KeepsH cfg h op) :
    VirtOk (h.event cfg op) := by
  cases op with
  | csr which insn bits =>
    refine ok.step (modeStep_csr wf bits fun val hw hv => ?_).virt
    rw [hop hv val hw, ok hv]
  | dret bits =>
    refine ok.step ?_
    show VirtStep h (h.orRefused cfg bits (h.dret cfg))
    cases hres : h.dret cfg with
    | ok h' => exact virtStep_dret hres
    | error r => exact (modeStep_orRefused wf bits (fun h' hok => by cases hok)).virt
  | enterDebug cause => exact ok.step (virtStep_enterDebugMode cause)
  | _ => exact ok.step (modeStep_event wf _ (by simp) (by simp) (by simp)).virt

/-- A permitted write of `misa` comes from M. -/
theorem WritesMisa.machine (wf : WellFormed cfg h) {which : Nat} {insn : CsrInsn} {val : Reg}
    (hw : h.WritesMisa cfg which insn val) : h.prv = prvM :=
  machine_of_not_lt wf (BitVec.not_lt.2 hw.2.1)

/-- `V = 1` excludes M, as long as debug mode is in order. -/
theorem MachineOk.event (wf : WellFormed cfg h) (ok : MachineOk h) (op : HartOp)
    (hop : DebugInOrder h op) : MachineOk (h.event cfg op) := by
  cases op with
  | csr which insn bits =>
    refine ok.step (modeStep_csr wf bits fun val hw hv => ?_)
    exact absurd (hv.symm.trans (ok (hw.machine wf))) (by decide)
  | dret bits =>
    show MachineOk (h.orRefused cfg bits (h.dret cfg))
    cases hres : h.dret cfg with
    | ok h' =>
      obtain ⟨hd, hv, hp, -⟩ := dret_mode hres
      intro hm
      refine hv.trans (Bool.eq_false_iff.2 fun hvt => ?_)
      exact hop hd hvt (hp.symm.trans hm)
    | error r => exact ok.step (modeStep_orRefused wf bits (fun h' hok => by cases hok))
  | enterDebug cause => exact fun _ => hop
  | _ => exact ok.step (modeStep_event wf _ (by simp) (by simp) (by simp))

/-! ### Debug mode -/

theorem debugMode_takeTrap (hd : h.debugMode = true) (t : Trap) (epc : Reg) :
    (h.takeTrap cfg t epc).debugMode = true := by
  rw [takeTrap, hd, if_pos rfl]

theorem debugMode_orRefused (hd : h.debugMode = true) (bits : Reg) {result : Except Refusal Hart}
    (hres : ∀ h', result = .ok h' → h'.debugMode = true) :
    (h.orRefused cfg bits result).debugMode = true := by
  cases result with
  | ok h' => exact hres h' rfl
  | error r =>
    cases r with
    | illegal => exact debugMode_takeTrap hd _ _
    | virtual => exact debugMode_takeTrap hd _ _
    | crash => exact hd

theorem debugMode_setVirt (h : Hart) (prv : Reg) (virt : Bool) :
    ((h.setPrivilege prv).setVirt virt).debugMode = h.debugMode := by
  rw [setVirt]
  split <;> rfl

theorem debugMode_csr (hd : h.debugMode = true) {which : Nat} {insn : CsrInsn}
    (hok : h.csrInsn cfg which insn = .ok h') : h'.debugMode = true := by
  obtain ⟨h₁, rfl, f | ⟨val, hw, rfl⟩⟩ := csrInsn_misa hok
  · exact f.debugMode.trans hd
  · have f : Frame Csr.misaFootprint h (h.misaWrite cfg val) := Frame.misaWrite val
    exact f.debugMode.trans hd

theorem debugMode_mret (hd : h.debugMode = true) (hok : h.mret cfg = .ok h') :
    h'.debugMode = true := by
  unfold mret at hok
  split at hok
  · exact absurd hok (by simp)
  · extract_lets h₁ s h₂ h₃ at hok
    obtain rfl := Except.ok.inj hok
    have f : Frame (fun c => c == .mstatus) h₁ h₂ := by
      show Frame _ h₁ (h₁.putCsr cfg 0x300 _)
      rw [putCsr_mstatus]
      exact Frame.mstatusWrite rfl _
    exact (debugMode_setVirt h₂ _ _).trans (f.debugMode.trans hd)

theorem debugMode_mnret (hd : h.debugMode = true) (hok : h.mnret cfg = .ok h') :
    h'.debugMode = true := by
  unfold mnret at hok
  split at hok
  · exact absurd hok (by simp)
  · split at hok
    · exact absurd hok (by simp)
    · extract_lets h₁ s prevPrv h₂ h₃ h₄ at hok
      obtain rfl := Except.ok.inj hok
      have f : Frame (fun c => c == .mstatus || c == .mnstatus) h₁ h₃ :=
        (Frame.ite (Frame.mstatusWrite rfl _) (Frame.refl _ h₁)).trans (Frame.set rfl _)
      exact (debugMode_setVirt h₃ _ _).trans (f.debugMode.trans hd)

theorem debugMode_sret (hd : h.debugMode = true) (hok : h.sret cfg = .ok h') :
    h'.debugMode = true := by
  unfold sret at hok
  split at hok
  · exact absurd hok (by simp)
  · extract_lets prevHstatus h₁ s h₂ h₃ h₄ at hok
    have f : Frame Csr.dirtyFootprint h₁ h₂ := Frame.sstatusWrite rfl rfl _
    have hd₄ : h₄.debugMode = true := by
      show (if _ then _ else _ : Hart).debugMode = true
      split
      · exact (debugMode_setVirt h₂ _ _).trans (f.debugMode.trans hd)
      · exact f.debugMode.trans hd
    split at hok
    · obtain rfl := Except.ok.inj hok
      exact f.debugMode.trans hd
    · obtain rfl := Except.ok.inj hok
      have f₅ : Frame (fun c => c == .mstatus) h₄
          (h₄.mstatusWrite cfg (setField (h₄.read .mstatus) mstatusMprv 0#64)) :=
        Frame.mstatusWrite rfl _
      exact f₅.debugMode.trans hd₄

/-- In debug mode no interrupt is taken. -/
theorem debugMode_takePendingInterrupt (hd : h.debugMode = true) :
    (h.takePendingInterrupt cfg).debugMode = true := by
  unfold takePendingInterrupt
  extract_lets pending awake
  have hawake : awake.debugMode = true := by
    show (if _ then _ else _ : Hart).debugMode = true
    split <;> exact hd
  split
  · exact hawake
  · exact debugMode_takeTrap hawake _ _
  · exact hawake

/-- **Debug mode lasts** until `dret` or a reset. -/
theorem debugMode_event (hd : h.debugMode = true) (op : HartOp) (hdret : ∀ bits, op ≠ .dret bits)
    (hreset : ∀ halt, op ≠ .reset halt) : (h.event cfg op).debugMode = true := by
  cases op with
  | csr which insn bits => exact debugMode_orRefused hd bits fun h' => debugMode_csr hd
  | mret bits => exact debugMode_orRefused hd bits fun h' => debugMode_mret hd
  | sret bits => exact debugMode_orRefused hd bits fun h' => debugMode_sret hd
  | mnret bits => exact debugMode_orRefused hd bits fun h' => debugMode_mnret hd
  | dret bits => exact absurd rfl (hdret bits)
  | dirty state =>
    have f : Frame Csr.dirtyFootprint h (h.event cfg (.dirty state)) :=
      Frame.ite (Frame.dirty state.mask) (Frame.refl _ h)
    exact f.debugMode.trans hd
  | exception code gva tval tval2 tinst => exact debugMode_takeTrap hd _ _
  | interrupt => exact debugMode_takePendingInterrupt hd
  | enterDebug cause => rfl
  | timeSync mtime =>
    have f : Frame (fun c => c == .time || c == .mip) h (h.timeSync mtime) :=
      (Frame.set (c := .time) rfl mtime).trans (Frame.ite (Frame.set rfl _) (Frame.refl _ _))
    exact f.debugMode.trans hd
  | reset halt => exact absurd rfl (hreset halt)
  | _ => exact hd

/-- Outside debug mode `V = 1` excludes M. -/
structure OutsideOk (cfg : Config) (h : Hart) : Prop where
  wellFormed : WellFormed cfg h
  machine : h.debugMode = false → MachineOk h

/-- `dret` does not go to M with `V = 1`. -/
def DretInOrder (h : Hart) : HartOp → Prop
  | .dret _ => h.debugMode = true → h.v = true → h.legalizePrivilege h.dcsr.prv ≠ prvM
  | _ => True

/-- What debug mode does to the mode is over when it is left. -/
theorem OutsideOk.event (ok : OutsideOk cfg h) (op : HartOp) (hop : DretInOrder h op) :
    OutsideOk cfg (h.event cfg op) := by
  refine ⟨ok.wellFormed.event op, fun houtside => ?_⟩
  cases hd : h.debugMode with
  | false =>
    have hm := ok.machine hd
    cases op with
    | enterDebug cause => cases houtside
    | dret bits => exact hm.event ok.wellFormed (.dret bits) hop
    | _ => exact hm.event ok.wellFormed _ trivial
  | true =>
    cases op with
    | dret bits =>
      show MachineOk (h.orRefused cfg bits (h.dret cfg))
      cases hres : h.dret cfg with
      | ok h' =>
        obtain ⟨-, hv, hp, -⟩ := dret_mode hres
        intro hm
        refine hv.trans (Bool.eq_false_iff.2 fun hvt => ?_)
        exact hop hd hvt (hp.symm.trans hm)
      | error r =>
        have hstays : (h.orRefused cfg bits (.error r)).debugMode = true :=
          debugMode_orRefused hd bits fun h' heq => by cases heq
        have hleaves : (h.orRefused cfg bits (h.dret cfg)).debugMode = false := houtside
        rw [hres, hstays] at hleaves
        cases hleaves
    | reset halt => exact fun _ => reset_v halt
    | _ =>
      rw [debugMode_event hd _ (by simp) (by simp)] at houtside
      cases houtside

theorem OutsideOk.step (ok : OutsideOk cfg h) (op : HartOp) (hop : DretInOrder h op) :
    OutsideOk cfg (h.step cfg op) := by
  rw [Hart.step]
  split
  · exact ok
  · exact ok.event op hop

/-- Where `V = 1` excludes M, H is not switched off with `V = 1`. -/
theorem MachineOk.keepsH (wf : WellFormed cfg h) (ok : MachineOk h) (op : HartOp) :
    KeepsH cfg h op := by
  cases op with
  | csr which insn bits =>
    intro hv val hw
    exact absurd (hv.symm.trans (ok (hw.machine wf))) (by decide)
  | _ => trivial

/-- The mode of a hart is in order. -/
structure ModeOk (cfg : Config) (h : Hart) : Prop where
  wellFormed : WellFormed cfg h
  virt : VirtOk h
  machine : MachineOk h

theorem ModeOk.step (ok : ModeOk cfg h) (op : HartOp) (hop : DebugInOrder h op) :
    ModeOk cfg (h.step cfg op) := by
  rw [Hart.step]
  split
  · exact ok
  · exact ⟨ok.wellFormed.event op, ok.virt.event ok.wellFormed op
      (ok.machine.keepsH ok.wellFormed op),
      ok.machine.event ok.wellFormed op hop⟩

theorem modeOk_init (halt : Bool) : ModeOk cfg (init cfg halt) where
  wellFormed := wellFormed_init halt
  virt hv := absurd (hv.symm.trans (reset_v halt)) (by decide)
  machine _ := reset_v halt

/-! ### What follows for the functions that abort -/

/-- `mode_match` with the assertion of its last case: `none` is `assert(false)`. -/
def modeMatchChecked (t : Trigger) (prv : Reg) (v : Bool) : Option Bool :=
  if prv = prvM then some t.m
  else if prv = prvS then some (if v then t.vs else t.s)
  else if prv = prvU then some (if v then t.vu else t.u)
  else none

/-- Where the assertion holds, matching is `Trigger.modeMatch`. -/
theorem modeMatch_of_checked {t : Trigger} {env : Trigger.MatchEnv} {b : Bool}
    (hb : modeMatchChecked t env.prv env.v = some b) : t.modeMatch env = b := by
  unfold modeMatchChecked at hb
  unfold Trigger.modeMatch
  by_cases hm : env.prv = prvM
  · rw [if_pos hm] at hb ⊢
    exact Option.some.inj hb
  · rw [if_neg hm] at hb ⊢
    by_cases hs : env.prv = prvS
    · rw [if_pos hs] at hb ⊢
      exact Option.some.inj hb
    · rw [if_neg hs] at hb ⊢
      by_cases hu : env.prv = prvU
      · rw [if_pos hu] at hb ⊢
        exact Option.some.inj hb
      · rw [if_neg hu] at hb
        exact absurd hb (by simp)

/-- The mode field of RV32 has one bit. -/
theorem atpMode32 (atp : Reg) : getField atp 0x80000000#64 = 0#64 ∨
    getField atp 0x80000000#64 = 1#64 := by
  have hle : (getField atp 0x80000000#64).toNat ≤ 1 :=
    Nat.le_trans (getField_toNat_le (k := 31) (by decide) (by decide) atp) (by decide)
  generalize getField atp 0x80000000#64 = mode at hle ⊢
  bv_omega

/-- The first stage can be decoded for every level. -/
theorem decodeVmInfo_ne_none {mode atp : Reg} (hmode : mode = prvM ∨ mode ≤ prvS)
    (ok : AtpModeOk cfg atp) :
    decodeVmInfo cfg.isa.xlen false mode atp ≠ none := by
  rw [decodeVmInfo]
  by_cases hm : mode = prvM
  · simp [hm]
  · have hle : mode ≤ prvS := hmode.resolve_left hm
    cases hx : cfg.isa.xlen with
    | rv32 =>
      obtain h0 | h1 := atpMode32 atp
      · simp [hm, hle, h0]
      · simp [hm, hle, h1]
    | rv64 =>
      have hmem := ok hx
      simp only [List.mem_cons, List.not_mem_nil, or_false] at hmem
      obtain h0 | h8 | h9 | h10 := hmem
      · simp [hm, hle, h0]
      · simp [hm, hle, h8]
      · simp [hm, hle, h9]
      · simp [hm, hle, h10]

/-- The second stage can be decoded. -/
theorem decodeVmInfo_guest_ne_none {atp : Reg} (ok : AtpModeOk cfg atp) :
    decodeVmInfo cfg.isa.xlen true prvU atp ≠ none := by
  have hne : prvU ≠ prvM := by decide
  cases hx : cfg.isa.xlen with
  | rv32 =>
    obtain h0 | h1 := atpMode32 atp
    · simp [decodeVmInfo, hne, h0]
    · simp [decodeVmInfo, hne, h1]
  | rv64 =>
    have hmem := ok hx
    simp only [List.mem_cons, List.not_mem_nil, or_false] at hmem
    obtain h0 | h8 | h9 | h10 := hmem
    · simp [decodeVmInfo, hne, h0]
    · simp [decodeVmInfo, hne, h8]
    · simp [decodeVmInfo, hne, h9]
    · simp [decodeVmInfo, hne, h10]

/-- **What is asked of the mode of a hart.** -/
structure PrivilegeOk (cfg : Config) (h : Hart) : Prop where
  prv : cfg.Implemented h.prv
  machine : h.prv = prvM → h.v = false
  virt : h.v = true → h.extensionEnabled .h = true
  mpp : cfg.Implemented (getField (h.reg .mstatus) mstatusMpp)
  mpp_ne : getField (h.reg .mstatus) mstatusMpp ≠ 2#64
  /-- `get_privilege_string` does not abort -/
  string : h.getPrivilegeString ≠ none
  /-- `mode_match` does not fail its assertion -/
  modeMatch : ∀ t : Trigger, modeMatchChecked t h.prv h.v ≠ none
  /-- `decode_vm_info` does not abort, for the mode of the hart, for that of `MPRV` and for that of
  a guest access, nor for the second stage -/
  decode : ∀ mode, mode = h.prv ∨ mode = getField (h.reg .mstatus) mstatusMpp ∨
      mode = getField (h.reg .hstatus) hstatusSpvp →
    decodeVmInfo cfg.isa.xlen false mode (h.reg .satp) ≠ none ∧
      decodeVmInfo cfg.isa.xlen false mode (h.reg .vsatp) ≠ none
  decodeGuest : decodeVmInfo cfg.isa.xlen true prvU (h.reg .hgatp) ≠ none

/-- A hart whose mode is in order. -/
theorem privilegeOk_of_modeOk (hu : cfg.isa.table .u = true) (ok : ModeOk cfg h) :
    PrivilegeOk cfg h := by
  have hmpp := ok.wellFormed.regs.mpp hu
  have hspvp : (getField (h.reg .hstatus) hstatusSpvp).toNat ≤ 1 :=
    getField_toNat_le (k := 8) rfl (by decide) _
  have hlevel {prv : Reg} (hp : cfg.Implemented prv) : prv = prvM ∨ prv ≤ prvS := by
    obtain hp | ⟨hp, -⟩ | ⟨hp, -⟩ := hp
    · exact .inl hp
    · exact .inr (hp.symm ▸ by decide)
    · exact .inr (hp.symm ▸ by decide)
  refine ⟨ok.wellFormed.prv, ok.machine, ok.virt, hmpp, ?_, ?_, fun t => ?_, fun mode hmode => ?_,
    decodeVmInfo_guest_ne_none ok.wellFormed.regs.hgatp⟩
  · obtain hp | ⟨hp, -⟩ | ⟨hp, -⟩ := hmpp
    · rw [hp]; decide
    · rw [hp]; decide
    · rw [hp]; decide
  · rw [getPrivilegeString]
    obtain hp | ⟨hp, -⟩ | ⟨hp, -⟩ := ok.wellFormed.prv
    · simp [ok.machine hp, hp, prvM]
    · cases h.v <;> simp [hp, prvS]
    · cases h.v <;> simp [hp, prvU]
  · rw [modeMatchChecked]
    obtain hp | ⟨hp, -⟩ | ⟨hp, -⟩ := ok.wellFormed.prv
    · simp [hp]
    · simp [hp, prvS, prvM]
    · simp [hp, prvU, prvS, prvM]
  · have hle : mode = prvM ∨ mode ≤ prvS := by
      obtain rfl | rfl | rfl := hmode
      · exact hlevel ok.wellFormed.prv
      · exact hlevel hmpp
      · exact .inr (BitVec.le_def.2 hspvp)
    exact ⟨decodeVmInfo_ne_none hle ok.wellFormed.regs.satp,
      decodeVmInfo_ne_none hle ok.wellFormed.regs.vsatp⟩

/-- **The mode is in order.** With U, along every run that enters debug mode from `V = 0` and does
not return from it to M with `V = 1`, the privilege level is implemented, M excludes virtualization,
virtualization needs H, `MPP` is legal, and none of the functions that read the mode aborts. -/
theorem privilegeOk_always (cfg : Config) (hu : cfg.isa.table .u = true)
    (halt : Bool) (ops : List HartOp)
    (hops : Run.Along (step cfg) DebugInOrder (init cfg halt) ops) :
    Run.Always (step cfg) (PrivilegeOk cfg) (init cfg halt) ops :=
  Run.Always.of_step (fun _ op ok hop => ModeOk.step ok op hop) (fun _ => privilegeOk_of_modeOk hu)
    (modeOk_init halt) hops

/-- Debug mode entered from HS and left to M. -/
theorem privilegeOk_always_rv64h :
    Run.Always (step rv64h) (PrivilegeOk rv64h) (init rv64h false)
      [.csr 0x300 (.set 0x800#64) 0#64, .mret 0#64, .enterDebug 3#64, .csr 0x7b0 (.set 3#64) 0#64,
        .dret 0#64] :=
  privilegeOk_always rv64h (by decide) false _
    ⟨trivial, trivial, show Hart.v _ = false by decide, trivial, fun _ hv => absurd hv (by decide),
      trivial⟩

/-- Debug mode entered from VS leaves M with `V = 1`, of which `get_privilege_string` knows no
name. -/
theorem privilegeOk_fails :
    ∃ isa, Isa.parse (fun _ => none) "rv64imach".toList "msu".toList = .ok isa ∧
      ∃ h, Reachable (.ofIsa isa) h ∧ ¬ PrivilegeOk (.ofIsa isa) h := by
  refine ⟨_, Isa.parse_accepted (show (Isa.accepted "rv64imach" "msu").isSome = true by decide), _,
    ⟨false, [.csr 0x300 (.set (mstatusMpv ||| 0x800#64)) 0#64, .mret 0#64, .enterDebug 3#64], rfl⟩,
    fun ok => ok.string ?_⟩
  decide

end Hart

end Nnemu

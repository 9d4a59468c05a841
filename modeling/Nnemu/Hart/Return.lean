import Nnemu.Hart.Interrupt

/-!
# Traps and the returns from them

The return instruction of a level, executed first in its handler, undoes the trap (`ReturnOk`): the
status fields in which the mode was stacked are read back as they were written, through two, three
or four different views of the registers. That needs `V = 1` only with H: without it, `MPV` cannot
be written.

The returns are taken one by one. For each the fields stacked by the trap are followed from the
value written to the value read (`Hart.Status` has their positions), and what comes out is the mode
before the trap. In a run the condition is asked of CSR writes outside debug mode: none of them
switches H off while the hart is virtual.
-/

namespace Nnemu

namespace Hart

variable {cfg : Config} {h h' : Hart}

/-! ### Fields that survive the way through a register -/

/-- The lower half of a register. -/
theorem getLsbD_low32 (i : Nat) (hi : i < 64) : (0xffffffff#64).getLsbD i = decide (i < 32) := by
  have heq : (0xffffffff#64 : Reg) = BitVec.ofNat 64 (2 ^ 32 - 1) := rfl
  rw [heq, BitVec.getLsbD_ofNat, Nat.testBit_two_pow_sub_one]
  simp [hi]

/-- A bit that two writes of `mstatus`, of the whole and of the upper half, leave. -/
theorem getLsbD_mstatus_twice (val : Reg) (i : Nat) (hi : i < 64) (h31 : i ≠ 31) (h63 : i ≠ 63)
    (h11 : i ≠ 11) (h12 : i ≠ 12) :
    (((h.mstatusWrite cfg val).mstatushWrite cfg (val >>> 32)).reg .mstatus).getLsbD i =
      if (h.mstatusWriteMask cfg).getLsbD i then val.getLsbD i else (h.reg .mstatus).getLsbD i := by
  have honce := getLsbD_mstatusWrite cfg h val i hi h31 h63
  rw [getLsbD_setField_mpp _ _ i hi, if_neg h11, if_neg h12] at honce
  rw [mstatushWrite]
  cases cfg.isa.xlen with
  | rv64 => exact honce
  | rv32 =>
    dsimp only
    have f : Frame (fun c => c == .mstatus) h (h.mstatusWrite cfg val) := Frame.mstatusWrite rfl val
    rw [getLsbD_mstatusWrite cfg _ _ i hi h31 h63, getLsbD_setField_mpp _ _ i hi,
      if_neg h11, if_neg h12,
      f.mstatusWriteMask rfl]
    by_cases hw : (h.mstatusWriteMask cfg).getLsbD i = true
    · rw [if_pos hw] at honce
      rw [if_pos hw, if_pos hw]
      by_cases h32 : i < 32
      · rw [BitVec.getLsbD_or, BitVec.getLsbD_and, BitVec.getLsbD_shiftLeft,
          honce, getLsbD_low32 i hi]
        simp [h32]
      · have hlt : i - 32 < 32 := by omega
        rw [BitVec.getLsbD_or, BitVec.getLsbD_and, BitVec.getLsbD_shiftLeft, BitVec.getLsbD_and,
          BitVec.getLsbD_ushiftRight, getLsbD_low32 i hi, getLsbD_low32 (i - 32) (by omega),
          Nat.add_sub_cancel' (Nat.not_lt.1 h32)]
        simp [h32, hlt, hi]
    · rw [if_neg hw, if_neg hw, honce, if_neg hw]

/-- An implemented level is legal. -/
theorem legalizePrivilege_implemented (wf : WellFormed cfg h) {prv : Reg}
    (hp : cfg.Implemented prv) :
    h.legalizePrivilege prv = prv := by
  obtain rfl | ⟨rfl, hs⟩ | ⟨rfl, hu⟩ := hp
  · exact legalizePrivilege_machine
  · exact legalizePrivilege_supervisor wf hs
  · rw [legalizePrivilege, wf.regs.enabled_u, hu]
    simp [prvU, prvHS, prvS]

/-- `MPP` after a write of an implemented level. -/
theorem mpp_mstatusWrite (wf : WellFormed cfg h) {val : Reg}
    (hp : cfg.Implemented (getField val mstatusMpp)) :
    getField ((h.mstatusWrite cfg val).reg .mstatus) mstatusMpp = getField val mstatusMpp := by
  rw [reg_mstatusWrite, Function.update_self, getField_newMstatus_mpp,
    legalizePrivilege_implemented wf hp, hp.and_three]

/-- `MPP` after two writes. -/
theorem mpp_mstatus_twice (wf : WellFormed cfg h) {val : Reg}
    (hp : cfg.Implemented (getField val mstatusMpp)) :
    getField (((h.mstatusWrite cfg val).mstatushWrite cfg (val >>> 32)).reg .mstatus) mstatusMpp =
      getField val mstatusMpp := by
  have honce := mpp_mstatusWrite wf hp
  rw [mstatushWrite]
  cases cfg.isa.xlen with
  | rv64 => exact honce
  | rv32 =>
    dsimp only
    have hlow : getField (((h.mstatusWrite cfg val).reg .mstatus &&& 0xffffffff#64) |||
        ((val >>> 32 &&& 0xffffffff#64) <<< 32)) mstatusMpp = getField val mstatusMpp := by
      rw [← honce]
      apply getField_mpp_congr
      · simp
      · simp
    rw [mpp_mstatusWrite (wf.mstatusWrite val) (hlow.symm ▸ hp), hlow]

/-! ### The status fields on entry -/

/-- The value stacked in `mstatus`. -/
theorem getLsbD_stackMstatus (s prv : Reg) (virt gva : Bool) :
    (stackMstatus s prv virt gva).getLsbD 7 = s.getLsbD 3 ∧
    (stackMstatus s prv virt gva).getLsbD 39 = virt ∧
      getField (stackMstatus s prv virt gva) mstatusMpp = prv &&& 3#64 := by
  unfold stackMstatus
  refine ⟨?_, ?_, ?_⟩
  · simp [mstatusMpie_eq, mstatusMie_eq, mstatusMpv_eq, mstatusGva_eq, getElem_setField_twoPow,
      getElem_setField_mpp, getField_twoPow, getElem_ite]
  · cases virt <;> simp [flagReg, mstatusMpv_eq, mstatusGva_eq, getElem_setField_twoPow]
  · rw [getField_setField_of_disjoint (by rfl), getField_setField_of_disjoint (by rfl),
      getField_setField_of_disjoint (by rfl), getField_setField_mpp]

/-- The value stacked in `sstatus`. -/
theorem getLsbD_stackSstatus (s prv : Reg) :
    (stackSstatus s prv).getLsbD 5 = s.getLsbD 1 ∧ (stackSstatus s prv).getLsbD 8 =
      prv.getLsbD 0 := by
  unfold stackSstatus
  refine ⟨?_, ?_⟩
  · simp [mstatusSpie_eq, mstatusSpp_eq, mstatusSie_eq, getElem_setField_twoPow,
      getField_twoPow, getElem_ite]
  · simp [mstatusSpie_eq, mstatusSpp_eq, mstatusSie_eq, getElem_setField_twoPow]

/-- The value stacked in `hstatus`. -/
theorem getLsbD_stackHstatus (s prv : Reg) (virt gva : Bool) :
    (stackHstatus s prv virt gva).getLsbD 7 = virt := by
  unfold stackHstatus
  cases virt <;>
    simp [flagReg, hstatusSpv_eq, hstatusGva_eq, hstatusSpvp_eq, getElem_setField_twoPow]

/-! ### The return from M -/

/-- An address instructions can lie at. -/
def Aligned (h : Hart) (epc : Reg) : Prop :=
  epc &&& ~~~1#64 = epc ∧ epc &&& h.pcAlignmentMask = epc

/-- Mode and program counter are as before the trap. -/
structure Restored (h : Hart) (epc : Reg) (h₂ : Hart) : Prop where
  prv : h₂.prv = h.prv
  v : h₂.v = h.v
  pc : h₂.pc = epc

/-- The alignment mask follows the extension table. -/
theorem pcAlignmentMask_congr (he : h'.extTable = h.extTable) :
    h'.pcAlignmentMask = h.pcAlignmentMask := by
  rw [pcAlignmentMask, pcAlignmentMask, extensionEnabled, extensionEnabled, he]
  rfl

/-- The value `mret` writes, in the interrupt-enable bit. -/
theorem getLsbD_mretMstatus_mie (s : Reg) : (h.mretMstatus s).getLsbD 3 = s.getLsbD 7 := by
  unfold mretMstatus
  extract_lets prevPrv s₁ s₂ s₃ s₄
  have hs₁ : s₁.getLsbD 7 = s.getLsbD 7 := by
    show (ite _ _ s).getLsbD 7 = s.getLsbD 7
    split
    · simp [mstatusMprv_eq]
    · rfl
  have hs₂ : s₂.getLsbD 3 = s.getLsbD 7 := by
    refine Eq.trans ?_ hs₁
    simp [s₂, mstatusMie_eq, mstatusMpie_eq, getElem_setField_twoPow, getField_twoPow, getElem_ite]
  refine Eq.trans ?_ hs₂
  simp [s₄, s₃, mstatusMpv_eq, mstatusMpie_eq, getElem_setField_twoPow, getElem_setField_mpp]

/-- The program counter has no part in this. -/
theorem legalizePrivilege_setPc (x prv : Reg) :
    (h.setPcAndSerialize x).legalizePrivilege prv = h.legalizePrivilege prv := by
  rw [legalizePrivilege, legalizePrivilege]
  rfl

theorem statusEq_setPc (x : Reg) : StatusEq h (h.setPcAndSerialize x) :=
  ⟨rfl, rfl, rfl, rfl⟩

/-- What `mret` does, in M. -/
theorem mret_spec (cfg : Config) (hp : h.prv = prvM) : ∃ h₂, h.mret cfg = .ok h₂ ∧
    h₂.pc = h.reg .mepc &&& h.pcAlignmentMask ∧
    h₂.prv = h.legalizePrivilege (getField (h.reg .mstatus) mstatusMpp) ∧
    h₂.v = (if h₂.prv = prvM then h.v else (h.reg .mstatus).getLsbD 39) ∧
    h₂.reg .mstatus = (h.putCsr cfg 0x300 (h.mretMstatus (h.reg .mstatus))).reg .mstatus := by
  unfold mret
  rw [if_neg (by rw [hp]; decide)]
  extract_lets h₁ s h₂ h₃
  have f : Frame (fun c => c == .mstatus) h₁ h₂ := by
    show Frame _ h₁ (h₁.putCsr cfg 0x300 _)
    rw [putCsr_mstatus]
    exact Frame.mstatusWrite rfl _
  have hstatus : h₂.reg .mstatus = (h.putCsr cfg 0x300 (h.mretMstatus s)).reg .mstatus := by
    show (h₁.putCsr cfg 0x300 (h.mretMstatus s)).reg .mstatus = _
    rw [putCsr_mstatus, putCsr_mstatus]
    exact ((statusEq_setPc _).mstatusWrite _).mstatus
  clear_value h₂
  refine ⟨_, rfl, ?_, ?_, ?_, ?_⟩
  · rw [pc_setVirt]
    refine f.pc.trans ?_
    show (h.reg .mepc &&& h.pcAlignmentMask) &&& h.pcAlignmentMask = _
    rw [BitVec.and_assoc, BitVec.and_self]
  · rw [prv_setVirt]
    exact (f.legalizePrivilege rfl _).trans (legalizePrivilege_setPc _ _)
  · rw [prv_setVirt, v_setVirt, mstatusMpv_eq, hasBits_twoPow (by decide)]
    exact congrArg (fun v => if h₃.prv = prvM then v else s.getLsbD 39) f.v
  · rw [reg_setVirt]
    exact hstatus

/-- After `mret` the interrupt-enable bit is the stacked one. -/
theorem mie_mret : ((h.putCsr cfg 0x300 (h.mretMstatus (h.reg .mstatus))).reg .mstatus).getLsbD 3 =
    (h.reg .mstatus).getLsbD 7 := by
  rw [putCsr_mstatus, getLsbD_mstatusWrite cfg h _ 3 (by decide) (by decide) (by decide),
    mstatusWriteMask_mie, if_pos rfl, getLsbD_setField_mpp _ _ 3 (by decide),
    if_neg (by decide), if_neg (by decide),
    ← getLsbD_mretMstatus_mie (h := h)]
  cases cfg.isa.xlen with
  | rv32 => simp
  | rv64 => rfl

/-- **`mret` undoes a trap to M.** -/
theorem mret_takeTrap (wf : WellFormed cfg h) (ok : VirtOk h) (hd : h.debugMode = false) {t : Trap}
    {epc : Reg} (he : h.Aligned epc) (hdest : h.trapDestination cfg t = .m) :
    ∃ h₂, (h.takeTrap cfg t epc).mret cfg = .ok h₂ ∧ h.Restored epc h₂ ∧
      (h₂.reg .mstatus).getLsbD 3 = (h.reg .mstatus).getLsbD 3 := by
  have hentry := takeTrap_entry cfg hd t epc
  rw [hdest] at hentry
  have wf₁ := wf.takeTrap t epc
  generalize h.takeTrap cfg t epc = h₁ at hentry wf₁
  obtain ⟨hmpie, hmpv, hmpp⟩ := getLsbD_stackMstatus (h.reg .mstatus) h.prv h.v t.gva
  rw [wf.prv.and_three] at hmpp
  have hprv₁ : h₁.prv = prvM := hentry.prv.trans legalizePrivilege_machine
  obtain ⟨h₂, hret, hpc, hprv, hv, hstatus⟩ := mret_spec cfg hprv₁
  have hmpp₁ : getField (h₁.reg .mstatus) mstatusMpp = h.prv := by
    rw [hentry.status, mpp_mstatus_twice wf (hmpp.symm ▸ wf.prv), hmpp]
  have hprv₂ : h₂.prv = h.prv := by
    rw [hprv, hmpp₁, legalizePrivilege_implemented wf₁ wf.prv]
  refine ⟨h₂, hret, ⟨hprv₂, ?_, ?_⟩, ?_⟩
  · -- `V` was kept in M and is read from `MPV` below it
    rw [hv, hprv₂]
    split
    · rename_i hp
      rw [hentry.v, hp, beq_self_eq_true, Bool.and_true]
    · rw [hentry.status, getLsbD_mstatus_twice _ 39 (by decide) (by decide) (by decide) (by decide)
        (by decide), hmpv, mstatusWriteMask_mpv]
      cases hh : h.extensionEnabled .h with
      | true => rfl
      | false =>
        have hv : h.v = false := Bool.eq_false_iff.2 fun hv => by
          rw [ok hv] at hh
          exact absurd hh (by decide)
        rw [hv]
        exact wf.regs.mpv hh
  · rw [hpc, hentry.epc, pcAlignmentMask_congr hentry.extTable, he.1, he.2]
  · rw [hstatus, mie_mret, hentry.status,
      getLsbD_mstatus_twice _ 7 (by decide) (by decide) (by decide)
      (by decide) (by decide), mstatusWriteMask_mpie, if_pos rfl, hmpie]

/-! ### The return from HS -/

/-- With S, the interrupt-enable bit and what it is stacked in can be written through `sstatus`. -/
theorem sstatusWriteMask_supervisor (hs : cfg.isa.table .s = true) :
    (h.sstatusWriteMask cfg).getLsbD 1 = true ∧ (h.sstatusWriteMask cfg).getLsbD 5 = true ∧
      (h.sstatusWriteMask cfg).getLsbD 8 = true ∧ (h.sstatusWriteMask cfg).getLsbD 22 = false := by
  simp [sstatusWriteMask_eq, hs, getElem_ite]

/-- A field of `sstatus` is read from `mstatus`. -/
theorem getLsbD_sstatusProxyRead (i : Nat) (hw : (h.sstatusWriteMask cfg).getLsbD i = true) :
    (h.sstatusProxyRead cfg).getLsbD i = (h.reg .mstatus).getLsbD i := by
  simp [sstatusProxyRead, sstatusReadMask, hw]

/-- A write of `sstatus` changes its own fields of `mstatus`. -/
theorem getLsbD_sstatusProxyWrite (val : Reg) (i : Nat) (hi : i < 64) (h31 : i ≠ 31) (h63 : i ≠ 63)
    (h11 : i ≠ 11) (h12 : i ≠ 12) :
    ((h.sstatusProxyWrite cfg val).reg .mstatus).getLsbD i =
      if (h.sstatusWriteMask cfg).getLsbD i then val.getLsbD i else (h.reg .mstatus).getLsbD i := by
  rw [sstatusProxyWrite, getLsbD_mstatusWrite cfg h _ i hi h31 h63, getLsbD_setField_mpp _ _ i hi,
    if_neg h11,
    if_neg h12, Bits.getLsbD_replace]
  cases hw : (h.sstatusWriteMask cfg).getLsbD i with
  | true => simp [mstatusWriteMask_eq, hw]
  | false => simp

/-- The value `sret` writes, in the interrupt-enable bit. -/
theorem getLsbD_sretSstatus_sie (s : Reg) : (sretSstatus s).getLsbD 1 = s.getLsbD 5 := by
  unfold sretSstatus
  simp [mstatusSie_eq, mstatusSpie_eq, mstatusSpp_eq, prvU, getElem_setField_twoPow,
    getField_twoPow,
    getElem_ite]

/-- `SPP` holds a level up to S. -/
theorem getField_spp (s : Reg) {prv : Reg} (hp : prv = prvS ∨ prv = prvU)
    (hs : s.getLsbD 8 = prv.getLsbD 0) :
    getField s mstatusSpp = prv := by
  rw [mstatusSpp_eq, getField_twoPow (by decide), ← BitVec.getLsbD_eq_getElem, hs]
  obtain rfl | rfl := hp
  · rfl
  · rfl

/-- What `sret` does, in HS. -/
theorem sret_hs_spec (hs : cfg.isa.table .s = true) (he : h.extensionEnabled .s = true)
    (hv : h.v = false)
    (hp : h.prv = prvS) (htsr : (h.reg .mstatus).getLsbD 22 = false) : ∃ h₂, h.sret cfg = .ok h₂ ∧
    h₂.pc = h.reg .sepc &&& h.pcAlignmentMask ∧
    h₂.prv = h.legalizePrivilege (getField (h.sstatusProxyRead cfg) mstatusSpp) ∧
    h₂.v = (h.extensionEnabled .h && h₂.prv != prvM && (h.reg .hstatus).getLsbD 7) ∧
    (h₂.reg .mstatus).getLsbD 1 = (h.reg .mstatus).getLsbD 5 := by
  -- nothing refuses the instruction in HS
  have hrefused : h.sretRefused = none := by
    have htsr' : hasBits (h.read .mstatus) mstatusTsr = false := by
      rw [mstatusTsr_eq, hasBits_twoPow (by decide)]
      exact htsr
    simp [sretRefused, he, hv, htsr', hp]
  obtain ⟨h1, h5, -, -⟩ := sstatusWriteMask_supervisor (h := h) hs
  unfold sret
  rw [hrefused]
  extract_lets prevHstatus h₁ s h₂ h₃ h₄
  have hv₁ : h₁.v = false := hv
  have hread : s = h.sstatusProxyRead cfg := if_neg (by simp [hv₁])
  have hw : h₂ = h₁.sstatusProxyWrite cfg (sretSstatus s) := sstatusWrite_of_not_virt hv₁ _
  have f : Frame (fun c => c == .mstatus) h₁ h₂ := by
    rw [hw]
    exact Frame.sstatusProxyWrite rfl _
  -- `SIE` comes from `SPIE`, through the proxy
  have hbit : (h₂.reg .mstatus).getLsbD 1 = (h.reg .mstatus).getLsbD 5 := by
    rw [hw, getLsbD_sstatusProxyWrite _ 1 (by decide) (by decide) (by decide)
      (by decide) (by decide)]
    have hmask : (h₁.sstatusWriteMask cfg).getLsbD 1 = true := h1
    rw [if_pos hmask, getLsbD_sretSstatus_sie, hread, getLsbD_sstatusProxyRead 5 h5]
  clear_value h₂
  have hv₃ : h₃.v = false := f.v.trans hv
  have hprv₃ : h₃.prv = h.legalizePrivilege (getField s mstatusSpp) :=
    (f.legalizePrivilege rfl _).trans (legalizePrivilege_setPc _ _)
  have hext₃ : h₃.extensionEnabled .h = h.extensionEnabled .h := f.extensionEnabled rfl .h
  -- `V` comes from `SPV` with H, and stays clear without
  have h₄eq : h₄.pc = h₂.pc ∧ h₄.prv = h₃.prv ∧
      h₄.v = (h.extensionEnabled .h && h₃.prv != prvM && (h.reg .hstatus).getLsbD 7) ∧
      h₄.reg .mstatus = h₂.reg .mstatus := by
    cases he₃ : h₃.extensionEnabled .h with
    | false =>
      have heq : h₄ = h₃ := if_neg (by simp [he₃])
      rw [heq, ← hext₃, he₃]
      exact ⟨rfl, rfl, hv₃, rfl⟩
    | true =>
      have heq : h₄ = (h₃.setVirt (hasBits prevHstatus hstatusSpv)).write cfg
          (setField prevHstatus hstatusSpv 0#64) .hstatus := if_pos he₃
      have f₄ : Frame (fun c => c == .hstatus)
          (h₃.setVirt (hasBits prevHstatus hstatusSpv)) h₄ := by
        rw [heq]
        exact Frame.set rfl _
      refine ⟨f₄.pc.trans (pc_setVirt _), f₄.prv.trans (prv_setVirt _), ?_, ?_⟩
      · rw [f₄.v, v_setVirt, hv₃, ← hext₃, he₃, hstatusSpv_eq, hasBits_twoPow (by decide)]
        by_cases hm : h₃.prv = prvM
        · simp [hm]
        · rw [if_neg hm, bne_iff_ne.2 hm]
          rfl
      · rw [f₄.reg .mstatus rfl, reg_setVirt]
        rfl
  obtain ⟨hpc₄, hprv₄, hv₄, hm₄⟩ := h₄eq
  clear_value h₄
  rw [if_neg (by simp [hv₃])]
  have f₅ : Frame (fun c => c == .mstatus) h₄ (h₄.mstatusWrite cfg
      (setField (h₄.read .mstatus) mstatusMprv 0#64)) := Frame.mstatusWrite rfl _
  refine ⟨_, rfl, ?_, ?_, ?_, ?_⟩
  · rw [f₅.pc, hpc₄, f.pc]
    have hread : h.virtRead .sepc .vsepc = h.reg .sepc &&& h.pcAlignmentMask :=
      if_neg (by simp [hv])
    show h.virtRead .sepc .vsepc &&& h.pcAlignmentMask = _
    rw [hread, BitVec.and_assoc, BitVec.and_self]
  · rw [f₅.prv, hprv₄, hprv₃, hread]
  · rw [f₅.v, hv₄, f₅.prv, hprv₄]
  · rw [getLsbD_mstatusWrite cfg h₄ _ 1 (by decide) (by decide) (by decide), ← hbit, ← hm₄]
    split
    · simp [getElem_setField_mpp, mstatusMprv_eq]
      rfl
    · rfl

/-- Traps are delegated with S only. -/
theorem supervisor_of_destination_hs (wf : WellFormed cfg h) {t : Trap}
    (hdest : h.trapDestination cfg t = .hs) : cfg.isa.table .s = true := by
  by_contra hn
  have hs : cfg.isa.table .s = false := Bool.eq_false_iff.2 hn
  have hh : h.extensionEnabled .h = false := Bool.eq_false_iff.2 fun hh =>
    hn (cfg.isa.s_of_h (wf.regs.table_h hh))
  obtain ⟨hmideleg, hmedeleg⟩ := wf.regs.deleg hs
  have hdeleg : h.hsdeleg cfg t = 0#64 := by
    rw [hsdeleg, midelegRead, hh, hmideleg, hmedeleg]
    simp
  rw [trapDestination, hdeleg] at hdest
  split at hdest
  · exact absurd hdest (by decide)
  · simp [delegated] at hdest

/-- `SPV` can be written. -/
theorem hstatusMask_spv : h.hstatusMask.getLsbD 7 = true := by
  simp [hstatusMask, hstatusSpv]

/-- **`sret` undoes a trap to HS.** -/
theorem sret_takeTrap_hs (wf : WellFormed cfg h) (ok : VirtOk h) (hd : h.debugMode = false)
    {t : Trap}
    {epc : Reg} (he : h.Aligned epc) (hdest : h.trapDestination cfg t = .hs)
    (htsr : (h.reg .mstatus).getLsbD 22 = false) :
    ∃ h₂, (h.takeTrap cfg t epc).sret cfg = .ok h₂ ∧ h.Restored epc h₂ ∧
      (h₂.reg .mstatus).getLsbD 1 = (h.reg .mstatus).getLsbD 1 := by
  have hs := supervisor_of_destination_hs wf hdest
  have hlow : h.prv = prvS ∨ h.prv = prvU :=
    lt_machine wf (ne_machine_of_le (of_destination_hs hdest))
  have hentry := takeTrap_entry cfg hd t epc
  rw [hdest] at hentry
  have wf₁ := wf.takeTrap t epc
  generalize h.takeTrap cfg t epc = h₁ at hentry wf₁
  obtain ⟨hspie, hspp⟩ := getLsbD_stackSstatus (h.sstatusProxyRead cfg) h.prv
  obtain ⟨hw1, hw5, hw8, hw22⟩ := sstatusWriteMask_supervisor (h := h) hs
  obtain ⟨-, -, hw8', -⟩ := sstatusWriteMask_supervisor (h := h₁) hs
  have hfield (i : Nat) (hi : i < 64) (h31 : i ≠ 31) (h63 : i ≠ 63) (h11 : i ≠ 11) (h12 : i ≠ 12) :
      (h₁.reg .mstatus).getLsbD i = if (h.sstatusWriteMask cfg).getLsbD i then
        (stackSstatus (h.sstatusProxyRead cfg) h.prv).getLsbD i
          else (h.reg .mstatus).getLsbD i := by
    rw [hentry.status, getLsbD_sstatusProxyWrite _ i hi h31 h63 h11 h12]
  have hprv₁ : h₁.prv = prvS := hentry.prv.trans (legalizePrivilege_supervisor wf hs)
  have he₁ : h₁.extensionEnabled .s = true := wf₁.regs.enabled_s.trans hs
  have htsr₁ : (h₁.reg .mstatus).getLsbD 22 = false := by
    rw [hfield 22 (by decide) (by decide) (by decide) (by decide) (by decide), hw22]
    exact htsr
  obtain ⟨h₂, hret, hpc, hprv, hv, hsie⟩ := sret_hs_spec hs he₁ hentry.v hprv₁ htsr₁
  have hspp₁ : getField (h₁.sstatusProxyRead cfg) mstatusSpp = h.prv := by
    refine getField_spp _ hlow ?_
    rw [getLsbD_sstatusProxyRead 8 hw8',
      hfield 8 (by decide) (by decide) (by decide) (by decide) (by decide), hw8, if_pos rfl, hspp]
  have hprv₂ : h₂.prv = h.prv := by
    rw [hprv, hspp₁, legalizePrivilege_implemented wf₁ wf.prv]
  refine ⟨h₂, hret, ⟨hprv₂, ?_, ?_⟩, ?_⟩
  · have hext : h₁.extensionEnabled .h = h.extensionEnabled .h := by
      rw [extensionEnabled_h, extensionEnabled_h, hentry.reg .misa rfl]
    have hne : (h₂.prv != prvM) = true := by
      rw [hprv₂, bne_iff_ne]
      exact ne_machine_of_le (of_destination_hs hdest)
    rw [hv, hext, hne, Bool.and_true, hentry.hstatus]
    cases hh : h.extensionEnabled .h with
    | true =>
      rw [if_pos rfl, Bits.getLsbD_replace, hstatusMask_spv, if_pos rfl,
        getLsbD_stackHstatus, Bool.true_and]
    | false =>
      rw [Bool.false_and]
      exact (Bool.eq_false_iff.2 fun hv => absurd (hh.symm.trans (ok hv)) (by decide)).symm
  · rw [hpc, hentry.epc, pcAlignmentMask_congr hentry.extTable, he.1, he.2]
  · rw [hsie, hfield 5 (by decide) (by decide) (by decide) (by decide) (by decide),
      hw5, if_pos rfl, hspie,
      getLsbD_sstatusProxyRead 1 hw1]

/-! ### The return from VS -/

/-- A bit of `vsstatus` after a write of it. -/
theorem getLsbD_adjustSd_replace (m old val : Reg) (i : Nat) (hi : i < 64)
    (h31 : i ≠ 31) (h63 : i ≠ 63) :
    (cfg.adjustSd (Bits.replace m old val)).getLsbD i = if m.getLsbD i then val.getLsbD i
      else old.getLsbD i := by
  rw [cfg.getLsbD_adjustSd _ i hi (cfg.ne_sd h31 h63), Bits.getLsbD_replace]

/-- What `sret` does, in VS. -/
theorem sret_vs_spec (hs : cfg.isa.table .s = true) (he : h.extensionEnabled .s = true)
    (hv : h.v = true)
    (hp : h.prv = prvS) (hvtsr : (h.reg .hstatus).getLsbD 22 = false) : ∃ h₂, h.sret cfg = .ok h₂ ∧
    h₂.pc = h.reg .vsepc &&& h.pcAlignmentMask ∧
    h₂.prv = h.legalizePrivilege (getField (h.reg .vsstatus) mstatusSpp) ∧ h₂.v = true ∧
    (h₂.reg .vsstatus).getLsbD 1 = (h.reg .vsstatus).getLsbD 5 := by
  have hrefused : h.sretRefused = none := by
    have hvtsr' : hasBits (h.read .hstatus) hstatusVtsr = false := by
      have heq : hstatusVtsr = BitVec.twoPow 64 22 := rfl
      rw [heq, hasBits_twoPow (by decide)]
      exact hvtsr
    simp [sretRefused, he, hv, hvtsr', hp, prvS, prvU]
  obtain ⟨h1, -, -, -⟩ := sstatusWriteMask_supervisor (h := h) hs
  unfold sret
  rw [hrefused]
  extract_lets prevHstatus h₁ s h₂ h₃ h₄
  have hv₁ : h₁.v = true := hv
  have hread : s = h.reg .vsstatus := if_pos hv₁
  have hw : h₂ = h₁.vsstatusWrite cfg (sretSstatus s) := sstatusWrite_of_virt hv₁ _
  have f : Frame (fun c => c == .vsstatus) h₁ h₂ := by
    rw [hw]
    exact Frame.vsstatusWrite rfl _
  have hbit : (h₂.reg .vsstatus).getLsbD 1 = (h.reg .vsstatus).getLsbD 5 := by
    have hmask : (h₁.sstatusWriteMask cfg).getLsbD 1 = true := h1
    rw [hw, reg_vsstatusWrite, Function.update_self,
      getLsbD_adjustSd_replace _ _ _ 1 (by decide) (by decide)
      (by decide), if_pos hmask, getLsbD_sretSstatus_sie, hread]
  clear_value h₂
  have hv₃ : h₃.v = true := f.v.trans hv
  have hprv₃ : h₃.prv = h.legalizePrivilege (getField s mstatusSpp) :=
    (f.legalizePrivilege rfl _).trans (legalizePrivilege_setPc _ _)
  have hpc₃ : h₃.pc = h₁.pc := f.pc
  have hreg₃ : h₃.reg = h₂.reg := rfl
  clear_value h₃
  rw [if_pos hv₃]
  refine ⟨h₃, rfl, ?_, hprv₃.trans (by rw [hread]), hv₃, ?_⟩
  · have hread : h.virtRead .sepc .vsepc = h.reg .vsepc &&& h.pcAlignmentMask := if_pos hv
    rw [hpc₃]
    show h.virtRead .sepc .vsepc &&& h.pcAlignmentMask = _
    rw [hread, BitVec.and_assoc, BitVec.and_self]
  · rw [hreg₃]
    exact hbit

/-- **`sret` undoes a trap to VS.** -/
theorem sret_takeTrap_vs (wf : WellFormed cfg h) (hd : h.debugMode = false) {t : Trap} {epc : Reg}
    (he : h.Aligned epc) (hdest : h.trapDestination cfg t = .vs)
    (hvtsr : (h.reg .hstatus).getLsbD 22 = false) :
    ∃ h₂, (h.takeTrap cfg t epc).sret cfg = .ok h₂ ∧ h.Restored epc h₂ ∧
      (h₂.reg .vsstatus).getLsbD 1 = (h.reg .vsstatus).getLsbD 1 := by
  obtain ⟨hv, hle⟩ := of_destination_vs hdest
  have hs := cfg.isa.s_of_h (wf.virt hv)
  have hlow : h.prv = prvS ∨ h.prv = prvU := lt_machine wf (ne_machine_of_le hle)
  have hentry := takeTrap_entry cfg hd t epc
  rw [hdest] at hentry
  have wf₁ := wf.takeTrap t epc
  generalize h.takeTrap cfg t epc = h₁ at hentry wf₁
  obtain ⟨hspie, hspp⟩ := getLsbD_stackSstatus (h.reg .vsstatus) h.prv
  obtain ⟨-, hw5, hw8, -⟩ := sstatusWriteMask_supervisor (h := h) hs
  have hprv₁ : h₁.prv = prvS := hentry.prv.trans (legalizePrivilege_supervisor wf hs)
  have he₁ : h₁.extensionEnabled .s = true := wf₁.regs.enabled_s.trans hs
  have hvtsr₁ : (h₁.reg .hstatus).getLsbD 22 = false := by
    rw [hentry.reg .hstatus rfl]
    exact hvtsr
  obtain ⟨h₂, hret, hpc, hprv, hv₂, hsie⟩ := sret_vs_spec hs he₁ hentry.v hprv₁ hvtsr₁
  have hspp₁ : getField (h₁.reg .vsstatus) mstatusSpp = h.prv := by
    refine getField_spp _ hlow ?_
    rw [hentry.status, getLsbD_adjustSd_replace _ _ _ 8 (by decide) (by decide) (by decide),
      hw8, if_pos rfl,
      hspp]
  refine ⟨h₂, hret, ⟨?_, hv₂.trans hv.symm, ?_⟩, ?_⟩
  · rw [hprv, hspp₁, legalizePrivilege_implemented wf₁ wf.prv]
  · rw [hpc, hentry.epc, pcAlignmentMask_congr hentry.extTable, he.1, he.2]
  · rw [hsie, hentry.status,
      getLsbD_adjustSd_replace _ _ _ 5 (by decide) (by decide) (by decide), hw5,
      if_pos rfl, hspie]

/-! ### Along runs -/

/-- **Returns undo traps.** Outside debug mode and with RNMI enabled, for every trap and every
aligned `epc`: the return instruction of the level the trap goes to, executed first there, restores
the mode, the program counter and the interrupt-enable bit of the level. -/
def ReturnOk (cfg : Config) (h : Hart) : Prop :=
  h.debugMode = false → h.nmie cfg = true → ∀ t epc, h.Aligned epc →
    match h.trapDestination cfg t with
    | .m => ∃ h₂, (h.takeTrap cfg t epc).mret cfg = .ok h₂ ∧ h.Restored epc h₂ ∧
        (h₂.reg .mstatus).getLsbD 3 = (h.reg .mstatus).getLsbD 3
    | .hs => hasBits (h.reg .mstatus) mstatusTsr = false →
        ∃ h₂, (h.takeTrap cfg t epc).sret cfg = .ok h₂ ∧ h.Restored epc h₂ ∧
          (h₂.reg .mstatus).getLsbD 1 = (h.reg .mstatus).getLsbD 1
    | .vs => hasBits (h.reg .hstatus) hstatusVtsr = false →
        ∃ h₂, (h.takeTrap cfg t epc).sret cfg = .ok h₂ ∧ h.Restored epc h₂ ∧
          (h₂.reg .vsstatus).getLsbD 1 = (h.reg .vsstatus).getLsbD 1

theorem returnOk_of_virtOk (wf : WellFormed cfg h) (ok : VirtOk h) : ReturnOk cfg h := by
  intro hd _ t epc he
  cases hdest : h.trapDestination cfg t with
  | m => exact mret_takeTrap wf ok hd he hdest
  | hs =>
    intro htsr
    rw [mstatusTsr_eq, hasBits_twoPow (by decide)] at htsr
    exact sret_takeTrap_hs wf ok hd he hdest htsr
  | vs =>
    intro hvtsr
    have heq : hstatusVtsr = BitVec.twoPow 64 22 := rfl
    rw [heq, hasBits_twoPow (by decide)] at hvtsr
    exact sret_takeTrap_vs wf hd he hdest hvtsr

/-- Well-formed, and virtualized with H only, outside debug mode. -/
structure VirtOutside (cfg : Config) (h : Hart) : Prop where
  wellFormed : WellFormed cfg h
  virt : h.debugMode = false → VirtOk h

/-- Outside debug mode no CSR instruction switches H off with `V = 1`, and debug mode is not left
with `V = 1` and without H. -/
def KeepsHOutside (cfg : Config) (h : Hart) : HartOp → Prop
  | .csr which insn bits => h.debugMode = false → KeepsH cfg h (.csr which insn bits)
  | .dret _ => h.debugMode = true → VirtOk h
  | _ => True

theorem VirtOutside.event (ok : VirtOutside cfg h) (op : HartOp) (hop : KeepsHOutside cfg h op) :
    VirtOutside cfg (h.event cfg op) := by
  refine ⟨ok.wellFormed.event op, fun houtside => ?_⟩
  cases hd : h.debugMode with
  | false =>
    have hvirt := ok.virt hd
    cases op with
    | csr which insn bits => exact hvirt.event ok.wellFormed _ (hop hd)
    | _ => exact hvirt.event ok.wellFormed _ trivial
  | true =>
    cases op with
    | dret bits => exact (hop hd).event ok.wellFormed (.dret bits) trivial
    | reset halt => exact fun hv => absurd ((reset_v halt).symm.trans hv) (by decide)
    | _ =>
      rw [debugMode_event hd _ (by simp) (by simp)] at houtside
      cases houtside

theorem VirtOutside.step (ok : VirtOutside cfg h) (op : HartOp) (hop : KeepsHOutside cfg h op) :
    VirtOutside cfg (h.step cfg op) := by
  rw [Hart.step]
  split
  · exact ok
  · exact ok.event op hop

/-- **Returns undo traps**, along every run in which no instruction outside debug mode switches H
off with `V = 1`, and debug mode is not left in that state. The return that belongs to the level of
a trap, taken first thing in the handler, leads back to the privilege level, the virtualization mode
and the interrupt enable from before. -/
theorem returnOk_always (cfg : Config) (halt : Bool) (ops : List HartOp)
    (hops : Run.Along (step cfg) (KeepsHOutside cfg) (init cfg halt) ops) :
    Run.Always (step cfg) (ReturnOk cfg) (init cfg halt) ops := by
  have hinit : VirtOutside cfg (init cfg halt) :=
    ⟨wellFormed_init halt, fun _ => (modeOk_init halt).virt⟩
  exact Run.Always.of_step (fun _ op ok hop => VirtOutside.step ok op hop)
    (fun _ ok hd => returnOk_of_virtOk ok.wellFormed (ok.virt hd) hd) hinit hops

/-- A hart goes to VS, where a debugger halts it, switches H off and on, and lets it go on. -/
theorem returnOk_always_rv64h :
    Run.Always (step rv64h) (ReturnOk rv64h) (init rv64h false)
      [.csr 0x300 (.set 0x8000000800#64) 0#64, .mret 0#64, .enterDebug 3#64,
        .csr 0x301 (.clear 0x80#64) 0#64, .csr 0x301 (.set 0x80#64) 0#64, .dret 0#64] :=
  returnOk_always rv64h false _
    ⟨fun _ hv => absurd hv (by decide), trivial, trivial, fun hd => absurd hd (by decide),
      fun hd => absurd hd (by decide), fun _ _ => by decide, trivial⟩

/-- A debugger switches H off while the hart it halted is in VS: after `dret`, a trap to M cannot
store in `MPV` that it came from there. -/
theorem returnOk_fails : ∃ h, Reachable rv64h h ∧ ¬ ReturnOk rv64h h := by
  refine ⟨_, ⟨false, [.csr 0x300 (.set 0x8000000800#64) 0#64, .mret 0#64, .enterDebug 3#64,
    .csr 0x301 (.clear 0x80#64) 0#64, .dret 0#64], rfl⟩, fun ok => ?_⟩
  obtain ⟨h₂, hret, hres, -⟩ : ∃ h₂, _ = Except.ok h₂ ∧ Restored _ 0#64 h₂ ∧ _ :=
    ok (by decide) (by decide) { cause := causeIllegalInstruction } 0#64 ⟨by decide, by decide⟩
  have hv : (Except.ok h₂ : Except Refusal Hart).toOption.map Hart.v = some false := by
    rw [← hret]
    decide
  exact absurd ((congrArg some hres.v).symm.trans hv) (by decide)

end Hart

end Nnemu

import Nnemu.Hart.Privilege
import Nnemu.Hart.Timer

/-!
# Hypervisor state without a hypervisor

Switching `misa.H` off clears every bit that belongs to the hypervisor extension, and while H is off
the masks keep the bits from coming back: those of `mstatus` and `mnstatus`, of `medeleg`, of `mip`
and `mie`, and the registers at hypervisor addresses. Three writers pass the masks by:
`time_counter_csr_t::sync` sets `VSTIP` whenever Sstc is implemented, the enable bit of a
coprocessor has the number of `SGEIP`, and `misa` can be written in debug mode with `V = 1`. A run
without these keeps the state clear (`hypervisorOff_always`).
-/

namespace Nnemu

namespace CsrObj

/-- The entries at hypervisor addresses whose writes could reach the state. -/
def needsH : CsrObj → Bool
  | plain c => c == .hstatus || c == .vstimecmp
  | mipProxy address _ => address / 0x100 % 4 == 2
  | mieProxy address _ => address / 0x100 % 4 == 2
  | rv32Low orig => orig.needsH
  | rv32High orig => orig.needsH
  | _ => false

/-- The entries that cannot reach it with `V = 0`, not being views of `mie` or of the delegation
registers: a view of `mip` or `mie` shows delegated bits only, and none of them is a bit of the
hypervisor. -/
def guarded : CsrObj → Bool
  | plain c => c != .hstatus && c != .vstimecmp && c != .mie && c != .misa &&
  c != .medeleg && c != .mideleg
  | mipProxy _ accr => accr.maskMode != .none &&
    (mipHsMask &&& delegableMask &&& accr.ipWriteMask == 0#64)
  | mieProxy _ accr => accr.maskMode != .none &&
    (mipHsMask &&& delegableMask &&& accr.ieWriteMask == 0#64)
  | virtualized orig _ => orig.guarded
  | rv32Low orig => orig.guarded
  | rv32High orig => orig.guarded
  | counterProxy _ delegate => delegate.guarded
  | proxy _ delegate => delegate.guarded
  | composite upper lower _ => upper.guarded && lower.guarded
  | _ => true

/-- An object that stands for itself. -/
def isPlain : CsrObj → Bool
  | plain _ => true
  | _ => false

end CsrObj

/-- Every entry of the map is of one of these kinds. -/
theorem guarded_full (cfg : Config) :
    (csrmap cfg.full).all (fun e => e.2.needsH || e.2.isPlain || e.2.guarded) = true := by
  obtain ⟨⟨xlen, table, exts, hu, hs⟩, impl, id, big, count, pmp, vlen, vlenb⟩ := cfg
  cases xlen <;> cases count <;>
    exact all_csrmap _ rfl rfl rfl rfl rfl rfl rfl (fun _ => rfl) rfl rfl rfl
      (fun _ => rfl) fun _ => rfl

namespace Hart

variable {cfg : Config} {h h' : Hart}

/-! ### What is asked -/

/-- All hypervisor-only state reads as zero. `mnstatus` exists with Smrnmi. -/
structure HypervisorClear (cfg : Config) (h : Hart) : Prop where
  mip : h.read .mip &&& mipHsMask = 0#64
  mie : h.read .mie &&& mipHsMask = 0#64
  medeleg : h.read .medeleg &&& hypervisorExceptions = 0#64
  mpv : hasBits (h.read .mstatus) mstatusMpv = false
  gva : hasBits (h.read .mstatus) mstatusGva = false
  mnpv : cfg.isa.table .smrnmi = true → hasBits (h.read .mnstatus) mnstatusMnpv = false
  /-- the fields that can be written -/
  hstatus : h.read .hstatus &&& h.hstatusMask = 0#64
  v : h.v = false

/-- While H is off the hypervisor state is clear. -/
def HypervisorOff (cfg : Config) (h : Hart) : Prop :=
  h.extensionEnabled .h = false → HypervisorClear cfg h

/-- The writers that pass the masks by: a tick that finds the comparator of the guest reached, with
H off, the enable bit of a coprocessor, and a write to `misa` with `V = 1`. -/
def OffInOrder (cfg : Config) (h : Hart) : HartOp → Prop
  | .csr which insn bits => KeepsH cfg h (.csr which insn bits) ∧
      (h.extensionEnabled .h = false → cfg.anyCustomExtensions = true →
        ∀ val, h.Writes cfg which insn (.plain .mie) val → val.getLsbD 12 = false)
  | .timeSync mtime => h.extensionEnabled .h = false → h.extensionEnabled .sstc = true →
      ¬ h.reg .vstimecmp ≤ mtime + h.reg .htimedelta
  | _ => True

/-! ### The registers -/

/-- The part of the state that no other invariant speaks about. -/
structure Clear (h : Hart) : Prop where
  mip : h.reg .mip &&& mipHsMask = 0#64
  mie : h.reg .mie &&& mipHsMask = 0#64
  medeleg : h.reg .medeleg &&& hypervisorExceptions = 0#64
  gva : (h.reg .mstatus).getLsbD 38 = false
  hstatus : h.reg .hstatus &&& h.hstatusMask = 0#64

/-- The registers it is about. -/
def hypervisorRegs : List Csr :=
  [.mip, .mie, .medeleg, .mstatus, .hstatus]

/-- `GVA` after a write of `mstatus`. -/
theorem gva_mstatusWrite (val : Reg) :
    ((h.mstatusWrite cfg val).reg .mstatus).getLsbD 38 =
      if h.extensionEnabled .h then val.getLsbD 38 else (h.reg .mstatus).getLsbD 38 := by
  rw [getLsbD_mstatusWrite cfg h val 38 (by decide) (by decide) (by decide)]
  cases hh : h.extensionEnabled .h with
  | false => simp [mstatusWriteMask_eq, sstatusWriteMask_eq, getElem_ite, hh]
  | true => simp [mstatusWriteMask_eq, hh, getElem_setField_mpp]

namespace Clear

/-- The other registers do not matter. -/
theorem of_regFrame {s : Csr → Bool} (clear : Clear h) (f : RegFrame s h h')
    (hs : ∀ c ∈ hypervisorRegs, s c = false) : Clear h' where
  mip := by rw [f.reg .mip (hs _ (by decide))]; exact clear.mip
  mie := by rw [f.reg .mie (hs _ (by decide))]; exact clear.mie
  medeleg := by rw [f.reg .medeleg (hs _ (by decide))]; exact clear.medeleg
  gva := by rw [f.reg .mstatus (hs _ (by decide))]; exact clear.gva
  hstatus := by
    rw [f.reg .hstatus (hs _ (by decide)), hstatusMask, f.builtWithMmu]; exact clear.hstatus

theorem mstatusWrite (clear : Clear h) (hoff : h.extensionEnabled .h = false) (val : Reg) :
    Clear (h.mstatusWrite cfg val) := by
  have f : Frame (fun c => c == .mstatus) h (h.mstatusWrite cfg val) := Frame.mstatusWrite rfl val
  refine ⟨?_, ?_, ?_, ?_, ?_⟩
  · rw [f.reg .mip rfl]
    exact clear.mip
  · rw [f.reg .mie rfl]
    exact clear.mie
  · rw [f.reg .medeleg rfl]
    exact clear.medeleg
  · rw [gva_mstatusWrite, hoff, if_neg (by decide)]
    exact clear.gva
  · rw [f.reg .hstatus rfl, hstatusMask, f.builtWithMmu]
    exact clear.hstatus

theorem vsstatusWrite (clear : Clear h) (val : Reg) : Clear (h.vsstatusWrite cfg val) :=
  clear.of_regFrame (s := fun c => c == .vsstatus) (.of_frame (Frame.vsstatusWrite rfl val) rfl)
    (by decide)

theorem dirty (clear : Clear h) (hoff : h.extensionEnabled .h = false) (dirties : Reg) :
    Clear (h.dirty cfg dirties) := by
  rw [Hart.dirty]
  split
  · exact clear
  · generalize h₀eq : (if h.sstatusEnabled cfg dirties then h else h.abort) = h₀
    have f₀ : SameRegs h h₀ := by
      subst h₀eq
      split
      · exact ⟨rfl, rfl, rfl⟩
      · exact ⟨rfl, rfl, rfl⟩
    have r₀ : RegFrame (fun _ => false) h h₀ := .of_sameRegs f₀
    have clear₀ : Clear h₀ := clear.of_regFrame r₀ (by decide)
    have clear₁ : Clear (h₀.sstatusProxyWrite cfg (h₀.sstatusProxyRead cfg ||| dirties)) :=
      clear₀.mstatusWrite ((r₀.extensionEnabled rfl .h).trans hoff) _
    dsimp only
    split
    · exact clear₁.vsstatusWrite _
    · exact clear₁

/-- A masked write of `mip` that brings none of the hypervisor's bits. -/
theorem writeMip (clear : Clear h) {mask val : Reg} (hm : mipHsMask &&& mask &&& val = 0#64) :
    Clear (h.writeWithMask .mip mask val) :=
  { clear with mip := Bits.and_replace_eq_zero clear.mip hm }

theorem writeMie (clear : Clear h) {mask val : Reg} (hm : mipHsMask &&& mask &&& val = 0#64) :
    Clear (h.writeWithMask .mie mask val) :=
  { clear with mie := Bits.and_replace_eq_zero clear.mie hm }

theorem writeMedeleg (clear : Clear h) {mask : Reg} (hm : hypervisorExceptions &&& mask = 0#64)
    (val : Reg) :
    Clear (h.maskedWrite mask .medeleg val) :=
  { clear with medeleg := (Bits.and_replace_of_disjoint hm).trans clear.medeleg }

/-- A write that reaches none of the registers. -/
theorem write (clear : Clear h) {c : Csr} (hc : ∀ r ∈ hypervisorRegs, c.footprint r = false)
    (hm : c.footprint .misa = false) (val : Reg) : Clear (h.write cfg val c) :=
  clear.of_regFrame (.of_frame (Frame.write val c) hm) hc

/-- The same for the last step of a write. -/
theorem set (clear : Clear h) {c : Csr} (hc : ∀ r ∈ hypervisorRegs, decide (r = c) = false)
    (val : Reg) : Clear (h.set c val) := by
  refine clear.of_regFrame (s := fun r => r = c) ⟨fun r hr => ?_, rfl, rfl⟩ hc
  rw [reg_set, if_neg (of_decide_eq_false hr)]

theorem vectorWrite (clear : Clear h) (hoff : h.extensionEnabled .h = false)
    (mask val : Reg) {c : Csr}
    (hc : ∀ r ∈ hypervisorRegs, decide (r = c) = false) : Clear (h.vectorWrite cfg mask c val) := by
  rw [Hart.vectorWrite]
  split
  · exact clear
  · exact (clear.dirty hoff _).set hc _

end Clear

/-! ### CSR instructions with H off -/

/-- H is off, virtualization too, and the state is clear. -/
structure Off (h : Hart) : Prop where
  off : h.extensionEnabled .h = false
  v : h.v = false
  mideleg : h.reg .mideleg &&& ~~~delegableMask = 0#64
  clear : Clear h

/-- Without H no interrupt of the hypervisor can be written to `mip`. -/
theorem mipWriteMask_off (hoff : h.extensionEnabled .h = false) :
    mipHsMask &&& h.mipWriteMask = 0#64 := by
  rw [mipWriteMask, hoff]
  cases h.extensionEnabled .s <;> cases hasBits (h.reg .menvcfg) envcfgStce <;>
    cases h.extensionEnabled .sscofpmf <;> rfl

/-- Of `mie` it is the enable bit of a coprocessor. -/
theorem mieWriteMask_off (hoff : h.extensionEnabled .h = false) :
    mipHsMask &&& h.mieWriteMask cfg =
      if cfg.anyCustomExtensions = true then BitVec.twoPow 64 12 else 0#64 := by
  rw [mieWriteMask, delegableInts, hoff]
  cases h.extensionEnabled .s <;> cases cfg.anyCustomExtensions <;>
    cases h.extensionEnabled .sscofpmf <;> rfl

theorem and_twoPow_of_clear {val : Reg} {i : Nat} (hi : val.getLsbD i = false) :
    BitVec.twoPow 64 i &&& val = 0#64 := by
  refine BitVec.eq_of_getLsbD_eq fun j hj => ?_
  rw [BitVec.getLsbD_and, BitVec.getLsbD_twoPow, BitVec.getLsbD_zero]
  by_cases hij : i = j
  · rw [← hij, hi, Bool.and_false]
  · simp [hij]

/-- A write to an object that holds a value. The registers of the hypervisor are out of reach, and
`mie` may have the bit of a coprocessor. -/
theorem Off.clear_write (ok : Off h) {c : Csr} (hmisa : c ≠ .misa) (hc : c ≠ .hstatus)
    (hc' : c ≠ .vstimecmp)
    (val : Reg) (hmie : c = .mie → cfg.anyCustomExtensions = true → val.getLsbD 12 = false) :
    Clear (h.write cfg val c) := by
  have clear := ok.clear
  cases c
  case misa => exact absurd rfl hmisa
  case hstatus => exact absurd rfl hc
  case vstimecmp => exact absurd rfl hc'
  case mstatus => exact clear.mstatusWrite ok.off val
  case vsstatus => exact clear.vsstatusWrite val
  case mip =>
    refine clear.writeMip ?_
    rw [mipWriteMask_off ok.off, BitVec.zero_and]
  case mie =>
    refine clear.writeMie ?_
    rw [mieWriteMask_off ok.off]
    cases hcop : cfg.anyCustomExtensions with
    | false => exact BitVec.zero_and
    | true => exact and_twoPow_of_clear (hmie rfl hcop)
  case medeleg =>
    refine clear.writeMedeleg ?_ val
    rw [ok.off]
    rfl
  case stimecmp =>
    refine Clear.set (clear.writeMip ?_) (by decide) val
    exact (congrArg (· &&& _) (show mipHsMask &&& mipStip = 0#64 from rfl)).trans BitVec.zero_and
  case fflags => exact (clear.dirty ok.off _).set (by decide) _
  case frm => exact (clear.dirty ok.off _).set (by decide) _
  case vxsat => exact (clear.dirty ok.off _).set (by decide) _
  case vstart => exact clear.vectorWrite ok.off _ _ (by decide)
  case vxrm => exact clear.vectorWrite ok.off _ _ (by decide)
  case vl => exact clear.vectorWrite ok.off _ _ (by decide)
  case vtype => exact clear.vectorWrite ok.off _ _ (by decide)
  case vlenb => exact clear.vectorWrite ok.off _ _ (by decide)
  case mevent i =>
    exact clear.write (by simp [hypervisorRegs, Csr.footprint, Csr.sideFootprint]) rfl val
  case mstateen i =>
    exact clear.write (by simp [hypervisorRegs, Csr.footprint, Csr.sideFootprint]) rfl val
  case hstateen i =>
    exact clear.write (by simp [hypervisorRegs, Csr.footprint, Csr.sideFootprint]) rfl val
  case sstateen i =>
    exact clear.write (by simp [hypervisorRegs, Csr.footprint, Csr.sideFootprint]) rfl val
  all_goals exact clear.write (by decide) rfl val

/-- A hypervisor address needs H. -/
theorem enabled_of_verifyBase (address : Nat) {write : Bool} (ha : address / 0x100 % 4 = 2)
    (hv : h.verifyBase address write = .ok ()) : h.extensionEnabled .h = true := by
  cases hh : h.extensionEnabled .h with
  | true => rfl
  | false =>
    rw [verifyBase] at hv
    simp only [ha, hh] at hv
    cases hv

theorem enabled_of_needsH {o : CsrObj} (ho : o.needsH = true)
    (hv : h.verifyObj cfg true o = .ok ()) :
    h.extensionEnabled .h = true := by
  induction o with
  | plain c =>
    rw [CsrObj.needsH, Bool.or_eq_true, beq_iff_eq, beq_iff_eq] at ho
    obtain rfl | rfl := ho
    · exact enabled_of_verifyBase 0x600 (by decide) hv
    · exact enabled_of_verifyBase 0x24d (by decide) hv
  | mipProxy address accr => exact enabled_of_verifyBase address (beq_iff_eq.1 ho) hv
  | mieProxy address accr => exact enabled_of_verifyBase address (beq_iff_eq.1 ho) hv
  | rv32Low orig ih => exact ih ho hv
  | rv32High orig ih => exact ih ho hv
  | _ => exact absurd ho Bool.noConfusion

/-- With H off, no bit of the hypervisor is delegated. -/
theorem Off.delegMask (ok : Off h) {accr : IntAccessor} (hm : (accr.maskMode != .none) = true)
    {mask : Reg}
    (hmask : mipHsMask &&& delegableMask &&& mask = 0#64) :
    mipHsMask &&& (h.delegMask accr &&& mask) = 0#64 := by
  have hmideleg : h.midelegRead = h.reg .mideleg := if_neg (by simp [ok.off])
  have hsub : h.delegMask accr &&& delegableMask = h.delegMask accr := by
    rw [Hart.delegMask]
    cases hmode : accr.maskMode with
    | none => rw [hmode] at hm; exact absurd hm (by decide)
    | mideleg => rw [hmideleg]; exact Bits.and_eq_self_of_and_not ok.mideleg
    | hideleg =>
      rw [hidelegRead, hmideleg, BitVec.and_assoc, Bits.and_eq_self_of_and_not ok.mideleg]
  calc mipHsMask &&& (h.delegMask accr &&& mask)
      = h.delegMask accr &&& (mipHsMask &&& delegableMask &&& mask) := by
        rw [← hsub]
        ac_rfl
    _ = 0#64 := by rw [hmask, BitVec.and_zero]

/-- A write to an entry. -/
theorem Off.writeObj (o : CsrObj) (ho : o.guarded = true) :
    ∀ h : Hart, Off h → ∀ val : Reg, Off (h.writeObj cfg val o) := by
  have same {h h' : Hart} (f : Frame (fun _ => false) h h') (ok : Off h) : Off h' := by
    refine ⟨(f.extensionEnabled rfl .h).trans ok.off, f.v.trans ok.v, ?_,
      ok.clear.of_regFrame (.of_frame f rfl) (by decide)⟩
    rw [f.reg .mideleg rfl]
    exact ok.mideleg
  have write {h : Hart} (c : Csr) (hc : (CsrObj.plain c).guarded = true) (val : Reg) (ok : Off h) :
      Off (h.write cfg val c) := by
    simp only [CsrObj.guarded, Bool.and_eq_true, bne_iff_ne] at hc
    obtain ⟨⟨⟨⟨⟨hhstatus, hvstimecmp⟩, hmie⟩, hmisa⟩, -⟩, hmideleg⟩ := hc
    have f : Frame c.footprint h (h.write cfg val c) := Frame.write val c
    refine ⟨(f.extensionEnabled (footprint_misa hmisa) .h).trans ok.off, f.v.trans ok.v, ?_,
      ok.clear_write hmisa hhstatus hvstimecmp val fun hm => absurd hm hmie⟩
    rw [f.reg .mideleg (by cases c <;> first | rfl | exact absurd rfl hmideleg)]
    exact ok.mideleg
  induction o with
  | plain c => exact fun h ok val => write c ho val ok
  | const _ _ => exact fun h ok val => ok
  | sstatusProxy => exact fun h ok val => write .mstatus rfl _ ok
  | mipProxy _ accr =>
    intro h ok val
    simp only [CsrObj.guarded, Bool.and_eq_true, beq_iff_eq] at ho
    refine { ok with clear := ok.clear.writeMip ?_ }
    rw [ok.delegMask ho.1 ho.2, BitVec.zero_and]
  | mieProxy _ accr =>
    intro h ok val
    simp only [CsrObj.guarded, Bool.and_eq_true, beq_iff_eq] at ho
    refine { ok with clear := ok.clear.writeMie ?_ }
    rw [ok.delegMask ho.1 ho.2, BitVec.zero_and]
  | dcsr => exact fun h ok val => same (Frame.dcsrWrite _ _ val) ok
  | tdata1 => exact fun h ok val => same (Frame.triggersWrite _ _ _) ok
  | tdata2 => exact fun h ok val => same (Frame.triggersWrite _ _ _) ok
  | tdata3 => exact fun h ok val => same (Frame.triggersWrite _ _ _) ok
  | tinfo => exact fun h ok val => ok
  | pmpaddr i => exact fun h ok val => same (Frame.pmpWrite _ _ _) ok
  | pmpcfg n => exact fun h ok val => same (Frame.pmpWrite _ _ _) ok
  | mseccfg => exact fun h ok val => same (Frame.pmpWrite _ _ _) ok
  | scountovf => exact fun h ok val => ok
  | virtualized orig virt ihOrig ihVirt =>
    intro h ok val
    rw [Hart.writeObj, if_neg (by simp [ok.v])]
    exact ihOrig ho h ok val
  | virtualizedSatp =>
    intro h ok val
    rw [Hart.writeObj, if_neg (by simp [ok.v])]
    exact write .satp rfl _ ok
  | virtualizedStimecmp =>
    intro h ok val
    rw [Hart.writeObj, if_neg (by simp [ok.v])]
    exact write .stimecmp rfl _ ok
  | rv32Low orig ih => exact fun h ok val => ih ho h ok _
  | rv32High orig ih => exact fun h ok val => ih ho h ok _
  | counterProxy _ delegate ih => exact fun h ok val => ih ho h ok val
  | proxy _ delegate ih => exact fun h ok val => ih ho h ok val
  | composite upper lower lsb ihUpper ihLower =>
    obtain ⟨hUpper, hLower⟩ := Bool.and_eq_true_iff.1 ho
    exact fun h ok val => ihLower hLower _ (ihUpper hUpper h ok _) _

/-! ### `misa` -/

/-- With H off, a write to `misa` does not reach the state. -/
theorem Clear.misaWrite_off (clear : Clear h) (hoff : h.extensionEnabled .h = false) (val : Reg) :
    Clear (h.misaWrite cfg val) := by
  obtain ⟨heq, -⟩ | ⟨heq, -⟩ | ⟨-, hon, -⟩ := misaWrite_cases cfg h val
  · rw [heq]
    exact clear
  · obtain ⟨ext, hext⟩ := Frame.updateExtensions_eq cfg h (h.newMisa cfg val)
    rw [heq, hext]
    exact ⟨clear.mip, clear.mie, clear.medeleg, clear.gva, clear.hstatus⟩
  · exact absurd (hoff.symm.trans hon) (by decide)

/-- `GVA` is cleared in both halves of `mstatus`. -/
theorem clear_gva (hh : h.extensionEnabled .h = true) {val : Reg} (hval : val.getLsbD 38 = false) :
    (((h.mstatusWrite cfg val).mstatushWrite cfg (val >>> 32)).reg .mstatus).getLsbD 38 =
      false := by
  have hgva : ((h.mstatusWrite cfg val).reg .mstatus).getLsbD 38 = false := by
    rw [gva_mstatusWrite, hh, if_pos rfl, hval]
  rw [mstatushWrite]
  cases cfg.isa.xlen with
  | rv64 => exact hgva
  | rv32 =>
    refine (gva_mstatusWrite _).trans ?_
    split
    · rw [BitVec.getLsbD_eq_getElem (by decide)] at hval
      simp [hval]
    · exact hgva

/-- **Switching H off** clears the state. -/
theorem clear_clearHypervisor (hh : h.extensionEnabled .h = true) :
    Clear (h.clearHypervisor cfg) := by
  unfold clearHypervisor
  extract_lets h₁ h₂ newMstatus h₃ h₄ h₅ h₆ h₇
  have hmedeleg : h₁.reg .medeleg &&& hypervisorExceptions = 0#64 := by
    show (h.maskedWrite _ .medeleg _).reg .medeleg &&& _ = _
    rw [maskedWrite, reg_set, if_pos rfl, Bits.and_replace_of_subset (by rw [hh]; rfl),
      BitVec.and_assoc,
      BitVec.and_comm (~~~hypervisorExceptions), BitVec.and_not_self]
    exact BitVec.and_zero
  have f₂ : Frame (fun c => c == .mnstatus) h₁ h₂ := Frame.ite (Frame.set rfl _) (Frame.refl _ _)
  have f₄ : Frame (fun c => c == .mstatus) h₂ h₄ :=
    (Frame.mstatusWrite rfl newMstatus).trans (Frame.mstatushWrite rfl _)
  have hgva : (h₄.reg .mstatus).getLsbD 38 = false := by
    refine clear_gva ((f₂.extensionEnabled rfl .h).trans hh) ?_
    simp [newMstatus, mstatusGva_eq]
  have hmie : h₅.reg .mie &&& mipHsMask = 0#64 := by
    show (h₄.writeWithMask .mie mipHsMask 0#64).reg .mie &&& mipHsMask = _
    rw [writeWithMask, reg_set, if_pos rfl, Bits.and_replace_of_subset rfl, BitVec.zero_and]
  have hmip : h₆.reg .mip &&& mipHsMask = 0#64 := by
    show (h₅.writeWithMask .mip mipHsMask 0#64).reg .mip &&& mipHsMask = _
    rw [writeWithMask, reg_set, if_pos rfl, Bits.and_replace_of_subset rfl, BitVec.zero_and]
  have hhstatus : h₇.reg .hstatus &&& h₇.hstatusMask = 0#64 := by
    show (h₆.maskedWrite h₆.hstatusMask .hstatus 0#64).reg .hstatus &&& h₆.hstatusMask = _
    rw [maskedWrite, reg_set, if_pos rfl, Bits.and_replace_of_subset (BitVec.and_self),
      BitVec.zero_and]
  have f₅ : Frame (fun c => c == .mie) h₄ h₅ := Frame.set rfl _
  have f₆ : Frame (fun c => c == .mip) h₅ h₆ := Frame.set rfl _
  have f₇ : Frame (fun c => c == .hstatus) h₆ h₇ := Frame.set rfl _
  have clear₇ : Clear h₇ := by
    refine ⟨?_, ?_, ?_, ?_, hhstatus⟩
    · rw [f₇.reg .mip rfl]
      exact hmip
    · rw [f₇.reg .mie rfl, f₆.reg .mie rfl]
      exact hmie
    · rw [f₇.reg .medeleg rfl, f₆.reg .medeleg rfl, f₅.reg .medeleg rfl, f₄.reg .medeleg rfl,
        f₂.reg .medeleg rfl]
      exact hmedeleg
    · rw [f₇.reg .mstatus rfl, f₆.reg .mstatus rfl, f₅.reg .mstatus rfl]
      exact hgva
  have f : Frame (fun c => !hypervisorRegs.contains c && c != .misa) h₇ ((List.finRange 29).foldl
      (fun h i => h.meventWrite cfg i (h.reg (.mevent i) &&& ~~~0x0C00000000000000#64)) h₇) :=
    Frame.foldl _ (fun h i => Frame.set rfl _) _ _
  exact clear₇.of_regFrame (.of_frame f rfl) (by decide)

/-- Whatever it was before, after a write to `misa` that leaves H off the state is clear. -/
theorem clear_misaWrite (hoff : h.extensionEnabled .h = false → Clear h) (val : Reg)
    (hnew : (h.misaWrite cfg val).extensionEnabled .h = false) : Clear (h.misaWrite cfg val) := by
  cases hh : h.extensionEnabled .h with
  | false => exact (hoff hh).misaWrite_off hh val
  | true =>
    obtain ⟨heq, -⟩ | ⟨heq, hkept⟩ | ⟨heq, -, -⟩ := misaWrite_cases cfg h val
    · rw [heq, hh] at hnew
      exact absurd hnew (by decide)
    · rw [heq, extensionEnabled_h, reg_set, if_pos rfl, hkept hh] at hnew
      exact absurd hnew (by decide)
    · rw [heq]
      have clear : Clear ((h.updateExtensions cfg (h.newMisa cfg val)).clearHypervisor cfg) :=
        clear_clearHypervisor ((Frame.extensionEnabled_updateExtensions _).trans hh)
      exact clear.set (by decide) _

/-! ### Events -/

/-- Traps, returns and debug entry do not reach the state while H is off. -/
theorem Clear.controlWrites (clear : Clear h) (hoff : h.extensionEnabled .h = false)
    (w : ControlWrites cfg h h') : Clear h' := by
  induction w with
  | refl => exact clear
  | @write h₁ c val hc hh w ih =>
    have hoff₁ : h₁.extensionEnabled .h = false := (w.regFrame.extensionEnabled rfl .h).trans hoff
    by_cases hm : c = .mstatus
    · subst hm
      exact ih.mstatusWrite hoff₁ val
    · have hne : c ≠ .hstatus := fun heq => absurd (hoff₁.symm.trans (hh heq)) (by decide)
      refine ih.write ?_ (ControlWrites.footprint_control hc rfl) val
      cases c <;> first | decide | exact absurd rfl hm | exact absurd rfl hne |
        exact Bool.noConfusion hc
  | quiet f _ ih => exact ih.of_regFrame (.of_sameRegs f (s := fun _ => false)) (by decide)

/-- A CSR instruction. -/
theorem clear_csrInsn (wf : WellFormed cfg h) (hv : VirtOk h) {which : Nat}
    {insn : CsrInsn} {bits : Reg}
    (hop : OffInOrder cfg h (.csr which insn bits))
    (hclear : h.extensionEnabled .h = false → Clear h)
    (hok : h.csrInsn cfg which insn = .ok h') (hnew : h'.extensionEnabled .h = false) :
    Clear h' := by
  obtain ⟨h₁, rfl, hwrite⟩ := csrInsn_cases hok
  have clear₁ : Clear h₁ := by
    have hnew₁ : h₁.extensionEnabled .h = false := hnew
    obtain rfl | ⟨o, val, w, rfl⟩ := hwrite
    · exact hclear hnew₁
    · by_cases hm : o = .plain .misa
      · subst hm
        exact clear_misaWrite hclear val hnew₁
      · have hmem := List.all_eq_true.1 (guarded_full cfg) _ (mem_of_csrFind cfg w.find)
        have hoff : h.extensionEnabled .h = false := by
          rw [← (w.frame hm).extensionEnabled rfl .h]
          exact hnew₁
        have ok : Off h := by
          refine ⟨hoff, ?_, wf.regs.mideleg, hclear hoff⟩
          exact Bool.eq_false_iff.2 fun hvt => absurd (hoff.symm.trans (hv hvt)) (by decide)
        have hneeds : o.needsH = false := Bool.eq_false_iff.2 fun hn =>
          absurd (hoff.symm.trans (enabled_of_needsH hn w.verified)) (by decide)
        rw [hneeds, Bool.false_or, Bool.or_eq_true] at hmem
        obtain hplain | hguarded := hmem
        · cases o with
          | plain c =>
            rw [CsrObj.needsH, Bool.or_eq_false_iff, beq_eq_false_iff_ne,
              beq_eq_false_iff_ne] at hneeds
            refine ok.clear_write (fun hc => hm (by rw [hc])) hneeds.1 hneeds.2 val ?_
            rintro rfl hcop
            exact hop.2 hoff hcop val w
          | _ => exact absurd hplain Bool.noConfusion
        · exact (Off.writeObj o hguarded h ok val).clear
  exact ⟨clear₁.mip, clear₁.mie, clear₁.medeleg, clear₁.gva, clear₁.hstatus⟩

/-- A reset. -/
theorem clear_reset (cfg : Config) (halt : Bool) : Clear (reset cfg h halt) := by
  unfold reset
  extract_lets h₁ dcsr h₂
  have clear₂ : Clear h₂ := by
    refine ⟨BitVec.zero_and, BitVec.zero_and, BitVec.zero_and, ?_, ?_⟩
    · show cfg.mstatusInit.getLsbD 38 = false
      rw [Config.mstatusInit]
      cases cfg.isa.xlen <;> cases cfg.isa.table .u <;> cases cfg.isa.table .s <;>
        cases cfg.bigEndian <;>
        decide
    · show setField 0#64 hstatusVsxl (xlenToUxl cfg.isa.xlen) &&& h₂.hstatusMask = 0#64
      rw [hstatusMask]
      cases cfg.isa.xlen <;> cases h₂.builtWithMmu <;> decide
  split
  · have f : Frame (fun _ => false) h₂
      ((h₂.writeObj cfg (cfg.isa.xlen.zext (~~~0#64)) (.pmpaddr 0)).writeObj
        cfg 0x1f#64 (.pmpcfg 0)) := (Frame.pmpWrite _ h₂ _).trans (Frame.pmpWrite _ _ _)
    exact clear₂.of_regFrame (.of_frame f rfl) (by decide)
  · exact clear₂

/-- A tick that does not find the comparator of the guest reached. -/
theorem Clear.timeSync (clear : Clear h) {mtime : Reg}
    (hop : h.extensionEnabled .sstc = true → ¬ h.reg .vstimecmp ≤ mtime + h.reg .htimedelta) :
    Clear (h.timeSync mtime) := by
  unfold Hart.timeSync
  extract_lets h₁ mipVal
  have clear₁ : Clear h₁ := clear.set (by decide) _
  split
  · rename_i hs
    refine clear₁.writeMip ?_
    have hvstip : ¬ h₁.reg .vstimecmp ≤ h₁.reg .time + h₁.reg .htimedelta := hop hs
    show mipHsMask &&& (mipStip ||| mipVstip) &&&
      ((if _ then _ else _) ||| (if _ then _ else _)) = 0#64
    rw [if_neg hvstip]
    split
    · rfl
    · rfl
  · exact clear₁

/-- One event. -/
theorem clear_event (wf : WellFormed cfg h) (hv : VirtOk h) {op : HartOp}
    (hop : OffInOrder cfg h op)
    (hclear : h.extensionEnabled .h = false → Clear h)
    (hnew : (h.event cfg op).extensionEnabled .h = false) :
    Clear (h.event cfg op) := by
  have before {s : Csr → Bool} (hm : s .misa = false) (f : RegFrame s h (h.event cfg op)) :
      h.extensionEnabled .h = false :=
    (f.extensionEnabled hm .h).symm.trans hnew
  have control (w : ControlWrites cfg h (h.event cfg op)) : Clear (h.event cfg op) :=
    have hoff := before rfl w.regFrame
    (hclear hoff).controlWrites hoff w
  have other {s : Csr → Bool} (hs : ∀ c ∈ hypervisorRegs, s c = false) (hm : s .misa = false)
      (f : RegFrame s h (h.event cfg op)) : Clear (h.event cfg op) :=
    (hclear (before hm f)).of_regFrame f hs
  cases op with
  | csr which insn bits =>
    rw [event] at hnew ⊢
    cases hres : h.csrInsn cfg which insn with
    | ok h' =>
      rw [hres] at hnew
      exact clear_csrInsn wf hv hop hclear hres hnew
    | error r =>
      have w : ControlWrites cfg h (h.orRefused cfg bits (.error r)) := .refused bits r
      rw [hres] at hnew
      have hoff := (w.regFrame.extensionEnabled rfl .h).symm.trans hnew
      exact (hclear hoff).controlWrites hoff w
  | dirty state =>
    have hoff := before rfl (RegFrame.event (.dirty state) rfl)
    show Clear (if _ then _ else _)
    split
    · exact (hclear hoff).dirty hoff _
    · exact hclear hoff
  | bump instret =>
    exact other (s := fun c => c = .minstret || c = .mcycle) (by decide) rfl
      (RegFrame.event (.bump instret) rfl)
  | timeSync mtime =>
    have hoff := before rfl (RegFrame.event (.timeSync mtime) rfl)
    exact (hclear hoff).timeSync (hop hoff)
  | pin p level =>
    have hoff := before rfl (RegFrame.event (.pin p level) rfl)
    exact (hclear hoff).writeMip (by cases p <;> cases level <;> rfl)
  | reset halt => exact clear_reset cfg halt
  | mret bits => exact control (controlWrites_event trivial)
  | sret bits => exact control (controlWrites_event trivial)
  | mnret bits => exact control (controlWrites_event trivial)
  | dret bits => exact control (controlWrites_event trivial)
  | retire npc => exact control (controlWrites_event trivial)
  | exception code gva tval tval2 tinst => exact control (controlWrites_event trivial)
  | interrupt => exact control (controlWrites_event trivial)
  | enterDebug cause => exact control (controlWrites_event trivial)
  | triggers ts => exact control (controlWrites_event trivial)
  | wfi => exact control (controlWrites_event trivial)

/-! ### Runs -/

/-- The invariant of the runs. -/
structure OffOk (cfg : Config) (h : Hart) : Prop where
  wellFormed : WellFormed cfg h
  virt : VirtOk h
  clear : h.extensionEnabled .h = false → Clear h

/-- The condition has what virtualization needs. -/
theorem OffInOrder.keepsH {op : HartOp} (hop : OffInOrder cfg h op) : KeepsH cfg h op := by
  cases op with
  | csr which insn bits => exact hop.1
  | _ => trivial

theorem OffOk.step (ok : OffOk cfg h) (op : HartOp) (hop : OffInOrder cfg h op) :
    OffOk cfg (h.step cfg op) := by
  rw [Hart.step]
  split
  · exact ok
  · exact ⟨ok.wellFormed.event op, ok.virt.event ok.wellFormed op hop.keepsH,
      clear_event ok.wellFormed ok.virt hop ok.clear⟩

theorem offOk_init (halt : Bool) : OffOk cfg (init cfg halt) where
  wellFormed := wellFormed_init halt
  virt hv := absurd (hv.symm.trans (reset_v halt)) (by decide)
  clear _ := clear_reset { cfg with impl := { cfg.impl with mmu := true } } halt

theorem OffOk.hypervisorOff (ok : OffOk cfg h) : HypervisorOff cfg h := by
  intro hoff
  have clear := ok.clear hoff
  refine ⟨clear.mip, clear.mie, clear.medeleg, ?_, ?_, fun hs => ?_, clear.hstatus, ?_⟩
  · rw [mstatusMpv_eq, hasBits_twoPow (by decide), ← BitVec.getLsbD_eq_getElem]
    exact ok.wellFormed.regs.mpv hoff
  · rw [mstatusGva_eq, hasBits_twoPow (by decide), ← BitVec.getLsbD_eq_getElem]
    exact clear.gva
  · rw [mnstatusMnpv_eq, hasBits_twoPow (by decide), ← BitVec.getLsbD_eq_getElem]
    exact ok.wellFormed.regs.mnpv hs hoff
  · exact Bool.eq_false_iff.2 fun hv => absurd (hoff.symm.trans (ok.virt hv)) (by decide)

/-- **No hypervisor, no hypervisor state.** Along every run in which no tick finds the comparator of
the guest reached while H is off, `mie` gets no coprocessor bit while H is off and H is not switched
off with `V = 1`, all hypervisor-only state reads as zero whenever H is off. -/
theorem hypervisorOff_always (cfg : Config) (halt : Bool) (ops : List HartOp)
    (hops : Run.Along (step cfg) (OffInOrder cfg) (init cfg halt) ops) :
    Run.Always (step cfg) (HypervisorOff cfg) (init cfg halt) ops :=
  Run.Always.of_step (fun _ op ok hop => OffOk.step ok op hop) (fun _ => OffOk.hypervisorOff)
    (offOk_init halt) hops

/-- The comparator of the guest is out of reach, then H goes. -/
theorem hypervisorOff_always_rv64h :
    Run.Always (step rv64h) (HypervisorOff rv64h) (init rv64h false)
      [.csr 0x24d (.write 0xffffffffffffffff#64) 0#64, .csr 0x301 (.clear 0x80#64) 0#64,
        .timeSync 7#64] := by
  refine hypervisorOff_always rv64h false _ ⟨⟨?_, ?_⟩, ⟨?_, ?_⟩, ?_, trivial⟩
  · exact fun hv => absurd hv (by decide)
  · exact fun hoff => absurd hoff (by decide)
  · exact fun hv => absurd hv (by decide)
  · exact fun hoff => absurd hoff (by decide)
  · exact fun _ _ => by decide

/-- Without H in the ISA string, the first tick sets `VSTIP`. -/
theorem hypervisorOff_fails :
    ∃ isa, Isa.parse (fun _ => none) "rv64imac_zicntr_sstc".toList "msu".toList = .ok isa ∧
      ∃ h, Reachable (.ofIsa isa) h ∧ ¬ HypervisorOff (.ofIsa isa) h := by
  refine ⟨_, Isa.parse_accepted
    (show (Isa.accepted "rv64imac_zicntr_sstc" "msu").isSome = true by decide), _,
    ⟨false, [.timeSync 0#64], rfl⟩, fun ok => ?_⟩
  exact absurd (ok (by decide)).mip (by decide)

end Hart

end Nnemu

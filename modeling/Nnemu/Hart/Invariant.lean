import Nnemu.Hart.Status
import Nnemu.Hart.Writes

/-!
# What holds of the registers of a hart

`RegsOk` collects what every reachable hart satisfies, whatever a program does: the fixed bits of
`misa`, a legal `MPP`, no virtualization field without H, a consistent `SD`, delegation only with S,
no enable bit of an interrupt that does not exist, and address-translation modes that can be
decoded. It speaks about the registers and the extension table alone, so that a change of mode keeps
it by definition. `ModeOk` is the same for the privilege level.

Nine registers are tracked (`Csr.tracked`), and a write to any other is covered by its frame. For
each tracked one there is a lemma that says which values may be written (`set_mstatus`, `set_mie`
and so on), and the writes of `Hart.Csr` are shown to write such values. The delicate one is `misa`:
while H is being switched off the fields of the hypervisor are cleared one after the other, and
`Cleared` is what holds in between.
-/

namespace Nnemu

/-! ### Fixed parts of the configuration -/

/-- The extensions that a write to `misa` can switch. -/
def Ext.dynamic : Ext → Bool
  | zca | zcf | zcd | zcb | zcmp | zcmt | zfh | zfhmin | zvfh | zvfhmin => true
  | _ => false

/-- A privilege level the configuration has. -/
def Config.Implemented (cfg : Config) (prv : Reg) : Prop :=
  prv = prvM ∨ (prv = prvS ∧ cfg.isa.table .s = true) ∨ (prv = prvU ∧ cfg.isa.table .u = true)

instance (cfg : Config) (prv : Reg) : Decidable (cfg.Implemented prv) :=
  inferInstanceAs (Decidable (_ ∨ _))

/-- The interrupts that can be delegated. -/
def delegableMask : Reg := 0x3222#64

/-- The interrupts that can be enabled. -/
def enableableMask : Reg := 0x3EEE#64

/-- The translation modes of RV64. -/
def AtpModeOk (cfg : Config) (atp : Reg) : Prop :=
  cfg.isa.xlen = .rv64 → getField atp 0xF000000000000000#64 ∈ [0#64, 8#64, 9#64, 10#64]

/-- What every reachable hart satisfies, as far as it is about registers and extensions. Each field
is an invariant of its own; they are kept together because the write to `misa` needs them
together. -/
structure RegsOk (cfg : Config) (reg : Csr → Reg) (ext : ExtTable) : Prop where
  misaFixed : ∀ b, cfg.misaWriteMask.getLsbD b = false →
    (reg .misa).getLsbD b = cfg.isa.maxIsa.getLsbD b
  misaMax : ∀ b, (reg .misa).getLsbD b = true → cfg.isa.maxIsa.getLsbD b = true
  extFixed : ∀ name : Ext, name.dynamic = false → ext name = cfg.isa.table name
  mpp : cfg.isa.table .u = true → cfg.Implemented (getField (reg .mstatus) mstatusMpp)
  mpv : (reg .misa).getLsbD 7 = false → (reg .mstatus).getLsbD 39 = false
  mnpv : cfg.isa.table .smrnmi = true → (reg .misa).getLsbD 7 = false →
    (reg .mnstatus).getLsbD 7 = false
  sd : cfg.adjustSd (reg .mstatus) = reg .mstatus
  mideleg : reg .mideleg &&& ~~~delegableMask = 0#64
  deleg : cfg.isa.table .s = false → reg .mideleg = 0#64 ∧ reg .medeleg = 0#64
  mie : reg .mie &&& ~~~enableableMask = 0#64
  satp : AtpModeOk cfg (reg .satp)
  vsatp : AtpModeOk cfg (reg .vsatp)
  hgatp : AtpModeOk cfg (reg .hgatp)

/-- The registers the invariant speaks about. -/
def Csr.tracked : Csr → Bool
  | misa | mstatus | mnstatus | mideleg | medeleg | mie | satp | vsatp | hgatp => true
  | _ => false

/-! ### Bits of `misa` -/

/-- A disjunction of the masks of letters, bit by bit. -/
theorem getLsbD_foldl_misaMask (table : ExtTable) (l : List Ext) (m : Reg) (b : Nat) :
    (l.foldl (fun m ext => if table ext then m ||| Isa.misaMask ext else m) m).getLsbD b =
      (m.getLsbD b || l.any fun ext => table ext && (Isa.misaMask ext).getLsbD b) := by
  induction l generalizing m with
  | nil => simp
  | cons ext l ih =>
    rw [List.foldl_cons, ih, List.any_cons]
    cases table ext <;> simp [Bool.or_assoc]

/-- The letters of `max_isa` are those of the extension table. -/
theorem maxIsa_getLsbD (isa : Isa) {ext : Ext} {b : Nat} (hb : ext.misaBit = some b) :
    isa.maxIsa.getLsbD b = isa.table ext := by
  rw [Isa.maxIsa, getLsbD_foldl_misaMask]
  cases ext <;> simp only [Ext.misaBit, Option.some.injEq, reduceCtorEq] at hb <;> subst hb <;>
    cases isa.xlen <;> simp [Isa.misaMxl, Ext.letters, Isa.misaMask, Ext.misaBit]

namespace RegsOk

variable {cfg : Config} {h h' : Hart} {reg reg' : Csr → Reg} {ext ext' : ExtTable}

/-- A letter outside the write mask is as configured. -/
theorem enabled_letter (ok : RegsOk cfg h.reg h.extTable) {name : Ext} {b : Nat}
    (hb : name.misaBit = some b) (hw : cfg.misaWriteMask.getLsbD b = false) :
    h.extensionEnabled name = cfg.isa.table name := by
  rw [Hart.extensionEnabled, hb, ← maxIsa_getLsbD cfg.isa hb]
  exact ok.misaFixed b hw

theorem enabled_u (ok : RegsOk cfg h.reg h.extTable) : h.extensionEnabled .u = cfg.isa.table .u :=
  ok.enabled_letter (b := 20) rfl (by simp [Config.misaWriteMask, Isa.misaMask, Ext.misaBit])

theorem enabled_s (ok : RegsOk cfg h.reg h.extTable) : h.extensionEnabled .s = cfg.isa.table .s :=
  ok.enabled_letter (b := 18) rfl (by simp [Config.misaWriteMask, Isa.misaMask, Ext.misaBit])

/-- H can be switched on only where it is configured. -/
theorem table_h (ok : RegsOk cfg h.reg h.extTable) (hh : h.extensionEnabled .h = true) :
    cfg.isa.table .h = true := by
  rw [← maxIsa_getLsbD cfg.isa (show Ext.misaBit .h = some 7 from rfl)]
  exact ok.misaMax 7 hh

/-- An extension that has no letter and does not follow `misa` is as configured. -/
theorem enabled_fixed (ok : RegsOk cfg h.reg h.extTable) (name : Ext) (hb : name.misaBit = none)
    (hd : name.dynamic = false) : h.extensionEnabled name = cfg.isa.table name := by
  rw [Hart.extensionEnabled, hb]
  exact ok.extFixed name hd

/-- Only the tracked registers matter. -/
theorem congr (ok : RegsOk cfg reg ext) (hr : ∀ c, c.tracked = true → reg' c = reg c)
    (he : ext' = ext) : RegsOk cfg reg' ext' := by
  subst he
  have hmisa := hr .misa rfl
  have hmstatus := hr .mstatus rfl
  exact
    { misaFixed := hmisa ▸ ok.misaFixed
      misaMax := hmisa ▸ ok.misaMax
      extFixed := ok.extFixed
      mpp := hmstatus ▸ ok.mpp
      mpv := by rw [hmisa, hmstatus]; exact ok.mpv
      mnpv := by rw [hmisa, hr .mnstatus rfl]; exact ok.mnpv
      sd := hmstatus ▸ ok.sd
      mideleg := by rw [hr .mideleg rfl]; exact ok.mideleg
      deleg := by rw [hr .mideleg rfl, hr .medeleg rfl]; exact ok.deleg
      mie := by rw [hr .mie rfl]; exact ok.mie
      satp := by rw [hr .satp rfl]; exact ok.satp
      vsatp := by rw [hr .vsatp rfl]; exact ok.vsatp
      hgatp := by rw [hr .hgatp rfl]; exact ok.hgatp }

/-- A step that changes no tracked register. -/
theorem of_frame {s : Csr → Bool} (ok : RegsOk cfg h.reg h.extTable) (f : Hart.Frame s h h')
    (hs : ∀ c, c.tracked = true → s c = false) : RegsOk cfg h'.reg h'.extTable :=
  ok.congr (fun c hc => f.reg c (hs c hc)) (f.extTable (hs .misa rfl))

end RegsOk

/-! ### Privilege levels -/

/-- The four values of a two-bit field. -/
theorem reg_cases {x : Reg} (hx : x.toNat ≤ 3) : x = 0#64 ∨ x = 1#64 ∨ x = 2#64 ∨ x = 3#64 := by
  bv_omega

/-- An implemented level fits in two bits. -/
theorem Config.Implemented.and_three {cfg : Config} {prv : Reg} (hp : cfg.Implemented prv) :
    prv &&& 3#64 = prv := by
  obtain rfl | ⟨rfl, -⟩ | ⟨rfl, -⟩ := hp
  · rfl
  · rfl
  · rfl

namespace Hart

variable {cfg : Config} {h : Hart}

/-- H is bit 7 of `misa`. -/
theorem extensionEnabled_h : h.extensionEnabled .h = (h.reg .misa).getLsbD 7 := rfl

/-- A legalized privilege level is implemented. -/
theorem implemented_legalizePrivilege (ok : RegsOk cfg h.reg h.extTable)
    {prv : Reg} (hp : prv.toNat ≤ 3) :
    cfg.Implemented (h.legalizePrivilege prv) := by
  rw [legalizePrivilege, ok.enabled_u, ok.enabled_s]
  cases hu : cfg.isa.table .u with
  | false => exact .inl rfl
  | true =>
    rw [if_neg (by simp)]
    obtain rfl | rfl | rfl | rfl := reg_cases hp
    · exact .inr (.inr ⟨rfl, hu⟩)
    · cases hs : cfg.isa.table .s with
      | false => exact .inr (.inr ⟨rfl, hu⟩)
      | true => exact .inr (.inl ⟨rfl, hs⟩)
    · exact .inr (.inr ⟨rfl, hu⟩)
    · exact .inl rfl

/-- M is always legal. -/
theorem legalizePrivilege_machine : h.legalizePrivilege prvM = prvM := by
  rw [legalizePrivilege]
  split
  · rfl
  · simp [prvM, prvHS, prvS]

end Hart

/-! ### Writing one tracked register -/

namespace RegsOk

variable {cfg : Config} {h h' : Hart} {reg : Csr → Reg} {ext : ExtTable} {val : Reg}

/-- `mstatus` may be given a value with a legal `MPP`, no `MPV` without H and the right `SD`. -/
theorem set_mstatus (ok : RegsOk cfg reg ext)
    (hmpp : cfg.isa.table .u = true → cfg.Implemented (getField val mstatusMpp))
    (hmpv : (reg .misa).getLsbD 7 = false → val.getLsbD 39 = false) (hsd : cfg.adjustSd val = val) :
    RegsOk cfg (Function.update reg .mstatus val) ext :=
  { ok with mpp := hmpp, mpv := hmpv, sd := hsd }

/-- `mnstatus` may be given a value without `MNPV` where there is no H. -/
theorem set_mnstatus (ok : RegsOk cfg reg ext)
    (hmnpv : cfg.isa.table .smrnmi = true → (reg .misa).getLsbD 7 = false → val.getLsbD 7 = false) :
    RegsOk cfg (Function.update reg .mnstatus val) ext :=
  { ok with mnpv := hmnpv }

/-- `medeleg` may be given any value where there is S, and 0 otherwise. -/
theorem set_medeleg (ok : RegsOk cfg reg ext) (hval : cfg.isa.table .s = false → val = 0#64) :
    RegsOk cfg (Function.update reg .medeleg val) ext :=
  { ok with deleg := fun hs => ⟨(ok.deleg hs).1, hval hs⟩ }

/-- `mideleg` may be given interrupts that can be delegated. -/
theorem set_mideleg (ok : RegsOk cfg reg ext) (hval : val &&& ~~~delegableMask = 0#64)
    (hs : cfg.isa.table .s = false → val = 0#64) :
    RegsOk cfg (Function.update reg .mideleg val) ext :=
  { ok with mideleg := hval, deleg := fun h => ⟨hs h, (ok.deleg h).2⟩ }

/-- `mie` may be given interrupts that exist. -/
theorem set_mie (ok : RegsOk cfg reg ext) (hval : val &&& ~~~enableableMask = 0#64) :
    RegsOk cfg (Function.update reg .mie val) ext :=
  { ok with mie := hval }

/-- `satp` may be given a mode that translation knows. -/
theorem set_satp (ok : RegsOk cfg reg ext) (hval : AtpModeOk cfg val) :
    RegsOk cfg (Function.update reg .satp val) ext :=
  { ok with satp := hval }

theorem set_vsatp (ok : RegsOk cfg reg ext) (hval : AtpModeOk cfg val) :
    RegsOk cfg (Function.update reg .vsatp val) ext :=
  { ok with vsatp := hval }

theorem set_hgatp (ok : RegsOk cfg reg ext) (hval : AtpModeOk cfg val) :
    RegsOk cfg (Function.update reg .hgatp val) ext :=
  { ok with hgatp := hval }

/-- A register the invariant does not speak about. -/
theorem set_untracked (ok : RegsOk cfg reg ext) {c : Csr} (hc : c.tracked = false) :
    RegsOk cfg (Function.update reg c val) ext := by
  refine ok.congr (fun c' hc' => ?_) rfl
  rw [Function.update_of_ne]
  rintro rfl
  exact absurd (hc.symm.trans hc') (by decide)

/-! ### The status registers -/

/-- The write legalizes `MPP`, masks `MPV` and computes `SD`, so that its value is one that may be
written. -/
theorem mstatusWrite (ok : RegsOk cfg h.reg h.extTable) (val : Reg) :
    RegsOk cfg (h.mstatusWrite cfg val).reg (h.mstatusWrite cfg val).extTable := by
  rw [Hart.reg_mstatusWrite, Hart.extTable_mstatusWrite]
  refine ok.set_mstatus ?_ ?_ (cfg.adjustSd_adjustSd _)
  · intro _
    have hp := Hart.implemented_legalizePrivilege ok (getField_mpp_le val)
    rw [Hart.getField_newMstatus_mpp, hp.and_three]
    exact hp
  · intro hh
    have hmpv := Hart.mpv_mstatusWrite cfg h val
    rw [Hart.extensionEnabled_h, hh, Hart.reg_mstatusWrite, Function.update_self] at hmpv
    exact hmpv.trans (ok.mpv hh)

/-- A write of `mnstatus` sets `MNPV` with H only. -/
theorem mnstatusWrite (ok : RegsOk cfg h.reg h.extTable) (val : Reg) :
    RegsOk cfg (h.mnstatusWrite val).reg (h.mnstatusWrite val).extTable := by
  refine ok.set_mnstatus (fun hs hh => ?_)
  rw [Bits.getLsbD_replace, if_neg]
  · exact ok.mnpv hs hh
  · rw [Hart.extensionEnabled_h, hh]
    simp [mnstatusNmie_eq, mnstatusMnpp]

theorem vsstatusWrite (ok : RegsOk cfg h.reg h.extTable) (val : Reg) :
    RegsOk cfg (h.vsstatusWrite cfg val).reg (h.vsstatusWrite cfg val).extTable := by
  refine ok.of_frame (s := fun c => c = .vsstatus) (Hart.Frame.vsstatusWrite (by simp) val) ?_
  intro c hc
  refine decide_eq_false ?_
  rintro rfl
  exact absurd hc (by decide)

theorem sstatusProxyWrite (ok : RegsOk cfg h.reg h.extTable) (val : Reg) :
    RegsOk cfg (h.sstatusProxyWrite cfg val).reg (h.sstatusProxyWrite cfg val).extTable :=
  ok.mstatusWrite _

theorem mstatushWrite (ok : RegsOk cfg h.reg h.extTable) (val : Reg) :
    RegsOk cfg (h.mstatushWrite cfg val).reg (h.mstatushWrite cfg val).extTable := by
  rw [Hart.mstatushWrite]
  split
  · exact ok.mstatusWrite _
  · exact ok

/-- `dirty()` writes the status registers. -/
theorem dirty (ok : RegsOk cfg h.reg h.extTable) (dirties : Reg) :
    RegsOk cfg (h.dirty cfg dirties).reg (h.dirty cfg dirties).extTable := by
  rw [Hart.dirty]
  split
  · exact ok
  · generalize h₀eq : (if h.sstatusEnabled cfg dirties then h else h.abort) = h₀
    have ok₀ : RegsOk cfg h₀.reg h₀.extTable := by
      subst h₀eq
      split
      · exact ok
      · exact ok
    have ok₁ := ok₀.sstatusProxyWrite (h₀.sstatusProxyRead cfg ||| dirties)
    dsimp only
    split
    · exact ok₁.vsstatusWrite _
    · exact ok₁

/-! ### Delegation and enabling -/

theorem medelegWrite (ok : RegsOk cfg h.reg h.extTable) (val : Reg)
    (hval : cfg.isa.table .s = false → val = 0#64) :
    RegsOk cfg (h.medelegWrite val).reg (h.medelegWrite val).extTable := by
  refine ok.set_medeleg (fun hs => ?_)
  rw [hval hs, (ok.deleg hs).2, Bits.replace_self]

theorem midelegWrite (ok : RegsOk cfg h.reg h.extTable) (val : Reg)
    (hs : h.extensionEnabled .s = true) :
    RegsOk cfg (h.midelegWrite cfg val).reg (h.midelegWrite cfg val).extTable := by
  refine ok.set_mideleg ?_ ?_
  · have hsub : h.delegableInts cfg &&& ~~~delegableMask = 0#64 := by
      rw [Hart.delegableInts]
      cases h.extensionEnabled .s <;> cases cfg.anyCustomExtensions <;>
        cases h.extensionEnabled .sscofpmf <;> rfl
    rw [BitVec.and_assoc, hsub, BitVec.and_zero]
  · intro hn
    rw [ok.enabled_s, hn] at hs
    exact absurd hs (by decide)

/-- A masked write of enable bits that exist. -/
theorem mieMask (ok : RegsOk cfg h.reg h.extTable) {mask : Reg}
    (hm : mask &&& ~~~enableableMask = 0#64)
    (val : Reg) :
    RegsOk cfg (h.writeWithMask .mie mask val).reg (h.writeWithMask .mie mask val).extTable := by
  refine ok.set_mie ?_
  rw [Bits.and_replace_of_disjoint]
  · exact ok.mie
  · rw [BitVec.and_comm]
    exact hm

/-- The interrupts of `mideleg` can be enabled. -/
theorem midelegRead_enableable (ok : RegsOk cfg h.reg h.extTable) :
    h.midelegRead &&& ~~~enableableMask = 0#64 := by
  have hstored : h.reg .mideleg &&& ~~~enableableMask = 0#64 :=
    Bits.and_eq_zero_of_subset rfl ok.mideleg
  rw [Hart.midelegRead]
  split
  · rw [BitVec.and_comm, BitVec.and_or_distrib_left, BitVec.and_comm, hstored]
    rfl
  · exact hstored

theorem mieWriteMask_enableable : h.mieWriteMask cfg &&& ~~~enableableMask = 0#64 := by
  rw [Hart.mieWriteMask, Hart.delegableInts]
  cases h.extensionEnabled .s <;> cases cfg.anyCustomExtensions <;>
    cases h.extensionEnabled .sscofpmf <;> cases h.extensionEnabled .h <;> rfl

/-! ### Switching H off -/

/-- What the clearing of hypervisor-only bits works towards. -/
structure Cleared (cfg : Config) (h : Hart) : Prop where
  ok : RegsOk cfg h.reg h.extTable
  mpv : (h.reg .mstatus).getLsbD 39 = false
  mnpv : cfg.isa.table .smrnmi = true → (h.reg .mnstatus).getLsbD 7 = false

/-- `MNPV` is cleared where `mnstatus` exists. -/
theorem clearMnpv (ok : RegsOk cfg h.reg h.extTable) (hh : h.extensionEnabled .h = true) :
    RegsOk cfg (h.clearMnpv cfg).reg (h.clearMnpv cfg).extTable ∧
      (h.clearMnpv cfg).extensionEnabled .h = true ∧
      (cfg.isa.table .smrnmi = true → ((h.clearMnpv cfg).reg .mnstatus).getLsbD 7 = false) := by
  rw [Hart.clearMnpv]
  cases hs : cfg.isa.table .smrnmi with
  | false => exact ⟨ok, hh, fun hn => absurd hn (by simp)⟩
  | true =>
    refine ⟨ok.mnstatusWrite _, hh, fun _ => ?_⟩
    rw [if_pos rfl, Hart.mnstatusWrite, Hart.reg_set, if_pos rfl, Bits.getLsbD_replace, if_pos]
    · rw [BitVec.getLsbD_eq_getElem (by decide), mnstatusMnpp_eq, getElem_setField_mpp]
      simp [mnstatusMnpv_eq]
    · simp [mnstatusMnpv_eq, hh]

/-- `MPV` is cleared in both halves of `mstatus`. -/
theorem clearMpv (hh : h.extensionEnabled .h = true) {val : Reg} (hval : val.getLsbD 39 = false) :
    (((h.mstatusWrite cfg val).mstatushWrite cfg (val >>> 32)).reg .mstatus).getLsbD 39 =
      false := by
  have hmpv : ((h.mstatusWrite cfg val).reg .mstatus).getLsbD 39 = false := by
    rw [Hart.mpv_mstatusWrite, hh, if_pos rfl, hval]
  rw [Hart.mstatushWrite]
  cases cfg.isa.xlen with
  | rv64 => exact hmpv
  | rv32 =>
    refine (Hart.mpv_mstatusWrite cfg _ _).trans ?_
    split
    · rw [BitVec.getLsbD_eq_getElem (by decide)] at hval
      simp [hval]
    · exact hmpv

/-- The step that clears the hypervisor-only bits. -/
theorem clearHypervisor (ok : RegsOk cfg h.reg h.extTable) (hh : h.extensionEnabled .h = true) :
    Cleared cfg (h.clearHypervisor cfg) := by
  unfold Hart.clearHypervisor
  extract_lets h₁ h₂ newMstatus h₃ h₄ h₅ h₆ h₇
  have ok₁ : RegsOk cfg h₁.reg h₁.extTable :=
    ok.medelegWrite _ fun hs => by rw [(ok.deleg hs).2, BitVec.zero_and]
  obtain ⟨ok₂, hh₂, hmnpv⟩ : RegsOk cfg h₂.reg h₂.extTable ∧ h₂.extensionEnabled .h = true ∧
      (cfg.isa.table .smrnmi = true → (h₂.reg .mnstatus).getLsbD 7 = false) := ok₁.clearMnpv hh
  have ok₄ : RegsOk cfg h₄.reg h₄.extTable := (ok₂.mstatusWrite newMstatus).mstatushWrite _
  have hmpv : (h₄.reg .mstatus)[39] = false := by
    refine clearMpv hh₂ ?_
    simp [newMstatus, mstatusMpv_eq]
  have hframe : Hart.Frame (fun c => c == .mstatus) h₂ h₄ :=
    (Hart.Frame.mstatusWrite rfl newMstatus).trans (Hart.Frame.mstatushWrite rfl _)
  have ok₅ : RegsOk cfg h₅.reg h₅.extTable := ok₄.mieMask rfl _
  have htail : Hart.Frame (fun c => !c.tracked) h₅ ((List.finRange 29).foldl
      (fun h i => h.meventWrite cfg i (h.reg (.mevent i) &&& ~~~0x0C00000000000000#64)) h₇) :=
    ((Hart.Frame.set rfl _).trans (Hart.Frame.set rfl _)).trans
      (Hart.Frame.foldl _ (fun h i => Hart.Frame.set rfl _) _ _)
  refine ⟨ok₅.of_frame htail (fun c hc => by rw [hc]; rfl), ?_, fun hs => ?_⟩
  · rw [htail.reg .mstatus rfl]
    exact hmpv
  · rw [htail.reg .mnstatus rfl]
    exact (congrArg (·.getLsbD 7) (hframe.reg .mnstatus rfl)).trans (hmnpv hs)

/-! ### `misa` -/

theorem setExtensionEnable (ok : RegsOk cfg h.reg h.extTable) {name : Ext}
    (hd : name.dynamic = true)
    (enable : Bool) :
    RegsOk cfg (h.setExtensionEnable cfg name enable).reg
    (h.setExtensionEnable cfg name enable).extTable := by
  refine { ok with extFixed := fun name' hd' => ?_ }
  have hne : name' ≠ name := by
    rintro rfl
    exact absurd (hd.symm.trans hd') (by decide)
  exact (Function.update_of_ne hne _ _).trans (ok.extFixed name' hd')

theorem updateExtensions (ok : RegsOk cfg h.reg h.extTable) (new_misa : Reg) :
    RegsOk cfg (h.updateExtensions cfg new_misa).reg (h.updateExtensions cfg new_misa).extTable :=
  (((((((((ok.setExtensionEnable rfl _).setExtensionEnable rfl _).setExtensionEnable rfl _
    ).setExtensionEnable rfl _).setExtensionEnable rfl _).setExtensionEnable rfl _
    ).setExtensionEnable rfl _).setExtensionEnable rfl _).setExtensionEnable rfl _
    ).setExtensionEnable rfl _

/-- A new value of `misa`, which has H or finds the virtualization fields cleared. -/
theorem set_misa (ok : RegsOk cfg reg ext) {old adjusted : Reg}
    (hfixed : ∀ b, cfg.misaWriteMask.getLsbD b = false → old.getLsbD b = cfg.isa.maxIsa.getLsbD b)
    (hmax : ∀ b, old.getLsbD b = true → cfg.isa.maxIsa.getLsbD b = true)
    (hmpv : (Bits.replace cfg.misaWriteMask old adjusted).getLsbD 7 = false →
      (reg .mstatus).getLsbD 39 = false ∧
      (cfg.isa.table .smrnmi = true → (reg .mnstatus).getLsbD 7 = false)) :
    RegsOk cfg (Function.update reg .misa (Bits.replace cfg.misaWriteMask old adjusted)) ext := by
  refine
    { ok with
      misaFixed := fun b hb => ?_
      misaMax := fun b hb => ?_
      mpv := fun hh => (hmpv hh).1
      mnpv := fun hs hh => (hmpv hh).2 hs }
  · rw [Function.update_self, Bits.getLsbD_replace, hb, if_neg (by decide)]
    exact hfixed b hb
  · rw [Function.update_self, Bits.getLsbD_replace] at hb
    cases hw : cfg.misaWriteMask.getLsbD b with
    | true =>
      rw [Config.misaWriteMask, BitVec.getLsbD_and, Bool.and_eq_true] at hw
      exact hw.1
    | false =>
      rw [hw, if_neg (by decide)] at hb
      exact hmax b hb

/-- A write to `misa`: the extensions follow the letters, and where H goes off the fields of the
hypervisor are clear before the register is set. -/
theorem misaWrite (ok : RegsOk cfg h.reg h.extTable) (val : Reg) :
    RegsOk cfg (h.misaWrite cfg val).reg (h.misaWrite cfg val).extTable := by
  have ok₁ := ok.updateExtensions (h.newMisa cfg val)
  obtain ⟨heq, -⟩ | ⟨heq, hkept⟩ | ⟨heq, hon, -⟩ := Hart.misaWrite_cases cfg h val
  · rw [heq]
    exact ok
  · rw [heq]
    refine ok₁.set_misa ok.misaFixed ok.misaMax fun hnew => ?_
    have hoff : (h.reg .misa).getLsbD 7 = false :=
      Bool.eq_false_iff.2 fun hon => absurd (hnew.symm.trans (hkept hon)) (by decide)
    exact ⟨ok.mpv hoff, fun hs => ok.mnpv hs hoff⟩
  · rw [heq]
    have hcleared :=
      ok₁.clearHypervisor ((Hart.Frame.extensionEnabled_updateExtensions _).trans hon)
    exact hcleared.ok.set_misa ok.misaFixed ok.misaMax fun _ => ⟨hcleared.mpv, hcleared.mnpv⟩

end RegsOk

/-! ### Translation modes -/

namespace AtpModeOk

variable {cfg : Config} {x y : Reg}

/-- The mode is read from the top four bits. -/
theorem congr (ok : AtpModeOk cfg x)
    (h : y &&& 0xF000000000000000#64 = x &&& 0xF000000000000000#64) : AtpModeOk cfg y := by
  intro hx
  rw [getField_congr h]
  exact ok hx

theorem zero : AtpModeOk cfg 0#64 := by
  intro _
  decide

/-- `satp_valid` knows the modes. -/
theorem of_satpValid (h : Hart.satpValid cfg x = true) : AtpModeOk cfg x := by
  intro hx
  simp only [Hart.satpValid, hx] at h
  simp only [List.mem_cons, List.not_mem_nil, or_false]
  split at h
  · exact .inr (.inl ‹_›)
  · split at h
    · exact .inr (.inr (.inl ‹_›))
    · split at h
      · exact .inr (.inr (.inr ‹_›))
      · exact .inl (beq_iff_eq.1 h)

/-- A mode that is not supported leaves the old value. -/
theorem computeNewSatp (old : AtpModeOk cfg y) (val : Reg) :
    AtpModeOk cfg (Hart.computeNewSatp cfg val y) := by
  intro hx
  rw [Hart.computeNewSatp]
  cases hv : Hart.satpValid cfg val with
  | true =>
    refine congr (of_satpValid hv) ?_ hx
    simp only [hx, if_true, BitVec.zero_and, BitVec.or_zero]
    rw [BitVec.and_comm, ← BitVec.and_assoc, BitVec.and_comm val]
    rfl
  | false =>
    refine congr old ?_ hx
    simp only [hx, if_false, Bool.false_eq_true]
    rw [BitVec.and_comm, BitVec.and_or_distrib_left, ← BitVec.and_assoc, ← BitVec.and_assoc,
      BitVec.and_self, BitVec.and_comm _ y]
    change (0#64 &&& val) ||| (y &&& 0xF000000000000000#64) = y &&& 0xF000000000000000#64
    rw [BitVec.zero_and, BitVec.zero_or]

/-- A write of `hgatp` takes over a mode that is known and no other. -/
theorem hgatp (old : AtpModeOk cfg y) (val : Reg) :
    AtpModeOk cfg (Bits.replace (Hart.hgatpMask cfg val) y val) := by
  intro hx
  by_cases hmode : getField val 0xF000000000000000#64 = 0#64 ∨
      (cfg.impl.sv39 ∧ getField val 0xF000000000000000#64 = 8#64) ∨
      (cfg.impl.sv48 ∧ getField val 0xF000000000000000#64 = 9#64) ∨
      (cfg.impl.sv57 ∧ getField val 0xF000000000000000#64 = 10#64)
  · have hval : AtpModeOk cfg val := by
      intro _
      simp only [List.mem_cons, List.not_mem_nil, or_false]
      tauto
    refine congr hval (Bits.and_replace_of_subset ?_) hx
    simp only [Hart.hgatpMask, hx, if_pos hmode]
    rfl
  · refine congr old (Bits.and_replace_of_disjoint ?_) hx
    simp only [Hart.hgatpMask, hx, if_neg hmode]
    rfl

end AtpModeOk

/-! ### Every write -/

namespace RegsOk

variable {cfg : Config} {h h' : Hart}

/-- A write whose footprint holds no tracked register. -/
theorem write_untracked (ok : RegsOk cfg h.reg h.extTable) {c : Csr} (hc : c.tracked = false)
    (hside : ∀ c', c'.tracked = true → c.sideFootprint c' = false) (val : Reg) :
    RegsOk cfg (h.write cfg val c).reg (h.write cfg val c).extTable := by
  refine ok.of_frame (Hart.Frame.write val c) (fun c' hc' => ?_)
  rw [Csr.footprint, hside c' hc', Bool.or_false]
  refine decide_eq_false ?_
  rintro rfl
  exact absurd (hc.symm.trans hc') (by decide)

/-- A write of floating-point or vector state, which makes a status field dirty first. -/
theorem dirty_set (ok : RegsOk cfg h.reg h.extTable) (dirties : Reg) {c : Csr}
    (hc : c.tracked = false)
    (val : Reg) :
    RegsOk cfg ((h.dirty cfg dirties).set c val).reg ((h.dirty cfg dirties).set c val).extTable :=
  (ok.dirty dirties).set_untracked hc

theorem vectorWrite (ok : RegsOk cfg h.reg h.extTable) (mask val : Reg)
    {c : Csr} (hc : c.tracked = false) :
    RegsOk cfg (h.vectorWrite cfg mask c val).reg (h.vectorWrite cfg mask c val).extTable := by
  rw [Hart.vectorWrite]
  split
  · exact ok
  · exact ok.dirty_set _ hc _

/-- A write of `satp` or `vsatp`. -/
theorem baseAtpWrite {c : Csr} (old : AtpModeOk cfg (h.reg c)) (val : Reg)
    (hset : ∀ newval, AtpModeOk cfg newval →
      RegsOk cfg (Function.update h.reg c newval) h.extTable) :
    RegsOk cfg (h.baseAtpWrite cfg c val).reg (h.baseAtpWrite cfg c val).extTable := by
  unfold Hart.baseAtpWrite
  extract_lets newval
  have hmode : AtpModeOk cfg newval := by
    by_cases hm : cfg.impl.mmu = true
    · rw [show newval = Hart.computeNewSatp cfg val (h.reg c) from if_pos hm]
      exact old.computeNewSatp val
    · rw [show newval = 0#64 from if_neg hm]
      exact AtpModeOk.zero
  split
  · exact hset newval hmode
  · exact hset newval hmode

/-- **Writes keep the register invariant.** -/
theorem write (ok : RegsOk cfg h.reg h.extTable) {c : Csr} (hc : h.CanWrite c) (val : Reg) :
    RegsOk cfg (h.write cfg val c).reg (h.write cfg val c).extTable := by
  have hmip : ∀ c', Csr.tracked c' = true → decide (c' = .mip) = false := by
    rintro c' hc'
    refine decide_eq_false ?_
    rintro rfl
    exact absurd hc' (by decide)
  cases c
  case misa => exact ok.misaWrite val
  case mstatus => exact ok.mstatusWrite val
  case vsstatus => exact ok.vsstatusWrite val
  case mnstatus => exact ok.mnstatusWrite val
  case mie => exact ok.mieMask mieWriteMask_enableable val
  case medeleg =>
    refine ok.medelegWrite val fun hs => ?_
    rw [← ok.enabled_s, hc.supervisor (.inr rfl)] at hs
    exact absurd hs (by decide)
  case mideleg => exact ok.midelegWrite val (hc.supervisor (.inl rfl))
  case satp => exact baseAtpWrite ok.satp val fun _ => ok.set_satp
  case vsatp => exact baseAtpWrite ok.vsatp val fun _ => ok.set_vsatp
  case hgatp => exact ok.set_hgatp (ok.hgatp.hgatp val)
  case stimecmp => exact ok.write_untracked (c := .stimecmp) rfl hmip val
  case vstimecmp => exact ok.write_untracked (c := .vstimecmp) rfl hmip val
  case fflags => exact ok.dirty_set _ rfl _
  case frm => exact ok.dirty_set _ rfl _
  case vxsat => exact ok.dirty_set _ rfl _
  case vstart => exact ok.vectorWrite _ _ rfl
  case vxrm => exact ok.vectorWrite _ _ rfl
  case vl => exact ok.vectorWrite _ _ rfl
  case vtype => exact ok.vectorWrite _ _ rfl
  case vlenb => exact ok.vectorWrite _ _ rfl
  all_goals exact ok.write_untracked rfl (fun _ _ => rfl) val

/-- CSR instructions keep the register invariant. -/
theorem objWrites (ok : RegsOk cfg h.reg h.extTable) (w : Hart.ObjWrites cfg h h') :
    RegsOk cfg h'.reg h'.extTable := by
  refine w.induct (P := fun h => RegsOk cfg h.reg h.extTable) ?_ ?_ ?_ ?_ ok
  · exact fun h c val hc ok => ok.write hc val
  · exact fun h mask val ok => ok.set_untracked rfl
  · intro h mask val hm ok
    refine ok.mieMask ?_ val
    rw [← Bits.and_eq_self_of_and_not hm, BitVec.and_assoc, ok.midelegRead_enableable,
      BitVec.and_zero]
  · exact fun h h' f ok => ok.of_frame f (fun _ _ => rfl)

end RegsOk

end Nnemu

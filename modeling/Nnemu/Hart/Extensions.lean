import Nnemu.Hart.Footprint
import Nnemu.Isa.Closure

/-!
# Extensions at run time

A write to `misa` updates the letters and, in a fixed order, the names that depend on them.
`switched` is the table it leaves, name by name; it is closed under the dependencies of `Isa.Closed`
whatever the table was before, as long as the configured extensions are. The same holds after a
reset and of every other event, which change no extension, so that the extensions of a reachable
hart are closed.

The order matters: some names are set from others that the same write has set just before.
`switched` is a computation on tables only, so the dependencies are checked for all letters and all
configured tables by cases on the few names involved, and the run lemma is left with one event that
changes extensions.
-/

namespace Nnemu

namespace Hart

variable {cfg : Config} {h h' : Hart}

/-! ### The names behind a write to `misa` -/

@[simp] theorem extTable_setExtensionEnable (cfg : Config) (h : Hart) (ext ext' : Ext)
    (enable : Bool) :
    (h.setExtensionEnable cfg ext enable).extTable ext' =
      if ext' = ext then enable && cfg.isa.table ext else h.extTable ext' := by
  exact Function.update_apply h.extTable ext _ ext'

/-- Zca after a write of `new_misa`. -/
def switchedZca (cfg : Config) (new_misa : Reg) : Bool :=
  (hasBits new_misa (Isa.misaMask .c) || !cfg.isa.table .c) && cfg.isa.table .zca

/-- Zfhmin after a write of `new_misa`. -/
def switchedZfhmin (cfg : Config) (new_misa : Reg) : Bool :=
  hasBits new_misa (Isa.misaMask .f) && cfg.isa.table .zfhmin

/-- The table of the names after a write of `new_misa`. -/
def switched (cfg : Config) (h : Hart) (new_misa : Reg) : ExtTable
  | .zca => switchedZca cfg new_misa
  | .zcf => (hasBits new_misa (Isa.misaMask .f) && switchedZca cfg new_misa) && cfg.isa.table .zcf
  | .zcd => (hasBits new_misa (Isa.misaMask .d) && switchedZca cfg new_misa) && cfg.isa.table .zcd
  | .zcb => switchedZca cfg new_misa && cfg.isa.table .zcb
  | .zcmp => switchedZca cfg new_misa && cfg.isa.table .zcmp
  | .zcmt => switchedZca cfg new_misa && cfg.isa.table .zcmt
  | .zfh => hasBits new_misa (Isa.misaMask .f) && cfg.isa.table .zfh
  | .zfhmin => switchedZfhmin cfg new_misa
  | .zvfh => (hasBits new_misa (Isa.misaMask .v) && switchedZfhmin cfg new_misa) &&
    cfg.isa.table .zvfh
  | .zvfhmin => hasBits new_misa (Isa.misaMask .v) && cfg.isa.table .zvfhmin
  | ext => h.extTable ext

/-- **The names follow the letters.** -/
theorem extTable_updateExtensions (new_misa : Reg) :
    (h.updateExtensions cfg new_misa).extTable = switched cfg h new_misa := by
  unfold updateExtensions
  extract_lets c f d v h₁ h₂ h₃ h₄ h₅ h₆ h₇ h₈ h₉
  have zca (h : Hart) : h.extensionEnabled .zca = h.extTable .zca := rfl
  have zfhmin (h : Hart) : h.extensionEnabled .zfhmin = h.extTable .zfhmin := rfl
  have e₁ (ext : Ext) := extTable_setExtensionEnable cfg h .zca ext (c || !cfg.isa.table .c)
  have e₂ (ext : Ext) := extTable_setExtensionEnable cfg h₁ .zcf ext (f && h₁.extensionEnabled .zca)
  have e₃ (ext : Ext) := extTable_setExtensionEnable cfg h₂ .zcd ext (d && h₂.extensionEnabled .zca)
  have e₄ (ext : Ext) := extTable_setExtensionEnable cfg h₃ .zcb ext (h₃.extensionEnabled .zca)
  have e₅ (ext : Ext) := extTable_setExtensionEnable cfg h₄ .zcmp ext (h₄.extensionEnabled .zca)
  have e₆ (ext : Ext) := extTable_setExtensionEnable cfg h₅ .zcmt ext (h₅.extensionEnabled .zca)
  have e₇ (ext : Ext) := extTable_setExtensionEnable cfg h₆ .zfh ext f
  have e₈ (ext : Ext) := extTable_setExtensionEnable cfg h₇ .zfhmin ext f
  have e₉ (ext : Ext) :=
    extTable_setExtensionEnable cfg h₈ .zvfh ext (v && h₈.extensionEnabled .zfhmin)
  -- Zca and Zfhmin keep their new value until the last assignment
  have zca₁ : h₁.extTable .zca = switchedZca cfg new_misa := e₁ .zca
  have zca₂ : h₂.extTable .zca = switchedZca cfg new_misa := (e₂ .zca).trans zca₁
  have zca₃ : h₃.extTable .zca = switchedZca cfg new_misa := (e₃ .zca).trans zca₂
  have zca₄ : h₄.extTable .zca = switchedZca cfg new_misa := (e₄ .zca).trans zca₃
  have zca₅ : h₅.extTable .zca = switchedZca cfg new_misa := (e₅ .zca).trans zca₄
  have zfhmin₈ : h₈.extTable .zfhmin = switchedZfhmin cfg new_misa := e₈ .zfhmin
  funext ext
  rw [extTable_setExtensionEnable, e₉, e₈, e₇, e₆, e₅, e₄, e₃, e₂, e₁,
    zca, zca, zca, zca, zca, zfhmin, zca₁, zca₂,
    zca₃, zca₄, zca₅, zfhmin₈]
  clear e₁ e₂ e₃ e₄ e₅ e₆ e₇ e₈ e₉ zca₁ zca₂ zca₃ zca₄ zca₅ zfhmin₈
  clear_value h₁ h₂ h₃ h₄ h₅ h₆ h₇ h₈ h₉
  cases ext <;> rfl

/-! ### The letters behind a write to `misa` -/

/-- `(misa & (1 << (letter - 'A'))) != 0` -/
theorem hasBits_misaMask {ext : Ext} {b : Nat} (hb : ext.misaBit = some b)
    (hlt : b < 64) (x : Reg) :
    hasBits x (Isa.misaMask ext) = x.getLsbD b := by
  rw [Isa.misaMask, hb, BitVec.getLsbD_eq_getElem hlt]
  exact hasBits_twoPow hlt x

/-- A letter stays where what it depends on is there as well. -/
theorem getLsbD_misaDependency (feature depends_on : Ext) {b d : Nat}
    (hb : feature.misaBit = some b)
    (hd : depends_on.misaBit = some d) (hltb : b < 64) (hlt : d < 64) (val : Reg) (i : Nat) :
    (misaDependency val feature depends_on).getLsbD i =
      (val.getLsbD i && (decide (i ≠ b) || val.getLsbD d)) := by
  rw [misaDependency, hasBits_misaMask hd hlt]
  cases val.getLsbD d with
  | true => rw [if_pos rfl, Bool.or_true, Bool.and_true]
  | false =>
    rw [if_neg (by decide), Bool.or_false, Isa.misaMask, hb, BitVec.getLsbD_and, BitVec.getLsbD_not,
      BitVec.getLsbD_twoPow, decide_eq_true hltb, Bool.true_and]
    by_cases hi : i < 64
    · rw [decide_eq_true hi, Bool.true_and, decide_not, decide_eq_decide.2 eq_comm]
    · rw [BitVec.getLsbD_of_ge val i (Nat.le_of_not_lt hi), Bool.false_and, Bool.false_and]

/-- `adjusted_val`: D needs F, and Q and V need D. -/
theorem getLsbD_adjusted (val : Reg) (i : Nat) :
    (misaDependency (misaDependency (misaDependency val .d .f) .q .d) .v .d).getLsbD i =
      (val.getLsbD i && (decide (i ≠ 3) || val.getLsbD 5) &&
        (decide (i ≠ 16 ∧ i ≠ 21) || (val.getLsbD 3 && val.getLsbD 5))) := by
  rw [getLsbD_misaDependency .v .d rfl rfl (by decide) (by decide),
    getLsbD_misaDependency .q .d rfl rfl (by decide) (by decide),
    getLsbD_misaDependency .q .d rfl rfl (by decide) (by decide),
    getLsbD_misaDependency .d .f rfl rfl (by decide) (by decide),
    getLsbD_misaDependency .d .f rfl rfl (by decide) (by decide)]
  simp only [ne_eq, not_true_eq_false, decide_false, Bool.false_or, show (3 : Nat) ≠ 16 by decide,
    not_false_eq_true, decide_true, Bool.true_or, Bool.and_true, Bool.decide_and, decide_not]
  cases decide (i = 16) <;> cases decide (i = 21) <;> simp

/-- A letter that can be written takes the adjusted value where it is configured. -/
theorem newMisa_letter (ok : RegsOk cfg h.reg h.extTable) (ext : Ext) {b : Nat}
    (hb : ext.misaBit = some b)
    (hw : cfg.misaWriteMask.getLsbD b = cfg.isa.maxIsa.getLsbD b) (val : Reg) :
    (h.newMisa cfg val).getLsbD b =
      (cfg.isa.table ext && (val.getLsbD b && (decide (b ≠ 3) || val.getLsbD 5) &&
        (decide (b ≠ 16 ∧ b ≠ 21) || (val.getLsbD 3 && val.getLsbD 5)))) := by
  rw [newMisa, Bits.getLsbD_replace, hw, maxIsa_getLsbD cfg.isa hb, getLsbD_adjusted]
  cases ht : cfg.isa.table ext with
  | true => rw [if_pos rfl, Bool.true_and]
  | false =>
    rw [if_neg (by decide), Bool.false_and, ← ht, ← maxIsa_getLsbD cfg.isa hb]
    refine ok.misaFixed b (hw.trans ?_)
    rw [maxIsa_getLsbD cfg.isa hb, ht]

section NewMisa

variable (ok : RegsOk cfg h.reg h.extTable) (val : Reg)
include ok

theorem newMisa_f : (h.newMisa cfg val).getLsbD 5 = (cfg.isa.table .f && val.getLsbD 5) := by
  rw [newMisa_letter ok .f rfl (by simp [Config.misaWriteMask, Isa.misaMask, Ext.misaBit])]
  simp

theorem newMisa_d :
    (h.newMisa cfg val).getLsbD 3 = (cfg.isa.table .d && (val.getLsbD 3 && val.getLsbD 5)) := by
  rw [newMisa_letter ok .d rfl (by simp [Config.misaWriteMask, Isa.misaMask, Ext.misaBit])]
  simp

theorem newMisa_q : (h.newMisa cfg val).getLsbD 16 =
    (cfg.isa.table .q && (val.getLsbD 16 && (val.getLsbD 3 && val.getLsbD 5))) := by
  rw [newMisa_letter ok .q rfl (by simp [Config.misaWriteMask, Isa.misaMask, Ext.misaBit])]
  simp

theorem newMisa_v : (h.newMisa cfg val).getLsbD 21 =
    (cfg.isa.table .v && (val.getLsbD 21 && (val.getLsbD 3 && val.getLsbD 5))) := by
  rw [newMisa_letter ok .v rfl (by simp [Config.misaWriteMask, Isa.misaMask, Ext.misaBit])]
  simp

end NewMisa

/-! ### The extensions of a reachable hart -/

/-- The enabled extensions are closed and among the configured ones. -/
structure ExtensionsOk (cfg : Config) (h : Hart) : Prop where
  closed : Isa.Closed h.extensionEnabled
  subset : ∀ ext, h.extensionEnabled ext = true → cfg.isa.table ext = true

namespace ExtensionsOk

/-- Nothing is switched. -/
theorem congr (ok : ExtensionsOk cfg h) (he : h'.extensionEnabled = h.extensionEnabled) :
    ExtensionsOk cfg h' :=
  ⟨he ▸ ok.closed, he ▸ ok.subset⟩

theorem of_regFrame {s : Csr → Bool} (ok : ExtensionsOk cfg h) (f : RegFrame s h h')
    (hm : s .misa = false) :
    ExtensionsOk cfg h' :=
  ok.congr (funext fun ext => f.extensionEnabled hm ext)

end ExtensionsOk

/-- A write to `misa` is ignored, or leaves the adjusted value and the table that goes with it. -/
theorem misaWrite_switched (cfg : Config) (h : Hart) (val : Reg) :
    h.misaWrite cfg val = h ∨
      ((h.misaWrite cfg val).reg .misa = h.newMisa cfg val ∧
        (h.misaWrite cfg val).extTable = switched cfg h (h.newMisa cfg val)) := by
  obtain ⟨heq, -⟩ | ⟨heq, -⟩ | ⟨heq, -⟩ := misaWrite_cases cfg h val
  · exact .inl heq
  · refine .inr ⟨?_, ?_⟩
    · rw [heq, reg_set, if_pos rfl]
    · rw [heq, extTable_set, extTable_updateExtensions]
  · refine .inr ⟨?_, ?_⟩
    · rw [heq, reg_set, if_pos rfl]
    · rw [heq, extTable_set, Frame.clearHypervisor.extTable rfl, extTable_updateExtensions]

/-- A name that follows `misa` is switched on only where it is configured. -/
theorem table_of_switched {new_misa : Reg} {ext : Ext} (hd : ext.dynamic = true)
    (he : switched cfg h new_misa ext = true) : cfg.isa.table ext = true := by
  cases ext <;> first | exact absurd hd Bool.noConfusion | exact (Bool.and_eq_true_iff.1 he).2

/-- What the letters and the names are after such a write, in terms of the letters. -/
structure Switched (cfg : Config) (val : Reg) (enabled : Ext → Bool) : Prop where
  f : enabled .f = (cfg.isa.table .f && val.getLsbD 5)
  d : enabled .d = (cfg.isa.table .d && (val.getLsbD 3 && val.getLsbD 5))
  q : enabled .q = (cfg.isa.table .q && (val.getLsbD 16 && (val.getLsbD 3 && val.getLsbD 5)))
  v : enabled .v = (cfg.isa.table .v && (val.getLsbD 21 && (val.getLsbD 3 && val.getLsbD 5)))
  zcf : enabled .zcf = (enabled .f && enabled .zca && cfg.isa.table .zcf)
  zcd : enabled .zcd = (enabled .d && enabled .zca && cfg.isa.table .zcd)
  zcb : enabled .zcb = (enabled .zca && cfg.isa.table .zcb)
  zcmp : enabled .zcmp = (enabled .zca && cfg.isa.table .zcmp)
  zcmt : enabled .zcmt = (enabled .zca && cfg.isa.table .zcmt)
  zfh : enabled .zfh = (enabled .f && cfg.isa.table .zfh)
  zfhmin : enabled .zfhmin = (enabled .f && cfg.isa.table .zfhmin)
  zvfh : enabled .zvfh = (enabled .v && enabled .zfhmin && cfg.isa.table .zvfh)
  zvfhmin : enabled .zvfhmin = (enabled .v && cfg.isa.table .zvfhmin)

theorem switched_misaWrite (wf : RegsOk cfg h.reg h.extTable) {val : Reg}
    (hmisa : h'.reg .misa = h.newMisa cfg val)
    (htable : h'.extTable = switched cfg h (h.newMisa cfg val)) :
    Switched cfg val h'.extensionEnabled := by
  have letter (ext : Ext) {b : Nat} (hb : ext.misaBit = some b) (hlt : b < 64) :
      hasBits (h.newMisa cfg val) (Isa.misaMask ext) = h'.extensionEnabled ext := by
    rw [hasBits_misaMask hb hlt, extensionEnabled, hb, hmisa]
  have bit (ext : Ext) {b : Nat} (hb : ext.misaBit = some b) :
      h'.extensionEnabled ext = (h.newMisa cfg val).getLsbD b := by
    rw [extensionEnabled, hb, hmisa]
  have name (ext : Ext) (hb : ext.misaBit = none) :
      h'.extensionEnabled ext = switched cfg h (h.newMisa cfg val) ext := by
    rw [extensionEnabled, hb, htable]
  have hf := letter .f rfl (by decide)
  have hd := letter .d rfl (by decide)
  have hv := letter .v rfl (by decide)
  have hzca : switchedZca cfg (h.newMisa cfg val) = h'.extensionEnabled .zca := (name .zca rfl).symm
  have hzfhmin : switchedZfhmin cfg (h.newMisa cfg val) = h'.extensionEnabled .zfhmin :=
    (name .zfhmin rfl).symm
  exact {
    f := (bit .f rfl).trans (newMisa_f wf val)
    d := (bit .d rfl).trans (newMisa_d wf val)
    q := (bit .q rfl).trans (newMisa_q wf val)
    v := (bit .v rfl).trans (newMisa_v wf val)
    zcf := by rw [name .zcf rfl, switched, hf, hzca]
    zcd := by rw [name .zcd rfl, switched, hd, hzca]
    zcb := by rw [name .zcb rfl, switched, hzca]
    zcmp := by rw [name .zcmp rfl, switched, hzca]
    zcmt := by rw [name .zcmt rfl, switched, hzca]
    zfh := by rw [name .zfh rfl, switched, hf]
    zfhmin := by rw [name .zfhmin rfl, switched, switchedZfhmin, hf]
    zvfh := by rw [name .zvfh rfl, switched, hv, hzfhmin]
    zvfhmin := by rw [name .zvfhmin rfl, switched, hv] }

/-- Such a set is closed when the configured one is. -/
theorem Switched.closed {val : Reg} {enabled : Ext → Bool} (sw : Switched cfg val enabled)
    (hc : Isa.Closed cfg.isa.table) (hs : enabled .h = true → enabled .s = true)
    (hu : enabled .s = true → enabled .u = true) : Isa.Closed enabled := by
  have and {a b : Bool} (h : (a && b) = true) : a = true ∧ b = true := Bool.and_eq_true_iff.1 h
  have intro {a b : Bool} (ha : a = true) (hb : b = true) : (a && b) = true :=
    Bool.and_eq_true_iff.2 ⟨ha, hb⟩
  have zcmp (h : enabled .zcmp = true) := and (sw.zcmp.symm.trans h)
  have zcmt (h : enabled .zcmt = true) := and (sw.zcmt.symm.trans h)
  have zcd (h : cfg.isa.table .zcd = false) : enabled .zcd = false :=
    by rw [sw.zcd, h, Bool.and_false]
  refine {
    d_of_q := fun h => ?_
    f_of_d := fun h => ?_
    d_of_v := fun h => ?_
    s_of_h := hs
    u_of_s := hu
    zfhmin_of_zfh := fun h => ?_
    f_of_zfhmin := fun h => (and (sw.zfhmin.symm.trans h)).1
    zvfhmin_of_zvfh := fun h => ?_
    v_of_zvfhmin := fun h => (and (sw.zvfhmin.symm.trans h)).1
    zfhmin_of_zvfh := fun h => (and (and (sw.zvfh.symm.trans h)).1).2
    zca_of_zcf := fun h => (and (and (sw.zcf.symm.trans h)).1).2
    f_of_zcf := fun h => (and (and (sw.zcf.symm.trans h)).1).1
    zca_of_zcd := fun h => (and (and (sw.zcd.symm.trans h)).1).2
    d_of_zcd := fun h => (and (and (sw.zcd.symm.trans h)).1).1
    zca_of_zcb := fun h => (and (sw.zcb.symm.trans h)).1
    zca_of_zcmp := fun h => (zcmp h).1
    zca_of_zcmt := fun h => (zcmt h).1
    not_zcd_of_zcmp := fun h => zcd (hc.not_zcd_of_zcmp (zcmp h).2)
    not_zcd_of_zcmt := fun h => zcd (hc.not_zcd_of_zcmt (zcmt h).2) }
  · obtain ⟨ht, hb⟩ := and (sw.q.symm.trans h)
    exact sw.d.trans (intro (hc.d_of_q ht) (and hb).2)
  · obtain ⟨ht, hb⟩ := and (sw.d.symm.trans h)
    exact sw.f.trans (intro (hc.f_of_d ht) (and hb).2)
  · obtain ⟨ht, hb⟩ := and (sw.v.symm.trans h)
    exact sw.d.trans (intro (hc.d_of_v ht) (and hb).2)
  · obtain ⟨hf, ht⟩ := and (sw.zfh.symm.trans h)
    exact sw.zfhmin.trans (intro hf (hc.zfhmin_of_zfh ht))
  · obtain ⟨hb, ht⟩ := and (sw.zvfh.symm.trans h)
    exact sw.zvfhmin.trans (intro (and hb).1 (hc.zvfhmin_of_zvfh ht))

theorem s_of_h (wf : RegsOk cfg h.reg h.extTable) (hh : h.extensionEnabled .h = true) :
    h.extensionEnabled .s = true := by
  rw [wf.enabled_s]
  exact cfg.isa.s_of_h (wf.table_h hh)

theorem u_of_s (wf : RegsOk cfg h.reg h.extTable) (hs : h.extensionEnabled .s = true) :
    h.extensionEnabled .u = true := by
  rw [wf.enabled_u]
  exact cfg.isa.u_of_s (wf.enabled_s.symm.trans hs)

/-- An enabled extension is configured. -/
theorem table_of_misaWrite (wf' : RegsOk cfg h'.reg h'.extTable) {new_misa : Reg}
    (htable : h'.extTable = switched cfg h new_misa) (ext : Ext)
    (he : h'.extensionEnabled ext = true) :
    cfg.isa.table ext = true := by
  rw [extensionEnabled] at he
  cases hb : ext.misaBit with
  | some b =>
    rw [hb] at he
    rw [← maxIsa_getLsbD cfg.isa hb]
    exact wf'.misaMax b he
  | none =>
    rw [hb] at he
    cases hd : ext.dynamic with
    | false => exact (wf'.extFixed ext hd).symm.trans he
    | true => exact table_of_switched hd ((congrFun htable ext).symm.trans he)

/-- **A write to `misa` leaves a closed set of extensions.** -/
theorem ExtensionsOk.misaWrite (ok : ExtensionsOk cfg h) (hc : Isa.Closed cfg.isa.table)
    (wf : RegsOk cfg h.reg h.extTable) (val : Reg) : ExtensionsOk cfg (h.misaWrite cfg val) := by
  have wf' : RegsOk cfg (h.misaWrite cfg val).reg (h.misaWrite cfg val).extTable := wf.misaWrite val
  obtain heq | ⟨hmisa, htable⟩ := misaWrite_switched cfg h val
  · rw [heq]
    exact ok
  · exact ⟨(switched_misaWrite wf hmisa htable).closed hc (s_of_h wf') (u_of_s wf'),
      table_of_misaWrite wf' htable⟩

/-- Every letter is as configured again, and the names are as before. -/
theorem ExtensionsOk.restart (ok : ExtensionsOk cfg h) (hc : Isa.Closed cfg.isa.table)
    (hmisa : h'.reg .misa = cfg.isa.maxIsa) (htable : h'.extTable = h.extTable) :
    ExtensionsOk cfg h' := by
  have letter (ext : Ext) {b : Nat} (hb : ext.misaBit = some b) :
      h'.extensionEnabled ext = cfg.isa.table ext := by
    rw [extensionEnabled, hb, hmisa]
    exact maxIsa_getLsbD cfg.isa hb
  have name (ext : Ext) (hb : ext.misaBit = none) : h'.extensionEnabled ext =
      h.extensionEnabled ext := by
    rw [extensionEnabled, extensionEnabled, hb, htable]
  have letters {ext ext' : Ext} {b b' : Nat} (hb : ext.misaBit = some b)
    (hb' : ext'.misaBit = some b')
      (hdep : cfg.isa.table ext = true → cfg.isa.table ext' = true)
        (he : h'.extensionEnabled ext = true) :
      h'.extensionEnabled ext' = true :=
    (letter ext' hb').trans (hdep ((letter ext hb).symm.trans he))
  have names {ext ext' : Ext} (hb : ext.misaBit = none) (hb' : ext'.misaBit = none)
      (hdep : h.extensionEnabled ext = true → h.extensionEnabled ext' = true)
      (he : h'.extensionEnabled ext = true) : h'.extensionEnabled ext' = true :=
    (name ext' hb').trans (hdep ((name ext hb).symm.trans he))
  have across {ext ext' : Ext} {b' : Nat} (hb : ext.misaBit = none) (hb' : ext'.misaBit = some b')
      (hdep : cfg.isa.table ext = true → cfg.isa.table ext' = true)
        (he : h'.extensionEnabled ext = true) :
      h'.extensionEnabled ext' = true :=
    (letter ext' hb').trans (hdep (ok.subset ext ((name ext hb).symm.trans he)))
  have without {ext : Ext} (hb : ext.misaBit = none)
      (hdep : h.extensionEnabled ext = true → h.extensionEnabled .zcd = false)
      (he : h'.extensionEnabled ext = true) : h'.extensionEnabled .zcd = false :=
    (name .zcd rfl).trans (hdep ((name ext hb).symm.trans he))
  have hc' := ok.closed
  refine ⟨{
    d_of_q := letters rfl rfl hc.d_of_q
    f_of_d := letters rfl rfl hc.f_of_d
    d_of_v := letters rfl rfl hc.d_of_v
    s_of_h := letters rfl rfl hc.s_of_h
    u_of_s := letters rfl rfl hc.u_of_s
    zfhmin_of_zfh := names rfl rfl hc'.zfhmin_of_zfh
    f_of_zfhmin := across rfl rfl hc.f_of_zfhmin
    zvfhmin_of_zvfh := names rfl rfl hc'.zvfhmin_of_zvfh
    v_of_zvfhmin := across rfl rfl hc.v_of_zvfhmin
    zfhmin_of_zvfh := names rfl rfl hc'.zfhmin_of_zvfh
    zca_of_zcf := names rfl rfl hc'.zca_of_zcf
    f_of_zcf := across rfl rfl hc.f_of_zcf
    zca_of_zcd := names rfl rfl hc'.zca_of_zcd
    d_of_zcd := across rfl rfl hc.d_of_zcd
    zca_of_zcb := names rfl rfl hc'.zca_of_zcb
    zca_of_zcmp := names rfl rfl hc'.zca_of_zcmp
    zca_of_zcmt := names rfl rfl hc'.zca_of_zcmt
    not_zcd_of_zcmp := without rfl hc'.not_zcd_of_zcmp
    not_zcd_of_zcmt := without rfl hc'.not_zcd_of_zcmt }, fun ext he => ?_⟩
  cases hb : ext.misaBit with
  | some b => exact (letter ext hb).symm.trans he
  | none => exact ok.subset ext ((name ext hb).symm.trans he)

/-- A reset starts from the configured letters and leaves the names alone. -/
theorem reset_misa (cfg : Config) (h : Hart) (halt : Bool) :
    (reset cfg h halt).reg .misa = cfg.isa.maxIsa ∧ (reset cfg h halt).extTable = h.extTable := by
  obtain ⟨⟨mask, hreg⟩, htable⟩ := reset_reg cfg h halt
  exact ⟨(hreg .misa (by decide)).trans (Config.resetReg.eq_1 cfg mask), htable⟩

/-- A CSR instruction switches extensions through `misa` only. -/
theorem ExtensionsOk.csrInsn (ok : ExtensionsOk cfg h) (hc : Isa.Closed cfg.isa.table)
    (wf : WellFormed cfg h)
    {which : Nat} {insn : CsrInsn} (hok : h.csrInsn cfg which insn = .ok h') :
    ExtensionsOk cfg h' := by
  obtain ⟨h₁, rfl, f | ⟨val, -, rfl⟩⟩ := csrInsn_misa hok
  · exact (ok.of_regFrame (.of_frame f rfl) rfl).congr rfl
  · exact (ok.misaWrite hc wf.regs val).congr rfl

theorem ExtensionsOk.event (ok : ExtensionsOk cfg h) (hc : Isa.Closed cfg.isa.table)
    (wf : WellFormed cfg h)
    (op : HartOp) : ExtensionsOk cfg (h.event cfg op) := by
  cases hm : op.footprint .misa with
  | false => exact ok.of_regFrame (.event op hm) hm
  | true =>
    cases op with
    | csr which insn bits =>
      show ExtensionsOk cfg (h.orRefused cfg bits (h.csrInsn cfg which insn))
      cases hok : h.csrInsn cfg which insn with
      | ok h' => exact ok.csrInsn hc wf hok
      | error r => exact ok.of_regFrame (ControlWrites.refused bits r).regFrame rfl
    | reset halt => exact ok.restart hc (reset_misa cfg h halt).1 (reset_misa cfg h halt).2
    | _ => exact Bool.noConfusion hm

theorem ExtensionsOk.step (ok : ExtensionsOk cfg h) (hc : Isa.Closed cfg.isa.table)
    (wf : WellFormed cfg h)
    (op : HartOp) : ExtensionsOk cfg (h.step cfg op) := by
  rw [Hart.step]
  split
  · exact ok
  · exact ok.event hc wf op

/-- A hart as it is constructed. -/
theorem extensionsOk_init (hc : Isa.Closed cfg.isa.table) (halt : Bool) :
    ExtensionsOk cfg (init cfg halt) := by
  obtain ⟨hmisa, htable⟩ :=
    reset_misa { cfg with impl := { cfg.impl with mmu := true } } (unbuilt cfg) halt
  have configured : (init cfg halt).extensionEnabled = cfg.isa.table := by
    funext ext
    rw [extensionEnabled]
    cases hb : ext.misaBit with
    | some b => exact (congrArg (·.getLsbD b) hmisa).trans (maxIsa_getLsbD cfg.isa hb)
    | none => exact congrFun htable ext
  exact ⟨configured.symm ▸ hc, fun ext he => configured ▸ he⟩

/-- **The extensions of a reachable hart are closed.** -/
theorem Reachable.extensionsOk (hc : Isa.Closed cfg.isa.table) (hr : Reachable cfg h) :
    ExtensionsOk cfg h := by
  obtain ⟨halt, ops, rfl⟩ := hr
  have hstep (h : Hart) (op : HartOp) (hi : WellFormed cfg h ∧ ExtensionsOk cfg h) :
      WellFormed cfg (h.step cfg op) ∧ ExtensionsOk cfg (h.step cfg op) :=
    ⟨hi.1.step op, hi.2.step hc hi.1 op⟩
  exact (Run.run_induct hstep ⟨wellFormed_init halt, extensionsOk_init hc halt⟩ ops).2

/-! ### Writes to `misa`, one after the other -/

/-- A write of `misa` by an instruction at some address. -/
def misaWriteAt (cfg : Config) (h : Hart) (w : Reg × Reg) : Hart :=
  { h with pc := w.1 }.misaWrite cfg w.2

/-- **The enabled extensions stay closed.** Whatever string was accepted and whatever is then
written to `misa` from wherever, the dependencies between the extensions hold, and none is enabled
that the string did not ask for. -/
theorem extensions_closed (find : String → Option String) (str priv : List Char) (isa : Isa)
    (hp : Isa.parse find str priv = .ok isa) (cfg : Config) (hcfg : cfg.isa = isa) (h : Hart)
    (hr : Reachable cfg h) (writes : List (Reg × Reg)) :
    Run.Always (misaWriteAt cfg)
      (fun h => Isa.Closed h.extensionEnabled ∧ ∀ ext, h.extensionEnabled ext = true →
        isa.table ext = true)
      h writes := by
  subst hcfg
  have hc := Isa.parse_closed hp
  refine Run.Always.of_invariant (I := fun h => RegsOk cfg h.reg h.extTable ∧ ExtensionsOk cfg h)
    (fun h w hi => ?_) (fun h hi => ⟨hi.2.closed, hi.2.subset⟩)
      ⟨hr.wellFormed.regs, hr.extensionsOk hc⟩ writes
  have ok : ExtensionsOk cfg { h with pc := w.1 } := hi.2.congr rfl
  exact ⟨RegsOk.misaWrite (h := { h with pc := w.1 }) hi.1 w.2, ok.misaWrite hc hi.1 w.2⟩

/-- A hart with H, C and the letters M and A: everything is switched off, then H on again. -/
theorem extensions_closed_rv64h :
    Run.Always (misaWriteAt rv64h)
      (fun h => Isa.Closed h.extensionEnabled ∧ ∀ ext, h.extensionEnabled ext = true →
        rv64h.isa.table ext = true)
      (init rv64h false) [(0x1000#64, 0#64), (0x1002#64, 0x80#64)] :=
  extensions_closed (fun _ => none) "rv64imach_zicntr_sscofpmf_sstc".toList "msu".toList rv64h.isa
    (Isa.parse_accepted (by decide)) rv64h rfl (init rv64h false) ⟨false, [], rfl⟩
    [(0x1000#64, 0#64), (0x1002#64, 0x80#64)]

end Hart

end Nnemu

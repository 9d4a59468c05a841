import Nnemu.Hart.Halves
import Nnemu.Hart.Register
import Nnemu.Hart.Entry

/-!
# State fields

`FS`, `VS` and `XS` of `mstatus` and `vsstatus` say what has become of the state of extensions, and
`SD` sums them up. Every write to one of the two registers adjusts `SD`. What is written through
`sstatus` reaches the bits of its mask only, and `dirty()` is called where the permission check has
found the field enabled, so that it does not abort.
-/

namespace Nnemu

namespace Hart

variable {cfg : Config} {h h' : Hart}

/-! ### `SD` of `vsstatus` -/

/-- What `vsstatus` starts with has no dirty field. -/
theorem adjustSd_mstatusInit (cfg : Config) (mask : Reg) :
    cfg.adjustSd (cfg.mstatusInit &&& mask) = cfg.mstatusInit &&& mask := by
  have hfields : cfg.mstatusInit &&& (0x1E600#64 ||| cfg.sdBit) = 0#64 := by
    rw [Config.sdBit, Config.mstatusInit]
    cases cfg.isa.xlen <;> cases cfg.isa.table .u <;> cases cfg.isa.table .s <;>
      cases cfg.bigEndian <;> decide
  have hzero : (cfg.mstatusInit &&& mask) &&& (0x1E600#64 ||| cfg.sdBit) = 0#64 := by
    rw [BitVec.and_assoc, BitVec.and_comm mask, ← BitVec.and_assoc, hfields, BitVec.zero_and]
  have hstate : (cfg.mstatusInit &&& mask) &&& 0x1E600#64 = 0#64 &&& 0x1E600#64 := by
    rw [BitVec.zero_and]
    refine Bits.and_eq_zero_of_subset ?_ hzero
    rw [Config.sdBit]
    cases cfg.isa.xlen <;> rfl
  have hsd : (cfg.mstatusInit &&& mask) &&& cfg.sdBit = 0#64 := by
    refine Bits.and_eq_zero_of_subset ?_ hzero
    rw [Config.sdBit]
    cases cfg.isa.xlen <;> rfl
  generalize cfg.mstatusInit &&& mask = x at hstate hsd
  have heq : cfg.adjustSd x = if Config.SomeDirty x then x ||| cfg.sdBit
      else x &&& ~~~cfg.sdBit := rfl
  rw [heq, if_neg (mt (Config.someDirty_congr hstate).1 (by decide))]
  exact Bits.and_eq_self_of_and_not (by rw [BitVec.not_not]; exact hsd)

/-- `SD` of `vsstatus` is consistent: every write adjusts it. -/
theorem kept_vsstatus (cfg : Config) : Kept cfg .vsstatus fun x => cfg.adjustSd x = x := by
  have vsstatusWrite (h : Hart) (val : Reg) :
      cfg.adjustSd ((h.vsstatusWrite cfg val).reg .vsstatus) =
        (h.vsstatusWrite cfg val).reg .vsstatus := by
    rw [Hart.vsstatusWrite, reg_set, if_pos rfl]
    exact cfg.adjustSd_adjustSd _
  have dirty (h : Hart) (dirties : Reg) (ok : cfg.adjustSd (h.reg .vsstatus) = h.reg .vsstatus) :
      cfg.adjustSd ((h.dirty cfg dirties).reg .vsstatus) = (h.dirty cfg dirties).reg .vsstatus := by
    unfold Hart.dirty
    extract_lets h₀ h₁
    split
    · exact ok
    · split
      · exact vsstatusWrite h₁ _
      · have f₀ : Frame (fun c => c == .mstatus) h h₀ :=
          Frame.ite (Frame.refl _ _) (Frame.abort _ _)
        have f₁ : Frame (fun c => c == .mstatus) h₀ h₁ := Frame.sstatusProxyWrite rfl _
        rw [(f₀.trans f₁).reg .vsstatus rfl, ok]
  refine .of_parts rfl (fun h val _ => vsstatusWrite h val) (fun h val _ ok => ?_) dirty
    (adjustSd_mstatusInit cfg)
  rw [(Frame.misaWrite val).reg .vsstatus rfl, ok]

/-! ### State fields -/

theorem ExtState.getLsbD_mask {s : ExtState} {i : Nat} (hi : s.mask.getLsbD i = true) :
    i < 64 ∧ i ≠ 11 ∧ i ≠ 12 ∧ i ≠ 31 ∧ i ≠ 63 := by
  have hlt : i < 64 := by
    by_contra hge
    rw [BitVec.getLsbD_of_ge _ _ (Nat.not_lt.1 hge)] at hi
    exact absurd hi (by decide)
  have hne (k : Nat) (hk : s.mask.getLsbD k = false) : i ≠ k := by
    rintro rfl
    exact absurd (hk.symm.trans hi) (by decide)
  exact ⟨hlt, hne 11 (by cases s <;> rfl), hne 12 (by cases s <;> rfl), hne 31 (by cases s <;> rfl),
    hne 63 (by cases s <;> rfl)⟩

/-- A field is in the write mask as a whole or not at all. -/
theorem sstatusWriteMask_field (cfg : Config) (h : Hart) (s : ExtState) :
    s.mask &&& h.sstatusWriteMask cfg = s.mask ∨ h.sstatusWriteMask cfg &&& s.mask = 0#64 := by
  rw [sstatusWriteMask_eq]
  generalize ((cfg.isa.table .s || cfg.isa.table .f || cfg.isa.table .v) &&
    !cfg.isa.table .zfinx) = hasFs
  generalize cfg.isa.table .s = hasS, h.hasPage cfg = hasPage, cfg.anyCustomExtensions = hasXs,
    cfg.isa.table .v = hasVs
  cases s <;> cases hasS <;> cases hasPage <;> cases hasFs <;> cases hasXs <;>
    cases hasVs <;> decide

/-- The bits of a field that is there. -/
theorem getLsbD_sstatusWriteMask {s : ExtState} (hm : s.mask &&& h.sstatusWriteMask cfg = s.mask)
    {i : Nat}
    (hi : s.mask.getLsbD i = true) : (h.mstatusWriteMask cfg).getLsbD i = true := by
  have hbit := Bits.getLsbD_of_subset hm hi
  obtain ⟨hlt, -⟩ := ExtState.getLsbD_mask hi
  rw [mstatusWriteMask_eq]
  simp only [BitVec.getLsbD_or, hbit, Bool.true_or]

/-- A field is written through `sstatus`. -/
theorem and_sstatusProxyWrite {s : ExtState} (hm : s.mask &&& h.sstatusWriteMask cfg = s.mask)
    (x : Reg) :
    (h.sstatusProxyWrite cfg (x ||| s.mask)).reg .mstatus &&& s.mask = s.mask := by
  apply BitVec.eq_of_getLsbD_eq
  intro i hlt
  rw [BitVec.getLsbD_and]
  cases hi : s.mask.getLsbD i with
  | false => rw [Bool.and_false]
  | true =>
    obtain ⟨-, h11, h12, h31, h63⟩ := ExtState.getLsbD_mask hi
    rw [Bool.and_true, sstatusProxyWrite, reg_mstatusWrite, Function.update_self,
      getLsbD_mstatusWrite_of_mask hlt (getLsbD_sstatusWriteMask hm hi)
        (fun hmpp => absurd hmpp (not_or.2 ⟨h11, h12⟩)) (cfg.ne_sd h31 h63),
      Bits.getLsbD_replace, if_pos (Bits.getLsbD_of_subset hm hi), BitVec.getLsbD_or,
      hi, Bool.or_true]

/-- A field is written in `vsstatus`. -/
theorem and_vsstatusWrite {s : ExtState} (hm : s.mask &&& h.sstatusWriteMask cfg = s.mask)
    (x : Reg) :
    (h.vsstatusWrite cfg (x ||| s.mask)).reg .vsstatus &&& s.mask = s.mask := by
  apply BitVec.eq_of_getLsbD_eq
  intro i hlt
  rw [BitVec.getLsbD_and]
  cases hi : s.mask.getLsbD i with
  | false => rw [Bool.and_false]
  | true =>
    obtain ⟨-, -, -, h31, h63⟩ := ExtState.getLsbD_mask hi
    rw [Bool.and_true, vsstatusWrite, reg_set, if_pos rfl,
      cfg.getLsbD_adjustSd _ i hlt (cfg.ne_sd h31 h63),
      Bits.getLsbD_replace, if_pos (Bits.getLsbD_of_subset hm hi), BitVec.getLsbD_or,
      hi, Bool.or_true]

theorem hasBits_of_and {s : ExtState} {x : Reg} (hx : x &&& s.mask = s.mask) :
    hasBits x s.mask = true := by
  rw [hasBits, hx]
  cases s <;> rfl

theorem or_eq_left_of_mask (m : Reg) {x y z : Reg} : m ||| (m &&& x) |||
    (m &&& y) ||| (m &&& z) = m := by
  apply BitVec.eq_of_getLsbD_eq
  intro i _
  simp only [BitVec.getLsbD_or, BitVec.getLsbD_and]
  cases m.getLsbD i with
  | false => simp
  | true => simp

/-- A field that is not there is enabled. -/
theorem sstatusEnabled_of_absent {which : Reg} (hm : h.sstatusWriteMask cfg &&& which = 0#64) :
    h.sstatusEnabled cfg which = true := by
  rw [sstatusEnabled]
  split
  · rfl
  · simp [hasBits, hm]

/-- What `dirty()` does where the field is enabled. -/
theorem dirty_of_enabled {which : Reg} (he : h.sstatusEnabled cfg which = true) :
    h.dirty cfg which = h ∨ ∃ h₁, h₁ = h.sstatusProxyWrite cfg (h.sstatusProxyRead cfg ||| which) ∧
      (h₁.v = false ∧ h.dirty cfg which = h₁ ∨
        h₁.v = true ∧ h.dirty cfg which = h₁.vsstatusWrite cfg (h₁.reg .vsstatus ||| which)) := by
  unfold Hart.dirty
  rw [if_pos he]
  split
  · exact .inl rfl
  · refine .inr ⟨_, rfl, ?_⟩
    cases hv : (h.sstatusProxyWrite cfg (h.sstatusProxyRead cfg ||| which)).v with
    | false => exact .inl ⟨rfl, if_neg (by rw [hv]; decide)⟩
    | true => exact .inr ⟨rfl, if_pos hv⟩

/-- **A dirty field is enabled.** -/
theorem sstatusEnabled_dirty {s : ExtState} (he : h.sstatusEnabled cfg s.mask = true) :
    (h.dirty cfg s.mask).sstatusEnabled cfg s.mask = true := by
  have hmask : (h.dirty cfg s.mask).sstatusWriteMask cfg = h.sstatusWriteMask cfg :=
    Frame.sstatusWriteMask (Frame.dirty s.mask)
  obtain hm | hm := sstatusWriteMask_field cfg h s
  · have hread (h' : Hart) (f : h'.sstatusWriteMask cfg = h.sstatusWriteMask cfg)
        (hx : h'.reg .mstatus &&& s.mask = s.mask)
          (hv : h'.v = false ∨ h'.reg .vsstatus &&& s.mask = s.mask) :
        h'.sstatusEnabled cfg s.mask = true := by
      have hproxy : h'.sstatusProxyRead cfg &&& s.mask = s.mask := by
        have hsub : s.mask &&& h'.sstatusReadMask cfg = s.mask := by
          rw [sstatusReadMask, f]
          simp only [BitVec.and_or_distrib_left, hm]
          exact or_eq_left_of_mask s.mask
        rw [sstatusProxyRead, BitVec.and_assoc, BitVec.and_comm (h'.sstatusReadMask cfg), hsub, hx]
      rw [sstatusEnabled, hasBits_of_and hproxy]
      obtain hv | hv := hv
      · simp [hv]
      · simp [hasBits_of_and hv]
    obtain heq | ⟨h₁, rfl, ⟨hv, heq⟩ | ⟨hv, heq⟩⟩ := dirty_of_enabled he
    · rw [heq, he]
    · rw [heq] at hmask ⊢
      exact hread _ hmask (and_sstatusProxyWrite hm _) (.inl hv)
    · have f : Frame (fun c => c == .mstatus) h
        (h.sstatusProxyWrite cfg (h.sstatusProxyRead cfg ||| s.mask)) :=
        Frame.sstatusProxyWrite rfl _
      rw [heq] at hmask ⊢
      refine hread _ hmask ?_ (.inr (and_vsstatusWrite (by rw [f.sstatusWriteMask, hm]) _))
      rw [(Frame.vsstatusWrite (s := fun c => c == .vsstatus) rfl _).reg .mstatus rfl,
        and_sstatusProxyWrite hm]
  · exact sstatusEnabled_of_absent (by rw [hmask, hm])

end Hart

/-! ### Objects with a state field -/

deriving instance DecidableEq for ExtState

/-- The state field a write to an object makes dirty. -/
def Csr.state : Csr → Option ExtState
  | fflags | frm => some .fs
  | vxsat | vstart | vxrm | vl | vtype | vlenb => some .vs
  | _ => none

/-- The state field of an entry, that of the upper object of a composite. -/
def CsrObj.state : CsrObj → Option ExtState
  | plain c => c.state
  | virtualized orig virt => orig.state <|> virt.state
  | rv32Low orig => orig.state
  | rv32High orig => orig.state
  | counterProxy _ delegate => delegate.state
  | proxy _ delegate => delegate.state
  | composite upper lower _ => upper.state <|> lower.state
  | _ => none

/-- Only an object itself or a composite of two objects has a state field, and the two share it. -/
def CsrObj.tidy : CsrObj → Bool
  | plain _ => true
  | composite (plain upper) (plain lower) _ => upper.state.isSome && upper.state == lower.state
  | o => o.state.isNone

theorem CsrObj.tidy_cases {o : CsrObj} (ho : o.tidy = true) :
    o.state = none ∨ (∃ c, o = plain c) ∨
      ∃ upper lower lsb s, o = composite (plain upper) (plain lower) lsb ∧
      upper.state = some s ∧ lower.state = some s := by
  unfold CsrObj.tidy at ho
  split at ho
  · exact .inr (.inl ⟨_, rfl⟩)
  · rw [Bool.and_eq_true, beq_iff_eq] at ho
    obtain ⟨hsome, heq⟩ := ho
    obtain ⟨s, hs⟩ := Option.isSome_iff_exists.1 hsome
    exact .inr (.inr ⟨_, _, _, s, rfl, hs, heq ▸ hs⟩)
  · exact .inl (Option.isNone_iff_eq_none.1 ho)

/-- **Every entry of the map is tidy.** -/
theorem tidy_of_csrFind (cfg : Config) {which : Nat} {o : CsrObj}
    (ho : csrFind cfg which = some o) :
    o.tidy = true := by
  have hall : (csrmap cfg.full).all (fun e => e.2.tidy) = true := by
    obtain ⟨⟨xlen, table, exts, hu, hs⟩, impl, id, big, count, pmp, vlen, vlenb⟩ := cfg
    cases xlen <;> cases count <;>
      exact all_csrmap _ rfl rfl rfl rfl rfl rfl rfl (fun _ => rfl) rfl rfl rfl
        (fun _ => rfl) fun _ => rfl
  exact List.all_eq_true.1 hall _ (mem_of_csrFind cfg ho)

namespace Hart

variable {cfg : Config} {h h' : Hart}

/-! ### `abort()` -/

theorem aborted_maybeFlushTlb (newval old : Reg) :
    (h.maybeFlushTlb cfg newval old).aborted = h.aborted := by
  obtain heq | heq := h.maybeFlushTlb_cases cfg newval old
  · rw [heq]
    rfl
  · rw [heq]

theorem aborted_mstatusWrite (val : Reg) : (h.mstatusWrite cfg val).aborted = h.aborted :=
  aborted_maybeFlushTlb _ _

theorem aborted_vsstatusWrite (val : Reg) : (h.vsstatusWrite cfg val).aborted = h.aborted := by
  show (if h.v then h.maybeFlushTlb cfg _ _ else h).aborted = h.aborted
  split
  · exact aborted_maybeFlushTlb _ _
  · rfl

/-- **Where a field is enabled, `dirty()` does not abort.** -/
theorem aborted_dirty {which : Reg} (he : h.sstatusEnabled cfg which = true) :
    (h.dirty cfg which).aborted = h.aborted := by
  have hproxy : (h.sstatusProxyWrite cfg (h.sstatusProxyRead cfg ||| which)).aborted = h.aborted :=
    aborted_mstatusWrite _
  obtain heq | ⟨h₁, rfl, ⟨-, heq⟩ | ⟨-, heq⟩⟩ := dirty_of_enabled he
  · rw [heq]
  · rw [heq, hproxy]
  · rw [heq, aborted_vsstatusWrite, hproxy]

theorem aborted_clearHypervisor : (h.clearHypervisor cfg).aborted = h.aborted := by
  have hmnpv (h : Hart) : (h.clearMnpv cfg).aborted = h.aborted := by
    rw [clearMnpv]
    split
    · rfl
    · rfl
  have hmstatush (h : Hart) (val : Reg) : (h.mstatushWrite cfg val).aborted = h.aborted := by
    rw [mstatushWrite]
    split
    · exact aborted_mstatusWrite _
    · rfl
  have hfold (l : List (Fin 29)) (h : Hart) : (l.foldl (fun h i =>
      h.meventWrite cfg i (h.reg (.mevent i) &&& ~~~0x0C00000000000000#64)) h).aborted =
        h.aborted := by
    induction l generalizing h with
    | nil => rfl
    | cons i l ih => exact ih _
  unfold clearHypervisor
  extract_lets h₁ h₂ newMstatus h₃ h₄ h₅ h₆ h₇
  calc (List.foldl _ h₇ _).aborted
    _ = h₄.aborted := hfold _ h₇
    _ = h₃.aborted := hmstatush h₃ _
    _ = h₂.aborted := aborted_mstatusWrite _
    _ = h₁.aborted := hmnpv h₁
    _ = h.aborted := rfl

theorem aborted_misaWrite (val : Reg) : (h.misaWrite cfg val).aborted = h.aborted := by
  have hext : (h.updateExtensions cfg (h.newMisa cfg val)).aborted = h.aborted := by
    obtain ⟨ext, heq⟩ := Frame.updateExtensions_eq cfg h (h.newMisa cfg val)
    rw [heq]
  obtain ⟨heq, -⟩ | ⟨heq, -⟩ | ⟨heq, -⟩ := misaWrite_cases cfg h val
  · rw [heq]
  · rw [heq]
    exact hext
  · rw [heq]
    show ((h.updateExtensions cfg (h.newMisa cfg val)).clearHypervisor cfg).aborted = h.aborted
    rw [aborted_clearHypervisor, hext]

theorem aborted_baseAtpWrite (c : Csr) (val : Reg) :
    (h.baseAtpWrite cfg c val).aborted = h.aborted := by
  have flush {b : Prop} [Decidable b] : (if b then h.flushTlb else h).aborted = h.aborted := by
    split
    · rfl
    · rfl
  exact flush

/-- A write to an object whose state field, if it has one, is enabled. -/
theorem aborted_write (val : Reg) {c : Csr}
    (he : ∀ s ∈ c.state, h.sstatusEnabled cfg s.mask = true) :
    (h.write cfg val c).aborted = h.aborted := by
  have vector (mask : Reg) (c : Csr) (hvs : h.sstatusEnabled cfg mstatusVs = true) :
      (h.vectorWrite cfg mask c val).aborted = h.aborted := by
    rw [vectorWrite]
    split
    · rfl
    · exact aborted_dirty hvs
  cases c with
  | misa => exact aborted_misaWrite val
  | mstatus => exact aborted_mstatusWrite val
  | vsstatus => exact aborted_vsstatusWrite val
  | satp => exact aborted_baseAtpWrite _ val
  | vsatp => exact aborted_baseAtpWrite _ val
  | fflags => exact aborted_dirty (he .fs rfl)
  | frm => exact aborted_dirty (he .fs rfl)
  | vxsat => exact aborted_dirty (he .vs rfl)
  | vstart => exact vector _ .vstart (he .vs rfl)
  | vxrm => exact vector _ .vxrm (he .vs rfl)
  | vl => exact vector _ .vl (he .vs rfl)
  | vtype => exact vector _ .vtype (he .vs rfl)
  | vlenb => exact vector _ .vlenb (he .vs rfl)
  | _ => rfl

/-- A write to an entry without state field. -/
theorem aborted_writeObj_of_stateless (o : CsrObj) (ho : o.state = none) :
    ∀ (h : Hart) (val : Reg), (h.writeObj cfg val o).aborted = h.aborted := by
  have one {c : Csr} (hc : c.state = none) (h : Hart) (val : Reg) :
    (h.write cfg val c).aborted = h.aborted :=
    aborted_write val (by rw [hc]; exact fun _ hs => nomatch hs)
  have triggers (h : Hart) (ts : Option Triggers) : (h.triggersWrite ts).aborted = h.aborted := by
    cases ts <;> rfl
  have pmp (h : Hart) (p : Option Pmp) : (h.pmpWrite p).aborted = h.aborted := by
    cases p <;> rfl
  induction o with
  | plain c => exact one ho
  | sstatusProxy => exact fun h val => aborted_mstatusWrite _
  | tdata1 => exact fun h val => triggers h _
  | tdata2 => exact fun h val => triggers h _
  | tdata3 => exact fun h val => triggers h _
  | pmpaddr i => exact fun h val => pmp h _
  | pmpcfg n => exact fun h val => pmp h _
  | mseccfg => exact fun h val => pmp h _
  | virtualized orig virt ihOrig ihVirt =>
    obtain ⟨hOrig, hVirt⟩ := (Option.orElse_eq_none _ _).1 ho
    intro h val
    rw [writeObj]
    split
    · exact ihVirt hVirt h val
    · exact ihOrig hOrig h val
  | virtualizedSatp =>
    intro h val
    rw [writeObj]
    split
    · exact one (c := .vsatp) rfl h _
    · exact one (c := .satp) rfl h _
  | virtualizedStimecmp =>
    intro h val
    rw [writeObj]
    split
    · rfl
    · rfl
  | rv32Low orig ih => exact fun h val => ih ho h _
  | rv32High orig ih => exact fun h val => ih ho h _
  | counterProxy _ delegate ih => exact fun h val => ih ho h val
  | proxy _ delegate ih => exact fun h val => ih ho h val
  | composite upper lower lsb ihUpper ihLower =>
    obtain ⟨hUpper, hLower⟩ := (Option.orElse_eq_none _ _).1 ho
    exact fun h val => (ihLower hLower _ _).trans (ihUpper hUpper h _)
  | _ => exact fun h val => rfl

/-- A check that goes on after another one has passed it. -/
theorem of_check_then {α : Type} {check : Except Refusal Unit} {next : Except Refusal α} {a : α}
    (hok : (do check; next) = .ok a) : check = .ok () ∧ next = .ok a := by
  cases check with
  | error e => exact absurd hok (by simp [bind, Except.bind])
  | ok u => exact ⟨rfl, hok⟩

theorem of_require {b : Bool} (hok : require b = .ok ()) : b = true := by
  cases b with
  | true => rfl
  | false => exact absurd hok (by simp [require])

/-- The permission check of an object with a state field finds the field enabled. -/
theorem enabled_of_verified {write : Bool} {c : Csr} (hv : h.verifyCsr cfg write c = .ok ())
    {s : ExtState}
    (hs : c.state = some s) : h.sstatusEnabled cfg s.mask = true := by
  have float {address : Nat} (hok : h.verifyFloat cfg address write = .ok ()) :
      h.sstatusEnabled cfg mstatusFs = true :=
    of_require (of_check_then (of_check_then hok).2).1
  have vector {ext : Bool} {address : Nat} (hok : h.verifyVector cfg ext address write = .ok ()) :
      h.sstatusEnabled cfg mstatusVs = true :=
    of_require (of_check_then hok).1
  cases c with
  | fflags => exact Option.some.inj hs ▸ float hv
  | frm => exact Option.some.inj hs ▸ float hv
  | vxsat => exact Option.some.inj hs ▸ vector hv
  | vstart => exact Option.some.inj hs ▸ vector hv
  | vxrm => exact Option.some.inj hs ▸ vector hv
  | vl => exact Option.some.inj hs ▸ vector hv
  | vtype => exact Option.some.inj hs ▸ vector hv
  | vlenb => exact Option.some.inj hs ▸ vector hv
  | _ => exact nomatch hs

theorem Frame.sstatusEnabled {s : Csr → Bool} (f : Frame s h h') (hm : s .mstatus = false)
    (hvs : s .vsstatus = false) (which : Reg) :
    h'.sstatusEnabled cfg which = h.sstatusEnabled cfg which := by
  rw [Hart.sstatusEnabled, Hart.sstatusEnabled, sstatusProxyRead, sstatusProxyRead,
    sstatusReadMask, sstatusReadMask,
    f.sstatusWriteMask, f.v, f.reg _ hm, f.reg _ hvs]

/-- An enabled field is enabled after a write that makes it dirty. -/
theorem enabled_write (val : Reg) {c : Csr} {s : ExtState} (hs : c.state = some s)
    (he : h.sstatusEnabled cfg s.mask = true) :
    (h.write cfg val c).sstatusEnabled cfg s.mask = true := by
  have set {c : Csr} (hm : c ≠ .mstatus) (hvs : c ≠ .vsstatus) (x : Reg) :
      ((h.dirty cfg s.mask).set c x).sstatusEnabled cfg s.mask = true := by
    have f : Frame (fun c' => c' == c) (h.dirty cfg s.mask) ((h.dirty cfg s.mask).set c x) :=
      Frame.set (s := fun c' => c' == c) (beq_self_eq_true c) x
    rw [f.sstatusEnabled (beq_false_of_ne hm.symm) (beq_false_of_ne hvs.symm)]
    exact sstatusEnabled_dirty he
  have float (mask : Reg) {c : Csr} (hm : c ≠ .mstatus) (hvs : c ≠ .vsstatus) (hfs : .fs = s) :
      (h.floatWrite cfg mask c val).sstatusEnabled cfg s.mask = true := by
    subst hfs
    exact set hm hvs _
  have vector (mask : Reg) {c : Csr} (hm : c ≠ .mstatus) (hvs : c ≠ .vsstatus) (hs : .vs = s) :
      (h.vectorWrite cfg mask c val).sstatusEnabled cfg s.mask = true := by
    subst hs
    rw [vectorWrite]
    split
    · exact he
    · exact set hm hvs _
  cases c with
  | fflags => exact float _ (by decide) (by decide) (Option.some.inj hs)
  | frm => exact float _ (by decide) (by decide) (Option.some.inj hs)
  | vxsat =>
    obtain rfl : .vs = s := Option.some.inj hs
    exact set (c := .vxsat) (by decide) (by decide) _
  | vstart => exact vector _ (by decide) (by decide) (Option.some.inj hs)
  | vxrm => exact vector _ (by decide) (by decide) (Option.some.inj hs)
  | vl => exact vector _ (by decide) (by decide) (Option.some.inj hs)
  | vtype => exact vector _ (by decide) (by decide) (Option.some.inj hs)
  | vlenb => exact vector _ (by decide) (by decide) (Option.some.inj hs)
  | _ => exact absurd hs.symm (Option.some_ne_none s)

/-- **A permitted CSR write does not abort.** -/
theorem aborted_writeObj {which : Nat} {insn : CsrInsn} {o : CsrObj} {val : Reg}
    (w : h.Writes cfg which insn o val) : (h.writeObj cfg val o).aborted = h.aborted := by
  have hverified := w.verified
  obtain hnone | ⟨c, rfl⟩ | ⟨upper, lower, lsb, s, rfl, hupper, hlower⟩ :=
    CsrObj.tidy_cases (tidy_of_csrFind cfg w.find)
  · exact aborted_writeObj_of_stateless o hnone h val
  · exact aborted_write val fun s hs => enabled_of_verified hverified hs
  · have he : h.sstatusEnabled cfg s.mask = true := enabled_of_verified hverified hupper
    have hfirst : (h.write cfg (val >>> lsb) upper).aborted = h.aborted := by
      refine aborted_write _ fun s' hs' => ?_
      obtain rfl : s = s' := Option.some.inj (hupper.symm.trans hs')
      exact he
    refine Eq.trans (aborted_write val fun s' hs' => ?_) hfirst
    obtain rfl : s = s' := Option.some.inj (hlower.symm.trans hs')
    exact enabled_write _ hupper he

end Hart

/-! ### `sstatus` -/

/-- `sstatus` is `vsstatus` with `V = 1`, else a view of `mstatus`. -/
theorem csrFind_sstatus (cfg : Config) :
    csrFind cfg 0x100 = some (.virtualized .sstatusProxy (.plain .vsstatus)) := by
  rw [csrFind, csrmap]
  simp only [List.append_assoc, supervisorEntries, wideEntries, entriesIf]
  cases cfg.isa.xlen <;> cases cfg.isa.table .u <;> rfl

namespace Hart

variable {cfg : Config} {h h' : Hart}

/-- A write through `sstatus` reaches the bits of its mask and `SD`. `MPP` stays as it is legal. -/
theorem mstatus_sstatusProxyWrite (wf : WellFormed cfg h) (hs : cfg.isa.table .s = true)
    (val : Reg) {i : Nat}
    (hi : i < 64) (hm : (h.sstatusWriteMask cfg).getLsbD i = false)
    (hsd : i ≠ cfg.isa.xlen.bits - 1) :
    ((h.sstatusProxyWrite cfg val).reg .mstatus).getLsbD i = (h.reg .mstatus).getLsbD i := by
  have hkeep {j : Nat} (hj : (h.sstatusWriteMask cfg).getLsbD j = false) :
      (Bits.replace (h.sstatusWriteMask cfg) (h.reg .mstatus) val).getLsbD j =
        (h.reg .mstatus).getLsbD j := by
    rw [Bits.getLsbD_replace, hj, if_neg (by decide)]
  rw [sstatusProxyWrite, reg_mstatusWrite, Function.update_self]
  by_cases hmpp : i = 11 ∨ i = 12
  · have beside (j : Nat) (hj : j = 11 ∨ j = 12) : (h.sstatusWriteMask cfg).getLsbD j = false := by
      obtain rfl | rfl := hj
      · simp [sstatusWriteMask_eq, getElem_ite]
      · simp [sstatusWriteMask_eq, getElem_ite]
    have hfield : getField (Bits.replace (h.sstatusWriteMask cfg) (h.reg .mstatus) val) mstatusMpp =
        getField (h.reg .mstatus) mstatusMpp :=
      getField_mpp_congr (hkeep (beside 11 (.inl rfl))) (hkeep (beside 12 (.inr rfl)))
    have hlegal := legalizePrivilege_implemented wf (wf.regs.mpp (cfg.isa.u_of_s hs))
    rw [cfg.getLsbD_adjustSd _ i hi hsd, getLsbD_newMstatus, hfield, hlegal,
      ← hfield, setField_mpp_self, hkeep hm,
      ite_self]
  · exact getLsbD_mstatusWrite_of_eq hi (fun h11 => hmpp (.inl h11))
      (fun h12 => hmpp (.inr h12)) hsd (hkeep hm)

/-- The same for the entry. With `V = 1` the write goes to `vsstatus`. -/
theorem mstatus_sstatusWrite (wf : WellFormed cfg h) (hs : cfg.isa.table .s = true)
    (val : Reg) {i : Nat}
    (hi : i < 64) (hm : (h.sstatusWriteMask cfg).getLsbD i = false)
    (hsd : i ≠ cfg.isa.xlen.bits - 1) :
    ((h.writeObj cfg val (.virtualized .sstatusProxy (.plain .vsstatus))).reg .mstatus).getLsbD i =
      (h.reg .mstatus).getLsbD i := by
  rw [writeObj]
  split
  · have f : Frame (fun c => c == .vsstatus) h (h.vsstatusWrite cfg val) :=
      Frame.vsstatusWrite rfl val
    exact congrArg (·.getLsbD i) (f.reg .mstatus rfl)
  · exact mstatus_sstatusProxyWrite wf hs val hi hm hsd

/-- A supervisor address needs S. -/
theorem supervisor_of_verifyBase (address : Nat) {write : Bool} (ha : address / 0x100 % 4 = 1)
    (hv : h.verifyBase address write = .ok ()) : h.extensionEnabled .s = true := by
  cases hs : h.extensionEnabled .s with
  | true => rfl
  | false =>
    rw [verifyBase] at hv
    simp only [ha, hs] at hv
    cases hv

/-- What reaches `sstatus` needs S: a CSR instruction, a trap to a supervisor mode and `sret`. -/
structure SstatusNeedsS (cfg : Config) (h : Hart) : Prop where
  csr : ∀ insn o val, h.Writes cfg 0x100 insn o val → cfg.isa.table .s = true
  trap : ∀ t, h.trapDestination cfg t ≠ .m → cfg.isa.table .s = true
  sret : ∀ h', h.sret cfg = .ok h' → cfg.isa.table .s = true

theorem WellFormed.sstatusNeedsS (wf : WellFormed cfg h) : SstatusNeedsS cfg h where
  csr insn o val w := by
    obtain rfl := Option.some.inj ((csrFind_sstatus cfg).symm.trans w.find)
    exact wf.regs.enabled_s ▸ supervisor_of_verifyBase 0x100 rfl w.verified
  trap t hdest := by
    cases hd : h.trapDestination cfg t with
    | vs => exact cfg.isa.s_of_h (wf.virt (of_destination_vs hd).1)
    | hs => exact supervisor_of_destination_hs wf hd
    | m => exact absurd hd hdest
  sret h' hok := by
    rw [Hart.sret] at hok
    cases hn : h.sretRefused with
    | some e => simp [hn] at hok
    | none => exact wf.regs.enabled_s ▸ (of_sretRefused hn).1

/-- **The state fields and `sstatus`** of one state. -/
structure StatusOk (cfg : Config) (h : Hart) : Prop where
  /-- `SD` sums up the state fields -/
  sdMstatus : (h.reg .mstatus).getLsbD (cfg.isa.xlen.bits - 1) = decide
    (Config.SomeDirty (h.reg .mstatus))
  sdVsstatus : (h.reg .vsstatus).getLsbD (cfg.isa.xlen.bits - 1) = decide
    (Config.SomeDirty (h.reg .vsstatus))
  /-- what a read of `sstatus` returns -/
  read : ∀ o, csrFind cfg 0x100 = some o →
    h.readObj cfg o = if h.v then h.reg .vsstatus else h.reg .mstatus &&& h.sstatusReadMask cfg
  /-- what a write through `sstatus` leaves of `mstatus` -/
  write : ∀ o val, csrFind cfg 0x100 = some o → cfg.isa.table .s = true →
    ∀ i < 64, (h.sstatusWriteMask cfg).getLsbD i = false → i ≠ cfg.isa.xlen.bits - 1 →
      ((h.writeObj cfg val o).reg .mstatus).getLsbD i = (h.reg .mstatus).getLsbD i
  needsS : SstatusNeedsS cfg h
  /-- `dirty()` in a CSR instruction -/
  csrWrite : ∀ which insn o val, h.Writes cfg which insn o val →
    (h.writeObj cfg val o).aborted = h.aborted
  /-- `dirty()` in any other instruction -/
  dirty : ∀ state, (h.event cfg (.dirty state)).aborted = h.aborted

/-- **`SD`, `sstatus` and `dirty()`** in every reachable state: `SD` is the disjunction of the state
fields in both registers, a write through `sstatus` reaches the bits of its mask and no other, and
`dirty()` finds the fields it sets enabled, so that it does not abort. -/
theorem Reachable.statusOk (cfg : Config) (h : Hart) (hr : Reachable cfg h) : StatusOk cfg h where
  sdMstatus := by
    have hsd := cfg.getLsbD_adjustSd_sd (h.reg .mstatus)
    rwa [hr.wellFormed.regs.sd] at hsd
  sdVsstatus := by
    have hsd := cfg.getLsbD_adjustSd_sd (h.reg .vsstatus)
    rwa [(kept_vsstatus cfg).reachable hr] at hsd
  read o ho := by
    obtain rfl := Option.some.inj ((csrFind_sstatus cfg).symm.trans ho)
    rfl
  write o val ho hs i hi hm hsd := by
    obtain rfl := Option.some.inj ((csrFind_sstatus cfg).symm.trans ho)
    exact mstatus_sstatusWrite hr.wellFormed hs val hi hm hsd
  needsS := hr.wellFormed.sstatusNeedsS
  csrWrite _ _ _ _ w := aborted_writeObj w
  dirty state := by
    show (if h.sstatusEnabled cfg state.mask then h.dirty cfg state.mask else h).aborted = h.aborted
    split
    · rename_i he
      exact aborted_dirty he
    · rfl

/-- Floating-point state is switched on for a guest, which makes it dirty. -/
def dirtyOps : List HartOp :=
  [.csr 0x200 (.set 0x2000#64) 0x20001073#64, .csr 0x300 (.set 0x8000002800#64) 0x30001073#64,
    .mret 0x30200073#64, .dirty .fs]

/-- Both registers sum it up. -/
theorem Reachable.statusOk_dirty :
    StatusOk rv64h ((init rv64h false).runFrom rv64h dirtyOps) ∧
      (((init rv64h false).runFrom rv64h dirtyOps).reg .mstatus).getLsbD 63 = true ∧
      (((init rv64h false).runFrom rv64h dirtyOps).reg .vsstatus).getLsbD 63 = true :=
  ⟨Reachable.statusOk rv64h _ ⟨false, dirtyOps, rfl⟩, by decide +kernel, by decide +kernel⟩

end Hart

end Nnemu

import Nnemu.Hart.Return

/-!
# What `mret` leaves in `mstatus`

The stack of `mstatus` is popped: `MPP` goes to the least privileged level, `MPIE` and `MPV` to
their defaults, and no field beside the stack changes (`MretSpec`). `mret` computes all 64 bits and
writes them by the address of `mstatus`, which on RV32 is that of the lower half, so that there
`MPV` keeps its value (`mretSpec_iff`).
-/

namespace Nnemu

/-- The least privileged level of a configuration. -/
def Config.leastPrivilege (cfg : Config) : Reg :=
  if cfg.isa.table .u then prvU else prvM

namespace Hart

variable {cfg : Config} {h h' : Hart}

/-- The bits of the fields that `mret` is to change: `MIE`, `MPIE`, `MPP`, `MPRV` and `MPV`. -/
def mretBits : List Nat :=
  [3, 7, 11, 12, 17, 39]

/-- The fields of `mstatus` after a return from M. -/
structure MretSpec (cfg : Config) (h h₂ : Hart) : Prop where
  mpp : getField (h₂.reg .mstatus) mstatusMpp = cfg.leastPrivilege
  mpie : (h₂.reg .mstatus).getLsbD 7 = true
  mpv : (h₂.reg .mstatus).getLsbD 39 = false
  mie : (h₂.reg .mstatus).getLsbD 3 = (h.reg .mstatus).getLsbD 7
  mprv : (h₂.reg .mstatus).getLsbD 17 = ((h.reg .mstatus).getLsbD 17 && h₂.prv == prvM)
  others : ∀ i, i < 64 → i ∉ mretBits → (h₂.reg .mstatus).getLsbD i = (h.reg .mstatus).getLsbD i

/-- From here on, a return from M with this `mstatus` goes to `V = 0`. -/
def SecondMret (cfg : Config) (h₂ : Hart) : Prop :=
  ∀ h₃ h₄, Reachable cfg h₃ → h₃.prv = prvM → h₃.reg .mstatus = h₂.reg .mstatus →
    h₃.mret cfg = .ok h₄ → h₄.v = false

/-! ### The value that is written -/

/-- The value `mret` computes, bit by bit. -/
theorem getLsbD_mretMstatus (s : Reg) (i : Nat) (hi : i < 64) :
    (h.mretMstatus s).getLsbD i =
      if i = 39 then false
      else if i = 11 ∨ i = 12 then !h.extensionEnabled .u
      else if i = 7 then true
      else if i = 3 then s.getLsbD 7
      else if i = 17 then s.getLsbD 17 && getField s mstatusMpp == prvM
      else s.getLsbD i := by
  unfold mretMstatus
  extract_lets prevPrv s₁ s₂ s₃ s₄
  have hs₁ (j : Nat) (hj : j < 64) :
      s₁.getLsbD j = if j = 17 then s.getLsbD 17 && getField s mstatusMpp == prvM
        else s.getLsbD j := by
    have heq : s₁ = if prevPrv ≠ prvM then setField s mstatusMprv 0#64 else s := rfl
    rw [heq, mstatusMprv_eq]
    by_cases hp : getField s mstatusMpp = prvM
    · rw [if_neg (not_not.2 hp), hp, beq_self_eq_true, Bool.and_true]
      split
      · rename_i h17
        subst h17
        rfl
      · rfl
    · rw [if_pos hp, getLsbD_setField_twoPow _ _ j hj, beq_eq_false_iff_ne.2 hp, Bool.and_false]
      simp [eq_comm (a := 17)]
  have hs₂ : s₂ = setField s₁ mstatusMie (getField s₁ mstatusMpie) := rfl
  have hs₃ : s₃ = setField s₂ mstatusMpie 1#64 := rfl
  have hs₄ : s₄ = setField s₃ mstatusMpp (if h.extensionEnabled .u then prvU else prvM) := rfl
  clear_value s₁ s₂ s₃ s₄
  rw [mstatusMpv_eq, getLsbD_setField_twoPow _ _ i hi, hs₄, getLsbD_setField_mpp _ _ i hi, hs₃,
    mstatusMpie_eq, getLsbD_setField_twoPow _ _ i hi, hs₂, mstatusMie_eq, mstatusMpie_eq,
    getLsbD_setField_twoPow _ _ i hi, getField_twoPow (by decide), ← BitVec.getLsbD_eq_getElem,
    hs₁ 7 (by decide), hs₁ i hi]
  by_cases h39 : i = 39
  · simp [h39]
  by_cases h11 : i = 11
  · subst h11
    cases h.extensionEnabled .u <;> simp [prvU, prvM]
  by_cases h12 : i = 12
  · subst h12
    cases h.extensionEnabled .u <;> simp [prvU, prvM]
  simp only [h39, Ne.symm h39, h11, h12, or_self, if_false, eq_comm (b := i)]
  cases s.getLsbD 7 <;> simp

/-- The value that reaches `mstatus`: on RV32 the lower half of it. -/
def mretWritten (cfg : Config) (h : Hart) : Reg :=
  match cfg.isa.xlen with
  | .rv32 => (h.reg .mstatus >>> 32 <<< 32) ||| (h.mretMstatus (h.reg .mstatus) &&& 0xffffffff#64)
  | .rv64 => h.mretMstatus (h.reg .mstatus)

/-- The lower half arrives. -/
theorem getLsbD_mretWritten_low {i : Nat} (hi : i < 32) :
    (h.mretWritten cfg).getLsbD i = (h.mretMstatus (h.reg .mstatus)).getLsbD i := by
  rw [mretWritten]
  cases cfg.isa.xlen with
  | rv64 => rfl
  | rv32 =>
    dsimp only
    rw [BitVec.getLsbD_or, BitVec.getLsbD_and, getLsbD_low32 i (by omega), BitVec.getLsbD_shiftLeft]
    simp [hi]

/-- The upper half arrives on RV64. -/
theorem getLsbD_mretWritten_high {i : Nat} (hlow : 32 ≤ i) (hi : i < 64) :
    (h.mretWritten cfg).getLsbD i =
      if cfg.isa.xlen = .rv64 then (h.mretMstatus (h.reg .mstatus)).getLsbD i
        else (h.reg .mstatus).getLsbD i := by
  rw [mretWritten]
  cases cfg.isa.xlen with
  | rv64 => rfl
  | rv32 =>
    dsimp only
    rw [BitVec.getLsbD_or, BitVec.getLsbD_and, getLsbD_low32 i hi, BitVec.getLsbD_shiftLeft,
      BitVec.getLsbD_ushiftRight, Nat.add_sub_cancel' hlow]
    simp [Nat.not_lt.2 hlow, hi]

/-- Beside the fields of the stack the value written is the old one. -/
theorem getLsbD_mretWritten_other {i : Nat} (hi : i < 64) (hn : i ∉ mretBits) :
    (h.mretWritten cfg).getLsbD i = (h.reg .mstatus).getLsbD i := by
  have hval : (h.mretMstatus (h.reg .mstatus)).getLsbD i = (h.reg .mstatus).getLsbD i := by
    simp only [mretBits, List.mem_cons, List.not_mem_nil, or_false, not_or] at hn
    obtain ⟨h3, h7, h11, h12, h17, h39⟩ := hn
    rw [getLsbD_mretMstatus _ i hi]
    simp [h3, h7, h11, h12, h17, h39]
  by_cases hlow : i < 32
  · rw [getLsbD_mretWritten_low hlow, hval]
  · rw [getLsbD_mretWritten_high (Nat.not_lt.1 hlow) hi]
    split
    · exact hval
    · rfl

/-- The bits of `mstatus` afterwards, `SD` apart. -/
theorem getLsbD_newMstatus_mretWritten {i : Nat} (hi : i < 64) (h11 : i ≠ 11) (h12 : i ≠ 12) :
    (h.newMstatus cfg (h.mretWritten cfg)).getLsbD i =
      if (h.mstatusWriteMask cfg).getLsbD i then (h.mretWritten cfg).getLsbD i
        else (h.reg .mstatus).getLsbD i := by
  rw [getLsbD_newMstatus, getLsbD_setField_mpp _ _ i hi, if_neg h11, if_neg h12]

/-- No field beside the stack changes, and with the state fields `SD` stays as well. -/
theorem mret_others (wf : WellFormed cfg h) {i : Nat} (hi : i < 64) (hn : i ∉ mretBits) :
    (cfg.adjustSd (h.newMstatus cfg (h.mretWritten cfg))).getLsbD i =
      (h.reg .mstatus).getLsbD i := by
  have hbit (j : Nat) (hj : j < 64) (hn : j ∉ mretBits) :
      (h.newMstatus cfg (h.mretWritten cfg)).getLsbD j = (h.reg .mstatus).getLsbD j := by
    rw [getLsbD_newMstatus_mretWritten hj (fun h11 => hn (by simp [mretBits, h11]))
      (fun h12 => hn (by simp [mretBits, h12])), getLsbD_mretWritten_other hj hn, ite_self]
  by_cases hsd : i = cfg.isa.xlen.bits - 1
  · -- `SD` follows the state fields, which lie beside the stack
    have hstate : h.newMstatus cfg (h.mretWritten cfg) &&& 0x1E600#64 = h.reg .mstatus &&&
        0x1E600#64 := by
      apply BitVec.eq_of_getLsbD_eq
      intro j hj
      rw [BitVec.getLsbD_and, BitVec.getLsbD_and]
      by_cases hmem : j ∈ mretBits
      · have hout : (0x1E600#64).getLsbD j = false := by
          revert j
          decide
        rw [hout, Bool.and_false, Bool.and_false]
      · rw [hbit j hj hmem]
    rw [← wf.regs.sd, hsd, Config.getLsbD_adjustSd_sd, Config.getLsbD_adjustSd_sd, decide_eq_decide]
    exact Config.someDirty_congr hstate
  · rw [cfg.getLsbD_adjustSd _ i hi hsd, hbit i hi hn]

/-! ### The fields of the stack -/

/-- `mret` in M, in terms of what is written. -/
theorem mret_written (cfg : Config) (hp : h.prv = prvM) : ∃ h₂, h.mret cfg = .ok h₂ ∧
    h₂.prv = h.legalizePrivilege (getField (h.reg .mstatus) mstatusMpp) ∧
    h₂.v = (if h₂.prv = prvM then h.v else (h.reg .mstatus).getLsbD 39) ∧
    h₂.reg .mstatus = cfg.adjustSd (h.newMstatus cfg (h.mretWritten cfg)) := by
  obtain ⟨h₂, hret, -, hprv, hv, hs⟩ := mret_spec cfg hp
  refine ⟨h₂, hret, hprv, hv, ?_⟩
  rw [hs, putCsr_mstatus, reg_mstatusWrite, Function.update_self]
  rfl

/-- `MPV` arrives on RV64 only. -/
theorem mret_mpv (wf : WellFormed cfg h) :
    (cfg.adjustSd (h.newMstatus cfg (h.mretWritten cfg))).getLsbD 39 =
      (!(cfg.isa.xlen == .rv64) && (h.reg .mstatus).getLsbD 39) := by
  rw [cfg.getLsbD_adjustSd _ 39 (by decide) (cfg.ne_sd (by decide) (by decide)),
    getLsbD_newMstatus_mretWritten (by decide) (by decide) (by decide), mstatusWriteMask_mpv,
    getLsbD_mretWritten_high (by decide) (by decide), getLsbD_mretMstatus _ 39 (by decide),
    if_pos rfl]
  cases hh : h.extensionEnabled .h with
  | false =>
    rw [wf.regs.mpv hh]
    simp
  | true => cases cfg.isa.xlen <;> simp

/-- `MPRV` is kept on a return to M only. -/
theorem mret_mprv (wf : WellFormed cfg h) :
    (cfg.adjustSd (h.newMstatus cfg (h.mretWritten cfg))).getLsbD 17 =
      ((h.reg .mstatus).getLsbD 17 && h.legalizePrivilege (getField (h.reg .mstatus) mstatusMpp) ==
        prvM) := by
  have hmask : (h.mstatusWriteMask cfg).getLsbD 17 = h.extensionEnabled .u := by
    simp [mstatusWriteMask_eq, sstatusWriteMask_eq, getElem_ite]
  rw [cfg.getLsbD_adjustSd _ 17 (by decide) (cfg.ne_sd (by decide) (by decide)),
    getLsbD_newMstatus_mretWritten (by decide) (by decide) (by decide), hmask,
    getLsbD_mretWritten_low (by decide), getLsbD_mretMstatus _ 17 (by decide)]
  cases hu : h.extensionEnabled .u with
  | false =>
    -- without U every return goes to M, and `MPRV` cannot be written
    rw [legalizePrivilege, hu]
    simp
  | true =>
    have hlegal := legalizePrivilege_implemented wf (wf.regs.mpp (wf.regs.enabled_u ▸ hu))
    rw [hlegal]
    simp

/-- `MPP` is the least privileged level. -/
theorem mret_mpp (wf : WellFormed cfg h) :
    getField (cfg.adjustSd (h.newMstatus cfg (h.mretWritten cfg))) mstatusMpp =
      cfg.leastPrivilege := by
  have hwritten : getField (h.mretWritten cfg) mstatusMpp = cfg.leastPrivilege := by
    have hbit : ∀ i ∈ [11, 12], ∀ hi : i < 64,
        (h.mretWritten cfg).getLsbD i = !h.extensionEnabled .u := by
      intro i hmem hi
      have hcase : i = 11 ∨ i = 12 := by simpa using hmem
      rw [getLsbD_mretWritten_low (by omega), getLsbD_mretMstatus _ i hi,
        if_neg (by omega), if_pos hcase]
    have heq : getField (h.mretWritten cfg) mstatusMpp =
        getField (if h.extensionEnabled .u then 0#64 else mstatusMpp) mstatusMpp := by
      apply getField_mpp_congr
      · rw [hbit 11 (by decide) (by decide)]
        cases h.extensionEnabled .u <;> rfl
      · rw [hbit 12 (by decide) (by decide)]
        cases h.extensionEnabled .u <;> rfl
    rw [heq, Config.leastPrivilege, wf.regs.enabled_u]
    cases cfg.isa.table .u <;> rfl
  have himpl : cfg.Implemented cfg.leastPrivilege := by
    rw [Config.leastPrivilege]
    split
    · rename_i hu
      exact .inr (.inr ⟨rfl, hu⟩)
    · exact .inl rfl
  rw [getField_newMstatus_mpp, hwritten, legalizePrivilege_implemented wf himpl, himpl.and_three]

/-- All fields but `MPV`, on either width. -/
theorem mret_fields (wf : WellFormed cfg h) {h₂ : Hart}
    (hprv : h₂.prv = h.legalizePrivilege (getField (h.reg .mstatus) mstatusMpp))
    (hs : h₂.reg .mstatus = cfg.adjustSd (h.newMstatus cfg (h.mretWritten cfg)))
    (hv : (h₂.reg .mstatus).getLsbD 39 = false) : MretSpec cfg h h₂ where
  mpp := by rw [hs, mret_mpp wf]
  mpie := by
    rw [hs, cfg.getLsbD_adjustSd _ 7 (by decide) (cfg.ne_sd (by decide) (by decide)),
      getLsbD_newMstatus_mretWritten (by decide) (by decide) (by decide),
      mstatusWriteMask_mpie, if_pos rfl,
      getLsbD_mretWritten_low (by decide), getLsbD_mretMstatus _ 7 (by decide)]
    rfl
  mpv := hv
  mie := by
    rw [hs, cfg.getLsbD_adjustSd _ 3 (by decide) (cfg.ne_sd (by decide) (by decide)),
      getLsbD_newMstatus_mretWritten (by decide) (by decide) (by decide),
      mstatusWriteMask_mie, if_pos rfl,
      getLsbD_mretWritten_low (by decide), getLsbD_mretMstatus _ 3 (by decide)]
    rfl
  mprv := by rw [hs, hprv, mret_mprv wf]
  others := fun i hi hn => by rw [hs, mret_others wf hi hn]

/-- With `MPV` clear and `MPP` the least privileged level, a return goes to `V = 0`. -/
theorem secondMret (hmpp : getField (h.reg .mstatus) mstatusMpp = cfg.leastPrivilege)
    (hmpv : (h.reg .mstatus).getLsbD 39 = false) : SecondMret cfg h := by
  intro h₃ h₄ hr hp hs hret
  have wf := hr.wellFormed
  obtain ⟨h₄', hret', hprv, hv, -⟩ := mret_written cfg hp
  obtain rfl : h₄' = h₄ := Except.ok.inj (hret'.symm.trans hret)
  rw [hs, hmpp] at hprv
  rw [hv]
  split
  · rename_i hm
    rw [hprv, Config.leastPrivilege] at hm
    cases hu : cfg.isa.table .u with
    | true =>
      rw [hu, if_pos rfl, legalizePrivilege_implemented wf (.inr (.inr ⟨rfl, hu⟩))] at hm
      exact absurd hm (by decide)
    | false =>
      -- a configuration without U has no H either
      refine Bool.eq_false_iff.2 fun hv => ?_
      have := cfg.isa.u_of_s (cfg.isa.s_of_h (wf.virt hv))
      rw [hu] at this
      exact absurd this (by decide)
  · rw [hs, hmpv]

/-- **`mret` pops the stack of `mstatus`** exactly on RV64 and, on RV32, from a state in which `MPV`
was clear already: there the value that is computed reaches the lower half of the register only. -/
theorem mretSpec_iff (hr : Reachable cfg h) (hp : h.prv = prvM) :
    (∃ h₂, h.mret cfg = .ok h₂ ∧ MretSpec cfg h h₂ ∧ SecondMret cfg h₂) ↔
      cfg.isa.xlen = .rv64 ∨ hasBits (h.reg .mstatus) mstatusMpv = false := by
  have wf := hr.wellFormed
  obtain ⟨h₂, hret, hprv, -, hs⟩ := mret_written cfg hp
  have hmpv := mret_mpv wf
  rw [← hs] at hmpv
  rw [mstatusMpv_eq, hasBits_twoPow (by decide), ← BitVec.getLsbD_eq_getElem]
  constructor
  · rintro ⟨h₂', hret', spec, -⟩
    obtain rfl : h₂ = h₂' := Except.ok.inj (hret.symm.trans hret')
    cases hx : cfg.isa.xlen with
    | rv64 => exact .inl rfl
    | rv32 =>
      rw [spec.mpv, hx] at hmpv
      exact .inr hmpv.symm
  · intro hcase
    have hclear : (h₂.reg .mstatus).getLsbD 39 = false := by
      rw [hmpv]
      obtain hx | hm := hcase
      · rw [hx]
        rfl
      · rw [hm, Bool.and_false]
    have spec := mret_fields wf hprv hs hclear
    exact ⟨h₂, hret, spec, secondMret spec.mpp spec.mpv⟩

/-- The first return of a hart on RV64. -/
theorem mretSpec_iff_rv64h :
    (∃ h₂, (init rv64h false).mret rv64h = .ok h₂ ∧ MretSpec rv64h (init rv64h false) h₂ ∧
      SecondMret rv64h h₂) ↔
      rv64h.isa.xlen = .rv64 ∨ hasBits ((init rv64h false).reg .mstatus) mstatusMpv = false :=
  mretSpec_iff ⟨false, [], rfl⟩ rfl

/-- On RV32 a return to VS, after `MPV` was set through `mstatush`, leaves it set. -/
theorem mretSpec_fails :
    ∃ h, Reachable rv32h h ∧ h.prv = prvM ∧ ¬ ∃ h₂, h.mret rv32h = .ok h₂ ∧
    MretSpec rv32h h h₂ := by
  refine ⟨_, ⟨false, [.csr 0x300 (.set 0x800#64) 0#64, .csr 0x310 (.set 0x80#64) 0#64], rfl⟩,
    by decide, ?_⟩
  rintro ⟨h₂, hret, spec⟩
  have hbit : (Except.ok h₂ : Except Refusal Hart).toOption.map
    (fun h => (h.reg .mstatus).getLsbD 39) =
      some true := by
    rw [← hret]
    decide
  exact absurd ((congrArg some spec.mpv).symm.trans hbit) (by decide)

end Hart

end Nnemu

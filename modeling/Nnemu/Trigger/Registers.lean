import Nnemu.Loop.Quiet

/-!
# What can change a trigger

Of all that happens to a hart only writes to `tdata1`, `tdata2` and `tdata3` change its triggers,
besides the detections themselves: no other CSR write does, and no trap, return or debug entry.

The CSRs `tdata1`, `tdata2` and `tdata3` reach the list through `tselect`. Everything else keeps the
list, which is proved with the frames of the hart, and this is used wherever a property of triggers
is to hold along a run.
-/

namespace Nnemu

/-- Is the entry one of the trigger registers, or made of one? -/
def CsrObj.writesTriggers : CsrObj → Bool
  | .tdata1 | .tdata2 | .tdata3 => true
  | .virtualized orig virt => orig.writesTriggers || virt.writesTriggers
  | .rv32Low orig => orig.writesTriggers
  | .rv32High orig => orig.writesTriggers
  | .counterProxy _ delegate => delegate.writesTriggers
  | .proxy _ delegate => delegate.writesTriggers
  | .composite upper lower _ => upper.writesTriggers || lower.writesTriggers
  | _ => false

/-- The entry leaves the triggers alone, or is one of their registers. -/
def CsrObj.triggersKnown (o : CsrObj) : Bool :=
  match o with
  | .tdata1 | .tdata2 | .tdata3 => true
  | o => !o.writesTriggers

namespace Hart

variable {cfg : Config} {h h' : Hart}

/-! ### Registers that hold a value -/

theorem triggers_maybeFlushTlb (newval old : Reg) :
    (h.maybeFlushTlb cfg newval old).triggers = h.triggers :=
  (SameDebug.maybeFlushTlb h newval old).triggers

theorem triggers_mstatusWrite (val : Reg) : (h.mstatusWrite cfg val).triggers = h.triggers :=
  (SameDebug.mstatusWrite h val).triggers

theorem triggers_vsstatusWrite (val : Reg) : (h.vsstatusWrite cfg val).triggers = h.triggers := by
  show (if h.v then h.maybeFlushTlb cfg _ _ else h).triggers = h.triggers
  split
  · exact triggers_maybeFlushTlb _ _
  · rfl

theorem triggers_dirty (dirties : Reg) : (h.dirty cfg dirties).triggers = h.triggers := by
  rw [Hart.dirty]
  split
  · rfl
  · have habort : (if h.sstatusEnabled cfg dirties then h else h.abort).triggers = h.triggers := by
      split <;> rfl
    generalize (if h.sstatusEnabled cfg dirties then h else h.abort) = h₁ at habort
    have hproxy (val : Reg) : (h₁.sstatusProxyWrite cfg val).triggers = h.triggers :=
      (triggers_mstatusWrite _).trans habort
    dsimp only
    split
    · exact (triggers_vsstatusWrite _).trans (hproxy _)
    · exact hproxy _

theorem triggers_vectorWrite (mask val : Reg) (c : Csr) :
    (h.vectorWrite cfg mask c val).triggers = h.triggers := by
  rw [Hart.vectorWrite]
  split
  · rfl
  · exact triggers_dirty _

theorem triggers_clearHypervisor : (h.clearHypervisor cfg).triggers = h.triggers := by
  have hmnpv (h : Hart) : (h.clearMnpv cfg).triggers = h.triggers := by
    rw [clearMnpv]
    split <;> rfl
  have hfold (l : List (Fin 29)) (h : Hart) : (l.foldl (fun h i =>
      h.meventWrite cfg i (h.reg (.mevent i) &&& ~~~0x0C00000000000000#64)) h).triggers =
        h.triggers := by
    induction l generalizing h with
    | nil => rfl
    | cons i l ih => exact ih _
  unfold clearHypervisor
  extract_lets h₁ h₂ newMstatus h₃ h₄ h₅ h₆ h₇
  calc (List.foldl _ h₇ _).triggers
    _ = h₄.triggers := hfold _ h₇
    _ = h₃.triggers := (SameDebug.mstatushWrite h₃ _).triggers
    _ = h₂.triggers := triggers_mstatusWrite _
    _ = h₁.triggers := hmnpv h₁
    _ = h.triggers := rfl

theorem triggers_misaWrite (val : Reg) : (h.misaWrite cfg val).triggers = h.triggers := by
  have hext : (h.updateExtensions cfg (h.newMisa cfg val)).triggers = h.triggers := by
    obtain ⟨ext, heq⟩ := Frame.updateExtensions_eq cfg h (h.newMisa cfg val)
    rw [heq]
  obtain ⟨heq, -⟩ | ⟨heq, -⟩ | ⟨heq, -⟩ := misaWrite_cases cfg h val
  · rw [heq]
  · rw [heq]
    exact hext
  · rw [heq]
    show ((h.updateExtensions cfg (h.newMisa cfg val)).clearHypervisor cfg).triggers = h.triggers
    rw [triggers_clearHypervisor, hext]

theorem triggers_baseAtpWrite (c : Csr) (val : Reg) :
    (h.baseAtpWrite cfg c val).triggers = h.triggers := by
  have flush {b : Prop} [Decidable b] : (if b then h.flushTlb else h).triggers = h.triggers := by
    split <;> rfl
  exact flush

/-- A write to an object that holds a value. -/
theorem triggers_write (val : Reg) (c : Csr) : (h.write cfg val c).triggers = h.triggers := by
  cases c with
  | misa => exact triggers_misaWrite val
  | mstatus => exact triggers_mstatusWrite val
  | vsstatus => exact triggers_vsstatusWrite val
  | satp => exact triggers_baseAtpWrite _ val
  | vsatp => exact triggers_baseAtpWrite _ val
  | fflags => exact triggers_dirty _
  | frm => exact triggers_dirty _
  | vxsat => exact triggers_dirty _
  | vstart => exact triggers_vectorWrite _ val _
  | vxrm => exact triggers_vectorWrite _ val _
  | vl => exact triggers_vectorWrite _ val _
  | vtype => exact triggers_vectorWrite _ val _
  | vlenb => exact triggers_vectorWrite _ val _
  | _ => rfl

/-! ### Entries -/

/-- **Other registers.** A write to an entry that is not a trigger register. -/
theorem triggers_writeObj (o : CsrObj) (ho : o.writesTriggers = false) :
    ∀ (h : Hart) (val : Reg), (h.writeObj cfg val o).triggers = h.triggers := by
  have pmp (h : Hart) (p : Option Pmp) : (h.pmpWrite p).triggers = h.triggers := by
    cases p <;> rfl
  induction o with
  | plain c => exact fun h val => triggers_write val c
  | sstatusProxy => exact fun h val => triggers_mstatusWrite _
  | tdata1 => exact absurd ho (by decide)
  | tdata2 => exact absurd ho (by decide)
  | tdata3 => exact absurd ho (by decide)
  | pmpaddr i => exact fun h val => pmp h _
  | pmpcfg n => exact fun h val => pmp h _
  | mseccfg => exact fun h val => pmp h _
  | virtualized orig virt ihOrig ihVirt =>
    obtain ⟨hOrig, hVirt⟩ := Bool.or_eq_false_iff.1 ho
    intro h val
    rw [writeObj]
    split
    · exact ihVirt hVirt h val
    · exact ihOrig hOrig h val
  | virtualizedSatp =>
    intro h val
    rw [writeObj]
    split
    · exact triggers_write _ .vsatp
    · exact triggers_write _ .satp
  | virtualizedStimecmp =>
    intro h val
    rw [writeObj]
    split <;> rfl
  | rv32Low orig ih => exact fun h val => ih ho h _
  | rv32High orig ih => exact fun h val => ih ho h _
  | counterProxy _ delegate ih => exact fun h val => ih ho h val
  | proxy _ delegate ih => exact fun h val => ih ho h val
  | composite upper lower lsb ihUpper ihLower =>
    obtain ⟨hUpper, hLower⟩ := Bool.or_eq_false_iff.1 ho
    exact fun h val => (ihLower hLower _ _).trans (ihUpper hUpper h _)
  | _ => exact fun h val => rfl

theorem triggersKnown_full (cfg : Config) :
    (csrmap cfg.full).all (fun e => e.2.triggersKnown) = true := by
  obtain ⟨⟨xlen, table, exts, hu, hs⟩, impl, id, big, count, pmp, vlen, vlenb⟩ := cfg
  cases xlen <;> cases count <;>
    exact all_csrmap _ rfl rfl rfl rfl rfl rfl rfl (fun _ => rfl) rfl rfl rfl
      (fun _ => rfl) fun _ => rfl

/-- An entry of the map is a trigger register or has nothing to do with them. -/
theorem triggers_csrFind {which : Nat} {o : CsrObj} (ho : csrFind cfg which = some o) :
    o.writesTriggers = false ∨ o = .tdata1 ∨ o = .tdata2 ∨ o = .tdata3 := by
  have hknown : o.triggersKnown = true :=
    List.all_eq_true.1 (triggersKnown_full cfg) _ (mem_of_csrFind cfg ho)
  cases o with
  | tdata1 => exact .inr (.inl rfl)
  | tdata2 => exact .inr (.inr (.inl rfl))
  | tdata3 => exact .inr (.inr (.inr rfl))
  | _ => exact .inl (by simpa [CsrObj.triggersKnown] using hknown)

/-! ### Events -/

/-- A trap leaves the triggers: the detections before it are those of the loop. -/
theorem triggers_takeTrap (t : Trap) (epc : Reg) : (h.takeTrap cfg t epc).triggers = h.triggers :=
  (SameDebug.takeTrap h t epc).triggers

theorem triggers_refused (bits : Reg) (e : Refusal) :
    (h.refused cfg bits e).triggers = h.triggers := by
  cases e with
  | illegal => exact triggers_takeTrap _ _
  | virtual => exact triggers_takeTrap _ _
  | crash => rfl

/-- A return that may be refused. -/
theorem triggers_orRefused (bits : Reg) {r : Except Refusal Hart}
    (hr : ∀ h', r = .ok h' → h'.triggers = h.triggers) :
    (h.orRefused cfg bits r).triggers = h.triggers := by
  cases r with
  | ok h' => exact hr h' rfl
  | error e => exact triggers_refused bits e

theorem triggers_setVirt (virt : Bool) : (h.setVirt virt).triggers = h.triggers :=
  (SameDebug.setVirt h virt).triggers

theorem triggers_mret (hok : h.mret cfg = .ok h') : h'.triggers = h.triggers := by
  unfold Hart.mret at hok
  split at hok
  · cases hok
  · extract_lets h₁ s h₂ h₃ at hok
    obtain rfl := Except.ok.inj hok
    have hput : h₂.triggers = h.triggers := by
      show (h₁.putCsr cfg 0x300 _).triggers = h₁.triggers
      rw [putCsr_mstatus]
      exact triggers_mstatusWrite _
    have hthree : h₃.triggers = h.triggers := (SameDebug.setPrivilege h₂ _).triggers.trans hput
    rw [triggers_setVirt]
    exact hthree

theorem triggers_sret (hok : h.sret cfg = .ok h') : h'.triggers = h.triggers := by
  unfold Hart.sret at hok
  split at hok
  · cases hok
  · extract_lets prevHstatus h₁ s h₂ h₃ h₄ at hok
    have htwo : h₂.triggers = h₁.triggers := (SameDebug.sstatusWrite h₁ _).triggers
    have hthree : h₃.triggers = h.triggers := (SameDebug.setPrivilege h₂ _).triggers.trans htwo
    have hfour : h₄.triggers = h.triggers := by
      show (if _ then _ else _ : Hart).triggers = _
      split
      · exact (triggers_setVirt _).trans hthree
      · exact hthree
    split at hok
    · obtain rfl := Except.ok.inj hok
      exact hthree
    · obtain rfl := Except.ok.inj hok
      rw [triggers_mstatusWrite]
      exact hfour

theorem triggers_mnret (hok : h.mnret cfg = .ok h') : h'.triggers = h.triggers := by
  unfold Hart.mnret at hok
  split at hok
  · cases hok
  split at hok
  · cases hok
  · extract_lets h₁ s prevPrv h₂ h₃ h₄ at hok
    obtain rfl := Except.ok.inj hok
    have htwo : h₂.triggers = h.triggers := by
      show (if _ then _ else _ : Hart).triggers = _
      split
      · exact triggers_mstatusWrite _
      · rfl
    have hthree : h₃.triggers = h.triggers := (SameDebug.set h₂ .mnstatus _).triggers.trans htwo
    have hfour : h₄.triggers = h.triggers := (SameDebug.setPrivilege h₃ _).triggers.trans hthree
    rw [triggers_setVirt]
    exact hfour

theorem triggers_dret (hok : h.dret cfg = .ok h') : h'.triggers = h.triggers := by
  unfold Hart.dret at hok
  split at hok
  · cases hok
  · extract_lets h₁ h₂ h₃ h₄ at hok
    obtain rfl := Except.ok.inj hok
    have hfour : h₄.triggers = h.triggers := by
      show (if _ then _ else _ : Hart).triggers = _
      split
      · exact triggers_mstatusWrite _
      · rfl
    split
    · exact hfour
    · exact hfour

theorem triggers_enterDebugMode (cause : Reg) :
    (h.enterDebugMode cfg cause).triggers = h.triggers := by
  unfold Hart.enterDebugMode
  extract_lets dcsr h₁ h₂ h₃
  have hwrite : h₃.triggers = h₂.triggers := triggers_write _ _
  exact hwrite

theorem triggers_takePendingInterrupt : (h.takePendingInterrupt cfg).triggers = h.triggers := by
  unfold Hart.takePendingInterrupt
  extract_lets pending awake
  have hawake : awake.triggers = h.triggers := by
    show (if _ then _ else _ : Hart).triggers = _
    split <;> rfl
  split
  · exact hawake
  · exact (triggers_takeTrap _ _).trans hawake
  · exact hawake

theorem triggers_timeSync (mtime : Reg) : (h.timeSync mtime).triggers = h.triggers := by
  unfold Hart.timeSync
  extract_lets h₁ mipVal
  split <;> rfl

theorem triggers_reset (halt : Bool) : (Hart.reset cfg h halt).triggers = h.triggers := by
  unfold Hart.reset
  extract_lets h₁ h₂
  split
  · exact (triggers_writeObj (.pmpcfg 0) rfl _ _).trans (triggers_writeObj (.pmpaddr 0) rfl _ _)
  · rfl

/-- The events that are neither CSR instructions nor detections. -/
def Untriggering : HartOp → Prop
  | .csr _ _ _ | .triggers _ => False
  | _ => True

/-- **Other events.** What is neither a CSR instruction nor a detection leaves the triggers
alone. -/
theorem triggers_event {op : HartOp} (hop : Untriggering op) :
    (h.event cfg op).triggers = h.triggers := by
  cases op with
  | csr which insn bits => exact absurd hop id
  | triggers ts => exact absurd hop id
  | mret bits => exact triggers_orRefused bits fun _ => triggers_mret
  | sret bits => exact triggers_orRefused bits fun _ => triggers_sret
  | mnret bits => exact triggers_orRefused bits fun _ => triggers_mnret
  | dret bits => exact triggers_orRefused bits fun _ => triggers_dret
  | retire npc => rfl
  | dirty state =>
    show (if _ then _ else _ : Hart).triggers = _
    split
    · exact triggers_dirty _
    · rfl
  | exception code gva tval tval2 tinst => exact triggers_takeTrap _ _
  | interrupt => exact triggers_takePendingInterrupt
  | enterDebug cause => exact triggers_enterDebugMode cause
  | wfi => rfl
  | bump instret => rfl
  | timeSync mtime => exact triggers_timeSync mtime
  | pin p level => rfl
  | reset halt => exact triggers_reset halt

/-- **CSR instructions.** One that is no write to a trigger register leaves the triggers alone. -/
theorem triggers_csr (which : Nat) (insn : CsrInsn) (bits : Reg) :
    (h.event cfg (.csr which insn bits)).triggers = h.triggers ∨
      ∃ o val, h.Writes cfg which insn o val ∧ (o = .tdata1 ∨ o = .tdata2 ∨ o = .tdata3) ∧
        (h.event cfg (.csr which insn bits)).triggers = (h.writeObj cfg val o).triggers := by
  show (h.orRefused cfg bits (h.csrInsn cfg which insn)).triggers = _ ∨ _
  cases hok : h.csrInsn cfg which insn with
  | error e => exact .inl (triggers_refused bits e)
  | ok h' =>
    obtain ⟨h₁, rfl, rfl | ⟨o, val, w, rfl⟩⟩ := csrInsn_cases hok
    · exact .inl rfl
    · obtain ho | ho := triggers_csrFind w.find
      · exact .inl (triggers_writeObj o ho h val)
      · refine .inr ⟨o, val, w, ho, ?_⟩
        show (h.orRefused cfg bits (h.csrInsn cfg which insn)).triggers = _
        rw [hok]
        rfl

/-! ### Updates -/

/-- Where the trigger registers are. -/
theorem triggersPlaced_full (cfg : Config) :
    (csrmap cfg.full).all
      (fun e => !e.2.writesTriggers || decide (e.1 ∈ [0x7a1, 0x7a2, 0x7a3])) = true := by
  obtain ⟨⟨xlen, table, exts, hu, hs⟩, impl, id, big, count, pmp, vlen, vlenb⟩ := cfg
  cases xlen <;> cases count <;>
    exact all_csrmap _ rfl rfl rfl rfl rfl rfl rfl (fun _ => rfl) rfl rfl rfl (fun _ => rfl)
      fun _ => rfl

/-- **A write to a CSR** leaves the triggers alone, or is one to a register of theirs and flushes
the TLB. -/
theorem triggers_putCsr (h : Hart) (which : Nat) (val : Reg) :
    (h.putCsr cfg which val).triggers = h.triggers ∨
      which ∈ [0x7a1, 0x7a2, 0x7a3] ∧ (h.putCsr cfg which val).tlbFlushes ≠ h.tlbFlushes := by
  have hwrite (ts : Option Triggers) : (h.triggersWrite ts).triggers = h.triggers ∨
      (h.triggersWrite ts).tlbFlushes ≠ h.tlbFlushes := by
    cases ts with
    | none => exact .inl rfl
    | some ts => exact .inr (Nat.succ_ne_self _)
  rw [putCsr]
  cases hfind : csrFind cfg which with
  | none => exact .inl rfl
  | some o =>
    dsimp only
    cases hwrites : o.writesTriggers with
    | false => exact .inl (triggers_writeObj o hwrites h _)
    | true =>
      have hplace := List.all_eq_true.1 (triggersPlaced_full cfg) _ (mem_of_csrFind cfg hfind)
      rw [hwrites, Bool.not_true, Bool.false_or, decide_eq_true_eq] at hplace
      obtain hno | rfl | rfl | rfl := triggers_csrFind hfind
      · rw [hwrites] at hno
        cases hno
      · exact (hwrite _).imp id fun hne => ⟨hplace, hne⟩
      · exact (hwrite _).imp id fun hne => ⟨hplace, hne⟩
      · exact (hwrite _).imp id fun hne => ⟨hplace, hne⟩

theorem triggers_csrInsn {which : Nat} {insn : CsrInsn} (hok : h.csrInsn cfg which insn = .ok h') :
    h'.triggers = h.triggers ∨ which ∈ [0x7a1, 0x7a2, 0x7a3] ∧ h'.tlbFlushes ≠ h.tlbFlushes := by
  rw [csrInsn] at hok
  cases hget : h.getCsr cfg which insn.writes with
  | error e =>
    rw [hget] at hok
    cases hok
  | ok old =>
    rw [hget] at hok
    cases hok
    cases csrInsnValue insn old with
    | none => exact .inl rfl
    | some val =>
      have hput := @triggers_putCsr cfg h which val
      dsimp only
      generalize h.putCsr cfg which val = h₁ at hput ⊢
      exact hput

end Hart

end Nnemu

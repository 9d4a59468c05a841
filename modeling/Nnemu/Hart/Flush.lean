import Nnemu.Hart.Frame
import Nnemu.Hart.Status
import Nnemu.Hart.Translation
import Nnemu.Hart.Vector
import Nnemu.Mmu.Later

/-!
# What the TLB is flushed for

A TLB is right for one mode, one set of tables and one set of rules. `SameView` is two harts'
agreeing in these, and a step `Flushes` when it counts a flush or keeps them. Every event does
(`flushes_event`): most writes are to registers that translation does not read, and those to the
others call `flush_tlb` where they make a difference. Three fields are read and not flushed for:
`mnstatus.NMIE`, which puts `mstatus.MPRV` into effect, and `PBMTE` and `HADE` of `menvcfg` and
`henvcfg`, without which bits of page-table entries are reserved and A and D bits are not updated.
Where these are as they were (`SameUnflushed`), addresses translate as they did (`unflushed_run`).
For the TLB less is enough (`Unseen`): its entries stay right when `PBMTE` is set, and when `HADE`
changes.

The proof has the shape of `Hart.Frame`: one lemma for each class of objects, one for each trap and
return, and the cases put together at the end. A write that calls `flush_tlb` counts a flush, and
then nothing more is asked; for the others it is shown that the fields in the view are the same, for
`mstatus` with the mask that `maybe_flush_tlb` compares under.
-/

namespace Nnemu

/-- The fields of `mstatus` and `vsstatus` that translation reads: MPP, MPRV, SUM and MXR. -/
def mstatusView : Reg :=
  mstatusMpp ||| mstatusMprv ||| (mstatusMxr ||| mstatusSum)

/-- The registers for which `flush_tlb` is called. -/
def Csr.viewed : Csr → Bool
  | mstatus => true
  | vsstatus => true
  | satp => true
  | vsatp => true
  | hgatp => true
  | _ => false

/-- The events that go through functions of the hart. Detection, which only sets `hit` bits and
counts, belongs to accesses, and a reset starts the counting again. -/
def HartOp.Runs : HartOp → Prop
  | .triggers _ => False
  | .reset _ => False
  | _ => True

instance : DecidablePred HartOp.Runs
  | .triggers _ => .isFalse id
  | .reset _ => .isFalse id
  | .csr .. | .mret _ | .sret _ | .mnret _ | .dret _ | .retire _ | .dirty
      _ | .exception .. | .interrupt
  | .enterDebug _ | .wfi | .bump _ | .timeSync _ | .pin .. => .isTrue trivial

namespace Hart

/-- What entries of the TLB depend on is the same. -/
structure SameView (h h' : Hart) : Prop where
  prv : h'.prv = h.prv
  v : h'.v = h.v
  debugMode : h'.debugMode = h.debugMode
  builtWithMmu : h'.builtWithMmu = h.builtWithMmu
  triggers : h'.triggers = h.triggers
  pmp : h'.pmp = h.pmp
  svnapot : h'.extTable .svnapot = h.extTable .svnapot
  satp : h'.reg .satp = h.reg .satp
  vsatp : h'.reg .vsatp = h.reg .vsatp
  hgatp : h'.reg .hgatp = h.reg .hgatp
  mstatus : h'.reg .mstatus &&& mstatusView = h.reg .mstatus &&& mstatusView
  vsstatus : h.v = true → h'.reg .vsstatus &&& mstatusView = h.reg .vsstatus &&& mstatusView

namespace SameView

variable {h h' h'' : Hart}

theorem refl (h : Hart) : SameView h h :=
  ⟨rfl, rfl, rfl, rfl, rfl, rfl, rfl, rfl, rfl, rfl, rfl, fun _ => rfl⟩

theorem trans (s : SameView h h') (s' : SameView h' h'') : SameView h h'' where
  prv := s'.prv.trans s.prv
  v := s'.v.trans s.v
  debugMode := s'.debugMode.trans s.debugMode
  builtWithMmu := s'.builtWithMmu.trans s.builtWithMmu
  triggers := s'.triggers.trans s.triggers
  pmp := s'.pmp.trans s.pmp
  svnapot := s'.svnapot.trans s.svnapot
  satp := s'.satp.trans s.satp
  vsatp := s'.vsatp.trans s.vsatp
  hgatp := s'.hgatp.trans s.hgatp
  mstatus := s'.mstatus.trans s.mstatus
  vsstatus hv := (s'.vsstatus (s.v.trans hv)).trans (s.vsstatus hv)

/-- A write to a register that is not viewed. -/
theorem set {c : Csr} (hc : c.viewed = false) (val : Reg) : SameView h (h.set c val) := by
  have hreg {c' : Csr} (hc' : c'.viewed = true) : (h.set c val).reg c' = h.reg c' := by
    have hne : c' ≠ c := by
      rintro rfl
      exact absurd (hc'.symm.trans hc) (by decide)
    rw [reg_set, if_neg hne]
  exact ⟨rfl, rfl, rfl, rfl, rfl, rfl, rfl, hreg rfl, hreg rfl, hreg rfl,
    by rw [hreg rfl], fun _ => by rw [hreg rfl]⟩

end SameView

/-- A step counts a flush, or what entries of the TLB depend on is the same. -/
structure Flushes (h h' : Hart) : Prop where
  le : h.tlbFlushes ≤ h'.tlbFlushes
  view : h'.tlbFlushes = h.tlbFlushes → SameView h h'

namespace Flushes

variable {cfg : Config} {h h' h'' : Hart}

theorem of_sameView (hcount : h'.tlbFlushes = h.tlbFlushes) (s : SameView h h') : Flushes h h' :=
  ⟨hcount.ge, fun _ => s⟩

theorem of_lt (hlt : h.tlbFlushes < h'.tlbFlushes) : Flushes h h' :=
  ⟨hlt.le, fun hcount => absurd hcount hlt.ne'⟩

theorem refl (h : Hart) : Flushes h h :=
  of_sameView rfl (.refl h)

theorem trans (f : Flushes h h') (g : Flushes h' h'') : Flushes h h'' where
  le := f.le.trans g.le
  view := by
    intro hcount
    have hf := f.le
    have hg := g.le
    exact (f.view (by omega)).trans (g.view (by omega))

theorem ite {b : Prop} [Decidable b] (f : Flushes h h') (g : Flushes h h'') :
    Flushes h (if b then h' else h'') := by
  split
  · exact f
  · exact g

theorem set {c : Csr} (hc : c.viewed = false) (val : Reg) : Flushes h (h.set c val) :=
  of_sameView rfl (.set hc val)

/-- A flush, whatever is set after it. -/
theorem set_flushTlb (c : Csr) (val : Reg) : Flushes h (h.flushTlb.set c val) :=
  of_lt (Nat.lt_succ_self _)

theorem setPrivilege (prv : Reg) : Flushes h (h.setPrivilege prv) :=
  of_lt (Nat.lt_succ_self _)

/-! ### Status registers -/

/-- Where there is no flush the new value shows the same. -/
theorem maybeFlushTlb {newval old : Reg}
    (hkeep : h.hasPage cfg = false → newval &&& (mstatusMxr ||| mstatusSum) = old &&&
      (mstatusMxr ||| mstatusSum)) :
    h.maybeFlushTlb cfg newval old = h.flushTlb ∨
      h.maybeFlushTlb cfg newval old = h ∧ newval &&& mstatusView = old &&& mstatusView := by
  by_cases hflush : hasBits (newval ^^^ old)
      (mstatusMpp ||| mstatusMprv ||| (if h.hasPage cfg then mstatusMxr ||| mstatusSum else 0#64)) =
        true
  · exact .inl (if_pos hflush)
  · refine .inr ⟨if_neg hflush, ?_⟩
    rw [hasBits, bne_iff_ne, not_not] at hflush
    have hsame := Bits.and_eq_of_xor_and hflush
    cases hpage : h.hasPage cfg with
    | true =>
      rw [hpage, if_pos rfl] at hsame
      exact hsame
    | false =>
      rw [hpage, if_neg Bool.false_ne_true, BitVec.or_zero] at hsame
      rw [mstatusView, BitVec.and_or_distrib_left, BitVec.and_or_distrib_left (x := old),
        hsame, hkeep hpage]

/-- A status register of which no viewed field changes without a flush. -/
theorem set_status {c : Csr} {newval : Reg}
    (hview : newval &&& mstatusView = h.reg c &&& mstatusView)
    (hc : c = .mstatus ∨ c = .vsstatus) : Flushes h (h.set c (cfg.adjustSd newval)) := by
  have hsame : (cfg.adjustSd newval) &&& mstatusView = h.reg c &&& mstatusView :=
    (cfg.and_adjustSd rfl newval).trans hview
  refine of_sameView rfl ?_
  obtain rfl | rfl := hc
  · exact ⟨rfl, rfl, rfl, rfl, rfl, rfl, rfl, rfl, rfl, rfl, hsame, fun _ => rfl⟩
  · exact ⟨rfl, rfl, rfl, rfl, rfl, rfl, rfl, rfl, rfl, rfl, rfl, fun _ => hsame⟩

/-- Without page tables `sstatus` has no MXR and no SUM to write. -/
theorem sstatusWriteMask_disjoint (hpage : h.hasPage cfg = false) :
    (mstatusMxr ||| mstatusSum) &&& h.sstatusWriteMask cfg = 0#64 := by
  rw [sstatusWriteMask_eq, hpage]
  have hmask : mstatusMxr ||| mstatusSum = 0xC0000#64 := rfl
  rw [hmask]
  cases cfg.isa.table .s <;> cases cfg.isa.table .f <;> cases cfg.isa.table .v <;>
    cases cfg.isa.table .zfinx <;>
    cases cfg.anyCustomExtensions <;> rfl

theorem mstatusWriteMask_disjoint (hpage : h.hasPage cfg = false) :
    (mstatusMxr ||| mstatusSum) &&& h.mstatusWriteMask cfg = 0#64 := by
  have hmask : mstatusMxr ||| mstatusSum = 0xC0000#64 := rfl
  have hs := sstatusWriteMask_disjoint hpage
  rw [hmask] at hs ⊢
  rw [mstatusWriteMask_eq, hpage]
  simp only [BitVec.and_or_distrib_left, hs]
  cases h.extensionEnabled .u <;> cases h.extensionEnabled .s <;>
    cases h.extensionEnabled .h <;> rfl

/-- A write to `mstatus` flushes when a field that translation reads is changed. -/
theorem mstatusWrite (val : Reg) : Flushes h (h.mstatusWrite cfg val) := by
  have hkeep (hpage : h.hasPage cfg = false) :
      h.newMstatus cfg val &&& (mstatusMxr ||| mstatusSum) = h.reg .mstatus &&&
        (mstatusMxr ||| mstatusSum) :=
    Bits.and_replace_of_disjoint (mstatusWriteMask_disjoint hpage)
  rw [Hart.mstatusWrite]
  obtain hflush | ⟨hno, hview⟩ := maybeFlushTlb hkeep
  · rw [hflush]
    exact set_flushTlb _ _
  · rw [hno]
    exact set_status hview (.inl rfl)

/-- While V is 0 nothing reads `vsstatus`. -/
theorem vsstatusWrite (val : Reg) : Flushes h (h.vsstatusWrite cfg val) := by
  have hkeep (hpage : h.hasPage cfg = false) :
      Bits.replace (h.sstatusWriteMask cfg) (h.reg .vsstatus) val &&& (mstatusMxr ||| mstatusSum) =
        h.reg .vsstatus &&& (mstatusMxr ||| mstatusSum) :=
    Bits.and_replace_of_disjoint (sstatusWriteMask_disjoint hpage)
  rw [Hart.vsstatusWrite]
  cases hv : h.v with
  | false =>
    refine of_sameView rfl ?_
    exact ⟨rfl, rfl, rfl, rfl, rfl, rfl, rfl, rfl, rfl, rfl, rfl,
      fun hvirt => absurd (hv.symm.trans hvirt) (by decide)⟩
  | true =>
    rw [if_pos rfl]
    obtain hflush | ⟨hno, hview⟩ := maybeFlushTlb hkeep
    · rw [hflush]
      exact set_flushTlb _ _
    · rw [hno]
      exact set_status hview (.inr rfl)

theorem sstatusProxyWrite (val : Reg) : Flushes h (h.sstatusProxyWrite cfg val) :=
  mstatusWrite _

theorem mstatushWrite (val : Reg) : Flushes h (h.mstatushWrite cfg val) := by
  rw [Hart.mstatushWrite]
  cases cfg.isa.xlen with
  | rv32 => exact mstatusWrite _
  | rv64 => exact refl h

theorem abort (h : Hart) : Flushes h h.abort :=
  of_sameView rfl ⟨rfl, rfl, rfl, rfl, rfl, rfl, rfl, rfl, rfl, rfl, rfl, fun _ => rfl⟩

theorem dirty (dirties : Reg) : Flushes h (h.dirty cfg dirties) := by
  rw [Hart.dirty]
  split
  · exact refl h
  · have habort : Flushes h (if h.sstatusEnabled cfg dirties then h else h.abort) :=
      ite (refl h) (abort h)
    exact (habort.trans (sstatusProxyWrite _)).trans (ite (vsstatusWrite _) (refl _))

theorem sstatusWrite (val : Reg) : Flushes h (h.sstatusWrite cfg val) :=
  ite (vsstatusWrite val) (sstatusProxyWrite val)

/-! ### `misa` -/

/-- The table of the extensions keeps Svnapot, which has nothing to do with the letters. -/
theorem updateExtensions (new_misa : Reg) : Flushes h (h.updateExtensions cfg new_misa) := by
  have hsvnapot : (h.updateExtensions cfg new_misa).extTable .svnapot = h.extTable .svnapot := rfl
  obtain ⟨ext, heq⟩ := Frame.updateExtensions_eq cfg h new_misa
  rw [heq] at hsvnapot ⊢
  exact of_sameView rfl ⟨rfl, rfl, rfl, rfl, rfl, rfl, hsvnapot, rfl, rfl, rfl, rfl, fun _ => rfl⟩

theorem foldl {α : Type} (f : Hart → α → Hart) (hf : ∀ h a, Flushes h (f h a)) (l : List α) :
    ∀ h, Flushes h (l.foldl f h) := by
  induction l with
  | nil => exact refl
  | cons a l ih => exact fun h => (hf h a).trans (ih (f h a))

theorem clearHypervisor : Flushes h (h.clearHypervisor cfg) := by
  have hmnpv (h : Hart) : Flushes h (h.clearMnpv cfg) := ite (set rfl _) (refl h)
  refine Flushes.trans ?_ (foldl _ (fun h i => set rfl _) _ _)
  refine Flushes.trans ?_ (set rfl _)
  refine Flushes.trans ?_ (set rfl _)
  refine Flushes.trans ?_ (set rfl _)
  refine Flushes.trans ?_ (mstatushWrite _)
  refine Flushes.trans ?_ (mstatusWrite _)
  exact (set rfl _).trans (hmnpv _)

/-- A write to `misa`: the one extension in the view follows no letter, and the fields of the
hypervisor are cleared by writes that flush for what they change. -/
theorem misaWrite (val : Reg) : Flushes h (h.misaWrite cfg val) := by
  obtain ⟨heq, -⟩ | ⟨heq, -⟩ | ⟨heq, -⟩ := misaWrite_cases cfg h val
  · rw [heq]
    exact refl h
  · rw [heq]
    exact (updateExtensions _).trans (set rfl _)
  · rw [heq]
    exact ((updateExtensions _).trans clearHypervisor).trans (set rfl _)

/-! ### Every object -/

/-- A root is written with a flush unless it is the one that is there. -/
theorem baseAtpWrite (c : Csr) (val : Reg) : Flushes h (h.baseAtpWrite cfg c val) := by
  rw [Hart.baseAtpWrite]
  generalize (if cfg.impl.mmu then computeNewSatp cfg val (h.reg c) else 0#64) = newval
  split
  · exact set_flushTlb _ _
  · rename_i hsame
    have hself : h.set c (h.reg c) = h := by
      rw [Hart.set, Function.update_eq_self]
    rw [not_not.1 hsame, hself]
    exact refl h

theorem stimecmpWrite {c : Csr} (hc : c.viewed = false) (intr_mask val : Reg) :
    Flushes h (h.stimecmpWrite intr_mask c val) :=
  (set rfl _).trans (set hc _)

theorem floatWrite {c : Csr} (hc : c.viewed = false) (mask val : Reg) :
    Flushes h (h.floatWrite cfg mask c val) :=
  (dirty _).trans (set hc _)

theorem vectorWrite {c : Csr} (hc : c.viewed = false) (mask val : Reg) :
    Flushes h (h.vectorWrite cfg mask c val) := by
  rw [Hart.vectorWrite]
  split
  · exact refl h
  · exact (dirty _).trans (set hc _)

/-- **Every write to an object flushes for what it changes**, or changes nothing that translation
reads. -/
theorem write (val : Reg) (c : Csr) : Flushes h (h.write cfg val c) := by
  cases c
  case misa => exact misaWrite val
  case mstatus => exact mstatusWrite val
  case vsstatus => exact vsstatusWrite val
  case time => exact refl h
  case satp => exact baseAtpWrite _ val
  case vsatp => exact baseAtpWrite _ val
  case hgatp => exact set_flushTlb _ _
  case stimecmp => exact stimecmpWrite rfl _ val
  case vstimecmp => exact stimecmpWrite rfl _ val
  case fflags => exact floatWrite rfl _ val
  case frm => exact floatWrite rfl _ val
  case vxsat => exact (dirty _).trans (set rfl _)
  case vstart => exact vectorWrite rfl _ val
  case vxrm => exact vectorWrite rfl _ val
  case vl => exact vectorWrite rfl _ val
  case vtype => exact vectorWrite rfl _ val
  case vlenb => exact vectorWrite rfl _ val
  all_goals exact set rfl _

theorem virtWrite (orig virt : Csr) (val : Reg) : Flushes h (h.virtWrite cfg orig virt val) :=
  ite (write val virt) (write val orig)

theorem triggersWrite (ts : Option Triggers) : Flushes h (h.triggersWrite ts) := by
  cases ts with
  | none => exact refl h
  | some ts => exact of_lt (Nat.lt_succ_self _)

theorem pmpWrite (p : Option Pmp) : Flushes h (h.pmpWrite p) := by
  cases p with
  | none => exact refl h
  | some p => exact of_lt (Nat.lt_succ_self _)

/-- Writes by way of other objects are writes of these. -/
theorem writeObj (o : CsrObj) : ∀ (h : Hart) (val : Reg), Flushes h (h.writeObj cfg val o) := by
  induction o with
  | plain c => exact fun h val => write val c
  | const => exact fun h val => refl h
  | sstatusProxy => exact fun h val => sstatusProxyWrite val
  | mipProxy => exact fun h val => set rfl _
  | mieProxy => exact fun h val => set rfl _
  | dcsr =>
    exact fun h val =>
      of_sameView rfl ⟨rfl, rfl, rfl, rfl, rfl, rfl, rfl, rfl, rfl, rfl, rfl, fun _ => rfl⟩
  | tdata1 => exact fun h val => triggersWrite _
  | tdata2 => exact fun h val => triggersWrite _
  | tdata3 => exact fun h val => triggersWrite _
  | tinfo => exact fun h val => refl h
  | pmpaddr => exact fun h val => pmpWrite _
  | pmpcfg => exact fun h val => pmpWrite _
  | mseccfg => exact fun h val => pmpWrite _
  | scountovf => exact fun h val => refl h
  | virtualized orig virt ihOrig ihVirt => exact fun h val => ite (ihVirt h val) (ihOrig h val)
  | virtualizedSatp => exact fun h val => ite (write _ _) (write _ _)
  | virtualizedStimecmp => exact fun h val => ite (write val _) (write val _)
  | rv32Low orig ih => exact fun h val => ih h _
  | rv32High orig ih => exact fun h val => ih h _
  | counterProxy _ delegate ih => exact ih
  | proxy _ delegate ih => exact ih
  | composite upper lower lsb ihUpper ihLower =>
    exact fun h val => (ihUpper h _).trans (ihLower _ val)

/-- What `put_csr` writes, through any entry of the map. -/
theorem putCsr (which : Nat) (val : Reg) : Flushes h (h.putCsr cfg which val) := by
  rw [Hart.putCsr]
  cases csrFind cfg which with
  | none => exact refl h
  | some o => exact writeObj o h _

/-! ### Traps and returns -/

theorem of_pc (h : Hart) (pc : Reg) : Flushes h { h with pc := pc } :=
  of_sameView rfl ⟨rfl, rfl, rfl, rfl, rfl, rfl, rfl, rfl, rfl, rfl, rfl, fun _ => rfl⟩

/-- What flushes in the end flushes, whatever is done before. -/
theorem of_le_setPrivilege (hle : h.tlbFlushes ≤ h'.tlbFlushes) (prv : Reg) :
    Flushes h (h'.setPrivilege prv) :=
  of_lt (Nat.lt_succ_of_le hle)

theorem trapToVs (t : Trap) (epc : Reg) : Flushes h (h.trapToVs cfg t epc) := by
  refine of_le_setPrivilege (Flushes.le ?_) prvS
  refine Flushes.trans ?_ (sstatusWrite _)
  exact (((of_pc h _).trans (write _ _)).trans (write _ _)).trans (write _ _)

theorem tlbFlushes_setVirt (h : Hart) (virt : Bool) :
    (h.setVirt virt).tlbFlushes = h.tlbFlushes := by
  rw [setVirt]
  split <;> rfl

theorem trapToHs (t : Trap) (epc : Reg) : Flushes h (h.trapToHs cfg t epc) := by
  refine of_le_setPrivilege ((tlbFlushes_setVirt h false).ge.trans (Flushes.le ?_)) prvS
  refine Flushes.trans ?_ (ite (write _ _) (refl _))
  refine Flushes.trans ?_ (sstatusWrite _)
  refine Flushes.trans ?_ (write _ _)
  refine Flushes.trans ?_ (write _ _)
  exact (((of_pc _ _).trans (virtWrite _ _ _)).trans (virtWrite _ _ _)).trans (virtWrite _ _ _)

theorem trapToM (t : Trap) (epc : Reg) : Flushes h (h.trapToM cfg t epc) := by
  refine of_le_setPrivilege ((tlbFlushes_setVirt h false).ge.trans (Flushes.le ?_)) prvM
  refine Flushes.trans ?_ (mstatushWrite _)
  refine Flushes.trans ?_ (mstatusWrite _)
  refine Flushes.trans ?_ (write _ _)
  refine Flushes.trans ?_ (write _ _)
  exact (((of_pc _ _).trans (write _ _)).trans (write _ _)).trans (write _ _)

/-- A trap changes the mode, and flushes for it. -/
theorem takeTrap (t : Trap) (epc : Reg) : Flushes h (h.takeTrap cfg t epc) := by
  rw [Hart.takeTrap]
  split
  · exact of_pc h _
  · cases h.trapDestination cfg t with
    | vs => exact trapToVs t epc
    | hs => exact trapToHs t epc
    | m => exact trapToM t epc

theorem enterDebugMode (cause : Reg) : Flushes h (h.enterDebugMode cfg cause) := by
  let h₁ : Hart :=
    { h with debugMode := true, dcsr := { h.dcsr with cause := cause, prv := h.prv } }
  have hle := (write h₁.pc .dpc : Flushes (h₁.setPrivilege prvM)
    ((h₁.setPrivilege prvM).write cfg h₁.pc .dpc)).le
  exact of_lt (Nat.lt_of_succ_le hle)

/-- The end of a return. -/
theorem of_le_setVirt (hle : h.tlbFlushes ≤ h'.tlbFlushes) (prv : Reg) (virt : Bool) :
    Flushes h ((h'.setPrivilege prv).setVirt virt) := by
  refine of_lt ?_
  rw [tlbFlushes_setVirt]
  exact Nat.lt_succ_of_le hle

/-- `mret` flushes by way of `set_privilege`. -/
theorem mret (hret : h.mret cfg = .ok h') : Flushes h h' := by
  rw [Hart.mret] at hret
  split at hret
  · cases hret
  · cases hret
    exact of_le_setVirt (((of_pc h _).trans (putCsr _ _)).le) _ _

theorem mnret (hret : h.mnret cfg = .ok h') : Flushes h h' := by
  rw [Hart.mnret] at hret
  split at hret
  · cases hret
  · split at hret
    · cases hret
    · cases hret
      refine of_le_setVirt (Flushes.le ?_) _ _
      exact ((of_pc h _).trans (ite (mstatusWrite _) (refl _))).trans (set rfl _)

theorem dret (hret : h.dret cfg = .ok h') : Flushes h h' := by
  rw [Hart.dret] at hret
  split at hret
  · cases hret
  · extract_lets h₁ h₂ h₃ h₄ at hret
    have hle : h₂.tlbFlushes ≤ h₃.tlbFlushes := (ite (mstatusWrite _) (refl _) : Flushes h₂ h₃).le
    cases hret
    refine of_lt (Nat.lt_of_lt_of_le (Nat.lt_of_succ_le hle) (Nat.le_of_eq ?_))
    split <;> rfl

theorem sret (hret : h.sret cfg = .ok h') : Flushes h h' := by
  have hwritten (s : Reg) :
      h.tlbFlushes ≤
        (Hart.sstatusWrite cfg (h.setPcAndSerialize (h.virtRead .sepc .vsepc)) s).tlbFlushes :=
    ((of_pc h _).trans (sstatusWrite s)).le
  rw [Hart.sret] at hret
  cases hrefused : h.sretRefused with
  | some e =>
    rw [hrefused] at hret
    cases hret
  | none =>
    rw [hrefused] at hret
    dsimp only at hret
    split at hret
    · cases hret
      exact of_le_setPrivilege (hwritten _) _
    · cases hret
      have hwritten :=
        hwritten (sretSstatus (sstatusRead cfg (h.setPcAndSerialize (h.virtRead .sepc .vsepc))))
      refine of_lt
        (Nat.lt_of_lt_of_le (Nat.lt_succ_of_le hwritten) (le_trans ?_ (mstatusWrite _).le))
      split
      · refine le_trans ?_ (write _ _).le
        rw [tlbFlushes_setVirt]
        exact le_rfl
      · exact le_rfl

/-! ### Events -/

theorem refused (bits : Reg) (e : Refusal) : Flushes h (h.refused cfg bits e) := by
  cases e with
  | illegal => exact takeTrap _ _
  | «virtual» => exact takeTrap _ _
  | crash => exact abort h

theorem orRefused {bits : Reg} {r : Except Refusal Hart} (hr : ∀ h', r = .ok h' → Flushes h h') :
    Flushes h (h.orRefused cfg bits r) := by
  cases r with
  | ok h' => exact hr h' rfl
  | error e => exact refused bits e

theorem csrInsn {which : Nat} {insn : CsrInsn} (hret : h.csrInsn cfg which insn = .ok h') :
    Flushes h h' := by
  rw [Hart.csrInsn] at hret
  cases hget : h.getCsr cfg which insn.writes with
  | error e =>
    rw [hget] at hret
    cases hret
  | ok old =>
    rw [hget] at hret
    cases hval : csrInsnValue insn old with
    | none =>
      simp only [hval] at hret
      cases hret
      exact of_pc h _
    | some val =>
      simp only [hval] at hret
      cases hret
      exact (putCsr which val).trans (of_pc _ _)

theorem takePendingInterrupt : Flushes h (h.takePendingInterrupt cfg) := by
  unfold Hart.takePendingInterrupt
  extract_lets pending awake
  have hawake : Flushes h awake :=
    ite (refl h)
      (of_sameView rfl ⟨rfl, rfl, rfl, rfl, rfl, rfl, rfl, rfl, rfl, rfl, rfl, fun _ => rfl⟩)
  cases h.takeInterrupt cfg pending with
  | none => exact hawake
  | throw t => exact hawake.trans (takeTrap _ _)
  | abort => exact hawake.trans (abort _)

theorem timeSync (mtime : Reg) : Flushes h (h.timeSync mtime) :=
  ite ((set rfl _).trans (set rfl _)) (set rfl _)

end Flushes

/-- **Flushes.** Every event flushes the TLB or leaves what its entries depend on. -/
theorem flushes_event (cfg : Config) (h : Hart) (op : HartOp) (hop : op.Runs) :
    Flushes h (h.event cfg op) := by
  cases op with
  | csr which insn bits => exact .orRefused fun h' => .csrInsn
  | mret bits => exact .orRefused fun h' => .mret
  | sret bits => exact .orRefused fun h' => .sret
  | mnret bits => exact .orRefused fun h' => .mnret
  | dret bits => exact .orRefused fun h' => .dret
  | retire npc => exact .of_pc h _
  | dirty state => exact .ite (.dirty _) (.refl h)
  | exception code gva tval tval2 tinst => exact .takeTrap _ _
  | interrupt => exact .takePendingInterrupt
  | enterDebug cause => exact .enterDebugMode cause
  | triggers ts => exact hop.elim
  | wfi =>
    exact .of_sameView rfl ⟨rfl, rfl, rfl, rfl, rfl, rfl, rfl, rfl, rfl, rfl, rfl, fun _ => rfl⟩
  | bump instret => exact (Flushes.set rfl _).trans (.set rfl _)
  | timeSync mtime => exact .timeSync mtime
  | pin p level => exact .set rfl _
  | reset halt => exact hop.elim

theorem flushes_step (cfg : Config) (h : Hart) (op : HartOp) (hop : op.Runs) :
    Flushes h (h.step cfg op) :=
  .ite (.refl h) (flushes_event cfg h op hop)

/-! ### The rules of translation -/

/-- `PBMTE` and `HADE` -/
def envcfgUnflushed : Reg :=
  envcfgPbmte ||| envcfgHade

/-- What is read, and not flushed for, is as before. -/
structure SameUnflushed (h h' : Hart) : Prop where
  nmie : hasBits (h'.reg .mnstatus) mnstatusNmie = hasBits (h.reg .mnstatus) mnstatusNmie
  menvcfg : h'.reg .menvcfg &&& envcfgUnflushed = h.reg .menvcfg &&& envcfgUnflushed
  henvcfg : h'.reg .henvcfg &&& envcfgUnflushed = h.reg .henvcfg &&& envcfgUnflushed

/-- What is read, and not flushed for, is as before, or `PBMTE` is set where it was not. -/
structure Unseen (h h' : Hart) : Prop where
  nmie : hasBits (h'.reg .mnstatus) mnstatusNmie = hasBits (h.reg .mnstatus) mnstatusNmie
  menvcfg : hasBits (h.reg .menvcfg) envcfgPbmte = true →
    hasBits (h'.reg .menvcfg) envcfgPbmte = true
  henvcfg : hasBits (h.reg .henvcfg) envcfgPbmte = true →
    hasBits (h'.reg .henvcfg) envcfgPbmte = true

variable {cfg : Config} {h h' : Hart}

theorem getLsbD_of_view {x y : Reg} (hview : x &&& mstatusView = y &&& mstatusView) {i : Nat}
    (hi : mstatusView.getLsbD i = true) : x.getLsbD i = y.getLsbD i := by
  have hbit := congrArg (·.getLsbD i) hview
  simpa [hi] using hbit

/-- `PBMTE` of the second stage is that of both registers. -/
theorem hasBits_henvcfgRead (h : Hart) :
    hasBits h.henvcfgRead envcfgPbmte =
      (hasBits (h.reg .menvcfg) envcfgPbmte && hasBits (h.reg .henvcfg) envcfgPbmte) := by
  have hpos : envcfgPbmte = BitVec.twoPow 64 62 := rfl
  rw [henvcfgRead, hpos, hasBits_twoPow (by decide), hasBits_twoPow (by decide),
    hasBits_twoPow (by decide)]
  simp [envcfgStce, envcfgHade]

theorem henvcfgRead_and (h : Hart) : h.henvcfgRead &&& envcfgUnflushed =
    (h.reg .menvcfg &&& envcfgUnflushed) &&& (h.reg .henvcfg &&& envcfgUnflushed) := by
  have hno : ~~~(envcfgPbmte ||| envcfgStce ||| envcfgHade) &&& envcfgUnflushed = 0#64 := by decide
  rw [henvcfgRead]
  generalize ~~~(envcfgPbmte ||| envcfgStce ||| envcfgHade) = n at hno
  generalize envcfgUnflushed = u at hno ⊢
  ext i hi
  have hbit := congrArg (·.getLsbD i) hno
  simp only [BitVec.getElem_and, BitVec.getElem_or, BitVec.getLsbD_eq_getElem hi] at hbit ⊢
  grind

/-- A bit under a mask. -/
theorem hasBits_congr_of_and {x y mask bits : Reg} (hxy : x &&& mask = y &&& mask)
    (hbits : mask &&& bits = bits) :
    hasBits x bits = hasBits y bits := by
  rw [hasBits, hasBits, ← hbits, ← BitVec.and_assoc, hxy, BitVec.and_assoc]

namespace SameView

theorem sstatus (s : SameView h h') {i : Nat} (hi : mstatusView.getLsbD i = true) :
    (h'.sstatusProxyRead cfg).getLsbD i = (h.sstatusProxyRead cfg).getLsbD i := by
  have hmask : h'.sstatusReadMask cfg = h.sstatusReadMask cfg := by
    rw [sstatusReadMask, sstatusReadMask, sstatusWriteMask, sstatusWriteMask,
      hasPage, hasPage, s.builtWithMmu]
  rw [sstatusProxyRead, sstatusProxyRead, hmask, BitVec.getLsbD_and, BitVec.getLsbD_and,
    getLsbD_of_view s.mstatus hi]

/-- The status of the mode. -/
theorem status (s : SameView h h') {i : Nat} (hi : mstatusView.getLsbD i = true) :
    ((h'.regime cfg).status h.v).getLsbD i = ((h.regime cfg).status h.v).getLsbD i := by
  rw [Regime.status, Regime.status]
  cases hv : h.v with
  | false => exact s.sstatus hi
  | true => exact getLsbD_of_view (s.vsstatus hv) hi

/-- **The rules** for walks of this mode are the same. -/
theorem agrees (s : SameView h h') (u : Unseen h h') :
    (h.regime cfg).Agrees h.prv h.v (h'.regime cfg) where
  xlen := rfl
  svnapot := s.svnapot
  hgatp := s.hgatp
  atp := by
    rw [Regime.atp, Regime.atp]
    cases h.v with
    | false => exact s.satp
    | true => exact s.vsatp
  pmp := s.pmp
  s2Mxr := by
    intro _
    have hpos : mstatusMxr = BitVec.twoPow 64 19 := rfl
    rw [hpos, hasBits_twoPow (by decide), hasBits_twoPow (by decide)]
    exact s.sstatus rfl
  s2Pbmte := fun _ => u.menvcfg
  s1Mxr := by
    intro _
    have hpos : mstatusMxr = BitVec.twoPow 64 19 := rfl
    rw [Regime.mxr, Regime.mxr, hpos, hasBits_twoPow (by decide), hasBits_twoPow (by decide),
      BitVec.getElem_or,
      BitVec.getElem_or]
    exact congrArg₂ Bool.or (s.sstatus rfl) (s.status rfl)
  s1Sum := by
    intro _
    have hpos : mstatusSum = BitVec.twoPow 64 18 := rfl
    rw [hpos, hasBits_twoPow (by decide), hasBits_twoPow (by decide)]
    exact s.status rfl
  s1Pbmte := by
    intro _
    rw [Regime.envcfg, Regime.envcfg]
    cases h.v with
    | false => exact u.menvcfg
    | true =>
      intro hset
      have hset : hasBits h.henvcfgRead envcfgPbmte = true := hset
      rw [hasBits_henvcfgRead, Bool.and_eq_true] at hset
      have hboth : hasBits h'.henvcfgRead envcfgPbmte = true := by
        rw [hasBits_henvcfgRead, u.menvcfg hset.1, u.henvcfg hset.2, Bool.and_self]
      exact hboth

/-- MPRV is in effect as before. -/
theorem inMprv (s : SameView h h')
    (hnmie : hasBits (h'.reg .mnstatus) mnstatusNmie = hasBits (h.reg .mnstatus) mnstatusNmie) :
    (h'.privilege cfg).inMprv = (h.privilege cfg).inMprv := by
  have hpos : mstatusMprv = BitVec.twoPow 64 17 := rfl
  have hmprv : hasBits (h'.reg .mstatus) mstatusMprv = hasBits (h.reg .mstatus) mstatusMprv := by
    rw [hpos, hasBits_twoPow (by decide), hasBits_twoPow (by decide)]
    exact getLsbD_of_view s.mstatus rfl
  rw [Privilege.inMprv, Privilege.inMprv]
  dsimp only [privilege]
  rw [hmprv, s.debugMode]
  cases cfg.isa.table .smrnmi with
  | false => rfl
  | true =>
    rw [if_pos rfl, if_pos rfl, Option.any_some, Option.any_some, hnmie]

/-- **The same rules**, where what is not flushed for is the same too. -/
theorem same (s : SameView h h') (u : SameUnflushed h h') :
    (h.regime cfg).Same h.v (h'.regime cfg) := by
  have hbits {x y : Reg} (hxy : x &&& envcfgUnflushed = y &&& envcfgUnflushed) :
      hasBits x envcfgPbmte = hasBits y envcfgPbmte ∧ hasBits x envcfgHade = hasBits y envcfgHade :=
    ⟨hasBits_congr_of_and hxy rfl, hasBits_congr_of_and hxy rfl⟩
  have hhenvcfg : h'.henvcfgRead &&& envcfgUnflushed = h.henvcfgRead &&& envcfgUnflushed := by
    rw [henvcfgRead_and, henvcfgRead_and, u.menvcfg, u.henvcfg]
  have henvcfg : hasBits ((h'.regime cfg).envcfg h.v) envcfgPbmte = hasBits
    ((h.regime cfg).envcfg h.v) envcfgPbmte ∧
      hasBits ((h'.regime cfg).envcfg h.v) envcfgHade = hasBits
        ((h.regime cfg).envcfg h.v) envcfgHade := by
    rw [Regime.envcfg, Regime.envcfg]
    cases h.v with
    | false => exact hbits u.menvcfg
    | true => exact hbits hhenvcfg
  have hmxr : mstatusMxr = BitVec.twoPow 64 19 := rfl
  have hsum : mstatusSum = BitVec.twoPow 64 18 := rfl
  exact
    { xlen := rfl
      svnapot := s.svnapot
      hgatp := s.hgatp
      atp := by
        rw [Regime.atp, Regime.atp]
        cases h.v with
        | false => exact s.satp
        | true => exact s.vsatp
      pmp := s.pmp
      debugMode := s.debugMode
      s2Pbmte := (hbits u.menvcfg).1
      s2Hade := (hbits u.menvcfg).2
      s2Mxr := by
        rw [hmxr, hasBits_twoPow (by decide), hasBits_twoPow (by decide)]
        exact s.sstatus rfl
      s1Pbmte := henvcfg.1
      s1Hade := henvcfg.2
      s1Mxr := by
        rw [Regime.mxr, Regime.mxr, hmxr, hasBits_twoPow (by decide), hasBits_twoPow (by decide),
          BitVec.getElem_or, BitVec.getElem_or]
        exact congrArg₂ Bool.or (s.sstatus rfl) (s.status rfl)
      s1Sum := by
        rw [hsum, hasBits_twoPow (by decide), hasBits_twoPow (by decide)]
        exact s.status rfl }

end SameView

/-! ### Runs -/

theorem flushes_run (cfg : Config) (h : Hart) (ops : List HartOp) (hops : ∀ op ∈ ops, op.Runs) :
    Flushes h (h.runFrom cfg ops) := by
  induction ops generalizing h with
  | nil => exact .refl h
  | cons op ops ih =>
    exact (flushes_step cfg h op (hops op List.mem_cons_self)).trans
      (ih (h.step cfg op) fun o ho => hops o (List.mem_cons_of_mem op ho))

/-- **Between two flushes** the mode is the same and the triggers are, and every address translates
as it did, as far as what is not flushed for is the same. The run is any list of events of the hart
that counts no flush. -/
theorem unflushed_run (cfg : Config) (h : Hart) (ops : List HartOp) (hops : ∀ op ∈ ops, op.Runs)
    (hcount : (h.runFrom cfg ops).tlbFlushes = h.tlbFlushes)
    (hsame : SameUnflushed h (h.runFrom cfg ops)) :
    (h.runFrom cfg ops).prv = h.prv ∧ (h.runFrom cfg ops).v = h.v ∧
      ((h.runFrom cfg ops).privilege cfg).inMprv = (h.privilege cfg).inMprv ∧
      (h.runFrom cfg ops).triggers = h.triggers ∧
      ∀ (δ : Type) (bus : Bus δ) (addr : Reg) (len : Nat) (type : AccessType) (hlvx : Bool),
        let r := h.regime cfg
        let r' := (h.runFrom cfg ops).regime cfg
        translateAs (busMem bus r') r' addr len type h.prv h.v hlvx =
          translateAs (busMem bus r) r addr len type h.prv h.v hlvx := by
  have hview := (flushes_run cfg h ops hops).view hcount
  exact ⟨hview.prv, hview.v, hview.inMprv hsame.nmie, hview.triggers,
    fun δ bus addr len type hlvx => (hview.same hsame).translateAs_eq bus addr len type h.prv hlvx⟩

/-- A write to `mscratch`, another instruction and an interrupt that nothing is pending for. -/
def quietRun : List HartOp :=
  [.csr 0x340 (.write 5#64) 0x34001073#64, .retire 0x2000#64, .interrupt]

/-- Nothing is flushed, and addresses translate as they did when the hart was reset. -/
theorem unflushed_run_quietRun :
    ((init rv64h false).runFrom rv64h quietRun).prv = (init rv64h false).prv ∧
      ((init rv64h false).runFrom rv64h quietRun).v = (init rv64h false).v ∧
      (((init rv64h false).runFrom rv64h quietRun).privilege rv64h).inMprv =
        ((init rv64h false).privilege rv64h).inMprv ∧
      ((init rv64h false).runFrom rv64h quietRun).triggers = (init rv64h false).triggers ∧
      ∀ (δ : Type) (bus : Bus δ) (addr : Reg) (len : Nat) (type : AccessType) (hlvx : Bool),
        let r := (init rv64h false).regime rv64h
        let r' := ((init rv64h false).runFrom rv64h quietRun).regime rv64h
        translateAs (busMem bus r') r' addr len type (init rv64h false).prv
          (init rv64h false).v hlvx =
          translateAs (busMem bus r) r addr len type (init rv64h false).prv
            (init rv64h false).v hlvx :=
  unflushed_run rv64h (init rv64h false) quietRun (by decide) (by decide +kernel)
    ⟨by decide +kernel, by decide +kernel, by decide +kernel⟩

-- MPRV comes into effect with NMIE, and no entry goes
example : ∃ h, Reachable rv64rnmi h ∧ (h.privilege rv64rnmi).inMprv = false ∧
    ((h.step rv64rnmi (.csr 0x744 (.set 8#64) 0x744022f3#64)).privilege rv64rnmi).inMprv = true ∧
    (h.step rv64rnmi (.csr 0x744 (.set 8#64) 0x744022f3#64)).tlbFlushes = h.tlbFlushes :=
  ⟨_, ⟨false, [.csr 0x300 (.write 0x20000#64) 0x30029073#64], rfl⟩, by decide +kernel,
    by decide +kernel, by decide +kernel⟩

end Hart

end Nnemu

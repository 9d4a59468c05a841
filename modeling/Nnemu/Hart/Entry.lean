import Nnemu.Hart.Frame
import Nnemu.Hart.Status

/-!
# What a trap leaves behind

`take_trap` has three branches, each a row of writes through virtualized registers. `VsEntry`,
`HsEntry` and `MEntry` say what the hart holds after each of them, in terms of the hart before, and
which registers are as they were. Later files argue from these and do not unfold the branches.
-/

namespace Nnemu

namespace Hart

variable {cfg : Config} {h : Hart}

/-! ### `set_virt` -/

/-- `set_virt` after `set_privilege`. -/
theorem v_setVirt (virt : Bool) : (h.setVirt virt).v = if h.prv = prvM then h.v else virt := by
  rw [setVirt]
  split
  · rfl
  · rfl

theorem prv_setVirt (virt : Bool) : (h.setVirt virt).prv = h.prv := by
  rw [setVirt]
  split
  · rfl
  · rfl

theorem pc_setVirt (virt : Bool) : (h.setVirt virt).pc = h.pc := by
  rw [setVirt]
  split
  · rfl
  · rfl

theorem reg_setVirt (virt : Bool) : (h.setVirt virt).reg = h.reg := by
  rw [setVirt]
  split
  · rfl
  · rfl

theorem extensionEnabled_setVirt (virt : Bool) (ext : Ext) :
    (h.setVirt virt).extensionEnabled ext = h.extensionEnabled ext := by
  rw [setVirt]
  split
  · rfl
  · rfl

/-! ### VS -/

/-- The registers a trap to VS writes. -/
def vsTouched (c : Csr) : Bool :=
  c = .vscause || c = .vsepc || c = .vstval || c = .vsstatus

/-- The hart after a trap to VS. -/
structure VsEntry (cfg : Config) (h : Hart) (t : Trap) (epc : Reg) (h' : Hart) : Prop where
  prv : h'.prv = h.legalizePrivilege prvS
  v : h'.v = true
  pc : h'.pc = handlerAddress (h.reg .vstvec) (trapBit cfg t) (isInterrupt cfg t)
  cause : h'.reg .vscause = if isInterrupt cfg t then t.cause - 1#64 else t.cause
  epc : h'.reg .vsepc = epc &&& ~~~1#64
  status : h'.reg .vsstatus = cfg.adjustSd
    (Bits.replace (h.sstatusWriteMask cfg) (h.reg .vsstatus) (stackSstatus (h.reg .vsstatus) h.prv))
  reg : ∀ c, vsTouched c = false → h'.reg c = h.reg c
  extTable : h'.extTable = h.extTable
  builtWithMmu : h'.builtWithMmu = h.builtWithMmu

/-- The write of `vsstatus`. -/
theorem reg_vsstatusWrite (val : Reg) :
    (h.vsstatusWrite cfg val).reg = Function.update h.reg .vsstatus
      (cfg.adjustSd (Bits.replace (h.sstatusWriteMask cfg) (h.reg .vsstatus) val)) := by
  unfold vsstatusWrite
  extract_lets newval
  split
  · obtain hf | hf := h.maybeFlushTlb_cases cfg newval (h.reg .vsstatus)
    · rw [hf]
      rfl
    · rw [hf]
      rfl
  · rfl

/-- With `V = 1` the write of `sstatus` is one of `vsstatus`. -/
theorem sstatusWrite_of_virt (hv : h.v = true) (val : Reg) :
    h.sstatusWrite cfg val = h.vsstatusWrite cfg val :=
  if_pos hv

theorem sstatusRead_of_virt (hv : h.v = true) : h.sstatusRead cfg = h.reg .vsstatus :=
  if_pos hv

/-- With `V = 0` it is one of `mstatus`. -/
theorem sstatusWrite_of_not_virt (hv : h.v = false) (val : Reg) :
    h.sstatusWrite cfg val = h.sstatusProxyWrite cfg val :=
  if_neg (by simp [hv])

theorem vsEntry (hv : h.v = true) (t : Trap) (epc : Reg) :
    VsEntry cfg h t epc (h.trapToVs cfg t epc) := by
  unfold trapToVs
  extract_lets prv interrupt h₁ h₂ h₃ h₄ h₅
  have hv₄ : h₄.v = true := hv
  have heq : h₅ = h₄.vsstatusWrite cfg (stackSstatus (h.reg .vsstatus) h.prv) := by
    show h₄.sstatusWrite cfg (stackSstatus (h₄.sstatusRead cfg) prv) = _
    rw [sstatusWrite_of_virt hv₄, sstatusRead_of_virt hv₄]
    rfl
  have f : Frame vsTouched h₁ h₅ := by
    rw [heq]
    exact (((Frame.set rfl _).trans (Frame.set rfl _)).trans (Frame.set rfl _)).trans
      (Frame.vsstatusWrite rfl _)
  have hreg : h₅.reg = Function.update h₄.reg .vsstatus (cfg.adjustSd (Bits.replace
      (h.sstatusWriteMask cfg) (h.reg .vsstatus) (stackSstatus (h.reg .vsstatus) h.prv))) := by
    rw [heq, reg_vsstatusWrite]
    rfl
  exact
    { prv := f.legalizePrivilege rfl prvS
      v := f.v.trans hv
      pc := f.pc
      cause := congrFun hreg .vscause
      epc := congrFun hreg .vsepc
      status := congrFun hreg .vsstatus
      reg := f.reg
      extTable := f.extTable rfl
      builtWithMmu := f.builtWithMmu }

/-! ### HS -/

/-- The registers a trap to HS writes. -/
def hsTouched (c : Csr) : Bool :=
  c = .scause || c = .sepc || c = .stval || c = .htval || c = .htinst ||
    c = .mstatus || c = .hstatus

/-- The hart after a trap to HS. -/
structure HsEntry (cfg : Config) (h : Hart) (t : Trap) (epc : Reg) (h' : Hart) : Prop where
  prv : h'.prv = h.legalizePrivilege prvS
  v : h'.v = false
  pc : h'.pc = handlerAddress (h.reg .stvec) (trapBit cfg t) (isInterrupt cfg t)
  cause : h'.reg .scause = t.cause
  epc : h'.reg .sepc = epc &&& ~~~1#64
  status : h'.reg .mstatus =
    (h.sstatusProxyWrite cfg (stackSstatus (h.sstatusProxyRead cfg) h.prv)).reg .mstatus
  hstatus : h'.reg .hstatus =
    if h.extensionEnabled .h then
      Bits.replace h.hstatusMask (h.reg .hstatus) (stackHstatus (h.reg .hstatus) h.prv h.v t.gva)
    else h.reg .hstatus
  reg : ∀ c, hsTouched c = false → h'.reg c = h.reg c
  extTable : h'.extTable = h.extTable
  builtWithMmu : h'.builtWithMmu = h.builtWithMmu

/-- Below M, `set_virt(false)` leaves virtualization. -/
theorem setVirt_false (hp : h.prv ≠ prvM) : h.setVirt false = { h with v := false } :=
  if_neg hp

theorem hsEntry (hp : h.prv ≠ prvM) (t : Trap) (epc : Reg) :
    HsEntry cfg h t epc (h.trapToHs cfg t epc) := by
  unfold trapToHs
  extract_lets prv currVirt h₁ h₂ h₃ h₄ h₅ h₆ h₇ h₈ h₉
  have h₁eq : h₁ = { h with v := false } := setVirt_false hp
  clear_value h₁
  subst h₁eq
  have hread : h₇.sstatusRead cfg = h.sstatusProxyRead cfg := rfl
  have heq : h₈ = h₇.sstatusProxyWrite cfg (stackSstatus (h.sstatusProxyRead cfg) h.prv) := rfl
  have f : Frame hsTouched h₂ h₈ := by
    rw [heq]
    exact (((((Frame.set rfl _).trans (Frame.set rfl _)).trans (Frame.set rfl _)).trans
      (Frame.set rfl _)).trans (Frame.set rfl _)).trans (Frame.sstatusProxyWrite rfl _)
  have f₉ : Frame hsTouched h₂ h₉ := f.trans (Frame.ite (Frame.set rfl _) (Frame.refl _ h₈))
  have hreg : h₈.reg = Function.update h₇.reg .mstatus (cfg.adjustSd (h.newMstatus cfg
      (Bits.replace (h.sstatusWriteMask cfg) (h.reg .mstatus)
        (stackSstatus (h.sstatusProxyRead cfg) h.prv)))) := by
    rw [heq, sstatusProxyWrite, reg_mstatusWrite]
    rfl
  -- `hstatus` is written last, where H is enabled
  have hother (c : Csr) (hc : c ≠ .hstatus) : h₉.reg c = h₈.reg c := by
    have f₁ : Frame (fun c => c == .hstatus) h₈ h₉ := Frame.ite (Frame.set rfl _) (Frame.refl _ h₈)
    exact f₁.reg c (beq_eq_false_iff_ne.2 hc)
  exact
    { prv := f₉.legalizePrivilege rfl prvS
      v := f₉.v
      pc := f₉.pc
      cause := (hother .scause (by decide)).trans (congrFun hreg .scause)
      epc := (hother .sepc (by decide)).trans (congrFun hreg .sepc)
      status := by
        refine (hother .mstatus (by decide)).trans ?_
        rw [hreg, sstatusProxyWrite, reg_mstatusWrite, Function.update_self, Function.update_self]
      hstatus := by
        have h₈reg : h₈.reg .hstatus = h.reg .hstatus := congrFun hreg .hstatus
        have hext : h₈.extensionEnabled .h = h.extensionEnabled .h := f.extensionEnabled rfl .h
        show (if h₈.extensionEnabled .h then _ else h₈).reg .hstatus = _
        rw [hext]
        split
        · show Bits.replace h₈.hstatusMask (h₈.reg .hstatus)
            (stackHstatus (h₈.reg .hstatus) prv currVirt
            t.gva) = _
          rw [h₈reg, hstatusMask, f.builtWithMmu]
          rfl
        · exact h₈reg
      reg := f₉.reg
      extTable := f₉.extTable rfl
      builtWithMmu := f₉.builtWithMmu }

/-! ### M -/

/-- The registers a trap to M writes. -/
def mTouched (c : Csr) : Bool :=
  c = .mepc || c = .mcause || c = .mtval || c = .mtval2 || c = .mtinst || c = .mstatus

/-- The hart after a trap to M. -/
structure MEntry (cfg : Config) (h : Hart) (t : Trap) (epc : Reg) (h' : Hart) : Prop where
  prv : h'.prv = h.legalizePrivilege prvM
  v : h'.v = (h.v && h.prv == prvM)
  pc : h'.pc =
    if h.nmie cfg then handlerAddress (h.reg .mtvec) (trapBit cfg t) (isInterrupt cfg t) else 0#64
  cause : h'.reg .mcause = t.cause
  epc : h'.reg .mepc = epc &&& ~~~1#64
  status : h'.reg .mstatus =
    ((h.mstatusWrite cfg (stackMstatus (h.reg .mstatus) h.prv h.v t.gva)).mstatushWrite cfg
      (stackMstatus (h.reg .mstatus) h.prv h.v t.gva >>> 32)).reg .mstatus
  reg : ∀ c, mTouched c = false → h'.reg c = h.reg c
  extTable : h'.extTable = h.extTable
  builtWithMmu : h'.builtWithMmu = h.builtWithMmu

/-- In M, `set_virt(false)` does nothing. -/
theorem setVirt_false_eq : h.setVirt false = { h with v := h.v && h.prv == prvM } := by
  by_cases hp : h.prv = prvM
  · have hv : (h.v && h.prv == prvM) = h.v := by simp [hp]
    rw [setVirt, if_pos hp, hv]
  · have hv : (h.v && h.prv == prvM) = false := by simp [hp]
    rw [setVirt_false hp, hv]

theorem Frame.sstatusWriteMask {s : Csr → Bool} {h' : Hart} (f : Frame s h h') :
    h'.sstatusWriteMask cfg = h.sstatusWriteMask cfg := by
  have hpage : h'.hasPage cfg = h.hasPage cfg := by
    rw [hasPage, hasPage, f.builtWithMmu]
  rw [Hart.sstatusWriteMask, Hart.sstatusWriteMask, hpage]

theorem Frame.mstatusWriteMask {s : Csr → Bool} {h' : Hart} (f : Frame s h h')
    (hm : s .misa = false) :
    h'.mstatusWriteMask cfg = h.mstatusWriteMask cfg := by
  have hpage : h'.hasPage cfg = h.hasPage cfg := by
    rw [hasPage, hasPage, f.builtWithMmu]
  have hext := f.extensionEnabled hm
  rw [Hart.mstatusWriteMask, Hart.mstatusWriteMask, f.sstatusWriteMask, hpage, hext, hext, hext]

/-- What a write of `mstatus` reads is the same. -/
structure StatusEq (h h' : Hart) : Prop where
  mstatus : h'.reg .mstatus = h.reg .mstatus
  misa : h'.reg .misa = h.reg .misa
  extTable : h'.extTable = h.extTable
  builtWithMmu : h'.builtWithMmu = h.builtWithMmu

/-- A write of `mstatus` keeps it the same. -/
theorem StatusEq.mstatusWrite {h' : Hart} (eq : StatusEq h h') (val : Reg) :
    StatusEq (h.mstatusWrite cfg val) (h'.mstatusWrite cfg val) := by
  have hext (ext : Ext) : h'.extensionEnabled ext = h.extensionEnabled ext := by
    rw [extensionEnabled, extensionEnabled, eq.misa, eq.extTable]
  have hleg (prv : Reg) : h'.legalizePrivilege prv = h.legalizePrivilege prv := by
    rw [legalizePrivilege, legalizePrivilege, hext, hext]
  have hpage : h'.hasPage cfg = h.hasPage cfg := by
    rw [hasPage, hasPage, eq.builtWithMmu]
  have hs : h'.sstatusWriteMask cfg = h.sstatusWriteMask cfg := by
    rw [sstatusWriteMask, sstatusWriteMask, hpage]
  have hm : h'.mstatusWriteMask cfg = h.mstatusWriteMask cfg := by
    rw [mstatusWriteMask, mstatusWriteMask, hs, hpage, hext, hext, hext]
  have hnew : h'.newMstatus cfg val = h.newMstatus cfg val := by
    rw [newMstatus, newMstatus, hleg, hm, eq.mstatus]
  have f : Frame (fun c => c == .mstatus) h (h.mstatusWrite cfg val) := Frame.mstatusWrite rfl val
  have f' : Frame (fun c => c == .mstatus) h' (h'.mstatusWrite cfg val) :=
    Frame.mstatusWrite rfl val
  exact
    { mstatus := by
        rw [reg_mstatusWrite, reg_mstatusWrite, Function.update_self, Function.update_self, hnew]
      misa := (f'.reg .misa rfl).trans (eq.misa.trans (f.reg .misa rfl).symm)
      extTable := (f'.extTable rfl).trans (eq.extTable.trans (f.extTable rfl).symm)
      builtWithMmu := f'.builtWithMmu.trans (eq.builtWithMmu.trans f.builtWithMmu.symm) }

theorem StatusEq.mstatushWrite {h' : Hart} (eq : StatusEq h h') (val : Reg) :
    StatusEq (h.mstatushWrite cfg val) (h'.mstatushWrite cfg val) := by
  rw [Hart.mstatushWrite, Hart.mstatushWrite, eq.mstatus]
  cases cfg.isa.xlen with
  | rv32 => exact eq.mstatusWrite _
  | rv64 => exact eq

theorem mEntry (t : Trap) (epc : Reg) : MEntry cfg h t epc (h.trapToM cfg t epc) := by
  unfold trapToM
  extract_lets prv currVirt h₁ h₂ h₃ h₄ h₅ h₆ h₇ s h₈ h₉
  have h₁eq : h₁ = { h with v := h.v && h.prv == prvM } := setVirt_false_eq
  clear_value h₁
  subst h₁eq
  have f₇ : Frame mTouched h₂ h₇ :=
    ((((Frame.set rfl _).trans (Frame.set rfl _)).trans (Frame.set rfl _)).trans
      (Frame.set rfl _)).trans
      (Frame.set rfl _)
  have f : Frame (fun c => c == .mstatus) h₇ h₉ :=
    (Frame.mstatusWrite rfl s).trans (Frame.mstatushWrite rfl _)
  have f₉ : Frame mTouched h₂ h₉ := by
    refine f₇.trans (f.mono fun c hc => beq_eq_false_iff_ne.2 ?_)
    rintro rfl
    exact absurd hc (by decide)
  exact
    { prv := f₉.legalizePrivilege rfl prvM
      v := f₉.v
      pc := f₉.pc
      cause := f.reg .mcause rfl
      epc := f.reg .mepc rfl
      status := by
        have eq : StatusEq h h₇ := ⟨rfl, rfl, rfl, rfl⟩
        exact ((eq.mstatusWrite s).mstatushWrite _).mstatus
      reg := f₉.reg
      extTable := f₉.extTable rfl
      builtWithMmu := f₉.builtWithMmu }

/-! ### The three together -/

/-- A trap is delegated below M only. -/
theorem le_of_delegated {deleg bit : Reg} (hd : h.delegated cfg deleg bit = true) :
    h.prv ≤ prvS := by
  rw [delegated, Bool.and_eq_true, Bool.and_eq_true] at hd
  exact of_decide_eq_true hd.1.1

/-- S is below M. -/
theorem ne_machine_of_le (hp : h.prv ≤ prvS) : h.prv ≠ prvM := by
  intro heq
  rw [heq] at hp
  exact absurd hp (by decide)

/-- Only a virtualized hart below M goes to VS. -/
theorem of_destination_vs {t : Trap} (hdest : h.trapDestination cfg t = .vs) :
    h.v = true ∧ h.prv ≤ prvS := by
  rw [trapDestination] at hdest
  split at hdest
  · rename_i hd
    refine ⟨?_, le_of_delegated hd⟩
    cases hv : h.v with
    | true => rfl
    | false =>
      rw [vsdeleg, hv, delegated] at hd
      simp at hd
  · split at hdest
    · exact absurd hdest (by decide)
    · exact absurd hdest (by decide)

/-- Only a hart below M goes to HS. -/
theorem of_destination_hs {t : Trap} (hdest : h.trapDestination cfg t = .hs) : h.prv ≤ prvS := by
  rw [trapDestination] at hdest
  split at hdest
  · exact absurd hdest (by decide)
  · split at hdest
    · rename_i hd
      exact le_of_delegated hd
    · exact absurd hdest (by decide)

/-- **What `take_trap` leaves behind.** -/
theorem takeTrap_entry (cfg : Config) (hd : h.debugMode = false) (t : Trap) (epc : Reg) :
    match h.trapDestination cfg t with
    | .vs => VsEntry cfg h t epc (h.takeTrap cfg t epc)
    | .hs => HsEntry cfg h t epc (h.takeTrap cfg t epc)
    | .m => MEntry cfg h t epc (h.takeTrap cfg t epc) := by
  rw [takeTrap, hd, if_neg (by decide)]
  cases hdest : h.trapDestination cfg t with
  | vs => exact vsEntry (of_destination_vs hdest).1 t epc
  | hs => exact hsEntry (ne_machine_of_le (of_destination_hs hdest)) t epc
  | m => exact mEntry t epc

end Hart

end Nnemu

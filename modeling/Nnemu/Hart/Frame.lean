import Nnemu.Field
import Nnemu.Hart.Machine

/-!
# What a CSR write leaves alone

No write to a CSR object touches the mode of the hart, and each changes few registers:
`Csr.footprint` says which. `Hart.Frame` records both, composes along sequences of writes, and is
proved once for every object (`Frame.write`), so that later proofs do not unfold the writes they
only pass through.

A write can reach other registers than its own in three ways only: the write to `misa` that switches
H off clears what belongs to the hypervisor, the registers of the floating point and vector units
make their status field dirty, and the two compare registers of the timer update `mip`. The
footprint is made of these three, and a register outside it keeps its value together with `pc`, the
privilege level, the virtualization mode and the debug mode.

The proofs follow the objects of `csrs.cc`: one lemma for each kind of write under the header
*Single writes*, one for `misa` with its three outcomes spelled out (`misaWrite_cases`), and one
case analysis over the register that puts them together. Traps, returns and the debug module are
sequences of such writes, so their frames come from `Frame.trans` and `Frame.mono` alone.
-/

namespace Nnemu

/-- The registers a write to `misa` changes when it switches H off: the delegations, the status
registers that have hypervisor fields, the interrupt registers and the events of the counters, whose
inhibit bits for virtual modes go. -/
def Csr.misaFootprint : Csr → Bool
  | misa => true
  | medeleg => true
  | mnstatus => true
  | mstatus => true
  | mie => true
  | mip => true
  | hstatus => true
  | mevent _ => true
  | _ => false

/-- The registers that making a status field dirty changes. `sstatus` is `mstatus` behind a mask, so
it needs no entry. -/
def Csr.dirtyFootprint : Csr → Bool
  | mstatus => true
  | vsstatus => true
  | _ => false

/-- The registers besides itself that a write to `c` changes. -/
def Csr.sideFootprint (c : Csr) : Csr → Bool :=
  match c with
  | misa => misaFootprint
  | fflags | frm | vxsat | vstart | vxrm | vl | vtype | vlenb => dirtyFootprint
  | stimecmp | vstimecmp => fun c' => c' = mip
  | _ => fun _ => false

/-- The registers a write to `c` changes: itself, and what `sideFootprint` says. It is an upper
bound, since a write of the value that is there changes nothing. -/
def Csr.footprint (c c' : Csr) : Bool :=
  c' = c || c.sideFootprint c'

namespace Hart

/-- What a step with the registers `changed` leaves as it was: the mode of the hart in all its
parts, every register outside `changed`, and the extensions unless `misa` is among them. `dcsr` is
no such register and is not kept, but the privilege level recorded in it keeps its two bits. -/
structure Frame (changed : Csr → Bool) (h h' : Hart) : Prop where
  pc : h'.pc = h.pc
  prv : h'.prv = h.prv
  v : h'.v = h.v
  debugMode : h'.debugMode = h.debugMode
  builtWithMmu : h'.builtWithMmu = h.builtWithMmu
  extTable : changed .misa = false → h'.extTable = h.extTable
  reg : ∀ c, changed c = false → h'.reg c = h.reg c
  dcsr : h.dcsr.prv.toNat ≤ 3 → h'.dcsr.prv.toNat ≤ 3

namespace Frame

variable {cfg : Config} {h h' h'' : Hart} {s s' : Csr → Bool}

theorem refl (s : Csr → Bool) (h : Hart) : Frame s h h :=
  ⟨rfl, rfl, rfl, rfl, rfl, fun _ => rfl, fun _ _ => rfl, id⟩

theorem trans (f : Frame s h h') (g : Frame s h' h'') : Frame s h h'' where
  pc := g.pc.trans f.pc
  prv := g.prv.trans f.prv
  v := g.v.trans f.v
  debugMode := g.debugMode.trans f.debugMode
  builtWithMmu := g.builtWithMmu.trans f.builtWithMmu
  extTable hs := (g.extTable hs).trans (f.extTable hs)
  reg c hc := (g.reg c hc).trans (f.reg c hc)
  dcsr hd := g.dcsr (f.dcsr hd)

/-- More registers may change. -/
theorem mono (f : Frame s h h') (hs : ∀ c, s' c = false → s c = false) : Frame s' h h' where
  pc := f.pc
  prv := f.prv
  v := f.v
  debugMode := f.debugMode
  builtWithMmu := f.builtWithMmu
  extTable hm := f.extTable (hs _ hm)
  reg c hc := f.reg c (hs c hc)
  dcsr := f.dcsr

/-- An extension keeps its state while `misa` is not written. -/
theorem extensionEnabled (f : Frame s h h') (hm : s .misa = false) (ext : Ext) :
    h'.extensionEnabled ext = h.extensionEnabled ext := by
  rw [Hart.extensionEnabled, Hart.extensionEnabled, f.reg _ hm, f.extTable hm]

/-- A privilege level is legalized as before. -/
theorem legalizePrivilege (f : Frame s h h') (hm : s .misa = false) (prv : Reg) :
    h'.legalizePrivilege prv = h.legalizePrivilege prv := by
  rw [Hart.legalizePrivilege, Hart.legalizePrivilege, f.extensionEnabled hm, f.extensionEnabled hm]

/-- A conditional step. -/
theorem ite {b : Prop} [Decidable b] (f : Frame s h h') (g : Frame s h h'') :
    Frame s h (if b then h' else h'') := by
  split
  · exact f
  · exact g

/-! ### Single writes -/

/-- A register is set, and none but it changes. -/
theorem set (hc : s c = true) (val : Reg) : Frame s h (h.set c val) where
  pc := rfl
  prv := rfl
  v := rfl
  debugMode := rfl
  builtWithMmu := rfl
  extTable _ := rfl
  reg c' hc' := by
    have hne : c' ≠ c := by
      rintro rfl
      exact absurd hc (Bool.not_eq_true _ ▸ hc')
    rw [reg_set, if_neg hne]
  dcsr := id

/-- A flush of the TLB is only counted. -/
theorem flushTlb (s : Csr → Bool) (h : Hart) : Frame s h h.flushTlb :=
  ⟨rfl, rfl, rfl, rfl, rfl, fun _ => rfl, fun _ _ => rfl, id⟩

/-- What has aborted takes no further step, and keeps its registers. -/
theorem abort (s : Csr → Bool) (h : Hart) : Frame s h h.abort :=
  ⟨rfl, rfl, rfl, rfl, rfl, fun _ => rfl, fun _ _ => rfl, id⟩

/-- The flush that a write to a status register may ask for. -/
theorem maybeFlushTlb (s : Csr → Bool) (h : Hart) (newval old : Reg) :
    Frame s h (h.maybeFlushTlb cfg newval old) :=
  ite (flushTlb s h) (refl s h)

/-- A write to `mstatus` changes the register, and the hart may have to flush its TLB. -/
theorem mstatusWrite (hs : s .mstatus = true) (val : Reg) : Frame s h (h.mstatusWrite cfg val) :=
  (maybeFlushTlb s h _ _).trans (set hs _)

/-- A write to `vsstatus`, which asks for a flush with `V = 1` only. -/
theorem vsstatusWrite (hs : s .vsstatus = true) (val : Reg) : Frame s h (h.vsstatusWrite cfg val) :=
  (ite (maybeFlushTlb s h _ _) (refl s h)).trans (set hs _)

/-- `sstatus` without virtualization is `mstatus` behind a mask. -/
theorem sstatusProxyWrite (hs : s .mstatus = true) (val : Reg) :
    Frame s h (h.sstatusProxyWrite cfg val) :=
  mstatusWrite hs _

/-- The upper half on RV32 is written through the whole register. -/
theorem mstatushWrite (hs : s .mstatus = true) (val : Reg) :
    Frame s h (h.mstatushWrite cfg val) := by
  rw [Hart.mstatushWrite]
  split
  · exact mstatusWrite hs _
  · exact refl s h

/-- `dirty()` writes `mstatus`, and `vsstatus` as well with `V = 1`. Where the field is off it
aborts, and this changes no register either. -/
theorem dirty (dirties : Reg) : Frame Csr.dirtyFootprint h (h.dirty cfg dirties) := by
  rw [Hart.dirty]
  split
  · exact refl _ h
  · have habort : Frame Csr.dirtyFootprint h
      (if h.sstatusEnabled cfg dirties then h else h.abort) :=
      ite (refl _ h) (abort _ h)
    exact (habort.trans (sstatusProxyWrite rfl _)).trans (ite (vsstatusWrite rfl _) (refl _ _))

/-- The triggers are no registers of the frame. -/
theorem triggersWrite (s : Csr → Bool) (h : Hart) (ts : Option Triggers) :
    Frame s h (h.triggersWrite ts) := by
  cases ts with
  | none => exact refl s h
  | some ts => exact ⟨rfl, rfl, rfl, rfl, rfl, fun _ => rfl, fun _ _ => rfl, id⟩

/-- Neither are the protection regions. -/
theorem pmpWrite (s : Csr → Bool) (h : Hart) (p : Option Pmp) : Frame s h (h.pmpWrite p) := by
  cases p with
  | none => exact refl s h
  | some p => exact ⟨rfl, rfl, rfl, rfl, rfl, fun _ => rfl, fun _ _ => rfl, id⟩

/-- A write to `dcsr` keeps two bits for the privilege level. -/
theorem dcsrWrite (s : Csr → Bool) (h : Hart) (val : Reg) : Frame s h (h.dcsrWrite val) :=
  ⟨rfl, rfl, rfl, rfl, rfl, fun _ => rfl, fun _ _ => rfl,
    fun _ => getField_toNat_le (k := 0) rfl (by decide) val⟩

/-! ### `misa` -/

/-- An extension is switched, which counts as a change of `misa`. -/
theorem setExtensionEnable (hs : s .misa = true) (ext : Ext) (b : Bool) :
    Frame s h (h.setExtensionEnable cfg ext b) :=
  ⟨rfl, rfl, rfl, rfl, rfl, fun hm => absurd (hs.symm.trans hm) (by decide), fun _ _ => rfl, id⟩

theorem updateExtensions (hs : s .misa = true) (new_misa : Reg) :
    Frame s h (h.updateExtensions cfg new_misa) :=
  ((((((((((refl s h).trans (setExtensionEnable hs _ _)).trans (setExtensionEnable hs _ _)).trans
    (setExtensionEnable hs _ _)).trans (setExtensionEnable hs _ _)).trans
    (setExtensionEnable hs _ _)).trans (setExtensionEnable hs _ _)).trans
    (setExtensionEnable hs _ _)).trans (setExtensionEnable hs _ _)).trans
    (setExtensionEnable hs _ _)).trans (setExtensionEnable hs _ _)

/-- The table of the extensions without a letter is all that changes. -/
theorem updateExtensions_eq (cfg : Config) (h : Hart) (new_misa : Reg) :
    ∃ ext, h.updateExtensions cfg new_misa = { h with extTable := ext } := by
  have next {h' : Hart} (name : Ext) (b : Bool) (he : ∃ ext, h' = { h with extTable := ext }) :
      ∃ ext, h'.setExtensionEnable cfg name b = { h with extTable := ext } := by
    obtain ⟨ext, rfl⟩ := he
    exact ⟨_, rfl⟩
  exact next _ _
    (next _ _ (next _ _ (next _ _ (next _ _ (next _ _ (next _ _ (next _ _ (next _ _ (next _ _
    ⟨h.extTable, rfl⟩)))))))))

theorem extensionEnabled_updateExtensions (new_misa : Reg) :
    (h.updateExtensions cfg new_misa).extensionEnabled .h = h.extensionEnabled .h := by
  obtain ⟨ext, heq⟩ := updateExtensions_eq cfg h new_misa
  rw [heq]
  rfl

/-- Steps that are repeated for a list, such as the clearing of the event registers. -/
theorem foldl {α : Type} (f : Hart → α → Hart) (hf : ∀ h a, Frame s h (f h a)) (l : List α) :
    ∀ h, Frame s h (l.foldl f h) := by
  induction l with
  | nil => exact refl s
  | cons a l ih => exact fun h => (hf h a).trans (ih (f h a))

/-- Switching H off changes the footprint of `misa` without `misa` itself. -/
theorem clearHypervisor :
    Frame (fun c => c != .misa && Csr.misaFootprint c) h (h.clearHypervisor cfg) := by
  have hmnpv (h : Hart) : Frame (fun c => c != .misa && Csr.misaFootprint c) h (h.clearMnpv cfg) :=
    ite (set rfl _) (refl _ h)
  refine Frame.trans ?_ (foldl _ (fun h i => set rfl _) _ _)
  refine Frame.trans ?_ (set rfl _)
  refine Frame.trans ?_ (set rfl _)
  refine Frame.trans ?_ (set rfl _)
  refine Frame.trans ?_ (mstatushWrite rfl _)
  refine Frame.trans ?_ (mstatusWrite rfl _)
  exact (set rfl _).trans (hmnpv _)

end Frame

/-- **The three outcomes of a write to `misa`.** It is ignored, it leaves H or its absence alone, or
it switches H off. -/
theorem misaWrite_cases (cfg : Config) (h : Hart) (val : Reg) :
    (h.misaWrite cfg val = h ∧ (h.reg .misa).getLsbD 2 = true ∧ h.pc.getLsbD 1 = true) ∨
      (h.misaWrite cfg val = (h.updateExtensions cfg (h.newMisa cfg val)).set
        .misa (h.newMisa cfg val) ∧
        (h.extensionEnabled .h = true → (h.newMisa cfg val).getLsbD 7 = true)) ∨
      (h.misaWrite cfg val =
          ((h.updateExtensions cfg (h.newMisa cfg val)).clearHypervisor cfg).set
            .misa (h.newMisa cfg val) ∧
        h.extensionEnabled .h = true ∧ (h.newMisa cfg val).getLsbD 7 = false) := by
  have hbit (x : Reg) : hasBits x (Isa.misaMask .h) = x.getLsbD 7 := by
    rw [BitVec.getLsbD_eq_getElem (by decide)]
    exact hasBits_twoPow (k := 7) (by decide) x
  unfold misaWrite
  dsimp only
  rw [hbit, hbit]
  split
  · rename_i hc
    simp only [Bool.and_eq_true] at hc
    obtain ⟨⟨-, hcOld⟩, hpc⟩ := hc
    refine .inl ⟨rfl, ?_, ?_⟩
    · rw [← hcOld, BitVec.getLsbD_eq_getElem (by decide)]
      exact (hasBits_twoPow (k := 2) (by decide) _).symm
    · rw [← hpc, BitVec.getLsbD_eq_getElem (by decide)]
      exact (hasBits_twoPow (k := 1) (by decide) _).symm
  · refine .inr ?_
    cases hold : (h.reg .misa).getLsbD 7 with
    | false =>
      refine .inl ⟨?_, fun hh => absurd (hold.symm.trans hh) (by decide)⟩
      rw [Bool.and_false, if_neg (by decide)]
    | true =>
      cases hnew : (h.newMisa cfg val).getLsbD 7 with
      | true => exact .inl ⟨by rw [Bool.not_true, Bool.false_and, if_neg (by decide)], fun _ => rfl⟩
      | false => exact .inr ⟨by rw [Bool.not_false, Bool.true_and, if_pos rfl], hold, rfl⟩

namespace Frame

/-- A write to `misa`, whatever comes of it. -/
theorem misaWrite (val : Reg) : Frame Csr.misaFootprint h (h.misaWrite cfg val) := by
  obtain ⟨heq, -⟩ | ⟨heq, -⟩ | ⟨heq, -⟩ := misaWrite_cases cfg h val
  · rw [heq]
    exact refl _ h
  · rw [heq]
    exact (updateExtensions rfl _).trans (set rfl _)
  · rw [heq]
    refine Frame.trans ?_ (set rfl _)
    exact (updateExtensions rfl _).trans
      (clearHypervisor.mono fun c hc => Bool.and_eq_false_imp.2 fun _ => hc)

/-! ### Every object -/

theorem footprint_self (c : Csr) : c.footprint c = true := by
  simp [Csr.footprint]

/-- A write to one register is within its footprint. -/
theorem set_footprint (c : Csr) (val : Reg) : Frame c.footprint h (h.set c val) :=
  set (footprint_self c) val

/-- A step within the side effects of `c`, then a write to `c`. -/
theorem then_set {c : Csr} (f : Frame c.sideFootprint h h') (val : Reg) :
    Frame c.footprint h (h'.set c val) := by
  refine Frame.trans (f.mono ?_) (set_footprint c val)
  intro c' hc'
  rw [Csr.footprint, Bool.or_eq_false_iff] at hc'
  exact hc'.2

/-- The registers of the vector unit make `VS` dirty first. -/
theorem vectorWrite (mask val : Reg) {c : Csr} (hc : c.sideFootprint = Csr.dirtyFootprint) :
    Frame c.footprint h (h.vectorWrite cfg mask c val) := by
  rw [Hart.vectorWrite]
  split
  · exact refl _ h
  · exact then_set (hc ▸ dirty mstatusVs) _

/-- **Footprints.** A write to a CSR object changes the registers in its footprint only. This is the
one place where all the writes are gone through; the invariants of the hart use it for every
register they are not about. -/
theorem write (val : Reg) (c : Csr) : Frame c.footprint h (h.write cfg val c) := by
  cases c
  case misa => exact (misaWrite val).mono (fun c hc => (Bool.or_eq_false_iff.1 hc).2)
  case mstatus => exact mstatusWrite rfl val
  case vsstatus => exact vsstatusWrite rfl val
  case time => exact refl _ h
  case satp => exact (ite (flushTlb _ h) (refl _ h)).trans (set_footprint _ _)
  case vsatp => exact (ite (flushTlb _ h) (refl _ h)).trans (set_footprint _ _)
  case hgatp => exact (flushTlb _ h).trans (set_footprint _ _)
  case stimecmp => exact then_set (c := .stimecmp) (set rfl _) val
  case vstimecmp => exact then_set (c := .vstimecmp) (set rfl _) val
  case fflags => exact then_set (c := .fflags) (dirty mstatusFs) _
  case frm => exact then_set (c := .frm) (dirty mstatusFs) _
  case vxsat => exact then_set (c := .vxsat) (dirty mstatusVs) _
  case vstart => exact vectorWrite _ val rfl
  case vxrm => exact vectorWrite _ val rfl
  case vl => exact vectorWrite _ val rfl
  case vtype => exact vectorWrite _ val rfl
  case vlenb => exact vectorWrite _ val rfl
  all_goals exact set_footprint _ _

/-- The mode survives every write. -/
theorem anyWrite (val : Reg) (c : Csr) : Frame (fun _ => true) h (h.write cfg val c) :=
  (write val c).mono fun _ hc => absurd hc (by decide)

end Frame

end Hart

end Nnemu

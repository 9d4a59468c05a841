import Nnemu.Hart.Footprint
import Nnemu.Hart.Reachable

/-!
# What every write to one register keeps

A property of the value of one register is an invariant of the hart when it holds after a reset,
when every write to a CSR object keeps it and when `dirty()` does. Traps, returns and debug entry
are made of such writes, and the devices touch other registers (`Kept.reachable`).

The three conditions are the fields of `Kept`. Most registers that keep a property are written by
their own object only, and for these one condition is left (`Kept.of_own`). The registers that
events change without an object (the counters, `mip`, `mie`, `time`) and `jvt`, which a reset does
not set, are left out by `Csr.calm`.
-/

namespace Nnemu

/-- Registers that only writes to CSR objects and a reset change. -/
def Csr.calm : Csr → Bool
  | mip | mie | minstret | mcycle | time | jvt => false
  | _ => true

namespace Hart

variable {cfg : Config} {h h' : Hart} {c : Csr} {Q : Reg → Prop}

/-- Every way to change the register `c` keeps `Q`. -/
structure Kept (cfg : Config) (c : Csr) (Q : Reg → Prop) : Prop where
  calm : c.calm = true
  write : ∀ (h : Hart) (c' : Csr) (val : Reg), Q (h.reg c) → Q ((h.write cfg val c').reg c)
  dirty : ∀ (h : Hart) (dirties : Reg), Q (h.reg c) → Q ((h.dirty cfg dirties).reg c)
  reset : ∀ mask, Q (cfg.resetReg mask c)

namespace Kept

theorem set {c' : Csr} (hne : c' ≠ c) (val : Reg) (hq : Q (h.reg c)) :
    Q ((h.set c' val).reg c) := by
  rwa [reg_set, if_neg hne.symm]

theorem ne_of_calm (hc : c.calm = true) {c' : Csr} (hc' : c'.calm = false) : c' ≠ c := by
  rintro rfl
  exact absurd (hc.symm.trans hc') (by decide)

/-- Besides the object itself, `misa` and the objects with a state field write to it. -/
theorem of_parts (hcalm : c.calm = true)
    (hown : ∀ (h : Hart) (val : Reg), Q (h.reg c) → Q ((h.write cfg val c).reg c))
    (hmisa : ∀ (h : Hart) (val : Reg), c ≠ .misa → Q (h.reg c) → Q ((h.misaWrite cfg val).reg c))
    (hdirty : ∀ (h : Hart) (dirties : Reg), Q (h.reg c) → Q ((h.dirty cfg dirties).reg c))
    (hreset : ∀ mask, Q (cfg.resetReg mask c)) : Kept cfg c Q where
  calm := hcalm
  write h c' val hq := by
    have vector (mask : Reg) {c' : Csr} (hne : c' ≠ c) :
        Q ((h.vectorWrite cfg mask c' val).reg c) := by
      rw [Hart.vectorWrite]
      split
      · exact hq
      · exact set hne _ (hdirty h _ hq)
    have other {c' : Csr} (hne : c' ≠ c) (hside : c'.sideFootprint c = false) :
        Q ((h.write cfg val c').reg c) := by
      rwa [(Frame.write val c').reg c (Bool.or_eq_false_iff.2 ⟨decide_eq_false hne.symm, hside⟩)]
    by_cases hc : c' = c
    · rw [hc]
      exact hown h val hq
    · cases c' with
      | misa => exact hmisa h val (Ne.symm hc) hq
      | fflags => exact set hc _ (hdirty h _ hq)
      | frm => exact set hc _ (hdirty h _ hq)
      | vxsat => exact set hc _ (hdirty h _ hq)
      | vstart => exact vector _ hc
      | vxrm => exact vector _ hc
      | vl => exact vector _ hc
      | vtype => exact vector _ hc
      | vlenb => exact vector _ hc
      | stimecmp => exact other hc (decide_eq_false (ne_of_calm hcalm rfl).symm)
      | vstimecmp => exact other hc (decide_eq_false (ne_of_calm hcalm rfl).symm)
      | _ => exact other hc rfl
  dirty := hdirty
  reset := hreset

/-- A register that is changed by writes to its own object only. -/
theorem of_own (hcalm : c.calm = true) (hmisa : c.misaFootprint = false)
    (hdirty : c.dirtyFootprint = false)
    (hown : ∀ (h : Hart) (val : Reg), Q (h.reg c) → Q ((h.write cfg val c).reg c))
    (hreset : ∀ mask, Q (cfg.resetReg mask c)) : Kept cfg c Q := by
  refine of_parts hcalm hown (fun h val _ hq => ?_) (fun h dirties hq => ?_) hreset
  · rwa [(Frame.misaWrite val).reg c hmisa]
  · rwa [(Frame.dirty dirties).reg c hdirty]

theorem objWrites (k : Kept cfg c Q) (w : ObjWrites cfg h h') (hq : Q (h.reg c)) :
    Q (h'.reg c) := by
  refine w.induct (P := fun h => Q (h.reg c)) ?_ ?_ ?_ ?_ hq
  · exact fun h c' val _ hq => k.write h c' val hq
  · exact fun h mask val hq => set (ne_of_calm k.calm rfl) _ hq
  · exact fun h mask val _ hq => set (ne_of_calm k.calm rfl) _ hq
  · intro h h' f hq
    rwa [f.reg c rfl]

theorem controlWrites (k : Kept cfg c Q) (w : ControlWrites cfg h h') (hq : Q (h.reg c)) :
    Q (h'.reg c) := by
  induction w with
  | refl => exact hq
  | write c' val _ _ _ ih => exact k.write _ c' val ih
  | quiet f _ ih => rwa [f.reg]

theorem resetHart (k : Kept cfg c Q) (cfg' : Config)
    (hcfg : ∀ mask, cfg'.resetReg mask c = cfg.resetReg mask c)
    (h : Hart) (halt : Bool) : Q ((Hart.reset cfg' h halt).reg c) := by
  obtain ⟨⟨mask, hreg⟩, -⟩ := reset_reg cfg' h halt
  rw [hreg c (ne_of_calm k.calm rfl).symm, hcfg]
  exact k.reset mask

/-- One event. -/
theorem event (k : Kept cfg c Q) (hq : Q (h.reg c)) (op : HartOp) : Q ((h.event cfg op).reg c) := by
  cases op with
  | csr which insn bits =>
    show Q ((h.orRefused cfg bits (h.csrInsn cfg which insn)).reg c)
    cases hok : h.csrInsn cfg which insn with
    | ok h' =>
      obtain ⟨h₁, w, rfl⟩ := csrInsn_writes hok
      show Q (h₁.reg c)
      exact k.objWrites w hq
    | error r => exact k.controlWrites (.refused bits r) hq
  | dirty state =>
    show Q ((if h.sstatusEnabled cfg state.mask then h.dirty cfg state.mask else h).reg c)
    split
    · exact k.dirty h _ hq
    · exact hq
  | reset halt => exact k.resetHart cfg (fun _ => rfl) h halt
  | bump instret => exact set (ne_of_calm k.calm rfl) _ (set (ne_of_calm k.calm rfl) _ hq)
  | timeSync mtime =>
    show Q ((h.timeSync mtime).reg c)
    rwa [(regFrame_timeSync mtime).reg c
      (Bool.or_eq_false_iff.2 ⟨decide_eq_false (ne_of_calm k.calm rfl).symm,
      decide_eq_false (ne_of_calm k.calm rfl).symm⟩)]
  | pin p level => exact set (ne_of_calm k.calm rfl) _ hq
  | _ => exact k.controlWrites (controlWrites_event trivial) hq

theorem step (k : Kept cfg c Q) (hq : Q (h.reg c)) (op : HartOp) : Q ((h.step cfg op).reg c) := by
  rw [Hart.step]
  split
  · exact hq
  · exact k.event hq op

theorem init (k : Kept cfg c Q) (halt : Bool) : Q ((Hart.init cfg halt).reg c) :=
  k.resetHart { cfg with impl := { cfg.impl with mmu := true } } (fun _ => rfl) (unbuilt cfg) halt

/-- **Invariants of one register.** -/
theorem reachable (k : Kept cfg c Q) (hr : Reachable cfg h) : Q (h.reg c) := by
  obtain ⟨halt, ops, rfl⟩ := hr
  exact Run.run_induct (I := fun (h : Hart) => Q (h.reg c)) (fun _ op hq => k.step hq op)
    (k.init halt) ops

end Kept

end Hart

end Nnemu

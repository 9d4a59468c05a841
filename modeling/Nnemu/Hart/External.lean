import Nnemu.Hart.Timer

/-!
# External interrupts

`MEIP` and `SEIP` are driven from outside the hart. Of all that happens to a hart, a reset and a
write to `mip` by its own address are what can change them besides: the views of `mip` leave them
out, and so do the timer and `misa`.
-/

namespace Nnemu

/-- `MIP_SEIP | MIP_MEIP` -/
def externalInts : Reg := mipSeip ||| mipMeip

namespace CsrObj

/-- `mip` itself. -/
def isMip : CsrObj → Bool
  | plain c => c == .mip
  | _ => false

/-- A view of `mip` that does not write external interrupts. -/
def sparesExternal : CsrObj → Bool
  | mipProxy _ accr => accr.ipWriteMask &&& externalInts == 0#64
  | virtualized orig virt => orig.sparesExternal && virt.sparesExternal
  | _ => false

end CsrObj

/-- **The views of `mip` leave out external interrupts.** -/
theorem sparesExternal_full (cfg : Config) :
    (csrmap cfg.full).all (fun e => !e.2.viewsMip || e.2.isMip || e.2.sparesExternal) = true := by
  obtain ⟨⟨xlen, table, exts, hu, hs⟩, impl, id, big, count, pmp, vlen, vlenb⟩ := cfg
  cases xlen <;> cases count <;>
    exact all_csrmap _ rfl rfl rfl rfl rfl rfl rfl (fun _ => rfl) rfl rfl rfl
      (fun _ => rfl) fun _ => rfl

namespace Hart

variable {cfg : Config} {h h' h'' : Hart}

/-- The external interrupts are as they were. -/
def SameExternal (h h' : Hart) : Prop :=
  h'.reg .mip &&& externalInts = h.reg .mip &&& externalInts

namespace SameExternal

theorem refl (h : Hart) : SameExternal h h := rfl

theorem trans (s : SameExternal h h') (s' : SameExternal h' h'') : SameExternal h h'' :=
  Eq.trans s' s

theorem of_eq (hmip : h'.reg .mip = h.reg .mip) : SameExternal h h' := by
  rw [SameExternal, hmip]

/-- A masked write of other bits. -/
theorem of_mask {mask : Reg} (hm : mask &&& externalInts = 0#64) (val : Reg) :
    SameExternal h (h.writeWithMask .mip mask val) :=
  Bits.and_replace_of_disjoint ((BitVec.and_comm _ _).trans hm)

/-- The timer has bits of its own. -/
theorem stimecmpWrite (c : Comparator) (val : Reg) :
    SameExternal h (h.stimecmpWrite c.mask c.csr val) := by
  have hne : Csr.mip ≠ c.csr := c.csr_ne (by decide) (by decide)
  have hm : c.mask &&& externalInts = 0#64 := by
    cases c with
    | stimecmp => rfl
    | vstimecmp => rfl
  have hset (h : Hart) : SameExternal h (h.set c.csr val) := of_eq (by rw [reg_set, if_neg hne])
  exact trans (of_mask hm _) (hset _)

theorem timeSync (mtime : Reg) : SameExternal h (h.timeSync mtime) := by
  unfold Hart.timeSync
  extract_lets h₁ mipVal
  split
  · have htime : SameExternal h h₁ := of_eq rfl
    exact htime.trans (of_mask rfl _)
  · exact of_eq rfl

/-- Switching H off clears the interrupts of VS. -/
theorem clearHypervisor : SameExternal h (h.clearHypervisor cfg) := by
  unfold Hart.clearHypervisor
  extract_lets h₁ h₂ newMstatus h₃ h₄ h₅ h₆ h₇
  have f₂ : Frame (fun c => c == .mnstatus) h₁ h₂ := Frame.ite (Frame.set rfl _) (Frame.refl _ _)
  have f₄ : Frame (fun c => c == .mstatus) h₂ h₄ :=
    (Frame.mstatusWrite rfl newMstatus).trans (Frame.mstatushWrite rfl _)
  have f₇ : Frame (fun c => c != .mip) h₆ ((List.finRange 29).foldl
      (fun h i => h.meventWrite cfg i (h.reg (.mevent i) &&& ~~~0x0C00000000000000#64)) h₇) :=
    (Frame.set rfl _).trans (Frame.foldl _ (fun h i => Frame.set rfl _) _ _)
  have hold : h₅.reg .mip = h.reg .mip := (f₄.reg .mip rfl).trans (f₂.reg .mip rfl)
  have hvs : SameExternal h₅ h₆ := of_mask (show mipHsMask &&& externalInts = 0#64 from rfl) _
  exact trans (of_eq hold) (hvs.trans (of_eq (f₇.reg .mip rfl)))

theorem misaWrite (val : Reg) : SameExternal h (h.misaWrite cfg val) := by
  have hupdate : SameExternal h (h.updateExtensions cfg (h.newMisa cfg val)) :=
    of_eq ((Frame.updateExtensions (s := fun c => c == .misa) rfl _).reg .mip rfl)
  have hset (h : Hart) (val : Reg) : SameExternal h (h.set .misa val) := of_eq rfl
  obtain ⟨heq, -⟩ | ⟨heq, -⟩ | ⟨heq, -⟩ := misaWrite_cases cfg h val
  · rw [heq]
    exact refl h
  · rw [heq]
    exact hupdate.trans (hset _ _)
  · rw [heq]
    exact (hupdate.trans clearHypervisor).trans (hset _ _)

/-- A write through a view. -/
theorem of_spares (o : CsrObj) (ho : o.sparesExternal = true) : ∀ (h : Hart) (val : Reg),
    SameExternal h (h.writeObj cfg val o) := by
  induction o with
  | mipProxy address accr =>
    intro h val
    have hm : accr.ipWriteMask &&& externalInts = 0#64 := eq_of_beq ho
    refine of_mask ?_ _
    rw [BitVec.and_assoc, hm]
    exact BitVec.and_zero
  | virtualized orig virt ihOrig ihVirt =>
    obtain ⟨hOrig, hVirt⟩ := Bool.and_eq_true_iff.1 ho
    intro h val
    rw [writeObj]
    split
    · exact ihVirt hVirt h val
    · exact ihOrig hOrig h val
  | _ => exact absurd ho Bool.false_ne_true

/-- **Writes to other registers than `mip`.** -/
theorem writeObj {which : Nat} {o : CsrObj} (hfind : csrFind cfg which = some o)
    (ho : o.isMip = false) (val : Reg) :
    SameExternal h (h.writeObj cfg val o) := by
  have hknown := (Bool.and_eq_true_iff.1 (regular_of_csrFind cfg hfind)).2
  have hspares := List.all_eq_true.1 (sparesExternal_full cfg) _ (mem_of_csrFind cfg hfind)
  rw [ho, Bool.or_false, Bool.or_eq_true, Bool.not_eq_true'] at hspares
  obtain hmip | hspares := hspares
  · rw [CsrObj.mipKnown, hmip, Bool.false_or, Bool.or_eq_true, Bool.or_eq_true,
      Bool.not_eq_true'] at hknown
    obtain (ht | hfoot) | hmisa := hknown
    · rw [writeObj_timer o ht val]
      exact stimecmpWrite _ _
    · exact of_eq ((Frame.writeObj o h val).reg .mip hfoot)
    · cases o with
      | plain r =>
        obtain rfl : r = .misa := eq_of_beq hmisa
        exact misaWrite val
      | _ => exact absurd hmisa Bool.false_ne_true
  · exact of_spares o hspares h val

end SameExternal

/-- A write to `mip` by its own address. -/
def WritesMipTo (cfg : Config) (h : Hart) (op : HartOp) (val : Reg) : Prop :=
  ∃ which insn bits, op = .csr which insn bits ∧ h.Writes cfg which insn (.plain .mip) val

/-- What drives external interrupts from outside. -/
def DrivesExternal : HartOp → Prop
  | .pin .seip _ => True
  | .pin .meip _ => True
  | _ => False

/-- **External interrupts** stay as they are but for a reset, a write to `mip`, and what drives
them. -/
theorem sameExternal_event {op : HartOp} (hw : ∀ val, ¬WritesMipTo cfg h op val)
    (hr : ∀ halt, op ≠ .reset halt)
    (hd : ¬DrivesExternal op) : SameExternal h (h.event cfg op) := by
  have frame {op : HartOp} (hm : op.footprint .misa = false) (hf : op.footprint .mip = false) :
      SameExternal h (h.event cfg op) := .of_eq ((RegFrame.event op hm).reg .mip hf)
  cases op with
  | csr which insn bits =>
    cases hok : h.csrInsn cfg which insn with
    | ok h₁ =>
      rw [event, hok]
      obtain ⟨h₂, rfl, rfl | ⟨o, val, w, rfl⟩⟩ := csrInsn_cases hok
      · exact .of_eq rfl
      · have ho : o.isMip = false := by
          cases hmip : o.isMip with
          | false => rfl
          | true =>
            cases o with
            | plain c =>
              obtain rfl : c = .mip := eq_of_beq hmip
              exact absurd ⟨which, insn, bits, rfl, w⟩ (hw val)
            | _ => exact absurd hmip Bool.false_ne_true
        exact SameExternal.trans (.writeObj w.find ho val) (.of_eq rfl)
    | error r =>
      rw [event, hok]
      have w : ControlWrites cfg h (h.refused cfg bits r) := .refused bits r
      exact .of_eq (w.regFrame.reg .mip rfl)
  | timeSync mtime => exact .timeSync mtime
  | pin p level =>
    cases p with
    | msip => exact .of_mask rfl _
    | mtip => exact .of_mask rfl _
    | seip => exact absurd trivial hd
    | meip => exact absurd trivial hd
  | reset halt => exact absurd rfl (hr halt)
  | _ => exact frame rfl rfl

/-- A write to `mip` moves `SEIP` with S, and `MEIP` never. -/
theorem mip_of_writesMipTo {op : HartOp} {val : Reg} (w : WritesMipTo cfg h op val) :
    (h.event cfg op).reg .mip = Bits.replace h.mipWriteMask (h.reg .mip) val := by
  obtain ⟨which, insn, bits, rfl, w⟩ := w
  rw [event, w.ok]
  rfl

theorem getLsbD_mipWriteMask (h : Hart) :
    h.mipWriteMask.getLsbD 9 = h.extensionEnabled .s ∧ h.mipWriteMask.getLsbD 11 = false := by
  unfold mipWriteMask
  cases h.extensionEnabled .s <;> cases h.extensionEnabled .sscofpmf <;>
    cases h.extensionEnabled .h <;>
    cases hasBits (h.reg .menvcfg) envcfgStce <;> exact ⟨rfl, rfl⟩

/-- A reset clears them. -/
theorem mip_reset (cfg : Config) (h : Hart) (halt : Bool) :
    (Hart.reset cfg h halt).reg .mip = 0#64 := by
  obtain ⟨⟨mask, hreg⟩, -⟩ := reset_reg cfg h halt
  exact hreg .mip (by decide)

end Hart

end Nnemu

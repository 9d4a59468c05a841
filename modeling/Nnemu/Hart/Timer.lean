import Nnemu.Hart.Footprint

/-!
# The timer comparators

`stimecmp` drives `mip.STIP` and `vstimecmp` drives `mip.VSTIP`. The bits are written by two
functions: `time_counter_csr_t::sync`, which compares both registers with the time each belongs to,
and `stimecmp_csr_t::unlogged_write`, which compares the new value with what `time` reads in the
present mode. Here is what each of them leaves, and that nothing else but a write to `mip` touches
the two bits.

Both functions are described by what they leave in the two bits and in every other bit of `mip`,
with the comparison as the source writes it. The bit of a comparator is then what its last writer
has left there, unless a write to `mip` has come between.
-/

namespace Nnemu

/-- A comparator and its bit in `mip`. -/
inductive Comparator where
  | stimecmp
  | vstimecmp
deriving DecidableEq

namespace Comparator

/-- The register of the comparator. -/
def csr : Comparator → Csr
  | stimecmp => .stimecmp
  | vstimecmp => .vstimecmp

/-- `intr_mask` -/
def mask : Comparator → Reg
  | stimecmp => mipStip
  | vstimecmp => mipVstip

/-- The number of the interrupt. -/
def bit : Comparator → Nat
  | stimecmp => 5
  | vstimecmp => 6

theorem bit_lt (c : Comparator) : c.bit < 64 := by
  cases c with
  | stimecmp => decide
  | vstimecmp => decide

theorem mask_eq (c : Comparator) : c.mask = BitVec.twoPow 64 c.bit := by
  cases c with
  | stimecmp => rfl
  | vstimecmp => rfl

/-- A register is no comparator. -/
theorem csr_ne {r : Csr} (hs : r ≠ .stimecmp) (hv : r ≠ .vstimecmp) (c : Comparator) :
    r ≠ c.csr := by
  cases c with
  | stimecmp => exact hs
  | vstimecmp => exact hv

end Comparator

/-- The comparator behind an entry, with and without virtualization. -/
def CsrObj.comparator (v : Bool) : CsrObj → Comparator
  | virtualizedStimecmp => if v then .vstimecmp else .stimecmp
  | rv32Low orig => orig.comparator v
  | rv32High orig => orig.comparator v
  | _ => .vstimecmp

namespace Hart

variable {cfg : Config} {h h' : Hart}

/-! ### The two bits -/

/-- Is the interrupt of the comparator pending? -/
def timerPending (h : Hart) (c : Comparator) : Bool :=
  hasBits (h.reg .mip) c.mask

/-- The time the comparator is to be compared with, when the CLINT shows `mtime`. -/
def dueTime (h : Hart) (mtime : Reg) : Comparator → Reg
  | .stimecmp => mtime
  | .vstimecmp => mtime + h.reg .htimedelta

/-- The bit of the comparator says whether its time has come. -/
def Exact (h : Hart) (c : Comparator) : Prop :=
  h.timerPending c = decide (h.reg c.csr ≤ h.dueTime (h.reg .time) c)

/-- **What `mip` has to say about the timer.** `STIP` belongs to the comparator with `menvcfg.STCE`
only. -/
structure TimerOk (h : Hart) : Prop where
  stip : hasBits (h.reg .menvcfg) envcfgStce = true → h.Exact .stimecmp
  vstip : h.Exact .vstimecmp

theorem timerPending_eq (h : Hart) (c : Comparator) :
    h.timerPending c = (h.reg .mip).getLsbD c.bit := by
  rw [timerPending, c.mask_eq, hasBits_twoPow c.bit_lt, BitVec.getLsbD_eq_getElem c.bit_lt]

/-- A masked write of `mip`. -/
theorem timerPending_writeWithMask (mask val : Reg) (c : Comparator) :
    (h.writeWithMask .mip mask val).timerPending c =
      if mask.getLsbD c.bit then val.getLsbD c.bit else h.timerPending c := by
  rw [timerPending_eq, timerPending_eq, writeWithMask, reg_set, if_pos rfl, Bits.getLsbD_replace]

/-- The bits come from `mip` alone. -/
theorem timerPending_congr (heq : h'.reg .mip = h.reg .mip) (c : Comparator) :
    h'.timerPending c = h.timerPending c := by
  rw [timerPending, timerPending, heq]

/-- Beside its bit, a comparator depends on other registers than `mip`. -/
theorem Exact.congr {c : Comparator} (ok : h.Exact c) (hp : h'.timerPending c = h.timerPending c)
    (hr : ∀ r, r ≠ .mip → h'.reg r = h.reg r) : h'.Exact c := by
  have hcsr : c.csr ≠ .mip := (c.csr_ne (by decide) (by decide)).symm
  have hdue : h'.dueTime (h.reg .time) c = h.dueTime (h.reg .time) c := by
    cases c with
    | stimecmp => rfl
    | vstimecmp => rw [dueTime, dueTime, hr .htimedelta (by decide)]
  rw [Exact, hp, hr .time (by decide), hr c.csr hcsr, hdue]
  exact ok

/-- Another bit of `mip` is driven. -/
theorem TimerOk.pin (ok : TimerOk h) {mask : Reg}
    (hm : ∀ c : Comparator, mask.getLsbD c.bit = false)
    (val : Reg) : TimerOk (h.writeWithMask .mip mask val) := by
  have hr : ∀ r, r ≠ .mip → (h.writeWithMask .mip mask val).reg r = h.reg r := fun r hne => by
    rw [writeWithMask, reg_set, if_neg hne]
  have hp (c : Comparator) : (h.writeWithMask .mip mask val).timerPending c = h.timerPending c := by
    rw [timerPending_writeWithMask, hm, if_neg (by decide)]
  refine ⟨fun hs => (ok.stip ?_).congr (hp _) hr, ok.vstip.congr (hp _) hr⟩
  rw [← hr .menvcfg (by decide)]
  exact hs

/-- The mask of a comparator holds its own bit. -/
theorem getLsbD_mask (c c' : Comparator) : c.mask.getLsbD c'.bit = decide (c' = c) := by
  cases c <;> cases c' <;> decide

/-! ### `stimecmp_csr_t::unlogged_write` -/

/-- A write to a comparator decides its own bit and leaves the other. -/
theorem timerPending_stimecmpWrite (c c' : Comparator) (val : Reg) :
    (h.stimecmpWrite c.mask c.csr val).timerPending c' =
      if c' = c then decide (val ≤ h.timeRead) else h.timerPending c' := by
  have hmip : (h.stimecmpWrite c.mask c.csr val).timerPending c' =
      (h.writeWithMask .mip c.mask (if val ≤ h.timeRead then c.mask else 0#64)).timerPending
        c' := by
    apply timerPending_congr
    rw [stimecmpWrite, reg_set, if_neg (c.csr_ne (by decide) (by decide))]
  rw [hmip, timerPending_writeWithMask, getLsbD_mask]
  by_cases hc : c' = c
  · rw [if_pos (decide_eq_true hc), if_pos hc]
    by_cases hle : val ≤ h.timeRead
    · rw [if_pos hle, getLsbD_mask, decide_eq_true hc, decide_eq_true hle]
    · rw [if_neg hle, BitVec.getLsbD_zero, decide_eq_false hle]
  · rw [if_neg (by simpa using hc), if_neg hc]

/-- What else it writes is the comparator. -/
theorem reg_stimecmpWrite (c : Comparator) (val : Reg) {r : Csr} (hr : r ≠ .mip) :
    (h.stimecmpWrite c.mask c.csr val).reg r = if r = c.csr then val else h.reg r := by
  rw [stimecmpWrite, reg_set, writeWithMask, reg_set, if_neg hr]

/-- The value that a write to an entry passes on to the comparator behind it: half of it is kept on
RV32. -/
def comparatorValue (cfg : Config) (h : Hart) (val : Reg) : CsrObj → Reg
  | .rv32Low orig =>
    comparatorValue cfg h ((h.writtenObj cfg orig >>> 32 <<< 32) ||| (val &&& 0xffffffff#64)) orig
  | .rv32High orig =>
    comparatorValue cfg h
      ((h.writtenObj cfg orig <<< 32 >>> 32) ||| ((val &&& 0xffffffff#64) <<< 32)) orig
  | _ => val

/-- **Writes through any view of a comparator are writes to it.** -/
theorem writeObj_timer (o : CsrObj) (ho : o.viewsTimer = true) (val : Reg) :
    h.writeObj cfg val o =
      h.stimecmpWrite (o.comparator h.v).mask (o.comparator h.v).csr
      (h.comparatorValue cfg val o) := by
  induction o generalizing val with
  | plain c =>
    obtain rfl : c = .vstimecmp := by simpa [CsrObj.viewsTimer] using ho
    rfl
  | virtualizedStimecmp =>
    rw [writeObj, CsrObj.comparator]
    cases h.v with
    | true => rfl
    | false => rfl
  | rv32Low orig ih => exact ih ho _
  | rv32High orig ih => exact ih ho _
  | _ => exact absurd ho (by simp [CsrObj.viewsTimer])

/-- What a write to a comparator needs to be exact: that the other bit is exact already, and, for
`vstimecmp`, that the time it is compared with is that of VS, or makes no difference. -/
def WriteExact (h : Hart) (val : Reg) : Comparator → Prop
  | .stimecmp => h.Exact .vstimecmp
  | .vstimecmp =>
    (hasBits (h.reg .menvcfg) envcfgStce = true → h.Exact .stimecmp) ∧
      (h.v = true ∨ (val ≤ h.reg .time ↔ val ≤ h.reg .time + h.reg .htimedelta))

/-- After a write to a comparator: its own bit. -/
theorem exact_stimecmpWrite_self (c : Comparator) (val : Reg) :
    (h.stimecmpWrite c.mask c.csr val).Exact c ↔
      (val ≤ h.timeRead ↔ val ≤ h.dueTime (h.reg .time) c) := by
  have htime := reg_stimecmpWrite (h := h) c val (r := .time) (by decide)
  have hdelta := reg_stimecmpWrite (h := h) c val (r := .htimedelta) (by decide)
  rw [if_neg (c.csr_ne (by decide) (by decide))] at htime hdelta
  have hdue : (h.stimecmpWrite c.mask c.csr val).dueTime (h.reg .time) c = h.dueTime
      (h.reg .time) c := by
    cases c with
    | stimecmp => rfl
    | vstimecmp => rw [dueTime, dueTime, hdelta]
  have hcsr : c.csr ≠ .mip := (c.csr_ne (by decide) (by decide)).symm
  rw [Exact, timerPending_stimecmpWrite, if_pos rfl, htime, hdue, reg_stimecmpWrite c val hcsr,
    if_pos rfl,
    decide_eq_decide]

/-- After a write to a comparator: the other bit. -/
theorem exact_stimecmpWrite_other {c c' : Comparator} (hc : c' ≠ c) (val : Reg) :
    (h.stimecmpWrite c.mask c.csr val).Exact c' ↔ h.Exact c' := by
  have hother {r : Csr} (hm : r ≠ .mip) (hr : r ≠ c.csr) :
      (h.stimecmpWrite c.mask c.csr val).reg r = h.reg r := by
    rw [reg_stimecmpWrite c val hm, if_neg hr]
  have hne : c'.csr ≠ c.csr := by
    cases c <;> cases c' <;> first | exact absurd rfl hc | decide
  have hdue : (h.stimecmpWrite c.mask c.csr val).dueTime (h.reg .time) c' = h.dueTime
      (h.reg .time) c' := by
    cases c' with
    | stimecmp => rfl
    | vstimecmp => rw [dueTime, dueTime, hother (by decide) (c.csr_ne (by decide) (by decide))]
  have htime := hother (r := .time) (by decide) (c.csr_ne (by decide) (by decide))
  have hcsr : c'.csr ≠ .mip := (c'.csr_ne (by decide) (by decide)).symm
  rw [Exact, Exact, timerPending_stimecmpWrite, if_neg hc, htime, hdue, hother hcsr hne]

/-- **A write to a comparator**, through whatever view, leaves `mip` right exactly when
`WriteExact`. -/
theorem timerOk_stimecmpWrite {c : Comparator} (hv : c = .stimecmp → h.v = false) (val : Reg) :
    TimerOk (h.stimecmpWrite c.mask c.csr val) ↔ h.WriteExact val c := by
  have hstce : (h.stimecmpWrite c.mask c.csr val).reg .menvcfg = h.reg .menvcfg := by
    rw [reg_stimecmpWrite c val (by decide), if_neg (c.csr_ne (by decide) (by decide))]
  cases c with
  | stimecmp =>
    have hself : (h.stimecmpWrite Comparator.stimecmp.mask Comparator.stimecmp.csr val).Exact
        .stimecmp := by
      rw [exact_stimecmpWrite_self, timeRead, hv rfl]
      rfl
    have hother :=
      exact_stimecmpWrite_other (h := h) (show Comparator.vstimecmp ≠ .stimecmp by decide) val
    exact ⟨fun ok => hother.1 ok.vstip, fun ok => ⟨fun _ => hself, hother.2 ok⟩⟩
  | vstimecmp =>
    have hother :=
      exact_stimecmpWrite_other (h := h) (show Comparator.stimecmp ≠ .vstimecmp by decide) val
    have hself : (h.stimecmpWrite Comparator.vstimecmp.mask Comparator.vstimecmp.csr val).Exact
      .vstimecmp ↔
        (h.v = true ∨ (val ≤ h.reg .time ↔ val ≤ h.reg .time + h.reg .htimedelta)) := by
      rw [exact_stimecmpWrite_self, timeRead, dueTime]
      cases h.v with
      | true => simp
      | false => simp
    constructor
    · intro ok
      exact ⟨fun hs => hother.1 (ok.stip (hstce.symm ▸ hs)), hself.1 ok.vstip⟩
    · intro ok
      exact ⟨fun hs => hother.2 (ok.1 (hstce ▸ hs)), hself.2 ok.2⟩

/-! ### `time_counter_csr_t::sync` -/

theorem reg_timeSync (mtime : Reg) {r : Csr} (hr : r ≠ .mip) :
    (h.timeSync mtime).reg r = if r = .time then mtime else h.reg r := by
  unfold timeSync
  extract_lets h₁ mipVal
  split
  · rw [writeWithMask, reg_set, if_neg hr]
    exact reg_set h .time r mtime
  · exact reg_set h .time r mtime

theorem extTable_timeSync (mtime : Reg) : (h.timeSync mtime).extTable = h.extTable := by
  unfold timeSync
  extract_lets h₁ mipVal
  split
  · rfl
  · rfl

/-- With Sstc, `sync` decides both bits; without it, it leaves them. -/
theorem timerPending_timeSync (mtime : Reg) (c : Comparator) :
    (h.timeSync mtime).timerPending c =
      if h.extensionEnabled .sstc then decide (h.reg c.csr ≤ h.dueTime mtime c)
        else h.timerPending c := by
  unfold timeSync
  extract_lets h₁ mipVal
  have hext : h₁.extensionEnabled .sstc = h.extensionEnabled .sstc := rfl
  rw [hext]
  split
  · have hmask : (mipStip ||| mipVstip).getLsbD c.bit = true := by
      cases c with
      | stimecmp => rfl
      | vstimecmp => rfl
    rw [timerPending_writeWithMask, if_pos hmask]
    have hval : mipVal = (if h.reg .stimecmp ≤ mtime then mipStip else 0#64) |||
        (if h.reg .vstimecmp ≤ mtime + h.reg .htimedelta then mipVstip else 0#64) := rfl
    rw [hval, BitVec.getLsbD_or]
    cases c with
    | stimecmp =>
      by_cases hle : h.reg .stimecmp ≤ mtime
      · simp [dueTime, Comparator.csr, Comparator.bit, hle, mipStip]
      · rw [if_neg hle]
        split <;> simp [dueTime, Comparator.csr, Comparator.bit, hle, mipVstip]
    | vstimecmp =>
      by_cases hle : h.reg .vstimecmp ≤ mtime + h.reg .htimedelta
      · simp [dueTime, Comparator.csr, Comparator.bit, hle, mipVstip]
      · rw [if_neg hle]
        split <;> simp [dueTime, Comparator.csr, Comparator.bit, hle, mipStip]
  · rfl

/-- After `sync`, both bits are exact. -/
theorem exact_timeSync (hs : h.extensionEnabled .sstc = true) (mtime : Reg) (c : Comparator) :
    (h.timeSync mtime).Exact c := by
  have hdue : (h.timeSync mtime).dueTime mtime c = h.dueTime mtime c := by
    cases c with
    | stimecmp => rfl
    | vstimecmp => rw [dueTime, dueTime, reg_timeSync mtime (by decide), if_neg (by decide)]
  rw [Exact, timerPending_timeSync, if_pos hs, reg_timeSync mtime (r := .time) (by decide),
    if_pos rfl, hdue,
    reg_timeSync mtime (c.csr_ne (by decide) (by decide)).symm,
    if_neg (c.csr_ne (by decide) (by decide)).symm]

theorem timerOk_timeSync (hs : h.extensionEnabled .sstc = true) (mtime : Reg) :
    TimerOk (h.timeSync mtime) :=
  ⟨fun _ => exact_timeSync hs mtime .stimecmp, exact_timeSync hs mtime .vstimecmp⟩

/-- A second look at the same time changes nothing exactly if the bit was exact. -/
theorem resync_iff (hs : h.extensionEnabled .sstc = true) (c : Comparator) :
    (h.timeSync (h.reg .time)).timerPending c = h.timerPending c ↔ h.Exact c := by
  rw [timerPending_timeSync, if_pos hs, Exact]
  exact eq_comm

/-! ### What leaves `mip` alone -/

/-- `misa` leaves `mip` alone unless it switches H off. -/
theorem mip_misaWrite (val : Reg)
    (hh : h.extensionEnabled .h = true → (h.misaWrite cfg val).extensionEnabled .h = true) :
    (h.misaWrite cfg val).reg .mip = h.reg .mip := by
  have hupdate : (h.updateExtensions cfg (h.newMisa cfg val)).reg .mip = h.reg .mip :=
    (Frame.updateExtensions (s := fun c => c == .misa) rfl _).reg .mip rfl
  obtain ⟨heq, -⟩ | ⟨heq, -⟩ | ⟨heq, hon, hoff⟩ := misaWrite_cases cfg h val
  · rw [heq]
  · rw [heq, reg_set, if_neg (by decide), hupdate]
  · have hnew : (h.misaWrite cfg val).extensionEnabled .h = false := by
      rw [heq, extensionEnabled_h, reg_set, if_pos rfl, hoff]
    exact absurd ((hh hon).symm.trans hnew) (by decide)

/-! ### Who changes the bits -/

/-- Software writes `mip`: by a view of it, or by switching H off, which clears the interrupts of
VS. A reset clears it as well. -/
def WritesMip (cfg : Config) (h : Hart) : HartOp → Prop
  | .csr which insn _ =>
    (∃ o val, h.Writes cfg which insn o val ∧ o.viewsMip = true) ∨
      ∃ val, h.WritesMisa cfg which insn val ∧ h.extensionEnabled .h = true ∧
        (h.misaWrite cfg val).extensionEnabled .h = false
  | .reset _ => True
  | _ => False

/-- The timer has no part in the event, or it finds the bit as its comparison would make it. -/
def TimerQuiet (cfg : Config) (c : Comparator) (h : Hart) : HartOp → Prop
  | .csr which insn _ => ∀ o val, h.Writes cfg which insn o val → o.viewsTimer = true →
      o.comparator h.v = c → h.timerPending c = decide (h.comparatorValue cfg val o ≤ h.timeRead)
  | .timeSync mtime => h.extensionEnabled .sstc = true →
      h.timerPending c = decide (h.reg c.csr ≤ h.dueTime mtime c)
  | _ => True

/-- A write to an entry that is no view of `mip`, and does not switch H off. -/
theorem timerPending_writeObj {which : Nat} {insn : CsrInsn} {o : CsrObj} {val : Reg}
    (w : h.Writes cfg which insn o val) (bits : Reg)
    (hop : ¬ WritesMip cfg h (.csr which insn bits))
    (c : Comparator) :
    (h.writeObj cfg val o).timerPending c = h.timerPending c ↔
      TimerQuiet cfg c h (.csr which insn bits) := by
  have hknown := (Bool.and_eq_true_iff.1 (regular_of_csrFind cfg w.find)).2
  have hmip : o.viewsMip = false := Bool.eq_false_iff.2 fun hm => hop (.inl ⟨o, val, w, hm⟩)
  cases ht : o.viewsTimer with
  | true =>
    rw [writeObj_timer o ht val, timerPending_stimecmpWrite]
    by_cases hc : c = o.comparator h.v
    · rw [if_pos hc]
      constructor
      · intro heq o' val' w' _ _
        obtain ⟨rfl, rfl⟩ := w.unique w'
        exact heq.symm
      · exact fun hq => (hq o val w ht hc.symm).symm
    · rw [if_neg hc]
      refine iff_of_true rfl fun o' val' w' _ hc' => ?_
      obtain ⟨rfl, rfl⟩ := w.unique w'
      exact absurd hc'.symm hc
  | false =>
    have hquiet : TimerQuiet cfg c h (.csr which insn bits) := fun o' val' w' ht' _ => by
      obtain ⟨rfl, rfl⟩ := w.unique w'
      exact absurd (ht.symm.trans ht') (by decide)
    refine iff_of_true (timerPending_congr ?_ c) hquiet
    rw [CsrObj.mipKnown, hmip, ht, Bool.false_or, Bool.false_or, Bool.or_eq_true] at hknown
    obtain hfoot | hmisa := hknown
    · exact (Frame.writeObj o h val).reg .mip (by simpa using hfoot)
    · cases o with
      | plain r =>
        obtain rfl : r = .misa := by simpa [CsrObj.isMisa] using hmisa
        refine mip_misaWrite val fun hh => ?_
        by_contra hoff
        exact hop (.inr ⟨val, ⟨w.find, (canWrite_of_verified w.verified).machine rfl, w.value⟩, hh,
          Bool.eq_false_iff.2 hoff⟩)
      | _ => exact absurd hmisa (by simp [CsrObj.isMisa])

/-- **What moves the bits of the timer.** An event that is no write to `mip` leaves the bit of a
comparator exactly if the timer has no part in it or agrees with it. -/
theorem timerPending_event {op : HartOp} (hop : ¬ WritesMip cfg h op) (c : Comparator) :
    (h.event cfg op).timerPending c = h.timerPending c ↔ TimerQuiet cfg c h op := by
  have same {op : HartOp} (hq : TimerQuiet cfg c h op)
    (heq : (h.event cfg op).reg .mip = h.reg .mip) :
      (h.event cfg op).timerPending c = h.timerPending c ↔ TimerQuiet cfg c h op :=
    iff_of_true (timerPending_congr heq c) hq
  have frame {op : HartOp} (hm : op.footprint .misa = false) (hf : op.footprint .mip = false)
      (hq : TimerQuiet cfg c h op) :
      (h.event cfg op).timerPending c = h.timerPending c ↔ TimerQuiet cfg c h op :=
    same hq ((RegFrame.event op hm).reg .mip hf)
  cases op with
  | csr which insn bits =>
    by_cases hw : ∃ o val, h.Writes cfg which insn o val
    · obtain ⟨o, val, w⟩ := hw
      rw [← timerPending_writeObj w bits hop c, event, w.ok]
      rfl
    · refine same (fun o val w => absurd ⟨o, val, w⟩ hw) ?_
      have w : ControlWrites cfg h (h.orRefused cfg bits (h.csrInsn cfg which insn)) := by
        refine .orRefused bits fun h' hok => ?_
        obtain ⟨h₁, rfl, rfl | ⟨o, val, w, -⟩⟩ := csrInsn_cases hok
        · exact ControlWrites.refl.withPc _
        · exact absurd ⟨o, val, w⟩ hw
      exact w.regFrame.reg .mip rfl
  | timeSync mtime =>
    rw [event, timerPending_timeSync, TimerQuiet]
    by_cases hs : h.extensionEnabled .sstc = true
    · rw [if_pos hs]
      exact ⟨fun heq _ => heq.symm, fun heq => (heq hs).symm⟩
    · rw [if_neg hs]
      exact iff_of_true rfl fun h => absurd h hs
  | pin p level =>
    refine iff_of_true ?_ trivial
    have hmask : p.mask.getLsbD c.bit = false := by
      cases p <;> cases c <;> rfl
    rw [event, timerPending_writeWithMask, hmask, if_neg (by decide)]
  | reset halt => exact absurd trivial hop
  | _ => exact frame rfl rfl trivial

end Hart

end Nnemu

import Nnemu.Jtag.Tap
import Nnemu.Lib.Fields
import Nnemu.Lib.ShiftRegister

/-!
# Scans of the debug bus register

A scan begins on the rising edge that enters Capture-DR and ends on the falling edge in Update-DR,
with any number of turns through Pause-DR on the way. The register is captured once, each rising
edge in Shift-DR shifts the sampled TDI in, and the update makes at most one access, the one that
the shifted value asks for. That the capture leaves a value of the register's length needs that the
last one kept is no longer (`Held`).

`DbusScan` is a scan: calls that begin in Capture-DR and end with the falling edge in Update-DR,
with any mixture of shifts, pauses and repetitions between them. The captured value and the bits
shifted in are followed with `Lib.ShiftRegister`, and `exactly_once` puts the scans of a whole
session together: the accesses to the debug module are the requests of the scans, each once.
-/

namespace Nnemu.JtagDtm

open Run ShiftRegister

variable {σ : Type*} (port : DmiPort σ) {j : JtagDtm σ} {p : Pins}

/-- The length of the `dbus` register. -/
def dbusLength : Nat := 40

/-! ### What the value asks for -/

/-- The access that a value of the `dbus` register asks for, by its fields `op`, `data` and
`address`. -/
def request (v : BitVec dbusLength) : Option DmiRequest :=
  if v.extractLsb' 0 2 = 1#2 then some (.read ((v.extractLsb' 34 6).setWidth 32))
  else if v.extractLsb' 0 2 = 2#2 then some
    (.write ((v.extractLsb' 34 6).setWidth 32) (v.extractLsb' 2 32))
  else none

/-- Reading a field of adjacent bits cuts them out. -/
theorem getField_eq_extractLsb' {w k len : Nat} {m : BitVec w}
    (hunit : fieldUnit m = BitVec.twoPow w k) (hk : k < w)
    (hlen : len < w) (hm : m >>> k = (1#w <<< len) - 1#w) (x : BitVec w) :
    getField x m = (x.extractLsb' k len).setWidth w := by
  rw [getField_eq hunit hk, BitVec.ushiftRight_and_distrib, hm, Bits.shiftRight_and_eq hlen]

/-- The bits that a wider word has from a value are the value's. -/
theorem extractLsb'_setWidth {m w lo len : Nat} (h : lo + len ≤ w) (v : BitVec m) :
    (v.setWidth w).extractLsb' lo len = v.extractLsb' lo len := by
  apply BitVec.eq_of_getLsbD_eq
  intro i hi
  have hlt : lo + i < w := by omega
  simp [hi, hlt]

/-- `update_dr` reads the fields of the value. -/
theorem access_setWidth (v : BitVec dbusLength) : access (v.setWidth 64) = request v := by
  have hop : getField (v.setWidth 64) dmiOp = (v.extractLsb' 0 2).setWidth 64 := by
    rw [getField_eq_extractLsb' (by decide : fieldUnit dmiOp = BitVec.twoPow 64 0) (by decide)
      (by decide : 2 < 64) (by decide), extractLsb'_setWidth (by decide)]
  have hdata : getField (v.setWidth 64) dmiData = (v.extractLsb' 2 32).setWidth 64 := by
    rw [getField_eq_extractLsb' (by decide : fieldUnit dmiData = BitVec.twoPow 64 2) (by decide)
      (by decide : 32 < 64) (by decide), extractLsb'_setWidth (by decide)]
  have haddress : getField (v.setWidth 64) dmiAddress = (v.extractLsb' 34 6).setWidth 64 := by
    rw [getField_eq_extractLsb' (by decide : fieldUnit dmiAddress = BitVec.twoPow 64 34) (by decide)
      (by decide : 6 < 64) (by decide), extractLsb'_setWidth (by decide)]
  have hread : (v.extractLsb' 0 2).setWidth 64 = 1#64 ↔ v.extractLsb' 0 2 = 1#2 :=
    Bits.setWidth_inj (by decide : 2 ≤ 64) (b := 1#2)
  have hwrite : (v.extractLsb' 0 2).setWidth 64 = 2#64 ↔ v.extractLsb' 0 2 = 2#2 :=
    Bits.setWidth_inj (by decide : 2 ≤ 64) (b := 2#2)
  dsimp only [access, request]
  rw [hop, hdata, haddress, BitVec.setWidth_setWidth_of_le _ (by decide : 32 ≤ 64),
    BitVec.setWidth_setWidth_of_le _ (by decide : 32 ≤ 64), BitVec.setWidth_eq]
  simp only [hread, hwrite]

/-! ### What the register can hold -/

/-- The controller is past the capture of a scan of the data register. -/
def Captured (j : JtagDtm σ) : Prop :=
  (j.state = .captureDr ∧ j.tck = false) ∨ j.state = .shiftDr ∨ j.state = .exit1Dr ∨
    j.state = .pauseDr ∨
    j.state = .exit2Dr ∨ j.state = .updateDr

/-- The kept result fits the `dbus` register, and so does what is in `dr` while that register is
scanned. -/
structure Held (j : JtagDtm σ) : Prop where
  dmi : Fits dbusLength j.dmi
  length : Captured j → j.ir = irDbus → j.drLength = dbusLength
  dr : Captured j → j.ir = irDbus → Fits dbusLength j.dr

theorem fits_setField {x v m : BitVec 64} {k : Nat} (hunit : fieldUnit m = BitVec.twoPow 64 k)
    (hm : m.toNat < 2 ^ dbusLength) (hx : Fits dbusLength x) :
    Fits dbusLength (setField x m v) := by
  intro i hi
  have hbit : m.getLsbD i = false := by
    apply Nat.testBit_lt_two_pow
    exact Nat.lt_of_lt_of_le hm (Nat.pow_le_pow_right (by decide) hi)
  rw [getLsbD_setField hunit, hbit, if_neg (by decide), hx i hi]

/-- What an update keeps fits. -/
theorem fits_updateDbus (h : Fits dbusLength j.dr) : Fits dbusLength (j.updateDbus port).dmi := by
  have hop : fieldUnit dmiOp = BitVec.twoPow 64 0 := by decide
  have hdata : fieldUnit dmiData = BitVec.twoPow 64 2 := by decide
  dsimp only [updateDbus]
  apply fits_setField hop (by decide)
  cases (perform port j.dm (access j.dr)).2.1 with
  | none => exact h
  | some value => exact fits_setField hdata (by decide) h

theorem Held.ofConfig (dm : σ) (required : Nat) (ir : BitVec 32) (dr : BitVec 64)
    (length remaining : Nat)
    (stuck : Bool) : Held (ofConfig dm required ir dr length remaining stuck) where
  dmi := Fits.zero
  length h := by simp [Captured, JtagDtm.ofConfig] at h
  dr h := by simp [Captured, JtagDtm.ofConfig] at h

/-! ### One call in a scan -/

/-- The bit that the call shifts into `dr`. -/
def sampled (j : JtagDtm σ) (p : Pins) : List Bool :=
  if j.rising p && j.state == .shiftDr then [j.tdi] else []

theorem rise_dr (hr : j.rising p = true) : j.rise.dr = shiftAll j.drLength j.dr (sampled j p) := by
  rw [sampled, hr, Bool.true_and]
  cases hs : j.state with
  | shiftDr => simp [rise, hs, shift]
  | _ => simp [rise, hs]

theorem rise_ir (h : j.state ≠ .shiftIr) : j.rise.ir = j.ir := by
  cases hs : j.state with
  | shiftIr => exact absurd hs h
  | _ => simp [rise, hs]

theorem rise_rest : j.rise.dmi = j.dmi ∧ j.rise.drLength = j.drLength ∧ j.rise.dm = j.dm ∧
    j.rise.busyStuck = j.busyStuck := by
  cases hs : j.state with
  | _ => simp [rise, hs]

/-- A scan that is past its capture after a rising edge was so before. -/
theorem captured_of_rise (hr : j.rising p = true) (h : Captured (j.setPins port p)) :
    Captured j ∧ j.state ≠ .shiftIr := by
  obtain ⟨hlow, hhigh⟩ := rising_iff.1 hr
  have hstate : (j.setPins port p).state = j.state.next j.tms := by
    rw [setPins_of_rising port hr]
    rfl
  simp only [Captured, hstate, setPins_tck, hhigh, hlow, and_true] at h ⊢
  cases hs : j.state <;> cases ht : j.tms <;> simp_all [JtagState.next]

/-- The update leaves the registers of the scan as they are. -/
theorem updateDr_rest : (j.updateDr port).dr = j.dr ∧ (j.updateDr port).ir = j.ir ∧
    (j.updateDr port).drLength = j.drLength := by
  unfold updateDr
  dsimp only
  split_ifs
  all_goals exact ⟨rfl, rfl, rfl⟩

/-- The update of the `dbus` register. -/
theorem updateDr_dbus (hir : j.ir = irDbus) : j.updateDr port = if j.busyStuck then j
    else j.updateDbus port := by
  rw [updateDr, if_neg (by rw [hir]; decide), if_neg (by rw [hir]; decide)]
  cases hb : j.busyStuck with
  | true => simp
  | false => simp [hir]

/-- What the update keeps fits, when what was scanned does. -/
theorem fits_updateDr (hdmi : Fits dbusLength j.dmi) (hdr : j.ir = irDbus → Fits dbusLength j.dr) :
    Fits dbusLength (j.updateDr port).dmi := by
  by_cases hir : j.ir = irDbus
  · rw [updateDr_dbus port hir]
    split_ifs
    · exact hdmi
    · exact fits_updateDbus port (hdr hir)
  · unfold updateDr
    simp only [hir, false_and, if_false]
    split_ifs
    all_goals first | exact hdmi | exact Fits.zero

/-- The capture of the `dbus` register. -/
theorem captureDr_dbus (hir : j.ir = irDbus) :
    j.captureDr = if 0 < j.rtiRemaining ∨ j.busyStuck
      then { j with dr := dmiOpStatusBusy, busyStuck := true, drLength := dbusLength }
      else { j with dr := j.dmi, drLength := dbusLength } := by
  rw [captureDr, if_neg (by rw [hir]; decide), if_neg (by rw [hir]; decide), if_pos hir]
  rfl

theorem captureDr_rest : j.captureDr.dmi = j.dmi ∧ j.captureDr.ir = j.ir ∧
    j.captureDr.dm = j.dm := by
  unfold captureDr
  split_ifs
  all_goals exact ⟨rfl, rfl, rfl⟩

theorem fits_dmiOpStatusBusy : Fits dbusLength dmiOpStatusBusy := by
  intro i hi
  apply Nat.testBit_lt_two_pow
  exact Nat.lt_of_lt_of_le (by decide : 3 < 2 ^ dbusLength) (Nat.pow_le_pow_right (by decide) hi)

/-- In a state of a scan between its two actions, a call that is not a rising edge leaves the scan
as it is. -/
theorem other_between
    (h : j.state = .shiftDr ∨ j.state = .exit1Dr ∨ j.state = .pauseDr ∨ j.state = .exit2Dr) :
    ∃ tdo, j.other port = { j with tdo := tdo } := by
  by_cases hs : j.state = .shiftDr
  · exact ⟨j.dr.getLsbD 0, by unfold other; split <;> simp_all⟩
  · have hstill : j.other port = j := by
      unfold other
      split <;> simp_all
    exact ⟨j.tdo, hstill⟩

theorem other_dmi (hcapture : j.state ≠ .captureDr) (hupdate : j.state ≠ .updateDr) :
    (j.other port).dmi = j.dmi := by
  unfold other
  split
  case h_3 hs => exact absurd hs hcapture
  case h_5 hs => exact absurd hs hupdate
  all_goals rfl

/-! ### Every call keeps `Held` -/

theorem Held.rise (h : Held j) (hr : j.rising p = true) : Held (j.setPins port p) := by
  obtain ⟨hdmi, hlength, -, -⟩ := rise_rest (j := j)
  have heq := setPins_of_rising port hr
  have hir {q : BitVec 32} (hc : Captured (j.setPins port p)) (hq : (j.setPins port p).ir = q) :
      Captured j ∧ j.ir = q := by
    obtain ⟨hc', hs⟩ := captured_of_rise port hr hc
    rw [heq] at hq
    exact ⟨hc', (rise_ir hs).symm.trans hq⟩
  refine ⟨?_, fun hc hq => ?_, fun hc hq => ?_⟩
  · rw [heq]
    exact hdmi ▸ h.dmi
  · obtain ⟨hc', hq'⟩ := hir hc hq
    rw [heq]
    exact hlength.trans (h.length hc' hq')
  · obtain ⟨hc', hq'⟩ := hir hc hq
    have hdr := rise_dr hr
    rw [h.length hc' hq'] at hdr
    rw [heq]
    exact hdr ▸ (h.dr hc' hq').shiftAll (by decide) (by decide) _

theorem Held.other (h : Held j) (hr : j.rising p = false) (hq : Quiet j p) :
    Held (j.setPins port p) := by
  have heq := setPins_of_not_rising port hr
  have hstate : (j.setPins port p).state = j.state := by
    rw [heq]
    exact state_other port hq.keeps
  by_cases hcapture : j.state = .captureDr
  · have hother : j.setPins port p = j.captureDr.latch p := by rw [heq, JtagDtm.other, hcapture]
    obtain ⟨hdmi, hir, -⟩ := captureDr_rest (j := j)
    refine ⟨?_, fun _ hq => ?_, fun _ hq => ?_⟩
    · rw [hother]
      exact hdmi ▸ h.dmi
    · rw [hother] at hq ⊢
      have hdbus := captureDr_dbus (hir.symm.trans hq)
      show j.captureDr.drLength = dbusLength
      rw [hdbus]
      split_ifs <;> rfl
    · rw [hother] at hq ⊢
      have hdbus := captureDr_dbus (hir.symm.trans hq)
      show Fits dbusLength j.captureDr.dr
      rw [hdbus]
      split_ifs
      · exact fits_dmiOpStatusBusy
      · exact h.dmi
  · by_cases hupdate : j.state = .updateDr
    · have hother : j.setPins port p = (j.updateDr port).latch p :=
        by rw [heq, JtagDtm.other, hupdate]
      have hc : Captured j := by simp [Captured, hupdate]
      obtain ⟨hdr, hir, hlength⟩ := updateDr_rest port (j := j)
      refine ⟨?_, fun _ hq => ?_, fun _ hq => ?_⟩
      · rw [hother]
        exact fits_updateDr port h.dmi (h.dr hc)
      · rw [hother] at hq ⊢
        exact hlength.trans (h.length hc (hir.symm.trans hq))
      · rw [hother] at hq ⊢
        exact hdr ▸ h.dr hc (hir.symm.trans hq)
    · have hbetween (hc : Captured (j.setPins port p)) :
          Captured j ∧ ∃ tdo, j.other port = { j with tdo := tdo } := by
        simp only [Captured, hstate, hcapture, hupdate, false_and, false_or, or_false] at hc ⊢
        exact ⟨hc, other_between port hc⟩
      refine ⟨?_, fun hc hq => ?_, fun hc hq => ?_⟩
      · rw [heq]
        exact other_dmi port hcapture hupdate ▸ h.dmi
      · obtain ⟨hc', tdo, hother⟩ := hbetween hc
        rw [heq, hother] at hq ⊢
        exact h.length hc' hq
      · obtain ⟨hc', tdo, hother⟩ := hbetween hc
        rw [heq, hother] at hq ⊢
        exact h.dr hc' hq

/-- **What the transport keeps fits the register**, call by call. -/
theorem Held.setPins (h : Held j) (hq : Quiet j p) : Held (j.setPins port p) := by
  cases hr : j.rising p with
  | true => exact h.rise port hr
  | false => exact h.other port hr hq

/-! ### A whole scan -/

/-- The controller is in a scan of the data register whose update is still to come. -/
def InScan (j : JtagDtm σ) : Prop :=
  j.state = .captureDr ∨ j.state = .shiftDr ∨ j.state = .exit1Dr ∨ j.state = .pauseDr ∨
    j.state = .exit2Dr ∨
    (j.state = .updateDr ∧ j.tck = true)

/-- The calls are a scan of the `dbus` register that shifts in a value: they begin when Capture-DR
was entered and end with the falling edge in Update-DR. -/
structure DbusScan (j : JtagDtm σ) (scan : List Pins) (v : BitVec dbusLength) : Prop where
  enters : j.state = .captureDr ∧ j.tck = true
  selects : j.ir = irDbus
  within : Along (setPins port) (fun j _ => InScan j) j scan
  updates : (run (setPins port) j scan).state = .updateDr ∧ (run (setPins port) j scan).tck = false
  shifts : collect (setPins port) sampled j scan = bitsOf v

/-- No access is made for a scan that found the module busy. -/
def unlessBusy (busy : Bool) (access : Option DmiRequest) : Option DmiRequest :=
  if busy then none else access

/-- A rising edge before the update stays in the scan, and no rising edge enters Capture-DR from
within. -/
theorem inScan_rise (hr : j.rising p = true) (hin : InScan j) (hupdate : j.state ≠ .updateDr) :
    InScan (j.setPins port p) ∧ (j.setPins port p).state ≠ .captureDr := by
  have hstate : (j.setPins port p).state = j.state.next j.tms := by
    rw [setPins_of_rising port hr]
    rfl
  simp only [InScan, hstate, setPins_tck, (rising_iff.1 hr).2] at hin ⊢
  cases hs : j.state <;> cases ht : j.tms <;> simp_all [JtagState.next]

/-- What a call between capture and update does: it shifts its bit in, and leaves the rest of the
scan as it is. -/
structure ScanStep (j j' : JtagDtm σ) (bits : List Bool) : Prop where
  inScan : InScan j'
  captured : j'.state = .captureDr → j'.tck = false
  ir : j'.ir = j.ir
  drLength : j'.drLength = j.drLength
  dm : j'.dm = j.dm
  busyStuck : j'.busyStuck = j.busyStuck
  dr : j'.dr = shiftAll j.drLength j.dr bits

theorem scan_step (hin : InScan j) (hcapture : j.state = .captureDr → j.tck = false)
    (hupdate : j.state ≠ .updateDr)
    (hq : Quiet j p) : ScanStep j (j.setPins port p) (sampled j p) := by
  cases hr : j.rising p with
  | true =>
    obtain ⟨-, hlength, hdm, hstuck⟩ := rise_rest (j := j)
    obtain ⟨hin', hnext⟩ := inScan_rise port hr hin hupdate
    have hir : j.state ≠ .shiftIr := by
      intro hs
      simp [InScan, hs] at hin
    have heq := setPins_of_rising port hr
    refine ⟨hin', fun hs => absurd hs hnext, ?_, ?_, ?_, ?_, ?_⟩
    all_goals rw [heq]
    · exact rise_ir hir
    · exact hlength
    · exact hdm
    · exact hstuck
    · exact rise_dr hr
  | false =>
    have hbetween : j.state = .shiftDr ∨ j.state = .exit1Dr ∨ j.state = .pauseDr ∨
        j.state = .exit2Dr := by
      have hnot : j.state ≠ .captureDr := by
        intro hs
        -- TCK is low after the capture, so the call would repeat it
        have hlow : p.tck = j.tck := by
          obtain h | h := rising_eq_false hr
          · rw [hcapture hs] at h
            exact absurd h (by decide)
          · rw [h, hcapture hs]
        exact (hq.passive hlow).2.1 hs
      simpa [InScan, hnot, hupdate] using hin
    obtain ⟨tdo, hother⟩ := other_between port hbetween
    have hsampled : sampled j p = [] := by simp [sampled, hr]
    have hnot : j.state ≠ .captureDr := by
      intro hs
      simp [hs] at hbetween
    rw [setPins_of_not_rising port hr, hother, hsampled]
    refine ⟨?_, fun hs => absurd hs hnot, rfl, rfl, rfl, rfl, rfl⟩
    simp only [InScan]
    tauto

/-- The falling edge in Update-DR makes the access that `dr` asks for. -/
theorem update_step (hs : j.state = .updateDr) (hir : j.ir = irDbus) (hr : j.rising p = false) :
    j.accesses p = (unlessBusy j.busyStuck (access j.dr)).toList ∧
      (j.setPins port p).dm = (perform port j.dm (unlessBusy j.busyStuck (access j.dr))).1 := by
  have hupdate : j.setPins port p = (j.updateDr port).latch p := by
    rw [setPins_of_not_rising port hr, JtagDtm.other, hs]
  rw [hupdate, updateDr_dbus port hir]
  cases hb : j.busyStuck with
  | true => exact ⟨by simp [accesses, updateAccesses, hr, hs, hb, unlessBusy], rfl⟩
  | false => exact ⟨by simp [accesses, updateAccesses, hr, hs, hb, hir, unlessBusy], rfl⟩

/-- From the capture on, a scan makes the access that is asked for by what it shifts into `dr`. -/
theorem scan_accesses {scan : List Pins} (hcapture : j.state = .captureDr → j.tck = false)
    (hir : j.ir = irDbus)
    (hin : InScan j) (hwithin : Along (setPins port) (fun j _ => InScan j) j scan)
    (hquiet : Along (setPins port) Quiet j scan)
    (hend : (run (setPins port) j scan).state = .updateDr ∧
      (run (setPins port) j scan).tck = false) :
    let value := access (shiftAll j.drLength j.dr (collect (setPins port) sampled j scan))
    collect (setPins port) accesses j scan = (unlessBusy j.busyStuck value).toList ∧
      (run (setPins port) j scan).dm = (perform port j.dm (unlessBusy j.busyStuck value)).1 := by
  induction scan generalizing j with
  | nil =>
    obtain ⟨hs, hlow⟩ := hend
    simp only [run_nil] at hs hlow
    simp [InScan, hs, hlow] at hin
  | cons p scan ih =>
    obtain ⟨-, hwithin⟩ := hwithin
    obtain ⟨hq, hquiet⟩ := hquiet
    by_cases hupdate : j.state = .updateDr
    · have hhigh : j.tck = true := by simpa [InScan, hupdate] using hin
      have hr : j.rising p = false := by simp [rising, hhigh]
      have hlow : p.tck = false := by
        cases hp : p.tck with
        | false => rfl
        | true => exact absurd hupdate (hq.passive (hp.trans hhigh.symm)).2.2
      have hstate : (j.setPins port p).state = .updateDr := by
        rw [setPins_of_not_rising port hr]
        exact (state_other port hq.keeps).trans hupdate
      have hsampled : sampled j p = [] := by simp [sampled, hr]
      -- the update was the last call
      have hlast : scan = [] := by
        cases scan with
        | nil => rfl
        | cons p' scan =>
          have hafter := hwithin.1
          simp [InScan, hstate, hlow] at hafter
      obtain ⟨haccesses, hdm⟩ := update_step port hupdate hir hr
      subst hlast
      simp only [collect, run_cons, run_nil, hsampled, List.append_nil, shiftAll_nil]
      exact ⟨haccesses, hdm⟩
    · have hstep := scan_step port hin hcapture hupdate hq
      have hnone : j.accesses p = [] := by simp [accesses, hupdate]
      have hrest := ih hstep.captured (hstep.ir.trans hir) hstep.inScan hwithin hquiet hend
      simp only [collect, run_cons, hnone, List.nil_append, shiftAll_append]
      rw [hstep.dr, hstep.drLength, hstep.busyStuck, hstep.dm] at hrest
      exact hrest

/-- The controller is busy: it waits for Run-Test/Idle cycles, or a scan found it waiting. -/
def Busy (j : JtagDtm σ) : Bool := decide (0 < j.rtiRemaining) || j.busyStuck

/-- **A scan makes the access of its value, once**, or none when the controller is busy. -/
theorem DbusScan.accesses {scan : List Pins} {v : BitVec dbusLength} (h : DbusScan port j scan v)
    (hheld : Held j)
    (hquiet : Along (setPins port) Quiet j scan) :
    collect (setPins port) accesses j scan = (unlessBusy j.Busy (request v)).toList ∧
      (run (setPins port) j scan).dm = (perform port j.dm (unlessBusy j.Busy (request v))).1 := by
  obtain ⟨⟨hs, hhigh⟩, hir, hwithin, hend, hshifts⟩ := h
  cases scan with
  | nil => simp [hs] at hend
  | cons p scan =>
    obtain ⟨hq, hquiet⟩ := hquiet
    have hr : j.rising p = false := by simp [rising, hhigh]
    have hlow : p.tck = false := by
      cases hp : p.tck with
      | false => rfl
      | true => exact absurd hs (hq.passive (hp.trans hhigh.symm)).2.1
    have hheld' := hheld.setPins port hq
    have hstep : j.setPins port p = j.captureDr.latch p := by
      rw [setPins_of_not_rising port hr, JtagDtm.other, hs]
    have hstate : (j.setPins port p).state = .captureDr := by
      rw [hstep]
      exact state_captureDr.trans hs
    obtain ⟨-, hir', hdm⟩ := captureDr_rest (j := j)
    have hirDbus : (j.setPins port p).ir = irDbus := by
      rw [hstep]
      exact hir'.trans hir
    have hcaptured : Captured (j.setPins port p) := .inl ⟨hstate, hlow⟩
    have hstuck : (j.setPins port p).busyStuck = j.Busy := by
      rw [hstep]
      show j.captureDr.busyStuck = j.Busy
      rw [captureDr_dbus hir, Busy]
      split_ifs with hbusy
      · simpa using hbusy
      · simp only [not_or, Bool.not_eq_true] at hbusy
        simp [hbusy]
    have hdm' : (j.setPins port p).dm = j.dm := by
      rw [hstep]
      exact hdm
    have hsampled : sampled j p = [] := by simp [sampled, hr]
    have hnone : j.accesses p = [] := by simp [JtagDtm.accesses, hs]
    have hrest := scan_accesses port (fun _ => hlow) hirDbus (.inl hstate) hwithin.2 hquiet hend
    rw [collect, hsampled, List.nil_append] at hshifts
    rw [hshifts, hheld'.length hcaptured hirDbus,
      shiftAll_bitsOf (hheld'.dr hcaptured hirDbus) (by decide) (by decide) v,
      access_setWidth, hstuck, hdm'] at hrest
    rw [collect, hnone, List.nil_append, run_cons]
    exact hrest

/-! ### Every sequence of calls -/

/-- What a transport promises of a sequence of calls. The controller moves through the graph on
rising edges only; from the rising edge that enters a state to any later call of the visit, the
action of the state is performed once if TCK has fallen, and not yet otherwise; a scan of the `dbus`
register makes the one access that its value asks for, or none when the controller is busy. -/
structure ExactlyOnce (j : JtagDtm σ) (calls : List Pins) : Prop where
  graph : Along (setPins port)
    (fun j p => (j.setPins port p).state.tap = if j.rising p then j.state.tap.next j.tms
      else j.state.tap) j calls
  visits : ∀ pre p visit post, calls = pre ++ p :: (visit ++ post) →
    (run (setPins port) j pre).rising p = true →
    Stays port visit ((run (setPins port) j pre).setPins port p) →
      collect (setPins port) actions ((run (setPins port) j pre).setPins port p) visit =
        if (run (setPins port) ((run (setPins port) j pre).setPins port p) visit).tck then []
        else ((run (setPins port) j pre).setPins port p).state.tap.action
  scans : ∀ pre scan post v, calls = pre ++ (scan ++ post) →
    DbusScan port (run (setPins port) j pre) scan v →
    collect (setPins port) JtagDtm.accesses (run (setPins port) j pre) scan =
        (unlessBusy (run (setPins port) j pre).Busy (request v)).toList ∧
      (run (setPins port) (run (setPins port) j pre) scan).dm =
        (perform port (run (setPins port) j pre).dm
          (unlessBusy (run (setPins port) j pre).Busy (request v))).1

/-- Each part of a run is played under its condition. -/
theorem along_parts {S O : Type*} {step : S → O → S} {P : S → O → Prop}
    {s : S} {os os₁ os₂ os₃ : List O}
    (h : Along step P s os) (hos : os = os₁ ++ (os₂ ++ os₃)) :
    Along step P s os₁ ∧ Along step P (run step s os₁) os₂ := by
  subst hos
  obtain ⟨h₁, h₂⟩ := (along_append s os₁ _).1 h
  exact ⟨h₁, ((along_append _ os₂ os₃).1 h₂).1⟩

/-- **Exactly once.** Whatever the debug module answers and the constructor leaves uninitialised,
the transport keeps its promise for every sequence of calls that leave TCK unchanged only in states
without an action, and do not reset the controller by DMIHARDRESET: the action of a state is
performed once in a visit, when TCK has fallen, and a scan of the bus register makes the one access
that it asks for, or none where it found the controller busy. -/
theorem exactly_once (dm : σ) (required : Nat) (ir : BitVec 32) (dr : BitVec 64)
    (length remaining : Nat) (stuck : Bool)
    (calls : List Pins)
    (hquiet : Along (setPins port) Quiet (ofConfig dm required ir dr length remaining stuck)
      calls) :
    ExactlyOnce port (ofConfig dm required ir dr length remaining stuck) calls := by
  generalize hj : JtagDtm.ofConfig dm required ir dr length remaining stuck = j at hquiet
  have hheld : Held j := hj ▸ Held.ofConfig dm required ir dr length remaining stuck
  refine ⟨?_, fun pre p visit post hcalls hr hstay => ?_, fun pre scan post v hcalls hscan => ?_⟩
  · clear hheld hj
    induction calls generalizing j with
    | nil => trivial
    | cons p calls ih => exact ⟨tap_setPins port hquiet.1, ih _ hquiet.2⟩
  · have hcalls' : calls = pre ++ ((p :: visit) ++ post) := hcalls
    obtain ⟨-, hvisit⟩ := along_parts hquiet hcalls'
    have hhigh : ((run (setPins port) j pre).setPins port p).tck = true := (rising_iff.1 hr).2
    exact collect_actions port hstay hvisit.2 hhigh
  · obtain ⟨hpre, hscanQuiet⟩ := along_parts hquiet hcalls
    have hkeep : Always (setPins port) Held j pre :=
      Always.of_step (fun _ _ h hq => Held.setPins port h hq) (fun _ h => h) hheld hpre
    exact hscan.accesses port hkeep.last hscanQuiet

/-! ### A client that writes to the debug module -/

/-- Clock the controller, once for each value of TMS and TDI. -/
def clock (edges : List (Bool × Bool)) : List Pins :=
  edges.flatMap fun edge => [⟨false, edge.1, edge.2⟩, ⟨true, edge.1, edge.2⟩]

/-- From reset: select the `dbus` register, scan a value of it, and stop on the low half of the
clock that enters Update-DR. -/
def writeEdges (v : BitVec dbusLength) : List (Bool × Bool) :=
  -- to Shift-IR, the five bits of the instruction, and to Shift-DR
  [(false, false), (true, false), (true, false), (false, false), (false, false)] ++
    [(false, true), (false, false), (false, false), (false, false), (true, true)] ++
    [(true, false), (true, false), (false, false), (false, false)] ++
    (bitsOf v).dropLast.map (fun b => (false, b)) ++ [(true, v.msb)]

/-- A debug module that is there, and does nothing. -/
def idlePort : DmiPort Unit where
  dmiRead dm _ := (some 0#32, dm)
  dmiWrite dm _ _ := (true, dm)
  runTestIdle dm := dm

theorem exactly_once_write :
    ExactlyOnce idlePort (ofConfig () 0 0#32 0#64 0 0 false)
      (clock (writeEdges 0x40000000aa#40) ++
        [⟨false, true, false⟩, ⟨true, true, false⟩, ⟨false, false, false⟩]) :=
  exactly_once idlePort () 0 0#32 0#64 0 0 false _ (by decide +kernel)

/-- A client that repeats its last call in Update-DR: the debug module is written twice. -/
theorem not_exactly_once_repeat :
    ¬ExactlyOnce idlePort (ofConfig () 0 0#32 0#64 0 0 false)
        (clock (writeEdges 0x40000000aa#40) ++
          [⟨false, true, false⟩, ⟨true, true, false⟩, ⟨false, false, false⟩,
            ⟨false, false, false⟩]) ∧
      collect (setPins idlePort) JtagDtm.accesses (ofConfig () 0 0#32 0#64 0 0 false)
        (clock (writeEdges 0x40000000aa#40) ++
          [⟨false, true, false⟩, ⟨true, true, false⟩, ⟨false, false, false⟩,
            ⟨false, false, false⟩]) =
        [.write 0x10#32 0x2a#32, .write 0x10#32 0x2a#32] := by
  refine ⟨fun h => ?_, by decide +kernel⟩
  have hvisit :=
    h.visits (clock (writeEdges 0x40000000aa#40) ++ [⟨false, true, false⟩]) ⟨true, true, false⟩
    [⟨false, false, false⟩, ⟨false, false, false⟩] [] (by decide +kernel) (by decide +kernel)
    ⟨by decide +kernel, by decide +kernel, trivial⟩
  revert hvisit
  decide +kernel

end Nnemu.JtagDtm

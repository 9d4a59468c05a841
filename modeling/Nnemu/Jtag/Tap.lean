import Nnemu.Sim.Jtag
import Nnemu.Lib.Run

/-!
# The TAP controller

The state graph of a test access port in its own terms, two scan columns between the two rest
states, and what the calls of `set_pins` make of it. The table `next` is this graph. A client may
call `set_pins` as often as it likes without changing TCK; as long as it does so only in states
without an action, every visit of a state performs the action of the state once, when TCK falls.

The graph is an inductive type of its own, with the column as a parameter, and `JtagState.tap` maps
the states of the source to it. `Passive` are the states whose action may be repeated; `Quiet` is a
call that changes no TCK and happens in such a state.
-/

namespace Nnemu

/-! ### The graph -/

/-- The two registers that a TAP scans. -/
inductive TapRegister where
  | data
  | instruction

/-- The phases of a scan. -/
inductive ScanPhase where
  | select
  | capture
  | shift
  | exit1
  | pause
  | exit2
  | update

/-- The states of a TAP: at rest, or in a scan of one of its registers. -/
inductive Tap where
  | testLogicReset
  | runTestIdle
  | scan (register : TapRegister) (phase : ScanPhase)

namespace Tap

/-- The graph: the state after a rising edge of TCK, by the value of TMS. -/
def next : Tap → Bool → Tap
  | testLogicReset, tms => if tms then testLogicReset else runTestIdle
  | runTestIdle, tms => if tms then scan .data .select else runTestIdle
  | scan register .select, false => scan register .capture
  | scan .data .select, true => scan .instruction .select
  | scan .instruction .select, true => testLogicReset
  | scan register .capture, tms => scan register (if tms then .exit1 else .shift)
  | scan register .shift, tms => scan register (if tms then .exit1 else .shift)
  | scan register .exit1, tms => scan register (if tms then .update else .pause)
  | scan register .pause, tms => scan register (if tms then .exit2 else .pause)
  | scan register .exit2, tms => scan register (if tms then .update else .shift)
  | scan _ .update, tms => if tms then scan .data .select else runTestIdle

/-- The action that belongs to a visit of the state. -/
def action : Tap → List JtagDtm.TapAction
  | runTestIdle => [.idle]
  | scan .data .capture => [.capture]
  | scan .data .update => [.update]
  | _ => []

end Tap

/-- The state that a value of `_state` stands for. -/
def JtagState.tap : JtagState → Tap
  | testLogicReset => .testLogicReset
  | runTestIdle => .runTestIdle
  | selectDrScan => .scan .data .select
  | captureDr => .scan .data .capture
  | shiftDr => .scan .data .shift
  | exit1Dr => .scan .data .exit1
  | pauseDr => .scan .data .pause
  | exit2Dr => .scan .data .exit2
  | updateDr => .scan .data .update
  | selectIrScan => .scan .instruction .select
  | captureIr => .scan .instruction .capture
  | shiftIr => .scan .instruction .shift
  | exit1Ir => .scan .instruction .exit1
  | pauseIr => .scan .instruction .pause
  | exit2Ir => .scan .instruction .exit2
  | updateIr => .scan .instruction .update

/-- The table is the graph. -/
theorem JtagState.tap_next (s : JtagState) (tms : Bool) : (s.next tms).tap = s.tap.next tms := by
  cases s <;> cases tms <;> rfl

namespace JtagDtm

open Run

variable {σ : Type*} (port : DmiPort σ) (j : JtagDtm σ) (p : Pins)

/-! ### One call -/

/-- The state has no action of its own. -/
def Passive : Prop := j.state ≠ .runTestIdle ∧ j.state ≠ .captureDr ∧ j.state ≠ .updateDr

/-- The call updates `dtmcontrol` with DMIHARDRESET set. -/
def HardResets : Prop := j.state = .updateDr ∧ j.ir = irDtmcontrol ∧
    hasBits j.dr dtmcontrolDmihardreset

/-- The call changes TCK, or there is nothing to repeat, and it does not reset the controller. -/
structure Quiet : Prop where
  passive : p.tck = j.tck → j.Passive
  keeps : ¬j.HardResets

variable {j p}

instance : Decidable j.Passive := inferInstanceAs (Decidable (_ ∧ _))

instance : Decidable j.HardResets := inferInstanceAs (Decidable (_ ∧ _))

theorem quiet_iff : Quiet j p ↔ (p.tck = j.tck → j.Passive) ∧ ¬j.HardResets :=
  ⟨fun h => ⟨h.passive, h.keeps⟩, fun h => ⟨h.1, h.2⟩⟩

instance : Decidable (Quiet j p) := decidable_of_iff _ quiet_iff.symm

theorem rising_iff : j.rising p = true ↔ j.tck = false ∧ p.tck = true := by
  simp [rising]

theorem rising_eq_false (h : j.rising p = false) : j.tck = true ∨ p.tck = false := by
  cases ht : j.tck with
  | true => exact .inl rfl
  | false => right; simpa [rising, ht] using h

theorem setPins_of_rising (h : j.rising p = true) : j.setPins port p = (j.rise).latch p := by
  rw [setPins, h]
  rfl

theorem setPins_of_not_rising (h : j.rising p = false) :
    j.setPins port p = (j.other port).latch p := by
  rw [setPins, h]
  rfl

@[simp] theorem setPins_tck : (j.setPins port p).tck = p.tck := rfl

theorem state_captureDr : j.captureDr.state = j.state := by
  unfold captureDr
  split_ifs <;> rfl

theorem state_updateDr (h : ¬(j.ir = irDtmcontrol ∧ hasBits j.dr dtmcontrolDmihardreset)) :
    (j.updateDr port).state = j.state := by
  unfold updateDr
  by_cases hir : j.ir = irDtmcontrol
  · rw [if_pos hir]
    have hbits : ¬hasBits j.dr dtmcontrolDmihardreset := fun hb => h ⟨hir, hb⟩
    by_cases hreset : hasBits j.dr dtmcontrolDmireset
    · simp [hreset, hbits]
    · simp [hreset, hbits]
  · rw [if_neg hir]
    split_ifs <;> rfl

/-- A call that is not a rising edge stays where it is. -/
theorem state_other (h : ¬j.HardResets) : (j.other port).state = j.state := by
  unfold other
  split
  case h_3 => exact state_captureDr
  case h_5 hs => exact state_updateDr port fun hr => h ⟨hs, hr⟩
  all_goals rfl

/-- **The graph is followed on rising edges only.** -/
theorem tap_setPins (h : Quiet j p) :
    (j.setPins port p).state.tap = if j.rising p then j.state.tap.next j.tms else j.state.tap := by
  cases hr : j.rising p with
  | true =>
    rw [setPins_of_rising port hr, if_pos rfl]
    exact JtagState.tap_next j.state j.tms
  | false =>
    rw [setPins_of_not_rising port hr, if_neg (by decide)]
    exact congrArg JtagState.tap (state_other port h.keeps)

/-! ### The calls of one visit -/

theorem actions_of_not_rising (h : j.rising p = false) : j.actions p = j.state.tap.action := by
  rw [actions, h, if_neg (by decide)]
  cases j.state <;> rfl

theorem action_of_passive (h : j.Passive) : j.state.tap.action = [] := by
  obtain ⟨hidle, hcapture, hupdate⟩ := h
  cases hs : j.state with
  | runTestIdle => exact absurd hs hidle
  | captureDr => exact absurd hs hcapture
  | updateDr => exact absurd hs hupdate
  | _ => rfl

/-- The calls stay in one state: none of them is a rising edge. -/
def Stays (calls : List Pins) (j : JtagDtm σ) : Prop :=
  Along (setPins port) (fun j p => j.rising p = false) j calls

/-- Once TCK is low, the rest of a visit does nothing. -/
theorem collect_actions_of_low {calls : List Pins} (hstay : Stays port calls j)
    (hquiet : Along (setPins port) Quiet j calls) (hlow : j.tck = false) :
    collect (setPins port) actions j calls = [] ∧ (run (setPins port) j calls).tck = false := by
  induction calls generalizing j with
  | nil => exact ⟨rfl, hlow⟩
  | cons p calls ih =>
    obtain ⟨hp, hstay⟩ := hstay
    obtain ⟨hq, hquiet⟩ := hquiet
    have hptck : p.tck = false := by
      obtain h | h := rising_eq_false hp
      · rw [hlow] at h
        exact absurd h (by decide)
      · exact h
    have hnone : j.actions p = [] := by
      rw [actions_of_not_rising hp, action_of_passive (hq.passive (hptck.trans hlow.symm))]
    obtain ⟨hrest, hend⟩ := ih hstay hquiet hptck
    exact ⟨by rw [collect, hnone, hrest]; rfl, hend⟩

/-- **A visit performs the action of its state once**, when TCK falls. -/
theorem collect_actions {calls : List Pins} (hstay : Stays port calls j)
    (hquiet : Along (setPins port) Quiet j calls) (hhigh : j.tck = true) :
    collect (setPins port) actions j calls = if (run (setPins port) j calls).tck then []
      else j.state.tap.action := by
  induction calls generalizing j with
  | nil =>
    rw [run_nil, hhigh]
    rfl
  | cons p calls ih =>
    obtain ⟨hp, hstay⟩ := hstay
    obtain ⟨hq, hquiet⟩ := hquiet
    have hstate : (j.setPins port p).state.tap = j.state.tap := by
      rw [tap_setPins port hq, hp]
      rfl
    rw [collect, actions_of_not_rising hp, run_cons]
    cases hptck : p.tck with
    | true =>
      rw [ih hstay hquiet hptck, hstate, action_of_passive (hq.passive (hptck.trans hhigh.symm))]
      split_ifs <;> rfl
    | false =>
      obtain ⟨hrest, hend⟩ := collect_actions_of_low port hstay hquiet hptck
      rw [hrest, hend, List.append_nil]
      rfl

end JtagDtm

end Nnemu

import Nnemu.Uart.Coherence

/-!
# Interrupt identification

A driver reads the identification register to learn which interrupt is pending. The codes in it are
an enumeration, but `update_interrupt` takes the disjunction of the codes of all pending interrupts:
with two of them the register names a third, and reading it clears one that it does not name.

`Identifies` is what a driver may expect of a read: the code of the highest pending interrupt, or
none, and that no other interrupt is acknowledged by it. `Crowded` is the condition under which two
codes are put together, on the state before the read.
-/

namespace Nnemu

namespace Uart

variable {u : Uart}

/-- `UART_IIR_NO_INT | UART_IIR_ID`: the bits that identify an interrupt. -/
def iirIdentification : BitVec 8 := 0x0f#8

/-- What `UART_IIR` should report: received data comes before an empty transmitter. -/
def highest (u : Uart) : BitVec 8 :=
  if u.rdi then iirRdi else if u.thri then iirThri else iirNoInt

/-- A read of `UART_IIR` is right when it reports the pending interrupt of the highest priority,
drops the transmitter condition exactly when it reports it, and leaves received data pending. -/
structure Identifies (u : Uart) : Prop where
  reported : (u.loadReg 2#64).1 &&& iirIdentification = u.highest
  cleared : (u.loadReg 2#64).2.thriIp = (u.thriIp && u.highest != iirThri)
  transmit : (u.loadReg 2#64).2.thri = (u.thri && u.highest != iirThri)
  receive : (u.loadReg 2#64).2.rdi = u.rdi

/-- Both interrupts are pending. -/
def Crowded (u : Uart) : Prop :=
  u.rdi = true ∧ u.thri = true

/-- The identification register holds the disjunction of the codes. -/
theorem Coherent.iir_eq (h : u.Coherent) :
    u.iir = if u.rdi then (if u.thri then iirRlsi else iirRdi)
      else (if u.thri then iirThri else iirNoInt) := by
  rw [h.identified, interrupts]
  cases u.rdi <;> cases u.thri <;> decide

theorem loadReg_iir_fst : (u.loadReg 2#64).1 = u.iir ||| iirTypeBits := by
  rw [loadReg, if_neg (by decide), if_neg (by decide), if_pos rfl]

theorem loadReg_iir_snd : (u.loadReg 2#64).2 =
    if hasBits u.iir iirThri then { u with thriIp := false }.updateInterrupt else u := by
  rw [loadReg, if_neg (by decide), if_neg (by decide), if_pos rfl]

/-- With both interrupts pending, the register reports a receiver line status interrupt. -/
theorem Coherent.reported_of_crowded (h : u.Coherent) (hc : u.Crowded) :
    (u.loadReg 2#64).1 &&& iirIdentification = iirRlsi := by
  rw [loadReg_iir_fst, h.iir_eq, hc.1, hc.2]
  decide

/-- What an update does when no request to clear the queue is waiting. -/
theorem updateInterrupt_of_served (h : hasBits u.fcr fcrClearRcvr = false) :
    u.updateInterrupt.ier = u.ier ∧ u.updateInterrupt.thriIp = u.thriIp ∧
      hasBits u.updateInterrupt.lsr lsrDr = hasBits u.lsr lsrDr := by
  have hrx : u.clearRx = u := by rw [clearRx, h]; rfl
  have htx : u.clearTx.ier = u.ier ∧ u.clearTx.thriIp = u.thriIp ∧
      hasBits u.clearTx.lsr lsrDr = hasBits u.lsr lsrDr := by
    rw [clearTx]
    split
    · exact ⟨rfl, rfl, hasBits_set_ne _ (by decide)⟩
    · exact ⟨rfl, rfl, rfl⟩
  have hline (u : Uart) : u.updateLine.ier = u.ier ∧ u.updateLine.thriIp = u.thriIp ∧
      u.updateLine.lsr = u.lsr := by
    rw [updateLine]
    split <;> exact ⟨rfl, rfl, rfl⟩
  have hlsr (u : Uart) : u.updateLsr.ier = u.ier ∧ u.updateLsr.thriIp = u.thriIp ∧
      hasBits u.updateLsr.lsr lsrDr = hasBits u.lsr lsrDr := by
    rw [updateLsr]
    split
    · exact ⟨rfl, rfl, rfl⟩
    · exact ⟨rfl, rfl, hasBits_set_ne _ (by decide)⟩
  obtain ⟨hier, hip, hdr⟩ := hlsr u.clearTx.updateLine
  obtain ⟨hier', hip', hdr'⟩ := hline u.clearTx
  rw [updateInterrupt, hrx, hier, hip, hdr, hier', hip', hdr']
  exact htx

/-- The read takes effect when the transmitter interrupt is among those that are pending, and only
on it. -/
theorem Coherent.loadReg_iir (h : u.Coherent) :
    (u.loadReg 2#64).2.thriIp = (u.thriIp && !u.thri) ∧ (u.loadReg 2#64).2.rdi = u.rdi ∧
      (u.loadReg 2#64).2.thri = false := by
  have hflag : hasBits u.iir iirThri = u.thri := by
    rw [h.iir_eq]
    cases u.rdi <;> cases u.thri <;> decide
  rw [loadReg_iir_snd, hflag]
  cases hthri : u.thri with
  | false => exact ⟨(Bool.and_true _).symm, rfl, hthri⟩
  | true =>
    rw [if_pos rfl]
    obtain ⟨hier, hip, hdr⟩ := updateInterrupt_of_served (u := { u with thriIp := false }) h.served
    refine ⟨?_, ?_, ?_⟩
    · rw [hip, Bool.not_true, Bool.and_false]
    · rw [rdi, rdi, hier, hdr]
    · rw [thri, hip, Bool.and_false]

theorem highest_bne_thri : (u.highest != iirThri) = (u.rdi || !u.thri) := by
  rw [highest]
  cases u.rdi <;> cases u.thri <;> decide

/-- A read of the register is right exactly when not both interrupts are pending. -/
theorem Coherent.identifies_iff (h : u.Coherent) : u.Identifies ↔ ¬ u.Crowded := by
  obtain ⟨hip, hrdi, hthri⟩ := h.loadReg_iir
  refine ⟨fun hid hc => ?_, fun hc => ?_⟩
  · have hhighest : u.highest = iirRdi := by rw [highest, hc.1]; rfl
    have hreported := hid.reported
    rw [h.reported_of_crowded hc, hhighest] at hreported
    exact absurd hreported (by decide)
  -- one interrupt, or none: the register reports it
  have hone : u.rdi = true → u.thri = false := fun hr => Bool.eq_false_iff.2 fun ht => hc ⟨hr, ht⟩
  refine ⟨?_, ?_, ?_, hrdi⟩
  · rw [loadReg_iir_fst, h.iir_eq, highest]
    cases hr : u.rdi with
    | true =>
      rw [hone hr]
      decide
    | false => cases u.thri <;> decide
  · rw [hip, highest_bne_thri]
    cases hr : u.rdi with
    | true => rw [hone hr]; rfl
    | false => rfl
  · rw [hthri, highest_bne_thri]
    cases hr : u.rdi with
    | true => rw [hone hr]; rfl
    | false => cases u.thri <;> rfl

/-- **Interrupts are identified one at a time.** In every state of every run, a read of the
identification register is right exactly when not both interrupts are pending. -/
theorem identifies_iff_not_crowded (regShift regIoWidth : Nat) (dlm : BitVec 8)
    (ops : List UartOp) :
    let u := Run.run step (new regShift regIoWidth dlm) ops
    u.Identifies ↔ ¬ u.Crowded :=
  (Run.run_induct (fun _ op h => h.step op) (coherent_new regShift regIoWidth dlm)
    ops).identifies_iff

/-- A byte is received while the transmitter is empty, with both interrupts enabled. -/
def crowd : List UartOp :=
  [.store 1#64 [0x03#8], .store 2#64 [0x01#8], .tick 0x41]

/-- The driver is told of a receiver line status interrupt, and the empty transmitter is
forgotten. -/
theorem not_identifies_crowd :
    let u := Run.run step (new 0 1 0#8) crowd
    u.highest = iirRdi ∧ u.thriIp = true ∧ u.load 2#64 1 = (some [0xc6#8], { u with
      iir := iirRdi, thriIp := false }) ∧ ¬ u.Identifies := by
  refine ⟨by decide, by decide, ?_, fun h => ?_⟩
  · rfl
  · exact absurd h.reported (by decide)

end Uart

end Nnemu

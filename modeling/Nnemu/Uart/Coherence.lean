import Nnemu.Sim.Uart

/-!
# The serial port stays coherent

The data-ready bit follows the queue, and the interrupt line follows the registers. Within an access
only the first holds; `update_interrupt`, at the end of it, brings the line in step again.

`Sound` is what every statement of an access keeps, and `Coherent` what holds between accesses. Each
access is gone through once, with lemmas for the parts that several of them share (`clearRx`,
`receive`, `updateInterrupt`); the two that do not end in `update_interrupt` do not change what it
looks at.
-/

namespace Nnemu

namespace Uart

variable {u : Uart}

/-! ### Flags -/

/-- A flag that is set is found set. -/
theorem hasBits_set (x : BitVec 8) {mask flag : BitVec 8} (h : hasBits mask flag = true) :
    hasBits (x ||| mask) flag = true := by
  rw [hasBits_or, h, Bool.or_true]

/-- A flag that is not among those that are set stays. -/
theorem hasBits_set_ne (x : BitVec 8) {mask flag : BitVec 8} (h : hasBits mask flag = false) :
    hasBits (x ||| mask) flag = hasBits x flag := by
  rw [hasBits_or, h, Bool.or_false]

/-- A flag that is cleared is found clear. -/
theorem hasBits_clear (x : BitVec 8) {mask flag : BitVec 8} (h : ~~~mask &&& flag = 0#8) :
    hasBits (x &&& ~~~mask) flag = false := by
  rw [hasBits_and, h, hasBits_zero]

/-- A flag that is not among those that are cleared stays. -/
theorem hasBits_clear_ne (x : BitVec 8) {mask flag : BitVec 8} (h : ~~~mask &&& flag = flag) :
    hasBits (x &&& ~~~mask) flag = hasBits x flag := by
  rw [hasBits_and, h]

/-! ### Within an access -/

/-- What holds of the line status register and the queue, also before `update_interrupt` has run. -/
structure Sound (u : Uart) : Prop where
  ready : hasBits u.lsr lsrDr = !u.rxQueue.isEmpty
  bounded : u.rxQueue.length ≤ queueSize
  /-- there is never anything left to transmit -/
  empty : hasBits u.lsr lsrTemt = true
  /-- no break is ever issued -/
  noBreak : hasBits u.lsr lsrBi = false

namespace Sound

theorem of_eq {u u' : Uart} (h : u.Sound) (hlsr : u'.lsr = u.lsr) (hq : u'.rxQueue = u.rxQueue) :
    u'.Sound where
  ready := by rw [hlsr, hq, h.ready]
  bounded := hq ▸ h.bounded
  empty := hlsr ▸ h.empty
  noBreak := hlsr ▸ h.noBreak

/-- Setting the transmitter bits. -/
theorem setTx {u u' : Uart} (h : u.Sound) (hlsr : u'.lsr = u.lsr ||| (lsrTemt ||| lsrThre))
    (hq : u'.rxQueue = u.rxQueue) : u'.Sound where
  ready := by rw [hlsr, hq, hasBits_set_ne _ (by decide), h.ready]
  bounded := hq ▸ h.bounded
  empty := hlsr ▸ hasBits_set _ (by decide)
  noBreak := by rw [hlsr, hasBits_set_ne _ (by decide), h.noBreak]

/-- Emptying the queue. -/
theorem drain {u u' : Uart} (h : u.Sound) (hlsr : u'.lsr = u.lsr &&& ~~~lsrDr)
    (hq : u'.rxQueue = []) : u'.Sound where
  ready := by
    rw [hlsr, hq, hasBits_clear _ (by decide)]
    rfl
  bounded := by rw [hq]; exact Nat.zero_le _
  empty := by rw [hlsr, hasBits_clear_ne _ (by decide), h.empty]
  noBreak := by rw [hlsr, hasBits_clear_ne _ (by decide), h.noBreak]

theorem clearRx (h : u.Sound) : u.clearRx.Sound := by
  rw [Uart.clearRx]
  split
  · exact h.drain rfl rfl
  · exact h

theorem clearTx (h : u.Sound) : u.clearTx.Sound := by
  rw [Uart.clearTx]
  split
  · exact h.setTx rfl rfl
  · exact h

theorem updateLine (h : u.Sound) : u.updateLine.Sound := by
  rw [Uart.updateLine]
  split
  · exact h.of_eq rfl rfl
  · exact h.of_eq rfl rfl

theorem updateLsr (h : u.Sound) : u.updateLsr.Sound := by
  rw [Uart.updateLsr]
  split
  · exact h
  · exact h.setTx rfl rfl

/-- A byte comes in, where there is room. -/
theorem receive (h : u.Sound) (hroom : u.rxQueue.length < queueSize) (val : BitVec 8) :
    (u.receive val).Sound where
  ready := by
    have hq : (u.rxQueue ++ [val]).isEmpty = false := by simp
    rw [Uart.receive, hasBits_set _ (by decide), hq]
    rfl
  bounded := by
    rw [Uart.receive, List.length_append]
    exact hroom
  empty := by rw [Uart.receive, hasBits_set_ne _ (by decide), h.empty]
  noBreak := by rw [Uart.receive, hasBits_set_ne _ (by decide), h.noBreak]

/-- The queue is not empty exactly when data is ready. -/
theorem ready_iff (h : u.Sound) : hasBits u.lsr lsrDr = true ↔ u.rxQueue ≠ [] := by
  rw [h.ready]
  cases u.rxQueue with
  | nil => simp
  | cons b bs => simp

/-- `rx_byte` takes the first byte, if there is one. -/
theorem rxByte_eq (h : u.Sound) : u.rxByte.1 = u.rxQueue.headD 0#8 ∧
    u.rxByte.2.rxQueue = u.rxQueue.tail := by
  rw [rxByte]
  cases u.rxQueue with
  | nil => exact ⟨rfl, rfl⟩
  | cons b bs =>
    rw [h.noBreak]
    exact ⟨rfl, rfl⟩

theorem rxByte (h : u.Sound) : u.rxByte.2.Sound := by
  rw [Uart.rxByte]
  cases hq : u.rxQueue with
  | nil => exact h.drain rfl rfl
  | cons b bs =>
    have hb : bs.length ≤ queueSize := by
      have := h.bounded
      rw [hq, List.length_cons] at this
      omega
    rw [h.noBreak]
    cases bs with
    | nil => exact h.drain rfl rfl
    | cons b' bs =>
      have hdr : hasBits u.lsr lsrDr = true :=
        h.ready_iff.2 (by rw [hq]; exact List.cons_ne_nil _ _)
      exact ⟨hdr, hb, h.empty, h.noBreak⟩

end Sound

/-! ### Between accesses -/

/-- What holds of a serial port after every operation. -/
structure Coherent (u : Uart) : Prop extends Sound u where
  /-- no request to clear the queue is waiting -/
  served : hasBits u.fcr fcrClearRcvr = false
  identified : u.iir = if u.interrupts = 0#8 then iirNoInt else u.interrupts
  line : u.level = (u.rdi || u.thri)

theorem interrupts_eq_zero : u.interrupts = 0#8 ↔ (u.rdi || u.thri) = false := by
  rw [interrupts]
  cases u.rdi <;> cases u.thri <;> decide

/-- What an update leaves alone in `fcr`. -/
theorem hasBits_fcr_clearRx : hasBits u.clearRx.fcr fcrClearRcvr = false := by
  rw [clearRx]
  split
  · exact hasBits_clear _ (by decide)
  next h => exact Bool.eq_false_iff.2 h

theorem hasBits_fcr_clearTx : hasBits u.clearTx.fcr fcrClearRcvr = hasBits u.fcr fcrClearRcvr := by
  rw [clearTx]
  split
  · exact hasBits_clear_ne _ (by decide)
  · rfl

theorem fcr_updateLine : u.updateLine.fcr = u.fcr := by
  rw [updateLine]
  split <;> rfl

theorem fcr_updateLsr : u.updateLsr.fcr = u.fcr := by
  rw [updateLsr]
  split <;> rfl

/-- The line tells what the registers tell that `update_interrupt` has computed it from. -/
theorem updateLine_spec :
    u.updateLine.iir =
      (if u.updateLine.interrupts = 0#8 then iirNoInt else u.updateLine.interrupts) ∧
      u.updateLine.level = (u.updateLine.rdi || u.updateLine.thri) := by
  rw [updateLine]
  split
  next hz =>
    refine ⟨(if_pos hz).symm, (interrupts_eq_zero.1 hz).symm⟩
  next hz =>
    refine ⟨(if_neg hz).symm, ?_⟩
    exact (Bool.of_not_eq_false fun h => hz (interrupts_eq_zero.2 h)).symm

/-- The last step of `update_interrupt` touches no bit that the line depends on. -/
theorem updateLsr_eq :
    u.updateLsr.rdi = u.rdi ∧ u.updateLsr.thri = u.thri ∧ u.updateLsr.iir = u.iir ∧
    u.updateLsr.level = u.level := by
  rw [Uart.updateLsr]
  split
  · exact ⟨rfl, rfl, rfl, rfl⟩
  next hthri =>
    refine ⟨?_, ?_, rfl, rfl⟩
    · rw [rdi, rdi, hasBits_set_ne _ (by decide)]
    · rw [thri, thri, Bool.eq_false_iff.2 hthri]
      rfl

/-- **`update_interrupt` brings the line in step.** -/
theorem Sound.updateInterrupt (h : u.Sound) : u.updateInterrupt.Coherent := by
  have hline := h.clearRx.clearTx.updateLine
  obtain ⟨hrdi, hthri, hiir, hlevel⟩ := updateLsr_eq (u := u.clearRx.clearTx.updateLine)
  obtain ⟨hid, hlev⟩ := updateLine_spec (u := u.clearRx.clearTx)
  have hint : u.updateInterrupt.interrupts = u.clearRx.clearTx.updateLine.interrupts := by
    rw [interrupts, interrupts, Uart.updateInterrupt, hrdi, hthri]
  refine ⟨hline.updateLsr, ?_, ?_, ?_⟩
  · rw [Uart.updateInterrupt, fcr_updateLsr, fcr_updateLine, hasBits_fcr_clearTx,
      hasBits_fcr_clearRx]
  · rw [hint, Uart.updateInterrupt, hiir, hid]
  · rw [Uart.updateInterrupt, hlevel, hlev, hrdi, hthri]

/-- An update after a register was written. -/
theorem Sound.updateInterrupt_of {u u' : Uart} (h : u.Sound) (hlsr : u'.lsr = u.lsr)
    (hq : u'.rxQueue = u.rxQueue) :
    u'.updateInterrupt.Coherent :=
  (h.of_eq hlsr hq).updateInterrupt

/-- Registers that the line does not depend on. -/
theorem Coherent.of_eq {u u' : Uart} (h : u.Coherent) (hlsr : u'.lsr = u.lsr)
    (hq : u'.rxQueue = u.rxQueue)
    (hfcr : u'.fcr = u.fcr) (hier : u'.ier = u.ier) (hiir : u'.iir = u.iir)
    (hip : u'.thriIp = u.thriIp)
    (hlevel : u'.level = u.level) : u'.Coherent := by
  have hrdi : u'.rdi = u.rdi := by rw [rdi, rdi, hier, hlsr]
  have hthri : u'.thri = u.thri := by rw [thri, thri, hier, hlsr, hip]
  have hint : u'.interrupts = u.interrupts := by rw [interrupts, interrupts, hrdi, hthri]
  refine ⟨h.toSound.of_eq hlsr hq, hfcr ▸ h.served, ?_, ?_⟩
  · rw [hiir, hint, h.identified]
  · rw [hlevel, hrdi, hthri, h.line]

theorem sound_new (regShift regIoWidth : Nat) (dlm : BitVec 8) :
    (new regShift regIoWidth dlm).Sound := by
  have hlsr : (new regShift regIoWidth dlm).lsr = lsrTemt ||| lsrThre := rfl
  refine ⟨?_, Nat.zero_le _, ?_, ?_⟩ <;> rw [hlsr]
  · exact (by decide : hasBits (lsrTemt ||| lsrThre) lsrDr = false)
  · decide
  · decide

theorem coherent_new (regShift regIoWidth : Nat) (dlm : BitVec 8) :
    (new regShift regIoWidth dlm).Coherent := by
  have hrdi : (new regShift regIoWidth dlm).rdi = false := by simp [rdi, new, hasBits]
  have hthri : (new regShift regIoWidth dlm).thri = false := by simp [thri, new]
  have hint : (new regShift regIoWidth dlm).interrupts = 0#8 :=
    interrupts_eq_zero.2 (by rw [hrdi, hthri]; rfl)
  refine ⟨sound_new _ _ _, ?_, ?_, ?_⟩
  · simp [new, hasBits]
  · rw [if_pos hint]
    rfl
  · rw [hrdi, hthri]
    rfl

/-! ### Operations -/

theorem Coherent.loadReg (h : u.Coherent) (reg : Reg) : (u.loadReg reg).2.Coherent := by
  unfold Uart.loadReg
  split
  · split
    · exact h.toSound.updateInterrupt
    · exact h.toSound.rxByte.updateInterrupt
  split
  · exact h
  split
  · dsimp only
    split
    · exact h.toSound.updateInterrupt_of rfl rfl
    · exact h
  repeat (split; · exact h)
  exact h

theorem Coherent.load (h : u.Coherent) (addr : Reg) (len : Nat) : (u.load addr len).2.Coherent := by
  unfold Uart.load
  split
  · exact h
  · exact h.loadReg _

theorem Sound.storeTx (h : u.Sound) (val : BitVec 8) : (u.storeTx val).Sound := by
  unfold Uart.storeTx
  split
  · exact h.of_eq rfl rfl
  split
  · split
    next hroom => exact h.receive hroom val
    · exact h
  · exact h.setTx rfl rfl

theorem Sound.storeIer (h : u.Sound) (val : BitVec 8) : (u.storeIer val).Sound := by
  unfold Uart.storeIer
  split
  · exact h.of_eq rfl rfl
  · exact h.of_eq rfl rfl

theorem Coherent.storeReg (h : u.Coherent) (reg : Reg) (val : BitVec 8) :
    (u.storeReg reg val).Coherent := by
  unfold Uart.storeReg
  split
  · exact (h.toSound.storeTx val).updateInterrupt
  split
  · exact (h.toSound.storeIer val).updateInterrupt
  -- the FIFO, line and modem control registers
  iterate 3
    split
    · exact h.toSound.updateInterrupt_of rfl rfl
  split
  · exact h
  · exact h.of_eq rfl rfl rfl rfl rfl rfl rfl

theorem Coherent.store (h : u.Coherent) (addr : Reg) (bytes : List (BitVec 8)) :
    (u.store addr bytes).2.Coherent := by
  unfold Uart.store
  split
  · exact h
  · exact h.storeReg _ _

theorem length_lt_of_not_deaf (hd : u.deaf ≠ true) : u.rxQueue.length < queueSize := by
  rw [ne_eq, deaf, Bool.or_eq_true, not_or, decide_eq_true_iff] at hd
  exact Nat.lt_of_not_le hd.2

theorem Coherent.tick (h : u.Coherent) (rc : Int) : (u.tick rc).Coherent := by
  unfold Uart.tick
  split
  · exact h
  next hd =>
    split
    · exact h.of_eq rfl rfl rfl rfl rfl rfl rfl
    split
    · exact h.of_eq rfl rfl rfl rfl rfl rfl rfl
    · have hs : { u with backoffCounter := 0 }.Sound := h.toSound.of_eq rfl rfl
      exact (hs.receive (length_lt_of_not_deaf hd) _).updateInterrupt

/-- **Every operation keeps the serial port coherent.** -/
theorem Coherent.step (h : u.Coherent) (op : UartOp) : (u.step op).Coherent := by
  cases op with
  | load addr len => exact h.load addr len
  | store addr bytes => exact h.store addr bytes
  | tick rc => exact h.tick rc

end Uart

end Nnemu

import Nnemu.Uart.Coherence

/-!
# No received byte is lost

The queue of the serial port is first in, first out: each byte that is accepted leaves it later,
either because the driver reads it or because the driver clears the queue, and bytes leave in the
order in which they came.

The accounting is of one operation at a time: what was in the queue and what is accepted is what
leaves it and what is in the queue behind it (`Balances`). `Fate` says how a byte leaves, and
`received` adds up a run.
-/

namespace Nnemu

namespace Uart

variable {u : Uart}

/-! ### What is observed -/

/-- Does an access reach a register? -/
def reaches (u : Uart) (addr : Reg) (len : Nat) (reg : Reg) : Bool :=
  u.regIoWidth == len && u.regOf addr == reg

/-- Does `tick` get as far as `char_read_`? -/
def listens (u : Uart) : Bool :=
  !u.deaf && !(decide (0 < u.backoffCounter) && decide (u.backoffCounter < maxBackoff))

/-- The bytes that an operation accepts: `tick` those that arrive, a store in loopback mode its
own. -/
def accepts (u : Uart) : UartOp → List (BitVec 8)
  | .load _ _ => []
  | .store addr bytes =>
    if u.reaches addr bytes.length 0#64 && !u.dlab && hasBits u.mcr mcrLoop &&
      decide (u.rxQueue.length < queueSize) then
      [bytes.headD 0#8]
    else []
  | .tick rc => if u.listens && decide (0 ≤ rc) then [BitVec.ofInt 8 rc] else []

/-- The bytes that a read of the receiver buffer returns while data is ready. -/
def returns (u : Uart) : UartOp → List (BitVec 8)
  | .load addr len =>
    if u.reaches addr len 0#64 && !u.dlab && hasBits u.lsr lsrDr then (u.load addr len).1.getD []
      else []
  | _ => []

/-- The bytes that a receiver clear discards. -/
def discards (u : Uart) : UartOp → List (BitVec 8)
  | .store addr bytes =>
    if u.reaches addr bytes.length 2#64 && hasBits (bytes.headD 0#8) fcrClearRcvr then u.rxQueue
      else []
  | _ => []

/-- How a byte leaves the queue. -/
inductive Fate where
  | returned
  | discarded
deriving DecidableEq

/-- The bytes that leave the queue in an operation, each with its fate. -/
def leaves (u : Uart) (op : UartOp) : List (Fate × BitVec 8) :=
  (u.returns op).map (Prod.mk .returned) ++ (u.discards op).map (Prod.mk .discarded)

/-! ### The queue -/

/-- An update empties the queue if that is requested. -/
theorem rxQueue_updateInterrupt :
    u.updateInterrupt.rxQueue = if hasBits u.fcr fcrClearRcvr then [] else u.rxQueue := by
  have hlsr (u : Uart) : u.updateLsr.rxQueue = u.rxQueue := by
    rw [updateLsr]
    split <;> rfl
  have hline (u : Uart) : u.updateLine.rxQueue = u.rxQueue := by
    rw [updateLine]
    split <;> rfl
  have htx (u : Uart) : u.clearTx.rxQueue = u.rxQueue := by
    rw [clearTx]
    split <;> rfl
  rw [updateInterrupt, hlsr, hline, htx, clearRx]
  split <;> rfl

/-- Without such a request an update leaves the queue alone. -/
theorem rxQueue_updateInterrupt_of_served (h : hasBits u.fcr fcrClearRcvr = false) :
    u.updateInterrupt.rxQueue = u.rxQueue := by
  rw [rxQueue_updateInterrupt, h]
  rfl

theorem fcr_rxByte : u.rxByte.2.fcr = u.fcr := by
  rw [rxByte]
  split
  · rfl
  · split <;> rfl

/-- A load that reaches a register. -/
theorem load_of_reaches {addr reg : Reg} {len : Nat} (hr : u.reaches addr len reg = true) :
    u.load addr len = (some [(u.loadReg reg).1], (u.loadReg reg).2) := by
  rw [reaches, Bool.and_eq_true, beq_iff_eq, beq_iff_eq] at hr
  obtain ⟨hlen, hreg⟩ := hr
  rw [load, if_neg (not_not_intro hlen), hreg]

/-- A store that reaches a register. -/
theorem store_of_reaches {addr reg : Reg} {bytes : List (BitVec 8)}
    (hr : u.reaches addr bytes.length reg = true) :
    (u.store addr bytes).2 = u.storeReg reg (bytes.headD 0#8) := by
  rw [reaches, Bool.and_eq_true, beq_iff_eq, beq_iff_eq] at hr
  obtain ⟨hlen, hreg⟩ := hr
  rw [store, if_neg (not_not_intro hlen), hreg]

/-! ### Each operation balances -/

/-- What is in the queue, and what comes in, either leaves it or is in it afterwards. -/
def Balances (u : Uart) (op : UartOp) : Prop :=
  u.rxQueue ++ u.accepts op = (u.leaves op).map Prod.snd ++ (u.step op).rxQueue

theorem map_leaves (op : UartOp) : (u.leaves op).map Prod.snd = u.returns op ++ u.discards op := by
  rw [leaves, List.map_append, List.map_map, List.map_map]
  exact congrArg₂ _ (List.map_id _) (List.map_id _)

/-- An operation that leaves the queue alone. -/
theorem balances_of_eq {op : UartOp} (hin : u.accepts op = []) (hout : u.returns op = [])
    (hclr : u.discards op = [])
    (hq : (u.step op).rxQueue = u.rxQueue) : u.Balances op := by
  rw [Balances, map_leaves, hin, hout, hclr, hq, List.append_nil]
  rfl

/-- Reads of registers other than the receiver buffer. -/
theorem Coherent.rxQueue_loadReg (h : u.Coherent) {reg : Reg} (hreg : reg ≠ 0#64) :
    (u.loadReg reg).2.rxQueue = u.rxQueue := by
  rw [Uart.loadReg, if_neg hreg]
  split
  · rfl
  split
  · dsimp only
    split
    · exact rxQueue_updateInterrupt_of_served h.served
    · rfl
  iterate 5
    first
    | rfl
    | split
      · rfl

theorem Coherent.balances_load (h : u.Coherent) (addr : Reg) (len : Nat) :
    u.Balances (.load addr len) := by
  have hquiet (hout : u.returns (.load addr len) = [])
    (hq : (u.load addr len).2.rxQueue = u.rxQueue) :
      u.Balances (.load addr len) := balances_of_eq rfl hout rfl hq
  by_cases hlen : u.regIoWidth = len
  case neg =>
    refine hquiet ?_ ?_
    · simp [returns, reaches, hlen]
    · rw [Uart.load, if_pos hlen]
  have hreaches : u.reaches addr len (u.regOf addr) = true := by simp [reaches, hlen]
  have hload := load_of_reaches hreaches
  by_cases hreg : u.regOf addr = 0#64
  case neg =>
    refine hquiet ?_ ?_
    · simp [returns, reaches, hreg]
    · rw [hload]
      exact h.rxQueue_loadReg hreg
  rw [hreg] at hload hreaches
  rw [Uart.loadReg, if_pos rfl] at hload
  cases hd : u.dlab with
  | true =>
    rw [hd, if_pos rfl] at hload
    refine hquiet ?_ ?_
    · simp [returns, hd]
    · rw [hload]
      exact rxQueue_updateInterrupt_of_served h.served
  | false =>
    rw [hd, if_neg Bool.false_ne_true] at hload
    obtain ⟨hval, hq⟩ := h.toSound.rxByte_eq
    -- the receiver buffer: the first byte leaves the queue
    have hserved : hasBits u.rxByte.2.fcr fcrClearRcvr = false := by rw [fcr_rxByte, h.served]
    have hqueue : (u.step (.load addr len)).rxQueue = u.rxQueue.tail := by
      rw [Uart.step, hload, rxQueue_updateInterrupt_of_served hserved, hq]
    have hout : u.returns (.load addr len) = u.rxQueue.take 1 := by
      rw [returns, hreaches, hd, h.ready, hload, hval]
      cases u.rxQueue <;> rfl
    rw [Balances, map_leaves, hqueue, hout]
    cases u.rxQueue <;> simp [accepts, discards]

theorem Coherent.balances_tick (h : u.Coherent) (rc : Int) : u.Balances (.tick rc) := by
  have hquiet (hin : u.accepts (.tick rc) = []) (hq : (u.tick rc).rxQueue = u.rxQueue) :
    u.Balances (.tick rc) :=
    balances_of_eq hin rfl rfl hq
  by_cases hd : u.deaf = true
  · refine hquiet ?_ ?_
    · simp [accepts, listens, hd]
    · rw [Uart.tick, if_pos hd]
  by_cases hb : 0 < u.backoffCounter ∧ u.backoffCounter < maxBackoff
  · refine hquiet ?_ ?_
    · simp [accepts, listens, hb]
    · rw [Uart.tick, if_neg hd, if_pos hb]
  by_cases hrc : rc < 0
  · refine hquiet ?_ ?_
    · simp [accepts, hrc]
    · rw [Uart.tick, if_neg hd, if_neg hb, if_pos hrc]
  have hqueue : (u.step (.tick rc)).rxQueue = u.rxQueue ++ [BitVec.ofInt 8 rc] := by
    rw [Uart.step, Uart.tick, if_neg hd, if_neg hb, if_neg hrc]
    exact rxQueue_updateInterrupt_of_served h.served
  have hin : u.accepts (.tick rc) = [BitVec.ofInt 8 rc] := by
    have hlistens : u.listens = true := by
      rw [listens, Bool.eq_false_iff.2 hd, ← Bool.decide_and, decide_eq_false hb]
      rfl
    rw [accepts, hlistens, decide_eq_true (Int.not_lt.1 hrc)]
    rfl
  rw [Balances, map_leaves, hqueue, hin]
  rfl

/-- The queue after a store that reaches a register. -/
theorem Coherent.rxQueue_storeReg (h : u.Coherent) {reg : Reg} (val : BitVec 8)
    (h0 : reg ≠ 0#64) (h2 : reg ≠ 2#64) :
    (u.storeReg reg val).rxQueue = u.rxQueue := by
  have hier : (u.storeIer val).rxQueue = u.rxQueue ∧ (u.storeIer val).fcr = u.fcr := by
    rw [storeIer]
    split <;> exact ⟨rfl, rfl⟩
  rw [Uart.storeReg, if_neg h0]
  split
  · rw [rxQueue_updateInterrupt_of_served (hier.2 ▸ h.served), hier.1]
  iterate 2
    split
    · exact rxQueue_updateInterrupt_of_served h.served
  split
  · rfl
  · rfl

theorem Coherent.balances_storeTx (h : u.Coherent) (val : BitVec 8) :
    (u.storeTx val).updateInterrupt.rxQueue =
      u.rxQueue ++ if !u.dlab && hasBits u.mcr mcrLoop &&
      decide (u.rxQueue.length < queueSize) then [val] else [] := by
  have hfcr : (u.storeTx val).fcr = u.fcr := by
    rw [Uart.storeTx]
    split
    · rfl
    split
    · split <;> rfl
    · rfl
  rw [rxQueue_updateInterrupt_of_served (hfcr ▸ h.served), Uart.storeTx]
  cases u.dlab with
  | true => exact (List.append_nil _).symm
  | false =>
    cases hasBits u.mcr mcrLoop with
    | false => exact (List.append_nil _).symm
    | true =>
      by_cases hroom : u.rxQueue.length < queueSize
      · rw [decide_eq_true hroom, if_neg Bool.false_ne_true, if_pos rfl, if_pos hroom]
        rfl
      · rw [decide_eq_false hroom, if_neg Bool.false_ne_true, if_pos rfl, if_neg hroom]
        exact (List.append_nil _).symm

theorem Coherent.balances_store (h : u.Coherent) (addr : Reg) (bytes : List (BitVec 8)) :
    u.Balances (.store addr bytes) := by
  by_cases hlen : u.regIoWidth = bytes.length
  case neg =>
    refine balances_of_eq ?_ rfl ?_ ?_
    · simp [accepts, reaches, hlen]
    · simp [discards, reaches, hlen]
    · rw [Uart.step, Uart.store, if_pos hlen]
  have hreaches : u.reaches addr bytes.length (u.regOf addr) = true := by simp [reaches, hlen]
  have hstore : u.step (.store addr bytes) = u.storeReg (u.regOf addr) (bytes.headD 0#8) :=
    store_of_reaches hreaches
  by_cases h0 : u.regOf addr = 0#64
  · have hclr : u.discards (.store addr bytes) = [] := by simp [discards, reaches, h0]
    rw [h0] at hstore hreaches
    rw [Balances, map_leaves, hclr, hstore, Uart.storeReg, if_pos rfl,
      h.balances_storeTx, accepts, hreaches,
      Bool.true_and]
    rfl
  by_cases h2 : u.regOf addr = 2#64
  · have hin : u.accepts (.store addr bytes) = [] := by simp [accepts, reaches, h2]
    rw [h2] at hstore hreaches
    rw [Balances, map_leaves, hin, hstore, Uart.storeReg, if_neg (by decide),
      if_neg (by decide), if_pos rfl,
      rxQueue_updateInterrupt, discards, hreaches, Bool.true_and]
    cases hasBits (bytes.headD 0#8) fcrClearRcvr <;> simp [returns]
  refine balances_of_eq ?_ rfl ?_ ?_
  · simp [accepts, reaches, h0]
  · simp [discards, reaches, h2]
  · rw [hstore, h.rxQueue_storeReg _ h0 h2]

theorem Coherent.balances (h : u.Coherent) (op : UartOp) : u.Balances op := by
  cases op with
  | load addr len => exact h.balances_load addr len
  | store addr bytes => exact h.balances_store addr bytes
  | tick rc => exact h.balances_tick rc

/-! ### Runs -/

/-- What the driver, the line and the controller can rely on in every state. -/
structure InStep (u : Uart) : Prop where
  /-- LSR.DR is set exactly when there is a byte to read -/
  ready : hasBits u.lsr lsrDr = true ↔ u.rxQueue ≠ []
  bounded : u.rxQueue.length ≤ 64
  level : u.level = (hasBits u.ier ierRdi && hasBits u.lsr lsrDr ||
    hasBits u.ier ierThri && hasBits u.lsr lsrTemt && u.thriIp)

theorem Coherent.inStep (h : u.Coherent) : u.InStep :=
  ⟨h.toSound.ready_iff, h.bounded, h.line⟩

/-- The bytes that were returned are those that left the queue with that fate. -/
theorem filter_leaves (op : UartOp) :
    ((u.leaves op).filter fun e => decide (e.1 = .returned)).map Prod.snd = u.returns op := by
  rw [leaves, List.filter_append, List.filter_map, List.filter_map]
  simp [Function.comp_def]

/-- **The serial port loses nothing.** Along every run the data-ready bit, the queue and the
interrupt line are in step, and the bytes that were accepted are, in order, those that left the
queue and those that still wait in it; the ones that reads of the receiver buffer returned are those
that were not discarded by a receiver clear. -/
theorem received (regShift regIoWidth : Nat) (dlm : BitVec 8) (ops : List UartOp) :
    let u := new regShift regIoWidth dlm
    Run.Always step InStep u ops ∧
      Run.collect step accepts u ops =
        (Run.collect step leaves u ops).map Prod.snd ++ (Run.run step u ops).rxQueue ∧
      Run.collect step returns u ops =
        ((Run.collect step leaves u ops).filter fun e => decide (e.1 = .returned)).map
          Prod.snd := by
  have hnew := coherent_new regShift regIoWidth dlm
  refine ⟨Run.Always.of_invariant (fun _ op h => h.step op) (fun _ h => h.inStep) hnew ops, ?_, ?_⟩
  · rw [Run.collect_map]
    exact Run.collect_balance (fun _ op h => h.step op) (fun _ op h => h.balances op) hnew ops
  · rw [Run.collect_filter, Run.collect_map]
    simp only [filter_leaves]

end Uart

end Nnemu

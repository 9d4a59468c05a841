import Nnemu.Encoding
import Nnemu.Lib.Run
import Nnemu.Sim.Device

/-!
# The serial port

`ns16550_t`. Bytes come in through `tick`, or are looped back by stores, and wait in a queue. The
interrupt line and the identification register are computed by `update_interrupt`, which the
accesses call that may change them.
-/

namespace Nnemu

namespace Uart

/-! ### Registers -/

/-- `UART_QUEUE_SIZE` -/
def queueSize : Nat := 64
/-- `MAX_BACKOFF` -/
def maxBackoff : Nat := 16

/-- `UART_IER_THRI` -/
def ierThri : BitVec 8 := 0x02#8
/-- `UART_IER_RDI` -/
def ierRdi : BitVec 8 := 0x01#8

/-- `UART_IIR_NO_INT` -/
def iirNoInt : BitVec 8 := 0x01#8
/-- `UART_IIR_THRI` -/
def iirThri : BitVec 8 := 0x02#8
/-- `UART_IIR_RDI` -/
def iirRdi : BitVec 8 := 0x04#8
/-- `UART_IIR_RLSI` -/
def iirRlsi : BitVec 8 := 0x06#8
/-- `UART_IIR_TYPE_BITS` -/
def iirTypeBits : BitVec 8 := 0xc0#8

/-- `UART_FCR_ENABLE_FIFO` -/
def fcrEnableFifo : BitVec 8 := 0x01#8
/-- `UART_FCR_CLEAR_RCVR` -/
def fcrClearRcvr : BitVec 8 := 0x02#8
/-- `UART_FCR_CLEAR_XMIT` -/
def fcrClearXmit : BitVec 8 := 0x04#8

/-- `UART_LCR_DLAB` -/
def lcrDlab : BitVec 8 := 0x80#8

/-- `UART_MCR_LOOP` -/
def mcrLoop : BitVec 8 := 0x10#8
/-- `UART_MCR_OUT2` -/
def mcrOut2 : BitVec 8 := 0x08#8

/-- `UART_LSR_TEMT` -/
def lsrTemt : BitVec 8 := 0x40#8
/-- `UART_LSR_THRE` -/
def lsrThre : BitVec 8 := 0x20#8
/-- `UART_LSR_BI` -/
def lsrBi : BitVec 8 := 0x10#8
/-- `UART_LSR_DR` -/
def lsrDr : BitVec 8 := 0x01#8

/-- `UART_MSR_DCD` -/
def msrDcd : BitVec 8 := 0x80#8
/-- `UART_MSR_DSR` -/
def msrDsr : BitVec 8 := 0x20#8
/-- `UART_MSR_CTS` -/
def msrCts : BitVec 8 := 0x10#8

end Uart

/-- `ns16550_t` -/
structure Uart where
  regShift : Nat
  regIoWidth : Nat
  rxQueue : List (BitVec 8)
  dll : BitVec 8
  dlm : BitVec 8
  iir : BitVec 8
  ier : BitVec 8
  fcr : BitVec 8
  lcr : BitVec 8
  mcr : BitVec 8
  lsr : BitVec 8
  msr : BitVec 8
  scr : BitVec 8
  thriIp : Bool
  backoffCounter : Nat
  /-- the level that `set_interrupt_level` was called with last -/
  level : Bool
  /-- the bytes that `char_write_` was called with -/
  sent : List (BitVec 8)

namespace Uart

variable (u : Uart)

/-- The constructor, which leaves `dlm` as it finds it. The controller starts with all levels
low. -/
def new (regShift regIoWidth : Nat) (dlm : BitVec 8) : Uart where
  regShift := regShift
  regIoWidth := regIoWidth
  rxQueue := []
  dll := 0x0c#8
  dlm := dlm
  iir := iirNoInt
  ier := 0#8
  fcr := 0#8
  lcr := 0#8
  mcr := mcrOut2
  lsr := lsrTemt ||| lsrThre
  msr := msrDcd ||| msrDsr ||| msrCts
  scr := 0#8
  thriIp := false
  backoffCounter := 0
  level := false
  sent := []

/-! ### Interrupts -/

/-- Handle clear rx. -/
def clearRx : Uart :=
  if hasBits u.fcr fcrClearRcvr then
    { u with fcr := u.fcr &&& ~~~fcrClearRcvr, rxQueue := [], lsr := u.lsr &&& ~~~lsrDr }
  else u

/-- Handle clear tx. -/
def clearTx : Uart :=
  if hasBits u.fcr fcrClearXmit then
    { u with fcr := u.fcr &&& ~~~fcrClearXmit, lsr := u.lsr ||| (lsrTemt ||| lsrThre) }
  else u

/-- Data ready, and the interrupt for it enabled? -/
def rdi : Bool :=
  hasBits u.ier ierRdi && hasBits u.lsr lsrDr

/-- Transmitter empty, and the interrupt for it enabled? -/
def thri : Bool :=
  hasBits u.ier ierThri && hasBits u.lsr lsrTemt && u.thriIp

/-- `interrupts` in `update_interrupt`. -/
def interrupts : BitVec 8 :=
  (if u.rdi then iirRdi else 0#8) ||| (if u.thri then iirThri else 0#8)

/-- Update the interrupt line. -/
def updateLine : Uart :=
  if u.interrupts = 0#8 then { u with iir := iirNoInt, level := false }
  else { u with iir := u.interrupts, level := true }

/-- If the OS disabled the tx interrupt, there is nothing more to transmit. -/
def updateLsr : Uart :=
  if hasBits u.ier ierThri then u else { u with lsr := u.lsr ||| (lsrTemt ||| lsrThre) }

/-- `ns16550_t::update_interrupt` -/
def updateInterrupt : Uart :=
  u.clearRx.clearTx.updateLine.updateLsr

/-! ### Bytes -/

/-- `ns16550_t::rx_byte` -/
def rxByte : BitVec 8 × Uart :=
  match u.rxQueue with
  | [] => (0#8, { u with lsr := u.lsr &&& ~~~lsrDr })
  | b :: bs =>
    -- break issued?
    if hasBits u.lsr lsrBi then (0#8, { u with lsr := u.lsr &&& ~~~lsrBi })
    else (b, { u with rxQueue := bs, lsr := if bs.isEmpty then u.lsr &&& ~~~lsrDr else u.lsr })

/-- `ns16550_t::tx_byte` -/
def txByte (val : BitVec 8) : Uart :=
  { u with lsr := u.lsr ||| (lsrTemt ||| lsrThre), thriIp := true, sent := u.sent ++ [val] }

/-- A byte is received. -/
def receive (val : BitVec 8) : Uart :=
  { u with rxQueue := u.rxQueue ++ [val], lsr := u.lsr ||| lsrDr }

/-! ### Accesses -/

/-- `lcr & UART_LCR_DLAB` -/
def dlab : Bool :=
  hasBits u.lcr lcrDlab

/-- The register that an address selects. -/
def regOf (addr : Reg) : Reg :=
  (addr >>> u.regShift) &&& 7#64

/-- The `switch` of `load`, which has a case for every register: the value, and the state. -/
def loadReg (reg : Reg) : BitVec 8 × Uart :=
  if reg = 0#64 then
    if u.dlab then (u.dll, u.updateInterrupt) else (u.rxByte.1, u.rxByte.2.updateInterrupt)
  else if reg = 1#64 then (if u.dlab then u.dlm else u.ier, u)
  else if reg = 2#64 then
    (u.iir ||| iirTypeBits, if hasBits u.iir iirThri then { u with thriIp := false }.updateInterrupt
      else u)
  else if reg = 3#64 then (u.lcr, u)
  else if reg = 4#64 then (u.mcr, u)
  else if reg = 5#64 then (u.lsr, u)
  else if reg = 6#64 then (u.msr, u)
  else (u.scr, u)

/-- `ns16550_t::load`. Only the first of the bytes is written. -/
def load (addr : Reg) (len : Nat) : LoadResult × Uart :=
  if u.regIoWidth ≠ len then (none, u)
  else
    let (val, u) := u.loadReg (u.regOf addr)
    (some [val], u)

/-- `UART_TX` -/
def storeTx (val : BitVec 8) : Uart :=
  if u.dlab then { u with dll := val }
  -- loopback mode
  else if hasBits u.mcr mcrLoop then if u.rxQueue.length < queueSize then u.receive val else u
  else u.txByte val

/-- `UART_IER` -/
def storeIer (val : BitVec 8) : Uart :=
  if u.dlab then { u with dlm := val }
  else
    let ier := val &&& 0x0f#8
    { u with ier := ier, thriIp := u.thriIp || (hasBits ier ierThri && !hasBits u.ier ierThri) }

/-- The `switch` of `store`. -/
def storeReg (reg : Reg) (val : BitVec 8) : Uart :=
  if reg = 0#64 then (u.storeTx val).updateInterrupt
  else if reg = 1#64 then (u.storeIer val).updateInterrupt
  else if reg = 2#64 then { u with fcr := val }.updateInterrupt
  else if reg = 3#64 then { u with lcr := val }.updateInterrupt
  else if reg = 4#64 then { u with mcr := val }.updateInterrupt
  -- factory test, and not used
  else if reg = 5#64 ∨ reg = 6#64 then u
  else { u with scr := val }

/-- `ns16550_t::store`. Only the first byte is read. -/
def store (addr : Reg) (bytes : List (BitVec 8)) : Bool × Uart :=
  if u.regIoWidth ≠ bytes.length then (false, u)
  else (true, u.storeReg (u.regOf addr) (bytes.headD 0#8))

/-- Does `tick` leave the line alone? -/
def deaf : Bool :=
  !hasBits u.fcr fcrEnableFifo || hasBits u.mcr mcrLoop || decide (queueSize ≤ u.rxQueue.length)

/-- `ns16550_t::tick`. `rc` is what `char_read_` returns if it is called. -/
def tick (rc : Int) : Uart :=
  if u.deaf then u
  else if 0 < u.backoffCounter ∧ u.backoffCounter < maxBackoff then
    { u with backoffCounter := u.backoffCounter + 1 }
  else if rc < 0 then { u with backoffCounter := 1 }
  else ({ u with backoffCounter := 0 }.receive (BitVec.ofInt 8 rc)).updateInterrupt

end Uart

/-! ### Runs -/

/-- What happens to a serial port. -/
inductive UartOp where
  | load (addr : Reg) (len : Nat)
  | store (addr : Reg) (bytes : List (BitVec 8))
  | tick (rc : Int)

namespace Uart

/-- One operation. -/
def step (u : Uart) : UartOp → Uart
  | .load addr len => (u.load addr len).2
  | .store addr bytes => (u.store addr bytes).2
  | .tick rc => u.tick rc

end Uart

end Nnemu

import Nnemu.Pmp.Lock
import Nnemu.Pmp.Homogeneous
import Nnemu.Trigger.Chain
import Nnemu.Trigger.Match
import Nnemu.Mmu.FaultClass
import Nnemu.Mmu.Guest
import Nnemu.Mmu.Path
import Nnemu.Mmu.Later
import Nnemu.Hart.Privilege
import Nnemu.Hart.Interrupt
import Nnemu.Hart.Mret
import Nnemu.Hart.Return
import Nnemu.Hart.Vector
import Nnemu.Hart.Extensions
import Nnemu.Hart.Confinement
import Nnemu.Hart.Halves
import Nnemu.Hart.Flow
import Nnemu.Hart.Dirty
import Nnemu.Proc.Returns
import Nnemu.Sim.Persist
import Nnemu.Sim.MmuType
import Nnemu.Insn.Compression
import Nnemu.Plic.Pending
import Nnemu.Plic.Claims
import Nnemu.Plic.Line
import Nnemu.Uart.Receive
import Nnemu.Uart.Identify
import Nnemu.Memory.Refine
import Nnemu.Clint.Coherence
import Nnemu.Debug.Authentication
import Nnemu.Debug.Autoincrement
import Nnemu.Debug.Busy
import Nnemu.Disk.Atomic
import Nnemu.Bus.Windows
import Nnemu.Insn.Extended
import Nnemu.Insn.Divide
import Nnemu.Fesvr.Chunks
import Nnemu.Isa.Spelling
import Nnemu.Mmu.Again
import Nnemu.Insn.Assemble
import Nnemu.Trigger.Compare
import Nnemu.Trigger.Textra
import Nnemu.Trigger.Groups
import Nnemu.Cache.Chain
import Nnemu.Jtag.Scan
import Nnemu.Trigger.Firing
import Nnemu.Inspect.Undisturbed
import Nnemu.Proc.Counters
import Nnemu.Mmu.Amo
import Nnemu.Sim.Reservation
import Nnemu.Fesvr.Answers
import Nnemu.Mmu.Runs
import Nnemu.Fesvr.Loader

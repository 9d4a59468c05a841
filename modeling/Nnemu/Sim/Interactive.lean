import Nnemu.Mmu.Load

/-!
# The interactive mode

The commands of `interactive.cc` that show registers and memory, and the condition of `until` and
`while`, with the numbers that their arguments are scanned for. A command asks the memory management
units for what it shows, either that of a processor or `debug_mmu`, which has none. How they answer
is a `MemoryAccess`, so that one text is the command in the simulator and in what is said about it.
Devices may write the `mip` and the `time` of the harts when they answer: an access of a `Simulator`
carries these registers with the devices and puts them back.

The arguments of a command are strings, scanned as `strtoul` and `strtol` scan them, with leading
blanks, signs, prefixes and saturation. `MemoryAccess` has the loads with the two ways they can
fail, and a command that finds something wrong with its arguments comes to one of the two exceptions
of the source.
-/

namespace Nnemu

open Bytes

/-! ### Numbers -/

namespace CNumber

/-- The characters behind a string that are seen by C. -/
def cStr (s : String) : List Char :=
  s.toList.takeWhile fun c => c.toNat != 0

/-- `isspace` -/
def isSpace (c : Char) : Bool :=
  c.toNat == 32 || (9 ≤ c.toNat && c.toNat ≤ 13)

/-- What a digit counts, below the base. -/
def digit (base : Nat) (c : Char) : Option Nat :=
  let d :=
    if '0' ≤ c ∧ c ≤ '9' then some (c.toNat - 48)
    else if 'a' ≤ c ∧ c ≤ 'z' then some (c.toNat - 87)
    else if 'A' ≤ c ∧ c ≤ 'Z' then some (c.toNat - 55)
    else none
  d.filter (· < base)

/-- The digits at the head, and what follows. -/
def digits (base : Nat) (acc : Nat) : List Char → Nat × List Char
  | [] => (acc, [])
  | c :: cs =>
    match digit base c with
    | some d => digits base (acc * base + d) cs
    | none => (acc, c :: cs)

/-- A sign. -/
def sign : List Char → Bool × List Char
  | '-' :: cs => (true, cs)
  | '+' :: cs => (false, cs)
  | cs => (false, cs)

/-- `0x` before a hexadecimal digit. -/
def dropPrefix (base : Nat) : List Char → List Char
  | '0' :: x :: d :: cs => if base = 16 ∧ (x = 'x' ∨ x = 'X') ∧ (digit 16 d).isSome then d :: cs
    else '0' :: x :: d :: cs
  | cs => cs

/-- The number at the head of a string: its sign, its magnitude and what follows. There is none
without a digit. -/
def scan (base : Nat) (s : List Char) : Option (Bool × Nat × List Char) :=
  let (negative, cs) := sign (s.dropWhile isSpace)
  let cs := dropPrefix base cs
  let (n, rest) := digits base 0 cs
  if (cs.head?.bind (digit base)).isSome then some (negative, n, rest) else none

/-- `strtoul`, with what `endptr` points at. -/
def strtoul (base : Nat) (s : List Char) : Reg × List Char :=
  match scan base s with
  | none => (0#64, s)
  | some (negative, n, rest) =>
    (if 2 ^ 64 ≤ n then -1#64 else if negative then -BitVec.ofNat 64 n else BitVec.ofNat 64 n, rest)

/-- `strtol`, with what `endptr` points at. -/
def strtol (base : Nat) (s : List Char) : Reg × List Char :=
  match scan base s with
  | none => (0#64, s)
  | some (true, n, rest) => (if 2 ^ 63 < n then 1#64 <<< 63 else -BitVec.ofNat 64 n, rest)
  | some (false, n, rest) => (if 2 ^ 63 ≤ n then (1#64 <<< 63) - 1#64 else BitVec.ofNat 64 n, rest)

/-- `strtol`, and `strtoul` where it says `LONG_MAX`. -/
def hex (s : String) : Reg :=
  let val := (strtol 16 (cStr s)).1
  if val = (1#64 <<< 63) - 1#64 then (strtoul 16 (cStr s)).1 else val

end CNumber

/-! ### The simulator -/

/-- A processor with its instruction set. -/
structure Processor (ι : Type) where
  cfg : Config
  cpu : Cpu Files ι

/-- The processors, RAM and the devices. -/
structure Simulator (δ ι : Type) where
  procs : List (Processor ι)
  world : World δ

/-- The registers of a hart that devices write. -/
structure Pins where
  mip : Reg
  time : Reg
deriving DecidableEq

/-- The parameter behind the devices of `sim_t`, and the source of entropy. -/
structure Console (δ : Type) where
  bus : Bus δ
  /-- what the device at this address leaves at the pins of a hart, by its index, when it has
  answered -/
  pins : δ → Reg → Nat → Hart → Pins
  /-- `clint->get_mtime()`, if there is a CLINT -/
  mtime : δ → Option Reg
  /-- `clint->get_mtimecmp(id)`, if there is a CLINT -/
  mtimecmp : δ → Reg → Option Reg
  /-- `es.get_seed()`, if the source of entropy can be opened -/
  seed : Option Reg

namespace Hart

/-- The registers that devices write. -/
def pins (h : Hart) : Pins :=
  ⟨h.reg .mip, h.reg .time⟩

/-- They are written. -/
def setPins (h : Hart) (p : Pins) : Hart :=
  (h.set .mip p.mip).set .time p.time

/-- `get_csr` with `peek`: the permissions are not verified. -/
def peekCsr (cfg : Config) (h : Hart) (which : Nat) : Option Reg :=
  (csrFind cfg which).map (h.readObj cfg)

/-- `get_privilege_string`, which calls `abort()` in a mode that there is not. -/
def privilegeString (h : Hart) : Option String :=
  if h.v then
    if h.prv = prvU then some "VU" else if h.prv = prvS then some "VS" else none
  else if h.prv = prvU then some "U" else if h.prv = prvS then some "S"
    else if h.prv = prvM then some "M" else none

end Hart

namespace Console

variable {δ : Type} (con : Console δ)

/-- The pins of the harts after an access. -/
def drive (harts : List Hart) (dev : δ) (paddr : Reg) (pins : List Pins) : List Pins :=
  (harts.zip pins).mapIdx fun i p => con.pins dev paddr i (p.1.setPins p.2)

/-- The bus, with the pins of these harts. -/
def busAt (harts : List Hart) : Bus (δ × List Pins) where
  ramPage := con.bus.ramPage
  load := fun dev paddr len =>
    let r := con.bus.load dev.1 paddr len
    (r.1, r.2, con.drive harts r.2 paddr dev.2)
  store := fun mem dev paddr bytes =>
    let r := con.bus.store mem dev.1 paddr bytes
    (r.1, r.2.1, r.2.2, con.drive harts r.2.2 paddr dev.2)

end Console

namespace Simulator

variable {δ ι : Type} (m : Simulator δ ι)

/-- The harts. -/
def harts : List Hart :=
  m.procs.map fun p => p.cpu.hart

/-- RAM and the devices, with the pins of the harts. -/
def wired : World (δ × List Pins) :=
  { m.world with dev := (m.world.dev, m.harts.map Hart.pins) }

/-- The pins are put back into a processor. -/
def pinned (p : Processor ι) (pins : Pins) : Processor ι :=
  { p with cpu := { p.cpu with hart := p.cpu.hart.setPins pins } }

/-- What an access leaves of RAM, the devices and the pins. -/
def rewired (w : World (δ × List Pins)) : Simulator δ ι where
  procs := List.zipWith pinned m.procs w.dev.2
  world := { w with dev := w.dev.1 }

/-- What an access of a processor leaves of it. -/
def withCpu (i : Nat) (c : Cpu Files ι) : Simulator δ ι :=
  { m with procs := m.procs.modify i fun p => { p with cpu := c } }

end Simulator

/-! ### Loads -/

/-- How memory answers the commands. -/
structure MemoryAccess (m : Type → Type) where
  /-- `debug_mmu->load` -/
  debug : Reg → Nat → m (List (BitVec 8))
  /-- `get_core(i)->get_mmu()->load` -/
  core : Nat → Reg → Nat → m (List (BitVec 8))
  stop : (α : Type) → Stop → m α

namespace Console

variable {δ ι : Type} (con : Console δ)

/-- The load of `debug_mmu`, which translates nothing and finds no triggers. -/
def debugLoad (addr : Reg) (len : Nat) : Exec Stop (Simulator δ ι) (List (BitVec 8)) := fun m =>
  if con.bus.isMem addr then .ok (readBytes m.world.mem addr len) m
  else
    match mmioLoad (con.busAt m.harts) true m.wired.dev addr len with
    | (some bytes, dev) => .ok bytes (m.rewired { m.wired with dev := dev })
    | (none, dev) => .error (.trap (accessFault .load false addr))
      (m.rewired { m.wired with dev := dev })

/-- The load of a processor. -/
def coreLoad (i : Nat) (addr : Reg) (len : Nat) : Exec Stop (Simulator δ ι) (List (BitVec 8)) :=
  fun m =>
  match m.procs[i]? with
  -- `get_core` has looked
  | none => .error .abort m
  | some p =>
    match HartMmu.load p.cfg (con.busAt m.harts) addr len (p.cpu, m.wired) with
    | .ok bytes s => .ok bytes ((m.withCpu i s.1).rewired s.2)
    | .error e s => .error e ((m.withCpu i s.1).rewired s.2)

/-- Memory as the simulator has it. -/
def access : MemoryAccess (Exec Stop (Simulator δ ι)) where
  debug := con.debugLoad
  core := con.coreLoad
  stop := fun _ e => throw e

end Console

/-! ### Commands -/

/-- `xpr_name` -/
def xprName : List String :=
  ["zero", "ra", "sp", "gp", "tp", "t0", "t1", "t2", "s0", "s1", "a0", "a1", "a2", "a3", "a4", "a5",
   "a6", "a7", "s2", "s3", "s4", "s5", "s6", "s7", "s8", "s9", "s10", "s11", "t3", "t4", "t5", "t6"]

/-- The names and numbers of `DECLARE_CSR`. -/
def csrNames : List (String × Nat) :=
  [("fflags", 0x1), ("frm", 0x2), ("fcsr", 0x3), ("vstart", 0x8), ("vxsat", 0x9),
    ("vxrm", 0xa), ("vcsr", 0xf),
   ("seed", 0x15), ("jvt", 0x17), ("cycle", 0xc00), ("time", 0xc01), ("instret", 0xc02),
   ("hpmcounter3", 0xc03),
   ("hpmcounter4", 0xc04), ("hpmcounter5", 0xc05), ("hpmcounter6", 0xc06), ("hpmcounter7", 0xc07),
   ("hpmcounter8", 0xc08), ("hpmcounter9", 0xc09), ("hpmcounter10", 0xc0a), ("hpmcounter11", 0xc0b),
   ("hpmcounter12", 0xc0c), ("hpmcounter13", 0xc0d), ("hpmcounter14", 0xc0e),
   ("hpmcounter15", 0xc0f),
   ("hpmcounter16", 0xc10), ("hpmcounter17", 0xc11), ("hpmcounter18", 0xc12),
   ("hpmcounter19", 0xc13),
   ("hpmcounter20", 0xc14), ("hpmcounter21", 0xc15), ("hpmcounter22", 0xc16),
   ("hpmcounter23", 0xc17),
   ("hpmcounter24", 0xc18), ("hpmcounter25", 0xc19), ("hpmcounter26", 0xc1a),
   ("hpmcounter27", 0xc1b),
   ("hpmcounter28", 0xc1c), ("hpmcounter29", 0xc1d), ("hpmcounter30", 0xc1e),
   ("hpmcounter31", 0xc1f), ("vl", 0xc20),
   ("vtype", 0xc21), ("vlenb", 0xc22), ("sstatus", 0x100), ("sedeleg", 0x102),
   ("sideleg", 0x103), ("sie", 0x104),
   ("stvec", 0x105), ("scounteren", 0x106), ("senvcfg", 0x10a), ("sstateen0", 0x10c),
   ("sstateen1", 0x10d),
   ("sstateen2", 0x10e), ("sstateen3", 0x10f), ("sscratch", 0x140), ("sepc", 0x141),
   ("scause", 0x142),
   ("stval", 0x143), ("sip", 0x144), ("stimecmp", 0x14d), ("siselect", 0x150),
   ("sireg", 0x151), ("stopei", 0x15c),
   ("satp", 0x180), ("scontext", 0x5a8), ("vsstatus", 0x200), ("vsie", 0x204), ("vstvec", 0x205),
   ("vsscratch", 0x240), ("vsepc", 0x241), ("vscause", 0x242), ("vstval", 0x243), ("vsip", 0x244),
   ("vstimecmp", 0x24d), ("vsiselect", 0x250), ("vsireg", 0x251), ("vstopei", 0x25c),
   ("vsatp", 0x280),
   ("hstatus", 0x600), ("hedeleg", 0x602), ("hideleg", 0x603), ("hie", 0x604),
   ("htimedelta", 0x605),
   ("hcounteren", 0x606), ("hgeie", 0x607), ("hvien", 0x608), ("hvictl", 0x609), ("henvcfg", 0x60a),
   ("hstateen0", 0x60c), ("hstateen1", 0x60d), ("hstateen2", 0x60e), ("hstateen3", 0x60f),
   ("htval", 0x643),
   ("hip", 0x644), ("hvip", 0x645), ("hviprio1", 0x646), ("hviprio2", 0x647),
   ("htinst", 0x64a), ("hgatp", 0x680),
   ("hcontext", 0x6a8), ("hgeip", 0xe12), ("vstopi", 0xeb0), ("scountovf", 0xda0),
   ("stopi", 0xdb0), ("utvt", 0x7),
   ("unxti", 0x45), ("uintstatus", 0x46), ("uscratchcsw", 0x48), ("uscratchcswl", 0x49),
   ("stvt", 0x107),
   ("snxti", 0x145), ("sintstatus", 0x146), ("sscratchcsw", 0x148), ("sscratchcswl", 0x149),
   ("mtvt", 0x307),
   ("mnxti", 0x345), ("mintstatus", 0x346), ("mscratchcsw", 0x348), ("mscratchcswl", 0x349),
   ("mstatus", 0x300),
   ("misa", 0x301), ("medeleg", 0x302), ("mideleg", 0x303), ("mie", 0x304),
   ("mtvec", 0x305), ("mcounteren", 0x306),
   ("mvien", 0x308), ("mvip", 0x309), ("menvcfg", 0x30a), ("mstateen0", 0x30c),
   ("mstateen1", 0x30d),
   ("mstateen2", 0x30e), ("mstateen3", 0x30f), ("mcountinhibit", 0x320),
   ("mscratch", 0x340), ("mepc", 0x341),
   ("mcause", 0x342), ("mtval", 0x343), ("mip", 0x344), ("mtinst", 0x34a),
   ("mtval2", 0x34b), ("miselect", 0x350),
   ("mireg", 0x351), ("mtopei", 0x35c), ("pmpcfg0", 0x3a0), ("pmpcfg1", 0x3a1), ("pmpcfg2", 0x3a2),
   ("pmpcfg3", 0x3a3), ("pmpcfg4", 0x3a4), ("pmpcfg5", 0x3a5), ("pmpcfg6", 0x3a6),
   ("pmpcfg7", 0x3a7),
   ("pmpcfg8", 0x3a8), ("pmpcfg9", 0x3a9), ("pmpcfg10", 0x3aa), ("pmpcfg11", 0x3ab),
   ("pmpcfg12", 0x3ac),
   ("pmpcfg13", 0x3ad), ("pmpcfg14", 0x3ae), ("pmpcfg15", 0x3af), ("pmpaddr0", 0x3b0),
   ("pmpaddr1", 0x3b1),
   ("pmpaddr2", 0x3b2), ("pmpaddr3", 0x3b3), ("pmpaddr4", 0x3b4), ("pmpaddr5", 0x3b5),
   ("pmpaddr6", 0x3b6),
   ("pmpaddr7", 0x3b7), ("pmpaddr8", 0x3b8), ("pmpaddr9", 0x3b9), ("pmpaddr10", 0x3ba),
   ("pmpaddr11", 0x3bb),
   ("pmpaddr12", 0x3bc), ("pmpaddr13", 0x3bd), ("pmpaddr14", 0x3be), ("pmpaddr15", 0x3bf),
   ("pmpaddr16", 0x3c0),
   ("pmpaddr17", 0x3c1), ("pmpaddr18", 0x3c2), ("pmpaddr19", 0x3c3), ("pmpaddr20", 0x3c4),
   ("pmpaddr21", 0x3c5),
   ("pmpaddr22", 0x3c6), ("pmpaddr23", 0x3c7), ("pmpaddr24", 0x3c8), ("pmpaddr25", 0x3c9),
   ("pmpaddr26", 0x3ca),
   ("pmpaddr27", 0x3cb), ("pmpaddr28", 0x3cc), ("pmpaddr29", 0x3cd), ("pmpaddr30", 0x3ce),
   ("pmpaddr31", 0x3cf),
   ("pmpaddr32", 0x3d0), ("pmpaddr33", 0x3d1), ("pmpaddr34", 0x3d2), ("pmpaddr35", 0x3d3),
   ("pmpaddr36", 0x3d4),
   ("pmpaddr37", 0x3d5), ("pmpaddr38", 0x3d6), ("pmpaddr39", 0x3d7), ("pmpaddr40", 0x3d8),
   ("pmpaddr41", 0x3d9),
   ("pmpaddr42", 0x3da), ("pmpaddr43", 0x3db), ("pmpaddr44", 0x3dc), ("pmpaddr45", 0x3dd),
   ("pmpaddr46", 0x3de),
   ("pmpaddr47", 0x3df), ("pmpaddr48", 0x3e0), ("pmpaddr49", 0x3e1), ("pmpaddr50", 0x3e2),
   ("pmpaddr51", 0x3e3),
   ("pmpaddr52", 0x3e4), ("pmpaddr53", 0x3e5), ("pmpaddr54", 0x3e6), ("pmpaddr55", 0x3e7),
   ("pmpaddr56", 0x3e8),
   ("pmpaddr57", 0x3e9), ("pmpaddr58", 0x3ea), ("pmpaddr59", 0x3eb), ("pmpaddr60", 0x3ec),
   ("pmpaddr61", 0x3ed),
   ("pmpaddr62", 0x3ee), ("pmpaddr63", 0x3ef), ("mseccfg", 0x747), ("tselect", 0x7a0),
   ("tdata1", 0x7a1),
   ("tdata2", 0x7a2), ("tdata3", 0x7a3), ("tinfo", 0x7a4), ("tcontrol", 0x7a5), ("mcontext", 0x7a8),
   ("mscontext", 0x7aa), ("dcsr", 0x7b0), ("dpc", 0x7b1), ("dscratch0", 0x7b2),
   ("dscratch1", 0x7b3),
   ("mcycle", 0xb00), ("minstret", 0xb02), ("mhpmcounter3", 0xb03), ("mhpmcounter4", 0xb04),
   ("mhpmcounter5", 0xb05),
   ("mhpmcounter6", 0xb06), ("mhpmcounter7", 0xb07), ("mhpmcounter8", 0xb08),
   ("mhpmcounter9", 0xb09),
   ("mhpmcounter10", 0xb0a), ("mhpmcounter11", 0xb0b), ("mhpmcounter12", 0xb0c),
   ("mhpmcounter13", 0xb0d),
   ("mhpmcounter14", 0xb0e), ("mhpmcounter15", 0xb0f), ("mhpmcounter16", 0xb10),
   ("mhpmcounter17", 0xb11),
   ("mhpmcounter18", 0xb12), ("mhpmcounter19", 0xb13), ("mhpmcounter20", 0xb14),
   ("mhpmcounter21", 0xb15),
   ("mhpmcounter22", 0xb16), ("mhpmcounter23", 0xb17), ("mhpmcounter24", 0xb18),
   ("mhpmcounter25", 0xb19),
   ("mhpmcounter26", 0xb1a), ("mhpmcounter27", 0xb1b), ("mhpmcounter28", 0xb1c),
   ("mhpmcounter29", 0xb1d),
   ("mhpmcounter30", 0xb1e), ("mhpmcounter31", 0xb1f), ("mhpmevent3", 0x323), ("mhpmevent4", 0x324),
   ("mhpmevent5", 0x325), ("mhpmevent6", 0x326), ("mhpmevent7", 0x327),
   ("mhpmevent8", 0x328), ("mhpmevent9", 0x329),
   ("mhpmevent10", 0x32a), ("mhpmevent11", 0x32b), ("mhpmevent12", 0x32c), ("mhpmevent13", 0x32d),
   ("mhpmevent14", 0x32e), ("mhpmevent15", 0x32f), ("mhpmevent16", 0x330), ("mhpmevent17", 0x331),
   ("mhpmevent18", 0x332), ("mhpmevent19", 0x333), ("mhpmevent20", 0x334), ("mhpmevent21", 0x335),
   ("mhpmevent22", 0x336), ("mhpmevent23", 0x337), ("mhpmevent24", 0x338), ("mhpmevent25", 0x339),
   ("mhpmevent26", 0x33a), ("mhpmevent27", 0x33b), ("mhpmevent28", 0x33c), ("mhpmevent29", 0x33d),
   ("mhpmevent30", 0x33e), ("mhpmevent31", 0x33f), ("mvendorid", 0xf11),
   ("marchid", 0xf12), ("mimpid", 0xf13),
   ("mhartid", 0xf14), ("mconfigptr", 0xf15), ("mtopi", 0xfb0), ("sieh", 0x114), ("siph", 0x154),
   ("stimecmph", 0x15d), ("vsieh", 0x214), ("vsiph", 0x254), ("vstimecmph", 0x25d),
   ("htimedeltah", 0x615),
   ("hidelegh", 0x613), ("hvienh", 0x618), ("henvcfgh", 0x61a), ("hviph", 0x655),
   ("hviprio1h", 0x656),
   ("hviprio2h", 0x657), ("hstateen0h", 0x61c), ("hstateen1h", 0x61d),
   ("hstateen2h", 0x61e), ("hstateen3h", 0x61f),
   ("cycleh", 0xc80), ("timeh", 0xc81), ("instreth", 0xc82), ("hpmcounter3h", 0xc83),
   ("hpmcounter4h", 0xc84),
   ("hpmcounter5h", 0xc85), ("hpmcounter6h", 0xc86), ("hpmcounter7h", 0xc87),
   ("hpmcounter8h", 0xc88),
   ("hpmcounter9h", 0xc89), ("hpmcounter10h", 0xc8a), ("hpmcounter11h", 0xc8b),
   ("hpmcounter12h", 0xc8c),
   ("hpmcounter13h", 0xc8d), ("hpmcounter14h", 0xc8e), ("hpmcounter15h", 0xc8f),
   ("hpmcounter16h", 0xc90),
   ("hpmcounter17h", 0xc91), ("hpmcounter18h", 0xc92), ("hpmcounter19h", 0xc93),
   ("hpmcounter20h", 0xc94),
   ("hpmcounter21h", 0xc95), ("hpmcounter22h", 0xc96), ("hpmcounter23h", 0xc97),
   ("hpmcounter24h", 0xc98),
   ("hpmcounter25h", 0xc99), ("hpmcounter26h", 0xc9a), ("hpmcounter27h", 0xc9b),
   ("hpmcounter28h", 0xc9c),
   ("hpmcounter29h", 0xc9d), ("hpmcounter30h", 0xc9e), ("hpmcounter31h", 0xc9f),
   ("mstatush", 0x310),
   ("midelegh", 0x313), ("mieh", 0x314), ("mvienh", 0x318), ("mviph", 0x319), ("menvcfgh", 0x31a),
   ("mstateen0h", 0x31c), ("mstateen1h", 0x31d), ("mstateen2h", 0x31e),
   ("mstateen3h", 0x31f), ("miph", 0x354),
   ("mhpmevent3h", 0x723), ("mhpmevent4h", 0x724), ("mhpmevent5h", 0x725), ("mhpmevent6h", 0x726),
   ("mhpmevent7h", 0x727), ("mhpmevent8h", 0x728), ("mhpmevent9h", 0x729), ("mhpmevent10h", 0x72a),
   ("mhpmevent11h", 0x72b), ("mhpmevent12h", 0x72c), ("mhpmevent13h", 0x72d),
   ("mhpmevent14h", 0x72e),
   ("mhpmevent15h", 0x72f), ("mhpmevent16h", 0x730), ("mhpmevent17h", 0x731),
   ("mhpmevent18h", 0x732),
   ("mhpmevent19h", 0x733), ("mhpmevent20h", 0x734), ("mhpmevent21h", 0x735),
   ("mhpmevent22h", 0x736),
   ("mhpmevent23h", 0x737), ("mhpmevent24h", 0x738), ("mhpmevent25h", 0x739),
   ("mhpmevent26h", 0x73a),
   ("mhpmevent27h", 0x73b), ("mhpmevent28h", 0x73c), ("mhpmevent29h", 0x73d),
   ("mhpmevent30h", 0x73e),
   ("mhpmevent31h", 0x73f), ("mnscratch", 0x740), ("mnepc", 0x741), ("mncause", 0x742),
   ("mnstatus", 0x744),
   ("mseccfgh", 0x757), ("mcycleh", 0xb80), ("minstreth", 0xb82), ("mhpmcounter3h", 0xb83),
   ("mhpmcounter4h", 0xb84),
   ("mhpmcounter5h", 0xb85), ("mhpmcounter6h", 0xb86), ("mhpmcounter7h", 0xb87),
   ("mhpmcounter8h", 0xb88),
   ("mhpmcounter9h", 0xb89), ("mhpmcounter10h", 0xb8a), ("mhpmcounter11h", 0xb8b),
   ("mhpmcounter12h", 0xb8c),
   ("mhpmcounter13h", 0xb8d), ("mhpmcounter14h", 0xb8e), ("mhpmcounter15h", 0xb8f),
   ("mhpmcounter16h", 0xb90),
   ("mhpmcounter17h", 0xb91), ("mhpmcounter18h", 0xb92), ("mhpmcounter19h", 0xb93),
   ("mhpmcounter20h", 0xb94),
   ("mhpmcounter21h", 0xb95), ("mhpmcounter22h", 0xb96), ("mhpmcounter23h", 0xb97),
   ("mhpmcounter24h", 0xb98),
   ("mhpmcounter25h", 0xb99), ("mhpmcounter26h", 0xb9a), ("mhpmcounter27h", 0xb9b),
   ("mhpmcounter28h", 0xb9c),
   ("mhpmcounter29h", 0xb9d), ("mhpmcounter30h", 0xb9e), ("mhpmcounter31h", 0xb9f)]

/-- `trap_interactive` -/
def trapInteractive : Trap where
  cause := -1#64

/-- `trap_illegal_instruction(0)` -/
def trapNoCsr : Trap where
  cause := 2#64

/-- What a command prints. -/
inductive Shown where
  | regs (values : List Reg)
  | word (value : Reg)
  | text (s : String)
  | chars (s : List (BitVec 8))
  /-- nothing is printed: the condition says whether the run goes on -/
  | decided (stop : Bool)

/-- The commands that look at the machine, with their arguments. -/
inductive Inspection where
  | reg (args : List String)
  | pc (args : List String)
  | priv (args : List String)
  | mem (args : List String)
  | str (args : List String)
  | mtime (args : List String)
  | mtimecmp (args : List String)
  /-- the condition of `until`, or of `while` -/
  | condition (cmdUntil : Bool) (args : List String)

namespace Interactive

open CNumber

variable {m : Type → Type} [Monad m] {δ ι : Type} (acc : MemoryAccess m)
  (con : Console δ) (mach : Simulator δ ι)

/-- `throw trap_interactive()` -/
def refuse {α : Type} : m α :=
  acc.stop α (.trap trapInteractive)

/-- `get_core`, the processor and its index. -/
def getCore (i : String) : m (Nat × Processor ι) :=
  let (p, rest) := strtoul 10 (cStr i)
  match mach.procs[p.toNat]? with
  | some proc => if rest = [] then pure (p.toNat, proc) else refuse acc
  | none => refuse acc

/-- `get_pc` -/
def getPc : List String → m Reg
  | [core] => do
    let (_, p) ← getCore acc mach core
    pure p.cpu.hart.pc
  | _ => refuse acc

/-- `get_csr` of a name, which throws where there is no such register. -/
def getCsr (p : Processor ι) (which : Nat) : m Reg :=
  if which = 0x15 then con.seed.elim (acc.stop Reg .abort) pure
  else (p.cpu.hart.peekCsr p.cfg which).elim (acc.stop Reg (.trap trapNoCsr)) pure

/-- `get_reg` -/
def getReg : List String → m Reg
  | [core, name] => do
    let (_, p) ← getCore acc mach core
    let r := xprName.idxOf name
    if r < 32 then pure (p.cpu.rest.xpr r)
    else
      let (r, rest) := strtoul 10 (cStr name)
      if rest = [] then if r.toNat < 32 then pure (p.cpu.rest.xpr r.toNat) else refuse acc
      else (csrNames.lookup name).elim (refuse acc) (getCsr acc con p)
  | _ => refuse acc

/-- The size that `get_mem` loads, which makes the access aligned. -/
def memSize (addr : Reg) : Nat :=
  match addr.toNat % 8 with
  | 0 => 8
  | 4 => 4
  | 2 => 2
  | 6 => 2
  | _ => 1

/-- `get_mem` -/
def getMem : List String → m Reg
  | [a] => do
    let bytes ← acc.debug (hex a) (memSize (hex a))
    pure (fromBytes bytes)
  | [core, a] => do
    let (i, _) ← getCore acc mach core
    let bytes ← acc.core i (hex a) (memSize (hex a))
    pure (fromBytes bytes)
  | _ => refuse acc

/-- The loop of `interactive_str`. It is given as many rounds as there are addresses; if no byte is
0 it never ends. -/
def untilNul (load : Reg → m (List (BitVec 8))) : Nat → Reg → m (List (BitVec 8))
  | 0, _ => acc.stop _ .abort
  | n + 1, addr => do
    let ch ← load addr
    if fromBytes ch = 0#64 then pure []
    else
      let s ← untilNul load n (addr + 1#64)
      pure (ch ++ s)

/-- The number of addresses. -/
def addresses : Nat :=
  2 ^ 64

/-- `interactive_reg` -/
def interactiveReg (args : List String) : m Shown :=
  match args with
  | [] => refuse acc
  | [core] => do
    let (_, p) ← getCore acc mach core
    pure (.regs ((List.range 32).map fun r => p.cfg.isa.xlen.zext (p.cpu.rest.xpr r)))
  | core :: _ => do
    let (_, p) ← getCore acc mach core
    let val ← getReg acc con mach args
    pure (.word (p.cfg.isa.xlen.zext val))

/-- `interactive_pc` -/
def interactivePc (args : List String) : m Shown :=
  match args with
  | [core] => do
    let (_, p) ← getCore acc mach core
    let pc ← getPc acc mach args
    pure (.word (p.cfg.isa.xlen.zext pc))
  | _ => refuse acc

/-- `interactive_priv` -/
def interactivePriv : List String → m Shown
  | [core] => do
    let (_, p) ← getCore acc mach core
    p.cpu.hart.privilegeString.elim (acc.stop Shown .abort) fun s => pure (.text s)
  | _ => refuse acc

/-- `interactive_mem`; there is a first processor. -/
def interactiveMem (args : List String) : m Shown :=
  match mach.procs.head? with
  | none => acc.stop Shown .abort
  | some p => do
    let val ← getMem acc mach args
    pure (.word (p.cfg.isa.xlen.zext val))

/-- `interactive_str` -/
def interactiveStr : List String → m Shown
  | [a] => do
    let s ← untilNul acc (fun addr => acc.debug addr 1) addresses (strtol 16 (cStr a)).1
    pure (.chars s)
  | [core, a] => do
    let (i, _) ← getCore acc mach core
    let s ← untilNul acc (fun addr => acc.core i addr 1) addresses (strtol 16 (cStr a)).1
    pure (.chars s)
  | _ => refuse acc

/-- `interactive_mtime` -/
def interactiveMtime : m Shown :=
  (con.mtime mach.world.dev).elim (acc.stop Shown .abort) fun t => pure (.word t)

/-- `interactive_mtimecmp` -/
def interactiveMtimecmp : List String → m Shown
  | [core] => do
    let (_, p) ← getCore acc mach core
    (con.mtimecmp mach.world.dev p.cfg.id).elim (acc.stop Shown .abort) fun t => pure (.word t)
  | _ => refuse acc

/-- The function that a condition names. -/
def watched : String → Option (List String → m Reg)
  | "reg" => some (getReg acc con mach)
  | "pc" => some (getPc acc mach)
  | "mem" => some (getMem acc mach)
  | _ => none

/-- Three arguments are checked for a core, more are not. -/
def checkCore (core : String) (more : List String) : m Unit :=
  if more = [] then getCore acc mach core >>= fun _ => pure () else pure ()

/-- The condition of `interactive_until`, up to the comparison: does the run stop? A trap of the
function it names does not leave `interactive_until`, and the run goes on. -/
def interactiveUntil (cmdUntil : Bool) (args : List String) : m Shown :=
  match args with
  | what :: core :: third :: more => do
    checkCore acc mach core more
    let last := more.getLast?.getD third
    if (scan 16 (cStr last)).isNone then refuse acc
    else
      match mach.procs[(strtol 10 (cStr core)).1.toNat]? with
      -- behind the end of `procs`
      | none => acc.stop Shown .abort
      | some p =>
        match watched acc con mach what with
        | none => refuse acc
        | some func => do
          let current ← func ((core :: third :: more).dropLast)
          pure (.decided
            (cmdUntil == (p.cfg.isa.xlen.zext current == p.cfg.isa.xlen.zext (hex last))))
  | _ => refuse acc

/-- A command. -/
def command : Inspection → m Shown
  | .reg args => interactiveReg acc con mach args
  | .pc args => interactivePc acc mach args
  | .priv args => interactivePriv acc mach args
  | .mem args => interactiveMem acc mach args
  | .str args => interactiveStr acc mach args
  | .mtime _ => interactiveMtime acc con mach
  | .mtimecmp args => interactiveMtimecmp acc con mach args
  | .condition cmdUntil args => interactiveUntil acc con mach cmdUntil args

end Interactive

/-! ### The command loop -/

namespace Simulator

variable {δ ι : Type} (con : Console δ) (m : Simulator δ ι)

/-- A command runs. -/
def inspect (cmd : Inspection) : EStateM.Result Stop (Simulator δ ι) Shown :=
  Interactive.command con.access con m cmd m

/-- The command loop catches a `trap_t`. Nothing catches anything else, and the simulator ends. -/
def inspected (cmd : Inspection) : Option (Simulator δ ι) :=
  match m.inspect con cmd with
  | .ok _ m' => some m'
  | .error (.trap _) m' => some m'
  | .error _ _ => none

end Simulator

end Nnemu

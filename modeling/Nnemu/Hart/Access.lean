import Nnemu.Hart.Csr
import Nnemu.Trigger.Read

/-!
# The CSR map

What `csrmap` holds at each address, and `get_csr` and `put_csr` on it. An entry is an object that
holds a value or a view of such objects: a virtualized pair, one half of a register on RV32, a
masked and shifted window into `mip` or `mie`, a proxy. Every view writes through `Hart.write` or
`Hart.writeWithMask`, which `Hart.Writes` of the next file makes precise.
-/

namespace Nnemu

/-- Which delegation register masks the bits a `generic_int_accessor_t` shows. -/
inductive MaskMode where
  | none
  | mideleg
  | hideleg
deriving DecidableEq

/-- `generic_int_accessor_t` -/
structure IntAccessor where
  readMask : Reg
  ipWriteMask : Reg
  ieWriteMask : Reg
  maskMode : MaskMode
  shiftamt : Nat

/-- `sip_sie_accr` -/
def sipSieAccr : IntAccessor := ⟨~~~mipHsMask, mipSsip ||| mipLcofip, ~~~mipHsMask, .mideleg, 0⟩
/-- `hip_hie_accr` -/
def hipHieAccr : IntAccessor := ⟨mipHsMask, mipVssip, mipHsMask, .mideleg, 0⟩
/-- `hvip_accr` -/
def hvipAccr : IntAccessor := ⟨mipVsMask, mipVsMask, mipVsMask, .none, 0⟩
/-- `vsip_vsie_accr` -/
def vsipVsieAccr : IntAccessor := ⟨mipVsMask, mipVssip, mipVsMask, .hideleg, 1⟩

/-- An entry of `csrmap`. -/
inductive CsrObj where
  /-- an object that holds a value -/
  | plain (c : Csr)
  /-- `const_csr_t` -/
  | const (address : Nat) (val : Reg)
  | sstatusProxy
  | mipProxy (address : Nat) (accr : IntAccessor)
  | mieProxy (address : Nat) (accr : IntAccessor)
  | dcsr
  | tdata1
  | tdata2
  | tdata3
  | tinfo
  | pmpaddr (i : Nat)
  /-- by the distance of its address from `CSR_PMPCFG0` -/
  | pmpcfg (n : Nat)
  | mseccfg
  | scountovf
  | virtualized (orig virt : CsrObj)
  | virtualizedSatp
  | virtualizedStimecmp
  | rv32Low (orig : CsrObj)
  | rv32High (orig : CsrObj)
  | counterProxy (address : Nat) (delegate : CsrObj)
  /-- `mcontext` -/
  | proxy (address : Nat) (delegate : CsrObj)
  | composite (upper lower : CsrObj) (upper_lsb : Nat)

/-- The address an object is constructed with. -/
def Csr.address : Csr → Nat
  | misa => 0x301 | mstatus => 0x300 | mepc => 0x341 | mtval => 0x343 | mscratch => 0x340
  | mtvec => 0x305 | mcause => 0x342 | minstret => 0xb02 | mcycle => 0xb00 | time => 0xc01
  | mevent i => 0x323 + i
  | mie => 0x304 | mip => 0x344 | medeleg => 0x302 | mideleg => 0x303
  | mcounteren => 0x306 | scounteren => 0x106
  | sepc => 0x141 | vsepc => 0x241 | stval => 0x143 | vstval => 0x243
  | sscratch => 0x140 | vsscratch => 0x240 | stvec => 0x105 | vstvec => 0x205
  | satp => 0x180 | vsatp => 0x280 | scause => 0x142 | vscause => 0x242 | vsstatus => 0x200
  | mtval2 => 0x34b | mtinst => 0x34a | hstatus => 0x600 | hideleg => 0x603 | hedeleg => 0x602
  | hcounteren => 0x606 | htimedelta => 0x605 | htval => 0x643 | htinst => 0x64a | hgatp => 0x680
  | dpc => 0x7b1 | dscratch0 => 0x7b2 | dscratch1 => 0x7b3 | tselect => 0x7a0
  | scontext => 0x5a8 | hcontext => 0x6a8
  | menvcfg => 0x30a | senvcfg => 0x10a | henvcfg => 0x60a
  | mstateen i => 0x30c + i | hstateen i => 0x60c + i
  -- `sstateen_csr_t` is constructed with the address of `hstateen`
  | sstateen i => 0x60c + i
  | mnscratch => 0x740 | mnepc => 0x741 | mnstatus => 0x744
  | stimecmp => 0x14d | vstimecmp => 0x24d | jvt => 0x17
  | fflags => 0x1 | frm => 0x2 | vxsat => 0x9 | vstart => 0x8 | vxrm => 0xa
  | vl => 0xc20 | vtype => 0xc21 | vlenb => 0xc22

/-! ### The map -/

section Map

variable (cfg : Config)

open CsrObj

/-- A 64-bit object at one address on RV64 and in two halves on RV32. -/
def wideEntries (low high : Nat) (obj : CsrObj) : List (Nat × CsrObj) :=
  match cfg.isa.xlen with
  | .rv32 => [(low, rv32Low obj), (high, rv32High obj)]
  | .rv64 => [(low, obj)]

/-- Entries that exist under a condition. -/
def entriesIf (b : Bool) (entries : List (Nat × CsrObj)) : List (Nat × CsrObj) :=
  if b then entries else []

/-- A virtualized pair at the address of the first and the second object at its own. -/
def virtualizedEntries (c c' : Csr) : List (Nat × CsrObj) :=
  [(c'.address, plain c'), (c.address, virtualized (plain c) (plain c'))]

/-- An object at its own address. -/
def plainEntry (c : Csr) : Nat × CsrObj :=
  (c.address, plain c)

/-- The counters and their unprivileged proxies. -/
def counterEntries : List (Nat × CsrObj) :=
  entriesIf (cfg.isa.table .zicntr)
    [(0xc02, counterProxy 0xc02 (plain .minstret)), (0xc00, counterProxy 0xc00 (plain .mcycle)),
      (0xc01, counterProxy 0xc01 (plain .time))] ++
    wideEntries cfg 0xb02 0xb82 (plain .minstret) ++
    wideEntries cfg 0xb00 0xb80 (plain .mcycle) ++
    entriesIf (cfg.isa.table .zicntr && cfg.isa.xlen == .rv32)
      [(0xc82, counterProxy 0xc82 (rv32High (plain .minstret))),
        (0xc80, counterProxy 0xc80 (rv32High (plain .mcycle))),
        (0xc81, counterProxy 0xc81 (rv32High (plain .time)))]

/-- The entries of one hardware performance counter. -/
def hpmEntries (i : Fin 29) : List (Nat × CsrObj) :=
  let rv32 := cfg.isa.xlen == .rv32
  [(0xb03 + i.val, const (0xb03 + i) 0#64)] ++
    entriesIf (cfg.isa.table .zihpm)
      [(0xc03 + i.val, counterProxy (0xc03 + i) (const (0xb03 + i) 0#64))] ++
    entriesIf rv32 [(0xb83 + i.val, const (0xb83 + i) 0#64)] ++
    entriesIf (rv32 && cfg.isa.table .zihpm)
      [(0xc83 + i.val, counterProxy (0xc83 + i) (const (0xb83 + i) 0#64))] ++
    (match cfg.isa.xlen with
      | .rv32 =>
        (0x323 + i.val, rv32Low (plain (.mevent i))) ::
          entriesIf (cfg.isa.table .sscofpmf) [(0x723 + i.val, rv32High (plain (.mevent i)))]
      | .rv64 => [(0x323 + i.val, plain (.mevent i))])

/-- The views of `mip` and `mie`. -/
def interruptEntries : List (Nat × CsrObj) :=
  [(0x304, plain .mie), (0x344, plain .mip),
    (0x244, mipProxy 0x244 vsipVsieAccr),
    (0x144, virtualized (mipProxy 0x144 sipSieAccr) (mipProxy 0x244 vsipVsieAccr)),
    (0x644, mipProxy 0x644 hipHieAccr), (0x645, mipProxy 0x645 hvipAccr),
    (0x204, mieProxy 0x204 vsipVsieAccr),
    (0x104, virtualized (mieProxy 0x104 sipSieAccr) (mieProxy 0x204 vsipVsieAccr)),
    (0x604, mieProxy 0x604 hipHieAccr)]

/-- The supervisor and hypervisor registers. -/
def supervisorEntries : List (Nat × CsrObj) :=
  [plainEntry .medeleg, plainEntry .mideleg, plainEntry .scounteren] ++
    entriesIf (cfg.isa.table .u) [plainEntry .mcounteren] ++
    virtualizedEntries .sepc .vsepc ++ virtualizedEntries .stval .vstval ++
    virtualizedEntries .sscratch .vsscratch ++ virtualizedEntries .stvec .vstvec ++
    virtualizedEntries .scause .vscause ++
    [plainEntry .vsatp, (0x180, virtualizedSatp), plainEntry .mtval2, plainEntry .mtinst,
      plainEntry .hstatus, (0x607, const 0x607 0#64), (0xe12, const 0xe12 0#64),
      plainEntry .hideleg,
      plainEntry .hedeleg, plainEntry .hcounteren] ++
    wideEntries cfg 0x605 0x615 (plain .htimedelta) ++
    [plainEntry .htval, plainEntry .htinst, plainEntry .hgatp, plainEntry .vsstatus,
      (0x100, virtualized sstatusProxy (plain .vsstatus))]

/-- Debug and trigger registers. -/
def debugEntries : List (Nat × CsrObj) :=
  [plainEntry .dpc, plainEntry .dscratch0, plainEntry .dscratch1, (0x7b0, dcsr),
    plainEntry .tselect] ++
    (if 0 < cfg.triggerCount then
      [(0x7a1, tdata1), (0x7a2, tdata2), (0x7a3, tdata3), (0x7a4, tinfo)]
    else
      [(0x7a1, const 0x7a1 0#64), (0x7a2, const 0x7a2 0#64), (0x7a3, const 0x7a3 0#64),
        (0x7a4, const 0x7a4 0#64)]) ++
    [plainEntry .scontext, plainEntry .hcontext, (0x7a8, proxy 0x7a8 (plain .hcontext))]

/-- The protection unit. -/
def pmpEntries : List (Nat × CsrObj) :=
  (0x747, mseccfg) ::
    ((List.range maxPmp).map (fun i => (0x3b0 + i, pmpaddr i)) ++
      (List.range (maxPmp / (cfg.isa.xlen.bits / 8))).map fun k =>
        (0x3a0 + k * (cfg.isa.xlen.bits / 8) / 4, pmpcfg (k * (cfg.isa.xlen.bits / 8) / 4)))

/-- The registers of optional extensions. -/
def extensionEntries : List (Nat × CsrObj) :=
  entriesIf (cfg.isa.table .u)
    (wideEntries cfg 0x30a 0x31a (plain .menvcfg) ++ [plainEntry .senvcfg] ++
      wideEntries cfg 0x60a 0x61a (plain .henvcfg)) ++
    entriesIf (cfg.isa.table .smstateen)
      ((List.finRange 4).flatMap fun (i : Fin 4) =>
        wideEntries cfg (0x30c + i.val) (0x31c + i.val) (plain (.mstateen i)) ++
          wideEntries cfg (0x60c + i.val) (0x61c + i.val) (plain (.hstateen i)) ++
          [(0x10c + i.val, plain (.sstateen i))]) ++
    entriesIf (cfg.isa.table .smrnmi)
      [plainEntry .mnscratch, plainEntry .mnepc,
        (0x742, const 0x742 (1#64 <<< (cfg.isa.xlen.bits - 1))), plainEntry .mnstatus] ++
    entriesIf (cfg.isa.table .sstc)
      (wideEntries cfg 0x14d 0x15d virtualizedStimecmp ++
        wideEntries cfg 0x24d 0x25d (plain .vstimecmp)) ++
    entriesIf (cfg.isa.table .zcmt) [plainEntry .jvt]

/-- Floating point, vectors and the identification registers. -/
def unprivilegedEntries : List (Nat × CsrObj) :=
  [plainEntry .fflags, plainEntry .frm, (0x3, composite (plain .frm) (plain .fflags) 5),
    plainEntry .vxsat, plainEntry .vstart, plainEntry .vxrm, plainEntry .vl, plainEntry .vtype,
    plainEntry .vlenb, (0xf, composite (plain .vxrm) (plain .vxsat) 1),
    (0xf12, const 0xf12 26010003#64), (0xf13, const 0xf13 0#64), (0xf11, const 0xf11 0x79737978#64),
    (0xf14, const 0xf14 cfg.id), (0xf15, const 0xf15 0#64)]

/-- `csrmap`, without the entropy source `seed`. -/
def csrmap : List (Nat × CsrObj) :=
  [plainEntry .misa] ++ wideEntries cfg 0x300 0x310 (plain .mstatus) ++
    [plainEntry .mepc, plainEntry .mtval, plainEntry .mscratch, plainEntry .mtvec,
      plainEntry .mcause] ++
    supervisorEntries cfg ++ interruptEntries ++ counterEntries cfg ++ extensionEntries cfg ++
    debugEntries cfg ++ unprivilegedEntries cfg ++ (List.finRange 29).flatMap (hpmEntries cfg) ++
    [(0x320, const 0x320 0#64)] ++ entriesIf (cfg.isa.table .sscofpmf) [(0xda0, scountovf)] ++
    pmpEntries cfg

/-- `csrmap.find(which)` -/
def csrFind (which : Nat) : Option CsrObj :=
  (csrmap cfg).lookup which

/-- On RV32 the address of `mstatus` holds its lower half. -/
theorem csrFind_mstatus :
    csrFind cfg 0x300 = some (match cfg.isa.xlen with
      | .rv32 => rv32Low (plain .mstatus)
      | .rv64 => plain .mstatus) := by
  rw [csrFind, csrmap]
  simp only [List.append_assoc, List.singleton_append, plainEntry, Csr.address]
  rw [wideEntries]
  cases cfg.isa.xlen with
  | rv32 => rfl
  | rv64 => rfl

end Map

/-! ### Reading -/

namespace Hart

variable (cfg : Config) (h : Hart)

/-- `generic_int_accessor_t::deleg_mask` -/
def delegMask (accr : IntAccessor) : Reg :=
  match accr.maskMode with
  | .none => ~~~0#64
  | .mideleg => h.midelegRead
  | .hideleg => h.hidelegRead

/-- `generic_int_accessor_t::ip_read` -/
def ipRead (accr : IntAccessor) : Reg :=
  (h.reg .mip &&& h.delegMask accr &&& accr.readMask) >>> accr.shiftamt

/-- `generic_int_accessor_t::ie_read` -/
def ieRead (accr : IntAccessor) : Reg :=
  (h.reg .mie &&& h.delegMask accr &&& accr.readMask) >>> accr.shiftamt

/-- `generic_int_accessor_t::ip_write` -/
def ipWrite (accr : IntAccessor) (val : Reg) : Hart :=
  h.writeWithMask .mip (h.delegMask accr &&& accr.ipWriteMask) (val <<< accr.shiftamt)

/-- `generic_int_accessor_t::ie_write` -/
def ieWrite (accr : IntAccessor) (val : Reg) : Hart :=
  h.writeWithMask .mie (h.delegMask accr &&& accr.ieWriteMask) (val <<< accr.shiftamt)

/-- `dcsr_csr_t::read` -/
def dcsrRead : Reg :=
  let flag (b : Bool) (mask : Reg) : Reg := if b then mask else 0#64
  0x40000000#64 ||| flag h.dcsr.ebreakm 0x8000#64 ||| flag h.dcsr.ebreakh 0x4000#64 |||
    flag h.dcsr.ebreaks 0x2000#64 ||| flag h.dcsr.ebreaku 0x1000#64 |||
    ((h.dcsr.cause <<< 6) &&& 0x1c0#64) ||| flag h.dcsr.step 0x4#64 ||| (h.dcsr.prv &&& 3#64)

/-- `pmpcfg_csr_t::read` -/
def pmpcfgRead (n : Nat) : Reg :=
  (List.range (cfg.isa.xlen.bits / 8)).foldl
    (fun res k =>
      if 4 * n + k < maxPmp then res ||| ((h.pmp.cfg (4 * n + k)).setWidth 64 <<< (8 * k))
        else res) 0#64

/-- `scountovf_csr_t::read` -/
def scountovfRead : Reg :=
  let val := (List.finRange 29).foldl
    (fun val i => val |||
      (if hasBits (h.reg (.mevent i)) 0x8000000000000000#64 then 1#64 <<< (i.val + 3) else 0#64))
        0#64
  let val := val &&& h.reg .mcounteren
  if h.v then val &&& h.reg .hcounteren else val

/-- `tinfo_csr_t::read`: every trigger supports the same types. -/
def tinfoRead : Reg := 0x807c#64

/-- The method `read` of an entry. -/
def readObj : CsrObj → Reg
  | .plain c => h.read c
  | .const _ val => val
  | .sstatusProxy => h.sstatusProxyRead cfg
  | .mipProxy _ accr => h.ipRead accr
  | .mieProxy _ accr => h.ieRead accr
  | .dcsr => h.dcsrRead
  | .tdata1 => h.triggers.tdata1Read (h.triggerEnv cfg) (h.reg .tselect).toNat
  | .tdata2 => h.triggers.tdata2Read (h.reg .tselect).toNat
  | .tdata3 => h.triggers.tdata3Read (h.triggerEnv cfg) (h.reg .tselect).toNat
  | .tinfo => tinfoRead
  | .pmpaddr i => h.pmp.pmpaddrRead i
  | .pmpcfg n => h.pmpcfgRead cfg n
  | .mseccfg => h.pmp.mseccfg
  | .scountovf => h.scountovfRead
  | .virtualized orig virt => if h.v then readObj virt else readObj orig
  | .virtualizedSatp => if h.v then h.read .vsatp else h.read .satp
  | .virtualizedStimecmp => if h.v then h.read .vstimecmp else h.read .stimecmp
  | .rv32Low orig => readObj orig &&& 0xffffffff#64
  | .rv32High orig => (readObj orig >>> 32) &&& 0xffffffff#64
  | .counterProxy _ delegate => readObj delegate
  | .proxy _ delegate => readObj delegate
  | .composite upper lower lsb => (readObj upper <<< lsb) ||| readObj lower

/-- `written_value()` of an entry. -/
def writtenObj : CsrObj → Reg
  | .plain c => h.writtenValue c
  | .rv32Low orig => writtenObj orig &&& 0xffffffff#64
  | .rv32High orig => (writtenObj orig >>> 32) &&& 0xffffffff#64
  | o => h.readObj cfg o

/-! ### Writing -/

/-- `unlogged_write` of an entry. -/
def writeObj (h : Hart) (val : Reg) : CsrObj → Hart
  | .plain c => h.write cfg val c
  | .const _ _ => h
  | .sstatusProxy => h.sstatusProxyWrite cfg val
  | .mipProxy _ accr => h.ipWrite accr val
  | .mieProxy _ accr => h.ieWrite accr val
  | .dcsr => h.dcsrWrite val
  | .tdata1 => h.tdata1Write cfg val
  | .tdata2 => h.tdata2Write cfg val
  | .tdata3 => h.tdata3Write cfg val
  | .tinfo => h
  | .pmpaddr i => h.pmpWrite (h.pmp.pmpaddrWrite i val)
  | .pmpcfg n => h.pmpWrite (h.pmp.pmpcfgWrite cfg.isa.xlen n val)
  | .mseccfg => h.pmpWrite (h.pmp.mseccfgWrite val)
  | .scountovf => h
  | .virtualized orig virt => if h.v then writeObj h val virt else writeObj h val orig
  | .virtualizedSatp =>
    -- if unsupported Mode field: no change to contents
    let newval := if satpValid cfg val then val else h.readObj cfg .virtualizedSatp
    if h.v then h.write cfg newval .vsatp else h.write cfg newval .satp
  | .virtualizedStimecmp => if h.v then h.write cfg val .vstimecmp else h.write cfg val .stimecmp
  | .rv32Low orig =>
    writeObj h ((h.writtenObj cfg orig >>> 32 <<< 32) ||| (val &&& 0xffffffff#64)) orig
  | .rv32High orig =>
    writeObj h ((h.writtenObj cfg orig <<< 32 >>> 32) ||| ((val &&& 0xffffffff#64) <<< 32)) orig
  | .counterProxy _ delegate => writeObj h val delegate
  | .proxy _ delegate => writeObj h val delegate
  | .composite upper lower lsb => writeObj (writeObj h (val >>> lsb) upper) val lower

/-- `processor_t::put_csr` -/
def putCsr (which : Nat) (val : Reg) : Hart :=
  match csrFind cfg which with
  | some o => h.writeObj cfg (cfg.isa.xlen.zext val) o
  | none => h

end Hart

/-! ### Permissions -/

/-- How an access is refused. -/
inductive Refusal where
  /-- `trap_illegal_instruction` -/
  | illegal
  /-- `trap_virtual_instruction` -/
  | virtual
  /-- a missing object is dereferenced -/
  | crash
deriving DecidableEq

namespace Hart

variable (cfg : Config) (h : Hart)

/-- `require(x)` -/
def require (b : Bool) : Except Refusal Unit :=
  if b then .ok () else .error .illegal

/-- Refuse with a virtual-instruction exception if `V = 1`, else with an illegal-instruction one. -/
def refuse {α : Type} : Except Refusal α :=
  .error (if h.v then .virtual else .illegal)

/-- `csr_t::verify_permissions` -/
def verifyBase (address : Nat) (write : Bool) : Except Refusal Unit :=
  let csrPriv := address / 0x100 % 4
  let csrReadOnly : Bool := address / 0x400 % 4 = 3
  let priv := if h.prv = prvS ∧ h.v = false then 2 else h.prv.toNat
  if (csrPriv = 1 ∧ h.extensionEnabled .s = false) ∨
    (csrPriv = 2 ∧ h.extensionEnabled .h = false) then
    .error .illegal
  else if write && csrReadOnly then .error .illegal
  else if priv < csrPriv then
    if h.v ∧ csrPriv ≤ 2 then .error .virtual else .error .illegal
  else .ok ()

/-- A check that needs a bit of a state-enable register in every mode below M, in VS and VU, and in
U. -/
def verifyStateen (bit : Reg) : Except Refusal Unit :=
  if h.prv < prvM ∧ hasBits (h.reg (.mstateen stateen0)) bit = false then .error .illegal
  else if h.v ∧ hasBits (h.hstateenRead stateen0) bit = false then .error .virtual
  else if h.extensionEnabled .s ∧ h.prv < prvS ∧
    hasBits (h.sstateenRead stateen0) bit = false then h.refuse
  else .ok ()

/-- `float_csr_t::verify_permissions` -/
def verifyFloat (address : Nat) (write : Bool) : Except Refusal Unit := do
  h.verifyBase address write
  require (h.sstatusEnabled cfg mstatusFs)
  require (h.extensionEnabled .f || h.extensionEnabled .zfinx)
  if h.extensionEnabled .smstateen && h.extensionEnabled .zfinx then h.verifyStateen 2#64
    else .ok ()

/-- `vector_csr_t::verify_permissions` and that of `vxsat_csr_t`, which differ in the extension. -/
def verifyVector (ext : Bool) (address : Nat) (write : Bool) : Except Refusal Unit := do
  require (h.sstatusEnabled cfg mstatusVs)
  require ext
  h.verifyBase address write

/-- `hstateen_csr_t::verify_permissions` -/
def verifyHstateen (i : Fin 4) (address : Nat) (write : Bool) : Except Refusal Unit := do
  require (!(h.prv < prvM && !hasBits (h.reg (.mstateen i)) 0x8000000000000000#64))
  h.verifyBase address write

/-- `sstateen_csr_t::verify_permissions` -/
def verifySstateen (i : Fin 4) (address : Nat) (write : Bool) : Except Refusal Unit := do
  h.verifyHstateen i address write
  if h.v ∧ hasBits (h.hstateenRead i) 0x8000000000000000#64 = false then .error .virtual else .ok ()

/-- `henvcfg_csr_t::verify_permissions` -/
def verifyHenvcfg (address : Nat) (write : Bool) : Except Refusal Unit := do
  require (!(h.extensionEnabled .smstateen && h.prv < prvM &&
    !hasBits (h.reg (.mstateen stateen0)) 0x4000000000000000#64))
  h.verifyBase address write

/-- `senvcfg_csr_t::verify_permissions` -/
def verifySenvcfg (address : Nat) (write : Bool) : Except Refusal Unit := do
  require (!(h.extensionEnabled .smstateen && h.prv < prvM &&
    !hasBits (h.reg (.mstateen stateen0)) 0x4000000000000000#64))
  if h.extensionEnabled .smstateen ∧ h.v ∧
    hasBits (h.hstateenRead stateen0) 0x4000000000000000#64 = false then
    .error .virtual
  else h.verifyBase address write

/-- `jvt_csr_t::verify_permissions` -/
def verifyJvt (address : Nat) (write : Bool) : Except Refusal Unit := do
  h.verifyBase address write
  require (h.extensionEnabled .zcmt)
  if h.extensionEnabled .smstateen then h.verifyStateen 4#64 else .ok ()

/-- `verify_permissions` of an object that holds a value. -/
def verifyCsr (write : Bool) (c : Csr) : Except Refusal Unit := do
  match c with
  | .medeleg | .mideleg =>
    h.verifyBase c.address write
    require (h.extensionEnabled .s)
  | .mtval2 | .mtinst =>
    h.verifyBase c.address write
    require (h.extensionEnabled .h)
  | .satp =>
    h.verifyBase c.address write
    require (!hasBits (h.reg .mstatus) mstatusTvm || h.prv == prvM)
  | .hgatp =>
    h.verifyBase c.address write
    require (!(!h.v && hasBits (h.reg .mstatus) mstatusTvm) || prvM ≤ h.prv)
  | .dpc | .dscratch0 | .dscratch1 =>
    h.verifyBase c.address write
    require h.debugMode
  | .fflags | .frm => h.verifyFloat cfg c.address write
  | .vxsat => h.verifyVector cfg (h.extensionEnabled .v || h.extensionEnabled .zpn) c.address write
  | .vstart | .vxrm | .vl | .vtype | .vlenb =>
    h.verifyVector cfg (h.extensionEnabled .v) c.address write
  | .hstateen i => h.verifyHstateen i c.address write
  | .sstateen i => h.verifySstateen i c.address write
  | .henvcfg => h.verifyHenvcfg c.address write
  | .senvcfg => h.verifySenvcfg c.address write
  | .jvt => h.verifyJvt c.address write
  | _ => h.verifyBase c.address write

/-- The part of `counter_proxy_csr_t::verify_permissions` behind
`proxy_csr_t::verify_permissions`. -/
def verifyCounter (address : Nat) : Except Refusal Unit :=
  let myenable (c : Csr) : Bool := (h.reg c).getLsbD (address % 32)
  if h.prv < prvM ∧ myenable .mcounteren = false then .error .illegal
  else if h.v ∧ myenable .hcounteren = false then .error .virtual
  else if h.extensionEnabled .s ∧ h.prv < prvS ∧ myenable .scounteren = false then h.refuse
  else .ok ()

/-- The address an entry was constructed with. -/
def objAddress : CsrObj → Nat
  | .plain c => c.address
  | .const address _ => address
  | .sstatusProxy => 0x100
  | .mipProxy address _ => address
  | .mieProxy address _ => address
  | .dcsr => 0x7b0
  | .tdata1 => 0x7a1
  | .tdata2 => 0x7a2
  | .tdata3 => 0x7a3
  | .tinfo => 0x7a4
  | .pmpaddr i => 0x3b0 + i
  | .pmpcfg n => 0x3a0 + n
  | .mseccfg => 0x747
  | .scountovf => 0xda0
  | .virtualized orig _ => objAddress orig
  | .virtualizedSatp => 0x180
  | .virtualizedStimecmp => 0x14d
  | .rv32Low orig => objAddress orig
  | .rv32High orig => objAddress orig
  | .counterProxy address _ => address
  | .proxy address _ => address
  | .composite upper _ _ => objAddress upper

/-- `virtualized_stimecmp_csr_t::verify_permissions`. Without U there is no `menvcfg`, without
Zicntr no `time_proxy`. -/
def verifyStimecmp (write : Bool) : Except Refusal Unit := do
  if cfg.isa.table .u then
    require (!(!hasBits (h.reg .menvcfg) envcfgStce && h.prv < prvM))
  else .error .crash
  if cfg.isa.table .zicntr then
    h.verifyBase 0xc01 false
    h.verifyCounter 0xc01
  else .error .crash
  if h.v ∧ hasBits h.henvcfgRead envcfgStce = false then .error .virtual
  else h.verifyBase 0x14d write

/-- `virtualized_satp_csr_t::verify_permissions` -/
def verifySatp (write : Bool) : Except Refusal Unit := do
  h.verifyBase 0x180 write
  if h.v then
    if hasBits (h.reg .hstatus) hstatusVtvm then .error .virtual else .ok ()
  else h.verifyCsr cfg write .satp

/-- `verify_permissions` of an entry. -/
def verifyObj (write : Bool) : CsrObj → Except Refusal Unit
  | .plain c => h.verifyCsr cfg write c
  | .dcsr => do
    h.verifyBase 0x7b0 write
    require h.debugMode
  | .pmpaddr i => do
    h.verifyBase (0x3b0 + i) write
    require (h.pmp.nPmp != 0)
  | .pmpcfg n => do
    h.verifyBase (0x3a0 + n) write
    require (h.pmp.nPmp != 0)
  | .mseccfg => do
    h.verifyBase 0x747 write
    require (h.extensionEnabled .smepmp)
  | .scountovf => do
    require (h.extensionEnabled .sscofpmf)
    h.verifyBase 0xda0 write
  | .virtualizedSatp => h.verifySatp cfg write
  | .virtualizedStimecmp => h.verifyStimecmp cfg write
  | .rv32Low orig => verifyObj write orig
  | .rv32High orig => verifyObj write orig
  | .counterProxy address _ => do
    h.verifyBase address write
    h.verifyCounter address
  | .composite upper _ _ => verifyObj write upper
  | o => h.verifyBase (objAddress o) write

/-- `processor_t::get_csr` without `peek`: the entry and what it reads. -/
def getCsr (which : Nat) (write : Bool) : Except Refusal Reg :=
  match csrFind cfg which with
  | some o =>
    match h.verifyObj cfg write o with
    | .ok () => .ok (h.readObj cfg o)
    | .error e => .error e
  | none => .error .illegal

end Hart

end Nnemu

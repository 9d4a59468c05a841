import Nnemu.Lib.Radix
import Nnemu.Mmu.World
import Nnemu.Pmp.Basic

/-!
# The page-table walker

`decode_vm_info`, `s2xlate`, `walk` and `translate` of the memory management unit. The walker reads
and writes page-table entries through two operations and may stop; these are collected in `PteMem
m`, so that the same definitions run on the machine (`busMem`) and on a frozen picture of it.

The two loops share what they do at a leaf: both visit an entry, classify it by the chain of `if`s
of their own, and finish with the A and D bits and the NAPOT check.

What a walk depends on besides memory is a `Regime`: the registers of translation, the extensions
that give bits of an entry a meaning, and the protection unit. Which privilege level and which of
the two regimes an access has is computed first (`Privilege.effective`), from the flags of the
access and the status registers. Both loops run through the radix tree by `Radix.descend`, with a
`visit` for one entry, so that everything said later of a loop is said of one round.
-/

namespace Nnemu

open Bytes

/-! ### Constants -/

/-- `PTE_V` -/
def pteV : Reg := 0x001#64
/-- `PTE_R` -/
def pteR : Reg := 0x002#64
/-- `PTE_W` -/
def pteW : Reg := 0x004#64
/-- `PTE_X` -/
def pteX : Reg := 0x008#64
/-- `PTE_U` -/
def pteU : Reg := 0x010#64
/-- `PTE_A` -/
def pteA : Reg := 0x040#64
/-- `PTE_D` -/
def pteD : Reg := 0x080#64
/-- `PTE_RSVD` -/
def pteRsvd : Reg := 0x1FC0000000000000#64
/-- `PTE_PBMT` -/
def ptePbmt : Reg := 0x6000000000000000#64
/-- `PTE_N` -/
def pteN : Reg := 0x8000000000000000#64
/-- `PTE_ATTR` -/
def pteAttr : Reg := 0xFFC0000000000000#64
/-- `PTE_PPN_SHIFT` -/
def ptePpnShift : Nat := 10
/-- `MENVCFG_PBMTE`, `HENVCFG_PBMTE` -/
def envcfgPbmte : Reg := 0x4000000000000000#64
/-- `MENVCFG_HADE`, `HENVCFG_HADE` -/
def envcfgHade : Reg := 0x2000000000000000#64
/-- `MSTATUS_SUM` -/
def mstatusSum : Reg := 0x40000#64
/-- `MSTATUS_MXR` -/
def mstatusMxr : Reg := 0x80000#64

/-- `PTE_TABLE` -/
def pteTable (pte : Reg) : Bool :=
  pte &&& (pteV ||| pteR ||| pteW ||| pteX) == pteV

/-- The physical page number of an entry. -/
def ptePpn (pte : Reg) : Reg :=
  (pte &&& ~~~pteAttr) >>> ptePpnShift

/-! ### What a translation depends on -/

/-- The state a translation reads besides memory: CSRs as `read()` returns them, extensions and
PMP. -/
structure Regime where
  xlen : Xlen
  /-- `extension_enabled(EXT_SVNAPOT)` -/
  svnapot : Bool
  satp : Reg
  vsatp : Reg
  hgatp : Reg
  /-- `sstatus->readvirt(false)` -/
  sstatus : Reg
  /-- `sstatus->readvirt(true)` -/
  vsstatus : Reg
  menvcfg : Reg
  henvcfg : Reg
  pmp : Pmp
  debugMode : Bool

/-- `vm_info` -/
structure VmInfo where
  levels : Nat
  idxbits : Nat
  widenbits : Nat
  ptesize : Nat
  ptbase : Reg

/-- The value for a mode that is off. -/
def VmInfo.bare : VmInfo := ⟨0, 0, 0, 0, 0#64⟩

/-- `decode_vm_info`; `none` is `abort()`. -/
def decodeVmInfo (xlen : Xlen) (stage2 : Bool) (prv satp : Reg) : Option VmInfo :=
  if prv = prvM then some .bare
  else if !stage2 && prv ≤ prvS && xlen == .rv32 then
    let mode := getField satp 0x80000000#64
    if mode = 0#64 then some .bare
    else if mode = 1#64 then some ⟨2, 10, 0, 4, (satp &&& 0x003FFFFF#64) <<< pgShift⟩
    else none
  else if !stage2 && prv ≤ prvS && xlen == .rv64 then
    let mode := getField satp 0xF000000000000000#64
    let ptbase := (satp &&& 0x00000FFFFFFFFFFF#64) <<< pgShift
    if mode = 0#64 then some .bare
    else if mode = 8#64 then some ⟨3, 9, 0, 8, ptbase⟩
    else if mode = 9#64 then some ⟨4, 9, 0, 8, ptbase⟩
    else if mode = 10#64 then some ⟨5, 9, 0, 8, ptbase⟩
    else if mode = 11#64 then some ⟨6, 9, 0, 8, ptbase⟩
    else none
  else if stage2 && xlen == .rv32 then
    let mode := getField satp 0x80000000#64
    if mode = 0#64 then some .bare
    else if mode = 1#64 then some ⟨2, 10, 2, 4, (satp &&& 0x003FFFFF#64) <<< pgShift⟩
    else none
  else if stage2 && xlen == .rv64 then
    let mode := getField satp 0xF000000000000000#64
    let ptbase := (satp &&& 0x00000FFFFFFFFFFF#64) <<< pgShift
    if mode = 0#64 then some .bare
    else if mode = 8#64 then some ⟨3, 9, 2, 8, ptbase⟩
    else if mode = 9#64 then some ⟨4, 9, 2, 8, ptbase⟩
    else if mode = 10#64 then some ⟨5, 9, 2, 8, ptbase⟩
    else none
  else none

/-! ### Page-table memory -/

/-- How the walker reaches page-table entries. -/
structure PteMem (m : Type → Type) where
  /-- `pte_load(pte_paddr, addr, virt, trap_type, ptesize)` -/
  load : Reg → Reg → Bool → AccessType → Nat → m Reg
  /-- `pte_store(pte_paddr, new_pte, addr, virt, trap_type, ptesize)` -/
  store : Reg → Reg → Reg → Bool → AccessType → Nat → m Unit
  /-- a `throw` or an `abort()` -/
  stop : (α : Type) → Stop → m α

/-! ### Leaves -/

/-- What the chain of `if`s in front of the last `else` makes of an entry: `break`, a table, or a
leaf that grants the access up to its A and D bits. -/
inductive PteClass where
  | bad
  | table
  | leaf
deriving DecidableEq

/-- `type == FETCH || hlvx ? !X : type == LOAD ? !R && !(mxr && X) : !(R && W)` -/
def typeRefused (type : AccessType) (hlvx mxr : Bool) (pte : Reg) : Bool :=
  if type == .fetch || hlvx then !hasBits pte pteX
  else if type == .load then !hasBits pte pteR && !(mxr && hasBits pte pteX)
  else !(hasBits pte pteR && hasBits pte pteW)

/-- Do the low `ptshift` bits of the page number contradict a superpage? -/
def misalignedSuperpage (ptshift : Nat) (pte : Reg) : Bool :=
  ptePpn pte &&& ((1#64 <<< ptshift) - 1#64) != 0#64

/-- `PTE_A | ((type == STORE) * PTE_D)` -/
def adBits (type : AccessType) : Reg :=
  pteA ||| (if type = .store then pteD else 0#64)

/-- One halving of `ctz`: when the low `k` bits are zero they are counted and dropped. -/
def ctzStep (p : Nat × Reg) (k : Nat) : Nat × Reg :=
  if p.2 <<< (64 - k) = 0#64 then (p.1 + k, p.2 >>> k) else p

/-- `ctz` of `arith.h` -/
def ctz (val : Reg) : Nat :=
  if val = 0#64 then 0 else ([32, 16, 8, 4, 2, 1].foldl ctzStep (0, val)).1

/-- `napot_bits` -/
def napotBits (pte : Reg) : Nat :=
  if hasBits pte pteN then ctz (ptePpn pte) + 1 else 0

/-- Is the NAPOT encoding of a leaf at level `i` refused? -/
def napotRefused (i : Nat) (pte : Reg) : Bool :=
  (hasBits pte pteN && (ptePpn pte == 0#64 || i != 0)) ||
    (napotBits pte != 0 && napotBits pte != 4)

/-- `page_base`: the page number of the leaf with the page bits of a superpage or NAPOT range from
`vpn`. -/
def pageBase (ptshift : Nat) (pte vpn : Reg) : Reg :=
  ((ptePpn pte &&& ~~~((1#64 <<< napotBits pte) - 1#64)) |||
    (vpn &&& ((1#64 <<< napotBits pte) - 1#64)) |||
    (vpn &&& ((1#64 <<< ptshift) - 1#64))) <<< pgShift

section Walker

variable {m : Type → Type} [Monad m] (mem : PteMem m) (r : Regime)

/-- The update of the A and D bits of a leaf; `false` is `break`. -/
def updateAd (vm : VmInfo) (slot pte addr : Reg) (type : AccessType) (virt hade : Bool) : m Bool :=
  let ad := adBits type
  if pte &&& ad ≠ ad then
    if hade then do
      -- set accessed and possibly dirty bits
      mem.store slot (pte ||| ad) addr virt type vm.ptesize
      pure true
    else
      -- take exception if access or possibly dirty bit is not set
      pure false
  else pure true

/-- The last `else` of both loops, for a leaf `pte` read from `slot` at level `i`: update the A and
D bits, check the NAPOT encoding and form the page address for `vpn`. `none` is `break`. -/
def finishLeaf (vm : VmInfo) (slot pte vpn addr : Reg) (type : AccessType) (virt hade : Bool)
    (i : Nat) : m (Option Reg) := do
  if ← updateAd mem vm slot pte addr type virt hade then
    if napotRefused i pte then pure none
    else pure (some (pageBase (i * vm.idxbits) pte vpn))
  else pure none

/-! ### The second stage -/

/-- The chain of `if`s of `s2xlate`. -/
def s2Classify (svnapot pbmte mxr : Bool) (type : AccessType) (hlvx : Bool) (ptshift : Nat)
    (pte : Reg) : PteClass :=
  if hasBits pte pteRsvd then .bad
  else if !svnapot && hasBits pte pteN then .bad
  else if !pbmte && hasBits pte ptePbmt then .bad
  else if pte &&& ptePbmt == ptePbmt then .bad
  else if pteTable pte then
    if hasBits pte (pteD ||| pteA ||| pteU ||| pteN ||| ptePbmt) then .bad else .table
  else if !hasBits pte pteV || (!hasBits pte pteR && hasBits pte pteW) then .bad
  else if !hasBits pte pteU then .bad
  else if typeRefused type hlvx mxr pte then .bad
  else if misalignedSuperpage ptshift pte then .bad
  else .leaf

/-- The address of the entry for `gpa` at level `i` of the second stage; the root table is wider. -/
def s2Slot (vm : VmInfo) (gpa : Reg) (i : Nat) (base : Reg) : Reg :=
  let ptshift := i * vm.idxbits
  let idxbits := if i = vm.levels - 1 then vm.idxbits + vm.widenbits else vm.idxbits
  let idx := (gpa >>> (pgShift + ptshift)) &&& ((1#64 <<< idxbits) - 1#64)
  base + idx * BitVec.ofNat 64 vm.ptesize

/-- One round of the loop of `s2xlate`. -/
def s2Visit (vm : VmInfo) (gva gpa : Reg) (type trapType : AccessType) (hlvx : Bool) (i : Nat)
    (base : Reg) : m (Radix.Visit Reg Reg) := do
  let slot := s2Slot vm gpa i base
  let pte ← mem.load slot gva true trapType vm.ptesize
  let pbmte := hasBits r.menvcfg envcfgPbmte
  let hade := hasBits r.menvcfg envcfgHade
  let mxr := hasBits r.sstatus mstatusMxr
  match s2Classify r.svnapot pbmte mxr type hlvx (i * vm.idxbits) pte with
  | .bad => pure (.done none)
  | .table => pure (.next (ptePpn pte <<< pgShift))
  | .leaf =>
    -- the store passes `type` where the load passes `trap_type`
    let page ← finishLeaf mem vm slot pte (gpa >>> pgShift) gva type true hade i
    pure (.done (page.map (· ||| (gpa &&& pageMask))))

/-- `maxgpa` of `s2xlate` -/
def maxGpa (vm : VmInfo) : Reg :=
  (1#64 <<< (vm.levels * vm.idxbits + vm.widenbits + pgShift)) - 1#64

/-- The `for` loop of `s2xlate`, entered for an address in range. -/
def s2Find (vm : VmInfo) (gva gpa : Reg) (type trapType : AccessType) (hlvx : Bool) :
    m (Option Reg) :=
  if gpa &&& ~~~maxGpa vm = 0#64 then
    Radix.descend (s2Visit mem r vm gva gpa type trapType hlvx) vm.levels vm.ptbase
  else pure none

/-- `mmu_t::s2xlate` -/
def s2xlate (gva gpa : Reg) (type trapType : AccessType) (virt hlvx : Bool) : m Reg :=
  if !virt then pure gpa
  else
    match decodeVmInfo r.xlen true 0#64 r.hgatp with
    | none => mem.stop _ .abort
    | some vm =>
      if vm.levels = 0 then pure gpa
      else do
        match ← s2Find mem r vm gva gpa type trapType hlvx with
        | some paddr => pure paddr
        | none => mem.stop _ (.trap (guestPageFault trapType gva gpa))

/-! ### The first stage -/

/-- The chain of `if`s of `walk`. -/
def s1Classify (svnapot pbmte sMode sum mxr : Bool) (type : AccessType)
    (hlvx : Bool) (ptshift : Nat)
    (pte : Reg) : PteClass :=
  if hasBits pte pteRsvd then .bad
  else if !svnapot && hasBits pte pteN then .bad
  else if !pbmte && hasBits pte ptePbmt then .bad
  else if pte &&& ptePbmt == ptePbmt then .bad
  else if pteTable pte then
    if hasBits pte (pteD ||| pteA ||| pteU ||| pteN ||| ptePbmt) then .bad else .table
  else if (if hasBits pte pteU then sMode && (type == .fetch || !sum) else !sMode) then .bad
  else if !hasBits pte pteV || (!hasBits pte pteR && hasBits pte pteW) then .bad
  else if typeRefused type hlvx mxr pte then .bad
  else if misalignedSuperpage ptshift pte then .bad
  else .leaf

/-- The address of the entry for `addr` at level `i` of the first stage, before translation. -/
def s1Slot (vm : VmInfo) (addr : Reg) (i : Nat) (base : Reg) : Reg :=
  let ptshift := i * vm.idxbits
  let idx := (addr >>> (pgShift + ptshift)) &&& ((1#64 <<< vm.idxbits) - 1#64)
  base + idx * BitVec.ofNat 64 vm.ptesize

/-- The status register `readvirt(virt)` returns. -/
def Regime.status (virt : Bool) : Reg :=
  if virt then r.vsstatus else r.sstatus

/-- The environment register of the stage. -/
def Regime.envcfg (virt : Bool) : Reg :=
  if virt then r.henvcfg else r.menvcfg

/-- `satp->readvirt(virt)` -/
def Regime.atp (virt : Bool) : Reg :=
  if virt then r.vsatp else r.satp

/-- `mxr` of `walk` -/
def Regime.mxr (virt : Bool) : Bool :=
  hasBits (r.sstatus ||| r.status virt) mstatusMxr

/-- One round of the loop of `walk`. The result is the page address before the second stage. -/
def s1Visit (vm : VmInfo) (addr : Reg) (type : AccessType) (mode : Reg) (virt hlvx : Bool) (i : Nat)
    (base : Reg) : m (Radix.Visit Reg Reg) := do
  let slot ← s2xlate mem r addr (s1Slot vm addr i base) .load type virt false
  let pte ← mem.load slot addr virt type vm.ptesize
  let pbmte := hasBits (r.envcfg virt) envcfgPbmte
  let hade := hasBits (r.envcfg virt) envcfgHade
  let sum := hasBits (r.status virt) mstatusSum
  match s1Classify r.svnapot pbmte (mode == prvS) sum (r.mxr virt) type hlvx
    (i * vm.idxbits) pte with
  | .bad => pure (.done none)
  | .table => pure (.next (ptePpn pte <<< pgShift))
  | .leaf =>
    let page ← finishLeaf mem vm slot pte (addr >>> pgShift) addr type virt hade i
    pure (.done page)

/-- `va_bits` of `walk` -/
def vaBits (vm : VmInfo) : Nat :=
  pgShift + vm.levels * vm.idxbits

/-- Are the bits `xlen-1` to `va_bits-1` of the address all equal? -/
def canonical (xlen : Xlen) (vm : VmInfo) (addr : Reg) : Bool :=
  let mask := (1#64 <<< (xlen.bits - (vaBits vm - 1))) - 1#64
  let maskedMsbs := (addr >>> (vaBits vm - 1)) &&& mask
  maskedMsbs == 0#64 || maskedMsbs == mask

/-- The table part of `mmu_t::walk`, for a mode with levels. -/
def walkTables (vm : VmInfo) (addr : Reg) (type : AccessType) (mode : Reg) (virt hlvx : Bool) :
    m Reg := do
  -- an address that is not canonical gets no levels
  let levels := if canonical r.xlen vm addr then vm.levels else 0
  match ← Radix.descend (s1Visit mem r vm addr type mode virt hlvx) levels vm.ptbase with
  | some page => do
    let phys ← s2xlate mem r addr (page ||| (addr &&& pageMask)) type type virt hlvx
    pure (phys &&& ~~~pageMask)
  | none => mem.stop _ (.trap (pageFault type virt addr))

/-- `mmu_t::walk` -/
def walk (addr : Reg) (type : AccessType) (mode : Reg) (virt hlvx : Bool) : m Reg :=
  match decodeVmInfo r.xlen false mode (r.atp virt) with
  | none => mem.stop _ .abort
  | some vm =>
    if vm.levels = 0 then do
      let phys ← s2xlate mem r addr (r.xlen.zext addr) type type virt hlvx
      pure (phys &&& ~~~pageMask)
    else walkTables mem r vm addr type mode virt hlvx

/-- `mmu_t::translate`, for the mode and the virtualization it derives from the state. -/
def translateAs (addr : Reg) (len : Nat) (type : AccessType) (mode : Reg) (virt hlvx : Bool) :
    m Reg := do
  let page ← walk mem r addr type mode virt hlvx
  let paddr := page ||| (addr &&& pageMask)
  if !r.pmp.pmpOk paddr len type mode then mem.stop _ (.trap (accessFault type virt addr))
  else pure paddr

end Walker

/-! ### The mode of an access -/

/-- `MSTATUS_MPP` -/
def mstatusMpp : Reg := 0x1800#64
/-- `MSTATUS_MPRV` -/
def mstatusMprv : Reg := 0x20000#64
/-- `MSTATUS_MPV` -/
def mstatusMpv : Reg := 0x8000000000#64
/-- `MNSTATUS_NMIE` -/
def mnstatusNmie : Reg := 8#64
/-- `HSTATUS_SPVP` -/
def hstatusSpvp : Reg := 0x100#64

/-- The `RISCV_XLATE_*` flags. -/
structure XlateFlags where
  virt : Bool := false
  hlvx : Bool := false
  lr : Bool := false
deriving DecidableEq

/-- The state from which `translate` derives the mode of an access. -/
structure Privilege where
  prv : Reg
  v : Bool
  mstatus : Reg
  /-- absent without Smrnmi -/
  mnstatus : Option Reg
  hstatus : Reg
  debugMode : Bool

/-- `mmu_t::in_mprv` -/
def Privilege.inMprv (s : Privilege) : Bool :=
  !(s.mnstatus.any fun mnstatus => !hasBits mnstatus mnstatusNmie) && !s.debugMode &&
    hasBits s.mstatus mstatusMprv

/-- `mode` and `virt` of `mmu_t::translate`. -/
def Privilege.effective (s : Privilege) (type : AccessType) (flags : XlateFlags) : Reg × Bool :=
  if type = .fetch then (s.prv, s.v)
  else
    let mode := if s.inMprv then getField s.mstatus mstatusMpp else s.prv
    let virt := if s.inMprv && hasBits s.mstatus mstatusMpv && mode != prvM then true else s.v
    if flags.virt then (getField s.hstatus hstatusSpvp, true) else (mode, virt)

/-- `mmu_t::translate` -/
def translate {m : Type → Type} [Monad m] (mem : PteMem m) (r : Regime) (s : Privilege) (addr : Reg)
    (len : Nat) (type : AccessType) (flags : XlateFlags) : m Reg :=
  translateAs mem r addr len type (s.effective type flags).1 (s.effective type flags).2 flags.hlvx

/-! ### The machine -/

variable {δ : Type}

/-- `mmu_t::pte_load` -/
def pteLoad (bus : Bus δ) (r : Regime) (ptePaddr addr : Reg) (virt : Bool) (trapType : AccessType)
    (ptesize : Nat) : Exec Stop (World δ) Reg := fun w =>
  if !r.pmp.pmpOk ptePaddr ptesize .load prvS then
    .error (.trap (accessFault trapType virt addr)) w
  else if bus.isMem ptePaddr then .ok (w.read ptePaddr ptesize) w
  else
    match mmioLoad bus r.debugMode w.dev ptePaddr ptesize with
    | (some bytes, dev) => .ok (fromBytes bytes) { w with dev := dev }
    | (none, dev) => .error (.trap (accessFault trapType virt addr)) { w with dev := dev }

/-- `mmu_t::pte_store` -/
def pteStore (bus : Bus δ) (r : Regime) (ptePaddr newPte addr : Reg) (virt : Bool)
    (trapType : AccessType) (ptesize : Nat) : Exec Stop (World δ) Unit := fun w =>
  if !r.pmp.pmpOk ptePaddr ptesize .store prvS then
    .error (.trap (accessFault trapType virt addr)) w
  else if bus.isMem ptePaddr then
    .ok () (w.setMem true (writeBytes w.mem ptePaddr (toBytes newPte ptesize)))
  else
    match mmioStore bus r.debugMode w.mem w.dev ptePaddr (toBytes newPte ptesize) with
    | (true, mem, dev) => .ok () { w.setMem false mem with dev := dev }
    | (false, mem, dev) =>
      .error (.trap (accessFault trapType virt addr)) { w.setMem false mem with dev := dev }

/-- Page-table memory of the machine. -/
def busMem (bus : Bus δ) (r : Regime) : PteMem (Exec Stop (World δ)) where
  load := pteLoad bus r
  store := pteStore bus r
  stop := fun _ e => throw e

end Nnemu

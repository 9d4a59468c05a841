import Mathlib.Logic.Function.Basic
import Nnemu.Encoding

/-!
# The physical memory protection unit

`pmpaddr_csr_t`, `pmpcfg_csr_t` and `mseccfg_csr_t` of `csrs.cc` and the two checks of `mmu.cc` that
read them. A `Pmp` holds everything these functions look at: the number of entries, the granularity,
the entries themselves and `mseccfg`.

A write function returns `none` where the code leaves early with `return false`, and `some p` where
it goes on to `flush_tlb()`. The `bool` the code returns otherwise only feeds the commit log.
-/

namespace Nnemu

/-! ### Constants -/

/-- `PMP_R` -/
def pmpR : BitVec 8 := 0x01#8
/-- `PMP_W` -/
def pmpW : BitVec 8 := 0x02#8
/-- `PMP_X` -/
def pmpX : BitVec 8 := 0x04#8
/-- `PMP_A` -/
def pmpA : BitVec 8 := 0x18#8
/-- `PMP_L` -/
def pmpL : BitVec 8 := 0x80#8
/-- `PMP_TOR` -/
def pmpTor : BitVec 8 := 0x08#8
/-- `PMP_NA4` -/
def pmpNa4 : BitVec 8 := 0x10#8
/-- `PMP_NAPOT` -/
def pmpNapot : BitVec 8 := 0x18#8
/-- `MSECCFG_MML` -/
def mseccfgMml : Reg := 1#64
/-- `MSECCFG_MMWP` -/
def mseccfgMmwp : Reg := 2#64
/-- `MSECCFG_RLB` -/
def mseccfgRlb : Reg := 4#64
/-- `PMP_SHIFT` -/
def pmpShift : Nat := 2
/-- `MAX_PADDR_BITS` -/
def maxPaddrBits : Nat := 56
/-- `state_t::max_pmp` -/
def maxPmp : Nat := 64

/-! ### State -/

/-- One `pmpaddr_csr_t`: the address register and the configuration byte it carries. -/
structure PmpEntry where
  /-- the configuration byte -/
  cfg : BitVec 8
  /-- the address register, as stored -/
  val : Reg
  /-- every write masks the stored address to `MAX_PADDR_BITS - PMP_SHIFT` bits -/
  val_lt : val.toNat < 2 ^ (maxPaddrBits - pmpShift)

/-- The reset value of an entry. -/
def PmpEntry.reset : PmpEntry :=
  ⟨0#8, 0#64, by decide⟩

/-- The protection unit of one hart. -/
structure Pmp where
  /-- `n_pmp`, at most `max_pmp` by `set_pmp_num` -/
  nPmp : Nat
  nPmp_le : nPmp ≤ maxPmp
  /-- `lg_pmp_granularity`, the logarithm of a power of two from 4 on by `set_pmp_granularity` -/
  lgPmpGranularity : Nat
  pmpShift_le : pmpShift ≤ lgPmpGranularity
  lgPmpGranularity_lt : lgPmpGranularity < 64
  /-- the array `pmpaddr[max_pmp]` -/
  pmpaddr : Nat → PmpEntry
  /-- `mseccfg` -/
  mseccfg : Reg

/-- A hart without PMP entries. -/
def Pmp.absent : Pmp where
  nPmp := 0
  nPmp_le := by decide
  lgPmpGranularity := 2
  pmpShift_le := by decide
  lgPmpGranularity_lt := by decide
  pmpaddr := fun _ => PmpEntry.reset
  mseccfg := 0#64

namespace Pmp

variable (p : Pmp)

/-- The configuration byte of entry `i`. -/
def cfg (i : Nat) : BitVec 8 :=
  (p.pmpaddr i).cfg

/-- The stored address register of entry `i`. -/
def val (i : Nat) : Reg :=
  (p.pmpaddr i).val

/-- `mseccfg_csr_t::get_mml` -/
def getMml : Bool := hasBits p.mseccfg mseccfgMml

/-- `mseccfg_csr_t::get_mmwp` -/
def getMmwp : Bool := hasBits p.mseccfg mseccfgMmwp

/-- `mseccfg_csr_t::get_rlb` -/
def getRlb : Bool := hasBits p.mseccfg mseccfgRlb

/-- `pmpaddr_csr_t::is_locked` -/
def isLocked (i : Nat) : Bool := hasBits (p.cfg i) pmpL

/-! ### Address matching -/

/-- `processor_t::pmp_tor_mask` -/
def pmpTorMask : Reg :=
  -(1#64 <<< (p.lgPmpGranularity - pmpShift))

/-- `pmpaddr_csr_t::read` -/
def pmpaddrRead (i : Nat) : Reg :=
  if pmpNapot ≤ (p.cfg i &&& pmpA) then p.val i ||| (~~~p.pmpTorMask >>> 1)
  else p.val i &&& p.pmpTorMask

/-- `pmpaddr_csr_t::tor_paddr` -/
def torPaddr (i : Nat) : Reg :=
  (p.val i &&& p.pmpTorMask) <<< pmpShift

/-- `pmpaddr_csr_t::tor_base_paddr`: entry 0 always uses 0 as base. -/
def torBasePaddr (i : Nat) : Reg :=
  if i = 0 then 0#64 else p.torPaddr (i - 1)

/-- `pmpaddr_csr_t::napot_mask` -/
def napotMask (i : Nat) : Reg :=
  let isNa4 := p.cfg i &&& pmpA == pmpNa4
  let mask := (p.val i <<< 1) ||| (if isNa4 then 0#64 else 1#64) ||| ~~~p.pmpTorMask
  ~~~(mask &&& ~~~(mask + 1#64)) <<< pmpShift

/-- `pmpaddr_csr_t::match4`: does a 4-byte access at `addr` match entry `i`? -/
def match4 (i : Nat) (addr : Reg) : Bool :=
  if p.cfg i &&& pmpA = 0#8 then false
  else if p.cfg i &&& pmpA = pmpTor then p.torBasePaddr i ≤ addr && addr < p.torPaddr i
  else (addr ^^^ p.torPaddr i) &&& p.napotMask i == 0#64

/-- `pmpaddr_csr_t::subset_match`: does entry `i` match only a proper subset of the range? `none` is
the `abort()` on a range that is not a naturally aligned power of two. -/
def subsetMatch (i : Nat) (addr len : Reg) : Option Bool :=
  if (addr ||| len) &&& (len - 1#64) ≠ 0#64 then none
  else
    let base := p.torBasePaddr i
    let tor := p.torPaddr i
    if p.cfg i &&& pmpA = 0#8 then some false
    else
      let isTor := p.cfg i &&& pmpA == pmpTor
      let beginsAfterLower : Bool := base ≤ addr
      let beginsAfterUpper : Bool := tor ≤ addr
      let endsBeforeLower : Bool := addr &&& -len < base &&& -len
      let endsBeforeUpper : Bool := addr &&& -len < tor &&& -len
      let torHomogeneous := endsBeforeLower || beginsAfterUpper ||
        (beginsAfterLower && endsBeforeUpper)
      let maskHomogeneous := hasBits (~~~(p.napotMask i <<< 1)) len
      let napotHomogeneous := maskHomogeneous || (addr ^^^ tor) / len != 0#64
      some (!(if isTor then torHomogeneous else napotHomogeneous))

/-! ### Permissions -/

/-- `pmpaddr_csr_t::access_ok` -/
def accessOk (i : Nat) (type : AccessType) (mode : Reg) : Bool :=
  let cfgx := hasBits (p.cfg i) pmpX
  let cfgw := hasBits (p.cfg i) pmpW
  let cfgr := hasBits (p.cfg i) pmpR
  let cfgl := hasBits (p.cfg i) pmpL
  let prvm := mode == prvM
  let typer := type == .load
  let typex := type == .fetch
  let typew := type == .store
  let normalRwx := (typer && cfgr) || (typew && cfgw) || (typex && cfgx)
  if p.getMml then
    if cfgx && cfgw && cfgr && cfgl then
      -- locked shared data region: read only on both M and S/U mode
      typer
    else
      let mmlSharedRegion := !cfgr && cfgw
      let mmlChkNormal := (prvm == cfgl) && normalRwx
      let mmlChkShared := (!cfgl && cfgx && (typer || typew)) ||
        (!cfgl && !cfgx && (typer || (typew && prvm))) ||
        (cfgl && typex) ||
        (cfgl && typer && cfgx && prvm)
      if mmlSharedRegion then mmlChkShared else mmlChkNormal
  else
    let mBypass := prvm && !cfgl
    mBypass || normalRwx

/-- What `mmu_t::pmp_ok` answers when no entry matches. -/
def noMatchOk (type : AccessType) (mode : Reg) : Bool :=
  mode == prvM && !p.getMmwp && (!p.getMml || type == .load || type == .store)

/-- The addresses `mmu_t::pmp_ok` probes: `addr`, `addr + 4`, … below `addr + len`. -/
def probes (addr : Reg) (len : Nat) : List Reg :=
  (List.range ((len + 3) / 4)).map fun k => addr + BitVec.ofNat 64 (4 * k)

/-- `mmu_t::pmp_ok`. The first entry that matches any probe decides: it must match all of them. -/
def pmpOk (addr : Reg) (len : Nat) (type : AccessType) (mode : Reg) : Bool :=
  if p.nPmp = 0 then true
  else
    match (List.range p.nPmp).find? fun i => (probes addr len).any (p.match4 i) with
    | some i => (probes addr len).all (p.match4 i) && p.accessOk i type mode
    | none => p.noMatchOk type mode

/-- The loop of `mmu_t::pmp_homogeneous` over the entries of a list. -/
def pmpHomogeneousOn (addr len : Reg) : List Nat → Option Bool
  | [] => some true
  | i :: rest =>
    match p.subsetMatch i addr len with
    | none => none
    | some true => some false
    | some false => pmpHomogeneousOn addr len rest

/-- `mmu_t::pmp_homogeneous`, with `none` for `abort()`. -/
def pmpHomogeneous (addr len : Reg) : Option Bool :=
  if (addr ||| len) &&& (len - 1#64) ≠ 0#64 then none
  else p.pmpHomogeneousOn addr len (List.range p.nPmp)

/-! ### Writes -/

/-- Replace entry `i`. -/
def setEntry (i : Nat) (e : PmpEntry) : Pmp :=
  { p with pmpaddr := Function.update p.pmpaddr i e }

/-- `pmpaddr_csr_t::next_locked_and_tor` -/
def nextLockedAndTor (i : Nat) : Bool :=
  if maxPmp ≤ i + 1 then false
  else
    let nextLocked := !p.getRlb && hasBits (p.cfg (i + 1)) pmpL
    let nextTor := p.cfg (i + 1) &&& pmpA == pmpTor
    nextLocked && nextTor

/-- The mask a `pmpaddr` write applies: `(reg_t(1) << (MAX_PADDR_BITS - PMP_SHIFT)) - 1`. -/
def pmpaddrMask : Reg :=
  (1#64 <<< (maxPaddrBits - pmpShift)) - 1#64

theorem and_pmpaddrMask_lt (v : Reg) :
    (v &&& pmpaddrMask).toNat < 2 ^ (maxPaddrBits - pmpShift) := by
  rw [BitVec.toNat_and]
  exact Nat.and_lt_two_pow _ (by decide)

/-- `pmpaddr_csr_t::unlogged_write` of entry `i`. -/
def pmpaddrWrite (i : Nat) (v : Reg) : Option Pmp :=
  if p.nPmp = 0 then none
  else
    let lockBypass := p.getRlb
    let locked := !lockBypass && hasBits (p.cfg i) pmpL
    if i < p.nPmp && !locked && !p.nextLockedAndTor i then
      some (p.setEntry i ⟨p.cfg i, v &&& pmpaddrMask, and_pmpaddrMask_lt v⟩)
    else none

/-- The configuration byte `pmpcfg_csr_t::unlogged_write` derives from the byte that is written,
before it decides whether to store it. -/
def legalizeCfg (mml : Bool) (lgGranularity : Nat) (byte : BitVec 8) : BitVec 8 :=
  let cfg := byte &&& (pmpR ||| pmpW ||| pmpX ||| pmpA ||| pmpL)
  -- drop R=0 W=1 when MML = 0
  let cfg := if !mml then cfg &&& (~~~pmpW ||| (if hasBits cfg pmpR then pmpW else 0#8)) else cfg
  -- disallow A=NA4 when granularity > 4
  if lgGranularity ≠ pmpShift ∧ cfg &&& pmpA = pmpNa4 then cfg ||| pmpNapot else cfg

/-- A rule with executable privileges that is M-mode-only or a locked shared region: with MML set
and RLB clear such a byte is not stored. -/
def forbiddenCfg (rlb mml : Bool) (cfg : BitVec 8) : Bool :=
  let cfgx := hasBits cfg pmpX
  let cfgw := hasBits cfg pmpW
  let cfgr := hasBits cfg pmpR
  !(rlb || !(mml && (hasBits cfg pmpL && !(cfgx && cfgw && cfgr) && (cfgx || (cfgw && !cfgr)))))

/-- One round of the loop of `pmpcfg_csr_t::unlogged_write`: entry `i` gets `byte`. -/
def pmpcfgWriteEntry (i : Nat) (byte : BitVec 8) : Pmp :=
  if i < p.nPmp then
    if p.getRlb || !p.isLocked i then
      let cfg := legalizeCfg p.getMml p.lgPmpGranularity byte
      if forbiddenCfg p.getRlb p.getMml cfg then p
      else p.setEntry i { p.pmpaddr i with cfg := cfg }
    else p
  else p

/-- `pmpcfg_csr_t::unlogged_write` of the register with index `n` (its address less `CSR_PMPCFG0`):
`xlen / 8` entries from `4 * n` on, one byte of `v` each. -/
def pmpcfgWrite (xlen : Xlen) (n : Nat) (v : Reg) : Option Pmp :=
  if p.nPmp = 0 then none
  else
    some ((List.range (xlen.bits / 8)).foldl
      (fun q k => q.pmpcfgWriteEntry (4 * n + k) ((v >>> (8 * k)).setWidth 8)) p)

/-- The value `mseccfg_csr_t::unlogged_write` stores: RLB is frozen at 0 once an entry is locked,
MMWP and MML are sticky. -/
def mseccfgNext (v : Reg) : Reg :=
  let pmplockRecorded := (List.range p.nPmp).any p.isLocked
  let newVal := p.mseccfg
  let newVal :=
    if !(pmplockRecorded && (p.mseccfg &&& mseccfgRlb == 0#64)) then
      (newVal &&& ~~~mseccfgRlb) ||| (v &&& mseccfgRlb)
    else newVal
  newVal ||| (v &&& mseccfgMmwp) ||| (v &&& mseccfgMml)

/-- `mseccfg_csr_t::unlogged_write` -/
def mseccfgWrite (v : Reg) : Option Pmp :=
  if p.nPmp = 0 then none else some { p with mseccfg := p.mseccfgNext v }

/-! ### Given configurations -/

/-- An entry with this configuration byte and the address a write of `v` stores. -/
def entryOf (cfg : BitVec 8) (v : Reg) : PmpEntry :=
  ⟨cfg, v &&& pmpaddrMask, and_pmpaddrMask_lt v⟩

/-- A unit with these entries, a granularity of 4 bytes and `mseccfg` zero. -/
def ofEntries (entries : List PmpEntry) : Pmp :=
  { Pmp.absent with
    nPmp := min entries.length maxPmp
    nPmp_le := Nat.min_le_right _ _
    pmpaddr := fun i => entries.getD i PmpEntry.reset }

end Pmp

end Nnemu

import Nnemu.Hart.State

/-!
# Writing CSR objects

The methods `unlogged_write` of `csrs.cc`, for the objects that hold a value. `Hart.write` is
`csr_t::write` of such an object; the commit log is left out. Objects of one class share a
definition; what the class takes at construction (its mask, its bit in `mip`) is looked up in the
configuration.

The first part has the masks, which depend on the ISA string, or on the registers in the few cases
where `csrs.cc` computes them at each write. Next come the classes of objects, each with the
registers that use it, and `misa`, whose write is the longest: it may be ignored, it recomputes the
extensions that follow its letters, and it clears what belongs to the hypervisor when H goes off.
`Hart.write` dispatches to all of them, in the order of `processor.cc`.
-/

namespace Nnemu

/-- `xlen_to_uxl` -/
def xlenToUxl : Xlen → Reg
  | .rv32 => 1#64
  | .rv64 => 2#64

/-- `hypervisor_exceptions` -/
def hypervisorExceptions : Reg := 0xF00400#64

/-- The delegable exceptions of `medeleg_csr_t::unlogged_write` that need no H. -/
def medelegExceptions : Reg := 0xB3FF#64

/-- `hedeleg_mask` -/
def hedelegMask : Reg := 0xB1FF#64

namespace Config

variable (cfg : Config)

/-! ### Masks that are fixed at construction -/

/-- `counteren_mask` -/
def counterenMask : Reg :=
  (if cfg.isa.table .zicntr then 0x7#64 else 0#64) |||
    (if cfg.isa.table .zihpm then 0xfffffff8#64 else 0#64)

/-- The fields of an `envcfg` register that come with cache-block operations. -/
def envcfgCbo : Reg :=
  (if cfg.isa.table .zicbom then envcfgCbcfeCbie else 0#64) |||
    (if cfg.isa.table .zicboz then envcfgCbze else 0#64)

/-- `menvcfg_mask` and `henvcfg_mask` -/
def envcfgMask : Reg :=
  cfg.envcfgCbo |||
    (if cfg.isa.table .svadu then envcfgHade else 0#64) |||
    (if cfg.isa.table .svpbmt then envcfgPbmte else 0#64) |||
    (if cfg.isa.table .sstc then envcfgStce else 0#64)

/-- `menvcfg_init` and `henvcfg_init` -/
def envcfgInit : Reg :=
  if cfg.isa.table .svpbmt then envcfgPbmte else 0#64

/-- `(reg_t(1) << scontext_length) - 1` -/
def scontextMask : Reg :=
  match cfg.isa.xlen with
  | .rv32 => 0xffff#64
  | .rv64 => 0x3ffffffff#64

/-- `(reg_t(1) << hcontext_length) - 1` -/
def hcontextMask : Reg :=
  match cfg.isa.xlen with
  | .rv32 => if cfg.isa.table .h then 0x7f#64 else 0x3f#64
  | .rv64 => if cfg.isa.table .h then 0x3fff#64 else 0x1fff#64

/-- `sd_bit` -/
def sdBit : Reg :=
  match cfg.isa.xlen with
  | .rv32 => 0x80000000#64
  | .rv64 => 0x8000000000000000#64

/-- `base_status_csr_t::adjust_sd` -/
def adjustSd (val : Reg) : Reg :=
  if val &&& mstatusFs = mstatusFs ∨ val &&& mstatusVs = mstatusVs ∨ val &&&
    mstatusXs = mstatusXs then
    val ||| cfg.sdBit
  else val &&& ~~~cfg.sdBit

/-- `write_mask` of `misa_csr_t`: the letters M A F D Q C H V as far as they are configured. -/
def misaWriteMask : Reg :=
  cfg.isa.maxIsa &&&
    ([Ext.m, .a, .f, .d, .q, .c, .h, .v].foldl (fun m ext => m ||| Isa.misaMask ext) 0#64)

end Config

/-- `misa_csr_t::dependency` -/
def misaDependency (val : Reg) (feature depends_on : Ext) : Reg :=
  if hasBits val (Isa.misaMask depends_on) then val else val &&& ~~~Isa.misaMask feature

namespace Hart

variable (cfg : Config) (h : Hart)

/-! ### Plain and masked objects -/

/-- `masked_csr_t::unlogged_write` -/
def maskedWrite (mask : Reg) (c : Csr) (val : Reg) : Hart :=
  h.set c (Bits.replace mask (h.reg c) val)

/-- `epc_csr_t::unlogged_write` -/
def epcWrite (c : Csr) (val : Reg) : Hart :=
  h.set c (val &&& ~~~1#64)

/-- `tvec_csr_t::unlogged_write` -/
def tvecWrite (c : Csr) (val : Reg) : Hart :=
  h.set c (val &&& ~~~2#64)

/-- `wide_counter_csr_t::unlogged_write`: corrects for the increment after the instruction. -/
def wideCounterWrite (c : Csr) (val : Reg) : Hart :=
  h.set c (val - 1#64)

/-! ### Interrupt registers -/

/-- `mip_or_mie_csr_t::write_with_mask`, and `mip_csr_t::backdoor_write_with_mask`, which does not
log. -/
def writeWithMask (c : Csr) (mask val : Reg) : Hart :=
  h.set c (Bits.replace mask (h.reg c) val)

/-- `mip_csr_t::write_mask` -/
def mipWriteMask : Reg :=
  let supervisorInts :=
    if h.extensionEnabled .s then
      mipSsip ||| (if hasBits (h.reg .menvcfg) envcfgStce then 0#64 else mipStip) ||| mipSeip
    else 0#64
  let lscofInt := if h.extensionEnabled .sscofpmf then mipLcofip else 0#64
  let vssipInt := if h.extensionEnabled .h then mipVssip else 0#64
  let hypervisorInts := if h.extensionEnabled .h then mipHsMask else 0#64
  (supervisorInts ||| hypervisorInts ||| lscofInt) &&&
    (mipSeip ||| mipSsip ||| mipStip ||| mipLcofip ||| vssipInt)

/-- `delegable_ints` of `mie_csr_t::write_mask` and `mideleg_csr_t::unlogged_write` -/
def delegableInts : Reg :=
  (if h.extensionEnabled .s then mipSsip ||| mipStip ||| mipSeip else 0#64) |||
    (if cfg.anyCustomExtensions then mipCop else 0#64) |||
    (if h.extensionEnabled .sscofpmf then mipLcofip else 0#64)

/-- `mie_csr_t::write_mask` -/
def mieWriteMask : Reg :=
  h.delegableInts cfg ||| (if h.extensionEnabled .h then mipHsMask else 0#64) |||
    mipMsip ||| mipMtip ||| mipMeip

/-- `mip_or_mie_csr_t::unlogged_write` of `mip` -/
def mipWrite (val : Reg) : Hart :=
  h.writeWithMask .mip h.mipWriteMask val

/-- `mip_or_mie_csr_t::unlogged_write` of `mie` -/
def mieWrite (val : Reg) : Hart :=
  h.writeWithMask .mie (h.mieWriteMask cfg) val

/-- `mideleg_csr_t::unlogged_write` -/
def midelegWrite (val : Reg) : Hart :=
  h.set .mideleg (val &&& h.delegableInts cfg)

/-- `medeleg_csr_t::unlogged_write` -/
def medelegWrite (val : Reg) : Hart :=
  h.maskedWrite
    (medelegExceptions ||| (if h.extensionEnabled .h then hypervisorExceptions else 0#64))
    .medeleg val

/-- `mevent_csr_t::unlogged_write` -/
def meventWrite (i : Fin 29) (val : Reg) : Hart :=
  let mask :=
    if h.extensionEnabled .sscofpmf then
      0xC000000000000000#64 |||
        (if cfg.isa.table .u then 0x1000000000000000#64 else 0#64) |||
        (if cfg.isa.table .s then 0x2000000000000000#64 else 0#64) |||
        (if h.extensionEnabled .h then 0x0C00000000000000#64 else 0#64)
    else 0#64
  h.maskedWrite mask (.mevent i) val

/-! ### Privilege and status -/

/-- `processor_t::legalize_privilege` -/
def legalizePrivilege (prv : Reg) : Reg :=
  if !h.extensionEnabled .u then prvM
  else if prv = prvHS ∨ (prv = prvS ∧ h.extensionEnabled .s = false) then prvU
  else prv

/-- `has_page` of `base_status_csr_t` -/
def hasPage : Bool :=
  cfg.isa.table .s && h.builtWithMmu

/-- `base_status_csr_t::compute_sstatus_write_mask`, evaluated when the objects are built. -/
def sstatusWriteMask : Reg :=
  let hasFs := (cfg.isa.table .s || cfg.isa.table .f || cfg.isa.table .v) && !cfg.isa.table .zfinx
  (if cfg.isa.table .s then mstatusSie ||| mstatusSpie ||| mstatusSpp else 0#64) |||
    (if h.hasPage cfg then mstatusSum ||| mstatusMxr else 0#64) |||
    (if hasFs then mstatusFs else 0#64) |||
    (if cfg.anyCustomExtensions then mstatusXs else 0#64) |||
    (if cfg.isa.table .v then mstatusVs else 0#64)

/-- `sstatus_read_mask` -/
def sstatusReadMask : Reg :=
  h.sstatusWriteMask cfg ||| mstatusUbe ||| mstatusUxl ||| cfg.sdBit

/-- `base_status_csr_t::maybe_flush_tlb`, for an object that holds `old`. -/
def maybeFlushTlb (newval old : Reg) : Hart :=
  if hasBits (newval ^^^ old)
      (mstatusMpp ||| mstatusMprv |||
        (if h.hasPage cfg then mstatusMxr ||| mstatusSum else 0#64)) then
    h.flushTlb
  else h

/-- The mask of `mstatus_csr_t::unlogged_write`. -/
def mstatusWriteMask : Reg :=
  h.sstatusWriteMask cfg ||| mstatusMie ||| mstatusMpie |||
    (if h.extensionEnabled .u then mstatusMprv else 0#64) |||
    mstatusMpp ||| mstatusTw |||
    (if h.extensionEnabled .s then mstatusTsr else 0#64) |||
    (if h.hasPage cfg then mstatusTvm else 0#64) |||
    (if h.extensionEnabled .h then mstatusGva else 0#64) |||
    (if h.extensionEnabled .h then mstatusMpv else 0#64)

/-- `new_mstatus` of `mstatus_csr_t::unlogged_write`. -/
def newMstatus (val : Reg) : Reg :=
  let requestedMpp := h.legalizePrivilege (getField val mstatusMpp)
  let adjustedVal := setField val mstatusMpp requestedMpp
  Bits.replace (h.mstatusWriteMask cfg) (h.reg .mstatus) adjustedVal

/-- `mstatus_csr_t::unlogged_write` -/
def mstatusWrite (val : Reg) : Hart :=
  (h.maybeFlushTlb cfg (h.newMstatus cfg val) (h.reg .mstatus)).set .mstatus
    (cfg.adjustSd (h.newMstatus cfg val))

/-- `vsstatus_csr_t::unlogged_write` -/
def vsstatusWrite (val : Reg) : Hart :=
  let newval := Bits.replace (h.sstatusWriteMask cfg) (h.reg .vsstatus) val
  (if h.v then h.maybeFlushTlb cfg newval (h.reg .vsstatus) else h).set .vsstatus
    (cfg.adjustSd newval)

/-- `sstatus_proxy_csr_t::read` -/
def sstatusProxyRead : Reg :=
  h.reg .mstatus &&& h.sstatusReadMask cfg

/-- `sstatus_proxy_csr_t::unlogged_write` -/
def sstatusProxyWrite (val : Reg) : Hart :=
  h.mstatusWrite cfg (Bits.replace (h.sstatusWriteMask cfg) (h.reg .mstatus) val)

/-- `sstatus_csr_t::enabled` -/
def sstatusEnabled (which : Reg) : Bool :=
  if hasBits (h.sstatusProxyRead cfg) which && (!h.v || hasBits (h.reg .vsstatus) which) then true
  -- a field that does not exist is always enabled
  else !hasBits (h.sstatusWriteMask cfg) which

/-- `sstatus_csr_t::dirty` -/
def dirty (dirties : Reg) : Hart :=
  if h.sstatusProxyRead cfg &&& dirties = dirties ∧
      (h.v = false ∨ h.reg .vsstatus &&& dirties = dirties) then h
  else
    let h₀ := if h.sstatusEnabled cfg dirties then h else h.abort
    let h₁ := h₀.sstatusProxyWrite cfg (h₀.sstatusProxyRead cfg ||| dirties)
    if h₁.v then h₁.vsstatusWrite cfg (h₁.reg .vsstatus ||| dirties) else h₁

/-- `mnstatus_csr_t::unlogged_write`: NMIE can be set but not cleared. -/
def mnstatusWrite (val : Reg) : Hart :=
  let mask := (~~~(h.reg .mnstatus) &&& mnstatusNmie) |||
    (if h.extensionEnabled .h then mnstatusMnpv else 0#64) ||| mnstatusMnpp
  let requestedMnpp := h.legalizePrivilege (getField val mnstatusMnpp)
  let adjustedVal := setField val mnstatusMnpp requestedMnpp
  h.set .mnstatus (Bits.replace mask (h.reg .mnstatus) adjustedVal)

/-- The mask of `hstatus`. -/
def hstatusMask : Reg :=
  hstatusVtsr ||| hstatusVtw ||| (if h.builtWithMmu then hstatusVtvm else 0#64) |||
    hstatusHu ||| hstatusSpvp ||| hstatusSpv ||| hstatusGva

/-! ### `misa` -/

/-- `proc->set_extension_enable(ext, enable)` -/
def setExtensionEnable (ext : Ext) (enable : Bool) : Hart :=
  { h with extTable := Function.update h.extTable ext (enable && cfg.isa.table ext) }

/-- The extensions that follow the letters of a new `misa`. -/
def updateExtensions (new_misa : Reg) : Hart :=
  let c := hasBits new_misa (Isa.misaMask .c)
  let f := hasBits new_misa (Isa.misaMask .f)
  let d := hasBits new_misa (Isa.misaMask .d)
  let v := hasBits new_misa (Isa.misaMask .v)
  let h := h.setExtensionEnable cfg .zca (c || !cfg.isa.table .c)
  let h := h.setExtensionEnable cfg .zcf (f && h.extensionEnabled .zca)
  let h := h.setExtensionEnable cfg .zcd (d && h.extensionEnabled .zca)
  let h := h.setExtensionEnable cfg .zcb (h.extensionEnabled .zca)
  let h := h.setExtensionEnable cfg .zcmp (h.extensionEnabled .zca)
  let h := h.setExtensionEnable cfg .zcmt (h.extensionEnabled .zca)
  let h := h.setExtensionEnable cfg .zfh f
  let h := h.setExtensionEnable cfg .zfhmin f
  let h := h.setExtensionEnable cfg .zvfh (v && h.extensionEnabled .zfhmin)
  h.setExtensionEnable cfg .zvfhmin v

/-- The write to `mnstatus` when H is switched off; the object exists with Smrnmi only. -/
def clearMnpv : Hart :=
  if cfg.isa.table .smrnmi then h.mnstatusWrite (h.reg .mnstatus &&& ~~~mnstatusMnpv) else h

/-- `mstatush->write(val >> 32)`, where that object exists. -/
def mstatushWrite (val : Reg) : Hart :=
  match cfg.isa.xlen with
  | .rv32 => h.mstatusWrite cfg
    ((h.reg .mstatus &&& 0xffffffff#64) ||| ((val &&& 0xffffffff#64) <<< 32))
  | .rv64 => h

/-- The hypervisor-only bits that are cleared when H is switched off. -/
def clearHypervisor : Hart :=
  let h := h.medelegWrite (h.reg .medeleg &&& ~~~hypervisorExceptions)
  let h := h.clearMnpv cfg
  let newMstatus := h.reg .mstatus &&& ~~~(mstatusGva ||| mstatusMpv)
  let h := h.mstatusWrite cfg newMstatus
  let h := h.mstatushWrite cfg (newMstatus >>> 32)
  let h := h.writeWithMask .mie mipHsMask 0#64
  let h := h.writeWithMask .mip mipHsMask 0#64
  let h := h.maskedWrite h.hstatusMask .hstatus 0#64
  (List.finRange 29).foldl
    (fun h i => h.meventWrite cfg i (h.reg (.mevent i) &&& ~~~0x0C00000000000000#64)) h

/-- `new_misa` of `misa_csr_t::unlogged_write`. -/
def newMisa (val : Reg) : Reg :=
  let adjustedVal := misaDependency val .d .f
  let adjustedVal := misaDependency adjustedVal .q .d
  let adjustedVal := misaDependency adjustedVal .v .d
  Bits.replace cfg.misaWriteMask (h.reg .misa) adjustedVal

/-- `misa_csr_t::unlogged_write`. The write is ignored if increasing IALIGN would misalign the
PC. -/
def misaWrite (val : Reg) : Hart :=
  let oldMisa := h.reg .misa
  if !hasBits val (Isa.misaMask .c) && hasBits oldMisa (Isa.misaMask .c) && hasBits h.pc 2#64 then h
  else
    let newMisa := h.newMisa cfg val
    let prevH := hasBits oldMisa (Isa.misaMask .h)
    let newH := hasBits newMisa (Isa.misaMask .h)
    let h := h.updateExtensions cfg newMisa
    let h := if !newH && prevH then h.clearHypervisor cfg else h
    h.set .misa newMisa

/-! ### Address translation -/

/-- `base_atp_csr_t::satp_valid` -/
def satpValid (val : Reg) : Bool :=
  match cfg.isa.xlen with
  | .rv32 =>
    let mode := getField val 0x80000000#64
    if mode = 1#64 then cfg.impl.sv32 else mode == 0#64
  | .rv64 =>
    let mode := getField val 0xF000000000000000#64
    if mode = 8#64 then cfg.impl.sv39
    else if mode = 9#64 then cfg.impl.sv48
    else if mode = 10#64 then cfg.impl.sv57
    else mode == 0#64

/-- `base_atp_csr_t::compute_new_satp`, for an object that holds `old`. -/
def computeNewSatp (val old : Reg) : Reg :=
  let modeMask : Reg := match cfg.isa.xlen with
    | .rv32 => 0x80000000#64
    | .rv64 => 0xF000000000000000#64
  let asidMask : Reg := match cfg.isa.xlen with
    | .rv32 => 0x7FC00000#64
    | .rv64 => 0x0FFFF00000000000#64
  let ppnMask : Reg := match cfg.isa.xlen with
    | .rv32 => 0x003FFFFF#64
    | .rv64 => 0x00000FFFFFFFFFFF#64 &&& ((1#64 <<< (maxPaddrBits - pgShift)) - 1#64)
  let newMask := (if satpValid cfg val then modeMask else 0#64) ||| asidMask ||| ppnMask
  let oldMask := if satpValid cfg val then 0#64 else modeMask
  (newMask &&& val) ||| (oldMask &&& old)

/-- `base_atp_csr_t::unlogged_write` -/
def baseAtpWrite (c : Csr) (val : Reg) : Hart :=
  let newval := if cfg.impl.mmu then computeNewSatp cfg val (h.reg c) else 0#64
  (if newval ≠ h.reg c then h.flushTlb else h).set c newval

/-- The mask of `hgatp_csr_t::unlogged_write`. -/
def hgatpMask (val : Reg) : Reg :=
  let mask : Reg := match cfg.isa.xlen with
    | .rv32 => 0x003FFFFF#64 ||| 0x80000000#64 ||| 0x1FC00000#64
    | .rv64 =>
      (0x00000FFFFFFFFFFF#64 &&& ((1#64 <<< (maxPaddrBits - pgShift)) - 1#64)) |||
        0x03FFF00000000000#64 |||
        (let mode := getField val 0xF000000000000000#64
         if mode = 0#64 ∨ (cfg.impl.sv39 ∧ mode = 8#64) ∨ (cfg.impl.sv48 ∧ mode = 9#64) ∨
            (cfg.impl.sv57 ∧ mode = 10#64) then 0xF000000000000000#64 else 0#64)
  mask &&& ~~~3#64

/-- `hgatp_csr_t::unlogged_write` -/
def hgatpWrite (val : Reg) : Hart :=
  h.flushTlb.maskedWrite (hgatpMask cfg val) .hgatp val

/-! ### Counters, triggers and debug -/

/-- `stimecmp_csr_t::unlogged_write`, with the bit of the object in `mip`. -/
def stimecmpWrite (intr_mask : Reg) (c : Csr) (val : Reg) : Hart :=
  (h.writeWithMask .mip intr_mask (if val ≤ h.timeRead then intr_mask else 0#64)).set c val

/-- `tselect_csr_t::unlogged_write` -/
def tselectWrite (val : Reg) : Hart :=
  h.set .tselect (if val.toNat < h.triggers.length then val else h.reg .tselect)

/-- What the trigger module asks the hart. -/
def triggerEnv : Trigger.Env where
  xlen := cfg.isa.xlen
  constS := cfg.isa.table .s
  constU := cfg.isa.table .u
  enabledH := h.extensionEnabled .h
  debugMode := h.debugMode

/-- The end of a successful write to the selected trigger, through
`processor_t::trigger_updated`. -/
def triggersWrite : Option Triggers → Hart
  | some ts => { h with triggers := ts }.flushTlb
  | none => h

/-- `tdata1_csr_t::unlogged_write` -/
def tdata1Write (val : Reg) : Hart :=
  h.triggersWrite (h.triggers.tdata1Write (h.triggerEnv cfg) (h.reg .tselect).toNat val)

/-- `tdata2_csr_t::unlogged_write` -/
def tdata2Write (val : Reg) : Hart :=
  h.triggersWrite (h.triggers.tdata2Write (h.triggerEnv cfg) (h.reg .tselect).toNat val)

/-- `tdata3_csr_t::unlogged_write` -/
def tdata3Write (val : Reg) : Hart :=
  h.triggersWrite (h.triggers.tdata3Write (h.triggerEnv cfg) (h.reg .tselect).toNat val)

/-- `dcsr_csr_t::unlogged_write` -/
def dcsrWrite (val : Reg) : Hart :=
  { h with
    dcsr :=
      { prv := getField val 3#64
        step := hasBits val 0x4#64
        ebreakm := hasBits val 0x8000#64
        ebreakh := hasBits val 0x4000#64
        ebreaks := hasBits val 0x2000#64
        ebreaku := hasBits val 0x1000#64
        halt := hasBits val 0x8#64
        cause := h.dcsr.cause } }

/-- The end of a successful write to the protection unit. -/
def pmpWrite : Option Pmp → Hart
  | some p => { h with pmp := p }.flushTlb
  | none => h

/-! ### Floating point and vectors -/

/-- `float_csr_t::unlogged_write` -/
def floatWrite (mask : Reg) (c : Csr) (val : Reg) : Hart :=
  (h.dirty cfg mstatusFs).maskedWrite mask c val

/-- `vector_csr_t::unlogged_write`; an object whose mask is zero is not written. -/
def vectorWrite (mask : Reg) (c : Csr) (val : Reg) : Hart :=
  if mask = 0#64 then h else (h.dirty cfg mstatusVs).set c (val &&& mask)

/-- `vxsat_csr_t::unlogged_write` -/
def vxsatWrite (val : Reg) : Hart :=
  (h.dirty cfg mstatusVs).maskedWrite 1#64 .vxsat val

/-! ### State enable -/

/-- `sstateen0_mask` -/
def sstateen0Mask : Reg :=
  (if cfg.isa.table .zfinx then 2#64 else 0#64) |||
    (if h.builtWithZcmt then 4#64 else 0#64) ||| 1#64

/-- `hstateen0_mask` and `mstateen0_mask` -/
def hstateen0Mask : Reg :=
  h.sstateen0Mask cfg ||| 0x4000000000000000#64 ||| 0x8000000000000000#64

/-- `mstateen_mask` and `hstateen_mask` -/
def hstateenMask (i : Fin 4) : Reg :=
  if i = stateen0 then h.hstateen0Mask cfg else 0x8000000000000000#64

/-- `sstateen_mask` -/
def sstateenMask (i : Fin 4) : Reg :=
  if i = stateen0 then h.sstateen0Mask cfg else 0#64

/-- `hstateen_csr_t::unlogged_write` -/
def hstateenWrite (mask : Reg) (c : Csr) (i : Fin 4) (val : Reg) : Hart :=
  h.maskedWrite mask c (val &&& h.reg (.mstateen i))

/-- `sstateen_csr_t::unlogged_write` -/
def sstateenWrite (i : Fin 4) (val : Reg) : Hart :=
  h.hstateenWrite (h.sstateenMask cfg i) (.sstateen i) i
    (if h.v then val &&& h.hstateenRead i else val)

/-! ### All objects -/

/-- `csr_t::write` of an object that holds a value. -/
def write (val : Reg) : Csr → Hart
  | .misa => h.misaWrite cfg val
  | .mstatus => h.mstatusWrite cfg val
  | .vsstatus => h.vsstatusWrite cfg val
  | .mnstatus => h.mnstatusWrite val
  | .mepc => h.epcWrite .mepc val
  | .sepc => h.epcWrite .sepc val
  | .vsepc => h.epcWrite .vsepc val
  | .dpc => h.epcWrite .dpc val
  | .mnepc => h.epcWrite .mnepc val
  | .mtvec => h.tvecWrite .mtvec val
  | .stvec => h.tvecWrite .stvec val
  | .vstvec => h.tvecWrite .vstvec val
  | .minstret => h.wideCounterWrite .minstret val
  | .mcycle => h.wideCounterWrite .mcycle val
  | .time => h
  | .mevent i => h.meventWrite cfg i val
  | .mie => h.mieWrite cfg val
  | .mip => h.mipWrite val
  | .medeleg => h.medelegWrite val
  | .mideleg => h.midelegWrite cfg val
  | .mcounteren => h.maskedWrite cfg.counterenMask .mcounteren val
  | .scounteren => h.maskedWrite cfg.counterenMask .scounteren val
  | .hcounteren => h.maskedWrite cfg.counterenMask .hcounteren val
  | .satp => h.baseAtpWrite cfg .satp val
  | .vsatp => h.baseAtpWrite cfg .vsatp val
  | .hgatp => h.hgatpWrite cfg val
  | .hstatus => h.maskedWrite h.hstatusMask .hstatus val
  | .hideleg => h.maskedWrite mipVsMask .hideleg val
  | .hedeleg => h.maskedWrite hedelegMask .hedeleg val
  | .tselect => h.tselectWrite val
  | .scontext => h.maskedWrite cfg.scontextMask .scontext val
  | .hcontext => h.maskedWrite cfg.hcontextMask .hcontext val
  | .menvcfg => h.maskedWrite cfg.envcfgMask .menvcfg val
  | .henvcfg => h.maskedWrite cfg.envcfgMask .henvcfg val
  | .senvcfg => h.maskedWrite cfg.envcfgCbo .senvcfg val
  | .mstateen i => h.maskedWrite (h.hstateenMask cfg i) (.mstateen i) val
  | .hstateen i => h.hstateenWrite (h.hstateenMask cfg i) (.hstateen i) i val
  | .sstateen i => h.sstateenWrite cfg i val
  | .stimecmp => h.stimecmpWrite mipStip .stimecmp val
  | .vstimecmp => h.stimecmpWrite mipVstip .vstimecmp val
  | .fflags => h.floatWrite cfg 0x1f#64 .fflags val
  | .frm => h.floatWrite cfg 7#64 .frm val
  | .vxsat => h.vxsatWrite cfg val
  | .vstart => h.vectorWrite cfg (cfg.vlen - 1#64) .vstart val
  | .vxrm => h.vectorWrite cfg 3#64 .vxrm val
  | .vl => h.vectorWrite cfg 0#64 .vl val
  | .vtype => h.vectorWrite cfg 0#64 .vtype val
  | .vlenb => h.vectorWrite cfg 0#64 .vlenb val
  | c => h.set c val

/-- `written_value()` of an object: the counters adjust for the increment to come. -/
def writtenValue : Csr → Reg
  | .minstret => h.reg .minstret + 1#64
  | .mcycle => h.reg .mcycle + 1#64
  | c => h.read c

end Hart

end Nnemu

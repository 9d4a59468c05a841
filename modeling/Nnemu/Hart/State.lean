import Nnemu.Isa.Extension
import Nnemu.Lib.Mask
import Nnemu.Mmu.Walk
import Nnemu.Trigger.Basic
import Mathlib.Logic.Function.Basic

/-!
# The state of a hart

`state_t` and the parts of `processor_t` that the privileged architecture acts on. Every CSR object
that holds a value of its own is a constructor of `Csr`; the objects that are views of others
(`sstatus`, `sip`, the halves of RV32) come later, on top of these. `Hart.read` is the method `read`
of an object, with the overrides of its class.
-/

namespace Nnemu

/-! ### Constants -/

/-- `PRV_HS` -/
def prvHS : Reg := 2#64

/-- `MSTATUS_SIE` -/
def mstatusSie : Reg := 0x2#64
/-- `MSTATUS_MIE` -/
def mstatusMie : Reg := 0x8#64
/-- `MSTATUS_SPIE` -/
def mstatusSpie : Reg := 0x20#64
/-- `MSTATUS_UBE`, `SSTATUS_UBE` -/
def mstatusUbe : Reg := 0x40#64
/-- `MSTATUS_MPIE` -/
def mstatusMpie : Reg := 0x80#64
/-- `MSTATUS_SPP` -/
def mstatusSpp : Reg := 0x100#64
/-- `SSTATUS_VS` -/
def mstatusVs : Reg := 0x600#64
/-- `SSTATUS_FS` -/
def mstatusFs : Reg := 0x6000#64
/-- `SSTATUS_XS` -/
def mstatusXs : Reg := 0x18000#64
/-- `MSTATUS_TVM` -/
def mstatusTvm : Reg := 0x100000#64
/-- `MSTATUS_TW` -/
def mstatusTw : Reg := 0x200000#64
/-- `MSTATUS_TSR` -/
def mstatusTsr : Reg := 0x400000#64
/-- `MSTATUS_UXL`, `SSTATUS_UXL` -/
def mstatusUxl : Reg := 0x300000000#64
/-- `MSTATUS_SXL` -/
def mstatusSxl : Reg := 0xC00000000#64
/-- `MSTATUS_SBE` -/
def mstatusSbe : Reg := 0x1000000000#64
/-- `MSTATUS_MBE` -/
def mstatusMbe : Reg := 0x2000000000#64
/-- `MSTATUS_GVA` -/
def mstatusGva : Reg := 0x4000000000#64

/-- `HSTATUS_VSXL` -/
def hstatusVsxl : Reg := 0x300000000#64
/-- `HSTATUS_VTSR` -/
def hstatusVtsr : Reg := 0x400000#64
/-- `HSTATUS_VTW` -/
def hstatusVtw : Reg := 0x200000#64
/-- `HSTATUS_VTVM` -/
def hstatusVtvm : Reg := 0x100000#64
/-- `HSTATUS_HU` -/
def hstatusHu : Reg := 0x200#64
/-- `HSTATUS_SPV` -/
def hstatusSpv : Reg := 0x80#64
/-- `HSTATUS_GVA` -/
def hstatusGva : Reg := 0x40#64

/-- `MNSTATUS_MNPP` -/
def mnstatusMnpp : Reg := 0x1800#64
/-- `MNSTATUS_MNPV` -/
def mnstatusMnpv : Reg := 0x80#64

/-- `MENVCFG_STCE`, `HENVCFG_STCE` -/
def envcfgStce : Reg := 0x8000000000000000#64
/-- `MENVCFG_CBCFE | MENVCFG_CBIE` and the same bits of `henvcfg` and `senvcfg` -/
def envcfgCbcfeCbie : Reg := 0x70#64
/-- `MENVCFG_CBZE`, `HENVCFG_CBZE`, `SENVCFG_CBZE` -/
def envcfgCbze : Reg := 0x80#64

/-- `MIP_SSIP` -/
def mipSsip : Reg := 0x2#64
/-- `MIP_VSSIP` -/
def mipVssip : Reg := 0x4#64
/-- `MIP_MSIP` -/
def mipMsip : Reg := 0x8#64
/-- `MIP_STIP` -/
def mipStip : Reg := 0x20#64
/-- `MIP_VSTIP` -/
def mipVstip : Reg := 0x40#64
/-- `MIP_MTIP` -/
def mipMtip : Reg := 0x80#64
/-- `MIP_SEIP` -/
def mipSeip : Reg := 0x200#64
/-- `MIP_VSEIP` -/
def mipVseip : Reg := 0x400#64
/-- `MIP_MEIP` -/
def mipMeip : Reg := 0x800#64
/-- `MIP_SGEIP` -/
def mipSgeip : Reg := 0x1000#64
/-- `MIP_LCOFIP` -/
def mipLcofip : Reg := 0x2000#64
/-- `MIP_VS_MASK` -/
def mipVsMask : Reg := mipVssip ||| mipVstip ||| mipVseip
/-- `MIP_HS_MASK`, also `MIDELEG_FORCED_MASK` -/
def mipHsMask : Reg := mipVsMask ||| mipSgeip
/-- `(reg_t)1 << IRQ_COP` -/
def mipCop : Reg := 0x1000#64

/-- `DEBUG_ROM_ENTRY` -/
def debugRomEntry : Reg := 0x800#64
/-- `DEBUG_ROM_TVEC` -/
def debugRomTvec : Reg := 0x808#64
/-- `DEFAULT_RSTVEC` -/
def defaultRstvec : Reg := 0x1000#64

/-! ### Configuration -/

/-- The entries of `impl_table` for the memory management unit. `IMPL_MMU_ASID` and `IMPL_MMU_VMID`
are always set. -/
structure ImplTable where
  sv32 : Bool
  sv39 : Bool
  sv48 : Bool
  sv57 : Bool
  /-- `IMPL_MMU` -/
  mmu : Bool

/-- What is fixed for a hart once the machine is built. -/
structure Config where
  isa : Isa
  /-- `supports_impl` -/
  impl : ImplTable
  /-- `get_id()` -/
  id : Reg
  /-- `is_target_big_endian()` -/
  bigEndian : Bool
  /-- `trigger_count` -/
  triggerCount : Nat
  /-- `n_pmp` and the granularity, with the entries as constructed -/
  pmp : Pmp
  /-- `VU.VLEN` and `VU.vlenb` -/
  vlen : Reg
  vlenb : Reg

/-- `any_custom_extensions()` -/
def Config.anyCustomExtensions (cfg : Config) : Bool :=
  !cfg.isa.extensions.isEmpty

/-! ### The hart -/

/-- The CSR objects that hold a value. Where a register is virtualized the name is that of the
object for `V = 0`. -/
inductive Csr where
  | misa | mstatus | mepc | mtval | mscratch | mtvec | mcause | minstret | mcycle | time
  | mevent (i : Fin 29)
  | mie | mip | medeleg | mideleg | mcounteren | scounteren
  | sepc | vsepc | stval | vstval | sscratch | vsscratch | stvec | vstvec | satp | vsatp
  | scause | vscause | vsstatus
  | mtval2 | mtinst | hstatus | hideleg | hedeleg | hcounteren | htimedelta | htval | htinst | hgatp
  | dpc | dscratch0 | dscratch1 | tselect | scontext | hcontext
  | menvcfg | senvcfg | henvcfg
  | mstateen (i : Fin 4) | hstateen (i : Fin 4) | sstateen (i : Fin 4)
  | mnscratch | mnepc | mnstatus | stimecmp | vstimecmp | jvt
  | fflags | frm | vxsat | vstart | vxrm | vl | vtype | vlenb
deriving DecidableEq

/-- The first of the state-enable registers. -/
def stateen0 : Fin 4 := 0

/-- The fields of `dcsr_csr_t`. -/
structure Dcsr where
  prv : Reg
  step : Bool
  ebreakm : Bool
  ebreakh : Bool
  ebreaks : Bool
  ebreaku : Bool
  halt : Bool
  cause : Reg

/-- `state_t::single_step` -/
inductive SingleStep where
  | none
  | stepping
  | stepped
deriving DecidableEq

/-- `halt_request` -/
inductive HaltRequest where
  | none
  | regular
  | group
deriving DecidableEq

/-- One hart. -/
structure Hart where
  pc : Reg
  prv : Reg
  v : Bool
  /-- the value each CSR object holds -/
  reg : Csr → Reg
  dcsr : Dcsr
  pmp : Pmp
  triggers : Triggers
  /-- `extension_enable_table`, of which the letters are not used -/
  extTable : ExtTable
  /-- `supports_impl(IMPL_MMU)` when the CSR objects were built -/
  builtWithMmu : Bool
  /-- `extension_enabled(EXT_ZCMT)` when the CSR objects were built -/
  builtWithZcmt : Bool
  debugMode : Bool
  singleStep : SingleStep
  inWfi : Bool
  /-- how often `flush_tlb()` was called -/
  tlbFlushes : Nat
  /-- `abort()` was called -/
  aborted : Bool

namespace Hart

variable (h : Hart)

/-- Store the value of a CSR object. -/
def set (c : Csr) (val : Reg) : Hart :=
  { h with reg := Function.update h.reg c val }

/-- `mmu->flush_tlb()` -/
def flushTlb : Hart :=
  { h with tlbFlushes := h.tlbFlushes + 1 }

/-- `abort()` -/
def abort : Hart :=
  { h with aborted := true }

/-- `processor_t::extension_enabled`: letters are read from `misa`. -/
def extensionEnabled (ext : Ext) : Bool :=
  match ext.misaBit with
  | some b => (h.reg .misa).getLsbD b
  | none => h.extTable ext

/-- `processor_t::pc_alignment_mask` -/
def pcAlignmentMask : Reg :=
  if h.extensionEnabled .zca then ~~~0#64 else ~~~2#64

/-! ### `read` -/

/-- `mideleg_csr_t::read` -/
def midelegRead : Reg :=
  if h.extensionEnabled .h then h.reg .mideleg ||| mipHsMask else h.reg .mideleg

/-- `hideleg_csr_t::read` -/
def hidelegRead : Reg :=
  h.reg .hideleg &&& h.midelegRead

/-- `henvcfg_csr_t::read` -/
def henvcfgRead : Reg :=
  (h.reg .menvcfg ||| ~~~(envcfgPbmte ||| envcfgStce ||| envcfgHade)) &&& h.reg .henvcfg

/-- `hstateen_csr_t::read` -/
def hstateenRead (i : Fin 4) : Reg :=
  h.reg (.hstateen i) &&& h.reg (.mstateen i)

/-- `sstateen_csr_t::read` -/
def sstateenRead (i : Fin 4) : Reg :=
  if h.v then h.reg (.sstateen i) &&& h.reg (.mstateen i) &&& h.hstateenRead i
  else h.reg (.sstateen i) &&& h.reg (.mstateen i)

/-- `time_counter_csr_t::read`: in VS or VU mode the sum of `htimedelta` and the actual value. -/
def timeRead : Reg :=
  if h.v then h.reg .time + h.reg .htimedelta else h.reg .time

/-- The method `read` of an object. -/
def read : Csr → Reg
  | .mepc => h.reg .mepc &&& h.pcAlignmentMask
  | .sepc => h.reg .sepc &&& h.pcAlignmentMask
  | .vsepc => h.reg .vsepc &&& h.pcAlignmentMask
  | .dpc => h.reg .dpc &&& h.pcAlignmentMask
  | .mnepc => h.reg .mnepc &&& h.pcAlignmentMask
  | .mideleg => h.midelegRead
  | .hideleg => h.hidelegRead
  | .henvcfg => h.henvcfgRead
  | .hstateen i => h.hstateenRead i
  | .sstateen i => h.sstateenRead i
  | .time => h.timeRead
  | c => h.reg c

/-! ### What an update leaves alone -/

@[simp] theorem reg_set (c c' : Csr) (val : Reg) :
    (h.set c val).reg c' = if c' = c then val else h.reg c' := by
  exact Function.update_apply h.reg c val c'

@[simp] theorem pc_set (c : Csr) (val : Reg) : (h.set c val).pc = h.pc := rfl
@[simp] theorem prv_set (c : Csr) (val : Reg) : (h.set c val).prv = h.prv := rfl
@[simp] theorem v_set (c : Csr) (val : Reg) : (h.set c val).v = h.v := rfl
@[simp] theorem dcsr_set (c : Csr) (val : Reg) : (h.set c val).dcsr = h.dcsr := rfl
@[simp] theorem extTable_set (c : Csr) (val : Reg) : (h.set c val).extTable = h.extTable := rfl
@[simp] theorem builtWithMmu_set (c : Csr) (val : Reg) :
    (h.set c val).builtWithMmu = h.builtWithMmu := rfl
@[simp] theorem debugMode_set (c : Csr) (val : Reg) : (h.set c val).debugMode = h.debugMode := rfl

@[simp] theorem reg_flushTlb : h.flushTlb.reg = h.reg := rfl
@[simp] theorem pc_flushTlb : h.flushTlb.pc = h.pc := rfl
@[simp] theorem prv_flushTlb : h.flushTlb.prv = h.prv := rfl
@[simp] theorem v_flushTlb : h.flushTlb.v = h.v := rfl
@[simp] theorem dcsr_flushTlb : h.flushTlb.dcsr = h.dcsr := rfl
@[simp] theorem extTable_flushTlb : h.flushTlb.extTable = h.extTable := rfl
@[simp] theorem builtWithMmu_flushTlb : h.flushTlb.builtWithMmu = h.builtWithMmu := rfl
@[simp] theorem debugMode_flushTlb : h.flushTlb.debugMode = h.debugMode := rfl

end Hart

end Nnemu

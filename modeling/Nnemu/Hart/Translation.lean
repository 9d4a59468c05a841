import Nnemu.Hart.Access
import Nnemu.Mmu.Walk

/-!
# What translation reads of a hart

The walker and the rules for the mode of an access are stated over a `Regime` and a `Privilege`.
These are those of a hart.
-/

namespace Nnemu

namespace Hart

/-- What a translation reads of the hart. -/
def regime (cfg : Config) (h : Hart) : Regime where
  xlen := cfg.isa.xlen
  svnapot := h.extensionEnabled .svnapot
  satp := h.read .satp
  vsatp := h.read .vsatp
  hgatp := h.read .hgatp
  sstatus := h.sstatusProxyRead cfg
  vsstatus := h.read .vsstatus
  menvcfg := h.read .menvcfg
  henvcfg := h.read .henvcfg
  pmp := h.pmp
  debugMode := h.debugMode

/-- The state from which `translate` derives the mode of an access. -/
def privilege (cfg : Config) (h : Hart) : Privilege where
  prv := h.prv
  v := h.v
  mstatus := h.reg .mstatus
  mnstatus := if cfg.isa.table .smrnmi then some (h.reg .mnstatus) else none
  hstatus := h.reg .hstatus
  debugMode := h.debugMode

end Hart

end Nnemu

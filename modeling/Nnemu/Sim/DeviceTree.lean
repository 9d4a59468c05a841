import Nnemu.Hart.Machine

/-!
# What the device tree says about a hart

`sim_t::sim_t` builds its processors first and sets their attributes afterwards, one `cpu` node
after the other: the number and the granularity of the protection regions and the modes of address
translation. The constructor of a processor has set all of them before. `set_mmu_capability` adds
modes; only a capability that is none of the four takes modes away.
-/

namespace Nnemu

/-- A node below `/cpus`, by the values of the properties that are read. -/
structure CpuNode where
  /-- `device_type` -/
  deviceType : Option (List Char)
  /-- `riscv,pmpregions` -/
  pmpRegions : Option Reg
  /-- `riscv,pmpgranularity` -/
  pmpGranularity : Option Reg
  /-- `mmu-type` -/
  mmuType : Option (List Char)

/-- A device tree, as far as its processors go: the nodes below `/cpus`, if there is one. -/
structure DeviceTree where
  cpus : Option (List CpuNode)

/-- How the construction of the simulator ends early. -/
inductive Failure where
  | abort
  | exit

/-- The `IMPL_MMU_*` that `set_mmu_capability` knows. -/
inductive MmuCap where
  | sv32
  | sv39
  | sv48
  | sv57
  | other

/-- The values of `mmu-type`. -/
inductive MmuType where
  | sbare
  | sv32
  | sv39
  | sv48
  | sv57
deriving DecidableEq

/-! ### Processors -/

/-- The attributes of a processor that the device tree can set. -/
structure Proc where
  impl : ImplTable
  /-- `n_pmp` -/
  nPmp : Nat
  /-- `lg_pmp_granularity` -/
  lgPmpGranularity : Nat

/-- `processor_t::set_mmu_capability` on `impl_table` -/
def ImplTable.setMmuCapability (table : ImplTable) : MmuCap → ImplTable
  | .sv32 => { table with sv32 := true, mmu := true }
  | .sv57 => { table with sv57 := true, sv48 := true, sv39 := true, mmu := true }
  | .sv48 => { table with sv48 := true, sv39 := true, mmu := true }
  | .sv39 => { table with sv39 := true, mmu := true }
  | .other => ⟨false, false, false, false, false⟩

namespace Proc

variable (proc : Proc)

/-- `processor_t::set_mmu_capability` -/
def setMmuCapability (cap : MmuCap) : Proc :=
  { proc with impl := proc.impl.setMmuCapability cap }

/-- `processor_t::set_pmp_num` -/
def setPmpNum (n : Reg) : Except Failure Proc :=
  if maxPmp < n.toNat then .error .abort else .ok { proc with nPmp := n.toNat }

/-- `processor_t::set_pmp_granularity`, with `ctz` of a power of two. -/
def setPmpGranularity (gran : Reg) : Except Failure Proc :=
  if gran < 4#64 ∨ gran &&& (gran - 1#64) ≠ 0#64 then .error .abort
  else .ok { proc with lgPmpGranularity := gran.toNat.log2 }

/-- `processor_t::processor_t`, as far as these attributes go: an `impl_table` without entries, the
PMP regions of the command line and every mode of the register width. -/
def construct (xlen : Xlen) (pmpregions : Reg) : Except Failure Proc := do
  let proc : Proc := ⟨⟨false, false, false, false, false⟩, 0, 0⟩
  let proc ← proc.setPmpGranularity 4#64
  let proc ← proc.setPmpNum pmpregions
  match xlen with
  | .rv32 => .ok (proc.setMmuCapability .sv32)
  | .rv64 => .ok (proc.setMmuCapability .sv57)

end Proc

/-! ### Properties -/

/-- `strncmp(s, literal, strlen(literal)) == 0` -/
def startsWith (s : List Char) (literal : String) : Bool :=
  literal.toList.isPrefixOf s

namespace CpuNode

variable (node : CpuNode)

/-- `check_cpu_node` -/
def checkCpuNode : Bool :=
  match node.deviceType with
  | none => false
  | some prop => !prop.isEmpty && startsWith prop "cpu"

/-- `fdt_parse_pmp_num` -/
def fdtParsePmpNum : Option Reg :=
  if node.checkCpuNode then node.pmpRegions else none

/-- `fdt_parse_pmp_alignment` -/
def fdtParsePmpAlignment : Option Reg :=
  if node.checkCpuNode then node.pmpGranularity else none

/-- `fdt_parse_mmu_type` -/
def fdtParseMmuType : Option (List Char) :=
  if node.checkCpuNode then node.mmuType.filter (!·.isEmpty) else none

end CpuNode

/-- The type a property names by its first characters. -/
def mmuTypeOf (mmu_type : List Char) : Option MmuType :=
  if startsWith mmu_type "riscv,sv32" then some .sv32
  else if startsWith mmu_type "riscv,sv39" then some .sv39
  else if startsWith mmu_type "riscv,sv48" then some .sv48
  else if startsWith mmu_type "riscv,sv57" then some .sv57
  else if startsWith mmu_type "riscv,sbare" then some .sbare
  else none

/-- `default_mmu` -/
def defaultMmu : Xlen → MmuType
  | .rv32 => .sv32
  | .rv64 => .sv39

/-! ### The constructor of the simulator -/

namespace Proc

variable (proc : Proc)

/-- Set the capability of a type. For `riscv,sbare` nothing is done: it "has been set in the
beginning". -/
def setMmuType : MmuType → Proc
  | .sv32 => proc.setMmuCapability .sv32
  | .sv39 => proc.setMmuCapability .sv39
  | .sv48 => proc.setMmuCapability .sv48
  | .sv57 => proc.setMmuCapability .sv57
  | .sbare => proc

/-- The granularity of the protection regions, where the node gives one. -/
def handleAlignment : Option Reg → Except Failure Proc
  | some gran => proc.setPmpGranularity gran
  | none => .ok proc

/-- The type of the node, on top of the default. -/
def handleMmuType (xlen : Xlen) (mmu_type : Option (List Char)) : Except Failure Proc :=
  let proc := proc.setMmuType (defaultMmu xlen)
  match mmu_type with
  | some s =>
    match mmuTypeOf s with
    | some mmuType => .ok (proc.setMmuType mmuType)
    | none => .error .exit
  | none => .ok proc

/-- One round of the loop over the `cpu` nodes. -/
def configure (xlen : Xlen) (node : CpuNode) : Except Failure Proc := do
  let proc ← proc.setPmpNum (node.fdtParsePmpNum.getD 0#64)
  let proc ← proc.handleAlignment node.fdtParsePmpAlignment
  proc.handleMmuType xlen node.fdtParseMmuType

end Proc

/-- The loop over the `cpu` nodes: one node for each processor, further nodes are not read. -/
def perCore (xlen : Xlen) : List CpuNode → List Proc → Except Failure (List Proc)
  | _, [] => .ok []
  | [], _ :: _ => .error .exit
  | node :: nodes, proc :: procs => do
    let proc ← proc.configure xlen node
    let procs ← perCore xlen nodes procs
    .ok (proc :: procs)

/-- `sim_t::sim_t`, as far as the attributes of the processors go. -/
def simCores (xlen : Xlen) (pmpregions : Reg) (nprocs : Nat) (dtb : Option DeviceTree) :
    Except Failure (List Proc) := do
  let proc ← Proc.construct xlen pmpregions
  let procs := List.replicate nprocs proc
  match dtb with
  -- when running without a dtb, skip the fdt-based configuration steps
  | none => .ok procs
  | some tree =>
    match tree.cpus with
    | none => .ok procs
    | some nodes => perCore xlen nodes procs

end Nnemu

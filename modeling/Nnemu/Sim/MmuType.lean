import Nnemu.Hart.Flow
import Nnemu.Hart.Privilege
import Nnemu.Hart.Register
import Nnemu.Hart.Translation
import Nnemu.Sim.DeviceTree

/-!
# Translation modes and the type of a processor

The type that a `cpu` node gives in `mmu-type` is meant as the largest translation mode of its
processor. The capabilities are those of the constructor all the same, since setting a type only
adds modes: after every device tree that is accepted a processor has every mode of its register
width (`full_simCores`). So the modes stay within the type as long as no program asks for a larger
one (`atpOk_iff`); the rest of address translation is in order anyway.

The first part is about the processors of an accepted tree: whatever the nodes say, their
capabilities are full. The second is about the mode fields of `satp` and `vsatp`: a write keeps the
old mode unless the new one is supported, so a mode stays within the type as long as the modes
written are within it or not supported at all (`InLimit`), and what translation reads is a mode it
knows (`AtpOk`).
-/

namespace Nnemu

/-! ### Capabilities -/

/-- Every mode of a register width. -/
structure ImplTable.Full (xlen : Xlen) (table : ImplTable) : Prop where
  mmu : table.mmu = true
  rv32 : xlen = .rv32 → table.sv32 = true
  rv64 : xlen = .rv64 → table.sv39 = true ∧ table.sv48 = true ∧ table.sv57 = true

namespace ImplTable.Full

variable {xlen : Xlen} {table : ImplTable}

/-- A capability that is added takes nothing away. -/
theorem setMmuCapability (full : table.Full xlen) (cap : MmuCap) (hcap : cap ≠ .other) :
    (table.setMmuCapability cap).Full xlen := by
  have h64 := full.rv64
  cases cap with
  | sv32 => exact ⟨rfl, fun _ => rfl, h64⟩
  | sv39 => exact ⟨rfl, full.rv32, fun hx => ⟨rfl, (h64 hx).2⟩⟩
  | sv48 => exact ⟨rfl, full.rv32, fun hx => ⟨rfl, rfl, (h64 hx).2.2⟩⟩
  | sv57 => exact ⟨rfl, full.rv32, fun _ => ⟨rfl, rfl, rfl⟩⟩
  | other => exact absurd rfl hcap

end ImplTable.Full

namespace Proc

variable {xlen : Xlen} {proc proc' : Proc}

theorem setMmuType_full (full : proc.impl.Full xlen) (mmuType : MmuType) :
    (proc.setMmuType mmuType).impl.Full xlen := by
  cases mmuType with
  | sbare => exact full
  | sv32 => exact full.setMmuCapability .sv32 nofun
  | sv39 => exact full.setMmuCapability .sv39 nofun
  | sv48 => exact full.setMmuCapability .sv48 nofun
  | sv57 => exact full.setMmuCapability .sv57 nofun

theorem setPmpNum_impl {n : Reg} (hok : proc.setPmpNum n = .ok proc') : proc'.impl = proc.impl := by
  rw [setPmpNum] at hok
  split at hok
  · cases hok
  · cases hok
    rfl

theorem setPmpGranularity_impl {gran : Reg} (hok : proc.setPmpGranularity gran = .ok proc') :
    proc'.impl = proc.impl := by
  rw [setPmpGranularity] at hok
  split at hok
  · cases hok
  · cases hok
    rfl

end Proc

/-- A computation that ends well has ended well before. -/
theorem Failure.bind_ok {α β : Type} {x : Except Failure α} {f : α → Except Failure β} {r : β}
    (hok : (x >>= f) = .ok r) : ∃ a, x = .ok a ∧ f a = .ok r := by
  cases x with
  | error e => cases hok
  | ok a => exact ⟨a, rfl, hok⟩

namespace Proc

variable {xlen : Xlen} {proc proc' : Proc}

/-- The constructor sets every mode. -/
theorem construct_full {pmpregions : Reg} (hok : Proc.construct xlen pmpregions = .ok proc) :
    proc.impl.Full xlen := by
  obtain ⟨proc₁, -, hok⟩ := Failure.bind_ok hok
  obtain ⟨proc₂, -, hok⟩ := Failure.bind_ok hok
  cases xlen with
  | rv32 =>
    cases hok
    exact ⟨rfl, fun _ => rfl, nofun⟩
  | rv64 =>
    cases hok
    exact ⟨rfl, nofun, fun _ => ⟨rfl, rfl, rfl⟩⟩

theorem handleAlignment_impl {gran : Option Reg} (hok : proc.handleAlignment gran = .ok proc') :
    proc'.impl = proc.impl := by
  cases gran with
  | some gran => exact setPmpGranularity_impl hok
  | none =>
    cases hok
    rfl

theorem handleMmuType_full (full : proc.impl.Full xlen) {mmu_type : Option (List Char)}
    (hok : proc.handleMmuType xlen mmu_type = .ok proc') : proc'.impl.Full xlen := by
  have hdefault : (proc.setMmuType (defaultMmu xlen)).impl.Full xlen := setMmuType_full full _
  unfold handleMmuType at hok
  dsimp only at hok
  split at hok
  · split at hok
    · cases hok
      exact setMmuType_full hdefault _
    · cases hok
  · cases hok
    exact hdefault

theorem configure_full (full : proc.impl.Full xlen) {node : CpuNode}
    (hok : proc.configure xlen node = .ok proc') :
    proc'.impl.Full xlen := by
  obtain ⟨proc₁, hnum, hok⟩ := Failure.bind_ok hok
  obtain ⟨proc₂, halignment, hok⟩ := Failure.bind_ok hok
  have himpl : proc₂.impl = proc.impl :=
    (handleAlignment_impl halignment).trans (setPmpNum_impl hnum)
  exact handleMmuType_full (himpl ▸ full) hok

end Proc

theorem perCore_full {xlen : Xlen} {nodes : List CpuNode} {procs procs' : List Proc}
    (full : ∀ proc ∈ procs, proc.impl.Full xlen) (hok : perCore xlen nodes procs = .ok procs') :
    ∀ proc ∈ procs', proc.impl.Full xlen := by
  induction procs generalizing nodes procs' with
  | nil =>
    cases nodes <;> cases hok <;> exact full
  | cons proc procs ih =>
    cases nodes with
    | nil => cases hok
    | cons node nodes =>
      obtain ⟨proc', hproc, hok⟩ := Failure.bind_ok hok
      obtain ⟨procs'', hprocs, hok⟩ := Failure.bind_ok hok
      cases hok
      rintro p (_ | ⟨_, hp⟩)
      · exact Proc.configure_full (full proc List.mem_cons_self) hproc
      · exact ih (fun p hp => full p (List.mem_cons_of_mem _ hp)) hprocs p hp

/-- **Every processor has every mode of its register width**, whatever its type. -/
theorem full_simCores {xlen : Xlen} {pmpregions : Reg} {nprocs : Nat} {dtb : Option DeviceTree}
    {procs : List Proc}
    (hok : simCores xlen pmpregions nprocs dtb = .ok procs) {proc : Proc} (hp : proc ∈ procs) :
    proc.impl.Full xlen := by
  obtain ⟨proc₀, hconstruct, hok⟩ := Failure.bind_ok hok
  have full₀ : ∀ proc ∈ List.replicate nprocs proc₀, proc.impl.Full xlen := by
    intro proc hp
    rw [List.eq_of_mem_replicate hp]
    exact Proc.construct_full hconstruct
  dsimp only at hok
  split at hok
  · cases hok
    exact full₀ proc hp
  · split at hok
    · cases hok
      exact full₀ proc hp
    · exact perCore_full full₀ hok proc hp

/-! ### Modes by size -/

/-- Bare, Sv32, Sv39, Sv48, Sv57 -/
def MmuType.rank : MmuType → Nat
  | sbare => 0
  | sv32 => 1
  | sv39 => 2
  | sv48 => 3
  | sv57 => 4

/-- The mode of a value of `satp` or `vsatp` on the same scale; 5 for what is no mode. -/
def atpRank (xlen : Xlen) (atp : Reg) : Nat :=
  match xlen with
  | .rv32 => if getField atp 0x80000000#64 = 0#64 then 0 else 1
  | .rv64 =>
    let mode := getField atp 0xF000000000000000#64
    if mode = 0#64 then 0
    else if mode = 8#64 then 2
    else if mode = 9#64 then 3
    else if mode = 10#64 then 4
    else 5

/-- The type of a processor: that of its node, or the default. -/
def CpuNode.limit (xlen : Xlen) (node : CpuNode) : MmuType :=
  (node.fdtParseMmuType.bind mmuTypeOf).getD (defaultMmu xlen)

/-- The field `MODE` of the register width. -/
def modeMask : Xlen → Reg
  | .rv32 => 0x80000000#64
  | .rv64 => 0xF000000000000000#64

/-- The other fields, `ASID` and `PPN`. -/
def fieldsMask : Xlen → Reg
  | .rv32 => 0x7FFFFFFF#64
  | .rv64 => 0x0FFFFFFFFFFFFFFF#64

theorem atpRank_congr {xlen : Xlen} {x y : Reg} (h : x &&& modeMask xlen = y &&& modeMask xlen) :
    atpRank xlen x = atpRank xlen y := by
  cases xlen with
  | rv32 =>
    have hfield : getField x 0x80000000#64 = getField y 0x80000000#64 := getField_congr h
    rw [atpRank, atpRank, hfield]
  | rv64 =>
    have hfield : getField x 0xF000000000000000#64 = getField y 0xF000000000000000#64 :=
      getField_congr h
    rw [atpRank, atpRank, hfield]

@[simp] theorem atpRank_zero (xlen : Xlen) : atpRank xlen 0#64 = 0 := by
  cases xlen <;> decide

namespace Hart

variable {cfg : Config} {h h' : Hart}

/-- What a write of `satp` leaves: a supported mode, else the old one, and the other fields. -/
theorem computeNewSatp_eq (cfg : Config) (val old : Reg) :
    computeNewSatp cfg val old =
      ((if satpValid cfg val then val else old) &&& modeMask cfg.isa.xlen) |||
      (val &&& fieldsMask cfg.isa.xlen) := by
  unfold computeNewSatp
  cases hx : cfg.isa.xlen with
  | rv32 =>
    cases hv : satpValid cfg val with
    | true =>
      simp only [if_true, BitVec.zero_and, BitVec.or_zero]
      rw [← BitVec.and_or_distrib_left, BitVec.and_comm]
      rfl
    | false =>
      simp only [if_false, Bool.false_eq_true]
      rw [BitVec.or_comm, BitVec.and_comm _ old, BitVec.and_comm _ val]
      rfl
  | rv64 =>
    cases hv : satpValid cfg val with
    | true =>
      simp only [if_true, BitVec.zero_and, BitVec.or_zero]
      rw [← BitVec.and_or_distrib_left, BitVec.and_comm]
      rfl
    | false =>
      simp only [if_false, Bool.false_eq_true]
      rw [BitVec.or_comm, BitVec.and_comm _ old, BitVec.and_comm _ val]
      rfl

theorem atpRank_computeNewSatp (cfg : Config) (val old : Reg) :
    atpRank cfg.isa.xlen (computeNewSatp cfg val old) =
    if satpValid cfg val then atpRank cfg.isa.xlen val else atpRank cfg.isa.xlen old := by
  have hmode : computeNewSatp cfg val old &&& modeMask cfg.isa.xlen =
      (if satpValid cfg val then val else old) &&& modeMask cfg.isa.xlen := by
    have hbeside : fieldsMask cfg.isa.xlen &&& modeMask cfg.isa.xlen = 0#64 := by
      cases cfg.isa.xlen <;> rfl
    rw [computeNewSatp_eq, BitVec.and_comm, BitVec.and_or_distrib_left,
      BitVec.and_comm _ (val &&& _), BitVec.and_assoc,
      hbeside, BitVec.and_zero, BitVec.or_zero, BitVec.and_comm, BitVec.and_assoc, BitVec.and_self]
  rw [atpRank_congr hmode]
  exact apply_ite (atpRank cfg.isa.xlen) _ _ _

/-- The bits of `satp` and `vsatp`: on RV32 the lower half. -/
def AtpFits (xlen : Xlen) (atp : Reg) : Prop :=
  atp &&& (modeMask xlen ||| fieldsMask xlen) = atp

theorem computeNewSatp_fits (val old : Reg) :
    AtpFits cfg.isa.xlen (computeNewSatp cfg val old) := by
  rw [AtpFits, computeNewSatp_eq]
  generalize (if satpValid cfg val then val else old) = x
  apply BitVec.eq_of_getLsbD_eq
  intro i _
  simp only [BitVec.getLsbD_and, BitVec.getLsbD_or]
  cases (modeMask cfg.isa.xlen).getLsbD i <;> cases (fieldsMask cfg.isa.xlen).getLsbD i <;> simp

/-- Writing back changes nothing. -/
theorem computeNewSatp_self {old : Reg} (hfits : AtpFits cfg.isa.xlen old) :
    computeNewSatp cfg old old = old := by
  rw [computeNewSatp_eq, ite_self, ← BitVec.and_or_distrib_left, hfits]

/-! ### What every state has -/

/-- A write of `satp` or `vsatp`, where translation is there. -/
theorem reg_baseAtpWrite (full : cfg.impl.Full cfg.isa.xlen) (c : Csr) (val : Reg) :
    (h.baseAtpWrite cfg c val).reg =
      Function.update h.reg c (computeNewSatp cfg val (h.reg c)) := by
  rw [baseAtpWrite, full.mmu, if_pos rfl]
  show Function.update (if _ then h.flushTlb else h).reg c _ = _
  split
  · rfl
  · rfl

theorem kept_atp (full : cfg.impl.Full cfg.isa.xlen) {c : Csr} (hc : c = .satp ∨ c = .vsatp) :
    Kept cfg c (AtpFits cfg.isa.xlen) := by
  have hown (h : Hart) (val : Reg) : AtpFits cfg.isa.xlen ((h.baseAtpWrite cfg c val).reg c) := by
    rw [reg_baseAtpWrite full, Function.update_self]
    exact computeNewSatp_fits val _
  have hzero : AtpFits cfg.isa.xlen 0#64 := BitVec.zero_and
  obtain rfl | rfl := hc
  · exact .of_own rfl rfl rfl (fun h val _ => hown h val) fun _ => hzero
  · exact .of_own rfl rfl rfl (fun h val _ => hown h val) fun _ => hzero

/-- The lowest bits of `hgatp` cannot be written. -/
theorem kept_hgatp (cfg : Config) : Kept cfg .hgatp fun x => x &&& 3#64 = 0#64 := by
  refine .of_own rfl rfl rfl (fun h val hq => ?_) fun _ => BitVec.zero_and
  show (h.flushTlb.maskedWrite (hgatpMask cfg val) .hgatp val).reg .hgatp &&& 3#64 = 0#64
  rw [maskedWrite, reg_set, if_pos rfl, Bits.and_replace_of_disjoint]
  · exact hq
  · rw [hgatpMask]
    dsimp only
    rw [BitVec.and_comm, BitVec.and_assoc]
    exact BitVec.and_zero

/-- `MPP` after a write is no reserved level. -/
theorem mpp_newMstatus_ne (h : Hart) (val : Reg) :
    getField (cfg.adjustSd (h.newMstatus cfg val)) mstatusMpp ≠ 2#64 := by
  rw [getField_newMstatus_mpp, legalizePrivilege]
  have hle := getField_mpp_le val
  generalize getField val mstatusMpp = mpp at hle
  obtain rfl | rfl | rfl | rfl := reg_cases hle
  · cases h.extensionEnabled .u <;> cases h.extensionEnabled .s <;> decide
  · cases h.extensionEnabled .u <;> cases h.extensionEnabled .s <;> decide
  · cases h.extensionEnabled .u <;> cases h.extensionEnabled .s <;> decide
  · cases h.extensionEnabled .u <;> cases h.extensionEnabled .s <;> decide

/-- Switching H off ends with a write of `mstatus`. -/
theorem mstatus_clearHypervisor (cfg : Config) (h : Hart) :
    ∃ (h' : Hart) (val : Reg), (h.clearHypervisor cfg).reg .mstatus =
      (h'.mstatusWrite cfg val).reg .mstatus := by
  unfold clearHypervisor
  extract_lets h₁ h₂ newMstatus h₃ h₄ h₅ h₆ h₇
  have f₅ : Frame (fun c => c != .mstatus) h₄ h₅ := Frame.set rfl _
  have f₆ : Frame (fun c => c != .mstatus) h₅ h₆ := Frame.set rfl _
  have f₇ : Frame (fun c => c != .mstatus) h₆ h₇ := Frame.set rfl _
  have f := ((f₅.trans f₆).trans f₇).trans (Frame.foldl (s := fun c => c != .mstatus) (fun h i =>
    h.meventWrite cfg i (h.reg (.mevent i) &&& ~~~0x0C00000000000000#64))
      (fun h i => Frame.set rfl _) (List.finRange 29) h₇)
  have hlast : ∃ (h' : Hart) (val : Reg),
      h₄.reg .mstatus = (h'.mstatusWrite cfg val).reg .mstatus := by
    show ∃ (h' : Hart) (val : Reg), (h₃.mstatushWrite cfg _).reg .mstatus =
      (h'.mstatusWrite cfg val).reg .mstatus
    rw [mstatushWrite]
    split
    · exact ⟨_, _, rfl⟩
    · exact ⟨_, _, rfl⟩
  obtain ⟨h', val, heq⟩ := hlast
  exact ⟨h', val, (f.reg .mstatus rfl).trans heq⟩

theorem kept_mpp (cfg : Config) : Kept cfg .mstatus fun x => getField x mstatusMpp ≠ 2#64 := by
  have hown (h : Hart) (val : Reg) : getField ((h.mstatusWrite cfg val).reg .mstatus) mstatusMpp ≠
      2#64 := by
    rw [reg_mstatusWrite, Function.update_self]
    exact mpp_newMstatus_ne h val
  refine .of_parts rfl (fun h val _ => hown h val) (fun h val _ hq => ?_)
    (fun h dirties hq => ?_) fun _ => ?_
  · have f : Frame (fun c => c == .misa) h (h.updateExtensions cfg (h.newMisa cfg val)) :=
      Frame.updateExtensions rfl _
    obtain ⟨heq, -⟩ | ⟨heq, -⟩ | ⟨heq, -⟩ := misaWrite_cases cfg h val
    · rwa [heq]
    · rw [heq, reg_set, if_neg (by decide), f.reg .mstatus rfl]
      exact hq
    · obtain ⟨h', val', hlast⟩ :=
        mstatus_clearHypervisor cfg (h.updateExtensions cfg (h.newMisa cfg val))
      rw [heq, reg_set, if_neg (by decide), hlast]
      exact hown h' val'
  · unfold Hart.dirty
    extract_lets h₀ h₁
    split
    · exact hq
    · split
      · rw [(Frame.vsstatusWrite (s := fun c => c == .vsstatus) rfl _).reg .mstatus rfl]
        exact hown h₀ _
      · exact hown h₀ _
  · show getField cfg.mstatusInit mstatusMpp ≠ 2#64
    rw [mstatusInit_ok.2.1]
    decide

/-! ### Writes to `satp` and `vsatp` -/

theorem csrFind_satp (cfg : Config) : csrFind cfg 0x180 = some .virtualizedSatp := by
  rw [csrFind, csrmap]
  simp only [List.append_assoc, supervisorEntries, wideEntries, entriesIf]
  cases cfg.isa.xlen <;> cases cfg.isa.table .u <;> rfl

theorem csrFind_vsatp (cfg : Config) : csrFind cfg 0x280 = some (.plain .vsatp) := by
  rw [csrFind, csrmap]
  simp only [List.append_assoc, supervisorEntries, wideEntries, entriesIf]
  cases cfg.isa.xlen <;> cases cfg.isa.table .u <;> rfl

/-- No other address writes to the two registers. -/
theorem footprint_atp {which : Nat} {o : CsrObj} (ho : csrFind cfg which = some o)
    (hw : which ≠ 0x180 ∧ which ≠ 0x280) :
    o.footprint .satp = false ∧ o.footprint .vsatp = false := by
  have hall : (csrmap cfg.full).all (fun e =>
      (!e.2.footprint .satp && !e.2.footprint .vsatp) || e.1 == 0x180 || e.1 == 0x280) = true := by
    obtain ⟨⟨xlen, table, exts, hu, hs⟩, impl, id, big, count, pmp, vlen, vlenb⟩ := cfg
    cases xlen <;> cases count <;>
      exact all_csrmap _ rfl rfl rfl rfl rfl rfl rfl (fun _ => rfl) rfl rfl rfl
        (fun _ => rfl) fun _ => rfl
  have hentry := List.all_eq_true.1 hall _ (mem_of_csrFind cfg ho)
  simpa [hw.1, hw.2] using hentry

/-- An instruction that is permitted to write goes through with it. -/
theorem Writes.event {which : Nat} {insn : CsrInsn} {o : CsrObj} {val : Reg}
    (w : h.Writes cfg which insn o val)
    (bits : Reg) : h.event cfg (.csr which insn bits) =
      (h.writeObj cfg val o).setPcAndSerialize (sextXlen cfg (h.pc + 4#64)) := by
  show h.orRefused cfg bits (h.csrInsn cfg which insn) = _
  rw [w.ok]
  rfl

/-- The two modes are no larger than the type. -/
structure InLimit (cfg : Config) (limit : MmuType) (h : Hart) : Prop where
  satp : atpRank cfg.isa.xlen (h.reg .satp) ≤ limit.rank
  vsatp : atpRank cfg.isa.xlen (h.reg .vsatp) ≤ limit.rank

/-- The event writes no supported mode to `satp` or `vsatp` that is larger than the type. -/
def AsksWithin (cfg : Config) (limit : MmuType) (h : Hart) : HartOp → Prop
  | .csr which insn _ => which = 0x180 ∨ which = 0x280 →
      ∀ o val, h.Writes cfg which insn o val → satpValid cfg val = true →
        atpRank cfg.isa.xlen val ≤ limit.rank
  | _ => True

variable {limit : MmuType}

theorem InLimit.congr (ok : InLimit cfg limit h) (hs : h'.reg .satp = h.reg .satp)
    (hvs : h'.reg .vsatp = h.reg .vsatp) : InLimit cfg limit h' :=
  ⟨hs ▸ ok.satp, hvs ▸ ok.vsatp⟩

/-- A write to one of the two objects. -/
theorem inLimit_write (full : cfg.impl.Full cfg.isa.xlen) (ok : InLimit cfg limit h) {c : Csr}
    (hc : c = .satp ∨ c = .vsatp) (val : Reg) : InLimit cfg limit (h.baseAtpWrite cfg c val) ↔
      (satpValid cfg val = true → atpRank cfg.isa.xlen val ≤ limit.rank) := by
  have hreg := reg_baseAtpWrite (h := h) full c val
  have hrank := atpRank_computeNewSatp cfg val (h.reg c)
  obtain rfl | rfl := hc
  · refine ⟨fun hin hv => ?_, fun hv => ⟨?_, ?_⟩⟩
    · have hsatp := hin.satp
      rwa [hreg, Function.update_self, hrank, if_pos hv] at hsatp
    · rw [hreg, Function.update_self, hrank]
      split
      · exact hv ‹_›
      · exact ok.satp
    · rw [hreg, Function.update_of_ne (by decide)]
      exact ok.vsatp
  · refine ⟨fun hin hv => ?_, fun hv => ⟨?_, ?_⟩⟩
    · have hvsatp := hin.vsatp
      rwa [hreg, Function.update_self, hrank, if_pos hv] at hvsatp
    · rw [hreg, Function.update_of_ne (by decide)]
      exact ok.satp
    · rw [hreg, Function.update_self, hrank]
      split
      · exact hv ‹_›
      · exact ok.vsatp

/-- An unsupported mode leaves `satp` as it is. -/
theorem writeObj_unsupported (full : cfg.impl.Full cfg.isa.xlen)
    (hs : AtpFits cfg.isa.xlen (h.reg .satp))
    (hvs : AtpFits cfg.isa.xlen (h.reg .vsatp)) {val : Reg} (hv : satpValid cfg val = false) :
    (h.writeObj cfg val .virtualizedSatp).reg = h.reg := by
  have hback {c : Csr} (hfits : AtpFits cfg.isa.xlen (h.reg c)) :
      (h.baseAtpWrite cfg c (h.reg c)).reg = h.reg := by
    rw [reg_baseAtpWrite full, computeNewSatp_self hfits, Function.update_eq_self]
  cases hvirt : h.v with
  | true =>
    simp only [writeObj, readObj, hv, hvirt, if_true, if_false, Bool.false_eq_true]
    exact hback hvs
  | false =>
    simp only [writeObj, readObj, hv, hvirt, if_false, Bool.false_eq_true]
    exact hback hs

/-- A write through the address of `satp`. -/
theorem inLimit_virtualizedSatp (full : cfg.impl.Full cfg.isa.xlen)
    (hs : AtpFits cfg.isa.xlen (h.reg .satp))
    (hvs : AtpFits cfg.isa.xlen (h.reg .vsatp)) (ok : InLimit cfg limit h) (val : Reg) :
    InLimit cfg limit (h.writeObj cfg val .virtualizedSatp) ↔
      (satpValid cfg val = true → atpRank cfg.isa.xlen val ≤ limit.rank) := by
  cases hv : satpValid cfg val with
  | false =>
    have hreg := writeObj_unsupported full hs hvs hv
    exact iff_of_true (ok.congr (congrFun hreg .satp) (congrFun hreg .vsatp)) fun hv' => absurd hv'
      (by decide)
  | true =>
    rw [← hv, writeObj, if_pos hv, hv]
    have hwrite {c : Csr} (hc : c = .satp ∨ c = .vsatp) := inLimit_write full ok hc val
    rw [hv] at hwrite
    split
    · exact hwrite (.inr rfl)
    · exact hwrite (.inl rfl)

/-- A reset switches translation off. -/
theorem inLimit_reset (cfg' : Config) (h : Hart) (halt : Bool) :
    InLimit cfg limit (Hart.reset cfg' h halt) := by
  obtain ⟨⟨mask, hreg⟩, -⟩ := reset_reg cfg' h halt
  have hzero {c : Csr} (hc : (Hart.reset cfg' h halt).reg c = 0#64) :
      atpRank cfg.isa.xlen ((Hart.reset cfg' h halt).reg c) ≤ limit.rank := by
    rw [hc, atpRank_zero]
    exact Nat.zero_le _
  exact ⟨hzero (hreg .satp (by decide)), hzero (hreg .vsatp (by decide))⟩

/-- **One event.** -/
theorem inLimit_event (full : cfg.impl.Full cfg.isa.xlen) (hs : AtpFits cfg.isa.xlen (h.reg .satp))
    (hvs : AtpFits cfg.isa.xlen (h.reg .vsatp)) (ok : InLimit cfg limit h) (op : HartOp) :
    InLimit cfg limit (h.event cfg op) ↔ AsksWithin cfg limit h op := by
  have other (op : HartOp) (hm : op.footprint .misa = false) (hfs : op.footprint .satp = false)
      (hfvs : op.footprint .vsatp = false) (hasks : AsksWithin cfg limit h op) :
      InLimit cfg limit (h.event cfg op) ↔ AsksWithin cfg limit h op :=
    iff_of_true (ok.congr ((RegFrame.event op hm).reg _ hfs) ((RegFrame.event op hm).reg _ hfvs))
      hasks
  cases op with
  | csr which insn bits =>
    by_cases hw : ∃ o val, h.Writes cfg which insn o val
    · obtain ⟨o, val, w⟩ := hw
      have hasks : AsksWithin cfg limit h (.csr which insn bits) ↔ (which = 0x180 ∨ which = 0x280 →
          (satpValid cfg val = true → atpRank cfg.isa.xlen val ≤ limit.rank)) := by
        refine ⟨fun hasks hwhich => hasks hwhich o val w, fun hv hwhich o' val' w' => ?_⟩
        obtain ⟨-, rfl⟩ := w'.unique w
        exact hv hwhich
      have hreg : (h.event cfg (.csr which insn bits)).reg = (h.writeObj cfg val o).reg := by
        rw [w.event]
        rfl
      rw [hasks]
      have hsame : InLimit cfg limit (h.event cfg (.csr which insn bits)) ↔
        InLimit cfg limit (h.writeObj cfg val o) :=
        ⟨fun hin => hin.congr (by rw [hreg]) (by rw [hreg]),
          fun hin => hin.congr (by rw [hreg]) (by rw [hreg])⟩
      refine hsame.trans ?_
      by_cases hwhich : which = 0x180 ∨ which = 0x280
      · rw [forall_prop_of_true hwhich]
        obtain rfl | rfl := hwhich
        · obtain rfl := Option.some.inj ((csrFind_satp cfg).symm.trans w.find)
          exact inLimit_virtualizedSatp full hs hvs ok val
        · obtain rfl := Option.some.inj ((csrFind_vsatp cfg).symm.trans w.find)
          exact inLimit_write full ok (.inr rfl) val
      · have f : Frame o.footprint h (h.writeObj cfg val o) := Frame.writeObj o h val
        obtain ⟨hsatp, hvsatp⟩ := footprint_atp w.find (not_or.1 hwhich)
        exact iff_of_true (ok.congr (f.reg _ hsatp) (f.reg _ hvsatp)) fun hwhich' =>
          absurd hwhich' hwhich
    · refine iff_of_true ?_ fun _ o val w => absurd ⟨o, val, w⟩ hw
      show InLimit cfg limit (h.orRefused cfg bits (h.csrInsn cfg which insn))
      cases hok : h.csrInsn cfg which insn with
      | ok h' =>
        obtain ⟨h₁, rfl, rfl | ⟨o, val, w, -⟩⟩ := csrInsn_cases hok
        · exact ok.congr rfl rfl
        · exact absurd ⟨o, val, w⟩ hw
      | error r =>
        have w : ControlWrites cfg h (h.refused cfg bits r) := .refused bits r
        have f := w.regFrame
        exact ok.congr (f.reg .satp rfl) (f.reg .vsatp rfl)
  | reset halt => exact iff_of_true (inLimit_reset cfg h halt) trivial
  | _ => exact other _ rfl rfl rfl trivial

/-! ### What translation uses -/

/-- The mode of an access is the level of the hart, `MPP` or `SPVP`. -/
theorem effective_cases (s : Privilege) (type : AccessType) (flags : XlateFlags) :
    (s.effective type flags).1 = s.prv ∨ (s.effective type flags).1 =
      getField s.mstatus mstatusMpp ∨
      (s.effective type flags).1 = getField s.hstatus hstatusSpvp := by
  rw [Privilege.effective]
  dsimp only
  split
  · exact .inl rfl
  · split
    · exact .inr (.inr rfl)
    · split
      · exact .inr (.inl rfl)
      · exact .inl rfl

/-- That mode is M or below HS. -/
theorem effective_level (hr : Reachable cfg h) (type : AccessType) (flags : XlateFlags) :
    ((h.privilege cfg).effective type flags).1 = prvM ∨
    ((h.privilege cfg).effective type flags).1 ≤ prvS := by
  obtain heq | heq | heq := effective_cases (h.privilege cfg) type flags
  · rw [heq]
    obtain hp | ⟨hp, -⟩ | ⟨hp, -⟩ := hr.wellFormed.prv
    · exact .inl hp
    · exact .inr (show h.prv ≤ prvS by rw [hp]; exact BitVec.le_refl _)
    · exact .inr (show h.prv ≤ prvS by rw [hp]; decide)
  · rw [heq]
    have hne : getField (h.reg .mstatus) mstatusMpp ≠ 2#64 := (kept_mpp cfg).reachable hr
    show getField (h.reg .mstatus) mstatusMpp = prvM ∨ getField (h.reg .mstatus) mstatusMpp ≤ prvS
    obtain h0 | h1 | h2 | h3 := reg_cases (getField_mpp_le (h.reg .mstatus))
    · exact .inr (by rw [h0]; decide)
    · exact .inr (by rw [h1]; decide)
    · exact absurd h2 hne
    · exact .inl h3
  · rw [heq]
    have hle : (getField (h.reg .hstatus) hstatusSpvp).toNat ≤ 1 :=
      getField_toNat_le (k := 8) rfl (by decide) _
    exact .inr (BitVec.le_def.2 hle)

/-- The root of the second stage is the page that the register gives. -/
theorem ptbase_of_guest {xlen : Xlen} {atp : Reg} {vm : VmInfo}
    (hvm : decodeVmInfo xlen true prvU atp = some vm) :
    ∃ m, vm.ptbase = (atp &&& m) <<< pgShift := by
  have hbare (hb : some VmInfo.bare = some vm) : ∃ m, vm.ptbase = (atp &&& m) <<< pgShift := by
    cases hb
    exact ⟨0#64, by rw [BitVec.and_zero]; rfl⟩
  have hne : prvU ≠ prvM := by decide
  rw [decodeVmInfo, if_neg hne] at hvm
  cases xlen with
  | rv32 =>
    obtain h0 | h1 := atpMode32 atp
    · simp only [h0] at hvm
      exact hbare hvm
    · simp only [h1] at hvm
      cases hvm
      exact ⟨_, rfl⟩
  | rv64 =>
    simp only [Bool.not_true, Bool.false_and, Bool.false_eq_true, if_false, Bool.true_and,
      show (Xlen.rv64 == Xlen.rv32) = false from rfl, beq_self_eq_true, if_true] at hvm
    split at hvm
    · exact hbare hvm
    · split at hvm
      · cases hvm
        exact ⟨_, rfl⟩
      · split at hvm
        · cases hvm
          exact ⟨_, rfl⟩
        · split at hvm
          · cases hvm
            exact ⟨_, rfl⟩
          · cases hvm

/-- It is aligned to 16 KiB. -/
theorem root_aligned {atp : Reg} (hz : atp &&& 3#64 = 0#64) {xlen : Xlen} {vm : VmInfo}
    (hvm : decodeVmInfo xlen true prvU atp = some vm) : vm.ptbase &&& 0x3FFF#64 = 0#64 := by
  obtain ⟨m, heq⟩ := ptbase_of_guest hvm
  have hlow : (atp &&& m) &&& 3#64 = 0#64 := by
    rw [BitVec.and_assoc, BitVec.and_comm m, ← BitVec.and_assoc, hz, BitVec.zero_and]
  rw [heq]
  generalize atp &&& m = x at hlow
  have hpage : x <<< pgShift &&& 0x3FFF#64 = (x &&& 3#64) <<< pgShift := by
    apply BitVec.eq_of_getLsbD_eq
    intro i hi
    have hmask : (3#64).getLsbD (i - pgShift) = (0x3FFF#64).getLsbD (pgShift + (i - pgShift)) :=
      BitVec.getLsbD_ushiftRight (0x3FFF#64) pgShift (i - pgShift)
    simp only [BitVec.getLsbD_and, BitVec.getLsbD_shiftLeft, hmask]
    by_cases hlt : i < pgShift
    · simp [hlt]
    · rw [Nat.add_sub_cancel' (Nat.not_lt.1 hlt), Bool.and_assoc]
  rw [hpage, hlow]
  rfl

/-- **Address translation in one state**, for a processor of the given type. -/
structure AtpOk (cfg : Config) (limit : MmuType) (h : Hart) : Prop where
  /-- `satp.MODE` and `vsatp.MODE` are no larger than the type -/
  limit : InLimit cfg limit h
  /-- a write to `satp` with an unsupported mode changes nothing -/
  unsupported : ∀ insn o val, h.Writes cfg 0x180 insn o val → satpValid cfg val = false →
    (h.writeObj cfg val o).reg = h.reg
  /-- the root that `hgatp` gives is aligned to 16 KiB -/
  root : ∀ vm, decodeVmInfo cfg.isa.xlen true prvU (h.reg .hgatp) = some vm →
    vm.ptbase &&& 0x3FFF#64 = 0#64
  /-- `decode_vm_info` does not abort -/
  decode : ∀ type flags,
    decodeVmInfo cfg.isa.xlen false ((h.privilege cfg).effective type flags).1
      (h.reg .satp) ≠ none ∧
      decodeVmInfo cfg.isa.xlen false ((h.privilege cfg).effective type flags).1
        (h.reg .vsatp) ≠ none
  decodeGuest : decodeVmInfo cfg.isa.xlen true prvU (h.reg .hgatp) ≠ none

/-- All but the limit holds in every reachable state. -/
theorem atpOk_of_inLimit (full : cfg.impl.Full cfg.isa.xlen) (hr : Reachable cfg h)
    (ok : InLimit cfg limit h) :
    AtpOk cfg limit h where
  limit := ok
  unsupported insn o val w hv := by
    obtain rfl := Option.some.inj ((csrFind_satp cfg).symm.trans w.find)
    exact writeObj_unsupported full ((kept_atp full (.inl rfl)).reachable hr)
      ((kept_atp full (.inr rfl)).reachable hr) hv
  root vm hvm := root_aligned ((kept_hgatp cfg).reachable hr) hvm
  decode type flags :=
    ⟨decodeVmInfo_ne_none (effective_level hr type flags) hr.wellFormed.regs.satp,
      decodeVmInfo_ne_none (effective_level hr type flags) hr.wellFormed.regs.vsatp⟩
  decodeGuest := decodeVmInfo_guest_ne_none hr.wellFormed.regs.hgatp

/-- A step of a hart whose simulator has aborted asks for nothing. -/
def StepsWithin (cfg : Config) (limit : MmuType) (h : Hart) (op : HartOp) : Prop :=
  h.aborted = false → AsksWithin cfg limit h op

/-- **When the type of a processor limits its modes.** For every device tree that is accepted and
every run: address translation is in order in every state exactly when no instruction asks for a
supported mode larger than the type. -/
theorem atpOk_iff (xlen : Xlen) (pmpregions : Reg) (nprocs : Nat) (nodes : List CpuNode)
    (procs : List Proc)
    (hok : simCores xlen pmpregions nprocs (some ⟨some nodes⟩) = .ok procs)
    (node : CpuNode) (proc : Proc)
    (hcore : (node, proc) ∈ nodes.zip procs) (cfg : Config) (hx : cfg.isa.xlen = xlen)
    (himpl : cfg.impl = proc.impl)
    (halt : Bool) (ops : List HartOp) :
    Run.Always (step cfg) (AtpOk cfg (node.limit xlen)) (init cfg halt) ops ↔
      Run.Along (step cfg) (StepsWithin cfg (node.limit xlen)) (init cfg halt) ops := by
  have full : cfg.impl.Full cfg.isa.xlen := by
    rw [hx, himpl]
    exact full_simCores hok (List.of_mem_zip hcore).2
  refine Run.always_iff_along (I := Reachable cfg) (fun h op hr => ?_)
    (fun h op hr ok => ?_) ⟨halt, [], rfl⟩ ?_ ops
  · exact hr.runFrom [op]
  · have hstep : AtpOk cfg (node.limit xlen) (h.step cfg op) ↔
      InLimit cfg (node.limit xlen) (h.step cfg op) :=
      ⟨AtpOk.limit, atpOk_of_inLimit full (hr.runFrom [op])⟩
    rw [hstep, Hart.step, StepsWithin]
    cases ha : h.aborted with
    | true => exact iff_of_true ok.limit fun hf => absurd hf (by decide)
    | false =>
      rw [if_neg (by decide), forall_prop_of_true rfl]
      exact inLimit_event full ((kept_atp full (.inl rfl)).reachable hr)
        ((kept_atp full (.inr rfl)).reachable hr)
        ok.limit op
  · exact atpOk_of_inLimit full ⟨halt, [], rfl⟩
      (inLimit_reset { cfg with impl := { cfg.impl with mmu := true } } _ halt)

/-- The node of a processor of the given type. -/
def cpuNode (mmu_type : String) : CpuNode where
  deviceType := some "cpu".toList
  pmpRegions := none
  pmpGranularity := none
  mmuType := some mmu_type.toList

/-- The configuration of a hart of RV64 after the device tree. -/
def rv64dt : Config :=
  { rv64h with impl := ⟨false, true, true, true, true⟩ }

/-- A program that stays within Sv48. -/
theorem atpOk_iff_sv48 :
    Run.Always (step rv64dt) (AtpOk rv64dt ((cpuNode "riscv,sv48").limit .rv64)) (init rv64dt false)
        [.csr 0x180 (.write 0x8000000000080000#64) 0#64] ↔
      Run.Along (step rv64dt) (StepsWithin rv64dt ((cpuNode "riscv,sv48").limit .rv64))
      (init rv64dt false)
        [.csr 0x180 (.write 0x8000000000080000#64) 0#64] :=
  atpOk_iff .rv64 0#64 1 [cpuNode "riscv,sv48"]
    [⟨⟨false, true, true, true, true⟩, 0, 2⟩] rfl _ _ List.mem_cons_self
    rv64dt rfl rfl false _

/-- Sv57 on a processor of type `riscv,sbare`. -/
theorem sbare_not_limited :
    ∃ procs proc, simCores .rv64 0#64 1 (some ⟨some [cpuNode "riscv,sbare"]⟩) = .ok procs ∧
      (cpuNode "riscv,sbare", proc) ∈ [cpuNode "riscv,sbare"].zip procs ∧ rv64dt.impl = proc.impl ∧
      ¬Run.Always (step rv64dt) (AtpOk rv64dt ((cpuNode "riscv,sbare").limit .rv64))
      (init rv64dt false)
        [.csr 0x180 (.write 0xA000000000080000#64) 0#64] := by
  refine ⟨_, _, rfl, List.mem_cons_self, rfl, fun ok => ?_⟩
  have hlimit := ok.last.limit.satp
  exact absurd hlimit (by decide)

end Hart

end Nnemu

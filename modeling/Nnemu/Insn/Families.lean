import Nnemu.Insn.Widen

/-!
# Families of handlers on RV32

The files of a family differ in an operation, and their instructions in an operation on words. Where
the first one does on extended words what the second one does, the file mirrors the instruction.

Programs on registers of 64 bits mirror programs on registers of 32 bits in the sense of
`Lib.Mirror`. The handlers that compute an address mirror a family of programs, since an address of
64 bits is only one of the names of the address of RV32 (`Naming`).
-/

namespace Nnemu

open Exec

variable {ω ι : Type} {f : Frame}

/-! ### Addresses -/

/-- An address of the simulator ends in the address of RV32. -/
theorem low_add (a : BitVec 32) (x : Reg) : (held a + x).setWidth 32 = a + Rv32.imm x := by
  rw [BitVec.setWidth_add _ _ (by decide), setWidth_held, Rv32.imm]

theorem low_pc_add (f : Frame) (x : Reg) : (f.pc + x).setWidth 32 = Rv32.pc f + Rv32.imm x := by
  rw [BitVec.setWidth_add _ _ (by decide), Rv32.pc, Rv32.imm]

theorem low_even {x : Reg} {a : BitVec 32} (h : x.setWidth 32 = a) :
    (x &&& ~~~1#64).setWidth 32 = a &&& ~~~1#32 := by
  have hmask : (~~~1#64).setWidth 32 = ~~~1#32 := by decide
  rw [BitVec.setWidth_and, h, hmask]

namespace Frame

/-! ### Checks -/

/-- A check in front of a file. -/
theorem widens_behind {check : InsnM 32 ω ι Unit} {check' : InsnM 64 ω ι Unit}
    {x : InsnM 32 ω ι Reg}
    {y : InsnM 64 ω ι Reg} (hcheck : Widens id check check') (h : Widens id x y) :
    Widens id (Rv32.behind check x) (check' >>= fun _ => y) :=
  Mirrors.bind hcheck fun _ => h

theorem widensSome_behind {check : InsnM 32 ω ι Unit} {check' : InsnM 64 ω ι Unit}
    {x : Naming → InsnM 32 ω ι Reg}
    {y : InsnM 64 ω ι Reg} (hcheck : Widens id check check') (h : WidensSome id x y) :
    WidensSome id (fun names => Rv32.behind check (x names)) (check' >>= fun _ => y) :=
  MirrorsSome.bind hcheck fun _ => h

/-- The same where the check says something about the instruction. -/
theorem widens_behind_require {b : Bool} {x : InsnM 32 ω ι Reg} {y : InsnM 64 ω ι Reg}
    (h : b = true → Widens id x y) :
    Widens id (Rv32.behind (f.require b) x) (f.require b >>= fun _ => y) := by
  cases b with
  | false => exact Mirrors.throw _ _ _
  | true => exact widens_behind (f.widens_require true) (h rfl)

/-- The instructions of RV64. -/
theorem widens_onRv64 (hx : f.cfg.isa.xlen = .rv32) (body : InsnM 64 ω ι Reg) :
    Widens id (throw f.illegalTrap) (f.onRv64 body) := by
  have hno : (f.cfg.isa.xlen == .rv64) = false := by
    rw [hx]
    rfl
  rw [onRv64, requireRv64, hno]
  exact Mirrors.throw _ _ _

/-- They stay illegal behind another check, which refuses them with the same trap. -/
theorem widens_requireExtension_illegal (ext : Ext) {y : InsnM 64 ω ι Reg}
    (h : Widens id (throw f.illegalTrap) y) :
    Widens id (throw f.illegalTrap) (f.requireExtension ext >>= fun _ => y) := by
  intro c
  cases hext : c.hart.extensionEnabled ext with
  | false =>
    have hno : f.requireExtension ext c.widen = .error f.illegalTrap c.widen := by
      rw [requireExtension_apply, show c.widen.hart = c.hart from rfl, hext]
      rfl
    exact bind_of_error hno
  | true =>
    have hyes : f.requireExtension ext c.widen = .ok () c.widen := by
      rw [requireExtension_apply, show c.widen.hart = c.hart from rfl, hext]
      rfl
    exact (bind_of_ok hyes).trans (h c)

theorem widens_requireEitherExtension_illegal (ext ext' : Ext) {y : InsnM 64 ω ι Reg}
    (h : Widens id (throw f.illegalTrap) y) :
    Widens id (throw f.illegalTrap) (f.requireEitherExtension ext ext' >>= fun _ => y) := by
  intro c
  cases hext : c.hart.extensionEnabled ext || c.hart.extensionEnabled ext' with
  | false =>
    have hno : f.requireEitherExtension ext ext' c.widen = .error f.illegalTrap c.widen := by
      change f.require (c.hart.extensionEnabled ext || c.hart.extensionEnabled ext') c.widen = _
      rw [hext]
      rfl
    exact bind_of_error hno
  | true =>
    have hyes : f.requireEitherExtension ext ext' c.widen = .ok () c.widen := by
      change f.require (c.hart.extensionEnabled ext || c.hart.extensionEnabled ext') c.widen = _
      rw [hext]
      rfl
    exact (bind_of_ok hyes).trans (h c)

/-! ### Values of registers -/

/-- Files with two registers and an operation on their values. -/
theorem widens_regReg {op : BitVec 32 → BitVec 32 → BitVec 32} {op' : Reg → Reg → Reg}
    (h : ∀ a b, op' (held a) (held b) = held (op a b)) :
    Widens id (Rv32.regReg f op : InsnM 32 ω ι Reg) (f.regReg op') := by
  refine Mirrors.bind (f.widens_readReg _) fun a => Mirrors.bind (f.widens_readReg _) fun b => ?_
  rw [h]
  exact Mirrors.bind (f.widens_writeReg _ _) fun _ => Mirrors.pure _ _ _

/-- Files with a register and an immediate. -/
theorem widens_regImm {op : BitVec 32 → BitVec 32} {op' : Reg → Reg}
    (h : ∀ a, op' (held a) = held (op a)) :
    Widens id (Rv32.regImm f op : InsnM 32 ω ι Reg) (f.regImm op') := by
  refine Mirrors.bind (f.widens_readReg _) fun a => ?_
  rw [h]
  exact Mirrors.bind (f.widens_writeReg _ _) fun _ => Mirrors.pure _ _ _

/-- Files whose value depends on no register. -/
theorem widens_constant {value : BitVec 32} {value' : Reg} (h : value' = held value) :
    Widens id (Rv32.constant f value : InsnM 32 ω ι Reg)
    (f.writeRd value' >>= fun _ => pure f.npc) := by
  rw [h]
  exact Mirrors.bind (f.widens_writeReg _ _) fun _ => Mirrors.pure _ _ _

/-! ### Jumps -/

theorem widens_jumpTo {x : Reg} {target : BitVec 32} (h : x.setWidth 32 = target) :
    WidensSome id (fun names => Rv32.jumpTo f names target : Naming → InsnM 32 ω ι Reg)
    (f.setPc x) :=
  WidensSome.named (x := fun x => f.setPc x) h (f.widens_setPc x)

/-- Branches, of which the comparison is the same on extended words. -/
theorem widens_branch {taken : BitVec 32 → BitVec 32 → Bool} {taken' : Reg → Reg → Bool}
    (h : ∀ a b, taken' (held a) (held b) = taken a b) :
    WidensSome id (fun names => Rv32.branch f names taken : Naming → InsnM 32 ω ι Reg)
    (f.branch taken') := by
  refine MirrorsSome.bind (f.widens_readReg _) fun a => MirrorsSome.bind
    (f.widens_readReg _) fun b => ?_
  rw [h]
  cases taken a b with
  | false => exact MirrorsSome.const (Mirrors.pure _ _ _)
  | true => exact widens_jumpTo (low_pc_add f _)

/-- Jumps that write the address behind them. -/
theorem widens_link {reg x : Reg} {size target : BitVec 32} (hnpc : f.npc = held (Rv32.pc f + size))
    (h : x.setWidth 32 = target) :
    WidensSome id (fun names => Rv32.link f names reg size target : Naming → InsnM 32 ω ι Reg) (do
      let npc ← f.setPc x
      f.writeReg reg f.npc
      pure npc) := by
  refine WidensSome.named (x := fun x => do
    let npc ← f.setPc x
    f.writeReg reg (Rv32.pc f + size)
    pure npc) h ?_
  refine Mirrors.bind (f.widens_setPc x) fun npc => ?_
  rw [hnpc]
  exact Mirrors.bind (f.widens_writeReg _ _) fun _ => Mirrors.pure _ _ _

theorem widens_jalr (hnpc : f.npc = held (Rv32.pc f + 4#32)) :
    WidensSome id (fun names => Rv32.jalr f names : Naming → InsnM 32 ω ι Reg) f.jalr :=
  MirrorsSome.bind (f.widens_readReg _) fun _ => widens_link hnpc (low_even (low_add _ _))

/-! ### Loads and stores -/

variable (mmu : Mmu ω ι)

/-- Read memory at the sum of a register and an offset, and put the value somewhere. -/
theorem widens_loadTo {n : Nat} {base : InsnM 32 ω ι (BitVec 32)} {base' : InsnM 64 ω ι Reg}
    (offset : Reg)
    {put : BitVec n → InsnM 32 ω ι Unit} {put' : BitVec n → InsnM 64 ω ι Unit}
    (hbase : Widens held base base') (hput : ∀ val, Widens id (put val) (put' val)) :
    WidensSome id (fun names => do
      let a ← base
      let val ← InsnM.access (mmu.load n (names.name (a + Rv32.imm offset)))
      put val
      pure f.npc) (do
      let a ← base'
      let val ← InsnM.access (mmu.load n (a + offset))
      put' val
      pure f.npc) := by
  refine MirrorsSome.bind hbase fun a => ?_
  refine WidensSome.named (x := fun addr => do
    let val ← InsnM.access (mmu.load n addr)
    put val
    pure f.npc) (low_add a offset) ?_
  refine Mirrors.bind (widens_access _) fun val => ?_
  exact Mirrors.bind (hput val) fun _ => Mirrors.pure _ _ _

/-- Write memory at the sum of a register and an offset. -/
theorem widens_storeFrom {α β : Type} {n : Nat} {base : InsnM 32 ω ι (BitVec 32)}
    {base' : InsnM 64 ω ι Reg}
    (offset : Reg) {reg : InsnM 32 ω ι α} {reg' : InsnM 64 ω ι β} {g : α → β}
    {cut : α → BitVec n} {cut' : β → BitVec n}
    (hbase : Widens held base base') (hreg : Widens g reg reg') (hcut : ∀ a, cut' (g a) = cut a) :
    WidensSome id (fun names => do
      let a ← base
      let b ← reg
      InsnM.access (mmu.store n (names.name (a + Rv32.imm offset)) (cut b))
      pure f.npc) (do
      let a ← base'
      let b ← reg'
      InsnM.access (mmu.store n (a + offset) (cut' b))
      pure f.npc) := by
  refine MirrorsSome.bind hbase fun a => MirrorsSome.bind hreg fun b => ?_
  rw [hcut]
  refine WidensSome.named (x := fun addr => do
    InsnM.access (mmu.store n addr (cut b))
    pure f.npc) (low_add a offset) ?_
  exact Mirrors.bind (widens_access _) fun _ => Mirrors.pure _ _ _

/-- Loads, whatever their width and extension. -/
theorem widens_load {n : Nat} {extend : BitVec n → BitVec 32} {extend' : BitVec n → Reg}
    (h : ∀ val, extend' val = held (extend val)) :
    WidensSome id (fun names => Rv32.load f names mmu n extend) (f.load mmu n extend') := by
  refine widens_loadTo mmu _ (f.widens_readReg _) fun val => ?_
  rw [h]
  exact f.widens_writeReg _ _

/-- Of a narrow register the same bytes are stored. -/
theorem setWidth_held_of_le {n : Nat} (h : n ≤ 32) (a : BitVec 32) :
    (held a).setWidth n = a.setWidth n := by
  rw [← BitVec.setWidth_setWidth_of_le _ h, setWidth_held]

/-- Stores write the low bytes of a register. -/
theorem widens_store {n : Nat} (hn : n ≤ 32) :
    WidensSome id (fun names => Rv32.store f names mmu n) (f.store mmu n) :=
  widens_storeFrom mmu _ (f.widens_readReg _) (f.widens_readReg _) (setWidth_held_of_le hn)

/-! ### Atomics -/

theorem map_held {op : BitVec 32 → BitVec 32 → BitVec 32} {op' : BitVec 32 → Reg → BitVec 32}
    (h : ∀ lhs b, op' lhs (held b) = op lhs b) (b : Except Thrown (BitVec 32)) :
    (fun lhs => (b.map held).map (op' lhs)) = fun lhs => b.map (op lhs) := by
  funext lhs
  cases b with
  | error e => rfl
  | ok b => exact congrArg Except.ok (h lhs b)

/-- Atomic operations on words. -/
theorem widens_amoW {op : BitVec 32 → BitVec 32 → BitVec 32} {op' : BitVec 32 → Reg → BitVec 32}
    (h : ∀ lhs b, op' lhs (held b) = op lhs b) :
    WidensSome id (fun names => Rv32.amo f names mmu op) (f.amoW mmu op') := by
  refine widensSome_behind (f.widens_requireExtension _) ?_
  refine MirrorsSome.bind (f.widens_readReg _) fun a => MirrorsSome.bind
    f.widens_laterRs2 fun b => ?_
  rw [map_held h]
  refine WidensSome.named (x := fun addr => do
    let lhs ← InsnM.access (mmu.amo 32 addr fun lhs => b.map (op lhs))
    f.writeRd lhs
    pure f.npc) (setWidth_held a) ?_
  refine Mirrors.bind (widens_access _) fun lhs => ?_
  exact Mirrors.bind (f.widens_writeReg _ _) fun _ => Mirrors.pure _ _ _

theorem widens_lrW : WidensSome id (fun names => Rv32.lrW f names mmu) (f.lrW mmu) := by
  refine widensSome_behind (f.widens_requireExtension _) ?_
  refine MirrorsSome.bind (f.widens_readReg _) fun a => ?_
  refine WidensSome.named (x := fun addr => do
    let val ← InsnM.access (mmu.loadReserved 32 addr)
    f.writeRd val
    pure f.npc) (setWidth_held a) ?_
  refine Mirrors.bind (widens_access _) fun val => ?_
  exact Mirrors.bind (f.widens_writeReg _ _) fun _ => Mirrors.pure _ _ _

theorem widens_scW : WidensSome id (fun names => Rv32.scW f names mmu) (f.scW mmu) := by
  refine widensSome_behind (f.widens_requireExtension _) ?_
  refine MirrorsSome.bind (f.widens_readReg _) fun a => MirrorsSome.bind
    (f.widens_readReg _) fun b => ?_
  rw [setWidth_held]
  refine WidensSome.named (x := fun addr => do
    let haveReservation ← InsnM.access (mmu.storeConditional 32 addr b)
    f.writeRd (Rv32.flag !haveReservation)
    pure f.npc) (setWidth_held a) ?_
  refine Mirrors.bind (widens_access _) fun haveReservation => ?_
  rw [held_flag]
  exact Mirrors.bind (f.widens_writeReg _ _) fun _ => Mirrors.pure _ _ _

/-! ### CSRs -/

theorem widens_getCsr (which : Reg) (write : Bool) :
    Widens id (f.getCsr which write : InsnM 32 ω ι Reg) (f.getCsr which write) :=
  Mirrors.get_bind fun _ => f.widens_orRefuse _

theorem widens_putCsr (which val : Reg) :
    Widens id (f.putCsr which val : InsnM 32 ω ι Unit) (f.putCsr which val) := by
  refine Mirrors.update fun c => ?_
  dsimp only
  rw [← Cpu.widen_withHart]
  generalize c.withHart (fun h => h.putCsr f.cfg which.toNat val) = c'
  have hold : c.widen.hart = c.hart := rfl
  have hnew : c'.widen.hart = c'.hart := rfl
  rw [hold, hnew]
  split_ifs
  · rfl
  · rfl

/-- The files of the CSR instructions: a CSR is read and written as `sext_xlen` has it. -/
theorem widens_csrFile {write : Bool} {operand : Reg → InsnM 32 ω ι Reg}
    {operand' : Reg → InsnM 64 ω ι Reg}
    {result : Reg → BitVec 32} {result' : Reg → Reg}
    (hoperand : ∀ old, Widens id (operand old) (operand' old))
    (hresult : ∀ old, result' old = held (result old)) :
    Widens id (f.csrFile write operand result) (f.csrFile write operand' result') := by
  have hput : ∀ old, Widens id
      (f.writeRd (result old) >>= fun _ => setPcAndSerialize f.npc : InsnM 32 ω ι Reg)
      (f.writeRd (result' old) >>= fun _ => setPcAndSerialize f.npc) := by
    intro old
    rw [hresult]
    exact Mirrors.bind (f.widens_writeReg _ _) fun _ => widens_setPcAndSerialize _
  refine Mirrors.get_bind fun c => ?_
  change Widens id _ (if c.serialized then _ else _)
  cases c.serialized with
  | false => exact Mirrors.pure _ _ _
  | true =>
    refine Mirrors.bind (Mirrors.update fun _ => rfl) fun _ => Mirrors.bind
      (widens_getCsr _ _) fun old => ?_
    cases write with
    | false => exact hput old
    | true =>
      exact Mirrors.bind (hoperand old) fun val =>
        Mirrors.bind (widens_putCsr _ _) fun _ => hput old

theorem widens_csrReg (hx : f.cfg.isa.xlen = .rv32) {write : Bool} (op : Reg → Reg → Reg) :
    Widens id (Rv32.csrReg f write op : InsnM 32 ω ι Reg) (f.csrFile write (fun old => do
      let a ← f.rs1
      pure (op old a)) f.sextXlen) :=
  widens_csrFile (fun _ => Mirrors.bind (f.widens_readReg _) fun _ => Mirrors.pure _ _ _)
    (sextXlen_rv32 hx)

theorem widens_csrrw (hx : f.cfg.isa.xlen = .rv32) :
    Widens id (Rv32.csrReg f true fun _ a => a : InsnM 32 ω ι Reg) f.csrrw :=
  widens_csrFile (fun _ => (f.widens_readReg _).represented) (sextXlen_rv32 hx)

theorem widens_csrImm (hx : f.cfg.isa.xlen = .rv32) {write : Bool} (operand : Reg → Reg) :
    Widens id (Rv32.csrFile f write fun old => pure (operand old) : InsnM 32 ω ι Reg)
      (f.csrFile write (fun old => pure (operand old)) f.sextXlen) :=
  widens_csrFile (fun _ => Mirrors.pure _ _ _) (sextXlen_rv32 hx)

/-! ### Calls, returns and fences -/

theorem widens_ecall : Widens id (f.ecall : InsnM 32 ω ι Reg) f.ecall := by
  refine Mirrors.get_bind fun c => ?_
  have hhart : c.widen.hart = c.hart := rfl
  rw [hhart]
  dsimp only
  split_ifs
  iterate 4 exact Mirrors.throw _ _ _
  exact Mirrors.bind (widens_withHart _) fun _ => Mirrors.pure _ _ _

theorem widens_ebreak : Widens id (f.ebreak : InsnM 32 ω ι Reg) f.ebreak := by
  refine Mirrors.get_bind fun c => ?_
  have hhart : c.widen.hart = c.hart := rfl
  rw [hhart]
  dsimp only
  split_ifs
  · exact Mirrors.throw _ _ _
  · exact Mirrors.throw _ _ _

/-- What is done to the hart alone has nothing to do with registers. -/
theorem widens_hartFile (step : Hart → Except Refusal Hart) :
    Widens id (f.hartFile step : InsnM 32 ω ι Reg) (f.hartFile step) :=
  Mirrors.get_bind fun _ => Mirrors.bind (f.widens_orRefuse _) fun _ =>
    Mirrors.bind (widens_withHart _) fun _ => Mirrors.pure _ _ _

theorem widens_refuseIf (r : Option Refusal) :
    Widens id (f.refuseIf r : InsnM 32 ω ι Unit) (f.refuseIf r) := by
  cases r with
  | none => exact Mirrors.pure _ _ _
  | some e => exact f.widens_orRefuse _

theorem widens_wfi : Widens id (f.wfi : InsnM 32 ω ι Reg) f.wfi :=
  Mirrors.get_bind fun _ => Mirrors.bind (widens_refuseIf _) fun _ =>
    Mirrors.bind (widens_setPcAndSerialize _) fun _ => Mirrors.throw _ _ _

theorem widens_sfenceVma : Widens id (f.sfenceVma : InsnM 32 ω ι Reg) f.sfenceVma :=
  Mirrors.get_bind fun _ => Mirrors.bind (widens_refuseIf _) fun _ =>
    Mirrors.bind (widens_withHart _) fun _ => Mirrors.pure _ _ _

theorem widens_fence : Widens id (f.fence : InsnM 32 ω ι Reg) f.fence :=
  Mirrors.pure _ _ _

theorem widens_fenceI : Widens id (f.fenceI : InsnM 32 ω ι Reg) f.fenceI :=
  Mirrors.bind (Mirrors.update fun _ => rfl) fun _ => Mirrors.pure _ _ _

/-! ### Compressed instructions -/

theorem widens_rvcRegReg {op : BitVec 32 → BitVec 32 → BitVec 32} {op' : Reg → Reg → Reg}
    (h : ∀ a b, op' (held a) (held b) = held (op a b)) :
    Widens id (Rv32.rvcRegReg f op : InsnM 32 ω ι Reg) (f.withZca (f.rvcRegReg op')) := by
  refine widens_behind (f.widens_requireExtension _) ?_
  refine Mirrors.bind (f.widens_readReg _) fun a => Mirrors.bind (f.widens_readReg _) fun b => ?_
  rw [h]
  exact Mirrors.bind (f.widens_writeReg _ _) fun _ => Mirrors.pure _ _ _

theorem widens_rvcRegImm {op : BitVec 32 → BitVec 32} {op' : Reg → Reg}
    (h : ∀ a, op' (held a) = held (op a)) :
    Widens id (Rv32.rvcRegImm f op : InsnM 32 ω ι Reg) (f.rvcRegImm op') := by
  refine Mirrors.bind (f.widens_readReg _) fun a => ?_
  rw [h]
  exact Mirrors.bind (f.widens_writeReg _ _) fun _ => Mirrors.pure _ _ _

theorem widens_rvcRdImm {op : BitVec 32 → BitVec 32} {op' : Reg → Reg}
    (h : ∀ a, op' (held a) = held (op a)) :
    Widens id (Rv32.rvcRdImm f op : InsnM 32 ω ι Reg) (f.rvcRdImm op') := by
  refine Mirrors.bind (f.widens_readReg _) fun a => ?_
  rw [h]
  exact Mirrors.bind (f.widens_writeReg _ _) fun _ => Mirrors.pure _ _ _

/-- A check of a number of places. -/
theorem widens_behind_places (hx : f.cfg.isa.xlen = .rv32) {n : Reg} {x : InsnM 32 ω ι Reg}
    {y : InsnM 64 ω ι Reg}
    (h : n < 32#64 → Widens id x y) :
    Widens id (Rv32.behind (f.require (decide (n < 32#64))) x)
      (f.require (decide (n < BitVec.ofNat 64 f.cfg.isa.xlen.bits)) >>= fun _ => y) := by
  rw [hx]
  exact widens_behind_require fun hb => h (of_decide_eq_true hb)

/-- Shifts by an immediate, which is refused from 32 on. -/
theorem widens_shiftImm (hx : f.cfg.isa.xlen = .rv32) {op : BitVec 32 → BitVec 32} {op' : Reg → Reg}
    (h : Insn.shamt f.insn < 32#64 → ∀ a, op' (held a) = held (op a)) :
    Widens id (Rv32.shiftImm f op : InsnM 32 ω ι Reg) (f.withShamt (f.regImm op')) :=
  widens_behind_places hx fun hlt => widens_regImm (h hlt)

theorem widens_rvcShift (hx : f.cfg.isa.xlen = .rv32) {x : InsnM 32 ω ι Reg} {y : InsnM 64 ω ι Reg}
    (h : Insn.rvcZimm f.insn < 32#64 → Widens id x y) :
    Widens id (Rv32.rvcShift f x) (f.withZca (f.withZimm y)) :=
  widens_behind (f.widens_requireExtension _) (widens_behind_places hx h)

theorem widens_rvcAddSp (hx : f.cfg.isa.xlen = .rv32) (offset : Reg)
    {put : BitVec 32 → InsnM 32 ω ι Unit}
    {put' : Reg → InsnM 64 ω ι Unit} (hput : ∀ a, Widens id (put a) (put' (held a))) :
    Widens id (Rv32.rvcAddSp f offset put) (f.requiring (offset != 0#64) do
      let sp ← f.rvcSp
      put' (f.sextXlen (sp + offset))
      pure f.npc) := by
  refine widens_behind (f.widens_require _) (Mirrors.bind (f.widens_readReg _) fun sp => ?_)
  rw [sextXlen_rv32 hx, low_add]
  exact Mirrors.bind (hput _) fun _ => Mirrors.pure _ _ _

theorem widens_cAdd (hx : f.cfg.isa.xlen = .rv32) :
    Widens id (Rv32.behind (f.requireExtension .zca)
      (Rv32.behind (f.require (Insn.rvcRs2 f.insn != 0#64)) do
      let a ← f.rvcRs1
      let b ← f.rvcRs2
      f.writeRd (a + b)
      pure f.npc) : InsnM 32 ω ι Reg) f.cAdd := by
  refine widens_behind (f.widens_requireExtension _) (widens_behind (f.widens_require _) ?_)
  refine Mirrors.bind (f.widens_readReg _) fun a => Mirrors.bind (f.widens_readReg _) fun b => ?_
  rw [Rv32.value_add hx]
  exact Mirrors.bind (f.widens_writeReg _ _) fun _ => Mirrors.pure _ _ _

theorem widens_cMv :
    Widens id (Rv32.behind (f.requireExtension .zca)
      (Rv32.behind (f.require (Insn.rvcRs2 f.insn != 0#64)) do
      let b ← f.rvcRs2
      f.writeRd b
      pure f.npc) : InsnM 32 ω ι Reg) f.cMv :=
  widens_behind (f.widens_requireExtension _) (widens_behind (f.widens_require _)
    (Mirrors.bind (f.widens_readReg _) fun _ => Mirrors.bind
      (f.widens_writeReg _ _) fun _ => Mirrors.pure _ _ _))

theorem widens_cLui (hx : f.cfg.isa.xlen = .rv32) :
    Widens id (Rv32.behind (f.requireExtension .zca) (
      if Insn.rvcRd f.insn = 2#64 then Rv32.rvcAddSp f (Insn.rvcAddi16spImm f.insn)
      (f.writeReg Frame.xSp)
      else Rv32.behind (f.require (Insn.rvcImm f.insn != 0#64))
        (Rv32.constant f (Rv32.imm (Insn.rvcImm f.insn) <<< 12))) : InsnM 32 ω ι Reg) f.cLui := by
  refine widens_behind (f.widens_requireExtension _) ?_
  by_cases hsp : Insn.rvcRd f.insn = 2#64
  · rw [if_pos hsp, if_pos hsp]
    exact widens_rvcAddSp hx _ fun a => f.widens_writeReg _ a
  · rw [if_neg hsp, if_neg hsp]
    exact widens_behind (f.widens_require _) (widens_constant (Rv32.held_rvcImm_shiftLeft _).symm)

theorem widens_rvcBranch {taken : BitVec 32 → Bool} {taken' : Reg → Bool}
    (h : ∀ a, taken' (held a) = taken a) :
    WidensSome id (fun names => Rv32.rvcBranch f names taken : Naming → InsnM 32 ω ι Reg)
    (f.rvcBranch taken') := by
  refine widensSome_behind (f.widens_requireExtension _)
    (MirrorsSome.bind (f.widens_readReg _) fun a => ?_)
  rw [h]
  cases taken a with
  | false => exact MirrorsSome.const (Mirrors.pure _ _ _)
  | true => exact widens_jumpTo (low_pc_add f _)

/-- A jump to a register. -/
theorem widens_rvcJump {jump : Naming → BitVec 32 → InsnM 32 ω ι Reg}
    {jump' : Reg → InsnM 64 ω ι Reg}
    (h : ∀ x target, x.setWidth 32 = target → WidensSome id (fun names => jump names target)
      (jump' x)) :
    WidensSome id (fun names => Rv32.rvcJump f (jump names))
      (f.withZca (f.requiring (Insn.rvcRs1 f.insn != 0#64) do
        let a ← f.rvcRs1
        jump' (a &&& ~~~1#64))) :=
  widensSome_behind (f.widens_requireExtension _) (widensSome_behind (f.widens_require _)
    (MirrorsSome.bind (f.widens_readReg _) fun a => h _ _ (low_even (setWidth_held a))))

theorem widens_cJal (hx : f.cfg.isa.xlen = .rv32) (hnpc : f.npc = held (Rv32.pc f + 2#32)) :
    WidensSome id (fun names => Rv32.behind (f.requireExtension .zca)
      (Rv32.link f names Frame.xRa 2#32 (Rv32.pc f + Rv32.imm (Insn.rvcJImm f.insn))) :
      Naming → InsnM 32 ω ι Reg)
      f.cJal := by
  rw [cJal, hx]
  exact widensSome_behind (f.widens_requireExtension _) (widens_link hnpc (low_pc_add f _))

/-! Memory -/

theorem widens_cLw :
    WidensSome id (fun names => Rv32.behind (f.requireExtension .zca)
      (Rv32.rvcLoad f names mmu f.rvcRs1s (Insn.rvcLwImm f.insn) f.writeRvcRs2s)) (f.cLw mmu) :=
  widensSome_behind (f.widens_requireExtension _)
    (widens_loadTo mmu _ (f.widens_readReg _) fun val => f.widens_writeReg _ val)

theorem widens_cLwsp :
    WidensSome id (fun names => Rv32.behind (f.requireExtension .zca)
      (Rv32.behind (f.require (Insn.rvcRd f.insn != 0#64))
        (Rv32.rvcLoad f names mmu f.rvcSp (Insn.rvcLwspImm f.insn) f.writeRd))) (f.cLwsp mmu) :=
  widensSome_behind (f.widens_requireExtension _) (widensSome_behind (f.widens_require _)
    (widens_loadTo mmu _ (f.widens_readReg _) fun val => f.widens_writeReg _ val))

theorem widens_rvcStore {base reg : InsnM 32 ω ι (BitVec 32)} {base' reg' : InsnM 64 ω ι Reg}
    (offset : Reg)
    (hbase : Widens held base base') (hreg : Widens held reg reg') :
    WidensSome id (fun names => Rv32.rvcStore f names mmu base reg offset) (f.withZca do
      let a ← base'
      let b ← reg'
      InsnM.access (mmu.store 32 (a + offset) (b.setWidth 32))
      pure f.npc) :=
  widensSome_behind (f.widens_requireExtension _)
    (widens_storeFrom mmu offset hbase hreg setWidth_held)

theorem widens_fpLoad {ext : Ext} {n : Nat} {base : InsnM 32 ω ι (BitVec 32)}
    {base' : InsnM 64 ω ι Reg}
    (offset reg : Reg) (freg : BitVec n → BitVec 128) (hbase : Widens held base base') :
    WidensSome id (fun names => Rv32.fpLoad f names mmu ext n base offset reg freg)
      (f.withFp ext (f.fpLoad mmu n base' offset reg freg)) :=
  widensSome_behind (f.widens_requireExtension _) (widensSome_behind f.widens_requireFp
    (widens_loadTo mmu offset hbase fun val => f.widens_writeFreg reg (freg val)))

theorem widens_fpStore {ext : Ext} {n : Nat} {base : InsnM 32 ω ι (BitVec 32)}
    {base' : InsnM 64 ω ι Reg}
    (offset reg : Reg) (hbase : Widens held base base') :
    WidensSome id (fun names => Rv32.fpStore f names mmu ext n base offset reg)
      (f.withFp ext (f.fpStore mmu n base' offset reg)) :=
  widensSome_behind (f.widens_requireExtension _) (widensSome_behind f.widens_requireFp
    (widens_storeFrom mmu offset hbase (widens_readFreg reg) fun _ => rfl))

end Frame

end Nnemu

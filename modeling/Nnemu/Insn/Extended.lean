import Nnemu.Insn.Families
import Nnemu.Loop.Rest

/-!
# Registers of 32 bits in registers of 64

On RV32 every handler does on extended registers what the manual says on registers of 32 bits.
Nothing else writes them in the execute loop, so they are extended at all times.

`Handler.widens` is the statement for one handler, and its proof a case analysis over the opcodes
with one lemma of `Insn.Families` in each case. The run is over the processor with these handlers:
what else happens in the loop does not touch registers (`Loop.Rest`), and after a reset they are
zero.
-/

namespace Nnemu

open Exec

variable {ω ι : Type} {f : Frame}

/-- **One instruction.** On RV32 the file of an instruction does what the instruction does. -/
theorem Opcode.widens (op : Opcode) (mmu : Mmu ω ι) (hx : f.cfg.isa.xlen = .rv32)
    (hnpc : f.npc = held (Rv32.pc f + Rv32.imm (Insn.length op.encoding.matchBits))) :
    WidensSome id (fun names => Rv32.file f names mmu op) (op.file mmu f) := by
  cases op with
  | add => exact MirrorsSome.const (Frame.widens_regReg (Rv32.value_add hx))
  | sub => exact MirrorsSome.const (Frame.widens_regReg (Rv32.value_sub hx))
  | and => exact MirrorsSome.const (Frame.widens_regReg (Rv32.value_and))
  | or => exact MirrorsSome.const (Frame.widens_regReg (Rv32.value_or))
  | xor => exact MirrorsSome.const (Frame.widens_regReg (Rv32.value_xor))
  | slt => exact MirrorsSome.const (Frame.widens_regReg (Rv32.value_slt))
  | sltu => exact MirrorsSome.const (Frame.widens_regReg (Rv32.value_ult))
  | sll => exact MirrorsSome.const (Frame.widens_regReg (Rv32.value_sll hx))
  | srl => exact MirrorsSome.const (Frame.widens_regReg (Rv32.value_srl hx))
  | sra => exact MirrorsSome.const (Frame.widens_regReg (Rv32.value_sra hx))
  | addi => exact MirrorsSome.const (Frame.widens_regImm (Rv32.value_addi hx))
  | andi => exact MirrorsSome.const (Frame.widens_regImm (Rv32.value_andi))
  | ori => exact MirrorsSome.const (Frame.widens_regImm (Rv32.value_ori))
  | xori => exact MirrorsSome.const (Frame.widens_regImm (Rv32.value_xori))
  | slti => exact MirrorsSome.const (Frame.widens_regImm (Rv32.value_slti))
  | sltiu => exact MirrorsSome.const (Frame.widens_regImm (Rv32.value_sltiu))
  | slli =>
    exact MirrorsSome.const
      (Frame.widens_shiftImm hx fun hlt a => Rv32.value_shiftLeft hx a (Rv32.toNat_imm hlt))
  | srli =>
    exact MirrorsSome.const
      (Frame.widens_shiftImm hx fun hlt a => Rv32.value_ushiftRight hx a (Rv32.toNat_imm hlt))
  | srai =>
    exact MirrorsSome.const
      (Frame.widens_shiftImm hx fun hlt a => Rv32.value_sshiftRight hx a (Rv32.toNat_imm hlt))
  | lui => exact MirrorsSome.const (Frame.widens_constant (Rv32.held_uImm _).symm)
  | auipc => exact MirrorsSome.const (Frame.widens_constant (Rv32.value_auipc hx))
  | mul =>
    exact MirrorsSome.const
      (Frame.widens_behind (f.widens_requireEitherExtension _ _)
      (Frame.widens_regReg (Rv32.value_mul hx)))
  | mulh =>
    exact MirrorsSome.const
      (Frame.widens_behind (f.widens_requireEitherExtension _ _)
      (Frame.widens_regReg (Rv32.value_mulh hx)))
  | mulhsu =>
    exact MirrorsSome.const
      (Frame.widens_behind (f.widens_requireEitherExtension _ _)
      (Frame.widens_regReg (Rv32.value_mulhsu hx)))
  | mulhu =>
    exact MirrorsSome.const
      (Frame.widens_behind (f.widens_requireEitherExtension _ _)
      (Frame.widens_regReg (Rv32.value_mulhu hx)))
  | div =>
    exact MirrorsSome.const
      (Frame.widens_behind (f.widens_requireExtension _) (Frame.widens_regReg (Rv32.value_div hx)))
  | divu =>
    exact MirrorsSome.const
      (Frame.widens_behind (f.widens_requireExtension _) (Frame.widens_regReg (Rv32.value_divu hx)))
  | rem =>
    exact MirrorsSome.const
      (Frame.widens_behind (f.widens_requireExtension _) (Frame.widens_regReg (Rv32.value_rem hx)))
  | remu =>
    exact MirrorsSome.const
      (Frame.widens_behind (f.widens_requireExtension _) (Frame.widens_regReg (Rv32.value_remu hx)))
  | beq => exact Frame.widens_branch Rv32.beq_held
  | bne => exact Frame.widens_branch Rv32.bne_held
  | blt => exact Frame.widens_branch (fun a b => Narrow.slt_signExtend a b (by decide))
  | bge => exact Frame.widens_branch (fun a b => Narrow.sle_signExtend b a (by decide))
  | bltu => exact Frame.widens_branch (fun a b => Narrow.ult_signExtend a b (by decide))
  | bgeu => exact Frame.widens_branch (fun a b => Narrow.ule_signExtend b a (by decide))
  | jal => exact Frame.widens_link hnpc (low_pc_add f _)
  | jalr => exact Frame.widens_jalr hnpc
  | lb => exact Frame.widens_load mmu (Rv32.value_signExtend (by decide))
  | lbu => exact Frame.widens_load mmu (Rv32.value_setWidth (by decide))
  | lh => exact Frame.widens_load mmu (Rv32.value_signExtend (by decide))
  | lhu => exact Frame.widens_load mmu (Rv32.value_setWidth (by decide))
  | lw => exact Frame.widens_load mmu fun _ => rfl
  | sb => exact Frame.widens_store mmu (by decide)
  | sh => exact Frame.widens_store mmu (by decide)
  | sw => exact Frame.widens_store mmu (by decide)
  | amoaddW => exact Frame.widens_amoW mmu Rv32.amo_add
  | amoandW => exact Frame.widens_amoW mmu Rv32.amo_and
  | amoorW => exact Frame.widens_amoW mmu Rv32.amo_or
  | amoxorW => exact Frame.widens_amoW mmu Rv32.amo_xor
  | amoswapW => exact Frame.widens_amoW mmu Rv32.amo_swap
  | amomaxW => exact Frame.widens_amoW mmu (Rv32.amo_max _)
  | amomaxuW => exact Frame.widens_amoW mmu (Rv32.amo_max _)
  | amominW => exact Frame.widens_amoW mmu (Rv32.amo_min _)
  | amominuW => exact Frame.widens_amoW mmu (Rv32.amo_min _)
  | lrW => exact Frame.widens_lrW mmu
  | scW => exact Frame.widens_scW mmu
  | csrrw => exact MirrorsSome.const (Frame.widens_csrrw hx)
  | csrrs => exact MirrorsSome.const (Frame.widens_csrReg hx _)
  | csrrc => exact MirrorsSome.const (Frame.widens_csrReg hx _)
  | csrrwi => exact MirrorsSome.const (Frame.widens_csrImm hx _)
  | csrrsi => exact MirrorsSome.const (Frame.widens_csrImm hx _)
  | csrrci => exact MirrorsSome.const (Frame.widens_csrImm hx _)
  | cAdd => exact MirrorsSome.const (Frame.widens_cAdd hx)
  | cMv => exact MirrorsSome.const (Frame.widens_cMv)
  | cAddi =>
    exact MirrorsSome.const
      (Frame.widens_behind (f.widens_requireExtension _)
      (Frame.widens_rvcRdImm (Rv32.value_cAddi hx)))
  | cAddi4spn =>
    exact MirrorsSome.const
      (Frame.widens_behind (f.widens_requireExtension _)
      (Frame.widens_rvcAddSp hx _ fun a => f.widens_writeReg _ a))
  | cLi =>
    exact MirrorsSome.const
      (Frame.widens_behind (f.widens_requireExtension _)
      (Frame.widens_constant (Rv32.held_rvcImm _).symm))
  | cLui => exact MirrorsSome.const (Frame.widens_cLui hx)
  | cSlli =>
    exact MirrorsSome.const (Frame.widens_rvcShift hx fun hlt => Frame.widens_rvcRdImm fun a =>
      Rv32.value_shiftLeft hx a (Rv32.toNat_imm hlt))
  | cSrli =>
    exact MirrorsSome.const (Frame.widens_rvcShift hx fun hlt => Frame.widens_rvcRegImm fun a =>
      Rv32.value_ushiftRight hx a (Rv32.toNat_imm hlt))
  | cSrai =>
    exact MirrorsSome.const (Frame.widens_rvcShift hx fun hlt => Frame.widens_rvcRegImm fun a =>
      Rv32.value_sshiftRight hx a (Rv32.toNat_imm hlt))
  | cAndi =>
    exact MirrorsSome.const
      (Frame.widens_behind (f.widens_requireExtension _) (Frame.widens_rvcRegImm Rv32.value_cAndi))
  | cSub => exact MirrorsSome.const (Frame.widens_rvcRegReg (Rv32.value_sub hx))
  | cXor => exact MirrorsSome.const (Frame.widens_rvcRegReg Rv32.value_xor)
  | cOr => exact MirrorsSome.const (Frame.widens_rvcRegReg Rv32.value_or)
  | cAnd => exact MirrorsSome.const (Frame.widens_rvcRegReg Rv32.value_and)
  | cJ =>
    exact Frame.widensSome_behind (f.widens_requireExtension _)
      (Frame.widens_jumpTo (low_pc_add f _))
  | cJal => exact Frame.widens_cJal hx hnpc
  | cJr => exact Frame.widens_rvcJump fun _ _ h => Frame.widens_jumpTo h
  | cJalr => exact Frame.widens_rvcJump fun _ _ h => Frame.widens_link hnpc h
  | cBeqz => exact Frame.widens_rvcBranch fun a => Rv32.beq_held a 0#32
  | cBnez => exact Frame.widens_rvcBranch fun a => Rv32.bne_held a 0#32
  | cEbreak =>
    exact MirrorsSome.const
      (Frame.widens_behind (f.widens_requireExtension _) (Frame.widens_ebreak))
  | cLw => exact Frame.widens_cLw mmu
  | cLwsp => exact Frame.widens_cLwsp mmu
  | cSw => exact Frame.widens_rvcStore mmu _ (f.widens_readReg _) (f.widens_readReg _)
  | cSwsp => exact Frame.widens_rvcStore mmu _ (f.widens_readReg _) (f.widens_readReg _)
  | cFld => exact Frame.widens_fpLoad mmu _ _ _ (f.widens_readReg _)
  | cFldsp => exact Frame.widens_fpLoad mmu _ _ _ (f.widens_readReg _)
  | cFlw =>
    rw [Opcode.file, Frame.cFlw, hx]
    exact Frame.widens_fpLoad mmu _ _ _ (f.widens_readReg _)
  | cFlwsp =>
    rw [Opcode.file, Frame.cFlwsp, hx]
    exact Frame.widens_fpLoad mmu _ _ _ (f.widens_readReg _)
  | cFsd => exact Frame.widens_fpStore mmu _ _ (f.widens_readReg _)
  | cFsdsp => exact Frame.widens_fpStore mmu _ _ (f.widens_readReg _)
  | cFsw =>
    rw [Opcode.file, Frame.cFsw, hx]
    exact Frame.widens_fpStore mmu _ _ (f.widens_readReg _)
  | cFswsp =>
    rw [Opcode.file, Frame.cFswsp, hx]
    exact Frame.widens_fpStore mmu _ _ (f.widens_readReg _)
  | fence => exact MirrorsSome.const (Frame.widens_fence)
  | fenceI => exact MirrorsSome.const (Frame.widens_fenceI)
  | ebreak => exact MirrorsSome.const (Frame.widens_ebreak)
  | ecall => exact MirrorsSome.const (Frame.widens_ecall)
  | sfenceVma => exact MirrorsSome.const (Frame.widens_sfenceVma)
  | wfi => exact MirrorsSome.const (Frame.widens_wfi)
  | dret => exact MirrorsSome.const (Frame.widens_hartFile _)
  | mret => exact MirrorsSome.const (Frame.widens_hartFile _)
  | sret => exact MirrorsSome.const (Frame.widens_hartFile _)
  | addw => exact MirrorsSome.const (Frame.widens_onRv64 hx _)
  | subw => exact MirrorsSome.const (Frame.widens_onRv64 hx _)
  | sllw => exact MirrorsSome.const (Frame.widens_onRv64 hx _)
  | srlw => exact MirrorsSome.const (Frame.widens_onRv64 hx _)
  | sraw => exact MirrorsSome.const (Frame.widens_onRv64 hx _)
  | addiw => exact MirrorsSome.const (Frame.widens_onRv64 hx _)
  | slliw => exact MirrorsSome.const (Frame.widens_onRv64 hx _)
  | srliw => exact MirrorsSome.const (Frame.widens_onRv64 hx _)
  | sraiw => exact MirrorsSome.const (Frame.widens_onRv64 hx _)
  | lwu => exact MirrorsSome.const (Frame.widens_onRv64 hx _)
  | ld => exact MirrorsSome.const (Frame.widens_onRv64 hx _)
  | sd => exact MirrorsSome.const (Frame.widens_onRv64 hx _)
  | divw =>
    exact MirrorsSome.const (Frame.widens_requireExtension_illegal _ (Frame.widens_onRv64 hx _))
  | divuw =>
    exact MirrorsSome.const (Frame.widens_requireExtension_illegal _ (Frame.widens_onRv64 hx _))
  | remw =>
    exact MirrorsSome.const (Frame.widens_requireExtension_illegal _ (Frame.widens_onRv64 hx _))
  | remuw =>
    exact MirrorsSome.const (Frame.widens_requireExtension_illegal _ (Frame.widens_onRv64 hx _))
  | amoaddD =>
    exact MirrorsSome.const (Frame.widens_requireExtension_illegal _ (Frame.widens_onRv64 hx _))
  | amoandD =>
    exact MirrorsSome.const (Frame.widens_requireExtension_illegal _ (Frame.widens_onRv64 hx _))
  | amomaxD =>
    exact MirrorsSome.const (Frame.widens_requireExtension_illegal _ (Frame.widens_onRv64 hx _))
  | amomaxuD =>
    exact MirrorsSome.const (Frame.widens_requireExtension_illegal _ (Frame.widens_onRv64 hx _))
  | amominD =>
    exact MirrorsSome.const (Frame.widens_requireExtension_illegal _ (Frame.widens_onRv64 hx _))
  | amominuD =>
    exact MirrorsSome.const (Frame.widens_requireExtension_illegal _ (Frame.widens_onRv64 hx _))
  | amoorD =>
    exact MirrorsSome.const (Frame.widens_requireExtension_illegal _ (Frame.widens_onRv64 hx _))
  | amoswapD =>
    exact MirrorsSome.const (Frame.widens_requireExtension_illegal _ (Frame.widens_onRv64 hx _))
  | amoxorD =>
    exact MirrorsSome.const (Frame.widens_requireExtension_illegal _ (Frame.widens_onRv64 hx _))
  | lrD =>
    exact MirrorsSome.const (Frame.widens_requireExtension_illegal _ (Frame.widens_onRv64 hx _))
  | scD =>
    exact MirrorsSome.const (Frame.widens_requireExtension_illegal _ (Frame.widens_onRv64 hx _))
  | cAddw =>
    exact MirrorsSome.const (Frame.widens_requireExtension_illegal _ (Frame.widens_onRv64 hx _))
  | cSubw =>
    exact MirrorsSome.const (Frame.widens_requireExtension_illegal _ (Frame.widens_onRv64 hx _))
  | mulw =>
    exact MirrorsSome.const
      (Frame.widens_requireEitherExtension_illegal _ _ (Frame.widens_onRv64 hx _))

/-! ### Calls of handlers -/

/-- What a handler stands for on registers of 32 bits. -/
def Rv32.execute (h : Handler) (cfg : Config) (names : Naming) (mmu : Mmu ω ι) (bits pc : Reg) :
    InsnM 32 ω ι Reg :=
  match h.func with
  | .illegalInstruction =>
    throw (.trap { cause := Hart.causeIllegalInstruction, tval := bits &&& 0xffffffff#64 })
  | .insn op => file (op.frame cfg h.variant bits pc) names mmu op

/-- **One call** of a handler. -/
theorem Handler.widens (h : Handler) {cfg : Config} (hx : cfg.isa.xlen = .rv32)
    (mmu : Mmu ω ι) (bits pc : Reg) :
    WidensSome id (fun names => Rv32.execute h cfg names mmu bits pc)
    (h.execute cfg mmu bits pc) := by
  obtain ⟨func, variant⟩ := h
  cases func with
  | illegalInstruction => exact MirrorsSome.const (Mirrors.throw _ _ _)
  | insn op =>
    refine Opcode.widens op mmu hx ?_
    have hframe : (op.frame cfg variant bits pc).npc =
        (op.frame cfg variant bits pc).sextXlen (pc + Insn.length op.encoding.matchBits) := rfl
    rw [hframe, Frame.sextXlen_rv32 hx]
    exact congrArg held (low_pc_add (op.frame cfg variant bits pc) _)

/-! ### The processor -/

/-- `insn_fetch_t` -/
structure InsnFetch where
  func : Handler
  insn : Reg

/-- A processor of the built instructions. What a fetch decodes, and what a CSR instruction writes
to `minstret`, does not matter here. -/
def insnCore (cfg : Config) (logged : Bool) (mmu : Mmu ω InsnFetch)
    (fetch : Reg → CpuM ω InsnFetch InsnFetch)
    (written : InsnFetch → Cpu (Machine 64 ω) InsnFetch → Option Reg) :
    Core (Machine 64 ω) InsnFetch where
  cfg := cfg
  logged := logged
  fetch addr := InsnM.access (fetch addr)
  length fetched := Insn.length fetched.insn
  execute fetched pc := fetched.func.execute cfg mmu fetched.insn pc
  written := written
  serializes fetched := fetched.func.serializes cfg fetched.insn
  accesses fetched := fetched.func.accesses cfg fetched.insn
  strands fetched := fetched.func.strands cfg fetched.insn

/-- Every integer register holds a word of 32 bits, extended with its sign. -/
def Machine.Extended (m : Machine 64 ω) : Prop :=
  ∀ i, sext32 (m.xpr.val i) = m.xpr.val i

theorem Xpr.extended_widen (x : Xpr 32) (i : BitVec 5) : sext32 (x.widen.val i) = x.widen.val i :=
  sext32_held (x.val i)

/-- Such a machine is one with registers of 32 bits. -/
theorem Cpu.eq_widen {c : Cpu (Machine 64 ω) ι} (h : c.rest.Extended) :
    ∃ c₃₂ : Cpu (Machine 32 ω) ι, c₃₂.widen = c := by
  have hzero : (c.rest.xpr.val 0#5).setWidth 32 = 0#32 := by
    rw [c.rest.xpr.zero]
    rfl
  refine ⟨c.withRest
    { xpr := ⟨fun i => (c.rest.xpr.val i).setWidth 32, hzero⟩, fpr := c.rest.fpr,
      world := c.rest.world }, ?_⟩
  have hxpr : Xpr.widen ⟨fun i => (c.rest.xpr.val i).setWidth 32, hzero⟩ = c.rest.xpr := by
    rw [Xpr.widen, Xpr.mk.injEq]
    exact funext h
  exact congrArg (fun xpr => c.withRest { c.rest with xpr := xpr }) hxpr

/-- What is done to the machine besides does not touch the integer registers, unless it resets
them. -/
def KeepsXpr (b : Batch (Machine 64 ω) ι) : LoopOp (Machine 64 ω) → Prop
  | .others m => m.xpr = b.cpu.rest.xpr ∨ m.xpr = Xpr.reset
  | _ => True

namespace Batch

variable {cfg : Config} {logged : Bool} {mmu : Mmu ω InsnFetch}
  {fetch : Reg → CpuM ω InsnFetch InsnFetch}
  {written : InsnFetch → Cpu (Machine 64 ω) InsnFetch → Option Reg}
    {b : Batch (Machine 64 ω) InsnFetch}

theorem extended_reset {m : Machine 64 ω} (h : m.xpr = Xpr.reset) : m.Extended := by
  intro i
  rw [h]
  rfl

/-- The step lemma inside a call. -/
theorem extended_tick (hx : cfg.isa.xlen = .rv32) (h : b.cpu.rest.Extended) :
    (b.tick (insnCore cfg logged mmu fetch written)).cpu.rest.Extended := by
  refine rest_tick (fun addr c hc => ?_) (fun fetched pc c hc => ?_) h
  · change Machine.Extended (final (InsnM.access (fetch addr) c)).rest
    rw [InsnM.access]
    cases fetch addr (c.withRest c.rest.world) with
    | ok a c' => exact hc
    | error e c' => exact hc
  · obtain ⟨c₃₂, rfl⟩ := Cpu.eq_widen hc
    obtain ⟨names, hrun⟩ := fetched.func.widens hx mmu fetched.insn pc c₃₂
    change Machine.Extended (final (fetched.func.execute cfg mmu fetched.insn pc c₃₂.widen)).rest
    rw [hrun, final_represent]
    exact Xpr.extended_widen _

/-- And between two calls. -/
theorem extended_between {core : Core (Machine 64 ω) ι} {b : Batch (Machine 64 ω) ι}
    (h : b.cpu.rest.Extended)
    {op : LoopOp (Machine 64 ω)} (hop : KeepsXpr b op) : (b.between core op).cpu.rest.Extended := by
  cases op with
  | tick => exact h
  | call request n =>
    rw [between, rest_call]
    exact h
  | timeSync mtime =>
    rw [between, rest_withHart]
    exact h
  | pin p level =>
    rw [between, rest_withHart]
    exact h
  | others m =>
    obtain hsame | hreset := hop
    · intro i
      rw [between, hsame]
      exact h i
    · exact extended_reset hreset
  | reset halt =>
    have hrest : (b.reset core halt).cpu.rest = b.cpu.rest := b.cpu.rest_withHart _
    rw [between, hrest]
    exact h

end Batch

/-- **RV32.** Every handler does on extended registers what its instruction does on registers of 32
bits, and in every run of a processor the registers are extended. The first part is about one call
in any state, the second about whatever the loop does with the calls. -/
theorem registers_extended {cfg : Config} (hx : cfg.isa.xlen = .rv32) (mmu : Mmu ω InsnFetch) :
    (∀ (h : Handler) (bits pc : Reg) (c : Cpu (Machine 32 ω) InsnFetch), ∃ names,
      h.execute cfg mmu bits pc c.widen =
        represent Cpu.widen id (Rv32.execute h cfg names mmu bits pc c)) ∧
    ∀ (logged : Bool) (fetch : Reg → CpuM ω InsnFetch InsnFetch)
      (written : InsnFetch → Cpu (Machine 64 ω) InsnFetch → Option Reg)
      (b : Batch (Machine 64 ω) InsnFetch)
      (ops : List (LoopOp (Machine 64 ω))), b.cpu.rest.xpr = Xpr.reset →
      Run.Along (Batch.play (insnCore cfg logged mmu fetch written)) KeepsXpr b ops →
      Run.Always (Batch.play (insnCore cfg logged mmu fetch written)) (fun b => b.cpu.rest.Extended)
        b ops := by
  refine ⟨fun h bits pc c => h.widens hx mmu bits pc c,
    fun logged fetch written b ops hstart hops => ?_⟩
  refine Run.Always.of_step (I := fun b => b.cpu.rest.Extended) (fun b op hext hop => ?_)
    (fun _ h => h)
    (Batch.extended_reset hstart) hops
  obtain heq | heq := Batch.play_cases (insnCore cfg logged mmu fetch written) b op
  · rw [heq]
    exact Batch.extended_tick hx hext
  · rw [heq]
    split
    · exact hext
    · exact Batch.extended_between hext hop

/-- An MMU with nothing behind it: every access faults. -/
def emptyMmu : Mmu Unit InsnFetch where
  load _ addr := throw (.trap { cause := 5#64, tval := addr })
  store _ addr _ := throw (.trap { cause := 7#64, tval := addr })
  checkStore _ addr := throw (.trap { cause := 7#64, tval := addr })
  loadReserved _ addr := throw (.trap { cause := 5#64, tval := addr })
  checkLoadReservation _ addr := throw (.trap { cause := 7#64, tval := addr })
  yieldLoadReservation := pure ()

/-- `lui ra, 0x80000` -/
def luiFetch : InsnFetch :=
  ⟨⟨.insn .lui, ⟨false, false⟩⟩, 0x800000b7#64⟩

/-- A hart of RV32 with registers of `w` bits. -/
def bootCpu (w : Nat) : Cpu (Machine w Unit) InsnFetch where
  hart := Hart.init rv32h false
  serialized := false
  checkTriggersIcount := false
  matchedTrigger := none
  icache := fun _ => ⟨invalidTag, 0, luiFetch⟩
  ledger := ⟨0#64, none⟩
  rest := ⟨Xpr.reset, fun _ => 0#128, ()⟩

/-- The hart finds `lui` wherever it fetches. -/
theorem registers_extended_lui :
    (∃ names, luiFetch.func.execute rv32h emptyMmu luiFetch.insn 0x1000#64 (bootCpu 32).widen =
      represent Cpu.widen id
      (Rv32.execute luiFetch.func rv32h names emptyMmu luiFetch.insn 0x1000#64 (bootCpu 32))) ∧
    Run.Always (Batch.play (insnCore rv32h false emptyMmu (fun _ => pure luiFetch) fun _ _ => none))
      (fun b => b.cpu.rest.Extended) ⟨bootCpu 64, 0#64, 0#64, 0x1000#64, .idle⟩
      [.call .none 2#64, .tick, .tick, .tick, .tick] :=
  ⟨(registers_extended rfl emptyMmu).1 luiFetch.func luiFetch.insn 0x1000#64 (bootCpu 32),
    (registers_extended rfl emptyMmu).2 false (fun _ => pure luiFetch) (fun _ _ => none)
      ⟨bootCpu 64, 0#64, 0#64, 0x1000#64, .idle⟩ [.call .none 2#64, .tick, .tick, .tick, .tick] rfl
      ⟨trivial, trivial, trivial, trivial, trivial, trivial⟩⟩

end Nnemu

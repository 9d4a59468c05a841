import Nnemu.Hart.Extensions
import Nnemu.Lib.Bits

/-!
# Where the program counter comes from

The handlers of `riscv_insn_list.txt` compute the next `pc`, `advance_pc` in `processor_t::step`
stores it. `Hart.handler` embeds the ones that jump and the ways of going on, `Hart.advancePc` the
macro with its odd sentinels. A hart runs `FlowOp`s: instructions, whose operands are given with
them, and the events of `HartOp`.

Every address comes out even and fits the alignment of the moment: the jumps clear bit 0 and check
bit 1, the trap vectors hold a clear bit 1 (`Targets`), and what is read back from the `epc`
registers is masked when it is used.

The alignment of the moment is two bytes with C and four without, and it can change under a running
program: a write to `misa` that switches C off is ignored where the next instruction would be
misaligned, which is what the invariant needs there. The sentinels of `advance_pc` are odd on
purpose, so that no address a program can reach is mistaken for one.
-/

namespace Nnemu

/-- The objects of class `epc_csr_t`. -/
def Csr.isEpc : Csr → Bool
  | mepc | sepc | vsepc | dpc | mnepc => true
  | _ => false

/-- The objects of class `tvec_csr_t`. -/
def Csr.isTvec : Csr → Bool
  | mtvec | stvec | vstvec => true
  | _ => false

/-! ### Immediates -/

namespace Insn

variable (b : Reg)

/-- `insn_t::x` -/
def x (lo len : Nat) : Reg :=
  (b >>> lo) &&& ((1#64 <<< len) - 1#64)

/-- `insn_t::xs` -/
def xs (lo len : Nat) : Reg :=
  (b <<< (64 - lo - len)).sshiftRight (64 - len)

/-- `insn_t::imm_sign` -/
def immSign : Reg :=
  xs b 31 1

/-- `insn_t::i_imm` -/
def iImm : Reg :=
  xs b 20 12

/-- `insn_t::sb_imm` -/
def sbImm : Reg :=
  (x b 8 4 <<< 1) + (x b 25 6 <<< 5) + (x b 7 1 <<< 11) + (immSign b <<< 12)

/-- `insn_t::uj_imm` -/
def ujImm : Reg :=
  (x b 21 10 <<< 1) + (x b 20 1 <<< 11) + (x b 12 8 <<< 12) + (immSign b <<< 20)

/-- `insn_t::rvc_j_imm` -/
def rvcJImm : Reg :=
  (x b 3 3 <<< 1) + (x b 11 1 <<< 4) + (x b 2 1 <<< 5) + (x b 7 1 <<< 6) +
    (x b 6 1 <<< 7) + (x b 9 2 <<< 8) +
    (x b 8 1 <<< 10) + (xs b 12 1 <<< 11)

/-- `insn_t::rvc_b_imm` -/
def rvcBImm : Reg :=
  (x b 3 2 <<< 1) + (x b 10 2 <<< 3) + (x b 2 1 <<< 5) + (x b 5 2 <<< 6) + (xs b 12 1 <<< 8)

/-- `insn_t::rvc_rs1` -/
def rvcRs1 : Reg :=
  x b 7 5

/-! Jumps are encoded in multiples of two. -/

private theorem shifted {j : Nat} (hj : 1 ≤ j) (y : Reg) : Bits.LowZero 1 (y <<< j) :=
  .shiftLeft hj y

private theorem plus {y z : Reg} (hy : Bits.LowZero 1 y) (hz : Bits.LowZero 1 z) :
    Bits.LowZero 1 (y + z) :=
  .add (by decide) hy hz

theorem even_sbImm : Bits.LowZero 1 (sbImm b) :=
  plus (plus (plus (shifted (by decide) _) (shifted (by decide) _)) (shifted (by decide) _))
    (shifted (by decide) _)

theorem even_ujImm : Bits.LowZero 1 (ujImm b) :=
  plus (plus (plus (shifted (by decide) _) (shifted (by decide) _)) (shifted (by decide) _))
    (shifted (by decide) _)

theorem even_rvcJImm : Bits.LowZero 1 (rvcJImm b) :=
  plus
    (plus
    (plus
    (plus
    (plus (plus (plus (shifted (by decide) _) (shifted (by decide) _)) (shifted (by decide) _))
    (shifted (by decide) _)) (shifted (by decide) _)) (shifted (by decide) _))
      (shifted (by decide) _))
    (shifted (by decide) _)

theorem even_rvcBImm : Bits.LowZero 1 (rvcBImm b) :=
  plus (plus (plus (plus (shifted (by decide) _) (shifted (by decide) _)) (shifted (by decide) _))
    (shifted (by decide) _)) (shifted (by decide) _)

end Insn

/-! ### Handlers -/

/-- `PC_SERIALIZE_BEFORE` -/
def pcSerializeBefore : Reg := 3#64
/-- `PC_SERIALIZE_AFTER` -/
def pcSerializeAfter : Reg := 5#64
/-- The tag of an instruction cache entry that holds nothing. -/
def invalidTag : Reg := ~~~0#64
/-- `CAUSE_MISALIGNED_FETCH` -/
def causeMisalignedFetch : Reg := 0#64

/-- `invalid_pc` -/
def invalidPc (pc : Reg) : Bool :=
  hasBits pc 1#64

/-- The extensions of which every 16-bit handler requires one. -/
def compressedExts : List Ext :=
  [.zca, .zcf, .zcd]

/-- An instruction, as far as it decides what comes next. The registers it reads and the outcome of
a comparison are given with it; where something else refuses it, it is an `exception` of the
hart. -/
inductive FlowInsn where
  /-- a 32-bit instruction that does not jump -/
  | next
  /-- an instruction of `rocc_t` -/
  | custom
  /-- a 16-bit one, with the extension its handler requires -/
  | nextCompressed (ext : Ext) (hext : ext ∈ compressedExts) (bits : Reg)
  /-- `beq`, `bne`, `blt`, `bge`, `bltu`, `bgeu` -/
  | branch (bits : Reg) (taken : Bool)
  | jal (bits : Reg)
  | jalr (bits rs1 : Reg)
  /-- `c.beqz`, `c.bnez` -/
  | cBranch (bits : Reg) (taken : Bool)
  /-- `c.j` and, on RV32, `c.jal` -/
  | cJ (bits : Reg)
  /-- `c.jr`, `c.jalr` -/
  | cJr (bits rs1 : Reg)

namespace Hart

variable (cfg : Config) (h : Hart)

/-- `sext_xlen(pc + insn_length(OPCODE))` -/
def npc (len : Reg) : Reg :=
  sextXlen cfg (h.pc + len)

/-- `set_pc`, with `check_pc_alignment` -/
def setPc (x : Reg) : Except Trap Reg :=
  if x &&& ~~~h.pcAlignmentMask = 0#64 then .ok (sextXlen cfg x)
  else .error { cause := causeMisalignedFetch, gva := h.v, tval := x }

/-- `require` -/
def requireInsn (b : Bool) (bits : Reg) : Except Trap Unit :=
  if b then .ok () else .error { cause := causeIllegalInstruction, tval := bits }

/-- What the handler of an instruction returns. -/
def handler : FlowInsn → Except Trap Reg
  | .next => .ok (h.npc cfg 4#64)
  | .custom => .ok (h.pc + 4#64)
  | .nextCompressed ext _ bits => do
    requireInsn (h.extensionEnabled ext) bits
    .ok (h.npc cfg 2#64)
  | .branch bits taken => if taken then h.setPc cfg (h.pc + Insn.sbImm bits)
    else .ok (h.npc cfg 4#64)
  | .jal bits => h.setPc cfg (h.pc + Insn.ujImm bits)
  | .jalr bits rs1 => h.setPc cfg ((rs1 + Insn.iImm bits) &&& ~~~1#64)
  | .cBranch bits taken => do
    requireInsn (h.extensionEnabled .zca) bits
    if taken then h.setPc cfg (h.pc + Insn.rvcBImm bits) else .ok (h.npc cfg 2#64)
  | .cJ bits => do
    requireInsn (h.extensionEnabled .zca) bits
    h.setPc cfg (h.pc + Insn.rvcJImm bits)
  | .cJr bits rs1 => do
    requireInsn (h.extensionEnabled .zca) bits
    requireInsn (Insn.rvcRs1 bits != 0#64) bits
    h.setPc cfg (rs1 &&& ~~~1#64)

/-- `advance_pc`. The fast loop does not get there when the next cache entry carries the tag `pc`;
the only odd tag is that of an entry that holds nothing. -/
def advancePc (cached : Bool) (pc : Reg) : Hart :=
  if !invalidPc pc then { h with pc := pc }
  else if cached && pc == invalidTag then { h with pc := pc }
  else if pc = pcSerializeBefore ∨ pc = pcSerializeAfter then h
  else h.abort

/-- An instruction runs and the loop goes on, or its trap is taken. -/
def execInsn (cached : Bool) (insn : FlowInsn) : Hart :=
  match h.handler cfg insn with
  | .ok pc => h.advancePc cached pc
  | .error t => h.takeTrap cfg t h.pc

/-- `wfi`, once its checks have passed. -/
def waitForInterrupt : Hart :=
  { h.setPcAndSerialize (h.npc cfg 4#64) with inWfi := true }

end Hart

/-- What happens to the program counter of a hart. -/
inductive FlowOp where
  | insn (cached : Bool) (insn : FlowInsn)
  | wfi
  /-- a CSR or return instruction, a trap, an interrupt, debug entry, a reset -/
  | event (op : HartOp)

namespace Hart

variable (cfg : Config) (h : Hart)

/-- What one step does. -/
def flowEvent : FlowOp → Hart
  | .insn cached insn => h.execInsn cfg cached insn
  | .wfi => h.waitForInterrupt cfg
  | .event op => h.event cfg op

/-- One step of a hart whose simulator has not aborted. -/
def flowStep (op : FlowOp) : Hart :=
  if h.aborted then h else h.flowEvent cfg op

variable {cfg : Config} {h h' : Hart}

/-! ### Aligned addresses -/

/-- An address at which an instruction may start: even, and within the mask in force. -/
structure PcAligned (h : Hart) (pc : Reg) : Prop where
  even : pc.getLsbD 0 = false
  mask : pc &&& ~~~h.pcAlignmentMask = 0#64

/-- The mask asks for a clear bit 1 where instructions have 32 bits only. -/
theorem masked_iff (h : Hart) (pc : Reg) :
    pc &&& ~~~h.pcAlignmentMask = 0#64 ↔
    (h.extensionEnabled .zca = false → pc.getLsbD 1 = false) := by
  rw [pcAlignmentMask]
  cases h.extensionEnabled .zca with
  | true =>
    rw [if_pos rfl, BitVec.not_not, BitVec.and_zero]
    exact ⟨fun _ hz => Bool.noConfusion hz, fun _ => rfl⟩
  | false =>
    have htwo : ~~~(~~~2#64) = BitVec.twoPow 64 1 := by decide
    rw [if_neg Bool.false_ne_true, htwo, BitVec.and_twoPow]
    cases pc.getLsbD 1 with
    | true => exact ⟨fun hz => absurd hz (by decide), fun hz => absurd (hz rfl) (by decide)⟩
    | false => exact ⟨fun _ _ => rfl, fun _ => rfl⟩

theorem invalidPc_eq (pc : Reg) : invalidPc pc = pc.getLsbD 0 := by
  rw [BitVec.getLsbD_eq_getElem (by decide)]
  exact hasBits_twoPow (k := 0) (by decide) pc

namespace PcAligned

variable {pc : Reg}

/-- A multiple of four may hold an instruction, whatever the mask. -/
theorem of_lowZero (hpc : Bits.LowZero 2 pc) : PcAligned h pc where
  even := hpc.getLsbD (by decide)
  mask := (masked_iff h pc).2 fun _ => hpc.getLsbD (by decide)

/-- An even address under the mask. -/
theorem masked (heven : pc.getLsbD 0 = false) : PcAligned h (pc &&& h.pcAlignmentMask) where
  even := by rw [BitVec.getLsbD_and, heven, Bool.false_and]
  mask := by
    rw [BitVec.and_assoc, BitVec.and_not_self]
    exact BitVec.and_zero

/-- The mask in force is all that counts. -/
theorem congr (al : PcAligned h pc) (hz : h'.extensionEnabled .zca = h.extensionEnabled .zca) :
    PcAligned h' pc where
  even := al.even
  mask := by
    rw [masked_iff, hz]
    exact (masked_iff h pc).1 al.mask

theorem of_regFrame {s : Csr → Bool} (al : PcAligned h pc) (f : RegFrame s h h')
    (hm : s .misa = false) :
    PcAligned h' pc :=
  al.congr (f.extensionEnabled hm .zca)

end PcAligned

/-- Sign extension leaves the low bits alone. -/
theorem getLsbD_sextXlen (x : Reg) {i : Nat} (hi : i < 31) :
    (sextXlen cfg x).getLsbD i = x.getLsbD i := by
  rw [sextXlen]
  cases cfg.isa.xlen with
  | rv32 =>
    rw [BitVec.getLsbD_signExtend, if_pos (by omega), BitVec.getLsbD_setWidth,
      decide_eq_true (by omega),
      decide_eq_true (by omega), Bool.true_and, Bool.true_and]
  | rv64 => rfl

theorem PcAligned.sextXlen {x : Reg} (al : PcAligned h x) : PcAligned h (sextXlen cfg x) where
  even := (getLsbD_sextXlen x (by decide)).trans al.even
  mask := (masked_iff h _).2 fun hz =>
    (getLsbD_sextXlen x (by decide)).trans ((masked_iff h x).1 al.mask hz)

/-! ### The registers addresses come from -/

/-- Where an address comes from besides the instruction itself: `epc` registers are even, and the
base of a trap vector is a multiple of four. -/
structure Targets (h : Hart) : Prop where
  epc : ∀ c, c.isEpc = true → (h.reg c).getLsbD 0 = false
  tvec : ∀ c, c.isTvec = true → (h.reg c).getLsbD 1 = false

/-- No write to another register reaches them. -/
theorem footprint_target {c c' : Csr} (hc' : (c'.isEpc || c'.isTvec) = true) (hne : c' ≠ c) :
    c.footprint c' = false := by
  have hside : c.sideFootprint c' = false := by
    cases c' <;> first | exact absurd hc' Bool.noConfusion | cases c <;> rfl
  rw [Csr.footprint, hside, Bool.or_false, decide_eq_false_iff_not]
  exact hne

namespace Targets

theorem of_reg (t : Targets h) (hreg : ∀ c, (c.isEpc || c.isTvec) = true → h'.reg c = h.reg c) :
    Targets h' where
  epc c hc := by rw [hreg c (by rw [hc, Bool.true_or])]; exact t.epc c hc
  tvec c hc := by rw [hreg c (by rw [hc, Bool.or_true])]; exact t.tvec c hc

theorem of_regFrame {s : Csr → Bool} (t : Targets h) (f : RegFrame s h h')
    (hs : ∀ c, (c.isEpc || c.isTvec) = true → s c = false) : Targets h' :=
  t.of_reg fun c hc => f.reg c (hs c hc)

/-- `epc_csr_t` clears bit 0. -/
theorem epcWrite (t : Targets h) {c : Csr} (hc : c.isTvec = false) (val : Reg) :
    Targets (h.epcWrite c val) where
  epc c' hc' := by
    rw [Hart.epcWrite, reg_set]
    split
    · exact Bits.getLsbD_and_not_one val
    · exact t.epc c' hc'
  tvec c' hc' := by
    have hne : c' ≠ c := fun heq => Bool.noConfusion ((heq ▸ hc').symm.trans hc)
    rw [Hart.epcWrite, reg_set, if_neg hne]
    exact t.tvec c' hc'

/-- `tvec_csr_t` clears bit 1. -/
theorem tvecWrite (t : Targets h) {c : Csr} (hc : c.isEpc = false) (val : Reg) :
    Targets (h.tvecWrite c val) where
  epc c' hc' := by
    have hne : c' ≠ c := fun heq => Bool.noConfusion ((heq ▸ hc').symm.trans hc)
    rw [Hart.tvecWrite, reg_set, if_neg hne]
    exact t.epc c' hc'
  tvec c' hc' := by
    rw [Hart.tvecWrite, reg_set]
    split
    · rw [BitVec.getLsbD_and, BitVec.getLsbD_not]
      exact Bool.and_false _
    · exact t.tvec c' hc'

/-- **Every write keeps them.** -/
theorem write (t : Targets h) (val : Reg) (c : Csr) : Targets (h.write cfg val c) := by
  cases hc : c.isEpc || c.isTvec with
  | true =>
    cases c <;> first
      | exact absurd hc Bool.noConfusion
      | exact t.epcWrite rfl val
      | exact t.tvecWrite rfl val
  | false =>
    refine t.of_reg fun c' hc' => (Frame.write val c).reg c' (footprint_target hc' ?_)
    rintro rfl
    exact Bool.noConfusion (hc'.symm.trans hc)

theorem controlWrites (t : Targets h) (w : ControlWrites cfg h h') : Targets h' := by
  induction w with
  | refl => exact t
  | write c val _ _ _ ih => exact ih.write val c
  | quiet f _ ih => exact ih.of_reg fun c _ => congrFun f.reg c

theorem objWrites (t : Targets h) (w : ObjWrites cfg h h') : Targets h' := by
  refine w.induct (P := Targets) ?_ ?_ ?_ ?_ t
  · exact fun h c val _ t => t.write val c
  · exact fun h mask val t => t.of_regFrame
      (.of_frame (Frame.set (s := fun c => c == .mip) rfl _) rfl)
      fun c hc => by cases c <;> first | rfl | exact absurd hc Bool.noConfusion
  · exact fun h mask val _ t => t.of_regFrame
      (.of_frame (Frame.set (s := fun c => c == .mie) rfl _) rfl)
      fun c hc => by cases c <;> first | rfl | exact absurd hc Bool.noConfusion
  · exact fun h h' f t => t.of_reg fun c _ => f.reg c rfl

end Targets

/-! ### Traps, returns and debug entry -/

theorem lowZero_handlerAddress {tvec : Reg} (ht : tvec.getLsbD 1 = false)
    (bit : Reg) (interrupt : Bool) :
    Bits.LowZero 2 (handlerAddress tvec bit interrupt) := by
  refine .add (by decide) (.of_getLsbD fun i hi => ?_) ?_
  · match i, hi with
    | 0, _ => exact Bits.getLsbD_and_not_one tvec
    | 1, _ => rw [BitVec.getLsbD_and, ht, Bool.false_and]
  · split
    · exact .mul (by decide) (by decide) bit
    · exact .zero 64 2

/-- **Trap handlers start at multiples of four.** -/
theorem lowZero_takeTrap (t : Targets h) (trap : Trap) (epc : Reg) :
    Bits.LowZero 2 (h.takeTrap cfg trap epc).pc := by
  cases hd : h.debugMode with
  | true =>
    rw [takeTrap, hd, if_pos rfl]
    show Bits.LowZero 2 (if _ then debugRomEntry else debugRomTvec)
    split
    · decide
    · decide
  | false =>
    have hentry := takeTrap_entry cfg hd trap epc
    cases hdest : h.trapDestination cfg trap with
    | vs =>
      rw [hdest] at hentry
      rw [hentry.pc]
      exact lowZero_handlerAddress (t.tvec .vstvec rfl) _ _
    | hs =>
      rw [hdest] at hentry
      rw [hentry.pc]
      exact lowZero_handlerAddress (t.tvec .stvec rfl) _ _
    | m =>
      rw [hdest] at hentry
      rw [hentry.pc]
      split
      · exact lowZero_handlerAddress (t.tvec .mtvec rfl) _ _
      · exact .zero 64 2

theorem pc_setPrivilege (prv : Reg) : (h.setPrivilege prv).pc = h.pc := rfl

theorem pc_mstatusWrite (val : Reg) : (h.mstatusWrite cfg val).pc = h.pc :=
  (Frame.mstatusWrite (s := fun _ => true) rfl val).pc

theorem pc_sstatusWrite (val : Reg) : (h.sstatusWrite cfg val).pc = h.pc := by
  rw [sstatusWrite]
  split
  · exact (Frame.write val .vsstatus).pc
  · exact (Frame.write _ .mstatus).pc

theorem pc_mret (hok : h.mret cfg = .ok h') : h'.pc = h.read .mepc &&& h.pcAlignmentMask := by
  unfold mret at hok
  split at hok
  · cases hok
  · extract_lets h₁ s h₂ h₃ at hok
    obtain rfl := Except.ok.inj hok
    have f : Frame (fun _ => true) h₁ h₂ := by
      show Frame _ h₁ (h₁.putCsr cfg 0x300 _)
      rw [putCsr_mstatus]
      exact Frame.mstatusWrite rfl _
    have hpc₃ : h₃.pc = h₂.pc := pc_setPrivilege _
    exact (pc_setVirt _).trans (hpc₃.trans f.pc)

theorem pc_sret (hok : h.sret cfg = .ok h') : h'.pc = h.virtRead .sepc .vsepc &&&
    h.pcAlignmentMask := by
  unfold sret at hok
  split at hok
  · cases hok
  · extract_lets prevHstatus h₁ s h₂ h₃ h₄ at hok
    have hpc₂ : h₂.pc = h₁.pc := pc_sstatusWrite _
    have hpc₃ : h₃.pc = h₂.pc := pc_setPrivilege _
    split at hok
    · obtain rfl := Except.ok.inj hok
      exact hpc₃.trans hpc₂
    · obtain rfl := Except.ok.inj hok
      have hpc₄ : h₄.pc = h₃.pc := by
        show (if _ then _ else _ : Hart).pc = h₃.pc
        split
        · exact ((Frame.write _ .hstatus).pc).trans (pc_setVirt _)
        · rfl
      exact (pc_mstatusWrite _).trans (hpc₄.trans (hpc₃.trans hpc₂))

theorem pc_mnret (hok : h.mnret cfg = .ok h') : h'.pc = h.read .mnepc &&& h.pcAlignmentMask := by
  unfold mnret at hok
  split at hok
  · cases hok
  split at hok
  · cases hok
  · extract_lets h₁ s prevPrv h₂ h₃ h₄ at hok
    obtain rfl := Except.ok.inj hok
    have hpc₂ : h₂.pc = h₁.pc := by
      show (if _ then _ else _ : Hart).pc = h₁.pc
      split
      · exact pc_mstatusWrite _
      · rfl
    have hpc₄ : h₄.pc = h₂.pc := rfl
    exact (pc_setVirt _).trans (hpc₄.trans hpc₂)

theorem pc_dret (hok : h.dret cfg = .ok h') : h'.pc = h.read .dpc &&& h.pcAlignmentMask := by
  unfold dret at hok
  split at hok
  · cases hok
  · extract_lets h₁ h₂ h₃ h₄ at hok
    obtain rfl := Except.ok.inj hok
    have hpc : h₃.pc = h₁.pc := by
      show (if _ then _ else _ : Hart).pc = h₁.pc
      split
      · exact pc_mstatusWrite _
      · rfl
    split
    · exact hpc
    · exact hpc

/-- What is read from an `epc` register is even. -/
theorem Targets.read (t : Targets h) {c : Csr} (hc : c.isEpc = true) :
    (h.read c).getLsbD 0 = false := by
  have hread : h.read c = h.reg c &&& h.pcAlignmentMask := by
    cases c <;> first | rfl | exact Bool.noConfusion hc
  rw [hread, BitVec.getLsbD_and, t.epc c hc, Bool.false_and]

theorem Targets.virtRead (t : Targets h) : (h.virtRead .sepc .vsepc).getLsbD 0 = false := by
  rw [Hart.virtRead]
  split
  · exact t.read rfl
  · exact t.read rfl

/-! ### Every event -/

/-- **The invariant of the program counter.** -/
structure PcOk (h : Hart) : Prop where
  pc : PcAligned h h.pc
  targets : Targets h

theorem lowZero_reset (cfg : Config) (h : Hart) (halt : Bool) :
    Bits.LowZero 2 (reset cfg h halt).pc := by
  unfold reset
  extract_lets h₁ dcsr h₂
  split
  · have f : Frame (fun _ => false) h₂
      ((h₂.writeObj cfg (cfg.isa.xlen.zext (~~~0#64)) (.pmpaddr 0)).writeObj
        cfg 0x1f#64 (.pmpcfg 0)) := (Frame.pmpWrite _ h₂ _).trans (Frame.pmpWrite _ _ _)
    rw [f.pc]
    exact (show Bits.LowZero 2 defaultRstvec by decide)
  · exact (show Bits.LowZero 2 defaultRstvec by decide)

/-- A reset clears the registers addresses come from. -/
theorem Targets.reset (cfg : Config) (h : Hart) (halt : Bool) : Targets (reset cfg h halt) := by
  obtain ⟨⟨mask, hreg⟩, -⟩ := reset_reg cfg h halt
  have hzero {c : Csr} (hc : (c.isEpc || c.isTvec) = true) :
      (Hart.reset cfg h halt).reg c = 0#64 := by
    cases c <;> first | exact absurd hc Bool.noConfusion | exact hreg _ (by decide)
  refine ⟨fun c hc => ?_, fun c hc => ?_⟩
  · rw [hzero (by rw [hc, Bool.true_or]), BitVec.getLsbD_zero]
  · rw [hzero (by rw [hc, Bool.or_true]), BitVec.getLsbD_zero]

namespace PcOk

theorem reset (cfg : Config) (h : Hart) (halt : Bool) : PcOk (reset cfg h halt) :=
  ⟨.of_lowZero (lowZero_reset cfg h halt), .reset cfg h halt⟩

theorem takeTrap (ok : PcOk h) (t : Trap) (epc : Reg) : PcOk (h.takeTrap cfg t epc) :=
  ⟨.of_lowZero (lowZero_takeTrap ok.targets t epc), ok.targets.controlWrites (.takeTrap t epc)⟩

theorem refused (ok : PcOk h) (bits : Reg) (r : Refusal) : PcOk (h.refused cfg bits r) := by
  cases r with
  | illegal => exact ok.takeTrap _ _
  | virtual => exact ok.takeTrap _ _
  | crash => exact ⟨ok.pc.congr rfl, ok.targets.of_reg fun _ _ => rfl⟩

theorem orRefused (ok : PcOk h) (bits : Reg) {result : Except Refusal Hart}
    (hres : ∀ h', result = .ok h' → PcOk h') : PcOk (h.orRefused cfg bits result) := by
  cases result with
  | ok h' => exact hres h' rfl
  | error r => exact ok.refused bits r

/-- A return to an even address under the mask. -/
theorem returns (ok : PcOk h) (w : ControlWrites cfg h h') {epc : Reg}
    (heven : epc.getLsbD 0 = false)
    (hpc : h'.pc = epc &&& h.pcAlignmentMask) : PcOk h' where
  pc := by
    rw [hpc]
    exact (PcAligned.masked heven).of_regFrame w.regFrame rfl
  targets := ok.targets.controlWrites w

theorem csrInsn (ok : PcOk h) {which : Nat} {insn : CsrInsn}
    (hok : h.csrInsn cfg which insn = .ok h') :
    PcOk h' := by
  obtain ⟨h₁, w, rfl⟩ := csrInsn_writes hok
  have heven : (Hart.sextXlen cfg (h.pc + 4#64)).getLsbD 0 = false := by
    rw [getLsbD_sextXlen _ (by decide),
      Bits.LowZero.getLsbD_add (k := 1) (by decide) (by decide) _ (by decide)]
    exact ok.pc.even
  exact ⟨(PcAligned.masked (h := h₁) heven).congr rfl,
    (ok.targets.objWrites w).of_reg fun _ _ => rfl⟩

theorem takePendingInterrupt (ok : PcOk h) : PcOk (h.takePendingInterrupt cfg) := by
  have targets : Targets (h.takePendingInterrupt cfg) :=
    ok.targets.controlWrites .takePendingInterrupt
  refine ⟨?_, targets⟩
  unfold Hart.takePendingInterrupt
  extract_lets pending awake
  have oka : PcOk awake := by
    show PcOk (if _ then _ else _)
    split
    · exact ok
    · exact ⟨ok.pc.congr rfl, ok.targets.of_reg fun _ _ => rfl⟩
  split
  · exact oka.pc
  · exact (oka.takeTrap _ _).pc
  · exact oka.pc.congr rfl

/-- **One event of the hart.** -/
theorem event (ok : PcOk h) (op : HartOp) : PcOk (h.event cfg op) := by
  have same {h' : Hart} {s : Csr → Bool} (hpc : h'.pc = h.pc) (f : RegFrame s h h')
    (hm : s .misa = false)
      (hs : ∀ c, (c.isEpc || c.isTvec) = true → s c = false) : PcOk h' :=
    ⟨hpc ▸ ok.pc.of_regFrame f hm, ok.targets.of_regFrame f hs⟩
  cases op with
  | csr which insn bits => exact ok.orRefused bits fun h' => ok.csrInsn
  | mret bits =>
    exact ok.orRefused bits fun h' hok => ok.returns (.mret hok) (ok.targets.read rfl) (pc_mret hok)
  | sret bits =>
    exact ok.orRefused bits fun h' hok => ok.returns (.sret hok) ok.targets.virtRead (pc_sret hok)
  | mnret bits =>
    exact ok.orRefused bits fun h' hok =>
      ok.returns (.mnret hok) (ok.targets.read rfl) (pc_mnret hok)
  | dret bits =>
    exact ok.orRefused bits fun h' hok => ok.returns (.dret hok) (ok.targets.read rfl) (pc_dret hok)
  | retire npc =>
    exact ⟨(PcAligned.masked (h := h) (Bits.getLsbD_and_not_one npc)).congr rfl,
      ok.targets.of_reg fun _ _ => rfl⟩
  | exception code gva tval tval2 tinst => exact ok.takeTrap _ _
  | interrupt => exact ok.takePendingInterrupt
  | enterDebug cause =>
    exact ⟨.of_lowZero (show Bits.LowZero 2 debugRomEntry by decide),
      ok.targets.controlWrites (.enterDebugMode cause)⟩
  | triggers ts => exact ⟨ok.pc.congr rfl, ok.targets.of_reg fun _ _ => rfl⟩
  | wfi => exact ⟨ok.pc.congr rfl, ok.targets.of_reg fun _ _ => rfl⟩
  | dirty state =>
    refine same ?_ (.event (.dirty state) rfl) rfl fun c hc => ?_
    · exact (Frame.ite (Frame.dirty state.mask) (Frame.refl _ _)).pc
    · cases c <;> first | rfl | exact absurd hc Bool.noConfusion
  | bump instret =>
    refine same rfl (.event (.bump instret) rfl) rfl fun c hc => ?_
    cases c <;> first | rfl | exact absurd hc Bool.noConfusion
  | timeSync mtime =>
    refine same ?_ (.event (.timeSync mtime) rfl) rfl fun c hc => ?_
    · show (h.timeSync mtime).pc = h.pc
      unfold Hart.timeSync
      extract_lets h₁ mipVal
      split
      · rfl
      · rfl
    · cases c <;> first | rfl | exact absurd hc Bool.noConfusion
  | pin p level =>
    refine same rfl (.event (.pin p level) rfl) rfl fun c hc => ?_
    cases c <;> first | rfl | exact absurd hc Bool.noConfusion
  | reset halt => exact .reset cfg h halt

end PcOk

/-! ### Every instruction -/

/-- What the handler returns is an address, not a sentinel of `advance_pc`. -/
def NoCollision (cfg : Config) (h : Hart) (insn : FlowInsn) : Prop :=
  ∀ pc, h.handler cfg insn = .ok pc → invalidPc pc = false

/-- Behind a check that has passed. -/
theorem of_requireInsn {b : Bool} {bits pc : Reg} {next : Except Trap Reg}
    (hok : (do requireInsn b bits; next : Except Trap Reg) = .ok pc) :
    b = true ∧ next = .ok pc := by
  cases b with
  | true => exact ⟨rfl, hok⟩
  | false => cases hok

/-- A jump to an even address. -/
theorem PcAligned.setPc {x pc : Reg} (heven : x.getLsbD 0 = false) (hok : h.setPc cfg x = .ok pc) :
    PcAligned h pc := by
  rw [Hart.setPc] at hok
  split at hok
  · rename_i hmask
    obtain rfl := Except.ok.inj hok
    exact PcAligned.sextXlen ⟨heven, hmask⟩
  · cases hok

/-- The next instruction but one halfword is at an address that fits. -/
theorem PcAligned.addFour (al : PcAligned h h.pc) : PcAligned h (h.pc + 4#64) := by
  have hlow {i : Nat} (hi : i < 2) : (h.pc + 4#64).getLsbD i = h.pc.getLsbD i :=
    Bits.LowZero.getLsbD_add (k := 2) (by decide) (by decide) h.pc hi
  exact ⟨(hlow (by decide)).trans al.even,
    (masked_iff h _).2 fun hz => (hlow (by decide)).trans ((masked_iff h _).1 al.mask hz)⟩

/-- Going on by two with 16-bit instructions. -/
theorem PcAligned.npcCompressed (al : PcAligned h h.pc) (hz : h.extensionEnabled .zca = true) :
    PcAligned h (h.npc cfg 2#64) := by
  refine PcAligned.sextXlen ⟨?_, (masked_iff h _).2 fun hz' => Bool.noConfusion (hz'.symm.trans hz)⟩
  exact (Bits.LowZero.getLsbD_add (k := 1) (by decide) (by decide) h.pc (by decide)).trans al.even

/-- The instructions of every compressed extension need 16-bit alignment only. -/
theorem zca_of_compressed (hc : Isa.Closed h.extensionEnabled) {ext : Ext}
    (hext : ext ∈ compressedExts)
    (he : h.extensionEnabled ext = true) : h.extensionEnabled .zca = true := by
  simp only [compressedExts, List.mem_cons, List.not_mem_nil, or_false] at hext
  obtain rfl | rfl | rfl := hext
  · exact he
  · exact hc.zca_of_zcf he
  · exact hc.zca_of_zcd he

/-- **Handlers return aligned addresses.** -/
theorem handler_aligned (al : PcAligned h h.pc) (hc : Isa.Closed h.extensionEnabled)
    {insn : FlowInsn} {pc : Reg}
    (hok : h.handler cfg insn = .ok pc) : PcAligned h pc := by
  have target {imm : Reg} (himm : Bits.LowZero 1 imm) : (h.pc + imm).getLsbD 0 = false :=
    (Bits.LowZero.getLsbD_add (by decide) himm h.pc (by decide)).trans al.even
  cases insn with
  | next =>
    obtain rfl := Except.ok.inj hok
    exact al.addFour.sextXlen
  | custom =>
    obtain rfl := Except.ok.inj hok
    exact al.addFour
  | nextCompressed ext hext bits =>
    obtain ⟨he, hok⟩ := of_requireInsn hok
    obtain rfl := Except.ok.inj hok
    exact al.npcCompressed (zca_of_compressed hc hext he)
  | branch bits taken =>
    cases taken with
    | true => exact .setPc (target (Insn.even_sbImm bits)) hok
    | false =>
      obtain rfl := Except.ok.inj hok
      exact al.addFour.sextXlen
  | jal bits => exact .setPc (target (Insn.even_ujImm bits)) hok
  | jalr bits rs1 => exact .setPc (Bits.getLsbD_and_not_one _) hok
  | cBranch bits taken =>
    obtain ⟨he, hok⟩ := of_requireInsn hok
    cases taken with
    | true => exact .setPc (target (Insn.even_rvcBImm bits)) hok
    | false =>
      obtain rfl := Except.ok.inj hok
      exact al.npcCompressed he
  | cJ bits => exact .setPc (target (Insn.even_rvcJImm bits)) (of_requireInsn hok).2
  | cJr bits rs1 =>
    exact .setPc (Bits.getLsbD_and_not_one _) (of_requireInsn (of_requireInsn hok).2).2

/-! ### Steps of the hart -/

/-- The trap of a synchronous exception. -/
def IsException (t : Trap) : Prop :=
  ∃ code : Fin 24, t.cause = BitVec.ofNat 64 code

theorem isException_setPc {x : Reg} {t : Trap} (hok : h.setPc cfg x = .error t) :
    IsException t := by
  rw [setPc] at hok
  split at hok
  · cases hok
  · obtain rfl := Except.error.inj hok
    exact ⟨0, rfl⟩

theorem isException_requireInsn {b : Bool} {bits : Reg} {next : Except Trap Reg} {t : Trap}
    (hok : (do requireInsn b bits; next : Except Trap Reg) = .error t)
    (hnext : next = .error t → IsException t) :
    IsException t := by
  cases b with
  | true => exact hnext hok
  | false =>
    obtain rfl := Except.error.inj hok
    exact ⟨2, rfl⟩

/-- What a handler throws is an exception. -/
theorem isException_handler {insn : FlowInsn} {t : Trap} (hok : h.handler cfg insn = .error t) :
    IsException t := by
  cases insn with
  | next => cases hok
  | custom => cases hok
  | nextCompressed ext hext bits => exact isException_requireInsn hok fun hok => by cases hok
  | branch bits taken =>
    cases taken with
    | true => exact isException_setPc hok
    | false => cases hok
  | jal bits => exact isException_setPc hok
  | jalr bits rs1 => exact isException_setPc hok
  | cBranch bits taken =>
    refine isException_requireInsn hok fun hok => ?_
    cases taken with
    | true => exact isException_setPc hok
    | false => cases hok
  | cJ bits => exact isException_requireInsn hok isException_setPc
  | cJr bits rs1 =>
    exact isException_requireInsn hok fun hok => isException_requireInsn hok isException_setPc

/-- An aligned address survives the mask. -/
theorem PcAligned.masked_eq {pc : Reg} (al : PcAligned h pc) :
    (pc &&& ~~~1#64) &&& h.pcAlignmentMask = pc := by
  rw [Bits.and_not_one_of_even al.even]
  apply BitVec.eq_of_getLsbD_eq
  intro i hi
  have hbit := congrArg (fun x => x.getLsbD i) al.mask
  simp only [BitVec.getLsbD_and, BitVec.getLsbD_not, hi, decide_true, Bool.true_and,
    BitVec.getLsbD_zero] at hbit
  rw [BitVec.getLsbD_and]
  cases hpc : pc.getLsbD i with
  | false => exact Bool.false_and _
  | true =>
    rw [hpc, Bool.true_and, Bool.not_eq_false'] at hbit
    rw [hbit, Bool.true_and]

/-- One event of a hart that runs. -/
theorem runFrom_one (ha : h.aborted = false) (op : HartOp) :
    h.runFrom cfg [op] = h.event cfg op := by
  show h.step cfg op = h.event cfg op
  rw [step, ha, if_neg Bool.false_ne_true]

/-- **Instructions are events of the hart.** One that returns an address retires there, any other is
an exception. -/
theorem flowStep_eq (al : PcAligned h h.pc) (hc : Isa.Closed h.extensionEnabled) (op : FlowOp) :
    ∃ ops, flowStep cfg h op = h.runFrom cfg ops := by
  cases ha : h.aborted with
  | true => exact ⟨[], if_pos ha⟩
  | false =>
    rw [flowStep, ha, if_neg Bool.false_ne_true]
    cases op with
    | event op => exact ⟨[op], (runFrom_one ha op).symm⟩
    | wfi =>
      have alpc : PcAligned h (h.npc cfg 4#64) := al.addFour.sextXlen
      refine ⟨[.retire (h.npc cfg 4#64), .wfi], ?_⟩
      have hretire : h.step cfg (.retire (h.npc cfg 4#64)) = h.setPcAndSerialize
          (h.npc cfg 4#64) := by
        rw [step, ha, if_neg Bool.false_ne_true]
        show h.setPcAndSerialize (h.npc cfg 4#64 &&& ~~~1#64) = _
        rw [Bits.and_not_one_of_even alpc.even]
      show _ = (h.step cfg (.retire (h.npc cfg 4#64))).runFrom cfg [.wfi]
      rw [hretire]
      exact (runFrom_one (h := h.setPcAndSerialize (h.npc cfg 4#64)) ha .wfi).symm
    | insn cached insn =>
      show ∃ ops, h.execInsn cfg cached insn = h.runFrom cfg ops
      rw [execInsn]
      cases hok : h.handler cfg insn with
      | ok pc =>
        have alpc : PcAligned h pc := handler_aligned al hc hok
        refine ⟨[.retire pc], ?_⟩
        rw [runFrom_one ha]
        show h.advancePc cached pc = h.setPcAndSerialize (pc &&& ~~~1#64)
        rw [advancePc, invalidPc_eq, alpc.even, Bool.not_false, if_pos rfl,
          setPcAndSerialize, alpc.masked_eq]
      | error t =>
        obtain ⟨code, hcode⟩ := isException_handler hok
        refine ⟨[.exception code t.gva t.tval t.tval2 t.tinst], ?_⟩
        rw [runFrom_one ha]
        show h.takeTrap cfg t h.pc =
          h.takeTrap cfg ⟨BitVec.ofNat 64 code, t.gva, t.tval, t.tval2, t.tinst⟩ h.pc
        rw [← hcode]

/-! ### Runs -/

/-- The events that follow keep the invariant. -/
theorem PcOk.runFrom (ok : PcOk h) (ops : List HartOp) : PcOk (h.runFrom cfg ops) := by
  refine Run.run_induct (I := PcOk) (fun h op ok => ?_) ok ops
  rw [step]
  split
  · exact ok
  · exact ok.event op

/-- Reachable harts run on to reachable harts. -/
theorem Reachable.runFrom (hr : Reachable cfg h) (ops : List HartOp) :
    Reachable cfg (h.runFrom cfg ops) := by
  obtain ⟨halt, ops', rfl⟩ := hr
  exact ⟨halt, ops' ++ ops, (Run.run_append (init cfg halt) ops' ops).symm⟩

/-- **The program counter is aligned, and no instruction returns a sentinel.** Along every run the
program counter is even, and fits four bytes whenever C is off; what a handler returns to
`advance_pc` is an address of this kind, so that no program can have it taken for one of the odd
values with a meaning of their own. -/
theorem pc_aligned (find : String → Option String) (str priv : List Char) (cfg : Config)
    (hp : Isa.parse find str priv = .ok cfg.isa) (halt : Bool) (ops : List FlowOp) :
    Run.Always (flowStep cfg) (fun h => PcAligned h h.pc ∧ ∀ insn, NoCollision cfg h insn)
    (init cfg halt) ops := by
  have hc := Isa.parse_closed hp
  refine Run.Always.of_invariant (I := fun h => Reachable cfg h ∧ PcOk h)
    (fun h op hi => ?_) (fun h hi => ?_)
    ⟨⟨halt, [], rfl⟩, .reset { cfg with impl := { cfg.impl with mmu := true } }
      (unbuilt cfg) halt⟩ ops
  · obtain ⟨ops', heq⟩ : ∃ ops', flowStep cfg h op = h.runFrom cfg ops' :=
      flowStep_eq hi.2.pc (hi.1.extensionsOk hc).closed op
    rw [heq]
    exact ⟨hi.1.runFrom ops', hi.2.runFrom ops'⟩
  · refine ⟨hi.2.pc, fun insn pc hok => (invalidPc_eq pc).trans ?_⟩
    exact (handler_aligned hi.2.pc (hi.1.extensionsOk hc).closed hok).even

/-- A jump to an address of odd halfwords, the write that would switch C off there, and a trap. -/
theorem pc_aligned_rv64h :
    Run.Always (flowStep rv64h) (fun h => PcAligned h h.pc ∧ ∀ insn, NoCollision rv64h h insn)
    (init rv64h false)
      [.insn true (.jalr 0x50067#64 0x1003#64), .event (.csr 0x301 (.clear 4#64) 0x30127073#64),
        .event (.exception 2 false 0#64 0#64 0#64)] :=
  pc_aligned (fun _ => none) "rv64imach_zicntr_sscofpmf_sstc".toList "msu".toList rv64h
    (Isa.parse_accepted (by decide)) false
    [.insn true (.jalr 0x50067#64 0x1003#64), .event (.csr 0x301 (.clear 4#64) 0x30127073#64),
      .event (.exception 2 false 0#64 0#64 0#64)]

end Hart

end Nnemu

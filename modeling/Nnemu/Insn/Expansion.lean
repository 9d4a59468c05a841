import Nnemu.Insn.Execute
import Nnemu.Insn.RvcDecode
import Nnemu.Insn.RvcFields

/-!
# Compressed instructions and what they stand for

Every 16-bit word does what the 32-bit instruction does that the manual gives for it, with a link
value and a next `pc` two bytes on, and the reserved words are refused. A row of the tables needs
three things: the entry the word hits, that the expansion is an encoding of the base instruction,
and that the two files are the same program.

The file of a compressed instruction and the file of its expansion are both functions of a frame.
The lemmas here equate them where the operands agree, family by family, and the remaining difference
is the length of the instruction, which the frame of a compressed word carries: its link value and
its next `pc` are two bytes on.
-/

namespace Nnemu

variable {ω ι : Type}

namespace Frame

variable (f : Frame) {w : BitVec 16}

/-- The same frame with another instruction. What it refuses it reports as before. -/
def on (word : BitVec 32) : Frame :=
  { f with insn := word.setWidth 64 }

/-! ### x0 -/

theorem readReg_x0 : (f.readReg (Rvc.x0.setWidth 64) : InsnM 64 ω ι Reg) = pure 0#64 := by
  funext c
  have hcheck : (!f.rve || decide (Rvc.x0.setWidth 64 < 16#64)) = true := by
    rw [show decide (Rvc.x0.setWidth 64 < 16#64) = true from by decide, Bool.or_true]
  rw [readReg, checkReg, hcheck]
  exact congrArg (fun v => EStateM.Result.ok v c) c.rest.xpr.zero

theorem writeReg_x0 (value : Reg) : (f.writeReg (Rvc.x0.setWidth 64) value : InsnM 64 ω ι Unit) =
    pure () := by
  funext c
  have hcheck : (!f.rve || decide (Rvc.x0.setWidth 64 < 16#64)) = true := by
    rw [show decide (Rvc.x0.setWidth 64 < 16#64) = true from by decide, Bool.or_true]
  rw [writeReg, checkReg, hcheck]
  rfl

/-! ### Values of a few bits -/

/-- What fits in 32 bits is extended already. -/
theorem sextXlen_signExtend {n : Nat} (hn : n ≤ 32) (b : BitVec n) :
    f.sextXlen (b.signExtend 64) = b.signExtend 64 := by
  rw [sextXlen, Hart.sextXlen]
  cases f.cfg.isa.xlen with
  | rv32 => rw [Bits.setWidth_signExtend (by decide), Bits.signExtend_signExtend hn]
  | rv64 => rfl

theorem nonzero_eq {r : BitVec 5} {reg : Reg} (hreg : reg = r.setWidth 64) :
    (reg != 0#64) = (r != Rvc.x0) := by
  rw [hreg, Bool.eq_iff_iff, bne_iff_ne, bne_iff_ne, Ne, Bits.setWidth_eq_zero_iff (by decide)]
  rfl

variable {f} in
/-- On RV64 the check of `require_rv64` passes. -/
theorem onRv64_eq (hxlen : f.cfg.isa.xlen = .rv64) (body : InsnM 64 ω ι Reg) :
    f.onRv64 body = body := by
  rw [onRv64, requireRv64, hxlen]
  exact pure_bind _ _

/-- On RV32 it fails, whatever the instruction. -/
theorem onRv64_requiring (word : BitVec 32) (body : InsnM 64 ω ι Reg) :
    (f.on word).onRv64 body = f.requiring (!(f.cfg.isa.xlen == .rv32))
    ((f.on word).onRv64 body) := by
  cases hxlen : f.cfg.isa.xlen with
  | rv32 =>
    rw [onRv64, requireRv64, on, hxlen]
    rfl
  | rv64 => rfl

/-! ### Base files on their formats -/

variable {funct7 : BitVec 7} {rs2' rs1' rd' : BitVec 5} {funct3 : BitVec 3}
  {opcode : BitVec 7} {imm : BitVec 12}

/-- On a word of its format, a file with two registers finds them. -/
theorem regReg_on (op : Reg → Reg → Reg) :
    ((f.on (Insn.rType funct7 rs2' rs1' funct3 rd' opcode)).regReg op : InsnM 64 ω ι Reg) =
      (do
        let a ← f.readReg (rs1'.setWidth 64)
        let b ← f.readReg (rs2'.setWidth 64)
        f.writeReg (rd'.setWidth 64) (op a b)
        pure f.npc) := by
  rw [← Insn.rs1_rType, ← Insn.rs2_rType, ← Insn.rd_rType]
  rfl

theorem regImm_on (op : Reg → Reg) :
    ((f.on (Insn.iType imm rs1' funct3 rd' opcode)).regImm op : InsnM 64 ω ι Reg) =
      (do
        let a ← f.readReg (rs1'.setWidth 64)
        f.writeReg (rd'.setWidth 64) (op a)
        pure f.npc) := by
  rw [← Insn.rs1_iType, ← Insn.rd_iType]
  rfl

theorem load_on (mmu : Mmu ω ι) (n : Nat) (extend : BitVec n → Reg) :
    (f.on (Insn.iType imm rs1' funct3 rd' opcode)).load mmu n extend =
      (do
        let a ← f.readReg (rs1'.setWidth 64)
        let val ← InsnM.access (mmu.load n (a + imm.signExtend 64))
        f.writeReg (rd'.setWidth 64) (extend val)
        pure f.npc) := by
  rw [← Insn.rs1_iType, ← Insn.rd_iType, ← Insn.iImm_iType]
  rfl

/-- The offset of a store is in two pieces. -/
theorem store_on (mmu : Mmu ω ι) (n : Nat) :
    (f.on (Insn.sType imm rs2' rs1' funct3 opcode)).store mmu n =
      (do
        let a ← f.readReg (rs1'.setWidth 64)
        let b ← f.readReg (rs2'.setWidth 64)
        InsnM.access (mmu.store n (a + imm.signExtend 64) (b.setWidth n))
        pure f.npc) := by
  rw [← Insn.rs1_sType, ← Insn.rs2_sType, ← Insn.sImm_sType]
  rfl

theorem branch_on (taken : Reg → Reg → Bool) :
    ((f.on (Insn.bType imm rs2' rs1' funct3 opcode)).branch taken : InsnM 64 ω ι Reg) =
      (do
        let a ← f.readReg (rs1'.setWidth 64)
        let b ← f.readReg (rs2'.setWidth 64)
        if taken a b then f.setPc (f.pc + imm.signExtend 64 <<< 1) else pure f.npc) := by
  rw [← Insn.rs1_bType, ← Insn.rs2_bType, ← Insn.sbImm_bType]
  rfl

/-! ### Files with registers of the middle of the word -/

section Rows

variable {f} (hinsn : f.insn = w.setWidth 64)
include hinsn

/-- The registers of the middle of the word are the eight from `x8` on. -/
theorem rvcRegReg_eq (op : Reg → Reg → Reg) :
    (f.rvcRegReg op : InsnM 64 ω ι Reg) =
      (f.on (Insn.rType funct7 (Rvc.rs2' w) (Rvc.rs1' w) funct3 (Rvc.rs1' w) opcode)).regReg
        op := by
  rw [regReg_on, rvcRegReg, rvcRs1s, rvcRs2s, hinsn, Insn.rvcRs1s_eq, Insn.rvcRs2s_eq]
  simp only [writeRvcRs1s, hinsn, Insn.rvcRs1s_eq]

theorem rvcRegImm_eq (op : Reg → Reg) :
    (f.rvcRegImm op : InsnM 64 ω ι Reg) =
      (f.on (Insn.iType imm (Rvc.rs1' w) funct3 (Rvc.rs1' w) opcode)).regImm op := by
  rw [regImm_on, rvcRegImm, rvcRs1s, hinsn, Insn.rvcRs1s_eq]
  simp only [writeRvcRs1s, hinsn, Insn.rvcRs1s_eq]

theorem rvcRdImm_eq (op : Reg → Reg) :
    (f.rvcRdImm op : InsnM 64 ω ι Reg) =
      (f.on (Insn.iType imm (Rvc.rd w) funct3 (Rvc.rd w) opcode)).regImm op := by
  rw [regImm_on, rvcRdImm, rvcRs1, hinsn, Insn.rvcRs1_eq]
  simp only [writeRd, hinsn, Insn.rd_rvc]

theorem rvcLoad_eq (mmu : Mmu ω ι) (n : Nat) {offset : Reg} (hoff : offset = imm.signExtend 64) :
    f.rvcLoad mmu n offset =
      (f.on (Insn.iType imm (Rvc.rs1' w) funct3 (Rvc.rs2' w) opcode)).load mmu n fun val =>
        val.signExtend 64 := by
  rw [load_on, rvcLoad, rvcRs1s, hinsn, Insn.rvcRs1s_eq]
  simp only [writeRvcRs2s, hinsn, Insn.rvcRs2s_eq, hoff]

theorem rvcStore_eq (mmu : Mmu ω ι) (n : Nat) {offset : Reg} (hoff : offset = imm.signExtend 64) :
    f.rvcStore mmu n offset = (f.on (Insn.sType imm (Rvc.rs2' w) (Rvc.rs1' w) funct3 opcode)).store
      mmu n := by
  rw [store_on, rvcStore, rvcRs1s, rvcRs2s, hinsn, Insn.rvcRs1s_eq, Insn.rvcRs2s_eq, hoff]

theorem rvcStoreSp_eq (mmu : Mmu ω ι) (n : Nat) {offset : Reg} (hoff : offset = imm.signExtend 64) :
    f.rvcStoreSp mmu n offset = (f.on (Insn.sType imm (Rvc.rs2 w) Rvc.x2 funct3 opcode)).store
      mmu n := by
  rw [store_on, rvcStoreSp, rvcSp, rvcRs2, hinsn, Insn.rvcRs2_eq, hoff]
  rfl

theorem rvcBranch_eq (taken : Reg → Reg → Bool) (hoff : (Rvc.immB w).signExtend 12 = imm) :
    (f.rvcBranch fun a => taken a 0#64 : InsnM 64 ω ι Reg) =
      f.withZca ((f.on (Insn.bType imm Rvc.x0 (Rvc.rs1' w) funct3 opcode)).branch taken) := by
  rw [branch_on, readReg_x0, rvcBranch, rvcRs1s, hinsn, Insn.rvcRs1s_eq, Insn.rvcBImm_eq, ← hoff,
    Bits.signExtend_signExtend (by decide)]
  rfl

/-! ### Arithmetic -/

theorem cSub_eq :
    (f.cSub : InsnM 64 ω ι Reg) =
      f.withZca (f.on
        (Insn.rType funct7 (Rvc.rs2' w) (Rvc.rs1' w) funct3 (Rvc.rs1' w) opcode)).sub :=
  congrArg f.withZca (rvcRegReg_eq hinsn _)

theorem cXor_eq :
    (f.cXor : InsnM 64 ω ι Reg) =
      f.withZca (f.on
        (Insn.rType funct7 (Rvc.rs2' w) (Rvc.rs1' w) funct3 (Rvc.rs1' w) opcode)).xor :=
  congrArg f.withZca (rvcRegReg_eq hinsn _)

theorem cOr_eq :
    (f.cOr : InsnM 64 ω ι Reg) =
      f.withZca (f.on
        (Insn.rType funct7 (Rvc.rs2' w) (Rvc.rs1' w) funct3 (Rvc.rs1' w) opcode)).or :=
  congrArg f.withZca (rvcRegReg_eq hinsn _)

theorem cAnd_eq :
    (f.cAnd : InsnM 64 ω ι Reg) =
      f.withZca (f.on
        (Insn.rType funct7 (Rvc.rs2' w) (Rvc.rs1' w) funct3 (Rvc.rs1' w) opcode)).and :=
  congrArg f.withZca (rvcRegReg_eq hinsn _)

theorem cAddw_eq :
    (f.cAddw : InsnM 64 ω ι Reg) =
      f.withZca (f.on
        (Insn.rType funct7 (Rvc.rs2' w) (Rvc.rs1' w) funct3 (Rvc.rs1' w) opcode)).addw :=
  congrArg (fun body => f.withZca (f.onRv64 body)) (rvcRegReg_eq hinsn _)

theorem cSubw_eq :
    (f.cSubw : InsnM 64 ω ι Reg) =
      f.withZca (f.on
        (Insn.rType funct7 (Rvc.rs2' w) (Rvc.rs1' w) funct3 (Rvc.rs1' w) opcode)).subw :=
  congrArg (fun body => f.withZca (f.onRv64 body)) (rvcRegReg_eq hinsn _)

/-- Files whose immediates have six bits. -/
theorem cAndi_eq (himm : (Rvc.imm6 w).signExtend 12 = imm) :
    (f.cAndi : InsnM 64 ω ι Reg) =
      f.withZca (f.on (Insn.iType imm (Rvc.rs1' w) funct3 (Rvc.rs1' w) opcode)).andi := by
  refine congrArg f.withZca ((rvcRegImm_eq hinsn _).trans (congrArg (f.on _).regImm ?_))
  funext a
  rw [hinsn, Insn.rvcImm_eq, on, Insn.iImm_iType, ← himm, Bits.signExtend_signExtend (by decide),
    BitVec.and_comm]

theorem cAddi_eq (himm : (Rvc.imm6 w).signExtend 12 = imm) :
    (f.cAddi : InsnM 64 ω ι Reg) =
      f.withZca (f.on (Insn.iType imm (Rvc.rd w) funct3 (Rvc.rd w) opcode)).addi := by
  refine congrArg f.withZca ((rvcRdImm_eq hinsn _).trans (congrArg (f.on _).regImm ?_))
  funext a
  rw [hinsn, Insn.rvcImm_eq, on, Insn.iImm_iType, ← himm, Bits.signExtend_signExtend (by decide)]
  rfl

/-- The two tests of a shift amount are one. -/
theorem withZimm_eq {funct6 : BitVec 6} {r₁ r₂ : BitVec 5} (body : InsnM 64 ω ι Reg) :
    f.withZimm body = (f.on (Insn.iType (funct6 ++ Rvc.imm6 w) r₁ funct3 r₂ opcode)).withShamt
      body := by
  rw [withZimm, withShamt, hinsn, Insn.rvcZimm_eq, on, Insn.shamt_iType]
  rfl

theorem shamt_eq {funct6 : BitVec 6} {r₁ r₂ : BitVec 5} :
    Insn.rvcZimm f.insn =
      Insn.shamt (f.on (Insn.iType (funct6 ++ Rvc.imm6 w) r₁ funct3 r₂ opcode)).insn := by
  rw [hinsn, Insn.rvcZimm_eq, on, Insn.shamt_iType]

omit hinsn in
/-- The test fails where the tables reserve the shift. -/
theorem withShamt_requiring {funct6 : BitVec 6} {r₁ r₂ : BitVec 5} (body : InsnM 64 ω ι Reg) :
    (f.on (Insn.iType (funct6 ++ Rvc.imm6 w) r₁ funct3 r₂ opcode)).withShamt body =
      f.requiring (!Rvc.longShift w f.cfg.isa.xlen)
        ((f.on (Insn.iType (funct6 ++ Rvc.imm6 w) r₁ funct3 r₂ opcode)).withShamt body) := by
  cases hlong : Rvc.longShift w f.cfg.isa.xlen with
  | false => rfl
  | true =>
    rw [Rvc.longShift, Bool.and_eq_true, beq_iff_eq, BitVec.msb_eq_true_iff_two_mul_ge] at hlong
    have htest : decide ((Rvc.imm6 w).setWidth 64 < BitVec.ofNat 64 f.cfg.isa.xlen.bits) =
        false := by
      rw [hlong.1, decide_eq_false_iff_not, BitVec.lt_def, BitVec.toNat_setWidth_of_le (by decide)]
      have hge := hlong.2
      simp only [Xlen.bits, BitVec.toNat_ofNat]
      omega
    rw [withShamt, on, Insn.shamt_iType, htest]
    rfl

theorem cSlli_eq {funct6 : BitVec 6} :
    (f.cSlli : InsnM 64 ω ι Reg) =
      f.withZca (f.on
        (Insn.iType (funct6 ++ Rvc.imm6 w) (Rvc.rd w) funct3 (Rvc.rd w) opcode)).slli := by
  refine congrArg f.withZca ((withZimm_eq hinsn _).trans (congrArg (f.on _).withShamt ?_))
  rw [rvcRdImm_eq hinsn, shamt_eq hinsn]
  rfl

theorem cSrli_eq {funct6 : BitVec 6} :
    (f.cSrli : InsnM 64 ω ι Reg) =
      f.withZca (f.on
        (Insn.iType (funct6 ++ Rvc.imm6 w) (Rvc.rs1' w) funct3 (Rvc.rs1' w) opcode)).srli := by
  refine congrArg f.withZca ((withZimm_eq hinsn _).trans (congrArg (f.on _).withShamt ?_))
  rw [rvcRegImm_eq hinsn, shamt_eq hinsn]
  rfl

theorem cSrai_eq {funct6 : BitVec 6} :
    (f.cSrai : InsnM 64 ω ι Reg) =
      f.withZca (f.on
        (Insn.iType (funct6 ++ Rvc.imm6 w) (Rvc.rs1' w) funct3 (Rvc.rs1' w) opcode)).srai := by
  refine congrArg f.withZca ((withZimm_eq hinsn _).trans (congrArg (f.on _).withShamt ?_))
  rw [rvcRegImm_eq hinsn, shamt_eq hinsn]
  rfl

/-! ### Immediates and moves -/

theorem cLi_eq (himm : (Rvc.imm6 w).signExtend 12 = imm) :
    (f.cLi : InsnM 64 ω ι Reg) =
      f.withZca (f.on (Insn.iType imm Rvc.x0 funct3 (Rvc.rd w) opcode)).addi := by
  refine congrArg f.withZca ?_
  rw [addi, regImm_on, readReg_x0, pure_bind, on, Insn.iImm_iType, BitVec.zero_add]
  change _ = (do f.writeReg _ (f.sextXlen _); pure f.npc)
  rw [sextXlen_signExtend f (by decide), writeRd, hinsn, Insn.rd_rvc, Insn.rvcImm_eq, ← himm,
    Bits.signExtend_signExtend (by decide)]

theorem cAddi4spn_eq (himm : (Rvc.uimm4spn w).setWidth 12 = imm) :
    (f.cAddi4spn : InsnM 64 ω ι Reg) =
      f.withZca (f.requiring (Rvc.uimm4spn w != 0#10)
        (f.on (Insn.iType imm Rvc.x2 funct3 (Rvc.rs2' w) opcode)).addi) := by
  have htest : (Insn.rvcAddi4spnImm f.insn != 0#64) = (Rvc.uimm4spn w != 0#10) := by
    rw [hinsn, Insn.rvcAddi4spnImm_eq, Bool.eq_iff_iff, bne_iff_ne, bne_iff_ne, Ne,
      Bits.setWidth_eq_zero_iff (by decide)]
  rw [cAddi4spn, htest]
  refine congrArg (fun body => f.withZca (f.requiring _ body)) ?_
  rw [addi, regImm_on]
  simp only [writeRvcRs2s, rvcSp, hinsn, Insn.rvcRs2s_eq, Insn.rvcAddi4spnImm_eq,
    on, Insn.iImm_iType, ← himm,
    Bits.signExtend_setWidth (by decide : 10 < 12)]
  rfl

/-- `c.lui` of `x2` is `c.addi16sp`. -/
theorem cLui_eq_addi (hrd : Rvc.rd w = Rvc.x2) (himm : (Rvc.imm16sp w).signExtend 12 = imm) :
    (f.cLui : InsnM 64 ω ι Reg) =
      f.withZca (f.requiring (Rvc.imm16sp w != 0#10)
        (f.on (Insn.iType imm Rvc.x2 funct3 Rvc.x2 opcode)).addi) := by
  have htest : (Insn.rvcAddi16spImm f.insn != 0#64) = (Rvc.imm16sp w != 0#10) := by
    rw [hinsn, Insn.rvcAddi16spImm_eq, Bool.eq_iff_iff, bne_iff_ne, bne_iff_ne, Ne,
      Bits.signExtend_eq_zero_iff (by decide)]
  have hsp : Insn.rvcRd f.insn = 2#64 := by
    rw [hinsn, Insn.rvcRd_eq, hrd]
    rfl
  rw [cLui, if_pos hsp, htest]
  refine congrArg (fun body => f.withZca (f.requiring _ body)) ?_
  rw [addi, regImm_on]
  simp only [rvcSp, hinsn, Insn.rvcAddi16spImm_eq, on, Insn.iImm_iType, ← himm,
    Bits.signExtend_signExtend (by decide : 10 ≤ 12)]
  rfl

/-- `c.lui` of any other register. -/
theorem cLui_eq_lui (hrd : Rvc.rd w ≠ Rvc.x2) {imm20 : BitVec 20}
    (himm : (Rvc.imm6 w).signExtend 20 = imm20) :
    (f.cLui : InsnM 64 ω ι Reg) =
      f.withZca (f.requiring (Rvc.imm6 w != 0#6) (f.on (Insn.uType imm20 (Rvc.rd w) opcode)).lui) :=
    by
  have htest : (Insn.rvcImm f.insn != 0#64) = (Rvc.imm6 w != 0#6) := by
    rw [hinsn, Insn.rvcImm_eq, Bool.eq_iff_iff, bne_iff_ne, bne_iff_ne,
      Ne, Bits.signExtend_eq_zero_iff (by decide)]
  have hsp : ¬Insn.rvcRd f.insn = 2#64 := by
    rw [hinsn, Insn.rvcRd_eq]
    intro heq
    exact hrd ((Bits.setWidth_inj (by decide)).1 heq)
  rw [cLui, if_neg hsp, htest]
  refine congrArg (fun body => f.withZca (f.requiring _ body)) ?_
  rw [lui, writeRd, writeRd, hinsn, Insn.rd_rvc, Insn.rvcImm_eq, on, Insn.rd_uType,
    Insn.uImm_uType, ← himm,
    Bits.signExtend_signExtend (by decide)]
  rfl

/-! ### Jumps -/

theorem cJ_eq {offset : BitVec 20} (hoff : (Rvc.immJ w).signExtend 20 = offset) :
    (f.cJ : InsnM 64 ω ι Reg) = f.withZca (f.on (Insn.jType offset Rvc.x0 opcode)).jal := by
  refine congrArg f.withZca ?_
  rw [jal, writeRd, on, Insn.rd_jType, writeReg_x0, Insn.ujImm_jType, hinsn,
    Insn.rvcJImm_eq, ← hoff,
    Bits.signExtend_signExtend (by decide)]
  exact (bind_pure _).symm

/-- On RV32 the word is a jump. -/
theorem cJal_eq_jal (hxlen : f.cfg.isa.xlen = .rv32) {offset : BitVec 20}
    (hoff : (Rvc.immJ w).signExtend 20 = offset) :
    (f.cJal : InsnM 64 ω ι Reg) = f.withZca (f.on (Insn.jType offset Rvc.x1 opcode)).jal := by
  rw [cJal, hxlen]
  refine congrArg f.withZca ?_
  rw [jal, writeRd, on, Insn.rd_jType, Insn.ujImm_jType, hinsn, Insn.rvcJImm_eq, ← hoff,
    Bits.signExtend_signExtend (by decide)]
  rfl

theorem rvcRd_ne_eq : (Insn.rvcRd f.insn != 0#64) = (Rvc.rd w != Rvc.x0) :=
  nonzero_eq (by rw [hinsn, Insn.rvcRd_eq])

theorem rvcRs1_ne_eq : (Insn.rvcRs1 f.insn != 0#64) = (Rvc.rd w != Rvc.x0) :=
  nonzero_eq (by rw [hinsn, Insn.rvcRs1_eq])

theorem rvcRs2_ne_eq : (Insn.rvcRs2 f.insn != 0#64) = (Rvc.rs2 w != Rvc.x0) :=
  nonzero_eq (by rw [hinsn, Insn.rvcRs2_eq])

/-- On RV64 the same word is `c.addiw`. -/
theorem cJal_eq_addiw (hxlen : f.cfg.isa.xlen = .rv64) (himm : (Rvc.imm6 w).signExtend 12 = imm) :
    (f.cJal : InsnM 64 ω ι Reg) =
      f.withZca (f.requiring (Rvc.rd w != Rvc.x0)
        (f.on (Insn.iType imm (Rvc.rd w) funct3 (Rvc.rd w) opcode)).addiw) := by
  rw [cJal, hxlen]
  refine congrArg f.withZca ?_
  change f.requiring (Insn.rvcRd f.insn != 0#64) _ = _
  rw [rvcRd_ne_eq hinsn, addiw, onRv64_eq (f := f.on _) hxlen]
  refine congrArg (f.requiring _) ((rvcRdImm_eq hinsn _).trans (congrArg (f.on _).regImm ?_))
  funext a
  rw [hinsn, Insn.rvcImm_eq, on, Insn.iImm_iType, ← himm, Bits.signExtend_signExtend (by decide),
    BitVec.add_comm]

/-- The jump of `jalr` with no offset. -/
theorem jalr_on {rd' : BitVec 5} :
    ((f.on (Insn.iType 0#12 (Rvc.rd w) funct3 rd' opcode)).jalr : InsnM 64 ω ι Reg) =
      (do
        let a ← f.rvcRs1
        let npc ← f.setPc (a &&& ~~~1#64)
        f.writeReg (rd'.setWidth 64) f.npc
        pure npc) := by
  rw [jalr, rs1, rvcRs1, hinsn, Insn.rvcRs1_eq]
  simp only [on, Insn.rs1_iType, Insn.iImm_iType, writeRd, Insn.rd_iType,
    Bits.signExtend_zero, BitVec.add_zero]
  rfl

theorem cJr_eq :
    (f.cJr : InsnM 64 ω ι Reg) =
      f.withZca (f.requiring (Rvc.rd w != Rvc.x0)
        (f.on (Insn.iType 0#12 (Rvc.rd w) funct3 Rvc.x0 opcode)).jalr) := by
  rw [cJr, rvcRs1_ne_eq hinsn, jalr_on hinsn, writeReg_x0]
  simp only [pure_bind, bind_pure]

theorem cJalr_eq :
    (f.cJalr : InsnM 64 ω ι Reg) =
      f.withZca (f.requiring (Rvc.rd w != Rvc.x0)
        (f.on (Insn.iType 0#12 (Rvc.rd w) funct3 Rvc.x1 opcode)).jalr) := by
  rw [cJalr, rvcRs1_ne_eq hinsn, jalr_on hinsn]
  rfl

theorem cBeqz_eq (hoff : (Rvc.immB w).signExtend 12 = imm) :
    (f.cBeqz : InsnM 64 ω ι Reg) =
      f.withZca (f.on (Insn.bType imm Rvc.x0 (Rvc.rs1' w) funct3 opcode)).beq :=
  rvcBranch_eq hinsn (fun a b => a == b) hoff

theorem cBnez_eq (hoff : (Rvc.immB w).signExtend 12 = imm) :
    (f.cBnez : InsnM 64 ω ι Reg) =
      f.withZca (f.on (Insn.bType imm Rvc.x0 (Rvc.rs1' w) funct3 opcode)).bne :=
  rvcBranch_eq hinsn (fun a b => a != b) hoff

theorem cAdd_eq :
    (f.cAdd : InsnM 64 ω ι Reg) =
      f.withZca (f.requiring (Rvc.rs2 w != Rvc.x0)
        (f.on (Insn.rType funct7 (Rvc.rs2 w) (Rvc.rd w) funct3 (Rvc.rd w) opcode)).add) := by
  rw [cAdd, rvcRs2_ne_eq hinsn]
  refine congrArg (fun body => f.withZca (f.requiring _ body)) ?_
  rw [add, regReg_on, rvcRs1, rvcRs2, hinsn, Insn.rvcRs1_eq, Insn.rvcRs2_eq]
  simp only [writeRd, hinsn, Insn.rd_rvc]
  rfl

/-! ### Loads and stores -/

theorem cLw_eq (mmu : Mmu ω ι) (himm : (Rvc.uimmW w).setWidth 12 = imm) :
    f.cLw mmu = f.withZca
    ((f.on (Insn.iType imm (Rvc.rs1' w) funct3 (Rvc.rs2' w) opcode)).lw mmu) := by
  refine congrArg f.withZca (rvcLoad_eq hinsn mmu 32 ?_)
  rw [hinsn, Insn.rvcLwImm_eq, ← himm, Bits.signExtend_setWidth (by decide)]

theorem cSw_eq (mmu : Mmu ω ι) (himm : (Rvc.uimmW w).setWidth 12 = imm) :
    f.cSw mmu = f.withZca
    ((f.on (Insn.sType imm (Rvc.rs2' w) (Rvc.rs1' w) funct3 opcode)).sw mmu) := by
  refine congrArg f.withZca (rvcStore_eq hinsn mmu 32 ?_)
  rw [hinsn, Insn.rvcLwImm_eq, ← himm, Bits.signExtend_setWidth (by decide)]

theorem cSwsp_eq (mmu : Mmu ω ι) (himm : (Rvc.uimmSwsp w).setWidth 12 = imm) :
    f.cSwsp mmu = f.withZca ((f.on (Insn.sType imm (Rvc.rs2 w) Rvc.x2 funct3 opcode)).sw mmu) := by
  refine congrArg f.withZca (rvcStoreSp_eq hinsn mmu 32 ?_)
  rw [hinsn, Insn.rvcSwspImm_eq, ← himm, Bits.signExtend_setWidth (by decide)]

theorem rvcLoadSp_eq (mmu : Mmu ω ι) (n : Nat) {offset : Reg} (hoff : offset = imm.signExtend 64) :
    f.rvcLoadSp mmu n offset =
      f.requiring (Rvc.rd w != Rvc.x0)
        ((f.on (Insn.iType imm Rvc.x2 funct3 (Rvc.rd w) opcode)).load mmu n fun val =>
          val.signExtend 64) := by
  rw [rvcLoadSp, rvcRd_ne_eq hinsn, load_on]
  simp only [writeRd, rvcSp, hinsn, Insn.rd_rvc, hoff]
  rfl

theorem cLwsp_eq (mmu : Mmu ω ι) (himm : (Rvc.uimmLwsp w).setWidth 12 = imm) :
    f.cLwsp mmu =
      f.withZca (f.requiring (Rvc.rd w != Rvc.x0)
        ((f.on (Insn.iType imm Rvc.x2 funct3 (Rvc.rd w) opcode)).lw mmu)) := by
  refine congrArg f.withZca (rvcLoadSp_eq hinsn mmu 32 ?_)
  rw [hinsn, Insn.rvcLwspImm_eq, ← himm, Bits.signExtend_setWidth (by decide)]

/-- On RV64 the words of `c.flw` are those of `c.ld`. -/
theorem cFlw_eq (hxlen : f.cfg.isa.xlen = .rv64) (mmu : Mmu ω ι)
    (himm : (Rvc.uimmD w).setWidth 12 = imm) :
    f.cFlw mmu =
      f.withZca ((f.on (Insn.iType imm (Rvc.rs1' w) funct3 (Rvc.rs2' w) opcode)).ld mmu) := by
  have hoff : Insn.rvcLdImm f.insn = imm.signExtend 64 := by
    rw [hinsn, Insn.rvcLdImm_eq, ← himm, Bits.signExtend_setWidth (by decide)]
  rw [cFlw, hxlen, ld, onRv64_eq (f := f.on _) hxlen]
  refine congrArg f.withZca
    ((rvcLoad_eq hinsn mmu 64 hoff).trans (congrArg ((f.on _).load mmu 64) ?_))
  exact funext BitVec.signExtend_eq

theorem cFsw_eq (hxlen : f.cfg.isa.xlen = .rv64) (mmu : Mmu ω ι)
    (himm : (Rvc.uimmD w).setWidth 12 = imm) :
    f.cFsw mmu =
      f.withZca ((f.on (Insn.sType imm (Rvc.rs2' w) (Rvc.rs1' w) funct3 opcode)).sd mmu) := by
  have hoff : Insn.rvcLdImm f.insn = imm.signExtend 64 := by
    rw [hinsn, Insn.rvcLdImm_eq, ← himm, Bits.signExtend_setWidth (by decide)]
  rw [cFsw, hxlen, sd, onRv64_eq (f := f.on _) hxlen]
  exact congrArg f.withZca (rvcStore_eq hinsn mmu 64 hoff)

theorem cFlwsp_eq (hxlen : f.cfg.isa.xlen = .rv64) (mmu : Mmu ω ι)
    (himm : (Rvc.uimmLdsp w).setWidth 12 = imm) :
    f.cFlwsp mmu =
      f.withZca (f.requiring (Rvc.rd w != Rvc.x0)
        ((f.on (Insn.iType imm Rvc.x2 funct3 (Rvc.rd w) opcode)).ld mmu)) := by
  have hoff : Insn.rvcLdspImm f.insn = imm.signExtend 64 := by
    rw [hinsn, Insn.rvcLdspImm_eq, ← himm, Bits.signExtend_setWidth (by decide)]
  rw [cFlwsp, hxlen, ld, onRv64_eq (f := f.on _) hxlen]
  refine congrArg f.withZca ((rvcLoadSp_eq hinsn mmu 64 hoff).trans
    (congrArg (fun extend => f.requiring _ ((f.on _).load mmu 64 extend)) ?_))
  exact funext BitVec.signExtend_eq

theorem cFswsp_eq (hxlen : f.cfg.isa.xlen = .rv64) (mmu : Mmu ω ι)
    (himm : (Rvc.uimmSdsp w).setWidth 12 = imm) :
    f.cFswsp mmu = f.withZca ((f.on (Insn.sType imm (Rvc.rs2 w) Rvc.x2 funct3 opcode)).sd mmu) := by
  have hoff : Insn.rvcSdspImm f.insn = imm.signExtend 64 := by
    rw [hinsn, Insn.rvcSdspImm_eq, ← himm, Bits.signExtend_setWidth (by decide)]
  rw [cFswsp, hxlen, sd, onRv64_eq (f := f.on _) hxlen]
  exact congrArg f.withZca (rvcStoreSp_eq hinsn mmu 64 hoff)

end Rows

/-! ### Moves -/

theorem withZca_congr {x y : InsnM 64 ω ι Reg} {c : Cpu (Machine 64 ω) ι} (h : x c = y c) :
    f.withZca x c = f.withZca y c := by
  rw [withZca_apply, withZca_apply, h]

/-- Registers of the width of the processor are extended already. -/
theorem sextXlen_val {xlen : Xlen} (hxlen : f.cfg.isa.xlen = xlen) (c : Cpu (Machine xlen.bits ω) ι)
    (i : BitVec 5) :
    f.sextXlen (c.widen.rest.xpr.val i) = c.widen.rest.xpr.val i := by
  cases xlen with
  | rv32 => exact sextXlen_signExtend f (by decide) (c.rest.xpr.val i)
  | rv64 =>
    rw [sextXlen, Hart.sextXlen, hxlen]

/-- `c.mv` is `add rd, x0, rs2`, which extends the register it copies. -/
theorem cMv_apply {funct7 : BitVec 7} {funct3 : BitVec 3} {opcode : BitVec 7}
    (hinsn : f.insn = w.setWidth 64)
    {xlen : Xlen} (hxlen : f.cfg.isa.xlen = xlen) (hne : Rvc.rs2 w ≠ Rvc.x0)
    (c : Cpu (Machine xlen.bits ω) ι) :
    f.cMv c.widen =
      f.withZca (f.on (Insn.rType funct7 (Rvc.rs2 w) Rvc.x0 funct3 (Rvc.rd w) opcode)).add
        c.widen := by
  have htest : (Insn.rvcRs2 f.insn != 0#64) = true := by
    rw [rvcRs2_ne_eq hinsn]
    exact bne_iff_ne.2 hne
  rw [cMv, htest, requiring_true, add, regReg_on, readReg_x0, pure_bind]
  refine withZca_congr f ?_
  rw [rvcRs2, hinsn, Insn.rvcRs2_eq, readReg, bind_assoc, bind_assoc, checkReg]
  cases hcheck : (!f.rve || decide ((Rvc.rs2 w).setWidth 64 < 16#64)) with
  | false => rfl
  | true =>
    change (do f.writeRd (c.widen.rest.xpr.val _); pure f.npc : InsnM 64 ω ι Reg) c.widen =
      (do f.writeReg _ (f.sextXlen (0#64 + c.widen.rest.xpr.val _)); pure f.npc : InsnM 64 ω ι Reg)
        c.widen
    rw [BitVec.zero_add, sextXlen_val f hxlen, writeRd, hinsn, Insn.rd_rvc]

end Frame

end Nnemu

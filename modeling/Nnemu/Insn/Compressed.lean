import Nnemu.Insn.Base
import Nnemu.Insn.System

/-!
# Handlers of the compressed instructions

The files `insns/c_*.h`. Some have one meaning on RV32 and another one on RV64.
-/

namespace Nnemu

namespace Frame

variable (f : Frame) {ω ι : Type}

/-! ### Families -/

/-- `require_extension(EXT_ZCA)` in front of a file. -/
def withZca (body : InsnM 64 ω ι Reg) : InsnM 64 ω ι Reg := do
  f.requireExtension .zca
  body

/-- `require` in front of a file. -/
def requiring (b : Bool) (body : InsnM 64 ω ι Reg) : InsnM 64 ω ι Reg := do
  f.require b
  body

/-- `WRITE_RVC_RS1S(op(RVC_RS1S, RVC_RS2S))` -/
def rvcRegReg (op : Reg → Reg → Reg) : InsnM 64 ω ι Reg := do
  let a ← f.rvcRs1s
  let b ← f.rvcRs2s
  f.writeRvcRs1s (op a b)
  pure f.npc

/-- `WRITE_RVC_RS1S(op(RVC_RS1S))` -/
def rvcRegImm (op : Reg → Reg) : InsnM 64 ω ι Reg := do
  let a ← f.rvcRs1s
  f.writeRvcRs1s (op a)
  pure f.npc

/-- `WRITE_RD(op(RVC_RS1))` -/
def rvcRdImm (op : Reg → Reg) : InsnM 64 ω ι Reg := do
  let a ← f.rvcRs1
  f.writeRd (op a)
  pure f.npc

/-- A file behind `EXT_ZCA` runs where the extension is there. -/
theorem withZca_apply (body : InsnM 64 ω ι Reg) (c : Cpu (Machine 64 ω) ι) :
    f.withZca body c = if c.hart.extensionEnabled .zca then body c else .error f.illegalTrap c := by
  cases hz : c.hart.extensionEnabled .zca with
  | false =>
    have hno : f.requireExtension .zca c = .error f.illegalTrap c := by
      rw [requireExtension_apply, hz]
      rfl
    exact Exec.bind_of_error hno
  | true =>
    have hyes : f.requireExtension .zca c = .ok () c := by
      rw [requireExtension_apply, hz]
      rfl
    exact Exec.bind_of_ok hyes

theorem requiring_true (body : InsnM 64 ω ι Reg) : f.requiring true body = body := rfl

theorem requiring_false (body : InsnM 64 ω ι Reg) :
    f.requiring false body = throw f.illegalTrap := rfl

/-! ### Arithmetic -/

/-- `c_add` -/
def cAdd : InsnM 64 ω ι Reg :=
  f.withZca (f.requiring (Insn.rvcRs2 f.insn != 0#64) do
    let a ← f.rvcRs1
    let b ← f.rvcRs2
    f.writeRd (f.sextXlen (a + b))
    pure f.npc)

/-- `c_mv` -/
def cMv : InsnM 64 ω ι Reg :=
  f.withZca (f.requiring (Insn.rvcRs2 f.insn != 0#64) do
    let b ← f.rvcRs2
    f.writeRd b
    pure f.npc)

/-- `c_addi` -/
def cAddi : InsnM 64 ω ι Reg :=
  f.withZca (f.rvcRdImm fun a => f.sextXlen (a + Insn.rvcImm f.insn))

/-- `c_addi4spn` -/
def cAddi4spn : InsnM 64 ω ι Reg :=
  f.withZca (f.requiring (Insn.rvcAddi4spnImm f.insn != 0#64) do
    let sp ← f.rvcSp
    f.writeRvcRs2s (f.sextXlen (sp + Insn.rvcAddi4spnImm f.insn))
    pure f.npc)

/-- `c_li` -/
def cLi : InsnM 64 ω ι Reg :=
  f.withZca do
    f.writeRd (Insn.rvcImm f.insn)
    pure f.npc

/-- `c_lui`, and `c.addi16sp` -/
def cLui : InsnM 64 ω ι Reg :=
  f.withZca (
    if Insn.rvcRd f.insn = 2#64 then
      f.requiring (Insn.rvcAddi16spImm f.insn != 0#64) do
        let sp ← f.rvcSp
        f.writeReg xSp (f.sextXlen (sp + Insn.rvcAddi16spImm f.insn))
        pure f.npc
    else
      f.requiring (Insn.rvcImm f.insn != 0#64) do
        f.writeRd (Insn.rvcImm f.insn <<< 12)
        pure f.npc)

/-- `require(insn.rvc_zimm() < xlen)` in front of a file. -/
def withZimm (body : InsnM 64 ω ι Reg) : InsnM 64 ω ι Reg :=
  f.requiring (decide (Insn.rvcZimm f.insn < BitVec.ofNat 64 f.cfg.isa.xlen.bits)) body

/-- `c_slli` -/
def cSlli : InsnM 64 ω ι Reg :=
  f.withZca (f.withZimm (f.rvcRdImm fun a => f.sextXlen (a <<< Insn.rvcZimm f.insn)))

/-- `c_srli` -/
def cSrli : InsnM 64 ω ι Reg :=
  f.withZca (f.withZimm (f.rvcRegImm fun a => f.sextXlen (f.zextXlen a >>> Insn.rvcZimm f.insn)))

/-- `c_srai` -/
def cSrai : InsnM 64 ω ι Reg :=
  f.withZca (f.withZimm
    (f.rvcRegImm fun a => f.sextXlen ((f.sextXlen a).sshiftRight' (Insn.rvcZimm f.insn))))

/-- `c_andi` -/
def cAndi : InsnM 64 ω ι Reg :=
  f.withZca (f.rvcRegImm fun a => a &&& Insn.rvcImm f.insn)

/-- `c_sub` -/
def cSub : InsnM 64 ω ι Reg :=
  f.withZca (f.rvcRegReg fun a b => f.sextXlen (a - b))

/-- `c_xor` -/
def cXor : InsnM 64 ω ι Reg :=
  f.withZca (f.rvcRegReg fun a b => a ^^^ b)

/-- `c_or` -/
def cOr : InsnM 64 ω ι Reg :=
  f.withZca (f.rvcRegReg fun a b => a ||| b)

/-- `c_and` -/
def cAnd : InsnM 64 ω ι Reg :=
  f.withZca (f.rvcRegReg fun a b => a &&& b)

/-- `c_addw` -/
def cAddw : InsnM 64 ω ι Reg :=
  f.withZca (f.onRv64 (f.rvcRegReg fun a b => sext32 (a + b)))

/-- `c_subw` -/
def cSubw : InsnM 64 ω ι Reg :=
  f.withZca (f.onRv64 (f.rvcRegReg fun a b => sext32 (a - b)))

/-! ### Jumps -/

/-- `c_j` -/
def cJ : InsnM 64 ω ι Reg :=
  f.withZca (f.setPc (f.pc + Insn.rvcJImm f.insn))

/-- `c_jal`, and `c.addiw` -/
def cJal : InsnM 64 ω ι Reg :=
  f.withZca (
    match f.cfg.isa.xlen with
    | .rv32 => do
      let npc ← f.setPc (f.pc + Insn.rvcJImm f.insn)
      f.writeReg xRa f.npc
      pure npc
    | .rv64 =>
      f.requiring (Insn.rvcRd f.insn != 0#64) (f.rvcRdImm fun a => sext32 (a + Insn.rvcImm f.insn)))

/-- `c_jr` -/
def cJr : InsnM 64 ω ι Reg :=
  f.withZca (f.requiring (Insn.rvcRs1 f.insn != 0#64) do
    let a ← f.rvcRs1
    f.setPc (a &&& ~~~1#64))

/-- `c_jalr` -/
def cJalr : InsnM 64 ω ι Reg :=
  f.withZca (f.requiring (Insn.rvcRs1 f.insn != 0#64) do
    let a ← f.rvcRs1
    let npc ← f.setPc (a &&& ~~~1#64)
    f.writeReg xRa f.npc
    pure npc)

/-- The files of the branches. -/
def rvcBranch (taken : Reg → Bool) : InsnM 64 ω ι Reg :=
  f.withZca do
    let a ← f.rvcRs1s
    if taken a then f.setPc (f.pc + Insn.rvcBImm f.insn) else pure f.npc

/-- `c_beqz` -/
def cBeqz : InsnM 64 ω ι Reg :=
  f.rvcBranch fun a => a == 0#64

/-- `c_bnez` -/
def cBnez : InsnM 64 ω ι Reg :=
  f.rvcBranch fun a => a != 0#64

/-- `c_ebreak` -/
def cEbreak : InsnM 64 ω ι Reg :=
  f.withZca f.ebreak

/-! ### Loads and stores -/

variable (mmu : Mmu ω ι)

/-- `WRITE_RVC_RS2S(MMU.load<T>(RVC_RS1S + offset))` -/
def rvcLoad (n : Nat) (offset : Reg) : InsnM 64 ω ι Reg := do
  let a ← f.rvcRs1s
  let val ← InsnM.access (mmu.load n (a + offset))
  f.writeRvcRs2s (val.signExtend 64)
  pure f.npc

/-- `WRITE_RD(MMU.load<T>(RVC_SP + offset))`, for `rd` other than 0 -/
def rvcLoadSp (n : Nat) (offset : Reg) : InsnM 64 ω ι Reg :=
  f.requiring (Insn.rvcRd f.insn != 0#64) do
    let sp ← f.rvcSp
    let val ← InsnM.access (mmu.load n (sp + offset))
    f.writeRd (val.signExtend 64)
    pure f.npc

/-- `MMU.store<T>(RVC_RS1S + offset, RVC_RS2S)` -/
def rvcStore (n : Nat) (offset : Reg) : InsnM 64 ω ι Reg := do
  let a ← f.rvcRs1s
  let b ← f.rvcRs2s
  InsnM.access (mmu.store n (a + offset) (b.setWidth n))
  pure f.npc

/-- `MMU.store<T>(RVC_SP + offset, RVC_RS2)` -/
def rvcStoreSp (n : Nat) (offset : Reg) : InsnM 64 ω ι Reg := do
  let sp ← f.rvcSp
  let b ← f.rvcRs2
  InsnM.access (mmu.store n (sp + offset) (b.setWidth n))
  pure f.npc

/-- `c_lw` -/
def cLw : InsnM 64 ω ι Reg :=
  f.withZca (f.rvcLoad mmu 32 (Insn.rvcLwImm f.insn))

/-- `c_sw` -/
def cSw : InsnM 64 ω ι Reg :=
  f.withZca (f.rvcStore mmu 32 (Insn.rvcLwImm f.insn))

/-- `c_lwsp` -/
def cLwsp : InsnM 64 ω ι Reg :=
  f.withZca (f.rvcLoadSp mmu 32 (Insn.rvcLwspImm f.insn))

/-- `c_swsp` -/
def cSwsp : InsnM 64 ω ι Reg :=
  f.withZca (f.rvcStoreSp mmu 32 (Insn.rvcSwspImm f.insn))

/-! ### Floating-point loads and stores -/

/-- `require_extension` and `require_fp` in front of a file. -/
def withFp (ext : Ext) (body : InsnM 64 ω ι Reg) : InsnM 64 ω ι Reg := do
  f.requireExtension ext
  f.requireFp
  body

/-- `WRITE_FREG(reg, freg(MMU.load<T>(base + offset)))` -/
def fpLoad (n : Nat) (base : InsnM 64 ω ι Reg) (offset reg : Reg) (freg : BitVec n → BitVec 128) :
    InsnM 64 ω ι Reg := do
  let a ← base
  let val ← InsnM.access (mmu.load n (a + offset))
  f.writeFreg reg (freg val)
  pure f.npc

/-- `MMU.store<T>(base + offset, FPR[reg].v[0])` -/
def fpStore (n : Nat) (base : InsnM 64 ω ι Reg) (offset reg : Reg) : InsnM 64 ω ι Reg := do
  let a ← base
  let b ← readFreg reg
  InsnM.access (mmu.store n (a + offset) (b.setWidth n))
  pure f.npc

/-- `c_fld` -/
def cFld : InsnM 64 ω ι Reg :=
  f.withFp .zcd (f.fpLoad mmu 64 f.rvcRs1s (Insn.rvcLdImm f.insn) (Insn.rvcRs2s f.insn) freg64)

/-- `c_fldsp` -/
def cFldsp : InsnM 64 ω ι Reg :=
  f.withFp .zcd (f.fpLoad mmu 64 f.rvcSp (Insn.rvcLdspImm f.insn) (Insn.rd f.insn) freg64)

/-- `c_fsd` -/
def cFsd : InsnM 64 ω ι Reg :=
  f.withFp .zcd (f.fpStore mmu 64 f.rvcRs1s (Insn.rvcLdImm f.insn) (Insn.rvcRs2s f.insn))

/-- `c_fsdsp` -/
def cFsdsp : InsnM 64 ω ι Reg :=
  f.withFp .zcd (f.fpStore mmu 64 f.rvcSp (Insn.rvcSdspImm f.insn) (Insn.rvcRs2 f.insn))

/-- `c_flw`, and `c.ld` -/
def cFlw : InsnM 64 ω ι Reg :=
  match f.cfg.isa.xlen with
  | .rv32 => f.withFp .zcf
    (f.fpLoad mmu 32 f.rvcRs1s (Insn.rvcLwImm f.insn) (Insn.rvcRs2s f.insn) freg32)
  | .rv64 => f.withZca (f.rvcLoad mmu 64 (Insn.rvcLdImm f.insn))

/-- `c_flwsp`, and `c.ldsp` -/
def cFlwsp : InsnM 64 ω ι Reg :=
  match f.cfg.isa.xlen with
  | .rv32 => f.withFp .zcf
    (f.fpLoad mmu 32 f.rvcSp (Insn.rvcLwspImm f.insn) (Insn.rd f.insn) freg32)
  | .rv64 => f.withZca (f.rvcLoadSp mmu 64 (Insn.rvcLdspImm f.insn))

/-- `c_fsw`, and `c.sd` -/
def cFsw : InsnM 64 ω ι Reg :=
  match f.cfg.isa.xlen with
  | .rv32 => f.withFp .zcf (f.fpStore mmu 32 f.rvcRs1s (Insn.rvcLwImm f.insn) (Insn.rvcRs2s f.insn))
  | .rv64 => f.withZca (f.rvcStore mmu 64 (Insn.rvcLdImm f.insn))

/-- `c_fswsp`, and `c.sdsp` -/
def cFswsp : InsnM 64 ω ι Reg :=
  match f.cfg.isa.xlen with
  | .rv32 => f.withFp .zcf (f.fpStore mmu 32 f.rvcSp (Insn.rvcSwspImm f.insn) (Insn.rvcRs2 f.insn))
  | .rv64 => f.withZca (f.rvcStoreSp mmu 64 (Insn.rvcSdspImm f.insn))

end Frame

end Nnemu

import Nnemu.Insn.Rvc

/-!
# The immediates of compressed instructions

The `rvc_` decoders of `insn_t` find the fields of the manual's tables.
-/

namespace Nnemu

namespace Insn

variable (w : BitVec 16)

/-! ### Registers -/

theorem rd_rvc : rd (w.setWidth 64) = (Rvc.rd w).setWidth 64 :=
  x_setWidth (by decide) (by decide) w

theorem rvcRd_eq : rvcRd (w.setWidth 64) = (Rvc.rd w).setWidth 64 :=
  rd_rvc w

theorem rvcRs1_eq : rvcRs1 (w.setWidth 64) = (Rvc.rd w).setWidth 64 :=
  rd_rvc w

theorem rvcRs2_eq : rvcRs2 (w.setWidth 64) = (Rvc.rs2 w).setWidth 64 :=
  x_setWidth (by decide) (by decide) w

/-- The three-bit fields name x8 to x15. -/
theorem eight_add (r : BitVec 3) : 8#64 + r.setWidth 64 = (0b01#2 ++ r).setWidth 64 := by
  rw [BitVec.add_comm]
  exact Bits.add_shiftLeft_setWidth 0b01#2 r

theorem rvcRs1s_eq : rvcRs1s (w.setWidth 64) = (Rvc.rs1' w).setWidth 64 := by
  rw [rvcRs1s, x_setWidth (by decide) (by decide)]
  exact eight_add _

theorem rvcRs2s_eq : rvcRs2s (w.setWidth 64) = (Rvc.rs2' w).setWidth 64 := by
  rw [rvcRs2s, x_setWidth (by decide) (by decide)]
  exact eight_add _

/-! ### Immediates -/

theorem rvcImm_eq : rvcImm (w.setWidth 64) = (Rvc.imm6 w).signExtend 64 := by
  rw [rvcImm, x_setWidth (by decide) (by decide), xs_setWidth (by decide) (by decide)]
  exact Bits.add_shiftLeft_signExtend (by decide) _ _

theorem rvcZimm_eq : rvcZimm (w.setWidth 64) = (Rvc.imm6 w).setWidth 64 := by
  rw [rvcZimm, x_setWidth (by decide) (by decide), x_setWidth (by decide) (by decide)]
  exact Bits.add_shiftLeft_setWidth _ _

theorem rvcAddi4spnImm_eq : rvcAddi4spnImm (w.setWidth 64) = (Rvc.uimm4spn w).setWidth 64 := by
  rw [rvcAddi4spnImm, x_setWidth (by decide) (by decide), x_setWidth (by decide) (by decide),
    x_setWidth (by decide) (by decide), x_setWidth (by decide) (by decide),
    Bits.setWidth_shiftLeft _ 2,
    Bits.add_shiftLeft_setWidth, Bits.add_shiftLeft_setWidth, Bits.add_shiftLeft_setWidth]
  rfl

theorem rvcAddi16spImm_eq : rvcAddi16spImm (w.setWidth 64) = (Rvc.imm16sp w).signExtend 64 := by
  rw [rvcAddi16spImm, x_setWidth (by decide) (by decide), x_setWidth (by decide) (by decide),
    x_setWidth (by decide) (by decide), x_setWidth (by decide) (by decide),
    xs_setWidth (by decide) (by decide),
    Bits.setWidth_shiftLeft _ 4, Bits.add_shiftLeft_setWidth, Bits.add_shiftLeft_setWidth,
    Bits.add_shiftLeft_setWidth, Bits.add_shiftLeft_signExtend (by decide)]
  rfl

theorem rvcLwImm_eq : rvcLwImm (w.setWidth 64) = (Rvc.uimmW w).setWidth 64 := by
  rw [rvcLwImm, x_setWidth (by decide) (by decide), x_setWidth (by decide) (by decide),
    x_setWidth (by decide) (by decide), Bits.setWidth_shiftLeft _ 2, Bits.add_shiftLeft_setWidth,
    Bits.add_shiftLeft_setWidth]
  rfl

theorem rvcLdImm_eq : rvcLdImm (w.setWidth 64) = (Rvc.uimmD w).setWidth 64 := by
  rw [rvcLdImm, x_setWidth (by decide) (by decide), x_setWidth (by decide) (by decide),
    Bits.setWidth_shiftLeft _ 3,
    Bits.add_shiftLeft_setWidth]
  rfl

theorem rvcLwspImm_eq : rvcLwspImm (w.setWidth 64) = (Rvc.uimmLwsp w).setWidth 64 := by
  rw [rvcLwspImm, x_setWidth (by decide) (by decide), x_setWidth (by decide) (by decide),
    x_setWidth (by decide) (by decide), Bits.setWidth_shiftLeft _ 2, Bits.add_shiftLeft_setWidth,
    Bits.add_shiftLeft_setWidth]
  rfl

theorem rvcLdspImm_eq : rvcLdspImm (w.setWidth 64) = (Rvc.uimmLdsp w).setWidth 64 := by
  rw [rvcLdspImm, x_setWidth (by decide) (by decide), x_setWidth (by decide) (by decide),
    x_setWidth (by decide) (by decide), Bits.setWidth_shiftLeft _ 3, Bits.add_shiftLeft_setWidth,
    Bits.add_shiftLeft_setWidth]
  rfl

theorem rvcSwspImm_eq : rvcSwspImm (w.setWidth 64) = (Rvc.uimmSwsp w).setWidth 64 := by
  rw [rvcSwspImm, x_setWidth (by decide) (by decide), x_setWidth (by decide) (by decide),
    Bits.setWidth_shiftLeft _ 2,
    Bits.add_shiftLeft_setWidth]
  rfl

theorem rvcSdspImm_eq : rvcSdspImm (w.setWidth 64) = (Rvc.uimmSdsp w).setWidth 64 := by
  rw [rvcSdspImm, x_setWidth (by decide) (by decide), x_setWidth (by decide) (by decide),
    Bits.setWidth_shiftLeft _ 3,
    Bits.add_shiftLeft_setWidth]
  rfl

/-- Offsets are kept without their lowest bit. -/
theorem rvcJImm_eq : rvcJImm (w.setWidth 64) = (Rvc.immJ w).signExtend 64 <<< 1 := by
  rw [rvcJImm, x_setWidth (by decide) (by decide), x_setWidth (by decide) (by decide),
    x_setWidth (by decide) (by decide), x_setWidth (by decide) (by decide),
    x_setWidth (by decide) (by decide),
    x_setWidth (by decide) (by decide), x_setWidth (by decide) (by decide),
    xs_setWidth (by decide) (by decide),
    Bits.add_shifted_setWidth (by decide), Bits.add_shifted_setWidth (by decide),
    Bits.add_shifted_setWidth (by decide), Bits.add_shifted_setWidth (by decide),
    Bits.add_shifted_setWidth (by decide), Bits.add_shifted_setWidth (by decide),
    Bits.add_shifted_signExtend (by decide) (by decide)]
  rfl

theorem rvcBImm_eq : rvcBImm (w.setWidth 64) = (Rvc.immB w).signExtend 64 <<< 1 := by
  rw [rvcBImm, x_setWidth (by decide) (by decide), x_setWidth (by decide) (by decide),
    x_setWidth (by decide) (by decide), x_setWidth (by decide) (by decide),
    xs_setWidth (by decide) (by decide),
    Bits.add_shifted_setWidth (by decide), Bits.add_shifted_setWidth (by decide),
    Bits.add_shifted_setWidth (by decide), Bits.add_shifted_signExtend (by decide) (by decide)]
  rfl

end Insn

end Nnemu

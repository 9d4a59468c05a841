import Nnemu.Insn.Rv32
import Nnemu.Lib.Narrow

/-!
# Values on RV32

The handlers compute in 64 bits. On RV32 their operands are words of 32 bits, extended with their
signs, and so is every value they give: some cut it down with `sext_xlen` or `sext32`, and some rely
on what the operation does with such operands.

`held` is a word of 32 bits extended with its sign. The first parts say what the two widths of
`sext_xlen` and `zext_xlen` come to on RV32; the later ones go through the expressions of the files,
and for each say which operation on words of 32 bits it is. Most follow from the general facts of
`Lib.Narrow`.
-/

namespace Nnemu

/-- A word of 32 bits as a register holds it. -/
abbrev held (a : BitVec 32) : Reg :=
  a.signExtend 64

/-- The low half of an extended word is the word. -/
theorem setWidth_held (a : BitVec 32) : (held a).setWidth 32 = a :=
  Narrow.setWidth_signExtend a (by decide)

theorem sext32_held (a : BitVec 32) : sext32 (held a) = held a := by
  rw [sext32, setWidth_held]

theorem zext32_held (a : BitVec 32) : zext32 (held a) = a.setWidth 64 := by
  rw [zext32, setWidth_held]

theorem held_inj {a b : BitVec 32} : held a = held b ↔ a = b :=
  Bits.signExtend_inj (by decide)

theorem held_flag (b : Bool) : flag b = held (Rv32.flag b) := by
  cases b <;> decide

namespace Frame

variable {f : Frame}

/-! ### The widths -/

/-- On RV32 a value is cut down to its low word, which is extended. -/
theorem sextXlen_rv32 (hx : f.cfg.isa.xlen = .rv32) (x : Reg) :
    f.sextXlen x = held (x.setWidth 32) := by
  rw [sextXlen, Hart.sextXlen, hx]

theorem sextXlen_held (hx : f.cfg.isa.xlen = .rv32) (a : BitVec 32) :
    f.sextXlen (held a) = held a := by
  rw [sextXlen_rv32 hx, setWidth_held]

theorem zextXlen_rv32 (hx : f.cfg.isa.xlen = .rv32) (x : Reg) : f.zextXlen x = zext32 x := by
  have hmask : x &&& 0xffffffff#64 = zext32 x := by
    apply BitVec.eq_of_toNat_eq
    rw [zext32, BitVec.toNat_and, BitVec.toNat_setWidth_of_le (by decide), BitVec.toNat_setWidth]
    exact Nat.and_two_pow_sub_one_eq_mod _ 32
  rw [zextXlen, hx]
  exact hmask

theorem zextXlen_held (hx : f.cfg.isa.xlen = .rv32) (a : BitVec 32) :
    f.zextXlen (held a) = a.setWidth 64 := by
  rw [zextXlen_rv32 hx, zext32_held]

/-- Shift amounts have five bits. -/
theorem shamtMask_rv32 (hx : f.cfg.isa.xlen = .rv32) : f.shamtMask = 0x1f#64 := by
  rw [shamtMask, hx]
  rfl

end Frame

namespace Rv32

/-! ### Low words -/

/-- The low word of a sum is the sum of the low words. -/
theorem add_held (a b : BitVec 32) : (held a + held b).setWidth 32 = a + b := by
  rw [BitVec.setWidth_add _ _ (by decide), setWidth_held, setWidth_held]

theorem sub_held (a b : BitVec 32) : (held a - held b).setWidth 32 = a - b := by
  rw [BitVec.sub_eq_add_neg, BitVec.setWidth_add _ _ (by decide),
    BitVec.setWidth_neg_of_le (by decide), setWidth_held,
    setWidth_held, ← BitVec.sub_eq_add_neg]

theorem mul_held (a b : BitVec 32) : (held a * held b).setWidth 32 = a * b := by
  rw [BitVec.setWidth_mul _ _ (by decide), setWidth_held, setWidth_held]

theorem shiftLeft_held (a : BitVec 32) (n : Nat) : (held a <<< n).setWidth 32 = a <<< n := by
  rw [BitVec.setWidth_shiftLeft_of_le (by decide), setWidth_held]

theorem ushiftRight_held (a : BitVec 32) (n : Nat) : (a.setWidth 64 >>> n).setWidth 32 = a >>> n :=
  Narrow.setWidth_ushiftRight a (by decide) n

theorem sshiftRight_held (a : BitVec 32) (n : Nat) :
    ((held a).sshiftRight n).setWidth 32 = a.sshiftRight n := by
  rw [Narrow.sshiftRight_signExtend a (by decide), setWidth_held]

/-- The number of places is cut from a held word, too. -/
theorem places_held (b : BitVec 32) : (held b &&& 0x1f#64).toNat = (places b).toNat := by
  have hmask : (0x1f#64).setWidth 32 = 0x1f#32 := by decide
  have hlow : (held b &&& 0x1f#64).setWidth 32 = places b := by
    rw [BitVec.setWidth_and, setWidth_held, hmask, places]
  have hlt : (held b &&& 0x1f#64).toNat < 2 ^ 32 := by
    rw [BitVec.toNat_and]
    exact Nat.lt_of_le_of_lt Nat.and_le_right (by decide)
  rw [← hlow, BitVec.toNat_setWidth, Nat.mod_eq_of_lt hlt]

/-! ### High words -/

/-- The high word of a product. -/
theorem high_held (product : Reg) : sext32 (product >>> 32) = held (high product) :=
  rfl

/-- Whether the sign is drawn into the high word does not show in it. -/
theorem setWidth_sshiftRight (product : Reg) :
    (product.sshiftRight 32).setWidth 32 = high product := by
  apply BitVec.eq_of_getLsbD_eq
  intro i hi
  have hin : 32 + i < 64 := by omega
  rw [high, BitVec.getLsbD_setWidth, BitVec.getLsbD_setWidth, BitVec.getLsbD_sshiftRight,
    BitVec.getLsbD_ushiftRight,
    if_pos hin]
  have hout : ¬64 ≤ i := by omega
  simp only [hout, decide_false, Bool.not_false, Bool.true_and]

/-! ### Quotients -/

theorem held_eq_zero {b : BitVec 32} : held b = 0#64 ↔ b = 0#32 :=
  Bits.signExtend_eq_zero_iff (by decide)

/-- No held word is the least one of 64 bits. -/
theorem held_ne_intMin (a : BitVec 32) : held a ≠ int64Min := by
  intro h
  have hzero : a = 0#32 := by
    rw [← setWidth_held a, h]
    rfl
  rw [hzero] at h
  exact absurd h (by decide)

/-! ### What the files compute -/

variable {f : Frame}

theorem value_add (hx : f.cfg.isa.xlen = .rv32) (a b : BitVec 32) :
    f.sextXlen (held a + held b) = held (a + b) := by
  rw [Frame.sextXlen_rv32 hx, add_held]

theorem value_sub (hx : f.cfg.isa.xlen = .rv32) (a b : BitVec 32) :
    f.sextXlen (held a - held b) = held (a - b) := by
  rw [Frame.sextXlen_rv32 hx, sub_held]

theorem value_mul (hx : f.cfg.isa.xlen = .rv32) (a b : BitVec 32) :
    f.sextXlen (held a * held b) = held (a * b) := by
  rw [Frame.sextXlen_rv32 hx, mul_held]

theorem value_and (a b : BitVec 32) : held a &&& held b = held (a &&& b) :=
  BitVec.signExtend_and.symm

theorem value_or (a b : BitVec 32) : held a ||| held b = held (a ||| b) :=
  BitVec.signExtend_or.symm

theorem value_xor (a b : BitVec 32) : held a ^^^ held b = held (a ^^^ b) :=
  BitVec.signExtend_xor.symm

theorem value_slt (a b : BitVec 32) : Nnemu.flag ((held a).slt (held b)) =
    held (flag (a.slt b)) := by
  rw [Narrow.slt_signExtend a b (by decide), held_flag]

theorem value_ult (a b : BitVec 32) : Nnemu.flag ((held a).ult (held b)) =
    held (flag (a.ult b)) := by
  rw [Narrow.ult_signExtend a b (by decide), held_flag]

/-! Shifts, by a number of places that has been cut to five bits. -/

theorem value_shiftLeft (hx : f.cfg.isa.xlen = .rv32) (a : BitVec 32) {n : Reg} {n' : BitVec 32}
    (hn : n.toNat = n'.toNat) : f.sextXlen (held a <<< n) = held (a <<< n') := by
  rw [Frame.sextXlen_rv32 hx, BitVec.shiftLeft_eq', hn, shiftLeft_held, BitVec.shiftLeft_eq']

theorem value_ushiftRight (hx : f.cfg.isa.xlen = .rv32) (a : BitVec 32) {n : Reg} {n' : BitVec 32}
    (hn : n.toNat = n'.toNat) : f.sextXlen (f.zextXlen (held a) >>> n) = held (a >>> n') := by
  rw [Frame.sextXlen_rv32 hx, Frame.zextXlen_held hx, BitVec.ushiftRight_eq', hn, ushiftRight_held,
    BitVec.ushiftRight_eq']

theorem value_sshiftRight (hx : f.cfg.isa.xlen = .rv32) (a : BitVec 32) {n : Reg} {n' : BitVec 32}
    (hn : n.toNat = n'.toNat) :
    f.sextXlen ((f.sextXlen (held a)).sshiftRight' n) = held (a.sshiftRight' n') := by
  rw [Frame.sextXlen_rv32 hx, Frame.sextXlen_held hx, BitVec.sshiftRight_eq', hn, sshiftRight_held,
    BitVec.sshiftRight_eq']

/-- Shifts by a register take the low five bits of it, on words as on extended words. -/
theorem value_sll (hx : f.cfg.isa.xlen = .rv32) (a b : BitVec 32) :
    f.sextXlen (held a <<< (held b &&& f.shamtMask)) = held (a <<< places b) := by
  rw [Frame.shamtMask_rv32 hx]
  exact value_shiftLeft hx a (places_held b)

theorem value_srl (hx : f.cfg.isa.xlen = .rv32) (a b : BitVec 32) :
    f.sextXlen (f.zextXlen (held a) >>> (held b &&& f.shamtMask)) = held (a >>> places b) := by
  rw [Frame.shamtMask_rv32 hx]
  exact value_ushiftRight hx a (places_held b)

theorem value_sra (hx : f.cfg.isa.xlen = .rv32) (a b : BitVec 32) :
    f.sextXlen ((f.sextXlen (held a)).sshiftRight' (held b &&& f.shamtMask)) =
      held (a.sshiftRight' (places b)) := by
  rw [Frame.shamtMask_rv32 hx]
  exact value_sshiftRight hx a (places_held b)

/-! Products and quotients -/

/-- The high word of a signed product is cut out of a product of 64 bits, which is exact. -/
theorem value_mulh (hx : f.cfg.isa.xlen = .rv32) (a b : BitVec 32) :
    (match f.cfg.isa.xlen with
      | .rv64 => mulh64 (held a) (held b)
      | .rv32 => sext32 ((sext32 (held a) * sext32 (held b)).sshiftRight 32)) = held
        (high (a.signExtend 64 * b.signExtend 64)) := by
  rw [hx]
  change sext32 ((sext32 (held a) * sext32 (held b)).sshiftRight 32) = held
    (high (a.signExtend 64 * b.signExtend 64))
  rw [sext32_held, sext32_held, sext32, setWidth_sshiftRight]

theorem value_mulhsu (hx : f.cfg.isa.xlen = .rv32) (a b : BitVec 32) :
    (match f.cfg.isa.xlen with
      | .rv64 => mulhsu64 (held a) (held b)
      | .rv32 => sext32 ((sext32 (held a) * zext32 (held b)) >>> 32)) = held
        (high (a.signExtend 64 * b.setWidth 64)) := by
  rw [hx]
  change sext32 ((sext32 (held a) * zext32 (held b)) >>> 32) = held
    (high (a.signExtend 64 * b.setWidth 64))
  rw [sext32_held, zext32_held, high_held]

theorem value_mulhu (hx : f.cfg.isa.xlen = .rv32) (a b : BitVec 32) :
    (match f.cfg.isa.xlen with
      | .rv64 => mulhu64 (held a) (held b)
      | .rv32 => sext32 ((zext32 (held a) * zext32 (held b)) >>> 32)) = held
        (high (a.setWidth 64 * b.setWidth 64)) := by
  rw [hx]
  change sext32 ((zext32 (held a) * zext32 (held b)) >>> 32) = held
    (high (a.setWidth 64 * b.setWidth 64))
  rw [zext32_held, zext32_held, high_held]

theorem allOnes_held : BitVec.allOnes 64 = held (BitVec.allOnes 32) := by
  decide

/-- An extended word is never the least number of 64 bits, so the second branch is one of RV64; the
overflow of RV32 comes out of the division itself. -/
theorem value_div (hx : f.cfg.isa.xlen = .rv32) (a b : BitVec 32) :
    (if f.sextXlen (held b) = 0#64 then BitVec.allOnes 64
      else if f.sextXlen (held a) = int64Min ∧ f.sextXlen (held b) = -1#64 then f.sextXlen (held a)
      else f.sextXlen ((f.sextXlen (held a)).sdiv (f.sextXlen (held b)))) = held (div a b) := by
  rw [Frame.sextXlen_held hx, Frame.sextXlen_held hx, div]
  by_cases hb : b = 0#32
  · rw [if_pos (held_eq_zero.2 hb), if_pos hb, allOnes_held]
  · rw [if_neg (mt held_eq_zero.1 hb), if_neg fun h => held_ne_intMin a h.1,
      if_neg hb, Frame.sextXlen_rv32 hx,
      Narrow.setWidth_sdiv a b (by decide)]

theorem value_rem (hx : f.cfg.isa.xlen = .rv32) (a b : BitVec 32) :
    (if f.sextXlen (held b) = 0#64 then f.sextXlen (held a)
      else if f.sextXlen (held a) = int64Min ∧ f.sextXlen (held b) = -1#64 then 0#64
      else f.sextXlen ((f.sextXlen (held a)).srem (f.sextXlen (held b)))) = held (rem a b) := by
  rw [Frame.sextXlen_held hx, Frame.sextXlen_held hx, rem]
  by_cases hb : b = 0#32
  · rw [if_pos (held_eq_zero.2 hb), if_pos hb]
  · rw [if_neg (mt held_eq_zero.1 hb), if_neg fun h => held_ne_intMin a h.1,
      if_neg hb, Frame.sextXlen_rv32 hx,
      Narrow.setWidth_srem a b (by decide)]

theorem setWidth_eq_zero {b : BitVec 32} : b.setWidth 64 = 0#64 ↔ b = 0#32 :=
  Bits.setWidth_eq_zero_iff (by decide)

theorem value_divu (hx : f.cfg.isa.xlen = .rv32) (a b : BitVec 32) :
    (if f.zextXlen (held b) = 0#64 then BitVec.allOnes 64
      else f.sextXlen (f.zextXlen (held a) / f.zextXlen (held b))) = held (divu a b) := by
  rw [Frame.zextXlen_held hx, Frame.zextXlen_held hx, divu]
  by_cases hb : b = 0#32
  · rw [if_pos (setWidth_eq_zero.2 hb), if_pos hb, allOnes_held]
  · rw [if_neg (mt setWidth_eq_zero.1 hb), if_neg hb, Frame.sextXlen_rv32 hx,
      Narrow.setWidth_udiv a b (by decide)]

theorem value_remu (hx : f.cfg.isa.xlen = .rv32) (a b : BitVec 32) :
    (if f.zextXlen (held b) = 0#64 then f.sextXlen (held a)
      else f.sextXlen (f.zextXlen (held a) % f.zextXlen (held b))) = held (remu a b) := by
  rw [Frame.zextXlen_held hx, Frame.zextXlen_held hx, Frame.sextXlen_held hx, remu]
  by_cases hb : b = 0#32
  · rw [if_pos (setWidth_eq_zero.2 hb), if_pos hb]
  · rw [if_neg (mt setWidth_eq_zero.1 hb), if_neg hb, Frame.sextXlen_rv32 hx,
      Narrow.setWidth_umod a b (by decide)]

/-! ### Immediates -/

/-- An immediate is a word extended with its sign already. -/
theorem held_iImm (b : Reg) : held (imm (Insn.iImm b)) = Insn.iImm b := by
  rw [Insn.iImm, Insn.xs_eq (by decide) (by decide)]
  exact Narrow.holds_signExtend (by decide) (by decide) _

theorem held_uImm (b : Reg) : held (imm (Insn.uImm b)) = Insn.uImm b := by
  rw [Insn.uImm, Insn.xs_eq (by decide) (by decide)]
  exact Narrow.holds_shiftLeft (by decide) (by decide) (by decide) _

/-- Six bits with a sign. -/
theorem rvcImm_append (b : Reg) :
    Insn.rvcImm b = (b.extractLsb' 12 1 ++ b.extractLsb' 2 5).signExtend 64 := by
  rw [Insn.rvcImm, Insn.x_eq (by decide), Insn.xs_eq (by decide) (by decide)]
  exact Bits.add_shiftLeft_signExtend (by decide) _ _

theorem held_rvcImm (b : Reg) : held (imm (Insn.rvcImm b)) = Insn.rvcImm b := by
  rw [rvcImm_append]
  exact Narrow.holds_signExtend (by decide) (by decide) _

theorem held_rvcImm_shiftLeft (b : Reg) :
    held (imm (Insn.rvcImm b) <<< 12) = Insn.rvcImm b <<< 12 := by
  have hlow : imm (Insn.rvcImm b) <<< 12 = imm (Insn.rvcImm b <<< 12) :=
    (BitVec.setWidth_shiftLeft_of_le (by decide)).symm
  rw [hlow, rvcImm_append]
  exact Narrow.holds_shiftLeft (by decide) (by decide) (by decide) _

/-- A number of places below 32 is the same in 32 bits. -/
theorem toNat_imm {n : Reg} (h : n < 32#64) : n.toNat = (imm n).toNat := by
  have hlt : n.toNat < 32 := h
  rw [imm, BitVec.toNat_setWidth, Nat.mod_eq_of_lt (Nat.lt_trans hlt (by decide))]

theorem value_addi (hx : f.cfg.isa.xlen = .rv32) (a : BitVec 32) :
    f.sextXlen (held a + Insn.iImm f.insn) = held (a + imm (Insn.iImm f.insn)) := by
  rw [← value_add hx, held_iImm]

theorem value_andi (a : BitVec 32) : Insn.iImm f.insn &&&
    held a = held (a &&& imm (Insn.iImm f.insn)) := by
  rw [← value_and, held_iImm, BitVec.and_comm]

theorem value_ori (a : BitVec 32) : Insn.iImm f.insn |||
    held a = held (a ||| imm (Insn.iImm f.insn)) := by
  rw [← value_or, held_iImm, BitVec.or_comm]

theorem value_xori (a : BitVec 32) :
    Insn.iImm f.insn ^^^ held a = held (a ^^^ imm (Insn.iImm f.insn)) := by
  rw [← value_xor, held_iImm, BitVec.xor_comm]

theorem value_slti (a : BitVec 32) :
    Nnemu.flag ((held a).slt (Insn.iImm f.insn)) =
      held (flag (a.slt (imm (Insn.iImm f.insn)))) := by
  rw [← value_slt, held_iImm]

theorem value_sltiu (a : BitVec 32) :
    Nnemu.flag ((held a).ult (Insn.iImm f.insn)) =
      held (flag (a.ult (imm (Insn.iImm f.insn)))) := by
  rw [← value_ult, held_iImm]

theorem value_auipc (hx : f.cfg.isa.xlen = .rv32) :
    f.sextXlen (Insn.uImm f.insn + f.pc) = held (imm (Insn.uImm f.insn) + pc f) := by
  rw [Frame.sextXlen_rv32 hx, BitVec.setWidth_add _ _ (by decide), imm, pc]

theorem value_cAddi (hx : f.cfg.isa.xlen = .rv32) (a : BitVec 32) :
    f.sextXlen (held a + Insn.rvcImm f.insn) = held (a + imm (Insn.rvcImm f.insn)) := by
  rw [← value_add hx, held_rvcImm]

theorem value_cAndi (a : BitVec 32) :
    held a &&& Insn.rvcImm f.insn = held (a &&& imm (Insn.rvcImm f.insn)) := by
  rw [← value_and, held_rvcImm]

/-! ### Comparisons, loads and atomics -/

/-- Extended words are equal where the words are. -/
theorem beq_held (a b : BitVec 32) : (held a == held b) = (a == b) := by
  rw [beq_eq_decide, beq_eq_decide, decide_eq_decide]
  exact held_inj

theorem bne_held (a b : BitVec 32) : (held a != held b) = (a != b) := by
  rw [bne, bne, beq_held]

theorem value_signExtend {n : Nat} (hn : n ≤ 32) (val : BitVec n) :
    val.signExtend 64 = held (val.signExtend 32) :=
  (Bits.signExtend_signExtend hn val).symm

theorem value_setWidth {n : Nat} (hn : n < 32) (val : BitVec n) :
    val.setWidth 64 = held (val.setWidth 32) :=
  (Bits.signExtend_setWidth hn val).symm

/-- What an atomic operation computes is on words in any case. -/
theorem amo_add (lhs b : BitVec 32) : Frame.amoAddOp 32 lhs (held b) = lhs + b := by
  rw [Frame.amoAddOp, BitVec.setWidth_add _ _ (by decide), Narrow.setWidth_setWidth lhs (by decide),
    setWidth_held]

theorem amo_and (lhs b : BitVec 32) : Frame.amoAndOp 32 lhs (held b) = lhs &&& b := by
  rw [Frame.amoAndOp, BitVec.setWidth_and, Narrow.setWidth_setWidth lhs (by decide), setWidth_held]

theorem amo_or (lhs b : BitVec 32) : Frame.amoOrOp 32 lhs (held b) = lhs ||| b := by
  rw [Frame.amoOrOp, BitVec.setWidth_or, Narrow.setWidth_setWidth lhs (by decide), setWidth_held]

theorem amo_xor (lhs b : BitVec 32) : Frame.amoXorOp 32 lhs (held b) = lhs ^^^ b := by
  rw [Frame.amoXorOp, BitVec.setWidth_xor, Narrow.setWidth_setWidth lhs (by decide), setWidth_held]

theorem amo_swap (lhs b : BitVec 32) : Frame.amoSwapOp 32 lhs (held b) = b := by
  rw [Frame.amoSwapOp, setWidth_held]

theorem amo_max (less : BitVec 32 → BitVec 32 → Bool) (lhs b : BitVec 32) :
    Frame.amoMaxOp 32 less lhs (held b) = max less lhs b := by
  rw [Frame.amoMaxOp, setWidth_held, max]

theorem amo_min (less : BitVec 32 → BitVec 32 → Bool) (lhs b : BitVec 32) :
    Frame.amoMinOp 32 less lhs (held b) = min less lhs b := by
  rw [Frame.amoMinOp, setWidth_held, min]

end Rv32

end Nnemu

import Nnemu.Insn.Format
import Nnemu.Sim.Opcodes

/-!
# The encoders of the debugger and the decoders of the harts

`opcodes.h` puts instruction words together and `insn_t` takes them apart, each by hand. Every
encoder gives a word of one of the formats of the manual, so the decoders find what was put in. The
one exception is `srli`, which keeps five bits of a shift amount where a decoder looks for six:
`roundTrip_iff`.

The encoders are enumerated with their operands (`EncoderCall`), and for each the word is put in one
of the formats of `Insn.Format`, with the fields the encoder was given. What the decoders then find
is a lemma about the format. `roundTrip_iff` is over all encoders and all operands: what is compared
are the bits that the field of an operand has room for, and `Kept` leaves out the one call that
loses such a bit.
-/

namespace Nnemu

open Opcodes

/-- A call of an encoder. The immediates are the bits that the instruction has room for. -/
inductive EncoderCall where
  /-- The offset is twice the immediate. -/
  | jal (rd : BitVec 5) (imm : BitVec 20)
  | lw (rd base : BitVec 5) (offset : BitVec 12)
  | ld (rd base : BitVec 5) (offset : BitVec 12)
  | flw (dest base : BitVec 5) (offset : BitVec 12)
  | fld (dest base : BitVec 5) (offset : BitVec 12)
  | sw (src base : BitVec 5) (offset : BitVec 12)
  | sd (src base : BitVec 5) (offset : BitVec 12)
  | fsw (src base : BitVec 5) (offset : BitVec 12)
  | fsd (src base : BitVec 5) (offset : BitVec 12)
  | addi (dest src : BitVec 5) (imm : BitVec 12)
  | xori (dest src : BitVec 5) (imm : BitVec 12)
  | lui (dest : BitVec 5) (imm : BitVec 20)
  | csrw (source : BitVec 5) (csr : BitVec 12)
  | csrr (rd : BitVec 5) (csr : BitVec 12)
  | csrrs (rd rs1 : BitVec 5) (csr : BitVec 12)
  | csrsi (csr : BitVec 12) (imm : BitVec 5)
  | srli (dest src : BitVec 5) (shamt : BitVec 6)

/-- A register number, or another operand without a sign, as `unsigned`. -/
abbrev unsigned {n : Nat} (x : BitVec n) : BitVec 32 :=
  x.setWidth 32

/-- An immediate with a sign as `uint16_t`. -/
def halfword (imm : BitVec 12) : BitVec 32 :=
  (imm.signExtend 16).setWidth 32

/-- `insn_t::shamt` -/
def Insn.shamtField (b : Reg) : Reg :=
  x b 20 6

namespace EncoderCall

/-- The word that the encoder returns. -/
def word : EncoderCall → BitVec 32
  | jal rd imm => Opcodes.jal (unsigned rd) (imm.signExtend 32 <<< 1)
  | lw rd base offset => Opcodes.lw (unsigned rd) (unsigned base) (halfword offset)
  | ld rd base offset => Opcodes.ld (unsigned rd) (unsigned base) (halfword offset)
  | flw dest base offset => Opcodes.flw (unsigned dest) (unsigned base) (halfword offset)
  | fld dest base offset => Opcodes.fld (unsigned dest) (unsigned base) (halfword offset)
  | sw src base offset => Opcodes.sw (unsigned src) (unsigned base) (halfword offset)
  | sd src base offset => Opcodes.sd (unsigned src) (unsigned base) (halfword offset)
  | fsw src base offset => Opcodes.fsw (unsigned src) (unsigned base) (halfword offset)
  | fsd src base offset => Opcodes.fsd (unsigned src) (unsigned base) (halfword offset)
  | addi dest src imm => Opcodes.addi (unsigned dest) (unsigned src) (halfword imm)
  | xori dest src imm => Opcodes.xori (unsigned dest) (unsigned src) (halfword imm)
  | lui dest imm => Opcodes.lui (unsigned dest) (unsigned imm)
  | csrw source csr => Opcodes.csrw (unsigned source) (unsigned csr)
  | csrr rd csr => Opcodes.csrr (unsigned rd) (unsigned csr)
  | csrrs rd rs1 csr => Opcodes.csrrs (unsigned rd) (unsigned rs1) (unsigned csr)
  | csrsi csr imm => Opcodes.csrsi (unsigned csr) (unsigned imm)
  | srli dest src shamt => Opcodes.srli (unsigned dest) (unsigned src) (unsigned shamt)

/-- The match and the mask of the instruction, in `encoding.h`. -/
def encoding : EncoderCall → Encoding
  | jal .. => Opcode.jal.encoding
  | lw .. => Opcode.lw.encoding
  | ld .. => Opcode.ld.encoding
  | flw .. => ⟨0x2007#64, 0x707f#64⟩
  | fld .. => ⟨0x3007#64, 0x707f#64⟩
  | sw .. => Opcode.sw.encoding
  | sd .. => Opcode.sd.encoding
  | fsw .. => ⟨0x2027#64, 0x707f#64⟩
  | fsd .. => ⟨0x3027#64, 0x707f#64⟩
  | addi .. => Opcode.addi.encoding
  | xori .. => Opcode.xori.encoding
  | lui .. => Opcode.lui.encoding
  | csrw .. => Opcode.csrrw.encoding
  | csrr .. => Opcode.csrrs.encoding
  | csrrs .. => Opcode.csrrs.encoding
  | csrsi .. => Opcode.csrrsi.encoding
  | srli .. => Opcode.srli.encoding

/-- The bits of the fields that the operands go to. -/
def fields : EncoderCall → Reg
  | jal .. | lui .. => 0xffffff80#64
  | lw .. | ld .. | flw .. | fld .. | addi .. | xori .. | csrrs .. => 0xffff8f80#64
  | sw .. | sd .. | fsw .. | fsd .. => 0xffff8f80#64
  | csrw .. | csrsi .. => 0xffff8000#64
  | csrr .. => 0xfff00f80#64
  | srli .. => 0x3ff8f80#64

/-- Do the decoders of `insn_t` find the operands in a word? -/
def Decodes (b : Reg) : EncoderCall → Prop
  | jal rd imm => Insn.rd b = rd.setWidth 64 ∧ Insn.ujImm b = imm.signExtend 64 <<< 1
  | lw rd base offset | ld rd base offset | flw rd base offset | fld rd
      base offset | addi rd base offset
  | xori rd base offset =>
    Insn.rd b = rd.setWidth 64 ∧ Insn.rs1 b = base.setWidth 64 ∧ Insn.iImm b = offset.signExtend 64
  | sw src base offset | sd src base offset | fsw src base offset | fsd src base offset =>
    Insn.rs2 b = src.setWidth 64 ∧ Insn.rs1 b = base.setWidth 64 ∧
      Insn.sImm b = offset.signExtend 64
  | lui dest imm => Insn.rd b = dest.setWidth 64 ∧ Insn.uImm b = imm.signExtend 64 <<< 12
  | csrw source csr => Insn.rs1 b = source.setWidth 64 ∧ Insn.csr b = csr.setWidth 64
  | csrr rd csr => Insn.rd b = rd.setWidth 64 ∧ Insn.csr b = csr.setWidth 64
  | csrrs rd rs1 csr =>
    Insn.rd b = rd.setWidth 64 ∧ Insn.rs1 b = rs1.setWidth 64 ∧ Insn.csr b = csr.setWidth 64
  | csrsi csr imm => Insn.rs1 b = imm.setWidth 64 ∧ Insn.csr b = csr.setWidth 64
  | srli dest src shamt =>
    Insn.rd b = dest.setWidth 64 ∧ Insn.rs1 b = src.setWidth 64 ∧
      Insn.shamtField b = shamt.setWidth 64

/-- **The round trip.** The decoders find the operands, the word has its encoding, and no other bit
is set. -/
structure RoundTrip (c : EncoderCall) : Prop where
  decodes : c.Decodes (c.word.setWidth 64)
  hits : c.encoding.hits (c.word.setWidth 64) = true
  noOther : c.word.setWidth 64 &&& ~~~(c.encoding.mask ||| c.fields) = 0#64

end EncoderCall

namespace Opcodes

/-! ### Formats -/

theorem bits_eq {hi lo : Nat} (h : hi + 1 - lo < 32) (v : BitVec 32) :
    bits v hi lo = (v.extractLsb' lo (hi + 1 - lo)).setWidth 32 :=
  Bits.shiftRight_and_eq h v lo

theorem bit_eq (v : BitVec 32) (b : Nat) : bit v b = (v.extractLsb' b 1).setWidth 32 :=
  Bits.shiftRight_and_eq (by decide : 1 < 32) v b

variable {funct7 : BitVec 7} {rs2 rs1 rd : BitVec 5} {funct3 : BitVec 3} {opcode : BitVec 7}

/-- The fixed bits, below the fields. -/
def fixed (funct3 : BitVec 3) (opcode : BitVec 7) : BitVec 32 :=
  unsigned funct3 <<< 12 ||| unsigned opcode

theorem or_rType : unsigned funct7 <<< 25 ||| unsigned rs2 <<< 20 ||| unsigned rs1 <<< 15 |||
    unsigned rd <<< 7 |||
    fixed funct3 opcode = Insn.rType funct7 rs2 rs1 funct3 rd opcode := by
  have hsplit (x d f o : BitVec 32) : x ||| d ||| (f ||| o) = x ||| f ||| d ||| o := by ac_rfl
  have hopcode : unsigned opcode = unsigned opcode <<< 0 := (BitVec.shiftLeft_zero _).symm
  rw [fixed, hsplit, hopcode, Bits.or_shifted_setWidth (by decide : 25 = 20 + 5),
    Bits.or_shifted_setWidth (by decide : 20 = 15 + 5),
    Bits.or_shifted_setWidth (by decide : 15 = 12 + 3),
    Bits.or_shifted_setWidth (by decide : 12 = 7 + 5),
    Bits.or_shifted_setWidth (by decide : 7 = 0 + 7),
    BitVec.shiftLeft_zero]
  exact BitVec.setWidth_eq _

theorem or_iType {imm : BitVec 12} : unsigned imm <<< 20 ||| unsigned rs1 <<< 15 |||
    unsigned rd <<< 7 |||
    fixed funct3 opcode = Insn.iType imm rs1 funct3 rd opcode := by
  have hsplit (x d f o : BitVec 32) : x ||| d ||| (f ||| o) = x ||| f ||| d ||| o := by ac_rfl
  have hopcode : unsigned opcode = unsigned opcode <<< 0 := (BitVec.shiftLeft_zero _).symm
  rw [fixed, hsplit, hopcode, Bits.or_shifted_setWidth (by decide : 20 = 15 + 5),
    Bits.or_shifted_setWidth (by decide : 15 = 12 + 3),
    Bits.or_shifted_setWidth (by decide : 12 = 7 + 5),
    Bits.or_shifted_setWidth (by decide : 7 = 0 + 7), BitVec.shiftLeft_zero]
  exact BitVec.setWidth_eq _

theorem or_uType {imm : BitVec 20} : unsigned imm <<< 12 ||| unsigned rd <<< 7 ||| unsigned opcode =
    Insn.uType imm rd opcode := by
  have hopcode : unsigned opcode = unsigned opcode <<< 0 := (BitVec.shiftLeft_zero _).symm
  rw [hopcode, Bits.or_shifted_setWidth (by decide : 12 = 7 + 5),
    Bits.or_shifted_setWidth (by decide : 7 = 0 + 7),
    BitVec.shiftLeft_zero]
  exact BitVec.setWidth_eq _

/-! ### Encoders -/

/-- The low bits of an offset are the offset. -/
theorem extractLsb'_halfword {lo len : Nat} (h : lo + len ≤ 12) (offset : BitVec 12) :
    (halfword offset).extractLsb' lo len = offset.extractLsb' lo len := by
  have hlow : (halfword offset).setWidth 12 = offset := by
    rw [halfword, BitVec.setWidth_setWidth (by decide), Bits.setWidth_signExtend (by decide),
      BitVec.signExtend_eq]
  rw [← BitVec.extractLsb'_setWidth_of_le (b := halfword offset) h, hlow]

theorem storeWord_eq {m : BitVec 32} (h : m = fixed funct3 opcode) (src base : BitVec 5)
    (offset : BitVec 12) :
    storeWord (unsigned src) (unsigned base) (halfword offset) m =
      Insn.sType offset src base funct3 opcode := by
  rw [h, storeWord, bits_eq (by decide), bits_eq (by decide), extractLsb'_halfword (by decide),
    extractLsb'_halfword (by decide)]
  exact or_rType

/-- An operand that fits is taken whole. -/
theorem bits_unsigned {hi : Nat} (h : hi + 1 < 32) (v : BitVec (hi + 1)) :
    bits (unsigned v) hi 0 = unsigned v := by
  rw [bits_eq h, BitVec.extractLsb'_setWidth_of_le (by omega)]
  exact congrArg _ BitVec.extractLsb'_eq_self

theorem bits_halfword (imm : BitVec 12) : bits (halfword imm) 11 0 = unsigned imm := by
  rw [bits_eq (by decide), extractLsb'_halfword (by decide)]
  exact congrArg _ BitVec.extractLsb'_eq_self

theorem loadWord_eq {m : BitVec 32} (h : m = fixed funct3 opcode) (rd base : BitVec 5)
    (offset : BitVec 12) :
    loadWord (unsigned rd) (unsigned base) (halfword offset) m =
      Insn.iType offset base funct3 rd opcode := by
  rw [h, loadWord, bits_halfword, bits_unsigned (by decide)]
  exact or_iType

theorem immWord_eq {m : BitVec 32} (h : m = fixed funct3 opcode) (dest src : BitVec 5)
    (imm : BitVec 12) :
    immWord (unsigned dest) (unsigned src) (halfword imm) m =
      Insn.iType imm src funct3 dest opcode := by
  rw [h, immWord, bits_halfword]
  exact or_iType

theorem csrrs_eq (rd rs1 : BitVec 5) (csr : BitVec 12) :
    csrrs (unsigned rd) (unsigned rs1) (unsigned csr) = Insn.iType csr rs1 2#3 rd 0x73#7 := by
  have hfixed : 0x2073#32 = fixed 2#3 0x73#7 := by decide
  rw [csrrs, hfixed, or_iType]

theorem csrr_eq (rd : BitVec 5) (csr : BitVec 12) :
    csrr (unsigned rd) (unsigned csr) = Insn.iType csr 0#5 2#3 rd 0x73#7 := by
  have hzero : unsigned 0#5 <<< 15 = 0#32 := by decide
  rw [← csrrs_eq, csrrs, csrr, hzero, BitVec.or_zero]

theorem csrw_eq (source : BitVec 5) (csr : BitVec 12) :
    csrw (unsigned source) (unsigned csr) = Insn.iType csr source 1#3 0#5 0x73#7 := by
  have hzero : unsigned 0#5 <<< 7 = 0#32 := by decide
  have hfixed : 0x1073#32 = fixed 1#3 0x73#7 := by decide
  rw [← or_iType, csrw, hfixed, hzero, BitVec.or_zero]

theorem csrsi_eq (csr : BitVec 12) (imm : BitVec 5) :
    csrsi (unsigned csr) (unsigned imm) = Insn.iType csr imm 6#3 0#5 0x73#7 := by
  have hzero : unsigned 0#5 <<< 7 = 0#32 := by decide
  have hfixed : 0x6073#32 = fixed 6#3 0x73#7 := by decide
  rw [← or_iType, csrsi, bits_unsigned (by decide), hfixed, hzero, BitVec.or_zero]

theorem lui_eq (dest : BitVec 5) (imm : BitVec 20) :
    lui (unsigned dest) (unsigned imm) = Insn.uType imm dest 0x37#7 := by
  have hfixed : 0x37#32 = unsigned 0x37#7 := by decide
  rw [lui, bits_unsigned (by decide), hfixed, or_uType]

/-- Five bits of the shift amount. -/
theorem srli_eq (dest src : BitVec 5) (shamt : BitVec 6) :
    srli (unsigned dest) (unsigned src) (unsigned shamt) =
      Insn.iType (0#6 ++ (shamt.extractLsb' 0 5).setWidth 6) src 5#3 dest 0x13#7 := by
  have hfixed : 0x5013#32 = fixed 5#3 0x13#7 := by decide
  -- the sixth bit of the shift amount is lost here
  have hshamt : unsigned (0#6 ++ (shamt.extractLsb' 0 5).setWidth 6) = unsigned
      (shamt.extractLsb' 0 5) := by
    apply BitVec.eq_of_toNat_eq
    rw [BitVec.toNat_setWidth, BitVec.toNat_setWidth, Bits.toNat_append_eq,
      BitVec.toNat_setWidth_of_le (by decide),
      BitVec.toNat_ofNat, Nat.zero_mod, Nat.zero_mul, Nat.zero_add]
  rw [← or_iType, srli, bits_eq (by decide), BitVec.extractLsb'_setWidth_of_le (by decide),
    hfixed, hshamt]

/-- The bits of twice an immediate. -/
theorem extractLsb'_double {lo len : Nat} (h : lo + len ≤ 20) (imm : BitVec 20) :
    (imm.signExtend 32 <<< 1).extractLsb' (lo + 1) len = imm.extractLsb' lo len := by
  apply BitVec.eq_of_getLsbD_eq
  intro i hi
  have hin : lo + 1 + i < 32 := by omega
  have hsub : lo + 1 + i - 1 = lo + i := by omega
  have himm : lo + i < 20 := by omega
  rw [BitVec.getLsbD_extractLsb', BitVec.getLsbD_extractLsb', BitVec.getLsbD_shiftLeft,
    hsub, BitVec.getLsbD_signExtend,
    if_pos himm]
  have hout : lo + i < 32 := by omega
  simp [hi, hin, hout]

theorem jal_eq (rd : BitVec 5) (imm : BitVec 20) :
    jal (unsigned rd) (imm.signExtend 32 <<< 1) = Insn.jType imm rd 0x6f#7 := by
  have hfixed : 0x6f#32 = unsigned 0x6f#7 := by decide
  rw [jal, bits_eq (by decide), bits_eq (by decide), bit_eq, bit_eq, extractLsb'_double (by decide),
    extractLsb'_double (by decide), extractLsb'_double (by decide), extractLsb'_double (by decide),
    hfixed, Insn.jType,
    ← or_uType, Bits.or_shifted_setWidth (by decide : 31 = 21 + 10),
    Bits.or_shifted_setWidth (by decide : 21 = 20 + 1),
    Bits.or_shifted_setWidth (by decide : 20 = 12 + 8)]

end Opcodes

namespace Insn

/-! ### Decoders -/

variable {imm : BitVec 12} {rs1' rd' : BitVec 5} {funct3 : BitVec 3} {opcode : BitVec 7}

theorem csr_iType : csr ((iType imm rs1' funct3 rd' opcode).setWidth 64) = imm.setWidth 64 := by
  rw [csr, x_setWidth (by decide) (by decide), iType]
  simp (disch := decide) only
    [BitVec.extractLsb'_append_eq_of_le, Nat.reduceSub, BitVec.extractLsb'_eq_self]

theorem shamtField_iType :
    shamtField ((iType imm rs1' funct3 rd' opcode).setWidth 64) =
      (imm.extractLsb' 0 6).setWidth 64 := by
  rw [shamtField, x_setWidth (by decide) (by decide), iType]
  simp (disch := decide) only [BitVec.extractLsb'_append_eq_of_le, Nat.reduceSub]

/-! ### Other bits -/

/-- Nothing is set above the word. -/
theorem setWidth_and_eq_zero {word : BitVec 32} {mask : Reg}
    (h : word &&& mask.setWidth 32 = 0#32) :
    word.setWidth 64 &&& mask = 0#64 := by
  apply BitVec.eq_of_getLsbD_eq
  intro i hi
  have hbit := congrArg (fun v => v.getLsbD i) h
  simp only [BitVec.getLsbD_and, BitVec.getLsbD_setWidth, BitVec.getLsbD_zero] at hbit ⊢
  by_cases hlt : i < 32
  · simpa [hlt, hi] using hbit
  · simp [BitVec.getLsbD_of_ge word i (Nat.le_of_not_lt hlt)]

/-- Everything below belongs to the match or to an operand. -/
theorem noOther_of_full {word : BitVec 32} {mask fields : Reg}
    (h : (mask ||| fields).setWidth 32 = BitVec.allOnes 32) :
    word.setWidth 64 &&& ~~~(mask ||| fields) = 0#64 := by
  apply setWidth_and_eq_zero
  rw [BitVec.setWidth_not (by decide), h, BitVec.not_allOnes, BitVec.and_zero]

/-- The destination of a word without one. -/
theorem noOther_of_rd :
    (iType imm rs1' funct3 0#5 opcode).setWidth 64 &&& ~~~(0x707f#64 ||| 0xffff8000#64) = 0#64 := by
  -- what belongs neither to the match nor to an operand is the field of the destination
  have hmask : (~~~(0x707f#64 ||| 0xffff8000#64) : Reg).setWidth 32 =
      (0#12 ++ 0#5 ++ 0#3 ++ BitVec.allOnes 5 ++ 0#7 : BitVec 32) := by decide
  have hzero : (0#12 ++ 0#5 ++ 0#3 ++ 0#5 ++ 0#7 : BitVec 32) = 0#32 := by decide
  have hand : (imm ++ rs1' ++ funct3 ++ 0#5 ++ opcode) &&&
    (0#12 ++ 0#5 ++ 0#3 ++ BitVec.allOnes 5 ++ 0#7) =
      0#12 ++ 0#5 ++ 0#3 ++ 0#5 ++ 0#7 := by
    simp only [BitVec.and_append, BitVec.and_zero, BitVec.zero_and]
  exact setWidth_and_eq_zero ((congrArg _ hmask).trans (hand.trans hzero))

/-- The source of a word without one. -/
theorem noOther_of_rs1 :
    (iType imm 0#5 funct3 rd' opcode).setWidth 64 &&& ~~~(0x707f#64 ||| 0xfff00f80#64) = 0#64 := by
  -- here it is the field of the source
  have hmask : (~~~(0x707f#64 ||| 0xfff00f80#64) : Reg).setWidth 32 =
      (0#12 ++ BitVec.allOnes 5 ++ 0#3 ++ 0#5 ++ 0#7 : BitVec 32) := by decide
  have hzero : (0#12 ++ 0#5 ++ 0#3 ++ 0#5 ++ 0#7 : BitVec 32) = 0#32 := by decide
  have hand : (imm ++ 0#5 ++ funct3 ++ rd' ++ opcode) &&&
    (0#12 ++ BitVec.allOnes 5 ++ 0#3 ++ 0#5 ++ 0#7) =
      0#12 ++ 0#5 ++ 0#3 ++ 0#5 ++ 0#7 := by
    simp only [BitVec.and_append, BitVec.and_zero, BitVec.zero_and]
  exact setWidth_and_eq_zero ((congrArg _ hmask).trans (hand.trans hzero))

end Insn

namespace EncoderCall

open Insn

/-! ### Round trips -/

variable {c : EncoderCall} {imm : BitVec 12} {rs2' rs1' rd' : BitVec 5}
  {funct3 : BitVec 3} {opcode : BitVec 7}

/-- A load, and an operation on a register and an immediate. -/
theorem roundTrip_load (hword : c.word = iType imm rs1' funct3 rd' opcode)
    (hdecodes : ∀ b, c.Decodes b =
      (rd b = rd'.setWidth 64 ∧ rs1 b = rs1'.setWidth 64 ∧ iImm b = imm.signExtend 64))
    (hmask : c.encoding.mask = 0x707f#64) (hfields : c.fields = 0xffff8f80#64)
    (hmatch : c.encoding.matchBits = (0#12 ++ 0#5 ++ funct3 ++ 0#5 ++ opcode : BitVec 32).setWidth
      64) : RoundTrip c := by
  refine ⟨?_, ?_, ?_⟩
  · rw [hdecodes, hword]
    exact ⟨rd_iType, rs1_iType, iImm_iType⟩
  · rw [hword]
    exact hits_iType hmask hmatch
  · rw [hmask, hfields]
    exact noOther_of_full (by decide)

/-- A store. -/
theorem roundTrip_store (hword : c.word = sType imm rs2' rs1' funct3 opcode)
    (hdecodes : ∀ b, c.Decodes b =
      (rs2 b = rs2'.setWidth 64 ∧ rs1 b = rs1'.setWidth 64 ∧ sImm b = imm.signExtend 64))
    (hmask : c.encoding.mask = 0x707f#64) (hfields : c.fields = 0xffff8f80#64)
    (hmatch : c.encoding.matchBits =
      (0#7 ++ 0#5 ++ 0#5 ++ funct3 ++ 0#5 ++ opcode : BitVec 32).setWidth 64) :
    RoundTrip c := by
  refine ⟨?_, ?_, ?_⟩
  · rw [hdecodes, hword]
    exact ⟨rs2_sType, rs1_sType, sImm_sType⟩
  · rw [hword]
    exact hits_sType hmask hmatch
  · rw [hmask, hfields]
    exact noOther_of_full (by decide)

/-- A shift amount of six bits fits five. -/
theorem setWidth_extractLsb'_eq_iff (shamt : BitVec 6) :
    (shamt.extractLsb' 0 5).setWidth 64 = shamt.setWidth 64 ↔ shamt.toNat < 32 := by
  rw [← BitVec.toNat_inj, BitVec.toNat_setWidth_of_le (by decide),
    BitVec.toNat_setWidth_of_le (by decide),
    BitVec.extractLsb'_toNat, Nat.shiftRight_zero]
  omega

/-- **A shift amount is found again** when it has five bits. -/
theorem roundTrip_srli_iff (dest src : BitVec 5) (shamt : BitVec 6) :
    RoundTrip (srli dest src shamt) ↔ shamt.toNat < 32 := by
  have hword : (srli dest src shamt).word = iType
    (0#6 ++ (shamt.extractLsb' 0 5).setWidth 6) src 5#3 dest 0x13#7 :=
    srli_eq dest src shamt
  have hfound : shamtField ((srli dest src shamt).word.setWidth 64) =
      (shamt.extractLsb' 0 5).setWidth 64 := by
    rw [hword, shamtField_iType, BitVec.extractLsb'_append_eq_of_add_le (by decide),
      BitVec.extractLsb'_eq_self,
      BitVec.setWidth_setWidth (by decide)]
  rw [← setWidth_extractLsb'_eq_iff, ← hfound]
  refine ⟨fun h => h.decodes.2.2, fun h => ⟨⟨?_, ?_, h⟩, ?_, ?_⟩⟩
  · rw [hword, rd_iType]
  · rw [hword, rs1_iType]
  · rw [hword]
    exact hits_shift rfl rfl
  · exact noOther_of_full
      (by decide : (0xfc00707f#64 ||| 0x3ff8f80#64 : Reg).setWidth 32 = BitVec.allOnes 32)

/-- Does the encoder keep the whole operand? -/
def Kept : EncoderCall → Prop
  | srli _ _ shamt => shamt.toNat < 32
  | _ => True

/-- **The round trip**, for every call but that of `srli` with a shift amount from 32 on: the
decoders find the registers and the immediate that the encoder was given, the word is one of the
instruction the encoder is named after, and no other bit of it is set. -/
theorem roundTrip_iff (c : EncoderCall) : RoundTrip c ↔ c.Kept := by
  cases c with
  -- every encoder but the last keeps what it is given
  | jal rd' imm =>
    have hword : (jal rd' imm).word = jType imm rd' 0x6f#7 := jal_eq rd' imm
    refine iff_of_true ⟨?_, ?_, ?_⟩ trivial
    · rw [hword]
      exact ⟨rd_jType, ujImm_jType⟩
    · rw [hword]
      exact hits_jType rfl rfl
    · exact noOther_of_full
        (by decide : (0x7f#64 ||| 0xffffff80#64 : Reg).setWidth 32 = BitVec.allOnes 32)
  | lw rd' base offset =>
    have hfixed : 0x2003#32 = fixed 2#3 0x03#7 := by decide
    exact iff_of_true
      (roundTrip_load (loadWord_eq hfixed rd' base offset) (fun _ => rfl) rfl rfl rfl) trivial
  | ld rd' base offset =>
    have hfixed : 0x3003#32 = fixed 3#3 0x03#7 := by decide
    exact iff_of_true
      (roundTrip_load (loadWord_eq hfixed rd' base offset) (fun _ => rfl) rfl rfl rfl) trivial
  | flw rd' base offset =>
    have hfixed : 0x2007#32 = fixed 2#3 0x07#7 := by decide
    exact iff_of_true
      (roundTrip_load (loadWord_eq hfixed rd' base offset) (fun _ => rfl) rfl rfl rfl) trivial
  | fld rd' base offset =>
    have hfixed : 0x3007#32 = fixed 3#3 0x07#7 := by decide
    exact iff_of_true
      (roundTrip_load (loadWord_eq hfixed rd' base offset) (fun _ => rfl) rfl rfl rfl) trivial
  | sw src base offset =>
    have hfixed : 0x2023#32 = fixed 2#3 0x23#7 := by decide
    exact iff_of_true
      (roundTrip_store (storeWord_eq hfixed src base offset) (fun _ => rfl) rfl rfl rfl) trivial
  | sd src base offset =>
    have hfixed : 0x3023#32 = fixed 3#3 0x23#7 := by decide
    exact iff_of_true
      (roundTrip_store (storeWord_eq hfixed src base offset) (fun _ => rfl) rfl rfl rfl) trivial
  | fsw src base offset =>
    have hfixed : 0x2027#32 = fixed 2#3 0x27#7 := by decide
    have hword : (fsw src base offset).word = sType offset src base 2#3 0x27#7 := by
      rw [word, Opcodes.fsw, bits_unsigned (by decide), storeWord_eq hfixed]
    exact iff_of_true (roundTrip_store hword (fun _ => rfl) rfl rfl rfl) trivial
  | fsd src base offset =>
    have hfixed : 0x3027#32 = fixed 3#3 0x27#7 := by decide
    have hword : (fsd src base offset).word = sType offset src base 3#3 0x27#7 := by
      rw [word, Opcodes.fsd, bits_unsigned (by decide), storeWord_eq hfixed]
    exact iff_of_true (roundTrip_store hword (fun _ => rfl) rfl rfl rfl) trivial
  | addi dest src imm =>
    have hfixed : 0x13#32 = fixed 0#3 0x13#7 := by decide
    exact iff_of_true (roundTrip_load (immWord_eq hfixed dest src imm) (fun _ => rfl) rfl rfl rfl)
      trivial
  | xori dest src imm =>
    have hfixed : 0x4013#32 = fixed 4#3 0x13#7 := by decide
    exact iff_of_true (roundTrip_load (immWord_eq hfixed dest src imm) (fun _ => rfl) rfl rfl rfl)
      trivial
  | lui dest imm =>
    have hword : (lui dest imm).word = uType imm dest 0x37#7 := lui_eq dest imm
    refine iff_of_true ⟨?_, ?_, ?_⟩ trivial
    · rw [hword]
      exact ⟨rd_uType, uImm_uType⟩
    · rw [hword]
      exact hits_uType rfl rfl
    · exact noOther_of_full
        (by decide : (0x7f#64 ||| 0xffffff80#64 : Reg).setWidth 32 = BitVec.allOnes 32)
  | csrw source csr' =>
    have hword : (csrw source csr').word = iType csr' source 1#3 0#5 0x73#7 := csrw_eq source csr'
    refine iff_of_true ⟨?_, ?_, ?_⟩ trivial
    · rw [hword]
      exact ⟨rs1_iType, csr_iType⟩
    · rw [hword]
      exact hits_iType rfl rfl
    · rw [hword]
      exact noOther_of_rd
  | csrr rd' csr' =>
    have hword : (csrr rd' csr').word = iType csr' 0#5 2#3 rd' 0x73#7 := csrr_eq rd' csr'
    refine iff_of_true ⟨?_, ?_, ?_⟩ trivial
    · rw [hword]
      exact ⟨rd_iType, csr_iType⟩
    · rw [hword]
      exact hits_iType rfl rfl
    · rw [hword]
      exact noOther_of_rs1
  | csrrs rd' rs1' csr' =>
    have hword : (csrrs rd' rs1' csr').word = iType csr' rs1' 2#3 rd' 0x73#7 :=
      csrrs_eq rd' rs1' csr'
    refine iff_of_true ⟨?_, ?_, ?_⟩ trivial
    · rw [hword]
      exact ⟨rd_iType, rs1_iType, csr_iType⟩
    · rw [hword]
      exact hits_iType rfl rfl
    · exact noOther_of_full
        (by decide : (0x707f#64 ||| 0xffff8f80#64 : Reg).setWidth 32 = BitVec.allOnes 32)
  | csrsi csr' imm =>
    have hword : (csrsi csr' imm).word = iType csr' imm 6#3 0#5 0x73#7 := csrsi_eq csr' imm
    refine iff_of_true ⟨?_, ?_, ?_⟩ trivial
    · rw [hword]
      exact ⟨rs1_iType, csr_iType⟩
    · rw [hword]
      exact hits_iType rfl rfl
    · rw [hword]
      exact noOther_of_rd
  | srli dest src shamt => exact roundTrip_srli_iff dest src shamt

/-- A shift by 32 becomes a shift by nothing, with which it shares its word. -/
theorem srli_shamt_lost :
    (srli 8#5 8#5 32#6).word = (srli 8#5 8#5 0#6).word ∧
      shamtField ((srli 8#5 8#5 32#6).word.setWidth 64) = 0#64 ∧
      ¬RoundTrip (srli 8#5 8#5 32#6) := by
  refine ⟨by decide, by decide, fun h => ?_⟩
  exact absurd ((roundTrip_srli_iff 8#5 8#5 32#6).1 h) (by decide)

end EncoderCall

end Nnemu

import Nnemu.Insn.Expansion

/-!
# Compressed instructions refine base instructions

The tables of the manual, row by row: what a 16-bit word is decoded to does what the word stands
for.

A row of a table is met when the file of the entry that decodes the word behaves as the expansion
does (`Expansion.Meets`). Each quadrant is gone through as the tables are laid out, and a word that
no row lists has to be refused. Reserved words are rows of their own, under conditions on registers,
immediates and the width.
-/

namespace Nnemu

variable {ω ι : Type} {cfg : Config} {mmu : Mmu ω ι} {variant : Variant} {w : BitVec 16} {pc : Reg}

/-- The frame of a 16-bit word: the next instruction is two bytes on. -/
def Rvc.frame (cfg : Config) (variant : Variant) (w : BitVec 16) (pc : Reg) : Frame where
  cfg := cfg
  rve := variant.rve
  insn := w.setWidth 64
  pc := pc
  npc := Hart.sextXlen cfg (pc + 2#64)
  bits := w.setWidth 64

/-- Does a program do what an expansion says, in the frame `f` of the word? On RV32 the registers
hold 32 bits. -/
def Expansion.Meets (mmu : Mmu ω ι) (f : Frame) (body : InsnM 64 ω ι Reg) : Expansion → Prop
  | .base op word =>
    firstMatch (opcodeMap f.cfg.isa) (word.setWidth 64) = some op.desc ∧
      ∀ c : Cpu (Machine f.cfg.isa.xlen.bits ω) ι,
        body c.widen =
          if c.hart.extensionEnabled .zca then op.file mmu (f.on word) c.widen
          else .error f.illegalTrap c.widen
  | .reserved => ∀ c : Cpu (Machine f.cfg.isa.xlen.bits ω) ι,
    body c.widen = .error f.illegalTrap c.widen
  | .other => True

namespace Expansion

variable {f : Frame} {body body' : InsnM 64 ω ι Reg} {op : Opcode} {word : BitVec 32}
  {e : Expansion}

/-! ### Rows -/

theorem meets_base (hs : op.supported f.cfg.isa = true) (hn : op.encoding.matchBits ∉ Opcode.shared)
    (hhit : op.encoding.hits (word.setWidth 64) = true)
    (hbody : ∀ c : Cpu (Machine f.cfg.isa.xlen.bits ω) ι,
      body c.widen = f.withZca (op.file mmu (f.on word)) c.widen) :
    (base op word).Meets mmu f body :=
  ⟨firstMatch_single hs hn hhit, fun c => (hbody c).trans (f.withZca_apply _ _)⟩

theorem meets_reserved (hbody : body = f.withZca (throw f.illegalTrap)) :
    reserved.Meets mmu f body := by
  intro c
  rw [hbody, Frame.withZca_apply]
  exact ite_self _

/-- One value is reserved, and refused. -/
theorem meets_reservedIf {b : Bool} (hs : op.supported f.cfg.isa = true)
    (hn : op.encoding.matchBits ∉ Opcode.shared)
    (hhit : op.encoding.hits (word.setWidth 64) = true)
    (hbody : body = f.withZca (f.requiring (!b) (op.file mmu (f.on word)))) :
    (Rvc.reservedIf b (base op word)).Meets mmu f body := by
  cases b with
  | false => exact meets_base hs hn hhit fun _ => congrFun hbody _
  | true => exact meets_reserved hbody

/-- A value that another row has is not refused. -/
theorem meets_requiring {b : Bool} (hs : op.supported f.cfg.isa = true)
    (hn : op.encoding.matchBits ∉ Opcode.shared)
    (hhit : op.encoding.hits (word.setWidth 64) = true)
    (hbody : body = f.withZca (f.requiring b (op.file mmu (f.on word)))) (hb : b = true) :
    (base op word).Meets mmu f body := by
  rw [hb] at hbody
  exact meets_base hs hn hhit fun _ => congrFun hbody _

/-- On RV32 the place of an instruction of RV64 is free. -/
theorem meets_onRv64 {xlen : Xlen} (h : xlen = .rv64 → e.Meets mmu f body) :
    (Rvc.onRv64 xlen e).Meets mmu f body := by
  cases xlen with
  | rv32 => exact trivial
  | rv64 => exact h rfl

end Expansion

namespace Rvc

/-- A 16-bit word is decoded to something that does what an expansion says. -/
def Decodes (mmu : Mmu ω ι) (cfg : Config) (variant : Variant) (w : BitVec 16)
    (pc : Reg) (e : Expansion) : Prop :=
  ∃ desc, firstMatch (opcodeMap cfg.isa) (w.setWidth 64) = some desc ∧
    e.Meets mmu (frame cfg variant w pc) ((desc.handler variant).execute cfg mmu (w.setWidth 64) pc)

variable {op : Opcode} {mask value : BitVec 16} {e : Expansion}

theorem decodes_of_hits (op : Opcode) (hs : op.supported cfg.isa = true)
    (hlen : Insn.length op.encoding.matchBits = 2#64)
    (hhit : op.encoding.hits (w.setWidth 64) = true)
    (hmost : ∀ op' : Opcode, op'.encoding.matchBits = op.encoding.matchBits →
      op'.encoding.hits (w.setWidth 64) = true → op'.encoding.mask ≤ op.encoding.mask)
    (h : e.Meets mmu (frame cfg variant w pc) (op.file mmu (frame cfg variant w pc))) :
    Decodes mmu cfg variant w pc e := by
  refine ⟨op.desc, firstMatch_of_hits hs hhit hmost, ?_⟩
  have hframe : op.frame cfg variant (w.setWidth 64) pc = frame cfg variant w pc := by
    rw [Opcode.frame, hlen]
    rfl
  change e.Meets mmu _ (op.file mmu (op.frame cfg variant (w.setWidth 64) pc))
  rw [hframe]
  exact h

/-- Is an instruction the only one for the words that fit a pattern? -/
def Sole (op : Opcode) (mask value : BitVec 16) : Bool :=
  !Opcode.shared.contains op.encoding.matchBits && Insn.length op.encoding.matchBits == 2#64 &&
    mask.setWidth 64 &&& op.encoding.mask == op.encoding.mask &&
    value.setWidth 64 &&& op.encoding.mask == op.encoding.matchBits

theorem decodes_of_fits (op : Opcode) (hs : op.supported cfg.isa = true) (hfit : w &&& mask = value)
    (hsole : Sole op mask value = true)
    (h : e.Meets mmu (frame cfg variant w pc) (op.file mmu (frame cfg variant w pc))) :
    Decodes mmu cfg variant w pc e := by
  rw [Sole, Bool.and_eq_true, Bool.and_eq_true, Bool.and_eq_true, beq_iff_eq,
    beq_iff_eq, beq_iff_eq] at hsole
  obtain ⟨⟨⟨hshared, hlen⟩, hsub⟩, hval⟩ := hsole
  have hn : op.encoding.matchBits ∉ Opcode.shared := by simpa using hshared
  refine decodes_of_hits op hs hlen (hits_of_fits hfit hsub hval) (fun op' hmatch _ => ?_) h
  cases Opcode.of_matchBits_eq hmatch hn
  exact BitVec.le_refl _

/-- Where no instruction fits, the word is refused. -/
theorem decodes_of_foreign (hfit : w &&& mask = value) (hf : Foreign mask value = true) :
    Decodes mmu cfg variant w pc .reserved := by
  refine ⟨.illegal, firstMatch_foreign hfit hf, fun c => ?_⟩
  have hbits : w.setWidth 64 &&& 0xffffffff#64 = w.setWidth 64 := by
    have hmask : (0xffffffff#64 : Reg) = Bits.lowMask 64 32 := by decide
    rw [hmask]
    apply BitVec.eq_of_getLsbD_eq
    intro i hi
    rw [BitVec.getLsbD_and, Bits.getLsbD_lowMask, BitVec.getLsbD_setWidth]
    by_cases hlow : i < 32
    · simp [hi, hlow]
    · simp [BitVec.getLsbD_of_ge w i (by omega)]
  change illegalInstruction _ _ = _
  rw [illegalInstruction, hbits]
  rfl

/-- The catch-all hits every word. -/
theorem decodes_other : Decodes mmu cfg variant w pc .other := by
  obtain ⟨-, first, -, -, -, hfirst⟩ := (listing_opcodeMap cfg.isa).search (w.setWidth 64)
  exact ⟨first, hfirst, trivial⟩

/-! ### Quadrant 0 -/

theorem decodes_quadrant0 (hq : w.extractLsb' 0 2 = 0b00#2) :
    Decodes mmu cfg variant w pc (quadrant0 w cfg.isa.xlen) := by
  have hinsn : (frame cfg variant w pc).insn = w.setWidth 64 := rfl
  rw [quadrant0]
  split
  case h_1 hf =>
    refine decodes_of_fits .cAddi4spn rfl (fits_row hq hf) rfl ?_
    exact Expansion.meets_reservedIf rfl (by decide) (Insn.hits_iType rfl rfl)
      (Frame.cAddi4spn_eq hinsn rfl)
  case h_2 hf =>
    refine decodes_of_fits .cLw rfl (fits_row hq hf) rfl ?_
    exact Expansion.meets_base rfl (by decide) (Insn.hits_iType rfl rfl) fun _ =>
      congrFun (Frame.cLw_eq hinsn mmu rfl) _
  case h_3 hf =>
    refine decodes_of_fits .cFlw rfl (fits_row hq hf) rfl (Expansion.meets_onRv64 fun hxlen => ?_)
    exact Expansion.meets_base rfl (by decide) (Insn.hits_iType rfl rfl) fun _ =>
      congrFun (Frame.cFlw_eq hinsn hxlen mmu rfl) _
  case h_4 hf => exact decodes_of_foreign (fits_row hq hf) (by decide +kernel)
  case h_5 hf =>
    refine decodes_of_fits .cSw rfl (fits_row hq hf) rfl ?_
    exact Expansion.meets_base rfl (by decide) (Insn.hits_sType rfl rfl) fun _ =>
      congrFun (Frame.cSw_eq hinsn mmu rfl) _
  case h_6 hf =>
    refine decodes_of_fits .cFsw rfl (fits_row hq hf) rfl (Expansion.meets_onRv64 fun hxlen => ?_)
    exact Expansion.meets_base rfl (by decide) (Insn.hits_sType rfl rfl) fun _ =>
      congrFun (Frame.cFsw_eq hinsn hxlen mmu rfl) _
  case h_7 => exact decodes_other

/-! ### Quadrant 1 -/

theorem bit_cases (b : BitVec 1) : b = 0b0#1 ∨ b = 0b1#1 := by
  revert b
  decide

/-- The last value of a field of two bits. -/
theorem last_of_two {g : BitVec 2} (h₁ : g = 0b00#2 → False) (h₂ : g = 0b01#2 → False)
    (h₃ : g = 0b10#2 → False) :
    g = 0b11#2 := by
  have hall : ∀ g : BitVec 2, (g = 0b00#2 → False) → (g = 0b01#2 → False) →
      (g = 0b10#2 → False) → g = 0b11#2 := by
    decide
  exact hall g h₁ h₂ h₃

/-- The last value of a field of three bits. -/
theorem last_of_three {g : BitVec 3} (h₁ : g = 0b000#3 → False) (h₂ : g = 0b001#3 → False)
    (h₃ : g = 0b010#3 → False) (h₄ : g = 0b011#3 → False) (h₅ : g = 0b100#3 → False)
    (h₆ : g = 0b101#3 → False)
    (h₇ : g = 0b110#3 → False) : g = 0b111#3 := by
  have hlast : ∀ g : BitVec 3,
      g ∈ [0b000#3, 0b001#3, 0b010#3, 0b011#3, 0b100#3, 0b101#3, 0b110#3] ∨ g = 0b111#3 := by
    decide
  refine (hlast g).resolve_left fun hmem => ?_
  simp only [List.mem_cons, List.not_mem_nil, or_false] at hmem
  tauto

/-- The bits that MISC-ALU leaves free. -/
theorem free_registers {b : BitVec 1} {h : BitVec 2} (h₁ : b = 0b0#1 → h = 0b00#2 → False)
    (h₂ : b = 0b0#1 → h = 0b01#2 → False) (h₃ : b = 0b0#1 → h = 0b10#2 → False)
    (h₄ : b = 0b0#1 → h = 0b11#2 → False) (h₅ : b = 0b1#1 → h = 0b00#2 → False)
    (h₆ : b = 0b1#1 → h = 0b01#2 → False) : b = 0b1#1 ∧ (h = 0b10#2 ∨ h = 0b11#2) := by
  obtain rfl | rfl := bit_cases b
  · exact absurd (last_of_two (h₁ rfl) (h₂ rfl) (h₃ rfl)) (h₄ rfl)
  · by_cases hh : h = 0b10#2
    · exact ⟨rfl, .inl hh⟩
    · exact ⟨rfl, .inr (last_of_two (h₅ rfl) (h₆ rfl) hh)⟩

theorem decodes_registers (hq : w.extractLsb' 0 2 = 0b01#2) (hf : w.extractLsb' 13 3 = 0b100#3)
    (hg : w.extractLsb' 10 2 = 0b11#2) :
    Decodes mmu cfg variant w pc (registers w cfg.isa.xlen) := by
  have hinsn : (frame cfg variant w pc).insn = w.setWidth 64 := rfl
  rw [registers]
  dsimp only
  split
  case h_1 hb hh =>
    refine decodes_of_fits .cSub rfl (fits_registers hq hf hb hg hh) rfl ?_
    exact Expansion.meets_base rfl (by decide) (Insn.hits_rType rfl rfl) fun _ => congrFun
      (Frame.cSub_eq hinsn) _
  case h_2 hb hh =>
    refine decodes_of_fits .cXor rfl (fits_registers hq hf hb hg hh) rfl ?_
    exact Expansion.meets_base rfl (by decide) (Insn.hits_rType rfl rfl) fun _ => congrFun
      (Frame.cXor_eq hinsn) _
  case h_3 hb hh =>
    refine decodes_of_fits .cOr rfl (fits_registers hq hf hb hg hh) rfl ?_
    exact Expansion.meets_base rfl (by decide) (Insn.hits_rType rfl rfl) fun _ => congrFun
      (Frame.cOr_eq hinsn) _
  case h_4 hb hh =>
    refine decodes_of_fits .cAnd rfl (fits_registers hq hf hb hg hh) rfl ?_
    exact Expansion.meets_base rfl (by decide) (Insn.hits_rType rfl rfl) fun _ => congrFun
      (Frame.cAnd_eq hinsn) _
  case h_5 hb hh =>
    refine decodes_of_fits .cSubw rfl (fits_registers hq hf hb hg hh) rfl ?_
    refine Expansion.meets_reservedIf rfl (by decide) (Insn.hits_rType rfl rfl) ?_
    exact (Frame.cSubw_eq hinsn).trans (congrArg _ (Frame.onRv64_requiring _ _ _))
  case h_6 hb hh =>
    refine decodes_of_fits .cAddw rfl (fits_registers hq hf hb hg hh) rfl ?_
    refine Expansion.meets_reservedIf rfl (by decide) (Insn.hits_rType rfl rfl) ?_
    exact (Frame.cAddw_eq hinsn).trans (congrArg _ (Frame.onRv64_requiring _ _ _))
  case h_7 h₁ h₂ h₃ h₄ h₅ h₆ =>
    obtain ⟨hb, hh | hh⟩ := free_registers h₁ h₂ h₃ h₄ h₅ h₆
    · exact decodes_of_foreign (fits_registers hq hf hb hg hh) (by decide +kernel)
    · exact decodes_of_foreign (fits_registers hq hf hb hg hh) (by decide +kernel)

theorem decodes_miscAlu (hq : w.extractLsb' 0 2 = 0b01#2) (hf : w.extractLsb' 13 3 = 0b100#3) :
    Decodes mmu cfg variant w pc (miscAlu w cfg.isa.xlen) := by
  have hinsn : (frame cfg variant w pc).insn = w.setWidth 64 := rfl
  rw [miscAlu]
  split
  case h_1 hg =>
    refine decodes_of_fits .cSrli rfl (fits_alu hq hf hg) rfl ?_
    refine Expansion.meets_reservedIf rfl (by decide) (Insn.hits_shift rfl rfl) ?_
    exact (Frame.cSrli_eq hinsn).trans (congrArg _ (Frame.withShamt_requiring _))
  case h_2 hg =>
    refine decodes_of_fits .cSrai rfl (fits_alu hq hf hg) rfl ?_
    refine Expansion.meets_reservedIf rfl (by decide) (Insn.hits_shift rfl rfl) ?_
    exact (Frame.cSrai_eq hinsn).trans (congrArg _ (Frame.withShamt_requiring _))
  case h_3 hg =>
    refine decodes_of_fits .cAndi rfl (fits_alu hq hf hg) rfl ?_
    exact Expansion.meets_base rfl (by decide) (Insn.hits_iType rfl rfl) fun _ => congrFun
      (Frame.cAndi_eq hinsn rfl) _
  case h_4 h₁ h₂ h₃ =>
    exact decodes_registers hq hf (last_of_two h₁ h₂ h₃)

theorem decodes_quadrant1 (hq : w.extractLsb' 0 2 = 0b01#2) :
    Decodes mmu cfg variant w pc (quadrant1 w cfg.isa.xlen) := by
  have hinsn : (frame cfg variant w pc).insn = w.setWidth 64 := rfl
  rw [quadrant1.eq_def]
  split
  case h_1 hf =>
    refine decodes_of_fits .cAddi rfl (fits_row hq hf) rfl ?_
    exact Expansion.meets_base rfl (by decide) (Insn.hits_iType rfl rfl) fun _ => congrFun
      (Frame.cAddi_eq hinsn rfl) _
  case h_2 hf =>
    refine decodes_of_fits .cJal rfl (fits_row hq hf) rfl ?_
    cases hxlen : cfg.isa.xlen with
    | rv32 =>
      exact Expansion.meets_base rfl (by decide) (Insn.hits_jType rfl rfl) fun _ =>
        congrFun (Frame.cJal_eq_jal hinsn hxlen rfl) _
    | rv64 =>
      exact Expansion.meets_reservedIf rfl (by decide) (Insn.hits_iType rfl rfl)
        (Frame.cJal_eq_addiw hinsn hxlen rfl)
  case h_3 hf =>
    refine decodes_of_fits .cLi rfl (fits_row hq hf) rfl ?_
    exact Expansion.meets_base rfl (by decide) (Insn.hits_iType rfl rfl) fun _ => congrFun
      (Frame.cLi_eq hinsn rfl) _
  case h_4 hf =>
    refine decodes_of_fits .cLui rfl (fits_row hq hf) rfl ?_
    by_cases hrd : rd w = x2
    · rw [if_pos hrd]
      exact Expansion.meets_reservedIf rfl (by decide) (Insn.hits_iType rfl rfl)
        (Frame.cLui_eq_addi hinsn hrd rfl)
    · rw [if_neg hrd]
      exact Expansion.meets_reservedIf rfl (by decide) (Insn.hits_uType rfl rfl)
        (Frame.cLui_eq_lui hinsn hrd rfl)
  case h_5 hf => exact decodes_miscAlu hq hf
  case h_6 hf =>
    refine decodes_of_fits .cJ rfl (fits_row hq hf) rfl ?_
    exact Expansion.meets_base rfl (by decide) (Insn.hits_jType rfl rfl) fun _ => congrFun
      (Frame.cJ_eq hinsn rfl) _
  case h_7 hf =>
    refine decodes_of_fits .cBeqz rfl (fits_row hq hf) rfl ?_
    exact Expansion.meets_base rfl (by decide) (Insn.hits_bType rfl rfl) fun _ => congrFun
      (Frame.cBeqz_eq hinsn rfl) _
  case h_8 h₁ h₂ h₃ h₄ h₅ h₆ h₇ =>
    refine decodes_of_fits .cBnez rfl (fits_row hq (last_of_three h₁ h₂ h₃ h₄ h₅ h₆ h₇)) rfl ?_
    exact Expansion.meets_base rfl (by decide) (Insn.hits_bType rfl rfl) fun _ => congrFun
      (Frame.cBnez_eq hinsn rfl) _

/-! ### Quadrant 2 -/

/-- Encodings that fix a register. -/
theorem rs2_of_hits {op : Opcode} (hmask : op.encoding.mask.extractLsb' 2 5 = BitVec.allOnes 5)
    (hmatch : op.encoding.matchBits.extractLsb' 2 5 = x0)
    (hhit : op.encoding.hits (w.setWidth 64) = true) :
    rs2 w = x0 :=
  (field_of_hits (by decide) hmask hhit).trans hmatch

theorem rd_of_hits {op : Opcode} (hmask : op.encoding.mask.extractLsb' 7 5 = BitVec.allOnes 5)
    (hmatch : op.encoding.matchBits.extractLsb' 7 5 = x0)
    (hhit : op.encoding.hits (w.setWidth 64) = true) :
    rd w = x0 :=
  (field_of_hits (by decide) hmask hhit).trans hmatch

theorem decodes_jumps (hq : w.extractLsb' 0 2 = 0b10#2) (hf : w.extractLsb' 13 3 = 0b100#3) :
    Decodes mmu cfg variant w pc (jumps w) := by
  have hinsn : (frame cfg variant w pc).insn = w.setWidth 64 := rfl
  rw [jumps]
  split
  case h_1 hb =>
    by_cases hrs2 : rs2 w = x0
    · rw [if_pos hrs2]
      refine decodes_of_hits .cJr rfl rfl ?_ (fun op' hmatch _ => ?_) ?_
      · exact hits_of_fits (fits_jump_rs2 hq hf hb hrs2) rfl rfl
      · obtain rfl | rfl := Opcode.of_8002 hmatch <;> decide
      · exact Expansion.meets_reservedIf rfl (by decide) (Insn.hits_iType rfl rfl)
          (Frame.cJr_eq hinsn)
    · rw [if_neg hrs2]
      refine decodes_of_hits .cMv rfl rfl ?_ (fun op' hmatch hhit => ?_) ?_
      · exact hits_of_fits (fits_jump hq hf hb) rfl rfl
      · obtain rfl | rfl := Opcode.of_8002 hmatch
        · exact absurd (rs2_of_hits rfl rfl hhit) hrs2
        · exact BitVec.le_refl _
      · exact Expansion.meets_base rfl (by decide) (Insn.hits_rType rfl rfl) fun c =>
          Frame.cMv_apply _ hinsn rfl hrs2 c
  case h_2 hb =>
    have hb := (bit_cases _).resolve_left hb
    by_cases hrs2 : rs2 w = x0
    · rw [if_pos hrs2]
      by_cases hrd : rd w = x0
      · rw [if_pos hrd]
        have hw : w = 0x9002#16 := by
          rw [← parts w, hf, hb, hrd, hrs2, hq]
          rfl
        refine decodes_of_hits .cEbreak rfl rfl ?_ (fun op' hmatch _ => ?_) ?_
        · rw [hw]
          rfl
        · obtain rfl | rfl | rfl := Opcode.of_9002 hmatch <;> decide
        · exact Expansion.meets_base rfl (by decide) rfl fun _ => rfl
      · rw [if_neg hrd]
        refine decodes_of_hits .cJalr rfl rfl ?_ (fun op' hmatch hhit => ?_) ?_
        · exact hits_of_fits (fits_jump_rs2 hq hf hb hrs2) rfl rfl
        · obtain rfl | rfl | rfl := Opcode.of_9002 hmatch
          · exact absurd (rd_of_hits rfl rfl hhit) hrd
          · exact BitVec.le_refl _
          · decide
        · exact Expansion.meets_requiring rfl (by decide) (Insn.hits_iType rfl rfl)
            (Frame.cJalr_eq hinsn)
            (bne_iff_ne.2 hrd)
    · rw [if_neg hrs2]
      refine decodes_of_hits .cAdd rfl rfl ?_ (fun op' hmatch hhit => ?_) ?_
      · exact hits_of_fits (fits_jump hq hf hb) rfl rfl
      · obtain rfl | rfl | rfl := Opcode.of_9002 hmatch
        · exact absurd (rs2_of_hits rfl rfl hhit) hrs2
        · exact absurd (rs2_of_hits rfl rfl hhit) hrs2
        · exact BitVec.le_refl _
      · exact Expansion.meets_requiring rfl (by decide) (Insn.hits_rType rfl rfl)
          (Frame.cAdd_eq hinsn)
          (bne_iff_ne.2 hrs2)

theorem decodes_quadrant2 (hq : w.extractLsb' 0 2 = 0b10#2) :
    Decodes mmu cfg variant w pc (quadrant2 w cfg.isa.xlen) := by
  have hinsn : (frame cfg variant w pc).insn = w.setWidth 64 := rfl
  rw [quadrant2]
  split
  case h_1 hf =>
    refine decodes_of_fits .cSlli rfl (fits_row hq hf) rfl ?_
    refine Expansion.meets_reservedIf rfl (by decide) (Insn.hits_shift rfl rfl) ?_
    exact (Frame.cSlli_eq hinsn).trans (congrArg _ (Frame.withShamt_requiring _))
  case h_2 hf =>
    refine decodes_of_fits .cLwsp rfl (fits_row hq hf) rfl ?_
    exact Expansion.meets_reservedIf rfl (by decide) (Insn.hits_iType rfl rfl)
      (Frame.cLwsp_eq hinsn mmu rfl)
  case h_3 hf =>
    refine decodes_of_fits .cFlwsp rfl (fits_row hq hf) rfl (Expansion.meets_onRv64 fun hxlen => ?_)
    exact Expansion.meets_reservedIf rfl (by decide) (Insn.hits_iType rfl rfl)
      (Frame.cFlwsp_eq hinsn hxlen mmu rfl)
  case h_4 hf => exact decodes_jumps hq hf
  case h_5 hf =>
    refine decodes_of_fits .cSwsp rfl (fits_row hq hf) rfl ?_
    exact Expansion.meets_base rfl (by decide) (Insn.hits_sType rfl rfl) fun _ =>
      congrFun (Frame.cSwsp_eq hinsn mmu rfl) _
  case h_6 hf =>
    refine decodes_of_fits .cFswsp rfl (fits_row hq hf) rfl (Expansion.meets_onRv64 fun hxlen => ?_)
    exact Expansion.meets_base rfl (by decide) (Insn.hits_sType rfl rfl) fun _ =>
      congrFun (Frame.cFswsp_eq hinsn hxlen mmu rfl) _
  case h_7 => exact decodes_other

/-- **Compressed instructions.** What a 16-bit word is decoded to does, from every state, what the
base instruction does that the word stands for, with a next instruction two bytes on, or refuses
where the word is reserved. -/
theorem decodes_expand (cfg : Config) (mmu : Mmu ω ι) (variant : Variant)
    (w : BitVec 16) (pc : Reg) :
    ∃ desc, firstMatch (opcodeMap cfg.isa) (w.setWidth 64) = some desc ∧
      (expand w cfg.isa.xlen).Meets mmu (frame cfg variant w pc)
        ((desc.handler variant).execute cfg mmu (w.setWidth 64) pc) := by
  change Decodes mmu cfg variant w pc (expand w cfg.isa.xlen)
  rw [expand]
  split
  case h_1 hq => exact decodes_quadrant0 hq
  case h_2 hq => exact decodes_quadrant1 hq
  case h_3 hq => exact decodes_quadrant2 hq
  case h_4 => exact decodes_other

end Rvc

end Nnemu

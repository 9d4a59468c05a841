import Nnemu.Insn.Decode
import Nnemu.Insn.Rvc

/-!
# Which entry a compressed word hits

The entries of `riscv_insn_list.txt` against the tables of the manual. Five instructions share their
`match` with another one; of the others, each is the first entry that hits the words it hits at all.
-/

namespace Nnemu

variable {isa : Isa} {op : Opcode} {bits : Reg}

/-! ### First entries -/

theorem mem_opcodeMap_desc (hs : op.supported isa = true) : op.desc ∈ opcodeMap isa := by
  refine (perm_opcodeMap isa).symm.subset (List.mem_append_left _ (List.mem_map_of_mem ?_))
  exact List.mem_filter.2 ⟨Opcode.mem_all op, hs⟩

/-- **The most specific entry comes first.** -/
theorem firstMatch_of_hits (hs : op.supported isa = true) (hhit : op.encoding.hits bits = true)
    (hmost : ∀ op' : Opcode, op'.encoding.matchBits = op.encoding.matchBits →
      op'.encoding.hits bits = true →
      op'.encoding.mask ≤ op.encoding.mask) : firstMatch (opcodeMap isa) bits = some op.desc := by
  obtain ⟨pre, first, post, hsplit, -, hfirst⟩ := (listing_opcodeMap isa).search bits
  obtain ⟨hfhit, pre', post', hsplit', hbefore⟩ := List.find?_eq_some_iff_append.1 hfirst
  have hmem := mem_opcodeMap_desc hs
  have hsorted := pairwise_opcodeMap isa
  have hkind : first = .illegal ∨ ∃ op : Opcode, first = op.desc :=
    mem_opcodeMap (List.mem_of_find?_eq_some hfirst)
  rw [hsplit'] at hmem hsorted
  rw [List.mem_append, List.mem_cons] at hmem
  rw [hfirst]
  obtain hmem | heq | hmem := hmem
  · have hno := hbefore _ hmem
    rw [show op.desc.hits bits = true from hhit] at hno
    exact absurd hno (by decide)
  · rw [heq]
  · -- the first entry comes before the one of `op`, so that it is at least as specific
    have hle := (List.pairwise_cons.1 (List.pairwise_append.1 hsorted).2.1).1 _ hmem
    rw [InsnDesc.not_cmp_iff] at hle
    obtain rfl | ⟨op', rfl⟩ := hkind
    · have hmask : op.encoding.mask.toNat ≠ 0 :=
        fun h => Opcode.mask_ne_zero op (BitVec.eq_of_toNat_eq h)
      simp only [InsnDesc.illegal, Opcode.desc, BitVec.lt_def, BitVec.le_def,
        BitVec.toNat_zero] at hle
      omega
    · have hmatch : op'.encoding.matchBits = op.encoding.matchBits := by
        by_contra hne
        have hno := Encoding.apart_hits (Opcode.apart op' op) hne hfhit
        rw [hhit] at hno
        exact absurd hno (by decide)
      have hmask := hmost op' hmatch hfhit
      have hge : op.encoding.mask ≤ op'.encoding.mask := by
        obtain hlt | ⟨-, hge⟩ := hle
        · exact absurd hlt (by rw [Opcode.desc, Opcode.desc, hmatch]; exact BitVec.lt_irrefl _)
        · exact hge
      have henc : op'.encoding = op.encoding := by
        have hmask := BitVec.le_antisymm hmask hge
        cases h : op'.encoding
        cases h' : op.encoding
        rw [h, h'] at hmatch hmask
        cases hmatch
        cases hmask
        rfl
      rw [Opcode.encoding_injective henc]

/-- Where no instruction hits, the catch-all does. -/
theorem firstMatch_illegal (h : ∀ op : Opcode, op.encoding.hits bits = false) :
    firstMatch (opcodeMap isa) bits = some .illegal := by
  obtain ⟨-, first, -, -, -, hfirst⟩ := (listing_opcodeMap isa).search bits
  have hhit : first.hits bits = true :=
    List.find?_some (p := fun d : InsnDesc => d.hits bits) hfirst
  obtain rfl | ⟨op, rfl⟩ := mem_opcodeMap (List.mem_of_find?_eq_some hfirst)
  · exact hfirst
  · rw [show op.desc.hits bits = false from h op] at hhit
    exact absurd hhit (by decide)

namespace Opcode

/-- The instructions at 0x8002, and those at 0x9002. -/
def shared : List Reg := [0x8002#64, 0x9002#64]

theorem of_matchBits_eq {a b : Opcode} (h : a.encoding.matchBits = b.encoding.matchBits)
    (hn : b.encoding.matchBits ∉ shared) : a = b := by
  have hall : (all.all fun a => all.all fun b =>
      a.encoding.matchBits != b.encoding.matchBits ||
        (decide (b.encoding.matchBits ∈ shared) || a == b)) = true := by
    decide +kernel
  have hab := List.all_eq_true.1 (List.all_eq_true.1 hall a (mem_all a)) b (mem_all b)
  rw [Bool.or_eq_true, Bool.or_eq_true, bne_iff_ne, decide_eq_true_iff, beq_iff_eq] at hab
  exact (hab.resolve_left (not_not.2 h)).resolve_left hn

theorem of_8002 {a : Opcode} (h : a.encoding.matchBits = 0x8002#64) : a = .cJr ∨ a = .cMv := by
  revert h
  cases a <;> decide

theorem of_9002 {a : Opcode} (h : a.encoding.matchBits = 0x9002#64) :
    a = .cEbreak ∨ a = .cJalr ∨ a = .cAdd := by
  revert h
  cases a <;> decide

end Opcode

/-- **The only entry.** -/
theorem firstMatch_single (hs : op.supported isa = true)
    (hn : op.encoding.matchBits ∉ Opcode.shared)
    (hhit : op.encoding.hits bits = true) : firstMatch (opcodeMap isa) bits = some op.desc := by
  refine firstMatch_of_hits hs hhit fun op' hmatch _ => ?_
  cases Opcode.of_matchBits_eq hmatch hn
  exact BitVec.le_refl _

/-! ### Patterns -/

namespace Rvc

variable {w mask value : BitVec 16}

/-- A word that fits a pattern has the encodings the pattern implies. -/
theorem hits_of_fits {e : Encoding} (hfit : w &&& mask = value)
    (hsub : mask.setWidth 64 &&& e.mask = e.mask)
    (hval : value.setWidth 64 &&& e.mask = e.matchBits) : e.hits (w.setWidth 64) = true := by
  rw [Encoding.hits, beq_iff_eq, ← hsub, ← BitVec.and_assoc, ← BitVec.setWidth_and, hfit, hval]

/-- It has none that the pattern contradicts. -/
theorem not_hits_of_fits {e : Encoding} (hfit : w &&& mask = value)
    (hne : value.setWidth 64 &&& e.mask ≠ e.matchBits &&& mask.setWidth 64) :
    e.hits (w.setWidth 64) = false := by
  rw [Encoding.hits, beq_eq_false_iff_ne]
  intro heq
  refine hne ?_
  rw [← heq, ← hfit, BitVec.setWidth_and, BitVec.and_assoc, BitVec.and_assoc,
    BitVec.and_comm e.mask]

/-- Does a pattern contradict every encoding? -/
def Foreign (mask value : BitVec 16) : Bool :=
  Opcode.all.all fun op => value.setWidth 64 &&& op.encoding.mask != op.encoding.matchBits &&&
    mask.setWidth 64

theorem firstMatch_foreign (hfit : w &&& mask = value) (hf : Foreign mask value = true) :
    firstMatch (opcodeMap isa) (w.setWidth 64) = some .illegal := by
  refine firstMatch_illegal fun op => not_hits_of_fits hfit ?_
  have hop := List.all_eq_true.1 hf op (Opcode.mem_all op)
  rwa [bne_iff_ne] at hop

/-- A field about which an encoding says everything. -/
theorem field_of_hits {e : Encoding} {lo len : Nat} (hle : lo + len ≤ 64)
    (hmask : e.mask.extractLsb' lo len = BitVec.allOnes len)
    (hhit : e.hits (w.setWidth 64) = true) :
    w.extractLsb' lo len = e.matchBits.extractLsb' lo len := by
  rw [Encoding.hits, beq_iff_eq] at hhit
  rw [← hhit, BitVec.extractLsb'_and, hmask, BitVec.and_allOnes,
    BitVec.extractLsb'_setWidth_of_le hle]

/-! ### Rows of the tables -/

/-- A word of two registers. -/
theorem parts (w : BitVec 16) :
    w.extractLsb' 13 3 ++ w.extractLsb' 12 1 ++ rd w ++ rs2 w ++ w.extractLsb' 0 2 = w := by
  rw [rd, rs2, BitVec.extractLsb'_append_extractLsb'_eq_extractLsb' (by decide),
    BitVec.extractLsb'_append_extractLsb'_eq_extractLsb' (by decide),
    BitVec.extractLsb'_append_extractLsb'_eq_extractLsb' (by decide),
    BitVec.extractLsb'_append_extractLsb'_eq_extractLsb' (by decide), BitVec.extractLsb'_eq_self]

/-- A word of MISC-ALU. -/
theorem aluParts (w : BitVec 16) :
    w.extractLsb' 13 3 ++ w.extractLsb' 12 1 ++ w.extractLsb' 10 2 ++ w.extractLsb' 7 3 ++
    w.extractLsb' 5 2 ++
      w.extractLsb' 2 3 ++ w.extractLsb' 0 2 = w := by
  rw [BitVec.extractLsb'_append_extractLsb'_eq_extractLsb' (by decide),
    BitVec.extractLsb'_append_extractLsb'_eq_extractLsb' (by decide),
    BitVec.extractLsb'_append_extractLsb'_eq_extractLsb' (by decide),
    BitVec.extractLsb'_append_extractLsb'_eq_extractLsb' (by decide),
    BitVec.extractLsb'_append_extractLsb'_eq_extractLsb' (by decide),
    BitVec.extractLsb'_append_extractLsb'_eq_extractLsb' (by decide), BitVec.extractLsb'_eq_self]

variable {q g h : BitVec 2} {f : BitVec 3} {b : BitVec 1}

/-- Quadrant and `funct3`. -/
theorem fits_row (hq : w.extractLsb' 0 2 = q) (hf : w.extractLsb' 13 3 = f) :
    w &&& 0xe003#16 = (f ++ 0#1 ++ 0#5 ++ 0#5 ++ q : BitVec 16) := by
  have hmask : 0xe003#16 = BitVec.allOnes 3 ++ 0#1 ++ 0#5 ++ 0#5 ++ BitVec.allOnes 2 := by decide
  have hand : (f ++ w.extractLsb' 12 1 ++ rd w ++ rs2 w ++ q) &&&
      (BitVec.allOnes 3 ++ 0#1 ++ 0#5 ++ 0#5 ++ BitVec.allOnes 2) = f ++
        0#1 ++ 0#5 ++ 0#5 ++ q := by
    simp only [BitVec.and_append, BitVec.and_allOnes, BitVec.and_zero]
  rw [← hq, ← hf, parts] at hand
  rw [hmask, ← hq, ← hf]
  exact hand

/-- Bit 12 as well. -/
theorem fits_jump (hq : w.extractLsb' 0 2 = q) (hf : w.extractLsb' 13 3 = f)
    (hb : w.extractLsb' 12 1 = b) :
    w &&& 0xf003#16 = (f ++ b ++ 0#5 ++ 0#5 ++ q : BitVec 16) := by
  have hmask : 0xf003#16 = BitVec.allOnes 3 ++ BitVec.allOnes 1 ++ 0#5 ++ 0#5 ++ BitVec.allOnes 2 :=
    by decide
  have hand : (f ++ b ++ rd w ++ rs2 w ++ q) &&&
      (BitVec.allOnes 3 ++ BitVec.allOnes 1 ++ 0#5 ++ 0#5 ++ BitVec.allOnes 2) = f ++
        b ++ 0#5 ++ 0#5 ++ q := by
    simp only [BitVec.and_append, BitVec.and_allOnes, BitVec.and_zero]
  rw [← hq, ← hf, ← hb, parts] at hand
  rw [hmask, ← hq, ← hf, ← hb]
  exact hand

/-- And no second register. -/
theorem fits_jump_rs2 (hq : w.extractLsb' 0 2 = q) (hf : w.extractLsb' 13 3 = f)
    (hb : w.extractLsb' 12 1 = b)
    (hrs2 : rs2 w = x0) : w &&& 0xf07f#16 = (f ++ b ++ 0#5 ++ x0 ++ q : BitVec 16) := by
  have hmask : 0xf07f#16 = BitVec.allOnes 3 ++ BitVec.allOnes 1 ++ 0#5 ++
      BitVec.allOnes 5 ++ BitVec.allOnes 2 := by
    decide
  have hand : (f ++ b ++ rd w ++ x0 ++ q) &&&
      (BitVec.allOnes 3 ++ BitVec.allOnes 1 ++ 0#5 ++ BitVec.allOnes 5 ++ BitVec.allOnes 2) =
        f ++ b ++ 0#5 ++ x0 ++ q := by
    simp only [BitVec.and_append, BitVec.and_allOnes, BitVec.and_zero]
  rw [← hq, ← hf, ← hb, ← hrs2, parts] at hand
  rw [hmask, ← hq, ← hf, ← hb, ← hrs2]
  exact hand

/-- The two bits behind bit 12. -/
theorem fits_alu (hq : w.extractLsb' 0 2 = q) (hf : w.extractLsb' 13 3 = f)
    (hg : w.extractLsb' 10 2 = g) :
    w &&& 0xec03#16 = (f ++ 0#1 ++ g ++ 0#3 ++ 0#2 ++ 0#3 ++ q : BitVec 16) := by
  have hmask : 0xec03#16 =
      BitVec.allOnes 3 ++ 0#1 ++ BitVec.allOnes 2 ++ 0#3 ++ 0#2 ++ 0#3 ++ BitVec.allOnes 2 :=
        by decide
  have hand : (f ++ w.extractLsb' 12 1 ++ g ++ w.extractLsb' 7 3 ++ w.extractLsb' 5 2 ++
    w.extractLsb' 2 3 ++ q) &&&
      (BitVec.allOnes 3 ++ 0#1 ++ BitVec.allOnes 2 ++ 0#3 ++ 0#2 ++ 0#3 ++ BitVec.allOnes 2) =
        f ++ 0#1 ++ g ++ 0#3 ++ 0#2 ++ 0#3 ++ q := by
    simp only [BitVec.and_append, BitVec.and_allOnes, BitVec.and_zero]
  rw [← hq, ← hf, ← hg, aluParts] at hand
  rw [hmask, ← hq, ← hf, ← hg]
  exact hand

/-- Bits 12, 6 and 5 as well. -/
theorem fits_registers (hq : w.extractLsb' 0 2 = q) (hf : w.extractLsb' 13 3 = f)
    (hb : w.extractLsb' 12 1 = b)
    (hg : w.extractLsb' 10 2 = g) (hh : w.extractLsb' 5 2 = h) :
    w &&& 0xfc63#16 = (f ++ b ++ g ++ 0#3 ++ h ++ 0#3 ++ q : BitVec 16) := by
  have hmask : 0xfc63#16 = BitVec.allOnes 3 ++ BitVec.allOnes 1 ++ BitVec.allOnes 2 ++
    0#3 ++ BitVec.allOnes 2 ++
      0#3 ++ BitVec.allOnes 2 := by decide
  have hand : (f ++ b ++ g ++ w.extractLsb' 7 3 ++ h ++ w.extractLsb' 2 3 ++ q) &&&
      (BitVec.allOnes 3 ++ BitVec.allOnes 1 ++ BitVec.allOnes 2 ++ 0#3 ++ BitVec.allOnes 2 ++ 0#3 ++
        BitVec.allOnes 2) = f ++ b ++ g ++ 0#3 ++ h ++ 0#3 ++ q := by
    simp only [BitVec.and_append, BitVec.and_allOnes, BitVec.and_zero]
  rw [← hq, ← hf, ← hb, ← hg, ← hh, aluParts] at hand
  rw [hmask, ← hq, ← hf, ← hb, ← hg, ← hh]
  exact hand

end Rvc

end Nnemu

import Nnemu.Field
import Nnemu.Lib.Bits
import Nnemu.Trigger.Match

/-!
# The context test of `tdata3`

With `sselect` of 1 a trigger compares `svalue` with `scontext`, except for the bytes that
`sbytemask` masks. The loop of `textra_match` clears the wrong bits: a masked byte is the one it
keeps. The field `svalue` has 34 bits on RV64 and is stored in 32. What was written is compared and
read back as it is meant exactly when no byte is masked or every byte is, and the value fits 32 bits
(`honoursTextra_iff`).
-/

namespace Nnemu

namespace Trigger

/-- `CSR_TEXTRA_SVALUE_LENGTH` -/
def svalueLength : Xlen → Nat
  | .rv32 => 0x10
  | .rv64 => 0x22

/-- `CSR_TEXTRA_SBYTEMASK_LENGTH` -/
def sbytemaskLength : Xlen → Nat
  | .rv32 => 2
  | .rv64 => 5

/-! ### The test as it is meant -/

/-- The field `svalue` of a written value. -/
def writtenSvalue (xlen : Xlen) (val : Reg) : Reg := getField val (textraSvalue xlen)

/-- The field `sbytemask` of a written value. -/
def writtenSbytemask (xlen : Xlen) (val : Reg) : Reg := getField val (textraSbytemask xlen)

/-- The written value equals the context in every byte that is not masked. -/
def SvalueMatches (xlen : Xlen) (val scontext : Reg) : Prop :=
  ∀ k, k < svalueLength xlen → (writtenSbytemask xlen val).getLsbD (k / 8) = false →
    scontext.getLsbD k = (writtenSvalue xlen val).getLsbD k

/-- A write of `tdata3` is compared with the context, and read back, as it was written. -/
structure HonoursTextra (env : Env) (t : Trigger) (val : Reg) : Prop where
  test : ∀ env' : MatchEnv, env'.toEnv = env →
    ((t.tdata3Write env val).sselectMatch env' = true ↔ SvalueMatches env.xlen val env'.scontext)
  svalue : writtenSvalue env.xlen ((t.tdata3Write env val).tdata3Read env) =
    writtenSvalue env.xlen val
  sbytemask : writtenSbytemask env.xlen ((t.tdata3Write env val).tdata3Read env) =
    writtenSbytemask env.xlen val

/-! ### Reading back -/

section ReadBack

variable (env : Env) (t : Trigger) (val : Reg)

theorem written_le (xlen : Xlen) : (writtenSvalue xlen val).toNat < 2 ^ svalueLength xlen ∧
    (writtenSbytemask xlen val).toNat < 2 ^ sbytemaskLength xlen := by
  cases xlen with
  | rv32 =>
    exact ⟨Nat.lt_succ_of_le (getField_toNat_le (k := 2) (by decide) (by decide) val),
      Nat.lt_succ_of_le (getField_toNat_le (k := 18) (by decide) (by decide) val)⟩
  | rv64 =>
    exact ⟨Nat.lt_succ_of_le (getField_toNat_le (k := 2) (by decide) (by decide) val),
      Nat.lt_succ_of_le (getField_toNat_le (k := 36) (by decide) (by decide) val)⟩

/-- `svalue` is read as it is stored. -/
theorem writtenSvalue_read : writtenSvalue env.xlen (t.tdata3Read env) =
    t.svalue.setWidth 64 &&& (textraSvalue env.xlen >>> 2) := by
  rw [writtenSvalue, tdata3Read]
  cases env.xlen with
  | rv32 =>
    rw [getField_setField_of_disjoint (by decide),
      getField_setField_self (k := 2) (by decide) (by decide)]
  | rv64 =>
    rw [getField_setField_of_disjoint (by decide),
      getField_setField_self (k := 2) (by decide) (by decide)]

/-- `sbytemask` is read as it is stored. -/
theorem writtenSbytemask_read : writtenSbytemask env.xlen (t.tdata3Read env) =
    t.sbytemask.setWidth 64 &&& BitVec.ofNat 64 (2 ^ sbytemaskLength env.xlen - 1) := by
  rw [writtenSbytemask, tdata3Read]
  cases env.xlen with
  | rv32 =>
    rw [getField_setField_of_disjoint (by decide), getField_setField_of_disjoint (by decide),
      getField_setField_self (k := 18) (by decide) (by decide)]
    rfl
  | rv64 =>
    rw [getField_setField_of_disjoint (by decide), getField_setField_of_disjoint (by decide),
      getField_setField_self (k := 36) (by decide) (by decide)]
    rfl

/-- The mask of a field leaves a value of its width alone. -/
theorem and_of_toNat_lt {x mask : Reg} {n : Nat} (hmask : mask.toNat = 2 ^ n - 1)
    (hx : x.toNat < 2 ^ n) :
    x &&& mask = x := by
  apply BitVec.eq_of_toNat_eq
  rw [BitVec.toNat_and, hmask, Nat.and_two_pow_sub_one_eq_mod, Nat.mod_eq_of_lt hx]

theorem textraSvalue_shift (xlen : Xlen) :
    (textraSvalue xlen >>> 2).toNat = 2 ^ svalueLength xlen - 1 := by
  cases xlen <;> rfl

/-- What fits the 32 bits of the C type is what survives them. -/
theorem setWidth_setWidth_eq_iff (x : Reg) : (x.setWidth 32).setWidth 64 = x ↔
    x.toNat < 2 ^ 32 := by
  rw [← BitVec.toNat_inj, BitVec.toNat_setWidth, BitVec.toNat_setWidth,
    Nat.mod_eq_of_lt (Nat.lt_trans (Nat.mod_lt _ (by decide)) (by decide))]
  constructor
  · intro h
    rw [← h]
    exact Nat.mod_lt _ (by decide)
  · exact Nat.mod_eq_of_lt

/-- `sbytemask` is read back as it was written. -/
theorem sbytemask_kept :
    writtenSbytemask env.xlen ((t.tdata3Write env val).tdata3Read env) =
      writtenSbytemask env.xlen val := by
  have hlt := (written_le val env.xlen).2
  have hpow : 2 ^ sbytemaskLength env.xlen ≤ 2 ^ 5 := by cases env.xlen <;> decide
  have hstored : (t.tdata3Write env val).sbytemask = (writtenSbytemask env.xlen val).setWidth
      32 := rfl
  rw [writtenSbytemask_read, hstored, (setWidth_setWidth_eq_iff _).2 (by omega)]
  refine and_of_toNat_lt (n := sbytemaskLength env.xlen) ?_ hlt
  cases env.xlen <;> rfl

/-- `svalue` is read back as it was written when it fits the type it is stored in. -/
theorem svalue_kept_iff (hS : env.constS = true) :
    writtenSvalue env.xlen ((t.tdata3Write env val).tdata3Read env) = writtenSvalue env.xlen val ↔
      (writtenSvalue env.xlen val).toNat < 2 ^ 32 := by
  have hstored : (t.tdata3Write env val).svalue = (writtenSvalue env.xlen val).setWidth 32 := by
    rw [tdata3Write, if_pos hS, writtenSvalue]
  have hsmall : ((writtenSvalue env.xlen val).setWidth 32).setWidth 64 &&&
    (textraSvalue env.xlen >>> 2) =
      ((writtenSvalue env.xlen val).setWidth 32).setWidth 64 := by
    refine and_of_toNat_lt (textraSvalue_shift env.xlen) ?_
    rw [BitVec.toNat_setWidth, BitVec.toNat_setWidth]
    exact Nat.lt_of_le_of_lt (Nat.le_trans (Nat.mod_le _ _) (Nat.mod_le _ _))
      (written_le val env.xlen).1
  rw [writtenSvalue_read, hstored, hsmall, setWidth_setWidth_eq_iff]

/-- Without S-mode it is not stored. -/
theorem svalue_dropped_iff (hS : env.constS = false) :
    writtenSvalue env.xlen ((t.tdata3Write env val).tdata3Read env) = writtenSvalue env.xlen val ↔
      writtenSvalue env.xlen val = 0#64 := by
  have hstored : (t.tdata3Write env val).svalue = 0#32 := by
    rw [tdata3Write, if_neg (by rw [hS]; exact Bool.false_ne_true)]
  rw [writtenSvalue_read, hstored, eq_comm]
  exact ⟨fun h => h.trans BitVec.zero_and, fun h => h.trans BitVec.zero_and.symm⟩

end ReadBack

/-! ### The mask -/

/-- The mask of the comparison for a given `sbytemask`. -/
def byteMask (xlen : Xlen) (masked : Nat → Bool) : Reg :=
  (List.range 5).foldl (fun mask i => if masked i then mask &&& sbyteShift i else mask)
    ((1#64 <<< svalueLength xlen) - 1#64)

theorem scontextMask_eq (env : MatchEnv) (t : Trigger) :
    t.scontextMask env = byteMask env.xlen fun i => t.sbytemask.getLsbD i := by
  rw [scontextMask, byteMask]
  cases env.xlen <;> rfl

/-- The loop, one byte after the other. -/
theorem byteMask_unfold (xlen : Xlen) (masked : Nat → Bool) : byteMask xlen masked =
    ([(masked 0, 0), (masked 1, 1), (masked 2, 2), (masked 3, 3), (masked 4, 4)] :
      List (Bool × Nat)).foldl
      (fun mask b => if b.1 then mask &&& sbyteShift b.2 else mask)
      ((1#64 <<< svalueLength xlen) - 1#64) := rfl

/-- Nothing masked: the whole field is compared. -/
theorem byteMask_none {xlen : Xlen} {masked : Nat → Bool} (h : ∀ i, i < 5 → masked i = false) :
    byteMask xlen masked = Bits.lowMask 64 (svalueLength xlen) := by
  rw [byteMask_unfold, h 0 (by decide), h 1 (by decide), h 2 (by decide),
    h 3 (by decide), h 4 (by decide)]
  cases xlen <;> decide

/-- Everything masked: nothing is compared. -/
theorem byteMask_all {xlen : Xlen} {masked : Nat → Bool}
    (h : ∀ i, i < sbytemaskLength xlen → masked i = true)
    (hhigh : ∀ i, sbytemaskLength xlen ≤ i → masked i = false) : byteMask xlen masked = 0#64 := by
  rw [byteMask_unfold]
  cases xlen with
  | rv32 =>
    rw [h 0 (by decide), h 1 (by decide), hhigh 2 (by decide), hhigh 3 (by decide),
      hhigh 4 (by decide)]
    decide
  | rv64 =>
    rw [h 0 (by decide), h 1 (by decide), h 2 (by decide), h 3 (by decide), h 4 (by decide)]
    decide

/-- The bytes of RV64: if some are masked and some are not, the mask loses one of the latter. -/
theorem exists_lost_rv64 : ∀ b0 b1 b2 b3 b4 : Bool, [b0, b1, b2, b3, b4].any id = true →
    [b0, b1, b2, b3, b4].all id = false →
    ∃ b ∈ ([(b0, 0), (b1, 1), (b2, 2), (b3, 3), (b4, 4)] : List (Bool × Nat)), b.1 = false ∧
      (([(b0, 0), (b1, 1), (b2, 2), (b3, 3), (b4, 4)] : List (Bool × Nat)).foldl
        (fun mask b => if b.1 then mask &&& sbyteShift b.2 else mask)
        ((1#64 <<< svalueLength .rv64) - 1#64)).getLsbD
          (8 * b.2) = false := by
  decide

/-- The bytes of RV32. -/
theorem exists_lost_rv32 : ∀ b0 b1 : Bool, [b0, b1].any id = true → [b0, b1].all id = false →
    ∃ b ∈ ([(b0, 0), (b1, 1)] : List (Bool × Nat)), b.1 = false ∧
      (([(b0, 0), (b1, 1), (false, 2), (false, 3), (false, 4)] : List (Bool × Nat)).foldl
        (fun mask b => if b.1 then mask &&& sbyteShift b.2 else mask)
        ((1#64 <<< svalueLength .rv32) - 1#64)).getLsbD
          (8 * b.2) = false := by
  decide

/-- Some bytes masked and some not: a byte that should be compared is not. -/
theorem byteMask_some {xlen : Xlen} {masked : Nat → Bool}
    (hhigh : ∀ i, sbytemaskLength xlen ≤ i → masked i = false)
    (hsome : ∃ i, i < sbytemaskLength xlen ∧ masked i = true)
    (hnone : ∃ i, i < sbytemaskLength xlen ∧ masked i = false) :
    ∃ j, j < sbytemaskLength xlen ∧ masked j = false ∧
    (byteMask xlen masked).getLsbD (8 * j) = false := by
  obtain ⟨i, hi, hmasked⟩ := hsome
  obtain ⟨j, hj, hfree⟩ := hnone
  have hany : (((List.range (sbytemaskLength xlen)).map masked).any id) = true := by
    rw [List.any_map]
    exact List.any_eq_true.2 ⟨i, List.mem_range.2 hi, hmasked⟩
  have hall : (((List.range (sbytemaskLength xlen)).map masked).all id) = false := by
    rw [List.all_map]
    exact List.all_eq_false.2 ⟨j, List.mem_range.2 hj,
      by rw [Function.comp_apply, hfree]; exact Bool.false_ne_true⟩
  have hlost : ∃ b ∈ (List.range (sbytemaskLength xlen)).map fun i => (masked i, i),
      b.1 = false ∧ (byteMask xlen masked).getLsbD (8 * b.2) = false := by
    rw [byteMask_unfold]
    cases xlen with
    | rv32 =>
      rw [hhigh 2 (by decide), hhigh 3 (by decide), hhigh 4 (by decide)]
      exact exists_lost_rv32 (masked 0) (masked 1) hany hall
    | rv64 =>
      exact exists_lost_rv64 (masked 0) (masked 1) (masked 2) (masked 3) (masked 4) hany hall
  obtain ⟨b, hmem, hb, hbit⟩ := hlost
  obtain ⟨k, hk, rfl⟩ := List.mem_map.1 hmem
  exact ⟨k, List.mem_range.1 hk, hb, hbit⟩

/-! ### When a write is honoured -/

/-- No byte is masked. -/
def NoneMasked (xlen : Xlen) (val : Reg) : Prop :=
  ∀ i, i < sbytemaskLength xlen → (writtenSbytemask xlen val).getLsbD i = false

/-- Every byte is masked. -/
def AllMasked (xlen : Xlen) (val : Reg) : Prop :=
  ∀ i, i < sbytemaskLength xlen → (writtenSbytemask xlen val).getLsbD i = true

section Honours

variable {env : Env} {t : Trigger} {val : Reg}

/-- Beyond the field there are no masked bytes. -/
theorem writtenSbytemask_high (xlen : Xlen) (val : Reg) {i : Nat} (hi : sbytemaskLength xlen ≤ i) :
    (writtenSbytemask xlen val).getLsbD i = false := by
  rw [← BitVec.testBit_toNat]
  exact Nat.testBit_lt_two_pow
    (Nat.lt_of_lt_of_le (written_le val xlen).2 (Nat.pow_le_pow_right (by decide) hi))

/-- The mask that a written `sbytemask` leads to. -/
def writtenMask (xlen : Xlen) (val : Reg) : Reg :=
  byteMask xlen fun i => (writtenSbytemask xlen val).getLsbD i

/-- What the code compares: `svalue` is cut to 32 bits, and the mask is that of the loop. -/
def Compared (xlen : Xlen) (val scontext : Reg) : Prop :=
  scontext &&& writtenMask xlen val = ((writtenSvalue xlen val).setWidth 32).setWidth 64 &&&
    writtenMask xlen val

/-- The comparison of a trigger with `sselect` of 1. -/
theorem sselectMatch_iff (hS : env.constS = true) (hsel : getField val textraSselect = 1#64)
    {env' : MatchEnv}
    (henv : env'.toEnv = env) :
    (t.tdata3Write env val).sselectMatch env' = true ↔ Compared env.xlen val env'.scontext := by
  have hsselect : (t.tdata3Write env val).sselect = .scontext := by
    rw [tdata3Write, legalizeSselect, hS, hsel]
    rfl
  have hsvalue : (t.tdata3Write env val).svalue = (writtenSvalue env.xlen val).setWidth 32 := by
    rw [tdata3Write, if_pos hS, writtenSvalue]
  have hmask : (fun i => (t.tdata3Write env val).sbytemask.getLsbD i) =
      fun i => (writtenSbytemask env.xlen val).getLsbD i := by
    funext i
    have hstored : (t.tdata3Write env val).sbytemask =
        (writtenSbytemask env.xlen val).setWidth 32 := rfl
    rw [hstored, BitVec.getLsbD_setWidth]
    by_cases hi : i < 32
    · rw [decide_eq_true hi, Bool.true_and]
    · have hle : sbytemaskLength env.xlen ≤ i := by
        have hshort : sbytemaskLength env.xlen ≤ 5 := by cases env.xlen <;> decide
        omega
      rw [writtenSbytemask_high env.xlen val hle, Bool.and_false]
  have hx : env'.xlen = env.xlen := congrArg Env.xlen henv
  rw [sselectMatch, hsselect]
  dsimp only
  rw [scontextMask_eq, hmask, hsvalue, hx, beq_iff_eq, Compared, writtenMask]

/-- The test is as it is meant when the code compares what it should. -/
theorem test_iff (hS : env.constS = true) (hsel : getField val textraSselect = 1#64) :
    (∀ env' : MatchEnv, env'.toEnv = env →
      ((t.tdata3Write env val).sselectMatch env' = true ↔
        SvalueMatches env.xlen val env'.scontext)) ↔
        ∀ scontext, Compared env.xlen val scontext ↔ SvalueMatches env.xlen val scontext := by
  constructor
  · intro h scontext
    let env' : MatchEnv :=
      { env with
        prv := prvM, v := false, scontext := scontext, satp := 0#64, mcontext := 0#64,
        hgatp := 0#64 }
    have hcode : (t.tdata3Write env val).sselectMatch env' = true ↔
      Compared env.xlen val scontext :=
      sselectMatch_iff hS hsel rfl
    exact hcode.symm.trans (h env' rfl)
  · intro h env' henv
    exact (sselectMatch_iff hS hsel henv).trans (h env'.scontext)

/-- A value equals itself in every byte. -/
theorem svalueMatches_self (xlen : Xlen) (val : Reg) :
    SvalueMatches xlen val (writtenSvalue xlen val) :=
  fun _ _ _ => rfl

/-- Bytes of which some are masked and some are not are compared wrongly. -/
theorem masked_uniform {xlen : Xlen}
    (h : ∀ scontext, Compared xlen val scontext ↔ SvalueMatches xlen val scontext) :
    NoneMasked xlen val ∨ AllMasked xlen val := by
  by_contra hmixed
  rw [not_or] at hmixed
  obtain ⟨hnot, hnotAll⟩ := hmixed
  have hsome : ∃ i, i < sbytemaskLength xlen ∧ (writtenSbytemask xlen val).getLsbD i = true := by
    by_contra hno
    refine hnot fun i hi => ?_
    by_contra hbit
    exact hno ⟨i, hi, by simpa using hbit⟩
  have hnone : ∃ i, i < sbytemaskLength xlen ∧ (writtenSbytemask xlen val).getLsbD i = false := by
    by_contra hno
    refine hnotAll fun i hi => ?_
    by_contra hbit
    exact hno ⟨i, hi, by simpa using hbit⟩
  obtain ⟨j, hj, hfree, hlost⟩ :=
    byteMask_some (fun i hi => writtenSbytemask_high xlen val hi) hsome hnone
  have hlen : 8 * j < svalueLength xlen := by
    cases xlen <;> simp only [sbytemaskLength, svalueLength] at hj ⊢ <;> omega
  have hwidth : svalueLength xlen ≤ 64 := by cases xlen <;> decide
  -- the written value passes, and so does the one with a bit of that byte flipped
  have hself := (h (writtenSvalue xlen val)).2 (svalueMatches_self xlen val)
  have hflip : Compared xlen val (writtenSvalue xlen val ^^^ BitVec.twoPow 64 (8 * j)) := by
    rw [Compared, ← hself]
    apply BitVec.eq_of_getLsbD_eq
    intro i hi
    rw [BitVec.getLsbD_and, BitVec.getLsbD_and, BitVec.getLsbD_xor, BitVec.getLsbD_twoPow]
    by_cases hij : 8 * j = i
    · rw [← hij, writtenMask, hlost, Bool.and_false, Bool.and_false]
    · rw [decide_eq_false hij, Bool.and_false, Bool.xor_false]
  have hbit :=
    (h _).1 hflip (8 * j) hlen (by rw [Nat.mul_div_cancel_left j (by decide)]; exact hfree)
  rw [BitVec.getLsbD_xor, BitVec.getLsbD_twoPow, decide_eq_true rfl,
    decide_eq_true (by omega)] at hbit
  simp at hbit

/-- With no byte masked the whole field is compared. -/
theorem compared_of_none {xlen : Xlen} (hnone : NoneMasked xlen val)
    (hfits : (writtenSvalue xlen val).toNat < 2 ^ 32)
    (scontext : Reg) : Compared xlen val scontext ↔ SvalueMatches xlen val scontext := by
  have hfree : ∀ i, (writtenSbytemask xlen val).getLsbD i = false := by
    intro i
    by_cases hi : i < sbytemaskLength xlen
    · exact hnone i hi
    · exact writtenSbytemask_high xlen val (Nat.not_lt.1 hi)
  have hwidth : svalueLength xlen ≤ 64 := by cases xlen <;> decide
  rw [Compared, writtenMask, byteMask_none fun i _ => hfree i, (setWidth_setWidth_eq_iff _).2 hfits]
  constructor
  · intro h k hk _
    have hbit := congrArg (·.getLsbD k) h
    simpa [hk, show k < 64 by omega] using hbit
  · intro h
    apply BitVec.eq_of_getLsbD_eq
    intro k hk
    rw [BitVec.getLsbD_and, BitVec.getLsbD_and, Bits.getLsbD_lowMask]
    by_cases hlow : k < svalueLength xlen
    · rw [h k hlow (hfree _)]
    · rw [decide_eq_false hlow, Bool.and_false, Bool.and_false, Bool.and_false]

/-- With every byte masked nothing is. -/
theorem compared_of_all {xlen : Xlen} (hall : AllMasked xlen val) (scontext : Reg) :
    Compared xlen val scontext ↔ SvalueMatches xlen val scontext := by
  rw [Compared, writtenMask, byteMask_all hall fun i hi => writtenSbytemask_high xlen val hi,
    BitVec.and_zero,
    BitVec.and_zero]
  refine ⟨fun _ k hk hfree => ?_, fun _ => rfl⟩
  have hbyte : k / 8 < sbytemaskLength xlen := by
    cases xlen <;> simp only [sbytemaskLength, svalueLength] at hk ⊢ <;> omega
  rw [hall _ hbyte] at hfree
  cases hfree

/-- The condition under which a write of `tdata3` is honoured. Without S-mode nothing is compared
and `svalue` is not kept. -/
def TextraFits (env : Env) (val : Reg) : Prop :=
  if env.constS then
    (NoneMasked env.xlen val ∨ AllMasked env.xlen val) ∧ (writtenSvalue env.xlen val).toNat < 2 ^ 32
  else AllMasked env.xlen val ∧ writtenSvalue env.xlen val = 0#64

/-- Without S-mode every context passes, as it should when every byte is masked. -/
theorem allMasked_iff (hS : env.constS = false) :
    (∀ env' : MatchEnv, env'.toEnv = env →
      ((t.tdata3Write env val).sselectMatch env' = true ↔
        SvalueMatches env.xlen val env'.scontext)) ↔
        AllMasked env.xlen val := by
  have hpass : ∀ env' : MatchEnv, (t.tdata3Write env val).sselectMatch env' = true := by
    intro env'
    have hsselect : (t.tdata3Write env val).sselect = .ignore := by
      rw [tdata3Write, legalizeSselect, hS]
      rfl
    rw [sselectMatch, hsselect]
  constructor
  · intro h i hi
    by_contra hbit
    let env' : MatchEnv :=
      { env with
        prv := prvM, v := false, scontext := ~~~writtenSvalue env.xlen val, satp :=
          0#64, mcontext := 0#64,
        hgatp := 0#64 }
    have hlen : 8 * i < svalueLength env.xlen := by
      cases hx : env.xlen <;> rw [hx] at hi <;>
        simp only [sbytemaskLength, svalueLength] at hi ⊢ <;> omega
    have hwidth : svalueLength env.xlen ≤ 64 := by cases env.xlen <;> decide
    have hsame := (h env' rfl).1 (hpass env') (8 * i) hlen
      (by rw [Nat.mul_div_cancel_left i (by decide)]; simpa using hbit)
    have hflip : env'.scontext.getLsbD (8 * i) = !(writtenSvalue env.xlen val).getLsbD (8 * i) := by
      change (~~~writtenSvalue env.xlen val).getLsbD (8 * i) = _
      rw [BitVec.getLsbD_not, decide_eq_true (by omega), Bool.true_and]
    rw [hflip] at hsame
    exact Bool.not_ne_self _ hsame
  · intro hall env' henv
    refine iff_of_true (hpass env') fun k hk hfree => ?_
    have hbyte : k / 8 < sbytemaskLength env.xlen := by
      cases hx : env.xlen <;> rw [hx] at hk <;>
        simp only [sbytemaskLength, svalueLength] at hk ⊢ <;> omega
    rw [hall _ hbyte] at hfree
    cases hfree

/-- **A write of `tdata3` with `sselect` of 1 is compared and read back as it was written exactly
when no byte is masked or all are, and the value fits 32 bits.** The first condition is due to the
loop over the bytes, which clears what it should keep, the second one to the width of the field in
the trigger. -/
theorem honoursTextra_iff (env : Env) (t : Trigger) (val : Reg)
    (hsel : getField val textraSselect = 1#64) :
    HonoursTextra env t val ↔ TextraFits env val := by
  rw [TextraFits]
  cases hS : env.constS with
  | true =>
    rw [if_pos rfl]
    constructor
    · intro h
      exact ⟨masked_uniform ((test_iff hS hsel).1 h.test),
        (svalue_kept_iff env t val hS).1 h.svalue⟩
    · rintro ⟨hmasked, hfits⟩
      refine ⟨(test_iff hS hsel).2 ?_, (svalue_kept_iff env t val hS).2 hfits,
        sbytemask_kept env t val⟩
      obtain hnone | hall := hmasked
      · exact compared_of_none hnone hfits
      · exact compared_of_all hall
  | false =>
    rw [if_neg Bool.false_ne_true]
    constructor
    · intro h
      exact ⟨(allMasked_iff hS).1 h.test, (svalue_dropped_iff env t val hS).1 h.svalue⟩
    · rintro ⟨hall, hzero⟩
      exact ⟨(allMasked_iff hS).2 hall, (svalue_dropped_iff env t val hS).2 hzero,
        sbytemask_kept env t val⟩

/-- A hart of 64 bits with S-mode. -/
def textraEnv : Env := ⟨.rv64, true, true, false, false⟩

/-- Nothing masked: `svalue` of 5. -/
theorem honoursTextra_unmasked : HonoursTextra textraEnv reset 0x15#64 :=
  (honoursTextra_iff textraEnv reset 0x15#64 (by decide)).2
    ⟨.inl (by unfold NoneMasked; decide), by decide⟩

/-- Byte 0 masked: the context differs in that byte only, and yet the test fails. -/
theorem honoursTextra_masked : ¬ HonoursTextra textraEnv reset 0x1000000049#64 := by
  intro h
  let env' : MatchEnv :=
    { textraEnv with
      prv := prvM, v := false, scontext := 0x34#64, satp := 0#64, mcontext := 0#64,
      hgatp := 0#64 }
  have hmatches : SvalueMatches .rv64 0x1000000049#64 env'.scontext := by
    unfold SvalueMatches
    decide
  exact absurd ((h.test env' rfl).2 hmatches) (by decide)

end Honours

end Trigger

end Nnemu

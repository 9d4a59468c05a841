import Nnemu.Lib.Bits
import Nnemu.Lib.FirstMatch
import Nnemu.Pmp.Basic

/-!
# The regions behind the match tests

`match4` decides with shifts and masks whether an address lies in an entry's region. Here the region
is stated as an interval of addresses, the way the architecture describes it:

* a TOR region runs from the address of the entry below to the entry's own address, both rounded
  down to the granularity;
* an NA4 region is the four bytes at the entry's address;
* a NAPOT region is the naturally aligned block of `8 * 2 ^ t` bytes around the entry's address,
  where `t` counts the ones at the bottom of the address register, the bits below the granularity
  reading as ones.

`match4_eq_true_iff` is the agreement, for every byte address. From it follow the owner of a byte
and the byte-level rule for an access.
-/

namespace Nnemu

namespace Pmp

open Bits

variable (p : Pmp)

/-! ### Regions -/

/-- The address of entry `i` in bytes, rounded down to the granularity. -/
def bound (i : Nat) : Nat :=
  4 * (p.val i).toNat / 2 ^ p.lgPmpGranularity * 2 ^ p.lgPmpGranularity

/-- The address register of entry `i` with the bits below the granularity read as ones. -/
def napotAddr (i : Nat) : Reg :=
  p.val i ||| lowMask 64 (p.lgPmpGranularity - 3)

/-- The logarithm of the size of an NA4 or NAPOT region. A granularity above 4 leaves no room for
NA4, and an entry with that encoding counts as NAPOT. -/
def lgSize (i : Nat) : Nat :=
  if p.cfg i &&& pmpA = pmpNa4 ∧ p.lgPmpGranularity = 2 then 2
  else 3 + trailingOnes (p.napotAddr i)

/-- The region of entry `i`, as a set of byte addresses. -/
def Region (i b : Nat) : Prop :=
  if p.cfg i &&& pmpA = 0#8 then False
  else if p.cfg i &&& pmpA = pmpTor then (if i = 0 then 0 else p.bound (i - 1)) ≤ b ∧ b < p.bound i
  else b / 2 ^ p.lgSize i = 4 * (p.val i).toNat / 2 ^ p.lgSize i

instance (i b : Nat) : Decidable (p.Region i b) := by
  unfold Region
  infer_instance

/-! ### The match test -/

theorem shift_lt : p.lgPmpGranularity - pmpShift < 64 := by
  have := p.lgPmpGranularity_lt
  omega

theorem pmpTorMask_eq : p.pmpTorMask = ~~~lowMask 64 (p.lgPmpGranularity - pmpShift) :=
  neg_one_shiftLeft p.shift_lt

theorem val_lt (i : Nat) : (p.val i).toNat < 2 ^ 54 :=
  (p.pmpaddr i).val_lt

/-- The entry's address in bytes needs no more than `MAX_PADDR_BITS`, so the shift loses nothing. -/
theorem toNat_torPaddr (i : Nat) : (p.torPaddr i).toNat = p.bound i := by
  obtain ⟨k, hk⟩ := Nat.exists_eq_add_of_le p.pmpShift_le
  have hv := p.val_lt i
  have hround := Nat.div_mul_le_self (p.val i).toNat (2 ^ k)
  rw [torPaddr, BitVec.toNat_shiftLeft, pmpTorMask_eq, toNat_and_not_lowMask, bound, hk,
    Nat.add_sub_cancel_left, Nat.shiftLeft_eq, Nat.pow_add, Nat.mod_eq_of_lt (by
      simp only [pmpShift]
      omega)]
  simp only [pmpShift]
  rw [show (2 : Nat) ^ 2 = 4 from rfl, Nat.mul_div_mul_left _ _ (by decide), Nat.mul_assoc,
    Nat.mul_comm (2 ^ k) 4]

theorem toNat_torBasePaddr (i : Nat) :
    (p.torBasePaddr i).toNat = if i = 0 then 0 else p.bound (i - 1) := by
  unfold torBasePaddr
  split
  · rfl
  · exact p.toNat_torPaddr (i - 1)

/-- The word whose trailing ones `napot_mask` isolates. -/
def napotWord (i : Nat) : Reg :=
  (p.val i <<< 1) ||| (if p.cfg i &&& pmpA = pmpNa4 then 0#64 else 1#64) ||| ~~~p.pmpTorMask

theorem getLsbD_napotWord (i j : Nat) (hj : j < 64) :
    (p.napotWord i).getLsbD j =
      ((decide (1 ≤ j) && (p.val i).getLsbD (j - 1)) ||
        (decide (j = 0) && decide (¬ p.cfg i &&& pmpA = pmpNa4)) ||
        decide (j < p.lgPmpGranularity - pmpShift)) := by
  rw [napotWord, pmpTorMask_eq]
  simp only [BitVec.not_not, BitVec.getLsbD_or, BitVec.getLsbD_shiftLeft, getLsbD_lowMask, hj,
    decide_true, Bool.true_and]
  congr 2
  · rw [← decide_not]
    simp only [Nat.not_lt]
  · cases j with
    | zero => split <;> simp [*]
    | succ j => split <;> simp

/-- Address registers have 54 bits and the granularity is below `2 ^ 64`, so the run of ones ends
inside the word. -/
theorem trailingOnes_napotAddr_le (i : Nat) : trailingOnes (p.napotAddr i) ≤ 61 := by
  have hg := p.lgPmpGranularity_lt
  have hv : (p.val i).getLsbD 61 = false := by
    rw [← BitVec.testBit_toNat]
    exact Nat.testBit_lt_two_pow (Nat.lt_trans (p.val_lt i) (by decide))
  apply trailingOnes_le
  rw [napotAddr, BitVec.getLsbD_or, hv, getLsbD_lowMask, Bool.false_or]
  simp only [Bool.and_eq_false_iff, decide_eq_false_iff_not]
  right
  omega

/-- The trailing ones of that word are two less than the size of the region. -/
theorem trailingOnes_napotWord (i : Nat) : trailingOnes (p.napotWord i) + 2 = p.lgSize i := by
  have hg : 2 ≤ p.lgPmpGranularity := p.pmpShift_le
  unfold lgSize
  by_cases hna : p.cfg i &&& pmpA = pmpNa4 ∧ p.lgPmpGranularity = 2
  · -- NA4: already bit 0 is a zero
    rw [if_pos hna]
    have h0 : (p.napotWord i).getLsbD 0 = false := by
      rw [getLsbD_napotWord _ _ _ (by decide), hna.1, hna.2]
      simp [pmpShift]
    have := trailingOnes_le h0
    omega
  · rw [if_neg hna]
    have hle := p.trailingOnes_napotAddr_le i
    -- bit 0 is a one, and the bits above are those of the address register
    have hzero : (p.napotWord i).getLsbD 0 = true := by
      rw [getLsbD_napotWord _ _ _ (by decide)]
      by_cases hc : p.cfg i &&& pmpA = pmpNa4
      · have : p.lgPmpGranularity ≠ 2 := fun h => hna ⟨hc, h⟩
        rw [decide_eq_true (show 0 < p.lgPmpGranularity - pmpShift by simp only [pmpShift]; omega),
          Bool.or_true]
      · simp [hc]
    have hsucc : ∀ j, j + 1 < 64 →
        (p.napotWord i).getLsbD (j + 1) = (p.napotAddr i).getLsbD j := by
      intro j hj
      rw [getLsbD_napotWord _ _ _ hj, napotAddr, BitVec.getLsbD_or, getLsbD_lowMask]
      have hiff : (j + 1 < p.lgPmpGranularity - pmpShift) ↔ (j < p.lgPmpGranularity - 3) := by
        simp only [pmpShift]
        omega
      simp [hiff, show j < 64 by omega]
    have hrun : trailingOnes (p.napotWord i) = trailingOnes (p.napotAddr i) + 1 := by
      apply trailingOnes_eq
      · intro j hj
        cases j with
        | zero => exact hzero
        | succ j =>
          rw [hsucc j (by omega)]
          exact getLsbD_of_lt_trailingOnes (by omega)
      · rw [hsucc _ (by omega)]
        exact getLsbD_trailingOnes _
    omega

theorem lgSize_le (i : Nat) : p.lgSize i ≤ 64 := by
  have := p.trailingOnes_napotAddr_le i
  unfold lgSize
  split <;> omega

theorem lgPmpGranularity_le_lgSize (i : Nat) : p.lgPmpGranularity ≤ p.lgSize i := by
  have hones : p.lgPmpGranularity - 3 ≤ trailingOnes (p.napotAddr i) := by
    apply le_trailingOnes
    intro j hj
    have := p.lgPmpGranularity_lt
    simp [napotAddr, hj, show j < 64 by omega]
  unfold lgSize
  split <;> omega

theorem napotMask_eq (i : Nat) : p.napotMask i = ~~~lowMask 64 (p.lgSize i) := by
  have hlt : trailingOnes (p.napotWord i) < 64 := by
    have h1 := p.trailingOnes_napotWord i
    have h2 := p.lgSize_le i
    omega
  have hmask : p.napotMask i =
      ~~~(p.napotWord i &&& ~~~(p.napotWord i + 1#64)) <<< pmpShift := by
    simp [napotMask, napotWord]
  rw [hmask, and_not_add_one _ hlt, ← p.trailingOnes_napotWord i]
  apply BitVec.eq_of_getLsbD_eq
  intro j hj
  simp only [pmpShift, BitVec.getLsbD_shiftLeft, BitVec.getLsbD_not, getLsbD_lowMask, hj,
    decide_true, Bool.true_and]
  by_cases h2 : j < 2
  · simp [h2, show j < trailingOnes (p.napotWord i) + 2 by omega]
  · simp only [h2, decide_false, Bool.not_false, Bool.true_and, show j - 2 < 64 by omega,
      decide_true]
    congr 2
    rw [eq_iff_iff]
    omega

/-- **The match test is membership in the region**, for every byte address. -/
theorem match4_eq_true_iff (i : Nat) (b : Reg) : p.match4 i b = true ↔ p.Region i b.toNat := by
  unfold match4 Region
  split
  · simp
  · split
    · simp only [Bool.and_eq_true, decide_eq_true_eq, BitVec.le_def, BitVec.lt_def,
        toNat_torPaddr, toNat_torBasePaddr]
    · rw [beq_iff_eq, napotMask_eq, xor_and_not_lowMask_eq_zero_iff, toNat_torPaddr]
      rw [bound, div_mul_div_of_le _ (p.lgPmpGranularity_le_lgSize i)]

end Pmp

end Nnemu

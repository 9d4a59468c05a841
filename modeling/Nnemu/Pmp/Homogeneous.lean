import Nnemu.Pmp.Access

/-!
# Homogeneous pages

`refill_tlb` caches one permission for a whole page when `pmp_homogeneous` says that no entry splits
it. `subset_match` decides this from the bounds and the mask of an entry alone; here its answer is
connected to the match test on every byte of the page: an entry that is not a proper subset contains
all bytes of the page or none, so all bytes have one owner and every access inside the page gets the
same answer.
-/

namespace Nnemu

namespace Pmp

open Bits

variable {p : Pmp} {k : Nat}

/-- The range `subset_match` is asked about is a naturally aligned block of `2 ^ k` bytes. -/
theorem aligned_of_subsetMatch {i : Nat} {addr : Reg} {b : Bool} (hk : k < 64)
    (h : p.subsetMatch i addr (1#64 <<< k) = some b) : addr.toNat % 2 ^ k = 0 := by
  unfold subsetMatch at h
  split at h
  · exact absurd h (by simp)
  · rename_i haligned
    rw [one_shiftLeft_sub_one hk, ne_eq, not_not, BitVec.and_comm, BitVec.and_or_distrib_left,
      BitVec.or_eq_zero_iff, BitVec.and_comm] at haligned
    exact (and_lowMask_eq_zero_iff addr k).1 haligned.1

/-- The comparisons `subset_match` makes on a TOR region, as numbers of blocks. -/
theorem and_neg_lt_iff (hk : k < 64) (a b : Reg) :
    a &&& -(1#64 <<< k) < b &&& -(1#64 <<< k) ↔ a.toNat / 2 ^ k < b.toNat / 2 ^ k := by
  rw [neg_one_shiftLeft hk, BitVec.lt_def, toNat_and_not_lowMask, toNat_and_not_lowMask,
    Nat.mul_lt_mul_right (Nat.two_pow_pos k)]

/-- A mask that selects no bit below `k` makes the region at least as large as the block. -/
theorem le_lgSize_of_mask {i : Nat} (hk : k < 64)
    (h : hasBits (~~~(p.napotMask i <<< 1)) (1#64 <<< k) = true) : k ≤ p.lgSize i := by
  rw [hasBits, bne_iff_ne, ne_eq, and_one_shiftLeft_eq_zero_iff, Bool.not_eq_false,
    napotMask_eq] at h
  by_contra hlt
  simp [hk, show ¬ k < 1 by omega, show ¬ k - 1 < p.lgSize i by omega] at h

/-- `(addr ^ tor) / len` is zero when both lie in one block. -/
theorem xor_div_eq_zero {a b : Reg} (hk : k < 64) (h : a.toNat / 2 ^ k = b.toNat / 2 ^ k) :
    (a ^^^ b) / (1#64 <<< k) = 0#64 := by
  apply BitVec.eq_of_toNat_eq
  rw [BitVec.toNat_udiv, toNat_one_shiftLeft hk, BitVec.toNat_xor, Nat.xor_div_two_pow, h,
    Nat.xor_self]
  rfl

/-- **An entry that does not split a block** contains all of its bytes or none of them. -/
theorem match4_eq_of_subsetMatch {i : Nat} {addr : Reg} (hk : k < 64)
    (h : p.subsetMatch i addr (1#64 <<< k) = some false) {b b' : Reg}
    (hb : b.toNat / 2 ^ k = addr.toNat / 2 ^ k) (hb' : b'.toNat / 2 ^ k = addr.toNat / 2 ^ k) :
    p.match4 i b = p.match4 i b' := by
  have haligned := aligned_of_subsetMatch hk h
  unfold subsetMatch at h
  split at h
  · exact absurd h (by simp)
  · dsimp only at h
    rw [Bool.eq_iff_iff, match4_eq_true_iff, match4_eq_true_iff]
    unfold Region
    split at h
    case isTrue hoff => rw [if_pos hoff, if_pos hoff]
    case isFalse hon =>
      rw [if_neg hon, if_neg hon]
      simp only [Option.some.injEq, Bool.not_eq_false', beq_iff_eq] at h
      split at h
      case isTrue htor =>
        rw [if_pos htor, if_pos htor]
        apply interval_mem_congr haligned hb hb'
        simp only [Bool.or_eq_true, Bool.and_eq_true, decide_eq_true_eq, and_neg_lt_iff hk,
          BitVec.le_def, toNat_torPaddr, toNat_torBasePaddr] at h
        rcases h with (hlower | hupper) | hinside
        · exact .inl hlower
        · exact .inr (.inl hupper)
        · exact .inr (.inr hinside)
      case isFalse htor =>
        rw [if_neg htor, if_neg htor]
        by_cases hsize : k ≤ p.lgSize i
        · -- the block lies inside one block of the region's size
          rw [div_two_pow_congr hsize (hb.trans hb'.symm)]
        · -- the region lies inside another block
          have hout : ∀ c, c / 2 ^ k = addr.toNat / 2 ^ k →
              ¬ c / 2 ^ p.lgSize i = 4 * (p.val i).toNat / 2 ^ p.lgSize i := by
            intro c hc hregion
            have hmask : ¬ hasBits (~~~(p.napotMask i <<< 1)) (1#64 <<< k) = true :=
              fun hm => hsize (le_lgSize_of_mask hk hm)
            simp only [Bool.not_eq_true] at hmask
            have hblock : addr.toNat / 2 ^ k = (p.torPaddr i).toNat / 2 ^ k := by
              rw [toNat_torPaddr, ← hc]
              apply div_two_pow_congr (Nat.le_of_not_le hsize)
              rw [hregion, bound, div_mul_div_of_le _ (p.lgPmpGranularity_le_lgSize i)]
            rw [hmask, xor_div_eq_zero hk hblock] at h
            exact absurd h (by decide)
          exact iff_of_false (hout _ hb) (hout _ hb')

/-- Every entry passes the test on a homogeneous block. -/
theorem subsetMatch_of_pmpHomogeneousOn {addr len : Reg} {is : List Nat}
    (h : p.pmpHomogeneousOn addr len is = some true) :
    ∀ i, i ∈ is → p.subsetMatch i addr len = some false := by
  induction is with
  | nil => intro i hi; exact absurd hi (by simp)
  | cons j is ih =>
    rw [pmpHomogeneousOn] at h
    split at h
    · exact absurd h (by simp)
    · exact absurd h (by simp)
    · rename_i hj
      intro i hi
      rcases List.mem_cons.1 hi with rfl | hi
      · exact hj
      · exact ih h i hi

/-- All bytes of a homogeneous block have one owner. -/
theorem owner_eq_of_pmpHomogeneous {addr : Reg} (hk : k < 64)
    (h : p.pmpHomogeneous addr (1#64 <<< k) = some true) {b b' : Reg}
    (hb : b.toNat / 2 ^ k = addr.toNat / 2 ^ k) (hb' : b'.toNat / 2 ^ k = addr.toNat / 2 ^ k) :
    p.owner b = p.owner b' := by
  unfold pmpHomogeneous at h
  split at h
  · exact absurd h (by simp)
  · apply FirstMatch.owner_congr
    intro i hi
    exact match4_eq_of_subsetMatch hk
      (subsetMatch_of_pmpHomogeneousOn h i (List.mem_range.2 hi)) hb hb'

/-- The check on an access whose probes all lie in a block with one owner. -/
theorem pmpOk_eq_grants {addr a : Reg} {len : Nat} {type : AccessType} {mode : Reg} (hk : k < 64)
    (h : p.pmpHomogeneous addr (1#64 <<< k) = some true) (hlen : 0 < len)
    (hin : ∀ j, j < len → (byteAt a j).toNat / 2 ^ k = addr.toNat / 2 ^ k) :
    p.pmpOk a len type mode = p.grants type mode (p.owner addr) := by
  have hown : ∀ j, j < len → p.owner (byteAt a j) = p.owner addr :=
    fun j hj => owner_eq_of_pmpHomogeneous hk h (hin j hj) rfl
  have hfirst : p.owner a = p.owner addr := by
    have h0 := hown 0 hlen
    simpa [byteAt] using h0
  rw [Bool.eq_iff_iff, pmpOk_eq_true_iff hlen, hfirst]
  constructor
  · rintro ⟨-, hok⟩
    exact hok
  · intro hok
    exact ⟨fun j hj => hown (4 * j) (by omega), hok⟩

/-- Page `P` holds `[a, a + len)`. -/
def InPage (P a : Reg) (len : Nat) : Prop :=
  P.toNat ≤ a.toNat ∧ a.toNat + len ≤ P.toNat + 4096

theorem byteAt_div_of_inPage {P a : Reg} {len j : Nat} (hP : P.toNat % 4096 = 0)
    (hin : InPage P a len) (hj : j < len) : (byteAt a j).toNat / 2 ^ 12 = P.toNat / 2 ^ 12 := by
  obtain ⟨hlo, hhi⟩ := hin
  have hlt := P.isLt
  rw [toNat_byteAt]
  omega

/-- **A homogeneous page has one answer**: two accesses inside it are both accepted or both refused,
for every type and mode, whatever their alignment and length. -/
theorem pmpOk_eq_of_pmpHomogeneous (p : Pmp) (P : Reg) (hP : P.toNat % 4096 = 0)
    (h : p.pmpHomogeneous P 4096#64 = some true) (a a' : Reg) (len len' : Nat) (hlen : 0 < len)
    (hlen' : 0 < len') (hin : InPage P a len) (hin' : InPage P a' len') (type : AccessType)
    (mode : Reg) : p.pmpOk a len type mode = p.pmpOk a' len' type mode := by
  have h12 : p.pmpHomogeneous P (1#64 <<< 12) = some true := h
  rw [pmpOk_eq_grants (by decide) h12 hlen fun j hj => byteAt_div_of_inPage hP hin hj,
    pmpOk_eq_grants (by decide) h12 hlen' fun j hj => byteAt_div_of_inPage hP hin' hj]

theorem pmpOk_eq_of_pmpHomogeneous_guardedWord :
    guardedWord.pmpOk 0x1000#64 8 .load prvM = guardedWord.pmpOk 0x1ff6#64 4 .load prvM :=
  pmpOk_eq_of_pmpHomogeneous guardedWord 0x1000#64 (by decide) (by decide) _ _ 8 4 (by decide)
    (by decide) ⟨by decide, by decide⟩ ⟨by decide, by decide⟩ .load prvM

end Pmp

end Nnemu

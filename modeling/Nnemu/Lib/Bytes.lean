import Mathlib.Algebra.Group.Nat.Defs
import Mathlib.Data.List.Basic

/-!
# Little-endian words in a byte memory

A memory maps 64-bit addresses to bytes. `readBytes` and `writeBytes` move runs of bytes,
`fromBytes` and `toBytes` convert between bytes and a word of up to eight of them. Everything is
stated bit by bit first (`getLsbD_fromBytes`, `getLsbD_fromBytes_readBytes`); a word read back after
it was written, and a word read after a write to another aligned word, follow.
-/

namespace Bytes

/-- The little-endian value of up to eight bytes. -/
def fromBytes : List (BitVec 8) → BitVec 64
  | [] => 0#64
  | b :: bs => b.setWidth 64 ||| (fromBytes bs <<< 8)

/-- The `n` low bytes of a value, little-endian. -/
def toBytes (v : BitVec 64) (n : Nat) : List (BitVec 8) :=
  (List.range n).map fun i => (v >>> (8 * i)).setWidth 8

/-- The `n` bytes at `a`. -/
def readBytes (mem : BitVec 64 → BitVec 8) (a : BitVec 64) (n : Nat) : List (BitVec 8) :=
  (List.range n).map fun i => mem (a + BitVec.ofNat 64 i)

/-- Memory with `bytes` at `a`. -/
def writeBytes (mem : BitVec 64 → BitVec 8) (a : BitVec 64) (bytes : List (BitVec 8)) :
    BitVec 64 → BitVec 8 :=
  fun x => (bytes[(x - a).toNat]?).getD (mem x)

@[simp] theorem length_toBytes (v : BitVec 64) (n : Nat) : (toBytes v n).length = n := by
  simp [toBytes]

/-! ### Bit by bit -/

/-- Bit `j` of a value is bit `j % 8` of its byte `j / 8`. -/
theorem getLsbD_fromBytes (bs : List (BitVec 8)) {j : Nat} (hj : j < 64) :
    (fromBytes bs).getLsbD j = ((bs[j / 8]?).getD 0#8).getLsbD (j % 8) := by
  induction bs generalizing j with
  | nil => simp [fromBytes]
  | cons b bs ih =>
    rw [fromBytes, BitVec.getLsbD_or, BitVec.getLsbD_shiftLeft, BitVec.getLsbD_setWidth]
    by_cases h8 : j < 8
    · simp [h8, hj, Nat.div_eq_of_lt h8, Nat.mod_eq_of_lt h8]
    · have hdiv : j / 8 = (j - 8) / 8 + 1 := by omega
      have hmod : j % 8 = (j - 8) % 8 := by omega
      rw [ih (by omega), hdiv, hmod, List.getElem?_cons_succ, BitVec.getLsbD_of_ge b j (by omega)]
      simp [h8, hj]

theorem getElem?_toBytes (v : BitVec 64) (n i : Nat) :
    (toBytes v n)[i]? = if i < n then some ((v >>> (8 * i)).setWidth 8) else none := by
  simp only [toBytes, List.getElem?_map]
  split
  · rename_i h
    simp [List.getElem?_range h]
  · rename_i h
    rw [List.getElem?_eq_none (by simpa using h)]
    rfl

theorem getElem?_readBytes (mem : BitVec 64 → BitVec 8) (a : BitVec 64) (n i : Nat) :
    (readBytes mem a n)[i]? = if i < n then some (mem (a + BitVec.ofNat 64 i)) else none := by
  simp only [readBytes, List.getElem?_map]
  split
  · rename_i h
    simp [List.getElem?_range h]
  · rename_i h
    rw [List.getElem?_eq_none (by simpa using h)]
    rfl

/-- Bit `j` of the word of `n` bytes at `a`. -/
theorem getLsbD_fromBytes_readBytes (mem : BitVec 64 → BitVec 8) (a : BitVec 64) (n : Nat) {j : Nat}
    (hj : j < 64) :
    (fromBytes (readBytes mem a n)).getLsbD j =
      (decide (j / 8 < n) && (mem (a + BitVec.ofNat 64 (j / 8))).getLsbD (j % 8)) := by
  rw [getLsbD_fromBytes _ hj, getElem?_readBytes]
  split <;> simp [*]

/-- Words of the same bytes are equal. -/
theorem read_congr {mem mem' : BitVec 64 → BitVec 8} {a : BitVec 64} {n : Nat}
    (h : ∀ i, i < n → mem (a + BitVec.ofNat 64 i) = mem' (a + BitVec.ofNat 64 i)) :
    readBytes mem a n = readBytes mem' a n := by
  unfold readBytes
  apply List.map_congr_left
  intro i hi
  exact h i (List.mem_range.1 hi)

/-! ### Reading what was written -/

/-- A write leaves the bytes outside its range. -/
theorem writeBytes_of_le {mem : BitVec 64 → BitVec 8} {a x : BitVec 64} {bytes : List (BitVec 8)}
    (h : bytes.length ≤ (x - a).toNat) : writeBytes mem a bytes x = mem x := by
  rw [writeBytes, List.getElem?_eq_none h, Option.getD_none]

/-- A write puts byte `i` at `a + i`. -/
theorem writeBytes_add {mem : BitVec 64 → BitVec 8} {a : BitVec 64} {bytes : List (BitVec 8)}
    {i : Nat}
    (hi : i < 2 ^ 64) :
    writeBytes mem a bytes (a + BitVec.ofNat 64 i) =
      (bytes[i]?).getD (mem (a + BitVec.ofNat 64 i)) := by
  have hoff : (a + BitVec.ofNat 64 i - a).toNat = i := by
    rw [BitVec.add_comm, BitVec.add_sub_cancel, BitVec.toNat_ofNat, Nat.mod_eq_of_lt hi]
  rw [writeBytes, hoff]

/-! ### Runs of bytes in two parts -/

@[simp] theorem length_readBytes (mem : BitVec 64 → BitVec 8) (a : BitVec 64) (n : Nat) :
    (readBytes mem a n).length = n := by
  simp [readBytes]

theorem readBytes_add (mem : BitVec 64 → BitVec 8) (a : BitVec 64) (m n : Nat) :
    readBytes mem a (m + n) = readBytes mem a m ++ readBytes mem (a + BitVec.ofNat 64 m) n := by
  rw [readBytes, List.range_add, List.map_append, List.map_map]
  congr 1
  apply List.map_congr_left
  intro i _
  rw [Function.comp_apply, BitVec.ofNat_add, ← BitVec.add_assoc]

/-- Bytes are written in two parts, when they do not go round. -/
theorem writeBytes_append (mem : BitVec 64 → BitVec 8) (a : BitVec 64) {xs ys : List (BitVec 8)}
    (h : xs.length + ys.length ≤ 2 ^ 64) :
    writeBytes (writeBytes mem a xs) (a + BitVec.ofNat 64 xs.length) ys =
      writeBytes mem a (xs ++ ys) := by
  funext x
  rw [writeBytes, writeBytes, writeBytes]
  have hoff : (x - (a + BitVec.ofNat 64 xs.length)).toNat =
      ((x - a).toNat + (2 ^ 64 - xs.length)) % 2 ^ 64 := by
    simp only [BitVec.toNat_sub, BitVec.toNat_add, BitVec.toNat_ofNat]
    omega
  have hlt := (x - a).isLt
  by_cases hd : (x - a).toNat < xs.length
  · rw [List.getElem?_append_left hd, List.getElem?_eq_none (by omega), Option.getD_none,
      List.getElem?_eq_getElem hd, Option.getD_some]
  · rw [List.getElem?_append_right (by omega), List.getElem?_eq_none (l := xs) (by omega),
      Option.getD_none]
    congr 2
    omega

/-- **Read after write.** A word of `n` bytes that was written reads back. -/
theorem read_write_self (mem : BitVec 64 → BitVec 8) (a v : BitVec 64) {n : Nat}
    (hv : v.toNat < 2 ^ (8 * n)) :
    fromBytes (readBytes (writeBytes mem a (toBytes v n)) a n) = v := by
  apply BitVec.eq_of_getLsbD_eq
  intro j hj
  rw [getLsbD_fromBytes_readBytes _ _ _ hj, writeBytes_add (by omega), getElem?_toBytes]
  by_cases hn : j / 8 < n
  · rw [if_pos hn, Option.getD_some, BitVec.getLsbD_setWidth, BitVec.getLsbD_ushiftRight,
      Nat.div_add_mod, decide_eq_true hn, decide_eq_true (Nat.mod_lt j (by decide)), Bool.true_and,
      Bool.true_and]
  · rw [decide_eq_false hn, Bool.false_and, ← BitVec.testBit_toNat, eq_comm]
    apply Nat.testBit_lt_two_pow
    exact Nat.lt_of_lt_of_le hv (Nat.pow_le_pow_right (by decide) (by omega))

/-- The bytes of a range that was written. -/
theorem readBytes_writeBytes (mem : BitVec 64 → BitVec 8) (a : BitVec 64) (bytes : List (BitVec 8))
    (h : bytes.length ≤ 2 ^ 64) : readBytes (writeBytes mem a bytes) a bytes.length = bytes := by
  refine List.ext_getElem? fun i => ?_
  rw [getElem?_readBytes]
  split
  · rename_i hi
    rw [writeBytes_add (by omega), List.getElem?_eq_getElem hi, Option.getD_some]
  · rename_i hi
    rw [List.getElem?_eq_none (Nat.le_of_not_lt hi)]

/-- The value of the bytes of a word. -/
theorem fromBytes_toBytes (v : BitVec 64) : fromBytes (toBytes v 8) = v := by
  apply BitVec.eq_of_getLsbD_eq
  intro j hj
  rw [getLsbD_fromBytes _ hj, getElem?_toBytes, if_pos (by omega), Option.getD_some,
    BitVec.getLsbD_setWidth,
    BitVec.getLsbD_ushiftRight, Nat.div_add_mod, decide_eq_true (Nat.mod_lt j (by decide)),
    Bool.true_and]

/-- A word is at a multiple of its size, which is 4 or 8 bytes. -/
structure Aligned (n : Nat) (a : BitVec 64) : Prop where
  size : n = 4 ∨ n = 8
  dvd : a.toNat % n = 0

/-- Different aligned words do not overlap. -/
theorem Aligned.le_sub {n i : Nat} {a b : BitVec 64} (ha : Aligned n a) (hb : Aligned n b)
    (hne : b ≠ a) (hi : i < n) : n ≤ (b + BitVec.ofNat 64 i - a).toNat := by
  have hne' : b.toNat ≠ a.toNat := fun h => hne (BitVec.eq_of_toNat_eq h)
  have hda := ha.dvd
  have hdb := hb.dvd
  have hal := a.isLt
  have hbl := b.isLt
  rw [BitVec.toNat_sub, BitVec.toNat_add, BitVec.toNat_ofNat]
  rcases ha.size with rfl | rfl <;> omega

/-- **Frame.** A write to an aligned word leaves the other ones. -/
theorem read_write_of_ne (mem : BitVec 64 → BitVec 8) {a b : BitVec 64} (v : BitVec 64) {n : Nat}
    (ha : Aligned n a) (hb : Aligned n b) (hne : b ≠ a) :
    readBytes (writeBytes mem a (toBytes v n)) b n = readBytes mem b n := by
  apply read_congr
  intro i hi
  apply writeBytes_of_le
  rw [length_toBytes]
  exact ha.le_sub hb hne hi

/-! ### The bytes of a word -/

/-- Byte `k` of a word. -/
def getByte (w : BitVec 64) (k : Nat) : BitVec 8 :=
  (w >>> (8 * k)).setWidth 8

/-- A word of which byte `k` is replaced. -/
def setByte (w : BitVec 64) (k : Nat) (b : BitVec 8) : BitVec 64 :=
  fromBytes ((toBytes w 8).set k b)

/-- A byte is replaced with two masks. -/
theorem setByte_eq (w : BitVec 64) {k : Nat} (hk : k < 8) (b : BitVec 8) :
    setByte w k b = (w &&& ~~~(0xff#64 <<< (8 * k))) ||| (b.setWidth 64 <<< (8 * k)) := by
  apply BitVec.eq_of_getLsbD_eq
  intro j hj
  have hff (i : Nat) : (0xff#64 : BitVec 64).getLsbD i = decide (i < 8) := by
    have hmask : (0xff#64 : BitVec 64) = (BitVec.allOnes 8).setWidth 64 := by decide
    rw [hmask, BitVec.getLsbD_setWidth, BitVec.getLsbD_allOnes]
    by_cases hi : i < 8
    · simp [hi, Nat.lt_trans hi (by decide : 8 < 64)]
    · simp [hi]
  rw [setByte, getLsbD_fromBytes _ hj, List.getElem?_set, length_toBytes,
    getElem?_toBytes, BitVec.getLsbD_or,
    BitVec.getLsbD_and, BitVec.getLsbD_not, BitVec.getLsbD_shiftLeft, BitVec.getLsbD_shiftLeft, hff,
    BitVec.getLsbD_setWidth]
  by_cases hkj : k = j / 8
  · -- within the byte
    obtain ⟨i, rfl⟩ : ∃ i, j = 8 * k + i := ⟨j - 8 * k, by omega⟩
    have hi : i < 8 := by omega
    have hmod : (8 * k + i) % 8 = i := by omega
    have hge : ¬ 8 * k + i < 8 * k := by omega
    rw [if_pos hkj, if_pos hk, Nat.add_sub_cancel_left, hmod]
    simp [hi, hj, hge, Nat.lt_trans hi (by decide : 8 < 64)]
  · have hdiv : j / 8 < 8 := by omega
    have hjk : 8 * (j / 8) + j % 8 = j := Nat.div_add_mod j 8
    rw [if_neg hkj, if_pos hdiv, Option.getD_some, BitVec.getLsbD_setWidth,
      BitVec.getLsbD_ushiftRight, hjk]
    by_cases hlt : j < 8 * k
    · simp [hlt, hj, Nat.mod_lt j (by decide : 0 < 8)]
    · have hge : ¬ j - 8 * k < 8 := by omega
      have hb : b.getLsbD (j - 8 * k) = false := BitVec.getLsbD_of_ge _ _ (by omega)
      simp [hlt, hj, hge, hb, Nat.mod_lt j (by decide : 0 < 8)]

/-- A byte of a word that is made of bytes. -/
theorem getByte_fromBytes (bs : List (BitVec 8)) {j : Nat} (hj : j < 8) :
    getByte (fromBytes bs) j = (bs[j]?).getD 0#8 := by
  apply BitVec.eq_of_getLsbD_eq
  intro i hi
  have hdiv : (8 * j + i) / 8 = j := by omega
  have hmod : (8 * j + i) % 8 = i := by omega
  rw [getByte, BitVec.getLsbD_setWidth, BitVec.getLsbD_ushiftRight, getLsbD_fromBytes _ (by omega),
    hdiv, hmod,
    decide_eq_true hi, Bool.true_and]

/-- The bytes of a word of which one is replaced. -/
theorem getByte_setByte (w : BitVec 64) {j k : Nat} (hj : j < 8) (b : BitVec 8) :
    getByte (setByte w k b) j = if k = j then b else getByte w j := by
  rw [setByte, getByte_fromBytes _ hj, List.getElem?_set, length_toBytes,
    getElem?_toBytes, if_pos hj]
  by_cases h : k = j
  · rw [if_pos h, if_pos h, if_pos (h ▸ hj), Option.getD_some]
  · rw [if_neg h, if_neg h, Option.getD_some, getByte]

end Bytes

import Nnemu.Sim.Clint

/-!
# The registers of the CLINT

What a driver sees of `clint_t`: a file of little-endian registers, of which an access moves the
bytes that it addresses. The words of software interrupts have one bit each, and an absent hart has
no registers. Loads and stores of naturally aligned words of the CLINT, for all its ways to decode
an address, are those of the file.
-/

namespace Nnemu

open Bytes

/-- The registers, with the harts that are present. -/
structure ClintRegs where
  mtime : Reg
  mtimecmp : Nat → Reg
  msip : Nat → Bool
  present : Nat → Bool

namespace ClintRegs

variable (r : ClintRegs)

/-- The byte at an address. -/
def byte (a : Nat) : BitVec 8 :=
  if a < 0x4000 then if a % 4 = 0 ∧ r.present (a / 4) ∧ r.msip (a / 4) then 1#8 else 0#8
  else if a < 0xbff8 then
    if r.present ((a - 0x4000) / 8) then getByte (r.mtimecmp ((a - 0x4000) / 8)) (a % 8) else 0#8
  else if a < 0xc000 then getByte r.mtime (a % 8)
  else 0#8

/-- A comparator gets a value. -/
def setMtimecmp (id : Nat) (val : Reg) : ClintRegs :=
  { r with mtimecmp := Function.update r.mtimecmp id val }

/-- A byte is stored. -/
def storeByte (a : Nat) (b : BitVec 8) : ClintRegs :=
  if a < 0x4000 then
    if a % 4 = 0 ∧
      r.present (a / 4) then { r with msip := Function.update r.msip (a / 4) (b.getLsbD 0) } else r
  else if a < 0xbff8 then
    let id := (a - 0x4000) / 8
    if r.present id then r.setMtimecmp id (setByte (r.mtimecmp id) (a % 8) b) else r
  else if a < 0xc000 then { r with mtime := setByte r.mtime (a % 8) b }
  else r

/-- Bytes are stored. -/
def store (r : ClintRegs) (a : Nat) : List (BitVec 8) → ClintRegs
  | [] => r
  | b :: bs => (r.storeByte a b).store (a + 1) bs

/-- Bytes are loaded. -/
def load (a len : Nat) : List (BitVec 8) :=
  (List.range len).map fun i => r.byte (a + i)

/-- Time goes on. -/
def increment (inc : Reg) : ClintRegs :=
  { r with mtime := r.mtime + inc }

theorem setMtimecmp_self (id : Nat) (val : Reg) : (r.setMtimecmp id val).mtimecmp id = val := by
  simp [setMtimecmp]

theorem setMtimecmp_eq_self (id : Nat) : r.setMtimecmp id (r.mtimecmp id) = r := by
  rw [setMtimecmp, Function.update_eq_self]

theorem setMtimecmp_setMtimecmp (id : Nat) (val val' : Reg) :
    (r.setMtimecmp id val).setMtimecmp id val' = r.setMtimecmp id val' := by
  rw [setMtimecmp, setMtimecmp, setMtimecmp, Function.update_idem]

theorem store_append (a : Nat) (xs ys : List (BitVec 8)) :
    r.store a (xs ++ ys) = (r.store a xs).store (a + xs.length) ys := by
  induction xs generalizing r a with
  | nil => rfl
  | cons x xs ih =>
    have hlen : a + (x :: xs).length = a + 1 + xs.length := by
      rw [List.length_cons]
      omega
    rw [List.cons_append, store, store, ih, hlen]

theorem length_load (a len : Nat) : (r.load a len).length = len := by
  rw [load, List.length_map, List.length_range]

theorem load_add (a m n : Nat) : r.load a (m + n) = r.load a m ++ r.load (a + m) n := by
  rw [load, List.range_add, List.map_append, List.map_map]
  congr 1
  apply List.map_congr_left
  intro i _
  rw [Function.comp_apply, Nat.add_assoc]

/-! ### Accesses within a register -/

/-- Behind the registers nothing is stored. -/
theorem store_of_ge {a : Nat} (ha : 0xc000 ≤ a) (bytes : List (BitVec 8)) :
    r.store a bytes = r := by
  induction bytes generalizing a with
  | nil => rfl
  | cons b bs ih =>
    rw [store, storeByte, if_neg (by omega), if_neg (by omega), if_neg (by omega)]
    exact ih (by omega)

/-- Of the bytes of a software interrupt, only the first is stored. -/
theorem store_msip_tail {a : Nat} {bytes : List (BitVec 8)} (ha : a < 0x4000)
    (hin : ∀ i, i < bytes.length → (a + i) / 4 = a / 4 ∧ (a + i) % 4 ≠ 0) :
    r.store a bytes = r := by
  induction bytes generalizing a with
  | nil => rfl
  | cons b bs ih =>
    have h0 := hin 0 (Nat.zero_lt_succ _)
    rw [store, storeByte, if_pos ha, if_neg fun h => h0.2 h.1]
    cases bs with
    | nil => rfl
    | cons b' bs =>
      have h1 := hin 1 (Nat.succ_lt_succ (Nat.zero_lt_succ _))
      refine ih (by omega) fun i hi => ?_
      have hi' := hin (i + 1) (Nat.succ_lt_succ hi)
      rw [Nat.add_assoc, Nat.add_comm 1 i]
      exact ⟨hi'.1.trans h1.1.symm, hi'.2⟩

/-- Bytes are stored to one comparator. -/
theorem store_mtimecmp {id : Nat} (hp : r.present id = true) (hid : id < 0xfff) {addr : Reg}
    {bytes : List (BitVec 8)} (hlt : addr.toNat + bytes.length ≤ 0xc000)
    (hin : ∀ i, i < bytes.length → (addr.toNat + i) / 8 = id + 0x800) :
    r.store addr.toNat bytes =
      r.setMtimecmp id (writeLittleEndianReg 8 (r.mtimecmp id) addr bytes) := by
  induction bytes generalizing r addr with
  | nil => exact (r.setMtimecmp_eq_self id).symm
  | cons b bs ih =>
    rw [List.length_cons] at hlt hin
    have h0 : addr.toNat / 8 = id + 0x800 := hin 0 (Nat.zero_lt_succ _)
    have hone : (addr + 1#64).toNat = addr.toNat + 1 := by
      rw [BitVec.toNat_add, BitVec.toNat_ofNat]
      omega
    have hrest : ∀ i, i < bs.length → ((addr + 1#64).toNat + i) / 8 = id + 0x800 := by
      intro i hi
      rw [hone, Nat.add_assoc, Nat.add_comm 1 i]
      exact hin (i + 1) (Nat.succ_lt_succ hi)
    have hdec : (addr.toNat - 0x4000) / 8 = id := by omega
    have hbyte : r.storeByte addr.toNat b = r.setMtimecmp id
        (setByte (r.mtimecmp id) (addr.toNat % 8) b) := by
      rw [storeByte, if_neg (by omega), if_pos (by omega), hdec]
      exact if_pos hp
    have hbytes := ih (r.setMtimecmp id (setByte (r.mtimecmp id) (addr.toNat % 8) b)) hp
      (by omega) hrest
    rw [store, hbyte, ← hone, hbytes, setMtimecmp_self, setMtimecmp_setMtimecmp,
      writeLittleEndianReg,
      setByte_eq _ (Nat.mod_lt _ (by decide))]

/-- Bytes for the comparator of an absent hart are dropped. -/
theorem store_absent {id : Nat} (hp : ¬ r.present id = true) {a : Nat}
    {bytes : List (BitVec 8)} (hid : id < 0xfff)
    (hlt : a + bytes.length ≤ 0xc000) (hin : ∀ i, i < bytes.length → (a + i) / 8 = id + 0x800) :
    r.store a bytes = r := by
  induction bytes generalizing a with
  | nil => rfl
  | cons b bs ih =>
    rw [List.length_cons] at hlt hin
    have h0 : a / 8 = id + 0x800 := hin 0 (Nat.zero_lt_succ _)
    have hdec : (a - 0x4000) / 8 = id := by omega
    have hbyte : r.storeByte a b = r := by
      rw [storeByte, if_neg (by omega), if_pos (by omega), hdec]
      exact if_neg hp
    rw [store, hbyte]
    refine ih (by omega) fun i hi => ?_
    rw [Nat.add_assoc, Nat.add_comm 1 i]
    exact hin (i + 1) (Nat.succ_lt_succ hi)

/-- Bytes are stored to the time. -/
theorem store_mtime {addr : Reg} {bytes : List (BitVec 8)} (hge : 0xbff8 ≤ addr.toNat)
    (hlt : addr.toNat + bytes.length ≤ 0xc000) :
    r.store addr.toNat bytes = { r with mtime := writeLittleEndianReg 8 r.mtime addr bytes } := by
  induction bytes generalizing r addr with
  | nil => rfl
  | cons b bs ih =>
    rw [List.length_cons] at hlt
    have hone : (addr + 1#64).toNat = addr.toNat + 1 := by
      rw [BitVec.toNat_add, BitVec.toNat_ofNat]
      omega
    rw [store, storeByte, if_neg (by omega), if_neg (by omega), if_pos (by omega), ← hone,
      ih _ (by omega) (by omega), writeLittleEndianReg, setByte_eq _ (Nat.mod_lt _ (by decide))]

/-- Bytes are loaded from a register. -/
theorem load_of_word {size : Nat} {word addr : Reg} {len : Nat}
    (h : ∀ i, i < len → r.byte (addr.toNat + i) = getByte word ((addr.toNat + i) % size)) :
    r.load addr.toNat len = readLittleEndianReg size word addr len := by
  apply List.map_congr_left
  intro i hi
  exact h i (List.mem_range.1 hi)

end ClintRegs

end Nnemu

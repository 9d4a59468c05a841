import Nnemu.Disk.Safety
import Nnemu.Lib.Bytes

/-!
# The register file of the disk

The registers of the disk are forty bytes in little-endian order. An access of up to four bytes that
is naturally aligned falls into one register, and reads or writes the bytes it addresses. One of
eight bytes does not, and fails an assertion.

`byte` gives the forty bytes without mentioning registers, and the theorem is about loads and stores
at every offset and of every length. A store to the command register does more than to store, so its
effect is compared behind the command (`settleStatus`).
-/

namespace Nnemu

open Bytes

/-! ### Bytes of registers -/

/-- The bytes of a register of four bytes of which some are written. -/
theorem getByte_writeLittleEndianReg {w addr : Reg} {bytes : List (BitVec 8)} {k : Nat} (hk : k < 4)
    (hfit : addr.toNat % 4 + bytes.length ≤ 4) :
    getByte (writeLittleEndianReg 4 w addr bytes) k =
      if addr.toNat % 4 ≤ k then (bytes[k - addr.toNat % 4]?).getD (getByte w k)
        else getByte w k := by
  induction bytes generalizing w addr with
  | nil => simp [writeLittleEndianReg]
  | cons b bs ih =>
    rw [List.length_cons] at hfit
    have hset : writeLittleEndianReg 4 w addr (b :: bs) =
        writeLittleEndianReg 4 (setByte w (addr.toNat % 4) b) (addr + 1#64) bs := by
      rw [writeLittleEndianReg, setByte_eq _ (by omega)]
    have hnext : (addr + 1#64).toNat % 4 = (addr.toNat % 4 + 1) % 4 := by
      rw [BitVec.toNat_add, BitVec.toNat_ofNat]
      omega
    rw [hset, ih (by omega), getByte_setByte _ (by omega)]
    obtain hlt | heq | hgt := Nat.lt_trichotomy k (addr.toNat % 4)
    · -- before the first byte
      rw [if_neg (Nat.ne_of_gt hlt), if_neg (Nat.not_le.2 hlt)]
      split
      · rw [List.getElem?_eq_none (by omega), Option.getD_none]
      · rfl
    · -- the first byte
      rw [if_pos heq.symm, if_pos (Nat.le_of_eq heq.symm), heq, Nat.sub_self,
        List.getElem?_cons_zero, Option.getD_some]
      split
      · rw [List.getElem?_eq_none (by omega), Option.getD_none]
      · rfl
    · have hsub : k - addr.toNat % 4 = k - (addr.toNat % 4 + 1) + 1 := by omega
      rw [hnext, Nat.mod_eq_of_lt (by omega), if_neg (Nat.ne_of_lt hgt),
        if_pos (Nat.succ_le_of_lt hgt),
        if_pos (Nat.le_of_lt hgt), hsub, List.getElem?_cons_succ]

namespace SyncDisk

variable {d d' : SyncDisk} {addr : Reg} {bytes : List (BitVec 8)}

/-- Byte `i` of the registers. -/
def byte (d : SyncDisk) (i : Nat) : BitVec 8 :=
  getByte ((d.words.getD (i / 4) 0#32).setWidth 64) (i % 4)

/-- **The addressed bytes**, and no others, have been stored. -/
def Stored (d : SyncDisk) (offset : Nat) (bytes : List (BitVec 8)) (d' : SyncDisk) : Prop :=
  ∀ j, d'.byte j = if offset ≤ j then (bytes[j - offset]?).getD (d.byte j) else d.byte j

/-- The side effect of a store to the status register. -/
def settleStatus (d : SyncDisk) : SyncDisk :=
  { d with errorCode := if d.status = statusIdle then 0#32 else d.errorCode }

/-- A register is written, and the status register has its side effect. -/
theorem write_eq (hlow : 4 ≤ addr.toNat) (hhigh : addr.toNat < 0x20) :
    ∃ d₁ : SyncDisk, d.write addr bytes = some (if addr.toNat < 8 then d₁.settleStatus else d₁) ∧
      d₁.words = d.words.set (addr.toNat / 4)
      (rewrite (d.words.getD (addr.toNat / 4) 0#32) addr bytes) := by
  rw [write]
  simp (disch := decide) only [regOf_eq_iff, Nat.reduceDiv]
  have hstatus : addr.toNat < 8 ↔ addr.toNat / 4 = 1 := by omega
  have hk : 1 ≤ addr.toNat / 4 ∧ addr.toNat / 4 < 8 := by omega
  simp only [hstatus]
  generalize addr.toNat / 4 = k at hk ⊢
  have hcases : k = 1 ∨ k = 2 ∨ k = 3 ∨ k = 4 ∨ k = 5 ∨ k = 6 ∨ k = 7 := by omega
  rcases hcases with rfl | rfl | rfl | rfl | rfl | rfl | rfl
  · exact ⟨{ d with status := rewrite d.status addr bytes }, rfl, rfl⟩
  · exact ⟨{ d with count := rewrite d.count addr bytes }, rfl, rfl⟩
  · exact ⟨{ d with reserved := rewrite d.reserved addr bytes }, rfl, rfl⟩
  · exact ⟨{ d with lbaLow := rewrite d.lbaLow addr bytes }, rfl, rfl⟩
  · exact ⟨{ d with lbaHigh := rewrite d.lbaHigh addr bytes }, rfl, rfl⟩
  · exact ⟨{ d with guestPaLow := rewrite d.guestPaLow addr bytes }, rfl, rfl⟩
  · exact ⟨{ d with guestPaHigh := rewrite d.guestPaHigh addr bytes }, rfl, rfl⟩

/-- The bytes of a register, as they are in a word. -/
theorem getByte_setWidth (x : BitVec 64) {k : Nat} (hk : k < 4) :
    getByte ((x.setWidth 32).setWidth 64) k = getByte x k := by
  apply BitVec.eq_of_getLsbD_eq
  intro i hi
  rw [getByte, getByte, BitVec.getLsbD_setWidth, BitVec.getLsbD_setWidth,
    BitVec.getLsbD_ushiftRight,
    BitVec.getLsbD_ushiftRight, BitVec.getLsbD_setWidth, BitVec.getLsbD_setWidth]
  simp [show 8 * k + i < 64 by omega, show 8 * k + i < 32 by omega]

/-- Which bytes are stored when one register is rewritten. -/
theorem stored_of_words {d₁ : SyncDisk} (hfit : addr.toNat % 4 + bytes.length ≤ 4)
    (hreg : addr.toNat / 4 < 10)
    (h : d₁.words = d.words.set (addr.toNat / 4)
      (rewrite (d.words.getD (addr.toNat / 4) 0#32) addr bytes)) :
    Stored d addr.toNat bytes d₁ := by
  intro j
  have hmod : j % 4 < 4 := Nat.mod_lt _ (by decide)
  by_cases hj : addr.toNat / 4 = j / 4
  · -- the register that is rewritten
    have hlen : j / 4 < d.words.length := by
      rw [← hj]
      exact hreg
    have hword : d₁.words.getD (j / 4) 0#32 = rewrite (d.words.getD (j / 4) 0#32) addr bytes := by
      rw [h, hj, List.getD_eq_getElem?_getD, List.getElem?_set_self hlen, Option.getD_some]
    rw [byte, hword, rewrite, getByte_setWidth _ hmod, getByte_writeLittleEndianReg hmod hfit]
    by_cases hle : addr.toNat % 4 ≤ j % 4
    · have hsub : j % 4 - addr.toNat % 4 = j - addr.toNat := by omega
      rw [if_pos hle, if_pos (by omega), hsub, byte]
    · rw [if_neg hle, if_neg (by omega), byte]
  · -- the others
    have hword : d₁.words.getD (j / 4) 0#32 = d.words.getD (j / 4) 0#32 := by
      rw [h, List.getD_eq_getElem?_getD, List.getElem?_set_ne hj, ← List.getD_eq_getElem?_getD]
    rw [byte, hword, ← byte]
    split
    · rw [List.getElem?_eq_none (by omega), Option.getD_none]
    · rfl

/-- A load that fits a register reads the bytes it addresses. -/
theorem load_fitting {len : Nat} (hfit : addr.toNat % 4 + len ≤ 4) (hlt : addr.toNat < 0x28) :
    d.load addr len = some (some ((List.range len).map fun i => d.byte (addr.toNat + i))) := by
  have hout : SyncDisk.outside addr (BitVec.ofNat 64 len) = false := by
    rw [Bool.eq_false_iff]
    intro hout
    have hgt := (Devices.outside_iff (by omega)).1 hout
    omega
  have hreg : addr.toNat / 4 < d.words.length := by
    show addr.toNat / 4 < 10
    omega
  rw [load, hout, readable_eq, List.getElem?_eq_getElem hreg]
  simp only [Bool.false_eq_true, if_false, if_neg (show ¬4 < len by omega)]
  congr 2
  apply List.map_congr_left
  intro i hi
  have hi' : i < len := List.mem_range.1 hi
  have hdiv : (addr.toNat + i) / 4 = addr.toNat / 4 := by omega
  rw [byte, hdiv, List.getD_eq_getElem?_getD, List.getElem?_eq_getElem hreg]
  rfl

end SyncDisk

/-! ### Accesses of the harts -/

/-- A naturally aligned access that the bus delivers to the window of the disk. -/
structure DiskAccess where
  addr : Reg
  len : Nat
  natural : len = 1 ∨ len = 2 ∨ len = 4 ∨ len = 8
  aligned : addr.toNat % len = 0
  window : Devices.diskBase ≤ addr.toNat ∧ addr.toNat < Devices.diskBase + 0x1000

namespace DiskAccess

/-- The offset in the window. -/
def offset (a : DiskAccess) : Nat :=
  a.addr.toNat - Devices.diskBase

variable {a : DiskAccess}

theorem offset_lt (a : DiskAccess) : a.offset < 0x1000 :=
  Nat.sub_lt_left_of_lt_add a.window.1 a.window.2

/-- The window is aligned, too. -/
theorem offset_aligned (a : DiskAccess) : a.offset % a.len = 0 := by
  have haligned := a.aligned
  have hwindow := a.window
  rw [offset]
  unfold Devices.diskBase at hwindow ⊢
  obtain h | h | h | h := a.natural
  all_goals
    rw [h] at haligned ⊢
    omega

theorem toNat_sub (a : DiskAccess) : (a.addr - BitVec.ofNat 64 Devices.diskBase).toNat = a.offset :=
  Devices.toNat_sub_base a.window.1

/-- An access of up to four bytes fits a register. -/
theorem fits (h : a.len ≠ 8) : a.offset % 4 + a.len ≤ 4 := by
  have haligned := a.offset_aligned
  obtain h' | h' | h' | h' := a.natural
  all_goals
    rw [h'] at haligned ⊢
    omega

end DiskAccess

namespace Devices

variable {s : Devices} {d : SyncDisk} {a : DiskAccess} {bytes : List (BitVec 8)} {host : Host}

/-- The load fails, or returns the bytes that are addressed. Either way nothing changes. -/
def LoadsBytes (s : Devices) (d : SyncDisk) (a : DiskAccess) : Prop :=
  s.busLoad a.addr a.len = some (none, s) ∨
    (a.offset + a.len ≤ 0x28 ∧
      s.busLoad a.addr a.len = some
        (some ((List.range a.len).map fun i => d.byte (a.offset + i)), s))

/-- The store fails and nothing changes, or the bytes that are addressed have been stored, with the
side effects of the command register and of the status register. -/
def StoresBytes (host : Host) (s : Devices) (d : SyncDisk) (a : DiskAccess)
    (bytes : List (BitVec 8)) : Prop :=
  busStore host s a.addr bytes = some (false, s) ∨
    ∃ d₁, d.Stored a.offset bytes d₁ ∧ a.offset + a.len ≤ 0x20 ∧
      ((a.offset < 4 ∧ busStore host s a.addr bytes = s.commandWritten host (storeDeep host 1) d₁ ∧
          ∃ ok s', busStore host s a.addr bytes = some (ok, s') ∧ Keeps d s') ∨
        (4 ≤ a.offset ∧ a.offset < 8 ∧ busStore host s a.addr bytes = some
          (true, s.updateDisk fun _ => d₁.settleStatus)) ∨
        (8 ≤ a.offset ∧ busStore host s a.addr bytes = some (true, s.updateDisk fun _ => d₁)))

theorem busLoad_disk (hdisk : s.disk = some d) (a : DiskAccess) : s.busLoad a.addr a.len =
    (d.load (a.addr - BitVec.ofNat 64 diskBase) a.len).map fun r => (r, s) := by
  rw [busLoad, findDevice_disk hdisk a.window.1 (Nat.lt_trans a.window.2 (by decide))]
  dsimp only [deviceLoad]
  rw [hdisk]

theorem busStore_disk (hdisk : s.disk = some d) (a : DiskAccess) : busStore host s a.addr bytes =
    s.diskStore host (storeDeep host 1) d (a.addr - BitVec.ofNat 64 diskBase) bytes := by
  rw [busStore, storeDeep, storeWith,
    findDevice_disk hdisk a.window.1 (Nat.lt_trans a.window.2 (by decide))]
  dsimp only [deviceStore]
  rw [hdisk]

/-- An access stays in the window. -/
theorem not_outside (a : DiskAccess) :
    SyncDisk.outside (a.addr - BitVec.ofNat 64 diskBase) (BitVec.ofNat 64 a.len) = false := by
  have haligned := a.offset_aligned
  have hlt := a.offset_lt
  rw [Bool.eq_false_iff]
  intro hout
  have hlen : a.len ≤ 8 := by
    obtain h | h | h | h := a.natural <;> omega
  have hgt := (outside_iff (by rw [a.toNat_sub]; omega)).1 hout
  rw [a.toNat_sub] at hgt
  obtain h | h | h | h := a.natural
  all_goals
    rw [h] at haligned hgt
    omega

/-- Loads of the register file. -/
theorem loadsBytes_iff (hdisk : s.disk = some d) (a : DiskAccess) :
    LoadsBytes s d a ↔ ¬(a.len = 8 ∧ a.offset < 0x28) := by
  rw [LoadsBytes, busLoad_disk hdisk]
  by_cases hlen : a.len = 8
  · rw [SyncDisk.load_long (by omega), not_outside, a.toNat_sub, and_iff_right hlen]
    simp only [Bool.false_eq_true, if_false]
    split
    · rename_i hlt
      refine iff_of_false ?_ (not_not.2 hlt)
      rintro (h | ⟨-, h⟩)
      · cases h
      · cases h
    · rename_i hge
      exact iff_of_true (Or.inl rfl) hge
  · refine iff_of_true ?_ fun h => hlen h.1
    have hfit := DiskAccess.fits hlen
    by_cases hlt : a.offset < 0x28
    · refine Or.inr ⟨by omega, ?_⟩
      rw [SyncDisk.load_fitting (by rw [a.toNat_sub]; exact hfit) (by rw [a.toNat_sub]; exact hlt),
        a.toNat_sub]
      rfl
    · have hnone : d.words[a.offset / 4]? = none := by
        rw [List.getElem?_eq_none_iff]
        show 10 ≤ a.offset / 4
        omega
      rw [SyncDisk.load, not_outside, SyncDisk.readable_eq, a.toNat_sub, hnone]
      exact Or.inl rfl

/-- The command register has been written. -/
theorem stored_commanded {addr : Reg} (hlow : addr.toNat < 4)
    (hfit : addr.toNat % 4 + bytes.length ≤ 4) :
    d.Stored addr.toNat bytes (commanded d addr bytes) := by
  have hreg : addr.toNat / 4 = 0 := by omega
  refine SyncDisk.stored_of_words hfit (by omega) ?_
  rw [hreg]
  rfl

/-- A store that fits the command register. -/
theorem storesBytes_cmd_iff (hdisk : s.disk = some d) (a : DiskAccess)
    (hlen : bytes.length = a.len) (hfit : a.len ≠ 8)
    (hlow : a.offset < 4) :
    StoresBytes host s d a bytes ↔
    ¬Crashes host s (commanded d (a.addr - BitVec.ofNat 64 diskBase) bytes) := by
  have hin := a.fits hfit
  have hreg : SyncDisk.regOf (a.addr - BitVec.ofNat 64 diskBase) = 0x00#64 := by
    refine (SyncDisk.regOf_eq_iff (by decide) rfl).2 ?_
    rw [a.toNat_sub]
    omega
  have hstore : busStore host s a.addr bytes =
      s.storeCmd host (storeWith host (storeDeep host 0)) d
        (a.addr - BitVec.ofNat 64 diskBase) bytes := by
    rw [busStore_disk hdisk, diskStore, hlen, not_outside, if_neg Bool.false_ne_true, if_pos hreg]
    rfl
  have hcmd : s.storeCmd host (storeWith host (storeDeep host 0)) d
    (a.addr - BitVec.ofNat 64 diskBase) bytes =
      s.commandWritten host (storeDeep host 1)
        (commanded d (a.addr - BitVec.ofNat 64 diskBase) bytes) := by
    rw [storeCmd, if_neg (by omega)]
    rfl
  have hnone : busStore host s a.addr bytes = none ↔ _ := hstore ▸ storeCmd_eq_none_iff hdisk
  rw [or_iff_right (by omega)] at hnone
  rw [← hnone, StoresBytes]
  refine ⟨?_, fun hsome => ?_⟩
  · rintro (h | ⟨d₁, -, -, ⟨-, -, ok, s', h, -⟩ | ⟨-, -, h⟩ | ⟨-, h⟩⟩)
    all_goals
      rw [h]
      exact Option.some_ne_none _
  · obtain ⟨⟨ok, s'⟩, h⟩ := Option.ne_none_iff_exists'.1 hsome
    have hstored := stored_commanded (d := d) (by rw [a.toNat_sub]; exact hlow)
      (by rw [a.toNat_sub, hlen]; exact hin)
    rw [a.toNat_sub] at hstored
    exact Or.inr ⟨_, hstored, by omega,
      Or.inl ⟨hlow, hstore.trans hcmd, ok, s', h, keeps_storeCmd hdisk (hstore ▸ h)⟩⟩

/-- A store that fits one of the other registers. -/
theorem storesBytes_fitting (hdisk : s.disk = some d) (a : DiskAccess)
    (hlen : bytes.length = a.len) (hfit : a.len ≠ 8)
    (hlow : 4 ≤ a.offset) : StoresBytes host s d a bytes := by
  have hin := a.fits hfit
  have hreg : ¬SyncDisk.regOf (a.addr - BitVec.ofNat 64 diskBase) = 0x00#64 := by
    intro hreg
    have hzero := (SyncDisk.regOf_eq_iff (c := 0) (by decide) rfl).1 hreg
    rw [a.toNat_sub] at hzero
    omega
  have hsub := a.toNat_sub
  rw [StoresBytes, busStore_disk hdisk, diskStore, hlen, not_outside, if_neg Bool.false_ne_true,
    if_neg hreg]
  by_cases hhigh : a.offset < 0x20
  · obtain ⟨d₁, hwrite, hwords⟩ : ∃ d₁,
    d.write (a.addr - BitVec.ofNat 64 diskBase) bytes = some _ ∧ _ :=
      SyncDisk.write_eq (by rw [hsub]; exact hlow) (by rw [hsub]; exact hhigh)
    have hstored := SyncDisk.stored_of_words (by rw [hsub, hlen]; exact hin)
      (by rw [hsub]; omega) hwords
    rw [hsub] at hstored hwrite
    refine Or.inr ⟨d₁, hstored, by omega, Or.inr ?_⟩
    rw [hwrite]
    dsimp only
    rw [if_neg (by omega)]
    by_cases hstatus : a.offset < 8
    · exact Or.inl ⟨hlow, hstatus, by rw [if_pos hstatus]⟩
    · exact Or.inr ⟨Nat.le_of_not_lt hstatus, by rw [if_neg hstatus]⟩
  · have hwrite : d.write (a.addr - BitVec.ofNat 64 diskBase) bytes = none :=
      (SyncDisk.write_eq_none_iff (by rw [hsub]; exact hlow)).2 (by rw [hsub]; omega)
    rw [hwrite]
    exact Or.inl rfl

/-- **Which accesses to the register file are right.** Loads, unless they have eight bytes and meet
a register. Stores, unless they have eight bytes and meet a register that can be written, or start a
command that fails an assertion itself. -/
theorem register_file_iff (host : Host) (s : Devices) (d : SyncDisk) (a : DiskAccess)
    (bytes : List (BitVec 8))
    (hdisk : s.disk = some d) (hlen : bytes.length = a.len) :
    (LoadsBytes s d a ↔ ¬(a.len = 8 ∧ a.offset < 0x28)) ∧
      (StoresBytes host s d a bytes ↔ ¬(a.len = 8 ∧ a.offset < 0x20) ∧
        ¬(a.len ≠ 8 ∧ a.offset < 4 ∧
          Crashes host s (commanded d (a.addr - BitVec.ofNat 64 diskBase) bytes))) := by
  refine ⟨loadsBytes_iff hdisk a, ?_⟩
  by_cases hfit : a.len = 8
  · -- a double word
    rw [and_iff_left fun h => h.1 hfit, and_iff_right hfit, StoresBytes,
      busStore_disk hdisk, diskStore_long (by omega),
      hlen, not_outside, a.toNat_sub, if_neg Bool.false_ne_true]
    split
    · rename_i hlt
      refine iff_of_false ?_ (not_not.2 hlt)
      rintro (h | ⟨d₁, -, -, ⟨-, -, ok, s', h, -⟩ | ⟨-, -, h⟩ | ⟨-, h⟩⟩) <;> cases h
    · rename_i hge
      exact iff_of_true (Or.inl rfl) hge
  · rw [and_iff_right fun h => hfit h.1, and_iff_right hfit]
    by_cases hlow : a.offset < 4
    · rw [storesBytes_cmd_iff hdisk a hlen hfit hlow, and_iff_right hlow]
    · exact iff_of_true (storesBytes_fitting hdisk a hlen hfit (Nat.le_of_not_lt hlow)) fun h =>
        hlow h.1

theorem empty_fits : 0 < 2 ^ 63 := by
  decide

/-- The simulator of a disk that has not been used. -/
def unusedDisk : Devices :=
  ofOneHart (some (zeroImage 0 empty_fits))

/-- The count register. -/
def countAccess : DiskAccess :=
  ⟨0x10001008#64, 4, by decide, by decide, by decide⟩

theorem register_file_count :
    LoadsBytes unusedDisk SyncDisk.new countAccess ∧
      StoresBytes fullHost unusedDisk SyncDisk.new countAccess [1#8, 0#8, 0#8, 0#8] := by
  obtain ⟨hloads, hstores⟩ :=
    register_file_iff fullHost unusedDisk SyncDisk.new countAccess [1#8, 0#8, 0#8, 0#8] rfl rfl
  exact ⟨hloads.2 (by decide), hstores.2 ⟨by decide, fun h => absurd h.2.1 (by decide)⟩⟩

/-- The count register, and the one above it. -/
def wideAccess : DiskAccess :=
  ⟨0x10001008#64, 8, by decide, by decide, by decide⟩

/-- A double word of the register file cannot be loaded: the simulator is gone. -/
theorem not_loadsBytes_wide : ¬LoadsBytes unusedDisk SyncDisk.new wideAccess :=
  fun h => (loadsBytes_iff rfl wideAccess).1 h (by decide)

end Devices

end Nnemu

import Nnemu.Lib.Bits
import Nnemu.Sim.Devices

/-!
# What the disk meets on the bus

The transfers of the disk are longer than any access of a hart. Most devices refuse them; the debug
module and the disk itself have registers where they assert that they do not occur. In particular no
command of the disk starts another one.

The map is searched once for all addresses (`findDevice_cases`), so that a transfer is followed
device by device. That the disk does not start itself again needs that a store of a whole sector to
its registers fails before anything is written.
-/

namespace Nnemu

namespace Devices

variable {s s' : Devices} {addr : Reg}

/-! ### Routes -/

/-- The devices below the disk. -/
def lowMap : List (Nat × Device) :=
  [] ++ [(debugStart, .debug)] ++ [(romBase, .rom)] ++ [(clintBase, .clint)] ++
    [(plicBase, .plic)] ++ [(uartBase, .uart)]

theorem map_eq : s.map = (lowMap ++ if s.disk.isSome then [(diskBase, .disk)] else []) ++
    [(vgaBase, .vga)] ++
    [(flashBase, .flash)] ++ [(dramBase, .dram)] := by
  rw [List.append_assoc, List.append_assoc]
  rfl

/-- **Routes.** The addresses that each device receives: those from its own base up to the next
one. -/
theorem findDevice_eq : s.findDevice addr =
    if dramBase ≤ addr.toNat then some (dramBase, .dram)
    else if flashBase ≤ addr.toNat then some (flashBase, .flash)
    else if vgaBase ≤ addr.toNat then some (vgaBase, .vga)
    else if s.disk.isSome ∧ diskBase ≤ addr.toNat then some (diskBase, .disk)
    else if uartBase ≤ addr.toNat then some (uartBase, .uart)
    else if plicBase ≤ addr.toNat then some (plicBase, .plic)
    else if clintBase ≤ addr.toNat then some (clintBase, .clint)
    else if romBase ≤ addr.toNat then some (romBase, .rom)
    else some (debugStart, .debug) := by
  have hlow : Routing.find lowMap addr.toNat =
      if uartBase ≤ addr.toNat then some (uartBase, .uart)
      else if plicBase ≤ addr.toNat then some (plicBase, .plic)
      else if clintBase ≤ addr.toNat then some (clintBase, .clint)
      else if romBase ≤ addr.toNat then some (romBase, .rom)
      else some (debugStart, .debug) := by
    have hfirst : debugStart ≤ addr.toNat := Nat.zero_le _
    rw [lowMap, Routing.find_concat, Routing.find_concat, Routing.find_concat, Routing.find_concat,
      Routing.find_concat, if_pos hfirst]
  rw [findDevice, map_eq, Routing.find_concat, Routing.find_concat, Routing.find_concat, ← hlow]
  cases s.disk with
  | none => simp only [Option.isSome_none, Bool.false_eq_true, if_false, false_and, List.append_nil]
  | some d => simp only [Option.isSome_some, if_true, true_and, Routing.find_concat]

/-- The same, as a list of cases. -/
theorem findDevice_cases (s : Devices) (addr : Reg) :
    (0x80000000 ≤ addr.toNat ∧ s.findDevice addr = some (dramBase, .dram)) ∨
    ((0x30000000 ≤ addr.toNat ∧ addr.toNat < 0x80000000) ∧
      s.findDevice addr = some (flashBase, .flash)) ∨
    ((0x21000000 ≤ addr.toNat ∧ addr.toNat < 0x30000000) ∧
      s.findDevice addr = some (vgaBase, .vga)) ∨
    ((∃ d, s.disk = some d) ∧ (0x10001000 ≤ addr.toNat ∧ addr.toNat < 0x21000000) ∧
      s.findDevice addr = some (diskBase, .disk)) ∨
    ((0x10000000 ≤ addr.toNat ∧ addr.toNat < 0x21000000 ∧
      (s.disk = none ∨ addr.toNat < 0x10001000)) ∧
      s.findDevice addr = some (uartBase, .uart)) ∨
    ((0xc000000 ≤ addr.toNat ∧ addr.toNat < 0x10000000) ∧
      s.findDevice addr = some (plicBase, .plic)) ∨
    ((0x2000000 ≤ addr.toNat ∧ addr.toNat < 0xc000000) ∧
      s.findDevice addr = some (clintBase, .clint)) ∨
    ((0x1000 ≤ addr.toNat ∧ addr.toNat < 0x2000000) ∧ s.findDevice addr = some (romBase, .rom)) ∨
    (addr.toNat < 0x1000 ∧ s.findDevice addr = some (debugStart, .debug)) := by
  rw [findDevice_eq]
  by_cases hdram : dramBase ≤ addr.toNat
  · exact Or.inl ⟨hdram, if_pos hdram⟩
  refine Or.inr ?_
  rw [if_neg hdram]
  by_cases hflash : flashBase ≤ addr.toNat
  · exact Or.inl ⟨⟨hflash, Nat.lt_of_not_le hdram⟩, if_pos hflash⟩
  refine Or.inr ?_
  rw [if_neg hflash]
  by_cases hvga : vgaBase ≤ addr.toNat
  · exact Or.inl ⟨⟨hvga, Nat.lt_of_not_le hflash⟩, if_pos hvga⟩
  refine Or.inr ?_
  rw [if_neg hvga]
  by_cases hdisk : s.disk.isSome ∧ diskBase ≤ addr.toNat
  · exact Or.inl ⟨Option.isSome_iff_exists.1 hdisk.1, ⟨hdisk.2, Nat.lt_of_not_le hvga⟩,
      if_pos hdisk⟩
  refine Or.inr ?_
  rw [if_neg hdisk]
  by_cases huart : uartBase ≤ addr.toNat
  · have hnext : s.disk = none ∨ addr.toNat < diskBase := by
      obtain hnone | hlt := not_and_or.1 hdisk
      · exact Or.inl (Option.not_isSome_iff_eq_none.1 hnone)
      · exact Or.inr (Nat.lt_of_not_le hlt)
    exact Or.inl ⟨⟨huart, Nat.lt_of_not_le hvga, hnext⟩, if_pos huart⟩
  refine Or.inr ?_
  rw [if_neg huart]
  by_cases hplic : plicBase ≤ addr.toNat
  · exact Or.inl ⟨⟨hplic, Nat.lt_of_not_le huart⟩, if_pos hplic⟩
  refine Or.inr ?_
  rw [if_neg hplic]
  by_cases hclint : clintBase ≤ addr.toNat
  · exact Or.inl ⟨⟨hclint, Nat.lt_of_not_le hplic⟩, if_pos hclint⟩
  refine Or.inr ?_
  rw [if_neg hclint]
  by_cases hrom : romBase ≤ addr.toNat
  · exact Or.inl ⟨⟨hrom, Nat.lt_of_not_le hclint⟩, if_pos hrom⟩
  · exact Or.inr ⟨Nat.lt_of_not_le hrom, if_neg hrom⟩

/-- The disk receives what is below the frame buffer. -/
theorem findDevice_disk {d : SyncDisk} (hdisk : s.disk = some d) (hlow : diskBase ≤ addr.toNat)
    (hhigh : addr.toNat < vgaBase) : s.findDevice addr = some (diskBase, .disk) := by
  have hflash : ¬flashBase ≤ addr.toNat := Nat.not_le.2 (Nat.lt_trans hhigh (by decide))
  have hdram : ¬dramBase ≤ addr.toNat := Nat.not_le.2 (Nat.lt_trans hhigh (by decide))
  rw [findDevice_eq, if_neg hdram, if_neg hflash, if_neg (Nat.not_le.2 hhigh),
    if_pos ⟨by rw [hdisk]; rfl, hlow⟩]

end Devices

/-! ### The registers of the disk -/

namespace SyncDisk

variable {d d' : SyncDisk} {addr : Reg}

theorem toNat_regOf (addr : Reg) : (regOf addr).toNat = addr.toNat / 4 * 4 :=
  Bits.toNat_and_not_lowMask addr 2

theorem regOf_eq_iff {c : Nat} (hlt : c < 2 ^ 64) (hc : c % 4 = 0) :
    regOf addr = BitVec.ofNat 64 c ↔ addr.toNat / 4 = c / 4 := by
  rw [← BitVec.toNat_inj, toNat_regOf, BitVec.toNat_ofNat, Nat.mod_eq_of_lt hlt]
  omega

/-- The registers, in the order of their addresses. -/
def words (d : SyncDisk) : List (BitVec 32) :=
  [d.cmd, d.status, d.count, d.reserved, d.lbaLow, d.lbaHigh, d.guestPaLow,
    d.guestPaHigh, d.errorCode,
    d.lastResultBytes]

/-- A load reads the register at the address. -/
theorem readable_eq (d : SyncDisk) (addr : Reg) :
    d.readable (regOf addr) = d.words[addr.toNat / 4]? := by
  rw [readable]
  simp (disch := decide) only [regOf_eq_iff, Nat.reduceDiv]
  generalize addr.toNat / 4 = k
  have hcases : k = 0 ∨ k = 1 ∨ k = 2 ∨ k = 3 ∨ k = 4 ∨ k = 5 ∨ k = 6 ∨
      k = 7 ∨ k = 8 ∨ k = 9 ∨ 10 ≤ k := by omega
  rcases hcases with rfl | rfl | rfl | rfl | rfl | rfl | rfl | rfl | rfl | rfl | hk
  iterate 10 rfl
  rw [List.getElem?_eq_none hk]
  iterate 10 rw [if_neg (by omega)]

/-- The registers that can be written. -/
theorem write_eq_none_iff {bytes : List (BitVec 8)} (hcmd : 4 ≤ addr.toNat) :
    d.write addr bytes = none ↔ 0x20 ≤ addr.toNat := by
  rw [write]
  simp (disch := decide) only [regOf_eq_iff, Nat.reduceDiv]
  split_ifs <;> simp <;> omega

end SyncDisk
/-! ### Long accesses -/

namespace SyncDisk

variable {d : SyncDisk} {addr : Reg} {len : Nat}

/-- A load that does not fit a register. -/
theorem load_long (hlong : 4 < len) : d.load addr len =
    if outside addr (BitVec.ofNat 64 len) then some none else if addr.toNat < 0x28 then none
      else some none := by
  rw [load, readable_eq]
  split
  · rfl
  · by_cases hlt : addr.toNat < 0x28
    · have hreg : addr.toNat / 4 < d.words.length := by
        show addr.toNat / 4 < 10
        omega
      rw [if_pos hlt, List.getElem?_eq_getElem hreg]
    · have hreg : d.words.length ≤ addr.toNat / 4 := by
        show 10 ≤ addr.toNat / 4
        omega
      rw [if_neg hlt, List.getElem?_eq_none hreg]

end SyncDisk

namespace Devices

variable {s s' : Devices} {d : SyncDisk} {addr : Reg} {bytes : List (BitVec 8)}
  {host : Host} {store : BusStore}

/-- A store that does not fit a register. -/
theorem diskStore_long (hlong : 4 < bytes.length) : s.diskStore host store d addr bytes =
    if SyncDisk.outside addr (BitVec.ofNat 64 bytes.length) then some (false, s)
    else if addr.toNat < 0x20 then none else some (false, s) := by
  rw [diskStore]
  split
  · rfl
  · split
    · -- the command register
      rename_i hcmd
      have hlow : addr.toNat / 4 = 0 := (SyncDisk.regOf_eq_iff (by decide) rfl).1 hcmd
      rw [if_pos (by omega), storeCmd, if_pos hlong]
    · rename_i hcmd
      have hlow : 4 ≤ addr.toNat := by
        have hne : ¬addr.toNat / 4 = 0 := mt (SyncDisk.regOf_eq_iff (c := 0) (by decide) rfl).2 hcmd
        omega
      by_cases hlt : addr.toNat < 0x20
      · cases hwrite : d.write addr bytes with
        | none => exact absurd ((SyncDisk.write_eq_none_iff hlow).1 hwrite) (Nat.not_le.2 hlt)
        | some d' => simp only [if_pos hlt]
      · rw [(SyncDisk.write_eq_none_iff hlow).2 (Nat.le_of_not_lt hlt), if_neg hlt]

/-- The debug module asserts that the harts write four bytes to the words by which they answer. -/
theorem debug_store_eq_none_iff {m : DebugModule} {addr : Nat} (hlong : 128 ≤ bytes.length) :
    m.store addr bytes = none ↔ addr = 0x100 ∨ addr = 0x104 ∨ addr = 0x108 := by
  have houtside {start size : Nat} (hsize : size < 128) :
      DebugModule.inRegion start size addr bytes.length = false := by
    rw [DebugModule.inRegion, Bool.and_eq_false_iff, decide_eq_false_iff_not,
      decide_eq_false_iff_not]
    omega
  have hbuffer : m.config.programBufferBytes < 128 := by
    have hfits := m.config.fits
    rw [DmConfig.programBufferBytes]
    omega
  have hlen : bytes.length ≠ 4 := by omega
  simp only [DebugModule.store, houtside hbuffer,
    houtside (show DebugModule.dmDatasize * 4 < 128 by decide),
    Bool.false_eq_true, if_false, if_neg hlen, DebugModule.debugRomHalted,
    DebugModule.debugRomGoing,
    DebugModule.debugRomResuming]
  have hother (h₁ : ¬addr = 0x100) (h₂ : ¬addr = 0x104) (h₃ : ¬addr = 0x108) :
      ¬(addr = 0x100 ∨ addr = 0x104 ∨ addr = 0x108) :=
    fun h => h.elim h₁ fun h => h.elim h₂ h₃
  split_ifs with h₁ h₂ h₃
  · exact iff_of_true rfl (Or.inl h₁)
  · exact iff_of_true rfl (Or.inr (Or.inl h₂))
  · exact iff_of_true rfl (Or.inr (Or.inr h₃))
  all_goals exact iff_of_false (by simp) (hother h₁ h₂ h₃)

/-- Stores to the disk are the only ones that use the bus again. -/
theorem storeWith_eq_of_disk {store' : BusStore}
    (h : ∀ d offset, s.diskStore host store d offset bytes =
      s.diskStore host store' d offset bytes) :
    storeWith host store s addr bytes = storeWith host store' s addr bytes := by
  rw [storeWith, storeWith]
  cases s.findDevice addr with
  | none => rfl
  | some entry =>
    cases hdev : entry.2 with
    | disk =>
      simp only [hdev, deviceStore]
      cases s.disk with
      | none => rfl
      | some d => exact h d _
    | _ => simp only [hdev, deviceStore]

/-- **Commands are not nested.** What a long access would do with the disk's own stores does not
matter. -/
theorem storeWith_congr (store' : BusStore) (hlong : 4 < bytes.length) :
    storeWith host store s addr bytes = storeWith host store' s addr bytes :=
  storeWith_eq_of_disk fun _ _ => (diskStore_long hlong).trans (diskStore_long hlong).symm

/-- The bytes that a command reads from the image, with zeros past its end. -/
theorem length_buffer {image : Image} {n : Nat} {offset : Int} {got : List (BitVec 8)}
    (h : host.pread image n offset = .ok got) :
    (got ++ List.replicate (n - got.length) 0#8).length = n := by
  rw [List.length_append, List.length_replicate, Nat.add_sub_cancel' (host.length_pread h)]

/-- A command moves whole sectors. -/
theorem sectorSize_le_totalBytes (h : d.count ≠ 0#32) : SyncDisk.sectorSize ≤ d.totalBytes := by
  have hpos : 0 < d.count.toNat := Nat.pos_of_ne_zero fun hzero => h (BitVec.eq_of_toNat_eq hzero)
  exact Nat.le_mul_of_pos_left _ hpos

/-- A command uses the bus for long stores only. -/
theorem executeCommand_congr {store' : BusStore}
    (h : ∀ s addr bytes, 4 < bytes.length → store s addr bytes = store' s addr bytes) :
    s.executeCommand host store d = s.executeCommand host store' d := by
  rw [executeCommand, executeCommand]
  split
  · rfl
  · rename_i hcount
    have hread : s.executeRead host store d = s.executeRead host store' d := by
      rw [executeRead, executeRead]
      cases hgot : host.pread s.image d.totalBytes d.offset with
      | error errno => rfl
      | ok got =>
        dsimp only
        rw [h]
        rw [length_buffer hgot]
        exact Nat.lt_of_lt_of_le (by decide) (sectorSize_le_totalBytes hcount)
    rw [hread]

/-- What the disk uses the bus for matters for long stores only. -/
theorem storeWith_agree {store' : BusStore}
    (h : ∀ s addr bytes, 4 < bytes.length → store s addr bytes = store' s addr bytes) :
    storeWith host store s addr bytes = storeWith host store' s addr bytes := by
  refine storeWith_eq_of_disk fun d offset => ?_
  simp only [diskStore, storeCmd, commandWritten, executeCommand_congr h]

/-- **One level is enough.** A store starts a command at most, and the command no other one. -/
theorem storeWith_storeWith (store' : BusStore) :
    storeWith host (storeWith host store) s addr bytes =
      storeWith host (storeWith host store') s addr bytes :=
  storeWith_agree fun _ _ _ hlong => storeWith_congr store' hlong

/-- `storeDeep` is deep enough. -/
theorem storeDeep_eq (host : Host) (n : Nat) : storeDeep host (n + 2) = storeDeep host 2 := by
  funext s addr bytes
  exact storeWith_storeWith _

/-! ### Transfers that fail an assertion -/

/-- A long load fails an assertion: it meets the registers of the disk. -/
def LoadAborts (pa : Reg) (n : Nat) : Prop :=
  diskBase ≤ pa.toNat ∧ pa.toNat < diskBase + 0x28 ∧ pa.toNat + n ≤ diskBase + 0x1000

/-- A long store fails an assertion: it meets the registers of the disk, or the words by which the
harts answer to the debug module. -/
def StoreAborts (pa : Reg) (n : Nat) : Prop :=
  (pa = 0x100#64 ∨ pa = 0x104#64 ∨ pa = 0x108#64) ∨
    (diskBase ≤ pa.toNat ∧ pa.toNat < diskBase + 0x20 ∧ pa.toNat + n ≤ diskBase + 0x1000)

/-- An access is outside the window of the disk. -/
theorem outside_iff {len : Nat} (hlt : addr.toNat + len < 2 ^ 64) :
    SyncDisk.outside addr (BitVec.ofNat 64 len) = true ↔ 0x1000 < addr.toNat + len := by
  have hsum : (addr + BitVec.ofNat 64 len).toNat = addr.toNat + len := by
    rw [BitVec.toNat_add, BitVec.toNat_ofNat]
    omega
  rw [SyncDisk.outside, Bool.or_eq_true, decide_eq_true_iff, decide_eq_true_iff,
    BitVec.lt_def, gt_iff_lt, BitVec.lt_def,
    hsum]
  show _ ∨ 0x1000 < _ ↔ _
  omega

/-- Where an address lies in the window of its device. -/
theorem toNat_sub_base {base : Nat} (h : base ≤ addr.toNat) :
    (addr - BitVec.ofNat 64 base).toNat = addr.toNat - base := by
  have hlt := addr.isLt
  rw [BitVec.toNat_sub, BitVec.toNat_ofNat]
  omega

/-- The timer refuses what is longer than a double word. -/
theorem clint_load_long {c : Clint} {len : Nat} (hlong : 8 < len) :
    c.load addr len = (none, c) := by
  rw [Clint.load, if_neg fun h => absurd h.1 (by omega), Clint.loadWord, if_pos hlong]

theorem clint_store_long {c : Clint} (hlong : 8 < bytes.length) :
    c.store addr bytes = (false, c) := by
  rw [Clint.store, if_neg fun h => absurd h.1 (by omega), Clint.storeWord, if_pos hlong]

theorem afterClint_self {α : Type} (r : α) :
    s.afterClint (r, s.clint) = some (r, s.withClint s.clint s.running) :=
  dif_pos s.running

/-- **Long loads** are safe but for the registers of the disk. -/
theorem busLoad_eq_none_iff {pa : Reg} {n : Nat} (hdisk : s.disk = some d)
    (hlong : 8 < n) (hlt : n < 2 ^ 32) :
    s.busLoad pa n = none ↔ LoadAborts pa n := by
  have hother (h : pa.toNat < 0x10001000 ∨ 0x21000000 ≤ pa.toNat) : ¬LoadAborts pa n := by
    rintro ⟨hge, hlow, -⟩
    unfold diskBase at hge hlow
    omega
  have hbelow (h : s.disk = none ∨ pa.toNat < 0x10001000) : pa.toNat < 0x10001000 :=
    h.resolve_left (by rw [hdisk]; exact Option.some_ne_none d)
  rw [busLoad]
  obtain ⟨hle, hroute⟩ | ⟨hle, hroute⟩ | ⟨hle, hroute⟩ | ⟨-, hle, hroute⟩ |
    ⟨hle, hroute⟩ | ⟨hle, hroute⟩ | ⟨hle, hroute⟩ |
    ⟨hle, hroute⟩ | ⟨hle, hroute⟩ := findDevice_cases s pa
  all_goals rw [hroute]
  all_goals dsimp only [deviceLoad]
  · exact iff_of_false (Option.some_ne_none _) (hother (by omega))
  · exact iff_of_false (Option.some_ne_none _) (hother (by omega))
  · exact iff_of_false (Option.some_ne_none _) (hother (by omega))
  · -- the disk itself
    have hsub : (pa - BitVec.ofNat 64 diskBase).toNat = pa.toNat - 0x10001000 :=
      toNat_sub_base hle.1
    have hout : SyncDisk.outside (pa - BitVec.ofNat 64 diskBase) (BitVec.ofNat 64 n) = true ↔
        0x1000 < pa.toNat - 0x10001000 + n := by
      rw [outside_iff (by rw [hsub]; omega), hsub]
    rw [hdisk]
    dsimp only
    rw [Option.map_eq_none_iff, SyncDisk.load_long (by omega), hsub, LoadAborts]
    unfold diskBase at hout ⊢
    split
    · rename_i hwindow
      rw [hout] at hwindow
      exact iff_of_false (Option.some_ne_none _) (by omega)
    · rename_i hwindow
      rw [hout] at hwindow
      split
      · exact iff_of_true rfl (by omega)
      · exact iff_of_false (Option.some_ne_none _) (by omega)
  · exact iff_of_false (Option.some_ne_none _) (hother (Or.inl (hbelow hle.2.2)))
  · exact iff_of_false (Option.some_ne_none _) (hother (by omega))
  · rw [clint_load_long hlong, afterClint_self]
    exact iff_of_false (Option.some_ne_none _) (hother (by omega))
  · exact iff_of_false (Option.some_ne_none _) (hother (by omega))
  · exact iff_of_false (Option.some_ne_none _) (hother (by omega))

/-- **Long stores** are safe but for the registers of the disk and the words of the debug module. -/
theorem storeWith_eq_none_iff {pa : Reg} (hdisk : s.disk = some d) (hlong : 128 ≤ bytes.length)
    (hlt : bytes.length < 2 ^ 32) : storeWith host store s pa bytes = none ↔
    StoreAborts pa bytes.length := by
  -- an address behind the debug module is none of its words
  have hne {c : Nat} (hc : c < 0x1000) (h : 0x1000 ≤ pa.toNat) : ¬pa = BitVec.ofNat 64 c := by
    rintro rfl
    rw [BitVec.toNat_ofNat] at h
    omega
  have hother (hdebug : 0x1000 ≤ pa.toNat) (h : pa.toNat < 0x10001000 ∨ 0x21000000 ≤ pa.toNat) :
      ¬StoreAborts pa bytes.length := by
    rintro ((heq | heq | heq) | ⟨hge, hlow, -⟩)
    · exact hne (by decide) hdebug heq
    · exact hne (by decide) hdebug heq
    · exact hne (by decide) hdebug heq
    · unfold diskBase at hge hlow
      omega
  have hbelow (h : s.disk = none ∨ pa.toNat < 0x10001000) : pa.toNat < 0x10001000 :=
    h.resolve_left (by rw [hdisk]; exact Option.some_ne_none d)
  rw [storeWith]
  -- device by device, in the order of their bases
  obtain ⟨hle, hroute⟩ | ⟨hle, hroute⟩ | ⟨hle, hroute⟩ | ⟨-, hle, hroute⟩ |
    ⟨hle, hroute⟩ | ⟨hle, hroute⟩ | ⟨hle, hroute⟩ |
    ⟨hle, hroute⟩ | ⟨hle, hroute⟩ := findDevice_cases s pa
  all_goals rw [hroute]
  all_goals dsimp only [deviceStore]
  · exact iff_of_false (Option.some_ne_none _) (hother (by omega) (by omega))
  · exact iff_of_false (Option.some_ne_none _) (hother (by omega) (by omega))
  · exact iff_of_false (Option.some_ne_none _) (hother (by omega) (by omega))
  · -- the disk itself
    have hsub : (pa - BitVec.ofNat 64 diskBase).toNat = pa.toNat - 0x10001000 :=
      toNat_sub_base hle.1
    have hout : SyncDisk.outside (pa - BitVec.ofNat 64 diskBase)
      (BitVec.ofNat 64 bytes.length) = true ↔
        0x1000 < pa.toNat - 0x10001000 + bytes.length := by
      rw [outside_iff (by rw [hsub]; omega), hsub]
    have hwords : ¬(pa = 0x100#64 ∨ pa = 0x104#64 ∨ pa = 0x108#64) := by
      rintro (heq | heq | heq)
      · exact hne (by decide) (by omega) heq
      · exact hne (by decide) (by omega) heq
      · exact hne (by decide) (by omega) heq
    rw [hdisk]
    dsimp only
    rw [diskStore_long (by omega), hsub, StoreAborts, or_iff_right hwords]
    unfold diskBase at hout ⊢
    split
    · rename_i hwindow
      rw [hout] at hwindow
      exact iff_of_false (Option.some_ne_none _) (by omega)
    · rename_i hwindow
      rw [hout] at hwindow
      split
      · exact iff_of_true rfl (by omega)
      · exact iff_of_false (Option.some_ne_none _) (by omega)
  · exact iff_of_false (Option.some_ne_none _) (hother (by omega) (Or.inl (hbelow hle.2.2)))
  · exact iff_of_false (Option.some_ne_none _) (hother (by omega) (by omega))
  · rw [clint_store_long (by omega), afterClint_self]
    exact iff_of_false (Option.some_ne_none _) (hother (by omega) (by omega))
  · exact iff_of_false (Option.some_ne_none _) (hother (by omega) (by omega))
  · -- the debug module
    have heq {c : Nat} (hc : c < 0x1000) : (pa - BitVec.ofNat 64 debugStart).toNat = c ↔
        pa = BitVec.ofNat 64 c := by
      have hsub : (pa - BitVec.ofNat 64 debugStart).toNat = pa.toNat - 0 :=
        toNat_sub_base (Nat.zero_le _)
      rw [hsub, ← BitVec.toNat_inj, BitVec.toNat_ofNat]
      omega
    have hdisk' : ¬(diskBase ≤ pa.toNat ∧ pa.toNat < diskBase + 0x20 ∧
        pa.toNat + bytes.length ≤ diskBase + 0x1000) := by
      unfold diskBase
      omega
    rw [Option.map_eq_none_iff, debug_store_eq_none_iff hlong, heq (by decide),
      heq (by decide), heq (by decide),
      StoreAborts, or_iff_left hdisk']

/-! ### Transfers leave the registers of the disk -/

@[simp] theorem disk_withPlic (p : Plic) : (s.withPlic p).disk = s.disk := rfl

@[simp] theorem disk_withClint (c : Clint) (h : c.aborted = false) :
    (s.withClint c h).disk = s.disk := rfl

@[simp] theorem disk_withUart (u : Uart) (drives : Bool) : (s.withUart u drives).disk = s.disk := by
  rw [withUart]
  dsimp only
  split <;> rfl

theorem disk_afterClint {α : Type} {r : α × Clint} {x : α} (h : s.afterClint r = some (x, s')) :
    s'.disk = s.disk := by
  rw [afterClint] at h
  split at h <;> cases h
  rfl

theorem disk_busLoad {pa : Reg} {n : Nat} {r : LoadResult} (h : s.busLoad pa n = some (r, s')) :
    s'.disk = s.disk := by
  rw [busLoad] at h
  obtain ⟨-, hroute⟩ | ⟨-, hroute⟩ | ⟨-, hroute⟩ | ⟨⟨d, hdisk⟩, -, hroute⟩ |
    ⟨-, hroute⟩ | ⟨-, hroute⟩ | ⟨-, hroute⟩ |
    ⟨-, hroute⟩ | ⟨-, hroute⟩ := findDevice_cases s pa
  all_goals rw [hroute] at h
  all_goals dsimp only [deviceLoad] at h
  · cases h; rfl
  · cases h; rfl
  · cases h; rfl
  · rw [hdisk] at h
    obtain ⟨r', -, heq⟩ := Option.map_eq_some_iff.1 h
    cases heq
    rfl
  · cases h
    exact disk_withUart _ _
  · cases h; rfl
  · exact disk_afterClint h
  · cases h; rfl
  · cases h; rfl

theorem disk_storeWith {pa : Reg} {ok : Bool} (hlong : 4 < bytes.length)
    (h : storeWith host store s pa bytes = some (ok, s')) : s'.disk = s.disk := by
  rw [storeWith] at h
  obtain ⟨-, hroute⟩ | ⟨-, hroute⟩ | ⟨-, hroute⟩ | ⟨⟨d, hdisk⟩, -, hroute⟩ |
    ⟨-, hroute⟩ | ⟨-, hroute⟩ | ⟨-, hroute⟩ |
    ⟨-, hroute⟩ | ⟨-, hroute⟩ := findDevice_cases s pa
  all_goals rw [hroute] at h
  all_goals dsimp only [deviceStore] at h
  · cases h; rfl
  · cases h; rfl
  · cases h; rfl
  · rw [hdisk] at h
    dsimp only at h
    rw [diskStore_long hlong] at h
    split_ifs at h <;> cases h <;> rfl
  · cases h
    exact disk_withUart _ _
  · cases h; rfl
  · exact disk_afterClint h
  · cases h; rfl
  · obtain ⟨r, -, heq⟩ := Option.map_eq_some_iff.1 h
    cases heq
    rfl

end Devices

end Nnemu

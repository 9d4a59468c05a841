import Nnemu.Disk.Transfer
import Nnemu.Memory.Refine
import Nnemu.Sim.Platform

/-!
# Transfers to memory

What a transfer of the disk does when its address designates memory, or no device at all. Memory is
the flash and the DRAM. A transfer that does not lie within one of them changes nothing.

Whether a range of addresses meets memory is decided by the map of the bus (`find_of_maps`), and
`ramByte` is the byte of memory at an address, of either kind. A transfer within one of the two
reads or changes exactly its range (`busLoad_ram`, `storeWith_ram`).
-/

namespace Nnemu

open Bytes

namespace Devices

variable {s s' : Devices} {d : SyncDisk} {pa : Reg} {n base : Nat} {dev : Device}
  {bytes : List (BitVec 8)} {host : Host}
  {store : BusStore}

/-! ### Windows -/

/-- A route to a window. -/
theorem maps_of_find (h : s.findDevice pa = some (base, dev))
    (hlt : pa.toNat < base + s.windowSize dev) : s.Maps pa dev :=
  ⟨base, Routing.find_mem h, Routing.find_le h, hlt⟩

/-- Windows do not overlap: what lies in the window of a device goes to this device. -/
theorem find_of_maps (hplat : OnPlatform s) (h : s.Maps pa dev) :
    ∃ base, s.findDevice pa = some (base, dev) ∧ pa.toNat < base + s.windowSize dev := by
  obtain ⟨base, hmem, hle, hlt⟩ := h
  have hrom := hplat.rom
  have hflash : s.flash.sz.toNat = 0x10000000 := by rw [hplat.flash]; rfl
  have hdram : s.dram.sz.toNat = 0x10000000 := by rw [hplat.dram]; rfl
  simp only [map, List.mem_append, List.mem_cons, Prod.mk.injEq, List.not_mem_nil,
    or_false, List.mem_ite_nil_right] at hmem
  unfold romBase clintBase at hrom
  by_cases hdisk : dev = .disk
  · subst hdisk
    obtain ((h | h | h | h | h) | ⟨hsome, rfl, -⟩) | h | h | h := hmem
    all_goals try cases h.2
    obtain ⟨d, hd⟩ := Option.isSome_iff_exists.1 hsome
    exact ⟨_, findDevice_disk hd hle
      (Nat.lt_trans hlt (by decide : diskBase + 0x1000 < vgaBase)), hlt⟩
  · rw [findDevice_eq]
    obtain ((⟨rfl, rfl⟩ | ⟨rfl, rfl⟩ | ⟨rfl, rfl⟩ | ⟨rfl, rfl⟩ | ⟨rfl, rfl⟩) | ⟨-, -, h⟩) |
      ⟨rfl, rfl⟩ | ⟨rfl, rfl⟩ |
      ⟨rfl, rfl⟩ := hmem
    case inl.inr => exact absurd h hdisk
    all_goals
      refine ⟨_, ?_, hlt⟩
      dsimp only [windowSize] at hlt
      unfold debugStart romBase clintBase plicBase uartBase diskBase vgaBase flashBase dramBase at *
      split_ifs
      all_goals first
        | rfl
        | exfalso
          omega

/-! ### Memory -/

/-- The byte at an address of memory: in the DRAM from its base on, and in the flash below. -/
def ramByte (s : Devices) (addr : Reg) : BitVec 8 :=
  if dramBase ≤ addr.toNat then s.dram.byte (addr - BitVec.ofNat 64 dramBase)
  else if flashBase ≤ addr.toNat then s.flash.byte (addr - BitVec.ofNat 64 flashBase)
  else 0#8

/-- A range lies within one of the memories. -/
def InRam (s : Devices) (pa : Reg) (n : Nat) : Prop :=
  (dramBase ≤ pa.toNat ∧ pa.toNat + n ≤ dramBase + s.dram.sz.toNat) ∨
    (flashBase ≤ pa.toNat ∧ pa.toNat + n ≤ flashBase + s.flash.sz.toNat)

instance : Decidable (s.InRam pa n) :=
  inferInstanceAs (Decidable (_ ∨ _))

/-- An address designates memory, or is not mapped. -/
def RamOrUnmapped (s : Devices) (pa : Reg) : Prop :=
  s.Maps pa .flash ∨ s.Maps pa .dram ∨ ∀ dev, ¬s.Maps pa dev

/-- Below the memories, an address that designates memory or nothing is beyond the window of the
device that receives it. -/
theorem beyond_window (hplat : OnPlatform s) (hpa : s.RamOrUnmapped pa)
    (hroute : s.findDevice pa = some (base, dev))
    (hflash : dev ≠ .flash) (hdram : dev ≠ .dram) : base + s.windowSize dev ≤ pa.toNat := by
  by_contra hlt
  obtain hmaps | hmaps | hmaps := hpa
  · obtain ⟨base', hroute', -⟩ := find_of_maps hplat hmaps
    cases hroute.symm.trans hroute'
    exact hflash rfl
  · obtain ⟨base', hroute', -⟩ := find_of_maps hplat hmaps
    cases hroute.symm.trans hroute'
    exact hdram rfl
  · exact hmaps dev (maps_of_find hroute (Nat.lt_of_not_le hlt))

/-- The address of a byte in the window of a memory. -/
theorem sub_base_add (pa base i : Reg) : pa - base + i = pa + i - base := by
  bv_omega

/-- The bytes of a write, wherever the window begins. -/
theorem writeBytes_window (f : Reg → BitVec 8) (base a : Reg) :
    writeBytes f (pa - base) bytes (a - base) = (bytes[(a - pa).toNat]?).getD (f (a - base)) := by
  have hsub : a - base - (pa - base) = a - pa := by bv_omega
  rw [writeBytes, hsub]

/-- An address that a write does not reach. -/
theorem length_le_sub {a : Reg} (hfit : pa.toNat + n ≤ 2 ^ 64)
    (h : a.toNat < pa.toNat ∨ pa.toNat + n ≤ a.toNat) :
    n ≤ (a - pa).toNat := by
  have ha := a.isLt
  have hpa := pa.isLt
  rw [BitVec.toNat_sub]
  omega

/-- A load of memory by the bus reads the bytes of memory. -/
theorem readBytes_dram (hle : dramBase ≤ pa.toNat) (hfit : pa.toNat + n ≤ 2 ^ 64) :
    readBytes s.dram.byte (pa - BitVec.ofNat 64 dramBase) n = readBytes s.ramByte pa n := by
  rw [readBytes, readBytes]
  apply List.map_congr_left
  intro i hi
  have hi' : i < n := List.mem_range.1 hi
  have hge : dramBase ≤ (pa + BitVec.ofNat 64 i).toNat := by
    rw [BitVec.toNat_add, BitVec.toNat_ofNat]
    omega
  rw [ramByte, if_pos hge, sub_base_add]

theorem readBytes_flash (hle : flashBase ≤ pa.toNat) (hfit : pa.toNat + n ≤ dramBase) :
    readBytes s.flash.byte (pa - BitVec.ofNat 64 flashBase) n = readBytes s.ramByte pa n := by
  rw [readBytes, readBytes]
  apply List.map_congr_left
  intro i hi
  have hi' : i < n := List.mem_range.1 hi
  unfold dramBase at hfit
  have hsum : (pa + BitVec.ofNat 64 i).toNat = pa.toNat + i := by
    rw [BitVec.toNat_add, BitVec.toNat_ofNat]
    omega
  have hlt : ¬dramBase ≤ (pa + BitVec.ofNat 64 i).toNat := by
    unfold dramBase
    omega
  have hge : flashBase ≤ (pa + BitVec.ofNat 64 i).toNat := by omega
  rw [ramByte, if_neg hlt, if_pos hge, sub_base_add]

/-- The DRAM has changed. -/
def withDram (s : Devices) (m : Mem) : Devices :=
  { s with dram := m }

/-- The flash has changed. -/
def withFlash (s : Devices) (m : Mem) : Devices :=
  { s with flash := m }

/-- A store to the DRAM writes bytes of memory. -/
theorem ramByte_withDram {m : Mem} (hle : dramBase ≤ pa.toNat)
    (hfit : pa.toNat + bytes.length ≤ 2 ^ 64)
    (hm : m.byte = writeBytes s.dram.byte (pa - BitVec.ofNat 64 dramBase) bytes) :
    (s.withDram m).ramByte = writeBytes s.ramByte pa bytes := by
  funext a
  rw [ramByte]
  by_cases hge : dramBase ≤ a.toNat
  · rw [if_pos hge, withDram, hm, writeBytes_window, writeBytes, ramByte, if_pos hge]
  · rw [if_neg hge, writeBytes_of_le (length_le_sub hfit (Or.inl (by omega))), ramByte, if_neg hge]
    rfl

/-- A store to the flash writes bytes of memory. -/
theorem ramByte_withFlash {m : Mem} (hle : flashBase ≤ pa.toNat)
    (hfit : pa.toNat + bytes.length ≤ dramBase)
    (hm : m.byte = writeBytes s.flash.byte (pa - BitVec.ofNat 64 flashBase) bytes) :
    (s.withFlash m).ramByte = writeBytes s.ramByte pa bytes := by
  have hround : pa.toNat + bytes.length ≤ 2 ^ 64 := Nat.le_trans hfit (by decide)
  funext a
  rw [ramByte]
  by_cases hdram : dramBase ≤ a.toNat
  · rw [if_pos hdram, writeBytes_of_le (length_le_sub hround (Or.inr (by omega))),
      ramByte, if_pos hdram]
    rfl
  · by_cases hge : flashBase ≤ a.toNat
    · rw [if_neg hdram, if_pos hge, withFlash, hm, writeBytes_window, writeBytes,
        ramByte, if_neg hdram, if_pos hge]
    · rw [if_neg hdram, if_neg hge, writeBytes_of_le (length_le_sub hround (Or.inl (by omega))),
        ramByte, if_neg hdram,
        if_neg hge]

/-! ### Transfers -/

/-- A load of a memory, as one of the array that it stands for. -/
theorem mem_load (m : Mem) (offset : Reg) (hn : n < 2 ^ 64) :
    (m.load offset (BitVec.ofNat 64 n)).1 =
        (if offset.toNat + n ≤ m.sz.toNat then some (readBytes m.byte offset n) else none) ∧
      (m.load offset (BitVec.ofNat 64 n)).2.byte = m.byte := by
  have hlen : (BitVec.ofNat 64 n).toNat = n := by rw [BitVec.toNat_ofNat, Nat.mod_eq_of_lt hn]
  by_cases hfit : offset.toNat + n ≤ m.sz.toNat
  · obtain ⟨hbytes, hflat⟩ := Mem.loadLoop_eq m offset n
    rw [Mem.load, if_neg fun hr => Mem.rejects_iff.1 hr (hlen.symm ▸ hfit), if_pos hfit, hlen]
    exact ⟨congrArg some hbytes, congrArg Flat.byte hflat⟩
  · rw [Mem.load, if_pos (Mem.rejects_iff.2 (hlen.symm ▸ hfit)), if_neg hfit]
    exact ⟨rfl, rfl⟩

/-- A store to a memory. -/
theorem mem_store (m : Mem) (offset : Reg) (hn : bytes.length < 2 ^ 64) :
    (m.store offset bytes).1 = decide (offset.toNat + bytes.length ≤ m.sz.toNat) ∧
      (m.store offset bytes).2.byte =
        if offset.toNat + bytes.length ≤ m.sz.toNat then writeBytes m.byte offset bytes
          else m.byte := by
  have hlen : (BitVec.ofNat 64 bytes.length).toNat = bytes.length :=
    by rw [BitVec.toNat_ofNat, Nat.mod_eq_of_lt hn]
  by_cases hfit : offset.toNat + bytes.length ≤ m.sz.toNat
  · have hflat := Mem.storeLoop_eq m offset bytes (Nat.le_of_lt hn)
    rw [Mem.store, if_neg fun hr => Mem.rejects_iff.1 hr (hlen.symm ▸ hfit),
      if_pos hfit, decide_eq_true hfit]
    exact ⟨rfl, congrArg Flat.byte hflat⟩
  · rw [Mem.store, if_pos (Mem.rejects_iff.2 (hlen.symm ▸ hfit)), if_neg hfit, decide_eq_false hfit]
    exact ⟨rfl, rfl⟩

/-- What a transfer to memory leaves alone in any case. -/
structure SameRest (s s' : Devices) : Prop where
  image : s'.image = s.image
  disk : s'.disk = s.disk
  debug : s'.debug = s.debug
  vga : s'.vga = s.vga

/-- The same memory, too. -/
structure SameStore (s s' : Devices) : Prop extends SameRest s s' where
  ram : s'.ramByte = s.ramByte

theorem SameStore.refl (s : Devices) : SameStore s s :=
  ⟨⟨rfl, rfl, rfl, rfl⟩, rfl⟩

/-- Memory is the same when the DRAM and the flash hold the same bytes. -/
theorem ramByte_congr (hdram : s'.dram.byte = s.dram.byte) (hflash : s'.flash.byte = s.flash.byte) :
    s'.ramByte = s.ramByte := by
  funext a
  rw [ramByte, ramByte, hdram, hflash]

/-- A long load from beyond the window of a device. -/
theorem busLoad_beyond (hplat : OnPlatform s) (hlong : 8 < n) (hlt : n < 2 ^ 32)
    (hroute : s.findDevice pa = some (base, dev)) (hflash : dev ≠ .flash) (hdram : dev ≠ .dram)
    (hbeyond : base + s.windowSize dev ≤ pa.toNat) :
    ∃ s', s.busLoad pa n = some (none, s') ∧ SameStore s s' := by
  rw [busLoad, hroute]
  dsimp only
  obtain ⟨hle, h⟩ | ⟨hle, h⟩ | ⟨hle, h⟩ | ⟨⟨d, hdisk⟩, hle, h⟩ | ⟨hle, h⟩ |
    ⟨hle, h⟩ | ⟨hle, h⟩ | ⟨hle, h⟩ | ⟨hle, h⟩ :=
    findDevice_cases s pa
  all_goals cases hroute.symm.trans h
  all_goals dsimp only [windowSize, deviceLoad] at hbeyond ⊢
  · exact absurd rfl hdram
  · exact absurd rfl hflash
  · -- the frame buffer
    have hsub : (pa - BitVec.ofNat 64 vgaBase).toNat = pa.toNat - 0x21000000 := toNat_sub_base hle.1
    have hfits := s.vga.fits
    unfold vgaBase at hbeyond
    have hout : pa - BitVec.ofNat 64 vgaBase + BitVec.ofNat 64 n > s.vga.fbSize := by
      rw [gt_iff_lt, BitVec.lt_def, BitVec.toNat_add, hsub, BitVec.toNat_ofNat]
      omega
    rw [Vga.load, if_pos hout]
    exact ⟨s, rfl, SameStore.refl s⟩
  · -- the disk
    have hsub : (pa - BitVec.ofNat 64 diskBase).toNat = pa.toNat - 0x10001000 :=
      toNat_sub_base hle.1
    unfold diskBase at hbeyond
    have hout : SyncDisk.outside (pa - BitVec.ofNat 64 diskBase) (BitVec.ofNat 64 n) = true :=
      (outside_iff (by omega)).2 (by omega)
    rw [hdisk]
    dsimp only
    rw [SyncDisk.load, if_pos hout]
    exact ⟨s, rfl, SameStore.refl s⟩
  · -- the serial port
    have hwidth : s.uart.regIoWidth ≠ n := by
      rw [hplat.uart]
      omega
    have hidle : s.uart.loadDrives (pa - BitVec.ofNat 64 uartBase) n = false := by
      rw [Uart.loadDrives, Bool.and_eq_false_iff]
      exact Or.inl (beq_eq_false_iff_ne.2 hwidth)
    rw [Uart.load, if_pos hwidth, hidle]
    exact ⟨_, rfl, SameStore.refl s⟩
  · rw [Plic.load, if_neg (by omega), if_neg (by omega)]
    exact ⟨_, rfl, ⟨⟨rfl, rfl, rfl, rfl⟩, rfl⟩⟩
  · rw [clint_load_long hlong, afterClint_self]
    exact ⟨_, rfl, ⟨⟨rfl, rfl, rfl, rfl⟩, rfl⟩⟩
  · -- the boot ROM
    have hsub : (pa - BitVec.ofNat 64 romBase).toNat = pa.toNat - 0x1000 := toNat_sub_base hle.1
    have hrom := hplat.rom
    unfold romBase clintBase at hrom
    unfold romBase at hbeyond
    have hout : pa - BitVec.ofNat 64 romBase + BitVec.ofNat 64 n >
        BitVec.ofNat 64 s.rom.length := by
      rw [gt_iff_lt, BitVec.lt_def, BitVec.toNat_add, hsub, BitVec.toNat_ofNat, BitVec.toNat_ofNat]
      omega
    rw [romLoad, if_pos hout]
    exact ⟨s, rfl, SameStore.refl s⟩
  · unfold debugStart at hbeyond
    omega

/-- A long store beyond the window of a device. -/
theorem storeWith_beyond (hplat : OnPlatform s) (hlong : 8 < bytes.length)
    (hlt : bytes.length < 2 ^ 32)
    (hroute : s.findDevice pa = some (base, dev)) (hflash : dev ≠ .flash) (hdram : dev ≠ .dram)
    (hbeyond : base + s.windowSize dev ≤ pa.toNat) :
    ∃ s', storeWith host store s pa bytes = some (false, s') ∧ SameStore s s' := by
  rw [storeWith, hroute]
  dsimp only
  obtain ⟨hle, h⟩ | ⟨hle, h⟩ | ⟨hle, h⟩ | ⟨⟨d, hdisk⟩, hle, h⟩ | ⟨hle, h⟩ |
    ⟨hle, h⟩ | ⟨hle, h⟩ | ⟨hle, h⟩ | ⟨hle, h⟩ :=
    findDevice_cases s pa
  all_goals cases hroute.symm.trans h
  all_goals dsimp only [windowSize, deviceStore] at hbeyond ⊢
  · exact absurd rfl hdram
  · exact absurd rfl hflash
  · -- the frame buffer
    have hsub : (pa - BitVec.ofNat 64 vgaBase).toNat = pa.toNat - 0x21000000 := toNat_sub_base hle.1
    have hfits := s.vga.fits
    unfold vgaBase at hbeyond
    have hout : pa - BitVec.ofNat 64 vgaBase + BitVec.ofNat 64 bytes.length > s.vga.fbSize := by
      rw [gt_iff_lt, BitVec.lt_def, BitVec.toNat_add, hsub, BitVec.toNat_ofNat]
      omega
    rw [Vga.store, if_pos hout]
    exact ⟨_, rfl, SameStore.refl s⟩
  · -- the disk
    have hsub : (pa - BitVec.ofNat 64 diskBase).toNat = pa.toNat - 0x10001000 :=
      toNat_sub_base hle.1
    unfold diskBase at hbeyond
    have hout : SyncDisk.outside (pa - BitVec.ofNat 64 diskBase)
      (BitVec.ofNat 64 bytes.length) = true :=
      (outside_iff (by omega)).2 (by omega)
    rw [hdisk]
    dsimp only
    rw [diskStore, if_pos hout]
    exact ⟨s, rfl, SameStore.refl s⟩
  · -- the serial port
    have hwidth : s.uart.regIoWidth ≠ bytes.length := by
      rw [hplat.uart]
      omega
    have hidle : s.uart.storeDrives (pa - BitVec.ofNat 64 uartBase) bytes.length = false := by
      rw [Uart.storeDrives, Bool.and_eq_false_iff]
      exact Or.inl (beq_eq_false_iff_ne.2 hwidth)
    rw [Uart.store, if_pos hwidth, hidle]
    exact ⟨_, rfl, SameStore.refl s⟩
  · rw [Plic.store, if_neg (by omega), if_neg (by omega)]
    exact ⟨_, rfl, ⟨⟨rfl, rfl, rfl, rfl⟩, rfl⟩⟩
  · rw [clint_store_long hlong, afterClint_self]
    exact ⟨_, rfl, ⟨⟨rfl, rfl, rfl, rfl⟩, rfl⟩⟩
  · exact ⟨s, rfl, SameStore.refl s⟩
  · unfold debugStart at hbeyond
    omega

/-- What lies within a memory goes to it. -/
theorem dev_of_inRam (hplat : OnPlatform s) (hin : s.InRam pa n) (hpos : 0 < n)
    (hroute : s.findDevice pa = some (base, dev)) :
    dev = .dram ∨ dev = .flash := by
  have hmaps : s.Maps pa .dram ∨ s.Maps pa .flash := by
    obtain ⟨hle, hlt⟩ | ⟨hle, hlt⟩ := hin
    · exact Or.inl ⟨dramBase, by simp [map], hle, by dsimp only [windowSize]; omega⟩
    · exact Or.inr ⟨flashBase, by simp [map], hle, by dsimp only [windowSize]; omega⟩
  obtain h | h := hmaps
  · obtain ⟨base', hroute', -⟩ := find_of_maps hplat h
    cases hroute.symm.trans hroute'
    exact Or.inl rfl
  · obtain ⟨base', hroute', -⟩ := find_of_maps hplat h
    cases hroute.symm.trans hroute'
    exact Or.inr rfl

/-- What lies within a memory, by the offset in its window. -/
theorem inRam_iff_dram (hplat : OnPlatform s) (hle : dramBase ≤ pa.toNat) :
    s.InRam pa n ↔ (pa - BitVec.ofNat 64 dramBase).toNat + n ≤ s.dram.sz.toNat := by
  have hflash : s.flash.sz.toNat = 0x10000000 := by rw [hplat.flash]; rfl
  rw [InRam, toNat_sub_base hle, hflash]
  unfold dramBase flashBase at *
  omega

theorem inRam_iff_flash (hle : flashBase ≤ pa.toNat) (hlt : pa.toNat < dramBase) :
    s.InRam pa n ↔ (pa - BitVec.ofNat 64 flashBase).toNat + n ≤ s.flash.sz.toNat := by
  rw [InRam, toNat_sub_base hle]
  unfold dramBase flashBase at *
  omega

/-- The flash ends below the DRAM. -/
theorem le_dramBase_of_fits (hplat : OnPlatform s) (hle : flashBase ≤ pa.toNat)
    (hfit : (pa - BitVec.ofNat 64 flashBase).toNat + n ≤ s.flash.sz.toNat) :
    pa.toNat + n ≤ dramBase := by
  have hflash : s.flash.sz.toNat = 0x10000000 := by rw [hplat.flash]; rfl
  rw [toNat_sub_base hle, hflash] at hfit
  unfold dramBase flashBase at *
  omega

/-- **A long load** from memory, or from nowhere. -/
theorem busLoad_ram (hplat : OnPlatform s) (hpa : s.RamOrUnmapped pa) (hlong : 8 < n)
    (hlt : n < 2 ^ 32) :
    ∃ s', s.busLoad pa n = some (if s.InRam pa n then some (readBytes s.ramByte pa n) else none,
      s') ∧ SameStore s s' := by
  have hpos : 0 < n := by omega
  have hround : n < 2 ^ 64 := by omega
  obtain ⟨hle, hroute⟩ | ⟨⟨hle, hnext⟩, hroute⟩ | hother := findDevice_cases s pa
  · -- the DRAM
    obtain ⟨hbytes, hbyte⟩ := mem_load s.dram (pa - BitVec.ofNat 64 dramBase) hround
    refine ⟨s.withDram (s.dram.load (pa - BitVec.ofNat 64 dramBase) (BitVec.ofNat 64 n)).2, ?_,
      ⟨⟨rfl, rfl, rfl, rfl⟩, ramByte_congr hbyte rfl⟩⟩
    rw [busLoad, hroute]
    dsimp only [deviceLoad]
    rw [hbytes]
    simp only [inRam_iff_dram hplat hle]
    by_cases hfit : (pa - BitVec.ofNat 64 dramBase).toNat + n ≤ s.dram.sz.toNat
    · have hsz : s.dram.sz.toNat = 0x10000000 := by rw [hplat.dram]; rfl
      have hsub : (pa - BitVec.ofNat 64 dramBase).toNat = pa.toNat - 0x80000000 :=
        toNat_sub_base hle
      rw [if_pos hfit, if_pos hfit, readBytes_dram hle (by omega)]
      rfl
    · rw [if_neg hfit, if_neg hfit]
      rfl
  · -- the flash
    obtain ⟨hbytes, hbyte⟩ := mem_load s.flash (pa - BitVec.ofNat 64 flashBase) hround
    refine ⟨s.withFlash (s.flash.load (pa - BitVec.ofNat 64 flashBase) (BitVec.ofNat 64 n)).2, ?_,
      ⟨⟨rfl, rfl, rfl, rfl⟩, ramByte_congr rfl hbyte⟩⟩
    rw [busLoad, hroute]
    dsimp only [deviceLoad]
    rw [hbytes]
    simp only [inRam_iff_flash hle hnext]
    by_cases hfit : (pa - BitVec.ofNat 64 flashBase).toNat + n ≤ s.flash.sz.toNat
    · rw [if_pos hfit, if_pos hfit, readBytes_flash hle (le_dramBase_of_fits hplat hle hfit)]
      rfl
    · rw [if_neg hfit, if_neg hfit]
      rfl
  · -- the others
    obtain ⟨base, dev, hroute, hflash, hdram⟩ :
        ∃ base dev, s.findDevice pa = some (base, dev) ∧ dev ≠ .flash ∧ dev ≠ .dram := by
      obtain ⟨-, h⟩ | ⟨-, -, h⟩ | ⟨-, h⟩ | ⟨-, h⟩ | ⟨-, h⟩ | ⟨-, h⟩ | ⟨-, h⟩ := hother
      all_goals exact ⟨_, _, h, by decide, by decide⟩
    obtain ⟨s', hload, hsame⟩ := busLoad_beyond hplat hlong hlt hroute hflash hdram
      (beyond_window hplat hpa hroute hflash hdram)
    have hnot : ¬s.InRam pa n := fun hin => (dev_of_inRam hplat hin hpos hroute).elim hdram hflash
    rw [if_neg hnot]
    exact ⟨s', hload, hsame⟩

/-- **A long store** to memory, or to nowhere. -/
theorem storeWith_ram (hplat : OnPlatform s) (hpa : s.RamOrUnmapped pa) (hlong : 8 < bytes.length)
    (hlt : bytes.length < 2 ^ 32) :
    ∃ s', storeWith host store s pa bytes = some (decide (s.InRam pa bytes.length), s') ∧
      s'.ramByte = (if s.InRam pa bytes.length then writeBytes s.ramByte pa bytes else s.ramByte) ∧
      SameRest s s' := by
  have hpos : 0 < bytes.length := by omega
  have hround : bytes.length < 2 ^ 64 := by omega
  obtain ⟨hle, hroute⟩ | ⟨⟨hle, hnext⟩, hroute⟩ | hother := findDevice_cases s pa
  · -- the DRAM
    obtain ⟨hok, hbyte⟩ := mem_store s.dram (pa - BitVec.ofNat 64 dramBase) hround
    refine ⟨s.withDram (s.dram.store (pa - BitVec.ofNat 64 dramBase) bytes).2,
      ?_, ?_, ⟨rfl, rfl, rfl, rfl⟩⟩
    · rw [storeWith, hroute]
      dsimp only [deviceStore]
      rw [hok]
      simp only [inRam_iff_dram hplat hle]
      rfl
    · simp only [inRam_iff_dram hplat hle]
      by_cases hfit : (pa - BitVec.ofNat 64 dramBase).toNat + bytes.length ≤ s.dram.sz.toNat
      · have hsz : s.dram.sz.toNat = 0x10000000 := by rw [hplat.dram]; rfl
        have hsub : (pa - BitVec.ofNat 64 dramBase).toNat = pa.toNat - 0x80000000 :=
          toNat_sub_base hle
        rw [if_pos hfit] at hbyte ⊢
        exact ramByte_withDram hle (by omega) hbyte
      · rw [if_neg hfit] at hbyte ⊢
        exact ramByte_congr hbyte rfl
  · -- the flash
    obtain ⟨hok, hbyte⟩ := mem_store s.flash (pa - BitVec.ofNat 64 flashBase) hround
    refine ⟨s.withFlash (s.flash.store (pa - BitVec.ofNat 64 flashBase) bytes).2,
      ?_, ?_, ⟨rfl, rfl, rfl, rfl⟩⟩
    · rw [storeWith, hroute]
      dsimp only [deviceStore]
      rw [hok]
      simp only [inRam_iff_flash hle hnext]
      rfl
    · simp only [inRam_iff_flash hle hnext]
      by_cases hfit : (pa - BitVec.ofNat 64 flashBase).toNat + bytes.length ≤ s.flash.sz.toNat
      · rw [if_pos hfit] at hbyte ⊢
        exact ramByte_withFlash hle (le_dramBase_of_fits hplat hle hfit) hbyte
      · rw [if_neg hfit] at hbyte ⊢
        exact ramByte_congr rfl hbyte
  · -- the others
    obtain ⟨base, dev, hroute, hflash, hdram⟩ :
        ∃ base dev, s.findDevice pa = some (base, dev) ∧ dev ≠ .flash ∧ dev ≠ .dram := by
      obtain ⟨-, h⟩ | ⟨-, -, h⟩ | ⟨-, h⟩ | ⟨-, h⟩ | ⟨-, h⟩ | ⟨-, h⟩ | ⟨-, h⟩ := hother
      all_goals exact ⟨_, _, h, by decide, by decide⟩
    obtain ⟨s', hstore, hsame⟩ :=
      storeWith_beyond hplat hlong hlt hroute hflash hdram
        (beyond_window hplat hpa hroute hflash hdram)
    have hnot : ¬s.InRam pa bytes.length :=
      fun hin => (dev_of_inRam hplat hin hpos hroute).elim hdram hflash
    rw [if_neg hnot, decide_eq_false hnot]
    exact ⟨s', hstore, hsame.ram, hsame.toSameRest⟩

end Devices

end Nnemu

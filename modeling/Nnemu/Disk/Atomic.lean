import Nnemu.Disk.Memory
import Nnemu.Disk.Safety

/-!
# Commands of the disk are done or not done

A command either moves all sectors and reports success, or moves nothing and reports an error,
provided that the host does the same with the file. There is one way to go wrong: the offset in the
file is computed modulo 2^64, so that sectors far beyond the end are those at the beginning.

A command is `Done` or `Failed`, both described in full: which bytes have moved, and what the status
register says. `Misplaced` is the case in which the wrapped offset lies inside the file although the
sector does not. Of the host it is asked that it reads up to the end of the file, and writes
everything or nothing (`Host.Regular`).
-/

namespace Nnemu

open Bytes

/-! ### The file -/

/-- The bytes of a file when data has been written at an offset. A gap is filled with zeros. -/
def patch (old : List (BitVec 8)) (offset : Nat) (data : List (BitVec 8)) : List (BitVec 8) :=
  if data = [] then old
  else (old ++ List.replicate (offset - old.length) 0#8).take offset ++
    data ++ old.drop (offset + data.length)

/-- A range of a file, with zeros past the end. -/
def Image.range (image : Image) (start n : Nat) : List (BitVec 8) :=
  (List.range n).map fun i => (image.bytes[start + i]?).getD 0#8

/-- A host that reads up to the end of the file, and writes everything or nothing. It rejects
negative offsets. -/
structure Host.Regular (host : Host) : Prop where
  pread_neg : ∀ image n offset, offset < 0 → ∃ errno, errno ≠ 0#32 ∧
    host.pread image n offset = .error errno
  pread : ∀ image n offset, 0 ≤ offset →
    host.pread image n offset = .ok ((image.bytes.drop offset.toNat).take n)
  pwrite_neg : ∀ image data offset, offset < 0 →
    ∃ errno, errno ≠ 0#32 ∧ host.pwrite image data offset = (.error errno, image)
  pwrite : ∀ image data offset, 0 ≤ offset →
    (∃ errno, errno ≠ 0#32 ∧ host.pwrite image data offset = (.error errno, image)) ∨
      ∃ image', host.pwrite image data offset = (.ok data.length, image') ∧
        image'.bytes = patch image.bytes offset.toNat data

@[simp] theorem Image.length_range (image : Image) (start n : Nat) :
    (image.range start n).length = n := by
  rw [Image.range, List.length_map, List.length_range]

theorem Image.getElem?_range {image : Image} {start n i : Nat} (hi : i < n) :
    (image.range start n)[i]? = some ((image.bytes[start + i]?).getD 0#8) := by
  rw [Image.range, List.getElem?_map, List.getElem?_range hi, Option.map_some]

/-- What is read from the file, with zeros past its end. -/
theorem Image.range_eq (image : Image) (start n : Nat) :
    (image.bytes.drop start).take n ++
    List.replicate (n - ((image.bytes.drop start).take n).length) 0#8 =
      image.range start n := by
  apply List.ext_getElem?
  intro i
  by_cases hi : i < n
  · rw [Image.getElem?_range hi]
    by_cases hin : start + i < image.bytes.length
    · rw [List.getElem?_append_left (by rw [List.length_take, List.length_drop]; omega),
        List.getElem?_take_of_lt hi,
        List.getElem?_drop, List.getElem?_eq_getElem hin, Option.getD_some]
    · have hlen : ((image.bytes.drop start).take n).length ≤ i := by
        rw [List.length_take, List.length_drop]
        omega
      rw [List.getElem?_append_right hlen, List.getElem?_replicate, if_pos (by omega),
        List.getElem?_eq_none (by omega),
        Option.getD_none]
  · have hlen : (image.range start n).length ≤ i := by
      rw [Image.length_range]
      omega
    rw [List.getElem?_eq_none hlen, List.getElem?_eq_none]
    rw [List.length_append, List.length_replicate, List.length_take]
    omega

/-- A range that lies past the end of every file. -/
theorem Image.range_of_le {image : Image} {start n : Nat} (h : 2 ^ 63 ≤ start) :
    image.range start n = List.replicate n 0#8 := by
  have hsized := image.sized
  apply List.ext_getElem?
  intro i
  by_cases hi : i < n
  · rw [Image.getElem?_range hi, List.getElem?_replicate, if_pos hi,
      List.getElem?_eq_none (by omega), Option.getD_none]
  · rw [List.getElem?_eq_none (by rw [Image.length_range]; omega), List.getElem?_replicate,
      if_neg hi]

/-- A range of zeros. -/
theorem Image.range_eq_zeros_iff {image : Image} {start n : Nat} :
    image.range start n = List.replicate n 0#8 ↔
    ¬∃ i < n, (image.bytes[start + i]?).getD 0#8 ≠ 0#8 := by
  constructor
  · rintro h ⟨i, hi, hne⟩
    have hbyte : (image.range start n)[i]? = _ := Image.getElem?_range hi
    rw [h, List.getElem?_replicate, if_pos hi] at hbyte
    exact hne (Option.some.inj hbyte).symm
  · intro h
    apply List.ext_getElem?
    intro i
    by_cases hi : i < n
    · rw [Image.getElem?_range hi, List.getElem?_replicate, if_pos hi]
      by_contra hne
      exact h ⟨i, hi, fun hzero => hne (congrArg some hzero)⟩
    · rw [List.getElem?_eq_none (by rw [Image.length_range]; omega), List.getElem?_replicate,
        if_neg hi]

/-- A file reaches as far as what has been written to it. -/
theorem le_length_patch {old data : List (BitVec 8)} {offset : Nat} (h : data ≠ []) :
    offset + data.length ≤ (patch old offset data).length := by
  rw [patch, if_neg h]
  simp only [List.length_append, List.length_take, List.length_replicate]
  omega

/-! ### Offsets -/

namespace SyncDisk

variable {d : SyncDisk}

/-- Where the command is in the file, when the product does not wrap. -/
def start (d : SyncDisk) : Nat :=
  sectorSize * d.lba.toNat

/-- The offset is right modulo 2^64, unless it is negative. -/
theorem toNat_offset (h : 0 ≤ d.offset) : d.offset.toNat = d.start % 2 ^ 64 := by
  rw [offset] at h ⊢
  have hprod : (d.lba * BitVec.ofNat 64 sectorSize).toNat = d.start % 2 ^ 64 := by
    rw [BitVec.toNat_mul, start, Nat.mul_comm]
    rfl
  rw [BitVec.toInt_eq_toNat_cond] at h ⊢
  have hlt := (d.lba * BitVec.ofNat 64 sectorSize).isLt
  split at h
  · rename_i hpos
    rw [if_pos hpos, hprod]
    omega
  · omega

end SyncDisk

namespace Devices

variable {s s' s₁ : Devices} {d d' : SyncDisk} {host : Host} {store : BusStore}

/-! ### Outcomes -/

/-- The command has been done. -/
structure Done (s : Devices) (d : SyncDisk) (s' : Devices) (d' : SyncDisk) : Prop where
  status : d'.status = SyncDisk.statusDone
  errorCode : d'.errorCode = 0#32
  lastResultBytes : d'.lastResultBytes.toNat = SyncDisk.sectorSize * d.count.toNat
  ram : s'.ramByte =
    if d.cmd = SyncDisk.cmdRead then
      writeBytes s.ramByte d.guestPa (s.image.range d.start (SyncDisk.sectorSize * d.count.toNat))
    else s.ramByte
  image : s'.image.bytes =
    if d.cmd = SyncDisk.cmdWrite then
      patch s.image.bytes d.start
        (readBytes s.ramByte d.guestPa (SyncDisk.sectorSize * d.count.toNat))
    else s.image.bytes

/-- The command has failed. -/
structure Failed (s s' : Devices) (d' : SyncDisk) : Prop where
  status : d'.status = SyncDisk.statusError
  errorCode : d'.errorCode ≠ 0#32
  lastResultBytes : d'.lastResultBytes = 0#32
  ram : s'.ramByte = s.ramByte
  image : s'.image = s.image

/-- How a command may end: it has been done and succeeds, or it has failed and does not succeed. -/
def Ends (s : Devices) (d : SyncDisk) (r : Option (Bool × Devices)) : Prop :=
  ∃ ok s' d', r = some (ok, s') ∧ s'.disk = some d' ∧ d'.cmd = SyncDisk.cmdNone ∧
    s'.debug = s.debug ∧ s'.vga = s.vga ∧
      ((ok = true ∧ Done s d s' d') ∨ (ok = false ∧ Failed s s' d'))

/-- **Atomicity.** The command ends well, and every store to the command register that starts it
returns what it does. -/
def Atomic (host : Host) (s : Devices) (d : SyncDisk) : Prop :=
  Ends s d (s.executeCommand host (busStore host) d) ∧
    ∀ d₀ addr bytes, diskBase ≤ addr.toNat → addr.toNat - diskBase + bytes.length ≤ 4 →
      0 < bytes.length →
      commanded d₀ (addr - BitVec.ofNat 64 diskBase) bytes = d → d.cmd ≠ SyncDisk.cmdNone →
        busStore host (s.updateDisk fun _ => d₀) addr bytes = s.executeCommand host
          (busStore host) d

/-- The command moves sectors which are elsewhere in the file: the product wraps, and the difference
is visible. -/
def Misplaced (host : Host) (s : Devices) (d : SyncDisk) : Prop :=
  d.count ≠ 0#32 ∧ d.totalBytes ≤ 0xffffffff ∧ s.InRam d.guestPa d.totalBytes ∧
    2 ^ 64 ≤ d.start ∧ 0 ≤ d.offset ∧
    ((d.cmd = SyncDisk.cmdRead ∧ ∃ i < d.totalBytes,
      (s.image.bytes[d.offset.toNat + i]?).getD 0#8 ≠ 0#8) ∨
      (d.cmd = SyncDisk.cmdWrite ∧
        ∃ wrote image, host.pwrite s.image (readBytes s.ramByte d.guestPa d.totalBytes) d.offset =
          (.ok wrote, image)))

theorem ends_failed {errno : BitVec 32} (herrno : errno ≠ 0#32) (hdisk : s.disk = some d)
    (hsame : SameStore s s₁) :
    Ends s d (some (false, s₁.updateDisk fun d => d.failed errno)) := by
  refine ⟨false, _, d.failed errno, rfl, ?_, rfl, hsame.debug, hsame.vga,
    Or.inr ⟨rfl, ⟨rfl, herrno, rfl, ?_, hsame.image⟩⟩⟩
  · rw [updateDisk, hsame.disk, hdisk]
    rfl
  · exact hsame.ram

theorem totalBytes_eq : SyncDisk.sectorSize * d.count.toNat = d.totalBytes :=
  Nat.mul_comm _ _

/-- A command that reports success has been done when memory and the file are as they should be. -/
theorem ends_completed_iff (hdisk : s₁.disk = some d) (hdebug : s₁.debug = s.debug)
    (hvga : s₁.vga = s.vga)
    (htotal : d.totalBytes ≤ 0xffffffff) :
    Ends s d (some (true, s₁.updateDisk fun d' => d'.completed d.totalBytes)) ↔
      (s₁.ramByte =
          if d.cmd = SyncDisk.cmdRead then writeBytes s.ramByte d.guestPa
          (s.image.range d.start d.totalBytes)
          else s.ramByte) ∧
        s₁.image.bytes =
          if d.cmd = SyncDisk.cmdWrite then patch s.image.bytes d.start
          (readBytes s.ramByte d.guestPa d.totalBytes)
          else s.image.bytes := by
  rw [← totalBytes_eq] at htotal ⊢
  constructor
  · rintro ⟨ok, s', d', heq, -, -, -, -, ⟨-, hdone⟩ | ⟨rfl, -⟩⟩
    · cases heq
      exact ⟨hdone.ram, hdone.image⟩
    · cases heq
  · rintro ⟨hram, himage⟩
    refine ⟨true, _, d.completed (SyncDisk.sectorSize * d.count.toNat), rfl, ?_, rfl, hdebug, hvga,
      Or.inl ⟨rfl, ⟨rfl, rfl, ?_, hram, himage⟩⟩⟩
    · rw [updateDisk, hdisk]
      rfl
    · exact (BitVec.toNat_ofNat _ _).trans (Nat.mod_eq_of_lt (by omega))

/-! ### Transfers -/

/-- Zeros are written in both cases. -/
theorem writeBytes_inj {f : Reg → BitVec 8} {pa : Reg} {xs ys : List (BitVec 8)}
    (hlen : xs.length = ys.length)
    (hround : xs.length ≤ 2 ^ 64) (h : writeBytes f pa xs = writeBytes f pa ys) : xs = ys := by
  apply List.ext_getElem hlen
  intro i hi hi'
  have hbyte := congrFun h (pa + BitVec.ofNat 64 i)
  rwa [writeBytes_add (by omega), writeBytes_add (by omega), List.getElem?_eq_getElem hi,
    List.getElem?_eq_getElem hi',
    Option.getD_some, Option.getD_some] at hbyte

/-- **Reading** from the file. -/
theorem executeRead_ends (hhost : host.Regular) (hplat : OnPlatform s) (hdisk : s.disk = some d)
    (hpa : s.RamOrUnmapped d.guestPa) (hcount : d.count ≠ 0#32) (htotal : d.totalBytes ≤ 0xffffffff)
    (hcmd : d.cmd = SyncDisk.cmdRead) :
    Ends s d (s.executeRead host (storeWith host store) d) ↔
      ¬(s.InRam d.guestPa d.totalBytes ∧ 2 ^ 64 ≤ d.start ∧ 0 ≤ d.offset ∧
        ∃ i < d.totalBytes, (s.image.bytes[d.offset.toNat + i]?).getD 0#8 ≠ 0#8) := by
  have hsectors := sectorSize_le_totalBytes hcount
  unfold SyncDisk.sectorSize at hsectors
  rw [executeRead]
  by_cases hneg : d.offset < 0
  · -- before the beginning of the file
    obtain ⟨errno, herrno, hpread⟩ := hhost.pread_neg s.image d.totalBytes d.offset hneg
    rw [hpread]
    exact iff_of_true (ends_failed herrno hdisk (SameStore.refl s)) fun h => absurd h.2.2.1
      (by omega)
  have hpos : 0 ≤ d.offset := by omega
  rw [hhost.pread _ _ _ hpos]
  dsimp only
  rw [Image.range_eq]
  have hlen : (s.image.range d.offset.toNat d.totalBytes).length = d.totalBytes :=
    Image.length_range _ _ _
  have hlong : 8 < (s.image.range d.offset.toNat d.totalBytes).length := by omega
  have hlt : (s.image.range d.offset.toNat d.totalBytes).length < 2 ^ 32 := by omega
  obtain ⟨s₁, hstore, hram, hrest⟩ :
      ∃ s₁, storeWith host store s d.guestPa (s.image.range d.offset.toNat d.totalBytes) = some
        (_, s₁) ∧ _ :=
    storeWith_ram hplat hpa hlong hlt
  rw [hstore]
  rw [hlen] at hram ⊢
  by_cases hin : s.InRam d.guestPa d.totalBytes
  · rw [decide_eq_true hin, and_iff_right hin]
    rw [if_pos hin] at hram
    dsimp only
    rw [ends_completed_iff (hrest.disk.trans hdisk) hrest.debug hrest.vga htotal, if_pos hcmd,
      if_neg (by rw [hcmd]; decide), hram, hrest.image, and_iff_left rfl]
    by_cases hwrap : 2 ^ 64 ≤ d.start
    · -- the claim is about bytes past the end of the file
      have hzeros : s.image.range d.start d.totalBytes = List.replicate d.totalBytes 0#8 :=
        Image.range_of_le (by omega)
      rw [and_iff_right hwrap, and_iff_right hpos, hzeros, ← Image.range_eq_zeros_iff]
      refine ⟨fun h => writeBytes_inj ?_ ?_ h, fun h => congrArg _ h⟩
      · rw [hlen, List.length_replicate]
      · omega
    · have hsame : d.offset.toNat = d.start := by
        rw [SyncDisk.toNat_offset hpos]
        omega
      rw [hsame]
      exact iff_of_true rfl fun h => hwrap h.1
  · rw [decide_eq_false hin]
    exact iff_of_true (ends_failed (by decide) hdisk ⟨hrest, hram.trans (if_neg hin)⟩) fun h =>
      hin h.1

/-- **Writing** to the file. -/
theorem executeWrite_ends (hhost : host.Regular) (hplat : OnPlatform s) (hdisk : s.disk = some d)
    (hpa : s.RamOrUnmapped d.guestPa) (hcount : d.count ≠ 0#32) (htotal : d.totalBytes ≤ 0xffffffff)
    (hcmd : d.cmd = SyncDisk.cmdWrite) :
    Ends s d (s.executeWrite host d) ↔
      ¬(s.InRam d.guestPa d.totalBytes ∧ 2 ^ 64 ≤ d.start ∧ 0 ≤ d.offset ∧
        ∃ wrote image, host.pwrite s.image (readBytes s.ramByte d.guestPa d.totalBytes) d.offset =
          (.ok wrote, image)) := by
  have hsectors := sectorSize_le_totalBytes hcount
  unfold SyncDisk.sectorSize at hsectors
  obtain ⟨s₁, hload, hsame⟩ := busLoad_ram (n := d.totalBytes) hplat hpa (by omega) (by omega)
  rw [executeWrite, hload]
  by_cases hin : s.InRam d.guestPa d.totalBytes
  · rw [if_pos hin, and_iff_right hin]
    dsimp only
    rw [hsame.image]
    generalize hdata : readBytes s.ramByte d.guestPa d.totalBytes = data
    have hlen : data.length = d.totalBytes := by rw [← hdata, length_readBytes]
    by_cases hneg : d.offset < 0
    · -- before the beginning of the file
      obtain ⟨errno, herrno, hpwrite⟩ := hhost.pwrite_neg s.image data d.offset hneg
      rw [hpwrite]
      have hsame' : SameStore s { s₁ with image := s.image } :=
        ⟨⟨rfl, hsame.disk, hsame.debug, hsame.vga⟩, hsame.ram⟩
      exact iff_of_true (ends_failed herrno hdisk hsame') fun h => absurd h.2.1 (by omega)
    have hpos : 0 ≤ d.offset := by omega
    obtain ⟨errno, herrno, hpwrite⟩ | ⟨image', hpwrite, himage⟩ :=
      hhost.pwrite s.image data d.offset hpos
    · rw [hpwrite]
      have hsame' : SameStore s { s₁ with image := s.image } :=
        ⟨⟨rfl, hsame.disk, hsame.debug, hsame.vga⟩, hsame.ram⟩
      refine iff_of_true (ends_failed herrno hdisk hsame') ?_
      rintro ⟨-, -, wrote, image, h⟩
      cases h
    · rw [hpwrite]
      dsimp only
      rw [if_neg (fun h => h rfl), hlen]
      have hread : ¬d.cmd = SyncDisk.cmdRead := by rw [hcmd]; decide
      have hdisk' : ({ s₁ with image := image' } : Devices).disk = some d := hsame.disk.trans hdisk
      rw [ends_completed_iff hdisk' hsame.debug hsame.vga htotal]
      rw [if_neg hread, if_pos hcmd, hdata]
      have hram : ramByte { s₁ with image := image' } = s.ramByte := hsame.ram
      rw [and_iff_right hram]
      dsimp only
      by_cases hwrap : 2 ^ 64 ≤ d.start
      · -- no file is as long as that
        have hdata' : data ≠ [] := List.ne_nil_of_length_pos (by omega)
        have hsized := image'.sized
        have hlong : d.start + data.length ≤ (patch s.image.bytes d.start data).length :=
          le_length_patch hdata'
        refine iff_of_false (fun h => ?_) (not_not.2 ⟨hwrap, hpos, _, _, rfl⟩)
        rw [← h] at hlong
        omega
      · have hoffset : d.offset.toNat = d.start := by
          rw [SyncDisk.toNat_offset hpos]
          omega
        exact iff_of_true (by rw [himage, hoffset]) fun h => hwrap h.1
  · rw [if_neg hin]
    exact iff_of_true (ends_failed (by decide) hdisk hsame) fun h => hin h.1

/-! ### Atomicity -/

theorem executeCommand_busStore (host : Host) :
    s.executeCommand host (busStore host) d =
      s.executeCommand host (storeWith host (storeDeep host 0)) d :=
  executeCommand_congr fun _ _ _ hlong => storeWith_congr _ hlong

/-- A store that starts a command returns what the command does. -/
theorem busStore_command {d₀ : SyncDisk} {addr : Reg} {bytes : List (BitVec 8)}
    (hdisk : s.disk = some d)
    (hle : diskBase ≤ addr.toNat) (hfit : addr.toNat - diskBase + bytes.length ≤ 4)
    (hpos : 0 < bytes.length)
    (hd : commanded d₀ (addr - BitVec.ofNat 64 diskBase) bytes = d)
    (hcmd : d.cmd ≠ SyncDisk.cmdNone) :
    busStore host (s.updateDisk fun _ => d₀) addr bytes =
      s.executeCommand host (busStore host) d := by
  have hdisk₀ : (s.updateDisk fun _ => d₀).disk = some d₀ := disk_updateDisk_const hdisk d₀
  have hin : SyncDisk.outside (addr - BitVec.ofNat 64 diskBase)
      (BitVec.ofNat 64 bytes.length) = false := by
    rw [Bool.eq_false_iff]
    intro hout
    have hgt := (outside_iff (by rw [toNat_sub_base hle]; omega)).1 hout
    rw [toNat_sub_base hle] at hgt
    omega
  have hrestore : ((s.updateDisk fun _ => d₀).updateDisk fun _ => d) = s := by
    rw [updateDisk, hdisk₀, updateDisk]
    dsimp only [Option.map_some]
    rw [← hdisk]
  rw [busStore, storeDeep, storeWith_cmd hdisk₀ hle (by omega), hin, if_neg Bool.false_ne_true,
    storeCmd,
    if_neg (by omega), commandWritten]
  have hwritten :
      { d₀ with cmd := SyncDisk.rewrite d₀.cmd (addr - BitVec.ofNat 64 diskBase) bytes } = d := hd
  rw [hwritten, if_neg hcmd, hrestore]
  exact (executeCommand_busStore host).symm

/-- **Which commands are atomic**: all but those that move sectors which are elsewhere in the file.
A command that is atomic has moved all its sectors and reports success, or has moved nothing and
reports an error; the others have a place in the file that the offset, taken modulo 2^64, does not
give. -/
theorem atomic_iff (host : Host) (s : Devices) (d : SyncDisk) (hhost : host.Regular)
    (hplat : OnPlatform s)
    (hdisk : s.disk = some d) (hpa : s.RamOrUnmapped d.guestPa) : Atomic host s d ↔
    ¬Misplaced host s d := by
  rw [Atomic, and_iff_left fun d₀ addr bytes hle hfit hpos hd hcmd =>
    busStore_command hdisk hle hfit hpos hd hcmd,
    executeCommand_busStore, executeCommand, Misplaced]
  split
  · -- nothing to do
    rename_i hcount
    have hzero : d.totalBytes = 0 := by
      rw [SyncDisk.totalBytes, hcount]
      rfl
    refine iff_of_true ?_ fun h => h.1 hcount
    have hcompleted : Ends s d
      (some (true, s.updateDisk fun d' => d'.completed d.totalBytes)) ↔ _ :=
      ends_completed_iff hdisk rfl rfl (Nat.le_trans (Nat.le_of_eq hzero) (Nat.zero_le _))
    rw [hzero] at hcompleted
    refine hcompleted.2 ⟨?_, ?_⟩
    · split
      · funext a
        exact (writeBytes_of_le (Nat.zero_le _)).symm
      · rfl
    · split
      · rw [patch, if_pos (List.eq_nil_of_length_eq_zero (length_readBytes _ _ _))]
      · rfl
  rename_i hcount
  rw [and_iff_right hcount]
  split
  · -- no such command
    rename_i hcmd
    refine iff_of_true (ends_failed (by decide) hdisk (SameStore.refl s)) ?_
    rintro ⟨-, -, -, -, ⟨hread, -⟩ | ⟨hwrite, -⟩⟩
    · exact hcmd.1 hread
    · exact hcmd.2 hwrite
  rename_i hcmd
  split
  · -- too many sectors
    rename_i htotal
    exact iff_of_true (ends_failed (by decide) hdisk (SameStore.refl s)) fun h => absurd h.1
      (by omega)
  rename_i htotal
  have hle : d.totalBytes ≤ 0xffffffff := Nat.le_of_not_lt htotal
  rw [and_iff_right hle]
  split
  · rename_i hread
    have hwrite : ¬d.cmd = SyncDisk.cmdWrite := by rw [hread]; decide
    rw [executeRead_ends hhost hplat hdisk hpa hcount hle hread, and_iff_right hread,
      or_iff_left fun h => hwrite h.1]
  · rename_i hread
    have hwrite : d.cmd = SyncDisk.cmdWrite := by
      by_contra hwrite
      exact hcmd ⟨hread, hwrite⟩
    rw [executeWrite_ends hhost hplat hdisk hpa hcount hle hwrite, and_iff_right hwrite,
      or_iff_right fun h => hread h.1]

theorem fullHost_regular : fullHost.Regular where
  pread_neg _ _ _ h := ⟨SyncDisk.einval, by decide, if_pos h⟩
  pread _ _ _ h := if_neg (Int.not_lt.2 h)
  pwrite_neg _ _ _ _ := ⟨28#32, by decide, rfl⟩
  pwrite _ _ _ _ := Or.inl ⟨28#32, by decide, rfl⟩

/-- One sector is to be read to the beginning of the DRAM. -/
def readingSector (lbaHigh : BitVec 32) : SyncDisk :=
  { SyncDisk.new with
    cmd := SyncDisk.cmdRead, count := 1#32, lbaHigh := lbaHigh, guestPaLow := 0x80000000#32 }

/-- The simulator of this disk, with an image of one byte. -/
def readingSectorDevices (lbaHigh : BitVec 32) : Devices :=
  { ofOneHart (some ⟨[1#8], by decide⟩) with disk := some (readingSector lbaHigh) }

theorem onPlatform_readingSector (lbaHigh : BitVec 32) :
    OnPlatform (readingSectorDevices lbaHigh) :=
  ⟨Nat.zero_le _, rfl, rfl, rfl⟩

theorem ram_readingSector (lbaHigh : BitVec 32) :
    (readingSectorDevices lbaHigh).RamOrUnmapped (readingSector lbaHigh).guestPa := by
  have hpa : (readingSector lbaHigh).guestPa = 0x80000000#64 :=
    (by decide : (0#32 : BitVec 32) ++ 0x80000000#32 = 0x80000000#64)
  have hmem : (dramBase, Device.dram) ∈ (readingSectorDevices lbaHigh).map := by simp [map]
  rw [hpa]
  exact Or.inr
    (Or.inl
    ⟨dramBase, hmem, by decide, (by decide : (0x80000000#64).toNat < dramBase + ramSize.toNat)⟩)

/-- The first sector. -/
theorem atomic_first : Atomic fullHost (readingSectorDevices 0#32) (readingSector 0#32) :=
  (atomic_iff fullHost (readingSectorDevices 0#32) (readingSector 0#32) fullHost_regular
    (onPlatform_readingSector 0#32) rfl
    (ram_readingSector 0#32)).2 fun h => absurd h.2.2.2.1 (by decide)

/-- Sector 2^55 is the first one. -/
theorem not_atomic_wrapped :
    ¬Atomic fullHost (readingSectorDevices 0x800000#32) (readingSector 0x800000#32) := by
  rintro ⟨h, -⟩
  rw [executeCommand_busStore, executeCommand, if_neg (by decide), if_neg (by decide),
    if_neg (by decide),
    if_pos (by decide)] at h
  refine (executeRead_ends fullHost_regular (onPlatform_readingSector _) rfl
    (ram_readingSector _) (by decide) (by decide)
    rfl).1 h ?_
  exact ⟨by decide, by decide, by decide, 0, by decide, by decide⟩

end Devices

end Nnemu

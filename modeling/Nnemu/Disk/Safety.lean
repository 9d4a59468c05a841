import Nnemu.Disk.Transfer
import Nnemu.Sim.Platform

/-!
# Commands of the disk that are safe

A command of the disk moves data between the image and wherever the guest says. The simulator
survives it unless the transfer meets a register, of the disk or of the debug module, that asserts
the length of what is moved. In no case does a command start another one.

`Crashes` is a condition on the registers of the disk and, for a read, on what the host answers: the
transfer then meets a register that asserts a length. It is exact for both commands, and with it the
survival of a store to the command register (`survives_iff`).
-/

namespace Nnemu

/-- The registers that a command does not change are the same. -/
structure SyncDisk.Settled (d d' : SyncDisk) : Prop where
  count : d'.count = d.count
  reserved : d'.reserved = d.reserved
  lbaLow : d'.lbaLow = d.lbaLow
  lbaHigh : d'.lbaHigh = d.lbaHigh
  guestPaLow : d'.guestPaLow = d.guestPaLow
  guestPaHigh : d'.guestPaHigh = d.guestPaHigh

namespace Devices

variable {s s' : Devices} {d : SyncDisk} {addr : Reg} {bytes : List (BitVec 8)}
  {host : Host} {store : BusStore}

/-! ### Commands -/

/-- **A command fails an assertion** when it is valid and its transfer meets a register that asserts
its length: for `CMD_READ`, once the image has been read. -/
def Crashes (host : Host) (s : Devices) (d : SyncDisk) : Prop :=
  d.count ≠ 0#32 ∧ d.totalBytes ≤ 0xffffffff ∧
    ((d.cmd = SyncDisk.cmdRead ∧ (∃ got, host.pread s.image d.totalBytes d.offset = .ok got) ∧
        StoreAborts d.guestPa d.totalBytes) ∨
      (d.cmd = SyncDisk.cmdWrite ∧ LoadAborts d.guestPa d.totalBytes))

theorem executeRead_eq_none_iff (hdisk : s.disk = some d) (hcount : d.count ≠ 0#32)
    (htotal : d.totalBytes ≤ 0xffffffff) :
    s.executeRead host (storeWith host store) d = none ↔
      (∃ got, host.pread s.image d.totalBytes d.offset = .ok got) ∧
      StoreAborts d.guestPa d.totalBytes := by
  rw [executeRead]
  cases hgot : host.pread s.image d.totalBytes d.offset with
  | error errno =>
    refine iff_of_false (Option.some_ne_none _) ?_
    rintro ⟨⟨got, hok⟩, -⟩
    cases hok
  | ok got =>
    have hlen := length_buffer hgot
    have hlong : 128 ≤ (got ++ List.replicate (d.totalBytes - got.length) 0#8).length := by
      rw [hlen]
      exact Nat.le_trans (by decide) (sectorSize_le_totalBytes hcount)
    have hnone : storeWith host store s d.guestPa
      (got ++ List.replicate (d.totalBytes - got.length) 0#8) = none ↔
        StoreAborts d.guestPa _ := storeWith_eq_none_iff hdisk hlong (by omega)
    rw [hlen] at hnone
    have hread :
        (∃ got', Except.ok got = (Except.ok got' : Except (BitVec 32) (List (BitVec 8)))) :=
        ⟨got, rfl⟩
    rw [and_iff_right hread, ← hnone]
    dsimp only
    cases storeWith host store s d.guestPa
      (got ++ List.replicate (d.totalBytes - got.length) 0#8) with
    | none => exact iff_of_true rfl rfl
    | some r =>
      obtain ⟨ok, s'⟩ := r
      cases ok with
      | false => exact iff_of_false (Option.some_ne_none _) (Option.some_ne_none _)
      | true => exact iff_of_false (Option.some_ne_none _) (Option.some_ne_none _)

theorem executeWrite_eq_none_iff (hdisk : s.disk = some d) (hcount : d.count ≠ 0#32)
    (htotal : d.totalBytes ≤ 0xffffffff) :
    s.executeWrite host d = none ↔ LoadAborts d.guestPa d.totalBytes := by
  have hlong : 8 < d.totalBytes := Nat.lt_of_lt_of_le (by decide) (sectorSize_le_totalBytes hcount)
  rw [executeWrite, ← busLoad_eq_none_iff hdisk hlong (by omega)]
  cases s.busLoad d.guestPa d.totalBytes with
  | none => exact iff_of_true rfl rfl
  | some r =>
    obtain ⟨r, s'⟩ := r
    refine iff_of_false ?_ (Option.some_ne_none _)
    cases r with
    | none => exact Option.some_ne_none _
    | some buffer =>
      dsimp only
      cases host.pwrite s'.image buffer d.offset with
      | mk wrote image =>
        cases wrote with
        | error errno => exact Option.some_ne_none _
        | ok wrote =>
          dsimp only
          split
          · exact Option.some_ne_none _
          · exact Option.some_ne_none _

theorem executeCommand_eq_none_iff (hdisk : s.disk = some d) :
    s.executeCommand host (storeWith host store) d = none ↔ Crashes host s d := by
  rw [executeCommand, Crashes]
  split
  · rename_i hcount
    exact iff_of_false (Option.some_ne_none _) fun h => h.1 hcount
  · rename_i hcount
    rw [and_iff_right hcount]
    split
    · rename_i hcmd
      refine iff_of_false (Option.some_ne_none _) ?_
      rintro ⟨-, ⟨hread, -⟩ | ⟨hwrite, -⟩⟩
      · exact hcmd.1 hread
      · exact hcmd.2 hwrite
    · rename_i hcmd
      split
      · rename_i htotal
        exact iff_of_false (Option.some_ne_none _) fun h => absurd h.1 (by omega)
      · rename_i htotal
        rw [and_iff_right (Nat.le_of_not_lt htotal)]
        split
        · rename_i hread
          have hwrite : ¬d.cmd = SyncDisk.cmdWrite := by rw [hread]; decide
          rw [executeRead_eq_none_iff hdisk hcount (Nat.le_of_not_lt htotal), and_iff_right hread,
            or_iff_left fun h => hwrite h.1]
        · rename_i hread
          have hwrite : d.cmd = SyncDisk.cmdWrite := by
            by_contra hwrite
            exact hcmd ⟨hread, hwrite⟩
          rw [executeWrite_eq_none_iff hdisk hcount (Nat.le_of_not_lt htotal), and_iff_right hwrite,
            or_iff_right fun h => hread h.1]

/-! ### What a command changes -/

/-- The disk is there, and has the same parameters. -/
def Keeps (d : SyncDisk) (s' : Devices) : Prop :=
  ∃ d', s'.disk = some d' ∧ SyncDisk.Settled d d'

theorem keeps_updateDisk {f : SyncDisk → SyncDisk} (hdisk : s.disk = some d)
    (hf : SyncDisk.Settled d (f d)) :
    Keeps d (s.updateDisk f) :=
  ⟨f d, by rw [updateDisk, hdisk]; rfl, hf⟩

theorem settled_failed (errno : BitVec 32) : SyncDisk.Settled d (d.failed errno) :=
  ⟨rfl, rfl, rfl, rfl, rfl, rfl⟩

theorem settled_completed (n : Nat) : SyncDisk.Settled d (d.completed n) :=
  ⟨rfl, rfl, rfl, rfl, rfl, rfl⟩

theorem keeps_executeRead {ok : Bool} (hdisk : s.disk = some d) (hcount : d.count ≠ 0#32)
    (h : s.executeRead host (storeWith host store) d = some (ok, s')) : Keeps d s' := by
  rw [executeRead] at h
  cases hgot : host.pread s.image d.totalBytes d.offset with
  | error errno =>
    rw [hgot] at h
    cases h
    exact keeps_updateDisk hdisk (settled_failed errno)
  | ok got =>
    rw [hgot] at h
    dsimp only at h
    have hlong : 4 < (got ++ List.replicate (d.totalBytes - got.length) 0#8).length := by
      rw [length_buffer hgot]
      exact Nat.lt_of_lt_of_le (by decide) (sectorSize_le_totalBytes hcount)
    split at h
    · cases h
    · rename_i hstore
      cases h
      exact keeps_updateDisk ((disk_storeWith hlong hstore).trans hdisk) (settled_failed _)
    · rename_i hstore
      cases h
      exact keeps_updateDisk ((disk_storeWith hlong hstore).trans hdisk) (settled_completed _)

theorem keeps_executeWrite {ok : Bool} (hdisk : s.disk = some d)
    (h : s.executeWrite host d = some (ok, s')) :
    Keeps d s' := by
  rw [executeWrite] at h
  split at h
  · cases h
  · rename_i hload
    cases h
    exact keeps_updateDisk ((disk_busLoad hload).trans hdisk) (settled_failed _)
  · rename_i s₁ buffer hload
    have hdisk₁ := (disk_busLoad hload).trans hdisk
    split at h
    · cases h
      exact keeps_updateDisk hdisk₁ (settled_failed _)
    · split at h <;> cases h
      · exact keeps_updateDisk hdisk₁ (settled_failed _)
      · exact keeps_updateDisk hdisk₁ (settled_completed _)

theorem keeps_executeCommand {ok : Bool} (hdisk : s.disk = some d)
    (h : s.executeCommand host (storeWith host store) d = some (ok, s')) : Keeps d s' := by
  rw [executeCommand] at h
  split at h
  · cases h
    exact keeps_updateDisk hdisk (settled_completed 0)
  · rename_i hcount
    split at h
    · cases h
      exact keeps_updateDisk hdisk (settled_failed _)
    · split at h
      · cases h
        exact keeps_updateDisk hdisk (settled_failed _)
      · split at h
        · exact keeps_executeRead hdisk hcount h
        · exact keeps_executeWrite hdisk h

/-! ### The command register -/

/-- The store of the guest survives: it returns, the disk keeps its parameters, and no command
starts another one, so that what such a one would do does not matter. -/
def Survives (host : Host) (s : Devices) (d : SyncDisk) (addr : Reg) (bytes : List (BitVec 8)) :
    Prop :=
  ∃ ok s', busStore host s addr bytes = some (ok, s') ∧ Keeps d s' ∧
    ∀ nested : BusStore, storeWith host (storeWith host nested) s addr bytes = some (ok, s')

/-- The disk when the command has been written. -/
def commanded (d : SyncDisk) (addr : Reg) (bytes : List (BitVec 8)) : SyncDisk :=
  { d with cmd := SyncDisk.rewrite d.cmd addr bytes }

theorem settled_commanded {d' : SyncDisk} (h : SyncDisk.Settled (commanded d addr bytes) d') :
    SyncDisk.Settled d d' :=
  ⟨h.count, h.reserved, h.lbaLow, h.lbaHigh, h.guestPaLow, h.guestPaHigh⟩

theorem disk_updateDisk_const (hdisk : s.disk = some d) (d' : SyncDisk) :
    (s.updateDisk fun _ => d').disk = some d' := by
  rw [updateDisk, hdisk]
  rfl

theorem storeCmd_eq_none_iff (hdisk : s.disk = some d) :
    s.storeCmd host (storeWith host store) d addr bytes = none ↔
      4 < bytes.length ∨ Crashes host s (commanded d addr bytes) := by
  rw [storeCmd]
  split
  · rename_i hlong
    exact iff_of_true rfl (Or.inl hlong)
  · rename_i hfit
    rw [or_iff_right hfit, commandWritten]
    split
    · rename_i hnone
      refine iff_of_false (Option.some_ne_none _) ?_
      rintro ⟨-, -, ⟨hread, -⟩ | ⟨hwrite, -⟩⟩
      · exact absurd (hnone.symm.trans hread) (by decide)
      · exact absurd (hnone.symm.trans hwrite) (by decide)
    · exact executeCommand_eq_none_iff (disk_updateDisk_const hdisk _)

theorem keeps_storeCmd {ok : Bool} (hdisk : s.disk = some d)
    (h : s.storeCmd host (storeWith host store) d addr bytes = some (ok, s')) : Keeps d s' := by
  rw [storeCmd] at h
  split at h
  · cases h
  · rw [commandWritten] at h
    split at h
    · cases h
      exact ⟨_, disk_updateDisk_const hdisk _, ⟨rfl, rfl, rfl, rfl, rfl, rfl⟩⟩
    · obtain ⟨d', hdisk', hsettled⟩ := keeps_executeCommand (disk_updateDisk_const hdisk _) h
      exact ⟨d', hdisk', settled_commanded hsettled⟩

/-- A store that the bus hands to the command register. -/
theorem storeWith_cmd (hdisk : s.disk = some d) (hlow : diskBase ≤ addr.toNat)
    (hhigh : addr.toNat < diskBase + 4) :
    storeWith host store s addr bytes =
      if SyncDisk.outside (addr - BitVec.ofNat 64 diskBase) (BitVec.ofNat 64 bytes.length) then some
      (false, s)
      else s.storeCmd host store d (addr - BitVec.ofNat 64 diskBase) bytes := by
  have hroute : s.findDevice addr = some (diskBase, .disk) :=
    findDevice_disk hdisk hlow (Nat.lt_trans hhigh (by decide))
  have hreg : SyncDisk.regOf (addr - BitVec.ofNat 64 diskBase) = 0x00#64 := by
    refine (SyncDisk.regOf_eq_iff (by decide) rfl).2 ?_
    rw [toNat_sub_base hlow]
    omega
  rw [storeWith, hroute]
  dsimp only [deviceStore]
  rw [hdisk]
  dsimp only
  rw [diskStore, if_pos hreg]

/-- **Which stores to the command register are safe**: those that fail the bounds check, and those
of at most four bytes whose command does not crash. -/
theorem survives_iff (host : Host) (s : Devices) (d : SyncDisk) (addr : Reg)
    (bytes : List (BitVec 8))
    (hdisk : s.disk = some d) (hlow : diskBase ≤ addr.toNat) (hhigh : addr.toNat < diskBase + 4) :
    Survives host s d addr bytes ↔
      SyncDisk.outside (addr - BitVec.ofNat 64 diskBase) (BitVec.ofNat 64 bytes.length) = true ∨
        (bytes.length ≤ 4 ∧
          ¬Crashes host s (commanded d (addr - BitVec.ofNat 64 diskBase) bytes)) := by
  have hsame (nested : BusStore) : storeWith host (storeWith host nested) s addr bytes =
    busStore host s addr bytes :=
    storeWith_storeWith _
  have hstore : busStore host s addr bytes = storeWith host
      (storeWith host (storeDeep host 0)) s addr bytes := rfl
  rw [Survives]
  simp only [hsame]
  rw [hstore, storeWith_cmd hdisk hlow hhigh]
  split
  · rename_i hout
    exact iff_of_true ⟨false, s, rfl, ⟨d, hdisk, ⟨rfl, rfl, rfl, rfl, rfl, rfl⟩⟩, fun _ => rfl⟩
      (Or.inl hout)
  · rename_i hin
    have hnone : s.storeCmd host (storeWith host (storeDeep host 0)) d
      (addr - BitVec.ofNat 64 diskBase) bytes = none ↔ _ :=
      storeCmd_eq_none_iff hdisk
    rw [or_iff_right hin, ← Nat.not_lt, ← not_or, ← hnone]
    refine ⟨?_, fun hsome => ?_⟩
    · rintro ⟨ok, s', hstore', -⟩
      rw [hstore']
      exact Option.some_ne_none _
    · obtain ⟨⟨ok, s'⟩, hstore'⟩ := Option.ne_none_iff_exists'.1 hsome
      exact ⟨ok, s', hstore', keeps_storeCmd hdisk hstore', fun _ => hstore'⟩

/-- An image of zeros. -/
def zeroImage (n : Nat) (h : n < 2 ^ 63) : Image :=
  ⟨List.replicate n 0#8, by rwa [List.length_replicate]⟩

/-- A host whose disk is full: it reads, and does not write. -/
def fullHost : Host where
  pread image n offset :=
    if offset < 0 then .error SyncDisk.einval else .ok ((image.bytes.drop offset.toNat).take n)
  -- `ENOSPC`
  pwrite image _ _ := (.error 28#32, image)
  length_pread := by
    intro image n offset got h
    split at h <;> cases h
    rw [List.length_take]
    exact Nat.min_le_left _ _

/-- The disk is told to read one sector to the DRAM. -/
def readingDram : SyncDisk :=
  { SyncDisk.new with count := 1#32, guestPaLow := 0x80000000#32 }

/-- The simulator of this disk, with an image of one sector. -/
def readingDramDevices : Devices :=
  { ofOneHart (some (zeroImage 512 (by decide))) with disk := some readingDram }

/-- The command survives, and says how many bytes it has moved. -/
theorem survives_read :
    Survives fullHost readingDramDevices readingDram 0x10001000#64 [1#8, 0#8, 0#8, 0#8] ∧
      (busStore fullHost readingDramDevices 0x10001000#64 [1#8, 0#8, 0#8, 0#8]).map
        (fun r => (r.1, r.2.disk.map SyncDisk.lastResultBytes)) = some (true, some 512#32) := by
  have hdisk : readingDramDevices.disk = some readingDram := rfl
  have hcrash : ¬Crashes fullHost readingDramDevices
      (commanded readingDram (0x10001000#64 - BitVec.ofNat 64 diskBase) [1#8, 0#8, 0#8, 0#8]) := by
    rintro ⟨-, -, ⟨-, -, (h | h | h) | ⟨-, h, -⟩⟩ | ⟨hwrite, -⟩⟩
    · exact absurd h (by decide)
    · exact absurd h (by decide)
    · exact absurd h (by decide)
    · exact absurd h (by decide)
    · exact absurd hwrite (by decide)
  exact ⟨(survives_iff _ _ _ _ _ hdisk (by decide) (by decide)).2 (Or.inr ⟨by decide, hcrash⟩),
    by decide +kernel⟩

/-- The disk is told to read one sector to its own registers. -/
def readingItself : SyncDisk :=
  { SyncDisk.new with count := 1#32, guestPaLow := 0x10001000#32 }

/-- The simulator of this disk. -/
def readingItselfDevices : Devices :=
  { ofOneHart (some (zeroImage 0 (by decide))) with disk := some readingItself }

/-- A command that reads to the registers of the disk fails an assertion. -/
theorem not_survives_itself :
    ¬Survives fullHost readingItselfDevices readingItself 0x10001000#64 [1#8, 0#8, 0#8, 0#8] := by
  rintro ⟨ok, s', hstore, -, -⟩
  have hdisk : readingItselfDevices.disk = some readingItself := rfl
  have hcrash : Crashes fullHost readingItselfDevices
      (commanded readingItself (0x10001000#64 - BitVec.ofNat 64 diskBase) [1#8, 0#8, 0#8, 0#8]) :=
    ⟨by decide, by decide, Or.inl ⟨by decide, ⟨_, rfl⟩, Or.inr (by decide)⟩⟩
  have hnone : busStore fullHost readingItselfDevices 0x10001000#64
      [1#8, 0#8, 0#8, 0#8] = none := by
    rw [busStore, storeDeep, storeDeep, storeWith_cmd hdisk (by decide) (by decide),
      if_neg (by decide)]
    exact (storeCmd_eq_none_iff hdisk).2 (Or.inr hcrash)
  rw [hnone] at hstore
  cases hstore

end Devices

end Nnemu

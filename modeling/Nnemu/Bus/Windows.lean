import Nnemu.Disk.Memory
import Nnemu.Disk.Registers
import Nnemu.Plic.Decode

/-!
# The windows of the bus

The bus hands an access to the device below its address, and leaves it to the device to see that the
access lies within its window. Most of them do. The serial port does not, the interrupt controller
goes by the number of its contexts, the timer reads its clock before it looks at the address, and
the debug module compares only the first address of a store.

For each device there is a lemma about loads and one about stores: outside its window it refuses the
access and nothing changes, unless the access strays (`StraysLoad`, `StraysStore`, which say for
each device when). The windows of the map are put over them by the routing, which hands on the
offset from the base and nothing else.
-/

namespace Nnemu

namespace Devices

variable {s s' : Devices} {paddr off : Reg} {n base : Nat} {dev : Device} {bytes : List (BitVec 8)}
  {host : Host} {store : BusStore}

/-- All of an access lies in the window of one device. -/
def Inside (s : Devices) (paddr : Reg) (n : Nat) : Prop :=
  ∃ dev, ∀ a : Reg, paddr.toNat ≤ a.toNat → a.toNat < paddr.toNat + n → s.Maps a dev

/-- The devices are in the same state. Their clock may have been read, and lines of the harts
driven. -/
structure SameDevices (s s' : Devices) : Prop where
  debug : s'.debug = s.debug
  rom : s'.rom = s.rom
  mtime : s'.clint.mtime = s.clint.mtime
  mtimecmp : s'.clint.mtimecmp = s.clint.mtimecmp
  plic : Plic.SameRegs s.plic s'.plic
  uart : s'.uart = s.uart
  disk : s'.disk = s.disk
  image : s'.image = s.image
  vga : s'.vga = s.vga
  flash : s'.flash = s.flash
  dram : s'.dram = s.dram

theorem SameDevices.refl (s : Devices) : SameDevices s s :=
  ⟨rfl, rfl, rfl, rfl, Plic.SameRegs.refl _, rfl, rfl, rfl, rfl, rfl, rfl⟩

/-- A load lies in a window, or fails and changes no device. -/
def LoadConfined (s : Devices) (paddr : Reg) (n : Nat) : Prop :=
  s.Inside paddr n ∨ ∃ s', s.mmioLoad paddr n = some (none, s') ∧ SameDevices s s'

/-- A store lies in a window, or fails and changes no device. -/
def StoreConfined (host : Host) (s : Devices) (paddr : Reg) (bytes : List (BitVec 8)) : Prop :=
  s.Inside paddr bytes.length ∨ ∃ s', s.mmioStore host paddr bytes = some (false, s') ∧
    SameDevices s s'

/-! ### Accesses that stray -/

/-- The time is read from a clock, which has gone on. -/
def ClockMoved (s : Devices) : Prop :=
  ∃ clock, s.clint.realTime = some clock ∧ clock s.clint.readings ≠ s.clint.mtime

/-- A load beyond the window of a device succeeds or changes the device. -/
def StraysLoad (s : Devices) (off : Reg) (n : Nat) : Device → Prop
  | .uart => 0x1000 ≤ off.toNat ∧ n = 1
  | .plic => 0x400000 < off.toNat + n ∧ s.plic.LoadsContext off.toNat n
  | .clint => 0x10000 < off.toNat + n ∧ 0 < n ∧ n ≤ 8 ∧ s.ClockMoved
  | _ => False

/-- A store beyond the window of a device succeeds, changes the device or fails an assertion. -/
def StraysStore (s : Devices) (off : Reg) (bytes : List (BitVec 8)) : Device → Prop
  | .uart => 0x1000 ≤ off.toNat ∧ bytes.length = 1
  | .plic => 0x400000 < off.toNat + bytes.length ∧
      (s.plic.StoresContext off.toNat bytes.length ∨ s.plic.StoresHalf off bytes)
  | .debug => 0x1000 < off.toNat + bytes.length ∧ off.toNat + bytes.length ≤ 2 ^ 56 ∧
      (off.toNat = DebugModule.debugRomHalted ∨ off.toNat = DebugModule.debugRomGoing ∨
        off.toNat = DebugModule.debugRomResuming ∨ off.toNat = DebugModule.debugRomException)
  | _ => False

/-- A load strays: the device that the bus hands it to does not look at the end of its window. -/
def LoadStrays (s : Devices) (paddr : Reg) (n : Nat) : Prop :=
  ∃ base dev, s.findDevice paddr = some (base, dev) ∧
    s.StraysLoad (paddr - BitVec.ofNat 64 base) n dev

/-- A store strays. -/
def StoreStrays (s : Devices) (paddr : Reg) (bytes : List (BitVec 8)) : Prop :=
  ∃ base dev, s.findDevice paddr = some (base, dev) ∧
    s.StraysStore (paddr - BitVec.ofNat 64 base) bytes dev

/-! ### Windows -/

/-- A device has one window. -/
theorem map_functional {base' : Nat} (h : (base, dev) ∈ s.map) (h' : (base', dev) ∈ s.map) :
    base = base' := by
  simp only [map, List.mem_append, List.mem_cons, Prod.mk.injEq, List.not_mem_nil,
    or_false, List.mem_ite_nil_right]
    at h h'
  obtain ((⟨rfl, rfl⟩ | ⟨rfl, rfl⟩ | ⟨rfl, rfl⟩ | ⟨rfl, rfl⟩ | ⟨rfl, rfl⟩) | ⟨-, rfl, rfl⟩) |
    ⟨rfl, rfl⟩ | ⟨rfl, rfl⟩ |
    ⟨rfl, rfl⟩ := h
  all_goals
    simp only [reduceCtorEq, and_false, and_true, or_false, false_or] at h'
    first
      | exact h'.symm
      | exact h'.2.symm

/-- All windows end with the DRAM. -/
theorem window_le (hplat : OnPlatform s) (h : (base, dev) ∈ s.map) :
    base + s.windowSize dev ≤ 0x90000000 := by
  have hrom := hplat.rom
  have hflash : s.flash.sz.toNat = 0x10000000 := by rw [hplat.flash]; rfl
  have hdram : s.dram.sz.toNat = 0x10000000 := by rw [hplat.dram]; rfl
  unfold romBase clintBase at hrom
  simp only [map, List.mem_append, List.mem_cons, Prod.mk.injEq, List.not_mem_nil,
    or_false, List.mem_ite_nil_right] at h
  unfold debugStart romBase clintBase plicBase uartBase diskBase vgaBase flashBase dramBase at h
  obtain ((⟨rfl, rfl⟩ | ⟨rfl, rfl⟩ | ⟨rfl, rfl⟩ | ⟨rfl, rfl⟩ | ⟨rfl, rfl⟩) | ⟨-, rfl, rfl⟩) |
    ⟨rfl, rfl⟩ | ⟨rfl, rfl⟩ |
    ⟨rfl, rfl⟩ := h
  all_goals
    dsimp only [windowSize]
    omega

/-- An access lies in one window when it ends before the window of the device that receives it. -/
theorem inside_iff (hplat : OnPlatform s) (hroute : s.findDevice paddr = some (base, dev))
    (hpos : 0 < n) :
    s.Inside paddr n ↔ paddr.toNat + n ≤ base + s.windowSize dev := by
  have hmem := Routing.find_mem hroute
  have hle : base ≤ paddr.toNat := Routing.find_le hroute
  constructor
  · rintro ⟨dev', hall⟩
    obtain ⟨base', hroute', -⟩ := find_of_maps hplat (hall paddr (Nat.le_refl _) (by omega))
    cases hroute.symm.trans hroute'
    -- the last address
    have hwindow := window_le hplat hmem
    have hpaddr := paddr.isLt
    have hlast : (BitVec.ofNat 64 (min (paddr.toNat + n - 1) (2 ^ 64 - 1))).toNat =
        min (paddr.toNat + n - 1) (2 ^ 64 - 1) := by
      rw [BitVec.toNat_ofNat]
      omega
    obtain ⟨base', hmem', -, hlt⟩ :=
      hall (BitVec.ofNat 64 (min (paddr.toNat + n - 1) (2 ^ 64 - 1))) (by omega) (by omega)
    rw [hlast, ← map_functional hmem hmem'] at hlt
    omega
  · intro hend
    exact ⟨dev, fun a hge hlt => ⟨base, hmem, Nat.le_trans hle hge, by omega⟩⟩

/-- Every address is handed to a device, of which the DRAM is the last. -/
theorem exists_route (s : Devices) (paddr : Reg) :
    ∃ base dev, s.findDevice paddr = some (base, dev) ∧
    (dev ≠ .dram → paddr.toNat < 0x80000000) := by
  obtain ⟨-, h⟩ | ⟨⟨-, hlt⟩, h⟩ | ⟨⟨-, hlt⟩, h⟩ | ⟨-, ⟨-, hlt⟩, h⟩ | ⟨⟨-, hlt, -⟩, h⟩ |
    ⟨⟨-, hlt⟩, h⟩ | ⟨⟨-, hlt⟩, h⟩ |
    ⟨⟨-, hlt⟩, h⟩ | ⟨hlt, h⟩ := findDevice_cases s paddr
  · exact ⟨_, _, h, fun hne => absurd rfl hne⟩
  all_goals exact ⟨_, _, h, fun _ => by omega⟩

theorem paddr_lt_of_route (hroute : s.findDevice paddr = some (base, dev)) (hne : dev ≠ .dram) :
    paddr.toNat < 0x80000000 := by
  obtain ⟨base', dev', hroute', hlow⟩ := exists_route s paddr
  cases hroute.symm.trans hroute'
  exact hlow hne

/-! ### Loads -/

theorem inRegion_beyond {start size addr len : Nat} (h : start + size < addr + len) :
    DebugModule.inRegion start size addr len = false := by
  rw [DebugModule.inRegion, Bool.and_eq_false_iff, decide_eq_false_iff_not, decide_eq_false_iff_not]
  omega

/-- The debug module has no region that reaches beyond its window. -/
theorem debug_load_beyond {m : DebugModule} {addr len : Nat} (h : 0x1000 < addr + len) :
    m.load addr len = none := by
  have hfits := m.config.fits
  have hprogbuf : m.config.debugProgbufStart + m.config.programBufferBytes ≤ 0x1000 := by
    rw [DmConfig.debugProgbufStart]
    unfold DmConfig.programBufferBytes DebugModule.debugDataStart
    omega
  have habstract : m.config.debugAbstractStart + DebugModule.debugAbstractSize * 4 ≤ 0x1000 := by
    rw [DmConfig.debugAbstractStart, DmConfig.debugProgbufStart]
    unfold DmConfig.programBufferBytes DebugModule.debugDataStart DebugModule.debugAbstractSize
    omega
  have hrom : DebugModule.debugRomEntry + DebugModule.debugRomRaw.length ≤ 0x1000 := by decide
  have hwhereto : DebugModule.debugRomWhereto + 4 ≤ 0x1000 := by decide
  have hflags : DebugModule.debugRomFlagsStart + 1024 ≤ 0x1000 := by decide
  have hdata : DebugModule.debugDataStart + DebugModule.dmDatasize * 4 ≤ 0x1000 := by decide
  rw [DebugModule.load, inRegion_beyond (by omega), inRegion_beyond (by omega),
    inRegion_beyond (by omega),
    inRegion_beyond (by omega), inRegion_beyond (by omega), inRegion_beyond (by omega)]
  rfl

/-- An access that ends beyond the window of the timer is behind its registers. -/
theorem clint_beyond {off : Reg} (hbeyond : 0x10000 < off.toNat + n) (hlt : off.toNat < 2 ^ 32)
    (hn : n ≤ 8) :
    ¬off < 0x4000#64 ∧ ¬off < 0xbff8#64 ∧ ¬off < 0xc000#64 ∧
    ¬off + BitVec.ofNat 64 n ≤ 0x10000#64 := by
  rw [BitVec.lt_def, BitVec.lt_def, BitVec.lt_def, BitVec.le_def, BitVec.toNat_add,
    BitVec.toNat_ofNat]
  refine ⟨?_, ?_, ?_, ?_⟩
  · show ¬off.toNat < 0x4000
    omega
  · show ¬off.toNat < 0xbff8
    omega
  · show ¬off.toNat < 0xc000
    omega
  · show ¬(off.toNat + n % 2 ^ 64) % 2 ^ 64 ≤ 0x10000
    omega

/-- The timer reads its clock before it refuses a load beyond its window. -/
theorem clint_load_beyond {c : Clint} {off : Reg} (hbeyond : 0x10000 < off.toNat + n)
    (hlt : off.toNat < 2 ^ 32)
    (hn : n ≤ 8) : c.load off n = (none, c.increment 0#64) := by
  obtain ⟨hmsip, hmtimecmp, hmtime, hsize⟩ := clint_beyond hbeyond hlt hn
  rw [Clint.load, if_neg fun h => hmsip h.2, Clint.loadWord, if_neg (by omega)]
  dsimp only
  rw [if_neg hmsip, if_neg hmtimecmp, if_neg hmtime, if_neg hsize]

/-- Without a clock, and with one that stands still, nothing changes. -/
theorem nextTime_eq_iff : s.clint.nextTime 0#64 = s.clint.mtime ↔ ¬s.ClockMoved := by
  rw [Clint.nextTime, ClockMoved]
  cases hclock : s.clint.realTime with
  | none =>
    dsimp only
    refine iff_of_true (BitVec.add_zero _) ?_
    rintro ⟨clock, h, -⟩
    cases h
  | some clock =>
    dsimp only
    constructor
    · rintro heq ⟨clock', h, hne⟩
      cases h
      exact hne heq
    · intro h
      by_contra hne
      exact h ⟨clock, rfl, hne⟩

/-- **A device beyond its window**: a load is refused and changes no device, unless it strays. -/
def RefusesLoad (s : Devices) (off : Reg) (n : Nat) (dev : Device) : Prop :=
  (∃ s', s.deviceLoad dev off n = some (none, s') ∧ SameDevices s s') ↔ ¬s.StraysLoad off n dev

/-- A device that refuses without doing anything. -/
theorem RefusesLoad.of_refused (h : s.deviceLoad dev off n = some (none, s))
    (hno : ¬s.StraysLoad off n dev) : s.RefusesLoad off n dev :=
  iff_of_true ⟨s, h, SameDevices.refl s⟩ hno

theorem mem_rejects_beyond {m : Mem} (h : m.sz.toNat < off.toNat + n)
    (hend : off.toNat + n ≤ 2 ^ 56) : m.rejects off (BitVec.ofNat 64 n) = true := by
  rw [Mem.rejects_iff, BitVec.toNat_ofNat]
  omega

theorem dram_load_outside (h : s.dram.sz.toNat < off.toNat + n) (hend : off.toNat + n ≤ 2 ^ 56) :
    s.RefusesLoad off n .dram := by
  refine .of_refused ?_ id
  rw [deviceLoad, Mem.load, if_pos (mem_rejects_beyond h hend)]

theorem flash_load_outside (h : s.flash.sz.toNat < off.toNat + n) (hend : off.toNat + n ≤ 2 ^ 56) :
    s.RefusesLoad off n .flash := by
  refine .of_refused ?_ id
  rw [deviceLoad, Mem.load, if_pos (mem_rejects_beyond h hend)]

/-- The frame buffer is no larger than its window. -/
theorem vga_beyond (h : 0x200000 < off.toNat + n) (hend : off.toNat + n ≤ 2 ^ 56) :
    off + BitVec.ofNat 64 n > s.vga.fbSize := by
  have hfits := s.vga.fits
  rw [gt_iff_lt, BitVec.lt_def, BitVec.toNat_add, BitVec.toNat_ofNat]
  omega

theorem vga_load_outside (h : 0x200000 < off.toNat + n) (hend : off.toNat + n ≤ 2 ^ 56) :
    s.RefusesLoad off n .vga := by
  refine .of_refused ?_ id
  rw [deviceLoad, Vga.load, if_pos (vga_beyond h hend)]

theorem disk_load_outside (h : 0x1000 < off.toNat + n) (hend : off.toNat + n ≤ 2 ^ 56) :
    s.RefusesLoad off n .disk := by
  refine .of_refused ?_ id
  rw [deviceLoad]
  cases s.disk with
  | none => rfl
  | some d =>
    dsimp only
    rw [SyncDisk.load, if_pos ((outside_iff (by omega)).2 h)]
    rfl

theorem rom_load_outside (hrom : s.rom.length ≤ 2 ^ 56) (h : s.rom.length < off.toNat + n)
    (hend : off.toNat + n ≤ 2 ^ 56) : s.RefusesLoad off n .rom := by
  have hbeyond : off + BitVec.ofNat 64 n > BitVec.ofNat 64 s.rom.length := by
    rw [gt_iff_lt, BitVec.lt_def, BitVec.toNat_add, BitVec.toNat_ofNat, BitVec.toNat_ofNat]
    omega
  refine .of_refused ?_ id
  rw [deviceLoad, romLoad, if_pos hbeyond]

theorem debug_load_outside (h : 0x1000 < off.toNat + n) : s.RefusesLoad off n .debug := by
  refine .of_refused ?_ id
  rw [deviceLoad, debug_load_beyond h]

/-- The serial port does not look at the address of a load of one byte. -/
theorem uart_load_outside (hwidth : s.uart.regIoWidth = 1) (h : 0x1000 < off.toNat + n) :
    s.RefusesLoad off n .uart := by
  by_cases hone : n = 1
  · have hstrays : s.StraysLoad off n .uart := ⟨by omega, hone⟩
    refine iff_of_false ?_ (not_not.2 hstrays)
    rintro ⟨s', heq, -⟩
    rw [deviceLoad, Uart.load, if_neg fun h => h (by rw [hwidth, hone])] at heq
    cases heq
  · have hne : s.uart.regIoWidth ≠ n := by
      rw [hwidth]
      exact fun h => hone h.symm
    have hidle : s.uart.loadDrives off n = false := by
      rw [Uart.loadDrives, Bool.and_eq_false_iff]
      exact Or.inl (beq_eq_false_iff_ne.2 hne)
    refine .of_refused ?_ fun hs => hone hs.2
    rw [deviceLoad, Uart.load, if_pos hne, hidle]
    rfl

/-- A PLIC with the same registers is the same device. -/
theorem SameDevices.withPlic {p : Plic} (h : Plic.SameRegs s.plic p) :
    SameDevices s (s.withPlic p) :=
  ⟨rfl, rfl, rfl, rfl, h, rfl, rfl, rfl, rfl, rfl, rfl⟩

/-- The interrupt controller goes by the number of its contexts. -/
theorem plic_load_outside (h : 0x400000 < off.toNat + n) (hlt : off.toNat < 2 ^ 32) :
    s.RefusesLoad off n .plic := by
  have hstrays : s.StraysLoad off n .plic ↔ s.plic.LoadsContext off.toNat n := and_iff_right h
  rw [RefusesLoad, hstrays, deviceLoad]
  by_cases hlen : n = 4 ∨ n = 8
  · obtain ⟨hloads, hfails⟩ := Plic.load_context (p := s.plic) (n := n) (by omega) hlt
    by_cases hcontext : s.plic.LoadsContext off.toNat n
    · obtain ⟨got, p', hload⟩ := hloads hcontext
      rw [hload]
      refine iff_of_false ?_ (not_not.2 hcontext)
      rintro ⟨s', heq, -⟩
      cases heq
    · rw [hfails hcontext]
      exact iff_of_true ⟨_, rfl, .withPlic (.refl _)⟩ hcontext
  · rw [Plic.load, if_neg (not_or.1 hlen).1, if_neg (not_or.1 hlen).2]
    exact iff_of_true ⟨_, rfl, .withPlic (.refl _)⟩ fun h => hlen h.1

/-- The timer reads its clock first. -/
theorem clint_load_outside (hpos : 0 < n) (h : 0x10000 < off.toNat + n)
    (hlt : off.toNat < 2 ^ 32) : s.RefusesLoad off n .clint := by
  rw [RefusesLoad, deviceLoad]
  by_cases hlong : 8 < n
  · rw [clint_load_long hlong, afterClint_self]
    refine iff_of_true ⟨_, rfl, ?_⟩ fun hs => absurd hs.2.2.1 (Nat.not_le.2 hlong)
    exact ⟨rfl, rfl, rfl, rfl, ⟨rfl, rfl, rfl, rfl, rfl⟩, rfl, rfl, rfl, rfl, rfl, rfl⟩
  · have hle : n ≤ 8 := Nat.le_of_not_lt hlong
    have hstrays : s.StraysLoad off n .clint ↔ s.ClockMoved := by
      rw [StraysLoad, and_iff_right h, and_iff_right hpos, and_iff_right hle]
    have hrunning : (s.clint.increment 0#64).aborted = false := s.running
    rw [clint_load_beyond h hlt hle, afterClint, dif_pos hrunning, hstrays, ← nextTime_eq_iff]
    constructor
    · rintro ⟨s', heq, hsame⟩
      cases heq
      exact hsame.mtime
    · intro htime
      exact ⟨_, rfl,
        ⟨rfl, rfl, htime, rfl, ⟨rfl, rfl, rfl, rfl, rfl⟩, rfl, rfl, rfl, rfl, rfl, rfl⟩⟩

/-- **Loads beyond a window**, for the device that receives them. -/
theorem busLoad_outside (hplat : OnPlatform s) (hroute : s.findDevice paddr = some (base, dev))
    (hpos : 0 < n) (hout : base + s.windowSize dev < paddr.toNat + n)
    (hend : paddr.toNat + n ≤ 2 ^ 56) :
    (∃ s', s.busLoad paddr n = some (none, s') ∧ SameDevices s s') ↔
      ¬s.StraysLoad (paddr - BitVec.ofNat 64 base) n dev := by
  have hsub : (paddr - BitVec.ofNat 64 base).toNat = paddr.toNat - base :=
    toNat_sub_base (Routing.find_le hroute)
  have hle : base ≤ paddr.toNat := Routing.find_le hroute
  have hlow := paddr_lt_of_route hroute
  rw [busLoad, hroute]
  show s.RefusesLoad (paddr - BitVec.ofNat 64 base) n dev
  generalize paddr - BitVec.ofNat 64 base = off at hsub ⊢
  have hbeyond : s.windowSize dev < off.toNat + n := by omega
  have hoff : off.toNat + n ≤ 2 ^ 56 := by omega
  cases dev with
  | dram => exact dram_load_outside hbeyond hoff
  | flash => exact flash_load_outside hbeyond hoff
  | vga => exact vga_load_outside hbeyond hoff
  | disk => exact disk_load_outside hbeyond hoff
  | rom => exact rom_load_outside (Nat.le_trans hplat.rom (by decide)) hbeyond hoff
  | debug => exact debug_load_outside hbeyond
  | uart => exact uart_load_outside hplat.uart hbeyond
  | plic =>
    have hlt := hlow (by decide)
    exact plic_load_outside hbeyond (by omega)
  | clint =>
    have hlt := hlow (by decide)
    exact clint_load_outside hpos hbeyond (by omega)

/-! ### Stores -/

/-- The debug module, beyond its window: the words by which the harts answer are compared with the
first address only. -/
theorem debug_store_beyond {m : DebugModule} {addr : Nat} (h : 0x1000 < addr + bytes.length) :
    m.store addr bytes =
      if addr = DebugModule.debugRomHalted ∨ addr = DebugModule.debugRomGoing ∨
      addr = DebugModule.debugRomResuming then none
      else if addr = DebugModule.debugRomException then
        some (true, if m.abstractcs.cmderr = CmdErr.none then m.setCmderr CmdErr.exception else m)
      else some (false, m) := by
  have hfits := m.config.fits
  have hprogbuf : m.config.debugProgbufStart + m.config.programBufferBytes ≤ 0x1000 := by
    rw [DmConfig.debugProgbufStart]
    unfold DmConfig.programBufferBytes DebugModule.debugDataStart
    omega
  have hdata : DebugModule.debugDataStart + DebugModule.dmDatasize * 4 ≤ 0x1000 := by decide
  rw [DebugModule.store, inRegion_beyond (by omega), inRegion_beyond (by omega),
    if_neg Bool.false_ne_true, if_neg Bool.false_ne_true]
  by_cases hhalted : addr = DebugModule.debugRomHalted
  · have hlen : bytes.length ≠ 4 := by
      unfold DebugModule.debugRomHalted at hhalted
      omega
    rw [if_pos hhalted, if_pos hlen, if_pos (Or.inl hhalted)]
  rw [if_neg hhalted]
  by_cases hgoing : addr = DebugModule.debugRomGoing
  · have hlen : bytes.length ≠ 4 := by
      unfold DebugModule.debugRomGoing at hgoing
      omega
    rw [if_pos hgoing, if_pos hlen, if_pos (Or.inr (Or.inl hgoing))]
  rw [if_neg hgoing]
  by_cases hresuming : addr = DebugModule.debugRomResuming
  · have hlen : bytes.length ≠ 4 := by
      unfold DebugModule.debugRomResuming at hresuming
      omega
    rw [if_pos hresuming, if_pos hlen, if_pos (Or.inr (Or.inr hresuming))]
  rw [if_neg hresuming, if_neg (not_or.2 ⟨hhalted, not_or.2 ⟨hgoing, hresuming⟩⟩)]

/-- The timer refuses stores beyond its window. -/
theorem clint_store_beyond {c : Clint} {off : Reg} (hbeyond : 0x10000 < off.toNat + bytes.length)
    (hlt : off.toNat < 2 ^ 32) (hn : bytes.length ≤ 8) : c.store off bytes = (false, c) := by
  obtain ⟨hmsip, hmtimecmp, hmtime, hsize⟩ := clint_beyond hbeyond hlt hn
  rw [Clint.store, if_neg fun h => hmsip h.2, Clint.storeWord, if_neg (by omega),
    if_neg hmsip, if_neg hmtimecmp, if_neg hmtime, if_neg hsize]

/-- **A device beyond its window**: a store is refused and changes no device, unless it strays. -/
def RefusesStore (host : Host) (store : BusStore) (s : Devices) (off : Reg)
    (bytes : List (BitVec 8)) (dev : Device) : Prop :=
  (∃ s', s.deviceStore host store dev off bytes = some (false, s') ∧ SameDevices s s') ↔
    ¬s.StraysStore off bytes dev

theorem RefusesStore.of_refused (h : s.deviceStore host store dev off bytes = some (false, s))
    (hno : ¬s.StraysStore off bytes dev) : RefusesStore host store s off bytes dev :=
  iff_of_true ⟨s, h, SameDevices.refl s⟩ hno

theorem dram_store_outside (h : s.dram.sz.toNat < off.toNat + bytes.length)
    (hend : off.toNat + bytes.length ≤ 2 ^ 56) : RefusesStore host store s off bytes .dram := by
  refine .of_refused ?_ id
  rw [deviceStore, Mem.store, if_pos (mem_rejects_beyond h hend)]

theorem flash_store_outside (h : s.flash.sz.toNat < off.toNat + bytes.length)
    (hend : off.toNat + bytes.length ≤ 2 ^ 56) : RefusesStore host store s off bytes .flash := by
  refine .of_refused ?_ id
  rw [deviceStore, Mem.store, if_pos (mem_rejects_beyond h hend)]

theorem vga_store_outside (h : 0x200000 < off.toNat + bytes.length)
    (hend : off.toNat + bytes.length ≤ 2 ^ 56) : RefusesStore host store s off bytes .vga := by
  refine .of_refused ?_ id
  rw [deviceStore, Vga.store, if_pos (vga_beyond h hend)]

theorem disk_store_outside (h : 0x1000 < off.toNat + bytes.length)
    (hend : off.toNat + bytes.length ≤ 2 ^ 56) : RefusesStore host store s off bytes .disk := by
  refine .of_refused ?_ id
  rw [deviceStore]
  cases s.disk with
  | none => rfl
  | some d =>
    dsimp only
    rw [diskStore, if_pos ((outside_iff (by omega)).2 h)]

/-- The serial port does not look at the address of a store of one byte. -/
theorem uart_store_outside (hwidth : s.uart.regIoWidth = 1)
    (h : 0x1000 < off.toNat + bytes.length) : RefusesStore host store s off bytes .uart := by
  by_cases hone : bytes.length = 1
  · have hstrays : s.StraysStore off bytes .uart := ⟨by omega, hone⟩
    refine iff_of_false ?_ (not_not.2 hstrays)
    rintro ⟨s', heq, -⟩
    rw [deviceStore, Uart.store, if_neg fun h => h (by rw [hwidth, hone])] at heq
    cases heq
  · have hne : s.uart.regIoWidth ≠ bytes.length := by
      rw [hwidth]
      exact fun h => hone h.symm
    have hidle : s.uart.storeDrives off bytes.length = false := by
      rw [Uart.storeDrives, Bool.and_eq_false_iff]
      exact Or.inl (beq_eq_false_iff_ne.2 hne)
    refine .of_refused ?_ fun hs => hone hs.2
    rw [deviceStore, Uart.store, if_pos hne, hidle]
    rfl

/-- The interrupt controller goes by the number of its contexts, and takes two words one by one. -/
theorem plic_store_outside (h : 0x400000 < off.toNat + bytes.length) (hlt : off.toNat < 2 ^ 32) :
    RefusesStore host store s off bytes .plic := by
  have hstrays : s.StraysStore off bytes .plic ↔
      s.plic.StoresContext off.toNat bytes.length ∨ s.plic.StoresHalf off bytes := and_iff_right h
  rw [RefusesStore, hstrays, deviceStore]
  by_cases hlen : bytes.length = 4 ∨ bytes.length = 8
  · obtain ⟨hstores, hfails⟩ :
        (_ → ∃ p', s.plic.store off bytes = (true, p')) ∧ _ := Plic.store_context (by omega) hlt
    by_cases hcontext : s.plic.StoresContext off.toNat bytes.length
    · obtain ⟨p', hstore⟩ := hstores hcontext
      rw [hstore]
      refine iff_of_false ?_ (not_not.2 (Or.inl hcontext))
      rintro ⟨s', heq, -⟩
      cases heq
    · obtain ⟨p', hstore, hsame⟩ := hfails hcontext
      rw [hstore, or_iff_right hcontext, ← hsame]
      constructor
      · rintro ⟨s', heq, h⟩
        cases heq
        exact h.plic
      · intro h
        exact ⟨_, rfl, .withPlic h⟩
  · rw [Plic.store_other (not_or.1 hlen).1 (not_or.1 hlen).2]
    refine iff_of_true ⟨_, rfl, .withPlic (.refl _)⟩ ?_
    rintro (⟨-, ⟨-, h⟩ | ⟨-, h⟩⟩ | ⟨-, -, h, -⟩)
    · exact hlen h
    · exact hlen (Or.inl h)
    · exact hlen (Or.inr h)

theorem clint_store_outside (h : 0x10000 < off.toNat + bytes.length) (hlt : off.toNat < 2 ^ 32) :
    RefusesStore host store s off bytes .clint := by
  have hstore : s.clint.store off bytes = (false, s.clint) := by
    by_cases hlong : 8 < bytes.length
    · exact clint_store_long hlong
    · exact clint_store_beyond h hlt (Nat.le_of_not_lt hlong)
  rw [RefusesStore, deviceStore, hstore, afterClint_self]
  refine iff_of_true ⟨_, rfl, ?_⟩ id
  exact ⟨rfl, rfl, rfl, rfl, ⟨rfl, rfl, rfl, rfl, rfl⟩, rfl, rfl, rfl, rfl, rfl, rfl⟩

/-- The debug module answers to four words, and looks at the length of three of them. -/
theorem debug_store_outside (h : 0x1000 < off.toNat + bytes.length)
    (hend : off.toNat + bytes.length ≤ 2 ^ 56) : RefusesStore host store s off bytes .debug := by
  rw [RefusesStore, StraysStore, and_iff_right h, and_iff_right hend, deviceStore,
    debug_store_beyond h]
  split
  · rename_i hasserts
    refine iff_of_false ?_ (not_not.2 ?_)
    · rintro ⟨s', heq, -⟩
      cases heq
    · obtain h | h | h := hasserts
      · exact Or.inl h
      · exact Or.inr (Or.inl h)
      · exact Or.inr (Or.inr (Or.inl h))
  · rename_i hasserts
    split
    · rename_i hexception
      refine iff_of_false ?_ (not_not.2 (Or.inr (Or.inr (Or.inr hexception))))
      rintro ⟨s', heq, -⟩
      cases heq
    · rename_i hexception
      refine iff_of_true ⟨s, rfl, SameDevices.refl s⟩ ?_
      rintro (h | h | h | h)
      · exact hasserts (Or.inl h)
      · exact hasserts (Or.inr (Or.inl h))
      · exact hasserts (Or.inr (Or.inr h))
      · exact hexception h

/-- **Stores beyond a window**, for the device that receives them. -/
theorem storeWith_outside (hplat : OnPlatform s) (hroute : s.findDevice paddr = some (base, dev))
    (hout : base + s.windowSize dev < paddr.toNat + bytes.length)
    (hend : paddr.toNat + bytes.length ≤ 2 ^ 56) :
    (∃ s', storeWith host store s paddr bytes = some (false, s') ∧ SameDevices s s') ↔
      ¬s.StraysStore (paddr - BitVec.ofNat 64 base) bytes dev := by
  have hsub : (paddr - BitVec.ofNat 64 base).toNat = paddr.toNat - base :=
    toNat_sub_base (Routing.find_le hroute)
  have hle : base ≤ paddr.toNat := Routing.find_le hroute
  have hlow := paddr_lt_of_route hroute
  rw [storeWith, hroute]
  show RefusesStore host store s (paddr - BitVec.ofNat 64 base) bytes dev
  generalize paddr - BitVec.ofNat 64 base = off at hsub ⊢
  have hbeyond : s.windowSize dev < off.toNat + bytes.length := by omega
  have hoff : off.toNat + bytes.length ≤ 2 ^ 56 := by omega
  cases dev with
  | dram => exact dram_store_outside hbeyond hoff
  | flash => exact flash_store_outside hbeyond hoff
  | vga => exact vga_store_outside hbeyond hoff
  | disk => exact disk_store_outside hbeyond hoff
  | rom => exact .of_refused rfl id
  | debug => exact debug_store_outside hbeyond hoff
  | uart => exact uart_store_outside hplat.uart hbeyond
  | plic =>
    have hlt := hlow (by decide)
    exact plic_store_outside hbeyond (by omega)
  | clint =>
    have hlt := hlow (by decide)
    exact clint_store_outside hbeyond (by omega)

/-! ### Windows are kept -/

/-- An access that strays does not lie in a window. -/
theorem not_straysLoad_of_fits (hroute : s.findDevice paddr = some (base, dev)) (hpos : 0 < n)
    (hfits : paddr.toNat + n ≤ base + s.windowSize dev) :
    ¬s.StraysLoad (paddr - BitVec.ofNat 64 base) n dev := by
  have hsub : (paddr - BitVec.ofNat 64 base).toNat = paddr.toNat - base :=
    toNat_sub_base (Routing.find_le hroute)
  have hle : base ≤ paddr.toNat := Routing.find_le hroute
  cases dev with
  | uart =>
    dsimp only [windowSize] at hfits
    rintro ⟨hge, -⟩
    omega
  | plic =>
    dsimp only [windowSize] at hfits
    rintro ⟨hgt, -⟩
    omega
  | clint =>
    dsimp only [windowSize] at hfits
    rintro ⟨hgt, -⟩
    omega
  | _ => exact id

theorem not_straysStore_of_fits (hroute : s.findDevice paddr = some (base, dev))
    (hpos : 0 < bytes.length)
    (hfits : paddr.toNat + bytes.length ≤ base + s.windowSize dev) :
    ¬s.StraysStore (paddr - BitVec.ofNat 64 base) bytes dev := by
  have hsub : (paddr - BitVec.ofNat 64 base).toNat = paddr.toNat - base :=
    toNat_sub_base (Routing.find_le hroute)
  have hle : base ≤ paddr.toNat := Routing.find_le hroute
  cases dev with
  | uart =>
    dsimp only [windowSize] at hfits
    rintro ⟨hge, -⟩
    omega
  | plic =>
    dsimp only [windowSize] at hfits
    rintro ⟨hgt, -⟩
    omega
  | debug =>
    dsimp only [windowSize] at hfits
    rintro ⟨hgt, -⟩
    omega
  | _ => exact id

/-- Accesses are refused when they reach beyond the physical addresses. -/
theorem refused_iff (hpos : 0 < n) (hn : n < 2 ^ 64) :
    refused paddr (BitVec.ofNat 64 n) = true ↔ ¬paddr.toNat + n ≤ 2 ^ 56 := by
  have hpaddr := paddr.isLt
  have hlast : (paddr + BitVec.ofNat 64 n - 1#64).toNat = (paddr.toNat + n - 1) % 2 ^ 64 := by
    rw [BitVec.toNat_sub, BitVec.toNat_add, BitVec.toNat_ofNat]
    show (2 ^ 64 - 1 + (paddr.toNat + n % 2 ^ 64) % 2 ^ 64) % 2 ^ 64 = _
    omega
  have hok : paddrOk (paddr + BitVec.ofNat 64 n - 1#64) = true ↔
      (paddr.toNat + n - 1) % 2 ^ 64 < 2 ^ 56 := by
    rw [paddrOk, beq_iff_eq, ← BitVec.toNat_inj, BitVec.toNat_ushiftRight,
      Nat.shiftRight_eq_div_pow, hlast]
    show (paddr.toNat + n - 1) % 2 ^ 64 / 2 ^ 56 = 0 ↔ _
    omega
  rw [refused, Bool.or_eq_true, decide_eq_true_iff, Bool.not_eq_true',
    ← Bool.not_eq_true, hok, BitVec.lt_def,
    BitVec.toNat_add, BitVec.toNat_ofNat]
  omega

/-- An access that strays is not refused. -/
theorem straysLoad_end {off : Reg} (h : s.StraysLoad off n dev)
    (hlow : dev ≠ .dram → paddr.toNat < 0x80000000) :
    0 < n ∧ paddr.toNat + n ≤ 2 ^ 56 := by
  cases dev with
  | uart =>
    have hlt := hlow (by decide)
    obtain ⟨-, hone⟩ := h
    omega
  | plic =>
    have hlt := hlow (by decide)
    obtain ⟨-, hlen, -⟩ := h
    omega
  | clint =>
    have hlt := hlow (by decide)
    obtain ⟨-, hpos, hlen, -⟩ := h
    omega
  | _ => exact h.elim

theorem straysStore_end (h : s.StraysStore (paddr - BitVec.ofNat 64 base) bytes dev)
    (hroute : s.findDevice paddr = some (base, dev))
    (hlow : dev ≠ .dram → paddr.toNat < 0x80000000) :
    0 < bytes.length ∧ paddr.toNat + bytes.length ≤ 2 ^ 56 := by
  cases dev with
  | uart =>
    have hlt := hlow (by decide)
    obtain ⟨-, hone⟩ := h
    omega
  | plic =>
    have hlt := hlow (by decide)
    have hlen : bytes.length = 4 ∨ bytes.length = 8 := by
      obtain ⟨-, ⟨-, ⟨-, h⟩ | ⟨-, h⟩⟩ | ⟨-, -, h, -⟩⟩ := h
      · exact h
      · exact Or.inl h
      · exact Or.inr h
    omega
  | debug =>
    have hbase : debugStart = base := map_functional (by simp [map]) (Routing.find_mem hroute)
    have hsub : (paddr - BitVec.ofNat 64 base).toNat = paddr.toNat - base :=
      toNat_sub_base (Routing.find_le hroute)
    obtain ⟨hgt, hend, hword⟩ := h
    unfold debugStart at hbase
    unfold DebugModule.debugRomHalted DebugModule.debugRomGoing DebugModule.debugRomResuming
      DebugModule.debugRomException at hword
    omega
  | _ => exact h.elim

/-- **Which accesses keep to the windows**: all but those that stray. A load or a store that does
not lie within the window of a device is refused and leaves every device as it was, exactly unless
the device below its address is one of those that do not look, at an address and with a length where
this shows. -/
theorem windows_iff (host : Host) (s : Devices) (paddr len : Reg) (buffer : Buffer)
    (hplat : OnPlatform s) :
    (s.LoadConfined paddr len.toNat ↔ ¬s.LoadStrays paddr len.toNat) ∧
      (s.StoreConfined host paddr buffer.bytes ↔ ¬s.StoreStrays paddr buffer.bytes) := by
  obtain ⟨base, dev, hroute, hlow⟩ := exists_route s paddr
  have hloads : s.LoadStrays paddr len.toNat ↔
      s.StraysLoad (paddr - BitVec.ofNat 64 base) len.toNat dev := by
    constructor
    · rintro ⟨base', dev', hroute', h⟩
      cases hroute.symm.trans hroute'
      exact h
    · exact fun h => ⟨base, dev, hroute, h⟩
  have hstores : s.StoreStrays paddr buffer.bytes ↔
      s.StraysStore (paddr - BitVec.ofNat 64 base) buffer.bytes dev := by
    constructor
    · rintro ⟨base', dev', hroute', h⟩
      cases hroute.symm.trans hroute'
      exact h
    · exact fun h => ⟨base, dev, hroute, h⟩
  have hempty : s.Inside paddr 0 := ⟨.dram, fun a hge hlt => absurd hlt (Nat.not_lt.2 hge)⟩
  rw [hloads, hstores]
  constructor
  · by_cases hpos : 0 < len.toNat
    swap
    · rw [LoadConfined, Nat.eq_zero_of_not_pos hpos]
      exact iff_of_true (Or.inl hempty) fun h => absurd (straysLoad_end h hlow).1 (Nat.lt_irrefl 0)
    rw [LoadConfined, inside_iff hplat hroute hpos, mmioLoad]
    by_cases hfits : paddr.toNat + len.toNat ≤ base + s.windowSize dev
    · exact iff_of_true (Or.inl hfits) (not_straysLoad_of_fits hroute hpos hfits)
    rw [or_iff_right hfits]
    split
    · rename_i hrefused
      exact iff_of_true ⟨s, rfl, SameDevices.refl s⟩ fun h =>
        (refused_iff hpos len.isLt).1 hrefused (straysLoad_end h hlow).2
    · rename_i hrefused
      have hend := not_not.1 (mt (refused_iff hpos len.isLt).2 hrefused)
      exact busLoad_outside hplat hroute hpos (Nat.lt_of_not_le hfits) hend
  · by_cases hpos : 0 < buffer.bytes.length
    swap
    · rw [StoreConfined, Nat.eq_zero_of_not_pos hpos]
      exact iff_of_true (Or.inl hempty) fun h => hpos (straysStore_end h hroute hlow).1
    rw [StoreConfined, inside_iff hplat hroute hpos, mmioStore]
    by_cases hfits : paddr.toNat + buffer.bytes.length ≤ base + s.windowSize dev
    · exact iff_of_true (Or.inl hfits) (not_straysStore_of_fits hroute hpos hfits)
    rw [or_iff_right hfits]
    split
    · rename_i hrefused
      exact iff_of_true ⟨s, rfl, SameDevices.refl s⟩ fun h =>
        (refused_iff hpos buffer.counted).1 hrefused (straysStore_end h hroute hlow).2
    · rename_i hrefused
      have hend := not_not.1 (mt (refused_iff hpos buffer.counted).2 hrefused)
      exact storeWith_outside hplat hroute (Nat.lt_of_not_le hfits) hend

/-- A word of the DRAM that ends with it, and one that does not. -/
theorem windows_dram :
    (unusedDisk.LoadConfined 0x8ffffffc#64 4 ∧
      unusedDisk.StoreConfined fullHost 0x8ffffffe#64 [1#8, 2#8, 3#8, 4#8]) := by
  obtain ⟨hloads, -⟩ :=
    windows_iff fullHost unusedDisk 0x8ffffffc#64 4#64 ⟨[], by decide⟩ (onPlatform_ofOneHart _)
  obtain ⟨-, hstores⟩ :=
    windows_iff fullHost unusedDisk 0x8ffffffe#64 4#64 ⟨[1#8, 2#8, 3#8, 4#8], by decide⟩
      (onPlatform_ofOneHart _)
  refine ⟨hloads.2 ?_, hstores.2 ?_⟩
  · rintro ⟨base, dev, hroute, h⟩
    rw [findDevice_eq, if_pos (by decide)] at hroute
    cases hroute
    exact h
  · rintro ⟨base, dev, hroute, h⟩
    rw [findDevice_eq, if_pos (by decide)] at hroute
    cases hroute
    exact h

/-- Without a disk, its window is another one of the serial port: byte 5 there is the line
status. -/
theorem not_loadConfined_alias : ¬(ofOneHart none).LoadConfined 0x10001005#64 1 := by
  have hroute : (ofOneHart none).findDevice 0x10001005#64 = some (uartBase, .uart) := by
    rw [findDevice_eq]
    decide
  rw [LoadConfined, inside_iff (onPlatform_ofOneHart none) hroute (by decide)]
  rintro (h | ⟨s', heq, -⟩)
  · exact absurd h (by decide)
  · rw [mmioLoad, if_neg (by decide), busLoad, hroute] at heq
    cases heq

end Devices

end Nnemu

import Nnemu.Clint.Registers
import Nnemu.Lib.Run

/-!
# The CLINT and the harts agree

Without `real_time`. A driver uses the CLINT as a file of registers, and after every use each hart
is shown the time, a timer interrupt when its comparator has been reached, and the software
interrupt that was stored last.

`ClintRegs` is the driver's view, a register file and the time with no harts in it. The CLINT
simulates it (`Coherent`), and what the harts are shown is a function of the view; so the theorem is
about every list of uses and any number of harts. Loads and stores are cut into words as the source
does it, and `Natural` is what makes both halves of an access aligned.
-/

namespace Nnemu

open Bytes

namespace Clint

variable {s : Clint} {r : ClintRegs}

/-! ### What the harts are shown -/

/-- The bits of `mip` that the CLINT drives. -/
theorem hasBits_writeWithMask (h : Hart) (mask val : Reg) {k : Nat} (hk : k < 64) :
    hasBits ((h.writeWithMask .mip mask val).reg .mip) (BitVec.twoPow 64 k) =
      if mask.getLsbD k then val.getLsbD k else hasBits (h.reg .mip) (BitVec.twoPow 64 k) := by
  rw [hasBits_twoPow hk, hasBits_twoPow hk, ← BitVec.getLsbD_eq_getElem hk,
    ← BitVec.getLsbD_eq_getElem hk,
    Hart.writeWithMask, Hart.reg_set, if_pos rfl, Bits.getLsbD_replace]

theorem mipMtip_eq : mipMtip = BitVec.twoPow 64 7 := by decide

theorem mipMsip_eq : mipMsip = BitVec.twoPow 64 3 := by decide

/-- `sync` leaves the machine-level bits of `mip` alone. -/
theorem hasBits_timeSync (h : Hart) (t : Reg) {k : Nat} (hk : k < 64)
    (hm : (mipStip ||| mipVstip).getLsbD k = false) :
    hasBits ((h.timeSync t).reg .mip) (BitVec.twoPow 64 k) =
      hasBits (h.reg .mip) (BitVec.twoPow 64 k) := by
  unfold Hart.timeSync
  extract_lets h₁ mipVal
  split
  · rw [hasBits_writeWithMask _ _ _ hk, hm]
    rfl
  · rfl

/-- The bits and the time of a hart that has been shown a time. -/
theorem tick_spec (t cmp : Reg) (h : Hart) :
    hasBits ((tick t cmp h).reg .mip) mipMtip = decide (cmp ≤ t) ∧
      hasBits ((tick t cmp h).reg .mip) mipMsip = hasBits (h.reg .mip) mipMsip ∧
      (tick t cmp h).reg .time = t := by
  refine ⟨?_, ?_, ?_⟩
  · rw [tick, mipMtip_eq, hasBits_writeWithMask _ _ _ (by decide), if_pos (by decide)]
    by_cases hle : cmp ≤ t
    · rw [if_pos hle, decide_eq_true hle]
      decide
    · rw [if_neg hle, decide_eq_false hle]
      decide
  · rw [tick, mipMsip_eq, hasBits_writeWithMask _ _ _ (by decide), if_neg (by decide),
      hasBits_timeSync _ _ (by decide) (by decide)]
  · rw [tick, Hart.writeWithMask, Hart.reg_set, if_neg (by decide), Hart.reg_timeSync t (by decide),
      if_pos rfl]

/-! ### Coherence -/

/-- The CLINT holds these registers. What the harts are shown may be out of date. -/
structure Holds (s : Clint) (r : ClintRegs) : Prop where
  simulated : s.realTime = none
  running : s.aborted = false
  mtime : s.mtime = r.mtime
  mtimecmp : s.mtimecmp = r.mtimecmp
  present (id : Nat) : (s.harts id).isSome = r.present id
  msip (id : Nat) (h : Hart) : s.harts id = some h → hasBits (h.reg .mip) mipMsip = r.msip id

/-- The CLINT holds these registers, and the harts are shown what they say. -/
structure Coherent (s : Clint) (r : ClintRegs) : Prop extends Holds s r where
  mtip (id : Nat) (h : Hart) : s.harts id = some h →
    hasBits (h.reg .mip) mipMtip = decide (r.mtimecmp id ≤ r.mtime)
  /-- the time as it is read without virtualization -/
  time (id : Nat) (h : Hart) : s.harts id = some h → Hart.timeRead { h with v := false } = r.mtime

/-- **`increment` shows the harts what the registers say.** -/
theorem Holds.increment (w : Holds s r) (inc : Reg) :
    Coherent (s.increment inc) (r.increment inc) := by
  have hnext : s.nextTime inc = r.mtime + inc := by rw [nextTime, w.simulated, w.mtime]
  have hold (id : Nat) (h' : Hart) (hh : (s.increment inc).harts id = some h') :
      ∃ h, s.harts id = some h ∧ h' = tick (r.mtime + inc) (r.mtimecmp id) h := by
    obtain ⟨h, hh, heq⟩ := Option.map_eq_some_iff.1 hh
    refine ⟨h, hh, ?_⟩
    rw [← heq, hnext, w.mtimecmp]
  refine ⟨⟨w.simulated, w.running, hnext, w.mtimecmp, fun id => ?_, fun id h' hh => ?_⟩,
    fun id h' hh => ?_,
    fun id h' hh => ?_⟩
  · exact Option.isSome_map.trans (w.present id)
  · obtain ⟨h, hold, rfl⟩ := hold id h' hh
    exact (tick_spec _ _ h).2.1.trans (w.msip id h hold)
  · obtain ⟨h, -, rfl⟩ := hold id h' hh
    exact (tick_spec _ _ h).1
  · obtain ⟨h, -, rfl⟩ := hold id h' hh
    exact (tick_spec (r.mtime + inc) (r.mtimecmp id) h).2.2

theorem Holds.refresh (w : Holds s r) : Coherent (s.increment 0#64) r := by
  have hinc := w.increment 0#64
  rw [ClintRegs.increment, BitVec.add_zero] at hinc
  exact hinc

/-! ### Loads -/

/-- An access that does not reach beyond the word it is for. -/
structure Within (addr : Reg) (len : Nat) : Prop where
  short : len ≤ 8
  dword : addr.toNat % 8 + len ≤ 8
  word : addr < 0x4000#64 → addr.toNat % 4 + len ≤ 4

/-- What the CLINT accepts, beside the addresses of its registers. -/
theorem lt_iff (addr : Reg) (n : Nat) (hn : n < 2 ^ 64) : addr < BitVec.ofNat 64 n ↔
    addr.toNat < n := by
  rw [BitVec.lt_def, BitVec.toNat_ofNat, Nat.mod_eq_of_lt hn]

/-- Is an access accepted? -/
def accepts (addr : Reg) (len : Nat) : Bool :=
  decide ((addr.toNat + len) % 2 ^ 64 ≤ 0x10000)

theorem le_iff_accepts (addr : Reg) {len : Nat} (hlen : len ≤ 8) :
    addr + BitVec.ofNat 64 len ≤ 0x10000#64 ↔ accepts addr len = true := by
  rw [accepts, decide_eq_true_iff, BitVec.le_def, BitVec.toNat_add, BitVec.toNat_ofNat,
    Nat.mod_eq_of_lt (show len < 2 ^ 64 by omega)]
  rfl

theorem accepts_of_lt {addr : Reg} {len : Nat} (hlt : addr.toNat < 0xc000) (hlen : len ≤ 8) :
    accepts addr len = true := by
  rw [accepts, decide_eq_true_iff]
  omega

/-- The word of a software interrupt. -/
theorem getByte_msip (b : Bool) {k : Nat} (hk : k < 4) :
    getByte (if b then 1#64 else 0#64) k = if k = 0 ∧ b then 1#8 else 0#8 := by
  revert b
  revert k
  decide

/-- **A load of a word** is a load of the registers. -/
theorem Coherent.loadWord (w : Coherent s r) {addr : Reg} {len : Nat} (hin : Within addr len) :
    (s.loadWord addr len).1 = (if accepts addr len then some (r.load addr.toNat len) else none) ∧
      Coherent (s.loadWord addr len).2 r := by
  have wi := w.toHolds.refresh
  have hword := hin.dword
  rw [Clint.loadWord, if_neg (Nat.not_lt.2 hin.short)]
  dsimp only
  by_cases hmsip : addr < 0x4000#64
  · have hfour := hin.word hmsip
    have hlt := (lt_iff addr 0x4000 (by decide)).1 hmsip
    rw [if_pos hmsip, if_neg (by omega), if_pos (accepts_of_lt (by omega) hin.short)]
    refine ⟨congrArg some (r.load_of_word fun i hi => ?_).symm, wi⟩
    have hdiv : (addr.toNat + i) / 4 = addr.toNat / 4 := by omega
    rw [getByte_msip _ (Nat.mod_lt _ (by decide)), ClintRegs.byte, if_pos (by omega), hdiv]
    -- an absent hart has no pending interrupt
    have hany : (((s.increment 0#64).harts (addr.toNat / 4)).any fun h => hasBits
      (h.reg .mip) mipMsip) =
        (r.present (addr.toNat / 4) && r.msip (addr.toNat / 4)) := by
      rw [← wi.present]
      cases hh : (s.increment 0#64).harts (addr.toNat / 4) with
      | none => rfl
      | some h => exact wi.msip _ h hh
    rw [hany]
    simp only [Bool.and_eq_true]
  have hge : ¬ addr.toNat < 0x4000 := fun h => hmsip ((lt_iff addr 0x4000 (by decide)).2 h)
  rw [if_neg hmsip]
  by_cases hcmp : addr < 0xbff8#64
  · have hlt := (lt_iff addr 0xbff8 (by decide)).1 hcmp
    rw [if_pos hcmp, if_pos (accepts_of_lt (by omega) hin.short)]
    refine ⟨congrArg some (r.load_of_word fun i hi => ?_).symm, wi⟩
    have hid : (addr.toNat + i - 0x4000) / 8 = (addr.toNat - 0x4000) / 8 := by omega
    rw [ClintRegs.byte, if_neg (by omega), if_pos (by omega), hid, wi.present, wi.mtimecmp]
    split
    · rfl
    · simp [getByte]
  have hge' : ¬ addr.toNat < 0xbff8 := fun h => hcmp ((lt_iff addr 0xbff8 (by decide)).2 h)
  rw [if_neg hcmp]
  by_cases htime : addr < 0xc000#64
  · have hlt := (lt_iff addr 0xc000 (by decide)).1 htime
    rw [if_pos htime, if_pos (accepts_of_lt hlt hin.short)]
    refine ⟨congrArg some (r.load_of_word fun i hi => ?_).symm, wi⟩
    rw [ClintRegs.byte, if_neg (by omega), if_neg (by omega), if_pos (by omega), wi.mtime]
  have hge'' : ¬ addr.toNat < 0xc000 := fun h => htime ((lt_iff addr 0xc000 (by decide)).2 h)
  rw [if_neg htime]
  by_cases hsize : addr + BitVec.ofNat 64 len ≤ 0x10000#64
  · rw [if_pos hsize, if_pos ((le_iff_accepts addr hin.short).1 hsize)]
    refine ⟨congrArg some (List.eq_replicate_iff.2 ⟨r.length_load _ _, fun b hb => ?_⟩).symm, wi⟩
    obtain ⟨i, -, rfl⟩ := List.mem_map.1 hb
    rw [ClintRegs.byte, if_neg (by omega), if_neg (by omega), if_neg (by omega)]
  · rw [if_neg hsize, if_neg fun h => hsize ((le_iff_accepts addr hin.short).2 h)]
    exact ⟨rfl, wi⟩

/-- A naturally aligned word of 1, 2, 4 or 8 bytes. -/
structure Natural (addr : Reg) (len : Nat) : Prop where
  size : len = 1 ∨ len = 2 ∨ len = 4 ∨ len = 8
  aligned : addr.toNat % len = 0

theorem Natural.within {addr : Reg} {len : Nat} (hn : Natural addr len)
    (hsplit : ¬ (len = 8 ∧ addr < 0x4000#64)) :
    Within addr len := by
  obtain ⟨hsize, halign⟩ := hn
  refine ⟨by omega, ?_, fun hmsip => ?_⟩
  · obtain rfl | rfl | rfl | rfl := hsize <;> omega
  · obtain rfl | rfl | rfl | rfl := hsize
    · omega
    · omega
    · omega
    · exact absurd ⟨rfl, hmsip⟩ hsplit

/-- A double word of software interrupts is two words. -/
theorem Natural.halves {addr : Reg} (hn : Natural addr 8) (hmsip : addr < 0x4000#64) :
    (addr + 4#64).toNat = addr.toNat + 4 ∧ Within addr 4 ∧ Within (addr + 4#64) 4 ∧
    accepts addr 8 = true ∧
      accepts addr 4 = true ∧ accepts (addr + 4#64) 4 = true := by
  have halign := hn.aligned
  have hlt := (lt_iff addr 0x4000 (by decide)).1 hmsip
  have hfour : (addr + 4#64).toNat = addr.toNat + 4 := by
    rw [BitVec.toNat_add, BitVec.toNat_ofNat]
    omega
  refine ⟨hfour, ⟨by decide, by omega, fun _ => by omega⟩, ⟨by decide, by omega, fun _ => by omega⟩,
    accepts_of_lt (by omega) (by decide), accepts_of_lt (by omega) (by decide),
    accepts_of_lt (by omega) (by decide)⟩

/-- **A load** is a load of the registers. -/
theorem Coherent.load (w : Coherent s r) {addr : Reg} {len : Nat} (hn : Natural addr len) :
    (s.load addr len).1 = (if accepts addr len then some (r.load addr.toNat len) else none) ∧
      Coherent (s.load addr len).2 r := by
  rw [Clint.load]
  by_cases hsplit : len = 8 ∧ addr < 0x4000#64
  case neg =>
    rw [if_neg hsplit]
    exact w.loadWord (hn.within hsplit)
  obtain ⟨rfl, hmsip⟩ := hsplit
  obtain ⟨hfour, hin, hin', hacc, hacc₁, hacc₂⟩ := hn.halves hmsip
  rw [if_pos ⟨rfl, hmsip⟩, if_pos hacc]
  obtain ⟨hlow, w₁⟩ := w.toHolds.refresh.loadWord hin
  obtain ⟨hhigh, w₂⟩ := w₁.loadWord hin'
  rw [if_pos hacc₁] at hlow
  rw [if_pos hacc₂, hfour] at hhigh
  cases hc₁ : (s.increment 0#64).loadWord addr 4 with
  | mk low s₁ =>
    rw [hc₁] at hlow hhigh w₂
    dsimp only at hlow hhigh w₂
    cases hc₂ : s₁.loadWord (addr + 4#64) 4 with
    | mk high s₂ =>
      rw [hc₂] at hhigh w₂
      dsimp only at hhigh w₂
      rw [hlow]
      dsimp only
      rw [hc₂, hhigh]
      exact ⟨congrArg some (r.load_add addr.toNat 4 4).symm, w₂⟩

/-! ### Stores -/

theorem harts_setMsip (s : Clint) (id : Nat) (level : Bool) (i : Nat) :
    (s.setMsip id level).harts i =
      if i = id then (s.harts id).map fun h => h.writeWithMask .mip mipMsip
      (if level then mipMsip else 0#64)
      else s.harts i :=
  Function.update_apply _ _ _ _

/-- The software interrupt of one hart is driven. -/
theorem Holds.setMsip (w : Holds s r) (id : Nat) (level : Bool) :
    Holds (s.setMsip id level) { r with msip := Function.update r.msip id level } := by
  refine ⟨w.simulated, w.running, w.mtime, w.mtimecmp, fun i => ?_, fun i h hh => ?_⟩
  · rw [harts_setMsip]
    split
    next hi => rw [Option.isSome_map, hi, w.present]
    · exact w.present i
  · rw [harts_setMsip] at hh
    dsimp only
    rw [Function.update_apply]
    split at hh
    next hi =>
      obtain ⟨h₀, -, rfl⟩ := Option.map_eq_some_iff.1 hh
      rw [if_pos hi, mipMsip_eq, hasBits_writeWithMask _ _ _ (by decide), if_pos (by decide)]
      cases level <;> decide
    next hi =>
      rw [if_neg hi]
      exact w.msip i h hh

/-- An absent hart has no software interrupt to drive. -/
theorem Holds.setMsip_absent (w : Holds s r) {id : Nat} (hp : ¬ r.present id = true)
    (level : Bool) :
    Holds (s.setMsip id level) r := by
  have hnone : s.harts id = none := by
    rw [← w.present, Bool.not_eq_true, Option.isSome_eq_false_iff] at hp
    exact Option.isNone_iff_eq_none.1 hp
  have hsame : s.setMsip id level = s := by
    rw [Clint.setMsip, hnone, Option.map_none, ← hnone, Function.update_eq_self]
  rw [hsame]
  exact w

/-- The bytes after the first leave the lowest bit. -/
theorem getLsbD_write_tail {word addr : Reg} {bytes : List (BitVec 8)}
    (hin : ∀ i, i < bytes.length → (addr.toNat + i) % 4 ≠ 0) :
    (writeLittleEndianReg 4 word addr bytes).getLsbD 0 = word.getLsbD 0 := by
  induction bytes generalizing word addr with
  | nil => rfl
  | cons b bs ih =>
    have h0 : addr.toNat % 4 ≠ 0 := hin 0 (Nat.zero_lt_succ _)
    have hrest : ∀ i, i < bs.length → ((addr + 1#64).toNat + i) % 4 ≠ 0 := by
      intro i hi
      have := hin (i + 1) (Nat.succ_lt_succ hi)
      rw [BitVec.toNat_add, BitVec.toNat_ofNat]
      omega
    have hshift : 0 < 8 * (addr.toNat % 4) := by omega
    rw [writeLittleEndianReg, ih hrest, BitVec.getLsbD_or, BitVec.getLsbD_and, BitVec.getLsbD_not,
      BitVec.getLsbD_shiftLeft, BitVec.getLsbD_shiftLeft, decide_eq_true hshift]
    simp

/-- The bit of a software interrupt is that of the first byte. -/
theorem hasBits_msip {addr : Reg} {b : BitVec 8} {bs : List (BitVec 8)}
    (halign : addr.toNat % 4 = 0)
    (hlen : bs.length < 4) : hasBits (writeLittleEndianReg 4 0#64 addr (b :: bs)) 1#64 =
      b.getLsbD 0 := by
  have hone : (1#64 : Reg) = BitVec.twoPow 64 0 := by decide
  have htail : ∀ i, i < bs.length → ((addr + 1#64).toNat + i) % 4 ≠ 0 := by
    intro i hi
    rw [BitVec.toNat_add, BitVec.toNat_ofNat]
    omega
  rw [hone, hasBits_twoPow (by decide), ← BitVec.getLsbD_eq_getElem (by decide),
    writeLittleEndianReg,
    getLsbD_write_tail htail, halign, BitVec.getLsbD_or, BitVec.zero_and]
  simp

/-- **A store of a word** is a store to the registers. -/
theorem Coherent.storeWord (w : Coherent s r) {addr : Reg} {bytes : List (BitVec 8)}
    (hne : bytes ≠ [])
    (hin : Within addr bytes.length) :
    (s.storeWord addr bytes).1 = accepts addr bytes.length ∧
      Coherent (s.storeWord addr bytes).2 (r.store addr.toNat bytes) := by
  have hword := hin.dword
  rw [Clint.storeWord, if_neg (Nat.not_lt.2 hin.short)]
  by_cases hmsip : addr < 0x4000#64
  · have hfour := hin.word hmsip
    have hlt := (lt_iff addr 0x4000 (by decide)).1 hmsip
    rw [if_pos hmsip, accepts_of_lt (by omega) hin.short]
    -- the bit is in the first byte of its word, the bytes behind it are dropped
    by_cases halign : addr.toNat % 4 = 0
    · rw [if_pos halign, if_neg (by omega)]
      refine ⟨rfl, ?_⟩
      obtain ⟨b, bs, rfl⟩ := List.exists_cons_of_ne_nil hne
      rw [List.length_cons] at hfour
      have htail : ∀ r : ClintRegs, r.store (addr.toNat + 1) bs = r := by
        intro r
        cases bs with
        | nil => rfl
        | cons b' bs =>
          rw [List.length_cons] at hfour
          exact r.store_msip_tail (by omega) fun i hi => by
            rw [List.length_cons] at hi
            omega
      rw [ClintRegs.store, htail, ClintRegs.storeByte, if_pos hlt]
      dsimp only
      rw [hasBits_msip halign (by omega)]
      by_cases hp : r.present (addr.toNat / 4) = true
      · rw [if_pos ⟨halign, hp⟩]
        exact (w.toHolds.setMsip _ _).refresh
      · rw [if_neg fun h => hp h.2]
        exact (w.toHolds.setMsip_absent hp _).refresh
    · rw [if_neg halign]
      refine ⟨rfl, ?_⟩
      rw [r.store_msip_tail hlt fun i hi => by omega]
      exact w.toHolds.refresh
  have hge : ¬ addr.toNat < 0x4000 := fun h => hmsip ((lt_iff addr 0x4000 (by decide)).2 h)
  rw [if_neg hmsip]
  -- the comparators, of which one without a hart is dropped
  by_cases hcmp : addr < 0xbff8#64
  · have hlt := (lt_iff addr 0xbff8 (by decide)).1 hcmp
    rw [if_pos hcmp, accepts_of_lt (by omega) hin.short]
    refine ⟨rfl, ?_⟩
    dsimp only
    by_cases hp : (s.harts ((addr.toNat - 0x4000) / 8)).isSome = true
    · rw [if_pos hp, r.store_mtimecmp (w.present _ ▸ hp) (by omega) (by omega) fun i hi => by omega]
      refine Holds.refresh ⟨w.simulated, w.running, w.mtime, ?_, w.present, w.msip⟩
      rw [setMtimecmp, ClintRegs.setMtimecmp, w.mtimecmp]
    · rw [if_neg hp, r.store_absent (fun h => hp ((w.present _).trans h))
        (by omega) (by omega) fun i hi => by omega]
      exact w.toHolds.refresh
  have hge' : ¬ addr.toNat < 0xbff8 := fun h => hcmp ((lt_iff addr 0xbff8 (by decide)).2 h)
  rw [if_neg hcmp]
  -- the counter
  by_cases htime : addr < 0xc000#64
  · have hlt := (lt_iff addr 0xc000 (by decide)).1 htime
    rw [if_pos htime, accepts_of_lt hlt hin.short, r.store_mtime (by omega) (by omega)]
    refine ⟨rfl, Holds.refresh ⟨w.simulated, w.running, ?_, w.mtimecmp, w.present, w.msip⟩⟩
    rw [setMtime, w.mtime]
  have hge'' : ¬ addr.toNat < 0xc000 := fun h => htime ((lt_iff addr 0xc000 (by decide)).2 h)
  rw [if_neg htime, r.store_of_ge (by omega)]
  -- nothing lies behind the counter, and a store past the window fails
  by_cases hsize : addr + BitVec.ofNat 64 bytes.length ≤ 0x10000#64
  · rw [if_pos hsize, (le_iff_accepts addr hin.short).1 hsize]
    exact ⟨rfl, w.toHolds.refresh⟩
  · rw [if_neg hsize, Bool.eq_false_iff.2 fun h => hsize ((le_iff_accepts addr hin.short).2 h)]
    exact ⟨rfl, w⟩

/-- **A store** is a store to the registers. -/
theorem Coherent.store (w : Coherent s r) {addr : Reg} {bytes : List (BitVec 8)}
    (hn : Natural addr bytes.length) :
    (s.store addr bytes).1 = accepts addr bytes.length ∧
    Coherent (s.store addr bytes).2 (r.store addr.toNat bytes) := by
  have hne {bs : List (BitVec 8)}
      (h : bs.length = 1 ∨ bs.length = 2 ∨ bs.length = 4 ∨ bs.length = 8) : bs ≠ [] := by
    rintro rfl
    exact absurd h (by decide)
  rw [Clint.store]
  by_cases hsplit : bytes.length = 8 ∧ addr < 0x4000#64
  case neg =>
    rw [if_neg hsplit]
    exact w.storeWord (hne hn.size) (hn.within hsplit)
  obtain ⟨hlen, hmsip⟩ := hsplit
  rw [hlen] at hn
  obtain ⟨hfour, hin, hin', hacc, hacc₁, hacc₂⟩ := hn.halves hmsip
  have hlow : (bytes.take 4).length = 4 := by rw [List.length_take, hlen]; rfl
  have hhigh : (bytes.drop 4).length = 4 := by rw [List.length_drop, hlen]
  obtain ⟨hok₁, w₁⟩ := w.storeWord (hne (by omega)) (hlow.symm ▸ hin)
  have hin₂ : Within (addr + 4#64) (bytes.drop 4).length := by
    rw [hhigh]
    exact hin'
  obtain ⟨hok₂, w₂⟩ := w₁.storeWord (hne (by omega)) hin₂
  have hboth : r.store addr.toNat bytes =
      (r.store addr.toNat (bytes.take 4)).store (addr + 4#64).toNat (bytes.drop 4) := by
    rw [hfour]
    conv => lhs; rw [← List.take_append_drop 4 bytes]
    rw [r.store_append, hlow]
  rw [hlow, hacc₁] at hok₁
  rw [hhigh, hacc₂] at hok₂
  rw [if_pos ⟨hlen, hmsip⟩, hlen, hacc, hboth]
  cases hc : s.storeWord addr (bytes.take 4) with
  | mk ok s₁ =>
    rw [hc] at hok₁ hok₂ w₂
    dsimp only at hok₁ hok₂ w₂
    rw [hok₁]
    exact ⟨hok₂, w₂⟩

/-! ### Runs -/

/-- A use of the CLINT: naturally aligned words, as the harts access it. -/
inductive Use where
  | increment (inc : Reg)
  | load (addr : Reg) (len : Nat) (h : Natural addr len)
  | store (addr : Reg) (bytes : List (BitVec 8)) (h : Natural addr bytes.length)

/-- A use: what it returns, and the CLINT afterwards. -/
def use (s : Clint) : Use → LoadResult × Clint
  | .increment inc => (some [], s.increment inc)
  | .load addr len _ => s.load addr len
  | .store addr bytes _ =>
    let (ok, s) := s.store addr bytes
    (if ok then some [] else none, s)

/-- The CLINT after a use. -/
def useStep (s : Clint) (u : Use) : Clint :=
  (s.use u).2

/-- The constructor, without `real_time`: the time is shown to the harts. -/
def new (harts : Nat → Option Hart) : Clint :=
  Clint.increment
    { realTime := none, readings := 0, mtime := 0#64, mtimecmp := fun _ => 0#64,
      harts := harts, aborted := false } 0#64

end Clint

namespace ClintRegs

/-- A use of the registers: what it returns, and the registers afterwards. -/
def use (r : ClintRegs) : Clint.Use → LoadResult × ClintRegs
  | .increment inc => (some [], r.increment inc)
  | .load addr len _ => (if Clint.accepts addr len then some (r.load addr.toNat len) else none, r)
  | .store addr bytes _ => (if Clint.accepts addr bytes.length then some [] else none,
    r.store addr.toNat bytes)

/-- The registers after a use. -/
def useStep (r : ClintRegs) (u : Clint.Use) : ClintRegs :=
  (r.use u).2

/-- The registers at first. A software interrupt that nobody has stored is as the hart has it. -/
def new (harts : Nat → Option Hart) : ClintRegs where
  mtime := 0#64
  mtimecmp := fun _ => 0#64
  msip := fun id => (harts id).any fun h => hasBits (h.reg .mip) mipMsip
  present := fun id => (harts id).isSome

end ClintRegs

namespace Clint

theorem coherent_new (harts : Nat → Option Hart) : Coherent (new harts) (ClintRegs.new harts) := by
  refine Holds.refresh ⟨rfl, rfl, rfl, rfl, fun _ => rfl, fun id h hh => ?_⟩
  rw [ClintRegs.new]
  dsimp only at hh ⊢
  rw [hh]
  rfl

/-- One use, of the CLINT and of the registers. -/
theorem Coherent.use (w : Coherent s r) (u : Use) : (s.use u).1 = (r.use u).1 ∧
    Coherent (s.useStep u) (r.useStep u) := by
  cases u with
  | increment inc => exact ⟨rfl, w.toHolds.increment inc⟩
  | load addr len hn => exact w.load hn
  | store addr bytes hn =>
    obtain ⟨hok, hnext⟩ := w.store hn
    refine ⟨?_, hnext⟩
    rw [Clint.use, ClintRegs.use, ← hok]

/-- **The CLINT is coherent.** Whatever harts there are, every run of increments and of accesses to
naturally aligned words returns what the registers return, and after it each hart is shown the time,
its timer interrupt and its software interrupt as the registers have them. -/
theorem uses_coherent (harts : Nat → Option Hart) (uses : List Use) :
    Run.collect useStep (fun s u => [(s.use u).1]) (new harts) uses =
        Run.collect ClintRegs.useStep (fun r u => [(r.use u).1]) (ClintRegs.new harts) uses ∧
      Coherent (Run.run useStep (new harts) uses)
      (Run.run ClintRegs.useStep (ClintRegs.new harts) uses) := by
  refine Run.collect_simulate (R := Coherent) (fun s r u w => ?_) (coherent_new harts) uses
  obtain ⟨hanswer, hnext⟩ := w.use u
  exact ⟨congrArg (fun a => [a]) hanswer, hnext⟩

end Clint

end Nnemu

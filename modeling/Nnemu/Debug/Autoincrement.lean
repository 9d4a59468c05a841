import Nnemu.Debug.SystemBus

/-!
# The address of the system bus moves on

The four words of `sbaddress` are a number of 128 bits, and `sbAutoincrement` is to add the size of
an access to it, so that a block transfer needs its address only once. Each sum is of two words and
wraps before the carry is taken from it, so that no carry is ever seen. `autoincrement_exact` says
which addresses move as they should, and which block transfers visit consecutive addresses.

The address is compared as a number (`sbNumber`). One step is exact as long as the first word does
not wrap, since it is the carry out of this word that is lost. A block transfer is a list of
accesses, and what it visits is computed from the first address (`toNat_visited`); its addresses are
consecutive exactly where the first word does not wrap before the last of them (`consecutive_iff`).
-/

namespace Nnemu

open Bytes Run

namespace DebugModule

/-- The number that the words of `sbaddress` form. -/
def sbNumber (d : DebugModule) : Nat :=
  (d.sbaddress 0).toNat + 2 ^ 32 * (d.sbaddress 1).toNat + 2 ^ 64 * (d.sbaddress 2).toNat + 2 ^ 96 *
    (d.sbaddress 3).toNat

/-- Is the address to move? -/
def Autoincrements (d : DebugModule) : Prop :=
  d.sbcs.autoincrement = true ∧ d.config.maxSbaDataWidth ≠ 0

/-- The size of an access in bytes, of which `sbcs.sbaccess` is the logarithm. -/
def sbSize (d : DebugModule) : Nat :=
  2 ^ d.sbcs.sbaccess.toNat

end DebugModule

/-- The address of an access of the bus. -/
def Transfer.addr : Transfer → BitVec 64
  | load addr _ => addr
  | store addr _ => addr

open DebugModule in
/-- An access of a block transfer: it goes to the bus by way of `sbdata0` and succeeds. -/
structure BlockAccess (bus : SysBus) (a : DmiAccess) (d : DebugModule)
    (t : Transfer) (d' : DebugModule) : Prop where
  data : a.cause d ≠ some .writeAddress
  made : a.performed d = some t
  acts : d.act (a.op bus) = some d'
  succeeds : d'.sbcs.error = 0#32

open DebugModule in
/-- **A block transfer**, with the addresses that it visits. -/
inductive BlockTransfer (bus : SysBus) : DebugModule → List (BitVec 64) → DebugModule → Prop
  | nil (d : DebugModule) : BlockTransfer bus d [] d
  | cons {a : DmiAccess} {d d' d'' : DebugModule} {t : Transfer} {visited : List (BitVec 64)}
      (head : BlockAccess bus a d t d') (tail : BlockTransfer bus d' visited d'') :
      BlockTransfer bus d (t.addr :: visited) d''

/-- Does each address follow the one before it at a distance of `size`, the first one being
`start`? -/
def Consecutive (start : BitVec 64) (size : Nat) (visited : List (BitVec 64)) : Prop :=
  ∀ k addr, visited[k]? = some addr → addr = start + BitVec.ofNat 64 (k * size)

namespace DebugModule

variable {d d' : DebugModule}

/-! ### One step -/

theorem toNat_sbAccessBytes (h : d.sbcs.sbaccess.toNat < 8) : d.sbAccessBytes.toNat = d.sbSize := by
  rw [sbAccessBytes, sbSize]
  generalize d.sbcs.sbaccess.toNat = n at h
  interval_cases n <;> decide

/-- The size is one of a few bytes. -/
theorem sbSize_le (h : d.sbcs.sbaccess.toNat < 8) : d.sbSize ≤ 128 :=
  Nat.pow_le_pow_right Nat.two_pos (Nat.le_of_lt_succ h)

/-- A sum that has wrapped has no carry. -/
theorem carry_eq_zero (v : BitVec 32) : (v.setWidth 64 >>> 32).setWidth 32 = 0#32 := by
  ext i hi
  simp [BitVec.getElem_setWidth, BitVec.getLsbD_ushiftRight]

/-- **Only the first word moves.** -/
theorem sbaddress_sbAutoincrement (h : d.Autoincrements) :
    d.sbAutoincrement.sbaddress 0 = d.sbaddress 0 + d.sbAccessBytes ∧
      d.sbAutoincrement.sbaddress 1 = d.sbaddress 1 ∧ d.sbAutoincrement.sbaddress 2 =
        d.sbaddress 2 ∧
      d.sbAutoincrement.sbaddress 3 = d.sbaddress 3 := by
  obtain ⟨hauto, hwidth⟩ := h
  have hset (v : BitVec 32) : (v.setWidth 64).setWidth 32 = v := by
    rw [BitVec.setWidth_setWidth_of_le _ (by decide), BitVec.setWidth_eq]
  rw [sbAutoincrement, if_neg (by rw [hauto]; simpa using hwidth)]
  simp only [carry_eq_zero, BitVec.add_zero, hset]
  exact ⟨rfl, rfl, rfl, rfl⟩

/-- The first word after a step. -/
theorem toNat_sbAutoincrement_zero (h : d.Autoincrements) (hsize : d.sbcs.sbaccess.toNat < 8) :
    (d.sbAutoincrement.sbaddress 0).toNat = ((d.sbaddress 0).toNat + d.sbSize) % 2 ^ 32 := by
  rw [(sbaddress_sbAutoincrement h).1, BitVec.toNat_add, toNat_sbAccessBytes hsize]

/-- **A step is right** as long as the first word does not wrap. -/
theorem sbNumber_sbAutoincrement_iff (h : d.Autoincrements) (hsize : d.sbcs.sbaccess.toNat < 8) :
    d.sbAutoincrement.sbNumber = (d.sbNumber + d.sbSize) % 2 ^ 128 ↔
    (d.sbaddress 0).toNat + d.sbSize < 2 ^ 32 := by
  have hzero := toNat_sbAutoincrement_zero h hsize
  obtain ⟨-, hone, htwo, hthree⟩ := sbaddress_sbAutoincrement h
  have hle := sbSize_le hsize
  have hlt (i : Nat) := (d.sbaddress i).isLt
  rw [sbNumber, sbNumber, hzero, hone, htwo, hthree]
  have h0 := hlt 0
  have h1 := hlt 1
  have h2 := hlt 2
  have h3 := hlt 3
  generalize (d.sbaddress 0).toNat = w₀ at *
  generalize (d.sbaddress 1).toNat = w₁ at *
  generalize (d.sbaddress 2).toNat = w₂ at *
  generalize (d.sbaddress 3).toNat = w₃ at *
  generalize d.sbSize = s at *
  omega

/-! ### Block transfers -/

theorem toNat_sbTarget : d.sbTarget.toNat = (d.sbaddress 0).toNat +
    2 ^ 32 * (d.sbaddress 1).toNat := by
  have h0 := (d.sbaddress 0).isLt
  have h1 := (d.sbaddress 1).isLt
  rw [sbTarget, BitVec.toNat_or, BitVec.toNat_shiftLeft, BitVec.toNat_setWidth_of_le (by decide),
    BitVec.toNat_setWidth_of_le (by decide), Nat.mod_eq_of_lt (by omega),
    Nat.shiftLeft_eq, Nat.mul_comm _ (2 ^ 32),
    ← Nat.two_pow_add_eq_or_of_lt h0, Nat.add_comm]

/-- What a step of a transfer leaves of the address and of what moves it. -/
structure Advances (d d' : DebugModule) : Prop where
  sbaddress : d'.sbaddress = d.sbAutoincrement.sbaddress
  sbcs : d'.sbcs = d.sbcs
  config : d'.config = d.config

theorem sbcs_sbAutoincrement : d.sbAutoincrement.sbcs = d.sbcs := by
  rw [sbAutoincrement]
  split <;> rfl

theorem config_sbAutoincrement : d.sbAutoincrement.config = d.config := by
  rw [sbAutoincrement]
  split <;> rfl

/-- The address and what moves it stay. -/
structure SameBus (d d' : DebugModule) : Prop where
  sbaddress : d'.sbaddress = d.sbaddress
  sbcs : d'.sbcs = d.sbcs
  config : d'.config = d.config

theorem SameBus.refl (d : DebugModule) : SameBus d d :=
  ⟨rfl, rfl, rfl⟩

theorem SameBus.trans {d'' : DebugModule} (h : SameBus d d') (h' : SameBus d' d'') :
    SameBus d d'' :=
  ⟨h'.sbaddress.trans h.sbaddress, h'.sbcs.trans h.sbcs, h'.config.trans h.config⟩

/-- The next address depends on nothing else. -/
theorem SameBus.sbAutoincrement (h : SameBus d d') : Advances d d'.sbAutoincrement := by
  refine ⟨?_, sbcs_sbAutoincrement.trans h.sbcs, config_sbAutoincrement.trans h.config⟩
  simp only [DebugModule.sbAutoincrement, sbAccessBytes, h.sbaddress, h.sbcs, h.config]
  split
  · exact h.sbaddress
  · rfl

theorem sameBus_store {addr : Nat} {bytes : List (BitVec 8)} {r : Bool × DebugModule}
    (h : d.store addr bytes = some r) :
    SameBus d r.2 := by
  simp only [store] at h
  generalize (if bytes.length = 4 then (fromBytes bytes).toNat else 0) = id at h
  split_ifs at h <;> cases h
  case neg =>
    simp only [halted, completed]
    split_ifs <;> exact ⟨rfl, rfl, rfl⟩
  all_goals exact ⟨rfl, rfl, rfl⟩

theorem sameBus_sbStore {bus : SysBus} {addr : BitVec 64} {bytes : List (BitVec 8)}
    (h : d.sbStore bus addr bytes = some d') : SameBus d d' := by
  rw [sbStore] at h
  split_ifs at h
  · obtain ⟨r, hstore, hr⟩ := Option.bind_eq_some_iff.1 h
    split at hr <;> cases hr
    exact sameBus_store hstore
  · cases h
    exact SameBus.refl d

/-- A load that succeeds. -/
theorem sameBus_sbRead {bus : SysBus} (h : d.sbRead bus = some d') (herr : d'.sbcs.error = 0#32) :
    SameBus d d' := by
  rw [sbRead] at h
  split at h
  · cases h
    exact absurd herr (by decide : (3#32) ≠ 0#32)
  · split at h
    · cases h
      split <;> exact ⟨rfl, rfl, rfl⟩
    · cases h
      exact absurd herr (by decide : (2#32) ≠ 0#32)
    · cases h

/-- A store that succeeds. -/
theorem sameBus_sbWrite {bus : SysBus} (h : d.sbWrite bus = some d') (herr : d'.sbcs.error = 0#32) :
    SameBus d d' := by
  rw [sbWrite] at h
  split at h
  · cases h
    exact absurd herr (by decide : (3#32) ≠ 0#32)
  · exact sameBus_sbStore h

/-- The error is the same on both sides of the step. -/
theorem error_sbNext : d.sbNext.sbcs.error = d.sbcs.error := by
  rw [sbNext]
  split
  · rw [sbcs_sbAutoincrement]
  · rfl

/-- The address moves when there is no error. -/
theorem SameBus.sbNext (h : SameBus d d') (herr : d'.sbcs.error = 0#32) : Advances d d'.sbNext := by
  rw [DebugModule.sbNext, if_pos herr]
  exact h.sbAutoincrement

end DebugModule

namespace BlockAccess

open DebugModule DmiAccess

variable {bus : SysBus} {a : DmiAccess} {d d' : DebugModule} {t : Transfer}

/-- **An access of a block transfer** is at the address, which moves. -/
theorem advances (h : BlockAccess bus a d t d') : t.addr = d.sbTarget ∧ Advances d d' := by
  obtain ⟨cause, len, hcause, herr, -, htransfer⟩ := performed_cases h.made
  have hstored : SameBus d (a.stored d) := by
    refine ⟨?_, sbcs_stored a, config_stored a⟩
    obtain ⟨-, rfl, -⟩ | ⟨_, _, rfl, -, -⟩ | ⟨_, _, -, rfl, -⟩ := cause_cases hcause
    · rfl
    · exact absurd hcause h.data
    · rfl
  have htarget : (a.stored d).sbTarget = d.sbTarget := by
    rw [sbTarget, sbTarget, hstored.sbaddress]
  have hact := h.acts
  rw [act_of_cause hcause, if_pos herr] at hact
  constructor
  · obtain ⟨-, rfl⟩ | ⟨-, rfl⟩ := htransfer
    · exact htarget
    · exact htarget
  cases cause with
  | readData =>
    obtain ⟨d₁, hread, rfl⟩ := Option.map_eq_some_iff.1 hact
    have herr₁ : d₁.sbcs.error = 0#32 := error_sbNext.symm.trans h.succeeds
    exact (hstored.trans (sameBus_sbRead hread herr₁)).sbNext herr₁
  | writeAddress => exact absurd hcause h.data
  | writeData =>
    obtain ⟨d₁, hwrite, rfl⟩ := Option.map_eq_some_iff.1 hact
    have herr₁ : d₁.sbcs.error = 0#32 := error_sbNext.symm.trans h.succeeds
    exact (hstored.trans (sameBus_sbWrite hwrite herr₁)).sbNext herr₁

end BlockAccess

namespace BlockTransfer

open DebugModule

variable {bus : SysBus} {d d' : DebugModule} {visited : List (BitVec 64)}

/-- **The addresses of a block transfer**: the first word counts up and wraps, the second one
stays. -/
theorem toNat_visited (h : BlockTransfer bus d visited d') (henabled : d.Autoincrements)
    (hsize : d.sbcs.sbaccess.toNat < 8)
    {k : Nat} {addr : BitVec 64} (hk : visited[k]? = some addr) :
    addr.toNat = ((d.sbaddress 0).toNat + k * d.sbSize) % 2 ^ 32 +
      2 ^ 32 * (d.sbaddress 1).toNat := by
  induction h generalizing k with
  | nil d => cases hk
  | @cons a d d' d'' t visited head tail ih =>
    obtain ⟨haddr, hadv⟩ := head.advances
    cases k with
    | zero =>
      cases hk
      rw [haddr, toNat_sbTarget, Nat.zero_mul, Nat.add_zero, Nat.mod_eq_of_lt (d.sbaddress 0).isLt]
    | succ k =>
      have henabled' : d'.Autoincrements := by
        rw [Autoincrements, hadv.sbcs, hadv.config]
        exact henabled
      have hsame : d'.sbSize = d.sbSize := by
        rw [sbSize, sbSize, hadv.sbcs]
      rw [ih henabled' (hadv.sbcs ▸ hsize) hk, hsame, hadv.sbaddress,
        toNat_sbAutoincrement_zero henabled hsize,
        (sbaddress_sbAutoincrement henabled).2.1, Nat.mod_add_mod, Nat.succ_mul,
        Nat.add_assoc, Nat.add_comm d.sbSize]

/-- The first multiple that reaches a bound. -/
theorem exists_first_reach {start size bound n : Nat} (h : bound ≤ start + n * size)
    (hstart : start < bound) : ∃ k, k ≤ n ∧ bound ≤ start + k * size ∧
    start + k * size < bound + size := by
  induction n with
  | zero => omega
  | succ n ih =>
    by_cases hn : bound ≤ start + n * size
    · obtain ⟨k, hle, hk⟩ := ih hn
      exact ⟨k, Nat.le_succ_of_le hle, hk⟩
    · refine ⟨n + 1, le_rfl, h, ?_⟩
      rw [Nat.succ_mul]
      omega

/-- **The addresses are consecutive** exactly when the first word does not wrap on the way. -/
theorem consecutive_iff (h : BlockTransfer bus d visited d') (henabled : d.Autoincrements)
    (hsize : d.sbcs.sbaccess.toNat < 8) :
    Consecutive d.sbTarget d.sbSize visited ↔
    (d.sbaddress 0).toNat + (visited.length - 1) * d.sbSize < 2 ^ 32 := by
  have hlt₀ := (d.sbaddress 0).isLt
  have hlt₁ := (d.sbaddress 1).isLt
  have hle := sbSize_le hsize
  -- what an address is to be, as a number
  have hwanted (k : Nat) : (d.sbTarget + BitVec.ofNat 64 (k * d.sbSize)).toNat =
      ((d.sbaddress 0).toNat + 2 ^ 32 * (d.sbaddress 1).toNat + k * d.sbSize) % 2 ^ 64 := by
    rw [BitVec.toNat_add, BitVec.toNat_ofNat, toNat_sbTarget, Nat.add_mod_mod]
  constructor
  · intro hcons
    by_contra hwrap
    -- the first address for which a carry is due
    obtain ⟨k, hk, hreach, hnear⟩ := exists_first_reach (Nat.not_lt.1 hwrap) hlt₀
    have hlen : k < visited.length := by
      cases visited with
      | nil =>
        simp only [List.length_nil, Nat.zero_sub, Nat.zero_mul] at hwrap
        omega
      | cons addr visited => exact Nat.lt_succ_of_le hk
    have hget : visited[k]? = some visited[k] := List.getElem?_eq_getElem hlen
    have hnum := h.toNat_visited henabled hsize hget
    rw [hcons k _ hget, hwanted] at hnum
    generalize (d.sbaddress 0).toNat = w₀ at *
    generalize (d.sbaddress 1).toNat = w₁ at *
    generalize k * d.sbSize = offset at *
    generalize d.sbSize = s at *
    omega
  · intro hfits k addr hk
    have hlen : k < visited.length := (List.getElem?_eq_some_iff.1 hk).1
    have hmul : k * d.sbSize ≤ (visited.length - 1) * d.sbSize :=
      Nat.mul_le_mul_right _ (Nat.le_sub_one_of_lt hlen)
    refine BitVec.eq_of_toNat_eq ?_
    rw [h.toNat_visited henabled hsize hk, hwanted]
    generalize (d.sbaddress 0).toNat = w₀ at *
    generalize (d.sbaddress 1).toNat = w₁ at *
    generalize k * d.sbSize = offset at *
    generalize (visited.length - 1) * d.sbSize = last at *
    omega

end BlockTransfer

namespace DebugModule

/-! ### The results -/

/-- **When the address moves on as it should.** A step adds the size to the number of 128 bits
exactly when the first word does not wrap, and the addresses of a block transfer are consecutive
exactly when it does not wrap on the way to the last one. -/
theorem autoincrement_exact (d : DebugModule) (henabled : d.Autoincrements)
    (hsize : d.sbcs.sbaccess.toNat < 8) :
    (d.sbAutoincrement.sbNumber = (d.sbNumber + d.sbSize) % 2 ^ 128 ↔
      (d.sbaddress 0).toNat + d.sbSize < 2 ^ 32) ∧
      ∀ bus visited d', BlockTransfer bus d visited d' →
        (Consecutive d.sbTarget d.sbSize visited ↔
          (d.sbaddress 0).toNat + (visited.length - 1) * d.sbSize < 2 ^ 32) :=
  ⟨sbNumber_sbAutoincrement_iff henabled hsize, fun _ _ _ h => h.consecutive_iff henabled hsize⟩

/-- Words are read from `sbdata0`, the first one the last below 4 GiB. -/
def crossing : DebugModule :=
  (DmiAccess.configured 0x58000#32).setSbaddress 0 0xfffffffc#32

/-- A bus on which every aligned access is answered. -/
def zeroBus : SysBus :=
  debugMmu (fun _ _ => some 0#64) fun _ _ => true

/-- From that address on, the transfers of at most one word are right. -/
theorem autoincrement_exact_crossing :
    (crossing.sbAutoincrement.sbNumber = (crossing.sbNumber + crossing.sbSize) % 2 ^ 128 ↔
        (crossing.sbaddress 0).toNat + crossing.sbSize < 2 ^ 32) ∧
      ∀ bus visited d', BlockTransfer bus crossing visited d' →
      (Consecutive crossing.sbTarget crossing.sbSize visited ↔
        (crossing.sbaddress 0).toNat + (visited.length - 1) * crossing.sbSize < 2 ^ 32) :=
  autoincrement_exact crossing ⟨rfl, by decide⟩ (by decide)

/-- The debugger sets the size, `sbautoincrement`, `sbreadondata` and the address. The step to 4 GiB
goes to zero, and of two words that are read the second one is at zero. -/
theorem carry_lost :
    run step (some (initial DmiAccess.wideBus 0#32)) [.dmiWrite dmSbcs 0x58000#32 zeroBus 0#32,
        .dmiWrite dmSbaddress0 0xfffffffc#32 zeroBus 0#32] = some crossing ∧
      crossing.Autoincrements ∧ crossing.sbNumber = 0xfffffffc ∧ crossing.sbSize = 4 ∧
      crossing.sbAutoincrement.sbNumber = 0 ∧
      (∃ d', BlockTransfer zeroBus crossing [0xfffffffc#64, 0#64] d') ∧
      ¬Consecutive crossing.sbTarget crossing.sbSize [0xfffffffc#64, 0#64] := by
  refine ⟨rfl, ⟨rfl, by decide⟩, by decide, by decide, by decide, ?_, fun h => ?_⟩
  · have hfirst : BlockAccess zeroBus (.read dmSbdata0) crossing (.load 0xfffffffc#64 4)
        (crossing.setSbdata 0 0#32).sbAutoincrement :=
      ⟨by decide, rfl, rfl, rfl⟩
    have hsecond : BlockAccess zeroBus (.read dmSbdata0) (crossing.setSbdata 0 0#32).sbAutoincrement
      (.load 0#64 4)
        ((crossing.setSbdata 0 0#32).sbAutoincrement.setSbdata 0 0#32).sbAutoincrement :=
      ⟨by decide, rfl, rfl, rfl⟩
    exact ⟨_, .cons hfirst (.cons hsecond (.nil _))⟩
  · exact absurd (h 1 0#64 rfl) (by decide)

end DebugModule

end Nnemu

import Mathlib.Tactic.IntervalCases
import Nnemu.Debug.Busy

/-!
# Accesses of the system bus

The debugger reaches memory and the devices without a hart: a read of `sbdata0` and a write of
`sbaddress0` may load, a write of `sbdata0` stores. An access that fails is to be recorded in
`sberror` and to do nothing else. `Orderly` says so of one access of the debugger, and `orderly_iff`
when it is so: the loads catch one trap of two, the stores none, and a write of `sbaddress0` moves
the address on whatever came of its load.

An access of the debugger is classified by what it causes on the system bus (`SbCause`), and the
rest of the file compares what the module does there with what its own memory management unit does
(`performed`, `Traps`, `Fails`). The condition is about the state before the access, in any reached
state: that sizes stay within their field of three bits is an invariant of runs (`Sized`).
-/

namespace Nnemu

open Bytes Run

/-- An access of the debugger. A write comes with the number that `random()` returns, in case it is
needed. -/
inductive DmiAccess where
  | read (address : Nat)
  | write (address : Nat) (value challenge : BitVec 32)

/-- Which register access it is that goes to the bus. -/
inductive SbCause where
  | readData
  | writeAddress
  | writeData
deriving DecidableEq

/-- An access of the bus. -/
inductive Transfer where
  | load (addr : BitVec 64) (len : Nat)
  | store (addr : BitVec 64) (bytes : List (BitVec 8))

namespace DmiAccess

open DebugModule

/-- The access as an operation on the module, with a bus. -/
def op (bus : SysBus) : DmiAccess → DmOp
  | read address => .dmiRead address bus
  | write address value challenge => .dmiWrite address value bus challenge

variable (d : DebugModule)

/-- Is the access one that is to go to the bus, as long as there is no error? -/
def cause : DmiAccess → Option SbCause
  | read address => if address = dmSbdata0 ∧ d.sbcs.readondata then some .readData else none
  | write address _ _ =>
    if !d.authenticated then none
    else if address = dmSbaddress0 ∧ d.sbcs.readonaddr then some .writeAddress
    else if address = dmSbdata0 then some .writeData
    else none

/-- The module once the register is written. -/
def stored : DmiAccess → DebugModule
  | read _ => d
  | write address value _ =>
    if address = dmSbaddress0 then d.setSbaddress 0 value
    else if address = dmSbdata0 then d.setSbdata 0 value
    else d

end DmiAccess

namespace DebugModule

variable {d d' : DebugModule}

/-! ### The debugger's own memory management unit -/

/-- `debug_mmu`. It has no hart, so it translates nothing, and it traps when an access is
misaligned. Memory and the devices answer the loads and accept the stores. -/
def debugMmu (answer : BitVec 64 → Nat → Option (BitVec 64)) (accepts : BitVec 64 → Nat → Bool) :
    SysBus where
  load addr len := if addr.toNat % len ≠ 0 then .otherTrap
    else (answer addr len).elim .accessFault .value
  accepts := accepts

/-- The bytes that a store over the bus moves. -/
def sbBytes (d : DebugModule) (len : Nat) : List (BitVec 8) :=
  toBytes (((d.sbdata 1).setWidth 64 <<< 32) ||| (d.sbdata 0).setWidth 64) len

/-- Does the memory of the module take a store? -/
def takes (d : DebugModule) (addr len : Nat) : Bool :=
  inRegion debugDataStart (dmDatasize * 4) addr len ||
    inRegion d.config.debugProgbufStart d.config.programBufferBytes addr len ||
    ((addr == debugRomHalted || addr == debugRomGoing || addr == debugRomResuming) && len == 4) ||
    addr == debugRomException

end DebugModule

namespace DmiAccess

open DebugModule

/-- The access of the bus that is made. -/
def performed (d : DebugModule) (a : DmiAccess) : Option Transfer :=
  (a.cause d).bind fun cause =>
    if d.sbcs.error ≠ 0#32 then none
    else (a.stored d).sbLen.map fun len =>
      if cause = .writeData then .store (a.stored d).sbTarget ((a.stored d).sbBytes len)
      else .load (a.stored d).sbTarget len

end DmiAccess

namespace Transfer

open DebugModule

/-- Is the address a multiple of the length? -/
def aligned : Transfer → Bool
  | load addr len => addr.toNat % len == 0
  | store addr bytes => addr.toNat % bytes.length == 0

/-- Does it end in a trap that nobody catches, when the module makes it? -/
def Traps (d : DebugModule) (bus : SysBus) : Transfer → Prop
  | load addr len => bus.load addr len = .otherTrap
  | store addr bytes => d.sbStore bus addr bytes = none

/-- Does it fail, when the module makes it? -/
def Fails (d : DebugModule) (bus : SysBus) : Transfer → Prop
  | load addr len => ∀ v, bus.load addr len ≠ .value v
  | store addr bytes => d.sbStore bus addr bytes = none

end Transfer

namespace DmiAccess

open DebugModule

/-- An access that is to go to the bus and fails: its size is not supported, or the bus refuses
it. -/
def Fails (d : DebugModule) (bus : SysBus) (a : DmiAccess) : Prop :=
  (a.cause d).isSome ∧ d.sbcs.error = 0#32 ∧ ∀ t, a.performed d = some t → t.Fails (a.stored d) bus

/-- What an access of the debugger is to do about the bus. -/
structure Orderly (d : DebugModule) (bus : SysBus) (a : DmiAccess) : Prop where
  /-- no trap leaves it -/
  returns : (d.act (a.op bus)).isSome
  /-- a failure is recorded, and nothing else happens -/
  recorded : a.Fails d bus → ∃ err, err ≠ 0#32 ∧
    d.act (a.op bus) = some ((a.stored d).setSbError err)
  /-- the bus is used when there is no error and the size is supported -/
  performed : (a.performed d).isSome ↔ (a.cause d).isSome ∧ d.sbcs.error = 0#32 ∧
    (a.stored d).sbLen.isSome
  /-- that access is made -/
  made : ∀ t bus', a.performed d = some t → t.Traps (a.stored d) bus' → d.act (a.op bus') = none
  /-- and when there is none, nothing depends on the bus -/
  silent : a.performed d = none → ∀ bus', d.act (a.op bus') = d.act (a.op bus)

/-- When is it so, on the debugger's own memory management unit? -/
structure Sound (d : DebugModule) (answer : BitVec 64 → Nat → Option (BitVec 64))
    (accepts : BitVec 64 → Nat → Bool)
    (a : DmiAccess) : Prop where
  aligned : ∀ t, a.performed d = some t → t.aligned
  taken : ∀ addr bytes, a.performed d = some (.store addr bytes) →
    if addr.toNat < debugSize then (a.stored d).takes addr.toNat bytes.length
      else accepts addr bytes.length
  answered : a.cause d = some .writeAddress → d.sbcs.error = 0#32 → d.sbcs.autoincrement →
    d.config.maxSbaDataWidth ≠ 0 →
    ∃ addr len, a.performed d = some (.load addr len) ∧ (answer addr len).isSome

end DmiAccess

namespace DebugModule

variable {d d' : DebugModule}

/-! ### Addresses -/

/-- The program buffer ends before the registers of the bus. -/
theorem isProgbuf_of_le {address : Nat} (h : 0x33 ≤ address) : d.isProgbuf address = false := by
  have hfits := d.config.fits
  rw [isProgbuf, dmProgbuf0, Bool.and_eq_false_iff]
  refine Or.inr (decide_eq_false fun hlt => ?_)
  omega

theorem dmiRead_sbdata0 (bus : SysBus) :
    d.dmiRead dmSbdata0 bus = (d.readSbdata0 bus).map fun d' => (some (d.sbdata 0), d') := by
  rw [dmiRead, if_neg (by decide),
    if_neg (by rw [isProgbuf_of_le (by decide)]; exact Bool.false_ne_true), if_pos rfl]

theorem dmiWrite_sbaddress0 (hauth : d.authenticated = true) (value challenge : BitVec 32)
    (bus : SysBus) :
    d.dmiWrite dmSbaddress0 value bus challenge =
      (d.writeSbaddress0 value bus).map fun d' => (true, d') := by
  rw [dmiWrite_of_authenticated (Or.inl hauth), if_neg (by decide),
    if_neg (by rw [isProgbuf_of_le (by decide)]; exact Bool.false_ne_true),
    if_neg (by decide), if_pos rfl]

theorem dmiWrite_sbdata0 (hauth : d.authenticated = true) (value challenge : BitVec 32)
    (bus : SysBus) :
    d.dmiWrite dmSbdata0 value bus challenge =
      (d.writeSbdata0 value bus).map fun d' => (true, d') := by
  rw [dmiWrite_of_authenticated (Or.inl hauth), if_neg (by decide),
    if_neg (by rw [isProgbuf_of_le (by decide)]; exact Bool.false_ne_true),
    if_neg (by decide), if_neg (by decide), if_pos rfl]

end DebugModule

/-- What the access does when there is no error. -/
def SbCause.outcome (d : DebugModule) (bus : DebugModule.SysBus) : SbCause → Option DebugModule
  | readData => (d.sbRead bus).map DebugModule.sbNext
  | writeAddress => (d.sbRead bus).map DebugModule.sbAutoincrement
  | writeData => (d.sbWrite bus).map DebugModule.sbNext

namespace DmiAccess

open DebugModule

variable {d : DebugModule} {a : DmiAccess} {cause : SbCause}

/-! ### What an access comes to -/

/-- The three register accesses that go to the bus. -/
theorem cause_cases (h : a.cause d = some cause) :
    (cause = .readData ∧ a = read dmSbdata0 ∧ d.sbcs.readondata = true) ∨
    (∃ value challenge, cause = .writeAddress ∧ a = write dmSbaddress0 value challenge ∧
      d.authenticated = true ∧
      d.sbcs.readonaddr = true) ∨
    (∃ value challenge, cause = .writeData ∧ a = write dmSbdata0 value challenge ∧
      d.authenticated = true) := by
  cases a with
  | read address =>
    rw [DmiAccess.cause] at h
    split_ifs at h with hread
    obtain ⟨rfl, hondata⟩ := hread
    cases h
    exact Or.inl ⟨rfl, rfl, hondata⟩
  | write address value challenge =>
    rw [DmiAccess.cause] at h
    split_ifs at h with hauth haddr hdata <;> cases h
    · obtain ⟨rfl, honaddr⟩ := haddr
      exact Or.inr (Or.inl ⟨value, challenge, rfl, rfl, by simpa using hauth, honaddr⟩)
    · subst hdata
      exact Or.inr (Or.inr ⟨value, challenge, rfl, rfl, by simpa using hauth⟩)

theorem stored_sbaddress0 (value challenge : BitVec 32) :
    (write dmSbaddress0 value challenge).stored d = d.setSbaddress 0 value :=
  rfl

theorem stored_sbdata0 (value challenge : BitVec 32) :
    (write dmSbdata0 value challenge).stored d = d.setSbdata 0 value :=
  rfl

/-- An access that is to go to the bus does so unless there is an error. -/
theorem act_of_cause (h : a.cause d = some cause) (bus : SysBus) :
    d.act (a.op bus) = if d.sbcs.error = 0#32 then cause.outcome (a.stored d) bus
      else some (a.stored d) := by
  obtain ⟨rfl, rfl, hondata⟩ | ⟨value, challenge, rfl, rfl, hauth, honaddr⟩ |
    ⟨value, challenge, rfl, rfl, hauth⟩ :=
    cause_cases h
  · rw [op, act, dmiRead_sbdata0, Option.map_map, readSbdata0, stored, SbCause.outcome]
    by_cases herr : d.sbcs.error = 0#32
    · rw [if_neg (not_not.2 herr), if_pos hondata, if_pos herr, Option.map_map]
      rfl
    · rw [if_pos herr, if_neg herr]
      rfl
  · rw [op, act, dmiWrite_sbaddress0 hauth, Option.map_map, writeSbaddress0,
      stored_sbaddress0, SbCause.outcome]
    by_cases herr : d.sbcs.error = 0#32
    · rw [if_pos ⟨herr, honaddr⟩, if_pos herr, Option.map_map]
      rfl
    · rw [if_neg fun hboth => herr hboth.1, if_neg herr]
      rfl
  · rw [op, act, dmiWrite_sbdata0 hauth, Option.map_map, writeSbdata0,
      stored_sbdata0, SbCause.outcome]
    by_cases herr : d.sbcs.error = 0#32
    · rw [if_pos herr, Option.map_map]
      rfl
    · rw [if_neg herr]
      rfl

end DmiAccess

namespace DebugModule

variable {d d' : DebugModule}

/-! ### Loads and stores -/

section

variable {answer : BitVec 64 → Nat → Option (BitVec 64)} {accepts : BitVec 64 → Nat → Bool}
  {len : Nat}

end

/-- The size of an access fits its field of three bits, or stays what it was. -/
def Sized (d d' : DebugModule) : Prop :=
  d'.sbcs.sbaccess = d.sbcs.sbaccess ∨ d'.sbcs.sbaccess.toNat < 8

theorem Sized.refl (d : DebugModule) : Sized d d :=
  Or.inl rfl

theorem Sized.trans {d'' : DebugModule} (h : Sized d d') (h' : Sized d' d'') : Sized d d'' := by
  obtain heq' | hlt' := h'
  · exact h.imp heq'.trans fun hlt => heq' ▸ hlt
  · exact Or.inr hlt'

end DebugModule

namespace DmiAccess

open DebugModule

variable {d : DebugModule} {a : DmiAccess} {cause : SbCause} {bus : SysBus}

/-! ### Order -/

theorem sbcs_stored (a : DmiAccess) : (a.stored d).sbcs = d.sbcs := by
  cases a with
  | read address => rfl
  | write address value challenge =>
    rw [stored]
    split_ifs <;> rfl

theorem config_stored (a : DmiAccess) : (a.stored d).config = d.config := by
  cases a with
  | read address => rfl
  | write address value challenge =>
    rw [stored]
    split_ifs <;> rfl

/-- The access of the bus that a load comes to. -/
theorem performed_load {len : Nat} (h : a.cause d = some cause) (hne : cause ≠ .writeData)
    (herr : d.sbcs.error = 0#32)
    (hlen : (a.stored d).sbLen = some len) :
    a.performed d = some (.load (a.stored d).sbTarget len) := by
  rw [performed, h, Option.bind_some, if_neg (not_not.2 herr), hlen, Option.map_some, if_neg hne]

/-- The access of the bus that a store comes to. -/
theorem performed_store {len : Nat} (h : a.cause d = some .writeData) (herr : d.sbcs.error = 0#32)
    (hlen : (a.stored d).sbLen = some len) :
    a.performed d = some (.store (a.stored d).sbTarget ((a.stored d).sbBytes len)) := by
  rw [performed, h, Option.bind_some, if_neg (not_not.2 herr), hlen, Option.map_some, if_pos rfl]

/-- When is there one? -/
theorem performed_isSome_iff :
    (a.performed d).isSome ↔ (a.cause d).isSome ∧ d.sbcs.error = 0#32 ∧
    (a.stored d).sbLen.isSome := by
  rw [performed]
  cases a.cause d with
  | none => simp
  | some cause =>
    by_cases herr : d.sbcs.error = 0#32
    · simp [herr]
    · simp [herr]

/-- Which one is it? -/
theorem performed_cases {t : Transfer} (h : a.performed d = some t) :
    ∃ cause len, a.cause d = some cause ∧ d.sbcs.error = 0#32 ∧ (a.stored d).sbLen = some len ∧
      ((cause ≠ .writeData ∧ t = .load (a.stored d).sbTarget len) ∨
        (cause = .writeData ∧ t = .store (a.stored d).sbTarget ((a.stored d).sbBytes len))) := by
  obtain ⟨hcause, herr, hlen⟩ := performed_isSome_iff.1 (h ▸ rfl : (a.performed d).isSome)
  obtain ⟨cause, hcause⟩ := Option.isSome_iff_exists.1 hcause
  obtain ⟨len, hlen⟩ := Option.isSome_iff_exists.1 hlen
  refine ⟨cause, len, hcause, herr, hlen, ?_⟩
  by_cases hdata : cause = .writeData
  · subst hdata
    rw [performed_store hcause herr hlen] at h
    exact Or.inr ⟨rfl, (Option.some.inj h).symm⟩
  · rw [performed_load hcause hdata herr hlen] at h
    exact Or.inl ⟨hdata, (Option.some.inj h).symm⟩

section

variable {answer : BitVec 64 → Nat → Option (BitVec 64)} {accepts : BitVec 64 → Nat → Bool}

end

/-- One hart, and a system bus of 64 bits. -/
def wideBus : DmConfig :=
  { oneHart with maxSbaDataWidth := 64 }

/-- The state after a write of `sbcs`. -/
def configured (sbcs : BitVec 32) : DebugModule :=
  (initial wideBus 0#32).writeSbcs sbcs

end DmiAccess

end Nnemu

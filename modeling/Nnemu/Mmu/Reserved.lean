import Nnemu.Mmu.Again
import Nnemu.Mmu.Amo

/-!
# LR and SC of a hart

The reservation of `mmu_t` is one physical address. A load-reserved goes around the TLB and sets it,
a store-conditional that ends normally clears it. What has happened to the reservation is noted
beside the state, where only statements look.

Two things are shown of every program of this file: that it leaves the reservation alone unless it
is one of the two that are meant to change it (`Untouched`), and what these two note (`Reserves`,
`Decides`). A store-conditional decides when it compares, and forgets the reservation whatever it
has decided, unless it is stopped by a trap before.
-/

namespace Nnemu

open Bytes Trigger

/-- `trap_load_address_misaligned` -/
def loadAddressMisaligned (gva : Bool) (addr : Reg) : Trap :=
  { cause := 4#64, gva := gva, tval := addr }

/-- `load_reservation_address` of a hart that has none. -/
def noReservation : Reg := -1#64

/-- What an instruction does to the reservation. -/
inductive ReservationNote where
  | reserved (paddr : Reg)
  /-- by a store-conditional that has ended normally -/
  | decided (paddr : Reg) (ok : Bool)
deriving DecidableEq

/-- A hart with its reservation. -/
structure Reserving (δ ι : Type) where
  hart : Cpu Files ι × World δ
  /-- `load_reservation_address` -/
  reservation : Reg
  note : Option ReservationNote

/-- A program of a hart that has a reservation. -/
abbrev ReserveM (δ ι : Type) : Type → Type :=
  Exec Stop (Reserving δ ι)

/-- The sizes of LR and SC. -/
inductive LrSize where
  | word
  | doubleword
deriving DecidableEq

/-- `sizeof(T)` -/
def LrSize.bytes : LrSize → Nat
  | .word => 4
  | .doubleword => 8

namespace HartMmu

variable {δ ι : Type} {α : Type}

/-- A program that does not know of the reservation. -/
def aside (x : LoadM δ ι α) : ReserveM δ ι α := fun s =>
  match x s.hart with
  | .ok a hart => .ok a { s with hart := hart }
  | .error e hart => .error e { s with hart := hart }

variable (cfg : Config) (bus : Bus δ) (misalignedEnabled : Bool)

/-- `load_reservation_address = paddr` -/
def reserve (paddr : Reg) : ReserveM δ ι Unit :=
  modify fun s => { s with reservation := paddr, note := some (.reserved paddr) }

/-- `load_reserved`: a load with a flag, so that the TLB is not asked. -/
def loadReserved (addr : Reg) (size : LrSize) : ReserveM δ ι (List (BitVec 8)) := do
  aside (checkLoad cfg addr none)
  let s ← get
  if isAligned addr size.bytes then
    let paddr ← aside (translateLoad cfg bus addr size.bytes)
    if !bus.isMem paddr then throw (.trap (accessFault .load s.hart.1.hart.v addr))
    reserve paddr
    let s ← get
    let bytes := readBytes s.hart.2.mem paddr size.bytes
    aside (checkLoad cfg addr (some (fromBytes bytes)))
    pure bytes
  else
    if !misalignedEnabled then throw (.trap (loadAddressMisaligned s.hart.1.hart.v addr))
    throw (.trap (accessFault .load s.hart.1.hart.v addr))

/-- `check_load_reservation` of an aligned address, with the address it has looked up. -/
def compareReservation (vaddr : Reg) : ReserveM δ ι (Reg × Bool) := do
  let paddr ← aside (translateStore cfg bus vaddr 1)
  let s ← get
  if !bus.isMem paddr then throw (.trap (accessFault .store s.hart.1.hart.v vaddr))
  pure (paddr, s.reservation == paddr)

/-- `check_load_reservation` -/
def checkLoadReservation (vaddr : Reg) (size : LrSize) : ReserveM δ ι (Reg × Bool) := do
  if !isAligned vaddr size.bytes then
    aside (storeSlowPath cfg bus misalignedEnabled vaddr size.bytes [] false true)
  compareReservation cfg bus vaddr

/-- `yield_load_reservation`, when the reservation was asked for. -/
def yieldDecided (paddr : Reg) (ok : Bool) : ReserveM δ ι Unit :=
  modify fun s => { s with reservation := noReservation, note := some (.decided paddr ok) }

/-- `store_conditional` -/
def storeConditional (addr : Reg) (size : LrSize) (val : Reg) : ReserveM δ ι Bool := do
  let (paddr, haveReservation) ← checkLoadReservation cfg bus misalignedEnabled addr size
  if haveReservation then aside (store cfg bus misalignedEnabled addr size.bytes val)
  yieldDecided paddr haveReservation
  pure haveReservation

/-! ### What they do to the reservation -/

variable {cfg bus misalignedEnabled} {addr paddr : Reg} {size : LrSize} {s t : Reserving δ ι}

/-- The reservation is as before, and nothing was noted. -/
def Untouched (s t : Reserving δ ι) : Prop :=
  t.reservation = s.reservation ∧ t.note = s.note

theorem composes_untouched : Exec.Composes (Untouched (δ := δ) (ι := ι)) where
  refl := fun _ => ⟨rfl, rfl⟩
  trans := fun h h' => ⟨h'.1.trans h.1, h'.2.trans h.2⟩

theorem untouched_aside (x : LoadM δ ι α) : Exec.Keeps Untouched (aside x) := by
  intro s
  rw [aside]
  cases x s.hart <;> exact ⟨rfl, rfl⟩

theorem aside_ok {x : LoadM δ ι α} {a : α} (h : aside x s = .ok a t) : x s.hart = .ok a t.hart := by
  rw [aside] at h
  cases hx : x s.hart with
  | ok b hart =>
    simp only [hx] at h
    cases h
    rfl
  | error e hart =>
    simp only [hx] at h
    cases h

/-- A walk finds the start of a page. -/
theorem walk_page {r : Regime} {type : AccessType} {mode page : Reg} {virt hlvx : Bool}
    {w w' : World δ}
    (h : walk (busMem bus r) r addr type mode virt hlvx w = .ok page w') :
    page &&& pageMask = 0#64 := by
  have hclear (phys : Reg) : phys &&& ~~~pageMask &&& pageMask = 0#64 := by
    rw [BitVec.and_assoc, BitVec.and_comm (~~~pageMask), BitVec.and_not_self]
    exact BitVec.and_zero
  rw [walk] at h
  cases hvm : decodeVmInfo r.xlen false mode (r.atp virt) with
  | none =>
    simp only [hvm] at h
    cases h
  | some vm =>
    simp only [hvm] at h
    split at h
    · obtain ⟨phys, u, -, hpage⟩ := Exec.bind_eq_ok_iff.1 h
      cases hpage
      exact hclear phys
    · obtain ⟨found, u, -, hrest⟩ := Exec.bind_eq_ok_iff.1 h
      cases found with
      | none => cases hrest
      | some base =>
        obtain ⟨phys, u, -, hpage⟩ := Exec.bind_eq_ok_iff.1 hrest
        cases hpage
        exact hclear phys

/-- A translation keeps the place in the page. -/
theorem pageMask_translateAs {r : Regime} {type : AccessType} {mode : Reg}
    {virt hlvx : Bool} {len : Nat} {w w' : World δ}
    (h : translateAs (busMem bus r) r addr len type mode virt hlvx w = .ok paddr w') :
    paddr &&& pageMask = addr &&& pageMask := by
  obtain ⟨page, hwalk, rfl, -⟩ := translateAs_ok_iff.1 h
  rw [BitVec.and_comm, BitVec.and_or_distrib_left, BitVec.and_comm pageMask page,
    walk_page hwalk, BitVec.zero_or,
    BitVec.and_comm, BitVec.and_assoc, BitVec.and_self]

/-- The address of an aligned LR or SC is not that of a hart without a reservation. -/
theorem ne_noReservation (haligned : isAligned addr size.bytes = true)
    (h : paddr &&& pageMask = addr &&& pageMask) :
    paddr ≠ noReservation := by
  rintro rfl
  rw [isAligned, beq_iff_eq] at haligned
  -- bit 0 of the one address is set, that of the other is not
  have hset : addr.getLsbD 0 = true := by
    have hbit := congrArg (BitVec.getLsbD · 0) h
    rw [BitVec.getLsbD_and, BitVec.getLsbD_and] at hbit
    have hmask : pageMask.getLsbD 0 = true := by decide
    have hall : noReservation.getLsbD 0 = true := by decide
    rw [hmask, hall, Bool.and_true, Bool.and_true] at hbit
    exact hbit.symm
  have hclear := congrArg (BitVec.getLsbD · 0) haligned
  rw [BitVec.getLsbD_and, hset, Bool.true_and] at hclear
  cases size <;> exact absurd hclear (by decide)

/-- What an LR does to the reservation: it sets it, or leaves it as it is. -/
def Reserves (s t : Reserving δ ι) : Prop :=
  Untouched s t ∨ ∃ paddr, paddr ≠ noReservation ∧ t.reservation = paddr ∧
    t.note = some (.reserved paddr)

/-- What an SC does to the reservation: it decides and clears it, or leaves it as it is. -/
def Decides (s t : Reserving δ ι) : Prop :=
  Untouched s t ∨ ∃ paddr, paddr ≠ noReservation ∧ t.reservation = noReservation ∧
    t.note = some (.decided paddr (s.reservation == paddr))

/-- The parts of an LR that leave the reservation may come first. -/
theorem reserves_bind {β : Type} {x : ReserveM δ ι α} {f : α → ReserveM δ ι β}
    (hx : Untouched s (Exec.final (x s)))
    (hf : ∀ a t, x s = .ok a t → Reserves t (Exec.final (f a t))) :
    Reserves s (Exec.final ((x >>= f) s)) :=
  Exec.final_bind Reserves (fun _ _ h => .inl h)
    (fun _ _ _ h h' => h'.imp (composes_untouched.trans h) id) hx hf

/-- The parts of an SC that leave the reservation may come first. -/
theorem decides_bind {β : Type} {x : ReserveM δ ι α} {f : α → ReserveM δ ι β}
    (hx : Untouched s (Exec.final (x s)))
    (hf : ∀ a t, x s = .ok a t → Decides t (Exec.final (f a t))) :
    Decides s (Exec.final ((x >>= f) s)) := by
  refine Exec.final_bind Decides (fun _ _ h => .inl h) (fun s t u h h' => ?_) hx hf
  rw [Decides, ← h.1]
  exact h'.imp (composes_untouched.trans h) id

theorem translateLoad_ne {len : Nat} {hart hart' : Cpu Files ι × World δ}
    (haligned : isAligned addr size.bytes = true)
    (h : translateLoad cfg bus addr len hart = .ok paddr hart') : paddr ≠ noReservation := by
  rw [translateLoad] at h
  split at h
  · rename_i hfound
    cases h
    exact ne_noReservation haligned (pageMask_translateAs hfound)
  · cases h

theorem translateStore_ne {len : Nat} {hart hart' : Cpu Files ι × World δ}
    (haligned : isAligned addr size.bytes = true)
    (h : translateStore cfg bus addr len hart = .ok paddr hart') : paddr ≠ noReservation := by
  rw [translateStore] at h
  split at h
  · rename_i hfound
    cases h
    exact ne_noReservation haligned (pageMask_translateAs hfound)
  · cases h

/-- **LR** sets the reservation to the address it has translated, or leaves it. -/
theorem reserves_loadReserved (cfg : Config) (bus : Bus δ) (misalignedEnabled : Bool)
    (addr : Reg) (size : LrSize)
    (s : Reserving δ ι) :
    Reserves s (Exec.final (loadReserved cfg bus misalignedEnabled addr size s)) := by
  refine reserves_bind (untouched_aside _ s) fun _ t _ => ?_
  refine reserves_bind (composes_untouched.refl t) fun _ _ hget => ?_
  cases hget
  split
  · rename_i haligned
    refine reserves_bind (untouched_aside _ t) fun paddr u hpaddr => ?_
    have hne := translateLoad_ne haligned (aside_ok hpaddr)
    split
    · exact .inl (composes_untouched.refl u)
    · -- from here on the reservation is set, whether or not the access matches a trigger
      obtain ⟨hreservation, hnote⟩ := Exec.keeps_bind composes_untouched (untouched_aside
        (checkLoad cfg addr (some (fromBytes (readBytes u.hart.2.mem paddr size.bytes))))) (fun _ =>
          Exec.keeps_pure composes_untouched (readBytes u.hart.2.mem paddr size.bytes))
        { u with reservation := paddr, note := some (.reserved paddr) }
      exact .inr ⟨paddr, hne, hreservation, hnote⟩
  · split
    · exact .inl (composes_untouched.refl t)
    · exact .inl (composes_untouched.refl t)

theorem compareReservation_spec (cfg : Config) (bus : Bus δ)
    (haligned : isAligned addr size.bytes = true)
    (s : Reserving δ ι) :
    Untouched s (Exec.final (compareReservation cfg bus addr s)) ∧
      ∀ p ok t, compareReservation cfg bus addr s = .ok (p, ok) t →
      p ≠ noReservation ∧ ok = (s.reservation == p) := by
  have hkept := untouched_aside (translateStore cfg bus addr 1) s
  rw [compareReservation]
  cases hpaddr : aside (translateStore cfg bus addr 1) s with
  | error e t =>
    rw [hpaddr] at hkept
    rw [Exec.bind_of_error hpaddr]
    exact ⟨hkept, by rintro _ _ _ ⟨⟩⟩
  | ok paddr t =>
    rw [hpaddr] at hkept
    rw [Exec.bind_of_ok hpaddr]
    cases hmem : bus.isMem paddr with
    | false => exact ⟨hkept, by rintro _ _ _ ⟨⟩⟩
    | true =>
      refine ⟨hkept, ?_⟩
      rintro _ _ _ ⟨⟩
      have hsame : t.reservation = s.reservation := hkept.1
      exact ⟨translateStore_ne haligned (aside_ok hpaddr), by rw [hsame]⟩

/-- `check_load_reservation` leaves the reservation, and compares it with the address it has
translated. -/
theorem checkLoadReservation_spec (cfg : Config) (bus : Bus δ) (misalignedEnabled : Bool)
    (addr : Reg) (size : LrSize)
    (s : Reserving δ ι) :
    Untouched s (Exec.final (checkLoadReservation cfg bus misalignedEnabled addr size s)) ∧
      ∀ p ok t, checkLoadReservation cfg bus misalignedEnabled addr size s = .ok (p, ok) t →
        p ≠ noReservation ∧ ok = (s.reservation == p) := by
  cases haligned : isAligned addr size.bytes with
  | true =>
    rw [checkLoadReservation, haligned]
    exact compareReservation_spec cfg bus haligned s
  | false =>
    -- the store that is only tried throws
    obtain ⟨t, hthrown, -⟩ :=
      tryStore_misaligned cfg bus misalignedEnabled haligned s.hart.1 s.hart.2
    have herror : checkLoadReservation cfg bus misalignedEnabled addr size s = .error
        (.trap t) s := by
      rw [checkLoadReservation, haligned]
      refine Exec.bind_of_error ?_
      rw [aside, hthrown]
    rw [herror]
    exact ⟨composes_untouched.refl s, by rintro _ _ _ ⟨⟩⟩

/-- **SC** decides whether the reservation is for the address it has translated and clears it, or
leaves it. -/
theorem decides_storeConditional (cfg : Config) (bus : Bus δ) (misalignedEnabled : Bool)
    (addr : Reg) (size : LrSize)
    (val : Reg) (s : Reserving δ ι) :
    Decides s (Exec.final (storeConditional cfg bus misalignedEnabled addr size val s)) := by
  obtain ⟨huntouched, hdecided⟩ := checkLoadReservation_spec cfg bus misalignedEnabled addr size s
  refine decides_bind huntouched fun found t hfound => ?_
  obtain ⟨paddr, ok⟩ := found
  obtain ⟨hne, rfl⟩ := hdecided paddr ok t hfound
  rw [hfound] at huntouched
  rw [← huntouched.1]
  dsimp only
  split
  · refine decides_bind (untouched_aside _ t) fun _ u hstored => .inr ⟨paddr, hne, rfl, ?_⟩
    rw [((untouched_aside _).of_ok hstored).1]
    rfl
  · exact .inr ⟨paddr, hne, rfl, rfl⟩

end HartMmu

end Nnemu

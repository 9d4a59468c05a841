import Nnemu.Lib.Token
import Nnemu.Mmu.Reserved
import Nnemu.Sim.Schedule

/-!
# Reservations of several harts

`mmu_t` does not look at the stores of other harts. That an SC is atomic with the LR before it rests
on `sim_t::step`, which takes the reservation away from a hart before another one gets its turn. So
a reservation is a token of the hart whose turn it is: `storeConditional_iff`.

The runs are those of `Sim.Schedule`, with harts that have a memory management unit each and one
memory in common. The events that matter to a reservation are noted as they happen
(`ReservationEvent`), and a history of them is a history of a token in the sense of `Lib.Token`.
`Kept` is the invariant: who holds the token is who has the reservation.
-/

namespace Nnemu

/-- What happens in a simulation, as far as reservations go. -/
inductive ReservationEvent (nprocs : Nat) where
  | reserved (i : Fin nprocs) (paddr : Reg)
  | decided (i : Fin nprocs) (paddr : Reg) (ok : Bool)
  /-- another access or instruction of the hart, or an LR or SC that does not come to the
  reservation -/
  | acted (i : Fin nprocs)
  | yielded (i : Fin nprocs)
  /-- the clock, a device or the host -/
  | outside
deriving DecidableEq

/-- An instruction, as far as memory goes. -/
inductive MemInsn (ι : Type) where
  | load (addr : Reg) (len : Nat)
  | store (addr : Reg) (len : Nat) (val : Reg)
  | amo (addr : Reg) (len : Nat) (f : Reg → Reg)
  | lr (addr : Reg) (size : LrSize)
  | sc (addr : Reg) (size : LrSize) (val : Reg)
  /-- anything that stays inside the hart -/
  | other (f : Cpu Files ι → Cpu Files ι)

/-- The harts without their reservations, memory and the devices. -/
structure HartsWorld (δ ι : Type) (nprocs : Nat) where
  cpus : Fin nprocs → Cpu Files ι
  world : World δ

/-- Harts with their reservations. The history, with the latest event first, is not in the code. -/
structure Harts (δ ι : Type) (nprocs : Nat) extends HartsWorld δ ι nprocs where
  reservations : Fin nprocs → Reg
  history : List (ReservationEvent nprocs)

/-- What there is besides the reservations: configuration, programs and devices. -/
structure HartsConfig (δ ι : Type) (nprocs : Nat) where
  cfg : Config
  bus : Bus δ
  misalignedEnabled : Bool
  /-- what a hart executes when it is given some steps -/
  program : Fin nprocs → Nat → HartsWorld δ ι nprocs → List (MemInsn ι)
  clintIncrement : Nat → HartsWorld δ ι nprocs → HartsWorld δ ι nprocs
  uartTick : HartsWorld δ ι nprocs → HartsWorld δ ι nprocs
  boardUpdate : HartsWorld δ ι nprocs → HartsWorld δ ι nprocs

namespace Harts

variable {δ ι : Type} {nprocs : Nat}

/-- Harts that have just been made. -/
def init (w : HartsWorld δ ι nprocs) : Harts δ ι nprocs where
  toHartsWorld := w
  reservations := fun _ => noReservation
  history := []

/-- The event that a note stands for. -/
def eventOf (i : Fin nprocs) : Option ReservationNote → ReservationEvent nprocs
  | some (.reserved paddr) => .reserved i paddr
  | some (.decided paddr ok) => .decided i paddr ok
  | none => .acted i

variable (h : Harts δ ι nprocs)

/-- A hart with its reservation, before its next instruction. -/
def party (i : Fin nprocs) : Reserving δ ι where
  hart := (h.cpus i, h.world)
  reservation := h.reservations i
  note := none

/-- The harts after an instruction of one of them. -/
def put (i : Fin nprocs) (s : Reserving δ ι) : Harts δ ι nprocs where
  cpus := Function.update h.cpus i s.hart.1
  world := s.hart.2
  reservations := Function.update h.reservations i s.reservation
  history := eventOf i s.note :: h.history

/-- Something happens outside the harts. -/
def outside (f : HartsWorld δ ι nprocs → HartsWorld δ ι nprocs) : Harts δ ι nprocs :=
  { h with
    toHartsWorld := f h.toHartsWorld
    history := .outside :: h.history }

variable (c : HartsConfig δ ι nprocs)

/-- What an instruction does to the hart it belongs to. Traps are taken by the instructions that
follow. -/
def execute (s : Reserving δ ι) : MemInsn ι → Reserving δ ι
  | .load addr len => Exec.final (HartMmu.aside (HartMmu.load c.cfg c.bus addr len) s)
  | .store addr len val => Exec.final
    (HartMmu.aside (HartMmu.store c.cfg c.bus c.misalignedEnabled addr len val) s)
  | .amo addr len f => Exec.final
    (HartMmu.aside (HartMmu.amo c.cfg c.bus c.misalignedEnabled addr len f) s)
  | .lr addr size => Exec.final (HartMmu.loadReserved c.cfg c.bus c.misalignedEnabled addr size s)
  | .sc addr size val => Exec.final
    (HartMmu.storeConditional c.cfg c.bus c.misalignedEnabled addr size val s)
  | .other f => { s with hart := (f s.hart.1, s.hart.2) }

/-- An instruction of a hart. -/
def act (i : Fin nprocs) (insn : MemInsn ι) : Harts δ ι nprocs :=
  h.put i (execute c (h.party i) insn)

/-- `procs[i]->step(n)` -/
def procStep (i : Fin nprocs) (n : Nat) : Harts δ ι nprocs :=
  (c.program i n h.toHartsWorld).foldl (fun h insn => h.act c i insn) h

/-- `yield_load_reservation` -/
def yieldLoadReservation (i : Fin nprocs) : Harts δ ι nprocs :=
  { h with
    reservations := Function.update h.reservations i noReservation
    history := .yielded i :: h.history }

/-- What `sim_t::step` calls. -/
def calls : SimCalls (Harts δ ι nprocs) nprocs where
  procStep := fun i n h => h.procStep c i n
  yieldLoadReservation := fun i h => h.yieldLoadReservation i
  clintIncrement := fun n h => h.outside (c.clintIncrement n)
  uartTick := fun h => h.outside c.uartTick
  boardUpdate := fun h => h.outside c.boardUpdate

/-- What is done with a simulation: it is given steps, or the host accesses the target. -/
inductive SimOp (δ ι : Type) (nprocs : Nat) where
  | step (n : Nat)
  | host (f : HartsWorld δ ι nprocs → HartsWorld δ ι nprocs)

/-- One thing that is done with a simulation. -/
def next [NeZero nprocs] (s : Sim (Harts δ ι nprocs) nprocs) :
    SimOp δ ι nprocs → Sim (Harts δ ι nprocs) nprocs
  | .step n => s.step (calls c) n
  | .host f => { s with state := s.state.outside f }

/-! ### The token -/

/-- What an event is to a reservation. -/
def effect : ReservationEvent nprocs → Token.Effect (Fin nprocs) Reg
  | .reserved i paddr => .takes i paddr
  | .decided _ _ _ => .ends
  | .acted i => .acts i
  | .yielded _ => .ends
  | .outside => .nothing

/-- Every SC was decided by who held the reservation. -/
def Right : List (ReservationEvent nprocs) → Prop
  | [] => True
  | .decided i paddr ok :: h => (ok = true ↔ Token.holder effect h = some (i, paddr)) ∧ Right h
  | _ :: h => Right h

theorem Right.of_append {later earlier : List (ReservationEvent nprocs)}
    (h : Right (later ++ earlier)) :
    Right earlier := by
  induction later with
  | nil => exact h
  | cons e later ih =>
    cases e with
    | decided i paddr ok => exact ih h.2
    | reserved i paddr => exact ih h
    | acted i => exact ih h
    | yielded i => exact ih h
    | outside => exact ih h

/-- The state of the harts while it is the turn of one of them. -/
structure Kept (i : Fin nprocs) (h : Harts δ ι nprocs) : Prop where
  held : ∀ j paddr, paddr ≠ noReservation →
    (h.reservations j = paddr ↔ Token.holder effect h.history = some (j, paddr))
  turn : ∀ j paddr, Token.holder effect h.history = some (j, paddr) → j = i
  right : Right h.history

variable {h c} {i : Fin nprocs}

theorem kept_init (w : HartsWorld δ ι nprocs) (i : Fin nprocs) : Kept i (init w) where
  held := fun _ _ hne => iff_of_false (Ne.symm hne) (by rintro ⟨⟩)
  turn := by rintro _ _ ⟨⟩
  right := trivial

/-- Nobody else has a reservation. -/
theorem Kept.eq_turn (hk : Kept i h) {j : Fin nprocs} (hne : h.reservations j ≠ noReservation) :
    j = i :=
  hk.turn j _ ((hk.held j _ hne).1 rfl)

/-- A hart has lost its reservation. -/
theorem Kept.ends (hk : Kept i h) (k : Fin nprocs) {e : ReservationEvent nprocs}
    (he : effect e = .ends)
    {h' : Harts δ ι nprocs}
    (hres : h'.reservations = Function.update h.reservations i noReservation)
    (hhist : h'.history = e :: h.history) (hright : Right (e :: h.history)) : Kept k h' where
  held := by
    intro j paddr hne
    rw [hres, hhist, Token.holder_ends he]
    refine iff_of_false (fun heq => ?_) (by rintro ⟨⟩)
    rw [Function.update_apply] at heq
    split at heq
    · exact hne heq.symm
    · rename_i hj
      exact hj (hk.eq_turn (heq ▸ hne))
  turn := by
    intro j paddr hheld
    rw [hhist, Token.holder_ends he] at hheld
    cases hheld
  right := hhist ▸ hright

/-- What an instruction can do to the reservation of its hart. -/
theorem execute_cases (c : HartsConfig δ ι nprocs) (s : Reserving δ ι) (insn : MemInsn ι) :
    HartMmu.Reserves s (execute c s insn) ∨ HartMmu.Decides s (execute c s insn) := by
  cases insn with
  | load addr len => exact .inl (.inl (HartMmu.untouched_aside _ s))
  | store addr len val => exact .inl (.inl (HartMmu.untouched_aside _ s))
  | amo addr len f => exact .inl (.inl (HartMmu.untouched_aside _ s))
  | lr addr size => exact .inl (HartMmu.reserves_loadReserved _ _ _ addr size s)
  | sc addr size val => exact .inr (HartMmu.decides_storeConditional _ _ _ addr size val s)
  | other f => exact .inl (.inl ⟨rfl, rfl⟩)

/-- An instruction that leaves the reservation. -/
theorem Kept.put_untouched (hk : Kept i h) {s : Reserving δ ι}
    (hu : HartMmu.Untouched (h.party i) s) :
    Kept i (h.put i s) := by
  obtain ⟨hreservation, hnote⟩ := hu
  have hres : (h.put i s).reservations = h.reservations := by
    rw [put, hreservation]
    exact Function.update_eq_self _ _
  have hhist : (h.put i s).history = .acted i :: h.history := by
    rw [put, hnote]
    rfl
  -- it is the hart itself that acts
  have hholder : Token.holder effect (.acted i :: h.history) = Token.holder effect h.history := by
    rw [Token.holder_acts (rfl : effect (.acted i) = .acts i)]
    cases hheld : Token.holder effect h.history with
    | none => rfl
    | some held => exact Option.filter_some_pos (decide_eq_true (hk.turn held.1 held.2 hheld))
  refine ⟨fun j paddr hne => ?_, fun j paddr hheld => ?_, ?_⟩
  · rw [hres, hhist, hholder]
    exact hk.held j paddr hne
  · rw [hhist, hholder] at hheld
    exact hk.turn j paddr hheld
  · rw [hhist]
    exact hk.right

/-- An LR. -/
theorem Kept.put_reserved (hk : Kept i h) {s : Reserving δ ι} {paddr : Reg}
    (hreservation : s.reservation = paddr)
    (hnote : s.note = some (.reserved paddr)) : Kept i (h.put i s) := by
  have hhist : (h.put i s).history = .reserved i paddr :: h.history := by
    rw [put, hnote]
    rfl
  have hholder : Token.holder effect (h.put i s).history = some (i, paddr) := by
    rw [hhist]
    exact Token.holder_takes (rfl : effect (.reserved i paddr) = .takes i paddr) _
  refine ⟨fun j q hq => ?_, fun j q hheld => ?_, ?_⟩
  · have hres : (h.put i s).reservations j = if j = i then paddr else h.reservations j := by
      rw [← hreservation]
      exact Function.update_apply _ _ _ _
    rw [hholder, Option.some.injEq, Prod.mk.injEq, hres]
    split
    · rename_i hj
      exact ⟨fun hp => ⟨hj.symm, hp⟩, fun hp => hp.2⟩
    · rename_i hj
      exact iff_of_false (fun hp => hj (hk.eq_turn (hp ▸ hq))) fun hp => hj hp.1.symm
  · rw [hholder, Option.some.injEq, Prod.mk.injEq] at hheld
    exact hheld.1.symm
  · rw [hhist]
    exact hk.right

/-- **An instruction** of the hart whose turn it is. -/
theorem Kept.act (hk : Kept i h) (insn : MemInsn ι) : Kept i (h.act c i insn) := by
  rw [Harts.act]
  obtain (hu | ⟨paddr, -, hreservation, hnote⟩) | (hu | ⟨paddr, hne, hreservation, hnote⟩) :=
    execute_cases c (h.party i) insn
  · exact hk.put_untouched hu
  · exact hk.put_reserved hreservation hnote
  · exact hk.put_untouched hu
  · refine hk.ends i (e := .decided i paddr (h.reservations i == paddr)) rfl ?_ ?_ ⟨?_, hk.right⟩
    · rw [put, hreservation]
    · rw [put, hnote]
      rfl
    · rw [beq_iff_eq]
      exact hk.held i paddr hne

theorem Kept.procStep (hk : Kept i h) (n : Nat) : Kept i (h.procStep c i n) := by
  rw [Harts.procStep]
  generalize c.program i n h.toHartsWorld = insns
  induction insns generalizing h with
  | nil => exact hk
  | cons insn insns ih => exact ih (hk.act insn)

theorem Kept.outside (hk : Kept i h) (f : HartsWorld δ ι nprocs → HartsWorld δ ι nprocs) :
    Kept i (h.outside f) where
  held := fun j paddr hne => by
    have hholder : Token.holder effect (h.outside f).history = Token.holder effect h.history :=
      Token.holder_nothing rfl _
    rw [hholder]
    exact hk.held j paddr hne
  turn := hk.turn
  right := hk.right

variable [NeZero nprocs]

/-- **The reservations while a simulation goes on.** -/
theorem kept_next {s : Sim (Harts δ ι nprocs) nprocs} (hs : Kept s.currentProc s.state)
    (op : SimOp δ ι nprocs) :
    Kept (next c s op).currentProc (next c s op).state := by
  cases op with
  | host f => exact hs.outside f
  | step n =>
    exact Sim.step_induct (calls c) (I := Kept) (fun i n h hk => hk.procStep n)
      (fun i j h hk => hk.ends j (e := .yielded i) rfl rfl rfl hk.right)
        (fun i n h hk => hk.outside _)
      (fun i h hk => hk.outside _) (fun i h hk => hk.outside _) n hs

/-- **SC and the LR before it.** However the harts, the clock, the devices and the host take turns,
an SC that comes to its decision succeeds exactly when its hart has reserved the same address and
since then nothing has happened but what the hart has done besides LR and SC, and what comes from
outside. -/
theorem storeConditional_iff (c : HartsConfig δ ι nprocs) (w : HartsWorld δ ι nprocs)
    (ops : List (SimOp δ ι nprocs))
    {later earlier : List (ReservationEvent nprocs)} {i : Fin nprocs} {paddr : Reg} {ok : Bool}
    (h : (Run.run (next c) (Sim.init nprocs (init w)) ops).state.history = later ++
      .decided i paddr ok :: earlier) :
    ok = true ↔ ∃ between before, earlier = between ++ .reserved i paddr :: before ∧
      ∀ e ∈ between, e = .acted i ∨ e = .outside := by
  have hkept :=
    Run.run_induct (I := fun s : Sim (Harts δ ι nprocs) nprocs => Kept s.currentProc s.state)
    (fun s op hs => kept_next (c := c) hs op)
      (kept_init w (Sim.init nprocs (init w)).currentProc) ops
  have hright := hkept.right
  rw [h] at hright
  rw [hright.of_append.1, Token.holder_eq_some_iff]
  have htakes (e : ReservationEvent nprocs) : effect e = .takes i paddr ↔
      e = .reserved i paddr := by
    cases e <;> simp [effect]
  have hacts (e : ReservationEvent nprocs) : effect e = .acts i ∨ effect e = .nothing ↔
      e = .acted i ∨ e = .outside := by
    cases e <;> simp [effect]
  constructor
  · rintro ⟨between, e, before, heq, he, hbetween⟩
    rw [htakes] at he
    subst he
    exact ⟨between, before, heq, fun e he => (hacts e).1 (hbetween e he)⟩
  · rintro ⟨between, before, heq, hbetween⟩
    exact ⟨between, _, before, heq, rfl, fun e he => (hacts e).2 (hbetween e he)⟩

/-- Two supervisors. The first one has an LR and an SC in every portion of its turn, the second one
does nothing. -/
def twoHarts : HartsConfig Unit Unit 2 where
  cfg := HartMmu.rv64svadu
  bus := ramBus
  misalignedEnabled := false
  program := fun i _ _ => if i = 0 then [.lr 0x2000#64 .doubleword, .sc 0x2000#64 .doubleword 1#64]
    else []
  clintIncrement := fun _ w => w
  uartTick := id
  boardUpdate := id

def twoSupervisors : HartsWorld Unit Unit 2 where
  cpus := fun _ => HartMmu.supervisorOf 1#64 []
  world := HartMmu.mappedBy 0xc7#64

theorem storeConditional_iff_twoHarts : ∃ between before : List (ReservationEvent 2),
    [.reserved 0 0x2000#64] = between ++ .reserved 0 0x2000#64 :: before ∧
      ∀ e ∈ between, e = .acted 0 ∨ e = .outside := by
  have hrun : (Run.run (next twoHarts) (Sim.init 2 (init twoSupervisors)) [.step 5]).state.history =
      [] ++ .decided 0 0x2000#64 true :: [.reserved 0 0x2000#64] := by
    rw [Run.run_cons, Run.run_nil, next, Sim.step_of_ne _ (by decide)]
    have hrest : 5 - min 5 (interleave - (Sim.init 2 (init twoSupervisors)).currentStep) = 0 := rfl
    rw [hrest, Sim.step_zero, Sim.round_of_lt (by decide)]
    decide +kernel
  exact (storeConditional_iff twoHarts twoSupervisors [.step 5] hrun).1 rfl

end Harts

end Nnemu

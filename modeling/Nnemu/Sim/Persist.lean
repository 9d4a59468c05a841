import Nnemu.Lib.Run
import Nnemu.Sim.Clint

/-!
# Timer bits that software owns

With `STCE` clear, `mip.STIP` (and, for the guest, `mip.VSTIP`) is software's to write. The CLINT
and the harts take turns: a run is a list of hart events and uses of the CLINT. Whatever `STCE`
says, a bit that software leaves alone stays as it is as long as the comparisons that are made agree
with it (`timerBits_always`). A comparison that does not agree overwrites it (`timerBits_fail`).

The two bits are treated alike, with the comparator as a parameter. `Agrees` says that a comparison
at some time gives the bit the value it has, and `Quiet` asks this of every comparison that an event
makes: those with a time that is shown to the hart, and those of its writes to the comparator. A bit
is then followed through the run as a value that never changes (`Steady`).
-/

namespace Nnemu

namespace Clint

/-- An event of the harts and their CLINT. -/
inductive Op where
  | hart (id : Nat) (op : HartOp)
  | increment (inc : Reg)
  | load (addr : Reg) (len : Nat)
  | store (addr : Reg) (bytes : List (BitVec 8))

/-- The times that an event shows to the harts. -/
def timesOf (s : Clint) : Op → List Reg
  | .hart _ _ => []
  | .increment inc => [s.nextTime inc]
  | .load addr len => s.timesOfLoad addr len
  | .store addr bytes => s.timesOfStore addr bytes

/-- An event of one hart, each with its own configuration. -/
def hartStep (cfg : Nat → Config) (s : Clint) (id : Nat) (op : HartOp) : Clint :=
  { s with harts := Function.update s.harts id ((s.harts id).map fun h => h.step (cfg id) op) }

/-- What an event does. -/
def event (cfg : Nat → Config) (s : Clint) : Op → Clint
  | .hart id op => s.hartStep cfg id op
  | .increment inc => s.increment inc
  | .load addr len => (s.load addr len).2
  | .store addr bytes => (s.store addr bytes).2

/-- A step of a run: nothing happens after a failed assertion. -/
def step (cfg : Nat → Config) (s : Clint) (op : Op) : Clint :=
  if s.aborted then s else s.event cfg op

/-- Software on hart `id` writes `mip`. -/
def WritesMip (cfg : Nat → Config) (id : Nat) (s : Clint) : Op → Prop
  | .hart i op => i = id ∧ s.Has id fun h => Hart.WritesMip (cfg id) h op
  | _ => False

/-- The bit of the comparator is what a comparison at time `t` makes it. -/
def Agrees (c : Comparator) (h : Hart) (t : Reg) : Prop :=
  h.extensionEnabled .sstc = true → h.timerPending c = decide (h.reg c.csr ≤ h.dueTime t c)

/-- The comparisons that the event makes on hart `id` agree with the bit: those with a time that is
shown to it, and those of its writes to the comparator. -/
def Quiet (cfg : Nat → Config) (id : Nat) (c : Comparator) (s : Clint) : Op → Prop
  | .hart i op => i = id → ∀ h, s.harts id = some h → Hart.TimerQuiet (cfg id) c h op
  | op => ∀ h, s.harts id = some h → ∀ t ∈ s.timesOf op, Agrees c h t

/-! ### Uses of the CLINT -/

variable {cfg : Nat → Config} {s : Clint} {id : Nat} {c : Comparator} {b : Bool}

/-- The bit of the comparator is `b`. -/
def Shown (c : Comparator) (b : Bool) (h : Hart) : Prop :=
  h.timerPending c = b

/-- Nothing that a comparison reads has changed since `h₀`, nor has the bit. -/
structure Steady (c : Comparator) (h₀ h : Hart) : Prop where
  pending : h.timerPending c = h₀.timerPending c
  comparator : h.reg c.csr = h₀.reg c.csr
  delta : h.reg .htimedelta = h₀.reg .htimedelta
  sstc : h.extTable .sstc = h₀.extTable .sstc

theorem Steady.refl (h : Hart) : Steady c h h :=
  ⟨rfl, rfl, rfl, rfl⟩

/-- Another bit of `mip` is driven. -/
theorem Steady.pin {h₀ h : Hart} (st : Steady c h₀ h) {mask : Reg} (hm : mask.getLsbD c.bit = false)
    (val : Reg) : Steady c h₀ (h.writeWithMask .mip mask val) where
  pending := by
    rw [Hart.timerPending_writeWithMask, hm, if_neg (by decide)]
    exact st.pending
  comparator := by
    rw [Hart.writeWithMask, Hart.reg_set, if_neg (c.csr_ne (by decide) (by decide)).symm]
    exact st.comparator
  delta := st.delta
  sstc := st.sstc

/-- **A time that agrees with the bit** may be shown. -/
theorem Steady.timeSync {h₀ h : Hart} (st : Steady c h₀ h) {t : Reg} (hq : Agrees c h₀ t) :
    Steady c h₀ (h.timeSync t) where
  pending := by
    rw [Hart.timerPending_timeSync]
    split
    · rename_i hs
      have hdue : h.dueTime t c = h₀.dueTime t c := by
        cases c with
        | stimecmp => rfl
        | vstimecmp => exact congrArg (t + ·) st.delta
      rw [st.comparator, hdue]
      exact (hq (st.sstc.symm.trans hs)).symm
    · exact st.pending
  comparator := by
    rw [Hart.reg_timeSync t (c.csr_ne (by decide) (by decide)).symm,
      if_neg (c.csr_ne (by decide) (by decide)).symm]
    exact st.comparator
  delta := by
    rw [Hart.reg_timeSync t (by decide), if_neg (by decide)]
    exact st.delta
  sstc := by
    rw [Hart.extTable_timeSync]
    exact st.sstc

/-- Times that agree with the bit leave it. -/
theorem shows_steady {h₀ : Hart} {times : List Reg} (hq : ∀ t ∈ times, Agrees c h₀ t) :
    Shows times (Steady c h₀) (Steady c h₀) where
  tick t ht _ _ st := (st.timeSync (hq t ht)).pin (by cases c <;> rfl) _
  weaken _ st := st
  msip _ _ st := st.pin (by cases c <;> rfl) _

/-- A use of the CLINT. -/
theorem steady_event {h₀ : Hart} (hh : s.harts id = some h₀) {op : Op} (hop : ∀ i o, op ≠ .hart i o)
    (hq : ∀ t ∈ s.timesOf op, Agrees c h₀ t) : (s.event cfg op).Has id (Steady c h₀) := by
  have has : s.Has id (Steady c h₀) := ⟨h₀, hh, Steady.refl h₀⟩
  have w := shows_steady hq
  cases op with
  | hart i o => exact absurd rfl (hop i o)
  | increment inc => exact has_increment has w
  | load addr len =>
    by_cases hlen : len ≤ 8
    · exact has_load has addr w hlen
    · rw [event, load_long addr hlen]
      exact has
  | store addr bytes =>
    have hstore := has_store has w rfl
    rw [ite_self] at hstore
    exact hstore

/-! ### Runs -/

/-- An event of a hart. -/
theorem shown_hartStep (i : Nat) (op : HartOp) (hs : s.Has id (Shown c b))
    (hw : ¬ WritesMip cfg id s (.hart i op)) (hq : Quiet cfg id c s (.hart i op)) :
    (s.hartStep cfg i op).Has id (Shown c b) := by
  obtain ⟨h, hh, hb⟩ := hs
  by_cases hi : i = id
  · subst hi
    refine ⟨h.step (cfg i) op, ?_, ?_⟩
    · show Function.update s.harts i _ i = _
      rw [Function.update_self, hh]
      rfl
    · rw [Shown, Hart.step]
      split
      · exact hb
      · exact ((Hart.timerPending_event (fun hm => hw ⟨rfl, h, hh, hm⟩) c).2 (hq rfl h hh)).trans hb
  · refine ⟨h, ?_, hb⟩
    show Function.update s.harts i _ id = _
    rw [Function.update_of_ne (Ne.symm hi), hh]

/-- An event that is no write to `mip` and whose comparisons agree with the bit leaves it. -/
theorem shown_step (op : Op) (hs : s.Has id (Shown c b)) (hw : ¬ WritesMip cfg id s op)
    (hq : Quiet cfg id c s op) : (s.step cfg op).Has id (Shown c b) := by
  rw [step]
  split
  · exact hs
  · have uses (hop : ∀ i o, op ≠ .hart i o)
        (hq : ∀ h, s.harts id = some h → ∀ t ∈ s.timesOf op, Agrees c h t) :
        (s.event cfg op).Has id (Shown c b) := by
      obtain ⟨h, hh, hb⟩ := hs
      exact (steady_event hh hop (hq h hh)).mono fun _ st => st.pending.trans hb
    cases op with
    | hart i op => exact shown_hartStep i op hs hw hq
    | increment inc => exact uses (fun _ _ => Op.noConfusion) hq
    | load addr len => exact uses (fun _ _ => Op.noConfusion) hq
    | store addr bytes => exact uses (fun _ _ => Op.noConfusion) hq

/-- **Who owns the timer bits.** In every run in which no instruction of hart `id` writes `mip` and
every comparison made on it agrees with the bit of the comparator, the bit stays as it was. -/
theorem timerBits_always (cfg : Nat → Config) (s : Clint) (id : Nat) (c : Comparator) (b : Bool)
    (hs : s.Has id (Shown c b)) (ops : List Op)
    (hops : Run.Along (step cfg)
      (fun s op => ¬ WritesMip cfg id s op ∧ Quiet cfg id c s op) s ops) :
    Run.Always (step cfg) (fun s => s.Has id (Shown c b)) s ops := by
  have hstep (s : Clint) (op : Op) (hs : s.Has id (Shown c b))
      (hop : ¬ WritesMip cfg id s op ∧ Quiet cfg id c s op) : (s.step cfg op).Has id (Shown c b) :=
    shown_step op hs hop.1 hop.2
  exact Run.Always.of_step hstep (fun _ hs => hs) hs hops

/-- With `stimecmp` at 0, `STIP` is right from the first tick on. -/
theorem timerBits_always_rv64h :
    Run.Always (step fun _ => rv64h) (fun s => s.Has 0 (Shown .stimecmp true))
      ((single (Hart.init rv64h false)).increment 0#64) [.hart 0 .wfi, .load 0xbff8#64 8] := by
  refine timerBits_always (fun _ => rv64h) _ 0 .stimecmp true ⟨_, rfl, by rw [Shown]; decide⟩ _ ?_
  refine ⟨⟨fun hw => ?_, fun _ _ _ => trivial⟩, ⟨id, fun h hh t ht _ => ?_⟩, trivial⟩
  · obtain ⟨-, h, -, hm⟩ := hw
    exact hm
  · obtain rfl := Option.some.inj hh
    obtain rfl := List.mem_singleton.1 ht
    decide

/-- With `menvcfg.STCE` clear and no write to `mip`, a tick clears the `STIP` that software has
set. -/
theorem timerBits_fail :
    let s := Run.run (step fun _ => rv64h) (single (Hart.init rv64h false))
      [.hart 0 (.csr 0x14d (.write 0xffffffffffffffff#64) 0#64),
        .hart 0 (.csr 0x344 (.set 0x20#64) 0#64)]
    (s.Has 0 fun h => hasBits (h.reg .menvcfg) envcfgStce = false) ∧
      s.Has 0 (Shown .stimecmp true) ∧
      (s.increment 0#64).Has 0 (Shown .stimecmp false) := by
  refine ⟨⟨_, rfl, ?_⟩, ⟨_, rfl, ?_⟩, ⟨_, rfl, ?_⟩⟩
  · decide
  · rw [Shown]
    decide
  · rw [Shown]
    decide

end Clint

end Nnemu

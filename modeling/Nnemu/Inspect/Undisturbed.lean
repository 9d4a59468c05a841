import Nnemu.Lib.Run
import Nnemu.Mmu.Peek
import Nnemu.Sim.Interactive

/-!
# Commands that leave no trace

The commands are one program text over a `MemoryAccess`, and `peekAccess` is memory that is looked
at and never changed. A command is quiet where it comes to an end over `peekAccess`, with a result
or with a trap: then it does the same over the memory of the simulator, and leaves the machine as it
is (`inspected_of_quiet`). Runs in which all commands are quiet visit the states that the runs
without them visit (`undisturbed`). A command is not quiet in a state where it sets the A bit of a
page-table entry, fills in the TLB, reaches a device that is changed by the load, matches a trigger,
or has `abort()` called.

Two memories are `Alike` when a command cannot tell them apart, and this follows the text of each
command once. `peekAccess` and the memory of the simulator are alike as long as nothing is disturbed
(`tells_coreLoad`, from `Mmu.Peek`). A run is a list of commands and of what the simulator does
between them, and the theorem removes the commands from it.
-/

namespace Nnemu

open Bytes

/-! ### Memories that answer alike -/

section

variable {m n : Type → Type} [Monad m] [Monad n]

/-- Two memories of which the answers are related. -/
structure MemoryAccess.Alike (L : Relator m n) (acc : MemoryAccess m) (acc' : MemoryAccess n) :
    Prop where
  debug : ∀ addr len, L.rel Eq (acc.debug addr len) (acc'.debug addr len)
  core : ∀ i addr len, L.rel Eq (acc.core i addr len) (acc'.core i addr len)
  stop : ∀ {α : Type} (e : Stop), L.rel (Eq : α → α → Prop) (acc.stop α e) (acc'.stop α e)

namespace MemoryAccess.Alike

open Interactive

variable {L : Relator m n} {acc : MemoryAccess m} {acc' : MemoryAccess n}
  {δ ι : Type} {con : Console δ} {mach : Simulator δ ι}
  (h : Alike L acc acc')
include h

theorem refuse {α : Type} : L.rel (Eq : α → α → Prop) (refuse acc) (refuse acc') :=
  h.stop _

/-- What there is or is not. -/
theorem elim {α β : Type} {o : Option α} {e : Stop} {f : α → m β} {f' : α → n β}
    (hf : ∀ a, L.rel Eq (f a) (f' a)) :
    L.rel Eq (o.elim (acc.stop β e) f) (o.elim (acc'.stop β e) f') := by
  cases o with
  | none => exact h.stop e
  | some a => exact hf a

theorem getCore (core : String) : L.rel Eq (getCore acc mach core) (getCore acc' mach core) := by
  rw [Interactive.getCore, Interactive.getCore]
  dsimp only
  split
  · split
    · exact L.eq_pure _
    · exact h.refuse
  · exact h.refuse

theorem getPc (args : List String) : L.rel Eq (getPc acc mach args) (getPc acc' mach args) := by
  rw [Interactive.getPc.eq_def, Interactive.getPc.eq_def]
  split
  · exact L.eq_bind (h.getCore _) fun p => L.eq_pure _
  · exact h.refuse

theorem getCsr (p : Processor ι) (which : Nat) :
    L.rel Eq (getCsr acc con p which) (getCsr acc' con p which) := by
  rw [Interactive.getCsr, Interactive.getCsr]
  split
  · exact h.elim fun a => L.eq_pure a
  · exact h.elim fun a => L.eq_pure a

theorem getReg (args : List String) :
    L.rel Eq (getReg acc con mach args) (getReg acc' con mach args) := by
  rw [Interactive.getReg.eq_def, Interactive.getReg.eq_def]
  split
  · refine L.eq_bind (h.getCore _) fun p => ?_
    dsimp only
    split
    · exact L.eq_pure _
    split
    · split
      · exact L.eq_pure _
      · exact h.refuse
    · exact h.elim fun which => h.getCsr p.2 which
  · exact h.refuse

theorem getMem (args : List String) : L.rel Eq (getMem acc mach args) (getMem acc' mach args) := by
  rw [Interactive.getMem.eq_def, Interactive.getMem.eq_def]
  split
  · exact L.eq_bind (h.debug _ _) fun bytes => L.eq_pure _
  · exact L.eq_bind (h.getCore _) fun p => L.eq_bind (h.core _ _ _) fun bytes => L.eq_pure _
  · exact h.refuse

theorem untilNul {load : Reg → m (List (BitVec 8))} {load' : Reg → n (List (BitVec 8))}
    (hload : ∀ addr, L.rel Eq (load addr) (load' addr)) (k : Nat) (addr : Reg) :
    L.rel Eq (untilNul acc load k addr) (untilNul acc' load' k addr) := by
  induction k generalizing addr with
  | zero => exact h.stop _
  | succ k ih =>
    refine L.eq_bind (hload addr) fun ch => ?_
    split
    · exact L.eq_pure _
    · exact L.eq_bind (ih _) fun s => L.eq_pure _

theorem interactiveReg (args : List String) :
    L.rel Eq (interactiveReg acc con mach args) (interactiveReg acc' con mach args) := by
  rw [Interactive.interactiveReg.eq_def, Interactive.interactiveReg.eq_def]
  split
  · exact h.refuse
  · exact L.eq_bind (h.getCore _) fun p => L.eq_pure _
  · exact L.eq_bind (h.getCore _) fun p => L.eq_bind (h.getReg _) fun val => L.eq_pure _

theorem interactivePc (args : List String) :
    L.rel Eq (interactivePc acc mach args) (interactivePc acc' mach args) := by
  rw [Interactive.interactivePc.eq_def, Interactive.interactivePc.eq_def]
  split
  · exact L.eq_bind (h.getCore _) fun p => L.eq_bind (h.getPc _) fun pc => L.eq_pure _
  · exact h.refuse

theorem interactivePriv (args : List String) :
    L.rel Eq (interactivePriv acc mach args) (interactivePriv acc' mach args) := by
  rw [Interactive.interactivePriv.eq_def, Interactive.interactivePriv.eq_def]
  split
  · exact L.eq_bind (h.getCore _) fun p => h.elim fun s => L.eq_pure _
  · exact h.refuse

theorem interactiveMem (args : List String) :
    L.rel Eq (interactiveMem acc mach args) (interactiveMem acc' mach args) := by
  rw [Interactive.interactiveMem, Interactive.interactiveMem]
  split
  · exact h.stop _
  · exact L.eq_bind (h.getMem _) fun val => L.eq_pure _

theorem interactiveStr (args : List String) :
    L.rel Eq (interactiveStr acc mach args) (interactiveStr acc' mach args) := by
  rw [Interactive.interactiveStr.eq_def, Interactive.interactiveStr.eq_def]
  split
  · exact L.eq_bind (h.untilNul (fun addr => h.debug addr 1) _ _) fun s => L.eq_pure _
  · exact L.eq_bind (h.getCore _) fun p => L.eq_bind
      (h.untilNul (fun addr => h.core p.1 addr 1) _ _) fun s => L.eq_pure _
  · exact h.refuse

theorem interactiveMtimecmp (args : List String) :
    L.rel Eq (interactiveMtimecmp acc con mach args) (interactiveMtimecmp acc' con mach args) := by
  rw [Interactive.interactiveMtimecmp.eq_def, Interactive.interactiveMtimecmp.eq_def]
  split
  · exact L.eq_bind (h.getCore _) fun p => h.elim fun t => L.eq_pure _
  · exact h.refuse

/-- What a condition watches. -/
theorem watched (con : Console δ) (mach : Simulator δ ι) (what : String) :
    (watched acc con mach what = none ∧ watched acc' con mach what = none) ∨
    ∃ func func', watched acc con mach what = some func ∧ watched acc' con mach what = some func' ∧
      ∀ args, L.rel Eq (func args) (func' args) := by
  rw [Interactive.watched.eq_def, Interactive.watched.eq_def]
  split
  · exact Or.inr ⟨_, _, rfl, rfl, h.getReg⟩
  · exact Or.inr ⟨_, _, rfl, rfl, h.getPc⟩
  · exact Or.inr ⟨_, _, rfl, rfl, h.getMem⟩
  · exact Or.inl ⟨rfl, rfl⟩

theorem checkCore (core : String) (more : List String) :
    L.rel Eq (checkCore acc mach core more) (checkCore acc' mach core more) := by
  rw [Interactive.checkCore, Interactive.checkCore]
  split
  · exact L.eq_bind (h.getCore core) fun _ => L.eq_pure ()
  · exact L.eq_pure ()

theorem interactiveUntil (cmdUntil : Bool) (args : List String) :
    L.rel Eq (interactiveUntil acc con mach cmdUntil args)
    (interactiveUntil acc' con mach cmdUntil args) := by
  rw [Interactive.interactiveUntil.eq_def, Interactive.interactiveUntil.eq_def]
  split
  · rename_i what core third more
    refine L.eq_bind (h.checkCore core more) fun _ => ?_
    dsimp only
    split
    · exact h.refuse
    split
    · exact h.stop _
    · obtain ⟨hnone, hnone'⟩ | ⟨func, func', hsome, hsome', hfunc⟩ := h.watched con mach what
      · simp only [hnone, hnone']
        exact h.refuse
      · simp only [hsome, hsome']
        exact L.eq_bind (hfunc _) fun current => L.eq_pure _
  · exact h.refuse

/-- **Commands** over memories that answer alike come to the same. -/
theorem command (cmd : Inspection) :
    L.rel Eq (command acc con mach cmd) (command acc' con mach cmd) := by
  cases cmd with
  | reg args => exact h.interactiveReg args
  | pc args => exact h.interactivePc args
  | priv args => exact h.interactivePriv args
  | mem args => exact h.interactiveMem args
  | str args => exact h.interactiveStr args
  | mtime args => exact h.elim fun t => L.eq_pure _
  | mtimecmp args => exact h.interactiveMtimecmp args
  | condition cmdUntil args => exact h.interactiveUntil cmdUntil args

end MemoryAccess.Alike

end

/-! ### Memory that is looked at -/

namespace Console

variable {δ ι : Type} [DecidableEq δ] (con : Console δ)

/-- Memory that is looked at and never changed. -/
def peekAccess : MemoryAccess (Peek (Simulator δ ι)) where
  debug := fun addr len m =>
    if con.bus.isMem addr then .ok (readBytes m.world.mem addr len)
    else HartMmu.peekDevice (con.busAt m.harts) true m.wired.dev addr len
      (accessFault .load false addr)
  core := fun i addr len m =>
    match m.procs[i]? with
    | none => .error (.stop .abort)
    | some p => HartMmu.peek p.cfg (con.busAt m.harts) p.cpu m.wired addr len
  stop := fun _ e _ => .error (.stop e)

end Console

theorem Hart.setPins_pins (h : Hart) : h.setPins h.pins = h := by
  simp only [setPins, pins, set, Function.update_eq_self]

namespace Simulator

variable {δ ι : Type} {m : Simulator δ ι} {i : Nat} {p : Processor ι}

/-- An access that changes neither devices nor pins. -/
theorem rewired_wired (m : Simulator δ ι) : m.rewired m.wired = m := by
  have hprocs : List.zipWith pinned m.procs (m.harts.map Hart.pins) = m.procs := by
    rw [harts, List.map_map, List.zipWith_map_right, List.zipWith_self]
    refine List.map_id'' (fun p => ?_) m.procs
    rw [pinned, Function.comp_apply, Hart.setPins_pins]
  rw [rewired, wired]
  simp only [hprocs]

/-- An access that changes nothing of its processor. -/
theorem withCpu_self (hp : m.procs[i]? = some p) : m.withCpu i p.cpu = m := by
  have hprocs : (m.procs.modify i fun q => { q with cpu := p.cpu }) = m.procs := by
    refine List.ext_getElem? fun j => ?_
    rw [List.getElem?_modify]
    split
    · rename_i hij
      subst hij
      rw [hp]
      rfl
    · exact Option.map_id'
  rw [withCpu, hprocs]

end Simulator

section

variable {δ ι : Type} [DecidableEq δ] {con : Console δ}

/-- What a look at a device tells of `debug_mmu`. -/
theorem tells_debugLoad (m : Simulator δ ι) (addr : Reg) (len : Nat) :
    Tells ((con.peekAccess (ι := ι)).debug addr len m) (con.debugLoad addr len) m := by
  have hwired : m.rewired { m.wired with dev := m.wired.dev } = m := m.rewired_wired
  simp only [Console.peekAccess]
  split
  · rename_i hmem
    refine Tells.value ?_
    rw [Console.debugLoad, if_pos hmem]
  · rename_i hmem
    obtain ⟨bytes, hload, hres⟩ | ⟨hload, hres⟩ | hres :=
      HartMmu.peekDevice_cases
        (rfl : HartMmu.peekDevice (con.busAt m.harts) true m.wired.dev addr len
          (accessFault .load false addr) = _)
    · rw [hres]
      refine Tells.value ?_
      rw [Console.debugLoad, if_neg hmem]
      simp only [hload, hwired]
    · rw [hres]
      refine Tells.error ?_
      rw [Console.debugLoad, if_neg hmem]
      simp only [hload, hwired]
    · rw [hres]
      exact Tells.disturbed _

/-- What a peek tells of the load of a processor. -/
theorem tells_coreLoad (m : Simulator δ ι) (i : Nat) (addr : Reg) (len : Nat) :
    Tells ((con.peekAccess (ι := ι)).core i addr len m) (con.coreLoad i addr len) m := by
  simp only [Console.peekAccess]
  cases hp : m.procs[i]? with
  | none =>
    refine Tells.error ?_
    rw [Console.coreLoad]
    simp only [hp]
  | some p =>
    have hself : (m.withCpu i p.cpu).rewired m.wired = m :=
      by rw [Simulator.withCpu_self hp, m.rewired_wired]
    have htells : Tells (HartMmu.peek p.cfg (con.busAt m.harts) p.cpu m.wired addr len)
      (HartMmu.load p.cfg (con.busAt m.harts) addr len) (p.cpu, m.wired) := HartMmu.tells_peek
    refine ⟨fun bytes h => ?_, fun e h => ?_⟩
    · rw [Console.coreLoad]
      simp only [hp, htells.ok bytes h, hself]
    · rw [Console.coreLoad]
      simp only [hp, htells.stop e h, hself]

/-- Memory that is looked at answers as that of the simulator. -/
theorem peekAccess_alike :
    MemoryAccess.Alike (peekRelator (Simulator δ ι)) con.peekAccess con.access where
  debug := fun addr len => rel_of_tells fun m => tells_debugLoad m addr len
  core := fun i addr len => rel_of_tells fun m => tells_coreLoad m i addr len
  stop := fun _ => rel_of_tells fun _ => Tells.error rfl

end

/-! ### Quiet commands -/

namespace Simulator

variable {δ ι : Type} [DecidableEq δ] (con : Console δ)

/-- Does a command come to an end without changing anything? -/
def quiet (m : Simulator δ ι) (cmd : Inspection) : Bool :=
  match Interactive.command con.peekAccess con m cmd m with
  | .ok _ => true
  | .error (.stop (.trap _)) => true
  | .error _ => false

variable {con} {m : Simulator δ ι} {cmd : Inspection}

/-- **A quiet command** leaves the machine as it is, and the command loop goes on. -/
theorem inspected_of_quiet (h : m.quiet con cmd = true) : m.inspected con cmd = some m := by
  have halike : MemoryAccess.Alike (peekRelator (Simulator δ ι)) con.peekAccess con.access :=
    peekAccess_alike
  have htells : Tells (Interactive.command con.peekAccess con m cmd m)
    (Interactive.command con.access con m cmd) m :=
    tells_of_rel (halike.command cmd) m
  rw [quiet] at h
  rw [inspected, inspect]
  split at h
  · rename_i shown hshown
    simp only [htells.ok shown hshown]
  · rename_i t ht
    simp only [htells.stop _ ht]
  · cases h

end Simulator

/-! ### Commands that are always quiet -/

/-- A program that returns or traps, whatever it looks at. -/
def Calm {σ α : Type} (x : Peek σ α) : Prop :=
  ∀ s, (∃ a, x s = .ok a) ∨ ∃ t, x s = .error (.stop (.trap t))

namespace Calm

open Interactive

variable {σ α β : Type}

theorem pure (a : α) : Calm (Pure.pure a : Peek σ α) :=
  fun _ => Or.inl ⟨a, rfl⟩

/-- Sequences. -/
theorem bind {x : Peek σ α} {f : α → Peek σ β} (hx : Calm x) (hf : ∀ a, Calm (f a)) :
    Calm (x >>= f) := by
  intro s
  have happly : (x >>= f) s = (x s).bind fun a => f a s := rfl
  rw [happly]
  obtain ⟨a, ha⟩ | ⟨t, ht⟩ := hx s
  · rw [ha]
    exact hf a s
  · rw [ht]
    exact Or.inr ⟨t, rfl⟩

variable {δ ι : Type} [DecidableEq δ] {con : Console δ} {m : Simulator δ ι}

theorem refuse : Calm (Interactive.refuse con.peekAccess : Peek (Simulator δ ι) α) :=
  fun _ => Or.inr ⟨trapInteractive, rfl⟩

theorem getCore (core : String) :
    Calm (getCore con.peekAccess m core : Peek (Simulator δ ι) _) := by
  rw [Interactive.getCore]
  dsimp only
  cases m.procs[(CNumber.strtoul 10 (CNumber.cStr core)).1.toNat]? with
  | none => exact refuse
  | some p =>
    dsimp only
    split
    · exact pure _
    · exact refuse

theorem getPc (args : List String) :
    Calm (getPc con.peekAccess m args : Peek (Simulator δ ι) _) := by
  rw [Interactive.getPc.eq_def]
  split
  · exact (getCore _).bind fun _ => pure _
  · exact refuse

/-- A register of the hart, when the source of entropy can be opened. -/
theorem getReg (hseed : con.seed.isSome) (args : List String) :
    Calm (getReg con.peekAccess con m args : Peek (Simulator δ ι) _) := by
  obtain ⟨seed, hsome⟩ := Option.isSome_iff_exists.1 hseed
  rw [Interactive.getReg.eq_def]
  split
  · refine (getCore _).bind fun p => ?_
    dsimp only
    split
    · exact pure _
    split
    · split
      · exact pure _
      · exact refuse
    · cases csrNames.lookup _ with
      | none => exact refuse
      | some which =>
        show Calm (Interactive.getCsr con.peekAccess con p.2 which : Peek (Simulator δ ι) _)
        rw [Interactive.getCsr, hsome]
        split
        · exact pure seed
        · cases p.2.cpu.hart.peekCsr p.2.cfg which with
          | none => exact fun _ => Or.inr ⟨trapNoCsr, rfl⟩
          | some val => exact pure val
  · exact refuse

/-- RAM, by its physical address. -/
theorem getMem {a : String} (ha : con.bus.isMem (CNumber.hex a) = true) :
    Calm (getMem con.peekAccess m [a] : Peek (Simulator δ ι) _) :=
  bind (fun _ => Or.inl ⟨_, if_pos ha⟩) fun _ => pure _

end Calm

namespace Simulator

variable {δ ι : Type} [DecidableEq δ] {con : Console δ} {m : Simulator δ ι} {cmd : Inspection}

/-- A calm command is quiet. -/
theorem quiet_of_calm
    (h : Calm (Interactive.command con.peekAccess con m cmd : Peek (Simulator δ ι) _)) :
    m.quiet con cmd = true := by
  rw [quiet]
  obtain ⟨a, ha⟩ | ⟨t, ht⟩ := h m
  · rw [ha]
  · rw [ht]

/-- The program counter is shown quietly. -/
theorem quiet_pc (args : List String) : m.quiet con (.pc args) = true := by
  refine quiet_of_calm ?_
  show Calm (Interactive.interactivePc con.peekAccess m args : Peek (Simulator δ ι) _)
  rw [Interactive.interactivePc.eq_def]
  split
  · exact (Calm.getCore _).bind fun _ => (Calm.getPc _).bind fun _ => Calm.pure _
  · exact Calm.refuse

/-- So are registers. -/
theorem quiet_reg (hseed : con.seed.isSome) (args : List String) :
    m.quiet con (.reg args) = true := by
  refine quiet_of_calm ?_
  show Calm (Interactive.interactiveReg con.peekAccess con m args : Peek (Simulator δ ι) _)
  rw [Interactive.interactiveReg.eq_def]
  split
  · exact Calm.refuse
  · exact (Calm.getCore _).bind fun _ => Calm.pure _
  · exact (Calm.getCore _).bind fun _ => (Calm.getReg hseed _).bind fun _ => Calm.pure _

/-- RAM is shown quietly by its physical address. -/
theorem quiet_mem {p : Processor ι} (hp : m.procs.head? = some p) {a : String}
    (ha : con.bus.isMem (CNumber.hex a) = true) :
    m.quiet con (.mem [a]) = true := by
  refine quiet_of_calm ?_
  show Calm (Interactive.interactiveMem con.peekAccess m [a] : Peek (Simulator δ ι) _)
  rw [Interactive.interactiveMem, hp]
  exact (Calm.getMem ha).bind fun _ => Calm.pure _

end Simulator

/-! ### Runs of the simulator with commands -/

/-- What happens to the simulator: it goes on, by an instruction of a processor or by a tick of the
devices, or a command is given. -/
inductive ConsoleOp where
  | advance
  | inspect (cmd : Inspection)

namespace ConsoleOp

/-- Does the simulation go on? -/
def advances : ConsoleOp → Bool
  | advance => true
  | inspect _ => false

variable {δ ι : Type} (con : Console δ) (advance : Simulator δ ι → Option (Simulator δ ι))

/-- One operation. There is no machine when the simulator has ended. -/
def play (m : Option (Simulator δ ι)) : ConsoleOp → Option (Simulator δ ι)
  | .advance => m.bind advance
  | .inspect cmd => m.bind fun m => m.inspected con cmd

/-- Commands are quiet in the states in which they are given. -/
def Quiet [DecidableEq δ] (m : Option (Simulator δ ι)) : ConsoleOp → Prop
  | .advance => True
  | .inspect cmd => ∀ m', m = some m' → m'.quiet con cmd = true

instance Quiet.decidable [DecidableEq δ] : (m : Option (Simulator δ ι)) →
    (op : ConsoleOp) → Decidable (op.Quiet con m)
  | _, .advance => isTrue trivial
  | none, .inspect _ => isTrue fun _ h => (by cases h)
  | some m, .inspect cmd =>
    decidable_of_iff (m.quiet con cmd = true) ⟨fun h _ hm => Option.some.inj hm ▸ h,
      fun h => h m rfl⟩

variable {con advance}

/-- A quiet command changes nothing. -/
theorem play_eq_self [DecidableEq δ] {m : Option (Simulator δ ι)} {op : ConsoleOp}
    (h : op.Quiet con m)
    (hop : op.advances = false) : play con advance m op = m := by
  cases op with
  | advance => cases hop
  | inspect cmd =>
    cases m with
    | none => rfl
    | some m => exact Simulator.inspected_of_quiet (h m rfl)

/-- Commands that are quiet in every state with a processor: those that show the program counter or
registers, and `mem` of a physical address in RAM. -/
def Plain (con : Console δ) (m : Option (Simulator δ ι)) : ConsoleOp → Prop
  | .advance => True
  | .inspect (.pc _) => True
  | .inspect (.reg _) => True
  | .inspect (.mem [a]) => con.bus.isMem (CNumber.hex a) = true ∧
      ∀ m', m = some m' → m'.procs.head?.isSome = true
  | .inspect _ => False

theorem Plain.quiet [DecidableEq δ] (hseed : con.seed.isSome) {m : Option (Simulator δ ι)}
    {op : ConsoleOp} (h : op.Plain con m) : op.Quiet con m := by
  cases op with
  | advance => trivial
  | inspect cmd =>
    intro m' hm
    cases cmd with
    | pc args => exact Simulator.quiet_pc args
    | reg args => exact Simulator.quiet_reg hseed args
    | mem args =>
      match args, h with
      | [a], h =>
        obtain ⟨p, hp⟩ := Option.isSome_iff_exists.1 (h.2 m' hm)
        exact Simulator.quiet_mem hp h.1
    | _ => exact h.elim

/-- **Registers and RAM may always be looked at**, whatever the simulator is doing. -/
theorem plain_undisturbed [DecidableEq δ] (hseed : con.seed.isSome) {m : Option (Simulator δ ι)}
    {ops : List ConsoleOp} (h : Run.Along (play con advance) (fun m op => op.Plain con m) m ops) :
    Run.run (play con advance) m ops = Run.run (play con advance) m (ops.filter advances) := by
  have hidle (m : Option (Simulator δ ι)) (op : ConsoleOp) (hplain : op.Plain con m)
      (hop : op.advances = false) : play con advance m op = m :=
    play_eq_self (hplain.quiet hseed) hop
  exact Run.run_filter hidle h

/-! ### Commands that disturb -/

/-- A simulator of one hart, of which the other parts are as after a reset. -/
def oneHart (cfg : Config) (h : Hart) (l : List (Reg × Reg)) : Simulator Nat Unit where
  procs :=
    [{ cfg := cfg
       cpu :=
        { hart := h
          serialized := false
          checkTriggersIcount := false
          matchedTrigger := none
          icache := fun _ => ⟨invalidTag, 0, ()⟩
          ledger := ⟨0#64, none⟩
          rest := ⟨fun _ => 0#64, .flushed⟩ } }]
  world :=
    { mem := (World.ofDoublewords l).mem
      dev := 0
      ptDirty := fun _ => false
      codeDirty := fun _ => false }

end ConsoleOp

end Nnemu

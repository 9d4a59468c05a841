import Nnemu.Mmu.Sound

/-!
# The memory management unit without a TLB

What `mmu_t` is for: an access is checked for triggers, translated by a walk, and then done in RAM
or by a device. The unit of the source remembers translations and goes around the walk, and around
the checks for triggers, where it can. `Simulates` says that one of its programs comes to the same
as one of these here, as long as its TLB is sound; the rules for it follow the text of both.

`Refines` relates a state with a TLB to one without: the TLB is sound there, and everything else is
the same. The rules for `Simulates` are those of a program logic, one for each construct the
accesses are written with (`pure`, `throw`, `bind`, `get`, `ite`), so that an access is compared
with its plain version line by line.
-/

namespace Nnemu

open Bytes Trigger

namespace HartMmu

variable {δ ι : Type} (cfg : Config) (bus : Bus δ)

/-! ### Accesses -/

/-- What is read at an address. -/
def readPlain (type : AccessType) (device : Reg → LoadM δ ι (List (BitVec 8)))
    (addr : Reg) (len : Nat) :
    LoadM δ ι (List (BitVec 8)) := do
  let paddr ← translateIn cfg bus addr len type
  if bus.isMem paddr then
    let (_, w) ← get
    pure (readBytes w.mem paddr len)
  else device paddr

/-- What is written at an address, or could be. -/
def writePlain (addr : Reg) (len : Nat) (bytes : List (BitVec 8)) (actuallyStore : Bool) :
    LoadM δ ι Unit := do
  let paddr ← translateIn cfg bus addr len .store
  if actuallyStore then
    if bus.isMem paddr then writeRam paddr bytes
    else deviceStore bus addr paddr bytes

/-- `store_slow_path`, over `store_slow_path_intrapage` -/
def storeSlowPathOver (misalignedEnabled : Bool)
    (part : Reg → Nat → List (BitVec 8) → Bool → LoadM δ ι Unit) (addr : Reg)
    (len : Nat) (bytes : List (BitVec 8)) (actuallyStore requireAlignment : Bool) :
    LoadM δ ι Unit := do
  if actuallyStore then checkStore cfg addr (fromBytes bytes)
  if !isAligned addr len then
    let (c, _) ← get
    if !misalignedEnabled then throw (.trap (storeAddressMisaligned c.hart.v addr))
    if requireAlignment then throw (.trap (accessFault .store c.hart.v addr))
    let lenPage0 := min len (4096 - addr.toNat % 4096)
    part addr lenPage0 (bytes.take lenPage0) actuallyStore
    if lenPage0 ≠ len then
      part (addr + BitVec.ofNat 64 lenPage0) (len - lenPage0) (bytes.drop lenPage0) actuallyStore
  else part addr len bytes actuallyStore

theorem storeSlowPath_eq (misalignedEnabled : Bool) (addr : Reg) (len : Nat)
    (bytes : List (BitVec 8))
    (actuallyStore requireAlignment : Bool) :
    storeSlowPath (ι := ι) cfg bus misalignedEnabled addr len bytes actuallyStore requireAlignment =
      storeSlowPathOver cfg misalignedEnabled (storeSlowPathIntrapage cfg bus)
        addr len bytes actuallyStore
        requireAlignment := rfl

variable (misalignedEnabled : Bool)

/-- A fetch without a TLB. -/
def fetchPlain (addr : Reg) : LoadM δ ι (List (BitVec 8)) := do
  checkData cfg .execute addr none
  let bytes ← readPlain cfg bus .fetch (deviceFetch bus addr) addr 2
  checkData cfg .execute addr (some (fromBytes bytes))
  pure bytes

/-- A load without a TLB. -/
def loadPlain (addr : Reg) (len : Nat) : LoadM δ ι (List (BitVec 8)) :=
  loadSlowPathOver cfg misalignedEnabled
    (fun addr len => readPlain cfg bus .load (fun paddr => deviceLoad bus addr paddr len) addr len)
      addr len

/-- A store without a TLB. -/
def storePlain (addr : Reg) (len : Nat) (val : Reg) : LoadM δ ι Unit :=
  storeSlowPathOver cfg misalignedEnabled (writePlain cfg bus) addr len (toBytes val len) true false

/-- An atomic operation without a TLB. -/
def amoPlain (addr : Reg) (len : Nat) (f : Reg → Reg) : LoadM δ ι Reg :=
  convertLoadTrapsToStoreTraps do
    storeSlowPathOver cfg misalignedEnabled (writePlain cfg bus) addr len [] false true
    let bytes ← loadPlain cfg bus misalignedEnabled addr len
    let lhs := fromBytes bytes
    storePlain cfg bus misalignedEnabled addr len (f lhs)
    pure lhs

/-! ### Related states -/

variable {cfg : Config} {bus : Bus δ} {s t p : Cpu Files ι × World δ}

/-- A state without what the TLB remembers. -/
structure Without (s p : Cpu Files ι × World δ) : Prop where
  world : p.2 = s.2
  cpu : ∃ t, p.1 = { s.1 with rest := { s.1.rest with tlb := t } }

theorem Without.refl (s : Cpu Files ι × World δ) : Without s s :=
  ⟨rfl, s.1.rest.tlb, rfl⟩

theorem Without.hart (h : Without s p) : p.1.hart = s.1.hart := by
  obtain ⟨t, hcpu⟩ := h.cpu
  rw [hcpu]

/-- The state of the unit with a sound TLB, and of the one without. -/
structure Refines (cfg : Config) (bus : Bus δ) (s p : Cpu Files ι × World δ) :
    Prop extends Without s p where
  sound : s.1.rest.tlb.Sound cfg bus s.1.hart s.2

/-- The two ends of a program. -/
inductive Comes (cfg : Config) (bus : Bus δ) {α : Type} :
    EStateM.Result Stop (Cpu Files ι × World δ) α →
    EStateM.Result Stop (Cpu Files ι × World δ) α → Prop
  | ok {s p : Cpu Files ι × World δ} (a : α) (h : Refines cfg bus s p) :
  Comes cfg bus (.ok a s) (.ok a p)
  | error {s p : Cpu Files ι × World δ} (e : Stop) (h : Refines cfg bus s p) :
      Comes cfg bus (.error e s) (.error e p)

/-- What an access may change besides the TLB: page tables go on, and the triggers watch what they
have watched. -/
structure Moves (cfg : Config) (s t : Cpu Files ι × World δ) : Prop where
  hart : ∃ triggers, t.1.hart = { s.1.hart with triggers := triggers }
  unwatched : ∀ operation, s.1.hart.triggers.Unwatched operation →
    t.1.hart.triggers.Unwatched operation
  ptLe : PtLe (s.1.hart.regime cfg).pteSize s.2 t.2

theorem Moves.later (h : Moves cfg s t) : Hart.Later cfg s.1.hart s.2 t.1.hart t.2 := by
  obtain ⟨triggers, hhart⟩ := h.hart
  rw [hhart]
  exact ⟨rfl, rfl, rfl, .refl _ _ _, h.ptLe⟩

theorem moves_of_hart (hhart : t.1.hart = s.1.hart)
    (hle : PtLe (s.1.hart.regime cfg).pteSize s.2 t.2) :
    Moves cfg s t where
  hart := ⟨s.1.hart.triggers, hhart⟩
  unwatched := by
    rw [hhart]
    exact fun _ => id
  ptLe := hle

theorem composes_moves (cfg : Config) : Exec.Composes (Moves (δ := δ) (ι := ι) cfg) where
  refl := fun s => moves_of_hart rfl (.refl _ _)
  trans := by
    intro s t u h h'
    obtain ⟨_, hhart⟩ := h.hart
    obtain ⟨triggers, hhart'⟩ := h'.hart
    refine ⟨⟨triggers, by rw [hhart', hhart]⟩,
      fun operation ho => h'.unwatched _ (h.unwatched _ ho), h.ptLe.trans ?_⟩
    have hle := h'.ptLe
    rw [hhart] at hle
    exact hle

/-- The tables of these accesses are settled. -/
def SettledAt (cfg : Config) (bus : Bus δ) (pages : List (AccessType × Reg))
    (s : Cpu Files ι × World δ) : Prop :=
  ∀ page ∈ pages, s.1.hart.Settled cfg bus s.2 page.1 page.2

theorem SettledAt.of_moves {pages : List (AccessType × Reg)} (h : SettledAt cfg bus pages t)
    (hm : Moves cfg s t) :
    SettledAt cfg bus pages s :=
  fun page hpage => hm.later.settled (h page hpage)

/-- A program of the unit with a TLB comes to the same as one of the unit without, where the tables
of the accesses are settled in the end. -/
structure Simulates (cfg : Config) (bus : Bus δ) {α : Type} (pages : List (AccessType × Reg))
    (x y : LoadM δ ι α) :
    Prop where
  moves : Exec.Keeps (Moves cfg) x
  comes : ∀ s p, Refines cfg bus s p → SettledAt cfg bus pages (Exec.final (x s)) →
    Comes cfg bus (x s) (y p)

/-! ### Rules -/

namespace Simulates

variable {α β : Type} {pages : List (AccessType × Reg)} {x y : LoadM δ ι α} {f g : α → LoadM δ ι β}

theorem pure (a : α) : Simulates cfg bus pages (Pure.pure a : LoadM δ ι α) (Pure.pure a) where
  moves := Exec.keeps_pure (composes_moves cfg) a
  comes := fun _ _ h _ => .ok a h

theorem throw (e : Stop) :
    Simulates cfg bus pages (MonadExcept.throw e : LoadM δ ι α) (MonadExcept.throw e) where
  moves := Exec.keeps_throw (composes_moves cfg) e
  comes := fun _ _ h _ => .error e h

/-- Sequences, of which the second parts need to be related for values that come up. -/
theorem bind (hx : Simulates cfg bus pages x y)
    (hf : ∀ a, (∃ s t, x s = .ok a t) → Simulates cfg bus pages (f a) (g a)) :
    Simulates cfg bus pages (x >>= f) (y >>= g) where
  moves := by
    intro s
    refine Exec.final_bind (Moves cfg) (fun _ _ h => h) (fun _ _ _ => (composes_moves cfg).trans)
      (hx.moves s) ?_
    exact fun a t hok => (hf a ⟨s, t, hok⟩).moves t
  comes := by
    intro s p href hsettled
    cases hrun : x s with
    | ok a t =>
      have hsecond := hf a ⟨s, t, hrun⟩
      rw [Exec.bind_of_ok hrun] at hsettled ⊢
      have hfirst := hx.comes s p href
      rw [hrun] at hfirst
      have hend := hfirst (hsettled.of_moves (hsecond.moves t))
      generalize hp : y p = r at hend
      obtain ⟨_, ht⟩ | _ := hend
      rw [Exec.bind_of_ok hp]
      exact hsecond.comes _ _ ht hsettled
    | error e t =>
      rw [Exec.bind_of_error hrun] at hsettled ⊢
      have hend := hx.comes s p href
      rw [hrun] at hend
      have hend := hend hsettled
      generalize hp : y p = r at hend
      obtain _ | ⟨_, ht⟩ := hend
      rw [Exec.bind_of_error hp]
      exact .error e ht

/-- Programs that look at the state but for the TLB. -/
theorem get {f g : Cpu Files ι × World δ → LoadM δ ι α}
    (h : ∀ s p, Without s p → Simulates cfg bus pages (f s) (g p)) :
    Simulates cfg bus pages (MonadState.get >>= f) (MonadState.get >>= g) where
  moves := fun s => (h s s (.refl s)).moves s
  comes := fun s p href hsettled => (h s p href.toWithout).comes s p href hsettled

theorem ite {c : Prop} [Decidable c] {x' y' : LoadM δ ι α} (hx : c → Simulates cfg bus pages x y)
    (hx' : ¬c → Simulates cfg bus pages x' y') : Simulates cfg bus pages (if c then x else x')
    (if c then y else y') := by
  split
  · exact hx ‹c›
  · exact hx' ‹¬c›

theorem mono {pages' : List (AccessType × Reg)} (h : Simulates cfg bus pages x y)
    (hsub : pages ⊆ pages') :
    Simulates cfg bus pages' x y where
  moves := h.moves
  comes := fun s p href hsettled => h.comes s p href fun page hpage => hsettled page (hsub hpage)

end Simulates

end HartMmu

end Nnemu

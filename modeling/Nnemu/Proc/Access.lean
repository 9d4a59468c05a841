import Nnemu.Mmu.Peek
import Nnemu.Proc.Unit

/-!
# The MMU leaves the hart alone

An access translates, refills the TLB, asks devices and checks for triggers. Of the hart it changes
`hit` bits and what devices drive, and what it throws is a trap or, outside debug mode, a match: it
is `Mild`. So is a fetch with its decoding, and every access that a handler makes.

The proof goes through the MMU from the bottom up: translations throw no match, and checks for
triggers, refills and devices change what `Mild` permits. The loops of the walker are covered by
`WalkRel`, with the relation that forgets everything but how a run ends, so that no statement of the
walker is looked at here.
-/

namespace Nnemu

open Bytes Trigger

/-! ### Translations -/

namespace HartMmu

variable {δ ι α β : Type} {cfg : Config} {bus : Bus δ} {addr paddr : Reg} {len : Nat}

/-- Programs that throw no match. The second program of the relator plays no part. -/
def unmatchedRelator (σ : Type) : Relator (Exec Stop σ) (Exec Stop σ) where
  rel := fun V x _ => ∀ s, (∀ a t, x s = .ok a t → ∃ b, V a b) ∧
    ∀ e t, x s = .error e t → e.Unmatched
  rel_pure := by
    intro α β V a b hV s
    refine ⟨fun a' t h => ?_, fun e t h => by cases h⟩
    cases h
    exact ⟨b, hV⟩
  rel_bind := by
    intro α β γ κ V W x y f g hx hf s
    refine ⟨fun c t h => ?_, fun e t h => ?_⟩
    · obtain ⟨a, u, hok, h⟩ := Exec.bind_eq_ok_iff.1 h
      obtain ⟨b, hV⟩ := (hx s).1 a u hok
      exact (hf a b hV u).1 c t h
    · obtain h | ⟨a, u, hok, h⟩ := Exec.bind_eq_error_iff.1 h
      · exact (hx s).2 e t h
      · obtain ⟨b, hV⟩ := (hx s).1 a u hok
        exact (hf a b hV u).2 e t h

/-- Neither do loads and stores of page-table entries. -/
theorem unmatched_busMem (bus : Bus δ) (r : Regime) :
    PteMem.Alike (unmatchedRelator (World δ)) (busMem bus r) (busMem bus r) where
  load _ _ _ _ _ _ := by
    refine ⟨fun a _ _ => ⟨a, rfl⟩, fun e t h => ?_⟩
    rw [(pteLoad_error h).1]
    trivial
  store _ _ _ _ _ _ _ := by
    refine ⟨fun a _ _ => ⟨a, rfl⟩, fun e t h => ?_⟩
    rw [pteStore_error h]
    trivial
  stop he _ := by
    refine ⟨fun _ _ h => (by cases h), fun e' t h => ?_⟩
    cases h
    exact he

/-- **Translations throw no match.** -/
theorem translate_unmatched {r : Regime} {s : Privilege} {type : AccessType} {flags : XlateFlags}
    {w w' : World δ} {e : Stop}
    (h : translate (busMem bus r) r s addr len type flags w = .error e w') : e.Unmatched :=
  ((unmatched_busMem bus r).translate s addr len type flags w).2 e w' h

/-! ### Programs of the MMU -/

/-- What a program may throw that has done nothing yet. -/
def Allows {τ : Type} (c : Cpu τ ι) : Stop → Prop
  | .matched _ _ _ => c.hart.debugMode = false
  | _ => True

theorem Allows.of_unmatched {τ : Type} (c : Cpu τ ι) {e : Stop} (h : e.Unmatched) : Allows c e := by
  cases e with
  | matched operation address action => exact h.elim
  | _ => trivial

/-- A program over states that have a processor. -/
abbrev Quietly {σ τ : Type} (cpu : σ → Cpu τ ι) (x : Exec Stop σ α) : Prop :=
  Exec.Confined (fun s t => (cpu s).Still (cpu t)) (fun s e => Allows (cpu s) e) x

namespace Quietly

variable {σ τ : Type} {cpu : σ → Cpu τ ι} {x : Exec Stop σ α} {f : α → Exec Stop σ β}

theorem composes (cpu : σ → Cpu τ ι) : Exec.Composes fun s t : σ => (cpu s).Still (cpu t) :=
  ⟨fun _ => .refl _, .trans⟩

theorem pure (a : α) : Quietly cpu (Pure.pure a : Exec Stop σ α) :=
  Exec.Confined.pure (composes cpu) a

theorem get : Quietly cpu (MonadState.get : Exec Stop σ σ) :=
  Exec.Confined.get (composes cpu)

theorem trap (t : Trap) : Quietly cpu (throw (.trap t) : Exec Stop σ α) :=
  Exec.Confined.throw (composes cpu) fun _ => trivial

theorem bind (hx : Quietly cpu x) (hf : ∀ a, Quietly cpu (f a)) : Quietly cpu (x >>= f) := by
  refine Exec.Confined.bind (composes cpu) (fun {s t e} hst h => ?_) hx hf
  cases e with
  | matched operation address action => exact hst.hart.debugMode.symm.trans h
  | _ => trivial

theorem ite {p : Prop} [Decidable p] {x y : Exec Stop σ α} (hx : Quietly cpu x)
    (hy : Quietly cpu y) : Quietly cpu (if p then x else y) :=
  Exec.Confined.ite hx hy

/-- A statement with a condition. -/
theorem when {p : Prop} [Decidable p] {x : Exec Stop σ PUnit} {f : PUnit → Exec Stop σ β}
    (hx : Quietly cpu x) (hf : ∀ u, Quietly cpu (f u)) :
    Quietly cpu (if p then x >>= f else f PUnit.unit) :=
  ite (hx.bind hf) (hf PUnit.unit)

end Quietly

/-- Programs of the MMU that leave the hart alone. -/
abbrev Mild (x : LoadM δ ι α) : Prop :=
  Quietly (fun s : Cpu Files ι × World δ => s.1) x

/-- A program that keeps the processor. -/
theorem mild_of_same {x : LoadM δ ι α} (hsame : ∀ s, (Exec.final (x s)).1 = s.1)
    (herror : ∀ {s e t}, x s = .error e t → e.Unmatched) : Mild x where
  keeps s := by
    show s.1.Still (Exec.final (x s)).1
    rw [hsame]
    exact .refl _
  error h := .of_unmatched _ (herror h)

theorem mild_translateIn (type : AccessType) :
    Mild (translateIn (ι := ι) cfg bus addr len type) := by
  refine mild_of_same (fun s => ?_) fun {s e t} h => ?_
  · rw [translateIn]
    cases translateData cfg bus s.1 addr len type s.2 <;> rfl
  · rw [translateIn] at h
    cases htranslate : translateData cfg bus s.1 addr len type s.2 with
    | ok paddr w =>
      rw [htranslate] at h
      cases h
    | error e' w =>
      rw [htranslate] at h
      cases h
      exact translate_unmatched htranslate

/-- The check for triggers in front of a data access sets `hit` bits and may throw a match. -/
theorem mild_checkData (operation : Operation) (data : Option Reg) :
    Mild (checkData (δ := δ) (ι := ι) cfg operation addr data) := by
  have mild : Nnemu.Mild (checkTriggers cfg operation addr data : CpuM Files ι Unit) :=
    .checkTriggers cfg operation addr data
  constructor
  · intro s
    show s.1.Still (Exec.final (checkData cfg operation addr data s)).1
    have still := mild.keeps s.1
    rw [checkData]
    cases hcheck : checkTriggers cfg operation addr data s.1 with
    | ok a c =>
      rw [hcheck] at still
      exact still
    | error e c =>
      rw [hcheck] at still
      cases e <;> exact still
  · intro s e t h
    rw [checkData] at h
    cases hcheck : checkTriggers cfg operation addr data s.1 with
    | ok a c =>
      rw [hcheck] at h
      cases h
    | error e' c =>
      rw [hcheck] at h
      cases e' with
      | matched m =>
        cases h
        obtain ⟨t, ht⟩ | ⟨m', -, hd⟩ := mild.error hcheck
        · cases ht
        · exact hd
      | _ =>
        cases h
        trivial

/-- A step of the TLB. -/
theorem still_withTlb (c : Cpu Files ι) (t : Tlb) :
    c.Still { c with rest := { c.rest with tlb := t } } :=
  ⟨⟨⟨.refl c.hart, rfl⟩, rfl, rfl, rfl, rfl⟩, .refl c⟩

/-- A refill changes the TLB, or is where `pmp_homogeneous` calls `abort()`. -/
theorem mild_refill {x : LoadM δ ι Unit} (type : AccessType)
    (hx : ∀ s, x s = match s.1.rest.tlb.refill cfg s.1.hart addr paddr type with
      | some t => .ok () ({ s.1 with rest := { s.1.rest with tlb := t } }, s.2)
      | none => .error .abort s) : Mild x := by
  constructor
  · intro s
    show s.1.Still (Exec.final (x s)).1
    rw [hx]
    cases s.1.rest.tlb.refill cfg s.1.hart addr paddr type with
    | some t => exact still_withTlb s.1 t
    | none => exact .refl s.1
  · intro s e t h
    rw [hx] at h
    split at h
    · cases h
    · cases h
      trivial

/-- Devices answer, and may drive the hart when they do. -/
theorem mild_deviceLoad : Mild (deviceLoad (ι := ι) bus addr paddr len) := by
  refine mild_of_same (fun s => ?_) fun {s e t} h => ?_
  · rw [deviceLoad]
    split <;> rfl
  · rw [deviceLoad] at h
    split at h
    · cases h
    · cases h
      trivial

theorem mild_deviceFetch : Mild (deviceFetch (ι := ι) bus addr paddr) := by
  refine mild_of_same (fun s => ?_) fun {s e t} h => ?_
  · rw [deviceFetch]
    split
    · split <;> rfl
    · rfl
  · rw [deviceFetch] at h
    split at h
    · split at h
      · cases h
      · cases h
        trivial
    · cases h
      trivial

theorem mild_deviceStore (bytes : List (BitVec 8)) :
    Mild (deviceStore (ι := ι) bus addr paddr bytes) := by
  refine mild_of_same (fun s => ?_) fun {s e t} h => ?_
  · rw [deviceStore]
    split <;> rfl
  · rw [deviceStore] at h
    split at h
    · cases h
    · cases h
      trivial

theorem mild_writeRam (bytes : List (BitVec 8)) : Mild (writeRam (δ := δ) (ι := ι) paddr bytes) :=
  mild_of_same (fun _ => rfl) fun h => by cases h

/-! ### Loads and fetches -/

theorem mild_fetch : Mild (fetch (ι := ι) cfg bus addr) := by
  refine .bind .get fun s => .ite (.pure _) ?_
  refine .bind (mild_checkData .execute none) fun _ => .bind ?_ fun bytes =>
    .bind (mild_checkData .execute _) fun _ => .pure bytes
  refine .bind .get fun s => .ite (.pure _) (.bind (mild_translateIn .fetch) fun paddr => ?_)
  refine .ite (.bind .get fun s => .bind (mild_refill .fetch fun _ => rfl) fun _ => .pure _) ?_
  exact mild_deviceFetch

theorem mild_loadSlowPathIntrapage : Mild (loadSlowPathIntrapage (ι := ι) cfg bus addr len) := by
  refine .bind .get fun s => .ite (.pure _) (.bind (mild_translateIn .load) fun paddr => ?_)
  refine .ite (.bind .get fun s => .bind (mild_refill .load fun _ => rfl) fun _ => .pure _) ?_
  exact mild_deviceLoad

theorem mild_inParts {part : Reg → Nat → LoadM δ ι (List (BitVec 8))}
    (hpart : ∀ addr len, Mild (part addr len)) : Mild (inParts part addr len) :=
  .bind (hpart _ _) fun bytes => .ite (.bind (hpart _ _) fun _ => .pure _) (.pure bytes)

/-- Loads at any address, in one part or in two. -/
theorem mild_loadAny {misaligned : Bool} : Mild (loadAny (ι := ι) cfg bus misaligned addr len) := by
  -- the check behind the load
  have checked (bytes : List (BitVec 8)) : Mild
      (checkLoad (δ := δ) (ι := ι) cfg addr (some (fromBytes bytes)) >>= fun _ => pure bytes) :=
    .bind (mild_checkData .load _) fun _ => .pure bytes
  refine .bind .get fun s => .ite (.pure _) (.bind (mild_checkData .load none) fun _ => ?_)
  refine .ite (.bind mild_loadSlowPathIntrapage checked) (.bind .get fun s => ?_)
  exact .when (.trap _) fun _ => .bind (mild_inParts fun _ _ => mild_loadSlowPathIntrapage) checked

/-! ### Stores -/

theorem mild_storeSlowPathIntrapage (bytes : List (BitVec 8)) (actuallyStore : Bool) :
    Mild (storeSlowPathIntrapage (ι := ι) cfg bus addr len bytes actuallyStore) := by
  refine .bind .get fun s => .ite (.ite (mild_writeRam bytes) (.pure _)) ?_
  refine .bind (mild_translateIn .store) fun paddr => .ite (.ite ?_ ?_) (.pure _)
  · exact .bind (mild_writeRam bytes) fun _ => mild_refill .store fun _ => rfl
  · exact mild_deviceStore bytes

theorem mild_storeSlowPath {misaligned : Bool} (bytes : List (BitVec 8))
    (actuallyStore requireAlignment : Bool) :
    Mild (storeSlowPath (ι := ι) cfg bus misaligned addr len bytes actuallyStore
      requireAlignment) := by
  refine .when (mild_checkData .store _) fun _ => .ite ?_
    (mild_storeSlowPathIntrapage bytes actuallyStore)
  refine .bind .get fun s => .when (.trap _) fun _ => .when (.trap _) fun _ => ?_
  exact .bind (mild_storeSlowPathIntrapage _ _) fun _ =>
    .ite (mild_storeSlowPathIntrapage _ _) (.pure _)

/-- Stores, with or without effect. -/
theorem mild_store {misaligned : Bool} (val : Reg) :
    Mild (store (ι := ι) cfg bus misaligned addr len val) :=
  .bind .get fun _ => .ite (mild_writeRam _) (mild_storeSlowPath _ true false)

/-! ### The reservation -/

/-- Programs with a reservation that leave the hart alone. -/
abbrev MildReserve (x : ReserveM δ ι α) : Prop :=
  Quietly (fun s : Reserving δ ι => s.hart.1) x

theorem mild_aside {x : LoadM δ ι α} (hx : Mild x) : MildReserve (aside x) := by
  constructor
  · intro s
    show s.hart.1.Still (Exec.final (aside x s)).hart.1
    have still := hx.keeps s.hart
    rw [aside]
    cases hrun : x s.hart <;>
      · rw [hrun] at still
        exact still
  · intro s e t h
    rw [aside] at h
    cases hrun : x s.hart with
    | ok a hart =>
      rw [hrun] at h
      cases h
    | error e' hart =>
      rw [hrun] at h
      cases h
      exact hx.error hrun

theorem mild_reserve : MildReserve (reserve (δ := δ) (ι := ι) paddr) :=
  Exec.Confined.modify fun s => .refl s.hart.1

theorem mild_loadReserved {misaligned : Bool} {size : LrSize} :
    MildReserve (loadReserved (ι := ι) cfg bus misaligned addr size) := by
  refine .bind (mild_aside (mild_checkData .load none)) fun _ => .bind .get fun s => .ite ?_ ?_
  · refine .bind (mild_aside (mild_translateIn .load)) fun paddr => .when (.trap _) fun _ => ?_
    refine .bind mild_reserve fun _ => .bind .get fun s => ?_
    exact .bind (mild_aside (mild_checkData .load _)) fun _ => .pure _
  · exact .when (.trap _) fun _ => .trap _

theorem mild_checkLoadReservation {misaligned : Bool} {size : LrSize} :
    MildReserve (checkLoadReservation (ι := ι) cfg bus misaligned addr size) := by
  rw [checkLoadReservation]
  refine .when (mild_aside (mild_storeSlowPath [] false true)) fun _ => ?_
  refine .bind (mild_aside (mild_translateIn .store)) fun paddr => .bind .get fun s => ?_
  exact .when (.trap _) fun _ => .pure _

end HartMmu

/-! ### Signals -/

namespace Hart

/-- Devices change nothing that programs see behind their backs. -/
theorem Quiet.signal (h : Hart) (signal : Signal) : Quiet h (h.signal signal) := by
  cases signal with
  | time mtime =>
    have frame := regFrame_timeSync mtime (h := h)
    have same : (h.timeSync mtime).pc = h.pc ∧ (h.timeSync mtime).prv = h.prv ∧
        (h.timeSync mtime).v = h.v ∧ (h.timeSync mtime).dcsr = h.dcsr ∧
        (h.timeSync mtime).debugMode = h.debugMode := by
      rw [timeSync]
      dsimp only
      split <;> exact ⟨rfl, rfl, rfl, rfl, rfl⟩
    obtain ⟨hpc, hprv, hv, hdcsr, hdebug⟩ := same
    refine ⟨hpc, hprv, hv, hdcsr, frame.extTable, hdebug, fun c hc => frame.reg c ?_, ?_⟩
    · cases c <;> first | rfl | exact absurd hc Bool.noConfusion
    · show (h.timeSync mtime).triggers.countdown ≤ _
      rw [triggers_timeSync]
  | pin p level =>
    refine ⟨rfl, rfl, rfl, rfl, rfl, rfl, fun c hc => ?_, Nat.le_refl _⟩
    have hne : c ≠ .mip := by
      rintro rfl
      cases hc
    rw [Hart.signal, writeWithMask, reg_set, if_neg hne]

end Hart

namespace Cpu

variable {σ τ ι : Type} {c : Cpu σ ι}

theorem Still.signal (c : Cpu σ ι) (signal : Signal) : c.Still (c.withHart (·.signal signal)) := by
  refine .withHart (.signal _ signal) ?_ ?_
  · cases signal with
    | time mtime => rw [Hart.signal, Hart.triggers_timeSync]
    | pin p level => rfl
  · cases signal with
    | time mtime => exact (Hart.regFrame_timeSync mtime).reg .minstret rfl
    | pin p level => rfl

theorem Still.signals (c : Cpu σ ι) (signals : List Signal) :
    c.Still (signals.foldl (fun c signal => c.withHart (·.signal signal)) c) := by
  induction signals generalizing c with
  | nil => exact .refl c
  | cons signal signals ih => exact (Still.signal c signal).trans (ih _)

/-- The rest of a processor plays no part. -/
theorem Still.withRest {c' : Cpu τ ι} {s : τ} (h : (c.withRest s).Still c') (t : σ) :
    c.Still (c'.withRest t) :=
  ⟨⟨⟨h.hart, h.serialized⟩, h.triggers, h.minstret, h.checkTriggersIcount, h.ledger⟩, h.forgets⟩

end Cpu

/-! ### Accesses of a processor -/

namespace Setup

variable {δ α : Type} {p : Setup δ}

theorem still_settle {c : HartCpu δ} {s : Reserving δ InsnFetch}
    (h : (reserving c).hart.1.Still s.hart.1) : c.Still (p.settle c s) := by
  have hrest : c.Still (s.hart.1.withRest
      { c.rest with
        tlb := s.hart.1.rest.tlb
        flushes := c.hart.tlbFlushes
        world := s.hart.2
        reservation := s.reservation }) := Cpu.Still.withRest h _
  exact hrest.trans (Cpu.Still.signals _ _)

/-- **Accesses are mild.** -/
theorem mild_access {x : ReserveM δ InsnFetch α} (hx : HartMmu.MildReserve x) :
    Mild (p.access x) := by
  constructor
  · intro c
    have still := hx.keeps (reserving c)
    rw [access]
    cases hrun : x (reserving c) with
    | ok a s =>
      rw [hrun] at still
      exact still_settle still
    | error e s =>
      rw [hrun] at still
      cases e with
      | abort => exact (still_settle still).trans (.abort _)
      | _ => exact still_settle still
  · intro c e c' h
    rw [access] at h
    cases hrun : x (reserving c) with
    | ok a s =>
      rw [hrun] at h
      cases h
    | error stop s =>
      rw [hrun] at h
      cases stop with
      | trap t =>
        cases h
        exact .inl ⟨t, rfl⟩
      | matched operation address action =>
        cases h
        exact .inr ⟨_, rfl, hx.error hrun⟩
      | abort =>
        cases h
        exact .inl ⟨_, rfl⟩

/-- An MMU of which every program is mild. -/
structure MildMmu {ω ι : Type} (mmu : Mmu ω ι) : Prop where
  load : ∀ n addr, Mild (mmu.load n addr)
  store : ∀ n addr val, Mild (mmu.store n addr val)
  checkStore : ∀ n addr, Mild (mmu.checkStore n addr)
  loadReserved : ∀ n addr, Mild (mmu.loadReserved n addr)
  checkLoadReservation : ∀ n addr, Mild (mmu.checkLoadReservation n addr)
  yieldLoadReservation : Mild mmu.yieldLoadReservation

/-- **The MMU of the processor is mild.** -/
theorem mild_mmu (p : Setup δ) : MildMmu p.mmu where
  load _ _ := .bind (mild_access (HartMmu.mild_aside HartMmu.mild_loadAny)) fun _ => .pure _
  store _ _ _ := mild_access (HartMmu.mild_aside (HartMmu.mild_store _))
  checkStore _ _ := mild_access (HartMmu.mild_aside (HartMmu.mild_storeSlowPath _ _ _))
  loadReserved _ _ := .bind (mild_access HartMmu.mild_loadReserved) fun _ => .pure _
  checkLoadReservation _ _ := .bind (mild_access HartMmu.mild_checkLoadReservation) fun _ => .pure _
  yieldLoadReservation :=
    .modify fun c => ⟨⟨⟨.refl c.hart, rfl⟩, rfl, rfl, rfl, rfl⟩, .refl c⟩

/-! ### Fetches -/

theorem mild_parcel (addr : Reg) : HartMmu.MildReserve (p.parcel addr) :=
  .bind (HartMmu.mild_aside HartMmu.mild_fetch) fun _ => .pure _

theorem mild_insnBits (addr : Reg) : HartMmu.MildReserve (p.insnBits addr) := by
  refine .bind (mild_parcel addr) fun insn => .ite ?_ (.ite (.pure _) (.ite ?_ ?_))
  · exact .bind (mild_parcel _) fun _ => .pure _
  · exact .bind (mild_parcel _) fun _ => .bind (mild_parcel _) fun _ => .pure _
  · exact .bind (mild_parcel _) fun _ => .bind (mild_parcel _) fun _ =>
      .bind (mild_parcel _) fun _ => .pure _

theorem mild_decode (bits : Reg) : Mild (p.decode bits) := by
  constructor
  · intro c
    rw [decode]
    split
    · exact ⟨⟨⟨.refl c.hart, rfl⟩, rfl, rfl, rfl, rfl⟩, .refl c⟩
    · exact .abort c
  · intro c e c' h
    rw [decode] at h
    split at h
    · cases h
    · cases h
      exact .inl ⟨_, rfl⟩

/-- **Fetches are mild.** -/
theorem mild_fetch (addr : Reg) : Mild (p.fetch addr) :=
  .bind (mild_access (mild_insnBits addr)) fun bits => mild_decode bits

end Setup

end Nnemu

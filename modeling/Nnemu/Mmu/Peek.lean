import Nnemu.Lib.Relator
import Nnemu.Mmu.Load

/-!
# Loads that leave no trace

`peek` is a load that looks at the machine and never changes it: where `HartMmu.load` would set an A
bit, change a device or the TLB, or find a trigger, it gives up with `disturbed`. So it says of an
address and a state whether a load leaves the state as it is (`load_of_peek`). The walker is one
program text over a `PteMem`; that a peek and the machine walk alike comes from `PteMem.Alike`,
which follows this text once for any two memories that answer alike.

`Tells` says of one statement that the peek has the result of the machine and the machine is where
it was, or that the peek was disturbed. It composes along sequences (`Tells.bind`), so the file goes
through the statements of a load from the bottom up and ends with `tells_peek`.
-/

namespace Nnemu

open Radix Bytes Trigger

/-! ### Two memories that answer alike -/

section

variable {m n : Type → Type} [Monad m] [Monad n]

/-- Two page-table memories of which the operations are related. -/
structure PteMem.Alike (L : Relator m n) (mem : PteMem m) (mem' : PteMem n) : Prop where
  load : ∀ slot addr virt type size, L.rel Eq (mem.load slot addr virt type size)
    (mem'.load slot addr virt type size)
  store : ∀ slot pte addr virt type size,
    L.rel Eq (mem.store slot pte addr virt type size) (mem'.store slot pte addr virt type size)
  stop : ∀ {α : Type} {e : Stop}, e.Unmatched →
    L.rel (Eq : α → α → Prop) (mem.stop α e) (mem'.stop α e)

namespace PteMem.Alike

variable {L : Relator m n} {mem : PteMem m} {mem' : PteMem n} {r : Regime} {vm : VmInfo}
  (h : PteMem.Alike L mem mem')
include h

theorem updateAd (slot pte addr : Reg) (type : AccessType) (virt hade : Bool) :
    L.rel Eq (updateAd mem vm slot pte addr type virt hade)
    (updateAd mem' vm slot pte addr type virt hade) := by
  simp only [Nnemu.updateAd]
  split
  · split
    · exact L.eq_bind (h.store _ _ _ _ _ _) fun _ => L.eq_pure true
    · exact L.eq_pure false
  · exact L.eq_pure true

theorem finishLeaf (slot pte vpn addr : Reg) (type : AccessType) (virt hade : Bool) (i : Nat) :
    L.rel Eq (finishLeaf mem vm slot pte vpn addr type virt hade i)
      (finishLeaf mem' vm slot pte vpn addr type virt hade i) := by
  refine L.eq_bind (h.updateAd slot pte addr type virt hade) fun granted => ?_
  cases granted with
  | false => exact L.eq_pure none
  | true =>
    simp only [if_true]
    split
    · exact L.eq_pure none
    · exact L.eq_pure _

theorem s2Visit (gva gpa : Reg) (type trapType : AccessType) (hlvx : Bool) (i : Nat) (base : Reg) :
    L.rel Eq (s2Visit mem r vm gva gpa type trapType hlvx i base)
    (s2Visit mem' r vm gva gpa type trapType hlvx i base) := by
  refine L.eq_bind (h.load _ _ _ _ _) fun pte => ?_
  dsimp only
  split
  · exact L.eq_pure _
  · exact L.eq_pure _
  · exact L.eq_bind (h.finishLeaf _ _ _ _ _ _ _ _) fun page => L.eq_pure _

theorem s2xlate (gva gpa : Reg) (type trapType : AccessType) (virt hlvx : Bool) :
    L.rel Eq (s2xlate mem r gva gpa type trapType virt hlvx)
    (s2xlate mem' r gva gpa type trapType virt hlvx) := by
  rw [Nnemu.s2xlate, Nnemu.s2xlate]
  split
  · exact L.eq_pure gpa
  split
  · exact h.stop trivial
  split
  · exact L.eq_pure gpa
  refine L.eq_bind ?_ fun found => ?_
  · rw [s2Find, s2Find]
    split
    · exact L.eq_descend (fun i base => h.s2Visit gva gpa type trapType hlvx i base) _ _
    · exact L.eq_pure none
  · cases found with
    | none => exact h.stop trivial
    | some paddr => exact L.eq_pure paddr

theorem s1Visit (addr : Reg) (type : AccessType) (mode : Reg) (virt hlvx : Bool)
    (i : Nat) (base : Reg) :
    L.rel Eq (s1Visit mem r vm addr type mode virt hlvx i base)
    (s1Visit mem' r vm addr type mode virt hlvx i base) := by
  refine L.eq_bind (h.s2xlate _ _ _ _ _ _) fun slot => L.eq_bind (h.load _ _ _ _ _) fun pte => ?_
  dsimp only
  split
  · exact L.eq_pure _
  · exact L.eq_pure _
  · exact L.eq_bind (h.finishLeaf _ _ _ _ _ _ _ _) fun page => L.eq_pure _

/-- **Walks** in memories that answer alike come to the same. -/
theorem walk (addr : Reg) (type : AccessType) (mode : Reg) (virt hlvx : Bool) :
    L.rel Eq (walk mem r addr type mode virt hlvx) (walk mem' r addr type mode virt hlvx) := by
  rw [Nnemu.walk, Nnemu.walk]
  split
  · exact h.stop trivial
  split
  · exact L.eq_bind (h.s2xlate _ _ _ _ _ _) fun phys => L.eq_pure _
  · refine L.eq_bind (L.eq_descend (fun i base => h.s1Visit addr type mode virt hlvx i base) _ _)
      fun found => ?_
    cases found with
    | none => exact h.stop trivial
    | some page => exact L.eq_bind (h.s2xlate _ _ _ _ _ _) fun phys => L.eq_pure _

/-- **Translations** in memories that answer alike come to the same. -/
theorem translate (s : Privilege) (addr : Reg) (len : Nat) (type : AccessType)
    (flags : XlateFlags) :
    L.rel Eq (translate mem r s addr len type flags) (translate mem' r s addr len type flags) := by
  refine L.eq_bind (h.walk _ _ _ _ _) fun page => ?_
  dsimp only
  split
  · exact h.stop trivial
  · exact L.eq_pure _

end PteMem.Alike

end

/-! ### Peeks -/

/-- Why a peek does not return. -/
inductive PeekStop where
  /-- the load throws, or calls `abort()` -/
  | stop (e : Stop)
  /-- the load changes something -/
  | disturbed
deriving DecidableEq

/-- Programs that look at a state. -/
abbrev Peek (σ : Type) : Type → Type :=
  ReaderT σ (Except PeekStop)

deriving instance DecidableEq for Trigger.Mcontrol, Trigger.Icount, Trigger.TrapCommon,
Trigger.Body, Trigger

namespace HartMmu

variable {δ ι : Type} [DecidableEq δ] (cfg : Config) (bus : Bus δ)

/-- The load of a device that stays as it is. -/
def peekDevice (debugMode : Bool) (dev : δ) (paddr : Reg) (len : Nat) (t : Trap) :
    Except PeekStop (List (BitVec 8)) :=
  let loaded := mmioLoad bus debugMode dev paddr len
  if loaded.2 = dev then loaded.1.elim (.error (.stop (.trap t))) .ok else .error .disturbed

/-- Page-table memory that is not written. -/
def peekMem (r : Regime) : PteMem (Peek (World δ)) where
  load := fun slot addr virt trapType size w =>
    if !r.pmp.pmpOk slot size .load prvS then .error
      (.stop (.trap (accessFault trapType virt addr)))
    else if bus.isMem slot then .ok (w.read slot size)
    else (peekDevice bus r.debugMode w.dev slot size (accessFault trapType virt addr)).map fromBytes
  store := fun slot _ addr virt trapType size _ =>
    if !r.pmp.pmpOk slot size .store prvS then .error
      (.stop (.trap (accessFault trapType virt addr)))
    else .error .disturbed
  stop := fun _ e _ => .error (.stop e)

/-- `check_triggers` that finds none. -/
def peekTriggers (c : Cpu Files ι) (addr : Reg) (data : Option Reg) : Except PeekStop Unit :=
  if c.matchedTrigger.isSome ∨
      c.hart.triggers.detectMemoryAccessMatch (c.hart.matchEnv cfg) .load addr data =
        (c.hart.triggers, none) then .ok ()
  else .error .disturbed

/-- `refill_tlb` that changes nothing. -/
def peekRefill (c : Cpu Files ι) (addr paddr : Reg) : Except PeekStop Unit :=
  let t := c.rest.tlb
  let i := Tlb.index addr
  match t.refill cfg c.hart addr paddr .load with
  | none => .error (.stop .abort)
  | some t' =>
    if t'.insnTag i = t.insnTag i ∧ t'.loadTag i = t.loadTag i ∧ t'.storeTag i = t.storeTag i ∧
      t'.data i = t.data i then .ok ()
    else .error .disturbed

/-- `load_slow_path_intrapage` that changes nothing. -/
def peekIntrapage (c : Cpu Files ι) (w : World δ) (addr : Reg) (len : Nat) :
    Except PeekStop (List (BitVec 8)) :=
  if c.rest.tlb.hitChecked addr then .ok
    (readBytes w.mem (c.rest.tlb.data (Tlb.index addr) + addr) len)
  else do
    let r := c.hart.regime cfg
    let paddr ← translate (peekMem bus r) r (c.hart.privilege cfg) addr len .load {} w
    if bus.isMem paddr then
      peekRefill cfg c addr paddr
      pure (readBytes w.mem paddr len)
    else peekDevice bus c.hart.debugMode w.dev paddr len (accessFault .load c.hart.v addr)

/-- `mmu_t::load` that changes nothing. -/
def peek (c : Cpu Files ι) (w : World δ) (addr : Reg) (len : Nat) :
    Except PeekStop (List (BitVec 8)) :=
  if c.rest.tlb.hit addr then .ok (readBytes w.mem (c.rest.tlb.data (Tlb.index addr) + addr) len)
  else do
    peekTriggers cfg c addr none
    let bytes ← peekIntrapage cfg bus c w addr len
    peekTriggers cfg c addr (some (fromBytes bytes))
    pure bytes

end HartMmu

/-! ### What a peek says about the machine -/

section

variable {ε σ α β : Type} {s : σ}

/-- A program does what a peek says, and leaves the state as it is. -/
structure Tells (x : Except PeekStop α) (y : Exec Stop σ α) (s : σ) : Prop where
  ok : ∀ a, x = .ok a → y s = .ok a s
  stop : ∀ e, x = .error (.stop e) → y s = .error e s

/-- A peek that gives up says nothing. -/
theorem Tells.disturbed (y : Exec Stop σ α) : Tells (.error .disturbed) y s := by
  constructor
  · intro a h
    cases h
  · intro e h
    cases h

/-- A peek that throws. -/
theorem Tells.error {y : Exec Stop σ α} {e : Stop} (h : y s = .error e s) :
    Tells (.error (.stop e)) y s := by
  constructor
  · intro a h'
    cases h'
  · intro e' h'
    cases h'
    exact h

/-- A peek that returns. -/
theorem Tells.value {y : Exec Stop σ α} {a : α} (h : y s = .ok a s) : Tells (.ok a) y s := by
  constructor
  · intro b h'
    cases h'
    exact h
  · intro e h'
    cases h'

/-- Sequences. -/
theorem Tells.bind {x : Except PeekStop α} {y : Exec Stop σ α} {f : α → Except PeekStop β}
    {g : α → Exec Stop σ β}
    (hx : Tells x y s) (hf : ∀ a, x = .ok a → Tells (f a) (g a) s) :
    Tells (x >>= f) (y >>= g) s := by
  cases hxa : x with
  | ok a =>
    have hy := hx.ok a hxa
    refine ⟨fun b hb => ?_, fun e he => ?_⟩
    · rw [Exec.bind_of_ok hy]
      exact (hf a hxa).ok b hb
    · rw [Exec.bind_of_ok hy]
      exact (hf a hxa).stop e he
  | error stop =>
    cases stop with
    | disturbed => exact Tells.disturbed _
    | stop e => exact Tells.error (Exec.bind_of_error (hx.stop e hxa))

/-- A program that reads the state. -/
theorem Tells.get {x : Except PeekStop α} {f : σ → Exec Stop σ α} (h : Tells x (f s) s) :
    Tells x (MonadState.get >>= f) s :=
  ⟨h.ok, h.stop⟩

/-- A peek at a state, and the machine. -/
def peekRelator (σ : Type) : Relator (Peek σ) (Exec Stop σ) where
  rel := fun V x y => ∀ w, (∀ a, x w = .ok a → ∃ b, y w = .ok b w ∧ V a b) ∧
    ∀ e, x w = .error (.stop e) → y w = .error e w
  rel_pure := by
    rintro α β V a b hV w
    refine ⟨fun _ h => ?_, fun _ h => by cases h⟩
    cases h
    exact ⟨b, rfl, hV⟩
  rel_bind := by
    intro α β γ κ V W x y f g hx hf w
    change (∀ a, (x w).bind (fun a => f a w) = .ok a → _) ∧ ∀ e,
    (x w).bind (fun a => f a w) = .error (.stop e) → _
    cases hxa : x w with
    | error stop =>
      refine ⟨fun a h => (by cases h), fun e h => ?_⟩
      cases h
      exact Exec.bind_of_error ((hx w).2 e hxa)
    | ok a =>
      obtain ⟨b, hy, hV⟩ := (hx w).1 a hxa
      refine ⟨fun c h => ?_, fun e h => ?_⟩
      · obtain ⟨d, hd, hW⟩ := (hf a b hV w).1 c h
        exact ⟨d, by rw [Exec.bind_of_ok hy, hd], hW⟩
      · rw [Exec.bind_of_ok hy]
        exact (hf a b hV w).2 e h

theorem rel_of_tells {x : Peek σ α} {y : Exec Stop σ α} (h : ∀ s, Tells (x s) y s) :
    (peekRelator σ).rel Eq x y :=
  fun s => ⟨fun a ha => ⟨a, (h s).ok a ha, rfl⟩, (h s).stop⟩

theorem tells_of_rel {x : Peek σ α} {y : Exec Stop σ α} (h : (peekRelator σ).rel Eq x y) (s : σ) :
    Tells (x s) y s := by
  refine ⟨fun a ha => ?_, (h s).2⟩
  obtain ⟨b, hb, rfl⟩ := (h s).1 a ha
  exact hb

end

/-! ### What stays as it is -/

/-- A step of the hart that changes nothing. -/
theorem Cpu.withHart_eq_self {σ ι : Type} {c : Cpu σ ι} {f : Hart → Hart} (hf : f c.hart = c.hart) :
    c.withHart f = c := by
  rw [Cpu.withHart, hf, if_pos rfl]

namespace Tlb

variable {cfg : Config} {t t' : Tlb} {addr paddr : Reg} {type : AccessType}

/-- A TLB is filled in or kept. -/
theorem refill_cases {h : Hart} (hrefill : t.refill cfg h addr paddr type = some t') :
    t' = t ∨ ∃ homogeneous, t' = t.fill addr paddr type homogeneous := by
  rw [refill] at hrefill
  split at hrefill
  · exact Or.inl (Option.some.inj hrefill).symm
  · obtain ⟨homogeneous, -, hfill⟩ := Option.map_eq_some_iff.1 hrefill
    exact Or.inr ⟨homogeneous, hfill.symm⟩

/-- A TLB that is filled in changes at one index. -/
theorem fill_eq_self {homogeneous : Bool} (i : Nat) (hi : i = index addr)
    (hsame : (t.fill addr paddr type homogeneous).insnTag i = t.insnTag i ∧
      (t.fill addr paddr type homogeneous).loadTag i = t.loadTag i ∧
      (t.fill addr paddr type homogeneous).storeTag i = t.storeTag i ∧
      (t.fill addr paddr type homogeneous).data i = t.data i) :
      t.fill addr paddr type homogeneous = t := by
  subst hi
  obtain ⟨hinsn, hload, hstore, hdata⟩ := hsame
  simp only [fill, Function.update_self] at hinsn hload hstore hdata
  simp only [fill, hinsn, hload, hstore, hdata, Function.update_eq_self]

end Tlb

namespace HartMmu

variable {δ ι : Type} [DecidableEq δ] {cfg : Config} {bus : Bus δ} {r : Regime}
  {c : Cpu Files ι} {w : World δ} {addr paddr : Reg}
  {len : Nat}

/-- The device's answer, when it stays as it is. -/
theorem peekDevice_cases {debugMode : Bool} {dev : δ} {t : Trap}
    {res : Except PeekStop (List (BitVec 8))}
    (h : peekDevice bus debugMode dev paddr len t = res) :
    (∃ bytes, mmioLoad bus debugMode dev paddr len = (some bytes, dev) ∧ res = .ok bytes) ∨
    (mmioLoad bus debugMode dev paddr len = (none, dev) ∧ res = .error (.stop (.trap t))) ∨
    res = .error .disturbed := by
  simp only [peekDevice] at h
  split at h
  · rename_i hdev
    cases hload : mmioLoad bus debugMode dev paddr len with
    | mk loaded dev' =>
      rw [hload] at h hdev
      obtain rfl : dev' = dev := hdev
      cases loaded with
      | none => exact Or.inr (Or.inl ⟨rfl, h.symm⟩)
      | some bytes => exact Or.inl ⟨bytes, rfl, h.symm⟩
  · exact Or.inr (Or.inr h.symm)

/-- A peek at a device tells what its load does. -/
theorem tells_peekDevice {α β : Type} {debugMode : Bool} {dev : δ} {t : Trap}
    {f : List (BitVec 8) → β} {s : α}
    {y : Exec Stop α β}
    (hok : ∀ bytes, mmioLoad bus debugMode dev paddr len = (some bytes, dev) →
      y s = .ok (f bytes) s)
    (hnone : mmioLoad bus debugMode dev paddr len = (none, dev) → y s = .error (.trap t) s) :
    Tells ((peekDevice bus debugMode dev paddr len t).map f) y s := by
  obtain ⟨bytes, hload, hres⟩ | ⟨hload, hres⟩ | hres :=
    peekDevice_cases (rfl : peekDevice bus debugMode dev paddr len t = _)
  · rw [hres]
    exact Tells.value (hok bytes hload)
  · rw [hres]
    exact Tells.error (hnone hload)
  · rw [hres]
    exact Tells.disturbed y

/-- The page-table memory of a peek answers as that of the machine. -/
theorem peekMem_alike (bus : Bus δ) (r : Regime) :
    PteMem.Alike (peekRelator (World δ)) (peekMem bus r) (busMem bus r) where
  load := by
    refine fun slot addr virt trapType size => rel_of_tells fun w => ?_
    simp only [peekMem, busMem]
    by_cases hpmp : r.pmp.pmpOk slot size .load prvS = true
    · by_cases hmem : bus.isMem slot = true
      · rw [hpmp, if_neg (by decide), if_pos hmem]
        refine Tells.value ?_
        rw [pteLoad, hpmp, if_neg (by decide), if_pos hmem]
      · rw [hpmp, if_neg (by decide), if_neg hmem]
        refine tells_peekDevice (fun bytes hload => ?_) fun hload => ?_
        · rw [pteLoad, hpmp, if_neg (by decide), if_neg hmem]
          simp only [hload]
        · rw [pteLoad, hpmp, if_neg (by decide), if_neg hmem]
          simp only [hload]
    · rw [Bool.eq_false_iff.2 hpmp, if_pos (by decide)]
      refine Tells.error ?_
      rw [pteLoad, Bool.eq_false_iff.2 hpmp, if_pos (by decide)]
  store := by
    refine fun slot pte addr virt trapType size => rel_of_tells fun w => ?_
    simp only [peekMem, busMem]
    by_cases hpmp : r.pmp.pmpOk slot size .store prvS = true
    · rw [hpmp, if_neg (by decide)]
      exact Tells.disturbed _
    · rw [Bool.eq_false_iff.2 hpmp, if_pos (by decide)]
      refine Tells.error ?_
      rw [pteStore, Bool.eq_false_iff.2 hpmp, if_pos (by decide)]
  stop := fun _ => rel_of_tells fun _ => Tells.error rfl

omit [DecidableEq δ] in
/-- Triggers that do not match. -/
theorem tells_peekTriggers (data : Option Reg) :
    Tells (peekTriggers cfg c addr data) (checkLoad cfg addr data) (c, w) := by
  rw [peekTriggers]
  split
  · rename_i h
    refine Tells.value ?_
    have hcheck : checkTriggers cfg .load addr data c = .ok () c := by
      rw [checkTriggers]
      by_cases hm : c.matchedTrigger.isSome = true
      · rw [if_pos hm]
      · rw [if_neg hm]
        simp only [h.resolve_left hm]
        exact congrArg (EStateM.Result.ok ()) (Cpu.withHart_eq_self rfl)
    rw [checkLoad]
    simp only [hcheck]
  · exact Tells.disturbed _

omit [DecidableEq δ] in
/-- A TLB that stays as it is. -/
theorem tells_peekRefill :
    Tells (peekRefill cfg c addr paddr) (refillLoad cfg addr paddr) (c, w) := by
  simp only [peekRefill]
  cases hrefill : c.rest.tlb.refill cfg c.hart addr paddr .load with
  | none =>
    refine Tells.error ?_
    rw [refillLoad]
    simp only [hrefill]
  | some t' =>
    simp only
    split
    · rename_i hsame
      have ht : t' = c.rest.tlb := by
        obtain heq | ⟨homogeneous, rfl⟩ := Tlb.refill_cases hrefill
        · exact heq
        · exact Tlb.fill_eq_self _ rfl hsame
      refine Tells.value ?_
      rw [refillLoad]
      simp only [hrefill, ht]
    · exact Tells.disturbed _

/-- What a translation tells. -/
theorem tells_translate :
    Tells (translate (peekMem bus (c.hart.regime cfg)) (c.hart.regime cfg)
      (c.hart.privilege cfg) addr len .load {} w)
      (translateLoad cfg bus addr len) (c, w) := by
  have htells :=
    tells_of_rel ((peekMem_alike bus (c.hart.regime cfg)).translate (r := c.hart.regime cfg)
    (c.hart.privilege cfg) addr len .load {}) w
  refine ⟨fun paddr h => ?_, fun e h => ?_⟩
  · rw [translateLoad]
    simp only [htells.ok paddr h]
  · rw [translateLoad]
    simp only [htells.stop e h]

/-- A load of a device tells what it gives, when the device stays as it is. -/
theorem tells_deviceLoad :
    Tells (peekDevice bus c.hart.debugMode w.dev paddr len (accessFault .load c.hart.v addr))
    (deviceLoad bus addr paddr len)
      (c, w) := by
  obtain ⟨bytes, hload, hres⟩ | ⟨hload, hres⟩ | hres :=
    peekDevice_cases
      (rfl : peekDevice bus c.hart.debugMode w.dev paddr len (accessFault .load c.hart.v addr) = _)
  · rw [hres]
    refine Tells.value ?_
    rw [deviceLoad]
    simp only [hload]
  · rw [hres]
    refine Tells.error ?_
    rw [deviceLoad]
    simp only [hload]
  · rw [hres]
    exact Tells.disturbed _

/-- What a load of one page tells. -/
theorem tells_peekIntrapage :
    Tells (peekIntrapage cfg bus c w addr len) (loadSlowPathIntrapage cfg bus addr len) (c, w) := by
  rw [peekIntrapage, loadSlowPathIntrapage]
  refine Tells.get ?_
  dsimp only
  split
  · exact Tells.value rfl
  · refine tells_translate.bind fun paddr _ => ?_
    split
    · exact Tells.get (tells_peekRefill.bind fun _ _ => Tells.value rfl)
    · exact tells_deviceLoad

/-- **A peek tells what a load does**: where it returns or throws, so does the load, and the machine
stays as it is. -/
theorem tells_peek : Tells (peek cfg bus c w addr len) (load cfg bus addr len) (c, w) := by
  rw [peek, load]
  refine Tells.get ?_
  dsimp only
  split
  · exact Tells.value rfl
  · rw [loadSlowPath]
    exact (tells_peekTriggers none).bind fun _ _ =>
      tells_peekIntrapage.bind fun bytes _ => (tells_peekTriggers _).bind fun _ _ => Tells.value rfl

end HartMmu

end Nnemu

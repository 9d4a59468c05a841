import Nnemu.Mmu.Plain

/-!
# The TLB is transparent

Every access of a unit whose TLB is sound comes to the same as without a TLB, and leaves the TLB
sound: a hit is what the walk would find, and where the checks for triggers are skipped there is
nothing to check. The tables of the page have to be settled in the end, as software has them that
flushes the TLB after it has changed them.

The order is that of the text: checks for triggers, programs that do not touch the TLB, a read and a
write within one page, accesses that are cut at a page boundary, and at last the public functions.
At each miss the page is walked and the entry filled in; at each hit the walk of the plain program
has to be supplied, and soundness does so.
-/

namespace Nnemu

open Bytes Trigger

namespace HartMmu

variable {δ ι : Type} {cfg : Config} {bus : Bus δ} {addr paddr : Reg} {len : Nat}
  {type : AccessType}
  {c : Cpu Files ι} {w : World δ} {s p : Cpu Files ι × World δ} {pages : List (AccessType × Reg)}

/-! ### Checks for triggers -/

section Checks

variable {operation : Operation} {data : Option Reg}

theorem withHart_triggers {σ : Type} (c : Cpu σ ι) (triggers : Triggers) :
    (c.withHart fun h => { h with triggers := triggers }) =
      { c with hart := { c.hart with triggers := triggers } } :=
  if_pos rfl

/-- A check for triggers leaves the triggers as they were, but for what a detection does to them. -/
theorem checkTriggers_triggers (cfg : Config) (operation : Operation) (addr : Reg)
    (data : Option Reg) (c : Cpu Files ι) :
    (Exec.final (checkTriggers cfg operation addr data c)).hart.triggers = c.hart.triggers ∨
      (Exec.final (checkTriggers cfg operation addr data c)).hart.triggers =
        (c.hart.triggers.detectMemoryAccessMatch (c.hart.matchEnv cfg) operation addr data).1 := by
  rw [checkTriggers]
  cases hmatched : c.matchedTrigger.isSome with
  | true => exact .inl rfl
  | false =>
    refine .inr ?_
    simp only [Bool.false_eq_true, if_false, withHart_triggers]
    cases (c.hart.triggers.detectMemoryAccessMatch (c.hart.matchEnv cfg) operation addr data).2 with
    | none => rfl
    | some result =>
      obtain ⟨timing, action⟩ := result
      cases timing <;> rfl

theorem final_checkData (c : Cpu Files ι) (w : World δ) :
    Exec.final (checkData cfg operation addr data (c, w)) =
      (Exec.final (checkTriggers cfg operation addr data c), w) := by
  rw [checkData]
  cases checkTriggers cfg operation addr data c with
  | ok u c' => rfl
  | error e c' => cases e <;> rfl

/-- A check moves the hart on and leaves the world. -/
theorem moves_checkData (cfg : Config) (operation : Operation) (addr : Reg) (data : Option Reg) :
    Exec.Keeps (Moves cfg) (checkData (δ := δ) (ι := ι) cfg operation addr data) := by
  rintro ⟨c, w⟩
  rw [final_checkData]
  refine ⟨(checked_checkTriggers cfg operation addr data c).hart, fun operation' ho => ?_,
    .refl _ _⟩
  obtain heq | heq := checkTriggers_triggers cfg operation addr data c
  · rw [heq]
    exact ho
  · rw [heq]
    exact ho.of_detect

/-- A check does not look at the TLB. -/
theorem checkData_tlb (c : Cpu Files ι) (w : World δ) (t : Tlb) :
    checkData cfg operation addr data ({ c with rest := { c.rest with tlb := t } }, w) =
      match checkData cfg operation addr data (c, w) with
      | .ok u s => .ok u ({ s.1 with rest := { s.1.rest with tlb := t } }, s.2)
      | .error e s => .error e ({ s.1 with rest := { s.1.rest with tlb := t } }, s.2) := by
  rw [checkData, checkData, checkTriggers, checkTriggers]
  dsimp only
  cases hmatched : c.matchedTrigger.isSome with
  | true => rfl
  | false =>
    simp only [Bool.false_eq_true, if_false, withHart_triggers]
    cases (c.hart.triggers.detectMemoryAccessMatch (c.hart.matchEnv cfg) operation addr data).2 with
    | none => rfl
    | some result =>
      obtain ⟨timing, action⟩ := result
      cases timing <;> rfl

/-- Checks come to the same with and without a TLB. -/
theorem simulates_checkData (operation : Operation) (addr : Reg) (data : Option Reg) :
    Simulates cfg bus pages (checkData (ι := ι) cfg operation addr data)
    (checkData cfg operation addr data) where
  moves := moves_checkData cfg operation addr data
  comes := by
    rintro ⟨c, w⟩ ⟨c', w'⟩ ⟨⟨hworld, t, hcpu⟩, hsound⟩ -
    obtain rfl : w' = w := hworld
    obtain rfl : c' = { c with rest := { c.rest with tlb := t } } := hcpu
    have hmoves := moves_checkData cfg operation addr data (c, w')
    have hkept := hsound.later hmoves.later hmoves.unwatched
    have hrest : (Exec.final (checkData cfg operation addr data (c, w'))).1.rest = c.rest := by
      rw [final_checkData]
      exact (checked_checkTriggers cfg operation addr data c).rest
    rw [checkData_tlb c w' t]
    cases hrun : checkData cfg operation addr data (c, w') with
    | ok u s =>
      rw [hrun] at hkept
      replace hrest : s.1.rest = c.rest := by
        rw [hrun] at hrest
        exact hrest
      have hsound' : s.1.rest.tlb.Sound cfg bus s.1.hart s.2 := by
        rw [hrest]
        exact hkept
      exact .ok u ⟨⟨rfl, t, rfl⟩, hsound'⟩
    | error e s =>
      rw [hrun] at hkept
      replace hrest : s.1.rest = c.rest := by
        rw [hrun] at hrest
        exact hrest
      have hsound' : s.1.rest.tlb.Sound cfg bus s.1.hart s.2 := by
        rw [hrest]
        exact hkept
      exact .error e ⟨⟨rfl, t, rfl⟩, hsound'⟩

/-- Where no trigger watches there is nothing to check. -/
theorem checkData_of_unwatched (hunwatched : c.hart.triggers.Unwatched operation) :
    checkData cfg operation addr data (c, w) = .ok () (c, w) := by
  rw [checkData, checkTriggers, hunwatched.detect]
  simp only [withHart_triggers]
  cases c.matchedTrigger.isSome <;> rfl

end Checks

/-! ### Programs of the world -/

/-- A program that looks at the hart and works on the world. -/
def onWorld {α : Type} (f : Hart → Exec Stop (World δ) α) : LoadM δ ι α := fun s =>
  match f s.1.hart s.2 with
  | .ok a w => .ok a (s.1, w)
  | .error e w => .error e (s.1, w)

section OnWorld

variable {α : Type} {f : Hart → Exec Stop (World δ) α}

/-- A program of the world leads to a later state of the world. -/
theorem moves_onWorld (hle : ∀ h w, PtLe (Hart.regime cfg h).pteSize w (Exec.final (f h w))) :
    Exec.Keeps (Moves (ι := ι) cfg) (onWorld f) := by
  rintro ⟨c, w⟩
  have hw := hle c.hart w
  rw [onWorld]
  cases hrun : f c.hart w with
  | ok a w' =>
    rw [hrun] at hw
    exact moves_of_hart rfl hw
  | error e w' =>
    rw [hrun] at hw
    exact moves_of_hart rfl hw

/-- The world goes on in the same way. -/
theorem Refines.onWorld {w' : World δ} (h : Refines cfg bus s p)
    (hle : PtLe (s.1.hart.regime cfg).pteSize s.2 w') :
    Refines cfg bus (s.1, w') (p.1, w') where
  world := rfl
  cpu := h.cpu
  sound := h.sound.later (later_of_ptLe hle) fun _ => id

theorem simulates_onWorld (hle : ∀ h w, PtLe (Hart.regime cfg h).pteSize w (Exec.final (f h w))) :
    Simulates cfg bus pages (onWorld (ι := ι) f) (onWorld f) where
  moves := moves_onWorld hle
  comes := by
    intro s p href _
    have hw := hle s.1.hart s.2
    rw [onWorld, onWorld, href.hart, href.world]
    cases hrun : f s.1.hart s.2 with
    | ok a w' =>
      rw [hrun] at hw
      exact .ok a (href.onWorld hw)
    | error e w' =>
      rw [hrun] at hw
      exact .error e (href.onWorld hw)

end OnWorld

/-- What a walk does to the tables is to set A and D bits. -/
theorem ptLe_walk (r : Regime) (addr mode : Reg) (type : AccessType) (virt hlvx : Bool)
    (w : World δ) :
    PtLe r.pteSize w
    (Exec.final ((walk (busMem bus r) r addr type mode virt hlvx : Exec Stop (World δ) Reg) w)) :=
  by
  cases hrun : (walk (busMem bus r) r addr type mode virt hlvx : Exec Stop (World δ) Reg) w with
  | ok page w' => exact (walk_ptLe addr mode type virt hlvx w).1 page w' hrun
  | error e w' => exact (walk_ptLe addr mode type virt hlvx w).2 e w' hrun

theorem ptLe_translate (cfg : Config) (bus : Bus δ) (h : Hart) (addr : Reg)
    (len : Nat) (type : AccessType)
    (w : World δ) :
    PtLe (h.regime cfg).pteSize w (Exec.final
      ((translate (busMem bus (h.regime cfg)) (h.regime cfg) (h.privilege cfg) addr len type {} :
        Exec Stop (World δ) Reg) w)) := by
  refine Exec.final_bind _ (fun _ _ h => h) (fun _ _ _ => .trans)
    (ptLe_walk _ _ _ _ _ _ w) fun page w' _ => ?_
  cases hpmp : (h.regime cfg).pmp.pmpOk (page ||| (addr &&& pageMask)) len type
      ((h.privilege cfg).effective type {}).1 with
  | false => exact .refl _ w'
  | true => exact .refl _ w'

/-- What a device does is nothing that the walker has to know. -/
theorem ptLe_dev (n : Nat) (w : World δ) (dev : δ) : PtLe n w { w with dev := dev } :=
  .of_recorded fun _ ha => ⟨ha, rfl⟩

theorem translateIn_eq (cfg : Config) (bus : Bus δ) (addr : Reg) (len : Nat) (type : AccessType) :
    (translateIn cfg bus addr len type : LoadM δ ι Reg) =
      onWorld fun h => translate (busMem bus (h.regime cfg)) (h.regime cfg)
      (h.privilege cfg) addr len type {} := by
  funext s
  rw [translateIn, onWorld, translateData]
  cases (translate (busMem bus (s.1.hart.regime cfg)) (s.1.hart.regime cfg)
    (s.1.hart.privilege cfg) addr len type {} :
    Exec Stop (World δ) Reg) s.2 <;> rfl

/-- **Translations are the same**, since they do not look at the TLB. -/
theorem simulates_translateIn (addr : Reg) (len : Nat) (type : AccessType) :
    Simulates cfg bus pages (translateIn (ι := ι) cfg bus addr len type)
    (translateIn cfg bus addr len type) := by
  rw [translateIn_eq]
  exact simulates_onWorld fun h w => ptLe_translate cfg bus h addr len type w

/-- A store to RAM is noted as a change by both units. -/
theorem simulates_writeRam (paddr : Reg) (bytes : List (BitVec 8)) :
    Simulates cfg bus pages (writeRam (ι := ι) paddr bytes) (writeRam paddr bytes) := by
  have heq : (writeRam paddr bytes : LoadM δ ι Unit) =
      onWorld fun _ w => .ok () (w.setMem false (writeBytes w.mem paddr bytes)) := rfl
  rw [heq]
  exact simulates_onWorld fun _ w => ptLe_setMem w _ w.dev

/-- The end of an access to a device, which answers or does not. -/
def answered {α : Type} (fault : Trap) (w : World δ) (answer : Option α) (dev : δ) :
    EStateM.Result Stop (World δ) α :=
  answer.elim (.error (.trap fault) { w with dev := dev }) fun a => .ok a { w with dev := dev }

theorem final_answered {α : Type} (fault : Trap) (w : World δ) (answer : Option α) (dev : δ) :
    Exec.final (answered fault w answer dev) = { w with dev := dev } := by
  cases answer <;> rfl

theorem simulates_deviceFetch (addr paddr : Reg) :
    Simulates cfg bus pages (deviceFetch (ι := ι) bus addr paddr) (deviceFetch bus addr paddr) := by
  have heq : (deviceFetch bus addr paddr : LoadM δ ι (List (BitVec 8))) = onWorld fun h w =>
      if mmioOk h.debugMode paddr then
        answered (accessFault .fetch h.v addr) w (bus.load w.dev paddr 2).1
          (bus.load w.dev paddr 2).2
      else .error (.trap (accessFault .fetch h.v addr)) w := by
    funext s
    simp only [deviceFetch, onWorld]
    split
    · obtain ⟨_ | bytes, dev⟩ := bus.load s.2.dev paddr 2 <;> rfl
    · rfl
  rw [heq]
  refine simulates_onWorld fun h w => ?_
  split
  · rw [final_answered]
    exact ptLe_dev _ w _
  · exact .refl _ w

/-- Devices are behind the TLB, and see the same accesses. -/
theorem simulates_deviceLoad (addr paddr : Reg) (len : Nat) :
    Simulates cfg bus pages (deviceLoad (ι := ι) bus addr paddr len)
    (deviceLoad bus addr paddr len) := by
  have heq : (deviceLoad bus addr paddr len : LoadM δ ι (List (BitVec 8))) = onWorld fun h w =>
      answered (accessFault .load h.v addr) w (mmioLoad bus h.debugMode w.dev paddr len).1
        (mmioLoad bus h.debugMode w.dev paddr len).2 := by
    funext s
    simp only [deviceLoad, onWorld]
    obtain ⟨_ | bytes, dev⟩ := mmioLoad bus s.1.hart.debugMode s.2.dev paddr len <;> rfl
  rw [heq]
  refine simulates_onWorld fun h w => ?_
  rw [final_answered]
  exact ptLe_dev _ w _

theorem simulates_deviceStore (addr paddr : Reg) (bytes : List (BitVec 8)) :
    Simulates cfg bus pages (deviceStore (ι := ι) bus addr paddr bytes)
    (deviceStore bus addr paddr bytes) := by
  have heq : (deviceStore bus addr paddr bytes : LoadM δ ι Unit) = onWorld fun h w =>
      answered (accessFault .store h.v addr)
        (w.setMem false (mmioStore bus h.debugMode w.mem w.dev paddr bytes).2.1)
        (if (mmioStore bus h.debugMode w.mem w.dev paddr bytes).1 then some () else none)
        (mmioStore bus h.debugMode w.mem w.dev paddr bytes).2.2 := by
    funext s
    simp only [deviceStore, onWorld]
    obtain ⟨_ | _, mem, dev⟩ := mmioStore bus s.1.hart.debugMode s.2.mem s.2.dev paddr bytes <;> rfl
  rw [heq]
  refine simulates_onWorld fun h w => ?_
  rw [final_answered]
  exact ptLe_setMem w _ _

/-! ### Reads -/

/-- The TLB entry is filled in after a walk. -/
def refillIn (cfg : Config) (addr paddr : Reg) (type : AccessType) : LoadM δ ι Unit := fun s =>
  match s.1.rest.tlb.refill cfg s.1.hart addr paddr type with
  | some t => .ok () ({ s.1 with rest := { s.1.rest with tlb := t } }, s.2)
  | none => .error .abort s

/-- A read after a miss. -/
def readMiss (cfg : Config) (bus : Bus δ) (type : AccessType)
    (device : Reg → LoadM δ ι (List (BitVec 8))) (addr : Reg)
    (len : Nat) : LoadM δ ι (List (BitVec 8)) := do
  let paddr ← translateIn cfg bus addr len type
  if bus.isMem paddr then
    let (_, w) ← get
    refillIn cfg addr paddr type
    pure (readBytes w.mem paddr len)
  else device paddr

/-- `load_slow_path_intrapage`, and what `fetch_slow_path` has of it. -/
def readIntrapage (cfg : Config) (bus : Bus δ) (type : AccessType) (hit : Tlb → Bool)
    (device : Reg → LoadM δ ι (List (BitVec 8))) (addr : Reg) (len : Nat) :
    LoadM δ ι (List (BitVec 8)) := do
  let (c, w) ← get
  if hit c.rest.tlb then pure (readBytes w.mem (c.rest.tlb.data (Tlb.index addr) + addr) len)
  else readMiss cfg bus type device addr len

/-- After a walk there is an entry, and it is sound. -/
theorem Refines.refill {w' : World δ} (h : Refines cfg bus s p) (hpos : 0 < len)
    (hlen : addr.toNat % 4096 + len ≤ 4096)
    (hwalk : translateData cfg bus s.1 addr len type s.2 = .ok paddr w')
    (hmem : bus.isMem paddr = true) :
    ∃ t, (∀ u : World δ,
        refillIn cfg addr paddr type (s.1, u) =
          .ok () ({ s.1 with rest := { s.1.rest with tlb := t } }, u)) ∧
      Refines cfg bus ({ s.1 with rest := { s.1.rest with tlb := t } }, w') (p.1, w') := by
  obtain ⟨t, hrefill⟩ :=
    Option.isSome_iff_exists.1 (s.1.rest.tlb.refill_isSome cfg s.1.hart addr paddr type)
  obtain ⟨old, hcpu⟩ := h.cpu
  refine ⟨t, fun u => by simp only [refillIn, hrefill], ⟨rfl, old, hcpu⟩, ?_⟩
  exact h.sound.refill hpos hlen hwalk hmem hrefill

theorem moves_refillIn (addr paddr : Reg) (type : AccessType) :
    Exec.Keeps (Moves cfg) (refillIn (δ := δ) (ι := ι) cfg addr paddr type) := by
  intro s
  simp only [refillIn]
  cases s.1.rest.tlb.refill cfg s.1.hart addr paddr type with
  | none => exact moves_of_hart rfl (.refl _ _)
  | some t => exact moves_of_hart rfl (.refl _ _)

/-- A miss walks, reads and fills the TLB in. -/
theorem moves_readMiss {device : Reg → LoadM δ ι (List (BitVec 8))}
    (hdevice : ∀ paddr, Exec.Keeps (Moves cfg) (device paddr)) :
    Exec.Keeps (Moves cfg) (readMiss cfg bus type device addr len) := by
  have hm := composes_moves (δ := δ) (ι := ι) cfg
  refine Exec.keeps_bind hm (simulates_translateIn addr len type : Simulates cfg bus [] _ _).moves
    fun paddr => ?_
  refine Exec.keeps_ite (Exec.keeps_bind hm hm.refl fun s => ?_) (hdevice paddr)
  exact Exec.keeps_bind hm (moves_refillIn addr paddr type) fun _ => Exec.keeps_pure hm _

/-- A read within a page, by cases: a hit reads RAM where the entry says, and a miss walks. -/
theorem readIntrapage_apply (hit : Tlb → Bool) (device : Reg → LoadM δ ι (List (BitVec 8)))
    (c : Cpu Files ι)
    (w : World δ) :
    readIntrapage cfg bus type hit device addr len (c, w) =
      if hit c.rest.tlb then .ok (readBytes w.mem (c.rest.tlb.data (Tlb.index addr) + addr) len)
      (c, w)
      else readMiss cfg bus type device addr len (c, w) := by
  change (if hit c.rest.tlb then pure _ else readMiss cfg bus type device addr len :
    LoadM δ ι (List (BitVec 8))) (c, w) = _
  rw [Exec.ite_apply]
  rfl

theorem translateIn_of_ok {w' : World δ}
    (h : translateData cfg bus c addr len type w = .ok paddr w') :
    translateIn cfg bus addr len type (c, w) = .ok paddr (c, w') := by
  simp only [translateIn, h]

theorem translateIn_of_error {e : Stop} {w' : World δ}
    (h : translateData cfg bus c addr len type w = .error e w') :
    translateIn cfg bus addr len type (c, w) = .error e (c, w') := by
  simp only [translateIn, h]

/-- The translation is that of the hart. -/
theorem Refines.translateData_eq (h : Refines cfg bus s p) (addr : Reg)
    (len : Nat) (type : AccessType) :
    translateData cfg bus p.1 addr len type p.2 = translateData cfg bus s.1 addr len type s.2 := by
  rw [translateData, translateData, h.hart, h.world]

/-- A read that walks and finds RAM. -/
theorem readPlain_of_ram {device : Reg → LoadM δ ι (List (BitVec 8))} {w' : World δ}
    (h : translateData cfg bus c addr len type w = .ok paddr w') (hmem : bus.isMem paddr = true) :
    readPlain cfg bus type device addr len (c, w) = .ok (readBytes w'.mem paddr len) (c, w') := by
  rw [readPlain, Exec.bind_of_ok (translateIn_of_ok h), if_pos hmem]
  rfl

/-- **Reads** come to the same with and without a TLB. -/
theorem simulates_read {hit : Tlb → Bool} {device : Reg → LoadM δ ι (List (BitVec 8))}
    (hhit : ∀ t, hit t = true → t.hits type addr = true) (hpos : 0 < len)
    (hlen : addr.toNat % 4096 + len ≤ 4096)
    (haddr : (type, addr) ∈ pages)
    (hdevice : ∀ paddr, Simulates cfg bus pages (device paddr) (device paddr)) :
    Simulates cfg bus pages (readIntrapage cfg bus type hit device addr len)
      (readPlain cfg bus type device addr len) where
  moves := by
    have hm := composes_moves (δ := δ) (ι := ι) cfg
    refine Exec.keeps_bind hm hm.refl fun s => ?_
    exact Exec.keeps_ite (Exec.keeps_pure hm _) (moves_readMiss fun paddr => (hdevice paddr).moves)
  comes := by
    rintro ⟨c, w⟩ p href hsettled
    rw [readIntrapage_apply] at hsettled ⊢
    cases hit' : hit c.rest.tlb with
    | true =>
      rw [hit', if_pos rfl] at hsettled
      rw [if_pos rfl]
      have haddr' : c.hart.Settled cfg bus w type addr := hsettled (type, addr) haddr
      obtain ⟨hwalk, hmem⟩ := href.sound.translate_of_hits (hhit _ hit') haddr' hpos hlen
      have hplain : translateData cfg bus p.1 addr len type p.2 = .ok
        (c.rest.tlb.data (Tlb.index addr) + addr) w :=
        (href.translateData_eq addr len type).trans hwalk
      rw [readPlain_of_ram hplain hmem]
      exact .ok _ (href.onWorld (.refl _ w))
    | false =>
      rw [hit', if_neg Bool.false_ne_true] at hsettled
      rw [if_neg Bool.false_ne_true]
      have hle := ptLe_translate cfg bus c.hart addr len type w
      rw [readMiss] at hsettled ⊢
      rw [readPlain]
      cases hwalk : translateData cfg bus c addr len type w with
      | error e w' =>
        have hplain := (href.translateData_eq addr len type).trans hwalk
        rw [← translateData, hwalk] at hle
        rw [Exec.bind_of_error (translateIn_of_error hwalk),
          Exec.bind_of_error (translateIn_of_error hplain)]
        exact .error e (href.onWorld hle)
      | ok paddr w' =>
        have hplain := (href.translateData_eq addr len type).trans hwalk
        rw [← translateData, hwalk] at hle
        rw [Exec.bind_of_ok (translateIn_of_ok hwalk)] at hsettled ⊢
        rw [Exec.bind_of_ok (translateIn_of_ok hplain)]
        cases hmem : bus.isMem paddr with
        | true =>
          obtain ⟨t, hrefill, href'⟩ := href.refill hpos hlen hwalk hmem
          rw [if_pos rfl, if_pos rfl]
          change Comes cfg bus
            ((refillIn cfg addr paddr type >>= fun _ => pure (readBytes w'.mem paddr len)) (c, w'))
            (.ok (readBytes w'.mem paddr len) (p.1, w'))
          rw [Exec.bind_of_ok (hrefill w')]
          exact .ok _ href'
        | false =>
          rw [hmem, if_neg Bool.false_ne_true] at hsettled
          rw [if_neg Bool.false_ne_true, if_neg Bool.false_ne_true]
          exact (hdevice paddr).comes _ _ (href.onWorld hle) hsettled

/-! ### Writes -/

/-- A write after a miss. -/
def writeMiss (cfg : Config) (bus : Bus δ) (addr : Reg) (len : Nat) (bytes : List (BitVec 8))
    (actuallyStore : Bool) :
    LoadM δ ι Unit := do
  let paddr ← translateIn cfg bus addr len .store
  if actuallyStore then
    if bus.isMem paddr then
      writeRam paddr bytes
      refillIn cfg addr paddr .store
    else deviceStore bus addr paddr bytes

/-- A store within a page, by cases. -/
theorem storeSlowPathIntrapage_apply (bytes : List (BitVec 8)) (actuallyStore : Bool)
    (c : Cpu Files ι) (w : World δ) :
    storeSlowPathIntrapage cfg bus addr len bytes actuallyStore (c, w) =
      if c.rest.tlb.hits .store addr then
        (if actuallyStore then writeRam (c.rest.tlb.data (Tlb.index addr) + addr) bytes
          else pure () :
          LoadM δ ι Unit) (c, w)
      else writeMiss cfg bus addr len bytes actuallyStore (c, w) := by
  change (if c.rest.tlb.hits .store addr then
      (if actuallyStore then writeRam (c.rest.tlb.data (Tlb.index addr) + addr) bytes else pure ())
    else writeMiss cfg bus addr len bytes actuallyStore : LoadM δ ι Unit) (c, w) = _
  exact Exec.ite_apply _ _ _ _

theorem moves_writeMiss (bytes : List (BitVec 8)) (actuallyStore : Bool) :
    Exec.Keeps (Moves cfg) (writeMiss (ι := ι) cfg bus addr len bytes actuallyStore) := by
  have hm := composes_moves (δ := δ) (ι := ι) cfg
  refine Exec.keeps_bind hm (simulates_translateIn addr len .store : Simulates cfg bus [] _ _).moves
    fun paddr => ?_
  refine Exec.keeps_ite (Exec.keeps_ite ?_ ?_) (Exec.keeps_pure hm _)
  · exact Exec.keeps_bind hm (simulates_writeRam paddr bytes : Simulates cfg bus [] _ _).moves
      fun _ =>
      moves_refillIn addr paddr .store
  · exact (simulates_deviceStore addr paddr bytes : Simulates cfg bus [] _ _).moves

/-- **Writes** come to the same with and without a TLB. -/
theorem simulates_write (bytes : List (BitVec 8)) (actuallyStore : Bool) (hpos : 0 < len)
    (hlen : addr.toNat % 4096 + len ≤ 4096) (haddr : (.store, addr) ∈ pages) :
    Simulates cfg bus pages (storeSlowPathIntrapage (ι := ι) cfg bus addr len bytes actuallyStore)
      (writePlain cfg bus addr len bytes actuallyStore) where
  moves := by
    rintro ⟨c, w⟩
    rw [storeSlowPathIntrapage_apply]
    have hm := composes_moves (δ := δ) (ι := ι) cfg
    split
    · exact Exec.keeps_ite (simulates_writeRam _ bytes : Simulates cfg bus [] _ _).moves
        (Exec.keeps_pure hm ()) (c, w)
    · exact moves_writeMiss bytes actuallyStore (c, w)
  comes := by
    rintro ⟨c, w⟩ p href hsettled
    have hwrite (paddr : Reg) : Simulates cfg bus pages (writeRam (ι := ι) paddr bytes)
      (writeRam paddr bytes) :=
      simulates_writeRam paddr bytes
    rw [storeSlowPathIntrapage_apply] at hsettled ⊢
    cases hit : c.rest.tlb.hits .store addr with
    -- a hit: the tables still give the entry, so the walk goes to the same place
    | true =>
      rw [hit, if_pos rfl] at hsettled
      rw [if_pos rfl]
      have hrest := Simulates.ite (c := actuallyStore = true)
        (fun _ => hwrite (c.rest.tlb.data (Tlb.index addr) + addr)) fun _ => .pure ()
      have hbefore := hsettled.of_moves (hrest.moves (c, w))
      obtain ⟨hwalk, hmem⟩ :=
        href.sound.translate_of_hits hit (hbefore (.store, addr) haddr) hpos hlen
      have hplain := (href.translateData_eq addr len .store).trans hwalk
      rw [writePlain, Exec.bind_of_ok (translateIn_of_ok hplain), if_pos hmem]
      exact hrest.comes _ _ (href.onWorld (.refl _ w)) hsettled
    -- a miss: both walk, and the entry refilled before the next access is sound
    | false =>
      rw [hit, if_neg Bool.false_ne_true] at hsettled
      rw [if_neg Bool.false_ne_true]
      have hle := ptLe_translate cfg bus c.hart addr len .store w
      rw [writeMiss] at hsettled ⊢
      rw [writePlain]
      cases hwalk : translateData cfg bus c addr len .store w with
      | error e w' =>
        have hplain := (href.translateData_eq addr len .store).trans hwalk
        rw [← translateData, hwalk] at hle
        rw [Exec.bind_of_error (translateIn_of_error hwalk),
          Exec.bind_of_error (translateIn_of_error hplain)]
        exact .error e (href.onWorld hle)
      | ok paddr w' =>
        have hplain := (href.translateData_eq addr len .store).trans hwalk
        rw [← translateData, hwalk] at hle
        rw [Exec.bind_of_ok (translateIn_of_ok hwalk)] at hsettled ⊢
        rw [Exec.bind_of_ok (translateIn_of_ok hplain)]
        cases actuallyStore with
        | false => exact .ok () (href.onWorld hle)
        | true =>
          rw [if_pos rfl] at hsettled ⊢
          rw [if_pos rfl]
          cases hmem : bus.isMem paddr with
          | true =>
            obtain ⟨t, hrefill, href'⟩ := href.refill hpos hlen hwalk hmem
            rw [if_pos rfl, if_pos rfl]
            have hram : writeRam (ι := ι) paddr bytes (c, w') =
              .ok () (c, w'.setMem false (writeBytes w'.mem paddr bytes)) := rfl
            rw [Exec.bind_of_ok hram, hrefill]
            exact .ok () (href'.onWorld (ptLe_setMem w' _ w'.dev))
          | false =>
            rw [hmem, if_neg Bool.false_ne_true] at hsettled
            rw [if_neg Bool.false_ne_true, if_neg Bool.false_ne_true]
            exact (simulates_deviceStore addr paddr bytes).comes _ _ (href.onWorld hle) hsettled

/-! ### Accesses in one part, or in two -/

/-- The places of an access. -/
def bytesOf (type : AccessType) (addr : Reg) (len : Nat) : List (AccessType × Reg) :=
  (List.range len).map fun i => (type, addr + BitVec.ofNat 64 i)

/-- The pages of an access are those of its bytes. -/
theorem mem_bytesOf {i : Nat} (h : i < len) :
    (type, addr + BitVec.ofNat 64 i) ∈ bytesOf type addr len :=
  List.mem_map_of_mem (List.mem_range.2 h)

theorem self_mem_bytesOf (h : 0 < len) : (type, addr) ∈ bytesOf type addr len := by
  have hmem : (type, addr + 0#64) ∈ bytesOf type addr len := mem_bytesOf h
  rwa [BitVec.add_zero] at hmem

/-- An aligned access stays in its page. -/
theorem inPage_of_isAligned {k : Nat} (hk : k ≤ 12) (h : isAligned addr (2 ^ k) = true) :
    addr.toNat % 4096 + 2 ^ k ≤ 4096 := by
  have hlt : 2 ^ k < 2 ^ 64 := Nat.pow_lt_pow_right (by omega) (by omega)
  have hpos : 0 < 2 ^ k := Nat.two_pow_pos k
  have hmask : (BitVec.ofNat 64 (2 ^ k) - 1#64).toNat = 2 ^ k - 1 := by
    rw [BitVec.toNat_sub_of_le, BitVec.toNat_ofNat, Nat.mod_eq_of_lt hlt]
    · rfl
    · rw [BitVec.le_def, BitVec.toNat_ofNat, BitVec.toNat_ofNat, Nat.mod_eq_of_lt hlt]
      exact hpos
  have hmod : addr.toNat % 2 ^ k = 0 := by
    have hzero := congrArg BitVec.toNat (beq_iff_eq.1 h)
    rwa [BitVec.toNat_and, hmask, Nat.and_two_pow_sub_one_eq_mod] at hzero
  obtain ⟨y, hy⟩ : 2 ^ k ∣ 4096 := pow_dvd_pow 2 hk
  obtain ⟨x, hx⟩ : 2 ^ k ∣ addr.toNat % 4096 :=
    (Nat.dvd_mod_iff (Dvd.intro y hy.symm)).2 (Nat.dvd_of_mod_eq_zero hmod)
  have hxy : 2 ^ k * x < 2 ^ k * y := by
    rw [← hx, ← hy]
    exact Nat.mod_lt _ (by omega)
  have hle : x + 1 ≤ y := Nat.lt_of_mul_lt_mul_left hxy
  calc addr.toNat % 4096 + 2 ^ k = 2 ^ k * (x + 1) := by rw [hx, Nat.mul_add, Nat.mul_one]
    _ ≤ 2 ^ k * y := Nat.mul_le_mul_left _ hle
    _ = 4096 := hy.symm

/-- Where an access is split, the second part starts a page. -/
theorem split_addr (addr : Reg) (hne : min len (4096 - addr.toNat % 4096) ≠ len) :
    (addr + BitVec.ofNat 64 (min len (4096 - addr.toNat % 4096))).toNat % 4096 = 0 := by
  have haddr := addr.isLt
  rw [BitVec.toNat_add, BitVec.toNat_ofNat]
  omega

variable {misalignedEnabled : Bool}

/-- The two parts of an access, which stay in their pages. -/
theorem simulates_inParts {part part' : Reg → Nat → LoadM δ ι (List (BitVec 8))}
    (hpos : 0 < len) (hle : len ≤ 4096)
    (hpart : ∀ a l, 0 < l → a.toNat % 4096 + l ≤ 4096 → (type, a) ∈ pages →
      Simulates cfg bus pages (part a l) (part' a l))
    (hpages : bytesOf type addr len ⊆ pages) :
    Simulates cfg bus pages (inParts part addr len) (inParts part' addr len) := by
  have hmod : addr.toNat % 4096 < 4096 := Nat.mod_lt _ (by decide)
  refine .bind (hpart _ _ (by omega) (by omega) (hpages (self_mem_bytesOf hpos))) fun bytes _ => ?_
  by_cases hne : min len (4096 - addr.toNat % 4096) ≠ len
  · rw [if_pos hne, if_pos hne]
    have hzero := split_addr addr hne
    refine .bind (hpart _ _ (by omega) (by omega) (hpages (mem_bytesOf (by omega)))) fun rest _ =>
      .pure _
  · rw [if_neg hne, if_neg hne]
    exact .pure bytes

/-- Loads in parts. -/
theorem simulates_loadSlowPathOver {part part' : Reg → Nat → LoadM δ ι (List (BitVec 8))}
    {k : Nat} (hk : k ≤ 12)
    (hpart : ∀ a l, 0 < l → a.toNat % 4096 + l ≤ 4096 → (.load, a) ∈ pages →
      Simulates cfg bus pages (part a l) (part' a l))
    (hpages : bytesOf .load addr (2 ^ k) ⊆ pages) :
    Simulates cfg bus pages (loadSlowPathOver cfg misalignedEnabled part addr (2 ^ k))
      (loadSlowPathOver cfg misalignedEnabled part' addr (2 ^ k)) := by
  have hpos : 0 < 2 ^ k := Nat.two_pow_pos k
  have hle : 2 ^ k ≤ 4096 := Nat.pow_le_pow_right (by decide) hk
  have htail (bytes : List (BitVec 8)) : Simulates cfg bus pages
    (checkLoad cfg addr (some (fromBytes bytes)) >>= fun _ =>
      (pure bytes : LoadM δ ι _))
        (checkLoad cfg addr (some (fromBytes bytes)) >>= fun _ => pure bytes) :=
    .bind (simulates_checkData .load addr _) fun _ _ => .pure bytes
  refine .bind (simulates_checkData .load addr none) fun _ _ => ?_
  dsimp only
  cases haligned : isAligned addr (2 ^ k) with
  | true =>
    rw [if_pos rfl, if_pos rfl]
    have hself := hpages (self_mem_bytesOf hpos)
    exact .bind (hpart addr _ hpos (inPage_of_isAligned hk haligned) hself) fun bytes _ =>
      htail bytes
  | false =>
    rw [if_neg Bool.false_ne_true, if_neg Bool.false_ne_true]
    refine .get fun s p h => ?_
    rw [h.hart]
    have hparts :=
      Simulates.bind (simulates_inParts hpos hle hpart hpages) fun bytes _ => htail bytes
    exact .ite (fun _ => .bind (.throw _) fun _ _ => hparts) fun _ => hparts

/-- Stores in parts. -/
theorem simulates_storeSlowPathOver
    {part part' : Reg → Nat → List (BitVec 8) → Bool → LoadM δ ι Unit} {k : Nat}
    (hk : k ≤ 12) (bytes : List (BitVec 8)) (actuallyStore requireAlignment : Bool)
    (hpart : ∀ a l bs, 0 < l → a.toNat % 4096 + l ≤ 4096 → (.store, a) ∈ pages →
      Simulates cfg bus pages (part a l bs actuallyStore) (part' a l bs actuallyStore))
    (hpages : bytesOf .store addr (2 ^ k) ⊆ pages) :
    Simulates cfg bus pages
      (storeSlowPathOver cfg misalignedEnabled part addr (2 ^ k) bytes
        actuallyStore requireAlignment)
      (storeSlowPathOver cfg misalignedEnabled part' addr
        (2 ^ k) bytes actuallyStore requireAlignment) := by
  have hpos : 0 < 2 ^ k := Nat.two_pow_pos k
  have hle : 2 ^ k ≤ 4096 := Nat.pow_le_pow_right (by decide) hk
  have hmod : addr.toNat % 4096 < 4096 := Nat.mod_lt _ (by decide)
  rw [storeSlowPathOver, storeSlowPathOver]
  dsimp only
  refine .ite (fun _ => .bind (simulates_checkData .store addr _) fun _ _ => ?_) fun _ => ?_
  all_goals
    refine .ite (fun _ => .get fun s p h => ?_) fun haligned => ?_
    · rw [h.hart]
      refine .ite (fun _ => .bind (.throw _) fun _ _ => ?_) fun _ => ?_
      all_goals
        refine .ite (fun _ => .bind (.throw _) fun _ _ => ?_) fun _ => ?_
      all_goals
        refine .bind (hpart _ _ _ (by omega) (by omega) (hpages (self_mem_bytesOf hpos)))
          fun _ _ => ?_
        refine .ite (fun hne => ?_) fun _ => .pure ()
        have hzero := split_addr addr hne
        exact hpart _ _ _ (by omega) (by omega) (hpages (mem_bytesOf (by omega)))
    · have haligned : isAligned addr (2 ^ k) = true := by simpa using haligned
      exact hpart _ _ _ hpos (inPage_of_isAligned hk haligned) (hpages (self_mem_bytesOf hpos))

/-! ### Accesses -/

/-- Where the checks are skipped, the plain unit reads the same, and has nothing to check. -/
theorem Refines.read_of_skips {device : Reg → LoadM δ ι (List (BitVec 8))} (h : Refines cfg bus s p)
    (hskips : s.1.rest.tlb.skips type addr = true)
    (hsettled : s.1.hart.Settled cfg bus s.2 type addr) (hpos : 0 < len)
    (hlen : addr.toNat % 4096 + len ≤ 4096) :
    readPlain cfg bus type device addr len p =
        .ok (readBytes s.2.mem (s.1.rest.tlb.data (Tlb.index addr) + addr) len) p ∧
      p.1.hart.triggers.Unwatched type.operation := by
  obtain ⟨hwalk, hmem⟩ := h.sound.translate_of_hits (Tlb.hits_of_skips hskips) hsettled hpos hlen
  have hplain := (h.translateData_eq addr len type).trans hwalk
  refine ⟨?_, ?_⟩
  · obtain ⟨c', w'⟩ := p
    obtain rfl : w' = s.2 := h.world
    exact readPlain_of_ram hplain hmem
  · rw [h.hart]
    exact h.sound.checks type (h.sound.skips type addr hskips)

/-- A read between two checks. -/
theorem checked_read {operation : Operation} {x : LoadM δ ι (List (BitVec 8))}
    {bytes : List (BitVec 8)}
    (hx : x p = .ok bytes p) (hunwatched : p.1.hart.triggers.Unwatched operation) :
    (do checkData cfg operation addr none
        let bytes ← x
        checkData cfg operation addr (some (fromBytes bytes))
        pure bytes : LoadM δ ι _) p = .ok bytes p := by
  rw [Exec.bind_of_ok (checkData_of_unwatched hunwatched), Exec.bind_of_ok hx,
    Exec.bind_of_ok (checkData_of_unwatched hunwatched)]
  rfl

/-- A fetch that finds an entry without a check reads RAM at once. -/
theorem fetch_apply (c : Cpu Files ι) (w : World δ) :
    fetch cfg bus addr (c, w) =
      if c.rest.tlb.skips .fetch addr then .ok
      (readBytes w.mem (c.rest.tlb.data (Tlb.index addr) + addr) 2) (c, w)
      else fetchSlowPath cfg bus addr (c, w) := by
  change (if c.rest.tlb.skips .fetch addr then pure _ else fetchSlowPath cfg bus addr :
    LoadM δ ι (List (BitVec 8))) (c, w) = _
  rw [Exec.ite_apply]
  rfl

/-- A parcel of an instruction lies within a page, as its address is even. -/
theorem simulates_fetchSlowPath (heven : addr.toNat % 2 = 0) (haddr : (.fetch, addr) ∈ pages) :
    Simulates cfg bus pages (fetchSlowPath (ι := ι) cfg bus addr) (fetchPlain cfg bus addr) := by
  refine .bind (simulates_checkData .execute addr none) fun _ _ => .bind ?_ fun bytes _ =>
    .bind (simulates_checkData .execute addr _) fun _ _ => .pure bytes
  exact simulates_read (fun _ => Tlb.hits_of_hitFetchChecked) (by decide)
    (by omega) haddr fun paddr =>
    simulates_deviceFetch addr paddr

/-- **Fetches** come to the same with and without a TLB. -/
theorem simulates_fetch (heven : addr.toNat % 2 = 0) (haddr : (.fetch, addr) ∈ pages) :
    Simulates cfg bus pages (fetch (ι := ι) cfg bus addr) (fetchPlain cfg bus addr) where
  moves := by
    have hm := composes_moves (δ := δ) (ι := ι) cfg
    refine Exec.keeps_bind hm hm.refl fun s => ?_
    exact Exec.keeps_ite (Exec.keeps_pure hm _) (simulates_fetchSlowPath heven haddr).moves
  comes := by
    rintro ⟨c, w⟩ p href hsettled
    rw [fetch_apply] at hsettled ⊢
    cases hskips : c.rest.tlb.skips .fetch addr with
    | true =>
      rw [hskips, if_pos rfl] at hsettled
      rw [if_pos rfl]
      obtain ⟨hread, hunwatched⟩ :=
        href.read_of_skips hskips (hsettled (.fetch, addr) haddr) Nat.zero_lt_two
        (by omega)
      have hplain : fetchPlain cfg bus addr p = _ := checked_read hread hunwatched
      rw [hplain]
      exact .ok _ href
    | false =>
      rw [hskips, if_neg Bool.false_ne_true] at hsettled
      rw [if_neg Bool.false_ne_true]
      exact (simulates_fetchSlowPath heven haddr).comes _ _ href hsettled

theorem loadSlowPathIntrapage_eq :
    (loadSlowPathIntrapage cfg bus addr len : LoadM δ ι (List (BitVec 8))) =
      readIntrapage cfg bus .load (fun t => t.hits .load addr)
      (fun paddr => deviceLoad bus addr paddr len) addr len :=
  rfl

/-- A load is cut at most once, since it is no longer than a page. -/
theorem simulates_loadSlowPath {k : Nat} (hk : k ≤ 12)
    (hpages : bytesOf .load addr (2 ^ k) ⊆ pages) :
    Simulates cfg bus pages
    (loadSlowPathOver (ι := ι) cfg misalignedEnabled (loadSlowPathIntrapage cfg bus) addr (2 ^ k))
      (loadPlain cfg bus misalignedEnabled addr (2 ^ k)) := by
  refine simulates_loadSlowPathOver hk (fun a l hl hin ha => ?_) hpages
  rw [loadSlowPathIntrapage_eq]
  exact simulates_read (fun _ => id) hl hin ha fun paddr => simulates_deviceLoad a paddr l

theorem loadPlain_of_isAligned (misalignedEnabled : Bool) (haligned : isAligned addr len = true) :
    (loadPlain cfg bus misalignedEnabled addr len : LoadM δ ι (List (BitVec 8))) =
      (do checkData cfg .load addr none
          let bytes ← readPlain cfg bus .load (fun paddr => deviceLoad bus addr paddr len) addr len
          checkData cfg .load addr (some (fromBytes bytes))
          pure bytes) := by
  rw [loadPlain, loadSlowPathOver, if_pos haligned]
  rfl

/-- A load that is aligned and finds an entry without a check. -/
theorem loadAny_apply (c : Cpu Files ι) (w : World δ) :
    loadAny cfg bus misalignedEnabled addr len (c, w) =
      if isAligned addr len && c.rest.tlb.skips .load addr then
        .ok (readBytes w.mem (c.rest.tlb.data (Tlb.index addr) + addr) len) (c, w)
      else loadSlowPathOver cfg misalignedEnabled (loadSlowPathIntrapage cfg bus)
        addr len (c, w) := by
  change (if isAligned addr len && c.rest.tlb.skips .load addr then pure _
    else loadSlowPathOver cfg misalignedEnabled (loadSlowPathIntrapage cfg bus) addr len :
      LoadM δ ι (List (BitVec 8))) (c, w) = _
  rw [Exec.ite_apply]
  rfl

/-- **Loads** come to the same with and without a TLB. -/
theorem simulates_loadAny {k : Nat} (hk : k ≤ 12) (hpages : bytesOf .load addr (2 ^ k) ⊆ pages) :
    Simulates cfg bus pages (loadAny (ι := ι) cfg bus misalignedEnabled addr (2 ^ k))
      (loadPlain cfg bus misalignedEnabled addr (2 ^ k)) where
  moves := by
    have hm := composes_moves (δ := δ) (ι := ι) cfg
    refine Exec.keeps_bind hm hm.refl fun s => ?_
    exact Exec.keeps_ite (Exec.keeps_pure hm _) (simulates_loadSlowPath hk hpages).moves
  comes := by
    rintro ⟨c, w⟩ p href hsettled
    rw [loadAny_apply] at hsettled ⊢
    cases hfast : isAligned addr (2 ^ k) && c.rest.tlb.skips .load addr with
    | true =>
      obtain ⟨haligned, hskips⟩ := Bool.and_eq_true_iff.1 hfast
      rw [hfast, if_pos rfl] at hsettled
      rw [if_pos rfl]
      have hpos : 0 < 2 ^ k := Nat.two_pow_pos k
      obtain ⟨hread, hunwatched⟩ := href.read_of_skips hskips
        (hsettled (.load, addr) (hpages (self_mem_bytesOf hpos))) hpos
          (inPage_of_isAligned hk haligned)
      have hplain := (congrFun (loadPlain_of_isAligned misalignedEnabled haligned) p).trans
        (checked_read hread hunwatched)
      rw [hplain]
      exact .ok _ href
    | false =>
      rw [hfast, if_neg Bool.false_ne_true] at hsettled
      rw [if_neg Bool.false_ne_true]
      exact (simulates_loadSlowPath hk hpages).comes _ _ href hsettled

/-- So is a store, of which the second part may fail when the first one is done. -/
theorem simulates_storeSlowPath {k : Nat} (hk : k ≤ 12) (bytes : List (BitVec 8))
    (actuallyStore requireAlignment : Bool)
    (hpages : bytesOf .store addr (2 ^ k) ⊆ pages) :
    Simulates cfg bus pages
      (storeSlowPath (ι := ι) cfg bus misalignedEnabled addr (2 ^ k) bytes
        actuallyStore requireAlignment)
      (storeSlowPathOver cfg misalignedEnabled (writePlain cfg bus) addr (2 ^ k) bytes actuallyStore
        requireAlignment) := by
  rw [storeSlowPath_eq]
  exact simulates_storeSlowPathOver hk bytes _ _
    (fun a l bs hl hin ha => simulates_write bs _ hl hin ha) hpages

theorem storePlain_of_isAligned (misalignedEnabled : Bool) (val : Reg)
    (haligned : isAligned addr len = true) :
    (storePlain cfg bus misalignedEnabled addr len val : LoadM δ ι Unit) =
      checkData cfg .store addr (some (fromBytes (toBytes val len))) >>= fun _ =>
        writePlain cfg bus addr len (toBytes val len) true := by
  rw [storePlain, storeSlowPathOver, haligned]
  rfl

/-- A store that is aligned and finds an entry without a check. -/
theorem store_apply (val : Reg) (c : Cpu Files ι) (w : World δ) :
    store cfg bus misalignedEnabled addr len val (c, w) =
      if isAligned addr len && c.rest.tlb.skips .store addr then
        writeRam (c.rest.tlb.data (Tlb.index addr) + addr) (toBytes val len) (c, w)
      else storeSlowPath cfg bus misalignedEnabled addr len (toBytes val len)
        true false (c, w) := by
  change (if isAligned addr len && c.rest.tlb.skips .store addr then
      writeRam (c.rest.tlb.data (Tlb.index addr) + addr) (toBytes val len)
    else storeSlowPath cfg bus misalignedEnabled addr len (toBytes val len) true false :
      LoadM δ ι Unit) (c, w) = _
  exact Exec.ite_apply _ _ _ _

/-- **Stores** come to the same with and without a TLB. -/
theorem simulates_store {k : Nat} (hk : k ≤ 12) (val : Reg)
    (hpages : bytesOf .store addr (2 ^ k) ⊆ pages) :
    Simulates cfg bus pages (store (ι := ι) cfg bus misalignedEnabled addr (2 ^ k) val)
      (storePlain cfg bus misalignedEnabled addr (2 ^ k) val) where
  moves := by
    have hm := composes_moves (δ := δ) (ι := ι) cfg
    refine Exec.keeps_bind hm hm.refl fun s => ?_
    exact Exec.keeps_ite (simulates_writeRam _ _ : Simulates cfg bus [] _ _).moves
      (simulates_storeSlowPath hk _ true false hpages).moves
  comes := by
    rintro ⟨c, w⟩ p href hsettled
    rw [store_apply] at hsettled ⊢
    cases hfast : isAligned addr (2 ^ k) && c.rest.tlb.skips .store addr with
    | true =>
      obtain ⟨haligned, hskips⟩ := Bool.and_eq_true_iff.1 hfast
      rw [hfast, if_pos rfl] at hsettled
      rw [if_pos rfl]
      have hpos : 0 < 2 ^ k := Nat.two_pow_pos k
      have hwrite : Simulates cfg bus pages
          (writeRam (ι := ι) (c.rest.tlb.data (Tlb.index addr) + addr) (toBytes val (2 ^ k)))
            (writeRam _ _) :=
        simulates_writeRam _ _
      have hbefore := hsettled.of_moves (hwrite.moves (c, w))
      have hself := hbefore (.store, addr) (hpages (self_mem_bytesOf hpos))
      obtain ⟨hwalk, hmem⟩ := href.sound.translate_of_hits (Tlb.hits_of_skips hskips) hself hpos
        (inPage_of_isAligned hk haligned)
      have hplain := (href.translateData_eq addr (2 ^ k) .store).trans hwalk
      have hunwatched : p.1.hart.triggers.Unwatched .store := by
        rw [href.hart]
        exact href.sound.checks .store (href.sound.skips .store addr hskips)
      rw [storePlain_of_isAligned misalignedEnabled val haligned,
        Exec.bind_of_ok (checkData_of_unwatched hunwatched), writePlain,
        Exec.bind_of_ok (translateIn_of_ok hplain), if_pos rfl, if_pos hmem]
      exact hwrite.comes _ _ (href.onWorld (.refl _ w)) hsettled
    | false =>
      rw [hfast, if_neg Bool.false_ne_true] at hsettled
      rw [if_neg Bool.false_ne_true]
      exact (simulates_storeSlowPath hk _ true false hpages).comes _ _ href hsettled

/-- Traps are converted alike. -/
theorem Simulates.convert {α : Type} {x y : LoadM δ ι α} (h : Simulates cfg bus pages x y) :
    Simulates cfg bus pages (convertLoadTrapsToStoreTraps x) (convertLoadTrapsToStoreTraps y) where
  moves := by
    intro s
    have hs := h.moves s
    rw [convertLoadTrapsToStoreTraps]
    cases hrun : x s with
    | ok a t =>
      rw [hrun] at hs
      exact hs
    | error e t =>
      rw [hrun] at hs
      cases e <;> exact hs
  comes := by
    intro s p href hsettled
    have hs := h.comes s p href
    rw [convertLoadTrapsToStoreTraps] at hsettled ⊢
    rw [convertLoadTrapsToStoreTraps]
    cases hrun : x s with
    | ok a t =>
      rw [hrun] at hs hsettled
      have hend := hs hsettled
      generalize y p = r at hend
      obtain ⟨_, ht⟩ | _ := hend
      exact .ok a ht
    | error e t =>
      have hlast : SettledAt cfg bus pages t := by
        rw [hrun] at hsettled
        cases e <;> exact hsettled
      rw [hrun] at hs
      have hend := hs hlast
      generalize y p = r at hend
      obtain _ | ⟨_, ht⟩ := hend
      cases e with
      | trap trap => exact .error _ ht
      | _ => exact .error _ ht

/-- **Atomic operations** come to the same with and without a TLB. -/
theorem simulates_amo {k : Nat} (hk : k ≤ 12) (f : Reg → Reg)
    (hpages : bytesOf .store addr (2 ^ k) ++ bytesOf .load addr (2 ^ k) ⊆ pages) :
    Simulates cfg bus pages (amo (ι := ι) cfg bus misalignedEnabled addr (2 ^ k) f)
      (amoPlain cfg bus misalignedEnabled addr (2 ^ k) f) := by
  obtain ⟨hstore, hload⟩ := List.append_subset.1 hpages
  refine .convert (.bind (simulates_storeSlowPath hk [] false true hstore) fun _ htry => ?_)
  -- what was tried is aligned
  obtain ⟨⟨c, w⟩, ⟨c', w'⟩, htry⟩ := htry
  have haligned := (tryStore_ok htry).1
  rw [← loadAny_of_isAligned cfg bus misalignedEnabled haligned]
  exact .bind (simulates_loadAny hk hload) fun bytes _ => .bind
    (simulates_store hk _ hstore) fun _ _ => .pure _

end HartMmu

end Nnemu

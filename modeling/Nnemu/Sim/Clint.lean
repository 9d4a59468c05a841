import Nnemu.Hart.Timer
import Nnemu.Sim.Device

/-!
# The core-local interruptor

`clint_t`: time, the machine-level comparators and the software interrupts of all harts. Every
increment, every load and every accepted store ends in `increment`, which shows the time to each
hart (`sync`) and drives `MTIP`. So after each of them the supervisor-level timer bits of every hart
are right; after a write to a comparator they need not be (`timerOk_iff`).

The registers are those of the machine: a comparator and a software interrupt for each hart, and one
time for all. A use of the CLINT comes to a list of times that the harts are shown, in order
(`timesOfLoad`, `timesOfStore`), and the supervisor-level bits of a hart depend on the last of these
(`Shows`).
-/

namespace Nnemu

/-- `clint_t`, and the harts that `get_harts()` gives it. -/
structure Clint where
  /-- with `real_time`, what successive readings of the host's clock come to -/
  realTime : Option (Nat → Reg)
  readings : Nat
  mtime : Reg
  mtimecmp : Nat → Reg
  harts : Nat → Option Hart
  /-- an assertion has failed -/
  aborted : Bool

namespace Clint

/-- What `increment` does to one hart. -/
def tick (mtime mtimecmp : Reg) (h : Hart) : Hart :=
  (h.timeSync mtime).writeWithMask .mip mipMtip (if mtimecmp ≤ mtime then mipMtip else 0#64)

/-- The time after `increment`. -/
def nextTime (s : Clint) (inc : Reg) : Reg :=
  match s.realTime with
  | some clock => clock s.readings
  | none => s.mtime + inc

/-- `clint_t::increment` -/
def increment (s : Clint) (inc : Reg) : Clint :=
  { s with
    mtime := s.nextTime inc
    readings := s.readings + 1
    harts := fun id => (s.harts id).map (tick (s.nextTime inc) (s.mtimecmp id)) }

/-- A failed assertion. -/
def abort (s : Clint) : Clint :=
  { s with aborted := true }

/-- `clint_t::load`, but for double words of `msip`. -/
def loadWord (s : Clint) (addr : Reg) (len : Nat) : LoadResult × Clint :=
  if 8 < len then (none, s)
  else
    let s := s.increment 0#64
    if addr < 0x4000#64 then
      let msip := (s.harts (addr.toNat / 4)).any fun h => hasBits (h.reg .mip) mipMsip
      -- `assert(len <= sizeof(T))`
      if 4 < len then (none, s.abort)
      else (some (readLittleEndianReg 4 (if msip then 1#64 else 0#64) addr len), s)
    else if addr < 0xbff8#64 then
      let id := (addr.toNat - 0x4000) / 8
      let res := if (s.harts id).isSome then s.mtimecmp id else 0#64
      (some (readLittleEndianReg 8 res addr len), s)
    else if addr < 0xc000#64 then (some (readLittleEndianReg 8 s.mtime addr len), s)
    else if addr + BitVec.ofNat 64 len ≤ 0x10000#64 then (some (List.replicate len 0#8), s)
    else (none, s)

/-- `clint_t::load`: a double-word load of `msip` is a pair of word loads. -/
def load (s : Clint) (addr : Reg) (len : Nat) : LoadResult × Clint :=
  if len = 8 ∧ addr < 0x4000#64 then
    match (s.increment 0#64).loadWord addr 4 with
    | (none, s) => (none, s)
    | (some low, s) =>
      match s.loadWord (addr + 4#64) 4 with
      | (none, s) => (none, s)
      | (some high, s) => (some (low ++ high), s)
  else s.loadWord addr len

/-- `backdoor_write_with_mask(MIP_MSIP, …)` on the `mip` of one hart, if there is one. -/
def setMsip (s : Clint) (id : Nat) (level : Bool) : Clint :=
  { s with
    harts := Function.update s.harts id
      ((s.harts id).map fun h => h.writeWithMask .mip mipMsip (if level then mipMsip else 0#64)) }

/-- A write to part of `mtimecmp`. -/
def setMtimecmp (s : Clint) (id : Nat) (val : Reg) : Clint :=
  { s with mtimecmp := Function.update s.mtimecmp id val }

/-- A write to part of `mtime`. -/
def setMtime (s : Clint) (val : Reg) : Clint :=
  { s with mtime := val }

/-- `clint_t::store`, but for double words of `msip`. -/
def storeWord (s : Clint) (addr : Reg) (bytes : List (BitVec 8)) : Bool × Clint :=
  if 8 < bytes.length then (false, s)
  else if addr < 0x4000#64 then
    -- ignore in-between bytes
    if addr.toNat % 4 = 0 then
      if 4 < bytes.length then (false, s.abort)
      else
        let msip := writeLittleEndianReg 4 0#64 addr bytes
        (true, (s.setMsip (addr.toNat / 4) (hasBits msip 1#64)).increment 0#64)
    else (true, s.increment 0#64)
  else if addr < 0xbff8#64 then
    let id := (addr.toNat - 0x4000) / 8
    let s :=
      if (s.harts id).isSome then s.setMtimecmp id
        (writeLittleEndianReg 8 (s.mtimecmp id) addr bytes)
      else s
    (true, s.increment 0#64)
  else if addr < 0xc000#64 then
    (true, (s.setMtime (writeLittleEndianReg 8 s.mtime addr bytes)).increment 0#64)
  else if addr + BitVec.ofNat 64 bytes.length ≤ 0x10000#64 then (true, s.increment 0#64)
  else (false, s)

/-- `clint_t::store`: a double-word store to `msip` is a pair of word stores. -/
def store (s : Clint) (addr : Reg) (bytes : List (BitVec 8)) : Bool × Clint :=
  if bytes.length = 8 ∧ addr < 0x4000#64 then
    match s.storeWord addr (bytes.take 4) with
    | (false, s) => (false, s)
    | (true, s) => s.storeWord (addr + 4#64) (bytes.drop 4)
  else s.storeWord addr bytes

/-! ### The times that are shown -/

/-- The times that `loadWord` shows to the harts. -/
def timesOfLoadWord (s : Clint) (len : Nat) : List Reg :=
  if 8 < len then [] else [s.nextTime 0#64]

/-- The times that `load` shows to the harts. -/
def timesOfLoad (s : Clint) (addr : Reg) (len : Nat) : List Reg :=
  if len = 8 ∧ addr < 0x4000#64 then
    let s₁ := s.increment 0#64
    s.nextTime 0#64 :: (s₁.timesOfLoadWord 4 ++ (s₁.loadWord addr 4).2.timesOfLoadWord 4)
  else s.timesOfLoadWord len

/-- The times that `storeWord` shows to the harts. -/
def timesOfStoreWord (s : Clint) (addr : Reg) (bytes : List (BitVec 8)) : List Reg :=
  if 8 < bytes.length then []
  else if addr < 0x4000#64 then
    if addr.toNat % 4 = 0 ∧ 4 < bytes.length then [] else [s.nextTime 0#64]
  else if addr < 0xbff8#64 then [s.nextTime 0#64]
  else if addr < 0xc000#64 then
    [(s.setMtime (writeLittleEndianReg 8 s.mtime addr bytes)).nextTime 0#64]
  else if addr + BitVec.ofNat 64 bytes.length ≤ 0x10000#64 then [s.nextTime 0#64]
  else []

/-- The times that `store` shows to the harts. -/
def timesOfStore (s : Clint) (addr : Reg) (bytes : List (BitVec 8)) : List Reg :=
  if bytes.length = 8 ∧ addr < 0x4000#64 then
    s.timesOfStoreWord addr (bytes.take 4) ++
      (s.storeWord addr (bytes.take 4)).2.timesOfStoreWord (addr + 4#64) (bytes.drop 4)
  else s.timesOfStoreWord addr bytes

/-! ### What the harts see -/

variable {s s' : Clint} {id : Nat} {P Q : Hart → Prop} {times times' : List Reg}

/-- Hart `id` exists and satisfies `P`. -/
def Has (s : Clint) (id : Nat) (P : Hart → Prop) : Prop :=
  ∃ h, s.harts id = some h ∧ P h

/-- Showing one of `times` to a hart with `P` gives it `Q`, which is no less, and its software
interrupt does not matter. -/
structure Shows (times : List Reg) (P Q : Hart → Prop) : Prop where
  tick : ∀ t ∈ times, ∀ mtimecmp h, P h → Q (tick t mtimecmp h)
  weaken : ∀ h, Q h → P h
  msip : ∀ val h, P h → P (h.writeWithMask .mip mipMsip val)

theorem Has.mono (hs : s.Has id P) (hpq : ∀ h, P h → Q h) : s.Has id Q := by
  obtain ⟨h, hh, hP⟩ := hs
  exact ⟨h, hh, hpq h hP⟩

theorem Shows.subset (w : Shows times P Q) (hsub : ∀ t ∈ times', t ∈ times) : Shows times' P Q :=
  ⟨fun t ht => w.tick t (hsub t ht), w.weaken, w.msip⟩

theorem Shows.left (w : Shows (times ++ times') P Q) : Shows times P Q :=
  w.subset fun _ ht => List.mem_append_left _ ht

theorem Shows.right (w : Shows (times ++ times') P Q) : Shows times' P Q :=
  w.subset fun _ ht => List.mem_append_right _ ht

/-- **`increment` shows its time to every hart.** -/
theorem has_increment (hs : s.Has id P) {inc : Reg} (w : Shows [s.nextTime inc] P Q) :
    (s.increment inc).Has id Q := by
  obtain ⟨h, hh, hP⟩ := hs
  refine ⟨tick (s.nextTime inc) (s.mtimecmp id) h, ?_, w.tick _ (List.mem_singleton_self _) _ h hP⟩
  show (s.harts id).map _ = _
  rw [hh]
  rfl

theorem has_loadWord (hs : s.Has id P) (addr : Reg) {len : Nat}
    (w : Shows (s.timesOfLoadWord len) P Q)
    (hlen : len ≤ 8) : (s.loadWord addr len).2.Has id Q := by
  rw [timesOfLoadWord, if_neg (Nat.not_lt.2 hlen)] at w
  have hinc := has_increment hs w
  rw [loadWord, if_neg (Nat.not_lt.2 hlen)]
  dsimp only
  split
  · split
    · exact hinc
    · exact hinc
  · split
    · exact hinc
    · split
      · exact hinc
      · split
        · exact hinc
        · exact hinc

/-- **Loads** show the time. -/
theorem has_load (hs : s.Has id P) (addr : Reg) {len : Nat} (w : Shows (s.timesOfLoad addr len) P Q)
    (hlen : len ≤ 8) : (s.load addr len).2.Has id Q := by
  rw [timesOfLoad] at w
  rw [load]
  split
  · rename_i hwide
    rw [if_pos hwide] at w
    have hfirst := (has_increment hs (w.subset fun t ht => by
      rw [List.mem_singleton.1 ht]
      exact List.mem_cons_self)).mono w.weaken
    have w' := w.subset fun t ht => List.mem_cons_of_mem _ ht
    have hlow := has_loadWord hfirst addr w'.left (show 4 ≤ 8 by decide)
    split
    · rename_i s₁ heq
      rw [heq] at hlow
      exact hlow
    · rename_i low s₁ heq
      have whigh := w'.right
      rw [heq] at hlow whigh
      have hhigh := has_loadWord (hlow.mono w.weaken) (addr + 4#64) whigh (show 4 ≤ 8 by decide)
      split
      · rename_i s₂ heq₂
        rw [heq₂] at hhigh
        exact hhigh
      · rename_i high s₂ heq₂
        rw [heq₂] at hhigh
        exact hhigh
  · rename_i hwide
    rw [if_neg hwide] at w
    exact has_loadWord hs addr w hlen

/-- A load of more than 8 bytes is refused. -/
theorem load_long (addr : Reg) {len : Nat} (hlen : ¬ len ≤ 8) : s.load addr len = (none, s) := by
  rw [load, if_neg fun hwide => hlen (Nat.le_of_eq hwide.1), loadWord, if_pos (Nat.not_le.1 hlen)]

theorem has_setMsip (hs : s.Has id P) (w : Shows times P Q) (i : Nat) (level : Bool) :
    (s.setMsip i level).Has id P := by
  obtain ⟨h, hh, hP⟩ := hs
  by_cases hi : id = i
  · subst hi
    refine ⟨_, ?_, w.msip (if level then mipMsip else 0#64) h hP⟩
    rw [setMsip]
    show Function.update s.harts id _ id = _
    rw [Function.update_self, hh]
    rfl
  · refine ⟨h, ?_, hP⟩
    rw [setMsip]
    show Function.update s.harts i _ id = _
    rw [Function.update_of_ne hi, hh]

theorem has_setMtimecmp (hs : s.Has id P) (i : Nat) (val : Reg) : (s.setMtimecmp i val).Has id P :=
  hs

theorem has_setMtime (hs : s.Has id P) (val : Reg) : (s.setMtime val).Has id P :=
  hs

/-- A store of a word. -/
theorem has_storeWord (hs : s.Has id P) {addr : Reg} {bytes : List (BitVec 8)} {ok : Bool}
    (w : Shows (s.timesOfStoreWord addr bytes) P Q) (heq : s.storeWord addr bytes = (ok, s')) :
    s'.Has id (if ok then Q else P) := by
  rw [storeWord] at heq
  rw [timesOfStoreWord] at w
  dsimp only at heq
  split at heq
  · obtain ⟨rfl, rfl⟩ := Prod.mk.inj heq
    exact hs
  rename_i hlen
  rw [if_neg hlen] at w
  split at heq
  · rename_i hmsip
    rw [if_pos hmsip] at w
    split at heq
    · rename_i halign
      split at heq
      · obtain ⟨rfl, rfl⟩ := Prod.mk.inj heq
        exact hs
      · rename_i hfour
        rw [if_neg fun h => hfour h.2] at w
        obtain ⟨rfl, rfl⟩ := Prod.mk.inj heq
        exact has_increment (has_setMsip hs w _ _) w
    · rename_i halign
      rw [if_neg fun h => halign h.1] at w
      obtain ⟨rfl, rfl⟩ := Prod.mk.inj heq
      exact has_increment hs w
  rename_i hmsip
  rw [if_neg hmsip] at w
  split at heq
  · rename_i hcmp
    rw [if_pos hcmp] at w
    obtain ⟨rfl, rfl⟩ := Prod.mk.inj heq
    by_cases hsome : (s.harts ((addr.toNat - 0x4000) / 8)).isSome = true
    · rw [if_pos hsome]
      exact has_increment (has_setMtimecmp hs _ _) w
    · rw [if_neg hsome]
      exact has_increment hs w
  rename_i hcmp
  rw [if_neg hcmp] at w
  split at heq
  · rename_i hmtime
    rw [if_pos hmtime] at w
    obtain ⟨rfl, rfl⟩ := Prod.mk.inj heq
    exact has_increment (has_setMtime hs _) w
  rename_i hmtime
  rw [if_neg hmtime] at w
  split at heq
  · rename_i hsize
    rw [if_pos hsize] at w
    obtain ⟨rfl, rfl⟩ := Prod.mk.inj heq
    exact has_increment hs w
  · obtain ⟨rfl, rfl⟩ := Prod.mk.inj heq
    exact hs

/-- **Accepted stores** show the time. -/
theorem has_store (hs : s.Has id P) {addr : Reg} {bytes : List (BitVec 8)} {ok : Bool}
    (w : Shows (s.timesOfStore addr bytes) P Q) (heq : s.store addr bytes = (ok, s')) :
    s'.Has id (if ok then Q else P) := by
  rw [store] at heq
  rw [timesOfStore] at w
  split at heq
  · rename_i hwide
    rw [if_pos hwide] at w
    cases hlow : s.storeWord addr (bytes.take 4) with
    | mk ok₁ s₁ =>
      have hfirst := has_storeWord hs w.left hlow
      have whigh := w.right
      rw [hlow] at heq whigh
      cases ok₁ with
      | false =>
        obtain ⟨rfl, rfl⟩ := Prod.mk.inj heq
        exact hfirst
      | true => exact has_storeWord (Has.mono hfirst w.weaken) whigh heq
  · rename_i hwide
    rw [if_neg hwide] at w
    exact has_storeWord hs w heq

/-- A hart with Sstc. -/
def WithSstc (h : Hart) : Prop :=
  h.extensionEnabled .sstc = true

/-- A hart with Sstc whose timer bits are right. -/
def Synced (h : Hart) : Prop :=
  WithSstc h ∧ h.TimerOk

/-- **A hart that is shown the time is up to date.** -/
theorem shows_synced (times : List Reg) : Shows times WithSstc Synced where
  weaken _ synced := synced.1
  msip _ _ hs := hs
  tick mtime _ mtimecmp h hs := by
    refine ⟨(congrFun (Hart.extTable_timeSync mtime) .sstc).trans hs,
      (Hart.timerOk_timeSync hs mtime).pin ?_ _⟩
    intro c
    cases c with
    | stimecmp => rfl
    | vstimecmp => rfl

/-! ### The timer bits are right -/

/-- The entry for `stimecmp` is that of the hypervisor's guest while it runs. -/
theorem v_of_comparator {h : Hart} (o : CsrObj) (hc : o.comparator h.v = .stimecmp) :
    h.v = false := by
  induction o with
  | virtualizedStimecmp =>
    cases hv : h.v with
    | false => rfl
    | true =>
      rw [hv] at hc
      exact absurd hc (by decide)
  | rv32Low orig ih => exact ih hc
  | rv32High orig ih => exact ih hc
  | _ => exact absurd hc (by simp [CsrObj.comparator])

/-- After a write to a comparator, `mip` is right, and seeing the same time again leaves `VSTIP`. -/
def WriteOk (h : Hart) : Prop :=
  h.TimerOk ∧ (h.timeSync (h.reg .time)).timerPending .vstimecmp = h.timerPending .vstimecmp

theorem writeOk_stimecmpWrite {h : Hart} (hs : WithSstc h) {c : Comparator}
    (hv : c = .stimecmp → h.v = false)
    (val : Reg) : WriteOk (h.stimecmpWrite c.mask c.csr val) ↔ h.WriteExact val c := by
  have hs' : WithSstc (h.stimecmpWrite c.mask c.csr val) := hs
  rw [← Hart.timerOk_stimecmpWrite hv val, WriteOk, Hart.resync_iff hs']
  exact and_iff_left_of_imp fun ok => ok.vstip

/-- Moving on does not matter to the timer. -/
theorem writeOk_setPcAndSerialize (h : Hart) (pc : Reg) : WriteOk (h.setPcAndSerialize pc) ↔
    WriteOk h := by
  have hsync : ((h.setPcAndSerialize pc).timeSync (h.reg .time)).timerPending .vstimecmp =
      (h.timeSync (h.reg .time)).timerPending .vstimecmp := by
    rw [Hart.timerPending_timeSync, Hart.timerPending_timeSync]
    rfl
  constructor
  · exact fun ok => ⟨⟨ok.1.stip, ok.1.vstip⟩, hsync.symm.trans ok.2⟩
  · exact fun ok => ⟨⟨ok.1.stip, ok.1.vstip⟩, hsync.trans ok.2⟩

/-- **When the comparators are compared with the time.** With Sstc, `mip` has both timer bits right
after whatever the CLINT does. After a write of `val` to a comparator, by any instruction through
any of its addresses, it has them right exactly if the other bit was right before, and `val`
compares with the time as with the time of the guest when `vstimecmp` is written outside of the
guest. -/
theorem timerOk_iff {cfg : Config} {h : Hart} (hr : h.Reachable cfg)
    (hs : cfg.isa.table .sstc = true) :
    (∀ (s : Clint) (id : Nat), s.harts id = some h →
      (∀ inc, (s.increment inc).Has id Hart.TimerOk) ∧
      (∀ addr len, len ≤ 8 → (s.load addr len).2.Has id Hart.TimerOk) ∧
      ∀ addr bytes s', s.store addr bytes = (true, s') → s'.Has id Hart.TimerOk) ∧
    ∀ which insn o val, h.Writes cfg which insn o val → o.viewsTimer = true →
      ∃ h', h.csrInsn cfg which insn = .ok h' ∧
        (WriteOk h' ↔ h.WriteExact (h.comparatorValue cfg val o) (o.comparator h.v)) := by
  have hsstc : WithSstc h := (hr.wellFormed.regs.enabled_fixed .sstc rfl rfl).trans hs
  refine ⟨fun s id hh => ?_, fun which insn o val w ho => ?_⟩
  · have has : s.Has id WithSstc := ⟨h, hh, hsstc⟩
    refine ⟨fun inc => ?_, fun addr len hlen => ?_, fun addr bytes s' hok => ?_⟩
    · exact (has_increment has (shows_synced _)).mono fun _ synced => synced.2
    · exact (has_load has addr (shows_synced _) hlen).mono fun _ synced => synced.2
    · exact Has.mono (has_store has (shows_synced _) hok) fun _ synced => synced.2
  · refine ⟨_, w.ok, ?_⟩
    rw [writeOk_setPcAndSerialize, Hart.writeObj_timer o ho val]
    exact writeOk_stimecmpWrite hsstc (v_of_comparator o) _

/-- A CLINT with one hart. -/
def single (h : Hart) : Clint where
  realTime := none
  readings := 0
  mtime := 0#64
  mtimecmp := fun _ => 0#64
  harts := fun id => if id = 0 then some h else none
  aborted := false

theorem timerOk_iff_rv64h :
    (∀ (s : Clint) (id : Nat), s.harts id = some (Hart.init rv64h false) →
      (∀ inc, (s.increment inc).Has id Hart.TimerOk) ∧
      (∀ addr len, len ≤ 8 → (s.load addr len).2.Has id Hart.TimerOk) ∧
      ∀ addr bytes s', s.store addr bytes = (true, s') → s'.Has id Hart.TimerOk) ∧
    ∀ which insn o val, (Hart.init rv64h false).Writes rv64h which insn o val →
    o.viewsTimer = true →
      ∃ h', (Hart.init rv64h false).csrInsn rv64h which insn = .ok h' ∧
        (WriteOk h' ↔ (Hart.init rv64h false).WriteExact
          (Hart.comparatorValue rv64h (Hart.init rv64h false) val o)
          (o.comparator (Hart.init rv64h false).v)) :=
  timerOk_iff ⟨false, [], rfl⟩ (by decide)

/-- Outside of the guest, `vstimecmp` is compared with the time of the host: with `htimedelta` at
10, a write of 5 at time 0 leaves `VSTIP` clear, and the next tick sets it at time 0. -/
theorem timerOk_fails : ∃ h h' : Hart, h.Reachable rv64h ∧
    h.csrInsn rv64h 0x24d (.write 5#64) = .ok h' ∧ ¬ h'.Exact .vstimecmp ∧
      (h'.timeSync (h'.reg .time)).timerPending .vstimecmp ≠ h'.timerPending .vstimecmp := by
  refine ⟨(Hart.init rv64h false).runFrom rv64h [.csr 0x605 (.write 10#64) 0#64],
    _, ⟨false, _, rfl⟩, rfl, ?_⟩
  rw [Hart.Exact]
  decide

end Clint

end Nnemu

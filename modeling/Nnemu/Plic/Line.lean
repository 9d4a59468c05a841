import Mathlib.Data.List.Nodup
import Nnemu.Hart.External
import Nnemu.Plic.Selection

/-!
# Interrupt lines

The controller writes its output into `mip` of the hart when something changes on its side. `mip`
changes on the side of the hart as well: software writes `SEIP`, and a reset clears it all. The
controller does not notice, and the hart does not ask (`line_exact`).

A context stands for one bit of `mip` of its hart, bit 11 for the machine and bit 9 for the
supervisor. It is written by `context_update`, with which every operation that changes a context
ends (`Updates`), and no two contexts have the same hart and the same bit (`LineOk`). So an
operation of the controller brings the bit of its context up to date and leaves the other bits
alone.

The operations of the hart are those of `Hart.step`, with the exception of the external interrupt
pins, which only the controller drives. `KeepsLine` says for each of them when it takes no pending
interrupt away, and since it is asked of the state before the operation, the theorem goes both ways:
no pending interrupt is ever lost in a run if and only if each of its operations meets the
condition.
-/

namespace Nnemu

/-- What happens to the controller and the harts. Nobody else drives external interrupts. -/
inductive LineOp where
  | plic (op : PlicOp)
  | hart (id : Nat) (op : HartOp) (hop : ¬Hart.DrivesExternal op)

namespace Plic

variable {cfg : Nat → Config} {p : Plic}

/-- One operation of the controller or of a hart. -/
def lineStep (cfg : Nat → Config) (p : Plic) : LineOp → Plic
  | .plic op => p.step op
  | .hart id op _ => { p with harts := Function.update p.harts id ((p.harts id).step (cfg id) op) }

/-- The contexts that `plic_t::plic_t` makes for the harts. -/
def contextLines (cfg : Nat → Config) (ids : List Nat) : List (Nat × Bool) :=
  ids.flatMap fun id => (id, true) :: if (cfg id).isa.table .s then [(id, false)] else []

/-- The machine at first. -/
def lineInit (cfg : Nat → Config) (ids : List Nat) (numIds : Nat) (halted : Nat → Bool) : Plic :=
  init numIds (contextLines cfg ids) fun id => Hart.init (cfg id) (halted id)

/-- A context that has something pending interrupts its hart. -/
def Coherent (p : Plic) : Prop :=
  ∀ i < p.size, p.contextBestPending (p.contexts i) ≠ 0 → p.line i = true

/-- The operations that keep it so: a hart is reset with nothing pending for it, and writes `SEIP`
of `mip` or has nothing pending for its supervisor. -/
def KeepsLine (cfg : Nat → Config) (p : Plic) : LineOp → Prop
  | .plic _ => True
  | .hart id op _ => (p.harts id).aborted = true ∨
    ((∀ halt, op = .reset halt → ∀ i < p.size, (p.contexts i).hart = id →
      p.contextBestPending (p.contexts i) = 0) ∧
      ∀ val, Hart.WritesMipTo (cfg id) (p.harts id) op val → hasBits val mipSeip = false →
        ∀ i < p.size, (p.contexts i).hart = id → (p.contexts i).mmode = false →
          p.contextBestPending (p.contexts i) = 0)

/-! ### The lines of the contexts -/

/-- What always holds: the harts are well formed, and each context has a line of its own, to
supervisors with S only. -/
structure LineOk (cfg : Nat → Config) (p : Plic) : Prop where
  sound : p.view.Sound
  wellFormed : ∀ id, Hart.WellFormed (cfg id) (p.harts id)
  apart : ∀ i < p.size, ∀ k < p.size, (p.contexts i).hart = (p.contexts k).hart →
    (p.contexts i).mmode = (p.contexts k).mmode → i = k
  supervisor : ∀ i < p.size, (p.contexts i).mmode = false →
    (cfg (p.contexts i).hart).isa.table .s = true

/-- The context has the same line. -/
def SameLine (c c' : PlicContext) : Prop :=
  c'.hart = c.hart ∧ c'.mmode = c.mmode

/-- What an operation does to the contexts and the harts: nothing, or it changes one context and
updates its line. -/
inductive Updates (p : Plic) : Plic → Prop
  | same (p' : Plic) (hn : p'.numIds = p.numIds) (hc : p'.contexts = p.contexts)
  (hh : p'.harts = p.harts) : Updates p p'
  | update (q : Plic) (i : Nat) (hi : i < p.size) (hn : q.numIds = p.numIds)
      (hc : ∀ k, k ≠ i → q.contexts k = p.contexts k)
      (hl : SameLine (p.contexts i) (q.contexts i)) (hh : q.harts = p.harts) :
        Updates p (q.contextUpdate i)

theorem Updates.setContext {q : Plic} {i : Nat} {c : PlicContext} (hi : i < p.size)
    (hn : q.numIds = p.numIds)
    (hc : q.contexts = p.contexts) (hh : q.harts = p.harts) (hl : SameLine (p.contexts i) c) :
    Updates p ((q.setContext i c).contextUpdate i) := by
  refine .update _ i hi hn (fun k hk => ?_) ?_ hh
  · exact (Function.update_of_ne hk c q.contexts).trans (congrFun hc k)
  · have hself : (q.setContext i c).contexts i = c := Function.update_self _ _ _
    rw [hself]
    exact hl

/-- The loop over an enable word leaves the line. -/
theorem sameLine_foldl_enableBit (w : Nat) (newVal xorVal : BitVec 32)
    (c₀ c : PlicContext) (h : SameLine c₀ c)
    (l : List Nat) : SameLine c₀ (l.foldl (p.enableBit w newVal xorVal) c) := by
  induction l generalizing c with
  | nil => exact h
  | cons j l ih =>
    refine ih _ ?_
    rw [enableBit]
    split
    · exact h
    · split
      · exact h
      · split
        · exact h
        · exact h

theorem updates_contextEnableWrite (p : Plic) {i : Nat} (hi : i < p.size)
    (offset : Reg) (val : BitVec 32) :
    Updates p (p.contextEnableWrite i offset val) := by
  unfold contextEnableWrite
  extract_lets w c oldVal newVal c₁ c₂
  split
  · exact .same _ rfl rfl rfl
  · exact .setContext hi rfl rfl rfl (sameLine_foldl_enableBit w newVal _ _ c₁ ⟨rfl, rfl⟩ _)

theorem updates_contextRead (p : Plic) {i : Nat} (hi : i < p.size) (offset : Reg) :
    Updates p (p.contextRead i offset).2 := by
  rw [contextRead]
  split
  · exact .same _ rfl rfl rfl
  · split
    · show Updates p (p.contextClaim i).2
      unfold contextClaim
      extract_lets c best p'
      show Updates p ((if _ then _ else _ : Plic).contextUpdate i)
      split
      · exact .setContext hi rfl rfl rfl ⟨rfl, rfl⟩
      · exact .update _ i hi rfl (fun _ _ => rfl) ⟨rfl, rfl⟩ rfl
    · exact .same _ rfl rfl rfl

theorem updates_contextWrite (p : Plic) {i : Nat} (hi : i < p.size) (offset : Reg)
    (val : BitVec 32) :
    Updates p (p.contextWrite i offset val).2 := by
  unfold contextWrite
  extract_lets c
  split
  · exact .setContext hi rfl rfl rfl ⟨rfl, rfl⟩
  · split
    · split
      · exact .setContext hi rfl rfl rfl ⟨rfl, rfl⟩
      · exact .same _ rfl rfl rfl
    · exact .same _ rfl rfl rfl

theorem updates_setInterruptLevel (p : Plic) (id : Nat) (lvl : Bool) :
    Updates p (p.setInterruptLevel id lvl) := by
  unfold setInterruptLevel
  extract_lets prio p'
  split
  · exact .same _ rfl rfl rfl
  · cases hf : p'.firstEnabled id with
    | none => exact .same _ rfl rfl rfl
    | some i =>
      have hi : i < p.size := List.mem_range.1 (List.mem_of_find?_eq_some hf)
      refine .setContext hi rfl rfl rfl ?_
      split
      · exact ⟨rfl, rfl⟩
      · exact ⟨rfl, rfl⟩

/-- **Operations update one line at most.** -/
theorem updates_step (p : Plic) (op : PlicOp) : Updates p (p.step op) := by
  cases op with
  | priorityWrite offset val =>
    rw [step, priorityWrite]
    split
    · exact .same _ rfl rfl rfl
    · exact .same _ rfl rfl rfl
  | contextEnableWrite i offset val =>
    rw [step]
    split
    · rename_i hi
      exact updates_contextEnableWrite p hi offset val
    · exact .same _ rfl rfl rfl
  | contextRead i offset =>
    rw [step]
    split
    · rename_i hi
      exact updates_contextRead p hi offset
    · exact .same _ rfl rfl rfl
  | contextWrite i offset val =>
    rw [step]
    split
    · rename_i hi
      exact updates_contextWrite p hi offset val
    · exact .same _ rfl rfl rfl
  | setInterruptLevel id lvl => exact updates_setInterruptLevel p id lvl

/-- The lines of the contexts stay the same. -/
theorem Updates.sameLine {p' : Plic} (u : Updates p p') (k : Nat) :
    SameLine (p.contexts k) (p'.contexts k) := by
  cases u with
  | same _ hn hc hh =>
    rw [hc]
    exact ⟨rfl, rfl⟩
  | update q i hi hn hc hl hh =>
    show SameLine (p.contexts k) (q.contexts k)
    by_cases hk : k = i
    · rw [hk]
      exact hl
    · rw [hc k hk]
      exact ⟨rfl, rfl⟩

/-- Masked writes of `mip` keep the harts well formed. -/
theorem Updates.wellFormed {p' : Plic} (u : Updates p p')
    (hw : ∀ id, Hart.WellFormed (cfg id) (p.harts id)) (id : Nat) :
    Hart.WellFormed (cfg id) (p'.harts id) := by
  cases u with
  | same _ hn hc hh =>
    rw [hh]
    exact hw id
  | update q i hi hn hc hl hh =>
    have hw := hw id
    rw [← hh] at hw
    show Hart.WellFormed (cfg id) (Function.update q.harts (q.contexts i).hart _ id)
    by_cases hid : id = (q.contexts i).hart
    · rw [hid, Function.update_self]
      rw [hid] at hw
      exact hw.mip _ _
    · rw [Function.update_of_ne hid]
      exact hw

/-- An update leaves the other lines. -/
theorem line_contextUpdate_of_ne {i k : Nat}
    (hne : (p.contexts k).hart = (p.contexts i).hart →
      (p.contexts k).mmode ≠ (p.contexts i).mmode) :
    (p.contextUpdate i).line k = p.line k := by
  show hasBits ((Function.update p.harts (p.contexts i).hart _ (p.contexts k).hart).reg .mip)
    (p.contexts k).pin.mask =
    hasBits ((p.harts (p.contexts k).hart).reg .mip) (p.contexts k).pin.mask
  by_cases hid : (p.contexts k).hart = (p.contexts i).hart
  · -- the other line of the same hart
    have hmask : (p.contexts k).pin.mask &&& (p.contexts i).pin.mask = 0#64 := by
      have hmode := hne hid
      rw [PlicContext.pin, PlicContext.pin]
      cases hk : (p.contexts k).mmode with
      | true =>
        cases hi : (p.contexts i).mmode with
        | true => exact absurd (hk.trans hi.symm) hmode
        | false => rfl
      | false =>
        cases hi : (p.contexts i).mmode with
        | true => rfl
        | false => exact absurd (hk.trans hi.symm) hmode
    rw [hid, Function.update_self]
    show (Bits.replace _ _ _ &&& _ != 0#64) = _
    rw [Bits.and_replace_of_disjoint hmask]
    rfl
  · rw [Function.update_of_ne hid]

/-- **The controller keeps the lines.** -/
theorem Updates.coherent {p' : Plic} (u : Updates p p') (hsize : p'.size = p.size)
    (ok : LineOk cfg p) (hc : p.Coherent) :
    p'.Coherent := by
  cases u with
  | same _ hn hcontexts hh =>
    intro i hi hb
    rw [hcontexts, contextBestPending_congr hn] at hb
    have hl := hc i (hsize ▸ hi) hb
    rw [line] at hl ⊢
    rw [hcontexts, hh]
    exact hl
  | update q i hi hn hcontexts hl hh =>
    intro k hk hb
    have hb : q.contextBestPending (q.contexts k) ≠ 0 := hb
    have hk : k < p.size := hsize ▸ hk
    by_cases hki : k = i
    · subst hki
      rw [line_contextUpdate]
      exact decide_eq_true hb
    · have hne : (q.contexts k).hart = (q.contexts i).hart →
          (q.contexts k).mmode ≠ (q.contexts i).mmode := by
        intro hhart hmode
        rw [hcontexts k hki, hl.1] at hhart
        rw [hcontexts k hki, hl.2] at hmode
        exact hki (ok.apart k hk i hi hhart hmode)
      rw [contextBestPending_congr hn, hcontexts k hki] at hb
      have hline := hc k hk hb
      rw [line_contextUpdate_of_ne hne, line, hcontexts k hki, hh]
      exact hline

/-! ### Harts -/

theorem pin_mask (c : PlicContext) : c.pin.mask = BitVec.twoPow 64 (if c.mmode then 11 else 9) := by
  rw [PlicContext.pin]
  cases c.mmode with
  | true => rfl
  | false => rfl

/-- A line is a bit of `mip`. -/
theorem line_eq (p : Plic) (i : Nat) : p.line i =
    ((p.harts (p.contexts i).hart).reg .mip).getLsbD (if (p.contexts i).mmode then 11 else 9) := by
  have hlt : (if (p.contexts i).mmode then 11 else 9) < 64 := by
    split
    · decide
    · decide
  rw [line, pin_mask, hasBits_twoPow hlt, BitVec.getLsbD_eq_getElem hlt]

/-- The lines of a hart after an event. -/
theorem line_hart (cfg : Nat → Config) (p : Plic) (id : Nat) (op : HartOp)
    (hop : ¬Hart.DrivesExternal op) (i : Nat) :
    (p.lineStep cfg (.hart id op hop)).line i =
      if (p.contexts i).hart = id then
        (((p.harts id).step (cfg id) op).reg .mip).getLsbD (if (p.contexts i).mmode then 11 else 9)
      else p.line i := by
  rw [line_eq, line_eq]
  show ((Function.update p.harts id _ (p.contexts i).hart).reg .mip).getLsbD
    (if (p.contexts i).mmode then 11 else 9) = _
  by_cases hid : (p.contexts i).hart = id
  · rw [if_pos hid, hid, Function.update_self]
  · rw [if_neg hid, Function.update_of_ne hid]

/-- The external interrupts of `mip`, bit by bit. -/
theorem getLsbD_of_sameExternal {h h' : Hart} (s : Hart.SameExternal h h') (mmode : Bool) :
    (h'.reg .mip).getLsbD (if mmode then 11 else 9) =
      (h.reg .mip).getLsbD (if mmode then 11 else 9) := by
  have hbit := congrArg (fun x => BitVec.getLsbD x (if mmode then 11 else 9)) s
  have hext : externalInts.getLsbD (if mmode then 11 else 9) = true := by
    cases mmode with
    | true => rfl
    | false => rfl
  rw [BitVec.getLsbD_and, BitVec.getLsbD_and, hext, Bool.and_true, Bool.and_true] at hbit
  exact hbit

/-- **A hart keeps its lines** unless it is reset or writes `SEIP`. -/
theorem coherent_hart (ok : LineOk cfg p) (hc : p.Coherent) (id : Nat)
    (op : HartOp) (hop : ¬Hart.DrivesExternal op) :
    (p.lineStep cfg (.hart id op hop)).Coherent ↔ p.KeepsLine cfg (.hart id op hop) := by
  -- an event of a hart moves no line of the other harts
  have hcoherent : (p.lineStep cfg (.hart id op hop)).Coherent ↔
    ∀ i < p.size, (p.contexts i).hart = id →
      p.contextBestPending (p.contexts i) ≠ 0 →
        (((p.harts id).step (cfg id) op).reg .mip).getLsbD
          (if (p.contexts i).mmode then 11 else 9) = true := by
    refine ⟨fun h i hi hid hb => ?_, fun h i hi hb => ?_⟩
    · have hline := h i hi hb
      rwa [line_hart, if_pos hid] at hline
    · rw [line_hart]
      split
      · rename_i hid
        exact h i hi hid hb
      · exact hc i hi hb
  have hold (i : Nat) (hi : i < p.size) (hid : (p.contexts i).hart = id)
      (hb : p.contextBestPending (p.contexts i) ≠ 0) :
      ((p.harts id).reg .mip).getLsbD (if (p.contexts i).mmode then 11 else 9) = true := by
    have hline := hc i hi hb
    rwa [line_eq, hid] at hline
  rw [hcoherent, KeepsLine, Hart.step]
  -- an aborted hart takes no event, and keeps its lines
  by_cases hab : (p.harts id).aborted = true
  · rw [if_pos hab]
    exact ⟨fun _ => .inl hab, fun _ => hold⟩
  rw [if_neg hab]
  refine ⟨fun h => .inr ⟨?_, ?_⟩, fun h i hi hid hb => ?_⟩
  -- a reset clears `mip`, so no context of this hart may hold a source
  · rintro halt rfl i hi hid
    by_contra hb
    have hbit := h i hi hid hb
    rw [Hart.event, Hart.mip_reset, BitVec.getLsbD_zero] at hbit
    exact absurd hbit Bool.false_ne_true
  -- of the two external bits a write reaches `SEIP` alone
  · intro val w hval i hi hid hmode
    by_contra hb
    have hbit := h i hi hid hb
    have hs : (p.harts id).extensionEnabled .s = true := by
      rw [(ok.wellFormed id).regs.enabled_s, ← hid]
      exact ok.supervisor i hi hmode
    have hseip : val.getLsbD 9 = false := by
      rw [show mipSeip = BitVec.twoPow 64 9 from rfl, hasBits_twoPow (by decide)] at hval
      rw [BitVec.getLsbD_eq_getElem (by decide)]
      exact hval
    rw [Hart.mip_of_writesMipTo w, hmode, if_neg Bool.false_ne_true, Bits.getLsbD_replace,
      (p.harts id).getLsbD_mipWriteMask.1, hs, if_pos rfl] at hbit
    exact absurd (hbit.symm.trans hseip) (by decide)
  · obtain hab' | ⟨hreset, hwrite⟩ := h
    · exact absurd hab' hab
    -- the other way: a reset, a write to `mip`, and what leaves the register alone
    by_cases hr : ∃ halt, op = .reset halt
    · obtain ⟨halt, rfl⟩ := hr
      exact absurd (hreset halt rfl i hi hid) hb
    by_cases hw : ∃ val, Hart.WritesMipTo (cfg id) (p.harts id) op val
    · obtain ⟨val, w⟩ := hw
      rw [Hart.mip_of_writesMipTo w, Bits.getLsbD_replace]
      cases hmode : (p.contexts i).mmode with
      | true =>
        rw [if_pos rfl, (p.harts id).getLsbD_mipWriteMask.2, if_neg Bool.false_ne_true]
        have hbit := hold i hi hid hb
        rwa [hmode] at hbit
      | false =>
        rw [if_neg Bool.false_ne_true]
        split
        · cases hseip : hasBits val mipSeip with
          | false => exact absurd (hwrite val w hseip i hi hid hmode) hb
          | true =>
            rw [show mipSeip = BitVec.twoPow 64 9 from rfl, hasBits_twoPow (by decide)] at hseip
            rw [BitVec.getLsbD_eq_getElem (by decide)]
            exact hseip
        · have hbit := hold i hi hid hb
          rwa [hmode] at hbit
    · have s : Hart.SameExternal (p.harts id) ((p.harts id).event (cfg id) op) :=
        Hart.sameExternal_event (not_exists.1 hw) (not_exists.1 hr) hop
      rw [getLsbD_of_sameExternal s]
      exact hold i hi hid hb

/-! ### Runs -/

theorem LineOk.step (ok : LineOk cfg p) (op : LineOp) : LineOk cfg (p.lineStep cfg op) := by
  cases op with
  | plic op =>
    have u : Updates p (p.step op) := updates_step p op
    have hsize : (p.step op).size = p.size := congrArg Sources.size (view_step p op)
    refine ⟨sound_step ok.sound op, u.wellFormed ok.wellFormed, fun i hi k hk hhart hmode => ?_,
      fun i hi hmode => ?_⟩
    · rw [lineStep, hsize] at hi hk
      rw [lineStep, (u.sameLine i).1, (u.sameLine k).1] at hhart
      rw [lineStep, (u.sameLine i).2, (u.sameLine k).2] at hmode
      exact ok.apart i hi k hk hhart hmode
    · rw [lineStep, hsize] at hi
      rw [lineStep, (u.sameLine i).2] at hmode
      rw [lineStep, (u.sameLine i).1]
      exact ok.supervisor i hi hmode
  | hart id op hop =>
    refine ⟨ok.sound, fun id' => ?_, ok.apart, ok.supervisor⟩
    show Hart.WellFormed (cfg id') (Function.update p.harts id _ id')
    by_cases hid : id' = id
    · rw [hid, Function.update_self]
      exact (ok.wellFormed id).step op
    · rw [Function.update_of_ne hid]
      exact ok.wellFormed id'

theorem coherent_step (ok : LineOk cfg p) (hc : p.Coherent) (op : LineOp) :
    (p.lineStep cfg op).Coherent ↔ p.KeepsLine cfg op := by
  cases op with
  | plic op =>
    have hsize : (p.step op).size = p.size := congrArg Sources.size (view_step p op)
    exact ⟨fun _ => trivial, fun _ => (updates_step p op).coherent hsize ok hc⟩
  | hart id op hop => exact coherent_hart ok hc id op hop

/-! ### The machine at first -/

/-- Every line is there once. -/
theorem nodup_contextLines (cfg : Nat → Config) {ids : List Nat} (hids : ids.Nodup) :
    (contextLines cfg ids).Nodup := by
  have hfst (id : Nat) (l : Nat × Bool)
      (hl : l ∈ (id, true) :: if (cfg id).isa.table .s then [(id, false)] else []) : l.1 = id := by
    split at hl
    · simp at hl
      obtain rfl | rfl := hl <;> rfl
    · simp at hl
      rw [hl]
  refine List.nodup_flatMap.2 ⟨fun id _ => ?_, hids.imp fun {id id'} hne l hl hl' => ?_⟩
  · split
    · simp
    · simp
  · exact hne ((hfst id l hl).symm.trans (hfst id' l hl'))

/-- Supervisors have a line with S only. -/
theorem supervisor_of_mem (cfg : Nat → Config) {ids : List Nat} {id : Nat}
    (hl : (id, false) ∈ contextLines cfg ids) :
    (cfg id).isa.table .s = true := by
  obtain ⟨id', -, hl⟩ := List.mem_flatMap.1 hl
  split at hl
  · rename_i hs
    obtain rfl : id = id' := by simpa using hl
    exact hs
  · simp at hl

theorem context_lineInit (cfg : Nat → Config) (ids : List Nat) (numIds : Nat)
    (halted : Nat → Bool) {i : Nat}
    (hi : i < (contextLines cfg ids).length) : (lineInit cfg ids numIds halted).contexts i =
      .new ((contextLines cfg ids)[i]).1 ((contextLines cfg ids)[i]).2 := by
  show (((contextLines cfg ids)[i]?).map _).getD _ = _
  rw [List.getElem?_eq_getElem hi]
  rfl

theorem lineOk_init (cfg : Nat → Config) {ids : List Nat} (hids : ids.Nodup)
    (numIds : Nat) (halted : Nat → Bool) :
    LineOk cfg (lineInit cfg ids numIds halted) where
  sound := sound_init _ _ _
  wellFormed id := Hart.wellFormed_init (halted id)
  apart i hi k hk hhart hmode := by
    rw [context_lineInit cfg ids numIds halted hi,
      context_lineInit cfg ids numIds halted hk] at hhart hmode
    exact (nodup_contextLines cfg hids).getElem_inj_iff.1 (Prod.ext hhart hmode)
  supervisor i hi hmode := by
    rw [context_lineInit cfg ids numIds halted hi] at hmode ⊢
    have hmem : (contextLines cfg ids)[i] ∈ contextLines cfg ids := List.getElem_mem hi
    have hmode : ((contextLines cfg ids)[i]).2 = false := hmode
    have heq : (contextLines cfg ids)[i] = (((contextLines cfg ids)[i]).1, false) :=
      Prod.ext rfl hmode
    rw [heq] at hmem
    exact supervisor_of_mem cfg hmem

theorem coherent_init (cfg : Nat → Config) (ids : List Nat) (numIds : Nat) (halted : Nat → Bool) :
    (lineInit cfg ids numIds halted).Coherent := by
  intro i hi hb
  have hv := sound_init numIds (contextLines cfg ids) fun id => Hart.init (cfg id) (halted id)
  obtain ⟨id, hp, -⟩ := (contextBestPending_ne_zero_iff hv i).1 hb
  rw [view_init] at hp
  exact absurd hp Bool.false_ne_true

/-- **No interrupt is lost on the way** exactly in the runs in which no hart is reset while
something is pending for it, and none clears `SEIP` of `mip` while something is pending for its
supervisor. -/
theorem line_exact (cfg : Nat → Config) (ids : List Nat) (hids : ids.Nodup)
    (numIds : Nat) (halted : Nat → Bool)
    (ops : List LineOp) : Run.Always (lineStep cfg) Coherent (lineInit cfg ids numIds halted) ops ↔
      Run.Along (lineStep cfg) (KeepsLine cfg) (lineInit cfg ids numIds halted) ops :=
  Run.always_iff_along (I := LineOk cfg) (fun _ op ok => ok.step op)
    (fun _ op ok hc => coherent_step ok hc op)
    (lineOk_init cfg hids numIds halted) (coherent_init cfg ids numIds halted) ops

/-- A device interrupts a supervisor. -/
def raised : List LineOp :=
  [.plic (.contextEnableWrite 1 0#64 2#32), .plic (.setInterruptLevel 1 true)]

/-- The hart writes 0 to `mip`. -/
def cleared : List LineOp :=
  raised ++ [.hart 0 (.csr 0x344 (.write 0#64) 0#64) id]

theorem line_exact_raised :
    Run.Always (lineStep fun _ => rv64h) Coherent (lineInit (fun _ => rv64h) [0] 2 fun _ => false)
      raised ↔
    Run.Along (lineStep fun _ => rv64h) (KeepsLine fun _ => rv64h)
    (lineInit (fun _ => rv64h) [0] 2 fun _ => false)
      raised :=
  line_exact (fun _ => rv64h) [0] (by decide) 2 (fun _ => false) raised

/-- The interrupt of the supervisor is lost. -/
theorem line_lost :
    ¬(Run.run (lineStep fun _ => rv64h) (lineInit (fun _ => rv64h) [0] 2 fun _ => false)
      cleared).Coherent :=
  fun h => absurd (h 1 (by decide) (by decide)) (by decide)

end Plic

end Nnemu

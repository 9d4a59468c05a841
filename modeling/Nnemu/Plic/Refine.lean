import Nnemu.Plic.Sources
import Nnemu.Sim.Plic

/-!
# The controller by its sources

`Plic.view` reads the bitmaps of the contexts source by source, and `Plic.event` says what an
operation comes to. The operations are those events (`view_step`): the loop over the bits of an
enable word switches each source of the word once, and the double loop of `context_best_pending`
finds the first of the candidates with the highest priority.

The view forgets how the bits are kept. Its four maps on one source (`source_pend`, `source_unpend`,
`source_claim`, `source_complete`) are read off the words of a context once, from the lemmas of
`Lib.Words` on inserting and erasing a bit, and all operations are built of them.

Two loops need an invariant. For `context_enable_write` it is how far the loop has come in the word:
the sources below have been switched and the others are as they were (`source_foldl_enableBit`). For
`context_best_pending` it is that the best so far is the first among the best of the candidates
below (`BestBelow`), which skipping a word without pending bits keeps (`foldl_bestStep_of_zero`).

The registers on the bus come last: an access of four or eight bytes is a list of operations
(`load_run`, `store_run`), so what holds along every run of operations holds whatever software reads
and writes, and `sound_run` gives the invariant of `Plic.Sources` to every controller it can reach.
-/

namespace Nnemu

namespace PlicContext

/-- What a context keeps of one source, taken together. -/
def source (c : PlicContext) (id : Nat) : Source :=
  ⟨c.enable.has id, c.pending.has id, c.claimed.has id, c.pendingPriority id⟩

variable (c : PlicContext) (id id' : Nat)

/-- One source becomes pending. -/
theorem source_pend (prio : BitVec 8) :
    (c.pend id prio).source id' = if id' = id then (c.source id').pend prio else c.source id' := by
  have hpending := Words.has_insert (by decide) c.pending id id'
  by_cases hid : id' = id
  · rw [decide_eq_true hid, Bool.true_or] at hpending
    rw [if_pos hid]
    exact Source.ext rfl hpending rfl (hid ▸ Function.update_self _ _ _)
  · rw [decide_eq_false hid, Bool.false_or] at hpending
    rw [if_neg hid]
    exact Source.ext rfl hpending rfl (Function.update_of_ne hid _ _)

/-- One source is no longer pending. The claim goes with it, and so does the recorded priority. -/
theorem source_unpend : (c.unpend id).source id' = if id' = id then (c.source id').unpend
    else c.source id' := by
  have hpending := Words.has_erase (by decide) c.pending id id'
  have hclaimed := Words.has_erase (by decide) c.claimed id id'
  by_cases hid : id' = id
  · rw [decide_eq_true hid, Bool.not_true, Bool.false_and] at hpending hclaimed
    rw [if_pos hid]
    exact Source.ext rfl hpending hclaimed (hid ▸ Function.update_self _ _ _)
  · rw [decide_eq_false hid, Bool.not_false, Bool.true_and] at hpending hclaimed
    rw [if_neg hid]
    exact Source.ext rfl hpending hclaimed (Function.update_of_ne hid _ _)

/-- One source is claimed: its bit is inserted into the claimed ones. -/
theorem source_claim : source { c with claimed := c.claimed.insert id } id' =
    if id' = id then { c.source id' with claimed := true } else c.source id' := by
  have hclaimed := Words.has_insert (by decide) c.claimed id id'
  by_cases hid : id' = id
  · rw [decide_eq_true hid, Bool.true_or] at hclaimed
    rw [if_pos hid, source, source, hclaimed]
  · rw [decide_eq_false hid, Bool.false_or] at hclaimed
    rw [if_neg hid, source, source, hclaimed]

/-- One source is completed, and its bit is erased. -/
theorem source_complete : source { c with claimed := c.claimed.erase id } id' =
    if id' = id then { c.source id' with claimed := false } else c.source id' := by
  have hclaimed := Words.has_erase (by decide) c.claimed id id'
  by_cases hid : id' = id
  · rw [decide_eq_true hid, Bool.not_true, Bool.false_and] at hclaimed
    rw [if_pos hid, source, source, hclaimed]
  · rw [decide_eq_false hid, Bool.not_false, Bool.true_and] at hclaimed
    rw [if_neg hid, source, source, hclaimed]

/-- A new word of enable bits. -/
theorem source_enable (w : Nat) (val : BitVec 32) :
    source { c with enable := Function.update c.enable w val } id =
    { c.source id with
      enabled := if id / 32 = w then val.getLsbD (id % 32) else c.enable.has id } := by
  rw [source, source, Words.has_update]

end PlicContext

namespace Plic

variable (p : Plic)

/-- The controller source by source. Of the bitmaps it keeps the bits one by one, of the priorities
and thresholds their values; the harts and their interrupt lines are not part of it. -/
def view : Sources where
  size := p.size
  numIds := p.numIds
  priority := p.priority
  threshold i := (p.contexts i).priorityThreshold
  level := p.level.has
  source i := (p.contexts i).source

/-- The bits of an enable word. -/
def enableBits (w : Nat) (val : BitVec 32) (id : Nat) : Option Bool :=
  if id / 32 = w then some (id != 0 && val.getLsbD (id % 32)) else none

/-- What an operation comes to, as an event of the sources. An operation that is refused, because
the context or the source does not exist or the register is none, is `quiet`; a read of the claim
register is a claim where there is something to claim. -/
def event : PlicOp → SourceEvent
  | .priorityWrite offset val =>
    if 0 < wordOf offset ∧ wordOf offset < p.numIds then
      .program (wordOf offset) ((val &&& plicPrioMask).setWidth 8)
    else .quiet
  | .contextEnableWrite i offset val =>
    if i < p.size ∧ wordOf offset < p.numIdsWord then .switch i (enableBits (wordOf offset) val)
      else .quiet
  | .contextRead i offset =>
    if i < p.size ∧ offset = contextClaimOffset ∧ p.contextBestPending (p.contexts i) ≠ 0 then
      .claim i (p.contextBestPending (p.contexts i))
    else .quiet
  | .contextWrite i offset val =>
    if i < p.size then
      if offset = contextThreshold then .threshold i ((val &&& plicPrioMask).setWidth 8)
      else if offset = contextClaimOffset ∧ val.toNat < p.numIds ∧
        (p.contexts i).enable.has val.toNat then
        .complete i val.toNat
      else .quiet
    else .quiet
  | .setInterruptLevel id lvl => if 0 < id ∧ id < p.numIds then .level id lvl else .quiet

variable {p}

/-! ### Enable words -/

/-- What one bit of an enable write does to its source, after the word has been written. -/
def bitEffect (changed on level : Bool) (prio : BitVec 8) (s : Source) : Source :=
  if !changed then s
  else if on && level then s.pend prio
  else if !on then s.unpend
  else s

/-- One round of the loop over an enable word, for bit `j`: its source has the effect of a changed
bit, and every other source is as it was. -/
theorem source_enableBit (w : Nat) (newVal xorVal : BitVec 32) (c : PlicContext)
    (j id : Nat) (hj : j < 32) :
    (p.enableBit w newVal xorVal c j).source id =
      if id = w * 32 + j then
        bitEffect (xorVal.getLsbD j) (newVal.getLsbD j) (p.level.has id)
        (p.priority id) (c.source id)
      else c.source id := by
  rw [enableBit]
  by_cases hid : id = w * 32 + j
  · subst hid
    have hlevel : p.level.has (w * 32 + j) = (p.level w).getLsbD j := by
      rw [Words.has_eq, Nat.mul_comm, Nat.mul_add_div (by decide), Nat.mul_add_mod,
        Nat.div_eq_of_lt hj,
        Nat.mod_eq_of_lt hj, Nat.add_zero]
    rw [if_pos rfl, bitEffect, hlevel]
    split
    · rfl
    · split
      · rw [PlicContext.source_pend, if_pos rfl]
      · split
        · rw [PlicContext.source_unpend, if_pos rfl]
        · rfl
  · rw [if_neg hid]
    split
    · rfl
    · split
      · rw [PlicContext.source_pend, if_neg hid]
      · split
        · rw [PlicContext.source_unpend, if_neg hid]
        · rfl

/-- The loop over the bits, up to `k`. -/
theorem source_foldl_enableBit (w : Nat) (newVal xorVal : BitVec 32) (c : PlicContext)
    (id : Nat) {k : Nat}
    (hk : k ≤ 32) :
    ((List.range k).foldl (p.enableBit w newVal xorVal) c).source id =
      if id / 32 = w ∧ id % 32 < k then
        bitEffect (xorVal.getLsbD (id % 32)) (newVal.getLsbD (id % 32))
        (p.level.has id) (p.priority id) (c.source id)
      else c.source id := by
  induction k with
  | zero => rw [if_neg fun h => Nat.not_lt_zero _ h.2, List.range_zero, List.foldl_nil]
  | succ k ih =>
    rw [List.range_succ, List.foldl_append, List.foldl_cons, List.foldl_nil,
      source_enableBit w newVal xorVal _ k id hk, ih (Nat.le_of_succ_le hk)]
    by_cases hid : id = w * 32 + k
    · have hdiv : id / 32 = w := by omega
      have hmod : id % 32 = k := by omega
      rw [if_pos hid, hmod, if_neg fun h => Nat.lt_irrefl k h.2, if_pos ⟨hdiv, Nat.lt_succ_self k⟩]
    · rw [if_neg hid]
      have hiff : (id / 32 = w ∧ id % 32 < k) ↔ (id / 32 = w ∧ id % 32 < k + 1) := by omega
      simp only [hiff]

/-- A bit of the word and the loop over it switch the source. -/
theorem bitEffect_eq_switch (s : Source) (on level : Bool) (prio : BitVec 8) :
    bitEffect (s.enabled ^^ on) on level prio { s with enabled := on } =
      s.switch on level prio := by
  obtain ⟨enabled, pending, claimed, prio'⟩ := s
  cases enabled <;> cases on <;> cases level <;> rfl

/-! ### The best pending source -/

/-- What the double loop of `context_best_pending` knows after the sources below `k`: the best so
far, unless it is zero, is pending and not claimed, no candidate below has a higher priority, and
none with the same priority comes before it. -/
structure BestBelow (p : Plic) (c : PlicContext) (k : Nat) (best : Nat × BitVec 8) : Prop where
  none : best.1 = 0 → ∀ id, 0 < id → id < k → id < p.numIds → c.pending.has id = true →
    c.claimed.has id = true
  some : best.1 ≠ 0 → best.1 < p.numIds ∧ c.pending.has best.1 = true ∧
    c.claimed.has best.1 = false ∧
    best.2 = c.pendingPriority best.1
  highest : best.1 ≠ 0 → ∀ id, 0 < id → id < k → id < p.numIds → c.pending.has id = true →
    c.claimed.has id = false →
    c.pendingPriority id ≤ best.2 ∧ (c.pendingPriority id = best.2 → best.1 ≤ id)
  below : best.1 ≠ 0 → best.1 < k

/-- One source more. -/
theorem BestBelow.step {c : PlicContext} {k : Nat} {best : Nat × BitVec 8}
    (h : BestBelow p c k best) :
    BestBelow p c (k + 1) (p.bestStep c best k) := by
  rw [bestStep]
  split
  · -- not a candidate
    rename_i hnot
    have hskip : k < p.numIds → c.pending.has k = true → c.claimed.has k = true := by
      intro hlt hp
      rw [decide_eq_false (Nat.not_le.2 hlt), hp] at hnot
      simpa using hnot
    refine ⟨fun h0 id hpos hid hlt hp => ?_, h.some, fun h0 id hpos hid hlt hp hc => ?_,
      fun h0 => Nat.lt_succ_of_lt (h.below h0)⟩
    · obtain hid | rfl := Nat.lt_succ_iff_lt_or_eq.1 hid
      · exact h.none h0 id hpos hid hlt hp
      · exact hskip hlt hp
    · obtain hid | rfl := Nat.lt_succ_iff_lt_or_eq.1 hid
      · exact h.highest h0 id hpos hid hlt hp hc
      · exact absurd ((hskip hlt hp).symm.trans hc) (by decide)
  · rename_i hcand
    rw [Bool.or_eq_true, Bool.or_eq_true, not_or, not_or, decide_eq_true_eq,
      Nat.not_le, Bool.not_eq_true',
      Bool.not_eq_false, Bool.not_eq_true] at hcand
    obtain ⟨⟨hk, hp⟩, hc⟩ := hcand
    split
    · -- the new best
      rename_i hbetter
      refine ⟨fun h0 id hpos hid _ _ => ?_, fun _ => ⟨hk, hp, hc, rfl⟩,
        fun h0 id hpos hid hlt hp' hc' => ?_,
        fun _ => Nat.lt_succ_self k⟩
      · have h0 : k = 0 := h0
        omega
      · obtain hid | rfl := Nat.lt_succ_iff_lt_or_eq.1 hid
        · by_cases hb : best.1 = 0
          · exact absurd ((h.none hb id hpos hid hlt hp').symm.trans hc') (by decide)
          · have hlow := (h.highest hb id hpos hid hlt hp' hc').1
            have hgt : best.2 < c.pendingPriority k := hbetter.resolve_left hb
            have hlow' : c.pendingPriority id < c.pendingPriority k := 
              BitVec.lt_def.2 (Nat.lt_of_le_of_lt (BitVec.le_def.1 hlow) (BitVec.lt_def.1 hgt))
            exact ⟨BitVec.le_of_lt hlow', fun heq => absurd (heq ▸ hlow') (BitVec.lt_irrefl _)⟩
        · exact ⟨BitVec.le_refl _, fun _ => Nat.le_refl _⟩
    · -- the old best is as good
      rename_i hbetter
      rw [not_or, BitVec.not_lt] at hbetter
      obtain ⟨hb, hle⟩ := hbetter
      refine ⟨fun h0 => absurd h0 hb, h.some, fun _ id hpos hid hlt hp' hc' => ?_,
        fun _ => Nat.lt_succ_of_lt (h.below hb)⟩
      obtain hid | rfl := Nat.lt_succ_iff_lt_or_eq.1 hid
      · exact h.highest hb id hpos hid hlt hp' hc'
      · exact ⟨hle, fun _ => Nat.le_of_lt (h.below hb)⟩

/-- All sources below `k`. -/
theorem bestBelow_foldl (p : Plic) (c : PlicContext) (k : Nat) :
    BestBelow p c k ((List.range k).foldl (p.bestStep c) (0, 0#8)) := by
  induction k with
  | zero =>
    exact ⟨fun _ id _ hid => absurd hid (Nat.not_lt_zero id), fun h => absurd rfl h,
      fun h => absurd rfl h,
      fun h => absurd rfl h⟩
  | succ k ih =>
    rw [List.range_succ, List.foldl_append, List.foldl_cons, List.foldl_nil]
    exact ih.step

/-- A word without pending sources is skipped. -/
theorem foldl_bestStep_of_zero {c : PlicContext} {i : Nat} (hz : c.pending i = 0#32)
    (best : Nat × BitVec 8) :
    (List.range 32).foldl (fun best j => p.bestStep c best (i * 32 + j)) best = best := by
  have hstep (best : Nat × BitVec 8) (j : Nat) (hj : j ∈ List.range 32) :
      p.bestStep c best (i * 32 + j) = best := by
    have hj := List.mem_range.1 hj
    have hp : c.pending.has (i * 32 + j) = false := by
      have hdiv : (i * 32 + j) / 32 = i := by omega
      rw [Words.has_eq, hdiv, hz, BitVec.getLsbD_zero]
    rw [bestStep, hp, Bool.not_false, Bool.or_true, Bool.true_or, if_pos rfl]
  generalize hl : List.range 32 = l at hstep
  clear hl
  induction l with
  | nil => rfl
  | cons j l ih =>
    rw [List.foldl_cons, hstep best j List.mem_cons_self]
    exact ih fun best j hj => hstep best j (List.mem_cons_of_mem _ hj)

/-- The double loop is a loop over the sources. -/
theorem contextBestPending_eq (p : Plic) (c : PlicContext) :
    p.contextBestPending c = ((List.range (p.numIdsWord * 32)).foldl (p.bestStep c) (0, 0#8)).1 :=
  by
  rw [contextBestPending, Words.range_mul, List.foldl_flatMap]
  congr 2
  funext best i
  rw [List.foldl_map]
  split
  · rename_i hz
    exact (foldl_bestStep_of_zero hz best).symm
  · rfl

/-- **The best pending source.** -/
theorem isBest_contextBestPending (hv : p.view.Sound) {i : Nat}
    (hb : p.contextBestPending (p.contexts i) ≠ 0) :
    p.view.IsBest i (p.contextBestPending (p.contexts i)) := by
  rw [contextBestPending_eq] at hb ⊢
  have h := bestBelow_foldl p (p.contexts i) (p.numIdsWord * 32)
  obtain ⟨-, hp, hc, hprio⟩ := h.some hb
  have hall (id : Nat) (hid : p.view.Candidate i id) := by
    obtain ⟨hpos, hlt⟩ := hv.pending i id hid.1
    have hlt' : id < p.numIdsWord * 32 := by
      have hlt : id < p.numIds := hlt
      rw [numIdsWord]
      omega
    exact h.highest hb id hpos hlt' hlt hid.1 hid.2
  refine ⟨⟨hp, hc⟩, fun id hid => ?_, fun id hid heq => ?_⟩
  · exact BitVec.le_def.2
      (Nat.le_trans (BitVec.le_def.1 (hall id hid).1) (Nat.le_of_eq (congrArg BitVec.toNat hprio)))
  · exact (hall id hid).2 (heq.trans hprio.symm)

/-- There is a best one when there is a candidate. -/
theorem contextBestPending_eq_zero (hv : p.view.Sound) {i : Nat}
    (hb : p.contextBestPending (p.contexts i) = 0)
    (id : Nat) : ¬p.view.Candidate i id := by
  rw [contextBestPending_eq] at hb
  rintro ⟨hp, hc⟩
  obtain ⟨hpos, hlt⟩ := hv.pending i id hp
  have hlt' : id < p.numIdsWord * 32 := by
    have hlt : id < p.numIds := hlt
    rw [numIdsWord]
    omega
  have hclaimed :=
    (bestBelow_foldl p (p.contexts i) (p.numIdsWord * 32)).none hb id hpos hlt' hlt hp
  exact absurd (hclaimed.symm.trans hc) (by decide)

/-- A context has something to claim exactly where one of its sources is a candidate. -/
theorem contextBestPending_ne_zero_iff (hv : p.view.Sound) (i : Nat) :
    p.contextBestPending (p.contexts i) ≠ 0 ↔ ∃ id, p.view.Candidate i id := by
  refine ⟨fun hb => ⟨_, (isBest_contextBestPending hv hb).candidate⟩, fun ⟨id, hid⟩ hb => ?_⟩
  exact contextBestPending_eq_zero hv hb id hid

/-- The best pending source depends on the context alone. -/
theorem contextBestPending_congr {q : Plic} (hn : q.numIds = p.numIds) (c : PlicContext) :
    q.contextBestPending c = p.contextBestPending c := by
  have hstep : q.bestStep = p.bestStep := by
    funext c best id
    rw [bestStep, bestStep, hn]
  rw [contextBestPending, contextBestPending, numIdsWord, numIdsWord, hn, hstep]

/-! ### Operations -/

/-- Only the harts see an update. -/
theorem view_contextUpdate (p : Plic) (i : Nat) : (p.contextUpdate i).view = p.view := rfl

/-- A change of one context, source by source. -/
theorem source_setContext {i : Nat} {c : PlicContext} {f : Nat → Nat → Source}
    (hc : ∀ id, c.source id = f i id)
    (hother : ∀ k, k ≠ i → ∀ id, (p.contexts k).source id = f k id) :
    (p.setContext i c).view.source = f := by
  funext k id
  show (Function.update p.contexts i c k).source id = f k id
  by_cases hk : k = i
  · rw [hk, Function.update_self]
    exact hc id
  · rw [Function.update_of_ne hk]
    exact hother k hk id

/-- The thresholds are the same where the one of the changed context is. -/
theorem threshold_setContext {i : Nat} {c : PlicContext}
    (hc : c.priorityThreshold = (p.contexts i).priorityThreshold) :
    (p.setContext i c).view.threshold = p.view.threshold := by
  funext k
  show (Function.update p.contexts i c k).priorityThreshold = (p.contexts k).priorityThreshold
  by_cases hk : k = i
  · rw [hk, Function.update_self, hc]
  · rw [Function.update_of_ne hk]

/-- Priorities are programmed for the sources that exist, and source 0 is none. -/
theorem view_priorityWrite (offset : Reg) (val : BitVec 32) :
    (p.priorityWrite offset val).view = p.view.next (p.event (.priorityWrite offset val)) := by
  rw [priorityWrite, event]
  split
  · rfl
  · rfl

/-- The loop leaves the threshold. -/
theorem priorityThreshold_foldl_enableBit (w : Nat) (newVal xorVal : BitVec 32)
    (c : PlicContext) (l : List Nat) :
    (l.foldl (p.enableBit w newVal xorVal) c).priorityThreshold = c.priorityThreshold := by
  induction l generalizing c with
  | nil => rfl
  | cons j l ih =>
    rw [List.foldl_cons, ih, enableBit]
    split
    · rfl
    · split
      · rfl
      · split
        · rfl
        · rfl

/-- The bit of source 0 is masked out. -/
theorem getLsbD_newVal {id w : Nat} (hid : id / 32 = w) (val : BitVec 32) :
    (if w = 0 then val &&& ~~~1#32 else val).getLsbD (id % 32) =
      (id != 0 && val.getLsbD (id % 32)) := by
  have hlt : id % 32 < 32 := Nat.mod_lt id (by decide)
  by_cases h0 : id = 0
  · subst h0
    subst hid
    rw [if_pos rfl, BitVec.getLsbD_and]
    exact Bool.and_false _
  · have hne : (id != 0) = true := bne_iff_ne.2 h0
    rw [hne, Bool.true_and]
    split
    · have hmod : id % 32 ≠ 0 := by omega
      rw [BitVec.getLsbD_and, BitVec.getLsbD_not, BitVec.getLsbD_one, decide_eq_true hlt,
        decide_eq_false hmod]
      simp only [Bool.and_false, Bool.not_false, Bool.and_true]
    · rfl

/-- **An enable write switches the sources of its word.** -/
theorem view_contextEnableWrite (i : Nat) {offset : Reg} (val : BitVec 32)
    (hw : wordOf offset < p.numIdsWord) :
    (p.contextEnableWrite i offset val).view =
      p.view.next (.switch i (enableBits (wordOf offset) val)) := by
  unfold contextEnableWrite
  extract_lets w c oldVal newVal c₁ c₂
  rw [if_neg (Nat.not_le.2 hw), view_contextUpdate]
  have hthreshold : (p.setContext i c₂).view.threshold = p.view.threshold :=
    threshold_setContext (priorityThreshold_foldl_enableBit w newVal _ c₁ _)
  have hsource : (p.setContext i c₂).view.source = p.view.effect
      (.switch i (enableBits w val)) := by
    refine source_setContext (fun id => ?_) fun k hk id => Eq.symm
      (p.view.effect_switch_of_ne fun h => absurd h hk)
    rw [source_foldl_enableBit w newVal _ c₁ id (Nat.le_refl 32),
      PlicContext.source_enable c id w newVal]
    by_cases hid : id / 32 = w
    · have hlt : id % 32 < 32 := Nat.mod_lt id (by decide)
      have hbits : enableBits w val id = some (id != 0 && val.getLsbD (id % 32)) := if_pos hid
      have hold : oldVal.getLsbD (id % 32) = (c.source id).enabled := by
        show (c.enable w).getLsbD (id % 32) = c.enable.has id
        rw [Words.has_eq, hid]
      rw [if_pos ⟨hid, hlt⟩, if_pos hid, BitVec.getLsbD_xor, hold, bitEffect_eq_switch,
        getLsbD_newVal hid,
        Sources.effect_switch p.view i _ hbits]
      rfl
    · have hbits : enableBits w val id = none := if_neg hid
      rw [if_neg fun h => hid h.1, if_neg hid, Sources.effect_switch_of_ne p.view fun _ => hbits]
      rfl
  exact Sources.ext rfl rfl rfl hthreshold rfl hsource

/-- What a claim returns. -/
theorem contextClaim_fst (p : Plic) (i : Nat) :
    (p.contextClaim i).1 = p.contextBestPending (p.contexts i) := rfl

/-- **A claim marks the best source.** -/
theorem view_contextClaim (i : Nat) : (p.contextClaim i).2.view =
    p.view.next (if p.contextBestPending (p.contexts i) ≠ 0 then .claim i
      (p.contextBestPending (p.contexts i))
      else .quiet) := by
  unfold contextClaim
  extract_lets c best p'
  rw [view_contextUpdate]
  show (if _ then _ else _ : Plic).view = _
  by_cases hb : best ≠ 0
  · have hsource : (p.setContext i { c with claimed := c.claimed.insert best }).view.source =
        p.view.effect (.claim i best) := by
      refine source_setContext (fun id => ?_) fun k hk id => (if_neg fun h => hk h.1).symm
      rw [PlicContext.source_claim]
      by_cases hid : id = best
      · rw [if_pos hid]
        exact (if_pos ⟨rfl, hid⟩).symm
      · rw [if_neg hid]
        exact (if_neg fun h => hid h.2).symm
    rw [if_pos hb, if_pos hb]
    exact Sources.ext rfl rfl rfl (threshold_setContext rfl) rfl hsource
  · rw [if_neg hb, if_neg hb]
    rfl

/-- A read of a context is a claim or nothing. -/
theorem view_contextRead (i : Nat) (offset : Reg) (hi : i < p.size) :
    (p.contextRead i offset).2.view = p.view.next (p.event (.contextRead i offset)) := by
  rw [contextRead, event]
  by_cases hclaim : offset = contextClaimOffset
  · have hne : offset ≠ contextThreshold := by
      rw [hclaim]
      decide
    rw [if_neg hne, if_pos hclaim]
    refine Eq.trans (view_contextClaim i) ?_
    simp only [hi, hclaim, true_and]
  · have hskip :
      ¬(i < p.size ∧ offset = contextClaimOffset ∧ p.contextBestPending (p.contexts i) ≠ 0) :=
      fun h => hclaim h.2.1
    rw [if_neg hclaim, if_neg hskip]
    split
    · rfl
    · rfl

/-- A write to a context sets the threshold, completes a source, or is refused. -/
theorem view_contextWrite (i : Nat) (offset : Reg) (val : BitVec 32) (hi : i < p.size) :
    (p.contextWrite i offset val).2.view = p.view.next (p.event (.contextWrite i offset val)) := by
  unfold contextWrite
  extract_lets c
  rw [event, if_pos hi]
  by_cases hthr : offset = contextThreshold
  · have hthreshold (t : BitVec 8) :
      (p.setContext i { c with priorityThreshold := t }).view.threshold =
        Function.update p.view.threshold i t :=
      funext <| Function.apply_update (fun _ => PlicContext.priorityThreshold) p.contexts i _
    have hsource (t : BitVec 8) : (p.setContext i { c with priorityThreshold := t }).view.source =
      p.view.source :=
      source_setContext (fun _ => rfl) fun _ _ _ => rfl
    rw [if_pos hthr, if_pos hthr]
    exact Sources.ext rfl rfl rfl (hthreshold _) rfl (hsource _)
  rw [if_neg hthr, if_neg hthr]
  by_cases hclaim : offset = contextClaimOffset
  · rw [if_pos hclaim]
    by_cases hc : val.toNat < p.numIds ∧ c.enable.has val.toNat = true
    · have hsource : (p.setContext i { c with claimed := c.claimed.erase val.toNat }).view.source =
          p.view.effect (.complete i val.toNat) := by
        refine source_setContext (fun id => ?_) fun k hk id => (if_neg fun h => hk h.1).symm
        rw [PlicContext.source_complete]
        by_cases hid : id = val.toNat
        · rw [if_pos hid]
          exact (if_pos ⟨rfl, hid⟩).symm
        · rw [if_neg hid]
          exact (if_neg fun h => hid h.2).symm
      rw [if_pos hc, if_pos ⟨hclaim, hc⟩]
      exact Sources.ext rfl rfl rfl (threshold_setContext rfl) rfl hsource
    · rw [if_neg hc, if_neg fun h => hc h.2]
      rfl
  · rw [if_neg hclaim, if_neg fun h => hclaim h.1]
    rfl

/-- A level, by sources. -/
theorem has_level (id : Nat) (lvl : Bool) (id' : Nat) :
    (if lvl then p.level.insert id else p.level.erase id).has id' =
      Function.update p.level.has id lvl id' := by
  rw [Function.update_apply]
  cases lvl with
  | true =>
    rw [if_pos rfl, Words.has_insert (by decide)]
    by_cases heq : id' = id
    · rw [if_pos heq, decide_eq_true heq, Bool.true_or]
    · rw [if_neg heq, decide_eq_false heq, Bool.false_or]
  | false =>
    rw [if_neg Bool.false_ne_true, Words.has_erase (by decide)]
    by_cases heq : id' = id
    · rw [if_pos heq, decide_eq_true heq, Bool.not_true, Bool.false_and]
    · rw [if_neg heq, decide_eq_false heq, Bool.not_false, Bool.true_and]

/-- **A level reaches the first context that enables the source.** -/
theorem view_setInterruptLevel (id : Nat) (lvl : Bool) :
    (p.setInterruptLevel id lvl).view = p.view.next (p.event (.setInterruptLevel id lvl)) := by
  unfold setInterruptLevel
  extract_lets prio p'
  rw [event]
  by_cases hid : 0 < id ∧ id < p.numIds
  · have hskip : ¬(id = 0 ∨ p.numIds ≤ id) := by omega
    have hlevel : p'.view.level = Function.update p.view.level id lvl := funext (has_level id lvl)
    have heffect (k id' : Nat) : p.view.effect (.level id lvl) k id' =
        if id' = id ∧ p'.firstEnabled id = some k then
          (if lvl then (p.view.source k id').pend prio else (p.view.source k id').unpend)
        else p.view.source k id' := rfl
    rw [if_neg hskip, if_pos hid]
    cases hf : p'.firstEnabled id with
    | none =>
      rw [hf] at heffect
      refine Sources.ext rfl rfl rfl rfl hlevel (funext fun k => funext fun id' => ?_)
      exact ((heffect k id').trans (if_neg fun h => Option.some_ne_none k h.2.symm)).symm
    | some i =>
      rw [hf] at heffect
      have hthreshold : (p'.setContext i (if lvl then (p'.contexts i).pend id prio
          else (p'.contexts i).unpend id)).view.threshold = p'.view.threshold := by
        refine threshold_setContext ?_
        cases lvl with
        | true => rfl
        | false => rfl
      have hsource : (p'.setContext i (if lvl then (p'.contexts i).pend id prio
          else (p'.contexts i).unpend id)).view.source = p.view.effect (.level id lvl) := by
        refine source_setContext (fun id' => ?_) fun k hk id' => ?_
        · rw [heffect]
          cases lvl with
          | true =>
            rw [if_pos rfl, if_pos rfl, PlicContext.source_pend]
            simp only [and_true]
            rfl
          | false =>
            rw [if_neg Bool.false_ne_true, if_neg Bool.false_ne_true, PlicContext.source_unpend]
            simp only [and_true]
            rfl
        · exact ((heffect k id').trans (if_neg fun h => hk (Option.some.inj h.2).symm)).symm
      exact Sources.ext rfl rfl rfl hthreshold hlevel hsource
  · have hskip : id = 0 ∨ p.numIds ≤ id := by omega
    rw [if_pos hskip, if_neg hid]
    rfl

/-- **The operations are events.** What is seen of the controller after an operation is what the
event of the operation makes of what was seen before. The cases are the operations, and in each the
loops are replaced by what they come to. -/
theorem view_step (p : Plic) (op : PlicOp) : (p.step op).view = p.view.next (p.event op) := by
  cases op with
  | priorityWrite offset val => exact view_priorityWrite offset val
  | contextEnableWrite i offset val =>
    rw [step, event]
    by_cases hi : i < p.size
    · by_cases hw : wordOf offset < p.numIdsWord
      · rw [if_pos hi, if_pos ⟨hi, hw⟩]
        exact view_contextEnableWrite i val hw
      · rw [if_pos hi, if_neg fun h => hw h.2, contextEnableWrite]
        exact congrArg view (if_pos (Nat.not_lt.1 hw))
    · rw [if_neg hi, if_neg fun h => hi h.1]
      rfl
  | contextRead i offset =>
    rw [step]
    by_cases hi : i < p.size
    · rw [if_pos hi]
      exact view_contextRead i offset hi
    · rw [if_neg hi, event, if_neg fun h => hi h.1]
      rfl
  | contextWrite i offset val =>
    rw [step]
    by_cases hi : i < p.size
    · rw [if_pos hi]
      exact view_contextWrite i offset val hi
    · rw [if_neg hi, event, if_neg hi]
      rfl
  | setInterruptLevel id lvl => exact view_setInterruptLevel id lvl

/-- The events of a sound controller are allowed. -/
theorem event_allowed (hv : p.view.Sound) (op : PlicOp) : p.view.Allowed (p.event op) := by
  cases op with
  | priorityWrite offset val =>
    rw [event]
    split
    · assumption
    · trivial
  | contextEnableWrite i offset val =>
    rw [event]
    split
    · rename_i h
      refine ⟨h.1, ?_⟩
      rw [enableBits]
      split
      · simp
      · simp
    · trivial
  | contextRead i offset =>
    rw [event]
    split
    · rename_i h
      exact ⟨h.1, isBest_contextBestPending hv h.2.2⟩
    · trivial
  | contextWrite i offset val =>
    rw [event]
    split
    · rename_i hi
      split
      · exact hi
      · split
        · rename_i h
          exact ⟨hi, h.2.2⟩
        · trivial
    · trivial
  | setInterruptLevel id lvl =>
    rw [event]
    split
    · assumption
    · trivial

/-! ### Accesses -/

/-- A load of a word is an operation at most. -/
theorem loadWord_run (p : Plic) (addr : Reg) : ∃ ops, (p.loadWord addr).2 = Run.run step p ops := by
  unfold loadWord
  extract_lets cntx cntx' found
  have hfound : ∀ val p', found = some (val, p') → ∃ ops, p' = Run.run step p ops := by
    intro val p' h
    simp only [found] at h
    split at h
    · obtain ⟨-, rfl⟩ := Prod.mk.inj (Option.some.inj h)
      exact ⟨[], rfl⟩
    · split at h
      · split at h
        · obtain ⟨-, rfl⟩ := Prod.mk.inj (Option.some.inj h)
          exact ⟨[], rfl⟩
        · exact absurd h (by simp)
      · split at h
        · split at h
          · rename_i hi
            refine ⟨[.contextRead cntx'
              (addr - (BitVec.ofNat 64 (cntx' * contextPerHart) + contextBase))], ?_⟩
            rw [Run.run_cons, Run.run_nil, step, if_pos hi, Option.some.inj h]
          · exact absurd h (by simp)
        · exact absurd h (by simp)
  clear_value found
  cases found with
  | none => exact ⟨[], rfl⟩
  | some r => exact hfound r.1 r.2 rfl

/-- **Loads are runs.** -/
theorem load_run (p : Plic) (addr : Reg) (len : Nat) :
    ∃ ops, (p.load addr len).2 = Run.run step p ops := by
  rw [load]
  split
  · exact loadWord_run p addr
  · split
    · obtain ⟨ops, hops⟩ := loadWord_run p addr
      split
      · rename_i p' heq
        rw [heq] at hops
        exact ⟨ops, hops⟩
      · rename_i low p' heq
        rw [heq] at hops
        obtain ⟨ops', hops'⟩ := loadWord_run p' (addr + 4#64)
        have hrun : (p'.loadWord (addr + 4#64)).2 = Run.run step p (ops ++ ops') := by
          rw [Run.run_append, hops', ← hops]
        split
        · rename_i p'' heq'
          rw [heq'] at hrun
          exact ⟨_, hrun⟩
        · rename_i high p'' heq'
          rw [heq'] at hrun
          exact ⟨_, hrun⟩
    · exact ⟨[], rfl⟩

/-- A store of a word is an operation at most. -/
theorem storeWord_run (p : Plic) (addr : Reg) (bytes : List (BitVec 8)) :
    ∃ ops, (p.storeWord addr bytes).2 = Run.run step p ops := by
  unfold storeWord
  extract_lets val cntx cntx'
  split
  · exact ⟨[.priorityWrite addr val], rfl⟩
  · split
    · split
      · rename_i hi
        exact ⟨[.contextEnableWrite cntx _ val], by rw [Run.run_cons, Run.run_nil, step, if_pos hi]⟩
      · exact ⟨[], rfl⟩
    · split
      · split
        · rename_i hi
          exact ⟨[.contextWrite cntx' _ val], by rw [Run.run_cons, Run.run_nil, step, if_pos hi]⟩
        · exact ⟨[], rfl⟩
      · exact ⟨[], rfl⟩

/-- **Stores are runs.** -/
theorem store_run (p : Plic) (addr : Reg) (bytes : List (BitVec 8)) :
    ∃ ops, (p.store addr bytes).2 = Run.run step p ops := by
  rw [store]
  split
  · exact storeWord_run p addr bytes
  · split
    · obtain ⟨ops, hops⟩ := storeWord_run p addr (bytes.take 4)
      split
      · rename_i p' heq
        rw [heq] at hops
        exact ⟨ops, hops⟩
      · rename_i p' heq
        rw [heq] at hops
        obtain ⟨ops', hops'⟩ := storeWord_run p' (addr + 4#64) (bytes.drop 4)
        exact ⟨ops ++ ops', by rw [Run.run_append, hops', ← hops]⟩
    · exact ⟨[], rfl⟩

/-! ### Reachable controllers -/

/-- At first nothing is enabled, pending or high. -/
theorem view_init (numIds : Nat) (lines : List (Nat × Bool)) (harts : Nat → Hart) :
    (init numIds lines harts).view = Sources.init lines.length numIds := by
  have hnew (o : Option (Nat × Bool)) : (o.map fun l => PlicContext.new l.1 l.2).getD
    (.new 0 true) =
      .new ((o.getD (0, true)).1) ((o.getD (0, true)).2) := by
    cases o with
    | none => rfl
    | some l => rfl
  have hempty (id : Nat) : (Words.empty 32).has id = false := Words.has_empty 32 id
  refine Sources.ext rfl rfl rfl (funext fun i => ?_) (funext hempty)
    (funext fun i => funext fun id => ?_)
  · show PlicContext.priorityThreshold
      ((lines[i]?.map fun l => PlicContext.new l.1 l.2).getD (.new 0 true)) = 0#8
    rw [hnew]
    rfl
  · show PlicContext.source ((lines[i]?.map fun l => PlicContext.new l.1 l.2).getD (.new 0 true))
      id = Source.off
    rw [hnew]
    exact Source.ext (hempty id) (hempty id) (hempty id) rfl

/-- **Sound sources**, in every controller that is reached. -/
theorem sound_step (hv : p.view.Sound) (op : PlicOp) : (p.step op).view.Sound := by
  rw [view_step]
  exact hv.next (event_allowed hv op)

/-- The invariant holds of a new controller. -/
theorem sound_init (numIds : Nat) (lines : List (Nat × Bool)) (harts : Nat → Hart) :
    (init numIds lines harts).view.Sound := by
  rw [view_init]
  exact .init _ _

/-- **Controllers are sound**, in every state that operations lead to. -/
theorem sound_run (numIds : Nat) (lines : List (Nat × Bool)) (harts : Nat → Hart)
    (ops : List PlicOp) :
    (Run.run step (init numIds lines harts) ops).view.Sound :=
  Run.run_induct (I := fun p : Plic => p.view.Sound) (fun _ op hv => sound_step hv op)
    (sound_init numIds lines harts) ops

end Plic

end Nnemu

import Mathlib.Data.List.Induction
import Nnemu.Plic.Refine

/-!
# What is claimed, and when

A claim takes the source that became pending with the highest priority, the first of them
(`claim_takes_best`). The threshold of the context is kept and read back, and nothing compares it
with a priority: a context interrupts its hart, and is given a source, whenever it has any
(`gated_iff`).

Both theorems are about the controller that runs have reached, so that the invariant of
`Plic.Sources` is there: what `context_best_pending` finds is a best candidate, with the priority it
had when it became pending, which a later write to the priority register does not change.
-/

namespace Nnemu

namespace Plic

variable (p : Plic)

/-- The interrupt line of a context, in the `mip` of its hart. -/
def line (i : Nat) : Bool :=
  hasBits ((p.harts (p.contexts i).hart).reg .mip) (p.contexts i).pin.mask

/-- A source that is pending, enabled and unclaimed. -/
structure Claimable (i id : Nat) : Prop where
  pending : (p.contexts i).pending.has id = true
  enabled : (p.contexts i).enable.has id = true
  unclaimed : (p.contexts i).claimed.has id = false

variable {p}

theorem claimable_iff (hv : p.view.Sound) {i id : Nat} : p.Claimable i id ↔ p.view.Candidate i id :=
  ⟨fun h => ⟨h.pending, h.unclaimed⟩, fun h => ⟨h.1, (hv.source i id).enabled h.1, h.2⟩⟩

/-- The claim of a context that has a source is that source or a better one. -/
theorem contextClaim_ne_zero_iff (hv : p.view.Sound) (i : Nat) : (p.contextClaim i).1 ≠ 0 ↔
    ∃ id, p.Claimable i id := by
  rw [contextClaim_fst, contextBestPending_ne_zero_iff hv]
  exact exists_congr fun id => (claimable_iff hv).symm

/-! ### The line -/

/-- An update shows what is pending. -/
theorem line_contextUpdate (p : Plic) (i : Nat) :
    (p.contextUpdate i).line i = decide (p.contextBestPending (p.contexts i) ≠ 0) := by
  have hmask : (p.contexts i).pin.mask ≠ 0#64 := by
    rw [PlicContext.pin]
    split
    · decide
    · decide
  have hharts : (p.contextUpdate i).harts (p.contexts i).hart =
      (p.harts (p.contexts i).hart).writeWithMask .mip (p.contexts i).pin.mask
        (if p.contextBestPending (p.contexts i) ≠ 0 then (p.contexts i).pin.mask else 0#64) :=
    Function.update_self _ _ _
  show hasBits (((p.contextUpdate i).harts (p.contexts i).hart).reg .mip)
    (p.contexts i).pin.mask = _
  rw [hharts, hasBits]
  show (Bits.replace _ _ _ &&& (p.contexts i).pin.mask != 0#64) = _
  rw [Bits.and_replace_of_subset (BitVec.and_self)]
  split
  · rename_i hb
    rw [BitVec.and_self, decide_eq_true hb]
    exact bne_iff_ne.2 hmask
  · rename_i hb
    rw [BitVec.zero_and, decide_eq_false hb]
    rfl

theorem line_contextUpdate_iff (hv : p.view.Sound) (i : Nat) :
    (p.contextUpdate i).line i = true ↔ ∃ id, p.Claimable i id := by
  rw [line_contextUpdate, decide_eq_true_eq]
  exact contextClaim_ne_zero_iff hv i

/-- What a write to the threshold leaves. -/
theorem line_contextWrite_threshold (hv : p.view.Sound) (i : Nat) (val : BitVec 32) :
    (p.contextWrite i contextThreshold val).2.line i = true ↔ ∃ id, p.Claimable i id := by
  rw [contextWrite, if_pos rfl, line_contextUpdate, decide_eq_true_eq]
  have hbest : (p.setContext i { p.contexts i with
      priorityThreshold := (val &&& plicPrioMask).setWidth 8 }).contextBestPending
        ((p.setContext i
          { p.contexts i with priorityThreshold := (val &&& plicPrioMask).setWidth 8 }).contexts
          i) =
      p.contextBestPending (p.contexts i) := by
    show p.contextBestPending (Function.update p.contexts i _ i) = _
    rw [Function.update_self]
    rfl
  rw [hbest]
  exact contextClaim_ne_zero_iff hv i

/-! ### Thresholds -/

variable (p)

/-- A source that a context with threshold `t` should be interrupted by. -/
def Above (i : Nat) (t : BitVec 8) (id : Nat) : Prop :=
  p.Claimable i id ∧ 0#8 < p.priority id ∧ t < p.priority id

/-- The line and the claims of a context answer to what is above its threshold. -/
structure Gated (i : Nat) : Prop where
  line : (p.contextUpdate i).line i = true ↔ ∃ id, p.Above i (p.contexts i).priorityThreshold id
  claim : (p.contextClaim i).1 ≠ 0 ↔ ∃ id, p.Above i (p.contexts i).priorityThreshold id

/-- The line answers to a threshold that is written. -/
def GatedBy (i : Nat) (val : BitVec 32) : Prop :=
  (p.contextWrite i contextThreshold val).2.line i = true ↔
    ∃ id, p.Above i ((val &&& plicPrioMask).setWidth 8) id

variable {p}

/-- **The threshold is not looked at.** The line of a context and its claims are right exactly when
it has no claimable source, or one above the threshold; so is the line after a write to the
threshold. -/
theorem gated_iff (numIds : Nat) (lines : List (Nat × Bool)) (harts : Nat → Hart)
    (ops : List PlicOp) (i : Nat) :
    ((Run.run step (init numIds lines harts) ops).Gated i ↔
      ((∃ id, (Run.run step (init numIds lines harts) ops).Claimable i id) →
        ∃ id, (Run.run step (init numIds lines harts) ops).Above i
          ((Run.run step (init numIds lines harts) ops).contexts i).priorityThreshold id)) ∧
      ∀ val : BitVec 32, (Run.run step (init numIds lines harts) ops).GatedBy i val ↔
        ((∃ id, (Run.run step (init numIds lines harts) ops).Claimable i id) →
          ∃ id, (Run.run step (init numIds lines harts) ops).Above i
          ((val &&& plicPrioMask).setWidth 8) id) := by
  have hv := sound_run numIds lines harts ops
  generalize Run.run step (init numIds lines harts) ops = p at hv ⊢
  have hback {t : BitVec 8} (h : ∃ id, p.Above i t id) : ∃ id, p.Claimable i id :=
    h.imp fun _ ha => ha.1
  refine ⟨⟨fun h hc => h.line.1 ((line_contextUpdate_iff hv i).2 hc), fun h => ⟨?_, ?_⟩⟩,
    fun val => ⟨fun h hc => ?_, fun h => ?_⟩⟩
  · rw [line_contextUpdate_iff hv]
    exact ⟨h, hback⟩
  · rw [contextClaim_ne_zero_iff hv]
    exact ⟨h, hback⟩
  · exact h.1 ((line_contextWrite_threshold hv i val).2 hc)
  · rw [GatedBy, line_contextWrite_threshold hv]
    exact ⟨h, hback⟩

/-- A source of priority 1 below the threshold 7 of the context. -/
def lowPriority : List PlicOp :=
  [.priorityWrite 4#64 1#32, .contextWrite 0 0#64 7#32, .contextEnableWrite 0 0#64 2#32,
    .setInterruptLevel 1 true]

/-- The source interrupts, and is returned. -/
theorem threshold_ignored :
    ¬(Run.run step (init 2 [(0, true)] fun _ => Hart.init rv64h false) lowPriority).Gated 0 := by
  intro h
  obtain ⟨id, -, -, hid⟩ := h.claim.1 (by decide)
  have hthreshold :
    ((Run.run step (init 2 [(0, true)] fun _ => Hart.init rv64h false) lowPriority).contexts
    0).priorityThreshold = 7#8 := by decide
  have hpriority :
    (Run.run step (init 2 [(0, true)] fun _ => Hart.init rv64h false) lowPriority).priority =
    Function.update (fun _ => 0#8) 1 1#8 := rfl
  rw [hthreshold, hpriority, Function.update_apply] at hid
  split at hid
  · exact absurd hid (by decide)
  · exact absurd hid (by decide)

/-! ### Priorities -/

/-- An operation makes a source pending in a context, or pending anew. -/
def Pends (p : Plic) (i id : Nat) (op : PlicOp) : Prop :=
  p.view.Pends (p.event op) i id

/-- One source after an operation. -/
theorem source_step (p : Plic) (op : PlicOp) (i id : Nat) :
    ((p.step op).contexts i).source id = p.view.effect (p.event op) i id :=
  congrArg (fun v => Sources.source v i id) (view_step p op)

/-- The priority that a source has in a context is that of the last operation of the run that made
it pending there. -/
def Sampled (p₀ : Plic) (ops : List PlicOp) (i id : Nat) : Prop :=
  ∃ ops₁ op ops₂, ops = ops₁ ++ op :: ops₂ ∧ (Run.run step p₀ ops₁).Pends i id op ∧
    Run.Along step (fun p op => ¬p.Pends i id op) (Run.run step p₀ (ops₁ ++ [op])) ops₂ ∧
    ((Run.run step p₀ ops).contexts i).pendingPriority id = (Run.run step p₀ ops₁).priority id

/-- **Pending sources have been sampled.** -/
theorem sampled_run (numIds : Nat) (lines : List (Nat × Bool)) (harts : Nat → Hart)
    (ops : List PlicOp) (i id : Nat)
    (hp : ((Run.run step (init numIds lines harts) ops).contexts i).pending.has id = true) :
    Sampled (init numIds lines harts) ops i id := by
  induction ops using List.reverseRecOn with
  | nil =>
    have hoff := congrArg (fun v => (Sources.source v i id).pending) (view_init numIds lines harts)
    exact absurd (hoff.symm.trans hp) Bool.false_ne_true
  | append_singleton ops op ih =>
    have hv := sound_run numIds lines harts ops
    have hlast : Run.run step (init numIds lines harts) (ops ++ [op]) =
        (Run.run step (init numIds lines harts) ops).step op := Run.run_append _ ops [op]
    have hsource := source_step (Run.run step (init numIds lines harts) ops) op i id
    have hprio := congrArg Source.prio hsource
    by_cases hpends : (Run.run step (init numIds lines harts) ops).Pends i id op
    · refine ⟨ops, op, [], rfl, hpends, trivial, ?_⟩
      rw [hlast]
      exact hprio.trans (Sources.Pends.prio hpends)
    · rw [hlast] at hp
      have hpending := (congrArg Source.pending hsource).symm.trans hp
      obtain ⟨h, -⟩ | ⟨hold, heq⟩ :=
        hv.pending_cases (event_allowed hv op) (Sources.becomes_effect _ _ _ _) hpending
      · exact absurd h hpends
      · obtain ⟨ops₁, op₁, ops₂, rfl, hpends₁, halong, hsampled⟩ := ih hold
        refine ⟨ops₁, op₁, ops₂ ++ [op], ?_, hpends₁, ?_, ?_⟩
        · rw [List.append_assoc, List.cons_append]
        · refine (Run.along_append _ _ _).2 ⟨halong, ?_, trivial⟩
          rw [← Run.run_append, List.append_assoc]
          exact hpends
        · rw [hlast]
          exact (hprio.trans heq).trans hsampled

/-- What a claim returns: the first of the claimable sources that became pending with the highest
priority. -/
structure Best (p : Plic) (i id : Nat) : Prop where
  claimable : p.Claimable i id
  highest : ∀ id', p.Claimable i id' →
    (p.contexts i).pendingPriority id' ≤ (p.contexts i).pendingPriority id
  first : ∀ id', p.Claimable i id' →
    (p.contexts i).pendingPriority id' = (p.contexts i).pendingPriority id → id ≤ id'

/-- What a claim read does: it returns the best source if there is any, and marks it. -/
structure ClaimsBest (p : Plic) (i : Nat) : Prop where
  none : (p.contextClaim i).1 = 0 → ∀ id, ¬p.Claimable i id
  best : (p.contextClaim i).1 ≠ 0 → p.Best i (p.contextClaim i).1
  marks : ∀ k id, ((p.contextClaim i).2.contexts k).source id =
    if k = i ∧ id = (p.contextClaim i).1 ∧
      id ≠ 0 then { (p.contexts k).source id with claimed := true }
    else (p.contexts k).source id

theorem claimsBest_of_sound (hv : p.view.Sound) (i : Nat) : p.ClaimsBest i where
  none h id hc := absurd h ((contextClaim_ne_zero_iff hv i).2 ⟨id, hc⟩)
  best h := by
    have hbest := isBest_contextBestPending hv h
    refine ⟨(claimable_iff hv).2 hbest.candidate, fun id hc => ?_, fun id hc => ?_⟩
    · exact hbest.highest id ((claimable_iff hv).1 hc)
    · exact hbest.first id ((claimable_iff hv).1 hc)
  marks k id := by
    have hsource : ((p.contextClaim i).2.contexts k).source id = p.view.effect _ k id :=
      congrArg (fun v => Sources.source v k id) (view_contextClaim i)
    rw [hsource]
    by_cases hb : p.contextBestPending (p.contexts i) ≠ 0
    · rw [if_pos hb]
      show (if k = i ∧ id = p.contextBestPending (p.contexts i) then _ else _) = _
      by_cases hid : k = i ∧ id = p.contextBestPending (p.contexts i)
      · have hid' : k = i ∧ id = (p.contextClaim i).1 ∧ id ≠ 0 := ⟨hid.1, hid.2, hid.2 ▸ hb⟩
        rw [if_pos hid, if_pos hid']
        rfl
      · have hid' : ¬(k = i ∧ id = (p.contextClaim i).1 ∧ id ≠ 0) := fun h => hid ⟨h.1, h.2.1⟩
        rw [if_neg hid, if_neg hid']
        rfl
    · have hid' : ¬(k = i ∧ id = (p.contextClaim i).1 ∧ id ≠ 0) :=
        fun h => hb fun h0 => h.2.2 (h.2.1.trans h0)
      rw [if_neg hb, if_neg hid']
      rfl

/-- **Claims.** In every controller that is reached, a claim returns the first of the claimable
sources of highest priority and marks it claimed, and nothing else; it returns none only if there is
none. The priorities that are compared are those that the registers held when the sources became
pending. -/
theorem claim_takes_best (numIds : Nat) (lines : List (Nat × Bool)) (harts : Nat → Hart)
    (ops : List PlicOp) (i : Nat) :
    (Run.run step (init numIds lines harts) ops).ClaimsBest i ∧
      ∀ id, (Run.run step (init numIds lines harts) ops).Claimable i id →
      Sampled (init numIds lines harts) ops i id :=
  ⟨claimsBest_of_sound (sound_run numIds lines harts ops) i,
    fun id hc => sampled_run numIds lines harts ops i id hc.pending⟩

/-- Source 1 gets a higher priority than source 2 after both have become pending. -/
def latePriority : List PlicOp :=
  [.priorityWrite 4#64 1#32, .priorityWrite 8#64 2#32, .contextEnableWrite 0 0#64 6#32,
    .setInterruptLevel 1 true,
    .setInterruptLevel 2 true, .priorityWrite 4#64 7#32]

/-- Source 2 is returned all the same. -/
theorem priority_stale :
    ¬∀ id, (Run.run step (init 3 [(0, true)] fun _ => Hart.init rv64h false) latePriority).Claimable
      0 id →
      (Run.run step (init 3 [(0, true)] fun _ => Hart.init rv64h false) latePriority).priority id ≤
        (Run.run step (init 3 [(0, true)] fun _ => Hart.init rv64h false) latePriority).priority
          ((Run.run step (init 3 [(0, true)] fun _ => Hart.init rv64h false)
            latePriority).contextClaim 0).1 := by
  intro h
  exact absurd (h 1 ⟨by decide, by decide, by decide⟩) (by decide)

end Plic

end Nnemu

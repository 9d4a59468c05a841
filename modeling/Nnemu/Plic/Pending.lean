import Nnemu.Plic.Refine

/-!
# What is pending

A source should be pending where it is enabled and its level is high, in one context at least. A
level that changes is told to the first context that enables the source only, and a context that
disables a source gives it to no other. So a pending bit outlives the level in the other contexts,
and a source is lost with the context that had it (`Plic.pending_exact` says exactly when).

`KeepsPending` is asked of each event in the state it finds, and `pending_exact` is an equivalence:
in a run from the initial state the pending bits are exact after every operation if and only if each
operation meets its condition.
-/

namespace Nnemu

namespace Sources

variable (v : Sources)

/-- No pending bit is stale, and no source is lost. -/
structure PendingExact : Prop where
  stale : ∀ i id, (v.source i id).pending = true → (v.source i id).enabled = true ∧
    v.level id = true
  lost : ∀ id, v.level id = true → (∃ i, (v.source i id).enabled = true) →
    ∃ i, (v.source i id).enabled = true ∧ (v.source i id).pending = true

/-- The events that keep it so: a level falls where the first context alone has the source pending,
and a context that disables a source whose level is high leaves it to another that has it pending,
if any other enables it. -/
def KeepsPending : SourceEvent → Prop
  | .level id false => ∀ i, (v.source i id).pending = true → v.first id = some i
  | .switch i on => ∀ id, on id = some false → (v.source i id).enabled = true → v.level id = true →
    (∃ k, k ≠ i ∧ (v.source k id).enabled = true) →
      ∃ k, k ≠ i ∧ (v.source k id).enabled = true ∧ (v.source k id).pending = true
  | _ => True

variable {v}

/-- Claims do not matter. -/
theorem PendingExact.congr {v' : Sources} (hx : v.PendingExact) (hlevel : v'.level = v.level)
    (he : ∀ i id, (v'.source i id).enabled = (v.source i id).enabled)
    (hp : ∀ i id, (v'.source i id).pending = (v.source i id).pending) : v'.PendingExact where
  stale i id h := by
    rw [hp] at h
    rw [he, hlevel]
    exact hx.stale i id h
  lost id hl h := by
    rw [hlevel] at hl
    obtain ⟨i, hi⟩ := h
    rw [he] at hi
    obtain ⟨k, hk, hpk⟩ := hx.lost id hl ⟨i, hi⟩
    refine ⟨k, ?_, ?_⟩
    · rw [he]
      exact hk
    · rw [hp]
      exact hpk

/-! ### Levels -/

theorem effect_level (v : Sources) (id : Nat) (lvl : Bool) (i id' : Nat) :
    v.effect (.level id lvl) i id' =
    if id' = id ∧ v.first id = some i then
      (if lvl then (v.source i id').pend (v.priority id) else (v.source i id').unpend)
    else v.source i id' := rfl

/-- A level changes no enable bit. -/
theorem enabled_effect_level (v : Sources) (id : Nat) (lvl : Bool) (i id' : Nat) :
    (v.effect (.level id lvl) i id').enabled = (v.source i id').enabled := by
  rw [effect_level]
  split
  · cases lvl with
    | true => rfl
    | false => rfl
  · rfl

/-- The other sources, and the other contexts. -/
theorem effect_level_of_ne (v : Sources) {id : Nat} (lvl : Bool) {i id' : Nat}
    (h : id' = id → v.first id ≠ some i) :
    v.effect (.level id lvl) i id' = v.source i id' :=
  if_neg fun hc => h hc.1 hc.2

theorem level_next (v : Sources) (id : Nat) (lvl : Bool) (id' : Nat) :
    (v.next (.level id lvl)).level id' = if id' = id then lvl else v.level id' :=
  Function.update_apply v.level id lvl id'

/-- A level leaves the other sources. -/
theorem PendingExact.lost_other (hx : v.PendingExact) {id id' : Nat} {lvl : Bool} (hid : id' ≠ id)
    (hl : (v.next (.level id lvl)).level id' = true)
    (h : ∃ i, ((v.next (.level id lvl)).source i id').enabled = true) :
    ∃ i, ((v.next (.level id lvl)).source i id').enabled = true ∧
      ((v.next (.level id lvl)).source i id').pending = true := by
  have heffect (k : Nat) : (v.next (.level id lvl)).source k id' = v.source k id' :=
    effect_level_of_ne v lvl fun h => absurd h hid
  simp only [heffect] at h ⊢
  rw [level_next, if_neg hid] at hl
  exact hx.lost id' hl h

/-- A rising level. -/
theorem PendingExact.raise (hx : v.PendingExact) (hv : v.Sound) (id : Nat) :
    (v.next (.level id true)).PendingExact where
  stale i id' h := by
    rw [next_source] at h
    rw [next_source, enabled_effect_level, level_next]
    by_cases hid : id' = id
    · rw [if_pos hid]
      refine ⟨?_, rfl⟩
      by_cases hf : v.first id = some i
      · rw [hid]
        exact (enabled_of_first hf).2
      · rw [effect_level_of_ne v true fun _ => hf] at h
        exact (hx.stale i id' h).1
    · rw [effect_level_of_ne v true fun h => absurd h hid] at h
      rw [if_neg hid]
      exact hx.stale i id' h
  lost id' hl h := by
    by_cases hid : id' = id
    · subst hid
      obtain ⟨i, hi⟩ := h
      rw [next_source, enabled_effect_level] at hi
      obtain ⟨k, hf⟩ := exists_first (hv.context i id' hi) hi
      have heffect : v.effect (.level id' true) k id' = (v.source k id').pend (v.priority id') :=
        if_pos ⟨rfl, hf⟩
      refine ⟨k, ?_, ?_⟩
      · rw [next_source, enabled_effect_level]
        exact (enabled_of_first hf).2
      · rw [next_source, heffect]
        rfl
    · exact hx.lost_other hid hl h

/-- **A falling level** is told to the first context only. -/
theorem pendingExact_lower (hx : v.PendingExact) (id : Nat) :
    (v.next (.level id false)).PendingExact ↔ v.KeepsPending (.level id false) := by
  refine ⟨fun hx' i hp => ?_, fun hk => ⟨fun i id' h => ?_, fun id' hl h => ?_⟩⟩
  · by_contra hf
    have heffect : (v.next (.level id false)).source i id = v.source i id :=
      effect_level_of_ne v false fun _ => hf
    have hlevel : (v.next (.level id false)).level id = true := (hx'.stale i id (heffect ▸ hp)).2
    rw [level_next, if_pos rfl] at hlevel
    exact absurd hlevel (by decide)
  · rw [next_source] at h
    rw [next_source, enabled_effect_level, level_next]
    by_cases hid : id' = id
    · subst hid
      by_cases hf : v.first id' = some i
      · have heffect : v.effect (.level id' false) i id' = (v.source i id').unpend :=
          if_pos ⟨rfl, hf⟩
        rw [heffect] at h
        exact absurd h Bool.false_ne_true
      · rw [effect_level_of_ne v false fun _ => hf] at h
        exact absurd (hk i h) hf
    · rw [effect_level_of_ne v false fun h => absurd h hid] at h
      rw [if_neg hid]
      exact hx.stale i id' h
  · by_cases hid : id' = id
    · rw [level_next, if_pos hid] at hl
      exact absurd hl (by decide)
    · exact hx.lost_other hid hl h

/-! ### Enable bits -/

/-- What is enabled and pending after an enable write. -/
theorem pending_effect_switch (hv : v.Sound) (i : Nat) (on : Nat → Option Bool) (k id : Nat) :
    (v.effect (.switch i on) k id).pending =
      if k = i then ((on id).getD (v.source i id).enabled &&
        ((v.source i id).pending || (!(v.source i id).enabled && v.level id)))
          else (v.source k id).pending := by
  by_cases hk : k = i
  · subst hk
    rw [if_pos rfl]
    cases hb : on id with
    | some b =>
      rw [effect_switch v k on hb, Source.pending_switch (hv.source k id)]
      rfl
    | none =>
      rw [effect_switch_of_ne v fun _ => hb, Option.getD_none]
      have he := (hv.source k id).enabled
      cases hp : (v.source k id).pending with
      | true => rw [he hp, Bool.true_or, Bool.and_self]
      | false => rw [Bool.false_or, ← Bool.and_assoc, Bool.and_not_self, Bool.false_and]
  · rw [if_neg hk, effect_switch_of_ne v fun h => absurd h hk]

theorem enabled_effect_switch (v : Sources) (i : Nat) (on : Nat → Option Bool) (k id : Nat) :
    (v.effect (.switch i on) k id).enabled =
      if k = i then (on id).getD (v.source i id).enabled else (v.source k id).enabled := by
  by_cases hk : k = i
  · subst hk
    rw [if_pos rfl]
    cases hb : on id with
    | some b => rw [effect_switch v k on hb, Source.enabled_switch, Option.getD_some]
    | none => rw [effect_switch_of_ne v fun _ => hb, Option.getD_none]
  · rw [if_neg hk, effect_switch_of_ne v fun h => absurd h hk]

/-- **An enable write** gives a source that it disables to no other context. -/
theorem pendingExact_switch (hx : v.PendingExact) (hv : v.Sound) (i : Nat)
    (on : Nat → Option Bool) :
    (v.next (.switch i on)).PendingExact ↔ v.KeepsPending (.switch i on) := by
  refine ⟨fun hx' id hoff _ hl hother => ?_, fun hk => ⟨fun k id h => ?_, fun id hl h => ?_⟩⟩
  · obtain ⟨j, hj, hje⟩ := hother
    have hj' : ((v.next (.switch i on)).source j id).enabled = true := by
      rw [next_source, enabled_effect_switch, if_neg hj]
      exact hje
    obtain ⟨k, hke, hkp⟩ := hx'.lost id hl ⟨j, hj'⟩
    rw [next_source, enabled_effect_switch] at hke
    rw [next_source, pending_effect_switch hv] at hkp
    by_cases hki : k = i
    · rw [if_pos hki, hoff] at hke
      exact absurd hke Bool.false_ne_true
    · rw [if_neg hki] at hke hkp
      exact ⟨k, hki, hke, hkp⟩
  · rw [next_source, pending_effect_switch hv] at h
    rw [next_source, enabled_effect_switch]
    by_cases hki : k = i
    · rw [if_pos hki, Bool.and_eq_true, Bool.or_eq_true, Bool.and_eq_true] at h
      rw [if_pos hki]
      refine ⟨h.1, ?_⟩
      obtain hp | ⟨-, hl⟩ := h.2
      · exact (hx.stale i id hp).2
      · exact hl
    · rw [if_neg hki] at h ⊢
      exact hx.stale k id h
  · have hl : v.level id = true := hl
    obtain ⟨j, hje⟩ := h
    rw [next_source, enabled_effect_switch] at hje
    simp only [next_source, enabled_effect_switch, pending_effect_switch hv]
    by_cases hon : (on id).getD (v.source i id).enabled = true
    · -- the context enables the source afterwards
      by_cases hp : (v.source i id).enabled = true ∧ (v.source i id).pending = false
      · obtain ⟨k, hke, hkp⟩ := hx.lost id hl ⟨i, hp.1⟩
        have hki : k ≠ i := fun h => absurd ((h ▸ hkp).symm.trans hp.2) (by decide)
        exact ⟨k, by rw [if_neg hki]; exact hke, by rw [if_neg hki]; exact hkp⟩
      · refine ⟨i, by rw [if_pos rfl]; exact hon, ?_⟩
        rw [if_pos rfl, hon, hl, Bool.true_and, Bool.and_true]
        cases he : (v.source i id).enabled with
        | false => exact Bool.or_true _
        | true =>
          cases hpend : (v.source i id).pending with
          | true => rfl
          | false => exact absurd ⟨he, hpend⟩ hp
    -- the context does not, and the source has to be pending in another one
    · have hj : j ≠ i := fun h => hon (by rwa [if_pos h] at hje)
      rw [if_neg hj] at hje
      have hsome : ∃ k, k ≠ i ∧ (v.source k id).enabled = true ∧
          (v.source k id).pending = true := by
        cases he : (v.source i id).enabled with
        | true =>
          have hoff : on id = some false := by
            cases hb : on id with
            | none => exact absurd (by rw [hb]; exact he) hon
            | some b =>
              cases b with
              | false => rfl
              | true => exact absurd (by rw [hb]; rfl) hon
          exact hk id hoff he hl ⟨j, hj, hje⟩
        | false =>
          obtain ⟨k, hke, hkp⟩ := hx.lost id hl ⟨j, hje⟩
          exact ⟨k, fun h => absurd ((h ▸ hke).symm.trans he) (by decide), hke, hkp⟩
      obtain ⟨k, hki, hke, hkp⟩ := hsome
      exact ⟨k, by rw [if_neg hki]; exact hke, by rw [if_neg hki]; exact hkp⟩

/-- **Exactly when an event keeps what is pending right.** -/
theorem pendingExact_next (hx : v.PendingExact) (hv : v.Sound) {e : SourceEvent} :
    (v.next e).PendingExact ↔ v.KeepsPending e := by
  have hclaim {i id : Nat} {b : Bool} {e : SourceEvent} (hlevel : (v.next e).level = v.level)
      (he : ∀ k id', v.effect e k id' =
        if k = i ∧ id' = id then { v.source k id' with claimed := b } else v.source k id') :
      (v.next e).PendingExact := by
    refine hx.congr hlevel (fun k id' => ?_) fun k id' => ?_
    · rw [next_source, he]
      split
      · rfl
      · rfl
    · rw [next_source, he]
      split
      · rfl
      · rfl
  cases e with
  | level id lvl =>
    cases lvl with
    | true => exact ⟨fun _ => trivial, fun _ => hx.raise hv id⟩
    | false => exact pendingExact_lower hx id
  | switch i on => exact pendingExact_switch hx hv i on
  | claim i id => exact ⟨fun _ => trivial, fun _ => hclaim rfl fun _ _ => rfl⟩
  | complete i id => exact ⟨fun _ => trivial, fun _ => hclaim rfl fun _ _ => rfl⟩
  | quiet => exact ⟨fun _ => trivial, fun _ => ⟨hx.stale, hx.lost⟩⟩
  | program id prio => exact ⟨fun _ => trivial, fun _ => ⟨hx.stale, hx.lost⟩⟩
  | threshold i val => exact ⟨fun _ => trivial, fun _ => ⟨hx.stale, hx.lost⟩⟩

end Sources

namespace Plic

/-- What is pending is enabled and high, and what is high is pending where it is enabled, if it is
enabled anywhere. -/
structure PendingRight (p : Plic) : Prop where
  stale : ∀ i < p.size, ∀ id, (p.contexts i).pending.has id = true →
    (p.contexts i).enable.has id = true ∧ p.level.has id = true
  lost : ∀ id, p.level.has id = true → (∃ i < p.size, (p.contexts i).enable.has id = true) →
    ∃ i < p.size, (p.contexts i).enable.has id = true ∧ (p.contexts i).pending.has id = true

/-- The operations that keep it so. -/
def KeepsPending (p : Plic) : PlicOp → Prop
  | .setInterruptLevel id false => ∀ i < p.size, (p.contexts i).pending.has id = true →
  p.firstEnabled id = some i
  | .contextEnableWrite i offset val => i < p.size → ∀ id, id / 32 = wordOf offset →
    val.getLsbD (id % 32) = false →
    (p.contexts i).enable.has id = true → p.level.has id = true →
    (∃ k < p.size, k ≠ i ∧ (p.contexts k).enable.has id = true) →
      ∃ k < p.size, k ≠ i ∧ (p.contexts k).enable.has id = true ∧
        (p.contexts k).pending.has id = true
  | _ => True

variable {p : Plic}

theorem pendingRight_iff (hv : p.view.Sound) : p.PendingRight ↔ p.view.PendingExact := by
  refine ⟨fun h => ⟨fun i id hp => ?_, fun id hl he => ?_⟩,
    fun h => ⟨fun i _ id hp => ?_, fun id hl he => ?_⟩⟩
  · exact h.stale i (hv.context i id ((hv.source i id).enabled hp)) id hp
  · obtain ⟨i, hi⟩ := he
    obtain ⟨k, -, hk⟩ := h.lost id hl ⟨i, hv.context i id hi, hi⟩
    exact ⟨k, hk⟩
  · exact h.stale i id hp
  · obtain ⟨i, -, hi⟩ := he
    obtain ⟨k, hk, hp⟩ := h.lost id hl ⟨i, hi⟩
    exact ⟨k, hv.context k id hk, hk, hp⟩

/-- The bits that an enable write clears. -/
theorem enableBits_eq_false {w : Nat} {val : BitVec 32} {id : Nat} (hid : 0 < id) :
    enableBits w val id = some false ↔ id / 32 = w ∧ val.getLsbD (id % 32) = false := by
  have hne : (id != 0) = true := bne_iff_ne.2 (Nat.ne_of_gt hid)
  rw [enableBits, hne, Bool.true_and]
  by_cases hw : id / 32 = w
  · rw [if_pos hw, Option.some_inj]
    exact ⟨fun h => ⟨hw, h⟩, fun h => h.2⟩
  · rw [if_neg hw]
    exact ⟨fun h => absurd h (by simp), fun h => absurd h.1 hw⟩

theorem keepsPending_iff (hv : p.view.Sound) (op : PlicOp) : p.KeepsPending op ↔
    p.view.KeepsPending (p.event op) := by
  cases op with
  | setInterruptLevel id lvl =>
    cases lvl with
    | true =>
      rw [event]
      split
      · exact Iff.rfl
      · exact Iff.rfl
    | false =>
      have hcontext (i : Nat) (hp : (p.contexts i).pending.has id = true) : i < p.size :=
        hv.context i id ((hv.source i id).enabled hp)
      rw [event]
      split
      · exact ⟨fun h i hp => h i (hcontext i hp) hp, fun h i _ hp => h i hp⟩
      · rename_i hid
        exact ⟨fun _ => trivial, fun _ i _ hp => absurd (hv.pending i id hp) hid⟩
  | contextEnableWrite i offset val =>
    -- a level that is up belongs to a real source, whose word the write can reach
    have hlt (id : Nat) (hw : id / 32 = wordOf offset) (hl : p.level.has id = true) :
        0 < id ∧ wordOf offset < p.numIdsWord := by
      obtain ⟨hpos, hid⟩ := hv.level id hl
      have hid : id < p.numIds := hid
      refine ⟨hpos, ?_⟩
      rw [numIdsWord]
      omega
    rw [event]
    split
    · rename_i hi
      refine ⟨fun h id hoff he hl hother => ?_, fun h _ id hw hb he hl hother => ?_⟩
      · have hpos := (hv.level id hl).1
        obtain ⟨hw, hb⟩ := (enableBits_eq_false hpos).1 hoff
        obtain ⟨j, hj, hje⟩ := hother
        obtain ⟨k, -, hk⟩ := h hi.1 id hw hb he hl ⟨j, hv.context j id hje, hj, hje⟩
        exact ⟨k, hk⟩
      · obtain ⟨j, -, hj⟩ := hother
        obtain ⟨k, hki, hke, hkp⟩ :=
          h id ((enableBits_eq_false (hlt id hw hl).1).2 ⟨hw, hb⟩) he hl ⟨j, hj⟩
        exact ⟨k, hv.context k id hke, hki, hke, hkp⟩
    · rename_i hi
      exact ⟨fun _ => trivial, fun _ his id hw _ _ hl _ => absurd ⟨his, (hlt id hw hl).2⟩ hi⟩
  | priorityWrite offset val =>
    rw [event]
    split
    · exact Iff.rfl
    · exact Iff.rfl
  | contextRead i offset =>
    rw [event]
    split
    · exact Iff.rfl
    · exact Iff.rfl
  | contextWrite i offset val =>
    rw [event]
    split
    · split
      · exact Iff.rfl
      · split
        · exact Iff.rfl
        · exact Iff.rfl
    · exact Iff.rfl

theorem pendingRight_step (hv : p.view.Sound) (hp : p.PendingRight) (op : PlicOp) :
    (p.step op).PendingRight ↔ p.KeepsPending op := by
  rw [pendingRight_iff (sound_step hv op), view_step, keepsPending_iff hv]
  exact Sources.pendingExact_next ((pendingRight_iff hv).1 hp) hv

/-- **Pending bits.** They are right in every state of a run exactly when no level falls while
another context than the first has the source pending, and no context disables a source that is high
and leaves it to contexts that do not have it pending. -/
theorem pending_exact (numIds : Nat) (lines : List (Nat × Bool)) (harts : Nat → Hart)
    (ops : List PlicOp) :
    Run.Always step PendingRight (init numIds lines harts) ops ↔
      Run.Along step KeepsPending (init numIds lines harts) ops := by
  have hinit : (init numIds lines harts).PendingRight := by
    refine (pendingRight_iff (sound_init numIds lines harts)).2 ?_
    rw [view_init]
    exact ⟨fun i id h => absurd h Bool.false_ne_true, fun id h => absurd h Bool.false_ne_true⟩
  exact Run.always_iff_along (I := fun p : Plic => p.view.Sound) (fun _ op hv => sound_step hv op)
    (fun _ op hv hp => pendingRight_step hv hp op) (sound_init numIds lines harts) hinit ops

/-- One hart with an M and an S context, and one device. -/
def twoContexts : Plic :=
  init 2 [(0, true), (0, false)] fun _ => Hart.init rv64h false

/-- The level falls while both contexts have the source pending. -/
def staleOps : List PlicOp :=
  [.setInterruptLevel 1 true, .contextEnableWrite 0 0#64 2#32, .contextEnableWrite 1 0#64 2#32,
    .setInterruptLevel 1 false]

/-- The context that has the source pending disables it. -/
def lostOps : List PlicOp :=
  [.contextEnableWrite 0 0#64 2#32, .contextEnableWrite 1 0#64 2#32, .setInterruptLevel 1 true,
    .contextEnableWrite 0 0#64 0#32]

/-- Pending bits go stale, and sources are lost. -/
theorem pending_drifts : ¬(Run.run step twoContexts staleOps).PendingRight ∧
    ¬(Run.run step twoContexts lostOps).PendingRight := by
  refine ⟨fun h => ?_, fun h => ?_⟩
  · have hlevel := (h.stale 1 (by decide) 1 (by decide)).2
    exact absurd hlevel (by decide)
  · obtain ⟨k, hk, -, hp⟩ := h.lost 1 (by decide) ⟨1, by decide, by decide⟩
    have hnone : ∀ k < 2, ((Run.run step twoContexts lostOps).contexts k).pending.has 1 = false :=
      by decide
    exact absurd (hp.symm.trans (hnone k hk)) (by decide)

end Plic

end Nnemu

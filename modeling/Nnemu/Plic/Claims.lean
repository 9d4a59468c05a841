import Nnemu.Plic.Pending

/-!
# Claims

A claim is kept in the context that makes it, and nothing of it is seen by the others. So claims are
exclusive only as long as a source is pending in one context at a time, which is what
`set_interrupt_level` arranges and `context_enable_write` does not look after. `Claims` keeps beside
the controller which sources have been returned and not given back.

The condition is asked of each operation in the state it finds (`Plic.KeepsApart`): a level rises
while no context but the first has the source pending, and a context switches a source on whose
level is high only while no other has it pending. Where all operations of a run meet it, a source is
pending in one context at most (`Apart`), and from this a claim finds no other claim of the same
source open (`Exclusive`).

The run is over the controller of `Sim.Plic`, and what is proved is about its view:
`KeepsApart.event` carries the condition over, `Apart.next` and `Covers.next` are the steps, and
`Good` is the invariant they make.
-/

namespace Nnemu

namespace Sources

variable (v : Sources)

/-- At most one context has a source pending. -/
def Apart : Prop :=
  ∀ i k id, (v.source i id).pending = true → (v.source k id).pending = true → i = k

/-- The events that keep it so: a source becomes pending where no other context has it pending. -/
def KeepsApart : SourceEvent → Prop
  | .level id true => ∀ i, v.first id = some i → ∀ k, k ≠ i → (v.source k id).pending = false
  | .switch i on => ∀ id, on id = some true → (v.source i id).enabled = false → v.level id = true →
    ∀ k, k ≠ i → (v.source k id).pending = false
  | _ => True

variable {v}

/-- Nobody has what another context gets. -/
theorem KeepsApart.eq_of_pending {e : SourceEvent} (hk : v.KeepsApart e)
    {i id : Nat} (h : v.Pends e i id) {k : Nat}
    (hp : (v.source k id).pending = true) : i = k := by
  by_contra hne
  have hnot : (v.source k id).pending = false := by
    obtain ⟨rfl, hf⟩ | ⟨hen, hl, on, rfl, hon⟩ := h
    · exact hk i hf k (Ne.symm hne)
    · exact hk id hon hen hl k (Ne.symm hne)
  exact absurd (hp.symm.trans hnot) (by decide)

/-- An event makes a source pending in one context only. -/
theorem Pends.eq {e : SourceEvent} {i k id : Nat} (hi : v.Pends e i id) (hk : v.Pends e k id) :
    i = k := by
  obtain ⟨rfl, hfi⟩ | ⟨-, -, on, rfl, -⟩ := hi
  · obtain ⟨-, hfk⟩ | ⟨-, -, on, heq, -⟩ := hk
    · exact Option.some.inj (hfi.symm.trans hfk)
    · exact absurd heq (by simp)
  · obtain ⟨heq, -⟩ | ⟨-, -, on', heq, -⟩ := hk
    · exact absurd heq (by simp)
    · injection heq

theorem Apart.next (ha : v.Apart) (hv : v.Sound) {e : SourceEvent} (he : v.Allowed e)
    (hk : v.KeepsApart e) :
    (v.next e).Apart := by
  intro i k id hpi hpk
  obtain ⟨hpi, -⟩ | ⟨hpi, -⟩ := hv.pending_cases he (becomes_effect v e i id) hpi
  · obtain ⟨hpk, -⟩ | ⟨hpk, -⟩ := hv.pending_cases he (becomes_effect v e k id) hpk
    · exact hpi.eq hpk
    · exact hk.eq_of_pending hpi hpk
  · obtain ⟨hpk, -⟩ | ⟨hpk, -⟩ := hv.pending_cases he (becomes_effect v e k id) hpk
    · exact (hk.eq_of_pending hpk hpi).symm
    · exact ha i k id hpi hpk

/-! ### What has been returned -/

/-- What is held after an event: a claim lasts until the context completes it or disables the
source, or until the level falls. -/
def holds (held : Nat → Nat → Bool) : SourceEvent → Nat → Nat → Bool
  | .claim i id => fun k id' => decide (k = i ∧ id' = id) || held k id'
  | .complete i id => fun k id' => !decide (k = i ∧ id' = id) && held k id'
  | .switch i on => fun k id' => !decide (k = i ∧ on id' = some false) && held k id'
  | .level id false => fun k id' => !decide (id' = id) && held k id'
  | _ => held

/-- What is held is claimed. -/
def Covers (v : Sources) (held : Nat → Nat → Bool) : Prop :=
  ∀ i id, held i id = true → (v.source i id).claimed = true

/-- **Claimed bits last as long as claims.** -/
theorem Covers.next {held : Nat → Nat → Bool} (hc : v.Covers held) (hv : v.Sound)
    (e : SourceEvent) :
    (v.next e).Covers (holds held e) := by
  intro i id hh
  rw [next_source]
  have hold := hc i id
  cases e with
  | claim k id' =>
    have hh : (decide (i = k ∧ id = id') || held i id) = true := hh
    rw [effect]
    split
    · rfl
    · rename_i hne
      rw [decide_eq_false hne, Bool.false_or] at hh
      exact hold hh
  | complete k id' =>
    have hh : (!decide (i = k ∧ id = id') && held i id) = true := hh
    rw [Bool.and_eq_true, Bool.not_eq_true', decide_eq_false_iff_not] at hh
    rw [effect, if_neg hh.1]
    exact hold hh.2
  | switch k on =>
    have hh : (!decide (i = k ∧ on id = some false) && held i id) = true := hh
    rw [Bool.and_eq_true, Bool.not_eq_true', decide_eq_false_iff_not, not_and] at hh
    have hclaimed := hold hh.2
    by_cases hk : i = k
    · subst hk
      cases hb : on id with
      | none => rwa [effect_switch_of_ne v fun _ => hb]
      | some b =>
        -- the source has been enabled
        have hen := (hv.source i id).enabled ((hv.source i id).pending hclaimed)
        cases b with
        | false => exact absurd hb (hh.1 rfl)
        | true => rwa [effect_switch v i on hb, Source.switch, if_pos hen]
    · rwa [effect_switch_of_ne v fun h => absurd h hk]
  | level id' lvl =>
    cases lvl with
    | true =>
      rw [effect_level]
      split
      · exact hold hh
      · exact hold hh
    | false =>
      have hh : (!decide (id = id') && held i id) = true := hh
      rw [Bool.and_eq_true, Bool.not_eq_true', decide_eq_false_iff_not] at hh
      rw [effect_level_of_ne v false fun h => absurd h hh.1]
      exact hold hh.2
  | quiet => exact hold hh
  | program id' prio => exact hold hh
  | threshold k val => exact hold hh

end Sources

/-- The controller, with the sources that contexts have been returned and not given back. -/
structure Claims where
  plic : Plic
  held : Nat → Nat → Bool

namespace Claims

/-- One operation. -/
def step (s : Claims) (op : PlicOp) : Claims :=
  ⟨s.plic.step op, Sources.holds s.held (s.plic.event op)⟩

/-- Nothing has been returned. -/
def init (numIds : Nat) (lines : List (Nat × Bool)) (harts : Nat → Hart) : Claims :=
  ⟨.init numIds lines harts, fun _ _ => false⟩

/-- No source is claimed in two contexts, nor held by two, and no claim returns a source that is
held. -/
structure Exclusive (s : Claims) : Prop where
  claimed : ∀ i k id, (s.plic.contexts i).claimed.has id = true →
    (s.plic.contexts k).claimed.has id = true → i = k
  held : ∀ i k id, s.held i id = true → s.held k id = true → i = k
  returned : ∀ i < s.plic.size, (s.plic.contextClaim i).1 ≠ 0 →
    ∀ k, s.held k (s.plic.contextClaim i).1 = false

end Claims

/-- The operations that make a source pending in no second context. -/
def Plic.KeepsApart (p : Plic) : PlicOp → Prop
  | .setInterruptLevel id true => ∀ i, p.firstEnabled id = some i →
    ∀ k < p.size, k ≠ i → (p.contexts k).pending.has id = false
  | .contextEnableWrite i offset val => i < p.size → ∀ id, id / 32 = wordOf offset →
    val.getLsbD (id % 32) = true →
    (p.contexts i).enable.has id = false → p.level.has id = true →
    ∀ k < p.size, k ≠ i → (p.contexts k).pending.has id = false
  | _ => True

namespace Plic

variable {p : Plic}

/-- The events of these operations. -/
theorem KeepsApart.event (hv : p.view.Sound) {op : PlicOp} (h : p.KeepsApart op) :
    p.view.KeepsApart (p.event op) := by
  have other {k id : Nat} (hnot : k < p.size → (p.contexts k).pending.has id = false) :
      (p.view.source k id).pending = false := by
    cases hp : (p.view.source k id).pending with
    | false => rfl
    | true =>
      have hfalse := hnot (hv.context k id ((hv.source k id).enabled hp))
      exact absurd (hp.symm.trans hfalse) (by decide)
  cases op with
  | setInterruptLevel id lvl =>
    rw [Plic.event]
    split
    · cases lvl with
      | true => exact fun i hf k hk => other fun hlt => h i hf k hlt hk
      | false => trivial
    · trivial
  | contextEnableWrite i offset val =>
    rw [Plic.event]
    split
    · rename_i hi
      intro id hon hen hl k hk
      rw [enableBits] at hon
      split at hon
      · rename_i hw
        have hbit := (Bool.and_eq_true_iff.1 (Option.some.inj hon)).2
        exact other fun hlt => h hi.1 id hw hbit hen hl k hlt hk
      · exact absurd hon (by simp)
    · trivial
  | priorityWrite offset val =>
    rw [Plic.event]
    split
    · trivial
    · trivial
  | contextRead i offset =>
    rw [Plic.event]
    split
    · trivial
    · trivial
  | contextWrite i offset val =>
    rw [Plic.event]
    split
    · split
      · trivial
      · split
        · trivial
        · trivial
    · trivial

end Plic

namespace Claims

variable {s : Claims}

/-- What the steps of a run keep. -/
structure Good (s : Claims) : Prop where
  sound : s.plic.view.Sound
  apart : s.plic.view.Apart
  covers : s.plic.view.Covers s.held

theorem Good.step (h : s.Good) {op : PlicOp} (hop : s.plic.KeepsApart op) : (s.step op).Good where
  sound := Plic.sound_step h.sound op
  apart := by
    rw [Claims.step, Plic.view_step]
    exact h.apart.next h.sound (Plic.event_allowed h.sound op) (hop.event h.sound)
  covers := by
    rw [Claims.step, Plic.view_step]
    exact h.covers.next h.sound _

theorem Good.exclusive (h : s.Good) : s.Exclusive := by
  have hclaimed (i k id : Nat) (hi : (s.plic.view.source i id).claimed = true)
      (hk : (s.plic.view.source k id).claimed = true) : i = k :=
    h.apart i k id ((h.sound.source i id).pending hi) ((h.sound.source k id).pending hk)
  refine ⟨hclaimed, fun i k id hi hk => hclaimed i k id (h.covers i id hi) (h.covers k id hk),
    fun i _ hne k => ?_⟩
  rw [Plic.contextClaim_fst] at hne ⊢
  obtain ⟨hp, hc⟩ := (Plic.isBest_contextBestPending h.sound hne).candidate
  cases hheld : s.held k (s.plic.contextBestPending (s.plic.contexts i)) with
  | false => rfl
  | true =>
    have hk := h.covers k _ hheld
    have heq : i = k := h.apart i k _ hp ((h.sound.source k _).pending hk)
    rw [← heq] at hk
    exact absurd (hk.symm.trans hc) (by decide)

theorem good_init (numIds : Nat) (lines : List (Nat × Bool)) (harts : Nat → Hart) :
    (init numIds lines harts).Good where
  sound := Plic.sound_init numIds lines harts
  apart := by
    rw [init, Plic.view_init]
    exact fun i k id h => absurd h Bool.false_ne_true
  covers := fun _ _ h => absurd h Bool.false_ne_true

/-- **Claims are exclusive** in every run in which no source becomes pending in a second context: no
source is claimed by two contexts, and none is returned again before it is completed or disabled by
the context that has it, or lowered. -/
theorem claims_exclusive (numIds : Nat) (lines : List (Nat × Bool)) (harts : Nat → Hart)
    (ops : List PlicOp)
    (hops : Run.Along step (fun s op => s.plic.KeepsApart op) (init numIds lines harts) ops) :
    Run.Always step Exclusive (init numIds lines harts) ops :=
  Run.Always.of_step (fun _ _ h hop => h.step hop) (fun _ h => h.exclusive)
    (good_init numIds lines harts) hops

/-- A device, its interrupt, and the claim of it. -/
def oneClaim : List PlicOp :=
  [.contextEnableWrite 0 0#64 2#32, .setInterruptLevel 1 true, .contextRead 0 4#64,
    .contextWrite 0 4#64 1#32]

theorem claims_exclusive_oneClaim :
    Run.Always step Exclusive (init 2 [(0, true), (0, false)] fun _ => Hart.init rv64h false)
      oneClaim := by
  refine claims_exclusive 2 _ _ oneClaim ⟨fun _ id _ _ _ hl => ?_, fun i _ k hk _ => ?_,
    trivial, trivial, trivial⟩
  · exact absurd ((Words.has_empty 32 id).symm.trans hl) Bool.false_ne_true
  · have hnone : ∀ k < 2,
    ((Run.run Plic.step Plic.twoContexts [.contextEnableWrite 0 0#64 2#32]).contexts k).pending.has
        1 = false := by decide
    exact hnone k hk

/-- The source is high, both contexts enable it, and both claim it. -/
def twoClaims : List PlicOp :=
  [.setInterruptLevel 1 true, .contextEnableWrite 0 0#64 2#32, .contextEnableWrite 1 0#64 2#32,
    .contextRead 0 4#64,
    .contextRead 1 4#64]

/-- Two contexts hold one source. -/
theorem claims_collide :
    ¬(Run.run step (init 2 [(0, true), (0, false)] fun _ => Hart.init rv64h false)
      twoClaims).Exclusive := by
  intro h
  exact absurd (h.claimed 0 1 1 (by decide) (by decide)) (by decide)

end Claims

end Nnemu

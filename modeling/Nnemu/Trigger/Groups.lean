import Nnemu.Lib.Chains
import Nnemu.Trigger.Match

/-!
# Chains of triggers

`detect_memory_access_match` goes through the triggers once, with a boolean that says whether the
chain at hand has matched so far. What it finds is the last trigger of a maximal chain all of whose
triggers match: of those the one with the largest action, and of these the first (`detect_chains`).

Positions are linked where a trigger has `chain` set and is not the last one, and a chain is good
when all its triggers match (`Lib.Chains`). The loop knows of the chain at hand one boolean, and the
choice between chains is the largest action, kept as the loop goes on.
-/

namespace Nnemu

namespace Triggers

open Trigger Chains

variable (env : MatchEnv) (operation : Operation) (address : Reg) (data : Option Reg)
  (ts : List Trigger)

/-- The trigger at a position has its chain bit set. -/
def Chained (k : Nat) : Prop := ∃ t, ts[k]? = some t ∧ t.getChain = true

/-- What the trigger at a position finds by itself. -/
def resultAt (k : Nat) : Option MatchResult :=
  ts[k]?.bind fun t => (t.detectMemoryAccessMatch env operation address data).2

/-- The trigger at a position matches individually. -/
def Matches (k : Nat) : Prop := (resultAt env operation address data ts k).isSome = true

/-- The action of the trigger at a position, when it matches. -/
def actionAt (k : Nat) : Nat :=
  ((resultAt env operation address data ts k).map fun r => r.action.toNat).getD 0

/-- Triggers `i` to `j` are a maximal chain. -/
structure MaximalChain (i j : Nat) : Prop extends Maximal (Chained ts) i j where
  inside : j < ts.length

/-- The triggers `i` to `j` match individually. -/
def ChainMatches (i j : Nat) : Prop :=
  ∀ k, i ≤ k → k ≤ j → Matches env operation address data ts k

/-- The best result among the chains that are complete below `n`. -/
def BestBelow (n : Nat) (ret : Option MatchResult) : Prop :=
  (ret = none ∧ ∀ j, j < n → ¬ Complete (Chained ts) (Matches env operation address data ts) j) ∨
    ∃ j r, ret = some r ∧ resultAt env operation address data ts j = some r ∧
      Best (Complete (Chained ts) (Matches env operation address data ts))
        (actionAt env operation address data ts) n j

variable {env operation address data ts}

/-! ### One trigger -/

theorem chained_iff {n : Nat} {t : Trigger} (ht : ts[n]? = some t) : Chained ts n ↔
    t.getChain = true := by
  constructor
  · rintro ⟨u, hu, hchain⟩
    rw [ht] at hu
    cases hu
    exact hchain
  · intro hchain
    exact ⟨t, ht, hchain⟩

variable (env operation address data) in
theorem resultAt_eq {n : Nat} {t : Trigger} (ht : ts[n]? = some t) :
    resultAt env operation address data ts n =
      (t.detectMemoryAccessMatch env operation address data).2 := by
  rw [resultAt, ht, Option.bind_some]

theorem matches_iff {n : Nat} {t : Trigger} (ht : ts[n]? = some t) :
    Matches env operation address data ts n ↔
    (t.detectMemoryAccessMatch env operation address data).2.isSome = true := by
  rw [Matches, resultAt_eq _ _ _ _ ht]

/-- A trigger that completes no chain leaves the best result. -/
theorem BestBelow.skip {n : Nat} {ret : Option MatchResult}
    (h : BestBelow env operation address data ts n ret)
    (hn : ¬ Complete (Chained ts) (Matches env operation address data ts) n) :
    BestBelow env operation address data ts (n + 1) ret := by
  obtain ⟨hret, hnone⟩ | ⟨j, r, hret, hj, hbest⟩ := h
  · refine .inl ⟨hret, fun j hj => ?_⟩
    obtain hlt | rfl := Nat.lt_or_eq_of_le (Nat.le_of_lt_succ hj)
    · exact hnone j hlt
    · exact hn
  · exact .inr ⟨j, r, hret, hj, hbest.skip fun hp => absurd hp hn⟩

/-- The result of a trigger that completes a chain is compared with the best one. -/
theorem BestBelow.complete {n : Nat} {ret : Option MatchResult} {r : MatchResult}
    (h : BestBelow env operation address data ts n ret)
    (hn : Complete (Chained ts) (Matches env operation address data ts) n)
    (hr : resultAt env operation address data ts n = some r) :
    BestBelow env operation address data ts (n + 1) (if better ret (some r) then some r else ret) :=
  by
  have hrank : actionAt env operation address data ts n = r.action.toNat :=
    by rw [actionAt, hr]; rfl
  obtain ⟨rfl, hnone⟩ | ⟨j, r', rfl, hj, hbest⟩ := h
  · have hbetter : better none (some r) = true := rfl
    rw [if_pos hbetter]
    exact .inr ⟨n, r, rfl, hr, Best.of_first hnone hn⟩
  · have hrank' : actionAt env operation address data ts j = r'.action.toNat :=
      by rw [actionAt, hj]; rfl
    by_cases hlt : r'.action.toNat < r.action.toNat
    · have hbetter : better (some r') (some r) = true := decide_eq_true hlt
      rw [if_pos hbetter]
      exact .inr ⟨n, r, rfl, hr, hbest.replace hn (by rw [hrank, hrank']; exact hlt)⟩
    · have hbetter : better (some r') (some r) ≠ true := by
        intro hb
        exact hlt (of_decide_eq_true hb)
      rw [if_neg hbetter]
      exact .inr ⟨j, r', rfl, hj, hbest.skip fun _ => by rw [hrank, hrank']; omega⟩

/-! ### The loop -/

/-- The trigger the loop has come to. -/
theorem of_drop {n : Nat} {t : Trigger} {rest : List Trigger} (h : ts.drop n = t :: rest) :
    ts[n]? = some t ∧ ts.drop (n + 1) = rest := by
  rw [← List.head?_drop, ← List.tail_drop, h]
  exact ⟨rfl, rfl⟩

/-- What `chain_ok` becomes at a trigger that is skipped. -/
theorem sound_skip {n : Nat} {t : Trigger} (ht : ts[n]? = some t)
    (h : ¬ Sound (Chained ts) (Matches env operation address data ts) n) :
    (!t.getChain) = true ↔ Sound (Chained ts) (Matches env operation address data ts) (n + 1) := by
  rw [sound_succ, chained_iff ht, Bool.not_eq_true', ← Bool.not_eq_true]
  exact ⟨fun hno hc => absurd hc hno, fun hs hc => h (hs hc).2⟩

/-- What it becomes at a trigger that is asked. -/
theorem sound_ask {n : Nat} {t : Trigger} (ht : ts[n]? = some t)
    (h : Sound (Chained ts) (Matches env operation address data ts) n) :
    ((t.detectMemoryAccessMatch env operation address data).2.isSome || !t.getChain) = true ↔
      Sound (Chained ts) (Matches env operation address data ts) (n + 1) := by
  rw [sound_succ, chained_iff ht, matches_iff ht, Bool.or_eq_true, Bool.not_eq_true',
    ← Bool.not_eq_true]
  tauto

/-- The best result after a trigger that is asked. -/
theorem BestBelow.ask {n : Nat} {t : Trigger} {ret : Option MatchResult} (ht : ts[n]? = some t)
    (hsound : Sound (Chained ts) (Matches env operation address data ts) n)
    (hret : BestBelow env operation address data ts n ret) :
    BestBelow env operation address data ts (n + 1)
      (if !t.getChain && better ret (t.detectMemoryAccessMatch env operation address data).2 then
        (t.detectMemoryAccessMatch env operation address data).2 else ret) := by
  have hcomplete : Complete (Chained ts) (Matches env operation address data ts) n ↔
      t.getChain = false ∧ (t.detectMemoryAccessMatch env operation address data).2.isSome =
        true := by
    rw [← matches_iff ht, ← Bool.not_eq_true, ← chained_iff ht]
    exact ⟨fun h => ⟨h.last, h.here⟩, fun h => ⟨h.1, h.2, hsound⟩⟩
  have hat := resultAt_eq env operation address data ht
  generalize (t.detectMemoryAccessMatch env operation address data).2 = found at hcomplete hat ⊢
  cases hc : t.getChain with
  | true =>
    rw [Bool.not_true, Bool.false_and, if_neg Bool.false_ne_true]
    refine hret.skip fun h => ?_
    rw [(hcomplete.1 h).1] at hc
    cases hc
  | false =>
    rw [Bool.not_false, Bool.true_and]
    cases found with
    | none =>
      have hworse : better ret none = false := by cases ret <;> rfl
      rw [hworse, if_neg Bool.false_ne_true]
      exact hret.skip fun h => absurd (hcomplete.1 h).2 Bool.false_ne_true
    | some r => exact hret.complete (hcomplete.2 ⟨hc, rfl⟩) hat

variable (env operation address data) in
/-- The loop from position `n` on, when `chain_ok` says whether the chain that is open there has
matched. -/
theorem detectLoop_best (rest : List Trigger) : ∀ n chainOk ret, ts.drop n = rest →
    (chainOk = true ↔ Sound (Chained ts) (Matches env operation address data ts) n) →
    BestBelow env operation address data ts n ret →
    BestBelow env operation address data ts (n + rest.length)
      (detectLoop env operation address data chainOk ret rest).2 := by
  induction rest with
  | nil =>
    intro n chainOk ret _ _ hret
    cases chainOk <;> exact hret
  | cons t rest ih =>
    intro n chainOk ret hdrop hok hret
    obtain ⟨ht, hnext⟩ := of_drop hdrop
    have hlen : n + (t :: rest).length = n + 1 + rest.length := by
      rw [List.length_cons]
      omega
    rw [hlen]
    cases chainOk with
    | false =>
      have hunsound : ¬ Sound (Chained ts) (Matches env operation address data ts) n :=
        fun h => Bool.false_ne_true (hok.2 h)
      exact ih (n + 1) _ ret hnext (sound_skip ht hunsound) (hret.skip fun h => hunsound h.sound)
    | true => exact ih (n + 1) _ _ hnext (sound_ask ht (hok.1 rfl)) (hret.ask ht (hok.1 rfl))

variable (env operation address data) in
/-- The triggers the loop leaves behind: one that was not left alone was asked, and its chain had
matched so far. -/
theorem detectLoop_hits (rest : List Trigger) : ∀ n chainOk ret, ts.drop n = rest →
    (chainOk = true ↔ Sound (Chained ts) (Matches env operation address data ts) n) →
    ∀ m t', (detectLoop env operation address data chainOk ret rest).1[m]? = some t' →
      ∃ t, rest[m]? = some t ∧ (t' = t ∨
        t' = (t.detectMemoryAccessMatch env operation address data).1 ∧
          Sound (Chained ts) (Matches env operation address data ts) (n + m)) := by
  induction rest with
  | nil =>
    intro n chainOk ret _ _ m t' hm
    cases chainOk <;> simp [detectLoop] at hm
  | cons t rest ih =>
    intro n chainOk ret hdrop hok m t' hm
    obtain ⟨ht, hnext⟩ := of_drop hdrop
    cases m with
    | zero =>
      cases chainOk with
      | false => exact ⟨t, rfl, .inl (Option.some.inj hm).symm⟩
      | true => exact ⟨t, rfl, .inr ⟨(Option.some.inj hm).symm, hok.1 rfl⟩⟩
    | succ m =>
      have hpos : n + (m + 1) = n + 1 + m := by omega
      rw [hpos]
      cases chainOk with
      | false =>
        have hunsound : ¬ Sound (Chained ts) (Matches env operation address data ts) n :=
          fun h => Bool.false_ne_true (hok.2 h)
        exact ih (n + 1) _ ret hnext (sound_skip ht hunsound) m t' hm
      | true => exact ih (n + 1) _ _ hnext (sound_ask ht (hok.1 rfl)) m t' hm

/-! ### The whole list -/

/-- A complete chain is a maximal one whose triggers match. -/
theorem complete_iff_chain {j : Nat} :
    Complete (Chained ts) (Matches env operation address data ts) j ↔
    ∃ i, MaximalChain ts i j ∧ ChainMatches env operation address data ts i j := by
  rw [complete_iff]
  refine exists_congr fun i => ⟨fun h => ⟨⟨h.1, ?_⟩, h.2⟩, fun h => ⟨h.1.toMaximal, h.2⟩⟩
  have hj := h.2 j h.1.le (Nat.le_refl j)
  by_contra hout
  rw [Matches, resultAt, List.getElem?_eq_none (Nat.not_lt.1 hout)] at hj
  cases hj

variable (operation address data ts) in
/-- The best result below the end of the list. -/
theorem bestBelow_detect (hdebug : env.debugMode = false) :
    BestBelow env operation address data ts ts.length
      (Triggers.detectMemoryAccessMatch env operation address data ts).2 := by
  rw [Triggers.detectMemoryAccessMatch, hdebug, if_neg Bool.false_ne_true]
  have h := detectLoop_best env operation address data ts 0 true none rfl
    (iff_of_true rfl sound_zero) (.inl ⟨rfl, fun j hj => absurd hj (Nat.not_lt_zero j)⟩)
  rw [Nat.zero_add] at h
  exact h

/-- There is a result when some maximal chain matches. -/
theorem detect_isSome_iff (hdebug : env.debugMode = false) :
    (Triggers.detectMemoryAccessMatch env operation address data ts).2.isSome = true ↔
      ∃ i j, MaximalChain ts i j ∧ ChainMatches env operation address data ts i j := by
  have hbest := bestBelow_detect operation address data ts hdebug
  constructor
  · intro hsome
    obtain ⟨hnone, -⟩ | ⟨j, r, -, -, hj⟩ := hbest
    · rw [hnone] at hsome
      cases hsome
    · obtain ⟨i, h⟩ := complete_iff_chain.1 hj.mem
      exact ⟨i, j, h⟩
  · rintro ⟨i, j, h⟩
    obtain ⟨-, hno⟩ | ⟨j', r, hr, -⟩ := hbest
    · exact absurd (complete_iff_chain.2 ⟨i, h⟩) (hno j h.1.inside)
    · rw [hr]
      rfl

/-- The result is that of the last trigger of the best chain. -/
theorem detect_eq_some (hdebug : env.debugMode = false) {r : MatchResult}
    (hr : (Triggers.detectMemoryAccessMatch env operation address data ts).2 = some r) :
    ∃ i j, MaximalChain ts i j ∧ ChainMatches env operation address data ts i j ∧
      resultAt env operation address data ts j = some r ∧
      ∀ i' j', MaximalChain ts i' j' → ChainMatches env operation address data ts i' j' →
        actionAt env operation address data ts j' ≤ r.action.toNat ∧
          (j' < j → actionAt env operation address data ts j' < r.action.toNat) := by
  obtain ⟨hnone, -⟩ | ⟨j, r', hr', hj, hbest⟩ :=
    bestBelow_detect operation address data ts hdebug
  · rw [hnone] at hr
    cases hr
  · rw [hr'] at hr
    cases hr
    have haction : actionAt env operation address data ts j = r.action.toNat :=
      by rw [actionAt, hj]; rfl
    obtain ⟨i, hmax, hmatches⟩ := complete_iff_chain.1 hbest.mem
    refine ⟨i, j, hmax, hmatches, hj, fun i' j' hmax' hmatches' => ?_⟩
    have hcomplete := complete_iff_chain.2 ⟨i', hmax', hmatches'⟩
    rw [← haction]
    exact ⟨hbest.le j' hmax'.inside hcomplete, fun hlt => hbest.first j' hlt hcomplete⟩

/-- A trigger that detection changed is one that was asked, after all earlier ones of its chain had
matched. -/
theorem detect_hits (hdebug : env.debugMode = false) {k : Nat} {t' : Trigger}
    (hk : (Triggers.detectMemoryAccessMatch env operation address data ts).1[k]? = some t') :
    ∃ t, ts[k]? = some t ∧ (t' = t ∨
      t' = (t.detectMemoryAccessMatch env operation address data).1 ∧
        ∀ i, i < k → Reaches (Chained ts) i k → Matches env operation address data ts i) := by
  rw [Triggers.detectMemoryAccessMatch, hdebug, if_neg Bool.false_ne_true] at hk
  have h := detectLoop_hits env operation address data ts 0 true none rfl
    (iff_of_true rfl sound_zero) k t' hk
  rw [Nat.zero_add] at h
  exact h

/-- **Detection finds the best chain.** There is a result exactly when all triggers of some maximal
chain match; it is the result of the last trigger of such a chain with the largest action, of the
first of these chains; and a trigger whose `hit` bit detection sets has all earlier triggers of its
chain matching. -/
theorem detect_chains (env : MatchEnv) (operation : Operation) (address : Reg)
    (data : Option Reg) (ts : Triggers)
    (hdebug : env.debugMode = false) :
    ((ts.detectMemoryAccessMatch env operation address data).2.isSome = true ↔
      ∃ i j, MaximalChain ts i j ∧ ChainMatches env operation address data ts i j) ∧
    (∀ r, (ts.detectMemoryAccessMatch env operation address data).2 = some r →
      ∃ i j, MaximalChain ts i j ∧ ChainMatches env operation address data ts i j ∧
        resultAt env operation address data ts j = some r ∧
        ∀ i' j', MaximalChain ts i' j' → ChainMatches env operation address data ts i' j' →
          actionAt env operation address data ts j' ≤ r.action.toNat ∧
            (j' < j → actionAt env operation address data ts j' < r.action.toNat)) ∧
    ∀ k t', (ts.detectMemoryAccessMatch env operation address data).1[k]? = some t' →
      ∃ t, ts[k]? = some t ∧ (t' = t ∨
        t' = (t.detectMemoryAccessMatch env operation address data).1 ∧
          ∀ i, i < k → Reaches (Chained ts) i k → Matches env operation address data ts i) :=
  ⟨detect_isSome_iff hdebug, fun _ => detect_eq_some hdebug, fun _ _ => detect_hits hdebug⟩

/-- A hart in M-mode. -/
def machineEnv : MatchEnv where
  xlen := .rv64
  constS := true
  constU := true
  enabledH := false
  debugMode := false
  prv := prvM
  v := false
  scontext := 0#64
  satp := 0#64
  mcontext := 0#64
  hgatp := 0#64

/-- Two triggers for loads from address 0, the first chained to the second. -/
def chainedPair : Triggers :=
  [ofMcontrol machineEnv.toEnv 0x841#64 true, ofMcontrol machineEnv.toEnv 0x41#64 true]

/-- A load from there finds a chain. -/
theorem detect_chains_pair : ∃ i j, MaximalChain chainedPair i j ∧
    ChainMatches machineEnv .load 0#64 none chainedPair i j :=
  (detect_chains machineEnv .load 0#64 none chainedPair rfl).1.1 (by decide)

end Triggers

end Nnemu

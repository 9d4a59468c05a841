import Nnemu.Lib.Run
import Nnemu.Trigger.Basic

/-!
# Chains and the debugger's triggers

A trigger with `dmode` set belongs to the debugger. A trigger in front of it with `chain` set gates
it, so such a trigger must belong to the debugger too. `tdata1_write` enforces this from both sides:
it refuses to set `dmode` behind a chaining trigger of the program, and it clears `chain` on a write
in front of a debugger's trigger. The second rule looks at `dmode` in the value as written, before
the write outside debug mode clears it; a program that writes `dmode = 1` keeps its `chain`.

What gates a trigger is the trigger in front of it. The invariant is that no trigger of the program
gates one of the debugger's (`NoGate`), and the slip is in one field of one write, so the condition
of the theorem names that write: outside debug mode, of a value with `dmode` and `chain` set, in
front of a trigger of the debugger.
-/

namespace Nnemu

namespace Triggers

open Trigger

/-- No trigger of the program gates a trigger of the debugger. -/
def NoGate (ts : Triggers) : Prop :=
  ∀ i t t', ts[i]? = some t → ts[i + 1]? = some t' →
    ¬ (t.getDmode = false ∧ t.getChain = true ∧ t'.getDmode = true)

/-! ### What a write stores -/

@[simp] theorem getDmode_tdata2Write (t : Trigger) (v : Reg) :
    (t.tdata2Write v).getDmode = t.getDmode := rfl

@[simp] theorem getChain_tdata2Write (t : Trigger) (v : Reg) :
    (t.tdata2Write v).getChain = t.getChain := rfl

@[simp] theorem getDmode_tdata3Write (t : Trigger) (env : Env) (v : Reg) :
    (t.tdata3Write env v).getDmode = t.getDmode := rfl

@[simp] theorem getChain_tdata3Write (t : Trigger) (env : Env) (v : Reg) :
    (t.tdata3Write env v).getChain = t.getChain := rfl

/-- The bit of `dmode` after the write outside debug mode has cleared it. -/
theorem hasBits_maskDmode (env : Env) (val : Reg) :
    hasBits (maskDmode env val) (tdata1Dmode env.xlen) =
      (env.debugMode && hasBits val (tdata1Dmode env.xlen)) := by
  unfold maskDmode
  cases hd : env.debugMode with
  | true => simp
  | false =>
    simp only [Bool.not_false, if_true, setField_zero, hasBits_and, Bool.false_and]
    rw [BitVec.and_comm, BitVec.and_not_self]
    exact hasBits_zero val

/-- Clearing `dmode` leaves the chain bit. -/
theorem hasBits_maskDmode_chain (env : Env) (val : Reg) :
    hasBits (maskDmode env val) mcontrolChain = hasBits val mcontrolChain := by
  have hdisj : ∀ xlen, ~~~tdata1Dmode xlen &&& mcontrolChain = mcontrolChain := by
    intro xlen
    cases xlen <;> decide
  unfold maskDmode
  split
  · rw [setField_zero, hasBits_and, hdisj]
  · rfl

/-- Every trigger type takes `dmode` from the value it is given, which is masked outside debug
mode. -/
theorem getDmode_ofType (env : Env) (type val : Reg) (allowChain : Bool) :
    (ofType env type (maskDmode env val) allowChain).getDmode =
      (env.debugMode && hasBits val (tdata1Dmode env.xlen)) := by
  have hmask := hasBits_maskDmode env val
  unfold ofType
  split
  · exact hmask
  · split
    · simp [ofIcount, getDmode, hmask]
    · split
      · exact hmask
      · split
        · exact hmask
        · split <;> exact hmask

/-- Only the two match-control types have a chain bit, and only when it is allowed. -/
theorem getChain_ofType {env : Env} {type val : Reg} {allowChain : Bool}
    (h : (ofType env type val allowChain).getChain = true) :
    allowChain = true ∧ hasBits val mcontrolChain = true ∧
      (type = typeMcontrol ∨ type = typeMcontrol6) := by
  have hmc : ∀ masks action, (mcontrolOf env masks action val allowChain).chain = true →
      allowChain = true ∧ hasBits val mcontrolChain = true := by
    intro masks action hc
    cases allowChain with
    | false => exact absurd hc (by simp [mcontrolOf])
    | true => exact ⟨rfl, hc⟩
  unfold ofType at h
  split at h
  case isTrue ht =>
    obtain ⟨ha, hc⟩ := hmc _ _ h
    exact ⟨ha, hc, .inl ht⟩
  case isFalse =>
    split at h
    · exact absurd h (by simp [ofIcount, getChain])
    · split at h
      · exact absurd h (by simp [ofItrigger, ofTrap, getChain])
      · split at h
        · exact absurd h (by simp [ofEtrigger, ofTrap, getChain])
        · split at h
          case isTrue ht =>
            obtain ⟨ha, hc⟩ := hmc _ _ h
            exact ⟨ha, hc, .inr ht⟩
          case isFalse => exact absurd h (by simp [ofDisabled, getChain])

/-! ### Runs of writes -/

/-- A write to one of the three data registers of trigger `index`, with the state of the hart in
which it is made. -/
inductive Write where
  | tdata1 (env : Env) (index : Nat) (val : Reg)
  | tdata2 (env : Env) (index : Nat) (val : Reg)
  | tdata3 (env : Env) (index : Nat) (val : Reg)

/-- The triggers after a write; a write the code ignores changes nothing. -/
def write (ts : Triggers) : Write → Triggers
  | .tdata1 env index val => (ts.tdata1Write env index val).getD ts
  | .tdata2 env index val => (ts.tdata2Write env index val).getD ts
  | .tdata3 env index val => (ts.tdata3Write env index val).getD ts

/-- The write that slips through: outside debug mode, a match-control value with `dmode` and `chain`
set, to a trigger in front of one of the debugger's. -/
def Slips (ts : Triggers) : Write → Prop
  | .tdata1 env index val =>
    env.debugMode = false ∧ hasBits val (tdata1Dmode env.xlen) = true ∧
      hasBits val mcontrolChain = true ∧
      (getField val (tdata1Type env.xlen) = typeMcontrol ∨
        getField val (tdata1Type env.xlen) = typeMcontrol6) ∧
      (∃ t, ts[index]? = some t ∧ t.getDmode = false) ∧
      ∃ t', ts[index + 1]? = some t' ∧ t'.getDmode = true
  | _ => False

/-- Replacing a trigger by one with the same two bits gates nothing new. -/
theorem NoGate.set_congr {ts : Triggers} (h : NoGate ts) {index : Nat} {old new : Trigger}
    (hold : ts[index]? = some old) (hd : new.getDmode = old.getDmode)
    (hc : new.getChain = old.getChain) : NoGate (ts.set index new) := by
  have hget : ∀ (i : Nat) (t : Trigger), (ts.set index new)[i]? = some t →
      ∃ t₀ : Trigger, ts[i]? = some t₀ ∧ t.getDmode = t₀.getDmode ∧ t.getChain = t₀.getChain := by
    intro i t ht
    rw [List.getElem?_set] at ht
    split at ht
    · rename_i heq
      subst heq
      split at ht
      · obtain rfl := Option.some.inj ht
        exact ⟨old, hold, hd, hc⟩
      · exact absurd ht (by simp)
    · exact ⟨t, ht, rfl, rfl⟩
  intro i t t' ht ht'
  obtain ⟨t₀, h₀, hd₀, hc₀⟩ := hget i t ht
  obtain ⟨t₁, h₁, hd₁, -⟩ := hget (i + 1) t' ht'
  rw [hd₀, hc₀, hd₁]
  exact h i t₀ t₁ h₀ h₁

/-- Replacing a trigger gates nothing new when the new one neither becomes the debugger's behind a
chaining trigger nor chains in front of the debugger's. -/
theorem NoGate.set {ts : Triggers} (h : NoGate ts) {index : Nat} {new : Trigger}
    (hprev : ts.prevChains index = true → new.getDmode = false)
    (hnext : ∀ t', ts[index + 1]? = some t' → t'.getDmode = true →
      ¬ (new.getDmode = false ∧ new.getChain = true)) : NoGate (ts.set index new) := by
  intro i t t' ht ht'
  rw [List.getElem?_set] at ht ht'
  rintro ⟨hd, hc, hd'⟩
  split at ht
  · -- the new trigger is the one in front
    rename_i heq
    subst heq
    split at ht
    · obtain rfl := Option.some.inj ht
      rw [if_neg (by omega)] at ht'
      exact hnext t' ht' hd' ⟨hd, hc⟩
    · exact absurd ht (by simp)
  · split at ht'
    · -- the new trigger is the one behind
      rename_i heq
      split at ht'
      · obtain rfl := Option.some.inj ht'
        have hp : ts.prevChains index = true := by
          rw [heq]
          simp [prevChains, ht, hd, hc]
        rw [hprev hp] at hd'
        exact absurd hd' (by decide)
      · exact absurd ht' (by simp)
    · exact h i t t' ht ht' ⟨hd, hc, hd'⟩

theorem noGate_tdata1Write {ts ts' : Triggers} {env : Env} {index : Nat} {val : Reg}
    (h : NoGate ts) (hslip : ¬ Slips ts (.tdata1 env index val))
    (hw : ts.tdata1Write env index val = some ts') : NoGate ts' := by
  unfold tdata1Write at hw
  split at hw
  · exact absurd hw (by simp)
  · rename_i old hold
    split at hw
    case isTrue => exact absurd hw (by simp)
    case isFalse hdbg =>
      dsimp only at hw
      split at hw
      case isTrue => exact absurd hw (by simp)
      case isFalse hprev =>
        obtain rfl := Option.some.inj hw
        apply h.set
        · intro hp
          rw [hp, Bool.true_and, Bool.not_eq_true] at hprev
          rw [hasBits_maskDmode] at hprev
          simpa [getDmode_ofType] using hprev
        · intro t' ht' hd'
          simp only [getDmode_tdata3Write, getDmode_tdata2Write, getChain_tdata3Write,
            getChain_tdata2Write, getDmode_ofType]
          rintro ⟨hd, hc⟩
          obtain ⟨hallow, hchain, htype⟩ := getChain_ofType hc
          -- chaining was allowed, so the written value has `dmode` set
          have hval : hasBits val (tdata1Dmode env.xlen) = true := by
            simpa [allowChain, ht', hd'] using hallow
          rw [hval, Bool.and_true] at hd
          rw [hasBits_maskDmode_chain] at hchain
          have hold' : old.getDmode = false := by simpa [hd] using hdbg
          exact hslip ⟨hd, hval, hchain, htype, ⟨old, hold, hold'⟩, t', ht', hd'⟩

theorem noGate_tdata2Write {ts ts' : Triggers} {env : Env} {index : Nat} {val : Reg}
    (h : NoGate ts) (hw : ts.tdata2Write env index val = some ts') : NoGate ts' := by
  unfold tdata2Write at hw
  split at hw
  · exact absurd hw (by simp)
  · rename_i old hold
    split at hw
    · exact absurd hw (by simp)
    · obtain rfl := Option.some.inj hw
      exact h.set_congr hold rfl rfl

theorem noGate_tdata3Write {ts ts' : Triggers} {env : Env} {index : Nat} {val : Reg}
    (h : NoGate ts) (hw : ts.tdata3Write env index val = some ts') : NoGate ts' := by
  unfold tdata3Write at hw
  split at hw
  · exact absurd hw (by simp)
  · rename_i old hold
    split at hw
    · exact absurd hw (by simp)
    · obtain rfl := Option.some.inj hw
      exact h.set_congr hold rfl rfl

/-- A write that does not slip through keeps the debugger's triggers ungated. -/
theorem noGate_write {ts : Triggers} (w : Write) (h : NoGate ts) (hslip : ¬ Slips ts w) :
    NoGate (write ts w) := by
  cases w with
  | tdata1 env index val =>
    cases hw : ts.tdata1Write env index val with
    | none => simpa [write, hw] using h
    | some ts' => simpa [write, hw] using noGate_tdata1Write h hslip hw
  | tdata2 env index val =>
    cases hw : ts.tdata2Write env index val with
    | none => simpa [write, hw] using h
    | some ts' => simpa [write, hw] using noGate_tdata2Write h hw
  | tdata3 env index val =>
    cases hw : ts.tdata3Write env index val with
    | none => simpa [write, hw] using h
    | some ts' => simpa [write, hw] using noGate_tdata3Write h hw

theorem noGate_ofCount (count : Nat) : NoGate (ofCount count) := by
  intro i t t' ht _ hbad
  rw [ofCount, List.getElem?_replicate] at ht
  split at ht
  · obtain rfl := Option.some.inj ht
    exact absurd hbad.2.1 (by decide)
  · exact absurd ht (by simp)

/-- **Runs without the slip.** From reset, as long as no write slips through, no trigger of the
program ever gates a trigger of the debugger. -/
theorem noGate_of_run (count : Nat) (ws : List Write)
    (h : Run.Along write (fun ts w => ¬ Slips ts w) (ofCount count) ws) :
    Run.Always write NoGate (ofCount count) ws :=
  Run.Always.of_step (I := NoGate) (fun _ w hts hw => noGate_write w hts hw) (fun _ hts => hts)
    (noGate_ofCount count) h

/-- A 64-bit hart with S and U, in debug mode. -/
def debugEnv : Env := ⟨.rv64, true, true, true, true⟩

/-- The same hart running a program. -/
def programEnv : Env := ⟨.rv64, true, true, true, false⟩

/-- The debugger takes trigger 1, then the program writes a chaining `mcontrol` with `dmode` set to
trigger 0. -/
def slippingWrites : List Write :=
  [.tdata1 debugEnv 1 0x2800000000000044#64, .tdata1 programEnv 0 0x2800000000000844#64]

theorem not_noGate_of_run :
    ¬ ∀ (count : Nat) (ws : List Write), Run.Always write NoGate (ofCount count) ws := by
  intro h
  have hlast := (h 2 slippingWrites).last
  exact hlast 0 _ _ rfl rfl ⟨by decide, by decide, by decide⟩

theorem noGate_of_run_debug :
    Run.Always write NoGate (ofCount 2)
      [.tdata1 debugEnv 1 0x2800000000000044#64, .tdata1 debugEnv 0 0x2800000000000844#64] :=
  noGate_of_run 2 _ ⟨fun h => absurd h.1 (by decide), fun h => absurd h.1 (by decide), trivial⟩

end Triggers

end Nnemu

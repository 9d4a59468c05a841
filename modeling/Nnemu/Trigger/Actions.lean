import Nnemu.Hart.Interrupt
import Nnemu.Trigger.Registers

/-!
# Trigger actions

`take_trigger_action` has a case for two of the five actions and aborts on the others. Whatever
order the parts of `step` come in that deal with triggers, the action that is handed to it is that
of one of the triggers, then or earlier (`Tame`), and matching finds its asserts true. So the
simulator stops on a trigger only when a write to `tdata1` has stored one of the three trace
actions, which `legalize_action` lets through.

`Triggers.Implemented` says that every stored action is one of the two that have a case. Detections
and writes keep it, unless a write stores a trace action (`WritesTrace`), and what a detection
returns is an action of the list. The run over the parts of `step` is in `Trigger.Firing`.
-/

namespace Nnemu

namespace Trigger

/-! ### The action of a trigger -/

/-- `get_action` -/
def getAction (t : Trigger) : Action :=
  match t.body with
  | .disabled _ => .debugException
  | .mcontrol f => f.action
  | .mcontrol6 f => f.action
  | .icount f => f.action
  | .itrigger f _ => f.action
  | .etrigger f => f.action

/-- The actions for which `take_trigger_action` has a case. -/
def Action.implemented : Action → Bool
  | debugException | debugMode => true
  | _ => false

variable (env : MatchEnv)

theorem getAction_stashReadValues (t : Trigger) : t.stashReadValues.getAction = t.getAction := by
  cases t with
  | mk tdata2 vs vu m s u sselect svalue sbytemask mhselect mhvalue body => cases body <;> rfl

/-- What a detection may do with one trigger: it keeps the action, and a result has it. -/
def KeepsAction (t : Trigger) (found : Trigger × Option MatchResult) : Prop :=
  found.1.getAction = t.getAction ∧ ∀ r, found.2 = some r → r.action = t.getAction

theorem KeepsAction.none (t : Trigger) : KeepsAction t (t, none) :=
  ⟨rfl, fun _ h => by cases h⟩

/-- A trigger that fires keeps its action and gives it. -/
theorem KeepsAction.fires {t t' : Trigger} {timing : Timing} {action : Action}
    (haction : t.getAction = action)
    (hkeep : t'.getAction = action) : KeepsAction t (t', some ⟨timing, action⟩) := by
  refine ⟨hkeep.trans haction.symm, fun r hr => ?_⟩
  obtain rfl := Option.some.inj hr
  exact haction.symm

theorem keepsAction_icount (t : Trigger) : KeepsAction t (t.detectIcountMatch env) := by
  rw [detectIcountMatch]
  cases hbody : t.body with
  | icount f =>
    have haction : t.getAction = f.action := by rw [getAction, hbody]
    dsimp only
    split
    · refine ⟨haction.symm, fun r hr => ?_⟩
      dsimp only at hr
      split at hr
      · obtain rfl := Option.some.inj hr
        exact haction.symm
      · cases hr
    · exact .none t
  | _ => exact .none t

theorem keepsAction_memory (operation : Operation) (address : Reg) (data : Option Reg)
    (t : Trigger) :
    KeepsAction t (t.detectMemoryAccessMatch env operation address data) := by
  rw [detectMemoryAccessMatch]
  split
  case h_1 f hbody =>
    split
    · exact .fires (by rw [getAction, hbody]) rfl
    · exact .none t
  case h_2 f hbody =>
    split
    · exact .fires (by rw [getAction, hbody]) rfl
    · exact .none t
  case h_3 => exact .none t

theorem keepsAction_trap (cause : Reg) (t : Trigger) :
    KeepsAction t (t.detectTrapMatch env cause) := by
  unfold detectTrapMatch
  dsimp only
  split
  · cases hbody : t.body with
    | itrigger f nmi => exact .fires (by rw [getAction, hbody]) rfl
    | etrigger f => exact .fires (by rw [getAction, hbody]) rfl
    | _ => exact .none t
  · exact .none t

end Trigger

namespace Triggers

open Trigger

variable (env : MatchEnv)

/-- The actions of all triggers. -/
def actions (ts : Triggers) : List Action := ts.map getAction

/-- No trigger has an action that `take_trigger_action` aborts on. -/
def Implemented (ts : Triggers) : Prop := ∀ a ∈ ts.actions, a.implemented = true

/-- What a detection may do with the triggers: it keeps their actions, and a result has one of
them. -/
def KeepsActions (ts : Triggers) (found : Triggers × Option MatchResult) : Prop :=
  found.1.actions = ts.actions ∧ ∀ r, found.2 = some r → r.action ∈ ts.actions

theorem KeepsActions.implemented {ts : Triggers} {found : Triggers × Option MatchResult}
    (h : KeepsActions ts found)
    (hts : ts.Implemented) : found.1.Implemented ∧ ∀ r, found.2 = some r →
    r.action.implemented = true :=
  ⟨fun a ha => hts a (h.1 ▸ ha), fun r hr => hts _ (h.2 r hr)⟩

theorem actions_map_stash (ts : Triggers) :
    Triggers.actions (ts.map stashReadValues) = ts.actions := by
  rw [actions, actions, List.map_map]
  exact List.map_congr_left fun t _ => getAction_stashReadValues t

/-- A result that is chosen was there before or is the new one. -/
theorem choose_cases {α : Type} (c : Bool) (ret result : Option α) {r : α}
    (h : (if c then result else ret) = some r) : ret = some r ∨ result = some r := by
  cases c with
  | true => exact .inr h
  | false => exact .inl h

/-- The loop that keeps the highest action. -/
theorem keepsActions_detectBest {detect : Trigger → Trigger × Option MatchResult}
    (hdetect : ∀ t, KeepsAction t (detect t)) (ts : Triggers) : ∀ ret,
    (detectBest detect ret ts).1.actions = ts.actions ∧
      ∀ r, (detectBest detect ret ts).2 = some r → ret = some r ∨ r.action ∈ ts.actions := by
  induction ts with
  | nil => exact fun ret => ⟨rfl, fun r hr => .inl hr⟩
  | cons t ts ih =>
    intro ret
    obtain ⟨hkeep, hresult⟩ := hdetect t
    obtain ⟨hrest, hlast⟩ := ih (if better ret (detect t).2 then (detect t).2 else ret)
    refine ⟨?_, fun r hr => ?_⟩
    · show (detect t).1.getAction :: _ = t.getAction :: _
      rw [hkeep]
      exact congrArg _ hrest
    · obtain hchosen | hmem := hlast r hr
      · obtain hret | hfound := choose_cases _ _ _ hchosen
        · exact .inl hret
        · exact .inr (List.mem_cons.2 (.inl (hresult r hfound)))
      · exact .inr (List.mem_cons.2 (.inr hmem))

/-- The loop over the chains. -/
theorem keepsActions_detectLoop (operation : Operation) (address : Reg)
    (data : Option Reg) (ts : Triggers) : ∀ ok ret,
    Triggers.actions (detectLoop env operation address data ok ret ts).1 = ts.actions ∧
      ∀ r, (detectLoop env operation address data ok ret ts).2 = some r →
      ret = some r ∨ r.action ∈ ts.actions := by
  induction ts with
  | nil => exact fun ok ret => by cases ok <;> exact ⟨rfl, fun r hr => .inl hr⟩
  | cons t ts ih =>
    intro ok ret
    cases ok with
    | false =>
      obtain ⟨hrest, hlast⟩ := ih (!t.getChain) ret
      refine ⟨congrArg (t.getAction :: ·) hrest, fun r hr => ?_⟩
      obtain hret | hmem := hlast r hr
      · exact .inl hret
      · exact .inr (List.mem_cons.2 (.inr hmem))
    | true =>
      obtain ⟨hkeep, hresult⟩ := keepsAction_memory env operation address data t
      rw [detectLoop]
      dsimp only
      generalize t.detectMemoryAccessMatch env operation address data = found at hkeep hresult
      obtain ⟨hrest, hlast⟩ := ih (found.2.isSome || !t.getChain)
        (if (!t.getChain && better ret found.2) = true then found.2 else ret)
      refine ⟨?_, fun r hr => ?_⟩
      · show found.1.getAction :: _ = t.getAction :: _
        rw [hkeep]
        exact congrArg _ hrest
      · obtain hchosen | hmem := hlast r hr
        · obtain hret | hfound := choose_cases _ _ _ hchosen
          · exact .inl hret
          · exact .inr (List.mem_cons.2 (.inl (hresult r hfound)))
        · exact .inr (List.mem_cons.2 (.inr hmem))

theorem of_none {ts : Triggers} {result : Option MatchResult}
    (h : ∀ r, result = some r → (none : Option MatchResult) = some r ∨ r.action ∈ ts.actions) :
    ∀ r, result = some r → r.action ∈ ts.actions := by
  intro r hr
  obtain hnone | hmem := h r hr
  · cases hnone
  · exact hmem

/-- **Matching an access.** -/
theorem keepsActions_memory (operation : Operation) (address : Reg) (data : Option Reg)
    (ts : Triggers) :
    KeepsActions ts (ts.detectMemoryAccessMatch env operation address data) := by
  rw [detectMemoryAccessMatch]
  split
  · exact ⟨rfl, fun r hr => by cases hr⟩
  · obtain ⟨hkeep, hresult⟩ := keepsActions_detectLoop env operation address data ts true none
    exact ⟨hkeep, of_none hresult⟩

/-- **Counting.** -/
theorem keepsActions_icount (ts : Triggers) : KeepsActions ts (ts.detectIcountMatch env) := by
  rw [detectIcountMatch]
  split
  · exact ⟨actions_map_stash ts, fun r hr => by cases hr⟩
  · obtain ⟨hkeep, hresult⟩ := keepsActions_detectBest (keepsAction_icount env)
      (ts.map stashReadValues) none
    rw [actions_map_stash] at hkeep hresult
    exact ⟨hkeep, of_none hresult⟩

/-- **Matching a trap.** -/
theorem keepsActions_trap (cause : Reg) (ts : Triggers) :
    KeepsActions ts (ts.detectTrapMatch env cause) := by
  rw [detectTrapMatch]
  split
  · exact ⟨rfl, fun r hr => by cases hr⟩
  · obtain ⟨hkeep, hresult⟩ := keepsActions_detectBest (keepsAction_trap env cause) ts none
    exact ⟨hkeep, of_none hresult⟩

end Triggers

/-! ### Writes -/

namespace Trigger

/-- The action field that `tdata1_write` of a type reads, if it reads one. -/
def actionMask (type : Reg) : Reg :=
  if type = typeMcontrol then mcontrolAction
  else if type = typeMcontrol6 then mcontrol6Action
  else if type = typeIcount ∨ type = typeItrigger ∨ type = typeEtrigger then 0x3f#64
  else 0#64

/-- Does the value ask for one of the three trace actions? -/
def Traces (xlen : Xlen) (val : Reg) : Prop :=
  getField val (actionMask (getField val (tdata1Type xlen))) ∈ [2#64, 3#64, 4#64]

instance (xlen : Xlen) (val : Reg) : Decidable (Traces xlen val) :=
  inferInstanceAs (Decidable (_ ∈ _))

/-- Below the bound, `legalize_action` lets the trace actions through and no other. -/
theorem implemented_legalizeAction (actionMask : Reg) {val dmodeMask : Reg}
    (h : getField val actionMask ∉ [2#64, 3#64, 4#64]) :
    (legalizeAction val actionMask dmodeMask).implemented = true := by
  simp only [List.mem_cons, List.not_mem_nil, or_false, not_or] at h
  obtain ⟨htwo, hthree, hfour⟩ := h
  dsimp only [legalizeAction]
  split
  · rfl
  · rw [Action.ofReg, if_neg htwo, if_neg hthree, if_neg hfour]
    split <;> rfl

/-- A new trigger has the action of its field. -/
theorem implemented_ofType {env : Env} (type : Reg) {val : Reg} {allowChain : Bool}
    (h : getField val (actionMask type) ∉ [2#64, 3#64, 4#64]) :
    (ofType env type val allowChain).getAction.implemented = true := by
  unfold ofType
  split
  case isTrue hm =>
    subst hm
    exact implemented_legalizeAction mcontrolAction h
  split
  case isTrue hm =>
    subst hm
    exact implemented_legalizeAction 0x3f#64 h
  split
  case isTrue hm =>
    subst hm
    exact implemented_legalizeAction 0x3f#64 h
  split
  case isTrue hm =>
    subst hm
    exact implemented_legalizeAction 0x3f#64 h
  split
  case isTrue hm =>
    subst hm
    exact implemented_legalizeAction mcontrol6Action h
  · rfl

theorem actionMask_and_dmode (xlen : Xlen) (type : Reg) :
    actionMask type &&& tdata1Dmode xlen = 0#64 := by
  unfold actionMask
  split
  · cases xlen <;> decide
  · split
    · cases xlen <;> decide
    · split
      · cases xlen <;> decide
      · exact BitVec.zero_and

/-- Clearing `dmode` leaves the action as it was written. -/
theorem getField_maskDmode (env : Env) (type val : Reg) :
    getField (Triggers.maskDmode env val) (actionMask type) = getField val (actionMask type) := by
  rw [Triggers.maskDmode]
  split
  · exact getField_setField_of_disjoint (actionMask_and_dmode env.xlen type) val 0#64
  · rfl

end Trigger

namespace Triggers

open Trigger

variable {env : Env} {ts ts' : Triggers}

theorem Implemented.get {index : Nat} {t : Trigger} (h : ts.Implemented)
    (ht : ts[index]? = some t) :
    t.getAction.implemented = true :=
  h _ (List.mem_map_of_mem (List.mem_of_getElem? ht))

/-- One trigger changes. -/
theorem Implemented.set {index : Nat} {t : Trigger} (h : ts.Implemented)
    (ht : t.getAction.implemented = true) :
    Triggers.Implemented (ts.set index t) := by
  intro a ha
  obtain ⟨u, hu, rfl⟩ := List.mem_map.1 ha
  obtain hold | rfl := List.mem_or_eq_of_mem_set hu
  · exact h _ (List.mem_map_of_mem hold)
  · exact ht

theorem Implemented.tdata1Write {index : Nat} {val : Reg} (h : ts.Implemented)
    (htrace : ¬Traces env.xlen val)
    (hw : ts.tdata1Write env index val = some ts') : ts'.Implemented := by
  unfold Triggers.tdata1Write at hw
  cases hold : ts[index]? with
  | none => rw [hold] at hw; cases hw
  | some old =>
    rw [hold] at hw
    dsimp only at hw
    split at hw
    · cases hw
    · split at hw
      · cases hw
      · obtain rfl := Option.some.inj hw
        refine h.set ?_
        refine implemented_ofType (getField val (tdata1Type env.xlen)) ?_
        rw [getField_maskDmode]
        exact htrace

theorem Implemented.tdata2Write {index : Nat} {val : Reg} (h : ts.Implemented)
    (hw : ts.tdata2Write env index val = some ts') : ts'.Implemented := by
  unfold Triggers.tdata2Write at hw
  cases hold : ts[index]? with
  | none => rw [hold] at hw; cases hw
  | some old =>
    rw [hold] at hw
    dsimp only at hw
    split at hw
    · cases hw
    · obtain rfl := Option.some.inj hw
      have hget := h.get hold
      refine h.set ?_
      exact hget

theorem Implemented.tdata3Write {index : Nat} {val : Reg} (h : ts.Implemented)
    (hw : ts.tdata3Write env index val = some ts') : ts'.Implemented := by
  unfold Triggers.tdata3Write at hw
  cases hold : ts[index]? with
  | none => rw [hold] at hw; cases hw
  | some old =>
    rw [hold] at hw
    dsimp only at hw
    split at hw
    · cases hw
    · obtain rfl := Option.some.inj hw
      have hget := h.get hold
      refine h.set ?_
      exact hget

theorem implemented_ofCount (count : Nat) : (ofCount count).Implemented := by
  intro a ha
  obtain ⟨t, ht, rfl⟩ := List.mem_map.1 ha
  rw [List.eq_of_mem_replicate ht]
  rfl

end Triggers

namespace Hart

variable {cfg : Config} {h : Hart}

/-- A write is made, or leaves the triggers as they are. -/
theorem implemented_triggersWrite {ts : Option Triggers} (hold : h.triggers.Implemented)
    (hnew : ∀ ts', ts = some ts' → ts'.Implemented) :
    (h.triggersWrite ts).triggers.Implemented := by
  cases ts with
  | none => exact hold
  | some ts' => exact hnew ts' rfl

/-- The instruction writes a trace action to `tdata1`. -/
def WritesTrace (cfg : Config) (h : Hart) : HartOp → Prop
  | .csr which insn _ => ∃ val, h.Writes cfg which insn .tdata1 val ∧
  Trigger.Traces cfg.isa.xlen val
  | _ => False

/-- **Events keep the actions in order**, unless a write to `tdata1` stores a trace action. -/
theorem implemented_step {op : HartOp} (hold : h.triggers.Implemented)
    (htrace : ¬WritesTrace cfg h op)
    (hop : ∀ ts, op ≠ .triggers ts) : (h.step cfg op).triggers.Implemented := by
  rw [step]
  split
  · exact hold
  · by_cases hother : Untriggering op
    · rw [triggers_event hother]
      exact hold
    · cases op with
      | triggers ts => exact absurd rfl (hop ts)
      | csr which insn bits =>
        obtain heq | ⟨o, val, w, rfl | rfl | rfl, heq⟩ := triggers_csr which insn bits
        · rw [heq]
          exact hold
        · rw [heq, writeObj, Hart.tdata1Write]
          refine implemented_triggersWrite hold fun ts' hw => hold.tdata1Write
            (fun ht => htrace ⟨val, w, ?_⟩) hw
          exact ht
        · rw [heq, writeObj, Hart.tdata2Write]
          exact implemented_triggersWrite hold fun ts' hw => hold.tdata2Write hw
        · rw [heq, writeObj, Hart.tdata3Write]
          exact implemented_triggersWrite hold fun ts' hw => hold.tdata3Write hw
      | _ => exact absurd trivial hother

end Hart

end Nnemu

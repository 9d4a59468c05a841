import Nnemu.Field
import Nnemu.Lib.Run
import Nnemu.Sim.DmiRegisters

/-!
# The busy protocol of the debug module

A command that runs owns the data registers, the program buffer and the abstract program: the
debugger's accesses to them are turned away until it is done, and most are recorded in `cmderr`. An
error stops all further commands, until the debugger has cleared it. Two relations between the
states before and after an operation carry this: `Dormant`, when no command was started, and
`Sticky`, when an error was kept as well.

The greater part of the file says of the registers one by one that a write to them starts nothing,
in the order of `dmi_write`. A command is started by a write of `command`, or by an access to a data
register or to the program buffer for which `abstractauto` is set; `accessed` and `performs` are
these. `busy_protocol` is then about every run of operations, of the debugger and of the harts, in
any order.
-/

namespace Nnemu

open Run

namespace DebugModule

variable {d d' d'' : DebugModule}

/-! ### Nothing is started -/

/-- No command was started, and none of the custom registers was accessed. -/
structure Dormant (d d' : DebugModule) : Prop where
  debugAbstract : d'.debugAbstract = d.debugAbstract
  customBase : d'.customBase = d.customBase
  busy : d'.abstractcs.busy → d.abstractcs.busy
  go : ∀ id, hasBits (d'.debugRomFlags id) 1#8 → hasBits (d.debugRomFlags id) 1#8

/-- No command was started, and an error was kept. -/
structure Sticky (d d' : DebugModule) : Prop extends Dormant d d' where
  cmderr : d.abstractcs.cmderr ≠ CmdErr.none → d'.abstractcs.cmderr = d.abstractcs.cmderr

theorem Dormant.refl (d : DebugModule) : Dormant d d :=
  ⟨rfl, rfl, id, fun _ => id⟩

theorem Dormant.trans (h : Dormant d d') (h' : Dormant d' d'') : Dormant d d'' :=
  ⟨h'.debugAbstract.trans h.debugAbstract, h'.customBase.trans h.customBase,
    fun hb => h.busy (h'.busy hb),
    fun id hg => h.go id (h'.go id hg)⟩

theorem Sticky.refl (d : DebugModule) : Sticky d d :=
  ⟨Dormant.refl d, fun _ => rfl⟩

/-- Two operations that keep an error keep it together. -/
theorem Sticky.trans (h : Sticky d d') (h' : Sticky d' d'') : Sticky d d'' := by
  refine ⟨h.toDormant.trans h'.toDormant, fun hne => ?_⟩
  have hsame := h.cmderr hne
  rw [h'.cmderr (hsame ▸ hne), hsame]

/-- An operation that leaves the command alone. -/
theorem Sticky.of_eq (habs : d'.debugAbstract = d.debugAbstract)
    (hbase : d'.customBase = d.customBase)
    (hcs : d'.abstractcs = d.abstractcs) (hflags : d'.debugRomFlags = d.debugRomFlags) :
    Sticky d d' :=
  ⟨⟨habs, hbase, fun hb => hcs ▸ hb, fun _ hg => hflags ▸ hg⟩, fun _ => by rw [hcs]⟩

/-- An error is only recorded where there is none. -/
theorem sticky_setCmderr {err : CmdErr} (hnone : d.abstractcs.cmderr = CmdErr.none) :
    Sticky d (d.setCmderr err) :=
  ⟨⟨rfl, rfl, id, fun _ => id⟩, fun hne => absurd hnone hne⟩

theorem debugRomFlags_setFlags (d : DebugModule) (id i : Nat) (flags : BitVec 8) :
    (d.setFlags id flags).debugRomFlags i = if i = id then flags else d.debugRomFlags i :=
  Function.update_apply d.debugRomFlags id flags i

/-- The flags of a hart, of which the first one is not set. -/
theorem sticky_setFlags {id : Nat} {flags : BitVec 8}
    (h : hasBits flags 1#8 → hasBits (d.debugRomFlags id) 1#8) :
    Sticky d (d.setFlags id flags) := by
  refine ⟨⟨rfl, rfl, fun hb => hb, fun i hg => ?_⟩, fun _ => rfl⟩
  rw [debugRomFlags_setFlags] at hg
  split at hg
  · rename_i hi
    exact hi ▸ h hg
  · exact hg

theorem sticky_setHart (id : Nat) (s : HartDebugState) : Sticky d (d.setHart id s) :=
  Sticky.of_eq rfl rfl rfl rfl

/-- A reset of a hart is no matter of the module. -/
theorem sticky_procReset (id : Nat) : Sticky d (d.procReset id) :=
  sticky_setHart id _

/-- One operation for each hart. -/
theorem sticky_foldl {f : DebugModule → Nat → DebugModule} (hf : ∀ d id, Sticky d (f d id))
    (ids : List Nat)
    (d : DebugModule) : Sticky d (ids.foldl f d) := by
  induction ids generalizing d with
  | nil => exact Sticky.refl d
  | cons id ids ih => exact (hf d id).trans (ih (f d id))

/-! ### Stores of the harts -/

theorem hasBits_one (flags : BitVec 8) : hasBits flags 1#8 = flags[0] :=
  hasBits_twoPow (w := 8) (k := 0) (by decide) flags

/-- Flags are cleared. -/
theorem sticky_clearFlags (id : Nat) (mask : BitVec 8) :
    Sticky d (d.setFlags id (d.debugRomFlags id &&& mask)) := by
  refine sticky_setFlags fun h => ?_
  rw [hasBits_one, BitVec.getElem_and, Bool.and_eq_true] at h
  rw [hasBits_one]
  exact h.1

/-- A hart says that it has halted, and its group is asked to halt. -/
theorem sticky_halted (id : Nat) : Sticky d (d.halted id) := by
  rw [halted]
  split
  · exact Sticky.refl d
  · dsimp only
    split
    · exact sticky_setHart id _
    · exact Sticky.of_eq rfl rfl rfl rfl

/-- A hart says that it has come to the end of the abstract program. -/
theorem sticky_completed (id : Nat) : Sticky d (d.completed id) := by
  rw [completed]
  split
  · exact Sticky.of_eq rfl rfl rfl rfl
  · exact Sticky.refl d

/-- A hart may store what it likes: it starts no command. -/
theorem sticky_store {addr : Nat} {bytes : List (BitVec 8)} {r : Bool × DebugModule}
    (h : d.store addr bytes = some r) :
    Sticky d r.2 := by
  simp only [store] at h
  generalize (if bytes.length = 4 then (Bytes.fromBytes bytes).toNat else 0) = id at h
  -- the data, the program buffer, the four words by which the harts answer, and everything else
  split_ifs at h <;> cases h
  · exact Sticky.of_eq rfl rfl rfl rfl
  · exact Sticky.of_eq rfl rfl rfl rfl
  · exact (sticky_halted _).trans (sticky_completed _)
  · exact sticky_clearFlags _ _
  · exact (sticky_setHart _ _).trans (sticky_clearFlags _ _)
  · rename_i hnone
    exact sticky_setCmderr hnone
  · exact Sticky.refl d
  · exact Sticky.refl d

/-! ### The system bus -/

theorem sticky_setSbdata (i : Nat) (value : BitVec 32) : Sticky d (d.setSbdata i value) :=
  Sticky.of_eq rfl rfl rfl rfl

theorem sticky_setSbError (err : BitVec 32) : Sticky d (d.setSbError err) :=
  Sticky.of_eq rfl rfl rfl rfl

theorem sticky_sbAutoincrement : Sticky d d.sbAutoincrement := by
  rw [sbAutoincrement]
  split
  · exact Sticky.refl d
  · exact Sticky.of_eq rfl rfl rfl rfl

theorem sticky_sbNext : Sticky d d.sbNext := by
  rw [sbNext]
  split
  · exact sticky_sbAutoincrement
  · exact Sticky.refl d

/-- Accesses of the system bus have an error field of their own. -/
theorem sticky_sbRead {bus : SysBus} (h : d.sbRead bus = some d') : Sticky d d' := by
  rw [sbRead] at h
  split at h
  · cases h
    exact sticky_setSbError _
  · split at h
    · cases h
      split
      · exact (sticky_setSbdata _ _).trans (sticky_setSbdata _ _)
      · exact sticky_setSbdata _ _
    · cases h
      exact sticky_setSbError _
    · cases h

theorem sticky_sbStore {bus : SysBus} {addr : BitVec 64} {bytes : List (BitVec 8)}
    (h : d.sbStore bus addr bytes = some d') : Sticky d d' := by
  rw [sbStore] at h
  split_ifs at h
  · obtain ⟨r, hstore, hr⟩ := Option.bind_eq_some_iff.1 h
    split at hr <;> cases hr
    exact sticky_store hstore
  · cases h
    exact Sticky.refl d

theorem sticky_sbWrite {bus : SysBus} (h : d.sbWrite bus = some d') : Sticky d d' := by
  rw [sbWrite] at h
  split at h
  · cases h
    exact sticky_setSbError _
  · exact sticky_sbStore h

/-! ### Commands -/

/-- **An error stops every command.** -/
theorem performAbstractCommand_of_error (h : d.abstractcs.cmderr ≠ CmdErr.none) :
    d.performAbstractCommand = d := by
  rw [performAbstractCommand, if_pos h]

/-- A command is turned away while another one runs. -/
theorem performAbstractCommand_of_busy (h : d.abstractcs.busy = true) :
    d.performAbstractCommand = d.noteBusy := by
  rw [performAbstractCommand, noteBusy]
  by_cases hnone : d.abstractcs.cmderr = CmdErr.none
  · rw [if_neg (not_not.2 hnone), if_pos h, if_pos ⟨h, hnone⟩]
  · rw [if_pos hnone, if_neg fun hboth => hnone hboth.2]

@[simp] theorem busy_noteBusy : d.noteBusy.abstractcs.busy = d.abstractcs.busy := by
  rw [noteBusy]
  split <;> rfl

/-- A command that is started begins without touching the error. -/
theorem cmderr_launch (words : List (BitVec 32)) :
    (d.launch words).abstractcs.cmderr = d.abstractcs.cmderr :=
  rfl

/-- The custom registers of a command are read and written without an error. -/
theorem cmderr_customRegister (regno : BitVec 32) (write : Bool) :
    (d.customRegister regno write).abstractcs.cmderr = d.abstractcs.cmderr := by
  rw [customRegister]
  split <;> rfl

/-- The state after a command that was turned away. -/
def rejected (d : DebugModule) (mem : Region) (err : CmdErr) : DebugModule :=
  { d with debugAbstract := mem, abstractcs := { d.abstractcs with cmderr := err } }

/-- **A command that is turned away leaves no trace** but the error and the words of a program that
will not run. -/
theorem performAbstractCommand_of_rejected (hbusy : d.abstractcs.busy = false)
    (herr : d.performAbstractCommand.abstractcs.cmderr ≠ CmdErr.none) :
    ∃ mem err, d.performAbstractCommand = d.rejected mem err := by
  rw [performAbstractCommand] at herr ⊢
  split_ifs at herr ⊢ with hne hb hreg hhalt htransfer
  · exact ⟨d.debugAbstract, d.abstractcs.cmderr, rfl⟩
  · exact absurd hb (by rw [hbusy]; decide)
  · exact ⟨d.debugAbstract, _, rfl⟩
  · -- a transfer that is supported starts, or is done at once
    cases hdraft : draft d.config (getField d.command acAarsize) (getField d.command acRegno)
      (hasBits d.command acWrite) with
    | program words =>
      simp only [hdraft, cmderr_launch] at herr
      exact absurd herr hne
    | notsup words =>
      refine ⟨(d.assemble words).debugAbstract, CmdErr.notsup, ?_⟩
      simp only [hdraft]
      rfl
    | custom =>
      simp only [hdraft, cmderr_customRegister] at herr
      exact absurd herr hne
  · exact absurd herr hne
  · exact ⟨d.debugAbstract, _, rfl⟩

/-! ### The other registers -/

theorem sticky_setDmcontrol (c : DmControl) : Sticky d (d.setDmcontrol c) :=
  Sticky.of_eq rfl rfl rfl rfl

theorem sticky_setHaltRequest (id : Nat) (req : HaltRequest) : Sticky d (d.setHaltRequest id req) :=
  Sticky.of_eq rfl rfl rfl rfl

theorem sticky_resumeFlag (id : Nat) : Sticky d (d.setFlags id (d.debugRomFlags id ||| 2#8)) := by
  refine sticky_setFlags fun h => ?_
  rw [hasBits_one, BitVec.getElem_or] at h
  rw [hasBits_one]
  simpa using h

/-- A write of `dmcontrol`, for one of the selected harts. -/
theorem sticky_controlHart (value : BitVec 32) (id : Nat) : Sticky d (d.controlHart value id) := by
  have htold (s : HartDebugState) (req : HaltRequest) : Sticky d
    ((d.setHart id s).setHaltRequest id req) :=
    (sticky_setHart id s).trans (sticky_setHaltRequest id req)
  have hresumed (s s' : HartDebugState) (req : HaltRequest) :
      Sticky d ((((d.setHart id s).setHaltRequest id req).setHart id s').setFlags id
        (d.debugRomFlags id ||| 2#8)) :=
    ((htold s req).trans (sticky_setHart id s')).trans (sticky_resumeFlag id)
  rw [controlHart]
  split
  · split
    · exact (hresumed _ _ _).trans (sticky_procReset id)
    · exact (htold _ _).trans (sticky_procReset id)
  · split
    · exact hresumed _ _ _
    · exact htold _ _

theorem sticky_controlHarts (value : BitVec 32) : Sticky d (d.controlHarts value) := by
  have hselected (d : DebugModule) (id : Nat) :
      Sticky d (if d.hartSelected id then d.controlHart value id else d) := by
    split
    · exact sticky_controlHart value id
    · exact Sticky.refl d
  rw [controlHarts]
  split
  · exact (sticky_foldl hselected _ d).trans (sticky_foldl (fun _ id => sticky_procReset id) _ _)
  · exact sticky_foldl hselected _ d

/-- A reset of the module starts nothing, but it clears the error. -/
theorem dormant_reset (challenge : BitVec 32) : Dormant d (d.reset challenge) :=
  ⟨rfl, rfl, fun h => absurd h Bool.false_ne_true, fun _ => id⟩

/-- What a write of `dmcontrol` does after the reset. -/
theorem sticky_writeDmcontrol (value challenge : BitVec 32) :
    Sticky (d.writeDmactive value challenge) (d.writeDmcontrol value challenge) := by
  rw [writeDmcontrol]
  split
  · exact Sticky.refl _
  · exact (sticky_setDmcontrol _).trans (sticky_controlHarts value)

theorem dormant_writeDmactive (value challenge : BitVec 32) :
    Dormant d (d.writeDmactive value challenge) := by
  rw [writeDmactive]
  split
  · exact (dormant_reset challenge).trans (sticky_setDmcontrol _).toDormant
  · exact (sticky_setDmcontrol _).toDormant

/-- A write of `dmcontrol` that does not reset the module. -/
theorem sticky_writeDmactive {value : BitVec 32} (challenge : BitVec 32)
    (h : (!d.dmcontrol.dmactive && hasBits value 0x1#32) = false) :
    Sticky d (d.writeDmactive value challenge) := by
  rw [writeDmactive, if_neg (by rw [h]; exact Bool.false_ne_true)]
  exact sticky_setDmcontrol _

theorem sticky_writeHawindowsel (value : BitVec 32) : Sticky d (d.writeHawindowsel value) :=
  Sticky.of_eq rfl rfl rfl rfl

theorem sticky_writeHawindow (value : BitVec 32) : Sticky d (d.writeHawindow value) :=
  Sticky.of_eq rfl rfl rfl rfl

theorem sticky_writeAbstractauto (value : BitVec 32) : Sticky d (d.writeAbstractauto value) :=
  Sticky.of_eq rfl rfl rfl rfl

theorem sticky_writeSbcs (value : BitVec 32) : Sticky d (d.writeSbcs value) :=
  Sticky.of_eq rfl rfl rfl rfl

/-- The handshake of authentication. -/
theorem sticky_writeAuthdata (value challenge : BitVec 32) :
    Sticky d (d.writeAuthdata value challenge) := by
  rw [writeAuthdata]
  split_ifs
  · exact Sticky.refl d
  · exact Sticky.of_eq rfl rfl rfl rfl
  · exact Sticky.of_eq rfl rfl rfl rfl

theorem sticky_writeDmcs2 (value : BitVec 32) : Sticky d (d.writeDmcs2 value) := by
  rw [writeDmcs2]
  split
  · exact sticky_setHart _ _
  · exact Sticky.refl d

theorem sticky_setSbaddress (i : Nat) (value : BitVec 32) : Sticky d (d.setSbaddress i value) :=
  Sticky.of_eq rfl rfl rfl rfl

theorem sticky_writeSbaddress0 {value : BitVec 32} {bus : SysBus}
    (h : d.writeSbaddress0 value bus = some d') :
    Sticky d d' := by
  have hset : Sticky d (d.setSbaddress 0 value) := sticky_setSbaddress 0 value
  rw [writeSbaddress0] at h
  split at h
  · obtain ⟨d₁, hread, rfl⟩ := Option.map_eq_some_iff.1 h
    exact (hset.trans (sticky_sbRead hread)).trans sticky_sbAutoincrement
  · cases h
    exact hset

theorem sticky_writeSbdata0 {value : BitVec 32} {bus : SysBus}
    (h : d.writeSbdata0 value bus = some d') :
    Sticky d d' := by
  rw [writeSbdata0] at h
  split at h
  · obtain ⟨d₁, hwrite, rfl⟩ := Option.map_eq_some_iff.1 h
    exact ((sticky_setSbdata 0 value).trans (sticky_sbWrite hwrite)).trans sticky_sbNext
  · cases h
    exact sticky_setSbdata 0 value

theorem sticky_readSbdata0 {bus : SysBus} (h : d.readSbdata0 bus = some d') : Sticky d d' := by
  rw [readSbdata0] at h
  split_ifs at h
  · cases h
    exact Sticky.refl d
  · obtain ⟨d₁, hread, rfl⟩ := Option.map_eq_some_iff.1 h
    exact (sticky_sbRead hread).trans sticky_sbNext
  · cases h
    exact sticky_sbNext

/-! ### What an access comes to -/

/-- What a read does to the module. -/
theorem dmiRead_cases {address : Nat} {bus : SysBus} {r : Option (BitVec 32) × DebugModule}
    (h : d.dmiRead address bus = some r) :
    (isData address = true ∧
      r.2 = d.noteBusy.autoexec d.abstractauto.autoexecdata (address - dmData0)) ∨
    (d.isProgbuf address = true ∧
      r.2 = d.autoexec d.abstractauto.autoexecprogbuf (address - dmProgbuf0)) ∨
    (d.readSbdata0 bus = some r.2) ∨ r.2 = d := by
  rw [dmiRead] at h
  split at h
  · rename_i hdata
    cases h
    exact Or.inl ⟨hdata, rfl⟩
  · split at h
    · rename_i hprogbuf
      cases h
      exact Or.inr (Or.inl ⟨hprogbuf, rfl⟩)
    · split at h
      · obtain ⟨d', hread, rfl⟩ := Option.map_eq_some_iff.1 h
        exact Or.inr (Or.inr (Or.inl hread))
      · cases h
        exact Or.inr (Or.inr (Or.inr rfl))

/-- A write that is let through. -/
theorem dmiWrite_of_authenticated {address : Nat} {value challenge : BitVec 32} {bus : SysBus}
    (hauth : d.authenticated = true ∨ address = dmAuthdata ∨ address = dmDmcontrol) :
    d.dmiWrite address value bus challenge =
      if isData address then
        let i := address - dmData0
        some (true, ((d.writeData i value).noteBusy).autoexec d.abstractauto.autoexecdata i)
      else if d.isProgbuf address then
        let i := address - dmProgbuf0
        some (true, (d.writeProgbuf i value).autoexec d.abstractauto.autoexecprogbuf i)
      else if address = dmCommand then some (true, (d.setCommand value).performAbstractCommand)
      else if address = dmSbaddress0 then (d.writeSbaddress0 value bus).map fun d' => (true, d')
      else if address = dmSbdata0 then (d.writeSbdata0 value bus).map fun d' => (true, d')
      else some ((d.writePlain address value challenge).isSome,
        (d.writePlain address value challenge).getD d) := by
  have hlet : ¬((!d.authenticated) = true ∧ address ≠ dmAuthdata ∧ address ≠ dmDmcontrol) := by
    rintro ⟨hno, hne, hne'⟩
    obtain hyes | heq | heq := hauth
    · rw [hyes] at hno
      exact Bool.noConfusion hno
    · exact hne heq
    · exact hne' heq
  rw [dmiWrite, if_neg hlet]

/-- What a write does to the module, once it is let through. -/
theorem dmiWrite_cases {address : Nat} {value challenge : BitVec 32} {bus : SysBus}
    {r : Bool × DebugModule}
    (hauth : d.authenticated = true ∨ address = dmAuthdata ∨ address = dmDmcontrol)
    (h : d.dmiWrite address value bus challenge = some r) :
    (isData address = true ∧
      r.2 = (d.writeData (address - dmData0) value).noteBusy.autoexec d.abstractauto.autoexecdata
      (address - dmData0)) ∨
    (d.isProgbuf address = true ∧
      r.2 = (d.writeProgbuf (address - dmProgbuf0) value).autoexec d.abstractauto.autoexecprogbuf
      (address - dmProgbuf0)) ∨
    (address = dmCommand ∧ r.2 = (d.setCommand value).performAbstractCommand) ∨
    (d.writeSbaddress0 value bus = some r.2) ∨ (d.writeSbdata0 value bus = some r.2) ∨
    r.2 = (d.writePlain address value challenge).getD d := by
  rw [dmiWrite_of_authenticated hauth] at h
  split at h
  · rename_i hdata
    cases h
    exact Or.inl ⟨hdata, rfl⟩
  · split at h
    · rename_i hprogbuf
      cases h
      exact Or.inr (Or.inl ⟨hprogbuf, rfl⟩)
    · split_ifs at h with hcommand
      · cases h
        exact Or.inr (Or.inr (Or.inl ⟨hcommand, rfl⟩))
      · obtain ⟨d', hwrite, rfl⟩ := Option.map_eq_some_iff.1 h
        exact Or.inr (Or.inr (Or.inr (Or.inl hwrite)))
      · obtain ⟨d', hwrite, rfl⟩ := Option.map_eq_some_iff.1 h
        exact Or.inr (Or.inr (Or.inr (Or.inr (Or.inl hwrite))))
      · cases h
        exact Or.inr (Or.inr (Or.inr (Or.inr (Or.inr rfl))))

/-- A write that is not let through. -/
theorem dmiWrite_of_unauthenticated {address : Nat} {value challenge : BitVec 32} {bus : SysBus}
    (hauth : ¬(d.authenticated = true ∨ address = dmAuthdata ∨ address = dmDmcontrol)) :
    d.dmiWrite address value bus challenge = some (false, d) := by
  rw [not_or, not_or] at hauth
  rw [dmiWrite, if_pos ⟨by rw [Bool.eq_false_iff.2 hauth.1]; rfl, hauth.2.1, hauth.2.2⟩]

/-! ### One operation -/

/-- An operation that clears `cmderr`: a write of ones to all of its bits, or one that resets the
module. -/
def Clears (d : DebugModule) : DmOp → Prop
  | .dmiWrite address value _ _ =>
    (d.authenticated ∧ address = dmAbstractcs ∧
      (d.writeAbstractcs value).abstractcs.cmderr = CmdErr.none) ∨
      (address = dmDmcontrol ∧ (!d.dmcontrol.dmactive && hasBits value 0x1#32) = true)
  | _ => False

/-- An error that is there is not overwritten. -/
theorem noteBusy_of_error (h : d.abstractcs.cmderr ≠ CmdErr.none) : d.noteBusy = d := by
  rw [noteBusy, if_neg fun hboth => h hboth.2]

/-- With an error the command is not performed again. -/
theorem autoexec_of_error (h : d.abstractcs.cmderr ≠ CmdErr.none) (auto : BitVec 32) (i : Nat) :
    d.autoexec auto i = d := by
  rw [autoexec, performAbstractCommand_of_error h, ite_self]

/-- While a command runs it is not performed again. -/
theorem autoexec_of_busy (h : d.abstractcs.busy = true) (auto : BitVec 32) (i : Nat) :
    d.autoexec auto i = d := by
  rw [autoexec, if_neg fun hboth => by rw [h] at hboth; exact Bool.noConfusion hboth.1]

/-- What one operation does under an error, when it does not clear it. -/
def Stays (d d' : DebugModule) (op : DmOp) : Prop :=
  Dormant d d' ∧ (¬Clears d op → d'.abstractcs.cmderr ≠ CmdErr.none)

theorem Sticky.stays {op : DmOp} (herr : d.abstractcs.cmderr ≠ CmdErr.none) (h : Sticky d d') :
    Stays d d' op :=
  ⟨h.toDormant, fun _ => by rw [h.cmderr herr]; exact herr⟩

theorem stays_writeAbstractcs {value : BitVec 32} {bus : SysBus} {challenge : BitVec 32}
    (hauth : d.authenticated = true) :
    Stays d (d.writeAbstractcs value) (.dmiWrite dmAbstractcs value bus challenge) :=
  ⟨⟨rfl, rfl, id, fun _ => id⟩, fun hkeep hnone => hkeep (Or.inl ⟨hauth, rfl, hnone⟩)⟩

theorem stays_writeDmcontrol {value challenge : BitVec 32} {bus : SysBus}
    (herr : d.abstractcs.cmderr ≠ CmdErr.none) :
    Stays d (d.writeDmcontrol value challenge) (.dmiWrite dmDmcontrol value bus challenge) := by
  have hdormant := (dormant_writeDmactive value challenge).trans
    (sticky_writeDmcontrol (d := d) value challenge).toDormant
  refine ⟨hdormant, fun hkeep => ?_⟩
  have hactive : (!d.dmcontrol.dmactive && hasBits value 0x1#32) = false :=
    Bool.eq_false_iff.2 fun hreset => hkeep (Or.inr ⟨rfl, hreset⟩)
  have hsticky :=
    (sticky_writeDmactive challenge hactive).trans (sticky_writeDmcontrol value challenge)
  rw [hsticky.cmderr herr]
  exact herr

/-- One register of many. -/
theorem sticky_ite {c : Prop} [Decidable c] {x : DebugModule} {rest : Option DebugModule}
    (hx : Sticky d x)
    (hrest : Sticky d (rest.getD d)) : Sticky d ((if c then some x else rest).getD d) := by
  split
  · exact hx
  · exact hrest

/-- A write to one of the registers that are no data and no program. Of these `abstractcs` clears
the bits of the error that it is told to, and `dmcontrol` may reset the module. -/
theorem stays_writePlain {address : Nat} {value challenge : BitVec 32} {bus : SysBus}
    (herr : d.abstractcs.cmderr ≠ CmdErr.none)
    (hauth : d.authenticated = true ∨ address = dmAuthdata ∨ address = dmDmcontrol) :
    Stays d ((d.writePlain address value challenge).getD d)
    (.dmiWrite address value bus challenge) := by
  by_cases hcontrol : address = dmDmcontrol
  · subst hcontrol
    exact stays_writeDmcontrol herr
  by_cases hcs : address = dmAbstractcs
  · subst hcs
    exact stays_writeAbstractcs (hauth.resolve_right (by decide))
  -- none of the others has anything to do with commands
  refine Sticky.stays herr ?_
  rw [writePlain, if_neg hcontrol, if_neg hcs]
  refine sticky_ite (sticky_writeHawindowsel value) ?_
  refine sticky_ite (sticky_writeHawindow value) ?_
  refine sticky_ite (sticky_writeAbstractauto value) ?_
  refine sticky_ite (sticky_writeSbcs value) ?_
  refine sticky_ite (sticky_setSbaddress 1 value) ?_
  refine sticky_ite (sticky_setSbaddress 2 value) ?_
  refine sticky_ite (sticky_setSbaddress 3 value) ?_
  refine sticky_ite (sticky_setSbdata 1 value) ?_
  refine sticky_ite (sticky_setSbdata 2 value) ?_
  refine sticky_ite (sticky_setSbdata 3 value) ?_
  refine sticky_ite (sticky_writeAuthdata value challenge) ?_
  exact sticky_ite (sticky_writeDmcs2 value) (Sticky.refl d)

/-- **Reads** of the debugger, which may perform the command again. -/
theorem stays_dmiRead {address : Nat} {bus : SysBus} (herr : d.abstractcs.cmderr ≠ CmdErr.none)
    (h : d.act (.dmiRead address bus) = some d') : Stays d d' (.dmiRead address bus) := by
  obtain ⟨r, hr, rfl⟩ := Option.map_eq_some_iff.1 h
  obtain ⟨-, heq⟩ | ⟨-, heq⟩ | hsb | heq := dmiRead_cases hr
  · rw [heq, noteBusy_of_error herr, autoexec_of_error herr]
    exact (Sticky.refl d).stays herr
  · rw [heq, autoexec_of_error herr]
    exact (Sticky.refl d).stays herr
  · exact (sticky_readSbdata0 hsb).stays herr
  · rw [heq]
    exact (Sticky.refl d).stays herr

theorem sticky_writeData (i : Nat) (value : BitVec 32) : Sticky d (d.writeData i value) := by
  rw [writeData]
  split
  · exact Sticky.refl d
  · exact Sticky.of_eq rfl rfl rfl rfl

theorem sticky_writeProgbuf (i : Nat) (value : BitVec 32) : Sticky d (d.writeProgbuf i value) := by
  rw [writeProgbuf]
  split
  · exact Sticky.refl d
  · exact Sticky.of_eq rfl rfl rfl rfl

/-- **Writes** of the debugger. -/
theorem stays_dmiWrite {address : Nat} {value challenge : BitVec 32} {bus : SysBus}
    (herr : d.abstractcs.cmderr ≠ CmdErr.none)
    (h : d.act (.dmiWrite address value bus challenge) = some d') :
    Stays d d' (.dmiWrite address value bus challenge) := by
  obtain ⟨r, hr, rfl⟩ := Option.map_eq_some_iff.1 h
  by_cases hauth : d.authenticated = true ∨ address = dmAuthdata ∨ address = dmDmcontrol
  · obtain ⟨-, heq⟩ | ⟨-, heq⟩ | ⟨-, heq⟩ | hsb | hsb | heq := dmiWrite_cases hauth hr
    · have hdata := sticky_writeData (d := d) (address - dmData0) value
      have herr' := fun hnone => herr ((hdata.cmderr herr).symm.trans hnone)
      rw [heq, noteBusy_of_error herr', autoexec_of_error herr']
      exact hdata.stays herr
    · have hprogbuf := sticky_writeProgbuf (d := d) (address - dmProgbuf0) value
      rw [heq, autoexec_of_error fun hnone => herr ((hprogbuf.cmderr herr).symm.trans hnone)]
      exact hprogbuf.stays herr
    · have hcommand : Sticky d (d.setCommand value) := Sticky.of_eq rfl rfl rfl rfl
      rw [heq, performAbstractCommand_of_error (d := d.setCommand value) herr]
      exact hcommand.stays herr
    · exact (sticky_writeSbaddress0 hsb).stays herr
    · exact (sticky_writeSbdata0 hsb).stays herr
    · rw [heq]
      exact stays_writePlain herr hauth
  · rw [dmiWrite_of_unauthenticated hauth] at hr
    cases hr
    exact (Sticky.refl d).stays herr

/-- **One operation under an error** starts no command. -/
theorem stays_act {op : DmOp} (herr : d.abstractcs.cmderr ≠ CmdErr.none) (h : d.act op = some d') :
    Stays d d' op := by
  cases op with
  | dmiRead address bus => exact stays_dmiRead herr h
  | dmiWrite address value bus challenge => exact stays_dmiWrite herr h
  | runTestIdle =>
    cases h
    have hdone : (d.runTestIdle).abstractcs.busy → d.abstractcs.busy := by
      rw [runTestIdle]
      dsimp only
      split
      · exact fun hb => absurd hb Bool.false_ne_true
      · exact id
    refine Sticky.stays herr ⟨⟨rfl, rfl, hdone, fun _ => id⟩, fun _ => ?_⟩
    rw [runTestIdle]
    dsimp only
    split <;> rfl
  | store addr bytes =>
    obtain ⟨r, hr, rfl⟩ := Option.map_eq_some_iff.1 h
    exact (sticky_store hr).stays herr
  | procReset id =>
    cases h
    exact (sticky_procReset id).stays herr

/-! ### Runs -/

/-- Behind an assertion that has failed nothing happens. -/
theorem run_step_none (ops : List DmOp) : run step none ops = none := by
  induction ops with
  | nil => rfl
  | cons op ops ih => exact ih

/-- **A run under an error** starts no command, as long as nobody clears the error. -/
theorem dormant_run {ops : List DmOp} (herr : d.abstractcs.cmderr ≠ CmdErr.none)
    (hops : Along step (fun s op => ∀ d, s = some d → ¬Clears d op) (some d) ops)
    (h : run step (some d) ops = some d') : d'.abstractcs.cmderr ≠ CmdErr.none ∧ Dormant d d' := by
  induction ops generalizing d with
  | nil =>
    cases h
    exact ⟨herr, Dormant.refl _⟩
  | cons op ops ih =>
    rw [run_cons] at h
    cases hact : d.act op with
    | none =>
      rw [step, Option.bind_some, hact, run_step_none] at h
      cases h
    | some d₁ =>
      obtain ⟨hdormant, hkept⟩ := stays_act herr hact
      have hstep : step (some d) op = some d₁ := hact
      have hrest := hops.2
      rw [hstep] at h hrest
      obtain ⟨herr', hdormant'⟩ := ih (hkept (hops.1 _ rfl)) hrest h
      exact ⟨herr', hdormant.trans hdormant'⟩

end DebugModule

/-! ### What the debugger accesses -/

namespace DmOp

/-- Is it an access to a data register? -/
def accessesData : DmOp → Bool
  | .dmiRead address _ => DebugModule.isData address
  | .dmiWrite address _ _ _ => DebugModule.isData address
  | _ => false

/-- Is it an access to the program buffer? -/
def accessesProgbuf (d : DebugModule) : DmOp → Bool
  | .dmiRead address _ => d.isProgbuf address
  | .dmiWrite address _ _ _ => d.isProgbuf address
  | _ => false

/-- Is it a write of the command register? -/
def writesCommand : DmOp → Bool
  | .dmiWrite address _ _ _ => address == DebugModule.dmCommand
  | _ => false

/-- A debugger that has not authenticated itself may read, but hardly write. -/
def letThrough (d : DebugModule) : DmOp → Bool
  | .dmiWrite _ _ _ _ => d.authenticated
  | _ => true

/-- Does the register that is accessed start the command again? -/
def autoexecutes (d : DebugModule) (address : Nat) : Bool :=
  if DebugModule.isData address then d.abstractauto.autoexecdata.getLsbD
    (address - DebugModule.dmData0)
  else d.isProgbuf address && d.abstractauto.autoexecprogbuf.getLsbD
    (address - DebugModule.dmProgbuf0)

/-- Is it to perform a command, if none runs? -/
def performs (d : DebugModule) : DmOp → Bool
  | .dmiRead address _ => autoexecutes d address
  | .dmiWrite address _ _ _ => d.authenticated &&
    (autoexecutes d address || address == DebugModule.dmCommand)
  | _ => false

/-- The access itself, before the command that it is to perform. -/
def accessed (d : DebugModule) : DmOp → DebugModule
  | .dmiWrite address value _ _ =>
    if DebugModule.isData address then d.writeData (address - DebugModule.dmData0) value
    else if d.isProgbuf address then d.writeProgbuf (address - DebugModule.dmProgbuf0) value
    else d.setCommand value
  | _ => d

end DmOp

namespace DebugModule

variable {d d' : DebugModule}

/-- A bit of `abstractauto` has the command performed. -/
theorem autoexec_of_bit (hbusy : d.abstractcs.busy = false) {auto : BitVec 32}
    {i : Nat} (hbit : auto.getLsbD i = true) :
    d.autoexec auto i = d.performAbstractCommand := by
  rw [autoexec, if_pos ⟨by rw [hbusy]; rfl, hbit⟩]

theorem noteBusy_of_idle (hbusy : d.abstractcs.busy = false) : d.noteBusy = d := by
  rw [noteBusy, if_neg fun hboth => by rw [hbusy] at hboth; exact Bool.noConfusion hboth.1]

theorem abstractcs_writeData (i : Nat) (value : BitVec 32) :
    (d.writeData i value).abstractcs = d.abstractcs := by
  rw [writeData]
  split <;> rfl

theorem abstractcs_writeProgbuf (i : Nat) (value : BitVec 32) :
    (d.writeProgbuf i value).abstractcs = d.abstractcs := by
  rw [writeProgbuf]
  split <;> rfl

theorem abstractcs_accessed (op : DmOp) : (op.accessed d).abstractcs = d.abstractcs := by
  cases op with
  | dmiWrite address value bus challenge =>
    rw [DmOp.accessed]
    split
    · exact abstractcs_writeData _ _
    · split
      · exact abstractcs_writeProgbuf _ _
      · rfl
  | _ => rfl

/-- **An access performs a command** on the state that it leaves. -/
theorem act_of_performs {op : DmOp} (hbusy : d.abstractcs.busy = false)
    (hop : op.performs d = true) :
    d.act op = some (op.accessed d).performAbstractCommand := by
  cases op with
  | dmiRead address bus =>
    rw [DmOp.performs, DmOp.autoexecutes] at hop
    rw [act, dmiRead]
    split at hop
    · rename_i hdata
      rw [if_pos hdata, noteBusy_of_idle hbusy]
      dsimp only
      rw [autoexec_of_bit hbusy hop]
      rfl
    · rename_i hdata
      rw [Bool.and_eq_true] at hop
      rw [if_neg hdata, if_pos hop.1]
      dsimp only
      rw [autoexec_of_bit hbusy hop.2]
      rfl
  | dmiWrite address value bus challenge =>
    rw [DmOp.performs, Bool.and_eq_true, Bool.or_eq_true] at hop
    obtain ⟨hauth, hauto | hcommand⟩ := hop
    · rw [DmOp.autoexecutes] at hauto
      rw [act, dmiWrite_of_authenticated (Or.inl hauth), DmOp.accessed]
      split at hauto
      · rename_i hdata
        have hidle : (d.writeData (address - dmData0) value).abstractcs.busy = false := by
          rw [abstractcs_writeData, hbusy]
        rw [if_pos hdata, if_pos hdata]
        dsimp only
        rw [noteBusy_of_idle hidle, autoexec_of_bit hidle hauto]
        rfl
      · rename_i hdata
        rw [Bool.and_eq_true] at hauto
        have hidle : (d.writeProgbuf (address - dmProgbuf0) value).abstractcs.busy = false := by
          rw [abstractcs_writeProgbuf, hbusy]
        rw [if_neg hdata, if_neg hdata, if_pos hauto.1, if_pos hauto.1]
        dsimp only
        rw [autoexec_of_bit hidle hauto.2]
        rfl
    · cases beq_iff_eq.1 hcommand
      rw [act, dmiWrite_of_authenticated (Or.inl hauth)]
      rfl
  | runTestIdle => exact Bool.noConfusion hop
  | store addr bytes => exact Bool.noConfusion hop
  | procReset id => exact Bool.noConfusion hop

/-- An access that is turned away: what the command uses is left as it was, and the error is
recorded unless there is one already. Of the program buffer, nothing is said about the error, and of
a write of the command register, nothing about what is stored there. -/
structure TurnedAway (d d' : DebugModule) (op : DmOp) : Prop where
  dmdata : d'.dmdata = d.dmdata
  programBuffer : d'.programBuffer = d.programBuffer
  debugAbstract : d'.debugAbstract = d.debugAbstract
  command : op.writesCommand = false → d'.command = d.command
  recorded : op.letThrough d = true → op.accessesData = true ∨ op.writesCommand = true →
    d'.abstractcs.cmderr = if d.abstractcs.cmderr = CmdErr.none then CmdErr.busy
      else d.abstractcs.cmderr

/-- An access that comes too early is recorded unless there is an error already. -/
theorem cmderr_noteBusy (hbusy : d.abstractcs.busy = true) :
    d.noteBusy.abstractcs.cmderr = if d.abstractcs.cmderr = CmdErr.none then CmdErr.busy
      else d.abstractcs.cmderr := by
  rw [noteBusy]
  by_cases hnone : d.abstractcs.cmderr = CmdErr.none
  · rw [if_pos ⟨hbusy, hnone⟩, if_pos hnone]
    rfl
  · rw [if_neg fun hboth => hnone hboth.2, if_neg hnone]

/-- The error is recorded, and nothing else. -/
theorem turnedAway_noteBusy (hbusy : d.abstractcs.busy = true) (op : DmOp) :
    TurnedAway d d.noteBusy op := by
  have hframe : d.noteBusy = d ∨ d.noteBusy = d.setCmderr CmdErr.busy := by
    rw [noteBusy]
    split
    · exact Or.inr rfl
    · exact Or.inl rfl
  have hrecorded :=
    fun (_ : op.letThrough d = true) (_ : op.accessesData = true ∨ op.writesCommand = true) =>
    cmderr_noteBusy hbusy
  obtain heq | heq := hframe
  · exact ⟨by rw [heq], by rw [heq], by rw [heq], fun _ => by rw [heq], hrecorded⟩
  · exact ⟨by rw [heq]; rfl, by rw [heq]; rfl, by rw [heq]; rfl, fun _ => by rw [heq]; rfl,
      hrecorded⟩

/-- An access without a record. -/
theorem turnedAway_refl {op : DmOp}
    (h : ¬(op.letThrough d = true ∧ (op.accessesData = true ∨ op.writesCommand = true))) :
    TurnedAway d d op :=
  ⟨rfl, rfl, rfl, fun _ => rfl, fun hlet hop => absurd ⟨hlet, hop⟩ h⟩

/-- **While a command runs**, the debugger is turned away. -/
theorem turnedAway_act {op : DmOp} (hbusy : d.abstractcs.busy = true)
    (hop : op.accessesData = true ∨ op.accessesProgbuf d = true ∨ op.writesCommand = true)
    (h : d.act op = some d') :
    TurnedAway d d' op := by
  cases op with
  | dmiRead address bus =>
    rw [act, dmiRead] at h
    split at h
    · -- a data register
      dsimp only at h
      rw [autoexec_of_busy (busy_noteBusy.trans hbusy)] at h
      cases h
      exact turnedAway_noteBusy hbusy _
    · -- the program buffer
      rename_i hdata
      have hprogbuf : d.isProgbuf address = true :=
        (hop.resolve_left hdata).resolve_right Bool.false_ne_true
      rw [if_pos hprogbuf] at h
      dsimp only at h
      rw [autoexec_of_busy hbusy] at h
      cases h
      exact turnedAway_refl fun hboth => hboth.2.elim hdata Bool.false_ne_true
  | dmiWrite address value bus challenge =>
    by_cases hauth : d.authenticated = true ∨ address = dmAuthdata ∨ address = dmDmcontrol
    · rw [act, dmiWrite_of_authenticated hauth] at h
      split at h
      · dsimp only at h
        rw [writeData, if_pos hbusy, autoexec_of_busy (busy_noteBusy.trans hbusy)] at h
        cases h
        exact turnedAway_noteBusy hbusy _
      · rename_i hdata
        split at h
        · rename_i hprogbuf
          dsimp only at h
          rw [writeProgbuf, if_pos hbusy, autoexec_of_busy hbusy] at h
          cases h
          refine turnedAway_refl fun hboth => hboth.2.elim hdata fun hcommand => ?_
          cases beq_iff_eq.1 hcommand
          exact Bool.false_ne_true hprogbuf
        · rename_i hprogbuf
          have hcommand := (hop.resolve_left hdata).resolve_left hprogbuf
          rw [if_pos (beq_iff_eq.1 hcommand),
            performAbstractCommand_of_busy (d := d.setCommand value) hbusy] at h
          cases h
          have haway := turnedAway_noteBusy (d := d.setCommand value) hbusy
            (.dmiWrite address value bus challenge)
          exact ⟨haway.dmdata, haway.programBuffer, haway.debugAbstract,
            fun hno => absurd hcommand (by rw [hno]; exact Bool.false_ne_true), haway.recorded⟩
    · rw [act, dmiWrite_of_unauthenticated hauth] at h
      cases h
      exact turnedAway_refl fun hboth => hauth (Or.inl hboth.1)
  | runTestIdle => obtain hop | hop | hop := hop <;> cases hop
  | store addr bytes => obtain hop | hop | hop := hop <;> cases hop
  | procReset id => obtain hop | hop | hop := hop <;> cases hop

/-! ### The protocol -/

/-- **The busy protocol.** While a command runs, the debugger's accesses to the data, to the program
buffer and to the command register leave what the command uses as it was, and those to the data and
to the command register are recorded, unless the debugger has not authenticated itself. An error
stops every command, until the debugger clears it or resets the module. And a command that is turned
away while none runs leaves nothing but an error behind, beside the access that was to perform it
and the words of its program. -/
theorem busy_protocol :
    (∀ (d d' : DebugModule) (op : DmOp), d.abstractcs.busy = true →
      op.accessesData = true ∨ op.accessesProgbuf d = true ∨ op.writesCommand = true →
      d.act op = some d' →
        TurnedAway d d' op) ∧
    (∀ (d d' : DebugModule) (ops : List DmOp), d.abstractcs.cmderr ≠ CmdErr.none →
      Along step (fun s op => ∀ d, s = some d → ¬Clears d op) (some d) ops →
      run step (some d) ops = some d' →
        d'.abstractcs.cmderr ≠ CmdErr.none ∧ Dormant d d') ∧
    ∀ (d d' : DebugModule) (op : DmOp), d.abstractcs.busy = false → op.performs d = true →
    d.act op = some d' →
      d'.abstractcs.cmderr ≠ CmdErr.none → ∃ mem err, d' = (op.accessed d).rejected mem err := by
  refine ⟨fun d d' op hbusy hop h => turnedAway_act hbusy hop h,
    fun d d' ops herr hops h => dormant_run herr hops h, ?_⟩
  intro d d' op hbusy hop h herr
  rw [act_of_performs hbusy hop] at h
  cases h
  refine performAbstractCommand_of_rejected ?_ herr
  rw [abstractcs_accessed, hbusy]

/-- A bus that accepts nothing. -/
def deafBus : SysBus :=
  ⟨fun _ _ => .accessFault, fun _ _ => false⟩

/-- A write of the debugger. -/
def written (address : Nat) (value : BitVec 32) : DmOp :=
  .dmiWrite address value deafBus 0#32

/-- A command that is not supported is stored all the same, so a rejected command changes more than
`cmderr`; and when the debugger deactivates the module and activates it again, which is no write of
ones to `cmderr`, the next command starts. -/
theorem not_busy_protocol :
    (¬∀ (d d' : DebugModule) (op : DmOp), d.abstractcs.busy = false → op.performs d = true →
      d.act op = some d' →
      d'.abstractcs.cmderr ≠ CmdErr.none → ∃ err, d' = d.setCmderr err) ∧
    ¬∀ (d d' : DebugModule) (ops : List DmOp), d.abstractcs.cmderr ≠ CmdErr.none →
      (∀ op ∈ ops, ∀ value bus challenge, op ≠ .dmiWrite dmAbstractcs value bus challenge) →
        run step (some d) ops = some d' → d.abstractcs.busy = false →
        d'.abstractcs.busy = false := by
  constructor
  · intro h
    obtain ⟨err, heq⟩ :=
      h (initial oneHart 0#32) _ (written dmCommand 0x1000000#32) rfl rfl rfl (by decide)
    have hcommand : 0x1000000#32 = 0#32 := congrArg command heq
    exact absurd hcommand (by decide)
  · intro h
    have hbusy := h ((initial oneHart 0#32).setCmderr CmdErr.notsup) _
      [written dmDmcontrol 0#32, written dmDmcontrol 1#32,
        .store debugRomHalted [0#8, 0#8, 0#8, 0#8],
        written dmCommand 0#32] (by decide) ?_ rfl rfl
    · exact absurd hbusy (by decide)
    · simp [written, dmDmcontrol, dmAbstractcs, dmCommand]

end DebugModule

end Nnemu

import Nnemu.Debug.SystemBus

/-!
# Authentication

With `require_authentication`, a debugger that has not answered the challenge is to see nothing of
the harts and to change nothing but the state of the handshake. What it could see is put together in
`Secrets`; two modules that differ in them alone are `d` and `d.withSecrets s`.

The writes are turned away at the head of `dmi_write`, but for `authdata` and `dmcontrol`, and the
latter resets the module when it makes it active. The reads are not turned away at all. `exposed`
lists the accesses that show a secret or do something, and `unseen` is about the sessions without
any of them.

The proof compares two modules that differ in their secrets, access by access: outside `exposed` the
replies are equal and the modules still differ in their secrets alone. For the writes it is shown
besides that nothing but the handshake has moved (`Handshake`), where the reset of a module that is
at its reset values already counts as nothing.
-/

namespace Nnemu

open Run

/-- What only an authenticated debugger is to see of a module. -/
structure Secrets where
  dmdata : Region
  programBuffer : Region
  sbaddress : Nat → BitVec 32
  sbdata : Nat → BitVec 32

namespace DebugModule

variable (d : DebugModule)

/-- The module with other secrets. -/
def withSecrets (s : Secrets) : DebugModule :=
  { d with dmdata := s.dmdata, programBuffer := s.programBuffer, sbaddress :=
    s.sbaddress, sbdata := s.sbdata }

/-- The secrets of the module. -/
def secrets : Secrets :=
  ⟨d.dmdata, d.programBuffer, d.sbaddress, d.sbdata⟩

theorem withSecrets_secrets : d.withSecrets d.secrets = d :=
  rfl

/-- The state of the handshake and `dmactive`. -/
def withHandshake (authenticated : Bool) (challenge : BitVec 32) (dmactive : Bool) : DebugModule :=
  { d with
    authenticated := authenticated
    challenge := challenge
    dmcontrol := { d.dmcontrol with dmactive := dmactive } }

/-- The registers that a reset clears are clear: no hart is asked to halt, no error is recorded,
nothing is repeated. Only `dmactive` and the handshake may differ from what a reset leaves. -/
def AtReset : Prop :=
  (∀ id ∈ d.config.hartids, d.haltRequest id = .none) ∧
    { d.dmcontrol with dmactive := false } = (d.reset d.challenge).dmcontrol ∧
    d.abstractcs = (d.reset d.challenge).abstractcs ∧
    d.abstractauto = (d.reset d.challenge).abstractauto ∧
    d.sbcs = (d.reset d.challenge).sbcs

instance : Decidable d.AtReset :=
  inferInstanceAs (Decidable (_ ∧ _ ∧ _ ∧ _ ∧ _))

end DebugModule

namespace DmiAccess

open DebugModule

/-- The registers of the system bus that hold an address or data. -/
def busRegisters : List Nat :=
  [dmSbaddress0, dmSbaddress1, dmSbaddress2, dmSbaddress3, dmSbdata0, dmSbdata1,
    dmSbdata2, dmSbdata3]

/-- Does an access without authentication show a secret, or change more than the handshake? A read
of the data while a command runs records an error, unless there is one. A write of `dmcontrol` that
makes the module active resets it. A program buffer of more than 16 words would cover `authdata`. -/
def exposed (d : DebugModule) : DmiAccess → Bool
  | read address =>
    (isData address && (!d.abstractcs.busy || d.abstractcs.cmderr == CmdErr.none)) ||
      (d.isProgbuf address && !d.abstractcs.busy) || busRegisters.contains address
  | write address value _ =>
    (address == dmDmcontrol && !d.dmcontrol.dmactive && hasBits value 0x1#32 &&
      !decide d.AtReset) ||
      (address == dmAuthdata && d.isProgbuf address && !d.abstractcs.busy)

/-- What the debugger gets to see: the result of a read, unless a trap leaves it. -/
def reply (d : DebugModule) (bus : SysBus) : DmiAccess → List (Option (Option (BitVec 32)))
  | read address => [(d.dmiRead address bus).map Prod.fst]
  | write _ _ _ => []

end DmiAccess

namespace DebugModule

variable {d d' : DebugModule}

/-! ### The handshake -/

/-- Nothing is changed but the state of the handshake and `dmactive`. -/
def Handshake (d d' : DebugModule) : Prop :=
  ∃ authenticated challenge dmactive, d' = d.withHandshake authenticated challenge dmactive

theorem Handshake.refl (d : DebugModule) : Handshake d d :=
  ⟨d.authenticated, d.challenge, d.dmcontrol.dmactive, rfl⟩

theorem Handshake.config (h : Handshake d d') : d'.config = d.config := by
  obtain ⟨_, _, _, rfl⟩ := h
  rfl

/-- The handshake leaves the secrets alone. -/
theorem Handshake.secrets (h : Handshake d d') : d'.secrets = d.secrets := by
  obtain ⟨_, _, _, rfl⟩ := h
  rfl

/-- The handshake starts no command. -/
theorem Handshake.dormant (h : Handshake d d') : Dormant d d' := by
  obtain ⟨_, _, _, rfl⟩ := h
  exact ⟨rfl, rfl, id, fun _ => id⟩

/-- Where everything is clear already, **a reset** is a move of the handshake. -/
theorem AtReset.reset (h : d.AtReset) (challenge : BitVec 32) :
    d.reset challenge = d.withHandshake (!d.config.requireAuthentication) challenge false := by
  obtain ⟨hhalt, hcontrol, habstract, hauto, hsbcs⟩ := h
  have hrequests : (d.reset challenge).haltRequest = d.haltRequest := by
    funext id
    by_cases hid : id ∈ d.config.hartids
    · exact (if_pos hid).trans (hhalt id hid).symm
    · exact if_neg hid
  calc d.reset challenge
    _ = { d with
          haltRequest := (d.reset challenge).haltRequest
          dmcontrol := (d.reset d.challenge).dmcontrol
          authenticated := !d.config.requireAuthentication
          abstractcs := (d.reset d.challenge).abstractcs
          abstractauto := (d.reset d.challenge).abstractauto
          sbcs := (d.reset d.challenge).sbcs
          challenge := challenge } := rfl
    _ = d.withHandshake (!d.config.requireAuthentication) challenge false := by
      rw [hrequests, ← hcontrol, ← habstract, ← hauto, ← hsbcs]
      rfl

/-! ### Reads -/

/-- The other registers show no secret. -/
theorem plainValue_withSecrets {address : Nat} (h : DmiAccess.busRegisters.contains address = false)
    (s : Secrets) :
    (d.withSecrets s).plainValue address = d.plainValue address := by
  have hne : ∀ r ∈ DmiAccess.busRegisters, address ≠ r := by
    rintro r hr rfl
    rw [List.contains_iff_mem.2 hr] at h
    cases h
  rw [plainValue, plainValue]
  simp only [if_neg (hne dmSbaddress0 (by decide)), if_neg (hne dmSbaddress1 (by decide)),
    if_neg (hne dmSbaddress2 (by decide)), if_neg (hne dmSbaddress3 (by decide)),
    if_neg (hne dmSbdata1 (by decide)),
    if_neg (hne dmSbdata2 (by decide)), if_neg (hne dmSbdata3 (by decide))]
  rfl

/-- **A read that is not exposed** has no effect and shows no secret. -/
theorem dmiRead_unseen {address : Nat} (h : (DmiAccess.read address).exposed d = false) :
    ∃ v, ∀ s bus, (d.withSecrets s).dmiRead address bus = some (v, d.withSecrets s) := by
  rw [DmiAccess.exposed, Bool.or_eq_false_iff, Bool.or_eq_false_iff] at h
  obtain ⟨⟨hdata, hprogbuf⟩, hbus⟩ := h
  by_cases hd : isData address = true
  · -- a command runs, and there is an error already
    rw [hd, Bool.true_and, Bool.or_eq_false_iff] at hdata
    have hbusy : d.abstractcs.busy = true := by simpa using hdata.1
    have herr : d.abstractcs.cmderr ≠ CmdErr.none := by simpa using hdata.2
    refine ⟨some 0xffffffff#32, fun s bus => ?_⟩
    have hsame : (d.withSecrets s).noteBusy = d.withSecrets s := noteBusy_of_error herr
    simp only [dmiRead, if_pos hd,
      if_pos (show (d.withSecrets s).abstractcs.busy = true from hbusy), hsame,
      autoexec_of_busy (show (d.withSecrets s).abstractcs.busy = true from hbusy)]
  · by_cases hp : d.isProgbuf address = true
    · rw [hp, Bool.true_and] at hprogbuf
      have hbusy : d.abstractcs.busy = true := by simpa using hprogbuf
      refine ⟨some 0xffffffff#32, fun s bus => ?_⟩
      simp only [dmiRead, if_neg hd,
        if_pos (show (d.withSecrets s).isProgbuf address = true from hp),
        if_pos (show (d.withSecrets s).abstractcs.busy = true from hbusy),
        autoexec_of_busy (show (d.withSecrets s).abstractcs.busy = true from hbusy)]
    · have hne : address ≠ dmSbdata0 := by
        rintro rfl
        exact absurd hbus (by decide)
      refine ⟨d.plainValue address, fun s bus => ?_⟩
      rw [dmiRead, if_neg hd, if_neg (show ¬(d.withSecrets s).isProgbuf address = true from hp),
        if_neg hne,
        plainValue_withSecrets hbus]

/-! ### Writes -/

/-- A write of `dmactive` without authentication is a move of the handshake, unless it resets a
module that has something to clear. -/
theorem writeDmactive_unseen {value : BitVec 32} (hauth : d.authenticated = false)
    (hreq : d.config.requireAuthentication = true)
    (hreset : d.dmcontrol.dmactive = false → hasBits value 0x1#32 = true → d.AtReset)
    (challenge : BitVec 32) :
    ∃ challenge', d.writeDmactive value challenge =
      d.withHandshake false challenge' (hasBits value 0x1#32) := by
  by_cases hactivate : d.dmcontrol.dmactive = false ∧ hasBits value 0x1#32 = true
  · obtain ⟨hinactive, hactive⟩ := hactivate
    refine ⟨challenge, ?_⟩
    rw [writeDmactive, hinactive, hactive, (hreset hinactive hactive).reset, hreq]
    rfl
  · refine ⟨d.challenge, ?_⟩
    have hkeeps : (!d.dmcontrol.dmactive && hasBits value 0x1#32) = false := by
      simpa using hactivate
    rw [writeDmactive, hkeeps, if_neg Bool.false_ne_true, withHandshake, ← hauth]
    rfl

/-- A write of `dmcontrol` without authentication goes no further than `dmactive`. -/
theorem writeDmcontrol_unseen {value : BitVec 32} (hreq : d.config.requireAuthentication = true)
    (hauth : d.authenticated = false)
    (hreset : d.dmcontrol.dmactive = false → hasBits value 0x1#32 = true → d.AtReset)
    (challenge : BitVec 32) :
    ∃ d', Handshake d d' ∧ ∀ s, (d.withSecrets s).writeDmcontrol value challenge =
      d'.withSecrets s := by
  obtain ⟨challenge', hwrite⟩ := writeDmactive_unseen hauth hreq hreset challenge
  refine ⟨d.withHandshake false challenge' (hasBits value 0x1#32), ⟨_, _, _, rfl⟩, fun s => ?_⟩
  have hdmactive : (d.withSecrets s).writeDmactive value challenge =
      (d.withHandshake false challenge' (hasBits value 0x1#32)).withSecrets s := by
    rw [← hwrite, writeDmactive, writeDmactive]
    by_cases hactivate : (!d.dmcontrol.dmactive && hasBits value 0x1#32) = true
    · rw [if_pos hactivate,
        if_pos (show (!(d.withSecrets s).dmcontrol.dmactive && _) = true from hactivate)]
      rfl
    · rw [if_neg hactivate,
        if_neg (show ¬(!(d.withSecrets s).dmcontrol.dmactive && _) = true from hactivate)]
      rfl
  rw [writeDmcontrol, hdmactive]
  rfl

/-- A write of `authdata` is a move of the handshake. -/
theorem writeAuthdata_unseen (value challenge : BitVec 32) :
    ∃ d', Handshake d d' ∧ ∀ s, (d.withSecrets s).writeAuthdata value challenge =
      d'.withSecrets s := by
  refine ⟨d.writeAuthdata value challenge, ?_, fun s => ?_⟩
  · rw [writeAuthdata]
    split_ifs
    · exact Handshake.refl d
    · exact ⟨true, d.challenge, d.dmcontrol.dmactive, rfl⟩
    · exact ⟨false, challenge, d.dmcontrol.dmactive, rfl⟩
  · simp only [writeAuthdata]
    split_ifs <;> first | rfl | contradiction

/-- **A write without authentication** is a move of the handshake, or nothing at all. -/
theorem dmiWrite_unseen {address : Nat} {value challenge : BitVec 32}
    (hreq : d.config.requireAuthentication = true)
    (hauth : d.authenticated = false)
    (h : (DmiAccess.write address value challenge).exposed d = false) :
    ∃ v d', Handshake d d' ∧ ∀ s bus, (d.withSecrets s).dmiWrite address value bus challenge =
      some (v, d'.withSecrets s) := by
  rw [DmiAccess.exposed, Bool.or_eq_false_iff] at h
  obtain ⟨hreset, hprogbuf⟩ := h
  by_cases hcontrol : address = dmDmcontrol
  · subst hcontrol
    have hclear : d.dmcontrol.dmactive = false → hasBits value 0x1#32 = true → d.AtReset := by
      intro hinactive hactive
      simpa [hinactive, hactive] using hreset
    obtain ⟨d', hhandshake, hd'⟩ := writeDmcontrol_unseen hreq hauth hclear challenge
    refine ⟨true, d', hhandshake, fun s bus => ?_⟩
    rw [dmiWrite_of_authenticated (Or.inr (Or.inr rfl)), ← hd']
    rfl
  by_cases hauthdata : address = dmAuthdata
  · subst hauthdata
    by_cases hp : d.isProgbuf dmAuthdata = true
    · -- the program buffer covers the register, and a command runs
      rw [hp, beq_self_eq_true, Bool.true_and, Bool.true_and] at hprogbuf
      have hbusy : d.abstractcs.busy = true := by simpa using hprogbuf
      refine ⟨true, d, Handshake.refl d, fun s bus => ?_⟩
      have hbusy' : (d.withSecrets s).abstractcs.busy = true := hbusy
      rw [dmiWrite_of_authenticated (Or.inr (Or.inl rfl)), if_neg (by decide),
        if_pos (show (d.withSecrets s).isProgbuf dmAuthdata = true from hp)]
      simp only [writeProgbuf, if_pos hbusy', autoexec_of_busy hbusy']
    · obtain ⟨d', hhandshake, hd'⟩ := writeAuthdata_unseen (d := d) value challenge
      refine ⟨true, d', hhandshake, fun s bus => ?_⟩
      rw [dmiWrite_of_authenticated (Or.inr (Or.inl rfl)), if_neg (by decide),
        if_neg (show ¬(d.withSecrets s).isProgbuf dmAuthdata = true from hp), ← hd']
      rfl
  · refine ⟨false, d, Handshake.refl d, fun s bus => ?_⟩
    refine dmiWrite_of_unauthenticated ?_
    rintro (hyes | heq | heq)
    · exact Bool.false_ne_true (hauth.symm.trans hyes)
    · exact hauthdata heq
    · exact hcontrol heq

end DebugModule

namespace DmiAccess

open DebugModule

variable {d : DebugModule} {a : DmiAccess}

/-! ### Sessions -/

/-- One access of a session, on what is then the bus. -/
def session (s : Option DebugModule) (o : DmiAccess × SysBus) : Option DebugModule :=
  step s (o.1.op o.2)

/-- What the debugger sees of it. -/
def sees (s : Option DebugModule) (o : DmiAccess × SysBus) : List (Option (Option (BitVec 32))) :=
  s.elim [] fun d => o.1.reply d o.2

/-- An access that stays within the handshake: it returns, changes nothing else, starts no command
and makes no access of the bus. -/
structure Contained (d : DebugModule) (bus : SysBus) (a : DmiAccess) : Prop where
  handshake : ∃ d', d.act (a.op bus) = some d' ∧ Handshake d d' ∧ Dormant d d'
  silent : a.performed d = none

/-- **One access** that is not exposed stays within the handshake, and shows the same whatever the
secrets and the bus. -/
theorem act_unseen (hreq : d.config.requireAuthentication = true) (hauth : d.authenticated = false)
    (h : a.exposed d = false) :
    ∃ v d', Handshake d d' ∧ ∀ s bus, a.reply (d.withSecrets s) bus = v ∧
      (d.withSecrets s).act (a.op bus) = some (d'.withSecrets s) := by
  cases a with
  | read address =>
    obtain ⟨v, hv⟩ := dmiRead_unseen h
    refine ⟨[some v], d, Handshake.refl d, fun s bus => ⟨?_, ?_⟩⟩
    · rw [reply, hv]
      rfl
    · rw [op, act, hv]
      rfl
  | write address value challenge =>
    obtain ⟨v, d', hhandshake, hv⟩ := dmiWrite_unseen hreq hauth h
    refine ⟨[], d', hhandshake, fun s bus => ⟨rfl, ?_⟩⟩
    rw [op, act, hv]
    rfl

/-- Without authentication, only an exposed access goes to the bus. -/
theorem performed_unseen (hauth : d.authenticated = false) (h : a.exposed d = false) :
    a.performed d = none := by
  have hcause : a.cause d = none := by
    cases a with
    | read address =>
      rw [DmiAccess.cause, if_neg]
      rintro ⟨rfl, -⟩
      rw [exposed, Bool.or_eq_false_iff] at h
      exact absurd h.2 (by decide)
    | write address value challenge =>
      rw [DmiAccess.cause, hauth]
      rfl
  rw [performed, hcause]
  rfl

theorem contained_unseen (hreq : d.config.requireAuthentication = true)
    (hauth : d.authenticated = false)
    (h : a.exposed d = false) (bus : SysBus) : a.Contained d bus := by
  obtain ⟨v, d', hhandshake, hact⟩ := act_unseen hreq hauth h
  have hact' := (hact d.secrets bus).2
  rw [withSecrets_secrets, ← hhandshake.secrets, withSecrets_secrets] at hact'
  exact ⟨⟨d', hact', hhandshake, hhandshake.dormant⟩, performed_unseen hauth h⟩

/-- **A session without authentication.** Two modules that differ in their secrets, and two systems
that differ in what is behind the bus, show the same to a debugger that has not authenticated
itself, and every access stays within the handshake, as long as no access is exposed. -/
theorem unseen (d : DebugModule) (s : Secrets) (os os' : List (DmiAccess × SysBus))
    (hreq : d.config.requireAuthentication = true) (hsame : os'.map Prod.fst = os.map Prod.fst)
    (hos : Along session (fun st o => ∀ d, st = some d → d.authenticated = false ∧
      o.1.exposed d = false) (some d) os) :
    collect session sees (some d) os = collect session sees (some (d.withSecrets s)) os' ∧
    Along session (fun st o => ∃ d, st = some d ∧ o.1.Contained d o.2) (some d) os ∧
    Along session (fun st o => ∃ d, st = some d ∧ o.1.Contained d o.2)
    (some (d.withSecrets s)) os' := by
  induction os generalizing d os' with
  | nil =>
    rw [List.map_nil, List.map_eq_nil_iff] at hsame
    subst hsame
    exact ⟨rfl, trivial, trivial⟩
  | cons o os ih =>
    obtain ⟨o', os', rfl⟩ :=
      List.exists_cons_of_ne_nil (l := os') fun hnil => by simp [hnil] at hsame
    rw [List.map_cons, List.map_cons, List.cons_eq_cons] at hsame
    obtain ⟨ho, hsame⟩ := hsame
    obtain ⟨hhead, htail⟩ := hos
    obtain ⟨hauth, hexposed⟩ := hhead d rfl
    obtain ⟨v, d', hhandshake, hact⟩ := act_unseen hreq hauth hexposed
    obtain ⟨hreply, hnext⟩ := hact d.secrets o.2
    obtain ⟨hreply', hnext'⟩ := hact s o'.2
    rw [withSecrets_secrets] at hreply
    rw [withSecrets_secrets, ← hhandshake.secrets, withSecrets_secrets] at hnext
    -- both modules move on, and still differ in the secrets alone
    have hstep : session (some d) o = some d' := hnext
    have hstep' : session (some (d.withSecrets s)) o' = some (d'.withSecrets s) := by
      rw [session, ho]
      exact hnext'
    rw [hstep] at htail
    obtain ⟨hsees, hcontained, hcontained'⟩ := ih d' os' (hhandshake.config ▸ hreq) hsame htail
    refine ⟨?_, ⟨⟨d, rfl, contained_unseen hreq hauth hexposed o.2⟩, ?_⟩, ⟨_, rfl, ?_⟩, ?_⟩
    · have hsee : sees (some d) o = sees (some (d.withSecrets s)) o' := by
        show o.1.reply d o.2 = o'.1.reply (d.withSecrets s) o'.2
        rw [ho, hreply, hreply']
      rw [collect, collect, hstep, hstep', hsee, hsees]
    · rw [hstep]
      exact hcontained
    · rw [ho]
      exact contained_unseen (d := d.withSecrets s) hreq hauth hexposed o'.2
    · rw [hstep']
      exact hcontained'

/-- One hart, and a debugger that has to authenticate itself. -/
def locked : DmConfig :=
  { oneHart with requireAuthentication := true }

/-- What a session leaves behind that halted the hart, wrote a data register, asked for the command
to be repeated when it is accessed, and gave up its authentication: the answer to the challenge is 1
here, and 0 revokes it. -/
def revoked : DebugModule :=
  (run step (some (initial locked 0#32))
    [written dmDmcontrol 1#32, written dmAuthdata 1#32, .store debugRomHalted [0#8, 0#8, 0#8, 0#8],
      written dmData0 7#32, written dmAbstractauto 1#32, written dmAuthdata 0#32]).getD
        (initial locked 0#32)

/-- No secrets. -/
def blank : Secrets :=
  ⟨fun _ => 0#8, fun _ => 0#8, fun _ => 0#32, fun _ => 0#32⟩

/-- A failed attempt, and a read of `dmstatus`, on a bus that answers and on one that does not. -/
theorem unseen_attempt :
    collect session sees (some revoked) [(write dmAuthdata 5#32 9#32, deafBus),
      (read dmDmstatus, deafBus)] =
      collect session sees (some (revoked.withSecrets blank))
        [(write dmAuthdata 5#32 9#32, debugMmu (fun _ _ => some 0#64) fun _ _ => true),
          (read dmDmstatus, deafBus)] :=
  (unseen revoked blank [(write dmAuthdata 5#32 9#32, deafBus), (read dmDmstatus, deafBus)]
    [(write dmAuthdata 5#32 9#32, debugMmu (fun _ _ => some 0#64) fun _ _ => true),
      (read dmDmstatus, deafBus)]
    (by decide) rfl ⟨fun _ hd => by cases hd; decide, fun _ hd => by cases hd; decide, trivial⟩).1

/-- A read of a data register shows what an earlier session left there, and starts the command again
that it left there. -/
theorem not_unseen :
    (¬∀ (d : DebugModule) (s : Secrets) (os os' : List (DmiAccess × SysBus)),
      d.config.requireAuthentication = true → os'.map Prod.fst = os.map Prod.fst →
      Along session (fun st _ => ∀ d, st = some d → d.authenticated = false) (some d) os →
        collect session sees (some d) os = collect session sees (some (d.withSecrets s)) os') ∧
    (¬∀ (d : DebugModule) (os : List (DmiAccess × SysBus)), d.config.requireAuthentication = true →
      Along session (fun st _ => ∀ d, st = some d → d.authenticated = false) (some d) os →
        Along session (fun st o => ∃ d, st = some d ∧ o.1.Contained d o.2) (some d) os) := by
  have hauth : ∀ d, some revoked = some d → d.authenticated = false := by
    intro d hd
    cases hd
    decide
  refine ⟨fun h => ?_, fun h => ?_⟩
  · have hsees := h revoked blank [(read dmData0, deafBus)] [(read dmData0, deafBus)]
      (by decide) rfl ⟨hauth, trivial⟩
    exact absurd hsees (by decide)
  · obtain ⟨⟨d, hd, hcontained⟩, -⟩ :=
      h revoked [(read dmData0, deafBus)] (by decide) ⟨hauth, trivial⟩
    cases hd
    obtain ⟨d', hact, -, hdormant⟩ := hcontained.handshake
    have hbusy : (revoked.act ((read dmData0).op deafBus)).map
        (fun d => d.abstractcs.busy) = some true := by decide
    rw [hact] at hbusy
    have hidle := hdormant.busy (Option.some.inj hbusy)
    exact absurd hidle (by decide)

end DmiAccess

end Nnemu

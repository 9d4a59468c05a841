import Nnemu.Fesvr.Device
import Nnemu.Lib.Run

/-!
# The host interface

The loop of `htif_t::run` and the target, which runs while the host is idle. Each direction has one
word of memory as a mailbox, which is empty when it is 0. Nothing is lost as long as the target
waits for its turn and no command has the host write over a mailbox (`Orderly`): `htif_channels`
says so of the words.

`Channels` is the invariant: what the target has sent is what the host has handled, with at most one
command in the mailbox, and what the host has answered is what the target has received, with the
queue and at most one answer in the other mailbox. A round is taken apart into its steps, each of
which moves one word along (`Channels.take`, `Channels.handle`, `Channels.deliver` and so on).

What the host does with a command is described by what it leaves alone: a program of the host is
`Silent` when it sends nothing, and `Responds` with what it sends otherwise.
-/

namespace Nnemu

open Bytes

namespace Htif

variable {σ : Type} (cfg : HtifConfig σ)

/-! ### The loop -/

/-- The handler around a part of the loop. -/
def during {α : Type} (situation : HtifSituation) (x : HtifM σ α) : HtifM σ α := fun s =>
  match x s with
  | .error (.memTrap addr) t => .error (.badAddress situation addr) t
  | res => res

/-- The word of the target is taken out of its mailbox. -/
def takeTohost : HtifM σ (BitVec 64) := do
  let tohost ← readUint64 cfg cfg.tohostAddr
  if tohost ≠ 0#64 then writeUint64 cfg cfg.tohostAddr 0#64
  pure tohost

/-- The command is handled, or the target runs, and the devices get their tick. -/
def serve (idle : HtifM σ Unit) (typed : Option (BitVec 8)) (tohost : BitVec 64) :
    HtifM σ Unit := do
  if tohost ≠ 0#64 then handleCommand cfg ⟨tohost⟩ else idle
  bcdTick typed

/-- The first response is put into the mailbox of the host, if that is empty. -/
def deliver : HtifM σ Unit := do
  let s ← get
  match s.fromhostQueue with
  | [] => pure ()
  | response :: rest =>
    let fromhost ← readUint64 cfg cfg.fromhostAddr
    if fromhost = 0#64 then
      writeUint64 cfg cfg.fromhostAddr response
      modify fun s => { s with fromhostQueue := rest }

/-- A round of the loop of `htif_t::run`, with what the target does when it runs and what is
typed. -/
def round (idle : HtifM σ Unit) (typed : Option (BitVec 8)) : HtifM σ Unit := do
  let tohost ← during .accessingTohost (takeTohost cfg)
  during (.onBehalfOfTarget tohost) (serve cfg idle typed tohost)
  during .accessingFromhost (deliver cfg)

/-! ### The target -/

/-- The word at an address. -/
def word (m : ByteMem) (addr : BitVec 64) : BitVec 64 :=
  wordOf cfg.bigEndian (readBytes m addr 8)

/-- What a target does while it runs. -/
inductive TargetMove where
  /-- it sends a command, when there is none in the mailbox -/
  | send (c : HtifCommand)
  /-- it takes a response, when there is one in the mailbox -/
  | take
  /-- it does something else -/
  | other (f : ByteMem → ByteMem)

/-- A move of the target. What it sends and takes is noted. -/
def TargetMove.play : TargetMove → HtifState σ → HtifState σ
  | .send c, s =>
    if word cfg s.mem cfg.tohostAddr = 0#64 then
      { s with
        mem := writeBytes s.mem cfg.tohostAddr (bytesOf cfg.bigEndian c.tohost)
        log := { s.log with sent := s.log.sent ++ [c] } }
    else s
  | .take, s =>
    if word cfg s.mem cfg.fromhostAddr = 0#64 then s
    else
      { s with
        mem := writeBytes s.mem cfg.fromhostAddr (bytesOf cfg.bigEndian 0#64)
        log := { s.log with taken := s.log.taken ++ [word cfg s.mem cfg.fromhostAddr] } }
  | .other f, s => { s with mem := f s.mem }

/-- `idle()` -/
def idle (moves : List TargetMove) : HtifM σ Unit :=
  modify fun s => moves.foldl (fun s move => move.play cfg s) s

/-- What happens in a round from outside. -/
structure HtifInput where
  /-- what the target does, if it gets to run -/
  moves : List TargetMove
  /-- what `canonical_terminal_t::read` returns, if it is called -/
  typed : Option (BitVec 8)

/-- The loop of `htif_t::run`, as far as the inputs go. -/
def rounds : List HtifInput → HtifM σ Unit
  | [] => pure ()
  | input :: inputs => do
    let s ← get
    if s.exitcode = 0#32 then
      round cfg (idle cfg input.moves) input.typed
      rounds inputs
    else pure ()

/-! ### Words of memory -/

/-- The mailboxes are two doublewords. -/
structure Mailboxes : Prop where
  tohost : Aligned 8 cfg.tohostAddr
  fromhost : Aligned 8 cfg.fromhostAddr
  ne : cfg.tohostAddr ≠ cfg.fromhostAddr

variable {cfg} {m : ByteMem} {a b w : BitVec 64}

theorem length_bytesOf (bigEndian : Bool) (w : BitVec 64) : (bytesOf bigEndian w).length = 8 := by
  cases bigEndian <;> simp [bytesOf]

/-- A word that was written reads back. -/
theorem word_write_self (m : ByteMem) (a w : BitVec 64) :
    word cfg (writeBytes m a (bytesOf cfg.bigEndian w)) a = w := by
  have hlength := length_bytesOf cfg.bigEndian w
  have hbytes := readBytes_writeBytes m a (bytesOf cfg.bigEndian w) (by rw [hlength]; decide)
  rw [hlength] at hbytes
  rw [word, hbytes, wordOf, bytesOf]
  cases cfg.bigEndian with
  | false => exact fromBytes_toBytes w
  | true =>
    rw [if_pos rfl, if_pos rfl, List.reverse_reverse]
    exact fromBytes_toBytes w

/-- The other mailbox stays. -/
theorem word_write_of_ne (m : ByteMem) (w : BitVec 64) (ha : Aligned 8 a)
    (hb : Aligned 8 b) (hne : b ≠ a) :
    word cfg (writeBytes m a (bytesOf cfg.bigEndian w)) b = word cfg m b := by
  rw [word, word]
  refine congrArg _ (read_congr fun i hi => writeBytes_of_le ?_)
  rw [length_bytesOf]
  exact ha.le_sub hb hne hi

/-! ### The channels -/

/-- What the target has sent and the host has not taken. -/
def inbox (cfg : HtifConfig σ) (m : ByteMem) : List HtifCommand :=
  if word cfg m cfg.tohostAddr = 0#64 then [] else [⟨word cfg m cfg.tohostAddr⟩]

/-- What the host has put into its mailbox and the target has not taken. -/
def outbox (cfg : HtifConfig σ) (m : ByteMem) : List (BitVec 64) :=
  if word cfg m cfg.fromhostAddr = 0#64 then [] else [word cfg m cfg.fromhostAddr]

/-- The mailboxes are as before. -/
def SameMailboxes (cfg : HtifConfig σ) (m m' : ByteMem) : Prop :=
  word cfg m' cfg.tohostAddr = word cfg m cfg.tohostAddr ∧
    word cfg m' cfg.fromhostAddr = word cfg m cfg.fromhostAddr

instance (m m' : ByteMem) : Decidable (SameMailboxes cfg m m') :=
  inferInstanceAs (Decidable (_ ∧ _))

/-- The command, when it is handled here, does not have the host write over the mailboxes. -/
def Polite (cfg : HtifConfig σ) (c : HtifCommand) (s : HtifState σ) : Prop :=
  SameMailboxes cfg s.mem (Exec.final (handleCommand cfg c s)).mem

instance (c : HtifCommand) (s : HtifState σ) : Decidable (Polite cfg c s) :=
  inferInstanceAs (Decidable (SameMailboxes _ _ _))

/-- A move of a target that keeps to the rules: 0 is no command, and the mailboxes are for sending
and taking. -/
def TargetMove.Orderly (cfg : HtifConfig σ) (s : HtifState σ) : TargetMove → Prop
  | .send c => c.tohost ≠ 0#64
  | .take => True
  | .other f => SameMailboxes cfg s.mem (f s.mem)

instance TargetMove.Orderly.decidable (cfg : HtifConfig σ) (s : HtifState σ) :
    (move : TargetMove) → Decidable (move.Orderly cfg s)
  | .send c => inferInstanceAs (Decidable (c.tohost ≠ 0#64))
  | .take => inferInstanceAs (Decidable True)
  | .other f => inferInstanceAs (Decidable (SameMailboxes cfg s.mem (f s.mem)))

/-- A round that keeps to the rules: the command that is handled in it is polite in that state, or
else the moves of the target are orderly. -/
def OrderlyRound (cfg : HtifConfig σ) (moves : List TargetMove) (s : HtifState σ) : Prop :=
  match takeTohost cfg s with
  | .ok tohost t =>
    if tohost ≠ 0#64 then Polite cfg ⟨tohost⟩ t
    else Run.Along (fun s move => move.play cfg s) (fun s move => move.Orderly cfg s) t moves
  | .error _ _ => True

instance (moves : List TargetMove) (s : HtifState σ) : Decidable (OrderlyRound cfg moves s) := by
  unfold OrderlyRound
  split <;> infer_instance

/-- Every round of the loop keeps to the rules. -/
def Orderly (cfg : HtifConfig σ) : List HtifInput → HtifState σ → Prop
  | [], _ => True
  | input :: inputs, s => s.exitcode = 0#32 → OrderlyRound cfg input.moves s ∧
    match round cfg (idle cfg input.moves) input.typed s with
    | .ok _ t => Orderly cfg inputs t
    | .error _ _ => True

instance Orderly.decidable (cfg : HtifConfig σ) :
    (inputs : List HtifInput) → (s : HtifState σ) → Decidable (Orderly cfg inputs s)
  | [], _ => isTrue trivial
  | input :: inputs, s =>
    have : Decidable (match round cfg (idle cfg input.moves) input.typed s with
        | .ok _ t => Orderly cfg inputs t
        | .error _ _ => True) :=
      match round cfg (idle cfg input.moves) input.typed s with
      | .ok _ t => Orderly.decidable cfg inputs t
      | .error _ _ => isTrue trivial
    inferInstanceAs (Decidable (_ → _ ∧ _))

/-- **The channels**: what was sent was handled, is about to be, or is in the mailbox; what was
responded was taken, is in the mailbox or waits in the queue. -/
structure Channels (cfg : HtifConfig σ) (pending : List HtifCommand) (s : HtifState σ) : Prop where
  sent : s.log.sent = s.log.handled ++ pending ++ inbox cfg s.mem
  issued : s.log.issued = s.log.taken ++ outbox cfg s.mem ++ s.fromhostQueue
  /-- 0 is no response -/
  ne : ∀ response ∈ s.fromhostQueue, response ≠ 0#64

/-! ### Programs of the host -/

/-- Responses that were issued, and nothing else that the channels know of. -/
structure Responds (s t : HtifState σ) : Prop where
  sent : t.log.sent = s.log.sent
  handled : t.log.handled = s.log.handled
  taken : t.log.taken = s.log.taken
  responses : ∃ rs, (∀ r ∈ rs, r ≠ 0#64) ∧ t.log.issued = s.log.issued ++ rs ∧
    t.fromhostQueue = s.fromhostQueue ++ rs

variable {s t : HtifState σ} {c : HtifCommand} {α : Type}

theorem responds_of_eq (hlog : t.log = s.log) (hqueue : t.fromhostQueue = s.fromhostQueue) :
    Responds s t where
  sent := by rw [hlog]
  handled := by rw [hlog]
  taken := by rw [hlog]
  responses :=
    ⟨[], fun _ h => absurd h List.not_mem_nil, by rw [hlog, List.append_nil],
    by rw [hqueue, List.append_nil]⟩

theorem composes_responds : Exec.Composes (Responds (σ := σ)) where
  refl := fun s => responds_of_eq rfl rfl
  trans := by
    intro s t u h h'
    obtain ⟨rs, hne, hissued, hqueue⟩ := h.responses
    obtain ⟨rs', hne', hissued', hqueue'⟩ := h'.responses
    refine ⟨h'.sent.trans h.sent, h'.handled.trans h.handled, h'.taken.trans h.taken,
      rs ++ rs', fun r hr => ?_, ?_, ?_⟩
    · obtain hr | hr := List.mem_append.1 hr
      · exact hne r hr
      · exact hne' r hr
    · rw [hissued', hissued, List.append_assoc]
    · rw [hqueue', hqueue, List.append_assoc]

theorem responds_respond {resp : BitVec 64} (c : HtifCommand) (h : c.response resp ≠ 0#64) :
    Exec.Keeps Responds (respond (σ := σ) c resp) :=
  fun _ => ⟨rfl, rfl, rfl, [c.response resp], fun _ hr => List.mem_singleton.1 hr ▸ h, rfl, rfl⟩

/-- A program that leaves the queue and the log. -/
def Silent (s t : HtifState σ) : Prop :=
  t.log = s.log ∧ t.fromhostQueue = s.fromhostQueue ∧ t.pendingReads = s.pendingReads ∧
    t.console = s.console

theorem composes_silent : Exec.Composes (Silent (σ := σ)) where
  refl := fun _ => ⟨rfl, rfl, rfl, rfl⟩
  trans := fun h h' => ⟨h'.1.trans h.1, h'.2.1.trans h.2.1, h'.2.2.1.trans h.2.2.1,
    h'.2.2.2.trans h.2.2.2⟩

theorem Silent.responds (h : Silent s t) : Responds s t :=
  responds_of_eq h.1 h.2.1

theorem silent_readMem (cfg : HtifConfig σ) (addr : BitVec 64) (n : Nat) :
    Exec.Keeps Silent (readMem cfg addr n) := by
  intro s
  rw [readMem]
  split
  · exact composes_silent.refl s
  · exact composes_silent.refl s

theorem silent_writeMem (cfg : HtifConfig σ) (addr : BitVec 64) (bytes : List (BitVec 8)) :
    Exec.Keeps Silent (writeMem cfg addr bytes) := by
  intro s
  rw [writeMem]
  split
  · exact composes_silent.refl s
  · exact ⟨rfl, rfl, rfl, rfl⟩

theorem silent_proxied (f : SyscallFn σ) (args : List (BitVec 64)) :
    Exec.Keeps Silent (proxied f args) := by
  intro s
  rw [proxied]
  cases f args (s.mem, s.exitcode, s.proxy) <;> exact ⟨rfl, rfl, rfl, rfl⟩

theorem silent_dispatch (cfg : HtifConfig σ) (mm : BitVec 64) :
    Exec.Keeps Silent (dispatch cfg mm) := by
  rw [dispatch]
  refine Exec.keeps_bind composes_silent (silent_readMem cfg mm 64) fun magicmem => ?_
  dsimp only
  split
  · exact fun s => composes_silent.refl s
  · cases cfg.table _ with
    | none => exact fun s => composes_silent.refl s
    | some f =>
      exact Exec.keeps_bind composes_silent (silent_proxied f _) fun ret => silent_writeMem cfg mm _

/-- The tag of a response is that of the command. -/
theorem response_tag (c : HtifCommand) (resp : BitVec 64) :
    c.response resp >>> 48 = c.tohost >>> 48 := by
  apply BitVec.eq_of_getLsbD_eq
  intro i hi
  rw [HtifCommand.response]
  simp only [BitVec.getLsbD_ushiftRight, BitVec.getLsbD_or, BitVec.getLsbD_shiftLeft]
  have hle : ¬48 + i < 48 := by omega
  have hover : ¬16 + (48 + i) < 64 := by omega
  by_cases hlt : 48 + i < 64
  · simp [hlt, hle, hover]
  · simp [hover, BitVec.getLsbD_of_ge c.tohost _ (Nat.le_of_not_lt hlt)]

/-- The value of a response. -/
theorem getLsbD_response (c : HtifCommand) (resp : BitVec 64) {i : Nat} (hi : i < 48) :
    (c.response resp).getLsbD i = resp.getLsbD i := by
  rw [HtifCommand.response]
  simp only [BitVec.getLsbD_ushiftRight, BitVec.getLsbD_or, BitVec.getLsbD_shiftLeft]
  have hback : 16 + i - 16 = i := by omega
  have hlt : 16 + i < 64 := by omega
  simp [hi, hback, hlt]

theorem response_ne {resp : BitVec 64} (c : HtifCommand) {i : Nat} (hi : i < 48)
    (h : resp.getLsbD i = true) :
    c.response resp ≠ 0#64 := by
  intro hzero
  have hbit := getLsbD_response c resp hi
  rw [hzero, h] at hbit
  simp at hbit

theorem response_one_ne (c : HtifCommand) : c.response 1#64 ≠ 0#64 :=
  response_ne c (i := 0) (by decide) (by decide)

theorem response_char_ne (c : HtifCommand) (ch : BitVec 8) :
    c.response (0x100#64 ||| ch.setWidth 64) ≠ 0#64 := by
  refine response_ne c (i := 8) (by decide) ?_
  rw [BitVec.getLsbD_or]
  simp

theorem responds_identify (cfg : HtifConfig σ) (d : Device σ) (c : HtifCommand) :
    Exec.Keeps Responds (handleIdentify cfg d c) :=
  Exec.keeps_bind composes_responds (fun s => (silent_writeMem cfg _ _ s).responds) fun _ =>
    responds_respond c (response_one_ne c)

theorem responds_syscall (cfg : HtifConfig σ) (c : HtifCommand) :
    Exec.Keeps Responds (handleSyscall cfg c) := by
  rw [handleSyscall]
  split
  · exact fun s => responds_of_eq rfl rfl
  · exact Exec.keeps_bind composes_responds (fun s => (silent_dispatch cfg _ s).responds) fun _ =>
      responds_respond c (response_one_ne c)

/-- A device without commands of its own. -/
theorem handleCommand_nullDevice (cfg : HtifConfig σ) (c : HtifCommand) :
    nullDevice.handleCommand cfg c = if c.cmd = 255#8 then handleIdentify cfg nullDevice c
      else pure () := rfl

theorem handleCommand_syscallProxy (cfg : HtifConfig σ) (c : HtifCommand) :
    (syscallProxy cfg).handleCommand cfg c =
      if c.cmd = 0#8 then handleSyscall cfg c
      else if c.cmd = 255#8 then handleIdentify cfg (syscallProxy cfg) c else pure () := by
  rw [Device.handleCommand]
  by_cases h0 : c.cmd = 0#8
  · simp [syscallProxy, h0]
  · simp [syscallProxy, h0, Ne.symm h0]

theorem handleCommand_bcd (cfg : HtifConfig σ) (c : HtifCommand) :
    bcd.handleCommand cfg c =
      if c.cmd = 0#8 then bcdRead c else if c.cmd = 1#8 then bcdWrite c
      else if c.cmd = 255#8 then handleIdentify cfg bcd c else pure () := by
  rw [Device.handleCommand]
  by_cases h0 : c.cmd = 0#8
  · simp [bcd, h0]
  · by_cases h1 : c.cmd = 1#8
    · simp [bcd, h1]
    · simp [bcd, h0, h1, Ne.symm h0, Ne.symm h1]

/-- A device only responds. -/
theorem responds_device (cfg : HtifConfig σ) (c : HtifCommand) :
    Exec.Keeps Responds ((deviceAt cfg c.device).handleCommand cfg c) := by
  have hnothing : Exec.Keeps Responds (pure () : HtifM σ Unit) := composes_responds.refl
  rw [deviceAt]
  split
  · rw [handleCommand_syscallProxy]
    split
    · exact responds_syscall cfg c
    · exact Exec.keeps_ite (responds_identify cfg _ c) hnothing
  · split
    · rw [handleCommand_bcd]
      split
      · exact fun s => responds_of_eq rfl rfl
      · split
        · exact fun s => responds_of_eq rfl rfl
        · exact Exec.keeps_ite (responds_identify cfg _ c) hnothing
    · rw [handleCommand_nullDevice]
      exact Exec.keeps_ite (responds_identify cfg _ c) hnothing

/-- A tick without a request or without a character. -/
theorem bcdTick_idle {typed : Option (BitVec 8)} (h : s.pendingReads = [] ∨ typed = none) :
    bcdTick typed s = .ok () s := by
  rw [bcdTick, Exec.bind_of_ok (rfl : (get : HtifM σ (HtifState σ)) s = .ok s s)]
  obtain hp | rfl := h
  · simp only [hp]
    rfl
  · cases hp : s.pendingReads <;> rfl

/-- A character for the first request. -/
theorem bcdTick_typed {rest : List HtifCommand} (ch : BitVec 8) (h : s.pendingReads = c :: rest) :
    bcdTick (some ch) s = .ok () { s with
      pendingReads := rest
      fromhostQueue := s.fromhostQueue ++ [c.response (0x100#64 ||| ch.setWidth 64)]
      log := { s.log with
        issued := s.log.issued ++ [c.response (0x100#64 ||| ch.setWidth 64)]
        typed := s.log.typed ++ [ch] } } := by
  rw [bcdTick, Exec.bind_of_ok (rfl : (get : HtifM σ (HtifState σ)) s = .ok s s)]
  simp only [h]
  rfl

theorem responds_tick (typed : Option (BitVec 8)) :
    Exec.Keeps Responds (bcdTick (σ := σ) typed) := by
  intro s
  cases hpending : s.pendingReads with
  | nil =>
    rw [bcdTick_idle (.inl hpending)]
    exact composes_responds.refl s
  | cons c rest =>
    cases typed with
    | none =>
      rw [bcdTick_idle (.inr rfl)]
      exact composes_responds.refl s
    | some ch =>
      rw [bcdTick_typed ch hpending]
      exact ⟨rfl, rfl, rfl, _, fun _ hr => List.mem_singleton.1 hr ▸ response_char_ne c ch,
        rfl, rfl⟩

/-! ### What a round keeps -/

theorem Channels.of_responds {pending : List HtifCommand} (h : Channels cfg pending s)
    (hr : Responds s t)
    (hsame : SameMailboxes cfg s.mem t.mem) : Channels cfg pending t where
  sent := by rw [hr.sent, hr.handled, h.sent, inbox, inbox, hsame.1]
  issued := by
    obtain ⟨rs, -, hissued, hqueue⟩ := hr.responses
    rw [hissued, hqueue, hr.taken, h.issued, outbox, outbox, hsame.2, List.append_assoc _ _ rs]
  ne := by
    obtain ⟨rs, hne, -, hqueue⟩ := hr.responses
    rw [hqueue]
    intro r hr
    obtain hr | hr := List.mem_append.1 hr
    · exact h.ne r hr
    · exact hne r hr

/-! ### The mailboxes -/

/-- A doubleword is read, or the host stops. -/
theorem readUint64_cases (cfg : HtifConfig σ) (a : BitVec 64) (s : HtifState σ) :
    readUint64 cfg a s = .ok (word cfg s.mem a) s ∨ ∃ e, readUint64 cfg a s = .error e s := by
  rw [readUint64]
  by_cases hmask : a &&& 7#64 = 0#64
  · rw [if_neg (not_not.2 hmask)]
    cases hmapped : (List.range 8).all fun i => cfg.mapped (a + BitVec.ofNat 64 i) with
    | true =>
      have hread : readMem cfg a 8 s = .ok (readBytes s.mem a 8) s := by
        rw [readMem, hmapped]
        rfl
      exact .inl (Exec.bind_of_ok hread)
    | false =>
      have hread : readMem cfg a 8 s = .error (.memTrap a) s := by
        rw [readMem, hmapped]
        rfl
      exact .inr ⟨_, Exec.bind_of_error hread⟩
  · rw [if_pos hmask]
    exact .inr ⟨.misaligned, rfl⟩

/-- A doubleword is written, or the host stops. -/
theorem writeUint64_cases (cfg : HtifConfig σ) (a w : BitVec 64) (s : HtifState σ) :
    writeUint64 cfg a w s = .ok () { s with mem := writeBytes s.mem a (bytesOf cfg.bigEndian w) } ∨
      ∃ e, writeUint64 cfg a w s = .error e s := by
  rw [writeUint64]
  by_cases hmask : a &&& 7#64 = 0#64
  · rw [if_neg (not_not.2 hmask)]
    cases hmapped : (List.range (bytesOf cfg.bigEndian w).length).all
        fun i => cfg.mapped (a + BitVec.ofNat 64 i) with
    | true =>
      refine .inl ?_
      change writeMem cfg a (bytesOf cfg.bigEndian w) s = _
      rw [writeMem, hmapped]
      rfl
    | false =>
      refine .inr ⟨.memTrap a, ?_⟩
      change writeMem cfg a (bytesOf cfg.bigEndian w) s = _
      rw [writeMem, hmapped]
      rfl
  · rw [if_pos hmask]
    exact .inr ⟨.misaligned, rfl⟩

/-- The mailbox of the target is emptied. -/
theorem takeTohost_cases (cfg : HtifConfig σ) (s : HtifState σ) :
    takeTohost cfg s = .ok 0#64 s ∧ word cfg s.mem cfg.tohostAddr = 0#64 ∨
      (∃ e, takeTohost cfg s = .error e s) ∨
      takeTohost cfg s = .ok (word cfg s.mem cfg.tohostAddr)
          { s with mem := writeBytes s.mem cfg.tohostAddr (bytesOf cfg.bigEndian 0#64) } ∧
        word cfg s.mem cfg.tohostAddr ≠ 0#64 := by
  rw [takeTohost]
  obtain hread | ⟨e, hread⟩ := readUint64_cases cfg cfg.tohostAddr s
  · rw [Exec.bind_of_ok hread]
    by_cases hw : word cfg s.mem cfg.tohostAddr = 0#64
    · rw [hw]
      exact .inl ⟨rfl, rfl⟩
    · rw [if_pos hw]
      obtain hwrite | ⟨e, hwrite⟩ := writeUint64_cases cfg cfg.tohostAddr 0#64 s
      · rw [Exec.bind_of_ok hwrite]
        exact .inr (.inr ⟨rfl, hw⟩)
      · exact .inr (.inl ⟨e, Exec.bind_of_error hwrite⟩)
  · exact .inr (.inl ⟨e, Exec.bind_of_error hread⟩)

/-- The first response goes into an empty mailbox, or nothing happens. -/
theorem deliver_cases (cfg : HtifConfig σ) (s : HtifState σ) :
    Exec.final (deliver cfg s) = s ∨
      ∃ response rest, s.fromhostQueue = response :: rest ∧ word cfg s.mem cfg.fromhostAddr = 0#64 ∧
        Exec.final (deliver cfg s) =
          { s with
            mem := writeBytes s.mem cfg.fromhostAddr (bytesOf cfg.bigEndian response)
            fromhostQueue := rest } := by
  rw [deliver, Exec.bind_of_ok (rfl : (get : HtifM σ (HtifState σ)) s = .ok s s)]
  cases hqueue : s.fromhostQueue with
  | nil => exact .inl rfl
  | cons response rest =>
    dsimp only
    obtain hread | ⟨e, hread⟩ := readUint64_cases cfg cfg.fromhostAddr s
    · rw [Exec.bind_of_ok hread]
      by_cases hw : word cfg s.mem cfg.fromhostAddr = 0#64
      · rw [if_pos hw]
        obtain hwrite | ⟨e, hwrite⟩ := writeUint64_cases cfg cfg.fromhostAddr response s
        · rw [Exec.bind_of_ok hwrite]
          exact .inr ⟨response, rest, rfl, hw, rfl⟩
        · rw [Exec.bind_of_error hwrite]
          exact .inl rfl
      · rw [if_neg hw]
        exact .inl rfl
    · rw [Exec.bind_of_error hread]
      exact .inl rfl

theorem final_during (situation : HtifSituation) (x : HtifM σ α) (s : HtifState σ) :
    Exec.final (during situation x s) = Exec.final (x s) := by
  rw [during]
  cases x s with
  | ok a t => rfl
  | error e t => cases e <;> rfl

theorem during_eq_ok_iff {situation : HtifSituation} {x : HtifM σ α} {v : α} :
    during situation x s = .ok v t ↔ x s = .ok v t := by
  rw [during]
  cases x s with
  | ok a u => rfl
  | error e u => cases e <;> simp

/-! ### What the parts of a round do to the channels -/

theorem inbox_of_zero (h : word cfg m cfg.tohostAddr = 0#64) : inbox cfg m = [] :=
  if_pos h

theorem inbox_of_ne (h : word cfg m cfg.tohostAddr ≠ 0#64) :
    inbox cfg m = [⟨word cfg m cfg.tohostAddr⟩] :=
  if_neg h

theorem outbox_of_zero (h : word cfg m cfg.fromhostAddr = 0#64) : outbox cfg m = [] :=
  if_pos h

theorem outbox_of_ne (h : word cfg m cfg.fromhostAddr ≠ 0#64) :
    outbox cfg m = [word cfg m cfg.fromhostAddr] :=
  if_neg h

variable (boxes : Mailboxes cfg)

include boxes

theorem inbox_write_fromhost (m : ByteMem) (w : BitVec 64) :
    inbox cfg (writeBytes m cfg.fromhostAddr (bytesOf cfg.bigEndian w)) = inbox cfg m := by
  rw [inbox, inbox, word_write_of_ne m w boxes.fromhost boxes.tohost boxes.ne]

theorem outbox_write_tohost (m : ByteMem) (w : BitVec 64) :
    outbox cfg (writeBytes m cfg.tohostAddr (bytesOf cfg.bigEndian w)) = outbox cfg m := by
  rw [outbox, outbox, word_write_of_ne m w boxes.tohost boxes.fromhost boxes.ne.symm]

/-- The command that is taken is about to be handled. -/
theorem Channels.take (h : Channels cfg [] s) (hw : word cfg s.mem cfg.tohostAddr ≠ 0#64) :
    Channels cfg [⟨word cfg s.mem cfg.tohostAddr⟩]
      { s with mem := writeBytes s.mem cfg.tohostAddr (bytesOf cfg.bigEndian 0#64) } where
  sent := by
    rw [inbox_of_zero (word_write_self s.mem cfg.tohostAddr 0#64), h.sent,
      inbox_of_ne hw, List.append_nil,
      List.append_nil]
  issued := by rw [outbox_write_tohost boxes, h.issued]
  ne := h.ne

theorem Channels.deliver (h : Channels cfg [] s) :
    Channels cfg [] (Exec.final (deliver cfg s)) := by
  obtain heq | ⟨response, rest, hqueue, hw, heq⟩ := deliver_cases cfg s
  · rw [heq]
    exact h
  · rw [heq]
    have hne : response ≠ 0#64 := h.ne response (hqueue ▸ List.mem_cons_self)
    refine ⟨?_, ?_, fun r hr => h.ne r (hqueue ▸ List.mem_cons_of_mem response hr)⟩
    · rw [inbox_write_fromhost boxes, h.sent]
    · have hself : word cfg (writeBytes s.mem cfg.fromhostAddr (bytesOf cfg.bigEndian response))
        cfg.fromhostAddr = response :=
        word_write_self s.mem cfg.fromhostAddr response
      rw [outbox_of_ne (hself.symm ▸ hne), hself, h.issued, outbox_of_zero hw,
        hqueue, List.append_nil,
        List.append_assoc, List.singleton_append]

/-- A move of the target. -/
theorem Channels.move {move : TargetMove} (h : Channels cfg [] s) (ho : move.Orderly cfg s) :
    Channels cfg [] (move.play cfg s) := by
  cases move with
  | send c =>
    rw [TargetMove.play]
    split
    case isTrue hw =>
      have hself : word cfg (writeBytes s.mem cfg.tohostAddr (bytesOf cfg.bigEndian c.tohost))
        cfg.tohostAddr = c.tohost :=
        word_write_self s.mem cfg.tohostAddr c.tohost
      have hne : c.tohost ≠ 0#64 := ho
      refine ⟨?_, ?_, h.ne⟩
      · rw [inbox_of_ne (hself.symm ▸ hne), hself, h.sent, inbox_of_zero hw, List.append_nil]
      · rw [outbox_write_tohost boxes, h.issued]
    case isFalse => exact h
  | take =>
    rw [TargetMove.play]
    split
    case isTrue => exact h
    case isFalse hw =>
      refine ⟨?_, ?_, h.ne⟩
      · rw [inbox_write_fromhost boxes, h.sent]
      · rw [outbox_of_zero (word_write_self s.mem cfg.fromhostAddr 0#64),
          h.issued, outbox_of_ne hw, List.append_nil]
  | other f =>
    exact h.of_responds (responds_of_eq rfl rfl) ho

theorem Channels.moves {moves : List TargetMove} (h : Channels cfg [] s)
    (ho : Run.Along (fun s move => move.play cfg s) (fun s move => move.Orderly cfg s) s moves) :
    Channels cfg [] (moves.foldl (fun s move => move.play cfg s) s) := by
  induction moves generalizing s with
  | nil => exact h
  | cons move moves ih => exact ih (h.move boxes ho.1) ho.2

omit boxes

/-- The command is handled. -/
theorem Channels.handle (h : Channels cfg [c] s) (hpolite : Polite cfg c s) :
    Channels cfg [] (Exec.final (handleCommand cfg c s)) := by
  have hnoted : Channels cfg [] { s with log := { s.log with handled := s.log.handled ++ [c] } } :=
    ⟨by rw [h.sent, List.append_nil], h.issued, h.ne⟩
  exact hnoted.of_responds (responds_device cfg c _) hpolite

theorem Channels.tick (h : Channels cfg [] s) (typed : Option (BitVec 8)) :
    Channels cfg [] (Exec.final (bcdTick typed s)) := by
  refine h.of_responds (responds_tick typed s) ?_
  cases hpending : s.pendingReads with
  | nil =>
    rw [bcdTick_idle (.inl hpending)]
    exact ⟨rfl, rfl⟩
  | cons c rest =>
    cases typed with
    | none =>
      rw [bcdTick_idle (.inr rfl)]
      exact ⟨rfl, rfl⟩
    | some ch =>
      rw [bcdTick_typed ch hpending]
      exact ⟨rfl, rfl⟩

/-- The command is handled or the target runs, and the devices get their tick. -/
theorem Channels.serve {input : HtifInput} {w : BitVec 64} (boxes : Mailboxes cfg)
    (ho : if w ≠ 0#64 then Polite cfg ⟨w⟩ s
      else Run.Along (fun s move => move.play cfg s) (fun s move => move.Orderly cfg s)
        s input.moves)
    (h : Channels cfg (if w = 0#64 then [] else [⟨w⟩]) s) :
    Channels cfg [] (Exec.final (serve cfg (idle cfg input.moves) input.typed w s)) := by
  have htick : ∀ first : HtifM σ Unit, Channels cfg [] (Exec.final (first s)) →
      Channels cfg [] (Exec.final ((first >>= fun _ => bcdTick input.typed) s)) :=
        fun first hfirst =>
    Exec.final_of_bind hfirst fun _ _ _ ht => ht.tick input.typed
  rw [Htif.serve]
  by_cases hw : w = 0#64
  · rw [if_pos hw] at h
    rw [if_neg (not_not.2 hw)] at ho ⊢
    exact htick _ (h.moves boxes ho)
  · rw [if_neg hw] at h
    rw [if_pos hw] at ho ⊢
    exact htick _ (h.handle ho)

/-- A round of the loop. -/
theorem Channels.round {input : HtifInput} (boxes : Mailboxes cfg)
    (ho : OrderlyRound cfg input.moves s)
    (h : Channels cfg [] s) : Channels cfg []
    (Exec.final (round cfg (idle cfg input.moves) input.typed s)) := by
  -- behind the look at the mailbox of the target
  have hrest : ∀ w t, takeTohost cfg s = .ok w t → Channels cfg (if w = 0#64 then [] else [⟨w⟩]) t →
      Channels cfg []
        (Exec.final
        ((during (.onBehalfOfTarget w) (Htif.serve cfg (idle cfg input.moves) input.typed w) >>=
        fun _ => during .accessingFromhost (Htif.deliver cfg)) t)) := by
    intro w t htake ht
    rw [OrderlyRound, htake] at ho
    refine Exec.final_of_bind ?_ fun _ u _ hu => ?_
    · rw [final_during]
      exact ht.serve boxes ho
    · rw [final_during]
      exact hu.deliver boxes
  rw [Htif.round]
  obtain ⟨htake, hw⟩ | ⟨e, htake⟩ | ⟨htake, hw⟩ := takeTohost_cases cfg s
  · rw [Exec.bind_of_ok (during_eq_ok_iff.2 htake)]
    exact hrest _ s htake (by rw [if_pos rfl]; exact h)
  · refine Exec.final_of_bind ?_ fun w t hrun _ => ?_
    · rw [final_during, htake]
      exact h
    · rw [during_eq_ok_iff, htake] at hrun
      exact absurd hrun (by simp)
  · rw [Exec.bind_of_ok (during_eq_ok_iff.2 htake)]
    exact hrest _ _ htake (by rw [if_neg hw]; exact h.take boxes hw)

/-- The loop. -/
theorem Channels.rounds {inputs : List HtifInput} (boxes : Mailboxes cfg)
    (ho : Orderly cfg inputs s)
    (h : Channels cfg [] s) : Channels cfg [] (Exec.final (rounds cfg inputs s)) := by
  induction inputs generalizing s with
  | nil => exact h
  | cons input inputs ih =>
    rw [Htif.rounds, Exec.bind_of_ok (rfl : (get : HtifM σ (HtifState σ)) s = .ok s s)]
    by_cases hexit : s.exitcode = 0#32
    · obtain ⟨hround, hrest⟩ := ho hexit
      rw [if_pos hexit]
      refine Exec.final_of_bind (h.round boxes hround) fun _ t hok ht => ih ?_ ht
      rw [hok] at hrest
      exact hrest
    · rw [if_neg hexit]
      exact h

/-! ### Runs -/

/-- Nothing has been sent, and nothing waits. -/
structure Fresh (cfg : HtifConfig σ) (s : HtifState σ) : Prop where
  tohost : word cfg s.mem cfg.tohostAddr = 0#64
  fromhost : word cfg s.mem cfg.fromhostAddr = 0#64
  queue : s.fromhostQueue = []
  pending : s.pendingReads = []
  console : s.console = []
  log : s.log = ⟨[], [], [], [], []⟩

/-- **Nothing is lost, and nothing comes twice.** Whenever the host looks at the mailboxes again,
the commands that were handled are those that were sent, in their order, up to one that is still in
the mailbox; and the responses that the target has taken are those of the devices, in their order,
up to the ones in the mailbox and the queue. -/
theorem htif_channels {inputs : List HtifInput} (boxes : Mailboxes cfg) (hfresh : Fresh cfg s)
    (ho : Orderly cfg inputs s) (hrun : rounds cfg inputs s = .ok () t) :
    t.log.sent = t.log.handled ++ inbox cfg t.mem ∧
      t.log.issued = t.log.taken ++ outbox cfg t.mem ++ t.fromhostQueue := by
  have hstart : Channels cfg [] s := by
    refine ⟨?_, ?_, ?_⟩
    · rw [hfresh.log, inbox_of_zero hfresh.tohost]
      rfl
    · rw [hfresh.log, outbox_of_zero hfresh.fromhost, hfresh.queue]
      rfl
    · rw [hfresh.queue]
      exact fun _ h => absurd h List.not_mem_nil
  have hend : Channels cfg [] t := by
    have hrounds := hstart.rounds boxes ho
    rw [hrun] at hrounds
    exact hrounds
  exact ⟨by rw [hend.sent, List.append_nil], hend.issued⟩

/-- A target that has a character shown, reads one, and takes it. -/
def greeting : List HtifInput :=
  [⟨[.send ⟨0x0101000000000048#64⟩], none⟩, ⟨[], none⟩, ⟨[.send ⟨0x0100000000000000#64⟩], none⟩,
    ⟨[], some 0x69#8⟩,
    ⟨[.take], none⟩]

/-- A target that asks what the terminal is. The answer goes to its memory. -/
def inquiry : List HtifInput :=
  [⟨[.send ⟨0x01ff0080002000ff#64⟩], none⟩, ⟨[], none⟩,
    ⟨[.take, .other fun m => writeBytes m 0x80003000#64 [1#8]], none⟩]

/-- A host with memory everywhere and without system calls. -/
def bareHost : HtifConfig Unit where
  tohostAddr := 0x80001000#64
  fromhostAddr := 0x80001008#64
  bigEndian := false
  mapped := fun _ => true
  table := fun _ => none

def bareStart : HtifState Unit where
  mem := fun _ => 0#8
  fromhostQueue := []
  pendingReads := []
  console := []
  exitcode := 0#32
  proxy := ()
  log := ⟨[], [], [], [], []⟩

theorem fresh_bareStart : Fresh bareHost bareStart :=
  ⟨by decide +kernel, by decide +kernel, rfl, rfl, rfl, rfl⟩

/-- The target asks, and greets. -/
theorem htif_channels_greeting :
    (Exec.final (rounds bareHost (inquiry ++ greeting) bareStart)).log.sent =
        (Exec.final (rounds bareHost (inquiry ++ greeting) bareStart)).log.handled ++
          inbox bareHost (Exec.final (rounds bareHost (inquiry ++ greeting) bareStart)).mem ∧
      (Exec.final (rounds bareHost (inquiry ++ greeting) bareStart)).log.issued =
        (Exec.final (rounds bareHost (inquiry ++ greeting) bareStart)).log.taken ++
          outbox bareHost (Exec.final (rounds bareHost (inquiry ++ greeting) bareStart)).mem ++
          (Exec.final (rounds bareHost (inquiry ++ greeting) bareStart)).fromhostQueue := by
  have ho : Orderly bareHost (inquiry ++ greeting) bareStart := by decide +kernel
  exact htif_channels ⟨⟨.inr rfl, rfl⟩, ⟨.inr rfl, rfl⟩, by decide⟩ fresh_bareStart ho rfl

end Htif

end Nnemu

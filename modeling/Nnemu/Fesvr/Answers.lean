import Nnemu.Fesvr.Htif

/-!
# What commands come to

What the devices of the host interface make of the commands that they are handed, in any run of its
loop: what is written to the terminal is shown, reads are answered in their order with what is
typed, and other commands are answered at once. A response carries the device and the command that
it answers, which tells the two kinds of answers apart.

A response is ambiguous unless it says what it answers, which is why the tags of the three devices
are compared (`Fesvr.Htif` has the lemmas). Commands that are answered at once leave the queue of
the terminal as it is, and the terminal answers a read when there is something typed, in the order
in which the reads came.
-/

namespace Nnemu

namespace Htif

variable {σ : Type} {cfg : HtifConfig σ} {s t : HtifState σ} {c : HtifCommand}

/-! ### What the devices make of the commands -/

/-- `read` of `bcd` -/
def isRead (c : HtifCommand) : Bool :=
  c.device = 1#8 && c.cmd = 0#8

/-- `write` of `bcd` -/
def isWrite (c : HtifCommand) : Bool :=
  c.device = 1#8 && c.cmd = 1#8

/-- Commands that are answered with 1 when they have been handled: a request to identify, and a
proxied system call. -/
def isPrompt (c : HtifCommand) : Bool :=
  c.cmd = 255#8 || (c.device = 0#8 && c.cmd = 0#8 && c.payload &&& 1#64 = 0#64)

/-- The answer to a read. -/
def readAnswer (c : HtifCommand) (ch : BitVec 8) : BitVec 64 :=
  c.response (0x100#64 ||| ch.setWidth 64)

/-- What a device has made of a command. -/
structure Handled (c : HtifCommand) (s t : HtifState σ) : Prop where
  log : t.log =
    { s.log with issued := s.log.issued ++ ([c].filter isPrompt).map fun c => c.response 1#64 }
  pending : t.pendingReads = s.pendingReads ++ [c].filter isRead
  console : t.console = s.console ++ ([c].filter isWrite).map fun c => c.payload.setWidth 8

theorem handled_of_silent (hp : isPrompt c = false) (hr : isRead c = false)
    (hw : isWrite c = false) (h : Silent s t) :
    Handled c s t := by
  refine ⟨?_, ?_, ?_⟩
  · rw [h.1]
    simp [hp]
  · rw [h.2.2.1]
    simp [hr]
  · rw [h.2.2.2]
    simp [hw]

theorem handled_of_prompt (hp : isPrompt c = true) (hr : isRead c = false)
    (hw : isWrite c = false) (h : Silent s t) :
    Handled c s (Exec.final (respond c 1#64 t)) := by
  refine ⟨?_, ?_, ?_⟩
  · change { t.log with issued := t.log.issued ++ [c.response 1#64] } = _
    rw [h.1]
    simp [hp]
  · change t.pendingReads = _
    rw [h.2.2.1]
    simp [hr]
  · change t.console = _
    rw [h.2.2.2]
    simp [hw]

theorem handled_identify {d : Device σ} (h255 : c.cmd = 255#8)
    (h : handleIdentify cfg d c s = .ok () t) :
    Handled c s t := by
  obtain ⟨u, t', hwrite, hrespond⟩ := Exec.bind_eq_ok_iff.1 h
  have hfinal : t = Exec.final (respond c 1#64 t') := by rw [hrespond]; rfl
  rw [hfinal]
  refine handled_of_prompt ?_ ?_ ?_ ((silent_writeMem cfg _ _).of_ok hwrite)
  · simp [isPrompt, h255]
  · simp [isRead, h255]
  · simp [isWrite, h255]

theorem handled_syscall (h0 : c.device = 0#8) (hcmd : c.cmd = 0#8)
    (h : handleSyscall cfg c s = .ok () t) :
    Handled c s t := by
  rw [handleSyscall] at h
  by_cases hexit : c.payload &&& 1#64 = 0#64
  · rw [if_neg (not_not.2 hexit)] at h
    obtain ⟨u, t', hcall, hrespond⟩ := Exec.bind_eq_ok_iff.1 h
    have hfinal : t = Exec.final (respond c 1#64 t') := by rw [hrespond]; rfl
    rw [hfinal]
    refine handled_of_prompt ?_ ?_ ?_ ((silent_dispatch cfg _).of_ok hcall)
    · simp [isPrompt, h0, hcmd, hexit]
    · simp [isRead, h0]
    · simp [isWrite, h0]
  · rw [if_pos hexit] at h
    have hfinal : t = { s with exitcode := c.payload.setWidth 32 } := by
      injection h with _ h
      exact h.symm
    rw [hfinal]
    refine handled_of_silent ?_ ?_ ?_ ⟨rfl, rfl, rfl, rfl⟩
    · simp [isPrompt, hcmd, hexit]
    · simp [isRead, h0]
    · simp [isWrite, h0]

/-- Devices handle commands. -/
theorem handled_device (h : (deviceAt cfg c.device).handleCommand cfg c s = .ok () t) :
    Handled c s t := by
  have hnothing : ∀ d : Device σ, isRead c = false → isWrite c = false →
    (c.device = 0#8 → c.cmd ≠ 0#8) →
      (if c.cmd = 255#8 then handleIdentify cfg d c else pure ()) s = .ok () t → Handled c s t := by
    intro d hr hw h00 h
    by_cases h255 : c.cmd = 255#8
    · rw [if_pos h255] at h
      exact handled_identify h255 h
    · rw [if_neg h255] at h
      injection h with _ h
      rw [← h]
      refine handled_of_silent ?_ hr hw (composes_silent.refl s)
      by_cases hdev : c.device = 0#8
      · simp [isPrompt, h255, h00 hdev]
      · simp [isPrompt, h255, hdev]
  rw [deviceAt] at h
  by_cases h0 : c.device = 0#8
  · rw [if_pos h0, handleCommand_syscallProxy] at h
    by_cases hcmd : c.cmd = 0#8
    · rw [if_pos hcmd] at h
      exact handled_syscall h0 hcmd h
    · rw [if_neg hcmd] at h
      exact hnothing _ (by simp [isRead, h0]) (by simp [isWrite, h0]) (fun _ => hcmd) h
  · rw [if_neg h0] at h
    by_cases h1 : c.device = 1#8
    · rw [if_pos h1, handleCommand_bcd] at h
      by_cases hread : c.cmd = 0#8
      · rw [if_pos hread] at h
        injection h with _ h
        rw [← h]
        refine ⟨?_, ?_, ?_⟩
        · simp [isPrompt, hread, h1]
        · simp [isRead, hread, h1]
        · simp [isWrite, hread]
      · rw [if_neg hread] at h
        by_cases hwrite : c.cmd = 1#8
        · rw [if_pos hwrite] at h
          injection h with _ h
          rw [← h]
          refine ⟨?_, ?_, ?_⟩
          · simp [isPrompt, hwrite]
          · simp [isRead, hwrite]
          · simp [isWrite, hwrite, h1]
        · rw [if_neg hwrite] at h
          exact hnothing _ (by simp [isRead, hread]) (by simp [isWrite, hwrite])
            (fun h => absurd h h0) h
    · rw [if_neg h1, handleCommand_nullDevice] at h
      exact hnothing _ (by simp [isRead, h1]) (by simp [isWrite, h1]) (fun h => absurd h h0) h

/-- Is a response the answer to a read? The two first bytes of a response are those of the
command. -/
def answersRead (response : BitVec 64) : Bool :=
  isRead ⟨response⟩

/-- **The answers**: what the devices have made of the commands so far. -/
structure Answers (s : HtifState σ) : Prop where
  /-- the payloads of the writes have been shown -/
  console : s.console = (s.log.handled.filter isWrite).map fun c => c.payload.setWidth 8
  /-- the first reads have got the characters that were typed -/
  reads : s.log.issued.filter answersRead = List.zipWith readAnswer
    (s.log.handled.filter isRead) s.log.typed
  /-- the other reads wait -/
  pending : s.pendingReads = (s.log.handled.filter isRead).drop s.log.typed.length
  length_typed : s.log.typed.length ≤ (s.log.handled.filter isRead).length
  /-- the other answers, in the order of their commands -/
  prompt : s.log.issued.filter (fun response => !answersRead response) =
    (s.log.handled.filter isPrompt).map fun c => c.response 1#64

theorem answersRead_response (c : HtifCommand) (resp : BitVec 64) :
    answersRead (c.response resp) = isRead c := by
  have hcmd : HtifCommand.cmd ⟨c.response resp⟩ = c.cmd :=
    congrArg (BitVec.setWidth 8) (response_tag c resp)
  have hdevice : HtifCommand.device ⟨c.response resp⟩ = c.device := by
    have hshift : ∀ w : BitVec 64, w >>> 56 = w >>> 48 >>> 8 :=
      fun w => BitVec.shiftRight_add w 48 8
    rw [HtifCommand.device, HtifCommand.device, hshift, hshift, response_tag]
  rw [answersRead, isRead, isRead, hcmd, hdevice]

theorem isRead_of_isPrompt (h : isPrompt c = true) : isRead c = false := by
  by_contra hread
  simp only [isRead, Bool.not_eq_false, Bool.and_eq_true, decide_eq_true_eq] at hread
  simp [isPrompt, hread.1, hread.2] at h

/-- What is behind the end of the shorter list makes no difference. -/
theorem zipWith_append_of_le {β γ δ : Type} {xs : List β} {ys : List γ}
    (f : β → γ → δ) (xs' : List β)
    (h : ys.length ≤ xs.length) : List.zipWith f (xs ++ xs') ys = List.zipWith f xs ys := by
  have htake : List.zipWith f xs ys = List.zipWith f (xs.take (min xs.length ys.length))
    (ys.take (min xs.length ys.length)) :=
    List.zipWith_eq_zipWith_take_min
  rw [htake, List.zipWith_eq_zipWith_take_min, List.length_append, Nat.min_eq_right h,
    Nat.min_eq_right (Nat.le_trans h (Nat.le_add_right _ _)), List.take_append_of_le_length h]

/-- The shorter list gets longer. -/
theorem zipWith_concat {β γ δ : Type} {xs rest : List β} {ys : List γ}
    {x : β} (f : β → γ → δ) (y : γ)
    (h : xs.drop ys.length = x :: rest) : List.zipWith f xs (ys ++ [y]) = List.zipWith f xs ys ++
    [f x y] := by
  have hlt : ys.length < xs.length := by
    by_contra hle
    rw [List.drop_eq_nil_of_le (Nat.le_of_not_lt hle)] at h
    exact absurd h (by simp)
  have hlength : (xs.take ys.length).length = ys.length := List.length_take_of_le (Nat.le_of_lt hlt)
  have hsplit : xs.take ys.length ++ (x :: rest) = xs := by rw [← h, List.take_append_drop]
  calc List.zipWith f xs (ys ++ [y])
      = List.zipWith f (xs.take ys.length ++ (x :: rest)) (ys ++ [y]) := by rw [hsplit]
    _ = List.zipWith f (xs.take ys.length) ys ++ List.zipWith f (x :: rest) [y] :=
      List.zipWith_append hlength
    _ = List.zipWith f (xs.take ys.length ++ (x :: rest)) ys ++ [f x y] := by
      rw [zipWith_append_of_le f _ hlength.ge, List.zipWith_cons_cons, List.zipWith_nil_right]
    _ = List.zipWith f xs ys ++ [f x y] := by rw [hsplit]

/-- A command is handled. -/
theorem Answers.handled (h : Answers s)
    (hc : Handled c { s with log := { s.log with handled := s.log.handled ++ [c] } } t) :
    Answers t := by
  have hpending := hc.pending
  have hlog := hc.log
  have hread : (([c].filter isPrompt).map fun c => c.response 1#64).filter answersRead = [] := by
    rw [List.filter_eq_nil_iff]
    intro response hr
    obtain ⟨c', hc', rfl⟩ := List.mem_map.1 hr
    rw [answersRead_response, isRead_of_isPrompt (List.mem_filter.1 hc').2]
    simp
  have hprompt : (([c].filter isPrompt).map fun c => c.response 1#64).filter
    (fun response => !answersRead response) =
      ([c].filter isPrompt).map fun c => c.response 1#64 := by
    rw [List.filter_eq_self]
    intro response hr
    obtain ⟨c', hc', rfl⟩ := List.mem_map.1 hr
    rw [answersRead_response, isRead_of_isPrompt (List.mem_filter.1 hc').2]
    rfl
  have hlength := h.length_typed
  refine ⟨?_, ?_, ?_, ?_, ?_⟩
  · rw [hc.console, hlog, List.filter_append, List.map_append, ← h.console]
  · rw [hlog, List.filter_append, List.filter_append, hread, List.append_nil, h.reads]
    exact (zipWith_append_of_le _ _ hlength).symm
  · rw [hpending, hlog, List.filter_append, List.drop_append_of_le_length hlength, ← h.pending]
  · rw [hlog, List.filter_append, List.length_append]
    exact Nat.le_trans hlength (Nat.le_add_right _ _)
  · rw [hlog, List.filter_append, List.filter_append, hprompt, List.map_append, h.prompt]

/-- A character is typed. -/
theorem Answers.tick (h : Answers s) (typed : Option (BitVec 8))
    (hrun : bcdTick typed s = .ok () t) : Answers t := by
  cases hpending : s.pendingReads with
  | nil =>
    rw [bcdTick_idle (.inl hpending)] at hrun
    injection hrun with _ hrun
    exact hrun ▸ h
  | cons c rest =>
    cases typed with
    | none =>
      rw [bcdTick_idle (.inr rfl)] at hrun
      injection hrun with _ hrun
      exact hrun ▸ h
    | some ch =>
      rw [bcdTick_typed ch hpending] at hrun
      injection hrun with _ hrun
      rw [← hrun]
      have hdrop : (s.log.handled.filter isRead).drop s.log.typed.length = c :: rest :=
        h.pending ▸ hpending
      have hread : isRead c = true := by
        have hmem : c ∈ s.log.handled.filter isRead :=
          List.mem_of_mem_drop (hdrop ▸ List.mem_cons_self)
        exact (List.mem_filter.1 hmem).2
      have hanswers : answersRead (c.response (0x100#64 ||| ch.setWidth 64)) = true := by
        rw [answersRead_response, hread]
      refine ⟨h.console, ?_, ?_, ?_, ?_⟩
      · rw [List.filter_append, h.reads, zipWith_concat readAnswer ch hdrop,
          List.filter_singleton, hanswers]
        rfl
      · rw [List.length_append, List.length_singleton, ← List.drop_drop, hdrop]
        rfl
      · rw [List.length_append, List.length_singleton]
        by_contra hle
        rw [List.drop_eq_nil_of_le (Nat.le_of_lt_succ (Nat.lt_of_not_le hle))] at hdrop
        exact absurd hdrop (by simp)
      · rw [List.filter_append, h.prompt, List.filter_singleton, hanswers]
        simp

/-- The devices, and nothing else, change what the answers speak of. -/
theorem Answers.of_eq (h : Answers s) (hconsole : t.console = s.console)
    (hpending : t.pendingReads = s.pendingReads)
    (hhandled : t.log.handled = s.log.handled) (hissued : t.log.issued = s.log.issued)
    (htyped : t.log.typed = s.log.typed) : Answers t where
  console := by rw [hconsole, hhandled, h.console]
  reads := by rw [hissued, hhandled, htyped, h.reads]
  pending := by rw [hpending, hhandled, htyped, h.pending]
  length_typed := by rw [hhandled, htyped]; exact h.length_typed
  prompt := by rw [hissued, hhandled, h.prompt]

theorem Answers.moves {moves : List TargetMove} (h : Answers s) :
    Answers (moves.foldl (fun s move => move.play cfg s) s) := by
  induction moves generalizing s with
  | nil => exact h
  | cons move moves ih =>
    refine ih ?_
    cases move with
    | send c =>
      change Answers (TargetMove.play cfg (.send c) s)
      rw [TargetMove.play]
      split
      · exact h.of_eq rfl rfl rfl rfl rfl
      · exact h
    | take =>
      change Answers (TargetMove.play cfg .take s)
      rw [TargetMove.play]
      split
      · exact h
      · exact h.of_eq rfl rfl rfl rfl rfl
    | other f => exact h.of_eq rfl rfl rfl rfl rfl

theorem Answers.serve {input : HtifInput} {w : BitVec 64} (h : Answers s)
    (hrun : serve cfg (idle cfg input.moves) input.typed w s = .ok () t) : Answers t := by
  have htick : ∀ first : HtifM σ Unit, (∀ u, first s = .ok () u → Answers u) →
      (first >>= fun _ => bcdTick input.typed) s = .ok () t → Answers t := by
    intro first hfirst hseq
    obtain ⟨_, u, hu, ht⟩ := Exec.bind_eq_ok_iff.1 hseq
    exact (hfirst u hu).tick input.typed ht
  rw [Htif.serve] at hrun
  by_cases hw : w = 0#64
  · rw [if_neg (not_not.2 hw)] at hrun
    refine htick _ (fun u hu => ?_) hrun
    injection hu with _ hu
    exact hu ▸ h.moves
  · rw [if_pos hw] at hrun
    refine htick _ (fun u hu => ?_) hrun
    obtain ⟨_, s', hnoted, hdevice⟩ := Exec.bind_eq_ok_iff.1 hu
    injection hnoted with _ hnoted
    exact h.handled (hnoted ▸ handled_device hdevice)

/-- A round of the loop. -/
theorem Answers.round {input : HtifInput} (h : Answers s)
    (hrun : round cfg (idle cfg input.moves) input.typed s = .ok () t) : Answers t := by
  obtain ⟨w, s₁, htake, hrest⟩ := Exec.bind_eq_ok_iff.1 hrun
  obtain ⟨_, s₂, hserve, hdeliver⟩ := Exec.bind_eq_ok_iff.1 hrest
  rw [during_eq_ok_iff] at htake hserve hdeliver
  have h₁ : Answers s₁ := by
    obtain ⟨htake', -⟩ | ⟨e, htake'⟩ | ⟨htake', -⟩ := takeTohost_cases cfg s
    · rw [htake] at htake'
      injection htake' with _ heq
      exact heq ▸ h
    · rw [htake] at htake'
      exact absurd htake' (by simp)
    · rw [htake] at htake'
      injection htake' with _ heq
      exact heq ▸ h.of_eq rfl rfl rfl rfl rfl
  have h₂ : Answers s₂ := h₁.serve hserve
  have hfinal : Exec.final (deliver cfg s₂) = t := by
    rw [hdeliver]
    rfl
  obtain heq | ⟨response, rest, -, -, heq⟩ := deliver_cases cfg s₂
  · rw [← hfinal, heq]
    exact h₂
  · rw [← hfinal, heq]
    exact h₂.of_eq rfl rfl rfl rfl rfl

theorem Answers.rounds {inputs : List HtifInput} (h : Answers s)
    (hrun : rounds cfg inputs s = .ok () t) : Answers t := by
  induction inputs generalizing s with
  | nil =>
    injection hrun with _ hrun
    exact hrun ▸ h
  | cons input inputs ih =>
    rw [Htif.rounds, Exec.bind_of_ok (rfl : (get : HtifM σ (HtifState σ)) s = .ok s s)] at hrun
    by_cases hexit : s.exitcode = 0#32
    · rw [if_pos hexit] at hrun
      obtain ⟨_, u, hround, hrest⟩ := Exec.bind_eq_ok_iff.1 hrun
      exact ih (h.round hround) hrest
    · rw [if_neg hexit] at hrun
      injection hrun with _ hrun
      exact hrun ▸ h

/-- **Every command gets what it asks for.** After any number of rounds, whatever the target has
done to memory meanwhile: the terminal has shown the payloads of the writes, the first reads have
been answered with the characters that were typed and the others wait, and the commands that are
answered at once have been answered, all in their order. -/
theorem htif_answers {inputs : List HtifInput} (hfresh : Fresh cfg s)
    (hrun : rounds cfg inputs s = .ok () t) : Answers t := by
  refine Answers.rounds ⟨?_, ?_, ?_, ?_, ?_⟩ hrun
  · rw [hfresh.console, hfresh.log]
    rfl
  · rw [hfresh.log]
    rfl
  · rw [hfresh.pending, hfresh.log]
    rfl
  · rw [hfresh.log]
    exact Nat.le_refl 0
  · rw [hfresh.log]
    rfl

theorem htif_answers_greeting : Answers (Exec.final (rounds bareHost greeting bareStart)) := by
  have hrun : rounds bareHost greeting bareStart = .ok ()
      (Exec.final (rounds bareHost greeting bareStart)) := rfl
  exact htif_answers fresh_bareStart hrun

end Htif

end Nnemu

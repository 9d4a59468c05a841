import Nnemu.Isa.Parser

/-!
# The parser over a pointer

`isa_parser_t` walks a pointer over a string that ends in a zero. Here the pointer is a place in the
string, and each read is checked: `isaParser` is an `overRead` when it looks behind the zero. It
does what `parse` does with the rest of the string.

A place in the string is the rest that follows it, so that reading a character is a case distinction
on a list. The lemmas say for each function of the parser that it goes from a place to a place
behind it in the same string, unless it reads behind the zero.
-/

namespace Nnemu

namespace Isa

/-- The terminating zero. -/
def nul : Char := Char.ofNat 0

/-- A string of C. -/
structure CString where
  /-- what is in front of the terminating zero -/
  chars : List Char
  nul_notMem : nul ∉ chars

/-! ### The loops -/

/-- `*q` -/
def deref (s : List Char) (q : Nat) : Except ParseError Char :=
  if q < s.length then .ok (s.getD q nul)
  else if q = s.length then .ok nul
  else .error .overRead

/-- `while (isdigit(*(p + 1)))` -/
def skipVersionAt (s : List Char) : Nat → Nat → Except ParseError Nat
  | 0, _ => .error .outOfFuel
  | fuel + 1, p => do
    if (← deref s (p + 1)).isDigit then
      let p := p + 1
      if (← deref s (p + 1)) = 'p' then skipVersionAt s fuel (p + 1) else skipVersionAt s fuel p
    else pure p

/-- `for (p += 5; islower(*p) && !strchr("zsx", *p); ++p)` -/
def scanLetters (s : List Char) : Nat → ParseState → List Char → Nat →
    Except ParseError (ParseState × Nat)
  | 0, _, _, _ => .error .outOfFuel
  | fuel + 1, ps, subset, p => do
    let c ← deref s p
    if c.isLower && !"zsx".toList.contains c then
      match subset.dropWhile (· ≠ c) with
      | [] =>
        if allSubsets.contains c then
          .error (.badIsaString s!"Extension '{c}' appears too late in ISA string")
        else .error (.badIsaString s!"Unsupported extension '{c}'")
      | subset' =>
        let p ← skipVersionAt s (s.length + 1) p
        let p := if (← deref s (p + 1)) = '_' then p + 1 else p
        scanLetters s fuel (enableLetter ps c) subset' (p + 1)
    else pure (ps, p)

/-- `do ++end; while (*end && *end != '_')` -/
def nameEnd (s : List Char) : Nat → Nat → Except ParseError Nat
  | 0, _ => .error .outOfFuel
  | fuel + 1, e => do
    let e := e + 1
    let c ← deref s e
    if c ≠ nul ∧ c ≠ '_' then nameEnd s fuel e else pure e

/-- `while (islower(*p) || (*p == '_'))` -/
def scanNames (xlen : Xlen) (find : String → Option String) (s : List Char) :
    Nat → ParseState → Nat → Except ParseError (ParseState × Nat)
  | 0, _, _ => .error .outOfFuel
  | fuel + 1, ps, p => do
    let c ← deref s p
    if c.isLower || c = '_' then
      let p := if c = '_' then p + 1 else p
      let e ← nameEnd s (s.length + 1) p
      let ps ← enableName xlen find ps ((s.drop p).take (e - p))
      scanNames xlen find s fuel ps e
    else pure (ps, p)

/-- `switch (isa_string[4])`, which spells G out. -/
def switchBase (s : List Char) : Except ParseError (ParseState × List Char) :=
  match s.drop 4 with
  | 'g' :: rest => .ok (ParseState.empty.enable .i, s.take 4 ++ "imafd".toList ++ rest)
  | 'i' :: _ => .ok (ParseState.empty.enable .i, s)
  | 'e' :: _ => .ok (ParseState.empty.enable .e, s)
  | _ => .error (.badIsaString s!"'{String.ofList (s.take 4)}' must be followed by I, E, or G")

/-- `isa_parser_t::isa_parser_t(str, priv)`, with a pointer -/
def isaParser (find : String → Option String) (str priv : CString) : Except ParseError Isa := do
  let isa_string := strtolower str.chars
  let xlen ← baseWidth isa_string
  let (ps, isa_string) ← switchBase isa_string
  let fuel := isa_string.length - 5 + 1
  let (ps, p) ← scanLetters isa_string fuel ps allSubsets 5
  let (ps, p) ← scanNames xlen find isa_string (isa_string.length - p + 1) ps p
  if (← deref isa_string p) ≠ nul then
    throw (.badIsaString s!"can't parse: {String.ofList (isa_string.drop p)}")
  let ps := enableCompressed xlen ps
  tailChecks ps.table
  finish xlen ps (← parsePriv priv.chars)

/-! ### The pointer and the rest of the string -/

/-- The pointer stands in front of the rest. -/
def At (s : List Char) (p : Nat) (rest : List Char) : Prop :=
  p ≤ s.length ∧ s.drop p = rest

variable {s rest : List Char} {p fuel : Nat} {c : Char}

theorem At.next (h : At s p (c :: rest)) : At s (p + 1) rest := by
  obtain ⟨hle, hdrop⟩ := h
  have hlen := congrArg List.length hdrop
  rw [List.length_drop, List.length_cons] at hlen
  refine ⟨by omega, ?_⟩
  rw [← List.tail_drop, hdrop, List.tail_cons]

theorem At.length_le (h : At s p rest) : rest.length ≤ s.length := by
  rw [← h.2, List.length_drop]
  exact Nat.sub_le _ _

theorem At.length_eq (h : At s p rest) : rest.length = s.length - p := by
  rw [← h.2, List.length_drop]

theorem At.mem (h : At s p rest) (hc : c ∈ rest) : c ∈ s :=
  List.mem_of_mem_drop (h.2 ▸ hc)

/-- What a read gives. -/
theorem At.deref (h : At s p rest) : deref s p = .ok (rest.headD nul) := by
  obtain ⟨hle, rfl⟩ := h
  rw [Isa.deref]
  by_cases hlt : p < s.length
  · rw [if_pos hlt, List.drop_eq_getElem_cons hlt, List.headD_cons, List.getD_eq_getElem?_getD,
      List.getElem?_eq_getElem hlt, Option.getD_some]
  · have hend : p = s.length := Nat.le_antisymm hle (Nat.le_of_not_lt hlt)
    rw [if_neg hlt, if_pos hend, List.drop_of_length_le (Nat.le_of_not_lt hlt)]
    rfl

/-- Behind the zero there is nothing to read. -/
theorem At.deref_behind (h : At s p []) : Isa.deref s (p + 1) = .error .overRead := by
  have hlen := h.length_eq
  rw [List.length_nil] at hlen
  rw [Isa.deref, if_neg (by omega), if_neg (by have hle := h.1; omega)]

/-- The two parsers have come to the same place. -/
inductive Agrees (s : List Char) :
    Except ParseError (ParseState × Nat) → Except ParseError (ParseState × List Char) → Prop
  | error (e : ParseError) : Agrees s (.error e) (.error e)
  | ok {ps : ParseState} {p : Nat} {rest : List Char} (h : At s p rest) :
      Agrees s (.ok (ps, p)) (.ok (ps, rest))

/-! ### Versions and underscores -/

theorem skipVersionAt_eq (h : At s (p + 1) rest) (hfuel : rest.length < fuel) :
    ∃ p', skipVersionAt s fuel p = .ok p' ∧ At s (p' + 1) (skipVersion rest) := by
  induction fuel generalizing p rest with
  | zero => exact absurd hfuel (Nat.not_lt_zero _)
  | succ fuel ih =>
    rw [skipVersionAt, h.deref]
    dsimp only [bind, Except.bind]
    obtain _ | ⟨c, rest⟩ := rest
    · exact ⟨p, rfl, h⟩
    rw [List.headD_cons]
    by_cases hdigit : c.isDigit = true
    · rw [if_pos hdigit, h.next.deref]
      dsimp only
      rw [List.length_cons] at hfuel
      obtain _ | ⟨c', rest⟩ := rest
      · -- a digit at the end of the string
        rw [List.headD_nil, if_neg (by decide)]
        obtain ⟨p', heq, hat⟩ := ih h.next (by omega)
        exact ⟨p', heq, by rwa [skipVersion, if_pos hdigit]⟩
      · rw [List.headD_cons, skipVersion, if_pos hdigit]
        -- the `p` of a version goes with the digit in front of it
        by_cases hpoint : c' = 'p'
        · rw [if_pos hpoint, if_pos hpoint]
          rw [List.length_cons] at hfuel
          exact ih h.next.next (by omega)
        · rw [if_neg hpoint, if_neg hpoint]
          exact ih h.next (by omega)
    · rw [if_neg hdigit]
      refine ⟨p, rfl, ?_⟩
      obtain _ | ⟨c', rest⟩ := rest
      · rwa [skipVersion, if_neg hdigit]
      · rwa [skipVersion, if_neg hdigit]

/-- The pointer skips an underscore, and no zero. -/
theorem skipUnderscore_at (h : At s (p + 1) rest) :
    At s ((if rest.headD nul = '_' then p + 1 else p) + 1) (skipUnderscore rest) := by
  obtain _ | ⟨c, rest⟩ := rest
  · exact h
  rw [List.headD_cons]
  by_cases hc : c = '_'
  · subst hc
    exact h.next
  · rw [if_neg hc, skipUnderscore]
    · exact h
    · intro rest' heq
      exact hc (List.cons.inj heq).1

theorem agrees_letters (fuel : Nat) (ps : ParseState) (subset : List Char) (h : At s p rest) :
    Agrees s (scanLetters s fuel ps subset p) (letterLoop fuel ps subset rest) := by
  induction fuel generalizing ps subset p rest with
  | zero => exact .error _
  | succ fuel ih =>
    rw [scanLetters, h.deref]
    dsimp only [bind, Except.bind]
    obtain _ | ⟨c, rest⟩ := rest
    · exact .ok h
    rw [List.headD_cons, letterLoop]
    by_cases hc : (c.isLower && !"zsx".toList.contains c) = true
    · rw [if_pos hc, if_pos hc]
      cases subset.dropWhile (· ≠ c) with
      | nil =>
        dsimp only
        split
        · exact .error _
        · exact .error _
      | cons d subset' =>
        obtain ⟨p', heq, hat⟩ := skipVersionAt_eq h.next (Nat.lt_succ_of_le h.next.length_le)
        dsimp only
        rw [heq]
        dsimp only
        rw [hat.deref]
        exact ih _ _ (skipUnderscore_at hat)
    · rw [if_neg hc, if_neg hc]
      exact .ok h

/-! ### Names -/

theorem extName_starts (s : List Char) : extName s <+: s := by
  cases s with
  | nil => exact List.prefix_refl _
  | cons c rest => exact List.cons_prefix_cons.2 ⟨rfl, List.takeWhile_prefix _⟩

/-- The end of a name. -/
theorem nameEnd_eq (hs : nul ∉ s) (h : At s p (c :: rest)) (hfuel : rest.length < fuel) :
    ∃ e, nameEnd s fuel p = .ok e ∧ e = p + (extName (c :: rest)).length ∧
      At s e ((c :: rest).drop (extName (c :: rest)).length) := by
  induction fuel generalizing c p rest with
  | zero => exact absurd hfuel (Nat.not_lt_zero _)
  | succ fuel ih =>
    rw [nameEnd, h.next.deref]
    dsimp only [bind, Except.bind]
    obtain _ | ⟨c', rest⟩ := rest
    · exact ⟨p + 1, rfl, rfl, h.next⟩
    rw [List.headD_cons]
    by_cases hc : c' ≠ nul ∧ c' ≠ '_'
    · rw [if_pos hc]
      rw [List.length_cons] at hfuel
      obtain ⟨e, heq, hend, hat⟩ := ih h.next (by omega)
      have hname : extName (c :: c' :: rest) = c :: extName (c' :: rest) := by
        rw [extName, extName, List.takeWhile_cons, if_pos (decide_eq_true hc.2)]
      refine ⟨e, heq, ?_, ?_⟩
      · rw [hname, List.length_cons, hend]
        omega
      · rwa [hname, List.length_cons, List.drop_succ_cons]
    · rw [if_neg hc]
      have hnul : c' ≠ nul := fun h' => hs (h' ▸ h.next.mem List.mem_cons_self)
      obtain rfl : c' = '_' := Decidable.byContradiction fun hne => hc ⟨hnul, hne⟩
      exact ⟨p + 1, rfl, rfl, h.next⟩

theorem agrees_names (xlen : Xlen) (find : String → Option String) (fuel : Nat)
    (ps : ParseState) (hs : nul ∉ s)
    (h : At s p rest) : Agrees s (scanNames xlen find s fuel ps p)
    (nameLoop xlen find fuel ps rest) := by
  induction fuel generalizing ps p rest with
  | zero => exact .error _
  | succ fuel ih =>
    rw [scanNames, h.deref]
    dsimp only [bind, Except.bind]
    obtain _ | ⟨c, rest⟩ := rest
    · exact .ok h
    rw [List.headD_cons, nameLoop]
    by_cases hc : (c.isLower || c = '_') = true
    · rw [if_pos hc, if_pos hc]
      have hat : At s (if c = '_' then p + 1 else p) (if c = '_' then rest else c :: rest) := by
        split
        · exact h.next
        · exact h
      generalize (if c = '_' then p + 1 else p) = q at hat
      generalize (if c = '_' then rest else c :: rest) = name at hat
      obtain _ | ⟨d, name⟩ := name
      · -- the name is empty, and its end is behind the zero
        rw [nameEnd, hat.deref_behind]
        exact .error _
      · obtain ⟨e, heq, hend, hrest⟩ := nameEnd_eq hs hat (Nat.lt_succ_of_le hat.next.length_le)
        rw [heq]
        dsimp only
        rw [hat.2, hend, Nat.add_sub_cancel_left,
          ← List.prefix_iff_eq_take.1 (extName_starts (d :: name))]
        rw [if_neg (by rw [List.isEmpty_cons]; decide)]
        cases enableName xlen find ps (extName (d :: name)) with
        | error e => exact .error e
        | ok ps' => exact ih ps' (hend ▸ hrest)
    · rw [if_neg hc, if_neg hc]
      exact .ok h

/-! ### The constructor -/

/-- A capital letter does not become the zero. -/
theorem toLower_ne_nul (hc : c ≠ nul) : c.toLower ≠ nul := by
  intro heq
  by_cases hupper : c.val ≥ 'A'.val ∧ c.val ≤ 'Z'.val
  · have hval : c.toLower.val = c.val + 32 := congrArg Char.val (dif_pos hupper)
    have hle : c.val.toNat ≤ 90 := hupper.2
    have hge : 65 ≤ c.val.toNat := hupper.1
    have hsum : (c.val + 32).toNat = c.val.toNat + 32 := by
      rw [UInt32.toNat_add, Nat.mod_eq_of_lt]
      · rfl
      · have hlt : (32 : UInt32).toNat = 32 := rfl
        omega
    have hzero : c.toLower.val.toNat = 0 := congrArg (fun c : Char => c.val.toNat) heq
    rw [hval] at hzero
    omega
  · have hsame : c.toLower = c := dif_neg hupper
    rw [hsame] at heq
    exact hc heq

theorem nul_notMem_strtolower (hs : nul ∉ s) : nul ∉ strtolower s := by
  intro hmem
  obtain ⟨c, hc, heq⟩ := List.mem_map.1 hmem
  exact toLower_ne_nul (fun hnul => hs (hnul ▸ hc)) heq

/-- The string behind the base letter. -/
inductive Spelled (s : List Char) : Except ParseError (ParseState × List Char) →
    Except ParseError (ParseState × List Char) → Prop
  | error (e : ParseError) : Spelled s (.error e) (.error e)
  | ok {ps : ParseState} {s' rest : List Char} (hnul : nul ∉ s → nul ∉ s') (h : At s' 5 rest) :
    Spelled s (.ok (ps, s')) (.ok (ps, rest))

theorem switchBase_of_not {s : List Char}
    (h : ∀ c ∈ (s.drop 4).head?, c ≠ 'g' ∧ c ≠ 'i' ∧ c ≠ 'e') : switchBase s =
    .error (.badIsaString s!"'{String.ofList (s.take 4)}' must be followed by I, E, or G") := by
  rw [switchBase]
  split
  · rename_i hdrop
    rw [hdrop] at h
    exact absurd rfl (h _ rfl).1
  · rename_i hdrop
    rw [hdrop] at h
    exact absurd rfl (h _ rfl).2.1
  · rename_i hdrop
    rw [hdrop] at h
    exact absurd rfl (h _ rfl).2.2
  · rfl

theorem baseLetter_of_not (pre : List Char) {s : List Char}
    (h : ∀ c ∈ s.head?, c ≠ 'g' ∧ c ≠ 'i' ∧ c ≠ 'e') :
    baseLetter pre s =
      .error (.badIsaString s!"'{String.ofList pre}' must be followed by I, E, or G") := by
  rw [baseLetter.eq_def]
  split
  · exact absurd rfl (h _ rfl).1
  · exact absurd rfl (h _ rfl).2.1
  · exact absurd rfl (h _ rfl).2.2
  · rfl

theorem spelled_base (s : List Char) :
    Spelled s (switchBase s) (baseLetter (s.take 4) (s.drop 4)) := by
  by_cases hnot : ∀ c ∈ (s.drop 4).head?, c ≠ 'g' ∧ c ≠ 'i' ∧ c ≠ 'e'
  · rw [switchBase_of_not hnot, baseLetter_of_not _ hnot]
    exact .error _
  · obtain ⟨c, hc, hbase⟩ : ∃ c, c ∈ (s.drop 4).head? ∧ (c = 'g' ∨ c = 'i' ∨ c = 'e') := by
      refine Decidable.byContradiction fun hno => hnot fun c hc => ?_
      refine ⟨fun h => hno ⟨c, hc, .inl h⟩, fun h => hno ⟨c, hc, .inr (.inl h)⟩,
        fun h => hno ⟨c, hc, .inr (.inr h)⟩⟩
    obtain ⟨rest, hdrop⟩ : ∃ rest, s.drop 4 = c :: rest := by
      cases hs : s.drop 4 with
      | nil =>
        rw [hs] at hc
        cases hc
      | cons d rest =>
        rw [hs] at hc
        cases hc
        exact ⟨rest, rfl⟩
    have hlen : (c :: rest).length = s.length - 4 := by
      rw [← hdrop]
      exact List.length_drop
    rw [List.length_cons] at hlen
    have hbehind : At s 5 rest := by
      have hat : At s 4 (c :: rest) := ⟨by omega, hdrop⟩
      exact hat.next
    -- `g` puts its letters in front of the rest, so that the pointer goes to index 5 in all three
    -- cases
    rw [switchBase, hdrop]
    obtain rfl | rfl | rfl := hbase
    · refine .ok (fun hs hmem => ?_) ⟨?_, ?_⟩
      · rw [List.mem_append, List.mem_append] at hmem
        obtain (hmem | hmem) | hmem := hmem
        · exact hs (List.mem_of_mem_take hmem)
        · exact absurd hmem (by decide)
        · exact hs (List.mem_of_mem_drop (hdrop ▸ List.mem_cons_of_mem _ hmem))
      · have himafd : "imafd".toList.length = 5 := rfl
        rw [List.length_append, List.length_append, himafd]
        omega
      · have htake : (s.take 4).length = 4 := by
          rw [List.length_take]
          omega
        rw [List.append_assoc, List.drop_append, htake, List.drop_of_length_le (by omega)]
        rfl
    · exact .ok id hbehind
    · exact .ok id hbehind

/-- **The pointer is where it should be**: reads behind the terminating zero are the ones that
`parse` reports. -/
theorem isaParser_eq_parse (find : String → Option String) (str priv : CString) :
    isaParser find str priv = parse find str.chars priv.chars := by
  rw [isaParser, parse]
  dsimp only [bind, Except.bind]
  cases baseWidth (strtolower str.chars) with
  | error e => rfl
  | ok xlen =>
    dsimp only
    have hbase := spelled_base (strtolower str.chars)
    generalize switchBase (strtolower str.chars) = base at hbase ⊢
    generalize baseLetter _ _ = letter at hbase ⊢
    cases hbase with
    | error e => rfl
    | @ok ps s body hnul hat =>
      have hs := hnul (nul_notMem_strtolower str.nul_notMem)
      -- from here on the pointer and the rest of the string go side by side
      have hletters := agrees_letters (body.length + 1) ps allSubsets hat
      rw [hat.length_eq] at hletters
      dsimp only
      rw [hat.length_eq]
      generalize scanLetters s _ ps allSubsets 5 = scanned at hletters ⊢
      generalize letterLoop _ ps allSubsets body = looped at hletters ⊢
      cases hletters with
      | error e => rfl
      | @ok ps p rest hat =>
        have hnames := agrees_names xlen find (rest.length + 1) ps hs hat
        dsimp only
        rw [← hat.length_eq]
        generalize scanNames xlen find s _ ps p = scanned at hnames ⊢
        generalize nameLoop xlen find _ ps rest = looped at hnames ⊢
        cases hnames with
        | error e => rfl
        | @ok ps p rest hat =>
          dsimp only
          rw [hat.deref, hat.2]
          obtain _ | ⟨c, rest⟩ := rest
          · rfl
          · have hc : c ≠ nul := fun h => hs (h ▸ hat.mem List.mem_cons_self)
            dsimp only
            rw [List.headD_cons, if_pos hc]
            rfl

end Isa

end Nnemu

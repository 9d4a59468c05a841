import Nnemu.Isa.Closure

/-!
# Letters and names

A string spells letters, each of which may have a version and an underscore, and then names, each of
which may have an underscore in front. The two loops of the parser take letters and names one by
one, or reject the string: `letterLoop_of_letters` and `nameLoop_of_names`.

The two loops are described by what they have consumed and what is left. An induction on the list of
letters, or of names, shows that the loop takes exactly them, and stops where the next character is
none of its own.
-/

namespace Nnemu

namespace Isa

/-! ### Letters -/

/-- Does a character stand for a letter, and not for the start of a name? -/
def isLetter (c : Char) : Bool :=
  c.isLower && !"zsx".toList.contains c

/-- The letters at the front of a string, and what is behind them. -/
inductive Letters : List Char → List Char → List Char → Prop
  | done {s : List Char} (h : ∀ c ∈ s.head?, isLetter c = false) : Letters s [] s
  | letter {c : Char} {rest letters tail : List Char} (hc : isLetter c = true)
      (h : Letters (skipUnderscore (skipVersion rest)) letters tail) :
        Letters (c :: rest) (c :: letters) tail

/-- The place of a letter in `all_subsets`. -/
def rank (c : Char) : Nat :=
  allSubsets.idxOf c

/-- Letters of `all_subsets` in its order, from a place on. -/
structure InOrder (r : Nat) (letters : List Char) : Prop where
  known : ∀ c ∈ letters, c ∈ allSubsets
  from_rank : ∀ c ∈ letters, r ≤ rank c
  sorted : letters.Pairwise fun c c' => rank c ≤ rank c'

/-- An error with a message. -/
def Rejected {α : Type} (result : Except ParseError α) : Prop :=
  ∃ e, result = .error e ∧ e ≠ .overRead ∧ e ≠ .outOfFuel

theorem length_skipVersion_le (s : List Char) : (skipVersion s).length ≤ s.length := by
  fun_induction skipVersion s with
  | case1 => exact Nat.le_refl _
  | case2 => exact Nat.zero_le _
  | case3 => exact Nat.le_refl _
  | case4 c rest hdigit ih => exact Nat.le_trans ih (Nat.le_add_right _ 2)
  | case5 c c' rest hdigit hpoint ih => exact Nat.le_trans ih (Nat.le_succ _)
  | case6 => exact Nat.le_refl _

theorem length_skipUnderscore_le (s : List Char) : (skipUnderscore s).length ≤ s.length := by
  rw [skipUnderscore.eq_def]
  split
  · exact Nat.le_succ _
  · exact Nat.le_refl _

theorem length_behind_letter_lt (c : Char) (rest : List Char) :
    (skipUnderscore (skipVersion rest)).length < (c :: rest).length :=
  Nat.lt_succ_of_le (Nat.le_trans (length_skipUnderscore_le _) (length_skipVersion_le _))

/-- Every string starts with letters, or with none. -/
theorem exists_letters (s : List Char) : ∃ letters tail, Letters s letters tail := by
  obtain _ | ⟨c, rest⟩ := s
  · exact ⟨[], [], .done fun c h => absurd h (by simp)⟩
  cases hc : isLetter c with
  | false => exact ⟨[], c :: rest, .done fun d hd => by obtain rfl := Option.some.inj hd; exact hc⟩
  | true =>
    obtain ⟨letters, tail, h⟩ := exists_letters (skipUnderscore (skipVersion rest))
    exact ⟨c :: letters, tail, .letter hc h⟩
termination_by s.length
decreasing_by exact length_behind_letter_lt c rest

/-- A search for an element in what is left of a list without duplicates. -/
theorem dropWhile_drop_idxOf {l : List Char} (hl : l.Nodup) (r : Nat) (c : Char) :
    (l.drop r).dropWhile (· ≠ c) = if r ≤ l.idxOf c then l.drop (l.idxOf c) else [] := by
  induction l generalizing r with
  | nil => cases r <;> simp
  | cons d l ih =>
    obtain ⟨hd, hl⟩ := List.nodup_cons.1 hl
    by_cases hdc : d = c
    · subst hdc
      cases r with
      | zero => simp
      | succ r =>
        have hrest : (l.drop r).dropWhile (· ≠ d) = [] := by
          rw [ih hl, List.idxOf_eq_length hd, List.drop_length, ite_self]
        simpa using hrest
    · have hidx : (d :: l).idxOf c = l.idxOf c + 1 := by
        rw [List.idxOf_cons, beq_false_of_ne hdc, cond_false]
      cases r with
      | zero =>
        have hrest := ih hl 0
        rw [List.drop_zero, if_pos (Nat.zero_le _)] at hrest
        rw [List.drop_zero, if_pos (Nat.zero_le _), hidx, List.dropWhile_cons,
          decide_eq_true hdc, hrest]
        rfl
      | succ r =>
        rw [hidx, List.drop_succ_cons, List.drop_succ_cons, ih hl]
        simp only [Nat.add_le_add_iff_right]

/-- What the search for a letter leaves of `all_subsets`. -/
theorem dropWhile_drop_allSubsets (r : Nat) (c : Char) :
    (allSubsets.drop r).dropWhile (· ≠ c) = if r ≤ rank c then allSubsets.drop (rank c) else [] :=
  dropWhile_drop_idxOf (by decide) r c

theorem inOrder_cons {r : Nat} {c : Char} {letters : List Char} :
    InOrder r (c :: letters) ↔ (c ∈ allSubsets ∧ r ≤ rank c) ∧ InOrder (rank c) letters := by
  constructor
  · intro h
    have hsorted := List.pairwise_cons.1 h.sorted
    refine ⟨⟨h.known c List.mem_cons_self, h.from_rank c List.mem_cons_self⟩,
      ?_, hsorted.1, hsorted.2⟩
    exact fun d hd => h.known d (List.mem_cons_of_mem c hd)
  · intro h
    obtain ⟨⟨hc, hle⟩, h⟩ := h
    refine ⟨?_, ?_, List.pairwise_cons.2 ⟨h.from_rank, h.sorted⟩⟩
    · intro d hd
      obtain rfl | hd := List.mem_cons.1 hd
      · exact hc
      · exact h.known d hd
    · intro d hd
      obtain rfl | hd := List.mem_cons.1 hd
      · exact hle
      · exact Nat.le_trans hle (h.from_rank d hd)

/-- A letter that is known and not too late. -/
theorem letterLoop_accept {fuel r : Nat} {ps : ParseState} {c : Char} {rest : List Char}
    (hc : isLetter c = true) (hin : c ∈ allSubsets ∧ r ≤ rank c) :
    letterLoop (fuel + 1) ps (allSubsets.drop r) (c :: rest) =
      letterLoop fuel (enableLetter ps c) (allSubsets.drop (rank c))
      (skipUnderscore (skipVersion rest)) := by
  have hlt : rank c < allSubsets.length := List.idxOf_lt_length_of_mem hin.1
  rw [isLetter] at hc
  rw [letterLoop, if_pos hc, dropWhile_drop_allSubsets, if_pos hin.2, List.drop_eq_getElem_cons hlt]

/-- A letter that is unknown or too late. -/
theorem letterLoop_reject {fuel r : Nat} {ps : ParseState} {c : Char} {rest : List Char}
    (hc : isLetter c = true) (hout : ¬(c ∈ allSubsets ∧ r ≤ rank c)) :
    Rejected (letterLoop (fuel + 1) ps (allSubsets.drop r) (c :: rest)) := by
  have hnone : (allSubsets.drop r).dropWhile (· ≠ c) = [] := by
    rw [dropWhile_drop_allSubsets]
    split
    · rename_i hle
      have hrank : rank c = allSubsets.length := List.idxOf_eq_length fun hmem => hout ⟨hmem, hle⟩
      rw [hrank, List.drop_length]
    · rfl
  rw [isLetter] at hc
  rw [letterLoop, if_pos hc, hnone]
  dsimp only
  split
  · exact ⟨_, rfl, by simp, by simp⟩
  · exact ⟨_, rfl, by simp, by simp⟩

/-- **The letters** are taken when they are known and in order, and else the string is rejected. -/
theorem letterLoop_of_letters {s letters tail : List Char} (h : Letters s letters tail)
    (ps : ParseState) {fuel r : Nat}
    (hfuel : s.length < fuel) :
    (InOrder r letters ∧ letterLoop fuel ps (allSubsets.drop r) s =
      .ok (letters.foldl enableLetter ps, tail)) ∨
    (¬InOrder r letters ∧ Rejected (letterLoop fuel ps (allSubsets.drop r) s)) := by
  induction h generalizing fuel r ps with
  | @done s h =>
    obtain _ | fuel := fuel
    · exact absurd hfuel (Nat.not_lt_zero _)
    refine Or.inl ⟨⟨by simp, by simp, List.Pairwise.nil⟩, ?_⟩
    obtain _ | ⟨c, rest⟩ := s
    · rfl
    · have hc : (c.isLower && !"zsx".toList.contains c) = false := h c rfl
      rw [letterLoop, if_neg (by rw [hc]; exact Bool.false_ne_true)]
      rfl
  | @letter c rest letters tail hc h ih =>
    obtain _ | fuel := fuel
    · exact absurd hfuel (Nat.not_lt_zero _)
    have hlt := length_behind_letter_lt c rest
    -- the search goes on from the letter it has found: its rank is the bound for the next one
    by_cases hin : c ∈ allSubsets ∧ r ≤ rank c
    · rw [letterLoop_accept hc hin, inOrder_cons, and_iff_right hin]
      exact ih _ (by omega)
    · refine Or.inr ⟨fun h => hin (inOrder_cons.1 h).1, letterLoop_reject hc hin⟩

/-- The letters that bring an extension. -/
def bringers : Ext → List Char
  | .m => ['m']
  | .a => ['a']
  | .f => ['f', 'd', 'q', 'v']
  | .d => ['d', 'q', 'v']
  | .q => ['q']
  | .c => ['c']
  | .h => ['h']
  | .p => ['p']
  | .v => ['v']
  | _ => []

/-- What a letter switches on, among the letters. -/
theorem table_enableLetter {ps : ParseState} {c : Char} {ext : Ext} (hc : c ∈ allSubsets)
    (hext : ext ∈ Ext.letters) :
    (enableLetter ps c).table ext = ((bringers ext).contains c || ps.table ext) := by
  have group (exts : List Ext) (he : enableLetter ps c = ps.enableAll exts)
      (hall : ∀ ext ∈ Ext.letters, exts.contains ext = (bringers ext).contains c) :
      (enableLetter ps c).table ext = ((bringers ext).contains c || ps.table ext) := by
    rw [he, table_enableAll, hall ext hext]
  have hc : c ∈ ['m', 'a', 'f', 'd', 'q', 'c', 'h', 'p', 'v'] := hc
  simp only [List.mem_cons, List.not_mem_nil, or_false] at hc
  obtain rfl | rfl | rfl | rfl | rfl | rfl | rfl | rfl | rfl := hc
  · exact group [.m] rfl (by decide)
  · exact group [.a] rfl (by decide)
  · exact group [.f] rfl (by decide)
  · exact group [.f, .d] rfl (by decide)
  · exact group [.d, .f, .q] rfl (by decide)
  · exact group [.c] rfl (by decide)
  · exact group [.h] rfl (by decide)
  · exact group [.zbpbo, .zpn, .zpsfoperand, .zmmul, .p] rfl (by decide)
  · exact group [.d, .f, .v] rfl (by decide)

theorem extensions_enableAll (ps : ParseState) (exts : List Ext) :
    (ps.enableAll exts).extensions = ps.extensions := by
  induction exts generalizing ps with
  | nil => rfl
  | cons ext exts ih => exact ih (ps.enable ext)

theorem extensions_enableLetter (ps : ParseState) (c : Char) :
    (enableLetter ps c).extensions = ps.extensions := by
  rw [enableLetter]
  split
  · exact extensions_enableAll _ _
  · split
    · exact extensions_enableAll _ _
    · split
      · rfl
      · rfl

/-- What the letters switch on, among the letters. -/
theorem table_foldl_enableLetter {ps : ParseState} {letters : List Char} {ext : Ext}
    (hknown : ∀ c ∈ letters, c ∈ allSubsets) (hext : ext ∈ Ext.letters) :
    (letters.foldl enableLetter ps).table ext =
      (letters.any (bringers ext).contains || ps.table ext) := by
  induction letters generalizing ps with
  | nil => rfl
  | cons c letters ih =>
    rw [List.foldl_cons, ih fun d hd => hknown d (List.mem_cons_of_mem c hd),
      table_enableLetter (hknown c List.mem_cons_self) hext, List.any_cons,
      Bool.or_left_comm, Bool.or_assoc]

theorem extensions_foldl_enableLetter {ps : ParseState} {letters : List Char} :
    (letters.foldl enableLetter ps).extensions = ps.extensions := by
  induction letters generalizing ps with
  | nil => rfl
  | cons c letters ih => exact ih.trans (extensions_enableLetter ps c)

/-! ### Names -/

/-- Does a character start a name? -/
def isName (c : Char) : Bool :=
  c.isLower || c = '_'

/-- The names at the front of a string, and what is behind them: an underscore is behind them when
nothing follows it. -/
inductive Names : List Char → List (List Char) → List Char → Prop
  | done {s : List Char} (h : ∀ c ∈ s.head?, isName c = false) : Names s [] s
  | dangling : Names ['_'] [] ['_']
  | name {c d : Char} {rest name tail : List Char} {names : List (List Char)} (hc : isName c = true)
      (hname : skipUnderscore (c :: rest) = d :: name)
      (h : Names ((d :: name).drop (extName (d :: name)).length) names tail) :
      Names (c :: rest) (extName (d :: name) :: names) tail

/-- The custom extension that a name loads. -/
def custom (find : String → Option String) (name : List Char) : Option String :=
  if name.head? = some 'x' ∧ customExtension (String.ofList name) = none ∧ name.length ≠ 1 then
    find (String.ofList name.tail)
  else none

/-- Is a name known, where the table so far has these letters? -/
def Known (xlen : Xlen) (find : String → Option String) (table : ExtTable) (name : List Char) :
    Prop :=
  match String.ofList name with
  | "zfh" | "zfhmin" => table .f = true
  | "zvfh" | "zvfhmin" => table .v = true
  | "zce" => True
  | "zcf" => xlen = .rv32
  | ext_str =>
    (plainExtension ext_str).isSome = true ∨
      (name.head? = some 'x' ∧
        ((customExtension ext_str).isSome = true ∨ (custom find name).isSome = true))

/-- What a name does to the state. -/
structure Taken (find : String → Option String) (name : List Char) (ps ps' : ParseState) :
    Prop where
  letters : ∀ ext ∈ Ext.letters,
  ps'.table ext = (decide (ext = .x) && name.head? == some 'x' || ps.table ext)
  extensions : ps'.extensions = ps.extensions ++ (custom find name).toList

variable {xlen : Xlen} {find : String → Option String} {ps ps' : ParseState} {name : List Char}

theorem plainExtension_spec {ext_str : String} {exts : List Ext}
    (h : plainExtension ext_str = some exts) :
    ext_str.toList.head? ≠ some 'x' ∧ ∀ ext ∈ Ext.letters, exts.contains ext = false := by
  unfold plainExtension at h
  split at h
  all_goals first
    | (obtain rfl := Option.some.inj h; exact ⟨by decide, by decide⟩)
    | cases h

theorem customExtension_spec {ext_str : String} {exts : List Ext}
    (h : customExtension ext_str = some exts) :
    ∀ ext ∈ Ext.letters, exts.contains ext = false := by
  unfold customExtension at h
  split at h
  all_goals first
    | (obtain rfl := Option.some.inj h; decide)
    | cases h

/-- A name without an `x` in front switches on what is no letter. -/
theorem taken_enableAll {exts : List Ext} (hx : name.head? ≠ some 'x')
    (hexts : ∀ ext ∈ Ext.letters, exts.contains ext = false) :
    Taken find name ps (ps.enableAll exts) := by
  have hbeq : (name.head? == some 'x') = false := beq_eq_false_iff_ne.2 hx
  refine ⟨fun ext hext => ?_, ?_⟩
  · rw [table_enableAll, hexts ext hext, hbeq, Bool.and_false]
  · rw [extensions_enableAll, custom, if_neg fun h => hx h.1]
    exact (List.append_nil _).symm

/-- May a name come next? -/
def Takes (xlen : Xlen) (find : String → Option String) (ps : ParseState) (name : List Char) :
    Prop :=
  Known xlen find ps.table name ∧ ∀ x ∈ custom find name, x ∉ ps.extensions

/-- A name with a condition on what is there already. -/
theorem enableName_guarded (b : Bool) (msg : String) (exts : List Ext) (hx : name.head? ≠ some 'x')
    (hexts : ∀ ext ∈ Ext.letters, exts.contains ext = false)
    (hknown : Known xlen find ps.table name ↔ b = false)
    (hguard : guardedExtension xlen ps (String.ofList name) =
      some (if b then .error (.badIsaString msg) else .ok (ps.enableAll exts))) :
    (Takes xlen find ps name ∧ ∃ ps', enableName xlen find ps name = .ok ps' ∧
      Taken find name ps ps') ∨
    (¬Takes xlen find ps name ∧ Rejected (enableName xlen find ps name)) := by
  rw [Takes, hknown, enableName, hguard]
  cases b with
  | false =>
    refine Or.inl ⟨⟨rfl, fun x hmem => ?_⟩, _, rfl, taken_enableAll hx hexts⟩
    rw [custom, if_neg fun h => hx h.1] at hmem
    exact absurd hmem (by simp)
  | true => exact Or.inr ⟨fun h => absurd h.1 (by simp), _, rfl, by simp, by simp⟩

/-- The names that start with `x` and are taken for the names of custom extensions. -/
theorem xExtension_custom (find : String → Option String) (ps : ParseState)
    (hx : name.head? = some 'x')
    (hnone : customExtension (String.ofList name) = none) :
    (∃ x, custom find name = some x ∧ x ∉ ps.extensions ∧
      xExtension find ps name = .ok { ps.enable .x with extensions := ps.extensions ++ [x] }) ∨
    ((∀ x ∈ custom find name, x ∈ ps.extensions) ∧ Rejected (xExtension find ps name)) := by
  rw [xExtension, hnone]
  dsimp only
  by_cases hlen : name.length = 1
  · rw [if_pos hlen, custom, if_neg fun h => h.2.2 hlen]
    exact Or.inr ⟨by simp, _, rfl, by simp, by simp⟩
  rw [if_neg hlen, custom, if_pos ⟨hx, hnone, hlen⟩]
  cases find (String.ofList name.tail) with
  | none => exact Or.inr ⟨by simp, _, rfl, by simp, by simp⟩
  | some x =>
    dsimp only
    have hcontains : (ps.enable .x).extensions.contains x = true ↔ x ∈ ps.extensions :=
      List.contains_iff_mem
    by_cases hmem : x ∈ ps.extensions
    · rw [if_pos (hcontains.2 hmem)]
      exact Or.inr ⟨fun y hy => Option.some.inj hy ▸ hmem, _, rfl, by simp, by simp⟩
    · rw [if_neg fun h => hmem (hcontains.1 h)]
      exact Or.inl ⟨x, rfl, hmem, rfl⟩

/-- The names with a condition. -/
def guardedNames : List String :=
  ["zfh", "zfhmin", "zvfh", "zvfhmin", "zce", "zcf"]

theorem guardedExtension_none (xlen : Xlen) (ps : ParseState) {ext_str : String}
    (h : ext_str ∉ guardedNames) :
    guardedExtension xlen ps ext_str = none := by
  unfold guardedExtension
  split
  all_goals first
    | exact absurd (by decide) h
    | rfl

theorem known_iff (xlen : Xlen) (find : String → Option String) (table : ExtTable)
    (h : String.ofList name ∉ guardedNames) : Known xlen find table name ↔
    (plainExtension (String.ofList name)).isSome = true ∨ (name.head? = some 'x' ∧
      ((customExtension (String.ofList name)).isSome = true ∨ (custom find name).isSome = true)) :=
    by
  unfold Known
  split
  all_goals first
    | exact Iff.rfl
    | (rename_i heq; exact absurd (heq ▸ by decide) h)

/-- **One name**: it is taken when it is known and loads nothing twice, and else the string is
rejected. -/
theorem enableName_cases (xlen : Xlen) (find : String → Option String)
    (ps : ParseState) (name : List Char) :
    (Takes xlen find ps name ∧ ∃ ps', enableName xlen find ps name = .ok ps' ∧
      Taken find name ps ps') ∨
    (¬Takes xlen find ps name ∧ Rejected (enableName xlen find ps name)) := by
  -- the names with a condition one by one, then the tables, then what starts with `x`
  by_cases hguard : String.ofList name ∈ guardedNames
  · have hnot (b : Bool) : b = true ↔ (!b) = false := by cases b <;> decide
    have hname : name = (String.ofList name).toList := String.toList_ofList.symm
    generalize String.ofList name = ext_str at hguard hname
    subst hname
    simp only [guardedNames, List.mem_cons, List.not_mem_nil, or_false] at hguard
    obtain rfl | rfl | rfl | rfl | rfl | rfl := hguard
    · exact enableName_guarded (!ps.table .f) _ [.zfhmin, .zfh] (by decide)
        (by decide) (hnot (ps.table .f)) rfl
    · exact enableName_guarded (!ps.table .f) _ [.zfhmin] (by decide) (by decide)
        (hnot (ps.table .f)) rfl
    · exact enableName_guarded (!ps.table .v) _ [.zvfhmin, .zvfh, .zfhmin]
        (by decide) (by decide) (hnot (ps.table .v))
        rfl
    · exact enableName_guarded (!ps.table .v) _ [.zvfhmin] (by decide)
        (by decide) (hnot (ps.table .v)) rfl
    · refine enableName_guarded false ""
        ([.zca, .zcb, .zcmt, .zcmp] ++ if ps.table .f && xlen == .rv32 then [.zcf] else [])
          (by decide) ?_
        (iff_of_true trivial rfl) ?_
      · cases ps.table .f && xlen == .rv32 with
        | false => decide
        | true => decide
      · rw [← enableAll_enableAll, ← enableIf_eq]
        rfl
    · cases xlen with
      | rv32 =>
        exact enableName_guarded false "" [.zcf] (by decide) (by decide) (iff_of_true rfl rfl) rfl
      | rv64 =>
        exact enableName_guarded true _ [.zcf] (by decide) (by decide)
          (iff_of_false Xlen.noConfusion (by decide)) rfl
  -- no condition on the name: the two tables of the parser decide
  have hnone := guardedExtension_none xlen ps hguard
  have hknown := known_iff xlen find ps.table hguard
  rw [Takes, hknown, enableName, hnone]
  dsimp only
  cases hplain : plainExtension (String.ofList name) with
  | some exts =>
    obtain ⟨hx, hexts⟩ := plainExtension_spec hplain
    rw [String.toList_ofList] at hx
    refine Or.inl ⟨⟨Or.inl rfl, fun x hmem => ?_⟩, _, rfl, taken_enableAll hx hexts⟩
    rw [custom, if_neg fun h => hx h.1] at hmem
    exact absurd hmem (by simp)
  | none =>
    dsimp only
    by_cases hx : name.head? = some 'x'
    · rw [if_pos hx]
      have hbeq : (name.head? == some 'x') = true := beq_iff_eq.2 hx
      cases hcustom : customExtension (String.ofList name) with
      -- first the custom names of the source, then what the plugins registered
      | some exts =>
        have hexts := customExtension_spec hcustom
        have hload : custom find name = none :=
          if_neg fun h => by rw [hcustom] at h; exact absurd h.2.1 (by simp)
        refine Or.inl ⟨⟨Or.inr ⟨hx, Or.inl rfl⟩, fun x hmem => ?_⟩, (ps.enable .x).enableAll exts,
          ?_, ?_⟩
        · rw [hload] at hmem
          exact absurd hmem (by simp)
        · rw [xExtension, hcustom]
        · refine ⟨fun ext hext => ?_, ?_⟩
          · rw [table_enableAll, hexts ext hext, hbeq, Bool.and_true]
            rfl
          · rw [extensions_enableAll, hload]
            exact (List.append_nil _).symm
      | none =>
        obtain ⟨x, hload, hfresh, hok⟩ | ⟨hseen, hrejected⟩ := xExtension_custom find ps hx hcustom
        · refine Or.inl ⟨⟨Or.inr ⟨hx, Or.inr (by rw [hload]; rfl)⟩, fun y hmem => ?_⟩,
            _, hok, ?_, ?_⟩
          · rw [hload] at hmem
            exact Option.some.inj hmem ▸ hfresh
          · intro ext hext
            rw [hbeq, Bool.and_true]
            rfl
          · rw [hload]
            rfl
        · refine Or.inr ⟨?_, hrejected⟩
          rintro ⟨h | ⟨-, h | h⟩, hfresh⟩
          · exact absurd h (by simp)
          · exact absurd h (by simp)
          · obtain ⟨x, hload⟩ := Option.isSome_iff_exists.1 h
            exact hfresh x hload (hseen x hload)
    · rw [if_neg hx]
      refine Or.inr ⟨?_, _, rfl, by simp, by simp⟩
      rintro ⟨h | ⟨h, -⟩, -⟩
      · exact absurd h (by simp)
      · exact hx h

/-- May the names come next? -/
def TakesAll (xlen : Xlen) (find : String → Option String) (ps : ParseState)
    (names : List (List Char)) : Prop :=
  (∀ name ∈ names, Known xlen find ps.table name) ∧
    (ps.extensions ++ names.filterMap (custom find)).Nodup

/-- The names are known by the same letters, whatever names were in front. -/
theorem known_congr {table table' : ExtTable} (hf : table .f = table' .f)
    (hv : table .v = table' .v) :
    Known xlen find table name ↔ Known xlen find table' name := by
  unfold Known
  rw [hf, hv]

theorem Taken.known_iff (h : Taken find name ps ps') {name' : List Char} :
    Known xlen find ps'.table name' ↔ Known xlen find ps.table name' :=
  known_congr (h.letters .f (by decide)) (h.letters .v (by decide))

theorem takes_of_takesAll {names : List (List Char)} (h : TakesAll xlen find ps (name :: names)) :
    Takes xlen find ps name := by
  obtain ⟨hknown, hnodup⟩ := h
  refine ⟨hknown name List.mem_cons_self, fun x hx hmem => ?_⟩
  have hload : custom find name = some x := hx
  rw [List.filterMap_cons, hload] at hnodup
  exact (List.nodup_append.1 hnodup).2.2 x hmem x List.mem_cons_self rfl

theorem takesAll_cons {names : List (List Char)} (htakes : Takes xlen find ps name)
    (h : Taken find name ps ps') :
    TakesAll xlen find ps (name :: names) ↔ TakesAll xlen find ps' names := by
  have hext : ps.extensions ++ (name :: names).filterMap (custom find) =
      ps'.extensions ++ names.filterMap (custom find) := by
    rw [h.extensions, List.append_assoc, List.filterMap_cons]
    cases custom find name with
    | none => rfl
    | some x => rfl
  rw [TakesAll, TakesAll, hext]
  refine and_congr_left fun _ => ⟨fun hall name' hmem => ?_, fun hall name' hmem => ?_⟩
  · exact h.known_iff.2 (hall name' (List.mem_cons_of_mem name hmem))
  · obtain rfl | hmem := List.mem_cons.1 hmem
    · exact htakes.1
    · exact h.known_iff.1 (hall name' hmem)

theorem skipUnderscore_cons (c : Char) (rest : List Char) :
    skipUnderscore (c :: rest) = if c = '_' then rest else c :: rest := by
  rw [skipUnderscore.eq_def]
  split
  · rename_i h
    obtain ⟨rfl, rfl⟩ := List.cons.inj h
    rfl
  · rename_i h
    rw [if_neg]
    rintro rfl
    exact h rest rfl

/-- What follows a name is shorter. -/
theorem length_behind_name_lt {c d : Char} {rest name : List Char}
    (h : skipUnderscore (c :: rest) = d :: name) :
    ((d :: name).drop (extName (d :: name)).length).length < (c :: rest).length := by
  have hle := length_skipUnderscore_le (c :: rest)
  rw [h] at hle
  rw [List.length_cons] at hle
  rw [List.length_drop, extName, List.length_cons, List.length_cons]
  omega

/-- Every string starts with names, or with none. -/
theorem exists_names (s : List Char) : ∃ names tail, Names s names tail := by
  obtain _ | ⟨c, rest⟩ := s
  · exact ⟨[], [], .done fun c h => absurd h (by simp)⟩
  cases hc : isName c with
  | false => exact ⟨[], c :: rest, .done fun d hd => by obtain rfl := Option.some.inj hd; exact hc⟩
  | true =>
    cases hname : skipUnderscore (c :: rest) with
    | nil =>
      rw [skipUnderscore_cons] at hname
      split at hname
      · rename_i hunder
        subst hunder hname
        exact ⟨[], ['_'], .dangling⟩
      · exact absurd hname (List.cons_ne_nil _ _)
    | cons d name =>
      have hlt := length_behind_name_lt hname
      obtain ⟨names, tail, h⟩ := exists_names ((d :: name).drop (extName (d :: name)).length)
      exact ⟨_, tail, .name hc hname h⟩
termination_by s.length
decreasing_by exact hlt

/-- **The names** are taken when they may come, up to an underscore that nothing follows, and else
the string is rejected. -/
theorem nameLoop_of_names (xlen : Xlen) (find : String → Option String)
    {s tail : List Char} {names : List (List Char)}
    (h : Names s names tail) {fuel : Nat} {ps : ParseState} (hfuel : s.length < fuel)
    (hnodup : ps.extensions.Nodup) :
    (TakesAll xlen find ps names ∧ ∃ ps',
      (∀ ext ∈ Ext.letters,
        ps'.table ext = (decide (ext = .x) && names.any (·.head? == some 'x') || ps.table ext)) ∧
      nameLoop xlen find fuel ps s = if tail = ['_'] then .error .overRead else .ok (ps', tail)) ∨
    (¬TakesAll xlen find ps names ∧ Rejected (nameLoop xlen find fuel ps s)) := by
  -- on the names that are left, with fuel for the characters that are left
  induction h generalizing fuel ps with
  | @done s h =>
    obtain _ | fuel := fuel
    · exact absurd hfuel (Nat.not_lt_zero _)
    refine Or.inl ⟨⟨by simp, by rwa [List.filterMap_nil, List.append_nil]⟩, ps, fun ext _ => ?_, ?_⟩
    · rw [List.any_nil, Bool.and_false, Bool.false_or]
    · obtain _ | ⟨c, rest⟩ := s
      · rfl
      · have hc : (c.isLower || c = '_') = false := h c rfl
        rw [nameLoop]
        dsimp only
        rw [if_neg (by rw [hc]; exact Bool.false_ne_true), if_neg]
        intro heq
        rw [(List.cons.inj heq).1] at hc
        exact absurd hc (by decide)
  | dangling =>
    obtain _ | fuel := fuel
    · exact absurd hfuel (Nat.not_lt_zero _)
    refine Or.inl ⟨⟨by simp, by rwa [List.filterMap_nil, List.append_nil]⟩,
      ps, fun ext _ => ?_, rfl⟩
    rw [List.any_nil, Bool.and_false, Bool.false_or]
  | @name c d rest name tail names hc hname h ih =>
    obtain _ | fuel := fuel
    · exact absurd hfuel (Nat.not_lt_zero _)
    have hlt := length_behind_name_lt hname
    have hlt : ((d :: name).drop (extName (d :: name)).length).length < fuel := by
      rw [List.length_cons] at hlt hfuel
      omega
    rw [skipUnderscore_cons] at hname
    rw [isName] at hc
    obtain ⟨htakes, ps₁, hok, htaken⟩ | ⟨hnot, e, herr, he⟩ :=
      enableName_cases xlen find ps (extName (d :: name))
    · have hstep : nameLoop xlen find (fuel + 1) ps (c :: rest) =
          nameLoop xlen find fuel ps₁ ((d :: name).drop (extName (d :: name)).length) := by
        rw [nameLoop]
        dsimp only
        rw [if_pos hc, hname, List.isEmpty_cons, if_neg Bool.false_ne_true, hok]
      -- a custom extension that is loaded is a new one
      have hnodup : ps₁.extensions.Nodup := by
        rw [htaken.extensions]
        refine List.nodup_append.2 ⟨hnodup, ?_, fun x hx y hy heq => ?_⟩
        · cases custom find (extName (d :: name)) with
          | none => exact List.nodup_nil
          | some x => exact List.pairwise_singleton _ x
        · exact htakes.2 y (Option.mem_toList.1 hy) (heq ▸ hx)
      rw [takesAll_cons htakes htaken, hstep]
      obtain ⟨hall, ps', hletters, hloop⟩ | hrejected := ih hlt hnodup
      · refine Or.inl ⟨hall, ps', fun ext hext => ?_, hloop⟩
        rw [hletters ext hext, htaken.letters ext hext, List.any_cons,
          Bool.and_or_distrib_left, ← Bool.or_assoc,
          Bool.or_comm (_ && names.any _)]
      · exact Or.inr hrejected
    · refine Or.inr ⟨fun hall => hnot (takes_of_takesAll hall), e, ?_, he⟩
      rw [nameLoop]
      dsimp only
      rw [if_pos hc, hname, List.isEmpty_cons, if_neg Bool.false_ne_true, herr]

end Isa

end Nnemu

import Nnemu.Hart.Invariant
import Nnemu.Isa.Scan
import Nnemu.Isa.Tokens

/-!
# What an ISA string spells

A `Spelling` is a register width, a base letter, letters and names. When the parser has taken them
the string is at its end, with one exception: an underscore that nothing follows. There it looks
behind the end: `isaParser_safe_iff`.

The grammar is that of the parser and is not normalized: letters may be followed by versions and
underscores, names may have an underscore before them. What comes out is decided by the last
character taken and the one after it, so the theorem names one kind of string, and every string of
this kind.
-/

namespace Nnemu

namespace Isa

variable {xlen : Xlen} {find : String → Option String} {ps : ParseState}

/-! ### Strings -/

/-- The first four characters. -/
def widthName : Xlen → List Char
  | .rv32 => "rv32".toList
  | .rv64 => "rv64".toList

/-- What is behind a base letter: G stands for four letters more. -/
def behindBase (base : Char) (rest : List Char) : List Char :=
  if base = 'g' then "mafd".toList ++ rest else rest

/-- **What a string spells**, in lower case. -/
structure Spelling (str : List Char) where
  xlen : Xlen
  base : Char
  rest : List Char
  letters : List Char
  behind : List Char
  names : List (List Char)
  tail : List Char
  base_mem : base ∈ ['i', 'e', 'g']
  head : strtolower str = widthName xlen ++ base :: rest
  spells_letters : Letters (behindBase base rest) letters behind
  spells_names : Names behind names tail

namespace Spelling

variable {str priv : List Char}

/-- Is an extension among the letters, or implied by one? -/
def gives (sp : Spelling str) : ExtTable := fun ext =>
  sp.letters.any (bringers ext).contains

/-- Letters and names that the parser takes, one after the other. -/
structure Fits (find : String → Option String) (sp : Spelling str) : Prop where
  letters : InOrder 0 sp.letters
  names : ∀ name ∈ sp.names, Known sp.xlen find sp.gives name
  loads : (sp.names.filterMap (custom find)).Nodup

/-- **A letter is given or implied**, by the string and by the privilege string. -/
def Has (sp : Spelling str) (mode : Priv) : Ext → Prop
  | .i => sp.base = 'i' ∨ sp.base = 'g'
  | .e => sp.base = 'e'
  | .x => ∃ name ∈ sp.names, name.head? = some 'x'
  | .u => mode.user = true
  | .s => mode.supervisor = true
  | ext => sp.gives ext = true

/-- The table in front of the letters. -/
def baseState (sp : Spelling str) : ParseState :=
  ParseState.empty.enable (if sp.base = 'e' then .e else .i)

variable (sp : Spelling str)

theorem baseWidth_eq : baseWidth (strtolower str) = .ok sp.xlen := by
  rw [baseWidth, sp.head]
  cases sp.xlen with
  | rv32 => rfl
  | rv64 => rfl

theorem baseLetter_eq : baseLetter ((strtolower str).take 4) ((strtolower str).drop 4) =
    .ok (sp.baseState, behindBase sp.base sp.rest) := by
  have hdrop : (strtolower str).drop 4 = sp.base :: sp.rest := by
    rw [sp.head]
    cases sp.xlen with
    | rv32 => rfl
    | rv64 => rfl
  have hbase := sp.base_mem
  rw [hdrop, baseState]
  generalize sp.base = base at hbase
  simp only [List.mem_cons, List.not_mem_nil, or_false] at hbase
  obtain rfl | rfl | rfl := hbase
  · rfl
  · rfl
  · rfl

end Spelling

/-- A string that starts as it should spells something. -/
theorem exists_spelling {str body : List Char} {xlen : Xlen} {ps : ParseState}
    (hwidth : baseWidth (strtolower str) = .ok xlen)
    (hbase : baseLetter ((strtolower str).take 4) ((strtolower str).drop 4) = .ok (ps, body)) :
    Nonempty (Spelling str) := by
  have htake : (strtolower str).take 4 = widthName xlen := by
    have hname : (strtolower str).take 4 = (String.ofList ((strtolower str).take 4)).toList :=
      String.toList_ofList.symm
    rw [hname]
    rw [baseWidth] at hwidth
    split at hwidth
    · rename_i heq
      obtain rfl := Except.ok.inj hwidth
      rw [heq]
      rfl
    · rename_i heq
      obtain rfl := Except.ok.inj hwidth
      rw [heq]
      rfl
    · cases hwidth
  obtain ⟨base, rest, hdrop, hmem⟩ : ∃ base rest, (strtolower str).drop 4 = base :: rest ∧
      base ∈ ['i', 'e', 'g'] := by
    rw [baseLetter.eq_def] at hbase
    split at hbase
    · exact ⟨_, _, ‹_›, by decide⟩
    · exact ⟨_, _, ‹_›, by decide⟩
    · exact ⟨_, _, ‹_›, by decide⟩
    · cases hbase
  obtain ⟨letters, behind, hletters⟩ := exists_letters (behindBase base rest)
  obtain ⟨names, tail, hnames⟩ := exists_names behind
  exact ⟨xlen, base, rest, letters, behind, names, tail, hmem,
    by rw [← htake, ← hdrop, List.take_append_drop], hletters,
    hnames⟩

/-! ### Behind the names -/

theorem rejected_tailChecks {table : ExtTable} {e : ParseError} (h : tailChecks table = .error e) :
    e ≠ .overRead ∧ e ≠ .outOfFuel := by
  unfold tailChecks at h
  repeat' split at h
  all_goals first
    | (obtain rfl := Except.error.inj h; exact ⟨by simp, by simp⟩)
    | cases h

theorem rejected_parsePriv {s : List Char} {e : ParseError} (h : parsePriv s = .error e) :
    e ≠ .overRead ∧ e ≠ .outOfFuel := by
  unfold parsePriv at h
  split at h
  all_goals first
    | (obtain rfl := Except.error.inj h; exact ⟨by simp, by simp⟩)
    | cases h

theorem rejected_base {s : List Char} {e : ParseError}
    (h : baseWidth s = .error e ∨ baseLetter (s.take 4) (s.drop 4) = .error e) :
    e ≠ .overRead ∧ e ≠ .outOfFuel := by
  rw [baseWidth, baseLetter.eq_def] at h
  obtain h | h := h
  · split at h
    all_goals first
      | (obtain rfl := Except.error.inj h; exact ⟨by simp, by simp⟩)
      | cases h
  · split at h
    all_goals first
      | (obtain rfl := Except.error.inj h; exact ⟨by simp, by simp⟩)
      | cases h

theorem table_enableIf {b : Bool} {ext ext' : Ext} (h : ext ≠ ext') :
    (ps.enableIf b ext').table ext = ps.table ext := by
  rw [enableIf_eq, table_enableAll]
  cases b with
  | false => rfl
  | true =>
    have hbeq : [ext'].contains ext = false := by
      rw [List.contains_cons, beq_eq_false_iff_ne.2 h]
      rfl
    rw [if_pos rfl, hbeq, Bool.false_or]

/-- What C implies is no letter. -/
theorem table_enableCompressed {ext : Ext} (hext : ext ∈ Ext.letters) :
    (enableCompressed xlen ps).table ext = ps.table ext := by
  have hne {ext' : Ext} (h : ext' ∉ Ext.letters) : ext ≠ ext' := fun heq => h (heq ▸ hext)
  rw [enableCompressed]
  split
  · rw [table_enableIf (hne (by decide)), table_enableIf (hne (by decide))]
    exact table_enableIf (b := true) (hne (by decide))
  · rfl

/-- What the letters leave, among the letters. -/
theorem table_letters {str : List Char} (sp : Spelling str) (h : ∀ c ∈ sp.letters, c ∈ allSubsets)
    {ext : Ext}
    (hext : ext ∈ Ext.letters) : (sp.letters.foldl enableLetter sp.baseState).table ext =
      (sp.gives ext || ext = if sp.base = 'e' then .e else .i) := by
  rw [table_foldl_enableLetter h hext, Spelling.gives]
  exact congrArg _ (Bool.or_false _)

theorem takesAll_letters {str : List Char} (sp : Spelling str)
    (h : ∀ c ∈ sp.letters, c ∈ allSubsets) :
    TakesAll sp.xlen find (sp.letters.foldl enableLetter sp.baseState) sp.names ↔
      (∀ name ∈ sp.names, Known sp.xlen find sp.gives name) ∧
      (sp.names.filterMap (custom find)).Nodup := by
  have hfv {ext : Ext} (hext : ext ∈ Ext.letters) (he : ext ≠ .e) (hi : ext ≠ .i) :
      (sp.letters.foldl enableLetter sp.baseState).table ext = sp.gives ext := by
    have hne : ext ≠ if sp.base = 'e' then .e else .i := by
      split
      · exact he
      · exact hi
    rw [table_letters sp h hext, decide_eq_false hne, Bool.or_false]
  have hknown (name : List Char) : Known sp.xlen find
    (sp.letters.foldl enableLetter sp.baseState).table name ↔
      Known sp.xlen find sp.gives name :=
    known_congr (hfv (by decide) (by decide) (by decide)) (hfv (by decide) (by decide) (by decide))
  rw [TakesAll, extensions_foldl_enableLetter]
  exact and_congr (forall₂_congr fun name _ => hknown name) Iff.rfl

/-- Bringers of a letter that no letter brings. -/
theorem Spelling.gives_eq_false {str : List Char} (sp : Spelling str) {ext : Ext}
    (h : bringers ext = []) :
    sp.gives ext = false := by
  rw [Spelling.gives, List.any_eq_false]
  intro c _
  rw [h]
  simp

/-- The table behind the names, with the privilege string. -/
theorem withPriv_iff_has {str : List Char} (sp : Spelling str) {table : ExtTable} {mode : Priv}
    (htable : ∀ ext ∈ Ext.letters,
      table ext = (decide (ext = .x) && sp.names.any (·.head? == some 'x') ||
      (sp.gives ext || ext = if sp.base = 'e' then .e else .i))) {ext : Ext}
      (hext : ext ∈ Ext.letters) :
    withPriv table mode ext = true ↔ sp.Has mode ext := by
  have hother (hx : ext ≠ .x) (he : ext ≠ .e) (hi : ext ≠ .i) : table ext = sp.gives ext := by
    have hne : ext ≠ if sp.base = 'e' then .e else .i := by
      split
      · exact he
      · exact hi
    rw [htable ext hext, decide_eq_false hx, decide_eq_false hne, Bool.false_and,
      Bool.false_or, Bool.or_false]
  have hbase : sp.base = 'i' ∨ sp.base = 'e' ∨ sp.base = 'g' := by simpa using sp.base_mem
  have hnone := @Spelling.gives_eq_false str sp
  -- U and S come with the privilege string, I and E with the base letter, X with a name, all others
  -- with a letter
  cases ext with
  | u => exact Iff.rfl
  | s => exact Iff.rfl
  | i =>
    change table .i = true ↔ sp.base = 'i' ∨ sp.base = 'g'
    rw [htable .i hext, hnone rfl]
    obtain h | h | h := hbase <;> rw [h] <;> simp
  | e =>
    change table .e = true ↔ sp.base = 'e'
    rw [htable .e hext, hnone rfl]
    obtain h | h | h := hbase <;> rw [h] <;> simp
  | x =>
    change table .x = true ↔ ∃ name ∈ sp.names, name.head? = some 'x'
    rw [htable .x hext, hnone rfl]
    obtain h | h | h := hbase <;> rw [h] <;> simp
  | a => exact Bool.eq_iff_iff.1 (hother (by decide) (by decide) (by decide))
  | c => exact Bool.eq_iff_iff.1 (hother (by decide) (by decide) (by decide))
  | d => exact Bool.eq_iff_iff.1 (hother (by decide) (by decide) (by decide))
  | f => exact Bool.eq_iff_iff.1 (hother (by decide) (by decide) (by decide))
  | h => exact Bool.eq_iff_iff.1 (hother (by decide) (by decide) (by decide))
  | m => exact Bool.eq_iff_iff.1 (hother (by decide) (by decide) (by decide))
  | p => exact Bool.eq_iff_iff.1 (hother (by decide) (by decide) (by decide))
  | q => exact Bool.eq_iff_iff.1 (hother (by decide) (by decide) (by decide))
  | v => exact Bool.eq_iff_iff.1 (hother (by decide) (by decide) (by decide))
  | _ => exact absurd hext (by decide)

/-- **The string decides**: a string whose letters and names are taken is rejected behind them, or
accepted, or ends in an underscore that nothing follows; any other string is rejected. -/
theorem parse_of_spelling {str : List Char} (sp : Spelling str) (find : String → Option String)
    (priv : List Char) :
    (sp.Fits find ∧ sp.tail = ['_'] ∧ parse find str priv = .error .overRead) ∨
    (¬(sp.Fits find ∧ sp.tail = ['_']) ∧ Rejected (parse find str priv)) ∨
    (sp.Fits find ∧ sp.tail = [] ∧ ∃ mode isa, parsePriv priv = .ok mode ∧
      parse find str priv = .ok isa ∧
      ∀ ext ∈ Ext.letters, isa.table ext = true ↔ sp.Has mode ext) := by
  rw [parse, sp.baseWidth_eq]
  dsimp only [bind, Except.bind]
  rw [sp.baseLetter_eq]
  dsimp only
  have hletters := letterLoop_of_letters sp.spells_letters sp.baseState
    (r := 0) (Nat.lt_succ_self _)
  rw [List.drop_zero] at hletters
  obtain ⟨hfits, hloop⟩ | ⟨hnot, e, hloop, he⟩ := hletters
  -- a letter that is unknown or out of order
  swap
  · rw [hloop]
    exact Or.inr (Or.inl ⟨fun h => hnot h.1.letters, e, rfl, he⟩)
  rw [hloop]
  dsimp only
  have hknown := hfits.known
  have hnodup : (sp.letters.foldl enableLetter sp.baseState).extensions.Nodup := by
    rw [extensions_foldl_enableLetter]
    exact List.nodup_nil
  obtain ⟨htakes, ps, htable, hloop⟩ | ⟨hnot, e, hloop, he⟩ :=
    nameLoop_of_names sp.xlen find sp.spells_names (Nat.lt_succ_self _) hnodup
  -- a name that is unknown or loads an extension twice
  swap
  · rw [hloop]
    exact Or.inr
      (Or.inl ⟨fun h => hnot ((takesAll_letters sp hknown).2 ⟨h.1.names, h.1.loads⟩), e, rfl, he⟩)
  have hall := (takesAll_letters sp hknown).1 htakes
  have hfits : sp.Fits find := ⟨hfits, hall.1, hall.2⟩
  rw [hloop]
  -- behind the names: an underscore alone, nothing, or what starts no name
  by_cases htail : sp.tail = ['_']
  · rw [if_pos htail]
    exact Or.inl ⟨hfits, htail, rfl⟩
  rw [if_neg htail]
  refine Or.inr ?_
  dsimp only
  obtain hnil | ⟨c, rest, hcons⟩ : sp.tail = [] ∨ ∃ c rest, sp.tail = c :: rest := by
    cases sp.tail with
    | nil => exact Or.inl rfl
    | cons c rest => exact Or.inr ⟨c, rest, rfl⟩
  swap
  · refine Or.inl ⟨fun h => htail h.2, ?_⟩
    rw [hcons]
    exact ⟨_, rfl, by simp, by simp⟩
  rw [hnil]
  rw [if_neg (by decide)]
  have hnot : ¬(sp.Fits find ∧ ([] : List Char) = ['_']) := fun h => absurd h.2 (by simp)
  cases hchecks : tailChecks (enableCompressed sp.xlen ps).table with
  | error e => exact Or.inl ⟨hnot, e, rfl, rejected_tailChecks hchecks⟩
  | ok _ =>
    cases hpriv : parsePriv priv with
    | error e => exact Or.inl ⟨hnot, e, rfl, rejected_parsePriv hpriv⟩
    | ok mode =>
      dsimp only
      rw [finish]
      split
      · refine Or.inr ⟨hfits, rfl, mode, _, rfl, rfl,
          fun ext hext => withPriv_iff_has sp (fun ext hext => ?_) hext⟩
        rw [table_enableCompressed hext, htable ext hext, table_letters sp hknown hext]
      · exact Or.inl ⟨hnot, _, rfl, by simp, by simp⟩

/-! ### The parser -/

/-- The bits of `max_isa` that stand for letters. -/
theorem maxIsa_letter_iff (isa : Isa) {b : Nat} (hb : b < 26) :
    isa.maxIsa.getLsbD b = true ↔ ∃ ext, ext.misaBit = some b ∧ isa.table ext = true := by
  constructor
  · intro h
    rw [Isa.maxIsa, getLsbD_foldl_misaMask, Bool.or_eq_true, List.any_eq_true] at h
    obtain h | ⟨ext, -, h⟩ := h
    · have hmxl : ∀ b < 26, (misaMxl isa.xlen).getLsbD b = false := by
        cases isa.xlen with
        | rv32 => decide
        | rv64 => decide
      rw [hmxl b hb] at h
      exact absurd h Bool.false_ne_true
    · obtain ⟨hext, hmask⟩ := Bool.and_eq_true_iff.1 h
      refine ⟨ext, ?_, hext⟩
      rw [misaMask] at hmask
      cases hbit : ext.misaBit with
      | none =>
        rw [hbit] at hmask
        simp at hmask
      | some b' =>
        rw [hbit] at hmask
        dsimp only at hmask
        rw [BitVec.getLsbD_twoPow] at hmask
        simp only [Bool.and_eq_true, decide_eq_true_eq] at hmask
        rw [hmask.2]
  · rintro ⟨ext, hbit, hext⟩
    rw [maxIsa_getLsbD isa hbit, hext]

theorem mem_letters {ext : Ext} {b : Nat} (h : ext.misaBit = some b) : ext ∈ Ext.letters := by
  cases ext
  all_goals first
    | decide
    | cases h

/-- **What is asked of the parser**: it reads nothing behind the terminating zero, it ends, and the
letters of a configuration are the ones that the string gives or implies. -/
structure Safe (find : String → Option String) (str priv : CString) : Prop where
  inside : isaParser find str priv ≠ .error .overRead
  ends : isaParser find str priv ≠ .error .outOfFuel
  letters : ∀ isa, isaParser find str priv = .ok isa → Nonempty (Spelling str.chars) ∧
    ∀ sp : Spelling str.chars,
    sp.tail = [] ∧ ∃ mode, parsePriv priv.chars = .ok mode ∧
      ∀ b < 26, isa.maxIsa.getLsbD b = true ↔ ∃ ext, ext.misaBit = some b ∧ sp.Has mode ext

theorem rejected_or_spelled (find : String → Option String) (str priv : List Char) :
    Rejected (parse find str priv) ∨ Nonempty (Spelling str) := by
  cases hwidth : baseWidth (strtolower str) with
  | error e =>
    refine Or.inl ⟨e, ?_, rejected_base (Or.inl hwidth)⟩
    rw [parse, hwidth]
    rfl
  | ok xlen =>
    cases hbase : baseLetter ((strtolower str).take 4) ((strtolower str).drop 4) with
    | error e =>
      refine Or.inl ⟨e, ?_, rejected_base (Or.inr hbase)⟩
      rw [parse, hwidth]
      dsimp only [bind, Except.bind]
      rw [hbase]
    | ok base => exact Or.inr (exists_spelling hwidth hbase)

/-- Letters and names that are taken, and an underscore that nothing follows. -/
def Dangles (find : String → Option String) (str : List Char) : Prop :=
  ∃ sp : Spelling str, sp.Fits find ∧ sp.tail = ['_']

/-- **Strings that dangle** are the ones on which the parser looks behind the end. On every other
string it accepts or rejects, and has read no character behind the zero; what it accepts is a
spelling, of which the extensions are those that the letters and names give. -/
theorem isaParser_safe_iff (find : String → Option String) (str priv : CString) :
    Safe find str priv ↔ ¬Dangles find str.chars := by
  constructor
  · rintro h ⟨sp, hfits, htail⟩
    obtain ⟨-, -, hover⟩ | ⟨hnot, -⟩ | ⟨-, hnil, -⟩ := parse_of_spelling sp find priv.chars
    · exact h.inside (isaParser_eq_parse find str priv ▸ hover)
    · exact hnot ⟨hfits, htail⟩
    · exact absurd (htail.symm.trans hnil) (by simp)
  · intro h
    have hcases (sp : Spelling str.chars) := parse_of_spelling sp find priv.chars
    have hspelled := rejected_or_spelled find str.chars priv.chars
    simp only [← isaParser_eq_parse] at hspelled hcases
    have hresult : Rejected (isaParser find str priv) ∨ ∃ isa,
        isaParser find str priv = .ok isa := by
      obtain hrejected | ⟨⟨sp⟩⟩ := hspelled
      · exact Or.inl hrejected
      · obtain ⟨hfits, htail, -⟩ | ⟨-, hrejected⟩ | ⟨-, -, mode, isa, -, hok, -⟩ := hcases sp
        · exact absurd ⟨sp, hfits, htail⟩ h
        · exact Or.inl hrejected
        · exact Or.inr ⟨isa, hok⟩
    have hok_ne {isa : Isa} (hok : isaParser find str priv = .ok isa) :
        ¬Rejected (isaParser find str priv) := by
      rintro ⟨e, he, -⟩
      cases hok.symm.trans he
    refine ⟨fun hover => ?_, fun hfuel => ?_, fun isa hok => ⟨?_, fun sp => ?_⟩⟩
    · obtain ⟨e, he, hne, -⟩ | ⟨isa, hok⟩ := hresult
      · exact hne (Except.error.inj (he.symm.trans hover))
      · cases hok.symm.trans hover
    · obtain ⟨e, he, -, hne⟩ | ⟨isa, hok⟩ := hresult
      · exact hne (Except.error.inj (he.symm.trans hfuel))
      · cases hok.symm.trans hfuel
    · exact hspelled.resolve_left (hok_ne hok)
    · obtain ⟨hfits, htail, -⟩ | ⟨-, hrejected⟩ | ⟨-, hnil, mode, isa', hpriv, hok', htable⟩ :=
        hcases sp
      · exact absurd ⟨sp, hfits, htail⟩ h
      · exact absurd hrejected (hok_ne hok)
      · obtain rfl := Except.ok.inj (hok.symm.trans hok')
        refine ⟨hnil, mode, hpriv, fun b hb => ?_⟩
        rw [maxIsa_letter_iff isa hb]
        exact exists_congr fun ext => and_congr_right fun hbit => htable ext (mem_letters hbit)

theorem nul_notMem_dangling : nul ∉ "rv64i_".toList := by decide

theorem nul_notMem_msu : nul ∉ "msu".toList := by decide

/-- An underscore right behind the base letter. -/
theorem isaParser_dangling :
    ¬Safe (fun _ => none) ⟨"rv64i_".toList, nul_notMem_dangling⟩ ⟨"msu".toList, nul_notMem_msu⟩ :=
  fun h => h.inside rfl

end Isa

end Nnemu

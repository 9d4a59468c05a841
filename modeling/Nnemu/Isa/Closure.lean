import Mathlib.Data.List.TakeWhile
import Nnemu.Isa.Parser

/-!
# Dependencies between extensions

`Closed` is what the extensions of a hart owe each other. An accepted ISA string leaves a closed
table: the letters bring what they need with them, the names ask for what they need, and the checks
behind the two loops settle the compressed extensions.

`Respects` is the invariant of the two loops: what has been enabled has brought along what it needs,
as far as a loop can see to it. The letters are taken through `dependencies`, the names one by one;
the compressed extensions are enabled behind the loops, with the checks between them, and
`closed_of_respects` puts the three parts together.
-/

namespace Nnemu

namespace Isa

/-- **The set of extensions is closed under their dependencies.** -/
structure Closed (enabled : Ext → Bool) : Prop where
  d_of_q : enabled .q = true → enabled .d = true
  f_of_d : enabled .d = true → enabled .f = true
  d_of_v : enabled .v = true → enabled .d = true
  s_of_h : enabled .h = true → enabled .s = true
  u_of_s : enabled .s = true → enabled .u = true
  zfhmin_of_zfh : enabled .zfh = true → enabled .zfhmin = true
  f_of_zfhmin : enabled .zfhmin = true → enabled .f = true
  zvfhmin_of_zvfh : enabled .zvfh = true → enabled .zvfhmin = true
  v_of_zvfhmin : enabled .zvfhmin = true → enabled .v = true
  zfhmin_of_zvfh : enabled .zvfh = true → enabled .zfhmin = true
  zca_of_zcf : enabled .zcf = true → enabled .zca = true
  f_of_zcf : enabled .zcf = true → enabled .f = true
  zca_of_zcd : enabled .zcd = true → enabled .zca = true
  d_of_zcd : enabled .zcd = true → enabled .d = true
  zca_of_zcb : enabled .zcb = true → enabled .zca = true
  zca_of_zcmp : enabled .zcmp = true → enabled .zca = true
  zca_of_zcmt : enabled .zcmt = true → enabled .zca = true
  not_zcd_of_zcmp : enabled .zcmp = true → enabled .zcd = false
  not_zcd_of_zcmt : enabled .zcmt = true → enabled .zcd = false

/-! ### The two loops -/

/-- What the letters and the names bring with them: the first needs the second. -/
def dependencies : List (Ext × Ext) :=
  [(.q, .d), (.d, .f), (.v, .d), (.zfh, .zfhmin), (.zfhmin, .f), (.zvfh, .zvfhmin), (.zvfhmin, .v),
    (.zvfh, .zfhmin)]

/-- What holds of the table at every point of the two loops. -/
def Respects (table : ExtTable) : Prop :=
  ∀ dep ∈ dependencies, table dep.1 = true → table dep.2 = true

/-- Extensions that may be switched on together: what they need is among them or there before. -/
def Brings (table : ExtTable) (exts : List Ext) : Bool :=
  dependencies.all fun dep => !exts.contains dep.1 || (exts.contains dep.2 || table dep.2)

variable {xlen : Xlen} {find : String → Option String} {ps ps' : ParseState}

theorem table_enableAll (ext : Ext) (exts : List Ext) :
    ∀ ps : ParseState, (ps.enableAll exts).table ext = (exts.contains ext || ps.table ext) := by
  induction exts with
  | nil => exact fun ps => rfl
  | cons ext' exts ih =>
    intro ps
    have he : (ps.enable ext').table ext = (decide (ext = ext') || ps.table ext) := rfl
    show ((ps.enable ext').enableAll exts).table ext = _
    rw [ih, he, List.contains_cons, beq_eq_decide, Bool.or_left_comm, Bool.or_assoc]

theorem enableIf_eq (ps : ParseState) (b : Bool) (ext : Ext) :
    ps.enableIf b ext = ps.enableAll (if b then [ext] else []) := by
  cases b with
  | false => rfl
  | true => rfl

theorem enableAll_enableAll (exts exts' : List Ext) (ps : ParseState) :
    (ps.enableAll exts).enableAll exts' = ps.enableAll (exts ++ exts') :=
  (List.foldl_append ..).symm

namespace Respects

theorem empty : Respects ParseState.empty.table :=
  fun _ _ h => Bool.noConfusion h

/-- Switching on a group that brings what it needs. -/
theorem enableAll (ok : Respects ps.table) (exts : List Ext) (hb : Brings ps.table exts = true) :
    Respects (ps.enableAll exts).table := by
  intro dep hdep h
  rw [table_enableAll] at h ⊢
  have hb := List.all_eq_true.1 hb dep hdep
  cases hc : exts.contains dep.1 with
  | true => rwa [hc, Bool.not_true, Bool.false_or] at hb
  | false =>
    rw [hc, Bool.false_or] at h
    rw [ok dep hdep h, Bool.or_true]

end Respects

/-- A group needs from before what is not among `known` at most. -/
theorem brings_of_known {table : ExtTable} (known : List Ext) {exts : List Ext}
    (hb : Brings (fun ext => known.contains ext) exts = true)
    (ht : ∀ ext ∈ known, table ext = true) :
    Brings table exts = true := by
  rw [Brings, List.all_eq_true] at hb ⊢
  intro dep hdep
  have hb := hb dep hdep
  cases hk : known.contains dep.2 with
  | true => rw [ht _ (List.contains_iff_mem.1 hk), Bool.or_true, Bool.or_true]
  | false =>
    rw [hk, Bool.or_false] at hb
    rw [← Bool.or_assoc, hb, Bool.true_or]

/-- A group that needs nothing from before. -/
theorem brings_of_empty {exts : List Ext} (hb : Brings (fun _ => false) exts = true)
    (table : ExtTable) :
    Brings table exts = true :=
  brings_of_known [] hb fun _ h => (List.not_mem_nil h).elim

/-- A letter brings what it needs. -/
theorem respects_enableLetter {c : Char} (hc : c ∈ allSubsets) (ok : Respects ps.table) :
    Respects (enableLetter ps c).table := by
  have all (exts : List Ext) (hb : Brings (fun _ => false) exts = true)
      (he : enableLetter ps c = ps.enableAll exts) : Respects (enableLetter ps c).table := by
    rw [he]
    exact ok.enableAll exts (brings_of_empty hb _)
  have hc : c ∈ ['m', 'a', 'f', 'd', 'q', 'c', 'h', 'p', 'v'] := hc
  simp only [List.mem_cons, List.not_mem_nil, or_false] at hc
  obtain rfl | rfl | rfl | rfl | rfl | rfl | rfl | rfl | rfl := hc
  · exact all [.m] rfl rfl
  · exact all [.a] rfl rfl
  · exact all [.f] rfl rfl
  · exact all [.f, .d] rfl rfl
  · exact all [.d, .f, .q] rfl rfl
  · exact all [.c] rfl rfl
  · exact all [.h] rfl rfl
  · exact all [.zbpbo, .zpn, .zpsfoperand, .zmmul, .p] rfl rfl
  · exact all [.d, .f, .v] rfl rfl

/-- The loop over the letters. -/
theorem respects_letterLoop (fuel : Nat) : ∀ {ps ps' : ParseState} {subset s rest : List Char},
    letterLoop fuel ps subset s = .ok (ps', rest) → (∀ c ∈ subset, c ∈ allSubsets) →
    Respects ps.table → Respects ps'.table := by
  induction fuel with
  | zero => exact fun h _ _ => absurd h (by simp [letterLoop])
  | succ fuel ih =>
    intro ps ps' subset s rest h hsub ok
    cases s with
    | nil =>
      obtain ⟨rfl, -⟩ := Prod.mk.inj (Except.ok.inj h)
      exact ok
    | cons c s =>
      rw [letterLoop] at h
      split at h
      · split at h
        · split at h
          · cases h
          · cases h
        · rename_i hne
          have hmem : c ∈ subset := Decidable.byContradiction fun hc =>
            hne (List.dropWhile_eq_nil_iff.2 fun x hx => decide_eq_true fun hxc => hc (hxc ▸ hx))
          exact ih h (fun x hx => hsub x (List.dropWhile_subset _ hx))
            (respects_enableLetter (hsub c hmem) ok)
      · obtain ⟨rfl, -⟩ := Prod.mk.inj (Except.ok.inj h)
        exact ok

theorem brings_plainExtension {ext_str : String} {exts : List Ext}
    (h : plainExtension ext_str = some exts) :
    Brings (fun _ => false) exts = true := by
  unfold plainExtension at h
  split at h
  all_goals first
    | (obtain rfl := Option.some.inj h; rfl)
    | cases h

theorem brings_customExtension {ext_str : String} {exts : List Ext}
    (h : customExtension ext_str = some exts) :
    Brings (fun _ => false) exts = true := by
  unfold customExtension at h
  split at h
  all_goals first
    | (obtain rfl := Option.some.inj h; rfl)
    | cases h

/-- The names with a condition: what they need is in the same group or was asked for. -/
theorem respects_guardedExtension {ext_str : String}
    (h : guardedExtension xlen ps ext_str = some (.ok ps')) (ok : Respects ps.table) :
    Respects ps'.table := by
  unfold guardedExtension at h
  split at h
  · have h := Option.some.inj h
    split at h
    · cases h
    · rename_i hf
      have hf : ps.table .f = true := by simpa using hf
      obtain rfl := Except.ok.inj h
      exact ok.enableAll [.zfhmin, .zfh] (brings_of_known [.f] rfl (by simpa using hf))
  · have h := Option.some.inj h
    split at h
    · cases h
    · rename_i hf
      have hf : ps.table .f = true := by simpa using hf
      obtain rfl := Except.ok.inj h
      exact ok.enableAll [.zfhmin] (brings_of_known [.f] rfl (by simpa using hf))
  · have h := Option.some.inj h
    split at h
    · cases h
    · rename_i hv
      have hv : ps.table .v = true := by simpa using hv
      obtain rfl := Except.ok.inj h
      -- Zvfh brings Zfhmin, which needs F: V brought it through D
      have hd : ps.table .d = true := ok (.v, .d) (by decide) hv
      have hf : ps.table .f = true := ok (.d, .f) (by decide) hd
      exact ok.enableAll [.zvfhmin, .zvfh, .zfhmin]
        (brings_of_known [.v, .f] rfl (by simp [hv, hf]))
  · have h := Option.some.inj h
    split at h
    · cases h
    · rename_i hv
      have hv : ps.table .v = true := by simpa using hv
      obtain rfl := Except.ok.inj h
      exact ok.enableAll [.zvfhmin] (brings_of_known [.v] rfl (by simpa using hv))
  · obtain rfl := Except.ok.inj (Option.some.inj h)
    rw [enableIf_eq, enableAll_enableAll]
    refine ok.enableAll _ (brings_of_empty ?_ _)
    cases ps.table .f && xlen == .rv32 with
    | false => rfl
    | true => rfl
  · have h := Option.some.inj h
    split at h
    · cases h
    · obtain rfl := Except.ok.inj h
      exact ok.enableAll [.zcf] (brings_of_empty rfl _)
  · cases h

/-- The names that start with `x`. -/
theorem respects_xExtension {name : List Char} (h : xExtension find ps name = .ok ps')
    (ok : Respects ps.table) :
    Respects ps'.table := by
  have okx : Respects (ps.enable .x).table := ok.enableAll [.x] (brings_of_empty rfl _)
  unfold xExtension at h
  dsimp only at h
  split at h
  · rename_i exts hexts
    obtain rfl := Except.ok.inj h
    exact okx.enableAll exts (brings_of_empty (brings_customExtension hexts) _)
  · split at h
    · cases h
    · split at h
      · cases h
      · split at h
        · cases h
        · obtain rfl := Except.ok.inj h
          exact okx

/-- One name. -/
theorem respects_enableName {name : List Char} (h : enableName xlen find ps name = .ok ps')
    (ok : Respects ps.table) : Respects ps'.table := by
  unfold enableName at h
  dsimp only at h
  split at h
  · rename_i result hguard
    exact respects_guardedExtension (h ▸ hguard) ok
  · split at h
    · rename_i exts hexts
      obtain rfl := Except.ok.inj h
      exact ok.enableAll exts (brings_of_empty (brings_plainExtension hexts) _)
    · split at h
      · exact respects_xExtension h ok
      · cases h

/-- The loop over the names. -/
theorem respects_nameLoop (fuel : Nat) : ∀ {ps ps' : ParseState} {p rest : List Char},
    nameLoop xlen find fuel ps p = .ok (ps', rest) → Respects ps.table → Respects ps'.table := by
  induction fuel with
  | zero => exact fun h _ => absurd h (by simp [nameLoop])
  | succ fuel ih =>
    intro ps ps' p rest h ok
    cases p with
    | nil =>
      obtain ⟨rfl, -⟩ := Prod.mk.inj (Except.ok.inj h)
      exact ok
    | cons c p =>
      rw [nameLoop] at h
      dsimp only at h
      generalize (if c = '_' then p else c :: p) = p at h
      split at h
      · split at h
        · cases h
        · split at h
          · cases h
          · rename_i hname
            exact ih h (respects_enableName hname ok)
      · obtain ⟨rfl, -⟩ := Prod.mk.inj (Except.ok.inj h)
        exact ok

/-! ### Behind the loops -/

theorem not_and {a b : Bool} (h : ¬(a && b) = true) (ha : a = true) : b = false := by
  simpa [ha] using h

theorem not_and_not {a b : Bool} (h : ¬(a && !b) = true) (ha : a = true) : b = true :=
  by simpa [ha] using h

/-- What the checks behind the loops leave of the table. -/
structure TailOk (table : ExtTable) : Prop where
  f_of_zcf : table .zcf = true → table .f = true
  d_of_zcd : table .zcd = true → table .d = true
  not_zcd : (table .zcmp || table .zcmt) = true → table .zcd = false
  zca : (table .zcf || table .zcd || table .zcb || table .zcmp || table .zcmt) = true →
    table .zca = true

theorem tailOk {table : ExtTable} (h : tailChecks table = .ok ()) : TailOk table := by
  unfold tailChecks at h
  split at h
  · cases h
  · split at h
    · cases h
    · rename_i hzcf
      split at h
      · cases h
      · rename_i hzcd
        split at h
        · cases h
        · rename_i hzcmp
          split at h
          · cases h
          · rename_i hzca
            exact ⟨not_and_not hzcf, not_and_not hzcd, not_and hzcmp, not_and_not hzca⟩

/-- C brings compressed extensions only, which need no letter of the two loops. -/
theorem respects_enableCompressed (ok : Respects ps.table) :
    Respects (enableCompressed xlen ps).table := by
  unfold enableCompressed
  split
  · rw [enableIf_eq, enableIf_eq, enableAll_enableAll]
    refine Respects.enableAll (ok.enableAll [.zca] (brings_of_empty rfl _)) _ (brings_of_empty ?_ _)
    cases ps.table .f && xlen == .rv32 <;> cases ps.table .d <;> rfl
  · exact ok

theorem respects_baseLetter {pre s rest : List Char} (h : baseLetter pre s = .ok (ps, rest)) :
    Respects ps.table := by
  unfold baseLetter at h
  split at h
  · obtain ⟨rfl, -⟩ := Prod.mk.inj (Except.ok.inj h)
    exact Respects.empty.enableAll [.i] rfl
  · obtain ⟨rfl, -⟩ := Prod.mk.inj (Except.ok.inj h)
    exact Respects.empty.enableAll [.i] rfl
  · obtain ⟨rfl, -⟩ := Prod.mk.inj (Except.ok.inj h)
    exact Respects.empty.enableAll [.e] rfl
  · cases h

/-- What the two loops and the checks leave is closed but for the privilege letters. -/
theorem closed_of_respects {isa : Isa} {table : ExtTable} (ok : Respects table)
    (tail : TailOk table)
    (htable : ∀ ext, ext ≠ .u → ext ≠ .s → isa.table ext = table ext) : Closed isa.table := by
  have eq (ext : Ext) (h : (ext != .u && ext != .s) = true) : isa.table ext = table ext :=
    have h := Bool.and_eq_true_iff.1 h
    htable ext (bne_iff_ne.1 h.1) (bne_iff_ne.1 h.2)
  have dep (ext ext' : Ext) (hdep : (ext, ext') ∈ dependencies)
    (h : (ext != .u && ext != .s) = true)
      (h' : (ext' != .u && ext' != .s) = true) (ht : isa.table ext = true) :
        isa.table ext' = true := by
    rw [eq ext' h']
    exact ok _ hdep ((eq ext h).symm.trans ht)
  have zca {ext : Ext} (h : (ext != .u && ext != .s) = true) (hz : table ext = true →
      (table .zcf || table .zcd || table .zcb || table .zcmp || table .zcmt) = true)
      (ht : isa.table ext = true) : isa.table .zca = true := by
    rw [eq .zca rfl]
    exact tail.zca (hz ((eq ext h).symm.trans ht))
  exact {
    d_of_q := dep .q .d (by decide) rfl rfl
    f_of_d := dep .d .f (by decide) rfl rfl
    d_of_v := dep .v .d (by decide) rfl rfl
    s_of_h := isa.s_of_h
    u_of_s := isa.u_of_s
    zfhmin_of_zfh := dep .zfh .zfhmin (by decide) rfl rfl
    f_of_zfhmin := dep .zfhmin .f (by decide) rfl rfl
    zvfhmin_of_zvfh := dep .zvfh .zvfhmin (by decide) rfl rfl
    v_of_zvfhmin := dep .zvfhmin .v (by decide) rfl rfl
    zfhmin_of_zvfh := dep .zvfh .zfhmin (by decide) rfl rfl
    zca_of_zcf := zca rfl fun h => by simp [h]
    f_of_zcf := by rw [eq .zcf rfl, eq .f rfl]; exact tail.f_of_zcf
    zca_of_zcd := zca rfl fun h => by simp [h]
    d_of_zcd := by rw [eq .zcd rfl, eq .d rfl]; exact tail.d_of_zcd
    zca_of_zcb := zca rfl fun h => by simp [h]
    zca_of_zcmp := zca rfl fun h => by simp [h]
    zca_of_zcmt := zca rfl fun h => by simp [h]
    not_zcd_of_zcmp := by rw [eq .zcmp rfl, eq .zcd rfl]; exact fun h => tail.not_zcd (by simp [h])
    not_zcd_of_zcmt :=
      by rw [eq .zcmt rfl, eq .zcd rfl]; exact fun h => tail.not_zcd (by simp [h]) }

/-- The last step keeps everything but the privilege letters. -/
theorem finish_ok {priv : Priv} {isa : Isa} (h : finish xlen ps priv = .ok isa) :
    isa.table = withPriv ps.table priv := by
  unfold finish at h
  split at h
  · obtain rfl := Except.ok.inj h
    rfl
  · cases h

theorem bind_eq_ok {ε α β : Type} {x : Except ε α} {f : α → Except ε β} {b : β}
    (h : (x >>= f) = .ok b) : ∃ a, x = .ok a ∧ f a = .ok b := by
  cases x with
  | error e => cases h
  | ok a => exact ⟨a, rfl, h⟩

/-- **An accepted string leaves a closed table.** -/
theorem parse_closed {str priv : List Char} {isa : Isa} (h : parse find str priv = .ok isa) :
    Closed isa.table := by
  obtain ⟨xlen, hxlen, h⟩ := bind_eq_ok h
  obtain ⟨⟨ps, p⟩, hbase, h⟩ := bind_eq_ok h
  obtain ⟨⟨ps₁, p₁⟩, hletters, h⟩ := bind_eq_ok h
  obtain ⟨⟨ps₂, p₂⟩, hnames, h⟩ := bind_eq_ok h
  have ok₂ : Respects ps₂.table :=
    respects_nameLoop _ hnames
      (respects_letterLoop _ hletters (fun c hc => hc) (respects_baseLetter hbase))
  dsimp only at h
  split at h
  · cases h
  · obtain ⟨⟨⟩, hchecks, h⟩ := bind_eq_ok h
    obtain ⟨priv, -, h⟩ := bind_eq_ok h
    have hisa := finish_ok h
    refine closed_of_respects (respects_enableCompressed ok₂) (tailOk hchecks) fun ext hu hs => ?_
    rw [hisa, withPriv, if_neg hu, if_neg hs]

end Isa

end Nnemu

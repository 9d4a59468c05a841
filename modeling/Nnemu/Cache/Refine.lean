import Nnemu.Cache.Spec

/-!
# The words of the two classes

What `check_tag` finds, what `victimize` does and what storing a word does, for the array and for
the map, in terms of the slots: `Holds` says that the words are those of the lines a history leaves.
The map keeps the entry of a line whatever its flags, so a word of the map must stay valid.

The two classes are brought together here: `At` says that a word is at a position of the array or
under a key of the map, and what is proved of a position holds of both. `Holds` collects the sizes,
the keys of a map and the slots; each operation on words has its lemma about it.
-/

namespace Nnemu

namespace CacheSim

open History

variable {c : CacheSim} {addr : Reg} {h : List (Event Nat)}

/-! ### Positions -/

/-- A position of the slots: its set and its word, and what storing a word there does. -/
structure At (c : CacheSim) (k s : Nat) (rest : List (Nat × Reg)) : Prop where
  here : c.slots.Perm ((s, c.word k) :: rest)
  store : ∀ w, (c.setWord k w).slots.Perm ((s, w) :: rest)

/-- Replacing one element of a list. -/
theorem perm_cons_of_getElem? {α : Type*} {l : List α} {k : Nat} {a : α} (hk : l[k]? = some a) :
    l.Perm (a :: l.eraseIdx k) ∧ ∀ b, (l.set k b).Perm (b :: l.eraseIdx k) := by
  obtain ⟨hlt, rfl⟩ := List.getElem?_eq_some_iff.1 hk
  refine ⟨(List.getElem_cons_eraseIdx_perm hlt).symm, fun b => ?_⟩
  have hset : (l.set k b).eraseIdx k = l.eraseIdx k := List.eraseIdx_set_eq
  have hlt' : k < (l.set k b).length := by rwa [List.length_set]
  have hperm := List.getElem_cons_eraseIdx_perm hlt'
  rw [hset, List.getElem_set_self] at hperm
  exact hperm.symm

/-- The slots of an array after a word was stored. -/
theorem slots_update (c : CacheSim) (tags : Nat → Reg) (n k : Nat) (w : Reg) :
    ((List.range n).map fun i => (i / c.ways.toNat, Function.update tags k w i)) =
      ((List.range n).map fun i => (i / c.ways.toNat, tags i)).set k (k / c.ways.toNat, w) := by
  apply List.ext_getElem?
  intro i
  rw [List.getElem?_set, List.getElem?_map, List.getElem?_map, List.length_map, List.length_range]
  by_cases hk : k = i
  · subst hk
    by_cases hlt : k < n
    · rw [if_pos rfl, if_pos hlt, List.getElem?_range hlt, Option.map_some, Function.update_self]
    · rw [if_pos rfl, if_neg hlt, List.getElem?_eq_none (by simpa using hlt), Option.map_none]
  · rw [if_neg hk]
    by_cases hlt : i < n
    · rw [List.getElem?_range hlt, Option.map_some, Option.map_some,
        Function.update_of_ne (Ne.symm hk)]
    · rw [List.getElem?_eq_none (by simpa using hlt), Option.map_none, Option.map_none]

/-- A position of the array. -/
theorem at_array {tags : Nat → Reg} {k : Nat} (htags : c.tags = .array tags)
    (hk : k < c.sets.toNat * c.ways.toNat) : ∃ rest, At c k (k / c.ways.toNat) rest := by
  have hword : c.word k = tags k := by rw [word, htags]
  have hslots : c.slots = (List.range (c.sets.toNat * c.ways.toNat)).map fun i =>
      (i / c.ways.toNat, tags i) := by
    rw [slots, htags]
  have hget : c.slots[k]? = some (k / c.ways.toNat, tags k) := by
    rw [hslots, List.getElem?_map, List.getElem?_range hk, Option.map_some]
  obtain ⟨hhere, hstore⟩ := perm_cons_of_getElem? hget
  refine ⟨c.slots.eraseIdx k, ?_, fun w => ?_⟩
  · rw [hword]
    exact hhere
  · have hset : (c.setWord k w).slots = c.slots.set k (k / c.ways.toNat, w) := by
      have htags' : c.setWord k w = { c with tags := .array (Function.update tags k w) } :=
        by rw [setWord, htags]
      rw [htags', hslots]
      exact slots_update c tags _ k w
    rw [hset]
    exact hstore _

theorem word_map {tags : List (Reg × Reg)} {k : Nat} {e : Reg × Reg} (htags : c.tags = .map tags)
    (hk : tags[k]? = some e) : c.word k = e.2 := by
  rw [word, htags]
  dsimp only
  rw [hk]
  rfl

/-- An entry of the map. -/
theorem at_map {tags : List (Reg × Reg)} {k : Nat} {e : Reg × Reg} (htags : c.tags = .map tags)
    (hk : tags[k]? = some e) : ∃ rest, At c k 0 rest := by
  have hword := word_map htags hk
  have hslots : c.slots = tags.map fun e => (0, e.2) := by rw [slots, htags]
  have hget : c.slots[k]? = some (0, e.2) := by rw [hslots, List.getElem?_map, hk]; rfl
  obtain ⟨hhere, hstore⟩ := perm_cons_of_getElem? hget
  refine ⟨c.slots.eraseIdx k, ?_, fun w => ?_⟩
  · rw [hword]
    exact hhere
  · have hset : (c.setWord k w).slots = c.slots.set k (0, w) := by
      have htags' : c.setWord k w = { c with tags := .map (tags.modify k fun e => (e.1, w)) } :=
        by rw [setWord, htags]
      rw [htags', hslots, slots]
      apply List.ext_getElem?
      intro i
      rw [List.getElem?_set, List.getElem?_map, List.getElem?_map, List.getElem?_modify,
        List.length_map]
      by_cases hi : k = i
      · subst hi
        have hlt : k < tags.length := (List.getElem?_eq_some_iff.1 hk).1
        rw [if_pos rfl, if_pos hlt, hk]
        simp
      · simp [hi]
    rw [hset]
    exact hstore _

/-! ### Looking a line up -/

/-- The ways of a set are inside the array. -/
theorem position_lt (addr : Reg) (hsized : c.WellSized) {i : Nat} (hi : i < c.ways.toNat) :
    c.idx addr * c.ways.toNat + i < c.sets.toNat * c.ways.toNat := by
  obtain ⟨n, hn⟩ := hsized.sets
  have hidx : c.idx addr < c.sets.toNat := by
    rw [hsized.idx_eq]
    exact Nat.mod_lt _ (by rw [hn]; exact Nat.two_pow_pos n)
  calc c.idx addr * c.ways.toNat + i < c.idx addr * c.ways.toNat + c.ways.toNat := by omega
    _ = (c.idx addr + 1) * c.ways.toNat := by rw [Nat.add_mul, Nat.one_mul]
    _ ≤ c.sets.toNat * c.ways.toNat := Nat.mul_le_mul_right _ hidx

/-- What `check_tag` points to. -/
theorem checkTag_some (hsized : c.WellSized) (hkeyed : c.Keyed) {k : Nat}
    (hk : c.checkTag addr = some k) :
    ∃ s rest, At c k s rest ∧ isValid (c.word k) = true ∧
    lineOf (c.word k) = (c.line addr).toNat := by
  rw [checkTag] at hk
  cases htags : c.tags with
  | array tags =>
    rw [htags] at hk
    have hfound := List.find?_some hk
    obtain ⟨i, hi, rfl⟩ := List.mem_map.1 (List.mem_of_find?_eq_some hk)
    have hword : c.word (c.idx addr * c.ways.toNat + i) = tags (c.idx addr * c.ways.toNat + i) :=
      by rw [word, htags]
    obtain ⟨rest, hat⟩ := at_array htags (position_lt addr hsized (List.mem_range.1 hi))
    rw [hword]
    exact ⟨_, rest, hat, (tag_beq_iff _ (hsized.line_lt addr)).1 hfound⟩
  | map tags =>
    rw [htags] at hk
    obtain ⟨hlt, hkey, -⟩ := List.findIdx?_eq_some_iff_getElem.1 hk
    have hget : tags[k]? = some tags[k] := List.getElem?_eq_getElem hlt
    obtain ⟨rest, hat⟩ := at_map htags hget
    obtain ⟨hvalid, hline⟩ := (hkeyed tags htags).2.2 tags[k] (List.getElem_mem hlt)
    have hword := word_map htags hget
    rw [hword]
    refine ⟨0, rest, hat, hvalid, ?_⟩
    rw [hline, beq_iff_eq.1 hkey]

/-- In the array it points to a way of the set. -/
theorem checkTag_lt (hsized : c.WellSized) {tags : Nat → Reg} (htags : c.tags = .array tags)
    {k : Nat}
    (hk : c.checkTag addr = some k) : k < c.sets.toNat * c.ways.toNat := by
  rw [checkTag, htags] at hk
  obtain ⟨i, hi, rfl⟩ := List.mem_map.1 (List.mem_of_find?_eq_some hk)
  exact position_lt addr hsized (List.mem_range.1 hi)

/-- A null pointer: the line is in no slot. -/
theorem checkTag_none (hsized : c.WellSized) (hkeyed : c.Keyed) {m : Nat → Option Bool}
    (hshows : Shows c.geometry c.slots m) (hnone : c.checkTag addr = none) :
    m (c.line addr).toNat = none := by
  cases hm : m (c.line addr).toNat with
  | none => rfl
  | some d =>
    obtain ⟨e, he, hvalid, hline, -⟩ := (hshows.held _ _).1 hm
    have hset := hshows.own e he hvalid
    rw [slots] at he
    rw [checkTag] at hnone
    cases htags : c.tags with
    | array tags =>
      rw [htags] at he hnone
      obtain ⟨k, hk, rfl⟩ := List.mem_map.1 he
      have hpos : 0 < c.ways.toNat := by
        by_contra hzero
        rw [Nat.eq_zero_of_not_pos hzero, Nat.mul_zero] at hk
        exact absurd hk List.not_mem_nil
      have hway : k = c.idx addr * c.ways.toNat + k % c.ways.toNat := by
        have hidx : k / c.ways.toNat = c.idx addr := by
          rw [hsized.idx_eq, ← hline]
          exact hset
        rw [← hidx, Nat.mul_comm]
        exact (Nat.div_add_mod k _).symm
      have hmem : k ∈ (List.range c.ways.toNat).map fun i => c.idx addr * c.ways.toNat + i :=
        List.mem_map.2 ⟨k % c.ways.toNat, List.mem_range.2 (Nat.mod_lt _ hpos), hway.symm⟩
      have hmatch := (tag_beq_iff _ (hsized.line_lt addr)).2 ⟨hvalid, hline⟩
      exact absurd hmatch (List.find?_eq_none.1 hnone k hmem)
    | map tags =>
      rw [htags] at he hnone
      obtain ⟨e, hmem, rfl⟩ := List.mem_map.1 he
      have hkey := ((hkeyed tags htags).2.2 e hmem).2
      have hmatch : (e.1 == c.line addr) = true :=
        beq_iff_eq.2 (BitVec.eq_of_toNat_eq (hkey.symm.trans hline))
      exact absurd hmatch
        (by rw [List.findIdx?_eq_none_iff.1 hnone e hmem]; exact Bool.false_ne_true)

/-! ### Making room -/

/-- The sizes of a cache stay what they are. -/
structure SameSizes (c c' : CacheSim) : Prop where
  sets : c'.sets = c.sets
  ways : c'.ways = c.ways
  linesz : c'.linesz = c.linesz
  idxShift : c'.idxShift = c.idxShift

namespace SameSizes

variable {c' : CacheSim} (s : SameSizes c c')

include s

theorem wellSized (h : c.WellSized) : c'.WellSized := by
  refine ⟨?_, ?_, ?_, ?_⟩
  · rw [s.sets]
    exact h.sets
  · rw [s.linesz, s.idxShift]
    exact h.linesz
  · rw [s.idxShift]
    exact h.shift
  · rw [s.sets, s.ways]
    exact h.words

theorem geometry_eq : c'.geometry = c.geometry := by
  rw [geometry, geometry, s.sets, s.ways, s.linesz]

theorem line_eq (addr : Reg) : c'.line addr = c.line addr := by
  rw [line, line, s.idxShift]

theorem trans {c'' : CacheSim} (s' : SameSizes c' c'') : SameSizes c c'' :=
  ⟨s'.sets.trans s.sets, s'.ways.trans s.ways, s'.linesz.trans s.linesz,
    s'.idxShift.trans s.idxShift⟩

end SameSizes

/-- Assigning to a key that the map does not have. -/
theorem assign_perm {key : Reg} {tags : List (Reg × Reg)} (word : Reg)
    (habsent : ∀ e ∈ tags, e.1 ≠ key) :
    (assign key word tags).Perm ((key, word) :: tags) := by
  induction tags with
  | nil => exact List.Perm.refl _
  | cons e rest ih =>
    have hhead : key ≠ e.1 := (habsent e List.mem_cons_self).symm
    rw [assign, if_neg hhead]
    split
    · exact List.Perm.refl _
    · exact ((ih fun e' he' => habsent e' (List.mem_cons_of_mem e he')).cons e).trans
        (List.Perm.swap _ _ _)

/-- The entry of a line that was not there. -/
theorem keyed_assign {tags : List (Reg × Reg)} (hsized : c.WellSized)
    (habsent : ∀ e ∈ tags, e.1 ≠ c.line addr)
    (hentries : ∀ e ∈ tags, isValid e.2 = true ∧ lineOf e.2 = e.1.toNat) :
    ∀ e ∈ assign (c.line addr) (c.tag addr) tags, isValid e.2 = true ∧ lineOf e.2 = e.1.toNat := by
  intro e he
  obtain rfl | he := List.mem_cons.1 ((assign_perm _ habsent).mem_iff.1 he)
  · exact ⟨isValid_or_valid _, by rw [tag, lineOf_or_valid, lineOf_of_lt (hsized.line_lt addr)]⟩
  · exact hentries e he

/-- A map has no entry for a line that is not found. -/
theorem absent_of_checkTag {tags : List (Reg × Reg)} (htags : c.tags = .map tags)
    (hnone : c.checkTag addr = none) :
    ∀ e ∈ tags, e.1 ≠ c.line addr := by
  intro e he heq
  rw [checkTag, htags] at hnone
  have hno := List.findIdx?_eq_none_iff.1 hnone e he
  rw [heq, beq_self_eq_true] at hno
  cases hno

/-- What `victimize` does: the new word takes the place of the victim, or a place that was free. -/
structure Victimized (c : CacheSim) (addr : Reg) (c' : CacheSim) (victim : Reg) : Prop where
  sizes : SameSizes c c'
  counters : c'.counters = c.counters
  keyed : c'.Keyed
  slots : ∃ rest, c'.slots.Perm (((c.line addr).toNat % c.geometry.sets, c.tag addr) :: rest) ∧
    (c.slots.Perm (((c.line addr).toNat % c.geometry.sets, victim) :: rest) ∨
      isValid victim = false ∧ c.slots.Perm rest ∧
        rest.countP (fun e => e.1 = (c.line addr).toNat % c.geometry.sets) < c.geometry.ways)

/-- A cache with a way makes room. -/
theorem victimize_spec (hsized : c.WellSized) (hkeyed : c.Keyed) (hways : c.ways ≠ 0#64)
    (hnone : c.checkTag addr = none) :
    ∃ c' victim, c.victimize addr = some (c', victim) ∧ Victimized c addr c' victim := by
  have hpos : 0 < c.ways.toNat := by
    rw [Nat.pos_iff_ne_zero]
    intro hzero
    exact hways (BitVec.eq_of_toNat_eq hzero)
  rw [victimize]
  cases htags : c.tags with
  -- the way the generator names is overwritten, valid or not
  | array tags =>
    dsimp only
    rw [if_neg hways]
    have hr := Nat.mod_lt (lfsrNext c.lfsr).toNat hpos
    generalize (lfsrNext c.lfsr).toNat % c.ways.toNat = r at hr ⊢
    have hset : (c.idx addr * c.ways.toNat + r) / c.ways.toNat =
        (c.line addr).toNat % c.geometry.sets := by
      rw [Nat.add_comm, Nat.add_mul_div_right _ _ hpos, Nat.div_eq_of_lt hr,
        Nat.zero_add, hsized.idx_eq]
      rfl
    obtain ⟨rest, hat⟩ := at_array htags (position_lt addr hsized hr)
    have hword : c.word (c.idx addr * c.ways.toNat + r) = tags (c.idx addr * c.ways.toNat + r) :=
      by rw [word, htags]
    have hhere := hat.here
    have hstore := hat.store (c.tag addr)
    rw [hset, hword] at hhere
    rw [hset, setWord, htags] at hstore
    refine ⟨_, _, rfl, ⟨rfl, rfl, rfl, rfl⟩, rfl, ?_, rest, hstore, .inl hhere⟩
    intro tags' htags'
    cases htags'
  | map tags =>
    dsimp only
    obtain ⟨hsets, hlen, hentries⟩ := hkeyed tags htags
    have habsent := absent_of_checkTag htags hnone
    have hset : (c.line addr).toNat % c.geometry.sets = 0 := by
      rw [geometry, hsets]
      exact Nat.mod_one _
    have hslots : c.slots = tags.map fun e => (0, e.2) := by rw [slots, htags]
    -- a full map gives up the entry the generator names, one with room none
    by_cases hfull : tags.length = c.ways.toNat
    · rw [if_pos hfull, if_neg hways]
      have hr : (lfsrNext c.lfsr).toNat % c.ways.toNat < tags.length := by
        rw [hfull]
        exact Nat.mod_lt _ hpos
      generalize (lfsrNext c.lfsr).toNat % c.ways.toNat = r at hr ⊢
      have hleft : ∀ e ∈ tags.eraseIdx r, e ∈ tags := fun e he => List.mem_of_mem_eraseIdx he
      have habsent' : ∀ e ∈ tags.eraseIdx r, e.1 ≠ c.line addr := fun e he => habsent e (hleft e he)
      have hperm := assign_perm (c.tag addr) habsent'
      rw [List.getElem?_eq_getElem hr, Option.map_some]
      refine ⟨_, _, rfl, ⟨rfl, rfl, rfl, rfl⟩, rfl, ?_, (tags.eraseIdx r).map fun e => (0, e.2),
        ?_, .inl ?_⟩
      · intro tags' htags'
        cases htags'
        refine ⟨hsets, ?_, keyed_assign hsized habsent' fun e he => hentries e (hleft e he)⟩
        rw [hperm.length_eq, List.length_cons, List.length_eraseIdx_of_lt hr]
        change tags.length - 1 + 1 ≤ c.ways.toNat
        omega
      · rw [hset]
        exact hperm.map fun e : Reg × Reg => (0, e.2)
      · rw [hset, hslots]
        exact (List.getElem_cons_eraseIdx_perm hr).symm.map fun e : Reg × Reg => (0, e.2)
    · rw [if_neg hfull]
      have hperm := assign_perm (c.tag addr) habsent
      refine ⟨_, _, rfl, ⟨rfl, rfl, rfl, rfl⟩, rfl, ?_, tags.map fun e => (0, e.2),
        ?_, .inr ⟨rfl, ?_, ?_⟩⟩
      · intro tags' htags'
        cases htags'
        refine ⟨hsets, ?_, keyed_assign hsized habsent hentries⟩
        rw [hperm.length_eq, List.length_cons]
        change tags.length + 1 ≤ c.ways.toNat
        omega
      · rw [hset]
        exact hperm.map fun e : Reg × Reg => (0, e.2)
      · rw [hslots]
      · refine Nat.lt_of_le_of_lt List.countP_le_length ?_
        rw [List.length_map]
        exact Nat.lt_of_le_of_ne hlen hfull

/-! ### Storing words -/

/-- The words of a cache are those of the lines its history leaves. -/
structure Holds (c : CacheSim) (h : List (Event Nat)) : Prop where
  sized : c.WellSized
  keyed : c.Keyed
  shows : Shows c.geometry c.slots (held h)

theorem sameSizes_setWord (c : CacheSim) (k : Nat) (w : Reg) : SameSizes c (c.setWord k w) := by
  rw [setWord]
  cases c.tags <;> exact ⟨rfl, rfl, rfl, rfl⟩

theorem counters_setWord (c : CacheSim) (k : Nat) (w : Reg) :
    (c.setWord k w).counters = c.counters := by
  rw [setWord]
  cases c.tags <;> rfl

/-- Another word of the same line does not disturb the map. -/
theorem keyed_setWord (hkeyed : c.Keyed) {k : Nat} {w : Reg} (hvalid : isValid w = true)
    (hline : lineOf w = lineOf (c.word k)) : (c.setWord k w).Keyed := by
  intro tags' htags'
  rw [setWord] at htags' ⊢
  cases htags : c.tags with
  | array tags =>
    rw [htags] at htags'
    cases htags'
  | map tags =>
    rw [htags] at htags'
    cases htags'
    obtain ⟨hsets, hlen, hentries⟩ := hkeyed tags htags
    refine ⟨hsets, by rw [List.length_modify]; exact hlen, fun e he => ?_⟩
    obtain ⟨i, hi⟩ := List.mem_iff_getElem?.1 he
    rw [List.getElem?_modify] at hi
    obtain ⟨e', he', rfl⟩ := Option.map_eq_some_iff.1 hi
    have hentry := hentries e' (List.mem_of_getElem? he')
    by_cases hik : k = i
    · subst hik
      rw [if_pos rfl]
      refine ⟨hvalid, ?_⟩
      rw [hline, word_map htags he']
      exact hentry.2
    · rw [if_neg hik]
      exact hentry

namespace Holds

variable (H : Holds c h)

include H

/-- A line that is found is held. -/
theorem held_of_some {k : Nat} (hk : c.checkTag addr = some k) :
    held h (c.line addr).toNat = some (isDirty (c.word k)) := by
  obtain ⟨s, rest, hat, hvalid, hline⟩ := checkTag_some H.sized H.keyed hk
  rw [← hline]
  exact (H.shows.perm hat.here).held_of_mem List.mem_cons_self hvalid

/-- One that is not found is not. -/
theorem held_of_none (hnone : c.checkTag addr = none) : held h (c.line addr).toNat = none :=
  checkTag_none H.sized H.keyed H.shows hnone

/-- Storing another word of a line that was found. -/
theorem setWord {k : Nat} (hk : c.checkTag addr = some k) {w : Reg} (hvalid : isValid w = true)
    (hline : lineOf w = lineOf (c.word k)) {e : Event Nat} (hkey : e.key = (c.line addr).toNat)
    (happly : e.apply (held h (c.line addr).toNat) = some (isDirty w)) :
    Holds (c.setWord k w) (e :: h) := by
  obtain ⟨s, rest, hat, hvalid', hline'⟩ := checkTag_some H.sized H.keyed hk
  refine ⟨(sameSizes_setWord c k w).wellSized H.sized, keyed_setWord H.keyed hvalid hline, ?_⟩
  rw [(sameSizes_setWord c k w).geometry_eq, held_cons, hkey, happly, ← hline']
  exact ((H.shows.perm hat.here).rewrite hvalid' hvalid hline).perm (hat.store w).symm

/-- Invalidating a line of an array. -/
theorem invalidate {tags : Nat → Reg} (htags : c.tags = .array tags) {k : Nat}
    (hk : k < c.sets.toNat * c.ways.toNat)
    (hvalid : isValid (c.word k) = true) {w : Reg} (hw : isValid w = false) :
    Holds (c.setWord k w) (.invalidated (lineOf (c.word k)) :: h) := by
  obtain ⟨rest, hat⟩ := at_array htags hk
  refine ⟨(sameSizes_setWord c k w).wellSized H.sized, ?_, ?_⟩
  · intro tags' htags'
    rw [CacheSim.setWord, htags] at htags'
    cases htags'
  · rw [(sameSizes_setWord c k w).geometry_eq, held_cons]
    exact ((H.shows.perm hat.here).invalidate hvalid hw).perm (hat.store w).symm

/-- The line of an access takes the place of a victim. -/
theorem replace {c' : CacheSim} {victim : Reg} (hv : Victimized c addr c' victim)
    (hnone : held h (c.line addr).toNat = none) :
    Holds c' (.brought (c.line addr).toNat ::
      if isValid victim then .evicted (lineOf victim) (isDirty victim) :: h else h) := by
  obtain ⟨rest, hperm, hold⟩ := hv.slots
  refine ⟨hv.sizes.wellSized H.sized, hv.keyed, ?_⟩
  have hline : lineOf (c.tag addr) = (c.line addr).toNat := by
    rw [tag, lineOf_or_valid, lineOf_of_lt (H.sized.line_lt addr)]
  have hclean : isDirty (c.tag addr) = false := by
    have hbit : (c.line addr).getLsbD 62 = false := by
      rw [← BitVec.testBit_toNat]
      exact Nat.testBit_lt_two_pow (H.sized.line_lt addr)
    rw [tag, isDirty_or_valid]
    exact hbit
  -- what is left when the victim is taken out
  have hrest : Shows c.geometry rest
      (held (if isValid victim then .evicted (lineOf victim) (isDirty victim) :: h else h)) ∧
        rest.countP (fun e => e.1 = (c.line addr).toNat % c.geometry.sets) < c.geometry.ways := by
    obtain hperm' | ⟨hinvalid, hperm', hroom⟩ := hold
    · have hshows := H.shows.perm hperm'
      refine ⟨?_, hshows.room⟩
      cases hvictim : isValid victim with
      | true =>
        rw [if_pos rfl, held_cons]
        exact hshows.drop hvictim
      | false =>
        rw [if_neg Bool.false_ne_true]
        exact hshows.drop_invalid hvictim
    · rw [hinvalid, if_neg Bool.false_ne_true]
      exact ⟨H.shows.perm hperm', hroom⟩
  have hnone' : held (if isValid victim then .evicted (lineOf victim) (isDirty victim) :: h else h)
      (c.line addr).toNat = none := by
    split
    · rw [held]
      split
      · rfl
      · exact hnone
    · exact hnone
  have hadd := hrest.1.add (s := (c.line addr).toNat % c.geometry.sets)
    (isValid_or_valid (c.line addr))
    (by rw [← tag, hline]; exact hnone') (by rw [← tag, hline]) hrest.2
  rw [← tag, hline, hclean] at hadd
  rw [hv.sizes.geometry_eq, held_cons]
  exact hadd.perm hperm.symm

/-- Counting does not touch the words. -/
theorem of_tags {c' : CacheSim} (s : SameSizes c c') (htags : c'.tags = c.tags) : Holds c' h := by
  refine ⟨s.wellSized H.sized, fun tags ht => ?_, ?_⟩
  · rw [s.sets, s.ways]
    exact H.keyed tags (htags ▸ ht)
  · have hslots : c'.slots = c.slots := by rw [slots, slots, htags, s.sets, s.ways]
    rw [s.geometry_eq, hslots]
    exact H.shows

end Holds

end CacheSim

end Nnemu

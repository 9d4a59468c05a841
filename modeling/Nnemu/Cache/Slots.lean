import Nnemu.Lib.History
import Nnemu.Sim.Cache
import Mathlib.Data.List.Perm.Basic

/-!
# Words and slots

A word of the tag store is a line number with two flags. `Shows` says that a list of slots, each
with the number of its set and its word, holds exactly the lines of a map to dirty flags: every line
at most once and in its own set. The order of the slots does not matter, so an operation of either
class is taking a slot out (`Shows.drop`) and putting one in (`Shows.add`).

The flags are the two highest bits of a word and the line number the rest, which needs that a line
number is not too large; `Geometry` is what a cache knows of its sets and lines. All arithmetic on
words is in the first part.
-/

namespace Nnemu

namespace CacheSim

/-! ### Words -/

/-- Is `VALID` set? -/
def isValid (w : Reg) : Bool := w.getLsbD 63

/-- Is `DIRTY` set? -/
def isDirty (w : Reg) : Bool := w.getLsbD 62

/-- The number of the line. -/
def lineOf (w : Reg) : Nat := (w &&& ~~~(valid ||| dirty)).toNat

theorem getLsbD_valid (i : Nat) : valid.getLsbD i = decide (i = 63) := by
  have h : valid = BitVec.twoPow 64 63 := rfl
  rw [h, BitVec.getLsbD_twoPow]
  simp [eq_comm]

theorem getLsbD_dirty (i : Nat) : dirty.getLsbD i = decide (i = 62) := by
  have h : dirty = BitVec.twoPow 64 62 := rfl
  rw [h, BitVec.getLsbD_twoPow]
  simp [eq_comm]

/-- Line numbers agree when the words agree below the flags. -/
theorem lineOf_congr {w w' : Reg} (h : ∀ i, i < 62 → w.getLsbD i = w'.getLsbD i) :
    lineOf w = lineOf w' := by
  refine congrArg BitVec.toNat (BitVec.eq_of_getLsbD_eq fun i hi => ?_)
  simp only [BitVec.getLsbD_and, BitVec.getLsbD_not, BitVec.getLsbD_or,
    getLsbD_valid, getLsbD_dirty]
  by_cases hlow : i < 62
  · rw [h i hlow]
  · have hflag : i = 63 ∨ i = 62 := by omega
    obtain rfl | rfl := hflag <;> simp

/-- A small number is the line of itself. -/
theorem lineOf_of_lt {l : Reg} (hl : l.toNat < 2 ^ 62) : lineOf l = l.toNat := by
  refine congrArg BitVec.toNat (BitVec.eq_of_getLsbD_eq fun i hi => ?_)
  simp only [BitVec.getLsbD_and, BitVec.getLsbD_not, BitVec.getLsbD_or,
    getLsbD_valid, getLsbD_dirty]
  by_cases hlow : i < 62
  · simp [hi, show i ≠ 63 by omega, show i ≠ 62 by omega]
  · have hbit : l.getLsbD i = false := by
      rw [← BitVec.testBit_toNat]
      exact Nat.testBit_lt_two_pow
        (Nat.lt_of_lt_of_le hl (Nat.pow_le_pow_right (by decide) (Nat.not_lt.1 hlow)))
    rw [hbit, Bool.false_and]

section Word

variable (w : Reg)

@[simp] theorem isValid_or_valid : isValid (w ||| valid) = true := by
  simp [isValid, getLsbD_valid]

@[simp] theorem isDirty_or_valid : isDirty (w ||| valid) = isDirty w := by
  rw [isDirty, isDirty, BitVec.getLsbD_or, getLsbD_valid]
  simp

@[simp] theorem lineOf_or_valid : lineOf (w ||| valid) = lineOf w :=
  lineOf_congr fun i hi => by simp [getLsbD_valid, show i ≠ 63 by omega]

@[simp] theorem isValid_or_dirty : isValid (w ||| dirty) = isValid w := by
  rw [isValid, isValid, BitVec.getLsbD_or, getLsbD_dirty]
  simp

@[simp] theorem isDirty_or_dirty : isDirty (w ||| dirty) = true := by
  simp [isDirty, getLsbD_dirty]

@[simp] theorem lineOf_or_dirty : lineOf (w ||| dirty) = lineOf w :=
  lineOf_congr fun i hi => by simp [getLsbD_dirty, show i ≠ 62 by omega]

@[simp] theorem isValid_and_not_dirty : isValid (w &&& ~~~dirty) = isValid w := by
  rw [isValid, isValid, BitVec.getLsbD_and, BitVec.getLsbD_not, getLsbD_dirty]
  simp

@[simp] theorem isDirty_and_not_dirty : isDirty (w &&& ~~~dirty) = false := by
  simp [isDirty, getLsbD_dirty]

@[simp] theorem lineOf_and_not_dirty : lineOf (w &&& ~~~dirty) = lineOf w :=
  lineOf_congr fun i hi => by
    rw [BitVec.getLsbD_and, BitVec.getLsbD_not, getLsbD_dirty,
      decide_eq_false (show i ≠ 62 by omega),
      decide_eq_true (show i < 64 by omega), Bool.not_false, Bool.and_true, Bool.and_true]

@[simp] theorem isValid_and_not_valid : isValid (w &&& ~~~valid) = false := by
  simp [isValid, getLsbD_valid]

/-- The test of the flag. -/
theorem hasBits_dirty : hasBits w dirty = isDirty w := by
  have h : dirty = BitVec.twoPow 64 62 := rfl
  rw [hasBits, isDirty, h, BitVec.and_twoPow]
  cases w.getLsbD 62 with
  | false => rfl
  | true => decide

/-- The test of both flags. -/
theorem both_flags : (w &&& (valid ||| dirty) == valid ||| dirty) = (isValid w && isDirty w) := by
  rw [Bool.eq_iff_iff, beq_iff_eq, Bool.and_eq_true]
  constructor
  · intro h
    have h63 := congrArg (·.getLsbD 63) h
    have h62 := congrArg (·.getLsbD 62) h
    simp only [BitVec.getLsbD_and, BitVec.getLsbD_or, getLsbD_valid, getLsbD_dirty] at h63 h62
    exact ⟨by simpa [isValid] using h63, by simpa [isDirty] using h62⟩
  · rintro ⟨h63, h62⟩
    apply BitVec.eq_of_getLsbD_eq
    intro i hi
    simp only [BitVec.getLsbD_and, BitVec.getLsbD_or, getLsbD_valid, getLsbD_dirty]
    by_cases h : i = 63
    · subst h
      rw [isValid] at h63
      simp [h63]
    · by_cases h' : i = 62
      · subst h'
        rw [isDirty] at h62
        simp [h62]
      · simp [h, h']

/-- What `check_tag` compares: a valid word of that line, dirty or not. -/
theorem tag_beq_iff {l : Reg} (hl : l.toNat < 2 ^ 62) :
    (l ||| valid == w &&& ~~~dirty) = true ↔ isValid w = true ∧ lineOf w = l.toNat := by
  rw [beq_iff_eq]
  constructor
  · intro h
    have hvalid : isValid (w &&& ~~~dirty) = true := by rw [← h, isValid_or_valid]
    have hline : lineOf (w &&& ~~~dirty) = l.toNat := by rw [← h, lineOf_or_valid, lineOf_of_lt hl]
    rw [isValid_and_not_dirty] at hvalid
    rw [lineOf_and_not_dirty] at hline
    exact ⟨hvalid, hline⟩
  · rintro ⟨hvalid, hline⟩
    have hword : w &&& ~~~(valid ||| dirty) = l := BitVec.eq_of_toNat_eq hline
    apply BitVec.eq_of_getLsbD_eq
    intro i hi
    rw [← hword]
    simp only [BitVec.getLsbD_and, BitVec.getLsbD_or, BitVec.getLsbD_not,
      getLsbD_valid, getLsbD_dirty]
    rw [isValid] at hvalid
    by_cases h : i = 63
    · subst h
      simp [hvalid]
    · simp [h]

end Word

/-! ### Slots -/

/-- The sizes of a cache. -/
structure Geometry where
  sets : Nat
  ways : Nat
  linesz : Nat

/-- The slots hold the lines of `m`, with their dirty flags. -/
structure Shows (g : Geometry) (slots : List (Nat × Reg)) (m : Nat → Option Bool) : Prop where
  /-- a line is in its own set -/
  own : ∀ e ∈ slots, isValid e.2 = true → e.1 = lineOf e.2 % g.sets
  /-- and in one slot at most -/
  once : slots.Pairwise fun a b => isValid a.2 = true → isValid b.2 = true → lineOf a.2 ≠ lineOf b.2
  held : ∀ l d, m l = some d ↔ ∃ e ∈ slots, isValid e.2 = true ∧ lineOf e.2 = l ∧ isDirty e.2 = d
  /-- a set has as many slots as there are ways -/
  fits : ∀ s, slots.countP (fun e => e.1 = s) ≤ g.ways

namespace Shows

variable {g : Geometry} {slots slots' rest : List (Nat × Reg)} {m : Nat → Option Bool}
  {s : Nat} {w : Reg}

/-- The order does not matter. -/
theorem perm (h : Shows g slots m) (hp : slots.Perm slots') : Shows g slots' m := by
  refine ⟨fun e he => h.own e (hp.mem_iff.2 he), ?_, fun l d => ?_, fun s => ?_⟩
  · refine (hp.pairwise_iff ?_).1 h.once
    intro a b hab hb ha
    exact (hab ha hb).symm
  · rw [h.held]
    exact exists_congr fun e => and_congr_left fun _ => hp.mem_iff
  · rw [← hp.countP_eq]
    exact h.fits s

/-- The line of a slot is held. -/
theorem held_of_mem (h : Shows g slots m) {e : Nat × Reg} (he : e ∈ slots)
    (hv : isValid e.2 = true) :
    m (lineOf e.2) = some (isDirty e.2) :=
  (h.held _ _).2 ⟨e, he, hv, rfl, rfl⟩

/-- A line that is not held is in no slot. -/
theorem not_valid_of_none (h : Shows g slots m) {l : Nat} (hl : m l = none)
    {e : Nat × Reg} (he : e ∈ slots)
    (hline : lineOf e.2 = l) : isValid e.2 ≠ true := by
  intro hv
  have := h.held_of_mem he hv
  rw [hline, hl] at this
  cases this

/-- There is room for a slot that was taken out. -/
theorem room (h : Shows g ((s, w) :: rest) m) : rest.countP (fun e => e.1 = s) < g.ways := by
  have hfits := h.fits s
  rw [List.countP_cons_of_pos (by simp)] at hfits
  omega

/-- Taking a valid slot out: its line is no longer held. -/
theorem drop (h : Shows g ((s, w) :: rest) m) (hw : isValid w = true) :
    Shows g rest (Function.update m (lineOf w) none) := by
  obtain ⟨hhead, honce⟩ := List.pairwise_cons.1 h.once
  refine ⟨fun e he => h.own e (List.mem_cons_of_mem _ he), honce, fun l d => ?_, fun t => ?_⟩
  · rw [Function.update_apply]
    by_cases hl : l = lineOf w
    · rw [if_pos hl]
      constructor
      · intro hnone
        cases hnone
      · rintro ⟨e, he, hv, hline, -⟩
        exact absurd (hl.symm.trans hline.symm) (hhead e he hw hv)
    · rw [if_neg hl, h.held]
      constructor
      · rintro ⟨e, he, hv, hline, hd⟩
        obtain rfl | he := List.mem_cons.1 he
        · exact absurd hline.symm hl
        · exact ⟨e, he, hv, hline, hd⟩
      · rintro ⟨e, he, hrest⟩
        exact ⟨e, List.mem_cons_of_mem _ he, hrest⟩
  · refine Nat.le_trans ?_ (h.fits t)
    exact (List.sublist_cons_self _ _).countP_le

/-- Taking out a slot that is not valid: nothing changes. -/
theorem drop_invalid (h : Shows g ((s, w) :: rest) m) (hw : isValid w = false) :
    Shows g rest m := by
  refine ⟨fun e he => h.own e (List.mem_cons_of_mem _ he), (List.pairwise_cons.1 h.once).2,
    fun l d => ?_, fun t => ?_⟩
  · rw [h.held]
    constructor
    · rintro ⟨e, he, hv, hline⟩
      obtain rfl | he := List.mem_cons.1 he
      · rw [hw] at hv
        cases hv
      · exact ⟨e, he, hv, hline⟩
    · rintro ⟨e, he, hrest⟩
      exact ⟨e, List.mem_cons_of_mem _ he, hrest⟩
  · refine Nat.le_trans ?_ (h.fits t)
    exact (List.sublist_cons_self _ _).countP_le

/-- Room is needed in the set of the slot only. -/
theorem fits_cons (h : Shows g rest m) (hroom : rest.countP (fun e => e.1 = s) < g.ways) (t : Nat) :
    ((s, w) :: rest).countP (fun e => e.1 = t) ≤ g.ways := by
  rw [List.countP_cons]
  by_cases ht : s = t
  · subst ht
    simpa using Nat.succ_le_of_lt hroom
  · simpa [ht] using h.fits t

/-- Putting in a slot of a line that is not held. -/
theorem add (h : Shows g rest m) (hw : isValid w = true) (hnone : m (lineOf w) = none)
    (hs : s = lineOf w % g.sets)
    (hroom : rest.countP (fun e => e.1 = s) < g.ways) :
    Shows g ((s, w) :: rest) (Function.update m (lineOf w) (some (isDirty w))) := by
  refine ⟨fun e he hv => ?_, List.pairwise_cons.2 ⟨fun e he _ hv hline => ?_, h.once⟩,
    fun l d => ?_, h.fits_cons hroom⟩
  · obtain rfl | he := List.mem_cons.1 he
    · exact hs
    · exact h.own e he hv
  · exact h.not_valid_of_none hnone he hline.symm hv
  · rw [Function.update_apply]
    by_cases hl : l = lineOf w
    · rw [if_pos hl]
      constructor
      · intro hd
        exact ⟨(s, w), List.mem_cons_self, hw, hl.symm, Option.some.inj hd⟩
      · rintro ⟨e, he, hv, hline, hd⟩
        obtain rfl | he := List.mem_cons.1 he
        · rw [← hd]
        · exact absurd hv (h.not_valid_of_none hnone he (hline.trans hl))
    · rw [if_neg hl, h.held]
      constructor
      · rintro ⟨e, he, hrest⟩
        exact ⟨e, List.mem_cons_of_mem _ he, hrest⟩
      · rintro ⟨e, he, hv, hline, hd⟩
        obtain rfl | he := List.mem_cons.1 he
        · exact absurd hline.symm hl
        · exact ⟨e, he, hv, hline, hd⟩

/-- Putting in a slot that is not valid. -/
theorem add_invalid (h : Shows g rest m) (hw : isValid w = false)
    (hroom : rest.countP (fun e => e.1 = s) < g.ways) : Shows g ((s, w) :: rest) m := by
  refine ⟨fun e he hv => ?_, List.pairwise_cons.2 ⟨fun e he hv => ?_, h.once⟩,
    fun l d => ?_, h.fits_cons hroom⟩
  · obtain rfl | he := List.mem_cons.1 he
    · rw [hw] at hv
      cases hv
    · exact h.own e he hv
  · rw [hw] at hv
    cases hv
  · rw [h.held]
    constructor
    · rintro ⟨e, he, hrest⟩
      exact ⟨e, List.mem_cons_of_mem _ he, hrest⟩
    · rintro ⟨e, he, hv, hline⟩
      obtain rfl | he := List.mem_cons.1 he
      · rw [hw] at hv
        cases hv
      · exact ⟨e, he, hv, hline⟩

/-- Storing another word of the same line. -/
theorem rewrite {w' : Reg} (h : Shows g ((s, w) :: rest) m) (hw : isValid w = true)
    (hw' : isValid w' = true)
    (hline : lineOf w' = lineOf w) :
    Shows g ((s, w') :: rest) (Function.update m (lineOf w) (some (isDirty w'))) := by
  have hown : s = lineOf w' % g.sets := by
    rw [hline]
    exact h.own (s, w) List.mem_cons_self hw
  have hadd := (h.drop hw).add hw' (by rw [hline, Function.update_self]) hown h.room
  rwa [hline, Function.update_idem] at hadd

/-- Storing a word that is not valid. -/
theorem invalidate {w' : Reg} (h : Shows g ((s, w) :: rest) m) (hw : isValid w = true)
    (hw' : isValid w' = false) :
    Shows g ((s, w') :: rest) (Function.update m (lineOf w) none) :=
  (h.drop hw).add_invalid hw' h.room

/-- The lines a set holds are as many as there are ways, at most. -/
theorem lines_le (h : Shows g slots m) (t : Nat) {ls : List Nat} (hnodup : ls.Nodup)
    (hls : ∀ l ∈ ls, (m l).isSome = true ∧ l % g.sets = t) : ls.length ≤ g.ways := by
  have hsubset : ls ⊆ (slots.filter fun e => e.1 = t).map fun e => lineOf e.2 := by
    intro l hl
    obtain ⟨hsome, ht⟩ := hls l hl
    obtain ⟨d, hd⟩ := Option.isSome_iff_exists.1 hsome
    obtain ⟨e, he, hv, hline, -⟩ := (h.held l d).1 hd
    refine List.mem_map.2 ⟨e, List.mem_filter.2 ⟨he, ?_⟩, hline⟩
    rw [decide_eq_true_iff, h.own e he hv, hline, ht]
  have hle := (List.subperm_of_subset hnodup hsubset).length_le
  rw [List.length_map, ← List.countP_eq_length_filter] at hle
  exact Nat.le_trans hle (h.fits t)

end Shows

end CacheSim

end Nnemu

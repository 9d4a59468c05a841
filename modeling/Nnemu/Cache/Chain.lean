import Nnemu.Cache.Run

/-!
# The cache simulator refines its specification

A call of either function is a step of the specification (`refines_step`), and from that every run
of every chain of constructed caches is a run of the chain of their specifications
(`cache_refines`). Two things are excluded: a cache without ways, which divides by zero, and the
invalidation of a line that a map holds, which keeps the entry and finds it again.

The chain is a stack in the sense of `Lib.Levels`, with the miss handler of a cache as the component
below. Which line an eviction takes is left open by the specification, so the pseudo-random choice
of the source needs no property. `Spares` is the condition on an invalidation, asked in the state it
finds.
-/

namespace Nnemu

namespace CacheSim

open History

variable {c : CacheSim} {addr : Reg} {h : List (Event Nat)}

/-! ### Ranges of lines -/

/-- The range of a `clean_invalidate` ends below `2 ^ 56`. The address of an access does not matter:
a line has eight bytes or more, so its number leaves room for the flags. -/
def Request.InRange : Request → Prop
  | .access _ _ _ => True
  | .cleanInvalidate addr bytes _ _ => addr.toNat + bytes.toNat ≤ 2 ^ 56

instance (r : Request) : Decidable r.InRange :=
  match r with
  | .access _ _ _ => isTrue trivial
  | .cleanInvalidate _ _ _ _ => inferInstanceAs (Decidable (_ ≤ _))

/-- The end of the range, rounded up to a line. -/
theorem endAddr_toNat (hsized : c.WellSized) {addr bytes : Reg}
    (hrange : addr.toNat + bytes.toNat ≤ 2 ^ 56) :
    ((addr + bytes + c.linesz - 1#64) &&& ~~~(c.linesz - 1#64)).toNat =
      (addr.toNat + bytes.toNat + c.linesz.toNat - 1) / c.linesz.toNat * c.linesz.toNat := by
  have hpow : c.linesz.toNat ≤ 2 ^ 63 := by
    rw [hsized.linesz]
    exact Nat.pow_le_pow_right (by decide) (Nat.le_of_lt_succ hsized.shift_lt)
  have hpos : 0 < c.linesz.toNat := by
    rw [hsized.linesz]
    exact Nat.two_pow_pos _
  have hsum : (addr + bytes + c.linesz - 1#64).toNat = addr.toNat + bytes.toNat +
      c.linesz.toNat - 1 := by
    rw [BitVec.toNat_sub, BitVec.toNat_add, BitVec.toNat_add, BitVec.toNat_ofNat]
    omega
  rw [hsized.align_toNat, hsum]

/-- The lines the loop goes through. -/
theorem lines_curAddrs (hsized : c.WellSized) {addr bytes : Reg}
    (hrange : addr.toNat + bytes.toNat ≤ 2 ^ 56) :
    ((c.curAddrs addr bytes).map fun a => (c.line a).toNat) =
      c.geometry.lines addr.toNat bytes.toNat := by
  have hpos : 0 < c.linesz.toNat := by
    rw [hsized.linesz]
    exact Nat.two_pow_pos _
  have hstart := hsized.align_toNat addr
  have hend := endAddr_toNat hsized hrange
  have hlast := ((addr + bytes + c.linesz - 1#64) &&& ~~~(c.linesz - 1#64)).isLt
  rw [curAddrs, Geometry.lines]
  dsimp only [geometry]
  generalize addr &&& ~~~(c.linesz - 1#64) = startAddr at hstart ⊢
  generalize (addr + bytes + c.linesz - 1#64) &&& ~~~(c.linesz - 1#64) = endAddr at hend hlast ⊢
  generalize (addr.toNat + bytes.toNat + c.linesz.toNat - 1) / c.linesz.toNat = e at hend ⊢
  generalize addr.toNat / c.linesz.toNat = s at hstart ⊢
  have hrounds : (if startAddr < endAddr then (endAddr - startAddr).toNat / c.linesz.toNat else 0) =
      e - s := by
    by_cases hlt : startAddr < endAddr
    · rw [if_pos hlt, BitVec.toNat_sub_of_le (Nat.le_of_lt hlt), hstart, hend, ← Nat.sub_mul,
        Nat.mul_div_cancel _ hpos]
    · have hle : e ≤ s := by
        rw [BitVec.lt_def, hstart, hend, Nat.not_lt] at hlt
        exact Nat.le_of_mul_le_mul_right hlt hpos
      rw [if_neg hlt, Nat.sub_eq_zero_of_le hle]
  rw [hrounds, List.map_map]
  refine List.map_congr_left fun i hi => ?_
  have hi' := List.mem_range.1 hi
  have hbelow : (s + i) * c.linesz.toNat < 2 ^ 64 := by
    have hmul : (s + i) * c.linesz.toNat ≤ e * c.linesz.toNat := Nat.mul_le_mul_right _ (by omega)
    omega
  have hmul : i * c.linesz.toNat ≤ (s + i) * c.linesz.toNat :=
    Nat.mul_le_mul_right _ (Nat.le_add_left i s)
  have hi64 : i < 2 ^ 64 := by
    have : i * 1 ≤ i * c.linesz.toNat := Nat.mul_le_mul_left _ hpos
    omega
  have haddr : (startAddr + BitVec.ofNat 64 i * c.linesz).toNat = (s + i) * c.linesz.toNat := by
    rw [BitVec.toNat_add, BitVec.toNat_mul, BitVec.toNat_ofNat, Nat.mod_eq_of_lt hi64,
      Nat.mod_eq_of_lt (a := i * c.linesz.toNat) (by omega), hstart, ← Nat.add_mul,
      Nat.mod_eq_of_lt hbelow]
  rw [Function.comp_apply, hsized.line_toNat, haddr, Nat.mul_div_cancel _ hpos]

/-! ### One call -/

/-- The cache has a way, and the request invalidates no line that a map holds. -/
def Allows (c : CacheSim) (r : Request) : Prop :=
  c.ways ≠ 0#64 ∧
    match r with
    | .access _ _ _ => True
    | .cleanInvalidate addr bytes _ inval => c.Spares inval (c.curAddrs addr bytes)

instance (c : CacheSim) (r : Request) : Decidable (c.Allows r) :=
  match r with
  | .access _ _ _ => inferInstanceAs (Decidable (_ ∧ True))
  | .cleanInvalidate _ _ _ _ => inferInstanceAs (Decidable (_ ∧ Spares _ _ _))

/-- What a refining cache holds and counts. -/
theorem Refines.holds {a : Spec} (hr : Refines c a) : Holds c a.history ∧ Counted c a.history :=
  ⟨⟨hr.sized, hr.keyed, hr.shows⟩, hr.writebacks⟩

/-- And back. -/
theorem Holds.refines (H : Holds c h) (hc : Counted c h) {g : Geometry} (hg : g = c.geometry) :
    Refines c ⟨g, h⟩ := by
  subst hg
  exact Refines.of_shows H.sized H.keyed H.shows hc

theorem not_present_of_none {l : Nat} (hnone : held h l = none) : ¬ Present h l := by
  intro hpresent
  rw [← held_isSome_iff, hnone] at hpresent
  cases hpresent

/-- The requests of a miss. -/
theorem inRange_fill (g : Geometry) (l : Nat) (victim : Reg) :
    ∀ r ∈ fillRequests g l victim, r.InRange := by
  intro r hr
  rw [fillRequests, writeback] at hr
  obtain hr | hr := List.mem_append.1 hr
  · split at hr
    · rw [List.mem_singleton.1 hr]
      trivial
    · cases hr
  · rw [List.mem_singleton.1 hr]
    trivial

/-- **A call is a step of the specification.** -/
theorem refines_step (c : CacheSim) (a : Spec) (r : Request) (hr : Refines c a)
    (hallows : c.Allows r) (hrange : r.InRange) :
    ∃ c' a' sent, c.step r = some (c', sent) ∧ Serves a r a' sent ∧ Refines c' a' ∧
    ∀ r' ∈ sent, r'.InRange := by
  obtain ⟨H, hc⟩ := hr.holds
  obtain ⟨g, h⟩ := a
  have hg : g = c.geometry := hr.geometry
  subst hg
  obtain ⟨hways, hallows⟩ := hallows
  cases r with
  | cleanInvalidate addr bytes clean inval =>
    obtain ⟨hsizes, H', hc'⟩ := cleanLoop_spec clean inval _ c h H hc hallows
    rw [lines_curAddrs H.sized hrange] at H' hc'
    refine ⟨_, _, _, rfl, .cleanInvalidate, H'.refines hc' hsizes.geometry_eq.symm,
      fun r' hr' => ?_⟩
    rw [List.mem_singleton.1 hr']
    exact hrange
  | access addr bytes store =>
    have hline : (c.line addr).toNat = addr.toNat / c.geometry.linesz := H.sized.line_toNat addr
    cases hk : c.checkTag addr with
    | some k =>
      obtain ⟨c', sent, hstep, rfl, hsizes, H', hc'⟩ := access_hit H hc bytes store hk
      have hpresent : Present h (addr.toNat / c.geometry.linesz) := by
        rw [← hline, ← held_isSome_iff, H.held_of_some hk]
        rfl
      rw [hline] at H' hc'
      exact ⟨c', _, [], hstep, .hit hpresent, H'.refines hc' hsizes.geometry_eq.symm,
        fun r' hr' => by cases hr'⟩
    | none =>
      obtain ⟨c', victim, hstep, hsizes, hvictim, H', hc'⟩ := access_miss H hc hways bytes store hk
      have habsent := not_present_of_none (H.held_of_none hk)
      refine ⟨c', ⟨c.geometry, written store (addr.toNat / c.geometry.linesz)
        (filled (addr.toNat / c.geometry.linesz) victim h)⟩, _, hstep, ?_, ?_, inRange_fill _ _ _⟩
      · rw [hline] at habsent hvictim ⊢
        cases hvalid : isValid victim with
        | true =>
          obtain ⟨hheld, hset⟩ := hvictim hvalid
          rw [filled, hvalid, if_pos rfl, fillRequests, hvalid, Bool.true_and]
          exact .evict habsent hheld hset
        | false =>
          rw [filled, hvalid, if_neg Bool.false_ne_true, fillRequests, hvalid, Bool.false_and]
          exact .fill habsent
      · rw [hline] at H' hc'
        exact H'.refines hc' hsizes.geometry_eq.symm

/-! ### Construction -/

/-- The test for a power of two. -/
theorem exists_pow_of_and {x : Reg} (hne : x ≠ 0#64) (hand : x &&& (x - 1#64) = 0#64) :
    ∃ n, x.toNat = 2 ^ n := by
  have hpos : x.toNat ≠ 0 := fun h => hne (BitVec.eq_of_toNat_eq h)
  have hsub : (x - 1#64).toNat = x.toNat - 1 := by
    rw [BitVec.toNat_sub_of_le (by rw [BitVec.le_def]; exact Nat.pos_of_ne_zero hpos)]
    rfl
  have hnat := congrArg BitVec.toNat hand
  rw [BitVec.toNat_and, hsub] at hnat
  exact (Nat.and_sub_one_eq_zero_iff_isPowerOfTwo hpos).1 hnat

/-- The value of an `int` as a size. -/
theorem sizeT_toNat (x : BitVec 32) : (sizeT x).toNat = x.toNat + if x.msb then 2 ^ 64 - 2 ^ 32
    else 0 := by
  rw [sizeT, BitVec.toNat_signExtend, BitVec.toNat_setWidth,
    Nat.mod_eq_of_lt (Nat.lt_trans x.isLt (by decide))]

/-- The number of words that is allocated does not wrap around. -/
theorem words_of_sizes {x y : BitVec 32} (hpow : ∃ n, (sizeT x).toNat = 2 ^ n)
    (hwords : ¬ maxWords < sizeT x * sizeT y) :
    (sizeT x * sizeT y).toNat = (sizeT x).toNat * (sizeT y).toNat := by
  obtain ⟨n, hn⟩ := hpow
  have hpos : 0 < 2 ^ n := Nat.two_pow_pos n
  have hlt := (sizeT x).isLt
  have hmax : maxWords.toNat = 2 ^ 60 - 1 := by decide
  rw [BitVec.lt_def, hmax, Nat.not_lt, BitVec.toNat_mul] at hwords
  rw [BitVec.toNat_mul]
  have hx := sizeT_toNat x
  have hy := sizeT_toNat y
  have hxlt := x.isLt
  have hylt := y.isLt
  -- a power of two is not the size of a negative number
  have hsmall : (sizeT x).toNat < 2 ^ 31 := by
    cases hmsb : x.msb with
    | true =>
      have hge := BitVec.msb_eq_true_iff_two_mul_ge.1 hmsb
      rw [hmsb, if_pos rfl] at hx
      have hn63 : n ≤ 63 := by
        by_contra hn64
        have : 2 ^ 64 ≤ 2 ^ n := Nat.pow_le_pow_right (by decide) (by omega)
        omega
      have : 2 ^ n ≤ 2 ^ 63 := Nat.pow_le_pow_right (by decide) hn63
      omega
    | false =>
      have hlt' := BitVec.msb_eq_false_iff_two_mul_lt.1 hmsb
      rw [hmsb, if_neg Bool.false_ne_true] at hx
      omega
  cases hmsb : y.msb with
  | true =>
    have hge := BitVec.msb_eq_true_iff_two_mul_ge.1 hmsb
    rw [hmsb, if_pos rfl] at hy
    obtain ⟨v, hv, hv31⟩ : ∃ v, (sizeT y).toNat + v = 2 ^ 64 ∧ v ≤ 2 ^ 31 :=
      ⟨2 ^ 64 - (sizeT y).toNat, by omega, by omega⟩
    exfalso
    generalize (sizeT x).toNat = s at *
    generalize (sizeT y).toNat = w at *
    have hsv : s * v ≤ 2 ^ 62 :=
      Nat.le_trans (Nat.mul_le_mul (Nat.le_of_lt hsmall) hv31) (by decide)
    have hsum : s * w + s * v = s * 2 ^ 64 := by rw [← Nat.mul_add, hv]
    obtain ⟨t, rfl⟩ : ∃ t, s = t + 1 := ⟨s - 1, by omega⟩
    have hsplit : (t + 1) * w = t * 2 ^ 64 + (2 ^ 64 - (t + 1) * v) := by
      rw [Nat.add_mul t 1 (2 ^ 64)] at hsum
      omega
    have hprod : 0 < (t + 1) * v := Nat.mul_pos (Nat.succ_pos t) (by omega)
    rw [hsplit, Nat.mul_comm t, Nat.mul_add_mod, Nat.mod_eq_of_lt (by omega)] at hwords
    omega
  | false =>
    have hlt' := BitVec.msb_eq_false_iff_two_mul_lt.1 hmsb
    rw [hmsb, if_neg Bool.false_ne_true] at hy
    have hprod : (sizeT x).toNat * (sizeT y).toNat ≤ 2 ^ 31 * 2 ^ 31 :=
      Nat.mul_le_mul (by omega) (by omega)
    exact Nat.mod_eq_of_lt (Nat.lt_of_le_of_lt hprod (by decide))

/-- Slots without valid words. -/
theorem shows_empty {g : Geometry} {slots : List (Nat × Reg)}
    (hinvalid : ∀ e ∈ slots, isValid e.2 = false)
    (hfits : ∀ s, slots.countP (fun e => e.1 = s) ≤ g.ways) : Shows g slots (held []) := by
  have hno : ∀ e ∈ slots, isValid e.2 ≠ true := fun e he hv => by
    rw [hinvalid e he] at hv
    cases hv
  refine ⟨fun e he hv => absurd hv (hno e he), ?_, fun l d => ⟨fun hd => (by cases hd), ?_⟩, hfits⟩
  · exact List.pairwise_of_forall_mem_list fun a ha _ _ hv => absurd hv (hno a ha)
  · rintro ⟨e, he, hv, -⟩
    exact absurd hv (hno e he)

/-- A set has `ways` words of the array. -/
theorem countP_array (tags : Nat → Reg) (sets ways s : Nat) :
    ((List.range (sets * ways)).map fun k => (k / ways, tags k)).countP (fun e => e.1 = s) ≤
      ways := by
  rw [List.countP_map, List.countP_eq_length_filter]
  have hsubset : ((List.range (sets * ways)).filter
      ((fun e : Nat × Reg => decide (e.1 = s)) ∘ fun k => (k / ways, tags k))) ⊆ List.range'
        (s * ways) ways := by
    intro k hk
    obtain ⟨hrange, hdiv⟩ := List.mem_filter.1 hk
    have hpos : 0 < ways := by
      rw [Nat.pos_iff_ne_zero]
      rintro rfl
      exact absurd hrange List.not_mem_nil
    have hset : k / ways = s := of_decide_eq_true hdiv
    rw [List.mem_range'_1, ← hset]
    exact ⟨Nat.div_mul_le_self k ways, Nat.lt_div_mul_add hpos⟩
  have hle := (List.subperm_of_subset (List.nodup_range.filter _) hsubset).length_le
  rwa [List.length_range'] at hle

/-- What `init` accepts. -/
theorem init_eq_some {sets ways linesz : Reg} {tags : Tags}
    (hinit : init sets ways linesz tags = some c) :
    (∃ n, sets.toNat = 2 ^ n) ∧ (∃ n, linesz.toNat = 2 ^ n) ∧ 8 ≤ linesz.toNat ∧
    ¬ maxWords < sets * ways ∧
      c = ⟨sets, ways, linesz, linesz.toNat.log2, 1#32, tags,
        ⟨0#64, 0#64, 0#64, 0#64, 0#64, 0#64, 0#64⟩⟩ := by
  rw [init] at hinit
  split at hinit
  · cases hinit
  · rename_i hsets
    rw [not_or, not_not] at hsets
    split at hinit
    · cases hinit
    · rename_i hlinesz
      rw [not_or, not_not, BitVec.not_lt, BitVec.le_def] at hlinesz
      split at hinit
      · cases hinit
      · rename_i hwords
        have hne : linesz ≠ 0#64 := by
          rintro rfl
          exact absurd hlinesz.1 (by decide)
        exact ⟨exists_pow_of_and hsets.1 hsets.2, exists_pow_of_and hne hlinesz.2,
          hlinesz.1, hwords,
          (Option.some.inj hinit).symm⟩

/-- A cache that was just constructed is empty. -/
theorem refines_init {sets ways linesz : Reg} {tags : Tags}
    (hinit : init sets ways linesz tags = some c)
    (hwords : (sets * ways).toNat = sets.toNat * ways.toNat)
    (htags : tags = .array (fun _ => 0#64) ∨ tags = .map [] ∧ sets = 1#64) :
    Refines c ⟨c.geometry, []⟩ := by
  obtain ⟨hsets, ⟨n, hn⟩, hlinesz, -, rfl⟩ := init_eq_some hinit
  have hlog : linesz.toNat.log2 = n := by rw [hn, Nat.log2_two_pow]
  have hthree : 3 ≤ n := by
    by_contra hlt
    have : 2 ^ n ≤ 2 ^ 2 := Nat.pow_le_pow_right (by decide) (by omega)
    omega
  refine Refines.of_shows ⟨hsets, ?_, ?_, hwords⟩ ?_ ?_ rfl
  · rw [hlog]
    exact hn
  · rw [hlog]
    exact hthree
  · intro tags' htags'
    obtain rfl | ⟨rfl, hone⟩ := htags
    · cases htags'
    · cases htags'
      exact ⟨hone, Nat.zero_le _, fun e he => absurd he List.not_mem_nil⟩
  · obtain rfl | ⟨rfl, -⟩ := htags
    · refine shows_empty (fun e he => ?_) fun s => countP_array _ _ _ s
      obtain ⟨k, -, rfl⟩ := List.mem_map.1 he
      change isValid 0#64 = false
      decide
    · exact shows_empty (fun e he => absurd he List.not_mem_nil) fun s => Nat.zero_le _

/-- Whatever string is accepted, the cache is empty. -/
theorem refines_construct {config : List Char} (hconstruct : construct config = some c) :
    Refines c ⟨c.geometry, []⟩ := by
  have hsizes : ∃ x y z, ofSizes (sizeT x) (sizeT y) (sizeT z) = some c := by
    rw [construct] at hconstruct
    split at hconstruct
    · cases hconstruct
    · split at hconstruct
      · cases hconstruct
      · exact ⟨_, _, _, hconstruct⟩
  obtain ⟨x, y, z, hsizes⟩ := hsizes
  rw [ofSizes] at hsizes
  split at hsizes
  · exact refines_init hsizes (by rw [BitVec.one_mul]; exact (Nat.one_mul _).symm) (.inr ⟨rfl, rfl⟩)
  · obtain ⟨hsets, -, -, hwords, -⟩ := init_eq_some hsizes
    exact refines_init hsizes (words_of_sizes hsets hwords) (.inl rfl)

/-! ### Runs -/

/-- A run of a chain of caches, none of which has been used, does not fail, and is a run of their
specifications. -/
def RefinesRun (n : Nat) (cs : Levels.Stack CacheSim n) (rs : List Request) : Prop :=
  ∃ cs' as', Levels.serveAll step n cs rs = some cs' ∧
    Levels.Steps (Levels.Spec Serves n) (Levels.map (fun c => ⟨c.geometry, []⟩) n cs) rs as' ∧
    Levels.Related Refines n cs' as'

/-- **The cache simulator refines its specification**, over every run of every chain of constructed
caches, as long as each of them has a way and no request, of the run or passed down, invalidates a
line that a map holds. The hits, the misses, the writebacks and what is passed down are those of
histories in which lines come and go. -/
theorem cache_refines (n : Nat) (cs : Levels.Stack CacheSim n)
    (hconstructed : Levels.Each (fun c => ∃ config, construct config = some c) n cs)
    (rs : List Request)
    (hrange : ∀ r ∈ rs, r.InRange)
    (hallowed : Levels.Allowed (Levels.serve step n) (Levels.Ok step Allows n) cs rs) :
    RefinesRun n cs rs := by
  have hinit := Levels.Related.of_each (f := fun c => (⟨c.geometry, []⟩ : Spec))
    (fun c ⟨_, hc⟩ => refines_construct hc) n cs hconstructed
  exact Levels.simulates_all refines_step n rs cs _ hinit hallowed hrange

/-- A cache of one set with one way and lines of eight bytes. -/
def smallCache : CacheSim :=
  ⟨1#64, 1#64, 8#64, 3, 1#32, .array fun _ => 0#64, ⟨0#64, 0#64, 0#64, 0#64, 0#64, 0#64, 0#64⟩⟩

/-- One on top of another one. -/
def smallChain : Levels.Stack CacheSim 2 :=
  (smallCache, smallCache, PUnit.unit)

/-- A store misses, a load hits, a store evicts the dirty line, and the other line is written back
and invalidated. -/
def smallRun : List Request :=
  [.access 0#64 4#64 true, .access 4#64 4#64 false, .access 8#64 4#64 true,
    .cleanInvalidate 8#64 4#64 true true]

theorem cache_refines_smallRun : RefinesRun 2 smallChain smallRun ∧
    (Levels.serveAll step 2 smallChain smallRun).map (fun cs => cs.1.counters.writebacks) =
      some 2#64 :=
  ⟨cache_refines 2 smallChain
    ⟨⟨['1', ':', '1', ':', '8'], rfl⟩, ⟨['1', ':', '1', ':', '8'], rfl⟩, trivial⟩ smallRun
    (by decide) (by decide +kernel), by decide +kernel⟩

/-- A cache of one set without ways, which `construct` accepts. -/
def noWays : CacheSim :=
  ⟨1#64, 0#64, 64#64, 6, 1#32, .array fun _ => 0#64, ⟨0#64, 0#64, 0#64, 0#64, 0#64, 0#64, 0#64⟩⟩

/-- Its first access divides by zero. -/
theorem cache_refines_noWays : construct ['1', ':', '0', ':', '6', '4'] = some noWays ∧
    ¬ RefinesRun 1 (noWays, PUnit.unit) [.access 0#64 4#64 false] := by
  refine ⟨rfl, ?_⟩
  rintro ⟨cs', as', hserve, -⟩
  cases hserve

/-- The map finds a line again that it has invalidated. -/
example : ((init 1#64 8#64 64#64 (.map [])).bind fun c => (c.access 0#64 4#64 false).map fun p =>
    ((p.1.cleanInvalidate 0#64 4#64 false true).1.checkTag 0#64).isSome) = some true := by
  rfl

end CacheSim

end Nnemu

import Nnemu.Cache.Slots
import Nnemu.Lib.Bits
import Nnemu.Lib.Levels

/-!
# What a cache is for

A cache is a history of lines that come and go. An access hits when its line is present, that is was
brought in by an earlier access and neither evicted nor invalidated since; otherwise it brings the
line in, and may evict another line of the same set, whichever. An evicted line that is dirty is
written back to the level below. `Refines` relates the caches of the simulator to this, and
`serves_of_step` says that one call of either function is a step of it.
-/

namespace Nnemu

namespace CacheSim

open History

/-- A cache as its sizes and its history. -/
structure Spec where
  geometry : Geometry
  history : List (Event Nat)

namespace Geometry

variable (g : Geometry)

/-- The address of a line. -/
def address (l : Nat) : Reg := BitVec.ofNat 64 (l * g.linesz)

/-- The number of a line as a word. -/
def size : Reg := BitVec.ofNat 64 g.linesz

/-- The lines of a range of bytes. -/
def lines (addr bytes : Nat) : List Nat :=
  (List.range ((addr + bytes + g.linesz - 1) / g.linesz - addr / g.linesz)).map fun i =>
    addr / g.linesz + i

end Geometry

/-- The event of a store. -/
def written (store : Bool) (l : Nat) (h : List (Event Nat)) : List (Event Nat) :=
  if store then .wrote l :: h else h

/-- The events of cleaning and invalidating one line. -/
def cleaned (clean inval : Bool) (h : List (Event Nat)) (l : Nat) : List (Event Nat) :=
  if (held h l).isSome then
    let h := if clean && (held h l == some true) then .cleaned l :: h else h
    if inval then .invalidated l :: h else h
  else h

/-- The requests for the writeback of a victim. -/
def writeback (g : Geometry) (v : Nat) (isDirty : Bool) : List Request :=
  if isDirty then [.access (g.address v) g.size true] else []

/-- What a cache does with a request: the history afterwards, and what it asks of the level
below. -/
inductive Serves : Spec → Request → Spec → List Request → Prop where
  | hit {g : Geometry} {h : List (Event Nat)} {addr bytes : Reg} {store : Bool}
      (hpresent : Present h (addr.toNat / g.linesz)) :
      Serves ⟨g, h⟩ (.access addr bytes store) ⟨g, written store (addr.toNat / g.linesz) h⟩ []
  | fill {g : Geometry} {h : List (Event Nat)} {addr bytes : Reg} {store : Bool}
      (habsent : ¬ Present h (addr.toNat / g.linesz)) :
      Serves ⟨g, h⟩ (.access addr bytes store)
        ⟨g, written store (addr.toNat / g.linesz) (.brought (addr.toNat / g.linesz) :: h)⟩
        [.access (g.address (addr.toNat / g.linesz)) g.size false]
  | evict {g : Geometry} {h : List (Event Nat)} {addr bytes : Reg} {store : Bool}
      {v : Nat} {isDirty : Bool}
      (habsent : ¬ Present h (addr.toNat / g.linesz)) (hvictim : held h v = some isDirty)
      (hset : v % g.sets = addr.toNat / g.linesz % g.sets) :
      Serves ⟨g, h⟩ (.access addr bytes store)
        ⟨g, written store (addr.toNat / g.linesz)
          (.brought (addr.toNat / g.linesz) :: .evicted v isDirty :: h)⟩
        (writeback g v isDirty ++ [.access (g.address (addr.toNat / g.linesz)) g.size false])
  | cleanInvalidate {g : Geometry} {h : List (Event Nat)} {addr bytes : Reg} {clean inval : Bool} :
      Serves ⟨g, h⟩ (.cleanInvalidate addr bytes clean inval)
        ⟨g, (g.lines addr.toNat bytes.toNat).foldl (cleaned clean inval) h⟩
          [.cleanInvalidate addr bytes clean inval]

variable (c : CacheSim)

/-- The slots of a cache: the words of the array with their sets, or the entries of the map, which
are one set. -/
def slots : List (Nat × Reg) :=
  match c.tags with
  | .array tags => (List.range (c.sets.toNat * c.ways.toNat)).map fun k =>
    (k / c.ways.toNat, tags k)
  | .map tags => tags.map fun e => (0, e.2)

/-- The sizes of a cache. -/
def geometry : Geometry := ⟨c.sets.toNat, c.ways.toNat, c.linesz.toNat⟩

/-- The sizes are those of a cache that was constructed. -/
structure WellSized : Prop where
  sets : ∃ n, c.sets.toNat = 2 ^ n
  linesz : c.linesz.toNat = 2 ^ c.idxShift
  shift : 3 ≤ c.idxShift
  /-- the array has a word for every way -/
  words : (c.sets * c.ways).toNat = c.sets.toNat * c.ways.toNat

/-- Every entry of the map is the line of its key. -/
def Keyed : Prop :=
  ∀ tags, c.tags = .map tags →
    c.sets = 1#64 ∧ tags.length ≤ c.ways.toNat ∧ ∀ e ∈ tags, isValid e.2 = true ∧
      lineOf e.2 = e.1.toNat

/-- A cache of the simulator and what it stands for. -/
structure Refines (a : Spec) : Prop where
  geometry : a.geometry = c.geometry
  sized : c.WellSized
  keyed : c.Keyed
  /-- each line at most once, in its own set; the valid words are the lines that are present -/
  shows : Shows c.geometry c.slots (held a.history)
  /-- a set never holds more lines than there are ways -/
  lines : ∀ s (ls : List Nat), ls.Nodup →
    (∀ l ∈ ls, Present a.history l ∧ l % c.geometry.sets = s) →
    ls.length ≤ c.geometry.ways
  writebacks : c.counters.writebacks = BitVec.ofNat 64 (writebacks a.history)

variable {c}

/-- `Refines` from what is not a consequence of the slots. -/
theorem Refines.of_shows {h : List (Event Nat)} (hsized : c.WellSized) (hkeyed : c.Keyed)
    (hshows : Shows c.geometry c.slots (held h))
    (hwb : c.counters.writebacks = BitVec.ofNat 64 (History.writebacks h)) :
    Refines c ⟨c.geometry, h⟩ := by
  refine ⟨rfl, hsized, hkeyed, hshows, fun s ls hnodup hls => ?_, hwb⟩
  exact hshows.lines_le s hnodup fun l hl => ⟨(held_isSome_iff h l).2 (hls l hl).1, (hls l hl).2⟩

/-! ### Addresses -/

namespace WellSized

variable (h : c.WellSized) (addr : Reg)

include h

theorem shift_lt : c.idxShift < 64 := by
  by_contra hge
  have hlt := c.linesz.isLt
  have hpow : 2 ^ 64 ≤ 2 ^ c.idxShift := Nat.pow_le_pow_right (by decide) (Nat.not_lt.1 hge)
  rw [h.linesz] at hlt
  omega

/-- The line of an address. -/
theorem line_toNat : (c.line addr).toNat = addr.toNat / c.linesz.toNat := by
  rw [line, BitVec.toNat_ushiftRight, Nat.shiftRight_eq_div_pow, h.linesz]

/-- A line number leaves room for the flags. -/
theorem line_lt : (c.line addr).toNat < 2 ^ 62 := by
  have hpow : 2 ^ 3 ≤ c.linesz.toNat := by
    rw [h.linesz]
    exact Nat.pow_le_pow_right (by decide) h.shift
  rw [h.line_toNat]
  refine Nat.lt_of_le_of_lt (Nat.div_le_div_left hpow (by decide)) ?_
  have hlt := addr.isLt
  omega

/-- The set of an address. -/
theorem idx_eq : c.idx addr = (c.line addr).toNat % c.sets.toNat := by
  obtain ⟨n, hn⟩ := h.sets
  have hpos : 0 < 2 ^ n := Nat.two_pow_pos n
  have hlt := c.sets.isLt
  have hsub : (c.sets - 1#64).toNat = 2 ^ n - 1 := by
    rw [BitVec.toNat_sub_of_le (by rw [BitVec.le_def, hn]; exact hpos), hn]
    rfl
  rw [idx, BitVec.toNat_and, hsub, Nat.and_two_pow_sub_one_eq_mod, hn]

theorem linesz_sub_one : c.linesz - 1#64 = Bits.lowMask 64 c.idxShift := by
  have hone : c.linesz = 1#64 <<< c.idxShift := by
    apply BitVec.eq_of_toNat_eq
    rw [h.linesz, Bits.toNat_one_shiftLeft h.shift_lt]
  rw [hone, Bits.one_shiftLeft_sub_one h.shift_lt]

/-- The address of the line of an address. -/
theorem align_toNat : (addr &&& ~~~(c.linesz - 1#64)).toNat =
    addr.toNat / c.linesz.toNat * c.linesz.toNat := by
  rw [h.linesz_sub_one, Bits.toNat_and_not_lowMask, h.linesz]

theorem align_eq :
    addr &&& ~~~(c.linesz - 1#64) = c.geometry.address (addr.toNat / c.linesz.toNat) := by
  apply BitVec.eq_of_toNat_eq
  rw [h.align_toNat, Geometry.address, BitVec.toNat_ofNat]
  exact (Nat.mod_eq_of_lt (Nat.lt_of_le_of_lt (Nat.div_mul_le_self _ _) addr.isLt)).symm

/-- The address of a victim. -/
theorem dirtyAddr_eq (w : Reg) : (w &&& ~~~(valid ||| dirty)) <<< c.idxShift =
    c.geometry.address (lineOf w) := by
  apply BitVec.eq_of_toNat_eq
  rw [BitVec.toNat_shiftLeft, Nat.shiftLeft_eq, Geometry.address, BitVec.toNat_ofNat,
    lineOf, geometry, h.linesz]

end WellSized

end CacheSim

end Nnemu

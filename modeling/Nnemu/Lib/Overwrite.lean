import Mathlib.Tactic.Ring

/-!
# Ranges of a memory

A memory gives a value to each address of `w` bits. A range starts anywhere and may wrap around, so
a place in it is found by subtraction.
-/

namespace Overwrite

variable {w : Nat} {β : Type}

/-- What a range holds. -/
def slice (m : BitVec w → β) (addr : BitVec w) (n : Nat) : List β :=
  (List.range n).map fun i => m (addr + BitVec.ofNat w i)

/-- The memory with other values in a range. -/
def overwrite (m : BitVec w → β) (addr : BitVec w) (xs : List β) : BitVec w → β := fun a =>
  (xs[(a - addr).toNat]?).getD (m a)

variable {m : BitVec w → β} {addr a : BitVec w} {xs ys : List β} {x y n off : Nat}

/-! ### Slices -/

@[simp] theorem length_slice : (slice m addr n).length = n := by
  rw [slice, List.length_map, List.length_range]

theorem getElem?_slice {i : Nat} (h : i < n) :
    (slice m addr n)[i]? = some (m (addr + BitVec.ofNat w i)) := by
  rw [slice, List.getElem?_map, List.getElem?_range h, Option.map_some]

@[simp] theorem slice_zero : slice m addr 0 = [] := rfl

theorem slice_add : slice m addr (x + y) = slice m addr x ++
    slice m (addr + BitVec.ofNat w x) y := by
  rw [slice, List.range_add, List.map_append, List.map_map, slice, slice]
  refine congrArg _ (List.map_congr_left fun i _ => ?_)
  rw [Function.comp_apply, BitVec.ofNat_add, BitVec.add_assoc]

theorem drop_slice : (slice m addr n).drop x = slice m (addr + BitVec.ofNat w x) (n - x) := by
  by_cases h : x ≤ n
  · obtain ⟨y, rfl⟩ := Nat.exists_eq_add_of_le h
    rw [slice_add, List.drop_append_of_le_length (by rw [length_slice]),
      List.drop_of_length_le (by rw [length_slice]),
      List.nil_append, Nat.add_sub_cancel_left]
  · rw [List.drop_of_length_le (by rw [length_slice]; omega),
      Nat.sub_eq_zero_of_le (Nat.le_of_not_le h), slice_zero]

theorem take_slice (h : x ≤ n) : (slice m addr n).take x = slice m addr x := by
  obtain ⟨y, rfl⟩ := Nat.exists_eq_add_of_le h
  rw [slice_add, List.take_append_of_le_length (by rw [length_slice]),
    List.take_of_length_le (by rw [length_slice])]

/-! ### Overwriting -/

/-- An address is its place in the range. -/
theorem add_ofNat_sub (a addr : BitVec w) : addr + BitVec.ofNat w (a - addr).toNat = a := by
  rw [BitVec.ofNat_toNat, BitVec.setWidth_eq, BitVec.add_comm, BitVec.sub_add_cancel]

/-- The place of an address in the range. -/
theorem toNat_sub_ofNat {i : Nat} (hi : i < 2 ^ w) :
    (addr + BitVec.ofNat w i - addr).toNat = i := by
  rw [BitVec.add_comm, BitVec.add_sub_cancel, BitVec.toNat_ofNat, Nat.mod_eq_of_lt hi]

/-- The place of an address, seen from further on. -/
theorem toNat_sub_add (hoff : off < 2 ^ w) : (a - (addr + BitVec.ofNat w off)).toNat =
    if off ≤ (a - addr).toNat then (a - addr).toNat - off
      else 2 ^ w - (off - (a - addr).toNat) := by
  have hsub : a - (addr + BitVec.ofNat w off) = a - addr - BitVec.ofNat w off := by
    rw [BitVec.sub_sub]
  have hlt := (a - addr).isLt
  rw [hsub, BitVec.toNat_sub, BitVec.toNat_ofNat, Nat.mod_eq_of_lt hoff]
  split
  · rename_i hle
    have heq : 2 ^ w - off + (a - addr).toNat = 2 ^ w + ((a - addr).toNat - off) := by omega
    rw [heq, Nat.add_mod_left, Nat.mod_eq_of_lt (by omega)]
  · rw [Nat.mod_eq_of_lt (by omega)]
    omega

/-- **An overwritten range**, seen from an address before it. -/
theorem overwrite_add (hoff : off < 2 ^ w) (h : off + xs.length ≤ 2 ^ w) :
    overwrite m (addr + BitVec.ofNat w off) xs a =
      if off ≤ (a - addr).toNat then (xs[(a - addr).toNat - off]?).getD (m a) else m a := by
  rw [overwrite, toNat_sub_add hoff]
  split
  · rfl
  · rw [List.getElem?_eq_none (by omega), Option.getD_none]

/-- What was written is there. -/
theorem slice_overwrite (h : xs.length ≤ 2 ^ w) :
    slice (overwrite m addr xs) addr xs.length = xs := by
  refine List.ext_getElem? fun i => ?_
  by_cases hi : i < xs.length
  · have hlt := Nat.lt_of_lt_of_le hi h
    rw [getElem?_slice hi, overwrite, toNat_sub_ofNat hlt, List.getElem?_eq_getElem hi,
      Option.getD_some]
  · rw [List.getElem?_eq_none (by rw [length_slice]; omega), List.getElem?_eq_none (by omega)]

@[simp] theorem overwrite_nil : overwrite m addr [] = m := rfl

/-- **Two ranges**, one behind the other. -/
theorem overwrite_append (h : xs.length + ys.length ≤ 2 ^ w) :
    overwrite (overwrite m addr xs) (addr + BitVec.ofNat w xs.length) ys =
      overwrite m addr (xs ++ ys) := by
  by_cases hnil : ys = []
  · subst hnil
    rw [overwrite_nil, List.append_nil]
  funext a
  have hpos : 0 < ys.length := List.length_pos_iff.2 hnil
  rw [overwrite_add (by omega) h, overwrite, overwrite, List.getElem?_append]
  by_cases hle : xs.length ≤ (a - addr).toNat
  · rw [if_pos hle, if_neg (Nat.not_lt.2 hle), List.getElem?_eq_none hle, Option.getD_none]
  · rw [if_neg hle, if_pos (Nat.lt_of_not_le hle)]

/-- The two ranges are written in any order. -/
theorem overwrite_comm (m : BitVec w → β) (addr : BitVec w) (hoff : off < 2 ^ w)
    (hx : xs.length ≤ off) (hy : off + ys.length ≤ 2 ^ w) :
    overwrite (overwrite m (addr + BitVec.ofNat w off) ys) addr xs =
      overwrite (overwrite m addr xs) (addr + BitVec.ofNat w off) ys := by
  funext a
  rw [overwrite_add hoff hy, overwrite, overwrite_add hoff hy, overwrite]
  by_cases hle : off ≤ (a - addr).toNat
  · rw [if_pos hle, if_pos hle, List.getElem?_eq_none (Nat.le_trans hx hle),
      Option.getD_none, Option.getD_none]
  · rw [if_neg hle, if_neg hle]

/-- **Part of a range**: what is around it is written back as it was read. -/
theorem overwrite_splice (m : BitVec w → β) (addr : BitVec w) (h : off + xs.length ≤ n)
    (hn : n ≤ 2 ^ w) :
    overwrite m addr ((slice m addr n).take off ++ xs ++ (slice m addr n).drop (off + xs.length)) =
      overwrite m (addr + BitVec.ofNat w off) xs := by
  by_cases hnil : xs = []
  · subst hnil
    rw [List.append_nil, List.length_nil, Nat.add_zero, List.take_append_drop, overwrite_nil]
    funext a
    rw [overwrite]
    by_cases hlt : (a - addr).toNat < n
    · rw [getElem?_slice hlt, add_ofNat_sub, Option.getD_some]
    · rw [List.getElem?_eq_none (by rw [length_slice]; omega), Option.getD_none]
  funext a
  have hpos : 0 < xs.length := List.length_pos_iff.2 hnil
  have hhead : ((slice m addr n).take off).length = off :=
    by rw [List.length_take, length_slice]; omega
  rw [overwrite_add (by omega) (by omega), overwrite, List.getElem?_append,
    List.getElem?_append, List.length_append, hhead]
  have hself : addr + BitVec.ofNat w (a - addr).toNat = a := add_ofNat_sub a addr
  generalize (a - addr).toNat = d at hself
  by_cases hoff : off ≤ d
  · rw [if_pos hoff, if_neg (Nat.not_lt.2 hoff)]
    by_cases hxs : d < off + xs.length
    · rw [if_pos hxs]
    · rw [if_neg hxs, List.getElem?_eq_none (by omega : xs.length ≤ d - off),
        Option.getD_none, List.getElem?_drop,
        Nat.add_sub_cancel' (Nat.le_of_not_lt hxs)]
      by_cases hlt : d < n
      · rw [getElem?_slice hlt, hself, Option.getD_some]
      · rw [List.getElem?_eq_none (by rw [length_slice]; omega), Option.getD_none]
  · rw [if_neg hoff, if_pos (by omega), if_pos (by omega), List.getElem?_take_of_lt (by omega),
      getElem?_slice (by omega), hself,
      Option.getD_some]

/-! ### Ranges on top of each other -/

/-- The memory under ranges: **the last one** that an address is in says what is there. -/
def lay (m : BitVec w → β) (ranges : List (BitVec w × List β)) : BitVec w → β := fun a =>
  (ranges.reverse.findSome? fun r => r.2[(a - r.1).toNat]?).getD (m a)

variable {rs rs' : List (BitVec w × List β)}

theorem lay_append : lay m (rs ++ rs') = lay (lay m rs) rs' := by
  funext a
  rw [lay, lay, lay, List.reverse_append, List.findSome?_append, Option.getD_or]

/-- One more range. -/
theorem lay_concat {r : BitVec w × List β} : lay m (rs ++ [r]) = overwrite (lay m rs) r.1 r.2 := by
  funext a
  rw [lay_append, lay, overwrite, List.reverse_singleton, List.findSome?_singleton]

end Overwrite

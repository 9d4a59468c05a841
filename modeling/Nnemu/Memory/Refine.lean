import Nnemu.Lib.Run
import Nnemu.Sim.Memory

/-!
# Sparse memory is a flat array

What the pages of a memory amount to is an array of bytes that are zero at first. Neither the
allocation of pages nor the way in which accesses are split is visible.

The array is the contents function that is zero where no page has been allocated. A load or a store
is split at page boundaries by a loop; its invariant is that the part before the place it has come
to has been moved, and the refused accesses are those the array refuses.
-/

namespace Nnemu

open Bytes

/-- A flat array of bytes, of a given size. -/
structure Flat where
  size : Nat
  byte : Reg → BitVec 8

namespace Flat

/-- An array of zeros. -/
def zero (size : Nat) : Flat :=
  ⟨size, fun _ => 0#8⟩

/-- One operation: loads and stores must lie within the size. -/
def act (f : Flat) : MemOp → LoadResult × Flat
  | .load addr len =>
    if addr.toNat + len.toNat ≤ f.size then (some (readBytes f.byte addr len.toNat), f)
      else (none, f)
  | .store addr buffer =>
    if addr.toNat + buffer.bytes.length ≤ f.size then
      (some [], { f with byte := writeBytes f.byte addr buffer.bytes })
    else (none, f)
  | .poke p => (some [], { f with byte := writeBytes f.byte p.addr p.bytes })

/-- The array after one operation. -/
def step (f : Flat) (op : MemOp) : Flat :=
  (f.act op).2

/-- The contents of the array. -/
def contents (f : Flat) : List (BitVec 8) :=
  readBytes f.byte 0#64 f.size

end Flat

namespace Mem

/-- The byte at an address. -/
def byte (m : Mem) (addr : Reg) : BitVec 8 :=
  m.page addr (pgoff addr)

/-- The array that a memory stands for. -/
def flat (m : Mem) : Flat :=
  ⟨m.sz.toNat, m.byte⟩

variable {m : Mem} {addr : Reg}

/-! ### Pages -/

theorem toNat_ppn (addr : Reg) : (ppn addr).toNat = addr.toNat / 4096 := by
  rw [ppn, BitVec.toNat_ushiftRight, Nat.shiftRight_eq_div_pow]

theorem toNat_pgoff (addr : Reg) : (pgoff addr).toNat = addr.toNat % 4096 :=
  BitVec.toNat_setWidth 12 addr

theorem ppn_eq_iff {a b : Reg} : ppn a = ppn b ↔ a.toNat / 4096 = b.toNat / 4096 := by
  rw [← toNat_ppn, ← toNat_ppn]
  exact BitVec.toNat_inj.symm

/-- An update of one page. -/
theorem page_update {p : Page} {a : Reg} :
    page { m with pages := Function.update m.pages (ppn addr) (some p) } a =
      if ppn a = ppn addr then p else m.page a := by
  rw [page]
  dsimp only
  rw [Function.update_apply]
  split <;> rfl

/-- An allocated page is as empty as one that is not there. -/
theorem byte_touch : (m.touch addr).byte = m.byte := by
  funext a
  rw [byte, byte, touch, page_update]
  split
  next h => rw [page, page, h]
  next h => rfl

/-- In a page, addresses are next to each other. -/
theorem byte_add {i : Nat} (h : addr.toNat % 4096 + i < 4096) :
    m.byte (addr + BitVec.ofNat 64 i) = m.page addr (pgoff addr + BitVec.ofNat 12 i) := by
  have haddr := addr.isLt
  have hsum : (addr + BitVec.ofNat 64 i).toNat = addr.toNat + i := by
    rw [BitVec.toNat_add, BitVec.toNat_ofNat]
    omega
  have hppn : ppn (addr + BitVec.ofNat 64 i) = ppn addr := by
    rw [ppn_eq_iff, hsum]
    omega
  have hoff : pgoff (addr + BitVec.ofNat 64 i) = pgoff addr + BitVec.ofNat 12 i := by
    apply BitVec.eq_of_toNat_eq
    rw [toNat_pgoff, hsum, BitVec.toNat_add, toNat_pgoff, BitVec.toNat_ofNat]
    omega
  rw [byte, page, hppn, hoff, ← page]

/-- What is copied out of a page. -/
theorem copyOut_eq {n : Nat} (h : addr.toNat % 4096 + n ≤ 4096) :
    (m.copyOut addr n).1 = readBytes m.byte addr n := by
  rw [copyOut, Page.read, readBytes]
  apply List.map_congr_left
  intro i hi
  have hi' : i < n := List.mem_range.1 hi
  exact (byte_add (by omega)).symm

/-- What is copied into a page. -/
theorem byte_copyIn {bytes : List (BitVec 8)} (h : addr.toNat % 4096 + bytes.length ≤ 4096) :
    (m.copyIn addr bytes).byte = writeBytes m.byte addr bytes := by
  funext a
  have ha := a.isLt
  have haddr := addr.isLt
  have hsub : (a - addr).toNat = (a.toNat + (2 ^ 64 - addr.toNat)) % 2 ^ 64 := by
    rw [BitVec.toNat_sub]
    omega
  have hoff : (pgoff a - pgoff addr).toNat = (a.toNat % 4096 + (4096 - addr.toNat % 4096)) %
      4096 := by
    rw [BitVec.toNat_sub, toNat_pgoff, toNat_pgoff]
    omega
  rw [byte, copyIn, page_update, writeBytes]
  split
  next hp =>
    rw [ppn_eq_iff] at hp
    have hpage : m.page addr = m.page a := by rw [page, page, ppn_eq_iff.2 hp.symm]
    rw [Page.write, hpage, ← byte]
    by_cases hin : addr.toNat ≤ a.toNat
    · congr 2
      omega
    · rw [List.getElem?_eq_none (by omega), List.getElem?_eq_none (by omega)]
  next hp =>
    rw [ppn_eq_iff] at hp
    rw [List.getElem?_eq_none (by omega)]
    rfl

/-! ### Accesses -/

/-- Accesses are rejected when they do not lie within the size. -/
theorem rejects_iff {len : Reg} : m.rejects addr len = true ↔
    ¬ addr.toNat + len.toNat ≤ m.sz.toNat := by
  have haddr := addr.isLt
  have hlen := len.isLt
  have hsz := m.sz.isLt
  rw [rejects, Bool.or_eq_true, decide_eq_true_iff, decide_eq_true_iff,
    BitVec.lt_def, gt_iff_lt, BitVec.lt_def,
    BitVec.toNat_add]
  omega

theorem chunk_le (addr : Reg) (len : Nat) : addr.toNat % 4096 + chunk addr len ≤ 4096 := by
  rw [chunk]
  omega

/-- **A load** reads the bytes of the array. -/
theorem loadLoop_eq (m : Mem) (addr : Reg) (len : Nat) :
    (loadLoop m addr len).1 = readBytes m.byte addr len ∧
    (loadLoop m addr len).2.flat = m.flat := by
  induction m, addr, len using loadLoop.induct with
  | case1 m addr =>
    rw [loadLoop, if_pos rfl]
    exact ⟨rfl, rfl⟩
  | case2 m addr len hlen n ih =>
    have hn : n + (len - n) = len := Nat.add_sub_cancel' (Nat.min_le_right _ _)
    have hbyte : (m.copyOut addr n).2.byte = m.byte := byte_touch
    rw [loadLoop, if_neg hlen]
    refine ⟨?_, ih.2.trans ?_⟩
    · dsimp only
      rw [copyOut_eq (chunk_le addr len), ih.1, hbyte, ← readBytes_add, hn]
    · rw [flat, hbyte]
      rfl

/-- **A store** writes the bytes of the array. -/
theorem storeLoop_eq (m : Mem) (addr : Reg) (bytes : List (BitVec 8)) (h : bytes.length ≤ 2 ^ 64) :
    (storeLoop m addr bytes).flat = { m.flat with byte := writeBytes m.byte addr bytes } := by
  induction m, addr, bytes using storeLoop.induct with
  | case1 m addr bytes hnil =>
    rw [storeLoop, if_pos hnil, List.eq_nil_of_length_eq_zero hnil]
    rfl
  | case2 m addr bytes hlen n ih =>
    have hn : (bytes.take n).length = n := by
      rw [List.length_take]
      exact Nat.min_eq_left (Nat.min_le_right _ _)
    have hpage : addr.toNat % 4096 + (bytes.take n).length ≤ 4096 := by
      rw [hn]
      exact chunk_le addr bytes.length
    have hsplit : (bytes.take n).length + (bytes.drop n).length ≤ 2 ^ 64 := by
      rw [← List.length_append, List.take_append_drop]
      exact h
    have hwrite : writeBytes (m.copyIn addr (bytes.take n)).byte (addr + BitVec.ofNat 64 n)
      (bytes.drop n) =
        writeBytes m.byte addr bytes := by
      have happend := writeBytes_append m.byte addr hsplit
      rw [hn, List.take_append_drop] at happend
      rw [byte_copyIn hpage, happend]
    rw [storeLoop, if_neg hlen, ih (Nat.le_trans (Nat.le_add_left _ _) hsplit), hwrite]
    rfl

/-- One operation, on the memory and on the array. -/
theorem act_eq (m : Mem) (op : MemOp) : (m.act op).1 = (m.flat.act op).1 ∧
    (m.act op).2.flat = (m.flat.act op).2 := by
  cases op with
  | load addr len =>
    rw [act, load, Flat.act]
    by_cases hfit : addr.toNat + len.toNat ≤ m.flat.size
    · obtain ⟨hbytes, hflat⟩ := loadLoop_eq m addr len.toNat
      rw [if_neg (fun hr => rejects_iff.1 hr hfit), if_pos hfit]
      exact ⟨congrArg some hbytes, hflat⟩
    · rw [if_pos (rejects_iff.2 hfit), if_neg hfit]
      exact ⟨rfl, rfl⟩
  | store addr buffer =>
    have hlen : (BitVec.ofNat 64 buffer.bytes.length).toNat = buffer.bytes.length :=
      (BitVec.toNat_ofNat _ _).trans (Nat.mod_eq_of_lt buffer.counted)
    rw [act, store, Flat.act]
    by_cases hfit : addr.toNat + buffer.bytes.length ≤ m.flat.size
    · rw [if_neg (fun hr => rejects_iff.1 hr (hlen.symm ▸ hfit)), if_pos hfit]
      exact ⟨rfl, storeLoop_eq m addr buffer.bytes (Nat.le_of_lt buffer.counted)⟩
    · rw [if_pos (rejects_iff.2 (hlen.symm ▸ hfit)), if_neg hfit]
      exact ⟨rfl, rfl⟩
  | poke p =>
    refine ⟨rfl, ?_⟩
    rw [act, Flat.act, flat, byte_copyIn p.inPage]
    rfl

/-- A rejected access changes nothing. -/
theorem step_of_none {op : MemOp} (h : (m.act op).1 = none) : m.step op = m := by
  change (m.act op).2 = m
  cases op with
  | load addr len =>
    rw [act, load] at h ⊢
    split
    · rfl
    next hr =>
      rw [if_neg hr] at h
      exact absurd h (Option.some_ne_none _)
  | store addr buffer =>
    rw [act, store] at h ⊢
    by_cases hr : m.rejects addr (BitVec.ofNat 64 buffer.bytes.length) = true
    · rw [if_pos hr]
    · rw [if_neg hr] at h
      exact absurd h (Option.some_ne_none _)
  | poke p => exact absurd h (Option.some_ne_none _)

/-! ### The dump -/

theorem read_zero (off : BitVec 12) (n : Nat) : Page.zero.read off n = List.replicate n 0#8 := by
  simp [Page.read, Page.zero]

theorem dumpPage_eq {i : Reg} (hi : i.toNat % 4096 = 0) :
    m.dumpPage i = readBytes m.byte i 4096 := by
  have hoff : pgoff i = 0#12 := BitVec.eq_of_toNat_eq ((toNat_pgoff i).trans hi)
  rw [← copyOut_eq (by omega), copyOut, hoff, page, dumpPage]
  cases m.pages (ppn i) with
  | none => rw [Option.getD_none, read_zero]
  | some p => rw [Option.getD_some]

/-- The dump from an address on. -/
theorem dumpLoop_eq (m : Mem) (i : Reg) (hi : i.toNat % 4096 = 0) :
    m.dumpLoop i hi = readBytes m.byte i (m.sz.toNat - i.toNat) := by
  induction i, hi using dumpLoop.induct m with
  | case1 i hi hlt ih =>
    have hw := m.whole
    have hlt' : i.toNat < m.sz.toNat := hlt
    have hsize : 4096 + (m.sz.toNat - (i + 4096#64).toNat) = m.sz.toNat - i.toNat := by
      rw [toNat_next]
      omega
    rw [dumpLoop, dif_pos hlt, ih, dumpPage_eq hi, ← hsize, readBytes_add]
  | case2 i hi hge =>
    have hge' : ¬ i.toNat < m.sz.toNat := hge
    rw [dumpLoop, dif_neg hge, Nat.sub_eq_zero_of_le (Nat.le_of_not_lt hge')]
    rfl

/-- **The dump** is the contents of the array. -/
theorem dump_eq (m : Mem) : m.dump = m.flat.contents :=
  dumpLoop_eq m 0#64 rfl

/-! ### Runs -/

/-- What is returned by the operations of a run. -/
def answers (m : Mem) : List MemOp → List LoadResult :=
  Run.collect step (fun m op => [(m.act op).1]) m

end Mem

/-- What is returned by the operations of a run. -/
def Flat.answers (f : Flat) : List MemOp → List LoadResult :=
  Run.collect step (fun f op => [(f.act op).1]) f

namespace Mem

theorem run_eq (m : Mem) (ops : List MemOp) :
    m.answers ops = m.flat.answers ops ∧ (Run.run step m ops).flat =
      Run.run Flat.step m.flat ops := by
  refine Run.collect_simulate (R := fun (m : Mem) (f : Flat) => m.flat = f)
    (fun m f op h => ?_) rfl ops
  obtain ⟨hanswer, hflat⟩ := act_eq m op
  subst h
  exact ⟨congrArg (fun a => [a]) hanswer, hflat⟩

/-- **A memory refines a flat array of zeros.** Along every run, each operation returns what the
array returns, an access that is rejected changes nothing, and in the end the dump is the contents
of the array. -/
theorem refines_flat {size : Reg} {m : Mem} (h : new size = .ok m) (ops : List MemOp) :
    m.answers ops = (Flat.zero size.toNat).answers ops ∧
      Run.Always step (fun m => ∀ op, (m.act op).1 = none → m.step op = m) m ops ∧
      (Run.run step m ops).dump = (Run.run Flat.step (Flat.zero size.toNat) ops).contents := by
  have hflat : m.flat = Flat.zero size.toNat := by
    rw [new] at h
    split at h
    · cases h
      rfl
    · cases h
  obtain ⟨hanswers, hrun⟩ := run_eq m ops
  rw [← hflat]
  refine ⟨hanswers, ?_, ?_⟩
  · exact Run.Always.of_invariant (I := fun _ => True) (fun _ _ _ => trivial)
      (fun _ _ _ => step_of_none) trivial ops
  · rw [dump_eq, hrun]

/-- A store across the boundary of two pages, and a load that begins in the first of them. -/
def across : List MemOp :=
  [.store 4094#64 ⟨[1#8, 2#8, 3#8], by decide⟩, .load 4095#64 3#64, .load 8191#64 2#64]

theorem refines_flat_across :
    answers ⟨fun _ => none, 8192#64, rfl⟩ across = (Flat.zero (8192#64).toNat).answers across ∧
      Run.Always step (fun m => ∀ op, (m.act op).1 = none → m.step op = m)
        ⟨fun _ => none, 8192#64, rfl⟩ across ∧
      (Run.run step (⟨fun _ => none, 8192#64, rfl⟩ : Mem) across).dump =
        (Run.run Flat.step (Flat.zero (8192#64).toNat) across).contents :=
  refines_flat (dif_pos (by decide)) across

end Mem

end Nnemu

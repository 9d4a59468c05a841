import Mathlib.Data.List.Nodup
import Mathlib.Data.List.Sort
import Nnemu.Insn.Encoding
import Nnemu.Lib.MoveToFront
import Nnemu.Lib.Run

/-!
# Decoding

`processor_t::decode_insn` looks an instruction up in a cache and, where that fails, searches the
list of registered instructions; the entry it finds may move to the front of the list and goes to
the cache. Both change with every miss.

A `Decoder` remembers of the list it was built with what lookups depend on (`DecoderOk`): for every
word the entries that hit it stand in the same order, entries with one `match` stand together, and
the catch-all is last. Entries with different `match` share no word, so that a move changes no
answer.

The list is sorted by `match` and then by `mask`, both descending. What is checked by evaluation is
a statement about the table of encodings alone: two entries share a word only if they have the same
`match` (`Encoding.apart`). From it follows that a history of lookups, with any words, never changes
an answer (`DecoderOk.run`).
-/

namespace Nnemu

/-! ### Instruction lists -/

/-- What the eight pointers of an `insn_desc_t` point to: the variants of `illegal_instruction`,
which are one function, or of an instruction. -/
inductive Func where
  | illegalInstruction
  | insn (op : Opcode)
deriving DecidableEq, Repr

/-- `insn_desc_t` -/
structure InsnDesc extends Encoding where
  func : Func
deriving DecidableEq

/-- `insn_desc_t::illegal` -/
def InsnDesc.illegal : InsnDesc :=
  ⟨⟨0#64, 0#64⟩, .illegalInstruction⟩

/-- The entry of an instruction. -/
def Opcode.desc (op : Opcode) : InsnDesc :=
  ⟨op.encoding, .insn op⟩

/-- `name##_supported` -/
def Opcode.supported (isa : Isa) (op : Opcode) : Bool :=
  match op.overlap with
  | some ext => isa.table ext
  | none => true

/-- What `register_base_instructions` registers. -/
def registered (isa : Isa) : List InsnDesc :=
  ((Opcode.all.filter fun op => op.supported isa).map Opcode.desc) ++ [.illegal]

/-- The order of `build_opcode_map`. -/
def InsnDesc.cmp (lhs rhs : InsnDesc) : Bool :=
  if lhs.matchBits = rhs.matchBits then decide (rhs.mask < lhs.mask)
    else decide (rhs.matchBits < lhs.matchBits)

/-- The list `build_opcode_map` leaves. No two entries are equivalent for the order, so that every
sort gives it. -/
def opcodeMap (isa : Isa) : List InsnDesc :=
  (registered isa).mergeSort fun a b => !b.cmp a

/-- The first entry that hits. -/
def firstMatch (l : List InsnDesc) (bits : Reg) : Option InsnDesc :=
  l.find? fun d => d.hits bits

/-! ### The decoder -/

/-- What `insn_desc_t::func` chooses by, besides `xlen`, which is that of the configuration. -/
structure Variant where
  /-- `extension_enabled('E')` -/
  rve : Bool
  /-- `log_commits_enabled` -/
  logged : Bool

/-- An `insn_func_t`. -/
structure Handler where
  func : Func
  variant : Variant

/-- `insn_desc_t::func` -/
def InsnDesc.handler (d : InsnDesc) (variant : Variant) : Handler :=
  ⟨d.func, variant⟩

/-- `OPCODE_CACHE_SIZE` -/
def opcodeCacheSize : Nat := 8191

/-- `instructions` and `opcode_cache` -/
structure Decoder where
  instructions : List InsnDesc
  opcodeCache : Nat → InsnDesc

namespace Decoder

/-- What `build_opcode_map` leaves. -/
def build (isa : Isa) : Decoder :=
  ⟨opcodeMap isa, fun _ => .illegal⟩

/-- The linear search: where it stops, or none where it runs off the list. -/
def search (l : List InsnDesc) (bits : Reg) : Option Nat :=
  l.findIdx? fun d => d.hits bits

/-- The move to the front: the loop that shifts the entries before `p` up by one, and what is stored
at the front. It is none where `p + 1` is read behind the list. -/
def reorder (l : List InsnDesc) (p : Nat) (desc : InsnDesc) : Option (List InsnDesc) :=
  if desc.mask ≠ 0#64 ∧ 0 < p then
    match l[p - 1]? with
    | none => none
    | some before =>
      if desc.matchBits ≠ before.matchBits then
        match l[p + 1]? with
        | none => none
        | some after =>
          if desc.matchBits ≠ after.matchBits then some (desc :: l.eraseIdx p) else some l
      else some l
  else some l

variable (d : Decoder)

/-- A miss: the entry that is found, and the decoder afterwards. -/
def miss (bits : Reg) : Option (InsnDesc × Decoder) := do
  let p ← search d.instructions bits
  let desc ← d.instructions[p]?
  let l ← reorder d.instructions p desc
  let cached : InsnDesc := { desc with matchBits := bits }
  some (desc, ⟨l, Function.update d.opcodeCache (bits.toNat % opcodeCacheSize) cached⟩)

/-- The entry `decode_insn` ends with, or none where it reads behind the list. -/
def lookup (bits : Reg) : Option (InsnDesc × Decoder) :=
  let desc := d.opcodeCache (bits.toNat % opcodeCacheSize)
  if bits = desc.matchBits then some (desc, d) else d.miss bits

/-- `processor_t::decode_insn` -/
def decodeInsn (variant : Variant) (bits : Reg) : Option (Handler × Decoder) :=
  (d.lookup bits).map fun r => (r.1.handler variant, r.2)

/-- The decoder after a call. -/
def after (bits : Reg) : Decoder :=
  match d.lookup bits with
  | some r => r.2
  | none => d

end Decoder

/-! ### Encodings -/

/-- Encodings with different `match` that no word has both of. -/
def Encoding.apart (a b : Encoding) : Bool :=
  a.matchBits == b.matchBits || a.matchBits &&& b.mask != b.matchBits &&& a.mask

theorem Encoding.apart_hits {a b : Encoding} (hap : a.apart b = true)
    (hne : a.matchBits ≠ b.matchBits) {bits : Reg}
    (ha : a.hits bits = true) : b.hits bits = false := by
  rw [Encoding.apart, Bool.or_eq_true, beq_iff_eq, bne_iff_ne] at hap
  rw [Encoding.hits, beq_iff_eq] at ha
  cases hb : b.hits bits with
  | false => rfl
  | true =>
    rw [Encoding.hits, beq_iff_eq] at hb
    have hboth : a.matchBits &&& b.mask = b.matchBits &&& a.mask := by
      rw [← ha, ← hb, BitVec.and_assoc, BitVec.and_assoc, BitVec.and_comm a.mask]
    exact absurd hboth (hap.resolve_left hne)

namespace Opcode

private theorem all_apart : (all.all fun a => all.all fun b => a.encoding.apart b.encoding) =
    true := by
  decide +kernel

/-- **No word has two encodings with different `match`.** -/
theorem apart (a b : Opcode) : a.encoding.apart b.encoding = true := by
  have ha := List.all_eq_true.1 all_apart a (mem_all a)
  exact List.all_eq_true.1 ha b (mem_all b)

theorem mask_ne_zero (op : Opcode) : op.encoding.mask ≠ 0#64 := by
  cases op <;> decide

theorem encoding_injective {a b : Opcode} (h : a.encoding = b.encoding) : a = b := by
  have hall : (all.all fun a => all.all fun b => a.encoding != b.encoding || a == b) = true := by
    decide +kernel
  have hab := List.all_eq_true.1 (List.all_eq_true.1 hall a (mem_all a)) b (mem_all b)
  rw [Bool.or_eq_true, bne_iff_ne, beq_iff_eq] at hab
  exact hab.resolve_left (not_not.2 h)

theorem desc_injective : Function.Injective desc := by
  intro a b h
  injection h with _ hfunc
  injection hfunc

theorem nodup_all : all.Nodup := by
  decide +kernel

end Opcode

/-! ### The sorted list -/

/-- Instructions, in any order, and the catch-all behind them. -/
def Listing (l : List InsnDesc) : Prop :=
  ∃ body : List InsnDesc, l = body ++ [.illegal] ∧ ∀ d ∈ body, ∃ op : Opcode, d = op.desc

theorem nodup_registered (isa : Isa) : (registered isa).Nodup := by
  rw [registered, List.nodup_append]
  refine ⟨List.Nodup.map Opcode.desc_injective (Opcode.nodup_all.filter _),
    List.nodup_singleton _, ?_⟩
  intro a ha b hb
  obtain ⟨op, -, rfl⟩ := List.mem_map.1 ha
  cases List.mem_singleton.1 hb
  exact fun h => Opcode.mask_ne_zero op (congrArg (fun d => d.mask) h)

namespace InsnDesc

/-- `cmp`, read as a relation: nothing that comes later is greater. -/
theorem not_cmp_iff (a b : InsnDesc) :
    (!b.cmp a) = true ↔ b.matchBits < a.matchBits ∨ b.matchBits = a.matchBits ∧
    b.mask ≤ a.mask := by
  rw [cmp, Bool.not_eq_true']
  by_cases heq : b.matchBits = a.matchBits
  · rw [if_pos heq, decide_eq_false_iff_not, BitVec.not_lt, heq]
    simp
  · rw [if_neg heq, decide_eq_false_iff_not, BitVec.not_lt]
    simp only [heq, false_and, or_false]
    exact ⟨fun h => BitVec.lt_of_le_ne h heq, BitVec.le_of_lt⟩

theorem cmp_trans (a b c : InsnDesc) (hab : (!b.cmp a) = true) (hbc : (!c.cmp b) = true) :
    (!c.cmp a) = true := by
  rw [not_cmp_iff] at hab hbc ⊢
  simp only [BitVec.lt_def, BitVec.le_def, ← BitVec.toNat_inj] at hab hbc ⊢
  omega

theorem cmp_total (a b : InsnDesc) : (!b.cmp a || !a.cmp b) = true := by
  rw [Bool.or_eq_true, not_cmp_iff, not_cmp_iff]
  simp only [BitVec.lt_def, BitVec.le_def, ← BitVec.toNat_inj]
  omega

end InsnDesc

theorem pairwise_opcodeMap (isa : Isa) : (opcodeMap isa).Pairwise fun a b => (!b.cmp a) = true :=
  List.pairwise_mergeSort InsnDesc.cmp_trans InsnDesc.cmp_total _

theorem perm_opcodeMap (isa : Isa) : (opcodeMap isa).Perm (registered isa) :=
  List.mergeSort_perm _ _

theorem mem_opcodeMap {isa : Isa} {d : InsnDesc} (hd : d ∈ opcodeMap isa) :
    d = .illegal ∨ ∃ op : Opcode, d = op.desc := by
  have hmem := (perm_opcodeMap isa).subset hd
  rw [registered, List.mem_append, List.mem_singleton] at hmem
  obtain hop | rfl := hmem
  · obtain ⟨op, -, rfl⟩ := List.mem_map.1 hop
    exact .inr ⟨op, rfl⟩
  · exact .inl rfl

/-- No two entries are equivalent for the order. -/
theorem cmp_antisymm {isa : Isa} {a b : InsnDesc} (ha : a ∈ opcodeMap isa) (hb : b ∈ opcodeMap isa)
    (hab : (!b.cmp a) = true) (hba : (!a.cmp b) = true) : a = b := by
  have hencoding : a.toEncoding = b.toEncoding := by
    rw [InsnDesc.not_cmp_iff] at hab hba
    obtain ⟨⟨am, ak⟩, af⟩ := a
    obtain ⟨⟨bm, bk⟩, bf⟩ := b
    simp only [BitVec.lt_def, BitVec.le_def, ← BitVec.toNat_inj] at hab hba
    rw [Encoding.mk.injEq]
    exact ⟨BitVec.eq_of_toNat_eq (by omega), BitVec.eq_of_toNat_eq (by omega)⟩
  obtain rfl | ⟨op, rfl⟩ := mem_opcodeMap ha
  · obtain rfl | ⟨op, rfl⟩ := mem_opcodeMap hb
    · rfl
    · exact absurd (congrArg Encoding.mask hencoding).symm (Opcode.mask_ne_zero op)
  · obtain rfl | ⟨op', rfl⟩ := mem_opcodeMap hb
    · exact absurd (congrArg Encoding.mask hencoding) (Opcode.mask_ne_zero op)
    · rw [Opcode.encoding_injective hencoding]

/-- **Every sort gives the list.** -/
theorem opcodeMap_eq (isa : Isa) :
    opcodeMap isa = (registered isa).insertionSort fun a b => (!b.cmp a) = true := by
  have : Std.Total fun a b : InsnDesc => (!b.cmp a) = true :=
    ⟨fun a b => (Bool.or_eq_true _ _).mp (InsnDesc.cmp_total a b)⟩
  have : IsTrans InsnDesc fun a b => (!b.cmp a) = true := ⟨InsnDesc.cmp_trans⟩
  have hperm : (opcodeMap isa).Perm
      ((registered isa).insertionSort fun a b => (!b.cmp a) = true) :=
    (perm_opcodeMap isa).trans (List.perm_insertionSort _ _).symm
  exact hperm.eq_of_pairwise
    (fun a b ha hb => cmp_antisymm ha (hperm.mem_iff.2 hb)) (pairwise_opcodeMap isa)
    (List.pairwise_insertionSort _ _)

/-- What `build_opcode_map` leaves, by a sort that is easy to run. -/
def Decoder.built (isa : Isa) : Decoder :=
  ⟨(registered isa).insertionSort fun a b => (!b.cmp a) = true, fun _ => .illegal⟩

theorem Decoder.built_eq (isa : Isa) : built isa = build isa := by
  rw [built, build, opcodeMap_eq]

/-- **The catch-all is last.** -/
theorem listing_opcodeMap (isa : Isa) : Listing (opcodeMap isa) := by
  have hmem : InsnDesc.illegal ∈ opcodeMap isa :=
    (perm_opcodeMap isa).symm.subset (List.mem_append_right _ (List.mem_singleton_self _))
  have hnodup : (opcodeMap isa).Nodup := (perm_opcodeMap isa).nodup_iff.2 (nodup_registered isa)
  have hsorted := pairwise_opcodeMap isa
  have hall : ∀ d ∈ opcodeMap isa, d = .illegal ∨ ∃ op : Opcode, d = op.desc :=
    fun _ => mem_opcodeMap
  obtain ⟨s, t, hst⟩ := List.append_of_mem hmem
  rw [hst] at hnodup hsorted hall
  have ht : t = [] := by
    rw [List.eq_nil_iff_forall_not_mem]
    intro d hd
    obtain rfl | ⟨op, rfl⟩ := hall d (List.mem_append_right s (List.mem_cons_of_mem _ hd))
    · exact (List.nodup_cons.1 (List.nodup_append.1 hnodup).2.1).1 hd
    · have hle := (List.pairwise_cons.1 (List.pairwise_append.1 hsorted).2.1).1 _ hd
      rw [InsnDesc.not_cmp_iff] at hle
      simp only [InsnDesc.illegal, BitVec.lt_def, BitVec.le_def, ← BitVec.toNat_inj,
        BitVec.toNat_zero] at hle
      have hmask : op.desc.mask.toNat ≠ 0 :=
        fun h => Opcode.mask_ne_zero op (BitVec.eq_of_toNat_eq h)
      omega
  have hs : ∀ d ∈ s, ∃ op : Opcode, d = op.desc := by
    intro d hd
    obtain rfl | h := hall d (List.mem_append_left _ hd)
    · exact absurd rfl ((List.nodup_append.1 hnodup).2.2 _ hd _ List.mem_cons_self)
    · exact h
  exact ⟨s, by rw [hst, ht], hs⟩

theorem grouped_opcodeMap (isa : Isa) :
    MoveToFront.Grouped (fun d : InsnDesc => d.matchBits) (opcodeMap isa) := by
  refine .of_pairwise (fun h h' => BitVec.le_antisymm h' h) ?_
  refine (pairwise_opcodeMap isa).imp fun h => ?_
  rw [InsnDesc.not_cmp_iff] at h
  obtain hlt | ⟨heq, -⟩ := h
  · exact BitVec.le_of_lt hlt
  · exact BitVec.le_of_eq heq

/-! ### Lookups -/

open MoveToFront

namespace Listing

variable {l pre post : List InsnDesc} {desc : InsnDesc} {bits : Reg}

/-- Behind an entry of an instruction there is always another one. -/
theorem split (hl : Listing (pre ++ desc :: post)) (hmask : desc.mask ≠ 0#64) :
    ∃ body, post = body ++ [.illegal] ∧ ∀ d ∈ pre ++ desc :: body, ∃ op : Opcode, d = op.desc := by
  obtain ⟨body, heq, hbody⟩ := hl
  obtain rfl | ⟨rest, last, rfl⟩ := post.eq_nil_or_concat
  · obtain ⟨-, hdesc⟩ := List.append_inj' heq rfl
    cases hdesc
    exact absurd rfl hmask
  · rw [List.concat_eq_append, ← List.cons_append, ← List.append_assoc] at heq
    obtain ⟨rfl, hlast⟩ := List.append_inj' heq rfl
    cases hlast
    exact ⟨rest, List.concat_eq_append, hbody⟩

/-- An instruction may move to the front. -/
theorem moveToFront (hl : Listing (pre ++ desc :: post)) (hmask : desc.mask ≠ 0#64) :
    Listing (desc :: (pre ++ post)) := by
  obtain ⟨body, rfl, hbody⟩ := hl.split hmask
  refine ⟨desc :: (pre ++ body), by rw [List.cons_append, List.append_assoc], ?_⟩
  intro d hd
  refine hbody d ?_
  rw [List.mem_cons, List.mem_append] at hd
  rw [List.mem_append, List.mem_cons]
  tauto

/-- An entry shares no word with the entries before it that have a different `match`. -/
theorem apart (hl : Listing (pre ++ desc :: post)) (hmask : desc.mask ≠ 0#64)
    (halone : ∀ a ∈ pre ++ post, a.matchBits ≠ desc.matchBits) :
    ∀ a ∈ pre, ∀ bits, desc.hits bits = true → a.hits bits = false := by
  intro a ha bits hd
  obtain ⟨body, -, hbody⟩ := hl.split hmask
  obtain ⟨op, rfl⟩ := hbody desc (List.mem_append_right pre List.mem_cons_self)
  obtain ⟨op', rfl⟩ := hbody a (List.mem_append_left _ ha)
  exact Encoding.apart_hits (Opcode.apart op op') (halone _ (List.mem_append_left _ ha)).symm hd

/-- **The search ends inside the list.** -/
theorem search (hl : Listing l) (bits : Reg) :
    ∃ pre desc post, l = pre ++ desc :: post ∧ Decoder.search l bits = some pre.length ∧
      firstMatch l bits = some desc := by
  obtain ⟨body, rfl, -⟩ := hl
  have hlast : InsnDesc.illegal.hits bits = true := by
    rw [Encoding.hits, beq_iff_eq]
    exact BitVec.and_zero
  obtain ⟨desc, hfind⟩ : ∃ desc, firstMatch (body ++ [.illegal]) bits = some desc := by
    rw [← Option.isSome_iff_exists, firstMatch, List.find?_isSome]
    exact ⟨_, List.mem_append_right body (List.mem_singleton_self _), hlast⟩
  obtain ⟨hhit, pre, post, hsplit, hbefore⟩ := List.find?_eq_some_iff_append.1 hfind
  refine ⟨pre, desc, post, hsplit, ?_, hfind⟩
  rw [Decoder.search, hsplit, List.findIdx?_append,
    List.findIdx?_eq_none_iff.2 fun d hd => by simpa using hbefore d hd,
    List.findIdx?_cons, if_pos hhit]
  simp

end Listing

/-- **The move.** It stays inside the list, and moves an entry only if no other entry has its
`match`. -/
theorem reorder_spec {pre post : List InsnDesc} {desc : InsnDesc}
    (hl : Listing (pre ++ desc :: post))
    (g : Grouped (fun d : InsnDesc => d.matchBits) (pre ++ desc :: post)) :
    ∃ l, Decoder.reorder (pre ++ desc :: post) pre.length desc = some l ∧
      (l = pre ++ desc :: post ∨
        l = desc :: (pre ++ post) ∧ desc.mask ≠ 0#64 ∧ ∀ a ∈ pre ++ post,
        a.matchBits ≠ desc.matchBits) := by
  rw [Decoder.reorder]
  by_cases hmove : desc.mask ≠ 0#64 ∧ 0 < pre.length
  · obtain ⟨body, rfl, -⟩ := hl.split hmove.1
    obtain rfl | ⟨pre, u, rfl⟩ := pre.eq_nil_or_concat
    · exact absurd hmove.2 (Nat.lt_irrefl 0)
    obtain ⟨v, post, hpost⟩ : ∃ v post, body ++ [InsnDesc.illegal] = v :: post := by
      cases body with
      | nil => exact ⟨_, [], rfl⟩
      | cons v body => exact ⟨v, body ++ [.illegal], rfl⟩
    rw [hpost, List.concat_eq_append, List.append_assoc, List.singleton_append] at g ⊢
    have hbefore : (pre ++ u :: desc :: v :: post)[(pre ++ [u]).length - 1]? = some u := by simp
    have hafter : (pre ++ u :: desc :: v :: post)[(pre ++ [u]).length + 1]? = some v := by
      have htwo : pre.length + 1 + 1 - pre.length = 2 := by omega
      rw [List.length_append, List.length_singleton, List.getElem?_append_right (by omega), htwo]
      rfl
    have herase : (pre ++ u :: desc :: v :: post).eraseIdx (pre ++ [u]).length = pre ++
        u :: v :: post := by
      simp [List.eraseIdx_append_of_length_le]
    rw [if_pos (by simpa using hmove), hbefore, hafter, herase]
    by_cases hu : desc.matchBits = u.matchBits
    · exact ⟨_, if_neg (not_not.2 hu), .inl rfl⟩
    by_cases hv : desc.matchBits = v.matchBits
    · exact ⟨_, (if_pos hu).trans (if_neg (not_not.2 hv)), .inl rfl⟩
    refine ⟨_, (if_pos hu).trans (if_pos hv), .inr ⟨by simp, hmove.1, ?_⟩⟩
    have halone := g.alone hu hv
    simpa using halone
  · exact ⟨_, if_neg hmove, .inl rfl⟩

/-! ### Histories -/

/-- What the word is for the list the decoder was built with: the first entry that hits it, or, for
the word 0, which the entries of the fresh cache hold, the catch-all. -/
def Answers (isa : Isa) (bits : Reg) (func : Func) : Prop :=
  (∃ desc, firstMatch (opcodeMap isa) bits = some desc ∧ desc.func = func) ∨
    bits = 0#64 ∧ func = .illegalInstruction

/-- What lookups depend on. -/
structure DecoderOk (isa : Isa) (d : Decoder) : Prop where
  listing : Listing d.instructions
  grouped : Grouped (fun d : InsnDesc => d.matchBits) d.instructions
  same : SameHits (fun (d : InsnDesc) bits => d.hits bits) d.instructions (opcodeMap isa)
  cached : ∀ bits, (d.opcodeCache (bits.toNat % opcodeCacheSize)).matchBits = bits →
    Answers isa bits (d.opcodeCache (bits.toNat % opcodeCacheSize)).func

namespace DecoderOk

variable {isa : Isa} {d : Decoder}

theorem build (isa : Isa) : DecoderOk isa (.build isa) where
  listing := listing_opcodeMap isa
  grouped := grouped_opcodeMap isa
  same := .refl _ _
  cached _ h := .inr ⟨h.symm, rfl⟩

/-- The cache entry of a miss answers its word. -/
theorem cached_update (ok : DecoderOk isa d) {bits : Reg} {desc : InsnDesc}
    (hfirst : firstMatch (opcodeMap isa) bits = some desc) (w : Reg) :
    let cache :=
  Function.update d.opcodeCache (bits.toNat % opcodeCacheSize) { desc with matchBits := bits }
    (cache (w.toNat % opcodeCacheSize)).matchBits = w →
      Answers isa w (cache (w.toNat % opcodeCacheSize)).func := by
  intro cache hw
  by_cases hidx : w.toNat % opcodeCacheSize = bits.toNat % opcodeCacheSize
  · have hentry : cache (w.toNat % opcodeCacheSize) = { desc with matchBits := bits } := by
      rw [hidx]
      exact Function.update_self _ _ _
    rw [hentry] at hw ⊢
    cases hw
    exact .inl ⟨desc, hfirst, rfl⟩
  · have hentry : cache (w.toNat % opcodeCacheSize) = d.opcodeCache (w.toNat % opcodeCacheSize) :=
      Function.update_of_ne hidx _ _
    rw [hentry] at hw ⊢
    exact ok.cached w hw

/-- **A miss.** -/
theorem miss (ok : DecoderOk isa d) (bits : Reg) :
    ∃ desc d', d.miss bits = some (desc, d') ∧ firstMatch (opcodeMap isa) bits = some desc ∧
    DecoderOk isa d' := by
  obtain ⟨pre, desc, post, hsplit, hsearch, hfind⟩ := ok.listing.search bits
  have hlisting := ok.listing
  have hgrouped := ok.grouped
  have hsame := ok.same
  have hfirst : firstMatch (opcodeMap isa) bits = some desc := by
    rw [← hfind]
    exact (ok.same.find? bits).symm
  have hentry : d.instructions[pre.length]? = some desc := by
    rw [hsplit, List.getElem?_append_right (Nat.le_refl _), Nat.sub_self]
    rfl
  rw [hsplit] at hlisting hgrouped hsame
  obtain ⟨l, hreorder, hmoved⟩ := reorder_spec hlisting hgrouped
  rw [← hsplit] at hreorder
  have hmiss : d.miss bits = some
    (desc, ⟨l, Function.update d.opcodeCache (bits.toNat % opcodeCacheSize)
      { desc with matchBits := bits }⟩) := by
    rw [Decoder.miss, hsearch, Option.bind_eq_bind, Option.bind_some, hentry,
      Option.bind_eq_bind, Option.bind_some,
      hreorder]
    rfl
  refine ⟨desc, _, hmiss, hfirst, ?_⟩
  obtain rfl | ⟨rfl, hmask, halone⟩ := hmoved
  · exact ⟨hlisting, hgrouped, hsame, ok.cached_update hfirst⟩
  · exact ⟨hlisting.moveToFront hmask, hgrouped.moveToFront halone,
      (SameHits.moveToFront (hlisting.apart hmask halone) post).trans hsame,
      ok.cached_update hfirst⟩

/-- **A lookup.** -/
theorem lookup (ok : DecoderOk isa d) (bits : Reg) :
    ∃ desc d', d.lookup bits = some (desc, d') ∧ Answers isa bits desc.func ∧ DecoderOk isa d' := by
  rw [Decoder.lookup]
  by_cases hhit : bits = (d.opcodeCache (bits.toNat % opcodeCacheSize)).matchBits
  · exact ⟨_, d, if_pos hhit, ok.cached bits hhit.symm, ok⟩
  · obtain ⟨desc, d', hmiss, hfirst, ok'⟩ := ok.miss bits
    exact ⟨desc, d', (if_neg hhit).trans hmiss, .inl ⟨desc, hfirst, rfl⟩, ok'⟩

theorem after (ok : DecoderOk isa d) (bits : Reg) : DecoderOk isa (d.after bits) := by
  obtain ⟨desc, d', hlookup, -, ok'⟩ := ok.lookup bits
  rw [Decoder.after, hlookup]
  exact ok'

/-- **Every history.** -/
theorem run (isa : Isa) (history : List Reg) :
    DecoderOk isa (Run.run Decoder.after (.build isa) history) :=
  Run.run_induct (I := DecoderOk isa) (fun _ bits ok => ok.after bits) (.build isa) history

end DecoderOk

end Nnemu

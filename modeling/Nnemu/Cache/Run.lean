import Nnemu.Cache.Refine

/-!
# The public functions of the cache simulator

What `access` does when it hits and when it misses, and what the loop of `clean_invalidate` does, to
the history of a cache and to its count of writebacks.

An access counts itself, looks the line up, and on a miss makes room, sends what it owes to the
level below and fills the slot. `clean_invalidate` goes through the lines of a range; its loop keeps
that the lines before are clean or gone and the others are as they were.
-/

namespace Nnemu

namespace CacheSim

open History

variable {c : CacheSim} {addr : Reg} {h : List (Event Nat)}

/-! ### Counters -/

theorem sameSizes_countAccess (c : CacheSim) (bytes : Reg) (store : Bool) :
    SameSizes c (c.countAccess bytes store) := by
  cases store <;> exact ⟨rfl, rfl, rfl, rfl⟩

theorem tags_countAccess (c : CacheSim) (bytes : Reg) (store : Bool) :
    (c.countAccess bytes store).tags = c.tags := by
  cases store <;> rfl

theorem sameSizes_countMiss (c : CacheSim) (store : Bool) : SameSizes c (c.countMiss store) := by
  cases store <;> exact ⟨rfl, rfl, rfl, rfl⟩

theorem tags_countMiss (c : CacheSim) (store : Bool) : (c.countMiss store).tags = c.tags := by
  cases store <;> rfl

/-- Only writebacks count as such. -/
theorem writebacks_count (c : CacheSim) (bytes : Reg) (store : Bool) :
    (c.countAccess bytes store).counters.writebacks = c.counters.writebacks ∧
      (c.countMiss store).counters.writebacks = c.counters.writebacks := by
  cases store <;> exact ⟨rfl, rfl⟩

/-- What `check_tag` finds depends on the sizes and the tags. -/
theorem checkTag_congr {c' : CacheSim} (s : SameSizes c c') (htags : c'.tags = c.tags)
    (addr : Reg) :
    c'.checkTag addr = c.checkTag addr := by
  rw [checkTag, checkTag, htags, idx, idx, tag, tag, s.line_eq, s.sets, s.ways]

/-- The number of writebacks, as the counter has it. -/
def Counted (c : CacheSim) (h : List (Event Nat)) : Prop :=
  c.counters.writebacks = BitVec.ofNat 64 (History.writebacks h)

/-- An event that writes nothing back. -/
theorem Counted.cons (hc : Counted c h) {c' : CacheSim}
    (hsame : c'.counters.writebacks = c.counters.writebacks)
    {e : Event Nat} (he : e.writesBack = false) : Counted c' (e :: h) := by
  rw [Counted, hsame, hc, History.writebacks, History.writebacks,
    List.countP_cons_of_neg (by rw [he]; exact Bool.false_ne_true)]

/-- A writeback. -/
theorem Counted.writeback (hc : Counted c h) {c' : CacheSim}
    (hnext : c'.counters.writebacks = c.counters.writebacks + 1#64) {e : Event Nat}
    (he : e.writesBack = true) :
    Counted c' (e :: h) := by
  rw [Counted, hnext, hc, History.writebacks, History.writebacks, List.countP_cons_of_pos he,
    BitVec.ofNat_add]

/-! ### Accesses -/

/-- An access that hits. -/
theorem access_hit (H : Holds c h) (hc : Counted c h) (bytes : Reg) (store : Bool) {k : Nat}
    (hk : c.checkTag addr = some k) :
    ∃ c' sent, c.access addr bytes store = some (c', sent) ∧ sent = [] ∧ SameSizes c c' ∧
      Holds c' (written store (c.line addr).toNat h) ∧
      Counted c' (written store (c.line addr).toNat h) := by
  have hsizes := sameSizes_countAccess c bytes store
  have htags := tags_countAccess c bytes store
  have H' := H.of_tags hsizes htags
  have hc' : Counted (c.countAccess bytes store) h := (writebacks_count c bytes store).1.trans hc
  have hk' := (checkTag_congr hsizes htags addr).trans hk
  rw [access]
  generalize c.countAccess bytes store = c₀ at hsizes H' hc' hk' ⊢
  rw [hk']
  refine ⟨_, _, rfl, rfl, ?_⟩
  cases store with
  | false => exact ⟨hsizes, H', hc'⟩
  | true =>
    rw [if_pos rfl, written, if_pos rfl, ← hsizes.line_eq]
    obtain ⟨-, -, -, hvalid, -⟩ := checkTag_some H'.sized H'.keyed hk'
    refine ⟨hsizes.trans (sameSizes_setWord c₀ k _), ?_, ?_⟩
    · refine H'.setWord hk' (by rw [isValid_or_dirty]; exact hvalid) (lineOf_or_dirty _) rfl ?_
      rw [H'.held_of_some hk', isDirty_or_dirty]
      rfl
    · exact hc'.cons (congrArg Counters.writebacks (counters_setWord c₀ k _)) rfl

/-- The history of an access that misses, with its victim. -/
def filled (l : Nat) (victim : Reg) (h : List (Event Nat)) : List (Event Nat) :=
  .brought l :: if isValid victim then .evicted (lineOf victim) (isDirty victim) :: h else h

/-- The requests of an access that misses. -/
def fillRequests (g : Geometry) (l : Nat) (victim : Reg) : List Request :=
  writeback g (lineOf victim) (isValid victim && isDirty victim) ++
    [.access (g.address l) g.size false]

theorem held_filled (l : Nat) (victim : Reg) (h : List (Event Nat)) :
    held (filled l victim h) l = some false := by
  rw [filled, held]
  exact if_pos rfl

/-- The victim was held, in the set of the access. -/
theorem victim_held (H : Holds c h) {c' : CacheSim} {victim : Reg}
    (hV : Victimized c addr c' victim)
    (hvalid : isValid victim = true) : held h (lineOf victim) = some (isDirty victim) ∧
      lineOf victim % c.geometry.sets = (c.line addr).toNat % c.geometry.sets := by
  obtain ⟨rest, -, hperm | ⟨hinvalid, -⟩⟩ := hV.slots
  · have hshows := H.shows.perm hperm
    exact ⟨hshows.held_of_mem List.mem_cons_self hvalid,
      (hshows.own _ List.mem_cons_self hvalid).symm⟩
  · rw [hinvalid] at hvalid
    cases hvalid

/-- The writeback of the victim is counted. -/
theorem counted_filled (hc : Counted c h) {c' : CacheSim} (hsame : c'.counters = c.counters)
    (l : Nat) (victim : Reg) :
    Counted (if isValid victim && isDirty victim then c'.countWriteback else c')
    (filled l victim h) := by
  have hwb : c'.counters.writebacks = c.counters.writebacks := congrArg Counters.writebacks hsame
  rw [filled]
  cases hvalid : isValid victim with
  | false => exact hc.cons hwb rfl
  | true =>
    rw [Bool.true_and, if_pos rfl]
    cases hdirty : isDirty victim with
    | false =>
      have hevicted : Counted c' (.evicted (lineOf victim) false :: h) := hc.cons hwb rfl
      exact hevicted.cons rfl rfl
    | true =>
      have hcount : c'.countWriteback.counters.writebacks = c.counters.writebacks + 1#64 := by
        rw [← hwb]
        rfl
      exact (hc.writeback hcount rfl).cons rfl rfl

/-- What is sent is the writeback and the fill. -/
theorem sent_eq (hsized : c.WellSized) (addr victim : Reg) :
    (if victim &&& (valid ||| dirty) == valid ||| dirty then
        [Request.access ((victim &&& ~~~(valid ||| dirty)) <<< c.idxShift) c.linesz true]
          else []) ++
      [.access (addr &&& ~~~(c.linesz - 1#64)) c.linesz false] =
        fillRequests c.geometry (c.line addr).toNat victim := by
  have hsize : c.geometry.size = c.linesz := BitVec.eq_of_toNat_eq (Nat.mod_eq_of_lt c.linesz.isLt)
  rw [both_flags, hsized.dirtyAddr_eq, hsized.align_eq, fillRequests, writeback,
    hsize, hsized.line_toNat]

/-- An access that misses. -/
theorem access_miss (H : Holds c h) (hc : Counted c h) (hways : c.ways ≠ 0#64)
    (bytes : Reg) (store : Bool)
    (hnone : c.checkTag addr = none) :
    ∃ c' victim, c.access addr bytes store =
      some (c', fillRequests c.geometry (c.line addr).toNat victim) ∧
      SameSizes c c' ∧
      (isValid victim = true → held h (lineOf victim) = some (isDirty victim) ∧
        lineOf victim % c.geometry.sets = (c.line addr).toNat % c.geometry.sets) ∧
      Holds c' (written store (c.line addr).toNat (filled (c.line addr).toNat victim h)) ∧
      Counted c' (written store (c.line addr).toNat (filled (c.line addr).toNat victim h)) := by
  have hsizes₀ := sameSizes_countAccess c bytes store
  have htags₀ := tags_countAccess c bytes store
  have hsizes := sameSizes_countMiss (c.countAccess bytes store) store
  have htags := (tags_countMiss (c.countAccess bytes store) store).trans htags₀
  have hwb := (writebacks_count (c.countAccess bytes store) bytes store).2.trans
    (writebacks_count c bytes store).1
  have hmiss := (checkTag_congr hsizes₀ htags₀ addr).trans hnone
  have hsame := hsizes₀.trans hsizes
  rw [access, hmiss]
  dsimp only
  -- the counters move no tag, so the line is still absent when the victim is taken
  generalize (c.countAccess bytes store).countMiss store = c₁ at hsame htags hwb ⊢
  have H₁ := H.of_tags hsame htags
  have hc₁ : Counted c₁ h := hwb.trans hc
  have hnone₁ := (checkTag_congr hsame htags addr).trans hnone
  obtain ⟨c₂, victim, hvictimize, hV⟩ :=
    victimize_spec H₁.sized H₁.keyed (by rw [hsame.ways]; exact hways) hnone₁
  -- the victim is replaced by the clean line
  have H₂ := H₁.replace hV (H₁.held_of_none hnone₁)
  rw [← filled] at H₂
  have hsent := sent_eq H₂.sized addr victim
  rw [hV.sizes.geometry_eq, hV.sizes.line_eq] at hsent
  rw [hvictimize, Option.bind_some, afterVictim, hsent, both_flags, ← hsame.geometry_eq,
    ← hsame.line_eq]
  have hcounted := counted_filled hc₁ hV.counters (c₁.line addr).toNat victim
  have hheld := victim_held H₁ hV
  have hsizes₃ : SameSizes c₂
      (if isValid victim && isDirty victim then c₂.countWriteback else c₂) := by
    split <;> exact ⟨rfl, rfl, rfl, rfl⟩
  -- its writeback is counted, which again moves no tag
  have H₃ := H₂.of_tags hsizes₃ (by split <;> rfl)
  dsimp only
  generalize (if isValid victim && isDirty victim then c₂.countWriteback else c₂) =
    c₃ at hsizes₃ hcounted H₃ ⊢
  have hsizes₄ := (hsame.trans hV.sizes).trans hsizes₃
  -- a store makes the line dirty, which a second lookup has to find
  cases store with
  | false => exact ⟨c₃, victim, rfl, hsizes₄, hheld, H₃, hcounted⟩
  | true =>
    have hline₃ : c₃.line addr = c₁.line addr := by rw [hsizes₃.line_eq, hV.sizes.line_eq]
    cases hk : c₃.checkTag addr with
    | none =>
      have habsent := H₃.held_of_none hk
      rw [hline₃, held_filled] at habsent
      cases habsent
    | some k =>
      rw [if_pos rfl, Option.map_some]
      obtain ⟨-, -, -, hvalid, -⟩ := checkTag_some H₃.sized H₃.keyed hk
      refine ⟨_, victim, rfl, hsizes₄.trans (sameSizes_setWord c₃ k _), hheld, ?_, ?_⟩
      · rw [written, if_pos rfl]
        rw [← hline₃] at H₃ ⊢
        refine H₃.setWord hk (by rw [isValid_or_dirty]; exact hvalid) (lineOf_or_dirty _) rfl ?_
        rw [held_filled, isDirty_or_dirty]
        rfl
      · exact hcounted.cons (congrArg Counters.writebacks (counters_setWord c₃ k _)) rfl

/-! ### Cleaning and invalidating -/

/-- Nothing that a map holds is invalidated. -/
def Spares (c : CacheSim) (inval : Bool) (addrs : List Reg) : Prop :=
  (∃ tags, c.tags = .array tags) ∨ inval = false ∨ ∀ a ∈ addrs, c.checkTag a = none

/-- Are the words in an array? -/
def inArray (c : CacheSim) : Bool :=
  match c.tags with
  | .array _ => true
  | .map _ => false

theorem inArray_iff {c : CacheSim} : c.inArray = true ↔ ∃ tags, c.tags = .array tags := by
  rw [inArray]
  cases c.tags with
  | array tags => exact iff_of_true rfl ⟨tags, rfl⟩
  | map entries => exact iff_of_false Bool.false_ne_true nofun

theorem spares_iff {c : CacheSim} {inval : Bool} {addrs : List Reg} :
    (c.inArray || !inval || addrs.all fun a => (c.checkTag a).isNone) = true ↔
      c.Spares inval addrs := by
  rw [Bool.or_eq_true, Bool.or_eq_true, inArray_iff, Bool.not_eq_true', List.all_eq_true, or_assoc]
  simp only [Option.isNone_iff_eq_none]
  exact Iff.rfl

instance (c : CacheSim) (inval : Bool) (addrs : List Reg) : Decidable (c.Spares inval addrs) :=
  decidable_of_iff _ spares_iff

/-- A word stored in an array is the word there. -/
theorem word_setWord {tags : Nat → Reg} (htags : c.tags = .array tags) (k : Nat) (w : Reg) :
    (c.setWord k w).word k = w ∧ ∃ tags', (c.setWord k w).tags = .array tags' := by
  have hset : c.setWord k w = { c with tags := .array (Function.update tags k w) } :=
    by rw [setWord, htags]
  rw [hset, word]
  exact ⟨Function.update_self k w tags, _, rfl⟩

/-- What `clean` makes of a line that was found. -/
theorem clean_spec (H : Holds c h) (hc : Counted c h) (clean : Bool) {k : Nat}
    (hk : c.checkTag addr = some k)
    {c' : CacheSim}
    (hc' : (if clean && hasBits (c.word k) dirty then c.countWriteback.setWord k
      (c.word k &&& ~~~dirty) else c) = c')
    {h' : List (Event Nat)}
    (hh' : (if clean && (held h (c.line addr).toNat == some true) then .cleaned
      (c.line addr).toNat :: h else h) = h') :
    SameSizes c c' ∧ Holds c' h' ∧ Counted c' h' ∧ ∀ tags, c.tags = .array tags →
      (∃ tags', c'.tags = .array tags') ∧ isValid (c'.word k) = true ∧
      lineOf (c'.word k) = (c.line addr).toNat := by
  obtain ⟨-, -, -, hvalid, hline⟩ := checkTag_some H.sized H.keyed hk
  have hheld := H.held_of_some hk
  have hflag : (some (isDirty (c.word k)) == some true) = isDirty (c.word k) :=
    by cases isDirty (c.word k) <;> rfl
  rw [hasBits_dirty] at hc'
  rw [hheld, hflag] at hh'
  cases hdirty : clean && isDirty (c.word k) with
  | false =>
    rw [hdirty, if_neg Bool.false_ne_true] at hc' hh'
    subst hc' hh'
    exact ⟨⟨rfl, rfl, rfl, rfl⟩, H, hc, fun tags htags => ⟨⟨tags, htags⟩, hvalid, hline⟩⟩
  | true =>
    rw [hdirty, if_pos rfl] at hc' hh'
    subst hc' hh'
    have hwb : SameSizes c c.countWriteback := ⟨rfl, rfl, rfl, rfl⟩
    have hk' := (checkTag_congr hwb rfl addr).trans hk
    refine ⟨hwb.trans (sameSizes_setWord _ k _), ?_, ?_, fun tags htags => ?_⟩
    · refine (H.of_tags hwb rfl).setWord hk' (by rw [isValid_and_not_dirty]; exact hvalid)
        (lineOf_and_not_dirty _)
        rfl ?_
      rw [hwb.line_eq, hheld, isDirty_and_not_dirty]
      rfl
    · exact hc.writeback (congrArg Counters.writebacks (counters_setWord c.countWriteback k _)) rfl
    · have htags' : c.countWriteback.tags = .array tags := htags
      obtain ⟨hword, harray⟩ := word_setWord htags' k (c.word k &&& ~~~dirty)
      rw [hword, isValid_and_not_dirty, lineOf_and_not_dirty]
      exact ⟨harray, hvalid, hline⟩

/-- One round of the loop. -/
theorem cleanLine_spec (H : Holds c h) (hc : Counted c h) (clean inval : Bool)
    (hspares : c.Spares inval [addr]) :
    SameSizes c (cleanLine clean inval c addr) ∧
      Holds (cleanLine clean inval c addr) (cleaned clean inval h (c.line addr).toNat) ∧
      Counted (cleanLine clean inval c addr) (cleaned clean inval h (c.line addr).toNat) := by
  rw [cleanLine, cleaned]
  cases hk : c.checkTag addr with
  | none =>
    rw [H.held_of_none hk]
    exact ⟨⟨rfl, rfl, rfl, rfl⟩, H, hc⟩
  | some k =>
    have hsome : (held h (c.line addr).toNat).isSome = true := by
      rw [H.held_of_some hk]
      rfl
    rw [if_pos hsome]
    dsimp only
    obtain ⟨hsizes, H', hc', harray⟩ := clean_spec H hc clean hk rfl rfl
    generalize (if clean && hasBits (c.word k) dirty then c.countWriteback.setWord k
      (c.word k &&& ~~~dirty) else c) = c'
      at hsizes H' hc' harray ⊢
    generalize (if clean && (held h (c.line addr).toNat == some true) then .cleaned
      (c.line addr).toNat :: h else h) = h'
      at H' hc' ⊢
    cases inval with
    | false => exact ⟨hsizes, H', hc'⟩
    | true =>
      obtain ⟨tags, htags⟩ | hno | hmiss := hspares
      · obtain ⟨⟨tags', htags'⟩, hvalid, hline⟩ := harray tags htags
        have hlt : k < c'.sets.toNat * c'.ways.toNat := by
          rw [hsizes.sets, hsizes.ways]
          exact checkTag_lt H.sized htags hk
        rw [if_pos rfl, if_pos rfl, ← hline]
        refine ⟨hsizes.trans (sameSizes_setWord c' k _),
          H'.invalidate htags' hlt hvalid (isValid_and_not_valid _), ?_⟩
        exact hc'.cons (congrArg Counters.writebacks (counters_setWord c' k _)) rfl
      · cases hno
      · rw [hmiss addr List.mem_cons_self] at hk
        cases hk

/-- An array stays one, and a line that is not found leaves a map alone. -/
theorem Spares.next {inval : Bool} {addrs : List Reg} (hspares : c.Spares inval (addr :: addrs))
    (clean : Bool) :
    (cleanLine clean inval c addr).Spares inval addrs := by
  obtain ⟨tags, htags⟩ | hno | hmiss := hspares
  · refine .inl ?_
    have hset : ∀ c' : CacheSim, (∃ tags, c'.tags = .array tags) →
      ∀ k w, ∃ tags, (c'.setWord k w).tags = .array tags :=
      fun c' ⟨tags', htags'⟩ k w => (word_setWord htags' k w).2
    rw [cleanLine]
    cases c.checkTag addr with
    | none => exact ⟨tags, htags⟩
    | some k =>
      dsimp only
      have hclean : ∃ tags, (if clean && hasBits (c.word k) dirty then
          c.countWriteback.setWord k (c.word k &&& ~~~dirty) else c).tags = .array tags := by
        split
        · exact hset c.countWriteback ⟨tags, htags⟩ k _
        · exact ⟨tags, htags⟩
      split
      · exact hset _ hclean k _
      · exact hclean
  · exact .inr (.inl hno)
  · refine .inr (.inr fun a ha => ?_)
    rw [cleanLine, hmiss addr List.mem_cons_self]
    exact hmiss a (List.mem_cons_of_mem addr ha)

/-- The loop of `clean_invalidate`, over any addresses. -/
theorem cleanLoop_spec (clean inval : Bool) (addrs : List Reg) :
    ∀ (c : CacheSim) (h : List (Event Nat)),
    Holds c h → Counted c h → c.Spares inval addrs →
      SameSizes c (addrs.foldl (cleanLine clean inval) c) ∧
        Holds (addrs.foldl (cleanLine clean inval) c)
          ((addrs.map fun a => (c.line a).toNat).foldl (cleaned clean inval) h) ∧
        Counted (addrs.foldl (cleanLine clean inval) c)
          ((addrs.map fun a => (c.line a).toNat).foldl (cleaned clean inval) h) := by
  induction addrs with
  | nil =>
    intro c h H hc _
    exact ⟨⟨rfl, rfl, rfl, rfl⟩, H, hc⟩
  | cons a addrs ih =>
    intro c h H hc hspares
    have hone : c.Spares inval [a] := by
      obtain harray | hno | hmiss := hspares
      · exact .inl harray
      · exact .inr (.inl hno)
      · exact .inr (.inr fun a' ha' => hmiss a'
          (by rw [List.mem_singleton.1 ha']; exact List.mem_cons_self))
    obtain ⟨hsizes, H', hc'⟩ := cleanLine_spec H hc clean inval hone
    obtain ⟨hsizes', H'', hc''⟩ := ih _ _ H' hc' (hspares.next clean)
    have hlines : (addrs.map fun a' => ((cleanLine clean inval c a).line a').toNat) =
        addrs.map fun a' => (c.line a').toNat := by
      refine List.map_congr_left fun a' _ => ?_
      rw [hsizes.line_eq]
    rw [hlines] at H'' hc''
    exact ⟨hsizes.trans hsizes', H'', hc''⟩

end CacheSim

end Nnemu

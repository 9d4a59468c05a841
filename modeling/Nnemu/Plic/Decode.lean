import Nnemu.Sim.Plic

/-!
# Accesses to the contexts of the PLIC

The registers of the contexts begin at `CONTEXT_BASE`, one page for each, up to `REG_SIZE`. An
access there succeeds when there is such a context, and for stores such a register. How far the
contexts reach depends on how many there are: it is not the window of the device that ends them.

The offsets are taken apart once (`decode_eq`): the context is the page, the register the offset in
the page. A load of eight bytes is two loads of four, so what decides is the context of the last
word (`LoadsContext`); a store needs a register for each of its words (`StoresContext`). A refused
access leaves the controller alone, except where the first half of a store of eight bytes has
already completed a claim (`StoresHalf`).
-/

namespace Nnemu

open Bytes

namespace Plic

variable {p : Plic} {off : Reg} {bytes : List (BitVec 8)}

/-- The context of an offset. -/
def contextOf (off : Nat) : Nat :=
  (off - 0x200000) / 0x1000

/-- The register of an offset, in the page of its context. -/
def contextReg (off : Nat) : Reg :=
  BitVec.ofNat 64 (off % 0x1000)

/-- There is a context at an offset. -/
def HasContext (p : Plic) (off : Nat) : Prop :=
  off < 0x1000000 ∧ contextOf off < p.size

instance (off : Nat) : Decidable (p.HasContext off) :=
  inferInstanceAs (Decidable (_ ∧ _))

theorem contextOf_le (off : Nat) : contextOf off ≤ contextOf (off + 4) :=
  Nat.div_le_div_right (Nat.sub_le_sub_right (Nat.le_add_right _ _) _)

/-- The words behind the two registers are of the same context. -/
theorem contextOf_add {off : Nat} (hge : 0x200000 ≤ off) (h : off % 0x1000 ≤ 4) :
    contextOf (off + 4) = contextOf off := by
  unfold contextOf
  omega

/-! ### Words -/

/-- How the code computes the context and the register. -/
theorem decode_eq (hge : 0x200000 ≤ off.toNat) :
    (off - contextBase).toNat / contextPerHart = contextOf off.toNat ∧
      off - (BitVec.ofNat 64 (contextOf off.toNat * contextPerHart) + contextBase) =
        contextReg off.toNat := by
  have hlt := off.isLt
  have hsub : (off - contextBase).toNat = off.toNat - 0x200000 := by
    rw [BitVec.toNat_sub]
    show (2 ^ 64 - 0x200000 + off.toNat) % 2 ^ 64 = _
    omega
  refine ⟨by rw [hsub]; rfl, ?_⟩
  apply BitVec.eq_of_toNat_eq
  rw [contextReg, contextOf, BitVec.toNat_sub, BitVec.toNat_add, BitVec.toNat_ofNat,
    BitVec.toNat_ofNat]
  show (2 ^ 64 - ((off.toNat - 0x200000) / 0x1000 * 0x1000 % 2 ^ 64 + 0x200000) % 2 ^ 64 +
    off.toNat) % 2 ^ 64 = _
  omega

/-- Contexts are behind the other registers. -/
theorem not_lt_context (hge : 0x200000 ≤ off.toNat) : ¬off < enableBase ∧ ¬off < contextBase := by
  rw [BitVec.lt_def, BitVec.lt_def]
  constructor
  · show ¬off.toNat < 0x2000
    omega
  · show ¬off.toNat < 0x200000
    omega

/-- The two tests for a context. -/
theorem ite_hasContext {α : Type} (x y : α) :
    (if off < regSize then if contextOf off.toNat < p.size then x else y else y) =
      if p.HasContext off.toNat then x else y := by
  have hsize : off < regSize ↔ off.toNat < 0x1000000 := BitVec.lt_def
  by_cases hlt : off.toNat < 0x1000000
  · rw [if_pos (hsize.2 hlt)]
    by_cases hin : contextOf off.toNat < p.size
    · rw [if_pos hin, if_pos ⟨hlt, hin⟩]
    · rw [if_neg hin, if_neg fun h : p.HasContext off.toNat => hin h.2]
  · rw [if_neg (mt hsize.1 hlt), if_neg fun h : p.HasContext off.toNat => hlt h.1]

/-- A word is loaded from a context. -/
theorem loadWord_context (hge : 0x200000 ≤ off.toNat) : p.loadWord off =
    if p.HasContext off.toNat then
      let r := p.contextRead (contextOf off.toNat) (contextReg off.toNat)
      (some (readLittleEndianReg 4 (r.1.setWidth 64) off 4), r.2)
    else (none, p) := by
  obtain ⟨henable, hcontext⟩ := not_lt_context hge
  rw [loadWord, if_neg henable, if_neg hcontext]
  dsimp only
  rw [(decode_eq hge).1, (decode_eq hge).2]
  rw [ite_hasContext]
  by_cases h : p.HasContext off.toNat
  · rw [if_pos h, if_pos h]
  · rw [if_neg h, if_neg h]

/-- A word is stored to a context. -/
theorem storeWord_context (hge : 0x200000 ≤ off.toNat) : p.storeWord off bytes =
    if p.HasContext off.toNat then
      p.contextWrite (contextOf off.toNat) (contextReg off.toNat)
      ((writeLittleEndianReg 4 0#64 off bytes).setWidth 32)
    else (false, p) := by
  obtain ⟨henable, hcontext⟩ := not_lt_context hge
  rw [storeWord, if_neg henable, if_neg hcontext]
  dsimp only
  rw [(decode_eq hge).1, (decode_eq hge).2]
  exact ite_hasContext _ _

theorem contextReg_eq_iff {off c : Nat} (hc : c < 0x1000) : contextReg off = BitVec.ofNat 64 c ↔
    off % 0x1000 = c := by
  rw [contextReg, ← BitVec.toNat_inj, BitVec.toNat_ofNat, BitVec.toNat_ofNat]
  omega

/-- Loads leave the number of contexts. -/
theorem size_contextRead (i : Nat) (reg : Reg) : (p.contextRead i reg).2.size = p.size := by
  rw [contextRead]
  split
  · rfl
  · split
    · dsimp only
      rw [contextClaim]
      dsimp only
      split
      · rfl
      · rfl
    · rfl

theorem contextRead_of_ne {i : Nat} {reg : Reg} (h : reg ≠ contextClaimOffset) :
    (p.contextRead i reg).2 = p := by
  rw [contextRead, if_neg h]
  split
  · rfl
  · rfl

theorem size_contextWrite (i : Nat) (reg : Reg) (val : BitVec 32) :
    (p.contextWrite i reg val).2.size = p.size := by
  rw [contextWrite]
  split
  · rfl
  · split
    · split
      · rfl
      · rfl
    · rfl

/-! ### Accesses -/

/-- A load from the contexts succeeds. -/
def LoadsContext (p : Plic) (off n : Nat) : Prop :=
  (n = 4 ∨ n = 8) ∧ p.HasContext (off + n - 4)

/-- **Loads** from the contexts succeed when there is a context for the last word, and change
nothing otherwise. -/
theorem load_context {n : Nat} (hge : 0x200000 ≤ off.toNat) (hlt : off.toNat < 2 ^ 32) :
    (p.LoadsContext off.toNat n → ∃ got p', p.load off n = (some got, p')) ∧
      (¬p.LoadsContext off.toNat n → p.load off n = (none, p)) := by
  rw [load, LoadsContext]
  by_cases hfour : n = 4
  · subst hfour
    rw [if_pos rfl, loadWord_context hge, Nat.add_sub_cancel]
    by_cases hhas : p.HasContext off.toNat
    · rw [if_pos hhas]
      exact ⟨fun _ => ⟨_, _, rfl⟩, fun h => absurd ⟨Or.inl rfl, hhas⟩ h⟩
    · rw [if_neg hhas]
      exact ⟨fun h => absurd h.2 hhas, fun _ => rfl⟩
  by_cases height : n = 8
  · subst height
    have hnext : (off + 4#64).toNat = off.toNat + 4 := by
      rw [BitVec.toNat_add]
      show (off.toNat + 4) % 2 ^ 64 = _
      omega
    have hlast : off.toNat + 8 - 4 = off.toNat + 4 := by omega
    rw [if_neg (by decide), if_pos rfl, loadWord_context hge, hlast]
    by_cases hhas : p.HasContext off.toNat
    · rw [if_pos hhas]
      dsimp only
      rw [loadWord_context (by omega), hnext]
      have hsame : (p.contextRead (contextOf off.toNat) (contextReg off.toNat)).2.HasContext
        (off.toNat + 4) ↔
          p.HasContext (off.toNat + 4) := by rw [HasContext, size_contextRead, HasContext]
      by_cases hhas' : p.HasContext (off.toNat + 4)
      · rw [if_pos (hsame.2 hhas')]
        exact ⟨fun _ => ⟨_, _, rfl⟩, fun h => absurd ⟨Or.inr rfl, hhas'⟩ h⟩
      · -- the first word was the last of its context
        have hreg : contextReg off.toNat ≠ contextClaimOffset := by
          intro heq
          have hclaim := (contextReg_eq_iff (by decide)).1 heq
          obtain ⟨hlt', hsize⟩ := hhas
          have hlt'' : off.toNat + 4 < 0x1000000 := by omega
          have hsize' : contextOf (off.toNat + 4) < p.size :=
            by rwa [contextOf_add hge (Nat.le_of_eq hclaim)]
          exact hhas' ⟨hlt'', hsize'⟩
        rw [if_neg (mt hsame.1 hhas'), contextRead_of_ne hreg]
        exact ⟨fun h => absurd h.2 hhas', fun _ => rfl⟩
    · have hhas' : ¬p.HasContext (off.toNat + 4) := by
        rintro ⟨hlt', hsize⟩
        have hsize' : contextOf off.toNat < p.size :=
          Nat.lt_of_le_of_lt (contextOf_le off.toNat) hsize
        exact hhas ⟨Nat.lt_of_le_of_lt (Nat.le_add_right _ _) hlt', hsize'⟩
      rw [if_neg hhas]
      exact ⟨fun h => absurd h.2 hhas', fun _ => rfl⟩
  · rw [if_neg hfour, if_neg height]
    exact ⟨fun h => absurd h.1 (not_or.2 ⟨hfour, height⟩), fun _ => rfl⟩

/-- The controller is the same, but for the interrupt lines of the harts. -/
structure SameRegs (p p' : Plic) : Prop where
  size : p'.size = p.size
  contexts : p'.contexts = p.contexts
  numIds : p'.numIds = p.numIds
  priority : p'.priority = p.priority
  level : p'.level = p.level

theorem SameRegs.refl (p : Plic) : SameRegs p p :=
  ⟨rfl, rfl, rfl, rfl, rfl⟩

/-- The value of a word. -/
def wordValue (off : Reg) (bytes : List (BitVec 8)) : BitVec 32 :=
  (writeLittleEndianReg 4 0#64 off bytes).setWidth 32

/-- A word completes a claim of a context. -/
def Completes (p : Plic) (i : Nat) (val : BitVec 32) : Prop :=
  val.toNat < p.numIds ∧ (p.contexts i).enable.has val.toNat = true ∧
    (p.contexts i).claimed.has val.toNat = true

/-- A store to the contexts succeeds. -/
def StoresContext (p : Plic) (off n : Nat) : Prop :=
  p.HasContext off ∧ ((off % 0x1000 = 0 ∧ (n = 4 ∨ n = 8)) ∨ (off % 0x1000 = 4 ∧ n = 4))

/-- A store to the contexts fails when a word of it has been stored. -/
def StoresHalf (p : Plic) (off : Reg) (bytes : List (BitVec 8)) : Prop :=
  p.HasContext off.toNat ∧ off.toNat % 0x1000 = 4 ∧ bytes.length = 8 ∧
    p.Completes (contextOf off.toNat) (wordValue off (bytes.take 4))

theorem contextWrite_threshold {i : Nat} {reg : Reg} {val : BitVec 32}
    (h : reg = contextThreshold) :
    (p.contextWrite i reg val).1 = true := by
  rw [contextWrite, if_pos h]

theorem contextWrite_claim {i : Nat} {val : BitVec 32} :
    (p.contextWrite i contextClaimOffset val).1 = true := by
  rw [contextWrite, if_neg (by decide), if_pos rfl]
  split
  · rfl
  · rfl

theorem contextWrite_other {i : Nat} {reg : Reg} {val : BitVec 32} (h : reg ≠ contextThreshold)
    (h' : reg ≠ contextClaimOffset) : p.contextWrite i reg val = (false, p) := by
  rw [contextWrite, if_neg h, if_neg h']

/-- A word to the register of claims changes the controller when it completes one. -/
theorem sameRegs_contextWrite {i : Nat} {val : BitVec 32} :
    SameRegs p (p.contextWrite i contextClaimOffset val).2 ↔ ¬p.Completes i val := by
  rw [contextWrite, if_neg (by decide), if_pos rfl, Completes]
  split
  · rename_i hvalid
    rw [and_iff_right hvalid.1, and_iff_right hvalid.2, Bool.not_eq_true,
      ← Words.erase_eq_self_iff (by decide)]
    constructor
    · intro h
      have hcontext := congrArg PlicContext.claimed (congrFun h.contexts i)
      rw [contextUpdate, setContext] at hcontext
      dsimp only at hcontext
      rwa [Function.update_self] at hcontext
    · intro h
      rw [h]
      exact ⟨rfl, Function.update_eq_self i p.contexts, rfl, rfl, rfl⟩
  · rename_i hvalid
    exact iff_of_true (SameRegs.refl p) fun h => hvalid ⟨h.1, h.2.1⟩

/-- A store of which no word is accepted. -/
theorem store_refused (h : ∀ bytes, p.storeWord off bytes = (false, p)) :
    p.store off bytes = (false, p) := by
  rw [store, h, h]
  split
  · rfl
  · split
    · rfl
    · rfl

theorem store_four (h : bytes.length = 4) : p.store off bytes = p.storeWord off bytes := by
  rw [store, if_pos h]

theorem store_eight {p' : Plic} (h : bytes.length = 8)
    (hlow : p.storeWord off (bytes.take 4) = (true, p')) :
    p.store off bytes = p'.storeWord (off + 4#64) (bytes.drop 4) := by
  rw [store, if_neg (by omega), if_pos h, hlow]

theorem store_other (hfour : bytes.length ≠ 4) (height : bytes.length ≠ 8) :
    p.store off bytes = (false, p) := by
  rw [store, if_neg hfour, if_neg height]

/-- **Stores** to the contexts succeed at the two registers, and change nothing otherwise, unless
they have two words of which the first completes a claim. -/
theorem store_context (hge : 0x200000 ≤ off.toNat) (hlt : off.toNat < 2 ^ 32) :
    (p.StoresContext off.toNat bytes.length → ∃ p', p.store off bytes = (true, p')) ∧
      (¬p.StoresContext off.toNat bytes.length →
        ∃ p', p.store off bytes = (false, p') ∧ (SameRegs p p' ↔ ¬p.StoresHalf off bytes)) := by
  have hthreshold : contextReg off.toNat = contextThreshold ↔ off.toNat % 0x1000 = 0 :=
    contextReg_eq_iff (by decide)
  have hclaim : contextReg off.toNat = contextClaimOffset ↔ off.toNat % 0x1000 = 4 :=
    contextReg_eq_iff (by decide)
  have hrefused (h : ¬p.StoresContext off.toNat bytes.length ∧ ¬p.StoresHalf off bytes)
      (hstore : p.store off bytes = (false, p)) :
      (p.StoresContext off.toNat bytes.length → ∃ p', p.store off bytes = (true, p')) ∧
        (¬p.StoresContext off.toNat bytes.length →
          ∃ p', p.store off bytes = (false, p') ∧ (SameRegs p p' ↔ ¬p.StoresHalf off bytes)) :=
    ⟨fun h' => absurd h' h.1, fun _ => ⟨p, hstore, iff_of_true (SameRegs.refl p) h.2⟩⟩
  by_cases hhas : p.HasContext off.toNat
  swap
  · -- there is no such context
    refine hrefused ⟨fun h => hhas h.1, fun h => hhas h.1⟩ (store_refused fun bytes => ?_)
    rw [storeWord_context hge, if_neg hhas]
  by_cases hlen : bytes.length = 4 ∨ bytes.length = 8
  swap
  · refine hrefused ⟨?_, ?_⟩ (store_other (not_or.1 hlen).1 (not_or.1 hlen).2)
    · rintro ⟨-, ⟨-, h⟩ | ⟨-, h⟩⟩
      · exact hlen h
      · exact hlen (Or.inl h)
    · rintro ⟨-, -, h, -⟩
      exact hlen (Or.inr h)
  have hnext : (off + 4#64).toNat = off.toNat + 4 := by
    rw [BitVec.toNat_add]
    show (off.toNat + 4) % 2 ^ 64 = _
    omega
  by_cases hreg : off.toNat % 0x1000 = 0
  · -- the threshold, and the register of claims if there are two words
    refine ⟨fun _ => ?_, fun h => absurd ⟨hhas, Or.inl ⟨hreg, hlen⟩⟩ h⟩
    have hword (bytes : List (BitVec 8)) : ∃ p', p.storeWord off bytes = (true, p') ∧
        p'.size = p.size := by
      rw [storeWord_context hge, if_pos hhas]
      exact ⟨_, Prod.ext (contextWrite_threshold (hthreshold.2 hreg)) rfl, size_contextWrite _ _ _⟩
    obtain hfour | height := hlen
    · obtain ⟨p', hstore, -⟩ := hword bytes
      exact ⟨p', (store_four hfour).trans hstore⟩
    · obtain ⟨p', hlow, hsize⟩ := hword (bytes.take 4)
      have hhas' : p'.HasContext (off.toNat + 4) := by
        obtain ⟨hlt', hin⟩ := hhas
        have hlt'' : off.toNat + 4 < 0x1000000 := by omega
        refine ⟨hlt'', ?_⟩
        rwa [contextOf_add hge (by omega), hsize]
      have hreg' : contextReg (off.toNat + 4) = contextClaimOffset :=
        (contextReg_eq_iff (by decide)).2 (by omega)
      rw [store_eight height hlow, storeWord_context (by omega), hnext, if_pos hhas', hreg']
      exact ⟨_, Prod.ext contextWrite_claim rfl⟩
  by_cases hreg' : off.toNat % 0x1000 = 4
  · -- the register of claims
    have hword (bytes : List (BitVec 8)) : p.storeWord off bytes =
        (true, (p.contextWrite (contextOf off.toNat) contextClaimOffset (wordValue off bytes)).2) :=
          by
      rw [storeWord_context hge, if_pos hhas, hclaim.2 hreg']
      exact Prod.ext contextWrite_claim rfl
    obtain hfour | height := hlen
    · exact ⟨fun _ => ⟨_, (store_four hfour).trans (hword bytes)⟩,
        fun h => absurd ⟨hhas, Or.inr ⟨hreg', hfour⟩⟩ h⟩
    · -- there is no register behind it
      have hbehind : contextReg (off.toNat + 4) ≠ contextThreshold ∧
        contextReg (off.toNat + 4) ≠ contextClaimOffset :=
        ⟨mt (contextReg_eq_iff (by decide)).1 (by omega),
          mt (contextReg_eq_iff (by decide)).1 (by omega)⟩
      have hstore : p.store off bytes =
          (false, (p.contextWrite (contextOf off.toNat) contextClaimOffset
            (wordValue off (bytes.take 4))).2) := by
        rw [store_eight height (hword _), storeWord_context (by omega),
          hnext, contextWrite_other hbehind.1 hbehind.2]
        split
        · rfl
        · rfl
      refine ⟨fun h => ?_, fun _ => ⟨_, hstore, ?_⟩⟩
      · obtain ⟨-, ⟨h, -⟩ | ⟨-, h⟩⟩ := h
        · exact absurd h hreg
        · omega
      · rw [sameRegs_contextWrite, StoresHalf, and_iff_right hhas, and_iff_right hreg',
          and_iff_right height]
  · -- no register
    refine hrefused ⟨?_, fun h => hreg' h.2.1⟩ (store_refused fun bytes => ?_)
    · rintro ⟨-, ⟨h, -⟩ | ⟨h, -⟩⟩
      · exact hreg h
      · exact hreg' h
    · rw [storeWord_context hge, if_pos hhas,
        contextWrite_other (mt hthreshold.1 hreg) (mt hclaim.1 hreg')]

end Plic

end Nnemu

import Nnemu.Pmp.Lock

/-!
# What can be written can be read

A `pmpcfg` write drops W from a byte without R, unless MML is set; with MML the pair is a shared
region, which loads may always read. So a store that PMP permits could have been a load.

The invariant is about every entry: W without R is found with MML only (`WriteReadable`). It holds
after a reset and after every write, and is used where an atomic operation must not fail in the
middle: the load of `mmu_t::amo` follows a store that was only tried.
-/

namespace Nnemu

namespace Pmp

/-- Entries that permit writes permit reads, unless MML gives the pair another meaning. -/
def WriteReadable (p : Pmp) : Prop :=
  p.getMml = false → ∀ i, hasBits (p.cfg i) pmpW = true → hasBits (p.cfg i) pmpR = true

/-- The states that writes lead to, from entries that are off. -/
def Reached (p : Pmp) : Prop :=
  ∃ p₀ ws, (∀ i, p₀.cfg i = 0#8) ∧ p = Run.run write p₀ ws

/-! ### Writes -/

/-- The byte that a `pmpcfg` write stores has R where it has W. -/
theorem legalizeCfg_writeReadable (lgGranularity : Nat) (byte : BitVec 8)
    (h : hasBits (legalizeCfg false lgGranularity byte) pmpW = true) :
    hasBits (legalizeCfg false lgGranularity byte) pmpR = true := by
  -- `W` is dropped where `R` is missing, and the granularity touches neither
  have hdrop : ∀ cfg : BitVec 8,
  hasBits (cfg &&& (~~~pmpW ||| (if hasBits cfg pmpR then pmpW else 0#8))) pmpW = true →
      hasBits (cfg &&& (~~~pmpW ||| (if hasBits cfg pmpR then pmpW else 0#8))) pmpR = true :=
        by decide +kernel
  have hnapot : ∀ cfg : BitVec 8, hasBits (cfg ||| pmpNapot) pmpW = hasBits cfg pmpW ∧
      hasBits (cfg ||| pmpNapot) pmpR = hasBits cfg pmpR := by decide +kernel
  rw [legalizeCfg] at h ⊢
  simp only [Bool.not_false, if_true] at h ⊢
  have hdropped := hdrop (byte &&& (pmpR ||| pmpW ||| pmpX ||| pmpA ||| pmpL))
  generalize byte &&& (pmpR ||| pmpW ||| pmpX ||| pmpA ||| pmpL) &&& _ = cfg at h hdropped ⊢
  by_cases hcond : lgGranularity ≠ pmpShift ∧ cfg &&& pmpA = pmpNa4
  · rw [if_pos hcond] at h ⊢
    rw [(hnapot cfg).1] at h
    rw [(hnapot cfg).2]
    exact hdropped h
  · rw [if_neg hcond] at h ⊢
    exact hdropped h

theorem writeReadable_setEntry {p : Pmp} (h : p.WriteReadable) (i : Nat) {e : PmpEntry}
    (he : p.getMml = false → hasBits e.cfg pmpW = true → hasBits e.cfg pmpR = true) :
    (p.setEntry i e).WriteReadable := by
  intro hmml j
  rw [cfg]
  by_cases hji : j = i
  · subst hji
    rw [setEntry_pmpaddr_self]
    exact he hmml
  · rw [setEntry_pmpaddr_of_ne _ _ _ hji]
    exact h hmml j

theorem writeReadable_pmpcfgWriteEntry {p : Pmp} (h : p.WriteReadable) (i : Nat) (byte : BitVec 8) :
    (p.pmpcfgWriteEntry i byte).WriteReadable := by
  unfold pmpcfgWriteEntry
  split
  · split
    · dsimp only
      split
      · exact h
      · refine writeReadable_setEntry h i fun hmml => ?_
        rw [hmml]
        exact legalizeCfg_writeReadable _ _
    · exact h
  · exact h

theorem writeReadable_pmpcfgLoop {p : Pmp} (h : p.WriteReadable) (n : Nat)
    (v : Reg) (ks : List Nat) :
    (ks.foldl (fun q k => q.pmpcfgWriteEntry (4 * n + k) ((v >>> (8 * k)).setWidth 8))
      p).WriteReadable := by
  induction ks generalizing p with
  | nil => exact h
  | cons k ks ih => exact ih (writeReadable_pmpcfgWriteEntry h _ _)

/-- **Every write** to a protection CSR keeps writable entries readable. -/
theorem writeReadable_write {p : Pmp} (h : p.WriteReadable) (w : Write) :
    (p.write w).WriteReadable := by
  cases w with
  | pmpaddr i v =>
    rw [write, pmpaddrWrite]
    split
    · exact h
    · dsimp only
      split
      · exact writeReadable_setEntry h i fun hmml => h hmml i
      · exact h
  | pmpcfg xlen n v =>
    rw [write, pmpcfgWrite]
    split
    · exact h
    · rw [Option.getD_some]
      exact writeReadable_pmpcfgLoop h n v _
  | mseccfg v =>
    rw [write, mseccfgWrite]
    split
    · exact h
    · intro hmml
      have hnext := hasBits_mseccfgNext_mml p v
      have hold : hasBits (p.mseccfgNext v) mseccfgMml = false := hmml
      rw [hold] at hnext
      exact h (Bool.or_eq_false_iff.1 hnext.symm).1

theorem Reached.writeReadable {p : Pmp} (h : p.Reached) : p.WriteReadable := by
  obtain ⟨p₀, ws, hzero, rfl⟩ := h
  have hstart : p₀.WriteReadable := by
    intro _ i hw
    rw [hzero] at hw
    exact absurd hw (by decide)
  exact Run.run_induct (I := WriteReadable) (fun _ w hp => writeReadable_write hp w) hstart ws

/-! ### Accesses -/

theorem accessOk_load_of_store {p : Pmp} (h : p.WriteReadable) {i : Nat} {mode : Reg}
    (hok : p.accessOk i .store mode = true) : p.accessOk i .load mode = true := by
  have hwr := fun hmml => h hmml i
  rw [accessOk] at hok ⊢
  revert hok hwr
  cases p.getMml <;> cases hasBits (p.cfg i) pmpX <;> cases hasBits (p.cfg i) pmpW <;>
    cases hasBits (p.cfg i) pmpR <;>
    cases hasBits (p.cfg i) pmpL <;> cases mode == prvM <;> decide

theorem noMatchOk_load_of_store {p : Pmp} {mode : Reg} (hok : p.noMatchOk .store mode = true) :
    p.noMatchOk .load mode = true := by
  rw [noMatchOk] at hok ⊢
  revert hok
  cases mode == prvM <;> cases p.getMmwp <;> cases p.getMml <;> decide

/-- **A permitted store** could have been a load. -/
theorem pmpOk_load_of_store {p : Pmp} (h : p.WriteReadable) {addr : Reg} {len : Nat} {mode : Reg}
    (hok : p.pmpOk addr len .store mode = true) : p.pmpOk addr len .load mode = true := by
  rw [pmpOk] at hok ⊢
  split at hok
  · rw [if_pos ‹_›]
  · rw [if_neg ‹_›]
    split at hok
    · obtain ⟨hall, haccess⟩ := Bool.and_eq_true_iff.1 hok
      exact Bool.and_eq_true_iff.2 ⟨hall, accessOk_load_of_store h haccess⟩
    · exact noMatchOk_load_of_store hok

end Pmp

end Nnemu

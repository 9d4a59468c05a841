import Nnemu.Lib.Run
import Nnemu.Pmp.Basic

/-!
# Locked entries

Locking is enforced in three places: a `pmpaddr` write looks at the lock bit of its own entry and at
a locked TOR entry above it, a `pmpcfg` write skips locked entries one by one, and a `mseccfg` write
keeps RLB at 0 while anything is locked. `LockStep p q` says what all of them guarantee about the
states before and after, and it composes, so it holds across any list of writes.

`LockStep` has a field for each thing a locked entry relies on: the entry itself, the address of the
entry below where the mode is TOR, and RLB, which stays clear; MML and MMWP are in it because they
cannot be cleared. Each write is shown to be such a step, `pmpcfg` by an induction over the four or
eight bytes it sets, and the theorem is the composition over the run.
-/

namespace Nnemu

namespace Pmp

/-- A write to one of the protection CSRs. -/
inductive Write where
  | pmpaddr (i : Nat) (v : Reg)
  | pmpcfg (xlen : Xlen) (n : Nat) (v : Reg)
  | mseccfg (v : Reg)

/-- The state after a write; a write the code refuses changes nothing. -/
def write (p : Pmp) : Write → Pmp
  | .pmpaddr i v => (p.pmpaddrWrite i v).getD p
  | .pmpcfg xlen n v => (p.pmpcfgWrite xlen n v).getD p
  | .mseccfg v => (p.mseccfgWrite v).getD p

/-! ### What a single entry update leaves alone -/

section SetEntry

variable (p : Pmp) (i : Nat) (e : PmpEntry)

@[simp] theorem setEntry_nPmp : (p.setEntry i e).nPmp = p.nPmp := rfl
@[simp] theorem setEntry_mseccfg : (p.setEntry i e).mseccfg = p.mseccfg := rfl
@[simp] theorem setEntry_getRlb : (p.setEntry i e).getRlb = p.getRlb := rfl
@[simp] theorem setEntry_getMml : (p.setEntry i e).getMml = p.getMml := rfl
@[simp] theorem setEntry_getMmwp : (p.setEntry i e).getMmwp = p.getMmwp := rfl

@[simp] theorem setEntry_pmpaddr_self : (p.setEntry i e).pmpaddr i = e := by
  simp [setEntry]

theorem setEntry_pmpaddr_of_ne {j : Nat} (h : j ≠ i) :
    (p.setEntry i e).pmpaddr j = p.pmpaddr j := by
  simp [setEntry, h]

end SetEntry

/-! ### The guarantee -/

/-- What one write promises: `n_pmp` is fixed, the sticky bits stay set, and while RLB is clear a
locked entry, its lock and, in TOR mode, the address below it are frozen. -/
structure LockStep (p q : Pmp) : Prop where
  nPmp : q.nPmp = p.nPmp
  mml : p.getMml = true → q.getMml = true
  mmwp : p.getMmwp = true → q.getMmwp = true
  rlb : ∀ i, i < p.nPmp → p.getRlb = false → p.isLocked i = true → q.getRlb = false
  entry : ∀ i, i < p.nPmp → p.getRlb = false → p.isLocked i = true → q.pmpaddr i = p.pmpaddr i
  below : ∀ i, i + 1 < p.nPmp → p.getRlb = false → p.isLocked (i + 1) = true →
    p.cfg (i + 1) &&& pmpA = pmpTor → q.val i = p.val i

namespace LockStep

/-- Nothing is written. -/
theorem refl (p : Pmp) : LockStep p p :=
  ⟨rfl, id, id, fun _ _ h _ => h, fun _ _ _ _ => rfl, fun _ _ _ _ _ => rfl⟩

/-- A frozen entry is still locked, so the guarantee carries over to the next write. -/
theorem trans {p q r : Pmp} (h : LockStep p q) (h' : LockStep q r) : LockStep p r := by
  have locked : ∀ i, i < p.nPmp → p.getRlb = false → p.isLocked i = true →
      i < q.nPmp ∧ q.getRlb = false ∧ q.isLocked i = true := by
    intro i hi hr hl
    refine ⟨by rw [h.nPmp]; exact hi, h.rlb i hi hr hl, ?_⟩
    rw [isLocked, cfg, h.entry i hi hr hl]
    exact hl
  refine ⟨h'.nPmp.trans h.nPmp, fun hm => h'.mml (h.mml hm), fun hm => h'.mmwp (h.mmwp hm),
    ?_, ?_, ?_⟩
  · intro i hi hr hl
    obtain ⟨hi', hr', hl'⟩ := locked i hi hr hl
    exact h'.rlb i hi' hr' hl'
  · intro i hi hr hl
    obtain ⟨hi', hr', hl'⟩ := locked i hi hr hl
    exact (h'.entry i hi' hr' hl').trans (h.entry i hi hr hl)
  · intro i hi hr hl ht
    obtain ⟨hi', hr', hl'⟩ := locked (i + 1) hi hr hl
    have ht' : q.cfg (i + 1) &&& pmpA = pmpTor := by rw [cfg, h.entry (i + 1) hi hr hl]; exact ht
    exact (h'.below i hi' hr' hl' ht').trans (h.below i hi hr hl ht)

/-- Updating one entry is safe when the entry is not frozen and, if its address changes, is not the
base of a frozen TOR entry. -/
theorem setEntry {p : Pmp} {i : Nat} {e : PmpEntry}
    (hself : p.getRlb = false → p.isLocked i = true → e = p.pmpaddr i)
    (hval : i + 1 < p.nPmp → p.getRlb = false → p.isLocked (i + 1) = true →
      p.cfg (i + 1) &&& pmpA = pmpTor → e.val = p.val i) :
    LockStep p (p.setEntry i e) := by
  refine ⟨rfl, id, id, fun _ _ h _ => h, ?_, ?_⟩
  · intro j _ hr hl
    by_cases hji : j = i
    · subst hji
      rw [setEntry_pmpaddr_self, hself hr hl]
    · rw [setEntry_pmpaddr_of_ne _ _ _ hji]
  · intro j hj hr hl ht
    by_cases hji : j = i
    · subst hji
      rw [val, setEntry_pmpaddr_self]
      exact hval hj hr hl ht
    · rw [val, setEntry_pmpaddr_of_ne _ _ _ hji, val]

end LockStep

/-! ### The three writes -/

/-- A write to an address is refused for a locked entry and for the one below a locked TOR entry. -/
theorem lockStep_pmpaddrWrite {p q : Pmp} {i : Nat} {v : Reg} (h : p.pmpaddrWrite i v = some q) :
    LockStep p q := by
  unfold pmpaddrWrite at h
  split at h
  · exact absurd h (by simp)
  · dsimp only at h
    split at h
    case isFalse => exact absurd h (by simp)
    case isTrue hguard =>
      obtain rfl := Option.some.inj h
      simp only [Bool.and_eq_true, decide_eq_true_eq, Bool.not_eq_true'] at hguard
      obtain ⟨⟨-, hlocked⟩, hnext⟩ := hguard
      apply LockStep.setEntry
      · intro hr hl
        have hbits : hasBits (p.cfg i) pmpL = true := hl
        rw [hr, hbits] at hlocked
        exact absurd hlocked (by decide)
      · -- the entry above cannot be a frozen TOR entry
        intro hi hr hl ht
        have hmax : ¬ maxPmp ≤ i + 1 := by
          have := p.nPmp_le
          omega
        have hbits : hasBits (p.cfg (i + 1)) pmpL = true := hl
        rw [nextLockedAndTor, if_neg hmax, hr, hbits, ht] at hnext
        exact absurd hnext (by decide)

/-- One byte of a `pmpcfg` register. -/
theorem lockStep_pmpcfgWriteEntry (p : Pmp) (i : Nat) (byte : BitVec 8) :
    LockStep p (p.pmpcfgWriteEntry i byte) := by
  unfold pmpcfgWriteEntry
  split
  case isFalse => exact LockStep.refl p
  case isTrue =>
    split
    case isFalse => exact LockStep.refl p
    case isTrue hopen =>
      dsimp only
      split
      · exact LockStep.refl p
      · apply LockStep.setEntry
        · intro hr hl
          rw [hr, hl] at hopen
          exact absurd hopen (by decide)
        · intro _ _ _ _
          rfl

/-- The loop over the bytes of a `pmpcfg` register, one round after the other. -/
theorem lockStep_pmpcfgLoop (n : Nat) (v : Reg) (p : Pmp) (ks : List Nat) :
    LockStep p (ks.foldl
      (fun q k => q.pmpcfgWriteEntry (4 * n + k) ((v >>> (8 * k)).setWidth 8)) p) := by
  induction ks generalizing p with
  | nil => exact LockStep.refl p
  | cons k ks ih => exact (lockStep_pmpcfgWriteEntry p _ _).trans (ih _)

theorem lockStep_pmpcfgWrite {p q : Pmp} {xlen : Xlen} {n : Nat} {v : Reg}
    (h : p.pmpcfgWrite xlen n v = some q) : LockStep p q := by
  unfold pmpcfgWrite at h
  split at h
  · exact absurd h (by simp)
  · obtain rfl := Option.some.inj h
    exact lockStep_pmpcfgLoop n v p _

/-- The sticky bits and RLB of the value a `mseccfg` write stores. -/
theorem hasBits_mseccfgNext_mml (p : Pmp) (v : Reg) :
    hasBits (p.mseccfgNext v) mseccfgMml = (p.getMml || hasBits v mseccfgMml) := by
  simp only [mseccfgNext, getMml]
  split <;> simp [hasBits_or, hasBits_and, mseccfgMml, mseccfgMmwp, mseccfgRlb]

theorem hasBits_mseccfgNext_mmwp (p : Pmp) (v : Reg) :
    hasBits (p.mseccfgNext v) mseccfgMmwp = (p.getMmwp || hasBits v mseccfgMmwp) := by
  simp only [mseccfgNext, getMmwp]
  split <;> simp [hasBits_or, hasBits_and, mseccfgMml, mseccfgMmwp, mseccfgRlb]

/-- RLB cannot be set while it is clear and some implemented entry is locked. -/
theorem hasBits_mseccfgNext_rlb {p : Pmp} {i : Nat} (v : Reg) (hi : i < p.nPmp)
    (hr : p.getRlb = false) (hl : p.isLocked i = true) :
    hasBits (p.mseccfgNext v) mseccfgRlb = false := by
  have hrec : (List.range p.nPmp).any p.isLocked = true :=
    List.any_eq_true.2 ⟨i, List.mem_range.2 hi, hl⟩
  have hrlb : (p.mseccfg &&& mseccfgRlb == 0#64) = true := by
    simpa [getRlb, hasBits] using hr
  have hr' : hasBits p.mseccfg mseccfgRlb = false := hr
  simp only [mseccfgNext, hrec, hrlb, Bool.and_self, Bool.not_true, Bool.false_eq_true, if_false,
    hasBits_or, hasBits_and, hr', Bool.false_or]
  simp [mseccfgMml, mseccfgMmwp, mseccfgRlb]

/-- A write to `mseccfg` may set RLB only while no entry is locked. -/
theorem lockStep_mseccfgWrite {p q : Pmp} {v : Reg} (h : p.mseccfgWrite v = some q) :
    LockStep p q := by
  unfold mseccfgWrite at h
  split at h
  · exact absurd h (by simp)
  · obtain rfl := Option.some.inj h
    refine ⟨rfl, ?_, ?_, ?_, fun _ _ _ _ => rfl, fun _ _ _ _ _ => rfl⟩
    · intro hm
      rw [getMml, hasBits_mseccfgNext_mml, hm, Bool.true_or]
    · intro hm
      rw [getMmwp, hasBits_mseccfgNext_mmwp, hm, Bool.true_or]
    · intro i hi hr hl
      exact hasBits_mseccfgNext_rlb v hi hr hl

theorem lockStep_write (p : Pmp) (w : Write) : LockStep p (p.write w) := by
  cases w with
  | pmpaddr i v =>
    cases h : p.pmpaddrWrite i v with
    | none => simpa [write, h] using LockStep.refl p
    | some q => simpa [write, h] using lockStep_pmpaddrWrite h
  | pmpcfg xlen n v =>
    cases h : p.pmpcfgWrite xlen n v with
    | none => simpa [write, h] using LockStep.refl p
    | some q => simpa [write, h] using lockStep_pmpcfgWrite h
  | mseccfg v =>
    cases h : p.mseccfgWrite v with
    | none => simpa [write, h] using LockStep.refl p
    | some q => simpa [write, h] using lockStep_mseccfgWrite h

/-- The guarantee across any list of writes. -/
theorem lockStep_run (p : Pmp) (ws : List Write) : LockStep p (Run.run write p ws) :=
  Run.run_rel LockStep.refl (fun _ _ _ => LockStep.trans) lockStep_write p ws

/-- **Locked entries are frozen.** Whatever is written to the protection CSRs, MML and MMWP stay set
once they are, and while RLB is clear a locked entry keeps its configuration and its address, RLB
stays clear, and an entry in TOR mode also keeps the address below it. -/
theorem locked_entry_frozen (p : Pmp) (ws : List Write) :
    (∀ i, i < p.nPmp → p.getRlb = false → p.isLocked i = true →
      (Run.run write p ws).cfg i = p.cfg i ∧ (Run.run write p ws).val i = p.val i ∧
      (Run.run write p ws).getRlb = false ∧
      (p.cfg i &&& pmpA = pmpTor → 0 < i → (Run.run write p ws).val (i - 1) = p.val (i - 1))) ∧
    (p.getMml = true → (Run.run write p ws).getMml = true) ∧
    (p.getMmwp = true → (Run.run write p ws).getMmwp = true) := by
  have h := lockStep_run p ws
  refine ⟨fun i hi hr hl => ?_, h.mml, h.mmwp⟩
  have hentry := h.entry i hi hr hl
  refine ⟨by rw [cfg, hentry, cfg], by rw [val, hentry, val], h.rlb i hi hr hl, ?_⟩
  intro ht hpos
  obtain ⟨j, rfl⟩ := Nat.exists_eq_succ_of_ne_zero (Nat.pos_iff_ne_zero.1 hpos)
  exact h.below j hi hr hl ht

/-- Two entries of a freshly configured unit: a base address, and above it a locked TOR region with
read permission. -/
def lockedTor : Pmp :=
  .ofEntries [entryOf 0x00#8 0x1000#64, entryOf 0x89#8 0x2000#64]

theorem locked_entry_frozen_lockedTor :
    let q := Run.run write lockedTor
      [.mseccfg 4#64, .pmpcfg .rv64 0 0#64, .pmpaddr 0 0#64, .pmpaddr 1 0#64]
    q.cfg 1 = 0x89#8 ∧ q.val 1 = 0x2000#64 ∧ q.val 0 = 0x1000#64 := by
  have h := (locked_entry_frozen lockedTor
    [.mseccfg 4#64, .pmpcfg .rv64 0 0#64, .pmpaddr 0 0#64, .pmpaddr 1 0#64]).1 1
      (by decide) (by decide) (by decide)
  exact ⟨h.1, h.2.1, h.2.2.2 (by decide) (by decide)⟩

end Pmp

end Nnemu

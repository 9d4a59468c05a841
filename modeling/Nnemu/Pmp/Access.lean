import Nnemu.Pmp.Region

/-!
# The byte-level rule and the check

The rule the architecture gives for an access is about every byte of it: the lowest-numbered entry
whose region contains any byte must contain all of them and must grant the access. `pmp_ok` probes
one address in four instead, starting from the first byte of the access wherever that lies.

Both reduce to the owners of bytes, the first entry whose region contains them. Regions are unions
of 4-byte sectors, so a probe speaks for its whole sector, and the two differ exactly when the last
sector of the access is not probed (`pmpOk_sound_iff`).
-/

namespace Nnemu

namespace Pmp

open FirstMatch

variable (p : Pmp)

/-! ### The rule -/

/-- Byte `k` of an access at `addr`. -/
def byteAt (addr : Reg) (k : Nat) : Reg :=
  addr + BitVec.ofNat 64 k

/-- The default for an access that no entry matches. A hart without entries has no protection at
all. -/
def noMatchDefault (type : AccessType) (mode : Reg) : Prop :=
  p.nPmp = 0 ∨ p.noMatchOk type mode = true

/-- **The byte-level rule** for an access to `[addr, addr + len)`. -/
def ByteRule (addr : Reg) (len : Nat) (type : AccessType) (mode : Reg) : Prop :=
  (∃ i, i < p.nPmp ∧ (∃ k, k < len ∧ p.Region i (byteAt addr k).toNat) ∧
      (∀ j, j < i → ∀ k, k < len → ¬ p.Region j (byteAt addr k).toNat) ∧
      (∀ k, k < len → p.Region i (byteAt addr k).toNat) ∧ p.accessOk i type mode = true) ∨
    ((∀ i, i < p.nPmp → ∀ k, k < len → ¬ p.Region i (byteAt addr k).toNat) ∧
      p.noMatchDefault type mode)

/-- The owner of a byte: the first entry whose region contains it. -/
def owner (b : Reg) : Option Nat :=
  FirstMatch.owner p.nPmp p.match4 b

/-- What an owner grants; no owner means the default. -/
def grants (type : AccessType) (mode : Reg) : Option Nat → Bool
  | some i => p.accessOk i type mode
  | none => p.nPmp = 0 || p.noMatchOk type mode

variable {p} {addr : Reg} {len : Nat} {type : AccessType} {mode : Reg}

/-- The rule through owners: all bytes have one owner, and it grants the access. -/
theorem byteRule_iff (hlen : 0 < len) :
    p.ByteRule addr len type mode ↔
      (∀ k, k < len → p.owner (byteAt addr k) = p.owner addr) ∧
        p.grants type mode (p.owner addr) = true := by
  have hzero : byteAt addr 0 = addr := by simp [byteAt]
  have hpermits : p.ByteRule addr len type mode ↔
      Permits p.nPmp p.match4 (fun o => p.grants type mode o = true)
        (fun b => ∃ k, k < len ∧ byteAt addr k = b) := by
    simp only [ByteRule, Permits, grants, noMatchDefault, match4_eq_true_iff, Bool.or_eq_true,
      decide_eq_true_eq]
    constructor
    · rintro (⟨i, hi, ⟨k, hk, hm⟩, hlow, hall, hok⟩ | ⟨hnone, hok⟩)
      · refine .inl ⟨i, hi, ⟨_, ⟨k, hk, rfl⟩, hm⟩, ?_, ?_, hok⟩
        · rintro j hj _ ⟨k, hk, rfl⟩
          exact hlow j hj k hk
        · rintro _ ⟨k, hk, rfl⟩
          exact hall k hk
      · refine .inr ⟨?_, hok⟩
        rintro i hi _ ⟨k, hk, rfl⟩
        exact hnone i hi k hk
    · rintro (⟨i, hi, ⟨_, ⟨k, hk, rfl⟩, hm⟩, hlow, hall, hok⟩ | ⟨hnone, hok⟩)
      · exact .inl ⟨i, hi, ⟨k, hk, hm⟩, fun j hj k hk => hlow j hj _ ⟨k, hk, rfl⟩,
          fun k hk => hall _ ⟨k, hk, rfl⟩, hok⟩
      · exact .inr ⟨fun i hi k hk => hnone i hi _ ⟨k, hk, rfl⟩, hok⟩
  rw [hpermits, permits_iff ⟨0, hlen, hzero⟩]
  constructor
  · rintro ⟨hown, hok⟩
    exact ⟨fun k hk => hown _ ⟨k, hk, rfl⟩, hok⟩
  · rintro ⟨hown, hok⟩
    refine ⟨?_, hok⟩
    rintro _ ⟨k, hk, rfl⟩
    exact hown k hk

/-- `pmp_ok` is the first-match check on the probes. -/
theorem pmpOk_eq_verdict :
    p.pmpOk addr len type mode = verdict p.nPmp p.match4 (p.grants type mode)
    (probes addr len) := by
  unfold pmpOk verdict
  split
  · rename_i h0
    simp [h0, grants]
  · rename_i h0
    cases (List.range p.nPmp).find? fun i => (probes addr len).any (p.match4 i) <;>
      simp [grants, h0]

/-- The check through owners: all probes have one owner, and it grants the access. -/
theorem pmpOk_eq_true_iff (hlen : 0 < len) :
    p.pmpOk addr len type mode = true ↔
      (∀ k, k < (len + 3) / 4 → p.owner (byteAt addr (4 * k)) = p.owner addr) ∧
        p.grants type mode (p.owner addr) = true := by
  have hmem : addr ∈ probes addr len := by
    rw [probes, List.mem_map]
    exact ⟨0, List.mem_range.2 (by omega), by simp⟩
  rw [pmpOk_eq_verdict, verdict_eq_true_iff hmem]
  constructor
  · rintro ⟨hown, hok⟩
    refine ⟨fun k hk => hown _ ?_, hok⟩
    rw [probes, List.mem_map]
    exact ⟨k, List.mem_range.2 hk, rfl⟩
  · rintro ⟨hown, hok⟩
    refine ⟨fun x hx => ?_, hok⟩
    rw [probes, List.mem_map] at hx
    obtain ⟨k, hk, rfl⟩ := hx
    exact hown k (List.mem_range.1 hk)

/-! ### Sectors -/

/-- Every region is a union of 4-byte sectors. -/
theorem region_congr {i b b' : Nat} (h : b / 4 = b' / 4) : p.Region i b ↔ p.Region i b' := by
  have hg : 2 ≤ p.lgPmpGranularity := p.pmpShift_le
  have hpow : ∀ k, 2 ≤ k → ∃ m, 2 ^ k = 4 * m := by
    intro k hk
    obtain ⟨m, rfl⟩ := Nat.exists_eq_add_of_le hk
    exact ⟨2 ^ m, by rw [Nat.pow_add]⟩
  have hbound : ∀ j, ∃ c, p.bound j = 4 * c := by
    intro j
    obtain ⟨m, hm⟩ := hpow p.lgPmpGranularity hg
    refine ⟨4 * (p.val j).toNat / 2 ^ p.lgPmpGranularity * m, ?_⟩
    unfold bound
    generalize 4 * (p.val j).toNat / 2 ^ p.lgPmpGranularity = q
    rw [hm, Nat.mul_left_comm]
  have hsize : ∀ k, 2 ≤ k → b / 2 ^ k = b' / 2 ^ k := by
    intro k hk
    obtain ⟨m, hm⟩ := hpow k hk
    rw [hm, ← Nat.div_div_eq_div_mul, h, Nat.div_div_eq_div_mul]
  unfold Region
  obtain ⟨lo, hlo⟩ := hbound (i - 1)
  obtain ⟨hi, hhi⟩ := hbound i
  split
  · exact Iff.rfl
  · split
    · split <;> omega
    · rw [hsize _ (Nat.le_trans hg (p.lgPmpGranularity_le_lgSize i))]

theorem match4_congr {i : Nat} {b b' : Reg} (h : b.toNat / 4 = b'.toNat / 4) :
    p.match4 i b = p.match4 i b' := by
  rw [Bool.eq_iff_iff, match4_eq_true_iff, match4_eq_true_iff]
  exact region_congr h

theorem owner_congr_sector {b b' : Reg} (h : b.toNat / 4 = b'.toNat / 4) :
    p.owner b = p.owner b' :=
  owner_congr fun _ _ => match4_congr h

theorem toNat_byteAt (addr : Reg) (k : Nat) :
    (byteAt addr k).toNat = (addr.toNat + k) % 2 ^ 64 := by
  simp [byteAt, BitVec.toNat_add]

/-- Bytes whose offsets from the start of the first sector fall into one sector share an owner. -/
theorem owner_byteAt_congr {k k' : Nat}
    (h : (addr.toNat % 4 + k) / 4 = (addr.toNat % 4 + k') / 4) :
    p.owner (byteAt addr k) = p.owner (byteAt addr k') := by
  apply owner_congr_sector
  rw [toNat_byteAt, toNat_byteAt]
  omega

/-! ### When the check implies the rule -/

/-- **Probing is enough up to the last sector.** `pmp_ok` accepts only what the byte-level rule
permits exactly when the last sector of the access is probed, or the last byte has the owner of the
first one, or the access is refused anyway, by the owner of the first byte or because two probes
have different owners. -/
theorem pmpOk_sound_iff (p : Pmp) (addr : Reg) (len : Nat) (type : AccessType) (mode : Reg)
    (hlen : 0 < len) :
    (p.pmpOk addr len type mode = true → p.ByteRule addr len type mode) ↔
      (addr.toNat % 4 + (len - 1) % 4 < 4 ∨
        p.owner (byteAt addr (len - 1)) = p.owner addr ∨
        p.grants type mode (p.owner addr) = false ∨
        ∃ k, k < (len + 3) / 4 ∧ p.owner (byteAt addr (4 * k)) ≠ p.owner addr) := by
  rw [pmpOk_eq_true_iff hlen, byteRule_iff hlen]
  constructor
  · intro h
    by_cases hown : ∀ k, k < (len + 3) / 4 → p.owner (byteAt addr (4 * k)) = p.owner addr
    · cases hok : p.grants type mode (p.owner addr) with
      | false => exact .inr (.inr (.inl rfl))
      | true => exact .inr (.inl ((h ⟨hown, hok⟩).1 (len - 1) (by omega)))
    · simp only [not_forall] at hown
      obtain ⟨k, hk, hne⟩ := hown
      exact .inr (.inr (.inr ⟨k, hk, hne⟩))
  · rintro hcond ⟨hown, hok⟩
    refine ⟨fun k hk => ?_, hok⟩
    -- a byte in a probed sector has the owner of the probe
    have hprobed : (addr.toNat % 4 + k) / 4 ≤ (len - 1) / 4 →
        p.owner (byteAt addr k) = p.owner addr := by
      intro hle
      have hj : p.owner (byteAt addr k) =
          p.owner (byteAt addr (4 * ((addr.toNat % 4 + k) / 4))) := by
        apply owner_byteAt_congr
        omega
      rw [hj]
      exact hown _ (by omega)
    rcases hcond with hlast | hlast | hno | ⟨j, hj, hne⟩
    · exact hprobed (by omega)
    · by_cases hle : (addr.toNat % 4 + k) / 4 ≤ (len - 1) / 4
      · exact hprobed hle
      · -- the byte lies in the one sector that is not probed, with the last byte
        rw [← hlast]
        apply owner_byteAt_congr
        omega
    · rw [hok] at hno
      exact absurd hno (by decide)
    · exact absurd (hown j hj) hne

/-- Three entries: four bytes at 8 that only M-mode may touch, and above them in priority order a
region from 0 to 256 that everyone may use. -/
def guardedWord : Pmp :=
  .ofEntries [entryOf 0x10#8 2#64, PmpEntry.reset, entryOf 0x0f#8 64#64]

/-- A 4-byte load at 6 is accepted in U-mode although its last two bytes lie in the guarded word. -/
theorem not_pmpOk_sound :
    ¬ (guardedWord.pmpOk 6#64 4 .load prvU = true → guardedWord.ByteRule 6#64 4 .load prvU) := by
  intro h
  have hrule := (byteRule_iff (by decide)).1 (h (by decide))
  exact absurd (hrule.1 3 (by decide)) (by decide)

theorem pmpOk_sound_iff_guardedWord :
    (guardedWord.pmpOk 8#64 4 .load prvM = true → guardedWord.ByteRule 8#64 4 .load prvM) ↔
      ((8#64 : Reg).toNat % 4 + (4 - 1) % 4 < 4 ∨
        guardedWord.owner (byteAt 8#64 (4 - 1)) = guardedWord.owner 8#64 ∨
        guardedWord.grants .load prvM (guardedWord.owner 8#64) = false ∨
        ∃ k, k < (4 + 3) / 4 ∧
          guardedWord.owner (byteAt 8#64 (4 * k)) ≠ guardedWord.owner 8#64) :=
  pmpOk_sound_iff guardedWord 8#64 4 .load prvM (by decide)

end Pmp

end Nnemu

import Nnemu.Mmu.Pte

/-!
# What a walk finds

The declarative reading of single-stage translation: a canonical address, a path of table entries
from the root along the fields of the page number, and a leaf that permits the access.
`walk_ok_iff_path` says that the walk returns a page exactly then, and which one.

Nothing in the reading mentions the loop. `TablePath` is a path of entries from level to level,
`MapsPage` what the last of them must hold, and `IsPageOf` which page that is. The equivalence is
proved by induction along the path in one direction and along the rounds in the other; NAPOT is
where the two differ most, since the code finds the size with `ctz`.
-/

namespace Nnemu

open Radix Bytes Bits

/-! ### Counting trailing zeros -/

/-- What is counted and what is left make up the number, and what is left has fewer than `k`
zeros. -/
structure CtzInv (val : Reg) (k : Nat) (p : Nat × Reg) : Prop where
  eq : val.toNat = p.2.toNat * 2 ^ p.1
  ndvd : ¬ 2 ^ k ∣ p.2.toNat

/-- A number shifted left by `64 - k` is zero when its low `k` bits are. -/
theorem shiftLeft_eq_zero_iff (x : Reg) {k : Nat} (hk : k ≤ 64) :
    x <<< (64 - k) = 0#64 ↔ 2 ^ k ∣ x.toNat := by
  rw [← BitVec.toNat_inj, BitVec.toNat_shiftLeft, Nat.shiftLeft_eq, BitVec.toNat_ofNat,
    Nat.zero_mod]
  have hpow : (2 : Nat) ^ 64 = 2 ^ k * 2 ^ (64 - k) := by
    rw [← Nat.pow_add, Nat.add_sub_cancel' hk]
  rw [hpow, ← Nat.dvd_iff_mod_eq_zero, Nat.mul_dvd_mul_iff_right (Nat.two_pow_pos _)]

/-- A halving step finds whether the low `k` bits are zero. -/
theorem ctzStep_inv {val : Reg} {p : Nat × Reg} {k : Nat} (hk : k ≤ 64) (h : CtzInv val (k + k) p) :
    CtzInv val k (ctzStep p k) := by
  unfold ctzStep
  split
  case isTrue hz =>
    obtain ⟨y, hy⟩ := (shiftLeft_eq_zero_iff p.2 hk).1 hz
    have hshift : (p.2 >>> k).toNat = y := by
      rw [BitVec.toNat_ushiftRight, Nat.shiftRight_eq_div_pow, hy,
        Nat.mul_div_cancel_left _ (Nat.two_pow_pos k)]
    refine ⟨?_, ?_⟩
    · rw [hshift, h.eq, hy, Nat.pow_add, Nat.mul_comm (2 ^ p.1), ← Nat.mul_assoc, Nat.mul_comm y]
    · rintro ⟨z, hz'⟩
      rw [hshift] at hz'
      refine h.ndvd ⟨z, ?_⟩
      rw [hy, hz', Nat.pow_add, Nat.mul_assoc]
  case isFalse hz => exact ⟨h.eq, fun hd => hz ((shiftLeft_eq_zero_iff p.2 hk).2 hd)⟩

/-- A number is an odd multiple of two to the count of its trailing zeros. -/
theorem ctz_spec {val : Reg} (h : val ≠ 0#64) :
    ∃ q, val.toNat = q * 2 ^ ctz val ∧ q % 2 = 1 := by
  have hctz : ctz val = ([32, 16, 8, 4, 2, 1].foldl ctzStep (0, val)).1 := by
    rw [ctz, if_neg h]
  have h64 : CtzInv val (32 + 32) (0, val) := by
    refine ⟨(Nat.mul_one _).symm, fun hd => ?_⟩
    have hpos : val.toNat ≠ 0 := fun hz => h (BitVec.eq_of_toNat_eq hz)
    exact absurd (Nat.le_of_dvd (Nat.pos_of_ne_zero hpos) hd) (Nat.not_le.2 val.isLt)
  have h32 := ctzStep_inv (k := 32) (by decide) h64
  have h16 := ctzStep_inv (k := 16) (by decide) h32
  have h8 := ctzStep_inv (k := 8) (by decide) h16
  have h4 := ctzStep_inv (k := 4) (by decide) h8
  have h2 := ctzStep_inv (k := 2) (by decide) h4
  have h1 := ctzStep_inv (k := 1) (by decide) h2
  simp only [List.foldl_cons, List.foldl_nil] at hctz
  rw [hctz]
  refine ⟨_, h1.eq, ?_⟩
  have := h1.ndvd
  omega

/-- A page number ends in `1000` when its count and itself make four NAPOT bits. -/
theorem ctz_eq_three_iff {val : Reg} (h : val ≠ 0#64) : ctz val = 3 ↔ val.toNat % 16 = 8 := by
  obtain ⟨q, hq, hodd⟩ := ctz_spec h
  constructor
  · intro h3
    rw [h3] at hq
    omega
  · intro h8
    rw [hq] at h8
    -- the exponent is 3: below, eight would not divide the number, above, sixteen would
    rcases Nat.lt_or_ge (ctz val) 4 with hlt | hge
    · have hcases : ctz val = 0 ∨ ctz val = 1 ∨ ctz val = 2 ∨ ctz val = 3 := by omega
      rcases hcases with hc | hc | hc | hc <;> rw [hc] at h8 <;> omega
    · obtain ⟨j, hj⟩ := Nat.exists_eq_add_of_le hge
      rw [hj, Nat.pow_add, show (2 : Nat) ^ 4 = 16 from rfl, ← Nat.mul_assoc, Nat.mul_comm q,
        Nat.mul_assoc, Nat.mul_mod_right] at h8
      exact absurd h8 (by decide)

/-! ### Canonical addresses -/

/-- The bits of the address from `va_bits - 1` to `xlen - 1` are all equal. -/
def Canonical (xlen : Xlen) (vm : VmInfo) (addr : Reg) : Prop :=
  ∀ k, vaBits vm - 1 ≤ k → k < xlen.bits → addr.getLsbD k = addr.getLsbD (vaBits vm - 1)

/-- The masked comparison of `walk` says so. -/
theorem canonical_iff {xlen : Xlen} {vm : VmInfo} {addr : Reg} (hpos : 1 < vaBits vm)
    (hle : vaBits vm ≤ xlen.bits) : canonical xlen vm addr = true ↔ Canonical xlen vm addr := by
  have h64 : xlen.bits ≤ 64 := by cases xlen <;> decide
  unfold canonical Canonical
  rw [one_shiftLeft_sub_one (by omega)]
  generalize hlow : vaBits vm - 1 = low
  generalize hn : xlen.bits - low = n
  have hbit : ∀ i, i < 64 → ((addr >>> low) &&& lowMask 64 n).getLsbD i =
      (addr.getLsbD (low + i) && decide (i < n)) := by
    intro i hi
    rw [BitVec.getLsbD_and, BitVec.getLsbD_ushiftRight, getLsbD_lowMask, decide_eq_true hi,
      Bool.true_and]
  rw [Bool.or_eq_true, beq_iff_eq, beq_iff_eq]
  constructor
  · rintro (h | h) k hk hkx
    · -- the bits are all zero
      have hzero : ∀ i, i < n → addr.getLsbD (low + i) = false := by
        intro i hi
        have := hbit i (by omega)
        rw [h, decide_eq_true hi, Bool.and_true] at this
        simpa using this.symm
      have h0 := hzero 0 (by omega)
      have hk' := hzero (k - low) (by omega)
      rw [Nat.add_sub_cancel' hk] at hk'
      rw [hk', ← Nat.add_zero low, h0]
    · -- the bits are all one
      have hone : ∀ i, i < n → addr.getLsbD (low + i) = true := by
        intro i hi
        have := hbit i (by omega)
        rw [h, getLsbD_lowMask, decide_eq_true hi, Bool.and_true, Bool.and_true] at this
        rw [← this, decide_eq_true (show i < 64 by omega)]
      have h0 := hone 0 (by omega)
      have hk' := hone (k - low) (by omega)
      rw [Nat.add_sub_cancel' hk] at hk'
      rw [hk', ← Nat.add_zero low, h0]
  · intro h
    cases hl : addr.getLsbD low with
    | false =>
      refine .inl (BitVec.eq_of_getLsbD_eq fun i hi => ?_)
      rw [hbit i hi, BitVec.getLsbD_zero]
      by_cases hin : i < n
      · rw [h (low + i) (by omega) (by omega), hl, Bool.false_and]
      · rw [decide_eq_false hin, Bool.and_false]
    | true =>
      refine .inr (BitVec.eq_of_getLsbD_eq fun i hi => ?_)
      rw [hbit i hi, getLsbD_lowMask, decide_eq_true hi, Bool.true_and]
      by_cases hin : i < n
      · rw [h (low + i) (by omega) (by omega), hl, Bool.true_and]
      · rw [decide_eq_false hin, Bool.and_false]

/-! ### Paths of tables -/

/-- Field `i` of the virtual page number. -/
def vpnField (vm : VmInfo) (addr : Reg) (i : Nat) : Nat :=
  addr.toNat / 2 ^ (pgShift + i * vm.idxbits) % 2 ^ vm.idxbits

/-- Where the table at `base` has the entry for the address. -/
def entryAddr (vm : VmInfo) (addr : Reg) (i : Nat) (base : Reg) : Reg :=
  base + BitVec.ofNat 64 (vpnField vm addr i * vm.ptesize)

theorem s1Slot_eq_entryAddr {vm : VmInfo} (h : vm.idxbits < 64) (addr : Reg)
    (i : Nat) (base : Reg) :
    s1Slot vm addr i base = entryAddr vm addr i base := by
  have hidx : (addr >>> (pgShift + i * vm.idxbits)) &&& ((1#64 <<< vm.idxbits) - 1#64) =
      BitVec.ofNat 64 (vpnField vm addr i) := by
    apply BitVec.eq_of_toNat_eq
    rw [one_shiftLeft_sub_one h, BitVec.toNat_and, lowMask, BitVec.toNat_ofNat, BitVec.toNat_ofNat,
      BitVec.toNat_ushiftRight, Nat.shiftRight_eq_div_pow, vpnField]
    have hpow : 2 ^ vm.idxbits < 2 ^ 64 := Nat.pow_lt_pow_right (by decide) h
    rw [Nat.mod_eq_of_lt (show 2 ^ vm.idxbits - 1 < 2 ^ 64 by omega),
      Nat.and_two_pow_sub_one_eq_mod,
      Nat.mod_eq_of_lt (Nat.lt_trans (Nat.mod_lt _ (Nat.two_pow_pos _)) hpow)]
  simp only [s1Slot, entryAddr]
  rw [hidx, BitVec.ofNat_mul]

section Path

variable {δ : Type} {bus : Bus δ} {r : Regime} {vm : VmInfo} {addr mode : Reg} {type : AccessType}
  {hlvx : Bool} {w : World δ}

/-- The entry for the address in the table at `base`. -/
def World.entry (w : World δ) (vm : VmInfo) (addr : Reg) (i : Nat) (base : Reg) : Reg :=
  w.read (entryAddr vm addr i base) vm.ptesize

/-- A valid entry that is no leaf, with the A, D, U, N and PBMT bits and the reserved ones clear. -/
structure PointsOn (pte : Reg) : Prop where
  table : pteTable pte = true
  forbidden : hasBits pte tableForbidden = false
  reserved : hasBits pte pteRsvd = false

/-- The entries for the address lead from the table at `b`, with `n` levels left, to the one at `c`,
with `k` levels left. -/
inductive TablePath (pointsOn : Reg → Prop) (w : World δ) (vm : VmInfo) (addr : Reg) :
    Nat → Reg → Nat → Reg → Prop where
  | refl (n : Nat) (b : Reg) : TablePath pointsOn w vm addr n b n b
  | step {i : Nat} {b : Reg} {k : Nat} {c : Reg} :
      pointsOn (w.entry vm addr i b) →
      TablePath pointsOn w vm addr i (ptePpn (w.entry vm addr i b) <<< pgShift) k c →
      TablePath pointsOn w vm addr (i + 1) b k c

theorem TablePath.le {pointsOn : Reg → Prop} {n k : Nat} {b c : Reg}
    (h : TablePath pointsOn w vm addr n b k c) : k ≤ n := by
  induction h with
  | refl => exact Nat.le_refl _
  | step _ _ ih => exact Nat.le_succ_of_le ih

theorem TablePath.trans {pointsOn : Reg → Prop} {n k j : Nat} {b c d : Reg}
    (h : TablePath pointsOn w vm addr n b k c) (h' : TablePath pointsOn w vm addr k c j d) :
    TablePath pointsOn w vm addr n b j d := by
  induction h with
  | refl => exact h'
  | step hon _ ih => exact .step hon (ih h')

/-- A leaf that maps the address at level `i` for an access. -/
structure MapsPage (r : Regime) (vm : VmInfo) (type : AccessType) (mode : Reg)
    (hlvx : Bool) (i : Nat)
    (pte : Reg) : Prop where
  valid : hasBits pte pteV = true
  leaf : pteTable pte = false
  readable : hasBits pte pteW = true → hasBits pte pteR = true
  reserved : hasBits pte pteRsvd = false
  svnapot : hasBits pte pteN = true → r.svnapot = true
  pbmte : hasBits pte ptePbmt = true → hasBits r.menvcfg envcfgPbmte = true
  pbmt : pte &&& ptePbmt ≠ ptePbmt
  user : hasBits pte pteU = true → mode = prvS →
    type ≠ .fetch ∧ hasBits r.sstatus mstatusSum = true
  supervisor : hasBits pte pteU = false → mode = prvS
  execute : type = .fetch ∨ hlvx = true → hasBits pte pteX = true
  load : type = .load → hlvx = false →
    hasBits pte pteR = true ∨ (hasBits r.sstatus mstatusMxr = true ∧ hasBits pte pteX = true)
  store : type = .store → hlvx = false → hasBits pte pteR = true ∧ hasBits pte pteW = true
  aligned : ∀ k, k < i * vm.idxbits → (ptePpn pte).getLsbD k = false
  napot : hasBits pte pteN = true → i = 0 ∧ (ptePpn pte).toNat % 16 = 8
  accessed : pte &&& adBits type = adBits type ∨ hasBits r.menvcfg envcfgHade = true

/-- The page at which a leaf at level `i` maps the address: the page-number bits inside a superpage
or a 64 KiB range are those of the address, the ones above those of the leaf. -/
structure IsPageOf (vm : VmInfo) (addr : Reg) (i : Nat) (pte page : Reg) : Prop where
  offset : ∀ k, k < pgShift → page.getLsbD k = false
  low : ∀ k, pgShift + k < 64 → k < i * vm.idxbits ∨ (hasBits pte pteN = true ∧ k < 4) →
    page.getLsbD (pgShift + k) = addr.getLsbD (pgShift + k)
  high : ∀ k, pgShift + k < 64 → ¬ (k < i * vm.idxbits ∨ (hasBits pte pteN = true ∧ k < 4)) →
    page.getLsbD (pgShift + k) = (ptePpn pte).getLsbD k

/-! ### What the chain accepts, in these terms -/

/-- A field of a clear field is clear. -/
theorem hasBits_of_submask {x m m' : Reg} (h : hasBits x m = false) (hm : m &&& m' = m') :
    hasBits x m' = false := by
  rw [hasBits, bne_eq_false_iff_eq] at h ⊢
  rw [← hm, ← BitVec.and_assoc, h, BitVec.zero_and]

/-- The chain goes on at the entries that point on. -/
theorem s1Class_eq_table_iff {virt : Bool} {i : Nat} {pte : Reg} :
    s1Class r vm type mode virt hlvx i pte = .table ↔ PointsOn pte := by
  rw [s1Class, s1Classify_eq_table_iff]
  constructor
  · rintro ⟨hres, htable, hforbidden⟩
    exact ⟨htable, hforbidden, hres.1⟩
  · intro h
    have hn : hasBits pte pteN = false := hasBits_of_submask h.forbidden (by decide)
    have hpbmt : hasBits pte ptePbmt = false := hasBits_of_submask h.forbidden (by decide)
    refine ⟨⟨h.reserved, .inr hn, .inr hpbmt, ?_⟩, h.table, h.forbidden⟩
    rw [hasBits, bne_eq_false_iff_eq] at hpbmt
    rw [hpbmt]
    decide

/-- The test for misaligned superpages looks at the page-number bits below the superpage. -/
theorem misalignedSuperpage_eq_false_iff {ptshift : Nat} (h : ptshift < 64) (pte : Reg) :
    misalignedSuperpage ptshift pte = false ↔
      ∀ k, k < ptshift → (ptePpn pte).getLsbD k = false := by
  rw [misalignedSuperpage, bne_eq_false_iff_eq, one_shiftLeft_sub_one h]
  constructor
  · intro hz k hk
    have hbit := congrArg (fun x : Reg => x.getLsbD k) hz
    simp only [BitVec.getLsbD_and, getLsbD_lowMask, BitVec.getLsbD_zero] at hbit
    simpa [hk, show k < 64 by omega] using hbit
  · intro hz
    apply BitVec.eq_of_getLsbD_eq
    intro k hk
    rw [BitVec.getLsbD_and, getLsbD_lowMask, BitVec.getLsbD_zero]
    by_cases hlt : k < ptshift
    · rw [hz k hlt, Bool.false_and]
    · rw [decide_eq_false hlt, Bool.and_false, Bool.and_false]

/-- The tests of the NAPOT encoding leave the 64 KiB ranges of the last level. -/
theorem napotRefused_eq_false_iff {i : Nat} {pte : Reg} :
    napotRefused i pte = false ↔
      (hasBits pte pteN = true → i = 0 ∧ (ptePpn pte).toNat % 16 = 8) := by
  cases hn : hasBits pte pteN with
  | false => simp [napotRefused, napotBits, hn]
  | true =>
    by_cases hz : ptePpn pte = 0#64
    · simp [napotRefused, napotBits, hn, hz]
    · rw [← ctz_eq_three_iff hz]
      simp [napotRefused, napotBits, hn, hz]

/-- The access rights of a leaf, as the chain tests them. -/
theorem typeRefused_eq_false_iff {mxr : Bool} {pte : Reg} :
    typeRefused type hlvx mxr pte = false ↔
      (type = .fetch ∨ hlvx = true → hasBits pte pteX = true) ∧
      (type = .load → hlvx = false →
        hasBits pte pteR = true ∨ (mxr = true ∧ hasBits pte pteX = true)) ∧
      (type = .store → hlvx = false → hasBits pte pteR = true ∧ hasBits pte pteW = true) := by
  unfold typeRefused
  cases type <;> cases hlvx <;> cases hasBits pte pteR <;> simp

/-- A leaf is accepted, finished and returned exactly when it maps the page. -/
theorem mapsPage_iff {i : Nat} {pte : Reg} (h : i * vm.idxbits < 64) :
    MapsPage r vm type mode hlvx i pte ↔
      s1Class r vm type mode false hlvx i pte = .leaf ∧ napotRefused i pte = false ∧
        (pte &&& adBits type = adBits type ∨ hasBits r.menvcfg envcfgHade = true) := by
  have hmxr : r.mxr false = hasBits r.sstatus mstatusMxr := by
    rw [Regime.mxr, Regime.status, if_neg (by decide), BitVec.or_self]
  rw [s1Class, s1Classify_eq_leaf_iff, napotRefused_eq_false_iff, LeafGrants,
    ReservedClear, UserAllowed,
    misalignedSuperpage_eq_false_iff h, typeRefused_eq_false_iff, hmxr]
  constructor
  · intro hp
    refine ⟨⟨⟨hp.reserved, ?_, ?_, hp.pbmt⟩, hp.leaf, ?_, hp.valid, ?_,
      ⟨hp.execute, hp.load, hp.store⟩, hp.aligned⟩, hp.napot, hp.accessed⟩
    · cases hn : hasBits pte pteN with
      | false => exact .inr rfl
      | true => exact .inl (hp.svnapot hn)
    · cases hb : hasBits pte ptePbmt with
      | false => exact .inr rfl
      | true => exact .inl (hp.pbmte hb)
    · cases hu : hasBits pte pteU with
      | false => simp [hp.supervisor hu]
      | true =>
        rw [if_pos rfl]
        rintro ⟨hs, hf⟩
        obtain ⟨hfetch, hsum⟩ := hp.user hu (by simpa using hs)
        rcases hf with hf | hf
        · exact hfetch hf
        · rw [Regime.status, if_neg (by decide), hsum] at hf
          cases hf
    · cases hw : hasBits pte pteW with
      | false => exact .inr rfl
      | true => exact .inl (hp.readable hw)
  · rintro ⟨⟨⟨hres, hn, hb, hpbmt⟩, hleaf, huser, hv, hread, ⟨hx, hl, hst⟩, hal⟩, hnapot, had⟩
    refine ⟨hv, hleaf, ?_, hres, ?_, ?_, hpbmt, ?_, ?_, hx, hl, hst, hal, hnapot, had⟩
    · intro hw
      simpa [hw] using hread
    · intro h
      simpa [h] using hn
    · intro h
      simpa [h] using hb
    · rintro hu rfl
      rw [hu, if_pos rfl] at huser
      refine ⟨fun hf => huser ⟨by decide, .inl hf⟩, ?_⟩
      by_contra hsum
      exact huser ⟨by decide, .inr (by simpa [Regime.status] using hsum)⟩
    · intro hu
      rw [hu, if_neg (by decide)] at huser
      simpa using huser

/-! ### The page -/

/-- The page a leaf maps is the one the loop forms. -/
theorem isPageOf_iff {i : Nat} {pte page : Reg} (h : i * vm.idxbits < 64)
    (hal : ∀ k, k < i * vm.idxbits → (ptePpn pte).getLsbD k = false)
    (hnapot : napotRefused i pte = false) :
    IsPageOf vm addr i pte page ↔ page = pageBase (i * vm.idxbits) pte (addr >>> pgShift) := by
  have hbits : napotBits pte = if hasBits pte pteN then 4 else 0 := by
    cases hn : hasBits pte pteN with
    | false => rw [napotBits, hn]
               rfl
    | true =>
      have h8 := (napotRefused_eq_false_iff.1 hnapot hn).2
      have hz : ptePpn pte ≠ 0#64 := by
        intro hz
        rw [hz] at h8
        exact absurd h8 (by decide)
      rw [napotBits, hn, if_pos rfl, (ctz_eq_three_iff hz).2 h8]
      rfl
  have hlow : ∀ k, k < pgShift →
      (pageBase (i * vm.idxbits) pte (addr >>> pgShift)).getLsbD k = false := by
    intro k hk
    rw [pageBase, BitVec.getLsbD_shiftLeft, decide_eq_true hk, Bool.not_true, Bool.and_false,
      Bool.false_and]
  have hhigh : ∀ k, pgShift + k < 64 →
      (pageBase (i * vm.idxbits) pte (addr >>> pgShift)).getLsbD (pgShift + k) =
        if k < i * vm.idxbits ∨ (hasBits pte pteN = true ∧ k < 4) then addr.getLsbD (pgShift + k)
        else (ptePpn pte).getLsbD k := by
    intro k hk
    rw [pageBase, BitVec.getLsbD_shiftLeft, decide_eq_true hk,
      decide_eq_false (show ¬ pgShift + k < pgShift by omega), Nat.add_sub_cancel_left,
      one_shiftLeft_sub_one h,
      one_shiftLeft_sub_one (show napotBits pte < 64 by rw [hbits]; split <;> omega)]
    simp only [BitVec.getLsbD_or, BitVec.getLsbD_and, BitVec.getLsbD_not,
      BitVec.getLsbD_ushiftRight,
      getLsbD_lowMask, show k < 64 by omega, decide_true, Bool.true_and, Bool.not_false, hbits]
    by_cases hkpt : k < i * vm.idxbits
    · rw [hal k hkpt]
      cases hasBits pte pteN <;> cases addr.getLsbD (pgShift + k) <;> simp [hkpt]
    · cases hasBits pte pteN <;> by_cases hk4 : k < 4 <;> simp [hkpt, hk4]
  constructor
  · intro hp
    apply BitVec.eq_of_getLsbD_eq
    intro k hk
    by_cases hoff : k < pgShift
    · rw [hp.offset k hoff, hlow k hoff]
    · obtain ⟨j, rfl⟩ := Nat.exists_eq_add_of_le (Nat.le_of_not_lt hoff)
      rw [hhigh j hk]
      split
      case isTrue hin => exact hp.low j hk hin
      case isFalse hout => exact hp.high j hk hout
  · rintro rfl
    refine ⟨hlow, ?_, ?_⟩
    · intro k hk hin
      rw [hhigh k hk, if_pos hin]
    · intro k hk hout
      rw [hhigh k hk, if_neg hout]

/-- Putting an offset into a page and masking it off again. -/
theorem or_offset_and_not_pageMask {page : Reg} (h : ∀ k, k < pgShift → page.getLsbD k = false) :
    (page ||| (addr &&& pageMask)) &&& ~~~pageMask = page := by
  apply BitVec.eq_of_getLsbD_eq
  intro k hk
  rw [pageMask_eq, BitVec.getLsbD_and, BitVec.getLsbD_or, BitVec.getLsbD_and, BitVec.getLsbD_not,
    getLsbD_lowMask]
  by_cases hlt : k < 12
  · rw [h k hlt]
    simp [hk, hlt]
  · simp [hk, hlt]

/-! ### The loop follows the path -/

/-- Every table entry the path from `b` comes to is in RAM, and PMP lets the walker read and write
it. -/
def Accessible (bus : Bus δ) (r : Regime) (w : World δ) (vm : VmInfo) (addr : Reg)
    (n : Nat) (b : Reg) :
    Prop :=
  ∀ i base, TablePath PointsOn w vm addr n b (i + 1) base →
    bus.isMem (entryAddr vm addr i base) = true ∧
      r.pmp.pmpOk (entryAddr vm addr i base) vm.ptesize .load prvS = true ∧
      r.pmp.pmpOk (entryAddr vm addr i base) vm.ptesize .store prvS = true

theorem Accessible.of_path {n k : Nat} {b c : Reg} (h : Accessible bus r w vm addr n b)
    (hp : TablePath PointsOn w vm addr n b k c) : Accessible bus r w vm addr k c :=
  fun i base hp' => h i base (hp.trans hp')

/-- An accessible entry is loaded from memory. -/
theorem Accessible.pteLoad_eq {i : Nat} {b : Reg} (h : Accessible bus r w vm addr (i + 1) b) :
    pteLoad bus r (entryAddr vm addr i b) addr false type vm.ptesize w =
      .ok (w.entry vm addr i b) w :=
  pteLoad_of_isMem (h i b (.refl _ _)).2.1 (h i b (.refl _ _)).1 w

/-- One round of the loop goes down along the path. -/
theorem s1Visit_next_iff_pointsOn {i : Nat} {b b' : Reg} {w' : World δ} (hidx : vm.idxbits < 64)
    (h : Accessible bus r w vm addr (i + 1) b) :
    s1Visit (busMem bus r) r vm addr type mode false hlvx i b w = .ok (.next b') w' ↔
      PointsOn (w.entry vm addr i b) ∧ b' = ptePpn (w.entry vm addr i b) <<< pgShift ∧ w' = w := by
  rw [s1Visit_next_iff, s1Slot_eq_entryAddr hidx]
  constructor
  · rintro ⟨slot, u, pte, hs, hl, hc, rfl⟩
    cases hs
    rw [h.pteLoad_eq] at hl
    cases hl
    exact ⟨s1Class_eq_table_iff.1 hc, rfl, rfl⟩
  · rintro ⟨hp, rfl, rfl⟩
    exact ⟨_, _, _, rfl, h.pteLoad_eq, s1Class_eq_table_iff.2 hp, rfl⟩

/-- The loop comes to the tables on the path, and memory stays as it was. -/
theorem reaches_iff_tablePath {n k : Nat} {b c : Reg} {u : World δ} (hidx : vm.idxbits < 64)
    (h : Accessible bus r w vm addr n b) :
    Reaches (s1Visit (busMem bus r) r vm addr type mode false hlvx) n b w k c u ↔
      TablePath PointsOn w vm addr n b k c ∧ u = w := by
  constructor
  · intro hr
    generalize hs : w = s at hr
    induction hr with
    | refl n b s => exact ⟨.refl _ _, rfl⟩
    | step hv hr ih =>
      subst hs
      obtain ⟨hon, rfl, rfl⟩ := (s1Visit_next_iff_pointsOn hidx h).1 hv
      obtain ⟨hp, rfl⟩ := ih (h.of_path (.step hon (.refl _ _))) rfl
      exact ⟨.step hon hp, rfl⟩
  · rintro ⟨hp, rfl⟩
    induction hp with
    | refl n b => exact .refl _ _ _
    | step hon hp ih =>
      exact .step ((s1Visit_next_iff_pointsOn hidx h).2 ⟨hon, rfl, rfl⟩)
        (ih (h.of_path (.step hon (.refl _ _))))

/-- The loop ends with a page at the entries that map it. -/
theorem s1Visit_done_iff_mapsPage {i : Nat} {b page : Reg} (hidx : vm.idxbits < 64)
    (hshift : i * vm.idxbits < 64) (h : Accessible bus r w vm addr (i + 1) b) :
    (∃ w', s1Visit (busMem bus r) r vm addr type mode false hlvx i b w =
      .ok (.done (some page)) w') ↔
      MapsPage r vm type mode hlvx i (w.entry vm addr i b) ∧
        IsPageOf vm addr i (w.entry vm addr i b) page := by
  constructor
  · rintro ⟨w', hv⟩
    obtain ⟨slot, u, pte, v, hs, hl, hend⟩ := s1Visit_done_iff.1 hv
    rw [s1Slot_eq_entryAddr hidx] at hs
    cases hs
    rw [h.pteLoad_eq] at hl
    cases hl
    rcases hend with ⟨-, ⟨⟩, -⟩ | ⟨hc, hf⟩
    obtain ⟨done, had, hpage⟩ := finishLeaf_ok_iff.1 hf
    cases hn : napotRefused i (w.entry vm addr i b) with
    | true =>
      rw [hn, Bool.not_true, Bool.and_false] at hpage
      cases hpage
    | false =>
      have hacc : w.entry vm addr i b &&& adBits type = adBits type ∨
          hasBits r.menvcfg envcfgHade = true := by
        rcases updateAd_ok_iff.1 had with ⟨ha, -⟩ | ⟨-, hhade, -⟩ | ⟨-, -, rfl, -⟩
        · exact .inl ha
        · exact .inr hhade
        · cases hpage
      have hm := (mapsPage_iff hshift).2 ⟨hc, hn, hacc⟩
      refine ⟨hm, (isPageOf_iff hshift hm.aligned hn).2 ?_⟩
      cases done with
      | false => cases hpage
      | true => simpa [hn] using hpage
  · rintro ⟨hm, hp⟩
    obtain ⟨hc, hn, hacc⟩ := (mapsPage_iff hshift).1 hm
    rw [isPageOf_iff hshift hm.aligned hn] at hp
    have hfinish : ∃ w', updateAd (busMem bus r) vm (entryAddr vm addr i b)
      (w.entry vm addr i b) addr
        type false (hasBits r.menvcfg envcfgHade) w = .ok true w' := by
      by_cases ha : w.entry vm addr i b &&& adBits type = adBits type
      · exact ⟨w, updateAd_ok_iff.2 (.inl ⟨ha, rfl, rfl⟩)⟩
      · have hslot := h i b (.refl _ _)
        exact ⟨_, updateAd_ok_iff.2 (.inr (.inl ⟨ha, hacc.resolve_left ha, rfl,
          pteStore_of_isMem hslot.2.2 hslot.1 w⟩))⟩
    obtain ⟨w', had⟩ := hfinish
    refine ⟨w', s1Visit_done_iff.2 ⟨entryAddr vm addr i b, w, w.entry vm addr i b,
      w, ?_, h.pteLoad_eq,
      .inr ⟨hc, finishLeaf_ok_iff.2 ⟨true, had, ?_⟩⟩⟩⟩
    · rw [s1Slot_eq_entryAddr hidx]
      exact s2xlate_single
    · rw [hn, hp]
      rfl

theorem VmInfo.Scheme.idxbits_lt {xlen : Xlen} {stage2 : Bool} (h : vm.Scheme xlen stage2) :
    vm.idxbits < 64 := by
  rw [h.idxbits]
  split <;> omega

/-- Up to five levels the address has no more bits than a register. -/
theorem VmInfo.Scheme.vaBits_le {xlen : Xlen} {stage2 : Bool} (h : vm.Scheme xlen stage2)
    (hfive : vm.levels ≤ 5) : 1 < vaBits vm ∧ vaBits vm ≤ xlen.bits := by
  have hlevels := h.levels
  rw [vaBits, h.idxbits]
  cases xlen with
  | rv32 =>
    rw [hlevels.1 rfl]
    decide
  | rv64 =>
    rw [if_neg (by decide)]
    simp only [pgShift, Xlen.bits]
    omega

/-- **Single-stage translation.** For a scheme of up to five levels whose table entries on the path
are accessible, the walk returns a page exactly when the address is canonical and a path of entries
that point on leads to a leaf that maps the page for this access; and then it returns that page. -/
theorem walk_ok_iff_path (hvm : decodeVmInfo r.xlen false mode r.satp = some vm)
    (hlevels : vm.levels ≠ 0) (hfive : vm.levels ≤ 5)
    (hacc : Accessible bus r w vm addr vm.levels vm.ptbase) (page : Reg) :
    (∃ w', walk (busMem bus r) r addr type mode false hlvx w = .ok page w') ↔
      Canonical r.xlen vm addr ∧ ∃ i base,
      TablePath PointsOn w vm addr vm.levels vm.ptbase (i + 1) base ∧
        MapsPage r vm type mode hlvx i (w.entry vm addr i base) ∧
        IsPageOf vm addr i (w.entry vm addr i base) page := by
  have hvm' : decodeVmInfo r.xlen false mode (r.atp false) = some vm := hvm
  have hscheme := decodeVmInfo_scheme hvm hlevels
  have hidx := hscheme.idxbits_lt
  obtain ⟨hpos, hle⟩ := hscheme.vaBits_le hfive
  -- the page is translated by one stage, so the walk is the descent alone
  have hwalk : ∀ w', walk (busMem bus r) r addr type mode false hlvx w = .ok page w' ↔
      ∃ p, s1Descend bus r vm addr type mode false hlvx w = .ok (some p) w' ∧
        page = (p ||| (addr &&& pageMask)) &&& ~~~pageMask := by
    intro w'
    rw [walk_eq_walkTables _ hvm' hlevels, walkTables_ok_iff]
    constructor
    · rintro ⟨p, u, phys, hd, hs, rfl⟩
      cases hs
      exact ⟨p, hd, rfl⟩
    · rintro ⟨p, hd, rfl⟩
      exact ⟨p, w', _, hd, s2xlate_single, rfl⟩
  rw [← canonical_iff hpos hle]
  cases hcan : canonical r.xlen vm addr with
  | false =>
    refine iff_of_false ?_ fun h => Bool.noConfusion h.1
    rintro ⟨w', h⟩
    obtain ⟨p, hd, -⟩ := (hwalk w').1 h
    rw [s1Descend, walkLevels, hcan, if_neg (by decide)] at hd
    cases hd
  | true =>
    rw [eq_self, true_and]
    -- the descent reaches a leaf below a path of tables, and memory is unchanged until then
    have hd : ∀ p w', s1Descend bus r vm addr type mode false hlvx w = .ok (some p) w' ↔
        ∃ i base, TablePath PointsOn w vm addr vm.levels vm.ptbase (i + 1) base ∧
          s1Visit (busMem bus r) r vm addr type mode false hlvx i base w = .ok
            (.done (some p)) w' := by
      intro p w'
      rw [s1Descend, walkLevels, hcan, if_pos rfl, descend_eq_ok_iff]
      constructor
      · rintro (⟨⟨⟩, -⟩ | ⟨i, base, u, hr, hv⟩)
        obtain ⟨hp, rfl⟩ := (reaches_iff_tablePath hidx hacc).1 hr
        exact ⟨i, base, hp, hv⟩
      · rintro ⟨i, base, hp, hv⟩
        exact .inr ⟨i, base, w, (reaches_iff_tablePath hidx hacc).2 ⟨hp, rfl⟩, hv⟩
    -- the visit of the last entry ends the walk if and only if it maps the page
    have hvisit : ∀ {i base p}, TablePath PointsOn w vm addr vm.levels vm.ptbase (i + 1) base →
        ((∃ w', s1Visit (busMem bus r) r vm addr type mode false hlvx i base w =
          .ok (.done (some p)) w') ↔
          MapsPage r vm type mode hlvx i (w.entry vm addr i base) ∧
            IsPageOf vm addr i (w.entry vm addr i base) p) := by
      intro i base p hp
      have hshift : i * vm.idxbits ≤ vm.levels * vm.idxbits :=
        Nat.mul_le_mul_right _ (Nat.le_of_succ_le hp.le)
      have h64 : r.xlen.bits ≤ 64 := by cases r.xlen <;> decide
      refine s1Visit_done_iff_mapsPage hidx ?_ (hacc.of_path hp)
      simp only [vaBits, pgShift] at hle
      omega
    constructor
    · rintro ⟨w', h⟩
      obtain ⟨p, hdp, rfl⟩ := (hwalk w').1 h
      obtain ⟨i, base, hp, hv⟩ := (hd p w').1 hdp
      obtain ⟨hm, hpage⟩ := (hvisit hp).1 ⟨w', hv⟩
      rw [or_offset_and_not_pageMask hpage.offset]
      exact ⟨i, base, hp, hm, hpage⟩
    · rintro ⟨i, base, hp, hm, hpage⟩
      obtain ⟨w', hv⟩ := (hvisit hp).2 ⟨hm, hpage⟩
      exact ⟨w', (hwalk w').2 ⟨page, (hd page w').2 ⟨i, base, hp, hv⟩,
        (or_offset_and_not_pageMask hpage.offset).symm⟩⟩

end Path

/-- Sv39 with the root table at 0, no PMP and no optional extension. -/
def sv39Regime : Regime where
  xlen := .rv64
  svnapot := false
  satp := 0x8000000000000000#64
  vsatp := 0#64
  hgatp := 0#64
  sstatus := 0#64
  vsstatus := 0#64
  menvcfg := 0#64
  henvcfg := 0#64
  pmp := Pmp.absent
  debugMode := false

/-- What `sv39Regime` decodes to. -/
def sv39 : VmInfo := ⟨3, 9, 0, 8, 0#64⟩

/-- The first root entry points to a table at 0x1000 but has a reserved bit set; the table maps the
first megapage. -/
def reservedWorld : World Unit :=
  World.ofDoublewords [(0#64, 0x0040000000000401#64), (0x1000#64, 0xcf#64)]

theorem walk_ok_iff_path_sv39 :
    (∃ w', walk (busMem ramBus sv39Regime) sv39Regime 0#64 .load prvS false false reservedWorld =
      .ok 0#64 w') ↔
      Canonical .rv64 sv39 0#64 ∧ ∃ i base,
      TablePath PointsOn reservedWorld sv39 0#64 3 0#64 (i + 1) base ∧
        MapsPage sv39Regime sv39 .load prvS false i (reservedWorld.entry sv39 0#64 i base) ∧
        IsPageOf sv39 0#64 i (reservedWorld.entry sv39 0#64 i base) 0#64 :=
  walk_ok_iff_path (show decodeVmInfo .rv64 false prvS sv39Regime.satp = some sv39 from rfl)
    (by decide) (by decide) (fun _ _ _ => ⟨rfl, rfl, rfl⟩) 0#64

/-- Without the reserved bits of the table entries the path would promise a page that the walk does
not return. -/
theorem not_walk_ok_of_path_reserved :
    ¬ ((∃ page w', walk (busMem ramBus sv39Regime) sv39Regime 0#64 .load prvS false false
        reservedWorld = .ok page w') ↔
      Canonical .rv64 sv39 0#64 ∧ ∃ i base,
        TablePath (fun pte => pteTable pte = true ∧ hasBits pte tableForbidden = false)
          reservedWorld
          sv39 0#64 3 0#64 (i + 1) base ∧
        MapsPage sv39Regime sv39 .load prvS false i (reservedWorld.entry sv39 0#64 i base)) := by
  intro h
  have hwalk : walk (busMem ramBus sv39Regime) sv39Regime 0#64 .load prvS
    false false reservedWorld =
      .error (.trap (pageFault .load false 0#64)) reservedWorld := rfl
  have hroot : reservedWorld.entry sv39 0#64 2 0#64 = 0x0040000000000401#64 := by decide
  have hleaf : reservedWorld.entry sv39 0#64 1 0x1000#64 = 0xcf#64 := by decide
  have hpath : TablePath (fun pte => pteTable pte = true ∧ hasBits pte tableForbidden = false)
      reservedWorld sv39 0#64 3 0#64 2 0x1000#64 := by
    refine .step (by rw [hroot]; decide) ?_
    rw [hroot]
    exact .refl _ _
  have hcan : Canonical .rv64 sv39 0#64 := by
    intro k _ _
    simp
  have hmaps : MapsPage sv39Regime sv39 .load prvS false 1
      (reservedWorld.entry sv39 0#64 1 0x1000#64) := by
    rw [hleaf]
    refine ⟨by decide, by decide, by decide, by decide, by decide, by decide, by decide, by decide,
      by decide, by decide, by decide, by decide, ?_, by decide, by decide⟩
    intro k _
    rw [show ptePpn 0xcf#64 = 0#64 by decide, BitVec.getLsbD_zero]
  obtain ⟨page, w', hok⟩ := h.2 ⟨hcan, 1, 0x1000#64, hpath, hmaps⟩
  rw [hwalk] at hok
  cases hok

end Nnemu

import Nnemu.Hart.Machine
import Nnemu.Mmu.Entries
import Nnemu.Mmu.FaultClass
import Nnemu.Mmu.Store

/-!
# Atomic operations

The three accesses of `mmu_t::amo` go to one place when the TLB knows the page as the tables do, and
until the last of them only A and D bits change. So the operation is done as a whole, or it is not
done and ends with a store trap, a trigger match or an `abort()`: `amo_atomic`.

The proof follows the three accesses of `amo`. For each there is a description of what it has done
when it returns (`LoadedFrom`, `StoresTo`) and when it throws, and the two have in common where they
went: the load finds the place of the store that was tried, since both walk the same entries and
only A and D bits have changed since (`Mmu.Entries`). `FindsRam` and `TlbFresh` are the conditions
under which the page is known.
-/

namespace Nnemu

open Bytes Trigger

variable {δ ι : Type} {cfg : Config} {bus : Bus δ} {addr paddr : Reg} {len : Nat}

/-! ### TLB entries -/

namespace Tlb

variable (t t' : Tlb)

theorem vpn_lt (addr : Reg) : (vpn addr).toNat < 2 ^ 52 := by
  have hlt := addr.isLt
  have hshift : pgShift = 12 := rfl
  rw [vpn, BitVec.toNat_ushiftRight, Nat.shiftRight_eq_div_pow, hshift]
  omega

/-- A tag with a mark beyond the page number is the number of no page. -/
theorem ne_vpn {tag : Reg} (h : 2 ^ 52 ≤ tag.toNat) (addr : Reg) : tag ≠ vpn addr := by
  rintro rfl
  exact absurd h (Nat.not_le_of_lt (vpn_lt addr))

/-- A page number is not that high. -/
theorem vpn_and (addr : Reg) : vpn addr &&& ~~~tlbCheckTriggers = vpn addr := by
  apply BitVec.eq_of_getLsbD_eq
  intro i hi
  rw [BitVec.getLsbD_and]
  cases hbit : (vpn addr).getLsbD i with
  | false => rw [Bool.false_and]
  | true =>
    -- page numbers have 52 bits, and the flag is bit 63
    have hlow : i < 52 := by
      have hge : 2 ^ i ≤ (vpn addr).toNat :=
        Nat.ge_two_pow_of_testBit (by rwa [BitVec.testBit_toNat])
      have hlt := vpn_lt addr
      by_contra hnot
      have hpow : 2 ^ 52 ≤ 2 ^ i := Nat.pow_le_pow_right (by decide) (Nat.le_of_not_lt hnot)
      omega
    have hmask : ∀ k < 52, (~~~tlbCheckTriggers).getLsbD k = true := by decide
    rw [hmask i hlow, Bool.and_true]

/-- The page of the address has been loaded from or stored to. -/
def known (addr : Reg) : Bool :=
  t.hitChecked addr || t.hitStoreChecked addr

/-- A hit for loads knows the page. -/
theorem known_of_hitChecked (h : t.hitChecked addr = true) : t.known addr = true := by
  rw [known, h, Bool.true_or]

/-- So does a hit for stores. -/
theorem known_of_hitStoreChecked (h : t.hitStoreChecked addr = true) : t.known addr = true := by
  rw [known, h, Bool.or_true]

theorem hitChecked_of_hit (h : t.hit addr = true) : t.hitChecked addr = true := by
  rw [hit, beq_iff_eq] at h
  rw [hitChecked, h, vpn_and, beq_self_eq_true]

theorem hitStoreChecked_of_hitStore (h : t.hitStore addr = true) :
    t.hitStoreChecked addr = true := by
  rw [hitStore, beq_iff_eq] at h
  rw [hitStoreChecked, h, vpn_and, beq_self_eq_true]

/-- Another access keeps the tag, or invalidates one that does not count. -/
theorem keepTag_checked (addr tag : Reg) :
    (vpn addr == keepTag addr tag &&& ~~~tlbCheckTriggers) =
      (vpn addr == tag &&& ~~~tlbCheckTriggers) := by
  rw [keepTag]
  split
  · rename_i hne
    rw [beq_false_of_ne hne.symm, beq_false_of_ne]
    exact (ne_vpn (by decide) addr).symm
  · rfl

/-- A load that fills in an entry leaves what the entry says of stores, and makes it lead to the
page of the load. -/
theorem refill_load {h : Hart} (hrefill : t.refill cfg h addr paddr .load = some t') :
    t'.hitStoreChecked addr = t.hitStoreChecked addr ∧
    (t' = t ∨ t'.data (index addr) + addr = paddr) := by
  obtain rfl | ⟨homogeneous, rfl⟩ := refill_cases hrefill
  · exact ⟨rfl, .inl rfl⟩
  · refine ⟨?_, .inr ?_⟩
    · rw [hitStoreChecked, hitStoreChecked, fill]
      simp only [Function.update_self]
      -- the tag of stores stays, or goes where it is that of another page
      have hother : (AccessType.store == AccessType.load) = false := rfl
      rw [hother, Bool.and_false, if_neg Bool.false_ne_true, keepTag_checked]
    · rw [fill]
      simp only [Function.update_self]
      exact BitVec.sub_add_cancel _ _

/-- `pmp_homogeneous` is asked for whole pages. -/
theorem refill_isSome (cfg : Config) (h : Hart) (addr paddr : Reg) (type : AccessType) :
    (t.refill cfg h addr paddr type).isSome = true := by
  have haligned : (paddr &&& ~~~pageMask ||| 4096#64) &&& (4096#64 - 1#64) = 0#64 := by
    have hmask : 4096#64 - 1#64 = pageMask := by decide
    have hbit : 4096#64 &&& pageMask = 0#64 := by decide
    rw [hmask, BitVec.and_comm, BitVec.and_or_distrib_left, BitVec.and_comm pageMask 4096#64,
      hbit, BitVec.or_zero,
      BitVec.and_comm, BitVec.and_assoc, BitVec.and_comm (~~~pageMask)]
    simp
  -- no entry calls `abort()`, which is behind the same test
  have hentries (is : List Nat) :
      (h.pmp.pmpHomogeneousOn (paddr &&& ~~~pageMask) 4096#64 is).isSome = true := by
    induction is with
    | nil => rfl
    | cons i is ih =>
      rw [Pmp.pmpHomogeneousOn, Pmp.subsetMatch, if_neg (not_not_intro haligned)]
      dsimp only
      split
      · rename_i hnone
        split at hnone
        · cases hnone
        · cases hnone
      · rfl
      · exact ih
  rw [refill]
  split
  · rfl
  · rw [Option.isSome_map, Pmp.pmpHomogeneous, if_neg (not_not_intro haligned)]
    exact hentries _

end Tlb

namespace HartMmu

/-! ### Triggers -/

/-- A processor after checks for triggers: translations and the TLB are the same. -/
structure Checked (c c' : Cpu Files ι) : Prop where
  hart : ∃ triggers, c'.hart = { c.hart with triggers := triggers }
  rest : c'.rest = c.rest

variable {c c' c'' : Cpu Files ι} {w w' : World δ} {data : Option Reg}
  {e : Stop} {s : Cpu Files ι × World δ}

theorem Checked.refl (c : Cpu Files ι) : Checked c c :=
  ⟨⟨c.hart.triggers, rfl⟩, rfl⟩

theorem Checked.trans (h : Checked c c') (h' : Checked c' c'') : Checked c c'' := by
  obtain ⟨_, hhart⟩ := h.hart
  obtain ⟨triggers, hhart'⟩ := h'.hart
  exact ⟨⟨triggers, by rw [hhart', hhart]⟩, h'.rest.trans h.rest⟩

/-- A check for triggers changes the triggers and a pending match only. -/
theorem checked_checkTriggers (cfg : Config) (operation : Operation) (addr : Reg)
    (data : Option Reg) (c : Cpu Files ι) :
    Checked c (Exec.final (checkTriggers cfg operation addr data c)) := by
  rw [checkTriggers]
  split
  · exact .refl c
  · have hkept : Checked c (c.withHart fun h =>
        { h with
          triggers :=
            (c.hart.triggers.detectMemoryAccessMatch (c.hart.matchEnv cfg) operation addr data).1
              }) := by
      rw [Cpu.withHart]
      split
      · exact ⟨⟨_, rfl⟩, rfl⟩
      · exact ⟨⟨_, rfl⟩, rfl⟩
    dsimp only
    split
    · exact hkept
    · exact hkept
    · exact ⟨hkept.hart, hkept.rest⟩

/-- `check_triggers`, of which `checkLoad` and `checkStore` are cases. -/
def checkData (cfg : Config) (operation : Operation) (addr : Reg) (data : Option Reg) :
    LoadM δ ι Unit := fun s =>
  match checkTriggers cfg operation addr data s.1 with
  | .ok _ c => .ok () (c, s.2)
  | .error (.matched m) c => .error (.matched m.operation m.address m.action) (c, s.2)
  | .error _ c => .error .abort (c, s.2)

variable {operation : Operation}

theorem checkData_ok (h : checkData cfg operation addr data (c, w) = .ok () s) :
    Checked c s.1 ∧ s.2 = w := by
  have hkept := checked_checkTriggers cfg operation addr data c
  rw [checkData] at h
  cases hc : checkTriggers cfg operation addr data c with
  | ok x c₁ =>
    rw [hc] at hkept
    simp only [hc] at h
    cases h
    exact ⟨hkept, rfl⟩
  | error x c₁ =>
    simp only [hc] at h
    cases x <;> cases h

/-- A match is thrown before anything is done. -/
theorem checkData_error (h : checkData cfg operation addr data (c, w) = .error e s) :
    s.2 = w ∧ ∀ t, e ≠ .trap t := by
  rw [checkData] at h
  cases hc : checkTriggers cfg operation addr data c with
  | ok x c₁ =>
    simp only [hc] at h
    cases h
  | error x c₁ =>
    simp only [hc] at h
    cases x <;> cases h <;> exact ⟨rfl, fun _ ht => by cases ht⟩

/-! ### Translations of data accesses -/

/-- `translate` of the hart, for a load or a store without flags. -/
def translateData (cfg : Config) (bus : Bus δ) (c : Cpu Files ι) (addr : Reg)
    (len : Nat) (type : AccessType) :
    Exec Stop (World δ) Reg :=
  translate (busMem bus (c.hart.regime cfg)) (c.hart.regime cfg)
    (c.hart.privilege cfg) addr len type {}

/-- `translateLoad` and `translateStore`, which keep the processor as it is. -/
def translateIn (cfg : Config) (bus : Bus δ) (addr : Reg) (len : Nat) (type : AccessType) :
    LoadM δ ι Reg := fun s =>
  match translateData cfg bus s.1 addr len type s.2 with
  | .ok paddr w => .ok paddr (s.1, w)
  | .error e w => .error e (s.1, w)

theorem translateIn_ok {type : AccessType}
    (h : translateIn cfg bus addr len type (c, w) = .ok paddr (c', w')) :
    c' = c ∧ translateData cfg bus c addr len type w = .ok paddr w' := by
  rw [translateIn] at h
  cases hfound : translateData cfg bus c addr len type w with
  | ok p u =>
    simp only [hfound] at h
    cases h
    exact ⟨rfl, rfl⟩
  | error x u =>
    simp only [hfound] at h
    cases h

theorem translateIn_error {type : AccessType}
    (h : translateIn cfg bus addr len type (c, w) = .error e (c', w')) :
    translateData cfg bus c addr len type w = .error e w' := by
  rw [translateIn] at h
  cases hfound : translateData cfg bus c addr len type w with
  | ok p u =>
    simp only [hfound] at h
    cases h
  | error x u =>
    simp only [hfound] at h
    cases h
    rfl

theorem translateData_eq_of_hart (h : ∃ triggers, c'.hart = { c.hart with triggers := triggers })
    (addr : Reg) (len : Nat)
    (type : AccessType) : translateData cfg bus c' addr len type =
      translateData cfg bus c addr len type := by
  obtain ⟨triggers, hhart⟩ := h
  rw [translateData, translateData, hhart]
  rfl

/-- Translations do not look at what a check changes. -/
theorem Checked.translateData_eq (h : Checked c c') (addr : Reg) (len : Nat) (type : AccessType) :
    translateData cfg bus c' addr len type = translateData cfg bus c addr len type :=
  translateData_eq_of_hart h.hart addr len type

/-- A trap that a store or an atomic operation may take: misaligned, access fault, page fault or
guest-page fault. -/
def StoreFault (t : Trap) : Prop :=
  t.cause = 6#64 ∨ t.cause = 7#64 ∨ t.cause = 15#64 ∨ t.cause = 23#64

/-- A fault of a load becomes one of a store when it is converted. -/
theorem storeFault_of_ofClass {type : AccessType} {t : Trap} (htype : type = .load ∨ type = .store)
    (h : (Stop.trap t).OfClass type) : StoreFault (storeTrapOf t) := by
  obtain rfl | rfl := htype
  · obtain hcause | hcause | hcause := h <;> rw [causeOf] at hcause <;>
      simp [StoreFault, storeTrapOf, causeOf, hcause]
  · obtain hcause | hcause | hcause := h <;> rw [causeOf] at hcause <;>
      simp [StoreFault, storeTrapOf, causeOf, hcause]

/-- What a translation throws is reported as a store trap. -/
theorem translateData_trap {type : AccessType} {t : Trap} (htype : type = .load ∨ type = .store)
    (h : translateData cfg bus c addr len type w = .error (.trap t) w') :
    StoreFault (storeTrapOf t) := by
  obtain hwalk | ⟨page, u, -, hpmp⟩ := Exec.bind_eq_error_iff.1 h
  · obtain hclass | hfail := walk_error_class hwalk
    · exact storeFault_of_ofClass htype hclass
    · -- the write-back of an implicit load
      obtain ⟨_, hthrown⟩ := walk_error_of_implicitUpdateFails hfail
      rw [hwalk] at hthrown
      cases hthrown
      exact storeFault_of_ofClass (.inl rfl) (ofClass_accessFault _ _ _)
  · rw [Exec.ite_apply] at hpmp
    split at hpmp
    · cases hpmp
      exact storeFault_of_ofClass htype (ofClass_accessFault _ _ _)
    · cases hpmp

/-! ### The load -/

/-- Where a load has looked: in the TLB, or in the tables, in which case it has filled in the
TLB. -/
inductive LoadedFrom (cfg : Config) (bus : Bus δ) (addr : Reg) (len : Nat)
    (c : Cpu Files ι) (w : World δ) (paddr : Reg) :
    Cpu Files ι × World δ → Prop
  | tlb {c' : Cpu Files ι} (hit : c.rest.tlb.hitChecked addr = true)
      (place : paddr = c.rest.tlb.data (Tlb.index addr) + addr) (checked : Checked c c') :
      LoadedFrom cfg bus addr len c w paddr (c', w)
  | tables {c' : Cpu Files ι} {w' : World δ} (miss : c.rest.tlb.hitChecked addr = false)
      (walked : translateData cfg bus c addr len .load w = .ok paddr w')
      (hart : ∃ triggers, c'.hart = { c.hart with triggers := triggers })
      (filled : c.rest.tlb.refill cfg c.hart addr paddr .load = some c'.rest.tlb) :
      LoadedFrom cfg bus addr len c w paddr (c', w')

theorem LoadedFrom.checked {c₁ c₂ : Cpu Files ι}
    (h : LoadedFrom cfg bus addr len c w paddr (c₁, w'))
    (hc : Checked c₁ c₂) : LoadedFrom cfg bus addr len c w paddr (c₂, w') := by
  cases h with
  | tlb hit place checked => exact .tlb hit place (checked.trans hc)
  | tables miss walked hart filled =>
    obtain ⟨_, hhart⟩ := hart
    obtain ⟨triggers, hhart'⟩ := hc.hart
    exact .tables miss walked ⟨triggers, by rw [hhart', hhart]⟩ (by rw [hc.rest]; exact filled)

theorem LoadedFrom.of_checked {c₁ : Cpu Files ι} (hc : Checked c c₁)
    (h : LoadedFrom cfg bus addr len c₁ w paddr s) :
    LoadedFrom cfg bus addr len c w paddr s := by
  cases h with
  | tlb hit place checked =>
    rw [hc.rest] at hit place
    exact .tlb hit place (hc.trans checked)
  | tables miss walked hart filled =>
    rw [hc.rest] at miss filled
    rw [hc.translateData_eq] at walked
    obtain ⟨triggers, hhart⟩ := hc.hart
    obtain ⟨triggers', hhart'⟩ := hart
    refine .tables miss walked ⟨triggers', by rw [hhart', hhart]⟩ ?_
    rw [← filled, hhart]
    rfl

/-- A load changes triggers of the hart only. -/
theorem LoadedFrom.hart (h : LoadedFrom cfg bus addr len c w paddr (c', w')) :
    ∃ triggers, c'.hart = { c.hart with triggers := triggers } := by
  cases h with
  | tlb _ _ checked => exact checked.hart
  | tables _ _ hart => exact hart

/-- A load leaves what the TLB says of stores. When it changes where the entry leads, then to its
own place. -/
theorem LoadedFrom.tlb_cases (h : LoadedFrom cfg bus addr len c w paddr (c', w')) :
    c'.rest.tlb.hitStoreChecked addr = c.rest.tlb.hitStoreChecked addr ∧
      (c'.rest.tlb = c.rest.tlb ∨ c'.rest.tlb.data (Tlb.index addr) + addr = paddr) := by
  cases h with
  | tlb _ _ checked =>
    rw [checked.rest]
    exact ⟨rfl, .inl rfl⟩
  | tables _ _ _ filled => exact Tlb.refill_load _ _ filled

theorem loadSlowPathIntrapage_ok {bytes : List (BitVec 8)}
    (hram : ∀ p u, translateData cfg bus c addr len .load w = .ok p u → bus.isMem p = true)
    (h : loadSlowPathIntrapage cfg bus addr len (c, w) = .ok bytes s) :
    ∃ p, LoadedFrom cfg bus addr len c w p s ∧ bytes = readBytes s.2.mem p len := by
  obtain ⟨_, _, ⟨⟩, hload⟩ := Exec.bind_eq_ok_iff.1 h
  dsimp only at hload
  split at hload
  · rename_i hit
    cases hload
    exact ⟨_, .tlb hit rfl (.refl c), rfl⟩
  · rename_i hmiss
    obtain ⟨p, ⟨c₁, u⟩, htranslate, hfilled⟩ := Exec.bind_eq_ok_iff.1 hload
    obtain ⟨rfl, hwalk⟩ := translateIn_ok htranslate
    rw [if_pos (hram p u hwalk)] at hfilled
    obtain ⟨_, _, ⟨⟩, hfilled⟩ := Exec.bind_eq_ok_iff.1 hfilled
    obtain ⟨_, t, hrefill, hbytes⟩ := Exec.bind_eq_ok_iff.1 hfilled
    cases hbytes
    rw [refillLoad] at hrefill
    dsimp only at hrefill
    split at hrefill
    · rename_i hsome
      cases hrefill
      exact ⟨p, .tables (Bool.eq_false_iff.2 hmiss) hwalk ⟨_, rfl⟩ hsome, rfl⟩
    · cases hrefill

theorem loadSlowPathIntrapage_error
    (hram : ∀ p u, translateData cfg bus c addr len .load w = .ok p u → bus.isMem p = true)
    (h : loadSlowPathIntrapage cfg bus addr len (c, w) = .error e (c', w')) :
    c.rest.tlb.hitChecked addr = false ∧ translateData cfg bus c addr len .load w =
      .error e w' := by
  obtain hget | ⟨_, _, ⟨⟩, hload⟩ := Exec.bind_eq_error_iff.1 h
  · cases hget
  dsimp only at hload
  split at hload
  · cases hload
  · rename_i hmiss
    obtain htranslate | ⟨p, ⟨c₁, u⟩, htranslate, hfilled⟩ := Exec.bind_eq_error_iff.1 hload
    · exact ⟨Bool.eq_false_iff.2 hmiss, translateIn_error htranslate⟩
    · obtain ⟨rfl, hwalk⟩ := translateIn_ok htranslate
      rw [if_pos (hram p u hwalk)] at hfilled
      obtain hget | ⟨_, _, ⟨⟩, hfilled⟩ := Exec.bind_eq_error_iff.1 hfilled
      · cases hget
      -- the walk is over, and filling in the TLB does not fail
      obtain hrefill | ⟨_, t, -, hbytes⟩ := Exec.bind_eq_error_iff.1 hfilled
      · rw [refillLoad] at hrefill
        dsimp only at hrefill
        split at hrefill
        · cases hrefill
        · rename_i hnone
          have hsome := c₁.rest.tlb.refill_isSome cfg c₁.hart addr p .load
          rw [hnone] at hsome
          cases hsome
      · cases hbytes

/-- **A load that returns** has found its place, and returns what was there. -/
theorem load_ok {bytes : List (BitVec 8)}
    (hram : ∀ p u, translateData cfg bus c addr len .load w = .ok p u → bus.isMem p = true)
    (h : load cfg bus addr len (c, w) = .ok bytes s) :
    ∃ p, LoadedFrom cfg bus addr len c w p s ∧ bytes = readBytes s.2.mem p len := by
  obtain ⟨_, _, ⟨⟩, hload⟩ := Exec.bind_eq_ok_iff.1 h
  dsimp only at hload
  split at hload
  · rename_i hit
    cases hload
    exact ⟨_, .tlb (c.rest.tlb.hitChecked_of_hit hit) rfl (.refl c), rfl⟩
  · obtain ⟨_, ⟨c₁, w₁⟩, hbefore, hslow⟩ := Exec.bind_eq_ok_iff.1 hload
    obtain ⟨hc, rfl⟩ := checkData_ok hbefore
    obtain ⟨bytes', ⟨c₂, w₂⟩, hpage, hslow⟩ := Exec.bind_eq_ok_iff.1 hslow
    rw [← hc.translateData_eq] at hram
    obtain ⟨p, hfrom, rfl⟩ := loadSlowPathIntrapage_ok hram hpage
    obtain ⟨_, ⟨c₃, w₃⟩, hafter, hbytes⟩ := Exec.bind_eq_ok_iff.1 hslow
    obtain ⟨hc', rfl⟩ := checkData_ok hafter
    cases hbytes
    exact ⟨p, (hfrom.checked hc').of_checked hc, rfl⟩

/-- **A load that throws** has at most translated. -/
theorem load_error
    (hram : ∀ p u, translateData cfg bus c addr len .load w = .ok p u → bus.isMem p = true)
    (h : load cfg bus addr len (c, w) = .error e (c', w')) :
    (w' = w ∨ w' = Exec.final (translateData cfg bus c addr len .load w)) ∧
      ∀ t, e = .trap t → translateData cfg bus c addr len .load w = .error (.trap t) w' := by
  obtain hget | ⟨_, _, ⟨⟩, hload⟩ := Exec.bind_eq_error_iff.1 h
  · cases hget
  dsimp only at hload
  split at hload
  · cases hload
  · obtain hbefore | ⟨_, ⟨c₁, w₁⟩, hbefore, hslow⟩ := Exec.bind_eq_error_iff.1 hload
    · obtain ⟨hw, htrap⟩ := checkData_error hbefore
      exact ⟨.inl hw, fun t ht => absurd ht (htrap t)⟩
    · obtain ⟨hc, rfl⟩ := checkData_ok hbefore
      rw [← hc.translateData_eq] at hram ⊢
      obtain hpage | ⟨bytes', ⟨c₂, w₂⟩, hpage, hslow⟩ := Exec.bind_eq_error_iff.1 hslow
      · obtain ⟨-, hthrown⟩ := loadSlowPathIntrapage_error hram hpage
        refine ⟨.inr ?_, fun t ht => ?_⟩
        · rw [hthrown]
          rfl
        · rw [hthrown, ht]
      · -- a match on the data: the walk has been made
        obtain hafter | ⟨_, _, -, hbytes⟩ := Exec.bind_eq_error_iff.1 hslow
        · obtain ⟨hw, htrap⟩ := checkData_error hafter
          refine ⟨?_, fun t ht => absurd ht (htrap t)⟩
          obtain rfl : w' = w₂ := hw
          obtain ⟨p, hfrom, -⟩ := loadSlowPathIntrapage_ok hram hpage
          cases hfrom with
          | tlb => exact .inl rfl
          | tables miss walked =>
            rw [walked]
            exact .inr rfl
        · cases hbytes

/-! ### The stores -/

/-- Where a store goes: to the place of the TLB entry, or to that which a walk has found. The world
is the one in front of the write. -/
inductive StoresTo (cfg : Config) (bus : Bus δ) (addr : Reg) (len : Nat)
    (c : Cpu Files ι) (w : World δ) (paddr : Reg) :
    World δ → Prop
  | tlb (hit : c.rest.tlb.hitStoreChecked addr = true)
  (place : paddr = c.rest.tlb.data (Tlb.index addr) + addr) :
      StoresTo cfg bus addr len c w paddr w
  | tables {w' : World δ} (miss : c.rest.tlb.hitStoreChecked addr = false)
      (walked : translateData cfg bus c addr len .store w = .ok paddr w') :
        StoresTo cfg bus addr len c w paddr w'

theorem StoresTo.of_checked {c₁ : Cpu Files ι} (hc : Checked c c₁)
    (h : StoresTo cfg bus addr len c₁ w paddr w') :
    StoresTo cfg bus addr len c w paddr w' := by
  cases h with
  | tlb hit place =>
    rw [hc.rest] at hit place
    exact .tlb hit place
  | tables miss walked =>
    rw [hc.rest] at miss
    rw [hc.translateData_eq] at walked
    exact .tables miss walked

theorem storeSlowPathIntrapage_ok {bytes : List (BitVec 8)}
    (hram : c.rest.tlb.hitStoreChecked addr = false →
      ∀ p u, translateData cfg bus c addr len .store w = .ok p u → bus.isMem p = true)
    (h : storeSlowPathIntrapage cfg bus addr len bytes true (c, w) = .ok () s) :
    ∃ p u, StoresTo cfg bus addr len c w p u ∧ s.2.mem = writeBytes u.mem p bytes := by
  obtain ⟨_, _, ⟨⟩, hstore⟩ := Exec.bind_eq_ok_iff.1 h
  dsimp only at hstore
  split at hstore
  · rename_i hit
    cases hstore
    exact ⟨_, w, .tlb hit rfl, rfl⟩
  · rename_i hmiss
    obtain ⟨p, ⟨c₁, u⟩, htranslate, hfilled⟩ := Exec.bind_eq_ok_iff.1 hstore
    obtain ⟨rfl, hwalk⟩ := translateIn_ok htranslate
    rw [if_pos rfl, if_pos (hram (Bool.eq_false_iff.2 hmiss) p u hwalk)] at hfilled
    obtain ⟨_, _, ⟨⟩, hrefill⟩ := Exec.bind_eq_ok_iff.1 hfilled
    rw [refillStore] at hrefill
    dsimp only at hrefill
    split at hrefill
    · cases hrefill
      exact ⟨p, u, .tables (Bool.eq_false_iff.2 hmiss) hwalk, rfl⟩
    · cases hrefill

/-- A store that is only tried. -/
theorem storeSlowPathIntrapage_tried {bytes : List (BitVec 8)}
    (h : storeSlowPathIntrapage cfg bus addr len bytes false (c, w) = .ok () (c', w')) :
    c' = c ∧ ∃ p, StoresTo cfg bus addr len c w p w' := by
  obtain ⟨_, _, ⟨⟩, hstore⟩ := Exec.bind_eq_ok_iff.1 h
  dsimp only at hstore
  split at hstore
  · rename_i hit
    cases hstore
    exact ⟨rfl, _, .tlb hit rfl⟩
  · rename_i hmiss
    obtain ⟨p, ⟨c₁, u⟩, htranslate, hdone⟩ := Exec.bind_eq_ok_iff.1 hstore
    obtain ⟨rfl, hwalk⟩ := translateIn_ok htranslate
    cases hdone
    exact ⟨rfl, p, .tables (Bool.eq_false_iff.2 hmiss) hwalk⟩

theorem storeSlowPathIntrapage_error {bytes : List (BitVec 8)} {actuallyStore : Bool}
    (hram : actuallyStore = true → c.rest.tlb.hitStoreChecked addr = false →
      ∀ p u, translateData cfg bus c addr len .store w = .ok p u → bus.isMem p = true)
    (h : storeSlowPathIntrapage cfg bus addr len bytes actuallyStore (c, w) = .error e (c', w')) :
    c.rest.tlb.hitStoreChecked addr = false ∧ translateData cfg bus c addr len .store w =
      .error e w' := by
  obtain hget | ⟨_, _, ⟨⟩, hstore⟩ := Exec.bind_eq_error_iff.1 h
  · cases hget
  dsimp only at hstore
  split at hstore
  · cases actuallyStore <;> cases hstore
  · rename_i hmiss
    have hmiss := Bool.eq_false_iff.2 hmiss
    obtain htranslate | ⟨p, ⟨c₁, u⟩, htranslate, hfilled⟩ := Exec.bind_eq_error_iff.1 hstore
    · exact ⟨hmiss, translateIn_error htranslate⟩
    · obtain ⟨rfl, hwalk⟩ := translateIn_ok htranslate
      cases actuallyStore with
      | false => cases hfilled
      | true =>
        rw [if_pos rfl, if_pos (hram rfl hmiss p u hwalk)] at hfilled
        obtain hwrite | ⟨_, _, ⟨⟩, hrefill⟩ := Exec.bind_eq_error_iff.1 hfilled
        · cases hwrite
        · rw [refillStore] at hrefill
          dsimp only at hrefill
          split at hrefill
          · cases hrefill
          · rename_i hnone
            have hsome := c₁.rest.tlb.refill_isSome cfg c₁.hart addr p .store
            rw [hnone] at hsome
            cases hsome

variable {misalignedEnabled : Bool}

theorem storeSlowPath_aligned (bytes : List (BitVec 8)) (requireAlignment : Bool)
    (haligned : isAligned addr len = true) :
    (storeSlowPath cfg bus misalignedEnabled addr len bytes true requireAlignment :
      LoadM δ ι Unit) =
      checkStore cfg addr (fromBytes bytes) >>=
      fun _ => storeSlowPathIntrapage cfg bus addr len bytes true := by
  rw [storeSlowPath, haligned]
  rfl

/-- The store that is tried is a store within one page. -/
theorem tryStore_aligned (haligned : isAligned addr len = true) :
    (storeSlowPath cfg bus misalignedEnabled addr len [] false true : LoadM δ ι Unit) =
      storeSlowPathIntrapage cfg bus addr len [] false := by
  rw [storeSlowPath, haligned]
  rfl

/-- At an address that is not aligned it throws before it does anything. -/
theorem tryStore_misaligned (cfg : Config) (bus : Bus δ) (misalignedEnabled : Bool)
    (haligned : isAligned addr len = false) (c : Cpu Files ι) (w : World δ) :
    ∃ t, storeSlowPath cfg bus misalignedEnabled addr len [] false true (c, w) =
      .error (.trap t) (c, w) ∧
      StoreFault (storeTrapOf t) := by
  rw [storeSlowPath, haligned]
  cases misalignedEnabled with
  | false => exact ⟨_, rfl, .inl rfl⟩
  | true =>
    exact ⟨_, rfl, storeFault_of_ofClass (.inr rfl) (ofClass_accessFault .store c.hart.v addr)⟩

/-- **The store that is tried** asks for an aligned address, and changes nothing but by a walk. -/
theorem tryStore_ok
    (h : storeSlowPath cfg bus misalignedEnabled addr len [] false true (c, w) = .ok () (c', w')) :
    isAligned addr len = true ∧ c' = c ∧ ∃ p, StoresTo cfg bus addr len c w p w' := by
  cases haligned : isAligned addr len with
  | false =>
    obtain ⟨t, hthrown, -⟩ := tryStore_misaligned cfg bus misalignedEnabled haligned c w
    rw [hthrown] at h
    cases h
  | true =>
    rw [tryStore_aligned haligned] at h
    exact ⟨rfl, storeSlowPathIntrapage_tried h⟩

/-- It throws what a store throws, and has at most translated. -/
theorem tryStore_error
    (h : storeSlowPath cfg bus misalignedEnabled addr len [] false true (c, w) =
      .error e (c', w')) :
    (w' = w ∧ ∀ t, e = .trap t → StoreFault (storeTrapOf t)) ∨
    translateData cfg bus c addr len .store w = .error e w' := by
  cases haligned : isAligned addr len with
  | false =>
    obtain ⟨t, hthrown, hfault⟩ := tryStore_misaligned cfg bus misalignedEnabled haligned c w
    rw [hthrown] at h
    cases h
    refine .inl ⟨rfl, ?_⟩
    rintro _ ⟨⟩
    exact hfault
  | true =>
    rw [tryStore_aligned haligned] at h
    exact .inr (storeSlowPathIntrapage_error (fun h => by cases h) h).2

/-- **A store that returns** has stored at its place. -/
theorem store_ok {val : Reg} (haligned : isAligned addr len = true)
    (hram : c.rest.tlb.hitStoreChecked addr = false →
      ∀ p u, translateData cfg bus c addr len .store w = .ok p u → bus.isMem p = true)
    (h : store cfg bus misalignedEnabled addr len val (c, w) = .ok () s) :
    ∃ p u, StoresTo cfg bus addr len c w p u ∧ s.2.mem = writeBytes u.mem p (toBytes val len) := by
  obtain ⟨_, _, ⟨⟩, hstore⟩ := Exec.bind_eq_ok_iff.1 h
  dsimp only at hstore
  rw [haligned, Bool.true_and] at hstore
  split at hstore
  · rename_i hit
    cases hstore
    exact ⟨_, w, .tlb (c.rest.tlb.hitStoreChecked_of_hitStore hit) rfl, rfl⟩
  · rw [storeSlowPath_aligned _ _ haligned] at hstore
    obtain ⟨_, ⟨c₁, w₁⟩, hcheck, hpage⟩ := Exec.bind_eq_ok_iff.1 hstore
    obtain ⟨hc, rfl⟩ := checkData_ok hcheck
    rw [← hc.translateData_eq, ← hc.rest] at hram
    obtain ⟨p, u, hto, hmem⟩ := storeSlowPathIntrapage_ok hram hpage
    exact ⟨p, u, hto.of_checked hc, hmem⟩

/-- **A store that throws** has at most translated. -/
theorem store_error {val : Reg} (haligned : isAligned addr len = true)
    (hram : c.rest.tlb.hitStoreChecked addr = false →
      ∀ p u, translateData cfg bus c addr len .store w = .ok p u → bus.isMem p = true)
    (h : store cfg bus misalignedEnabled addr len val (c, w) = .error e (c', w')) :
    (w' = w ∧ ∀ t, e ≠ .trap t) ∨
      (c.rest.tlb.hitStoreChecked addr = false ∧
        translateData cfg bus c addr len .store w = .error e w') := by
  obtain hget | ⟨_, _, ⟨⟩, hstore⟩ := Exec.bind_eq_error_iff.1 h
  · cases hget
  dsimp only at hstore
  rw [haligned, Bool.true_and] at hstore
  split at hstore
  · cases hstore
  · rw [storeSlowPath_aligned _ _ haligned] at hstore
    obtain hcheck | ⟨_, ⟨c₁, w₁⟩, hcheck, hpage⟩ := Exec.bind_eq_error_iff.1 hstore
    · exact .inl (checkData_error hcheck)
    · obtain ⟨hc, rfl⟩ := checkData_ok hcheck
      rw [← hc.translateData_eq, ← hc.rest] at hram ⊢
      exact .inr (storeSlowPathIntrapage_error (fun _ => hram) hpage)

/-! ### The operation -/

section Operation

variable (cfg bus) (addr : Reg) (len : Nat) (c : Cpu Files ι) (w : World δ)

/-- The entries that translations of the address for a load or a store read. -/
def dataEntries : List Reg :=
  translateEntries bus (c.hart.regime cfg) (c.hart.privilege cfg) addr .store w ++
    translateEntries bus (c.hart.regime cfg) (c.hart.privilege cfg) addr .load w

/-- The TLB entry leads where the tables do: it has been flushed since they have last been
changed. -/
def TlbFresh : Prop :=
  c.rest.tlb.known addr = true → ∀ type, type ≠ .fetch → ∀ p u,
    translateData cfg bus c addr len type w = .ok p u → p = c.rest.tlb.data (Tlb.index addr) + addr

/-- Loads and stores find the address in RAM. -/
def FindsRam : Prop :=
  ∀ type, type ≠ .fetch → ∀ p u, translateData cfg bus c addr len type w = .ok p u →
    bus.isMem p = true

/-- The place of the address, by the TLB or by the tables. -/
def PlaceOf (p : Reg) : Prop :=
  (c.rest.tlb.known addr = true ∧ p = c.rest.tlb.data (Tlb.index addr) + addr) ∨
    ∃ type, type ≠ .fetch ∧ ∃ u, translateData cfg bus c addr len type w = .ok p u

/-- Nothing but A and D bits of entries of the address have changed. -/
def OnlyAd (w' : World δ) : Prop :=
  AdOnly (dataEntries cfg bus addr c w) (c.hart.regime cfg).pteSize w w'

/-- The operation is done: the value comes from the place of the address, and the new one has been
written there. -/
structure AmoDone (f : Reg → Reg) (old : Reg) (p : Reg) (w' : World δ) : Prop where
  place : PlaceOf cfg bus addr len c w p
  read : ∃ u, OnlyAd cfg bus addr c w u ∧ old = u.read p len
  written : ∃ u, OnlyAd cfg bus addr c w u ∧ w'.mem = writeBytes u.mem p (toBytes (f old) len)

end Operation

section Phases

variable {p p₀ : Reg} {w₁ w₂ u : World δ}

variable (htables : ∀ slot ∈ dataEntries cfg bus addr c w, bus.isMem slot = true)

include htables

theorem onlyAd_translateData {type : AccessType} (htype : type = .load ∨ type = .store) :
    OnlyAd cfg bus addr c w (Exec.final (translateData cfg bus c addr len type w)) := by
  obtain rfl | rfl := htype
  · exact (translate_adOnly fun slot hslot => htables slot (List.mem_append_right _ hslot)).mono
      (List.subset_append_right _ _)
  · exact (translate_adOnly fun slot hslot => htables slot (List.mem_append_left _ hslot)).mono
      (List.subset_append_left _ _)

/-- After a walk for the store all walks find its place. -/
theorem agree_of_store (hstore : translateData cfg bus c addr len .store w = .ok p₀ w₁)
    (hw : OnlyAd cfg bus addr c w w')
    {type : AccessType} (htype : type ≠ .fetch) :
    OnlyAd cfg bus addr c w (Exec.final (translateData cfg bus c addr len type w')) ∧
      ∀ p u, translateData cfg bus c addr len type w' = .ok p u → p = p₀ := by
  obtain ⟨had, hfound⟩ := translate_agree (by decide) htype
    (fun slot hslot => htables slot (List.mem_append_left _ hslot))
      (List.subset_append_left _ _) hstore hw
  exact ⟨hw.trans had, hfound⟩

theorem onlyAd_of_storesTo (h : StoresTo cfg bus addr len c w p w') :
    OnlyAd cfg bus addr c w w' := by
  cases h with
  | tlb => exact .refl _ _ _
  | tables _ walked =>
    have had : OnlyAd cfg bus addr c w (Exec.final (translateData cfg bus c addr len .store w)) :=
      onlyAd_translateData htables (.inr rfl)
    rw [walked] at had
    exact had

/-- A load after the store that is tried changes A and D bits only, also where it throws. -/
theorem onlyAd_of_translateLoad (htry : StoresTo cfg bus addr len c w p₀ w₁) :
    OnlyAd cfg bus addr c w (Exec.final (translateData cfg bus c addr len .load w₁)) := by
  cases htry with
  | tlb => exact onlyAd_translateData htables (.inl rfl)
  | tables miss walked =>
    exact (agree_of_store htables walked (onlyAd_of_storesTo htables (.tables miss walked))
      (by decide)).1

/-- The load finds a place of the address. -/
theorem placeOf_of_load (htry : StoresTo cfg bus addr len c w p₀ w₁)
    (hload : LoadedFrom cfg bus addr len c w₁ p (c', w₂)) :
    PlaceOf cfg bus addr len c w p ∧ OnlyAd cfg bus addr c w w₂ := by
  have had₁ := onlyAd_of_storesTo htables htry
  have had₂ := onlyAd_of_translateLoad htables htry
  cases hload with
  | tlb hit place => exact ⟨.inl ⟨Tlb.known_of_hitChecked _ hit, place⟩, had₁⟩
  | tables _ walked =>
    rw [walked] at had₂
    refine ⟨.inr ?_, had₂⟩
    cases htry with
    | tlb => exact ⟨.load, by decide, w₂, walked⟩
    | tables _ walked₀ =>
      obtain rfl := (agree_of_store htables walked₀ had₁ (by decide)).2 p w₂ walked
      exact ⟨.store, by decide, w₁, walked₀⟩

/-- **One place.** The store goes where the load has been. -/
theorem eq_place_of_store {p' : Reg} (hfresh : TlbFresh cfg bus addr len c w)
    (htry : StoresTo cfg bus addr len c w p₀ w₁)
    (hload : LoadedFrom cfg bus addr len c w₁ p (c', w₂))
    (hstore : StoresTo cfg bus addr len c' w₂ p' u) : p' = p ∧ OnlyAd cfg bus addr c w u := by
  obtain ⟨-, had₂⟩ := placeOf_of_load htables htry hload
  obtain ⟨hsame, hdata⟩ := hload.tlb_cases
  have had₁ := onlyAd_of_storesTo htables htry
  -- both stores find the entry in the TLB, or both walk: the load between them keeps what the TLB
  -- says of stores
  cases htry with
  | tlb hit place =>
    cases hstore with
    | tables miss =>
      rw [hsame, hit] at miss
      cases miss
    | tlb _ place' =>
      refine ⟨?_, had₂⟩
      obtain heq | heq := hdata
      · rw [heq] at place'
        cases hload with
        | tlb _ place'' => rw [place', place'']
        | tables _ walked =>
          rw [place', hfresh (Tlb.known_of_hitStoreChecked _ hit) .load (by decide) p w₂ walked]
      · rw [place', heq]
  | tables miss walked₀ =>
    cases hstore with
    | tlb hit =>
      rw [hsame, miss] at hit
      cases hit
    | tables _ walked' =>
      rw [translateData_eq_of_hart hload.hart] at walked'
      obtain ⟨had, hfound⟩ :=
        agree_of_store htables walked₀ had₂ (by decide : AccessType.store ≠ .fetch)
      rw [walked'] at had
      refine ⟨(hfound p' u walked').trans ?_, had⟩
      cases hload with
      | tlb hit place =>
        rw [place]
        exact hfresh (Tlb.known_of_hitChecked _ hit) .store (by decide) p₀ w₁ walked₀
      | tables _ walked =>
        exact ((agree_of_store htables walked₀ had₁ (by decide)).2 p w₂ walked).symm

/-- A store that throws has changed A and D bits only. -/
theorem onlyAd_of_translateStore {e : Stop} (htry : StoresTo cfg bus addr len c w p₀ w₁)
    (hload : LoadedFrom cfg bus addr len c w₁ p (c', w₂))
    (hmiss : c'.rest.tlb.hitStoreChecked addr = false)
    (h : translateData cfg bus c' addr len .store w₂ = .error e w') :
    OnlyAd cfg bus addr c w w' := by
  obtain ⟨-, had₂⟩ := placeOf_of_load htables htry hload
  cases htry with
  | tlb hit =>
    rw [hload.tlb_cases.1, hit] at hmiss
    cases hmiss
  | tables _ walked₀ =>
    rw [translateData_eq_of_hart hload.hart] at h
    have had := (agree_of_store htables walked₀ had₂ (by decide : AccessType.store ≠ .fetch)).1
    rwa [h] at had

variable (hram : FindsRam cfg bus addr len c w)

include hram

/-- The load finds RAM where the store that was tried has found it. -/
theorem isMem_of_load (htry : StoresTo cfg bus addr len c w p₀ w₁) (p : Reg) (u : World δ)
    (h : translateData cfg bus c addr len .load w₁ = .ok p u) : bus.isMem p = true := by
  have had₁ := onlyAd_of_storesTo htables htry
  cases htry with
  | tlb => exact hram .load (by decide) p u h
  | tables _ walked₀ =>
    rw [(agree_of_store htables walked₀ had₁ (by decide)).2 p u h]
    exact hram .store (by decide) p₀ w₁ walked₀

/-- And so does the store at the end. -/
theorem isMem_of_store (htry : StoresTo cfg bus addr len c w p₀ w₁)
    (hload : LoadedFrom cfg bus addr len c w₁ p (c', w₂))
    (hmiss : c'.rest.tlb.hitStoreChecked addr = false) (p' : Reg)
    (u : World δ) (h : translateData cfg bus c' addr len .store w₂ = .ok p' u) :
    bus.isMem p' = true := by
  obtain ⟨-, had₂⟩ := placeOf_of_load htables htry hload
  cases htry with
  | tlb hit =>
    rw [hload.tlb_cases.1, hit] at hmiss
    cases hmiss
  | tables _ walked₀ =>
    rw [translateData_eq_of_hart hload.hart] at h
    rw [(agree_of_store htables walked₀ had₂ (by decide)).2 p' u h]
    exact hram .store (by decide) p₀ w₁ walked₀

variable {misalignedEnabled : Bool} {f : Reg → Reg} {e : Stop}

/-- **The three accesses**, where all of them return. -/
theorem amoBody_ok {old : Reg} (hfresh : TlbFresh cfg bus addr len c w)
    (h : amoBody cfg bus misalignedEnabled addr len f (c, w) = .ok old (c', w')) :
    ∃ p, AmoDone cfg bus addr len c w f old p w' := by
  obtain ⟨_, ⟨c₁, w₁⟩, htried, hrest⟩ := Exec.bind_eq_ok_iff.1 h
  obtain ⟨haligned, rfl, p₀, htry⟩ := tryStore_ok htried
  obtain ⟨bytes, ⟨c₂, w₂⟩, hloaded, hrest⟩ := Exec.bind_eq_ok_iff.1 hrest
  obtain ⟨p, hload, rfl⟩ := load_ok (isMem_of_load htables hram htry) hloaded
  obtain ⟨_, ⟨c₃, w₃⟩, hstored, hreturn⟩ := Exec.bind_eq_ok_iff.1 hrest
  obtain ⟨p', u, hstore, hmem⟩ := store_ok haligned (isMem_of_store htables hram htry hload) hstored
  cases hreturn
  obtain ⟨hplace, had₂⟩ := placeOf_of_load htables htry hload
  obtain ⟨rfl, had⟩ := eq_place_of_store htables hfresh htry hload hstore
  exact ⟨p', hplace, ⟨w₂, had₂, rfl⟩, u, had, hmem⟩

/-- **The three accesses**, where one of them throws: the last one cannot have stored. -/
theorem amoBody_error
    (h : amoBody cfg bus misalignedEnabled addr len f (c, w) = .error e (c', w')) :
    OnlyAd cfg bus addr c w w' ∧ ∀ t, e = .trap t → StoreFault (storeTrapOf t) := by
  -- the store that is tried
  obtain htried | ⟨_, ⟨c₁, w₁⟩, htried, hrest⟩ := Exec.bind_eq_error_iff.1 h
  · obtain ⟨rfl, htrap⟩ | hthrown := tryStore_error htried
    · exact ⟨.refl _ _ _, htrap⟩
    · have had : OnlyAd cfg bus addr c w (Exec.final (translateData cfg bus c addr len .store w)) :=
        onlyAd_translateData htables (.inr rfl)
      rw [hthrown] at had
      refine ⟨had, ?_⟩
      rintro t rfl
      exact translateData_trap (.inr rfl) hthrown
  obtain ⟨haligned, rfl, p₀, htry⟩ := tryStore_ok htried
  have had₁ := onlyAd_of_storesTo htables htry
  -- the load
  obtain hloaded | ⟨bytes, ⟨c₂, w₂⟩, hloaded, hrest⟩ := Exec.bind_eq_error_iff.1 hrest
  · obtain ⟨hw, htrap⟩ := load_error (isMem_of_load htables hram htry) hloaded
    refine ⟨?_, fun t ht => translateData_trap (.inl rfl) (htrap t ht)⟩
    obtain rfl | rfl := hw
    · exact had₁
    · exact onlyAd_of_translateLoad htables htry
  obtain ⟨p, hload, rfl⟩ := load_ok (isMem_of_load htables hram htry) hloaded
  -- the store
  obtain hstored | ⟨_, _, -, hreturn⟩ := Exec.bind_eq_error_iff.1 hrest
  · obtain ⟨rfl, htrap⟩ | ⟨hmiss, hthrown⟩ :=
      store_error haligned (isMem_of_store htables hram htry hload) hstored
    · exact ⟨(placeOf_of_load htables htry hload).2, fun t ht => absurd ht (htrap t)⟩
    · refine ⟨onlyAd_of_translateStore htables htry hload hmiss hthrown, ?_⟩
      rintro t rfl
      exact translateData_trap (.inr rfl) hthrown
  · cases hreturn

end Phases

/-- What `convert_load_traps_to_store_traps` makes of a result. -/
theorem convert_ok {α : Type} {body : LoadM δ ι α} {a : α} {s s' : Cpu Files ι × World δ}
    (h : convertLoadTrapsToStoreTraps body s = .ok a s') : body s = .ok a s' := by
  rw [convertLoadTrapsToStoreTraps] at h
  split at h
  · cases h
  · exact h

/-- The conversion changes the trap and nothing else. -/
theorem convert_error {α : Type} {body : LoadM δ ι α} {s s' : Cpu Files ι × World δ}
    (h : convertLoadTrapsToStoreTraps body s = .error e s') :
    ∃ e₀, body s = .error e₀ s' ∧ ∀ t, e = .trap t → ∃ t₀, e₀ = .trap t₀ ∧ t = storeTrapOf t₀ := by
  rw [convertLoadTrapsToStoreTraps] at h
  split at h
  · rename_i t₀ _ hthrown
    cases h
    refine ⟨_, hthrown, ?_⟩
    rintro t ⟨⟩
    exact ⟨t₀, rfl, rfl⟩
  · rename_i hno
    refine ⟨e, h, ?_⟩
    rintro t rfl
    exact absurd h (hno t s')

/-- **Atomic operations are atomic.** With the page tables and the address in RAM and a TLB entry
that is not older than the tables, an atomic operation that returns has read the old value from the
place of the address and has written the new one there, and nothing else has changed but A and D
bits of page-table entries of the address. One that does not return has changed nothing but such
bits, and where it has trapped the trap is a store trap. -/
theorem amo_atomic (cfg : Config) (bus : Bus δ) (misalignedEnabled : Bool)
    (addr : Reg) (len : Nat) (f : Reg → Reg)
    (c : Cpu Files ι) (w : World δ) (hfresh : TlbFresh cfg bus addr len c w)
    (hram : FindsRam cfg bus addr len c w)
    (htables : ∀ slot ∈ dataEntries cfg bus addr c w, bus.isMem slot = true) :
    (∀ old c' w', amo cfg bus misalignedEnabled addr len f (c, w) = .ok old (c', w') →
      ∃ p, AmoDone cfg bus addr len c w f old p w') ∧
    ∀ e c' w', amo cfg bus misalignedEnabled addr len f (c, w) = .error e (c', w') →
      OnlyAd cfg bus addr c w w' ∧ ∀ t, e = .trap t → StoreFault t := by
  refine ⟨fun old c' w' h => amoBody_ok htables hram hfresh (convert_ok h), fun e c' w' h => ?_⟩
  obtain ⟨e₀, hbody, hconverted⟩ := convert_error h
  obtain ⟨had, htrap⟩ := amoBody_error htables hram hbody
  refine ⟨had, fun t ht => ?_⟩
  obtain ⟨t₀, ht₀, rfl⟩ := hconverted t ht
  exact htrap t₀ ht₀

/-! ### Operations at work -/

/-- RV64 with hardware updates of A and D bits. -/
def rv64svadu : Config :=
  .ofIsa ((Isa.accepted "rv64ima_svadu" "msu").get (by decide))

/-- A supervisor with Sv39 and the root of its page table at this page, after writes to trigger
registers. -/
def supervisorOf (root : Reg) (triggers : List HartOp) : Cpu Files Unit where
  hart := (Hart.init rv64svadu false).runFrom rv64svadu (triggers ++
    [.csr 0x30a (.write 0x2000000000000000#64) 0x30a01073#64,
      .csr 0x180 (.write (0x8000000000000000#64 ||| root)) 0x18001073#64,
      .csr 0x300 (.write 0x800#64) 0x30001073#64, .mret 0x30200073#64])
  serialized := false
  checkTriggersIcount := false
  matchedTrigger := none
  icache := fun _ => ⟨invalidTag, 0, ()⟩
  ledger := ⟨0#64, none⟩
  rest := ⟨fun _ => 0#64, .flushed⟩

/-- The value that is returned, and a doubleword of the RAM that is left. -/
def returned {δ : Type} (a : Reg) : EStateM.Result Stop (Cpu Files Unit × World δ) Reg →
    Option (Reg × Reg)
  | .ok old s => some (old, s.2.read a 8)
  | .error _ _ => none

/-- What is thrown, and a doubleword of the RAM that is left. -/
def thrown {δ : Type} (a : Reg) : EStateM.Result Stop (Cpu Files Unit × World δ) Reg →
    Option (Stop × Reg)
  | .ok _ _ => none
  | .error e s => some (e, s.2.read a 8)

/-- An operation on the page-table entry of its own page. -/
theorem amo_atomic_selfMapped : ∃ old c' w' p,
    amo rv64svadu ramBus false 0x1008#64 8 id (supervisorOf 0#64 [], selfMapped) =
      .ok old (c', w') ∧
      AmoDone rv64svadu ramBus 0x1008#64 8 (supervisorOf 0#64 []) selfMapped id old p w' := by
  have hreturned : (returned 0#64
      (amo rv64svadu ramBus false 0x1008#64 8 id (supervisorOf 0#64 [], selfMapped))).isSome =
        true := by decide +kernel
  have hunknown : (supervisorOf 0#64 []).rest.tlb.known 0x1008#64 = false := by decide +kernel
  have hfresh : TlbFresh rv64svadu ramBus 0x1008#64 8 (supervisorOf 0#64 []) selfMapped := by
    intro hknown
    rw [hunknown] at hknown
    cases hknown
  cases h : amo rv64svadu ramBus false 0x1008#64 8 id (supervisorOf 0#64 [], selfMapped) with
  | error e s =>
    rw [h] at hreturned
    cases hreturned
  | ok old s =>
    obtain ⟨p, hdone⟩ :=
      (amo_atomic rv64svadu ramBus false 0x1008#64 8 id (supervisorOf 0#64 []) selfMapped hfresh
      (fun _ _ _ _ _ => rfl) fun _ _ => rfl).1 old s.1 s.2 h
    exact ⟨old, s.1, s.2, p, rfl, hdone⟩

/-- Two pages, and a root table at `0x1000` that maps the first gigabyte to one or to the other. -/
def mappedBy (leaf : Reg) : World Unit :=
  World.ofDoublewords [(0x1000#64, leaf), (0x2000#64, 5#64), (0x40002000#64, 7#64)]

/-- The supervisor after a load from one of the pages, when its table has been changed to the other
one and there has been no fence. -/
def remapped : Cpu Files Unit × World Unit :=
  ((Exec.final (load rv64svadu ramBus 0x2000#64 8 (supervisorOf 1#64 [], mappedBy 0xc7#64))).1,
    mappedBy 0x100000c7#64)

/-- RAM but for the page 5, where a device answers with one leaf and with another one in turn. -/
def turningBus : Bus Bool where
  ramPage := fun page => page != 5#64
  load := fun turn _ len => (some (toBytes (if turn then 0x100000c7#64 else 0xc7#64) len), !turn)
  store := fun mem turn _ _ => (false, mem, turn)

/-- The two pages, with the device. -/
def turningWorld : World Bool where
  mem := (mappedBy 0#64).mem
  dev := false
  ptDirty := fun _ => false
  codeDirty := fun _ => false

/-- Without the conditions an operation is not what it should be. On the entry of its own page it
returns the A and D bits that its walk has set, and leaves them there where a trigger stops its
load. With a TLB entry that is older than the tables, and with tables in a device, it adds 1 to the
value of one page and writes the sum to the other. -/
theorem amo_not_atomic :
    selfMapped.read 0x8#64 8 = 0x7#64 ∧
    returned 0x8#64 (amo rv64svadu ramBus false 0x1008#64 8 id (supervisorOf 0#64 [], selfMapped)) =
      some (0xc7#64, 0xc7#64) ∧
    thrown 0x8#64 (amo rv64svadu ramBus false 0x1008#64 8 id
      (supervisorOf 0#64 [.csr 0x7a1 (.write 0x2000000000000011#64) 0x7a101073#64,
        .csr 0x7a2 (.write 0x1008#64) 0x7a201073#64], selfMapped)) =
      some (.matched .load 0x1008#64 .debugException, 0xc7#64) ∧
    remapped.2.read 0x40002000#64 8 = 7#64 ∧
    returned 0x40002000#64 (amo rv64svadu ramBus false 0x2000#64 8 (· + 1#64) remapped) =
      some (5#64, 6#64) ∧
    turningWorld.read 0x2000#64 8 = 5#64 ∧
    returned 0x2000#64
    (amo rv64svadu turningBus false 0x2000#64 8 (· + 1#64) (supervisorOf 5#64 [], turningWorld)) =
      some (7#64, 8#64) := by
  decide +kernel

end HartMmu

end Nnemu

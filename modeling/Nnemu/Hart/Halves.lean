import Nnemu.Hart.Return
import Nnemu.Lib.Bits

/-!
# Registers in two halves

On RV32 a 64-bit register stands behind two CSRs. A write to one of them is put together from the
written half and the other half of `written_value()`, and for every register but the counters and
`mstatus` that is a masked write which leaves the other half alone (`readObj_writeObj`). The
counters give `written_value()` with the coming increment in it.

The half is a parameter (`Half`), so that what is said of a write holds of either one. Registers
that are not masked are `mstatus` and the two counters: the write of `mstatush` also legalizes
`MPP`, which lies in the other half, and a write to the lower half of a counter at its end carries
into the upper one. `HalfInOrder` is what remains, and it is exact (`halfWritten_iff`).
-/

namespace Nnemu

/-- `rv32_low_csr_t` or `rv32_high_csr_t` -/
inductive Half where
  | low
  | high
deriving DecidableEq

namespace Half

/-- The other half. -/
def other : Half → Half
  | low => high
  | high => low

/-- The entry of a half. -/
def obj : Half → CsrObj → CsrObj
  | low, orig => .rv32Low orig
  | high, orig => .rv32High orig

/-- What `read` takes from the whole. -/
def get : Half → Reg → Reg
  | low, x => x &&& 0xffffffff#64
  | high, x => (x >>> 32) &&& 0xffffffff#64

/-- What `unlogged_write` makes of the whole. -/
def put : Half → Reg → Reg → Reg
  | low, x, val => (x >>> 32 <<< 32) ||| (val &&& 0xffffffff#64)
  | high, x, val => (x <<< 32 >>> 32) ||| ((val &&& 0xffffffff#64) <<< 32)

/-- Where a half starts. -/
def shift : Half → Nat
  | low => 0
  | high => 32

theorem getLsbD_halfMask (i : Nat) : (0xffffffff#64).getLsbD i = decide (i < 32) := by
  have heq : 0xffffffff#64 = Bits.lowMask 64 32 := rfl
  rw [heq, Bits.getLsbD_lowMask, Bool.and_eq_right_iff_imp, decide_eq_true_iff, decide_eq_true_iff]
  omega

theorem getLsbD_get (half : Half) (x : Reg) (i : Nat) :
    (half.get x).getLsbD i = (decide (i < 32) && x.getLsbD (half.shift + i)) := by
  cases half with
  | low => rw [get, BitVec.getLsbD_and, getLsbD_halfMask, Bool.and_comm, shift, Nat.zero_add]
  | high =>
    rw [get, BitVec.getLsbD_and, getLsbD_halfMask, Bool.and_comm, shift, BitVec.getLsbD_ushiftRight]

/-- A half is replaced where the whole is. -/
theorem get_replace (half : Half) (m x y : Reg) :
    half.get (Bits.replace m x y) = Bits.replace (half.get m) (half.get x) (half.get y) := by
  apply BitVec.eq_of_getLsbD_eq
  intro i _
  rw [Bits.getLsbD_replace, getLsbD_get, getLsbD_get, getLsbD_get, getLsbD_get,
    Bits.getLsbD_replace]
  cases decide (i < 32) <;> cases m.getLsbD (half.shift + i) <;> rfl

/-- What a put-together word holds, bit by bit. -/
theorem getLsbD_put (half : Half) (x val : Reg) (i : Nat) (hi : i < 32) :
    (half.put x val).getLsbD (half.shift + i) = val.getLsbD i ∧
      (half.put x val).getLsbD (half.other.shift + i) = x.getLsbD (half.other.shift + i) := by
  have h64 : i < 64 := by omega
  have h64' : 32 + i < 64 := by omega
  have hge : ¬ 32 + i < 32 := by omega
  have hge' : ¬ 32 + (32 + i) < 64 := by omega
  cases half with
  | low =>
    simp only [put, shift, other, Nat.zero_add, BitVec.getLsbD_or, BitVec.getLsbD_and,
      getLsbD_halfMask,
      BitVec.getLsbD_shiftLeft, BitVec.getLsbD_ushiftRight, hi, h64, h64',
      hge, decide_true, decide_false]
    simp
  | high =>
    simp only [put, shift, other, Nat.zero_add, BitVec.getLsbD_or, BitVec.getLsbD_and,
      getLsbD_halfMask,
      BitVec.getLsbD_shiftLeft, BitVec.getLsbD_ushiftRight, hi, h64, h64',
      hge, decide_true, decide_false]
    simp [hi, h64', hge']

/-- The written half. -/
theorem get_put (half : Half) (x val : Reg) : half.get (half.put x val) = val &&&
    0xffffffff#64 := by
  apply BitVec.eq_of_getLsbD_eq
  intro i _
  rw [getLsbD_get, BitVec.getLsbD_and, getLsbD_halfMask, Bool.and_comm]
  by_cases hi : i < 32
  · rw [(getLsbD_put half x val i hi).1]
  · rw [decide_eq_false hi, Bool.and_false, Bool.and_false]

/-- The half that is not written. -/
theorem get_other_put (half : Half) (x val : Reg) :
    half.other.get (half.put x val) = half.other.get x := by
  apply BitVec.eq_of_getLsbD_eq
  intro i _
  rw [getLsbD_get, getLsbD_get]
  by_cases hi : i < 32
  · rw [(getLsbD_put half x val i hi).2]
  · rw [decide_eq_false hi, Bool.false_and, Bool.false_and]

/-- A half lies under the mask of a half. -/
theorem and_get (half : Half) (x val : Reg) : val &&& 0xffffffff#64 &&&
    half.get x = val &&& half.get x := by
  apply BitVec.eq_of_getLsbD_eq
  intro i _
  rw [BitVec.getLsbD_and, BitVec.getLsbD_and, BitVec.getLsbD_and, getLsbD_halfMask, getLsbD_get]
  cases decide (i < 32) <;> simp

theorem toNat_and_halfMask (x : Reg) : (x &&& 0xffffffff#64).toNat = x.toNat % 2 ^ 32 := by
  rw [BitVec.toNat_and]
  exact Nat.and_two_pow_sub_one_eq_mod x.toNat 32

theorem toNat_get_high (x : Reg) : (high.get x).toNat = x.toNat / 2 ^ 32 := by
  rw [get, toNat_and_halfMask, BitVec.toNat_ushiftRight, Nat.shiftRight_eq_div_pow]
  exact Nat.mod_eq_of_lt (by have := x.isLt; omega)

/-- **The carry.** The increment leaves the other half alone exactly if that is the upper one and
the lower one has room. -/
theorem get_add_one (half : Half) (x : Reg) :
    half.other.get (x + 1#64) = half.other.get x ↔ half = low ∧ low.get x ≠ 0xffffffff#64 := by
  have hx := x.isLt
  have hsucc : (x + 1#64).toNat = (x.toNat + 1) % 2 ^ 64 := by rw [BitVec.toNat_add]; rfl
  cases half with
  | low =>
    rw [other, ← BitVec.toNat_inj, toNat_get_high, toNat_get_high, hsucc,
      Ne, ← BitVec.toNat_inj, get,
      toNat_and_halfMask]
    simp only [true_and, BitVec.toNat_ofNat]
    omega
  | high =>
    rw [other, ← BitVec.toNat_inj, get, get, toNat_and_halfMask, toNat_and_halfMask, hsucc]
    simp only [reduceCtorEq, false_and, iff_false]
    omega

end Half

namespace CsrObj

/-- The registers that stand behind two halves. -/
def paired : CsrObj → Bool
  | plain c => match c with
    | .mstatus | .minstret | .mcycle | .menvcfg | .henvcfg | .htimedelta | .vstimecmp => true
    | .mstateen _ | .hstateen _ | .mevent _ => true
    | _ => false
  | virtualizedStimecmp => true
  | _ => false

/-- An entry is no half, or a half of one of these. -/
def pairedHalf : CsrObj → Bool
  | rv32Low orig => orig.paired
  | rv32High orig => orig.paired
  | _ => true

end CsrObj

theorem pairedHalf_full (cfg : Config) :
    (csrmap cfg.full).all (fun e => e.2.pairedHalf) = true := by
  obtain ⟨⟨xlen, table, exts, hu, hs⟩, impl, id, big, count, pmp, vlen, vlenb⟩ := cfg
  cases xlen <;> cases count <;>
    exact all_csrmap _ rfl rfl rfl rfl rfl rfl rfl (fun _ => rfl) rfl rfl rfl
      (fun _ => rfl) fun _ => rfl

theorem paired_of_csrFind {cfg : Config} {which : Nat} {half : Half} {orig : CsrObj}
    (hfind : csrFind cfg which = some (half.obj orig)) : orig.paired = true := by
  have h := List.all_eq_true.1 (pairedHalf_full cfg) _ (mem_of_csrFind cfg hfind)
  cases half with
  | low => exact h
  | high => exact h

namespace Hart

variable {cfg : Config} {h h' : Hart}

/-- `mask` of `mevent_csr_t::unlogged_write` -/
def meventMask (cfg : Config) (h : Hart) : Reg :=
  if h.extensionEnabled .sscofpmf then
    0xC000000000000000#64 |||
      (if cfg.isa.table .u then 0x1000000000000000#64 else 0#64) |||
      (if cfg.isa.table .s then 0x2000000000000000#64 else 0#64) |||
      (if h.extensionEnabled .h then 0x0C00000000000000#64 else 0#64)
  else 0#64

/-- The bits that a write takes over. A level that is not supported is not taken over by `MPP`. -/
def writable (cfg : Config) (h : Hart) (val : Reg) : CsrObj → Reg
  | .plain .mstatus => h.mstatusWriteMask cfg &&&
      (if h.legalizePrivilege (getField val mstatusMpp) = getField val mstatusMpp then ~~~0#64
        else ~~~mstatusMpp)
  | .plain .menvcfg => cfg.envcfgMask
  | .plain .henvcfg => cfg.envcfgMask &&&
    (h.reg .menvcfg ||| ~~~(envcfgPbmte ||| envcfgStce ||| envcfgHade))
  | .plain (.mstateen i) => h.hstateenMask cfg i
  | .plain (.hstateen i) => h.hstateenMask cfg i &&& h.reg (.mstateen i)
  | .plain (.mevent _) => h.meventMask cfg
  | _ => ~~~0#64

/-- After a write of `val` to one half, that half reads as written and the other one as before. -/
structure HalfWritten (cfg : Config) (half : Half) (orig : CsrObj) (val : Reg) (h h' : Hart) :
    Prop where
  written : h'.readObj cfg (half.obj orig) &&& half.get (h.writable cfg val orig) =
    val &&& half.get (h.writable cfg val orig)
  other : h'.readObj cfg (half.other.obj orig) = h.readObj cfg (half.other.obj orig)

/-- The writes that leave the other half alone: of a counter, to the lower half with room below the
carry; to `mstatush`, when `MPP` holds a level the hart has. -/
def HalfInOrder (cfg : Config) (h : Hart) (half : Half) : CsrObj → Prop
  | .plain .minstret => half = .low ∧ Half.low.get (h.reg .minstret) ≠ 0xffffffff#64
  | .plain .mcycle => half = .low ∧ Half.low.get (h.reg .mcycle) ≠ 0xffffffff#64
  | .plain .mstatus => half = .high → cfg.isa.table .u = false →
    getField (h.reg .mstatus) mstatusMpp = prvM
  | _ => True

theorem readObj_half (half : Half) (orig : CsrObj) :
    h.readObj cfg (half.obj orig) = half.get (h.readObj cfg orig) := by
  cases half with
  | low => rfl
  | high => rfl

theorem writeObj_half (half : Half) (orig : CsrObj) (val : Reg) :
    h.writeObj cfg val (half.obj orig) =
      h.writeObj cfg (half.put (h.writtenObj cfg orig) val) orig := by
  cases half with
  | low => rfl
  | high => rfl

/-- The registers that are neither counters nor `mstatus`. -/
def masked : CsrObj → Bool
  | .plain c => c != .mstatus && c != .minstret && c != .mcycle
  | _ => true

theorem reg_set_self (h : Hart) (c : Csr) (val : Reg) : (h.set c val).reg c = val := by
  rw [reg_set, if_pos rfl]

/-- A register whose read shows the bits under `a` of what it holds. -/
theorem and_replace_eq (a m r x : Reg) :
    a &&& Bits.replace m r x = Bits.replace (m &&& a) (a &&& r) x := by
  apply BitVec.eq_of_getLsbD_eq
  intro i _
  rw [BitVec.getLsbD_and, Bits.getLsbD_replace, Bits.getLsbD_replace, BitVec.getLsbD_and,
    BitVec.getLsbD_and]
  cases a.getLsbD i <;> cases m.getLsbD i <;> simp

/-- Bits that are masked on the way in as well. -/
theorem replace_and_and (a m r x : Reg) :
    Bits.replace m r (x &&& a) &&& a = Bits.replace (m &&& a) (r &&& a) x := by
  apply BitVec.eq_of_getLsbD_eq
  intro i _
  rw [BitVec.getLsbD_and, Bits.getLsbD_replace, Bits.getLsbD_replace, BitVec.getLsbD_and,
    BitVec.getLsbD_and,
    BitVec.getLsbD_and]
  cases a.getLsbD i <;> cases m.getLsbD i <;> simp

theorem replace_allOnes (r x : Reg) : Bits.replace (~~~0#64) r x = x := by
  rw [Bits.replace, BitVec.not_not, BitVec.and_zero, BitVec.zero_or]
  exact BitVec.and_allOnes

/-- **A paired register is a masked one**, the counters and `mstatus` aside. -/
theorem readObj_writeObj {orig : CsrObj} (hp : orig.paired = true) (hm : masked orig = true)
    (x val : Reg) :
    (h.writeObj cfg x orig).readObj cfg orig = Bits.replace (h.writable cfg val orig)
    (h.readObj cfg orig) x := by
  cases orig with
  | plain c =>
    cases c
    case mstatus => exact absurd hm Bool.noConfusion
    case minstret => exact absurd hm Bool.noConfusion
    case mcycle => exact absurd hm Bool.noConfusion
    case menvcfg => exact reg_set_self h .menvcfg _
    case henvcfg =>
      have hreg : (h.write cfg x .henvcfg).reg .henvcfg = Bits.replace cfg.envcfgMask
        (h.reg .henvcfg) x :=
        reg_set_self h .henvcfg _
      show (h.write cfg x .henvcfg).henvcfgRead = Bits.replace _ h.henvcfgRead x
      rw [henvcfgRead, hreg, and_replace_eq]
      rfl
    case htimedelta => exact (reg_set_self h .htimedelta x).trans (replace_allOnes ..).symm
    case vstimecmp => exact (reg_set_self _ .vstimecmp x).trans (replace_allOnes ..).symm
    case mstateen i => exact reg_set_self h (.mstateen i) _
    case hstateen i =>
      have hreg : (h.write cfg x (.hstateen i)).reg (.hstateen i) =
          Bits.replace (h.hstateenMask cfg i) (h.reg (.hstateen i)) (x &&& h.reg (.mstateen i)) :=
        reg_set_self h (.hstateen i) _
      show (h.write cfg x (.hstateen i)).hstateenRead i = Bits.replace _ (h.hstateenRead i) x
      rw [hstateenRead, hreg]
      exact replace_and_and _ _ _ _
    case mevent i => exact reg_set_self h (.mevent i) _
    all_goals exact absurd hp Bool.noConfusion
  | virtualizedStimecmp =>
    rw [show h.writable cfg val .virtualizedStimecmp = ~~~0#64 from rfl, replace_allOnes, writeObj]
    cases hv : h.v with
    | false =>
      show (if h.v then _ else (h.write cfg x .stimecmp).reg .stimecmp) = x
      rw [hv, if_neg (by decide)]
      exact reg_set_self _ .stimecmp x
    | true =>
      show (if h.v then (h.write cfg x .vstimecmp).reg .vstimecmp else _) = x
      rw [hv, if_pos rfl]
      exact reg_set_self _ .vstimecmp x
  | _ => exact absurd hp Bool.noConfusion

/-- Their written value is what they read. -/
theorem writtenObj_of_masked {orig : CsrObj} (hp : orig.paired = true) (hm : masked orig = true) :
    h.writtenObj cfg orig = h.readObj cfg orig := by
  cases orig with
  | plain c =>
    cases c
    case minstret => exact absurd hm Bool.noConfusion
    case mcycle => exact absurd hm Bool.noConfusion
    all_goals rfl
  | virtualizedStimecmp => rfl
  | _ => exact absurd hp Bool.noConfusion

/-! ### `mstatus` -/

/-- Writing back a field changes nothing. -/
theorem setField_mpp_self (x : Reg) : setField x mstatusMpp (getField x mstatusMpp) = x := by
  apply BitVec.eq_of_getLsbD_eq
  intro i hi
  rw [getLsbD_setField_mpp x _ i hi, getField_eq (k := 11) rfl (by decide)]
  simp only [BitVec.getLsbD_ushiftRight, BitVec.getLsbD_and, getLsbD_mpp]
  split
  · rename_i h
    rw [h]
    simp
  · split
    · rename_i h
      rw [h]
      simp
    · rfl

/-- Bits of `mstatus` that a write does not touch, `MPP` and `SD` aside. -/
theorem getLsbD_mstatusWrite_of_eq {x : Reg} {i : Nat} (hi : i < 64) (h11 : i ≠ 11) (h12 : i ≠ 12)
    (hsd : i ≠ cfg.isa.xlen.bits - 1) (hx : x.getLsbD i = (h.reg .mstatus).getLsbD i) :
    (cfg.adjustSd (h.newMstatus cfg x)).getLsbD i = (h.reg .mstatus).getLsbD i := by
  rw [cfg.getLsbD_adjustSd _ i hi hsd, getLsbD_newMstatus, getLsbD_setField_mpp _ _ _ hi,
    if_neg h11, if_neg h12, hx,
    ite_self]

/-- Bits of `mstatus` that a write takes over. -/
theorem getLsbD_mstatusWrite_of_mask {x : Reg} {i : Nat} (hi : i < 64)
    (hm : (h.mstatusWriteMask cfg).getLsbD i = true)
    (hlegal : i = 11 ∨ i = 12 → h.legalizePrivilege (getField x mstatusMpp) = getField x mstatusMpp)
    (hsd : i ≠ cfg.isa.xlen.bits - 1) :
    (cfg.adjustSd (h.newMstatus cfg x)).getLsbD i = x.getLsbD i := by
  rw [cfg.getLsbD_adjustSd _ i hi hsd, getLsbD_newMstatus, if_pos hm]
  by_cases hmpp : i = 11 ∨ i = 12
  · rw [hlegal hmpp, setField_mpp_self]
  · rw [getLsbD_setField_mpp _ _ _ hi, if_neg fun h => hmpp (.inl h), if_neg fun h => hmpp (.inr h)]

/-- `SD` is no bit that can be written. -/
theorem mstatusWriteMask_sd : (h.mstatusWriteMask cfg).getLsbD 31 = false := by
  simp [mstatusWriteMask_eq, sstatusWriteMask_eq, getElem_ite]

section Mstatus

variable (hx : cfg.isa.xlen = .rv32) (half : Half) (val : Reg)
include hx

theorem sd_rv32 : cfg.isa.xlen.bits - 1 = 31 := by
  rw [hx]
  rfl

/-- The written half of `mstatus` reads as written. -/
theorem mstatus_written :
    half.get (cfg.adjustSd (h.newMstatus cfg (half.put (h.reg .mstatus) val))) &&&
        half.get (h.writable cfg val (.plain .mstatus)) =
      val &&& half.get (h.writable cfg val (.plain .mstatus)) := by
  apply BitVec.eq_of_getLsbD_eq
  intro i _
  rw [BitVec.getLsbD_and, BitVec.getLsbD_and, Half.getLsbD_get, Half.getLsbD_get]
  by_cases hi : i < 32
  · have h64 : half.shift + i < 64 := by cases half <;> simp only [Half.shift] <;> omega
    obtain ⟨hput, -⟩ := half.getLsbD_put (h.reg .mstatus) val i hi
    cases hw : (h.writable cfg val (.plain .mstatus)).getLsbD (half.shift + i) with
    | false => simp
    | true =>
      rw [writable, BitVec.getLsbD_and, Bool.and_eq_true] at hw
      obtain ⟨hmask, hlegal⟩ := hw
      have hsd : half.shift + i ≠ cfg.isa.xlen.bits - 1 := by
        rw [sd_rv32 hx]
        intro h31
        rw [h31, mstatusWriteMask_sd] at hmask
        exact absurd hmask (by decide)
      rw [getLsbD_mstatusWrite_of_mask h64 hmask ?_ hsd, hput]
      · simp [hi]
      · -- a bit of `MPP` is in the mask when the level is supported, and `MPP` is in the lower half
        intro hmpp
        cases half with
        | high =>
          simp only [Half.shift] at hmpp
          omega
        | low =>
          have hmpp' : getField (Half.low.put (h.reg .mstatus) val) mstatusMpp =
            getField val mstatusMpp :=
            getField_mpp_congr (Half.low.getLsbD_put (h.reg .mstatus) val 11 (by decide)).1
              (Half.low.getLsbD_put (h.reg .mstatus) val 12 (by decide)).1
          rw [hmpp']
          by_contra hne
          rw [if_neg hne, BitVec.getLsbD_not, getLsbD_mpp, decide_eq_true hmpp] at hlegal
          exact absurd hlegal (by simp)
  · simp [hi]

/-- The other half of `mstatus` keeps its value exactly if `MPP` does. -/
theorem mstatus_other_iff (wf : WellFormed cfg h) :
    half.other.get (cfg.adjustSd (h.newMstatus cfg (half.put (h.reg .mstatus) val))) =
        half.other.get (h.reg .mstatus) ↔ HalfInOrder cfg h half (.plain .mstatus) := by
  have bit (i : Nat) (hi : i < 32) := (half.getLsbD_put (h.reg .mstatus) val i hi).2
  cases half with
  -- a write of the low half legalizes `MPP` and `SD` there, and the high half holds neither
  | low =>
    refine iff_of_true (BitVec.eq_of_getLsbD_eq fun i _ => ?_) fun hh => absurd hh (by decide)
    rw [Half.getLsbD_get, Half.getLsbD_get]
    by_cases hi : i < 32
    · have hne (k : Nat) (hk : k < 32) : Half.low.other.shift + i ≠ k := by
        simp only [Half.other, Half.shift]
        omega
      have h64 : Half.low.other.shift + i < 64 := by
        simp only [Half.other, Half.shift]
        omega
      have hsd : Half.low.other.shift + i ≠ cfg.isa.xlen.bits - 1 := by
        rw [sd_rv32 hx]
        exact hne 31 (by decide)
      rw [getLsbD_mstatusWrite_of_eq h64 (hne 11 (by decide)) (hne 12 (by decide)) hsd (bit i hi)]
    · simp [hi]
  -- a write of the high half legalizes `MPP` in the half it does not name
  | high =>
    have hmpp : getField (Half.high.put (h.reg .mstatus) val) mstatusMpp = getField
      (h.reg .mstatus) mstatusMpp :=
      getField_mpp_congr (bit 11 (by decide)) (bit 12 (by decide))
    constructor
    · intro heq _ hu
      have hbit (i : Nat) (hi : i < 32) :
          (cfg.adjustSd (h.newMstatus cfg (Half.high.put (h.reg .mstatus) val))).getLsbD i =
            (h.reg .mstatus).getLsbD i := by
        have hget := congrArg (·.getLsbD i) heq
        simpa [Half.getLsbD_get, Half.other, Half.shift, hi] using hget
      have hnew := getField_newMstatus_mpp cfg h (Half.high.put (h.reg .mstatus) val)
      rw [getField_mpp_congr (hbit 11 (by decide)) (hbit 12 (by decide)),
        legalizePrivilege, wf.regs.enabled_u, hu,
        if_pos (by decide)] at hnew
      exact hnew.trans (by decide)
    · intro hok
      have himp : cfg.Implemented (getField (h.reg .mstatus) mstatusMpp) := by
        cases hu : cfg.isa.table .u with
        | false => exact .inl (hok rfl hu)
        | true => exact wf.regs.mpp hu
      have hlegal := legalizePrivilege_implemented wf himp
      have hnew (i : Nat) (hi : i < 32) :
          (h.newMstatus cfg (Half.high.put (h.reg .mstatus) val)).getLsbD i =
            (h.reg .mstatus).getLsbD i := by
        rw [getLsbD_newMstatus, hmpp, hlegal, ← hmpp, setField_mpp_self]
        have hput := bit i hi
        simp only [Half.other, Half.shift, Nat.zero_add] at hput
        rw [hput, ite_self]
      have hlow : Half.low.get (h.newMstatus cfg (Half.high.put (h.reg .mstatus) val)) =
          Half.low.get (h.reg .mstatus) := by
        apply BitVec.eq_of_getLsbD_eq
        intro i _
        rw [Half.getLsbD_get, Half.getLsbD_get]
        by_cases hi : i < 32
        · simp only [Half.shift, Nat.zero_add]
          rw [hnew i hi]
        · simp [hi]
      -- the state fields are in the lower half, and so is `SD`
      have hdirty := Config.someDirty_congr
        (Bits.and_eq_of_subset (show 0x1E600#64 &&& 0xffffffff#64 = _ from rfl) hlow)
      apply BitVec.eq_of_getLsbD_eq
      intro i _
      rw [Half.getLsbD_get, Half.getLsbD_get]
      by_cases hi : i < 32
      · simp only [Half.other, Half.shift, Nat.zero_add]
        by_cases h31 : i = cfg.isa.xlen.bits - 1
        · have hsd := cfg.getLsbD_adjustSd_sd (h.reg .mstatus)
          rw [wf.regs.sd] at hsd
          rw [h31, cfg.getLsbD_adjustSd_sd, hsd, decide_eq_decide.2 hdirty]
        · rw [cfg.getLsbD_adjustSd _ i (by omega) h31, hnew i hi]
      · simp [hi]

end Mstatus

/-! ### The instruction -/

/-- A `csrw` that is not refused writes its entry. -/
theorem csrw_ok {which : Nat} {o : CsrObj} (hfind : csrFind cfg which = some o) {val : Reg}
    (hok : h.csrInsn cfg which (.write val) = .ok h') :
    h' = (h.writeObj cfg (cfg.isa.xlen.zext val) o).setPcAndSerialize
    (sextXlen cfg (h.pc + 4#64)) := by
  rw [csrInsn, getCsr, hfind] at hok
  dsimp only at hok
  cases hv : h.verifyObj cfg (CsrInsn.write val).writes o with
  | error r => simp [hv] at hok
  | ok u =>
    simp only [hv, Except.ok.injEq, csrInsnValue, putCsr, hfind] at hok
    exact hok.symm

/-- The end of the instruction moves the counters only. -/
theorem readObj_retired {orig : CsrObj} (hp : orig.paired = true) (hm : masked orig = true)
    (npc instret : Reg) :
    ((h.setPcAndSerialize npc).bump instret).readObj cfg orig = h.readObj cfg orig := by
  cases orig with
  | plain c =>
    cases c
    case minstret => exact absurd hm Bool.noConfusion
    case mcycle => exact absurd hm Bool.noConfusion
    all_goals rfl
  | virtualizedStimecmp => rfl
  | _ => exact absurd hp Bool.noConfusion

/-- A counter after the instruction: the increment makes up for the correction. -/
theorem counter_retired {c : Csr} (hc : c = .minstret ∨ c = .mcycle) (x npc : Reg) :
    (((h.write cfg x c).setPcAndSerialize npc).bump 1#64).read c = x := by
  have hsub : x - 1#64 + 1#64 = x := by bv_omega
  obtain rfl | rfl := hc
  · exact hsub
  · exact hsub

/-- What a write to a half leaves of a masked register. -/
theorem halfWritten_masked {orig : CsrObj} (hp : orig.paired = true) (hm : masked orig = true)
    (half : Half)
    (val npc : Reg) :
    HalfWritten cfg half orig val h
      (((h.writeObj cfg (half.put (h.writtenObj cfg orig) val) orig).setPcAndSerialize npc).bump
        1#64) := by
  have hread : (h.writeObj cfg (half.put (h.readObj cfg orig) val) orig).readObj cfg orig =
      Bits.replace (h.writable cfg val orig) (h.readObj cfg orig)
        (half.put (h.readObj cfg orig) val) :=
    readObj_writeObj hp hm _ val
  refine ⟨?_, ?_⟩
  · rw [readObj_half, readObj_retired hp hm, writtenObj_of_masked hp hm,
      hread, Half.get_replace, Half.get_put,
      Bits.and_replace_of_subset BitVec.and_self, Half.and_get]
  · rw [readObj_half, readObj_half, readObj_retired hp hm, writtenObj_of_masked hp hm,
      hread, Half.get_replace,
      Half.get_other_put, Bits.replace_self]

/-- What it leaves of a counter. -/
theorem halfWritten_counter {c : Csr} (hc : c = .minstret ∨ c = .mcycle)
    (half : Half) (val npc : Reg) :
    HalfWritten cfg half (.plain c) val h
        (((h.write cfg (half.put (h.reg c + 1#64) val) c).setPcAndSerialize npc).bump 1#64) ↔
      half = .low ∧ Half.low.get (h.reg c) ≠ 0xffffffff#64 := by
  have hread :
    (((h.write cfg (half.put (h.reg c + 1#64) val) c).setPcAndSerialize npc).bump 1#64).read c =
      half.put (h.reg c + 1#64) val := counter_retired hc _ npc
  have hold : h.read c = h.reg c := by
    obtain rfl | rfl := hc
    · rfl
    · rfl
  rw [← Half.get_add_one half]
  constructor
  · intro hw
    have hother := hw.other
    rw [readObj_half, readObj_half, readObj, readObj, hread, hold, Half.get_other_put] at hother
    exact hother
  · intro hother
    refine ⟨?_, ?_⟩
    · rw [readObj_half, readObj, hread, Half.get_put, Half.and_get]
    · rw [readObj_half, readObj_half, readObj, readObj, hread, hold, Half.get_other_put]
      exact hother

/-- What it leaves of `mstatus`. -/
theorem halfWritten_mstatus (hx : cfg.isa.xlen = .rv32) (wf : WellFormed cfg h)
    (half : Half) (val npc : Reg) :
    HalfWritten cfg half (.plain .mstatus) val h
        (((h.write cfg (half.put (h.reg .mstatus) val) .mstatus).setPcAndSerialize npc).bump 1#64) ↔
      HalfInOrder cfg h half (.plain .mstatus) := by
  have hread :
    (((h.write cfg (half.put (h.reg .mstatus) val) .mstatus).setPcAndSerialize npc).bump 1#64).read
    .mstatus =
      cfg.adjustSd (h.newMstatus cfg (half.put (h.reg .mstatus) val)) := by
    show (h.mstatusWrite cfg (half.put (h.reg .mstatus) val)).reg .mstatus = _
    rw [reg_mstatusWrite, Function.update_self]
  have hold : h.read .mstatus = h.reg .mstatus := rfl
  rw [← mstatus_other_iff hx half val wf]
  constructor
  · intro hw
    have hother := hw.other
    rw [readObj_half, readObj_half, readObj, readObj, hread, hold] at hother
    exact hother
  · intro hother
    refine ⟨?_, ?_⟩
    · rw [readObj_half, readObj, hread]
      exact mstatus_written hx half val
    · rw [readObj_half, readObj_half, readObj, readObj, hread, hold]
      exact hother

theorem halfInOrder_of_masked {orig : CsrObj} (hm : masked orig = true) {half : Half} :
    HalfInOrder cfg h half orig := by
  cases orig with
  | plain c =>
    cases c
    case mstatus => exact absurd hm Bool.noConfusion
    case minstret => exact absurd hm Bool.noConfusion
    case mcycle => exact absurd hm Bool.noConfusion
    all_goals trivial
  | _ => trivial

theorem of_not_masked {orig : CsrObj} (hm : masked orig = false) :
    orig = .plain .mstatus ∨ orig = .plain .minstret ∨ orig = .plain .mcycle := by
  cases orig with
  | plain c =>
    cases c
    case mstatus => exact .inl rfl
    case minstret => exact .inr (.inl rfl)
    case mcycle => exact .inr (.inr rfl)
    all_goals exact absurd hm Bool.noConfusion
  | _ => exact absurd hm Bool.noConfusion

/-- **Half writes.** On RV32, once a `csrw` to one half of a register has retired, that half reads
as written and the other half as before, exactly if the write is in order: of a counter, to its
lower half without a carry; to `mstatush`, with a level in `MPP` that the hart has. -/
theorem halfWritten_iff (cfg : Config) (hx : cfg.isa.xlen = .rv32) (h : Hart)
    (hr : Reachable cfg h) (half : Half)
    (which : Nat) (orig : CsrObj) (hfind : csrFind cfg which = some (half.obj orig))
    (val : Reg) (h' : Hart)
    (hok : h.csrInsn cfg which (.write val) = .ok h') :
    HalfWritten cfg half orig val h (h'.bump 1#64) ↔ HalfInOrder cfg h half orig := by
  have hp := paired_of_csrFind hfind
  have hzext : half.put (h.writtenObj cfg orig) (cfg.isa.xlen.zext val) = half.put
      (h.writtenObj cfg orig) val := by
    rw [hx, Xlen.zext]
    cases half with
    | low => rw [Half.put, Half.put, BitVec.and_assoc, BitVec.and_self]
    | high => rw [Half.put, Half.put, BitVec.and_assoc, BitVec.and_self]
  obtain rfl := csrw_ok hfind hok
  rw [writeObj_half, hzext]
  cases hm : masked orig with
  | true => exact iff_of_true (halfWritten_masked hp hm half val _) (halfInOrder_of_masked hm)
  | false =>
    obtain rfl | rfl | rfl := of_not_masked hm
    · exact halfWritten_mstatus hx hr.wellFormed half val _
    · exact halfWritten_counter (.inl rfl) half val _
    · exact halfWritten_counter (.inr rfl) half val _

/-- The lower half of `mcycle` has room. -/
theorem halfWritten_iff_rv32h :
    HalfWritten rv32h .low (.plain .mcycle) 5#64 (init rv32h false)
        ((((init rv32h false).write rv32h 5#64 .mcycle).setPcAndSerialize 0x1004#64).bump 1#64) ↔
      HalfInOrder rv32h (init rv32h false) .low (.plain .mcycle) :=
  halfWritten_iff rv32h rfl (init rv32h false) ⟨false, [], rfl⟩ .low 0xb00
    (.plain .mcycle) rfl 5#64 _ rfl

/-- At the end of its lower half, a write to that half of `minstret` changes the upper one. -/
theorem halfWrite_fails :
    ∃ h h', Reachable rv32h h ∧ h.csrInsn rv32h 0xb02 (.write 5#64) = .ok h' ∧
      (h'.bump 1#64).readObj rv32h (Half.high.obj (.plain .minstret)) ≠
        h.readObj rv32h (Half.high.obj (.plain .minstret)) :=
  ⟨(init rv32h false).runFrom rv32h [.csr 0xb02 (.write 0xffffffff#64) 0#64, .bump 1#64], _,
    ⟨false, _, rfl⟩, rfl, by decide⟩

end Hart

end Nnemu

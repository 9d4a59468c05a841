import Nnemu.Hart.Privilege
import Nnemu.Mmu.Path
import Mathlib.Data.List.Find

/-!
# Interrupts

`take_interrupt` picks an interrupt and throws it, `take_trap` decides anew where it goes. The two
tests of the delegation registers agree (`delivered_of_taken`) wherever the mode is in order, for
every word of pending interrupts. The order in which interrupts are picked is the one the code
names, but for the overflow interrupt, whose number lies above the shift that looks for nonstandard
ones (`picked_iff`).

The first theorem is about runs. Along a run in which every `dret` finds the mode it returns to in
order, an interrupt that is thrown goes to the level `mideleg` and `hideleg` name, that level is
enabled, and the hart is in that level's mode afterwards (`interruptsOk_always`).

The second is about one state. `Served` is the level whose interrupts are looked at, `Highest` what
the order of the code makes the interrupt to take, and `picksHighest_iff` says that this interrupt
is the one taken exactly where the overflow interrupt does not overtake one that comes before it.
Picking is a search through a list of masks, so the proofs turn masks into positions
(`interruptPriority_eq`) and compare places in the list.
-/

namespace Nnemu

/-! ### Counting trailing zeros, bit by bit -/

/-- The bit that is counted to is set. -/
theorem getLsbD_ctz {val : Reg} (h : val ≠ 0#64) : val.getLsbD (ctz val) = true := by
  obtain ⟨q, hq, hodd⟩ := ctz_spec h
  rw [BitVec.getLsbD, hq, Nat.testBit_mul_two_pow]
  simp [Nat.testBit_zero, hodd]

/-- The bits below it are clear. -/
theorem getLsbD_of_lt_ctz {val : Reg} (h : val ≠ 0#64) {i : Nat} (hi : i < ctz val) :
    val.getLsbD i = false := by
  obtain ⟨q, hq, -⟩ := ctz_spec h
  rw [BitVec.getLsbD, hq, Nat.testBit_mul_two_pow]
  simp [Nat.not_le.2 hi]

theorem twoPow_ne_zero {i : Nat} (hi : i < 64) : BitVec.twoPow 64 i ≠ 0#64 := by
  intro h
  have hbit := congrArg (·.getLsbD i) h
  simp [hi] at hbit

/-- The only bit of a power of two. -/
theorem ctz_twoPow {i : Nat} (hi : i < 64) : ctz (BitVec.twoPow 64 i) = i := by
  have hbit := getLsbD_ctz (twoPow_ne_zero hi)
  rw [BitVec.getLsbD_twoPow, Bool.and_eq_true, decide_eq_true_eq, decide_eq_true_eq] at hbit
  exact hbit.2.symm

/-- A number counts to its lowest bit. -/
theorem ctz_eq {val : Reg} {n : Nat} (hbit : val.getLsbD n = true)
    (hlow : ∀ i, i < n → val.getLsbD i = false) : ctz val = n := by
  have hne : val ≠ 0#64 := by
    rintro rfl
    simp at hbit
  obtain hlt | heq | hgt := Nat.lt_trichotomy (ctz val) n
  · exact absurd ((getLsbD_ctz hne).symm.trans (hlow _ hlt)) (by decide)
  · exact heq
  · exact absurd (hbit.symm.trans (getLsbD_of_lt_ctz hne hgt)) (by decide)

theorem ctz_lt {val : Reg} (h : val ≠ 0#64) : ctz val < 64 :=
  BitVec.lt_of_getLsbD (getLsbD_ctz h)

namespace Hart

variable {cfg : Config} {h h' : Hart}

/-! ### The trap of an interrupt -/

/-- The trap of interrupt number `i`. -/
def interruptTrap (cfg : Config) (i : Nat) : Trap :=
  { cause := interruptBit cfg ||| BitVec.ofNat 64 i }

/-- The number lies below the interrupt bit. -/
theorem interruptBit_and_ofNat (cfg : Config) {i : Nat} (hi : i < 64) :
    BitVec.ofNat 64 i &&& interruptBit cfg = 0#64 := by
  have hbit : interruptBit cfg = BitVec.twoPow 64 (cfg.isa.xlen.bits - 1) := by
    rw [interruptBit, BitVec.twoPow]
  have hk : 2 ^ 6 ≤ 2 ^ (cfg.isa.xlen.bits - 1) := by
    refine Nat.pow_le_pow_right (by decide) ?_
    cases cfg.isa.xlen with
    | rv32 => decide
    | rv64 => decide
  rw [hbit, BitVec.and_twoPow, BitVec.getLsbD_ofNat,
    Nat.testBit_lt_two_pow (Nat.lt_of_lt_of_le hi hk)]
  simp

theorem isInterrupt_interruptTrap (i : Nat) : isInterrupt cfg (interruptTrap cfg i) = true := by
  rw [isInterrupt, interruptTrap, hasBits_or]
  have hself : hasBits (interruptBit cfg) (interruptBit cfg) = true := by
    rw [interruptBit]
    cases cfg.isa.xlen with
    | rv32 => decide
    | rv64 => decide
  rw [hself, Bool.true_or]

theorem trapBit_interruptTrap {i : Nat} (hi : i < 64) :
    trapBit cfg (interruptTrap cfg i) = BitVec.ofNat 64 i := by
  rw [trapBit, isInterrupt_interruptTrap, if_pos rfl, interruptTrap]
  have hzero := interruptBit_and_ofNat cfg hi
  apply BitVec.eq_of_getLsbD_eq
  intro j hj
  have hbit := congrArg (·.getLsbD j) hzero
  simp only [BitVec.getLsbD_and, BitVec.getLsbD_zero] at hbit
  rw [BitVec.getLsbD_and, BitVec.getLsbD_or, BitVec.getLsbD_not]
  cases hb : (interruptBit cfg).getLsbD j with
  | false => simp [hj]
  | true =>
    rw [hb, Bool.and_true] at hbit
    rw [hbit]
    simp

/-! ### Picking -/

/-- The numbers of the standard interrupts, by priority. -/
def interruptNumbers : List Nat :=
  [11, 3, 7, 9, 1, 5, 13, 10, 2, 6]

theorem interruptNumbers_lt : ∀ i ∈ interruptNumbers, i < 64 := by
  decide

theorem interruptPriority_eq : interruptPriority = interruptNumbers.map (BitVec.twoPow 64) := rfl

/-- What is shifted down and up again keeps the bits from 12 on. -/
theorem getLsbD_shift_twelve (x : Reg) (i : Nat) :
    (x >>> 12 <<< 12).getLsbD i = (decide (12 ≤ i) && x.getLsbD i) := by
  rw [BitVec.getLsbD_shiftLeft, BitVec.getLsbD_ushiftRight]
  by_cases hi : i < 64
  · by_cases h12 : 12 ≤ i
    · simp [hi, h12, Nat.not_lt.2 h12, Nat.add_sub_cancel' h12]
    · simp [h12, Nat.not_le.1 h12]
  · simp [BitVec.getLsbD_of_ge x i (Nat.not_lt.1 hi), hi]

/-- The interrupt that is picked is enabled. -/
theorem getLsbD_of_picked {enabled picked : Reg} (hp : pickInterrupt enabled = some picked) :
    picked ≠ 0#64 ∧ enabled.getLsbD (ctz picked) = true := by
  rw [pickInterrupt] at hp
  split at hp
  · rename_i hne
    obtain rfl := Option.some.inj hp
    have hpicked : enabled >>> 12 <<< 12 ≠ 0#64 := by
      intro hz
      refine hne (BitVec.eq_of_getLsbD_eq fun i hi => ?_)
      have hbit := getLsbD_shift_twelve enabled (12 + i)
      rw [hz] at hbit
      rw [BitVec.getLsbD_ushiftRight]
      simpa using hbit.symm
    have hbit := getLsbD_ctz hpicked
    rw [getLsbD_shift_twelve, Bool.and_eq_true] at hbit
    exact ⟨hpicked, hbit.2⟩
  · have hmem := List.mem_of_find?_eq_some hp
    have hbits : hasBits enabled picked = true := List.find?_some hp
    rw [interruptPriority_eq, List.mem_map] at hmem
    obtain ⟨i, hi, rfl⟩ := hmem
    have hlt : i < 64 := interruptNumbers_lt i hi
    rw [hasBits_twoPow hlt] at hbits
    rw [ctz_twoPow hlt, BitVec.getLsbD_eq_getElem hlt]
    exact ⟨twoPow_ne_zero hlt, hbits⟩

/-! ### Selection -/

theorem getLsbD_enableMask (b : Bool) {i : Nat} (hi : i < 64) : (enableMask b).getLsbD i = b := by
  cases b with
  | false => simp [enableMask]
  | true =>
    rw [enableMask, if_pos rfl, BitVec.getLsbD_not]
    simp [hi]

/-- An enabled interrupt is pending, and enabled for the level it is delegated to. -/
theorem of_enabledInterrupts {pending : Reg} {i : Nat}
    (he : (h.enabledInterrupts cfg pending).getLsbD i = true) :
    pending.getLsbD i = true ∧
      ((h.midelegRead.getLsbD i = false ∧ h.mEnabled = true) ∨
        (h.midelegRead.getLsbD i = true ∧ h.hidelegRead.getLsbD i = false ∧
          h.hsEnabled cfg = true) ∨
        (h.hidelegRead.getLsbD i = true ∧ h.v = true ∧ h.vsEnabled cfg = true)) := by
  have hi : i < 64 := BitVec.lt_of_getLsbD he
  unfold enabledInterrupts at he
  extract_lets mInts hsInts at he
  split at he
  · split at he
    · rename_i hv
      rw [BitVec.getLsbD_and, BitVec.getLsbD_and, getLsbD_enableMask _ hi, Bool.and_eq_true,
        Bool.and_eq_true] at he
      rw [Bool.and_eq_true] at hv
      exact ⟨he.1.1, .inr (.inr ⟨he.1.2, hv.1, he.2⟩)⟩
    · rw [BitVec.getLsbD_and, BitVec.getLsbD_and, BitVec.getLsbD_and, BitVec.getLsbD_not,
        getLsbD_enableMask _ hi] at he
      simp only [hi, decide_true, Bool.true_and, Bool.and_eq_true, Bool.not_eq_true'] at he
      exact ⟨he.1.1, .inr (.inl ⟨he.1.2.1, he.1.2.2, he.2⟩)⟩
  · rw [BitVec.getLsbD_and, BitVec.getLsbD_and, BitVec.getLsbD_not, getLsbD_enableMask _ hi] at he
    simp only [hi, decide_true, Bool.true_and, Bool.and_eq_true, Bool.not_eq_true'] at he
    exact ⟨he.1.1, .inl ⟨he.1.2, he.2⟩⟩

/-- What `take_interrupt` throws is the trap of an enabled interrupt, outside debug mode. -/
theorem of_takeInterrupt {pending : Reg} {t : Trap} (ht : h.takeInterrupt cfg pending = .throw t) :
    h.debugMode = false ∧ h.nmie cfg = true ∧ ∃ i, i < 64 ∧ t = interruptTrap cfg i ∧
      (h.enabledInterrupts cfg pending).getLsbD i = true := by
  unfold takeInterrupt at ht
  split at ht
  · exact absurd ht (by simp)
  · extract_lets enabled at ht
    split at ht
    · rename_i hc
      rw [Bool.and_eq_true, Bool.and_eq_true, Bool.not_eq_true'] at hc
      cases hp : pickInterrupt enabled with
      | none =>
        rw [hp] at ht
        exact absurd ht (by simp)
      | some picked =>
        rw [hp] at ht
        obtain ⟨hne, hbit⟩ := getLsbD_of_picked hp
        exact ⟨hc.1.1, hc.1.2, ctz picked, ctz_lt hne, (Interrupt.throw.inj ht).symm, hbit⟩
    · exact absurd ht (by simp)

/-! ### Delivery -/

/-- Delegated interrupts have small numbers. -/
theorem lt_of_midelegRead (wf : WellFormed cfg h) {i : Nat} (hd : h.midelegRead.getLsbD i = true) :
    i < 14 := by
  by_contra hge
  have hbit := congrArg (BitVec.getLsbD · i) wf.regs.midelegRead_enableable
  have hi : i < 64 := BitVec.lt_of_getLsbD hd
  have hmask : enableableMask.getLsbD i = false := by
    have hlt : enableableMask.toNat < 2 ^ 14 := by decide
    exact Nat.testBit_lt_two_pow
      (Nat.lt_of_lt_of_le hlt (Nat.pow_le_pow_right (by decide) (Nat.not_lt.1 hge)))
  rw [BitVec.getLsbD_and, BitVec.getLsbD_not, hd, hmask] at hbit
  simp [hi] at hbit

/-- `hideleg` delegates what `mideleg` does. -/
theorem midelegRead_of_hidelegRead {i : Nat} (hd : h.hidelegRead.getLsbD i = true) :
    h.midelegRead.getLsbD i = true := by
  rw [hidelegRead, BitVec.getLsbD_and, Bool.and_eq_true] at hd
  exact hd.2

/-- Below M, an interrupt goes where the delegation registers say. -/
theorem trapDestination_interruptTrap (wf : WellFormed cfg h) {i : Nat} (hi : i < 64) :
    h.trapDestination cfg (interruptTrap cfg i) =
      if h.v && h.prv ≤ prvS && h.hidelegRead.getLsbD i then .vs
      else if h.prv ≤ prvS && h.midelegRead.getLsbD i then .hs
      else .m := by
  have hbits (deleg : Reg) (hd : ∀ j, deleg.getLsbD j = true → h.midelegRead.getLsbD j = true) :
      h.delegated cfg deleg (BitVec.ofNat 64 i) = (decide (h.prv ≤ prvS) && deleg.getLsbD i) := by
    have hlt : (BitVec.ofNat 64 i).toNat = i := by
      rw [BitVec.toNat_ofNat]
      exact Nat.mod_eq_of_lt (Nat.lt_trans hi (by decide))
    rw [delegated, hlt]
    cases hdi : deleg.getLsbD i with
    | false => simp
    | true =>
      have hsmall := lt_of_midelegRead wf (hd i hdi)
      have hx : i < cfg.isa.xlen.bits := by
        cases cfg.isa.xlen with
        | rv32 => exact Nat.lt_trans hsmall (by decide)
        | rv64 => exact hi
      simp [hx]
  rw [trapDestination, trapBit_interruptTrap hi, vsdeleg, hsdeleg, isInterrupt_interruptTrap]
  simp only [if_true]
  by_cases hp : h.prv ≤ prvS
  · cases hv : h.v with
    | true =>
      simp [hp, hbits _ (fun _ hj => midelegRead_of_hidelegRead hj), hbits _ (fun _ hj => hj)]
    | false =>
      simp [hp, hbits _ (fun _ hj => hj), hbits 0#64 (fun _ hj => absurd hj (by simp))]
  · simp [hp, hbits 0#64 (fun _ hj => absurd hj (by simp))]

/-- The level interrupt number `i` belongs to. -/
def interruptLevel (h : Hart) (i : Nat) : Destination :=
  if h.midelegRead.getLsbD i then
    if h.hidelegRead.getLsbD i then .vs else .hs
  else .m

/-- The global enable condition of a level: the hart runs below it, or at it with its enable bit
set. -/
def LevelEnabled (h : Hart) : Destination → Prop
  | .m => h.prv ≠ prvM ∨ (h.reg .mstatus).getLsbD 3 = true
  | .hs => (h.v = true ∧ h.prv ≠ prvM) ∨
      (h.v = false ∧ (h.prv = prvU ∨ (h.prv = prvS ∧ (h.reg .mstatus).getLsbD 1 = true)))
  | .vs => h.v = true ∧ (h.prv = prvU ∨ (h.prv = prvS ∧ (h.reg .vsstatus).getLsbD 1 = true))

/-- The hart runs at a level. -/
def AtLevel (h : Hart) : Destination → Prop
  | .m => h.prv = prvM ∧ h.v = false
  | .hs => h.prv = prvS ∧ h.v = false
  | .vs => h.prv = prvS ∧ h.v = true

/-- **Selection and delivery agree.** Whatever `take_interrupt` throws for a word of pending
interrupts, `take_trap` delivers to the level of its number, and that level was enabled. -/
def InterruptsOk (cfg : Config) (h : Hart) : Prop :=
  ∀ pending t epc, h.takeInterrupt cfg pending = .throw t →
    (h.takeTrap cfg t epc).AtLevel (h.interruptLevel (trapBit cfg t).toNat) ∧
      h.LevelEnabled (h.interruptLevel (trapBit cfg t).toNat)

/-- An implemented level below M. -/
theorem lt_machine (wf : WellFormed cfg h) (hne : h.prv ≠ prvM) : h.prv = prvS ∨ h.prv = prvU := by
  obtain hp | ⟨hp, -⟩ | ⟨hp, -⟩ := wf.prv
  · exact absurd hp hne
  · exact .inl hp
  · exact .inr hp

/-- Delegation needs S. -/
theorem supervisor_of_midelegRead (wf : WellFormed cfg h) {i : Nat}
    (hd : h.midelegRead.getLsbD i = true) :
    cfg.isa.table .s = true := by
  by_contra hs
  have hs : cfg.isa.table .s = false := Bool.eq_false_iff.2 hs
  rw [midelegRead] at hd
  split at hd
  · rename_i hh
    exact absurd (cfg.isa.s_of_h (wf.regs.table_h hh)) (by simp [hs])
  · rw [(wf.regs.deleg hs).1] at hd
    simp at hd

/-- The enable bit of `sstatus`. -/
theorem sie_eq (hs : cfg.isa.table .s = true) :
    h.sie cfg = if h.v then (h.reg .vsstatus).getLsbD 1 else (h.reg .mstatus).getLsbD 1 := by
  rw [sie, sstatusRead]
  cases h.v with
  | true => simp [mstatusSie_eq, hasBits_twoPow]
  | false =>
    simp [sstatusProxyRead, sstatusReadMask, sstatusWriteMask_eq, mstatusSie_eq, hasBits_twoPow, hs]

/-- A level below M is at most S. -/
theorem le_supervisor (wf : WellFormed cfg h) (hne : h.prv ≠ prvM) : h.prv ≤ prvS := by
  obtain hp | hp := lt_machine wf hne
  · rw [hp]
    decide
  · rw [hp]
    decide

/-- Below S is U. -/
theorem user_of_lt (wf : WellFormed cfg h) (hlt : h.prv < prvS) : h.prv = prvU := by
  obtain hp | ⟨hp, -⟩ | ⟨hp, -⟩ := wf.prv
  · rw [hp] at hlt
    exact absurd hlt (by decide)
  · rw [hp] at hlt
    exact absurd hlt (by decide)
  · exact hp

/-- `m_enabled` -/
theorem levelEnabled_m (hen : h.mEnabled = true) : h.LevelEnabled .m := by
  rw [mEnabled, Bool.or_eq_true, Bool.and_eq_true, decide_eq_true_eq, mstatusMie_eq,
    hasBits_twoPow (by decide)] at hen
  obtain hlt | ⟨-, hbit⟩ := hen
  · exact .inl fun hp => absurd (hp ▸ hlt) (by decide)
  · exact .inr hbit

/-- `hs_enabled` -/
theorem levelEnabled_hs (wf : WellFormed cfg h) (ok : MachineOk h) (hs : cfg.isa.table .s = true)
    (hen : h.hsEnabled cfg = true) : h.LevelEnabled .hs := by
  rw [hsEnabled, sie_eq hs] at hen
  cases hv : h.v with
  | true => exact .inl ⟨hv, fun hp => absurd (hv.symm.trans (ok hp)) (by decide)⟩
  | false =>
    simp only [hv, Bool.false_or, Bool.or_eq_true, decide_eq_true_eq, Bool.and_eq_true, beq_iff_eq,
      Bool.false_eq_true, if_false] at hen
    exact .inr ⟨hv, hen.imp (user_of_lt wf) id⟩

/-- `vs_enabled` -/
theorem levelEnabled_vs (wf : WellFormed cfg h) (hs : cfg.isa.table .s = true) (hv : h.v = true)
    (hen : h.vsEnabled cfg = true) : h.LevelEnabled .vs := by
  rw [vsEnabled, sie_eq hs, hv] at hen
  simp only [Bool.or_eq_true, decide_eq_true_eq, Bool.and_eq_true, beq_iff_eq, if_true] at hen
  exact ⟨hv, hen.imp (user_of_lt wf) id⟩

/-- Where HS or VS is enabled the hart runs below M. -/
theorem LevelEnabled.ne_machine {h : Hart} {level : Destination} (hl : level ≠ .m)
    (ok : MachineOk h) (hen : h.LevelEnabled level) : h.prv ≠ prvM := by
  intro hp
  cases level with
  | m => exact hl rfl
  | hs =>
    obtain ⟨-, hne⟩ | ⟨-, hu | ⟨hs, -⟩⟩ := hen
    · exact hne hp
    · exact absurd (hp.symm.trans hu) (by decide)
    · exact absurd (hp.symm.trans hs) (by decide)
  | vs => exact absurd (hen.1.symm.trans (ok hp)) (by decide)

theorem interruptsOk_of_outsideOk (ok : OutsideOk cfg h) : InterruptsOk cfg h := by
  intro pending t epc ht
  obtain ⟨hd, -, i, hi, rfl, he⟩ := of_takeInterrupt ht
  have wf := ok.wellFormed
  have hmachine := ok.machine hd
  have hnum : (trapBit cfg (interruptTrap cfg i)).toNat = i := by
    rw [trapBit_interruptTrap hi, BitVec.toNat_ofNat]
    exact Nat.mod_eq_of_lt (Nat.lt_trans hi (by decide))
  have hentry := takeTrap_entry cfg hd (interruptTrap cfg i) epc
  rw [trapDestination_interruptTrap wf hi] at hentry
  rw [hnum]
  obtain ⟨-, ⟨hm, hen⟩ | ⟨hm, hh, hen⟩ | ⟨hh, hv, hen⟩⟩ := of_enabledInterrupts he
  · -- to M
    have hhid : h.hidelegRead.getLsbD i = false := Bool.eq_false_iff.2 fun hx => by
      rw [midelegRead_of_hidelegRead hx] at hm
      exact absurd hm (by decide)
    simp only [hm, hhid, Bool.and_false, Bool.false_eq_true, if_false] at hentry
    have hlevel : h.interruptLevel i = .m := by simp [interruptLevel, hm]
    rw [hlevel]
    refine ⟨⟨hentry.prv.trans legalizePrivilege_machine, ?_⟩, levelEnabled_m hen⟩
    rw [hentry.v]
    cases hv : h.v with
    | false => rfl
    | true =>
      rw [Bool.true_and, beq_eq_false_iff_ne]
      exact fun hp => absurd (hv.symm.trans (hmachine hp)) (by decide)
  · -- to HS
    have hs := supervisor_of_midelegRead wf hm
    have hlev := levelEnabled_hs wf hmachine hs hen
    have hle : h.prv ≤ prvS := le_supervisor wf (hlev.ne_machine (by decide) hmachine)
    simp only [hm, hh, hle, Bool.and_false, Bool.false_eq_true, if_false,
      decide_true, Bool.and_true,
      if_true] at hentry
    have hlevel : h.interruptLevel i = .hs := by simp [interruptLevel, hm, hh]
    rw [hlevel]
    exact ⟨⟨hentry.prv.trans (legalizePrivilege_supervisor wf hs), hentry.v⟩, hlev⟩
  · -- to VS
    have hm := midelegRead_of_hidelegRead hh
    have hs := supervisor_of_midelegRead wf hm
    have hlev := levelEnabled_vs wf hs hv hen
    have hle : h.prv ≤ prvS := le_supervisor wf (hlev.ne_machine (by decide) hmachine)
    simp only [hv, hh, hle, decide_true, Bool.and_true, if_true] at hentry
    have hlevel : h.interruptLevel i = .vs := by simp [interruptLevel, hm, hh]
    rw [hlevel]
    exact ⟨⟨hentry.prv.trans (legalizePrivilege_supervisor wf hs), hentry.v⟩, hlev⟩

/-- **Interrupts reach the level they were found enabled for.** Along every run in which no `dret`
goes to M with `V = 1`, for every word of pending interrupts: what `take_interrupt` throws is
delivered to the level that `mideleg` and `hideleg` name for it, and interrupts of that level are
enabled in the mode of the hart. -/
theorem interruptsOk_always (cfg : Config) (halt : Bool) (ops : List HartOp)
    (hops : Run.Along (step cfg) DretInOrder (init cfg halt) ops) :
    Run.Always (step cfg) (InterruptsOk cfg) (init cfg halt) ops := by
  have hinit : OutsideOk cfg (init cfg halt) :=
    ⟨wellFormed_init halt, fun _ => (modeOk_init halt).machine⟩
  exact Run.Always.of_step (fun _ op ok hop => OutsideOk.step ok op hop)
    (fun _ => interruptsOk_of_outsideOk) hinit hops

/-- A debugger halts a hart in VS and lets it go on there, where it takes a timer interrupt. -/
theorem interruptsOk_always_rv64h :
    Run.Always (step rv64h) (InterruptsOk rv64h) (init rv64h false)
      [.csr 0x303 (.write 0x40#64) 0#64, .csr 0x603 (.write 0x40#64) 0#64,
        .csr 0x304 (.write 0x40#64) 0#64, .csr 0x645 (.write 0x40#64) 0#64,
        .csr 0x300 (.set 0x8000000800#64) 0#64, .mret 0#64, .enterDebug 3#64, .dret 0#64,
        .csr 0x100 (.set 2#64) 0#64, .interrupt] :=
  interruptsOk_always rv64h false _
    ⟨trivial, trivial, trivial, trivial, trivial, trivial, trivial, fun _ _ => by decide, trivial,
      trivial, trivial⟩

/-- In M with `V = 1`, where debug mode has left the hart, a timer interrupt for HS is taken, but to
M. -/
theorem interruptsOk_fails : ∃ h, Reachable rv64h h ∧ ¬ InterruptsOk rv64h h := by
  refine ⟨_, ⟨false, [.csr 0x303 (.write 0x20#64) 0#64, .csr 0x300 (.set 0x8000000800#64) 0#64,
    .mret 0#64, .enterDebug 3#64, .csr 0x7b0 (.set 3#64) 0#64, .dret 0#64], rfl⟩, fun ok => ?_⟩
  obtain ⟨hat, -⟩ := ok 0x20#64 (interruptTrap rv64h 5) 0#64 (by decide)
  exact absurd hat.1 (by decide)

/-! ### The order of interrupts -/

/-- Interrupt `i` can be taken, and to this level: it is pending, enabled, delegated there, and the
level is enabled. -/
def Deliverable (h : Hart) (level : Destination) (i : Nat) : Prop :=
  (h.reg .mip &&& h.reg .mie).getLsbD i = true ∧ h.interruptLevel i = level ∧ h.LevelEnabled level

/-- Which level is looked at before which. -/
def Destination.order : Destination → Nat
  | .m => 0
  | .hs => 1
  | .vs => 2

/-- The first level with a deliverable interrupt. -/
structure Served (h : Hart) (level : Destination) : Prop where
  some : ∃ i, h.Deliverable level i
  first : ∀ l, l.order < level.order → ∀ i, ¬ h.Deliverable l i

/-- The numbers of interrupts by priority, the one first that is no standard interrupt: no other
number can be enabled. -/
def interruptOrder : List Nat := 12 :: interruptNumbers

/-- The deliverable interrupt of a level with the highest priority. -/
structure Highest (h : Hart) (level : Destination) (i : Nat) : Prop where
  deliverable : h.Deliverable level i
  first : ∀ j, h.Deliverable level j → interruptOrder.idxOf i ≤ interruptOrder.idxOf j

/-- `take_interrupt` throws the trap of the highest-priority interrupt of the level that is
served. -/
def PicksHighest (cfg : Config) (h : Hart) : Prop :=
  ∃ level i, h.Served level ∧ h.Highest level i ∧
    h.takeInterrupt cfg (h.reg .mip &&& h.reg .mie) = .throw (interruptTrap cfg i)

/-- The overflow interrupt is deliverable, 12 is not, and an interrupt that ranks above it is. -/
def Overtaken (h : Hart) : Prop :=
  ∃ level, h.Served level ∧ h.Deliverable level 13 ∧ ¬ h.Deliverable level 12 ∧
    ∃ i ∈ [11, 3, 7, 9, 1, 5], h.Deliverable level i

theorem Served.eq {level level' : Destination} (s : h.Served level) (s' : h.Served level') :
    level = level' := by
  obtain ⟨i, hi⟩ := s.some
  obtain ⟨j, hj⟩ := s'.some
  have hle : ¬ level'.order < level.order := fun hlt => s.first level' hlt j hj
  have hge : ¬ level.order < level'.order := fun hlt => s'.first level hlt i hi
  have heq : level.order = level'.order := Nat.le_antisymm (Nat.not_lt.1 hle) (Nat.not_lt.1 hge)
  cases level <;> cases level' <;> first | rfl | exact absurd heq (by decide)

/-- Where an interrupt is deliverable, a level is served. -/
theorem exists_served {l : Destination} {i : Nat} (hi : h.Deliverable l i) :
    ∃ level, h.Served level := by
  by_cases hm : ∃ j, h.Deliverable .m j
  · exact ⟨.m, hm, fun l hl => absurd hl (Nat.not_lt_zero _)⟩
  · by_cases hhs : ∃ j, h.Deliverable .hs j
    · refine ⟨.hs, hhs, fun l hl j hj => ?_⟩
      cases l with
      | m => exact hm ⟨j, hj⟩
      | hs => exact absurd hl (by decide)
      | vs => exact absurd hl (by decide)
    · cases l with
      | m => exact absurd ⟨i, hi⟩ hm
      | hs => exact absurd ⟨i, hi⟩ hhs
      | vs =>
        refine ⟨.vs, ⟨i, hi⟩, fun l hl j hj => ?_⟩
        cases l with
        | m => exact hm ⟨j, hj⟩
        | hs => exact hhs ⟨j, hj⟩
        | vs => exact absurd hl (by decide)

/-- `m_enabled` is the condition of M. -/
theorem mEnabled_iff (wf : WellFormed cfg h) : h.mEnabled = true ↔ h.LevelEnabled .m := by
  refine ⟨levelEnabled_m, fun hen => ?_⟩
  rw [mEnabled, Bool.or_eq_true, Bool.and_eq_true, decide_eq_true_eq, mstatusMie_eq,
    hasBits_twoPow (by decide), beq_iff_eq]
  by_cases hp : h.prv = prvM
  · exact .inr ⟨hp, hen.resolve_left (fun hne => hne hp)⟩
  · exact .inl (by_contra fun hlt => hp (machine_of_not_lt wf hlt))

theorem hsEnabled_of_levelEnabled (hs : cfg.isa.table .s = true) (hen : h.LevelEnabled .hs) :
    h.hsEnabled cfg = true := by
  rw [hsEnabled, sie_eq hs]
  obtain ⟨hv, -⟩ | ⟨hv, hu | ⟨hp, hbit⟩⟩ := hen
  · simp [hv]
  · simp [hu, prvU, prvS]
  · simp [hv, hp, hbit]

theorem vsEnabled_of_levelEnabled (hs : cfg.isa.table .s = true) (hen : h.LevelEnabled .vs) :
    h.vsEnabled cfg = true := by
  rw [vsEnabled, sie_eq hs]
  obtain ⟨hv, hu | ⟨hp, hbit⟩⟩ := hen
  · simp [hu, prvU, prvS]
  · simp [hv, hp, hbit]

theorem interruptLevel_m {i : Nat} : h.interruptLevel i = .m ↔ h.midelegRead.getLsbD i = false := by
  rw [interruptLevel]
  cases h.midelegRead.getLsbD i <;> cases h.hidelegRead.getLsbD i <;> simp

theorem interruptLevel_hs {i : Nat} :
    h.interruptLevel i = .hs ↔ h.midelegRead.getLsbD i = true ∧
    h.hidelegRead.getLsbD i = false := by
  rw [interruptLevel]
  cases h.midelegRead.getLsbD i <;> cases h.hidelegRead.getLsbD i <;> simp

theorem interruptLevel_vs {i : Nat} : h.interruptLevel i = .vs ↔
    h.hidelegRead.getLsbD i = true := by
  rw [interruptLevel]
  cases hh : h.hidelegRead.getLsbD i with
  | true => simp [midelegRead_of_hidelegRead hh]
  | false => cases h.midelegRead.getLsbD i <;> simp

/-- No bit is set. -/
theorem eq_zero_of_getLsbD {x : Reg} (hx : ∀ i, x.getLsbD i = false) : x = 0#64 :=
  BitVec.eq_of_getLsbD_eq fun i _ => by rw [hx i, BitVec.getLsbD_zero]

theorem ne_zero_of_getLsbD {x : Reg} {i : Nat} (hx : x.getLsbD i = true) : x ≠ 0#64 := by
  rintro rfl
  simp at hx

/-- The enabled interrupts are the deliverable ones of the level that is served. -/
theorem enabledInterrupts_iff (wf : WellFormed cfg h) {level : Destination}
    (s : h.Served level) (i : Nat) :
    (h.enabledInterrupts cfg (h.reg .mip &&& h.reg .mie)).getLsbD i = true ↔
    h.Deliverable level i := by
  generalize hpend : h.reg .mip &&& h.reg .mie = pending
  have hdel (l : Destination) (j : Nat) : h.Deliverable l j ↔
      pending.getLsbD j = true ∧ h.interruptLevel j = l ∧ h.LevelEnabled l := by
    rw [Deliverable, hpend]
  unfold enabledInterrupts
  extract_lets mInts hsInts
  -- what M takes, before any level is fixed
  have hm (j : Nat) : mInts.getLsbD j = true ↔ h.Deliverable .m j := by
    rw [hdel, interruptLevel_m, ← mEnabled_iff wf, BitVec.getLsbD_and,
      BitVec.getLsbD_and, BitVec.getLsbD_not]
    by_cases hj : j < 64
    · rw [getLsbD_enableMask _ hj]
      simp [hj, and_assoc]
    · simp [BitVec.getLsbD_of_ge pending j (Nat.not_lt.1 hj)]
  obtain ⟨k, hk⟩ := s.some
  obtain ⟨hkp, hkl, hen⟩ := hk
  cases level with
  | m =>
    rw [if_neg (ne_zero_of_getLsbD ((hm k).2 ⟨hkp, hkl, hen⟩))]
    exact hm i
  | hs =>
    -- M takes nothing, or it would be served first
    have hmz : mInts = 0#64 := eq_zero_of_getLsbD fun j => Bool.eq_false_iff.2 fun hj =>
      s.first .m (by decide) j ((hm j).1 hj)
    have hs := supervisor_of_midelegRead wf (interruptLevel_hs.1 hkl).1
    have hhs (j : Nat) : hsInts.getLsbD j = true ↔ h.Deliverable .hs j := by
      rw [hdel, interruptLevel_hs, BitVec.getLsbD_and, BitVec.getLsbD_and, BitVec.getLsbD_and,
        BitVec.getLsbD_not]
      by_cases hj : j < 64
      · rw [getLsbD_enableMask _ hj, hsEnabled_of_levelEnabled hs hen]
        simp [hj, hen]
      · simp [BitVec.getLsbD_of_ge pending j (Nat.not_lt.1 hj)]
    have hne : hsInts ≠ 0#64 := ne_zero_of_getLsbD ((hhs k).2 ⟨hkp, hkl, hen⟩)
    rw [if_pos hmz, if_neg (by simp [hne])]
    exact hhs i
  | vs =>
    have hmz : mInts = 0#64 := eq_zero_of_getLsbD fun j => Bool.eq_false_iff.2 fun hj =>
      s.first .m (by decide) j ((hm j).1 hj)
    have hs := supervisor_of_midelegRead wf (midelegRead_of_hidelegRead (interruptLevel_vs.1 hkl))
    -- HS is enabled as well, so that it has nothing to deliver
    have henHs : h.LevelEnabled .hs := by
      refine .inl ⟨hen.1, fun hp => ?_⟩
      obtain hu | ⟨hu, -⟩ := hen.2
      · exact absurd (hp.symm.trans hu) (by decide)
      · exact absurd (hp.symm.trans hu) (by decide)
    have hhsz : hsInts = 0#64 := by
      refine eq_zero_of_getLsbD fun j => Bool.eq_false_iff.2 fun hj => ?_
      refine s.first .hs (by decide) j ((hdel .hs j).2 ?_)
      have hj64 : j < 64 := BitVec.lt_of_getLsbD hj
      rw [BitVec.getLsbD_and, BitVec.getLsbD_and, BitVec.getLsbD_and, BitVec.getLsbD_not] at hj
      simp only [hj64, decide_true, Bool.true_and, Bool.and_eq_true, Bool.not_eq_true'] at hj
      exact ⟨hj.1.1, interruptLevel_hs.2 hj.1.2, henHs⟩
    have hvs (j : Nat) : (pending &&& h.hidelegRead &&& enableMask (h.vsEnabled cfg)).getLsbD j =
      true ↔
        h.Deliverable .vs j := by
      rw [hdel, interruptLevel_vs, BitVec.getLsbD_and, BitVec.getLsbD_and]
      by_cases hj : j < 64
      · rw [getLsbD_enableMask _ hj, vsEnabled_of_levelEnabled hs hen]
        simp [hen]
      · simp [BitVec.getLsbD_of_ge pending j (Nat.not_lt.1 hj)]
    rw [if_pos hmz, if_pos (by simp [hen.1, hhsz])]
    exact hvs i

/-! ### What is picked -/

/-- The interrupts that can be enabled are those of the order. -/
theorem mem_interruptOrder {i : Nat} (hi : enableableMask.getLsbD i = true) :
    i ∈ interruptOrder := by
  have hlt : i < 14 := by
    by_contra hge
    have hmask : enableableMask.toNat < 2 ^ 14 := by decide
    have hclear : enableableMask.getLsbD i = false := Nat.testBit_lt_two_pow
      (Nat.lt_of_lt_of_le hmask (Nat.pow_le_pow_right (by decide) (Nat.not_lt.1 hge)))
    exact absurd (hi.symm.trans hclear) (by decide)
  have hall : ∀ j : Fin 14, enableableMask.getLsbD j = true → j.val ∈ interruptOrder := by
    decide
  exact hall ⟨i, hlt⟩ hi

/-- 12 is picked first, and 13 before the rest. -/
theorem pickInterrupt_high {enabled : Reg} {n : Nat} (hbit : enabled.getLsbD n = true)
    (hn : n = 12 ∨ (n = 13 ∧ enabled.getLsbD 12 = false)) :
    ∃ picked, pickInterrupt enabled = some picked ∧ ctz picked = n := by
  have h12 : 12 ≤ n := by
    obtain rfl | ⟨rfl, -⟩ := hn
    · exact Nat.le_refl 12
    · exact Nat.le_succ 12
  have hne : enabled >>> 12 ≠ 0#64 := by
    refine ne_zero_of_getLsbD (i := n - 12) ?_
    rw [BitVec.getLsbD_ushiftRight, Nat.add_sub_cancel' h12]
    exact hbit
  refine ⟨enabled >>> 12 <<< 12, if_pos hne, ctz_eq ?_ fun i hi => ?_⟩
  · rw [getLsbD_shift_twelve, hbit, decide_eq_true h12]
    rfl
  · rw [getLsbD_shift_twelve]
    obtain rfl | ⟨rfl, hclear⟩ := hn
    · rw [decide_eq_false (Nat.not_le.2 hi), Bool.false_and]
    · by_cases hi12 : i = 12
      · rw [hi12, hclear, Bool.and_false]
      · rw [decide_eq_false (by omega), Bool.false_and]

/-- Below 12 the chain of comparisons decides. -/
theorem pickInterrupt_low {enabled : Reg} (hlow : ∀ i, enabled.getLsbD i = true → i < 12) :
    pickInterrupt enabled =
      (interruptNumbers.find? fun i => enabled.getLsbD i).map (BitVec.twoPow 64) := by
  have hz : enabled >>> 12 = 0#64 := by
    refine eq_zero_of_getLsbD fun i => Bool.eq_false_iff.2 fun hi => ?_
    rw [BitVec.getLsbD_ushiftRight] at hi
    exact absurd (hlow _ hi) (by omega)
  have hmasks : ∀ i ∈ interruptNumbers,
      (hasBits enabled ∘ BitVec.twoPow 64) i = enabled.getLsbD i := by
    intro i hi
    have hlt := interruptNumbers_lt i hi
    rw [Function.comp_apply, hasBits_twoPow hlt, BitVec.getLsbD_eq_getElem hlt]
  rw [pickInterrupt, hz, if_neg (by simp), interruptPriority_eq, List.find?_map,
    List.find?_congr hmasks]

/-- What is picked is thrown. -/
theorem takeInterrupt_of_picked {pending picked : Reg} (hd : h.debugMode = false)
    (hn : h.nmie cfg = true)
    (hp : pickInterrupt (h.enabledInterrupts cfg pending) = some picked) :
    h.takeInterrupt cfg pending = .throw (interruptTrap cfg (ctz picked)) := by
  obtain ⟨-, hbit⟩ := getLsbD_of_picked hp
  have hpending := (of_enabledInterrupts hbit).1
  rw [takeInterrupt, if_neg (ne_zero_of_getLsbD hpending)]
  simp [hd, hn, ne_zero_of_getLsbD hbit, hp, interruptTrap]

/-- What is found first stands before everything else that could be found. -/
theorem idxOf_le_of_find? {l : List Nat} {p : Nat → Bool} {n j : Nat} (hn : l.find? p = some n)
    (hj : p j = true) : l.idxOf n ≤ l.idxOf j := by
  induction l with
  | nil => exact absurd hn (by simp)
  | cons a l ih =>
    rw [List.find?_cons] at hn
    cases ha : p a with
    | true =>
      rw [ha] at hn
      obtain rfl := Option.some.inj hn
      rw [List.idxOf_cons_self]
      exact Nat.zero_le _
    | false =>
      rw [ha] at hn
      have hja : a ≠ j := fun heq => absurd (hj.symm.trans (heq ▸ ha)) (by decide)
      have hna : a ≠ n := fun heq =>
        absurd ((List.find?_some hn).symm.trans (heq ▸ ha)) (by decide)
      rw [List.idxOf_cons_ne _ hja, List.idxOf_cons_ne _ hna]
      exact Nat.succ_le_succ (ih hn)

/-- An interrupt is known by its trap. -/
theorem interruptTrap_inj {i j : Nat} (hi : i < 64) (hj : j < 64)
    (heq : interruptTrap cfg i = interruptTrap cfg j) : i = j := by
  have hbit := congrArg (fun t => (trapBit cfg t).toNat) heq
  simp only [trapBit_interruptTrap hi, trapBit_interruptTrap hj, BitVec.toNat_ofNat] at hbit
  omega

/-- A deliverable interrupt is one of the order. -/
theorem Deliverable.mem (wf : WellFormed cfg h) {level : Destination} {i : Nat}
    (hi : h.Deliverable level i) : i ∈ interruptOrder := by
  have hp := hi.1
  have hlt : i < 64 := BitVec.lt_of_getLsbD hp
  rw [BitVec.getLsbD_and, Bool.and_eq_true] at hp
  refine mem_interruptOrder ?_
  have hbit := congrArg (BitVec.getLsbD · i) wf.regs.mie
  rw [BitVec.getLsbD_and, BitVec.getLsbD_not, hp.2, decide_eq_true hlt, BitVec.getLsbD_zero] at hbit
  simpa using hbit

/-- **The order of interrupts.** In every reachable state outside debug mode, RNMI enabled, with a
deliverable interrupt: `take_interrupt` never aborts, and it throws the trap of the one with the
highest priority unless the overflow interrupt overtakes it. -/
theorem picksHighest_iff (hr : Reachable cfg h) (hd : h.debugMode = false) (hn : h.nmie cfg = true)
    (hex : ∃ level i, h.Deliverable level i) :
    h.takeInterrupt cfg (h.reg .mip &&& h.reg .mie) ≠ .abort ∧
    (PicksHighest cfg h ↔ ¬ h.Overtaken) := by
  have wf := hr.wellFormed
  obtain ⟨l, k, hk⟩ := hex
  obtain ⟨level, s⟩ := exists_served hk
  have hiff := enabledInterrupts_iff wf s
  generalize henabled : h.enabledInterrupts cfg (h.reg .mip &&& h.reg .mie) = enabled at hiff
  have hthrow {picked : Reg} (hp : pickInterrupt enabled = some picked) :
      h.takeInterrupt cfg (h.reg .mip &&& h.reg .mie) = .throw (interruptTrap cfg (ctz picked)) :=
    takeInterrupt_of_picked hd hn (henabled.symm ▸ hp)
  -- 12 and 13 lie above `IRQ_M_EXT`, and are taken before the list is looked at
  cases h12 : enabled.getLsbD 12 with
  | true =>
    obtain ⟨picked, hp, hctz⟩ := pickInterrupt_high h12 (.inl rfl)
    have ht := hthrow hp
    rw [hctz] at ht
    refine ⟨by rw [ht]; simp, fun _ ho => ?_, fun _ => ⟨level, 12, s, ⟨(hiff 12).1 h12, ?_⟩, ht⟩⟩
    · obtain ⟨level', s', -, hnot, -⟩ := ho
      exact hnot (s'.eq s ▸ (hiff 12).1 h12)
    · exact fun j _ => Nat.zero_le _
  | false =>
    have hnot12 : ¬ h.Deliverable level 12 :=
      fun hx => absurd (h12.symm.trans ((hiff 12).2 hx)) (by decide)
    cases h13 : enabled.getLsbD 13 with
    | true =>
      obtain ⟨picked, hp, hctz⟩ := pickInterrupt_high h13 (.inr ⟨rfl, h12⟩)
      have ht := hthrow hp
      rw [hctz] at ht
      refine ⟨by rw [ht]; simp, fun hpick ho => ?_,
        fun hno => ⟨level, 13, s, ⟨(hiff 13).1 h13, ?_⟩, ht⟩⟩
      · -- 13 is thrown, though another one ranks above it
        obtain ⟨level', i, s', hhigh, hti⟩ := hpick
        obtain ⟨level'', s'', -, -, i₀, hmem, hi₀⟩ := ho
        have hi : i < 64 := BitVec.lt_of_getLsbD hhigh.deliverable.1
        obtain rfl := interruptTrap_inj hi (by decide) (Interrupt.throw.inj (hti.symm.trans ht))
        have hle := hhigh.first i₀ (s''.eq s' ▸ hi₀)
        have hlt : ∀ j ∈ [11, 3, 7, 9, 1, 5], interruptOrder.idxOf j < interruptOrder.idxOf 13 := by
          decide
        exact absurd hle (Nat.not_le.2 (hlt i₀ hmem))
      · intro j hj
        have hmem := Deliverable.mem wf hj
        have hcases : ∀ j ∈ interruptOrder, j = 12 ∨ j ∈ [11, 3, 7, 9, 1, 5] ∨
            interruptOrder.idxOf 13 ≤ interruptOrder.idxOf j := by
          decide
        obtain rfl | hearly | hle := hcases j hmem
        · exact absurd hj hnot12
        · exact absurd ⟨level, s, (hiff 13).1 h13, hnot12, j, hearly, hj⟩ hno
        · exact hle
    | false =>
      have hlow (i : Nat) (hi : enabled.getLsbD i = true) : i < 12 := by
        have hcases : ∀ j ∈ interruptOrder, j = 12 ∨ j = 13 ∨ j < 12 := by
          decide
        obtain rfl | rfl | hlt := hcases i (Deliverable.mem wf ((hiff i).1 hi))
        · exact absurd (h12.symm.trans hi) (by decide)
        · exact absurd (h13.symm.trans hi) (by decide)
        · exact hlt
      obtain ⟨i₀, hi₀⟩ := s.some
      have hmem₀ : i₀ ∈ interruptNumbers :=
        (List.mem_cons.1 (Deliverable.mem wf hi₀)).resolve_left fun heq => hnot12 (heq ▸ hi₀)
      cases hfind : interruptNumbers.find? fun i => enabled.getLsbD i with
      | none => exact absurd ((hiff i₀).2 hi₀) (List.find?_eq_none.1 hfind i₀ hmem₀)
      | some n =>
        have hbit : enabled.getLsbD n = true := List.find?_some hfind
        have hlt : n < 64 := BitVec.lt_of_getLsbD hbit
        have hp : pickInterrupt enabled = some (BitVec.twoPow 64 n) := by
          rw [pickInterrupt_low hlow, hfind]
          rfl
        have ht := hthrow hp
        rw [ctz_twoPow hlt] at ht
        have horder : interruptOrder.find? (fun i => enabled.getLsbD i) = some n := by
          rw [interruptOrder, List.find?_cons, h12]
          exact hfind
        refine ⟨by rw [ht]; simp, fun _ ho => ?_, fun _ => ⟨level, n, s, ⟨(hiff n).1 hbit, ?_⟩, ht⟩⟩
        · obtain ⟨level', s', h13', -⟩ := ho
          exact absurd (h13.symm.trans ((hiff 13).2 (s'.eq s ▸ h13'))) (by decide)
        · exact fun j hj => idxOf_le_of_find? horder ((hiff j).2 hj)

/-- A pending timer interrupt of M. -/
theorem picksHighest_rv64h :
    let h := (init rv64h false).runFrom rv64h
      [.csr 0x304 (.write 0x80#64) 0#64, .csr 0x300 (.set 0x8#64) 0#64, .pin .mtip true]
    h.takeInterrupt rv64h (h.reg .mip &&& h.reg .mie) ≠ .abort ∧
      (PicksHighest rv64h h ↔ ¬ h.Overtaken) :=
  picksHighest_iff ⟨false, _, rfl⟩ (by decide) (by decide)
    ⟨.m, 7, by decide, by decide, .inr (by decide)⟩

/-- With the overflow and the timer interrupt of M enabled and pending, the former is thrown. -/
theorem picksHighest_fails :
    ∃ h, Reachable rv64h h ∧ h.Deliverable .m 7 ∧ ¬ PicksHighest rv64h h := by
  have hdel : ((init rv64h false).runFrom rv64h [.csr 0x304 (.write 0x2080#64) 0#64,
      .csr 0x300 (.set 0x8#64) 0#64, .csr 0x344 (.set 0x2000#64) 0#64, .pin .mtip true]).Deliverable
        .m 7 :=
    ⟨by decide, by decide, .inr (by decide)⟩
  refine ⟨_, ⟨false, _, rfl⟩, hdel, fun hpick => ?_⟩
  obtain ⟨level, i, -, hhigh, ht⟩ := hpick
  have hi : i < 64 := BitVec.lt_of_getLsbD hhigh.deliverable.1
  obtain rfl : i = 13 := interruptTrap_inj hi (by decide)
    (Interrupt.throw.inj
      (ht.symm.trans (show _ = Interrupt.throw (interruptTrap rv64h 13) by decide)))
  obtain rfl : .m = level := hhigh.deliverable.2.1
  exact absurd (hhigh.first 7 hdel) (by decide)

end Hart

end Nnemu

import Nnemu.Hart.Hypervisor

/-!
# What supervisors can do to interrupts

`sip`, `sie`, `vsip`, `vsie`, `hip`, `hie` and `hvip` are views of `mip` and `mie`, each through a
mask of its own and the delegation registers. A write to one of them from a supervisor mode is a
masked write of `mip` or `mie` whose mask lies within `mideleg`, with `V = 1` within `hideleg`, and
reaches no timer or external interrupt but those of VS, through `hvip`. What the mask of `mie`
leaves out is never enabled (`Enables`).

The views are entries of the map with an accessor that holds their mask and shift. The proofs go
through the accessor: which bits it lets through, what the delegation registers leave of them, and
that the whole is a masked write (`Hart.writeWithMask`). The run is over CSR writes of a supervisor,
and a step changes a bit of `mip` or `mie` only inside the mask.
-/

namespace Nnemu

/-- `MIP_MSIP | MIP_MTIP | MIP_MEIP` -/
def machineInts : Reg := mipMsip ||| mipMtip ||| mipMeip

/-- The pending bits of timers and external interrupts. -/
def timerExternalInts : Reg :=
  mipStip ||| mipVstip ||| mipMtip ||| mipSeip ||| mipVseip ||| mipMeip ||| mipSgeip

namespace Hart

variable {cfg : Config} {h h' : Hart}

/-! ### Enable bits that exist -/

/-- `mideleg` holds interrupts that can be delegated, and `mie` none that its mask leaves out. -/
structure Enables (cfg : Config) (h : Hart) : Prop where
  mideleg : h.reg .mideleg &&& ~~~h.delegableInts cfg = 0#64
  mie : h.reg .mie &&& ~~~h.mieWriteMask cfg = 0#64

theorem delegableInts_congr (hs : h'.extensionEnabled .s = h.extensionEnabled .s)
    (hf : h'.extensionEnabled .sscofpmf = h.extensionEnabled .sscofpmf) :
    h'.delegableInts cfg = h.delegableInts cfg := by
  rw [delegableInts, delegableInts, hs, hf]

theorem mieWriteMask_congr (hd : h'.delegableInts cfg = h.delegableInts cfg)
    (hh : h'.extensionEnabled .h = h.extensionEnabled .h) :
    h'.mieWriteMask cfg = h.mieWriteMask cfg := by
  rw [mieWriteMask, mieWriteMask, hd, hh]

/-- The mask of `mie`, bit by bit: it has the bits of the hypervisor with H. -/
theorem getLsbD_mieWriteMask (i : Nat) :
    (h.mieWriteMask cfg).getLsbD i = ((h.extensionEnabled .h && mipHsMask.getLsbD i) ||
      ((h.delegableInts cfg).getLsbD i || machineInts.getLsbD i)) := by
  rw [mieWriteMask, machineInts]
  cases h.extensionEnabled .h with
  | false => simp [Bool.or_assoc]
  | true =>
    rw [if_pos rfl, Bool.true_and]
    simp only [BitVec.getLsbD_or]
    ac_rfl

/-- What can be delegated is fixed by the configuration. -/
theorem delegableInts_eq (ok : RegsOk cfg h.reg h.extTable) (ok' : RegsOk cfg h'.reg h'.extTable) :
    h'.delegableInts cfg = h.delegableInts cfg :=
  delegableInts_congr (ok'.enabled_s.trans ok.enabled_s.symm)
    ((ok'.enabled_fixed .sscofpmf rfl rfl).trans (ok.enabled_fixed .sscofpmf rfl rfl).symm)

namespace Enables

/-- A step that reaches neither register nor `misa`. -/
theorem of_regFrame {s : Csr → Bool} (ok : Enables cfg h) (f : RegFrame s h h')
    (hm : s .misa = false)
    (hmie : s .mie = false) (hmideleg : s .mideleg = false) : Enables cfg h' := by
  have hd : h'.delegableInts cfg = h.delegableInts cfg :=
    delegableInts_congr (f.extensionEnabled hm .s) (f.extensionEnabled hm .sscofpmf)
  refine ⟨?_, ?_⟩
  · rw [f.reg .mideleg hmideleg, hd]
    exact ok.mideleg
  · rw [f.reg .mie hmie, mieWriteMask_congr hd (f.extensionEnabled hm .h)]
    exact ok.mie

/-- A masked write within the mask of `mie`. -/
theorem writeMie (ok : Enables cfg h) {mask : Reg} (hm : mask &&& ~~~h.mieWriteMask cfg = 0#64)
    (val : Reg) :
    Enables cfg (h.writeWithMask .mie mask val) := by
  refine ⟨ok.mideleg, ?_⟩
  show Bits.replace mask (h.reg .mie) val &&& ~~~h.mieWriteMask cfg = 0#64
  refine Bits.and_replace_eq_zero ok.mie ?_
  rw [BitVec.and_comm _ mask, hm, BitVec.zero_and]

/-- What is delegated can be enabled. -/
theorem midelegRead (ok : Enables cfg h) : h.midelegRead &&& ~~~h.mieWriteMask cfg = 0#64 := by
  have hstored := Bits.and_not_eq_zero_iff.1 ok.mideleg
  rw [Bits.and_not_eq_zero_iff]
  intro i hi
  rw [getLsbD_mieWriteMask]
  rw [Hart.midelegRead] at hi
  split at hi
  · rename_i hh
    rw [BitVec.getLsbD_or, Bool.or_eq_true] at hi
    obtain hi | hi := hi
    · rw [hstored i hi, Bool.true_or, Bool.or_true]
    · rw [hh, hi, Bool.true_and, Bool.true_or]
  · rw [hstored i hi, Bool.true_or, Bool.or_true]

/-- `mideleg` takes what can be delegated. -/
theorem writeMideleg (ok : Enables cfg h) (val : Reg) : Enables cfg (h.midelegWrite cfg val) := by
  refine ⟨?_, ok.mie⟩
  show val &&& h.delegableInts cfg &&& ~~~h.delegableInts cfg = 0#64
  rw [BitVec.and_assoc, BitVec.and_not_self]
  exact BitVec.and_zero

end Enables

/-- Switching H off clears its enable bits and keeps the others. -/
theorem mie_clearHypervisor (cfg : Config) (h : Hart) :
    (h.clearHypervisor cfg).reg .mie = Bits.replace mipHsMask (h.reg .mie) 0#64 := by
  unfold clearHypervisor
  extract_lets h₁ h₂ newMstatus h₃ h₄ h₅ h₆ h₇
  have f₂ : Frame (fun c => c == .mnstatus) h₁ h₂ := Frame.ite (Frame.set rfl _) (Frame.refl _ _)
  have f₄ : Frame (fun c => c == .mstatus) h₂ h₄ :=
    (Frame.mstatusWrite rfl newMstatus).trans (Frame.mstatushWrite rfl _)
  have hold : h₄.reg .mie = h.reg .mie := (f₄.reg .mie rfl).trans (f₂.reg .mie rfl)
  have f : Frame (fun c => c != .mie) h₅ ((List.finRange 29).foldl
      (fun h i => h.meventWrite cfg i (h.reg (.mevent i) &&& ~~~0x0C00000000000000#64)) h₇) :=
    ((Frame.set rfl _).trans (Frame.set rfl _)).trans
      (Frame.foldl _ (fun h i => Frame.set rfl _) _ _)
  rw [f.reg .mie rfl, ← hold]
  rfl

namespace Enables

theorem misaWrite (wf : RegsOk cfg h.reg h.extTable) (ok : Enables cfg h) (val : Reg) :
    Enables cfg (h.misaWrite cfg val) := by
  have f : Frame Csr.misaFootprint h (h.misaWrite cfg val) := Frame.misaWrite val
  have hd : (h.misaWrite cfg val).delegableInts cfg = h.delegableInts cfg :=
    delegableInts_eq wf (wf.misaWrite val)
  refine ⟨?_, ?_⟩
  · rw [f.reg .mideleg rfl, hd]
    exact ok.mideleg
  obtain ⟨heq, -⟩ | ⟨heq, hkept⟩ | ⟨heq, hon, hnew⟩ := misaWrite_cases cfg h val
  · rw [heq]
    exact ok.mie
  · -- the mask gets the bits of H at most
    have hmie : (h.misaWrite cfg val).reg .mie = h.reg .mie := by
      rw [heq, reg_set, if_neg (by decide)]
      exact (Frame.updateExtensions (s := fun c => c == .misa) rfl _).reg .mie rfl
    have hh : (h.misaWrite cfg val).extensionEnabled .h = (h.newMisa cfg val).getLsbD 7 := by
      rw [heq, extensionEnabled_h, reg_set, if_pos rfl]
    rw [hmie, Bits.and_not_eq_zero_iff]
    intro i hi
    have hi := Bits.and_not_eq_zero_iff.1 ok.mie i hi
    rw [getLsbD_mieWriteMask, Bool.or_eq_true, Bool.and_eq_true] at hi
    rw [getLsbD_mieWriteMask, hh, hd]
    obtain ⟨hon, hi⟩ | hi := hi
    · rw [hkept hon, hi, Bool.true_and, Bool.true_or]
    · rw [hi, Bool.or_true]
  · -- the bits of H go out of the mask and out of `mie`
    have hmie : (h.misaWrite cfg val).reg .mie = Bits.replace mipHsMask (h.reg .mie) 0#64 := by
      rw [heq, reg_set, if_neg (by decide), mie_clearHypervisor]
      exact congrArg (Bits.replace mipHsMask · 0#64)
        ((Frame.updateExtensions (s := fun c => c == .misa) rfl _).reg .mie rfl)
    rw [hmie, Bits.and_not_eq_zero_iff]
    intro i hi
    rw [Bits.getLsbD_replace] at hi
    cases hs : mipHsMask.getLsbD i with
    | true =>
      rw [hs, if_pos rfl, BitVec.getLsbD_zero] at hi
      exact absurd hi (by decide)
    | false =>
      rw [hs, if_neg (by decide)] at hi
      have hi := Bits.and_not_eq_zero_iff.1 ok.mie i hi
      rw [getLsbD_mieWriteMask, hs, Bool.and_false, Bool.false_or] at hi
      rw [getLsbD_mieWriteMask, hd, hi, Bool.or_true]

/-- A write to an object. -/
theorem write (wf : RegsOk cfg h.reg h.extTable) (ok : Enables cfg h) (c : Csr) (val : Reg) :
    Enables cfg (h.write cfg val c) := by
  have f : Frame c.footprint h (h.write cfg val c) := Frame.write val c
  by_cases hmisa : c = .misa
  · subst hmisa
    exact misaWrite wf ok val
  by_cases hmie : c = .mie
  · subst hmie
    exact ok.writeMie (by rw [BitVec.and_not_self]; rfl) val
  by_cases hmideleg : c = .mideleg
  · subst hmideleg
    exact ok.writeMideleg val
  · refine ok.of_regFrame (.of_frame f (footprint_misa hmisa)) (footprint_misa hmisa) ?_ ?_
    · cases c <;> first | rfl | exact absurd rfl hmie | exact absurd rfl hmisa
    · cases c <;> first | rfl | exact absurd rfl hmideleg

/-- CSR instructions enable nothing outside the mask. -/
theorem objWrites (wf : RegsOk cfg h.reg h.extTable) (ok : Enables cfg h) (w : ObjWrites cfg h h') :
    RegsOk cfg h'.reg h'.extTable ∧ Enables cfg h' := by
  induction w with
  | refl => exact ⟨wf, ok⟩
  | write c val hc _ ih => exact ⟨ih.1.write hc val, write ih.1 ih.2 c val⟩
  | mip mask val _ ih => exact ⟨ih.1.set_untracked rfl, ih.2.mideleg, ih.2.mie⟩
  | mie mask val hm w ih =>
    have ok' := ih.2.writeMie (Bits.and_not_trans hm ih.2.midelegRead) val
    exact ⟨RegsOk.objWrites wf (.mie mask val hm w), ok'⟩
  | quiet f _ ih =>
    exact ⟨ih.1.of_frame f fun _ _ => rfl, ih.2.of_regFrame (.of_frame f rfl) rfl rfl rfl⟩

/-- A reset enables and delegates nothing. -/
theorem reset (cfg : Config) (halt : Bool) : Enables cfg (Hart.reset cfg h halt) := by
  obtain ⟨⟨mask, hreg⟩, -⟩ := reset_reg cfg h halt
  refine ⟨?_, ?_⟩
  · rw [hreg .mideleg (by decide)]
    exact BitVec.zero_and
  · rw [hreg .mie (by decide)]
    exact BitVec.zero_and

theorem event (wf : WellFormed cfg h) (ok : Enables cfg h) (op : HartOp) :
    Enables cfg (h.event cfg op) := by
  have quiet {op : HartOp} (hm : op.footprint .misa = false) (hmie : op.footprint .mie = false)
      (hd : op.footprint .mideleg = false) : Enables cfg (h.event cfg op) :=
    ok.of_regFrame (.event op hm) hm hmie hd
  cases op with
  | csr which insn bits =>
    show Enables cfg (h.orRefused cfg bits (h.csrInsn cfg which insn))
    cases hok : h.csrInsn cfg which insn with
    | ok h' =>
      obtain ⟨h₁, w, rfl⟩ := csrInsn_writes hok
      have ok₁ := (ok.objWrites wf.regs w).2
      exact ⟨ok₁.mideleg, ok₁.mie⟩
    | error r => exact ok.of_regFrame (ControlWrites.refused bits r).regFrame rfl rfl rfl
  | reset halt => exact reset cfg halt
  | _ => exact quiet rfl rfl rfl

theorem step (wf : WellFormed cfg h) (ok : Enables cfg h) (op : HartOp) :
    Enables cfg (h.step cfg op) := by
  rw [Hart.step]
  split
  · exact ok
  · exact ok.event wf op

end Enables

/-- **Reachable harts enable what exists.** -/
theorem Reachable.enables (hr : Reachable cfg h) : Enables cfg h := by
  obtain ⟨halt, ops, rfl⟩ := hr
  have hstep (h : Hart) (op : HartOp) (hi : WellFormed cfg h ∧ Enables cfg h) :
      WellFormed cfg (h.step cfg op) ∧ Enables cfg (h.step cfg op) :=
    ⟨hi.1.step op, hi.2.step hi.1 op⟩
  have hinit :=
    Enables.reset (h := unbuilt cfg) { cfg with impl := { cfg.impl with mmu := true } } halt
  exact (Run.run_induct hstep ⟨wellFormed_init halt, hinit.mideleg, hinit.mie⟩ ops).2

end Hart

/-! ### The interrupt registers of the supervisor modes -/

/-- `sip`, `sie`, `vsip`, `vsie`, `hip`, `hie` and `hvip` -/
def supervisorInterruptCsrs : List Nat :=
  [0x144, 0x104, 0x244, 0x204, 0x644, 0x604, 0x645]

/-- `CSR_HVIP` -/
def csrHvip : Nat := 0x645

/-- They are among the views of `mip` and `mie`. -/
theorem csrFind_interrupt (cfg : Config) {which : Nat} (hw : which ∈ supervisorInterruptCsrs) :
    csrFind cfg which = interruptEntries.lookup which := by
  rw [csrFind, csrmap]
  simp only [supervisorInterruptCsrs, List.mem_cons, List.not_mem_nil, or_false] at hw
  simp only [List.append_assoc, supervisorEntries, wideEntries, entriesIf]
  obtain rfl | rfl | rfl | rfl | rfl | rfl | rfl := hw <;>
    cases cfg.isa.xlen <;> cases cfg.isa.table .u <;> rfl

namespace Hart

variable {cfg : Config} {h h' : Hart}

/-- The masks through which a supervisor writes interrupts: delegated ones, with `V = 1` to VS. -/
structure Delegated (h : Hart) (mask : Reg) : Prop where
  mideleg : mask &&& ~~~h.midelegRead = 0#64
  hideleg : h.v = true → mask &&& ~~~h.hidelegRead = 0#64

/-- A write from a supervisor mode to one of these registers. -/
inductive InterruptWrite (h : Hart) (which : Nat) : Hart → Prop
  | none : InterruptWrite h which h
  | mip (mask val : Reg) (hm : Delegated h mask)
      (hvs : mask &&& timerExternalInts &&& ~~~mipVsMask = 0#64)
      (hhvip : which ≠ csrHvip → mask &&& timerExternalInts = 0#64) :
      InterruptWrite h which (h.writeWithMask .mip mask val)
  | mie (mask val : Reg) (hm : Delegated h mask) : InterruptWrite h which
      (h.writeWithMask .mie mask val)

/-- A hypervisor address is refused with `V = 1` in a supervisor mode, and needs H. -/
theorem of_verifyBase (address : Nat) {write : Bool} (ha : address / 0x100 % 4 = 2)
    (hp : h.prv = prvS)
    (hok : h.verifyBase address write = .ok ()) : h.v = false ∧ h.extensionEnabled .h = true := by
  refine ⟨?_, enabled_of_verifyBase address ha hok⟩
  cases hv : h.v with
  | false => rfl
  | true =>
    rw [verifyBase] at hok
    simp only [ha, hp, hv, Bool.true_eq_false, and_false, if_false] at hok
    split at hok
    · cases hok
    · split at hok
      · cases hok
      · cases hok

theorem Delegated.of_mideleg (hv : h.v = false) (m : Reg) : Delegated h (h.midelegRead &&& m) where
  mideleg := Bits.and_and_not (BitVec.and_not_self _) m
  hideleg hv' := absurd (hv.symm.trans hv') (by decide)

theorem Delegated.of_hideleg (m : Reg) : Delegated h (h.hidelegRead &&& m) where
  mideleg := by
    refine Bits.and_and_not ?_ m
    rw [hidelegRead, BitVec.and_comm (h.reg .hideleg)]
    exact Bits.and_and_not (BitVec.and_not_self _) _
  hideleg _ := Bits.and_and_not (BitVec.and_not_self _) m

/-- With H the interrupts of VS are delegated. -/
theorem Delegated.of_vs (hv : h.v = false) (hh : h.extensionEnabled .h = true) :
    Delegated h (~~~0#64 &&& mipVsMask) where
  mideleg := by
    rw [midelegRead, if_pos hh, BitVec.or_comm]
    exact Bits.and_not_trans rfl (Bits.and_not_or_left mipHsMask _)
  hideleg hv' := absurd (hv.symm.trans hv') (by decide)

/-- A mask within one that has no timer or external interrupt. -/
theorem timerExternal_of_mask {m : Reg} (hm : m &&& timerExternalInts = 0#64) (deleg : Reg) :
    deleg &&& m &&& timerExternalInts = 0#64 := by
  rw [BitVec.and_assoc, hm]
  exact BitVec.and_zero

theorem InterruptWrite.of_mip {which : Nat} {deleg m : Reg} (hd : Delegated h (deleg &&& m))
    (hm : m &&& timerExternalInts = 0#64) (val : Reg) :
    InterruptWrite h which (h.writeWithMask .mip (deleg &&& m) val) := by
  have hz := timerExternal_of_mask hm deleg
  exact .mip _ _ hd (by rw [hz]; exact BitVec.zero_and) fun _ => hz

/-- A permitted write from a supervisor mode to one of the registers. -/
theorem interruptWrite_of_writes (hp : h.prv = prvS) {which : Nat}
    (hw : which ∈ supervisorInterruptCsrs)
    {insn : CsrInsn} {o : CsrObj} {val : Reg} (w : h.Writes cfg which insn o val) :
    InterruptWrite h which (h.writeObj cfg val o) := by
  have hfind := (csrFind_interrupt cfg hw).symm.trans w.find
  have hok := w.verified
  simp only [supervisorInterruptCsrs, List.mem_cons, List.not_mem_nil, or_false] at hw
  obtain rfl | rfl | rfl | rfl | rfl | rfl | rfl := hw
  · -- sip
    obtain rfl := Option.some.inj hfind
    rw [writeObj]
    cases hv : h.v with
    | true => exact .of_mip (Delegated.of_hideleg _) rfl _
    | false => exact .of_mip (Delegated.of_mideleg hv _) rfl _
  · -- sie
    obtain rfl := Option.some.inj hfind
    rw [writeObj]
    cases hv : h.v with
    | true => exact .mie _ _ (Delegated.of_hideleg _)
    | false => exact .mie _ _ (Delegated.of_mideleg hv _)
  · -- vsip
    obtain rfl := Option.some.inj hfind
    exact .of_mip (Delegated.of_hideleg _) rfl _
  · -- vsie
    obtain rfl := Option.some.inj hfind
    exact .mie _ _ (Delegated.of_hideleg _)
  · -- hip
    obtain rfl := Option.some.inj hfind
    exact .of_mip (Delegated.of_mideleg (of_verifyBase 0x644 rfl hp hok).1 _) rfl _
  · -- hie
    obtain rfl := Option.some.inj hfind
    exact .mie _ _ (Delegated.of_mideleg (of_verifyBase 0x604 rfl hp hok).1 _)
  · -- hvip
    obtain rfl := Option.some.inj hfind
    obtain ⟨hv, hh⟩ := of_verifyBase 0x645 rfl hp hok
    exact .mip (~~~0#64 &&& mipVsMask) _ (Delegated.of_vs hv hh)
      (by decide) fun hne => absurd rfl hne

/-! ### Runs of supervisors -/

/-- Steps of a supervisor: writes to the interrupt registers, and what may lie between them: other
instructions, traps, returns, interrupts, debug entry. -/
def SupervisorStep (h : Hart) : HartOp → Prop
  | .csr which _ _ => h.prv = prvS ∧ which ∈ supervisorInterruptCsrs
  | .timeSync _ | .pin _ _ | .reset _ => False
  | _ => True

/-- The two registers agree under a mask. -/
structure SameUnder (mask : Reg) (h h' : Hart) : Prop where
  mip : h'.reg .mip &&& mask = h.reg .mip &&& mask
  mie : h'.reg .mie &&& mask = h.reg .mie &&& mask

/-- The event is an instruction on `hvip`. -/
def OnHvip : HartOp → Prop
  | .csr which _ _ => which = csrHvip
  | _ => False

/-- What a step from `h` to `h'` may change, when it is on `hvip` or not. -/
structure Confined (onHvip : Prop) (h h' : Hart) : Prop where
  machine : SameUnder machineInts h h'
  mideleg : SameUnder (~~~h.midelegRead) h h'
  hideleg : h.v = true → SameUnder (~~~h.hidelegRead) h h'
  /-- of the timer and external interrupts those of VS may change -/
  vs : h'.reg .mip &&& (timerExternalInts &&& ~~~mipVsMask) = h.reg .mip &&&
    (timerExternalInts &&& ~~~mipVsMask)
  hvip : ¬ onHvip → h'.reg .mip &&& timerExternalInts = h.reg .mip &&& timerExternalInts

namespace SameUnder

variable {mask : Reg} {h'' : Hart}

theorem refl (mask : Reg) (h : Hart) : SameUnder mask h h := ⟨rfl, rfl⟩

theorem trans (f : SameUnder mask h h') (g : SameUnder mask h' h'') : SameUnder mask h h'' :=
  ⟨g.mip.trans f.mip, g.mie.trans f.mie⟩

theorem of_eq (hmip : h'.reg .mip = h.reg .mip) (hmie : h'.reg .mie = h.reg .mie) :
    SameUnder mask h h' :=
  ⟨by rw [hmip], by rw [hmie]⟩

theorem of_disjoint {m : Reg} (c : Csr) (hc : c = .mip ∨ c = .mie) (hm : m &&& mask = 0#64)
    (val : Reg) :
    SameUnder mask h (h.writeWithMask c m val) := by
  have hm : mask &&& m = 0#64 := (BitVec.and_comm _ _).trans hm
  obtain rfl | rfl := hc
  · exact ⟨Bits.and_replace_of_disjoint hm, rfl⟩
  · exact ⟨rfl, Bits.and_replace_of_disjoint hm⟩

end SameUnder

/-- No machine-level interrupt is delegated. -/
theorem midelegRead_machineInts (ok : RegsOk cfg h.reg h.extTable) :
    h.midelegRead &&& ~~~(~~~machineInts) = 0#64 := by
  rw [midelegRead]
  have hstored :=
    Bits.and_not_trans ok.mideleg (show delegableMask &&& ~~~(~~~machineInts) = 0#64 from rfl)
  split
  · exact Bits.or_and_not hstored rfl
  · exact hstored

/-- A step that reaches neither register. -/
theorem Confined.of_eq {onHvip : Prop} (hmip : h'.reg .mip = h.reg .mip)
    (hmie : h'.reg .mie = h.reg .mie) :
    Confined onHvip h h' where
  machine := .of_eq hmip hmie
  mideleg := .of_eq hmip hmie
  hideleg _ := .of_eq hmip hmie
  vs := by rw [hmip]
  hvip _ := by rw [hmip]

theorem Confined.of_write (ok : RegsOk cfg h.reg h.extTable) {which : Nat}
    (w : InterruptWrite h which h') :
    Confined (which = csrHvip) h h' := by
  have machine {m : Reg} (hm : Delegated h m) : m &&& machineInts = 0#64 := by
    have hz := Bits.and_not_trans hm.mideleg (midelegRead_machineInts ok)
    rwa [BitVec.not_not] at hz
  cases w with
  | none => exact .of_eq rfl rfl
  | mip m val hm hvs hhvip =>
    refine ⟨.of_disjoint .mip (.inl rfl) (machine hm) val,
      .of_disjoint .mip (.inl rfl) hm.mideleg val,
      fun hv => .of_disjoint .mip (.inl rfl) (hm.hideleg hv) val, ?_, fun hne => ?_⟩
    · refine Bits.and_replace_of_disjoint ?_
      rw [BitVec.and_comm, ← BitVec.and_assoc]
      exact hvs
    · exact Bits.and_replace_of_disjoint ((BitVec.and_comm _ _).trans (hhvip hne))
  | mie m val hm =>
    exact ⟨.of_disjoint .mie (.inr rfl) (machine hm) val,
      .of_disjoint .mie (.inr rfl) hm.mideleg val,
      fun hv => .of_disjoint .mie (.inr rfl) (hm.hideleg hv) val, rfl, fun _ => rfl⟩

/-- A write to an interrupt register leaves what `mideleg` depends on. -/
theorem InterruptWrite.midelegRead {which : Nat} (w : InterruptWrite h which h') :
    h'.midelegRead = h.midelegRead := by
  cases w with
  | none => rfl
  | mip m val hm hvs hhvip => rfl
  | mie m val hm => rfl

theorem midelegRead_of_regFrame {s : Csr → Bool} (f : RegFrame s h h') (hm : s .misa = false)
    (hd : s .mideleg = false) : h'.midelegRead = h.midelegRead := by
  rw [Hart.midelegRead, Hart.midelegRead, f.extensionEnabled hm, f.reg .mideleg hd]

/-- **One step of a supervisor is confined**, and does not change what is delegated. -/
theorem confined_step (wf : WellFormed cfg h) {op : HartOp} (hop : SupervisorStep h op) :
    Confined (OnHvip op) h (h.step cfg op) ∧ (h.step cfg op).midelegRead = h.midelegRead := by
  rw [Hart.step]
  split
  · exact ⟨.of_eq rfl rfl, rfl⟩
  have quiet {op : HartOp} (hm : op.footprint .misa = false) (hd : op.footprint .mideleg = false)
      (hmip : op.footprint .mip = false) (hmie : op.footprint .mie = false) :
      Confined (OnHvip op) h (h.event cfg op) ∧ (h.event cfg op).midelegRead = h.midelegRead := by
    have f : RegFrame op.footprint h (h.event cfg op) := .event op hm
    exact ⟨.of_eq (f.reg .mip hmip) (f.reg .mie hmie), midelegRead_of_regFrame f hm hd⟩
  cases op with
  | csr which insn bits =>
    obtain ⟨hp, hw⟩ := hop
    rw [event]
    cases hok : h.csrInsn cfg which insn with
    | ok h' =>
      obtain ⟨h₁, rfl, hwrite⟩ := csrInsn_cases hok
      have w : InterruptWrite h which h₁ := by
        obtain rfl | ⟨o, val, w, rfl⟩ := hwrite
        · exact .none
        · exact interruptWrite_of_writes hp hw w
      have c := Confined.of_write wf.regs w
      exact ⟨⟨⟨c.machine.mip, c.machine.mie⟩, ⟨c.mideleg.mip, c.mideleg.mie⟩,
        fun hv => ⟨(c.hideleg hv).mip, (c.hideleg hv).mie⟩, c.vs, c.hvip⟩, w.midelegRead⟩
    | error r =>
      have w : ControlWrites cfg h (h.refused cfg bits r) := .refused bits r
      have f := w.regFrame
      exact ⟨.of_eq (f.reg .mip rfl) (f.reg .mie rfl), midelegRead_of_regFrame f rfl rfl⟩
  | timeSync mtime => exact absurd hop id
  | pin p level => exact absurd hop id
  | reset halt => exact absurd hop id
  | _ => exact quiet rfl rfl rfl rfl

/-- Along a run, what one step may change adds up. -/
theorem confined_run (wf : WellFormed cfg h) {ops : List HartOp}
    (hops : Run.Along (step cfg) SupervisorStep h ops) :
    Run.Along (step cfg) (fun h op => Confined (OnHvip op) h (h.step cfg op)) h ops ∧
      SameUnder machineInts h (h.runFrom cfg ops) ∧
      SameUnder (~~~h.midelegRead) h (h.runFrom cfg ops) := by
  induction ops generalizing h with
  | nil => exact ⟨trivial, .refl _ _, .refl _ _⟩
  | cons op ops ih =>
    obtain ⟨c, hd⟩ := confined_step wf hops.1
    obtain ⟨halong, hmachine, hmideleg⟩ := ih (wf.step op) hops.2
    rw [hd] at hmideleg
    exact ⟨⟨c, halong⟩, c.machine.trans hmachine, c.mideleg.trans hmideleg⟩

/-- **Supervisors are confined.** However often `sip`, `sie`, `vsip`, `vsie`, `hip`, `hie` and
`hvip` are written from the supervisor modes, in whatever order and with traps and returns in
between, each write is confined (`Confined`), no machine-level interrupt and none outside `mideleg`
changes over the run, and `mie` has no bit that its mask leaves out. -/
theorem interruptWrites_confined (cfg : Config) (h : Hart) (hr : Reachable cfg h)
    (ops : List HartOp)
    (hops : Run.Along (step cfg) SupervisorStep h ops) :
    Run.Along (step cfg) (fun h op => Confined (OnHvip op) h (h.step cfg op)) h ops ∧
      SameUnder machineInts h (h.runFrom cfg ops) ∧
      SameUnder (~~~h.midelegRead) h (h.runFrom cfg ops) ∧
      Run.Always (step cfg) (fun h => h.reg .mie &&& ~~~h.mieWriteMask cfg = 0#64) h ops := by
  obtain ⟨halong, hmachine, hmideleg⟩ := confined_run hr.wellFormed hops
  refine ⟨halong, hmachine, hmideleg, ?_⟩
  exact Run.Always.of_invariant (I := fun h => WellFormed cfg h ∧ Enables cfg h)
    (fun h op hi => ⟨hi.1.step op, hi.2.step hi.1 op⟩)
      (fun h hi => hi.2.mie) ⟨hr.wellFormed, hr.enables⟩ ops

/-- HS mode: `MPP` is set and `mret` taken. -/
def inHs : Hart :=
  (init rv64h false).runFrom rv64h [.csr 0x300 (.set 0x800#64) 0#64, .mret 0#64]

theorem interruptWrites_confined_rv64h :
    Run.Along (step rv64h) (fun h op => Confined (OnHvip op) h (h.step rv64h op)) inHs
        [.csr 0x645 (.write 0xffff#64) 0#64, .csr 0x104 (.write 0xffff#64) 0#64] ∧
      SameUnder machineInts inHs (inHs.runFrom rv64h
        [.csr 0x645 (.write 0xffff#64) 0#64, .csr 0x104 (.write 0xffff#64) 0#64]) ∧
      SameUnder (~~~inHs.midelegRead) inHs (inHs.runFrom rv64h
        [.csr 0x645 (.write 0xffff#64) 0#64, .csr 0x104 (.write 0xffff#64) 0#64]) ∧
      Run.Always (step rv64h) (fun h => h.reg .mie &&& ~~~h.mieWriteMask rv64h = 0#64) inHs
        [.csr 0x645 (.write 0xffff#64) 0#64, .csr 0x104 (.write 0xffff#64) 0#64] :=
  interruptWrites_confined rv64h inHs ⟨false, _, rfl⟩ _
    ⟨⟨by decide, by decide⟩, ⟨by decide, by decide⟩, trivial⟩

end Hart

end Nnemu

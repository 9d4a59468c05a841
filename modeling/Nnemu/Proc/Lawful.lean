import Nnemu.Loop.Handled
import Nnemu.Proc.Handlers

/-!
# The processor is lawful

The files of the CSR instructions, which begin with `validate_csr` and write before they look at
their destination register. With them every handler of the processor ends as the loop expects, at
every even address.

A CSR instruction is the only one that may write a counter or a trigger and the only one that can
fail after it has done so: on RV32E and RV64E `WRITE_RD` refuses a register above `x15`, behind the
write. `Core.stranded` says so of the instruction word, so that the law can admit a trap there. What
a fetch needs to be lawful is proved in `Proc.Access`.
-/

namespace Nnemu

open Hart Trigger

/-! ### Lengths -/

theorem Insn.even_length (bits : Reg) : Bits.LowZero 1 (Insn.length bits) := by
  rw [Insn.length]
  split_ifs <;> decide

/-- The next instruction is at an even address. -/
theorem Opcode.even_npc {op : Opcode} {cfg : Config} {variant : Variant} {bits pc : Reg}
    (hpc : pc.getLsbD 0 = false) : (op.frame cfg variant bits pc).npc.getLsbD 0 = false := by
  rw [Opcode.frame, getLsbD_sextXlen _ (by decide)]
  exact Frame.even_add hpc (Insn.even_length _)

/-! ### Writes -/

namespace Hart

variable {cfg : Config} {h : Hart} {which : Nat} {old : Reg}

theorem objWrites_putCsr (hget : h.getCsr cfg which true = .ok old) (val : Reg) :
    ObjWrites cfg h (h.putCsr cfg which val) := by
  rw [getCsr] at hget
  rw [putCsr]
  cases hfind : csrFind cfg which with
  | none => exact .refl
  | some o =>
    rw [hfind] at hget
    dsimp only at hget
    cases hverified : h.verifyObj cfg true o with
    | ok u => exact objWrites_of_verified (direct_of_csrFind cfg hfind) hverified _
    | error e =>
      rw [hverified] at hget
      cases hget

theorem pc_putCsr (h : Hart) (which : Nat) (val : Reg) : (h.putCsr cfg which val).pc = h.pc := by
  rw [putCsr]
  split
  · exact (Hart.Frame.writeObj _ h _).pc
  · rfl

/-- Writes that are permitted. -/
theorem Fit.putCsr (f : Fit cfg h) (hget : h.getCsr cfg which true = .ok old) (val : Reg) :
    Fit cfg (h.putCsr cfg which val) := by
  have writes := objWrites_putCsr hget val
  refine ⟨f.wf.objWrites writes, ?_, f.evenPc.targets.objWrites writes⟩
  rw [pc_putCsr]
  exact f.evenPc.even

end Hart

namespace Cpu

variable {σ ι : Type} {cfg : Config} {c c₁ c₂ : Cpu σ ι}

/-- Behind a write, what does not touch the triggers. -/
theorem Writes.works (w : c.Writes cfg c₁) (w' : c₁.Works cfg c₂)
    (htriggers : c₂.hart.triggers = c₁.hart.triggers) : c.Writes cfg c₂ where
  toKept := w.toKept.trans w'.toKept
  serialized := w'.serialized.trans w.serialized
  counters := w.counters.imp (fun s => s.trans w'.toSameCounters) fun heq => by
    rw [w'.checkTriggersIcount, heq, htriggers]

end Cpu

/-! ### Operands -/

/-- What is read of the registers, serialized or not. -/
def Reads {ω ι : Type} (x : InsnM 64 ω ι Reg) : Prop :=
  ∀ c : Cpu (Machine 64 ω) ι,
    (∃ val, ∀ b, x { c with serialized := b } = .ok val { c with serialized := b }) ∨
      ∃ t, ∀ b, x { c with serialized := b } = .error (.trap t) { c with serialized := b }

namespace Reads

variable {ω ι : Type} {x : InsnM 64 ω ι Reg}

theorem pure (val : Reg) : Reads (Pure.pure val : InsnM 64 ω ι Reg) :=
  fun _ => .inl ⟨val, fun _ => rfl⟩

theorem rs1 (f : Frame) : Reads (f.rs1 : InsnM 64 ω ι Reg) := by
  intro c
  cases hcheck : !f.rve || decide (Insn.rs1 f.insn < 16#64) with
  | true =>
    refine .inl ⟨c.rest.xpr.val ((Insn.rs1 f.insn).setWidth 5), fun b => ?_⟩
    rw [Frame.rs1, Frame.readReg, Frame.checkReg, hcheck]
    rfl
  | false =>
    refine .inr ⟨{ cause := causeIllegalInstruction, tval := f.bits }, fun b => ?_⟩
    rw [Frame.rs1, Frame.readReg, Frame.checkReg, hcheck]
    rfl

theorem map (hx : Reads x) (g : Reg → Reg) :
    Reads (x >>= fun a => Pure.pure (g a) : InsnM 64 ω ι Reg) := by
  intro c
  obtain ⟨val, hval⟩ | ⟨t, ht⟩ := hx c
  · exact .inl ⟨g val, fun b => Exec.bind_of_ok (hval b)⟩
  · exact .inr ⟨t, fun b => Exec.bind_of_error (ht b)⟩

end Reads

theorem Opcode.reads_operand {ω ι : Type} {op : Opcode} {f : Frame} {a : CsrOperation ω ι}
    (h : op.csrOperation f = some a) (old : Reg) : Reads (a.operand old) := by
  cases op with
  | csrrw =>
    cases h
    exact .rs1 f
  | csrrs | csrrc =>
    cases h
    exact (Reads.rs1 f).map _
  | csrrwi | csrrsi | csrrci =>
    cases h
    exact .pure _
  | _ => cases h

/-! ### CSR files -/

/-- How the file of a CSR instruction ends that runs serialized. -/
inductive CsrEnds {ω ι : Type} (a : CsrOperation ω ι) (f : Frame) (c : Cpu (Machine 64 ω) ι) :
    EStateM.Result Thrown (Cpu (Machine 64 ω) ι) Reg → Prop where
  /-- before a write -/
  | refused {t : Trap} {c' : Cpu (Machine 64 ω) ι} (s : Cpu.Still { c with serialized := false } c')
      (hput : a.strands f c = none) : CsrEnds a f c (.error (.trap t) c')
  | done {c' : Cpu (Machine 64 ω) ι} (w : c.Writes f.cfg c')
      (hminstret : c'.hart.reg .minstret =
        ((a.put f c).bind (c.hart.minstretPut f.cfg (Insn.csr f.insn).toNat)).elim
          (c.hart.reg .minstret) (· - 1#64)) :
      CsrEnds a f c (.ok pcSerializeAfter c')
  /-- behind a write -/
  | stranded {t : Trap} {c' : Cpu (Machine 64 ω) ι} (w : c.Writes f.cfg c')
      (hstrands : a.strands f c = some c'.hart)
      (hminstret : c'.hart.reg .minstret =
        ((a.put f c).bind (c.hart.minstretPut f.cfg (Insn.csr f.insn).toNat)).elim
          (c.hart.reg .minstret) (· - 1#64)) :
      CsrEnds a f c (.error (.trap t) c')

namespace Frame

variable {ω ι : Type} {f : Frame} {a : CsrOperation ω ι} {c c₁ : Cpu (Machine 64 ω) ι}

/-- What comes behind the access: `WRITE_RD`, and the end of the instruction. -/
theorem csrTail_cases (hnpc : f.npc.getLsbD 0 = false) (value : Reg) (c : Cpu (Machine 64 ω) ι) :
    ((f.rve && !decide (Insn.rd f.insn < 16#64)) = false ∧ ∃ c',
        (f.writeRd value >>= fun _ => setPcAndSerialize f.npc : InsnM 64 ω ι Reg) c =
          .ok pcSerializeAfter c' ∧
        c.Works f.cfg c' ∧ c'.hart.triggers = c.hart.triggers) ∨
      ((f.rve && !decide (Insn.rd f.insn < 16#64)) = true ∧ ∃ t,
        (f.writeRd value >>= fun _ => setPcAndSerialize f.npc : InsnM 64 ω ι Reg) c =
          .error (.trap t) c) := by
  have hcheck : (!f.rve || decide (Insn.rd f.insn < 16#64)) =
      !(f.rve && !decide (Insn.rd f.insn < 16#64)) := by
    rw [Bool.not_and, Bool.not_not]
  cases hrefused : f.rve && !decide (Insn.rd f.insn < 16#64) with
  | false =>
    rw [hrefused, Bool.not_false] at hcheck
    let c₁ := c.withRest
      { c.rest with xpr := c.rest.xpr.write ((Insn.rd f.insn).setWidth 5) value }
    have hrun : (f.writeRd value >>= fun _ => setPcAndSerialize f.npc : InsnM 64 ω ι Reg) c =
        .ok pcSerializeAfter (c₁.withHart fun h => h.setPcAndSerialize f.npc) := by
      rw [writeRd, writeReg, checkReg, hcheck]
      rfl
    have heven : (f.npc &&& c.hart.pcAlignmentMask).getLsbD 0 = false := by
      rw [BitVec.getLsbD_and, hnpc, Bool.false_and]
    refine .inl ⟨rfl, _, hrun, (Cpu.Works.of_still (still_withRest c _)).trans
      (.withHart rfl rfl fun fit => fit.withPc heven), ?_⟩
    rw [Cpu.hart_withHart]
    rfl
  | true =>
    rw [hrefused, Bool.not_true] at hcheck
    refine .inr ⟨rfl, { cause := causeIllegalInstruction, tval := f.bits }, ?_⟩
    rw [writeRd, writeReg, checkReg, hcheck]
    rfl

/-- The tail behind an access that put something, or nothing. -/
theorem csrEnds_tail (hnpc : f.npc.getLsbD 0 = false) (hs : c.serialized = true) (value : Reg)
    (w : c.Writes f.cfg c₁)
    (hminstret : c₁.hart.reg .minstret =
      ((a.put f c).bind (c.hart.minstretPut f.cfg (Insn.csr f.insn).toNat)).elim
        (c.hart.reg .minstret) (· - 1#64))
    (hput : (a.put f c = none ∧ Cpu.Still { c with serialized := false } c₁) ∨
      (a.put f c).map (fun val => c.hart.putCsr f.cfg (Insn.csr f.insn).toNat val) =
        some c₁.hart) :
    CsrEnds a f c ((f.writeRd value >>= fun _ => setPcAndSerialize f.npc) c₁) := by
  obtain ⟨-, c', hrun, w', htriggers⟩ | ⟨hrefused, t, hrun⟩ := csrTail_cases hnpc value c₁
  · rw [hrun]
    exact .done (w.works w' htriggers) (w'.minstret.trans hminstret)
  · rw [hrun]
    have hstrands : a.strands f c =
        (a.put f c).map (fun val => c.hart.putCsr f.cfg (Insn.csr f.insn).toNat val) := by
      rw [CsrOperation.strands, hs, Bool.true_and, if_pos hrefused]
    obtain ⟨hnone, still⟩ | hsome := hput
    · exact .refused still (by rw [hstrands, hnone, Option.map_none])
    · exact .stranded w (hstrands.trans hsome) hminstret

/-- What is refused, or reads only, puts nothing. -/
theorem strands_of_put (h : a.put f c = none) : a.strands f c = none := by
  rw [CsrOperation.strands, h, Option.map_none, ite_self]

/-- The request for serialization is used up. -/
theorem writes_taken (c : Cpu (Machine 64 ω) ι) :
    c.Writes f.cfg { c with serialized := false } where
  ledger := rfl
  forgets := .refl c
  fit := id
  serialized := rfl
  counters := .inl ⟨rfl, rfl⟩

/-- The numbers of the trigger registers. -/
theorem mem_tdata {which : Reg} (h : which.toNat ∈ [0x7a1, 0x7a2, 0x7a3]) :
    which ∈ [0x7a1#64, 0x7a2#64, 0x7a3#64] := by
  rw [List.mem_cons, List.mem_cons, List.mem_singleton] at h ⊢
  exact h.imp (fun h => BitVec.eq_of_toNat_eq h)
    (.imp (fun h => BitVec.eq_of_toNat_eq h) fun h => BitVec.eq_of_toNat_eq h)

/-- **`put_csr`** -/
theorem putCsr_writes {which old : Reg} (val : Reg)
    (hget : c.hart.getCsr f.cfg which.toNat true = .ok old) :
    ∃ c₁, f.putCsr which val { c with serialized := false } = .ok () c₁ ∧ c.Writes f.cfg c₁ ∧
      c₁.hart = c.hart.putCsr f.cfg which.toNat val := by
  let c₀ : Cpu (Machine 64 ω) ι := { c with serialized := false }
  have kept : c₀.Kept f.cfg (c₀.withHart fun h => h.putCsr f.cfg which.toNat val) :=
    .withHart fun fit => fit.putCsr hget val
  have hhart := c₀.hart_withHart fun h => h.putCsr f.cfg which.toNat val
  have hserialized := c₀.serialized_withHart fun h => h.putCsr f.cfg which.toNat val
  have hcheck := c₀.checkTriggersIcount_withHart fun h => h.putCsr f.cfg which.toNat val
  have hrun : f.putCsr which val c₀ = .ok () (
      let c₁ := c₀.withHart fun h => h.putCsr f.cfg which.toNat val
      if which ∈ [0x7a1#64, 0x7a2#64, 0x7a3#64] ∧ c₁.hart.tlbFlushes ≠ c₀.hart.tlbFlushes then
        { c₁ with checkTriggersIcount := c₁.hart.triggers.any icountCheckNeeded }
      else c₁) := rfl
  refine ⟨_, hrun, ?_, ?_⟩ <;>
    generalize c₀.withHart (fun h => h.putCsr f.cfg which.toNat val) = c₁
      at kept hhart hserialized hcheck ⊢
  · dsimp only
    split
    · exact ⟨⟨kept.ledger, kept.forgets, kept.fit⟩, hserialized, .inr rfl⟩
    · rename_i hno
      have hsame : c₁.hart.triggers = c.hart.triggers := by
        obtain heq | ⟨hmem, hne⟩ := @triggers_putCsr f.cfg c.hart which.toNat val
        · rw [hhart]
          exact heq
        · rw [hhart] at hno
          exact absurd ⟨mem_tdata hmem, hne⟩ hno
      exact ⟨⟨kept.ledger, kept.forgets, kept.fit⟩, hserialized,
        .inl ⟨congrArg Triggers.counters hsame, hcheck⟩⟩
  · dsimp only
    split
    · exact hhart
    · exact hhart

/-- The access of a CSR instruction, and what comes behind it. -/
def csrAccess (f : Frame) (a : CsrOperation ω ι) (old : Reg) (result : Reg → Reg) :
    InsnM 64 ω ι Reg := do
  if a.write then
    let val ← a.operand old
    f.putCsr (Insn.csr f.insn) val
  f.writeRd (result old)
  setPcAndSerialize f.npc

theorem csrAccess_ends {old : Reg} (hreads : Reads (a.operand old))
    (hnpc : f.npc.getLsbD 0 = false) (hs : c.serialized = true)
    (hget : c.hart.getCsr f.cfg (Insn.csr f.insn).toNat a.write = .ok old) (result : Reg → Reg) :
    CsrEnds a f c (f.csrAccess a old result { c with serialized := false }) := by
  have taken : Cpu.Still { c with serialized := false } { c with serialized := false } := .refl _
  cases hwrite : a.write with
  | false =>
    have hput : a.put f c = none := by
      rw [CsrOperation.put, hget]
      dsimp only
      rw [hwrite, if_neg Bool.false_ne_true]
    have hrun : f.csrAccess a old result { c with serialized := false } =
        (f.writeRd (result old) >>= fun _ => setPcAndSerialize f.npc)
          { c with serialized := false } := by
      rw [csrAccess, hwrite, if_neg Bool.false_ne_true]
    rw [hrun]
    exact csrEnds_tail hnpc hs _ (writes_taken c) (by rw [hput]; rfl) (.inl ⟨hput, taken⟩)
  | true =>
    rw [hwrite] at hget
    obtain ⟨val, hval⟩ | ⟨t, ht⟩ := hreads c
    · have hc : a.operand old c = .ok val c := hval c.serialized
      have hput : a.put f c = some val := by
        rw [CsrOperation.put, hwrite, hget]
        dsimp only
        rw [if_pos rfl, hc]
      obtain ⟨c₁, hrun, w, hhart⟩ := putCsr_writes val hget
      have haccess : f.csrAccess a old result { c with serialized := false } =
          (f.writeRd (result old) >>= fun _ => setPcAndSerialize f.npc) c₁ := by
        rw [csrAccess, hwrite, if_pos rfl, Exec.bind_of_ok (hval false), Exec.bind_of_ok hrun]
      rw [haccess]
      refine csrEnds_tail hnpc hs _ w ?_ (.inr ?_)
      · rw [hput, hhart, minstret_putCsr]
        rfl
      · rw [hput, hhart]
        rfl
    · have hc : a.operand old c = .error (.trap t) c := ht c.serialized
      have hput : a.put f c = none := by
        rw [CsrOperation.put, hwrite, hget]
        dsimp only
        rw [if_pos rfl, hc]
      have haccess : f.csrAccess a old result { c with serialized := false } =
          .error (.trap t) { c with serialized := false } := by
        rw [csrAccess, hwrite, if_pos rfl, Exec.bind_of_error (ht false)]
      rw [haccess]
      exact .refused taken (strands_of_put hput)

/-- **The file of a CSR instruction.** -/
theorem csrFile_ends {op : Opcode} (ha : op.csrOperation f = some a)
    (hnpc : f.npc.getLsbD 0 = false) (hs : c.serialized = true) (result : Reg → Reg) :
    CsrEnds a f c (f.csrFile a.write a.operand result c) := by
  have hbegin : f.csrFile a.write a.operand result c =
      (f.orRefuse (c.hart.getCsr f.cfg (Insn.csr f.insn).toNat a.write) >>= fun old =>
        f.csrAccess a old result) { c with serialized := false } := by
    rw [csrFile, validateCsr, Exec.bind_of_ok (rfl : (get : InsnM 64 ω ι _) c = .ok c c),
      if_pos hs]
    rfl
  rw [hbegin]
  cases hget : c.hart.getCsr f.cfg (Insn.csr f.insn).toNat a.write with
  | ok old => exact csrAccess_ends (Opcode.reads_operand ha old) hnpc hs hget result
  | error e =>
    have hput : a.put f c = none := by
      rw [CsrOperation.put, hget]
    have hmild : Mild (f.orRefuse (.error e) : InsnM 64 ω ι Reg) := mild_orRefuse _
    have hrefused : ∃ t c', (f.orRefuse (.error e) : InsnM 64 ω ι Reg)
        { c with serialized := false } = .error (.trap t) c' := by
      cases e <;> exact ⟨_, _, rfl⟩
    obtain ⟨t, c', hrun⟩ := hrefused
    rw [Exec.bind_of_error hrun]
    exact .refused (hmild.keeps.of_error hrun) (strands_of_put hput)

end Frame

/-! ### The law -/

theorem Opcode.isSome_csrOperation (op : Opcode) (f : Frame) (ω ι : Type) :
    (op.csrOperation f : Option (CsrOperation ω ι)).isSome =
      (op.csrOperation f : Option (CsrOperation Unit Unit)).isSome := by
  cases op <;> rfl

/-- The program counter plays no part in the access. -/
theorem Opcode.csrOperation_frame {ω ι : Type} (op : Opcode) (cfg : Config) (variant : Variant)
    (bits pc : Reg) :
    (op.csrOperation (op.frame cfg variant bits pc) : Option (CsrOperation ω ι)) =
      op.csrOperation (op.frame cfg variant bits 0#64) := by
  cases op <;> rfl

/-- What the loop asks about an instruction is about its access. -/
theorem Handler.serializes_insn (op : Opcode) (variant : Variant) (cfg : Config) (bits : Reg)
    (ω ι : Type) :
    (⟨.insn op, variant⟩ : Handler).serializes cfg bits =
      (op.csrOperation (op.frame cfg variant bits 0#64) : Option (CsrOperation ω ι)).isSome := by
  rw [serializes, csrOperation, Opcode.isSome_csrOperation]
  exact Option.isSome_map

/-- Writes give a value to `minstret` through entries that show it. -/
theorem Hart.showsMinstret_of_value {h : Hart} {val : Reg} {o : CsrObj}
    (hvalue : h.minstretValue val o ≠ none) : o.showsMinstret = true := by
  fun_induction Hart.minstretValue with
  | case1 => rfl
  | case2 => rfl
  | case3 => rfl
  | case4 _ delegate ih => exact ih hvalue
  | case5 => exact absurd rfl hvalue

namespace Handler

variable {ω ι : Type} {h : Handler} {cfg : Config} {bits : Reg} {c : Cpu (Machine 64 ω) ι}

theorem serializes_of_access {x : Frame × CsrOperation ω ι}
    (hx : h.csrOperation cfg bits = some x) : h.serializes cfg bits = true := by
  obtain ⟨func, variant⟩ := h
  cases func with
  | illegalInstruction => cases hx
  | insn op =>
    rw [serializes_insn op variant cfg bits ω ι, ← Option.isSome_map]
    exact congrArg Option.isSome hx

theorem accesses_of_written (hwritten : h.written cfg bits c ≠ none) :
    h.accesses cfg bits = true ∧ h.serializes cfg bits = true := by
  obtain ⟨val, hval⟩ := Option.ne_none_iff_exists'.1 hwritten
  obtain ⟨⟨f, a⟩, haccess, hval⟩ := Option.bind_eq_some_iff.1 hval
  obtain ⟨new, hput, hval⟩ := Option.bind_eq_some_iff.1 hval
  obtain ⟨o, hfind, hval⟩ := Option.bind_eq_some_iff.1 hval
  have hserializes := serializes_of_access haccess
  have hshows : o.showsMinstret = true :=
    Hart.showsMinstret_of_value (by rw [hval]; exact Option.some_ne_none _)
  refine ⟨?_, hserializes⟩
  rw [accesses, hserializes, hfind]
  exact hshows

theorem serializes_of_strands (hstrands : h.strands cfg bits c ≠ none) :
    h.serializes cfg bits = true := by
  obtain ⟨h', hh'⟩ := Option.ne_none_iff_exists'.1 hstrands
  obtain ⟨x, haccess, -⟩ := Option.bind_eq_some_iff.1 hh'
  exact serializes_of_access haccess

end Handler

namespace Setup

variable {δ : Type} (p : Setup δ)

/-- The file of a CSR instruction, as the loop expects it. -/
theorem handled_csr {op : Opcode} {variant : Variant} {bits pc : Reg}
    {a : CsrOperation (Periphery δ) InsnFetch}
    (ha : op.csrOperation (op.frame p.cfg variant bits pc) = some a)
    (hpc : pc.getLsbD 0 = false) (c : Cpu (Machine 64 (Periphery δ)) InsnFetch) :
    p.hartCore.Handled ⟨⟨.insn op, variant⟩, bits⟩ c
      (op.file p.mmu (op.frame p.cfg variant bits pc) c) := by
  have ha₀ := (op.csrOperation_frame p.cfg variant bits pc).symm.trans ha
  have haccess : (⟨.insn op, variant⟩ : Handler).csrOperation p.cfg bits =
      some (op.frame p.cfg variant bits 0#64, a) := congrArg (Option.map _) ha₀
  have hserializes : p.hartCore.serializes ⟨⟨.insn op, variant⟩, bits⟩ = true :=
    (Handler.serializes_insn op variant p.cfg bits _ _).trans (congrArg Option.isSome ha₀)
  have hwritten : p.hartCore.written ⟨⟨.insn op, variant⟩, bits⟩ c =
      (a.put (op.frame p.cfg variant bits pc) c).bind
        (c.hart.minstretPut p.cfg (Insn.csr bits).toNat) := by
    show Handler.written _ p.cfg bits c = _
    rw [Handler.written, haccess]
    rfl
  have hstrands : p.hartCore.strands ⟨⟨.insn op, variant⟩, bits⟩ c =
      a.strands (op.frame p.cfg variant bits pc) c := by
    show Handler.strands _ p.cfg bits c = _
    rw [Handler.strands, haccess]
    rfl
  rw [Opcode.file_csr ha]
  cases hs : c.serialized with
  | false =>
    have hrun : (op.frame p.cfg variant bits pc).csrFile a.write a.operand
        (op.frame p.cfg variant bits pc).sextXlen c = .ok pcSerializeBefore c := by
      rw [Frame.csrFile, Frame.validateCsr,
        Exec.bind_of_ok (rfl : (get : InsnM 64 _ _ _) c = .ok c c), hs]
      rfl
    rw [hrun]
    exact .before hserializes hs
  | true =>
    have ends := Frame.csrFile_ends ha (Opcode.even_npc hpc) hs
      (op.frame p.cfg variant bits pc).sextXlen
    generalize (op.frame p.cfg variant bits pc).csrFile a.write a.operand
      (op.frame p.cfg variant bits pc).sextXlen c = r at ends ⊢
    cases ends with
    | refused s hput => exact .refused hserializes hs s (hstrands.trans hput)
    | done w hminstret => exact .written hserializes hs w (by rw [hwritten]; exact hminstret)
    | stranded w hstrands' hminstret =>
      exact .stranded hserializes hs w (hstrands.trans hstrands')
        (by rw [hwritten]; exact hminstret)

/-- **Every handler ends as the loop expects.** -/
theorem handled (fetched : InsnFetch) {pc : Reg} (hpc : pc.getLsbD 0 = false)
    (c : Cpu (Machine 64 (Periphery δ)) InsnFetch) :
    p.hartCore.Handled fetched c (p.hartCore.execute fetched pc c) := by
  obtain ⟨⟨func, variant⟩, bits⟩ := fetched
  cases func with
  | illegalInstruction => exact .ordinary rfl (.trap (.refl c))
  | insn op =>
    cases ha : (op.csrOperation (op.frame p.cfg variant bits pc) :
        Option (CsrOperation (Periphery δ) InsnFetch)) with
    | some a => exact p.handled_csr ha hpc c
    | none =>
      refine .ordinary ?_ (Opcode.ordinary_file p.mild_mmu hpc (Opcode.even_npc hpc) ha c)
      rw [Opcode.csrOperation_frame] at ha
      exact (Handler.serializes_insn op variant p.cfg bits _ _).trans (congrArg Option.isSome ha)

/-- **The processor of the built instructions is lawful.** -/
theorem hartCore_lawful : p.hartCore.Lawful where
  fetch addr := InsnM.mild_access (p.mild_fetch addr)
  execute fetched _ c hpc := p.handled fetched hpc c
  written := Handler.accesses_of_written
  strands := Handler.serializes_of_strands

end Setup

end Nnemu

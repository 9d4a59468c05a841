import Nnemu.Hart.Frame

/-!
# CSR instructions as object writes

Every entry of `csrmap` writes through the objects behind it. `ObjWrites` lists what such a write
can be made of: writes to objects, masked writes to `mip` and `mie`, and steps that leave the
registers alone. The delegation registers are reached only where their permission check has passed,
and the views of `mie` only through delegated bits. An invariant of the registers is proved for
these steps once (`ObjWrites.induct`), not for each entry of the map.

The map is a list that depends on the configuration, with some of its entries in blocks. Each
property of entries is checked by evaluation for the configuration that has every entry
(`Config.full`), and `csrmap_subset_full` carries it over to the others. What a CSR instruction does
is then said once: `csrInsn_cases` has the object and the value it writes, and `csrInsn_writes` the
writes this comes to.
-/

namespace Nnemu

namespace Hart

variable {cfg : Config} {h h' : Hart}

/-- What the permission check of an object that holds a value asks for, as far as invariants need
it. -/
structure CanWrite (h : Hart) (c : Csr) : Prop where
  /-- `mideleg` and `medeleg` are written with S only -/
  supervisor : c = .mideleg ∨ c = .medeleg → h.extensionEnabled .s = true
  /-- `misa` is written in M only -/
  machine : c = .misa → prvM ≤ h.prv

/-- The steps of a CSR write. -/
inductive ObjWrites (cfg : Config) (h : Hart) : Hart → Prop
  | refl : ObjWrites cfg h h
  | write {h' : Hart} (c : Csr) (val : Reg) (hc : h'.CanWrite c) (w : ObjWrites cfg h h') :
      ObjWrites cfg h (h'.write cfg val c)
  | mip {h' : Hart} (mask val : Reg) (w : ObjWrites cfg h h') :
      ObjWrites cfg h (h'.writeWithMask .mip mask val)
  | mie {h' : Hart} (mask val : Reg) (hm : mask &&& ~~~h'.midelegRead = 0#64)
      (w : ObjWrites cfg h h') :
      ObjWrites cfg h (h'.writeWithMask .mie mask val)
  | quiet {h' h'' : Hart} (f : Frame (fun _ => false) h' h'') (w : ObjWrites cfg h h') :
      ObjWrites cfg h h''

/-- What every step keeps, a CSR write keeps. -/
theorem ObjWrites.induct {P : Hart → Prop} (w : ObjWrites cfg h h')
    (hwrite : ∀ h c val, h.CanWrite c → P h → P (h.write cfg val c))
    (hmip : ∀ h mask val, P h → P (h.writeWithMask .mip mask val))
    (hmie : ∀ h mask val, mask &&& ~~~h.midelegRead = 0#64 → P h →
      P (h.writeWithMask .mie mask val))
    (hquiet : ∀ h h', Frame (fun _ => false) h h' → P h → P h') (hP : P h) : P h' := by
  induction w with
  | refl => exact hP
  | write c val hc _ ih => exact hwrite _ c val hc ih
  | mip mask val _ ih => exact hmip _ mask val ih
  | mie mask val hm _ ih => exact hmie _ mask val hm ih
  | quiet f _ ih => exact hquiet _ _ f ih

end Hart

/-! ### Entries -/

namespace CsrObj

/-- Entries that need no permission check: `misa`, `mideleg` and `medeleg` are not behind them, and
a view of `mie` shows delegated bits. -/
def free : CsrObj → Bool
  | plain c => c != .mideleg && c != .medeleg && c != .misa
  | mieProxy _ accr => accr.maskMode != .none
  | virtualized orig virt => orig.free && virt.free
  | rv32Low orig => orig.free
  | rv32High orig => orig.free
  | counterProxy _ delegate => delegate.free
  | proxy _ delegate => delegate.free
  | composite upper lower _ => upper.free && lower.free
  | _ => true

/-- Entries as they stand in the map: `misa` and the delegation registers stand for themselves. -/
def direct : CsrObj → Bool
  | plain _ => true
  | o => o.free

/-- Views of `mip`. -/
def viewsMip : CsrObj → Bool
  | plain c => c == .mip
  | mipProxy _ _ => true
  | virtualized orig virt => orig.viewsMip && virt.viewsMip
  | _ => false

/-- Views of the comparators of the timer, whose writes change `mip` as well. -/
def viewsTimer : CsrObj → Bool
  | plain c => c == .vstimecmp
  | virtualizedStimecmp => true
  | rv32Low orig => orig.viewsTimer
  | rv32High orig => orig.viewsTimer
  | _ => false

/-- The registers a write to an entry changes. -/
def footprint : CsrObj → Csr → Bool
  | plain c => c.footprint
  | sstatusProxy => Csr.footprint .mstatus
  | mipProxy _ _ => fun c' => c' = .mip
  | mieProxy _ _ => fun c' => c' = .mie
  | virtualized orig virt => fun c' => orig.footprint c' || virt.footprint c'
  | virtualizedSatp => fun c' => Csr.footprint .satp c' || Csr.footprint .vsatp c'
  | virtualizedStimecmp => fun c' => Csr.footprint .stimecmp c' || Csr.footprint .vstimecmp c'
  | rv32Low orig => orig.footprint
  | rv32High orig => orig.footprint
  | counterProxy _ delegate => delegate.footprint
  | proxy _ delegate => delegate.footprint
  | composite upper lower _ => fun c' => upper.footprint c' || lower.footprint c'
  | _ => fun _ => false

/-- The entry of `misa`. -/
def isMisa : CsrObj → Bool
  | plain c => c == .misa
  | _ => false

/-- How an entry of the map changes `mip`: as a view of it, by the timer, by switching H off, or
not. -/
def mipKnown (o : CsrObj) : Bool :=
  o.viewsMip || o.viewsTimer || !o.footprint .mip || o.isMisa

/-- What holds of every entry of the map. -/
def regular (o : CsrObj) : Bool :=
  o.direct && o.mipKnown

end CsrObj

section Map

variable (cfg : Config)

/-- The configuration with every extension. -/
def Config.full (cfg : Config) : Config :=
  { cfg with isa :=
      { cfg.isa with table := fun _ => true, u_of_s := fun _ => rfl, s_of_h := fun _ => rfl } }

theorem entriesIf_subset (b : Bool) (l : List (Nat × CsrObj)) : entriesIf b l ⊆ l := by
  cases b with
  | false => exact List.nil_subset l
  | true => exact List.Subset.refl l

theorem append_subset_append {l₁ l₂ l₁' l₂' : List (Nat × CsrObj)} (h₁ : l₁ ⊆ l₁') (h₂ : l₂ ⊆ l₂') :
    l₁ ++ l₂ ⊆ l₁' ++ l₂' :=
  List.append_subset.2 ⟨List.subset_append_of_subset_left _ h₁,
    List.subset_append_of_subset_right _ h₂⟩

theorem flatMap_subset {α : Type} {f g : α → List (Nat × CsrObj)} (hf : ∀ a, f a ⊆ g a)
    (l : List α) :
    l.flatMap f ⊆ l.flatMap g := by
  intro e he
  obtain ⟨a, ha, he⟩ := List.mem_flatMap.1 he
  exact List.mem_flatMap.2 ⟨a, ha, hf a he⟩

/-- **More extensions, more registers.** Every entry of the map is one of the full configuration. -/
theorem csrmap_subset_full : csrmap cfg ⊆ csrmap cfg.full := by
  have same (l : List (Nat × CsrObj)) : l ⊆ l := List.Subset.refl l
  have hcounter : counterEntries cfg ⊆ counterEntries cfg.full := by
    refine append_subset_append
      (append_subset_append (append_subset_append ?_ (same _)) (same _)) ?_
    · exact entriesIf_subset _ _
    · show entriesIf (_ && cfg.isa.xlen == .rv32) _ ⊆ entriesIf (true && cfg.isa.xlen == .rv32) _
      cases cfg.isa.xlen == .rv32 with
      | false => rw [Bool.and_false]; exact List.nil_subset _
      | true => exact entriesIf_subset _ _
  have hhpm (i : Fin 29) : hpmEntries cfg i ⊆ hpmEntries cfg.full i := by
    refine append_subset_append (append_subset_append (append_subset_append
      (append_subset_append (same _) ?_) (same _)) ?_) ?_
    · exact entriesIf_subset _ _
    · show entriesIf (cfg.isa.xlen == .rv32 && _) _ ⊆ entriesIf (cfg.isa.xlen == .rv32 && true) _
      cases cfg.isa.xlen == .rv32 with
      | false => exact List.nil_subset _
      | true => exact entriesIf_subset _ _
    · have hxlen : cfg.full.isa.xlen = cfg.isa.xlen := rfl
      rw [hxlen]
      cases cfg.isa.xlen with
      | rv32 => exact List.cons_subset_cons _ (entriesIf_subset _ _)
      | rv64 => exact same _
  have hsupervisor : supervisorEntries cfg ⊆ supervisorEntries cfg.full := by
    refine append_subset_append (append_subset_append (append_subset_append (append_subset_append
      (append_subset_append (append_subset_append (append_subset_append (append_subset_append
      (append_subset_append (same _) ?_) (same _)) (same _)) (same _)) (same _)) (same _)) (same _))
        (same _))
      (same _)
    exact entriesIf_subset _ _
  have hextension : extensionEntries cfg ⊆ extensionEntries cfg.full := by
    refine append_subset_append (append_subset_append (append_subset_append (append_subset_append
      ?_ ?_) ?_) ?_) ?_ <;> exact entriesIf_subset _ _
  refine append_subset_append (append_subset_append (append_subset_append (append_subset_append
    (append_subset_append (append_subset_append (append_subset_append (append_subset_append
    (append_subset_append (append_subset_append (append_subset_append (append_subset_append
    (same _) (same _)) (same _)) hsupervisor) (same _)) hcounter) hextension) (same _)) (same _))
    (flatMap_subset hhpm _)) (same _)) (entriesIf_subset _ _)) (same _)

/-- What holds of every group of entries holds of the map. -/
theorem all_csrmap {p : Nat × CsrObj → Bool}
    (hmachine : ([plainEntry .misa] ++ wideEntries cfg 0x300 0x310 (.plain .mstatus) ++
      [plainEntry .mepc, plainEntry .mtval, plainEntry .mscratch, plainEntry .mtvec,
        plainEntry .mcause]).all p = true)
    (hsupervisor : (supervisorEntries cfg).all p = true)
    (hinterrupt : interruptEntries.all p = true)
    (hcounter : (counterEntries cfg).all p = true)
    (hextension : (extensionEntries cfg).all p = true)
    (hdebug : (debugEntries cfg).all p = true)
    (hunprivileged : (unprivilegedEntries cfg).all p = true)
    (hhpm : ∀ i, (hpmEntries cfg i).all p = true) (hconst : p (0x320, .const 0x320 0#64) = true)
    (hscountovf : p (0xda0, .scountovf) = true) (hmseccfg : p (0x747, .mseccfg) = true)
    (hpmpaddr : ∀ i, p (0x3b0 + i, .pmpaddr i) = true)
    (hpmpcfg : ∀ i, p (0x3a0 + i / 4, .pmpcfg (i / 4)) = true) :
    (csrmap cfg).all p = true := by
  have hevents : ((List.finRange 29).flatMap (hpmEntries cfg)).all p = true := by
    rw [List.all_flatMap, List.all_eq_true]
    exact fun i _ => hhpm i
  have hov : (entriesIf (cfg.isa.table .sscofpmf) [(0xda0, .scountovf)]).all p = true := by
    cases cfg.isa.table .sscofpmf with
    | false => rfl
    | true => rw [entriesIf, if_pos rfl, List.all_cons, hscountovf]; rfl
  have hpmp : (pmpEntries cfg).all p = true := by
    rw [pmpEntries, List.all_cons, List.all_append, List.all_map, List.all_map,
      hmseccfg, Bool.true_and,
      Bool.and_eq_true, List.all_eq_true, List.all_eq_true]
    exact ⟨fun i _ => hpmpaddr i, fun k _ => hpmpcfg _⟩
  rw [csrmap]
  simp only [List.all_append, Bool.and_eq_true] at hmachine ⊢
  refine ⟨⟨⟨⟨⟨⟨⟨⟨⟨⟨hmachine, hsupervisor⟩, hinterrupt⟩, hcounter⟩, hextension⟩, hdebug⟩,
    hunprivileged⟩,
    hevents⟩, ?_⟩, hov⟩, hpmp⟩
  rw [List.all_cons, hconst]
  rfl

/-- **Every entry of the map is regular.** -/
theorem regular_full : (csrmap cfg.full).all (fun e => e.2.regular) = true := by
  obtain ⟨⟨xlen, table, exts, hu, hs⟩, impl, id, big, count, pmp, vlen, vlenb⟩ := cfg
  cases xlen <;> cases count <;>
    exact all_csrmap _ rfl rfl rfl rfl rfl rfl rfl (fun _ => rfl) rfl rfl rfl
      (fun _ => rfl) fun _ => rfl

/-- An entry that is found is one of the full configuration. -/
theorem mem_of_csrFind {which : Nat} {o : CsrObj} (ho : csrFind cfg which = some o) :
    (which, o) ∈ csrmap cfg.full := by
  refine csrmap_subset_full cfg ?_
  rw [csrFind, List.lookup_eq_some_iff] at ho
  obtain ⟨l, l', heq, -⟩ := ho
  simp [heq]

theorem regular_of_csrFind {which : Nat} {o : CsrObj} (ho : csrFind cfg which = some o) :
    o.regular = true :=
  List.all_eq_true.1 (regular_full cfg) _ (mem_of_csrFind cfg ho)

/-- `misa` and the delegation registers stand in the map for themselves only. -/
theorem direct_of_csrFind {which : Nat} {o : CsrObj} (ho : csrFind cfg which = some o) :
    o.direct = true :=
  (Bool.and_eq_true_iff.1 (regular_of_csrFind cfg ho)).1

end Map

/-! ### From entries to writes -/

namespace Hart

variable {cfg : Config} {h h' : Hart}

theorem ObjWrites.trans {h'' : Hart} (w : ObjWrites cfg h h') (w' : ObjWrites cfg h' h'') :
    ObjWrites cfg h h'' := by
  induction w' with
  | refl => exact w
  | write c val hc _ ih => exact .write c val hc ih
  | mip mask val _ ih => exact .mip mask val ih
  | mie mask val hm _ ih => exact .mie mask val hm ih
  | quiet f _ ih => exact .quiet f ih

/-- One write to an object. -/
theorem ObjWrites.one {c : Csr} (hc : h.CanWrite c) (val : Reg) :
    ObjWrites cfg h (h.write cfg val c) :=
  .write c val hc .refl

theorem canWrite_of_free {c : Csr} (hc : (CsrObj.plain c).free = true) : h.CanWrite c := by
  rw [CsrObj.free, Bool.and_eq_true, Bool.and_eq_true, bne_iff_ne, bne_iff_ne, bne_iff_ne] at hc
  obtain ⟨⟨hmideleg, hmedeleg⟩, hmisa⟩ := hc
  exact ⟨fun hd => absurd hd (not_or.2 ⟨hmideleg, hmedeleg⟩), fun hm => absurd hm hmisa⟩

/-- The bits a view of `mie` writes are delegated. -/
theorem ieWrite_mask {accr : IntAccessor} (ha : (accr.maskMode != .none) = true) :
    (h.delegMask accr &&& accr.ieWriteMask) &&& ~~~h.midelegRead = 0#64 := by
  have hsub : h.delegMask accr &&& ~~~h.midelegRead = 0#64 := by
    rw [delegMask]
    cases hm : accr.maskMode with
    | none =>
      rw [hm] at ha
      exact absurd rfl (bne_iff_ne.1 ha)
    | mideleg => exact BitVec.and_not_self h.midelegRead
    | hideleg => simp [hidelegRead, BitVec.and_assoc]
  rw [BitVec.and_assoc, BitVec.and_comm accr.ieWriteMask, ← BitVec.and_assoc, hsub, BitVec.zero_and]

/-- An entry without delegation registers behind it. -/
theorem objWrites_of_free (o : CsrObj) (ho : o.free = true) :
    ∀ (h : Hart) (val : Reg), ObjWrites cfg h (h.writeObj cfg val o) := by
  have hone {h : Hart} (c : Csr) (hc : (CsrObj.plain c).free = true) (val : Reg) :
      ObjWrites cfg h (h.write cfg val c) := .one (canWrite_of_free hc) val
  induction o with
  | plain c => exact fun h val => hone c ho val
  | const _ _ => exact fun h val => .refl
  | sstatusProxy => exact fun h val => hone .mstatus rfl _
  | mipProxy _ accr => exact fun h val => .mip _ _ .refl
  | mieProxy _ accr => exact fun h val => .mie _ _ (ieWrite_mask ho) .refl
  | dcsr => exact fun h val => .quiet (Frame.dcsrWrite _ h val) .refl
  | tdata1 => exact fun h val => .quiet (Frame.triggersWrite _ h _) .refl
  | tdata2 => exact fun h val => .quiet (Frame.triggersWrite _ h _) .refl
  | tdata3 => exact fun h val => .quiet (Frame.triggersWrite _ h _) .refl
  | tinfo => exact fun h val => .refl
  | pmpaddr i => exact fun h val => .quiet (Frame.pmpWrite _ h _) .refl
  | pmpcfg n => exact fun h val => .quiet (Frame.pmpWrite _ h _) .refl
  | mseccfg => exact fun h val => .quiet (Frame.pmpWrite _ h _) .refl
  | scountovf => exact fun h val => .refl
  | virtualized orig virt ihOrig ihVirt =>
    obtain ⟨hOrig, hVirt⟩ := Bool.and_eq_true_iff.1 ho
    intro h val
    rw [writeObj]
    split
    · exact ihVirt hVirt h val
    · exact ihOrig hOrig h val
  | virtualizedSatp =>
    intro h val
    rw [writeObj]
    split
    · exact hone .vsatp rfl _
    · exact hone .satp rfl _
  | virtualizedStimecmp =>
    intro h val
    rw [writeObj]
    split
    · exact hone .vstimecmp rfl _
    · exact hone .stimecmp rfl _
  | rv32Low orig ih => exact fun h val => ih ho h _
  | rv32High orig ih => exact fun h val => ih ho h _
  | counterProxy _ delegate ih => exact fun h val => ih ho h val
  | proxy _ delegate ih => exact fun h val => ih ho h val
  | composite upper lower lsb ihUpper ihLower =>
    obtain ⟨hUpper, hLower⟩ := Bool.and_eq_true_iff.1 ho
    exact fun h val => (ihUpper hUpper h _).trans (ihLower hLower _ _)

/-- A check that ends in `require` has its condition. -/
theorem of_then_require {check : Except Refusal Unit} {b : Bool}
    (h : (do check; require b) = .ok ()) : b = true := by
  cases check with
  | error e => exact absurd h (by simp [bind, Except.bind])
  | ok u =>
    cases b with
    | true => rfl
    | false => exact absurd h (by simp [bind, Except.bind, require])

/-- A register of M needs M. -/
theorem machine_of_verifyBase {address : Nat} {write : Bool} (ha : address / 0x100 % 4 = 3)
    (hv : h.verifyBase address write = .ok ()) : prvM ≤ h.prv := by
  by_contra hlt
  have hlt : h.prv.toNat < 3 := Nat.not_le.1 fun hle => hlt (BitVec.le_def.2 hle)
  have hpriv : (if h.prv = prvS ∧ h.v = false then 2 else h.prv.toNat) < 3 := by
    split
    · exact Nat.lt_succ_self 2
    · exact hlt
  rw [verifyBase] at hv
  simp only [ha, hpriv, if_true] at hv
  split at hv
  · exact absurd hv (by simp)
  · split at hv
    · exact absurd hv (by simp)
    · split at hv <;> exact absurd hv (by simp)

/-- The permission check of an object that holds a value. -/
theorem canWrite_of_verified {c : Csr} (hv : h.verifyCsr cfg true c = .ok ()) : h.CanWrite c := by
  refine ⟨?_, ?_⟩
  · rintro (rfl | rfl)
    · exact of_then_require hv
    · exact of_then_require hv
  · rintro rfl
    have hverified : h.verifyBase 0x301 true = .ok () := hv
    exact machine_of_verifyBase rfl hverified

/-- **CSR writes are object writes.** A write that has passed the permission check of its entry. -/
theorem objWrites_of_verified {o : CsrObj} (ho : o.direct = true)
    (hv : h.verifyObj cfg true o = .ok ()) (val : Reg) :
    ObjWrites cfg h (h.writeObj cfg val o) := by
  cases o with
  | plain c => exact .one (canWrite_of_verified hv) val
  | _ => exact objWrites_of_free _ ho h val

/-- The instruction writes `val` to the entry `o`, and is permitted to. -/
structure Writes (cfg : Config) (h : Hart) (which : Nat) (insn : CsrInsn) (o : CsrObj) (val : Reg) :
    Prop where
  find : csrFind cfg which = some o
  verified : h.verifyObj cfg true o = .ok ()
  value : (csrInsnValue insn (h.readObj cfg o)).map cfg.isa.xlen.zext = some val

theorem writes_of_value {insn : CsrInsn} {old x : Reg} (h : csrInsnValue insn old = some x) :
    insn.writes = true := by
  cases insn with
  | read => exact absurd h nofun
  | write _ => rfl
  | set _ => rfl
  | clear _ => rfl

/-- An instruction that writes is not refused. -/
theorem Writes.ok {which : Nat} {insn : CsrInsn} {o : CsrObj} {val : Reg}
    (w : h.Writes cfg which insn o val) : h.csrInsn cfg which insn =
      .ok ((h.writeObj cfg val o).setPcAndSerialize (sextXlen cfg (h.pc + 4#64))) := by
  obtain ⟨hfind, hv, hval⟩ := w
  obtain ⟨x, hx, rfl⟩ := Option.map_eq_some_iff.1 hval
  rw [csrInsn, getCsr, hfind, writes_of_value hx]
  dsimp only
  rw [hv]
  dsimp only
  rw [hx]
  dsimp only
  rw [putCsr, hfind]

/-- An instruction writes one value to one entry. -/
theorem Writes.unique {which : Nat} {insn : CsrInsn} {o o' : CsrObj} {val val' : Reg}
    (w : h.Writes cfg which insn o val) (w' : h.Writes cfg which insn o' val') :
    o = o' ∧ val = val' := by
  obtain rfl : o = o' := Option.some.inj (w.find.symm.trans w'.find)
  exact ⟨rfl, Option.some.inj (w.value.symm.trans w'.value)⟩

/-- A CSR instruction that is not refused writes to an entry or not, then moves on. -/
theorem csrInsn_cases {which : Nat} {insn : CsrInsn} (hok : h.csrInsn cfg which insn = .ok h') :
    ∃ h₁, h' = h₁.setPcAndSerialize (sextXlen cfg (h.pc + 4#64)) ∧
      (h₁ = h ∨ ∃ o val, h.Writes cfg which insn o val ∧ h₁ = h.writeObj cfg val o) := by
  rw [csrInsn, getCsr] at hok
  cases hfind : csrFind cfg which with
  | none => simp [hfind] at hok
  | some o =>
    cases hv : h.verifyObj cfg insn.writes o with
    | error e => simp [hfind, hv] at hok
    | ok u =>
      simp only [hfind, hv, Except.ok.injEq] at hok
      refine ⟨_, hok.symm, ?_⟩
      cases hval : csrInsnValue insn (h.readObj cfg o) with
      | none => exact .inl rfl
      | some val =>
        rw [writes_of_value hval] at hv
        refine .inr ⟨o, _, ⟨hfind, hv, congrArg (Option.map cfg.isa.xlen.zext) hval⟩, ?_⟩
        dsimp only
        rw [putCsr, hfind]

/-- A CSR instruction that is not refused makes object writes, then moves on. -/
theorem csrInsn_writes {which : Nat} {insn : CsrInsn} (hok : h.csrInsn cfg which insn = .ok h') :
    ∃ h₁, ObjWrites cfg h h₁ ∧ h' = h₁.setPcAndSerialize (sextXlen cfg (h.pc + 4#64)) := by
  obtain ⟨h₁, hnext, rfl | ⟨o, val, w, rfl⟩⟩ := csrInsn_cases hok
  · exact ⟨_, .refl, hnext⟩
  · exact ⟨_, objWrites_of_verified (direct_of_csrFind cfg w.find) w.verified val, hnext⟩

/-! ### Footprints of entries -/

/-- A frame within a larger one. -/
theorem Frame.orLeft {s t : Csr → Bool} (f : Frame s h h') : Frame (fun c => s c || t c) h h' :=
  f.mono fun _ hc => (Bool.or_eq_false_iff.1 hc).1

theorem Frame.orRight {s t : Csr → Bool} (f : Frame t h h') : Frame (fun c => s c || t c) h h' :=
  f.mono fun _ hc => (Bool.or_eq_false_iff.1 hc).2

/-- **Footprints.** A write to an entry changes the registers in its footprint only. -/
theorem Frame.writeObj (o : CsrObj) : ∀ (h : Hart) (val : Reg),
    Frame o.footprint h (h.writeObj cfg val o) := by
  induction o with
  | plain c => exact fun h val => Frame.write val c
  | const _ _ => exact fun h val => Frame.refl _ h
  | sstatusProxy => exact fun h val => Frame.sstatusProxyWrite rfl val
  | mipProxy _ accr => exact fun h val => Frame.set rfl _
  | mieProxy _ accr => exact fun h val => Frame.set rfl _
  | dcsr => exact fun h val => Frame.dcsrWrite _ h val
  | tdata1 => exact fun h val => Frame.triggersWrite _ h _
  | tdata2 => exact fun h val => Frame.triggersWrite _ h _
  | tdata3 => exact fun h val => Frame.triggersWrite _ h _
  | tinfo => exact fun h val => Frame.refl _ h
  | pmpaddr i => exact fun h val => Frame.pmpWrite _ h _
  | pmpcfg n => exact fun h val => Frame.pmpWrite _ h _
  | mseccfg => exact fun h val => Frame.pmpWrite _ h _
  | scountovf => exact fun h val => Frame.refl _ h
  | virtualized orig virt ihOrig ihVirt =>
    exact fun h val => Frame.ite (ihVirt h val).orRight (ihOrig h val).orLeft
  | virtualizedSatp =>
    exact fun h val => Frame.ite (Frame.write _ .vsatp).orRight (Frame.write _ .satp).orLeft
  | virtualizedStimecmp =>
    exact fun h val => Frame.ite (Frame.write _ .vstimecmp).orRight (Frame.write _ .stimecmp).orLeft
  | rv32Low orig ih => exact fun h val => ih h _
  | rv32High orig ih => exact fun h val => ih h _
  | counterProxy _ delegate ih => exact fun h val => ih h val
  | proxy _ delegate ih => exact fun h val => ih h val
  | composite upper lower lsb ihUpper ihLower =>
    exact fun h val => (ihUpper h _).orLeft.trans (ihLower _ _).orRight

/-! ### Which instructions write `misa` -/

/-- A write to another object leaves `misa` alone. -/
theorem footprint_misa {c : Csr} (hc : c ≠ .misa) : c.footprint .misa = false := by
  cases c <;> first | rfl | exact absurd rfl hc

/-- An entry that needs no permission check leaves `misa` alone. -/
theorem footprint_misa_of_free (o : CsrObj) (ho : o.free = true) : o.footprint .misa = false := by
  induction o with
  | plain c =>
    rw [CsrObj.free, Bool.and_eq_true, bne_iff_ne] at ho
    exact footprint_misa ho.2
  | virtualized orig virt ihOrig ihVirt =>
    obtain ⟨hOrig, hVirt⟩ := Bool.and_eq_true_iff.1 ho
    exact Bool.or_eq_false_iff.2 ⟨ihOrig hOrig, ihVirt hVirt⟩
  | rv32Low orig ih => exact ih ho
  | rv32High orig ih => exact ih ho
  | counterProxy _ delegate ih => exact ih ho
  | proxy _ delegate ih => exact ih ho
  | composite upper lower lsb ihUpper ihLower =>
    obtain ⟨hUpper, hLower⟩ := Bool.and_eq_true_iff.1 ho
    exact Bool.or_eq_false_iff.2 ⟨ihUpper hUpper, ihLower hLower⟩
  | _ => rfl

/-- What a write to such an entry leaves. -/
theorem Frame.of_footprint_misa {s : Csr → Bool} (f : Frame s h h') (hs : s .misa = false) :
    Frame (fun c => c != .misa) h h' := by
  refine f.mono fun c hc => ?_
  rw [bne_eq_false_iff_eq] at hc
  exact hc ▸ hs

/-- The instruction writes `val` to `misa`, and is permitted to. -/
def WritesMisa (cfg : Config) (h : Hart) (which : Nat) (insn : CsrInsn) (val : Reg) : Prop :=
  csrFind cfg which = some (.plain .misa) ∧ prvM ≤ h.prv ∧
    (csrInsnValue insn (h.reg .misa)).map cfg.isa.xlen.zext = some val

/-- An instruction that writes another entry leaves `misa` alone. -/
theorem Writes.frame {which : Nat} {insn : CsrInsn} {o : CsrObj} {val : Reg}
    (w : h.Writes cfg which insn o val) (hm : o ≠ .plain .misa) :
    Frame (fun c => c != .misa) h (h.writeObj cfg val o) := by
  have hd := direct_of_csrFind cfg w.find
  cases o with
  | plain c => exact (Frame.write _ c).of_footprint_misa (footprint_misa fun hc => hm (hc ▸ rfl))
  | _ => exact (Frame.writeObj _ h _).of_footprint_misa (footprint_misa_of_free _ hd)

/-- A CSR instruction leaves `misa` alone, or it is permitted to write it. -/
theorem csrInsn_misa {which : Nat} {insn : CsrInsn} (hok : h.csrInsn cfg which insn = .ok h') :
    ∃ h₁, h' = h₁.setPcAndSerialize (sextXlen cfg (h.pc + 4#64)) ∧
      (Frame (fun c => c != .misa) h h₁ ∨
        ∃ val, h.WritesMisa cfg which insn val ∧ h₁ = h.misaWrite cfg val) := by
  obtain ⟨h₁, hnext, rfl | ⟨o, val, w, rfl⟩⟩ := csrInsn_cases hok
  · exact ⟨_, hnext, .inl (Frame.refl _ h₁)⟩
  · refine ⟨_, hnext, ?_⟩
    by_cases hm : o = .plain .misa
    · subst hm
      exact .inr ⟨_, ⟨w.find, (canWrite_of_verified w.verified).machine rfl, w.value⟩, rfl⟩
    · exact .inl (w.frame hm)

end Hart

end Nnemu

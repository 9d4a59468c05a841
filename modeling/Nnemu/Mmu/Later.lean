import Nnemu.Mmu.Frozen

/-!
# Frozen walks in later states

The page tables of a later state differ from those of an earlier one by entries that count as
changed since the last flush and by A and D bits the walker has set (`PtLe`). What a frozen walk
finds in one state it finds in a later one, or meets a change (`frozen_later`), also under a regime
that differs only in what walks of this mode do not look at (`Regime.Agrees`). What a walk of the
machine has found the frozen walk finds from then on (`frozen_of_walk`), and however the machine's
walk ends, the state it leaves is a later one (`walk_ptLe`).

`PtLe` is a preorder on states: what counts as changed only grows, and outside of that an entry
differs by A and D bits it has gained (`LeafGain`). Each way in which a state becomes a later one is
a lemma (`ptLe_setMem`, `ptLe_update`, `walk_ptLe`), and `frozen_later` and `frozen_of_walk` are the
two instances of `WalkRel.walk_rel` that the soundness of TLBs rests on.
-/

namespace Nnemu

open Radix Bytes

variable {δ : Type} {bus : Bus δ} {r r' : Regime} {w w' w'' : World δ} {n : Nat} {slot : Reg}

/-! ### The order of states -/

/-- A leaf that was given A and D bits. -/
structure LeafGain (p q : Reg) : Prop where
  not_table : pteTable p = false
  agree : AgreeOffAd p q
  bits : p &&& q = p

theorem LeafGain.trans {p q s : Reg} (h : LeafGain p q) (h' : LeafGain q s) : LeafGain p s where
  not_table := h.not_table
  agree := h.agree.trans h'.agree
  bits := by
    have hps : p &&& s = p &&& (q &&& s) := by
      rw [← BitVec.and_assoc, h.bits]
    rw [hps, h'.bits, h.bits]

theorem LeafGain.hasAd {p q : Reg} (h : LeafGain p q) {type : AccessType}
    (had : p &&& adBits type = adBits type) : q &&& adBits type = adBits type := by
  have hqp : q &&& p = p := (BitVec.and_comm q p).trans h.bits
  calc q &&& adBits type = q &&& (p &&& adBits type) := by rw [had]
    _ = q &&& p &&& adBits type := (BitVec.and_assoc ..).symm
    _ = adBits type := by rw [hqp, had]

/-- Page tables with entries of `n` bytes in an earlier and a later world: an entry of the later one
was changed since the last flush, or it is the earlier one with A and D bits that the walker set. -/
def PtLe (n : Nat) (w w' : World δ) : Prop :=
  ∀ slot, Aligned n slot → w'.clean slot n = true → w.clean slot n = true ∧
    (w'.read slot n = w.read slot n ∨ LeafGain (w.read slot n) (w'.read slot n))

theorem PtLe.refl (n : Nat) (w : World δ) : PtLe n w w :=
  fun _ _ hclean => ⟨hclean, .inl rfl⟩

theorem PtLe.trans (h : PtLe n w w') (h' : PtLe n w' w'') : PtLe n w w'' := by
  intro slot hslot hclean
  obtain ⟨hclean', hread'⟩ := h' slot hslot hclean
  obtain ⟨hclean'', hread⟩ := h slot hslot hclean'
  refine ⟨hclean'', ?_⟩
  rcases hread' with heq | hgain
  · rw [heq]
    exact hread
  · rcases hread with heq | hgain'
    · rw [← heq]
      exact .inr hgain
    · exact .inr (hgain'.trans hgain)

/-- What records every byte it changes leads to a later state. -/
theorem PtLe.of_recorded
    (h : ∀ a, w'.ptDirty a = false → w.ptDirty a = false ∧ w'.mem a = w.mem a) : PtLe n w w' := by
  intro slot _ hclean
  rw [World.clean_iff] at hclean
  refine ⟨World.clean_iff.2 fun i hi => (h _ (hclean i hi)).1, .inl ?_⟩
  rw [World.read, World.read]
  exact congrArg fromBytes (read_congr fun i hi => (h _ (hclean i hi)).2)

theorem SameMemory.ptLe (h : SameMemory w w') : PtLe n w w' :=
  PtLe.of_recorded fun a ha => ⟨h.ptDirty ▸ ha, congrFun h.mem a⟩

theorem ptLe_setMem (w : World δ) (mem : Reg → BitVec 8) (dev : δ) :
    PtLe n w { w.setMem false mem with dev := dev } := by
  apply PtLe.of_recorded
  intro a ha
  simpa [World.setMem] using ha

/-! ### Regimes that agree -/

/-- The rules a regime sets for walks in this mode, compared with those of another one: the same,
except that memory types may be allowed that were not. -/
structure Regime.Agrees (mode : Reg) (virt : Bool) (r r' : Regime) : Prop where
  xlen : r'.xlen = r.xlen
  svnapot : r'.svnapot = r.svnapot
  hgatp : r'.hgatp = r.hgatp
  atp : r'.atp virt = r.atp virt
  pmp : r'.pmp = r.pmp
  s2Mxr : virt = true → hasBits r'.sstatus mstatusMxr = hasBits r.sstatus mstatusMxr
  s2Pbmte : virt = true → hasBits r.menvcfg envcfgPbmte = true →
    hasBits r'.menvcfg envcfgPbmte = true
  s1Mxr : mode ≠ prvM → r'.mxr virt = r.mxr virt
  s1Sum : mode ≠ prvM → hasBits (r'.status virt) mstatusSum = hasBits (r.status virt) mstatusSum
  s1Pbmte : mode ≠ prvM → hasBits (r.envcfg virt) envcfgPbmte = true →
    hasBits (r'.envcfg virt) envcfgPbmte = true

theorem Regime.Agrees.refl (mode : Reg) (virt : Bool) (r : Regime) : r.Agrees mode virt r :=
  ⟨rfl, rfl, rfl, rfl, rfl, fun _ => rfl, fun _ => id, fun _ => rfl, fun _ => rfl, fun _ => id⟩

/-- The rules are the same for walks with this virtualization. -/
structure Regime.Same (virt : Bool) (r r' : Regime) : Prop where
  xlen : r'.xlen = r.xlen
  svnapot : r'.svnapot = r.svnapot
  hgatp : r'.hgatp = r.hgatp
  atp : r'.atp virt = r.atp virt
  pmp : r'.pmp = r.pmp
  debugMode : r'.debugMode = r.debugMode
  s2Pbmte : hasBits r'.menvcfg envcfgPbmte = hasBits r.menvcfg envcfgPbmte
  s2Hade : hasBits r'.menvcfg envcfgHade = hasBits r.menvcfg envcfgHade
  s2Mxr : hasBits r'.sstatus mstatusMxr = hasBits r.sstatus mstatusMxr
  s1Pbmte : hasBits (r'.envcfg virt) envcfgPbmte = hasBits (r.envcfg virt) envcfgPbmte
  s1Hade : hasBits (r'.envcfg virt) envcfgHade = hasBits (r.envcfg virt) envcfgHade
  s1Mxr : r'.mxr virt = r.mxr virt
  s1Sum : hasBits (r'.status virt) mstatusSum = hasBits (r.status virt) mstatusSum

namespace Regime.Same

variable {virt : Bool} {r r' : Regime}

theorem s2xlate_eq {m : Type → Type} [Monad m] (mem : PteMem m) (same : Same virt r r')
    (gva gpa : Reg) (type trapType : AccessType) (hlvx : Bool) :
    s2xlate mem r' gva gpa type trapType virt hlvx =
      s2xlate mem r gva gpa type trapType virt hlvx := by
  have hvisit (vm : VmInfo) (i : Nat) (base : Reg) :
      s2Visit mem r' vm gva gpa type trapType hlvx i base =
        s2Visit mem r vm gva gpa type trapType hlvx i base := by
    rw [s2Visit, s2Visit, same.s2Pbmte, same.s2Hade, same.s2Mxr, same.svnapot]
  have hfind (vm : VmInfo) :
      s2Find mem r' vm gva gpa type trapType hlvx = s2Find mem r vm gva gpa type trapType hlvx := by
    rw [s2Find, s2Find, funext fun i => funext fun base => hvisit vm i base]
  simp only [s2xlate, same.xlen, same.hgatp, hfind]

theorem walk_eq {m : Type → Type} [Monad m] (mem : PteMem m) (same : Same virt r r') (addr : Reg)
    (type : AccessType) (mode : Reg) (hlvx : Bool) :
    walk mem r' addr type mode virt hlvx = walk mem r addr type mode virt hlvx := by
  have hs2 := same.s2xlate_eq mem
  have hvisit (vm : VmInfo) (i : Nat) (base : Reg) :
      s1Visit mem r' vm addr type mode virt hlvx i base =
        s1Visit mem r vm addr type mode virt hlvx i base := by
    rw [s1Visit, s1Visit, hs2, same.s1Pbmte, same.s1Hade, same.s1Sum, same.s1Mxr, same.svnapot]
  have htables (vm : VmInfo) :
      walkTables mem r' vm addr type mode virt hlvx =
        walkTables mem r vm addr type mode virt hlvx := by
    simp only [walkTables, same.xlen, hs2, funext fun i => funext fun base => hvisit vm i base]
  simp only [walk, same.xlen, same.atp, hs2, htables]

/-- **Translation** is the same under the same rules. -/
theorem translateAs_eq {δ : Type} (same : Same virt r r') (bus : Bus δ) (addr : Reg) (len : Nat)
    (type : AccessType) (mode : Reg) (hlvx : Bool) :
    translateAs (busMem bus r') r' addr len type mode virt hlvx =
      translateAs (busMem bus r) r addr len type mode virt hlvx := by
  have hload : pteLoad bus r' = pteLoad bus r := by
    funext slot vaddr v t len w
    simp only [pteLoad, same.pmp, same.debugMode]
  have hstore : pteStore bus r' = pteStore bus r := by
    funext slot pte vaddr v t len w
    simp only [pteStore, same.pmp, same.debugMode]
  have hmem : busMem bus r' = busMem bus r := by
    rw [busMem, busMem, hload, hstore]
  rw [translateAs, translateAs, hmem, same.walk_eq, same.pmp]

end Regime.Same

/-- A classification that keeps the tables and the leaves of another one, whatever their A and D
bits. -/
structure ClsLe (cls cls' : Reg → PteClass) : Prop where
  table : ∀ pte, cls pte = .table → pteTable pte = true ∧ cls' pte = .table
  leaf : ∀ pte q, AgreeOffAd pte q → cls pte = .leaf → pteTable pte = false ∧ cls' q = .leaf

theorem ReservedClear.mono {svnapot pbmte pbmte' : Bool} {pte : Reg}
    (hp : pbmte = true → pbmte' = true) (h : ReservedClear svnapot pbmte pte) :
    ReservedClear svnapot pbmte' pte :=
  ⟨h.1, h.2.1, h.2.2.1.imp hp id, h.2.2.2⟩

theorem clsLe_s2Class {mode : Reg} {virt : Bool} (h : r.Agrees mode virt r') (hv : virt = true)
    (vm : VmInfo) (ty : AccessType) (hl : Bool) (i : Nat) :
    ClsLe (s2Class r vm ty hl i) (s2Class r' vm ty hl i) where
  table := by
    intro pte hc
    rw [s2Class, s2Classify_eq_table_iff] at hc
    obtain ⟨hres, htable, hforbidden⟩ := hc
    refine ⟨htable, s2Classify_eq_table_iff.2 ⟨?_, htable, hforbidden⟩⟩
    rw [h.svnapot]
    exact hres.mono (h.s2Pbmte hv)
  leaf := by
    intro pte q hq hc
    rw [s2Class, s2Classify_leaf_congr hq] at hc
    obtain ⟨hres, htable, huser, hgrants⟩ := s2Classify_eq_leaf_iff.1 hc
    refine ⟨hq.pteTable_eq.trans htable, s2Classify_eq_leaf_iff.2 ⟨?_, htable, huser, ?_⟩⟩
    · rw [h.svnapot]
      exact hres.mono (h.s2Pbmte hv)
    · rw [h.s2Mxr hv]
      exact hgrants

theorem clsLe_s1Class {mode : Reg} {virt : Bool} (h : r.Agrees mode virt r') (hm : mode ≠ prvM)
    (vm : VmInfo) (ty : AccessType) (hl : Bool) (i : Nat) :
    ClsLe (s1Class r vm ty mode virt hl i) (s1Class r' vm ty mode virt hl i) where
  table := by
    intro pte hc
    rw [s1Class, s1Classify_eq_table_iff] at hc
    obtain ⟨hres, htable, hforbidden⟩ := hc
    refine ⟨htable, s1Classify_eq_table_iff.2 ⟨?_, htable, hforbidden⟩⟩
    rw [h.svnapot]
    exact hres.mono (h.s1Pbmte hm)
  leaf := by
    intro pte q hq hc
    rw [s1Class, s1Classify_leaf_congr hq] at hc
    obtain ⟨hres, htable, huser, hgrants⟩ := s1Classify_eq_leaf_iff.1 hc
    refine ⟨hq.pteTable_eq.trans htable, s1Classify_eq_leaf_iff.2 ⟨?_, htable, ?_, ?_⟩⟩
    · rw [h.svnapot]
      exact hres.mono (h.s1Pbmte hm)
    · rw [h.s1Sum hm]
      exact huser
    · rw [h.s1Mxr hm]
      exact hgrants

/-- A decision stands when the entry is later seen again. -/
theorem frozenRound_later {cls cls' : Reg → PteClass} {vm : VmInfo} {vpn : Reg} {type : AccessType}
    {i : Nat} (hcls : ClsLe cls cls') {p q : Reg} (hq : q = p ∨ LeafGain p q) {v : Visit Reg Reg}
    (h : frozenRound cls vm vpn type i p = .ok v) : frozenRound cls' vm vpn type i q = .ok v := by
  rcases frozenRound_eq_ok_iff.1 h with ⟨hc, rfl⟩ | ⟨hc, had, hn, rfl⟩
  · obtain ⟨htable, hc'⟩ := hcls.table p hc
    rcases hq with rfl | hgain
    · exact frozenRound_eq_ok_iff.2 (.inl ⟨hc', rfl⟩)
    · rw [hgain.not_table] at htable
      cases htable
  · have hagree : AgreeOffAd p q := by
      rcases hq with rfl | hgain
      · exact .refl _
      · exact hgain.agree
    have had' : q &&& adBits type = adBits type := by
      rcases hq with rfl | hgain
      · exact had
      · exact hgain.hasAd had
    refine frozenRound_eq_ok_iff.2 (.inr ⟨(hcls.leaf p q hagree hc).2, had', ?_, ?_⟩)
    · rw [← hagree.napotRefused_eq]
      exact hn
    · rw [hagree.pageBase_eq]

/-! ### Later walks -/

/-- A frozen walk and one in a later world. -/
def laterRelator (δ : Type) (n : Nat) : Relator (Frozen δ) (Frozen δ) where
  rel := fun V d d' => ∀ w w', PtLe n w w' →
    (∀ x, d w = .ok x → (∃ y, d' w' = .ok y ∧ V x y) ∨ d' w' = .error .changed) ∧
      (d w = .error .changed → d' w' = .error .changed)
  rel_pure := by
    intro α β V x y hV w w' _
    refine ⟨?_, ?_⟩
    · rintro _ ⟨⟩
      exact .inl ⟨y, rfl, hV⟩
    · rintro ⟨⟩
  rel_bind := by
    intro α β γ ι V W d d' f f' hd hf w w' hle
    change (∀ z, (d w).bind (fun x => f x w) = .ok z →
      (∃ u, (d' w').bind (fun y => f' y w') = .ok u ∧ W z u) ∨
        (d' w').bind (fun y => f' y w') = .error .changed) ∧
      ((d w).bind (fun x => f x w) = .error .changed →
        (d' w').bind (fun y => f' y w') = .error .changed)
    obtain ⟨hok, hchanged⟩ := hd w w' hle
    cases hx : d w with
    | error s =>
      refine ⟨?_, ?_⟩
      · rintro z ⟨⟩
      · rintro ⟨⟩
        rw [hchanged hx]
        rfl
    | ok x =>
      rcases hok x hx with ⟨y, hy, hV⟩ | hy
      · rw [hy]
        exact hf x y hV w w' hle
      · rw [hy]
        exact ⟨fun _ _ => .inr rfl, fun _ => rfl⟩

theorem walkRel_later (bus : Bus δ) {mode : Reg} {virt : Bool} (h : r.Agrees mode virt r')
    (type : AccessType) (hlvx : Bool) :
    WalkRel (laterRelator δ r.pteSize) (frozenMem bus r) (frozenMem bus r')
      r r' type type mode virt hlvx
      (fun ty ty' cls cls' => ty' = ty ∧ ClsLe cls cls') where
  xlen := h.xlen
  hgatp := h.hgatp
  atp := h.atp
  stop_bind := fun _ _ => rfl
  stop_bind' := fun _ _ => rfl
  stop := by
    intro α β V e d' w w' _
    refine ⟨?_, ?_⟩
    · rintro x ⟨⟩
    · rintro ⟨⟩
  s2Class := by
    rintro hv vm ty ty' hl i (⟨rfl, rfl⟩ | ⟨rfl, rfl⟩) <;> exact ⟨rfl, clsLe_s2Class h hv vm _ hl i⟩
  s1Class := fun hm vm i => ⟨rfl, clsLe_s1Class h hm vm type hlvx i⟩
  visit := by
    rintro cls cls' vm slot vpn addr addr' ty _ tt tt' v hade hade' i post
      post' e e' ⟨rfl, hcls⟩ hsize
      hslot w w' hle
    rw [← hsize] at hslot hle
    have hsee := hle slot hslot
    refine ⟨?_, ?_⟩
    · intro x hx
      obtain ⟨hload, u, hround, rfl⟩ := live_visitAt_frozen_ok_iff.1 hx
      obtain ⟨hpmp, hmem, -⟩ := frozenLoad_ok_iff.1 hload
      rw [← h.pmp] at hpmp
      cases hclean : w'.clean slot vm.ptesize with
      | false =>
        exact .inr (live_visitAt_frozen_changed_iff.2
          (frozenLoad_changed_iff.2 ⟨hpmp, fun _ => hclean⟩))
      | true =>
        refine .inl ⟨visitMap post' u, live_visitAt_frozen_ok_iff.2
          ⟨frozenLoad_ok_iff.2 ⟨hpmp, hmem, hclean, rfl⟩, u, ?_, rfl⟩,
          visitRel_of_frozenRound hround⟩
        exact frozenRound_later hcls (hsee hclean).2 hround
    · intro hx
      obtain ⟨hpmp, hclean⟩ := frozenLoad_changed_iff.1 (live_visitAt_frozen_changed_iff.1 hx)
      rw [← h.pmp] at hpmp
      refine live_visitAt_frozen_changed_iff.2 (frozenLoad_changed_iff.2 ⟨hpmp, fun hmem => ?_⟩)
      by_contra hne
      have hthen := (hsee (by simpa using hne)).1
      rw [hclean hmem] at hthen
      cases hthen

/-- **Persistence.** In a later world, under a regime that agrees, a frozen walk finds the page
again or meets a change; a change it has met it meets again. So it is for all addresses of the
page. -/
theorem frozen_later {addr addr' mode : Reg} {type : AccessType} {virt : Bool}
    (h : r.Agrees mode virt r') (hle : PtLe r.pteSize w w') (haddr : SamePage addr addr') :
    (∀ page, frozenWalk bus r addr type mode virt w = .ok page →
      frozenWalk bus r' addr' type mode virt w' = .ok page ∨
        frozenWalk bus r' addr' type mode virt w' = .error .changed) ∧
      (frozenWalk bus r addr type mode virt w = .error .changed →
        frozenWalk bus r' addr' type mode virt w' = .error .changed) := by
  obtain ⟨hok, hchanged⟩ := (walkRel_later bus h type false).walk_rel haddr w w' hle
  refine ⟨?_, hchanged⟩
  intro page hpage
  rcases hok page hpage with ⟨y, hy, rfl⟩ | hy
  · exact .inl hy
  · exact .inr hy

/-! ### What the machine has found -/

/-- The walker's update of a leaf leads to a later state. -/
theorem ptLe_update {type : AccessType} (hslot : Aligned n slot)
    (htable : pteTable (w.read slot n) = false) :
    PtLe n w (w.setMem true (writeBytes w.mem slot (toBytes (w.read slot n ||| adBits type) n))) :=
  by
  intro slot' hslot' hclean
  have hclean' : w.clean slot' n = true := by
    rw [World.clean_iff] at hclean ⊢
    intro i hi
    simpa [World.setMem] using hclean i hi
  refine ⟨hclean', ?_⟩
  by_cases hne : slot' = slot
  · subst hne
    refine .inr ⟨htable, ?_, ?_⟩
    · rw [read_setMem_self _ _ _ (or_adBits_lt hslot.size (read_lt _ _ _))]
      exact (AgreeOffAd.or_adBits _ type).symm
    · rw [read_setMem_self _ _ _ (or_adBits_lt hslot.size (read_lt _ _ _))]
      apply BitVec.eq_of_getLsbD_eq
      intro j _
      rw [BitVec.getLsbD_and, BitVec.getLsbD_or]
      cases (w.read slot' n).getLsbD j <;> simp
  · exact .inl (read_setMem_of_ne w _ hslot hslot' hne)

/-- A store of an entry leads to a later state, however it ends. -/
theorem ptLe_of_pteStore {pte : Reg} (r : Regime) (addr : Reg) (virt : Bool)
    (type trapType : AccessType) (hslot : Aligned n slot)
    (hpte : bus.isMem slot = true → pte = w.read slot n)
    (htable : pteTable pte = false) :
    (∀ w', pteStore bus r slot (pte ||| adBits type) addr virt trapType n w = .ok () w' →
      PtLe n w w') ∧
      ∀ e w', pteStore bus r slot (pte ||| adBits type) addr virt trapType n w = .error e w' →
        PtLe n w w' := by
  rw [pteStore]
  split
  · refine ⟨?_, ?_⟩
    · rintro w' ⟨⟩
    · rintro e w' ⟨⟩
      exact .refl n w
  · split
    case isTrue hmem =>
      refine ⟨?_, ?_⟩
      · rintro w' ⟨⟩
        rw [hpte hmem] at htable ⊢
        exact ptLe_update hslot htable
      · rintro e w' ⟨⟩
    case isFalse =>
      split
      · refine ⟨?_, ?_⟩
        · rintro w' ⟨⟩
          exact ptLe_setMem _ _ _
        · rintro e w' ⟨⟩
      · refine ⟨?_, ?_⟩
        · rintro w' ⟨⟩
        · rintro e w' ⟨⟩
          exact ptLe_setMem _ _ _

section Rounds

variable {cls : Reg → PteClass} {vm : VmInfo} {vpn addr : Reg} {type trapType : AccessType}
  {virt hade : Bool} {i : Nat} {post : Reg → Reg} {e : Stop}

theorem updateAd_ptLe (r : Regime) (addr : Reg) (type : AccessType) (virt hade : Bool) {pte : Reg}
    (hslot : Aligned vm.ptesize slot)
    (hpte : bus.isMem slot = true → pte = w.read slot vm.ptesize) (htable : pteTable pte = false) :
    (∀ b w', updateAd (busMem bus r) vm slot pte addr type virt hade w = .ok b w' →
      PtLe vm.ptesize w w') ∧
      ∀ s w', updateAd (busMem bus r) vm slot pte addr type virt hade w = .error s w' →
        PtLe vm.ptesize w w' := by
  obtain ⟨hok, herror⟩ := ptLe_of_pteStore r addr virt type type hslot hpte htable
  refine ⟨?_, ?_⟩
  · intro b w' had
    rcases updateAd_ok_iff.1 had with ⟨-, -, rfl⟩ | ⟨-, -, -, hst⟩ | ⟨-, -, -, rfl⟩
    · exact .refl _ _
    · exact hok w' hst
    · exact .refl _ _
  · intro s w' had
    exact herror s w' (updateAd_error_iff.1 had).2.2

/-- A round of the machine leads to a later state, however it ends. -/
theorem visitAt_ptLe (r : Regime) (vpn addr : Reg) (trapType : AccessType)
    (virt hade : Bool) (i : Nat)
    (post : Reg → Reg) (e : Stop) (hcls : ClsLe cls cls) (hslot : Aligned vm.ptesize slot) :
    (∀ v w', live ((busMem bus r).stop _ e)
        (visitAt (busMem bus r) cls vm slot vpn addr type trapType virt hade i post) w = .ok v w' →
      PtLe vm.ptesize w w') ∧
      ∀ s w', live ((busMem bus r).stop _ e)
        (visitAt (busMem bus r) cls vm slot vpn addr type trapType virt hade i post) w =
          .error s w' →
        PtLe vm.ptesize w w' := by
  have hleaf : ∀ pte u, pteLoad bus r slot addr virt trapType vm.ptesize w = .ok pte u →
      cls pte = .leaf → _ := fun pte u hload hc =>
    updateAd_ptLe (w := u) r addr type virt hade hslot
      (fun hmem => by
        obtain ⟨rfl, rfl⟩ := (pteLoad_ok hload).2.2 hmem
        rfl) (hcls.leaf pte pte (.refl pte) hc).1
  refine ⟨?_, ?_⟩
  · intro v w' hv
    obtain ⟨pte, u, hload, ⟨-, -, rfl⟩ | ⟨hc, -, -, had⟩⟩ := live_visitAt_ok_iff.1 hv
    · exact (pteLoad_ok hload).2.1.ptLe
    · exact (pteLoad_ok hload).2.1.ptLe.trans ((hleaf pte u hload hc).1 _ _ had)
  · intro s w' hv
    rw [live, visitAt, bind_assoc] at hv
    rcases Exec.bind_eq_error_iff.1 hv with hload | ⟨pte, u, hload, hv⟩
    · exact (pteLoad_error hload).2.ptLe
    · have hsame := (pteLoad_ok hload).2.1.ptLe (n := vm.ptesize)
      cases hc : cls pte with
      | bad =>
        rw [hc] at hv
        cases hv
        exact hsame
      | table =>
        rw [hc] at hv
        cases hv
      | leaf =>
        rw [hc] at hv
        -- either the update throws, or it is done and the NAPOT encoding is refused
        rcases Exec.bind_eq_error_iff.1 hv with hf | ⟨v, t, hf, hv⟩
        · rcases Exec.bind_eq_error_iff.1 hf with hf | ⟨page, t, -, hf⟩
          · obtain ⟨h1, h2, h3⟩ := finishLeaf_error_iff.1 hf
            exact hsame.trans ((hleaf pte u hload hc).2 s w' (updateAd_error_iff.2 ⟨h1, h2, h3⟩))
          · cases hf
        · obtain ⟨page, t', hf, hpage⟩ := Exec.bind_eq_ok_iff.1 hf
          cases hpage
          obtain ⟨b, had, rfl⟩ := finishLeaf_ok_iff.1 hf
          have ht := hsame.trans ((hleaf pte u hload hc).1 _ _ had)
          cases hres : b && !napotRefused i pte with
          | true =>
            rw [hres] at hv
            cases hv
          | false =>
            rw [hres] at hv
            cases hv
            exact ht

/-- After a round of the machine has gone on from an entry in RAM, a frozen round takes the same
decision. -/
theorem frozenRound_of_visitAt (hcls : ClsLe cls cls) (hslot : Aligned vm.ptesize slot)
    {v : Visit Reg Reg}
    (h : live ((busMem bus r).stop _ e)
      (visitAt (busMem bus r) cls vm slot vpn addr type trapType virt hade i post) w = .ok v w') :
    ∃ u, v = visitMap post u ∧ (∃ pte, frozenRound cls vm vpn type i pte = .ok u) ∧
      (bus.isMem slot = true → frozenRound cls vm vpn type i (w'.read slot vm.ptesize) = .ok u) :=
    by
  obtain ⟨pte, t, hload, hround⟩ := live_visitAt_ok_iff.1 h
  rcases hround with ⟨hc, rfl, rfl⟩ | ⟨hc, hn, rfl, had⟩
  · refine ⟨.next _, rfl, ⟨pte, frozenRound_eq_ok_iff.2 (.inl ⟨hc, rfl⟩)⟩, fun hmem => ?_⟩
    obtain ⟨rfl, rfl⟩ := (pteLoad_ok hload).2.2 hmem
    exact frozenRound_eq_ok_iff.2 (.inl ⟨hc, rfl⟩)
  · have hagree : AgreeOffAd pte (pte ||| adBits type) := (AgreeOffAd.or_adBits _ type).symm
    have hor : (pte ||| adBits type) &&& adBits type = adBits type := by
      apply BitVec.eq_of_getLsbD_eq
      intro j _
      rw [BitVec.getLsbD_and, BitVec.getLsbD_or]
      cases (adBits type).getLsbD j <;> simp
    have hupdated : frozenRound cls vm vpn type i (pte ||| adBits type) =
        .ok (.done (some (pageBase (i * vm.idxbits) pte vpn))) := by
      refine frozenRound_eq_ok_iff.2 (.inr ⟨(hcls.leaf _ _ hagree hc).2, hor, ?_, ?_⟩)
      · rw [← hagree.napotRefused_eq]
        exact hn
      · rw [hagree.pageBase_eq]
    refine ⟨.done (some (pageBase (i * vm.idxbits) pte vpn)), rfl, ⟨_, hupdated⟩, fun hmem => ?_⟩
    obtain ⟨rfl, rfl⟩ := (pteLoad_ok hload).2.2 hmem
    rcases updateAd_ok_iff.1 had with ⟨had, -, rfl⟩ | ⟨-, -, -, hst⟩ | ⟨-, -, ⟨⟩, -⟩
    · exact frozenRound_eq_ok_iff.2 (.inr ⟨hc, had, hn, rfl⟩)
    · rw [(pteStore_ok hst).2.1 hmem,
        read_setMem_self _ _ _ (or_adBits_lt hslot.size (read_lt _ _ _))]
      exact hupdated

end Rounds

/-- A run of the machine and a frozen walk in any later world. -/
def foundRelator (δ : Type) (n : Nat) : Relator (Exec Stop (World δ)) (Frozen δ) where
  rel := fun V e d => ∀ w,
    (∀ s w', e w = .error s w' → PtLe n w w') ∧
      ∀ x w', e w = .ok x w' → PtLe n w w' ∧ (∃ y, V x y) ∧
        ∀ t, PtLe n w' t → (∃ y, d t = .ok y ∧ V x y) ∨ d t = .error .changed
  rel_pure := by
    intro α β V x y hV w
    refine ⟨?_, ?_⟩
    · rintro s w' ⟨⟩
    · rintro _ w' ⟨⟩
      exact ⟨.refl n w, ⟨y, hV⟩, fun t _ => .inl ⟨y, rfl, hV⟩⟩
  rel_bind := by
    intro α β γ ι V W e d f g he hf w
    obtain ⟨herror, hok⟩ := he w
    refine ⟨?_, ?_⟩
    · intro s w' h
      rcases Exec.bind_eq_error_iff.1 h with h | ⟨x, u, hx, h⟩
      · exact herror s w' h
      · obtain ⟨hle, ⟨y, hy⟩, -⟩ := hok x u hx
        exact hle.trans ((hf x y hy u).1 s w' h)
    · intro z w' h
      obtain ⟨x, u, hx, h⟩ := Exec.bind_eq_ok_iff.1 h
      obtain ⟨hle, ⟨y, hy⟩, hlater⟩ := hok x u hx
      obtain ⟨hle', hz, -⟩ := (hf x y hy u).2 z w' h
      refine ⟨hle.trans hle', hz, ?_⟩
      intro t ht
      change (∃ y, (d t).bind (fun x => g x t) = .ok y ∧ W z y) ∨
        (d t).bind (fun x => g x t) = .error .changed
      rcases hlater t (hle'.trans ht) with ⟨y', hy', hV⟩ | hy'
      · rw [hy']
        exact ((hf x y' hV u).2 z w' h).2.2 t ht
      · rw [hy']
        exact .inr rfl

theorem walkRel_found (bus : Bus δ) (r : Regime) (type : AccessType) (mode : Reg)
    (virt hlvx : Bool) :
    WalkRel (foundRelator δ r.pteSize) (busMem bus r) (frozenMem bus r) r r type type mode virt hlvx
      (fun ty ty' cls cls' => ty' = ty ∧ cls' = cls ∧ ClsLe cls cls) where
  xlen := rfl
  hgatp := rfl
  atp := rfl
  stop_bind := fun _ _ => rfl
  stop_bind' := fun _ _ => rfl
  stop := by
    intro α β V e d' w
    refine ⟨?_, ?_⟩
    · rintro s w' ⟨⟩
      exact .refl _ w
    · rintro x w' ⟨⟩
  s2Class := by
    rintro hv vm ty ty' hl i (⟨rfl, rfl⟩ | ⟨rfl, rfl⟩) <;>
      exact ⟨rfl, rfl, clsLe_s2Class (.refl mode virt r) hv vm _ hl i⟩
  s1Class := fun hm vm i => ⟨rfl, rfl, clsLe_s1Class (.refl mode virt r) hm vm type hlvx i⟩
  visit := by
    rintro cls _ vm slot vpn addr addr' ty _ tt tt' v hade hade' i post
      post' e e' ⟨rfl, rfl, hcls⟩ hsize
      hslot w
    rw [← hsize] at hslot ⊢
    obtain ⟨hok, herror⟩ := visitAt_ptLe r vpn addr tt v hade i post e hcls hslot
    refine ⟨herror, ?_⟩
    intro x w' hx
    obtain ⟨u, rfl, ⟨pte, hwf⟩, hmemRound⟩ := frozenRound_of_visitAt hcls hslot hx
    obtain ⟨_, _, hload, -⟩ := live_visitAt_ok_iff.1 hx
    have hpmp := (pteLoad_ok hload).1
    refine ⟨hok _ w' hx, ⟨_, visitRel_of_frozenRound hwf⟩, ?_⟩
    intro t ht
    by_cases hclean : bus.isMem slot = true ∧ t.clean slot vm.ptesize = true
    · obtain ⟨hmem, hclean⟩ := hclean
      have hround := frozenRound_later hcls (ht slot hslot hclean).2 (hmemRound hmem)
      exact .inl ⟨_, live_visitAt_frozen_ok_iff.2
        ⟨frozenLoad_ok_iff.2 ⟨hpmp, hmem, hclean, rfl⟩, u, hround, rfl⟩,
        visitRel_of_frozenRound hwf⟩
    · exact .inr (live_visitAt_frozen_changed_iff.2 (frozenLoad_changed_iff.2
        ⟨hpmp, fun hmem => by simpa using fun hc => hclean ⟨hmem, hc⟩⟩))

/-- **Completeness.** What a walk of the machine has found the frozen walk finds, or it meets a
change. -/
theorem frozen_of_walk {addr mode page : Reg} {type : AccessType} {virt : Bool}
    (h : walk (busMem bus r) r addr type mode virt false w = .ok page w') :
    frozenWalk bus r addr type mode virt w' = .ok page ∨
      frozenWalk bus r addr type mode virt w' = .error .changed := by
  obtain ⟨-, -, hlater⟩ := ((walkRel_found bus r type mode virt false).walk_rel
    (rfl : SamePage addr addr) w).2 page w' h
  rcases hlater w' (.refl _ _) with ⟨y, hy, rfl⟩ | hy
  · exact .inl hy
  · exact .inr hy

/-- A walk of the machine leads to a later state, however it ends. -/
theorem walk_ptLe (addr mode : Reg) (type : AccessType) (virt hlvx : Bool) (w : World δ) :
    (∀ page w', walk (busMem bus r) r addr type mode virt hlvx w = .ok page w' →
      PtLe r.pteSize w w') ∧
      ∀ e w', walk (busMem bus r) r addr type mode virt hlvx w = .error e w' →
      PtLe r.pteSize w w' := by
  obtain ⟨herror, hok⟩ := (walkRel_found bus r type mode virt hlvx).walk_rel
    (rfl : SamePage addr addr) w
  exact ⟨fun page w' h => (hok page w' h).1, herror⟩

end Nnemu

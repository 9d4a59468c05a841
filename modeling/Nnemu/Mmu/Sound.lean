import Nnemu.Mmu.Fetch
import Nnemu.Mmu.Later
import Nnemu.Mmu.Reserved
import Nnemu.Pmp.Homogeneous

/-!
# Sound TLBs

A TLB is sound in a state of the machine when the tables say of each entry what the TLB says of it,
unless they have been changed since the last flush, and when entries that skip the checks for
triggers are those of operations that no trigger watches. A hit in a sound TLB is what the walk
would have found (`Sound.translateData_of_hits`), and filling in an entry after a walk keeps it
sound (`Sound.refill`).

An entry carries a tag for each kind of access, with the bit that says whether triggers have to be
checked. `Tlb.hits` reads the tags as the source compares them, and soundness is about every virtual
page that hits: the frozen walk of its address, with the privilege of the hart, leads to the page
the entry names, or into a change (`Hart.LeadsTo`). The protection unit enters with `refill_tlb`,
which fills an entry only where the whole page has one answer.
-/

namespace Nnemu

open Bytes Trigger

/-! ### Triggers that watch an operation -/

namespace Trigger

/-- `get_execute`, `get_load` or `get_store` -/
def watches (t : Trigger) : Operation → Bool
  | .execute => t.getExecute
  | .load => t.getLoad
  | .store => t.getStore

variable {env : MatchEnv} {operation : Operation} {address : Reg} {data : Option Reg} {t : Trigger}

theorem watches_eraseHit (t : Trigger) (operation : Operation) :
    t.eraseHit.watches operation = t.watches operation := by
  cases t with
  | mk tdata2 vs vu m s u sselect svalue sbytemask mhselect mhvalue body =>
    cases body <;> cases operation <;> rfl

/-- A trigger that does not watch the operation does nothing. -/
theorem detect_of_not_watches (h : t.watches operation = false) :
    t.detectMemoryAccessMatch env operation address data = (t, none) := by
  have hno : ∀ f : Mcontrol, t.body = .mcontrol f ∨ t.body = .mcontrol6 f →
      t.mcontrolMatches env operation address data f = false := by
    intro f hbody
    have hoff : (operation = .execute ∧ f.execute = false) ∨
      (operation = .store ∧ f.store = false) ∨
        (operation = .load ∧ f.load = false) := by
      cases operation with
      | execute =>
        rw [watches, getExecute] at h
        obtain hbody | hbody := hbody <;> rw [hbody] at h <;> exact .inl ⟨rfl, h⟩
      | load =>
        rw [watches, getLoad] at h
        obtain hbody | hbody := hbody <;> rw [hbody] at h <;> exact .inr (.inr ⟨rfl, h⟩)
      | store =>
        rw [watches, getStore] at h
        obtain hbody | hbody := hbody <;> rw [hbody] at h <;> exact .inr (.inl ⟨rfl, h⟩)
    obtain ⟨rfl, hf⟩ | ⟨rfl, hf⟩ | ⟨rfl, hf⟩ := hoff <;> simp [mcontrolMatches, hf]
  rw [detectMemoryAccessMatch]
  split
  · rename_i f hbody
    rw [hno f (.inl hbody)]
    rfl
  · rename_i f hbody
    rw [hno f (.inr hbody)]
    rfl
  · rfl

end Trigger

namespace Triggers

/-- No trigger watches the operation. -/
def Unwatched (ts : Triggers) (operation : Operation) : Prop :=
  ∀ t ∈ ts, t.watches operation = false

variable {env : MatchEnv} {operation : Operation} {address : Reg} {data : Option Reg}
  {ts us : Triggers}

theorem Unwatched.detectLoop (h : ts.Unwatched operation) :
    ∀ chainOk, Trigger.detectLoop env operation address data chainOk none ts = (ts, none) := by
  induction ts with
  | nil => intro chainOk; cases chainOk <;> rfl
  | cons t ts ih =>
    have ht : t.watches operation = false := h t List.mem_cons_self
    have hts : Unwatched ts operation := fun u hu => h u (List.mem_cons_of_mem t hu)
    intro chainOk
    cases chainOk with
    | false => rw [Trigger.detectLoop, ih hts]
    | true =>
      rw [Trigger.detectLoop, detect_of_not_watches ht]
      simp only [better, Bool.and_false, Bool.false_eq_true, if_false, ih hts]

/-- An operation that no trigger watches goes on as if there were none. -/
theorem Unwatched.detect (h : ts.Unwatched operation) :
    ts.detectMemoryAccessMatch env operation address data = (ts, none) := by
  rw [detectMemoryAccessMatch]
  split
  · rfl
  · exact h.detectLoop true

/-- What triggers watch depends on them without their `hit` bits. -/
theorem Unwatched.of_eraseHit (heq : us.map eraseHit = ts.map eraseHit) {operation : Operation}
    (h : ts.Unwatched operation) : us.Unwatched operation := by
  intro u hu
  have hmem : u.eraseHit ∈ ts.map eraseHit := heq ▸ List.mem_map_of_mem hu
  obtain ⟨t, ht, heq⟩ := List.mem_map.1 hmem
  rw [← watches_eraseHit, ← heq, watches_eraseHit]
  exact h t ht

/-- Detection does not change what is watched. -/
theorem Unwatched.of_detect {operation' : Operation} (h : ts.Unwatched operation) :
    (ts.detectMemoryAccessMatch env operation' address data).1.Unwatched operation :=
  Unwatched.of_eraseHit (eraseHit_detectMemoryAccessMatch ts) h

end Triggers

/-! ### Tags -/

variable {δ ι : Type} {cfg : Config} {bus : Bus δ} {addr paddr a : Reg} {type ty : AccessType}

/-- The operation of an access. -/
def AccessType.operation : AccessType → Operation
  | .fetch => .execute
  | .load => .load
  | .store => .store

namespace Tlb

variable {t t' : Tlb} {homogeneous : Bool}

/-- The tags of one type of access. -/
def tag (t : Tlb) : AccessType → Nat → Reg
  | .fetch => t.insnTag
  | .load => t.loadTag
  | .store => t.storeTag

/-- Are accesses of this type checked for triggers? -/
def checks (t : Tlb) : AccessType → Bool
  | .fetch => t.checkTriggersFetch
  | .load => t.checkTriggersLoad
  | .store => t.checkTriggersStore

/-- There is an entry of the page for this type of access. -/
def hits (t : Tlb) (type : AccessType) (addr : Reg) : Bool :=
  vpn addr == t.tag type (index addr) &&& ~~~tlbCheckTriggers

/-- There is one that skips the checks for triggers. -/
def skips (t : Tlb) (type : AccessType) (addr : Reg) : Bool :=
  t.tag type (index addr) == vpn addr

theorem hits_of_skips (h : t.skips type addr = true) : t.hits type addr = true := by
  rw [skips, beq_iff_eq] at h
  rw [hits, h, vpn_and, beq_self_eq_true]

theorem tag_fill (t : Tlb) (i : Nat) :
    (t.fill addr paddr type homogeneous).tag ty i =
      if i = index addr then
        if homogeneous && ty == type then t.expectedTag addr type
          else keepTag addr (t.tag ty (index addr))
      else t.tag ty i := by
  cases ty <;> exact Function.update_apply _ _ _ i

theorem data_fill (t : Tlb) (i : Nat) :
    (t.fill addr paddr type homogeneous).data i = if i = index addr then paddr - addr
      else t.data i :=
  Function.update_apply _ _ _ i

theorem expectedTag_eq (t : Tlb) (addr : Reg) (type : AccessType) :
    t.expectedTag addr type = if t.checks type then vpn addr ||| tlbCheckTriggers
      else vpn addr := by
  cases type <;> rfl

theorem vpn_or_and (addr : Reg) : (vpn addr ||| tlbCheckTriggers) &&&
    ~~~tlbCheckTriggers = vpn addr := by
  rw [BitVec.and_comm, BitVec.and_or_distrib_left, BitVec.and_comm _ (vpn addr),
    vpn_and, BitVec.and_comm,
    BitVec.and_not_self]
  exact BitVec.or_zero

theorem expectedTag_and (t : Tlb) (addr : Reg) (type : AccessType) :
    t.expectedTag addr type &&& ~~~tlbCheckTriggers = vpn addr := by
  rw [expectedTag_eq]
  split
  · exact vpn_or_and addr
  · exact vpn_and addr

/-- An entry that a fetch of the slow path goes by. -/
theorem hits_of_hitFetchChecked (h : t.hitFetchChecked addr = true) :
    t.hits .fetch addr = true := by
  rw [hitFetchChecked, beq_iff_eq] at h
  rw [hits, tag, h, vpn_or_and, beq_self_eq_true]

theorem keepTag_and {tag : Reg} (h : vpn a = keepTag addr tag &&& ~~~tlbCheckTriggers) :
    vpn a = vpn addr ∧ tag &&& ~~~tlbCheckTriggers = vpn addr := by
  rw [keepTag] at h
  split at h
  · exact absurd h (ne_vpn (by decide) a).symm
  · rename_i heq
    exact ⟨h.trans (not_not.1 heq), not_not.1 heq⟩

/-- An entry that is there after another one was filled in is that one, or one of the same page, or
one elsewhere. -/
theorem hits_fill (h : (t.fill addr paddr type homogeneous).hits ty a = true) :
    (SamePage a addr ∧ (t.fill addr paddr type homogeneous).data (index a) = paddr - addr ∧
        (t.hits ty a = true ∨ ty = type ∧ homogeneous = true)) ∨
      t.hits ty a = true ∧ (t.fill addr paddr type homogeneous).data (index a) =
        t.data (index a) := by
  rw [hits, tag_fill, beq_iff_eq] at h
  rw [data_fill]
  by_cases hindex : index a = index addr
  · rw [if_pos hindex] at h
    rw [if_pos hindex]
    by_cases hnew : (homogeneous && ty == type) = true
    · rw [if_pos hnew, expectedTag_and] at h
      rw [Bool.and_eq_true, beq_iff_eq] at hnew
      exact .inl ⟨h, rfl, .inr ⟨hnew.2, hnew.1⟩⟩
    · rw [if_neg hnew] at h
      obtain ⟨hpage, htag⟩ := keepTag_and h
      refine .inl ⟨hpage, rfl, .inl ?_⟩
      rw [hits, hindex, htag, hpage, beq_self_eq_true]
  · rw [if_neg hindex] at h
    rw [if_neg hindex]
    exact .inr ⟨by rw [hits, ← h, beq_self_eq_true], rfl⟩

theorem skips_fill (h : (t.fill addr paddr type homogeneous).skips ty a = true) :
    t.skips ty a = true ∨ t.checks ty = false := by
  rw [skips, tag_fill, beq_iff_eq] at h
  by_cases hindex : index a = index addr
  · rw [if_pos hindex] at h
    by_cases hnew : (homogeneous && ty == type) = true
    · obtain rfl : ty = type := beq_iff_eq.1 (Bool.and_eq_true_iff.1 hnew).2
      rw [if_pos hnew, expectedTag_eq] at h
      cases hchecks : t.checks ty with
      | false => exact .inr rfl
      | true =>
        -- a tag with the flag is no page number
        rw [if_pos hchecks] at h
        have hbit := congrArg (BitVec.getLsbD · 63) h
        have hlow : (vpn a).getLsbD 63 = false := by
          rw [← vpn_and, BitVec.getLsbD_and]
          exact Bool.and_false _
        rw [BitVec.getLsbD_or, hlow] at hbit
        exact absurd hbit (by simp [tlbCheckTriggers])
    · rw [if_neg hnew, keepTag] at h
      split at h
      · exact absurd h (ne_vpn (by decide) a)
      · exact .inl (by rw [skips, hindex, h, beq_self_eq_true])
  · rw [if_neg hindex] at h
    exact .inl (by rw [skips, h, beq_self_eq_true])

end Tlb

/-! ### Soundness -/

/-- What the tables say of an address, for the mode and the virtualization of the hart. -/
def Hart.frozenPage (cfg : Config) (bus : Bus δ) (h : Hart) (w : World δ)
    (type : AccessType) (addr : Reg) :
    Except FrozenStop Reg :=
  frozenWalk bus (h.regime cfg) addr type h.prv h.v w

/-- The tables of the address are in RAM, and since the last flush nothing but the walker has
written to them. -/
def Hart.Settled (cfg : Config) (bus : Bus δ) (h : Hart) (w : World δ)
    (type : AccessType) (addr : Reg) : Prop :=
  h.frozenPage cfg bus w type addr ≠ .error .changed

/-- The tables lead to this page, which is RAM and open for accesses of this type. -/
structure Hart.LeadsTo (cfg : Config) (bus : Bus δ) (h : Hart) (w : World δ)
    (type : AccessType) (addr page : Reg) :
    Prop where
  found : h.frozenPage cfg bus w type addr = .ok page
  isMem : bus.isMem page = true
  pmpOk : ∀ a len, 0 < len → Pmp.InPage page a len → h.pmp.pmpOk a len type h.prv = true

/-- A sound TLB. -/
structure Tlb.Sound (cfg : Config) (bus : Bus δ) (h : Hart) (w : World δ) (t : Tlb) : Prop where
  /-- while `mstatus.MPRV` is in effect there are no entries -/
  inMprv : (h.privilege cfg).inMprv = true → ∀ type addr, t.hits type addr = false
  leads : ∀ type addr, t.hits type addr = true → h.Settled cfg bus w type addr →
    ∃ page, h.LeadsTo cfg bus w type addr page ∧ t.data (index addr) + addr = page |||
      (addr &&& pageMask)
  skips : ∀ type addr, t.skips type addr = true → t.checks type = false
  checks : ∀ type, t.checks type = false → h.triggers.Unwatched type.operation

section Translations

variable {h : Hart} {w w' : World δ} {t t' : Tlb} {page : Reg} {len : Nat}

/-- Without MPRV the mode of an access is that of the hart. -/
theorem effective_of_not_inMprv (hmprv : (h.privilege cfg).inMprv = false) (type : AccessType) :
    (h.privilege cfg).effective type {} = (h.prv, h.v) := by
  rw [Privilege.effective, hmprv]
  cases type <;> rfl

/-- `translate` without flags -/
theorem translate_eq (hmprv : (h.privilege cfg).inMprv = false) :
    translate (busMem bus (h.regime cfg)) (h.regime cfg) (h.privilege cfg) addr len type {} =
      translateAs (busMem bus (h.regime cfg)) (h.regime cfg) addr len type h.prv h.v false := by
  rw [translate, effective_of_not_inMprv hmprv]

theorem toNat_and_pageMask (addr : Reg) : (addr &&& pageMask).toNat = addr.toNat % 4096 := by
  have hmask : pageMask.toNat = 2 ^ 12 - 1 := by decide
  rw [BitVec.toNat_and, hmask, Nat.and_two_pow_sub_one_eq_mod]

theorem page_mod (hpage : page &&& pageMask = 0#64) : page.toNat % 4096 = 0 := by
  rw [← toNat_and_pageMask, hpage]
  rfl

/-- A page with an offset. -/
theorem page_or (hpage : page &&& pageMask = 0#64) (addr : Reg) :
    page ||| (addr &&& pageMask) = page + (addr &&& pageMask) := by
  refine (BitVec.add_eq_or_of_and_eq_zero _ _ ?_).symm
  rw [BitVec.and_comm addr, ← BitVec.and_assoc, hpage]
  exact BitVec.zero_and

theorem toNat_page_or (hpage : page &&& pageMask = 0#64) (addr : Reg) :
    (page ||| (addr &&& pageMask)).toNat = page.toNat + addr.toNat % 4096 := by
  have hmod := page_mod hpage
  have hlt := page.isLt
  rw [page_or hpage, BitVec.toNat_add, toNat_and_pageMask]
  omega

/-- An access that stays in its page. -/
theorem inPage_page_or (hpage : page &&& pageMask = 0#64) (hlen : addr.toNat % 4096 + len ≤ 4096) :
    Pmp.InPage page (page ||| (addr &&& pageMask)) len := by
  rw [Pmp.InPage, toNat_page_or hpage]
  omega

/-- What is RAM on a page is RAM at its start. -/
theorem isMem_page_or (bus : Bus δ) (hpage : page &&& pageMask = 0#64) (addr : Reg) :
    bus.isMem (page ||| (addr &&& pageMask)) = bus.isMem page := by
  have hshift : (page ||| (addr &&& pageMask)) >>> pgShift = page >>> pgShift := by
    have hmod := page_mod hpage
    apply BitVec.eq_of_toNat_eq
    have hpow : 2 ^ pgShift = 4096 := rfl
    rw [BitVec.toNat_ushiftRight, BitVec.toNat_ushiftRight, toNat_page_or hpage,
      Nat.shiftRight_eq_div_pow,
      Nat.shiftRight_eq_div_pow, hpow]
    omega
  rw [Bus.isMem, Bus.isMem, hshift]

/-- Addresses of one page are as far from their places on another one. -/
theorem sub_add_of_samePage (hpage : page &&& pageMask = 0#64) (hsame : SamePage a addr) :
    (page ||| (addr &&& pageMask)) - addr + a = page ||| (a &&& pageMask) := by
  have hdiv : a.toNat / 4096 = addr.toNat / 4096 := by
    have hnat := congrArg BitVec.toNat hsame
    rwa [BitVec.toNat_ushiftRight, BitVec.toNat_ushiftRight, Nat.shiftRight_eq_div_pow,
      Nat.shiftRight_eq_div_pow] at hnat
  have haddr := addr.isLt
  have ha := a.isLt
  have hpagelt := page.isLt
  have hmod := page_mod hpage
  apply BitVec.eq_of_toNat_eq
  rw [BitVec.toNat_add, BitVec.toNat_sub, toNat_page_or hpage, toNat_page_or hpage]
  omega

/-- **A hit is what the walk would find.** -/
theorem Tlb.Sound.translate_of_hits (hs : t.Sound cfg bus h w) (hhit : t.hits type addr = true)
    (hsettled : h.Settled cfg bus w type addr) (hpos : 0 < len)
    (hlen : addr.toNat % 4096 + len ≤ 4096) :
    translate (busMem bus (h.regime cfg)) (h.regime cfg) (h.privilege cfg) addr len type {} w =
        .ok (t.data (Tlb.index addr) + addr) w ∧
      bus.isMem (t.data (Tlb.index addr) + addr) = true := by
  obtain ⟨page, hleads, hdata⟩ := hs.leads type addr hhit hsettled
  have hmprv : (h.privilege cfg).inMprv = false := by
    cases hin : (h.privilege cfg).inMprv with
    | false => rfl
    | true => exact absurd hhit (by rw [hs.inMprv hin]; exact Bool.false_ne_true)
  have hwalk := walk_of_frozen hleads.found
  have hpage := HartMmu.walk_page hwalk
  rw [hdata]
  refine ⟨?_, (isMem_page_or bus hpage addr).trans hleads.isMem⟩
  rw [translate_eq hmprv]
  exact translateAs_ok_iff.2 ⟨page, hwalk, rfl, hleads.pmpOk _ _ hpos (inPage_page_or hpage hlen)⟩

/-! ### What keeps a TLB sound -/

/-- Page tables go on, under rules that are the same for walks of this mode. -/
structure Hart.Later (cfg : Config) (h : Hart) (w : World δ) (h' : Hart) (w' : World δ) : Prop where
  prv : h'.prv = h.prv
  v : h'.v = h.v
  inMprv : (h'.privilege cfg).inMprv = (h.privilege cfg).inMprv
  agrees : (h.regime cfg).Agrees h.prv h.v (h'.regime cfg)
  ptLe : PtLe (h.regime cfg).pteSize w w'

theorem Hart.Later.pmp {h' : Hart} (hl : Hart.Later cfg h w h' w') : h'.pmp = h.pmp :=
  hl.agrees.pmp

/-- What is settled later is settled now. -/
theorem Hart.Later.settled {h' : Hart} (hl : Hart.Later cfg h w h' w')
    (hs : h'.Settled cfg bus w' type addr) :
    h.Settled cfg bus w type addr := by
  intro hchanged
  refine hs ?_
  rw [Hart.frozenPage, hl.prv, hl.v]
  exact (frozen_later hl.agrees hl.ptLe rfl).2 hchanged

theorem Hart.Later.leadsTo {h' : Hart} (hl : Hart.Later cfg h w h' w')
    (hs : h'.Settled cfg bus w' type addr)
    (h : h.LeadsTo cfg bus w type addr page) : h'.LeadsTo cfg bus w' type addr page where
  found := by
    have hs' := hs
    rw [Hart.Settled, Hart.frozenPage, hl.prv, hl.v] at hs'
    rw [Hart.frozenPage, hl.prv, hl.v]
    exact ((frozen_later hl.agrees hl.ptLe rfl).1 page h.found).resolve_right hs'
  isMem := h.isMem
  pmpOk := by
    rw [hl.pmp, hl.prv]
    exact h.pmpOk

/-- A TLB stays sound while the tables go on. -/
theorem Tlb.Sound.later {h' : Hart} (hs : t.Sound cfg bus h w) (hl : Hart.Later cfg h w h' w')
    (hunwatched : ∀ operation, h.triggers.Unwatched operation → h'.triggers.Unwatched operation) :
    t.Sound cfg bus h' w' where
  inMprv := by
    rw [hl.inMprv]
    exact hs.inMprv
  leads := by
    intro type addr hhit hsettled
    obtain ⟨page, hleads, hdata⟩ := hs.leads type addr hhit (hl.settled hsettled)
    exact ⟨page, hl.leadsTo hsettled hleads, hdata⟩
  skips := hs.skips
  checks := fun type hchecks => hunwatched _ (hs.checks type hchecks)

/-- What a translation does to page tables. -/
theorem later_of_ptLe (hle : PtLe (h.regime cfg).pteSize w w') : Hart.Later cfg h w h w' :=
  ⟨rfl, rfl, rfl, .refl _ _ _, hle⟩

/-- The tables say the same of all addresses of a page. -/
theorem frozenPage_samePage (hsame : SamePage a addr)
    (hfound : h.frozenPage cfg bus w type addr = .ok page ∨
      h.frozenPage cfg bus w type addr = .error .changed)
    (hsettled : h.Settled cfg bus w type a) : h.frozenPage cfg bus w type a = .ok page := by
  have hrefl : (h.regime cfg).Agrees h.prv h.v (h.regime cfg) := .refl _ _ _
  obtain hfound | hfound := hfound
  · exact ((frozen_later hrefl (.refl _ w) hsame.symm).1 page hfound).resolve_right hsettled
  · exact absurd ((frozen_later hrefl (.refl _ w) hsame.symm).2 hfound) hsettled

/-- A page on which the PMP entries agree is open when one of its bytes is. -/
theorem pmpOk_of_homogeneous {mode : Reg} (hpage : page &&& pageMask = 0#64)
    (hhom : h.pmp.pmpHomogeneous page 4096#64 = some true) (hpos : 0 < len)
    (hin : Pmp.InPage page a len)
    (hok : h.pmp.pmpOk a len type mode = true) {a' : Reg} {len' : Nat} (hpos' : 0 < len')
    (hin' : Pmp.InPage page a' len') : h.pmp.pmpOk a' len' type mode = true := by
  have h12 : h.pmp.pmpHomogeneous page (1#64 <<< 12) = some true := hhom
  have hmod := page_mod hpage
  have hgrants : h.pmp.pmpOk a len type mode = _ :=
    Pmp.pmpOk_eq_grants (by decide) h12 hpos fun j hj => Pmp.byteAt_div_of_inPage hmod hin hj
  rw [Pmp.pmpOk_eq_grants (by decide) h12 hpos' fun j hj => Pmp.byteAt_div_of_inPage hmod hin' hj,
    ← hgrants]
  exact hok

theorem page_or_and_not (hpage : page &&& pageMask = 0#64) (addr : Reg) :
    (page ||| (addr &&& pageMask)) &&& ~~~pageMask = page := by
  have hmod := page_mod hpage
  have hself : page &&& ~~~pageMask = page := by
    rw [← BitVec.zero_or (x := page &&& ~~~pageMask), ← hpage, ← BitVec.and_or_distrib_left,
      BitVec.or_not_self]
    exact BitVec.and_allOnes
  rw [BitVec.and_comm, BitVec.and_or_distrib_left, BitVec.and_comm _ page,
    hself, BitVec.and_comm, BitVec.and_assoc,
    BitVec.and_not_self]
  simp

/-- **Filling in** an entry after a walk. -/
theorem Tlb.Sound.refill (hs : t.Sound cfg bus h w) (hpos : 0 < len)
    (hlen : addr.toNat % 4096 + len ≤ 4096)
    (hwalk : translate (busMem bus (h.regime cfg)) (h.regime cfg)
      (h.privilege cfg) addr len type {} w = .ok paddr w')
    (hmem : bus.isMem paddr = true) (hrefill : t.refill cfg h addr paddr type = some t') :
    t'.Sound cfg bus h w' := by
  have hle : PtLe (h.regime cfg).pteSize w w' := by
    obtain ⟨page, hpage, -, -⟩ := translateAs_ok_iff.1 hwalk
    exact (walk_ptLe addr _ type _ false w).1 page w' hpage
  have hl : Hart.Later cfg h w h w' := later_of_ptLe hle
  have hkept : t.Sound cfg bus h w' := hs.later hl fun _ => id
  rw [Tlb.refill] at hrefill
  cases hmprv : (h.privilege cfg).inMprv with
  | true =>
    rw [if_pos hmprv] at hrefill
    exact Option.some.inj hrefill ▸ hkept
  | false =>
    rw [hmprv, if_neg Bool.false_ne_true] at hrefill
    obtain ⟨homogeneous, hhom, rfl⟩ := Option.map_eq_some_iff.1 hrefill
    rw [translate_eq hmprv] at hwalk
    obtain ⟨page, hfound, rfl, hpmp⟩ := translateAs_ok_iff.1 hwalk
    have hpage := HartMmu.walk_page hfound
    rw [page_or_and_not hpage] at hhom
    rw [isMem_page_or bus hpage] at hmem
    have hfrozen := frozen_of_walk hfound
    refine ⟨fun hin => absurd hin (by rw [hmprv]; exact Bool.false_ne_true), ?_, ?_, hs.checks⟩
    · intro ty a hhit hsettled
      obtain ⟨hsame, hdata, hold⟩ | ⟨hold, hdata⟩ := Tlb.hits_fill hhit
      · rw [hdata, sub_add_of_samePage hpage hsame]
        obtain hold | ⟨rfl, rfl⟩ := hold
        · -- the entry of another type of access stays, and leads to the same page
          obtain ⟨page', hleads, -⟩ := hkept.leads ty a hold hsettled
          have hsettled' : h.Settled cfg bus w' type a := by
            obtain hok | hrefused := frozen_type hleads.found type
            · rw [Hart.Settled, Hart.frozenPage, hok]
              simp
            · rw [Hart.Settled, Hart.frozenPage, hrefused]
              simp
          have hpage' := frozenPage_samePage hsame hfrozen hsettled'
          obtain hok | hrefused := frozen_type hleads.found type
          · rw [Hart.frozenPage, hok] at hpage'
            obtain rfl := Except.ok.inj hpage'
            exact ⟨page', hleads, rfl⟩
          · rw [Hart.frozenPage, hrefused] at hpage'
            cases hpage'
        · exact ⟨page, ⟨frozenPage_samePage hsame hfrozen hsettled, hmem, fun a' len' hpos' hin' =>
            pmpOk_of_homogeneous hpage hhom hpos (inPage_page_or hpage hlen) hpmp hpos' hin'⟩, rfl⟩
      · rw [hdata]
        exact hkept.leads ty a hold hsettled
    · intro ty a hskip
      obtain hold | hoff := Tlb.skips_fill hskip
      · exact hs.skips ty a hold
      · exact hoff

end Translations

end Nnemu

import Nnemu.Fesvr.Memif

/-!
# Any range, in aligned chunks

A target is expected to be exact on accesses that are `Legal`: aligned, inside the address space
and, unless they clear, no longer than the chunks it takes. The transfers of `memif_t` issue no
others, and move exactly the bytes of the range: `memif_exact`.

`Leads` says of a program what it has done to the memory of the target and of the host, and that all
its accesses were legal. It composes, so a transfer is taken apart as the source has it: the chunk
at the head, the chunks in between, the chunk at the tail. Ranges are by subtraction, as in
`Lib.Overwrite`, and wrap around the address space where the source lets them.
-/

namespace Nnemu

open Overwrite Rounds

namespace ChunkedMemif

variable {σ : Type} {c : ChunkedMemif σ} {mem : σ → ByteMem}

/-! ### What is asked of a target -/

/-- The sizes of a target. -/
structure Sizes (c : ChunkedMemif σ) (k : Nat) : Prop where
  align : c.chunkAlign.toNat = 2 ^ k
  max_pos : 0 < c.chunkMaxSize.toNat
  max_dvd : 2 ^ k ∣ c.chunkMaxSize.toNat

/-- A range of aligned chunks inside the address space. -/
structure Aligned (k : Nat) (taddr len : BitVec 64) : Prop where
  addr_dvd : 2 ^ k ∣ taddr.toNat
  len_dvd : 2 ^ k ∣ len.toNat
  inside : taddr.toNat + len.toNat ≤ 2 ^ 64

/-- An access that a target has to serve. -/
def Legal (c : ChunkedMemif σ) (k : Nat) : ChunkAccess → Prop
  | .read taddr len => Aligned k taddr len ∧ len ≤ c.chunkMaxSize
  | .write taddr len => Aligned k taddr len ∧ len ≤ c.chunkMaxSize
  | .clear taddr len => Aligned k taddr len

/-- A loop over `len` bytes is over before its position wraps around. -/
def Room (c : ChunkedMemif σ) (len : Nat) : Prop :=
  ∀ pos, c.chunkMaxSize.toNat ∣ pos → pos < len → pos + c.chunkMaxSize.toNat < 2 ^ 64

theorem Room.mono {x y : Nat} (h : c.Room y) (hle : x ≤ y) : c.Room x :=
  fun pos hdvd hlt => h pos hdvd (Nat.lt_of_lt_of_le hlt hle)

/-- **An exact target**: a legal access moves the given bytes of an array, and no others. -/
structure Exact (c : ChunkedMemif σ) (k : Nat) (mem : σ → ByteMem) : Prop where
  read : ∀ taddr len t, c.Legal k (.read taddr len) →
    (c.readChunk taddr len t).1 = slice (mem t) taddr len.toNat ∧
      mem (c.readChunk taddr len t).2 = mem t
  write : ∀ taddr len src t, c.Legal k (.write taddr len) → src.length = len.toNat →
    mem (c.writeChunk taddr len src t) = overwrite (mem t) taddr src
  clear : ∀ taddr len t, c.Legal k (.clear taddr len) →
    mem (c.clearChunk taddr len t) = overwrite (mem t) taddr (List.replicate len.toNat 0#8)

/-- Where a transfer leads: to these memories, by accesses of which `P` holds. -/
structure Leads (P : ChunkAccess → Prop) (mem : σ → ByteMem) (r : ChunkRun σ)
    (target host : ByteMem) (r' : ChunkRun σ) :
    Prop where
  target : mem r'.target = target
  host : r'.host = host
  issued : ∃ accesses, r'.issued = r.issued ++ accesses ∧ ∀ a ∈ accesses, P a

variable {P : ChunkAccess → Prop} {k fuel : Nat} {r r' r'' : ChunkRun σ}
  {target host target' : ByteMem}

theorem Leads.refl (P : ChunkAccess → Prop) (mem : σ → ByteMem) (r : ChunkRun σ) :
    Leads P mem r (mem r.target) r.host r :=
  ⟨rfl, rfl, [], (List.append_nil _).symm, fun _ h => absurd h List.not_mem_nil⟩

/-- One access more. -/
theorem Leads.access {a : ChunkAccess} (h : Leads P mem r target host r')
    (ha : P a) (htarget : mem r''.target = target')
    (hhost : r''.host = r'.host) (hissued : r''.issued = r'.issued ++ [a]) :
    Leads P mem r target' host r'' := by
  obtain ⟨accesses, heq, hall⟩ := h.issued
  refine ⟨htarget, hhost.trans h.host, accesses ++ [a], ?_, fun b hb => ?_⟩
  · rw [hissued, heq, List.append_assoc]
  · obtain hb | hb := List.mem_append.1 hb
    · exact hall b hb
    · exact List.mem_singleton.1 hb ▸ ha

/-! ### Statements -/

theorem ends_load (hx : Exact c k mem) {taddr len : BitVec 64} (hl : c.Legal k (.read taddr len))
    (h : Leads (c.Legal k) mem r target host r') : Ends (c.load taddr len) r' fun chunk r'' =>
      chunk = slice target taddr len.toNat ∧ Leads (c.Legal k) mem r target host r'' := by
  obtain ⟨hchunk, hmem⟩ := hx.read taddr len r'.target hl
  rw [h.target] at hchunk hmem
  exact ⟨_, _, rfl, hchunk, h.access hl hmem rfl rfl⟩

theorem ends_store (hx : Exact c k mem) {taddr len : BitVec 64} {src : List (BitVec 8)}
    (hl : c.Legal k (.write taddr len)) (hP : P (.write taddr len)) (hlen : src.length = len.toNat)
    (h : Leads P mem r target host r') :
    Ends (c.store taddr len src) r' fun _ r'' => Leads P mem r (overwrite target taddr src)
      host r'' := by
  have hmem := hx.write taddr len src r'.target hl hlen
  rw [h.target] at hmem
  exact ⟨_, _, rfl, h.access hP hmem rfl rfl⟩

theorem ends_clear (hx : Exact c k mem) {taddr len : BitVec 64} (hl : c.Legal k (.clear taddr len))
    (h : Leads (c.Legal k) mem r target host r') : Ends (c.clear taddr len) r' fun _ r'' =>
      Leads (c.Legal k) mem r (overwrite target taddr (List.replicate len.toNat 0#8)) host r'' := by
  have hmem := hx.clear taddr len r'.target hl
  rw [h.target] at hmem
  exact ⟨_, _, rfl, h.access hl hmem rfl rfl⟩

theorem ends_memcpy {dst : BitVec 64} {src : List (BitVec 8)} (h : Leads P mem r target host r') :
    Ends (memcpy dst src) r' fun _ r'' => Leads P mem r target (overwrite host dst src) r'' :=
  ⟨_, _, rfl, h.target, congrArg (overwrite · dst src) h.host, h.issued⟩

theorem ends_hostBytes {src len : BitVec 64} (h : Leads P mem r target host r') :
    Ends (hostBytes src len) r' fun bytes r'' => bytes = slice host src len.toNat ∧
    Leads P mem r target host r'' :=
  ⟨_, _, rfl, congrArg (slice · src len.toNat) h.host, h⟩

/-! ### Alignment -/

variable (hs : Sizes c k)

include hs

theorem lt_of_sizes : k < 64 := by
  have hlt := c.chunkAlign.isLt
  rw [hs.align] at hlt
  exact (Nat.pow_lt_pow_iff_right (by decide : 1 < 2)).1 hlt

theorem toNat_low (addr : BitVec 64) : (c.low addr).toNat = addr.toNat % 2 ^ k := by
  have hlt := Nat.pow_lt_pow_right (by decide : 1 < 2) (lt_of_sizes hs)
  have hpos := Nat.two_pow_pos k
  have halign := hs.align
  have hmask : (c.chunkAlign - 1#64).toNat = 2 ^ k - 1 := by
    rw [BitVec.toNat_sub, halign, BitVec.toNat_ofNat]
    omega
  rw [low, BitVec.toNat_and, hmask, Nat.and_two_pow_sub_one_eq_mod]

omit hs in
/-- An address is a boundary and a rest. -/
theorem base_add_low (addr : BitVec 64) : c.base addr + c.low addr = addr := by
  have hand : c.base addr &&& c.low addr = 0#64 := by
    ext i hi
    simp only [base, low, BitVec.getElem_and, BitVec.getElem_not, BitVec.getElem_zero]
    cases addr[i] <;> cases (c.chunkAlign - 1#64)[i] <;> rfl
  rw [BitVec.add_eq_or_of_and_eq_zero _ _ hand]
  ext i hi
  simp only [base, low, BitVec.getElem_or, BitVec.getElem_and, BitVec.getElem_not]
  cases addr[i] <;> cases (c.chunkAlign - 1#64)[i] <;> rfl

theorem toNat_base (addr : BitVec 64) : (c.base addr).toNat = addr.toNat - addr.toNat % 2 ^ k := by
  have hle : (c.base addr).toNat ≤ addr.toNat := by
    rw [base, BitVec.toNat_and]
    exact Nat.and_le_left
  have hmod := Nat.mod_le addr.toNat (2 ^ k)
  have hlt := addr.isLt
  have hsum := congrArg BitVec.toNat (base_add_low (c := c) addr)
  rw [BitVec.toNat_add, toNat_low hs] at hsum
  omega

omit hs in
theorem toNat_sizeMin (a b : BitVec 64) : (sizeMin a b).toNat = min a.toNat b.toNat := by
  rw [sizeMin]
  split
  · rename_i h
    exact (Nat.min_eq_right (Nat.le_of_lt h)).symm
  · rename_i h
    exact (Nat.min_eq_left (Nat.le_of_not_lt h)).symm

theorem hasHead_iff (addr len : BitVec 64) : c.hasHead addr len = true ↔
    len.toNat ≠ 0 ∧ addr.toNat % 2 ^ k ≠ 0 := by
  have hne (x : BitVec 64) : (x != 0#64) = true ↔ x.toNat ≠ 0 := by
    rw [bne_iff_ne, ne_eq, ← BitVec.toNat_inj]
    rfl
  rw [hasHead, Bool.and_eq_true, hne, hne, toNat_low hs]

/-- The length of the head. -/
theorem toNat_headLen (addr len : BitVec 64) : (c.headLen addr len).toNat =
    if len.toNat ≠ 0 ∧ addr.toNat % 2 ^ k ≠ 0 then min len.toNat (2 ^ k - addr.toNat % 2 ^ k)
      else 0 := by
  have hmod := Nat.mod_lt addr.toNat (Nat.two_pow_pos k)
  have halign := hs.align
  have hlt := c.chunkAlign.isLt
  have hrest : (c.chunkAlign - c.low addr).toNat = 2 ^ k - addr.toNat % 2 ^ k := by
    rw [BitVec.toNat_sub, toNat_low hs, halign]
    omega
  rw [headLen]
  by_cases h : c.hasHead addr len = true
  · rw [if_pos h, if_pos ((hasHead_iff hs addr len).1 h), toNat_sizeMin, hrest]
  · rw [if_neg h, if_neg (mt (hasHead_iff hs addr len).2 h)]
    rfl

/-! ### Loops -/

/-- **A loop over chunks.** What one round takes from `pos` to the end of its chunk, all rounds take
from the start to the end. -/
theorem ends_chunkLoop {len : BitVec 64} {body : BitVec 64 → BitVec 64 → ChunkM σ Unit}
    {I : Nat → ChunkRun σ → Prop}
    (hlen : c.Room len.toNat) (hdvd : 2 ^ k ∣ len.toNat)
    (hstep : ∀ pos n r, 2 ^ k ∣ pos.toNat → 2 ^ k ∣ n.toNat → 0 < n.toNat → n ≤ c.chunkMaxSize →
      pos.toNat + n.toNat ≤ len.toNat → I pos.toNat r →
      Ends (body pos n) r fun _ r' => I (pos.toNat + n.toNat) r')
    {pos : BitVec 64} (hfuel : len.toNat - pos.toNat < fuel)
    (hpos : c.chunkMaxSize.toNat ∣ pos.toNat)
    (hI : I (min pos.toNat len.toNat) r) :
    Ends (c.chunkLoop len body fuel pos) r fun _ r' => I len.toNat r' := by
  -- the invariant counts the bytes that are moved: they end with the range, the position with the
  -- last chunk
  induction fuel generalizing pos r with
  | zero => exact absurd hfuel (Nat.not_lt_zero _)
  | succ fuel ih =>
    have hmax := hs.max_pos
    rw [chunkLoop]
    refine ends_ite (fun hlt => ?_) fun hge => ?_
    · have hlt : pos.toNat < len.toNat := hlt
      have hsub : (len - pos).toNat = len.toNat - pos.toNat :=
        BitVec.toNat_sub_of_le (Nat.le_of_lt hlt)
      have hn := toNat_sizeMin c.chunkMaxSize (len - pos)
      rw [hsub] at hn
      have hnext : (pos + c.chunkMaxSize).toNat = pos.toNat + c.chunkMaxSize.toNat := by
        rw [BitVec.toNat_add, Nat.mod_eq_of_lt (hlen pos.toNat hpos hlt)]
      have hposdvd : 2 ^ k ∣ pos.toNat := hs.max_dvd.trans hpos
      have hndvd : 2 ^ k ∣ (sizeMin c.chunkMaxSize (len - pos)).toNat := by
        rw [hn, Nat.min_def]
        split
        · exact hs.max_dvd
        · exact Nat.dvd_sub hdvd hposdvd
      rw [Nat.min_eq_left (Nat.le_of_lt hlt)] at hI
      have hbody := hstep pos _ r hposdvd hndvd (by omega) (show _ ≤ c.chunkMaxSize.toNat by omega)
        (by omega) hI
      refine hbody.bind fun _ r' hI' => ih ?_ ?_ ?_
      · omega
      · rw [hnext]
        exact Nat.dvd_add hpos (Nat.dvd_refl _)
      · rw [hnext]
        have hmin : min (pos.toNat + c.chunkMaxSize.toNat) len.toNat =
            pos.toNat + (sizeMin c.chunkMaxSize (len - pos)).toNat := by omega
        rwa [hmin]
    · rw [Nat.min_eq_right (Nat.le_of_not_lt hge)] at hI
      exact ends_pure hI

/-- All rounds, from the start. -/
theorem ends_chunks {len : BitVec 64} {body : BitVec 64 → BitVec 64 → ChunkM σ Unit}
    {I : Nat → ChunkRun σ → Prop}
    (hlen : c.Room len.toNat) (hdvd : 2 ^ k ∣ len.toNat)
    (hstep : ∀ pos n r, 2 ^ k ∣ pos.toNat → 2 ^ k ∣ n.toNat → 0 < n.toNat → n ≤ c.chunkMaxSize →
      pos.toNat + n.toNat ≤ len.toNat → I pos.toNat r →
      Ends (body pos n) r fun _ r' => I (pos.toNat + n.toNat) r')
    (hfuel : len.toNat < fuel) (hI : I 0 r) :
    Ends (c.chunkLoop len body fuel 0#64) r fun _ r' => I len.toNat r' := by
  refine ends_chunkLoop hs hlen hdvd hstep ?_ (Nat.dvd_zero _) ?_
  · rwa [BitVec.toNat_zero, Nat.sub_zero]
  · rwa [BitVec.toNat_zero, Nat.zero_min]

/-! ### Between the two ends -/

omit hs in
theorem ofNat_toNat (x : BitVec 64) : BitVec.ofNat 64 x.toNat = x := by
  rw [BitVec.ofNat_toNat, BitVec.setWidth_eq]

omit hs in
/-- Aligned chunks, or nothing anywhere. -/
def Spans (k : Nat) (addr len : BitVec 64) : Prop :=
  len.toNat = 0 ∨ Aligned k addr len

omit hs in
theorem Spans.len_dvd {addr len : BitVec 64} (h : Spans k addr len) : 2 ^ k ∣ len.toNat := by
  obtain hzero | h := h
  · exact hzero ▸ Nat.dvd_zero _
  · exact h.len_dvd

omit hs in
/-- A chunk of an aligned range. -/
theorem Spans.chunk {addr len pos n : BitVec 64} (h : Spans k addr len) (hpos : 2 ^ k ∣ pos.toNat)
    (hn : 2 ^ k ∣ n.toNat) (hpositive : 0 < n.toNat) (hle : pos.toNat + n.toNat ≤ len.toNat) :
    Aligned k (addr + pos) n := by
  obtain hzero | h := h
  · omega
  have hinside := h.inside
  have hsum : (addr + pos).toNat = addr.toNat + pos.toNat := by
    rw [BitVec.toNat_add, Nat.mod_eq_of_lt (by omega)]
  exact ⟨hsum ▸ Nat.dvd_add h.addr_dvd hpos, hn, by omega⟩

omit hs in
/-- A range that is continued by a chunk. -/
theorem overwrite_slice_add {m m' : ByteMem} {dst src pos n : BitVec 64}
    (h : pos.toNat + n.toNat ≤ 2 ^ 64) :
    overwrite (overwrite m dst (slice m' src pos.toNat)) (dst + pos)
    (slice m' (src + pos) n.toNat) =
      overwrite m dst (slice m' src (pos.toNat + n.toNat)) := by
  have hlen : (slice m' src pos.toNat).length + (slice m' (src + pos) n.toNat).length ≤ 2 ^ 64 := by
    rwa [length_slice, length_slice]
  rw [slice_add, ofNat_toNat, ← overwrite_append hlen, length_slice, ofNat_toNat]

theorem ends_readAligned (hx : Exact c k mem) {addr len : BitVec 64} (bytes : BitVec 64)
    (ha : Spans k addr len)
    (hlen : c.Room len.toNat) (hfuel : len.toNat < fuel)
    (h : Leads (c.Legal k) mem r target host r') :
    Ends (c.readAligned fuel addr len bytes) r' fun _ r'' =>
      Leads (c.Legal k) mem r target (overwrite host bytes (slice target addr len.toNat)) r'' := by
  refine ends_chunks hs hlen ha.len_dvd
    (I := fun q r'' => Leads (c.Legal k) mem r target
      (overwrite host bytes (slice target addr q)) r'') ?_ hfuel ?_
  · intro pos n r₁ hpos hn hpositive hmax hle hI
    have hl : c.Legal k (.read (addr + pos) n) := ⟨ha.chunk hpos hn hpositive hle, hmax⟩
    refine (ends_load hx hl hI).bind fun chunk r₂ hload => ?_
    obtain ⟨rfl, hleads⟩ := hload
    rw [← overwrite_slice_add (by omega)]
    exact ends_memcpy hleads
  · rw [slice_zero, overwrite_nil]
    exact h

/-- The loop of a write, when the range is not all zeros. -/
theorem ends_storeLoop (hx : Exact c k mem) {addr len bytes : BitVec 64} (ha : Spans k addr len)
    (hlen : c.Room len.toNat) (hfuel : len.toNat < fuel)
    (h : Leads (c.Legal k) mem r target host r') :
    Ends (c.chunkLoop len (fun pos n => do
        let src ← hostBytes (bytes + pos) n
        c.store (addr + pos) n src) fuel 0#64) r' fun _ r'' =>
      Leads (c.Legal k) mem r (overwrite target addr (slice host bytes len.toNat)) host r'' := by
  refine ends_chunks hs hlen ha.len_dvd
    (I := fun q r'' => Leads (c.Legal k) mem r
      (overwrite target addr (slice host bytes q)) host r'') ?_ hfuel ?_
  · intro pos n r₁ hpos hn hpositive hmax hle hI
    have hl : c.Legal k (.write (addr + pos) n) := ⟨ha.chunk hpos hn hpositive hle, hmax⟩
    refine (ends_hostBytes hI).bind fun src r₂ hsrc => ?_
    obtain ⟨rfl, hleads⟩ := hsrc
    rw [← overwrite_slice_add (by omega)]
    exact ends_store hx hl hl length_slice hleads
  · rw [slice_zero, overwrite_nil]
    exact h

omit hs in
/-- Bytes that are all zero. -/
theorem eq_replicate_of_all {src : List (BitVec 8)} (h : src.all (· == 0#8) = true) :
    src = List.replicate src.length 0#8 :=
  List.eq_replicate_iff.2 ⟨rfl, fun b hb => beq_iff_eq.1 (List.all_eq_true.1 h b hb)⟩

theorem ends_writeAligned (hx : Exact c k mem) {addr len : BitVec 64} (bytes : BitVec 64)
    (ha : Spans k addr len)
    (hlen : c.Room len.toNat) (hfuel : len.toNat < fuel)
    (h : Leads (c.Legal k) mem r target host r') :
    Ends (c.writeAligned fuel addr len bytes) r' fun _ r'' =>
      Leads (c.Legal k) mem r (overwrite target addr (slice host bytes len.toNat)) host r'' := by
  refine (ends_hostBytes h).bind fun src r₁ hsrc => ?_
  obtain ⟨rfl, hleads⟩ := hsrc
  refine ends_ite (fun hzero => ?_) fun _ => ends_storeLoop hs hx ha hlen hfuel hleads
  -- zeros, and at least one of them
  have haligned : Aligned k addr len := ha.resolve_left fun h => hzero.1 (BitVec.eq_of_toNat_eq h)
  have hreplicate := eq_replicate_of_all hzero.2
  rw [length_slice] at hreplicate
  rw [hreplicate]
  exact ends_clear hx haligned hleads

/-- `htif_t::clear_chunk` clears by writing, and only by writing. -/
theorem ends_htifClearChunk (hx : Exact c k mem) {addr len : BitVec 64} (ha : Spans k addr len)
    (hlen : c.Room len.toNat) (hfuel : len.toNat < fuel)
    (hP : ∀ taddr n, c.Legal k (.write taddr n) → P (.write taddr n))
    (h : Leads P mem r target host r') : Ends (c.htifClearChunk fuel addr len) r' fun _ r'' =>
      Leads P mem r (overwrite target addr (List.replicate len.toNat 0#8)) host r'' := by
  refine ends_chunks hs hlen ha.len_dvd
    (I := fun q r'' => Leads P mem r (overwrite target addr (List.replicate q 0#8)) host r'')
      ?_ hfuel ?_
  · intro pos n r₁ hpos hn hpositive hmax hle hI
    have hl : c.Legal k (.write (addr + pos) n) := ⟨ha.chunk hpos hn hpositive hle, hmax⟩
    have hlength : (List.replicate pos.toNat 0#8).length + (List.replicate n.toNat 0#8).length ≤
        2 ^ 64 := by
      rw [List.length_replicate, List.length_replicate]
      omega
    rw [← List.replicate_append_replicate, ← overwrite_append hlength,
      List.length_replicate, ofNat_toNat]
    exact ends_store hx hl (hP _ _ hl) List.length_replicate hI
  · rw [List.replicate_zero, overwrite_nil]
    exact h

/-! ### The two ends -/

omit hs in
/-- A boundary has room for a chunk behind it. -/
theorem add_le_of_dvd {x : Nat} (hk : k < 64) (hdvd : 2 ^ k ∣ x) (hlt : x < 2 ^ 64) :
    x + 2 ^ k ≤ 2 ^ 64 := by
  have hroom : 2 ^ k ∣ 2 ^ 64 - x := Nat.dvd_sub (Nat.pow_dvd_pow 2 (Nat.le_of_lt hk)) hdvd
  have hle := Nat.le_of_dvd (by omega) hroom
  omega

/-- The chunk at a boundary. -/
theorem aligned_chunk {taddr : BitVec 64} (hdvd : 2 ^ k ∣ taddr.toNat) :
    Aligned k taddr c.chunkAlign ∧ c.chunkAlign ≤ c.chunkMaxSize := by
  refine ⟨⟨hdvd, hs.align ▸ Nat.dvd_refl _, ?_⟩, ?_⟩
  · rw [hs.align]
    exact add_le_of_dvd (lt_of_sizes hs) hdvd taddr.isLt
  · rw [BitVec.le_def, hs.align]
    exact Nat.le_of_dvd hs.max_pos hs.max_dvd

theorem base_dvd (addr : BitVec 64) : 2 ^ k ∣ (c.base addr).toNat := by
  rw [toNat_base hs]
  exact Nat.dvd_sub_mod _

/-- The head lies in the chunk of its address. -/
theorem low_add_headLen_le {addr len : BitVec 64} (h : c.hasHead addr len = true) :
    (c.low addr).toNat + (c.headLen addr len).toNat ≤ c.chunkAlign.toNat := by
  have hmod := Nat.mod_lt addr.toNat (Nat.two_pow_pos k)
  rw [toNat_low hs, toNat_headLen hs, if_pos ((hasHead_iff hs addr len).1 h), hs.align]
  omega

omit hs in
theorem headLen_of_not {addr len : BitVec 64} (h : ¬c.hasHead addr len = true) :
    (c.headLen addr len).toNat = 0 := by
  rw [headLen, if_neg h]
  rfl

theorem ends_readHead (hx : Exact c k mem) {addr len bytes : BitVec 64}
    (h : Leads (c.Legal k) mem r target host r') :
    Ends (c.readHead addr len bytes) r' fun _ r'' =>
      Leads (c.Legal k) mem r target
      (overwrite host bytes (slice target addr (c.headLen addr len).toNat)) r'' := by
  refine ends_ite (fun hhead => ?_) fun hnot => ?_
  · have hle := low_add_headLen_le hs hhead
    refine (ends_load hx (aligned_chunk hs (base_dvd hs addr)) h).bind fun chunk r₁ hload => ?_
    obtain ⟨rfl, hleads⟩ := hload
    -- the head is cut out of the chunk around it
    have htake :
        ((slice target (c.base addr) c.chunkAlign.toNat).drop (c.low addr).toNat).take
          (c.headLen addr len).toNat =
          slice target addr (c.headLen addr len).toNat := by
      rw [drop_slice, ofNat_toNat, base_add_low, take_slice (by omega)]
    rw [htake]
    exact ends_memcpy hleads
  · rw [headLen_of_not hnot, slice_zero, overwrite_nil]
    exact ends_pure h

theorem ends_writeHead (hx : Exact c k mem) {addr len bytes : BitVec 64}
    (h : Leads (c.Legal k) mem r target host r') :
    Ends (c.writeHead addr len bytes) r' fun _ r'' =>
      Leads (c.Legal k) mem r (overwrite target addr (slice host bytes (c.headLen addr len).toNat))
        host r'' := by
  refine ends_ite (fun hhead => ?_) fun hnot => ?_
  · have hle := low_add_headLen_le hs hhead
    have hl : c.Legal k (.write (c.base addr) c.chunkAlign) := aligned_chunk hs (base_dvd hs addr)
    refine (ends_load hx (aligned_chunk hs (base_dvd hs addr)) h).bind fun chunk r₁ hload => ?_
    obtain ⟨rfl, hleads⟩ := hload
    refine (ends_hostBytes hleads).bind fun src r₂ hsrc => ?_
    obtain ⟨rfl, hleads⟩ := hsrc
    have hfits : (c.low addr).toNat + (slice host bytes (c.headLen addr len).toNat).length ≤
        c.chunkAlign.toNat := by
      rwa [length_slice]
    -- the chunk goes back with the head replaced, which is a write of the head
    have hsplice := overwrite_splice target (c.base addr) hfits (Nat.le_of_lt c.chunkAlign.isLt)
    rw [ofNat_toNat, base_add_low] at hsplice
    rw [← hsplice]
    refine ends_store hx hl hl ?_ hleads
    rw [List.length_append, List.length_append, List.length_take, List.length_drop,
      length_slice, length_slice]
    omega
  · rw [headLen_of_not hnot, slice_zero, overwrite_nil]
    exact ends_pure h

/-- What is behind the head starts at a boundary, or there is nothing. -/
def Behind (k : Nat) (addr len : BitVec 64) : Prop :=
  len.toNat = 0 ∨ (2 ^ k ∣ addr.toNat ∧ addr.toNat + len.toNat ≤ 2 ^ 64)

theorem headLen_le (addr len : BitVec 64) : (c.headLen addr len).toNat ≤ len.toNat := by
  rw [toNat_headLen hs]
  split
  · exact Nat.min_le_left _ _
  · exact Nat.zero_le _

theorem behind_headLen {addr len : BitVec 64} (hinside : addr.toNat + len.toNat ≤ 2 ^ 64) :
    Behind k (addr + c.headLen addr len) (len - c.headLen addr len) := by
  have hle := headLen_le hs addr len
  have hmod := Nat.mod_lt addr.toNat (Nat.two_pow_pos k)
  have hhead := toNat_headLen hs addr len
  have hsub : (len - c.headLen addr len).toNat = len.toNat - (c.headLen addr len).toNat :=
    BitVec.toNat_sub_of_le hle
  rw [Behind, hsub]
  by_cases hall : len.toNat - (c.headLen addr len).toNat = 0
  · exact Or.inl hall
  have hsum : (addr + c.headLen addr len).toNat = addr.toNat + (c.headLen addr len).toNat := by
    rw [BitVec.toNat_add, Nat.mod_eq_of_lt (by omega)]
  refine Or.inr ⟨?_, by omega⟩
  rw [hsum]
  split at hhead
  · -- the head ends at the next boundary
    have hnext : addr.toNat + (c.headLen addr len).toNat = (addr.toNat - addr.toNat % 2 ^ k) +
        2 ^ k := by
      have hmodle := Nat.mod_le addr.toNat (2 ^ k)
      omega
    rw [hnext]
    exact Nat.dvd_add (Nat.dvd_sub_mod _) (Nat.dvd_refl _)
  · have hzero : addr.toNat % 2 ^ k = 0 := by
      by_contra hne
      exact absurd (⟨by omega, hne⟩ : len.toNat ≠ 0 ∧ addr.toNat % 2 ^ k ≠ 0) ‹_›
    rw [hhead, Nat.add_zero]
    exact Nat.dvd_of_mod_eq_zero hzero

/-- Where the tail starts. -/
theorem toNat_sub_low (len : BitVec 64) :
    (len - c.low len).toNat = len.toNat - len.toNat % 2 ^ k := by
  have hle : (c.low len).toNat ≤ len.toNat := toNat_low hs len ▸ Nat.mod_le _ _
  rw [BitVec.toNat_sub_of_le hle, toNat_low hs]

/-- The chunk of the tail. -/
theorem tail_dvd {addr len : BitVec 64} (hb : Behind k addr len) (hne : c.low len ≠ 0#64) :
    2 ^ k ∣ (addr + (len - c.low len)).toNat := by
  have hstart := toNat_sub_low hs len
  have hpos : len.toNat % 2 ^ k ≠ 0 :=
    fun h => hne (BitVec.eq_of_toNat_eq ((toNat_low hs len).trans h))
  have hmod := Nat.mod_le len.toNat (2 ^ k)
  obtain hzero | ⟨hdvd, hinside⟩ := hb
  · rw [hzero] at hpos
    exact absurd (Nat.zero_mod _) hpos
  · rw [BitVec.toNat_add, Nat.mod_eq_of_lt (by omega), hstart]
    exact Nat.dvd_add hdvd (Nat.dvd_sub_mod _)

theorem ends_readTail (hx : Exact c k mem) {addr len bytes : BitVec 64} (hb : Behind k addr len)
    (h : Leads (c.Legal k) mem r target host r') : Ends (c.readTail addr len bytes) r' fun _ r'' =>
      Leads (c.Legal k) mem r target
        (overwrite host (bytes + (len - c.low len))
          (slice target (addr + (len - c.low len)) (c.low len).toNat)) r'' := by
  refine ends_ite (fun hne => ?_) fun hnot => ?_
  · refine (ends_load hx (aligned_chunk hs (tail_dvd hs hb hne)) h).bind fun chunk r₁ hload => ?_
    obtain ⟨rfl, hleads⟩ := hload
    have hle : (c.low len).toNat ≤ c.chunkAlign.toNat := by
      rw [toNat_low hs, hs.align]
      exact Nat.le_of_lt (Nat.mod_lt _ (Nat.two_pow_pos k))
    rw [take_slice hle]
    exact ends_memcpy hleads
  · rw [not_not.1 hnot, BitVec.toNat_zero, slice_zero, overwrite_nil]
    exact ends_pure h

theorem ends_writeTail (hx : Exact c k mem) {addr len bytes : BitVec 64} (hb : Behind k addr len)
    (h : Leads (c.Legal k) mem r target host r') : Ends (c.writeTail addr len bytes) r' fun _ r'' =>
      Leads (c.Legal k) mem r
        (overwrite target (addr + (len - c.low len))
          (slice host (bytes + (len - c.low len)) (c.low len).toNat))
        host r'' := by
  refine ends_ite (fun hne => ?_) fun hnot => ?_
  · have hl := aligned_chunk hs (tail_dvd hs hb hne)
    have hle : (c.low len).toNat ≤ c.chunkAlign.toNat := by
      rw [toNat_low hs, hs.align]
      exact Nat.le_of_lt (Nat.mod_lt _ (Nat.two_pow_pos k))
    refine (ends_load hx hl h).bind fun chunk r₁ hload => ?_
    obtain ⟨rfl, hleads⟩ := hload
    refine (ends_hostBytes hleads).bind fun src r₂ hsrc => ?_
    obtain ⟨rfl, hleads⟩ := hsrc
    have hfits : 0 + (slice host (bytes + (len - c.low len)) (c.low len).toNat).length ≤
        c.chunkAlign.toNat := by
      rwa [length_slice, Nat.zero_add]
    -- a tail starts its chunk: nothing is in front of it
    have hsplice := overwrite_splice target (addr + (len - c.low len)) hfits
      (Nat.le_of_lt c.chunkAlign.isLt)
    rw [List.take_zero, List.nil_append, Nat.zero_add, BitVec.add_zero] at hsplice
    rw [← hsplice]
    refine ends_store hx hl hl ?_ hleads
    rw [List.length_append, List.length_drop, length_slice, length_slice]
    omega
  · rw [not_not.1 hnot, BitVec.toNat_zero, slice_zero, overwrite_nil]
    exact ends_pure h

/-! ### Whole transfers -/

omit hs in
/-- The tail is moved before what lies in front of it. -/
theorem overwrite_tail_first {m m' : ByteMem} {dst src start n : BitVec 64}
    (h : start.toNat + n.toNat ≤ 2 ^ 64) :
    overwrite (overwrite m (dst + start) (slice m' (src + start) n.toNat))
      dst (slice m' src start.toNat) =
      overwrite m dst (slice m' src (start.toNat + n.toNat)) := by
  have hfirst : (slice m' src start.toNat).length ≤ start.toNat := Nat.le_of_eq length_slice
  have hsecond : start.toNat + (slice m' (src + start) n.toNat).length ≤ 2 ^ 64 :=
    by rwa [length_slice]
  have hcomm := overwrite_comm m dst start.isLt hfirst hsecond
  rw [ofNat_toNat] at hcomm
  rw [hcomm, overwrite_slice_add h]

/-- The middle of what is behind the head. -/
theorem spans_middle {addr len : BitVec 64} (hb : Behind k addr len) :
    Spans k addr (len - c.low len) := by
  have hstart := toNat_sub_low hs len
  obtain hzero | ⟨hdvd, hinside⟩ := hb
  · exact Or.inl (by omega)
  · refine Or.inr ⟨hdvd, ?_, by omega⟩
    rw [hstart]
    exact Nat.dvd_sub_mod _

/-- The middle and the tail are all of it. -/
theorem middle_add_tail (len : BitVec 64) :
    (len - c.low len).toNat + (c.low len).toNat = len.toNat := by
  have hmod := Nat.mod_le len.toNat (2 ^ k)
  rw [toNat_sub_low hs, toNat_low hs, Nat.sub_add_cancel hmod]

theorem middle_le (len : BitVec 64) : (len - c.low len).toNat ≤ len.toNat :=
  middle_add_tail hs len ▸ Nat.le_add_right _ _

theorem ends_readRest (hx : Exact c k mem) {addr len : BitVec 64} (bytes : BitVec 64)
    (hb : Behind k addr len)
    (hlen : c.Room len.toNat) (hfuel : len.toNat < fuel)
    (h : Leads (c.Legal k) mem r target host r') :
    Ends (c.readRest fuel addr len bytes) r' fun _ r'' =>
      Leads (c.Legal k) mem r target (overwrite host bytes (slice target addr len.toNat)) r'' := by
  have hsum := middle_add_tail hs len
  have hmiddle := middle_le hs len
  refine (ends_readTail hs hx hb h).bind fun _ r₁ htail => ?_
  -- the code moves the tail before the middle
  have hbody := ends_readAligned hs hx bytes (spans_middle hs hb) (hlen.mono hmiddle)
    (Nat.lt_of_le_of_lt hmiddle hfuel) htail
  rwa [overwrite_tail_first (hsum ▸ Nat.le_of_lt len.isLt), hsum] at hbody

theorem ends_writeRest (hx : Exact c k mem) {addr len : BitVec 64} (bytes : BitVec 64)
    (hb : Behind k addr len)
    (hlen : c.Room len.toNat) (hfuel : len.toNat < fuel)
    (h : Leads (c.Legal k) mem r target host r') :
    Ends (c.writeRest fuel addr len bytes) r' fun _ r'' =>
      Leads (c.Legal k) mem r (overwrite target addr (slice host bytes len.toNat)) host r'' := by
  have hsum := middle_add_tail hs len
  have hmiddle := middle_le hs len
  refine (ends_writeTail hs hx hb h).bind fun _ r₁ htail => ?_
  have hbody := ends_writeAligned hs hx bytes (spans_middle hs hb) (hlen.mono hmiddle)
    (Nat.lt_of_le_of_lt hmiddle hfuel) htail
  rwa [overwrite_tail_first (hsum ▸ Nat.le_of_lt len.isLt), hsum] at hbody

/-- What is behind the head, and the head, are all of it. -/
theorem headLen_add_rest (addr len : BitVec 64) :
    (c.headLen addr len).toNat + (len - c.headLen addr len).toNat = len.toNat := by
  have hle := headLen_le hs addr len
  rw [BitVec.toNat_sub_of_le hle, Nat.add_sub_cancel' hle]

theorem ends_read (hx : Exact c k mem) {addr len bytes : BitVec 64}
    (hinside : addr.toNat + len.toNat ≤ 2 ^ 64)
    (hlen : c.Room len.toNat) (hfuel : len.toNat < fuel) :
    Ends (c.read fuel addr len bytes) r fun _ r' =>
      Leads (c.Legal k) mem r (mem r.target)
      (overwrite r.host bytes (slice (mem r.target) addr len.toNat)) r' := by
  have hsum := headLen_add_rest hs addr len
  have hrest : (len - c.headLen addr len).toNat ≤ len.toNat := hsum ▸ Nat.le_add_left _ _
  refine (ends_readHead hs hx (Leads.refl _ _ _)).bind fun _ r₁ hhead => ?_
  have hbody := ends_readRest hs hx (bytes + c.headLen addr len) (behind_headLen hs hinside)
    (hlen.mono hrest)
    (Nat.lt_of_le_of_lt hrest hfuel) hhead
  rwa [overwrite_slice_add (hsum ▸ Nat.le_of_lt len.isLt), hsum] at hbody

theorem ends_write (hx : Exact c k mem) {addr len bytes : BitVec 64}
    (hinside : addr.toNat + len.toNat ≤ 2 ^ 64)
    (hlen : c.Room len.toNat) (hfuel : len.toNat < fuel) :
    Ends (c.write fuel addr len bytes) r fun _ r' =>
      Leads (c.Legal k) mem r (overwrite (mem r.target) addr (slice r.host bytes len.toNat))
        r.host r' := by
  have hsum := headLen_add_rest hs addr len
  have hrest : (len - c.headLen addr len).toNat ≤ len.toNat := hsum ▸ Nat.le_add_left _ _
  refine (ends_writeHead hs hx (Leads.refl _ _ _)).bind fun _ r₁ hhead => ?_
  have hbody := ends_writeRest hs hx (bytes + c.headLen addr len) (behind_headLen hs hinside)
    (hlen.mono hrest)
    (Nat.lt_of_le_of_lt hrest hfuel) hhead
  rwa [overwrite_slice_add (hsum ▸ Nat.le_of_lt len.isLt), hsum] at hbody

omit hs in
/-- **Any range** inside the address space is moved: a transfer ends, has read or written exactly
the bytes of the range, and has issued legal accesses only. `htif_t` clears by writing, in chunks no
longer than others. -/
theorem memif_exact (c : ChunkedMemif σ) (k : Nat) (mem : σ → ByteMem)
    (hs : c.Sizes k) (hx : c.Exact k mem)
    (addr len bytes : BitVec 64) (hinside : addr.toNat + len.toNat ≤ 2 ^ 64)
    (hlen : c.Room len.toNat) (r : ChunkRun σ)
    (fuel : Nat) (hfuel : len.toNat < fuel) :
    (Ends (c.read fuel addr len bytes) r fun _ r' => Leads (c.Legal k) mem r
      (mem r.target) (overwrite r.host bytes (slice (mem r.target) addr len.toNat)) r') ∧
    (Ends (c.write fuel addr len bytes) r fun _ r' => Leads (c.Legal k) mem r
      (overwrite (mem r.target) addr (slice r.host bytes len.toNat)) r.host r') ∧
    (2 ^ k ∣ addr.toNat → 2 ^ k ∣ len.toNat →
      Ends (c.htifClearChunk fuel addr len) r fun _ r' =>
        Leads (fun a => c.Legal k a ∧ ∃ taddr n, a = .write taddr n) mem r
          (overwrite (mem r.target) addr (List.replicate len.toNat 0#8)) r.host r') := by
  refine ⟨ends_read hs hx hinside hlen hfuel, ends_write hs hx hinside hlen hfuel,
    fun haddr hdvd => ?_⟩
  exact ends_htifClearChunk hs hx (Or.inr ⟨haddr, hdvd, hinside⟩) hlen hfuel
    (fun taddr n hl => ⟨hl, taddr, n, rfl⟩)
    (Leads.refl _ _ _)

/-! ### A memory that takes any access -/

/-- The target is an array of bytes. -/
def ofBytes (align max : BitVec 64) : ChunkedMemif ByteMem where
  readChunk taddr len t := (slice t taddr len.toNat, t)
  writeChunk taddr _ src t := overwrite t taddr src
  clearChunk taddr len t := overwrite t taddr (List.replicate len.toNat 0#8)
  chunkAlign := align
  chunkMaxSize := max

omit hs in
theorem exact_ofBytes (align max : BitVec 64) (k : Nat) : (ofBytes align max).Exact k id :=
  ⟨fun _ _ _ _ => ⟨rfl, rfl⟩, fun _ _ _ _ _ _ => rfl, fun _ _ _ _ => rfl⟩

omit hs in
theorem sizes_words : (ofBytes 8#64 16#64).Sizes 3 :=
  ⟨by decide, by decide, by decide⟩

omit hs in
/-- Chunks of 16 bytes leave room for 13 bytes. -/
theorem room_words : (ofBytes 8#64 16#64).Room 13 := by
  intro pos _ hlt
  have hmax : (ofBytes 8#64 16#64).chunkMaxSize.toNat = 16 := rfl
  omega

/-- Addresses, and what is there before a transfer. -/
def freshRun : ChunkRun ByteMem where
  target a := a.setWidth 8
  host _ := 0#8
  issued := []

omit hs in
/-- 13 bytes across a boundary, with a head, a middle and no tail. -/
theorem memif_exact_crossing :
    (ofBytes 8#64 16#64).Sizes 3 ∧ (ofBytes 8#64 16#64).Exact 3 id ∧ (ofBytes 8#64 16#64).Room 13 ∧
    Ends ((ofBytes 8#64 16#64).read 14 3#64 13#64 100#64) freshRun fun _ r' =>
      Leads ((ofBytes 8#64 16#64).Legal 3) id freshRun freshRun.target
        (overwrite freshRun.host 100#64 (slice freshRun.target 3#64 13)) r' :=
  ⟨sizes_words, exact_ofBytes _ _ _, room_words,
    (memif_exact _ 3 id sizes_words (exact_ofBytes _ _ _) 3#64 13#64 100#64
      (by decide) room_words freshRun 14
      (by decide)).1⟩

omit hs in
/-- A position that wraps around comes back to the start. -/
theorem chunkLoop_wraps {len : BitVec 64} {body : BitVec 64 → BitVec 64 → ChunkM ByteMem Unit}
    (hbody : ∀ pos n r, ∃ r', body pos n r = some ((), r')) (hlen : 2 ^ 63 < len.toNat)
    (fuel : Nat) (pos : BitVec 64)
    (r : ChunkRun ByteMem) (hpos : pos = 0#64 ∨ pos = 1#64 <<< 63) :
    (ofBytes 8#64 (1#64 <<< 63)).chunkLoop len body fuel pos r = none := by
  induction fuel generalizing pos r with
  | zero => rfl
  | succ fuel ih =>
    have hlt : pos < len := by
      obtain rfl | rfl := hpos
      · exact Nat.lt_trans (by decide : (0#64).toNat < 2 ^ 63) hlen
      · exact hlen
    obtain ⟨r', hr⟩ := hbody pos (sizeMin (1#64 <<< 63) (len - pos)) r
    rw [chunkLoop, if_pos hlt]
    refine (congrArg (fun o : Option (Unit × ChunkRun ByteMem) => o.bind _) hr).trans (ih _ r' ?_)
    obtain rfl | rfl := hpos
    · exact Or.inr (by decide)
    · exact Or.inl (by decide)

omit hs in
/-- **A clearing is one access**, whatever its length: 16 bytes of zeros where chunks have 8. A loop
whose position wraps around never ends: 2^63 + 8 bytes where chunks have 2^63. -/
theorem clear_exceeds_chunk :
    ((ofBytes 8#64 8#64).Sizes 3 ∧ (ofBytes 8#64 (1#64 <<< 63)).Sizes 3) ∧
    (((ofBytes 8#64 8#64).write 17 0#64 16#64 100#64 freshRun).map fun p => p.2.issued) =
      some [.clear 0#64 16#64] ∧
    (ofBytes 8#64 8#64).chunkMaxSize < 16#64 ∧
    (∀ fuel, (ofBytes 8#64 (1#64 <<< 63)).read fuel 0#64 (1#64 <<< 63 + 8#64) 0#64 freshRun =
      none) := by
  refine ⟨⟨⟨by decide, by decide, by decide⟩, ⟨by decide, by decide, by decide⟩⟩,
    by decide, by decide, fun fuel => ?_⟩
  exact chunkLoop_wraps (fun pos n r => ⟨_, rfl⟩) (by decide) fuel _ _ (Or.inl rfl)

end ChunkedMemif

end Nnemu

import Mathlib.Data.List.Infix
import Nnemu.Fesvr.Chunks
import Nnemu.Fesvr.Elf
import Nnemu.Lib.Bytes
import Nnemu.Lib.Outcome

/-!
# What the ELF loader loads

The segments of the files are laid over the memory of the target, a later one over an earlier one,
and nothing else is written (`load_program_lays_out`). Where no sum of the headers wraps around, a
file is accepted only when it is well formed, and no byte outside it is read, whatever it holds
(`load_elf_stays_inside`).

A file is described by its program headers and section headers alone (`segments`, `WellFormed`), and
the loader is followed with the rules of `Lib.Outcome`: each statement either stops the load, for a
reason that is among those allowed, or leaves what it was to establish. Writes go through a function
of the target, of which is asked only that it places bytes (`Places`); the chunked writes of
`Fesvr.Chunks` do.
-/

namespace Nnemu

open Exec Overwrite

/-! ### What a file says -/

namespace ElfImage

variable (f : ElfImage)

/-- What a program header puts into memory: the bytes of the file, and zeros behind them. -/
def ranges (i : Nat) : List (BitVec 64 × List (BitVec 8)) :=
  let ph := f.phdr i
  if ph.loaded then
    [(BitVec.ofNat 64 ph.paddr, f.part ph.offset ph.filesz),
      (BitVec.ofNat 64 (f.padAddr ph), List.replicate (f.pad ph) 0#8)]
  else []

/-- What the file puts into memory. -/
def segments : List (BitVec 64 × List (BitVec 8)) :=
  (List.range f.ehdr.phnum).flatMap f.ranges

/-- A section of that name, with bits. -/
def isSection (name : List (BitVec 8)) (i : Nat) : Bool :=
  !(f.shdr i).noBits && f.string (nameAt f.shstr (f.shdr i).name) == name

/-- The last one below `n`, or zero. -/
def lastSection (name : List (BitVec 8)) (n : Nat) : Nat :=
  ((List.range n).reverse.find? (f.isSection name)).getD 0

/-- The section `.strtab` -/
def strtabIdx : Nat :=
  f.lastSection strtabName f.ehdr.shnum

/-- The section `.symtab` -/
def symtabIdx : Nat :=
  f.lastSection symtabName f.ehdr.shnum

/-- The number of symbols. -/
def symbolCount : Nat :=
  if f.strtabIdx ≠ 0 ∧ f.symtabIdx ≠ 0 then (f.shdr f.symtabIdx).size / f.cls.symSize else 0

/-- The name and the value of a symbol. -/
def symbol (strtab symtab : Shdr) (i : Nat) : List (BitVec 8) × BitVec 64 :=
  (f.string (nameAt strtab (f.sym symtab i).name), BitVec.ofNat 64 (f.sym symtab i).value)

/-- The symbols of the file, in order. -/
def symbolTable : List (List (BitVec 8) × BitVec 64) :=
  (List.range f.symbolCount).map (f.symbol (f.shdr f.strtabIdx) (f.shdr f.symtabIdx))

/-- The last symbol of that name has the value. -/
def lookup (table : List (List (BitVec 8) × BitVec 64)) : Symbols := fun name =>
  (table.reverse.find? fun e => e.1 == name).map (·.2)

theorem lookup_concat (table : List (List (BitVec 8) × BitVec 64)) (e : List (BitVec 8) × BitVec 64)
    (name : List (BitVec 8)) : lookup (table ++ [e]) name = if name = e.1 then some e.2
      else lookup table name := by
  rw [lookup, List.reverse_append, List.reverse_singleton, List.singleton_append, List.find?_cons]
  by_cases h : name = e.1
  · rw [if_pos h, h, beq_self_eq_true]
    rfl
  · rw [if_neg h, beq_eq_false_iff_ne.2 (Ne.symm h)]
    rfl

theorem lastSection_succ (name : List (BitVec 8)) (n : Nat) :
    f.lastSection name (n + 1) = if f.isSection name n then n else f.lastSection name n := by
  rw [lastSection, List.range_succ, List.reverse_append, List.reverse_singleton,
    List.singleton_append, List.find?_cons]
  cases f.isSection name n <;> rfl

/-- A section that was found. -/
theorem lastSection_spec {name : List (BitVec 8)} {n : Nat} (h : f.lastSection name n ≠ 0) :
    f.lastSection name n < n ∧ f.isSection name (f.lastSection name n) = true := by
  rw [lastSection] at h ⊢
  cases hfind : (List.range n).reverse.find? (f.isSection name) with
  | none =>
    rw [hfind] at h
    exact absurd rfl h
  | some i =>
    have hmem := List.mem_reverse.1 (List.mem_of_find?_eq_some hfind)
    exact ⟨List.mem_range.1 hmem, List.find?_some hfind⟩

/-! ### Well-formed files -/

/-- The name is one of the table, and ends in the table and in the file. -/
structure Named (table : Shdr) (name : Nat) : Prop where
  lt : name < table.size
  ends : (f.string (nameAt table name)).length < maxLen table name
  inside : (f.string (nameAt table name)).length < (f.file.drop (nameAt table name)).length

/-- What is meant by a part of the file is a part of the file, and every name has an end. -/
structure WellFormed : Prop where
  phdrs : f.ehdr.phoff + f.ehdr.phnum * f.cls.phdrSize ≤ f.file.length
  data : ∀ i < f.ehdr.phnum, (f.phdr i).loaded = true → (f.phdr i).filesz ≠ 0 →
    (f.phdr i).offset + (f.phdr i).filesz ≤ f.file.length
  shdrs : f.ehdr.shoff + f.ehdr.shnum * f.cls.shdrSize ≤ f.file.length
  shstrndx : f.ehdr.shstrndx < f.ehdr.shnum
  sections : ∀ i < f.ehdr.shnum, i = f.ehdr.shstrndx ∨ (f.shdr i).noBits = false →
    (f.shdr i).offset + (f.shdr i).size ≤ f.file.length
  names : ∀ i < f.ehdr.shnum, f.Named f.shstr (f.shdr i).name
  symbols : ∀ i < f.symbolCount, f.Named (f.shdr f.strtabIdx) (f.sym (f.shdr f.symtabIdx) i).name

/-- No sum that the loader compares with the size of the file wraps around. -/
structure NoWrap : Prop where
  phdrs : f.ehdr.phoff + f.ehdr.phnum * f.cls.phdrSize < 2 ^ 64
  data : ∀ i < f.ehdr.phnum, (f.phdr i).loaded = true → (f.phdr i).filesz ≠ 0 →
    (f.phdr i).offset + (f.phdr i).filesz < 2 ^ f.cls.bits
  shdrs : f.ehdr.shoff + f.ehdr.shnum * f.cls.shdrSize < 2 ^ 64
  sections : ∀ i < f.ehdr.shnum, i = f.ehdr.shstrndx ∨ (f.shdr i).noBits = false →
    (f.shdr i).offset + (f.shdr i).size < 2 ^ f.cls.bits

/-- A stop that leaves the file alone, and that is no endless loop where the file is of less than 64
GiB. -/
def Safe (e : ElfStop) : Prop :=
  f.NoWrap → e ≠ .outside ∧ (e = .endless → 2 ^ 36 ≤ f.file.length)

/-! ### Reading the file -/

section Reading

variable {f : ElfImage} {σ : Type} {s : σ}

/-- What a part of the loader that only reads the file stops with. -/
def Halts (f : ElfImage) (s : σ) (e : ElfStop) (t : σ) : Prop :=
  t = s ∧ f.Safe e

theorem safe_assertion : f.Safe .assertion :=
  fun _ => ⟨ElfStop.noConfusion, ElfStop.noConfusion⟩

theorem outcome_stopIf {b : Bool} {e : ElfStop} (he : b = true → f.Safe e) :
    Outcome (stopIf b e) s (fun _ t => t = s ∧ b = false) (f.Halts s) := by
  rw [stopIf]
  exact outcome_ite (fun hb => outcome_throw ⟨rfl, he hb⟩) fun hb =>
    outcome_pure ⟨rfl, Bool.eq_false_iff.2 hb⟩

theorem outcome_check (b : Bool) : Outcome (check b) s (fun _ t => t = s ∧ b = true) (f.Halts s) :=
  (outcome_stopIf fun _ => safe_assertion).mono (fun _ _ h => ⟨h.1, Bool.not_inj h.2⟩) fun _ _ => id

theorem outcome_touch {off len : Nat} (h : f.NoWrap → off + len ≤ f.file.length) :
    Outcome (f.touch off len) s (fun _ t => t = s ∧ off + len ≤ f.file.length) (f.Halts s) := by
  rw [touch]
  refine outcome_ite (fun hle => outcome_pure ⟨rfl, hle⟩) fun hnot =>
    outcome_throw ⟨rfl, fun hno => ?_⟩
  exact absurd (h hno) hnot

theorem outcome_checkRange (off size bits : Nat) :
    Outcome (f.checkRange off size bits) s
    (fun _ t => t = s ∧ (off + size) % 2 ^ bits ≤ f.file.length) (f.Halts s) :=
  (outcome_check _).mono (fun _ _ h => ⟨h.1, of_decide_eq_true h.2⟩) fun _ _ => id

/-- A string is found up to a length that is in the file. -/
theorem outcome_strnlen {off max : Nat} (h : f.NoWrap → off + max ≤ f.file.length) :
    Outcome (f.strnlen off max) s (fun n t => t = s ∧
      (n < max → (f.string off).length < max ∧ (f.string off).length < (f.file.drop off).length))
      (f.Halts s) := by
  rw [strnlen]
  refine outcome_ite (fun _ => outcome_pure ⟨rfl, fun hlt => absurd hlt (Nat.lt_irrefl _)⟩)
    fun hlt => ?_
  have hlt := Nat.lt_of_not_le hlt
  refine outcome_ite (fun hin => outcome_pure ⟨rfl, fun _ => ⟨hlt, hin⟩⟩) fun hout =>
    outcome_throw ⟨rfl, fun hno => ?_⟩
  have hle := h hno
  rw [List.length_drop] at hout
  omega

theorem outcome_cString {off : Nat} (h : (f.string off).length < (f.file.drop off).length) :
    Outcome (f.cString off) s (fun a t => t = s ∧ a = f.string off) (f.Halts s) := by
  rw [cString, if_pos h]
  exact outcome_pure ⟨rfl, rfl⟩

theorem maxLen_le {table : Shdr} {name : Nat} (h : name < table.size) :
    maxLen table name ≤ table.size - name := by
  have heq : table.size + 2 ^ 32 - name = table.size - name + 2 ^ 32 := by omega
  rw [maxLen, heq, Nat.add_mod_right]
  exact Nat.mod_le _ _

/-- **Names** are looked for in their table only. -/
theorem outcome_checkName {table : Shdr} {name : Nat}
    (htable : f.NoWrap → table.offset + table.size ≤ f.file.length) :
    Outcome (f.checkName table name) s (fun _ t => t = s ∧ f.Named table name) (f.Halts s) := by
  refine (outcome_check _).bind ?_
  rintro _ _ ⟨rfl, hlt⟩
  have hlt : name < table.size := of_decide_eq_true hlt
  have hinside (hno : f.NoWrap) : nameAt table name + maxLen table name ≤ f.file.length := by
    have hat : nameAt table name ≤ table.offset + name := Nat.mod_le _ _
    have hmax := maxLen_le hlt
    have hle := htable hno
    omega
  refine (outcome_strnlen hinside).bind ?_
  rintro n _ ⟨rfl, hn⟩
  refine (outcome_check _).mono ?_ fun _ _ => id
  rintro _ _ ⟨rfl, hmax⟩
  obtain ⟨hends, hin⟩ := hn (of_decide_eq_true hmax)
  exact ⟨rfl, hlt, hends, hin⟩

/-! ### Sections -/

/-- What a section header is checked for. -/
structure SectionOk (f : ElfImage) (i : Nat) : Prop where
  name : f.Named f.shstr (f.shdr i).name
  range : (f.shdr i).noBits = false →
    ((f.shdr i).offset + (f.shdr i).size) % 2 ^ f.cls.bits ≤ f.file.length

theorem outcome_scanSection {i : Nat}
    (hshdr : f.NoWrap → f.shdrAt i + f.cls.shdrSize ≤ f.file.length)
    (hshstr : f.NoWrap → f.shstr.offset + f.shstr.size ≤ f.file.length) :
    Outcome (f.scanSection f.shstr (f.lastSection strtabName i, f.lastSection symtabName i) i) s
      (fun idx t => t = s ∧ f.SectionOk i ∧
        idx = (f.lastSection strtabName (i + 1), f.lastSection symtabName (i + 1)))
      (f.Halts s) := by
  refine (outcome_touch hshdr).bind ?_
  rintro _ _ ⟨rfl, -⟩
  refine (outcome_checkName hshstr).bind ?_
  rintro _ _ ⟨rfl, hname⟩
  refine outcome_ite (fun hno => ?_) fun hbits => ?_
  · have hnone (name : List (BitVec 8)) : f.lastSection name (i + 1) = f.lastSection name i := by
      rw [lastSection_succ, isSection, hno]
      rfl
    rw [hnone, hnone]
    exact outcome_pure ⟨rfl, ⟨hname, fun h => absurd hno (Bool.eq_false_iff.1 h)⟩, rfl⟩
  · refine (outcome_checkRange _ _ _).bind ?_
    rintro _ _ ⟨rfl, hrange⟩
    refine (outcome_cString hname.inside).bind ?_
    rintro _ _ ⟨rfl, rfl⟩
    have hsome (name : List (BitVec 8)) : f.lastSection name (i + 1) =
        if f.string (nameAt f.shstr (f.shdr i).name) = name then i else f.lastSection name i := by
      rw [lastSection_succ, isSection, Bool.eq_false_iff.2 hbits, Bool.not_false, Bool.true_and]
      simp only [beq_iff_eq]
    rw [hsome, hsome]
    exact outcome_pure ⟨rfl, ⟨hname, fun _ => hrange⟩, rfl⟩

/-! ### Symbols -/

theorem symSize_ge (c : ElfClass) : 16 ≤ c.symSize := by
  cases c <;> decide

theorem outcome_loadSymbol {strtab symtab : Shdr} {i : Nat} {symbols : Symbols}
    (hsym : f.NoWrap → f.symAt symtab i + f.cls.symSize ≤ f.file.length)
    (hstrtab : f.NoWrap → strtab.offset + strtab.size ≤ f.file.length) :
    Outcome (f.loadSymbol strtab symtab symbols i) s
    (fun next t => t = s ∧ f.Named strtab (f.sym symtab i).name ∧
      next = fun n => if n = (f.symbol strtab symtab i).1 then some (f.symbol strtab symtab i).2
        else symbols n)
      (f.Halts s) := by
  refine (outcome_touch hsym).bind ?_
  rintro _ _ ⟨rfl, -⟩
  refine (outcome_checkName hstrtab).bind ?_
  rintro _ _ ⟨rfl, hname⟩
  refine (outcome_cString hname.inside).bind ?_
  rintro _ _ ⟨rfl, rfl⟩
  exact outcome_pure ⟨rfl, hname, rfl⟩

theorem outcome_loadSymbols {strtab symtab : Shdr}
    (hstrtab : f.NoWrap → strtab.offset + strtab.size ≤ f.file.length)
    (hsymtab : f.NoWrap → symtab.offset + symtab.size ≤ f.file.length) :
    Outcome (f.loadSymbols strtab symtab) s (fun symbols t => t = s ∧
      symbols = lookup ((List.range (symtab.size / f.cls.symSize)).map (f.symbol strtab symtab)) ∧
      ∀ i < symtab.size / f.cls.symSize, f.Named strtab (f.sym symtab i).name) (f.Halts s) := by
  have hpos : 0 < f.cls.symSize := Nat.lt_of_lt_of_le (by decide) (symSize_ge f.cls)
  refine (outcome_range (fun n symbols t => t = s ∧
    symbols = lookup ((List.range n).map (f.symbol strtab symtab)) ∧ ∀ i < n,
    f.Named strtab (f.sym symtab i).name)
    ⟨rfl, rfl, fun i hi => absurd hi (Nat.not_lt_zero i)⟩ ?_).bind ?_
  · rintro i symbols t hi ⟨rfl, rfl, hnamed⟩
    have hinside (hno : f.NoWrap) : f.symAt symtab i + f.cls.symSize ≤ f.file.length := by
      have hat : f.symAt symtab i ≤ symtab.offset + i * f.cls.symSize := Nat.mod_le _ _
      have hmul : (i + 1) * f.cls.symSize ≤ symtab.size :=
        (Nat.le_div_iff_mul_le hpos).1 (Nat.lt_of_lt_of_le hi (Nat.min_le_left _ _))
      have hle := hsymtab hno
      rw [Nat.succ_mul] at hmul
      omega
    refine (outcome_loadSymbol hinside hstrtab).mono ?_ fun _ _ => id
    rintro next _ ⟨rfl, hname, rfl⟩
    refine ⟨rfl, ?_, fun j hj => ?_⟩
    · funext n
      rw [List.range_succ, List.map_append, List.map_singleton, lookup_concat]
    · obtain hj | rfl := Nat.lt_succ_iff_lt_or_eq.1 hj
      · exact hnamed j hj
      · exact hname
  · rintro symbols _ ⟨rfl, rfl, hnamed⟩
    refine (outcome_stopIf fun hcount hno => ⟨ElfStop.noConfusion, fun _ => ?_⟩).bind ?_
    · -- 2^32 symbols of 16 bytes are in the file
      have hmul : 2 ^ 32 * f.cls.symSize ≤ symtab.size :=
        (Nat.le_div_iff_mul_le hpos).1 (of_decide_eq_true hcount)
      have hge : 2 ^ 32 * 16 ≤ 2 ^ 32 * f.cls.symSize := Nat.mul_le_mul_left _ (symSize_ge f.cls)
      have hle := hsymtab hno
      omega
    · rintro _ _ ⟨rfl, hcount⟩
      have hcount : symtab.size / f.cls.symSize ≤ 2 ^ 32 :=
        Nat.le_of_lt (Nat.lt_of_not_le (of_decide_eq_false hcount))
      rw [Nat.min_eq_left hcount] at hnamed ⊢
      exact outcome_pure ⟨rfl, rfl, hnamed⟩

/-- What the sections of a file are checked for. -/
structure SectionsOk (f : ElfImage) : Prop where
  shdrs : (f.ehdr.shoff + f.ehdr.shnum * f.cls.shdrSize) % 2 ^ 64 ≤ f.file.length
  shstrndx : f.ehdr.shstrndx < f.ehdr.shnum
  shstr : (f.shstr.offset + f.shstr.size) % 2 ^ f.cls.bits ≤ f.file.length
  sections : ∀ i < f.ehdr.shnum, f.SectionOk i
  symbols : ∀ i < f.symbolCount, f.Named (f.shdr f.strtabIdx) (f.sym (f.shdr f.symtabIdx) i).name

/-- A header of the table. -/
theorem NoWrap.shdr_inside (hno : f.NoWrap)
    (h : (f.ehdr.shoff + f.ehdr.shnum * f.cls.shdrSize) % 2 ^ 64 ≤ f.file.length)
    {i : Nat} (hi : i < f.ehdr.shnum) : f.shdrAt i + f.cls.shdrSize ≤ f.file.length := by
  rw [Nat.mod_eq_of_lt hno.shdrs] at h
  have hat : f.shdrAt i ≤ f.ehdr.shoff + i * f.cls.shdrSize := Nat.mod_le _ _
  have hmul : (i + 1) * f.cls.shdrSize ≤ f.ehdr.shnum * f.cls.shdrSize := Nat.mul_le_mul_right _ hi
  rw [Nat.succ_mul] at hmul
  omega

/-- A section that was found is in the file. -/
theorem NoWrap.section_inside (hno : f.NoWrap) (h : ∀ i < f.ehdr.shnum, f.SectionOk i)
    {name : List (BitVec 8)}
    (hfound : f.lastSection name f.ehdr.shnum ≠ 0) :
    (f.shdr (f.lastSection name f.ehdr.shnum)).offset +
      (f.shdr (f.lastSection name f.ehdr.shnum)).size ≤
      f.file.length := by
  obtain ⟨hlt, his⟩ := f.lastSection_spec hfound
  have hbits : (f.shdr (f.lastSection name f.ehdr.shnum)).noBits = false := by
    rw [isSection, Bool.and_eq_true] at his
    exact Bool.not_inj his.1
  have hrange := (h _ hlt).range hbits
  rwa [Nat.mod_eq_of_lt (hno.sections _ hlt (.inr hbits))] at hrange

theorem outcome_loadSections :
    Outcome f.loadSections s
    (fun symbols t => t = s ∧ symbols = lookup f.symbolTable ∧ f.SectionsOk) (f.Halts s) := by
  refine (outcome_checkRange _ _ _).bind ?_
  rintro _ _ ⟨rfl, hshdrs⟩
  refine (outcome_check _).bind ?_
  rintro _ _ ⟨rfl, hshstrndx⟩
  have hshstrndx : f.ehdr.shstrndx < f.ehdr.shnum := of_decide_eq_true hshstrndx
  refine (outcome_touch fun hno => hno.shdr_inside hshdrs hshstrndx).bind ?_
  rintro _ _ ⟨rfl, -⟩
  refine (outcome_checkRange _ _ _).bind ?_
  rintro _ _ ⟨rfl, hshstr⟩
  have htable (hno : f.NoWrap) : f.shstr.offset + f.shstr.size ≤ f.file.length := by
    have hlt : f.shstr.offset + f.shstr.size < 2 ^ f.cls.bits := hno.sections _ hshstrndx (.inl rfl)
    rwa [Nat.mod_eq_of_lt hlt] at hshstr
  refine (outcome_range
    (fun n idx t => t = _ ∧ idx = (f.lastSection strtabName n, f.lastSection symtabName n) ∧
    ∀ i < n, f.SectionOk i) ⟨rfl, rfl, fun i hi => absurd hi (Nat.not_lt_zero i)⟩ ?_).bind ?_
  · rintro i _ t hi ⟨rfl, rfl, hsections⟩
    refine (outcome_scanSection (fun hno => hno.shdr_inside hshdrs hi) htable).mono ?_ fun _ _ => id
    rintro _ _ ⟨rfl, hok, rfl⟩
    refine ⟨rfl, rfl, fun j hj => ?_⟩
    obtain hj | rfl := Nat.lt_succ_iff_lt_or_eq.1 hj
    · exact hsections j hj
    · exact hok
  · rintro _ _ ⟨rfl, rfl, hsections⟩
    refine outcome_ite (fun hfound => ?_) fun hnone => ?_
    · obtain ⟨hstr, -⟩ := f.lastSection_spec hfound.1
      obtain ⟨hsym, -⟩ := f.lastSection_spec hfound.2
      refine (outcome_touch fun hno => hno.shdr_inside hshdrs hstr).bind ?_
      rintro _ _ ⟨rfl, -⟩
      refine (outcome_touch fun hno => hno.shdr_inside hshdrs hsym).bind ?_
      rintro _ _ ⟨rfl, -⟩
      have hcount : f.symbolCount = (f.shdr f.symtabIdx).size / f.cls.symSize := if_pos hfound
      refine (outcome_loadSymbols (fun hno => hno.section_inside hsections hfound.1) fun hno =>
        hno.section_inside hsections hfound.2).mono ?_ fun _ _ => id
      rintro _ _ ⟨rfl, rfl, hnamed⟩
      refine ⟨rfl, ?_, hshdrs, hshstrndx, hshstr, hsections, ?_⟩
      · rw [symbolTable, hcount]
        rfl
      · rw [hcount]
        exact hnamed
    · have hcount : f.symbolCount = 0 := if_neg hnone
      refine outcome_pure ⟨rfl, ?_, hshdrs, hshstrndx, hshstr, hsections, ?_⟩
      · rw [symbolTable, hcount]
        rfl
      · rw [hcount]
        exact fun i hi => absurd hi (Nat.not_lt_zero i)

end Reading

/-! ### Writing to memory -/

/-- What the writes of a load keep, where `I` is about the ranges that are written: writing nothing
is as good as not writing. -/
structure Tracks {σ : Type} (write : WriteFn σ) (allowed : BitVec 64 × List (BitVec 8) → Prop)
    (I : List (BitVec 64 × List (BitVec 8)) → σ → Prop) (fails : ElfStop → σ → Prop) : Prop where
  write : ∀ {done r s}, I done s → allowed r →
    Outcome (write r.1 r.2) s (fun _ t => I (done ++ [r]) t) fails
  skip : ∀ {done addr s}, I done s → I (done ++ [(addr, [])]) s

section Writing

variable {f : ElfImage} {σ : Type} {s : σ} {write : WriteFn σ}
  {allowed : BitVec 64 × List (BitVec 8) → Prop}
  {I : List (BitVec 64 × List (BitVec 8)) → σ → Prop} {fails : ElfStop → σ → Prop}
  {done ranges : List (BitVec 64 × List (BitVec 8))}

/-- A load stops because a write fails, or safely between two writes of those it has to make. -/
def Stops (f : ElfImage) (I : List (BitVec 64 × List (BitVec 8)) → σ → Prop)
    (fails : ElfStop → σ → Prop)
    (done ranges : List (BitVec 64 × List (BitVec 8))) (e : ElfStop) (t : σ) : Prop :=
  fails e t ∨ f.Safe e ∧ ∃ part, part <+: ranges ∧ I (done ++ part) t

theorem Stops.of_halts {e : ElfStop} {t : σ} (h : f.Halts s e t) (hI : I done s) :
    f.Stops I fails done ranges e t := by
  obtain ⟨rfl, hsafe⟩ := h
  exact .inr ⟨hsafe, [], List.nil_prefix, by rwa [List.append_nil]⟩

/-- A stop further on. -/
theorem Stops.after {before mid : List (BitVec 64 × List (BitVec 8))} {e : ElfStop} {t : σ}
    (h : f.Stops I fails (done ++ before) mid e t) (hwithin : before ++ mid <+: ranges) :
    f.Stops I fails done ranges e t := by
  obtain h | ⟨hsafe, part, hpart, hI⟩ := h
  · exact .inl h
  · rw [List.append_assoc] at hI
    exact .inr ⟨hsafe, before ++ part,
      ((List.prefix_append_right_inj before).2 hpart).trans hwithin, hI⟩

theorem outcome_writeData {ph : Phdr} (htracks : Tracks write allowed I fails)
    (hallowed : f.part ph.offset ph.filesz ≠ [] →
      allowed (BitVec.ofNat 64 ph.paddr, f.part ph.offset ph.filesz))
    (hdata : f.NoWrap → ph.filesz ≠ 0 → ph.offset + ph.filesz < 2 ^ f.cls.bits) (hI : I done s) :
    Outcome (f.writeData write ph) s
    (fun _ t => I (done ++ [(BitVec.ofNat 64 ph.paddr, f.part ph.offset ph.filesz)]) t ∧
      (ph.filesz ≠ 0 → ph.offset + ph.filesz ≤ f.file.length)) (f.Stops I fails done []) := by
  refine outcome_ite (fun hne => ?_) fun heq => ?_
  · refine (outcome_checkRange _ _ _).mono (fun _ _ => id) (fun _ _ h => .of_halts h hI) |>.bind ?_
    rintro _ _ ⟨rfl, hrange⟩
    refine (outcome_touch fun hno => ?_).mono (fun _ _ => id)
      (fun _ _ h => .of_halts h hI) |>.bind ?_
    · rwa [Nat.mod_eq_of_lt (hdata hno hne)] at hrange
    rintro _ _ ⟨rfl, hinside⟩
    have hlength : (f.part ph.offset ph.filesz).length = ph.filesz := by
      rw [part, List.length_take, List.length_drop]
      omega
    refine (htracks.write hI (hallowed fun hnil => hne ?_)).mono
      (fun _ _ h => ⟨h, fun _ => hinside⟩) fun _ _ => .inl
    rw [← hlength, hnil, List.length_nil]
  · have heq : ph.filesz = 0 := of_not_not heq
    rw [heq, part, List.take_zero]
    exact outcome_pure ⟨htracks.skip hI, fun hne => absurd rfl hne⟩

theorem outcome_writePad {ph : Phdr} (htracks : Tracks write allowed I fails)
    (hallowed : List.replicate (f.pad ph) 0#8 ≠ [] →
      allowed (BitVec.ofNat 64 (f.padAddr ph), List.replicate (f.pad ph) 0#8)) (hI : I done s) :
    Outcome (f.writePad write ph) s
      (fun _ t => I (done ++ [(BitVec.ofNat 64 (f.padAddr ph), List.replicate (f.pad ph) 0#8)]) t)
      (f.Stops I fails done []) := by
  refine outcome_ite (fun hne => ?_) fun heq => ?_
  · refine (outcome_stopIf fun _ _ => ⟨ElfStop.noConfusion, ElfStop.noConfusion⟩).mono
      (fun _ _ => id)
      (fun _ _ h => .of_halts h hI) |>.bind ?_
    rintro _ _ ⟨rfl, -⟩
    exact (htracks.write hI (hallowed (mt (List.replicate_eq_nil_iff _).1 hne))).mono
      (fun _ _ => id) fun _ _ => .inl
  · have heq : f.pad ph = 0 := of_not_not heq
    rw [heq, List.replicate_zero]
    exact outcome_pure (htracks.skip hI)

/-- What a program header is checked for. -/
def SegmentOk (f : ElfImage) (i : Nat) : Prop :=
  (f.phdr i).loaded = true → (f.phdr i).filesz ≠ 0 →
    (f.phdr i).offset + (f.phdr i).filesz ≤ f.file.length

/-- **One program header.** -/
theorem outcome_loadSegment {i : Nat} (hi : i < f.ehdr.phnum)
    (htracks : Tracks write allowed I fails)
    (hallowed : ∀ r ∈ f.ranges i, r.2 ≠ [] → allowed r)
    (hphdr : f.NoWrap → f.phdrAt i + f.cls.phdrSize ≤ f.file.length) (hI : I done s) :
    Outcome (f.loadSegment write i) s (fun _ t => I (done ++ f.ranges i) t ∧ f.SegmentOk i)
      (f.Stops I fails done (f.ranges i)) := by
  refine (outcome_touch hphdr).mono (fun _ _ => id) (fun _ _ h => .of_halts h hI) |>.bind ?_
  rintro _ _ ⟨rfl, -⟩
  refine outcome_ite (fun hloaded => ?_) fun hnot => ?_
  · have hranges : f.ranges i =
      [(BitVec.ofNat 64 (f.phdr i).paddr, f.part (f.phdr i).offset (f.phdr i).filesz)] ++
        [(BitVec.ofNat 64 (f.padAddr (f.phdr i)), List.replicate (f.pad (f.phdr i)) 0#8)] :=
          if_pos hloaded
    rw [hranges] at hallowed ⊢
    refine (outcome_writeData htracks (hallowed _ (List.mem_cons_self ..))
      (fun hno => hno.data i hi hloaded)
      hI).mono (fun _ _ => id) (fun _ _ h => ?_) |>.bind ?_
    · rw [← List.append_nil done] at h
      exact h.after List.nil_prefix
    rintro _ _ ⟨hI, hdata⟩
    refine (outcome_writePad htracks (hallowed _ (List.mem_cons_of_mem _ (List.mem_cons_self ..)))
      hI).mono
      (fun _ _ h => ?_) fun _ _ h => h.after ?_
    · rw [List.append_assoc] at h
      exact ⟨h, fun _ => hdata⟩
    · rw [List.append_nil]
      exact List.prefix_append _ _
  · have hranges : f.ranges i = [] := if_neg hnot
    rw [hranges, List.append_nil]
    exact outcome_pure ⟨hI, fun hloaded => absurd hloaded hnot⟩

theorem wellFormed_of (hno : f.NoWrap)
    (hphdrs : (f.ehdr.phoff + f.ehdr.phnum * f.cls.phdrSize) % 2 ^ 64 ≤ f.file.length)
    (hsegments : ∀ i < f.ehdr.phnum, f.SegmentOk i) (hsections : f.SectionsOk) : f.WellFormed where
  phdrs := by rwa [Nat.mod_eq_of_lt hno.phdrs] at hphdrs
  data := hsegments
  shdrs := by
    have hshdrs := hsections.shdrs
    rwa [Nat.mod_eq_of_lt hno.shdrs] at hshdrs
  shstrndx := hsections.shstrndx
  sections i hi hor := by
    obtain rfl | hbits := hor
    · have hshstr := hsections.shstr
      have hlt : f.shstr.offset + f.shstr.size < 2 ^ f.cls.bits := hno.sections _ hi (.inl rfl)
      rwa [Nat.mod_eq_of_lt hlt] at hshstr
    · have hrange := (hsections.sections i hi).range hbits
      rwa [Nat.mod_eq_of_lt (hno.sections i hi (.inr hbits))] at hrange
  names i hi := (hsections.sections i hi).name
  symbols := hsections.symbols

/-- The segments, up to one. -/
theorem prefix_segments {i : Nat} (hi : i < f.ehdr.phnum) :
    (List.range i).flatMap f.ranges ++ f.ranges i <+: f.segments := by
  have hsucc : (List.range i).flatMap f.ranges ++
      f.ranges i = (List.range (i + 1)).flatMap f.ranges := by
    rw [List.range_succ, List.flatMap_append, List.flatMap_singleton]
  obtain ⟨n, hn⟩ := Nat.exists_eq_add_of_lt hi
  have hrange : List.range (i + 1) <+: List.range f.ehdr.phnum := by
    rw [hn, Nat.add_right_comm]
    exact ⟨_, List.range_add.symm⟩
  rw [hsucc]
  exact List.IsPrefix.flatMap hrange f.ranges

/-- **`LOAD_ELF`** -/
theorem outcome_load (htracks : Tracks write allowed I fails)
    (hallowed : ∀ r ∈ f.segments, r.2 ≠ [] → allowed r)
    (hI : I done s) :
    Outcome (f.load write) s (fun r t => I (done ++ f.segments) t ∧
      r = (BitVec.ofNat 64 f.ehdr.entry, lookup f.symbolTable) ∧ (f.NoWrap → f.WellFormed))
      (f.Stops I fails done f.segments) := by
  refine (outcome_checkRange _ _ _).mono (fun _ _ => id) (fun _ _ h => .of_halts h hI) |>.bind ?_
  rintro _ _ ⟨rfl, hphdrs⟩
  refine (outcome_range (fun n _ t => I (done ++ (List.range n).flatMap f.ranges) t ∧ ∀ i < n,
    f.SegmentOk i)
    ⟨by rwa [List.range_zero, List.flatMap_nil, List.append_nil],
      fun i hi => absurd hi (Nat.not_lt_zero i)⟩ ?_).bind ?_
  · rintro i _ t hi ⟨hI, hsegments⟩
    have hphdr (hno : f.NoWrap) : f.phdrAt i + f.cls.phdrSize ≤ f.file.length := by
      rw [Nat.mod_eq_of_lt hno.phdrs] at hphdrs
      have hat : f.phdrAt i ≤ f.ehdr.phoff + i * f.cls.phdrSize := Nat.mod_le _ _
      have hmul : (i + 1) * f.cls.phdrSize ≤ f.ehdr.phnum * f.cls.phdrSize :=
        Nat.mul_le_mul_right _ hi
      rw [Nat.succ_mul] at hmul
      omega
    have hmem (r) (hr : r ∈ f.ranges i) : r ∈ f.segments :=
      (prefix_segments hi).subset (List.mem_append_right _ hr)
    refine (outcome_loadSegment hi htracks (fun r hr => hallowed r (hmem r hr)) hphdr hI).mono ?_
      fun _ _ h => h.after (prefix_segments hi)
    rintro _ _ ⟨hI, hok⟩
    refine ⟨?_, fun j hj => ?_⟩
    · rwa [List.range_succ, List.flatMap_append, List.flatMap_singleton, ← List.append_assoc]
    · obtain hj | rfl := Nat.lt_succ_iff_lt_or_eq.1 hj
      · exact hsegments j hj
      · exact hok
  · rintro _ t ⟨hI, hsegments⟩
    refine outcome_loadSections.mono (fun _ _ => id) (fun _ _ h => ?_) |>.bind ?_
    · have hstop : f.Stops I fails (done ++ f.segments) [] _ _ := .of_halts h hI
      exact hstop.after (by rw [List.append_nil])
    rintro _ _ ⟨rfl, rfl, hsections⟩
    exact outcome_pure ⟨hI, rfl, fun hno => wellFormed_of hno hphdrs hsegments hsections⟩

end Writing

end ElfImage

open ElfImage

/-! ### Files -/

section Files

variable {σ : Type} {s : σ} {write : WriteFn σ} {allowed : BitVec 64 × List (BitVec 8) → Prop}
  {I : List (BitVec 64 × List (BitVec 8)) → σ → Prop} {fails : ElfStop → σ → Prop}
  {done : List (BitVec 64 × List (BitVec 8))} (cfg : ElfConfig)

/-- What a file puts into memory. -/
def fileSegments (file : List (BitVec 8)) : List (BitVec 64 × List (BitVec 8)) :=
  (elfImage file).segments

theorem outcome_refuse {f : ElfImage} (b : Bool) (e : ElfStop) (hout : e ≠ .outside)
    (hend : e ≠ .endless) :
    Outcome (stopIf b e) s (fun _ t => t = s) (f.Halts s) :=
  (outcome_stopIf fun _ _ => ⟨hout, fun h => absurd h hend⟩).mono (fun _ _ h => h.1) fun _ _ => id

theorem outcome_checkEndian (f : ElfImage) (bigEndian : Bool) :
    Outcome (cfg.checkEndian bigEndian) s (fun _ t => t = s) (f.Halts s) := by
  refine outcome_ite (fun _ => ?_) fun _ => ?_
  · refine (outcome_refuse _ _ ElfStop.noConfusion ElfStop.noConfusion).bind ?_
    rintro _ _ rfl
    exact outcome_refuse _ _ ElfStop.noConfusion ElfStop.noConfusion
  · exact outcome_refuse _ _ ElfStop.noConfusion ElfStop.noConfusion

theorem outcome_checkHeader (file : List (BitVec 8)) :
    Outcome (cfg.checkHeader file) s (fun _ t => t = s) ((elfImage file).Halts s) := by
  have hcheck (b : Bool) (s : σ) : Outcome (check b) s (fun _ t => t = s)
    ((elfImage file).Halts s) :=
    outcome_refuse _ _ ElfStop.noConfusion ElfStop.noConfusion
  refine (outcome_refuse _ _ ElfStop.noConfusion ElfStop.noConfusion).bind ?_
  rintro _ _ rfl
  refine (hcheck _ _).bind ?_
  rintro _ _ rfl
  refine (hcheck _ _).bind ?_
  rintro _ _ rfl
  refine (outcome_refuse _ _ ElfStop.noConfusion ElfStop.noConfusion).bind ?_
  rintro _ _ rfl
  refine (hcheck _ _).bind ?_
  rintro _ _ rfl
  refine (hcheck _ _).bind ?_
  rintro _ _ rfl
  refine (hcheck _ _).bind ?_
  rintro _ _ rfl
  refine (hcheck _ _).bind ?_
  rintro _ _ rfl
  exact outcome_checkEndian cfg _ _

variable (done) in
theorem outcome_loadElf {file : List (BitVec 8)} (htracks : Tracks write allowed I fails)
    (hallowed : ∀ r ∈ fileSegments file, r.2 ≠ [] → allowed r) (hI : I done s) :
    Outcome (loadElf cfg write file) s (fun r t => I (done ++ fileSegments file) t ∧
      r = (BitVec.ofNat 64 (elfImage file).ehdr.entry, lookup (elfImage file).symbolTable) ∧
      ((elfImage file).NoWrap → (elfImage file).WellFormed))
      ((elfImage file).Stops I fails done (fileSegments file)) := by
  refine (outcome_checkHeader cfg file).mono (fun _ _ => id)
    (fun _ _ h => .of_halts h hI) |>.bind ?_
  rintro _ _ rfl
  exact outcome_load htracks hallowed hI

/-- Files are loaded up to a failure, or up to a stop between two writes. -/
def StopsAmong (I : List (BitVec 64 × List (BitVec 8)) → σ → Prop) (fails : ElfStop → σ → Prop)
    (done : List (BitVec 64 × List (BitVec 8))) (files : List (List (BitVec 8)))
    (e : ElfStop) (t : σ) : Prop :=
  fails e t ∨ ∃ part, part <+: files.flatMap fileSegments ∧ I (done ++ part) t

variable {file : List (BitVec 8)} {files : List (List (BitVec 8))} {e : ElfStop} {t : σ}

/-- A stop in the first file. -/
theorem StopsAmong.first (h : (elfImage file).Stops I fails done (fileSegments file) e t) :
    StopsAmong I fails done (file :: files) e t := by
  obtain h | ⟨-, part, hpart, hI⟩ := h
  · exact .inl h
  · exact .inr ⟨part, hpart.trans (List.prefix_append _ _), hI⟩

/-- A stop in a later one. -/
theorem StopsAmong.rest (h : StopsAmong I fails (done ++ fileSegments file) files e t) :
    StopsAmong I fails done (file :: files) e t := by
  obtain h | ⟨part, hpart, hI⟩ := h
  · exact .inl h
  · rw [List.append_assoc] at hI
    exact .inr ⟨_, (List.prefix_append_right_inj _).2 hpart, hI⟩

/-- The files, one after the other. -/
theorem outcome_payloads (htracks : Tracks write allowed I fails)
    (hallowed : ∀ file ∈ files, ∀ r ∈ fileSegments file, r.2 ≠ [] → allowed r) (hI : I done s) :
    Outcome (files.forM fun file => do let _ ← loadElf cfg write file) s
      (fun _ t => I (done ++ files.flatMap fileSegments) t) (StopsAmong I fails done files) := by
  induction files generalizing done s with
  | nil => exact outcome_pure (by rwa [List.flatMap_nil, List.append_nil])
  | cons file files ih =>
    have hload : Outcome (do let _ ← loadElf cfg write file) s
      (fun _ t => I (done ++ fileSegments file) t)
        ((elfImage file).Stops I fails done (fileSegments file)) :=
      (outcome_loadElf done cfg htracks (hallowed file (List.mem_cons_self ..)) hI).bind
        fun _ _ h => outcome_pure h.1
    rw [List.forM]
    refine (hload.mono (fun _ _ => id) fun _ _ => .first).bind fun _ t hI => ?_
    refine (ih (fun f hf => hallowed f (List.mem_cons_of_mem _ hf)) hI).mono
      (fun _ _ h => ?_) fun e t => .rest
    rwa [List.flatMap_cons, ← List.append_assoc]

variable (done) in
theorem outcome_loadProgram (htracks : Tracks write allowed I fails)
    (hallowed : ∀ f ∈ file :: files, ∀ r ∈ fileSegments f, r.2 ≠ [] → allowed r) (hI : I done s) :
    Outcome (loadProgram cfg write file files) s (fun p t =>
      p = loadedProgram (BitVec.ofNat 64 (elfImage file).ehdr.entry)
      (lookup (elfImage file).symbolTable) ∧
      I (done ++ (file :: files).flatMap fileSegments) t)
      (StopsAmong I fails done (file :: files)) := by
  have hload := outcome_loadElf done cfg htracks (hallowed file (List.mem_cons_self ..)) hI
  refine (hload.mono (fun _ _ => id) fun _ _ => .first).bind ?_
  rintro _ t ⟨hI, rfl, -⟩
  have hpayloads :=
    outcome_payloads cfg htracks (fun f hf => hallowed f (List.mem_cons_of_mem _ hf)) hI
  refine (hpayloads.mono (fun _ _ => id) fun _ _ => .rest).bind fun _ t hI => ?_
  rw [List.flatMap_cons, ← List.append_assoc]
  exact outcome_pure ⟨rfl, hI⟩

end Files

/-! ### The memory of the target -/

/-- Writes that put their bytes into memory, where the range fits, or trap. -/
def Places {σ : Type} (fits : BitVec 64 → Nat → Prop) (write : WriteFn σ) (mem : σ → ByteMem) :
    Prop :=
  ∀ addr bytes s, fits addr bytes.length →
    Outcome (write addr bytes) s (fun _ t => mem t = overwrite (mem s) addr bytes) fun e _ => ∃ a,
    e = .memTrap a

variable {σ : Type} {s : σ} {write : WriteFn σ} {mem : σ → ByteMem} {fits : BitVec 64 → Nat → Prop}

theorem tracks_of_places (hplaces : Places fits write mem) (m : ByteMem) :
    Tracks write (fun r => fits r.1 r.2.length) (fun done t => mem t = lay m done) fun e _ => ∃ a,
    e = .memTrap a where
  write {done r s} hI hfits := by
    refine (hplaces r.1 r.2 s hfits).mono (fun _ t h => ?_) fun _ _ => id
    rw [h, hI, lay_concat]
  skip hI := by
    rw [hI, lay_concat, overwrite_nil]

/-- **Programs are laid over memory.** When `load_program` returns, every address holds what the
last segment says that it is in, of all files in their order, or what it held before; the entry
point and the addresses are those of the first file, where the last symbol of a name counts. When it
stops, it has laid a part of the segments, unless a write has trapped. -/
theorem load_program_lays_out (cfg : ElfConfig) (hplaces : Places fits write mem)
    (target : List (BitVec 8))
    (payloads : List (List (BitVec 8)))
    (hfits : ∀ file ∈ target :: payloads, ∀ r ∈ fileSegments file, r.2 ≠ [] → fits r.1 r.2.length)
    (s : σ) :
    Outcome (loadProgram cfg write target payloads) s
      (fun p t =>
        p = loadedProgram (BitVec.ofNat 64 (elfImage target).ehdr.entry)
        (lookup (elfImage target).symbolTable) ∧
        mem t = lay (mem s) ((target :: payloads).flatMap fileSegments))
      (fun e t => (∃ addr, e = .memTrap addr) ∨
        ∃ part, part <+: (target :: payloads).flatMap fileSegments ∧ mem t = lay (mem s) part) :=
  outcome_loadProgram [] cfg (tracks_of_places hplaces (mem s)) hfits rfl

/-- **The loader stays inside the file.** Where no sum of its headers wraps around, `load_elf` reads
no byte outside the file, accepts it only when it is well formed, and ends, unless the file has 64
GiB. -/
theorem load_elf_stays_inside (cfg : ElfConfig) {file : List (BitVec 8)}
    (hno : (elfImage file).NoWrap)
    (hwrite : ∀ addr bytes s, Outcome (write addr bytes) s (fun _ _ => True) fun e _ => ∃ a,
      e = .memTrap a) (s : σ) :
    Outcome (loadElf cfg write file) s (fun _ _ => (elfImage file).WellFormed)
      fun e _ => e ≠ .outside ∧ (e = .endless → 2 ^ 36 ≤ file.length) := by
  have htracks : Tracks write (fun _ => True) (fun _ _ => True)
    (fun e (_ : σ) => ∃ a, e = .memTrap a) :=
    ⟨fun _ _ => hwrite _ _ _, fun h => h⟩
  have hload :=
    outcome_loadElf (s := s) [] cfg htracks (fun _ (_ : _ ∈ fileSegments file) _ => trivial) trivial
  refine hload.mono (fun _ _ h => h.2.2 hno) fun e t h => ?_
  obtain ⟨a, rfl⟩ | ⟨hsafe, -⟩ := h
  · exact ⟨ElfStop.noConfusion, ElfStop.noConfusion⟩
  · exact hsafe hno

/-! ### Chunks -/

namespace ChunkedMemif

variable (c : ChunkedMemif σ) (k fuel : Nat)

/-- `memif_t::write`, of bytes that are somewhere in the memory of the host. -/
def writeFn : WriteFn (ChunkRun σ) := fun addr bytes r =>
  match c.write fuel addr (BitVec.ofNat 64 bytes.length) 0#64
    { r with host := overwrite r.host 0#64 bytes } with
  | some (_, r') => .ok () r'
  | none => .error .endless r

/-- Ranges inside the address space, up to a length. -/
def FitsChunks (addr : BitVec 64) (n : Nat) : Prop :=
  addr.toNat + n ≤ 2 ^ 64 ∧ n < 2 ^ 64 ∧ c.Room n ∧ n < fuel

/-- **Transfers in chunks** place their bytes. -/
theorem places_writeFn {mem : σ → ByteMem} (hs : c.Sizes k) (hx : c.Exact k mem) :
    Places (c.FitsChunks fuel) (c.writeFn fuel) fun r => mem r.target := by
  rintro addr bytes r ⟨hinside, hlen, hroom, hfuel⟩
  have hlength : (BitVec.ofNat 64 bytes.length).toNat = bytes.length := by
    rw [BitVec.toNat_ofNat, Nat.mod_eq_of_lt hlen]
  have hends : Rounds.Ends (c.write fuel addr (BitVec.ofNat 64 bytes.length) 0#64)
      { r with host := overwrite r.host 0#64 bytes } _ :=
    ends_write hs hx (by rwa [hlength]) (by rwa [hlength]) (by rwa [hlength])
  obtain ⟨_, r', hrun, hleads⟩ := hends
  have htarget := hleads.target
  rw [hlength, slice_overwrite (Nat.le_of_lt hlen)] at htarget
  have heq : c.writeFn fuel addr bytes r = .ok () r' := by rw [writeFn, hrun]
  constructor
  · rintro _ t hok
    cases heq.symm.trans hok
    exact htarget
  · rintro _ _ herror
    cases heq.symm.trans herror

end ChunkedMemif

/-! ### A program -/

open Bytes ChunkedMemif

/-- A program for 64-bit machines: one instruction and two zeros at 0x80000000, and `tohost` at
0x80001000. -/
def smallProgram : List (BitVec 8) :=
  let ehdr := toBytes 0x00010102464c457f#64 8 ++ toBytes 0#64 8 ++ toBytes 0x100f30002#64 8 ++
    toBytes 0x80000000#64 8 ++
    toBytes 64#64 8 ++ toBytes 176#64 8 ++ toBytes 0x38004000000000#64 8 ++
      toBytes 0x1000300400001#64 8
  let phdr := toBytes 0x500000001#64 8 ++ toBytes 120#64 8 ++ toBytes 0x80000000#64 8 ++
    toBytes 0x80000000#64 8 ++
    toBytes 4#64 8 ++ toBytes 6#64 8 ++ toBytes 8#64 8
  let strings := [0#8] ++ symtabName ++ [0#8] ++ strtabName ++ [0#8] ++ symbolName "tohost" ++ [0#8]
  let sym := toBytes 17#64 8 ++ toBytes 0x80001000#64 8 ++ toBytes 8#64 8
  let strtab := toBytes 0x300000009#64 8 ++ toBytes 0#64 16 ++ toBytes 124#64 8 ++
    toBytes 24#64 8 ++ toBytes 0#64 24
  let symtab := toBytes 0x200000001#64 8 ++ toBytes 0#64 16 ++ toBytes 148#64 8 ++
    toBytes 24#64 8 ++ toBytes 0#64 24
  ehdr ++ phdr ++ toBytes 0x00100513#64 4 ++ strings ++ sym ++ toBytes 0#64 4 ++
    toBytes 0#64 64 ++ strtab ++ symtab

/-- Any machine, little-endian. -/
def anyXlen : ElfConfig where
  requiredXlen := 0
  targetBigEndian := false
  dualEndian := false

theorem segments_smallProgram : fileSegments smallProgram =
    [(0x80000000#64, [0x13#8, 0x05#8, 0x10#8, 0x00#8]), (0x80000004#64, [0x00#8, 0x00#8])] := by
  decide +kernel

theorem load_program_lays_out_smallProgram :
    Outcome (loadProgram anyXlen ((ofBytes 8#64 16#64).writeFn 14) smallProgram []) freshRun
      (fun p t => p = loadedProgram (BitVec.ofNat 64 (elfImage smallProgram).ehdr.entry)
          (lookup (elfImage smallProgram).symbolTable) ∧
        id t.target = lay (id freshRun.target) ([smallProgram].flatMap fileSegments))
      (fun e t => (∃ addr, e = .memTrap addr) ∨
        ∃ part, part <+: [smallProgram].flatMap fileSegments ∧
        id t.target = lay (id freshRun.target) part) := by
  have hplaces := places_writeFn (ofBytes 8#64 16#64) 3 14 sizes_words (exact_ofBytes _ _ _)
  refine load_program_lays_out anyXlen hplaces smallProgram [] ?_ freshRun
  intro file hfile r hr _
  rw [List.mem_singleton] at hfile
  subst hfile
  rw [segments_smallProgram, List.mem_cons, List.mem_singleton] at hr
  obtain rfl | rfl := hr
  · exact ⟨by decide, by decide, room_words.mono (by decide), by decide⟩
  · exact ⟨by decide, by decide, room_words.mono (by decide), by decide⟩

theorem noWrap_smallProgram : (elfImage smallProgram).NoWrap where
  phdrs := by decide +kernel
  data := by decide +kernel
  shdrs := by decide +kernel
  sections := by decide +kernel

/-- Writes to a memory without holes. -/
def flatWrite : WriteFn ByteMem := fun addr bytes m =>
  .ok () (overwrite m addr bytes)

theorem load_elf_stays_inside_smallProgram :
    Outcome (loadElf anyXlen flatWrite smallProgram) (fun _ => 0#8)
    (fun _ _ => (elfImage smallProgram).WellFormed)
      fun e _ => e ≠ .outside ∧ (e = .endless → 2 ^ 36 ≤ smallProgram.length) :=
  load_elf_stays_inside anyXlen noWrap_smallProgram
    (fun _ _ _ => ⟨fun _ => trivial, fun h => by cases h⟩) fun _ => 0#8

end Nnemu

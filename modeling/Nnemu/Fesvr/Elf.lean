import Mathlib.Algebra.Group.Nat.Defs
import Nnemu.Lib.Exec

/-!
# The ELF loader

`load_elf` maps a file, writes its segments to the memory of the target and returns the entry point
with the symbols of the file. The headers are those of a 32-bit or of a 64-bit file, in either byte
order, and every number comes out of the file: sums of them wrap around as they do in the source,
and a byte that is read outside the mapped file stops the load (`ElfStop.outside`).

Every read is through `touch`, which asks whether the byte lies in the file, and `check` is an
assertion of the source. The four kinds of files are one program over an `ElfImage`, which says how
a header is read.
-/

namespace Nnemu

/-! ### The format -/

/-- The class of a file. -/
inductive ElfClass where
  | elf32
  | elf64
deriving DecidableEq

/-- What is read of `Elf32_Ehdr` and of `Elf64_Ehdr`, behind the identification. -/
structure Ehdr where
  entry : Nat
  phoff : Nat
  shoff : Nat
  phnum : Nat
  shnum : Nat
  shstrndx : Nat

/-- What is read of `Elf32_Phdr` and of `Elf64_Phdr`. -/
structure Phdr where
  type : Nat
  offset : Nat
  paddr : Nat
  filesz : Nat
  memsz : Nat

/-- What is read of `Elf32_Shdr` and of `Elf64_Shdr`. -/
structure Shdr where
  name : Nat
  type : Nat
  offset : Nat
  size : Nat

/-- What is read of `Elf32_Sym` and of `Elf64_Sym`. -/
structure ElfSym where
  name : Nat
  value : Nat

namespace ElfClass

/-- The bits of addresses, offsets and sizes. -/
def bits : ElfClass → Nat
  | elf32 => 32
  | elf64 => 64

/-- `sizeof(phdr_t)` -/
def phdrSize : ElfClass → Nat
  | elf32 => 32
  | elf64 => 56

/-- `sizeof(shdr_t)` -/
def shdrSize : ElfClass → Nat
  | elf32 => 40
  | elf64 => 64

/-- `sizeof(sym_t)` -/
def symSize : ElfClass → Nat
  | elf32 => 16
  | elf64 => 24

variable (u : Nat → Nat → Nat)

/-- `ehdr_t`, where `u` reads a field at an offset. -/
def ehdr : ElfClass → Ehdr
  | elf32 =>
    { entry := u 24 4, phoff := u 28 4, shoff := u 32 4, phnum := u 44 2, shnum :=
      u 48 2, shstrndx := u 50 2 }
  | elf64 =>
    { entry := u 24 8, phoff := u 32 8, shoff := u 40 8, phnum := u 56 2, shnum :=
      u 60 2, shstrndx := u 62 2 }

/-- `phdr_t` -/
def phdr : ElfClass → Phdr
  | elf32 => { type := u 0 4, offset := u 4 4, paddr := u 12 4, filesz := u 16 4, memsz := u 20 4 }
  | elf64 => { type := u 0 4, offset := u 8 8, paddr := u 24 8, filesz := u 32 8, memsz := u 40 8 }

/-- `shdr_t` -/
def shdr : ElfClass → Shdr
  | elf32 => { name := u 0 4, type := u 4 4, offset := u 16 4, size := u 20 4 }
  | elf64 => { name := u 0 4, type := u 4 4, offset := u 24 8, size := u 32 8 }

/-- `sym_t` -/
def sym : ElfClass → ElfSym
  | elf32 => { name := u 0 4, value := u 4 4 }
  | elf64 => { name := u 0 4, value := u 8 8 }

end ElfClass

/-- A file in memory, with what its identification says. -/
structure ElfImage where
  file : List (BitVec 8)
  cls : ElfClass
  bigEndian : Bool

namespace ElfImage

variable (f : ElfImage)

/-- `from_le` or `from_be`, of a field -/
def number (bytes : List (BitVec 8)) : Nat :=
  (if f.bigEndian then bytes.reverse else bytes).foldr (fun b n => b.toNat + 256 * n) 0

/-- Part of the file. -/
def part (off len : Nat) : List (BitVec 8) :=
  (f.file.drop off).take len

/-- The field at an offset of a header. -/
def field (base off len : Nat) : Nat :=
  f.number (f.part (base + off) len)

/-- `eh` -/
def ehdr : Ehdr :=
  f.cls.ehdr (f.field 0)

/-- `ph + i` -/
def phdrAt (i : Nat) : Nat :=
  (f.ehdr.phoff + i * f.cls.phdrSize) % 2 ^ 64

/-- `ph[i]` -/
def phdr (i : Nat) : Phdr :=
  f.cls.phdr (f.field (f.phdrAt i))

/-- `sh + i` -/
def shdrAt (i : Nat) : Nat :=
  (f.ehdr.shoff + i * f.cls.shdrSize) % 2 ^ 64

/-- `sh[i]` -/
def shdr (i : Nat) : Shdr :=
  f.cls.shdr (f.field (f.shdrAt i))

/-- `sh[e_shstrndx]`, the string table of the section names -/
def shstr : Shdr :=
  f.shdr f.ehdr.shstrndx

/-- `sym + i` -/
def symAt (symtab : Shdr) (i : Nat) : Nat :=
  (symtab.offset + i * f.cls.symSize) % 2 ^ 64

/-- `sym[i]` -/
def sym (symtab : Shdr) (i : Nat) : ElfSym :=
  f.cls.sym (f.field (f.symAt symtab i))

/-- The string at an offset, up to its terminator. -/
def string (off : Nat) : List (BitVec 8) :=
  (f.file.drop off).takeWhile (· != 0#8)

/-- Where a string table has the string of a name. -/
def nameAt (table : Shdr) (name : Nat) : Nat :=
  (table.offset + name) % 2 ^ 64

/-- `bswap(p_memsz) - bswap(p_filesz)` -/
def pad (ph : Phdr) : Nat :=
  (ph.memsz + 2 ^ f.cls.bits - ph.filesz) % 2 ^ f.cls.bits

/-- `bswap(p_paddr) + bswap(p_filesz)` -/
def padAddr (ph : Phdr) : Nat :=
  (ph.paddr + ph.filesz) % 2 ^ f.cls.bits

end ElfImage

/-- `p_type == PT_LOAD && p_memsz` -/
def Phdr.loaded (ph : Phdr) : Bool :=
  ph.type == 1 && ph.memsz != 0

/-- `sh_type & SHT_NOBITS`, a test of one bit. -/
def Shdr.noBits (sh : Shdr) : Bool :=
  sh.type &&& 8 != 0

/-! ### The loader -/

/-- What stops a load. -/
inductive ElfStop where
  /-- `assert` -/
  | assertion
  /-- `mmap` fails, as it does for an empty file. -/
  | notMapped
  /-- `std::invalid_argument` -/
  | invalidArgument (what : String)
  /-- `incompat_xlen` -/
  | incompatXlen (expected actual : Nat)
  /-- `std::length_error` -/
  | lengthError
  /-- `mem_trap_t`, which a write to the memory of the target throws -/
  | memTrap (addr : BitVec 64)
  /-- a read outside the mapped file, which the source does not define -/
  | outside
  /-- a loop that does not end -/
  | endless
deriving DecidableEq

/-- Loads, over the states of a target. -/
abbrev ElfM (σ : Type) : Type → Type :=
  Exec ElfStop σ

/-- `std::map<std::string, uint64_t>` -/
abbrev Symbols : Type :=
  List (BitVec 8) → Option (BitVec 64)

/-- `memif_t::write` -/
abbrev WriteFn (σ : Type) : Type :=
  BitVec 64 → List (BitVec 8) → ElfM σ Unit

/-- What a load is asked for. -/
structure ElfConfig where
  /-- `required_xlen`, or zero -/
  requiredXlen : Nat
  /-- `get_target_endianness() == endianness_big` -/
  targetBigEndian : Bool
  /-- `RISCV_ENABLE_DUAL_ENDIAN` -/
  dualEndian : Bool

namespace ElfImage

variable {σ : Type} (f : ElfImage) (write : WriteFn σ)

/-- A stop on a condition. -/
def stopIf (b : Bool) (e : ElfStop) : ElfM σ Unit :=
  if b then throw e else pure ()

/-- `assert` -/
def check (b : Bool) : ElfM σ Unit :=
  stopIf (!b) .assertion

/-- A range of the file is read. -/
def touch (off len : Nat) : ElfM σ Unit :=
  if off + len ≤ f.file.length then pure () else throw .outside

/-- `bswap` of a sum of an offset and a size, against the size of the file -/
def checkRange (off size bits : Nat) : ElfM σ Unit :=
  check (decide ((off + size) % 2 ^ bits ≤ f.file.length))

/-- `strnlen` -/
def strnlen (off maxLen : Nat) : ElfM σ Nat :=
  let n := (f.string off).length
  if maxLen ≤ n then pure maxLen
  else if n < (f.file.drop off).length then pure n
  else throw .outside

/-- A string that the file is known to have the end of. -/
def cString (off : Nat) : ElfM σ (List (BitVec 8)) :=
  if (f.string off).length < (f.file.drop off).length then pure (f.string off) else throw .outside

/-- `max_len`, which is `unsigned` -/
def maxLen (table : Shdr) (name : Nat) : Nat :=
  (table.size + 2 ^ 32 - name) % 2 ^ 32

/-- The two assertions about the name of a section or of a symbol. -/
def checkName (table : Shdr) (name : Nat) : ElfM σ Unit := do
  check (decide (name < table.size))
  let n ← f.strnlen (nameAt table name) (maxLen table name)
  check (decide (n < maxLen table name))

/-- `LOAD_ELF`, the bytes of a segment that the file has. -/
def writeData (ph : Phdr) : ElfM σ Unit := do
  if ph.filesz ≠ 0 then
    f.checkRange ph.offset ph.filesz f.cls.bits
    f.touch ph.offset ph.filesz
    write (BitVec.ofNat 64 ph.paddr) (f.part ph.offset ph.filesz)

/-- `LOAD_ELF`, the bytes of a segment that the file does not have. A vector takes no more than
`PTRDIFF_MAX` of them. -/
def writePad (ph : Phdr) : ElfM σ Unit := do
  if f.pad ph ≠ 0 then
    stopIf (decide (2 ^ 63 ≤ f.pad ph)) .lengthError
    write (BitVec.ofNat 64 (f.padAddr ph)) (List.replicate (f.pad ph) 0#8)

/-- `LOAD_ELF`, one program header -/
def loadSegment (i : Nat) : ElfM σ Unit := do
  f.touch (f.phdrAt i) f.cls.phdrSize
  if (f.phdr i).loaded then
    f.writeData write (f.phdr i)
    f.writePad write (f.phdr i)

/-- `".strtab"` -/
def strtabName : List (BitVec 8) :=
  [0x2e#8, 0x73#8, 0x74#8, 0x72#8, 0x74#8, 0x61#8, 0x62#8]

/-- `".symtab"` -/
def symtabName : List (BitVec 8) :=
  [0x2e#8, 0x73#8, 0x79#8, 0x6d#8, 0x74#8, 0x61#8, 0x62#8]

/-- `LOAD_ELF`, one section header: `strtabidx` and `symtabidx` are those of the sections before. -/
def scanSection (shstr : Shdr) (idx : Nat × Nat) (i : Nat) : ElfM σ (Nat × Nat) := do
  f.touch (f.shdrAt i) f.cls.shdrSize
  f.checkName shstr (f.shdr i).name
  if (f.shdr i).noBits then pure idx
  else
    f.checkRange (f.shdr i).offset (f.shdr i).size f.cls.bits
    let name ← f.cString (nameAt shstr (f.shdr i).name)
    pure (if name = strtabName then i else idx.1, if name = symtabName then i else idx.2)

/-- `LOAD_ELF`, one symbol -/
def loadSymbol (strtab symtab : Shdr) (symbols : Symbols) (i : Nat) : ElfM σ Symbols := do
  f.touch (f.symAt symtab i) f.cls.symSize
  f.checkName strtab (f.sym symtab i).name
  let name ← f.cString (nameAt strtab (f.sym symtab i).name)
  pure fun n => if n = name then some (BitVec.ofNat 64 (f.sym symtab i).value) else symbols n

/-- `LOAD_ELF`, the symbol table. The counter has 32 bits, so it stays below a count that has
more. -/
def loadSymbols (strtab symtab : Shdr) : ElfM σ Symbols := do
  let count := symtab.size / f.cls.symSize
  let symbols ← (List.range (min count (2 ^ 32))).foldlM (f.loadSymbol strtab symtab) fun _ => none
  stopIf (decide (2 ^ 32 ≤ count)) .endless
  pure symbols

/-- `LOAD_ELF`, the sections -/
def loadSections : ElfM σ Symbols := do
  f.checkRange f.ehdr.shoff (f.ehdr.shnum * f.cls.shdrSize) 64
  check (decide (f.ehdr.shstrndx < f.ehdr.shnum))
  f.touch (f.shdrAt f.ehdr.shstrndx) f.cls.shdrSize
  f.checkRange f.shstr.offset f.shstr.size f.cls.bits
  let idx ← (List.range f.ehdr.shnum).foldlM (f.scanSection f.shstr) (0, 0)
  if idx.1 ≠ 0 ∧ idx.2 ≠ 0 then
    f.touch (f.shdrAt idx.1) f.cls.shdrSize
    f.touch (f.shdrAt idx.2) f.cls.shdrSize
    f.loadSymbols (f.shdr idx.1) (f.shdr idx.2)
  else pure fun _ => none

/-- `LOAD_ELF` -/
def load : ElfM σ (BitVec 64 × Symbols) := do
  f.checkRange f.ehdr.phoff (f.ehdr.phnum * f.cls.phdrSize) 64
  (List.range f.ehdr.phnum).foldlM (fun _ i => f.loadSegment write i) ()
  let symbols ← f.loadSections
  pure (BitVec.ofNat 64 f.ehdr.entry, symbols)

end ElfImage

/-! ### Files -/

/-- `IS_ELF` -/
def isElf (file : List (BitVec 8)) : Bool :=
  file.take 4 == [0x7f#8, 0x45#8, 0x4c#8, 0x46#8]

/-- A byte of `e_ident`. -/
def identIs (file : List (BitVec 8)) (i : Nat) (b : BitVec 8) : Bool :=
  isElf file && file[i]? == some b

/-- `IS_ELF32` -/
def isElf32 (file : List (BitVec 8)) : Bool := identIs file 4 1#8

/-- `IS_ELF64` -/
def isElf64 (file : List (BitVec 8)) : Bool := identIs file 4 2#8

/-- `IS_ELFLE` -/
def isElfLE (file : List (BitVec 8)) : Bool := identIs file 5 1#8

/-- `IS_ELFBE` -/
def isElfBE (file : List (BitVec 8)) : Bool := identIs file 5 2#8

/-- A file as its identification says. -/
def elfImage (file : List (BitVec 8)) : ElfImage where
  file := file
  cls := if isElf32 file then .elf32 else .elf64
  bigEndian := !isElfLE file

/-- The byte order of a file, against that of the target. -/
def ElfConfig.checkEndian {σ : Type} (cfg : ElfConfig) (bigEndian : Bool) : ElfM σ Unit := do
  if bigEndian then
    ElfImage.stopIf (!cfg.dualEndian)
      (.invalidArgument
        "Specified ELF is big endian.  Configure with --enable-dual-endian to enable support")
    ElfImage.stopIf (!cfg.targetBigEndian) (.invalidArgument
      "Specified ELF is big endian, but system uses a little-endian memory system. Rerun with --big-endian")
  else
    ElfImage.stopIf cfg.targetBigEndian (.invalidArgument
      "Specified ELF is little endian, but system uses a big-endian memory system. Rerun without --big-endian")

/-- The checks of `load_elf` in front of `LOAD_ELF`. -/
def ElfConfig.checkHeader {σ : Type} (cfg : ElfConfig) (file : List (BitVec 8)) : ElfM σ Unit := do
  let f := elfImage file
  ElfImage.stopIf file.isEmpty .notMapped
  ElfImage.check (decide (64 ≤ file.length))
  ElfImage.check (isElf32 file || isElf64 file)
  ElfImage.stopIf (cfg.requiredXlen != 0 && cfg.requiredXlen != f.cls.bits)
    (.incompatXlen cfg.requiredXlen f.cls.bits)
  ElfImage.check (isElfLE file || isElfBE file)
  -- `e_type`, `e_machine` and `e_version` are at the same place in both classes
  ElfImage.check (f.field 0 16 2 == 2)
  ElfImage.check (f.field 0 18 2 == 243 || f.field 0 18 2 == 0)
  ElfImage.check (f.field 0 20 4 == 1)
  cfg.checkEndian f.bigEndian

/-- `load_elf`, of an open file -/
def loadElf {σ : Type} (cfg : ElfConfig) (write : WriteFn σ) (file : List (BitVec 8)) :
    ElfM σ (BitVec 64 × Symbols) := do
  cfg.checkHeader file
  (elfImage file).load write

/-- What `load_program` finds in the files. -/
structure LoadedProgram where
  entry : BitVec 64
  tohostAddr : BitVec 64
  fromhostAddr : BitVec 64
  sigAddr : BitVec 64
  sigLen : BitVec 64

/-- A symbol as a string of the host. -/
def symbolName (s : String) : List (BitVec 8) :=
  s.toList.map fun ch => BitVec.ofNat 8 ch.toNat

/-- Two symbols, when the file has both. -/
def Symbols.pair (symbols : Symbols) (a b : String) : Option (BitVec 64 × BitVec 64) := do
  let x ← symbols (symbolName a)
  let y ← symbols (symbolName b)
  pure (x, y)

/-- The entry point and the symbols of the program that the host talks to. -/
def loadedProgram (entry : BitVec 64) (symbols : Symbols) : LoadedProgram :=
  let host := (symbols.pair "tohost" "fromhost").getD (0#64, 0#64)
  let signature := (symbols.pair "begin_signature" "end_signature").getD (0#64, 0#64)
  { entry := entry
    tohostAddr := host.1
    fromhostAddr := host.2
    sigAddr := signature.1
    sigLen := signature.2 - signature.1 }

/-- `htif_t::load_program`, of files that were found -/
def loadProgram {σ : Type} (cfg : ElfConfig) (write : WriteFn σ) (target : List (BitVec 8))
    (payloads : List (List (BitVec 8))) : ElfM σ LoadedProgram := do
  let (entry, symbols) ← loadElf cfg write target
  payloads.forM fun file => do let _ ← loadElf cfg write file
  pure (loadedProgram entry symbols)

end Nnemu

import Nnemu.Encoding
import Mathlib.Algebra.Group.Int.Defs
import Mathlib.Logic.Function.Basic

/-!
# The cache simulator

`cache_sim_t` and `fa_cache_sim_t`. A cache counts accesses and misses; it holds no data, only for
each way a word with the number of a line and two flags. The first class keeps the words in an array
of `sets * ways`, the second one in a map from line numbers; the rest of the code is common to both
and reaches the words through `check_tag` and `victimize`. What a cache asks of its miss handler is
returned as a list of requests, in order.

The source has a class with two virtual functions and a subclass that overrides them. Here the words
of a cache are a `Tags`, an array or a map, and the two functions look at which one it is. `ofSizes`
and `construct` are the constructors with the checks they make, and `Request` is what a cache asks
of the level below.
-/

namespace Nnemu

namespace CacheSim

/-- `VALID` -/
def valid : Reg := 1#64 <<< 63
/-- `DIRTY` -/
def dirty : Reg := 1#64 <<< 62

/-- `lfsr_t::next`: the new register, which is also what is returned. -/
def lfsrNext (reg : BitVec 32) : BitVec 32 :=
  (reg >>> 1) ^^^ (-(reg &&& 1#32) &&& 0xd0000001#32)

/-- The counters. -/
structure Counters where
  readAccesses : Reg
  readMisses : Reg
  bytesRead : Reg
  writeAccesses : Reg
  writeMisses : Reg
  bytesWritten : Reg
  writebacks : Reg

/-- `tags` of the two classes: an array, and a map as the list of its entries in ascending order. -/
inductive Tags where
  | array (tags : Nat → Reg)
  | map (tags : List (Reg × Reg))

/-- A call of one of the two public functions. -/
inductive Request where
  | access (addr bytes : Reg) (store : Bool)
  | cleanInvalidate (addr bytes : Reg) (clean inval : Bool)

/-- `tags[key] = word` of a map. -/
def assign (key word : Reg) : List (Reg × Reg) → List (Reg × Reg)
  | [] => [(key, word)]
  | (k, w) :: rest =>
    if key = k then (key, word) :: rest
    else if key < k then (key, word) :: (k, w) :: rest
    else (k, w) :: assign key word rest

end CacheSim

open CacheSim in
/-- A cache of either class. -/
structure CacheSim where
  sets : Reg
  ways : Reg
  linesz : Reg
  idxShift : Nat
  lfsr : BitVec 32
  tags : Tags
  counters : Counters

namespace CacheSim

variable (c : CacheSim) (addr : Reg)

/-- `addr >> idx_shift` -/
def line : Reg := addr >>> c.idxShift

/-- `(addr >> idx_shift) & (sets-1)` -/
def idx : Nat := (c.line addr &&& (c.sets - 1#64)).toNat

/-- `(addr >> idx_shift) | VALID` -/
def tag : Reg := c.line addr ||| valid

/-! ### The words -/

/-- The word at a position: of the array, or of the map in its order. -/
def word (k : Nat) : Reg :=
  match c.tags with
  | .array tags => tags k
  | .map tags => ((tags[k]?).map fun e => e.2).getD 0#64

/-- Store a word where `check_tag` points to. -/
def setWord (k : Nat) (w : Reg) : CacheSim :=
  match c.tags with
  | .array tags => { c with tags := .array (Function.update tags k w) }
  | .map tags => { c with tags := .map (tags.modify k fun e => (e.1, w)) }

/-- `check_tag`; `none` is the null pointer. -/
def checkTag : Option Nat :=
  match c.tags with
  | .array tags =>
    ((List.range c.ways.toNat).map fun i => c.idx addr * c.ways.toNat + i).find? fun k =>
      c.tag addr == tags k &&& ~~~dirty
  | .map tags => tags.findIdx? fun e => e.1 == c.line addr

/-- `victimize`: the cache afterwards and the word that made room. `none` is a division by zero, or
the iterator moved past the end. -/
def victimize : Option (CacheSim × Reg) :=
  let next := lfsrNext c.lfsr
  match c.tags with
  | .array tags =>
    if c.ways = 0#64 then none
    else
      let k := c.idx addr * c.ways.toNat + next.toNat % c.ways.toNat
      some ({ c with lfsr := next, tags := .array (Function.update tags k (c.tag addr)) }, tags k)
  | .map tags =>
    if tags.length = c.ways.toNat then
      if c.ways = 0#64 then none
      else
        (tags[next.toNat % c.ways.toNat]?).map fun e =>
          let left := tags.eraseIdx (next.toNat % c.ways.toNat)
          ({ c with lfsr := next, tags := .map (assign (c.line addr) (c.tag addr) left) }, e.2)
    else some ({ c with tags := .map (assign (c.line addr) (c.tag addr) tags) }, 0#64)

/-! ### Counting -/

/-- The two counters of an access. -/
def countAccess (bytes : Reg) (store : Bool) : CacheSim :=
  let n := c.counters
  if store then
    { c with
      counters :=
      { n with writeAccesses := n.writeAccesses + 1#64, bytesWritten := n.bytesWritten + bytes } }
  else { c with
    counters := { n with readAccesses := n.readAccesses + 1#64, bytesRead := n.bytesRead + bytes } }

/-- `store ? write_misses++ : read_misses++` -/
def countMiss (store : Bool) : CacheSim :=
  let n := c.counters
  if store then { c with counters := { n with writeMisses := n.writeMisses + 1#64 } }
  else { c with counters := { n with readMisses := n.readMisses + 1#64 } }

/-- `writebacks++` -/
def countWriteback : CacheSim :=
  { c with counters := { c.counters with writebacks := c.counters.writebacks + 1#64 } }

/-! ### The public functions -/

/-- The part of `access` after `victimize`: the writeback of the victim and the fill. -/
def afterVictim (store : Bool) (victim : Reg) : Option (CacheSim × List Request) :=
  let isDirty := victim &&& (valid ||| dirty) == valid ||| dirty
  let dirtyAddr := (victim &&& ~~~(valid ||| dirty)) <<< c.idxShift
  let c' := if isDirty then c.countWriteback else c
  let sent := (if isDirty then [.access dirtyAddr c.linesz true] else []) ++
    [.access (addr &&& ~~~(c.linesz - 1#64)) c.linesz false]
  if store then (c'.checkTag addr).map fun k => (c'.setWord k (c'.word k ||| dirty), sent)
  else some (c', sent)

/-- `access`; `none` is a failure of `victimize`, or the null pointer written through. -/
def access (bytes : Reg) (store : Bool) : Option (CacheSim × List Request) :=
  let c := c.countAccess bytes store
  match c.checkTag addr with
  | some k => some (if store then c.setWord k (c.word k ||| dirty) else c, [])
  | none =>
    ((c.countMiss store).victimize addr).bind fun p => p.1.afterVictim addr store p.2

/-- One round of the loop of `clean_invalidate`. -/
def cleanLine (clean inval : Bool) (c : CacheSim) (curAddr : Reg) : CacheSim :=
  match c.checkTag curAddr with
  | none => c
  | some k =>
    let c := if clean && hasBits (c.word k) dirty then c.countWriteback.setWord k
      (c.word k &&& ~~~dirty) else c
    if inval then c.setWord k (c.word k &&& ~~~valid) else c

/-- The values of `cur_addr`: from `start_addr` in steps of `linesz`, below `end_addr`. Both ends
are multiples of `linesz`, a power of two, so the last step does not wrap around. -/
def curAddrs (bytes : Reg) : List Reg :=
  let startAddr := addr &&& ~~~(c.linesz - 1#64)
  let endAddr := (addr + bytes + c.linesz - 1#64) &&& ~~~(c.linesz - 1#64)
  let rounds := if startAddr < endAddr then (endAddr - startAddr).toNat / c.linesz.toNat else 0
  (List.range rounds).map fun i => startAddr + BitVec.ofNat 64 i * c.linesz

/-- `clean_invalidate` -/
def cleanInvalidate (bytes : Reg) (clean inval : Bool) : CacheSim × List Request :=
  ((c.curAddrs addr bytes).foldl (cleanLine clean inval) c,
    [.cleanInvalidate addr bytes clean inval])

/-- A call of either function. -/
def step (c : CacheSim) : Request → Option (CacheSim × List Request)
  | .access addr bytes store => c.access addr bytes store
  | .cleanInvalidate addr bytes clean inval => some (c.cleanInvalidate addr bytes clean inval)

/-! ### Construction -/

/-- `atoi`, as the C library has it: blanks, a sign, and the digits up to the first other character,
read as a `long` that saturates, of which the `int` keeps the low half. -/
def atoi (s : List Char) : BitVec 32 :=
  let s := s.dropWhile fun ch => ch = ' ' ∨ ('\t' ≤ ch ∧ ch ≤ '\r')
  let negative := s.head? = some '-'
  let s := if s.head? = some '-' ∨ s.head? = some '+' then s.tail else s
  let value := (s.takeWhile Char.isDigit).foldl (fun n ch => 10 * n + (ch.toNat - '0'.toNat)) 0
  BitVec.ofInt 32
    (if negative then max (-(value : Int)) (-2 ^ 63) else min (value : Int) (2 ^ 63 - 1))

/-- The conversion of an `int` to `size_t`. -/
def sizeT (x : BitVec 32) : Reg := x.signExtend 64

/-- The most words `new` can make room for; it throws when there are more. -/
def maxWords : Reg := 0x0fffffffffffffff#64

/-- The constructors with `init`. `none` is the exit of `help`, or `new` throwing. -/
def init (sets ways linesz : Reg) (tags : Tags) : Option CacheSim :=
  if sets = 0#64 ∨ sets &&& (sets - 1#64) ≠ 0#64 then none
  else if linesz < 8#64 ∨ linesz &&& (linesz - 1#64) ≠ 0#64 then none
  else if maxWords < sets * ways then none
  else
    some
      { sets := sets
        ways := ways
        linesz := linesz
        idxShift := linesz.toNat.log2
        lfsr := 1#32
        tags := tags
        counters := ⟨0#64, 0#64, 0#64, 0#64, 0#64, 0#64, 0#64⟩ }

/-- The choice of the class in `construct`. -/
def ofSizes (sets ways linesz : Reg) : Option CacheSim :=
  if 4#64 < ways ∧ sets = 1#64 then init 1#64 ways linesz (.map [])
  else init sets ways linesz (.array fun _ => 0#64)

/-- `construct` -/
def construct (config : List Char) : Option CacheSim :=
  match config.dropWhile fun ch => ch ≠ ':' with
  | [] => none
  | _ :: wp =>
    match wp.dropWhile fun ch => ch ≠ ':' with
    | [] => none
    | _ :: bp => ofSizes (sizeT (atoi config)) (sizeT (atoi wp)) (sizeT (atoi bp))

end CacheSim

end Nnemu

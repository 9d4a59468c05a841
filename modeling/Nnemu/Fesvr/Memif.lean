import Nnemu.Lib.Overwrite
import Nnemu.Lib.Total

/-!
# Memory of the target, in chunks

`memif_t` reads and writes any range of the memory of the target over a `chunked_memif_t`, which
moves aligned chunks: what sticks out at the head and at the tail is moved as part of a chunk. The
host's own memory is part of the state, and so is the list of accesses that were issued.

The functions are those of `memif.cc` with their pointer arithmetic: an address is cut into the base
of its chunk and the rest, and a head or a tail is read as a whole chunk of which a part is used.
`ChunkRun` has the accesses in the order in which they are issued.
-/

namespace Nnemu

open Overwrite

/-- Memory of the host or of the target. -/
abbrev ByteMem := BitVec 64 → BitVec 8

/-- `chunked_memif_t`, over the states of a target. -/
structure ChunkedMemif (σ : Type) where
  readChunk : BitVec 64 → BitVec 64 → σ → List (BitVec 8) × σ
  writeChunk : BitVec 64 → BitVec 64 → List (BitVec 8) → σ → σ
  clearChunk : BitVec 64 → BitVec 64 → σ → σ
  chunkAlign : BitVec 64
  chunkMaxSize : BitVec 64

/-- An access of the target. -/
inductive ChunkAccess where
  | read (taddr len : BitVec 64)
  | write (taddr len : BitVec 64)
  | clear (taddr len : BitVec 64)
deriving DecidableEq

/-- Where a transfer has got to. -/
structure ChunkRun (σ : Type) where
  target : σ
  host : ByteMem
  issued : List ChunkAccess

/-- A transfer. It does not end when a loop needs more rounds than it is given. -/
abbrev ChunkM (σ : Type) := Rounds (ChunkRun σ)

/-- `std::min` of `size_t` -/
def sizeMin (a b : BitVec 64) : BitVec 64 :=
  if b < a then b else a

namespace ChunkedMemif

variable {σ : Type} (c : ChunkedMemif σ)

/-! ### Accesses -/

/-- `cmemif->read_chunk` into an array of the function. -/
def load (taddr len : BitVec 64) : ChunkM σ (List (BitVec 8)) := fun r =>
  let (chunk, t) := c.readChunk taddr len r.target
  some (chunk, { r with target := t, issued := r.issued ++ [.read taddr len] })

/-- `cmemif->write_chunk` -/
def store (taddr len : BitVec 64) (src : List (BitVec 8)) : ChunkM σ Unit := fun r =>
  some ((),
    { r with
      target := c.writeChunk taddr len src r.target, issued := r.issued ++ [.write taddr len] })

/-- `cmemif->clear_chunk` -/
def clear (taddr len : BitVec 64) : ChunkM σ Unit := fun r =>
  some ((),
    { r with
      target := c.clearChunk taddr len r.target, issued := r.issued ++ [.clear taddr len] })

/-- `memcpy` into the memory of the host. -/
def memcpy (dst : BitVec 64) (src : List (BitVec 8)) : ChunkM σ Unit := fun r =>
  some ((), { r with host := overwrite r.host dst src })

/-- The bytes at a pointer of the host. -/
def hostBytes (src : BitVec 64) (len : BitVec 64) : ChunkM σ (List (BitVec 8)) := fun r =>
  some (slice r.host src len.toNat, r)

/-- `for (size_t pos = 0; pos < len; pos += chunk_max_size())`, from `pos` on. -/
def chunkLoop (len : BitVec 64) (body : BitVec 64 → BitVec 64 → ChunkM σ Unit) :
    Nat → BitVec 64 → ChunkM σ Unit
  | 0, _ => Rounds.exhausted
  | fuel + 1, pos =>
    if pos < len then do
      body pos (sizeMin c.chunkMaxSize (len - pos))
      chunkLoop len body fuel (pos + c.chunkMaxSize)
    else pure ()

/-! ### Transfers -/

/-- `addr & (align-1)` -/
def low (addr : BitVec 64) : BitVec 64 :=
  addr &&& (c.chunkAlign - 1#64)

/-- `addr & ~(align-1)` -/
def base (addr : BitVec 64) : BitVec 64 :=
  addr &&& ~~~(c.chunkAlign - 1#64)

/-- Is there something in front of the first boundary? -/
def hasHead (addr len : BitVec 64) : Bool :=
  len != 0#64 && c.low addr != 0#64

/-- How much is it? -/
def headLen (addr len : BitVec 64) : BitVec 64 :=
  if c.hasHead addr len then sizeMin len (c.chunkAlign - c.low addr) else 0#64

/-- `memif_t::read`, at the head. -/
def readHead (addr len bytes : BitVec 64) : ChunkM σ Unit := do
  if c.hasHead addr len then
    let chunk ← c.load (c.base addr) c.chunkAlign
    memcpy bytes ((chunk.drop (c.low addr).toNat).take (c.headLen addr len).toNat)

/-- `memif_t::read`, at the tail. -/
def readTail (addr len bytes : BitVec 64) : ChunkM σ Unit := do
  if c.low len ≠ 0#64 then
    let start := len - c.low len
    let chunk ← c.load (addr + start) c.chunkAlign
    memcpy (bytes + start) (chunk.take (c.low len).toNat)

/-- `memif_t::read`, between the two. -/
def readAligned (fuel : Nat) (addr len bytes : BitVec 64) : ChunkM σ Unit :=
  c.chunkLoop len (fun pos n => do
    let chunk ← c.load (addr + pos) n
    memcpy (bytes + pos) chunk) fuel 0#64

/-- `memif_t::read`, behind the head. -/
def readRest (fuel : Nat) (addr len bytes : BitVec 64) : ChunkM σ Unit := do
  c.readTail addr len bytes
  c.readAligned fuel addr (len - c.low len) bytes

/-- `memif_t::read` -/
def read (fuel : Nat) (addr len bytes : BitVec 64) : ChunkM σ Unit := do
  c.readHead addr len bytes
  let thisLen := c.headLen addr len
  c.readRest fuel (addr + thisLen) (len - thisLen) (bytes + thisLen)

/-- `memif_t::write`, at the head. -/
def writeHead (addr len bytes : BitVec 64) : ChunkM σ Unit := do
  if c.hasHead addr len then
    let chunk ← c.load (c.base addr) c.chunkAlign
    let src ← hostBytes bytes (c.headLen addr len)
    let off := (c.low addr).toNat
    c.store (c.base addr) c.chunkAlign (chunk.take off ++ src ++ chunk.drop (off + src.length))

/-- `memif_t::write`, at the tail. -/
def writeTail (addr len bytes : BitVec 64) : ChunkM σ Unit := do
  if c.low len ≠ 0#64 then
    let start := len - c.low len
    let chunk ← c.load (addr + start) c.chunkAlign
    let src ← hostBytes (bytes + start) (c.low len)
    c.store (addr + start) c.chunkAlign (src ++ chunk.drop src.length)

/-- `memif_t::write`, between the two. A range of zeros is cleared. -/
def writeAligned (fuel : Nat) (addr len bytes : BitVec 64) : ChunkM σ Unit := do
  let src ← hostBytes bytes len
  if len ≠ 0#64 ∧ src.all (· == 0#8) then c.clear addr len
  else
    c.chunkLoop len (fun pos n => do
      let src ← hostBytes (bytes + pos) n
      c.store (addr + pos) n src) fuel 0#64

/-- `memif_t::write`, behind the head. -/
def writeRest (fuel : Nat) (addr len bytes : BitVec 64) : ChunkM σ Unit := do
  c.writeTail addr len bytes
  c.writeAligned fuel addr (len - c.low len) bytes

/-- `memif_t::write` -/
def write (fuel : Nat) (addr len bytes : BitVec 64) : ChunkM σ Unit := do
  c.writeHead addr len bytes
  let thisLen := c.headLen addr len
  c.writeRest fuel (addr + thisLen) (len - thisLen) (bytes + thisLen)

/-- `htif_t::clear_chunk`, which has an array of zeros. -/
def htifClearChunk (fuel : Nat) (taddr len : BitVec 64) : ChunkM σ Unit :=
  c.chunkLoop len (fun pos n => c.store (taddr + pos) n (List.replicate n.toNat 0#8)) fuel 0#64

end ChunkedMemif

end Nnemu

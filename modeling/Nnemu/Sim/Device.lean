import Nnemu.Mmu.World

/-!
# Registers of devices

Devices keep their registers in little-endian words of 4 or 8 bytes. A load or store of a few bytes
goes to the word that the address selects; the bytes are found at the address modulo the size of the
word.
-/

namespace Nnemu

/-- What a device load returns: the bytes, or none when it is refused. -/
abbrev LoadResult := Option (List (BitVec 8))

/-- `read_little_endian_reg`, for a word of `size` bytes. -/
def readLittleEndianReg (size : Nat) (word addr : Reg) (len : Nat) : List (BitVec 8) :=
  (List.range len).map fun i => (word >>> (8 * ((addr.toNat + i) % size))).setWidth 8

/-- `write_little_endian_reg`, for a word of `size` bytes. -/
def writeLittleEndianReg (size : Nat) (word addr : Reg) : List (BitVec 8) → Reg
  | [] => word
  | b :: bs =>
    let shift := 8 * (addr.toNat % size)
    writeLittleEndianReg size ((word &&& ~~~(0xff#64 <<< shift)) ||| (b.setWidth 64 <<< shift))
      (addr + 1#64) bs

end Nnemu

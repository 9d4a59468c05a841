import Nnemu.Encoding

/-!
# Extensions and the instruction set of a configuration

The extensions of `isa_extension_t`: the single letters that are bits of `misa` and the multi-letter
names behind them. An `Isa` is what an accepted ISA string and privilege string leave in
`isa_parser_t`; the two dependencies its constructor enforces, S needs U and H needs S, are fields.
-/

namespace Nnemu

/-- `isa_extension_t`, the letters first. -/
inductive Ext where
  | a | c | d | e | f | h | i | m | p | q | s | u | v | x
  | zfh | zfhmin | zba | zbb | zbc | zbs | zbkb | zbkc | zbkx
  | zca | zcb | zcd | zcf | zcmp | zcmt
  | zknd | zkne | zknh | zksed | zksh | zkr
  | zmmul | zbpbo | zpn | zpsfoperand | zvfh | zvfhmin
  | smepmp | smstateen | smrnmi | sscofpmf
  | svadu | svnapot | svpbmt | svinval
  | zdinx | zfa | zfinx | zhinx | zhinxmin
  | zicbom | zicboz | zicntr | zicond | zihpm
  | xzbp | xzbs | xzbe | xzbf | xzbc | xzbm | xzbr | xzbt
  | sstc
deriving DecidableEq, Repr

/-- The bit of a letter in `misa`, its distance from `'A'`. -/
def Ext.misaBit : Ext → Option Nat
  | a => some 0
  | c => some 2
  | d => some 3
  | e => some 4
  | f => some 5
  | h => some 7
  | i => some 8
  | m => some 12
  | p => some 15
  | q => some 16
  | s => some 18
  | u => some 20
  | v => some 21
  | x => some 23
  | _ => none

/-- The letters, in the order of the alphabet. -/
def Ext.letters : List Ext :=
  [a, c, d, e, f, h, i, m, p, q, s, u, v, x]

/-- `extension_table`, a bit set. -/
abbrev ExtTable := Ext → Bool

/-- An accepted configuration: the register width, the extensions and the names of the custom
extensions that were asked for. -/
structure Isa where
  /-- `max_xlen` -/
  xlen : Xlen
  /-- `extension_table` -/
  table : ExtTable
  /-- `extensions`, by name -/
  extensions : List String
  /-- the privilege strings are `m`, `mu` and `msu` -/
  u_of_s : table .s = true → table .u = true
  /-- `bad_isa_string(str, "'H' extension requires S mode")` -/
  s_of_h : table .h = true → table .s = true

namespace Isa

/-- The bit of a letter, as `1UL << (ch - 'A')`; names that are no letter have none. -/
def misaMask (ext : Ext) : Reg :=
  match ext.misaBit with
  | some b => BitVec.twoPow 64 b
  | none => 0#64

/-- The top bits of `max_isa`: `reg_t(1) << 30` or `reg_t(2) << 62`. -/
def misaMxl : Xlen → Reg
  | .rv32 => 0x40000000#64
  | .rv64 => 0x8000000000000000#64

/-- `max_isa` -/
def maxIsa (isa : Isa) : Reg :=
  Ext.letters.foldl (fun m ext => if isa.table ext then m ||| misaMask ext else m)
    (misaMxl isa.xlen)

end Isa

end Nnemu

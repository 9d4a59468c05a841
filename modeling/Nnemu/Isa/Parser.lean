import Nnemu.Isa.Extension

/-!
# The ISA string parser

The constructor of `isa_parser_t`. A C string is the list of its characters without the terminating
zero. The parser walks a pointer over the string; where that pointer would pass the terminating zero
the result is the error `overRead`. Custom extensions are looked up outside the program, in shared
libraries: that lookup is the parameter `find`.
-/

namespace Nnemu

namespace Isa

/-- How the constructor fails. -/
inductive ParseError where
  /-- `bad_isa_string(str, msg)`, then `abort()` -/
  | badIsaString (msg : String)
  /-- `bad_priv_string(priv)`, then `abort()` -/
  | badPrivString
  /-- `extensions must have unique names (got two named "%s"!)`, then `abort()` -/
  | notUnique (name : String)
  /-- `find_extension` exits -/
  | notFound (name : String)
  /-- a read behind the terminating zero -/
  | overRead
  /-- the bound of a loop is used up; the bounds given below are never reached -/
  | outOfFuel
deriving DecidableEq

/-- What the parser accumulates: `extension_table` and `extensions`. -/
structure ParseState where
  table : ExtTable
  extensions : List String

namespace ParseState

/-- All bits clear. -/
def empty : ParseState := ⟨fun _ => false, []⟩

/-- `extension_table[ext] = true` -/
def enable (ps : ParseState) (ext : Ext) : ParseState :=
  { ps with table := fun ext' => ext' = ext || ps.table ext' }

/-- A group of assignments. -/
def enableAll (ps : ParseState) (exts : List Ext) : ParseState :=
  exts.foldl enable ps

/-- An assignment under a condition. -/
def enableIf (ps : ParseState) (b : Bool) (ext : Ext) : ParseState :=
  if b then ps.enable ext else ps

end ParseState

/-! ### Characters -/

/-- `strtolower` -/
def strtolower (s : List Char) : List Char :=
  s.map Char.toLower

/-- `all_subsets` -/
def allSubsets : List Char := "mafdqchpv".toList

/-- `toupper(*p)` as an index of `extension_table`. -/
def letterExt (c : Char) : Ext :=
  if c = 'm' then .m
  else if c = 'a' then .a
  else if c = 'f' then .f
  else if c = 'd' then .d
  else if c = 'q' then .q
  else if c = 'c' then .c
  else if c = 'h' then .h
  else if c = 'p' then .p
  else .v

/-- Skip the major version, point and minor version behind a letter. -/
def skipVersion : List Char → List Char
  | [] => []
  | [c] => if c.isDigit then [] else [c]
  | c :: c' :: rest =>
    if c.isDigit then
      if c' = 'p' then skipVersion rest else skipVersion (c' :: rest)
    else c :: c' :: rest

/-- An underscore may be used to improve readability. -/
def skipUnderscore : List Char → List Char
  | '_' :: rest => rest
  | s => s

/-! ### Single letters -/

/-- The `switch` on a letter and the assignment behind it. -/
def enableLetter (ps : ParseState) (c : Char) : ParseState :=
  let ps :=
    if c = 'p' then ps.enableAll [.zbpbo, .zpn, .zpsfoperand, .zmmul]
    -- even rv32iv implies double float
    else if c = 'v' || c = 'q' then ps.enableAll [.d, .f]
    else if c = 'd' then ps.enable .f
    else ps
  ps.enable (letterExt c)

/-- The loop over the single letters: the letters come in the order of `all_subsets`, of which
`subset` is left. -/
def letterLoop : Nat → ParseState → List Char → List Char →
    Except ParseError (ParseState × List Char)
  | 0, _, _, _ => .error .outOfFuel
  | _ + 1, ps, _, [] => .ok (ps, [])
  | fuel + 1, ps, subset, c :: rest =>
    if c.isLower && !"zsx".toList.contains c then
      match subset.dropWhile (· ≠ c) with
      | [] =>
        if allSubsets.contains c then
          .error (.badIsaString s!"Extension '{c}' appears too late in ISA string")
        else .error (.badIsaString s!"Unsupported extension '{c}'")
      | subset' => letterLoop fuel (enableLetter ps c) subset' (skipUnderscore (skipVersion rest))
    else .ok (ps, c :: rest)

/-! ### Extension names -/

/-- The name up to the next underscore, of which the first character is taken as it is. -/
def extName : List Char → List Char
  | [] => []
  | c :: rest => c :: rest.takeWhile (· ≠ '_')

/-- The chain of comparisons on a name that starts with neither `x` nor anything with a condition:
the extensions it switches on. -/
def plainExtension (ext_str : String) : Option (List Ext) :=
  match ext_str with
  | "zicsr" | "zifencei" | "zihintpause" | "zihintntl" => some []
  | "zmmul" => some [.zmmul]
  | "zba" => some [.zba]
  | "zbb" => some [.zbb]
  | "zbc" => some [.zbc]
  | "zbs" => some [.zbs]
  | "zbkb" => some [.zbkb]
  | "zbkc" => some [.zbkc]
  | "zbkx" => some [.zbkx]
  | "zdinx" => some [.zfinx, .zdinx]
  | "zfinx" => some [.zfinx]
  | "zhinx" => some [.zfinx, .zhinx, .zhinxmin]
  | "zhinxmin" => some [.zfinx, .zhinxmin]
  | "zca" => some [.zca]
  | "zcb" => some [.zcb]
  | "zcd" => some [.zcd]
  | "zcmp" => some [.zcmp]
  | "zcmt" => some [.zcmt]
  | "zk" => some [.zbkb, .zbkc, .zbkx, .zknd, .zkne, .zknh, .zkr]
  | "zkn" => some [.zbkb, .zbkc, .zbkx, .zknd, .zkne, .zknh]
  | "zknd" => some [.zknd]
  | "zkne" => some [.zkne]
  | "zknh" => some [.zknh]
  | "zks" => some [.zbkb, .zbkc, .zbkx, .zksed, .zksh]
  | "zksed" => some [.zksed]
  | "zksh" => some [.zksh]
  | "zkr" => some [.zkr]
  | "zkt" => some []
  | "smepmp" => some [.smepmp]
  | "smstateen" => some [.smstateen]
  | "smrnmi" => some [.smrnmi]
  | "sscofpmf" => some [.sscofpmf]
  | "svadu" => some [.svadu]
  | "svnapot" => some [.svnapot]
  | "svpbmt" => some [.svpbmt]
  | "svinval" => some [.svinval]
  | "zfa" => some [.zfa]
  | "zicbom" => some [.zicbom]
  | "zicboz" => some [.zicboz]
  | "zicbop" => some []
  | "zicntr" => some [.zicntr]
  | "zicond" => some [.zicond]
  | "zihpm" => some [.zihpm]
  | "sstc" => some [.sstc]
  | _ => none

/-- The names that start with `x` and are known to the parser. -/
def customExtension (ext_str : String) : Option (List Ext) :=
  match ext_str with
  | "xbitmanip" => some [.xzbp, .xzbs, .xzbe, .xzbf, .xzbc, .xzbm, .xzbr, .xzbt]
  | "xzbp" => some [.xzbp]
  | "xzbs" => some [.xzbs]
  | "xzbe" => some [.xzbe]
  | "xzbf" => some [.xzbf]
  | "xzbc" => some [.xzbc]
  | "xzbm" => some [.xzbm]
  | "xzbr" => some [.xzbr]
  | "xzbt" => some [.xzbt]
  | "xdummy" => some []
  | _ => none

section Names

variable (xlen : Xlen) (find : String → Option String)

/-- The names whose effect depends on what the string held before. -/
def guardedExtension (ps : ParseState) (ext_str : String) : Option (Except ParseError ParseState) :=
  match ext_str with
  | "zfh" | "zfhmin" =>
    some <|
      if !ps.table .f then .error (.badIsaString s!"'{ext_str}' extension requires 'F'")
      else .ok ((ps.enable .zfhmin).enableIf (ext_str = "zfh") .zfh)
  | "zvfh" | "zvfhmin" =>
    some <|
      if !ps.table .v then .error (.badIsaString s!"'{ext_str}' extension requires 'V'")
      -- Zvfh implies Zfhmin
      else .ok (if ext_str = "zvfh" then ps.enableAll [.zvfhmin, .zvfh, .zfhmin]
        else ps.enable .zvfhmin)
  | "zce" =>
    some <| .ok ((ps.enableAll [.zca, .zcb, .zcmt, .zcmp]).enableIf
      (ps.table .f && xlen == .rv32) .zcf)
  | "zcf" =>
    some <|
      if xlen ≠ .rv32 then .error (.badIsaString "'Zcf' requires RV32") else .ok (ps.enable .zcf)
  | _ => none

/-- The branch for a name that starts with `x`. -/
def xExtension (ps : ParseState) (name : List Char) : Except ParseError ParseState :=
  let ext_str := String.ofList name
  let ps := ps.enable .x
  match customExtension ext_str with
  | some exts => .ok (ps.enableAll exts)
  | none =>
    if name.length = 1 then .error (.badIsaString "single 'X' is not a proper name")
    else
      match find (String.ofList name.tail) with
      | none => .error (.notFound (String.ofList name.tail))
      | some x =>
        if ps.extensions.contains x then .error (.notUnique x)
        else .ok { ps with extensions := ps.extensions ++ [x] }

/-- One round of the chain of comparisons. -/
def enableName (ps : ParseState) (name : List Char) : Except ParseError ParseState :=
  let ext_str := String.ofList name
  match guardedExtension xlen ps ext_str with
  | some result => result
  | none =>
    match plainExtension ext_str with
    | some exts => .ok (ps.enableAll exts)
    | none =>
      if name.head? = some 'x' then xExtension find ps name
      else .error (.badIsaString s!"unsupported extension: {ext_str}")

/-- The loop over the extension names. The first underscore is optional; a string that ends in one
leaves the pointer on the terminating zero, which the `do` loop passes. -/
def nameLoop : Nat → ParseState → List Char → Except ParseError (ParseState × List Char)
  | 0, _, _ => .error .outOfFuel
  | fuel + 1, ps, p =>
    match p with
    | [] => .ok (ps, [])
    | c :: rest =>
      if c.isLower || c = '_' then
        let p := if c = '_' then rest else c :: rest
        if p.isEmpty then .error .overRead
        else
          match enableName xlen find ps (extName p) with
          | .error e => .error e
          | .ok ps => nameLoop fuel ps (p.drop (extName p).length)
      else .ok (ps, c :: rest)

end Names

/-! ### The constructor -/

/-- The checks behind the two loops. -/
def tailChecks (table : ExtTable) : Except ParseError Unit :=
  if table .zfinx && table .f then
    .error (.badIsaString
      "Zfinx/Zdinx/Zhinx\x7bmin\x7d extensions conflict with 'F/D/Q/Zfh\x7bmin\x7d' extensions")
  else if table .zcf && !table .f then
    .error (.badIsaString "'Zcf' extension requires 'F' extension")
  else if table .zcd && !table .d then
    .error (.badIsaString "'Zcd' extension requires 'D' extension")
  else if (table .zcmp || table .zcmt) && table .zcd then
    .error (.badIsaString "Zcmp' and 'Zcmt' exensions are incompatible with 'Zcd' extension")
  else if (table .zcf || table .zcd || table .zcb || table .zcmp || table .zcmt) && !table .zca then
    .error (.badIsaString "'Zcf/Zcd/Zcb/Zcmp/Zcmt' extensions require 'Zca' extension")
  else .ok ()

/-- What C implies. -/
def enableCompressed (xlen : Xlen) (ps : ParseState) : ParseState :=
  if ps.table .c then
    ((ps.enable .zca).enableIf (ps.table .f && xlen == .rv32) .zcf).enableIf (ps.table .d) .zcd
  else ps

/-- The accepted privilege strings. -/
inductive Priv where
  | m
  | mu
  | msu
deriving DecidableEq

/-- `user` -/
def Priv.user : Priv → Bool
  | m => false
  | mu => true
  | msu => true

/-- `supervisor` -/
def Priv.supervisor : Priv → Bool
  | m => false
  | mu => false
  | msu => true

/-- The privilege string in lower case. -/
def parsePriv (s : List Char) : Except ParseError Priv :=
  match String.ofList (strtolower s) with
  | "m" => .ok .m
  | "mu" => .ok .mu
  | "msu" => .ok .msu
  | _ => .error .badPrivString

/-- `extension_table` once U and S are set. -/
def withPriv (table : ExtTable) (priv : Priv) : ExtTable := fun ext =>
  if ext = .u then priv.user else if ext = .s then priv.supervisor else table ext

theorem user_of_supervisor (table : ExtTable) (priv : Priv) (h : withPriv table priv .s = true) :
    withPriv table priv .u = true := by
  cases priv with
  | m => exact h
  | mu => rfl
  | msu => rfl

/-- The last step: H needs S. -/
def finish (xlen : Xlen) (ps : ParseState) (priv : Priv) : Except ParseError Isa :=
  if hs : withPriv ps.table priv .h = true → withPriv ps.table priv .s = true then
    .ok ⟨xlen, withPriv ps.table priv, ps.extensions, user_of_supervisor ps.table priv, hs⟩
  else .error (.badIsaString "'H' extension requires S mode")

/-- The base letter: what the pointer finds behind it, and the table so far. -/
def baseLetter (pre : List Char) : List Char → Except ParseError (ParseState × List Char)
  | 'g' :: rest => .ok (ParseState.empty.enable .i, "mafd".toList ++ rest)
  | 'i' :: rest => .ok (ParseState.empty.enable .i, rest)
  | 'e' :: rest => .ok (ParseState.empty.enable .e, rest)
  | _ => .error (.badIsaString s!"'{String.ofList pre}' must be followed by I, E, or G")

/-- The register width, from the first four characters. -/
def baseWidth (s : List Char) : Except ParseError Xlen :=
  match String.ofList (s.take 4) with
  | "rv32" => .ok .rv32
  | "rv64" => .ok .rv64
  | _ => .error (.badIsaString "ISA strings must begin with RV32 or RV64")

/-- `isa_parser_t::isa_parser_t(str, priv)` -/
def parse (find : String → Option String) (str priv : List Char) : Except ParseError Isa := do
  let isa_string := strtolower str
  let xlen ← baseWidth isa_string
  let (ps, p) ← baseLetter (isa_string.take 4) (isa_string.drop 4)
  let (ps, p) ← letterLoop (p.length + 1) ps allSubsets p
  let (ps, p) ← nameLoop xlen find (p.length + 1) ps p
  if !p.isEmpty then throw (.badIsaString s!"can't parse: {String.ofList p}")
  let ps := enableCompressed xlen ps
  tailChecks ps.table
  finish xlen ps (← parsePriv priv)

/-- The configuration of two strings, without custom extensions. -/
def accepted (str priv : String) : Option Isa :=
  (parse (fun _ => none) str.toList priv.toList).toOption

/-- A result that is there. -/
theorem eq_ok_of_isSome {result : Except ParseError Isa} (h : result.toOption.isSome = true) :
    result = .ok (result.toOption.get h) := by
  cases result with
  | error e => exact absurd h (by simp [Except.toOption])
  | ok isa => rfl

theorem parse_accepted {str priv : String} (h : (accepted str priv).isSome = true) :
    parse (fun _ => none) str.toList priv.toList = .ok ((accepted str priv).get h) :=
  eq_ok_of_isSome h

end Isa

end Nnemu

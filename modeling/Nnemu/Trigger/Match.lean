import Nnemu.Trigger.Basic

/-!
# Matching an access against the triggers

`common_match`, `simple_match` and `detect_memory_access_match` of `triggers.cc`. A match sets `hit`
bits, also of triggers whose chain does not complete, so detection returns the list it leaves
behind. It changes nothing else: `eraseHit` forgets the bits, and the erased list is the same
afterwards (`eraseHit_detectMemoryAccessMatch`).
-/

namespace Nnemu

namespace Trigger

/-- What matching reads of the hart besides the configuration. -/
structure MatchEnv extends Env where
  prv : Reg
  v : Bool
  /-- `scontext->read()` -/
  scontext : Reg
  /-- `satp->read()`, of the current virtualization mode -/
  satp : Reg
  /-- `mcontext->read()` -/
  mcontext : Reg
  /-- `hgatp->read()` -/
  hgatp : Reg

/-- `match_result_t` -/
structure MatchResult where
  timing : Timing
  action : Action
deriving DecidableEq

variable (env : MatchEnv) (t : Trigger)

/-! ### Modes and contexts -/

/-- `mode_match`; the remaining value of `prv` is an `assert(false)`. -/
def modeMatch : Bool :=
  if env.prv = prvM then t.m
  else if env.prv = prvS then (if env.v then t.vs else t.s)
  else if env.prv = prvU then (if env.v then t.vu else t.u)
  else false

/-- `0xff << (i * 8)`, a shift of an `int`, as a `reg_t`. For `i = 4` the shift by 32 is undefined;
this is what the host's instruction does with it. -/
def sbyteShift (i : Nat) : Reg :=
  (0xff#32 <<< (i * 8 % 32)).signExtend 64

/-- The mask of the `scontext` comparison. -/
def scontextMask : Reg :=
  let length := match env.xlen with
    | .rv32 => 0x10
    | .rv64 => 0x22
  (List.range 5).foldl (fun mask i => if t.sbytemask.getLsbD i then mask &&& sbyteShift i else mask)
    ((1#64 <<< length) - 1#64)

/-- `SATP_ASID(xlen)` -/
def satpAsid : Xlen → Reg
  | .rv32 => 0x7FC00000#64
  | .rv64 => 0x0FFFF00000000000#64

/-- `ASIDMAX(xlen)` -/
def asidMax : Xlen → Nat
  | .rv32 => 9
  | .rv64 => 16

/-- `HGATP_VMID(xlen)` -/
def hgatpVmid : Xlen → Reg
  | .rv32 => 0x1FC00000#64
  | .rv64 => 0x03FFF00000000000#64

/-- `VMIDMAX(xlen)` -/
def vmidMax : Xlen → Nat
  | .rv32 => 7
  | .rv64 => 14

/-- `CSR_TEXTRA_MHVALUE_LENGTH(xlen)` -/
def mhvalueLength : Xlen → Nat
  | .rv32 => 6
  | .rv64 => 13

/-- The test of `textra_match` on `sselect`. -/
def sselectMatch : Bool :=
  match t.sselect with
  | .ignore => true
  | .scontext =>
    let mask := t.scontextMask env
    env.scontext &&& mask == t.svalue.setWidth 64 &&& mask
  | .asid =>
    getField env.satp (satpAsid env.xlen) ==
      (t.svalue &&& ((1#32 <<< asidMax env.xlen) - 1#32)).setWidth 64

/-- The test of `textra_match` on `mhselect`. -/
def mhselectMatch : Bool :=
  match (mhselectTable (t.legalizeMhselect env.enabledH)).1 with
  | .ignore => true
  | .mcontext =>
    let mask := (1#64 <<< (mhvalueLength env.xlen + 1)) - 1#64
    env.mcontext &&& mask == (t.compareVal env.enabledH).setWidth 64
  | .vmid =>
    getField env.hgatp (hgatpVmid env.xlen) ==
      (t.compareVal env.enabledH &&& ((1#32 <<< vmidMax env.xlen) - 1#32)).setWidth 64

/-- `textra_match` -/
def textraMatch : Bool :=
  t.sselectMatch env && t.mhselectMatch env

/-- `common_match` -/
def commonMatch : Bool :=
  t.modeMatch env && t.textraMatch env

/-! ### Values -/

/-- `cto` of `arith.h`, which stops at the lowest zero. -/
def cto (val : Reg) : Nat :=
  ((List.range 64).takeWhile fun i => val.getLsbD i).length

/-- The mask of a NAPOT match, `~((1 << (cto(tdata2)+1)) - 1)`, computed as an `int`; shifts by 32
and more are undefined, this is what the host's instruction does with them. -/
def napotMatchMask : Reg :=
  (~~~((1#32 <<< ((cto t.tdata2 + 1) % 32)) - 1#32)).signExtend 64

/-- `simple_match` -/
def simpleMatch (xlen : Xlen) (type : MatchType) (value : Reg) : Bool :=
  match type with
  | .equal => value == t.tdata2
  | .napot => value &&& t.napotMatchMask == t.tdata2 &&& t.napotMatchMask
  | .ge => t.tdata2 ≤ value
  | .lt => value < t.tdata2
  | .maskLow =>
    let mask := t.tdata2 >>> (xlen.bits / 2)
    value &&& mask == t.tdata2 &&& mask
  | .maskHigh =>
    let mask := t.tdata2 >>> (xlen.bits / 2)
    (value >>> (xlen.bits / 2)) &&& mask == t.tdata2 &&& mask

/-! ### Detection -/

variable (operation : Operation) (address : Reg) (data : Option Reg)

/-- The tests of `mcontrol_common_t::detect_memory_access_match`. -/
def mcontrolMatches (f : Mcontrol) : Bool :=
  if (operation == .execute && !f.execute) || (operation == .store && !f.store) ||
      (operation == .load && !f.load) || !t.commonMatch env then false
  else
    match if f.select then data else some address with
    | none => false
    | some value => t.simpleMatch env.xlen f.matchType (env.xlen.zext value)

/-- `detect_memory_access_match` of one trigger: the trigger afterwards, and the result. -/
def detectMemoryAccessMatch : Trigger × Option MatchResult :=
  match t.body with
  | .mcontrol f =>
    if t.mcontrolMatches env operation address data f then
      ({ t with body := .mcontrol { f with hit := true } }, some ⟨.ofBool f.timing, f.action⟩)
    else (t, none)
  | .mcontrol6 f =>
    if t.mcontrolMatches env operation address data f then
      ({ t with body := .mcontrol6 { f with hit := true } }, some ⟨.ofBool f.timing, f.action⟩)
    else (t, none)
  | _ => (t, none)

/-- Is the result a better one than the best so far? -/
def better (ret result : Option MatchResult) : Bool :=
  match ret, result with
  | _, none => false
  | none, some _ => true
  | some a, some b => a.action.toNat < b.action.toNat

/-- The loop of `module_t::detect_memory_access_match`: the triggers afterwards, and the result. -/
def detectLoop : Bool → Option MatchResult → List Trigger → List Trigger × Option MatchResult
  | _, ret, [] => ([], ret)
  | false, ret, t :: ts =>
    let rest := detectLoop (!t.getChain) ret ts
    (t :: rest.1, rest.2)
  | true, ret, t :: ts =>
    let found := t.detectMemoryAccessMatch env operation address data
    let ret' := if !t.getChain && better ret found.2 then found.2 else ret
    let rest := detectLoop (found.2.isSome || !t.getChain) ret' ts
    (found.1 :: rest.1, rest.2)

end Trigger

namespace Triggers

open Trigger

variable (env : MatchEnv) (operation : Operation) (address : Reg) (data : Option Reg)
  (ts : Triggers)

/-- `module_t::detect_memory_access_match` -/
def detectMemoryAccessMatch : Triggers × Option MatchResult :=
  if env.debugMode then (ts, none) else detectLoop env operation address data true none ts

end Triggers

/-! ### Hit bits -/

namespace Trigger

/-- The trigger with its `hit` bit forgotten. -/
def eraseHit (t : Trigger) : Trigger :=
  match t.body with
  | .mcontrol f => { t with body := .mcontrol { f with hit := false } }
  | .mcontrol6 f => { t with body := .mcontrol6 { f with hit := false } }
  | _ => t

variable {env : MatchEnv} {operation : Operation} {address : Reg} {data : Option Reg} {t : Trigger}

theorem eraseHit_of_mcontrol {f : Mcontrol} (h : t.body = .mcontrol f) (b : Bool) :
    ({ t with body := .mcontrol { f with hit := b } } : Trigger).eraseHit = t.eraseHit := by
  rw [eraseHit, eraseHit, h]

theorem eraseHit_of_mcontrol6 {f : Mcontrol} (h : t.body = .mcontrol6 f) (b : Bool) :
    ({ t with body := .mcontrol6 { f with hit := b } } : Trigger).eraseHit = t.eraseHit := by
  rw [eraseHit, eraseHit, h]

/-- Detection changes the `hit` bit at most. -/
theorem eraseHit_detect (t : Trigger) :
    (t.detectMemoryAccessMatch env operation address data).1.eraseHit = t.eraseHit := by
  rw [detectMemoryAccessMatch]
  split
  · rename_i f hbody
    split
    · exact eraseHit_of_mcontrol hbody true
    · rfl
  · rename_i f hbody
    split
    · exact eraseHit_of_mcontrol6 hbody true
    · rfl
  · rfl

end Trigger

namespace Triggers

open Trigger

variable {env : MatchEnv} {operation : Operation} {address : Reg} {data : Option Reg}

theorem eraseHit_detectLoop (ts : Triggers) : ∀ chainOk ret,
    (detectLoop env operation address data chainOk ret ts).1.map eraseHit = ts.map eraseHit := by
  induction ts with
  | nil => intro chainOk ret; cases chainOk <;> rfl
  | cons t ts ih =>
    intro chainOk ret
    cases chainOk with
    | false => rw [detectLoop, List.map_cons, List.map_cons, ih]
    | true => rw [detectLoop, List.map_cons, List.map_cons, ih, eraseHit_detect]

/-- **A detection** leaves of the triggers what they were, up to `hit` bits. -/
theorem eraseHit_detectMemoryAccessMatch (ts : Triggers) :
    (ts.detectMemoryAccessMatch env operation address data).1.map eraseHit = ts.map eraseHit := by
  rw [detectMemoryAccessMatch]
  split
  · rfl
  · exact eraseHit_detectLoop ts true none

end Triggers

end Nnemu

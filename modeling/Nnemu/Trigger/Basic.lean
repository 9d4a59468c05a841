import Nnemu.Encoding

/-!
# Debug triggers

The trigger module of `triggers.cc`: the trigger types, how `tdata1`, `tdata2` and `tdata3` are
written, and how a memory access is matched against the list. A `Trigger` is the data all types
share (`trigger_t`) with a body for its type. Boolean fields are `get_field` of a one-bit mask.

The bodies are those of the classes: `mcontrol` and `mcontrol6`, the count trigger, the interrupt
and exception triggers, and the disabled one. A write legalizes field by field, in the order of the
source, and may make a trigger of another type of it.
-/

namespace Nnemu

namespace Trigger

/-! ### Constants -/

/-- `CSR_TDATA1_TYPE(xlen)` -/
def tdata1Type (xlen : Xlen) : Reg := 0xf#64 <<< (xlen.bits - 4)
/-- `CSR_TDATA1_DMODE(xlen)`, the position of `dmode` in every trigger type -/
def tdata1Dmode (xlen : Xlen) : Reg := 1#64 <<< (xlen.bits - 5)
/-- `CSR_TDATA1_TYPE_MCONTROL` -/
def typeMcontrol : Reg := 2#64
/-- `CSR_TDATA1_TYPE_ICOUNT` -/
def typeIcount : Reg := 3#64
/-- `CSR_TDATA1_TYPE_ITRIGGER` -/
def typeItrigger : Reg := 4#64
/-- `CSR_TDATA1_TYPE_ETRIGGER` -/
def typeEtrigger : Reg := 5#64
/-- `CSR_TDATA1_TYPE_MCONTROL6` -/
def typeMcontrol6 : Reg := 6#64

/-- The field masks in which `mcontrol` and `mcontrol6` differ; the others are common to both. -/
structure McontrolMasks where
  hit : Reg
  select : Reg
  timing : Reg

/-- `CSR_MCONTROL_HIT`, `MCONTROL_SELECT`, `MCONTROL_TIMING` -/
def mcontrolMasks : McontrolMasks := ⟨0x100000#64, 0x80000#64, 0x40000#64⟩
/-- `CSR_MCONTROL6_HIT`, `CSR_MCONTROL6_SELECT`, `CSR_MCONTROL6_TIMING` -/
def mcontrol6Masks : McontrolMasks := ⟨0x400000#64, 0x200000#64, 0x100000#64⟩

/-- `MCONTROL_ACTION` and `CSR_MCONTROL6_ACTION`: the mask `0x3f << 12` of the first selects two
bits more than the `0xf000` of the second. -/
def mcontrolAction : Reg := 0x3f000#64
def mcontrol6Action : Reg := 0xf000#64
/-- `MCONTROL_CHAIN`, `CSR_MCONTROL6_CHAIN` -/
def mcontrolChain : Reg := 0x800#64
/-- `MCONTROL_MATCH`, `CSR_MCONTROL6_MATCH` -/
def mcontrolMatch : Reg := 0x780#64
def mcontrolM : Reg := 0x40#64
def mcontrolS : Reg := 0x10#64
def mcontrolU : Reg := 0x8#64
def mcontrolExecute : Reg := 4#64
def mcontrolStore : Reg := 2#64
def mcontrolLoad : Reg := 1#64
/-- `CSR_MCONTROL6_VS` -/
def mcontrol6Vs : Reg := 0x1000000#64
/-- `CSR_MCONTROL6_VU` -/
def mcontrol6Vu : Reg := 0x800000#64

/-! ### Types -/

/-- `operation_t` -/
inductive Operation where
  | execute
  | store
  | load
deriving DecidableEq

/-- `action_t`, in the order of the enumeration. -/
inductive Action where
  | debugException
  | debugMode
  | traceStart
  | traceStop
  | traceEmit
deriving DecidableEq

/-- The value of an action in the enumeration. -/
def Action.toNat : Action → Nat
  | debugException => 0
  | debugMode => 1
  | traceStart => 2
  | traceStop => 3
  | traceEmit => 4

/-- The cast `(action_t)act` of a value that `legalize_action` lets through. -/
def Action.ofReg (act : Reg) : Action :=
  if act = 1#64 then debugMode
  else if act = 2#64 then traceStart
  else if act = 3#64 then traceStop
  else if act = 4#64 then traceEmit
  else debugException

/-- `timing_t` -/
inductive Timing where
  | before
  | after
deriving DecidableEq

/-- The cast `timing_t(timing)` of the stored bit. -/
def Timing.ofBool : Bool → Timing
  | false => before
  | true => after

/-- `match_t` -/
inductive MatchType where
  | equal
  | napot
  | ge
  | lt
  | maskLow
  | maskHigh
deriving DecidableEq

/-- `sselect_t` -/
inductive Sselect where
  | ignore
  | scontext
  | asid
deriving DecidableEq

/-- `mhselect_mode_t` -/
inductive MhselectMode where
  | ignore
  | mcontext
  | vmid
deriving DecidableEq

/-- The fields of `mcontrol_common_t`. -/
structure Mcontrol where
  dmode : Bool
  action : Action
  hit : Bool
  select : Bool
  timing : Bool
  chain : Bool
  matchType : MatchType
  execute : Bool
  store : Bool
  load : Bool

/-- The fields of `icount_t`. -/
structure Icount where
  dmode : Bool
  hit : Bool
  count : BitVec 32
  countReadValue : BitVec 32
  pending : Bool
  pendingReadValue : Bool
  action : Action

/-- The fields of `trap_common_t`. -/
structure TrapCommon where
  dmode : Bool
  hit : Bool
  action : Action

/-- The type of a trigger with the fields of its class. -/
inductive Body where
  | disabled (dmode : Bool)
  | mcontrol (f : Mcontrol)
  | mcontrol6 (f : Mcontrol)
  | icount (f : Icount)
  | itrigger (f : TrapCommon) (nmi : Bool)
  | etrigger (f : TrapCommon)

end Trigger

open Trigger in
/-- `trigger_t`: what all types share, and the body. -/
structure Trigger where
  tdata2 : Reg
  vs : Bool
  vu : Bool
  m : Bool
  s : Bool
  u : Bool
  sselect : Sselect
  /-- an `unsigned`, which drops the top bits of the 34-bit field -/
  svalue : BitVec 32
  sbytemask : BitVec 32
  /-- a three-bit field, which keeps `assert(mhselect < 8)` -/
  mhselect : BitVec 3
  mhvalue : BitVec 32
  body : Body

namespace Trigger

/-- A zero-initialised `disabled_trigger_t`. -/
def reset : Trigger where
  tdata2 := 0#64
  vs := false
  vu := false
  m := false
  s := false
  u := false
  sselect := .ignore
  svalue := 0#32
  sbytemask := 0#32
  mhselect := 0#3
  mhvalue := 0#32
  body := .disabled false

/-- What the trigger code asks the hart: register width, supported and enabled extensions, and
whether it is in debug mode. -/
structure Env where
  xlen : Xlen
  /-- `extension_enabled_const('S')` -/
  constS : Bool
  /-- `extension_enabled_const('U')` -/
  constU : Bool
  /-- `extension_enabled('H')` -/
  enabledH : Bool
  debugMode : Bool

/-! ### Virtual getters -/

variable (t : Trigger)

/-- `get_dmode` -/
def getDmode : Bool :=
  match t.body with
  | .disabled dmode => dmode
  | .mcontrol f => f.dmode
  | .mcontrol6 f => f.dmode
  | .icount f => f.dmode
  | .itrigger f _ => f.dmode
  | .etrigger f => f.dmode

/-- `get_chain` -/
def getChain : Bool :=
  match t.body with
  | .mcontrol f => f.chain
  | .mcontrol6 f => f.chain
  | _ => false

/-- `get_execute` -/
def getExecute : Bool :=
  match t.body with
  | .mcontrol f => f.execute
  | .mcontrol6 f => f.execute
  | _ => false

/-- `get_store` -/
def getStore : Bool :=
  match t.body with
  | .mcontrol f => f.store
  | .mcontrol6 f => f.store
  | _ => false

/-- `get_load` -/
def getLoad : Bool :=
  match t.body with
  | .mcontrol f => f.load
  | .mcontrol6 f => f.load
  | _ => false

/-- `icount_check_needed` -/
def icountCheckNeeded : Bool :=
  match t.body with
  | .icount f => 0#32 < f.count || f.pending
  | _ => false

/-! ### Legalization -/

/-- `legalize_action` -/
def legalizeAction (val actionMask dmodeMask : Reg) : Action :=
  let act := getField val actionMask
  if 4#64 < act ∨ (act = 1#64 ∧ getField val dmodeMask = 0#64) then .debugException
  else Action.ofReg act

/-- `legalize_match` -/
def legalizeMatch (val : Reg) : MatchType :=
  if val = 1#64 then .napot
  else if val = 2#64 then .ge
  else if val = 3#64 then .lt
  else if val = 4#64 then .maskLow
  else if val = 5#64 then .maskHigh
  else .equal

/-- `legalize_timing`: a load-data trigger fires after the access, an execute trigger before it. -/
def legalizeTiming (val timingMask selectMask executeMask loadMask : Reg) : Bool :=
  if hasBits val selectMask && hasBits val loadMask then true
  else if hasBits val executeMask then false
  else hasBits val timingMask

/-- The row of `interpret_mhselect` for a legal value: the mode and `shift_mhvalue`, where `none` is
the missing value that `compare_val` never asks for. -/
def mhselectTable (legal : BitVec 3) : MhselectMode × Option Bool :=
  if legal = 1#3 then (.mcontext, some true)
  else if legal = 2#3 then (.vmid, some true)
  else if legal = 4#3 then (.mcontext, some false)
  else if legal = 5#3 then (.mcontext, some true)
  else if legal = 6#3 then (.vmid, some true)
  else (.ignore, none)

/-- `legalize_mhselect`, through `warlize_if_h` and `warlize_no_h`: with H enabled 3 and 7
downgrade, otherwise only 0 and 4 are legal. -/
def legalizeMhselect (enabledH : Bool) : BitVec 3 :=
  if enabledH then
    if t.mhselect = 3#3 then 0#3 else if t.mhselect = 7#3 then 4#3 else t.mhselect
  else if t.mhselect < 4#3 then 0#3 else 4#3

/-- `compare_val` of the interpretation of `mhselect`. -/
def compareVal (enabledH : Bool) : BitVec 32 :=
  let legal := t.legalizeMhselect enabledH
  match (mhselectTable legal).2 with
  | some true => (t.mhvalue <<< 1) ||| (legal.setWidth 32 >>> 2)
  | _ => t.mhvalue

/-! ### Reading and writing `tdata3` -/

/-- `CSR_TEXTRA_MHVALUE(xlen)` -/
def textraMhvalue : Xlen → Reg
  | .rv32 => 0xfc000000#64
  | .rv64 => 0xfff8000000000000#64
/-- `CSR_TEXTRA_MHSELECT(xlen)` -/
def textraMhselect : Xlen → Reg
  | .rv32 => 0x3800000#64
  | .rv64 => 0x7000000000000#64
/-- `CSR_TEXTRA_SBYTEMASK(xlen)` -/
def textraSbytemask : Xlen → Reg
  | .rv32 => 0xc0000#64
  | .rv64 => 0x1f000000000#64
/-- `CSR_TEXTRA_SVALUE(xlen)` -/
def textraSvalue : Xlen → Reg
  | .rv32 => 0x3fffc#64
  | .rv64 => 0xffffffffc#64
/-- `CSR_TEXTRA_SSELECT(xlen)` -/
def textraSselect : Reg := 3#64

/-- The value of `sselect` in the enumeration. -/
def Sselect.toReg : Sselect → Reg
  | ignore => 0#64
  | scontext => 1#64
  | asid => 2#64

/-- `tdata3_read` -/
def tdata3Read (env : Env) : Reg :=
  let tdata3 := setField 0#64 (textraMhvalue env.xlen) (t.mhvalue.setWidth 64)
  let tdata3 := setField tdata3 (textraMhselect env.xlen)
    ((t.legalizeMhselect env.enabledH).setWidth 64)
  let tdata3 := setField tdata3 (textraSbytemask env.xlen) (t.sbytemask.setWidth 64)
  let tdata3 := setField tdata3 (textraSvalue env.xlen) (t.svalue.setWidth 64)
  setField tdata3 textraSselect t.sselect.toReg

/-- The `sselect` a `tdata3` write stores: S-mode must exist and the value must be in range. -/
def legalizeSselect (constS : Bool) (v : Reg) : Sselect :=
  if !constS then .ignore
  else if v = 1#64 then .scontext
  else if v = 2#64 then .asid
  else .ignore

/-- `tdata3_write` -/
def tdata3Write (env : Env) (val : Reg) : Trigger :=
  { t with
    mhvalue := (getField val (textraMhvalue env.xlen)).setWidth 32
    mhselect := (getField val (textraMhselect env.xlen)).setWidth 3
    sbytemask := (getField val (textraSbytemask env.xlen)).setWidth 32
    svalue := if env.constS then (getField val (textraSvalue env.xlen)).setWidth 32 else 0#32
    sselect := legalizeSselect env.constS (getField val textraSselect) }

/-- `tdata2_write` -/
def tdata2Write (val : Reg) : Trigger :=
  { t with tdata2 := val }

/-! ### Writing `tdata1` -/

/-- The part of `tdata1_write` that `mcontrol_t` and `mcontrol6_t` share. -/
def mcontrolOf (env : Env) (masks : McontrolMasks) (action : Reg) (val : Reg) (allowChain : Bool) :
    Mcontrol where
  dmode := hasBits val (tdata1Dmode env.xlen)
  hit := hasBits val masks.hit
  select := hasBits val masks.select
  timing := legalizeTiming val masks.timing masks.select mcontrolExecute mcontrolLoad
  action := legalizeAction val action (tdata1Dmode env.xlen)
  chain := if allowChain then hasBits val mcontrolChain else false
  matchType := legalizeMatch (getField val mcontrolMatch)
  execute := hasBits val mcontrolExecute
  store := hasBits val mcontrolStore
  load := hasBits val mcontrolLoad

/-- `mcontrol_t::tdata1_write` on a new trigger. -/
def ofMcontrol (env : Env) (val : Reg) (allowChain : Bool) : Trigger :=
  { reset with
    m := hasBits val mcontrolM
    s := env.constS && hasBits val mcontrolS
    u := env.constU && hasBits val mcontrolU
    body := .mcontrol (mcontrolOf env mcontrolMasks mcontrolAction val allowChain) }

/-- `mcontrol6_t::tdata1_write` on a new trigger. -/
def ofMcontrol6 (env : Env) (val : Reg) (allowChain : Bool) : Trigger :=
  { reset with
    vs := hasBits val mcontrol6Vs
    vu := hasBits val mcontrol6Vu
    m := hasBits val mcontrolM
    s := env.constS && hasBits val mcontrolS
    u := env.constU && hasBits val mcontrolU
    body := .mcontrol6 (mcontrolOf env mcontrol6Masks mcontrol6Action val allowChain) }

/-- `icount_t::tdata1_write` on a new trigger. -/
def ofIcount (env : Env) (val : Reg) : Trigger :=
  { reset with
    vs := hasBits val 0x4000000#64
    vu := hasBits val 0x2000000#64
    m := hasBits val 0x200#64
    s := env.constS && hasBits val 0x80#64
    u := env.constU && hasBits val 0x40#64
    body := .icount
      { dmode := env.debugMode && hasBits val (tdata1Dmode env.xlen)
        hit := hasBits val 0x1000000#64
        count := (getField val 0xfffc00#64).setWidth 32
        countReadValue := (getField val 0xfffc00#64).setWidth 32
        pending := hasBits val 0x100#64
        pendingReadValue := hasBits val 0x100#64
        action := legalizeAction val 0x3f#64 (tdata1Dmode env.xlen) } }

/-- What `itrigger_t` and `etrigger_t` share. -/
def trapCommonOf (env : Env) (val : Reg) : TrapCommon where
  dmode := hasBits val (tdata1Dmode env.xlen)
  hit := hasBits val (1#64 <<< (env.xlen.bits - 6))
  action := legalizeAction val 0x3f#64 (tdata1Dmode env.xlen)

/-- The modes of an `itrigger_t` or `etrigger_t`. -/
def ofTrap (env : Env) (val : Reg) (body : Body) : Trigger :=
  { reset with
    vs := hasBits val 0x1000#64
    vu := hasBits val 0x800#64
    m := hasBits val 0x200#64
    s := env.constS && hasBits val 0x80#64
    u := env.constU && hasBits val 0x40#64
    body := body }

/-- `itrigger_t::tdata1_write` on a new trigger. -/
def ofItrigger (env : Env) (val : Reg) : Trigger :=
  ofTrap env val (.itrigger (trapCommonOf env val) (hasBits val 0x400#64))

/-- `etrigger_t::tdata1_write` on a new trigger. -/
def ofEtrigger (env : Env) (val : Reg) : Trigger :=
  ofTrap env val (.etrigger (trapCommonOf env val))

/-- `disabled_trigger_t::tdata1_write` on a new trigger. -/
def ofDisabled (env : Env) (val : Reg) : Trigger :=
  { reset with body := .disabled (hasBits val (tdata1Dmode env.xlen)) }

/-- The `switch` of `module_t::tdata1_write`: a new trigger of the type that was written. -/
def ofType (env : Env) (type val : Reg) (allowChain : Bool) : Trigger :=
  if type = typeMcontrol then ofMcontrol env val allowChain
  else if type = typeIcount then ofIcount env val
  else if type = typeItrigger then ofItrigger env val
  else if type = typeEtrigger then ofEtrigger env val
  else if type = typeMcontrol6 then ofMcontrol6 env val allowChain
  else ofDisabled env val

end Trigger

/-! ### The module -/

/-- `module_t::triggers` -/
abbrev Triggers := List Trigger

namespace Triggers

open Trigger

variable (ts : Triggers) (env : Env)

/-- `module_t::module_t`: `count` disabled triggers. -/
def ofCount (count : Nat) : Triggers :=
  List.replicate count Trigger.reset

/-- `allow_chain` of `module_t::tdata1_write`, computed from the value as written: hardware must
zero chain in writes that set dmode to 0 if the next trigger has dmode of 1. -/
def allowChain (index : Nat) (val : Reg) : Bool :=
  match ts[index + 1]? with
  | some next => !(next.getDmode && !hasBits val (tdata1Dmode env.xlen))
  | none => true

/-- The value `module_t::tdata1_write` goes on with: dmode is only writable from debug mode. -/
def maskDmode (val : Reg) : Reg :=
  if !env.debugMode then setField val (tdata1Dmode env.xlen) 0#64 else val

/-- Is the previous trigger one with dmode of 0 and chain of 1? -/
def prevChains (index : Nat) : Bool :=
  match index with
  | 0 => false
  | i + 1 =>
    match ts[i]? with
    | some prev => !prev.getDmode && prev.getChain
    | none => false

/-- `module_t::tdata1_write`; `none` is `return false`. On `some ts'` the code goes on to
`trigger_updated`. -/
def tdata1Write (index : Nat) (val : Reg) : Option Triggers :=
  match ts[index]? with
  | none => none
  | some old =>
    if old.getDmode && !env.debugMode then none
    else
      let tdata1 := maskDmode env val
      if ts.prevChains index && hasBits tdata1 (tdata1Dmode env.xlen) then none
      else
        let type := getField val (tdata1Type env.xlen)
        let new := ofType env type tdata1 (ts.allowChain env index val)
        some (ts.set index ((new.tdata2Write old.tdata2).tdata3Write env (old.tdata3Read env)))

/-- `module_t::tdata2_write` -/
def tdata2Write (index : Nat) (val : Reg) : Option Triggers :=
  match ts[index]? with
  | none => none
  | some old =>
    if old.getDmode && !env.debugMode then none else some (ts.set index (old.tdata2Write val))

/-- `module_t::tdata3_write` -/
def tdata3Write (index : Nat) (val : Reg) : Option Triggers :=
  match ts[index]? with
  | none => none
  | some old =>
    if old.getDmode && !env.debugMode then none else some (ts.set index (old.tdata3Write env val))

end Triggers

end Nnemu

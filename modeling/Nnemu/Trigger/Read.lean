import Nnemu.Trigger.Basic

/-!
# Reading triggers

`tdata1_read` of the trigger types, and the reads of `module_t`.
-/

namespace Nnemu

namespace Trigger

/-- The value of a match type in the enumeration. -/
def MatchType.toReg : MatchType → Reg
  | equal => 0#64
  | napot => 1#64
  | ge => 2#64
  | lt => 3#64
  | maskLow => 4#64
  | maskHigh => 5#64

/-- The value of an action in the enumeration. -/
def Action.toReg (action : Action) : Reg :=
  BitVec.ofNat 64 action.toNat

/-- A one-bit field. -/
def flag (mask : Reg) (b : Bool) : Reg :=
  if b then mask else 0#64

variable (env : Env) (t : Trigger)

/-- The fields of `tdata1_read` that `mcontrol_t` and `mcontrol6_t` share. -/
def mcontrolFields (masks : McontrolMasks) (action : Reg) (f : Mcontrol) : Reg :=
  flag (tdata1Dmode env.xlen) f.dmode ||| flag masks.hit f.hit ||| flag masks.select f.select |||
    flag masks.timing f.timing ||| setField 0#64 action f.action.toReg |||
      flag mcontrolChain f.chain |||
    setField 0#64 mcontrolMatch f.matchType.toReg |||
    flag mcontrolM t.m ||| flag mcontrolS t.s ||| flag mcontrolU t.u |||
    flag mcontrolExecute f.execute ||| flag mcontrolStore f.store ||| flag mcontrolLoad f.load

/-- The fields of `tdata1_read` that `itrigger_t` and `etrigger_t` share. -/
def trapFields (f : TrapCommon) : Reg :=
  flag (tdata1Dmode env.xlen) f.dmode ||| flag (1#64 <<< (env.xlen.bits - 6)) f.hit |||
    flag 0x1000#64 (env.enabledH && t.vs) ||| flag 0x800#64 (env.enabledH && t.vu) |||
    flag 0x200#64 t.m ||| flag 0x80#64 t.s ||| flag 0x40#64 t.u |||
    setField 0#64 0x3f#64 f.action.toReg

/-- `tdata1_read` -/
def tdata1Read : Reg :=
  let type (n : Reg) : Reg := setField 0#64 (tdata1Type env.xlen) n
  match t.body with
  | .disabled dmode => type 15#64 ||| flag (tdata1Dmode env.xlen) dmode
  | .mcontrol f => type typeMcontrol ||| t.mcontrolFields env mcontrolMasks mcontrolAction f
  | .mcontrol6 f =>
    type typeMcontrol6 ||| flag mcontrol6Vs (env.enabledH && t.vs) |||
      flag mcontrol6Vu (env.enabledH && t.vu) |||
      t.mcontrolFields env mcontrol6Masks mcontrol6Action f
  | .icount f =>
    type typeIcount ||| flag (tdata1Dmode env.xlen) f.dmode |||
      flag 0x4000000#64 (env.enabledH && t.vs) ||| flag 0x2000000#64 (env.enabledH && t.vu) |||
      flag 0x1000000#64 f.hit ||| setField 0#64 0xfffc00#64 (f.countReadValue.setWidth 64) |||
      flag 0x200#64 t.m ||| flag 0x100#64 f.pendingReadValue ||| flag 0x80#64 t.s |||
      flag 0x40#64 t.u ||| setField 0#64 0x3f#64 f.action.toReg
  | .itrigger f nmi => type typeItrigger ||| flag 0x400#64 nmi ||| t.trapFields env f
  | .etrigger f => type typeEtrigger ||| t.trapFields env f

end Trigger

namespace Triggers

variable (ts : Triggers) (env : Trigger.Env) (index : Nat)

/-- `module_t::tdata1_read` -/
def tdata1Read : Reg :=
  match ts[index]? with
  | some t => t.tdata1Read env
  | none => 0#64

/-- `module_t::tdata2_read` -/
def tdata2Read : Reg :=
  match ts[index]? with
  | some t => t.tdata2
  | none => 0#64

/-- `module_t::tdata3_read` -/
def tdata3Read : Reg :=
  match ts[index]? with
  | some t => t.tdata3Read env
  | none => 0#64

end Triggers

end Nnemu

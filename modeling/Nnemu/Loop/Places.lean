import Nnemu.Loop.Quiet
import Nnemu.Loop.Basic

/-!
# Where traps lead

The address and the mode that a trap leads to are read off the hart before it, and so is what
triggers are matched with behind it.

A breakpoint exception that a trigger action raises can lead to a handler whose first instruction
matches the same trigger. To speak of this before it happens, the place a trap leads to is computed
from the hart (`trapPlace`), and so is the environment in which triggers are matched there
(`trapEnv`).
-/

namespace Nnemu

open Trigger

/-- Where a hart is. -/
structure Place where
  pc : Reg
  prv : Reg
  v : Bool
deriving DecidableEq

namespace Hart

variable (cfg : Config) (h : Hart)

/-- Where a hart is. -/
def place : Place :=
  ⟨h.pc, h.prv, h.v⟩

/-- Where `take_trap` leads outside debug mode. -/
def trapPlace (t : Trap) : Place :=
  let start (tvec : Reg) : Reg := handlerAddress tvec (trapBit cfg t) (isInterrupt cfg t)
  match h.trapDestination cfg t with
  | .vs => ⟨start (h.reg .vstvec), h.legalizePrivilege prvS, true⟩
  | .hs => ⟨start (h.reg .stvec), h.legalizePrivilege prvS, false⟩
  | .m => ⟨if h.nmie cfg then start (h.reg .mtvec) else 0#64, h.legalizePrivilege prvM,
    h.v && h.prv == prvM⟩

variable {cfg : Config} {h h' : Hart}

theorem place_takeTrap (hd : h.debugMode = false) (t : Trap) (epc : Reg) :
    (h.takeTrap cfg t epc).place = h.trapPlace cfg t := by
  have hentry := takeTrap_entry cfg hd t epc
  rw [place, trapPlace]
  cases hdest : h.trapDestination cfg t with
  | vs =>
    rw [hdest] at hentry
    rw [hentry.pc, hentry.prv, hentry.v]
  | hs =>
    rw [hdest] at hentry
    rw [hentry.pc, hentry.prv, hentry.v]
  | m =>
    rw [hdest] at hentry
    rw [hentry.pc, hentry.prv, hentry.v]

/-! What a trap reads is the same where nothing has been done. -/

theorem Quiet.trapDestination (q : Quiet h h') (t : Trap) :
    h'.trapDestination cfg t = h.trapDestination cfg t := by
  have hmideleg : h'.midelegRead = h.midelegRead := by
    rw [midelegRead, midelegRead, q.extensionEnabled, q.reg .mideleg rfl]
  have hhideleg : h'.hidelegRead = h.hidelegRead := by
    rw [hidelegRead, hidelegRead, hmideleg, q.reg .hideleg rfl]
  have hvs : h'.vsdeleg cfg t = h.vsdeleg cfg t := by
    rw [vsdeleg, vsdeleg, q.v, q.prv, hhideleg, q.reg .medeleg rfl, q.reg .hedeleg rfl]
  have hhs : h'.hsdeleg cfg t = h.hsdeleg cfg t := by
    rw [hsdeleg, hsdeleg, q.prv, hmideleg, q.reg .medeleg rfl]
  have hdeleg (deleg bit : Reg) : h'.delegated cfg deleg bit = h.delegated cfg deleg bit := by
    rw [delegated, delegated, q.prv]
  rw [Hart.trapDestination, Hart.trapDestination, hvs, hhs, hdeleg, hdeleg]

theorem Quiet.trapPlace (q : Quiet h h') (t : Trap) : h'.trapPlace cfg t = h.trapPlace cfg t := by
  have hnmie : h'.nmie cfg = h.nmie cfg := by
    rw [nmie, nmie, q.reg .mnstatus rfl]
  unfold Hart.trapPlace
  rw [q.trapDestination, q.reg .vstvec rfl, q.reg .stvec rfl, q.reg .mtvec rfl, q.legalizePrivilege,
    q.legalizePrivilege, hnmie, q.v, q.prv]

/-! ### Triggers behind a trap -/

/-- What matching reads of the hart behind a trap. -/
def trapEnv (cfg : Config) (h : Hart) (t : Trap) : MatchEnv :=
  let place := h.trapPlace cfg t
  { h.matchEnv cfg with
    prv := place.prv
    v := place.v
    satp := if place.v then h.read .vsatp else h.read .satp }

theorem matchEnv_takeTrap (hd : h.debugMode = false) (t : Trap) (epc : Reg) :
    (h.takeTrap cfg t epc).matchEnv cfg = h.trapEnv cfg t := by
  have hplace : (h.takeTrap cfg t epc).place = h.trapPlace cfg t := place_takeTrap hd t epc
  have same : SameDebug h (h.takeTrap cfg t epc) := .takeTrap h t epc
  have writes : ControlWrites cfg h (h.takeTrap cfg t epc) := .takeTrap t epc
  have regs := writes.regFrame
  generalize h.takeTrap cfg t epc = h' at hplace same regs
  have hext : h'.extensionEnabled .h = h.extensionEnabled .h := by
    rw [extensionEnabled, extensionEnabled, regs.extTable, regs.reg .misa rfl]
  have hscontext : h'.read .scontext = h.read .scontext := regs.reg .scontext rfl
  have hsatp : h'.read .satp = h.read .satp := regs.reg .satp rfl
  have hvsatp : h'.read .vsatp = h.read .vsatp := regs.reg .vsatp rfl
  have hhcontext : h'.read .hcontext = h.read .hcontext := regs.reg .hcontext rfl
  have hhgatp : h'.read .hgatp = h.read .hgatp := regs.reg .hgatp rfl
  rw [trapEnv, ← hplace, matchEnv, matchEnv, triggerEnv, triggerEnv, hext, same.debugMode,
    hscontext, hhcontext, hhgatp, virtRead, hsatp, hvsatp]
  rfl

theorem Quiet.matchEnv (q : Quiet h h') : h'.matchEnv cfg = h.matchEnv cfg := by
  have hscontext : h'.read .scontext = h.read .scontext := q.reg .scontext rfl
  have hsatp : h'.read .satp = h.read .satp := q.reg .satp rfl
  have hvsatp : h'.read .vsatp = h.read .vsatp := q.reg .vsatp rfl
  have hhcontext : h'.read .hcontext = h.read .hcontext := q.reg .hcontext rfl
  have hhgatp : h'.read .hgatp = h.read .hgatp := q.reg .hgatp rfl
  rw [Hart.matchEnv, Hart.matchEnv, triggerEnv, triggerEnv, q.extensionEnabled, q.debugMode, q.prv,
    q.v, hscontext, hhcontext, hhgatp, virtRead, virtRead, q.v, hsatp, hvsatp]

theorem Quiet.trapEnv (q : Quiet h h') (t : Trap) : h'.trapEnv cfg t = h.trapEnv cfg t := by
  have hvsatp : h'.read .vsatp = h.read .vsatp := q.reg .vsatp rfl
  have hsatp : h'.read .satp = h.read .satp := q.reg .satp rfl
  rw [Hart.trapEnv, Hart.trapEnv, q.trapPlace, q.matchEnv, hvsatp, hsatp]

end Hart

end Nnemu

import Nnemu.Insn.Values
import Nnemu.Lib.Mirror

/-!
# The parts of handlers on wide registers

The statements that handlers are made of do on extended registers what they do on registers of 32
bits. Addresses are computed in 64 bits: whatever comes out, it ends in the address of RV32, and is
one of its names.
-/

namespace Nnemu

open Exec

/-- Any word is a name of what it ends in. -/
theorem Naming.exists_name (addr : Reg) : ∃ names :
    Naming, names.name (addr.setWidth 32) = addr := by
  refine ⟨⟨Function.update held (addr.setWidth 32) addr, fun a => ?_⟩, Function.update_self ..⟩
  by_cases ha : a = addr.setWidth 32
  · rw [ha, Function.update_self]
  · rw [Function.update_of_ne ha, setWidth_held]

instance : Nonempty Naming :=
  ⟨(Naming.exists_name 0#64).choose⟩

variable {ω ι : Type}

/-- **Mirrored**: the handler does on extended registers what the program does on registers of 32
bits. -/
abbrev Widens {α β : Type} (g : α → β) (x : InsnM 32 ω ι α) (y : InsnM 64 ω ι β) : Prop :=
  Mirrors Cpu.widen g x y

/-- The same under some names for addresses, which may depend on where the handler starts. -/
abbrev WidensSome {α β : Type} (g : α → β) (x : Naming → InsnM 32 ω ι α) (y : InsnM 64 ω ι β) :
    Prop :=
  MirrorsSome Cpu.widen g x y

/-- The address of the handler is the name. -/
theorem WidensSome.named {α β : Type} {g : α → β} {x : Reg → InsnM 32 ω ι α}
    {y : InsnM 64 ω ι β} {addr : Reg}
    {low : BitVec 32} (hlow : addr.setWidth 32 = low) (h : Widens g (x addr) y) :
    WidensSome g (fun names => x (names.name low)) y := by
  obtain ⟨names, hname⟩ := Naming.exists_name addr
  refine MirrorsSome.of names ?_
  rw [← hlow, hname]
  exact h

/-- Registers are extended one by one. -/
theorem Xpr.widen_write (x : Xpr 32) (i : BitVec 5) (a : BitVec 32) :
    (x.write i a).widen = x.widen.write i (held a) := by
  rw [widen, widen, write, write, mk.injEq]
  funext j
  dsimp only
  by_cases hi : i = 0#5
  · rw [if_pos hi, if_pos hi]
  · rw [if_neg hi, if_neg hi]
    by_cases hj : j = i
    · rw [hj, Function.update_self, Function.update_self]
    · rw [Function.update_of_ne hj, Function.update_of_ne hj]

/-- The MMU does not see the registers. -/
theorem widens_access {α : Type} (x : CpuM ω ι α) :
    Widens id (InsnM.access x) (InsnM.access x) := by
  intro c
  have hsame : c.widen.withRest c.widen.rest.world = c.withRest c.rest.world := rfl
  rw [InsnM.access, InsnM.access, hsame]
  cases x (c.withRest c.rest.world) with
  | ok a c' => rfl
  | error e c' => rfl

theorem Cpu.widen_withHart (c : Cpu (Machine 32 ω) ι) (u : Hart → Hart) :
    (c.withHart u).widen = c.widen.withHart u := by
  have hhart : c.widen.hart = c.hart := rfl
  rw [withHart, withHart, hhart]
  by_cases hsame : (u c.hart).tlbFlushes = c.hart.tlbFlushes
  · rw [if_pos hsame, if_pos hsame]
    rfl
  · rw [if_neg hsame, if_neg hsame]
    rfl

/-- A step of the hart leaves the registers alone. -/
theorem widens_withHart (u : Hart → Hart) :
    Widens id (modify fun c => c.withHart u : InsnM 32 ω ι PUnit) (modify fun c => c.withHart u) :=
  Mirrors.update fun c => (c.widen_withHart u).symm

namespace Frame

variable (f : Frame)

/-! ### Checks -/

theorem widens_require (b : Bool) : Widens id (f.require b : InsnM 32 ω ι Unit) (f.require b) := by
  cases b with
  | false => exact Mirrors.throw _ _ _
  | true => exact Mirrors.pure _ _ _

theorem widens_requireExtension (ext : Ext) :
    Widens id (f.requireExtension ext : InsnM 32 ω ι Unit) (f.requireExtension ext) :=
  Mirrors.get_bind fun _ => f.widens_require _

theorem widens_requireEitherExtension (ext ext' : Ext) :
    Widens id (f.requireEitherExtension ext ext' : InsnM 32 ω ι Unit)
    (f.requireEitherExtension ext ext') :=
  Mirrors.get_bind fun _ => f.widens_require _

theorem widens_orRefuse {α : Type} (r : Except Refusal α) :
    Widens id (f.orRefuse r : InsnM 32 ω ι α) (f.orRefuse r) := by
  rcases r with e | a
  · cases e with
    | illegal => exact Mirrors.throw _ _ _
    | «virtual» => exact Mirrors.throw _ _ _
    | crash => exact Mirrors.bind (widens_withHart _) fun _ => Mirrors.throw _ _ _
  · exact Mirrors.pure _ _ _

theorem widens_requireFp : Widens id (f.requireFp : InsnM 32 ω ι Unit) f.requireFp :=
  Mirrors.get_bind fun _ => f.widens_orRefuse _

/-! ### Registers -/

theorem widens_readReg (reg : Reg) :
    Widens held (f.readReg reg : InsnM 32 ω ι (BitVec 32)) (f.readReg reg) :=
  Mirrors.bind (f.widens_require _) fun _ => Mirrors.get_bind fun _ => Mirrors.pure _ _ _

theorem widens_writeReg (reg : Reg) (a : BitVec 32) :
    Widens id (f.writeReg reg a : InsnM 32 ω ι Unit) (f.writeReg reg (held a)) := by
  refine Mirrors.bind (f.widens_require _) fun _ => Mirrors.update fun c => ?_
  exact congrArg (fun xpr => c.widen.withRest { c.widen.rest with xpr := xpr })
    (c.rest.xpr.widen_write _ a).symm

theorem widens_laterRs2 :
    Widens (Except.map held) (f.laterRs2 : InsnM 32 ω ι (Except Thrown (BitVec 32)))
      f.laterRs2 := by
  refine Mirrors.get_bind fun c => ?_
  dsimp only
  split
  · exact Mirrors.pure _ _ _
  · exact Mirrors.pure _ _ _

theorem widens_readFreg (reg : Reg) : Widens id (readFreg reg : InsnM 32 ω ι Reg) (readFreg reg) :=
  Mirrors.get_bind fun _ => Mirrors.pure _ _ _

theorem widens_writeFreg (reg : Reg) (value : BitVec 128) :
    Widens id (f.writeFreg reg value : InsnM 32 ω ι Unit) (f.writeFreg reg value) :=
  Mirrors.bind (Mirrors.update fun _ => rfl) fun _ => widens_withHart _

/-! ### The program counter -/

theorem widens_setPc (x : Reg) : Widens id (f.setPc x : InsnM 32 ω ι Reg) (f.setPc x) := by
  refine Mirrors.get_bind fun c => ?_
  have hhart : c.widen.hart = c.hart := rfl
  rw [hhart]
  cases c.hart.setPc f.cfg x with
  | ok npc => exact Mirrors.pure _ _ _
  | error t => exact Mirrors.throw _ _ _

theorem widens_setPcAndSerialize (x : Reg) :
    Widens id (setPcAndSerialize x : InsnM 32 ω ι Reg) (setPcAndSerialize x) :=
  Mirrors.bind (widens_withHart _) fun _ => Mirrors.pure _ _ _

end Frame

end Nnemu

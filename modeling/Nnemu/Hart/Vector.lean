import Nnemu.Hart.Interrupt

/-!
# Trap vectors

An interrupt in vectored mode goes to the base of its level plus four times the code that the
level's cause register receives, an exception to the base (`vectors_takeTrap`). Two kinds of trap
are apart: with Smrnmi, a trap to M while `NMIE` is clear goes to an address that is invalid on
purpose, and an interrupt to VS goes by the number it has outside VS.
-/

namespace Nnemu

namespace Hart

variable {cfg : Config} {h h' : Hart}

/-! ### The address of a handler -/

/-- In vectored mode an interrupt goes to its own entry. -/
theorem handlerAddress_vectored {tvec : Reg} (hv : hasBits tvec 1#64 = true) (bit : Reg) :
    handlerAddress tvec bit true = (tvec &&& ~~~1#64) + 4#64 * bit := by
  rw [handlerAddress, hv, Bool.and_self, if_pos rfl]

/-- An exception goes to the base. -/
theorem handlerAddress_exception (tvec bit : Reg) : handlerAddress tvec bit false = tvec &&&
    ~~~1#64 := by
  rw [handlerAddress, Bool.and_false, if_neg (by decide), BitVec.add_zero]

/-- `Vectors cfg t h tvec cause h'`: the program counter of `h'` and its cause register fit the trap
vector of `h`. -/
structure Vectors (cfg : Config) (t : Trap) (h : Hart) (tvec cause : Csr) (h' : Hart) : Prop where
  interrupt : isInterrupt cfg t = true → hasBits (h.reg tvec) 1#64 = true →
    h'.pc = (h.reg tvec &&& ~~~1#64) + 4#64 * (h'.reg cause &&& ~~~interruptBit cfg)
  exception : isInterrupt cfg t = false → h'.pc = h.reg tvec &&& ~~~1#64

/-- A level whose cause register receives the cause as it is. -/
theorem vectors_of_cause {t : Trap} {tvec cause : Csr}
    (hpc : h'.pc = handlerAddress (h.reg tvec) (trapBit cfg t) (isInterrupt cfg t))
    (hcause : h'.reg cause = t.cause) : Vectors cfg t h tvec cause h' where
  interrupt := fun hi hv => by
    rw [hpc, hi, handlerAddress_vectored hv, trapBit, if_pos hi, hcause]
  exception := fun hi => by
    rw [hpc, hi, handlerAddress_exception]

/-! ### Every trap -/

/-- Program counter and cause fit the trap vector, whatever level the trap goes to. -/
def VectorOk (cfg : Config) (h : Hart) (t : Trap) (epc : Reg) : Prop :=
  match h.trapDestination cfg t with
  | .vs => Vectors cfg t h .vstvec .vscause (h.takeTrap cfg t epc)
  | .hs => Vectors cfg t h .stvec .scause (h.takeTrap cfg t epc)
  | .m => Vectors cfg t h .mtvec .mcause (h.takeTrap cfg t epc)

/-- Where a trap goes, by its level: to HS always as the vector says, to M unless an RNMI handler is
running, when the handler address is invalid, and to VS for an exception. -/
def VectorSpec (cfg : Config) (h : Hart) (t : Trap) (epc : Reg) : Prop :=
  match h.trapDestination cfg t with
  | .vs => isInterrupt cfg t = false → (h.takeTrap cfg t epc).pc = h.reg .vstvec &&& ~~~1#64
  | .hs => Vectors cfg t h .stvec .scause (h.takeTrap cfg t epc)
  | .m =>
    if h.nmie cfg then Vectors cfg t h .mtvec .mcause (h.takeTrap cfg t epc)
    else (h.takeTrap cfg t epc).pc = 0#64

/-- **Vector and cause agree.** Whatever the hart and the trap, the address of the handler and the
value of the cause register are those of the level the trap goes to: the base of its vector, and in
vectored mode with an interrupt four times the code beside it. The two kinds of trap that are apart
are named in the statement. -/
theorem vectors_takeTrap (hd : h.debugMode = false) (t : Trap) (epc : Reg) :
    VectorSpec cfg h t epc := by
  unfold VectorSpec
  have hentry := takeTrap_entry cfg hd t epc
  cases hdest : h.trapDestination cfg t with
  | vs =>
    rw [hdest] at hentry
    intro hi
    rw [hentry.pc, hi, handlerAddress_exception]
  | hs =>
    rw [hdest] at hentry
    exact vectors_of_cause hentry.pc hentry.cause
  | m =>
    rw [hdest] at hentry
    have hpc := hentry.pc
    dsimp only
    split
    · rename_i hn
      rw [if_pos hn] at hpc
      exact vectors_of_cause hpc hentry.cause
    · rename_i hn
      rw [hpc, if_neg hn]

/-- A hart in S whose handlers in M and in S are vectored. Software interrupts of S and breakpoints
are delegated. -/
def vectoredHart : Hart :=
  (init rv64h false).runFrom rv64h
    [.csr 0x305 (.write 0x80000001#64) 0#64, .csr 0x105 (.write 0x80001001#64) 0#64,
      .csr 0x303 (.write 0x2#64) 0#64, .csr 0x302 (.write 0x8#64) 0#64,
      .csr 0x300 (.set 0x800#64) 0#64, .mret 0#64]

/-- Its timer interrupt of M goes to entry 7 and an illegal instruction to the base, both in M; the
software interrupt of S goes to entry 1 and a breakpoint to the base, both in S. -/
theorem vectors_takeTrap_vectored :
    (VectorSpec rv64h vectoredHart (interruptTrap rv64h 7) 0#64 ∧
      VectorSpec rv64h vectoredHart { cause := causeIllegalInstruction } 0#64 ∧
      VectorSpec rv64h vectoredHart (interruptTrap rv64h 1) 0#64 ∧
      VectorSpec rv64h vectoredHart { cause := causeBreakpoint } 0#64) ∧
    (vectoredHart.takeTrap rv64h (interruptTrap rv64h 7) 0#64).pc = 0x8000001c#64 ∧
    (vectoredHart.takeTrap rv64h { cause := causeIllegalInstruction } 0#64).pc = 0x80000000#64 ∧
    (vectoredHart.takeTrap rv64h (interruptTrap rv64h 1) 0#64).pc = 0x80001004#64 ∧
    (vectoredHart.takeTrap rv64h { cause := causeBreakpoint } 0#64).pc = 0x80001000#64 := by
  have hd : vectoredHart.debugMode = false := by decide
  exact ⟨⟨vectors_takeTrap hd _ _, vectors_takeTrap hd _ _, vectors_takeTrap hd _ _,
    vectors_takeTrap hd _ _⟩,
    by decide, by decide, by decide, by decide⟩

end Hart

/-- RV64 with resumable non-maskable interrupts. -/
def rv64rnmi : Config :=
  .ofIsa ((Isa.accepted "rv64imac_smrnmi" "msu").get (by decide))

namespace Hart

/-- With Smrnmi a hart that was just reset takes an exception to address 0, whatever `mtvec` holds;
and the VS timer interrupt goes to entry 6 while `vscause` receives 5. -/
theorem vectorOk_fails :
    (∃ h, Reachable rv64rnmi h ∧ h.debugMode = false ∧
      ¬ VectorOk rv64rnmi h { cause := causeIllegalInstruction } 0#64) ∧
    ∃ h, Reachable rv64h h ∧ h.debugMode = false ∧
      ¬ VectorOk rv64h h (interruptTrap rv64h 6) 0#64 := by
  constructor
  · refine ⟨_, ⟨false, [.csr 0x305 (.write 0x1000#64) 0#64], rfl⟩, by decide, fun ok => ?_⟩
    have hv : Vectors _ _ _ .mtvec .mcause _ := ok
    exact absurd (hv.exception (by decide)) (by decide)
  · refine ⟨_, ⟨false, [.csr 0x603 (.write 0x40#64) 0#64, .csr 0x205 (.write 0x1001#64) 0#64,
      .csr 0x300 (.set 0x8000000800#64) 0#64, .mret 0#64], rfl⟩, by decide, fun ok => ?_⟩
    have hv : Vectors _ _ _ .vstvec .vscause _ := ok
    exact absurd (hv.interrupt (by decide) (by decide)) (by decide)

end Hart

end Nnemu

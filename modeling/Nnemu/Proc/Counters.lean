import Nnemu.Loop.Icount
import Nnemu.Proc.Returns

/-!
# Counters

On the processor of the built instructions `minstret` counts the instructions that retire, and count
triggers count them and the traps, as long as no tick is of the kinds that miscount or lose
something. Each of these kinds has been seen.
-/

namespace Nnemu

namespace Batch

open Nnemu.Core

variable {δ : Type} (p : Setup δ) {b : Batch (Machine 64 (Periphery δ)) InsnFetch}

/-! ### `minstret` -/

/-- **`minstret` is exact** between two batches, and for every instruction that gets to it, in every
run whose rounds do not miscount. The rounds that do are found by a test on the state before the
round, and both kinds occur. -/
theorem minstret_exact (hfresh : b.Fresh p.hartCore)
    (ops : List (LoopOp (Machine 64 (Periphery δ))))
    (hops : Run.Along (play p.hartCore) (fun b _ => b.miscounts p.hartCore = false) b ops) :
    Run.Always (play p.hartCore) (fun b => b.cpu.hart.aborted = false → b.Exact) b ops ∧
      Run.Along (play p.hartCore)
        (fun b _ => b.cpu.hart.aborted = false → b.Current p.hartCore) b ops :=
  instret_exact p.hartCore_lawful hfresh ops hops

/-- A program that does nothing, reads `minstret`, and waits. -/
def readingBatch : Batch (Machine 64 (Periphery Unit)) InsnFetch :=
  Setup.boot rv64h (Hart.init rv64h false)
    [(0x1000#64, 0xb02020f300000013#64), (0x1008#64, 0x10500073#64)]

/-- The loop fetches the read twice, and it finds the instructions before it counted. -/
def readingOps : List (LoopOp (Machine 64 (Periphery Unit))) :=
  .call .none 3#64 :: List.replicate 8 .tick

theorem minstret_exact_wfi :
    Run.Always (play ramCore) (fun b => b.cpu.hart.aborted = false → b.Exact) readingBatch
        readingOps ∧
      Run.Along (play ramCore) (fun b _ => b.cpu.hart.aborted = false → b.Current ramCore)
        readingBatch readingOps :=
  minstret_exact (Setup.ramOnly rv64h) (Setup.fresh_boot ⟨false, [], rfl⟩ _) readingOps
    (by decide +kernel)

/-- A program that waits where the hart starts. -/
def waitingBatch : Batch (Machine 64 (Periphery Unit)) InsnFetch :=
  Setup.boot rv64h (Hart.init rv64h false) [(0x1000#64, 0x10500073#64)]

/-- The second call finds the hart waiting, and counts that as an instruction. -/
theorem minstret_drifts : waitingBatch.Fresh ramCore ∧
    ¬Run.Always (play ramCore) (fun b => b.cpu.hart.aborted = false → b.Exact) waitingBatch
      [.call .none 1#64, .tick, .tick, .tick, .call .none 1#64, .tick, .tick, .tick] := by
  refine ⟨Setup.fresh_boot ⟨false, [], rfl⟩ _, fun hall => ?_⟩
  have hcount := hall.last (by decide +kernel) (by decide +kernel)
  exact absurd hcount (by decide +kernel)

/-! ### Count triggers -/

/-- **Count triggers lose nothing** in a run whose ticks lose nothing: in each of them every counter
tallies that should and no other, a trigger that is due has its action taken, and no instruction
begins before that. What makes a tick lose something is found in the batch before it. -/
theorem icount_exact (hfresh : b.Fresh p.hartCore)
    (hchecked : b.needed = true → b.cpu.checkTriggersIcount = true)
    (ops : List (LoopOp (Machine 64 (Periphery δ))))
    (hops : Run.Along (play p.hartCore)
      (fun b op => op = .tick → b.loses p.hartCore = false) b ops) :
    Run.Along (play p.hartCore)
      (fun b op => b.cpu.hart.aborted = false → (b.play p.hartCore op).cpu.hart.aborted = false →
        PlayTallies p.hartCore b op) b ops :=
  counts_tally p.hartCore_lawful hfresh hchecked ops hops

/-- What happens to the hart before: this value for a count trigger is written to `tdata1`, and
timer interrupts are enabled. -/
def countingOps (tdata1 : Reg) : List HartOp :=
  [.csr 0x7a1 (.write tdata1) 0x7a101073#64, .csr 0x304 (.write 0x80#64) 0x30401073#64,
    .csr 0x300 (.write 0x8#64) 0x30001073#64]

/-- A processor with such a hart, before the first call. The program does nothing. -/
def countingBatch (tdata1 : Reg) : Batch (Machine 64 (Periphery Unit)) InsnFetch :=
  Setup.boot rv64h ((Hart.init rv64h false).runFrom rv64h (countingOps tdata1))
    [(0x1008#64, 0x0000001300000013#64), (0x1010#64, 0x0000001300000013#64)]

theorem fresh_countingBatch (tdata1 : Reg) : (countingBatch tdata1).Fresh ramCore :=
  Setup.fresh_boot ⟨false, countingOps tdata1, rfl⟩ _

/-- A count of 1 in M mode: it runs out with the first instruction, and the second one does not
begin. -/
theorem icount_exact_fires :
    Run.Along (play ramCore)
      (fun b op => b.cpu.hart.aborted = false → (b.play ramCore op).cpu.hart.aborted = false →
        PlayTallies ramCore b op)
      (countingBatch 0x3000000000000600#64) (.call .none 2#64 :: List.replicate 6 .tick) :=
  icount_exact (Setup.ramOnly rv64h) (fresh_countingBatch _) (fun h => h)
    (.call .none 2#64 :: List.replicate 6 .tick)
    ⟨nofun, fun _ => by decide +kernel, fun _ => by decide +kernel, fun _ => by decide +kernel,
      fun _ => by decide +kernel, fun _ => by decide +kernel, fun _ => by decide +kernel, trivial⟩

/-- **A pending trigger, and an interrupt.** The interrupt is taken, and afterwards nothing is
pending: the action gets lost. -/
theorem icount_lost : (countingBatch 0x3000000000000300#64).Fresh ramCore ∧
    ¬Run.Along (play ramCore)
      (fun b op => b.cpu.hart.aborted = false → (b.play ramCore op).cpu.hart.aborted = false →
        PlayTallies ramCore b op)
      (countingBatch 0x3000000000000300#64) [.pin .mtip true, .call .none 1#64, .tick] ∧
    (Run.run (play ramCore) (countingBatch 0x3000000000000300#64)
      [.pin .mtip true, .call .none 1#64, .tick]).needed = false ∧
    (Run.run (play ramCore) (countingBatch 0x3000000000000300#64)
      [.pin .mtip true, .call .none 1#64, .tick]).cpu.hart.reg .mcause =
        0x8000000000000007#64 := by
  refine ⟨fresh_countingBatch _, fun h => ?_, by decide +kernel, by decide +kernel⟩
  have hticks := (h.2.2.1 (by decide +kernel) (by decide +kernel)).tick rfl
  generalize hb : play ramCore (play ramCore (countingBatch 0x3000000000000300#64)
    (.pin .mtip true)) (.call .none 1#64) = b at hticks
  have hdues : 0 < (b.dues ramCore).length ∧ b.tallies ramCore = true ∧ b.n = 1#64 ∧
      b.instret = 0#64 ∧ (b.tick ramCore).n = 0#64 := by
    subst hb
    decide +kernel
  obtain ⟨hdues, htallies, hn, hinstret, hafter⟩ := hdues
  obtain ⟨t, ht⟩ := List.exists_mem_of_ne_nil _ (List.ne_nil_of_length_pos hdues)
  obtain ⟨b₁, tested, htick⟩ := hticks.fires t ht htallies
  -- an action that is taken ends the batch behind no instruction, the interrupt ends it for good
  have hleft : (b₁.catchMatched ramCore ⟨.execute, 0#64, t.getAction⟩).n =
      b₁.n - b₁.instret := rfl
  rw [htick, hleft, tested.n, tested.instret, hn, hinstret] at hafter
  exact absurd hafter (by decide)

end Batch

end Nnemu

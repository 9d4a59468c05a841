import Nnemu.Hart.Writes

/-!
# Writes to `minstret`

The counter is read and written through several entries of the map: as a whole, by halves on RV32,
and behind `counter_proxy_csr_t`. A write stores one less than it says, because the instruction that
writes is counted behind it.
-/

namespace Nnemu

/-- Entries that show `minstret`, and those whose writes leave it alone. -/
def CsrObj.countKnown : CsrObj → Bool
  | .plain .minstret | .rv32Low (.plain .minstret) | .rv32High (.plain .minstret) => true
  | .counterProxy _ delegate => delegate.countKnown
  | o => !o.footprint .minstret

namespace Hart

variable {cfg : Config}

/-- What a write to an entry of the map gives to `minstret`. -/
def minstretValue (h : Hart) (val : Reg) : CsrObj → Option Reg
  | .plain .minstret => some val
  | .rv32Low (.plain .minstret) =>
    some (((h.reg .minstret + 1#64) >>> 32 <<< 32) ||| (val &&& 0xffffffff#64))
  | .rv32High (.plain .minstret) =>
    some (((h.reg .minstret + 1#64) <<< 32 >>> 32) ||| ((val &&& 0xffffffff#64) <<< 32))
  | .counterProxy _ delegate => minstretValue h val delegate
  | _ => none

theorem countKnown_full (cfg : Config) :
    (csrmap cfg.full).all (fun e => e.2.countKnown) = true := by
  obtain ⟨⟨xlen, table, exts, hu, hs⟩, impl, id, big, count, pmp, vlen, vlenb⟩ := cfg
  cases xlen <;> cases count <;>
    exact all_csrmap _ rfl rfl rfl rfl rfl rfl rfl (fun _ => rfl) rfl rfl rfl (fun _ => rfl)
      fun _ => rfl

/-- An entry whose writes leave the counter alone gives it no value. -/
theorem minstretValue_of_footprint {o : CsrObj} (hfoot : o.footprint .minstret = false) (h : Hart)
    (val : Reg) : minstretValue h val o = none := by
  have plain {c : Csr} (hfoot : (CsrObj.plain c).footprint .minstret = false) : c ≠ .minstret := by
    rintro rfl
    exact absurd hfoot (by decide)
  induction o with
  | plain c =>
    have hne := plain hfoot
    cases c <;> first | rfl | exact absurd rfl hne
  | rv32Low orig =>
    cases orig with
    | plain c =>
      have hne := plain hfoot
      cases c <;> first | rfl | exact absurd rfl hne
    | _ => rfl
  | rv32High orig =>
    cases orig with
    | plain c =>
      have hne := plain hfoot
      cases c <;> first | rfl | exact absurd rfl hne
    | _ => rfl
  | counterProxy _ delegate ih => exact ih hfoot
  | _ => rfl

/-- **Writes to the counter take the coming increment back.** -/
theorem minstret_writeObj (o : CsrObj) (hknown : o.countKnown = true) (h : Hart) (val : Reg) :
    (h.writeObj cfg val o).reg .minstret =
      (minstretValue h val o).elim (h.reg .minstret) (· - 1#64) := by
  have other {o : CsrObj} (hfoot : (!o.footprint .minstret) = true) :
      (h.writeObj cfg val o).reg .minstret =
        (minstretValue h val o).elim (h.reg .minstret) (· - 1#64) := by
    rw [Bool.not_eq_true'] at hfoot
    rw [minstretValue_of_footprint hfoot]
    exact (Frame.writeObj o h val).reg .minstret hfoot
  induction o with
  | plain c =>
    cases c
    case minstret => rfl
    all_goals exact other hknown
  | rv32Low orig =>
    cases orig with
    | plain c =>
      cases c
      case minstret => rfl
      all_goals exact other hknown
    | _ => exact other hknown
  | rv32High orig =>
    cases orig with
    | plain c =>
      cases c
      case minstret => rfl
      all_goals exact other hknown
    | _ => exact other hknown
  | counterProxy _ delegate ih => exact ih hknown
  | _ => exact other hknown

/-- What a write to a CSR gives to `minstret`. -/
def minstretPut (cfg : Config) (h : Hart) (which : Nat) (val : Reg) : Option Reg :=
  (csrFind cfg which).bind (minstretValue h (cfg.isa.xlen.zext val))

theorem minstret_putCsr (h : Hart) (which : Nat) (val : Reg) :
    (h.putCsr cfg which val).reg .minstret =
      (h.minstretPut cfg which val).elim (h.reg .minstret) (· - 1#64) := by
  rw [putCsr, minstretPut]
  cases hfind : csrFind cfg which with
  | none => rfl
  | some o =>
    have hknown : o.countKnown = true :=
      List.all_eq_true.1 (countKnown_full cfg) _ (mem_of_csrFind cfg hfind)
    exact minstret_writeObj o hknown h _

end Hart

end Nnemu

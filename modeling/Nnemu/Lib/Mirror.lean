import Nnemu.Lib.Exec

/-!
# Programs on represented states

States of one type may be represented by states of another one, as small registers by large ones. A
program on representations *mirrors* a program on what they represent when it does the same from
every represented state: the end states represent each other, values go through a function of their
own, and exceptions are the same. Sequences mirror sequences, so that a translation of programs is
checked one statement at a time.

Where the program on representations makes choices that the other one does not know of, it mirrors a
family of programs: every run is a run of one of them.
-/

namespace Exec

variable {ε σ τ κ α β α' β' : Type} {φ : σ → τ} {g : α → β} {g' : α' → β'}

/-- The end of a run, as it is represented. -/
def represent (φ : σ → τ) (g : α → β) : EStateM.Result ε σ α → EStateM.Result ε τ β
  | .ok a s => .ok (g a) (φ s)
  | .error e s => .error e (φ s)

/-- `y` does on representations what `x` does on states. -/
def Mirrors (φ : σ → τ) (g : α → β) (x : Exec ε σ α) (y : Exec ε τ β) : Prop :=
  ∀ s, y (φ s) = represent φ g (x s)

/-- Every run of `y` on a representation is one of a program of the family. -/
def MirrorsSome (φ : σ → τ) (g : α → β) (x : κ → Exec ε σ α) (y : Exec ε τ β) : Prop :=
  ∀ s, ∃ k, y (φ s) = represent φ g (x k s)

/-- A run that represents another one ends in a represented state. -/
theorem final_represent (φ : σ → τ) (g : α → β) (r : EStateM.Result ε σ α) :
    final (represent φ g r) = φ (final r) := by
  cases r with
  | ok a s => rfl
  | error e s => rfl

/-! ### One program -/

namespace Mirrors

theorem pure (φ : σ → τ) (g : α → β) (a : α) :
    Mirrors φ g (Pure.pure a : Exec ε σ α) (Pure.pure (g a)) :=
  fun _ => rfl

theorem throw (φ : σ → τ) (g : α → β) (e : ε) :
    Mirrors φ g (MonadExcept.throw e : Exec ε σ α) (MonadExcept.throw e : Exec ε τ β) :=
  fun _ => rfl

theorem update {u : σ → σ} {v : τ → τ} (h : ∀ s, v (φ s) = φ (u s)) :
    Mirrors φ id (modify u : Exec ε σ PUnit) (modify v : Exec ε τ PUnit) :=
  fun s => congrArg (EStateM.Result.ok PUnit.unit) (h s)

/-- Sequences mirror sequences. -/
theorem bind {x : Exec ε σ α} {y : Exec ε τ β} {f : α → Exec ε σ α'} {f' : β → Exec ε τ β'}
    (hx : Mirrors φ g x y)
    (hf : ∀ a, Mirrors φ g' (f a) (f' (g a))) : Mirrors φ g' (x >>= f) (y >>= f') := by
  intro s
  have hy := hx s
  cases h : x s with
  | ok a t =>
    rw [h] at hy
    rw [bind_of_ok hy, bind_of_ok h, hf a t]
  | error e t =>
    rw [h] at hy
    rw [bind_of_error hy, bind_of_error h]
    rfl

/-- A value may be taken for what it represents. -/
theorem represented {x : Exec ε σ α} {y : Exec ε τ β} (h : Mirrors φ g x y) :
    Mirrors φ id (x >>= fun a => Pure.pure (g a)) y := by
  intro s
  rw [h s]
  cases hx : x s with
  | ok a t =>
    rw [bind_of_ok hx]
    rfl
  | error e t =>
    rw [bind_of_error hx]
    rfl

/-- A program that looks at the state it starts from. -/
theorem get_bind {f : σ → Exec ε σ α} {f' : τ → Exec ε τ β}
    (hf : ∀ s, Mirrors φ g (f s) (f' (φ s))) :
    Mirrors φ g (MonadState.get >>= f) (MonadState.get >>= f') :=
  fun s => hf s s

end Mirrors

/-! ### Families -/

namespace MirrorsSome

/-- One program of the family is mirrored throughout. -/
theorem of {x : κ → Exec ε σ α} {y : Exec ε τ β} (k : κ) (h : Mirrors φ g (x k) y) :
    MirrorsSome φ g x y :=
  fun s => ⟨k, h s⟩

/-- So it is where the programs of the family are one. -/
theorem const [Nonempty κ] {x : Exec ε σ α} {y : Exec ε τ β} (h : Mirrors φ g x y) :
    MirrorsSome φ g (fun _ : κ => x) y :=
  fun s => (‹Nonempty κ›).elim fun k => ⟨k, h s⟩

/-- The choice may wait for the first value. -/
theorem bind [Nonempty κ] {x : Exec ε σ α} {y : Exec ε τ β} {f : κ → α → Exec ε σ α'}
    {f' : β → Exec ε τ β'}
    (hx : Mirrors φ g x y) (hf : ∀ a, MirrorsSome φ g' (fun k => f k a) (f' (g a))) :
    MirrorsSome φ g' (fun k => x >>= f k) (y >>= f') := by
  intro s
  have hy := hx s
  cases h : x s with
  | ok a t =>
    rw [h] at hy
    obtain ⟨k, hk⟩ := hf a t
    have hrun : (x >>= f k) s = f k a t := bind_of_ok h
    exact ⟨k, (bind_of_ok hy).trans (hk.trans (congrArg (represent φ g') hrun.symm))⟩
  | error e t =>
    rw [h] at hy
    obtain ⟨k⟩ := ‹Nonempty κ›
    have hrun : (x >>= f k) s = .error e t := bind_of_error h
    exact ⟨k, (bind_of_error hy).trans (congrArg (represent φ g') hrun.symm)⟩

end MirrorsSome

end Exec

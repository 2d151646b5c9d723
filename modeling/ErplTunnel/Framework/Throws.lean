import Mathlib.Tactic.Common

/-!
# Functions that throw and keep their effects

A function that may throw, over a state that keeps what was done before the
throw, as in C++: `Throws ε σ α`. `exec` runs it, and the lemmas below run it
one statement at a time: a `do` block is executed by rewriting with them.
-/

variable {ε σ α β : Type}

/-- Returns an `α` or throws an `ε`, over the state `σ`. -/
abbrev Throws (ε σ : Type) := ExceptT ε (StateM σ)

namespace Throws

/-- What a call returns or throws, and the state after it. -/
def exec (m : Throws ε σ α) (s : σ) : Except ε α × σ := m.run.run s

@[simp] theorem exec_pure (a : α) (s : σ) : exec (pure a : Throws ε σ α) s = (.ok a, s) := rfl

@[simp] theorem exec_throw (e : ε) (s : σ) : exec (throw e : Throws ε σ α) s = (.error e, s) := rfl

@[simp] theorem exec_get (s : σ) : exec (get : Throws ε σ σ) s = (.ok s, s) := rfl

@[simp] theorem exec_modify (f : σ → σ) (s : σ) :
    exec (modify f : Throws ε σ PUnit) s = (.ok ⟨⟩, f s) := rfl

@[simp] theorem exec_bind (m : Throws ε σ α) (f : α → Throws ε σ β) (s : σ) :
    exec (m >>= f) s = match exec m s with
      | (.ok a, s') => exec (f a) s'
      | (.error e, s') => (.error e, s') := by
  simp only [exec, ExceptT.run_bind, StateT.run_bind]
  rcases m.run.run s with ⟨_ | _, _⟩ <;> rfl

/-- `fin` runs after `m`, whether it returns or throws. -/
def deferring (fin : Throws ε σ PUnit) (m : Throws ε σ α) : Throws ε σ α :=
  ExceptT.mk (StateT.mk fun s => ((exec m s).1, (exec fin (exec m s).2).2))

end Throws

import Mathlib.Data.List.Infix
import Mathlib.Tactic.Common

/-!
# Relaying a stream through a buffer

`Buffer` is an array of fixed size whose front is overwritten by each read
(`fill`) and which writes take slices of (`slice`). `Transit` is the history of
one direction of a relay: what was received from its source and what its sink
has accepted. `Owes f q` says that exactly `q` is received and not yet
accepted, in order; it is the invariant of a relay that reads a chunk into a
buffer and writes it out in pieces:

* `Owes.recv`: a relay that owes nothing receives a chunk, and owes it;
* `Owes.accept`: the sink accepts the front of what is owed.
-/

namespace Relay

variable {α : Type*} {cap : Nat}

/-- An array of `cap` cells. -/
structure Buffer (α : Type*) (cap : Nat) where
  cells : List α
  size : cells.length = cap

namespace Buffer

/-- Every cell holds `a`. -/
def const (a : α) : Buffer α cap := ⟨List.replicate cap a, List.length_replicate⟩

/-- `xs` written at the front; what does not fit is cut off. -/
def fill (b : Buffer α cap) (xs : List α) : Buffer α cap :=
  ⟨(xs ++ b.cells.drop xs.length).take cap, by
    have := b.size
    simp only [List.length_take, List.length_append, List.length_drop]; omega⟩

/-- The cells from `off` up to `n`. -/
def slice (b : Buffer α cap) (off n : Nat) : List α := (b.cells.drop off).take (n - off)

theorem slice_fill (b : Buffer α cap) {xs : List α} (h : xs.length ≤ cap) :
    (b.fill xs).slice 0 xs.length = xs := by
  simp only [fill, slice, List.drop_zero, Nat.sub_zero, List.take_take, Nat.min_eq_left h,
    List.take_left]

theorem slice_self (b : Buffer α cap) (n : Nat) : b.slice n n = [] := by
  simp [slice]

theorem slice_split (b : Buffer α cap) {off m n : Nat} (h₁ : off ≤ m) (h₂ : m ≤ n) :
    b.slice off n = b.slice off m ++ b.slice m n := by
  obtain ⟨i, rfl⟩ := Nat.exists_eq_add_of_le h₁
  obtain ⟨j, rfl⟩ := Nat.exists_eq_add_of_le h₂
  simp only [slice, Nat.add_sub_cancel_left, show off + i + j - off = i + j by omega, List.take_add,
    List.drop_drop]

theorem length_slice (b : Buffer α cap) {off n : Nat} (h : n ≤ cap) : (b.slice off n).length = n - off := by
  have := b.size
  simp only [slice, List.length_take, List.length_drop]; omega

end Buffer

/-- What one direction of a relay has received, and what was accepted from it. -/
structure Transit (α : Type*) where
  got : List α
  put : List α

namespace Transit

def empty : Transit α := ⟨[], []⟩

/-- The source delivers `xs`. -/
def recv (f : Transit α) (xs : List α) : Transit α := { f with got := f.got ++ xs }

/-- The sink accepts `xs`. -/
def accept (f : Transit α) (xs : List α) : Transit α := { f with put := f.put ++ xs }

/-- Exactly `q` was received and not yet accepted. -/
def Owes (f : Transit α) (q : List α) : Prop := f.got = f.put ++ q

theorem owes_empty : (empty : Transit α).Owes [] := rfl

theorem owes_nil {f : Transit α} : f.Owes [] ↔ f.put = f.got := by
  simp [Owes, eq_comm]

theorem Owes.recv {f : Transit α} (h : f.Owes []) (xs : List α) : (f.recv xs).Owes xs := by
  simp only [Owes, List.append_nil] at h
  simp [Owes, Transit.recv, h]

theorem Owes.accept {f : Transit α} {xs q : List α} (h : f.Owes (xs ++ q)) : (f.accept xs).Owes q := by
  simpa [Owes, Transit.accept] using h

theorem Owes.isPrefix {f : Transit α} {q : List α} (h : f.Owes q) : f.put <+: f.got := ⟨q, h.symm⟩

theorem Owes.nil_of_eq {f : Transit α} {q : List α} (h : f.Owes q) (he : f.put = f.got) : q = [] := by
  rw [Owes, ← he] at h
  simpa using h

end Transit

end Relay

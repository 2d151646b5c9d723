import Mathlib.Algebra.GroupWithZero.Nat
import Mathlib.Data.List.Perm.Subperm
import ErplTunnel.Framework.Run
import ErplTunnel.Framework.Pool

/-!
# Runs that come to an end

A part of the states, `B`, in which nothing can go on for ever: a run whose
steps are taken in `B` has no more than `n` of them, not counting the retries,
and wherever it stands in `B` another one is possible (`Leaves`). So in the end
the system is out of `B`, whoever chooses the steps. The rule is `leaves`: an
invariant, and a measure that every step in `B` makes smaller, or keeps if it is
a retry.

For a pool of threads the measure is a sum over them (`Pool.total`).
-/

namespace Lts

variable {σ ι : Type*} {step : σ → ι → Option σ} {B I : σ → Prop} {retry : ι → Bool} {μ : σ → Nat}

/-- Every step of the run is taken in `B`. -/
abbrev Inside (step : σ → ι → Option σ) (B : σ → Prop) : σ → List ι → Prop := Along step fun s _ => B s

/-- The steps that are no retries. -/
def advances (retry : ι → Bool) (is : List ι) : Nat := is.countP fun i => !retry i

theorem advances_snoc {is : List ι} {i : ι} :
    advances retry (is ++ [i]) = advances retry is + if retry i then 0 else 1 := by
  rw [advances, advances, List.countP_append, List.countP_singleton]
  cases retry i <;> rfl

/-- From `s`, the system comes out of `B`. -/
structure Leaves (step : σ → ι → Option σ) (B : σ → Prop) (retry : ι → Bool) (n : Nat) (s : σ) : Prop where
  bound : ∀ is t, Run step s is t → Inside step B s is → advances retry is ≤ n
  goes : ∀ is t, Run step s is t → Inside step B s is → B t → ∃ i u, retry i = false ∧ step t i = some u

theorem Leaves.mono {n n' : Nat} {s : σ} (h : Leaves step B retry n s) (hn : n ≤ n') : Leaves step B retry n' s where
  bound is t ht hb := Nat.le_trans (h.bound is t ht hb) hn
  goes := h.goes

/-- The measure pays for the steps of a run. -/
theorem Run.advances_add_le
    (hs : ∀ s i s', I s → B s → step s i = some s' → I s' ∧ μ s' + (if retry i then 0 else 1) ≤ μ s)
    {s t : σ} {is : List ι} (h : Run step s is t) (hb : Inside step B s is) (hi : I s) :
    I t ∧ advances retry is + μ t ≤ μ s := by
  refine h.history (P := fun is t => Inside step B s is → I t ∧ advances retry is + μ t ≤ μ s) ?_ ?_ hb
  · exact fun _ => ⟨hi, by simp [advances]⟩
  · intro is t i u ht ih hu hb
    obtain ⟨hit, hle⟩ := ih hb.append
    obtain ⟨hiu, hlt⟩ := hs t i u hit (hb.last ht) hu
    refine ⟨hiu, ?_⟩
    rw [advances_snoc]
    omega

/-- The rule of the measure. -/
theorem leaves (hs : ∀ s i s', I s → B s → step s i = some s' → I s' ∧ μ s' + (if retry i then 0 else 1) ≤ μ s)
    (hg : ∀ s, I s → B s → ∃ i s', retry i = false ∧ step s i = some s') {s : σ} (hi : I s) :
    Leaves step B retry (μ s) s where
  bound is t ht hb := by
    have hle := (ht.advances_add_le hs hb hi).2
    omega
  goes is t ht hb hbt := hg t (ht.advances_add_le hs hb hi).1 hbt

end Lts

namespace Pool

variable {σ : Type*} {w : σ → Nat} {xs : List (Slot σ)} {ids : List Nat} {i : Nat} {p p' : σ}
  {joinable joinable' : Bool}

def Slot.weigh (w : σ → Nat) : Slot σ → Nat
  | .refused => 0
  | .thread p _ => w p

/-- The weights of the threads together. -/
def total (w : σ → Nat) (xs : List (Slot σ)) : Nat := (xs.map (Slot.weigh w)).sum

@[simp] theorem total_refuse : total w (xs ++ [.refused]) = total w xs := by
  simp [total, Slot.weigh]

@[simp] theorem total_spawn : total w (xs ++ [.thread p joinable]) = total w xs + w p := by
  simp [total, Slot.weigh]

theorem total_set (h : xs[i]? = some (.thread p joinable)) :
    total w (xs.set i (.thread p' joinable')) + w p = total w xs + w p' := by
  induction xs generalizing i with
  | nil => cases h
  | cons x xs ih =>
    cases i with
    | zero =>
      cases h
      simp [total, Slot.weigh]
      omega
    | succ i =>
      have hi : total w (xs.set i (.thread p' joinable')) + w p = total w xs + w p' := ih h
      simp only [total, List.set_cons_succ, List.map_cons, List.sum_cons] at hi ⊢
      omega

/-- A step of a thread. -/
theorem total_step (h : xs[i]? = some (.thread p joinable)) (hw : w p' < w p) :
    total w (xs.set i (.thread p' joinable)) < total w xs := by
  have hset : total w (xs.set i (.thread p' joinable)) + w p = total w xs + w p' := total_set h
  omega

/-- The join of a thread. -/
theorem total_join (h : xs[i]? = some (.thread p joinable)) :
    total w (xs.set i (.thread p joinable')) = total w xs := by
  have hset : total w (xs.set i (.thread p joinable')) + w p = total w xs + w p := total_set h
  omega

theorem total_le {n : Nat} (h : ∀ p, w p ≤ n) : total w xs ≤ n * xs.length := by
  induction xs with
  | nil => exact Nat.zero_le _
  | cons x xs ih =>
    have hx : x.weigh w ≤ n := by
      cases x with
      | refused => exact Nat.zero_le _
      | thread p joinable => exact h p
    simp only [total, List.map_cons, List.sum_cons, List.length_cons, Nat.mul_succ] at ih ⊢
    omega

theorem Enlisted.length_le (h : Enlisted xs ids) : ids.length ≤ xs.length := by
  have hsub : ids ⊆ List.range xs.length := fun i hi => List.mem_range.mpr (h.2 i hi).lt
  have hle := (List.subperm_of_subset h.1 hsub).length_le
  rwa [List.length_range] at hle

theorem Enlisted.perm {ids' : List Nat} (h : Enlisted xs ids) (hp : ids.Perm ids') : Enlisted xs ids' :=
  ⟨hp.nodup_iff.mp h.1, fun i hi => h.2 i (hp.mem_iff.mpr hi)⟩

/-- What a list that names threads has first. -/
theorem Enlisted.head (h : Enlisted xs (i :: ids)) : ∃ p joinable, xs[i]? = some (.thread p joinable) := by
  obtain ⟨x, hx, hp⟩ := h.2 i (List.mem_cons_self ..)
  cases x with
  | refused => exact hp.elim
  | thread p joinable => exact ⟨p, joinable, hx⟩

end Pool

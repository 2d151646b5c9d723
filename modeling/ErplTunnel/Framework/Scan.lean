import Mathlib.Tactic.Common

/-!
# Scans in chunks

A producer is called until it hands over an empty chunk (`execute`), and it may
be started again in the state that it was left in (`executeAll`). A producer that
`Serves` has rows left in each state, and hands over the first `size` of them. An
execution of it has all the rows left, in order, and leaves none
(`Serves.execute`), so a second one has none (`Serves.whole_iff`).
-/

namespace Scan

variable {σ ρ : Type*}

/-- The chunks up to an empty one, and the state behind it, in less than `n`
calls. -/
def execute (next : σ → List ρ × σ) : Nat → σ → Option (List (List ρ) × σ)
  | 0, _ => none
  | n + 1, s =>
    if (next s).1 = [] then some ([], (next s).2)
    else (execute next n (next s).2).map fun r => ((next s).1 :: r.1, r.2)

/-- `k` executions, one after another. -/
def executeAll (next : σ → List ρ × σ) (n : Nat) : Nat → σ → Option (List (List (List ρ)))
  | 0, _ => some []
  | k + 1, s => (execute next n s).bind fun r => (executeAll next n k r.2).map (r.1 :: ·)

/-- The producer hands over the first `size` of the rows left. -/
structure Serves (next : σ → List ρ × σ) (left : σ → List ρ) (size : Nat) : Prop where
  pos : 0 < size
  chunk : ∀ s, (next s).1 = (left s).take size
  rest : ∀ s, left (next s).2 = (left s).drop size

variable {next : σ → List ρ × σ} {left : σ → List ρ} {size : Nat}

theorem Serves.execute (h : Serves next left size) (n : Nat) (s : σ) (hn : (left s).length < n) :
    ∃ out s', execute next n s = some (out, s') ∧ out.flatten = left s ∧ left s' = [] ∧
      ∀ chunk ∈ out, chunk.length ≤ size := by
  induction n generalizing s with
  | zero => omega
  | succ n ih =>
    have hpos := h.pos
    rw [Scan.execute, h.chunk]
    by_cases hnil : left s = []
    · refine ⟨[], (next s).2, ?_, ?_, ?_, nofun⟩
      · rw [hnil, List.take_nil, if_pos rfl]
      · rw [hnil, List.flatten_nil]
      · rw [h.rest, hnil, List.drop_nil]
    · have hlen : 0 < (left s).length := List.length_pos_iff.mpr hnil
      have htake : (left s).take size ≠ [] := by
        rw [← List.length_pos_iff, List.length_take]
        omega
      obtain ⟨out, s', he, hout, hrest, hsize⟩ := ih (next s).2 (by rw [h.rest, List.length_drop]; omega)
      refine ⟨(left s).take size :: out, s', ?_, ?_, hrest, fun chunk hc => ?_⟩
      · rw [if_neg htake, he, Option.map_some]
      · rw [List.flatten_cons, hout, h.rest, List.take_append_drop]
      · rcases List.mem_cons.mp hc with rfl | hc
        · rw [List.length_take]; omega
        · exact hsize chunk hc

/-- Where nothing is left, the executions are empty. -/
theorem Serves.executeAll_nil (h : Serves next left size) (n k : Nat) {s : σ} (hs : left s = []) :
    executeAll next (n + 1) k s = some (List.replicate k []) := by
  induction k generalizing s with
  | zero => rfl
  | succ k ih =>
    have hnil : (next s).1 = [] := by rw [h.chunk, hs, List.take_nil]
    have hrest : left (next s).2 = [] := by rw [h.rest, hs, List.drop_nil]
    rw [executeAll, Scan.execute, if_pos hnil, Option.bind_some, ih hrest]
    rfl

/-- The first execution has the rows, and the others have none. -/
theorem Serves.executeAll (h : Serves next left size) (n k : Nat) (s : σ) (hn : (left s).length ≤ n) :
    ∃ out, executeAll next (n + 1) (k + 1) s = some (out :: List.replicate k []) ∧ out.flatten = left s ∧
      ∀ chunk ∈ out, chunk.length ≤ size := by
  obtain ⟨out, s', he, hout, hrest, hsize⟩ := h.execute (n + 1) s (by omega)
  refine ⟨out, ?_, hout, hsize⟩
  rw [Scan.executeAll, he, Option.bind_some, h.executeAll_nil n k hrest]
  rfl

/-- Every chunk fits, and every execution has the rows exactly when there is at
most one, or no row. -/
theorem Serves.whole_iff (h : Serves next left size) (n k : Nat) (s : σ) (hn : (left s).length ≤ n) :
    ∃ outs, Scan.executeAll next (n + 1) k s = some outs ∧ outs.length = k ∧
      (∀ out ∈ outs, ∀ chunk ∈ out, chunk.length ≤ size) ∧
      ((∀ out ∈ outs, out.flatten = left s) ↔ k ≤ 1 ∨ left s = []) := by
  cases k with
  | zero => exact ⟨[], rfl, rfl, nofun, by simp⟩
  | succ k =>
    obtain ⟨out, he, hout, hsize⟩ := h.executeAll n k s hn
    refine ⟨_, he, by simp, fun o ho => ?_, ?_⟩
    · rcases List.mem_cons.mp ho with rfl | ho
      · exact hsize
      · rw [List.eq_of_mem_replicate ho]; nofun
    · constructor
      · intro hall
        cases k with
        | zero => exact .inl (Nat.le_refl 1)
        | succ k =>
          have hnil := hall [] (List.mem_cons_of_mem _ (List.mem_replicate.mpr ⟨by omega, rfl⟩))
          exact .inr hnil.symm
      · intro hk o ho
        rcases List.mem_cons.mp ho with rfl | ho
        · exact hout
        · obtain ⟨hne, rfl⟩ := List.mem_replicate.mp ho
          rcases hk with hk | hk
          · omega
          · rw [hk, List.flatten_nil]

end Scan

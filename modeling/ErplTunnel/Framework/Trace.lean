import Mathlib.Data.List.Induction
import Mathlib.Tactic.Common

/-!
# Logs whose entries depend on what came before

A log is what a system has done, in order. `Each ok log` says that every entry
is allowed by the entries before it. A log grows at its end, so `each_snoc` is
all that a step has to show, and `Each.later` is what two entries of a log have
to do with each other.
-/

namespace Trace

variable {α : Type*} {ok : List α → α → Prop} {log l₁ l₂ : List α} {a b : α}

/-- Every entry is allowed by those before it. -/
def Each (ok : List α → α → Prop) (log : List α) : Prop :=
  ∀ l₁ a l₂, log = l₁ ++ a :: l₂ → ok l₁ a

theorem each_nil : Each ok [] := by
  intro l₁ a l₂ h
  cases l₁ <;> cases h

theorem each_snoc : Each ok (log ++ [a]) ↔ Each ok log ∧ ok log a := by
  constructor
  · intro h
    refine ⟨fun l₁ b l₂ he => h l₁ b (l₂ ++ [a]) ?_, h log a [] rfl⟩
    rw [he, List.append_assoc, List.cons_append]
  · rintro ⟨h, ha⟩ l₁ b l₂ he
    -- the last entry, or one of the log
    rcases List.eq_nil_or_concat l₂ with rfl | ⟨l₂, c, rfl⟩
    · obtain ⟨rfl, hb⟩ := List.append_inj' he rfl
      obtain rfl : a = b := List.head_eq_of_cons_eq hb
      exact ha
    · rw [List.concat_eq_append, ← List.cons_append, ← List.append_assoc] at he
      exact h l₁ b l₂ (List.append_inj_left' he rfl)

/-- An entry that comes after `a` is allowed by a log with `a` in it. -/
theorem Each.later (h : Each ok log) (he : log = l₁ ++ a :: l₂) (hb : b ∈ l₂) :
    ∃ l, a ∈ l ∧ (∀ c ∈ l₁, c ∈ l) ∧ ok l b := by
  obtain ⟨m₁, m₂, rfl⟩ := List.append_of_mem hb
  refine ⟨l₁ ++ a :: m₁, by simp, fun c hc => by simp [hc], h _ _ m₂ ?_⟩
  rw [he, List.append_assoc, List.cons_append]

end Trace

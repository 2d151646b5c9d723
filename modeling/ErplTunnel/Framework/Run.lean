import Mathlib.Data.List.Induction
import Mathlib.Tactic.Common

/-!
# Runs of a partial step function

A system is a partial step function on its states: `step s i` is the state
after the input `i` in `s`, and `none` when `i` cannot happen in `s`. A run
is a list of inputs, each possible where it is taken (`Run`). What a run
preserves is proved from what a step preserves: `Run.inv` for a predicate of
the state, `Run.invAlong` for one that each step keeps only under a condition
on the step (`Along`), `Run.history` for one of the state and the inputs so
far.
-/

namespace Lts

variable {σ ι : Type*} {step : σ → ι → Option σ}

/-- The inputs `is`, one after another, take `s` to `s'`. -/
def Run (step : σ → ι → Option σ) (s : σ) (is : List ι) (s' : σ) : Prop :=
  is.foldlM step s = some s'

theorem run_nil {s s' : σ} : Run step s [] s' ↔ s = s' := by
  simp [Run]

theorem run_cons {s s' : σ} {i : ι} {is : List ι} :
    Run step s (i :: is) s' ↔ ∃ t, step s i = some t ∧ Run step t is s' := by
  simp [Run, Option.bind_eq_some_iff]

theorem run_append {s s' : σ} {is js : List ι} :
    Run step s (is ++ js) s' ↔ ∃ t, Run step s is t ∧ Run step t js s' := by
  simp [Run, List.foldlM_append, Option.bind_eq_some_iff]

theorem run_snoc {s s' : σ} {i : ι} {is : List ι} :
    Run step s (is ++ [i]) s' ↔ ∃ t, Run step s is t ∧ step t i = some s' := by
  simp [run_append, run_cons, run_nil]

theorem Run.det {s t u : σ} {is : List ι} (h : Run step s is t) (h' : Run step s is u) : t = u :=
  Option.some.inj (h.symm.trans h')

/-- The rule of histories: a predicate of the inputs so far and the state
they lead to, true at the start and kept by every step, is true along every
run. -/
theorem Run.history {P : List ι → σ → Prop} {s : σ} (h0 : P [] s)
    (hs : ∀ is t i u, Run step s is t → P is t → step t i = some u → P (is ++ [i]) u)
    {is : List ι} {s' : σ} (h : Run step s is s') : P is s' := by
  induction is using List.reverseRecOn generalizing s' with
  | nil => rw [run_nil] at h; exact h ▸ h0
  | append_singleton is i ih =>
    obtain ⟨t, ht, hi⟩ := run_snoc.mp h
    exact hs is t i s' ht (ih ht) hi

/-- The rule of invariants. -/
theorem Run.inv {P : σ → Prop} (hs : ∀ s i s', P s → step s i = some s' → P s')
    {s s' : σ} {is : List ι} (h : Run step s is s') (h0 : P s) : P s' :=
  h.history (P := fun _ t => P t) h0 fun _ t i u _ hp hi => hs t i u hp hi

/-- Every step of the run satisfies `C`, of the state it is taken in and its
input. -/
def Along (step : σ → ι → Option σ) (C : σ → ι → Prop) (s : σ) (is : List ι) : Prop :=
  ∀ is₁ i is₂ t, is = is₁ ++ i :: is₂ → Run step s is₁ t → C t i

theorem along_nil {C : σ → ι → Prop} {s : σ} : Along step C s [] := by
  intro is₁ i is₂ t h
  cases is₁ <;> cases h

theorem Along.cons {C : σ → ι → Prop} {s t : σ} {i : ι} {is : List ι} (hc : C s i) (ht : step s i = some t)
    (h : Along step C t is) : Along step C s (i :: is) := by
  intro is₁ j is₂ u he hu
  cases is₁ with
  | nil =>
    cases he
    exact run_nil.mp hu ▸ hc
  | cons k is₁ =>
    cases he
    obtain ⟨t', ht', hu⟩ := run_cons.mp hu
    obtain rfl : t = t' := Option.some.inj (ht.symm.trans ht')
    exact h is₁ j is₂ u rfl hu

theorem Along.append {C : σ → ι → Prop} {s : σ} {is js : List ι} (h : Along step C s (is ++ js)) :
    Along step C s is := by
  rintro is₁ i is₂ t rfl ht
  exact h is₁ i (is₂ ++ js) t (by simp) ht

theorem Along.last {C : σ → ι → Prop} {s t : σ} {is : List ι} {i : ι}
    (h : Along step C s (is ++ [i])) (ht : Run step s is t) : C t i :=
  h is i [] t rfl ht

theorem Along.trans {C : σ → ι → Prop} {s t : σ} {is js : List ι} (h : Along step C s is)
    (ht : Run step s is t) (h' : Along step C t js) : Along step C s (is ++ js) := by
  intro is₁ i is₂ u he hu
  rcases List.append_eq_append_iff.mp he with ⟨as, rfl, rfl⟩ | ⟨cs, rfl, hcs⟩
  · obtain ⟨t', ht', hu⟩ := run_append.mp hu
    obtain rfl := ht.det ht'
    exact h' as i is₂ u rfl hu
  · cases cs with
    | nil =>
      obtain rfl : js = i :: is₂ := hcs.symm
      obtain rfl : t = u := ht.det (by simpa using hu)
      exact h' [] i is₂ t rfl (run_nil.mpr rfl)
    | cons c cs =>
      cases hcs
      exact h is₁ i cs u rfl hu

theorem Along.snoc {C : σ → ι → Prop} {s t : σ} {is : List ι} {i : ι} (h : Along step C s is)
    (ht : Run step s is t) (hc : C t i) : Along step C s (is ++ [i]) := by
  refine h.trans ht fun is₁ j is₂ u he hu => ?_
  cases is₁ with
  | nil =>
    cases he
    exact run_nil.mp hu ▸ hc
  | cons k is₁ => simp at he

/-- The rule of invariants for runs whose steps all satisfy `C`. -/
theorem Run.invAlong {P : σ → Prop} {C : σ → ι → Prop}
    (hs : ∀ s i s', P s → C s i → step s i = some s' → P s')
    {s s' : σ} {is : List ι} (h : Run step s is s') (hc : Along step C s is) (h0 : P s) : P s' :=
  h.history (P := fun is t => Along step C s is → P t) (fun _ => h0)
    (fun _ t i u ht ih hi hc => hs t i u (ih hc.append) (hc.last ht) hi) hc

/-- What an invariant of such runs says of a step holds of every step. -/
theorem Along.ofInv {P : σ → Prop} {C D : σ → ι → Prop}
    (hs : ∀ s i s', P s → C s i → step s i = some s' → P s') (hd : ∀ s i, P s → C s i → D s i)
    {s : σ} {is : List ι} (hc : Along step C s is) (h0 : P s) : Along step D s is := by
  rintro is₁ i is₂ t rfl ht
  have hpre : Along step C s is₁ := hc.append
  exact hd t i (ht.invAlong hs hpre h0) (hc is₁ i is₂ t rfl ht)

/-- The step `a`, steps that are not in `Q`, and the step `b` take `s` to `t`. -/
def Span (step : σ → ι → Option σ) (Q : ι → Prop) (a b : ι) (s t : σ) : Prop :=
  ∃ is s₁ s₂, step s a = some s₁ ∧ (∀ i ∈ is, ¬Q i) ∧ Run step s₁ is s₂ ∧ step s₂ b = some t

/-- The rule of spans: what the first step makes true, and the steps between
keep, holds where the last is taken. -/
theorem Span.inv {P : σ → Prop} {Q : ι → Prop} {a b : ι} {s t : σ} (h : Span step Q a b s t)
    (ha : ∀ s₁, step s a = some s₁ → P s₁)
    (hs : ∀ s i s', ¬Q i → P s → step s i = some s' → P s') : ∃ s₂, P s₂ ∧ step s₂ b = some t := by
  obtain ⟨is, s₁, s₂, h₁, hq, hr, hb⟩ := h
  have halong : Along step (fun _ i => ¬Q i) s₁ is := by
    rintro is₁ i is₂ _ rfl -
    exact hq i (by simp)
  exact ⟨s₂, hr.invAlong (fun s i s' hp hc hi => hs s i s' hc hp hi) halong (ha s₁ h₁), hb⟩

end Lts

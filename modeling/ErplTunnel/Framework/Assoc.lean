import Mathlib.Data.List.Induction
import Mathlib.Data.List.Perm.Basic
import Mathlib.Tactic.Common

/-!
# Assignments to a map

A map is kept as a list of its entries, one for a key (`assign`). `assignAll`
makes one out of a list of assignments, in which a later one to the same key
replaces an earlier one. The order of the assignments does not matter exactly
when those to one key agree (`assignAll_perm_iff`).
-/

namespace Assoc

variable {κ ν : Type*} [DecidableEq κ]

/-- `m[k] = v`. -/
def assign (m : List (κ × ν)) (k : κ) (v : ν) : List (κ × ν) := (k, v) :: m.filter (·.1 ≠ k)

theorem lookup_filter_ne {m : List (κ × ν)} {n k : κ} (h : n ≠ k) : (m.filter (·.1 ≠ n)).lookup k = m.lookup k := by
  induction m with
  | nil => rfl
  | cons e m ih =>
    obtain ⟨j, v⟩ := e
    by_cases hj : j = n
    · have hk : (k == n) = false := by rw [beq_eq_false_iff_ne]; exact h.symm
      simpa [List.lookup_cons, hj, hk] using ih
    · rw [List.filter_cons_of_pos (by simpa using hj), List.lookup_cons, List.lookup_cons, ih]

theorem lookup_assign (m : List (κ × ν)) (k j : κ) (v : ν) :
    (assign m k v).lookup j = if j = k then some v else m.lookup j := by
  by_cases h : j = k
  · simp [assign, h]
  · have hb : (j == k) = false := by rw [beq_eq_false_iff_ne]; exact h
    rw [assign, List.lookup_cons, hb, if_neg h]
    exact lookup_filter_ne (Ne.symm h)

/-- The assignments one after another, to an empty map. -/
def assignAll (es : List (κ × ν)) : List (κ × ν) := es.foldl (fun m e => assign m e.1 e.2) []

theorem assignAll_snoc (es : List (κ × ν)) (e : κ × ν) : assignAll (es ++ [e]) = assign (assignAll es) e.1 e.2 := by
  simp [assignAll]

theorem lookup_assignAll_snoc (es : List (κ × ν)) (e : κ × ν) :
    (assignAll (es ++ [e])).lookup e.1 = some e.2 := by
  rw [assignAll_snoc, lookup_assign, if_pos rfl]

/-- A value comes from an assignment. -/
theorem mem_of_lookup_assignAll {es : List (κ × ν)} {k : κ} {v : ν} (h : (assignAll es).lookup k = some v) :
    (k, v) ∈ es := by
  induction es using List.reverseRecOn with
  | nil => cases h
  | append_singleton es e ih =>
    rw [assignAll_snoc, lookup_assign] at h
    by_cases hk : k = e.1
    · rw [if_pos hk] at h
      obtain rfl := Option.some.inj h
      subst hk
      exact List.mem_append_right _ (List.mem_singleton.mpr rfl)
    · rw [if_neg hk] at h
      exact List.mem_append_left _ (ih h)

/-- A key that is assigned to has a value. -/
theorem lookup_assignAll_ne_none {es : List (κ × ν)} {e : κ × ν} (h : e ∈ es) : (assignAll es).lookup e.1 ≠ none := by
  induction es using List.reverseRecOn with
  | nil => cases h
  | append_singleton es e' ih =>
    rw [assignAll_snoc, lookup_assign]
    by_cases hk : e.1 = e'.1
    · simp [hk]
    · rw [if_neg hk]
      refine ih ((List.mem_append.mp h).resolve_right fun he => hk ?_)
      rw [List.mem_singleton.mp he]

/-- Assignments to one key agree. -/
def Agree (es : List (κ × ν)) : Prop := ∀ e₁ ∈ es, ∀ e₂ ∈ es, e₁.1 = e₂.1 → e₁.2 = e₂.2

theorem lookup_assignAll_iff {es : List (κ × ν)} (h : Agree es) {k : κ} {v : ν} :
    (assignAll es).lookup k = some v ↔ (k, v) ∈ es := by
  refine ⟨mem_of_lookup_assignAll, fun hm => ?_⟩
  obtain ⟨w, hw⟩ := Option.ne_none_iff_exists'.mp (lookup_assignAll_ne_none hm)
  have hvw : v = w := h (k, v) hm (k, w) (mem_of_lookup_assignAll hw) rfl
  rw [hvw]
  exact hw

/-- The map is the same in every order exactly when the assignments agree. -/
theorem assignAll_perm_iff {α : Type*} (f : α → κ × ν) (l : List α) :
    (∀ l' : List α, l'.Perm l → ∀ k, (assignAll (l'.map f)).lookup k = (assignAll (l.map f)).lookup k) ↔ Agree (l.map f) := by
  constructor
  · intro h
    -- an assignment that is made last has its value
    have hlast : ∀ a ∈ l, (assignAll (l.map f)).lookup (f a).1 = some (f a).2 := by
      intro a ha
      obtain ⟨l₁, l₂, rfl⟩ := List.append_of_mem ha
      have hperm : (l₁ ++ l₂ ++ [a]).Perm (l₁ ++ a :: l₂) :=
        (List.perm_append_singleton a (l₁ ++ l₂)).trans List.perm_middle.symm
      rw [← h _ hperm, List.map_append, List.map_singleton]
      exact lookup_assignAll_snoc _ _
    intro e₁ h₁ e₂ h₂ he
    obtain ⟨a₁, ha₁, rfl⟩ := List.mem_map.mp h₁
    obtain ⟨a₂, ha₂, rfl⟩ := List.mem_map.mp h₂
    exact Option.some.inj ((hlast a₁ ha₁).symm.trans (he ▸ hlast a₂ ha₂))
  · intro h l' hl k
    have hmem : ∀ e, e ∈ l'.map f ↔ e ∈ l.map f := fun e => (hl.map f).mem_iff
    have h' : Agree (l'.map f) := fun e₁ h₁ e₂ h₂ => h e₁ ((hmem e₁).mp h₁) e₂ ((hmem e₂).mp h₂)
    refine Option.ext fun v => ?_
    rw [lookup_assignAll_iff h', lookup_assignAll_iff h]
    exact hmem (k, v)

/-- The values under `f`, which is told their keys. -/
def mapVals (f : κ → ν → ν) (m : List (κ × ν)) : List (κ × ν) := m.map fun e => (e.1, f e.1 e.2)

theorem lookup_mapVals (f : κ → ν → ν) (m : List (κ × ν)) (k : κ) :
    (mapVals f m).lookup k = (m.lookup k).map (f k) := by
  induction m with
  | nil => rfl
  | cons e m ih =>
    rw [mapVals, List.map_cons, ← mapVals, List.lookup_cons, List.lookup_cons, ih]
    by_cases hk : k = e.1
    · simp [hk]
    · have hb : (k == e.1) = false := by rw [beq_eq_false_iff_ne]; exact hk
      rw [hb]

theorem assign_mapVals (f : κ → ν → ν) (m : List (κ × ν)) (k : κ) (v : ν) :
    assign (mapVals f m) k (f k v) = mapVals f (assign m k v) := by
  rw [assign, assign, mapVals, mapVals, List.map_cons, List.filter_map]
  rfl

end Assoc

import Mathlib.Data.List.Forall2
import Mathlib.Tactic.Common

/-!
# Tables that make each entry once

A table gives each key one entry, made when the key is first asked for and
never removed; what it hands out is the place of the entry. `Holds t i k` says
that the entry at `i` is the one of `k`. A table only grows at its end, so what
was handed out stays good (`Holds.mono`), and while its keys are distinct two
requests are given one entry exactly when they ask for one key
(`Holds.place_eq_iff`).
-/

namespace Intern

variable {κ α : Type*} [DecidableEq κ] {k k' : κ} {a : α} {t t' : List (κ × α)} {i j : Nat}

/-- The place of the entry of `k`, which is made of `a` if there is none. -/
def intern (k : κ) (a : α) (t : List (κ × α)) : Nat × List (κ × α) :=
  match t.findIdx? (·.1 = k) with
  | some i => (i, t)
  | none => (t.length, t ++ [(k, a)])

/-- The entry at `i` is the one of `k`. -/
def Holds (t : List (κ × α)) (i : Nat) (k : κ) : Prop := ∃ a, t[i]? = some (k, a)

/-- No key has two entries. -/
def Distinct (t : List (κ × α)) : Prop := (t.map Prod.fst).Nodup

theorem prefix_intern (k : κ) (a : α) (t : List (κ × α)) : t <+: (intern k a t).2 := by
  rw [intern]
  split
  · exact List.prefix_refl t
  · exact List.prefix_append t _

theorem holds_intern (k : κ) (a : α) (t : List (κ × α)) : Holds (intern k a t).2 (intern k a t).1 k := by
  rw [intern]
  split
  case h_1 i hi =>
    obtain ⟨hl, hk, -⟩ := List.findIdx?_eq_some_iff_getElem.mp hi
    have hk : t[i].1 = k := of_decide_eq_true hk
    exact ⟨t[i].2, by rw [List.getElem?_eq_getElem hl, ← hk]⟩
  case h_2 => exact ⟨a, by simp⟩

theorem Distinct.intern (h : Distinct t) (k : κ) (a : α) : Distinct (intern k a t).2 := by
  rw [Intern.intern]
  split
  case h_1 => exact h
  case h_2 hn =>
    have hk : k ∉ t.map Prod.fst := by
      intro hm
      obtain ⟨e, he, rfl⟩ := List.mem_map.mp hm
      have := List.findIdx?_eq_none_iff.mp hn e he
      simp at this
    rw [Distinct, List.map_append]
    exact List.nodup_append.mpr ⟨h, by simp, fun x hx y hy he => hk (by simp_all)⟩

theorem mem_intern {e : κ × α} (h : e ∈ (intern k a t).2) : e ∈ t ∨ e = (k, a) := by
  rw [intern] at h
  split at h
  · exact .inl h
  · exact (List.mem_append.mp h).imp_right List.mem_singleton.mp

omit [DecidableEq κ] in
theorem Holds.mono (h : Holds t i k) (ht : t <+: t') : Holds t' i k := by
  obtain ⟨a, ha⟩ := h
  obtain ⟨u, rfl⟩ := ht
  exact ⟨a, by rw [List.getElem?_append_left (List.getElem?_eq_some_iff.mp ha).1, ha]⟩

omit [DecidableEq κ] in
theorem Holds.place_eq_iff (hd : Distinct t) (hi : Holds t i k) (hj : Holds t j k') : i = j ↔ k = k' := by
  obtain ⟨a, ha⟩ := hi
  obtain ⟨b, hb⟩ := hj
  have hka : (t.map Prod.fst)[i]? = some k := by rw [List.getElem?_map, ha]; rfl
  have hkb : (t.map Prod.fst)[j]? = some k' := by rw [List.getElem?_map, hb]; rfl
  constructor
  · rintro rfl
    exact Option.some.inj (hka.symm.trans hkb)
  · rintro rfl
    have hl := (List.getElem?_eq_some_iff.mp hka).1
    exact (List.getElem?_inj hl hd).mp (hka.trans hkb.symm)

/-- Two tables whose entries go together give entries out alike, for keys that
are found in both at the same places. -/
theorem forall₂_intern {κ' α' : Type*} [DecidableEq κ'] {R : κ × α → κ' × α' → Prop} {u : List (κ' × α')} {l : κ'}
    {b : α'} (h : List.Forall₂ R t u) (hk : ∀ e e', R e e' → (e.1 = k ↔ e'.1 = l)) (he : R (k, a) (l, b)) :
    (intern l b u).1 = (intern k a t).1 ∧ List.Forall₂ R (intern k a t).2 (intern l b u).2 := by
  have hf : u.findIdx? (·.1 = l) = t.findIdx? (·.1 = k) := by
    clear he
    induction h with
    | nil => rfl
    | cons hr _ ih => simp only [List.findIdx?_cons, ih, hk _ _ hr]
  rw [intern, intern, hf]
  cases t.findIdx? (·.1 = k) with
  | some i => exact ⟨rfl, h⟩
  | none => exact ⟨h.length_eq.symm, List.rel_append h (.cons he .nil)⟩

end Intern

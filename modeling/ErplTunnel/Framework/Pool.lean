import Mathlib.Tactic.Common

/-!
# A pool of threads

A server takes on clients and starts a thread for each, and whoever shuts it
down joins the threads. The clients are numbered in the order they came: a list
that grows at its end and whose entries change in place, each a client that was
turned away or a thread with a state of its own, which is joinable until it has
been joined (`Slot`). `At P xs i` says that entry `i` satisfies `P`.

Two facts carry a shutdown: every thread not yet joined is in the list to be
joined (`Tracked`), and a thread that has been joined had come to its end
(`Joined`). When the list is empty, no thread is running (`Joined.ended`). A list
that names threads, each once (`Enlisted`), is no longer than the threads it can
name.
-/

namespace Pool

section At

variable {α : Type*} {P Q : α → Prop} {xs : List α} {a b : α} {i j : Nat}

/-- Entry `i` satisfies `P`. -/
def At (P : α → Prop) (xs : List α) (i : Nat) : Prop := ∃ a, xs[i]? = some a ∧ P a

theorem At.lt (h : At P xs i) : i < xs.length := by
  obtain ⟨a, ha, -⟩ := h
  exact (List.getElem?_eq_some_iff.mp ha).1

theorem not_at_nil : ¬At P [] i := by
  simp [At]

theorem not_at_length : ¬At P xs xs.length :=
  fun h => Nat.lt_irrefl _ h.lt

theorem at_iff (h : xs[i]? = some a) : At P xs i ↔ P a := by
  simp [At, h]

@[simp] theorem at_snoc : At P (xs ++ [a]) i ↔ At P xs i ∨ i = xs.length ∧ P a := by
  rcases Nat.lt_trichotomy i xs.length with h | h | h
  · have hne : i ≠ xs.length := by omega
    simp [At, List.getElem?_append_left h, hne]
  · subst h
    simp [At]
  · have hne : i ≠ xs.length := by omega
    have hn : ¬At P xs i := fun hi => by have := hi.lt; omega
    have hlen : (xs ++ [a]).length ≤ i := by simp; omega
    simp [At, List.getElem?_eq_none hlen, hne] at hn ⊢
    exact hn

theorem at_set (h : xs[i]? = some b) : At P (xs.set i a) j ↔ j ≠ i ∧ At P xs j ∨ j = i ∧ P a := by
  have hlt : i < xs.length := (List.getElem?_eq_some_iff.mp h).1
  by_cases hij : j = i
  · subst hij
    simp [At, List.getElem?_set_self hlt]
  · simp [At, List.getElem?_set_ne (Ne.symm hij), hij]

end At

/-- A client: turned away, or served by a thread. -/
inductive Slot (σ : Type*) where
  | refused
  | thread (p : σ) (joinable : Bool)

namespace Slot

variable {σ : Type*}

/-- It is served by a thread in a state of `q`. -/
def Is (q : σ → Prop) : Slot σ → Prop
  | .refused => False
  | .thread p _ => q p

/-- Its thread has not been joined. -/
def Joinable : Slot σ → Prop
  | .refused => False
  | .thread _ joinable => joinable = true

@[simp] theorem is_refused {q : σ → Prop} : ¬Is q .refused := id

@[simp] theorem is_thread {q : σ → Prop} {p : σ} {joinable : Bool} : Is q (.thread p joinable) ↔ q p := Iff.rfl

@[simp] theorem not_joinable_refused : ¬Joinable (.refused : Slot σ) := id

@[simp] theorem joinable_thread {p : σ} {joinable : Bool} : Joinable (.thread p joinable) ↔ joinable = true := Iff.rfl

end Slot

variable {σ : Type*} {q : σ → Prop} {xs : List (Slot σ)} {ids : List Nat} {i j : Nat} {p p' : σ} {joinable : Bool}

section Step

/-! ## A step of thread `i` -/

variable (h : xs[i]? = some (.thread p joinable))
include h

theorem at_joinable_step : At Slot.Joinable (xs.set i (.thread p' joinable)) j ↔ At Slot.Joinable xs j := by
  rw [at_set h]
  by_cases hij : j = i
  · subst hij
    simp [at_iff h]
  · simp [hij]

theorem at_is_step (hq : q p' ↔ q p) : At (Slot.Is q) (xs.set i (.thread p' joinable)) j ↔ At (Slot.Is q) xs j := by
  rw [at_set h]
  by_cases hij : j = i
  · subst hij
    simp [at_iff h, hq]
  · simp [hij]

/-- The thread leaves `q`. -/
theorem at_is_drop (hq : ¬q p') :
    At (Slot.Is q) (xs.set i (.thread p' joinable)) j ↔ At (Slot.Is q) xs j ∧ j ≠ i := by
  rw [at_set h]
  simp [hq, and_comm]

/-- The thread leaves `q`, and is not the one that `A` is about. -/
theorem at_is_drop_or {A : Prop} (hq : ¬q p') (hA : A → j ≠ i) :
    At (Slot.Is q) (xs.set i (.thread p' joinable)) j ∨ A ↔ (At (Slot.Is q) xs j ∨ A) ∧ j ≠ i := by
  rw [at_is_drop h hq, or_and_right, and_iff_left_of_imp hA]

end Step

theorem at_is_join (h : xs[i]? = some (.thread p true)) :
    At (Slot.Is q) (xs.set i (.thread p false)) j ↔ At (Slot.Is q) xs j := by
  rw [at_set h]
  by_cases hij : j = i
  · subst hij
    simp [at_iff h]
  · simp [hij]

theorem at_joinable_join (h : xs[i]? = some (.thread p true)) :
    At Slot.Joinable (xs.set i (.thread p false)) j ↔ At Slot.Joinable xs j ∧ j ≠ i := by
  rw [at_set h]
  simp [and_comm]

/-- The threads that are not joined yet are among `ids`. -/
def Tracked (xs : List (Slot σ)) (ids : List Nat) : Prop := ∀ i, At Slot.Joinable xs i → i ∈ ids

/-- A thread that has been joined is not in `q`. -/
def Joined (q : σ → Prop) (xs : List (Slot σ)) : Prop := ∀ i, At (Slot.Is q) xs i → At Slot.Joinable xs i

theorem tracked_nil : Tracked ([] : List (Slot σ)) ids :=
  fun _ h => absurd h not_at_nil

theorem joined_nil : Joined q ([] : List (Slot σ)) :=
  fun _ h => absurd h not_at_nil

namespace Tracked

theorem mono {ids' : List Nat} (h : Tracked xs ids) (hs : ids ⊆ ids') : Tracked xs ids' :=
  fun i hi => hs (h i hi)

theorem refuse (h : Tracked xs ids) : Tracked (xs ++ [.refused]) ids := by
  intro i hi
  simp only [at_snoc, Slot.not_joinable_refused, and_false, or_false] at hi
  exact h i hi

theorem spawn (h : Tracked xs ids) : Tracked (xs ++ [.thread p true]) (ids ++ [xs.length]) := by
  intro i hi
  rcases at_snoc.mp hi with hi | ⟨rfl, -⟩
  · exact List.mem_append_left _ (h i hi)
  · exact List.mem_append_right _ (List.mem_singleton.mpr rfl)

theorem step (h : Tracked xs ids) (hi : xs[i]? = some (.thread p joinable)) :
    Tracked (xs.set i (.thread p' joinable)) ids :=
  fun j hj => h j ((at_joinable_step hi).mp hj)

theorem join (h : Tracked xs (i :: ids)) (hi : xs[i]? = some (.thread p true)) :
    Tracked (xs.set i (.thread p false)) ids := by
  intro j hj
  obtain ⟨hj, hji⟩ := (at_joinable_join hi).mp hj
  exact (List.mem_cons.mp (h j hj)).resolve_left hji

/-- A thread that has been joined may be passed over. -/
theorem skip (h : Tracked xs (i :: ids)) (hi : xs[i]? = some (.thread p false)) : Tracked xs ids := by
  intro j hj
  rcases List.mem_cons.mp (h j hj) with rfl | hj'
  · exact absurd ((at_iff hi).mp hj) (by simp)
  · exact hj'

end Tracked

namespace Joined

theorem refuse (h : Joined q xs) : Joined q (xs ++ [.refused]) := by
  intro i hi
  simp only [at_snoc, Slot.is_refused, and_false, or_false] at hi
  exact at_snoc.mpr (.inl (h i hi))

theorem spawn (h : Joined q xs) : Joined q (xs ++ [.thread p true]) := by
  intro i hi
  rcases at_snoc.mp hi with hi | ⟨rfl, -⟩
  · exact at_snoc.mpr (.inl (h i hi))
  · exact at_snoc.mpr (.inr ⟨rfl, rfl⟩)

theorem step (h : Joined q xs) (hi : xs[i]? = some (.thread p joinable)) (hp : q p) :
    Joined q (xs.set i (.thread p' joinable)) := by
  intro j hj
  rw [at_joinable_step hi]
  rcases (at_set hi).mp hj with ⟨-, hj⟩ | ⟨rfl, -⟩
  · exact h j hj
  · exact h j ((at_iff hi).mpr hp)

theorem join (h : Joined q xs) (hi : xs[i]? = some (.thread p true)) (hp : ¬q p) :
    Joined q (xs.set i (.thread p false)) := by
  intro j hj
  rcases (at_set hi).mp hj with ⟨hji, hj⟩ | ⟨-, hj⟩
  · exact (at_joinable_join hi).mpr ⟨h j hj, hji⟩
  · exact absurd hj hp

/-- Where nothing is left to join, no thread is in `q`. -/
theorem ended (h : Joined q xs) (ht : Tracked xs []) (i : Nat) : ¬At (Slot.Is q) xs i :=
  fun hi => by simpa using ht i (h i hi)

end Joined

/-- `ids` names threads, each once. -/
def Enlisted (xs : List (Slot σ)) (ids : List Nat) : Prop := ids.Nodup ∧ ∀ i ∈ ids, At (Slot.Is fun _ => True) xs i

namespace Enlisted

theorem nil : Enlisted xs [] :=
  ⟨List.nodup_nil, nofun⟩

theorem sublist {ids' : List Nat} (h : Enlisted xs ids) (hs : ids'.Sublist ids) : Enlisted xs ids' :=
  ⟨h.1.sublist hs, fun i hi => h.2 i (hs.subset hi)⟩

theorem refuse (h : Enlisted xs ids) : Enlisted (xs ++ [.refused]) ids :=
  ⟨h.1, fun i hi => at_snoc.mpr (.inl (h.2 i hi))⟩

theorem spawn (h : Enlisted xs ids) : Enlisted (xs ++ [.thread p true]) (ids ++ [xs.length]) := by
  have hn : xs.length ∉ ids := fun hi => Nat.lt_irrefl _ (h.2 _ hi).lt
  refine ⟨List.nodup_append.mpr ⟨h.1, by simp, ?_⟩, fun i hi => at_snoc.mpr ?_⟩
  · intro a ha b hb hab
    rw [List.mem_singleton.mp hb] at hab
    exact hn (hab ▸ ha)
  · rcases List.mem_append.mp hi with hi | hi
    · exact .inl (h.2 i hi)
    · exact .inr ⟨List.mem_singleton.mp hi, trivial⟩

/-- A step or the join of a thread. -/
theorem set {joinable' : Bool} (h : Enlisted xs ids) (hi : xs[i]? = some (.thread p joinable)) :
    Enlisted (xs.set i (.thread p' joinable')) ids := by
  refine ⟨h.1, fun j hj => (at_set hi).mpr ?_⟩
  by_cases hji : j = i
  · exact .inr ⟨hji, trivial⟩
  · exact .inl ⟨hji, h.2 j hj⟩

end Enlisted

/-- It is served by a thread of `r`. -/
def Slot.holds (r : σ → Bool) : Slot σ → Bool
  | .refused => false
  | .thread p _ => r p

/-- The threads of `r`. -/
def living (r : σ → Bool) (xs : List (Slot σ)) : List Nat :=
  (List.range xs.length).filter fun i => xs[i]?.any (Slot.holds r)

theorem mem_living {r : σ → Bool} : i ∈ living r xs ↔ At (Slot.Is fun p => r p = true) xs i := by
  have hslot : ∀ a : Slot σ, a.holds r = true ↔ a.Is fun p => r p = true := by
    intro a
    cases a <;> simp [Slot.holds]
  simp only [living, List.mem_filter, List.mem_range, At, Option.any_eq_true, hslot]
  exact and_iff_right_of_imp fun ⟨a, ha, _⟩ => (List.getElem?_eq_some_iff.mp ha).1

end Pool

import ErplTunnel.Framework.Run
import ErplTunnel.Framework.Throws

/-!
# Two runs side by side

`f` changes a part of the state. A function is blind to `f` if what it returns
or throws does not change with it, and what it leaves is changed as the state
was (`Throws.Blind`): it hands that part on, and never looks at it. A `do` block
is blind if its statements are.

A machine answers every input. Two machines whose states stay related, and whose
answers are the same, for related inputs answer alike throughout (`answers_map`).
Two systems whose states stay related have the same runs (`run_rel`).
-/

variable {ε σ τ ι κ ο α β : Type}

namespace Throws

/-- `m` does not look at what `f` changes. -/
def Blind (f : σ → σ) (m : Throws ε σ α) : Prop := ∀ s, exec m (f s) = ((exec m s).1, f (exec m s).2)

namespace Blind

variable {f g : σ → σ} {m : Throws ε σ α}

theorem pure (a : α) : Blind f (pure a : Throws ε σ α) := fun _ => rfl

theorem throw (e : ε) : Blind f (throw e : Throws ε σ α) := fun _ => rfl

theorem modify (h : ∀ s, g (f s) = f (g s)) : Blind f (modify g : Throws ε σ PUnit) := by
  intro s
  rw [exec_modify, exec_modify, h]

theorem bind {k : α → Throws ε σ β} (hm : Blind f m) (hk : ∀ a, Blind f (k a)) : Blind f (m >>= k) := by
  intro s
  rw [exec_bind, exec_bind, hm s]
  rcases exec m s with ⟨e | a, s'⟩
  · rfl
  · exact hk a s'

/-- What is read of the state is not what `f` changes. -/
theorem get {k : σ → Throws ε σ β} (h : ∀ s, k (f s) = k s) (hk : ∀ s, Blind f (k s)) : Blind f (get >>= k) := by
  intro s
  rw [exec_bind, exec_bind, exec_get, exec_get]
  show exec (k (f s)) (f s) = _
  rw [h]
  exact hk s s

end Blind

end Throws

namespace Lockstep

/-- The answers to `is`, one after another, and the state after them. -/
def answers (step : σ → ι → ο × σ) : σ → List ι → List ο × σ
  | s, [] => ([], s)
  | s, i :: is =>
    let r := step s i
    let rs := answers step r.2 is
    (r.1 :: rs.1, rs.2)

/-- The inputs of the second machine are those of the first under `g`. -/
theorem answers_map {step : σ → ι → ο × σ} {step' : τ → κ → ο × τ} {R : σ → τ → Prop} {C : ι → Prop} {g : ι → κ}
    (hs : ∀ s t i, R s t → C i → (step' t (g i)).1 = (step s i).1 ∧ R (step s i).2 (step' t (g i)).2)
    {s : σ} {t : τ} {is : List ι} (h : R s t) (hc : ∀ i ∈ is, C i) :
    (answers step' t (is.map g)).1 = (answers step s is).1 ∧
      R (answers step s is).2 (answers step' t (is.map g)).2 := by
  induction is generalizing s t with
  | nil => exact ⟨rfl, h⟩
  | cons i is ih =>
    obtain ⟨ho, hr⟩ := hs s t i h (hc i List.mem_cons_self)
    obtain ⟨hos, hrs⟩ := ih hr fun j hj => hc j (List.mem_cons_of_mem i hj)
    refine ⟨?_, hrs⟩
    show _ :: _ = _ :: _
    rw [ho, hos]

section

variable {step : σ → ι → Option σ} {step' : τ → ι → Option τ} {R : σ → τ → Prop} {s s' : σ} {t t' : τ}

/-- Inputs that lead somewhere in the one system lead to a related state in the
other. -/
theorem run_rel (hs : ∀ s t i, R s t → Option.Rel R (step s i) (step' t i)) (h : R s t) (is : List ι) :
    Option.Rel R (is.foldlM step s) (is.foldlM step' t) := by
  induction is generalizing s t with
  | nil => exact .some h
  | cons i is ih =>
    rw [List.foldlM_cons, List.foldlM_cons]
    have hr := hs s t i h
    revert hr
    generalize step s i = x, step' t i = y
    rintro (hr | _)
    · exact ih hr
    · exact .none

theorem run_iff (hs : ∀ s t i, R s t → Option.Rel R (step s i) (step' t i)) (h : R s t) (is : List ι) :
    (∃ t', Lts.Run step' t is t') ↔ ∃ s', Lts.Run step s is s' := by
  have hr := run_rel hs h is
  simp only [Lts.Run]
  revert hr
  generalize is.foldlM step s = x, is.foldlM step' t = y
  rintro (_ | _)
  · exact ⟨fun _ => ⟨_, rfl⟩, fun _ => ⟨_, rfl⟩⟩
  · constructor
    · rintro ⟨_, h⟩
      cases h
    · rintro ⟨_, h⟩
      cases h

theorem run_related (hs : ∀ s t i, R s t → Option.Rel R (step s i) (step' t i)) (h : R s t) {is : List ι}
    (hr : Lts.Run step s is s') (hr' : Lts.Run step' t is t') : R s' t' := by
  have hrel := run_rel hs h is
  rw [Lts.Run] at hr hr'
  rw [hr, hr'] at hrel
  cases hrel with
  | some h => exact h

end

end Lockstep

import ErplTunnel.Framework.Trace

/-!
# Resources and their owners

A program acquires resources, uses them and releases them, and its log says in
which order. A resource has a name of its own each time it is acquired, so a log
is in order when nothing is acquired twice and nothing is used or released
unless it is held at that moment.

`Kept ok H U log` is the invariant of a program that keeps its log in order: the
resources in `H` are those it holds, those in `U` it has not acquired, and every
entry meets a rule `ok` of the resources held before it, which is how one
resource depends on others. The rules `Kept.acquire`, `Kept.use` and
`Kept.release` are for the steps, `Kept.releasedOnce`, `Kept.afterRelease` and
`Kept.ruled` for what follows of the whole log.
-/

namespace Custody

variable {ρ : Type*}

inductive Op (ρ : Type*) where
  | acquire (r : ρ)
  | use (r : ρ)
  | release (r : ρ)
  deriving DecidableEq, Repr

/-- The resource of an entry. -/
def Op.on : Op ρ → ρ
  | .acquire r | .use r | .release r => r

/-- Acquired and not yet released. -/
def Held (log : List (Op ρ)) (r : ρ) : Prop := .acquire r ∈ log ∧ .release r ∉ log

/-- What may be done after `log`. -/
def Op.Lawful (log : List (Op ρ)) : Op ρ → Prop
  | .acquire r => .acquire r ∉ log
  | .use r | .release r => Held log r

/-- A resource that was acquired has been released once. -/
def ReleasedOnce [DecidableEq ρ] (log : List (Op ρ)) (r : ρ) : Prop :=
  .acquire r ∈ log → log.count (.release r) = 1

/-- After its release a resource does not occur. -/
def Over (log : List (Op ρ)) (r : ρ) : Prop :=
  ∀ l₁ l₂, log = l₁ ++ .release r :: l₂ → ∀ op ∈ l₂, op.on ≠ r

/-- The log is in order, with `H` held and `U` not acquired so far. -/
structure Kept (ok : (ρ → Prop) → Op ρ → Prop) (H U : ρ → Prop) (log : List (Op ρ)) : Prop where
  held : ∀ r, H r ↔ Held log r
  unmade : ∀ r, U r → .acquire r ∉ log
  each : Trace.Each (fun past op => op.Lawful past ∧ ok (Held past) op) log

/-- Two entries are one and another. -/
theorem append_pair (log : List (Op ρ)) (a b : Op ρ) : log ++ [a, b] = log ++ [a] ++ [b] := by
  simp

namespace Kept

variable {ok : (ρ → Prop) → Op ρ → Prop} {H U H' U' : ρ → Prop} {log l₁ l₂ : List (Op ρ)} {r x : ρ} {op : Op ρ}

theorem nil (hH : ∀ r, ¬H r) : Kept ok H U [] :=
  ⟨fun r => iff_of_false (hH r) (by simp [Held]), by simp, Trace.each_nil⟩

theorem congr (h : Kept ok H U log) (hH : ∀ x, H' x ↔ H x) (hU : ∀ x, U' x → U x) : Kept ok H' U' log :=
  ⟨fun x => (hH x).trans (h.held x), fun x hx => h.unmade x (hU x hx), h.each⟩

theorem held_eq (h : Kept ok H U log) : H = Held log :=
  funext fun x => propext (h.held x)

theorem acquired (h : Kept ok H U log) (hr : .release r ∈ log) : .acquire r ∈ log := by
  obtain ⟨l₁, l₂, rfl⟩ := List.append_of_mem hr
  have hl : Op.Lawful l₁ (.release r) := (h.each _ _ _ rfl).1
  exact List.mem_append_left _ hl.1

theorem snoc (h : Kept ok H U log) (hl : op.Lawful log) (hok : ok H op)
    (hH : ∀ x, H' x ↔ Held (log ++ [op]) x) (hU : ∀ x, U' x → U x ∧ op ≠ .acquire x) :
    Kept ok H' U' (log ++ [op]) := by
  refine ⟨hH, fun x hx => ?_, Trace.each_snoc.mpr ⟨h.each, hl, h.held_eq ▸ hok⟩⟩
  have hn : .acquire x ∉ log := h.unmade x (hU x hx).1
  simpa [hn] using (hU x hx).2.symm

theorem acquire (h : Kept ok H U log) (hu : U r) (hok : ok H (.acquire r)) (hH : ∀ x, H' x ↔ H x ∨ x = r)
    (hU : ∀ x, U' x → U x ∧ x ≠ r) : Kept ok H' U' (log ++ [.acquire r]) := by
  have hn : .acquire r ∉ log := h.unmade r hu
  have hr : .release r ∉ log := fun hr => hn (h.acquired hr)
  refine h.snoc hn hok (fun x => ?_) fun x hx => ⟨(hU x hx).1, fun he => (hU x hx).2 (Op.acquire.inj he).symm⟩
  rw [hH, h.held]
  by_cases hx : x = r
  · subst hx
    simp [Held, hr]
  · simp [Held, hx]

theorem use (h : Kept ok H U log) (hr : H r) (hok : ok H (.use r)) : Kept ok H U (log ++ [.use r]) := by
  refine h.snoc ((h.held r).mp hr) hok (fun x => ?_) fun x hx => ⟨hx, by simp⟩
  rw [h.held]
  simp [Held]

theorem release (h : Kept ok H U log) (hr : H r) (hok : ok H (.release r)) (hH : ∀ x, H' x ↔ H x ∧ x ≠ r)
    (hU : ∀ x, U' x → U x) : Kept ok H' U' (log ++ [.release r]) := by
  refine h.snoc ((h.held r).mp hr) hok (fun x => ?_) fun x hx => ⟨hU x hx, by simp⟩
  rw [hH, h.held]
  simp [Held, and_assoc]

/-- A resource made, used and released at once. -/
theorem brief (h : Kept ok H U log) (hu : U r) (hok : ∀ G op, op.on = r → ok G op) (hH : ∀ x, H' x ↔ H x)
    (hU : ∀ x, U' x → U x ∧ x ≠ r) : Kept ok H' U' (log ++ [.acquire r, .use r, .release r]) := by
  have hn : ¬H r := fun hr => h.unmade r hu ((h.held r).mp hr).1
  have hmade : Kept ok (fun x => H x ∨ x = r) U' (log ++ [.acquire r]) :=
    h.acquire hu (hok _ _ rfl) (fun _ => Iff.rfl) hU
  have hused := hmade.use (.inr rfl) (hok _ _ rfl)
  rw [show log ++ [.acquire r, .use r, .release r] = log ++ [.acquire r] ++ [.use r] ++ [.release r] by simp]
  refine hused.release (.inr rfl) (hok _ _ rfl) (fun x => ?_) fun _ hx => hx
  rw [hH]
  constructor
  · exact fun hx => ⟨.inl hx, fun he => hn (he ▸ hx)⟩
  · exact fun hx => hx.1.resolve_right hx.2

/-- Each entry met the rule, of the resources held before it. -/
theorem ruled (h : Kept ok H U log) (he : log = l₁ ++ op :: l₂) : ok (Held l₁) op :=
  (h.each l₁ op l₂ he).2

theorem afterRelease (h : Kept ok H U log) (r : ρ) : Over log r := by
  intro l₁ l₂ he op hop hr
  have hl : Op.Lawful l₁ (.release r) := (h.each _ _ _ he).1
  obtain ⟨l, hrel, hsub, hlaw, -⟩ := h.each.later he hop
  cases op with
  | acquire x => subst hr; exact hlaw (hsub _ hl.1)
  | use x | release x => subst hr; exact hlaw.2 hrel

theorem count_release [DecidableEq ρ] (h : Kept ok H U log) (hr : .release r ∈ log) :
    log.count (.release r) = 1 := by
  obtain ⟨l₁, l₂, rfl⟩ := List.append_of_mem hr
  have hl : Op.Lawful l₁ (.release r) := (h.each _ _ _ rfl).1
  have h₁ : l₁.count (.release r) = 0 := List.count_eq_zero.mpr hl.2
  have h₂ : l₂.count (.release r) = 0 := List.count_eq_zero.mpr fun hm => h.afterRelease r l₁ l₂ rfl _ hm rfl
  rw [List.count_append, List.count_cons_self, h₁, h₂]

theorem releasedOnce [DecidableEq ρ] (h : Kept ok H U log) (hr : ¬H r) : ReleasedOnce log r := by
  intro ha
  refine h.count_release ?_
  by_contra hn
  exact hr ((h.held r).mpr ⟨ha, hn⟩)

end Kept

end Custody

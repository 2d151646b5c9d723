import Mathlib.Data.List.DropRight

/-!
# Fields of a list

The fields of a list are its maximal runs without a separator (`MaximalRuns`),
and `fields` computes them: what is between two separators, if it is not empty.
Fields that are joined by separators are found again (`fields_intercalate`).
`strip` takes the separators at the two ends away and leaves the others. A loop
that keeps a set of what it has added keeps the first occurrences
(`foldl_insertNew`).
-/

namespace Fields

variable {α : Type*} {p : α → Bool}

/-- `fs` are the maximal runs of a list without elements of `p`, in order. -/
inductive MaximalRuns (p : α → Bool) : List α → List (List α) → Prop
  | nil : MaximalRuns p [] []
  | skip {x : α} {xs : List α} {fs : List (List α)} (hx : p x = true) (h : MaximalRuns p xs fs) :
    MaximalRuns p (x :: xs) fs
  | run {f xs : List α} {fs : List (List α)} (hf : f ≠ []) (hfree : ∀ x ∈ f, p x = false)
    (hend : ∀ x ∈ xs.head?, p x = true) (h : MaximalRuns p xs fs) : MaximalRuns p (f ++ xs) (f :: fs)

def fields (p : α → Bool) (xs : List α) : List (List α) := (xs.splitOnP p).filter fun f => !f.isEmpty

theorem fields_nil : fields p [] = [] := by
  simp [fields]

theorem fields_skip {x : α} (hx : p x = true) (xs : List α) : fields p (x :: xs) = fields p xs := by
  simp [fields, List.splitOnP_cons_eq_if_modifyHead, hx]

theorem fields_run {f xs : List α} (hf : f ≠ []) (hfree : ∀ x ∈ f, p x = false)
    (hend : ∀ x ∈ xs.head?, p x = true) : fields p (f ++ xs) = f :: fields p xs := by
  cases xs with
  | nil => simp [fields, List.splitOnP_eq_singleton hfree, hf]
  | cons x xs =>
    have hx : p x = true := hend x rfl
    rw [fields_skip hx, fields, List.splitOnP_append_cons_of_forall_mem hfree x hx]
    simp [fields, hf]

theorem MaximalRuns.fields_eq {xs : List α} {fs : List (List α)} (h : MaximalRuns p xs fs) : fields p xs = fs := by
  induction h with
  | nil => exact fields_nil
  | skip hx h ih => rw [fields_skip hx, ih]
  | run hf hfree hend h ih => rw [fields_run hf hfree hend, ih]

theorem maximalRuns_fields (p : α → Bool) (xs : List α) : MaximalRuns p xs (fields p xs) := by
  induction hn : xs.length using Nat.strongRecOn generalizing xs with
  | ind n ih =>
  subst hn
  cases xs with
  | nil =>
    rw [fields_nil]
    exact .nil
  | cons x xs =>
    by_cases hx : p x = true
    · rw [fields_skip hx]
      exact .skip hx (ih _ (by simp) xs rfl)
    · -- the run that starts at `x`, and what is behind it
      have hsplit := (List.takeWhile_append_dropWhile (p := fun y => !p y) (l := x :: xs)).symm
      have hf : (x :: xs).takeWhile (fun y => !p y) ≠ [] := by simp [hx]
      have hfree : ∀ y ∈ (x :: xs).takeWhile (fun y => !p y), p y = false := by
        intro y hy
        simpa using List.mem_takeWhile_imp hy
      have hend : ∀ y ∈ ((x :: xs).dropWhile fun y => !p y).head?, p y = true := by
        intro y hy
        have hnot := List.head?_dropWhile_not (fun y => !p y) (x :: xs)
        rw [Option.mem_def.mp hy] at hnot
        simpa using hnot
      have hlen : ((x :: xs).dropWhile fun y => !p y).length < (x :: xs).length := by
        have hpos := List.length_pos_iff.mpr hf
        have hsum := congrArg List.length hsplit
        rw [List.length_append] at hsum
        omega
      rw [hsplit, fields_run hf hfree hend]
      exact .run hf hfree hend (ih _ hlen _ rfl)

theorem maximalRuns_iff {xs : List α} {fs : List (List α)} : MaximalRuns p xs fs ↔ fields p xs = fs :=
  ⟨MaximalRuns.fields_eq, fun h => h ▸ maximalRuns_fields p xs⟩

theorem MaximalRuns.seps {sep xs : List α} {fs : List (List α)} (h : MaximalRuns p xs fs)
    (hsep : ∀ x ∈ sep, p x = true) : MaximalRuns p (sep ++ xs) fs := by
  induction sep with
  | nil => exact h
  | cons x sep ih => exact .skip (hsep x (.head _)) (ih fun y hy => hsep y (.tail _ hy))

/-- A field is not empty, has no separator, and all of it is in the list. -/
theorem MaximalRuns.of_mem {xs : List α} {fs : List (List α)} (h : MaximalRuns p xs fs) {f : List α}
    (hf : f ∈ fs) : f ≠ [] ∧ (∀ x ∈ f, p x = false) ∧ ∀ x ∈ f, x ∈ xs := by
  induction h with
  | nil => cases hf
  | skip hx h ih =>
    obtain ⟨hne, hfree, hin⟩ := ih hf
    exact ⟨hne, hfree, fun x hx => List.mem_cons_of_mem _ (hin x hx)⟩
  | run hne hfree hend h ih =>
    rcases List.mem_cons.mp hf with rfl | hf
    · exact ⟨hne, hfree, fun x hx => List.mem_append_left _ hx⟩
    · obtain ⟨hne, hfree, hin⟩ := ih hf
      exact ⟨hne, hfree, fun x hx => List.mem_append_right _ (hin x hx)⟩

/-- What the runs of a list are spelled with, they are also the runs of. -/
theorem MaximalRuns.flatMap {β : Type*} {q : β → Bool} {g : β → List α} {xs : List β} {fs : List (List β)}
    (h : MaximalRuns q xs fs) (hne : ∀ x ∈ xs, g x ≠ []) (hg : ∀ x ∈ xs, ∀ y ∈ g x, p y = q x) :
    MaximalRuns p (xs.flatMap g) (fs.map fun f => f.flatMap g) := by
  induction h with
  | nil => exact .nil
  | @skip x xs fs hx h ih =>
    have htail := ih (fun y hy => hne y (.tail _ hy)) (fun y hy => hg y (.tail _ hy))
    rw [List.flatMap_cons]
    exact htail.seps fun y hy => (hg x (.head _) y hy).trans hx
  | @run f xs fs hf hfree hend h ih =>
    have htail := ih (fun y hy => hne y (List.mem_append_right _ hy)) (fun y hy => hg y (List.mem_append_right _ hy))
    have hin : ∀ x ∈ f, x ∈ f ++ xs := fun x hx => List.mem_append_left _ hx
    rw [List.flatMap_append, List.map_cons]
    refine .run ?_ ?_ ?_ htail
    · obtain ⟨x, f, rfl⟩ := List.exists_cons_of_ne_nil hf
      simp [hne x (hin x (.head _))]
    · intro y hy
      obtain ⟨x, hx, hyx⟩ := List.mem_flatMap.mp hy
      rw [hg x (hin x hx) y hyx, hfree x hx]
    · cases xs with
      | nil => simp
      | cons x xs =>
        have hx : x ∈ f ++ x :: xs := by simp
        obtain ⟨b, bs, hb⟩ := List.exists_cons_of_ne_nil (hne x hx)
        have hsep := hg x hx b (by simp [hb])
        rw [hend x rfl] at hsep
        simpa [hb] using hsep

theorem fields_seps {sep : List α} (hsep : ∀ x ∈ sep, p x = true) (xs : List α) :
    fields p (sep ++ xs) = fields p xs := by
  exact ((maximalRuns_fields p xs).seps hsep).fields_eq

/-- Fields that are joined by separators are the fields of the result. -/
theorem fields_intercalate {sep : List α} (hne : sep ≠ []) (hsep : ∀ x ∈ sep, p x = true) {fs : List (List α)}
    (hfs : ∀ f ∈ fs, f ≠ [] ∧ ∀ x ∈ f, p x = false) : fields p (sep.intercalate fs) = fs := by
  induction fs with
  | nil => exact fields_nil
  | cons f fs ih =>
    obtain ⟨hf, hfree⟩ := hfs f (List.mem_cons_self ..)
    have hrest := ih fun g hg => hfs g (List.mem_cons_of_mem _ hg)
    cases fs with
    | nil =>
      rw [List.intercalate_singleton, ← List.append_nil f, fields_run hf hfree (by simp), fields_nil, List.append_nil]
    | cons g fs =>
      have hend : ∀ x ∈ (sep ++ sep.intercalate (g :: fs)).head?, p x = true := by
        obtain ⟨y, sep, rfl⟩ := List.exists_cons_of_ne_nil hne
        rintro x ⟨⟩
        exact hsep _ (List.mem_cons_self ..)
      rw [List.intercalate_cons_cons, List.append_assoc, fields_run hf hfree hend, fields_seps hsep, hrest]

/-! ## The ends of a list -/

def strip (p : α → Bool) (xs : List α) : List α := (xs.dropWhile p).rdropWhile p

theorem exists_strip (p : α → Bool) (xs : List α) :
    ∃ l r : List α, (∀ x ∈ l, p x = true) ∧ (∀ x ∈ r, p x = true) ∧ xs = l ++ strip p xs ++ r := by
  refine ⟨xs.takeWhile p, (xs.dropWhile p).rtakeWhile p, fun x hx => List.mem_takeWhile_imp hx,
    fun x hx => List.mem_rtakeWhile_imp hx, ?_⟩
  rw [strip, List.append_assoc, List.rdropWhile_append_rtakeWhile, List.takeWhile_append_dropWhile]

theorem strip_head (xs : List α) : ∀ x ∈ (strip p xs).head?, p x = false := by
  intro x hx
  obtain ⟨ys, hys⟩ := List.rdropWhile_prefix p (xs.dropWhile p)
  have hhead : (xs.dropWhile p).head? = some x := by
    rw [← hys, List.head?_append_of_ne_nil _ (by rintro hnil; simp [strip, hnil] at hx)]
    exact hx
  simpa [hhead] using List.head?_dropWhile_not p xs

theorem strip_last (xs : List α) : ∀ x ∈ (strip p xs).getLast?, p x = false := by
  intro x hx
  obtain ⟨hne, rfl⟩ := List.mem_getLast?_eq_getLast hx
  have hnot := List.rdropWhile_last_not p (xs.dropWhile p) hne
  exact Bool.eq_false_iff.mpr hnot

theorem strip_eq {l xs r : List α} (hl : ∀ x ∈ l, p x = true) (hr : ∀ x ∈ r, p x = true)
    (hhead : ∀ x ∈ xs.head?, p x = false) (hlast : ∀ x ∈ xs.getLast?, p x = false) :
    strip p (l ++ xs ++ r) = xs := by
  rw [strip, List.append_assoc, List.dropWhile_append_of_pos hl]
  cases xs with
  | nil => simp [List.dropWhile_eq_nil_iff.mpr hr]
  | cons x xs =>
    have hx : p x = false := hhead x rfl
    rw [List.cons_append, List.dropWhile_cons_of_neg (by simp [hx]), ← List.cons_append, List.rdropWhile,
      List.reverse_append, List.dropWhile_append_of_pos (by simpa using hr)]
    refine List.rdropWhile_eq_self_iff.mpr fun hne => ?_
    simpa using hlast _ (List.getLast_mem_getLast? hne)

/-! ## First occurrences -/

section Dedup

variable [BEq α] [LawfulBEq α]

theorem nodup_eraseDups (xs : List α) : xs.eraseDups.Nodup := by
  induction hn : xs.length using Nat.strongRecOn generalizing xs with
  | ind n ih =>
  subst hn
  cases xs with
  | nil => exact .nil
  | cons x xs =>
    have hlen := List.length_filter_le (fun y => !y == x) xs
    rw [List.eraseDups_cons, List.nodup_cons, List.mem_eraseDups]
    exact ⟨by simp, ih _ (by rw [List.length_cons]; omega) _ rfl⟩

theorem eraseDups_of_nodup {xs : List α} (h : xs.Nodup) : xs.eraseDups = xs := by
  induction xs with
  | nil => rfl
  | cons x xs ih =>
    rw [List.nodup_cons] at h
    have hrest : xs.filter (fun y => !y == x) = xs := by
      refine List.filter_eq_self.mpr fun y hy => ?_
      have hne : y ≠ x := fun heq => h.1 (heq ▸ hy)
      simpa using hne
    rw [List.eraseDups_cons, hrest, ih h.2]

variable [DecidableEq α]

/-- Adds `x` to the list in front, if it is new to the set behind it. -/
def insertNew (st : List α × (α → Bool)) (x : α) : List α × (α → Bool) :=
  if st.2 x then st else (st.1 ++ [x], Function.update st.2 x true)

theorem foldl_insertNew (xs : List α) {st : List α × (α → Bool)} (hseen : ∀ x, st.2 x = true ↔ x ∈ st.1) :
    (xs.foldl insertNew st).1 = st.1 ++ (xs.filter (· ∉ st.1)).eraseDups := by
  induction xs generalizing st with
  | nil => simp
  | cons x xs ih =>
    rw [List.foldl_cons]
    by_cases hx : st.2 x = true
    · have hmem := (hseen x).mp hx
      rw [insertNew, if_pos hx, ih hseen, List.filter_cons_of_neg (by simpa using hmem)]
    · have hmem : x ∉ st.1 := fun hin => hx ((hseen x).mpr hin)
      have hseen' : ∀ y, Function.update st.2 x true y = true ↔ y ∈ st.1 ++ [x] := by
        intro y
        by_cases hy : y = x
        · simp [hy]
        · simp [hy, hseen]
      have hfilter : xs.filter (· ∉ st.1 ++ [x]) = (xs.filter (· ∉ st.1)).filter fun y => !y == x := by
        rw [List.filter_filter]
        refine List.filter_congr fun y _ => ?_
        by_cases hy : y = x
        · simp [hy]
        · simp [hy]
      rw [insertNew, if_neg hx, ih hseen', List.filter_cons_of_pos (by simpa using hmem), List.eraseDups_cons]
      simp only [hfilter, List.append_assoc, List.singleton_append]

end Dedup

end Fields

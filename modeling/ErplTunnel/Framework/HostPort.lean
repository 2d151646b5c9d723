import Mathlib.Data.List.Basic
import Mathlib.Tactic.Common

/-!
# Addresses of a host and a port

An address is a host, a colon and a port, and a host that has a colon itself
stands between brackets (`join`). `split` takes an address apart at its last
colon, and accepts colons before that only between brackets, which stand nowhere
else.

What `join` makes comes apart into what it was made of exactly when there are no
brackets in the host (`split_join_iff`). Without the brackets, the host can have
no colon either (`split_plain_iff`).
-/

namespace HostPort

variable {α : Type*}

/-- The colon and the brackets. -/
structure Marks (α : Type*) where
  colon : α
  opening : α
  closing : α
  opening_ne_colon : opening ≠ colon
  closing_ne_colon : closing ≠ colon
  closing_ne_opening : closing ≠ opening

inductive Fault where
  | missingPort
  | tooManyColons
  | missingClosing
  | unexpectedOpening
  | unexpectedClosing
  deriving DecidableEq, Repr

variable [DecidableEq α] (m : Marks α)

/-- A host with a colon stands between brackets. -/
def join (host port : List α) : List α :=
  if m.colon ∈ host then m.opening :: host ++ m.closing :: m.colon :: port else host ++ m.colon :: port

/-- The place of the last `a`. -/
def lastIndex (a : α) (s : List α) : Option Nat :=
  if a ∈ s then some (s.length - 1 - s.reverse.idxOf a) else none

/-- The host and the port, if there is no bracket in `s` from `j` or from `k` on. -/
def finish (s host : List α) (i j k : Nat) : Except Fault (List α × List α) :=
  if m.opening ∈ s.drop j then .error .unexpectedOpening
  else if m.closing ∈ s.drop k then .error .unexpectedClosing
  else .ok (host, s.drop (i + 1))

/-- The host and the port of an address. -/
def split (s : List α) : Except Fault (List α × List α) :=
  match lastIndex m.colon s with
  | none => .error .missingPort
  | some i =>
    if s.head? = some m.opening then
      if m.closing ∉ s then .error .missingClosing
      else
        let fin := s.idxOf m.closing
        if fin + 1 = s.length then .error .missingPort
        -- the bracket closes just before the last colon
        else if fin + 1 = i then finish m s ((s.take fin).drop 1) i 1 (fin + 1)
        else if s[fin + 1]? = some m.colon then .error .tooManyColons
        else .error .missingPort
    else if m.colon ∈ s.take i then .error .tooManyColons
    else finish m s (s.take i) i 0 0

variable {m} {host port : List α}

theorem lastIndex_append {a : α} (h : a ∉ port) : lastIndex a (host ++ a :: port) = some host.length := by
  have hr : (host ++ a :: port).reverse = port.reverse ++ a :: host.reverse := by simp
  have hi : (host ++ a :: port).reverse.idxOf a = port.length := by
    rw [hr, List.idxOf_append_of_notMem (by simpa using h), List.idxOf_cons_self, List.length_reverse, Nat.add_zero]
  rw [lastIndex, if_pos (by simp), hi, List.length_append, List.length_cons]
  congr 1
  omega

theorem not_mem_take_idxOf (a : α) (s : List α) : a ∉ s.take (s.idxOf a) := by
  intro h
  have hi : s.idxOf a = (s.take (s.idxOf a)).idxOf a := by
    conv_lhs => rw [← List.take_append_drop (s.idxOf a) s]
    exact List.idxOf_append_of_mem h
  have hlt := List.idxOf_lt_length_of_mem h
  rw [← hi, List.length_take] at hlt
  omega

omit [DecidableEq α] in
/-- A host without brackets makes an address that does not start with one. -/
theorem head_ne_opening (h : m.opening ∉ host) : (host ++ m.colon :: port).head? ≠ some m.opening := by
  intro hh
  cases host with
  | nil => exact m.opening_ne_colon (Option.some.inj hh).symm
  | cons a host =>
    rw [← Option.some.inj hh] at h
    exact h List.mem_cons_self

/-- An address with the brackets where they belong, or with none. -/
theorem finish_eq_ok {s h : List α} {i j k : Nat} {r : List α × List α} :
    finish m s h i j k = .ok r ↔ m.opening ∉ s.drop j ∧ m.closing ∉ s.drop k ∧ (h, s.drop (i + 1)) = r := by
  rw [finish]
  split
  · simp [*]
  split
  · simp [*]
  · simp [*]

/-- There are no brackets in a host that was taken out of an address. -/
theorem brackets_of_split {s : List α} (h : split m s = .ok (host, port)) : m.opening ∉ host ∧ m.closing ∉ host := by
  unfold split at h
  split at h
  case h_1 => cases h
  case h_2 i _ =>
  split at h
  case isTrue =>
    split at h
    case isTrue => cases h
    dsimp only at h
    split at h
    case isTrue => cases h
    split at h
    case isTrue =>
      obtain ⟨ho, -, he⟩ := finish_eq_ok.mp h
      obtain rfl := (Prod.mk.inj he).1
      constructor
      · rw [List.drop_take]
        exact fun hm => ho (List.mem_of_mem_take hm)
      · exact fun hm => not_mem_take_idxOf _ _ (List.mem_of_mem_drop hm)
    case isFalse => split at h <;> cases h
  case isFalse =>
    split at h
    case isTrue => cases h
    obtain ⟨ho, hcl, he⟩ := finish_eq_ok.mp h
    obtain rfl := (Prod.mk.inj he).1
    exact ⟨fun hm => ho (List.mem_of_mem_take hm), fun hm => hcl (List.mem_of_mem_take hm)⟩

section

variable (hc : m.colon ∉ port) (ho : m.opening ∉ port) (hcl : m.closing ∉ port)
include hc ho hcl

/-- The host and the port as they are, with a colon between them. -/
theorem split_plain_iff :
    split m (host ++ m.colon :: port) = .ok (host, port) ↔
      m.colon ∉ host ∧ m.opening ∉ host ∧ m.closing ∉ host := by
  have htake : (host ++ m.colon :: port).take host.length = host := List.take_left
  have hdrop : (host ++ m.colon :: port).drop (host.length + 1) = port := by
    rw [← List.drop_drop, List.drop_left, List.drop_succ_cons, List.drop_zero]
  constructor
  · intro h
    obtain ⟨hno, hncl⟩ := brackets_of_split h
    refine ⟨fun hm => ?_, hno, hncl⟩
    rw [split, lastIndex_append hc] at h
    dsimp only at h
    rw [if_neg (head_ne_opening hno), htake, if_pos hm] at h
    cases h
  · rintro ⟨hm, hno, hncl⟩
    rw [split, lastIndex_append hc]
    dsimp only
    rw [if_neg (head_ne_opening hno), htake, if_neg hm, finish_eq_ok, hdrop]
    refine ⟨?_, ?_, rfl⟩
    · simp [hno, m.opening_ne_colon, ho]
    · simp [hncl, m.closing_ne_colon, hcl]

/-- A host between brackets. -/
theorem split_bracketed (hno : m.opening ∉ host) (hncl : m.closing ∉ host) :
    split m (m.opening :: host ++ m.closing :: m.colon :: port) = .ok (host, port) := by
  have hi : lastIndex m.colon (m.opening :: host ++ m.closing :: m.colon :: port) = some (host.length + 2) := by
    rw [List.append_cons]
    rw [lastIndex_append hc]
    simp
  have hfin : (m.opening :: host ++ m.closing :: m.colon :: port).idxOf m.closing = host.length + 1 := by
    rw [List.idxOf_append_of_notMem (by simp [m.closing_ne_opening, hncl]), List.idxOf_cons_self]
    simp
  rw [split, hi]
  dsimp only
  rw [if_pos (by simp), if_neg (by simp), hfin, if_neg (by simp), if_pos rfl, finish_eq_ok]
  refine ⟨?_, ?_, ?_⟩
  · simp [hno, m.closing_ne_opening.symm, m.opening_ne_colon, ho]
  · simp [m.closing_ne_colon, hcl]
  · simp

theorem split_join_iff :
    split m (join m host port) = .ok (host, port) ↔ m.opening ∉ host ∧ m.closing ∉ host := by
  refine ⟨brackets_of_split, fun ⟨hno, hncl⟩ => ?_⟩
  rw [join]
  split
  case isTrue => exact split_bracketed hc ho hcl hno hncl
  case isFalse hm => exact (split_plain_iff hc ho hcl).mpr ⟨hm, hno, hncl⟩

end

end HostPort

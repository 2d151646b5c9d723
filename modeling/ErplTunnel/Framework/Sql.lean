import Mathlib.Tactic.Common

/-!
# The lexical structure of SQL, and statements of constants

SQL text as far as a `SELECT` of constants needs it. `literal` reads a string
literal: a doubled quote stands for one, a backslash for itself, and two
literals with a line break and blanks between them are one. `tokens` cuts a
text into words, numbers, literals and symbols, and `constSelect` is the
columns of a text that is one `SELECT` of named constants and nothing else.
Outside literals only what such statements are made of is read: escape
strings, dollar quotes, quoted names and every other character are no tokens
here.

What a statement built around foreign text means is decided by its literals.
`literal_quote_free` reads a literal back, and `literal_span` bounds the value
of any literal by the text it takes.
-/

namespace Sql

inductive Token where
  /-- A keyword or a name, in lower case. -/
  | word (name : String)
  | int (n : Nat)
  | str (value : List Char)
  | sym (c : Char)
  deriving DecidableEq, Repr

def quote : Char := '\''

def isNewline (c : Char) : Bool := c == '\n' || c == '\r'

def isBlank (c : Char) : Bool := c == ' ' || c == '\t' || c == '\x0c'

def isWordStart (c : Char) : Bool := c.isAlpha || c == '_'

def isWordChar (c : Char) : Bool := isWordStart c || c.isDigit || c == '$'

/-! ## Literals -/

/-- Where a scan of a literal stands. -/
inductive Mode where
  | body
  /-- Past a quote that ends the literal, with `back` after it, unless another
  part follows: a line break has been read or not, a comment is open or not. -/
  | gap (back : List Char) (newline comment : Bool)

def scan : Mode → List Char → Option (List Char × List Char)
  | .body, [] => none
  | .body, c :: cs =>
    if c ≠ quote then (scan .body cs).map fun r => (c :: r.1, r.2)
    else
      match cs with
      | [] => some ([], [])
      | d :: ds =>
        if d = quote then (scan .body ds).map fun r => (quote :: r.1, r.2)
        else scan (.gap (d :: ds) false false) (d :: ds)
  | .gap back _ _, [] => some ([], back)
  | .gap back newline comment, c :: cs =>
    if isNewline c then scan (.gap back true false) cs
    else if comment || isBlank c then scan (.gap back newline comment) cs
    else if c = quote ∧ newline then scan .body cs
    else
      match cs with
      | [] => some ([], back)
      | d :: ds =>
        if c = '-' ∧ d = '-' then scan (.gap back newline true) ds
        else some ([], back)

/-- The value of the literal whose opening quote is before `s`, and what is
after it. -/
def literal (s : List Char) : Option (List Char × List Char) := scan .body s

/-- What a scan leaves comes after a quote of the text, and each quote of the
value took two. -/
def Spans (s v rest : List Char) : Prop :=
  ∃ c, s = c ++ quote :: rest ∧ v.length + v.count quote ≤ c.length

theorem Spans.skip {s v rest : List Char} (h : Spans s v rest) (c : Char) : Spans (c :: s) v rest := by
  obtain ⟨p, rfl, hp⟩ := h
  refine ⟨c :: p, rfl, ?_⟩
  rw [List.length_cons]
  omega

theorem Spans.keep {s v rest : List Char} (h : Spans s v rest) {c : Char} (hc : c ≠ quote) :
    Spans (c :: s) (c :: v) rest := by
  obtain ⟨p, rfl, hp⟩ := h
  refine ⟨c :: p, rfl, ?_⟩
  rw [List.count_cons_of_ne hc, List.length_cons, List.length_cons]
  omega

theorem Spans.double {s v rest : List Char} (h : Spans s v rest) :
    Spans (quote :: quote :: s) (quote :: v) rest := by
  obtain ⟨p, rfl, hp⟩ := h
  refine ⟨quote :: quote :: p, rfl, ?_⟩
  rw [List.count_cons_self, List.length_cons, List.length_cons, List.length_cons]
  omega

/-- What a scan from each mode leaves. -/
def Scanned : Mode → List Char → List Char → List Char → Prop
  | .body, s, v, rest => Spans s v rest
  | .gap back _ _, s, v, rest => (v = [] ∧ rest = back) ∨ Spans s v rest

theorem scan_scanned (m : Mode) (s v rest : List Char) : scan m s = some (v, rest) → Scanned m s v rest := by
  fun_induction scan m s generalizing v rest with
  | case1 => intro h; cases h
  | case2 c cs hc ih =>
    intro h
    obtain ⟨⟨w, r⟩, hw, hr⟩ := Option.map_eq_some_iff.mp h
    obtain ⟨rfl, rfl⟩ := Prod.mk.inj hr
    exact Spans.keep (ih w r hw) hc
  | case3 c hc =>
    intro h
    obtain rfl : c = quote := not_not.mp hc
    obtain ⟨rfl, rfl⟩ := Prod.mk.inj (Option.some.inj h)
    exact ⟨[], rfl, Nat.le_refl 0⟩
  | case4 c hc ds ih =>
    intro h
    obtain rfl : c = quote := not_not.mp hc
    obtain ⟨⟨w, r⟩, hw, hr⟩ := Option.map_eq_some_iff.mp h
    obtain ⟨rfl, rfl⟩ := Prod.mk.inj hr
    exact Spans.double (ih w r hw)
  | case5 c hc d ds hd ih =>
    intro h
    obtain rfl : c = quote := not_not.mp hc
    obtain ⟨rfl, rfl⟩ | hs := ih v rest h
    · exact ⟨[], rfl, Nat.le_refl 0⟩
    · exact hs.skip quote
  | case6 back nl cm =>
    intro h
    obtain ⟨rfl, rfl⟩ := Prod.mk.inj (Option.some.inj h)
    exact .inl ⟨rfl, rfl⟩
  | case7 back nl cm c cs hc ih => exact fun h => (ih v rest h).imp_right fun hs => hs.skip c
  | case8 back nl cm c cs _ _ ih => exact fun h => (ih v rest h).imp_right fun hs => hs.skip c
  | case9 back nl cm c cs _ _ _ ih => exact fun h => .inr ((ih v rest h).skip c)
  | case10 back nl cm c =>
    intro h
    obtain ⟨rfl, rfl⟩ := Prod.mk.inj (Option.some.inj h)
    exact .inl ⟨rfl, rfl⟩
  | case11 back nl cm c _ _ _ d ds _ ih =>
    exact fun h => (ih v rest h).imp_right fun hs => (hs.skip d).skip c
  | case12 back nl cm c =>
    intro h
    obtain ⟨rfl, rfl⟩ := Prod.mk.inj (Option.some.inj h)
    exact .inl ⟨rfl, rfl⟩

theorem literal_span {s v rest : List Char} (h : literal s = some (v, rest)) : Spans s v rest :=
  scan_scanned .body s v rest h

/-- No literal goes past the last quote of the text. -/
theorem Spans.length_le {s v rest tail : List Char} (h : Spans (s ++ quote :: tail) v rest) (ht : quote ∉ tail) :
    v.length + v.count quote ≤ s.length := by
  obtain ⟨c, he, hc⟩ := h
  refine Nat.le_trans hc ?_
  obtain ⟨t, rfl, ht'⟩ | ⟨t, rfl, -⟩ := List.append_eq_append_iff.mp he
  · cases t with
    | nil => simp
    | cons d t =>
      -- `c` goes on past the quote, which leaves one in the tail
      rw [List.cons_append, List.cons.injEq] at ht'
      rw [ht'.2] at ht
      exact absurd (List.mem_append_right t List.mem_cons_self) ht
  · simp

/-- A literal with no quote in it is read back, where `rest` cannot be part of it. -/
theorem literal_quote_free {v rest : List Char} (hv : quote ∉ v)
    (hr : literal (quote :: rest) = some ([], rest)) : literal (v ++ quote :: rest) = some (v, rest) := by
  induction v with
  | nil => exact hr
  | cons c v ih =>
    obtain ⟨hc, hv⟩ := not_or.mp (List.mem_cons.not.mp hv)
    rw [literal, List.cons_append, scan.eq_def]
    have hl := ih hv
    rw [literal] at hl
    simp [Ne.symm hc, hl]

/-! ## Tokens -/

/-- What may follow a word or a number without being part of a token this
fragment does not have. -/
def endsToken : List Char → Bool
  | [] => true
  | c :: _ => !isWordChar c && c != quote && c != '"' && c != '.' && c.toNat < 128

/-- The lexeme at the head of `c :: cs`: its token, if it is not blank or a
comment, and what follows it. -/
def next (c : Char) (cs : List Char) : Option (Option Token × List Char) :=
  if isBlank c || isNewline c then some (none, cs)
  else if c = quote then (literal cs).map fun r => (some (.str r.1), r.2)
  else if c.isDigit then
    let rest := cs.dropWhile Char.isDigit
    if endsToken rest then some (some (.int (Nat.ofDigitChars 10 (c :: cs.takeWhile Char.isDigit) 0)), rest)
    else none
  else if isWordStart c then
    let rest := cs.dropWhile isWordChar
    if endsToken rest then some (some (.word (.ofList ((c :: cs.takeWhile isWordChar).map Char.toLower))), rest)
    else none
  else if c = '-' ∧ cs.head? = some '-' then some (none, cs.dropWhile fun d => !isNewline d)
  else if c ∈ [',', ';', '-'] then some (some (.sym c), cs)
  else none

/-- The tokens of a text, read in at most `n` lexemes. -/
def lex : Nat → List Char → Option (List Token)
  | _, [] => some []
  | 0, _ :: _ => none
  | n + 1, c :: cs =>
    match next c cs with
    | none => none
    | some (t, rest) => (lex n rest).map (t.toList ++ ·)

def tokens (s : List Char) : Option (List Token) := lex s.length s

theorem next_length {c : Char} {cs rest : List Char} {t : Option Token} (h : next c cs = some (t, rest)) :
    rest.length ≤ cs.length := by
  rw [next] at h
  split at h
  · cases h
    exact Nat.le_refl _
  split at h
  · obtain ⟨⟨v, r⟩, hl, hr⟩ := Option.map_eq_some_iff.mp h
    cases hr
    obtain ⟨p, rfl, -⟩ := literal_span hl
    simp only [List.length_append, List.length_cons]
    omega
  split at h
  · dsimp only at h
    split at h <;> cases h
    exact (List.dropWhile_sublist _).length_le
  split at h
  · dsimp only at h
    split at h <;> cases h
    exact (List.dropWhile_sublist _).length_le
  split at h
  · cases h
    exact (List.dropWhile_sublist _).length_le
  split at h <;> cases h
  exact Nat.le_refl _

theorem lex_of_le (n : Nat) (s : List Char) (hn : s.length ≤ n) : lex n s = tokens s := by
  induction n using Nat.strongRecOn generalizing s with
  | _ n ih =>
    cases s with
    | nil => cases n <;> rfl
    | cons c cs =>
      obtain ⟨m, rfl⟩ : ∃ m, n = m + 1 := ⟨n - 1, by simp at hn; omega⟩
      rw [List.length_cons] at hn
      rw [tokens, List.length_cons, lex, lex]
      cases hx : next c cs with
      | none => rfl
      | some r =>
        obtain ⟨t, rest⟩ := r
        have hl := next_length hx
        dsimp only
        rw [ih m (by omega) rest (by omega), ih cs.length (by omega) rest hl]

/-- One lexeme of a text. -/
theorem tokens_cons {c : Char} {cs rest : List Char} {t : Option Token} (h : next c cs = some (t, rest)) :
    tokens (c :: cs) = (tokens rest).map (t.toList ++ ·) := by
  rw [tokens, List.length_cons, lex, h]
  dsimp only
  rw [lex_of_le _ _ (next_length h)]

/-- A literal, and what is after it. -/
theorem tokens_quote (s : List Char) :
    tokens (quote :: s) = (literal s).bind fun r => (tokens r.2).map (.str r.1 :: ·) := by
  have hn : next quote s = (literal s).map fun r => (some (.str r.1), r.2) := by
    simp [next, isBlank, isNewline, quote]
  cases hl : literal s with
  | none =>
    rw [hl, Option.map_none] at hn
    rw [tokens, List.length_cons, lex, hn]
    rfl
  | some r =>
    rw [hl, Option.map_some] at hn
    exact tokens_cons hn

/-- Whatever follows `pre`, its tokens are `ts`. -/
def Lexed (pre : List Char) (ts : List Token) : Prop :=
  ∀ rest, tokens (pre ++ rest) = (tokens rest).map (ts ++ ·)

theorem Lexed.nil : Lexed [] [] := by
  intro rest
  simp

theorem Lexed.cons {c : Char} {cs p : List Char} {t : Option Token} {ts : List Token}
    (h : ∀ rest, next c (cs ++ rest) = some (t, p ++ rest)) (hp : Lexed p ts) :
    Lexed (c :: cs) (t.toList ++ ts) := by
  intro rest
  rw [List.cons_append, tokens_cons (h rest), hp rest, Option.map_map]
  congr 1
  funext us
  exact (List.append_assoc ..).symm

/-- `s` has no literal and no comment, and its last lexeme cannot go on. -/
def closed (s : List Char) : Bool :=
  s.all (fun c => c != quote && c != '-') && s.getLast?.all isBlank

theorem closed_of_append {p q : List Char} (h : closed (p ++ q) = true) : closed q = true := by
  simp only [closed, List.all_append, Bool.and_eq_true, List.getLast?_append] at h ⊢
  refine ⟨h.1.2, ?_⟩
  cases hq : q.getLast? with
  | none => rfl
  | some c => simpa [hq] using h.2

/-- A blank ends every lexeme before it. -/
theorem dropWhile_append_of_mem {f : Char → Bool} {d : Char} {cs : List Char} (hd : d ∈ cs) (hf : f d = false)
    (rest : List Char) :
    (cs ++ rest).takeWhile f = cs.takeWhile f ∧ (cs ++ rest).dropWhile f = cs.dropWhile f ++ rest ∧
      endsToken (cs.dropWhile f ++ rest) = endsToken (cs.dropWhile f) := by
  induction cs with
  | nil => cases hd
  | cons c cs ih =>
    by_cases hc : f c = true
    · have hm : d ∈ cs := by
        refine (List.mem_cons.mp hd).resolve_left fun he => ?_
        rw [he, hc] at hf
        cases hf
      simpa [hc] using ih hm
    · simp [hc, endsToken]

theorem closed_blank {c : Char} {cs : List Char} (h : closed (c :: cs) = true) (hc : isBlank c = false) :
    ∃ d ∈ cs, isBlank d = true := by
  simp only [closed, Bool.and_eq_true] at h
  cases hl : cs.getLast? with
  | none => simp [List.getLast?_cons, hl, hc] at h
  | some d => exact ⟨d, List.mem_of_getLast? hl, by simpa [List.getLast?_cons, hl] using h.2⟩

/-- A lexeme of a closed text is the same whatever follows the text. -/
theorem next_append {c : Char} {cs p : List Char} {t : Option Token} (h : closed (c :: cs) = true)
    (hn : next c cs = some (t, p)) :
    closed p = true ∧ ∀ rest, next c (cs ++ rest) = some (t, p ++ rest) := by
  have hcs : closed cs = true := closed_of_append (p := [c]) h
  have hd : ∀ f : Char → Bool, closed (cs.dropWhile f) = true := fun f =>
    closed_of_append (p := cs.takeWhile f) (by rwa [List.takeWhile_append_dropWhile])
  obtain ⟨hq, hm⟩ : c ≠ quote ∧ c ≠ '-' := by
    simp only [closed, List.all_cons, Bool.and_eq_true, bne_iff_ne] at h
    exact h.1.1
  rw [next] at hn
  by_cases hb : (isBlank c || isNewline c) = true
  · rw [if_pos hb] at hn
    cases hn
    exact ⟨hcs, fun rest => by rw [next, if_pos hb]⟩
  have hc : isBlank c = false := by
    simp only [Bool.or_eq_true, not_or, Bool.not_eq_true] at hb
    exact hb.1
  obtain ⟨d, hds, hdb⟩ := closed_blank h hc
  rw [if_neg hb, if_neg hq] at hn
  have hblank : d = ' ' ∨ d = '\t' ∨ d = '\x0c' := by simpa [isBlank, or_assoc] using hdb
  split at hn
  case isTrue hdigit =>
    have hf : d.isDigit = false := by rcases hblank with rfl | rfl | rfl <;> rfl
    dsimp only at hn
    split at hn <;> cases hn
    case isTrue he =>
    refine ⟨hd _, fun rest => ?_⟩
    obtain ⟨ht, hr, hends⟩ := dropWhile_append_of_mem hds hf rest
    simp only [next, if_neg hb, if_neg hq, if_pos hdigit, ht, hr, hends, if_pos he]
  case isFalse hdigit =>
  split at hn
  case isTrue hword =>
    have hf : isWordChar d = false := by rcases hblank with rfl | rfl | rfl <;> rfl
    dsimp only at hn
    split at hn <;> cases hn
    case isTrue he =>
    refine ⟨hd _, fun rest => ?_⟩
    obtain ⟨ht, hr, hends⟩ := dropWhile_append_of_mem hds hf rest
    simp only [next, if_neg hb, if_neg hq, if_neg hdigit, if_pos hword, ht, hr, hends, if_pos he]
  case isFalse hword =>
  rw [if_neg fun hc => hm hc.1] at hn
  split at hn <;> cases hn
  case isTrue hs =>
  refine ⟨hcs, fun rest => ?_⟩
  rw [next, if_neg hb, if_neg hq, if_neg hdigit, if_neg hword, if_neg fun hc => hm hc.1, if_pos hs]

theorem Lexed.of_tokens {s : List Char} {ts : List Token} (hc : closed s = true) (h : tokens s = some ts) :
    Lexed s ts := by
  induction hn : s.length using Nat.strongRecOn generalizing s ts with
  | _ n ih =>
    subst hn
    cases s with
    | nil =>
      cases h
      exact .nil
    | cons c cs =>
      cases hx : next c cs with
      | none =>
        rw [tokens, List.length_cons, lex, hx] at h
        cases h
      | some r =>
        obtain ⟨t, p⟩ := r
        rw [tokens_cons hx] at h
        obtain ⟨us, hu, rfl⟩ := Option.map_eq_some_iff.mp h
        obtain ⟨hp, ha⟩ := next_append hc hx
        have hl : p.length < (c :: cs).length := Nat.lt_succ_of_le (next_length hx)
        exact .cons ha (ih p.length hl hp hu rfl)

/-- The tokens of a decimal number. -/
def intTokens (z : Int) : List Token := if z < 0 then [.sym '-', .int z.natAbs] else [.int z.natAbs]

theorem takeWhile_digits {ds rest : List Char} (hd : ∀ c ∈ ds, c.isDigit = true)
    (hr : endsToken rest = true) :
    (ds ++ rest).takeWhile Char.isDigit = ds ∧ (ds ++ rest).dropWhile Char.isDigit = rest := by
  rw [List.takeWhile_append_of_pos hd, List.dropWhile_append_of_pos hd]
  cases rest with
  | nil => simp
  | cons c rest =>
    have hc : c.isDigit = false := by
      simp only [endsToken, isWordChar, Bool.and_eq_true, Bool.not_eq_true', Bool.or_eq_false_iff] at hr
      exact hr.1.1.1.1.1.2
    simp [hc]

theorem next_digit {c : Char} {ds rest : List Char} (hd : ∀ d ∈ c :: ds, d.isDigit = true)
    (hr : endsToken rest = true) :
    next c (ds ++ rest) = some (some (.int (Nat.ofDigitChars 10 (c :: ds) 0)), rest) := by
  obtain ⟨ht, hw⟩ := takeWhile_digits (fun d h => hd d (List.mem_cons_of_mem _ h)) hr
  have hc := hd c List.mem_cons_self
  have hne : ∀ d : Char, d.isDigit = false → c ≠ d := fun d hf he => by rw [he, hf] at hc; cases hc
  have hb : (isBlank c || isNewline c) = false := by
    simp [isBlank, isNewline, hne ' ' rfl, hne '\t' rfl, hne '\x0c' rfl, hne '\n' rfl, hne '\r' rfl]
  simp only [next, hb, Bool.false_eq_true, if_false, hne quote rfl, hc, if_true, ht, hw, hr]

theorem toList_toString_int (z : Int) :
    (toString z).toList = (if z < 0 then ['-'] else []) ++ Nat.toDigits 10 z.natAbs := by
  rw [Int.toString_eq_repr, Int.repr_eq_if]
  by_cases hz : z < 0
  · rw [if_neg (by omega), if_pos hz, String.toList_append, Nat.toList_repr,
      show (-z).toNat = z.natAbs by omega]
    rfl
  · rw [if_pos (by omega), if_neg hz, Nat.toList_repr, show z.toNat = z.natAbs by omega]
    rfl

/-- A number is read back. -/
theorem tokens_int (z : Int) {rest : List Char} (hr : endsToken rest = true) :
    tokens ((toString z).toList ++ rest) = (tokens rest).map (intTokens z ++ ·) := by
  have hd : ∀ c ∈ Nat.toDigits 10 z.natAbs, c.isDigit = true :=
    fun c hc => Nat.isDigit_of_mem_toDigits (by decide) (by decide) hc
  have hv : Nat.ofDigitChars 10 (Nat.toDigits 10 z.natAbs) 0 = z.natAbs := Nat.ofDigitChars_ten_toDigits
  have hz := toList_toString_int z
  obtain ⟨c, ds, hds⟩ := List.exists_cons_of_ne_nil (Nat.toDigits_ne_nil (n := z.natAbs) (b := 10))
  rw [hds] at hd hv hz
  have hn := tokens_cons (next_digit hd hr)
  rw [hv] at hn
  rw [hz, intTokens]
  split
  · have hm : next '-' (c :: ds ++ rest) = some (some (.sym '-'), c :: ds ++ rest) := by
      have hc : c ≠ '-' := fun h => by have := hd c List.mem_cons_self; rw [h] at this; cases this
      simp [next, isBlank, isNewline, quote, isWordStart, hc]
    rw [List.append_assoc, List.singleton_append, tokens_cons hm, List.cons_append, hn, Option.map_map]
    rfl
  · exact hn

theorem quote_not_mem_int (z : Int) : quote ∉ (toString z).toList := by
  rw [toList_toString_int, List.mem_append, not_or]
  constructor
  · split <;> decide
  · intro h
    exact absurd (Nat.isDigit_of_mem_toDigits (by decide) (by decide) h) (by decide)

/-! ## Statements -/

inductive Const where
  | int (z : Int)
  | str (value : List Char)
  deriving DecidableEq, Repr

/-- A constant of a statement and the name it is given. -/
structure Column where
  value : Const
  name : String
  deriving DecidableEq, Repr

def column : List Token → Option Column
  | [.int n, .word kw, .word name] => if kw = "as" then some ⟨.int n, name⟩ else none
  | [.sym '-', .int n, .word kw, .word name] => if kw = "as" then some ⟨.int (-n), name⟩ else none
  | [.str v, .word kw, .word name] => if kw = "as" then some ⟨.str v, name⟩ else none
  | _ => none

def columns (ts : List Token) : Option (List Column) := (ts.splitOn (.sym ',')).mapM column

def select : List Token → Option (List Column)
  | .word kw :: ts => if kw = "select" then columns ts else none
  | _ => none

/-- The columns of a text that is one `SELECT` of named constants. -/
def constSelect (text : String) : Option (List Column) := (tokens text.toList).bind select

theorem column_int (z : Int) (name : String) :
    column (intTokens z ++ [.word "as", .word name]) = some ⟨.int z, name⟩ := by
  rw [intTokens]
  split
  · have hz : -(z.natAbs : Int) = z := by omega
    simp only [column, List.cons_append, List.nil_append, if_true, hz]
  · have hz : (z.natAbs : Int) = z := by omega
    simp only [column, List.cons_append, List.nil_append, if_true, hz]

theorem column_str {v : List Char} {ts : List Token} {c : Column} (h : column (.str v :: ts) = some c) :
    c.value = .str v := by
  revert h
  rw [column.eq_def]
  split
  all_goals simp_all
  rintro - rfl
  rfl

theorem columns_int (z : Int) (name : String) (ts : List Token) :
    columns (intTokens z ++ .word "as" :: .word name :: .sym ',' :: ts) =
      (columns ts).map (⟨.int z, name⟩ :: ·) := by
  have hm : (.sym ',' : Token) ∉ intTokens z ++ [.word "as", .word name] := by
    rw [intTokens]
    split <;> simp
  have hs := List.splitOn_append_cons_self_of_not_mem hm ts
  rw [List.append_assoc] at hs
  rw [columns]
  simp only [List.cons_append, List.nil_append] at hs
  rw [hs, List.mapM_cons, column_int, Option.map_eq_bind]
  rfl

theorem columns_last {ts : List Token} (h : .sym ',' ∉ ts) : columns ts = (column ts).map fun c => [c] := by
  rw [columns, List.splitOn_eq_singleton h]
  cases hc : column ts <;> simp [hc]

/-- One column is the whole of the tokens. -/
theorem column_of_columns {ts : List Token} {c : Column} (h : columns ts = some [c]) : column ts = some c := by
  have hi := @List.intercalate_splitOn _ ts _ _ (.sym ',')
  rw [columns] at h
  match hl : ts.splitOn (.sym ',') with
  | [] => exact absurd hl (List.splitOn_ne_nil _ _)
  | [y] =>
    rw [hl, List.intercalate_singleton] at hi
    rw [hl, hi] at h
    cases hc : column ts with
    | none => simp [hc] at h
    | some d => simpa [hc] using h
  | y :: z :: l =>
    rw [hl] at h
    simp [Option.bind_eq_some_iff] at h

end Sql

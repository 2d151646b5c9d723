import ErplTunnel.Framework.Fields
import Mathlib.Data.List.DropRight

/-!
# Text that may be malformed

A text is a list of bytes, read as UTF-8 one rune at a time: a character where
the encoding of one starts, else a single byte that counts as U+FFFD (`runes`).
Every text is the bytes of its runes (`encode_runes`), and an ASCII byte stands
for itself wherever it is (`eq_ofUInt8_of_mem`). So a text has the same fields
between ASCII characters whether it is read as runes or as bytes
(`maximalRuns_fields`), and what `trim` leaves is told by the bytes alone
(`trimmed_iff`).
-/

namespace Utf8

open String (utf8EncodeChar)

inductive Rune
  | char (c : Char)
  | invalid (b : UInt8)
deriving DecidableEq, Repr

def Rune.bytes : Rune → List UInt8
  | .char c => utf8EncodeChar c
  | .invalid b => [b]

def Rune.value : Rune → Char
  | .char c => c
  | .invalid _ => '\ufffd'

/-- The character whose encoding starts the text. -/
def decode (s : List UInt8) : Option Char := s.toByteArray.utf8DecodeChar? 0

def runesUpTo : Nat → List UInt8 → List Rune
  | 0, _ => []
  | _ + 1, [] => []
  | n + 1, b :: s =>
    match decode (b :: s) with
    | some c => .char c :: runesUpTo n ((b :: s).drop c.utf8Size)
    | none => .invalid b :: runesUpTo n s

/-- The runes of a text. Every rune has a byte, so the length of the text is enough fuel. -/
def runes (s : List UInt8) : List Rune := runesUpTo s.length s

def encode (rs : List Rune) : List UInt8 := rs.flatMap Rune.bytes

/-! ## Decoding -/

theorem Rune.bytes_ne_nil (r : Rune) : r.bytes ≠ [] := by
  cases r with
  | char c => exact String.utf8EncodeChar_ne_nil
  | invalid b => simp [Rune.bytes]

theorem decode_append (c : Char) (s : List UInt8) : decode (utf8EncodeChar c ++ s) = some c := by
  rw [decode, List.toByteArray_append]
  exact ByteArray.utf8DecodeChar?_utf8EncodeChar_append

theorem decode_eq_some {s : List UInt8} {c : Char} : decode s = some c ↔ utf8EncodeChar c <+: s := by
  constructor
  · intro h
    obtain ⟨rest, hrest⟩ := ByteArray.exists_of_utf8DecodeChar?_eq_some h
    have hlist := congrArg (fun b => b.data.toList) hrest
    simp only [ByteArray.data_append, List.data_toByteArray, Array.toList_append] at hlist
    exact ⟨rest.data.toList, hlist.symm⟩
  · rintro ⟨rest, rfl⟩
    exact decode_append c rest

theorem decode_eq_none {s : List UInt8} : decode s = none ↔ ∀ c, ¬ utf8EncodeChar c <+: s := by
  rw [Option.eq_none_iff_forall_ne_some]
  exact forall_congr' fun c => not_congr decode_eq_some

theorem utf8EncodeChar_inj {c d : Char} (h : utf8EncodeChar c = utf8EncodeChar d) : c = d := by
  have hc := decode_append c []
  rw [h, decode_append] at hc
  exact (Option.some.inj hc).symm

/-! ## Runes -/

theorem runesUpTo_of_le {n : Nat} {s : List UInt8} (h : s.length ≤ n) : runesUpTo n s = runes s := by
  induction hm : s.length using Nat.strongRecOn generalizing s n with
  | ind m ih =>
  subst hm
  cases n with
  | zero =>
    rw [List.eq_nil_of_length_eq_zero (by omega : s.length = 0)]
    rfl
  | succ n =>
    cases s with
    | nil => rfl
    | cons b s =>
      simp only [List.length_cons] at h
      simp only [runes, List.length_cons, runesUpTo]
      cases decode (b :: s) with
      | none =>
        show Rune.invalid b :: runesUpTo n s = _
        rw [ih _ (by simp) (by omega) rfl]
        rfl
      | some c =>
        have hlt : ((b :: s).drop c.utf8Size).length ≤ s.length := by
          have hpos := c.utf8Size_pos
          simp only [List.length_drop, List.length_cons]
          omega
        show Rune.char c :: runesUpTo n _ = Rune.char c :: runesUpTo s.length _
        have hshort : ((b :: s).drop c.utf8Size).length < (b :: s).length := by
          rw [List.length_cons]
          omega
        rw [ih _ hshort (by omega) rfl, ih _ hshort hlt rfl]

@[simp] theorem runes_nil : runes [] = [] := rfl

theorem runes_char (c : Char) (s : List UInt8) : runes (utf8EncodeChar c ++ s) = .char c :: runes s := by
  obtain ⟨b, bs, hb⟩ := List.exists_cons_of_ne_nil (String.utf8EncodeChar_ne_nil (c := c))
  have hdecode := decode_append c s
  have hdrop : (utf8EncodeChar c ++ s).drop (utf8EncodeChar c).length = s := List.drop_left
  rw [String.length_utf8EncodeChar] at hdrop
  rw [hb, List.cons_append] at hdecode hdrop ⊢
  simp only [runes, List.length_cons, runesUpTo, hdecode, hdrop]
  rw [runesUpTo_of_le (by simp)]
  rfl

theorem runes_invalid {b : UInt8} {s : List UInt8} (h : decode (b :: s) = none) :
    runes (b :: s) = .invalid b :: runes s := by
  simp only [runes, List.length_cons, runesUpTo, h]

/-- A text is empty, or starts with a character, or with a byte where no character does. -/
@[elab_as_elim]
theorem text_induction {motive : List UInt8 → Prop} (nil : motive [])
    (char : ∀ c s, motive s → motive (utf8EncodeChar c ++ s))
    (invalid : ∀ b s, decode (b :: s) = none → motive s → motive (b :: s)) (s : List UInt8) : motive s := by
  induction hn : s.length using Nat.strongRecOn generalizing s with
  | ind n ih =>
  subst hn
  cases s with
  | nil => exact nil
  | cons b s =>
    cases hdecode : decode (b :: s) with
    | none => exact invalid b s hdecode (ih _ (by simp) s rfl)
    | some c =>
      obtain ⟨rest, hrest⟩ := decode_eq_some.mp hdecode
      have hpos := List.length_pos_iff.mpr (String.utf8EncodeChar_ne_nil (c := c))
      have hlen := congrArg List.length hrest
      rw [List.length_append] at hlen
      rw [← hrest]
      exact char c rest (ih _ (by omega) rest rfl)

theorem encode_runes (s : List UInt8) : encode (runes s) = s := by
  induction s using text_induction with
  | nil => rfl
  | char c s ih =>
    rw [runes_char]
    exact congrArg (utf8EncodeChar c ++ ·) ih
  | invalid b s h ih =>
    rw [runes_invalid h]
    exact congrArg (b :: ·) ih

/-! ## ASCII -/

theorem utf8EncodeChar_of_ascii {c : Char} (h : c.toNat < 0x80) : utf8EncodeChar c = [c.toUInt8] := by
  have hsize : c.utf8Size = 1 := by
    rw [Char.utf8Size_eq_one_iff, UInt32.le_iff_toNat_le]
    show c.toNat ≤ 127
    omega
  rw [String.utf8EncodeChar_eq_singleton hsize]
  rfl

/-- Only an ASCII character has an ASCII byte in its encoding. -/
theorem ascii_of_mem {c : Char} {b : UInt8} (hb : b ∈ utf8EncodeChar c) (h : b.toNat < 0x80) : c.toNat < 0x80 := by
  by_contra hc
  have hv : ¬ c.val.toNat ≤ 0x7f := by
    show ¬ c.toNat ≤ 0x7f
    omega
  have hbyte : ∀ n, 0x80 ≤ n → n < 0x100 → b ≠ UInt8.ofNat n := by
    rintro n hlow hhigh rfl
    rw [UInt8.toNat_ofNat', Nat.mod_eq_of_lt hhigh] at h
    omega
  unfold utf8EncodeChar at hb
  simp only [hv, if_false] at hb
  split at hb
  · simp only [List.mem_cons, List.not_mem_nil, or_false] at hb
    rcases hb with hb | hb <;> exact hbyte _ (by omega) (by omega) hb
  · split at hb
    · simp only [List.mem_cons, List.not_mem_nil, or_false] at hb
      rcases hb with hb | hb | hb <;> exact hbyte _ (by omega) (by omega) hb
    · simp only [List.mem_cons, List.not_mem_nil, or_false] at hb
      rcases hb with hb | hb | hb | hb <;> exact hbyte _ (by omega) (by omega) hb

theorem toNat_ofUInt8 (b : UInt8) : (Char.ofUInt8 b).toNat = b.toNat := by
  show b.toUInt32.toNat = b.toNat
  exact UInt8.toNat_toUInt32 b

theorem ofUInt8_inj {b d : UInt8} : Char.ofUInt8 b = Char.ofUInt8 d ↔ b = d := by
  constructor
  · intro h
    have hval := congrArg Char.toNat h
    rw [toNat_ofUInt8, toNat_ofUInt8] at hval
    exact UInt8.toNat_inj.mp hval
  · rintro rfl
    rfl

theorem utf8EncodeChar_ofUInt8 {b : UInt8} (h : b.toNat < 0x80) : utf8EncodeChar (Char.ofUInt8 b) = [b] := by
  rw [utf8EncodeChar_of_ascii (by rw [toNat_ofUInt8]; exact h)]
  show [b.toUInt32.toUInt8] = [b]
  rw [UInt8.toUInt8_toUInt32]

/-- An ASCII byte in the encoding of a character is all of it. -/
theorem eq_ofUInt8_of_mem {c : Char} {b : UInt8} (hb : b ∈ utf8EncodeChar c) (h : b.toNat < 0x80) :
    c = Char.ofUInt8 b := by
  have hc := ascii_of_mem hb h
  rw [utf8EncodeChar_of_ascii hc, List.mem_singleton] at hb
  apply utf8EncodeChar_inj
  rw [utf8EncodeChar_of_ascii hc, utf8EncodeChar_ofUInt8 h, hb]

theorem not_ascii_of_invalid {b : UInt8} {s : List UInt8} (h : Rune.invalid b ∈ runes s) : 0x80 ≤ b.toNat := by
  induction s using text_induction with
  | nil => cases h
  | char c s ih =>
    rw [runes_char] at h
    exact ih (by simpa using h)
  | invalid d s hdecode ih =>
    rw [runes_invalid hdecode] at h
    rcases List.mem_cons.mp h with heq | h
    · by_contra hlt
      obtain rfl := Rune.invalid.inj heq
      refine decode_eq_none.mp hdecode (Char.ofUInt8 b) ?_
      rw [utf8EncodeChar_ofUInt8 (by omega)]
      exact ⟨s, rfl⟩
    · exact ih h

/-- Where only ASCII matters, the bytes of a rune say what the rune does. -/
theorem ofUInt8_of_mem_bytes {p : Char → Bool} (hp : ∀ c, p c = true → c.toNat < 0x80) {s : List UInt8} {r : Rune}
    (hr : r ∈ runes s) {b : UInt8} (hb : b ∈ r.bytes) : p (Char.ofUInt8 b) = p r.value := by
  have hhigh : ∀ c : Char, 0x80 ≤ c.toNat → p c = false := by
    intro c hc
    by_contra hne
    have hlt := hp c (by simpa using hne)
    omega
  cases r with
  | invalid d =>
    obtain rfl := List.mem_singleton.mp hb
    have hd := not_ascii_of_invalid hr
    rw [hhigh _ (by rw [toNat_ofUInt8]; exact hd)]
    exact (hhigh '\ufffd' (by decide)).symm
  | char c =>
    show p (Char.ofUInt8 b) = p c
    by_cases hlt : b.toNat < 0x80
    · rw [← eq_ofUInt8_of_mem hb hlt]
    · have hc : 0x80 ≤ c.toNat := by
        by_contra hc
        simp only [Rune.bytes, utf8EncodeChar_of_ascii (Nat.lt_of_not_le hc), List.mem_singleton] at hb
        rw [hb] at hlt
        have hsmall : c.toUInt8.toNat ≤ c.toNat := by
          show c.val.toUInt8.toNat ≤ c.val.toNat
          rw [UInt32.toNat_toUInt8]
          exact Nat.mod_le ..
        omega
      rw [hhigh _ hc, hhigh _ (by rw [toNat_ofUInt8]; omega)]

/-! ## Fields -/

/-- The fields of a text between the characters of `p`. -/
def fields (p : Char → Bool) (s : List UInt8) : List (List UInt8) :=
  (Fields.fields (fun r => p r.value) (runes s)).map encode

/-- Between ASCII characters, the fields of a text are those of its bytes. -/
theorem maximalRuns_fields {p : Char → Bool} (hp : ∀ c, p c = true → c.toNat < 0x80) (s : List UInt8) :
    Fields.MaximalRuns (fun b => p (Char.ofUInt8 b)) s (fields p s) := by
  have hruns := (Fields.maximalRuns_fields (fun r => p r.value) (runes s)).flatMap (g := Rune.bytes)
    (p := fun b => p (Char.ofUInt8 b)) (fun r _ => r.bytes_ne_nil) fun r hr b hb => ofUInt8_of_mem_bytes hp hr hb
  have hs : (runes s).flatMap Rune.bytes = s := encode_runes s
  rw [hs] at hruns
  exact hruns

/-! ## Trimming -/

theorem encode_map_char (cs : List Char) : encode (cs.map .char) = cs.flatMap utf8EncodeChar := by
  rw [encode, List.flatMap_map]
  rfl

theorem encode_append (rs ts : List Rune) : encode (rs ++ ts) = encode rs ++ encode ts := List.flatMap_append

theorem runes_chars_append (cs : List Char) (s : List UInt8) :
    runes (cs.flatMap utf8EncodeChar ++ s) = cs.map .char ++ runes s := by
  induction cs with
  | nil => rfl
  | cons c cs ih => rw [List.flatMap_cons, List.append_assoc, runes_char, ih, List.map_cons, List.cons_append]

/-- Only the first byte of an encoding can be a first byte. -/
theorem firstByte_iff {c : Char} {xs ys : List UInt8} {x : UInt8} (h : utf8EncodeChar c = xs ++ x :: ys) :
    x.IsUTF8FirstByte ↔ xs = [] := by
  have hlt : xs.length < (utf8EncodeChar c).length := by simp [h]
  have hx : (utf8EncodeChar c)[xs.length] = x := by simp [h]
  rw [← hx, UInt8.isUTF8FirstByte_getElem_utf8EncodeChar, List.length_eq_zero_iff]

/-- No character starts in malformed bytes and goes on into the next one. -/
theorem decode_append_char {b : UInt8} {s : List UInt8} (h : decode (b :: s) = none) (c : Char) :
    decode (b :: (s ++ utf8EncodeChar c)) = none := by
  rw [← List.cons_append, decode_eq_none]
  intro d hd
  have hnot := decode_eq_none.mp h d
  rcases List.prefix_or_prefix_of_prefix hd (List.prefix_append (b :: s) _) with hin | ⟨u, hu⟩
  · exact hnot hin
  · rw [← hu, List.prefix_append_right_inj] at hd
    obtain ⟨v, hv⟩ := hd
    cases u with
    | nil => exact hnot ⟨[], by rw [← hu]; simp⟩
    | cons x u =>
      have hfirst : x.IsUTF8FirstByte := (firstByte_iff (hv.symm.trans (List.nil_append _).symm)).mpr rfl
      have hnil := (firstByte_iff hu.symm).mp hfirst
      cases hnil

theorem runes_append_char (s : List UInt8) (c : Char) : runes (s ++ utf8EncodeChar c) = runes s ++ [.char c] := by
  induction s using text_induction with
  | nil => simpa using runes_char c []
  | char d s ih => rw [List.append_assoc, runes_char, runes_char, ih, List.cons_append]
  | invalid b s h ih =>
    rw [List.cons_append, runes_invalid (decode_append_char h c), runes_invalid h, ih, List.cons_append]

theorem runes_append_chars (s : List UInt8) (cs : List Char) :
    runes (s ++ cs.flatMap utf8EncodeChar) = runes s ++ cs.map .char := by
  induction cs generalizing s with
  | nil => simp
  | cons c cs ih => rw [List.flatMap_cons, ← List.append_assoc, ih, runes_append_char]; simp

/-- A text without the characters of `p` at its two ends. -/
def trim (p : Char → Bool) (s : List UInt8) : List UInt8 :=
  encode (Fields.strip (fun r => p r.value) (runes s))

/-- `t` is `s` without characters of `p` at its two ends, and has none left there. -/
structure Trimmed (p : Char → Bool) (s t : List UInt8) : Prop where
  split : ∃ l r : List Char, (∀ c ∈ l, p c = true) ∧ (∀ c ∈ r, p c = true) ∧
    s = l.flatMap utf8EncodeChar ++ t ++ r.flatMap utf8EncodeChar
  start : ∀ c, utf8EncodeChar c <+: t → p c = false
  stop : ∀ c, utf8EncodeChar c <:+ t → p c = false

variable {p : Char → Bool}

/-- A text with nothing to trim at its ends is trimmed to itself. -/
theorem Trimmed.self {t : List UInt8} (hstart : ∀ c, utf8EncodeChar c <+: t → p c = false)
    (hstop : ∀ c, utf8EncodeChar c <:+ t → p c = false) : Trimmed p t t :=
  ⟨⟨[], [], by simp, by simp, by simp⟩, hstart, hstop⟩

/-- Runes that count as characters of `p` are characters. -/
theorem exists_chars (hp : p '\ufffd' = false) {rs : List Rune} (h : ∀ r ∈ rs, p r.value = true) :
    ∃ cs : List Char, rs = cs.map .char ∧ ∀ c ∈ cs, p c = true := by
  induction rs with
  | nil => exact ⟨[], rfl, by simp⟩
  | cons r rs ih =>
    obtain ⟨cs, hcs, hall⟩ := ih fun r hr => h r (.tail _ hr)
    have hr := h r (.head _)
    cases r with
    | char c => exact ⟨c :: cs, by rw [hcs, List.map_cons], by simpa using ⟨hr, hall⟩⟩
    | invalid b =>
      have hbad := hr.symm.trans hp
      cases hbad

/-- The runes of a text between characters are those of the text, wherever it was malformed. -/
theorem runes_between (l r : List Char) (t : List UInt8) :
    runes (l.flatMap utf8EncodeChar ++ t ++ r.flatMap utf8EncodeChar) = l.map .char ++ runes t ++ r.map .char := by
  rw [runes_append_chars, runes_chars_append]

theorem head?_runes {t : List UInt8} {c : Char} (h : utf8EncodeChar c <+: t) : (runes t).head? = some (.char c) := by
  obtain ⟨s, rfl⟩ := h
  rw [runes_char, List.head?_cons]

theorem getLast?_runes {t : List UInt8} {c : Char} (h : utf8EncodeChar c <:+ t) :
    (runes t).getLast? = some (.char c) := by
  obtain ⟨s, rfl⟩ := h
  rw [runes_append_char, List.getLast?_concat]

theorem trimmed_trim (hp : p '\ufffd' = false) (s : List UInt8) : Trimmed p s (trim p s) := by
  obtain ⟨l, r, hl, hr, hsplit⟩ := Fields.exists_strip (fun r : Rune => p r.value) (runes s)
  obtain ⟨l, rfl, hlp⟩ := exists_chars hp hl
  obtain ⟨r, rfl, hrp⟩ := exists_chars hp hr
  have hbytes : s = l.flatMap utf8EncodeChar ++ trim p s ++ r.flatMap utf8EncodeChar := by
    conv => lhs; rw [← encode_runes s, hsplit]
    rw [encode_append, encode_append, encode_map_char, encode_map_char, trim]
  -- what is left is the runes of the trimmed text
  have hrunes : runes (trim p s) = Fields.strip (fun r => p r.value) (runes s) := by
    have hboth := congrArg runes hbytes
    rw [runes_between, hsplit] at hboth
    exact (List.append_cancel_left (List.append_cancel_right hboth)).symm
  refine ⟨⟨l, r, hlp, hrp, hbytes⟩, fun c hc => ?_, fun c hc => ?_⟩
  · have hhead := head?_runes hc
    rw [hrunes] at hhead
    exact Fields.strip_head (p := fun r : Rune => p r.value) _ _ hhead
  · have hlast := getLast?_runes hc
    rw [hrunes] at hlast
    exact Fields.strip_last (p := fun r : Rune => p r.value) _ _ hlast

/-- A rune of `p` at the end of a trimmed text would be a character. -/
theorem value_of_mem (hp : p '\ufffd' = false) {r : Rune} (h : ∀ c, r = .char c → p c = false) :
    p r.value = false := by
  cases r with
  | char c => exact h c rfl
  | invalid b => exact hp

theorem Trimmed.trim_eq (hp : p '\ufffd' = false) {s t : List UInt8} (h : Trimmed p s t) : trim p s = t := by
  obtain ⟨⟨l, r, hl, hr, rfl⟩, hstart, hstop⟩ := h
  have hchars : ∀ {cs : List Char}, (∀ c ∈ cs, p c = true) → ∀ x ∈ cs.map Rune.char, p x.value = true := by
    intro cs hcs x hx
    obtain ⟨c, hc, rfl⟩ := List.mem_map.mp hx
    exact hcs c hc
  rw [trim, runes_between, Fields.strip_eq (hchars hl) (hchars hr), encode_runes]
  · intro x hx
    refine value_of_mem hp fun c hc => hstart c ?_
    obtain ⟨rs, hrs⟩ := List.head?_eq_some_iff.mp (hc ▸ hx : (runes t).head? = some (.char c))
    rw [← encode_runes t, hrs]
    exact ⟨encode rs, rfl⟩
  · intro x hx
    refine value_of_mem hp fun c hc => hstop c ?_
    obtain ⟨rs, hrs⟩ := List.getLast?_eq_some_iff.mp (hc ▸ hx : (runes t).getLast? = some (.char c))
    rw [← encode_runes t, hrs, encode_append]
    exact ⟨encode rs, by simp [encode, Rune.bytes]⟩

theorem trimmed_iff (hp : p '\ufffd' = false) {s t : List UInt8} : Trimmed p s t ↔ trim p s = t :=
  ⟨Trimmed.trim_eq hp, fun h => h ▸ trimmed_trim hp s⟩

theorem trim_encode_eq_nil (hp : p '\ufffd' = false) {rs : List Rune} (h : ∀ r ∈ rs, p r.value = true) :
    trim p (encode rs) = [] := by
  obtain ⟨cs, rfl, hall⟩ := exists_chars hp h
  refine Trimmed.trim_eq hp ⟨⟨cs, [], hall, by simp, by simp [encode_map_char]⟩, fun c hc => ?_, fun c hc => ?_⟩
  · exact absurd (List.prefix_nil.mp hc) String.utf8EncodeChar_ne_nil
  · exact absurd (List.suffix_nil.mp hc) String.utf8EncodeChar_ne_nil

theorem trim_eq_nil_iff (hp : p '\ufffd' = false) {s : List UInt8} :
    trim p s = [] ↔ ∀ r ∈ runes s, p r.value = true := by
  constructor
  · intro h
    obtain ⟨⟨l, r, hl, hr, hs⟩, -, -⟩ := trimmed_trim hp s
    rw [h] at hs
    rw [hs, runes_between]
    intro x hx
    rw [runes_nil, List.append_nil, ← List.map_append] at hx
    obtain ⟨c, hc, rfl⟩ := List.mem_map.mp hx
    exact (List.mem_append.mp hc).elim (hl c) (hr c)
  · intro h
    rw [← encode_runes s]
    exact trim_encode_eq_nil hp h

/-- Where nothing is left of a text, nothing is left of its fields. -/
theorem trim_of_mem_fields (hp : p '\ufffd' = false) {q : Char → Bool} {s f : List UInt8} (hs : trim p s = [])
    (hf : f ∈ fields q s) : trim p f = [] := by
  obtain ⟨rs, hrs, rfl⟩ := List.mem_map.mp hf
  obtain ⟨-, -, hin⟩ := (Fields.maximalRuns_fields _ _).of_mem hrs
  exact trim_encode_eq_nil hp fun r hr => (trim_eq_nil_iff hp).mp hs r (hin r hr)

end Utf8

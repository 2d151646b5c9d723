import ErplTunnel.Framework.Utf8
import Mathlib.Data.List.Forall2

/-!
# The tags of a Tailscale node

`parseTags` (`ts/main.go`) turns the `tags` value of a secret into the tags the
node advertises. A Go string is any sequence of bytes, so a value that is not
UTF-8 is a value like any other.

`Canonical` says what a list of advertised tags is. `parseTags` gives one for
every value, and gives a canonical list back when its tags are joined by
separators of any kind (`parseTags_join`).
-/

namespace ErplTunnel.Shim

open String (utf8EncodeChar)
open Fields (MaximalRuns)
open Utf8 (Trimmed)

abbrev GoString := List UInt8

/-- The bytes of a string literal. -/
def lit (s : String) : GoString := s.toUTF8.data.toList

/-- `unicode.IsSpace`. -/
def isSpace (c : Char) : Bool :=
  let r := c.toNat
  (0x09 ≤ r && r ≤ 0x0d) || r == 0x20 || r == 0x85 || r == 0xa0 || r == 0x1680 || (0x2000 ≤ r && r ≤ 0x200a) ||
    r == 0x2028 || r == 0x2029 || r == 0x202f || r == 0x205f || r == 0x3000

/-- `strings.TrimSpace`. -/
def trimSpace (s : GoString) : GoString := Utf8.trim isSpace s

/-- `strings.FieldsFunc`. -/
def fieldsFunc (s : GoString) (f : Char → Bool) : List GoString := Utf8.fields f s

/-- `strings.HasPrefix`. -/
def hasPrefix (s pre : GoString) : Bool := pre.isPrefixOf s

/-- `strings.Join`. -/
def join (elems : List GoString) (sep : GoString) : GoString := sep.intercalate elems

def erplTunnelTag : GoString := lit "tag:erpl-tunnel"

def tagPrefix : GoString := lit "tag:"

/-- What separates two fields of the `tags` value. -/
def isSeparator (r : Char) : Bool := r == ',' || r == ' ' || r == '\t' || r == ';'

/-- One field, with what is in `out` and in `seen` so far. -/
def addTag (st : List GoString × (GoString → Bool)) (f : GoString) : List GoString × (GoString → Bool) :=
  let t := trimSpace f
  if t = [] then st
  else
    let t := if !hasPrefix t tagPrefix then tagPrefix ++ t else t
    if !st.2 t then (st.1 ++ [t], Function.update st.2 t true) else st

def parseTags (raw : GoString) : List GoString :=
  let out := [erplTunnelTag]
  let seen : GoString → Bool := Function.update (fun _ => false) erplTunnelTag true
  if trimSpace raw = [] then out
  else ((fieldsFunc raw isSeparator).foldl addTag (out, seen)).1

/-! ## Strings -/

theorem isSpace_invalid : isSpace '\ufffd' = false := by decide

theorem trimmed_iff {s t : GoString} : Trimmed isSpace s t ↔ trimSpace s = t := Utf8.trimmed_iff isSpace_invalid

theorem ascii_of_isSeparator (c : Char) (h : isSeparator c = true) : c.toNat < 0x80 := by
  simp only [isSeparator, Bool.or_eq_true, beq_iff_eq] at h
  rcases h with ((rfl | rfl) | rfl) | rfl <;> decide

/-- A comma, a space, a tab or a semicolon. -/
def isSeparatorByte (b : UInt8) : Bool := b == 0x2c || b == 0x20 || b == 0x09 || b == 0x3b

theorem isSeparator_ofUInt8 (b : UInt8) : isSeparator (Char.ofUInt8 b) = isSeparatorByte b := by
  show (Char.ofUInt8 b == Char.ofUInt8 0x2c || Char.ofUInt8 b == Char.ofUInt8 0x20 ||
    Char.ofUInt8 b == Char.ofUInt8 0x09 || Char.ofUInt8 b == Char.ofUInt8 0x3b) = _
  rw [Bool.eq_iff_iff]
  simp only [isSeparatorByte, Bool.or_eq_true, beq_iff_eq, Utf8.ofUInt8_inj]

theorem fieldsFunc_iff {s : GoString} {fs : List GoString} :
    MaximalRuns isSeparatorByte s fs ↔ fieldsFunc s isSeparator = fs := by
  have hruns := Utf8.maximalRuns_fields ascii_of_isSeparator s
  simp only [isSeparator_ofUInt8] at hruns
  constructor
  · intro h
    exact hruns.fields_eq.symm.trans h.fields_eq
  · rintro rfl
    exact hruns

theorem hasPrefix_iff {s pre : GoString} : hasPrefix s pre = true ↔ pre <+: s := List.isPrefixOf_iff_prefix

/-! ## One tag -/

structure IsTag (t : GoString) : Prop where
  pre : tagPrefix <+: t
  bare : ∀ b ∈ t, isSeparatorByte b = false
  trimmed : Trimmed isSpace t t

theorem bare_of_any {t : GoString} (h : t.any isSeparatorByte = false) : ∀ b ∈ t, isSeparatorByte b = false := by
  intro b hb
  exact Bool.eq_false_iff.mpr (List.any_eq_false.mp h b hb)

theorem IsTag.ne_nil {t : GoString} (h : IsTag t) : t ≠ [] := by
  rintro rfl
  exact absurd h.pre (by decide)

def withPrefix (t : GoString) : GoString := if hasPrefix t tagPrefix then t else tagPrefix ++ t

theorem isSpace_of_mem_tagPrefix {c : Char} {b : UInt8} (hb : b ∈ tagPrefix) (hc : b ∈ utf8EncodeChar c) :
    isSpace c = false := by
  have hall : tagPrefix.all fun b => decide (b.toNat < 0x80) && !isSpace (Char.ofUInt8 b) := by decide
  have hbyte := List.all_eq_true.mp hall b hb
  rw [Bool.and_eq_true, decide_eq_true_eq, Bool.not_eq_true'] at hbyte
  rw [Utf8.eq_ofUInt8_of_mem hc hbyte.1]
  exact hbyte.2

theorem trimmed_tagPrefix {f t : GoString} (h : Trimmed isSpace f t) :
    Trimmed isSpace (tagPrefix ++ t) (tagPrefix ++ t) := by
  refine .self (fun c hc => ?_) fun c hc => ?_
  · -- a character at the start has the first byte of the prefix
    obtain ⟨b, bs, hb⟩ := List.exists_cons_of_ne_nil (String.utf8EncodeChar_ne_nil (c := c))
    have htag : tagPrefix = 0x74 :: [0x61, 0x67, 0x3a] := by decide
    have hfirst := hc
    rw [hb, htag, List.cons_append, List.cons_prefix_cons] at hfirst
    refine isSpace_of_mem_tagPrefix (b := b) ?_ (by simp [hb])
    rw [hfirst.1, htag]
    exact .head _
  · -- a character at the end is one of `t`, or has a byte of the prefix
    rcases List.suffix_or_suffix_of_suffix hc (List.suffix_append tagPrefix t) with hin | ⟨u, hu⟩
    · exact h.stop c hin
    · cases u with
      | nil => exact h.stop c ⟨[], hu.symm⟩
      | cons b u =>
        rw [← hu, List.suffix_append_self_iff] at hc
        exact isSpace_of_mem_tagPrefix (hc.subset (.head _)) (by simp [← hu])

theorem isTag_withPrefix {f t : GoString} (hf : ∀ b ∈ f, isSeparatorByte b = false) (h : Trimmed isSpace f t) :
    IsTag (withPrefix t) := by
  obtain ⟨l, r, -, -, hsplit⟩ := h.split
  have hbare : ∀ b ∈ t, isSeparatorByte b = false := by
    intro b hb
    exact hf b (by rw [hsplit]; exact List.mem_append_left _ (List.mem_append_right _ hb))
  unfold withPrefix
  split
  · rename_i hpre
    exact ⟨hasPrefix_iff.mp hpre, hbare, .self h.start h.stop⟩
  · refine ⟨List.prefix_append .., fun b hb => ?_, trimmed_tagPrefix h⟩
    exact (List.mem_append.mp hb).elim (bare_of_any (by decide) b) (hbare b)

theorem isTag_erplTunnelTag : IsTag erplTunnelTag :=
  ⟨by decide, bare_of_any (by decide), trimmed_iff.mpr (by decide)⟩

/-! ## The loop -/

/-- The tag a field asks for, if it is not empty. -/
def normalise (f : GoString) : Option GoString := if trimSpace f = [] then none else some (withPrefix (trimSpace f))

theorem normalise_of_isTag {t : GoString} (h : IsTag t) : normalise t = some t := by
  have htrim := trimmed_iff.mp h.trimmed
  rw [normalise, htrim, if_neg h.ne_nil, withPrefix, if_pos (hasPrefix_iff.mpr h.pre)]

theorem filterMap_normalise (fs : List GoString) :
    fs.filterMap normalise = ((fs.map trimSpace).filter (· ≠ [])).map withPrefix := by
  induction fs with
  | nil => rfl
  | cons f fs ih =>
    by_cases hf : trimSpace f = []
    · simp [normalise, hf, ih]
    · simp [normalise, hf, ih]

theorem addTag_eq (st : List GoString × (GoString → Bool)) (f : GoString) :
    addTag st f = (normalise f).elim st (Fields.insertNew st) := by
  have hpre : (if !hasPrefix (trimSpace f) tagPrefix then tagPrefix ++ trimSpace f else trimSpace f) =
      withPrefix (trimSpace f) := by
    unfold withPrefix
    cases hasPrefix (trimSpace f) tagPrefix <;> rfl
  simp only [addTag, hpre, normalise]
  split
  · rfl
  · simp only [Option.elim, Fields.insertNew]
    cases st.2 (withPrefix (trimSpace f)) <;> rfl

theorem foldl_addTag (fs : List GoString) (st : List GoString × (GoString → Bool)) :
    fs.foldl addTag st = (fs.filterMap normalise).foldl Fields.insertNew st := by
  induction fs generalizing st with
  | nil => rfl
  | cons f fs ih =>
    rw [List.foldl_cons, ih, addTag_eq]
    cases hf : normalise f with
    | none => simp [hf]
    | some t => simp [hf]

/-- Also where `parseTags` returns early. -/
theorem parseTags_eq (raw : GoString) :
    parseTags raw = erplTunnelTag ::
      (((fieldsFunc raw isSeparator).filterMap normalise).filter (· ≠ erplTunnelTag)).eraseDups := by
  simp only [parseTags]
  split
  · rename_i hblank
    have hnone : (fieldsFunc raw isSeparator).filterMap normalise = [] := by
      refine List.filterMap_eq_nil_iff.mpr fun f hf => ?_
      exact if_pos (Utf8.trim_of_mem_fields isSpace_invalid hblank hf)
    rw [hnone]
    rfl
  · rw [foldl_addTag, Fields.foldl_insertNew]
    · simp
    · intro t
      by_cases ht : t = erplTunnelTag
      · simp [ht]
      · simp [ht]

/-! ## Canonical lists -/

/-- What a node advertises: its own tag first, and every tag once. -/
structure Canonical (ts : List GoString) : Prop where
  head : ts.head? = some erplTunnelTag
  nodup : ts.Nodup
  tags : ∀ t ∈ ts, IsTag t

theorem canonical_parseTags (raw : GoString) : Canonical (parseTags raw) := by
  rw [parseTags_eq]
  refine ⟨rfl, ?_, ?_⟩
  · rw [List.nodup_cons, List.mem_eraseDups]
    exact ⟨by simp, Fields.nodup_eraseDups _⟩
  · intro t ht
    rw [List.mem_cons, List.mem_eraseDups, List.mem_filter, List.mem_filterMap] at ht
    rcases ht with rfl | ⟨⟨f, hf, hnorm⟩, -⟩
    · exact isTag_erplTunnelTag
    · have hbare := ((fieldsFunc_iff.mpr rfl).of_mem hf).2.1
      unfold normalise at hnorm
      split at hnorm
      · cases hnorm
      · rw [← Option.some.inj hnorm]
        exact isTag_withPrefix hbare (trimmed_iff.mpr rfl)

/-- A canonical list is read back from its tags, whatever separators they are joined by. -/
theorem parseTags_join {ts : List GoString} {sep : GoString} (h : Canonical ts) (hne : sep ≠ [])
    (hsep : ∀ b ∈ sep, isSeparatorByte b = true) : parseTags (join ts sep) = ts := by
  have hfields : fieldsFunc (join ts sep) isSeparator = ts := by
    rw [← fieldsFunc_iff, Fields.maximalRuns_iff]
    exact Fields.fields_intercalate hne hsep fun t ht => ⟨(h.tags t ht).ne_nil, (h.tags t ht).bare⟩
  have hnorm : ts.filterMap normalise = ts := by
    rw [List.filterMap_congr fun t ht => normalise_of_isTag (h.tags t ht)]
    exact List.filterMap_some
  obtain ⟨rest, rfl⟩ := List.head?_eq_some_iff.mp h.head
  have hnodup := List.nodup_cons.mp h.nodup
  have hrest : (erplTunnelTag :: rest).filter (· ≠ erplTunnelTag) = rest := by
    rw [List.filter_cons_of_neg (by simp)]
    refine List.filter_eq_self.mpr fun t ht => ?_
    have hother : t ≠ erplTunnelTag := fun heq => hnodup.1 (heq ▸ ht)
    simpa using hother
  rw [parseTags_eq, hfields, hnorm, hrest, Fields.eraseDups_of_nodup hnodup.2]

/-- A node advertises its own tag, then every other tag the fields of the value ask for, once and in their order. -/
theorem parseTags_canonicalises (raw : GoString) :
    (∃ fs ts, MaximalRuns isSeparatorByte raw fs ∧ List.Forall₂ (Trimmed isSpace) fs ts ∧
      parseTags raw = erplTunnelTag ::
        (((ts.filter (· ≠ [])).map withPrefix).filter (· ≠ erplTunnelTag)).eraseDups) ∧
    (parseTags raw).Nodup ∧ (∀ t ∈ parseTags raw, tagPrefix <+: t) ∧
    parseTags (join (parseTags raw) (lit ",")) = parseTags raw := by
  have hcanonical := canonical_parseTags raw
  have hruns : MaximalRuns isSeparatorByte raw (fieldsFunc raw isSeparator) := fieldsFunc_iff.mpr rfl
  have htrim : List.Forall₂ (Trimmed isSpace) (fieldsFunc raw isSeparator)
      ((fieldsFunc raw isSeparator).map trimSpace) := by
    rw [List.forall₂_map_right_iff]
    exact List.forall₂_same.mpr fun f _ => trimmed_iff.mpr rfl
  refine ⟨⟨_, _, hruns, htrim, ?_⟩, hcanonical.nodup, fun t ht => (hcanonical.tags t ht).pre, ?_⟩
  · rw [parseTags_eq, filterMap_normalise]
  · exact parseTags_join hcanonical (by decide) (List.all_eq_true.mp (by decide))

example : parseTags (lit "tag:erpl-tunnel, prod;a ,a") = [erplTunnelTag, lit "tag:prod", lit "tag:a"] := by decide

end ErplTunnel.Shim

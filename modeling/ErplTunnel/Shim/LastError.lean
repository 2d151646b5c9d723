import Mathlib.Data.List.Infix
import ErplTunnel.Mesh.TwoShot
import ErplTunnel.Shim.Address

/-!
# What a failure leaves behind

A function of a shim that fails leaves a text in the `lastErr` of its node. The
answers of the libraries are inputs here, and the text is made of them; that of
a `mesh_up` does not depend on what was there before (`Impl.Lawful`).

`MeshBackend::LastError` reads the text with `mesh_errmsg`, into a buffer of 1024
bytes, and keeps what comes before the first NUL (`lastErrorText_eq`). So the
advice of a Tailscale node whose tags are refused, which stands behind the tags,
is all there only if the tags are short enough (`tag_advice_told_iff`).
-/

namespace ErplTunnel.Shim

open Mesh (ShimCall MeshOptions MeshBackend Method Reply Returned TunnelError Json Codec Sys)

namespace Errors

/-- An entry of `reg`: the options of the node and whether it is up, whether
there is a server or a client, and `lastErr`. -/
structure Entry (σ : Type) where
  opts : σ
  srv : Bool
  lastErr : GoString

/-- What the libraries answer in a `mesh_up`. An error is its text. -/
structure UpAnswers where
  mkdirTemp : Except GoString GoString
  /-- `nbembed.New`. -/
  new : Except GoString Unit
  /-- `srv.Up`, `client.Start`. -/
  up : Except GoString Unit

/-! ## Tags that are refused -/

/-- `unicode.ToLower`, for a search for ASCII letters: what it makes of any other
character is not ASCII. -/
def lower (c : Char) : Char :=
  if 'A' ≤ c ∧ c ≤ 'Z' then Char.ofNat (c.toNat + 32)
  else if c = '\u0130' then 'i'
  else if c = '\u212a' then 'k'
  else c

/-- `strings.ToLower`. -/
def toLower (s : GoString) : GoString := (Utf8.runes s).flatMap fun r => String.utf8EncodeChar (lower r.value)

/-- `strings.Contains`. -/
def contains (s sub : GoString) : Bool := decide (sub <:+: s)

/-- `isTagRejection`, of an error that is not `nil`. -/
def isTagRejection (err : GoString) : Bool :=
  let msg := toLower err
  if !contains msg (lit "tag") then false
  else [lit "not permitted", lit "invalid", lit "not allowed", lit "unauthorized", lit "requested tags"].any
    (contains msg)

/-- What `mesh_up` says of such an error, up to the tags. -/
def refusedTags : GoString := lit "Tailscale: the control server refused this node's tags ("

/-- And what to do about it. -/
def tagAdvice : GoString :=
  lit "). Every erpl_tunnel node advertises " ++ erplTunnelTag ++ lit ", so your ACL must own it. Add:\n" ++
    lit "  \"tagOwners\": \x7b \"" ++ erplTunnelTag ++ lit "\": [\"autogroup:admin\"] \x7d"

def tagsRefused (tags : GoString) (err : GoString) : GoString :=
  refusedTags ++ join (parseTags tags) (lit ", ") ++ tagAdvice ++
    lit ("\nat https://login.tailscale.com/admin/acls — and if your auth key is " ++
      "tagged, its tags must be owned too. Underlying error: ") ++ err

/-! ## The functions of the shims -/

/-- `mesh_up` of ts. A server that does not come up stays in `n.srv`. -/
def tsMeshUp (n : Entry TsNode) (a : UpAnswers) : Entry TsNode × Int :=
  match n.opts.meshUp a.mkdirTemp with
  | .already => (n, 0)
  | .refused lastErr => ({ n with lastErr }, 1)
  | .makes _ =>
    match a.up with
    | .ok _ => ({ n with opts := ts.setUp n.opts, srv := true }, 0)
    | .error err =>
      if isTagRejection err then ({ n with srv := true, lastErr := tagsRefused n.opts.tags err }, 1)
      else ({ n with srv := true, lastErr := lit "Tailscale: node did not come up: " ++ err }, 1)

/-- `mesh_up` of nb. -/
def nbMeshUp (n : Entry NbNode) (a : UpAnswers) : Entry NbNode × Int :=
  match n.opts.meshUp a.mkdirTemp with
  | .already => (n, 0)
  | .refused lastErr => ({ n with lastErr }, 1)
  | .makes _ =>
    match a.new, a.up with
    | .error err, _ => ({ n with lastErr := lit "NetBird: client init failed: " ++ err }, 1)
    | .ok _, .error err => ({ n with lastErr := lit "NetBird: node did not come up: " ++ err }, 1)
    | .ok _, .ok _ => ({ n with opts := nb.setUp n.opts, srv := true }, 0)

/-- What the node would report, and the error of `LocalClient` or `Status`. -/
structure StatusAnswer where
  json : Json
  error : Option GoString

/-- A shim, as far as its errors go. -/
structure Impl (σ : Type) where
  abi : Abi σ
  /-- What its texts start with. -/
  name : GoString
  isUp : σ → Bool
  meshUp : Entry σ → UpAnswers → Entry σ × Int
  /-- The JSON functions look whether the node is up. -/
  gated : Bool
  /-- What they report. -/
  status : Method → StatusAnswer → Except GoString Json

def tsImpl : Impl TsNode where
  abi := ts
  name := lit "Tailscale: "
  isUp n := n.up
  meshUp := tsMeshUp
  gated := true
  status _ a := a.error.elim (.ok a.json) .error

/-- There are no peers to report, and a node that cannot say its address reports
the rest. -/
def nbImpl : Impl NbNode where
  abi := nb
  name := lit "NetBird: "
  isUp n := n.up
  meshUp := nbMeshUp
  gated := false
  status
    | .peersJson, _ => .ok (.arr [])
    | _, a => .ok a.json

/-- What the libraries answer in the rest of a method. -/
structure Answers where
  /-- `srv.Listen`, `client.ListenTCP`. -/
  listen : Except GoString Unit
  /-- The handle of the export. -/
  handle : Int
  /-- `meshpair.New`. -/
  pair : Except GoString Unit
  /-- `srv.Dial`, `client.Dial`. -/
  dial : Except GoString Unit
  stream : Nat
  first : StatusAnswer
  second : StatusAnswer

/-- The text of a `mesh_export` that fails. -/
def exportError (name : GoString) (meshPort : Int) (a : Answers) : Option GoString :=
  match a.listen with
  | .error err => some (name ++ lit "could not listen on mesh port " ++ decimal (.ofInt meshPort) ++ lit ": " ++ err)
  | .ok _ => none

/-- The text of a `mesh_dial` that fails. -/
def dialError (name : GoString) (host : String) (port : Int) (a : Answers) : Option GoString :=
  match a.pair, a.dial with
  | .error err, _ => some (name ++ lit "stream pair failed: " ++ err)
  | .ok _, .error err => some (name ++ lit "dial " ++ addr host (.ofInt port) ++ lit " failed: " ++ err)
  | .ok _, .ok _ => none

section

variable {σ : Type} (sh : Impl σ)

def Entry.setErr (n : Entry σ) (e : Option GoString) : Entry σ := e.elim n fun e => { n with lastErr := e }

/-- `mesh_dial` and `mesh_export`: a node that is not up answers with no text. -/
def Impl.onMesh (n : Entry σ) (e : Option GoString) : Entry σ × Int :=
  if sh.isUp n.opts && n.srv then (n.setErr e, if e.isSome then 1 else 0) else (n, 1)

/-- `mesh_peers_json` and `mesh_self_json`, up to `writeJSON`. -/
def Impl.report (n : Entry σ) (m : Method) (a : StatusAnswer) : Entry σ × Option Json :=
  if sh.gated && !(sh.isUp n.opts && n.srv) then (n, none)
  else
    match sh.status m a with
    | .error e => ({ n with lastErr := e }, none)
    | .ok v => (n, some v)

/-- The text of a `mesh_up` that fails, of a node that has these options and has
not failed before. -/
def Impl.upError (opts : σ) (a : UpAnswers) : Option GoString :=
  let r := sh.meshUp ⟨opts, false, []⟩ a
  if r.2 = 0 then none else some r.1.lastErr

/-- What `mesh_up` says does not depend on what the node said before. -/
structure Impl.Lawful : Prop where
  configured : ∀ o, sh.isUp (sh.abi.configured o) = false
  fails : ∀ n a e, sh.isUp n.opts = false → sh.upError n.opts a = some e →
    (sh.meshUp n a).2 ≠ 0 ∧ (sh.meshUp n a).1.lastErr = e ∧ (sh.meshUp n a).1.opts = n.opts
  comes : ∀ n a, sh.isUp n.opts = false → sh.upError n.opts a = none →
    (sh.meshUp n a).2 = 0 ∧ sh.isUp (sh.meshUp n a).1.opts = true ∧ (sh.meshUp n a).1.srv = true

end

/-! ## The text -/

/-- `mesh_errmsg` of a node, into `buf`. -/
def meshErrmsg (lastErr : GoString) (buf : List UInt8) : List UInt8 :=
  if buf.length = 0 then buf
  else
    let msg := if buf.length ≤ lastErr.length then lastErr.take (buf.length - 1) else lastErr
    msg ++ 0 :: buf.drop (msg.length + 1)

/-- `MeshBackend::LastError`, of a node with this `lastErr`. -/
def lastErrorText (lastErr : GoString) : GoString :=
  (meshErrmsg lastErr (List.replicate 1024 0)).takeWhile (· ≠ 0)

/-- What there is of a text after that. -/
def told (text : GoString) : GoString := (text.take 1023).takeWhile (· ≠ 0)

theorem takeWhile_text (msg rest : GoString) : (msg ++ 0 :: rest).takeWhile (· ≠ 0) = msg.takeWhile (· ≠ 0) := by
  induction msg with
  | nil => rfl
  | cons b msg ih => rw [List.cons_append, List.takeWhile_cons, List.takeWhile_cons, ih]

theorem lastErrorText_eq (lastErr : GoString) : lastErrorText lastErr = told lastErr := by
  rw [lastErrorText, meshErrmsg, List.length_replicate, if_neg (by decide), takeWhile_text, told]
  split
  case isTrue => rfl
  case isFalse h => rw [List.take_of_length_le (by omega)]

/-! ## Each shim -/

theorem ts_not_already {n : TsNode} (h : n.up = false) (d : Except GoString GoString) : n.meshUp d ≠ .already := by
  rw [TsNode.meshUp, h, if_neg Bool.false_ne_true]
  split
  · nofun
  · split <;> nofun

theorem nb_not_already {n : NbNode} (h : n.up = false) (d : Except GoString GoString) : n.meshUp d ≠ .already := by
  rw [NbNode.meshUp, h, if_neg Bool.false_ne_true]
  split
  · nofun
  · split <;> nofun

theorem tsImpl_lawful : tsImpl.Lawful where
  configured o := by
    show (ts.configured o).up = false
    rw [ts_configured]
  fails n a e hu he := by
    have hn : n.opts.meshUp a.mkdirTemp ≠ .already := ts_not_already hu _
    simp only [Impl.upError, tsImpl, tsMeshUp] at he ⊢
    cases hm : n.opts.meshUp a.mkdirTemp with
    | already => exact absurd hm hn
    | refused lastErr => simpa [hm] using he
    | makes srv =>
      cases ha : a.up with
      | ok _ => simp [hm, ha] at he
      | error err =>
        cases ht : isTagRejection err with
        | true => simpa [hm, ha, ht] using he
        | false => simpa [hm, ha, ht] using he
  comes n a hu he := by
    have hn : n.opts.meshUp a.mkdirTemp ≠ .already := ts_not_already hu _
    simp only [Impl.upError, tsImpl, tsMeshUp] at he ⊢
    cases hm : n.opts.meshUp a.mkdirTemp with
    | already => exact absurd hm hn
    | refused lastErr => simp [hm] at he
    | makes srv =>
      cases ha : a.up with
      | ok _ => exact ⟨rfl, rfl, rfl⟩
      | error err =>
        cases ht : isTagRejection err with
        | true => simp [hm, ha, ht] at he
        | false => simp [hm, ha, ht] at he

theorem nbImpl_lawful : nbImpl.Lawful where
  configured o := by
    show (nb.configured o).up = false
    rw [nb_configured]
  fails n a e hu he := by
    have hn : n.opts.meshUp a.mkdirTemp ≠ .already := nb_not_already hu _
    simp only [Impl.upError, nbImpl, nbMeshUp] at he ⊢
    cases hm : n.opts.meshUp a.mkdirTemp with
    | already => exact absurd hm hn
    | refused lastErr => simpa [hm] using he
    | makes _ =>
      cases hw : a.new with
      | error err => simpa [hm, hw] using he
      | ok _ =>
        cases ha : a.up with
        | error err => simpa [hm, hw, ha] using he
        | ok _ => simp [hm, hw, ha] at he
  comes n a hu he := by
    have hn : n.opts.meshUp a.mkdirTemp ≠ .already := nb_not_already hu _
    simp only [Impl.upError, nbImpl, nbMeshUp] at he ⊢
    cases hm : n.opts.meshUp a.mkdirTemp with
    | already => exact absurd hm hn
    | refused lastErr => simp [hm] at he
    | makes _ =>
      cases hw : a.new with
      | error err => simp [hm, hw] at he
      | ok _ =>
        cases ha : a.up with
        | error err => simp [hm, hw, ha] at he
        | ok _ => exact ⟨rfl, rfl, rfl⟩

/-! ## What is left of the advice -/

theorem mem_join {ts : List GoString} {sep : GoString} {b : UInt8} (h : b ∈ join ts sep) :
    b ∈ sep ∨ ∃ t ∈ ts, b ∈ t := by
  rw [join, List.intercalate, List.mem_flatten] at h
  obtain ⟨l, hl, hb⟩ := h
  induction ts with
  | nil => cases hl
  | cons t ts ih =>
    cases ts with
    | nil =>
      obtain rfl := List.mem_singleton.mp hl
      exact .inr ⟨l, List.mem_cons_self, hb⟩
    | cons u ts =>
      rw [List.intersperse_cons_cons, List.mem_cons, List.mem_cons] at hl
      obtain rfl | rfl | hl := hl
      · exact .inr ⟨l, List.mem_cons_self, hb⟩
      · exact .inl hb
      · exact (ih hl).imp_right fun ⟨t', ht', hb'⟩ => ⟨t', List.mem_cons_of_mem _ ht', hb'⟩

theorem mem_of_mem_parseTags {raw t : GoString} {b : UInt8} (ht : t ∈ parseTags raw) (hb : b ∈ t) :
    b ∈ erplTunnelTag ∨ b ∈ tagPrefix ∨ b ∈ raw := by
  rw [parseTags_eq, List.mem_cons, List.mem_eraseDups, List.mem_filter, List.mem_filterMap] at ht
  obtain rfl | ⟨⟨f, hf, hnorm⟩, -⟩ := ht
  · exact .inl hb
  · have hraw : b ∈ f → b ∈ raw := ((fieldsFunc_iff.mpr rfl).of_mem hf).2.2 b
    obtain ⟨l, r, -, -, hsplit⟩ := (trimmed_iff.mpr rfl : Utf8.Trimmed isSpace f (trimSpace f)).split
    have htrim : b ∈ trimSpace f → b ∈ f := by
      intro h
      rw [hsplit]
      exact List.mem_append_left _ (List.mem_append_right _ h)
    unfold normalise at hnorm
    split at hnorm
    · cases hnorm
    · rw [← Option.some.inj hnorm, withPrefix] at hb
      split at hb
      · exact .inr (.inr (hraw (htrim hb)))
      · exact .inr ((List.mem_append.mp hb).imp_right fun h => hraw (htrim h))

/-- The tags as the error shows them. -/
def shownTags (o : MeshOptions) : GoString := join (parseTags (goString o.tags)) (lit ", ")

theorem nul_not_mem_shownTags (o : MeshOptions) : 0 ∉ shownTags o := by
  intro h
  obtain h | ⟨t, ht, hb⟩ := mem_join h
  · exact absurd h (by decide)
  · obtain h | h | h := mem_of_mem_parseTags ht hb
    · exact absurd h (by decide)
    · exact absurd h (by decide)
    · have hne := List.mem_takeWhile_imp h
      exact absurd hne (by decide)

/-- A text without a NUL is told up to the end of the buffer. -/
theorem prefix_told_iff {text rest : GoString} (h : 0 ∉ text) : text <+: told (text ++ rest) ↔ text.length ≤ 1023 := by
  constructor
  · intro hp
    have hle := hp.length_le.trans (List.takeWhile_prefix _).length_le
    rw [List.length_take] at hle
    omega
  · intro hle
    have hall : ∀ b ∈ text, decide (b ≠ 0) = true := by
      intro b hb
      exact decide_eq_true fun h0 => h (h0 ▸ hb)
    rw [told, List.take_append, List.take_of_length_le hle, List.takeWhile_append_of_pos hall]
    exact List.prefix_append ..

/-- Where the control server refuses the tags, the error ends up in front of the
user with the whole of the advice if they are short enough. -/
theorem tag_advice_told_iff (o : MeshOptions) (a : UpAnswers) (srv : TsServer) (err : GoString)
    (hm : (ts.configured o).meshUp a.mkdirTemp = .makes srv) (hu : a.up = .error err)
    (ht : isTagRejection err = true) : ∃ text, tsImpl.upError (ts.configured o) a = some text ∧
      (refusedTags ++ shownTags o ++ tagAdvice <+: told text ↔ (shownTags o).length ≤ 826) := by
  have htags : (ts.configured o).tags = goString o.tags := by rw [ts_configured]
  refine ⟨tagsRefused (goString o.tags) err, ?_, ?_⟩
  · rw [← htags]
    simp [Impl.upError, tsImpl, tsMeshUp, hm, hu, ht]
  · have hnul : 0 ∉ refusedTags ++ shownTags o ++ tagAdvice := by
      rw [List.mem_append, List.mem_append]
      rintro ((h | h) | h)
      · exact absurd h (by decide)
      · exact nul_not_mem_shownTags o h
      · exact absurd h (by decide)
    have hlen : refusedTags.length = 56 ∧ tagAdvice.length = 141 := by decide +kernel
    rw [tagsRefused, ← shownTags, List.append_assoc (_ ++ _ ++ tagAdvice), prefix_told_iff hnul, List.length_append,
      List.length_append, hlen.1, hlen.2]
    omega

def answered : UpAnswers := ⟨.ok (lit "/tmp"), .ok (), .ok ()⟩

/-- A control server with words of its own. -/
theorem tag_advice_told_tailnet : ∃ text,
    tsImpl.upError (ts.configured tailnet.options) { answered with up := .error (lit "Requested TAGS are Invalid") } =
      some text ∧ refusedTags ++ shownTags tailnet.options ++ tagAdvice <+: told text := by
  obtain ⟨text, htext, hiff⟩ := tag_advice_told_iff tailnet.options
    { answered with up := .error (lit "Requested TAGS are Invalid") } _ _ (by rw [ts_configured]; rfl) rfl (by decide)
  exact ⟨text, htext, hiff.mpr (by decide)⟩

end Errors

end ErplTunnel.Shim

import ErplTunnel.Mesh.PeerStatus

/-!
# The two-shot buffer contract

`PeersJson` and `SelfJson` ask the shim for its status with a buffer of a fixed
size, and a second time with the size that the first call asked for. The status
may have changed in between, so the two calls render two payloads.
`pairAnswer` has the outcome for every pair of them: a second payload
that is longer than the first finds the buffer too small again, and the method
throws with whatever text the node last had for an error. That is the only way
in which a change makes it fail (`status_or_reason_iff`).
-/

namespace ErplTunnel.Mesh

/-- What the shim renders; nothing where it reports a failure of its own, with
return code 1. -/
def payload (c : Codec) (status : Option Json) : Option String := status.bind c.marshal

/-- The size a payload asks for: its bytes and the NUL behind them. -/
def needs (text : String) : Nat := (bytes text).length + 1

section Shim

variable {c : Codec} {status : Option Json} {text : String} (buf : JsonBuffer)

theorem jsonShim_failed (h : payload c status = none) : jsonShim c status buf = (1, buf) := by
  cases status with
  | none => rfl
  | some v =>
    have hm : c.marshal v = none := h
    simp [jsonShim, writeJson, hm]

theorem jsonShim_fits (h : payload c status = some text) (hl : needs text ≤ buf.data.length) :
    jsonShim c status buf = (0, ⟨bytes text ++ 0 :: buf.data.drop (needs text), needs text⟩) := by
  obtain ⟨v, rfl, hm⟩ := Option.bind_eq_some_iff.mp h
  exact writeJson_fits hm hl

theorem jsonShim_small (h : payload c status = some text) (hl : buf.data.length < needs text) :
    jsonShim c status buf = (2, ⟨buf.data, needs text⟩) := by
  obtain ⟨v, rfl, hm⟩ := Option.bind_eq_some_iff.mp h
  exact writeJson_small hm hl

end Shim

/-- A JSON method returns the text, or throws. -/
inductive Answers : Except TunnelError Returned → Option String → Prop
  | returns (text : String) : Answers (.ok (.json text)) (some text)
  | throws (e : TunnelError) : Answers (.error e) none

theorem answers_throwLast (text : String) (b : MeshBackend) : Answers ((throwLast text).exec b).1 none := by
  rcases hx : (lastError text).exec b with ⟨_ | last, b'⟩
  · simp only [lastError, issue, Throws.exec_bind, Throws.exec_get] at hx
    split at hx <;> cases hx
  · simp only [throwLast, Throws.exec_bind, hx, Throws.exec_throw]
    exact .throws _

theorem answers_jsonAnswer (rc : Int) (r : Reply) (b : MeshBackend) :
    Answers ((jsonAnswer rc r).exec b).1 (if rc = 0 then some r.json else none) := by
  unfold jsonAnswer
  by_cases h : rc = 0
  · simp only [h, ne_eq, not_true, ↓reduceIte, Throws.exec_pure]
    exact .returns _
  · simp only [h, ne_eq, not_false_eq_true, ↓reduceIte]
    exact answers_throwLast r.errmsg b

/-- The text that `jsonCall` returns of a reply. -/
def replyAnswer (size : Nat) (r : Reply) : Option String :=
  if r.rc = 2 ∧ size < r.need then
    if maxMeshJson < r.need then none else if r.rc₂ = 0 then some r.json else none
  else if r.rc = 0 then some r.json else none

theorem answers_jsonCall (call : Int → Nat → ShimCall) (size : Nat) (what : String) (r : Reply) (b : MeshBackend) :
    Answers ((jsonCall call size what r).exec b).1 (replyAnswer size r) := by
  simp only [jsonCall, replyAnswer, issue, Throws.exec_bind, Throws.exec_get, Throws.exec_modify]
  by_cases hagain : r.rc = 2 ∧ size < r.need
  · simp only [hagain, and_self, ↓reduceIte]
    by_cases hbig : maxMeshJson < r.need
    · simp only [hbig, ↓reduceIte, Throws.exec_throw]
      exact .throws _
    · simp only [hbig, ↓reduceIte, Throws.exec_bind, Throws.exec_modify]
      exact answers_jsonAnswer _ _ _
  · simp only [hagain, ↓reduceIte]
    exact answers_jsonAnswer _ _ _

/-- The text that a JSON method returns, of a node that renders `first` and then
`second`. -/
def pairAnswer (size : Nat) (first second : Option String) : Option String :=
  match first with
  | none => none
  | some text =>
    if needs text ≤ size then some text
    else if maxMeshJson < needs text then none
    else second.filter fun text₂ => needs text₂ ≤ needs text

theorem replyAnswer_jsonReply {c : Codec} {first second : Option Json}
    (hn : ∀ text, payload c first = some text ∨ payload c second = some text → 0 ∉ bytes text) (size : Nat)
    (errmsg : String) :
    replyAnswer size (jsonReply c size first second errmsg) =
      pairAnswer size (payload c first) (payload c second) := by
  cases h₁ : payload c first with
  | none => simp [replyAnswer, pairAnswer, jsonReply, jsonShim_failed _ h₁]
  | some t₁ =>
  by_cases hfit : needs t₁ ≤ size
  · have hasked := jsonShim_fits ⟨List.replicate size 0, 0⟩ h₁ (by simpa using hfit)
    have hrc : ¬((0 : Int) = 2 ∧ size < needs t₁) := by omega
    simp only [replyAnswer, pairAnswer, jsonReply, hasked, hfit, if_neg hrc, ↓reduceIte, cString_bytes (hn t₁ (.inl h₁))]
  have hlt : size < needs t₁ := by omega
  have hasked := jsonShim_small ⟨List.replicate size 0, 0⟩ h₁ (by simpa using hlt)
  simp only [replyAnswer, pairAnswer, jsonReply, hasked, hlt, hfit, and_self, ↓reduceIte]
  by_cases hbig : maxMeshJson < needs t₁
  · simp only [hbig, ↓reduceIte]
  simp only [hbig, ↓reduceIte]
  -- the second call, with as many bytes as the first has asked for
  have hlen : (List.replicate size (0 : UInt8) ++ List.replicate (needs t₁ - size) 0).length = needs t₁ := by
    simp only [List.length_append, List.length_replicate]
    omega
  cases h₂ : payload c second with
  | none => simp [jsonShim_failed _ h₂]
  | some t₂ =>
  by_cases hle : needs t₂ ≤ needs t₁
  · have hfilled := jsonShim_fits ⟨_, needs t₁⟩ h₂ (by rw [hlen]; exact hle)
    simp only [hfilled, cString_bytes (hn t₂ (.inr h₂)), ↓reduceIte]
    exact (Option.filter_some_pos (by simpa using hle)).symm
  · have hfilled := jsonShim_small ⟨_, needs t₁⟩ h₂ (by rw [hlen]; omega)
    have hrc : ¬(2 : Int) = 0 := by decide
    simp only [hfilled, hrc, ↓reduceIte]
    exact (Option.filter_some_neg (by simpa using hle)).symm

/-- A reason for a JSON method to throw: a call that the backend makes returns 1,
or a payload is over the limit. -/
inductive Reason (size : Nat) (first second : Option String) : Prop
  | failed (h : first = none)
  | failedAgain {text : String} (h : first = some text) (hl : size < needs text) (h₂ : second = none)
  | tooLarge {text : String} (h : first = some text ∨ second = some text) (hl : maxMeshJson < needs text)

/-- One of the payloads, whole, or a reason. -/
def StatusOrReason (size : Nat) (first second : Option String) (r : Except TunnelError Returned) : Prop :=
  (∃ text, (first = some text ∨ second = some text) ∧ r = .ok (.json text)) ∨
    (∃ e, r = .error e) ∧ Reason size first second

/-- The first payload does not fit, and the second, which is asked for with the
size of the first, is longer; both are within the limit. -/
def Grew (size : Nat) (first second : Option String) : Prop :=
  ∃ text text₂, first = some text ∧ second = some text₂ ∧ size < needs text ∧ needs text < needs text₂ ∧
    needs text₂ ≤ maxMeshJson

theorem statusOrReason_iff {size : Nat} {first second : Option String} {r : Except TunnelError Returned}
    (h : Answers r (pairAnswer size first second)) :
    StatusOrReason size first second r ↔ ¬Grew size first second := by
  cases first with
  | none =>
    cases h with
    | throws e =>
    refine iff_of_true (.inr ⟨⟨e, rfl⟩, .failed rfl⟩) ?_
    rintro ⟨t, t₂, h₁, -⟩
    cases h₁
  | some t₁ =>
  by_cases hfit : needs t₁ ≤ size
  · simp only [pairAnswer, hfit, ↓reduceIte] at h
    cases h with
    | returns =>
    refine iff_of_true (.inl ⟨t₁, .inl rfl, rfl⟩) ?_
    rintro ⟨t, t₂, ⟨⟩, -, hlt, -⟩
    omega
  by_cases hbig : maxMeshJson < needs t₁
  · simp only [pairAnswer, hfit, hbig, ↓reduceIte] at h
    cases h with
    | throws e =>
    refine iff_of_true (.inr ⟨⟨e, rfl⟩, .tooLarge (.inl rfl) hbig⟩) ?_
    rintro ⟨t, t₂, ⟨⟩, -, -, hlt, hle⟩
    omega
  simp only [pairAnswer, hfit, hbig, ↓reduceIte] at h
  cases second with
  | none =>
    cases h with
    | throws e =>
    refine iff_of_true (.inr ⟨⟨e, rfl⟩, .failedAgain rfl (by omega) rfl⟩) ?_
    rintro ⟨t, t₂, -, h₂, -⟩
    cases h₂
  | some t₂ =>
  by_cases hle : needs t₂ ≤ needs t₁
  · rw [Option.filter_some_pos (by simpa using hle)] at h
    cases h with
    | returns =>
    refine iff_of_true (.inl ⟨t₂, .inr rfl, rfl⟩) ?_
    rintro ⟨t, t', ⟨⟩, ⟨⟩, -, hlt, -⟩
    omega
  rw [Option.filter_some_neg (by simpa using hle)] at h
  cases h with
  | throws e =>
  by_cases hbig₂ : maxMeshJson < needs t₂
  · refine iff_of_true (.inr ⟨⟨e, rfl⟩, .tooLarge (.inr rfl) hbig₂⟩) ?_
    rintro ⟨t, t', ⟨⟩, ⟨⟩, -, -, hle⟩
    omega
  · refine iff_of_false ?_ (not_not.mpr ⟨t₁, t₂, rfl, rfl, by omega, by omega, by omega⟩)
    rintro (⟨t, -, hok⟩ | ⟨-, hr⟩)
    · cases hok
    · cases hr with
      | failed h => cases h
      | failedAgain h hl h₂ => cases h₂
      | tooLarge h hl => rcases h with ⟨⟨⟩⟩ | ⟨⟨⟩⟩ <;> omega

section Methods

variable {c : Codec} {o : UpOutcome} {b : MeshBackend} {first second : Option Json}
  (hup : ((ensureUp o).exec b).1 = .ok ())
  (hn : ∀ text, payload c first = some text ∨ payload c second = some text → 0 ∉ bytes text)
include hup hn

theorem answers_peersJson (errmsg : String) :
    Answers ((peersJson c o first second errmsg).exec b).1
      (pairAnswer 8192 (payload c first) (payload c second)) := by
  rw [peersJson, exec_afterUp hup, ← replyAnswer_jsonReply hn 8192 errmsg]
  exact answers_jsonCall .peersJson 8192 "peer" _ _

theorem answers_selfJson (errmsg : String) :
    Answers ((selfJson c o first second errmsg).exec b).1
      (pairAnswer 4096 (payload c first) (payload c second)) := by
  rw [selfJson, exec_afterUp hup, ← replyAnswer_jsonReply hn 4096 errmsg]
  exact answers_jsonCall .selfJson 4096 "self" _ _

end Methods

/-- Both JSON methods, of a backend that comes up, and of a shim that renders
texts without a NUL: what they return is one of the two payloads, or there is a
reason to throw, exactly when the second payload is not one that outgrew the
buffer of the first. -/
theorem status_or_reason_iff (c : Codec) (o : UpOutcome) (b : MeshBackend) (first second : Option Json)
    (errmsg : String) (hup : ((ensureUp o).exec b).1 = .ok ())
    (hn : ∀ text, payload c first = some text ∨ payload c second = some text → 0 ∉ bytes text) :
    (StatusOrReason 8192 (payload c first) (payload c second) ((peersJson c o first second errmsg).exec b).1 ↔
      ¬Grew 8192 (payload c first) (payload c second)) ∧
    (StatusOrReason 4096 (payload c first) (payload c second) ((selfJson c o first second errmsg).exec b).1 ↔
      ¬Grew 4096 (payload c first) (payload c second)) := by
  exact ⟨statusOrReason_iff (answers_peersJson hup hn errmsg), statusOrReason_iff (answers_selfJson hup hn errmsg)⟩

/-! ## A peer comes up between the two calls -/

/-- The record of a peer. -/
def plainPeer : MeshPeer := ⟨"tailscale", "db", "db.example.ts.net.", "100.64.0.7", ["tag:erpl-tunnel"], true⟩

def plainText : String :=
  "\x7b\"backend\":\"tailscale\",\"host_name\":\"db\",\"dns_name\":\"db.example.ts.net.\"," ++
    "\"mesh_ip\":\"100.64.0.7\",\"tags\":[\"tag:erpl-tunnel\"],\"online\":true\x7d"

/-- The rest of an array, with `n` peers to come. -/
def restText : Nat → String
  | 0 => "]"
  | n + 1 => "," ++ (plainText ++ restText n)

/-- An array of `n + 1` such peers. -/
def peersText (n : Nat) : String := "[" ++ (plainText ++ restText n)

/-- The status of a node with `n + 1` such peers. -/
def peersStatus (n : Nat) : Json := .arr (List.replicate (n + 1) (peerJson plainPeer))

/-- The libraries, as far as arrays of up to 200 such peers go. -/
def peersCodec : Codec where
  marshal v :=
    match v with
    | .arr xs => if xs.length = 0 then some "[]" else some (peersText (xs.length - 1))
    | _ => none
  read t := ((List.range 200).find? fun n => peersText n = t).map peersStatus

theorem payload_peers (n : Nat) : payload peersCodec (some (peersStatus n)) = some (peersText n) := by
  simp [payload, peersStatus, peersCodec]

theorem bytes_append (s t : String) : bytes (s ++ t) = bytes s ++ bytes t := by
  simp [bytes, String.toByteArray_append]

theorem length_restText (n : Nat) : (bytes (restText n)).length = 137 * n + 1 := by
  induction n with
  | zero => decide +kernel
  | succ n ih =>
    have hcomma : (bytes ",").length = 1 := by decide +kernel
    have hplain : (bytes plainText).length = 136 := by decide +kernel
    simp only [restText, bytes_append, List.length_append, hcomma, hplain, ih]
    omega

theorem needs_peersText (n : Nat) : needs (peersText n) = 137 * n + 139 := by
  have hopen : (bytes "[").length = 1 := by decide +kernel
  have hplain : (bytes plainText).length = 136 := by decide +kernel
  simp only [needs, peersText, bytes_append, List.length_append, hopen, hplain, length_restText]
  omega

theorem noNul_restText (n : Nat) : 0 ∉ bytes (restText n) := by
  induction n with
  | zero => decide +kernel
  | succ n ih =>
    have hcomma : 0 ∉ bytes "," := by decide +kernel
    have hplain : 0 ∉ bytes plainText := by decide +kernel
    simp only [restText, bytes_append, List.mem_append, hcomma, hplain, ih, or_self, not_false_eq_true]

theorem noNul_peersText (n : Nat) : 0 ∉ bytes (peersText n) := by
  have hopen : 0 ∉ bytes "[" := by decide +kernel
  have hplain : 0 ∉ bytes plainText := by decide +kernel
  simp only [peersText, bytes_append, List.mem_append, hopen, hplain, noNul_restText, or_self, not_false_eq_true]

theorem noNul_payload {n m : Nat} (text : String)
    (h : payload peersCodec (some (peersStatus n)) = some text ∨ payload peersCodec (some (peersStatus m)) = some text) :
    0 ∉ bytes text := by
  rw [payload_peers, payload_peers] at h
  rcases h with ⟨⟨⟩⟩ | ⟨⟨⟩⟩ <;> exact noNul_peersText _

/-- There are 61 peers, of which one is gone when the second call is made. -/
theorem peers_shrink :
    StatusOrReason 8192 (some (peersText 60)) (some (peersText 59))
      ((peersJson peersCodec unasked (some (peersStatus 60)) (some (peersStatus 59)) "").exec upBackend).1 := by
  have h := (status_or_reason_iff peersCodec unasked upBackend (some (peersStatus 60)) (some (peersStatus 59)) "" rfl
    noNul_payload).1
  rw [payload_peers, payload_peers] at h
  refine h.mpr ?_
  rintro ⟨t, t₂, ⟨⟩, ⟨⟩, -, hlt, -⟩
  rw [needs_peersText, needs_peersText] at hlt
  omega

/-- There are 60 peers, and another one when the second call is made. -/
theorem peers_grow :
    ¬ ∀ (c : Codec) (o : UpOutcome) (b : MeshBackend) (first second : Option Json) (errmsg : String),
      ((ensureUp o).exec b).1 = .ok () →
      (∀ text, payload c first = some text ∨ payload c second = some text → 0 ∉ bytes text) →
      StatusOrReason 8192 (payload c first) (payload c second) ((peersJson c o first second errmsg).exec b).1 ∧
      StatusOrReason 4096 (payload c first) (payload c second) ((selfJson c o first second errmsg).exec b).1 := by
  intro hall
  have hup : ((ensureUp unasked).exec upBackend).1 = .ok () := rfl
  obtain ⟨h, -⟩ := hall peersCodec unasked upBackend (some (peersStatus 59)) (some (peersStatus 60)) "" hup noNul_payload
  have hn : ∀ text, payload peersCodec (some (peersStatus 59)) = some text ∨
      payload peersCodec (some (peersStatus 60)) = some text → 0 ∉ bytes text := noNul_payload
  have hans := answers_peersJson hup hn ""
  rw [payload_peers, payload_peers] at h hans
  refine (statusOrReason_iff hans).mp h ⟨_, _, rfl, rfl, ?_⟩
  have hmax : maxMeshJson = 67108864 := by decide
  rw [needs_peersText, needs_peersText, hmax]
  omega

end ErplTunnel.Mesh

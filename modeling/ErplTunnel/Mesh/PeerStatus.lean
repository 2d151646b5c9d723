import ErplTunnel.Mesh.Backend

/-!
# Peer status over the C ABI

The shims marshal their peer records as JSON into a buffer of the caller
(`writeJSON`), the backend asks with a buffer of a fixed size and again with what
the shim needs (`PeersJson`, `SelfJson`), takes the buffer as a C string, and
`ParseMeshPeersJson` reads the records back, field by field. The text stands for
its bytes: a JSON text is UTF-8, and `bytes` is its encoding.

`json.Marshal` and `yyjson_read` are not here (`Codec`). Relied on is that they
are inverse to each other on the value at hand, and that the text between them
is not empty and has no NUL (`Codec.Inverse`).
-/

namespace ErplTunnel.Mesh

/-- A JSON value. There are no numbers in the records. -/
inductive Json where
  | null
  | bool (b : Bool)
  | str (s : String)
  | arr (xs : List Json)
  | obj (fields : List (String × Json))

/-- `json.Marshal` and `yyjson_read`. -/
structure Codec where
  marshal : Json → Option String
  read : String → Option Json

def bytes (text : String) : List UInt8 := text.toByteArray.data.toList

/-- The two are inverse to each other on `v`, by way of `text`. -/
structure Codec.Inverse (c : Codec) (v : Json) (text : String) : Prop where
  marshal : c.marshal v = some text
  read : c.read text = some v
  nonempty : text ≠ ""
  noNul : 0 ∉ bytes text

/-! ## The buffer -/

/-- `buf`, with its length, and `*need`. -/
structure JsonBuffer where
  data : List UInt8
  need : Nat

/-- `writeJSON`, which the two shims have alike. -/
def writeJson (c : Codec) (v : Json) (b : JsonBuffer) : Int × JsonBuffer :=
  match c.marshal v with
  | none => (1, b)
  | some text =>
    let n := (bytes text).length
    if b.data.length < n + 1 then (2, { b with need := n + 1 })
    else (0, ⟨bytes text ++ 0 :: b.data.drop (n + 1), n + 1⟩)

/-- `mesh_peers_json` or `mesh_self_json` of a node that has this to report, or
that is not up or cannot be asked. -/
def jsonShim (c : Codec) (status : Option Json) (b : JsonBuffer) : Int × JsonBuffer :=
  match status with
  | none => (1, b)
  | some v => writeJson c v b

/-- `std::string(buf.data())`. Bytes that are no UTF-8 are no JSON either, and
count as no text. -/
def cString (buf : List UInt8) : String := (String.fromUTF8? ⟨(buf.takeWhile (· ≠ 0)).toArray⟩).getD ""

/-- What the backend sees of a JSON call with a buffer of `size` bytes, and of the
second one with the size that the first asks for. -/
def jsonReply (c : Codec) (size : Nat) (first second : Option Json) (errmsg : String) : Reply :=
  let asked := jsonShim c first ⟨List.replicate size 0, 0⟩
  let filled := jsonShim c second ⟨asked.2.data ++ List.replicate (asked.2.need - size) 0, asked.2.need⟩
  { rc := asked.1
    stream := none
    handle := 0
    need := asked.2.need
    rc₂ := filled.1
    json := cString (if asked.1 = 2 ∧ size < asked.2.need then filled.2.data else asked.2.data)
    errmsg := errmsg }

/-- `PeersJson`, of a node that reports `first` and then `second`. -/
def peersJson (c : Codec) (o : UpOutcome) (first second : Option Json) (errmsg : String) : BackendM Returned := do
  ensureUp o
  resume .peersJson (jsonReply c 8192 first second errmsg)

/-- `SelfJson`. -/
def selfJson (c : Codec) (o : UpOutcome) (first second : Option Json) (errmsg : String) : BackendM Returned := do
  ensureUp o
  resume .selfJson (jsonReply c 4096 first second errmsg)

theorem cString_bytes {text : String} (h : 0 ∉ bytes text) (rest : List UInt8) :
    cString (bytes text ++ 0 :: rest) = text := by
  have htake : (bytes text ++ 0 :: rest).takeWhile (· ≠ 0) = bytes text := by
    rw [List.takeWhile_append_of_pos]
    · simp
    · intro b hb
      have hne : b ≠ 0 := fun h0 => h (h0 ▸ hb)
      simpa using hne
  have hdata : (⟨(bytes text).toArray⟩ : ByteArray) = text.toByteArray := by
    simp [bytes]
  rw [cString, htake, hdata, String.fromUTF8?, dif_pos text.isValidUTF8]
  rfl

section Buffer

variable {c : Codec} {v : Json} {text : String} (hm : c.marshal v = some text)
include hm

/-- A buffer that is large enough has the text at its start, and a NUL behind it. -/
theorem writeJson_fits {b : JsonBuffer} (h : (bytes text).length + 1 ≤ b.data.length) :
    writeJson c v b =
      (0, ⟨bytes text ++ 0 :: b.data.drop ((bytes text).length + 1), (bytes text).length + 1⟩) := by
  have hlen : ¬b.data.length < (bytes text).length + 1 := by omega
  simp [writeJson, hm, hlen]

/-- One that is too small is left as it is. -/
theorem writeJson_small {b : JsonBuffer} (h : b.data.length < (bytes text).length + 1) :
    writeJson c v b = (2, ⟨b.data, (bytes text).length + 1⟩) := by
  simp [writeJson, hm, h]

/-- The two calls end with the text in the buffer, where the first was enough or not. -/
theorem jsonReply_text (hn : 0 ∉ bytes text) (size : Nat) (errmsg : String) :
    let r := jsonReply c size (some v) (some v) errmsg
    r.json = text ∧ (r.rc = 0 ∧ (bytes text).length + 1 ≤ size ∨
      r.rc = 2 ∧ r.rc₂ = 0 ∧ r.need = (bytes text).length + 1 ∧ size < r.need) := by
  by_cases hfit : (bytes text).length + 1 ≤ size
  · have hw := writeJson_fits hm (b := ⟨List.replicate size 0, 0⟩) (by simpa using hfit)
    refine ⟨?_, .inl ⟨?_, hfit⟩⟩
    · simp only [jsonReply, jsonShim, hw]
      exact cString_bytes hn _
    · simp only [jsonReply, jsonShim, hw]
  · have hlt : size < (bytes text).length + 1 := by omega
    have hw := writeJson_small hm (b := ⟨List.replicate size 0, 0⟩) (by simpa using hlt)
    have hlen : (bytes text).length + 1 ≤
        (List.replicate size (0 : UInt8) ++ List.replicate ((bytes text).length + 1 - size) 0).length := by
      simp only [List.length_append, List.length_replicate]
      omega
    have hf := writeJson_fits hm (b := ⟨_, (bytes text).length + 1⟩) hlen
    simp only [jsonReply, jsonShim, hw, hf, hlt, and_self, if_true]
    exact ⟨cString_bytes hn _, .inr trivial⟩

end Buffer

/-- A JSON method of a node that reports one value: the text of the value, or the
error where that is over the limit. -/
theorem exec_jsonCall {c : Codec} {v : Json} {text : String} (hm : c.marshal v = some text) (hn : 0 ∉ bytes text)
    (call : Int → Nat → ShimCall) {size : Nat} (hs : size ≤ maxMeshJson) (what errmsg : String) (b : MeshBackend) :
    ((jsonCall call size what (jsonReply c size (some v) (some v) errmsg)).exec b).1 =
      if maxMeshJson < (bytes text).length + 1 then
        .error (.io ("Tunnel: mesh " ++ what ++ " status is implausibly large; aborting."))
      else .ok (.json text) := by
  obtain ⟨hj, ⟨hrc, hfit⟩ | ⟨hrc, hrc₂, hneed, hlt⟩⟩ := jsonReply_text hm hn size errmsg
  · have hle : ¬maxMeshJson < (bytes text).length + 1 := by omega
    have hasked : ¬((0 : Int) = 2 ∧ size < (jsonReply c size (some v) (some v) errmsg).need) := by simp
    simp only [jsonCall, issue, Throws.exec_bind, Throws.exec_get, Throws.exec_modify, hrc, if_neg hasked, if_neg hle,
      jsonAnswer, hj, ne_eq, not_true_eq_false, if_false, Throws.exec_pure]
  · rw [hneed] at hlt
    by_cases hbig : maxMeshJson < (bytes text).length + 1
    · simp only [jsonCall, issue, Throws.exec_bind, Throws.exec_get, Throws.exec_modify, hrc, hneed, hlt, and_self,
        if_true, if_pos hbig, Throws.exec_throw]
    · simp only [jsonCall, issue, Throws.exec_bind, Throws.exec_get, Throws.exec_modify, hrc, hneed, hlt, and_self,
        if_true, if_neg hbig, jsonAnswer, hrc₂, hj, ne_eq, not_true_eq_false, if_false, Throws.exec_pure]

/-- After `EnsureUp` has returned, a method goes on. -/
theorem exec_afterUp {α : Type} {o : UpOutcome} {b : MeshBackend} (hup : ((ensureUp o).exec b).1 = .ok ())
    (m : BackendM α) : ((ensureUp o >>= fun _ => m).exec b) = m.exec ((ensureUp o).exec b).2 := by
  rw [Throws.exec_bind]
  rcases hx : (ensureUp o).exec b with ⟨r, b'⟩
  rw [hx] at hup
  cases hup
  rfl

theorem exec_peersJson {c : Codec} {v : Json} {text : String} {o : UpOutcome} {b : MeshBackend}
    (hup : ((ensureUp o).exec b).1 = .ok ()) (hm : c.marshal v = some text) (hn : 0 ∉ bytes text) (errmsg : String) :
    ((peersJson c o (some v) (some v) errmsg).exec b).1 =
      if maxMeshJson < (bytes text).length + 1 then
        .error (.io "Tunnel: mesh peer status is implausibly large; aborting.")
      else .ok (.json text) := by
  rw [peersJson, exec_afterUp hup]
  exact exec_jsonCall hm hn .peersJson (by decide) "peer" errmsg _

theorem exec_selfJson {c : Codec} {v : Json} {text : String} {o : UpOutcome} {b : MeshBackend}
    (hup : ((ensureUp o).exec b).1 = .ok ()) (hm : c.marshal v = some text) (hn : 0 ∉ bytes text) (errmsg : String) :
    ((selfJson c o (some v) (some v) errmsg).exec b).1 =
      if maxMeshJson < (bytes text).length + 1 then
        .error (.io "Tunnel: mesh self status is implausibly large; aborting.")
      else .ok (.json text) := by
  rw [selfJson, exec_afterUp hup]
  exact exec_jsonCall hm hn .selfJson (by decide) "self" errmsg _

/-! ## The records -/

/-- `MeshPeer`, and `peerJSON` of the shims, which has the same fields. -/
structure MeshPeer where
  backend : String
  hostName : String
  dnsName : String
  meshIp : String
  tags : List String
  online : Bool
  deriving DecidableEq, Repr

/-- `peerJSON`, marshalled in the order of its fields. -/
def peerJson (r : MeshPeer) : Json :=
  .obj [("backend", .str r.backend), ("host_name", .str r.hostName), ("dns_name", .str r.dnsName),
    ("mesh_ip", .str r.meshIp), ("tags", .arr (r.tags.map .str)), ("online", .bool r.online)]

/-- The map that the NetBird shim marshals for itself, whose keys come out sorted. -/
def selfMap (r : MeshPeer) : Json :=
  .obj [("backend", .str r.backend), ("dns_name", .str r.dnsName), ("host_name", .str r.hostName),
    ("mesh_ip", .str r.meshIp), ("online", .bool r.online), ("tags", .arr (r.tags.map .str))]

/-- `JsonStr`. -/
def jsonStr (fields : List (String × Json)) (key : String) : String :=
  match fields.lookup key with
  | some (.str s) => s
  | _ => ""

/-- The strings of an array; what is not a string is passed over. -/
def Json.strings : List Json → List String
  | [] => []
  | .str s :: xs => s :: strings xs
  | _ :: xs => strings xs

/-- A row of `ParseMeshPeersJson`, of one object. -/
def meshPeer (fields : List (String × Json)) : MeshPeer where
  backend := jsonStr fields "backend"
  hostName := jsonStr fields "host_name"
  dnsName := jsonStr fields "dns_name"
  meshIp := jsonStr fields "mesh_ip"
  tags :=
    match fields.lookup "tags" with
    | some (.arr xs) => Json.strings xs
    | _ => []
  online :=
    match fields.lookup "online" with
    | some (.bool true) => true
    | _ => false

/-- The rows of the objects in an array; what is not an object is passed over. -/
def meshPeers : List Json → List MeshPeer
  | [] => []
  | .obj fields :: xs => meshPeer fields :: meshPeers xs
  | _ :: xs => meshPeers xs

def parseMeshPeersJson (c : Codec) (json : String) : List MeshPeer :=
  if json = "" then []
  else
    match c.read json with
    | some (.arr xs) => meshPeers xs
    | _ => []

theorem strings_map_str (tags : List String) : Json.strings (tags.map .str) = tags := by
  induction tags with
  | nil => rfl
  | cons s tags ih => rw [List.map_cons, Json.strings, ih]

theorem meshPeers_peerJson (r : MeshPeer) (xs : List Json) : meshPeers (peerJson r :: xs) = r :: meshPeers xs := by
  rcases r with ⟨backend, hostName, dnsName, meshIp, tags, online⟩
  cases online <;> simp [peerJson, meshPeers, meshPeer, jsonStr, List.lookup_cons, strings_map_str]

theorem meshPeers_selfMap (r : MeshPeer) (xs : List Json) : meshPeers (selfMap r :: xs) = r :: meshPeers xs := by
  rcases r with ⟨backend, hostName, dnsName, meshIp, tags, online⟩
  cases online <;> simp [selfMap, meshPeers, meshPeer, jsonStr, List.lookup_cons, strings_map_str]

theorem meshPeers_map_peerJson (rows : List MeshPeer) : meshPeers (rows.map peerJson) = rows := by
  induction rows with
  | nil => rfl
  | cons r rows ih => rw [List.map_cons, meshPeers_peerJson, ih]

/-- The parser on what was marshalled from an array. -/
theorem parse_of_inverse {c : Codec} {xs : List Json} {text : String} (h : c.Inverse (.arr xs) text) :
    parseMeshPeersJson c text = meshPeers xs := by
  rw [parseMeshPeersJson, if_neg h.nonempty, h.read]

/-- Peer status survives the ABI: the rows that are read from `PeersJson` are the
records that were marshalled, for every list of them up to the limit; and the row
that is read from `SelfJson` in brackets is the record of the node itself, of
either shim, where `SelfJson` throws exactly over the limit. -/
theorem peer_status_survives (c : Codec) (o : UpOutcome) (b : MeshBackend) (errmsg : String)
    (hup : ((ensureUp o).exec b).1 = .ok ()) :
    (∀ rows text, c.Inverse (.arr (rows.map peerJson)) text → (bytes text).length + 1 ≤ maxMeshJson →
      ∃ json, ((peersJson c o (some (.arr (rows.map peerJson))) (some (.arr (rows.map peerJson))) errmsg).exec b).1 =
          .ok (.json json) ∧
        parseMeshPeersJson c json = rows) ∧
    ∀ r v text, v = peerJson r ∨ v = selfMap r → c.Inverse v text → c.Inverse (.arr [v]) ("[" ++ text ++ "]") →
      (maxMeshJson < (bytes text).length + 1 → ((selfJson c o (some v) (some v) errmsg).exec b).1 =
        .error (.io "Tunnel: mesh self status is implausibly large; aborting.")) ∧
      ((bytes text).length + 1 ≤ maxMeshJson →
        ∃ json, ((selfJson c o (some v) (some v) errmsg).exec b).1 = .ok (.json json) ∧
          parseMeshPeersJson c ("[" ++ json ++ "]") = [r]) := by
  constructor
  · intro rows text h hsize
    have hle : ¬maxMeshJson < (bytes text).length + 1 := by omega
    refine ⟨text, ?_, ?_⟩
    · rw [exec_peersJson hup h.marshal h.noNul, if_neg hle]
    · rw [parse_of_inverse h, meshPeers_map_peerJson]
  · intro r v text hv h hbracket
    have hcall := exec_selfJson hup h.marshal h.noNul errmsg
    refine ⟨fun hbig => by rw [hcall, if_pos hbig], fun hsize => ⟨text, ?_, ?_⟩⟩
    · have hle : ¬maxMeshJson < (bytes text).length + 1 := by omega
      rw [hcall, if_neg hle]
    · rw [parse_of_inverse hbracket]
      rcases hv with rfl | rfl
      · exact meshPeers_peerJson r []
      · exact meshPeers_selfMap r []

/-- A record with a NUL, quotes and a backslash in it. -/
def oddPeer : MeshPeer := ⟨"tailscale", "a\x00b", "say \"hi\"", "100.64.0.1", ["back\\slash"], true⟩

/-- Its text, in which they are escaped. -/
def oddText : String :=
  "\x7b\"backend\":\"tailscale\",\"host_name\":\"a\\u0000b\",\"dns_name\":\"say \\\"hi\\\"\"," ++
    "\"mesh_ip\":\"100.64.0.1\",\"tags\":[\"back\\\\slash\"],\"online\":true\x7d"

/-- The libraries, as far as one object and the array of it go. -/
def oneCodec (v : Json) (text : String) : Codec where
  marshal w :=
    match w with
    | .arr _ => some ("[" ++ text ++ "]")
    | _ => some text
  read t := if t = "[" ++ text ++ "]" then some (.arr [v]) else if t = text then some v else none

def oddCodec : Codec := oneCodec (peerJson oddPeer) oddText

theorem oddCodec_arr : oddCodec.Inverse (.arr [peerJson oddPeer]) ("[" ++ oddText ++ "]") where
  marshal := rfl
  read := by simp only [oddCodec, oneCodec, if_true]
  nonempty := by decide +kernel
  noNul := by decide +kernel

theorem oddCodec_obj : oddCodec.Inverse (peerJson oddPeer) oddText where
  marshal := rfl
  read := by
    have hne : oddText ≠ "[" ++ oddText ++ "]" := by decide +kernel
    simp only [oddCodec, oneCodec, if_neg hne, if_true]
  nonempty := by decide +kernel
  noNul := by decide +kernel

/-- A backend whose node is up. -/
def upBackend : MeshBackend :=
  { MeshBackend.new ⟨.tailscale, "", "", "", "", "", "", "", "", false⟩ with node := 1, up := true }

/-- What `EnsureUp` would be answered, were it to ask. -/
def unasked : UpOutcome := ⟨.error (.internal ""), 1, 0, ""⟩

theorem oddPeer_survives :
    ∃ peers self,
      ((peersJson oddCodec unasked (some (.arr [peerJson oddPeer])) (some (.arr [peerJson oddPeer])) "").exec
        upBackend).1 = .ok (.json peers) ∧
      parseMeshPeersJson oddCodec peers = [oddPeer] ∧
      ((selfJson oddCodec unasked (some (peerJson oddPeer)) (some (peerJson oddPeer)) "").exec upBackend).1 =
        .ok (.json self) ∧
      parseMeshPeersJson oddCodec ("[" ++ self ++ "]") = [oddPeer] := by
  have hup : ((ensureUp unasked).exec upBackend).1 = .ok () := rfl
  obtain ⟨hpeers, hself⟩ := peer_status_survives oddCodec unasked upBackend "" hup
  obtain ⟨peers, hp, hrows⟩ := hpeers [oddPeer] _ oddCodec_arr (by decide +kernel)
  obtain ⟨self, hs, hrow⟩ := (hself oddPeer _ _ (.inl rfl) oddCodec_obj oddCodec_arr).2 (by decide +kernel)
  exact ⟨peers, self, hp, hrows, hs, hrow⟩

end ErplTunnel.Mesh

import ErplTunnel.Mesh.BringUp
import ErplTunnel.Mesh.Cache
import ErplTunnel.Shim.Tags

/-!
# The options of a node, from the secret to the mesh

The values of a secret go to the shim one by one, as C strings under the keys of
`mesh_set_str`, and `mesh_up` makes its `tsnet.Server` or its NetBird client of
what the node has by then. Each shim knows some of the keys and ignores the
others; `reg[h]` is what the calls of the backend so far have made of it
(`Abi.node`).

`options_arrive`: over every run of a backend, `mesh_up` is only ever called on a
node that has all the values of the secret, up to their first NUL, and nothing
else.
-/

namespace ErplTunnel.Shim

open Mesh (ShimCall MeshOptions MeshBackend BackendM KeyValueSecret Sys optionCalls)

/-- `C.GoString` of `s.c_str()`. -/
def goString (s : String) : GoString := (lit s).takeWhile (· ≠ 0)

/-- What `mesh_up` does before it asks the library for anything. -/
inductive Up (α : Type) where
  | already
  | refused (lastErr : GoString)
  | makes (a : α)
  deriving DecidableEq, Repr

/-! ## ts -/

/-- The fields of `tsnet.Server` that `mesh_up` sets. -/
structure TsServer where
  hostname : GoString
  authKey : GoString
  dir : GoString
  ephemeral : Bool
  controlURL : GoString
  advertiseTags : List GoString
  deriving DecidableEq, Repr

/-- `node` in `ts/main.go`, as far as `mesh_up` reads it. -/
structure TsNode where
  authKey : GoString
  hostname : GoString
  tags : GoString
  controlURL : GoString
  stateDir : GoString
  ephemeral : Bool
  up : Bool
  deriving DecidableEq, Repr

namespace TsNode

variable (n : TsNode)

def new : TsNode := ⟨[], [], [], [], [], false, false⟩

def setStr (k : String) (v : GoString) : TsNode :=
  if k = "auth_key" then { n with authKey := v }
  else if k = "hostname" then { n with hostname := v }
  else if k = "tags" then { n with tags := v }
  else if k = "control_url" then { n with controlURL := v }
  else if k = "state_dir" then { n with stateDir := v }
  else n

def setBool (k : String) (v : Int) : TsNode := if k = "ephemeral" then { n with ephemeral := v ≠ 0 } else n

def noAuthKey : GoString :=
  lit ("Tailscale: no auth key set. Generate a reusable, tagged key at " ++
    "https://login.tailscale.com/admin/settings/keys and set auth_key on the secret.")

def noStateDir : GoString := lit "Tailscale: cannot create state dir: "

/-- `mesh_up`, with what `MkdirTemp` answers. -/
def meshUp (mkdirTemp : Except GoString GoString) : Up TsServer :=
  if n.up then .already
  else if n.authKey = [] then .refused noAuthKey
  else
    match (if n.stateDir = [] then mkdirTemp else .ok n.stateDir) with
    | .error err => .refused (noStateDir ++ err)
    | .ok dir => .makes
      { hostname := n.hostname, authKey := n.authKey, dir, ephemeral := n.ephemeral, controlURL := n.controlURL
        advertiseTags := parseTags n.tags }

end TsNode

/-! ## nb -/

/-- `nbembed.Options`. -/
structure NbOptions where
  deviceName : GoString
  setupKey : GoString
  managementURL : GoString
  statePath : GoString
  deriving DecidableEq, Repr

/-- `node` in `nb/main.go`, as far as an option is kept in it. -/
structure NbNode where
  setupKey : GoString
  hostname : GoString
  groups : GoString
  mgmtURL : GoString
  statePath : GoString
  ephemeral : Bool
  up : Bool
  deriving DecidableEq, Repr

namespace NbNode

variable (n : NbNode)

def new : NbNode := ⟨[], [], [], [], [], false, false⟩

def setStr (k : String) (v : GoString) : NbNode :=
  if k = "setup_key" then { n with setupKey := v }
  else if k = "hostname" then { n with hostname := v }
  else if k = "groups" then { n with groups := v }
  else if k = "mgmt_url" ∨ k = "management_url" then { n with mgmtURL := v }
  else if k = "state_dir" then { n with statePath := v }
  else n

def setBool (k : String) (v : Int) : NbNode := if k = "ephemeral" then { n with ephemeral := v ≠ 0 } else n

def noSetupKey : GoString :=
  lit ("NetBird: no setup key set. Create one in the NetBird dashboard " ++
    "(Setup Keys) and set setup_key on the secret.")

def noStateDir : GoString := lit "NetBird: cannot create state dir: "

/-- `mesh_up`, with `state.json` in the directory that `MkdirTemp` answers. -/
def meshUp (mkdirTemp : Except GoString GoString) : Up NbOptions :=
  if n.up then .already
  else if n.setupKey = [] then .refused noSetupKey
  else
    match (if n.statePath = [] then mkdirTemp else .ok n.statePath) with
    | .error err => .refused (noStateDir ++ err)
    | .ok statePath => .makes
      { deviceName := n.hostname, setupKey := n.setupKey, managementURL := n.mgmtURL, statePath }

end NbNode

/-! ## The ABI -/

/-- What the calls of the ABI make of a node. -/
structure Abi (σ : Type) where
  new : σ
  setStr : String → GoString → σ → σ
  setBool : String → Int → σ → σ
  /-- `mesh_up` has returned 0. -/
  setUp : σ → σ

def ts : Abi TsNode := ⟨.new, fun k v n => n.setStr k v, fun k v n => n.setBool k v, fun n => { n with up := true }⟩

def nb : Abi NbNode := ⟨.new, fun k v n => n.setStr k v, fun k v n => n.setBool k v, fun n => { n with up := true }⟩

namespace Abi

variable {σ : Type} (abi : Abi σ) (h : Int)

/-- `reg[h]` after a call. -/
def exec (node : Option σ) : ShimCall → Option σ
  | .new h' => if h' = h then some abi.new else node
  | .setStr h' k v => if h' = h then node.map (abi.setStr k (goString v)) else node
  | .setBool h' k v => if h' = h then node.map (abi.setBool k v) else node
  | .up h' rc => if h' = h ∧ rc = 0 then node.map abi.setUp else node
  | .close h' => if h' = h then none else node
  | _ => node

/-- `reg[h]` after calls. -/
def node (cs : List ShimCall) : Option σ := cs.foldl (abi.exec h) none

/-- The text options of a backend, in the order in which it sets them. -/
def texts (o : MeshOptions) : List (String × String) :=
  [("auth_key", o.authKey), ("setup_key", o.setupKey), ("hostname", o.hostname), ("tags", o.tags),
    ("groups", o.groups), ("control_url", o.controlUrl), ("mgmt_url", o.mgmtUrl), ("state_dir", o.stateDir)]

/-- A text that is empty is not set. -/
def setText (n : σ) (kv : String × String) : σ := if kv.2 = "" then n else abi.setStr kv.1 (goString kv.2) n

/-- The node with the options of a backend. -/
def configured (o : MeshOptions) : σ :=
  abi.setBool "ephemeral" (if o.ephemeral then 1 else 0) ((texts o).foldl abi.setText abi.new)

variable {abi : Abi σ} {h : Int}

theorem goString_empty : goString "" = [] := by decide

/-- To set a text, empty or not. -/
theorem setText_eq {n : σ} {k v : String} (hn : abi.setStr k [] n = n) :
    abi.setText n (k, v) = abi.setStr k (goString v) n := by
  rw [setText]
  split
  case isTrue hv =>
    rw [show v = "" from hv, goString_empty]
    exact hn.symm
  case isFalse => rfl

theorem node_append (cs ds : List ShimCall) : abi.node h (cs ++ ds) = ds.foldl (abi.exec h) (abi.node h cs) :=
  List.foldl_append ..

theorem foldl_setStr (kvs : List (String × String)) (n : σ) :
    (kvs.map fun kv => ShimCall.setStr h kv.1 kv.2).foldl (abi.exec h) (some n) =
      some (kvs.foldl (fun n kv => abi.setStr kv.1 (goString kv.2) n) n) := by
  induction kvs generalizing n with
  | nil => rfl
  | cons kv kvs ih =>
    rw [List.map_cons, List.foldl_cons, exec, if_pos rfl]
    exact ih _

/-- What `EnsureUp` sets on a new node. -/
theorem foldl_optionCalls (o : MeshOptions) :
    (optionCalls o h).foldl (abi.exec h) (some abi.new) = some (abi.configured o) := by
  show (((texts o).filter fun kv : String × String => kv.2 ≠ "").map
    (fun kv : String × String => ShimCall.setStr h kv.1 kv.2) ++ [_]).foldl _ _ = _
  have hset : (fun n kv => if decide (kv.2 ≠ "") = true then abi.setStr kv.1 (goString kv.2) n else n) =
      abi.setText := by
    funext n kv
    by_cases hv : kv.2 = "" <;> simp [setText, hv]
  rw [List.foldl_append, foldl_setStr, List.foldl_filter, hset, List.foldl_cons, List.foldl_nil, exec, if_pos rfl,
    configured]
  rfl

end Abi

theorem ts_configured (o : MeshOptions) : ts.configured o =
    ⟨goString o.authKey, goString o.hostname, goString o.tags, goString o.controlUrl, goString o.stateDir,
      o.ephemeral, false⟩ := by
  rw [Abi.configured, Abi.texts]
  iterate 8 rw [List.foldl_cons, Abi.setText_eq (by simp [ts, TsNode.new, TsNode.setStr])]
  simp [ts, TsNode.new, TsNode.setStr, TsNode.setBool]

theorem nb_configured (o : MeshOptions) : nb.configured o =
    ⟨goString o.setupKey, goString o.hostname, goString o.groups, goString o.mgmtUrl, goString o.stateDir,
      o.ephemeral, false⟩ := by
  rw [Abi.configured, Abi.texts]
  iterate 8 rw [List.foldl_cons, Abi.setText_eq (by simp [nb, NbNode.new, NbNode.setStr])]
  simp [nb, NbNode.new, NbNode.setStr, NbNode.setBool]

/-! ## The calls of a method -/

/-- A call that changes no option of a node, and neither makes nor closes one. -/
def Asks : ShimCall → Prop
  | .dial .. | .meshExport .. | .meshUnexport .. | .peersJson .. | .selfJson .. | .errmsg _ => True
  | _ => False

/-- A part of a method that does nothing else. -/
def Only {α : Type} (x : BackendM α) : Prop :=
  ∀ b : MeshBackend, ∃ cs, (x.exec b).2 = { b with calls := b.calls ++ cs } ∧ ∀ c ∈ cs, Asks c

namespace Only

variable {α β : Type}

theorem pure (a : α) : Only (pure a : BackendM α) := fun _ => ⟨[], by simp, by simp⟩

theorem throw (e : Mesh.TunnelError) : Only (throw e : BackendM α) := fun _ => ⟨[], by simp, by simp⟩

theorem issue {c : ShimCall} (hc : Asks c) : Only (Mesh.issue c) := fun _ => ⟨[c], rfl, by simpa using hc⟩

theorem bind {x : BackendM α} {f : α → BackendM β} (hx : Only x) (hf : ∀ a, Only (f a)) : Only (x >>= f) := by
  intro b
  obtain ⟨cs, he, hcs⟩ := hx b
  rw [Throws.exec_bind]
  rcases hxb : x.exec b with ⟨e | a, b'⟩
  all_goals rw [hxb] at he; subst he
  · exact ⟨cs, rfl, hcs⟩
  · obtain ⟨ds, he', hds⟩ := hf a { b with calls := b.calls ++ cs }
    refine ⟨cs ++ ds, by simp [he'], fun c hc => ?_⟩
    exact (List.mem_append.mp hc).elim (hcs c) (hds c)

theorem get {f : MeshBackend → BackendM α} (hf : ∀ b, Only (f b)) : Only (get >>= f) := by
  intro b
  obtain ⟨cs, he, hcs⟩ := hf b b
  exact ⟨cs, by simpa using he, hcs⟩

theorem throwLast (text : String) : Only (Mesh.throwLast text) := by
  refine .bind (.get fun b => ?_) fun _ => .throw _
  split
  · exact .pure _
  · exact .bind (.issue trivial) fun _ => .pure _

theorem jsonAnswer (rc : Int) (r : Mesh.Reply) : Only (Mesh.jsonAnswer rc r) := by
  unfold Mesh.jsonAnswer
  split
  · exact throwLast _
  · exact .pure _

theorem jsonCall {f : Int → Nat → ShimCall} (hf : ∀ n k, Asks (f n k)) (size : Nat) (what : String) (r : Mesh.Reply) :
    Only (Mesh.jsonCall f size what r) := by
  refine .get fun b => .bind (.issue (hf _ _)) fun _ => ?_
  split
  · split
    · exact .throw _
    · exact .bind (.issue (hf _ _)) fun _ => jsonAnswer _ _
  · exact jsonAnswer _ _

/-- The rest of a method, after `EnsureUp`. -/
theorem resume (m : Mesh.Method) (r : Mesh.Reply) : Only (Mesh.resume m r) := by
  cases m with
  | ensureUp => exact .pure _
  | dial host port =>
    refine .get fun b => .bind (.issue trivial) fun _ => ?_
    split
    · split
      · exact throwLast _
      · exact .pure _
    · exact throwLast _
  | meshExport meshPort localHost localPort =>
    refine .get fun b => .bind (.issue trivial) fun _ => ?_
    split
    · exact throwLast _
    · exact .pure _
  | peersJson => exact jsonCall (f := .peersJson) (fun _ _ => trivial) _ _ _
  | selfJson => exact jsonCall (f := .selfJson) (fun _ _ => trivial) _ _ _

theorem unexport (handle : Int) : Only (Mesh.unexport handle) := by
  refine .get fun b => ?_
  split
  · exact .issue trivial
  · exact .pure _

end Only

/-! ## Every run -/

section

variable {σ : Type} {abi : Abi σ} {o : MeshOptions} {b : MeshBackend}

theorem Abi.node_asks {h : Int} {cs ds : List ShimCall} (hds : ∀ c ∈ ds, Asks c) :
    abi.node h (cs ++ ds) = abi.node h cs := by
  induction ds generalizing cs with
  | nil => rw [List.append_nil]
  | cons c ds ih =>
    have hc : abi.exec h (abi.node h cs) c = abi.node h cs := by
      have := hds c List.mem_cons_self
      cases c with
      | dial | meshExport | meshUnexport | peersJson | selfJson | errmsg => rfl
      | _ => exact this.elim
    rw [List.append_cons, ih fun d hd => hds d (List.mem_cons_of_mem _ hd), Abi.node_append, List.foldl_cons, hc]
    rfl

/-- A `mesh_up` is called on a node with the options `o`. -/
def Arrives (abi : Abi σ) (o : MeshOptions) (cs : List ShimCall) (c : ShimCall) : Prop :=
  ∀ n rc, c = .up n rc → abi.node n cs = some (abi.configured o)

/-- Until it is up, the node of a backend has its options. -/
structure Held (abi : Abi σ) (o : MeshOptions) (b : MeshBackend) : Prop where
  opts : b.opts = o
  ups : Trace.Each (Arrives abi o) b.calls
  node : 0 < b.node → b.up = false → abi.node b.node b.calls = some (abi.configured o)

namespace Held

theorem new (o : MeshOptions) : Held abi o (.new o) := ⟨rfl, Trace.each_nil, fun h => absurd h (Int.lt_irrefl 0)⟩

theorem ups_asks {cs ds : List ShimCall} (h : Trace.Each (Arrives abi o) cs) (hds : ∀ c ∈ ds, ∀ n rc, c ≠ .up n rc) :
    Trace.Each (Arrives abi o) (cs ++ ds) := by
  induction ds generalizing cs with
  | nil => rwa [List.append_nil]
  | cons c ds ih =>
    rw [List.append_cons]
    refine ih (Trace.each_snoc.mpr ⟨h, fun n rc he => ?_⟩) fun d hd => hds d (List.mem_cons_of_mem _ hd)
    exact absurd he (hds c List.mem_cons_self n rc)

theorem only (h : Held abi o b) {α : Type} {x : BackendM α} (hx : Only x) : Held abi o (x.exec b).2 := by
  obtain ⟨cs, he, hcs⟩ := hx b
  rw [he]
  refine ⟨h.opts, ups_asks h.ups fun c hc n rc hup => ?_, fun hn hu => ?_⟩
  · rw [hup] at hc
    exact hcs _ hc
  · show abi.node b.node (b.calls ++ cs) = _
    rw [Abi.node_asks hcs]
    exact h.node hn hu

theorem destroy (h : Held abi o b) : Held abi o (Mesh.destroy.exec b).2 := by
  by_cases hc : b.api ≠ none ∧ 0 < b.node
  · have he : (Mesh.destroy.exec b).2 = { b with node := 0, calls := b.calls ++ [.close b.node] } := by
      simp [Mesh.destroy, Mesh.issue, hc]
    rw [he]
    exact ⟨h.opts, ups_asks h.ups (by simp), fun hp => absurd hp (Int.lt_irrefl 0)⟩
  · have he : (Mesh.destroy.exec b).2 = b := by
      simp only [Mesh.destroy, Throws.exec_bind, Throws.exec_get, hc, ↓reduceIte, Throws.exec_pure]
    rwa [he]

/-- The node that `mesh_new` has just given, with its options. -/
theorem configure (h : Held abi o b) (api : Option Mesh.MeshApi) (n : Int) : Held abi o { b with
    api, node := n, calls := b.calls ++ [.new n] ++ optionCalls b.opts n } where
  opts := h.opts
  ups := by
    refine ups_asks (ups_asks h.ups (by simp)) fun c hc n rc he => ?_
    rw [he] at hc
    exact (Mesh.plain_of_mem_optionCalls hc).1
  node _ _ := by
    show abi.node n (b.calls ++ [.new n] ++ optionCalls b.opts n) = _
    rw [Abi.node_append, Abi.node_append, List.foldl_cons, List.foldl_nil, Abi.exec, if_pos rfl,
      Abi.foldl_optionCalls, h.opts]

/-- `mesh_up`, of a node that is not up. -/
theorem up (h : Held abi o b) (hn : 0 < b.node) (hu : b.up = false) (rc : Int) :
    Held abi o { b with calls := b.calls ++ [.up b.node rc], up := decide (rc = 0) } where
  opts := h.opts
  ups := by
    refine Trace.each_snoc.mpr ⟨h.ups, fun n rc he => ?_⟩
    cases he
    exact h.node hn hu
  node _ hd := by
    show abi.node b.node (b.calls ++ [.up b.node rc]) = _
    rw [Abi.node_append, List.foldl_cons, List.foldl_nil, Abi.exec, if_neg fun hc => of_decide_eq_false hd hc.2]
    exact h.node hn hu

theorem ensureUp (h : Held abi o b) (out : Mesh.UpOutcome) : Held abi o ((Mesh.ensureUp out).exec b).2 := by
  obtain ⟨-, hr⟩ | ⟨-, e, hr⟩ | ⟨hu, hn, hf, e, api, hr⟩ | ⟨hu, api, b', hb', hr⟩ := Mesh.ensureUp_cases out b
  · rw [hr]
    exact h
  · rw [hr]
    exact h
  · rw [hr]
    exact ⟨h.opts, ups_asks h.ups (by simp), fun hp => absurd hp hf⟩
  -- `b'` has a node with its options, and `mesh_up` is next
  have hb : Held abi o b' ∧ 0 < b'.node ∧ b'.up = false := by
    obtain ⟨hn, rfl⟩ | ⟨-, hp, rfl⟩ := hb'
    · exact ⟨⟨h.opts, h.ups, h.node⟩, hn, hu⟩
    · exact ⟨h.configure (some api) out.node, hp, hu⟩
  obtain ⟨hh, hn, hu'⟩ := hb
  have hup := hh.up hn hu' out.rc
  obtain ⟨hrc, hr⟩ | ⟨hrc, e, hr⟩ := hr
  · rw [hr]
    rwa [decide_eq_true hrc] at hup
  · rw [hr]
    rw [decide_eq_false hrc, ← hu'] at hup
    exact hup.only (Only.issue (c := .errmsg b'.node) trivial)

end Held

variable {s s' : Sys}

theorem held_step (h : Held abi o s.backend) {e : Mesh.Ev} (hs : s.step e = some s') : Held abi o s'.backend := by
  cases e with
  | call m out =>
    have he := h.ensureUp out
    simp only [Sys.step] at hs
    split at hs
    · cases hs
    split at hs
    case h_1 hr | h_2 hr =>
      rw [hr] at he
      obtain rfl := Option.some.inj hs
      exact he
  | resume i r =>
    simp only [Sys.step] at hs
    split at hs
    case h_1 m hm =>
      obtain rfl := Option.some.inj hs
      exact h.only (.resume m r)
    case h_2 => cases hs
  | unexport handle =>
    simp only [Sys.step] at hs
    split at hs
    · cases hs
    · obtain rfl := Option.some.inj hs
      exact h.only (.unexport handle)
  | destroy =>
    simp only [Sys.step] at hs
    split at hs
    · cases hs
    · obtain rfl := Option.some.inj hs
      exact h.destroy

/-- Every `mesh_up` of a run is called on a node with the options of the backend. -/
theorem arrives {es : List Mesh.Ev} (hr : Lts.Run Sys.step (.start o) es s) :
    Trace.Each (Arrives abi o) s.backend.calls :=
  (hr.inv (P := fun s => Held abi o s.backend) (fun _ _ _ h hs => held_step h hs) (.new o)).ups

end

/-- What a secret asks of Tailscale. -/
def tsAsked (secret : KeyValueSecret) (mkdirTemp : Except GoString GoString) : Up TsServer :=
  let get := fun k => goString (secret.get k)
  if get "auth_key" = [] then .refused TsNode.noAuthKey
  else
    match (if get "state_dir" = [] then mkdirTemp else .ok (get "state_dir")) with
    | .error err => .refused (TsNode.noStateDir ++ err)
    | .ok dir => .makes
      { hostname := get "hostname", authKey := get "auth_key", dir, controlURL := get "control_url"
        ephemeral := secret.get "ephemeral" = "true" || secret.get "ephemeral" = "1"
        advertiseTags := parseTags (get "tags") }

/-- What a secret asks of NetBird. -/
def nbAsked (secret : KeyValueSecret) (mkdirTemp : Except GoString GoString) : Up NbOptions :=
  let get := fun k => goString (secret.get k)
  if get "setup_key" = [] then .refused NbNode.noSetupKey
  else
    match (if get "state_dir" = [] then mkdirTemp else .ok (get "state_dir")) with
    | .error err => .refused (NbNode.noStateDir ++ err)
    | .ok statePath => .makes
      { deviceName := get "hostname", setupKey := get "setup_key", managementURL := get "management_url", statePath }

/-- In every run of the backend of a secret, whatever the shim returns, each
`mesh_up` makes its server, or its client, of the values of the secret, or
refuses for want of a key. -/
theorem options_arrive (secret : KeyValueSecret) (es : List Mesh.Ev) (s : Sys)
    (hr : Lts.Run Sys.step (.start secret.options) es s) (cs ds : List ShimCall) (n rc : Int)
    (hup : s.backend.calls = cs ++ .up n rc :: ds) (mkdirTemp : Except GoString GoString) :
    (ts.node n cs).map (·.meshUp mkdirTemp) = some (tsAsked secret mkdirTemp) ∧
    (nb.node n cs).map (·.meshUp mkdirTemp) = some (nbAsked secret mkdirTemp) := by
  constructor
  · rw [arrives hr cs _ ds hup n rc rfl, ts_configured]
    rfl
  · rw [arrives hr cs _ ds hup n rc rfl, nb_configured]
    rfl

/-- A tailnet, with a name that has a NUL in it. -/
def tailnet : KeyValueSecret :=
  ⟨"tunnel", [("backend", "tailscale"), ("auth_key", "k"), ("hostname", "db\x00x"), ("ephemeral", "1")]⟩

/-- `mesh_up` fails, and is called again. -/
def upTwice : List Mesh.Ev :=
  [.call .selfJson ⟨.ok .null, 7, 1, "no control server"⟩, .call .selfJson ⟨.ok .null, 7, 0, ""⟩]

theorem options_arrive_twice : ∃ s cs ds, Lts.Run Sys.step (.start tailnet.options) upTwice s ∧
    s.backend.calls = cs ++ .up 7 0 :: ds ∧
    (ts.node 7 cs).map (·.meshUp (.ok (lit "/tmp"))) = some (.makes
      { hostname := lit "db", authKey := lit "k", dir := lit "/tmp", ephemeral := true, controlURL := []
        advertiseTags := [erplTunnelTag] }) := by
  refine ⟨_, [.new 7, .setStr 7 "auth_key" "k", .setStr 7 "hostname" "db\x00x", .setBool 7 "ephemeral" 1, .up 7 1,
    .errmsg 7], [], rfl, by decide, ?_⟩
  rw [(options_arrive tailnet upTwice _ rfl _ [] 7 0 (by decide) (.ok (lit "/tmp"))).1]
  decide

end ErplTunnel.Shim

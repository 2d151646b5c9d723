import ErplTunnel.Framework.Run
import ErplTunnel.Mesh.BringUp
import ErplTunnel.Mesh.Latch
import ErplTunnel.Mesh.NodeIdentity
import ErplTunnel.Pragma.Ports
import ErplTunnel.Pragma.Secret

/-!
# What a statement brings up

The statements that name a secret, in a build with the mesh: which backend the
secret sends them to, the node they are given of the cache, and `EnsureUp` of it,
which activates the shim. A process is the fold of its statements; what becomes
of a tunnel after that is nothing that a later statement depends on here.

`mesh_on_demand`: no statement loads a shim but one that needs it, all of them
use the one that was loaded first, and none goes on without a secret.
-/

namespace ErplTunnel.Pragma

open Lts
open Mesh (MeshKind TunnelError KeyValueSecret World MeshBackend MeshOptions Activation Outcome Build parseMeshKind)

/-- What statements change: the secrets and the cache of nodes, the `MeshBackend`
of each entry, and the loader. -/
structure Database where
  world : World
  backends : List MeshBackend
  loader : Mesh.Process

inductive Statement where
  /-- `CREATE OR REPLACE SECRET`. -/
  | createSecret (name : String) (secret : KeyValueSecret)
  | dropSecret (name : String)
  /-- `tunnel_import`, or `tunnel_create`. -/
  | tunnelImport (secret : String) (a : ImportArgs)
  | tunnelExport (secret : String) (a : ExportArgs)
  | tunnelPeers (secret : String)
  | tunnelSelf (secret : String)
  | tunnelMeshActivate (backend : String)

/-- What is answered during one statement. -/
structure Answers where
  /-- In `MeshLoader::Activate`. -/
  shim : Outcome
  /-- What `mesh_new` and `mesh_up` return, and what `mesh_errmsg` then writes. -/
  node : Int
  rc : Int
  errmsg : String
  /-- To an import, past `EnsureUp`. -/
  net : Network
  /-- The end of `CreateMeshExport` or `CreateSshExport`, of `PeersJson` or `SelfJson`. -/
  rest : Except TunnelError Unit

/-- What a statement returns, with the mesh that it uses. -/
inductive Done where
  | secrets
  | tunnel (mesh : MeshKind) (t : Tunnel)
  | exported (mesh : MeshKind)
  | status (mesh : MeshKind)
  | activated (mesh : MeshKind)

def Done.mesh : Done → MeshKind
  | .secrets => .none
  | .tunnel mesh _ | .exported mesh | .status mesh | .activated mesh => mesh

/-- The secrets that a statement stores. -/
def Statement.stores : Statement → List KeyValueSecret
  | .createSecret _ secret => [secret]
  | _ => []

/-- The arguments that `TunnelCreate` requires are there. -/
def ImportArgs.complete (a : ImportArgs) : Bool :=
  a.withDefaults.remoteHost ≠ "" && a.withDefaults.remotePort ≠ 0 && a.withDefaults.localPort ≠ 0

namespace Database

variable (b : Build) (fold : String → String) (db : Database)

def start : Database := ⟨.start, [], .init⟩

/-- `SecretMeshKind`. -/
def secretMeshKind (name : String) : MeshKind :=
  if name = "" then .none
  else
    match db.world.lookupTunnelSecret fold name with
    | none => .none
    | some secret => parseMeshKind (secret.get "backend")

/-- `TunnelAuthParams::FromContext`, of `*` where no secret is named. -/
def authParams (name : String) : Except TunnelError TunnelAuthParams :=
  let name := if name = "" then "*" else name
  match db.world.lookupTunnelSecret fold name with
  | some secret => .ok (convertTunnelSecretToAuthParams secret).toTunnelAuthParams
  | none =>
    if name = "*" then
      .error (.invalidInput ("Tunnel: no tunnel secret specified. Pass secret = '<name>' and create it " ++
        "first, e.g. CREATE SECRET s (TYPE ssh_tunnel, host '…', user '…', " ++
        "password '…'). Not defaulting to an anonymous localhost node."))
    else
      .error (.invalidInput ("Tunnel: secret '" ++ name ++ "' not found. Create it with " ++
        "CREATE SECRET " ++ name ++ " (TYPE ssh_tunnel, ssh_host '…', ssh_user '…', " ++
        "password '…' /* or private_key_path */). Not defaulting to an anonymous node."))

def secrets (name : String) : Secrets where
  name := name
  meshKind := db.secretMeshKind fold name
  meshBackend := (db.world.meshBackendFromSecret fold name).1.map fun _ => ()
  auth := db.authParams fold name

/-- `MeshBackendFromSecret`, which makes the backend of a new entry. -/
def meshBackend (name : String) : Except TunnelError Nat × Database :=
  let r := db.world.meshBackendFromSecret fold name
  (r.1, { db with
    world := r.2
    backends := db.backends ++ (r.2.cache.drop db.backends.length).map fun e => .new e.2 })

/-- `MeshBackend::EnsureUp`. -/
def ensureUp (i : Nat) (ans : Answers) : Except TunnelError MeshKind × Database :=
  match db.backends[i]? with
  -- what the cache gave out is there
  | none => (.error (.internal ""), db)
  | some backend =>
    if backend.up then (.ok backend.opts.kind, db)
    else
      let a := (Activation.mk backend.opts.kind ans.shim).run b db.loader
      let u := (Mesh.ensureUp ⟨a.1, ans.node, ans.rc, ans.errmsg⟩).exec backend
      (u.1.map fun _ => backend.opts.kind, { db with loader := a.2, backends := db.backends.set i u.2 })

/-- The node of a secret is up, or it throws. -/
def bringUp (name : String) (ans : Answers) : Except TunnelError MeshKind × Database :=
  match db.meshBackend fold name with
  | (.error e, db) => (.error e, db)
  | (.ok i, db) => db.ensureUp b i ans

/-- `f` with the kind of the node of a secret, once it is up. -/
def onMesh (name : String) (ans : Answers) (f : MeshKind → Except TunnelError Done) :
    Except TunnelError Done × Database :=
  match db.bringUp b fold name ans with
  | (.error e, db) => (.error e, db)
  | (.ok kind, db) => (f kind, db)

/-- A statement: what it returns or throws, and the process after it. -/
def exec (ans : Answers) : Statement → Except TunnelError Done × Database
  | .createSecret name secret => (.ok .secrets, { db with world := db.world.exec fold (.createSecret name secret) })
  | .dropSecret name => (.ok .secrets, { db with world := db.world.exec fold (.dropSecret name) })
  | .tunnelImport name a =>
    if db.secretMeshKind fold name ≠ .none ∧ a.complete then
      db.onMesh b fold name ans fun kind =>
        (createMeshTunnel kind a.withDefaults { ans.net with up := none }).map (.tunnel kind)
    else ((tunnelCreate true (db.secrets fold name) a ans.net).map (.tunnel .none), db)
  | .tunnelExport name a =>
    match tunnelExport true (db.secrets fold name) a with
    | .error e => (.error e, db)
    | .ok (.mesh ..) => db.onMesh b fold name ans fun kind => ans.rest.map fun _ => .exported kind
    | .ok (.ssh ..) => (ans.rest.map fun _ => .exported .none, db)
  | .tunnelPeers name | .tunnelSelf name => db.onMesh b fold name ans fun kind => ans.rest.map fun _ => .status kind
  | .tunnelMeshActivate backend =>
    let kind := parseMeshKind backend
    if kind = .none then
      (.error (.invalidInput "tunnel_mesh_activate: backend must be 'tailscale' or 'netbird'."), db)
    else
      let a := (Activation.mk kind ans.shim).run b db.loader
      (a.1.map fun _ => .activated kind, { db with loader := a.2 })

/-- A process takes its statements one after another. -/
def step (x : Statement × Answers) : Option Database := some (db.exec b fold x.2 x.1).2

/-- The mesh that a statement asks for, by its secret as that is now or by name. -/
def asks : Statement → MeshKind
  | .createSecret .. | .dropSecret _ => .none
  | .tunnelImport name _ | .tunnelExport name _ | .tunnelPeers name | .tunnelSelf name => db.secretMeshKind fold name
  | .tunnelMeshActivate backend => parseMeshKind backend

/-- The secret that a statement goes by is not there. -/
def Unknown : Statement → Prop
  | .createSecret .. | .dropSecret _ | .tunnelMeshActivate _ => False
  | .tunnelImport name _ => db.world.lookupTunnelSecret fold (if name = "" then "*" else name) = none
  | .tunnelExport name _ | .tunnelPeers name | .tunnelSelf name =>
    name = "" ∨ db.world.lookupTunnelSecret fold name = none

variable {b : Build} {fold : String → String} {db db' : Database} {name : String} {ans : Answers} {st : Statement}

/-! ## The secret of a statement -/

theorem secretMeshKind_some {secret : KeyValueSecret} (hn : name ≠ "")
    (h : db.world.lookupTunnelSecret fold name = some secret) :
    db.secretMeshKind fold name = secret.options.kind := by
  simp only [secretMeshKind, if_neg hn, h]
  rfl

theorem secretMeshKind_unknown (h : name = "" ∨ db.world.lookupTunnelSecret fold name = none) :
    db.secretMeshKind fold name = .none := by
  rw [secretMeshKind]
  split
  case isTrue => rfl
  case isFalse hn => rw [h.resolve_left hn]

/-- A secret that is none of a mesh gets no backend. -/
theorem meshBackendFromSecret_none (h : db.secretMeshKind fold name = .none) :
    ∃ e, db.world.meshBackendFromSecret fold name = (.error e, db.world) := by
  by_cases hn : name = ""
  · exact ⟨_, by rw [World.meshBackendFromSecret, if_pos hn]⟩
  · cases hl : db.world.lookupTunnelSecret fold name with
    | none => exact ⟨_, by simp only [World.meshBackendFromSecret, if_neg hn, hl]; rfl⟩
    | some secret =>
      rw [secretMeshKind_some hn hl] at h
      exact ⟨_, by simp only [World.meshBackendFromSecret, if_neg hn, hl, if_pos h]; rfl⟩

theorem drop_cache (w : World) :
    w.cache ++ (w.meshBackendFromSecret fold name).2.cache.drop w.cache.length =
      (w.meshBackendFromSecret fold name).2.cache :=
  List.prefix_iff_eq_append.mp (World.exec_cache fold w (.call name)).1

/-- An entry of the cache is an old one, or has the options of the secret. -/
theorem mem_meshBackendFromSecret {w : World} {e : String × MeshOptions}
    (h : e ∈ (w.meshBackendFromSecret fold name).2.cache) :
    e ∈ w.cache ∨ ∃ secret, w.lookupTunnelSecret fold name = some secret ∧ secret.options.kind ≠ .none ∧
      e.2 = secret.options := by
  rw [World.meshBackendFromSecret] at h
  split at h
  case isTrue => exact .inl h
  case isFalse =>
  split at h
  case h_1 => exact .inl h
  case h_2 secret hs =>
  dsimp only at h
  split at h
  case isTrue => exact .inl h
  case isFalse hk => exact (Intern.mem_intern h).imp_right fun he => ⟨secret, hs, hk, by rw [he]⟩

theorem meshBackendFromSecret_secrets (w : World) :
    (w.meshBackendFromSecret fold name).2.secrets = w.secrets := by
  rw [World.meshBackendFromSecret]
  split
  · rfl
  split
  · rfl
  dsimp only
  split
  · rfl
  · rfl

/-! ## What a statement keeps -/

/-- The secrets are some of `ss`, the nodes of the cache are those of tunnel
secrets among them, each with its backend, and a backend that is up is of the
mesh that is active. -/
structure Inv (ss : List KeyValueSecret) (db : Database) : Prop where
  secrets : ∀ e ∈ db.world.secrets, e.2 ∈ ss
  nodes : ∀ e ∈ db.world.cache, e.2.kind ≠ .none ∧ ∃ secret ∈ ss, secret.isTunnel = true ∧ e.2 = secret.options
  backends : db.backends.map (·.opts) = db.world.cache.map Prod.snd
  up : ∀ backend ∈ db.backends, backend.up = true → db.loader.loader.activeKind = backend.opts.kind

/-- A mesh that is active stays so. -/
def Latched (db db' : Database) : Prop :=
  db.loader.loader.activeKind ≠ .none → db'.loader.loader.activeKind = db.loader.loader.activeKind

theorem Latched.refl (db : Database) : Latched db db := fun _ => rfl

theorem Latched.trans {db'' : Database} (h : Latched db db') (h' : Latched db' db'') : Latched db db'' := by
  intro hk
  have hk' := h hk
  exact (h' (hk' ▸ hk)).trans hk'

namespace Inv

variable {ss ss' : List KeyValueSecret}

theorem start : Inv [] Database.start where
  secrets _ h := by cases h
  nodes _ h := by cases h
  backends := rfl
  up _ h := by cases h

theorem mono (h : Inv ss db) (hss : ss ⊆ ss') : Inv ss' db where
  secrets e he := hss (h.secrets e he)
  nodes e he := by
    obtain ⟨hk, secret, hs, hr⟩ := h.nodes e he
    exact ⟨hk, secret, hss hs, hr⟩
  backends := h.backends
  up := h.up

theorem length (h : Inv ss db) : db.backends.length = db.world.cache.length := by
  have hl := congrArg List.length h.backends
  rwa [List.length_map, List.length_map] at hl

theorem kind_ne_none (h : Inv ss db) {backend : MeshBackend} (hb : backend ∈ db.backends) :
    backend.opts.kind ≠ .none := by
  have ho : backend.opts ∈ db.world.cache.map Prod.snd := by
    rw [← h.backends]
    exact List.mem_map_of_mem hb
  obtain ⟨e, he, heq⟩ := List.mem_map.mp ho
  rw [← heq]
  exact (h.nodes e he).1

theorem createSecret (h : Inv ss db) (secret : KeyValueSecret) :
    Inv (ss ++ [secret]) { db with world := db.world.exec fold (.createSecret name secret) } where
  secrets e he := by
    obtain rfl | he := List.mem_cons.mp he
    · simp
    · exact List.mem_append_left _ (h.secrets e (List.mem_filter.mp he).1)
  nodes := (h.mono (List.subset_append_left ss [secret])).nodes
  backends := h.backends
  up := h.up

theorem dropSecret (h : Inv ss db) : Inv ss { db with world := db.world.exec fold (.dropSecret name) } where
  secrets e he := h.secrets e (List.mem_filter.mp he).1
  nodes := h.nodes
  backends := h.backends
  up := h.up

/-- A secret that is found is one of `ss`, of a tunnel. -/
theorem lookup (h : Inv ss db) {secret : KeyValueSecret} (hs : db.world.lookupTunnelSecret fold name = some secret) :
    secret ∈ ss ∧ secret.isTunnel = true := by
  obtain ⟨hl, ht⟩ := Option.filter_eq_some_iff.mp hs
  obtain ⟨a, b, heq, -⟩ := List.lookup_eq_some_iff.mp hl
  have hm : (fold name, secret) ∈ db.world.secrets := by
    rw [heq]
    exact List.mem_append_right _ List.mem_cons_self
  exact ⟨h.secrets _ hm, ht⟩

theorem meshBackend (h : Inv ss db) (fold : String → String) (name : String) :
    Inv ss (db.meshBackend fold name).2 where
  secrets e he := h.secrets e (by rwa [← meshBackendFromSecret_secrets])
  nodes e he := by
    obtain he | ⟨secret, hs, hk, heq⟩ := mem_meshBackendFromSecret he
    · exact h.nodes e he
    · obtain ⟨hm, ht⟩ := h.lookup hs
      exact ⟨heq ▸ hk, secret, hm, ht, heq⟩
  backends := by
    show (db.backends ++ _).map _ = (db.world.meshBackendFromSecret fold name).2.cache.map Prod.snd
    rw [← drop_cache db.world, List.map_append, List.map_append, h.backends, List.map_map, h.length, drop_cache]
    rfl
  up backend hb hu := by
    obtain hb | hb := List.mem_append.mp hb
    · exact h.up backend hb hu
    · obtain ⟨e, -, rfl⟩ := List.mem_map.mp hb
      cases hu

/-- No shim is loaded over another. -/
theorem activation (h : Inv ss db) (a : Activation) :
    Inv ss { db with loader := (a.run b db.loader).2 } ∧ Latched db { db with loader := (a.run b db.loader).2 } := by
  have hl : Latched db { db with loader := (a.run b db.loader).2 } := by
    intro hk
    show (a.run b db.loader).2.loader.activeKind = _
    rw [(Mesh.run_latched hk a).1]
  refine ⟨{ h with up := ?_ }, hl⟩
  intro backend hb hu
  have hk := h.up backend hb hu
  exact (hl (hk ▸ h.kind_ne_none hb)).trans hk

/-- One backend is another, of the same options. -/
theorem set (h : Inv ss db) {i : Nat} {backend backend' : MeshBackend} (hi : db.backends[i]? = some backend)
    (ho : backend'.opts = backend.opts)
    (hu : backend'.up = true → db.loader.loader.activeKind = backend.opts.kind) :
    Inv ss { db with backends := db.backends.set i backend' } where
  secrets := h.secrets
  nodes := h.nodes
  backends := by
    rw [← h.backends]
    show (db.backends.set i backend').map (·.opts) = _
    have hm : (db.backends.map (·.opts))[i]? = some backend.opts := by rw [List.getElem?_map, hi]; rfl
    obtain ⟨hlt, heq⟩ := List.getElem?_eq_some_iff.mp hm
    rw [List.map_set, ho, ← heq, List.set_getElem_self]
  up x hx hxu := by
    obtain hx | rfl := List.mem_or_eq_of_mem_set hx
    · exact h.up x hx hxu
    · rw [ho]
      exact hu hxu

end Inv

/-! ## Bringing a node up -/

/-- `EnsureUp` of a backend that is not up leaves it up exactly when it returns,
and then the shim was activated. -/
theorem ensureUp_ends (o : Mesh.UpOutcome) {backend : MeshBackend} (hu : backend.up = false) :
    let r := (Mesh.ensureUp o).exec backend
    r.2.opts = backend.opts ∧
      ((∃ e, r.1 = .error e) ∧ r.2.up = false ∨ r.1 = .ok () ∧ ∃ api, o.activate = .ok api) := by
  cases ha : o.activate with
  | error e => simp [Mesh.ensureUp, hu, ha]
  | ok api =>
    obtain ⟨h, -⟩ | ⟨-, e, hr⟩ | ⟨-, -, -, e, _, hr⟩ | ⟨-, _, b', hb', hr⟩ := Mesh.ensureUp_cases o backend
    · exact absurd (hu.symm.trans h) (by decide)
    · rw [hr]
      exact ⟨rfl, .inl ⟨⟨e, rfl⟩, hu⟩⟩
    · rw [hr]
      exact ⟨rfl, .inl ⟨⟨e, rfl⟩, hu⟩⟩
    · have hb : b'.opts = backend.opts ∧ b'.up = false := by
        obtain ⟨-, rfl⟩ | ⟨-, -, rfl⟩ := hb'
        · exact ⟨rfl, hu⟩
        · exact ⟨rfl, hu⟩
      obtain ⟨-, hr⟩ | ⟨-, e, hr⟩ := hr
      · rw [hr]
        exact ⟨hb.1, .inr ⟨rfl, api, rfl⟩⟩
      · rw [hr]
        exact ⟨hb.1, .inl ⟨⟨e, rfl⟩, hb.2⟩⟩

/-- What a call for a mesh leaves: if it returns a kind, that mesh is active. -/
structure Brought (ss : List KeyValueSecret) (db : Database) (r : Except TunnelError MeshKind × Database) : Prop where
  inv : Inv ss r.2
  latched : Latched db r.2
  active : ∀ kind, r.1 = .ok kind → kind ≠ .none ∧ r.2.loader.loader.activeKind = kind

section

variable {ss : List KeyValueSecret}

theorem Brought.error {e : TunnelError} (h : Inv ss db') (hl : Latched db db') : Brought ss db (.error e, db') :=
  ⟨h, hl, fun _ hk => by cases hk⟩

theorem brought_ensureUp (h : Inv ss db) (i : Nat) (ans : Answers) : Brought ss db (db.ensureUp b i ans) := by
  rw [ensureUp]
  split
  case h_1 => exact .error h (.refl db)
  case h_2 backend hi =>
  have hmem := List.mem_of_getElem? hi
  split
  case isTrue hu =>
    refine ⟨h, .refl db, fun kind hk => ?_⟩
    cases hk
    exact ⟨h.kind_ne_none hmem, h.up backend hmem hu⟩
  case isFalse hu =>
    dsimp only
    obtain ⟨ho, hend⟩ := ensureUp_ends
      ⟨((Activation.mk backend.opts.kind ans.shim).run b db.loader).1, ans.node, ans.rc, ans.errmsg⟩
      (Bool.eq_false_iff.mpr hu)
    obtain ⟨hinv, hl⟩ := h.activation (b := b) ⟨backend.opts.kind, ans.shim⟩
    obtain ⟨⟨e, he⟩, hdown⟩ | ⟨hok, api, hapi⟩ := hend
    · refine ⟨hinv.set hi ho fun hup => ?_, hl, fun kind hk => ?_⟩
      · rw [hdown] at hup
        cases hup
      · rw [he] at hk
        cases hk
    · have hact := (Mesh.run_ok hapi).1
      refine ⟨hinv.set hi ho fun _ => hact, hl, fun kind hk => ?_⟩
      rw [hok] at hk
      cases hk
      exact ⟨h.kind_ne_none hmem, hact⟩

theorem brought_bringUp (h : Inv ss db) (fold : String → String) (name : String) (ans : Answers) :
    Brought ss db (db.bringUp b fold name ans) := by
  have hm := h.meshBackend fold name
  have hl : Latched db (db.meshBackend fold name).2 := fun _ => rfl
  rw [bringUp]
  split
  case h_1 e db' heq =>
    rw [heq] at hm hl
    exact .error hm hl
  case h_2 i db' heq =>
    rw [heq] at hm hl
    obtain ⟨hinv, hl', hk⟩ := brought_ensureUp (b := b) hm i ans
    exact ⟨hinv, hl.trans hl', hk⟩

/-- A secret of no mesh brings nothing up. -/
theorem bringUp_none (h : Inv ss db) (hk : db.secretMeshKind fold name = .none) (ans : Answers) :
    ∃ e, db.bringUp b fold name ans = (.error e, db) := by
  obtain ⟨e, hr⟩ := meshBackendFromSecret_none hk
  refine ⟨e, ?_⟩
  rw [bringUp, meshBackend, hr]
  simp only [h.length, List.drop_length, List.map_nil, List.append_nil]

end

/-! ## One statement -/

/-- What a statement that asks for `kind` leaves and returns. -/
structure Meets (ss : List KeyValueSecret) (kind : MeshKind) (db : Database)
    (r : Except TunnelError Done × Database) : Prop where
  inv : Inv ss r.2
  latched : Latched db r.2
  plain : kind = .none → r.2.loader = db.loader ∧ r.2.backends = db.backends
  mesh : ∀ d, r.1 = .ok d → (d.mesh = .none ↔ kind = .none) ∧
    (d.mesh ≠ .none → r.2.loader.loader.activeKind = d.mesh)

section

variable {ss : List KeyValueSecret} {kind : MeshKind}

/-- It throws, or uses no mesh. -/
theorem Meets.still (h : Inv ss db) {r : Except TunnelError Done}
    (hr : ∀ d, r = .ok d → d.mesh = .none ∧ kind = .none) : Meets ss kind db (r, db) where
  inv := h
  latched := .refl db
  plain _ := ⟨rfl, rfl⟩
  mesh d hd := by
    obtain ⟨hm, hk⟩ := hr d hd
    exact ⟨⟨fun _ => hk, fun _ => hm⟩, fun hne => absurd hm hne⟩

theorem Meets.error (h : Inv ss db) (e : TunnelError) : Meets ss kind db (.error e, db) :=
  .still h fun _ hd => by cases hd

theorem Meets.onMesh (h : Inv ss db) (name : String) (ans : Answers) {f : MeshKind → Except TunnelError Done}
    (hf : ∀ kind d, f kind = .ok d → d.mesh = kind) :
    Meets ss (db.secretMeshKind fold name) db (db.onMesh b fold name ans f) := by
  by_cases hk : db.secretMeshKind fold name = .none
  · obtain ⟨e, hr⟩ := bringUp_none (b := b) h hk ans
    rw [Database.onMesh, hr]
    exact .error h e
  · have hb := brought_bringUp (b := b) h fold name ans
    rw [Database.onMesh]
    split
    case h_1 e db' heq =>
      rw [heq] at hb
      exact ⟨hb.inv, hb.latched, fun hn => absurd hn hk, fun _ hd => by cases hd⟩
    case h_2 k db' heq =>
      rw [heq] at hb
      refine ⟨hb.inv, hb.latched, fun hn => absurd hn hk, fun d hd => ?_⟩
      obtain ⟨hne, hact⟩ := hb.active k rfl
      rw [hf k d hd]
      exact ⟨⟨fun hn => absurd hn hne, fun hn => absurd hn hk⟩, fun _ => hact⟩

/-- An import that is not complete is refused. -/
theorem tunnelCreate_incomplete {hasMesh : Bool} {s : Secrets} {a : ImportArgs} (h : a.complete = false)
    (net : Network) : ∃ e, tunnelCreate hasMesh s a net = .error e := by
  have hc : a.withDefaults.remoteHost = "" ∨ a.withDefaults.remotePort = 0 ∨ a.withDefaults.localPort = 0 := by
    simpa [ImportArgs.complete, Classical.or_iff_not_imp_left] using h
  exact ⟨_, if_pos hc⟩

/-- Nor does an import over SSH go on without what the secret holds. -/
theorem tunnelCreate_unknown {s : Secrets} {e : TunnelError} (hk : s.meshKind = .none) (he : s.auth = .error e)
    (a : ImportArgs) (net : Network) : ∃ e, tunnelCreate true s a net = .error e := by
  unfold tunnelCreate
  simp only [hk, he, bind, Except.bind]
  split
  · exact ⟨_, rfl⟩
  · exact ⟨e, rfl⟩

/-- Nor an export. -/
theorem tunnelExport_unknown {s : Secrets} (hk : s.meshKind = .none) (he : s.name = "" ∨ ∃ e, s.auth = .error e)
    (a : ExportArgs) : ∃ e, tunnelExport true s a = .error e := by
  unfold tunnelExport
  simp only [hk, bind, Except.bind]
  iterate 3 (split; exact ⟨_, rfl⟩)
  split
  case isTrue => exact ⟨_, rfl⟩
  case isFalse hn =>
    obtain ⟨e, he⟩ := he.resolve_left hn
    simp only [he]
    exact ⟨e, rfl⟩

/-- An export over SSH is by a secret of no mesh. -/
theorem tunnelExport_ssh {s : Secrets} {a : ExportArgs} {auth : TunnelAuthParams} {localHost remoteBindHost : String}
    {localPort remotePort timeout : Int32}
    (h : tunnelExport true s a = .ok (.ssh auth localHost localPort remoteBindHost remotePort timeout)) :
    s.meshKind = .none := by
  unfold tunnelExport at h
  simp only [bind, Except.bind] at h
  iterate 4 (split at h; cases h)
  split at h
  · iterate 2 (split at h; cases h)
    split at h <;> cases h
  case isFalse hk => exact Classical.not_not.mp fun hne => hk ⟨trivial, hne⟩

theorem map_ok {α β : Type} {r : Except TunnelError α} {f : α → β} {y : β} (h : r.map f = .ok y) :
    ∃ x, f x = y := by
  cases r with
  | error e => cases h
  | ok x => exact ⟨x, Except.ok.inj h⟩

theorem meets_exec (h : Inv ss db) (fold : String → String) (ans : Answers) (st : Statement) :
    Meets (ss ++ st.stores) (db.asks fold st) db (db.exec b fold ans st) := by
  have hs : Inv (ss ++ st.stores) db := h.mono (List.subset_append_left ..)
  cases st with
  | createSecret name secret =>
    refine ⟨h.createSecret secret, fun _ => rfl, fun _ => ⟨rfl, rfl⟩, fun d hd => ?_⟩
    cases hd
    exact ⟨⟨fun _ => rfl, fun _ => rfl⟩, fun hne => absurd rfl hne⟩
  | dropSecret name =>
    refine ⟨hs.dropSecret, fun _ => rfl, fun _ => ⟨rfl, rfl⟩, fun d hd => ?_⟩
    cases hd
    exact ⟨⟨fun _ => rfl, fun _ => rfl⟩, fun hne => absurd rfl hne⟩
  | tunnelImport name a =>
    rw [exec]
    split
    case isTrue =>
      refine .onMesh hs name ans fun kind d hd => ?_
      obtain ⟨t, rfl⟩ := map_ok hd
      rfl
    case isFalse hc =>
      refine .still hs fun d hd => ?_
      cases hac : a.complete with
      | false =>
        obtain ⟨e, he⟩ := tunnelCreate_incomplete hac ans.net
        rw [he] at hd
        cases hd
      | true =>
        obtain ⟨t, rfl⟩ := map_ok hd
        exact ⟨rfl, Classical.not_not.mp fun hne => hc ⟨hne, hac⟩⟩
  | tunnelExport name a =>
    rw [exec]
    split
    case h_1 e heq => exact .error hs e
    case h_2 =>
      refine .onMesh hs name ans fun kind d hd => ?_
      obtain ⟨-, rfl⟩ := map_ok hd
      rfl
    case h_3 heq =>
      refine .still hs fun d hd => ?_
      obtain ⟨-, rfl⟩ := map_ok hd
      exact ⟨rfl, tunnelExport_ssh heq⟩
  | tunnelPeers name | tunnelSelf name =>
    refine .onMesh hs name ans fun kind d hd => ?_
    obtain ⟨-, rfl⟩ := map_ok hd
    rfl
  | tunnelMeshActivate backend =>
    rw [exec]
    dsimp only
    split
    case isTrue => exact .error hs _
    case isFalse hk =>
      obtain ⟨hinv, hl⟩ := hs.activation (b := b) ⟨parseMeshKind backend, ans.shim⟩
      refine ⟨hinv, hl, fun hn => absurd hn hk, fun d hd => ?_⟩
      cases hr : (Activation.run b ⟨parseMeshKind backend, ans.shim⟩ db.loader).1 with
      | error e =>
        rw [hr] at hd
        cases hd
      | ok api =>
        rw [hr] at hd
        cases hd
        exact ⟨Iff.rfl, fun _ => (Mesh.run_ok hr).1⟩

theorem authParams_unknown (hl : db.world.lookupTunnelSecret fold (if name = "" then "*" else name) = none) :
    ∃ e, db.authParams fold name = .error e := by
  unfold authParams
  dsimp only
  rw [hl]
  dsimp only
  by_cases hstar : (if name = "" then "*" else name) = "*"
  · exact ⟨_, if_pos hstar⟩
  · exact ⟨_, if_neg hstar⟩

/-- What goes by a secret that is not there throws, and changes nothing. -/
theorem exec_unknown (h : Inv ss db) (ans : Answers) (hu : db.Unknown fold st) :
    ∃ e, db.exec b fold ans st = (.error e, db) := by
  cases st with
  | createSecret | dropSecret | tunnelMeshActivate => exact hu.elim
  | tunnelImport name a =>
    have hl : name = "" ∨ db.world.lookupTunnelSecret fold name = none := by
      by_cases hn : name = ""
      · exact .inl hn
      · rw [Unknown, if_neg hn] at hu
        exact .inr hu
    obtain ⟨e, he⟩ := authParams_unknown hu
    have hk := secretMeshKind_unknown hl
    obtain ⟨e', he'⟩ := tunnelCreate_unknown (s := db.secrets fold name) hk he a ans.net
    refine ⟨e', ?_⟩
    rw [exec, if_neg fun hc => hc.1 hk, he']
    rfl
  | tunnelExport name a =>
    have hk := secretMeshKind_unknown hu
    have he : name = "" ∨ ∃ e, db.authParams fold name = .error e := by
      by_cases hn : name = ""
      · exact .inl hn
      · exact .inr (authParams_unknown (by rw [if_neg hn]; exact hu.resolve_left hn))
    obtain ⟨e, he⟩ := tunnelExport_unknown (s := db.secrets fold name) hk he a
    exact ⟨e, by rw [exec, he]⟩
  | tunnelPeers name | tunnelSelf name =>
    obtain ⟨e, he⟩ := bringUp_none (b := b) h (secretMeshKind_unknown hu) ans
    exact ⟨e, by rw [exec, onMesh, he]⟩

end

/-! ## Every run -/

/-- What a statement in `db₀` returned is of the mesh that it asked for, which is the one active in `db`. -/
def Used (b : Build) (fold : String → String) (db db₀ : Database) (x : Statement × Answers) : Prop :=
  ∀ d, (db₀.exec b fold x.2 x.1).1 = .ok d →
    (d.mesh = .none ↔ db₀.asks fold x.1 = .none) ∧ (d.mesh ≠ .none → db.loader.loader.activeKind = d.mesh)

/-- What a run of `xs` comes to. -/
structure Came (b : Build) (fold : String → String) (xs : List (Statement × Answers)) (db : Database) : Prop where
  inv : Inv (xs.flatMap fun x => x.1.stores) db
  plain : Along (step b fold) (fun db₀ x => db₀.asks fold x.1 = .none) start xs → db.loader = .init ∧ db.backends = []
  used : Along (step b fold) (Used b fold db) start xs

theorem came {xs : List (Statement × Answers)} (h : Run (step b fold) start xs db) : Came b fold xs db := by
  refine h.history (P := Came b fold) ⟨.start, fun _ => ⟨rfl, rfl⟩, along_nil⟩ ?_
  rintro is t ⟨st, ans⟩ u hr hc hu
  obtain rfl : (t.exec b fold ans st).2 = u := Option.some.inj hu
  have hm := meets_exec (b := b) hc.inv fold ans st
  refine ⟨by simpa using hm.inv, fun ha => ?_, ?_⟩
  · obtain ⟨hl, hb⟩ := hc.plain ha.append
    obtain ⟨hl', hb'⟩ := hm.plain (ha.last hr)
    exact ⟨hl'.trans hl, hb'.trans hb⟩
  · refine Along.snoc ?_ hr hm.mesh
    intro is₁ x is₂ s he hs d hd
    obtain ⟨hiff, hact⟩ := hc.used is₁ x is₂ s he hs d hd
    refine ⟨hiff, fun hne => ?_⟩
    have hk := hact hne
    exact (hm.latched (hk ▸ hne)).trans hk

/-- In every run of statements:

* while none asks for a mesh, no shim is loaded and there is no node;
* what returns is of a mesh exactly when it asked for one, and then of the one
  that is active at the end: the whole run uses a single mesh;
* a node has the options of a tunnel secret that was created;
* what goes by a secret that is not there throws, and changes nothing. -/
theorem mesh_on_demand (b : Build) (fold : String → String) (xs : List (Statement × Answers)) (db : Database)
    (h : Run (step b fold) start xs db) :
    (Along (step b fold) (fun db₀ x => db₀.asks fold x.1 = .none) start xs → db.loader = .init ∧ db.backends = []) ∧
    Along (step b fold) (Used b fold db) start xs ∧
    (∀ backend ∈ db.backends, ∃ name secret ans, (.createSecret name secret, ans) ∈ xs ∧
      secret.isTunnel = true ∧ backend.opts = secret.options) ∧
    Along (step b fold) (fun db₀ x => db₀.Unknown fold x.1 →
      ∃ e, db₀.exec b fold x.2 x.1 = (.error e, db₀)) start xs := by
  have hc := came h
  refine ⟨hc.plain, hc.used, fun backend hb => ?_, ?_⟩
  · have ho : backend.opts ∈ db.world.cache.map Prod.snd := by
      rw [← hc.inv.backends]
      exact List.mem_map_of_mem hb
    obtain ⟨e, he, heq⟩ := List.mem_map.mp ho
    obtain ⟨-, secret, hs, ht, hopts⟩ := hc.inv.nodes e he
    obtain ⟨⟨st, ans⟩, hx, hst⟩ := List.mem_flatMap.mp hs
    cases st with
    | createSecret name secret' =>
      obtain rfl := List.mem_singleton.mp hst
      exact ⟨name, secret, ans, hx, ht, heq ▸ hopts⟩
    | _ => cases hst
  · intro is₁ x is₂ t he ht hu
    exact exec_unknown (came ht).inv x.2 hu

/-- A build with both shims. -/
def both : Build := ⟨.unix, true, true⟩

/-- A shim of `kind` that loads, a node that comes up, and a tunnel that is made. -/
def obliging (kind : MeshKind) : Answers where
  shim := ⟨1, none, none, fun _ => some 1, kind.toInt⟩
  node := 1
  rc := 0
  errmsg := ""
  net := goodNetwork
  rest := .ok ()

/-- The peers of a tailnet, and then NetBird. -/
def peersOfTailnet : List (Statement × Answers) :=
  [(.createSecret "ts" ⟨"tunnel", [("backend", "tailscale")]⟩, obliging .none),
    (.tunnelPeers "ts", obliging .tailscale), (.tunnelMeshActivate "netbird", obliging .netBird)]

theorem mesh_on_demand_tailnet : ∃ db, Run (step both id) start peersOfTailnet db ∧
    db.loader.loader.activeKind = .tailscale ∧ Along (step both id) (Used both id db) start peersOfTailnet :=
  ⟨_, rfl, by decide, (mesh_on_demand both id peersOfTailnet _ rfl).2.1⟩

end Database

end ErplTunnel.Pragma

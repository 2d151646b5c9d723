import ErplTunnel.Framework.Run
import ErplTunnel.Mesh.Loader

/-!
# The mesh backend

`MeshBackend` (`mesh_backend.cpp`) drives one node of the shim: `EnsureUp`
activates the shim, allocates the node, sets its options and brings it up, and
every other method calls `EnsureUp` first. What the shim returns in one method
is an input (`UpOutcome`, `Reply`); the calls the backend makes of it are kept
in order in `calls`.

`mu_` is held in `EnsureUp` and again in the rest of a method, and not between
the two. So a method of one thread is two steps (`Ev.call`, `Ev.resume`), and
the methods of all threads interleave there.
-/

namespace ErplTunnel.Mesh

/-- `struct MeshOptions`. -/
structure MeshOptions where
  kind : MeshKind
  authKey : String
  setupKey : String
  hostname : String
  tags : String
  groups : String
  controlUrl : String
  mgmtUrl : String
  stateDir : String
  ephemeral : Bool
  deriving DecidableEq, Repr

/-- A call through `MeshApi`, with the result that tells how far the node is. -/
inductive ShimCall where
  /-- `mesh_new` returned `node`, which is valid when positive. -/
  | new (node : Int)
  | setStr (node : Int) (key val : String)
  | setBool (node : Int) (key : String) (val : Int)
  /-- `mesh_up` returned `rc`. -/
  | up (node rc : Int)
  | dial (node : Int) (host : String) (port : Int)
  | meshExport (node meshPort : Int) (localHost : String) (localPort : Int)
  | meshUnexport (node handle : Int)
  | peersJson (node : Int) (len : Nat)
  | selfJson (node : Int) (len : Nat)
  | errmsg (node : Int)
  | close (node : Int)
  deriving DecidableEq, Repr

structure MeshBackend where
  opts : MeshOptions
  api : Option MeshApi
  node : Int
  up : Bool
  /-- What was called so far. -/
  calls : List ShimCall
  deriving DecidableEq, Repr

namespace MeshBackend

/-- `MeshBackend::MeshBackend`. -/
def new (opts : MeshOptions) : MeshBackend := ⟨opts, none, 0, false, []⟩

end MeshBackend

abbrev BackendM := Throws TunnelError MeshBackend

def issue (c : ShimCall) : BackendM Unit := modify fun b => { b with calls := b.calls ++ [c] }

/-- The options as `EnsureUp` sets them: the texts that are not empty, in this
order, and then `ephemeral`. -/
def optionCalls (o : MeshOptions) (node : Int) : List ShimCall :=
  let texts := [("auth_key", o.authKey), ("setup_key", o.setupKey), ("hostname", o.hostname),
    ("tags", o.tags), ("groups", o.groups), ("control_url", o.controlUrl), ("mgmt_url", o.mgmtUrl),
    ("state_dir", o.stateDir)]
  (texts.filter fun kv => kv.2 ≠ "").map (fun kv => .setStr node kv.1 kv.2) ++
    [.setBool node "ephemeral" (if o.ephemeral then 1 else 0)]

def setOptions : BackendM Unit :=
  modify fun b => { b with calls := b.calls ++ optionCalls b.opts b.node }

/-- `LastError`; `text` is what `mesh_errmsg` writes. -/
def lastError (text : String) : BackendM String := do
  let b ← get
  if b.api = none ∨ b.node ≤ 0 then
    return ""
  issue (.errmsg b.node)
  return text

/-- What `MeshLoader::Activate` and the shim answer in one `EnsureUp`. -/
structure UpOutcome where
  activate : Except TunnelError MeshApi
  /-- What `mesh_new` returns. -/
  node : Int
  /-- What `mesh_up` returns. -/
  rc : Int
  errmsg : String

def ensureUp (o : UpOutcome) : BackendM Unit := do
  if (← get).up then
    return
  match o.activate with
  | .error e => throw e
  | .ok api =>
    modify fun b => { b with api := some api }
    if (← get).node ≤ 0 then
      issue (.new o.node)
      modify fun b => { b with node := o.node }
      if o.node ≤ 0 then
        throw (.io "Tunnel: could not allocate a mesh node.")
      setOptions
    issue (.up (← get).node o.rc)
    if o.rc ≠ 0 then
      throw (.io ("Tunnel: " ++ (← lastError o.errmsg)))
    modify fun b => { b with up := true }

/-- The methods that need the node up. -/
inductive Method where
  | ensureUp
  | dial (host : String) (port : Int)
  | meshExport (meshPort : Int) (localHost : String) (localPort : Int)
  | peersJson
  | selfJson
  deriving DecidableEq, Repr

/-- What the shim answers once a method holds `mu_` again. -/
structure Reply where
  rc : Int
  /-- The stream `mesh_dial` writes; none is `kMeshStreamInvalid`. -/
  stream : Option Nat
  /-- The handle `mesh_export` writes. -/
  handle : Int
  /-- The size a JSON call asks for. -/
  need : Nat
  /-- What the second JSON call returns, when there is one. -/
  rc₂ : Int
  json : String
  errmsg : String
  deriving DecidableEq, Repr

/-- What a method returns. -/
inductive Returned where
  | done
  | stream (stream : Nat)
  | handle (handle : Int)
  | json (text : String)
  deriving DecidableEq, Repr

/-- `kMaxMeshJson`. -/
def maxMeshJson : Nat := 64 * 1024 * 1024

def throwLast (text : String) : BackendM Returned := do
  throw (.io ("Tunnel: " ++ (← lastError text)))

/-- The end of a JSON call that returned `rc`. -/
def jsonAnswer (rc : Int) (r : Reply) : BackendM Returned :=
  if rc ≠ 0 then throwLast r.errmsg else return .json r.json

/-- The two-shot buffer contract of `PeersJson` and `SelfJson`: `call` with a
buffer of `size` bytes, and again with what it needs. -/
def jsonCall (call : Int → Nat → ShimCall) (size : Nat) (what : String) (r : Reply) : BackendM Returned := do
  let node := (← get).node
  issue (call node size)
  if r.rc = 2 ∧ size < r.need then
    if maxMeshJson < r.need then
      throw (.io ("Tunnel: mesh " ++ what ++ " status is implausibly large; aborting."))
    else
      issue (call node r.need)
      jsonAnswer r.rc₂ r
  else
    jsonAnswer r.rc r

/-- The rest of a method, after `EnsureUp`. -/
def resume (m : Method) (r : Reply) : BackendM Returned :=
  match m with
  | .ensureUp => return .done
  | .dial host port => do
    issue (.dial (← get).node host port)
    match r.stream with
    | some stream => if r.rc ≠ 0 then throwLast r.errmsg else return .stream stream
    | none => throwLast r.errmsg
  | .meshExport meshPort localHost localPort => do
    issue (.meshExport (← get).node meshPort localHost localPort)
    if r.rc ≠ 0 then throwLast r.errmsg else return .handle r.handle
  | .peersJson => jsonCall .peersJson 8192 "peer" r
  | .selfJson => jsonCall .selfJson 4096 "self" r

def unexport (handle : Int) : BackendM Unit := do
  let b ← get
  if b.api ≠ none ∧ 0 < b.node ∧ handle ≠ 0 then
    issue (.meshUnexport b.node handle)

/-- `MeshBackend::~MeshBackend`. -/
def destroy : BackendM Unit := do
  let b ← get
  if b.api ≠ none ∧ 0 < b.node then
    issue (.close b.node)
    modify fun b => { b with node := 0 }

/-- A backend and the threads in its methods. -/
structure Sys where
  backend : MeshBackend
  /-- The methods that are through `EnsureUp` and have yet to take `mu_` again. -/
  inFlight : List Method
  destroyed : Bool

inductive Ev where
  /-- A method is called: `EnsureUp`, under `mu_`. -/
  | call (m : Method) (o : UpOutcome)
  /-- The `i`-th method in flight takes `mu_` again. -/
  | resume (i : Nat) (r : Reply)
  | unexport (handle : Int)
  /-- The last reference is gone. -/
  | destroy

namespace Sys

def start (opts : MeshOptions) : Sys := ⟨.new opts, [], false⟩

/-- A step of the threads. No method is called of a backend that is destroyed,
and none is in flight when it is: each thread holds a reference. -/
def step (s : Sys) : Ev → Option Sys
  | .call m o =>
    if s.destroyed then none
    else
      match (ensureUp o).exec s.backend with
      | (.ok _, b) => some { s with backend := b, inFlight := s.inFlight ++ [m] }
      | (.error _, b) => some { s with backend := b }
  | .resume i r =>
    match s.inFlight[i]? with
    | some m => some { s with
        backend := ((ErplTunnel.Mesh.resume m r).exec s.backend).2
        inFlight := s.inFlight.eraseIdx i }
    | none => none
  | .unexport handle =>
    if s.destroyed then none
    else some { s with backend := ((ErplTunnel.Mesh.unexport handle).exec s.backend).2 }
  | .destroy =>
    if s.destroyed ∨ s.inFlight ≠ [] then none
    else some { s with backend := (ErplTunnel.Mesh.destroy.exec s.backend).2, destroyed := true }

end Sys

end ErplTunnel.Mesh

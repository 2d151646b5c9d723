import ErplTunnel.Framework.Custody
import ErplTunnel.Manager.Registry
import ErplTunnel.Mesh.Backend
import ErplTunnel.Shim.Handles

/-!
# An export over the mesh, in its four layers

`CreateMeshExport` builds a `MeshExporter` and starts it: `EnsureUp` and
`Export` of its `MeshBackend`, which call the shim, and then the address that
the node has, which is looked for until a deadline. The tunnel is registered
after that. `CloseTunnel` and the other closers take it out of the registry and
call `Close`, and so does the destructor.

Every object carries where the thread that works on it stands. The locks
(`tunnels_mutex`, `mu_` of an exporter and of a backend) are held in one step
and not between two, so the calls of all threads interleave there. The log has
what the shim gave out and what was given back to it.
-/

namespace ErplTunnel.Exports

open Custody
open Manager (TunnelId Tunnels Closer takeOut)
open Mesh (MeshBackend MeshOptions ShimCall UpOutcome Reply)
open Shim (Long)

variable {w : Nat}

/-- What the shim gives out: a node, or a listener that a node exports. -/
inductive Res (w : Nat) where
  | node (node : Long w)
  | listener (node handle : Long w)
  deriving DecidableEq, Repr

/-- The state of the shim. Of a node only its exports. -/
structure GoShim (w : Nat) where
  reg : AList fun _ : Long w => Shim.Exports w Unit
  nextH : Long w
  log : List (Op (Res w))

namespace GoShim

def meshNew (g : GoShim w) : GoShim w where
  reg := g.reg.insert g.nextH .empty
  nextH := g.nextH + 1
  log := g.log ++ [.acquire (.node g.nextH)]

/-- `mesh_export` of a node, which may fail; the handle it gives out. -/
def meshExport (g : GoShim w) (node : Long w) (ok : Bool) : Option (Long w) × GoShim w :=
  match g.reg.lookup node with
  | none => (none, g)
  | some n =>
    if ok then (some (n.addExport ()).1, { g with
      reg := g.reg.insert node (n.addExport ()).2
      log := g.log ++ [.acquire (.listener node (n.addExport ()).1)] })
    else (none, g)

def meshUnexport (g : GoShim w) (node handle : Long w) : GoShim w where
  reg := match g.reg.lookup node with
    | none => g.reg
    | some n => g.reg.insert node (n.takeExport handle).2
  nextH := g.nextH
  log := g.log ++ [.release (.listener node handle)]

/-- A call of a backend reaches the shim. `mesh_export` is not among these:
what it does is in its answer. -/
def call (g : GoShim w) : ShimCall → GoShim w
  | .new _ => g.meshNew
  | .meshUnexport node handle => g.meshUnexport (.ofInt w node) (.ofInt w handle)
  | _ => g

end GoShim

/-- Where the thread that works on an exporter stands. -/
inductive Phase where
  /-- `EnsureUp` in `Start`. -/
  | ensureUp (id : TunnelId)
  /-- `EnsureUp` in `Export`. -/
  | exportUp (id : TunnelId)
  | meshExport (id : TunnelId)
  /-- `Export` has returned `handle`. -/
  | own (id : TunnelId) (handle : Int)
  /-- The loop that looks for the address. -/
  | selfJson (id : TunnelId)
  /-- `Start` has returned. -/
  | started (id : TunnelId)
  /-- `CreateMeshExport` has returned `id`. -/
  | registered (id : TunnelId)
  /-- `Close` is called, by a closer or by the destructor. -/
  | close (destructor : Bool)
  /-- `Close` has let go of `handle`. -/
  | unexport (handle : Int) (destructor : Bool)
  /-- A closer's `Close` has returned. -/
  | closed
  | destroyed
  deriving DecidableEq, Repr

/-- `MeshExporter`. -/
structure Exporter (w : Nat) where
  backend : Nat
  meshPort : Int
  localHost : String
  localPort : Int
  exportHandle : Int
  listening : Bool
  phase : Phase
  /-- The handle that the shim gave out for it. -/
  got : Option (Long w)

structure State (w : Nat) where
  shim : GoShim w
  backends : Nat → MeshBackend
  /-- Every exporter so far. -/
  exporters : List (Exporter w)
  nextTunnelId : TunnelId
  tunnels : Tunnels

/-- The steps; `x` is an exporter. -/
inductive In where
  /-- `CreateMeshExport` up to `Start`. -/
  | create (backend : Nat) (meshPort : Int) (localHost : String) (localPort : Int)
  | ensureUp (x : Nat) (o : UpOutcome)
  | meshExport (x : Nat) (ok : Bool) (errmsg : String)
  /-- `Start` takes ownership of the listener. -/
  | own (x : Nat)
  /-- A round of the loop. -/
  | selfJson (x : Nat) (o : UpOutcome) (r : Reply)
  /-- `Start` returns or throws. -/
  | settle (x : Nat) (ok : Bool)
  | insert (x : Nat)
  /-- The locked part of a closer. -/
  | take (op : Closer)
  /-- The locked part of `Close`. -/
  | close (x : Nat)
  | unexport (x : Nat)
  /-- The last reference to a closed exporter is gone. -/
  | destroy (x : Nat)

/-- Before the first export. -/
def start (opts : Nat → MeshOptions) : State w := ⟨⟨∅, 1, []⟩, fun b => .new (opts b), [], 1, ∅⟩

/-- What `mesh_export` answers. -/
def exportReply (handle : Option (Long w)) (errmsg : String) : Reply :=
  match handle with
  | some h => ⟨0, none, h.toInt, 0, 0, "", errmsg⟩
  | none => ⟨1, none, 0, 0, 0, "", errmsg⟩

/-- Where `Close` returns to. -/
def afterClose (destructor : Bool) : Phase := if destructor then .destroyed else .closed

namespace State

def setPhase (s : State w) (x : Nat) (e : Exporter w) (phase : Phase) : State w :=
  { s with exporters := s.exporters.set x { e with phase } }

/-- Backend `b` is `b'` now, and its calls have reached the shim. -/
def through (s : State w) (b : Nat) (b' : MeshBackend) : State w :=
  { s with
    backends := Function.update s.backends b b'
    shim := (b'.calls.drop (s.backends b).calls.length).foldl GoShim.call s.shim }

/-- `EnsureUp` of backend `b`, where `mesh_new` answers with the next handle. -/
def ensureUp (s : State w) (b : Nat) (o : UpOutcome) : Bool × State w :=
  match (Mesh.ensureUp { o with node := s.shim.nextH.toInt }).exec (s.backends b) with
  | (.ok _, b') => (true, s.through b b')
  | (.error _, b') => (false, s.through b b')

/-- Exporter `x`, which is at `phase`, gets on if `EnsureUp` returns; if it
throws the exporter is destroyed. -/
def upStep (s : State w) (x : Nat) (e : Exporter w) (o : UpOutcome) (next : Phase) : State w :=
  match s.ensureUp e.backend o with
  | (true, s') => s'.setPhase x e next
  | (false, s') => s'.setPhase x e (.close true)

/-- `Export` has returned, or thrown. -/
def exported (s : State w) (x : Nat) (e : Exporter w) (id : TunnelId) (got : Option (Long w)) :
    Except Mesh.TunnelError Mesh.Returned → State w
  | .ok (.handle h) => { s with exporters := s.exporters.set x { e with phase := .own id h, got } }
  | _ => s.setPhase x e (.close true)

/-- `mesh_export` in `Export`. -/
def exportStep (s : State w) (x : Nat) (e : Exporter w) (id : TunnelId) (ok : Bool) (errmsg : String) : State w :=
  let b := s.backends e.backend
  let (got, shim) := s.shim.meshExport (.ofInt w b.node) ok
  let m := Mesh.Method.meshExport e.meshPort e.localHost e.localPort
  let (r, b') := (Mesh.resume m (exportReply got errmsg)).exec b
  { s with shim, backends := Function.update s.backends e.backend b' }.exported x e id got r

/-- A round of the loop that looks for the address. What it throws is caught. -/
def selfJsonStep (s : State w) (e : Exporter w) (o : UpOutcome) (r : Reply) : State w :=
  match s.ensureUp e.backend o with
  | (true, s') => { s' with
      backends := Function.update s'.backends e.backend
        ((Mesh.resume .selfJson r).exec (s'.backends e.backend)).2 }
  | (false, s') => s'

/-- The exporter that `tunnels[id]` replaces is destroyed. -/
def displace (s : State w) (id : TunnelId) : State w :=
  match s.tunnels.lookup id with
  | none => s
  | some y =>
    match s.exporters[y]? with
    | some f => s.setPhase y f (.close true)
    | none => s

/-- `IsActive` of exporter `x`. -/
def isActive (s : State w) (x : Nat) : Bool :=
  match s.exporters[x]? with
  | some e => e.listening
  | none => false

/-- The locked part of a closer. -/
def takeStep (s : State w) (op : Closer) : State w :=
  let taken := (takeOut s.tunnels s.isActive op).1
  { s with
    tunnels := (takeOut s.tunnels s.isActive op).2
    exporters := s.exporters.mapIdx fun x e => if x ∈ taken then { e with phase := .close false } else e }

/-- The locked part of `Close`. -/
def closeStep (s : State w) (x : Nat) (e : Exporter w) (destructor : Bool) : State w :=
  if e.listening then
    { s with exporters := s.exporters.set x { e with
        phase := .unexport e.exportHandle destructor, exportHandle := 0, listening := false } }
  else s.setPhase x e (afterClose destructor)

/-- `Unexport` in `Close`. -/
def unexportStep (s : State w) (x : Nat) (e : Exporter w) (handle : Int) (destructor : Bool) : State w :=
  if handle ≠ 0 then
    (s.through e.backend ((Mesh.unexport handle).exec (s.backends e.backend)).2).setPhase x e (afterClose destructor)
  else s.setPhase x e (afterClose destructor)

/-- A step of exporter `x`, which is `e`. -/
def exporterStep (s : State w) (x : Nat) (e : Exporter w) (i : In) : Option (State w) :=
  match e.phase, i with
  | .ensureUp id, .ensureUp _ o => some (s.upStep x e o (.exportUp id))
  | .exportUp id, .ensureUp _ o => some (s.upStep x e o (.meshExport id))
  | .meshExport id, .meshExport _ ok errmsg => some (s.exportStep x e id ok errmsg)
  | .own id handle, .own _ => some { s with
      exporters := s.exporters.set x { e with phase := .selfJson id, exportHandle := handle, listening := true } }
  | .selfJson _, .selfJson _ o r => some (s.selfJsonStep e o r)
  | .selfJson id, .settle _ ok => some (s.setPhase x e (if ok then .started id else .close true))
  | .started id, .insert _ => some { (s.displace id).setPhase x e (.registered id) with
      tunnels := s.tunnels.insert id x }
  | .close destructor, .close _ => some (s.closeStep x e destructor)
  | .unexport handle destructor, .unexport _ => some (s.unexportStep x e handle destructor)
  | .closed, .destroy _ => some (s.setPhase x e (.close true))
  | _, _ => none

end State

/-- The exporter a step is of. -/
def In.on : In → Option Nat
  | .create _ _ _ _ | .take _ => none
  | .ensureUp x _ | .meshExport x _ _ | .own x | .selfJson x _ _ | .settle x _ | .insert x | .close x | .unexport x
  | .destroy x => some x

def step (s : State w) (i : In) : Option (State w) :=
  match i with
  | .create b meshPort localHost localPort => some { s with
      nextTunnelId := s.nextTunnelId + 1
      exporters := s.exporters ++ [⟨b, meshPort, localHost, localPort, 0, false, .ensureUp s.nextTunnelId, none⟩] }
  | .take op => some (s.takeStep op)
  | i => do
    let x ← i.on
    let e ← s.exporters[x]?
    s.exporterStep x e i

/-- The steps. -/
inductive Step (s : State w) : State w → Prop
  | create {b : Nat} {meshPort localPort : Int} {localHost : String} : Step s { s with
      nextTunnelId := s.nextTunnelId + 1
      exporters := s.exporters ++ [⟨b, meshPort, localHost, localPort, 0, false, .ensureUp s.nextTunnelId, none⟩] }
  | take {op : Closer} : Step s (s.takeStep op)
  | ensureUp {x : Nat} {e : Exporter w} {o : UpOutcome} {id : TunnelId} (hx : s.exporters[x]? = some e)
    (hp : e.phase = .ensureUp id) : Step s (s.upStep x e o (.exportUp id))
  | exportUp {x : Nat} {e : Exporter w} {o : UpOutcome} {id : TunnelId} (hx : s.exporters[x]? = some e)
    (hp : e.phase = .exportUp id) : Step s (s.upStep x e o (.meshExport id))
  | meshExport {x : Nat} {e : Exporter w} {ok : Bool} {errmsg : String} {id : TunnelId}
    (hx : s.exporters[x]? = some e) (hp : e.phase = .meshExport id) : Step s (s.exportStep x e id ok errmsg)
  | own {x : Nat} {e : Exporter w} {id : TunnelId} {handle : Int} (hx : s.exporters[x]? = some e)
    (hp : e.phase = .own id handle) : Step s { s with
      exporters := s.exporters.set x { e with phase := .selfJson id, exportHandle := handle, listening := true } }
  | selfJson {x : Nat} {e : Exporter w} {o : UpOutcome} {r : Reply} {id : TunnelId} (hx : s.exporters[x]? = some e)
    (hp : e.phase = .selfJson id) : Step s (s.selfJsonStep e o r)
  | settle {x : Nat} {e : Exporter w} {ok : Bool} {id : TunnelId} (hx : s.exporters[x]? = some e)
    (hp : e.phase = .selfJson id) : Step s (s.setPhase x e (if ok then .started id else .close true))
  | insert {x : Nat} {e : Exporter w} {id : TunnelId} (hx : s.exporters[x]? = some e)
    (hp : e.phase = .started id) : Step s { (s.displace id).setPhase x e (.registered id) with
      tunnels := s.tunnels.insert id x }
  | close {x : Nat} {e : Exporter w} {destructor : Bool} (hx : s.exporters[x]? = some e)
    (hp : e.phase = .close destructor) : Step s (s.closeStep x e destructor)
  | unexport {x : Nat} {e : Exporter w} {handle : Int} {destructor : Bool} (hx : s.exporters[x]? = some e)
    (hp : e.phase = .unexport handle destructor) : Step s (s.unexportStep x e handle destructor)
  | destroy {x : Nat} {e : Exporter w} (hx : s.exporters[x]? = some e) (hp : e.phase = .closed) :
    Step s (s.setPhase x e (.close true))

variable {s s' : State w} {i : In}

theorem exporterStep_cases {x : Nat} {e : Exporter w} (hx : s.exporters[x]? = some e)
    (h : s.exporterStep x e i = some s') : Step s s' := by
  unfold State.exporterStep at h
  split at h
  · rename_i hp; cases h; exact .ensureUp hx hp
  · rename_i hp; cases h; exact .exportUp hx hp
  · rename_i hp; cases h; exact .meshExport hx hp
  · rename_i hp; cases h; exact .own hx hp
  · rename_i hp; cases h; exact .selfJson hx hp
  · rename_i hp; cases h; exact .settle hx hp
  · rename_i hp; cases h; exact .insert hx hp
  · rename_i hp; cases h; exact .close hx hp
  · rename_i hp; cases h; exact .unexport hx hp
  · rename_i hp; cases h; exact .destroy hx hp
  · cases h

theorem step_cases (h : step s i = some s') : Step s s' := by
  unfold step at h
  split at h
  · cases h; exact .create
  · cases h; exact .take
  · obtain ⟨x, -, h⟩ := Option.bind_eq_some_iff.mp h
    obtain ⟨e, hx, h⟩ := Option.bind_eq_some_iff.mp h
    exact exporterStep_cases hx h

end ErplTunnel.Exports

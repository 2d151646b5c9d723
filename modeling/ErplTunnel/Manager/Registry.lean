import Mathlib.Data.List.AList
import ErplTunnel.Framework.Run

/-!
# The tunnel registry

`TunnelManager` (`tunnel_manager.cpp`): the map `tunnels`, the counter
`next_tunnel_id`, and the calls that work on them. Ids are taken from the
atomic counter outside `tunnels_mutex`, handles are started and closed
outside it, and only the insert of a `Create*` and the take-out of a closer
hold it. So a call is cut at exactly these points, and the calls of all
threads interleave there in any order (`step`).

A call is a number, taken once; a thread that makes several calls is several
calls in a row. The handle a `Create*` builds is named by the number of that
call. What a call holds or has returned stays readable in `calls`, which is
what the conservation laws are stated about.
-/

namespace ErplTunnel.Manager

/-- `int64_t`. The counter is a `std::atomic<int64_t>`, whose `++` wraps. -/
abbrev TunnelId := Int64

/-- A `shared_ptr<TunnelHandle>`, by the call that created its object. -/
abbrev Handle := Nat

/-- The four factories. `CreateTunnel` looks at the authentication method
before it takes an id. -/
inductive Create where
  | createTunnel (authMethod : String)
  | createMeshTunnel
  | createMeshExport
  | createSshExport
  deriving DecidableEq, Repr

/-- The three operations that take handles out of the map. -/
inductive Closer where
  | closeTunnel (id : TunnelId)
  | closeAllTunnels
  | cleanupInactiveTunnels
  deriving DecidableEq, Repr

/-- How far a call has got. -/
inductive Call where
  | idle
  /-- `GenerateTunnelId` has returned `id`; the handle is being started. -/
  | starting (id : TunnelId)
  /-- `Start` has returned; the locked insert comes next. -/
  | started (id : TunnelId)
  /-- The `Create*` has returned `id`. -/
  | created (id : TunnelId)
  /-- The `Create*` has thrown, after taking an id or before. -/
  | threw (id : Option TunnelId)
  /-- `taken` are out of the map, `left` of them still to be closed. -/
  | closing (op : Closer) (taken left : List Handle)
  /-- The closer has returned; `ret` is what `CloseTunnel` returned. -/
  | closed (op : Closer) (taken : List Handle) (ret : Option Bool)
  /-- `CleanupInactiveTunnels` let an exception of `Close` through. -/
  | closeThrew (op : Closer) (taken : List Handle)
  deriving DecidableEq, Repr

/-- The id the call was handed. -/
def Call.id? : Call → Option TunnelId
  | .starting i | .started i | .created i => some i
  | .threw i => i
  | _ => none

/-- The handles the call took out of the map. -/
def Call.taken : Call → List Handle
  | .closing _ hs _ | .closed _ hs _ | .closeThrew _ hs => hs
  | _ => []

/-- The map `tunnels`. -/
abbrev Tunnels := AList fun _ : TunnelId => Handle

structure State where
  nextTunnelId : TunnelId
  tunnels : Tunnels
  calls : Nat → Call

/-- `TunnelManager::TunnelManager`. -/
def init : State := ⟨1, ∅, fun _ => .idle⟩

def State.setCall (s : State) (c : Nat) (k : Call) : State :=
  { s with calls := Function.update s.calls c k }

/-- `(id, h)` is in the map. -/
def State.Registered (s : State) (id : TunnelId) (h : Handle) : Prop := s.tunnels.lookup id = some h

/-- The entries of the map that satisfy `p`, as `CleanupInactiveTunnels`
leaves them. -/
def Tunnels.filter (p : Handle → Bool) (m : Tunnels) : Tunnels :=
  ⟨m.entries.filter fun e => p e.2, m.nodupKeys.sublist List.filter_sublist⟩

/-- The handles in the map. -/
def Tunnels.handles (m : Tunnels) : List Handle := m.entries.map (·.2)

/-- The locked part of a closer: what it takes out, and the map it leaves.
`isActive` is what `IsActive()` answers for each handle at that moment. -/
def takeOut (m : Tunnels) (isActive : Handle → Bool) : Closer → List Handle × Tunnels
  | .closeTunnel id =>
    match m.lookup id with
    | some h => ([h], m.erase id)
    | none => ([], m)
  | .closeAllTunnels => (m.handles, ∅)
  | .cleanupInactiveTunnels => ((m.filter fun h => !isActive h).handles, m.filter isActive)

/-- What a closer that has closed everything returns. -/
def Closer.ret : Closer → Option Bool
  | .closeTunnel _ => some true
  | _ => none

/-- The steps of the calls. -/
inductive Ev where
  /-- A `Create*` up to and including `GenerateTunnelId`. -/
  | generate (c : Nat) (k : Create)
  /-- `Start` returns, or throws. -/
  | start (c : Nat) (ok : Bool)
  /-- The insert, under `tunnels_mutex`. -/
  | insert (c : Nat)
  /-- The take-out, under `tunnels_mutex`. -/
  | take (c : Nat) (op : Closer) (isActive : Handle → Bool)
  /-- `Close()` on one of the handles taken out, which may throw. -/
  | close (c : Nat) (h : Handle) (throws : Bool)
  /-- The closer returns. -/
  | ret (c : Nat)

/-- The calls, one step at a time. -/
def step (s : State) : Ev → Option State
  | .generate c k =>
    match s.calls c with
    | .idle =>
      if k = .createTunnel "agent" then some (s.setCall c (.threw none))
      else some { s.setCall c (.starting s.nextTunnelId) with nextTunnelId := s.nextTunnelId + 1 }
    | _ => none
  | .start c ok =>
    match s.calls c with
    | .starting id => some (s.setCall c (if ok then .started id else .threw (some id)))
    | _ => none
  | .insert c =>
    match s.calls c with
    | .started id => some { s.setCall c (.created id) with tunnels := s.tunnels.insert id c }
    | _ => none
  | .take c op isActive =>
    match s.calls c with
    | .idle =>
      let (taken, rest) := takeOut s.tunnels isActive op
      match op, taken with
      -- an unknown id is not an error: `CloseTunnel` returns false at once
      | .closeTunnel _, [] => some (s.setCall c (.closed op [] (some false)))
      | _, _ => some { s.setCall c (.closing op taken taken) with tunnels := rest }
    | _ => none
  | .close c h throws =>
    match s.calls c with
    | .closing op taken left =>
      if h ∈ left then
        -- `CloseTunnel` and `CloseAllTunnels` swallow the exception, the reaper does not
        if throws ∧ op = .cleanupInactiveTunnels then some (s.setCall c (.closeThrew op taken))
        else some (s.setCall c (.closing op taken (left.erase h)))
      else none
    | _ => none
  | .ret c =>
    match s.calls c with
    | .closing op taken [] => some (s.setCall c (.closed op taken op.ret))
    | _ => none

/-- The `Create*` calls of a run that took an id. -/
def issued (es : List Ev) : Nat :=
  es.countP fun
    | .generate _ k => k ≠ .createTunnel "agent"
    | _ => false

end ErplTunnel.Manager

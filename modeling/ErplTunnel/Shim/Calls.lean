import ErplTunnel.Framework.Run
import ErplTunnel.Shim.Handles

/-!
# The calls on a node of a Go shim

The functions of the C ABI on one node handle, for both shims (`shim/ts/main.go`,
`shim/nb/main.go`). A call runs on the thread that makes it, several at a time;
`Call` is where it stands between two sections under `n.mu` or `regMu`, or
between two calls of the mesh library, whose results are inputs. The shims
differ in `mesh_up` only: ts makes its `tsnet.Server` under the lock and stores
it before `Up`, nb makes and starts its client with the lock released and stores
it afterwards.

`live` are the servers (ts) or started clients (nb) of the node that have not
been closed, and `liveExporters` its exporters that have not; both are numbered
in the order they were made.
-/

namespace ErplTunnel.Shim

inductive Kind where
  | ts
  | nb
  deriving DecidableEq, Repr

/-- The functions of the ABI that are modelled. -/
inductive Fn (w : Nat) where
  | meshUp
  | meshExport
  | meshUnexport (exportHandle : Long w)
  | meshDial
  | meshClose
  deriving DecidableEq, Repr

structure Node (w : Nat) where
  /-- `reg` has the handle. -/
  registered : Bool
  /-- `n.srv` in ts, `n.client` in nb. -/
  srv : Option Nat
  up : Bool
  exports : Exports w Nat
  live : List Nat
  made : Nat
  liveExporters : List Nat
  madeExporters : Nat

/-- Where a call stands. -/
inductive Call (w : Nat) where
  /-- `get(h)` -/
  | get (f : Fn w)
  | upLock
  /-- `srv.Up` -/
  | upWait
  /-- `nbembed.New` and `client.Start` -/
  | upStart
  | upStore (client : Option Nat)
  | exportLock
  | listen (srv : Nat)
  | addExport (e : Nat)
  | takeExport (h : Long w)
  | closeExporter (h : Long w) (e : Nat)
  | dialLock
  | dialing (srv : Nat)
  | closeLock
  | closeAllExports (srv : Nat)
  /-- The exporters still to close, and then the server. -/
  | closing (srv : Nat) (all : List Nat)
  | delete
  | returned (f : Fn w) (rc : Int)
  /-- `mesh_export` has returned 0 and set `*out`. -/
  | exported (out : Long w)
  deriving DecidableEq, Repr

variable {w : Nat}

/-- What a function does once it has the node. -/
def Fn.entry : Fn w → Call w
  | .meshUp => .upLock
  | .meshExport => .exportLock
  | .meshUnexport h => .takeExport h
  | .meshDial => .dialLock
  | .meshClose => .closeLock

/-- What a function returns for a handle that `reg` does not have. -/
def Fn.unknown : Fn w → Int
  | .meshClose => 0
  | _ => 1

/-- `mesh_new` -/
def Node.new : Node w := ⟨true, none, false, .empty, [], 0, [], 0⟩

/-- A step of a call: `ok` is whether the library does what it is asked for. -/
def Call.next (kind : Kind) (n : Node w) (ok : Bool) : Call w → Option (Node w × Call w)
  | .get f => some (n, if n.registered then f.entry else .returned f f.unknown)
  | .upLock =>
    if n.up then
      some (n, .returned .meshUp 0) -- idempotent
    -- no key set, or `MkdirTemp` fails
    else if ok = false then
      some (n, .returned .meshUp 1)
    else
      match kind with
      | .ts => some ({ n with srv := some n.made, live := n.live ++ [n.made], made := n.made + 1 }, .upWait)
      | .nb => some (n, .upStart)
  -- a server that does not come up stays in `n.srv`
  | .upWait => some (n, if ok then .upStore none else .returned .meshUp 1)
  | .upStart =>
    if ok then
      some ({ n with live := n.live ++ [n.made], made := n.made + 1 }, .upStore (some n.made))
    else
      some (n, .returned .meshUp 1)
  | .upStore none => some ({ n with up := true }, .returned .meshUp 0)
  | .upStore (some k) => some ({ n with srv := some k, up := true }, .returned .meshUp 0)
  | .exportLock =>
    match n.up, n.srv with
    | true, some k => some (n, .listen k)
    | _, _ => some (n, .returned .meshExport 1)
  -- `StartExport` takes the listener
  | .listen _ =>
    if ok then
      some ({ n with liveExporters := n.liveExporters ++ [n.madeExporters], madeExporters := n.madeExporters + 1 },
        .addExport n.madeExporters)
    else
      some (n, .returned .meshExport 1)
  | .addExport e =>
    let (h, exports) := n.exports.addExport e
    some ({ n with exports }, .exported h)
  | .takeExport h =>
    match n.exports.takeExport h with
    | (some e, exports) => some ({ n with exports }, .closeExporter h e)
    | (none, exports) => some ({ n with exports }, .returned (.meshUnexport h) 0)
  | .closeExporter h e =>
    some ({ n with liveExporters := n.liveExporters.filter (· ≠ e) }, .returned (.meshUnexport h) 0)
  | .dialLock =>
    match n.up, n.srv with
    | true, some k => some (n, .dialing k)
    | _, _ => some (n, .returned .meshDial 1)
  | .dialing _ => some (n, .returned .meshDial (if ok then 0 else 1))
  | .closeLock =>
    some ({ n with srv := none, up := false },
      match n.srv with
      | some k => .closeAllExports k
      | none => .delete)
  | .closeAllExports k =>
    let (all, exports) := n.exports.closeAllExports
    some ({ n with exports }, .closing k all)
  | .closing k (e :: all) => some ({ n with liveExporters := n.liveExporters.filter (· ≠ e) }, .closing k all)
  -- `srv.Close`, `client.Stop`
  | .closing k [] => some ({ n with live := n.live.erase k }, .delete)
  | .delete => some ({ n with registered := false }, .returned .meshClose 0)
  | .returned _ _ | .exported _ => none

structure State (w : Nat) where
  node : Node w
  calls : List (Call w)

inductive In (w : Nat) where
  /-- A thread makes a call. -/
  | call (f : Fn w)
  /-- Call `i` takes a step. -/
  | step (i : Nat) (ok : Bool)
  deriving DecidableEq, Repr

def State.new : State w := ⟨.new, []⟩

def State.step (kind : Kind) (s : State w) : In w → Option (State w)
  | .call f => some { s with calls := s.calls ++ [.get f] }
  | .step i ok => do
    let c ← s.calls[i]?
    let (node, c') ← c.next kind s.node ok
    return ⟨node, s.calls.set i c'⟩

end ErplTunnel.Shim

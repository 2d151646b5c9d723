import ErplTunnel.Shim.ExporterClose

/-!
# The life of a MeshExporter

A `MeshExporter` over the Go exporter it owns. `Start` brings the node up, calls
`mesh_export`, which starts an `Exporter` in the shim, takes ownership of it and
looks for the node's address. `Close` is called any number of times, and once
more by the destructor: it gives the ownership up under `mu_` and then calls
`mesh_unexport`, which returns when `Exporter.Close` has. The goroutines of the
exporter run beside all of this.

The shim may close an exporter for somebody else: for `mesh_close`, or for the
handle of another export where its counter has wrapped.
-/

namespace ErplTunnel.Lifecycle.MeshExporter

variable {α : Type}

inductive Stage where
  | fresh
  | started
  | closed
  /-- `Start` has thrown. -/
  | failed
  deriving DecidableEq, Repr

/-- Where the owner's thread stands. -/
inductive Main where
  /-- Between two calls. -/
  | idle (stage : Stage)
  | ensureUp
  | meshExport
  /-- `Export` has returned `handle`. -/
  | own (handle : Int)
  /-- The loop that looks for the address. -/
  | selfJson
  /-- In `Close`, called by the destructor or not. -/
  | close (destroy : Bool)
  /-- `Close` has let go of `handle`. -/
  | unexport (handle : Int) (destroy : Bool)
  /-- In `mesh_unexport`, which waits for call `j` of `Exporter.Close`. -/
  | unexporting (j : Nat) (destroy : Bool)
  | destroyed
  deriving DecidableEq, Repr

structure State (α : Type) where
  localAddr : String
  main : Main
  exportHandle : Int
  listening : Bool
  /-- The exporter that `mesh_export` has started. -/
  exporter : Option (Shim.Exporter α)

inductive In (α : Type) where
  | start
  /-- `EnsureUp` returns or throws. -/
  | ensureUp (ok : Bool)
  /-- `Export` returns a handle or throws. -/
  | meshExport (handle : Option Int)
  | own
  /-- `Start` returns, or throws after it has the listener. -/
  | settle (ok : Bool)
  | close
  | destroy
  /-- The locked part of `Close`. -/
  | release
  /-- `mesh_unexport` finds the handle or not. -/
  | unexport (found : Bool)
  | unexported
  /-- A step of the Go exporter. -/
  | exporter (e : Shim.ExportEv α)

/-- A new object. -/
def start (localAddr : String) : State α := ⟨localAddr, .idle .fresh, 0, false, none⟩

/-- Where `Close` returns to. -/
def afterClose (destroy : Bool) : Main := if destroy then .destroyed else .idle .closed

namespace State

/-- `mesh_unexport` of a handle that the shim has: `Exporter.Close` is called. -/
def unexport (s : State α) (destroy : Bool) : Option (State α) := do
  let g ← s.exporter
  let g' ← g.step .close
  return { s with main := .unexporting g.closers.length destroy, exporter := some g' }

def step (s : State α) (x : In α) : Option (State α) :=
  match s.main, x with
  | .idle .fresh, .start => some { s with main := .ensureUp }
  | .ensureUp, .ensureUp ok => some { s with main := if ok then .meshExport else .idle .failed }
  | .meshExport, .meshExport none => some { s with main := .idle .failed }
  | .meshExport, .meshExport (some handle) =>
    some { s with main := .own handle, exporter := some (.start s.localAddr) }
  | .own handle, .own => some { s with main := .selfJson, exportHandle := handle, listening := true }
  | .selfJson, .settle ok => some { s with main := .idle (if ok then .started else .failed) }
  | .idle _, .close => some { s with main := .close false }
  | .idle _, .destroy => some { s with main := .close true }
  | .close destroy, .release =>
    some (if s.listening then
      { s with main := .unexport s.exportHandle destroy, exportHandle := 0, listening := false }
    else { s with main := afterClose destroy })
  | .unexport handle destroy, .unexport found =>
    if handle ≠ 0 ∧ found then s.unexport destroy else some { s with main := afterClose destroy }
  | .unexporting j destroy, .unexported => do
    let g ← s.exporter
    match g.closers[j]? with
    | some (.returned _) => return { s with main := afterClose destroy }
    | _ => none
  | _, .exporter e => do
    let g ← s.exporter
    let g' ← g.step e
    return { s with exporter := some g' }
  | _, _ => none

/-- The object owns the listener, or is about to. -/
def owns (s : State α) : Bool :=
  match s.main with
  | .own _ => true
  | _ => s.listening

end State

end ErplTunnel.Lifecycle.MeshExporter

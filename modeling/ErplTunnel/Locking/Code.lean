import ErplTunnel.Framework.Threads

/-!
# What the process locks, starts and joins

Each function of the extension and of the Go shims that takes a mutex, starts
or joins a thread, or calls one that does, as code over these: `std::mutex`,
`sync.Mutex` and `std::once_flag` are mutexes, threads and goroutines are
threads, and a receive from `done` is a join of the goroutine that sends to it.
A lock guard, and `Lock` with its `Unlock` on every way out, is `locked`; the
destructor of a local on the way of an exception is a handler. What only reads
or writes data, waits for the network, or sleeps is left out; branches and loops
go any way. A loop's body is a `call`, which `continue` leaves, and `break` is
`continue` and then the end of the loop.

Objects are numbered: `o` is a tunnel handle, `b` a `MeshBackend`, `n` a node in
the shim, `e` an `Exporter`.
-/

namespace ErplTunnel.Locking

open Threads (Exit)
open Threads.Code

inductive Mutex where
  /-- `TunnelManager::tunnels_mutex`. -/
  | tunnels
  /-- `MeshForwarder::mu_`. -/
  | meshForwarder (o : Nat)
  /-- `MeshExporter::mu_`. -/
  | meshExporter (o : Nat)
  /-- `SshExporter::mu_`. -/
  | sshExporter (o : Nat)
  /-- `SshExporter::session_mu_`. -/
  | session (o : Nat)
  /-- `SshExporter::workers_mu_`. -/
  | workers (o : Nat)
  /-- `TunnelConnection::forward_threads_mutex_`. -/
  | forwardThreads (o : Nat)
  /-- `MeshBackend::mu_`. -/
  | meshBackend (b : Nat)
  /-- `MeshLoader::mutex_`. -/
  | loader
  /-- `cache_mu`, in `MeshBackendFromSecret`. -/
  | cache
  /-- The flags of `EnsureSshSubsystem` and `EnsureSocketSubsystem`. -/
  | sshOnce
  | socketOnce
  /-- `regMu`, a node's `mu` and an `Exporter`'s `mu`, in the shim. -/
  | reg
  | node (n : Nat)
  | exporter (e : Nat)
  deriving DecidableEq, Repr

inductive Kind where
  /-- A thread of DuckDB's. -/
  | query
  | meshAccept (o : Nat)
  | meshPump (o : Nat)
  | sshAccept (o : Nat)
  | sshPump (o : Nat)
  /-- `TunnelConnection::worker_thread_`. -/
  | worker (o : Nat)
  | forward (o : Nat)
  /-- `acceptLoop`, `serve` and its copies. -/
  | acceptLoop (e : Nat)
  | serve (e : Nat)
  | serveCopy (e : Nat)
  /-- `bridge` and its copies. -/
  | bridge (n : Nat)
  | bridgeCopy (n : Nat)
  deriving DecidableEq, Repr

/-- The shim that is loaded. -/
inductive Shim where
  | ts
  | nb
  deriving DecidableEq, Repr

abbrev Code := Threads.Code Mutex Kind

def ret : Code := .leave .ret
def throw : Code := .leave .throw
def maybe (p : Code) : Code := .alt .skip p
def mayRet : Code := maybe ret
def mayThrow : Code := maybe throw
def lock (m : Mutex) : Code := .locked m .skip

/-- `p`, with a local whose destructor is `d`. -/
def guarded (d p : Code) : Code := .attempt p (all [d, throw])

/-! ### The shim -/

def get : Code := lock .reg

def addExport (n : Nat) : Code := lock (.node n)
def takeExport (n : Nat) : Code := lock (.node n)
def setErr (n : Nat) : Code := lock (.node n)

/-- A call that fails is reported, and the function returns. -/
def mayFail (n : Nat) : Code := maybe (all [setErr n, ret])

namespace Exporter

def track (e : Nat) : Code := .call (.locked (.exporter e) mayRet)
def untrack (e : Nat) : Code := lock (.exporter e)

def startExport (e : Nat) : Code := .start (.acceptLoop e)

def acceptLoop (e : Nat) : Code := .call (.loop (.alt (all [lock (.exporter e), ret]) (.start (.serve e))))

/-- With its deferred calls. -/
def serve (e : Nat) : Code :=
  all [track e,
    .alt (lock (.exporter e)) (all [
      track e, .start (.serveCopy e), .start (.serveCopy e), .join (.serveCopy e), .join (.serveCopy e), untrack e]),
    untrack e]

def close (e : Nat) : Code := .call (.locked (.exporter e) mayRet)

end Exporter

def closeAllExports (n : Nat) : Code := all [lock (.node n), .loop (.pick Exporter.close)]

def bridge (n : Nat) : Code :=
  all [.start (.bridgeCopy n), .start (.bridgeCopy n), .join (.bridgeCopy n), .join (.bridgeCopy n)]

def mesh_new : Code := lock .reg
def mesh_set_str (n : Nat) : Code := .call (all [get, mayRet, lock (.node n)])

def mesh_set_bool : Shim → Nat → Code
  | .ts, n => .call (all [get, mayRet, lock (.node n)])
  | .nb, n => .call (all [get, mayRet, maybe (lock (.node n))])

def mesh_up : Shim → Nat → Code
  | .ts, n => .call (all [get, mayRet, .locked (.node n) mayRet, mayFail n, lock (.node n)])
  | .nb, n => .call (all [get, mayRet, .locked (.node n) mayRet, mayFail n, mayFail n, lock (.node n)])

def mesh_export (n : Nat) : Code :=
  .call (all [get, mayRet, lock (.node n), mayRet, mayFail n, .pick Exporter.startExport, addExport n])

def mesh_unexport (n : Nat) : Code := .call (all [get, mayRet, takeExport n, maybe (.pick Exporter.close)])

def mesh_dial (n : Nat) : Code :=
  .call (all [get, mayRet, lock (.node n), mayRet, mayFail n, mayFail n, .start (.bridge n)])

def mesh_peers_json : Shim → Nat → Code
  | .ts, n => .call (all [get, mayRet, lock (.node n), mayRet, mayFail n, mayFail n])
  | .nb, _ => .call (all [get, mayRet])

def mesh_self_json : Shim → Nat → Code
  | .ts, n => .call (all [get, mayRet, lock (.node n), mayRet, mayFail n, mayFail n])
  | .nb, n => .call (all [get, mayRet, lock (.node n)])

def mesh_errmsg (n : Nat) : Code := .call (all [get, mayRet, lock (.node n)])

def mesh_close (n : Nat) : Code := .call (all [get, mayRet, lock (.node n), maybe (closeAllExports n), lock .reg])

/-! ### The mesh backends -/

namespace MeshLoader

def activate : Code := .call (.locked .loader (all [mayThrow, mayRet, mayThrow]))
def activeKind : Code := lock .loader

end MeshLoader

namespace MeshBackend

variable (shim : Shim)

def lastError : Code := maybe (.pick mesh_errmsg)

/-- A call of the shim that fails is an exception. -/
def mayFail : Code := maybe (all [lastError, throw])

def ensureUp (b : Nat) : Code :=
  .call (.locked (.meshBackend b) (all [
    mayRet,
    MeshLoader.activate,
    maybe (all [mesh_new, mayThrow, .loop (.pick mesh_set_str), .pick (mesh_set_bool shim)]),
    .pick (mesh_up shim),
    mayFail]))

def dial (b : Nat) : Code := all [ensureUp shim b, .locked (.meshBackend b) (all [.pick mesh_dial, mayFail])]

def export' (b : Nat) : Code := all [ensureUp shim b, .locked (.meshBackend b) (all [.pick mesh_export, mayFail])]

def unexport (b : Nat) : Code := .locked (.meshBackend b) (maybe (.pick mesh_unexport))

/-- `PeersJson` and `SelfJson`, by what they call twice. -/
def json (query : Nat → Code) (b : Nat) : Code :=
  all [ensureUp shim b,
    .locked (.meshBackend b) (all [.pick query, maybe (all [mayThrow, .pick query]), mayFail])]

def peersJson (b : Nat) : Code := json shim (mesh_peers_json shim) b
def selfJson (b : Nat) : Code := json shim (mesh_self_json shim) b

def destroy (b : Nat) : Code := .locked (.meshBackend b) (maybe (.pick mesh_close))

end MeshBackend

def meshBackendFromSecret : Code := .call (all [mayThrow, .locked .cache mayRet])

def ensureSocketSubsystem : Code := maybe (lock .socketOnce)
def ensureSshSubsystem : Code := maybe (.locked .sshOnce (all [ensureSocketSubsystem, mayThrow]))

/-! ### The handles -/

namespace MeshForwarder

variable (shim : Shim)

def start (o : Nat) : Code :=
  all [.pick (MeshBackend.ensureUp shim), ensureSocketSubsystem, mayThrow, .start (.meshAccept o), mayThrow]

def acceptLoop (o : Nat) : Code :=
  .loop (.call (all [mayRet, .attempt (.pick (MeshBackend.dial shim)) ret,
    .locked (.meshForwarder o) (.start (.meshPump o))]))

def close (o : Nat) : Code :=
  all [maybe (.join (.meshAccept o)), .locked (.meshForwarder o) (.loop (maybe (.join (.meshPump o))))]

def getAttributes (o : Nat) : Code := lock (.meshForwarder o)

end MeshForwarder

namespace MeshExporter

variable (shim : Shim)

def start (o : Nat) : Code :=
  .pick fun b => all [
    MeshBackend.ensureUp shim b,
    MeshBackend.export' shim b,
    lock (.meshExporter o),
    .loop (.attempt (all [MeshBackend.selfJson shim b, mayThrow]) .skip),
    lock (.meshExporter o)]

def close (o : Nat) : Code :=
  .call (all [.locked (.meshExporter o) mayRet, maybe (.pick MeshBackend.unexport), lock (.meshExporter o)])

def isActive (o : Nat) : Code := lock (.meshExporter o)
def getAttributes (o : Nat) : Code := lock (.meshExporter o)

end MeshExporter

namespace SshExporter

variable (o : Nat)

def recordError : Code := lock (.sshExporter o)
def boundRemotePort : Code := lock (.sshExporter o)
def getAttributes : Code := lock (.sshExporter o)

def close : Code :=
  all [
    maybe (.join (.sshAccept o)),
    lock (.workers o),
    .loop (maybe (.join (.sshPump o))),
    lock (.session o),
    lock (.sshExporter o)]

def start : Code :=
  all [
    ensureSocketSubsystem,
    mayThrow,
    maybe (all [close o, throw]),
    lock (.sshExporter o),
    .start (.sshAccept o)]

def dialLocalService : Code := all [lock (.sshExporter o), maybe (recordError o)]

def reapFinishedWorkers : Code := all [lock (.workers o), .loop (maybe (.join (.sshPump o)))]

def acceptLoop : Code :=
  .loop (.call (all [
    mayRet,
    .locked (.session o) mayRet,
    maybe (all [reapFinishedWorkers o, .start (.sshPump o), lock (.workers o), ret]),
    maybe (recordError o)]))

def pump : Code :=
  .call (all [
    dialLocalService o,
    maybe (all [lock (.session o), ret]),
    maybe (all [recordError o, lock (.session o), ret]),
    .loop (.call (all [
      maybe (.alt (all [lock (.session o), ret]) (.loop (lock (.session o)))),
      mayRet,
      lock (.session o)])),
    lock (.session o)])

end SshExporter

namespace TunnelConnection

variable (o : Nat)

def new : Code := ensureSshSubsystem

def startWorker : Code := .start (.worker o)
def stopWorker : Code := maybe (.join (.worker o))

def close : Code :=
  all [maybe (.join (.worker o)), .locked (.forwardThreads o) (.loop (maybe (.join (.forward o))))]

def workerFunction : Code :=
  .call (all [mayRet, .loop (.call (all [mayRet, .locked (.forwardThreads o) (.start (.forward o))]))])

end TunnelConnection

/-- A `TunnelHandle`. -/
inductive Handle where
  | ssh (o : Nat)
  | meshForwarder (o : Nat)
  | meshExporter (o : Nat)
  | sshExporter (o : Nat)
  deriving DecidableEq, Repr

namespace Handle

def close : Handle → Code
  | .ssh o => TunnelConnection.close o
  | .meshForwarder o => MeshForwarder.close o
  | .meshExporter o => MeshExporter.close o
  | .sshExporter o => SshExporter.close o

def isActive : Handle → Code
  | .ssh _ | .meshForwarder _ | .sshExporter _ => .skip
  | .meshExporter o => MeshExporter.isActive o

def getAttributes : Handle → Code
  | .ssh _ => .skip
  | .meshForwarder o => MeshForwarder.getAttributes o
  | .meshExporter o => MeshExporter.getAttributes o
  | .sshExporter o => SshExporter.getAttributes o

/-- `f` of one of the handles, or of none. -/
def some (f : Handle → Code) : Code :=
  oneOf [.pick (f ∘ .ssh), .pick (f ∘ .meshForwarder), .pick (f ∘ .meshExporter), .pick (f ∘ .sshExporter)]

end Handle

/-! ### The manager and the queries -/

namespace TunnelManager

variable (shim : Shim)

/-- The new handle goes into the registry. -/
def register : Code := lock .tunnels

def createTunnel : Code :=
  .call (all [mayThrow,
    .attempt
      (all [TunnelConnection.new,
        .pick fun o => guarded (TunnelConnection.close o) (all [
          mayThrow,
          TunnelConnection.startWorker o,
          maybe (all [TunnelConnection.close o, throw]),
          register,
          ret])])
      throw])

def createMeshTunnel : Code :=
  .pick fun o => guarded (MeshForwarder.close o) (all [MeshForwarder.start shim o, register])

def createMeshExport : Code :=
  .pick fun o => guarded (MeshExporter.close o) (all [MeshExporter.start shim o, register])

def createSshExport : Code :=
  .pick fun o => guarded (SshExporter.close o) (all [SshExporter.start o, register])

/-- `GetTunnelBoundPort`, `GetTunnelStatus` and `GetTunnelError`. -/
def lookup : Code := .locked .tunnels (maybe (Handle.some Handle.getAttributes))

def getTunnelBoundPort : Code := lookup
def getTunnelStatus : Code := lookup
def getTunnelError : Code := lookup

def isTunnelActive : Code := .locked .tunnels (maybe (Handle.some Handle.isActive))

def closeQuietly (h : Handle) : Code := .attempt h.close .skip

/-- Closes the handle and drops it, which closes it again. -/
def release (h : Handle) : Code := all [closeQuietly h, h.close]

def closeTunnel : Code := .call (all [.locked .tunnels mayRet, Handle.some release])

/-- `ListTunnels` and `ListTunnelsWithDetails`. -/
def list : Code := .tryLocked .tunnels (.loop (Handle.some Handle.getAttributes)) .skip

def listTunnels : Code := list
def listTunnelsWithDetails : Code := list

def closeAllTunnels : Code :=
  all [lock .tunnels, .loop (Handle.some closeQuietly), .loop (Handle.some Handle.close)]

def cleanupInactiveTunnels : Code :=
  all [.locked .tunnels (.loop (Handle.some Handle.isActive)), .loop (Handle.some Handle.close)]

end TunnelManager

open TunnelManager

def tunnelCreate (shim : Shim) : Code :=
  all [mayThrow, .alt (all [meshBackendFromSecret, createMeshTunnel shim]) (all [mayThrow, createTunnel])]

def tunnelExport (shim : Shim) : Code :=
  all [mayThrow,
    .alt (all [meshBackendFromSecret, createMeshExport shim]) (all [mayThrow, createSshExport, getTunnelBoundPort])]

def tunnelPeersBind (shim : Shim) : Code := all [meshBackendFromSecret, .pick (MeshBackend.peersJson shim)]
def tunnelSelfBind (shim : Shim) : Code := all [meshBackendFromSecret, .pick (MeshBackend.selfJson shim)]

/-- A thread of DuckDB's runs pragmas, table functions and the manager's other
functions. Loading the extension again, and the end of the process, destroy the
manager, which is `closeAllTunnels`. -/
def query (shim : Shim) : Code :=
  .loop (.attempt (oneOf [
    tunnelCreate shim, tunnelExport shim, closeTunnel, closeAllTunnels, listTunnelsWithDetails, listTunnels,
    tunnelPeersBind shim, tunnelSelfBind shim, MeshLoader.activate, MeshLoader.activeKind, .pick MeshBackend.destroy,
    isTunnelActive, getTunnelStatus, getTunnelError, cleanupInactiveTunnels,
    .pick SshExporter.boundRemotePort, .pick TunnelConnection.stopWorker]) .skip)

/-- What each kind of thread runs. -/
def body (shim : Shim) : Kind → Code
  | .query => query shim
  | .meshAccept o => MeshForwarder.acceptLoop shim o
  | .sshAccept o => SshExporter.acceptLoop o
  | .sshPump o => SshExporter.pump o
  | .worker o => TunnelConnection.workerFunction o
  | .acceptLoop e => Exporter.acceptLoop e
  | .serve e => Exporter.serve e
  | .bridge n => bridge n
  -- these relay bytes and take no lock
  | .meshPump _ | .forward _ | .serveCopy _ | .bridgeCopy _ => .skip

end ErplTunnel.Locking

import Mathlib.Data.List.Basic
import Mathlib.Tactic.Common
import ErplTunnel.Framework.Run

/-!
# Creating an import

`TunnelManager::CreateTunnel` and `TunnelManager::CreateMeshTunnel` on a
machine with a port table. Any number of calls run at once, each an SSH or a
mesh import; other processes open and close listeners of their own.

The two differ in who opens the listener. A mesh import's `Start` makes the
calls itself and throws when one fails. An SSH import starts a worker thread,
which makes them and, when one fails, sets a status and returns; the create
then goes by `TestTunnelConnection`, which asks whether anything answers at
`127.0.0.1:local_port`.

Of the operating system the model uses this: a socket of ours gets to listen
only where nothing else listens at the same address and port, nothing else
comes to listen there while it does, and a connection to `127.0.0.1` is
answered only by a listener on that port, bound to the loopback address or to
all of them.
-/

namespace ErplTunnel.Import

/-- An IPv4 address a listener is bound to. -/
inductive Addr where
  /-- `0.0.0.0`. -/
  | any
  /-- `127.0.0.1`. -/
  | loopback
  | other (ip : Nat)
  deriving DecidableEq, Repr

abbrev Endpoint := Addr × Nat

/-- A listener at `e` answers a connection to `127.0.0.1:port`. -/
def answersAt (port : Nat) (e : Endpoint) : Bool := e.2 = port ∧ (e.1 = .any ∨ e.1 = .loopback)

inductive Kind where
  | ssh
  | mesh
  deriving DecidableEq, Repr

/-- What is asked for. -/
structure Request where
  kind : Kind
  bindAll : Bool
  localPort : Int
  deriving DecidableEq, Repr

namespace Request

/-- `bind_addr`. -/
def bindAddr (r : Request) : Addr := if r.bindAll then .any else .loopback

/-- The port as `htons` takes it, in sixteen bits. -/
def port (r : Request) : Nat := (r.localPort % 65536).toNat

/-- The check of `local_port` in `ValidateConnectionParameters`. -/
def portValid (r : Request) : Bool := 1 ≤ r.localPort ∧ r.localPort ≤ 65535

end Request

/-- How far the listening socket of an import is. -/
inductive Sock where
  | none
  | socket
  | bind
  | listen (port : Nat)
  | listening (port : Nat)
  /-- It was closed, or the attempt given up. -/
  | ended
  deriving DecidableEq, Repr

/-- How far the create is, and after it the close. -/
inductive Pc where
  /-- `Connect`, or `EnsureUp`. -/
  | up
  | auth
  | startWorker
  /-- A mesh import opens its listener. -/
  | opening
  | probe
  /-- The probe was answered; the handle goes into `tunnels`. -/
  | store
  /-- The id is returned and the handle registered. -/
  | returned
  /-- `Close()`. -/
  | closing
  | closed
  deriving DecidableEq, Repr

/-- An import: the request, how far it is, `is_running_` or `running_`, and its
socket. -/
structure Call where
  req : Request
  pc : Pc
  running : Bool
  sock : Sock
  deriving DecidableEq, Repr

/-- What happens to an import. -/
inductive CallEv where
  | up (ok : Bool)
  | auth (ok : Bool)
  | startWorker
  | socket (ok : Bool)
  /-- `bind`, to the port it says or not at all. -/
  | bind (port : Option Nat)
  | listen (ok : Bool)
  /-- One attempt of the probe. -/
  | probe (ok : Bool)
  /-- The probe has run out of time. -/
  | timeout
  | store
  /-- `select` or `accept` fails in the accept loop. -/
  | loopError
  /-- The accept loop sees the flag down. -/
  | loopStop
  /-- Taken out of `tunnels`, to be closed. -/
  | close
  /-- `Close()` has joined the threads. -/
  | joined
  deriving DecidableEq, Repr

namespace Call

def start (r : Request) : Call := ⟨r, .up, false, .none⟩

/-- Where the import's own socket listens. -/
def endpoint (c : Call) : Option Endpoint :=
  match c.sock with
  | .listening p => some (c.req.bindAddr, p)
  | _ => none

/-- `bind` gives the port that was asked for, or any one for port 0. -/
def mayBind (c : Call) (p : Nat) : Bool := if c.req.port = 0 then 0 < p ∧ p < 65536 else p = c.req.port

/-- A failed `socket`, `bind` or `listen`: `MeshForwarder::Start` throws,
`WorkerFunction` returns. -/
def openFailed (c : Call) : Call :=
  match c.req.kind with
  | .ssh => { c with sock := .ended }
  | .mesh => { c with sock := .ended, pc := .closed }

/-- `listen` succeeded. -/
def opened (c : Call) (p : Nat) : Call :=
  match c.req.kind with
  | .ssh => { c with sock := .listening p }
  | .mesh => { c with sock := .listening p, pc := .probe, running := true }

/-- A step of an import, on a machine where `free e` says that nothing listens
at `e` and `answered p` that something answers at `127.0.0.1:p`. -/
def step (free : Endpoint → Bool) (answered : Nat → Bool) (c : Call) : CallEv → Option Call
  | .up ok =>
    if c.pc = .up then
      match c.req.kind with
      | .ssh => some { c with pc := if ok ∧ c.req.portValid then .auth else .closed }
      | .mesh => some (if ok then { c with pc := .opening, sock := .socket } else { c with pc := .closed })
    else none
  | .auth ok => if c.pc = .auth then some { c with pc := if ok then .startWorker else .closed } else none
  | .startWorker =>
    if c.pc = .startWorker then some { c with pc := .probe, running := true, sock := .socket } else none
  | .socket ok =>
    if c.sock = .socket then some (if ok then { c with sock := .bind } else c.openFailed) else none
  | .bind port =>
    if c.sock = .bind then
      match port with
      | some p => if c.mayBind p then some { c with sock := .listen p } else none
      | none => some c.openFailed
    else none
  | .listen ok =>
    match c.sock with
    | .listen p =>
      if ok then if free (c.req.bindAddr, p) then some (c.opened p) else none else some c.openFailed
    | _ => none
  | .probe ok =>
    if c.pc = .probe ∧ c.running then
      if ok then if answered c.req.port then some { c with pc := .store } else none else some c
    else none
  | .timeout => if c.pc = .probe then some { c with pc := .closing, running := false } else none
  | .store => if c.pc = .store then some { c with pc := .returned } else none
  | .loopError =>
    match c.sock, c.req.kind with
    | .listening _, .ssh => some { c with sock := .ended }
    | .listening _, .mesh => some c
    | _, _ => none
  | .loopStop =>
    match c.sock, c.req.kind with
    | .listening _, .ssh => if c.running then none else some { c with sock := .ended }
    | _, _ => none
  | .close => if c.pc = .returned then some { c with pc := .closing, running := false } else none
  | .joined =>
    if c.pc = .closing then
      match c.req.kind with
      | .ssh => if c.sock = .ended then some { c with pc := .closed } else none
      | .mesh => some { c with pc := .closed, sock := .ended }
    else none

end Call

/-- The imports of this process, and where other sockets listen. -/
structure Machine where
  calls : List Call
  foreign : List Endpoint

inductive Ev where
  /-- Other sockets come to listen at `es`, and nowhere else. -/
  | env (es : List Endpoint)
  | create (r : Request)
  | call (i : Nat) (e : CallEv)
  deriving DecidableEq, Repr

namespace Machine

/-- Where the imports listen. -/
def own (m : Machine) : List Endpoint := m.calls.filterMap Call.endpoint

/-- Where anything but import `i` listens. -/
def others (m : Machine) (i : Nat) : List Endpoint := m.foreign ++ (m.calls.eraseIdx i).filterMap Call.endpoint

def free (m : Machine) (e : Endpoint) : Bool := e ∉ m.foreign ++ m.own

def answered (m : Machine) (p : Nat) : Bool := (m.foreign ++ m.own).any (answersAt p)

/-- A step of the machine. -/
def step (m : Machine) : Ev → Option Machine
  | .env es => if ∀ e ∈ es, e ∉ m.own then some { m with foreign := es } else none
  | .create r => some { m with calls := m.calls ++ [.start r] }
  | .call i e => do
    let c ← m.calls[i]?
    let c' ← c.step m.free m.answered e
    return { m with calls := m.calls.set i c' }

/-- No imports, and whatever else listens. -/
def start (foreign : List Endpoint) : Machine := ⟨[], foreign⟩

end Machine

end ErplTunnel.Import

import Mathlib.Data.Option.Basic
import ErplTunnel.Framework.Custody
import ErplTunnel.Framework.Pool
import ErplTunnel.Pump.MeshForwarder

/-!
# The life of a MeshForwarder

`MeshForwarder::Start` brings the mesh node up, opens the listener, starts the
accept loop and probes the listener until it answers; it may throw at any of
these, the last after the accept loop has been started. The accept loop dials a
mesh stream for each client and starts a thread that runs `Pump`. `Close` is
called any number of times, and once more by the destructor. The threads share
`running_`; the log records what they do to sockets, and to the threads, which
are acquired when they start and released when they are joined.
-/

namespace ErplTunnel.Lifecycle.MeshForwarder

open Relay Pump Custody
open Pump.MeshForwarder (Pc)

/-- Sockets and threads, by the call that makes them. Streams and workers are
numbered as their clients. -/
inductive Res where
  | listen
  /-- A socket of the probe in `Start`. -/
  | probe (n : Nat)
  | client (i : Nat)
  | stream (i : Nat)
  | acceptThread
  | worker (i : Nat)
  deriving DecidableEq, Repr

inductive Stage where
  | fresh
  | started
  | closed
  /-- `Start` has thrown. -/
  | failed
  deriving DecidableEq, Repr

/-- Where `Close` stands. -/
inductive ClosePc where
  | joinAccept
  /-- The loop over `workers_`, with these to come. -/
  | joinWorkers (rest : List Nat)
  | closeListen
  deriving DecidableEq, Repr

/-- Where the owner's thread stands. -/
inductive Main where
  /-- Between two calls. -/
  | idle (stage : Stage)
  | ensureUp
  | socket
  | bind
  | listen
  | probe
  /-- In `Close`, called by the destructor or not. -/
  | close (pc : ClosePc) (destroy : Bool)
  | destroyed
  deriving DecidableEq, Repr

/-- Where `AcceptLoop` stands. -/
inductive Accept where
  | unstarted
  | test
  | select
  | accept
  /-- With a client, about to look at the flag. -/
  | check
  | dial
  | spawn
  | done
  | joined
  deriving DecidableEq, Repr

structure State where
  main : Main
  running : Bool
  listenSock : Bool
  accept : Accept
  clients : List (Pool.Slot (St Pc))
  workers : List Nat
  probes : Nat
  log : List (Op Res)

/-- A step of the accept loop, with what the call returned. -/
inductive AcceptEv where
  | test
  | select (ready : Bool)
  | accept (valid : Bool)
  /-- `MeshBackend::Dial` returns a stream or throws. -/
  | dial (ok : Bool)
  /-- A worker starts, with this in its buffer. -/
  | spawn (buf : Buffer Byte bufferSize)

inductive In where
  | start
  /-- A call of `Start` succeeds or fails. -/
  | startCall (ok : Bool)
  /-- A round of the probe, which gets a socket or not, and connects it or not. -/
  | probe (valid ok : Bool)
  /-- The deadline of the probe has passed. -/
  | timeout
  | close
  | destroy
  /-- `Close` goes on. -/
  | closeStep
  | accept (e : AcceptEv)
  | pump (i : Nat) (e : Ev)

/-- A new object. -/
def start : State := ⟨.idle .fresh, false, false, .unstarted, [], [], 0, []⟩

/-- The socket that direction `d` reads. -/
def source (i : Nat) : Dir → Res
  | .up => .client i
  | .down => .stream i

/-- The socket that direction `d` writes. -/
def sink (i : Nat) : Dir → Res
  | .up => .stream i
  | .down => .client i

/-- What a step of pump `i` does to its sockets. -/
def pumpOps (i : Nat) : Pc → List (Op Res)
  | .select => [.use (.client i), .use (.stream i)]
  | .recv d _ => [.use (source i d)]
  | .sendAll d _ _ .send _ | .sendAll d _ _ .wait _ | .shutdownWrite d => [.use (sink i d)]
  | .closeClient => [.release (.client i)]
  | .closeMesh => [.release (.stream i)]
  | .head | .sendAll _ _ _ .test _ | .done => []

namespace State

def does (s : State) (ops : List (Op Res)) : State := { s with log := s.log ++ ops }

/-- `Start` throws. -/
def throws (s : State) : State := { s with main := .idle .failed }

/-- The accept loop closes the client it has just accepted. -/
def refuse (s : State) (next : Accept) : State :=
  { s.does [.release (.client s.clients.length)] with accept := next, clients := s.clients ++ [.refused] }

def startStep (s : State) (x : In) : Option State :=
  match s.main, x with
  | .idle .fresh, .start => some { s with main := .ensureUp }
  | .ensureUp, .startCall ok => some (if ok then { s with main := .socket } else s.throws)
  | .socket, .startCall ok => some (if ok then { s.does [.acquire .listen] with main := .bind } else s.throws)
  | .bind, .startCall ok =>
    some (if ok then { s.does [.use .listen] with main := .listen } else (s.does [.use .listen, .release .listen]).throws)
  | .listen, .startCall ok =>
    some (if ok then { s.does [.use .listen, .acquire .acceptThread] with
      main := .probe, listenSock := true, running := true, accept := .test }
    else (s.does [.use .listen, .release .listen]).throws)
  | .probe, .probe valid ok =>
    let n := s.probes
    if valid then some { s.does [.acquire (.probe n), .use (.probe n), .release (.probe n)] with
      probes := n + 1, main := if ok then .idle .started else .probe }
    else some s
  | .probe, .timeout => some s.throws
  | _, _ => none

/-- `Close`, from the place `pc` on. -/
def closeStep (s : State) (destroy : Bool) (pc : ClosePc) : Option State :=
  match pc with
  | .joinAccept =>
    match s.accept with
    | .done => some { s.does [.release .acceptThread] with
        accept := .joined, main := .close (.joinWorkers s.workers) destroy }
    | .unstarted | .joined => some { s with main := .close (.joinWorkers s.workers) destroy }
    | _ => none
  | .joinWorkers (i :: rest) =>
    match s.clients[i]? with
    | some (.thread p true) =>
      if p.pc = .done then some { s.does [.release (.worker i)] with
        clients := s.clients.set i (.thread p false), main := .close (.joinWorkers rest) destroy }
      else none
    | some (.thread _ false) => some { s with main := .close (.joinWorkers rest) destroy }
    | _ => none
  | .joinWorkers [] => some { s with workers := [], main := .close .closeListen destroy }
  | .closeListen =>
    if s.listenSock then some { s.does [.release .listen] with
      listenSock := false, main := if destroy then .destroyed else .idle .closed }
    else some { s with main := if destroy then .destroyed else .idle .closed }

/-- A step of `AcceptLoop`. -/
def acceptStep (s : State) (e : AcceptEv) : Option State :=
  let i := s.clients.length
  match s.accept, e with
  | .test, .test => some { s with accept := if s.running then .select else .done }
  | .select, .select ready => some { s.does [.use .listen] with accept := if ready then .accept else .test }
  | .accept, .accept valid =>
    if valid then some { s.does [.use .listen, .acquire (.client i)] with accept := .check }
    else some { s.does [.use .listen] with accept := .test }
  | .check, .test => if s.running then some { s with accept := .dial } else some (s.refuse .done)
  | .dial, .dial ok =>
    if ok then some { s.does [.acquire (.stream i)] with accept := .spawn } else some (s.refuse .test)
  | .spawn, .spawn buf => some { s.does [.acquire (.worker i)] with
      accept := .test
      clients := s.clients ++ [.thread (Pump.MeshForwarder.start buf) true]
      workers := s.workers ++ [i] }
  | _, _ => none

/-- A step of `Pump` for client `i`. -/
def pumpStep (s : State) (i : Nat) (e : Ev) : Option State :=
  match s.clients[i]? with
  | some (.thread p joinable) => do
    guard (e ≠ .shutdown)
    let p' ← Pump.MeshForwarder.step { p with running := s.running } e
    return { s.does (pumpOps i p.pc) with clients := s.clients.set i (.thread p' joinable) }
  | _ => none

/-- A step of the object. `Start` is called once, and nothing but `Close` and
the destructor after it. -/
def step (s : State) (x : In) : Option State :=
  match x, s.main with
  | .close, .idle _ => some { s with running := false, main := .close .joinAccept false }
  | .destroy, .idle _ => some { s with running := false, main := .close .joinAccept true }
  | .closeStep, .close pc destroy => s.closeStep destroy pc
  | .accept e, _ => s.acceptStep e
  | .pump i e, _ => s.pumpStep i e
  | _, _ => s.startStep x

end State

/-- The steps of `AcceptLoop`. -/
inductive AcceptStep (s : State) : AcceptEv → State → Prop
  | enter (ha : s.accept = .test) : AcceptStep s .test { s with accept := .select }
  | leave (ha : s.accept = .test) : AcceptStep s .test { s with accept := .done }
  | select {ready : Bool} (ha : s.accept = .select) :
    AcceptStep s (.select ready) { s.does [.use .listen] with accept := if ready then .accept else .test }
  | noClient (ha : s.accept = .accept) : AcceptStep s (.accept false) { s.does [.use .listen] with accept := .test }
  | client (ha : s.accept = .accept) :
    AcceptStep s (.accept true) { s.does [.use .listen, .acquire (.client s.clients.length)] with accept := .check }
  | check (ha : s.accept = .check) : AcceptStep s .test { s with accept := .dial }
  | stop (ha : s.accept = .check) : AcceptStep s .test (s.refuse .done)
  | dial (ha : s.accept = .dial) :
    AcceptStep s (.dial true) { s.does [.acquire (.stream s.clients.length)] with accept := .spawn }
  | noDial (ha : s.accept = .dial) : AcceptStep s (.dial false) (s.refuse .test)
  | spawn {buf : Buffer Byte bufferSize} (ha : s.accept = .spawn) :
    AcceptStep s (.spawn buf) { s.does [.acquire (.worker s.clients.length)] with
      accept := .test
      clients := s.clients ++ [.thread (Pump.MeshForwarder.start buf) true]
      workers := s.workers ++ [s.clients.length] }

/-- The steps of the object. -/
inductive Step (s : State) : In → State → Prop
  | start (hm : s.main = .idle .fresh) : Step s .start { s with main := .ensureUp }
  /-- `Start` throws before there is a socket, or at the end of the probe. -/
  | throws {x : In} (hm : s.main = .ensureUp ∨ s.main = .socket ∨ s.main = .probe) : Step s x s.throws
  | up (hm : s.main = .ensureUp) : Step s (.startCall true) { s with main := .socket }
  | socket (hm : s.main = .socket) : Step s (.startCall true) { s.does [.acquire .listen] with main := .bind }
  | bind (hm : s.main = .bind) : Step s (.startCall true) { s.does [.use .listen] with main := .listen }
  | broken (hm : s.main = .bind ∨ s.main = .listen) :
    Step s (.startCall false) (s.does [.use .listen, .release .listen]).throws
  | listen (hm : s.main = .listen) :
    Step s (.startCall true) { s.does [.use .listen, .acquire .acceptThread] with
      main := .probe, listenSock := true, running := true, accept := .test }
  | noProbe {ok : Bool} (hm : s.main = .probe) : Step s (.probe false ok) s
  | probe {ok : Bool} (hm : s.main = .probe) :
    Step s (.probe true ok)
      { s.does [.acquire (.probe s.probes), .use (.probe s.probes), .release (.probe s.probes)] with
        probes := s.probes + 1, main := if ok then .idle .started else .probe }
  | close {stage : Stage} {x : In} {destroy : Bool} (hm : s.main = .idle stage)
    (hx : x = if destroy then .destroy else .close) :
    Step s x { s with running := false, main := .close .joinAccept destroy }
  | joinAccept {destroy : Bool} (hm : s.main = .close .joinAccept destroy) (ha : s.accept = .done) :
    Step s .closeStep { s.does [.release .acceptThread] with
      accept := .joined, main := .close (.joinWorkers s.workers) destroy }
  | noAccept {destroy : Bool} (hm : s.main = .close .joinAccept destroy)
    (ha : s.accept = .unstarted ∨ s.accept = .joined) :
    Step s .closeStep { s with main := .close (.joinWorkers s.workers) destroy }
  | joinWorker {destroy : Bool} {i : Nat} {rest : List Nat} {p : St Pc}
    (hm : s.main = .close (.joinWorkers (i :: rest)) destroy)
    (hc : s.clients[i]? = some (.thread p true)) (hp : p.pc = .done) :
    Step s .closeStep { s.does [.release (.worker i)] with
      clients := s.clients.set i (.thread p false), main := .close (.joinWorkers rest) destroy }
  | notJoinable {destroy : Bool} {i : Nat} {rest : List Nat} {p : St Pc}
    (hm : s.main = .close (.joinWorkers (i :: rest)) destroy)
    (hc : s.clients[i]? = some (.thread p false)) :
    Step s .closeStep { s with main := .close (.joinWorkers rest) destroy }
  | clear {destroy : Bool} (hm : s.main = .close (.joinWorkers []) destroy) :
    Step s .closeStep { s with workers := [], main := .close .closeListen destroy }
  | closeListen {destroy : Bool} (hm : s.main = .close .closeListen destroy) (hl : s.listenSock = true) :
    Step s .closeStep { s.does [.release .listen] with
      listenSock := false, main := if destroy then .destroyed else .idle .closed }
  | noListen {destroy : Bool} (hm : s.main = .close .closeListen destroy) (hl : s.listenSock = false) :
    Step s .closeStep { s with main := if destroy then .destroyed else .idle .closed }
  | accept {e : AcceptEv} {s' : State} (h : AcceptStep s e s') : Step s (.accept e) s'
  | pump {i : Nat} {e : Ev} {p p' : St Pc} {joinable : Bool}
    (hc : s.clients[i]? = some (.thread p joinable)) (he : e ≠ .shutdown)
    (hp : Pump.MeshForwarder.Step { p with running := s.running } e p') :
    Step s (.pump i e) { s.does (pumpOps i p.pc) with clients := s.clients.set i (.thread p' joinable) }

variable {s s' : State}

theorem startStep_cases {x : In} (h : s.startStep x = some s') : Step s x s' := by
  unfold State.startStep at h
  split at h
  · rename_i hm; cases h; exact .start hm
  · rename_i ok hm
    cases ok <;> cases h
    · exact .throws (.inl hm)
    · exact .up hm
  · rename_i ok hm
    cases ok <;> cases h
    · exact .throws (.inr (.inl hm))
    · exact .socket hm
  · rename_i ok hm
    cases ok <;> cases h
    · exact .broken (.inl hm)
    · exact .bind hm
  · rename_i ok hm
    cases ok <;> cases h
    · exact .broken (.inr hm)
    · exact .listen hm
  · rename_i valid ok hm
    cases valid <;> cases h
    · exact .noProbe hm
    · exact .probe hm
  · rename_i hm; cases h; exact .throws (.inr (.inr hm))
  · cases h

theorem closeStep_cases {destroy : Bool} {pc : ClosePc} (hm : s.main = .close pc destroy)
    (h : s.closeStep destroy pc = some s') : Step s .closeStep s' := by
  unfold State.closeStep at h
  split at h
  · split at h
    · rename_i ha; cases h; exact .joinAccept hm ha
    · rename_i ha; cases h; exact .noAccept hm (.inl ha)
    · rename_i ha; cases h; exact .noAccept hm (.inr ha)
    · cases h
  · split at h
    · rename_i hc
      split at h
      · rename_i hp; cases h; exact .joinWorker hm hc hp
      · cases h
    · rename_i hc; cases h; exact .notJoinable hm hc
    · cases h
  · cases h; exact .clear hm
  · split at h
    · rename_i hl; cases h; exact .closeListen hm hl
    · rename_i hl; cases h; exact .noListen hm (by simpa using hl)

theorem acceptStep_cases {e : AcceptEv} (h : s.acceptStep e = some s') : AcceptStep s e s' := by
  unfold State.acceptStep at h
  split at h
  · rename_i ha
    cases h
    split
    · exact .enter ha
    · exact .leave ha
  · rename_i ha; cases h; exact .select ha
  · rename_i valid ha
    cases valid <;> cases h
    · exact .noClient ha
    · exact .client ha
  · rename_i ha
    split at h <;> cases h
    · exact .check ha
    · exact .stop ha
  · rename_i ok ha
    cases ok <;> cases h
    · exact .noDial ha
    · exact .dial ha
  · rename_i ha; cases h; exact .spawn ha
  · cases h

theorem pumpStep_cases {i : Nat} {e : Ev} (h : s.pumpStep i e = some s') : Step s (.pump i e) s' := by
  unfold State.pumpStep at h
  split at h
  · rename_i p joinable hc
    obtain ⟨_, hg, h⟩ := Option.bind_eq_some_iff.mp h
    obtain ⟨p', hp, h⟩ := Option.bind_eq_some_iff.mp h
    cases h
    exact .pump hc ((Option.guard_eq_some' _).mp hg) (Pump.MeshForwarder.step_cases hp)
  · cases h

theorem step_cases {x : In} (h : s.step x = some s') : Step s x s' := by
  unfold State.step at h
  split at h
  · rename_i hm; cases h; exact .close hm rfl
  · rename_i hm; cases h; exact .close hm rfl
  · rename_i hm; exact closeStep_cases hm h
  · exact .accept (acceptStep_cases h)
  · exact pumpStep_cases h
  · exact startStep_cases h

end ErplTunnel.Lifecycle.MeshForwarder

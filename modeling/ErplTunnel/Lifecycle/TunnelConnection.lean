import Mathlib.Data.Option.Basic
import ErplTunnel.Framework.Custody
import ErplTunnel.Framework.Pool
import ErplTunnel.Pump.ForwardData

/-!
# The life of a TunnelConnection

A `TunnelConnection` is built, connected, authenticated, started, closed any
number of times and destroyed, all from one thread; a worker thread accepts
clients, and for each client a thread runs `ForwardData`. The threads share
`is_running_`, the session and the SSH socket. A step is a call of one of them,
with what it returned, and the state records in two logs what the calls do to
descriptors (`fds`) and to the session, its channels and the threads (`objs`).
A thread is acquired when it starts and released when it is joined.
-/

namespace ErplTunnel.Lifecycle.TunnelConnection

open Relay Pump Custody
open Pump.ForwardData (Pc)

/-- A descriptor, by the call that opens it: for a resolved address, for a probe
of `TestTunnelConnection`, the listener, or an accepted client. -/
inductive Fd where
  | addr (k : Nat)
  | probe (n : Nat)
  | listen
  | client (i : Nat)
  deriving DecidableEq, Repr

/-- Channels and forwarders are numbered as their clients. -/
inductive Obj where
  | session
  | channel (i : Nat)
  | worker
  | forwarder (i : Nat)
  deriving DecidableEq, Repr

/-- What the owner has done so far. -/
inductive Stage where
  | fresh
  | connected
  | authenticated
  | started
  | closed
  /-- A call has thrown. -/
  | failed
  deriving DecidableEq, Repr

/-- Where `Close` stands. -/
inductive ClosePc where
  | shutdownWrite
  | joinWorker
  /-- The loop over `forward_threads_`, with these to come. -/
  | joinForwarders (rest : List Nat)
  | freeSession
  | closeSocket
  deriving DecidableEq, Repr

/-- Where the owner's thread stands. -/
inductive Main where
  /-- Between two calls. -/
  | idle (stage : Stage)
  | resolve
  /-- `Connect` at `socket` for address `k` of `n`. -/
  | socket (k n : Nat)
  | connect (k n : Nat)
  | sessionInit
  | handshake
  /-- In `Close`, called by the destructor or not. -/
  | close (pc : ClosePc) (destroy : Bool)
  | destroyed
  deriving DecidableEq, Repr

/-- Where `WorkerFunction` stands. -/
inductive Worker where
  | unstarted
  | socket
  | bind
  | listen
  | test
  | select
  | accept
  /-- With a client, about to look at the flag. -/
  | check
  /-- About to open its channel. -/
  | channel
  | spawn
  | closeListen
  | done
  | joined
  deriving DecidableEq, Repr

/-- A client that the worker is done with: closed, or handed to a forwarder. -/
abbrev Client := Pool.Slot (St Pc)

structure State where
  main : Main
  isRunning : Bool
  sshSocket : Option Nat
  session : Bool
  worker : Worker
  clients : List Client
  forwardThreads : List Nat
  probes : Nat
  fds : List (Op Fd)
  objs : List (Op Obj)

inductive AcceptResult where
  | client
  | again
  | error
  deriving DecidableEq, Repr

/-- A step of the worker, with what the call returned. -/
inductive WorkerEv where
  | answer (ok : Bool)
  | test
  | select (r : SelectResult)
  | accept (r : AcceptResult)
  /-- A forwarder starts, with this in its buffer. -/
  | spawn (buffer : Buffer Byte bufferSize)
  | call

inductive In where
  /-- `Connect` checks its parameters. -/
  | connect (valid : Bool)
  /-- `getaddrinfo`, which returns `n` addresses, or none. -/
  | resolve (n : Nat)
  | socket (valid : Bool)
  | connected (ok : Bool)
  | sessionInit (ok : Bool)
  | handshake (ok : Bool)
  /-- One of the three `AuthenticateWith`, which may fail before it calls libssh2. -/
  | authenticate (calls ok : Bool)
  | startWorker
  /-- A round of `TestTunnelConnection` that gets a socket. -/
  | probe
  | close
  | destroy
  /-- `Close` goes on. -/
  | closeStep
  | worker (e : WorkerEv)
  | forwarder (i : Nat) (e : Ev)

/-- A new object. -/
def start : State := ⟨.idle .fresh, false, none, false, .unstarted, [], [], 0, [], []⟩

/-- What a step of forwarder `i` does to descriptors; `ssh` is for a libssh2
call. -/
def forwarderFds (ssh : List (Op Fd)) (i : Nat) : Pc → List (Op Fd)
  | .select | .recv | .send _ _ => [.use (.client i)]
  | .write _ _ | .read | .eof | .channelFree => ssh
  | .closeClient => [.release (.client i)]
  | .head | .writeTest _ _ | .sendTest _ _ | .done => []

def forwarderObjs (i : Nat) : Pc → List (Op Obj)
  | .write _ _ | .read | .eof => [.use .session, .use (.channel i)]
  | .channelFree => [.use .session, .release (.channel i)]
  | _ => []

namespace State

def log (s : State) (fds : List (Op Fd)) (objs : List (Op Obj)) : State :=
  { s with fds := s.fds ++ fds, objs := s.objs ++ objs }

/-- An operation on the SSH socket, if there is one. -/
def ssh (s : State) (op : Fd → Op Fd) : List (Op Fd) := s.sshSocket.toList.map fun k => op (.addr k)

/-- The loop of `Connect` goes to the next address. -/
def nextAddr (s : State) (k n : Nat) : State :=
  { s with main := if k + 1 < n then .socket (k + 1) n else .idle .failed }

/-- The worker closes the client it has just accepted. -/
def refuse (s : State) (worker : Worker) : State :=
  { s with worker, clients := s.clients ++ [.refused] }

def connectStep (s : State) (x : In) : Option State :=
  match s.main, x with
  | .idle .fresh, .connect valid => some { s with main := if valid then .resolve else .idle .failed }
  | .resolve, .resolve n =>
    some { s with sshSocket := none, main := if 0 < n then .socket 0 n else .idle .failed }
  | .socket k n, .socket valid =>
    if valid then some { s.log [.acquire (.addr k)] [] with main := .connect k n } else some (s.nextAddr k n)
  | .connect k n, .connected ok =>
    if ok then some { s.log [.use (.addr k)] [] with main := .sessionInit, sshSocket := some k }
    else some ((s.log [.use (.addr k), .release (.addr k)] []).nextAddr k n)
  | .sessionInit, .sessionInit ok =>
    if ok then some { s.log [] [.acquire .session] with main := .handshake, session := true }
    -- `ssh_socket_` keeps the descriptor
    else some { s.log (s.ssh .release) [] with main := .idle .failed }
  | .handshake, .handshake ok =>
    if ok then some { s.log (s.ssh .use) [.use .session] with main := .idle .connected }
    else some { s.log (s.ssh .use ++ s.ssh .release) [.use .session] with main := .idle .failed }
  | _, _ => none

/-- `Close`, from the place `pc` on. -/
def closeStep (s : State) (destroy : Bool) (pc : ClosePc) : Option State :=
  match pc with
  | .shutdownWrite => some { s.log (s.ssh .use) [] with main := .close .joinWorker destroy }
  | .joinWorker =>
    match s.worker with
    | .done => some { s.log [] [.release .worker] with
        worker := .joined, main := .close (.joinForwarders s.forwardThreads) destroy }
    | .unstarted | .joined => some { s with main := .close (.joinForwarders s.forwardThreads) destroy }
    | _ => none
  | .joinForwarders (i :: rest) =>
    match s.clients[i]? with
    | some (.thread p true) =>
      if p.pc = .done then some { s.log [] [.release (.forwarder i)] with
        clients := s.clients.set i (.thread p false), main := .close (.joinForwarders rest) destroy }
      else none
    | some (.thread _ false) => some { s with main := .close (.joinForwarders rest) destroy }
    | _ => none
  | .joinForwarders [] => some { s with forwardThreads := [], main := .close .freeSession destroy }
  | .freeSession =>
    if s.session then some { s.log (s.ssh .use) [.use .session, .release .session] with
      session := false, main := .close .closeSocket destroy }
    else some { s with main := .close .closeSocket destroy }
  | .closeSocket => some { s.log (s.ssh .release) [] with
      sshSocket := none, main := if destroy then .destroyed else .idle .closed }

/-- A step of `WorkerFunction`. -/
def workerStep (s : State) (e : WorkerEv) : Option State :=
  let i := s.clients.length
  match s.worker, e with
  | .socket, .answer ok =>
    if ok then some { s.log [.acquire .listen] [] with worker := .bind } else some { s with worker := .done }
  | .bind, .answer ok =>
    if ok then some { s.log [.use .listen] [] with worker := .listen }
    else some { s.log [.use .listen, .release .listen] [] with worker := .done }
  | .listen, .answer ok =>
    if ok then some { s.log [.use .listen] [] with worker := .test }
    else some { s.log [.use .listen, .release .listen] [] with worker := .done }
  | .test, .test => some { s with worker := if s.isRunning then .select else .closeListen }
  | .select, .select (.ready true false) => some { s.log [.use .listen] [] with worker := .accept }
  | .select, .select .timeout => some { s.log [.use .listen] [] with worker := .test }
  | .select, .select .error => some { s.log [.use .listen] [] with worker := .closeListen }
  | .accept, .accept .client => some { s.log [.use .listen, .acquire (.client i)] [] with worker := .check }
  | .accept, .accept .again => some { s.log [.use .listen] [] with worker := .test }
  | .accept, .accept .error => some { s.log [.use .listen] [] with worker := .closeListen }
  | .check, .test =>
    if s.isRunning then some { s with worker := .channel }
    else some ((s.log [.release (.client i)] []).refuse .closeListen)
  | .channel, .answer ok =>
    if ok then some { s.log (s.ssh .use) [.use .session, .acquire (.channel i)] with worker := .spawn }
    else some ((s.log (s.ssh .use ++ [.release (.client i)]) [.use .session]).refuse .test)
  | .spawn, .spawn buffer => some { s.log [] [.acquire (.forwarder i)] with
      worker := .test
      clients := s.clients ++ [.thread (ForwardData.start buffer) true]
      forwardThreads := s.forwardThreads ++ [i] }
  | .closeListen, .call => some { s.log [.release .listen] [] with worker := .done }
  | _, _ => none

/-- A step of `ForwardData` for client `i`. -/
def forwarderStep (s : State) (i : Nat) (e : Ev) : Option State :=
  match s.clients[i]? with
  | some (.thread p joinable) => do
    guard (e ≠ .shutdown)
    let p' ← ForwardData.step { p with running := s.isRunning } e
    return { s.log (forwarderFds (s.ssh .use) i p.pc) (forwarderObjs i p.pc) with
      clients := s.clients.set i (.thread p' joinable) }
  | _ => none

/-- A step of the object. `Connect` is called once, `StartWorker` after it has
been authenticated, and nothing but `Close` and the destructor after that or
after a call has thrown. -/
def step (s : State) (x : In) : Option State :=
  match x, s.main with
  | .authenticate calls ok, .idle .connected =>
    if ok && !calls then none
    else some { (if calls then s.log (s.ssh .use) [.use .session] else s) with
      main := .idle (if ok then .authenticated else .failed) }
  | .startWorker, .idle .authenticated =>
    some { s.log [] [.acquire .worker] with main := .idle .started, isRunning := true, worker := .socket }
  | .probe, .idle .started =>
    if s.isRunning then some { s.log [.acquire (.probe s.probes), .use (.probe s.probes), .release (.probe s.probes)] []
      with probes := s.probes + 1 }
    else none
  | .close, .idle _ => some { s with isRunning := false, main := .close .shutdownWrite false }
  | .destroy, .idle _ => some { s with isRunning := false, main := .close .shutdownWrite true }
  | .closeStep, .close pc destroy => s.closeStep destroy pc
  | .worker e, _ => s.workerStep e
  | .forwarder i e, _ => s.forwarderStep i e
  | _, _ => s.connectStep x

end State

/-- The worker has the listener and no client. -/
def Worker.listening : Worker → Bool
  | .bind | .listen | .test | .select | .accept | .closeListen => true
  | _ => false

/-- The steps of `WorkerFunction`. -/
inductive WorkerStep (s : State) : WorkerEv → State → Prop
  | noSocket (hw : s.worker = .socket) : WorkerStep s (.answer false) { s with worker := .done }
  | socket (hw : s.worker = .socket) :
    WorkerStep s (.answer true) { s.log [.acquire .listen] [] with worker := .bind }
  | broken (hw : s.worker = .bind ∨ s.worker = .listen) :
    WorkerStep s (.answer false) { s.log [.use .listen, .release .listen] [] with worker := .done }
  | listening {e : WorkerEv} {w : Worker} (hw : s.worker.listening = true) (hw' : w.listening = true) :
    WorkerStep s e { s.log [.use .listen] [] with worker := w }
  | test {w : Worker} (hw : s.worker = .test) (hw' : w.listening = true ) :
    WorkerStep s .test { s with worker := w }
  | accept (hw : s.worker = .accept) :
    WorkerStep s (.accept .client)
      { s.log [.use .listen, .acquire (.client s.clients.length)] [] with worker := .check }
  | check (hw : s.worker = .check) : WorkerStep s .test { s with worker := .channel }
  | stop (hw : s.worker = .check) :
    WorkerStep s .test ((s.log [.release (.client s.clients.length)] []).refuse .closeListen)
  | channel (hw : s.worker = .channel) :
    WorkerStep s (.answer true)
      { s.log (s.ssh .use) [.use .session, .acquire (.channel s.clients.length)] with worker := .spawn }
  | noChannel (hw : s.worker = .channel) :
    WorkerStep s (.answer false)
      ((s.log (s.ssh .use ++ [.release (.client s.clients.length)]) [.use .session]).refuse .test)
  | spawn {buffer : Buffer Byte bufferSize} (hw : s.worker = .spawn) :
    WorkerStep s (.spawn buffer) { s.log [] [.acquire (.forwarder s.clients.length)] with
      worker := .test
      clients := s.clients ++ [.thread (ForwardData.start buffer) true]
      forwardThreads := s.forwardThreads ++ [s.clients.length] }
  | closeListen (hw : s.worker = .closeListen) :
    WorkerStep s .call { s.log [.release .listen] [] with worker := .done }

/-- The steps of the object. -/
inductive Step (s : State) : In → State → Prop
  | connect {valid : Bool} (hm : s.main = .idle .fresh) :
    Step s (.connect valid) { s with main := if valid then .resolve else .idle .failed }
  | resolve {n : Nat} (hm : s.main = .resolve) :
    Step s (.resolve n) { s with sshSocket := none, main := if 0 < n then .socket 0 n else .idle .failed }
  | noSocket {k n : Nat} (hm : s.main = .socket k n) : Step s (.socket false) (s.nextAddr k n)
  | socket {k n : Nat} (hm : s.main = .socket k n) :
    Step s (.socket true) { s.log [.acquire (.addr k)] [] with main := .connect k n }
  | refused {k n : Nat} (hm : s.main = .connect k n) :
    Step s (.connected false) ((s.log [.use (.addr k), .release (.addr k)] []).nextAddr k n)
  | connected {k n : Nat} (hm : s.main = .connect k n) :
    Step s (.connected true) { s.log [.use (.addr k)] [] with main := .sessionInit, sshSocket := some k }
  | noSession (hm : s.main = .sessionInit) :
    Step s (.sessionInit false) { s.log (s.ssh .release) [] with main := .idle .failed }
  | session (hm : s.main = .sessionInit) :
    Step s (.sessionInit true) { s.log [] [.acquire .session] with main := .handshake, session := true }
  | noHandshake (hm : s.main = .handshake) :
    Step s (.handshake false) { s.log (s.ssh .use ++ s.ssh .release) [.use .session] with main := .idle .failed }
  | handshake (hm : s.main = .handshake) :
    Step s (.handshake true) { s.log (s.ssh .use) [.use .session] with main := .idle .connected }
  | authenticate {ok : Bool} (hm : s.main = .idle .connected) :
    Step s (.authenticate true ok) { s.log (s.ssh .use) [.use .session] with
      main := .idle (if ok then .authenticated else .failed) }
  | noCredentials (hm : s.main = .idle .connected) :
    Step s (.authenticate false false) { s with main := .idle .failed }
  | startWorker (hm : s.main = .idle .authenticated) :
    Step s .startWorker { s.log [] [.acquire .worker] with
      main := .idle .started, isRunning := true, worker := .socket }
  | probe (hm : s.main = .idle .started) :
    Step s .probe { s.log [.acquire (.probe s.probes), .use (.probe s.probes), .release (.probe s.probes)] [] with
      probes := s.probes + 1 }
  | close {stage : Stage} {x : In} {destroy : Bool} (hm : s.main = .idle stage)
    (hx : x = if destroy then .destroy else .close) :
    Step s x { s with isRunning := false, main := .close .shutdownWrite destroy }
  | shutdownWrite {destroy : Bool} (hm : s.main = .close .shutdownWrite destroy) :
    Step s .closeStep { s.log (s.ssh .use) [] with main := .close .joinWorker destroy }
  | joinWorker {destroy : Bool} (hm : s.main = .close .joinWorker destroy) (hw : s.worker = .done) :
    Step s .closeStep { s.log [] [.release .worker] with
      worker := .joined, main := .close (.joinForwarders s.forwardThreads) destroy }
  | noWorker {destroy : Bool} (hm : s.main = .close .joinWorker destroy)
    (hw : s.worker = .unstarted ∨ s.worker = .joined) :
    Step s .closeStep { s with main := .close (.joinForwarders s.forwardThreads) destroy }
  | joinForwarder {destroy : Bool} {i : Nat} {rest : List Nat} {p : St Pc}
    (hm : s.main = .close (.joinForwarders (i :: rest)) destroy)
    (hc : s.clients[i]? = some (.thread p true)) (hp : p.pc = .done) :
    Step s .closeStep { s.log [] [.release (.forwarder i)] with
      clients := s.clients.set i (.thread p false), main := .close (.joinForwarders rest) destroy }
  | notJoinable {destroy : Bool} {i : Nat} {rest : List Nat} {p : St Pc}
    (hm : s.main = .close (.joinForwarders (i :: rest)) destroy)
    (hc : s.clients[i]? = some (.thread p false)) :
    Step s .closeStep { s with main := .close (.joinForwarders rest) destroy }
  | clear {destroy : Bool} (hm : s.main = .close (.joinForwarders []) destroy) :
    Step s .closeStep { s with forwardThreads := [], main := .close .freeSession destroy }
  | freeSession {destroy : Bool} (hm : s.main = .close .freeSession destroy) (hs : s.session = true) :
    Step s .closeStep { s.log (s.ssh .use) [.use .session, .release .session] with
      session := false, main := .close .closeSocket destroy }
  | nothingToFree {destroy : Bool} (hm : s.main = .close .freeSession destroy) (hs : s.session = false) :
    Step s .closeStep { s with main := .close .closeSocket destroy }
  | closeSocket {destroy : Bool} (hm : s.main = .close .closeSocket destroy) :
    Step s .closeStep { s.log (s.ssh .release) [] with
      sshSocket := none, main := if destroy then .destroyed else .idle .closed }
  | worker {e : WorkerEv} {s' : State} (h : WorkerStep s e s') : Step s (.worker e) s'
  | forwarder {i : Nat} {e : Ev} {p p' : St Pc} {joinable : Bool}
    (hc : s.clients[i]? = some (.thread p joinable)) (he : e ≠ .shutdown)
    (hp : ForwardData.Step { p with running := s.isRunning } e p') :
    Step s (.forwarder i e) { s.log (forwarderFds (s.ssh .use) i p.pc) (forwarderObjs i p.pc) with
      clients := s.clients.set i (.thread p' joinable) }

variable {s s' : State}

theorem workerStep_cases {e : WorkerEv} (h : s.workerStep e = some s') : WorkerStep s e s' := by
  unfold State.workerStep at h
  split at h
  · rename_i hw
    split at h <;> cases h
    · rename_i ok hok; subst hok; exact .socket hw
    · rename_i ok hok; obtain rfl : ok = false := by simpa using hok
      exact .noSocket hw
  · rename_i hw
    split at h <;> cases h
    · exact .listening (by rw [hw]; rfl) rfl
    · rename_i ok hok; obtain rfl : ok = false := by simpa using hok
      exact .broken (.inl hw)
  · rename_i hw
    split at h <;> cases h
    · exact .listening (by rw [hw]; rfl) rfl
    · rename_i ok hok; obtain rfl : ok = false := by simpa using hok
      exact .broken (.inr hw)
  · rename_i hw
    cases h
    exact .test hw (by split <;> rfl)
  · rename_i hw; cases h; exact .listening (by rw [hw]; rfl) rfl
  · rename_i hw; cases h; exact .listening (by rw [hw]; rfl) rfl
  · rename_i hw; cases h; exact .listening (by rw [hw]; rfl) rfl
  · rename_i hw; cases h; exact .accept hw
  · rename_i hw; cases h; exact .listening (by rw [hw]; rfl) rfl
  · rename_i hw; cases h; exact .listening (by rw [hw]; rfl) rfl
  · rename_i hw
    split at h <;> cases h
    · exact .check hw
    · exact .stop hw
  · rename_i hw
    split at h <;> cases h
    · rename_i ok hok; subst hok; exact .channel hw
    · rename_i ok hok; obtain rfl : ok = false := by simpa using hok
      exact .noChannel hw
  · rename_i hw; cases h; exact .spawn hw
  · rename_i hw; cases h; exact .closeListen hw
  · cases h

theorem connectStep_cases {x : In} (h : s.connectStep x = some s') : Step s x s' := by
  unfold State.connectStep at h
  split at h
  · rename_i hm; cases h; exact .connect hm
  · rename_i hm; cases h; exact .resolve hm
  · rename_i valid hm
    cases valid <;> cases h
    · exact .noSocket hm
    · exact .socket hm
  · rename_i ok hm
    cases ok <;> cases h
    · exact .refused hm
    · exact .connected hm
  · rename_i ok hm
    cases ok <;> cases h
    · exact .noSession hm
    · exact .session hm
  · rename_i ok hm
    cases ok <;> cases h
    · exact .noHandshake hm
    · exact .handshake hm
  · cases h

theorem closeStep_cases {destroy : Bool} {pc : ClosePc} (hm : s.main = .close pc destroy)
    (h : s.closeStep destroy pc = some s') : Step s .closeStep s' := by
  unfold State.closeStep at h
  split at h
  · cases h; exact .shutdownWrite hm
  · split at h
    · rename_i hw; cases h; exact .joinWorker hm hw
    · rename_i hw; cases h; exact .noWorker hm (.inl hw)
    · rename_i hw; cases h; exact .noWorker hm (.inr hw)
    · cases h
  · split at h
    · rename_i hc
      split at h
      · rename_i hp; cases h; exact .joinForwarder hm hc hp
      · cases h
    · rename_i hc; cases h; exact .notJoinable hm hc
    · cases h
  · cases h; exact .clear hm
  · split at h
    · rename_i hs; cases h; exact .freeSession hm hs
    · rename_i hs; cases h; exact .nothingToFree hm (by simpa using hs)
  · cases h; exact .closeSocket hm

theorem forwarderStep_cases {i : Nat} {e : Ev} (h : s.forwarderStep i e = some s') :
    Step s (.forwarder i e) s' := by
  unfold State.forwarderStep at h
  split at h
  · rename_i p joinable hc
    obtain ⟨_, hg, h⟩ := Option.bind_eq_some_iff.mp h
    obtain ⟨p', hp, h⟩ := Option.bind_eq_some_iff.mp h
    cases h
    exact .forwarder hc ((Option.guard_eq_some' _).mp hg) (ForwardData.step_cases hp)
  · cases h

theorem step_cases {x : In} (h : s.step x = some s') : Step s x s' := by
  unfold State.step at h
  split at h
  · rename_i calls ok hm
    split at h
    · cases h
    · rename_i hc
      cases calls
      · obtain rfl : ok = false := by simpa using hc
        cases h
        exact .noCredentials hm
      · cases h
        exact .authenticate hm
  · rename_i hm; cases h; exact .startWorker hm
  · rename_i hm
    split at h
    · cases h; exact .probe hm
    · cases h
  · rename_i hm; cases h; exact .close hm rfl
  · rename_i hm; cases h; exact .close hm rfl
  · rename_i hm; exact closeStep_cases hm h
  · exact .worker (workerStep_cases h)
  · exact forwarderStep_cases h
  · exact connectStep_cases h

end ErplTunnel.Lifecycle.TunnelConnection

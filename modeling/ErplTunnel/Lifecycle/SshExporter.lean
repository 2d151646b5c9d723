import Mathlib.Data.Option.Basic
import ErplTunnel.Framework.Custody
import ErplTunnel.Framework.Pool
import ErplTunnel.Pump.SshExporter

/-!
# The life of an SshExporter

`SshExporter::Start` probes the local service, connects, authenticates, asks the
server for a listener and starts the accept loop; where it fails it closes what
it has and throws, in most places through `Close`. The accept loop starts a
worker for each channel and joins the ones that have finished before that.
`Close` is called any number of times after `Start`, and once more by the
destructor.

The log records what the calls do to sockets, to the session, to the listener
and to the threads, which are acquired when they start and released when they
are joined. The uses of the listener are the attempts to cancel it, the last of
which releases it.
-/

namespace ErplTunnel.Lifecycle.SshExporter

open Relay Pump Custody
open Pump.SshExporter (Pc)

/-- Sockets are named by the dial that opens them and the address it is for. -/
inductive Res where
  | service (k : Nat)
  | ssh (k : Nat)
  /-- The local service, dialled by worker `i`. -/
  | localService (i k : Nat)
  | session
  | listener
  | acceptThread
  | worker (i : Nat)
  deriving DecidableEq, Repr

/-- What becomes of an address in `DialTcp`: no socket, a socket that does not
connect in time, or one that does. -/
inductive Attempt where
  | noSocket
  | refused
  | connected
  deriving DecidableEq, Repr

/-- `DialTcp` over the addresses that the name resolves to, from address `k` on:
what it does, and the socket it returns. -/
def dialTcp (name : Nat → Res) (k : Nat) : List Attempt → List (Op Res) × Option Nat
  | [] => ([], none)
  | .noSocket :: as => dialTcp name (k + 1) as
  | .refused :: as =>
    let r := dialTcp name (k + 1) as
    ([.acquire (name k), .use (name k), .release (name k)] ++ r.1, r.2)
  | .connected :: _ => ([.acquire (name k), .use (name k)], some k)

inductive Stage where
  | fresh
  | started
  | closed
  /-- `Start` has thrown. -/
  | failed
  deriving DecidableEq, Repr

/-- Where `Close` stands. -/
inductive ClosePc where
  | joinAccept
  | swap
  /-- The loop over the workers swapped out, with these to come. -/
  | joinWorkers (pending : List Nat)
  | cancel
  | freeSession
  | closeSocket
  deriving DecidableEq, Repr

/-- Who has called `Close`: the owner, `Start` before it throws, or the
destructor. -/
inductive Caller where
  | owner
  | start
  | destructor
  deriving DecidableEq, Repr

/-- Where the owner's thread stands. -/
inductive Main where
  /-- Between two calls. -/
  | idle (stage : Stage)
  | dialSsh
  | fits
  | sessionInit
  | handshake
  | auth
  | listen
  | bound
  | close (pc : ClosePc) (caller : Caller)
  | destroyed
  deriving DecidableEq, Repr

/-- Where `AcceptLoop` stands. -/
inductive Accept where
  | unstarted
  | test
  | select
  /-- The flag again, after the wait. -/
  | recheck
  | locked
  /-- With a channel, about to sweep the workers. -/
  | reap
  /-- In `ReapFinishedWorkers`, with these to join. -/
  | join (finished : List Nat)
  | spawn
  /-- Worker `i` has been started and is not in the list. -/
  | push (i : Nat)
  /-- The transport is dead, about to take the flag down. -/
  | dropped
  | done
  | joined
  deriving DecidableEq, Repr

/-- A worker, with its pump and its socket to the local service, until it has
set its `done` flag. -/
inductive Worker where
  | pumping (pump : St Pc) (sock : Option Nat)
  | finished

structure State where
  main : Main
  running : Bool
  sshSocket : Option Nat
  session : Bool
  listener : Bool
  accept : Accept
  /-- Every worker so far. -/
  served : List (Pool.Slot Worker)
  workers : List Nat
  log : List (Op Res)

inductive AcceptResult where
  | channel
  | none
  | dead
  deriving DecidableEq, Repr

/-- Where the accept loop goes with what it was given. -/
def AcceptResult.next : AcceptResult → Accept
  | .channel => .reap
  | .none => .test
  | .dead => .dropped

/-- Where `Close` returns to. -/
def Caller.next : Caller → Main
  | .owner => .idle .closed
  | .start => .idle .failed
  | .destructor => .destroyed

/-- A step of the accept loop, with what the call returned. -/
inductive AcceptEv where
  | test
  | select
  | accept (r : AcceptResult)
  | reap
  | join
  /-- A worker starts, with this in its buffer. -/
  | spawn (buf : Buffer Byte bufferSize)
  | push
  | drop

inductive In where
  /-- `Start` probes the local service. -/
  | start (attempts : List Attempt)
  | dialSsh (attempts : List Attempt)
  /-- A check or a call of `Start` succeeds or fails. -/
  | startCall (ok : Bool)
  /-- Authentication, which may fail before it calls libssh2. -/
  | auth (calls ok : Bool)
  | close
  | destroy
  /-- `Close` goes on. -/
  | closeStep
  /-- An attempt to cancel the listener, which is repeated or is the last. -/
  | cancel (again : Bool)
  | accept (e : AcceptEv)
  /-- `DialLocalService` in worker `i`. -/
  | dial (i : Nat) (attempts : List Attempt)
  /-- Another step of the pump of worker `i`. -/
  | pump (i : Nat) (e : Ev)
  /-- Worker `i` sets its flag and returns. -/
  | finish (i : Nat)

/-- A new object. -/
def start : State := ⟨.idle .fresh, false, none, false, false, .unstarted, [], [], []⟩

/-- What a step of worker `i` does; `ssh` is for a libssh2 call. -/
def pumpOps (ssh : List (Op Res)) (i : Nat) (sock : Option Nat) : Pc → List (Op Res)
  | .select | .recv | .sendAll _ .send _ | .sendAll _ .wait _ | .shutdownWrite =>
    sock.toList.map fun k => .use (.localService i k)
  | .sendEof | .write _ _ | .read _ | .eof _ | .channelClose | .channelFree => .use .session :: ssh
  | .closeLocal => sock.toList.map fun k => .release (.localService i k)
  | _ => []

namespace State

def does (s : State) (ops : List (Op Res)) : State := { s with log := s.log ++ ops }

/-- An operation on the SSH socket, if there is one. -/
def ssh (s : State) (op : Res → Op Res) : List (Op Res) := s.sshSocket.toList.map fun k => op (.ssh k)

/-- A libssh2 call. -/
def libssh2 (s : State) : List (Op Res) := .use .session :: s.ssh .use

/-- `Start` closes the SSH socket and throws. -/
def throws (s : State) : State := { s.does (s.ssh .release) with main := .idle .failed, sshSocket := none }

/-- `Close` is called. -/
def closing (s : State) (caller : Caller) : State := { s with running := false, main := .close .joinAccept caller }

def startStep (s : State) (x : In) : Option State :=
  match s.main, x with
  | .idle .fresh, .start attempts =>
    match dialTcp .service 0 attempts with
    | (ops, none) => some { s.does ops with main := .idle .failed }
    | (ops, some k) => some { s.does (ops ++ [.release (.service k)]) with main := .dialSsh }
  | .dialSsh, .dialSsh attempts =>
    match dialTcp .ssh 0 attempts with
    | (ops, none) => some { s.does ops with main := .idle .failed }
    | (ops, some k) => some { s.does ops with main := .fits, sshSocket := some k }
  | .fits, .startCall ok => some (if ok then { s with main := .sessionInit } else s.throws)
  | .sessionInit, .startCall ok =>
    some (if ok then { s.does [.acquire .session] with main := .handshake, session := true } else s.throws)
  | .handshake, .startCall ok =>
    some (if ok then { s.does s.libssh2 with main := .auth } else (s.does s.libssh2).closing .start)
  | .auth, .auth calls ok =>
    if calls then some (if ok then { s.does s.libssh2 with main := .listen } else (s.does s.libssh2).closing .start)
    else some (s.closing .start)
  | .listen, .startCall ok =>
    some (if ok then { s.does (s.libssh2 ++ [.acquire .listener]) with main := .bound, listener := true }
    else (s.does s.libssh2).closing .start)
  | .bound, .startCall ok =>
    some (if ok then { s.does (s.libssh2 ++ [.acquire .acceptThread]) with
      main := .idle .started, running := true, accept := .test }
    else s.closing .start)
  | _, _ => none

/-- Worker `i` is joined, if it is joinable. -/
def joinWorker (s : State) (i : Nat) : Option State :=
  match s.served[i]? with
  | some (.thread .finished true) =>
    some { s.does [.release (.worker i)] with served := s.served.set i (.thread .finished false) }
  | some (.thread _ false) => some s
  | _ => none

/-- `Close`, from the place `pc` on. -/
def closeStep (s : State) (caller : Caller) (pc : ClosePc) : Option State :=
  match pc with
  | .joinAccept =>
    match s.accept with
    | .done => some { s.does [.release .acceptThread] with accept := .joined, main := .close .swap caller }
    | .unstarted | .joined => some { s with main := .close .swap caller }
    | _ => none
  | .swap => some { s with workers := [], main := .close (.joinWorkers s.workers) caller }
  | .joinWorkers (i :: pending) =>
    (s.joinWorker i).map fun s => { s with main := .close (.joinWorkers pending) caller }
  | .joinWorkers [] => some { s with main := .close .cancel caller }
  | .cancel => if s.listener then none else some { s with main := .close .freeSession caller }
  | .freeSession =>
    if s.session then some { s.does (s.libssh2 ++ [.release .session]) with
      session := false, main := .close .closeSocket caller }
    else some { s with main := .close .closeSocket caller }
  | .closeSocket => some { s.does (s.ssh .release) with sshSocket := none, main := caller.next }

/-- An attempt of the loop that cancels the listener. -/
def cancelStep (s : State) (again : Bool) : Option State :=
  if s.listener then
    if again then some (s.does (s.libssh2 ++ [.use .listener]))
    else some { s.does (s.libssh2 ++ [.release .listener]) with listener := false }
  else none

/-- Worker `i` has set its `done` flag. -/
def isDone (s : State) (i : Nat) : Bool :=
  match s.served[i]? with
  | some (.thread .finished _) => true
  | _ => false

/-- A step of `AcceptLoop`. -/
def acceptStep (s : State) (e : AcceptEv) : Option State :=
  match s.accept, e with
  | .test, .test => some { s with accept := if s.running then .select else .done }
  | .select, .select => some { s.does (s.ssh .use) with accept := .recheck }
  | .recheck, .test => some { s with accept := if s.running then .locked else .done }
  | .locked, .accept r =>
    some (if s.listener then { s.does s.libssh2 with accept := r.next } else { s with accept := .done })
  | .reap, .reap => some { s with
      accept := .join (s.workers.filter s.isDone), workers := s.workers.filter fun i => !s.isDone i }
  | .join (i :: finished), .join => (s.joinWorker i).map fun s => { s with accept := .join finished }
  | .join [], .join => some { s with accept := .spawn }
  | .spawn, .spawn buf => some { s.does [.acquire (.worker s.served.length)] with
      accept := .push s.served.length
      served := s.served ++ [.thread (.pumping (Pump.SshExporter.start buf) none) true] }
  | .push i, .push => some { s with accept := .test, workers := s.workers ++ [i] }
  | .dropped, .drop => some { s with running := false, accept := .done }
  | _, _ => none

/-- `DialLocalService` in worker `i`. -/
def dialStep (s : State) (i : Nat) (attempts : List Attempt) : Option State :=
  match s.served[i]? with
  | some (.thread (.pumping p _) joinable) => do
    guard (p.pc = .dial)
    let p' ← Pump.SshExporter.step { p with running := s.running }
      (.answer (dialTcp (.localService i) 0 attempts).2.isSome)
    return { s.does (dialTcp (.localService i) 0 attempts).1 with
      served := s.served.set i (.thread (.pumping p' (dialTcp (.localService i) 0 attempts).2) joinable) }
  | _ => none

/-- A step of `Pump` in worker `i` after that. -/
def pumpStep (s : State) (i : Nat) (e : Ev) : Option State :=
  match s.served[i]? with
  | some (.thread (.pumping p sock) joinable) => do
    guard (p.pc ≠ .dial ∧ e ≠ .shutdown)
    let p' ← Pump.SshExporter.step { p with running := s.running } e
    return { s.does (pumpOps (s.ssh .use) i sock p.pc) with
      served := s.served.set i (.thread (.pumping p' sock) joinable) }
  | _ => none

/-- Worker `i` returns from `Pump` and sets its flag. -/
def finishStep (s : State) (i : Nat) : Option State :=
  match s.served[i]? with
  | some (.thread (.pumping p _) joinable) => do
    guard (p.pc = .done)
    return { s with served := s.served.set i (.thread .finished joinable) }
  | _ => none

/-- A step of the object. `Start` is called once, and nothing but `Close` and
the destructor after it. -/
def step (s : State) (x : In) : Option State :=
  match x, s.main with
  | .close, .idle _ => some (s.closing .owner)
  | .destroy, .idle _ => some (s.closing .destructor)
  | .closeStep, .close pc caller => s.closeStep caller pc
  | .cancel again, .close .cancel _ => s.cancelStep again
  | .accept e, _ => s.acceptStep e
  | .dial i attempts, _ => s.dialStep i attempts
  | .pump i e, _ => s.pumpStep i e
  | .finish i, _ => s.finishStep i
  | _, _ => s.startStep x

end State

/-- Worker `i` is joined, or has been joined. -/
inductive JoinStep (s : State) (i : Nat) : State → Prop
  | joined (hc : s.served[i]? = some (.thread .finished true)) :
    JoinStep s i { s.does [.release (.worker i)] with served := s.served.set i (.thread .finished false) }
  | notJoinable {w : Worker} (hc : s.served[i]? = some (.thread w false)) : JoinStep s i s

/-- The steps of `AcceptLoop`. -/
inductive AcceptStep (s : State) : AcceptEv → State → Prop
  | enter (ha : s.accept = .test) : AcceptStep s .test { s with accept := .select }
  | leave (ha : s.accept = .test ∨ s.accept = .recheck) : AcceptStep s .test { s with accept := .done }
  | select (ha : s.accept = .select) : AcceptStep s .select { s.does (s.ssh .use) with accept := .recheck }
  | recheck (ha : s.accept = .recheck) : AcceptStep s .test { s with accept := .locked }
  | accept {r : AcceptResult} (ha : s.accept = .locked) (hl : s.listener = true) :
    AcceptStep s (.accept r) { s.does s.libssh2 with accept := r.next }
  | noListener {r : AcceptResult} (ha : s.accept = .locked) (hl : s.listener = false) :
    AcceptStep s (.accept r) { s with accept := .done }
  | reap (ha : s.accept = .reap) : AcceptStep s .reap { s with
      accept := .join (s.workers.filter s.isDone), workers := s.workers.filter fun i => !s.isDone i }
  | join {i : Nat} {finished : List Nat} {s' : State} (ha : s.accept = .join (i :: finished))
    (hj : JoinStep s i s') : AcceptStep s .join { s' with accept := .join finished }
  | reaped (ha : s.accept = .join []) : AcceptStep s .join { s with accept := .spawn }
  | spawn {buf : Buffer Byte bufferSize} (ha : s.accept = .spawn) :
    AcceptStep s (.spawn buf) { s.does [.acquire (.worker s.served.length)] with
      accept := .push s.served.length
      served := s.served ++ [.thread (.pumping (Pump.SshExporter.start buf) none) true] }
  | push {i : Nat} (ha : s.accept = .push i) :
    AcceptStep s .push { s with accept := .test, workers := s.workers ++ [i] }
  | drop (ha : s.accept = .dropped) : AcceptStep s .drop { s with running := false, accept := .done }

/-- The steps of the object. -/
inductive Step (s : State) : In → State → Prop
  | noService {attempts : List Attempt} {ops : List (Op Res)} (hm : s.main = .idle .fresh)
    (hd : dialTcp .service 0 attempts = (ops, none)) :
    Step s (.start attempts) { s.does ops with main := .idle .failed }
  | service {attempts : List Attempt} {ops : List (Op Res)} {k : Nat} (hm : s.main = .idle .fresh)
    (hd : dialTcp .service 0 attempts = (ops, some k)) :
    Step s (.start attempts) { s.does (ops ++ [.release (.service k)]) with main := .dialSsh }
  | noSsh {attempts : List Attempt} {ops : List (Op Res)} (hm : s.main = .dialSsh)
    (hd : dialTcp .ssh 0 attempts = (ops, none)) :
    Step s (.dialSsh attempts) { s.does ops with main := .idle .failed }
  | ssh {attempts : List Attempt} {ops : List (Op Res)} {k : Nat} (hm : s.main = .dialSsh)
    (hd : dialTcp .ssh 0 attempts = (ops, some k)) :
    Step s (.dialSsh attempts) { s.does ops with main := .fits, sshSocket := some k }
  | throws (hm : s.main = .fits ∨ s.main = .sessionInit) : Step s (.startCall false) s.throws
  | fits (hm : s.main = .fits) : Step s (.startCall true) { s with main := .sessionInit }
  | sessionInit (hm : s.main = .sessionInit) :
    Step s (.startCall true) { s.does [.acquire .session] with main := .handshake, session := true }
  | handshake (hm : s.main = .handshake) : Step s (.startCall true) { s.does s.libssh2 with main := .auth }
  | auth (hm : s.main = .auth) : Step s (.auth true true) { s.does s.libssh2 with main := .listen }
  /-- A libssh2 call of `Start` fails. -/
  | fails {x : In} (hm : s.main = .handshake ∨ s.main = .auth ∨ s.main = .listen) :
    Step s x ((s.does s.libssh2).closing .start)
  /-- There is nothing to authenticate with, or no port. -/
  | gives {x : In} (hm : s.main = .auth ∨ s.main = .bound) : Step s x (s.closing .start)
  | listen (hm : s.main = .listen) :
    Step s (.startCall true) { s.does (s.libssh2 ++ [.acquire .listener]) with main := .bound, listener := true }
  | bound (hm : s.main = .bound) : Step s (.startCall true) { s.does (s.libssh2 ++ [.acquire .acceptThread]) with
      main := .idle .started, running := true, accept := .test }
  | close {stage : Stage} {x : In} {caller : Caller} (hm : s.main = .idle stage) : Step s x (s.closing caller)
  | joinAccept {caller : Caller} (hm : s.main = .close .joinAccept caller) (ha : s.accept = .done) :
    Step s .closeStep { s.does [.release .acceptThread] with accept := .joined, main := .close .swap caller }
  | noAccept {caller : Caller} (hm : s.main = .close .joinAccept caller)
    (ha : s.accept = .unstarted ∨ s.accept = .joined) :
    Step s .closeStep { s with main := .close .swap caller }
  | swap {caller : Caller} (hm : s.main = .close .swap caller) :
    Step s .closeStep { s with workers := [], main := .close (.joinWorkers s.workers) caller }
  | joinWorker {caller : Caller} {i : Nat} {pending : List Nat} {s' : State}
    (hm : s.main = .close (.joinWorkers (i :: pending)) caller) (hj : JoinStep s i s') :
    Step s .closeStep { s' with main := .close (.joinWorkers pending) caller }
  | joinedAll {caller : Caller} (hm : s.main = .close (.joinWorkers []) caller) :
    Step s .closeStep { s with main := .close .cancel caller }
  | cancelAgain {caller : Caller} (hm : s.main = .close .cancel caller) (hl : s.listener = true) :
    Step s (.cancel true) (s.does (s.libssh2 ++ [.use .listener]))
  | cancel {caller : Caller} (hm : s.main = .close .cancel caller) (hl : s.listener = true) :
    Step s (.cancel false) { s.does (s.libssh2 ++ [.release .listener]) with listener := false }
  | cancelled {caller : Caller} (hm : s.main = .close .cancel caller) (hl : s.listener = false) :
    Step s .closeStep { s with main := .close .freeSession caller }
  | freeSession {caller : Caller} (hm : s.main = .close .freeSession caller) (hs : s.session = true) :
    Step s .closeStep { s.does (s.libssh2 ++ [.release .session]) with
      session := false, main := .close .closeSocket caller }
  | noSession {caller : Caller} (hm : s.main = .close .freeSession caller) (hs : s.session = false) :
    Step s .closeStep { s with main := .close .closeSocket caller }
  | closeSocket {caller : Caller} (hm : s.main = .close .closeSocket caller) :
    Step s .closeStep { s.does (s.ssh .release) with sshSocket := none, main := caller.next }
  | accept {e : AcceptEv} {s' : State} (h : AcceptStep s e s') : Step s (.accept e) s'
  | dial {i : Nat} {attempts : List Attempt} {p p' : St Pc} {sock : Option Nat} {joinable : Bool}
    (hc : s.served[i]? = some (.thread (.pumping p sock) joinable)) (hd : p.pc = .dial)
    (hp : Pump.SshExporter.Step { p with running := s.running }
      (.answer (dialTcp (.localService i) 0 attempts).2.isSome) p') :
    Step s (.dial i attempts) { s.does (dialTcp (.localService i) 0 attempts).1 with
      served := s.served.set i (.thread (.pumping p' (dialTcp (.localService i) 0 attempts).2) joinable) }
  | pump {i : Nat} {e : Ev} {p p' : St Pc} {sock : Option Nat} {joinable : Bool}
    (hc : s.served[i]? = some (.thread (.pumping p sock) joinable)) (hd : p.pc ≠ .dial) (he : e ≠ .shutdown)
    (hp : Pump.SshExporter.Step { p with running := s.running } e p') :
    Step s (.pump i e) { s.does (pumpOps (s.ssh .use) i sock p.pc) with
      served := s.served.set i (.thread (.pumping p' sock) joinable) }
  | finish {i : Nat} {p : St Pc} {sock : Option Nat} {joinable : Bool}
    (hc : s.served[i]? = some (.thread (.pumping p sock) joinable)) (hd : p.pc = .done) :
    Step s (.finish i) { s with served := s.served.set i (.thread .finished joinable) }

variable {s s' : State}

theorem joinWorker_cases {i : Nat} (h : s.joinWorker i = some s') : JoinStep s i s' := by
  unfold State.joinWorker at h
  split at h
  · rename_i hc; cases h; exact .joined hc
  · rename_i hc; cases h; exact .notJoinable hc
  · cases h

theorem startStep_cases {x : In} (h : s.startStep x = some s') : Step s x s' := by
  unfold State.startStep at h
  split at h
  · rename_i hm
    split at h
    · rename_i hd; cases h; exact .noService hm hd
    · rename_i hd; cases h; exact .service hm hd
  · rename_i hm
    split at h
    · rename_i hd; cases h; exact .noSsh hm hd
    · rename_i hd; cases h; exact .ssh hm hd
  · rename_i ok hm
    cases ok <;> cases h
    · exact .throws (.inl hm)
    · exact .fits hm
  · rename_i ok hm
    cases ok <;> cases h
    · exact .throws (.inr hm)
    · exact .sessionInit hm
  · rename_i ok hm
    cases ok <;> cases h
    · exact .fails (.inl hm)
    · exact .handshake hm
  · rename_i calls ok hm
    cases calls
    · cases h; exact .gives (.inl hm)
    · cases ok <;> cases h
      · exact .fails (.inr (.inl hm))
      · exact .auth hm
  · rename_i ok hm
    cases ok <;> cases h
    · exact .fails (.inr (.inr hm))
    · exact .listen hm
  · rename_i ok hm
    cases ok <;> cases h
    · exact .gives (.inr hm)
    · exact .bound hm
  · cases h

theorem closeStep_cases {caller : Caller} {pc : ClosePc} (hm : s.main = .close pc caller)
    (h : s.closeStep caller pc = some s') : Step s .closeStep s' := by
  unfold State.closeStep at h
  split at h
  · split at h
    · rename_i ha; cases h; exact .joinAccept hm ha
    · rename_i ha; cases h; exact .noAccept hm (.inl ha)
    · rename_i ha; cases h; exact .noAccept hm (.inr ha)
    · cases h
  · cases h; exact .swap hm
  · obtain ⟨s₁, hj, rfl⟩ := Option.map_eq_some_iff.mp h
    exact .joinWorker hm (joinWorker_cases hj)
  · cases h; exact .joinedAll hm
  · split at h
    · cases h
    · rename_i hl; cases h; exact .cancelled hm (by simpa using hl)
  · split at h
    · rename_i hs; cases h; exact .freeSession hm hs
    · rename_i hs; cases h; exact .noSession hm (by simpa using hs)
  · cases h; exact .closeSocket hm

theorem cancelStep_cases {caller : Caller} {again : Bool} (hm : s.main = .close .cancel caller)
    (h : s.cancelStep again = some s') : Step s (.cancel again) s' := by
  unfold State.cancelStep at h
  split at h
  · rename_i hl
    cases again <;> cases h
    · exact .cancel hm hl
    · exact .cancelAgain hm hl
  · cases h

theorem acceptStep_cases {e : AcceptEv} (h : s.acceptStep e = some s') : AcceptStep s e s' := by
  unfold State.acceptStep at h
  split at h
  · rename_i ha
    cases h
    split
    · exact .enter ha
    · exact .leave (.inl ha)
  · rename_i ha; cases h; exact .select ha
  · rename_i ha
    cases h
    split
    · exact .recheck ha
    · exact .leave (.inr ha)
  · rename_i ha
    cases h
    split
    · rename_i hl; exact .accept ha hl
    · rename_i hl; exact .noListener ha (by simpa using hl)
  · rename_i ha; cases h; exact .reap ha
  · rename_i ha
    obtain ⟨s₁, hj, rfl⟩ := Option.map_eq_some_iff.mp h
    exact .join ha (joinWorker_cases hj)
  · rename_i ha; cases h; exact .reaped ha
  · rename_i ha; cases h; exact .spawn ha
  · rename_i ha; cases h; exact .push ha
  · rename_i ha; cases h; exact .drop ha
  · cases h

theorem dialStep_cases {i : Nat} {attempts : List Attempt} (h : s.dialStep i attempts = some s') :
    Step s (.dial i attempts) s' := by
  unfold State.dialStep at h
  split at h
  · rename_i hc
    obtain ⟨_, hg, h⟩ := Option.bind_eq_some_iff.mp h
    obtain ⟨p', hp, h⟩ := Option.bind_eq_some_iff.mp h
    obtain rfl := Option.some.inj h
    exact .dial hc ((Option.guard_eq_some' _).mp hg) (Pump.SshExporter.step_cases hp)
  · cases h

theorem pumpStep_cases {i : Nat} {e : Ev} (h : s.pumpStep i e = some s') : Step s (.pump i e) s' := by
  unfold State.pumpStep at h
  split at h
  · rename_i hc
    obtain ⟨_, hg, h⟩ := Option.bind_eq_some_iff.mp h
    obtain ⟨p', hp, h⟩ := Option.bind_eq_some_iff.mp h
    obtain rfl := Option.some.inj h
    obtain ⟨hd, he⟩ := (Option.guard_eq_some' _).mp hg
    exact .pump hc hd he (Pump.SshExporter.step_cases hp)
  · cases h

theorem finishStep_cases {i : Nat} (h : s.finishStep i = some s') : Step s (.finish i) s' := by
  unfold State.finishStep at h
  split at h
  · rename_i hc
    obtain ⟨_, hg, h⟩ := Option.bind_eq_some_iff.mp h
    obtain rfl := Option.some.inj h
    exact .finish hc ((Option.guard_eq_some' _).mp hg)
  · cases h

theorem step_cases {x : In} (h : s.step x = some s') : Step s x s' := by
  unfold State.step at h
  split at h
  · rename_i hm; cases h; exact .close hm
  · rename_i hm; cases h; exact .close hm
  · rename_i hm; exact closeStep_cases hm h
  · rename_i hm; exact cancelStep_cases hm h
  · exact .accept (acceptStep_cases h)
  · exact dialStep_cases h
  · exact pumpStep_cases h
  · exact finishStep_cases h
  · exact startStep_cases h

end ErplTunnel.Lifecycle.SshExporter

import Mathlib.Data.Option.Basic
import ErplTunnel.Pump.SshExporter

/-!
# Pumps on one SSH session

An export has one SSH session: `SshExporter::AcceptLoop` takes channels off its
listener and keeps it alive, and for each channel a thread runs
`SshExporter::Pump`. All of them call libssh2 under `session_mu_`, and between
two calls any of them may run. The pumps are those of `Pump.SshExporter`; here
they share the flag and the session.

Of libssh2 the model has two rules, for a session that does not block.

* A call that sends may return `LIBSSH2_ERROR_EAGAIN` with a packet partly
  sent. The next call that sends then has to be the same call with the same
  buffer, or it fails (`afterSend`).
* `libssh2_channel_free` releases its channel unless it returns
  `LIBSSH2_ERROR_EAGAIN`.
-/

namespace ErplTunnel.Session

open Relay Pump
open Pump.SshExporter (Pc)

/-- A call that sends, with its buffer. Channels are numbered as their pumps. -/
inductive Send where
  /-- `libssh2_channel_write` of `data`, which stands at `off` in the buffer. -/
  | write (channel off : Nat) (data : List Byte)
  | eof (channel : Nat)
  | close (channel : Nat)
  | free (channel : Nat)
  | keepalive
  deriving DecidableEq, Repr

/-- The thread that makes the call: a pump, or the accept loop. -/
def Send.thread : Send → Option Nat
  | .write i _ _ | .eof i | .close i | .free i => some i
  | .keepalive => none

/-- How a call that sends comes back: with a result, or `EAGAIN`, with a packet
partly sent or with none. -/
inductive Reply where
  | done
  | again (left : Bool)
  deriving DecidableEq, Repr

/-- The packet that is partly sent after the call `c`. A call out of turn fails
and leaves the packet there. -/
def afterSend (pending : Option Send) (c : Send) (r : Reply) : Option (Option Send) :=
  match pending, r with
  | none, .again true => some (some c)
  | none, _ => some none
  | some c', .done => some (if c' = c then none else some c')
  | some c', .again left => if c' = c ∧ left then some (some c') else none

/-- The call that a pump makes next, if it is one that sends. -/
def sends (i : Nat) (p : St Pc) : Option Send :=
  match p.pc with
  | .write n off => some (.write i off (p.buf.slice off n))
  | .sendEof => some (.eof i)
  | .channelClose => some (.close i)
  | .channelFree => some (.free i)
  | _ => none

/-- The next call is one of libssh2. -/
def callsLibssh2 : Pc → Bool
  | .sendEof | .write _ _ | .read _ | .eof _ | .channelClose | .channelFree => true
  | _ => false

/-- The pump is inside a critical section that makes two calls. -/
def holdsLock : Pc → Bool
  | .eof _ | .channelFree => true
  | _ => false

/-- What a pump sees of the reply: a write returns a count only if its packet
went out, and `EAGAIN` if the call did. -/
def agrees (e : Ev) (inTurn : Bool) (r : Reply) : Bool :=
  match e with
  | .write _ (.count _) => inTurn && r = .done
  | .write _ .again => r ≠ .done
  | .write _ .error => r = .done
  | _ => true

/-- Where the accept loop stands. -/
inductive AcceptPc where
  | head
  /-- `select` on the SSH socket, and the flag after it. -/
  | select
  /-- About to take `session_mu_`. -/
  | locked
  /-- The transport is dead, about to take the flag down. -/
  | dropped
  | ended
  deriving DecidableEq, Repr

structure State where
  running : Bool
  accept : AcceptPc
  pumps : List (St Pc)
  /-- The channels of the session. -/
  held : List Nat
  /-- The packet that is partly sent, by the call that has to be repeated. -/
  pending : Option Send
  /-- The pumps with a write that failed out of turn. -/
  cut : List Nat

inductive In where
  /-- `Close()` stores false to the flag. -/
  | shutdown
  /-- The accept loop looks at the flag. -/
  | acceptTest
  /-- `libssh2_channel_forward_accept`, which may give a channel, to a pump with
  this in its buffer, or find the transport dead; then
  `libssh2_keepalive_send`, which sends if one is due. -/
  | acceptCall (channel : Option (Buffer Byte bufferSize)) (dead due : Bool) (r : Reply)
  /-- The accept loop takes the flag down and ends. -/
  | acceptDrop
  /-- A step of pump `i`, with libssh2's reply if it sends. -/
  | pump (i : Nat) (e : Ev) (r : Reply)

/-- The export once its listener is up. -/
def start : State := ⟨true, .head, [], [], none, []⟩

namespace State

/-- No thread other than `i` is inside a critical section. -/
def lockFree (s : State) (i : Option Nat) : Bool :=
  s.pumps.zipIdx.all fun pj => !holdsLock pj.1.pc || i = some pj.2

/-- The call that an input makes, if it is one that sends. -/
def call? (s : State) : In → Option Send
  | .acceptCall _ _ due _ => if due then some .keepalive else none
  | .pump i _ _ => s.pumps[i]?.bind (sends i)
  | _ => none

/-- The call is not out of turn. -/
def inTurn (s : State) (c : Send) : Bool := s.pending = none ∨ s.pending = some c

/-- The accept loop after its two calls. -/
def accepted (s : State) (channel : Option (Buffer Byte bufferSize)) (dead : Bool) : State :=
  match channel with
  | some buf => { s with
      accept := .head, pumps := s.pumps ++ [SshExporter.start buf], held := s.held ++ [s.pumps.length] }
  | none => { s with accept := if dead then .dropped else .head }

/-- Pump `i` after the call `c`. -/
def sent (s : State) (i : Nat) (p p' : St Pc) (c : Send) (r : Reply) (pending : Option Send) : State :=
  { s with
    pumps := s.pumps.set i p'
    pending
    held := if p.pc = .channelFree ∧ r = .done then s.held.erase i else s.held
    cut := if s.inTurn c = false ∧ c ≠ .eof i ∧ c ≠ .close i ∧ c ≠ .free i then s.cut ++ [i] else s.cut }

/-- A step of the export. -/
def step (s : State) (i : In) : Option State :=
  match i with
  | .shutdown => some { s with running := false }
  | .acceptTest =>
    match s.accept with
    | .head => some { s with accept := if s.running then .select else .ended }
    | .select => some { s with accept := if s.running then .locked else .ended }
    | _ => none
  | .acceptCall channel dead due r =>
    if s.accept = .locked ∧ s.lockFree none then
      if due then do
        let pending ← afterSend s.pending .keepalive r
        return { s with pending }.accepted channel dead
      else some (s.accepted channel dead)
    else none
  | .acceptDrop => if s.accept = .dropped then some { s with running := false, accept := .ended } else none
  | .pump i e r => do
    let p ← s.pumps[i]?
    guard (e ≠ .shutdown ∧ (callsLibssh2 p.pc → s.lockFree (some i)))
    let p' ← SshExporter.step { p with running := s.running } e
    match sends i p with
    | none => return { s with pumps := s.pumps.set i p' }
    | some c =>
      guard (agrees e (s.inTurn c) r)
      return s.sent i p p' c r (← afterSend s.pending c r)

/-- The steps of the export. -/
inductive Step (s : State) : In → State → Prop
  | shutdown : Step s .shutdown { s with running := false }
  | test {pc : AcceptPc} : Step s .acceptTest { s with accept := pc }
  | drop : Step s .acceptDrop { s with running := false, accept := .ended }
  | accept {channel : Option (Buffer Byte bufferSize)} {dead : Bool} {r : Reply} :
    Step s (.acceptCall channel dead false r) (s.accepted channel dead)
  | keepalive {channel : Option (Buffer Byte bufferSize)} {dead : Bool} {r : Reply} {pending : Option Send}
    (ha : afterSend s.pending .keepalive r = some pending) :
    Step s (.acceptCall channel dead true r) ({ s with pending }.accepted channel dead)
  | quiet {i : Nat} {e : Ev} {r : Reply} {p p' : St Pc} (hp : s.pumps[i]? = some p) (hn : sends i p = none)
    (hs : SshExporter.Step { p with running := s.running } e p') (he : e ≠ .shutdown) :
    Step s (.pump i e r) { s with pumps := s.pumps.set i p' }
  | send {i : Nat} {e : Ev} {r : Reply} {p p' : St Pc} {c : Send} {pending : Option Send}
    (hp : s.pumps[i]? = some p) (hc : sends i p = some c)
    (hs : SshExporter.Step { p with running := s.running } e p') (he : e ≠ .shutdown)
    (hg : agrees e (s.inTurn c) r = true) (ha : afterSend s.pending c r = some pending) :
    Step s (.pump i e r) (s.sent i p p' c r pending)

theorem step_cases {s s' : State} {i : In} (h : s.step i = some s') : Step s i s' := by
  cases i with
  | shutdown => cases h; exact .shutdown
  | acceptTest =>
    simp only [step] at h
    split at h
    · cases h; exact .test
    · cases h; exact .test
    · cases h
  | acceptDrop =>
    simp only [step] at h
    split at h
    · cases h; exact .drop
    · cases h
  | acceptCall channel dead due r =>
    simp only [step] at h
    split at h
    · cases due with
      | false => cases h; exact .accept
      | true =>
        obtain ⟨pending, ha, h⟩ := Option.bind_eq_some_iff.mp h
        cases h
        exact .keepalive ha
    · cases h
  | pump i e r =>
    obtain ⟨p, hp, h⟩ := Option.bind_eq_some_iff.mp h
    obtain ⟨_, hg, h⟩ := Option.bind_eq_some_iff.mp h
    have he : e ≠ .shutdown := ((Option.guard_eq_some' _).mp hg).1
    obtain ⟨p', hp', h⟩ := Option.bind_eq_some_iff.mp h
    split at h
    · rename_i hn
      cases h
      exact .quiet hp hn (SshExporter.step_cases hp') he
    · rename_i c hc
      obtain ⟨_, hg, h⟩ := Option.bind_eq_some_iff.mp h
      obtain ⟨pending, ha, h⟩ := Option.bind_eq_some_iff.mp h
      cases h
      exact .send hp hc (SshExporter.step_cases hp') he ((Option.guard_eq_some' _).mp hg) ha

end State

end ErplTunnel.Session

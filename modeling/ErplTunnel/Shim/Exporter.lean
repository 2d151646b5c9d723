import ErplTunnel.Shim.Bridge

/-!
# The exporter of a Go shim

`Exporter` (`meshpair/export.go`): the goroutine that accepts on the mesh
listener (`acceptLoop`), one goroutine for each connection it accepts (`serve`,
with `track` and `untrack`), and any number of calls of `Close`. A critical
section of `mu` is one step, and so is each call outside of it, so every
interleaving of the goroutines is a run. What the network answers (a connection
or an error from `Accept`, the result of a dial, what is read and written) is in
the events.

The connections are named by the goroutine that serves them and their side.
`late` and `first` are there for what is said about runs: that a connection was
accepted when `closed` was already set, and which call of `Close` set it.
-/

namespace ErplTunnel.Shim

/-- Where `serve` stands. -/
inductive ServePc where
  /-- Before `track(meshConn)`. -/
  | start
  /-- `track(meshConn)` found the exporter closed, and has the connection to close. -/
  | turnMesh
  | dialing
  /-- The dial failed; `lastErr` is to be set. -/
  | refused (err : String)
  /-- `meshConn` is to be closed, for the failed dial. -/
  | dropping
  /-- Before `track(local)`. -/
  | dialled
  | turnLocal
  | bridging
  /-- In the deferred `untrack(local)`. -/
  | untrackLocal
  | untrackMesh
  | returned
  deriving DecidableEq, Repr

/-- A goroutine in `serve`, its connections and its copies. -/
structure Serve (α : Type) where
  pc : ServePc
  pair : Bridge α
  /-- The local connection exists. -/
  dialled : Bool
  late : Bool

inductive ServeEv (α : Type) where
  | track
  /-- The `Close` in `track`. -/
  | turn
  /-- `net.Dial` returns, with an error or none. -/
  | dial (err : Option String)
  | record
  | drop
  | bridge (e : BridgeEv α)
  | untrack

/-- What a step of `serve` does to the exporter. -/
inductive Effect where
  | quiet
  | track (x : Side)
  | untrack (x : Side)
  | setErr (text : String)
  deriving DecidableEq, Repr

/-- A step of `serve`, of an exporter that is closed or not. -/
def Serve.step {α : Type} (closed : Bool) (localAddr : String) (v : Serve α) :
    ServeEv α → Option (Serve α × Effect)
  | .track =>
    match v.pc with
    | .start => some (if closed then ({ v with pc := .turnMesh }, .quiet) else ({ v with pc := .dialing }, .track .mesh))
    | .dialled =>
      some (if closed then ({ v with pc := .turnLocal }, .quiet) else ({ v with pc := .bridging }, .track .localEnd))
    | _ => none
  | .turn =>
    match v.pc with
    | .turnMesh => some ({ v with pc := .dialing, pair := v.pair.kill .mesh }, .quiet)
    | .turnLocal => some ({ v with pc := .bridging, pair := v.pair.kill .localEnd }, .quiet)
    | _ => none
  | .dial err =>
    match v.pc, err with
    | .dialing, some err => some ({ v with pc := .refused err }, .quiet)
    | .dialing, none => some ({ v with pc := .dialled, dialled := true }, .quiet)
    | _, _ => none
  | .record =>
    match v.pc with
    | .refused err =>
      some ({ v with pc := .dropping },
        .setErr ("inbound connection arrived but " ++ localAddr ++ " refused it: " ++ err))
    | _ => none
  | .drop =>
    match v.pc with
    | .dropping => some ({ v with pc := .untrackMesh, pair := v.pair.kill .mesh }, .quiet)
    | _ => none
  | .bridge e =>
    match v.pc with
    | .bridging =>
      (v.pair.step e).map fun b => ({ v with pc := if b.pc = .finished then .untrackLocal else .bridging, pair := b }, .quiet)
    | _ => none
  | .untrack =>
    match v.pc with
    | .untrackLocal => some ({ v with pc := .untrackMesh }, .untrack .localEnd)
    | .untrackMesh => some ({ v with pc := .returned }, .untrack .mesh)
    | _ => none

/-- The steps of `serve`. -/
inductive Serve.Step {α : Type} (closed : Bool) (localAddr : String) (v : Serve α) :
    ServeEv α → Serve α → Effect → Prop
  | turnedMesh (hpc : v.pc = .start) (hc : closed = true) :
    Step closed localAddr v .track { v with pc := .turnMesh } .quiet
  | trackMesh (hpc : v.pc = .start) (hc : closed = false) :
    Step closed localAddr v .track { v with pc := .dialing } (.track .mesh)
  | turnedLocal (hpc : v.pc = .dialled) (hc : closed = true) :
    Step closed localAddr v .track { v with pc := .turnLocal } .quiet
  | trackLocal (hpc : v.pc = .dialled) (hc : closed = false) :
    Step closed localAddr v .track { v with pc := .bridging } (.track .localEnd)
  | turnMesh (hpc : v.pc = .turnMesh) :
    Step closed localAddr v .turn { v with pc := .dialing, pair := v.pair.kill .mesh } .quiet
  | turnLocal (hpc : v.pc = .turnLocal) :
    Step closed localAddr v .turn { v with pc := .bridging, pair := v.pair.kill .localEnd } .quiet
  | refused {err : String} (hpc : v.pc = .dialing) :
    Step closed localAddr v (.dial (some err)) { v with pc := .refused err } .quiet
  | dialled (hpc : v.pc = .dialing) :
    Step closed localAddr v (.dial none) { v with pc := .dialled, dialled := true } .quiet
  | record {err : String} (hpc : v.pc = .refused err) :
    Step closed localAddr v .record { v with pc := .dropping }
      (.setErr ("inbound connection arrived but " ++ localAddr ++ " refused it: " ++ err))
  | drop (hpc : v.pc = .dropping) :
    Step closed localAddr v .drop { v with pc := .untrackMesh, pair := v.pair.kill .mesh } .quiet
  | bridge {e : BridgeEv α} {b : Bridge α} (hpc : v.pc = .bridging) (hb : v.pair.step e = some b) :
    Step closed localAddr v (.bridge e)
      { v with pc := if b.pc = .finished then .untrackLocal else .bridging, pair := b } .quiet
  | untrackLocal (hpc : v.pc = .untrackLocal) :
    Step closed localAddr v .untrack { v with pc := .untrackMesh } (.untrack .localEnd)
  | untrackMesh (hpc : v.pc = .untrackMesh) :
    Step closed localAddr v .untrack { v with pc := .returned } (.untrack .mesh)

theorem Serve.step_cases {α : Type} {closed : Bool} {localAddr : String} {v v' : Serve α} {e : ServeEv α}
    {eff : Effect} (h : v.step closed localAddr e = some (v', eff)) : Step closed localAddr v e v' eff := by
  cases e with
  | track =>
    simp only [step] at h
    split at h
    case h_1 hpc =>
      cases hc : closed <;> rw [hc] at h <;> cases h
      · exact .trackMesh hpc rfl
      · exact .turnedMesh hpc rfl
    case h_2 hpc =>
      cases hc : closed <;> rw [hc] at h <;> cases h
      · exact .trackLocal hpc rfl
      · exact .turnedLocal hpc rfl
    case h_3 => cases h
  | turn =>
    simp only [step] at h
    split at h <;> cases h
    case h_1 hpc => exact .turnMesh hpc
    case h_2 hpc => exact .turnLocal hpc
  | dial err =>
    simp only [step] at h
    split at h <;> cases h
    case h_1 hpc => exact .refused hpc
    case h_2 hpc => exact .dialled hpc
  | record =>
    simp only [step] at h
    split at h <;> cases h
    case h_1 hpc => exact .record hpc
  | drop =>
    simp only [step] at h
    split at h <;> cases h
    case h_1 hpc => exact .drop hpc
  | bridge be =>
    simp only [step] at h
    split at h
    case h_2 => cases h
    case h_1 hpc =>
    obtain ⟨b, hb, he⟩ := Option.map_eq_some_iff.mp h
    cases he
    exact .bridge hpc hb
  | untrack =>
    simp only [step] at h
    split at h <;> cases h
    case h_1 hpc => exact .untrackLocal hpc
    case h_2 hpc => exact .untrackMesh hpc

/-- Where `acceptLoop` stands. -/
inductive AcceptPc where
  | accepting
  /-- `Accept` returned an error, from a listener that was closed or not. -/
  | failed (err : String) (lnClosed : Bool)
  | returned
  deriving DecidableEq, Repr

/-- What `lastErr` was set to. -/
inductive ExportErr where
  | accept (err : String) (lnClosed : Bool)
  | dial (text : String)
  deriving DecidableEq, Repr

/-- Where a call of `Close` stands. -/
inductive CloserPc where
  /-- Past its critical section, with the connections `todo` to close, and the
  listener closed or not. -/
  | closing (todo : List (Nat × Side)) (lnClosed : Bool)
  | returned (first : Bool)
  deriving DecidableEq, Repr

namespace CloserPc

/-- This call set `closed`. -/
def first : CloserPc → Bool
  | .closing _ _ => true
  | .returned b => b

/-- This call has closed the listener. -/
def lnClosed : CloserPc → Bool
  | .closing _ b | .returned b => b

end CloserPc

structure Exporter (α : Type) where
  localAddr : String
  conns : List (Nat × Side)
  closed : Bool
  /-- What `lastErr` was set to, the last one at the end. -/
  errs : List ExportErr
  /-- How often `ln.Close` was called. -/
  lnCloses : Nat
  acceptPc : AcceptPc
  serves : List (Serve α)
  closers : List CloserPc

inductive ExportEv (α : Type) where
  | accept
  | acceptErr (err : String)
  /-- `acceptLoop` looks at `closed`, and returns. -/
  | acceptEnd
  | serve (k : Nat) (e : ServeEv α)
  /-- A call of `Close`, up to the end of its critical section. -/
  | close
  | closeLn (j : Nat)
  | closeConn (j : Nat) (c : Nat × Side)
  | closeEnd (j : Nat)

namespace Exporter

variable {α : Type}

/-- `StartExport`. -/
def start (localAddr : String) : Exporter α := ⟨localAddr, [], false, [], 0, .accepting, [], []⟩

/-- What a step of `serve` `k` does to the exporter. -/
def apply (s : Exporter α) (k : Nat) : Effect → Exporter α
  | .quiet => s
  | .track x => { s with conns := s.conns ++ [(k, x)] }
  | .untrack x => { s with conns := s.conns.filter (· ≠ (k, x)) }
  | .setErr text => { s with errs := s.errs ++ [.dial text] }

/-- `Close` of the connection `c`. -/
def kill (s : Exporter α) (c : Nat × Side) : Exporter α :=
  { s with serves := s.serves.modify c.1 fun v => { v with pair := v.pair.kill c.2 } }

def step (s : Exporter α) : ExportEv α → Option (Exporter α)
  | .accept =>
    if s.acceptPc = .accepting then some { s with serves := s.serves ++ [⟨.start, .new, false, s.closed⟩] }
    else none
  | .acceptErr err =>
    if s.acceptPc = .accepting then some { s with acceptPc := .failed err (0 < s.lnCloses) } else none
  | .acceptEnd =>
    match s.acceptPc with
    | .failed err lnClosed =>
      some { s with
        acceptPc := .returned
        errs := if s.closed then s.errs else s.errs ++ [.accept err lnClosed] }
    | _ => none
  | .serve k e =>
    match s.serves[k]? with
    | none => none
    | some v =>
      (v.step s.closed s.localAddr e).map fun r => { s with serves := s.serves.set k r.1 }.apply k r.2
  | .close =>
    if s.closed then some { s with closers := s.closers ++ [.returned false] }
    else some { s with closed := true, conns := [], closers := s.closers ++ [.closing s.conns false] }
  | .closeLn j =>
    match s.closers[j]? with
    | some (.closing todo false) =>
      some { s with lnCloses := s.lnCloses + 1, closers := s.closers.set j (.closing todo true) }
    | _ => none
  | .closeConn j c =>
    match s.closers[j]? with
    | some (.closing todo true) =>
      if c ∈ todo then some ({ s with closers := s.closers.set j (.closing (todo.erase c) true) }.kill c) else none
    | _ => none
  | .closeEnd j =>
    match s.closers[j]? with
    | some (.closing [] true) => some { s with closers := s.closers.set j (.returned true) }
    | _ => none

/-- The steps of an exporter. -/
inductive Step (s : Exporter α) : ExportEv α → Exporter α → Prop
  | accept (ha : s.acceptPc = .accepting) :
    Step s .accept { s with serves := s.serves ++ [⟨.start, .new, false, s.closed⟩] }
  | acceptErr {err : String} (ha : s.acceptPc = .accepting) :
    Step s (.acceptErr err) { s with acceptPc := .failed err (0 < s.lnCloses) }
  | acceptEnd {err : String} {lnClosed : Bool} (ha : s.acceptPc = .failed err lnClosed) :
    Step s .acceptEnd { s with
      acceptPc := .returned
      errs := if s.closed then s.errs else s.errs ++ [.accept err lnClosed] }
  | serve {k : Nat} {e : ServeEv α} {v v' : Serve α} {eff : Effect} (hk : s.serves[k]? = some v)
    (hv : v.step s.closed s.localAddr e = some (v', eff)) :
    Step s (.serve k e) ({ s with serves := s.serves.set k v' }.apply k eff)
  | closeAgain (hc : s.closed = true) : Step s .close { s with closers := s.closers ++ [.returned false] }
  | close (hc : s.closed = false) :
    Step s .close { s with closed := true, conns := [], closers := s.closers ++ [.closing s.conns false] }
  | closeLn {j : Nat} {todo : List (Nat × Side)} (hj : s.closers[j]? = some (.closing todo false)) :
    Step s (.closeLn j) { s with lnCloses := s.lnCloses + 1, closers := s.closers.set j (.closing todo true) }
  | closeConn {j : Nat} {c : Nat × Side} {todo : List (Nat × Side)} (hj : s.closers[j]? = some (.closing todo true))
    (hc : c ∈ todo) :
    Step s (.closeConn j c) ({ s with closers := s.closers.set j (.closing (todo.erase c) true) }.kill c)
  | closeEnd {j : Nat} (hj : s.closers[j]? = some (.closing [] true)) :
    Step s (.closeEnd j) { s with closers := s.closers.set j (.returned true) }

theorem step_cases {s s' : Exporter α} {e : ExportEv α} (h : s.step e = some s') : Step s e s' := by
  cases e with
  | accept | acceptErr =>
    simp only [step] at h
    split at h <;> cases h
    rename_i ha
    constructor
    exact ha
  | acceptEnd =>
    simp only [step] at h
    split at h <;> cases h
    rename_i ha
    exact .acceptEnd ha
  | serve k e =>
    simp only [step] at h
    split at h
    · cases h
    · rename_i v hk
      obtain ⟨⟨v', eff⟩, hv, rfl⟩ := Option.map_eq_some_iff.mp h
      exact .serve hk hv
  | close =>
    simp only [step] at h
    split at h <;> cases h
    · rename_i hc
      exact .closeAgain hc
    · rename_i hc
      exact .close (by simpa using hc)
  | closeLn j =>
    simp only [step] at h
    split at h <;> cases h
    rename_i hj
    exact .closeLn hj
  | closeConn j c =>
    simp only [step] at h
    split at h
    · rename_i todo hj
      split at h <;> cases h
      rename_i hc
      exact .closeConn hj hc
    · cases h
  | closeEnd j =>
    simp only [step] at h
    split at h <;> cases h
    rename_i hj
    exact .closeEnd hj

end Exporter

end ErplTunnel.Shim

import ErplTunnel.Pump.SendAll

/-!
# The mesh import's pump

`MeshForwarder::Pump` relays between an accepted client and a mesh stream,
both sockets. Each round waits until one of them can be read, then serves the
client first and the mesh stream second, through the same buffer.
-/

namespace ErplTunnel.Pump.MeshForwarder

open Relay

/-- Where the pump stands. -/
inductive Pc where
  | head
  | select
  /-- `SocketRecv` from the source of `d`; `meshNext` says that the mesh stream
  is to be read in the same round. -/
  | recv (d : Dir) (meshNext : Bool)
  /-- In `SendAll` of `n` bytes to the sink of `d`. -/
  | sendAll (d : Dir) (meshNext : Bool) (n : Nat) (p : SendPc) (sent : Nat)
  /-- `ShutdownWrite` at the sink of `d`. -/
  | shutdownWrite (d : Dir)
  | closeClient
  | closeMesh
  | done
  deriving DecidableEq, Repr

/-- Where a round goes on once the client is served. -/
def next (meshNext : Bool) : Pc := if meshNext then .recv .down false else .head

/-- A step of the pump. -/
def step (s : St Pc) (e : Ev) : Option (St Pc) :=
  match s.pc, e with
  | _, .shutdown => some s.shutdown
  | .head, .test => some (s.goto (if s.running then .select else .closeClient))
  | .select, .select .error => some (s.goto .closeClient)
  | .select, .select .timeout => some (s.goto .head)
  | .select, .select (.ready client mesh) => some (s.goto (if client then .recv .up mesh else next mesh))
  | .recv d meshNext, .read d' (.data bs) =>
    if d' = d ∧ bs.length ≤ bufferSize then
      if bs = [] then some (s.goto (.shutdownWrite d))
      else some (s.take d bs (.sendAll d meshNext bs.length .test 0))
    else none
  | .recv d _, .read d' .again => if d' = d then some (s.goto .closeClient) else none
  | .recv d _, .read d' .error => if d' = d then some (s.goto .closeClient) else none
  | .sendAll d meshNext n p sent, e =>
    sendAll (.sendAll d meshNext n) (fun ok => if ok then next meshNext else .closeClient) d n p sent s e
  | .shutdownWrite _, .call => some (s.goto .closeClient)
  | .closeClient, .call => some (s.goto .closeMesh)
  | .closeMesh, .call => some (s.goto .done)
  | _, _ => none

/-- A pump handed a client and its mesh stream, with whatever is in `buf`. -/
def start (buf : Buffer Byte bufferSize) : St Pc := .start .head buf

/-- The steps of the pump. -/
inductive Step (s : St Pc) : Ev → St Pc → Prop
  | shutdown : Step s .shutdown s.shutdown
  | enter (hpc : s.pc = .head) (hr : s.running = true) : Step s .test (s.goto .select)
  | leave (hpc : s.pc = .head) (hr : s.running = false) : Step s .test (s.goto .closeClient)
  | selectError (hpc : s.pc = .select) : Step s (.select .error) (s.goto .closeClient)
  | timeout (hpc : s.pc = .select) : Step s (.select .timeout) (s.goto .head)
  | client {mesh : Bool} (hpc : s.pc = .select) : Step s (.select (.ready true mesh)) (s.goto (.recv .up mesh))
  | mesh {mesh : Bool} (hpc : s.pc = .select) : Step s (.select (.ready false mesh)) (s.goto (next mesh))
  | finished {d : Dir} {m : Bool} (hpc : s.pc = .recv d m) :
    Step s (.read d (.data [])) (s.goto (.shutdownWrite d))
  | chunk {d : Dir} {m : Bool} {bs : List Byte} (hpc : s.pc = .recv d m) (hb : bs.length ≤ bufferSize)
    (hne : bs ≠ []) : Step s (.read d (.data bs)) (s.take d bs (.sendAll d m bs.length .test 0))
  | recvFailed {d : Dir} {m : Bool} {r : ReadResult} (hpc : s.pc = .recv d m) (hr : r = .again ∨ r = .error) :
    Step s (.read d r) (s.goto .closeClient)
  | send {d : Dir} {m : Bool} {n sent : Nat} {p : SendPc} {e : Ev} {s' : St Pc}
    (hpc : s.pc = .sendAll d m n p sent)
    (hs : SendStep (.sendAll d m n) (fun ok => if ok then next m else .closeClient) d n s p sent e s') :
    Step s e s'
  | shutdownWrite {d : Dir} (hpc : s.pc = .shutdownWrite d) : Step s .call (s.goto .closeClient)
  | closeClient (hpc : s.pc = .closeClient) : Step s .call (s.goto .closeMesh)
  | closeMesh (hpc : s.pc = .closeMesh) : Step s .call (s.goto .done)

variable {s s' : St Pc} {e : Ev}

theorem step_cases (h : step s e = some s') : Step s e s' := by
  unfold step at h
  split at h
  · obtain rfl := Option.some.inj h; exact .shutdown
  · rename_i hpc
    obtain rfl := Option.some.inj h
    split
    · rename_i hr; exact .enter hpc hr
    · rename_i hr; exact .leave hpc (by simpa using hr)
  · rename_i hpc; obtain rfl := Option.some.inj h; exact .selectError hpc
  · rename_i hpc; obtain rfl := Option.some.inj h; exact .timeout hpc
  · rename_i client mesh hpc
    obtain rfl := Option.some.inj h
    cases client
    · exact .mesh hpc
    · exact .client hpc
  · rename_i hpc
    split at h
    · rename_i hd
      obtain ⟨rfl, hb⟩ := hd
      split at h
      · rename_i he
        subst he
        obtain rfl := Option.some.inj h; exact .finished hpc
      · rename_i hne
        obtain rfl := Option.some.inj h; exact .chunk hpc hb hne
    · cases h
  · rename_i hpc
    split at h
    · rename_i hd
      subst hd
      obtain rfl := Option.some.inj h; exact .recvFailed hpc (.inl rfl)
    · cases h
  · rename_i hpc
    split at h
    · rename_i hd
      subst hd
      obtain rfl := Option.some.inj h; exact .recvFailed hpc (.inr rfl)
    · cases h
  · rename_i hpc _; exact .send hpc (sendStep_of_sendAll h)
  · rename_i hpc; obtain rfl := Option.some.inj h; exact .shutdownWrite hpc
  · rename_i hpc; obtain rfl := Option.some.inj h; exact .closeClient hpc
  · rename_i hpc; obtain rfl := Option.some.inj h; exact .closeMesh hpc
  · cases h

theorem Step.move (h : Step s e s') : s.Move e s' := by
  cases h with
  | shutdown => exact .shutdown
  | chunk => exact .take
  | send _ hs => exact hs.move
  | finished => exact .goto (fun d => by simp [Ev.received]) (by simp)
  | recvFailed _ hr => rcases hr with rfl | rfl <;> exact .goto (fun _ => rfl) (by simp)
  | enter | leave | selectError | timeout | client | mesh | shutdownWrite | closeClient | closeMesh =>
    exact .goto (fun _ => rfl) (by simp)

theorem step_move (s : St Pc) (e : Ev) (s' : St Pc) (h : step s e = some s') : s.Move e s' :=
  (step_cases h).move

/-- What each direction owes at each place: the chunk in `SendAll`, and
nothing elsewhere until the pump closes. -/
def slot : Pc → Dir → Slot
  | .head, _ | .select, _ | .recv _ _, _ => .clean
  | .sendAll d _ n _ sent, c => if c = d then .owes sent n else .clean
  | .shutdownWrite _, _ | .closeClient, _ | .closeMesh, _ | .done, _ => .cut

theorem slot_next (m : Bool) (d : Dir) : slot (next m) d = .clean := by
  cases m <;> rfl

theorem slot_sendAll (d : Dir) (m : Bool) (n : Nat) (p : SendPc) (sent : Nat) :
    slot (.sendAll d m n p sent) d = .owes sent n := by
  simp [slot]

theorem slot_sendAll_opp (d : Dir) (m : Bool) (n : Nat) (p : SendPc) (sent : Nat) :
    slot (.sendAll d m n p sent) d.opp = .clean := by
  cases d <;> simp [slot, Dir.opp]

/-- A step keeps the invariant. -/
theorem inv_step (h : s.Inv slot) (hs : Step s e s') : s'.Inv slot := by
  cases hs with
  | shutdown => exact h.shutdown
  | leave | selectError | finished | recvFailed | shutdownWrite | closeClient | closeMesh =>
    exact h.toCut fun _ => rfl
  | enter hpc | timeout hpc | client hpc =>
    refine h.goto fun d hd => ?_
    rw [hpc] at hd; exact hd
  | mesh hpc =>
    refine h.goto fun d hd => ?_
    rw [hpc] at hd; rw [slot_next]; exact hd
  | chunk hpc hb =>
    refine h.take hb (by rw [hpc]; rfl) (slot_sendAll ..) (.inl (by rw [hpc]; rfl)) ?_
    rw [slot_sendAll_opp, hpc]; rfl
  | send hpc hs =>
    exact h.sendAll hpc hs (slot_sendAll _ _ _) (slot_sendAll_opp _ _ _) (slot_next _ _) (slot_next _ _)
      fun _ => rfl

theorem inv_run {buf : Buffer Byte bufferSize} {es : List Ev} (h : Lts.Run step (start buf) es s) :
    s.Inv slot :=
  h.inv (P := St.Inv slot) (fun _ _ _ hi hs => inv_step hi (step_cases hs))
    (St.inv_start fun _ => .inl rfl)

/-- The bytes sent to each side are at all times a prefix of those received
from the other one, and all of them whenever a round begins; and `SendAll`,
through which they go, returns true exactly when it sent its whole buffer, and
false only with a part of it sent and the flag down or the socket failing. -/
theorem pump_fidelity :
    (∀ (buf : Buffer Byte bufferSize) (es : List Ev) (s : St Pc), Lts.Run step (start buf) es s →
      ∀ d, (s.flow d).put <+: (s.flow d).got ∧
        (s.pc = .head → s.running = true → (s.flow d).put = (s.flow d).got)) ∧
    (∀ (d : Dir) (len : Nat) (running : Bool) (buf : Buffer Byte bufferSize) (es : List Ev)
      (s : St SendCall) (ok : Bool), len ≤ bufferSize →
      Lts.Run (sendCallStep d len) (sendCallStart d len running buf) es s → s.pc = .returned ok →
      (ok = true ↔ (s.flow d).put = buf.slice 0 len) ∧
      (ok = false → ((s.flow d).put <+: buf.slice 0 len ∧ (s.flow d).put ≠ buf.slice 0 len) ∧
        (s.running = false ∨ .write d (.count 0) ∈ es ∨ .write d .error ∈ es))) := by
  refine ⟨fun buf es s h d => ?_, fun d len running buf es s ok hl h hpc => sendAll_spec hl h hpc⟩
  have hi := inv_run h
  exact ⟨(hi d).isPrefix, fun hpc _ => (hi d).settled (by rw [hpc]; rfl)⟩

/-- A round in which both sides are ready: two bytes go up in two sends with a
full socket between them, and one byte goes down. -/
def exchanged : List Ev :=
  [.test, .select (.ready true true), .read .up (.data [1, 2]), .test, .write .up (.count 1), .test,
    .write .up .again, .pause, .test, .write .up (.count 1), .test, .read .down (.data [3]), .test,
    .write .down (.count 1), .test]

theorem exchanged_fidelity :
    ∃ s, Lts.Run step (start (.const 0)) exchanged s ∧ s.pc = .head ∧ s.running = true ∧
      received .up exchanged = [1, 2] ∧ received .down exchanged = [3] ∧
      ∀ d, (s.flow d).put = (s.flow d).got := by
  refine ⟨_, rfl, rfl, rfl, by decide, by decide, fun d => ?_⟩
  exact (pump_fidelity.1 (.const 0) exchanged _ rfl d).2 rfl rfl

/-- The pump is on its way out. -/
def closing : Pc → Bool
  | .shutdownWrite _ | .closeClient | .closeMesh | .done => true
  | _ => false

theorem closing_step (hs : Step s e s') (h : closing s.pc = true) :
    closing s'.pc = true ∧ s'.flow = s.flow ∧ (e = .shutdown ∨ e = .call) := by
  cases hs with
  | shutdown => exact ⟨h, rfl, .inl rfl⟩
  | shutdownWrite | closeClient | closeMesh => exact ⟨rfl, rfl, .inr rfl⟩
  | _ hpc => rw [hpc] at h; cases h

end ErplTunnel.Pump.MeshForwarder

import ErplTunnel.Pump.SendAll

/-!
# The SSH export's pump

`SshExporter::Pump` serves one connection the SSH server forwarded: it dials
the local service and relays between it and the channel. A round takes what
the service has ready and writes it to the channel, retrying until all of it
is through, then takes what the channel has ready and hands it to `SendAll`.
The write loop also ends when the flag goes down, and the round still goes on
to the channel: this is the one place where a chunk can be left behind.
-/

namespace ErplTunnel.Pump.SshExporter

open Relay

/-- Where the pump stands. -/
inductive Pc where
  /-- `DialLocalService`. -/
  | dial
  /-- `SocketFitsInFdSet`. -/
  | fits
  | head
  | select
  | recv
  | sendEof
  /-- The head of the write loop, with `off` of `n` bytes out. -/
  | writeTest (n off : Nat)
  | write (n off : Nat)
  | writeSleep (n off : Nat)
  | read (idle : Bool)
  | eof (idle : Bool)
  /-- In `SendAll` of `n` bytes to the local service. -/
  | sendAll (n : Nat) (p : SendPc) (sent : Nat)
  | shutdownWrite
  | sleep
  | closeLocal
  | channelClose
  | channelFree
  | done
  deriving DecidableEq, Repr

/-- The end of a round. -/
def next (idle : Bool) : Pc := if idle then .sleep else .head

/-- A step of the pump. -/
def step (s : St Pc) (e : Ev) : Option (St Pc) :=
  match s.pc, e with
  | _, .shutdown => some s.shutdown
  | .dial, .answer valid => some (s.goto (if valid then .fits else .channelClose))
  | .fits, .answer fits => some (s.goto (if fits then .head else .closeLocal))
  | .head, .test => some (s.goto (if s.running then .select else .closeLocal))
  | .select, .select (.ready true false) => some (s.goto .recv)
  | .select, .select .timeout => some (s.goto (.read true))
  | .select, .select .error => some (s.goto (.read true))
  | .recv, .read .up (.data bs) =>
    if bs.length ≤ bufferSize then
      if bs = [] then some (s.goto .sendEof) else some (s.take .up bs (.writeTest bs.length 0))
    else none
  | .recv, .read .up .again => some (s.goto (.read true))
  | .recv, .read .up .error => some (s.goto .closeLocal)
  | .sendEof, .call => some (s.goto .closeLocal)
  | .writeTest n off, .test => some (s.goto (if off < n ∧ s.running then .write n off else .read false))
  | .write n off, .write .up (.count k) =>
    if k ≤ n - off then some (s.give .up off k (.writeTest n (off + k))) else none
  | .write n off, .write .up .again => some (s.goto (.writeSleep n off))
  | .write _ _, .write .up .error => some (s.goto .closeLocal)
  | .writeSleep n off, .pause => some (s.goto (.writeTest n off))
  | .read idle, .read .down (.data bs) =>
    if bs.length ≤ bufferSize then
      if bs = [] then some (s.goto (.eof idle)) else some (s.take .down bs (.sendAll bs.length .test 0))
    else none
  | .read idle, .read .down .again => some (s.goto (next idle))
  | .read _, .read .down .error => some (s.goto .closeLocal)
  | .eof idle, .eof b => some (s.goto (if b then .shutdownWrite else next idle))
  | .sendAll n p sent, e => sendAll (.sendAll n) (fun ok => if ok then .head else .closeLocal) .down n p sent s e
  | .shutdownWrite, .call => some (s.goto .closeLocal)
  | .sleep, .pause => some (s.goto .head)
  | .closeLocal, .call => some (s.goto .channelClose)
  | .channelClose, .call => some (s.goto .channelFree)
  | .channelFree, .call => some (s.goto .done)
  | _, _ => none

/-- A pump handed a channel, with whatever is in `buf`. -/
def start (buf : Buffer Byte bufferSize) : St Pc := .start .dial buf

/-- The steps of the pump. -/
inductive Step (s : St Pc) : Ev → St Pc → Prop
  | shutdown : Step s .shutdown s.shutdown
  | dial {valid : Bool} (hpc : s.pc = .dial) :
    Step s (.answer valid) (s.goto (if valid then .fits else .channelClose))
  | fits {fits : Bool} (hpc : s.pc = .fits) : Step s (.answer fits) (s.goto (if fits then .head else .closeLocal))
  | enter (hpc : s.pc = .head) (hr : s.running = true) : Step s .test (s.goto .select)
  | leave (hpc : s.pc = .head) (hr : s.running = false) : Step s .test (s.goto .closeLocal)
  | ready (hpc : s.pc = .select) : Step s (.select (.ready true false)) (s.goto .recv)
  | notReady {r : SelectResult} (hpc : s.pc = .select) (hr : r = .timeout ∨ r = .error) :
    Step s (.select r) (s.goto (.read true))
  | serviceDone (hpc : s.pc = .recv) : Step s (.read .up (.data [])) (s.goto .sendEof)
  | serviceChunk {bs : List Byte} (hpc : s.pc = .recv) (hb : bs.length ≤ bufferSize) (hne : bs ≠ []) :
    Step s (.read .up (.data bs)) (s.take .up bs (.writeTest bs.length 0))
  | recvAgain (hpc : s.pc = .recv) : Step s (.read .up .again) (s.goto (.read true))
  | recvError (hpc : s.pc = .recv) : Step s (.read .up .error) (s.goto .closeLocal)
  | sendEof (hpc : s.pc = .sendEof) : Step s .call (s.goto .closeLocal)
  | writeMore {n off : Nat} (hpc : s.pc = .writeTest n off) (hlt : off < n) (hr : s.running = true) :
    Step s .test (s.goto (.write n off))
  | writeEnd {n off : Nat} (hpc : s.pc = .writeTest n off) (he : off < n → s.running = false) :
    Step s .test (s.goto (.read false))
  | write {n off k : Nat} (hpc : s.pc = .write n off) (hk : k ≤ n - off) :
    Step s (.write .up (.count k)) (s.give .up off k (.writeTest n (off + k)))
  | writeAgain {n off : Nat} (hpc : s.pc = .write n off) : Step s (.write .up .again) (s.goto (.writeSleep n off))
  | writeError {n off : Nat} (hpc : s.pc = .write n off) : Step s (.write .up .error) (s.goto .closeLocal)
  | writeRetry {n off : Nat} (hpc : s.pc = .writeSleep n off) : Step s .pause (s.goto (.writeTest n off))
  | channelNone {idle : Bool} (hpc : s.pc = .read idle) : Step s (.read .down (.data [])) (s.goto (.eof idle))
  | channelChunk {idle : Bool} {bs : List Byte} (hpc : s.pc = .read idle) (hb : bs.length ≤ bufferSize)
    (hne : bs ≠ []) : Step s (.read .down (.data bs)) (s.take .down bs (.sendAll bs.length .test 0))
  | channelAgain {idle : Bool} (hpc : s.pc = .read idle) : Step s (.read .down .again) (s.goto (next idle))
  | channelError {idle : Bool} (hpc : s.pc = .read idle) : Step s (.read .down .error) (s.goto .closeLocal)
  | channelDone {idle : Bool} (hpc : s.pc = .eof idle) : Step s (.eof true) (s.goto .shutdownWrite)
  | channelOpen {idle : Bool} (hpc : s.pc = .eof idle) : Step s (.eof false) (s.goto (next idle))
  | send {n sent : Nat} {p : SendPc} {e : Ev} {s' : St Pc} (hpc : s.pc = .sendAll n p sent)
    (hs : SendStep (.sendAll n) (fun ok => if ok then .head else .closeLocal) .down n s p sent e s') :
    Step s e s'
  | shutdownWrite (hpc : s.pc = .shutdownWrite) : Step s .call (s.goto .closeLocal)
  | sleep (hpc : s.pc = .sleep) : Step s .pause (s.goto .head)
  | closeLocal (hpc : s.pc = .closeLocal) : Step s .call (s.goto .channelClose)
  | channelClose (hpc : s.pc = .channelClose) : Step s .call (s.goto .channelFree)
  | channelFree (hpc : s.pc = .channelFree) : Step s .call (s.goto .done)

variable {s s' : St Pc} {e : Ev}

theorem step_cases (h : step s e = some s') : Step s e s' := by
  unfold step at h
  split at h
  · obtain rfl := Option.some.inj h; exact .shutdown
  · rename_i hpc; obtain rfl := Option.some.inj h; exact .dial hpc
  · rename_i hpc; obtain rfl := Option.some.inj h; exact .fits hpc
  · rename_i hpc
    obtain rfl := Option.some.inj h
    split
    · rename_i hr; exact .enter hpc hr
    · rename_i hr; exact .leave hpc (by simpa using hr)
  · rename_i hpc; obtain rfl := Option.some.inj h; exact .ready hpc
  · rename_i hpc; obtain rfl := Option.some.inj h; exact .notReady hpc (.inl rfl)
  · rename_i hpc; obtain rfl := Option.some.inj h; exact .notReady hpc (.inr rfl)
  · rename_i hpc
    split at h
    · rename_i hb
      split at h
      · rename_i he
        subst he
        obtain rfl := Option.some.inj h; exact .serviceDone hpc
      · rename_i hne
        obtain rfl := Option.some.inj h; exact .serviceChunk hpc hb hne
    · cases h
  · rename_i hpc; obtain rfl := Option.some.inj h; exact .recvAgain hpc
  · rename_i hpc; obtain rfl := Option.some.inj h; exact .recvError hpc
  · rename_i hpc; obtain rfl := Option.some.inj h; exact .sendEof hpc
  · rename_i hpc
    obtain rfl := Option.some.inj h
    split
    · rename_i hc; exact .writeMore hpc hc.1 hc.2
    · rename_i hc; exact .writeEnd hpc fun hlt => by simpa [hlt] using hc
  · rename_i hpc
    split at h
    · rename_i hk
      obtain rfl := Option.some.inj h; exact .write hpc hk
    · cases h
  · rename_i hpc; obtain rfl := Option.some.inj h; exact .writeAgain hpc
  · rename_i hpc; obtain rfl := Option.some.inj h; exact .writeError hpc
  · rename_i hpc; obtain rfl := Option.some.inj h; exact .writeRetry hpc
  · rename_i hpc
    split at h
    · rename_i hb
      split at h
      · rename_i he
        subst he
        obtain rfl := Option.some.inj h; exact .channelNone hpc
      · rename_i hne
        obtain rfl := Option.some.inj h; exact .channelChunk hpc hb hne
    · cases h
  · rename_i hpc; obtain rfl := Option.some.inj h; exact .channelAgain hpc
  · rename_i hpc; obtain rfl := Option.some.inj h; exact .channelError hpc
  · rename_i b hpc
    obtain rfl := Option.some.inj h
    cases b
    · exact .channelOpen hpc
    · exact .channelDone hpc
  · rename_i hpc _; exact .send hpc (sendStep_of_sendAll h)
  · rename_i hpc; obtain rfl := Option.some.inj h; exact .shutdownWrite hpc
  · rename_i hpc; obtain rfl := Option.some.inj h; exact .sleep hpc
  · rename_i hpc; obtain rfl := Option.some.inj h; exact .closeLocal hpc
  · rename_i hpc; obtain rfl := Option.some.inj h; exact .channelClose hpc
  · rename_i hpc; obtain rfl := Option.some.inj h; exact .channelFree hpc
  · cases h

theorem Step.move (h : Step s e s') : s.Move e s' := by
  cases h with
  | shutdown => exact .shutdown
  | serviceChunk | channelChunk => exact .take
  | write => exact .give
  | send _ hs => exact hs.move
  | serviceDone | channelNone => exact .goto (fun d => by simp [Ev.received]) (by simp)
  | notReady _ hr => rcases hr with rfl | rfl <;> exact .goto (fun _ => rfl) (by simp)
  | _ => exact .goto (fun _ => rfl) (by simp)

theorem step_move (s : St Pc) (e : Ev) (s' : St Pc) (h : step s e = some s') : s.Move e s' :=
  (step_cases h).move

/-- What each direction owes at each place. -/
def slot : Pc → Dir → Slot
  | .dial, _ | .fits, _ | .select, _ | .recv, _ => .clean
  | .writeTest n off, .up | .write n off, .up | .writeSleep n off, .up => .owes off n
  | .head, .up | .read _, .up | .eof _, .up | .sendAll _ _ _, .up | .sleep, .up => .loose
  | .sendAll n _ sent, .down => .owes sent n
  | .head, .down | .writeTest _ _, .down | .write _ _, .down | .writeSleep _ _, .down | .read _, .down
  | .eof _, .down | .sleep, .down => .clean
  | .sendEof, _ | .shutdownWrite, _ | .closeLocal, _ | .channelClose, _ | .channelFree, _ | .done, _ => .cut

theorem slot_next (idle : Bool) : slot (next idle) = slot .head := by
  cases idle <;> funext d <;> cases d <;> rfl

/-- A step keeps the invariant. -/
theorem inv_step (h : s.Inv slot) (hs : Step s e s') : s'.Inv slot := by
  cases hs with
  | shutdown => exact h.shutdown
  | leave | serviceDone | recvError | sendEof | writeError | channelError | channelDone | shutdownWrite
  | closeLocal | channelClose | channelFree => exact h.toCut fun _ => rfl
  | @dial valid hpc =>
    cases valid
    · exact h.toCut fun _ => rfl
    · refine h.goto fun d hd => ?_
      rw [hpc] at hd; exact hd
  | @fits fits hpc =>
    cases fits
    · exact h.toCut fun _ => rfl
    · refine h.goto fun d hd => ?_
      rw [hpc] at hd
      cases d
      · exact hd.cleanToLoose
      · exact hd
  | enter hpc hr =>
    refine h.goto fun d hd => ?_
    rw [hpc] at hd
    cases d
    · exact hd.looseToClean hr
    · exact hd
  | ready hpc =>
    refine h.goto fun d hd => ?_
    rw [hpc] at hd; exact hd
  | notReady hpc | recvAgain hpc =>
    refine h.goto fun d hd => ?_
    rw [hpc] at hd
    cases d
    · exact hd.cleanToLoose
    · exact hd
  | serviceChunk hpc hb => exact h.take hb (by rw [hpc]; rfl) rfl (.inl (by rw [hpc]; rfl)) (by rw [hpc]; rfl)
  | writeMore hpc | writeAgain hpc | writeRetry hpc =>
    refine h.goto fun d hd => ?_
    rw [hpc] at hd
    cases d <;> exact hd
  | writeEnd hpc he =>
    refine h.goto fun d hd => ?_
    rw [hpc] at hd
    cases d
    · exact hd.owesToLoose he
    · exact hd
  | write hpc hk => exact h.give hk (by rw [hpc]; rfl) rfl (by rw [hpc]; rfl)
  | channelNone hpc | sleep hpc =>
    refine h.goto fun d hd => ?_
    rw [hpc] at hd
    cases d <;> exact hd
  | channelAgain hpc | channelOpen hpc =>
    refine h.goto fun d hd => ?_
    rw [hpc] at hd
    rw [slot_next]
    cases d <;> exact hd
  | channelChunk hpc hb => exact h.take hb (by rw [hpc]; rfl) rfl (.inr (by rw [hpc]; rfl)) (by rw [hpc]; rfl)
  | send hpc hs =>
    exact h.sendAll hpc hs (fun _ _ => rfl) (fun _ _ => rfl) rfl rfl fun _ => rfl

theorem inv_run {buf : Buffer Byte bufferSize} {es : List Ev} (h : Lts.Run step (start buf) es s) :
    s.Inv slot :=
  h.inv (P := St.Inv slot) (fun _ _ _ hi hs => inv_step hi (step_cases hs))
    (St.inv_start fun _ => .inl rfl)

/-- What libssh2 accepted is at all times a prefix of what the local service
sent, and what the service was sent is a prefix of what the channel delivered;
at the head of a round with the flag up nothing is outstanding either way. -/
theorem export_pump_fidelity (buf : Buffer Byte bufferSize) (es : List Ev) (s : St Pc)
    (h : Lts.Run step (start buf) es s) (d : Dir) :
    (s.flow d).put <+: (s.flow d).got ∧
      (s.pc = .head → s.running = true → (s.flow d).put = (s.flow d).got) := by
  have hi := inv_run h
  refine ⟨(hi d).isPrefix, fun hpc hr => ?_⟩
  cases d with
  | up => exact (hi .up).settledOfRunning (by rw [hpc]; rfl) hr
  | down => exact (hi .down).settled (by rw [hpc]; rfl)

/-- A round that relays two bytes up, in two writes with an `EAGAIN` between
them, and one byte down, at a socket that is full at first. -/
def relayed : List Ev :=
  [.answer true, .answer true, .test, .select (.ready true false), .read .up (.data [1, 2]), .test,
    .write .up (.count 1), .test, .write .up .again, .pause, .test, .write .up (.count 1), .test,
    .read .down (.data [3]), .test, .write .down .again, .pause, .test, .write .down (.count 1), .test]

theorem relayed_fidelity :
    ∃ s, Lts.Run step (start (.const 0)) relayed s ∧ s.pc = .head ∧ s.running = true ∧
      received .up relayed = [1, 2] ∧ received .down relayed = [3] ∧
      ∀ d, (s.flow d).put = (s.flow d).got := by
  refine ⟨_, rfl, rfl, rfl, by decide, by decide, fun d => ?_⟩
  exact (export_pump_fidelity (.const 0) relayed _ rfl d).2 rfl rfl

/-- The pump is on its way out. -/
def closing : Pc → Bool
  | .sendEof | .shutdownWrite | .closeLocal | .channelClose | .channelFree | .done => true
  | _ => false

theorem closing_step (hs : Step s e s') (h : closing s.pc = true) :
    closing s'.pc = true ∧ s'.flow = s.flow ∧ (e = .shutdown ∨ e = .call) := by
  cases hs with
  | shutdown => exact ⟨h, rfl, .inl rfl⟩
  | sendEof | shutdownWrite | closeLocal | channelClose | channelFree => exact ⟨rfl, rfl, .inr rfl⟩
  | _ hpc => rw [hpc] at h; cases h

end ErplTunnel.Pump.SshExporter

import ErplTunnel.Pump.State

/-!
# The SSH import's pump

`TunnelConnection::ForwardData` relays between an accepted client and an SSH
channel. A round takes what the client has ready and writes it to the channel,
then takes what the channel has ready and sends it to the client. Unlike the
export's pump it leaves the write loop when the channel answers
`LIBSSH2_ERROR_EAGAIN`, and unlike `SendAll` it closes when the client's
socket, which is non-blocking, is full.

* `forward_gap_iff`: the way up has no gap exactly in the runs without such an
  answer;
* `forward_truncation_iff`: the way down is cut short by nothing but a
  shutdown or a failure exactly when no send would have blocked.
-/

namespace ErplTunnel.Pump.ForwardData

open Relay

/-- Where the pump stands. -/
inductive Pc where
  | head
  | select
  | recv
  /-- The head of the loop of `libssh2_channel_write`, with `written` of
  `bytes` out. -/
  | writeTest (bytes written : Nat)
  | write (bytes written : Nat)
  | read
  | eof
  /-- The head of the loop of `send`. -/
  | sendTest (bytes written : Nat)
  | send (bytes written : Nat)
  | closeClient
  | channelFree
  | done
  deriving DecidableEq, Repr

/-- A step of the pump. -/
def step (s : St Pc) (e : Ev) : Option (St Pc) :=
  match s.pc, e with
  | _, .shutdown => some s.shutdown
  | .head, .test => some (s.goto (if s.running then .select else .closeClient))
  | .select, .select (.ready true false) => some (s.goto .recv)
  | .select, .select .timeout => some (s.goto .read)
  | .select, .select .error => some (s.goto .read)
  | .recv, .read .up (.data bs) =>
    if bs.length ≤ bufferSize then
      if bs = [] then some (s.goto .closeClient) else some (s.take .up bs (.writeTest bs.length 0))
    else none
  | .recv, .read .up .again => some (s.goto .closeClient)
  | .recv, .read .up .error => some (s.goto .closeClient)
  | .writeTest n w, .test => some (s.goto (if w < n ∧ s.running then .write n w else .read))
  | .write n w, .write .up (.count k) =>
    if k ≤ n - w then some (s.give .up w k (.writeTest n (w + k))) else none
  | .write _ _, .write .up .again => some (s.goto .read)
  | .write _ _, .write .up .error => some (s.goto .closeClient)
  | .read, .read .down (.data bs) =>
    if bs.length ≤ bufferSize then
      if bs = [] then some (s.goto .eof) else some (s.take .down bs (.sendTest bs.length 0))
    else none
  | .read, .read .down .again => some (s.goto .head)
  | .read, .read .down .error => some (s.goto .closeClient)
  | .eof, .eof b => some (s.goto (if b then .closeClient else .head))
  | .sendTest n w, .test => some (s.goto (if w < n ∧ s.running then .send n w else .head))
  | .send n w, .write .down (.count k) =>
    if k ≤ n - w then some (s.give .down w k (.sendTest n (w + k))) else none
  | .send _ _, .write .down .again => some (s.goto .closeClient)
  | .send _ _, .write .down .error => some (s.goto .closeClient)
  | .closeClient, .call => some (s.goto .channelFree)
  | .channelFree, .call => some (s.goto .done)
  | _, _ => none

/-- A pump handed a client and its channel, with whatever is in `buffer`. -/
def start (buffer : Buffer Byte bufferSize) : St Pc := .start .head buffer

/-- The steps of the pump. -/
inductive Step (s : St Pc) : Ev → St Pc → Prop
  | shutdown : Step s .shutdown s.shutdown
  | enter (hpc : s.pc = .head) (hr : s.running = true) : Step s .test (s.goto .select)
  | leave (hpc : s.pc = .head) (hr : s.running = false) : Step s .test (s.goto .closeClient)
  | ready (hpc : s.pc = .select) : Step s (.select (.ready true false)) (s.goto .recv)
  | notReady {r : SelectResult} (hpc : s.pc = .select) (hr : r = .timeout ∨ r = .error) :
    Step s (.select r) (s.goto .read)
  | clientDone (hpc : s.pc = .recv) : Step s (.read .up (.data [])) (s.goto .closeClient)
  | clientChunk {bs : List Byte} (hpc : s.pc = .recv) (hb : bs.length ≤ bufferSize) (hne : bs ≠ []) :
    Step s (.read .up (.data bs)) (s.take .up bs (.writeTest bs.length 0))
  | recvFailed {r : ReadResult} (hpc : s.pc = .recv) (hr : r = .again ∨ r = .error) :
    Step s (.read .up r) (s.goto .closeClient)
  | writeMore {n w : Nat} (hpc : s.pc = .writeTest n w) (hlt : w < n) (hr : s.running = true) :
    Step s .test (s.goto (.write n w))
  | writeEnd {n w : Nat} (hpc : s.pc = .writeTest n w) (he : w < n → s.running = false) :
    Step s .test (s.goto .read)
  | write {n w k : Nat} (hpc : s.pc = .write n w) (hk : k ≤ n - w) :
    Step s (.write .up (.count k)) (s.give .up w k (.writeTest n (w + k)))
  | writeAgain {n w : Nat} (hpc : s.pc = .write n w) : Step s (.write .up .again) (s.goto .read)
  | writeError {n w : Nat} (hpc : s.pc = .write n w) : Step s (.write .up .error) (s.goto .closeClient)
  | channelNone (hpc : s.pc = .read) : Step s (.read .down (.data [])) (s.goto .eof)
  | channelChunk {bs : List Byte} (hpc : s.pc = .read) (hb : bs.length ≤ bufferSize) (hne : bs ≠ []) :
    Step s (.read .down (.data bs)) (s.take .down bs (.sendTest bs.length 0))
  | channelAgain (hpc : s.pc = .read) : Step s (.read .down .again) (s.goto .head)
  | channelError (hpc : s.pc = .read) : Step s (.read .down .error) (s.goto .closeClient)
  | channelDone (hpc : s.pc = .eof) : Step s (.eof true) (s.goto .closeClient)
  | channelOpen (hpc : s.pc = .eof) : Step s (.eof false) (s.goto .head)
  | sendMore {n w : Nat} (hpc : s.pc = .sendTest n w) (hlt : w < n) (hr : s.running = true) :
    Step s .test (s.goto (.send n w))
  | sendEnd {n w : Nat} (hpc : s.pc = .sendTest n w) (he : w < n → s.running = false) :
    Step s .test (s.goto .head)
  | send {n w k : Nat} (hpc : s.pc = .send n w) (hk : k ≤ n - w) :
    Step s (.write .down (.count k)) (s.give .down w k (.sendTest n (w + k)))
  | sendAgain {n w : Nat} (hpc : s.pc = .send n w) : Step s (.write .down .again) (s.goto .closeClient)
  | sendError {n w : Nat} (hpc : s.pc = .send n w) : Step s (.write .down .error) (s.goto .closeClient)
  | closeClient (hpc : s.pc = .closeClient) : Step s .call (s.goto .channelFree)
  | channelFree (hpc : s.pc = .channelFree) : Step s .call (s.goto .done)

variable {s s' : St Pc} {e : Ev}

theorem step_cases (h : step s e = some s') : Step s e s' := by
  unfold step at h
  split at h
  · obtain rfl := Option.some.inj h; exact .shutdown
  · rename_i hpc
    obtain rfl := Option.some.inj h
    split
    · rename_i hr; exact .enter hpc hr
    · rename_i hr; exact .leave hpc (by simpa using hr)
  · rename_i hpc; obtain rfl := Option.some.inj h; exact .ready hpc
  · rename_i hpc; obtain rfl := Option.some.inj h; exact .notReady hpc (.inl rfl)
  · rename_i hpc; obtain rfl := Option.some.inj h; exact .notReady hpc (.inr rfl)
  · rename_i hpc
    split at h
    · rename_i hb
      split at h
      · rename_i he
        subst he
        obtain rfl := Option.some.inj h; exact .clientDone hpc
      · rename_i hne
        obtain rfl := Option.some.inj h; exact .clientChunk hpc hb hne
    · cases h
  · rename_i hpc; obtain rfl := Option.some.inj h; exact .recvFailed hpc (.inl rfl)
  · rename_i hpc; obtain rfl := Option.some.inj h; exact .recvFailed hpc (.inr rfl)
  · rename_i hpc
    obtain rfl := Option.some.inj h
    split
    · rename_i hc; exact .writeMore hpc hc.1 hc.2
    · rename_i hc; exact .writeEnd hpc fun hlt => by simpa [hlt] using hc
  · rename_i hpc
    split at h
    · rename_i hk
      obtain rfl := Option.some.inj h; exact .write hpc hk
    · cases h
  · rename_i hpc; obtain rfl := Option.some.inj h; exact .writeAgain hpc
  · rename_i hpc; obtain rfl := Option.some.inj h; exact .writeError hpc
  · rename_i hpc
    split at h
    · rename_i hb
      split at h
      · rename_i he
        subst he
        obtain rfl := Option.some.inj h; exact .channelNone hpc
      · rename_i hne
        obtain rfl := Option.some.inj h; exact .channelChunk hpc hb hne
    · cases h
  · rename_i hpc; obtain rfl := Option.some.inj h; exact .channelAgain hpc
  · rename_i hpc; obtain rfl := Option.some.inj h; exact .channelError hpc
  · rename_i b hpc
    obtain rfl := Option.some.inj h
    cases b
    · exact .channelOpen hpc
    · exact .channelDone hpc
  · rename_i hpc
    obtain rfl := Option.some.inj h
    split
    · rename_i hc; exact .sendMore hpc hc.1 hc.2
    · rename_i hc; exact .sendEnd hpc fun hlt => by simpa [hlt] using hc
  · rename_i hpc
    split at h
    · rename_i hk
      obtain rfl := Option.some.inj h; exact .send hpc hk
    · cases h
  · rename_i hpc; obtain rfl := Option.some.inj h; exact .sendAgain hpc
  · rename_i hpc; obtain rfl := Option.some.inj h; exact .sendError hpc
  · rename_i hpc; obtain rfl := Option.some.inj h; exact .closeClient hpc
  · rename_i hpc; obtain rfl := Option.some.inj h; exact .channelFree hpc
  · cases h

theorem Step.move (h : Step s e s') : s.Move e s' := by
  cases h with
  | shutdown => exact .shutdown
  | clientChunk | channelChunk => exact .take
  | write | send => exact .give
  | clientDone | channelNone => exact .goto (fun d => by simp [Ev.received]) (by simp)
  | notReady _ hr => rcases hr with rfl | rfl <;> exact .goto (fun _ => rfl) (by simp)
  | recvFailed _ hr => rcases hr with rfl | rfl <;> exact .goto (fun _ => rfl) (by simp)
  | _ => exact .goto (fun _ => rfl) (by simp)

theorem step_move (s : St Pc) (e : Ev) (s' : St Pc) (h : step s e = some s') : s.Move e s' :=
  (step_cases h).move

/-- What each direction owes at each place. -/
def slot : Pc → Dir → Slot
  | .head, _ => .loose
  | .select, _ | .recv, _ => .clean
  | .writeTest n w, .up | .write n w, .up => .owes w n
  | .read, .up | .eof, .up | .sendTest _ _, .up | .send _ _, .up => .loose
  | .sendTest n w, .down | .send n w, .down => .owes w n
  | .writeTest _ _, .down | .write _ _, .down | .read, .down | .eof, .down => .clean
  | .closeClient, _ | .channelFree, _ | .done, _ => .cut

/-- A step keeps the invariant of a direction, except that an `EAGAIN` from
the channel breaks the one of the way up. -/
theorem invOn_step {d : Dir} (h : s.InvOn slot d) (hs : Step s e s')
    (hn : d = .up → e ≠ .write .up .again) : s'.InvOn slot d := by
  cases hs with
  | shutdown => exact h.shutdown
  | leave | clientDone | recvFailed | writeError | channelError | channelDone | sendAgain | sendError
  | closeClient | channelFree => exact h.toCut rfl
  | enter hpc hr =>
    simp only [St.InvOn, hpc] at h
    exact Slot.Holds.looseToClean h hr
  | ready hpc =>
    simp only [St.InvOn, hpc] at h
    exact h
  | notReady hpc =>
    simp only [St.InvOn, hpc] at h
    cases d
    · exact Slot.Holds.cleanToLoose h
    · exact h
  | clientChunk hpc hb =>
    cases d
    · exact h.take hb (by rw [hpc]; rfl) rfl
    · exact h.takeOther (by decide) (.inl (by rw [hpc]; rfl)) (by rw [hpc]; rfl)
  | writeMore hpc | sendMore hpc =>
    simp only [St.InvOn, hpc] at h
    cases d <;> exact h
  | writeEnd hpc he =>
    simp only [St.InvOn, hpc] at h
    cases d
    · exact Slot.Holds.owesToLoose h he
    · exact h
  | write hpc hk =>
    cases d
    · exact h.give hk (by rw [hpc]; rfl) rfl
    · exact h.giveOther (by decide) (by rw [hpc]; rfl)
  | writeAgain hpc =>
    cases d
    · exact absurd rfl (hn rfl)
    · simp only [St.InvOn, hpc] at h
      exact h
  | channelNone hpc =>
    simp only [St.InvOn, hpc] at h
    cases d <;> exact h
  | channelAgain hpc | channelOpen hpc =>
    simp only [St.InvOn, hpc] at h
    cases d
    · exact h
    · exact Slot.Holds.cleanToLoose h
  | channelChunk hpc hb =>
    cases d
    · exact h.takeOther (by decide) (.inr (by rw [hpc]; rfl)) (by rw [hpc]; rfl)
    · exact h.take hb (by rw [hpc]; rfl) rfl
  | sendEnd hpc he =>
    simp only [St.InvOn, hpc] at h
    cases d
    · exact h
    · exact Slot.Holds.owesToLoose h he
  | send hpc hk =>
    cases d
    · exact h.giveOther (by decide) (by rw [hpc]; rfl)
    · exact h.give hk (by rw [hpc]; rfl) rfl

variable {buf : Buffer Byte bufferSize} {es : List Ev}

theorem invOn_start (d : Dir) : (start buf).InvOn slot d := St.inv_start (fun _ => .inr rfl) d

/-- The way down keeps its invariant in every run. -/
theorem invDown_run (h : Lts.Run step (start buf) es s) : s.InvOn slot .down :=
  h.inv (P := St.InvOn slot .down) (fun _ _ _ hi hs => invOn_step hi (step_cases hs) nofun) (invOn_start _)

/-- The way up keeps its own where the channel never answers `EAGAIN` to a
write. -/
theorem invUp_run (h : Lts.Run step (start buf) es s) (hn : .write .up .again ∉ es) : s.InvOn slot .up := by
  refine h.history (P := fun es t => .write .up .again ∉ es → t.InvOn slot .up) (fun _ => invOn_start _)
    (fun es t e u _ ih hu hn => ?_) hn
  simp only [List.mem_append, List.mem_singleton, not_or] at hn
  exact invOn_step (ih hn.1) (step_cases hu) fun _ => Ne.symm hn.2

/-- The pump is on its way out. -/
def closing : Pc → Bool
  | .closeClient | .channelFree | .done => true
  | _ => false

/-- The second half of a round. -/
def answering : Pc → Bool
  | .read | .eof | .sendTest _ _ | .send _ _ => true
  | _ => false

/-- A write is made only with bytes left to write. -/
def Unfinished : Pc → Prop
  | .write n w | .send n w => w < n
  | _ => True

theorem Step.unfinished (hs : Step s e s') (h : Unfinished s.pc) : Unfinished s'.pc := by
  cases hs with
  | shutdown => exact h
  | writeMore _ hlt | sendMore _ hlt => exact hlt
  | _ => trivial

theorem unfinished_run (h : Lts.Run step (start buf) es s) : Unfinished s.pc :=
  h.inv (P := fun t : St Pc => Unfinished t.pc) (fun _ _ _ ht hs => (step_cases hs).unfinished ht) trivial

theorem closing_step (hs : Step s e s') (h : closing s.pc = true) :
    closing s'.pc = true ∧ s'.flow = s.flow ∧ (e = .shutdown ∨ e = .call) := by
  cases hs with
  | shutdown => exact ⟨h, rfl, .inl rfl⟩
  | closeClient | channelFree => exact ⟨rfl, rfl, .inr rfl⟩
  | _ hpc => rw [hpc] at h; cases h

theorem not_head_of_closing {s s' : St Pc} {es : List Ev} (h : Lts.Run step s es s') (hc : closing s.pc = true) :
    s'.pc ≠ .head := by
  have : closing s'.pc = true :=
    h.inv (P := fun t => closing t.pc = true) (fun _ _ _ ht hs => (closing_step (step_cases hs) ht).1) hc
  intro he
  rw [he] at this; cases this

/-- The second half of a round leaves the way up alone. -/
theorem answering_step (hs : Step s e s') (h : answering s.pc = true) :
    closing s'.pc = true ∨ ((answering s'.pc = true ∨ s'.pc = .head) ∧ s'.flow .up = s.flow .up) := by
  cases hs with
  | shutdown => exact .inr ⟨.inl h, rfl⟩
  | channelError | channelDone | sendAgain | sendError => exact .inl rfl
  | channelNone | sendMore => exact .inr ⟨.inl rfl, rfl⟩
  | channelChunk => exact .inr ⟨.inl rfl, St.flow_take_of_ne (by decide)⟩
  | send => exact .inr ⟨.inl rfl, St.flow_give_of_ne (by decide)⟩
  | channelAgain | channelOpen | sendEnd => exact .inr ⟨.inr rfl, rfl⟩
  | _ hpc => rw [hpc] at h; cases h

/-- From there a run that gets to a head passes one before the way up has
changed. -/
theorem next_head {s s' : St Pc} {es : List Ev} (h : Lts.Run step s es s') (ha : answering s.pc = true)
    (hpc : s'.pc = .head) :
    ∃ es₁ es₂ t, es = es₁ ++ es₂ ∧ Lts.Run step s es₁ t ∧ Lts.Run step t es₂ s' ∧ t.pc = .head ∧
      t.flow .up = s.flow .up := by
  induction es generalizing s with
  | nil => rw [Lts.run_nil.mp h, hpc] at ha; cases ha
  | cons e es ih =>
    obtain ⟨u, hu, hr⟩ := Lts.run_cons.mp h
    rcases answering_step (step_cases hu) ha with hc | ⟨ha' | hh, hf⟩
    · exact absurd hpc (not_head_of_closing hr hc)
    · obtain ⟨es₁, es₂, t, rfl, h₁, h₂, ht, hft⟩ := ih hr ha'
      exact ⟨e :: es₁, es₂, t, rfl, Lts.run_cons.mpr ⟨u, hu, h₁⟩, h₂, ht, hft.trans hf⟩
    · exact ⟨[e], es, u, rfl, Lts.run_cons.mpr ⟨u, hu, Lts.run_nil.mpr rfl⟩, hr, hh, hf⟩

/-- No gap on the way up: what the channel accepted is a prefix of what the
client sent, and all of it at the head of a round with the flag up. -/
def NoGap (s : St Pc) : Prop :=
  (s.flow .up).put <+: (s.flow .up).got ∧
    (s.pc = .head → s.running = true → (s.flow .up).put = (s.flow .up).got)

theorem noGap_of_run (h : Lts.Run step (start buf) es s) (hn : .write .up .again ∉ es) : NoGap s :=
  have hi := invUp_run h hn
  ⟨hi.isPrefix, fun hpc hr => hi.settledOfRunning (by rw [hpc]; rfl) hr⟩

/-- After an `EAGAIN` the next head has a gap. -/
theorem gap_of_writeAgain {es₁ es₂ : List Ev}
    (h : Lts.Run step (start buf) (es₁ ++ .write .up .again :: es₂) s) (hn : .write .up .again ∉ es₁)
    (hpc : s.pc = .head) (hr : s.running = true) :
    ∃ es₃ es₄ t, es₂ = es₃ ++ es₄ ∧ Lts.Run step (start buf) (es₁ ++ .write .up .again :: es₃) t ∧ ¬ NoGap t := by
  obtain ⟨t, h₁, h'⟩ := Lts.run_append.mp h
  obtain ⟨u, hu, h₂⟩ := Lts.run_cons.mp h'
  obtain ⟨n, w, hw⟩ : ∃ n w, t.pc = .write n w := by
    cases step_cases hu with
    | writeAgain hpc => exact ⟨_, _, hpc⟩
  obtain rfl : t.goto .read = u := by
    simpa [step, hw] using hu
  have hne : (t.flow .up).put ≠ (t.flow .up).got := by
    have hi := invUp_run h₁ hn
    have hlt := unfinished_run h₁
    simp only [St.InvOn, hw, Unfinished] at hi hlt
    exact Slot.Holds.owesNe hi hlt
  obtain ⟨es₃, es₄, v, rfl, h₃, h₄, hv, hf⟩ := next_head h₂ rfl hpc
  refine ⟨es₃, es₄, v, rfl, Lts.run_append.mpr ⟨t, h₁, Lts.run_cons.mpr ⟨_, hu, h₃⟩⟩, fun hg => hne ?_⟩
  have := hg.2 hv (St.running_of_run step_move h₄ hr)
  rw [hf] at this
  exact this

/-- In a run in which no `libssh2_channel_write` answers `EAGAIN` the way up
has no gap; and a run that is at the head of a round with the flag up has had
no gap only if there was no such answer. -/
theorem forward_gap_iff (buf : Buffer Byte bufferSize) (es : List Ev) (s : St Pc)
    (h : Lts.Run step (start buf) es s) :
    (.write .up .again ∉ es → NoGap s) ∧
    (s.pc = .head → s.running = true →
      ((∀ es₁ es₂ t, es = es₁ ++ es₂ → Lts.Run step (start buf) es₁ t → NoGap t) ↔
        .write .up .again ∉ es)) := by
  refine ⟨noGap_of_run h, fun hpc hr => ⟨fun hg hmem => ?_, fun hn es₁ es₂ t he ht => ?_⟩⟩
  · obtain ⟨es₁, es₂, rfl, hn⟩ := List.eq_append_cons_of_mem hmem
    obtain ⟨es₃, es₄, t, rfl, ht, hgap⟩ := gap_of_writeAgain h hn hpc hr
    exact hgap (hg _ es₄ t (by simp) ht)
  · refine noGap_of_run ht fun hmem => hn ?_
    rw [he]
    exact List.mem_append_left _ hmem

/-- The client sends two bytes and the channel takes them. -/
def uploaded : List Ev :=
  [.test, .select (.ready true false), .read .up (.data [1, 2]), .test, .write .up (.count 1), .test,
    .write .up (.count 1), .test, .read .down .again]

theorem uploaded_no_gap :
    ∃ s, Lts.Run step (start (.const 0)) uploaded s ∧ s.pc = .head ∧ s.running = true ∧ NoGap s := by
  refine ⟨_, rfl, rfl, rfl, ?_⟩
  exact (forward_gap_iff (.const 0) uploaded _ rfl).1 (by decide)

/-- The client sends two bytes and the channel takes one, then answers
`EAGAIN`; the other is lost, and what the client sends next goes out behind
the gap. -/
def dropped : List Ev :=
  [.test, .select (.ready true false), .read .up (.data [1, 2]), .test, .write .up (.count 1), .test,
    .write .up .again, .read .down .again]

theorem dropped_gap :
    ∃ s t, Lts.Run step (start (.const 0)) dropped s ∧ s.pc = .head ∧ s.running = true ∧
      (s.flow .up).got = [1, 2] ∧ (s.flow .up).put = [1] ∧
      Lts.Run step s [.test, .select (.ready true false), .read .up (.data [3]), .test, .write .up (.count 1)] t ∧
      (t.flow .up).got = [1, 2, 3] ∧ (t.flow .up).put = [1, 3] ∧
      ¬ (t.flow .up).put <+: (t.flow .up).got :=
  ⟨_, _, rfl, rfl, rfl, rfl, rfl, rfl, rfl, rfl, by
    show ¬ ([1, 3] : List Byte) <+: [1, 2, 3]
    decide⟩

/-! ## The way down -/

/-- The client's socket failed with an error other than would-block. -/
def ClientFailed (es : List Ev) : Prop := .read .up .error ∈ es ∨ .write .down .error ∈ es

theorem clientFailed_snoc {es : List Ev} {e : Ev} :
    ClientFailed (es ++ [e]) ↔ ClientFailed es ∨ e = .read .up .error ∨ e = .write .down .error := by
  simp only [ClientFailed, List.mem_append, List.mem_singleton, eq_comm (a := e)]
  tauto

/-- What the pump's history says of the way down: nothing has gone wrong
until the pump closes; a send that would have blocked has left something
behind, and nothing else had gone wrong; and if something is left behind there
is a reason. -/
structure CloseInv (es : List Ev) (s : St Pc) : Prop where
  running : closing s.pc = false → .write .down .again ∉ es ∧ ¬ ClientFailed es
  blocked : .write .down .again ∈ es → (s.flow .down).put ≠ (s.flow .down).got ∧ ¬ ClientFailed es
  reason : closing s.pc = true → (s.flow .down).put ≠ (s.flow .down).got →
    .write .down .again ∈ es ∨ ClientFailed es ∨ s.running = false

theorem CloseInv.shutdown (h : CloseInv es s) : CloseInv (es ++ [.shutdown]) s.shutdown := by
  have hf : ClientFailed (es ++ [.shutdown]) ↔ ClientFailed es := by simp [clientFailed_snoc]
  have ha : .write .down .again ∈ es ++ [Ev.shutdown] ↔ .write .down .again ∈ es := by simp
  exact
    { running := by rw [ha, hf]; exact h.running
      blocked := by rw [ha, hf]; exact h.blocked
      reason := fun _ _ => .inr (.inr rfl) }

/-- A step that stays in the loop. -/
theorem CloseInv.stay (h : CloseInv es s) (hc : closing s.pc = false) (hc' : closing s'.pc = false)
    (ha : e ≠ .write .down .again) (hr : e ≠ .read .up .error) (hw : e ≠ .write .down .error) :
    CloseInv (es ++ [e]) s' := by
  obtain ⟨h₁, h₂⟩ := h.running hc
  have ha' : .write .down .again ∉ es ++ [e] := by simp [h₁, Ne.symm ha]
  have hf : ¬ ClientFailed (es ++ [e]) := by simp [clientFailed_snoc, h₂, hr, hw]
  exact
    { running := fun _ => ⟨ha', hf⟩
      blocked := fun hm => absurd hm ha'
      reason := fun hc => by rw [hc'] at hc; cases hc }

/-- A step out of the loop with nothing left behind, or for a reason. -/
theorem CloseInv.leave (h : CloseInv es s) (hc : closing s.pc = false) {pc : Pc} (hc' : closing pc = true)
    (ha : e ≠ .write .down .again)
    (hr : (s.flow .down).put ≠ (s.flow .down).got → ClientFailed (es ++ [e]) ∨ s.running = false) :
    CloseInv (es ++ [e]) (s.goto pc) := by
  have ha' : .write .down .again ∉ es ++ [e] := by simp [(h.running hc).1, Ne.symm ha]
  exact
    { running := fun hc => by rw [show closing (s.goto pc).pc = true from hc'] at hc; cases hc
      blocked := fun hm => absurd hm ha'
      reason := fun _ hne => .inr (hr hne) }

/-- A step of the cleanup. -/
theorem CloseInv.cleanup (h : CloseInv es s) (hc : closing s.pc = true) {pc : Pc} (hc' : closing pc = true) :
    CloseInv (es ++ [.call]) (s.goto pc) := by
  have hf : ClientFailed (es ++ [.call]) ↔ ClientFailed es := by simp [clientFailed_snoc]
  have ha : .write .down .again ∈ es ++ [Ev.call] ↔ .write .down .again ∈ es := by simp
  exact
    { running := fun hc => by rw [show closing (s.goto pc).pc = true from hc'] at hc; cases hc
      blocked := by rw [ha, hf]; exact h.blocked
      reason := by rw [ha, hf]; exact fun _ => h.reason hc }

theorem CloseInv.step (h : CloseInv es s) (hi : s.InvOn slot .down) (hu : Unfinished s.pc) (hs : Step s e s') :
    CloseInv (es ++ [e]) s' := by
  cases hs with
  | shutdown => exact h.shutdown
  | closeClient hpc | channelFree hpc => exact h.cleanup (by rw [hpc]; rfl) rfl
  | leave hpc hr => exact h.leave (by rw [hpc]; rfl) rfl (by simp) fun _ => .inr hr
  | clientDone hpc | writeError hpc | channelError hpc | channelDone hpc =>
    exact h.leave (by rw [hpc]; rfl) rfl (by simp) fun hne => absurd (hi.settled (by rw [hpc]; rfl)) hne
  | recvFailed hpc hr =>
    refine h.leave (by rw [hpc]; rfl) rfl (by simp) fun hne => absurd (hi.settled (by rw [hpc]; rfl)) hne
  | sendError hpc =>
    exact h.leave (by rw [hpc]; rfl) rfl (by simp) fun _ => .inl (clientFailed_snoc.mpr (by simp))
  | @sendAgain n w hpc =>
    have hf : ¬ ClientFailed (es ++ [.write .down .again]) := by
      simp [clientFailed_snoc, (h.running (by rw [hpc]; rfl)).2]
    simp only [St.InvOn, hpc, Unfinished] at hi hu
    exact
      { running := by simp [St.goto, closing]
        blocked := fun _ => ⟨Slot.Holds.owesNe hi hu, hf⟩
        reason := fun _ _ => .inl (by simp) }
  | notReady hpc hr =>
    rcases hr with rfl | rfl <;> exact h.stay (by rw [hpc]; rfl) rfl (by simp) (by simp) (by simp)
  | _ hpc => exact h.stay (by rw [hpc]; rfl) rfl (by simp) (by simp) (by simp)

theorem closeInv_run (h : Lts.Run step (start buf) es s) : CloseInv es s := by
  refine h.history ?_ fun es t e u ht ih hu => ih.step (invDown_run ht) (unfinished_run ht) (step_cases hu)
  exact { running := fun _ => ⟨nofun, by simp [ClientFailed]⟩, blocked := nofun, reason := nofun }

/-- What the client was sent is a prefix of what the channel delivered; and
the pump closes the client with something left behind only on a shutdown or a
failure of the client's socket exactly when, if a send would have blocked, a
shutdown has come as well. -/
theorem forward_truncation_iff (buf : Buffer Byte bufferSize) (es : List Ev) (s : St Pc)
    (h : Lts.Run step (start buf) es s) :
    (s.flow .down).put <+: (s.flow .down).got ∧
    (s.pc = .closeClient →
      (((s.flow .down).put ≠ (s.flow .down).got → s.running = false ∨ ClientFailed es) ↔
        (.write .down .again ∈ es → .shutdown ∈ es))) := by
  have hi := closeInv_run h
  have hr := St.running_eq_false_iff step_move h
  refine ⟨(invDown_run h).isPrefix, fun hpc => ⟨fun hc ha => ?_, fun hc hne => ?_⟩⟩
  · obtain ⟨hne, hf⟩ := hi.blocked ha
    exact hr.mp ((hc hne).resolve_right hf)
  · rcases hi.reason (by rw [hpc]; rfl) hne with ha | hf | hf
    · exact .inl (hr.mpr (hc ha))
    · exact .inr hf
    · exact .inl hf

/-- The channel delivers two bytes, the client takes both, and the channel
ends. -/
def downloaded : List Ev :=
  [.test, .select .timeout, .read .down (.data [1, 2]), .test, .write .down (.count 1), .test,
    .write .down (.count 1), .test, .test, .select .timeout, .read .down (.data []), .eof true]

theorem downloaded_whole :
    ∃ s, Lts.Run step (start (.const 0)) downloaded s ∧ s.pc = .closeClient ∧
      ((s.flow .down).put ≠ (s.flow .down).got → s.running = false ∨ ClientFailed downloaded) := by
  refine ⟨_, rfl, rfl, ?_⟩
  exact ((forward_truncation_iff (.const 0) downloaded _ rfl).2 rfl).mpr (by decide)

/-- The channel delivers two bytes, the client takes one and is full. -/
def truncated : List Ev :=
  [.test, .select .timeout, .read .down (.data [1, 2]), .test, .write .down (.count 1), .test,
    .write .down .again]

theorem truncated_by_slow_reader :
    ∃ s, Lts.Run step (start (.const 0)) truncated s ∧ s.pc = .closeClient ∧
      (s.flow .down).got = [1, 2] ∧ (s.flow .down).put = [1] ∧ s.running = true ∧
      ¬ ClientFailed truncated :=
  ⟨_, rfl, rfl, rfl, rfl, rfl, by simp [ClientFailed, truncated]⟩

end ErplTunnel.Pump.ForwardData

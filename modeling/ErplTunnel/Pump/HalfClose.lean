import ErplTunnel.Pump.MeshForwarder
import ErplTunnel.Pump.SshExporter
import ErplTunnel.Pump.ForwardData

/-!
# Half-close

What the three pumps do when one end has sent its last byte. They treat it
alike (`Ending`): the first end-of-stream a pump sees, from either side, makes
it close both handles, and nothing moves after it. So what the other end still
has to say arrives only if it had all been taken in by then
(`half_close_iff`).
-/

namespace ErplTunnel.Pump

open Relay

/-- The end of a stream as a pump between two sockets sees it. -/
def socketEnd : Ev → Option Dir
  | .read d (.data []) => some d
  | _ => none

/-- The end of a stream as a pump between a socket and a channel sees it. -/
def channelEnd : Ev → Option Dir
  | .read .up (.data []) => some .up
  | .eof true => some .down
  | _ => none

theorem socketEnd_eq_some {e : Ev} {d : Dir} : socketEnd e = some d ↔ e = .read d (.data []) := by
  unfold socketEnd
  split
  · simp
  · rename_i hn
    simpa using fun he => hn d he

theorem channelEnd_eq_some {e : Ev} {d : Dir} :
    channelEnd e = some d ↔ d = .up ∧ e = .read .up (.data []) ∨ d = .down ∧ e = .eof true := by
  unfold channelEnd
  split
  · simp [eq_comm]
  · simp [eq_comm]
  · rename_i h₁ h₂
    simpa using ⟨fun _ he => h₁ he, fun _ he => h₂ he⟩

section

variable {Pc : Type}

/-- The two ends send `sent`: what came in from each is the front of its
stream, and all of it if its end was seen. -/
def Sends (ends : Ev → Option Dir) (sent : Dir → List Byte) (es : List Ev) : Prop :=
  ∀ d, received d es <+: sent d ∧ ((∃ e ∈ es, ends e = some d) → received d es = sent d)

/-- A pump that closes at the first end-of-stream. -/
structure Ending (step : St Pc → Ev → Option (St Pc)) (ends : Ev → Option Dir) (closing : Pc → Bool) : Prop where
  move : ∀ s e s', step s e = some s' → s.Move e s'
  atEnd : ∀ s e s', step s e = some s' → ends e ≠ none → closing s'.pc = true ∧ s'.flow = s.flow
  closed : ∀ s e s', step s e = some s' → closing s.pc = true →
    closing s'.pc = true ∧ s'.flow = s.flow ∧ (e = .shutdown ∨ e = .call)
  quiet : ∀ e, e = .shutdown ∨ e = .call → ends e = none

namespace Ending

variable {step : St Pc → Ev → Option (St Pc)} {ends : Ev → Option Dir} {closing : Pc → Bool}
  (hE : Ending step ends closing)
include hE

/-- Once it closes nothing moves and no end-of-stream is seen. -/
theorem after {s s' : St Pc} {es : List Ev} (h : Lts.Run step s es s') (hc : closing s.pc = true) :
    closing s'.pc = true ∧ s'.flow = s.flow ∧ ∀ e ∈ es, ends e = none := by
  refine h.history (P := fun es t => closing t.pc = true ∧ t.flow = s.flow ∧ ∀ e ∈ es, ends e = none)
    ⟨hc, rfl, nofun⟩ fun es t e u _ ih hu => ?_
  obtain ⟨hc, hf, hn⟩ := ih
  obtain ⟨hc', hf', he⟩ := hE.closed t e u hu hc
  refine ⟨hc', hf'.trans hf, fun x hx => ?_⟩
  rcases List.mem_append.mp hx with hx | hx
  · exact hn x hx
  · obtain rfl := List.mem_singleton.mp hx
    exact hE.quiet x he

/-- A run with an end-of-stream, taken apart at it: it is the only one, and
the flows are those it found. -/
theorem split {s₀ s : St Pc} {es : List Ev} (h : Lts.Run step s₀ es s) {e : Ev} (hmem : e ∈ es)
    (he : ends e ≠ none) :
    ∃ es₁ es₂ t, es = es₁ ++ e :: es₂ ∧ Lts.Run step s₀ es₁ t ∧ s.flow = t.flow ∧
      (∀ x ∈ es₁, ends x = none) ∧ ∀ x ∈ es₂, ends x = none := by
  obtain ⟨es₁, es₂, rfl⟩ := List.append_of_mem hmem
  obtain ⟨t, h₁, h'⟩ := Lts.run_append.mp h
  obtain ⟨u, hu, h₂⟩ := Lts.run_cons.mp h'
  obtain ⟨hc, hf⟩ := hE.atEnd t e u hu he
  obtain ⟨-, hf', hn⟩ := hE.after h₂ hc
  refine ⟨es₁, es₂, t, rfl, h₁, hf'.trans hf, fun x hx => ?_, hn⟩
  by_contra hx'
  obtain ⟨xs, ys, rfl⟩ := List.append_of_mem hx
  obtain ⟨v, -, hv⟩ := Lts.run_append.mp h₁
  obtain ⟨w, hw, hwt⟩ := Lts.run_cons.mp hv
  obtain ⟨ht, -, -⟩ := hE.after hwt (hE.atEnd v x w hw hx').1
  exact he (hE.quiet e (hE.closed t e u hu ht).2.2)

theorem ends_once {s₀ s : St Pc} {es : List Ev} (h : Lts.Run step s₀ es s) {d : Dir}
    (hd : ∃ e ∈ es, ends e = some d) : ∀ e ∈ es, ends e ≠ some d.opp := by
  obtain ⟨e, hmem, he⟩ := hd
  obtain ⟨es₁, es₂, t, rfl, -, -, h₁, h₂⟩ := hE.split h hmem (by simp [he])
  intro x hx hxd
  simp only [List.mem_append, List.mem_cons] at hx
  rcases hx with hx | rfl | hx
  · simp [h₁ x hx] at hxd
  · rw [he] at hxd
    cases d <;> cases hxd
  · simp [h₂ x hx] at hxd

/-- If all that was received had been delivered at the end-of-stream, all of
both streams is delivered exactly when all of the other one was received. -/
theorem delivered_iff {pc : Pc} {buf : Buffer Byte bufferSize} {s : St Pc} {es : List Ev} {sent : Dir → List Byte}
    (h : Lts.Run step (.start pc buf) es s) (hs : Sends ends sent es)
    {d : Dir} (hd : ∃ e ∈ es, ends e = some d)
    (hset : ∀ es₁ e es₂ t u, es = es₁ ++ e :: es₂ → Lts.Run step (.start pc buf) es₁ t →
      step t e = some u → ends e = some d → ∀ c, (t.flow c).put = (t.flow c).got) :
    (∀ c, (s.flow c).put = sent c) ↔ received d.opp es = sent d.opp := by
  have hput : ∀ c, (s.flow c).put = received c es := by
    obtain ⟨e, hmem, he⟩ := hd
    intro c
    rw [← St.got_eq_received hE.move h c]
    obtain ⟨es₁, es₂, t, rfl, ht, hf, -, -⟩ := hE.split h hmem (by simp [he])
    obtain ⟨t', ht', hu⟩ := Lts.run_append.mp h
    obtain rfl := ht.det ht'
    obtain ⟨u, hu, -⟩ := Lts.run_cons.mp hu
    rw [hf]
    exact hset es₁ e es₂ t u rfl ht hu he c
  constructor
  · intro hc
    rw [← hput d.opp, hc d.opp]
  · intro hc c
    rw [hput c]
    rcases c.eq_or_opp d with rfl | rfl
    · exact (hs c).2 hd
    · exact hc

end Ending

end

/-! ## The three pumps -/

namespace MeshForwarder

variable {s s' : St Pc} {e : Ev} {d : Dir}

theorem end_cases (hs : Step s e s') (he : socketEnd e = some d) :
    (∃ m, s.pc = .recv d m) ∧ s' = s.goto (.shutdownWrite d) := by
  obtain rfl := socketEnd_eq_some.mp he
  cases hs with
  | finished hpc => exact ⟨⟨_, hpc⟩, rfl⟩
  | chunk _ _ hne => exact absurd rfl hne
  | recvFailed _ hr => rcases hr with hr | hr <;> cases hr
  | send _ hs => exact absurd rfl (hs.not_read.1 _ _)

theorem ending : Ending step socketEnd closing where
  move := step_move
  atEnd s e s' h he := by
    obtain ⟨d, hd⟩ := Option.ne_none_iff_exists'.mp he
    obtain ⟨-, rfl⟩ := end_cases (step_cases h) hd
    exact ⟨rfl, rfl⟩
  closed s e s' h hc := closing_step (step_cases h) hc
  quiet e he := by rcases he with rfl | rfl <;> rfl

/-- At an end-of-stream everything received is delivered. -/
theorem settled_at_end (h : s.Inv slot) (hs : Step s e s') (he : socketEnd e = some d) (c : Dir) :
    (s.flow c).put = (s.flow c).got := by
  obtain ⟨⟨m, hpc⟩, -⟩ := end_cases hs he
  exact (h c).settled (by rw [hpc]; rfl)

end MeshForwarder

namespace SshExporter

variable {s s' : St Pc} {e : Ev} {d : Dir}

theorem end_cases (hs : Step s e s') (he : channelEnd e = some d) :
    s.pc = .recv ∧ s' = s.goto .sendEof ∨ (∃ idle, s.pc = .eof idle) ∧ s' = s.goto .shutdownWrite := by
  rcases channelEnd_eq_some.mp he with ⟨-, rfl⟩ | ⟨-, rfl⟩
  · cases hs with
    | serviceDone hpc => exact .inl ⟨hpc, rfl⟩
    | serviceChunk _ _ hne => exact absurd rfl hne
    | send _ hs => exact absurd rfl (hs.not_read.1 _ _)
  · cases hs with
    | channelDone hpc => exact .inr ⟨⟨_, hpc⟩, rfl⟩
    | send _ hs => exact absurd rfl (hs.not_read.2 _)

theorem ending : Ending step channelEnd closing where
  move := step_move
  atEnd s e s' h he := by
    obtain ⟨d, hd⟩ := Option.ne_none_iff_exists'.mp he
    rcases end_cases (step_cases h) hd with ⟨-, rfl⟩ | ⟨-, rfl⟩ <;> exact ⟨rfl, rfl⟩
  closed s e s' h hc := closing_step (step_cases h) hc
  quiet e he := by rcases he with rfl | rfl <;> rfl

/-- At an end-of-stream with the flag up everything received is delivered. -/
theorem settled_at_end (h : s.Inv slot) (hr : s.running = true) (hs : Step s e s')
    (he : channelEnd e = some d) (c : Dir) : (s.flow c).put = (s.flow c).got := by
  rcases end_cases hs he with ⟨hpc, -⟩ | ⟨⟨idle, hpc⟩, -⟩
  · exact (h c).settled (by rw [hpc]; rfl)
  · cases c with
    | up => exact (h .up).settledOfRunning (by rw [hpc]; rfl) hr
    | down => exact (h .down).settled (by rw [hpc]; rfl)

end SshExporter

namespace ForwardData

variable {s s' : St Pc} {e : Ev} {d : Dir} {buf : Buffer Byte bufferSize} {es : List Ev}

theorem end_cases (hs : Step s e s') (he : channelEnd e = some d) :
    (s.pc = .recv ∨ s.pc = .eof) ∧ s' = s.goto .closeClient := by
  rcases channelEnd_eq_some.mp he with ⟨-, rfl⟩ | ⟨-, rfl⟩
  · cases hs with
    | clientDone hpc => exact ⟨.inl hpc, rfl⟩
    | clientChunk _ _ hne => exact absurd rfl hne
    | recvFailed _ hr => rcases hr with hr | hr <;> cases hr
  · cases hs with
    | channelDone hpc => exact ⟨.inr hpc, rfl⟩

theorem ending : Ending step channelEnd closing where
  move := step_move
  atEnd s e s' h he := by
    obtain ⟨d, hd⟩ := Option.ne_none_iff_exists'.mp he
    obtain ⟨-, rfl⟩ := end_cases (step_cases h) hd
    exact ⟨rfl, rfl⟩
  closed s e s' h hc := closing_step (step_cases h) hc
  quiet e he := by rcases he with rfl | rfl <;> rfl

/-- At an end-of-stream with the flag up everything received is delivered, if
the channel has not answered a write with `EAGAIN`. -/
theorem settled_at_end (h : Lts.Run step (start buf) es s) (hn : .write .up .again ∉ es)
    (hr : s.running = true) (hs : Step s e s') (he : channelEnd e = some d) (c : Dir) :
    (s.flow c).put = (s.flow c).got := by
  have hup := invUp_run h hn
  have hdown := invDown_run h
  obtain ⟨hpc | hpc, -⟩ := end_cases hs he
  · cases c with
    | up => exact hup.settled (by rw [hpc]; rfl)
    | down => exact hdown.settled (by rw [hpc]; rfl)
  · cases c with
    | up => exact hup.settledOfRunning (by rw [hpc]; rfl) hr
    | down => exact hdown.settled (by rw [hpc]; rfl)

/-- What is left to write of the chunk from the client. -/
def pending : Pc → Nat
  | .writeTest n w | .write n w => n - w
  | _ => 0

/-- The way up never delivers more than it received, and delivers less once a
write was answered with `EAGAIN`. -/
def LossInv (es : List Ev) (s : St Pc) : Prop :=
  (s.flow .up).put.length + pending s.pc ≤ (s.flow .up).got.length ∧
    (.write .up .again ∈ es → (s.flow .up).put.length + pending s.pc < (s.flow .up).got.length)

theorem LossInv.goto {pc : Pc} (h : LossInv es s) (he : e ≠ .write .up .again)
    (hp : pending pc ≤ pending s.pc) : LossInv (es ++ [e]) (s.goto pc) := by
  refine ⟨Nat.le_trans (Nat.add_le_add_left hp _) h.1, fun hm => ?_⟩
  have hm : .write .up .again ∈ es := by simpa [Ne.symm he] using hm
  exact Nat.lt_of_le_of_lt (Nat.add_le_add_left hp _) (h.2 hm)

theorem LossInv.step (h : LossInv es s) (hu : Unfinished s.pc) (hs : Step s e s') : LossInv (es ++ [e]) s' := by
  cases hs with
  | shutdown => exact ⟨h.1, fun hm => h.2 (by simpa using hm)⟩
  | @clientChunk bs hpc =>
    simp only [LossInv, hpc, pending, St.take, Function.update_self, Transit.recv, List.length_append] at h ⊢
    refine ⟨by omega, fun hm => ?_⟩
    have := h.2 (by simpa using hm)
    omega
  | @write n w k hpc hk =>
    have hl : (s.buf.slice w (w + k)).length ≤ k := by
      simp only [Buffer.slice, List.length_take]; omega
    simp only [LossInv, hpc, pending, St.give, Function.update_self, Transit.accept, List.length_append] at h ⊢
    refine ⟨by omega, fun hm => ?_⟩
    have := h.2 (by simpa using hm)
    omega
  | writeAgain hpc =>
    simp only [LossInv, hpc, pending, Unfinished, St.goto] at h hu ⊢
    exact ⟨by omega, fun _ => by omega⟩
  | channelChunk hpc =>
    rw [LossInv, St.flow_take_of_ne (by decide)]
    simp only [LossInv, hpc] at h
    exact ⟨h.1, fun hm => h.2 (by simpa using hm)⟩
  | send hpc =>
    rw [LossInv, St.flow_give_of_ne (by decide)]
    simp only [LossInv, hpc] at h
    exact ⟨h.1, fun hm => h.2 (by simpa using hm)⟩
  | writeMore hpc => exact h.goto (by simp) (by rw [hpc]; exact Nat.le_refl _)
  | notReady _ hr => rcases hr with rfl | rfl <;> exact h.goto (by simp) (Nat.zero_le _)
  | _ => exact h.goto (by simp) (Nat.zero_le _)

theorem lossInv_run (h : Lts.Run step (start buf) es s) : LossInv es s :=
  h.history ⟨Nat.le_refl _, nofun⟩ fun _ _ _ _ ht ih hu => ih.step (unfinished_run ht) (step_cases hu)

/-- A byte lost to an `EAGAIN` is missing from the client's stream. -/
theorem not_delivered_of_writeAgain {sent : Dir → List Byte} (h : Lts.Run step (start buf) es s)
    (hs : Sends channelEnd sent es) (ha : .write .up .again ∈ es) : (s.flow .up).put ≠ sent .up := by
  have hlt := (lossInv_run h).2 ha
  have hle := (hs .up).1.length_le
  rw [← St.got_eq_received step_move h .up] at hle
  intro heq
  rw [heq] at hlt
  omega

end ForwardData

/-- A pump that has seen an end-of-stream while the tunnel was open has, then
and ever after, delivered all of both streams exactly when it had received all
of the other one, and it never sees that one's end; the SSH import besides
must not have had a write answered with `EAGAIN`. -/
theorem half_close_iff (buf : Buffer Byte bufferSize) (es : List Ev) (sent : Dir → List Byte) (d : Dir)
    (hopen : .shutdown ∉ es) :
    (∀ s, Lts.Run MeshForwarder.step (MeshForwarder.start buf) es s →
      Sends socketEnd sent es →
      (∃ e ∈ es, socketEnd e = some d) →
      ((∀ c, (s.flow c).put = sent c) ↔ received d.opp es = sent d.opp) ∧
        ∀ e ∈ es, socketEnd e ≠ some d.opp) ∧
    (∀ s, Lts.Run SshExporter.step (SshExporter.start buf) es s →
      Sends channelEnd sent es →
      (∃ e ∈ es, channelEnd e = some d) →
      ((∀ c, (s.flow c).put = sent c) ↔ received d.opp es = sent d.opp) ∧
        ∀ e ∈ es, channelEnd e ≠ some d.opp) ∧
    (∀ s, Lts.Run ForwardData.step (ForwardData.start buf) es s →
      Sends channelEnd sent es →
      (∃ e ∈ es, channelEnd e = some d) →
      ((∀ c, (s.flow c).put = sent c) ↔ received d.opp es = sent d.opp ∧ .write .up .again ∉ es) ∧
        ∀ e ∈ es, channelEnd e ≠ some d.opp) := by
  refine ⟨fun s h hs hd => ?_, fun s h hs hd => ?_, fun s h hs hd => ?_⟩
  · refine ⟨MeshForwarder.ending.delivered_iff h hs hd fun es₁ e es₂ t u _ ht hu he => ?_,
      MeshForwarder.ending.ends_once h hd⟩
    exact MeshForwarder.settled_at_end (MeshForwarder.inv_run ht) (MeshForwarder.step_cases hu) he
  · refine ⟨SshExporter.ending.delivered_iff h hs hd fun es₁ e es₂ t u hes ht hu he => ?_,
      SshExporter.ending.ends_once h hd⟩
    have hr := St.running_of_open SshExporter.step_move ht (fun hm => hopen (by rw [hes]; simp [hm]))
    exact SshExporter.settled_at_end (SshExporter.inv_run ht) hr (SshExporter.step_cases hu) he
  · refine ⟨?_, ForwardData.ending.ends_once h hd⟩
    by_cases ha : .write .up .again ∈ es
    · have := ForwardData.not_delivered_of_writeAgain h hs ha
      exact ⟨fun hc => absurd (hc .up) this, fun hc => absurd ha hc.2⟩
    · rw [and_iff_left ha]
      refine ForwardData.ending.delivered_iff h hs hd fun es₁ e es₂ t u hes ht hu he => ?_
      have hr := St.running_of_open ForwardData.step_move ht (fun hm => hopen (by rw [hes]; simp [hm]))
      exact ForwardData.settled_at_end ht (fun hm => ha (by rw [hes]; simp [hm])) hr
        (ForwardData.step_cases hu) he

/-- The client sends one byte and the mesh stream answers with two before the
client is done. -/
def answered : List Ev :=
  [.test, .select (.ready true false), .read .up (.data [1]), .test, .write .up (.count 1), .test,
    .test, .select (.ready false true), .read .down (.data [2, 3]), .test, .write .down (.count 2), .test,
    .test, .select (.ready true false), .read .up (.data []), .call, .call, .call]

/-- What the two ends send: a request and an answer. -/
def dialogue : Dir → List Byte
  | .up => [1]
  | .down => [2, 3]

theorem sends_answered : Sends socketEnd dialogue answered := by
  intro d
  cases d
  · exact ⟨by decide, fun _ => by decide⟩
  · exact ⟨by decide, fun _ => by decide⟩

theorem answered_delivered :
    ∃ s, Lts.Run MeshForwarder.step (MeshForwarder.start (.const 0)) answered s ∧ s.pc = .done ∧
      ∀ c, (s.flow c).put = dialogue c := by
  refine ⟨_, rfl, rfl, ?_⟩
  have := (half_close_iff (.const 0) answered dialogue .up (by decide)).1 _ rfl sends_answered
    ⟨.read .up (.data []), by decide, rfl⟩
  exact this.1.mpr (by decide)

/-- The client sends its request and is done before the answer comes. -/
def meshCut : List Ev :=
  [.test, .select (.ready true false), .read .up (.data [1]), .test, .write .up (.count 1), .test,
    .test, .select (.ready true false), .read .up (.data []), .call, .call, .call]

/-- The local service likewise. -/
def exportCut : List Ev :=
  [.answer true, .answer true, .test, .select (.ready true false), .read .up (.data [1]), .test,
    .write .up (.count 1), .test, .read .down .again, .test, .select (.ready true false),
    .read .up (.data []), .call, .call, .call, .call]

/-- The client of the SSH import likewise. -/
def importCut : List Ev :=
  [.test, .select (.ready true false), .read .up (.data [1]), .test, .write .up (.count 1), .test,
    .read .down .again, .test, .select (.ready true false), .read .up (.data []), .call, .call]

/-- Each of the three closes with the answer not delivered, although nothing
failed and the tunnel is open. -/
theorem half_close_truncates :
    (∃ s, Lts.Run MeshForwarder.step (MeshForwarder.start (.const 0)) meshCut s ∧ s.pc = .done ∧
      s.running = true ∧ Sends socketEnd dialogue meshCut ∧ (s.flow .down).put = []) ∧
    (∃ s, Lts.Run SshExporter.step (SshExporter.start (.const 0)) exportCut s ∧ s.pc = .done ∧
      s.running = true ∧ Sends channelEnd dialogue exportCut ∧ (s.flow .down).put = []) ∧
    (∃ s, Lts.Run ForwardData.step (ForwardData.start (.const 0)) importCut s ∧ s.pc = .done ∧
      s.running = true ∧ Sends channelEnd dialogue importCut ∧ (s.flow .down).put = []) ∧
    dialogue .down = [2, 3] := by
  refine ⟨⟨_, rfl, rfl, rfl, fun d => ?_, rfl⟩, ⟨_, rfl, rfl, rfl, fun d => ?_, rfl⟩,
    ⟨_, rfl, rfl, rfl, fun d => ?_, rfl⟩, rfl⟩
  all_goals
    cases d
    · exact ⟨by decide, fun _ => by decide⟩
    · exact ⟨by decide, by decide⟩

end ErplTunnel.Pump

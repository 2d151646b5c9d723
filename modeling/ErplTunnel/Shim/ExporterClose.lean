import ErplTunnel.Framework.Pool
import ErplTunnel.Shim.Exporter

/-!
# What survives the exporter's `Close`

`Close` takes the connections that are tracked and closes them; one that is
accepted or dialled but not tracked yet is closed by `track`, which finds the
exporter closed. `Serve.Inv` is what holds of a goroutine in `serve` wherever it
stands, `Exporter.Inv` what holds of them together with `acceptLoop` and the
calls of `Close`.
-/

namespace ErplTunnel.Shim

open Relay (Dir Transit)

variable {α : Type}

/-! ## One goroutine -/

namespace ServePc

/-- The connection is tracked here, unless `Close` has taken it. -/
def tracks : ServePc → Side → Bool
  | .start, _ | .turnMesh, _ | .returned, _ => false
  | .bridging, .localEnd | .untrackLocal, .localEnd => true
  | _, .localEnd => false
  | _, .mesh => true

end ServePc

namespace Serve

variable {v v' : Serve α} {closed : Bool} {localAddr : String} {e : ServeEv α} {eff : Effect}

/-- A connection that was accepted late has been closed before anything is dialled. -/
def LateClosed (v : Serve α) : Prop :=
  match v.pc with
  | .start | .turnMesh => True
  | _ => v.late = true → (v.pair.conn .mesh).closed = true

/-- There is no local connection before the dial, and no open one after the bridge. -/
def Placed (v : Serve α) : Prop :=
  match v.pc with
  | .start | .turnMesh | .dialing | .refused _ | .dropping => v.dialled = false
  | .dialled | .turnLocal | .bridging => True
  | .untrackLocal | .untrackMesh | .returned =>
    (v.pair.conn .mesh).closed = true ∧ (v.dialled = true → (v.pair.conn .localEnd).closed = true)

structure Inv (closed : Bool) (v : Serve α) : Prop where
  pair : v.pair.Inv
  late : v.late = true → closed = true
  lateClosed : v.LateClosed
  lateSilent : v.late = true → (v.pair.copy .up).flow.got = []
  placed : v.Placed
  turned : v.pc = .turnMesh ∨ v.pc = .turnLocal → closed = true

theorem Inv.new (closed : Bool) : Inv closed (⟨.start, .new, false, closed⟩ : Serve α) :=
  ⟨.new, id, trivial, fun _ => rfl, rfl, by simp⟩

theorem Inv.close (h : Inv closed v) : Inv true v :=
  { h with late := fun _ => rfl, turned := fun _ => rfl }

theorem Inv.kill (h : Inv closed v) (x : Side) : Inv closed { v with pair := v.pair.kill x } := by
  obtain ⟨pc, pair, dialled, late⟩ := v
  refine ⟨h.pair.kill x, h.late, ?_, h.lateSilent, ?_, h.turned⟩
  · have hl := h.lateClosed
    cases pc
    all_goals first | trivial | exact fun hlate => Bridge.kill_keeps (hl hlate)
  · have hp := h.placed
    cases pc
    all_goals first | exact hp | exact ⟨Bridge.kill_keeps hp.1, fun hd => Bridge.kill_keeps (hp.2 hd)⟩

/-- A step of the bridge, of a connection that was accepted late or not. -/
theorem bridge_got {b b' : Bridge α} {e : BridgeEv α} (h : b.step e = some b')
    (hc : (b.conn .mesh).closed = true) : (b'.copy .up).flow.got = (b.copy .up).flow.got := by
  obtain ⟨d, c, rfl, hm⟩ | ⟨d, eof, hpc, rfl⟩ | ⟨hw, hd, rfl⟩ | ⟨hc, rfl⟩ := Bridge.step_cases h
  · cases d with
    | up => rw [Bridge.setCopy_self, hm.got hc]
    | down => rw [Bridge.setCopy_of_ne (by decide)]
  · cases d with
    | up => rw [Bridge.closeWrite_copy, Bridge.setCopy_self]
    | down => rw [Bridge.closeWrite_copy, Bridge.setCopy_of_ne (by decide)]
  · rfl
  · rfl

/-- What is closed stays closed. -/
theorem bridge_closed {b b' : Bridge α} {e : BridgeEv α} (h : b.step e = some b') {x : Side}
    (hc : (b.conn x).closed = true) : (b'.conn x).closed = true := by
  obtain ⟨d, c, rfl, hm⟩ | ⟨d, eof, hpc, rfl⟩ | ⟨hw, hd, rfl⟩ | ⟨hw, rfl⟩ := Bridge.step_cases h
  · exact hc
  · rw [Bridge.closeWrite_closed]
    exact hc
  · exact Bridge.kill_keeps hc
  · exact Bridge.kill_keeps hc

theorem Inv.step (hi : Inv closed v) (h : v.step closed localAddr e = some (v', eff)) : Inv closed v' := by
  have hl := hi.lateClosed
  have hp := hi.placed
  obtain ⟨pc, pair, dialled, late⟩ := v
  cases step_cases h with
  | turnedMesh hpc hc =>
    cases hpc
    exact ⟨hi.pair, hi.late, trivial, hi.lateSilent, hp, fun _ => hc⟩
  | trackMesh hpc hc =>
    cases hpc
    -- a goroutine that is not late finds the exporter open
    refine ⟨hi.pair, hi.late, fun hlate => ?_, hi.lateSilent, hp, by simp⟩
    rw [hi.late hlate] at hc
    cases hc
  | turnedLocal hpc hc =>
    cases hpc
    exact ⟨hi.pair, hi.late, hl, hi.lateSilent, trivial, fun _ => hc⟩
  | trackLocal hpc | dialled hpc =>
    cases hpc
    exact ⟨hi.pair, hi.late, hl, hi.lateSilent, trivial, by simp⟩
  | turnMesh hpc =>
    cases hpc
    exact ⟨hi.pair.kill _, hi.late, fun _ => Bridge.kill_closed .., hi.lateSilent, hp, by simp⟩
  | turnLocal hpc =>
    cases hpc
    exact ⟨hi.pair.kill _, hi.late, fun hlate => Bridge.kill_keeps (hl hlate), hi.lateSilent, trivial, by simp⟩
  | refused hpc | record hpc | untrackLocal hpc | untrackMesh hpc =>
    cases hpc
    exact ⟨hi.pair, hi.late, hl, hi.lateSilent, hp, by simp⟩
  | drop hpc =>
    cases hpc
    have hd : dialled = false := hp
    refine ⟨hi.pair.kill _, hi.late, fun _ => Bridge.kill_closed .., hi.lateSilent, ⟨Bridge.kill_closed .., ?_⟩, by simp⟩
    intro hd'
    rw [hd] at hd'
    cases hd'
  | @bridge be b hpc hb =>
    cases hpc
    have hlate : late = true → (b.conn .mesh).closed = true := fun hlate => bridge_closed hb (hl hlate)
    have hb' := hi.pair.step hb
    refine ⟨hb', hi.late, ?_, fun hlate => ?_, ?_, fun ht => ?_⟩
    · show LateClosed ⟨if b.pc = .finished then .untrackLocal else .bridging, b, dialled, late⟩
      split <;> exact hlate
    · exact (bridge_got hb (hl hlate)).trans (hi.lateSilent hlate)
    · show Placed ⟨if b.pc = .finished then .untrackLocal else .bridging, b, dialled, late⟩
      split
      case isTrue hf => exact ⟨hb'.closedMesh hf, fun _ => hb'.closedLocal (by rw [hf]; decide)⟩
      case isFalse => trivial
    · dsimp only at ht
      split at ht <;> simp at ht

/-- What is tracked stays so until it is untracked, and what a step tracks is. -/
theorem step_tracks (h : v.step closed localAddr e = some (v', eff)) (x : Side) :
    (v.pc.tracks x = true → v'.pc.tracks x = true ∨ eff = .untrack x) ∧ (eff = .track x → v'.pc.tracks x = true) := by
  obtain ⟨pc, pair, dialled, late⟩ := v
  cases step_cases h with
  | bridge hpc =>
    cases hpc
    cases x <;> split <;> simp [ServePc.tracks]
  | _ hpc =>
    cases hpc
    cases x <;> simp [ServePc.tracks]

end Serve

/-! ## The exporter -/

theorem CloserPc.first_of_lnClosed (c : CloserPc) (h : c.lnClosed = true) : c.first = true := by
  cases c with
  | closing => rfl
  | returned => exact h

namespace Exporter

variable {s s' : Exporter α} {k : Nat} {eff : Effect} {v v' : Serve α}

structure Inv (s : Exporter α) : Prop where
  serves : ∀ v ∈ s.serves, v.Inv s.closed
  tracked : ∀ c ∈ s.conns, Pool.At (fun v => v.pc.tracks c.2 = true) s.serves c.1
  /-- One call of `Close` sets `closed`. -/
  first : s.closers.countP CloserPc.first = s.closed.toNat
  listener : s.lnCloses = s.closers.countP CloserPc.lnClosed
  failed : ∀ err, s.acceptPc = .failed err true → s.closed = true
  errs : ∀ err, ExportErr.accept err true ∉ s.errs

theorem Inv.start (localAddr : String) : Inv (start localAddr : Exporter α) where
  serves _ h := by cases h
  tracked _ h := by cases h
  first := rfl
  listener := rfl
  failed _ h := by cases h
  errs _ h := by cases h

/-- The listener is closed by the call that set `closed`. -/
theorem Inv.lnCloses_le (h : Inv s) : s.lnCloses ≤ s.closed.toNat := by
  rw [h.listener, ← h.first]
  exact List.countP_mono_left fun c _ hc => c.first_of_lnClosed hc

theorem Inv.closed_of_lnCloses (h : Inv s) (hl : 0 < s.lnCloses) : s.closed = true := by
  have hle := h.lnCloses_le
  cases hc : s.closed with
  | true => rfl
  | false =>
    rw [hc, Bool.toNat_false] at hle
    omega

@[simp] theorem apply_serves : (s.apply k eff).serves = s.serves := by
  cases eff <;> rfl

@[simp] theorem apply_closed : (s.apply k eff).closed = s.closed := by
  cases eff <;> rfl

@[simp] theorem apply_closers : (s.apply k eff).closers = s.closers := by
  cases eff <;> rfl

@[simp] theorem apply_lnCloses : (s.apply k eff).lnCloses = s.lnCloses := by
  cases eff <;> rfl

@[simp] theorem apply_acceptPc : (s.apply k eff).acceptPc = s.acceptPc := by
  cases eff <;> rfl

theorem mem_apply_conns {c : Nat × Side} (h : c ∈ (s.apply k eff).conns) :
    (c ∈ s.conns ∧ ∀ x, eff = .untrack x → c ≠ (k, x)) ∨ ∃ x, eff = .track x ∧ c = (k, x) := by
  cases eff with
  | quiet | setErr => exact .inl ⟨h, fun x hx => by cases hx⟩
  | track x =>
    rcases List.mem_append.mp h with h | h
    · exact .inl ⟨h, fun y hy => by cases hy⟩
    · exact .inr ⟨x, rfl, List.mem_singleton.mp h⟩
  | untrack x =>
    obtain ⟨hm, hne⟩ := List.mem_filter.mp h
    refine .inl ⟨hm, fun y hy => ?_⟩
    cases hy
    exact of_decide_eq_true hne

theorem accept_not_mem_apply {err : String} {b : Bool} (h : ExportErr.accept err b ∉ s.errs) :
    ExportErr.accept err b ∉ (s.apply k eff).errs := by
  cases eff with
  | setErr text => simpa [apply] using h
  | _ => exact h

/-- A step of a goroutine in `serve`. -/
theorem Inv.serve (h : Inv s) (hk : s.serves[k]? = some v) {e : ServeEv α}
    (hv : v.step s.closed s.localAddr e = some (v', eff)) :
    Inv ({ s with serves := s.serves.set k v' }.apply k eff) := by
  refine ⟨?_, fun c hc => ?_, ?_, ?_, ?_, fun err => accept_not_mem_apply (h.errs err)⟩
  · rw [apply_serves, apply_closed]
    intro w hw
    obtain rfl | hw := List.mem_or_eq_of_mem_set hw |>.symm
    · exact (h.serves v (List.mem_of_getElem? hk)).step hv
    · exact h.serves w hw
  · rw [apply_serves, Pool.at_set hk]
    obtain ⟨hc, hne⟩ | ⟨x, rfl, rfl⟩ := mem_apply_conns hc
    · by_cases hck : c.1 = k
      · obtain ⟨w, hw, ht⟩ := h.tracked c hc
        obtain rfl : w = v := by rw [hck, hk] at hw; exact (Option.some.inj hw).symm
        exact .inr ⟨hck, ((Serve.step_tracks hv c.2).1 ht).resolve_right fun he =>
          hne c.2 he (Prod.ext hck rfl)⟩
      · exact .inl ⟨hck, h.tracked c hc⟩
    · exact .inr ⟨rfl, (Serve.step_tracks hv x).2 rfl⟩
  · rw [apply_closers, apply_closed]
    exact h.first
  · rw [apply_closers, apply_lnCloses]
    exact h.listener
  · rw [apply_acceptPc, apply_closed]
    exact h.failed

theorem mem_modify {f : Serve α → Serve α} {l : List (Serve α)} {w : Serve α} (h : w ∈ l.modify k f) :
    w ∈ l ∨ ∃ v ∈ l, w = f v := by
  obtain ⟨i, hi⟩ := List.getElem?_of_mem h
  rw [List.getElem?_modify] at hi
  obtain ⟨v, hv, rfl⟩ := Option.map_eq_some_iff.mp hi
  have hm := List.mem_of_getElem? hv
  by_cases hik : k = i
  · exact .inr ⟨v, hm, by simp [hik]⟩
  · exact .inl (by simpa [hik] using hm)

/-- The `Close` of a connection, by a call of `Close` of the exporter. -/
theorem Inv.kill (h : Inv s) (c : Nat × Side) : Inv (s.kill c) where
  serves w hw := by
    obtain hw | ⟨v, hv, rfl⟩ := mem_modify hw
    · exact h.serves w hw
    · exact (h.serves v hv).kill c.2
  tracked d hd := by
    obtain ⟨v, hv, ht⟩ := h.tracked d hd
    refine ⟨_, by rw [Exporter.kill, List.getElem?_modify, hv]; rfl, ?_⟩
    by_cases hcd : c.1 = d.1
    · simpa [hcd] using ht
    · simpa [hcd] using ht
  first := h.first
  listener := h.listener
  failed := h.failed
  errs := h.errs

/-- One entry is replaced. -/
theorem countP_set_add {l : List CloserPc} {j : Nat} {a b : CloserPc} (h : l[j]? = some a) (p : CloserPc → Bool) :
    (l.set j b).countP p + (p a).toNat = l.countP p + (p b).toNat := by
  obtain ⟨hj, ha⟩ := List.getElem?_eq_some_iff.mp h
  rw [List.countP_set hj, ha]
  cases hpa : p a with
  | false => cases p b <;> simp
  | true =>
    have hpos : 0 < l.countP p := List.countP_pos_iff.mpr ⟨a, List.mem_of_getElem? h, hpa⟩
    cases p b <;> simp <;> omega

/-- A call of `Close` goes on, and the listener is closed where it is said to be. -/
theorem Inv.closer (h : Inv s) {j n : Nat} {a b : CloserPc} (hj : s.closers[j]? = some a) (hf : b.first = a.first)
    (hn : n + a.lnClosed.toNat = s.lnCloses + b.lnClosed.toNat) :
    Inv { s with closers := s.closers.set j b, lnCloses := n } := by
  have hfirst := countP_set_add (b := b) hj CloserPc.first
  have hln := countP_set_add (b := b) hj CloserPc.lnClosed
  have hl := h.listener
  rw [hf] at hfirst
  refine ⟨h.serves, h.tracked, (Nat.add_right_cancel hfirst).trans h.first, ?_, h.failed, h.errs⟩
  show n = (s.closers.set j b).countP CloserPc.lnClosed
  omega

theorem Inv.step (h : Inv s) {e : ExportEv α} (hs : s.step e = some s') : Inv s' := by
  cases step_cases hs with
  | accept =>
    refine ⟨fun v hv => ?_, fun c hc => Pool.at_snoc.mpr (.inl (h.tracked c hc)), h.first, h.listener, h.failed,
      h.errs⟩
    rcases List.mem_append.mp hv with hv | hv
    · exact h.serves v hv
    · rw [List.mem_singleton.mp hv]
      exact .new s.closed
  | acceptErr =>
    refine ⟨h.serves, h.tracked, h.first, h.listener, fun err he => h.closed_of_lnCloses ?_, h.errs⟩
    simp only [AcceptPc.failed.injEq, decide_eq_true_eq] at he
    exact he.2
  | @acceptEnd err lnClosed hpc =>
    refine ⟨h.serves, h.tracked, h.first, h.listener, (fun err he => by cases he), fun e he => ?_⟩
    split at he
    case isTrue => exact h.errs e he
    case isFalse hc =>
      -- an error of a closed listener comes after `closed`
      rcases List.mem_append.mp he with he | he
      · exact h.errs e he
      · obtain ⟨-, rfl⟩ := ExportErr.accept.inj (List.mem_singleton.mp he)
        exact hc (h.failed err hpc)
  | serve hk hv => exact h.serve hk hv
  | closeAgain hc =>
    refine ⟨h.serves, h.tracked, ?_, ?_, h.failed, h.errs⟩
    · rw [List.countP_append, h.first]
      rfl
    · rw [List.countP_append, ← h.listener]
      rfl
  | close hc =>
    refine ⟨fun v hv => (h.serves v hv).close, (fun c hc => by cases hc), ?_, ?_, fun _ _ => rfl, h.errs⟩
    · rw [List.countP_append, h.first, hc]
      rfl
    · rw [List.countP_append, ← h.listener]
      rfl
  | closeLn hj => exact h.closer hj rfl rfl
  | @closeConn j c todo hj =>
    have hset : Inv { s with closers := s.closers.set j (.closing (todo.erase c) true) } := h.closer hj rfl rfl
    exact hset.kill c
  | closeEnd hj => exact h.closer hj rfl rfl

/-! ## Over every run -/

theorem inv_of_run {localAddr : String} {es : List (ExportEv α)} (h : Lts.Run step (start localAddr) es s) : Inv s :=
  h.inv (fun _ _ _ hi hs => hi.step hs) (.start localAddr)

/-- Some call of `Close` has returned, `acceptLoop` has, and every goroutine it started. -/
def Unwound (s : Exporter α) : Prop :=
  (∃ b, .returned b ∈ s.closers) ∧ s.acceptPc = .returned ∧ ∀ v ∈ s.serves, v.pc = .returned

/-- Every connection that was accepted or dialled is closed, and none is tracked. -/
structure AllClosed (s : Exporter α) : Prop where
  accepted : ∀ v ∈ s.serves, (v.pair.conn .mesh).closed = true
  dialled : ∀ v ∈ s.serves, v.dialled = true → (v.pair.conn .localEnd).closed = true
  untracked : s.conns = []

theorem Inv.allClosed (h : Inv s) (hv : ∀ v ∈ s.serves, v.pc = .returned) : AllClosed s := by
  have hplaced : ∀ v ∈ s.serves, (v.pair.conn .mesh).closed = true ∧
      (v.dialled = true → (v.pair.conn .localEnd).closed = true) := by
    intro v hm
    have hp := (h.serves v hm).placed
    rw [Serve.Placed, hv v hm] at hp
    exact hp
  refine ⟨fun v hm => (hplaced v hm).1, fun v hm => (hplaced v hm).2, List.eq_nil_iff_forall_not_mem.mpr fun c hc => ?_⟩
  obtain ⟨v, hk, ht⟩ := h.tracked c hc
  rw [hv v (List.mem_of_getElem? hk)] at ht
  cases ht

/-- A call of `Close` that has returned after it set `closed` has closed the listener. -/
theorem Inv.lnCloses_eq (h : Inv s) (hr : .returned true ∈ s.closers) : s.lnCloses = 1 := by
  have hpos : 0 < s.closers.countP CloserPc.lnClosed := List.countP_pos_iff.mpr ⟨_, hr, rfl⟩
  have hle := h.lnCloses_le
  have hl := h.listener
  have hb : s.closed.toNat ≤ 1 := Bool.toNat_le _
  omega

/-- Nothing survives `Close`: in every run, once everything has unwound, all
connections are closed and untracked; a connection accepted after `closed` was
set carries nothing to the local service; the listener is closed at most once,
and once when the call that set `closed` has returned; and `lastErr` is never
the error that closing the listener causes. -/
theorem nothing_survives_close (localAddr : String) (es : List (ExportEv α)) (s : Exporter α)
    (h : Lts.Run step (start localAddr) es s) :
    (s.Unwound → s.AllClosed) ∧
    (∀ v ∈ s.serves, v.late = true → (v.pair.copy .up).flow.put = []) ∧
    s.lnCloses ≤ 1 ∧ (.returned true ∈ s.closers → s.lnCloses = 1) ∧
    ∀ err, ExportErr.accept err true ∉ s.errs := by
  have hi := inv_of_run h
  refine ⟨fun hu => hi.allClosed hu.2.2, fun v hv hl => ?_, ?_, hi.lnCloses_eq, hi.errs⟩
  · have hv := hi.serves v hv
    have hp := hv.pair.faithful.prefix_read .up
    rw [hv.lateSilent hl] at hp
    exact List.prefix_nil.mp hp
  · have hle := hi.lnCloses_le
    have hb : s.closed.toNat ≤ 1 := Bool.toNat_le _
    omega

/-- Both directions end, and the bridge with them. -/
def bridgeEnds (k : Nat) : List (ExportEv α) :=
  [.readErr .up, .readErr .down, .closeWrite .up, .closeWrite .down, .signal .up, .signal .down, .closeLocal,
    .closeMesh].map fun e => .serve k (.bridge e)

/-- A connection is served when `Close` is called, and one is accepted before the
listener is closed. -/
def lateConnection : List (ExportEv Nat) :=
  [.accept, .serve 0 .track, .serve 0 (.dial none), .serve 0 .track, .serve 0 (.bridge (.read .up [7])),
    .serve 0 (.bridge (.write .up 1)), .close, .accept, .closeLn 0, .closeConn 0 (0, .mesh),
    .closeConn 0 (0, .localEnd), .closeEnd 0, .acceptErr "use of closed network connection", .acceptEnd] ++
  bridgeEnds 0 ++ [.serve 0 .untrack, .serve 0 .untrack, .serve 1 .track, .serve 1 .turn, .serve 1 (.dial none),
    .serve 1 .track, .serve 1 .turn] ++
  bridgeEnds 1 ++ [.serve 1 .untrack, .serve 1 .untrack]

theorem lateConnection_closed :
    ∃ s, Lts.Run step (start "127.0.0.1:8080") lateConnection s ∧ s.AllClosed ∧ s.lnCloses = 1 ∧
      s.serves.map (·.late) = [false, true] ∧ s.serves.map (fun v => (v.pair.copy .up).flow.put) = [[7], []] := by
  have hrun : ∃ s, Lts.Run step (start "127.0.0.1:8080") lateConnection s ∧
      s.closers = [.returned true] ∧ s.acceptPc = .returned ∧ s.serves.map (·.pc) = [.returned, .returned] ∧
      s.serves.map (·.late) = [false, true] ∧ s.serves.map (fun v => (v.pair.copy .up).flow.put) = [[7], []] :=
    ⟨_, rfl, rfl, rfl, rfl, rfl, rfl⟩
  obtain ⟨s, hs, hcl, ha, hpc, hlate, hput⟩ := hrun
  obtain ⟨hclosed, -, -, hln, -⟩ := nothing_survives_close "127.0.0.1:8080" lateConnection s hs
  have hret : ∀ v ∈ s.serves, v.pc = .returned := by
    intro v hv
    have hm : v.pc ∈ s.serves.map (·.pc) := List.mem_map_of_mem hv
    rw [hpc] at hm
    simpa using hm
  refine ⟨s, hs, hclosed ⟨⟨true, ?_⟩, ha, hret⟩, hln ?_, hlate, hput⟩
  · rw [hcl]
    decide
  · rw [hcl]
    decide

/-- A second call of `Close` returns at once, while the first has not closed the
listener of an accept loop that had ended by itself. -/
theorem listener_still_open :
    ¬ ∀ localAddr (es : List (ExportEv Nat)) (s : Exporter Nat), Lts.Run step (start localAddr) es s →
      s.Unwound → s.AllClosed ∧ s.lnCloses = 1 := by
  intro h
  have hrun : ∃ s, Lts.Run step (start "127.0.0.1:8080") ([.acceptErr "reset", .acceptEnd, .close, .close] :
      List (ExportEv Nat)) s ∧ s.closers = [.closing [] false, .returned false] ∧ s.acceptPc = .returned ∧
      s.serves = [] ∧ s.lnCloses = 0 := ⟨_, rfl, rfl, rfl, rfl, rfl⟩
  obtain ⟨s, hs, hcl, ha, hv, hln⟩ := hrun
  have hone := (h _ _ s hs ⟨⟨false, by rw [hcl]; decide⟩, ha, by rw [hv]; simp⟩).2
  rw [hln] at hone
  cases hone

end Exporter

end ErplTunnel.Shim

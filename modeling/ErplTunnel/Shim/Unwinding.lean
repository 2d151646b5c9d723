import ErplTunnel.Framework.Leaving
import ErplTunnel.Shim.Fidelity

/-!
# The goroutines of an exporter after its `Close`

`Close` does not wait for the goroutines in `serve`; it closes their connections
and leaves them to unwind. That they do rests on `Taken`: a connection that is
tracked in the code of its goroutine is tracked by the exporter, or is among those
that a call of `Close` is about to close, or is closed. So when that call has
returned a goroutine in the bridge finds both its connections closed, and one
before it will.
-/

namespace ErplTunnel.Shim

open Lts
open Relay (Dir)

variable {α : Type}

/-! ## Closed connections -/

/-- The steps a goroutine of a bridge has before it, with both connections closed. -/
def CopyPc.left : CopyPc α → Nat
  | .reading | .writing _ => 3
  | .ended _ => 2
  | .shut _ => 1
  | .done _ => 0

def BridgePc.left : BridgePc → Nat
  | .waiting => 2
  | .closedLocal => 1
  | .finished => 0

namespace Bridge

variable {b b' : Bridge α}

def left (b : Bridge α) : Nat := (b.copy .up).pc.left + (b.copy .down).pc.left + b.pc.left

theorem left_le (b : Bridge α) : b.left ≤ 8 := by
  have hcopy : ∀ pc : CopyPc α, pc.left ≤ 3 := fun pc => by cases pc <;> simp [CopyPc.left]
  have hpc : b.pc.left ≤ 2 := by cases b.pc <;> simp [BridgePc.left]
  have hup := hcopy (b.copy .up).pc
  have hdown := hcopy (b.copy .down).pc
  unfold left
  omega

theorem setCopy_left {d : Dir} {c : Copy α} (h : c.pc.left < (b.copy d).pc.left) :
    (b.setCopy d c).left < b.left := by
  cases d
  all_goals
    rw [left, setCopy_self, setCopy_of_ne (by decide)]
    show _ + _ + b.pc.left < b.left
    unfold left
    omega

theorem step_left {e : BridgeEv α} (hc : ∀ x, (b.conn x).closed = true) (h : b.step e = some b') :
    b'.left < b.left := by
  cases e with
  | read d bs =>
    simp only [step, hc, Bool.true_or, if_true] at h
    split at h <;> cases h
  | eof d =>
    simp only [step, hc, if_true] at h
    split at h <;> cases h
  | write d n =>
    simp only [step, hc, Bool.true_or, if_true] at h
    split at h <;> cases h
  | readErr d | writeErr d =>
    simp only [step] at h
    split at h <;> cases h
    rename_i hpc
    refine setCopy_left ?_
    rw [hpc]
    exact Nat.lt_succ_self _
  | closeWrite d =>
    simp only [step] at h
    split at h <;> cases h
    rename_i hpc
    refine setCopy_left (b := b) ?_
    rw [hpc]
    exact Nat.lt_succ_self _
  | signal d =>
    simp only [step] at h
    split at h <;> cases h
    rename_i hpc
    refine setCopy_left ?_
    rw [hpc]
    exact Nat.lt_succ_self _
  | closeLocal =>
    simp only [step] at h
    split at h <;> cases h
    rename_i hw
    show _ + _ + 1 < _
    rw [left, hw.1]
    exact Nat.lt_succ_self _
  | closeMesh =>
    simp only [step] at h
    split at h <;> cases h
    rename_i hw
    show _ + _ + 0 < _
    rw [left, hw]
    exact Nat.lt_succ_self _

/-- Whatever its connections are, a bridge that is not through can go on. -/
theorem exists_step (h : b.pc ≠ .finished) : ∃ e b', b.step e = some b' := by
  have hcopy : ∀ d, (b.copy d).pc.isDone = false → ∃ e b', b.step e = some b' := by
    intro d hd
    cases hpc : (b.copy d).pc with
    | reading => exact ⟨.readErr d, _, by simp only [step, hpc]; rfl⟩
    | writing buf => exact ⟨.writeErr d, _, by simp only [step, hpc]; rfl⟩
    | ended eof => exact ⟨.closeWrite d, _, by simp only [step, hpc]; rfl⟩
    | shut eof => exact ⟨.signal d, _, by simp only [step, hpc]; rfl⟩
    | done eof => rw [hpc] at hd; cases hd
  by_cases hb : b.bothDone = true
  · cases hpc : b.pc with
    | waiting => exact ⟨.closeLocal, _, by simp only [step]; exact if_pos ⟨hpc, hb⟩⟩
    | closedLocal => exact ⟨.closeMesh, _, by simp only [step]; exact if_pos hpc⟩
    | finished => exact absurd hpc h
  · rw [bothDone_iff, not_forall] at hb
    obtain ⟨d, hd⟩ := hb
    exact hcopy d (by simpa using hd)

end Bridge

/-! ## A goroutine in serve -/

namespace Serve

variable {v v' : Serve α} {localAddr : String} {e : ServeEv α} {eff : Effect}

/-- The steps the goroutine has before it, with the exporter closed. -/
def left (v : Serve α) : Nat :=
  match v.pc with
  | .start => 15
  | .turnMesh => 14
  | .dialing => 13
  | .dialled => 12
  | .turnLocal => 11
  | .bridging => v.pair.left + 2
  | .refused _ => 3
  | .dropping | .untrackLocal => 2
  | .untrackMesh => 1
  | .returned => 0

theorem left_le (v : Serve α) : v.left ≤ 15 := by
  have hb := v.pair.left_le
  unfold left
  split <;> omega

theorem step_left (hc : v.pc = .bridging → ∀ x, (v.pair.conn x).closed = true)
    (h : v.step true localAddr e = some (v', eff)) : v'.left < v.left := by
  obtain ⟨pc, pair, dialled, late⟩ := v
  cases step_cases h with
  | trackMesh _ hc | trackLocal _ hc => cases hc
  | turnLocal hpc =>
    cases hpc
    have hb := (pair.kill .localEnd).left_le
    show (pair.kill .localEnd).left + 2 < 11
    omega
  | @bridge be b hpc hb =>
    cases hpc
    have hlt : b.left < pair.left := Bridge.step_left (hc rfl) hb
    by_cases hf : b.pc = .finished
    · simp only [hf, if_true, left]
      omega
    · simp only [hf, if_false, left]
      omega
  | _ hpc =>
    cases hpc
    simp [left]

/-- The bridge of a goroutine that is not past it is not through. -/
def Unfinished (v : Serve α) : Prop :=
  match v.pc with
  | .untrackLocal | .untrackMesh | .returned => True
  | _ => v.pair.pc ≠ .finished

theorem step_unfinished {closed : Bool} (hu : v.Unfinished) (h : v.step closed localAddr e = some (v', eff)) :
    v'.Unfinished := by
  obtain ⟨pc, pair, dialled, late⟩ := v
  cases step_cases h with
  | @bridge be b hpc hb =>
    by_cases hf : b.pc = .finished
    · simp only [hf, if_true, Unfinished]
    · simp only [hf, if_false, Unfinished]
      exact hf
  | drop => exact trivial
  | _ hpc =>
    cases hpc
    exact hu

theorem exists_step {closed : Bool} (hu : v.Unfinished) (h : v.pc ≠ .returned) :
    ∃ e v' eff, v.step closed localAddr e = some (v', eff) := by
  obtain ⟨pc, pair, dialled, late⟩ := v
  cases pc with
  | start | dialled => cases closed <;> exact ⟨.track, _, _, rfl⟩
  | turnMesh | turnLocal => exact ⟨.turn, _, _, rfl⟩
  | dialing => exact ⟨.dial none, _, _, rfl⟩
  | refused err => exact ⟨.record, _, _, rfl⟩
  | dropping => exact ⟨.drop, _, _, rfl⟩
  | bridging =>
    obtain ⟨be, b, hb⟩ := Bridge.exists_step hu
    exact ⟨.bridge be, _, _, by simp only [step, hb]; rfl⟩
  | untrackLocal | untrackMesh => exact ⟨.untrack, _, _, rfl⟩
  | returned => exact absurd rfl h

/-- A connection that the code tracks after a step is one it has just told the
exporter of, or one that it tracked before, or closed. -/
theorem step_held {closed : Bool} (h : v.step closed localAddr e = some (v', eff)) {x : Side}
    (ht : v'.pc.tracks x = true) :
    eff = .track x ∨ (v'.pair.conn x).closed = true ∨
      v.pc.tracks x = true ∧ eff ≠ .untrack x ∧ ((v.pair.conn x).closed = true → (v'.pair.conn x).closed = true) := by
  obtain ⟨pc, pair, dialled, late⟩ := v
  cases step_cases h with
  | turnMesh hpc | drop hpc =>
    cases hpc
    cases x with
    | mesh => exact .inr (.inl (Bridge.kill_closed ..))
    | localEnd => cases ht
  | turnLocal hpc =>
    cases hpc
    cases x with
    | mesh => exact .inr (.inr ⟨rfl, by simp, Bridge.kill_keeps⟩)
    | localEnd => exact .inr (.inl (Bridge.kill_closed ..))
  | @bridge be b hpc hb =>
    cases hpc
    exact .inr (.inr ⟨by cases x <;> rfl, by simp, bridge_closed hb⟩)
  | _ hpc =>
    cases hpc
    cases x <;> simp_all [ServePc.tracks]

theorem step_track {closed : Bool} (h : v.step closed localAddr e = some (v', eff)) {x : Side} (he : eff = .track x) :
    closed = false := by
  cases step_cases h with
  | trackMesh _ hc | trackLocal _ hc => exact hc
  | _ => cases he

end Serve

/-! ## The exporter -/

/-- The connections that a call of `Close` has yet to close. -/
def CloserPc.todo : CloserPc → List (Nat × Side)
  | .closing todo _ => todo
  | .returned _ => []

namespace Exporter

variable {s s' : Exporter α} {k : Nat} {v : Serve α} {e : ExportEv α}

/-- Where a connection is that the code of its goroutine tracks. -/
def HeldAt (s : Exporter α) (k : Nat) (v : Serve α) (x : Side) : Prop :=
  (k, x) ∈ s.conns ∨ (∃ c ∈ s.closers, (k, x) ∈ c.todo) ∨ (v.pair.conn x).closed = true

structure Taken (s : Exporter α) : Prop where
  gone : s.closed = true → s.conns = []
  held : ∀ k v, s.serves[k]? = some v → ∀ x, v.pc.tracks x = true → HeldAt s k v x
  unfinished : ∀ v ∈ s.serves, v.Unfinished

theorem Taken.start (localAddr : String) : Taken (start localAddr : Exporter α) where
  gone h := by cases h
  held k v h := by simp [Exporter.start] at h
  unfinished v h := by cases h

theorem mem_apply {eff : Effect} {c : Nat × Side} (h : c ∈ s.conns) (hne : ∀ x, eff = .untrack x → c ≠ (k, x)) :
    c ∈ (s.apply k eff).conns := by
  cases eff with
  | quiet | setErr => exact h
  | track x => exact List.mem_append_left _ h
  | untrack x => exact List.mem_filter.mpr ⟨h, decide_eq_true (hne x rfl)⟩

/-- A step of a goroutine. -/
theorem Taken.serve (h : Taken s) (hk : s.serves[k]? = some v) {se : ServeEv α} {v' : Serve α} {eff : Effect}
    (hv : v.step s.closed s.localAddr se = some (v', eff)) :
    Taken ({ s with serves := s.serves.set k v' }.apply k eff) where
  gone hc := by
    rw [apply_closed] at hc
    have hgone : s.conns = [] := h.gone hc
    cases eff with
    | quiet | setErr => exact hgone
    | track x => exact absurd (hc.symm.trans (Serve.step_track hv rfl)) (by decide)
    | untrack x =>
      show s.conns.filter _ = []
      rw [hgone]
      rfl
  held j w hj x ht := by
    unfold HeldAt
    rw [apply_serves] at hj
    rw [apply_closers]
    by_cases hjk : j = k
    · subst hjk
      obtain rfl : v' = w :=
        Option.some.inj ((List.getElem?_set_self (List.getElem?_eq_some_iff.mp hk).1).symm.trans hj)
      rcases Serve.step_held hv ht with rfl | hc | ⟨ht', hne, hc⟩
      · exact .inl (List.mem_append_right _ (List.mem_singleton.mpr rfl))
      · exact .inr (.inr hc)
      · rcases h.held j v hk x ht' with hm | hm | hm
        · exact .inl (mem_apply hm fun y hy he => hne (hy.trans (congrArg Effect.untrack (Prod.ext_iff.mp he).2.symm)))
        · exact .inr (.inl hm)
        · exact .inr (.inr (hc hm))
    · rw [List.getElem?_set_ne (Ne.symm hjk)] at hj
      rcases h.held j w hj x ht with hm | hm | hm
      · exact .inl (mem_apply hm fun y _ he => hjk (Prod.ext_iff.mp he).1)
      · exact .inr (.inl hm)
      · exact .inr (.inr hm)
  unfinished w hw := by
    rw [apply_serves] at hw
    rcases List.mem_or_eq_of_mem_set hw with hw | rfl
    · exact h.unfinished w hw
    · exact Serve.step_unfinished (h.unfinished v (List.mem_of_getElem? hk)) hv

theorem HeldAt.closer {x : Side} (h : HeldAt s k v x) {j n : Nat} {a b : CloserPc} (hj : s.closers[j]? = some a)
    (hb : (k, x) ∈ a.todo → (k, x) ∈ b.todo) :
    HeldAt { s with closers := s.closers.set j b, lnCloses := n } k v x := by
  rcases h with hm | ⟨c, hc, hm⟩ | hm
  · exact .inl hm
  · obtain ⟨i, hi⟩ := List.getElem?_of_mem hc
    by_cases hij : j = i
    · subst hij
      obtain rfl : a = c := Option.some.inj (hj.symm.trans hi)
      exact .inr (.inl ⟨b, List.mem_set (List.getElem?_eq_some_iff.mp hj).1 _, hb hm⟩)
    · exact .inr (.inl ⟨c, List.mem_of_getElem? ((List.getElem?_set_ne hij).trans hi), hm⟩)
  · exact .inr (.inr hm)

/-- A goroutine of an exporter that has closed the connection `c`. -/
theorem getElem?_kill {c : Nat × Side} {w : Serve α} (h : (s.kill c).serves[k]? = some w) :
    ∃ v, s.serves[k]? = some v ∧ w.pc = v.pc ∧ w.pair.pc = v.pair.pc ∧
      ∀ x, (k, x) = c ∨ (v.pair.conn x).closed = true → (w.pair.conn x).closed = true := by
  rw [Exporter.kill, List.getElem?_modify] at h
  obtain ⟨v, hv, rfl⟩ := Option.map_eq_some_iff.mp h
  refine ⟨v, hv, ?_, ?_, ?_⟩
  · split <;> rfl
  · split <;> rfl
  · split
    · rintro x (rfl | hx)
      · show ((v.pair.kill x).conn x).closed = true
        rw [Bridge.kill_closed, beq_self_eq_true, Bool.true_or]
      · exact Bridge.kill_keeps hx
    · rename_i hck
      rintro x (rfl | hx)
      · exact absurd rfl hck
      · exact hx

/-- One of the connections that a call of `Close` has to close is closed. -/
theorem Taken.closeConn (h : Taken s) {j : Nat} {c : Nat × Side} {todo : List (Nat × Side)}
    (hj : s.closers[j]? = some (.closing todo true)) :
    Taken ({ s with closers := s.closers.set j (.closing (todo.erase c) true) }.kill c) where
  gone := h.gone
  held k w hk x ht := by
    obtain ⟨v, hv, hpc, -, hconn⟩ := getElem?_kill hk
    rw [hpc] at ht
    by_cases hc : (k, x) = c
    · exact .inr (.inr (hconn x (.inl hc)))
    · have hrest : (k, x) ∈ CloserPc.todo (.closing todo true) →
          (k, x) ∈ CloserPc.todo (.closing (todo.erase c) true) := (List.mem_erase_of_ne hc).mpr
      rcases (h.held k v hv x ht).closer (n := s.lnCloses) hj hrest with hm | hm | hm
      · exact .inl hm
      · exact .inr (.inl hm)
      · exact .inr (.inr (hconn x (.inr hm)))
  unfinished w hw := by
    obtain ⟨k, hk⟩ := List.getElem?_of_mem hw
    obtain ⟨v, hv, hpc, hb, -⟩ := getElem?_kill hk
    have hu := h.unfinished v (List.mem_of_getElem? hv)
    unfold Serve.Unfinished at hu ⊢
    rw [hpc, hb]
    exact hu

theorem Taken.step (h : Taken s) (hs : s.step e = some s') : Taken s' := by
  cases step_cases hs with
  | accept =>
    refine ⟨h.gone, fun k v hk x ht => ?_, fun v hv => ?_⟩
    · rcases Nat.lt_or_ge k s.serves.length with hlt | hge
      · rw [List.getElem?_append_left hlt] at hk
        exact h.held k v hk x ht
      · rw [List.getElem?_append_right hge, List.getElem?_singleton] at hk
        split at hk <;> cases hk
        cases x <;> cases ht
    · rcases List.mem_append.mp hv with hv | hv
      · exact h.unfinished v hv
      · rw [List.mem_singleton.mp hv]
        simp [Serve.Unfinished, Bridge.new]
  | acceptErr | acceptEnd => exact ⟨h.gone, h.held, h.unfinished⟩
  | serve hk hv => exact h.serve hk hv
  | closeAgain =>
    refine ⟨h.gone, fun k v hk x ht => ?_, h.unfinished⟩
    rcases h.held k v hk x ht with hm | ⟨c, hc, hm⟩ | hm
    · exact .inl hm
    · exact .inr (.inl ⟨c, List.mem_append_left _ hc, hm⟩)
    · exact .inr (.inr hm)
  | close =>
    refine ⟨fun _ => rfl, fun k v hk x ht => ?_, h.unfinished⟩
    rcases h.held k v hk x ht with hm | ⟨c, hc, hm⟩ | hm
    · exact .inr (.inl ⟨_, List.mem_append_right _ (List.mem_singleton.mpr rfl), hm⟩)
    · exact .inr (.inl ⟨c, List.mem_append_left _ hc, hm⟩)
    · exact .inr (.inr hm)
  | closeLn hj => exact ⟨h.gone, fun k v hk x ht => (h.held k v hk x ht).closer hj id, h.unfinished⟩
  | closeEnd hj =>
    refine ⟨h.gone, fun k v hk x ht => (h.held k v hk x ht).closer hj ?_, h.unfinished⟩
    exact fun hm => absurd hm List.not_mem_nil
  | closeConn hj => exact h.closeConn hj

/-! ## After `Close` -/

/-- Some call of `Close` has closed everything and returned. -/
structure Over (s : Exporter α) : Prop where
  inv : Inv s
  taken : Taken s
  returned : .returned true ∈ s.closers

/-- No other call of `Close` is closing anything. -/
theorem Over.not_closing (h : Over s) {todo : List (Nat × Side)} {b : Bool} : .closing todo b ∉ s.closers := by
  intro hc
  have hone : s.closers.countP CloserPc.first ≤ 1 := by
    rw [h.inv.first]
    exact Bool.toNat_le _
  obtain ⟨i, hi⟩ := List.getElem?_of_mem h.returned
  obtain ⟨j, hj⟩ := List.getElem?_of_mem hc
  have hij : j ≠ i := by
    rintro rfl
    cases hi.symm.trans hj
  -- without the one that is closing there is still the one that has returned
  have hrest : .returned true ∈ s.closers.set j (.returned false) :=
    List.mem_of_getElem? ((List.getElem?_set_ne hij).trans hi)
  have hpos : 0 < (s.closers.set j (.returned false)).countP CloserPc.first :=
    List.countP_pos_iff.mpr ⟨_, hrest, rfl⟩
  have hset : (s.closers.set j (.returned false)).countP CloserPc.first + 1 = s.closers.countP CloserPc.first + 0 :=
    countP_set_add hj CloserPc.first
  omega

theorem Over.closed (h : Over s) : s.closed = true := by
  have hpos : 0 < s.closers.countP CloserPc.first := List.countP_pos_iff.mpr ⟨_, h.returned, rfl⟩
  rw [h.inv.first] at hpos
  cases hc : s.closed with
  | true => rfl
  | false =>
    rw [hc] at hpos
    cases hpos

/-- A connection that is tracked is closed. -/
theorem Over.conn_closed (h : Over s) (hk : s.serves[k]? = some v) {x : Side} (ht : v.pc.tracks x = true) :
    (v.pair.conn x).closed = true := by
  rcases h.taken.held k v hk x ht with hm | ⟨c, hc, hm⟩ | hm
  · rw [h.taken.gone h.closed] at hm
    cases hm
  · cases c with
    | closing todo b => exact absurd hc h.not_closing
    | returned b => cases hm
  · exact hm

theorem Over.step (h : Over s) (hs : s.step e = some s') : Over s' := by
  refine ⟨h.inv.step hs, h.taken.step hs, ?_⟩
  have hr := h.returned
  cases step_cases hs with
  | serve =>
    rw [apply_closers]
    exact hr
  | closeAgain | close => exact List.mem_append_left _ hr
  | closeLn hj | closeConn hj | closeEnd hj => exact absurd (List.mem_of_getElem? hj) h.not_closing
  | _ => exact hr

/-- The goroutine `k` has not returned. -/
def Serving (k : Nat) (s : Exporter α) : Prop := ∃ v, s.serves[k]? = some v ∧ v.pc ≠ .returned

/-- The step is none of the goroutine `k`. -/
def isOther (k : Nat) : ExportEv α → Bool
  | .serve j _ => decide (j ≠ k)
  | _ => true

def left (k : Nat) (s : Exporter α) : Nat := (s.serves[k]?).elim 0 Serve.left

theorem Over.falls (h : Over s) (hb : Serving k s) (hs : s.step e = some s') :
    left k s' + (if isOther k e then 0 else 1) ≤ left k s := by
  obtain ⟨v, hv, -⟩ := hb
  have hbridging : v.pc = .bridging → ∀ x, (v.pair.conn x).closed = true := by
    intro hpc x
    exact h.conn_closed hv (by rw [hpc]; cases x <;> rfl)
  have hleft : left k s = v.left := by rw [left, hv]; rfl
  cases ho : isOther k e with
  | false =>
    obtain ⟨se, rfl⟩ : ∃ se, e = .serve k se := by
      cases e with
      | serve j se =>
        obtain rfl : j = k := by simpa [isOther] using ho
        exact ⟨se, rfl⟩
      | _ => cases ho
    obtain ⟨w, v', eff, hw, hws, hv'⟩ := step_serve hs
    obtain rfl : w = v := Option.some.inj (hw.symm.trans hv)
    rw [h.closed] at hws
    have hlt := Serve.step_left hbridging hws
    rw [hleft, left, hv']
    exact hlt
  | true =>
    obtain ⟨v', hv', rfl | ⟨se, eff, rfl, -⟩ | ⟨-, x, rfl⟩⟩ := step_serves h.inv hs hv
    · rw [hleft, left, hv']
      exact Nat.le_refl _
    · simp [isOther] at ho
    · rw [hleft, left, hv']
      exact Nat.le_refl _

theorem Over.goes (h : Over s) (hb : Serving k s) : ∃ e s', isOther k e = false ∧ s.step e = some s' := by
  obtain ⟨v, hv, hpc⟩ := hb
  obtain ⟨se, v', eff, hs⟩ : ∃ se v' eff, v.step s.closed s.localAddr se = some (v', eff) :=
    Serve.exists_step (h.taken.unfinished v (List.mem_of_getElem? hv)) hpc
  exact ⟨.serve k se, _, by simp [isOther], by simp only [Exporter.step, hv, hs]; rfl⟩

/-- Once the call of `Close` that closed the exporter has returned, every
goroutine in `serve` unwinds: of its own steps it takes no more than 15, whatever
the others do, and until it has returned it can take one. -/
theorem serves_unwind (localAddr : String) (es : List (ExportEv α)) (s : Exporter α)
    (h : Run step (start localAddr) es s) (hr : .returned true ∈ s.closers) (k : Nat) :
    Leaves step (Serving k) (isOther k) 15 s := by
  have ho : Over s := ⟨inv_of_run h, h.inv (fun _ _ _ hi hs => hi.step hs) (.start localAddr), hr⟩
  have hleaves : Leaves step (Serving k) (isOther k) (left k s) s := by
    refine leaves (I := Over) ?_ ?_ ho
    · exact fun t e t' hi hb hs => ⟨hi.step hs, hi.falls hb hs⟩
    · exact fun t hi hb => hi.goes hb
  refine hleaves.mono ?_
  unfold left
  cases s.serves[k]? with
  | none => exact Nat.zero_le _
  | some v => exact v.left_le

/-- `Close` returns while one connection is served and another is not tracked yet. -/
def closedServing : List (ExportEv Nat) :=
  [.accept, .serve 0 .track, .serve 0 (.dial none), .serve 0 .track, .serve 0 (.bridge (.read .up [7])), .close,
    .accept, .closeLn 0, .closeConn 0 (0, .mesh), .closeConn 0 (0, .localEnd), .closeEnd 0]

/-- What the second goroutine does then. -/
def lateUnwinds : List (ExportEv Nat) :=
  [.serve 1 .track, .serve 1 .turn, .serve 1 (.dial none), .serve 1 .track, .serve 1 .turn] ++ bridgeEnds 1 ++
    [.serve 1 .untrack, .serve 1 .untrack]

theorem serves_unwind_late :
    ∃ s t, Run step (start "127.0.0.1:8080") closedServing s ∧ Run step s lateUnwinds t ∧
      s.serves.map (·.pc) = [.bridging, .start] ∧ t.serves.map (·.pc) = [.bridging, .returned] ∧
      Leaves step (Serving 0) (isOther 0) 15 s ∧ Leaves step (Serving 1) (isOther 1) 15 s := by
  have hrun : ∃ s t, Run step (start "127.0.0.1:8080") closedServing s ∧ Run step s lateUnwinds t ∧
      s.serves.map (·.pc) = [.bridging, .start] ∧ t.serves.map (·.pc) = [.bridging, .returned] ∧
      s.closers = [.returned true] := ⟨_, _, rfl, rfl, rfl, rfl, rfl⟩
  obtain ⟨s, t, hs, ht, hpc, hpc', hcl⟩ := hrun
  have hr : .returned true ∈ s.closers := by
    rw [hcl]
    exact List.mem_singleton.mpr rfl
  exact ⟨s, t, hs, ht, hpc, hpc', serves_unwind "127.0.0.1:8080" closedServing s hs hr 0,
    serves_unwind "127.0.0.1:8080" closedServing s hs hr 1⟩

end Exporter

end ErplTunnel.Shim

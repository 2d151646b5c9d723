import ErplTunnel.Framework.Leaving
import ErplTunnel.Pump.Duplex

/-!
# A pump whose flag is down

Each of the three pumps looks at the tunnel's flag at the head of its loop and
at the heads of the loops in which it writes. Once it is down, every call brings
the pump nearer to its end (`left`), and there is always one to make, so it
closes what it was handed and returns (`pumps_stop`).
-/

namespace ErplTunnel.Pump

open Relay Lts

/-- What `Close()` does to the flag is no step of the pump. -/
def Ev.isShutdown : Ev → Bool
  | .shutdown => true
  | _ => false

theorem Ev.isShutdown_eq_false {e : Ev} (h : e ≠ .shutdown) : e.isShutdown = false := by
  cases e <;> first | rfl | exact absurd rfl h

/-- A step with the flag down brings a pump nearer to its end, and a pump that
has not returned can go on. -/
structure Stops {Pc : Type} (step : St Pc → Ev → Option (St Pc)) (done : Pc) (left : Pc → Nat) : Prop where
  falls : ∀ p e p', step p e = some p' → e ≠ .shutdown → p.running = false → left p'.pc < left p.pc
  goes : ∀ p, p.pc ≠ done → ∃ e p', e ≠ .shutdown ∧ step p e = some p'
  move : ∀ p e p', step p e = some p' → p.Move e p'
  shutdown : ∀ p, step p .shutdown = some p.shutdown

theorem Stops.leaves {Pc : Type} {step : St Pc → Ev → Option (St Pc)} {done : Pc} {left : Pc → Nat}
    (h : Stops step done left) {p : St Pc} (hr : p.running = false) :
    Leaves step (fun p => p.pc ≠ done) Ev.isShutdown (left p.pc) p := by
  refine Lts.leaves (I := fun p : St Pc => p.running = false) (μ := fun p => left p.pc) ?_ ?_ hr
  · intro p e p' hr _ hs
    have hr' : p'.running = false := (h.move p e p' hs).running_eq_false.mpr (.inl hr)
    refine ⟨hr', ?_⟩
    by_cases he : e = .shutdown
    · subst he
      rw [h.shutdown] at hs
      cases hs
      exact Nat.le_refl _
    · have hlt := h.falls p e p' hs he hr
      rw [Ev.isShutdown_eq_false he, if_neg Bool.false_ne_true]
      omega
  · intro p _ hd
    obtain ⟨e, p', he, hs⟩ := h.goes p hd
    exact ⟨e, p', Ev.isShutdown_eq_false he, hs⟩

/-- The calls that `SendAll` makes yet, with `sent` of `n` bytes out, and its
caller after it: `stop` when it returns false, and `all` when it returns true. -/
def sendLeft (stop all n sent : Nat) : SendPc → Nat
  | .test => if sent < n then stop + 1 else all + 1
  | .wait => if sent < n then stop + 2 else all + 2
  | .send => all + 3

theorem sendLeft_le {stop all : Nat} (h : stop ≤ all) (n sent : Nat) (q : SendPc) :
    sendLeft stop all n sent q ≤ all + 3 := by
  cases q with
  | test | wait =>
    simp only [sendLeft]
    split <;> omega
  | send => exact Nat.le_refl _

/-- With the flag down, `SendAll` returns true only when it has sent everything
already. -/
theorem SendStep.left_lt {Pc : Type} {inCall : SendPc → Nat → Pc} {ret : Bool → Pc} {d : Dir} {n sent : Nat}
    {q : SendPc} {p p' : St Pc} {e : Ev} {left : Pc → Nat} {stop all : Nat}
    (h : SendStep inCall ret d n p q sent e p') (hr : p.running = false)
    (hin : ∀ q k, left (inCall q k) = sendLeft stop all n k q) (hstop : left (ret false) ≤ stop)
    (hall : left (ret true) ≤ all) (hle : stop ≤ all) : left p'.pc < sendLeft stop all n sent q := by
  cases h with
  | more hlt hr' => exact absurd (hr.symm.trans hr') (by decide)
  | stop hlt =>
    show left (ret false) < _
    rw [sendLeft, if_pos hlt]
    omega
  | all hge =>
    show left (ret true) < _
    rw [sendLeft, if_neg (Nat.not_lt.mpr hge)]
    omega
  | accept =>
    show left (inCall _ _) < all + 3
    simp only [hin, sendLeft]
    split <;> omega
  | fail =>
    show left (ret false) < all + 3
    omega
  | block =>
    show left (inCall _ _) < all + 3
    simp only [hin, sendLeft]
    split <;> omega
  | wake =>
    show left (inCall _ _) < _
    simp only [hin, sendLeft]
    split <;> omega

/-- `SendAll` can always go on. -/
theorem exists_sendAll {Pc : Type} (inCall : SendPc → Nat → Pc) (ret : Bool → Pc) (d : Dir) (n : Nat) (q : SendPc)
    (sent : Nat) (p : St Pc) : ∃ e p', e ≠ .shutdown ∧ sendAll inCall ret d n q sent p e = some p' := by
  cases q with
  | test =>
    by_cases hlt : sent < n
    · cases hr : p.running with
      | true => exact ⟨.test, p.goto (inCall .send sent), by simp, by simp [sendAll, hlt, hr]⟩
      | false => exact ⟨.test, p.goto (ret false), by simp, by simp [sendAll, hlt, hr]⟩
    · exact ⟨.test, p.goto (ret true), by simp, by simp [sendAll, hlt]⟩
  | send => exact ⟨.write d .error, p.goto (ret false), by simp, by simp [sendAll]⟩
  | wait => exact ⟨.pause, p.goto (inCall .test sent), by simp, rfl⟩

namespace MeshForwarder

/-- The calls that the pump makes yet, at most. -/
def left : Pc → Nat
  | .done => 0
  | .closeMesh => 1
  | .closeClient => 2
  | .head | .shutdownWrite _ => 3
  | .recv _ _ => 4
  | .select => 5
  | .sendAll _ _ n q sent => sendLeft 2 4 n sent q

theorem left_le (pc : Pc) : left pc ≤ 7 := by
  cases pc with
  | sendAll d m n q sent => exact sendLeft_le (by decide) n sent q
  | _ => simp [left]

theorem Step.left_lt {p p' : St Pc} {e : Ev} (h : Step p e p') (he : e ≠ .shutdown) (hr : p.running = false) :
    left p'.pc < left p.pc := by
  cases h with
  | shutdown => exact absurd rfl he
  | enter hpc hr' => exact absurd (hr.symm.trans hr') (by decide)
  | @mesh m hpc => cases m <;> simp [hpc, left, next, St.goto]
  | chunk hpc hb hne => simp [hpc, left, sendLeft, List.length_pos_iff.mpr hne, St.take]
  | @send d m n sent q e p' hpc hs =>
    rw [hpc]
    exact hs.left_lt hr (fun _ _ => rfl) (Nat.le_refl 2) (by cases m <;> decide) (by decide)
  | _ hpc => simp [hpc, left, St.goto]

theorem stops : Stops step .done left where
  move := step_move
  shutdown p := by simp [step]
  falls p e p' h he hr := (step_cases h).left_lt he hr
  goes p hd := by
    cases hpc : p.pc with
    | head => exact ⟨.test, _, by simp, by simp only [step, hpc]; rfl⟩
    | select => exact ⟨.select .timeout, p.goto .head, by simp, by simp [step, hpc]⟩
    | recv d m => exact ⟨.read d .error, p.goto .closeClient, by simp, by simp [step, hpc]⟩
    | sendAll d m n q sent =>
      obtain ⟨e, p', he, hs⟩ :=
        exists_sendAll (.sendAll d m n) (fun ok => if ok then next m else .closeClient) d n q sent p
      exact ⟨e, p', he, (step_sendAll hpc he).trans hs⟩
    | shutdownWrite d => exact ⟨.call, p.goto .closeClient, by simp, by simp [step, hpc]⟩
    | closeClient => exact ⟨.call, p.goto .closeMesh, by simp, by simp [step, hpc]⟩
    | closeMesh => exact ⟨.call, p.goto .done, by simp, by simp [step, hpc]⟩
    | done => exact absurd hpc hd

end MeshForwarder

namespace SshExporter

/-- The calls that the pump makes yet, at most. -/
def left : Pc → Nat
  | .done => 0
  | .channelFree => 1
  | .channelClose => 2
  | .closeLocal => 3
  | .head | .sendEof | .shutdownWrite => 4
  | .sleep | .fits => 5
  | .dial => 6
  | .eof idle => if idle then 6 else 5
  | .read idle => if idle then 7 else 6
  | .writeTest _ _ => 7
  | .recv | .writeSleep _ _ => 8
  | .select | .write _ _ => 9
  | .sendAll n q sent => sendLeft 3 4 n sent q

theorem left_le (pc : Pc) : left pc ≤ 9 := by
  cases pc with
  | sendAll n q sent => exact Nat.le_trans (sendLeft_le (by decide) n sent q) (by decide)
  | eof idle | read idle => cases idle <;> simp [left]
  | _ => simp [left]

theorem Step.left_lt {p p' : St Pc} {e : Ev} (h : Step p e p') (he : e ≠ .shutdown) (hr : p.running = false) :
    left p'.pc < left p.pc := by
  cases h with
  | shutdown => exact absurd rfl he
  | enter hpc hr' => exact absurd (hr.symm.trans hr') (by decide)
  | writeMore hpc hlt hr' => exact absurd (hr.symm.trans hr') (by decide)
  | @dial b hpc | @fits b hpc | @channelNone b hpc | @channelAgain b hpc
  | @channelError b hpc | @channelDone b hpc | @channelOpen b hpc =>
    cases b <;> simp [hpc, left, next, St.goto]
  | @send n sent q e p' hpc hs =>
    rw [hpc]
    exact hs.left_lt hr (fun _ _ => rfl) (by decide) (by decide) (by decide)
  | @channelChunk b bs hpc hb hne =>
    cases b <;> simp [hpc, left, sendLeft, List.length_pos_iff.mpr hne, St.take]
  | _ hpc => simp [hpc, left, St.goto, St.take, St.give]

theorem stops : Stops step .done left where
  move := step_move
  shutdown p := by simp [step]
  falls p e p' h he hr := (step_cases h).left_lt he hr
  goes p hd := by
    cases hpc : p.pc with
    | dial | fits => exact ⟨.answer false, _, by simp, by simp only [step, hpc]; rfl⟩
    | head => exact ⟨.test, _, by simp, by simp only [step, hpc]; rfl⟩
    | select => exact ⟨.select .timeout, p.goto (.read true), by simp, by simp [step, hpc]⟩
    | recv => exact ⟨.read .up .error, p.goto .closeLocal, by simp, by simp [step, hpc]⟩
    | writeTest n off => exact ⟨.test, _, by simp, by simp only [step, hpc]; rfl⟩
    | write n off => exact ⟨.write .up .error, p.goto .closeLocal, by simp, by simp [step, hpc]⟩
    | writeSleep n off => exact ⟨.pause, p.goto (.writeTest n off), by simp, by simp [step, hpc]⟩
    | read idle => exact ⟨.read .down .error, p.goto .closeLocal, by simp, by simp [step, hpc]⟩
    | eof idle => exact ⟨.eof true, p.goto .shutdownWrite, by simp, by simp [step, hpc]⟩
    | sendAll n q sent =>
      obtain ⟨e, p', he, hs⟩ :=
        exists_sendAll (.sendAll n) (fun ok => if ok then .head else .closeLocal) .down n q sent p
      exact ⟨e, p', he, (step_sendAll hpc he).trans hs⟩
    | sleep => exact ⟨.pause, p.goto .head, by simp, by simp [step, hpc]⟩
    | sendEof | shutdownWrite => exact ⟨.call, p.goto .closeLocal, by simp, by simp [step, hpc]⟩
    | closeLocal => exact ⟨.call, p.goto .channelClose, by simp, by simp [step, hpc]⟩
    | channelClose => exact ⟨.call, p.goto .channelFree, by simp, by simp [step, hpc]⟩
    | channelFree => exact ⟨.call, p.goto .done, by simp, by simp [step, hpc]⟩
    | done => exact absurd hpc hd

end SshExporter

namespace ForwardData

/-- The calls that the pump makes yet, at most. -/
def left : Pc → Nat
  | .done => 0
  | .channelFree => 1
  | .closeClient => 2
  | .head => 3
  | .sendTest _ _ | .eof => 4
  | .send _ _ | .read => 5
  | .writeTest _ _ => 6
  | .write _ _ | .recv => 7
  | .select => 8

theorem left_le (pc : Pc) : left pc ≤ 8 := by
  unfold left
  split <;> decide

theorem Step.left_lt {p p' : St Pc} {e : Ev} (h : Step p e p') (he : e ≠ .shutdown) (hr : p.running = false) :
    left p'.pc < left p.pc := by
  cases h with
  | shutdown => exact absurd rfl he
  | enter hpc hr' => exact absurd (hr.symm.trans hr') (by decide)
  | writeMore hpc hlt hr' | sendMore hpc hlt hr' => exact absurd (hr.symm.trans hr') (by decide)
  | _ hpc => simp [hpc, left, St.goto, St.take, St.give]

theorem stops : Stops step .done left where
  move := step_move
  shutdown p := by simp [step]
  falls p e p' h he hr := (step_cases h).left_lt he hr
  goes p hd := by
    cases hpc : p.pc with
    | head => exact ⟨.test, _, by simp, by simp only [step, hpc]; rfl⟩
    | select => exact ⟨.select .timeout, p.goto .read, by simp, by simp [step, hpc]⟩
    | recv => exact ⟨.read .up .error, p.goto .closeClient, by simp, by simp [step, hpc]⟩
    | writeTest n w | sendTest n w => exact ⟨.test, _, by simp, by simp only [step, hpc]; rfl⟩
    | write n w => exact ⟨.write .up .error, p.goto .closeClient, by simp, by simp [step, hpc]⟩
    | read => exact ⟨.read .down .error, p.goto .closeClient, by simp, by simp [step, hpc]⟩
    | eof => exact ⟨.eof true, p.goto .closeClient, by simp, by simp [step, hpc]⟩
    | send n w => exact ⟨.write .down .error, p.goto .closeClient, by simp, by simp [step, hpc]⟩
    | closeClient => exact ⟨.call, p.goto .channelFree, by simp, by simp [step, hpc]⟩
    | channelFree => exact ⟨.call, p.goto .done, by simp, by simp [step, hpc]⟩
    | done => exact absurd hpc hd

end ForwardData

end ErplTunnel.Pump

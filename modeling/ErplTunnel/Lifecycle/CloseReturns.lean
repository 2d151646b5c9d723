import ErplTunnel.Lifecycle.Active
import ErplTunnel.Lifecycle.Reaping
import ErplTunnel.Pump.Stopping

/-!
# Close returns

`Close` takes the flag down and joins the accept loop and the workers, which may
stand anywhere. Each of them looks at the flag before long (`pumps_stop`), so
while the owner is in `Close` every step of any thread makes the work left
smaller, even when the accept loop has a client yet and starts one more worker;
and some thread can always make a step. So it returns, in any order of steps,
and the bound is linear in the number of clients there have been.
-/

namespace ErplTunnel.Lifecycle

open Relay Pump Pool Lts

namespace MeshForwarder

open Pump.MeshForwarder (Pc)

variable {s s' : State}

/-- The owner is in `Close`. -/
def State.InClose (s : State) : Prop := ∃ pc destroy, s.main = .close pc destroy

/-- The steps of the owner yet, with so many workers in the list. -/
def Main.left (workers : Nat) : Main → Nat
  | .close .joinAccept _ => 3 + workers
  | .close (.joinWorkers rest) _ => 2 + rest.length
  | .close .closeListen _ => 1
  | _ => 0

theorem Main.left_closed (workers : Nat) (destroy : Bool) :
    Main.left workers (if destroy then .destroyed else .idle .closed) = 0 := by
  cases destroy <;> rfl

/-- The steps of the accept loop yet, and of a worker that it starts. -/
def Accept.left : Accept → Nat
  | .unstarted | .done | .joined => 0
  | .test | .check => 1
  | .accept => 2
  | .select => 3
  | .spawn => 6
  | .dial => 7

/-- The steps of the pumps yet. -/
def State.pumpsLeft (s : State) : Nat := total (fun p => Pump.MeshForwarder.left p.pc) s.clients

def State.left (s : State) : Nat := s.main.left s.workers.length + s.accept.left + s.pumpsLeft

theorem acceptStep_left {e : AcceptEv} (h : s.acceptStep e = some s') (hr : s.running = false) :
    s'.main = s.main ∧ s'.accept.left + s'.workers.length + s'.pumpsLeft <
      s.accept.left + s.workers.length + s.pumpsLeft := by
  unfold State.acceptStep at h
  split at h
  · rename_i ha
    cases h
    simp [ha, hr, Accept.left, State.pumpsLeft]
  · rename_i ready ha
    cases h
    cases ready <;> simp [ha, Accept.left, State.pumpsLeft, State.does]
  · rename_i valid ha
    cases valid <;> cases h <;> simp [ha, Accept.left, State.pumpsLeft, State.does]
  · rename_i ha
    rw [hr] at h
    cases h
    simp [ha, Accept.left, State.pumpsLeft, State.does, State.refuse]
  · rename_i ok ha
    cases ok <;> cases h <;> simp [ha, Accept.left, State.pumpsLeft, State.does, State.refuse]
  · rename_i buf ha
    cases h
    simp [ha, Accept.left, State.pumpsLeft, State.does, Pump.MeshForwarder.left, Pump.MeshForwarder.start, St.start]
    omega
  · cases h

/-- The workers that the owner has to join yet. -/
def State.toJoin (s : State) : List Nat :=
  match s.main with
  | .close (.joinWorkers rest) _ => rest
  | _ => s.workers

theorem State.toJoin_of_serving (h : s.main.serving = true) : s.toJoin = s.workers := by
  unfold toJoin
  split
  · rename_i hm; rw [hm] at h; cases h
  · rfl

theorem Step.toJoin {x : In} (h : Step s x s') (hp : s.Phase) (he : Enlisted s.clients s.toJoin) :
    Enlisted s'.clients s'.toJoin := by
  cases h with
  | accept h =>
    have hs := (hp.active h.active).1
    rw [State.toJoin_of_serving hs] at he
    rw [State.toJoin_of_serving (h.frame.1 ▸ hs)]
    exact h.enlisted he
  | pump hc => exact he.set hc
  | joinAccept hm | noAccept hm => rw [State.toJoin, hm] at he; exact he
  | joinWorker hm hc =>
    rw [State.toJoin, hm] at he
    exact (he.sublist (List.sublist_cons_self ..)).set hc
  | notJoinable hm => rw [State.toJoin, hm] at he; exact he.sublist (List.sublist_cons_self ..)
  | clear => exact .nil
  | @closeListen d hm | @noListen d hm => rw [State.toJoin, hm] at he; cases d <;> exact he
  | @probe ok hm => rw [State.toJoin, hm] at he; cases ok <;> exact he
  | throws hm => rcases hm with hm | hm | hm <;> rw [State.toJoin, hm] at he <;> exact he
  | broken hm => rcases hm with hm | hm <;> rw [State.toJoin, hm] at he <;> exact he
  | noProbe => exact he
  | _ hm => rw [State.toJoin, hm] at he; exact he

structure Closing (s : State) : Prop where
  live : Live s
  phase : s.Phase
  toJoin : Enlisted s.clients s.toJoin

theorem Closing.step {x : In} (h : Closing s) (hs : s.step x = some s') : Closing s' where
  live := h.live.step hs
  phase := (step_cases hs).phase h.phase
  toJoin := (step_cases hs).toJoin h.phase h.toJoin

/-- In `Close` every step of any thread comes nearer to its end. -/
theorem Closing.falls {x : In} (hc : Closing s) (hb : s.InClose) (hs : s.step x = some s') : s'.left < s.left := by
  obtain ⟨pc, destroy, hm⟩ := hb
  have hr : s.running = false := hc.live.down (by rw [hm]; rfl)
  have hst := step_cases hs
  cases hst with
  | accept ha =>
    -- the accept loop runs, so the owner has come to its join
    obtain ⟨hserve, -⟩ := hc.phase.active ha.active
    obtain ⟨hmain, hlt⟩ := acceptStep_left hs hr
    rw [hm] at hserve
    obtain rfl : pc = .joinAccept := by cases pc <;> first | rfl | cases hserve
    simp only [State.left, hmain, hm, Main.left]
    omega
  | pump hi he hp =>
    have hlt := total_step (w := fun p => Pump.MeshForwarder.left p.pc) hi (hp.left_lt he hr)
    simp only [State.left, State.pumpsLeft, State.does, hm] at hlt ⊢
    omega
  | joinAccept hm' ha =>
    obtain ⟨rfl, rfl⟩ : pc = .joinAccept ∧ destroy = _ := by simpa using hm.symm.trans hm'
    simp only [State.left, State.pumpsLeft, State.does, hm, ha, Main.left, Accept.left]
    omega
  | noAccept hm' =>
    simp only [State.left, State.pumpsLeft, hm', Main.left]
    omega
  | joinWorker hm' hi =>
    simp only [State.left, State.pumpsLeft, State.does, hm', Main.left, total_join hi, List.length_cons]
    omega
  | notJoinable hm' =>
    simp only [State.left, State.pumpsLeft, hm', Main.left, List.length_cons]
    omega
  | clear hm' =>
    simp only [State.left, State.pumpsLeft, hm', Main.left, List.length_nil]
    omega
  | @closeListen d hm' | @noListen d hm' =>
    show Main.left s.workers.length (if d then .destroyed else .idle .closed) + s.accept.left + s.pumpsLeft < s.left
    rw [Main.left_closed, State.left, hm', Main.left]
    omega
  | throws hm' => rcases hm' with hm' | hm' | hm' <;> rw [hm] at hm' <;> cases hm'
  | broken hm' => rcases hm' with hm' | hm' <;> rw [hm] at hm' <;> cases hm'
  | _ hm' => rw [hm] at hm'; cases hm'

/-- An accept loop that has not ended can make a step. -/
theorem exists_acceptStep (ha : s.accept.active = true) : ∃ e s', s.acceptStep e = some s' := by
  cases hs : s.accept with
  | unstarted | done | joined => rw [hs] at ha; cases ha
  | test => exact ⟨.test, _, by simp only [State.acceptStep, hs]; rfl⟩
  | select => exact ⟨.select false, _, by simp only [State.acceptStep, hs]; rfl⟩
  | accept => exact ⟨.accept false, _, by simp only [State.acceptStep, hs]; rfl⟩
  | check =>
    cases hr : s.running with
    | true => exact ⟨.test, _, by simp only [State.acceptStep, hs, hr]; rfl⟩
    | false => exact ⟨.test, _, by simp only [State.acceptStep, hs, hr]; rfl⟩
  | dial => exact ⟨.dial false, _, by simp only [State.acceptStep, hs]; rfl⟩
  | spawn => exact ⟨.spawn (.const 0), _, by simp only [State.acceptStep, hs]; rfl⟩

/-- A worker that has not returned can make a step. -/
theorem exists_pumpStep {i : Nat} {p : St Pc} {joinable : Bool} (hi : s.clients[i]? = some (.thread p joinable))
    (hd : p.pc ≠ .done) : ∃ e s', s.pumpStep i e = some s' := by
  obtain ⟨e, p', he, hp⟩ := Pump.MeshForwarder.stops.goes { p with running := s.running } hd
  exact ⟨e, _, by simp only [State.pumpStep, hi]; simp [he, hp]; rfl⟩

/-- In `Close` some thread can make a step. -/
theorem Closing.goes (hc : Closing s) (hb : s.InClose) : ∃ x s', s.step x = some s' := by
  obtain ⟨pc, destroy, hm⟩ := hb
  have owner (h : ∃ s', s.closeStep destroy pc = some s') : ∃ x s', s.step x = some s' := by
    obtain ⟨s', h⟩ := h
    exact ⟨.closeStep, s', by simp only [State.step, hm]; exact h⟩
  have hlist := hc.toJoin
  cases pc with
  | joinAccept =>
    cases ha : s.accept.active with
    | true =>
      obtain ⟨e, s', he⟩ := exists_acceptStep ha
      exact ⟨.accept e, s', he⟩
    | false =>
      refine owner ?_
      unfold State.closeStep
      cases hs : s.accept <;> simp [hs, Accept.active] at ha ⊢
  | joinWorkers rest =>
    rw [State.toJoin, hm] at hlist
    cases rest with
    | nil => exact owner ⟨_, rfl⟩
    | cons i rest =>
      obtain ⟨p, joinable, hi⟩ := hlist.head
      by_cases hd : p.pc = .done
      · refine owner ?_
        cases joinable <;> simp [State.closeStep, hi, hd]
      · obtain ⟨e, s', he⟩ := exists_pumpStep hi hd
        exact ⟨.pump i e, s', he⟩
  | closeListen =>
    refine owner ?_
    cases hl : s.listenSock <;> simp [State.closeStep, hl]

theorem Closing.left_le (hc : Closing s) (hb : s.InClose) : s.left ≤ 8 * s.clients.length + 10 := by
  obtain ⟨pc, destroy, hm⟩ := hb
  have hmain : s.main.left s.workers.length ≤ 3 + s.clients.length := by
    have hlen := hc.toJoin.length_le
    rw [State.toJoin, hm] at hlen
    rw [hm]
    cases pc <;> simp only [Main.left] at hlen ⊢ <;> omega
  have haccept : s.accept.left ≤ 7 := by cases s.accept <;> decide
  have hpumps : s.pumpsLeft ≤ 7 * s.clients.length := total_le fun p => Pump.MeshForwarder.left_le p.pc
  unfold State.left
  omega

end MeshForwarder

namespace TunnelConnection

open Pump.ForwardData (Pc)

variable {s s' : State}

/-- The owner is in `Close`. -/
def State.InClose (s : State) : Prop := ∃ pc destroy, s.main = .close pc destroy

/-- The steps of the owner yet, with so many forwarders in the list. -/
def Main.left (forwarders : Nat) : Main → Nat
  | .close .shutdownWrite _ => 5 + forwarders
  | .close .joinWorker _ => 4 + forwarders
  | .close (.joinForwarders rest) _ => 3 + rest.length
  | .close .freeSession _ => 2
  | .close .closeSocket _ => 1
  | _ => 0

theorem Main.left_closed (forwarders : Nat) (destroy : Bool) :
    Main.left forwarders (if destroy then .destroyed else .idle .closed) = 0 := by
  cases destroy <;> rfl

/-- The steps of the worker yet, and of a forwarder that it starts. -/
def Worker.left : Worker → Nat
  | .unstarted | .done | .joined => 0
  | .closeListen => 1
  | .test | .check => 2
  | .listen | .accept => 3
  | .bind | .select => 4
  | .socket => 5
  | .spawn => 7
  | .channel => 8

/-- The steps of the forwarders yet. -/
def State.pumpsLeft (s : State) : Nat := total (fun p => ForwardData.left p.pc) s.clients

def State.left (s : State) : Nat := s.main.left s.forwardThreads.length + s.worker.left + s.pumpsLeft

theorem workerStep_left {e : WorkerEv} (h : s.workerStep e = some s') (hr : s.isRunning = false) :
    s'.worker.left + s'.forwardThreads.length + s'.pumpsLeft <
      s.worker.left + s.forwardThreads.length + s.pumpsLeft := by
  unfold State.workerStep at h
  split at h
  case h_1 ok hw | h_2 ok hw | h_3 ok hw =>
    cases ok <;> cases h <;> simp [hw, Worker.left, State.pumpsLeft, State.log]
  case h_4 hw =>
    rw [hr] at h
    cases h
    simp [hw, Worker.left, State.pumpsLeft]
  case h_11 hw =>
    rw [hr] at h
    cases h
    simp [hw, Worker.left, State.pumpsLeft, State.refuse, State.log]
  case h_12 ok hw =>
    cases ok <;> cases h <;> simp [hw, Worker.left, State.pumpsLeft, State.refuse, State.log]
  case h_13 buffer hw =>
    cases h
    simp [hw, Worker.left, State.pumpsLeft, ForwardData.left, ForwardData.start, St.start]
    omega
  case h_15 => cases h
  all_goals
    rename_i hw
    cases h
    simp [hw, Worker.left, State.pumpsLeft, State.log]

/-- The forwarders that the owner has to join yet. -/
def State.toJoin (s : State) : List Nat :=
  match s.main with
  | .close (.joinForwarders rest) _ => rest
  | _ => s.forwardThreads

/-- While the worker runs the owner has not come to the forwarders. -/
theorem Inv.toJoin_of_active (hi : Inv s) (ha : s.worker.active = true) :
    s.toJoin = s.forwardThreads ∧
      ∀ pc destroy, s.main = .close pc destroy → pc = .shutdownWrite ∨ pc = .joinWorker := by
  rcases (hi.phase.busy hi.joined (.inl ha)).2 with hm | ⟨d, hm | hm⟩ | ⟨hst, -⟩
  · refine ⟨by rw [State.toJoin, hm], fun pc d hm' => ?_⟩
    rw [hm] at hm'
    cases hm'
  · refine ⟨by rw [State.toJoin, hm], fun pc d hm' => ?_⟩
    rw [hm] at hm'
    cases hm'
    exact .inl rfl
  · refine ⟨by rw [State.toJoin, hm], fun pc d hm' => ?_⟩
    rw [hm] at hm'
    cases hm'
    exact .inr rfl
  · exact absurd (ha.symm.trans hst.not_active) (by decide)

theorem toJoin_nextAddr (k n : Nat) : (s.nextAddr k n).toJoin = s.forwardThreads := by
  unfold State.nextAddr State.toJoin
  split
  · rename_i h
    split at h <;> cases h
  · rfl

theorem Step.toJoin {x : In} (h : Step s x s') (hi : Inv s) (he : Enlisted s.clients s.toJoin) :
    Enlisted s'.clients s'.toJoin := by
  cases h with
  | worker h =>
    rw [(hi.toJoin_of_active h.active).1] at he
    have hmain : s'.toJoin = s'.forwardThreads := by
      have hj := (hi.toJoin_of_active h.active).2
      unfold State.toJoin
      split
      · rename_i hm
        rw [h.frame.1] at hm
        rcases hj _ _ hm with hm | hm <;> cases hm
      · rfl
    rw [hmain]
    exact h.enlisted he
  | forwarder hc => exact he.set hc
  | joinWorker hm | noWorker hm => rw [State.toJoin, hm] at he; exact he
  | joinForwarder hm hc =>
    rw [State.toJoin, hm] at he
    exact (he.sublist (List.sublist_cons_self ..)).set hc
  | notJoinable hm => rw [State.toJoin, hm] at he; exact he.sublist (List.sublist_cons_self ..)
  | clear => exact .nil
  | noSocket hm => rw [State.toJoin, hm] at he; rw [toJoin_nextAddr]; exact he
  | refused hm => rw [State.toJoin, hm] at he; rw [toJoin_nextAddr]; exact he
  | @connect ok hm | @authenticate ok hm | @closeSocket ok hm => rw [State.toJoin, hm] at he; cases ok <;> exact he
  | @resolve n hm =>
    rw [State.toJoin, hm] at he
    by_cases hn : 0 < n <;> simpa [State.toJoin, hn] using he
  | probe hm => exact he
  | _ hm => rw [State.toJoin, hm] at he; exact he

structure Closing (s : State) : Prop where
  inv : Inv s
  flagged : Flagged s
  toJoin : Enlisted s.clients s.toJoin

theorem Closing.step {x : In} (h : Closing s) (hs : Step s x s') : Closing s' where
  inv := h.inv.step hs
  flagged := hs.flagged h.flagged
  toJoin := hs.toJoin h.inv h.toJoin

/-- In `Close` every step of any thread comes nearer to its end. -/
theorem Closing.falls {x : In} (hc : Closing s) (hb : s.InClose) (hs : s.step x = some s') : s'.left < s.left := by
  obtain ⟨pc, destroy, hm⟩ := hb
  have hr : s.isRunning = false := hc.flagged.down (by rw [hm]; exact Main.noConfusion)
  have hst := step_cases hs
  cases hst with
  | worker hw =>
    have hlt := workerStep_left hs hr
    obtain ⟨hmain, -⟩ := hw.frame
    rcases (hc.inv.toJoin_of_active hw.active).2 pc destroy hm with rfl | rfl
    · simp only [State.left, hmain, hm, Main.left]
      omega
    · simp only [State.left, hmain, hm, Main.left]
      omega
  | forwarder hi he hp =>
    have hlt := total_step (w := fun p => ForwardData.left p.pc) hi (hp.left_lt he hr)
    simp only [State.left, State.pumpsLeft, State.log, hm] at hlt ⊢
    omega
  | shutdownWrite hm' | noWorker hm' | freeSession hm' | nothingToFree hm' =>
    simp only [State.left, State.pumpsLeft, State.log, hm', Main.left]
    omega
  | joinWorker hm' hw =>
    simp only [State.left, State.pumpsLeft, State.log, hm', hw, Main.left, Worker.left]
    omega
  | joinForwarder hm' hi =>
    simp only [State.left, State.pumpsLeft, State.log, hm', Main.left, total_join hi, List.length_cons]
    omega
  | notJoinable hm' =>
    simp only [State.left, State.pumpsLeft, hm', Main.left, List.length_cons]
    omega
  | clear hm' =>
    simp only [State.left, State.pumpsLeft, hm', Main.left, List.length_nil]
    omega
  | @closeSocket d hm' =>
    show Main.left s.forwardThreads.length (if d then .destroyed else .idle .closed) + s.worker.left + s.pumpsLeft <
      s.left
    rw [Main.left_closed, State.left, hm', Main.left]
    omega
  | _ hm' => rw [hm] at hm'; cases hm'

/-- A worker that has not ended can make a step. -/
theorem exists_workerStep (ha : s.worker.active = true) : ∃ e s', s.workerStep e = some s' := by
  cases hw : s.worker with
  | unstarted | done | joined => rw [hw] at ha; cases ha
  | socket | bind | listen | channel => exact ⟨.answer false, _, by simp only [State.workerStep, hw]; rfl⟩
  | test => exact ⟨.test, _, by simp only [State.workerStep, hw]; rfl⟩
  | select => exact ⟨.select .timeout, _, by simp only [State.workerStep, hw]; rfl⟩
  | accept => exact ⟨.accept .again, _, by simp only [State.workerStep, hw]; rfl⟩
  | check =>
    cases hr : s.isRunning with
    | true => exact ⟨.test, _, by simp only [State.workerStep, hw, hr]; rfl⟩
    | false => exact ⟨.test, _, by simp only [State.workerStep, hw, hr]; rfl⟩
  | spawn => exact ⟨.spawn (.const 0), _, by simp only [State.workerStep, hw]; rfl⟩
  | closeListen => exact ⟨.call, _, by simp only [State.workerStep, hw]; rfl⟩

/-- A forwarder that has not returned can make a step. -/
theorem exists_forwarderStep {i : Nat} {p : St Pc} {joinable : Bool} (hi : s.clients[i]? = some (.thread p joinable))
    (hd : p.pc ≠ .done) : ∃ e s', s.forwarderStep i e = some s' := by
  obtain ⟨e, p', he, hp⟩ := ForwardData.stops.goes { p with running := s.isRunning } hd
  exact ⟨e, _, by simp only [State.forwarderStep, hi]; simp [he, hp]; rfl⟩

/-- In `Close` some thread can make a step. -/
theorem Closing.goes (hc : Closing s) (hb : s.InClose) : ∃ x s', s.step x = some s' := by
  obtain ⟨pc, destroy, hm⟩ := hb
  have owner (h : ∃ s', s.closeStep destroy pc = some s') : ∃ x s', s.step x = some s' := by
    obtain ⟨s', h⟩ := h
    exact ⟨.closeStep, s', by simp only [State.step, hm]; exact h⟩
  have hlist := hc.toJoin
  cases pc with
  | shutdownWrite | closeSocket => exact owner ⟨_, rfl⟩
  | joinWorker =>
    cases ha : s.worker.active with
    | true =>
      obtain ⟨e, s', he⟩ := exists_workerStep ha
      exact ⟨.worker e, s', he⟩
    | false =>
      refine owner ?_
      unfold State.closeStep
      cases hw : s.worker <;> simp [hw, Worker.active] at ha ⊢
  | joinForwarders rest =>
    rw [State.toJoin, hm] at hlist
    cases rest with
    | nil => exact owner ⟨_, rfl⟩
    | cons i rest =>
      obtain ⟨p, joinable, hi⟩ := hlist.head
      by_cases hd : p.pc = .done
      · refine owner ?_
        cases joinable <;> simp [State.closeStep, hi, hd]
      · obtain ⟨e, s', he⟩ := exists_forwarderStep hi hd
        exact ⟨.forwarder i e, s', he⟩
  | freeSession =>
    refine owner ?_
    cases hs : s.session <;> simp [State.closeStep, hs]

theorem Closing.left_le (hc : Closing s) (hb : s.InClose) : s.left ≤ 9 * s.clients.length + 13 := by
  obtain ⟨pc, destroy, hm⟩ := hb
  have hmain : s.main.left s.forwardThreads.length ≤ 5 + s.clients.length := by
    have hlen := hc.toJoin.length_le
    rw [State.toJoin, hm] at hlen
    rw [hm]
    cases pc <;> simp only [Main.left] at hlen ⊢ <;> omega
  have hworker : s.worker.left ≤ 8 := by cases s.worker <;> decide
  have hpumps : s.pumpsLeft ≤ 8 * s.clients.length := total_le fun p => ForwardData.left_le p.pc
  unfold State.left
  omega

end TunnelConnection

namespace SshExporter

open Pump.SshExporter (Pc)

variable {s s' : State}

/-- The owner, or `Start`, is in `Close`. -/
def State.InClose (s : State) : Prop := ∃ pc caller, s.main = .close pc caller

/-- The attempts to cancel the listener that are repeated. -/
def In.isRetry : In → Bool
  | .cancel again => again
  | _ => false

/-- The steps of the owner yet, with so many workers in the list. -/
def Main.left (workers : Nat) (listener : Bool) : Main → Nat
  | .close .joinAccept _ => 8 + workers
  | .close .swap _ => 7 + workers
  | .close (.joinWorkers pending) _ => 6 + pending.length
  | .close .cancel _ => 4 + listener.toNat
  | .close .freeSession _ => 3
  | .close .closeSocket _ => 2
  | _ => 0

/-- The workers that the accept loop is about to join. -/
def Accept.finishing : Accept → List Nat
  | .join finished => finished
  | _ => []

/-- The steps of the accept loop yet, and of a worker that it starts. -/
def Accept.left : Accept → Nat
  | .unstarted | .done | .joined => 0
  | .test | .recheck | .dropped => 1
  | .select => 2
  | .push _ => 3
  | .spawn => 11
  | .join finished => 12 + finished.length
  | .reap => 13
  | .locked => 14

/-- The steps of a worker yet. -/
def Worker.left : Worker → Nat
  | .pumping p _ => Pump.SshExporter.left p.pc + 1
  | .finished => 0

theorem Worker.left_lt {p p' : St Pc} (sock sock' : Option Nat)
    (h : Pump.SshExporter.left p'.pc < Pump.SshExporter.left p.pc) :
    Worker.left (.pumping p' sock') < Worker.left (.pumping p sock) := Nat.succ_lt_succ h

theorem Worker.left_finished_lt (p : St Pc) (sock : Option Nat) :
    Worker.left .finished < Worker.left (.pumping p sock) := Nat.succ_pos _

/-- The steps of the workers yet. -/
def State.workersLeft (s : State) : Nat := total Worker.left s.served

def State.left (s : State) : Nat := s.main.left s.workers.length s.listener + s.accept.left + s.workersLeft

theorem JoinStep.workersLeft {i : Nat} (h : JoinStep s i s') : s'.workersLeft = s.workersLeft := by
  cases h with
  | notJoinable => rfl
  | joined hi => exact total_join hi

theorem acceptStep_left {e : AcceptEv} (h : s.acceptStep e = some s') (hr : s.running = false) :
    s'.accept.left + s'.workers.length + s'.workersLeft < s.accept.left + s.workers.length + s.workersLeft := by
  unfold State.acceptStep at h
  split at h
  · rename_i ha
    rw [hr] at h
    cases h
    simp [ha, Accept.left, State.workersLeft]
  · rename_i ha
    cases h
    simp [ha, Accept.left, State.workersLeft, State.does]
  · rename_i ha
    rw [hr] at h
    cases h
    simp [ha, Accept.left, State.workersLeft]
  · rename_i r ha
    cases hl : s.listener <;> rw [hl] at h <;> cases h
    · simp [ha, Accept.left, State.workersLeft]
    · cases r <;> simp [ha, Accept.left, State.workersLeft, State.does, AcceptResult.next]
  · rename_i ha
    cases h
    have hlen := List.length_eq_length_filter_add (l := s.workers) s.isDone
    simp only [ha, Accept.left, State.workersLeft]
    omega
  · rename_i i finished ha
    obtain ⟨t, ht, rfl⟩ := Option.map_eq_some_iff.mp h
    have hj := joinWorker_cases ht
    have hleft := hj.workersLeft
    have hw := hj.served.2.1
    simp only [ha, Accept.left, State.workersLeft, List.length_cons] at hleft ⊢
    rw [hleft, hw]
    omega
  · rename_i ha
    cases h
    simp [ha, Accept.left, State.workersLeft]
  · rename_i buf ha
    cases h
    simp [ha, Accept.left, State.workersLeft, State.does, Worker.left, Pump.SshExporter.left, Pump.SshExporter.start,
      St.start]
    omega
  · rename_i ha
    cases h
    simp [ha, Accept.left, State.workersLeft]
    omega
  · rename_i ha
    cases h
    simp [ha, Accept.left, State.workersLeft]
  · cases h

/-- The workers that the owner or the accept loop has to join yet. -/
def State.toJoin (s : State) : List Nat :=
  match s.main with
  | .close (.joinWorkers pending) _ => pending
  | _ => s.workers ++ s.accept.carries

theorem State.toJoin_of_serving (h : s.main.serving = true) : s.toJoin = s.workers ++ s.accept.carries := by
  unfold toJoin
  split
  · rename_i hm; rw [hm] at h; cases h
  · rfl

theorem AcceptStep.carried {e : AcceptEv} (h : AcceptStep s e s')
    (he : Enlisted s.served (s.workers ++ s.accept.carries)) :
    Enlisted s'.served (s'.workers ++ s'.accept.carries) := by
  have hlist : Enlisted s.served (s.workers ++ []) := by
    rw [List.append_nil]
    exact he.sublist (List.sublist_append_left ..)
  cases h with
  | @accept r => cases r <;> exact hlist
  | reap =>
    have hperm : s.workers.Perm (s.workers.filter (fun i => !s.isDone i) ++ s.workers.filter s.isDone) :=
      (List.filter_append_perm s.isDone s.workers).symm.trans List.perm_append_comm
    rw [List.append_nil] at hlist
    exact hlist.perm hperm
  | join ha hj =>
    obtain ⟨-, hw, -, hserved, -⟩ := hj.served
    rw [ha] at he
    refine hserved _ (he.sublist ?_)
    rw [hw]
    exact List.Sublist.append (List.Sublist.refl _) (List.sublist_cons_self ..)
  | spawn =>
    rw [List.append_nil] at hlist
    exact hlist.spawn
  | @push i ha =>
    rw [ha] at he
    show Enlisted s.served (s.workers ++ [i] ++ [])
    rw [List.append_nil]
    exact he
  | _ => exact hlist

theorem Step.toJoin {x : In} (h : Step s x s') (hp : s.Phase) (he : Enlisted s.served s.toJoin) :
    Enlisted s'.served s'.toJoin := by
  cases h with
  | accept h =>
    have hs := (hp.active h.active).1
    rw [State.toJoin_of_serving hs] at he
    rw [State.toJoin_of_serving (h.frame.1 ▸ hs)]
    exact h.carried he
  | dial hc | pump hc | finish hc => exact he.set hc
  | joinAccept hm ha =>
    rw [State.toJoin, hm, ha] at he
    exact he
  | swap hm =>
    rw [State.toJoin, hm] at he
    exact he.sublist (List.sublist_append_left ..)
  | joinWorker hm hj =>
    rw [State.toJoin, hm] at he
    exact hj.served.2.2.2.1 _ (he.sublist (List.sublist_cons_self ..))
  | joinedAll hm =>
    rw [State.Phase, hm] at hp
    show Enlisted s.served (s.workers ++ s.accept.carries)
    rw [hp.2.2, hp.1.carries]
    exact .nil
  | bound hm =>
    rw [State.toJoin, hm] at he
    show Enlisted s.served (s.workers ++ [])
    rw [List.append_nil]
    exact he.sublist (List.sublist_append_left ..)
  | throws hm => rcases hm with hm | hm <;> rw [State.toJoin, hm] at he <;> exact he
  | fails hm => rcases hm with hm | hm | hm <;> rw [State.toJoin, hm] at he <;> exact he
  | gives hm => rcases hm with hm | hm <;> rw [State.toJoin, hm] at he <;> exact he
  | @closeSocket caller hm => rw [State.toJoin, hm] at he; cases caller <;> exact he
  | cancelAgain hm | cancel hm => exact he
  | _ hm => rw [State.toJoin, hm] at he; exact he

/-- The workers that the accept loop joins have set their flags. -/
def FlagsSet (s : State) : Prop := ∀ i ∈ s.accept.finishing, s.isDone i = true

theorem Step.flagsSet {x : In} (h : Step s x s') (hf : FlagsSet s) : FlagsSet s' := by
  have hkeep : ∀ i, i ∈ s.accept.finishing → s'.isDone i = true := fun i hi => h.isDone (hf i hi)
  cases h with
  | accept h =>
    cases h with
    | @accept r => cases r <;> exact fun i hi => absurd hi (List.not_mem_nil)
    | reap => exact fun i hi => (List.mem_filter.mp hi).2
    | join ha hj =>
      intro i hi
      rw [FlagsSet, ha] at hf
      exact (hj.served.2.2.2.2 i).trans (hf i (List.mem_cons_of_mem _ hi))
    | _ => exact fun i hi => absurd hi (List.not_mem_nil)
  | bound | joinAccept => exact fun i hi => absurd hi (List.not_mem_nil)
  | joinWorker hm hj =>
    intro i hi
    have ha := hj.served.2.2.1
    exact hkeep i (ha ▸ hi)
  | _ => exact hkeep

theorem exists_joinWorker {i : Nat} (hd : s.isDone i = true) : ∃ s', s.joinWorker i = some s' := by
  unfold State.isDone at hd
  split at hd
  · rename_i joinable hi
    cases joinable <;> simp [State.joinWorker, hi]
  · cases hd

structure Closing (s : State) : Prop where
  live : Live s
  phase : s.Phase
  toJoin : Enlisted s.served s.toJoin
  flagsSet : FlagsSet s

theorem Closing.step {x : In} (h : Closing s) (hs : s.step x = some s') : Closing s' where
  live := h.live.step h.phase hs
  phase := (step_cases hs).phase h.phase
  toJoin := (step_cases hs).toJoin h.phase h.toJoin
  flagsSet := (step_cases hs).flagsSet h.flagsSet

theorem Main.left_next (workers : Nat) (listener : Bool) (caller : Caller) : caller.next.left workers listener = 0 := by
  cases caller <;> rfl

/-- In `Close` every step of any thread but a retry comes nearer to its end, and
a retry does not lead away from it. -/
theorem Closing.falls {x : In} (hc : Closing s) (hb : s.InClose) (hs : s.step x = some s') :
    s'.left + (if x.isRetry then 0 else 1) ≤ s.left := by
  obtain ⟨pc, caller, hm⟩ := hb
  have hr : s.running = false := hc.live.down (by rw [hm]; exact Main.noConfusion)
  have hst := step_cases hs
  cases hst with
  | accept ha =>
    -- the accept loop runs, so the owner has come to its join
    obtain ⟨hserve, -⟩ := hc.phase.active ha.active
    obtain ⟨hmain, -⟩ := ha.frame
    have hlt := acceptStep_left hs hr
    rw [hm] at hserve
    obtain rfl : pc = .joinAccept := by cases pc <;> first | rfl | cases hserve
    simp only [State.left, hmain, hm, Main.left, In.isRetry, Bool.false_eq_true, if_false]
    omega
  | @dial i attempts p p' sock joinable hi hd hp =>
    have hlt := total_step hi (Worker.left_lt sock (dialTcp (.localService i) 0 attempts).2 (hp.left_lt (by simp) hr))
    simp only [State.left, State.workersLeft, State.does, hm, In.isRetry, Bool.false_eq_true, if_false] at hlt ⊢
    omega
  | @pump i e p p' sock joinable hi hd he hp =>
    have hlt := total_step hi (Worker.left_lt sock sock (hp.left_lt he hr))
    simp only [State.left, State.workersLeft, State.does, hm, In.isRetry, Bool.false_eq_true, if_false] at hlt ⊢
    omega
  | finish hi hd =>
    have hlt := total_step hi (Worker.left_finished_lt _ _)
    simp only [State.left, State.workersLeft, hm, In.isRetry, Bool.false_eq_true, if_false] at hlt ⊢
    omega
  | joinAccept hm' ha =>
    simp only [State.left, State.workersLeft, State.does, hm', ha, Main.left, Accept.left, In.isRetry,
      Bool.false_eq_true, if_false]
    omega
  | noAccept hm' =>
    simp only [State.left, State.workersLeft, hm', Main.left, In.isRetry, Bool.false_eq_true, if_false]
    omega
  | swap hm' =>
    simp only [State.left, State.workersLeft, hm', Main.left, In.isRetry, Bool.false_eq_true, if_false]
    omega
  | joinWorker hm' hj =>
    have hleft := hj.workersLeft
    obtain ⟨-, -, ha, -⟩ := hj.served
    simp only [State.left, State.workersLeft, ha, hm', Main.left, List.length_cons, In.isRetry, Bool.false_eq_true,
      if_false] at hleft ⊢
    omega
  | joinedAll hm' =>
    have hlisten := Bool.toNat_le s.listener
    simp only [State.left, State.workersLeft, hm', Main.left, In.isRetry, Bool.false_eq_true, if_false]
    omega
  | cancelAgain hm' => simp [State.left, State.workersLeft, State.does, hm', Main.left, In.isRetry]
  | cancel hm' hl =>
    simp only [State.left, State.workersLeft, State.does, hm', hl, Main.left, Bool.toNat_true, Bool.toNat_false,
      In.isRetry, Bool.false_eq_true, if_false]
    omega
  | cancelled hm' =>
    simp only [State.left, State.workersLeft, hm', Main.left, In.isRetry, Bool.false_eq_true, if_false]
    omega
  | freeSession hm' | noSession hm' =>
    simp only [State.left, State.workersLeft, State.does, hm', Main.left, In.isRetry, Bool.false_eq_true, if_false]
    omega
  | @closeSocket caller hm' =>
    show caller.next.left s.workers.length s.listener + s.accept.left + s.workersLeft + 1 ≤ s.left
    rw [Main.left_next, State.left, hm', Main.left]
    omega
  | throws hm' => rcases hm' with hm' | hm' <;> rw [hm] at hm' <;> cases hm'
  | fails hm' => rcases hm' with hm' | hm' | hm' <;> rw [hm] at hm' <;> cases hm'
  | gives hm' => rcases hm' with hm' | hm' <;> rw [hm] at hm' <;> cases hm'
  | _ hm' => rw [hm] at hm'; cases hm'

/-- An accept loop that has not ended can make a step. -/
theorem exists_acceptStep (hf : FlagsSet s) (ha : s.accept.active = true) : ∃ e s', s.acceptStep e = some s' := by
  cases hs : s.accept with
  | unstarted | done | joined => rw [hs] at ha; cases ha
  | test | recheck => exact ⟨.test, _, by simp only [State.acceptStep, hs]; rfl⟩
  | select => exact ⟨.select, _, by simp only [State.acceptStep, hs]; rfl⟩
  | locked => exact ⟨.accept .none, _, by simp only [State.acceptStep, hs]; rfl⟩
  | reap => exact ⟨.reap, _, by simp only [State.acceptStep, hs]; rfl⟩
  | join finished =>
    cases finished with
    | nil => exact ⟨.join, _, by simp only [State.acceptStep, hs]; rfl⟩
    | cons i finished =>
      rw [FlagsSet, hs] at hf
      obtain ⟨t, ht⟩ := exists_joinWorker (hf i (List.mem_cons_self ..))
      exact ⟨.join, { t with accept := .join finished }, by simp [State.acceptStep, hs, ht]⟩
  | spawn => exact ⟨.spawn (.const 0), _, by simp only [State.acceptStep, hs]; rfl⟩
  | push i => exact ⟨.push, _, by simp only [State.acceptStep, hs]; rfl⟩
  | dropped => exact ⟨.drop, _, by simp only [State.acceptStep, hs]; rfl⟩

/-- A worker that has not set its flag can make a step. -/
theorem exists_workerStep {i : Nat} {p : St Pc} {sock : Option Nat} {joinable : Bool}
    (hi : s.served[i]? = some (.thread (.pumping p sock) joinable)) :
    ∃ x s', x.isRetry = false ∧ s.step x = some s' := by
  by_cases hdial : p.pc = .dial
  · obtain ⟨t, ht⟩ : ∃ t, s.dialStep i [] = some t := by
      simp [State.dialStep, hi, hdial, dialTcp, Pump.SshExporter.step]
    exact ⟨.dial i [], t, rfl, ht⟩
  · by_cases hdone : p.pc = .done
    · obtain ⟨t, ht⟩ : ∃ t, s.finishStep i = some t := by simp [State.finishStep, hi, hdone]
      exact ⟨.finish i, t, rfl, ht⟩
    · obtain ⟨e, p', he, hp⟩ := Pump.SshExporter.stops.goes { p with running := s.running } hdone
      obtain ⟨t, ht⟩ : ∃ t, s.pumpStep i e = some t := by simp [State.pumpStep, hi, hdial, he, hp]
      exact ⟨.pump i e, t, rfl, ht⟩

/-- In `Close` some thread can make a step that is no retry. -/
theorem Closing.goes (hc : Closing s) (hb : s.InClose) : ∃ x s', x.isRetry = false ∧ s.step x = some s' := by
  obtain ⟨pc, caller, hm⟩ := hb
  have owner (h : ∃ s', s.closeStep caller pc = some s') : ∃ x s', x.isRetry = false ∧ s.step x = some s' := by
    obtain ⟨s', h⟩ := h
    exact ⟨.closeStep, s', rfl, by simp only [State.step, hm]; exact h⟩
  have hlist := hc.toJoin
  cases pc with
  | joinAccept =>
    cases ha : s.accept.active with
    | true =>
      obtain ⟨e, s', he⟩ := exists_acceptStep hc.flagsSet ha
      exact ⟨.accept e, s', rfl, he⟩
    | false =>
      refine owner ?_
      unfold State.closeStep
      cases hs : s.accept <;> simp [hs, Accept.active] at ha ⊢
  | joinWorkers pending =>
    rw [State.toJoin, hm] at hlist
    cases pending with
    | nil => exact owner ⟨_, rfl⟩
    | cons i pending =>
      obtain ⟨w, joinable, hi⟩ := hlist.head
      cases w with
      | pumping p sock => exact exists_workerStep hi
      | finished =>
        obtain ⟨t, ht⟩ := exists_joinWorker (s := s) (i := i) (by simp [State.isDone, hi])
        exact owner ⟨{ t with main := .close (.joinWorkers pending) caller }, by simp [State.closeStep, ht]⟩
  | cancel =>
    cases hl : s.listener with
    | true => exact ⟨.cancel false, _, rfl, by simp only [State.step, hm, State.cancelStep, hl]; rfl⟩
    | false => exact owner ⟨_, by simp only [State.closeStep, hl]; rfl⟩
  | freeSession =>
    refine owner ?_
    cases hs : s.session <;> simp [State.closeStep, hs]
  | swap | closeSocket => exact owner ⟨_, rfl⟩

theorem Accept.left_le (a : Accept) : a.left ≤ 14 + a.carries.length := by
  cases a <;> simp [Accept.left, Accept.carries]

theorem Closing.left_le (hc : Closing s) (hb : s.InClose) : s.left ≤ 11 * s.served.length + 22 := by
  obtain ⟨pc, caller, hm⟩ := hb
  have howner : s.main.left s.workers.length s.listener + s.accept.left ≤ s.served.length + 22 := by
    have hlen := hc.toJoin.length_le
    have haccept := s.accept.left_le
    have hlisten := Bool.toNat_le s.listener
    rw [State.toJoin, hm] at hlen
    rw [hm]
    cases pc with
    | joinWorkers pending =>
      have hp := hc.phase
      rw [State.Phase, hm] at hp
      have hzero : s.accept.left = 0 := by rcases hp.1 with ha | ha <;> rw [ha] <;> rfl
      simp only [Main.left] at hlen ⊢
      omega
    | _ =>
      simp only [Main.left, List.length_append] at hlen ⊢
      omega
  have hworkers : s.workersLeft ≤ 10 * s.served.length := total_le fun w => by
    cases w with
    | pumping p sock => exact Nat.succ_le_succ (Pump.SshExporter.left_le p.pc)
    | finished => exact Nat.zero_le _
  unfold State.left
  omega

end SshExporter

end ErplTunnel.Lifecycle

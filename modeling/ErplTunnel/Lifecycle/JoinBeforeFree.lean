import ErplTunnel.Lifecycle.TunnelConnection

/-!
# Close joins before it frees

`Phase` says what holds at each place of the owner's thread: while the worker or
a forwarder runs the object has its session, and once `Close` is through the
joins nothing runs any more. From it, in every run: no call on the session or on
a channel after `libssh2_session_free`, which happens once, every channel freed
before, and no thread left when `Close` returns.
-/

namespace ErplTunnel.Lifecycle.TunnelConnection

open Relay Pump Custody Pool
open Pump.ForwardData (Pc)

/-- How far a forwarder has to go to return. -/
theorem forwarder_end {p p' : St Pc} {e : Ev} (h : ForwardData.Step p e p') (he : e ≠ .shutdown) :
    p.pc ≠ .done ∧ (p'.pc = .done ↔ p.pc = .channelFree) ∧ (p'.pc = .channelFree ↔ p.pc = .closeClient) := by
  cases h with
  | shutdown => exact absurd rfl he
  | clientChunk hpc | channelChunk hpc => simp [hpc, St.take]
  | write hpc | send hpc => simp [hpc, St.give]
  | _ hpc => simp [hpc, St.goto]

/-- The worker makes calls yet. -/
def Worker.active : Worker → Bool
  | .unstarted | .done | .joined => false
  | _ => true

theorem Worker.active_of_listening {w : Worker} (h : w.listening = true) : w.active = true := by
  cases w <;> first | rfl | cases h

theorem Worker.listening_ne {w : Worker} (h : w.listening = true) :
    (w ≠ .unstarted ∧ w ≠ .joined) ∧ w ≠ .spawn := by
  refine ⟨⟨?_, ?_⟩, ?_⟩ <;> rintro rfl <;> cases h

/-- The forwarder has not returned. -/
def Running (p : St Pc) : Prop := p.pc ≠ .done

namespace State

/-- The worker has not been started. -/
def Unstarted (s : State) : Prop := s.worker = .unstarted ∧ s.clients = [] ∧ s.forwardThreads = []

/-- There is a session, on a socket. -/
def Linked (s : State) : Prop := s.session = true ∧ s.sshSocket.isSome = true

/-- Some thread may make a libssh2 call. -/
def Busy (s : State) : Prop := s.worker.active = true ∨ ∃ i, At (Slot.Is Running) s.clients i

/-- There is no worker to join. -/
def Stopped (s : State) : Prop := s.worker = .unstarted ∨ s.worker = .joined

/-- What holds at each place of the owner's thread. -/
def Phase (s : State) : Prop :=
  match s.main with
  | .idle .fresh | .resolve | .socket _ _ | .connect _ _ => s.Unstarted ∧ s.session = false ∧ s.sshSocket = none
  | .sessionInit => s.Unstarted ∧ s.session = false ∧ s.sshSocket.isSome = true
  | .handshake | .idle .connected | .idle .authenticated => s.Unstarted ∧ s.Linked
  | .idle .failed => s.Unstarted
  | .idle .started => s.Linked ∧ Tracked s.clients s.forwardThreads
  | .close .shutdownWrite _ | .close .joinWorker _ => (s.Busy → s.Linked) ∧ Tracked s.clients s.forwardThreads
  | .close (.joinForwarders rest) _ => s.Stopped ∧ (s.Busy → s.Linked) ∧ Tracked s.clients rest
  | .close .freeSession _ | .close .closeSocket _ | .idle .closed | .destroyed =>
    s.Stopped ∧ Tracked s.clients [] ∧ s.forwardThreads = []

variable {s s' : State}

theorem Unstarted.tracked (h : s.Unstarted) (ids : List Nat) : Tracked s.clients ids :=
  h.2.1 ▸ tracked_nil

theorem Unstarted.not_busy (h : s.Unstarted) : ¬s.Busy := by
  rintro (hw | ⟨i, hi⟩)
  · rw [h.1] at hw; cases hw
  · rw [h.2.1] at hi; exact not_at_nil hi

theorem Stopped.not_active (h : s.Stopped) : s.worker.active = false := by
  rcases h with hw | hw <;> rw [hw] <;> rfl

/-- Where nothing is left to join, nothing is left to call libssh2. -/
theorem not_busy (hj : Joined Running s.clients) (hst : s.Stopped) (ht : Tracked s.clients []) : ¬s.Busy := by
  rintro (hw | ⟨i, hi⟩)
  · rw [hst.not_active] at hw; cases hw
  · exact hj.ended ht i hi

/-- Where `Close` may be called, it finds every forwarder in its list, and a
session if anything runs. -/
theorem Phase.idle {stage : Stage} (h : s.Phase) (hj : Joined Running s.clients) (hm : s.main = .idle stage) :
    (s.Busy → s.Linked) ∧ Tracked s.clients s.forwardThreads := by
  rw [Phase, hm] at h
  cases stage with
  | fresh => exact ⟨fun hb => absurd hb h.1.not_busy, h.1.tracked _⟩
  | connected | authenticated => exact ⟨fun _ => h.2, h.1.tracked _⟩
  | started => exact ⟨fun _ => h.1, h.2⟩
  | failed => exact ⟨fun hb => absurd hb h.not_busy, h.tracked _⟩
  | closed => exact ⟨fun hb => absurd hb (not_busy hj h.1 h.2.1), h.2.2 ▸ h.2.1⟩

/-- While something runs, the owner is between two calls or on the way to the
joins. -/
theorem Phase.busy (h : s.Phase) (hj : Joined Running s.clients) (hb : s.Busy) :
    s.Linked ∧ (s.main = .idle .started ∨ (∃ d, s.main = .close .shutdownWrite d ∨ s.main = .close .joinWorker d) ∨
      s.Stopped ∧ ∃ rest d, s.main = .close (.joinForwarders rest) d) := by
  unfold Phase at h
  split at h
  · exact absurd hb h.1.not_busy
  · exact absurd hb h.1.not_busy
  · exact absurd hb h.1.not_busy
  · exact absurd hb h.1.not_busy
  · exact absurd hb h.1.not_busy
  · exact absurd hb h.1.not_busy
  · exact absurd hb h.1.not_busy
  · exact absurd hb h.1.not_busy
  · exact absurd hb h.not_busy
  · rename_i hm; exact ⟨h.1, .inl hm⟩
  · rename_i d hm; exact ⟨h.1 hb, .inr (.inl ⟨d, .inl hm⟩)⟩
  · rename_i d hm; exact ⟨h.1 hb, .inr (.inl ⟨d, .inr hm⟩)⟩
  · rename_i rest d hm; exact ⟨h.2.1 hb, .inr (.inr ⟨h.1, rest, d, hm⟩)⟩
  all_goals exact absurd hb (not_busy hj h.1 h.2.1)

/-- A step of another thread than the owner's, which was running. -/
theorem Phase.keep (h : s.Phase) (hj : Joined Running s.clients) (hb : s.Busy) (hm : s'.main = s.main)
    (hs : s'.session = s.session) (hk : s'.sshSocket = s.sshSocket) (hst : s.Stopped → s'.Stopped)
    (ht : Tracked s.clients s.forwardThreads → Tracked s'.clients s'.forwardThreads)
    (hr : s.Stopped → ∀ rest, Tracked s.clients rest → Tracked s'.clients rest) : s'.Phase := by
  obtain ⟨hl, hmain⟩ := h.busy hj hb
  have hl' : s'.Linked := ⟨hs ▸ hl.1, hk ▸ hl.2⟩
  unfold Phase at h ⊢
  rcases hmain with hm' | ⟨d, hm' | hm'⟩ | ⟨hstop, rest, d, hm'⟩
  · rw [hm, hm']; rw [hm'] at h
    exact ⟨hl', ht h.2⟩
  · rw [hm, hm']; rw [hm'] at h
    exact ⟨fun _ => hl', ht h.2⟩
  · rw [hm, hm']; rw [hm'] at h
    exact ⟨fun _ => hl', ht h.2⟩
  · rw [hm, hm']; rw [hm'] at h
    exact ⟨hst hstop, fun _ => hl', hr hstop rest h.2.2⟩

end State

variable {s s' : State}

theorem WorkerStep.active {e : WorkerEv} (h : WorkerStep s e s') : s.worker.active = true := by
  cases h with
  | broken hw => rcases hw with hw | hw <;> rw [hw] <;> rfl
  | listening hw => exact Worker.active_of_listening hw
  | _ hw => rw [hw]; rfl

/-- What the worker leaves alone. -/
theorem WorkerStep.frame {e : WorkerEv} (h : WorkerStep s e s') :
    s'.main = s.main ∧ s'.session = s.session ∧ s'.sshSocket = s.sshSocket := by
  cases h <;> exact ⟨rfl, rfl, rfl⟩

theorem WorkerStep.tracked {e : WorkerEv} (h : WorkerStep s e s') (ht : Tracked s.clients s.forwardThreads) :
    Tracked s'.clients s'.forwardThreads := by
  cases h with
  | stop | noChannel => exact ht.refuse
  | spawn => exact ht.spawn
  | _ => exact ht

theorem WorkerStep.joined {e : WorkerEv} (h : WorkerStep s e s') (hj : Joined Running s.clients) :
    Joined Running s'.clients := by
  cases h with
  | stop | noChannel => exact hj.refuse
  | spawn => exact hj.spawn
  | _ => exact hj

theorem WorkerStep.phase {e : WorkerEv} (h : WorkerStep s e s') (hp : s.Phase) (hj : Joined Running s.clients) : s'.Phase := by
  obtain ⟨hm, hs, hk⟩ := h.frame
  have ha : s.worker.active = true := h.active
  have hn : ¬s.Stopped := fun hst => by rw [hst.not_active] at ha; cases ha
  exact hp.keep hj (.inl ha) hm hs hk (fun hst => absurd hst hn) h.tracked fun hst => absurd hst hn

/-- A forwarder that runs keeps all others as they are, and its own thread
joinable. -/
theorem forwarder_phase {i : Nat} {p p' : St Pc} {joinable : Bool}
    (hc : s.clients[i]? = some (.thread p joinable)) (hd : Running p) (h : s.Phase)
    (hj : Joined Running s.clients) (hs' : s'.clients = s.clients.set i (.thread p' joinable))
    (hm : s'.main = s.main) (hs : s'.session = s.session) (hk : s'.sshSocket = s.sshSocket)
    (hw : s'.worker = s.worker) (hf : s'.forwardThreads = s.forwardThreads) : s'.Phase := by
  have hst : s.Stopped → s'.Stopped := by rw [State.Stopped, State.Stopped, hw]; exact id
  refine h.keep hj (.inr ⟨i, (at_iff hc).mpr hd⟩) hm hs hk hst (fun ht => ?_) fun _ rest ht => ?_
  · rw [hs', hf]; exact ht.step hc
  · rw [hs']; exact ht.step hc

theorem Step.joined {x : In} (h : Step s x s') (hj : Joined Running s.clients) : Joined Running s'.clients := by
  cases h with
  | worker h => exact h.joined hj
  | forwarder hc he hs => exact hj.step hc (forwarder_end hs he).1
  | joinForwarder hm hc hd => exact hj.join hc (not_not_intro hd)
  | _ => exact hj

theorem Step.phase {x : In} (h : Step s x s') (hp : s.Phase) (hj : Joined Running s.clients) : s'.Phase := by
  cases h with
  | worker h => exact h.phase hp hj
  | forwarder hc he hs => exact forwarder_phase hc (forwarder_end hs he).1 hp hj rfl rfl rfl rfl rfl rfl
  | close hm => exact hp.idle hj hm
  | @connect valid hm =>
    rw [State.Phase, hm] at hp
    cases valid
    · exact hp.1
    · exact hp
  | @resolve n hm =>
    rw [State.Phase, hm] at hp
    show State.Phase { s with sshSocket := none, main := _ }
    split
    · exact ⟨hp.1, hp.2.1, rfl⟩
    · exact hp.1
  | @noSocket k n hm | @refused k n hm =>
    rw [State.Phase, hm] at hp
    unfold State.nextAddr
    split
    · exact hp
    · exact hp.1
  | socket hm => rw [State.Phase, hm] at hp; exact hp
  | connected hm => rw [State.Phase, hm] at hp; exact ⟨hp.1, hp.2.1, rfl⟩
  | noSession hm => rw [State.Phase, hm] at hp; exact hp.1
  | session hm => rw [State.Phase, hm] at hp; exact ⟨hp.1, rfl, hp.2.2⟩
  | noHandshake hm | noCredentials hm => rw [State.Phase, hm] at hp; exact hp.1
  | handshake hm => rw [State.Phase, hm] at hp; exact hp
  | @authenticate ok hm =>
    rw [State.Phase, hm] at hp
    cases ok
    · exact hp.1
    · exact hp
  | startWorker hm => rw [State.Phase, hm] at hp; exact ⟨hp.2, hp.1.tracked _⟩
  | probe hm =>
    simp only [State.Phase, State.log, hm] at hp ⊢
    exact hp
  | shutdownWrite hm => rw [State.Phase, hm] at hp; exact hp
  | joinWorker hm => rw [State.Phase, hm] at hp; exact ⟨.inr rfl, fun hb => hp.1 (hb.imp nofun id), hp.2⟩
  | noWorker hm hw => rw [State.Phase, hm] at hp; exact ⟨hw, hp⟩
  | joinForwarder hm hc hd =>
    rw [State.Phase, hm] at hp
    obtain ⟨hst, hbusy, ht⟩ := hp
    refine ⟨hst, fun hb => hbusy (hb.imp id ?_), ht.join hc⟩
    rintro ⟨j, hj⟩
    exact ⟨j, (at_is_join hc).mp hj⟩
  | notJoinable hm hc => rw [State.Phase, hm] at hp; exact ⟨hp.1, hp.2.1, hp.2.2.skip hc⟩
  | clear hm => rw [State.Phase, hm] at hp; exact ⟨hp.1, hp.2.2, rfl⟩
  | freeSession hm | nothingToFree hm => rw [State.Phase, hm] at hp; exact hp
  | @closeSocket d hm =>
    rw [State.Phase, hm] at hp
    cases d <;> exact hp

/-- `Connect` has not made the session yet. -/
def Main.beforeSession : Main → Bool
  | .idle .fresh | .resolve | .socket _ _ | .connect _ _ | .sessionInit => true
  | _ => false

namespace State

/-- What the object owns, of the session, its channels and the threads. -/
def HoldsObj (s : State) : Obj → Prop
  | .session => s.session = true
  | .channel i => At (Slot.Is Running) s.clients i ∨ i = s.clients.length ∧ s.worker = .spawn
  | .worker => s.worker ≠ .unstarted ∧ s.worker ≠ .joined
  | .forwarder i => At Slot.Joinable s.clients i

/-- What has not been made so far. -/
def UnmadeObj (s : State) : Obj → Prop
  | .session => s.main.beforeSession = true
  | .channel i => s.clients.length < i ∨ i = s.clients.length ∧ s.worker ≠ .spawn
  | .worker => s.worker = .unstarted
  | .forwarder i => s.clients.length ≤ i

end State

/-- A channel needs the session, and the session is freed after the channels and
the joins. -/
def Rule (held : Obj → Prop) (op : Op Obj) : Prop :=
  match op with
  | .release .session => (∀ i, ¬held (.channel i)) ∧ ¬held .worker ∧ ∀ i, ¬held (.forwarder i)
  | .acquire (.channel _) | .use (.channel _) | .release (.channel _) => held .session
  | _ => True

/-- The log of the session, the channels and the threads is in order. -/
def ObjsKept (s : State) (log : List (Op Obj)) : Prop := Kept Rule s.HoldsObj s.UnmadeObj log

/-- A step that leaves the worker, the clients and the session as they are. -/
theorem ObjsKept.goto {log : List (Op Obj)} (h : ObjsKept s log) (hw : s'.worker = s.worker)
    (hc : s'.clients = s.clients) (hs : s'.session = s.session)
    (hm : s'.main.beforeSession = true → s.main.beforeSession = true) : ObjsKept s' log := by
  refine h.congr (fun x => ?_) fun x hx => ?_
  · cases x <;> simp only [State.HoldsObj, hw, hc, hs]
  · cases x with
    | session => exact hm hx
    | _ => simpa only [State.UnmadeObj, hw, hc] using hx

/-- A step of the worker without a channel, before and after it. -/
theorem ObjsKept.work {log : List (Op Obj)} (h : ObjsKept s log) (hw : s.worker.active = true)
    (hw' : s'.worker ≠ .unstarted ∧ s'.worker ≠ .joined) (hn : s.worker ≠ .spawn) (hn' : s'.worker ≠ .spawn)
    (hc : s'.clients = s.clients ∨ s'.clients = s.clients ++ [.refused])
    (hm : s'.main = s.main) (hs : s'.session = s.session) : ObjsKept s' log := by
  have hu : s.worker ≠ .unstarted ∧ s.worker ≠ .joined := by
    constructor <;> rintro hu <;> rw [hu] at hw <;> cases hw
  refine h.congr (fun x => ?_) fun x hx => ?_
  · cases x with
    | session => simp only [State.HoldsObj, hs]
    | worker => exact iff_of_true hw' hu
    | channel i => rcases hc with hc | hc <;> simp [State.HoldsObj, hc, hn, hn']
    | forwarder i => rcases hc with hc | hc <;> simp [State.HoldsObj, hc]
  · cases x with
    | session => simpa only [State.UnmadeObj, hm] using hx
    | worker => exact absurd hx hw'.1
    | channel i =>
      rcases hc with hc | hc <;> simp [State.UnmadeObj, hc, hn, hn'] at hx ⊢ <;> omega
    | forwarder i =>
      rcases hc with hc | hc <;> simp [State.UnmadeObj, hc] at hx ⊢ <;> omega

theorem WorkerStep.objs {e : WorkerEv} (h : WorkerStep s e s') (hl : s.Linked) (ho : ObjsKept s s.objs) :
    ObjsKept s' s'.objs := by
  have ha : s.worker.active = true := h.active
  have hses : s.HoldsObj .session := hl.1
  have ho₀ : ObjsKept s (s.objs ++ []) := by rwa [List.append_nil]
  have ho₁ : ObjsKept s (s.objs ++ [.use .session]) := ho.use hses trivial
  cases h with
  | noSocket hw => exact ho.work ha (by simp) (by simp [hw]) (by simp) (.inl rfl) rfl rfl
  | test hw hw' =>
    obtain ⟨hu, hn⟩ := Worker.listening_ne hw'
    exact ho.work ha hu (by simp [hw]) hn (.inl rfl) rfl rfl
  | listening hw hw' =>
    obtain ⟨hu, hn⟩ := Worker.listening_ne hw'
    exact ho₀.work ha hu (Worker.listening_ne hw).2 hn (.inl rfl) rfl rfl
  | socket hw | accept hw | closeListen hw =>
    exact ho₀.work ha (by simp) (by simp [hw]) (by simp) (.inl rfl) rfl rfl
  | broken hw => exact ho₀.work ha (by simp) (by rcases hw with hw | hw <;> simp [hw]) (by simp) (.inl rfl) rfl rfl
  | check hw => exact ho.work ha (by simp) (by simp [hw]) (by simp) (.inl rfl) rfl rfl
  | stop hw => exact ho₀.work ha (by simp [State.refuse]) (by simp [hw]) (by simp [State.refuse]) (.inr rfl) rfl rfl
  | noChannel hw =>
    exact ho₁.work ha (by simp [State.refuse]) (by simp [hw]) (by simp [State.refuse]) (.inr rfl) rfl rfl
  | channel hw =>
    show ObjsKept _ (s.objs ++ [.use .session, .acquire (.channel s.clients.length)])
    rw [append_pair]
    refine ho₁.acquire (.inr ⟨rfl, by simp [hw]⟩) hses (fun x => ?_) fun x hx => ?_
    · cases x <;> simp [State.HoldsObj, State.log, hw]
    · cases x <;> simp [State.UnmadeObj, State.log, hw] at hx ⊢
      · exact hx
      · omega
      · exact hx
  | spawn hw =>
    refine ho.acquire (Nat.le_refl _) trivial (fun x => ?_) fun x hx => ?_
    · cases x <;> simp [State.HoldsObj, State.log, hw, Running, ForwardData.start, St.start]
    · cases x <;> simp [State.UnmadeObj, State.log, hw] at hx ⊢
      · exact hx
      · omega
      · omega

/-- What a forwarder does is in order: it uses the channel it has, and frees it
once. -/
theorem forwarder_objs {i : Nat} {p p' : St Pc} {e : Ev} {joinable : Bool} (hl : s.Linked)
    (hc : s.clients[i]? = some (.thread p joinable)) (he : e ≠ .shutdown)
    (hs : ForwardData.Step { p with running := s.isRunning } e p')
    (hs' : s'.clients = s.clients.set i (.thread p' joinable)) (hw : s'.worker = s.worker)
    (hm : s'.main = s.main) (hse : s'.session = s.session) (ho : ObjsKept s s.objs) :
    ObjsKept s' (s.objs ++ forwarderObjs i p.pc) := by
  obtain ⟨hd, hdone, -⟩ := forwarder_end hs he
  have hses : s.HoldsObj .session := hl.1
  have hch : s.HoldsObj (.channel i) := .inl ((at_iff hc).mpr hd)
  have hlt : i < s.clients.length := (List.getElem?_eq_some_iff.mp hc).1
  have ho₁ : ObjsKept s (s.objs ++ [.use .session]) := ho.use hses trivial
  have hlen : s'.clients.length = s.clients.length := by rw [hs', List.length_set]
  have unmade : ∀ x, s'.UnmadeObj x → s.UnmadeObj x := by
    intro x hx
    cases x <;> simpa only [State.UnmadeObj, hlen, hw, hm] using hx
  have hwait : ∀ j, (j = s'.clients.length ∧ s'.worker = .spawn) ↔ j = s.clients.length ∧ s.worker = .spawn := by
    intro j
    rw [hlen, hw]
  by_cases hf : p.pc = .channelFree
  · have hfree : forwarderObjs i p.pc = [.use .session, .release (.channel i)] := by rw [hf]; rfl
    have hn : ¬Running p' := not_not_intro (hdone.mpr hf)
    rw [hfree, append_pair]
    refine ho₁.release hch hses (fun x => ?_) unmade
    cases x with
    | session => simp [State.HoldsObj, hse]
    | worker => simp [State.HoldsObj, hw]
    | forwarder j => simp [State.HoldsObj, hs', at_joinable_step hc]
    | channel j =>
      simp only [State.HoldsObj, hwait, ne_eq, Obj.channel.injEq]
      rw [hs']
      exact at_is_drop_or hc hn fun hj => by omega
  · have hr : Running p' ↔ Running p := iff_of_true (mt hdone.mp hf) hd
    have huse : ObjsKept s (s.objs ++ [.use .session, .use (.channel i)]) := by
      rw [append_pair]
      exact ho₁.use hch hses
    have hnone : ObjsKept s (s.objs ++ []) := by rwa [List.append_nil]
    have hlog : ObjsKept s (s.objs ++ forwarderObjs i p.pc) := by
      unfold forwarderObjs
      split
      · exact huse
      · exact huse
      · exact huse
      · exact absurd ‹_› hf
      · exact hnone
    refine hlog.congr (fun x => ?_) unmade
    · cases x with
      | session => simp only [State.HoldsObj, hse]
      | worker => simp only [State.HoldsObj, hw]
      | forwarder j => simp only [State.HoldsObj, hs', at_joinable_step hc]
      | channel j =>
        simp only [State.HoldsObj, hwait]
        rw [hs', at_is_step hc hr]

/-- Where nothing is left to join, the session may go. -/
theorem rule_free (hj : Joined Running s.clients) (hst : s.Stopped) (ht : Tracked s.clients []) : Rule s.HoldsObj (.release .session) := by
  have hb : ¬s.Busy := State.not_busy hj hst ht
  refine ⟨fun i hi => ?_, fun hw => ?_, fun i hi => by simpa using ht i hi⟩
  · rcases hi with hi | ⟨-, hw⟩
    · exact hb (.inr ⟨i, hi⟩)
    · exact hb (.inl (by rw [hw]; rfl))
  · rcases hst with h | h
    · exact hw.1 h
    · exact hw.2 h

theorem Step.objs {x : In} (h : Step s x s') (hp : s.Phase) (hj : Joined Running s.clients) (ho : ObjsKept s s.objs) :
    ObjsKept s' s'.objs := by
  have ho₀ : ObjsKept s (s.objs ++ []) := by rwa [List.append_nil]
  cases h with
  | worker h => exact h.objs (hp.busy hj (.inl h.active)).1 ho
  | @forwarder i e p p' joinable hc he hs =>
    have hb : s.Busy := .inr ⟨i, (at_iff hc).mpr (forwarder_end hs he).1⟩
    exact forwarder_objs (hp.busy hj hb).1 hc he hs rfl rfl rfl rfl ho
  | @connect valid hm =>
    refine ho.goto rfl rfl rfl fun _ => ?_
    rw [hm]; rfl
  | @resolve n hm =>
    refine ho.goto rfl rfl rfl fun _ => ?_
    rw [hm]; rfl
  | noSocket hm =>
    refine ho.goto rfl rfl rfl fun _ => ?_
    rw [hm]; rfl
  | socket hm | refused hm | connected hm =>
    refine ho₀.goto rfl rfl rfl fun _ => ?_
    rw [hm]; rfl
  | noSession hm => exact ho₀.goto rfl rfl rfl nofun
  | session hm =>
    refine ho.acquire (by rw [State.UnmadeObj, hm]; rfl) trivial (fun x => ?_) fun x hx => ?_
    · cases x <;> simp [State.HoldsObj, State.log]
    · cases x with
      | session => cases hx
      | _ => exact ⟨hx, by simp⟩
  | noHandshake hm | handshake hm =>
    rw [State.Phase, hm] at hp
    exact ObjsKept.goto (ho.use hp.2.1 trivial) rfl rfl rfl nofun
  | @authenticate ok hm =>
    rw [State.Phase, hm] at hp
    refine ObjsKept.goto (ho.use hp.2.1 trivial) rfl rfl rfl fun hx => ?_
    cases ok <;> cases hx
  | noCredentials hm => exact ho.goto rfl rfl rfl nofun
  | startWorker hm =>
    rw [State.Phase, hm] at hp
    refine ho.acquire hp.1.1 trivial (fun x => ?_) fun x hx => ?_
    · cases x <;> simp [State.HoldsObj, State.log, hp.1.1]
    · cases x with
      | channel i => exact ⟨by simpa [State.UnmadeObj, State.log, hp.1.1] using hx, by simp⟩
      | forwarder i => exact ⟨hx, by simp⟩
      | _ => cases hx
  | probe hm => exact ho₀.goto rfl rfl rfl id
  | close hm => exact ho.goto rfl rfl rfl nofun
  | shutdownWrite hm => exact ho₀.goto rfl rfl rfl nofun
  | @closeSocket d hm =>
    refine ho₀.goto rfl rfl rfl fun hx => ?_
    cases d <;> cases hx
  | joinWorker hm hw =>
    refine ho.release (by simp [State.HoldsObj, hw]) trivial (fun x => ?_) fun x hx => ?_
    · cases x <;> simp [State.HoldsObj, State.log, hw]
    · cases x with
      | channel i => simpa [State.UnmadeObj, State.log, hw] using hx
      | forwarder i => exact hx
      | _ => cases hx
  | noWorker hm | notJoinable hm | clear hm | nothingToFree hm => exact ho.goto rfl rfl rfl nofun
  | joinForwarder hm hc hd =>
    refine ho.release ((at_iff hc).mpr rfl) trivial (fun x => ?_) fun x hx => ?_
    · cases x <;> simp [State.HoldsObj, State.log, at_is_join hc, at_joinable_join hc]
    · cases x with
      | session => cases hx
      | _ => simpa [State.UnmadeObj, State.log] using hx
  | freeSession hm hs =>
    rw [State.Phase, hm] at hp
    show ObjsKept _ (s.objs ++ [.use .session, .release .session])
    rw [append_pair]
    refine Kept.release (ho.use hs trivial) hs (rule_free hj hp.1 hp.2.1) (fun x => ?_) fun x hx => ?_
    · cases x <;> simp [State.HoldsObj, State.log]
    · cases x with
      | session => cases hx
      | _ => exact hx

/-- The invariant of the object. -/
structure Inv (s : State) : Prop where
  phase : s.Phase
  joined : Joined Running s.clients
  objs : ObjsKept s s.objs

theorem inv_start : Inv start where
  phase := ⟨⟨rfl, rfl, rfl⟩, rfl, rfl⟩
  joined := fun _ h => absurd h not_at_nil
  objs := by
    refine Kept.nil fun x => ?_
    cases x <;> simp [State.HoldsObj, start, not_at_nil]

theorem Inv.step {x : In} (h : Inv s) (hs : Step s x s') : Inv s' :=
  ⟨hs.phase h.phase h.joined, hs.joined h.joined, hs.objs h.phase h.joined h.objs⟩

theorem inv_run {xs : List In} (h : Lts.Run State.step start xs s) : Inv s :=
  h.inv (P := Inv) (fun _ _ _ hi hs => hi.step (step_cases hs)) inv_start

/-- No thread of the object is running. -/
def State.Quiet (s : State) : Prop :=
  s.worker.active = false ∧
    (∀ (i : Nat) p joinable, s.clients[i]? = some (.thread p joinable) → p.pc = .done) ∧ s.forwardThreads = []

theorem Inv.quiet (h : Inv s) (hm : s.main = .idle .closed ∨ s.main = .destroyed) : s.Quiet := by
  have hp : s.Stopped ∧ Tracked s.clients [] ∧ s.forwardThreads = [] := by
    have hp := h.phase
    rcases hm with hm | hm <;> rw [State.Phase, hm] at hp <;> exact hp
  refine ⟨hp.1.not_active, fun i p joinable hc => ?_, hp.2.2⟩
  by_contra hd
  exact State.not_busy h.joined hp.1 hp.2.1 (.inr ⟨i, (at_iff hc).mpr hd⟩)

/-- In every run: after `libssh2_session_free` comes no call on the session or on
a channel, and the channels opened before it have been freed before it; the
session is freed at most once; and when `Close` has returned no thread runs and
`forward_threads_` is empty. -/
theorem joins_before_free (xs : List In) (s : State) (h : Lts.Run State.step start xs s) :
    (∀ l₁ l₂, s.objs = l₁ ++ .release .session :: l₂ →
      (∀ op ∈ l₂, op.on ≠ .session ∧ ∀ i, op.on ≠ .channel i) ∧
        ∀ i, .acquire (.channel i) ∈ l₁ → .release (.channel i) ∈ l₁) ∧
      s.objs.count (.release .session) ≤ 1 ∧
      (s.main = .idle .closed ∨ s.main = .destroyed → s.Quiet) := by
  have hi := inv_run h
  refine ⟨fun l₁ l₂ he => ⟨fun op hop => ⟨hi.objs.afterRelease .session l₁ l₂ he op hop, fun i hon => ?_⟩, fun i hacq => ?_⟩,
    ?_, hi.quiet⟩
  · -- a call on a channel needs the session, which is gone
    obtain ⟨l, hrel, -, -, hok⟩ := hi.objs.each.later he hop
    have hses : Held l .session := by
      cases op <;> obtain rfl := hon <;> exact hok
    exact hses.2 hrel
  · by_contra hrel
    have hr : Rule (Held l₁) (.release .session) := hi.objs.ruled he
    exact hr.1 i ⟨hacq, hrel⟩
  · by_cases hr : .release .session ∈ s.objs
    · exact (hi.objs.count_release hr).le
    · rw [List.count_eq_zero.mpr hr]; exact Nat.zero_le 1

/-- A client is being served when the tunnel is closed. -/
def closedWhileServing : List In :=
  [.connect true, .resolve 1, .socket true, .connected true, .sessionInit true, .handshake true,
    .authenticate true true, .startWorker, .worker (.answer true), .worker (.answer true), .worker (.answer true),
    .worker .test, .worker (.select (.ready true false)), .worker (.accept .client), .worker .test,
    .worker (.answer true), .worker (.spawn (.const 0)), .close, .forwarder 0 .test, .worker .test, .closeStep,
    .forwarder 0 .call, .worker .call, .closeStep, .forwarder 0 .call, .closeStep, .closeStep, .closeStep, .closeStep]

theorem closedWhileServing_joined :
    ∃ s, Lts.Run State.step start closedWhileServing s ∧ s.objs = [.acquire .session, .use .session, .use .session,
      .acquire .worker, .use .session, .acquire (.channel 0), .acquire (.forwarder 0), .release .worker, .use .session,
      .release (.channel 0), .release (.forwarder 0), .use .session, .release .session] ∧
      s.objs.count (.release .session) ≤ 1 ∧ s.Quiet := by
  have hrun : ∃ s, Lts.Run State.step start closedWhileServing s ∧ s.main = .idle .closed ∧
      s.objs = [.acquire .session, .use .session, .use .session, .acquire .worker, .use .session,
        .acquire (.channel 0), .acquire (.forwarder 0), .release .worker, .use .session, .release (.channel 0),
        .release (.forwarder 0), .use .session, .release .session] := ⟨_, rfl, rfl, rfl⟩
  obtain ⟨s, hs, hm, ho⟩ := hrun
  obtain ⟨-, hc, hq⟩ := joins_before_free closedWhileServing s hs
  exact ⟨s, hs, ho, hc, hq (.inl hm)⟩

end ErplTunnel.Lifecycle.TunnelConnection

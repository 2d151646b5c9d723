import ErplTunnel.Lifecycle.MeshForwarder

/-!
# The teardown of a MeshForwarder

A client's socket is with the accept loop, then with a worker, and a stream with
the accept loop until its worker has started; the log is in order in every run,
so each is closed once, and when `Close` returns nothing is open and every
thread has been joined.
-/

namespace ErplTunnel.Lifecycle.MeshForwarder

open Relay Pump Custody Pool
open Pump.MeshForwarder (Pc)

/-- How far a worker has to go to return. -/
theorem pump_end {p p' : St Pc} {e : Ev} (h : Pump.MeshForwarder.Step p e p') (he : e ≠ .shutdown) :
    p.pc ≠ .done ∧ (p'.pc = .done ↔ p.pc = .closeMesh) ∧ (p'.pc = .closeMesh ↔ p.pc = .closeClient) := by
  cases h with
  | shutdown => exact absurd rfl he
  | chunk hpc => simp [hpc, St.take]
  | @mesh mesh hpc => cases mesh <;> simp [hpc, St.goto, Pump.MeshForwarder.next]
  | @send d m n sent q e p' hpc hs =>
    cases hs <;> cases m <;> simp [hpc, St.goto, St.give, Pump.MeshForwarder.next]
  | _ hpc => simp [hpc, St.goto]

/-- The worker has not returned, and has its stream. -/
def Running (p : St Pc) : Prop := p.pc ≠ .done

/-- The worker has not closed its client. -/
def Open (p : St Pc) : Prop := p.pc ≠ .closeMesh ∧ p.pc ≠ .done

namespace Accept

/-- The accept loop makes calls yet. -/
def active : Accept → Bool
  | .unstarted | .done | .joined => false
  | _ => true

/-- It has an accepted client. -/
def hasClient : Accept → Bool
  | .check | .dial | .spawn => true
  | _ => false

end Accept

/-- The accept loop may run. -/
def Main.serving : Main → Bool
  | .probe | .idle .started | .idle .failed | .close .joinAccept _ => true
  | _ => false

namespace State

/-- The accept loop has not been started. -/
def Unstarted (s : State) : Prop := s.accept = .unstarted ∧ s.clients = [] ∧ s.workers = []

/-- There is no accept loop to join. -/
def Stopped (s : State) : Prop := s.accept = .unstarted ∨ s.accept = .joined

/-- What holds at each place of the owner's thread. -/
def Phase (s : State) : Prop :=
  match s.main with
  | .idle .fresh | .ensureUp | .socket | .bind | .listen => s.Unstarted ∧ s.listenSock = false
  | .probe | .idle .started | .idle .failed | .close .joinAccept _ =>
    (s.accept.active = true → s.listenSock = true) ∧ Tracked s.clients s.workers
  | .close (.joinWorkers rest) _ => s.Stopped ∧ Tracked s.clients rest
  | .close .closeListen _ => s.Stopped ∧ Tracked s.clients [] ∧ s.workers = []
  | .idle .closed | .destroyed => s.Stopped ∧ Tracked s.clients [] ∧ s.workers = [] ∧ s.listenSock = false

variable {s s' : State}

theorem Unstarted.tracked (h : s.Unstarted) (ids : List Nat) : Tracked s.clients ids :=
  h.2.1 ▸ tracked_nil

theorem Unstarted.not_active (h : s.Unstarted) : ¬s.accept.active = true := by
  rw [h.1]; nofun

theorem Stopped.not_active (h : s.Stopped) : ¬s.accept.active = true := by
  rcases h with ha | ha <;> rw [ha] <;> nofun

/-- Where `Close` may be called, it finds every worker in its list. -/
theorem Phase.idle {stage : Stage} (h : s.Phase) (hm : s.main = .idle stage) :
    (s.accept.active = true → s.listenSock = true) ∧ Tracked s.clients s.workers := by
  rw [Phase, hm] at h
  cases stage with
  | fresh => exact ⟨fun ha => absurd ha h.1.not_active, h.1.tracked _⟩
  | started | failed => exact h
  | closed => exact ⟨fun ha => absurd ha h.1.not_active, h.2.2.1 ▸ h.2.1⟩

/-- While the accept loop runs, it has the listener, and the owner has not come
to the joins. -/
theorem Phase.active (h : s.Phase) (ha : s.accept.active = true) :
    s.main.serving = true ∧ s.listenSock = true ∧ Tracked s.clients s.workers := by
  unfold Phase at h
  split at h
  · exact absurd ha h.1.not_active
  · exact absurd ha h.1.not_active
  · exact absurd ha h.1.not_active
  · exact absurd ha h.1.not_active
  · exact absurd ha h.1.not_active
  · rename_i hm; rw [hm]; exact ⟨rfl, h.1 ha, h.2⟩
  · rename_i hm; rw [hm]; exact ⟨rfl, h.1 ha, h.2⟩
  · rename_i hm; rw [hm]; exact ⟨rfl, h.1 ha, h.2⟩
  · rename_i hm; rw [hm]; exact ⟨rfl, h.1 ha, h.2⟩
  all_goals exact absurd ha h.1.not_active

theorem Phase.ofServing (hm : s.main.serving = true) (hl : s.accept.active = true → s.listenSock = true)
    (ht : Tracked s.clients s.workers) : s.Phase := by
  unfold Phase
  unfold Main.serving at hm
  split at hm
  · rename_i h; rw [h]; exact ⟨hl, ht⟩
  · rename_i h; rw [h]; exact ⟨hl, ht⟩
  · rename_i h; rw [h]; exact ⟨hl, ht⟩
  · rename_i h; rw [h]; exact ⟨hl, ht⟩
  · cases hm

/-- A step of a worker. -/
theorem Phase.pump {i : Nat} {p p' : St Pc} {joinable : Bool} (h : s.Phase)
    (hc : s.clients[i]? = some (.thread p joinable)) (hs' : s'.clients = s.clients.set i (.thread p' joinable))
    (hm : s'.main = s.main) (hl : s'.listenSock = s.listenSock) (ha : s'.accept = s.accept)
    (hw : s'.workers = s.workers) : s'.Phase := by
  have unstarted (hu : s.Unstarted) : False := by rw [hu.2.1] at hc; cases hc
  have stopped : s.Stopped → s'.Stopped := by rw [Stopped, Stopped, ha]; exact id
  have tracked {ids : List Nat} (ht : Tracked s.clients ids) : Tracked s'.clients ids := by
    rw [hs']; exact ht.step hc
  unfold Phase at h ⊢
  rw [hm]
  split at h
  · exact (unstarted h.1).elim
  · exact (unstarted h.1).elim
  · exact (unstarted h.1).elim
  · exact (unstarted h.1).elim
  · exact (unstarted h.1).elim
  · exact ⟨by rw [ha, hl]; exact h.1, hw ▸ tracked h.2⟩
  · exact ⟨by rw [ha, hl]; exact h.1, hw ▸ tracked h.2⟩
  · exact ⟨by rw [ha, hl]; exact h.1, hw ▸ tracked h.2⟩
  · exact ⟨by rw [ha, hl]; exact h.1, hw ▸ tracked h.2⟩
  · exact ⟨stopped h.1, tracked h.2⟩
  · exact ⟨stopped h.1, tracked h.2.1, hw ▸ h.2.2⟩
  · exact ⟨stopped h.1, tracked h.2.1, hw ▸ h.2.2.1, hl ▸ h.2.2.2⟩
  · exact ⟨stopped h.1, tracked h.2.1, hw ▸ h.2.2.1, hl ▸ h.2.2.2⟩

end State

variable {s s' : State}

theorem AcceptStep.active {e : AcceptEv} (h : AcceptStep s e s') : s.accept.active = true := by
  cases h <;> rename_i ha <;> rw [ha] <;> rfl

theorem AcceptStep.tracked {e : AcceptEv} (h : AcceptStep s e s') (ht : Tracked s.clients s.workers) :
    Tracked s'.clients s'.workers := by
  cases h with
  | stop | noDial => exact ht.refuse
  | spawn => exact ht.spawn
  | _ => exact ht

theorem AcceptStep.joined {e : AcceptEv} (h : AcceptStep s e s') (hj : Joined Running s.clients) :
    Joined Running s'.clients := by
  cases h with
  | stop | noDial => exact hj.refuse
  | spawn => exact hj.spawn
  | _ => exact hj

/-- What the accept loop leaves alone. -/
theorem AcceptStep.frame {e : AcceptEv} (h : AcceptStep s e s') :
    s'.main = s.main ∧ s'.listenSock = s.listenSock ∧ s'.probes = s.probes := by
  cases h <;> exact ⟨rfl, rfl, rfl⟩

theorem Step.joined {x : In} (h : Step s x s') (hj : Joined Running s.clients) : Joined Running s'.clients := by
  cases h with
  | accept h => exact h.joined hj
  | pump hc he hp => exact hj.step hc (pump_end hp he).1
  | joinWorker hm hc hp => exact hj.join hc (not_not_intro hp)
  | _ => exact hj

theorem Step.phase {x : In} (h : Step s x s') (hp : s.Phase) : s'.Phase := by
  cases h with
  | accept h =>
    obtain ⟨hm, hl, -⟩ := h.frame
    obtain ⟨hs, hlisten, ht⟩ := hp.active h.active
    exact .ofServing (hm ▸ hs) (fun _ => hl ▸ hlisten) (h.tracked ht)
  | pump hc => exact hp.pump hc rfl rfl rfl rfl rfl
  | close hm => exact hp.idle hm
  | start hm | up hm | socket hm | bind hm => rw [State.Phase, hm] at hp; exact hp
  | throws hm =>
    rcases hm with hm | hm | hm <;> rw [State.Phase, hm] at hp
    · exact ⟨fun ha => absurd ha hp.1.not_active, hp.1.tracked _⟩
    · exact ⟨fun ha => absurd ha hp.1.not_active, hp.1.tracked _⟩
    · exact hp
  | broken hm =>
    have hp : s.Unstarted ∧ s.listenSock = false := by
      rcases hm with hm | hm <;> rw [State.Phase, hm] at hp <;> exact hp
    exact ⟨fun ha => absurd ha hp.1.not_active, hp.1.tracked _⟩
  | listen hm => rw [State.Phase, hm] at hp; exact ⟨fun _ => rfl, hp.1.tracked _⟩
  | noProbe hm => exact hp
  | @probe ok hm =>
    rw [State.Phase, hm] at hp
    cases ok <;> exact hp
  | joinAccept hm => rw [State.Phase, hm] at hp; exact ⟨.inr rfl, hp.2⟩
  | noAccept hm ha => rw [State.Phase, hm] at hp; exact ⟨ha, hp.2⟩
  | joinWorker hm hc => rw [State.Phase, hm] at hp; exact ⟨hp.1, hp.2.join hc⟩
  | notJoinable hm hc => rw [State.Phase, hm] at hp; exact ⟨hp.1, hp.2.skip hc⟩
  | clear hm => rw [State.Phase, hm] at hp; exact ⟨hp.1, hp.2, rfl⟩
  | @closeListen d hm =>
    rw [State.Phase, hm] at hp
    cases d <;> exact ⟨hp.1, hp.2.1, hp.2.2, rfl⟩
  | @noListen d hm hl =>
    rw [State.Phase, hm] at hp
    cases d <;> exact ⟨hp.1, hp.2.1, hp.2.2, hl⟩

namespace State

/-- What is open, and the threads not joined. -/
def Holds (s : State) : Res → Prop
  | .listen => s.listenSock = true ∨ s.main = .bind ∨ s.main = .listen
  | .probe _ => False
  | .client i => At (Slot.Is Open) s.clients i ∨ i = s.clients.length ∧ s.accept.hasClient = true
  | .stream i => At (Slot.Is Running) s.clients i ∨ i = s.clients.length ∧ s.accept = .spawn
  | .acceptThread => s.accept ≠ .unstarted ∧ s.accept ≠ .joined
  | .worker i => At Slot.Joinable s.clients i

/-- What has not been made so far. -/
def Unmade (s : State) : Res → Prop
  | .listen => s.main = .idle .fresh ∨ s.main = .ensureUp ∨ s.main = .socket
  | .probe n => s.probes ≤ n
  | .client i => s.clients.length < i ∨ i = s.clients.length ∧ s.accept.hasClient = false
  | .stream i => s.clients.length < i ∨ i = s.clients.length ∧ s.accept ≠ .spawn
  | .acceptThread => s.accept = .unstarted
  | .worker i => s.clients.length ≤ i

end State

/-- The log is in order. -/
def LogKept (s : State) (log : List (Op Res)) : Prop := Kept (fun _ _ => True) s.Holds s.Unmade log

variable {log : List (Op Res)}

/-- A step of the owner's thread that leaves the accept loop and the clients as
they are. -/
theorem LogKept.goto (h : LogKept s log) (hl : s'.Holds .listen ↔ s.Holds .listen)
    (hu : s'.Unmade .listen → s.Unmade .listen) (ha : s'.accept = s.accept) (hc : s'.clients = s.clients)
    (hp : s'.probes = s.probes) : LogKept s' log := by
  refine h.congr (fun x => ?_) fun x hx => ?_
  · cases x with
    | listen => exact hl
    | _ => simp only [State.Holds, ha, hc]
  · cases x with
    | listen => exact hu hx
    | _ => simpa only [State.Unmade, ha, hc, hp] using hx

/-- A step of the accept loop without a client. -/
theorem LogKept.work (h : LogKept s log) (ha : s.accept ≠ .unstarted ∧ s.accept ≠ .joined)
    (ha' : s'.accept ≠ .unstarted ∧ s'.accept ≠ .joined) (hn : s.accept.hasClient = false)
    (hn' : s'.accept.hasClient = false) (hc : s'.clients = s.clients) (hm : s'.main = s.main)
    (hl : s'.listenSock = s.listenSock) (hp : s'.probes = s.probes) : LogKept s' log := by
  have hs : s.accept ≠ .spawn := fun he => by rw [he] at hn; cases hn
  have hs' : s'.accept ≠ .spawn := fun he => by rw [he] at hn'; cases hn'
  refine h.congr (fun x => ?_) fun x hx => ?_
  · cases x <;> simp [State.Holds, ha, ha', hn, hn', hs, hs', hc, hm, hl]
  · cases x with
    | acceptThread => exact absurd hx ha'.1
    | _ => simpa [State.Unmade, hn, hn', hs, hs', hc, hm, hp] using hx

/-- The accept loop closes its client. -/
theorem LogKept.refuse (h : LogKept s log) (ha : s.accept = .check ∨ s.accept = .dial)
    (ha' : s'.accept = .done ∨ s'.accept = .test) (hc : s'.clients = s.clients ++ [.refused])
    (hm : s'.main = s.main) (hl : s'.listenSock = s.listenSock) (hp : s'.probes = s.probes) :
    LogKept s' (log ++ [.release (.client s.clients.length)]) := by
  have hn : s.accept.hasClient = true ∧ s.accept ≠ .spawn ∧ s.accept ≠ .unstarted ∧ s.accept ≠ .joined := by
    rcases ha with ha | ha <;> rw [ha] <;> simp [Accept.hasClient]
  have hn' : s'.accept.hasClient = false ∧ s'.accept ≠ .spawn ∧ s'.accept ≠ .unstarted ∧ s'.accept ≠ .joined := by
    rcases ha' with ha | ha <;> rw [ha] <;> simp [Accept.hasClient]
  refine h.release (.inr ⟨rfl, hn.1⟩) trivial (fun x => ?_) fun x hx => ?_
  · cases x with
    | client i =>
      by_cases hi : i = s.clients.length
      · subst hi
        simp [State.Holds, hc, hn', not_at_length]
      · simp [State.Holds, hc, hn', hi]
    | _ => simp [State.Holds, hc, hn, hn', hm, hl]
  · cases x with
    | acceptThread => exact absurd hx hn'.2.2.1
    | client i | stream i =>
      simp [State.Unmade, hc, hn'] at hx
      exact .inl (by omega)
    | worker i =>
      simp [State.Unmade, hc] at hx ⊢
      omega
    | _ => simpa only [State.Unmade, hm, hp] using hx

theorem AcceptStep.kept {e : AcceptEv} (h : AcceptStep s e s') (hl : s.listenSock = true) (hk : LogKept s s.log) :
    LogKept s' s'.log := by
  have hk₁ : LogKept s (s.log ++ [.use .listen]) := hk.use (.inl hl) trivial
  cases h with
  | enter ha | leave ha => exact hk.work (by simp [ha]) (by simp) (by rw [ha]; rfl) rfl rfl rfl rfl rfl
  | noClient ha => exact hk₁.work (by simp [ha]) (by simp) (by rw [ha]; rfl) rfl rfl rfl rfl rfl
  | @select ready ha =>
    refine hk₁.work (by simp [ha]) ?_ (by rw [ha]; rfl) ?_ rfl rfl rfl rfl <;> cases ready <;> simp [Accept.hasClient]
  | client ha =>
    show LogKept _ (s.log ++ [.use .listen, .acquire (.client s.clients.length)])
    rw [append_pair]
    refine hk₁.acquire (.inr ⟨rfl, by rw [ha]; rfl⟩) trivial (fun x => ?_) fun x hx => ?_
    · cases x <;> simp [State.Holds, State.does, ha, Accept.hasClient]
    · cases x with
      | client i =>
        simp [State.Unmade, State.does, ha, Accept.hasClient] at hx ⊢
        omega
      | acceptThread => cases hx
      | stream i => exact ⟨by simpa [State.Unmade, State.does, ha] using hx, by simp⟩
      | _ => exact ⟨hx, by simp⟩
  | check ha =>
    refine hk.congr (fun x => ?_) fun x hx => ?_
    · cases x <;> simp [State.Holds, ha, Accept.hasClient]
    · cases x with
      | acceptThread => cases hx
      | _ => simpa [State.Unmade, ha, Accept.hasClient] using hx
  | stop ha => exact hk.refuse (.inl ha) (.inl rfl) rfl rfl rfl rfl
  | noDial ha => exact hk.refuse (.inr ha) (.inr rfl) rfl rfl rfl rfl
  | dial ha =>
    refine hk.acquire (.inr ⟨rfl, by simp [ha]⟩) trivial (fun x => ?_) fun x hx => ?_
    · cases x <;> simp [State.Holds, State.does, ha, Accept.hasClient]
    · cases x with
      | stream i =>
        simp [State.Unmade, State.does, ha] at hx ⊢
        omega
      | acceptThread => cases hx
      | client i => exact ⟨by simpa [State.Unmade, State.does, ha, Accept.hasClient] using hx, by simp⟩
      | _ => exact ⟨hx, by simp⟩
  | spawn ha =>
    refine hk.acquire (Nat.le_refl _) trivial (fun x => ?_) fun x hx => ?_
    · cases x <;> simp [State.Holds, State.does, ha, Accept.hasClient, Open, Running, Pump.MeshForwarder.start, St.start]
    · cases x with
      | client i | stream i =>
        simp [State.Unmade, Accept.hasClient] at hx
        exact ⟨.inl (by omega), by simp⟩
      | worker i =>
        simp [State.Unmade] at hx ⊢
        omega
      | acceptThread => cases hx
      | _ => exact ⟨hx, by simp⟩

/-- What a worker does is in order: it uses the two sockets it has, and closes
each once. -/
theorem pump_kept {i : Nat} {p p' : St Pc} {e : Ev} {joinable : Bool}
    (hc : s.clients[i]? = some (.thread p joinable)) (he : e ≠ .shutdown)
    (hp : Pump.MeshForwarder.Step { p with running := s.running } e p')
    (hs' : s'.clients = s.clients.set i (.thread p' joinable)) (ha : s'.accept = s.accept)
    (hm : s'.main = s.main) (hl : s'.listenSock = s.listenSock) (hpr : s'.probes = s.probes)
    (hk : LogKept s s.log) : LogKept s' (s.log ++ pumpOps i p.pc) := by
  obtain ⟨hd, hdone, hmesh⟩ := pump_end hp he
  have hlt : i < s.clients.length := (List.getElem?_eq_some_iff.mp hc).1
  have hlen : s'.clients.length = s.clients.length := by rw [hs', List.length_set]
  have unmade : ∀ x, s'.Unmade x → s.Unmade x := by
    intro x hx
    cases x <;> simpa only [State.Unmade, hlen, ha, hm, hpr] using hx
  by_cases hcl : p.pc = .closeClient
  · have hop : pumpOps i p.pc = [.release (.client i)] := by rw [hcl]; rfl
    have hopen : s.Holds (.client i) := .inl ((at_iff hc).mpr (by simp [Open, hcl]))
    have hn : ¬Open p' := fun ho => ho.1 (hmesh.mpr hcl)
    have hr : Running p' ↔ Running p := iff_of_true (fun h => by simpa [hcl] using hdone.mp h) hd
    rw [hop]
    refine hk.release hopen trivial (fun x => ?_) unmade
    cases x with
    | client j =>
      simp only [State.Holds, hlen, ha, ne_eq, Res.client.injEq]
      rw [hs']
      exact at_is_drop_or hc hn fun hj => by omega
    | stream j => simp [State.Holds, ha, hs', at_is_step hc hr]
    | worker j => simp [State.Holds, hs', at_joinable_step hc]
    | _ => simp [State.Holds, ha, hm, hl]
  by_cases hcm : p.pc = .closeMesh
  · have hop : pumpOps i p.pc = [.release (.stream i)] := by rw [hcm]; rfl
    have hopen : s.Holds (.stream i) := .inl ((at_iff hc).mpr hd)
    have hn : ¬Running p' := not_not_intro (hdone.mpr hcm)
    have ho : Open p' ↔ Open p := iff_of_false (fun ho => ho.2 (hdone.mpr hcm)) fun ho => ho.1 hcm
    rw [hop]
    refine hk.release hopen trivial (fun x => ?_) unmade
    cases x with
    | stream j =>
      simp only [State.Holds, hlen, ha, ne_eq, Res.stream.injEq]
      rw [hs']
      exact at_is_drop_or hc hn fun hj => by omega
    | client j => simp [State.Holds, ha, hs', at_is_step hc ho]
    | worker j => simp [State.Holds, hs', at_joinable_step hc]
    | _ => simp [State.Holds, ha, hm, hl]
  · have hr : Running p' ↔ Running p := iff_of_true (mt hdone.mp hcm) hd
    have ho : Open p' ↔ Open p := iff_of_true ⟨mt hmesh.mp hcl, mt hdone.mp hcm⟩ ⟨hcm, hd⟩
    have hclient : s.Holds (.client i) := .inl ((at_iff hc).mpr ⟨hcm, hd⟩)
    have hstream : s.Holds (.stream i) := .inl ((at_iff hc).mpr hd)
    have hsource (d : Dir) : s.Holds (source i d) := by cases d <;> assumption
    have hsink (d : Dir) : s.Holds (sink i d) := by cases d <;> assumption
    have hnone : LogKept s (s.log ++ []) := by rwa [List.append_nil]
    have hlog : LogKept s (s.log ++ pumpOps i p.pc) := by
      unfold pumpOps
      split
      · rw [append_pair]
        exact Kept.use (hk.use hclient trivial) hstream trivial
      · exact hk.use (hsource _) trivial
      · exact hk.use (hsink _) trivial
      · exact hk.use (hsink _) trivial
      · exact hk.use (hsink _) trivial
      · exact absurd ‹_› hcl
      · exact absurd ‹_› hcm
      all_goals exact hnone
    refine hlog.congr (fun x => ?_) unmade
    cases x with
    | client j => simp [State.Holds, ha, hs', at_is_step hc ho]
    | stream j => simp [State.Holds, ha, hs', at_is_step hc hr]
    | worker j => simp [State.Holds, hs', at_joinable_step hc]
    | _ => simp only [State.Holds, ha, hm, hl]

theorem Step.kept {x : In} (h : Step s x s') (hp : s.Phase) (hk : LogKept s s.log) : LogKept s' s'.log := by
  cases h with
  | accept h => exact h.kept (hp.active h.active).2.1 hk
  | pump hc he hs => exact pump_kept hc he hs rfl rfl rfl rfl rfl hk
  | start hm | up hm =>
    refine hk.goto ?_ (fun _ => by rw [State.Unmade, hm]; simp) rfl rfl rfl
    simp [State.Holds, hm]
  | throws hm =>
    refine hk.goto ?_ nofun rfl rfl rfl
    rcases hm with hm | hm | hm <;> simp [State.Holds, State.throws, hm]
  | socket hm =>
    rw [State.Phase, hm] at hp
    refine hk.acquire (.inr (.inr hm)) trivial (fun x => ?_) fun x hx => ?_
    · cases x <;> simp [State.Holds, State.does]
    · cases x with
      | listen => simp [State.Unmade] at hx
      | _ => exact ⟨hx, by simp⟩
  | bind hm =>
    have hk₁ : LogKept s (s.log ++ [.use .listen]) := hk.use (.inr (.inl hm)) trivial
    refine hk₁.goto ?_ nofun rfl rfl rfl
    simp [State.Holds, hm]
  | broken hm =>
    have hs : s.Holds .listen := .inr hm
    have hl : s.listenSock = false := by
      rcases hm with hm | hm <;> rw [State.Phase, hm] at hp <;> exact hp.2
    show LogKept _ (s.log ++ [.use .listen, .release .listen])
    rw [append_pair]
    refine Kept.release (hk.use hs trivial) hs trivial (fun x => ?_) fun x hx => ?_
    · cases x <;> simp [State.Holds, State.does, State.throws, hl]
    · cases x with
      | listen => simp [State.Unmade, State.throws] at hx
      | _ => exact hx
  | listen hm =>
    rw [State.Phase, hm] at hp
    show LogKept _ (s.log ++ [.use .listen, .acquire .acceptThread])
    rw [append_pair]
    refine Kept.acquire (hk.use (.inr (.inr hm)) trivial) hp.1.1 trivial (fun x => ?_) fun x hx => ?_
    · cases x <;> simp [State.Holds, State.does, hm, hp.1.1, Accept.hasClient]
    · cases x with
      | listen => simp [State.Unmade] at hx
      | acceptThread => cases hx
      | client i | stream i => exact ⟨by simpa [State.Unmade, State.does, hp.1.1, Accept.hasClient] using hx, by simp⟩
      | _ => exact ⟨hx, by simp⟩
  | noProbe hm => exact hk
  | @probe ok hm =>
    refine hk.brief (Nat.le_refl s.probes) (fun _ _ _ => trivial) (fun x => ?_) fun x hx => ?_
    · cases x with
      | listen => cases ok <;> simp [State.Holds, State.does, hm]
      | _ => simp [State.Holds, State.does]
    · cases x with
      | listen => cases ok <;> simp [State.Unmade] at hx
      | probe j =>
        have hj : s.probes + 1 ≤ j := hx
        exact ⟨Nat.le_of_succ_le hj, by simp; omega⟩
      | _ => exact ⟨hx, by simp⟩
  | close hm | noAccept hm | notJoinable hm | clear hm =>
    refine hk.goto ?_ nofun rfl rfl rfl
    simp [State.Holds, hm]
  | joinAccept hm ha =>
    refine hk.release (by simp [State.Holds, ha]) trivial (fun x => ?_) fun x hx => ?_
    · cases x <;> simp [State.Holds, State.does, hm, ha, Accept.hasClient]
    · cases x with
      | listen => simp [State.Unmade] at hx
      | acceptThread => cases hx
      | _ => simpa [State.Unmade, State.does, ha, Accept.hasClient] using hx
  | joinWorker hm hc hd =>
    refine hk.release ((at_iff hc).mpr rfl) trivial (fun x => ?_) fun x hx => ?_
    · cases x <;> simp [State.Holds, State.does, hm, at_is_join hc, at_joinable_join hc]
    · cases x with
      | listen => simp [State.Unmade] at hx
      | _ => simpa [State.Unmade, State.does] using hx
  | @closeListen d hm hl =>
    refine hk.release (.inl hl) trivial (fun x => ?_) fun x hx => ?_
    · cases x with
      | listen => cases d <;> simp [State.Holds]
      | _ => simp [State.Holds, State.does]
    · cases x with
      | listen => cases d <;> simp [State.Unmade] at hx
      | _ => exact hx
  | @noListen d hm hl =>
    refine hk.goto ?_ (fun hu => ?_) rfl rfl rfl
    · cases d <;> simp [State.Holds, hm]
    · cases d <;> simp [State.Unmade] at hu

/-- The invariant of the object. -/
structure Inv (s : State) : Prop where
  phase : s.Phase
  joined : Joined Running s.clients
  kept : LogKept s s.log

theorem inv_start : Inv start where
  phase := ⟨⟨rfl, rfl, rfl⟩, rfl⟩
  joined := joined_nil
  kept := by
    refine Kept.nil fun x => ?_
    cases x <;> simp [State.Holds, start, not_at_nil, Accept.hasClient]

theorem Inv.step {x : In} (h : Inv s) (hs : Step s x s') : Inv s' :=
  ⟨hs.phase h.phase, hs.joined h.joined, hs.kept h.phase h.kept⟩

theorem inv_run {xs : List In} (h : Lts.Run State.step start xs s) : Inv s :=
  h.inv (P := Inv) (fun _ _ _ hi hs => hi.step (step_cases hs)) inv_start

/-- No thread of the object is running. -/
def State.Quiet (s : State) : Prop :=
  s.accept.active = false ∧ ∀ (i : Nat) p joinable, s.clients[i]? = some (.thread p joinable) → p.pc = .done

/-- When `Close` has returned no thread is running, and nothing is held. -/
theorem Inv.closed (h : Inv s) (hm : s.main = .idle .closed ∨ s.main = .destroyed) :
    s.Quiet ∧ ∀ r, ¬s.Holds r := by
  obtain ⟨hst, ht, -, hl⟩ : s.Stopped ∧ Tracked s.clients [] ∧ s.workers = [] ∧ s.listenSock = false := by
    have hp := h.phase
    rcases hm with hm | hm <;> rw [State.Phase, hm] at hp <;> exact hp
  have hrun : ∀ i, ¬At (Slot.Is Running) s.clients i := h.joined.ended ht
  have hn : s.accept.hasClient = false := by rcases hst with ha | ha <;> rw [ha] <;> rfl
  refine ⟨⟨by simpa using hst.not_active, fun i p joinable hc => ?_⟩, fun r hr => ?_⟩
  · by_contra hd
    exact hrun i ((at_iff hc).mpr hd)
  · cases r with
    | listen =>
      rcases hr with hr | hr | hr
      · rw [hl] at hr; cases hr
      all_goals rcases hm with hm | hm <;> rw [hm] at hr <;> cases hr
    | probe n => exact hr
    | client i =>
      rcases hr with ⟨c, hc, ho⟩ | ⟨-, hcl⟩
      · refine hrun i ⟨c, hc, ?_⟩
        cases c with
        | refused => exact ho
        | thread p joinable => exact ho.2
      · rw [hn] at hcl; cases hcl
    | stream i =>
      rcases hr with hr | ⟨-, ha⟩
      · exact hrun i hr
      · rw [ha] at hn; cases hn
    | acceptThread =>
      rcases hst with ha | ha
      · exact hr.1 ha
      · exact hr.2 ha
    | worker i => simpa using ht i hr

/-- In every run no socket or thread is touched after its release; and when
`Close` has returned, no thread is running, every client, stream, probe and
listener that was opened has been closed exactly once, and every thread that
was started has been joined exactly once. -/
theorem forwarder_conserves (xs : List In) (s : State) (h : Lts.Run State.step start xs s) :
    (∀ r, Over s.log r) ∧
      (s.main = .idle .closed ∨ s.main = .destroyed → s.Quiet ∧ ∀ r, ReleasedOnce s.log r) := by
  have hi := inv_run h
  refine ⟨hi.kept.afterRelease, fun hm => ?_⟩
  obtain ⟨hq, hh⟩ := hi.closed hm
  exact ⟨hq, fun r => hi.kept.releasedOnce (hh r)⟩

/-- A client whose dial fails and one that is served; then the probe times out
and the object is destroyed. -/
def timedOut : List In :=
  [.start, .startCall true, .startCall true, .startCall true, .startCall true, .probe true false, .accept .test,
    .accept (.select true), .accept (.accept true), .accept .test, .accept (.dial false), .accept .test,
    .accept (.select true), .accept (.accept true), .accept .test, .accept (.dial true), .accept (.spawn (.const 0)),
    .timeout, .destroy, .pump 1 .test, .accept .test, .closeStep, .pump 1 .call, .pump 1 .call, .closeStep,
    .closeStep, .closeStep]

theorem timedOut_conserves :
    ∃ s, Lts.Run State.step start timedOut s ∧ s.log = [.acquire .listen, .use .listen, .use .listen,
      .acquire .acceptThread, .acquire (.probe 0), .use (.probe 0), .release (.probe 0), .use .listen, .use .listen,
      .acquire (.client 0), .release (.client 0), .use .listen, .use .listen, .acquire (.client 1),
      .acquire (.stream 1), .acquire (.worker 1), .release .acceptThread, .release (.client 1), .release (.stream 1),
      .release (.worker 1), .release .listen] ∧ s.Quiet ∧ ∀ r, ReleasedOnce s.log r := by
  have hrun : ∃ s, Lts.Run State.step start timedOut s ∧ s.main = .destroyed ∧ s.log = [.acquire .listen,
      .use .listen, .use .listen, .acquire .acceptThread, .acquire (.probe 0), .use (.probe 0), .release (.probe 0),
      .use .listen, .use .listen, .acquire (.client 0), .release (.client 0), .use .listen, .use .listen,
      .acquire (.client 1), .acquire (.stream 1), .acquire (.worker 1), .release .acceptThread, .release (.client 1),
      .release (.stream 1), .release (.worker 1), .release .listen] := ⟨_, rfl, rfl, rfl⟩
  obtain ⟨s, hs, hm, hl⟩ := hrun
  exact ⟨s, hs, hl, (forwarder_conserves timedOut s hs).2 (.inr hm)⟩

end ErplTunnel.Lifecycle.MeshForwarder

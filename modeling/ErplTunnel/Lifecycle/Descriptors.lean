import ErplTunnel.Lifecycle.JoinBeforeFree

/-!
# Every descriptor is closed once

The descriptors of a `TunnelConnection`: the sockets `Connect` tries, the SSH
socket among them, the probes, the listener and the clients. In a run in which
`Connect` fails neither at the session nor at the handshake each is closed once
and not touched afterwards. At those two places `Connect` closes the SSH socket
and leaves its number in `ssh_socket_`, where the destructor's `Close` finds it.
-/

namespace ErplTunnel.Lifecycle.TunnelConnection

open Relay Pump Custody Pool
open Pump.ForwardData (Pc)

/-- The worker has an accepted client. -/
def Worker.hasClient : Worker → Bool
  | .check | .channel | .spawn => true
  | _ => false

/-- The worker has the listener. -/
def Worker.hasListener (w : Worker) : Bool := w.listening || w.hasClient

/-- The forwarder has not closed its client. -/
def Open (p : St Pc) : Prop := p.pc ≠ .channelFree ∧ p.pc ≠ .done

namespace State

/-- The descriptors that are open. -/
def HoldsFd (s : State) : Fd → Prop
  | .addr k => s.sshSocket = some k ∨ ∃ n, s.main = .connect k n
  | .probe _ => False
  | .listen => s.worker.hasListener = true
  | .client i => At (Slot.Is Open) s.clients i ∨ i = s.clients.length ∧ s.worker.hasClient = true

/-- The descriptors that have not been opened so far. -/
def UnmadeFd (s : State) : Fd → Prop
  | .addr k =>
    match s.main with
    | .idle .fresh | .resolve => True
    | .socket j _ => j ≤ k
    | .connect j _ => j < k
    | _ => False
  | .probe n => s.probes ≤ n
  | .listen => s.worker = .unstarted ∨ s.worker = .socket
  | .client i => s.clients.length < i ∨ i = s.clients.length ∧ s.worker.hasClient = false

end State

/-- The log of the descriptors is in order. -/
def FdsKept (s : State) (log : List (Op Fd)) : Prop := Kept (fun _ _ => True) s.HoldsFd s.UnmadeFd log

variable {s s' : State} {log : List (Op Fd)}

theorem FdsKept.nil (h : FdsKept s log) : FdsKept s (log ++ []) := by
  rwa [List.append_nil]

/-- A step of the owner's thread that opens and closes nothing. -/
theorem FdsKept.goto (h : FdsKept s log) (ha : ∀ k, s'.HoldsFd (.addr k) ↔ s.HoldsFd (.addr k))
    (hu : ∀ k, s'.UnmadeFd (.addr k) → s.UnmadeFd (.addr k)) (hw : s'.worker = s.worker)
    (hc : s'.clients = s.clients) (hp : s'.probes = s.probes) : FdsKept s' log := by
  refine h.congr (fun x => ?_) fun x hx => ?_
  · cases x with
    | addr k => exact ha k
    | _ => simp only [State.HoldsFd, hw, hc]
  · cases x with
    | addr k => exact hu k hx
    | _ => simpa only [State.UnmadeFd, hw, hc, hp] using hx

/-- libssh2 uses the SSH socket. -/
theorem FdsKept.ssh (h : FdsKept s log) : FdsKept s (log ++ s.ssh .use) := by
  unfold State.ssh
  cases hk : s.sshSocket with
  | none => exact h.nil
  | some k => exact h.use (.inl hk) trivial

/-- The worker has no client before and after the step. -/
theorem FdsKept.work (h : FdsKept s log) (hl : s'.worker.hasListener = s.worker.hasListener)
    (hn : s.worker.hasClient = false) (hn' : s'.worker.hasClient = false)
    (hu : s'.worker = .unstarted ∨ s'.worker = .socket → s.worker = .unstarted ∨ s.worker = .socket)
    (hc : s'.clients = s.clients) (hm : s'.main = s.main) (hs : s'.sshSocket = s.sshSocket)
    (hp : s'.probes = s.probes) : FdsKept s' log := by
  refine h.congr (fun x => ?_) fun x hx => ?_
  · cases x <;> simp [State.HoldsFd, hl, hn, hn', hc, hm, hs]
  · cases x with
    | listen => exact hu hx
    | client i => simpa [State.UnmadeFd, hn, hn', hc] using hx
    | _ => simpa only [State.UnmadeFd, hm, hp] using hx

/-- The worker has a client before and after the step. -/
theorem FdsKept.hold (h : FdsKept s log) (hw : s.worker.hasClient = true) (hw' : s'.worker.hasClient = true)
    (hc : s'.clients = s.clients) (hm : s'.main = s.main) (hs : s'.sshSocket = s.sshSocket)
    (hp : s'.probes = s.probes) : FdsKept s' log := by
  refine h.congr (fun x => ?_) fun x hx => ?_
  · cases x <;> simp [State.HoldsFd, Worker.hasListener, hw, hw', hc, hm, hs]
  · cases x with
    | listen => rcases hx with hu | hu <;> rw [hu] at hw' <;> cases hw'
    | client i => simpa [State.UnmadeFd, hw, hw', hc] using hx
    | _ => simpa only [State.UnmadeFd, hm, hp] using hx

/-- The worker closes the listener and returns. -/
theorem FdsKept.unlisten (h : FdsKept s log) (hl : s.worker.hasListener = true) (hn : s.worker.hasClient = false)
    (hw' : s'.worker = .done) (hc : s'.clients = s.clients) (hm : s'.main = s.main)
    (hs : s'.sshSocket = s.sshSocket) (hp : s'.probes = s.probes) :
    FdsKept s' (log ++ [.release .listen]) := by
  have hdone : s'.worker.hasListener = false ∧ s'.worker.hasClient = false := by rw [hw']; exact ⟨rfl, rfl⟩
  refine h.release hl trivial (fun x => ?_) fun x hx => ?_
  · cases x <;> simp [State.HoldsFd, hdone, hn, hc, hm, hs]
  · cases x with
    | listen => rw [State.UnmadeFd, hw'] at hx; simp at hx
    | client i => simpa [State.UnmadeFd, hdone, hn, hc] using hx
    | _ => simpa only [State.UnmadeFd, hm, hp] using hx

theorem Worker.hasClient_of_listening {w : Worker} (h : w.listening = true) : w.hasClient = false := by
  cases w <;> first | rfl | cases h

theorem Worker.hasListener_of_listening {w : Worker} (h : w.listening = true) : w.hasListener = true := by
  rw [Worker.hasListener, h]; rfl

theorem Worker.opened_of_listening {w : Worker} (h : w.listening = true) : ¬(w = .unstarted ∨ w = .socket) := by
  rintro (rfl | rfl) <;> cases h

/-- The worker closes its client. -/
theorem FdsKept.refuse (h : FdsKept s log) (hw : s.worker.hasClient = true) (hw' : s'.worker.listening = true)
    (hc : s'.clients = s.clients ++ [.refused]) (hm : s'.main = s.main) (hs : s'.sshSocket = s.sshSocket)
    (hp : s'.probes = s.probes) : FdsKept s' (log ++ [.release (.client s.clients.length)]) := by
  have hn' : s'.worker.hasClient = false := Worker.hasClient_of_listening hw'
  refine h.release (.inr ⟨rfl, hw⟩) trivial (fun x => ?_) fun x hx => ?_
  · cases x with
    | client i =>
      by_cases hi : i = s.clients.length
      · subst hi
        simp [State.HoldsFd, hc, hn', not_at_length]
      · simp [State.HoldsFd, hc, hn', hi]
    | _ => simp [State.HoldsFd, hw', hm, hs, Worker.hasListener, hw]
  · cases x with
    | listen => exact absurd hx (Worker.opened_of_listening hw')
    | client i =>
      simp [State.UnmadeFd, hc, hn'] at hx
      exact .inl (by omega)
    | _ => simpa only [State.UnmadeFd, hm, hp] using hx

theorem WorkerStep.fds {e : WorkerEv} (h : WorkerStep s e s') (hf : FdsKept s s.fds) : FdsKept s' s'.fds := by
  cases h with
  | noSocket hw => exact hf.work (by rw [hw]; rfl) (by rw [hw]; rfl) rfl nofun rfl rfl rfl rfl
  | socket hw =>
    refine hf.acquire (.inr hw) trivial (fun x => ?_) fun x hx => ?_
    · cases x <;> simp [State.HoldsFd, State.log, hw, Worker.hasListener, Worker.listening, Worker.hasClient]
    · cases x <;> simp [State.UnmadeFd, State.log, hw, Worker.hasClient] at hx ⊢ <;> exact hx
  | broken hw =>
    have hl : s.worker.hasListener = true := by rcases hw with hw | hw <;> rw [hw] <;> rfl
    have hn : s.worker.hasClient = false := by rcases hw with hw | hw <;> rw [hw] <;> rfl
    have hf₁ : FdsKept s (s.fds ++ [.use .listen]) := hf.use hl trivial
    show FdsKept _ (s.fds ++ [.use .listen, .release .listen])
    rw [append_pair]
    exact hf₁.unlisten hl hn rfl rfl rfl rfl rfl
  | listening hw hw' =>
    have hl : s.worker.hasListener = true := Worker.hasListener_of_listening hw
    have hf₁ : FdsKept s (s.fds ++ [.use .listen]) := hf.use hl trivial
    refine hf₁.work ?_ (Worker.hasClient_of_listening hw) (Worker.hasClient_of_listening hw') ?_ rfl rfl rfl rfl
    · exact (Worker.hasListener_of_listening hw').trans hl.symm
    · exact fun hu => absurd hu (Worker.opened_of_listening hw')
  | test hw hw' =>
    refine hf.work ?_ (by rw [hw]; rfl) (Worker.hasClient_of_listening hw') ?_ rfl rfl rfl rfl
    · rw [hw]
      exact Worker.hasListener_of_listening hw'
    · exact fun hu => absurd hu (Worker.opened_of_listening hw')
  | accept hw =>
    have hl : s.HoldsFd .listen := by rw [State.HoldsFd, hw]; rfl
    show FdsKept _ (s.fds ++ [.use .listen, .acquire (.client s.clients.length)])
    rw [append_pair]
    refine Kept.acquire (hf.use hl trivial) (.inr ⟨rfl, by rw [hw]; rfl⟩) trivial (fun x => ?_) fun x hx => ?_
    · cases x <;> simp [State.HoldsFd, State.log, hw, Worker.hasListener, Worker.listening, Worker.hasClient]
    · cases x with
      | client i =>
        simp [State.UnmadeFd, State.log, hw, Worker.hasClient] at hx ⊢
        omega
      | listen => simp [State.UnmadeFd] at hx
      | _ => exact ⟨hx, by simp⟩
  | check hw => exact hf.hold (by rw [hw]; rfl) rfl rfl rfl rfl rfl
  | stop hw => exact hf.refuse (by rw [hw]; rfl) rfl rfl rfl rfl rfl
  | channel hw => exact hf.ssh.hold (by rw [hw]; rfl) rfl rfl rfl rfl rfl
  | noChannel hw =>
    show FdsKept _ (s.fds ++ (s.ssh .use ++ [.release (.client s.clients.length)]))
    rw [← List.append_assoc]
    exact hf.ssh.refuse (by rw [hw]; rfl) rfl rfl rfl rfl rfl
  | spawn hw =>
    refine Kept.congr hf.nil (fun x => ?_) fun x hx => ?_
    · cases x <;> simp [State.HoldsFd, State.log, hw, Worker.hasListener, Worker.listening, Worker.hasClient,
        Open, ForwardData.start, St.start]
    · cases x with
      | client i =>
        simp [State.UnmadeFd, Worker.hasClient] at hx
        exact .inl (by omega)
      | listen => simp [State.UnmadeFd] at hx
      | _ => exact hx
  | closeListen hw => exact hf.unlisten (by rw [hw]; rfl) (by rw [hw]; rfl) rfl rfl rfl rfl rfl

/-- What a forwarder does is in order: it uses the client it has, and closes it
once. -/
theorem forwarder_fds {i : Nat} {p p' : St Pc} {e : Ev} {joinable : Bool}
    (hc : s.clients[i]? = some (.thread p joinable)) (he : e ≠ .shutdown)
    (hs : ForwardData.Step { p with running := s.isRunning } e p')
    (hs' : s'.clients = s.clients.set i (.thread p' joinable)) (hw : s'.worker = s.worker)
    (hm : s'.main = s.main) (hk : s'.sshSocket = s.sshSocket) (hpr : s'.probes = s.probes) (hf : FdsKept s s.fds) :
    FdsKept s' (s.fds ++ forwarderFds (s.ssh .use) i p.pc) := by
  obtain ⟨hd, hdone, hfree⟩ := forwarder_end hs he
  have hlt : i < s.clients.length := (List.getElem?_eq_some_iff.mp hc).1
  have hlen : s'.clients.length = s.clients.length := by rw [hs', List.length_set]
  have unmade : ∀ x, s'.UnmadeFd x → s.UnmadeFd x := by
    intro x hx
    cases x <;> simpa only [State.UnmadeFd, hlen, hw, hm, hpr] using hx
  have hwait : ∀ j, (j = s'.clients.length ∧ s'.worker.hasClient = true) ↔
      j = s.clients.length ∧ s.worker.hasClient = true := by
    intro j
    rw [hlen, hw]
  by_cases hcl : p.pc = .closeClient
  · have hop : forwarderFds (s.ssh .use) i p.pc = [.release (.client i)] := by rw [hcl]; rfl
    have hopen : s.HoldsFd (.client i) := .inl ((at_iff hc).mpr (by simp [Open, hcl]))
    have hn : ¬Open p' := fun ho => ho.1 (hfree.mpr hcl)
    rw [hop]
    refine hf.release hopen trivial (fun x => ?_) unmade
    cases x with
    | client j =>
      simp only [State.HoldsFd, hwait, ne_eq, Fd.client.injEq]
      rw [hs']
      exact at_is_drop_or hc hn fun hj => by omega
    | _ => simp [State.HoldsFd, hw, hm, hk]
  · have ho : Open p' ↔ Open p := by
      rw [Open, Open, ne_eq, ne_eq, hfree, hdone]
      exact ⟨fun h => ⟨h.2, hd⟩, fun h => ⟨hcl, h.1⟩⟩
    have huse (hnf : p.pc ≠ .channelFree) : FdsKept s (s.fds ++ [.use (.client i)]) :=
      hf.use (.inl ((at_iff hc).mpr ⟨hnf, hd⟩)) trivial
    have hlog : FdsKept s (s.fds ++ forwarderFds (s.ssh .use) i p.pc) := by
      unfold forwarderFds
      split
      · rename_i hpc; exact huse (by rw [hpc]; simp)
      · rename_i hpc; exact huse (by rw [hpc]; simp)
      · rename_i hpc; exact huse (by rw [hpc]; simp)
      · exact hf.ssh
      · exact hf.ssh
      · exact hf.ssh
      · exact hf.ssh
      · exact absurd ‹_› hcl
      all_goals exact hf.nil
    refine hlog.congr (fun x => ?_) unmade
    cases x with
    | client j =>
      simp only [State.HoldsFd, hwait]
      rw [hs', at_is_step hc ho]
    | _ => simp only [State.HoldsFd, hw, hm, hk]

/-- `Connect` fails where it closes a socket that stays in `ssh_socket_`. -/
def In.Strands (x : In) : Prop := x = .sessionInit false ∨ x = .handshake false

/-- Any other step keeps the log of the descriptors in order. -/
theorem Step.fds {x : In} (h : Step s x s') (hp : s.Phase) (hx : ¬x.Strands) (hf : FdsKept s s.fds) :
    FdsKept s' s'.fds := by
  cases h with
  | worker h => exact h.fds hf
  | forwarder hc he hs => exact forwarder_fds hc he hs rfl rfl rfl rfl rfl hf
  | noSession | noHandshake => exact absurd (by simp [In.Strands]) hx
  | @connect valid hm =>
    refine hf.goto (fun k => ?_) (fun k _ => ?_) rfl rfl rfl
    · cases valid <;> simp [State.HoldsFd, hm]
    · rw [State.UnmadeFd, hm]; trivial
  | @resolve n hm =>
    rw [State.Phase, hm] at hp
    refine hf.goto (fun k => ?_) (fun k _ => ?_) rfl rfl rfl
    · by_cases hn : 0 < n <;> simp [State.HoldsFd, hm, hp.2.2, hn]
    · rw [State.UnmadeFd, hm]; trivial
  | @noSocket k n hm =>
    refine hf.goto (fun j => ?_) (fun j hj => ?_) rfl rfl rfl
    · by_cases hn : k + 1 < n <;> simp [State.HoldsFd, State.nextAddr, hm, hn]
    · by_cases hn : k + 1 < n <;> simp [State.UnmadeFd, State.nextAddr, hm, hn] at hj ⊢
      omega
  | @socket k n hm =>
    rw [State.Phase, hm] at hp
    refine hf.acquire (by rw [State.UnmadeFd, hm]) trivial (fun x => ?_) fun x hx => ?_
    · cases x with
      | addr j => simp [State.HoldsFd, State.log, hm, hp.2.2, eq_comm (a := k)]
      | _ => simp [State.HoldsFd, State.log]
    · cases x with
      | addr j => simp [State.UnmadeFd, hm] at hx ⊢; omega
      | _ => exact ⟨hx, by simp⟩
  | @refused k n hm =>
    rw [State.Phase, hm] at hp
    have hk : s.HoldsFd (.addr k) := .inr ⟨n, hm⟩
    show FdsKept _ (s.fds ++ [.use (.addr k), .release (.addr k)])
    rw [append_pair]
    refine Kept.release (hf.use hk trivial) hk trivial (fun x => ?_) fun x hx => ?_
    · cases x with
      | addr j =>
        by_cases hn : k + 1 < n <;> simp [State.HoldsFd, State.nextAddr, State.log, hm, hp.2.2, hn, eq_comm (a := k)]
      | _ => simp [State.HoldsFd, State.nextAddr, State.log]
    · cases x with
      | addr j =>
        by_cases hn : k + 1 < n <;> simp [State.UnmadeFd, State.nextAddr, hm, hn] at hx ⊢
        omega
      | _ => exact hx
  | @connected k n hm =>
    rw [State.Phase, hm] at hp
    refine FdsKept.goto (hf.use (.inr ⟨n, hm⟩) trivial) (fun j => ?_) (fun _ h => by cases h) rfl rfl rfl
    simp [State.HoldsFd, hm, hp.2.2]
  | session hm =>
    refine hf.nil.goto (fun k => ?_) (fun _ h => by cases h) rfl rfl rfl
    simp [State.HoldsFd, State.log, hm]
  | handshake hm | shutdownWrite hm | freeSession hm =>
    refine hf.ssh.goto (fun k => ?_) (fun _ h => by cases h) rfl rfl rfl
    simp [State.HoldsFd, State.log, hm]
  | @authenticate ok hm =>
    refine hf.ssh.goto (fun k => ?_) (fun k hk => ?_) rfl rfl rfl
    · simp [State.HoldsFd, State.log, hm]
    · cases ok <;> cases hk
  | noCredentials hm | close hm =>
    refine hf.goto (fun k => ?_) (fun _ h => by cases h) rfl rfl rfl
    simp [State.HoldsFd, hm]
  | startWorker hm =>
    rw [State.Phase, hm] at hp
    refine Kept.congr hf.nil (fun x => ?_) fun x hx => ?_
    · cases x <;> simp [State.HoldsFd, State.log, hm, hp.1.1, Worker.hasListener, Worker.listening, Worker.hasClient]
    · cases x with
      | addr k => cases hx
      | listen => exact .inl hp.1.1
      | probe n => exact hx
      | client i => simpa [State.UnmadeFd, State.log, hp.1.1, Worker.hasClient] using hx
  | probe hm =>
    refine hf.brief (Nat.le_refl s.probes) (fun _ _ _ => trivial) (fun x => ?_) fun x hx => ?_
    · cases x <;> simp [State.HoldsFd, State.log]
    · cases x with
      | probe j =>
        have hj : s.probes + 1 ≤ j := hx
        exact ⟨Nat.le_of_succ_le hj, by simp; omega⟩
      | _ => exact ⟨hx, by simp⟩
  | joinWorker hm hw =>
    refine Kept.congr hf.nil (fun x => ?_) fun x hx => ?_
    · cases x <;> simp [State.HoldsFd, State.log, hm, hw, Worker.hasListener, Worker.listening, Worker.hasClient]
    · cases x <;> simp [State.UnmadeFd, State.log, hw, Worker.hasClient] at hx ⊢ <;> exact hx
  | noWorker hm | notJoinable hm | clear hm | nothingToFree hm =>
    refine hf.goto (fun k => ?_) (fun _ h => by cases h) rfl rfl rfl
    simp [State.HoldsFd, hm]
  | joinForwarder hm hc hd =>
    refine Kept.congr hf.nil (fun x => ?_) fun x hx => ?_
    · cases x <;> simp [State.HoldsFd, State.log, hm, at_is_join hc]
    · cases x with
      | addr k => cases hx
      | _ => simpa [State.UnmadeFd, State.log] using hx
  | @closeSocket d hm =>
    have hmain : ∀ j n, (if d then Main.destroyed else .idle .closed) ≠ .connect j n := by
      intro j n
      cases d <;> simp
    show FdsKept _ (s.fds ++ s.ssh .release)
    unfold State.ssh
    cases hk : s.sshSocket with
    | none =>
      refine hf.nil.goto (fun j => ?_) (fun j hj => ?_) rfl rfl rfl
      · simp [State.HoldsFd, hm, hk, hmain]
      · cases d <;> cases hj
    | some k =>
      refine hf.release (.inl hk) trivial (fun x => ?_) fun x hx => ?_
      · cases x with
        | addr j => simp [State.HoldsFd, hm, hk, hmain, eq_comm (a := k)]
        | _ => simp [State.HoldsFd, State.log]
      · cases x with
        | addr j => cases d <;> cases hx
        | _ => exact hx

/-- The SSH socket has been closed and is touched again, or will be: its number
is in `ssh_socket_`, and the next call is `Close`. -/
def State.Stranded (s : State) : Prop :=
  ∃ k l₁ l₂, s.fds = l₁ ++ .release (.addr k) :: l₂ ∧
    (.use (.addr k) ∈ l₂ ∨ s.Unstarted ∧ s.sshSocket = some k ∧
      (s.main = .idle .failed ∨ ∃ d, s.main = .close .shutdownWrite d))

theorem Step.fds_prefix {x : In} (h : Step s x s') : s.fds <+: s'.fds := by
  cases h with
  | worker h => cases h <;> first | exact List.prefix_rfl | exact List.prefix_append _ _
  | _ => first | exact List.prefix_rfl | exact List.prefix_append _ _

/-- After the two failures the object is bound to touch the closed socket. -/
theorem State.Stranded.step {x : In} (h : s.Stranded) (hs : Step s x s') : s'.Stranded := by
  obtain ⟨k, l₁, l₂, hl, hk⟩ := h
  obtain ⟨ext, hext⟩ := hs.fds_prefix
  have hl' : s'.fds = l₁ ++ .release (.addr k) :: (l₂ ++ ext) := by rw [← hext, hl]; simp
  rcases hk with hk | ⟨hu, hk, hm⟩
  · exact ⟨k, l₁, l₂ ++ ext, hl', .inl (List.mem_append_left _ hk)⟩
  · cases hs with
    | worker h =>
      have ha := h.active
      rw [hu.1] at ha; cases ha
    | forwarder hc => rw [hu.2.1] at hc; cases hc
    | close => exact ⟨k, l₁, l₂, hl, .inr ⟨hu, hk, .inr ⟨_, rfl⟩⟩⟩
    | shutdownWrite =>
      have hssh : s.ssh .use = [.use (.addr k)] := by rw [State.ssh, hk]; rfl
      refine ⟨k, l₁, l₂ ++ [.use (.addr k)], ?_, .inl (by simp)⟩
      show s.fds ++ s.ssh .use = _
      rw [hssh, hl]; simp
    | _ hm' =>
      rcases hm with hm | ⟨d, hm⟩ <;> rw [hm] at hm' <;> cases hm'

/-- The two failures strand the socket. -/
theorem Step.stranded {x : In} (h : Step s x s') (hp : s.Phase) (hx : x.Strands) : s'.Stranded := by
  cases h with
  | noSession hm =>
    rw [State.Phase, hm] at hp
    obtain ⟨k, hk⟩ := Option.isSome_iff_exists.mp hp.2.2
    have hssh : s.ssh .release = [.release (.addr k)] := by rw [State.ssh, hk]; rfl
    refine ⟨k, s.fds, [], ?_, .inr ⟨hp.1, hk, .inl rfl⟩⟩
    show s.fds ++ s.ssh .release = _
    rw [hssh]
  | noHandshake hm =>
    rw [State.Phase, hm] at hp
    obtain ⟨k, hk⟩ := Option.isSome_iff_exists.mp hp.2.2
    have hssh : s.ssh .use ++ s.ssh .release = [.use (.addr k), .release (.addr k)] := by
      rw [State.ssh, State.ssh, hk]; rfl
    refine ⟨k, s.fds ++ [.use (.addr k)], [], ?_, .inr ⟨hp.1, hk, .inl rfl⟩⟩
    show s.fds ++ (s.ssh .use ++ s.ssh .release) = _
    rw [hssh]; simp
  | close hm hx' => rename_i d; cases d <;> subst hx' <;> simp [In.Strands] at hx
  | _ => simp [In.Strands] at hx

theorem fds_kept_or_stranded {xs : List In} (h : Lts.Run State.step start xs s) :
    (∀ x ∈ xs, ¬x.Strands) ∧ FdsKept s s.fds ∨ (∃ x ∈ xs, x.Strands) ∧ s.Stranded := by
  refine h.history
    (P := fun xs t => (∀ x ∈ xs, ¬x.Strands) ∧ FdsKept t t.fds ∨ (∃ x ∈ xs, x.Strands) ∧ t.Stranded)
    (.inl ⟨by simp, ?_⟩) fun xs t x u ht ih hu => ?_
  · refine Kept.nil fun x => ?_
    cases x <;> simp [State.HoldsFd, start, not_at_nil, Worker.hasListener, Worker.listening, Worker.hasClient]
  · have hs : Step t x u := step_cases hu
    have hp : t.Phase := (inv_run ht).phase
    rcases ih with ⟨hxs, hf⟩ | ⟨⟨y, hy, hst⟩, hst'⟩
    · by_cases hx : x.Strands
      · exact .inr ⟨⟨x, by simp, hx⟩, hs.stranded hp hx⟩
      · refine .inl ⟨fun y hy => ?_, hs.fds hp hx hf⟩
        rcases List.mem_append.mp hy with hy | hy
        · exact hxs y hy
        · rwa [List.mem_singleton.mp hy]
    · exact .inr ⟨⟨y, List.mem_append_left _ hy, hst⟩, hst'.step hs⟩

/-- At the end there is no SSH socket. -/
theorem unlinked_of_destroyed {xs : List In} (h : Lts.Run State.step start xs s) :
    s.main = .destroyed → s.sshSocket = none := by
  refine h.inv (P := fun s => s.main = .destroyed → s.sshSocket = none) (fun s x s' ih hs => ?_) nofun
  cases step_cases hs with
  | worker h =>
    obtain ⟨hm, -, hk⟩ := h.frame
    rwa [hm, hk]
  | forwarder => exact ih
  | closeSocket => exact fun _ => rfl
  | probe hm => exact fun hd => absurd (hm.symm.trans hd) (by simp)
  | @connect valid | @authenticate valid => cases valid <;> exact nofun
  | @resolve n => by_cases hn : 0 < n <;> simp [hn]
  | @noSocket k n | @refused k n => by_cases hn : k + 1 < n <;> simp [State.nextAddr, hn]
  | _ => exact nofun

/-- At the end nothing is open. -/
theorem not_holdsFd_of_destroyed (hq : s.Quiet) (hm : s.main = .destroyed) (hk : s.sshSocket = none) (r : Fd) :
    ¬s.HoldsFd r := by
  obtain ⟨hw, hd, -⟩ := hq
  have hl : s.worker.hasListener = false ∧ s.worker.hasClient = false := by
    cases hs : s.worker <;> rw [hs] at hw <;> first | exact ⟨rfl, rfl⟩ | cases hw
  cases r with
  | addr k => simp [State.HoldsFd, hm, hk]
  | probe n => exact id
  | listen => simp [State.HoldsFd, hl]
  | client i =>
    rintro (⟨c, hc, ho⟩ | ⟨-, hn⟩)
    · cases c with
      | refused => exact ho
      | thread p joinable => exact ho.2 (hd i p joinable hc)
    · rw [hl.2] at hn; cases hn

/-- In a run to the end of the object every descriptor that was opened has been
closed exactly once, and is not shut down, used or closed after that, if and
only if `Connect` failed neither at `libssh2_session_init` nor at the
handshake. -/
theorem descriptors_closed_once_iff (xs : List In) (s : State) (h : Lts.Run State.step start xs s)
    (hm : s.main = .destroyed) :
    (∀ r, ReleasedOnce s.fds r ∧ Over s.fds r) ↔ .sessionInit false ∉ xs ∧ .handshake false ∉ xs := by
  rcases fds_kept_or_stranded h with ⟨hxs, hf⟩ | ⟨⟨x, hx, hst⟩, k, l₁, l₂, hl, hk⟩
  · have hq : s.Quiet := (inv_run h).quiet (.inr hm)
    have hclosed : ∀ r, ¬s.HoldsFd r := not_holdsFd_of_destroyed hq hm (unlinked_of_destroyed h hm)
    refine iff_of_true (fun r => ⟨hf.releasedOnce (hclosed r), hf.afterRelease r⟩) ⟨fun hx => ?_, fun hx => ?_⟩
    · exact hxs _ hx (.inl rfl)
    · exact hxs _ hx (.inr rfl)
  · refine iff_of_false (fun hall => ?_) fun hn => ?_
    · rcases hk with hk | ⟨-, -, hm' | ⟨d, hm'⟩⟩
      · exact (hall (.addr k)).2 l₁ l₂ hl _ hk rfl
      · rw [hm] at hm'; cases hm'
      · rw [hm] at hm'; cases hm'
    · rcases hst with rfl | rfl
      · exact hn.1 hx
      · exact hn.2 hx

/-- A second address answers, a client is refused a channel, and the tunnel is
closed and destroyed. -/
def refusedChannel : List In :=
  [.connect true, .resolve 2, .socket true, .connected false, .socket true, .connected true, .sessionInit true,
    .handshake true, .authenticate true true, .startWorker, .worker (.answer true), .worker (.answer true),
    .worker (.answer true), .probe, .worker .test, .worker (.select (.ready true false)), .worker (.accept .client),
    .worker .test, .worker (.answer false), .destroy, .worker .test, .worker .call, .closeStep, .closeStep,
    .closeStep, .closeStep, .closeStep]

theorem refusedChannel_closed_once :
    ∃ s, Lts.Run State.step start refusedChannel s ∧ s.fds = [.acquire (.addr 0), .use (.addr 0), .release (.addr 0),
      .acquire (.addr 1), .use (.addr 1), .use (.addr 1), .use (.addr 1), .acquire .listen, .use .listen, .use .listen,
      .acquire (.probe 0), .use (.probe 0), .release (.probe 0), .use .listen, .use .listen, .acquire (.client 0),
      .use (.addr 1), .release (.client 0), .release .listen, .use (.addr 1), .use (.addr 1), .release (.addr 1)] ∧
      ∀ r, ReleasedOnce s.fds r ∧ Over s.fds r := by
  have hrun : ∃ s, Lts.Run State.step start refusedChannel s ∧ s.main = .destroyed ∧ s.fds = [.acquire (.addr 0),
      .use (.addr 0), .release (.addr 0), .acquire (.addr 1), .use (.addr 1), .use (.addr 1), .use (.addr 1),
      .acquire .listen, .use .listen, .use .listen, .acquire (.probe 0), .use (.probe 0), .release (.probe 0),
      .use .listen, .use .listen, .acquire (.client 0), .use (.addr 1), .release (.client 0), .release .listen,
      .use (.addr 1), .use (.addr 1), .release (.addr 1)] := ⟨_, rfl, rfl, rfl⟩
  obtain ⟨s, hs, hm, hf⟩ := hrun
  exact ⟨s, hs, hf, (descriptors_closed_once_iff refusedChannel s hs hm).mpr (by simp [refusedChannel])⟩

/-- The handshake fails, `Connect` throws, and the object is destroyed. -/
def failedHandshake : List In :=
  [.connect true, .resolve 1, .socket true, .connected true, .sessionInit true, .handshake false, .destroy,
    .closeStep, .closeStep, .closeStep, .closeStep, .closeStep]

theorem failedHandshake_closes_twice :
    ¬∀ xs s, Lts.Run State.step start xs s → s.main = .destroyed → ∀ r, ReleasedOnce s.fds r ∧ Over s.fds r := by
  intro h
  have hrun : ∃ s, Lts.Run State.step start failedHandshake s ∧ s.main = .destroyed ∧
      s.fds = [.acquire (.addr 0), .use (.addr 0), .use (.addr 0), .release (.addr 0), .use (.addr 0), .use (.addr 0),
        .release (.addr 0)] := ⟨_, rfl, rfl, rfl⟩
  obtain ⟨s, hs, hm, hf⟩ := hrun
  have hone : ReleasedOnce s.fds (.addr 0) := (h failedHandshake s hs hm (.addr 0)).1
  rw [hf] at hone
  have htwo := hone (by decide)
  exact absurd htwo (by decide)

end ErplTunnel.Lifecycle.TunnelConnection

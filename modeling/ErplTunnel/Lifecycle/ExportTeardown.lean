import ErplTunnel.Lifecycle.SshExporter

/-!
# The teardown of an SshExporter

A worker's thread is with the accept loop until it is in the list, then in the
list, and with whoever joins it after that; the log is in order in every run.
The listener is cancelled and the session freed, in this order, when every
thread has been joined, and no thread is started after that.
-/

namespace ErplTunnel.Lifecycle.SshExporter

open Relay Pump Custody Pool
open Pump.SshExporter (Pc)

/-- At `pc` a pump has its socket to the local service. -/
def hasLocal : Pc → Bool
  | .dial | .channelClose | .channelFree | .done => false
  | _ => true

/-- Once a pump has dialled, it has its socket until it closes it. -/
theorem pump_end {p p' : St Pc} {e : Ev} (h : Pump.SshExporter.Step p e p') (he : e ≠ .shutdown)
    (hd : p.pc ≠ .dial) :
    p.pc ≠ .done ∧ p'.pc ≠ .dial ∧ (hasLocal p'.pc = true ↔ hasLocal p.pc = true ∧ p.pc ≠ .closeLocal) := by
  cases h with
  | shutdown => exact absurd rfl he
  | dial hpc => exact absurd hpc hd
  | @fits fits hpc => cases fits <;> simp [hpc, St.goto, hasLocal]
  | serviceChunk hpc | channelChunk hpc => simp [hpc, St.take, hasLocal]
  | write hpc => simp [hpc, St.give, hasLocal]
  | @channelAgain idle hpc | @channelOpen idle hpc =>
    cases idle <;> simp [hpc, St.goto, Pump.SshExporter.next, hasLocal]
  | send hpc hs => cases hs <;> simp [hpc, St.goto, St.give, hasLocal]
  | _ hpc => simp [hpc, St.goto, hasLocal]

/-- The worker has not set its flag. -/
def Running (w : Worker) : Prop := w ≠ .finished

/-- The worker has not dialled the local service. -/
def AtDial : Worker → Prop
  | .pumping p _ => p.pc = .dial
  | .finished => False

/-- The worker has socket `k` to the local service. -/
def HasLocal (k : Nat) : Worker → Prop
  | .pumping p sock => sock = some k ∧ hasLocal p.pc = true
  | .finished => False

namespace Accept

/-- The accept loop makes calls yet. -/
def active : Accept → Bool
  | .unstarted | .done | .joined => false
  | _ => true

/-- The workers that the accept loop has taken out of the list, or has not put
into it. -/
def carries : Accept → List Nat
  | .join finished => finished
  | .push i => [i]
  | _ => []

end Accept

/-- How far `Start` has come. -/
def Main.progress : Main → Nat
  | .idle .fresh => 0
  | .dialSsh => 1
  | .fits => 2
  | .sessionInit => 3
  | .handshake => 4
  | .auth => 5
  | .listen => 6
  | .bound => 7
  | _ => 8

theorem Main.progress_le (m : Main) : m.progress ≤ 8 := by
  unfold progress
  split <;> omega

/-- The accept loop may run. -/
def Main.serving : Main → Bool
  | .idle .started | .close .joinAccept _ => true
  | _ => false

namespace State

/-- The accept loop has not been started. -/
def Unstarted (s : State) : Prop := s.accept = .unstarted ∧ s.served = [] ∧ s.workers = []

/-- There is no accept loop to join. -/
def Stopped (s : State) : Prop := s.accept = .unstarted ∨ s.accept = .joined

/-- There is no thread to join. -/
def Ended (s : State) : Prop := s.Stopped ∧ Tracked s.served [] ∧ s.workers = []

/-- What holds at each place of the owner's thread. -/
def Phase (s : State) : Prop :=
  match s.main with
  | .idle .fresh | .dialSsh => s.Unstarted ∧ s.listener = false ∧ s.session = false ∧ s.sshSocket = none
  | .fits | .sessionInit => s.Unstarted ∧ s.listener = false ∧ s.session = false
  | .handshake | .auth | .listen => s.Unstarted ∧ s.listener = false ∧ s.session = true
  | .bound => s.Unstarted ∧ s.listener = true ∧ s.session = true
  | .idle .started | .close .joinAccept _ => Tracked s.served (s.workers ++ s.accept.carries)
  | .close .swap _ => s.Stopped ∧ Tracked s.served s.workers
  | .close (.joinWorkers pending) _ => s.Stopped ∧ Tracked s.served pending ∧ s.workers = []
  | .close .cancel _ => s.Ended
  | .close .freeSession _ => s.Ended ∧ s.listener = false
  | .close .closeSocket _ => s.Ended ∧ s.listener = false ∧ s.session = false
  | .idle .closed | .idle .failed | .destroyed =>
    s.Ended ∧ s.listener = false ∧ s.session = false ∧ s.sshSocket = none

/-- The session is there for the listener and for whoever runs. -/
def Linked (s : State) : Prop :=
  (s.listener = true → s.session = true) ∧ (s.accept.active = true → s.session = true) ∧
    ∀ i, At (Slot.Is Running) s.served i → s.session = true

variable {s s' : State}

theorem Stopped.not_active (h : s.Stopped) : ¬s.accept.active = true := by
  rcases h with ha | ha <;> rw [ha] <;> nofun

theorem Stopped.carries (h : s.Stopped) : s.accept.carries = [] := by
  rcases h with ha | ha <;> rw [ha] <;> rfl

theorem Unstarted.tracked (h : s.Unstarted) (ids : List Nat) : Tracked s.served ids :=
  h.2.1 ▸ tracked_nil

theorem Unstarted.ended (h : s.Unstarted) : s.Ended :=
  ⟨.inl h.1, h.tracked _, h.2.2⟩

/-- Where `Close` may be called, it finds every worker in the list or with the
accept loop. -/
theorem Phase.idle {stage : Stage} (h : s.Phase) (hm : s.main = .idle stage) :
    Tracked s.served (s.workers ++ s.accept.carries) := by
  rw [Phase, hm] at h
  cases stage with
  | fresh => exact h.1.tracked _
  | started => exact h
  | closed | failed => exact h.1.2.1.mono (List.nil_subset _)

/-- While the accept loop runs, the owner has not come to the joins. -/
theorem Phase.active (h : s.Phase) (ha : s.accept.active = true) :
    s.main.serving = true ∧ Tracked s.served (s.workers ++ s.accept.carries) := by
  have unstarted (hu : s.Unstarted) : False := hu.ended.1.not_active ha
  have ended (he : s.Ended) : False := he.1.not_active ha
  unfold Phase at h
  split at h
  case h_9 hm => rw [hm]; exact ⟨rfl, h⟩
  case h_10 hm => rw [hm]; exact ⟨rfl, h⟩
  all_goals first | exact absurd ha h.1.not_active | exact (unstarted h.1).elim | exact (ended h.1).elim

theorem Phase.ofServing (hm : s.main.serving = true) (ht : Tracked s.served (s.workers ++ s.accept.carries)) :
    s.Phase := by
  unfold Phase
  unfold Main.serving at hm
  split at hm
  · rename_i h; rw [h]; exact ht
  · rename_i h; rw [h]; exact ht
  · cases hm

/-- A step of a worker. -/
theorem Phase.work {i : Nat} {w w' : Worker} {joinable : Bool} (h : s.Phase)
    (hc : s.served[i]? = some (.thread w joinable)) (hs' : s'.served = s.served.set i (.thread w' joinable))
    (hm : s'.main = s.main) (hl : s'.listener = s.listener) (hss : s'.session = s.session)
    (hk : s'.sshSocket = s.sshSocket) (ha : s'.accept = s.accept) (hw : s'.workers = s.workers) : s'.Phase := by
  have unstarted (hu : s.Unstarted) : False := by rw [hu.2.1] at hc; cases hc
  have stopped : s.Stopped → s'.Stopped := by rw [Stopped, Stopped, ha]; exact id
  have tracked {ids : List Nat} (ht : Tracked s.served ids) : Tracked s'.served ids := by
    rw [hs']; exact ht.step hc
  have ended (he : s.Ended) : s'.Ended := ⟨stopped he.1, tracked he.2.1, hw ▸ he.2.2⟩
  unfold Phase at h ⊢
  rw [hm]
  split at h
  · exact (unstarted h.1).elim
  · exact (unstarted h.1).elim
  · exact (unstarted h.1).elim
  · exact (unstarted h.1).elim
  · exact (unstarted h.1).elim
  · exact (unstarted h.1).elim
  · exact (unstarted h.1).elim
  · exact (unstarted h.1).elim
  · show Tracked _ _; rw [hw, ha]; exact tracked h
  · show Tracked _ _; rw [hw, ha]; exact tracked h
  · exact ⟨stopped h.1, hw ▸ tracked h.2⟩
  · exact ⟨stopped h.1, tracked h.2.1, hw ▸ h.2.2⟩
  · exact ended h
  · exact ⟨ended h.1, hl ▸ h.2⟩
  · exact ⟨ended h.1, hl ▸ h.2.1, hss ▸ h.2.2⟩
  · exact ⟨ended h.1, hl ▸ h.2.1, hss ▸ h.2.2.1, hk ▸ h.2.2.2⟩
  · exact ⟨ended h.1, hl ▸ h.2.1, hss ▸ h.2.2.1, hk ▸ h.2.2.2⟩
  · exact ⟨ended h.1, hl ▸ h.2.1, hss ▸ h.2.2.1, hk ▸ h.2.2.2⟩

end State

variable {s s' : State}

namespace JoinStep

variable {i : Nat} (h : JoinStep s i s')
include h

/-- What a join leaves alone. -/
theorem frame : s'.main = s.main ∧ s'.listener = s.listener ∧ s'.session = s.session ∧
    s'.sshSocket = s.sshSocket ∧ s'.accept = s.accept ∧ s'.workers = s.workers := by
  cases h <;> exact ⟨rfl, rfl, rfl, rfl, rfl, rfl⟩

theorem tracked {ids : List Nat} (ht : Tracked s.served (i :: ids)) : Tracked s'.served ids := by
  cases h with
  | joined hc => exact ht.join hc
  | notJoinable hc => exact ht.skip hc

theorem joined_running (hj : Joined Running s.served) : Joined Running s'.served := by
  cases h with
  | joined hc => exact hj.join hc (not_not_intro rfl)
  | notJoinable => exact hj

theorem is_iff {q : Worker → Prop} {j : Nat} : At (Slot.Is q) s'.served j ↔ At (Slot.Is q) s.served j := by
  cases h with
  | joined hc => exact at_is_join hc
  | notJoinable => exact Iff.rfl

end JoinStep

namespace AcceptStep

variable {e : AcceptEv} (h : AcceptStep s e s')
include h

theorem active : s.accept.active = true := by
  cases h with
  | leave ha => rcases ha with ha | ha <;> rw [ha] <;> rfl
  | _ ha => rw [ha]; rfl

/-- What the accept loop leaves alone. -/
theorem frame : s'.main = s.main ∧ s'.listener = s.listener ∧ s'.session = s.session ∧
    s'.sshSocket = s.sshSocket := by
  cases h with
  | join ha hj => exact ⟨hj.frame.1, hj.frame.2.1, hj.frame.2.2.1, hj.frame.2.2.2.1⟩
  | _ => exact ⟨rfl, rfl, rfl, rfl⟩

/-- A worker that is not joined stays in the list or with the accept loop. -/
theorem tracked (ht : Tracked s.served (s.workers ++ s.accept.carries)) :
    Tracked s'.served (s'.workers ++ s'.accept.carries) := by
  cases h with
  | leave ha => rcases ha with ha | ha <;> rw [ha] at ht <;> exact ht
  | @accept r ha =>
    rw [ha] at ht
    cases r <;> exact ht
  | reap ha =>
    rw [ha] at ht
    refine ht.mono fun i hi => ?_
    have hi : i ∈ s.workers := by simpa [Accept.carries] using hi
    cases hd : s.isDone i <;> simp [Accept.carries, hi, hd]
  | @join i finished s₁ ha hj =>
    rw [ha] at ht
    show Tracked s₁.served (s₁.workers ++ finished)
    rw [hj.frame.2.2.2.2.2]
    refine hj.tracked (ht.mono fun j hj => ?_)
    simp only [Accept.carries, List.mem_append, List.mem_cons] at hj ⊢
    tauto
  | spawn ha =>
    rw [ha] at ht
    have hw : Tracked s.served s.workers := by simpa [Accept.carries] using ht
    exact hw.spawn
  | push ha =>
    rw [ha] at ht
    simpa [Accept.carries] using ht
  | _ ha => rw [ha] at ht; exact ht

theorem joined (hj : Joined Running s.served) : Joined Running s'.served := by
  cases h with
  | join ha hs => exact hs.joined_running hj
  | spawn => exact hj.spawn
  | _ => exact hj

theorem linked (hl : s.Linked) : s'.Linked := by
  obtain ⟨-, hlist, hsess, -⟩ := h.frame
  have hs : s'.session = true := hsess ▸ hl.2.1 h.active
  exact ⟨fun _ => hs, fun _ => hs, fun _ _ => hs⟩

end AcceptStep

theorem Step.joined {x : In} (h : Step s x s') (hj : Joined Running s.served) : Joined Running s'.served := by
  cases h with
  | accept h => exact h.joined hj
  | joinWorker hm hs => exact hs.joined_running hj
  | dial hc | pump hc | finish hc => exact hj.step hc nofun
  | _ => exact hj

theorem Step.phase {x : In} (h : Step s x s') (hp : s.Phase) : s'.Phase := by
  cases h with
  | accept h =>
    obtain ⟨hs, ht⟩ := hp.active h.active
    exact .ofServing (h.frame.1 ▸ hs) (h.tracked ht)
  | dial hc | pump hc | finish hc => exact hp.work hc rfl rfl rfl rfl rfl rfl rfl
  | close hm => exact hp.idle hm
  | noService hm | noSsh hm => rw [State.Phase, hm] at hp; exact ⟨hp.1.ended, hp.2⟩
  | ssh hm => rw [State.Phase, hm] at hp; exact ⟨hp.1, hp.2.1, hp.2.2.1⟩
  | throws hm =>
    have hp : s.Unstarted ∧ s.listener = false ∧ s.session = false := by
      rcases hm with hm | hm <;> rw [State.Phase, hm] at hp <;> exact hp
    exact ⟨hp.1.ended, hp.2.1, hp.2.2, rfl⟩
  | sessionInit hm => rw [State.Phase, hm] at hp; exact ⟨hp.1, hp.2.1, rfl⟩
  | fails hm =>
    have hu : s.Unstarted := by
      rcases hm with hm | hm | hm <;> rw [State.Phase, hm] at hp <;> exact hp.1
    exact hu.tracked _
  | gives hm =>
    have hu : s.Unstarted := by
      rcases hm with hm | hm <;> rw [State.Phase, hm] at hp <;> exact hp.1
    exact hu.tracked _
  | listen hm => rw [State.Phase, hm] at hp; exact ⟨hp.1, rfl, hp.2.2⟩
  | bound hm => rw [State.Phase, hm] at hp; exact hp.1.tracked _
  | joinAccept hm ha =>
    rw [State.Phase, hm, ha] at hp
    have ht : Tracked s.served s.workers := by simpa [Accept.carries] using hp
    exact ⟨.inr rfl, ht⟩
  | noAccept hm ha =>
    have hs : s.Stopped := ha
    rw [State.Phase, hm, hs.carries] at hp
    exact ⟨hs, by simpa using hp⟩
  | swap hm => rw [State.Phase, hm] at hp; exact ⟨hp.1, hp.2, rfl⟩
  | @joinWorker caller i pending s₁ hm hj =>
    rw [State.Phase, hm] at hp
    obtain ⟨-, -, -, -, ha, hw⟩ := hj.frame
    have hs : s₁.Stopped := by rw [State.Stopped, ha]; exact hp.1
    exact ⟨hs, hj.tracked hp.2.1, hw ▸ hp.2.2⟩
  | cancelAgain hm =>
    rw [State.Phase, hm] at hp
    rw [State.Phase, show (s.does _).main = _ from hm]
    exact hp
  | cancel hm =>
    rw [State.Phase, hm] at hp
    unfold State.Phase
    rw [show ({ s.does _ with listener := false } : State).main = _ from hm]
    exact hp
  | cancelled hm hl => rw [State.Phase, hm] at hp; exact ⟨hp, hl⟩
  | freeSession hm => rw [State.Phase, hm] at hp; exact ⟨hp.1, hp.2, rfl⟩
  | noSession hm hs => rw [State.Phase, hm] at hp; exact ⟨hp.1, hp.2, hs⟩
  | @closeSocket caller hm =>
    rw [State.Phase, hm] at hp
    cases caller <;> exact ⟨hp.1, hp.2.1, hp.2.2, rfl⟩
  | _ hm => rw [State.Phase, hm] at hp; exact hp

theorem Step.linked {x : In} (h : Step s x s') (hp : s.Phase) (hj : Joined Running s.served) (hl : s.Linked) :
    s'.Linked := by
  cases h with
  | accept h => exact h.linked hl
  | sessionInit => exact ⟨fun _ => rfl, fun _ => rfl, fun _ _ => rfl⟩
  | listen hm => rw [State.Phase, hm] at hp; exact ⟨fun _ => hp.2.2, hl.2⟩
  | bound hm => rw [State.Phase, hm] at hp; exact ⟨hl.1, fun _ => hp.2.2, hl.2.2⟩
  | joinAccept => exact ⟨hl.1, nofun, hl.2.2⟩
  | @joinWorker caller i pending s₁ hm hs =>
    obtain ⟨-, hlist, hsess, -, ha, -⟩ := hs.frame
    refine ⟨?_, ?_, fun j hr => ?_⟩
    · show s₁.listener = true → s₁.session = true
      rw [hlist, hsess]; exact hl.1
    · show s₁.accept.active = true → s₁.session = true
      rw [ha, hsess]; exact hl.2.1
    · exact hsess ▸ hl.2.2 j (hs.is_iff.mp hr)
  | cancel => exact ⟨nofun, hl.2⟩
  | freeSession hm =>
    rw [State.Phase, hm] at hp
    obtain ⟨⟨hs, ht, -⟩, hlist⟩ := hp
    refine ⟨fun h => ?_, fun h => absurd h hs.not_active, fun i h => absurd h (hj.ended ht i)⟩
    rw [show s.listener = true from h] at hlist
    cases hlist
  | dial hc | pump hc =>
    refine ⟨hl.1, hl.2.1, fun j hr => hl.2.2 j ?_⟩
    exact (at_is_step hc (iff_of_true nofun nofun)).mp hr
  | finish hc =>
    refine ⟨hl.1, hl.2.1, fun j hr => hl.2.2 j ?_⟩
    exact ((at_is_drop hc (not_not_intro rfl)).mp hr).1
  | _ => exact hl

namespace State

/-- What is open, and the threads not joined. -/
def Holds (s : State) : Res → Prop
  | .service _ => False
  | .ssh k => s.sshSocket = some k
  | .localService i k => At (Slot.Is (HasLocal k)) s.served i
  | .session => s.session = true
  | .listener => s.listener = true
  | .acceptThread => s.accept ≠ .unstarted ∧ s.accept ≠ .joined
  | .worker i => At Slot.Joinable s.served i

/-- What has not been made so far. -/
def Unmade (s : State) : Res → Prop
  | .service _ => s.main.progress < 1
  | .ssh _ => s.main.progress < 2
  | .localService i _ => s.served.length ≤ i ∨ At (Slot.Is AtDial) s.served i
  | .session => s.main.progress < 4
  | .listener => s.main.progress < 7
  | .acceptThread => s.accept = .unstarted
  | .worker i => s.served.length ≤ i

end State

/-- No thread is running or waiting to be joined. -/
def Alone (held : Res → Prop) : Prop := ¬held .acceptThread ∧ ∀ i, ¬held (.worker i)

/-- What an entry of the log asks of what is held: the listener belongs to the
session, and neither is given up while there is a thread. -/
def order (held : Res → Prop) : Op Res → Prop
  | .acquire .listener => held .session
  | .use .listener | .release .listener => held .session ∧ Alone held
  | .release .session => ¬held .listener ∧ Alone held
  | _ => True

/-- The log is in order. -/
def LogKept (s : State) (log : List (Op Res)) : Prop := Kept order s.Holds s.Unmade log

variable {log : List (Op Res)}

/-- Names for the sockets of a dial. -/
def Sockets (name : Nat → Res) : Prop :=
  (∀ i j, name i = name j → i = j) ∧ ∀ held (op : Op Res) j, op.on = name j → order held op

theorem sockets_service : Sockets .service :=
  ⟨fun _ _ he => Res.service.inj he, fun _ op _ he => by cases op <;> cases he <;> trivial⟩

theorem sockets_ssh : Sockets .ssh :=
  ⟨fun _ _ he => Res.ssh.inj he, fun _ op _ he => by cases op <;> cases he <;> trivial⟩

theorem sockets_localService (i : Nat) : Sockets (.localService i) :=
  ⟨fun _ _ he => (Res.localService.inj he).2, fun _ op _ he => by cases op <;> cases he <;> trivial⟩

/-- Dialling is in order: of the sockets it opens, it keeps the one it
returns. -/
theorem dialTcp_kept {name : Nat → Res} (hn : Sockets name) (attempts : List Attempt) :
    ∀ (k : Nat) {H U : Res → Prop} {log : List (Op Res)}, Kept order H U log → (∀ j, k ≤ j → U (name j)) →
      Kept order (fun x => H x ∨ ∃ j, (dialTcp name k attempts).2 = some j ∧ x = name j)
        (fun x => U x ∧ ∀ j, x ≠ name j) (log ++ (dialTcp name k attempts).1) := by
  induction attempts with
  | nil =>
    intro k H U log h _
    refine (List.append_nil log).symm ▸ h.congr (fun x => ?_) fun x hx => hx.1
    simp [dialTcp]
  | cons a as ih =>
    intro k H U log h hU
    cases a with
    | noSocket => exact ih (k + 1) h fun j hj => hU j (by omega)
    | refused =>
      have hk : Kept order H (fun x => U x ∧ x ≠ name k)
          (log ++ [.acquire (name k), .use (name k), .release (name k)]) :=
        h.brief (hU k (Nat.le_refl k)) (fun held op hop => hn.2 held op k hop) (fun _ => Iff.rfl) fun _ hx => hx
      have hrest := ih (k + 1) hk fun j hj => ⟨hU j (by omega), fun he => by have := hn.1 j k he; omega⟩
      rw [List.append_assoc] at hrest
      exact hrest.congr (fun _ => Iff.rfl) fun x hx => ⟨⟨hx.1, hx.2 k⟩, hx.2⟩
    | connected =>
      have hk : Kept order (fun x => H x ∨ x = name k) (fun x => U x ∧ x ≠ name k) (log ++ [.acquire (name k)]) :=
        h.acquire (hU k (Nat.le_refl k)) (hn.2 _ _ k rfl) (fun _ => Iff.rfl) fun _ hx => hx
      show Kept _ _ _ (log ++ [.acquire (name k), .use (name k)])
      rw [append_pair]
      refine (hk.use (.inr rfl) (hn.2 _ _ k rfl)).congr (fun x => ?_) fun x hx => ⟨hx.1, hx.2 k⟩
      simp [dialTcp]

/-- What is unmade was so before, as long as the threads are the same. -/
theorem State.Unmade.mono {r : Res} (h : s'.Unmade r) (hm : s.main.progress ≤ s'.main.progress)
    (ha : s'.accept = s.accept) (hc : s'.served = s.served) : s.Unmade r := by
  cases r with
  | localService | acceptThread | worker => simpa only [State.Unmade, ha, hc] using h
  | _ => exact Nat.lt_of_le_of_lt hm h

namespace LogKept

/-- A call on the SSH socket. -/
theorem ssh (h : LogKept s log) : LogKept s (log ++ s.ssh .use) := by
  unfold State.ssh
  cases hk : s.sshSocket with
  | none => simpa using h
  | some k => exact h.use hk trivial

/-- A libssh2 call. -/
theorem libssh2 (h : LogKept s log) (hs : s.session = true) : LogKept s (log ++ s.libssh2) := by
  have hu : LogKept s (log ++ [.use .session]) := h.use hs trivial
  have := hu.ssh
  rwa [List.append_assoc] at this

/-- A step of the owner's thread that leaves everything as it is. -/
theorem goto (h : LogKept s log) (hm : s.main.progress ≤ s'.main.progress) (hk : s'.sshSocket = s.sshSocket)
    (hs : s'.session = s.session) (hl : s'.listener = s.listener) (ha : s'.accept = s.accept)
    (hc : s'.served = s.served) : LogKept s' log := by
  refine h.congr (fun x => ?_) fun x hx => hx.mono hm ha hc
  cases x <;> simp only [State.Holds, hk, hs, hl, ha, hc]

/-- A step of the accept loop that leaves everything as it is. -/
theorem work (h : LogKept s log) (ha : s.accept ≠ .unstarted ∧ s.accept ≠ .joined)
    (ha' : s'.accept ≠ .unstarted ∧ s'.accept ≠ .joined) (hm : s'.main = s.main)
    (hk : s'.sshSocket = s.sshSocket) (hs : s'.session = s.session) (hl : s'.listener = s.listener)
    (hc : s'.served = s.served) : LogKept s' log := by
  refine h.congr (fun x => ?_) fun x hx => ?_
  · cases x <;> simp [State.Holds, hk, hs, hl, ha, ha', hc]
  · cases x with
    | acceptThread => exact absurd hx ha'.1
    | _ => simpa only [State.Unmade, hm, hc] using hx

end LogKept

theorem JoinStep.kept {i : Nat} (h : JoinStep s i s') (hk : LogKept s s.log) : LogKept s' s'.log := by
  cases h with
  | joined hc =>
    refine hk.release ((at_iff hc).mpr rfl) trivial (fun x => ?_) fun x hx => ?_
    · cases x <;> simp [State.Holds, State.does, at_is_join hc, at_joinable_join hc]
    · cases x <;> simpa [State.Unmade, State.does, at_is_join hc] using hx
  | notJoinable => exact hk

theorem AcceptStep.kept {e : AcceptEv} (h : AcceptStep s e s') (hl : s.Linked) (hk : LogKept s s.log) :
    LogKept s' s'.log := by
  have hlib : LogKept s (s.log ++ s.libssh2) := hk.libssh2 (hl.2.1 h.active)
  cases h with
  | leave ha => rcases ha with ha | ha <;> exact hk.work (by simp [ha]) (by simp) rfl rfl rfl rfl rfl
  | select ha => exact hk.ssh.work (by simp [ha]) (by simp) rfl rfl rfl rfl rfl
  | @accept r ha => exact hlib.work (by simp [ha]) (by cases r <;> simp [AcceptResult.next]) rfl rfl rfl rfl rfl
  | join ha hj => exact (hj.kept hk).work (by simp [hj.frame, ha]) (by simp) rfl rfl rfl rfl rfl
  | spawn ha =>
    refine hk.acquire (Nat.le_refl _) trivial (fun x => ?_) fun x hx => ?_
    · cases x <;> simp [State.Holds, State.does, ha, HasLocal]
    · cases x with
      | localService i k =>
        refine ⟨?_, nofun⟩
        rcases hx with hx | hx
        · exact .inl (by simp at hx; omega)
        · rcases at_snoc.mp hx with hx | ⟨rfl, -⟩
          · exact .inr hx
          · exact .inl (Nat.le_refl _)
      | acceptThread => cases hx
      | worker i =>
        simp [State.Unmade] at hx ⊢
        omega
      | _ => exact ⟨hx, by simp⟩
  | _ ha => exact hk.work (by simp [ha]) (by simp) rfl rfl rfl rfl rfl

/-- `DialLocalService` is in order: the worker has the socket it returns. -/
theorem dial_kept {i : Nat} {attempts : List Attempt} {p p' : St Pc} {sock : Option Nat} {joinable : Bool}
    (hc : s.served[i]? = some (.thread (.pumping p sock) joinable)) (hd : p.pc = .dial)
    (hp : Pump.SshExporter.Step { p with running := s.running }
      (.answer (dialTcp (.localService i) 0 attempts).2.isSome) p')
    (hs' : s'.served = s.served.set i (.thread (.pumping p' (dialTcp (.localService i) 0 attempts).2) joinable))
    (hm : s'.main = s.main) (hk : s'.sshSocket = s.sshSocket) (hs : s'.session = s.session)
    (hl : s'.listener = s.listener) (ha : s'.accept = s.accept) (h : LogKept s s.log) :
    LogKept s' (s.log ++ (dialTcp (.localService i) 0 attempts).1) := by
  have hpc : p'.pc = if (dialTcp (.localService i) 0 attempts).2.isSome then .fits else .channelClose := by
    cases hp with
    | dial => rfl
    | fits hpc => rw [show p.pc = _ from hpc] at hd; cases hd
    | send hpc => rw [show p.pc = _ from hpc] at hd; cases hd
  have hlt : i < s.served.length := (List.getElem?_eq_some_iff.mp hc).1
  have hlen : s'.served.length = s.served.length := by rw [hs', List.length_set]
  have hdial : ¬AtDial (.pumping p' (dialTcp (.localService i) 0 attempts).2) := by
    show ¬p'.pc = .dial
    rw [hpc]
    split <;> exact fun h => by cases h
  have hkept := dialTcp_kept (sockets_localService i) attempts 0 h fun j _ => .inr ((at_iff hc).mpr hd)
  refine hkept.congr (fun x => ?_) fun x hx => ?_
  · cases x with
    | localService j k =>
      have hno : ¬At (Slot.Is (HasLocal k)) s.served i := by
        rw [at_iff hc]
        simp [HasLocal, hd, hasLocal]
      have hhas : (dialTcp (.localService i) 0 attempts).2 = some k → hasLocal p'.pc = true := by
        intro he
        rw [hpc, he]
        rfl
      simp only [State.Holds, hs', at_set hc, Slot.is_thread, HasLocal, Res.localService.injEq]
      by_cases hij : j = i
      · subst hij
        simp only [ne_eq, not_true, false_and, false_or, true_and, hno, exists_eq_right']
        exact ⟨fun h => h.1, fun h => ⟨h, hhas h⟩⟩
      · simp [hij]
    | worker j => simp [State.Holds, hs', at_joinable_step hc]
    | _ => simp [State.Holds, hk, hs, hl, ha]
  · cases x with
    | localService j k =>
      rcases hx with hx | hx
      · have hji : j ≠ i := by omega
        exact ⟨.inl (hlen ▸ hx), fun m he => hji (Res.localService.inj he).1⟩
      · rw [hs'] at hx
        obtain ⟨hj, hji⟩ := (at_is_drop hc hdial).mp hx
        exact ⟨.inr hj, fun m he => hji (Res.localService.inj he).1⟩
    | _ => exact ⟨by simpa only [State.Unmade, hm, ha, hlen] using hx, fun _ h => by cases h⟩

/-- What a worker does after that is in order: it uses its socket and the
session, and closes its socket once. -/
theorem pump_kept {i : Nat} {e : Ev} {p p' : St Pc} {sock : Option Nat} {joinable : Bool}
    (hc : s.served[i]? = some (.thread (.pumping p sock) joinable)) (hd : p.pc ≠ .dial) (he : e ≠ .shutdown)
    (hp : Pump.SshExporter.Step { p with running := s.running } e p')
    (hs' : s'.served = s.served.set i (.thread (.pumping p' sock) joinable))
    (hm : s'.main = s.main) (hk : s'.sshSocket = s.sshSocket) (hs : s'.session = s.session)
    (hl : s'.listener = s.listener) (ha : s'.accept = s.accept) (hsess : s.session = true) (h : LogKept s s.log) :
    LogKept s' (s.log ++ pumpOps (s.ssh .use) i sock p.pc) := by
  obtain ⟨-, hd', hlocal⟩ := pump_end hp he hd
  have hlen : s'.served.length = s.served.length := by rw [hs', List.length_set]
  have hdial : AtDial (.pumping p' sock) ↔ AtDial (.pumping p sock) := iff_of_false hd' hd
  have unmade : ∀ x, s'.Unmade x → s.Unmade x := by
    intro x hx
    cases x with
    | localService j k => simpa only [State.Unmade, hs', List.length_set, at_is_step hc hdial] using hx
    | _ => simpa only [State.Unmade, hm, ha, hlen] using hx
  by_cases hcl : p.pc = .closeLocal
  · have hno (k : Nat) : ¬HasLocal k (.pumping p' sock) := fun hh => (hlocal.mp hh.2).2 hcl
    cases sock with
    | none =>
      have hno' (k : Nat) : ¬HasLocal k (.pumping p none) := fun hh => by cases hh.1
      rw [hcl, show pumpOps (s.ssh .use) i none .closeLocal = [] from rfl, List.append_nil]
      refine h.congr (fun x => ?_) unmade
      cases x with
      | localService j k => simp only [State.Holds, hs', at_is_step hc (iff_of_false (hno k) (hno' k))]
      | worker j => simp only [State.Holds, hs', at_joinable_step hc]
      | _ => simp only [State.Holds, hk, hs, hl, ha]
    | some k =>
      have hopen : s.Holds (.localService i k) := (at_iff hc).mpr ⟨rfl, by rw [hcl]; rfl⟩
      rw [hcl, show pumpOps (s.ssh .use) i (some k) .closeLocal = [.release (.localService i k)] from rfl]
      refine h.release hopen trivial (fun x => ?_) unmade
      cases x with
      | localService j m =>
        simp only [State.Holds, hs', at_is_drop hc (hno m)]
        constructor
        · exact fun hj => ⟨hj.1, fun he => hj.2 (Res.localService.inj he).1⟩
        · refine fun hj => ⟨hj.1, fun hji => hj.2 ?_⟩
          subst hji
          obtain ⟨hmk, -⟩ := (at_iff hc).mp hj.1
          rw [Option.some.inj hmk]
      | worker j => simp [State.Holds, hs', at_joinable_step hc]
      | _ => simp [State.Holds, hk, hs, hl, ha]
  · have hsame (k : Nat) : HasLocal k (.pumping p' sock) ↔ HasLocal k (.pumping p sock) :=
      and_congr_right' (hlocal.trans (and_iff_left hcl))
    have huse (hh : hasLocal p.pc = true) :
        LogKept s (s.log ++ sock.toList.map fun k => .use (.localService i k)) := by
      cases sock with
      | none => simpa using h
      | some k => exact h.use ((at_iff hc).mpr ⟨rfl, hh⟩) trivial
    have hnone : LogKept s (s.log ++ []) := by rwa [List.append_nil]
    have hlib : LogKept s (s.log ++ .use .session :: s.ssh .use) := h.libssh2 hsess
    have hlog : LogKept s (s.log ++ pumpOps (s.ssh .use) i sock p.pc) := by
      unfold pumpOps
      split
      · rename_i hpc; exact huse (by rw [hpc]; rfl)
      · rename_i hpc; exact huse (by rw [hpc]; rfl)
      · rename_i hpc; exact huse (by rw [hpc]; rfl)
      · rename_i hpc; exact huse (by rw [hpc]; rfl)
      · rename_i hpc; exact huse (by rw [hpc]; rfl)
      · exact hlib
      · exact hlib
      · exact hlib
      · exact hlib
      · exact hlib
      · exact hlib
      · exact absurd ‹_› hcl
      · exact hnone
    refine hlog.congr (fun x => ?_) unmade
    cases x with
    | localService j k => simp only [State.Holds, hs', at_is_step hc (hsame k)]
    | worker j => simp only [State.Holds, hs', at_joinable_step hc]
    | _ => simp only [State.Holds, hk, hs, hl, ha]

/-- A worker that returns has closed its socket. -/
theorem finish_kept {i : Nat} {p : St Pc} {sock : Option Nat} {joinable : Bool}
    (hc : s.served[i]? = some (.thread (.pumping p sock) joinable)) (hd : p.pc = .done) (hk : LogKept s s.log) :
    LogKept { s with served := s.served.set i (.thread .finished joinable) } s.log := by
  have hno (k : Nat) : ¬HasLocal k (.pumping p sock) := by simp [HasLocal, hd, hasLocal]
  refine hk.congr (fun x => ?_) fun x hx => ?_
  · cases x with
    | localService j k => exact at_is_step hc (iff_of_false id (hno k))
    | worker j => exact at_joinable_step hc
    | _ => exact Iff.rfl
  · cases x with
    | localService j k =>
      have hn : ¬AtDial .finished := id
      simp only [State.Unmade, List.length_set, at_is_drop hc hn] at hx
      exact hx.imp id And.left
    | worker j => simpa only [State.Unmade, List.length_set] using hx
    | _ => exact hx

/-- Where there is no thread to join, none is held. -/
theorem State.Ended.alone (h : s.Ended) : Alone s.Holds := by
  refine ⟨fun ha => ?_, fun i hi => ?_⟩
  · rcases h.1 with hs | hs
    · exact ha.1 hs
    · exact ha.2 hs
  · simpa using h.2.1 i hi

/-- The owner's thread closes the SSH socket. -/
theorem LogKept.closeSsh (h : LogKept s log) (hk : s'.sshSocket = none) (hm : s.main.progress ≤ s'.main.progress)
    (hs : s'.session = s.session) (hl : s'.listener = s.listener) (ha : s'.accept = s.accept)
    (hc : s'.served = s.served) : LogKept s' (log ++ s.ssh .release) := by
  unfold State.ssh
  cases hsock : s.sshSocket with
  | none =>
    rw [show (none.toList.map fun k => Op.release (Res.ssh k)) = [] from rfl, List.append_nil]
    exact h.goto hm (hk.trans hsock.symm) hs hl ha hc
  | some k =>
    refine h.release hsock trivial (fun x => ?_) fun x hx => hx.mono hm ha hc
    cases x with
    | ssh j => simp [State.Holds, hk, hsock, eq_comm]
    | _ => simp [State.Holds, hs, hl, ha, hc]

theorem Step.kept {x : In} (h : Step s x s') (hp : s.Phase) (hl : s.Linked) (hk : LogKept s s.log) :
    LogKept s' s'.log := by
  cases h with
  | accept h => exact h.kept hl hk
  | dial hc hd hs => exact dial_kept hc hd hs rfl rfl rfl rfl rfl rfl hk
  | pump hc hd he hs =>
    exact pump_kept hc hd he hs rfl rfl rfl rfl rfl rfl (hl.2.2 _ ((at_iff hc).mpr nofun)) hk
  | finish hc hd => exact finish_kept hc hd hk
  | @noService attempts ops hm hd =>
    have hd₁ := dialTcp_kept sockets_service attempts 0 hk fun j _ => by simp [State.Unmade, hm, Main.progress]
    rw [hd] at hd₁
    refine hd₁.congr (fun x => ?_) fun x hx => ⟨hx.mono s.main.progress_le rfl rfl, ?_⟩
    · cases x <;> simp [State.Holds, State.does]
    · rintro j rfl
      exact absurd (show 8 < 1 from hx) (by decide)
  | @service attempts ops k hm hd =>
    have hd₁ := dialTcp_kept sockets_service attempts 0 hk fun j _ => by simp [State.Unmade, hm, Main.progress]
    rw [hd] at hd₁
    show LogKept _ (s.log ++ (ops ++ [.release (.service k)]))
    rw [← List.append_assoc]
    refine hd₁.release (.inr ⟨k, rfl, rfl⟩) trivial (fun x => ?_)
      fun x hx => ⟨hx.mono (by simp [hm, Main.progress]) rfl rfl, ?_⟩
    · cases x <;> simp [State.Holds, State.does]
    · rintro j rfl
      exact absurd (show 1 < 1 from hx) (by decide)
  | @noSsh attempts ops hm hd =>
    have hd₁ := dialTcp_kept sockets_ssh attempts 0 hk fun j _ => by simp [State.Unmade, hm, Main.progress]
    rw [hd] at hd₁
    refine hd₁.congr (fun x => ?_) fun x hx => ⟨hx.mono s.main.progress_le rfl rfl, ?_⟩
    · cases x <;> simp [State.Holds, State.does]
    · rintro j rfl
      exact absurd (show 8 < 2 from hx) (by decide)
  | @ssh attempts ops k hm hd =>
    rw [State.Phase, hm] at hp
    have hd₁ := dialTcp_kept sockets_ssh attempts 0 hk fun j _ => by simp [State.Unmade, hm, Main.progress]
    rw [hd] at hd₁
    refine hd₁.congr (fun x => ?_) fun x hx => ⟨hx.mono (by simp [hm, Main.progress]) rfl rfl, ?_⟩
    · cases x with
      | ssh j => simp [State.Holds, hp.2.2.2, eq_comm]
      | _ => simp [State.Holds, State.does]
    · rintro j rfl
      exact absurd (show 2 < 2 from hx) (by decide)
  | throws hm =>
    exact hk.closeSsh rfl s.main.progress_le rfl rfl rfl rfl
  | fits hm => exact hk.goto (by simp [hm, Main.progress]) rfl rfl rfl rfl rfl
  | sessionInit hm =>
    rw [State.Phase, hm] at hp
    have hu : s.Unmade .session := by simp [State.Unmade, hm, Main.progress]
    refine hk.acquire hu trivial (fun x => ?_) fun x hx => ⟨hx.mono (by simp [hm, Main.progress]) rfl rfl, ?_⟩
    · cases x <;> simp [State.Holds, State.does]
    · rintro rfl
      exact absurd (show 4 < 4 from hx) (by decide)
  | handshake hm | auth hm =>
    rw [State.Phase, hm] at hp
    exact (hk.libssh2 hp.2.2).goto (by simp [hm, Main.progress]) rfl rfl rfl rfl rfl
  | fails hm =>
    have hs : s.session = true := by rcases hm with hm | hm | hm <;> rw [State.Phase, hm] at hp <;> exact hp.2.2
    exact (hk.libssh2 hs).goto s.main.progress_le rfl rfl rfl rfl rfl
  | listen hm =>
    rw [State.Phase, hm] at hp
    show LogKept _ (s.log ++ (s.libssh2 ++ [.acquire .listener]))
    rw [← List.append_assoc]
    have hu : s.Unmade .listener := by simp [State.Unmade, hm, Main.progress]
    refine Kept.acquire (hk.libssh2 hp.2.2) hu hp.2.2 (fun x => ?_)
      fun x hx => ⟨hx.mono (by simp [hm, Main.progress]) rfl rfl, ?_⟩
    · cases x <;> simp [State.Holds, State.does]
    · rintro rfl
      exact absurd (show 7 < 7 from hx) (by decide)
  | bound hm =>
    rw [State.Phase, hm] at hp
    show LogKept _ (s.log ++ (s.libssh2 ++ [.acquire .acceptThread]))
    rw [← List.append_assoc]
    refine Kept.acquire (hk.libssh2 hp.2.2) hp.1.1 trivial (fun x => ?_) fun x hx => ?_
    · cases x <;> simp [State.Holds, State.does, hp.1.1]
    · cases x with
      | acceptThread => cases hx
      | localService | worker => exact ⟨hx, Res.noConfusion⟩
      | _ => exact ⟨Nat.lt_of_le_of_lt s.main.progress_le hx, Res.noConfusion⟩
  | joinAccept hm ha =>
    refine hk.release (by simp [State.Holds, ha]) trivial (fun x => ?_) fun x hx => ?_
    · cases x <;> simp [State.Holds, State.does, ha]
    · cases x with
      | acceptThread => cases hx
      | localService | worker => exact hx
      | _ => exact Nat.lt_of_le_of_lt s.main.progress_le hx
  | gives | close | noAccept | swap | joinedAll | cancelled | noSession =>
    exact hk.goto s.main.progress_le rfl rfl rfl rfl rfl
  | joinWorker hm hj => exact (hj.kept hk).goto (Main.progress_le _) rfl rfl rfl rfl rfl
  | cancelAgain hm hlist =>
    rw [State.Phase, hm] at hp
    have hs : s.session = true := hl.1 hlist
    show LogKept _ (s.log ++ (s.libssh2 ++ [.use .listener]))
    rw [← List.append_assoc]
    exact Kept.use (hk.libssh2 hs) hlist ⟨hs, hp.alone⟩
  | cancel hm hlist =>
    rw [State.Phase, hm] at hp
    have hs : s.session = true := hl.1 hlist
    show LogKept _ (s.log ++ (s.libssh2 ++ [.release .listener]))
    rw [← List.append_assoc]
    refine Kept.release (hk.libssh2 hs) hlist ⟨hs, hp.alone⟩ (fun x => ?_) fun x hx => ?_
    · cases x <;> simp [State.Holds, State.does]
    · exact hx
  | freeSession hm hs =>
    rw [State.Phase, hm] at hp
    show LogKept _ (s.log ++ (s.libssh2 ++ [.release .session]))
    rw [← List.append_assoc]
    refine Kept.release (hk.libssh2 hs) hs ⟨by simp [State.Holds, hp.2], hp.1.alone⟩ (fun x => ?_)
      fun x hx => hx.mono s.main.progress_le rfl rfl
    cases x <;> simp [State.Holds, State.does]
  | @closeSocket caller hm =>
    cases caller <;> exact hk.closeSsh rfl s.main.progress_le rfl rfl rfl rfl

/-! ## No thread is started late -/

/-- A thread is started. -/
def starts : Op Res → Bool
  | .acquire .acceptThread | .acquire (.worker _) => true
  | _ => false

/-- The listener is cancelled or the session freed. -/
def ends : Op Res → Bool
  | .use .listener | .release .listener | .release .session => true
  | _ => false

/-- Neither. -/
def Mild (op : Op Res) : Prop := starts op = false ∧ ends op = false

/-- `Start` is over, and there is no accept loop. -/
def State.Still (s : State) : Prop := s.Stopped ∧ s.main.progress = 8

theorem mild_ssh (op : Res → Op Res) (h : ∀ k, Mild (op (.ssh k))) : ∀ o ∈ s.ssh op, Mild o := by
  intro o ho
  obtain ⟨k, -, rfl⟩ := List.mem_map.mp ho
  exact h k

theorem mild_libssh2 : ∀ op ∈ s.libssh2, Mild op := by
  intro op hop
  rcases List.mem_cons.mp hop with rfl | hop
  · exact ⟨rfl, rfl⟩
  · exact mild_ssh .use (fun _ => ⟨rfl, rfl⟩) op hop

theorem mild_dialTcp {name : Nat → Res} (h : ∀ (op : Op Res) j, op.on = name j → Mild op)
    (attempts : List Attempt) : ∀ k, ∀ op ∈ (dialTcp name k attempts).1, Mild op := by
  induction attempts with
  | nil => simp [dialTcp]
  | cons a as ih =>
    intro k op hop
    cases a with
    | noSocket => exact ih (k + 1) op hop
    | refused =>
      rcases List.mem_append.mp hop with hop | hop
      · refine h op k ?_
        rcases (by simpa using hop) with rfl | rfl | rfl <;> rfl
      · exact ih (k + 1) op hop
    | connected =>
      refine h op k ?_
      rcases (by simpa [dialTcp] using hop) with rfl | rfl <;> rfl

theorem mild_pumpOps {i : Nat} {sock : Option Nat} (pc : Pc) :
    ∀ op ∈ pumpOps (s.ssh .use) i sock pc, Mild op := by
  have hlocal (op : Res → Op Res) (h : ∀ k, Mild (op (.localService i k))) :
      ∀ o ∈ sock.toList.map fun k => op (.localService i k), Mild o := by
    intro o ho
    obtain ⟨k, -, rfl⟩ := List.mem_map.mp ho
    exact h k
  have hlib : ∀ op ∈ s.libssh2, Mild op := mild_libssh2
  unfold pumpOps
  split
  all_goals first | exact hlocal .use fun _ => ⟨rfl, rfl⟩ | exact hlib | exact hlocal .release fun _ => ⟨rfl, rfl⟩ | simp

/-- What may be added to the log: no thread is started when there are no more to
come, and nothing ends before that. -/
def Timely (s : State) (op : Op Res) : Prop := (starts op = true → ¬s.Still) ∧ (ends op = true → s.Still)

theorem Mild.timely {op : Op Res} (h : Mild op) : Timely s op := by
  simp [Timely, h.1, h.2]

/-- The SSH calls before an entry are mild. -/
theorem timely_libssh2 {op : Op Res} (h : Timely s op) : ∀ o ∈ s.libssh2 ++ [op], Timely s o := by
  intro o ho
  rcases List.mem_append.mp ho with ho | ho
  · exact (mild_libssh2 o ho).timely
  · rwa [List.mem_singleton.mp ho]

theorem JoinStep.ops {i : Nat} (h : JoinStep s i s') : ∃ ops, s'.log = s.log ++ ops ∧ ∀ op ∈ ops, Timely s op := by
  cases h with
  | joined => exact ⟨_, rfl, by simp [Timely, starts, ends]⟩
  | notJoinable => exact ⟨[], (List.append_nil _).symm, by simp⟩

theorem AcceptStep.ops {e : AcceptEv} (h : AcceptStep s e s') :
    ∃ ops, s'.log = s.log ++ ops ∧ ∀ op ∈ ops, Timely s op := by
  have hs : ¬s.Still := fun hs => hs.1.not_active h.active
  cases h with
  | select => exact ⟨_, rfl, fun op hop => (mild_ssh .use (fun _ => ⟨rfl, rfl⟩) op hop).timely⟩
  | accept => exact ⟨_, rfl, fun op hop => (mild_libssh2 op hop).timely⟩
  | join ha hj => exact hj.ops
  | spawn => exact ⟨_, rfl, by simp [Timely, ends, hs]⟩
  | _ => exact ⟨[], (List.append_nil _).symm, by simp⟩

theorem Step.ops {x : In} (h : Step s x s') (hp : s.Phase) :
    ∃ ops, s'.log = s.log ++ ops ∧ ∀ op ∈ ops, Timely s op := by
  have hlib : ∀ op ∈ s.libssh2, Timely s op := fun op hop => (mild_libssh2 op hop).timely
  have hrelease : ∀ op ∈ s.ssh .release, Timely s op :=
    fun op hop => (mild_ssh .release (fun _ => ⟨rfl, rfl⟩) op hop).timely
  have hservice (op : Op Res) (j : Nat) (ho : op.on = .service j) : Mild op := by
    cases op <;> cases ho <;> exact ⟨rfl, rfl⟩
  have hssh (op : Op Res) (j : Nat) (ho : op.on = .ssh j) : Mild op := by
    cases op <;> cases ho <;> exact ⟨rfl, rfl⟩
  cases h with
  | accept h => exact h.ops
  | @dial i attempts =>
    have hlocal (op : Op Res) (j : Nat) (ho : op.on = .localService i j) : Mild op := by
      cases op <;> cases ho <;> exact ⟨rfl, rfl⟩
    exact ⟨_, rfl, fun op hop => (mild_dialTcp hlocal attempts 0 op hop).timely⟩
  | pump => exact ⟨_, rfl, fun op hop => (mild_pumpOps _ op hop).timely⟩
  | @noService attempts ops hm hd =>
    refine ⟨_, rfl, fun op hop => (mild_dialTcp hservice attempts 0 op ?_).timely⟩
    rwa [hd]
  | @service attempts ops k hm hd =>
    refine ⟨_, rfl, fun op hop => ?_⟩
    rcases List.mem_append.mp hop with hop | hop
    · refine (mild_dialTcp hservice attempts 0 op ?_).timely
      rwa [hd]
    · rw [List.mem_singleton.mp hop]
      exact (hservice _ k rfl).timely
  | @noSsh attempts ops hm hd | @ssh attempts ops k hm hd =>
    refine ⟨_, rfl, fun op hop => (mild_dialTcp hssh attempts 0 op ?_).timely⟩
    rwa [hd]
  | throws | closeSocket => exact ⟨_, rfl, hrelease⟩
  | sessionInit | joinAccept => exact ⟨_, rfl, by simp [Timely, starts, ends]⟩
  | handshake | auth | fails => exact ⟨_, rfl, hlib⟩
  | listen => exact ⟨_, rfl, timely_libssh2 (by simp [Timely, starts, ends])⟩
  | bound hm =>
    have hs : ¬s.Still := fun hs => by simp [State.Still, hm, Main.progress] at hs
    exact ⟨_, rfl, timely_libssh2 (by simp [Timely, ends, hs])⟩
  | joinWorker hm hj => exact hj.ops
  | cancelAgain hm | cancel hm =>
    rw [State.Phase, hm] at hp
    have hs : s.Still := ⟨hp.1, by rw [hm]; rfl⟩
    exact ⟨_, rfl, timely_libssh2 (by simp [Timely, starts, hs])⟩
  | freeSession hm =>
    rw [State.Phase, hm] at hp
    have hs : s.Still := ⟨hp.1.1, by rw [hm]; rfl⟩
    exact ⟨_, rfl, timely_libssh2 (by simp [Timely, starts, hs])⟩
  | _ => exact ⟨[], (List.append_nil _).symm, by simp⟩

/-- Once there is no accept loop to join or to start, there is none after. -/
theorem Step.still {x : In} (h : Step s x s') (hs : s.Still) : s'.Still := by
  have late {m : Main} (hm : s.main = m) (hn : m.progress ≠ 8) : s'.Still := absurd (hm ▸ hs.2) hn
  cases h with
  | accept h => exact absurd h.active hs.1.not_active
  | noService hm | service hm | noSsh hm | ssh hm | fits hm | sessionInit hm | handshake hm | auth hm | listen hm
  | bound hm => exact late hm nofun
  | throws | fails | gives | close => exact ⟨hs.1, rfl⟩
  | joinAccept => exact ⟨.inr rfl, rfl⟩
  | @joinWorker caller i pending s₁ hm hj =>
    have hst : s₁.Stopped := by rw [State.Stopped, hj.frame.2.2.2.2.1]; exact hs.1
    exact ⟨hst, rfl⟩
  | @closeSocket caller => cases caller <;> exact ⟨hs.1, rfl⟩
  | cancelAgain | cancel | dial | pump | finish => exact hs
  | _ => exact ⟨hs.1, rfl⟩

/-- After the listener is cancelled or the session freed no thread is started. -/
def Late (s : State) : Prop :=
  (s.log.Pairwise fun a b => ends a = true → starts b = false) ∧ ∀ op ∈ s.log, ends op = true → s.Still

theorem Step.late {x : In} (h : Step s x s') (hp : s.Phase) (hl : Late s) : Late s' := by
  obtain ⟨ops, hlog, hops⟩ := h.ops hp
  have hno (hs : s.Still) : ∀ op ∈ ops, starts op = false := by
    intro op hop
    by_contra hn
    exact (hops op hop).1 (by simpa using hn) hs
  refine ⟨?_, fun op hop he => h.still ?_⟩
  · rw [hlog, List.pairwise_append]
    refine ⟨hl.1, List.pairwise_of_forall_mem_list fun a ha b hb he => ?_, fun a ha b hb he => ?_⟩
    · exact hno ((hops a ha).2 he) b hb
    · exact hno (hl.2 a ha he) b hb
  · rw [hlog] at hop
    rcases List.mem_append.mp hop with hop | hop
    · exact hl.2 op hop he
    · exact (hops op hop).2 he

/-- The invariant of the object. -/
structure Inv (s : State) : Prop where
  phase : s.Phase
  joined : Joined Running s.served
  linked : s.Linked
  kept : LogKept s s.log
  late : Late s

theorem inv_start : Inv start where
  phase := ⟨⟨rfl, rfl, rfl⟩, rfl, rfl, rfl⟩
  joined := joined_nil
  linked := ⟨nofun, nofun, fun _ h => absurd h not_at_nil⟩
  kept := by
    refine Kept.nil fun x => ?_
    cases x <;> simp [State.Holds, start, not_at_nil]
  late := ⟨.nil, nofun⟩

theorem Inv.step {x : In} (h : Inv s) (hs : Step s x s') : Inv s' where
  phase := hs.phase h.phase
  joined := hs.joined h.joined
  linked := hs.linked h.phase h.joined h.linked
  kept := hs.kept h.phase h.linked h.kept
  late := hs.late h.phase h.late

theorem inv_run {xs : List In} (h : Lts.Run State.step start xs s) : Inv s :=
  h.inv (P := Inv) (fun _ _ _ hi hs => hi.step (step_cases hs)) inv_start

/-- Every thread that is started in `log` has been joined in `past`. -/
def AllJoined (log past : List (Op Res)) : Prop :=
  ∀ r, starts (.acquire r) = true → .acquire r ∈ log → .release r ∈ past

/-- Whatever the listener's cancel or the session's end comes after, comes after
every join. -/
theorem Inv.allJoined {l₁ l₂ : List (Op Res)} {op : Op Res} (h : Inv s) (hl : s.log = l₁ ++ op :: l₂)
    (he : ends op = true) : AllJoined s.log l₁ := by
  have hr : order (Held l₁) op := h.kept.ruled hl
  have halone : Alone (Held l₁) := by
    unfold ends at he
    split at he
    · exact hr.2
    · exact hr.2
    · exact hr.2
    · cases he
  intro r hst ha
  have hno : ¬Held l₁ r := by
    unfold starts at hst
    split at hst
    · rename_i hx; cases hx; exact halone.1
    · rename_i i hx; cases hx; exact halone.2 i
    · cases hst
  have hin : .acquire r ∈ l₁ := by
    have hpair := h.late.1
    rw [hl, List.pairwise_append, List.pairwise_cons] at hpair
    rw [hl] at ha
    rcases List.mem_append.mp ha with ha | ha
    · exact ha
    rcases List.mem_cons.mp ha with ha | ha
    · rw [← ha] at he
      cases he
    · rw [hpair.2.1.1 _ ha he] at hst
      cases hst
  by_contra hn
  exact hno ⟨hin, hn⟩

/-- The listener is not touched after the session has been freed. -/
theorem Inv.listener_over {l₁ l₂ : List (Op Res)} (h : Inv s) (hl : s.log = l₁ ++ .release .session :: l₂) :
    ∀ op ∈ l₂, op.on ≠ .listener := by
  intro op hop he
  obtain ⟨l, hrel, -, -, hr⟩ := h.kept.each.later hl hop
  have hs : Held l .session := by
    cases op <;> cases he
    · exact hr
    · exact hr.1
    · exact hr.1
  exact hs.2 hrel

/-- In every run no socket or thread, and neither session nor listener, is
touched after its release. The listener is cancelled, and the session freed,
after every thread there ever is has been joined; where there is a listener it
has been cancelled before the session is freed, and it is not touched after.
When `Close` has returned, or `Start` has thrown, the list of workers is empty,
session, listener and socket are cleared, every socket that was opened has been
closed exactly once, the session freed exactly once, and every thread joined
exactly once. -/
theorem exporter_conserves (xs : List In) (s : State) (h : Lts.Run State.step start xs s) :
    (∀ r, Over s.log r) ∧
      (∀ l₁ op l₂, s.log = l₁ ++ op :: l₂ → ends op = true → AllJoined s.log l₁) ∧
      (∀ l₁ l₂, s.log = l₁ ++ .release .session :: l₂ →
        (.acquire .listener ∈ s.log → .release .listener ∈ l₁) ∧ ∀ op ∈ l₂, op.on ≠ .listener) ∧
      (s.main = .idle .closed ∨ s.main = .idle .failed ∨ s.main = .destroyed →
        s.workers = [] ∧ s.session = false ∧ s.listener = false ∧ s.sshSocket = none ∧
          ∀ r, ReleasedOnce s.log r) := by
  have hi := inv_run h
  refine ⟨hi.kept.afterRelease, fun l₁ op l₂ => hi.allJoined, fun l₁ l₂ hl => ⟨fun ha => ?_, hi.listener_over hl⟩,
    fun hm => ?_⟩
  · have hr : order (Held l₁) (.release .session) := hi.kept.ruled hl
    have hin : .acquire .listener ∈ l₁ := by
      rw [hl] at ha
      rcases List.mem_append.mp ha with ha | ha
      · exact ha
      · rcases List.mem_cons.mp ha with ha | ha
        · cases ha
        · exact absurd rfl (hi.listener_over hl _ ha)
    by_contra hn
    exact hr.1 ⟨hin, hn⟩
  · obtain ⟨he, hl, hs, hk⟩ : s.Ended ∧ s.listener = false ∧ s.session = false ∧ s.sshSocket = none := by
      have hp := hi.phase
      rcases hm with hm | hm | hm <;> rw [State.Phase, hm] at hp <;> exact hp
    refine ⟨he.2.2, hs, hl, hk, fun r => hi.kept.releasedOnce fun hr => ?_⟩
    cases r with
    | service => exact hr
    | ssh k => rw [show s.sshSocket = some k from hr] at hk; cases hk
    | localService i k =>
      obtain ⟨c, hc, hlocal⟩ := hr
      refine hi.joined.ended he.2.1 i ⟨c, hc, ?_⟩
      cases c with
      | refused => exact hlocal
      | thread w joinable => rintro rfl; exact hlocal
    | session => rw [show s.session = true from hr] at hs; cases hs
    | listener => rw [show s.listener = true from hr] at hl; cases hl
    | acceptThread => exact he.alone.1 hr
    | worker i => exact he.alone.2 i hr

/-- Two connections: the first is over and its worker reaped when the second
comes, whose dial fails while the object is being destroyed. The cancel has to
be tried twice. -/
def twoServed : List In :=
  [.start [.noSocket, .refused, .connected], .dialSsh [.connected], .startCall true, .startCall true,
    .startCall true, .auth true true, .startCall true, .startCall true, .accept .test, .accept .select,
    .accept .test, .accept (.accept .channel), .accept .reap, .accept .join, .accept (.spawn (.const 0)),
    .dial 0 [.connected], .accept .push, .pump 0 (.answer false), .pump 0 .call, .pump 0 .call, .pump 0 .call,
    .finish 0, .accept .test, .accept .select, .accept .test, .accept (.accept .channel), .accept .reap,
    .accept .join, .accept .join, .accept (.spawn (.const 0)), .destroy, .accept .push, .accept .test, .closeStep,
    .closeStep, .dial 1 [.refused], .pump 1 .call, .pump 1 .call, .finish 1, .closeStep, .closeStep, .cancel true,
    .cancel false, .closeStep, .closeStep, .closeStep]

/-- What is released in `log`, in order. -/
def released (log : List (Op Res)) : List Res :=
  log.filterMap fun
    | .release r => some r
    | _ => none

theorem twoServed_conserves :
    ∃ s, Lts.Run State.step start twoServed s ∧ released s.log = [.service 1, .service 2, .localService 0 0,
      .worker 0, .acceptThread, .localService 1 0, .worker 1, .listener, .session, .ssh 0] ∧ s.workers = [] ∧
      s.session = false ∧ s.listener = false ∧ s.sshSocket = none ∧ ∀ r, ReleasedOnce s.log r := by
  have hrun : ∃ s, Lts.Run State.step start twoServed s ∧ s.main = .destroyed ∧ released s.log = [.service 1,
      .service 2, .localService 0 0, .worker 0, .acceptThread, .localService 1 0, .worker 1, .listener, .session,
      .ssh 0] := ⟨_, rfl, rfl, rfl⟩
  obtain ⟨s, hs, hm, hl⟩ := hrun
  exact ⟨s, hs, hl, (exporter_conserves twoServed s hs).2.2.2 (.inr (.inr hm))⟩

end ErplTunnel.Lifecycle.SshExporter

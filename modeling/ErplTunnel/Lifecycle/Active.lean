import ErplTunnel.Lifecycle.Descriptors
import ErplTunnel.Lifecycle.MeshTeardown
import ErplTunnel.Lifecycle.ExportTeardown
import ErplTunnel.Lifecycle.MeshExporter
import ErplTunnel.Shim.Fidelity

/-!
# `IsActive` of the four kinds of handle

Each kind of `TunnelHandle` answers `IsActive` from flags of its own. For each
there is what its flags say of its accept loop in every reachable state
(`Live`): a `MeshForwarder` and an `SshExporter` keep it in every run. The worker
of an SSH tunnel leaves its loop after an error without taking a flag down, and
so does the accept loop of a Go exporter, so there it holds in the runs without
these exits (`Sound`).
-/

namespace ErplTunnel.Lifecycle

/-! ## A mesh tunnel -/

namespace MeshForwarder

variable {s s' : State}

/-- The flag is up here, unless `Start` threw before it was set. -/
def Main.mayRun : Main → Bool
  | .probe | .idle .started | .idle .failed => true
  | _ => false

structure Live (s : State) : Prop where
  loop : s.running = true → s.accept.active = true ∧ s.listenSock = true ∧ s.main.mayRun = true
  flag : s.main = .probe ∨ s.main = .idle .started → s.running = true

/-- The accept loop goes on while the flag is up, whatever its calls return. -/
theorem acceptStep_loops {e : AcceptEv} (h : s.acceptStep e = some s') (hr : s.running = true) :
    s'.accept.active = true ∧ s'.running = true := by
  unfold State.acceptStep at h
  split at h
  · cases h
    simp [hr, Accept.active]
  · rename_i ready ha
    cases h
    cases ready <;> exact ⟨rfl, hr⟩
  · split at h <;> cases h <;> exact ⟨rfl, hr⟩
  · rw [if_pos hr] at h
    cases h
    exact ⟨rfl, hr⟩
  · split at h <;> cases h <;> exact ⟨rfl, hr⟩
  · cases h
    exact ⟨rfl, hr⟩
  · cases h

theorem AcceptStep.running {e : AcceptEv} (h : AcceptStep s e s') : s'.running = s.running := by
  cases h <;> rfl

theorem live_start : Live start where
  loop h := by cases h
  flag h := by rcases h with h | h <;> cases h

/-- Where the flag cannot be up, it is down. -/
theorem Live.down (h : Live s) (hm : s.main.mayRun = false) : s.running = false := by
  cases hr : s.running with
  | false => rfl
  | true => exact absurd (hm.symm.trans (h.loop hr).2.2) (by decide)

/-- A state whose flag is down, where it need not be up. -/
theorem Live.ofDown (hr : s.running = false) (hm : s.main ≠ .probe ∧ s.main ≠ .idle .started) : Live s where
  loop h := absurd (hr.symm.trans h) (by decide)
  flag h := by
    rcases h with h | h
    · exact absurd h hm.1
    · exact absurd h hm.2

theorem Live.step {x : In} (h : Live s) (hs : s.step x = some s') : Live s' := by
  have hst := step_cases hs
  cases hst with
  | accept ha =>
    obtain ⟨hm, hl, -⟩ := ha.frame
    refine ⟨fun hr => ?_, fun hf => ?_⟩
    · rw [ha.running] at hr
      rw [hm, hl]
      exact ⟨(acceptStep_loops hs hr).1, (h.loop hr).2⟩
    · rw [hm] at hf
      rw [ha.running]
      exact h.flag hf
  | pump => exact ⟨h.loop, h.flag⟩
  | noProbe => exact h
  | @probe ok hm =>
    have hr := h.flag (.inl hm)
    have hl := h.loop hr
    refine ⟨fun _ => ⟨hl.1, hl.2.1, ?_⟩, fun _ => hr⟩
    cases ok <;> rfl
  | throws hm =>
    refine ⟨fun hr => ⟨(h.loop hr).1, (h.loop hr).2.1, rfl⟩, fun hf => ?_⟩
    rcases hf with hf | hf <;> cases hf
  | listen => exact ⟨fun _ => ⟨rfl, rfl, rfl⟩, fun _ => rfl⟩
  | broken hm =>
    refine .ofDown (h.down ?_) ⟨Main.noConfusion, fun hf => by cases hf⟩
    rcases hm with hm | hm <;> rw [hm] <;> rfl
  | close => exact .ofDown rfl ⟨Main.noConfusion, Main.noConfusion⟩
  | @closeListen d hm | @noListen d hm =>
    refine .ofDown (h.down (by rw [hm]; rfl)) ?_
    cases d <;> exact ⟨Main.noConfusion, fun hf => by cases hf⟩
  | _ hm => exact .ofDown (h.down (by rw [hm]; rfl)) ⟨Main.noConfusion, Main.noConfusion⟩

end MeshForwarder

/-! ## An SSH export -/

namespace SshExporter

variable {s s' : State}

structure Live (s : State) : Prop where
  loop : s.running = true → s.accept.active = true ∧ s.main = .idle .started
  listener : s.main = .idle .started → s.listener = true
  flag : s.main = .idle .started → s.accept.active = true → s.running = true

theorem JoinStep.running {i : Nat} (h : JoinStep s i s') : s'.running = s.running := by
  cases h <;> rfl

theorem AcceptStep.running {e : AcceptEv} (h : AcceptStep s e s') (hr : s'.running = true) : s.running = true := by
  cases h with
  | join ha hj => exact hj.running ▸ hr
  | drop => cases hr
  | _ => exact hr

/-- The accept loop ends with the flag: it is down already, or the loop takes it
down. -/
theorem acceptStep_loops {e : AcceptEv} (h : s.acceptStep e = some s') (hl : s.listener = true) :
    (s'.running = true → s'.accept.active = true) ∧
      (s'.accept.active = true → s.running = true → s'.running = true) := by
  unfold State.acceptStep at h
  split at h
  · cases h
    cases hr : s.running <;> simp [Accept.active]
  · cases h
    exact ⟨fun _ => rfl, fun _ hr => hr⟩
  · cases h
    cases hr : s.running <;> simp [Accept.active]
  · rename_i r ha
    rw [if_pos hl] at h
    cases h
    refine ⟨fun _ => ?_, fun _ hr => hr⟩
    cases r <;> rfl
  · cases h
    exact ⟨fun _ => rfl, fun _ hr => hr⟩
  · obtain ⟨t, ht, rfl⟩ := Option.map_eq_some_iff.mp h
    exact ⟨fun _ => rfl, fun _ hr => (joinWorker_cases ht).running.trans hr⟩
  · cases h
    exact ⟨fun _ => rfl, fun _ hr => hr⟩
  · cases h
    exact ⟨fun _ => rfl, fun _ hr => hr⟩
  · cases h
    exact ⟨fun _ => rfl, fun _ hr => hr⟩
  · cases h
    exact ⟨fun hr => (by cases hr), fun ha => (by cases ha)⟩
  · cases h

theorem live_start : Live start where
  loop h := by cases h
  listener h := by cases h
  flag h := by cases h

/-- Where the owner is elsewhere than after `Start`, the flag is down. -/
theorem Live.down (h : Live s) (hm : s.main ≠ .idle .started) : s.running = false := by
  cases hr : s.running with
  | false => rfl
  | true => exact absurd (h.loop hr).2 hm

theorem Live.ofDown (hr : s.running = false) (hm : s.main ≠ .idle .started) : Live s where
  loop h := absurd (hr.symm.trans h) (by decide)
  listener h := absurd h hm
  flag h := absurd h hm

theorem Live.step {x : In} (h : Live s) (hp : s.Phase) (hs : s.step x = some s') : Live s' := by
  have hst := step_cases hs
  cases hst with
  | accept ha =>
    obtain ⟨hm, hls, -⟩ := ha.frame
    refine ⟨fun hr => ?_, fun hm' => hls.trans (h.listener (hm.symm.trans hm')), fun hm' hact => ?_⟩
    · obtain ⟨-, hmain⟩ := h.loop (ha.running hr)
      exact ⟨(acceptStep_loops hs (h.listener hmain)).1 hr, hm.trans hmain⟩
    · have hmain := hm.symm.trans hm'
      exact (acceptStep_loops hs (h.listener hmain)).2 hact (h.flag hmain ha.active)
  | dial | pump | finish => exact ⟨h.loop, h.listener, h.flag⟩
  | bound hm =>
    rw [State.Phase, hm] at hp
    exact ⟨fun _ => ⟨rfl, rfl⟩, fun _ => hp.2.1, fun _ _ => rfl⟩
  | fails | gives | close => exact .ofDown rfl Main.noConfusion
  | noService hm | noSsh hm => exact .ofDown (h.down (by rw [hm]; decide)) (fun hf => by cases hf)
  | throws hm =>
    refine .ofDown (h.down ?_) (fun hf => by cases hf)
    rcases hm with hm | hm <;> rw [hm] <;> exact Main.noConfusion
  | joinWorker hm hj =>
    exact .ofDown (hj.running.trans (h.down (by rw [hm]; exact Main.noConfusion))) Main.noConfusion
  | @closeSocket caller hm =>
    refine .ofDown (h.down (by rw [hm]; exact Main.noConfusion)) ?_
    cases caller <;> exact fun hf => by cases hf
  | cancelAgain hm | cancel hm =>
    have hne : s.main ≠ .idle .started := by rw [hm]; exact Main.noConfusion
    exact .ofDown (h.down hne) hne
  | _ hm => exact .ofDown (h.down (by rw [hm]; exact fun hf => by cases hf)) Main.noConfusion

end SshExporter

/-! ## An SSH tunnel -/

namespace TunnelConnection

variable {s s' : State}

/-- `WorkerFunction` is in its accept loop. -/
def Worker.serving : Worker → Bool
  | .test | .select | .accept | .check | .channel | .spawn => true
  | _ => false

theorem Worker.hasListener_of_serving {w : Worker} (h : w.serving = true) : w.hasListener = true := by
  cases w <;> first | rfl | cases h

/-- The worker leaves its loop for an error. -/
def Worker.exits : Worker → WorkerEv → Bool
  | .select, .select .error | .accept, .accept .error => true
  | _, _ => false

/-- The loop goes on while the flag is up and there is no error. -/
theorem workerStep_serving {e : WorkerEv} (h : s.workerStep e = some s') (hr : s.isRunning = true)
    (hs : s.worker.serving = true) (he : s.worker.exits e = false) : s'.worker.serving = true := by
  unfold State.workerStep at h
  split at h
  case h_1 hw | h_2 hw | h_3 hw | h_14 hw => rw [hw] at hs; cases hs
  case h_4 =>
    rw [if_pos hr] at h
    cases h
    rfl
  case h_7 hw | h_10 hw => rw [hw] at he; cases he
  case h_11 =>
    rw [if_pos hr] at h
    cases h
    rfl
  case h_12 => split at h <;> cases h <;> rfl
  all_goals cases h <;> rfl

/-- The flag is up from `StartWorker` to `Close`. -/
def Flagged (s : State) : Prop := s.isRunning = true ↔ s.main = .idle .started

theorem Flagged.ofDown (hr : s.isRunning = false) (hm : s.main ≠ .idle .started) : Flagged s :=
  ⟨fun h => absurd (hr.symm.trans h) (by decide), fun h => absurd h hm⟩

theorem Flagged.down (h : Flagged s) (hm : s.main ≠ .idle .started) : s.isRunning = false := by
  cases hr : s.isRunning with
  | false => rfl
  | true => exact absurd (h.mp hr) hm

theorem WorkerStep.isRunning {e : WorkerEv} (h : WorkerStep s e s') : s'.isRunning = s.isRunning := by
  cases h <;> rfl

theorem nextAddr_ne (k n : Nat) : (s.nextAddr k n).main ≠ .idle .started := by
  unfold State.nextAddr
  split <;> exact fun h => by cases h

theorem Step.flagged {x : In} (h : Step s x s') (hf : Flagged s) : Flagged s' := by
  cases h with
  | worker h =>
    unfold Flagged
    rw [h.isRunning, h.frame.1]
    exact hf
  | probe | forwarder => exact hf
  | startWorker => exact ⟨fun _ => rfl, fun _ => rfl⟩
  | close => exact .ofDown rfl Main.noConfusion
  | @connect valid hm =>
    refine .ofDown (hf.down (by rw [hm]; decide)) ?_
    cases valid <;> exact fun h => by cases h
  | @resolve n hm =>
    refine .ofDown (hf.down (by rw [hm]; decide)) ?_
    by_cases hn : 0 < n <;> simp [hn]
  | noSocket hm => exact .ofDown (hf.down (by rw [hm]; exact Main.noConfusion)) (nextAddr_ne _ _)
  | refused hm => exact .ofDown (hf.down (by rw [hm]; exact Main.noConfusion)) (nextAddr_ne _ _)
  | @authenticate ok hm =>
    refine .ofDown (hf.down (by rw [hm]; decide)) ?_
    cases ok <;> exact fun h => by cases h
  | @closeSocket d hm =>
    refine .ofDown (hf.down (by rw [hm]; exact Main.noConfusion)) ?_
    cases d <;> exact fun h => by cases h
  | _ hm => exact .ofDown (hf.down (by rw [hm]; exact fun h => by cases h)) (fun h => by cases h)

/-- `is_connected_` after a step: `Connect` sets it at its end, `Close` takes it
down at its own. -/
def connectedAfter (s : State) (x : In) (isConnected : Bool) : Bool :=
  match x, s.main with
  | .handshake true, _ => true
  | .closeStep, .close .closeSocket _ => false
  | _, _ => isConnected

/-- From the end of `Connect` to `Close`. -/
def Main.linked : Main → Bool
  | .idle .connected | .idle .authenticated | .idle .started => true
  | _ => false

theorem nextAddr_linked (k n : Nat) : (s.nextAddr k n).main.linked = false := by
  unfold State.nextAddr
  by_cases h : k + 1 < n <;> simp [h, Main.linked]

theorem Step.connectedAfter {x : In} {c : Bool} (h : Step s x s') (hc : s.main.linked = true → c = true)
    (hl : s'.main.linked = true) : TunnelConnection.connectedAfter s x c = true := by
  cases h with
  | worker h =>
    rw [h.frame.1] at hl
    exact hc hl
  | probe | forwarder => exact hc hl
  | handshake => rfl
  | authenticate hm | startWorker hm => exact hc (by rw [hm]; rfl)
  | @connect valid => cases valid <;> cases hl
  | @resolve n hm => by_cases hn : 0 < n <;> simp [hn, Main.linked] at hl
  | noSocket | refused => exact absurd (hl.symm.trans (nextAddr_linked _ _)) (by decide)
  | @closeSocket d => cases d <;> cases hl
  | _ => cases hl

/-- From `StartWorker` on. -/
def Main.past : Main → Bool
  | .idle .started | .close _ _ | .idle .closed | .destroyed => true
  | _ => false

theorem Step.past {x : In} (h : Step s x s') (hp : s.main.past = true) : s'.main.past = true := by
  cases h with
  | worker h => rw [h.frame.1]; exact hp
  | probe | forwarder => exact hp
  | @closeSocket d => cases d <;> rfl
  | _ hm =>
    first
    | rfl
    | rw [hm] at hp
      cases hp

end TunnelConnection

/-- A `TunnelConnection`, with `is_connected_`, and whether `CreateTunnel` has
made the handle for it. -/
structure SshTunnelHandle where
  conn : TunnelConnection.State
  isConnected : Bool
  made : Bool

inductive SshIn where
  | conn (x : TunnelConnection.In)
  /-- A probe of `TestTunnelConnection` is answered, by whoever listens on the
  port, and the handle is made. -/
  | tested

namespace SshTunnelHandle

open TunnelConnection

variable {h h' : SshTunnelHandle}

def new : SshTunnelHandle := ⟨TunnelConnection.start, false, false⟩

def step (h : SshTunnelHandle) : SshIn → Option SshTunnelHandle
  | .conn x => (h.conn.step x).map fun s => ⟨s, connectedAfter h.conn x h.isConnected, h.made⟩
  | .tested => if h.conn.main = .idle .started ∧ h.conn.isRunning then some { h with made := true } else none

/-- `IsConnected` of the connection, once there is a handle to ask. -/
def isActive (h : SshTunnelHandle) : Bool := h.made && (h.isConnected && h.conn.isRunning)

/-- The probe was answered by the worker's own listener, and the worker of a
handle that is not closed has no error. -/
def Sound (h : SshTunnelHandle) : SshIn → Prop
  | .tested => h.conn.worker.serving = true
  | .conn (.worker e) => h.made = true → h.conn.isRunning = true → h.conn.worker.exits e = false
  | .conn _ => True

structure Live (h : SshTunnelHandle) : Prop where
  flag : Flagged h.conn
  connected : h.conn.main.linked = true → h.isConnected = true
  past : h.made = true → h.conn.main.past = true
  loop : h.made = true → h.conn.isRunning = true → h.conn.worker.serving = true

theorem live_new : Live new where
  flag := .ofDown rfl (fun h => by cases h)
  connected h := by cases h
  past h := by cases h
  loop h := by cases h

/-- A step that leaves the flag up is `StartWorker`, or one of the worker, or
leaves the worker where it is. -/
theorem step_worker {s s' : State} {x : In} (hf : Flagged s) (hs : s.step x = some s')
    (hr : s'.isRunning = true) : s.main = .idle .authenticated ∨ s.isRunning = true ∧
      (s'.worker = s.worker ∨ ∃ e, x = .worker e ∧ s.workerStep e = some s') := by
  have hst := step_cases hs
  cases hst with
  | startWorker hm => exact .inl hm
  | worker hw => exact .inr ⟨hw.isRunning ▸ hr, .inr ⟨_, rfl, hs⟩⟩
  | close => cases hr
  | joinWorker hm => exact absurd (hf.mp hr) (by rw [hm]; exact Main.noConfusion)
  | _ => exact .inr ⟨hr, .inl rfl⟩

theorem Live.step {e : SshIn} (hl : Live h) (hc : h.Sound e) (hs : h.step e = some h') : Live h' := by
  cases e with
  | tested =>
    simp only [SshTunnelHandle.step] at hs
    split at hs
    case isFalse => cases hs
    case isTrue hm =>
    cases hs
    exact ⟨hl.flag, hl.connected, fun _ => by rw [hm.1]; rfl, fun _ _ => hc⟩
  | conn x =>
    obtain ⟨s, hx, rfl⟩ := Option.map_eq_some_iff.mp hs
    have hst := step_cases hx
    refine ⟨hst.flagged hl.flag, hst.connectedAfter hl.connected, fun hm => hst.past (hl.past hm), fun hm hr => ?_⟩
    rcases step_worker hl.flag hx hr with ha | ⟨hr₀, hw | ⟨e, rfl, hw⟩⟩
    · have hp := hl.past hm
      rw [ha] at hp
      cases hp
    · rw [hw]
      exact hl.loop hm hr₀
    · exact workerStep_serving hw hr₀ (hl.loop hm hr₀) (hc hm hr₀)

end SshTunnelHandle

/-! ## A mesh export -/

namespace MeshExporter

variable {α : Type} {s s' : State α}

/-- The Go exporter accepts, and nobody has closed it. -/
structure Accepting (g : Shim.Exporter α) : Prop where
  loop : g.acceptPc = .accepting
  closed : g.closed = false
  inv : g.Inv

/-- `acceptLoop` goes on without an error of `Accept` and a call of `Close`. -/
theorem Accepting.step {g g' : Shim.Exporter α} {e : Shim.ExportEv α} (h : Accepting g) (hs : g.step e = some g')
    (hc : e ≠ .close) (he : ∀ err, e ≠ .acceptErr err) : Accepting g' := by
  have hinv := h.inv.step hs
  have hst := Shim.Exporter.step_cases hs
  cases hst with
  | closeAgain | close => exact absurd rfl hc
  | @acceptErr err => exact absurd rfl (he err)
  | accept => exact ⟨h.loop, h.closed, hinv⟩
  | acceptEnd ha => exact absurd (h.loop.symm.trans ha) Shim.AcceptPc.noConfusion
  | serve =>
    obtain ⟨hl, hpc, hcl, -⟩ := (Shim.Exporter.serve_untouched hs).listener
    exact ⟨hpc.trans h.loop, hcl.trans h.closed, hinv⟩
  | closeLn hj | closeConn hj | closeEnd hj =>
    exact absurd (h.closed.symm.trans (h.inv.closed_of_closing hj)) (by decide)

/-- No error of `Accept`, and no call of `Close` but its own, while the object
owns the listener. -/
def Sound (s : State α) : In α → Prop
  | .exporter e => s.owns = true → e ≠ .close ∧ ∀ err, e ≠ .acceptErr err
  | _ => True

/-- `listening_` is not set here. -/
def Main.down : Main → Bool
  | .selfJson | .idle .started | .idle .failed | .close _ => false
  | _ => true

structure Live (s : State α) : Prop where
  loop : s.owns = true → ∃ g, s.exporter = some g ∧ Accepting g
  flag : s.main = .selfJson ∨ s.main = .idle .started → s.listening = true
  down : s.main.down = true → s.listening = false

theorem live_start (localAddr : String) : Live (start localAddr : State α) where
  loop h := by cases h
  flag h := by rcases h with h | h <;> cases h
  down _ := rfl

theorem owns_eq (h : ∀ handle, s.main ≠ .own handle) : s.owns = s.listening := by
  unfold State.owns
  split
  case h_1 handle hm => exact absurd hm (h handle)
  case h_2 => rfl

/-- The object need not own a listener here. -/
def Main.free : Main → Bool
  | .own _ | .selfJson | .idle .started => false
  | _ => true

theorem Live.ofDown (hl : s.listening = false) (hm : s.main.free = true) : Live s where
  loop h := by
    have ho : s.owns = s.listening := owns_eq fun handle hf => by rw [hf] at hm; cases hm
    exact absurd (ho.symm.trans h) (by rw [hl]; decide)
  flag h := by rcases h with h | h <;> rw [h] at hm <;> cases hm
  down _ := hl

theorem Live.afterClose (hl : s.listening = false) (destroy : Bool) :
    Live { s with main := MeshExporter.afterClose destroy } :=
  .ofDown hl (by cases destroy <;> rfl)

/-- The owner goes from one place to another with the listener as it is. -/
theorem Live.goto {m : Main} (h : Live s) (hs : ∀ handle, s.main ≠ .own handle) (ho : ∀ handle, m ≠ .own handle)
    (hf : m = .selfJson ∨ m = .idle .started → s.listening = true) (hd : m.down = true → s.listening = false) :
    Live { s with main := m } where
  loop hl := by
    have hl : s.listening = true := (owns_eq (s := { s with main := m }) ho).symm.trans hl
    exact h.loop ((owns_eq hs).trans hl)
  flag := hf
  down := hd

theorem Live.step {x : In α} (h : Live s) (hc : Sound s x) (hs : s.step x = some s') : Live s' := by
  unfold State.step at hs
  split at hs
  case h_1 hm | h_3 hm =>
    cases hs
    have hd := h.down (by rw [hm]; rfl)
    exact .ofDown hd rfl
  case h_2 ok hm =>
    cases hs
    have hd := h.down (by rw [hm]; rfl)
    cases ok <;> exact .ofDown hd rfl
  case h_4 handle hm =>
    cases hs
    refine ⟨fun _ => ⟨_, rfl, rfl, rfl, .start _⟩, fun hf => ?_, fun _ => h.down (by rw [hm]; rfl)⟩
    rcases hf with hf | hf <;> cases hf
  case h_5 handle hm =>
    cases hs
    refine ⟨fun _ => h.loop (by rw [State.owns, hm]), fun _ => rfl, fun hf => by cases hf⟩
  case h_6 ok hm =>
    cases hs
    have hl := h.flag (.inl hm)
    refine h.goto (by rw [hm]; exact fun _ hf => by cases hf) (fun _ hf => by cases hf) (fun _ => hl) fun hf => ?_
    cases ok <;> cases hf
  case h_7 hm | h_8 hm =>
    cases hs
    refine h.goto (by rw [hm]; exact fun _ hf => by cases hf) (fun _ hf => by cases hf) (fun hf => ?_) fun hf => ?_
    · rcases hf with hf | hf <;> cases hf
    · cases hf
  case h_9 destroy hm =>
    cases hs
    split
    case isTrue => exact .ofDown rfl rfl
    case isFalse hl => exact .afterClose (by simpa using hl) destroy
  case h_10 handle destroy found hm =>
    have hd := h.down (by rw [hm]; rfl)
    split at hs
    case isTrue =>
      obtain ⟨g, hg, hs⟩ := Option.bind_eq_some_iff.mp hs
      obtain ⟨g', hg', hs⟩ := Option.bind_eq_some_iff.mp hs
      cases hs
      exact .ofDown hd rfl
    case isFalse =>
      cases hs
      exact .afterClose hd destroy
  case h_11 j destroy hm =>
    have hd := h.down (by rw [hm]; rfl)
    obtain ⟨g, hg, hs⟩ := Option.bind_eq_some_iff.mp hs
    split at hs <;> cases hs
    exact .afterClose hd destroy
  case h_12 e _ =>
    obtain ⟨g, hg, hs⟩ := Option.bind_eq_some_iff.mp hs
    obtain ⟨g', hg', hs⟩ := Option.bind_eq_some_iff.mp hs
    cases hs
    refine ⟨fun ho => ?_, h.flag, h.down⟩
    obtain ⟨g₀, hg₀, hacc⟩ := h.loop ho
    obtain rfl : g = g₀ := Option.some.inj (hg.symm.trans hg₀)
    exact ⟨g', rfl, hacc.step hg' (hc ho).1 (hc ho).2⟩
  case h_13 => cases hs

end MeshExporter

/-! ## Every kind -/

inductive Kind where
  | ssh
  | meshForwarder
  | sshExporter
  | meshExporter (localAddr : String)

/-- A handle, or what becomes one. -/
inductive Handle (α : Type) where
  | ssh (h : SshTunnelHandle)
  | meshForwarder (s : MeshForwarder.State)
  | sshExporter (s : SshExporter.State)
  | meshExporter (s : MeshExporter.State α)

inductive HandleIn (α : Type) where
  | ssh (e : SshIn)
  | meshForwarder (x : MeshForwarder.In)
  | sshExporter (x : SshExporter.In)
  | meshExporter (x : MeshExporter.In α)

namespace Handle

variable {α : Type} {h h' : Handle α}

def new : Kind → Handle α
  | .ssh => .ssh .new
  | .meshForwarder => .meshForwarder MeshForwarder.start
  | .sshExporter => .sshExporter SshExporter.start
  | .meshExporter localAddr => .meshExporter (MeshExporter.start localAddr)

def step : Handle α → HandleIn α → Option (Handle α)
  | .ssh h, .ssh e => (h.step e).map .ssh
  | .meshForwarder s, .meshForwarder x => (s.step x).map .meshForwarder
  | .sshExporter s, .sshExporter x => (s.step x).map .sshExporter
  | .meshExporter s, .meshExporter x => (s.step x).map .meshExporter
  | _, _ => none

def isActive : Handle α → Bool
  | .ssh h => h.isActive
  | .meshForwarder s => s.running
  | .sshExporter s => s.running
  | .meshExporter s => s.listening

/-- The accept loop has been started and has not ended. -/
def looping : Handle α → Bool
  | .ssh h => h.conn.worker.serving
  | .meshForwarder s => s.accept.active
  | .sshExporter s => s.accept.active
  | .meshExporter s => s.exporter.any (·.acceptPc = .accepting)

/-- The listener has been opened and has not been closed. -/
def listenerOpen : Handle α → Bool
  | .ssh h => h.conn.worker.hasListener
  | .meshForwarder s => s.listenSock
  | .sshExporter s => s.listener
  | .meshExporter s => s.exporter.any (·.lnCloses = 0)

/-- The handle has been handed out, and `Close` has not been called. -/
def started : Handle α → Bool
  | .ssh h => h.made && h.conn.main = .idle .started
  | .meshForwarder s => s.main = .idle .started
  | .sshExporter s => s.main = .idle .started
  | .meshExporter s => s.main = .idle .started

/-- The step takes no exit that leaves a flag up. -/
def Sound : Handle α → HandleIn α → Prop
  | .ssh h, .ssh e => h.Sound e
  | .meshExporter s, .meshExporter x => MeshExporter.Sound s x
  | _, _ => True

def Live : Handle α → Prop
  | .ssh h => h.Live
  | .meshForwarder s => MeshForwarder.Live s
  | .sshExporter s => SshExporter.Inv s ∧ SshExporter.Live s
  | .meshExporter s => MeshExporter.Live s

theorem live_new (kind : Kind) : Live (new kind : Handle α) := by
  cases kind with
  | ssh => exact SshTunnelHandle.live_new
  | meshForwarder => exact MeshForwarder.live_start
  | sshExporter => exact ⟨SshExporter.inv_start, SshExporter.live_start⟩
  | meshExporter localAddr => exact MeshExporter.live_start localAddr

theorem Live.step {e : HandleIn α} (hl : Live h) (hc : h.Sound e) (hs : h.step e = some h') : Live h' := by
  unfold Handle.step at hs
  split at hs
  case h_1 =>
    obtain ⟨s, hst, rfl⟩ := Option.map_eq_some_iff.mp hs
    exact SshTunnelHandle.Live.step hl hc hst
  case h_2 =>
    obtain ⟨s, hst, rfl⟩ := Option.map_eq_some_iff.mp hs
    exact MeshForwarder.Live.step hl hst
  case h_3 =>
    obtain ⟨s, hst, rfl⟩ := Option.map_eq_some_iff.mp hs
    exact ⟨hl.1.step (SshExporter.step_cases hst), hl.2.step hl.1.phase hst⟩
  case h_4 =>
    obtain ⟨s, hst, rfl⟩ := Option.map_eq_some_iff.mp hs
    exact MeshExporter.Live.step hl hc hst
  case h_5 => cases hs

/-- `IsActive` is true only of a handle that is in its accept loop on an open
listener, and of every started and un-closed handle that is in its accept loop. -/
structure Tells (h : Handle α) : Prop where
  listening : h.isActive = true → h.looping = true ∧ h.listenerOpen = true
  active : h.started = true → h.looping = true → h.isActive = true

theorem Live.listening (hl : Live h) (ha : h.isActive = true) : h.looping = true ∧ h.listenerOpen = true := by
  cases h with
  | ssh h =>
    simp only [isActive, SshTunnelHandle.isActive, Bool.and_eq_true] at ha
    have hw := hl.loop ha.1 ha.2.2
    exact ⟨hw, TunnelConnection.Worker.hasListener_of_serving hw⟩
  | meshForwarder s => exact ⟨(hl.loop ha).1, (hl.loop ha).2.1⟩
  | sshExporter s =>
    obtain ⟨hact, hm⟩ := hl.2.loop ha
    exact ⟨hact, hl.2.listener hm⟩
  | meshExporter s =>
    have ho : s.owns = true := by
      unfold MeshExporter.State.owns
      split
      · rfl
      · exact ha
    obtain ⟨g, hg, hacc⟩ := hl.loop ho
    have hle := hacc.inv.lnCloses_le
    rw [hacc.closed] at hle
    have hln : g.lnCloses = 0 := Nat.le_zero.mp hle
    simp [looping, listenerOpen, hg, hacc.loop, hln]

theorem Live.active (hl : Live h) (hs : h.started = true) (hloop : h.looping = true) : h.isActive = true := by
  cases h with
  | ssh h =>
    simp only [started, Bool.and_eq_true, decide_eq_true_eq] at hs
    have hr := hl.flag.mpr hs.2
    have hc := hl.connected (by rw [hs.2]; rfl)
    simp [isActive, SshTunnelHandle.isActive, hs.1, hr, hc]
  | meshForwarder s => exact hl.flag (.inr (of_decide_eq_true hs))
  | sshExporter s => exact hl.2.flag (of_decide_eq_true hs) hloop
  | meshExporter s => exact hl.flag (.inr (of_decide_eq_true hs))

/-- So it is for a handle of any kind, in every state of a run that takes none of
the exits that leave a flag up. -/
theorem isActive_tells (kind : Kind) (es : List (HandleIn α)) (h : Handle α) (hr : Lts.Run step (new kind) es h)
    (hc : Lts.Along step Sound (new kind) es) : h.Tells := by
  have hl : Live h := hr.invAlong (fun _ _ _ hi hc hs => hi.step hc hs) hc (live_new kind)
  exact ⟨hl.listening, hl.active⟩

/-- An SSH tunnel is connected, its worker comes to listen, and the handle is made. -/
def listeningTunnel : List (HandleIn Nat) :=
  ([.connect true, .resolve 1, .socket true, .connected true, .sessionInit true, .handshake true,
    .authenticate true true, .startWorker, .worker (.answer true), .worker (.answer true), .worker (.answer true),
    .worker .test] : List TunnelConnection.In).map (fun x => .ssh (.conn x)) ++ [.ssh .tested]

/-- It stays idle: the worker waits for a client and looks at its flag again. -/
def idleTunnel : List (HandleIn Nat) :=
  listeningTunnel ++ [.ssh (.conn (.worker (.select .timeout))), .ssh (.conn (.worker .test))]

theorem idleTunnel_active :
    ∃ h : Handle Nat, Lts.Run step (new .ssh) idleTunnel h ∧ h.isActive = true ∧ h.looping = true ∧
      h.listenerOpen = true := by
  have hrun : ∃ h : Handle Nat, Lts.Run step (new .ssh) idleTunnel h ∧ h.started = true ∧ h.looping = true :=
    ⟨_, rfl, rfl, rfl⟩
  have hsound : Lts.Along step Sound (new .ssh : Handle Nat) idleTunnel := by
    refine .cons trivial rfl (.cons trivial rfl (.cons trivial rfl (.cons trivial rfl (.cons trivial rfl (.cons trivial
      rfl (.cons trivial rfl (.cons trivial rfl (.cons ?_ rfl (.cons ?_ rfl (.cons ?_ rfl (.cons ?_ rfl (.cons ?_ rfl
      (.cons ?_ rfl (.cons ?_ rfl Lts.along_nil))))))))))))))
    case refine_5 => rfl
    case refine_6 | refine_7 => exact fun _ _ => rfl
    all_goals exact fun hm => by cases hm
  obtain ⟨h, hr, hs, hl⟩ := hrun
  have htells := isActive_tells .ssh idleTunnel h hr hsound
  have hactive := htells.active hs hl
  exact ⟨h, hr, hactive, htells.listening hactive⟩

/-- `accept` fails once: the worker closes its listener and ends. -/
def failedAccept : List (HandleIn Nat) :=
  listeningTunnel ++ ([.select (.ready true false), .accept .error, .call] : List TunnelConnection.WorkerEv).map
    fun e => .ssh (.conn (.worker e))

/-- `Accept` of an export's listener fails once: the Go accept loop ends. -/
def failedGoAccept : List (HandleIn Nat) :=
  ([.start, .ensureUp true, .meshExport (some 1), .own, .settle true, .exporter (.acceptErr "netstack closed"),
    .exporter .acceptEnd] : List (MeshExporter.In Nat)).map .meshExporter

/-- In both, the handle is still active. -/
theorem active_without_loop :
    (∃ h : Handle Nat, Lts.Run step (new .ssh) failedAccept h ∧ ¬h.Tells) ∧
    ∃ h : Handle Nat, Lts.Run step (new (.meshExporter "127.0.0.1:8080")) failedGoAccept h ∧ ¬h.Tells := by
  have hssh : ∃ h : Handle Nat, Lts.Run step (new .ssh) failedAccept h ∧ h.isActive = true ∧ h.looping = false :=
    ⟨_, rfl, rfl, rfl⟩
  have hgo : ∃ h : Handle Nat, Lts.Run step (new (.meshExporter "127.0.0.1:8080")) failedGoAccept h ∧
      h.isActive = true ∧ h.looping = false := ⟨_, rfl, rfl, rfl⟩
  obtain ⟨h, hr, ha, hl⟩ := hssh
  obtain ⟨g, hgr, hga, hgl⟩ := hgo
  refine ⟨⟨h, hr, fun ht => ?_⟩, g, hgr, fun ht => ?_⟩
  · exact absurd (hl.symm.trans (ht.listening ha).1) (by decide)
  · exact absurd (hgl.symm.trans (ht.listening hga).1) (by decide)

end Handle

end ErplTunnel.Lifecycle

import ErplTunnel.Lifecycle.DialTcp
import ErplTunnel.Lifecycle.Descriptors
import ErplTunnel.Lifecycle.MeshTeardown
import ErplTunnel.Lifecycle.ExportTeardown

/-!
# FD_SET stays in its domain

On POSIX `FD_SET` is defined on descriptors below `FD_SETSIZE`. The system
numbers the descriptors (`Os`), and a process with many open files gets numbers
beyond that. `SshExporter` asks `SocketFitsInFdSet` of the SSH socket and of the
socket of each worker, and refuses the ones that do not fit; a socket whose
connect is in progress, a listener, an accepted client and a mesh stream are put
into a set as they are. So the sets are in order in every run in which the
system numbers those below the limit (`fd_sets_in_domain`).
-/

namespace ErplTunnel.Lifecycle

open Relay Pump Pool

def fdSetSize : Int := 1024

/-- `SocketFitsInFdSet`, on POSIX. -/
def socketFitsInFdSet (s : Int) : Bool := decide (0 ≤ s) && decide (s < fdSetSize)

/-- `FD_SET` is defined. -/
def InDomain (s : Int) : Prop := 0 ≤ s ∧ s < fdSetSize

theorem socketFitsInFdSet_iff {s : Int} : socketFitsInFdSet s = true ↔ InDomain s := by
  simp [socketFitsInFdSet, InDomain]

/-- What the system, or the shim, makes of the descriptors that are opened: their
numbers, and which of them are in progress after `connect`. -/
structure Os (ρ : Type) where
  number : ρ → Int
  inProgress : ρ → Bool

namespace TunnelConnection

open Pump.ForwardData (Pc)

variable {s s' : State} {os : Os Fd}

/-- The descriptors that a forwarder puts into a set. -/
def forwarderFdSets (os : Os Fd) (i : Nat) : Pc → List Int
  | .select => [os.number (.client i)]
  | _ => []

/-- The descriptors that a step puts into a set. -/
def fdSets (os : Os Fd) (s : State) : In → List Int
  | .probe => if os.inProgress (.probe s.probes) then [os.number (.probe s.probes)] else []
  | .worker (.select _) => [os.number .listen]
  | .forwarder i _ =>
    match s.clients[i]? with
    | some (.thread p _) => forwarderFdSets os i p.pc
    | _ => []
  | _ => []

/-- The descriptors that the step opens and that are put into a set unchecked
are numbered below the limit. -/
def Fits (os : Os Fd) (s : State) : In → Prop
  | .probe => os.inProgress (.probe s.probes) = true → InDomain (os.number (.probe s.probes))
  | .worker (.answer true) => s.worker = .socket → InDomain (os.number .listen)
  | .worker (.accept .client) => InDomain (os.number (.client s.clients.length))
  | _ => True

/-- What is open fits. -/
structure Ranged (os : Os Fd) (s : State) : Prop where
  listen : s.worker.hasListener = true → InDomain (os.number .listen)
  clients : ∀ i < s.clients.length, InDomain (os.number (.client i))
  client : s.worker.hasClient = true → InDomain (os.number (.client s.clients.length))

theorem ranged_start : Ranged os start :=
  ⟨nofun, nofun, nofun⟩

theorem Ranged.keep (h : Ranged os s) (hw : s'.worker = s.worker) (hc : s'.clients.length = s.clients.length) :
    Ranged os s' := by
  refine ⟨fun hl => h.listen (hw ▸ hl), fun i hi => h.clients i (hc ▸ hi), fun hl => ?_⟩
  rw [hc]
  exact h.client (hw ▸ hl)

/-- The client is closed, or handed to a forwarder. -/
theorem Ranged.snoc {c : Client} {w : Worker} (h : Ranged os s) (hn : s.worker.hasClient = true)
    (hl : s.worker.hasListener = true) (hw : s'.worker = w) (hw' : w.hasClient = false)
    (hc : s'.clients = s.clients ++ [c]) : Ranged os s' := by
  refine ⟨fun _ => h.listen hl, fun i hi => ?_, fun hn' => ?_⟩
  · rw [hc, List.length_append, List.length_singleton] at hi
    by_cases hlt : i < s.clients.length
    · exact h.clients i hlt
    · obtain rfl : i = s.clients.length := by omega
      exact h.client hn
  · rw [hw, hw'] at hn'
    cases hn'

/-- The worker goes on with the listener that it has. -/
theorem Ranged.goto (h : Ranged os s) (hl : s.worker.hasListener = true)
    (hn : s'.worker.hasClient = true → s.worker.hasClient = true) (hc : s'.clients = s.clients) : Ranged os s' := by
  refine ⟨fun _ => h.listen hl, fun i hi => h.clients i (hc ▸ hi), fun hn' => ?_⟩
  rw [hc]
  exact h.client (hn hn')

/-- The worker has no listener. -/
theorem Ranged.quiet (h : Ranged os s) (hl : s'.worker.hasListener = false) (hc : s'.clients = s.clients) :
    Ranged os s' := by
  refine ⟨fun hl' => ?_, fun i hi => h.clients i (hc ▸ hi), fun hn => ?_⟩
  · rw [hl] at hl'; cases hl'
  · rw [Worker.hasListener, hn, Bool.or_true] at hl; cases hl

theorem Ranged.worker {e : WorkerEv} (h : Ranged os s) (hf : Fits os s (.worker e)) (hs : WorkerStep s e s') :
    Ranged os s' := by
  cases hs with
  | noSocket hw => exact h.quiet rfl rfl
  | socket hw => exact ⟨fun _ => hf hw, h.clients, nofun⟩
  | broken hw => exact h.quiet rfl rfl
  | listening hw hw' =>
    refine h.goto (Worker.hasListener_of_listening hw) (fun hn => ?_) rfl
    rw [show Worker.hasClient _ = false from Worker.hasClient_of_listening hw'] at hn
    cases hn
  | test hw hw' =>
    refine h.goto (by rw [hw]; rfl) (fun hn => ?_) rfl
    rw [show Worker.hasClient _ = false from Worker.hasClient_of_listening hw'] at hn
    cases hn
  | accept hw => exact ⟨fun _ => h.listen (by rw [hw]; rfl), h.clients, fun _ => hf⟩
  | check hw => exact h.goto (by rw [hw]; rfl) (fun _ => by rw [hw]; rfl) rfl
  | channel hw => exact h.goto (by rw [hw]; rfl) (fun _ => by rw [hw]; rfl) rfl
  | stop hw => exact h.snoc (by rw [hw]; rfl) (by rw [hw]; rfl) rfl rfl rfl
  | noChannel hw => exact h.snoc (by rw [hw]; rfl) (by rw [hw]; rfl) rfl rfl rfl
  | spawn hw => exact h.snoc (by rw [hw]; rfl) (by rw [hw]; rfl) rfl rfl rfl
  | closeListen hw => exact h.quiet rfl rfl

theorem Ranged.step {x : In} (h : Ranged os s) (hf : Fits os s x) (hs : Step s x s') : Ranged os s' := by
  cases hs with
  | worker hs => exact h.worker hf hs
  | forwarder hc => exact h.keep rfl (List.length_set ..)
  | joinForwarder hm hc => exact h.keep rfl (List.length_set ..)
  | startWorker hm => exact h.quiet rfl rfl
  | joinWorker hm hw => exact h.quiet rfl rfl
  | _ => exact h.keep rfl rfl

/-- The sets of a step are in order. -/
def SetsInDomain (os : Os Fd) (s : State) (x : In) : Prop :=
  s.step x ≠ none → ∀ n ∈ fdSets os s x, InDomain n

theorem workerStep_select {r : SelectResult} (h : s.step (.worker (.select r)) ≠ none) : s.worker = .select := by
  have hw : s.workerStep (.select r) ≠ none := h
  cases hs : s.worker with
  | select => rfl
  | _ => exact absurd (by simp only [State.workerStep, hs]) hw

theorem Ranged.setsInDomain {x : In} (h : Ranged os s) (hf : Fits os s x) : SetsInDomain os s x := by
  intro hx n hn
  cases x with
  | probe =>
    simp only [fdSets] at hn
    split at hn
    · rename_i hp
      obtain rfl := List.mem_singleton.mp hn
      exact hf hp
    · cases hn
  | worker e =>
    cases e with
    | select r =>
      obtain rfl := List.mem_singleton.mp hn
      exact h.listen (by rw [workerStep_select hx]; rfl)
    | _ => cases hn
  | forwarder i e =>
    simp only [fdSets] at hn
    split at hn
    · rename_i p joinable hc
      simp only [forwarderFdSets] at hn
      split at hn
      · obtain rfl := List.mem_singleton.mp hn
        exact h.clients i (List.getElem?_eq_some_iff.mp hc).1
      · cases hn
    · cases hn
  | _ => cases hn

theorem setsInDomain_along {xs : List In} (h : Lts.Along State.step (Fits os) start xs) :
    Lts.Along State.step (SetsInDomain os) start xs :=
  h.ofInv (P := Ranged os) (fun _ _ _ hr hf hs => hr.step hf (step_cases hs)) (fun _ _ hr hf => hr.setsInDomain hf)
    ranged_start

end TunnelConnection

namespace MeshForwarder

open Pump.MeshForwarder (Pc)

variable {s s' : State} {os : Os Res}

/-- The descriptors that a pump puts into a set, itself or in `SendAll`. -/
def pumpFdSets (os : Os Res) (i : Nat) : Pc → List Int
  | .select => [os.number (.client i), os.number (.stream i)]
  | .sendAll d _ _ .wait _ => [os.number (sink i d)]
  | _ => []

/-- The descriptors that a step puts into a set. -/
def fdSets (os : Os Res) (s : State) : In → List Int
  | .accept (.select _) => [os.number .listen]
  | .pump i _ =>
    match s.clients[i]? with
    | some (.thread p _) => pumpFdSets os i p.pc
    | _ => []
  | _ => []

/-- The descriptors that the step opens and that are put into a set unchecked
are numbered below the limit. -/
def Fits (os : Os Res) (s : State) : In → Prop
  | .startCall true => s.main = .socket → InDomain (os.number .listen)
  | .accept (.accept true) => InDomain (os.number (.client s.clients.length))
  | .accept (.dial true) => InDomain (os.number (.stream s.clients.length))
  | _ => True

/-- `Start` has a listener that it has not handed over. -/
def Main.hasListener : Main → Bool
  | .bind | .listen => true
  | _ => false

/-- What is open fits. -/
structure Ranged (os : Os Res) (s : State) : Prop where
  listen : s.main.hasListener = true ∨ s.accept.active = true → InDomain (os.number .listen)
  clients : ∀ i < s.clients.length, InDomain (os.number (.client i))
  streams : ∀ i, At (Slot.Is fun _ => True) s.clients i → InDomain (os.number (.stream i))
  client : s.accept.hasClient = true → InDomain (os.number (.client s.clients.length))
  stream : s.accept = .spawn → InDomain (os.number (.stream s.clients.length))

theorem ranged_start : Ranged os start :=
  ⟨fun h => h.elim nofun nofun, nofun, fun _ h => absurd h not_at_nil, nofun, nofun⟩

/-- `Start` or `Close` goes on. -/
theorem Ranged.goto (h : Ranged os s) (hm : s'.main.hasListener = true → s.main.hasListener = true)
    (ha : s'.accept = s.accept) (hc : s'.clients = s.clients) : Ranged os s' := by
  refine ⟨fun hl => h.listen (hl.imp hm (ha ▸ id)), ?_, ?_, ?_, ?_⟩
  · rw [hc]; exact h.clients
  · rw [hc]; exact h.streams
  · rw [hc, ha]; exact h.client
  · rw [hc, ha]; exact h.stream

/-- A thread steps or is joined. -/
theorem Ranged.set {i : Nat} {p p' : St Pc} {joinable joinable' : Bool} (h : Ranged os s)
    (hi : s.clients[i]? = some (.thread p joinable)) (hm : s'.main.hasListener = true → s.main.hasListener = true)
    (ha : s'.accept = s.accept) (hc : s'.clients = s.clients.set i (.thread p' joinable')) : Ranged os s' := by
  have hlen : s'.clients.length = s.clients.length := by rw [hc, List.length_set]
  refine ⟨fun hl => h.listen (hl.imp hm (ha ▸ id)), ?_, fun j hj => ?_, ?_, ?_⟩
  · rw [hlen]; exact h.clients
  · rw [hc] at hj
    rcases (at_set hi).mp hj with ⟨-, hj⟩ | ⟨rfl, -⟩
    · exact h.streams j hj
    · exact h.streams j ((at_iff hi).mpr trivial)
  · rw [hlen, ha]; exact h.client
  · rw [hlen, ha]; exact h.stream

/-- The accept loop goes on without a client. -/
theorem Ranged.work (h : Ranged os s) (ha : s.accept.active = true) (hn : s'.accept.hasClient = false)
    (hc : s'.clients = s.clients) : Ranged os s' := by
  refine ⟨fun _ => h.listen (.inr ha), ?_, ?_, fun hn' => ?_, fun hs => ?_⟩
  · rw [hc]; exact h.clients
  · rw [hc]; exact h.streams
  · rw [hn] at hn'; cases hn'
  · rw [hs] at hn; cases hn

/-- The client is closed, or handed to a worker. -/
theorem Ranged.snoc {c : Slot (St Pc)} (h : Ranged os s) (ha : s.accept.hasClient = true)
    (hs : Slot.Is (fun _ => True) c → s.accept = .spawn) (hn : s'.accept.hasClient = false)
    (hc : s'.clients = s.clients ++ [c]) : Ranged os s' := by
  have hactive : s.accept.active = true := by
    cases hacc : s.accept <;> rw [hacc] at ha <;> first | rfl | cases ha
  refine ⟨fun _ => h.listen (.inr hactive), fun i hi => ?_, fun i hi => ?_, fun hn' => ?_, fun hs' => ?_⟩
  · rw [hc, List.length_append, List.length_singleton] at hi
    by_cases hlt : i < s.clients.length
    · exact h.clients i hlt
    · obtain rfl : i = s.clients.length := by omega
      exact h.client ha
  · rw [hc] at hi
    rcases at_snoc.mp hi with hi | ⟨rfl, hslot⟩
    · exact h.streams i hi
    · exact h.stream (hs hslot)
  · rw [hn] at hn'; cases hn'
  · rw [hs'] at hn; cases hn

theorem Ranged.accept {e : AcceptEv} (h : Ranged os s) (hf : Fits os s (.accept e)) (hs : AcceptStep s e s') :
    Ranged os s' := by
  have ha' : s.accept.active = true := hs.active
  cases hs with
  | enter ha => exact h.work ha' rfl rfl
  | leave ha => exact h.work ha' rfl rfl
  | @select ready ha => exact h.work ha' (by cases ready <;> rfl) rfl
  | noClient ha => exact h.work ha' rfl rfl
  | client ha => exact ⟨fun _ => h.listen (.inr ha'), h.clients, h.streams, fun _ => hf, nofun⟩
  | check ha =>
    exact ⟨fun _ => h.listen (.inr ha'), h.clients, h.streams, fun _ => h.client (by rw [ha]; rfl), nofun⟩
  | stop ha => exact h.snoc (by rw [ha]; rfl) (fun hc => absurd hc Slot.is_refused) rfl rfl
  | dial ha =>
    exact ⟨fun _ => h.listen (.inr ha'), h.clients, h.streams, fun _ => h.client (by rw [ha]; rfl), fun _ => hf⟩
  | noDial ha => exact h.snoc (by rw [ha]; rfl) (fun hc => absurd hc Slot.is_refused) rfl rfl
  | spawn ha => exact h.snoc (by rw [ha]; rfl) (fun _ => ha) rfl rfl

theorem Ranged.step {x : In} (h : Ranged os s) (hf : Fits os s x) (hs : Step s x s') : Ranged os s' := by
  cases hs with
  | accept hs => exact h.accept hf hs
  | pump hc => exact h.set hc id rfl rfl
  | joinWorker hm hc => exact h.set hc nofun rfl rfl
  | socket hm => exact ⟨fun _ => hf hm, h.clients, h.streams, h.client, h.stream⟩
  | bind hm => exact h.goto (fun _ => by rw [hm]; rfl) rfl rfl
  | listen hm => exact ⟨fun _ => h.listen (.inl (by rw [hm]; rfl)), h.clients, h.streams, nofun, nofun⟩
  | joinAccept hm ha => exact ⟨fun h => h.elim nofun nofun, h.clients, h.streams, nofun, nofun⟩
  | noProbe hm => exact h
  | @probe ok hm => exact h.goto (by cases ok <;> nofun) rfl rfl
  | @closeListen destroy hm hl => exact h.goto (by cases destroy <;> nofun) rfl rfl
  | @noListen destroy hm hl => exact h.goto (by cases destroy <;> nofun) rfl rfl
  | _ => exact h.goto nofun rfl rfl

/-- The sets of a step are in order. -/
def SetsInDomain (os : Os Res) (s : State) (x : In) : Prop :=
  s.step x ≠ none → ∀ n ∈ fdSets os s x, InDomain n

theorem acceptStep_select {ready : Bool} (h : s.step (.accept (.select ready)) ≠ none) : s.accept = .select := by
  have ha : s.acceptStep (.select ready) ≠ none := h
  cases hs : s.accept with
  | select => rfl
  | _ => exact absurd (by simp only [State.acceptStep, hs]) ha

theorem Ranged.pumpFdSets {i : Nat} {p : St Pc} {joinable : Bool} (h : Ranged os s)
    (hc : s.clients[i]? = some (.thread p joinable)) : ∀ n ∈ pumpFdSets os i p.pc, InDomain n := by
  have hclient := h.clients i (List.getElem?_eq_some_iff.mp hc).1
  have hstream := h.streams i ((at_iff hc).mpr trivial)
  intro n hn
  unfold MeshForwarder.pumpFdSets at hn
  split at hn
  · rcases List.mem_cons.mp hn with rfl | hn
    · exact hclient
    · obtain rfl := List.mem_singleton.mp hn
      exact hstream
  · rename_i d _ _ _ _
    obtain rfl := List.mem_singleton.mp hn
    cases d with
    | up => exact hstream
    | down => exact hclient
  · cases hn

theorem Ranged.setsInDomain {x : In} (h : Ranged os s) : SetsInDomain os s x := by
  intro hx n hn
  cases x with
  | accept e =>
    cases e with
    | select ready =>
      obtain rfl := List.mem_singleton.mp hn
      exact h.listen (.inr (by rw [acceptStep_select hx]; rfl))
    | _ => cases hn
  | pump i e =>
    simp only [fdSets] at hn
    split at hn
    · rename_i p joinable hc
      exact h.pumpFdSets hc n hn
    · cases hn
  | _ => cases hn

theorem setsInDomain_along {xs : List In} (h : Lts.Along State.step (Fits os) start xs) :
    Lts.Along State.step (SetsInDomain os) start xs :=
  h.ofInv (P := Ranged os) (fun _ _ _ hr hf hs => hr.step hf (step_cases hs)) (fun _ _ hr _ => hr.setsInDomain)
    ranged_start

end MeshForwarder

namespace SshExporter

open Pump.SshExporter (Pc)

variable {s s' : State} {os : Os Res}

/-- The number of a socket; there may be none. -/
def descriptor (os : Os Res) (name : Nat → Res) : Option Nat → Int
  | none => Dial.kInvalidSocket
  | some k => os.number (name k)

/-- The addresses that `DialTcp` opens a socket for, from address `k` on. -/
def opened (k : Nat) : List Attempt → List Nat
  | [] => []
  | .noSocket :: as => opened (k + 1) as
  | .refused :: as => k :: opened (k + 1) as
  | .connected :: _ => [k]

/-- The descriptors that `DialTcp` puts into a set. -/
def dialFdSets (os : Os Res) (name : Nat → Res) (attempts : List Attempt) : List Int :=
  ((opened 0 attempts).filter fun k => os.inProgress (name k)).map fun k => os.number (name k)

/-- The descriptors that a pump puts into a set, itself or in `SendAll`. -/
def pumpFdSets (os : Os Res) (i : Nat) (sock : Option Nat) : Pc → List Int
  | .select | .sendAll _ .wait _ => [descriptor os (.localService i) sock]
  | _ => []

/-- The descriptors that a step puts into a set. -/
def fdSets (os : Os Res) (s : State) : In → List Int
  | .start attempts => dialFdSets os .service attempts
  | .dialSsh attempts => dialFdSets os .ssh attempts
  | .dial i attempts => dialFdSets os (.localService i) attempts
  | .accept .select => [descriptor os .ssh s.sshSocket]
  | .pump i _ =>
    match s.served[i]? with
    | some (.thread (.pumping p sock) _) => pumpFdSets os i sock p.pc
    | _ => []
  | _ => []

/-- The check of `Start` and that of `Pump` answer what `SocketFitsInFdSet` says
of the socket. -/
def checks (os : Os Res) (s : State) : In → Bool
  | .startCall ok => s.main != .fits || ok == socketFitsInFdSet (descriptor os .ssh s.sshSocket)
  | .pump i (.answer ok) =>
    match s.served[i]? with
    | some (.thread (.pumping p sock) _) =>
      p.pc != .fits || ok == socketFitsInFdSet (descriptor os (.localService i) sock)
    | _ => true
  | _ => true

/-- A step of the object on this system. -/
def stepOn (os : Os Res) (s : State) (x : In) : Option State := if checks os s x then s.step x else none

/-- The sockets that a dial opens are numbered below the limit if their connect
is in progress. -/
def DialFits (os : Os Res) (name : Nat → Res) (attempts : List Attempt) : Prop :=
  ∀ k ∈ opened 0 attempts, os.inProgress (name k) = true → InDomain (os.number (name k))

/-- The descriptors that the step opens and that are put into a set unchecked
are numbered below the limit. -/
def Fits (os : Os Res) (_ : State) : In → Prop
  | .start attempts => DialFits os .service attempts
  | .dialSsh attempts => DialFits os .ssh attempts
  | .dial i attempts => DialFits os (.localService i) attempts
  | _ => True

/-- `Start` has checked the SSH socket. -/
def Main.checked : Main → Bool
  | .sessionInit | .handshake | .auth | .listen | .bound | .idle .started => true
  | _ => false

/-- `Pump` has checked its socket and not come to close it. -/
def polls : Pc → Bool
  | .dial | .fits | .closeLocal | .channelClose | .channelFree | .done => false
  | _ => true

/-- A pump comes to its loop through the check only. -/
theorem polls_of_step {p p' : St Pc} {e : Ev} (h : Pump.SshExporter.Step p e p') (he : e ≠ .shutdown)
    (hp : polls p'.pc = true) : polls p.pc = true ∨ p.pc = .fits ∧ e = .answer true := by
  cases h with
  | shutdown => exact absurd rfl he
  | @dial valid hpc => cases valid <;> cases hp
  | @fits fits hpc =>
    cases fits
    · cases hp
    · exact .inr ⟨hpc, rfl⟩
  | closeLocal hpc | channelClose hpc | channelFree hpc => cases hp
  | _ hpc => exact .inl (by rw [hpc]; rfl)

/-- What has been checked fits. -/
structure Ranged (os : Os Res) (s : State) : Prop where
  ssh : s.main.checked = true ∨ s.accept.active = true → InDomain (descriptor os .ssh s.sshSocket)
  workers : ∀ (i : Nat) p sock joinable, s.served[i]? = some (.thread (.pumping p sock) joinable) →
    polls p.pc = true → InDomain (descriptor os (.localService i) sock)

theorem ranged_start : Ranged os start :=
  ⟨fun h => h.elim nofun nofun, nofun⟩

theorem Ranged.goto (h : Ranged os s) (hm : s'.main.checked = true → s.main.checked = true)
    (ha : s'.accept.active = true → s.accept.active = true) (hk : s'.sshSocket = s.sshSocket)
    (hs : s'.served = s.served) : Ranged os s' := by
  refine ⟨fun hl => ?_, ?_⟩
  · rw [hk]; exact h.ssh (hl.imp hm ha)
  · rw [hs]; exact h.workers

/-- `Start` has not come to its check, or is not in it any more. -/
theorem Ranged.leave (h : Ranged os s) (hm : s'.main.checked = false)
    (ha : s'.accept.active = true → s.accept.active = true) (hk : s'.sshSocket = s.sshSocket)
    (hs : s'.served = s.served) : Ranged os s' :=
  h.goto (fun hc => absurd (hm.symm.trans hc) Bool.false_ne_true) ha hk hs

/-- No thread looks at the socket. -/
theorem Ranged.quiet (h : Ranged os s) (hn : s.Stopped) (hm : s'.main.checked = false) (ha : s'.accept = s.accept)
    (hs : s'.served = s.served) : Ranged os s' := by
  refine ⟨fun hl => ?_, ?_⟩
  · rcases hl with hl | hl
    · rw [hm] at hl; cases hl
    · rw [ha] at hl; exact absurd hl hn.not_active
  · rw [hs]; exact h.workers

/-- A worker steps. -/
theorem Ranged.set {i : Nat} {slot : Slot Worker} (h : Ranged os s) (hm : s'.main = s.main)
    (ha : s'.accept = s.accept) (hk : s'.sshSocket = s.sshSocket) (hs : s'.served = s.served.set i slot)
    (hslot : ∀ p sock joinable, slot = .thread (.pumping p sock) joinable → polls p.pc = true →
      InDomain (descriptor os (.localService i) sock)) : Ranged os s' := by
  refine ⟨?_, fun j p sock joinable hj hp => ?_⟩
  · rw [hm, ha, hk]; exact h.ssh
  · rw [hs, List.getElem?_set] at hj
    split at hj
    · rename_i hij
      subst hij
      split at hj
      · exact hslot p sock joinable (Option.some.inj hj) hp
      · cases hj
    · exact h.workers j p sock joinable hj hp

theorem JoinStep.ranged {i : Nat} (hs : JoinStep s i s') (h : Ranged os s) : Ranged os s' := by
  cases hs with
  | joined hc => exact h.set rfl rfl rfl rfl nofun
  | notJoinable hc => exact h

theorem Ranged.accept {e : AcceptEv} (h : Ranged os s) (hs : AcceptStep s e s') : Ranged os s' := by
  have ha' : s.accept.active = true := hs.active
  cases hs with
  | join ha hj =>
    obtain ⟨-, -, -, -, hacc, -⟩ := hj.frame
    exact (hj.ranged h).goto id (fun _ => by rw [hacc]; exact ha') rfl rfl
  | spawn ha =>
    refine ⟨fun _ => h.ssh (.inr ha'), fun j p sock joinable hj hp => ?_⟩
    rcases at_snoc.mp ⟨_, hj, Eq.refl (Slot.thread (Worker.pumping p sock) joinable)⟩ with ⟨_, hj, rfl⟩ | ⟨-, hnew⟩
    · exact h.workers j p sock joinable hj hp
    · -- it has not dialled yet
      cases hnew
      cases hp
  | _ => exact h.goto id (fun _ => ha') rfl rfl

theorem stepOn_eq_some {x : In} : stepOn os s x = some s' ↔ checks os s x = true ∧ s.step x = some s' := by
  unfold stepOn
  split <;> simp_all

theorem Ranged.step {x : In} (h : Ranged os s) (hi : Inv s) (hx : checks os s x = true) (hs : Step s x s') :
    Ranged os s' := by
  have hp := hi.phase
  cases hs with
  | accept hs => exact h.accept hs
  | dial hc hd hs =>
    refine h.set rfl rfl rfl rfl ?_
    rintro p sock joinable ⟨⟩ hpolls
    rcases polls_of_step hs nofun hpolls with hpolls | ⟨hpc, -⟩
    · rw [hd] at hpolls; cases hpolls
    · rw [hd] at hpc; cases hpc
  | @pump i e p p' sock joinable hc hd he hs =>
    refine h.set rfl rfl rfl rfl ?_
    rintro _ _ _ ⟨⟩ hpolls
    rcases polls_of_step hs he hpolls with hpolls | ⟨hpc, rfl⟩
    · exact h.workers i p sock joinable hc hpolls
    · have hcheck : socketFitsInFdSet (descriptor os (.localService i) sock) = true := by
        have hpc : p.pc = .fits := hpc
        simpa [checks, hc, hpc] using hx
      exact socketFitsInFdSet_iff.mp hcheck
  | finish hc =>
    refine h.set rfl rfl rfl rfl ?_
    rintro p sock joinable ⟨⟩
  | noService hm | service hm | noSsh hm => exact h.leave rfl id rfl rfl
  | ssh hm =>
    rw [State.Phase, hm] at hp
    exact h.quiet hp.1.ended.1 rfl rfl rfl
  | throws hm =>
    have hu : s.Unstarted := by
      rcases hm with hm | hm <;> rw [State.Phase, hm] at hp <;> exact hp.1
    exact h.quiet hu.ended.1 rfl rfl rfl
  | fits hm =>
    have hcheck : socketFitsInFdSet (descriptor os .ssh s.sshSocket) = true := by
      simpa [checks, hm] using hx
    exact ⟨fun _ => socketFitsInFdSet_iff.mp hcheck, h.workers⟩
  | sessionInit hm | handshake hm | auth hm | listen hm =>
    exact h.goto (fun _ => by rw [hm]; rfl) id rfl rfl
  | bound hm => exact ⟨fun _ => h.ssh (.inl (by rw [hm]; rfl)), h.workers⟩
  | joinAccept hm ha =>
    refine ⟨fun hl => ?_, h.workers⟩
    rcases hl with hl | hl <;> cases hl
  | joinWorker hm hj => exact (hj.ranged h).leave rfl id rfl rfl
  | @closeSocket caller hm =>
    rw [State.Phase, hm] at hp
    exact h.quiet hp.1.1 (by cases caller <;> rfl) rfl rfl
  | cancelAgain hm hl => exact h.goto id id rfl rfl
  | cancel hm hl => exact h.goto id id rfl rfl
  | _ => exact h.leave rfl id rfl rfl

/-- A socket that does not fit is refused: `Start` closes it and throws, and a
worker goes on to close it. -/
structure Refuses (os : Os Res) (s : State) (x : In) (s' : State) : Prop where
  ssh : ∀ ok, x = .startCall ok → s.main = .fits → ¬InDomain (descriptor os .ssh s.sshSocket) →
    s'.main = .idle .failed ∧ s'.log = s.log ++ s.ssh .release
  worker : ∀ (i : Nat) e p sock joinable, x = .pump i e → s.served[i]? = some (.thread (.pumping p sock) joinable) →
    p.pc = .fits → ¬InDomain (descriptor os (.localService i) sock) →
    ∃ p', s'.served[i]? = some (.thread (.pumping p' sock) joinable) ∧ p'.pc = .closeLocal

theorem step_fits {p p' : St Pc} {e : Ev} (hpc : p.pc = .fits) (he : e ≠ .shutdown)
    (h : Pump.SshExporter.step { p with running := s.running } e = some p') :
    ∃ b, e = .answer b ∧ p'.pc = if b then .head else .closeLocal := by
  cases Pump.SshExporter.step_cases h with
  | shutdown => exact absurd rfl he
  | @fits b => exact ⟨b, rfl, rfl⟩
  | _ hpc' => exact absurd (hpc.symm.trans hpc') nofun

theorem refuses_of_stepOn {x : In} (h : stepOn os s x = some s') : Refuses os s x s' := by
  obtain ⟨hx, hs⟩ := stepOn_eq_some.mp h
  refine ⟨?_, ?_⟩
  · rintro ok rfl hm hn
    have hok : ok = false := by
      rw [← socketFitsInFdSet_iff, Bool.not_eq_true] at hn
      simpa [checks, hm, hn] using hx
    have hstart : s.startStep (.startCall false) = some s' := by
      subst hok
      simpa only [State.step, hm] using hs
    simp only [State.startStep, hm, Bool.false_eq_true, ↓reduceIte, Option.some.injEq] at hstart
    subst hstart
    exact ⟨rfl, rfl⟩
  · rintro i e p sock joinable rfl hc hpc hn
    have hpump : s.pumpStep i e = some s' := hs
    simp only [State.pumpStep, hc] at hpump
    obtain ⟨_, hg, hpump⟩ := Option.bind_eq_some_iff.mp hpump
    obtain ⟨p', hp, hpump⟩ := Option.bind_eq_some_iff.mp hpump
    obtain rfl := Option.some.inj hpump
    obtain ⟨b, rfl, hb⟩ := step_fits hpc ((Option.guard_eq_some' _).mp hg).2 hp
    have hfalse : b = false := by
      rw [← socketFitsInFdSet_iff, Bool.not_eq_true] at hn
      simpa [checks, hc, hpc, hn] using hx
    refine ⟨p', List.getElem?_set_self (List.getElem?_eq_some_iff.mp hc).1, ?_⟩
    rw [hb, hfalse]
    rfl

/-- The sets of a step are in order, and what does not fit is refused. -/
def SetsInDomain (os : Os Res) (s : State) (x : In) : Prop :=
  ∀ s', stepOn os s x = some s' → (∀ n ∈ fdSets os s x, InDomain n) ∧ Refuses os s x s'

theorem DialFits.domain {name : Nat → Res} {attempts : List Attempt} (h : DialFits os name attempts) :
    ∀ n ∈ dialFdSets os name attempts, InDomain n := by
  intro n hn
  obtain ⟨k, hk, rfl⟩ := List.mem_map.mp hn
  obtain ⟨hk, hp⟩ := List.mem_filter.mp hk
  exact h k hk hp

theorem acceptStep_select (h : s.step (.accept .select) = some s') : s.accept = .select := by
  have ha : s.acceptStep .select = some s' := h
  cases hs : s.accept with
  | select => rfl
  | _ => simp only [State.acceptStep, hs, reduceCtorEq] at ha

theorem Ranged.pumpFdSets {i : Nat} {p : St Pc} {sock : Option Nat} {joinable : Bool} (h : Ranged os s)
    (hc : s.served[i]? = some (.thread (.pumping p sock) joinable)) :
    ∀ n ∈ pumpFdSets os i sock p.pc, InDomain n := by
  intro n hn
  unfold SshExporter.pumpFdSets at hn
  split at hn
  · rename_i hpc
    obtain rfl := List.mem_singleton.mp hn
    exact h.workers i p sock joinable hc (by rw [hpc]; rfl)
  · rename_i hpc
    obtain rfl := List.mem_singleton.mp hn
    exact h.workers i p sock joinable hc (by rw [hpc]; rfl)
  · cases hn

theorem Ranged.setsInDomain {x : In} (h : Ranged os s) (hf : Fits os s x) : SetsInDomain os s x := by
  intro s' hs
  refine ⟨fun n hn => ?_, refuses_of_stepOn hs⟩
  cases x with
  | start attempts => exact DialFits.domain hf n hn
  | dialSsh attempts => exact DialFits.domain hf n hn
  | dial i attempts => exact DialFits.domain hf n hn
  | accept e =>
    cases e with
    | select =>
      obtain rfl := List.mem_singleton.mp hn
      exact h.ssh (.inr (by rw [acceptStep_select (stepOn_eq_some.mp hs).2]; rfl))
    | _ => cases hn
  | pump i e =>
    simp only [fdSets] at hn
    split at hn
    · rename_i hc
      exact h.pumpFdSets hc n hn
    · cases hn
  | _ => cases hn

theorem setsInDomain_along {xs : List In} (h : Lts.Along (stepOn os) (Fits os) start xs) :
    Lts.Along (stepOn os) (SetsInDomain os) start xs := by
  refine h.ofInv (P := fun s => Inv s ∧ Ranged os s) (fun s x s' hp hf hs => ?_)
    (fun s x hp hf => hp.2.setsInDomain hf) ⟨inv_start, ranged_start⟩
  obtain ⟨hx, hs⟩ := stepOn_eq_some.mp hs
  exact ⟨hp.1.step (step_cases hs), hp.2.step hp.1 hx (step_cases hs)⟩

theorem opened_fdSets (name : Nat → Res) (k : Nat) (res : List Dial.Address)
    (h : ∀ (j : Nat) a, res[j]? = some a → os.number (name (k + j)) = a.socket ∧
      os.inProgress (name (k + j)) = (a.connect == .inProgress)) :
    (((opened k (res.map Dial.Address.attempt)).filter fun k => os.inProgress (name k)).map fun k =>
      os.number (name k)) = ((Dial.tried res).filter Dial.Address.pending).map Dial.Address.socket := by
  induction res generalizing k with
  | nil => rfl
  | cons a as ih =>
    obtain ⟨hnum, hprog⟩ := h 0 a rfl
    rw [Nat.add_zero] at hnum hprog
    have hrest := ih (k + 1) fun j b hj => by
      rw [Nat.add_right_comm, Nat.add_assoc]
      exact h (j + 1) b hj
    by_cases hv : Dial.socketValid a.socket
    · have hpend : a.pending = os.inProgress (name k) := by rw [hprog, Dial.Address.pending, hv, Bool.true_and]
      by_cases hc : a.connects
      · have hatt : a.attempt = .connected := by simp [Dial.Address.attempt, hv, hc]
        simp only [List.map_cons, hatt, opened, Dial.tried, hc, ↓reduceIte]
        by_cases hp : os.inProgress (name k) = true
        · simp [hp, hpend, hnum]
        · simp [hp, hpend]
      · have hatt : a.attempt = .refused := by simp [Dial.Address.attempt, hv, hc]
        simp only [List.map_cons, hatt, opened, Dial.tried, hc, Bool.false_eq_true, ↓reduceIte]
        by_cases hp : os.inProgress (name k) = true
        · simp only [List.filter_cons, hp, hpend, ↓reduceIte, List.map_cons, hnum, hrest]
        · simp only [List.filter_cons, hp, hpend, Bool.false_eq_true, ↓reduceIte, hrest]
    · have hatt : a.attempt = .noSocket := by simp [Dial.Address.attempt, hv]
      have hc : ¬a.connects = true := fun hc => hv (Dial.socketValid_of_connects hc)
      have hp : ¬a.pending = true := by simp [Dial.Address.pending, hv]
      simp only [List.map_cons, hatt, opened, Dial.tried, hc, List.filter_cons, hp, Bool.false_eq_true, ↓reduceIte, hrest]

/-- The sets are those of `DialTcp`, on a system that answers for the addresses as
they say. -/
theorem dialFdSets_eq (name : Nat → Res) (host : String) (port : Int) (ms : Int32) (res : List Dial.Address)
    (h : ∀ (k : Nat) a, res[k]? = some a → os.number (name k) = a.socket ∧
      os.inProgress (name k) = (a.connect == .inProgress)) :
    dialFdSets os name (res.map Dial.Address.attempt) = (Dial.dialTcp host port ms res).2.fdSets := by
  rw [(Dial.dialTcp_calls ms host port res).2]
  exact opened_fdSets name 0 res fun k a hk => by rw [Nat.zero_add]; exact h k a hk

end SshExporter

/-- In every run in which the system numbers below the limit what is put into a
set unchecked, `FD_SET` is used in its domain, and a socket that is checked and
does not fit is refused. -/
theorem fd_sets_in_domain (conn : Os TunnelConnection.Fd) (fwd : Os MeshForwarder.Res) (exporter : Os SshExporter.Res) :
    (∀ xs : List TunnelConnection.In,
      Lts.Along TunnelConnection.State.step (TunnelConnection.Fits conn) TunnelConnection.start xs →
      Lts.Along TunnelConnection.State.step (TunnelConnection.SetsInDomain conn) TunnelConnection.start xs) ∧
    (∀ xs : List MeshForwarder.In,
      Lts.Along MeshForwarder.State.step (MeshForwarder.Fits fwd) MeshForwarder.start xs →
      Lts.Along MeshForwarder.State.step (MeshForwarder.SetsInDomain fwd) MeshForwarder.start xs) ∧
    (∀ xs : List SshExporter.In,
      Lts.Along (SshExporter.stepOn exporter) (SshExporter.Fits exporter) SshExporter.start xs →
      Lts.Along (SshExporter.stepOn exporter) (SshExporter.SetsInDomain exporter) SshExporter.start xs) :=
  ⟨fun _ h => TunnelConnection.setsInDomain_along h, fun _ h => MeshForwarder.setsInDomain_along h,
    fun _ h => SshExporter.setsInDomain_along h⟩
/-- The listener of a mesh import is waited for. -/
def waitsForClient : List MeshForwarder.In :=
  [.start, .startCall true, .startCall true, .startCall true, .startCall true, .accept .test]

/-- A process with few open files. -/
def roomyOs : Os MeshForwarder.Res := ⟨fun _ => 7, fun _ => false⟩

/-- A process with as many open files as a set can hold. -/
def crowdedOs : Os MeshForwarder.Res := ⟨fun _ => 1024, fun _ => false⟩

theorem roomyOs_in_domain :
    ∃ s, Lts.Run MeshForwarder.State.step MeshForwarder.start waitsForClient s ∧
      MeshForwarder.fdSets roomyOs s (.accept (.select true)) = [7] ∧
      MeshForwarder.SetsInDomain roomyOs s (.accept (.select true)) := by
  have hfits : Lts.Along MeshForwarder.State.step (MeshForwarder.Fits roomyOs) MeshForwarder.start
      (waitsForClient ++ [.accept (.select true)]) := by
    have hseven : InDomain 7 := ⟨by decide, by decide⟩
    have hd : ∀ r, InDomain (roomyOs.number r) := fun _ => hseven
    intro _ x _ s _ _
    cases x with
    | startCall ok => cases ok <;> first | exact trivial | exact fun _ => hd _
    | accept e =>
      cases e with
      | accept valid => cases valid <;> first | exact trivial | exact hd _
      | dial ok => cases ok <;> first | exact trivial | exact hd _
      | _ => exact trivial
    | _ => exact trivial
  refine ⟨_, rfl, rfl, ?_⟩
  have h := fd_sets_in_domain ⟨fun _ => 7, fun _ => false⟩ roomyOs ⟨fun _ => 7, fun _ => false⟩
  exact (h.2.1 _ hfits).last rfl

/-- The listener is put into a set that has no place for it. -/
theorem crowdedOs_out_of_domain :
    ∃ s, Lts.Run MeshForwarder.State.step MeshForwarder.start waitsForClient s ∧
      1024 ∈ MeshForwarder.fdSets crowdedOs s (.accept (.select true)) ∧
      ¬MeshForwarder.SetsInDomain crowdedOs s (.accept (.select true)) := by
  refine ⟨_, rfl, List.mem_singleton.mpr rfl, fun h => ?_⟩
  have hdomain : InDomain 1024 := h nofun 1024 (List.mem_singleton.mpr rfl)
  exact absurd hdomain.2 (by decide)

end ErplTunnel.Lifecycle

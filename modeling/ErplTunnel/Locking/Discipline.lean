import Mathlib.Order.WellFounded
import ErplTunnel.Locking.Code

/-!
# The order of the locks

`may h r` lists what a thread that holds `h` may wait for: the manager waits
for a handle's attributes under its own mutex, `Close` joins the workers of its
own object, a backend calls the shim under its mutex, and every lock of the shim
is taken alone. The code of every kind of thread keeps to it (`bodies_obey`), one
lemma a function, so every run of the process does.
-/

namespace ErplTunnel.Locking

open Threads (Allows BodiesObey System)
open Threads.Code

abbrev Res := Threads.Res Mutex Kind

/-- A mutex in the shim. -/
def Mutex.inShim : Mutex → Bool
  | .reg | .node _ | .exporter _ => true
  | _ => false

/-- A mutex that a call of a `MeshBackend` takes. -/
def Mutex.inBackend : Mutex → Bool
  | .meshBackend _ | .loader => true
  | m => m.inShim

/-- A mutex that `GetAttributes` or `IsActive` of a handle takes. -/
def Mutex.ofHandle : Mutex → Bool
  | .meshForwarder _ | .meshExporter _ | .sshExporter _ => true
  | _ => false

/-- A thread that `Close` of a handle joins. -/
def Kind.ofHandle : Kind → Bool
  | .meshAccept _ | .meshPump _ | .sshAccept _ | .sshPump _ | .worker _ | .forward _ => true
  | _ => false

/-- While a thread holds `h`, it may wait for `r`. -/
inductive May : Res → Res → Prop
  | query (m : Mutex) : May (.thread .query) (.mutex m)
  | close {k : Kind} (hk : k.ofHandle) : May (.thread .query) (.thread k)
  | attributes {m : Mutex} (hm : m.ofHandle) : May (.mutex .tunnels) (.mutex m)
  | dial (o : Nat) {m : Mutex} (hm : m.inBackend) : May (.thread (.meshAccept o)) (.mutex m)
  | meshAccept (o : Nat) : May (.thread (.meshAccept o)) (.mutex (.meshForwarder o))
  | meshPumps (o : Nat) : May (.mutex (.meshForwarder o)) (.thread (.meshPump o))
  | worker (o : Nat) : May (.thread (.worker o)) (.mutex (.forwardThreads o))
  | forwards (o : Nat) : May (.mutex (.forwardThreads o)) (.thread (.forward o))
  | sshAccept (o : Nat) {m : Mutex} (hm : m = .session o ∨ m = .workers o ∨ m = .sshExporter o) :
    May (.thread (.sshAccept o)) (.mutex m)
  | reap (o : Nat) : May (.thread (.sshAccept o)) (.thread (.sshPump o))
  | sshPump (o : Nat) {m : Mutex} (hm : m = .session o ∨ m = .sshExporter o) : May (.thread (.sshPump o)) (.mutex m)
  | backend (b : Nat) {m : Mutex} (hm : m = .loader ∨ m.inShim) : May (.mutex (.meshBackend b)) (.mutex m)
  | once : May (.mutex .sshOnce) (.mutex .socketOnce)
  | acceptLoop (e : Nat) : May (.thread (.acceptLoop e)) (.mutex (.exporter e))
  | serve (e : Nat) : May (.thread (.serve e)) (.mutex (.exporter e))
  | serveCopies (e : Nat) : May (.thread (.serve e)) (.thread (.serveCopy e))
  | bridgeCopies (n : Nat) : May (.thread (.bridge n)) (.thread (.bridgeCopy n))

def level : Res → Nat
  | .thread .query => 8
  | .mutex .tunnels => 7
  | .thread (.meshAccept _) | .thread (.sshAccept _) | .thread (.worker _) => 6
  | .mutex (.meshForwarder _) | .mutex (.forwardThreads _) | .thread (.sshPump _) => 5
  | .mutex (.meshBackend _) | .thread (.acceptLoop _) | .thread (.serve _) | .mutex .sshOnce => 4
  | .thread (.bridge _) | .mutex _ => 3
  | .thread _ => 2

/-- What may be waited for is lower than what is held. -/
theorem May.level_lt {h r : Res} (hm : May h r) : level r < level h := by
  cases hm with
  | query m => cases m <;> simp [level]
  | close hk => rename_i k; cases k <;> simp_all [Kind.ofHandle, level]
  | attributes hm | dial o hm | backend b hm =>
    rename_i m
    cases m <;> simp_all [Mutex.ofHandle, Mutex.inBackend, Mutex.inShim, level]
  | sshAccept o hm => obtain rfl | rfl | rfl := hm <;> simp [level]
  | sshPump o hm => obtain rfl | rfl := hm <;> simp [level]
  | meshAccept | meshPumps | worker | forwards | reap | once | acceptLoop | serve | serveCopies | bridgeCopies =>
    simp [level]

theorem wellFounded_may : WellFounded fun r h => May h r :=
  Subrelation.wf (fun hm => hm.level_lt) (measure level).wf

attribute [local simp] Threads.Code.Obeys Threads.Code.all Threads.Code.oneOf maybe mayRet mayThrow ret throw lock
  guarded

/-! ### The shim -/

/-- With `H` held, the mutexes of the shim may be waited for. -/
structure AllowsShim (H : List Res) : Prop where
  reg : Allows May H (.mutex .reg)
  node (n : Nat) : Allows May H (.mutex (.node n))
  exporter (e : Nat) : Allows May H (.mutex (.exporter e))

section Shim

variable {H : List Res} (hH : AllowsShim H) (shim : Shim) (n : Nat)
include hH

theorem exporterClose_obeys (e : Nat) : (Exporter.close e).Obeys May H := by
  simp [Exporter.close, hH.exporter]

theorem mesh_new_obeys : mesh_new.Obeys May H := by
  simp [mesh_new, hH.reg]

theorem mesh_set_str_obeys : (mesh_set_str n).Obeys May H := by
  simp [mesh_set_str, get, hH.reg, hH.node]

theorem mesh_set_bool_obeys : (mesh_set_bool shim n).Obeys May H := by
  cases shim <;> simp [mesh_set_bool, get, hH.reg, hH.node]

theorem mesh_up_obeys : (mesh_up shim n).Obeys May H := by
  cases shim <;> simp [mesh_up, get, setErr, mayFail, hH.reg, hH.node]

theorem mesh_export_obeys : (mesh_export n).Obeys May H := by
  simp [mesh_export, get, setErr, mayFail, Exporter.startExport, addExport, hH.reg, hH.node]

theorem mesh_unexport_obeys : (mesh_unexport n).Obeys May H := by
  simp [mesh_unexport, get, takeExport, exporterClose_obeys hH, hH.reg, hH.node]

theorem mesh_dial_obeys : (mesh_dial n).Obeys May H := by
  simp [mesh_dial, get, setErr, mayFail, hH.reg, hH.node]

theorem mesh_peers_json_obeys : (mesh_peers_json shim n).Obeys May H := by
  cases shim <;> simp [mesh_peers_json, get, setErr, mayFail, hH.reg, hH.node]

theorem mesh_self_json_obeys : (mesh_self_json shim n).Obeys May H := by
  cases shim <;> simp [mesh_self_json, get, setErr, mayFail, hH.reg, hH.node]

theorem mesh_errmsg_obeys : (mesh_errmsg n).Obeys May H := by
  simp [mesh_errmsg, get, hH.reg, hH.node]

theorem mesh_close_obeys : (mesh_close n).Obeys May H := by
  simp [mesh_close, get, closeAllExports, exporterClose_obeys hH, hH.reg, hH.node]

end Shim

/-! ### The mesh backends -/

/-- With `H` held, what a call of a backend takes may be waited for. -/
structure AllowsBackend (H : List Res) : Prop where
  meshBackend (b : Nat) : Allows May H (.mutex (.meshBackend b))
  loader : Allows May H (.mutex .loader)
  shim : AllowsShim H

/-- Under a backend's own mutex. -/
theorem AllowsBackend.locked {H : List Res} (hH : AllowsBackend H) (b : Nat) :
    AllowsShim (.mutex (.meshBackend b) :: H) where
  reg := by simpa using ⟨May.backend b (.inr rfl), hH.shim.reg⟩
  node n := by simpa using ⟨May.backend b (.inr rfl), hH.shim.node n⟩
  exporter e := by simpa using ⟨May.backend b (.inr rfl), hH.shim.exporter e⟩

theorem allowsBackend_query : AllowsBackend [.thread .query] where
  meshBackend b := by simpa using May.query _
  loader := by simpa using May.query _
  shim := ⟨by simpa using May.query _, fun n => by simpa using May.query _, fun e => by simpa using May.query _⟩

theorem allowsBackend_meshAccept (o : Nat) : AllowsBackend [.thread (.meshAccept o)] where
  meshBackend b := by simpa using May.dial o rfl
  loader := by simpa using May.dial o rfl
  shim := {
    reg := by simpa using May.dial o rfl
    node n := by simpa using May.dial o rfl
    exporter e := by simpa using May.dial o rfl }

theorem mayFail_obeys {H : List Res} (hH : AllowsShim H) : MeshBackend.mayFail.Obeys May H := by
  simp [MeshBackend.mayFail, MeshBackend.lastError, mesh_errmsg_obeys hH]

section Backend

variable {H : List Res} (hH : AllowsBackend H) (shim : Shim) (b : Nat)
include hH

theorem ensureUp_obeys : (MeshBackend.ensureUp shim b).Obeys May H := by
  have hs := hH.locked b
  have hl : Allows May (.mutex (.meshBackend b) :: H) (.mutex .loader) := by
    simpa using ⟨May.backend b (.inl rfl), hH.loader⟩
  simp [MeshBackend.ensureUp, MeshLoader.activate, mesh_new_obeys hs, mesh_set_str_obeys hs, mesh_set_bool_obeys hs,
    mesh_up_obeys hs, mayFail_obeys hs, hH.meshBackend, hl]

theorem dial_obeys : (MeshBackend.dial shim b).Obeys May H := by
  have hs := hH.locked b
  simp [MeshBackend.dial, ensureUp_obeys hH, mesh_dial_obeys hs, mayFail_obeys hs, hH.meshBackend]

theorem export_obeys : (MeshBackend.export' shim b).Obeys May H := by
  have hs := hH.locked b
  simp [MeshBackend.export', ensureUp_obeys hH, mesh_export_obeys hs, mayFail_obeys hs, hH.meshBackend]

theorem unexport_obeys : (MeshBackend.unexport b).Obeys May H := by
  simp [MeshBackend.unexport, mesh_unexport_obeys (hH.locked b), hH.meshBackend]

theorem json_obeys {q : Nat → Code} (hq : ∀ n, (q n).Obeys May (.mutex (.meshBackend b) :: H)) :
    (MeshBackend.json shim q b).Obeys May H := by
  simp [MeshBackend.json, ensureUp_obeys hH, hq, mayFail_obeys (hH.locked b), hH.meshBackend]

theorem peersJson_obeys : (MeshBackend.peersJson shim b).Obeys May H :=
  json_obeys hH shim b fun n => mesh_peers_json_obeys (hH.locked b) shim n

theorem selfJson_obeys : (MeshBackend.selfJson shim b).Obeys May H :=
  json_obeys hH shim b fun n => mesh_self_json_obeys (hH.locked b) shim n

theorem destroy_obeys : (MeshBackend.destroy b).Obeys May H := by
  simp [MeshBackend.destroy, mesh_close_obeys (hH.locked b), hH.meshBackend]

end Backend

/-! ### The handles -/

theorem meshForwarderStart_obeys (shim : Shim) (o : Nat) :
    (MeshForwarder.start shim o).Obeys May [.thread .query] := by
  simp [MeshForwarder.start, ensureSocketSubsystem, ensureUp_obeys allowsBackend_query, May.query]

theorem meshForwarderClose_obeys (o : Nat) : (MeshForwarder.close o).Obeys May [.thread .query] := by
  simp [MeshForwarder.close, May.query, May.meshPumps, May.close (show (Kind.meshAccept o).ofHandle from rfl),
    May.close (show (Kind.meshPump o).ofHandle from rfl)]

theorem meshExporterStart_obeys (shim : Shim) (o : Nat) :
    (MeshExporter.start shim o).Obeys May [.thread .query] := by
  simp [MeshExporter.start, ensureUp_obeys allowsBackend_query, export_obeys allowsBackend_query,
    selfJson_obeys allowsBackend_query, May.query]

theorem meshExporterClose_obeys (o : Nat) : (MeshExporter.close o).Obeys May [.thread .query] := by
  simp [MeshExporter.close, unexport_obeys allowsBackend_query, May.query]

theorem sshExporterClose_obeys (o : Nat) : (SshExporter.close o).Obeys May [.thread .query] := by
  simp [SshExporter.close, May.query, May.close (show (Kind.sshAccept o).ofHandle from rfl),
    May.close (show (Kind.sshPump o).ofHandle from rfl)]

theorem sshExporterStart_obeys (o : Nat) : (SshExporter.start o).Obeys May [.thread .query] := by
  simp [SshExporter.start, ensureSocketSubsystem, sshExporterClose_obeys, May.query]

theorem tunnelConnectionNew_obeys : TunnelConnection.new.Obeys May [.thread .query] := by
  simp [TunnelConnection.new, ensureSshSubsystem, ensureSocketSubsystem, May.query, May.once]

theorem tunnelConnectionClose_obeys (o : Nat) : (TunnelConnection.close o).Obeys May [.thread .query] := by
  simp [TunnelConnection.close, May.query, May.forwards, May.close (show (Kind.worker o).ofHandle from rfl),
    May.close (show (Kind.forward o).ofHandle from rfl)]

theorem handleClose_obeys (h : Handle) : h.close.Obeys May [.thread .query] := by
  cases h with
  | ssh o => exact tunnelConnectionClose_obeys o
  | meshForwarder o => exact meshForwarderClose_obeys o
  | meshExporter o => exact meshExporterClose_obeys o
  | sshExporter o => exact sshExporterClose_obeys o

theorem getAttributes_obeys (h : Handle) : h.getAttributes.Obeys May [.mutex .tunnels, .thread .query] := by
  cases h with
  | ssh => trivial
  | meshForwarder | meshExporter | sshExporter =>
    simpa [Handle.getAttributes, MeshForwarder.getAttributes, MeshExporter.getAttributes, SshExporter.getAttributes,
      May.query] using May.attributes rfl

theorem isActive_obeys (h : Handle) : h.isActive.Obeys May [.mutex .tunnels, .thread .query] := by
  cases h with
  | ssh | meshForwarder | sshExporter => trivial
  | meshExporter => simpa [Handle.isActive, MeshExporter.isActive, May.query] using May.attributes rfl

theorem some_obeys {H : List Res} {f : Handle → Code} (hf : ∀ h, (f h).Obeys May H) :
    (Handle.some f).Obeys May H := by
  simp [Handle.some, hf]

/-! ### The manager and the queries -/

theorem createTunnel_obeys : TunnelManager.createTunnel.Obeys May [.thread .query] := by
  simp [TunnelManager.createTunnel, TunnelConnection.startWorker, TunnelManager.register, tunnelConnectionNew_obeys,
    tunnelConnectionClose_obeys, May.query]

theorem createMeshTunnel_obeys (shim : Shim) :
    (TunnelManager.createMeshTunnel shim).Obeys May [.thread .query] := by
  simp [TunnelManager.createMeshTunnel, TunnelManager.register, meshForwarderStart_obeys, meshForwarderClose_obeys,
    May.query]

theorem createMeshExport_obeys (shim : Shim) :
    (TunnelManager.createMeshExport shim).Obeys May [.thread .query] := by
  simp [TunnelManager.createMeshExport, TunnelManager.register, meshExporterStart_obeys, meshExporterClose_obeys,
    May.query]

theorem createSshExport_obeys : TunnelManager.createSshExport.Obeys May [.thread .query] := by
  simp [TunnelManager.createSshExport, TunnelManager.register, sshExporterStart_obeys, sshExporterClose_obeys,
    May.query]

theorem lookup_obeys : TunnelManager.lookup.Obeys May [.thread .query] := by
  simp [TunnelManager.lookup, some_obeys getAttributes_obeys, May.query]

theorem isTunnelActive_obeys : TunnelManager.isTunnelActive.Obeys May [.thread .query] := by
  simp [TunnelManager.isTunnelActive, some_obeys isActive_obeys, May.query]

theorem list_obeys : TunnelManager.list.Obeys May [.thread .query] := by
  simp [TunnelManager.list, some_obeys getAttributes_obeys]

theorem closeQuietly_obeys (h : Handle) : (TunnelManager.closeQuietly h).Obeys May [.thread .query] :=
  ⟨handleClose_obeys h, trivial⟩

theorem release_obeys (h : Handle) : (TunnelManager.release h).Obeys May [.thread .query] :=
  ⟨closeQuietly_obeys h, handleClose_obeys h, trivial⟩

theorem closeTunnel_obeys : TunnelManager.closeTunnel.Obeys May [.thread .query] := by
  simp [TunnelManager.closeTunnel, some_obeys release_obeys, May.query]

theorem closeAllTunnels_obeys : TunnelManager.closeAllTunnels.Obeys May [.thread .query] := by
  simp [TunnelManager.closeAllTunnels, some_obeys closeQuietly_obeys, some_obeys handleClose_obeys, May.query]

theorem cleanupInactiveTunnels_obeys : TunnelManager.cleanupInactiveTunnels.Obeys May [.thread .query] := by
  simp [TunnelManager.cleanupInactiveTunnels, some_obeys isActive_obeys, some_obeys handleClose_obeys, May.query]

theorem query_obeys (shim : Shim) : (query shim).Obeys May [.thread .query] := by
  have hsecret : meshBackendFromSecret.Obeys May [.thread .query] := by simp [meshBackendFromSecret, May.query]
  have hactivate : MeshLoader.activate.Obeys May [.thread .query] := by simp [MeshLoader.activate, May.query]
  have hstop (o : Nat) : (TunnelConnection.stopWorker o).Obeys May [.thread .query] := by
    simp [TunnelConnection.stopWorker, May.close (show (Kind.worker o).ofHandle from rfl)]
  refine ⟨Threads.Code.Obeys.oneOf ?_, trivial⟩
  simp [tunnelCreate, tunnelExport, tunnelPeersBind, tunnelSelfBind, TunnelManager.listTunnelsWithDetails,
    TunnelManager.listTunnels, TunnelManager.getTunnelStatus, TunnelManager.getTunnelError,
    TunnelManager.getTunnelBoundPort, MeshLoader.activeKind, SshExporter.boundRemotePort,
    hsecret, hactivate, hstop, createTunnel_obeys, createMeshTunnel_obeys, createMeshExport_obeys,
    createSshExport_obeys, lookup_obeys, isTunnelActive_obeys, list_obeys, closeTunnel_obeys, closeAllTunnels_obeys,
    cleanupInactiveTunnels_obeys, peersJson_obeys allowsBackend_query, selfJson_obeys allowsBackend_query,
    destroy_obeys allowsBackend_query, May.query]

/-- The code of every kind of thread keeps to the order. -/
theorem bodies_obey (shim : Shim) : BodiesObey May (body shim) := by
  intro k
  cases k with
  | query => exact query_obeys shim
  | meshAccept o =>
    simp [body, MeshForwarder.acceptLoop, dial_obeys (allowsBackend_meshAccept o), May.meshAccept]
  | sshAccept o =>
    simp [body, SshExporter.acceptLoop, SshExporter.reapFinishedWorkers, SshExporter.recordError, May.sshAccept,
      May.reap]
  | sshPump o => simp [body, SshExporter.pump, SshExporter.dialLocalService, SshExporter.recordError, May.sshPump]
  | worker o => simp [body, TunnelConnection.workerFunction, May.worker]
  | acceptLoop e => simp [body, Exporter.acceptLoop, May.acceptLoop]
  | serve e => simp [body, Exporter.serve, Exporter.track, Exporter.untrack, May.serve, May.serveCopies]
  | bridge n => simp [body, bridge, May.bridgeCopies]
  | meshPump | forward | serveCopy | bridgeCopy => trivial

end ErplTunnel.Locking

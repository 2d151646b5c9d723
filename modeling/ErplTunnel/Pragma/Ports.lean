import ErplTunnel.Pragma.Tunnels

/-!
# Ports are what was asked for

An import listens at the port it was asked for and reports it, and an export
passes on ports that are in range. Of imports this is so unless the backend is
a mesh and a port is out of range: `MeshForwarder::Start` narrows `local_port`
to sixteen bits, and the shim is given `remote_port` as it is
(`ports_as_asked_iff`).
-/

namespace ErplTunnel.Pragma

open Mesh (MeshKind TunnelError)

/-- A port number. -/
def InRange (port : Int32) : Prop := 1 ≤ port.toInt ∧ port.toInt ≤ 65535

instance (port : Int32) : Decidable (InRange port) := inferInstanceAs (Decidable (_ ∧ _))

theorem portOutOfRange_eq_false {port : Int32} : portOutOfRange port = false ↔ InRange port := by
  have h1 : minPortNumber.toInt = 1 := rfl
  have h2 : maxPortNumber.toInt = 65535 := rfl
  simp only [portOutOfRange, InRange, Bool.or_eq_false_iff, decide_eq_false_iff_not,
    Int32.lt_iff_toInt_lt, h1, h2]
  omega

theorem sinPort_of_inRange {port : Int32} (h : InRange port) : (sinPort port : Int) = port.toInt := by
  obtain ⟨h1, h2⟩ := h
  simp only [sinPort]
  omega

theorem sinPort_eq_zero {port : Int32} : sinPort port = 0 ↔ port.toInt % 65536 = 0 := by
  simp only [sinPort]
  omega

/-- The tunnel listens at the port asked for and reports it, and both ports
leave the extension as port numbers. -/
def AsAsked (c : ImportCall) (t : Tunnel) : Prop :=
  (t.listenPort : Int) = c.localPort.toInt ∧ InRange c.localPort ∧ InRange t.dialPort ∧
    t.dialPort = c.remotePort ∧ t.attrs.localPort = c.localPort

theorem asAsked_tunnel {c : ImportCall} {backend : String} (hl : InRange c.localPort)
    (hr : InRange c.remotePort) : AsAsked c (c.tunnel backend) :=
  ⟨sinPort_of_inRange hl, hl, hr, rfl, rfl⟩

theorem validate_ok {sshHost sshUser remoteHost : String} {sshPort remotePort localPort : Int32}
    (h : validateConnectionParameters sshHost sshPort sshUser remoteHost remotePort localPort = .ok ()) :
    InRange remotePort ∧ InRange localPort := by
  unfold validateConnectionParameters at h
  repeat' split at h
  all_goals cases h
  rename_i hr hl
  exact ⟨portOutOfRange_eq_false.mp (by simpa using hr), portOutOfRange_eq_false.mp (by simpa using hl)⟩

/-- An SSH import that is created was checked on the way. -/
theorem createTunnel_ok {auth : TunnelAuthParams} {c : ImportCall} {net : Network} {t : Tunnel}
    (h : createTunnel auth c net = .ok t) : AsAsked c t := by
  unfold createTunnel at h
  split at h
  · cases h
  split at h
  · rename_i t' ht
    obtain rfl := Except.ok.inj h
    unfold tryCreateTunnel at ht
    simp only [bind, Except.bind] at ht
    split at ht
    · cases ht
    rename_i hv
    obtain ⟨hr, hl⟩ := validate_ok hv
    repeat' split at ht
    all_goals cases ht
    exact asAsked_tunnel hl hr
  · cases h

/-- A mesh import is created when the network plays along. -/
theorem createMeshTunnel_ok {kind : MeshKind} {c : ImportCall} {net : Network} {t : Tunnel} :
    createMeshTunnel kind c net = .ok t ↔
      (net.up = none ∧ net.socket = true ∧ net.bind = true ∧ net.listen = true ∧
        probe net c.timeout c.localPort = true) ∧ t = c.tunnel (meshName kind) := by
  unfold createMeshTunnel
  cases net.up with
  | some e => simp [throw, throwThe, MonadExceptOf.throw]
  | none =>
    cases net.socket <;> cases net.bind <;> cases net.listen <;>
      cases probe net c.timeout c.localPort <;>
      simp [throw, throwThe, MonadExceptOf.throw, pure, Except.pure, eq_comm]

/-- A network on which everything works. -/
def goodNetwork : Network where
  up := none
  auth := true
  errorMessage := ""
  socket := true
  bind := true
  listen := true
  answers p := p ≠ 0
  answers_zero := rfl

/-- The imports that are certain to get what they ask for, or an error. -/
def ImportArgs.Kept (backend : MeshKind) (a : ImportArgs) : Prop :=
  let c := a.withDefaults
  backend = .none ∨ c.remoteHost = "" ∨ c.remotePort = 0 ∨ c.timeout.toInt ≤ 0 ∨
    c.localPort.toInt % 65536 = 0 ∨ InRange c.localPort ∧ InRange c.remotePort

theorem tunnelCreate_mesh {s : Secrets} {a : ImportArgs} {net : Network} (hk : s.meshKind ≠ .none)
    {t : Tunnel} : tunnelCreate true s a net = .ok t ↔
      (a.withDefaults.remoteHost ≠ "" ∧ a.withDefaults.remotePort ≠ 0 ∧ a.withDefaults.localPort ≠ 0) ∧
      s.meshBackend = .ok () ∧ createMeshTunnel s.meshKind a.withDefaults net = .ok t := by
  unfold tunnelCreate
  by_cases hm : a.withDefaults.remoteHost = "" ∨ a.withDefaults.remotePort = 0 ∨ a.withDefaults.localPort = 0
  · simp only [hm, ↓reduceIte]
    constructor
    · intro h; cases h
    · rintro ⟨⟨h1, h2, h3⟩, -⟩; tauto
  · have hm' := hm
    push Not at hm'
    simp only [hm, ↓reduceIte, hk, ne_eq, not_false_eq_true, and_self, bind, Except.bind]
    cases hb : s.meshBackend with
    | error e => simp
    | ok u => simpa using fun _ => hm'

/-- Without a mesh secret, or without the mesh, an import goes by SSH. -/
theorem tunnelCreate_ssh {hasMesh : Bool} {s : Secrets} {a : ImportArgs} {net : Network} {t : Tunnel}
    (hk : ¬ (hasMesh = true ∧ s.meshKind ≠ .none)) (h : tunnelCreate hasMesh s a net = .ok t) :
    AsAsked a.withDefaults t := by
  unfold tunnelCreate at h
  simp only [hk, ↓reduceIte, bind, Except.bind] at h
  split at h
  · cases h
  · split at h
    · cases h
    · exact createTunnel_ok h

theorem probe_eq_true {net : Network} {timeout localPort : Int32}
    (h : probe net timeout localPort = true) : 0 < timeout.toInt ∧ sinPort localPort ≠ 0 := by
  simp only [probe, Bool.and_eq_true, decide_eq_true_eq] at h
  refine ⟨Int32.lt_iff_toInt_lt.mp h.1, fun h0 => ?_⟩
  rw [h0, net.answers_zero] at h
  cases h.2

/-- What an export passes on. -/
def ExportCall.PortsInRange : ExportCall → Prop
  | .mesh meshPort _ localPort => InRange localPort ∧ InRange meshPort
  | .ssh _ _ localPort _ remotePort _ => InRange localPort ∧ (remotePort = 0 ∨ InRange remotePort)

theorem tunnelExport_ok {hasMesh : Bool} {s : Secrets} {a : ExportArgs} {c : ExportCall}
    (h : tunnelExport hasMesh s a = .ok c) : c.PortsInRange := by
  unfold tunnelExport at h
  simp only [bind, Except.bind] at h
  split at h
  · cases h
  split at h
  · cases h
  rename_i hl
  have hl : InRange (a.localPort.getD 0) := portOutOfRange_eq_false.mp (by simpa using hl)
  split at h
  · cases h
  rename_i hr
  have hr : a.remotePort.getD (a.localPort.getD 0) = 0 ∨ InRange (a.remotePort.getD (a.localPort.getD 0)) := by
    by_cases h0 : a.remotePort.getD (a.localPort.getD 0) = 0
    · exact .inl h0
    · exact .inr (portOutOfRange_eq_false.mp (by simpa [h0] using hr))
  split at h
  · cases h
  split at h
  · split at h
    · cases h
    split at h
    · cases h
    rename_i h0
    split at h
    · cases h
    · obtain rfl := Except.ok.inj h
      exact ⟨hl, hr.resolve_left h0⟩
  · split at h
    · cases h
    · obtain rfl := Except.ok.inj h
      exact ⟨hl, hr⟩

/-- An import of a secret with this backend is certain to get the ports it asks
for, or an error, exactly when it goes by SSH, is refused for its arguments or
its timeout, asks for a port that narrows to 0, or has both ports in range. An
export always passes on ports in range, and 0 to an SSH server only. -/
theorem ports_as_asked_iff (hasMesh : Bool) :
    (∀ (backend : MeshKind) (a : ImportArgs),
      (∀ s net t, s.meshKind = backend → tunnelCreate hasMesh s a net = .ok t → AsAsked a.withDefaults t) ↔
        hasMesh = false ∨ a.Kept backend) ∧
    ∀ s a c, tunnelExport hasMesh s a = .ok c → c.PortsInRange := by
  refine ⟨fun backend a => ⟨fun h => ?_, fun hk s net t hs ht => ?_⟩, fun s a c => tunnelExport_ok⟩
  · by_contra hno
    obtain ⟨hm, hkept⟩ := not_or.mp hno
    obtain rfl : hasMesh = true := by simpa using hm
    simp only [ImportArgs.Kept, not_or] at hkept
    obtain ⟨hb, hh, hr, ht, hl, hin⟩ := hkept
    have hl0 : a.withDefaults.localPort ≠ 0 := fun h0 => hl (by rw [h0]; rfl)
    have hp : probe goodNetwork a.withDefaults.timeout a.withDefaults.localPort = true := by
      have hz : sinPort a.withDefaults.localPort ≠ 0 := fun h0 => hl (sinPort_eq_zero.mp h0)
      have ht' : (0 : Int32) < a.withDefaults.timeout := by
        rw [Int32.lt_iff_toInt_lt]; exact Int.not_le.mp ht
      simp [probe, goodNetwork, hz, ht']
    -- on a good network the import is created, whatever its ports
    have hc : tunnelCreate true ⟨"s", backend, .ok (), .error (.io "")⟩ a goodNetwork =
        .ok (a.withDefaults.tunnel (meshName backend)) :=
      (tunnelCreate_mesh hb).mpr ⟨⟨hh, hr, hl0⟩, rfl,
        createMeshTunnel_ok.mpr ⟨⟨rfl, rfl, rfl, rfl, hp⟩, rfl⟩⟩
    obtain ⟨-, hlr, hdr, -⟩ := h _ _ _ rfl hc
    exact hin ⟨hlr, hdr⟩
  · by_cases hmesh : hasMesh = true ∧ s.meshKind ≠ .none
    · obtain ⟨rfl, hne⟩ := hmesh
      obtain ⟨⟨hh, hr, -⟩, -, hc⟩ := (tunnelCreate_mesh hne).mp ht
      obtain ⟨⟨-, -, -, -, hp⟩, rfl⟩ := createMeshTunnel_ok.mp hc
      obtain ⟨htime, hz⟩ := probe_eq_true hp
      have hkept : a.Kept backend := hk.resolve_left (by simp)
      simp only [ImportArgs.Kept, hs ▸ hne, hh, hr, Int.not_le.mpr htime, mt sinPort_eq_zero.mpr hz,
        false_or] at hkept
      exact asAsked_tunnel hkept.1 hkept.2
    · exact tunnelCreate_ssh hmesh ht

/-- An import of port 70000 over the mesh listens at 4464 and reports 70000. -/
theorem narrowed_port :
    ∃ s a net t, s.meshKind = .tailscale ∧ tunnelCreate true s a net = .ok t ∧ t.listenPort = 4464 ∧
      t.attrs.localPort = 70000 ∧ ¬ AsAsked a.withDefaults t := by
  refine ⟨⟨"ts", .tailscale, .ok (), .error (.io "")⟩,
    ⟨some "db", some 5432, some 70000, none, none⟩, goodNetwork,
    ImportCall.tunnel ⟨"db", 5432, 70000, 60, false⟩ "tailscale", rfl, ?_, ?_, rfl, ?_⟩
  · rfl
  · rfl
  · exact fun h => absurd h.2.1 (by decide)

end ErplTunnel.Pragma

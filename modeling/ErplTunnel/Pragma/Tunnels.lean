import ErplTunnel.Import.Create
import ErplTunnel.Mesh.Loader

/-!
# The pragmas that create tunnels

`PRAGMA tunnel_import` (`TunnelCreate`, `pragma_tunnel_create.cpp`) and
`PRAGMA tunnel_export` (`TunnelExport`, `pragma_tunnel_export.cpp`), down to
where a port leaves the extension: the port a listener is bound to, and the one
libssh2 or the shim is given. What the arguments are checked for, and where,
differs on the way: `TunnelExport` checks both ports itself, an SSH import
leaves it to `ValidateConnectionParameters`, and a mesh import to nobody.

What the secrets hold and what the network answers are inputs. Of the operating
system the model uses that no connection to port 0 is ever accepted.
-/

namespace ErplTunnel.Pragma

open Mesh (MeshKind TunnelError)

/-- `kMinPortNumber`. -/
def minPortNumber : Int32 := 1

/-- `kMaxPortNumber`. -/
def maxPortNumber : Int32 := 65535

/-- The text of an exception, as `what()` gives it. -/
def what : TunnelError → String
  | .invalidInput msg | .io msg | .internal msg => msg

/-- The range check of a port. -/
def portOutOfRange (port : Int32) : Bool := port < minPortNumber || maxPortNumber < port

/-- `htons(static_cast<uint16_t>(port))`, in host order. -/
def sinPort (port : Int32) : Nat := (port.toInt % 65536).toNat

/-- The fields of `TunnelAuthParams` that a create looks at. -/
structure TunnelAuthParams where
  sshHost : String
  sshPort : Int32
  sshUser : String
  password : String
  privateKeyPath : String
  authMethod : String
  deriving DecidableEq, Repr

/-- What the secret manager holds: `SecretMeshKind`, `MeshBackendFromSecret` and
`GetTunnelAuthParamsFromContext` for the secret the call names. -/
structure Secrets where
  /-- The name given, empty for none. -/
  name : String
  meshKind : MeshKind
  meshBackend : Except TunnelError Unit
  auth : Except TunnelError TunnelAuthParams

/-- `TunnelConnectionAttributes`, as far as the creates set them. -/
structure Attributes where
  backend : String
  remoteHost : String
  remotePort : Int32
  localPort : Int32
  bindAddr : Import.Addr
  deriving DecidableEq, Repr

/-- An import that was created. -/
structure Tunnel where
  attrs : Attributes
  /-- The port its listener was bound to. -/
  listenPort : Nat
  /-- The port libssh2 or the shim is given for each connection. -/
  dialPort : Int32
  deriving DecidableEq, Repr

/-- What the network answers during an import. -/
structure Network where
  /-- What `Connect` throws past its checks, or `EnsureUp`. -/
  up : Option TunnelError
  auth : Bool
  /-- What `GetErrorMessage` returns after a failed authentication. -/
  errorMessage : String
  socket : Bool
  bind : Bool
  listen : Bool
  /-- A connection to `127.0.0.1` at this port is accepted in time. -/
  answers : Nat → Bool
  /-- None to port 0 is. -/
  answers_zero : answers 0 = false

/-- The probes of `TestTunnelConnection` and `MeshForwarder::Start`. -/
def probe (net : Network) (timeout : Int32) (localPort : Int32) : Bool :=
  0 < timeout && net.answers (sinPort localPort)

def validateConnectionParameters (sshHost : String) (sshPort : Int32) (sshUser remoteHost : String)
    (remotePort localPort : Int32) : Except TunnelError Unit :=
  let range := "must be between 1 and 65535"
  if sshHost = "" then
    .error (.invalidInput ("SSH host is empty. Set it on the secret, e.g. " ++
      "CREATE SECRET s (TYPE ssh_tunnel, host 'bastion.example.com', user 'jump', password '…');"))
  else if portOutOfRange sshPort then .error (.invalidInput ("SSH port " ++ range))
  else if sshUser = "" then .error (.invalidInput "SSH user cannot be empty")
  else if remoteHost = "" then .error (.invalidInput "Remote host cannot be empty")
  else if portOutOfRange remotePort then .error (.invalidInput ("Remote port " ++ range))
  else if portOutOfRange localPort then .error (.invalidInput ("Local port " ++ range))
  else .ok ()

/-- The arguments of `tunnel_import`, each given or not. -/
structure ImportArgs where
  remoteHost : Option String
  remotePort : Option Int32
  localPort : Option Int32
  timeout : Option Int32
  bindAll : Option Bool
  deriving DecidableEq, Repr

/-- The arguments with their defaults. -/
structure ImportCall where
  remoteHost : String
  remotePort : Int32
  localPort : Int32
  timeout : Int32
  bindAll : Bool
  deriving DecidableEq, Repr

def ImportArgs.withDefaults (a : ImportArgs) : ImportCall where
  remoteHost := a.remoteHost.getD ""
  remotePort := a.remotePort.getD 0
  localPort := a.localPort.getD 0
  timeout := a.timeout.getD 60
  bindAll := a.bindAll.getD false

namespace ImportCall

variable (c : ImportCall)

/-- The tunnel of `c`: its attributes, and the ports as they leave. -/
def tunnel (backend : String) : Tunnel where
  attrs :=
    { backend, remoteHost := c.remoteHost, remotePort := c.remotePort, localPort := c.localPort
      bindAddr := if c.bindAll then .any else .loopback }
  listenPort := sinPort c.localPort
  dialPort := c.remotePort

end ImportCall

/-- The authentication step of `CreateTunnel`, which needs what the method uses. -/
def authenticates (auth : TunnelAuthParams) (net : Network) : Bool :=
  if auth.authMethod = "password" then auth.password ≠ "" && net.auth
  else if auth.authMethod = "key" then auth.privateKeyPath ≠ "" && net.auth
  else false

/-- The body of the `try` in `TunnelManager::CreateTunnel`. A worker that fails
to listen does not make it throw; only the probe tells. -/
def tryCreateTunnel (auth : TunnelAuthParams) (c : ImportCall) (net : Network) : Except TunnelError Tunnel := do
  validateConnectionParameters auth.sshHost auth.sshPort auth.sshUser c.remoteHost c.remotePort c.localPort
  match net.up with
  | some e => throw e
  | none =>
    if !authenticates auth net then
      throw (.io ("SSH authentication failed: " ++ net.errorMessage))
    else if !probe net c.timeout c.localPort then
      throw (.io ("Tunnel creation timed out after " ++ toString c.timeout.toInt ++
        "s waiting for the local listener. Check that local_port is free (not already in " ++
        "use), that loopback connections aren't blocked, and consider raising timeout."))
    else return c.tunnel "ssh"

/-- `TunnelManager::CreateTunnel`. -/
def createTunnel (auth : TunnelAuthParams) (c : ImportCall) (net : Network) : Except TunnelError Tunnel :=
  if auth.authMethod = "agent" then
    .error (.invalidInput ("Tunnel: SSH agent authentication is not supported. Use auth_method 'key' or " ++
      "'password' instead (set private_key_path/passphrase, or password, on the secret)."))
  else
    match tryCreateTunnel auth c net with
    | .ok t => .ok t
    | .error e => .error (.io ("Failed to create tunnel: " ++ what e))

/-- `attrs_.backend` of the mesh handles. -/
def meshName : MeshKind → String
  | .tailscale => "tailscale"
  | .netBird => "netbird"
  | .none => "mesh"

/-- `TunnelManager::CreateMeshTunnel` and `MeshForwarder::Start`. -/
def createMeshTunnel (kind : MeshKind) (c : ImportCall) (net : Network) : Except TunnelError Tunnel := do
  let port := toString c.localPort.toInt
  match net.up with
  | some e => throw e
  | none =>
    if !net.socket then throw (.io "Tunnel: could not create listening socket.")
    else if !net.bind then
      throw (.io ("Tunnel: local port " ++ port ++ " is already in use. Choose a free local_port."))
    else if !net.listen then throw (.io ("Tunnel: failed to listen on port " ++ port ++ "."))
    else if !probe net c.timeout c.localPort then
      throw (.io ("Tunnel: listener on port " ++ port ++ " did not become connectable within " ++
        toString c.timeout.toInt ++ "s."))
    else return c.tunnel (meshName kind)

/-- `TunnelCreate`, in a build with or without the mesh. -/
def tunnelCreate (hasMesh : Bool) (s : Secrets) (a : ImportArgs) (net : Network) : Except TunnelError Tunnel := do
  let c := a.withDefaults
  if c.remoteHost = "" ∨ c.remotePort = 0 ∨ c.localPort = 0 then
    throw (.invalidInput ("tunnel_import requires remote_host, remote_port, and local_port. Example:\n" ++
      "  PRAGMA tunnel_import(secret='my_secret', remote_host='host.internal', " ++
      "remote_port=8000, local_port=9000 [, timeout=60, bind_all=false]);\n" ++
      "(named parameters use '=' — a PRAGMA does not accept ':=')"))
  else if hasMesh ∧ s.meshKind ≠ .none then
    s.meshBackend
    createMeshTunnel s.meshKind c net
  else
    createTunnel (← s.auth) c net

/-- The arguments of `tunnel_export`. -/
structure ExportArgs where
  localHost : Option String
  localPort : Option Int32
  remotePort : Option Int32
  remoteHost : Option String
  timeout : Option Int32
  deriving DecidableEq, Repr

/-- The call of the manager that an export comes down to. -/
inductive ExportCall where
  /-- `CreateMeshExport`. -/
  | mesh (meshPort : Int32) (localHost : String) (localPort : Int32)
  /-- `CreateSshExport`. -/
  | ssh (auth : TunnelAuthParams) (localHost : String) (localPort : Int32) (remoteBindHost : String)
      (remotePort : Int32) (timeout : Int32)
  deriving DecidableEq, Repr

/-- `TunnelExport`, up to the call of the manager. -/
def tunnelExport (hasMesh : Bool) (s : Secrets) (a : ExportArgs) : Except TunnelError ExportCall := do
  let localHost := a.localHost.getD "127.0.0.1"
  let localPort := a.localPort.getD 0
  let remoteHost := a.remoteHost.getD ""
  let remotePort := a.remotePort.getD localPort
  if localPort = 0 then
    throw (.invalidInput ("tunnel_export requires local_port — the service on this machine to publish. " ++
      "Example:\n" ++
      "  PRAGMA tunnel_export(secret='ts', local_port=9494);\n" ++
      "  PRAGMA tunnel_export(secret='ts', local_port=9494, remote_port=19494);\n" ++
      "(named parameters use '=' — a PRAGMA does not accept ':=')"))
  else if portOutOfRange localPort then
    throw (.invalidInput ("tunnel_export: local_port must be between 1 and 65535 (got " ++
      toString localPort.toInt ++ ")."))
  else if remotePort ≠ 0 ∧ portOutOfRange remotePort then
    throw (.invalidInput ("tunnel_export: remote_port must be between 1 and 65535, or 0 to let an SSH " ++
      "server allocate one (got " ++ toString remotePort.toInt ++ ")."))
  else if s.name = "" then
    throw (.invalidInput ("tunnel_export requires secret = '<name>' naming the network to publish on, e.g. " ++
      "CREATE SECRET ts (TYPE tunnel, backend 'tailscale', auth_key '…', hostname '…');"))
  else if hasMesh ∧ s.meshKind ≠ .none then
    if remoteHost ≠ "" then
      throw (.invalidInput ("tunnel_export: remote_host applies only to the ssh backend. On a mesh the " ++
        "service is published on this node's own mesh address, which you can see with " ++
        "SELECT * FROM tunnel_self(secret = '" ++ s.name ++ "');"))
    else if remotePort = 0 then
      throw (.invalidInput ("tunnel_export: remote_port = 0 asks the server to allocate a port, which only " ++
        "the ssh backend can do. On a mesh you choose the port yourself — pass the port " ++
        "peers should connect to, or omit remote_port to reuse local_port."))
    else
      s.meshBackend
      return .mesh remotePort localHost localPort
  else
    return .ssh (← s.auth) localHost localPort remoteHost remotePort (a.timeout.getD 60)

end ErplTunnel.Pragma

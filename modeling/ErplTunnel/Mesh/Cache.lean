import ErplTunnel.Framework.Intern
import ErplTunnel.Mesh.Backend

/-!
# The cache of mesh nodes

`MeshBackendFromSecret` (`mesh_backend.cpp`) reads the options of a mesh node
from the secret it is given the name of, and returns the `MeshBackend` it has
cached for them, or makes and caches one. The cache is keyed by one string: the
name as the caller spells it and every option, with the unit separator between
them. It is never pruned, and both its lookup and its insertion are under
`cache_mu`, so a process is the fold of its calls and of what happens to the
secrets in between (`World.exec`).

How DuckDB finds a secret by name is an input: `fold` is the name a spelling
stands for.
-/

namespace ErplTunnel.Mesh

/-- `StringUtil::Lower`. -/
def lower (s : String) : String := .ofList (s.toList.map Char.toLower)

def parseMeshKind (backend : String) : MeshKind :=
  if lower backend = "tailscale" then .tailscale
  else if lower backend = "netbird" then .netBird
  else .none

/-- `KeyValueSecret`: its type, and the texts of its values. -/
structure KeyValueSecret where
  type : String
  secretMap : List (String × String)
  deriving DecidableEq, Repr

namespace KeyValueSecret

variable (secret : KeyValueSecret)

/-- The lambda `get`, empty for a value that is not there. -/
def get (k : String) : String := (secret.secretMap.lookup k).getD ""

/-- A type `LookupTunnelSecret` accepts. -/
def isTunnel : Bool := secret.type = "ssh_tunnel" || secret.type = "tunnel"

/-- The options a secret gives a node. -/
def options : MeshOptions where
  kind := parseMeshKind (secret.get "backend")
  authKey := secret.get "auth_key"
  setupKey := secret.get "setup_key"
  hostname := secret.get "hostname"
  tags := secret.get "tags"
  groups := secret.get "groups"
  controlUrl := secret.get "control_url"
  mgmtUrl := secret.get "management_url"
  stateDir := secret.get "state_dir"
  ephemeral := secret.get "ephemeral" = "true" || secret.get "ephemeral" = "1"

end KeyValueSecret

/-- The key of the cache. -/
def cacheKey (secretName : String) (opts : MeshOptions) : String :=
  secretName ++ "\x1f" ++ toString opts.kind.toInt ++ "\x1f" ++ opts.authKey ++ "\x1f" ++ opts.setupKey ++
    "\x1f" ++ opts.hostname ++ "\x1f" ++ opts.tags ++ "\x1f" ++ opts.groups ++ "\x1f" ++ opts.controlUrl ++
    "\x1f" ++ opts.mgmtUrl ++ "\x1f" ++ opts.stateDir ++ "\x1f" ++ (if opts.ephemeral then "1" else "0")

/-- The static `cache`: the key of each `MeshBackend` and the options it was made
with, in the order they were made. A `shared_ptr` of the cache is the place of
its entry. -/
abbrev NodeCache := List (String × MeshOptions)

/-- The process: the stored secrets, under the names `fold` gives, and the cache. -/
structure World where
  secrets : List (String × KeyValueSecret)
  cache : NodeCache
  deriving DecidableEq, Repr

/-- What happens in a process. The calls of `MeshBackendFromSecret` are those of
`tunnel_import`, `tunnel_export`, `tunnel_peers` and `tunnel_self`. -/
inductive WorldEv where
  /-- `CREATE OR REPLACE SECRET`. -/
  | createSecret (name : String) (secret : KeyValueSecret)
  | dropSecret (name : String)
  | call (secretName : String)
  deriving DecidableEq, Repr

namespace World

variable (fold : String → String)

def start : World := ⟨[], []⟩

/-- `LookupTunnelSecret`. -/
def lookupTunnelSecret (w : World) (secretName : String) : Option KeyValueSecret :=
  (w.secrets.lookup (fold secretName)).filter KeyValueSecret.isTunnel

/-- `MeshBackendFromSecret`. -/
def meshBackendFromSecret (w : World) (secretName : String) : Except TunnelError Nat × World :=
  if secretName = "" then
    (.error (.invalidInput ("Tunnel: tunnel_peers/tunnel_self require secret = '<name>' naming a mesh tunnel " ++
      "secret, e.g. CREATE SECRET ts (TYPE tunnel, backend 'tailscale', auth_key '…', hostname '…');")), w)
  else
    match w.lookupTunnelSecret fold secretName with
    | none => (.error (.invalidInput ("Tunnel: secret '" ++ secretName ++ "' not found.")), w)
    | some secret =>
      let opts := secret.options
      if opts.kind = .none then
        (.error (.invalidInput ("Tunnel: secret '" ++ secretName ++ "' is not a mesh secret. Set backend " ++
          "'tailscale' or 'netbird' (with auth_key/setup_key) to use mesh discovery.")), w)
      else
        let r := Intern.intern (cacheKey secretName opts) opts w.cache
        (.ok r.1, { w with cache := r.2 })

/-- The process after `e`. -/
def exec (w : World) : WorldEv → World
  | .createSecret name secret =>
    { w with secrets := (fold name, secret) :: w.secrets.filter (·.1 ≠ fold name) }
  | .dropSecret name => { w with secrets := w.secrets.filter (·.1 ≠ fold name) }
  | .call secretName => (w.meshBackendFromSecret fold secretName).2

def execAll (w : World) (es : List WorldEv) : World := es.foldl (exec fold) w

end World

end ErplTunnel.Mesh

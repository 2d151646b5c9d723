import Mathlib.Data.List.Basic
import ErplTunnel.Framework.Throws

/-!
# The mesh loader

`MeshLoader::Activate` (`mesh_loader.cpp`) and what it calls, as a function
on the process it changes: the loader's static fields, the shim libraries
the OS loader has mapped, and the files `ExtractShim` has left on disk. An
exception keeps every change made before it. What the outside world answers
in one call (the blob, `mkstemp` or the cache, `dlopen`, each `dlsym`, the
shim's `mesh_kind`) is an `Outcome`.

`mutex_` is held from the first line of `Activate` to its last, so calls do
not overlap and a process is the fold of its calls (`activations`).
-/

namespace ErplTunnel.Mesh

/-- `enum class MeshKind`. -/
inductive MeshKind where
  | none
  | tailscale
  | netBird
  deriving DecidableEq, Repr

/-- `static_cast<int>(kind)`. -/
def MeshKind.toInt : MeshKind → Int
  | .none => 0
  | .tailscale => 1
  | .netBird => 2

def meshKindName : MeshKind → String
  | .tailscale => "Tailscale"
  | .netBird => "NetBird"
  | .none => "none"

/-- The exceptions thrown, with their texts. -/
inductive TunnelError where
  | invalidInput (msg : String)
  | io (msg : String)
  | internal (msg : String)
  deriving DecidableEq, Repr

inductive Platform where
  | unix
  | windows
  deriving DecidableEq, Repr

/-- How the extension was built: the platform, and the `MESH_HAVE_*` flags. -/
structure Build where
  platform : Platform
  haveTailscale : Bool
  haveNetBird : Bool
  deriving DecidableEq, Repr

def isCompiledIn (b : Build) : MeshKind → Bool
  | .tailscale => b.haveTailscale
  | .netBird => b.haveNetBird
  | .none => false

/-- A `NativePath`, as the OS loader tells files apart: Unix makes a new
temporary file for every extraction, Windows has one cache entry for each
shim. The handle of a mapped library is the file it was mapped from. -/
inductive ShimFile where
  | temp (n : Nat)
  | cached (kind : MeshKind)
  deriving DecidableEq, Repr

/-- `struct MeshApi`: the resolved function pointers. -/
structure MeshApi where
  kind : Nat
  nodeNew : Nat
  setStr : Nat
  setBool : Nat
  up : Nat
  dial : Nat
  meshExport : Nat
  meshUnexport : Nat
  peersJson : Nat
  selfJson : Nat
  errmsg : Nat
  close : Nat
  deriving DecidableEq, Repr

/-- `MeshApi{}`. -/
def MeshApi.null : MeshApi := ⟨0, 0, 0, 0, 0, 0, 0, 0, 0, 0, 0, 0⟩

/-- The static fields of `MeshLoader`. -/
structure Loader where
  activeKind : MeshKind
  api : MeshApi
  handle : Option ShimFile
  extractedPath : Option ShimFile
  deriving DecidableEq, Repr

/-- What `Activate` changes. -/
structure Process where
  loader : Loader
  /-- The shim libraries in the process; none is ever unloaded. -/
  mapped : List ShimFile
  /-- The extracted files on disk. -/
  files : List ShimFile
  /-- How many temporary files were made so far. -/
  temps : Nat
  deriving DecidableEq, Repr

def Process.init : Process := ⟨⟨.none, .null, none, none⟩, [], [], 0⟩

/-- What the outside world answers during one call. -/
structure Outcome where
  /-- The length of the embedded blob; 0 for none. -/
  blobLen : Nat
  /-- The text with which `ExtractShim` throws, if it does. -/
  extractError : Option String
  /-- The text of `dlerror()` or `GetLastError()`, if the library does not load. -/
  loadError : Option String
  /-- `dlsym` or `GetProcAddress`. -/
  symbol : String → Option Nat
  /-- What the shim's `mesh_kind` returns. -/
  reported : Int

abbrev LoaderM := Throws TunnelError Process

/-- Write the blob where the OS loader can load it from. -/
def extractShim (b : Build) (o : Outcome) (kind : MeshKind) : LoaderM ShimFile := do
  match o.extractError with
  | some msg => throw (.io msg)
  | none =>
    match b.platform with
    | .unix =>
      let p ← get
      set { p with files := .temp p.temps :: p.files, temps := p.temps + 1 }
      return .temp p.temps
    | .windows =>
      modify fun p => { p with files := p.files.insert (.cached kind) }
      return .cached kind

/-- `::remove(path)`. -/
def removeFile (path : ShimFile) : LoaderM Unit :=
  modify fun p => { p with files := p.files.erase path }

/-- Map the library. A file that is mapped already is not mapped again. -/
def loadShim (b : Build) (o : Outcome) (path : ShimFile) (kind : MeshKind) : LoaderM ShimFile := do
  match o.loadError with
  | some err =>
    if b.platform = .unix then removeFile path
    throw (.io ("Tunnel: failed to load the " ++ meshKindName kind ++ " shim: " ++ err))
  | none =>
    modify fun p => { p with mapped := p.mapped.insert path }
    return path

/-- No unload when the symbol is missing: the Go runtime has started. -/
def resolveSymbol (o : Outcome) (name : String) : LoaderM Nat :=
  match o.symbol name with
  | some sym => return sym
  | none => throw (.io ("Tunnel: mesh shim is missing symbol '" ++ name ++ "'."))

/-- The C ABI of `mesh_shim.h`, resolved in this order. -/
def resolveApi (o : Outcome) : LoaderM MeshApi := do
  return {
    kind := ← resolveSymbol o "mesh_kind"
    nodeNew := ← resolveSymbol o "mesh_new"
    setStr := ← resolveSymbol o "mesh_set_str"
    setBool := ← resolveSymbol o "mesh_set_bool"
    up := ← resolveSymbol o "mesh_up"
    dial := ← resolveSymbol o "mesh_dial"
    meshExport := ← resolveSymbol o "mesh_export"
    meshUnexport := ← resolveSymbol o "mesh_unexport"
    peersJson := ← resolveSymbol o "mesh_peers_json"
    selfJson := ← resolveSymbol o "mesh_self_json"
    errmsg := ← resolveSymbol o "mesh_errmsg"
    close := ← resolveSymbol o "mesh_close" }

/-- Unix unlinks the extracted file once it is mapped. -/
def afterLoad (b : Build) (path : ShimFile) : LoaderM Unit :=
  if b.platform = .unix then removeFile path else return ()

/-- `MeshLoader::Activate`. -/
def activate (b : Build) (o : Outcome) (kind : MeshKind) : LoaderM MeshApi := do
  if !isCompiledIn b kind then
    throw (.invalidInput ("Tunnel: this build does not include the " ++ meshKindName kind ++
      " backend. Install the erpl_tunnel build with MESH_BACKEND=" ++
      (if kind = .tailscale then "tailscale" else "netbird") ++ " (or 'both')."))
  let l := (← get).loader
  if l.activeKind ≠ .none then
    if l.activeKind = kind then
      return l.api
    throw (.invalidInput ("Tunnel: " ++ meshKindName l.activeKind ++
      " is active in this DuckDB process; " ++ meshKindName kind ++
      " cannot be loaded — start a new session for a different mesh."))
  if o.blobLen = 0 then
    throw (.internal ("Tunnel: mesh shim blob missing for " ++ meshKindName kind))
  let path ← extractShim b o kind
  let h ← loadShim b o path kind
  let api ← resolveApi o
  if o.reported ≠ kind.toInt then
    throw (.internal ("Tunnel: mesh shim kind mismatch (asked " ++ toString kind.toInt ++
      ", shim reports " ++ toString o.reported ++ ")."))
  modify fun p => { p with loader := ⟨kind, api, some h, some path⟩ }
  afterLoad b path
  return api

/-- One call: the kind asked for, and what the outside world answers. -/
structure Activation where
  kind : MeshKind
  outcome : Outcome

/-- What one call returns, and the process after it. -/
def Activation.run (b : Build) (a : Activation) (p : Process) : Except TunnelError MeshApi × Process :=
  (activate b a.outcome a.kind).exec p

/-- The process after a sequence of calls. -/
def activations (b : Build) (p : Process) (as : List Activation) : Process :=
  as.foldl (fun p a => (a.run b p).2) p

end ErplTunnel.Mesh

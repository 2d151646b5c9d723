import ErplTunnel.Mesh.Credentials
import ErplTunnel.Pragma.Authenticate
import ErplTunnel.Pragma.Dispatch
import Mathlib.Logic.Equiv.Basic

/-!
# Credentials are kept

The credentials of the secrets are put in the place of others, and everything
outside answers as before. No statement returns or throws anything else, all use
the nodes that they used, and the shim is called with the other keys and with
nothing else that differs (`credentials_kept`): what the extension lets be seen
of a credential is whether it is empty, and where it is the same as another.

The text of a failed authentication is an answer to a statement here. It is made
by `Authenticate`, and there too has no credential in it; nor has what
`CREATE SECRET` throws.
-/

namespace ErplTunnel.Pragma.Authenticate

open Mesh (TunnelError)

/-! ## What an authentication throws -/

/-- Two attempts that fail have one text. -/
def SameFailure (t t' : Attempt) : Prop := ∀ m m', t.failure = some m → t'.failure = some m' → m' = m

theorem failure_password {w : World} {user password m : String}
    (h : (authenticateWithPassword w user password).failure = some m) :
    m = "SSH password authentication failed. Check username and password." := by
  obtain ⟨-, hm⟩ := Option.ite_none_left_eq_some.mp h
  exact (Option.some.inj hm).symm

theorem failure_key {w : World} {user privateKeyPath passphrase m : String}
    (h : (authenticateWithKey w user privateKeyPath passphrase).failure = some m) :
    m = if w.readable (cStr privateKeyPath) then
        "SSH key authentication failed. " ++ "Check if the private key is valid and the passphrase is correct."
      else "Failed to open private key file: " ++ privateKeyPath := by
  rw [authenticateWithKey] at h
  split at h
  case isTrue hr =>
    obtain ⟨-, hm⟩ := Option.ite_none_left_eq_some.mp h
    rw [if_pos hr]
    exact (Option.some.inj hm).symm
  case isFalse hr =>
    rw [if_neg hr]
    exact (Option.some.inj h).symm

/-- The path is told. -/
example : (connect ⟨fun _ => true, fun _ => false⟩ ⟨⟨"db", 22, "jump", "", "/root/key", "key"⟩, "pw"⟩).2 =
    .error (.io "Failed to authenticate tunnel connection: Failed to open private key file: /root/key") := by
  decide

/-- What an import calls to authenticate. -/
def importAttempt (w : World) (a : AuthParams) : Attempt :=
  if a.authMethod = "password" ∧ a.password ≠ "" then authenticateWithPassword w a.sshUser a.password
  else if a.authMethod = "key" ∧ a.privateKeyPath ≠ "" then
    authenticateWithKey w a.sshUser a.privateKeyPath a.passphrase
  else if a.authMethod = "agent" then authenticateWithAgent
  else notCalled

theorem createTunnel_throws (w : World) (a : AuthParams) : (createTunnel w a).2 =
    if a.authMethod = "agent" then .error agentError
    else (importAttempt w a).failure.elim (.ok ()) fun message =>
      .error (.io ("Failed to create tunnel: " ++ ("SSH authentication failed: " ++ message))) := by
  by_cases hagent : a.authMethod = "agent"
  · rw [createTunnel, if_pos hagent, if_pos hagent]
  · have hat : importAttempt w a =
        if a.authMethod = "password" then
          if a.password ≠ "" then authenticateWithPassword w a.sshUser a.password else notCalled
        else if a.authMethod = "key" then
          if a.privateKeyPath ≠ "" then authenticateWithKey w a.sshUser a.privateKeyPath a.passphrase else notCalled
        else notCalled := by
      rw [importAttempt, if_neg hagent]
      by_cases hpw : a.authMethod = "password"
      · have hkey : a.authMethod ≠ "key" := by rw [hpw]; decide
        by_cases hp : a.password = "" <;> simp [hpw, hp]
      · by_cases hkey : a.authMethod = "key"
        · by_cases hp : a.privateKeyPath = "" <;> simp [hkey, hp]
        · simp [hpw, hkey]
    rw [createTunnel, if_neg hagent, if_neg hagent, if_neg hagent, ← hat]
    dsimp only
    cases h : (importAttempt w a).failure with
    | none => rfl
    | some m => rfl

theorem connect_throws (w : World) (a : AuthParams) : (connect w a).2 =
    (importAttempt w a).failure.elim (.ok ()) fun message =>
      .error (.io ("Failed to authenticate tunnel connection: " ++ message)) := by
  rw [connect, ← importAttempt]
  cases h : (importAttempt w a).failure with
  | none => rfl
  | some m => rfl

theorem start_throws {w : World} {a : AuthParams} {e : TunnelError} (h : (start w a).2 = .error e) :
    e = if a.authMethod = "agent" then agentError
      else .io ("tunnel_export: SSH authentication failed for user '" ++ a.sshUser ++ "' on " ++ a.sshHost ++ ".") := by
  by_cases hagent : a.authMethod = "agent"
  · rw [start, if_pos hagent] at h
    rw [if_pos hagent]
    exact (Except.error.inj h).symm
  · rw [start, if_neg hagent] at h
    rw [if_neg hagent]
    extract_lets c authed at h
    by_cases ha : authed.2 = true
    · rw [if_pos ha] at h
      cases h
    · rw [if_neg ha] at h
      exact (Except.error.inj h).symm

theorem SameFailure.throws {t t' : Attempt} (ht : SameFailure t t') (f : String → TunnelError) {e e' : TunnelError}
    (h : (t.failure.elim (.ok ()) fun m => .error (f m)) = (.error e : Except TunnelError Unit))
    (h' : (t'.failure.elim (.ok ()) fun m => .error (f m)) = (.error e' : Except TunnelError Unit)) : e' = e := by
  cases hf : t.failure with
  | none =>
    rw [hf] at h
    cases h
  | some m =>
    cases hf' : t'.failure with
    | none =>
      rw [hf'] at h'
      cases h'
    | some m' =>
      rw [hf, ← ht m m' hf hf'] at h
      rw [hf'] at h'
      exact Except.error.inj (h'.symm.trans h)

end ErplTunnel.Pragma.Authenticate

namespace ErplTunnel.Mesh.Disguise

open Pragma
open Pragma.Authenticate (SameFailure authenticateWithPassword authenticateWithKey authenticateWithAgent notCalled
  importAttempt connect start)

variable (ρ : Disguise)

def tunnelAuthParams (a : TunnelAuthParams) : TunnelAuthParams := { a with password := ρ.map a.password }

def authParams (a : AuthParams) : AuthParams :=
  { a with password := ρ.map a.password, passphrase := ρ.map a.passphrase }

def exportCall : ExportCall → ExportCall
  | .ssh auth localHost localPort remoteBindHost remotePort timeout =>
    .ssh (ρ.tunnelAuthParams auth) localHost localPort remoteBindHost remotePort timeout
  | c => c

def createSecretInput (input : CreateSecretInput) : CreateSecretInput :=
  { input with options := input.options.map fun o => (o.1, ρ.value (field o.1) o.2) }

def tunnelSecret (s : TunnelSecret) : TunnelSecret := { s with secretMap := Assoc.mapVals ρ.value s.secretMap }

def statement : Statement → Statement
  | .createSecret name secret => .createSecret name (ρ.secret secret)
  | st => st

variable {ρ}

/-! ## Secrets -/

theorem foldlM_storeOption (options : List (String × String)) (m : List (String × String)) :
    (options.map fun o => (o.1, ρ.value (field o.1) o.2)).foldlM storeOption (Assoc.mapVals ρ.value m) =
      (options.foldlM storeOption m).map (Assoc.mapVals ρ.value) := by
  induction options generalizing m with
  | nil => rfl
  | cons o options ih =>
    rw [List.map_cons, List.foldlM_cons, List.foldlM_cons]
    by_cases hk : lower o.1 ∈ kKnownKeys
    · have ho : storeOption m o = .ok (Assoc.assign m (field o.1) o.2) := if_pos hk
      have ho' : storeOption (Assoc.mapVals ρ.value m) (o.1, ρ.value (field o.1) o.2) =
          .ok (Assoc.mapVals ρ.value (Assoc.assign m (field o.1) o.2)) := by
        rw [← Assoc.assign_mapVals]
        exact if_pos hk
      rw [ho, ho']
      exact ih _
    · have ho : storeOption m o = .error (unknownParameter (lower o.1)) := if_neg hk
      have ho' : storeOption (Assoc.mapVals ρ.value m) (o.1, ρ.value (field o.1) o.2) =
          .error (unknownParameter (lower o.1)) := if_neg hk
      rw [ho, ho']
      rfl

theorem createTunnelSecretFunction_disguised (input : CreateSecretInput) :
    createTunnelSecretFunction (ρ.createSecretInput input) =
      (createTunnelSecretFunction input).map ρ.tunnelSecret := by
  have hm : (ρ.createSecretInput input).options.foldlM storeOption [] =
      (input.options.foldlM storeOption []).map (Assoc.mapVals ρ.value) := foldlM_storeOption input.options []
  rw [createTunnelSecretFunction, createTunnelSecretFunction, hm]
  cases input.options.foldlM storeOption [] with
  | error e => rfl
  | ok m => rfl

theorem convertTunnelSecretToAuthParams_disguised (s : KeyValueSecret) :
    convertTunnelSecretToAuthParams (ρ.secret s) = ρ.authParams (convertTunnelSecretToAuthParams s) := by
  have hl : ∀ k, (ρ.secret s).secretMap.lookup k = (s.secretMap.lookup k).map (ρ.value k) :=
    Assoc.lookup_mapVals ρ.value s.secretMap
  have hplain : ∀ k, k ∉ credentials → (ρ.secret s).secretMap.lookup k = s.secretMap.lookup k := by
    intro k hk
    rw [hl]
    cases s.secretMap.lookup k with
    | none => rfl
    | some v => exact congrArg some (value_of_not_mem hk v)
  have hcred : ∀ k, k ∈ credentials →
      ((ρ.secret s).secretMap.lookup k).getD "" = ρ.map ((s.secretMap.lookup k).getD "") := by
    intro k hk
    rw [hl]
    cases s.secretMap.lookup k with
    | none => exact ρ.map_empty.symm
    | some v => exact if_pos hk
  simp only [convertTunnelSecretToAuthParams, authParams, hplain "ssh_host" (by decide),
    hplain "ssh_port" (by decide), hplain "ssh_user" (by decide), hplain "private_key_path" (by decide),
    hplain "auth_method" (by decide), hcred "password" (by decide), hcred "passphrase" (by decide), ne_eq, ρ.empty]

/-! ## Over SSH -/

theorem authenticates_disguised (a : TunnelAuthParams) (net : Network) :
    authenticates (ρ.tunnelAuthParams a) net = authenticates a net := by
  have hp : decide (ρ.map a.password ≠ "") = decide (a.password ≠ "") :=
    decide_eq_decide.mpr (not_congr (ρ.empty a.password))
  rw [authenticates, authenticates]
  exact if_congr Iff.rfl (congrArg (· && net.auth) hp) rfl

theorem createTunnel_disguised (a : TunnelAuthParams) (c : ImportCall) (net : Network) :
    Pragma.createTunnel (ρ.tunnelAuthParams a) c net = Pragma.createTunnel a c net := by
  simp only [Pragma.createTunnel, tryCreateTunnel, authenticates_disguised]
  rfl

/-- Disguised, an import makes the attempt of the same method. -/
theorem sameFailure_importAttempt {w w' : Authenticate.World} (hw : w'.readable = w.readable) (a : AuthParams) :
    SameFailure (importAttempt w a) (importAttempt w' (ρ.authParams a)) := by
  intro m m' h h'
  have hat : importAttempt w' (ρ.authParams a) =
      if a.authMethod = "password" ∧ a.password ≠ "" then authenticateWithPassword w' a.sshUser (ρ.map a.password)
      else if a.authMethod = "key" ∧ a.privateKeyPath ≠ "" then
        authenticateWithKey w' a.sshUser a.privateKeyPath (ρ.map a.passphrase)
      else if a.authMethod = "agent" then authenticateWithAgent
      else notCalled :=
    if_congr (and_congr_right fun _ => not_congr (ρ.empty a.password)) rfl rfl
  rw [hat] at h'
  rw [importAttempt] at h
  by_cases hpw : a.authMethod = "password" ∧ a.password ≠ ""
  · rw [if_pos hpw] at h h'
    rw [Authenticate.failure_password h, Authenticate.failure_password h']
  rw [if_neg hpw] at h h'
  by_cases hkey : a.authMethod = "key" ∧ a.privateKeyPath ≠ ""
  · rw [if_pos hkey] at h h'
    rw [Authenticate.failure_key h, Authenticate.failure_key h', hw]
  · rw [if_neg hkey] at h h'
    exact Option.some.inj (h'.symm.trans h)

/-- What an import or an export throws of its authentication does not depend on the
credentials. -/
structure SameThrows (w w' : Authenticate.World) (a a' : AuthParams) : Prop where
  createTunnel : ∀ e e', (Authenticate.createTunnel w a).2 = .error e →
    (Authenticate.createTunnel w' a').2 = .error e' → e' = e
  connect : ∀ e e', (connect w a).2 = .error e → (connect w' a').2 = .error e' → e' = e
  start : ∀ e e', (start w a).2 = .error e → (start w' a').2 = .error e' → e' = e

theorem sameThrows {w w' : Authenticate.World} (hw : w'.readable = w.readable) (a : AuthParams) :
    SameThrows w w' a (ρ.authParams a) where
  createTunnel e e' h h' := by
    rw [Authenticate.createTunnel_throws] at h h'
    by_cases hagent : a.authMethod = "agent"
    · rw [if_pos hagent] at h
      rw [if_pos (show (ρ.authParams a).authMethod = "agent" from hagent)] at h'
      exact Except.error.inj (h'.symm.trans h)
    · rw [if_neg hagent] at h
      rw [if_neg (show (ρ.authParams a).authMethod ≠ "agent" from hagent)] at h'
      exact (sameFailure_importAttempt hw a).throws
        (fun m => .io ("Failed to create tunnel: " ++ ("SSH authentication failed: " ++ m))) h h'
  connect e e' h h' := by
    rw [Authenticate.connect_throws] at h h'
    exact (sameFailure_importAttempt hw a).throws
      (fun m => .io ("Failed to authenticate tunnel connection: " ++ m)) h h'
  start e e' h h' := (Authenticate.start_throws h').trans (Authenticate.start_throws h).symm

/-! ## Statements -/

theorem tunnelCreate_disguised {s s' : Secrets} (hk : s'.meshKind = s.meshKind) (hb : s'.meshBackend = s.meshBackend)
    (ha : s'.auth = s.auth.map ρ.tunnelAuthParams) (a : ImportArgs) (net : Network) :
    tunnelCreate true s' a net = tunnelCreate true s a net := by
  rw [tunnelCreate, tunnelCreate, hk, hb, ha]
  cases s.auth with
  | error e => rfl
  | ok auth =>
    simp only [Except.map, bind, Except.bind, createTunnel_disguised]

theorem tunnelExport_disguised {s s' : Secrets} (hn : s'.name = s.name) (hk : s'.meshKind = s.meshKind)
    (hb : s'.meshBackend = s.meshBackend) (ha : s'.auth = s.auth.map ρ.tunnelAuthParams) (a : ExportArgs) :
    tunnelExport true s' a = (tunnelExport true s a).map ρ.exportCall := by
  rw [tunnelExport, tunnelExport, hn, hk, hb, ha]
  iterate 4 (split; rfl)
  split
  case isTrue =>
    iterate 2 (split; rfl)
    cases s.meshBackend with
    | error e => rfl
    | ok _ => rfl
  case isFalse =>
    cases s.auth with
    | error e => rfl
    | ok auth => rfl

end ErplTunnel.Mesh.Disguise

namespace ErplTunnel.Pragma

open Mesh (Build Disguise Renaming TunnelError MeshKind)

namespace Database

/-- The same process, with the secrets disguised. -/
structure Alike (ρ : Renaming) (db db' : Database) : Prop where
  world : ρ.Worlds db.world db'.world
  backends : db'.backends = db.backends.map ρ.backend
  loader : db'.loader = db.loader

variable {ρ : Renaming} {b : Build} {fold : String → String} {db db' : Database}

namespace Alike

theorem start : Alike ρ .start .start := ⟨.start, rfl, rfl⟩

theorem secretMeshKind (h : Alike ρ db db') (name : String) :
    db'.secretMeshKind fold name = db.secretMeshKind fold name := by
  rw [Database.secretMeshKind, Database.secretMeshKind, h.world.lookup]
  cases db.world.lookupTunnelSecret fold name with
  | none => rfl
  | some secret =>
    have hk : (ρ.secret secret).options.kind = secret.options.kind := by
      rw [Disguise.options_secret]
      rfl
    dsimp only [Option.map_some]
    exact if_congr Iff.rfl rfl hk

theorem authParams (h : Alike ρ db db') (name : String) :
    db'.authParams fold name = (db.authParams fold name).map ρ.tunnelAuthParams := by
  rw [Database.authParams, Database.authParams, h.world.lookup]
  cases db.world.lookupTunnelSecret fold (if name = "" then "*" else name) with
  | none =>
    dsimp only [Option.map_none]
    generalize (if name = "" then "*" else name) = name'
    split <;> rfl
  | some secret =>
    dsimp only [Option.map_some]
    rw [Disguise.convertTunnelSecretToAuthParams_disguised]
    rfl

theorem meshBackend (h : Alike ρ db db') (fold : String → String) (name : String) :
    (db'.meshBackend fold name).1 = (db.meshBackend fold name).1 ∧
      Alike ρ (db.meshBackend fold name).2 (db'.meshBackend fold name).2 := by
  obtain ⟨hi, hw⟩ := h.world.meshBackendFromSecret fold name
  refine ⟨hi, hw, ?_, h.loader⟩
  show db'.backends ++ _ = List.map _ (db.backends ++ _)
  rw [h.backends, List.length_map, List.map_append,
    Renaming.map_new (List.forall₂_drop db.backends.length hw.cache)]

theorem ensureUp (h : Alike ρ db db') (i : Nat) (ans : Answers) :
    (db'.ensureUp b i ans).1 = (db.ensureUp b i ans).1 ∧
      Alike ρ (db.ensureUp b i ans).2 (db'.ensureUp b i ans).2 := by
  rw [Database.ensureUp, Database.ensureUp, h.backends, List.getElem?_map]
  cases db.backends[i]? with
  | none => exact ⟨rfl, h⟩
  | some backend =>
    dsimp only [Option.map_some]
    by_cases hu : backend.up = true
    · rw [if_pos hu, if_pos (show (ρ.backend backend).up = true from hu)]
      exact ⟨rfl, h⟩
    · rw [if_neg hu, if_neg (show ¬(ρ.backend backend).up = true from hu), h.loader]
      have hk : (ρ.backend backend).opts.kind = backend.opts.kind := rfl
      simp only [hk, Disguise.blind_ensureUp _ backend]
      exact ⟨trivial, h.world, List.map_set.symm, rfl⟩

theorem bringUp (h : Alike ρ db db') (fold : String → String) (name : String) (ans : Answers) :
    (db'.bringUp b fold name ans).1 = (db.bringUp b fold name ans).1 ∧
      Alike ρ (db.bringUp b fold name ans).2 (db'.bringUp b fold name ans).2 := by
  have hm := h.meshBackend fold name
  rw [Database.bringUp, Database.bringUp]
  revert hm
  rcases db.meshBackend fold name with ⟨_, d⟩
  rcases db'.meshBackend fold name with ⟨r, d'⟩
  rintro ⟨rfl, hd⟩
  cases r with
  | error e => exact ⟨rfl, hd⟩
  | ok i => exact hd.ensureUp i ans

theorem onMesh (h : Alike ρ db db') (name : String) (ans : Answers) (f : MeshKind → Except TunnelError Done) :
    (db'.onMesh b fold name ans f).1 = (db.onMesh b fold name ans f).1 ∧
      Alike ρ (db.onMesh b fold name ans f).2 (db'.onMesh b fold name ans f).2 := by
  have hb := h.bringUp (b := b) fold name ans
  rw [Database.onMesh, Database.onMesh]
  revert hb
  rcases db.bringUp b fold name ans with ⟨_, d⟩
  rcases db'.bringUp b fold name ans with ⟨r, d'⟩
  rintro ⟨rfl, hd⟩
  cases r with
  | error e => exact ⟨rfl, hd⟩
  | ok kind => exact ⟨rfl, hd⟩

/-- The parts of a secret that an import or an export is given. -/
theorem meshBackend_ok (h : Alike ρ db db') (name : String) :
    (db'.secrets fold name).meshBackend = (db.secrets fold name).meshBackend := by
  show Except.map _ _ = Except.map _ _
  rw [(h.world.meshBackendFromSecret fold name).1]

theorem tunnelCreate (h : Alike ρ db db') (name : String) (a : ImportArgs) (net : Network) :
    Pragma.tunnelCreate true (db'.secrets fold name) a net = Pragma.tunnelCreate true (db.secrets fold name) a net :=
  Disguise.tunnelCreate_disguised (h.secretMeshKind name) (h.meshBackend_ok name) (h.authParams name) a net

theorem tunnelExport (h : Alike ρ db db') (name : String) (a : ExportArgs) :
    Pragma.tunnelExport true (db'.secrets fold name) a =
      (Pragma.tunnelExport true (db.secrets fold name) a).map ρ.exportCall :=
  Disguise.tunnelExport_disguised (show (db'.secrets fold name).name = (db.secrets fold name).name from rfl)
    (h.secretMeshKind name) (h.meshBackend_ok name) (h.authParams name) a

/-- A statement returns or throws the same. -/
theorem exec (h : Alike ρ db db') (st : Statement) (ans : Answers)
    (hs : ∀ secret ∈ st.stores, secret.options.SepFree) :
    (db'.exec b fold ans (ρ.statement st)).1 = (db.exec b fold ans st).1 ∧
      Alike ρ (db.exec b fold ans st).2 (db'.exec b fold ans (ρ.statement st)).2 := by
  cases st with
  | createSecret name secret =>
    exact ⟨rfl, h.world.createSecret name (hs secret (List.mem_singleton.mpr rfl)), h.backends, h.loader⟩
  | dropSecret name => exact ⟨rfl, h.world.dropSecret name, h.backends, h.loader⟩
  | tunnelImport name a =>
    show (db'.exec b fold ans (.tunnelImport name a)).1 = _ ∧ Alike ρ _ (db'.exec b fold ans (.tunnelImport name a)).2
    rw [Database.exec, Database.exec, h.secretMeshKind, h.tunnelCreate]
    split
    · exact h.onMesh name ans _
    · exact ⟨rfl, h⟩
  | tunnelExport name a =>
    show (db'.exec b fold ans (.tunnelExport name a)).1 = _ ∧ Alike ρ _ (db'.exec b fold ans (.tunnelExport name a)).2
    rw [Database.exec, Database.exec, h.tunnelExport]
    rcases Pragma.tunnelExport true (db.secrets fold name) a with e | _ | _
    · exact ⟨rfl, h⟩
    · exact h.onMesh name ans _
    · exact ⟨rfl, h⟩
  | tunnelPeers name | tunnelSelf name => exact h.onMesh name ans _
  | tunnelMeshActivate backend =>
    show (db'.exec b fold ans (.tunnelMeshActivate backend)).1 = _ ∧
      Alike ρ _ (db'.exec b fold ans (.tunnelMeshActivate backend)).2
    rw [Database.exec, Database.exec, h.loader]
    dsimp only
    split
    · exact ⟨rfl, h⟩
    · exact ⟨rfl, h.world, h.backends, rfl⟩

end Alike

/-- What a process answers to a statement. -/
def answer (b : Build) (fold : String → String) (db : Database) (x : Statement × Answers) :
    Except TunnelError Done × Database :=
  db.exec b fold x.2 x.1

theorem Alike.answer (h : Alike ρ db db') (x : Statement × Answers)
    (hs : ∀ secret ∈ x.1.stores, secret.options.SepFree) :
    (db'.answer b fold (ρ.statement x.1, x.2)).1 = (db.answer b fold x).1 ∧
      Alike ρ (db.answer b fold x).2 (db'.answer b fold (ρ.statement x.1, x.2)).2 :=
  h.exec x.1 x.2 hs

/-- With other credentials in the secrets:

* in every run of statements whose secrets have no separator in them, every
  statement returns or throws the same, the loader is left the same, and every
  node as well, but for the keys that it was given;
* what an import or an export throws of an authentication that fails is the same
  if both fail;
* `CREATE SECRET` makes the same secret with the other credentials, or throws
  the same. -/
theorem credentials_kept (ρ : Renaming) :
    (∀ b fold xs, (∀ x ∈ xs, ∀ secret ∈ x.1.stores, secret.options.SepFree) →
      let r := Lockstep.answers (answer b fold) start xs
      let r' := Lockstep.answers (answer b fold) start (xs.map fun x => (ρ.statement x.1, x.2))
      r'.1 = r.1 ∧ r'.2.loader = r.2.loader ∧ r'.2.backends = r.2.backends.map ρ.backend) ∧
    (∀ w w' a, w'.readable = w.readable → Disguise.SameThrows w w' a (ρ.authParams a)) ∧
    ∀ input, createTunnelSecretFunction (ρ.createSecretInput input) =
      (createTunnelSecretFunction input).map ρ.tunnelSecret := by
  refine ⟨fun b fold xs hs => ?_, fun w w' a hw => Disguise.sameThrows hw a,
    Disguise.createTunnelSecretFunction_disguised⟩
  obtain ⟨hr, hd⟩ := Lockstep.answers_map (R := Alike ρ) (fun _ _ x h hx => h.answer x hx) .start hs
  exact ⟨hr, hd.loader, hd.backends⟩

/-- Two auth keys change places. -/
def swapped : Renaming where
  map := Equiv.swap "tskey-a" "tskey-b"
  empty s := by
    rw [Equiv.swap_apply_eq_iff, Equiv.swap_apply_of_ne_of_ne (by decide) (by decide)]
  injective := (Equiv.swap "tskey-a" "tskey-b").injective
  sepFree s hs := by
    rw [Equiv.swap_apply_def]
    split
    · decide
    split
    · decide
    · exact hs

/-- A secret is replaced by one with another key, and the peers are asked for before
and after. -/
def rekeyed : List (Statement × Answers) :=
  [(.createSecret "ts" ⟨"tunnel", [("backend", "tailscale"), ("auth_key", "tskey-a")]⟩, obliging .none),
    (.tunnelPeers "ts", obliging .tailscale),
    (.createSecret "ts" ⟨"tunnel", [("backend", "tailscale"), ("auth_key", "tskey-b")]⟩, obliging .none),
    (.tunnelPeers "ts", obliging .tailscale)]

theorem credentials_kept_rekeyed :
    (Lockstep.answers (answer both id) start (rekeyed.map fun x => (swapped.statement x.1, x.2))).2.backends.map
        (·.calls) =
      [[.new 1, .setStr 1 "auth_key" "tskey-b", .setBool 1 "ephemeral" 0, .up 1 0],
        [.new 1, .setStr 1 "auth_key" "tskey-a", .setBool 1 "ephemeral" 0, .up 1 0]] := by
  rw [((credentials_kept swapped).1 both id rekeyed (by decide)).2.2]
  decide

end Database

end ErplTunnel.Pragma

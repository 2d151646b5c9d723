import ErplTunnel.Pragma.Secret
import ErplTunnel.Pragma.Statement

/-!
# Import and export authenticate

`TunnelManager::CreateTunnel`, `TunnelAuthParams::Connect` and
`SshExporter::Start` each decide what to offer the server. The imports offer
what `auth_method` names, if it is there. The export offers a password whatever
the method is, unless it has a key to offer, and gives libssh2 the lengths of the
user and the password where the imports give it C strings. `authenticate_alike_iff`
says when the three do the same.

The server, and which files can be read, are parameters. Neither way of handing
libssh2 a private key offers one from a file that cannot be read.
-/

namespace ErplTunnel.Pragma.Authenticate

open Mesh (TunnelError KeyValueSecret)

/-- What the server is offered. -/
inductive Credential where
  | password (user password : String)
  | key (user path : String) (passphrase : Option String)
  deriving DecidableEq, Repr

/-- The method of a credential. -/
def Credential.method : Credential → String
  | .password _ _ => "password"
  | .key _ _ _ => "key"

/-- What is outside: the credentials that the server accepts, and the files that
can be read. -/
structure World where
  accepts : Credential → Bool
  readable : String → Bool

/-- An authentication: what was offered, and the `error_message` of a failure. -/
structure Attempt where
  offered : Option Credential
  failure : Option String
  deriving DecidableEq, Repr

def agentMessage : String :=
  "SSH agent authentication is not supported. Use auth_method 'key' or 'password' " ++
    "instead (set private_key_path/passphrase, or password, on the secret)."

def agentError : TunnelError :=
  .invalidInput ("Tunnel: SSH agent authentication is not supported. Use auth_method 'key' or " ++
    "'password' instead (set private_key_path/passphrase, or password, on the secret).")

/-- The passphrase as libssh2 is given it. -/
def passphraseArg (passphrase : String) : Option String := if passphrase = "" then none else some (cStr passphrase)

section

variable (w : World)

/-- `TunnelConnection::AuthenticateWithPassword`. -/
def authenticateWithPassword (user password : String) : Attempt :=
  let c := .password (cStr user) (cStr password)
  ⟨some c, if w.accepts c then none else some "SSH password authentication failed. Check username and password."⟩

/-- `TunnelConnection::AuthenticateWithKey`. -/
def authenticateWithKey (user privateKeyPath passphrase : String) : Attempt :=
  if w.readable (cStr privateKeyPath) then
    let c := .key user (cStr privateKeyPath) (passphraseArg passphrase)
    ⟨some c, if w.accepts c then none else some ("SSH key authentication failed. " ++
      "Check if the private key is valid and the passphrase is correct.")⟩
  else ⟨none, some ("Failed to open private key file: " ++ privateKeyPath)⟩

/-- `TunnelConnection::AuthenticateWithAgent`. -/
def authenticateWithAgent : Attempt := ⟨none, some agentMessage⟩

/-- No method was called. -/
def notCalled : Attempt := ⟨none, some ""⟩

/-- The authentication of `TunnelManager::CreateTunnel`. -/
def createTunnel (a : AuthParams) : Option Credential × Except TunnelError Unit :=
  if a.authMethod = "agent" then (none, .error agentError)
  else
    let attempt :=
      if a.authMethod = "password" then
        if a.password ≠ "" then authenticateWithPassword w a.sshUser a.password else notCalled
      else if a.authMethod = "key" then
        if a.privateKeyPath ≠ "" then authenticateWithKey w a.sshUser a.privateKeyPath a.passphrase else notCalled
      else if a.authMethod = "agent" then authenticateWithAgent
      else notCalled
    match attempt.failure with
    | some message =>
      (attempt.offered, .error (.io ("Failed to create tunnel: " ++ ("SSH authentication failed: " ++ message))))
    | none => (attempt.offered, .ok ())

/-- The authentication of `TunnelAuthParams::Connect`. -/
def connect (a : AuthParams) : Option Credential × Except TunnelError Unit :=
  let attempt :=
    if a.authMethod = "password" ∧ a.password ≠ "" then authenticateWithPassword w a.sshUser a.password
    else if a.authMethod = "key" ∧ a.privateKeyPath ≠ "" then
      authenticateWithKey w a.sshUser a.privateKeyPath a.passphrase
    else if a.authMethod = "agent" then authenticateWithAgent
    else notCalled
  match attempt.failure with
  | some message => (attempt.offered, .error (.io ("Failed to authenticate tunnel connection: " ++ message)))
  | none => (attempt.offered, .ok ())

/-- `libssh2_userauth_publickey_fromfile_ex`: what is offered, and whether it is
accepted. -/
def publickeyFromfileEx (user privateKeyPath passphrase : String) : Option Credential × Bool :=
  if w.readable (cStr privateKeyPath) then
    let c := .key user (cStr privateKeyPath) (passphraseArg passphrase)
    (some c, w.accepts c)
  else (none, false)

/-- The authentication of `SshExporter::Start`. -/
def start (a : AuthParams) : Option Credential × Except TunnelError Unit :=
  if a.authMethod = "agent" then (none, .error agentError)
  else
    let authed :=
      if a.authMethod = "key" ∧ a.privateKeyPath ≠ "" then
        publickeyFromfileEx w a.sshUser a.privateKeyPath a.passphrase
      else if a.password ≠ "" then
        let c := .password a.sshUser a.password
        (some c, w.accepts c)
      else (none, false)
    if authed.2 then (authed.1, .ok ())
    else (authed.1, .error (.io ("tunnel_export: SSH authentication failed for user '" ++ a.sshUser ++ "' on " ++
      a.sshHost ++ ".")))

end

/-- What an import offers. -/
def importOffer (w : World) (a : AuthParams) : Option Credential :=
  if a.authMethod = "password" ∧ a.password ≠ "" then some (.password (cStr a.sshUser) (cStr a.password))
  else if a.authMethod = "key" ∧ a.privateKeyPath ≠ "" ∧ w.readable (cStr a.privateKeyPath) then
    some (.key a.sshUser (cStr a.privateKeyPath) (passphraseArg a.passphrase))
  else none

/-- What an export offers. -/
def exportOffer (w : World) (a : AuthParams) : Option Credential :=
  if a.authMethod = "agent" then none
  else if a.authMethod = "key" ∧ a.privateKeyPath ≠ "" then
    if w.readable (cStr a.privateKeyPath) then
      some (.key a.sshUser (cStr a.privateKeyPath) (passphraseArg a.passphrase))
    else none
  else if a.password ≠ "" then some (.password a.sshUser a.password)
  else none

/-- The result is what the server makes of the offer. -/
def Decided (w : World) (offer : Option Credential) (r : Option Credential × Except TunnelError Unit) : Prop :=
  r.1 = offer ∧ r.2.isOk = offer.any w.accepts

section Offers

variable (w : World) (a : AuthParams)

theorem decided_createTunnel : Decided w (importOffer w a) (createTunnel w a) := by
  unfold Decided createTunnel importOffer
  by_cases hagent : a.authMethod = "agent"
  · simp [hagent, Except.isOk, Except.toBool]
  by_cases hpw : a.authMethod = "password"
  · by_cases hp : a.password = ""
    · simp [hpw, hp, notCalled, Except.isOk, Except.toBool]
    · cases hacc : w.accepts (.password (cStr a.sshUser) (cStr a.password)) <;>
        simp [hpw, hp, authenticateWithPassword, hacc, Except.isOk, Except.toBool]
  by_cases hk : a.authMethod = "key"
  · by_cases hp : a.privateKeyPath = ""
    · simp [hk, hp, notCalled, Except.isOk, Except.toBool]
    · by_cases hr : w.readable (cStr a.privateKeyPath) = true
      · cases hacc : w.accepts (.key a.sshUser (cStr a.privateKeyPath) (passphraseArg a.passphrase)) <;>
          simp [hk, hp, hr, authenticateWithKey, hacc, Except.isOk, Except.toBool]
      · simp [hk, hp, hr, authenticateWithKey, Except.isOk, Except.toBool]
  · simp [hagent, hpw, hk, notCalled, Except.isOk, Except.toBool]

theorem decided_connect : Decided w (importOffer w a) (connect w a) := by
  unfold Decided connect importOffer
  by_cases hpw : a.authMethod = "password" ∧ a.password ≠ ""
  · cases hacc : w.accepts (.password (cStr a.sshUser) (cStr a.password)) <;>
      simp [hpw, authenticateWithPassword, hacc, Except.isOk, Except.toBool]
  by_cases hk : a.authMethod = "key" ∧ a.privateKeyPath ≠ ""
  · by_cases hr : w.readable (cStr a.privateKeyPath) = true
    · cases hacc : w.accepts (.key a.sshUser (cStr a.privateKeyPath) (passphraseArg a.passphrase)) <;>
        simp [hk, hr, authenticateWithKey, hacc, Except.isOk, Except.toBool]
    · simp [hk, hr, authenticateWithKey, Except.isOk, Except.toBool]
  · have hoffer : ¬(a.authMethod = "key" ∧ a.privateKeyPath ≠ "" ∧ w.readable (cStr a.privateKeyPath) = true) :=
      fun h => hk ⟨h.1, h.2.1⟩
    by_cases hagent : a.authMethod = "agent"
    · simp [hagent, authenticateWithAgent, Except.isOk, Except.toBool]
    · simp only [hpw, hk, hoffer, hagent, ↓reduceIte]
      exact ⟨rfl, rfl⟩

theorem decided_start : Decided w (exportOffer w a) (start w a) := by
  unfold Decided start exportOffer
  by_cases hagent : a.authMethod = "agent"
  · simp [hagent, Except.isOk, Except.toBool]
  by_cases hk : a.authMethod = "key" ∧ a.privateKeyPath ≠ ""
  · by_cases hr : w.readable (cStr a.privateKeyPath) = true
    · cases hacc : w.accepts (.key a.sshUser (cStr a.privateKeyPath) (passphraseArg a.passphrase)) <;>
        simp [hk, hr, publickeyFromfileEx, hacc, Except.isOk, Except.toBool]
    · simp [hk, hr, publickeyFromfileEx, Except.isOk, Except.toBool]
  · by_cases hp : a.password = ""
    · simp [hagent, hk, hp, Except.isOk, Except.toBool]
    · cases hacc : w.accepts (.password a.sshUser a.password) <;>
        simp [hagent, hk, hp, hacc, Except.isOk, Except.toBool]

end Offers

/-- An import that is created has been authenticated so, on a server that accepts
everything or nothing. -/
theorem authenticates_eq (a : AuthParams) (net : Network) :
    authenticates a.toTunnelAuthParams net = (createTunnel ⟨fun _ => net.auth, fun _ => true⟩ a).2.isOk := by
  rw [(decided_createTunnel _ a).2]
  unfold authenticates importOffer
  by_cases hpw : a.authMethod = "password"
  · by_cases hp : a.password = "" <;> simp [hpw, hp]
  · by_cases hk : a.authMethod = "key"
    · by_cases hp : a.privateKeyPath = "" <;> simp [hk, hp]
    · simp [hpw, hk]

/-- The three functions offer the same, of the method that is named. -/
structure Alike (w : World) (a : AuthParams) : Prop where
  imports : (createTunnel w a).1 = (connect w a).1
  exports : (connect w a).1 = (start w a).1
  method : ∀ c, (createTunnel w a).1 = some c ∨ (connect w a).1 = some c ∨ (start w a).1 = some c →
    c.method = a.authMethod

/-- The method is there to be used, or there is no password; a password and its
user are not cut at a NUL. -/
def Usable (a : AuthParams) : Prop :=
  a.authMethod = "agent" ∨ a.authMethod = "key" ∧ a.privateKeyPath ≠ "" ∨ a.password = "" ∨
    a.authMethod = "password" ∧ '\x00' ∉ a.password.toList ∧ '\x00' ∉ a.sshUser.toList

theorem cStr_eq_self_iff {s : String} : cStr s = s ↔ '\x00' ∉ s.toList := by
  refine ⟨fun h hn => ?_, cStr_eq_self⟩
  have hlt := length_cStr_lt hn
  rw [h] at hlt
  exact Nat.lt_irrefl _ hlt

theorem importOffer_method {w : World} {a : AuthParams} {c : Credential} (h : importOffer w a = some c) :
    c.method = a.authMethod := by
  unfold importOffer at h
  split at h
  · rename_i hpw
    cases h
    exact hpw.1.symm
  · split at h
    · rename_i hk
      cases h
      exact hk.1.symm
    · cases h

/-- An import and an export offer the same. -/
theorem offers_eq_iff (w : World) (a : AuthParams) : importOffer w a = exportOffer w a ↔ Usable a := by
  unfold importOffer exportOffer Usable
  by_cases hagent : a.authMethod = "agent"
  · simp [hagent]
  by_cases hk : a.authMethod = "key"
  · by_cases hp : a.privateKeyPath = ""
    · by_cases hpw : a.password = "" <;> simp [hk, hp, hpw]
    · by_cases hr : w.readable (cStr a.privateKeyPath) = true <;> simp [hk, hp, hr]
  by_cases hpw : a.authMethod = "password"
  · by_cases hp : a.password = ""
    · simp [hpw, hp]
    · simp [hpw, hp, cStr_eq_self_iff, and_comm]
  · by_cases hp : a.password = ""
    · simp [hagent, hk, hpw, hp]
    · simp [hagent, hk, hpw, hp]

theorem alike_iff (w : World) (a : AuthParams) : Alike w a ↔ importOffer w a = exportOffer w a := by
  have h₁ := (decided_createTunnel w a).1
  have h₂ := (decided_connect w a).1
  have h₃ := (decided_start w a).1
  constructor
  · intro h
    rw [← h₂, ← h₃]
    exact h.exports
  · intro h
    refine ⟨by rw [h₁, h₂], by rw [h₂, h₃, h], fun c hc => ?_⟩
    rw [h₁, h₂, h₃, ← h] at hc
    exact importOffer_method (by tauto)

/-- Two offers that every server treats alike are the same. -/
theorem offers_of_together {o₁ o₂ : Option Credential} (h : ∀ accepts : Credential → Bool, o₁.any accepts = o₂.any accepts) :
    o₁ = o₂ := by
  cases o₁ with
  | none =>
    cases o₂ with
    | none => rfl
    | some c => exact absurd (h fun _ => true) (by simp)
  | some c =>
    have hc := h fun c' => c' == c
    cases o₂ with
    | none => simp at hc
    | some c' =>
      simp only [Option.any_some, beq_self_eq_true] at hc
      rw [eq_of_beq hc.symm]

/-- The three functions authenticate alike exactly when the parameters are usable,
and the import and the export of a secret succeed together on every server
exactly when its parameters are. -/
theorem authenticate_alike_iff (w : World) (a : AuthParams) (secret : KeyValueSecret) :
    (Alike w a ↔ Usable a) ∧
    ((∀ w : World, (createTunnel w (convertTunnelSecretToAuthParams secret)).2.isOk =
        (start w (convertTunnelSecretToAuthParams secret)).2.isOk) ↔
      Usable (convertTunnelSecretToAuthParams secret)) := by
  refine ⟨(alike_iff w a).trans (offers_eq_iff w a), ?_⟩
  constructor
  · intro h
    rw [← offers_eq_iff ⟨fun _ => true, fun _ => true⟩]
    refine offers_of_together fun accepts => ?_
    have hw := h ⟨accepts, fun _ => true⟩
    rwa [(decided_createTunnel _ _).2, (decided_start _ _).2] at hw
  · intro h w
    rw [(decided_createTunnel _ _).2, (decided_start _ _).2, (offers_eq_iff w _).mpr h]

/-- A secret with a key method, no path and a password: the import offers
nothing, the export the password. -/
def keyWithoutPath : KeyValueSecret :=
  ⟨"ssh_tunnel", [("ssh_host", "bastion"), ("ssh_user", "jump"), ("password", "pw"), ("auth_method", "key")]⟩

theorem export_offers_password :
    ∃ w : World, ¬Alike w (convertTunnelSecretToAuthParams keyWithoutPath) ∧
      (start w (convertTunnelSecretToAuthParams keyWithoutPath)).1 = some (.password "jump" "pw") ∧
      (createTunnel w (convertTunnelSecretToAuthParams keyWithoutPath)).1 = none ∧
      (createTunnel w (convertTunnelSecretToAuthParams keyWithoutPath)).2.isOk ≠
        (start w (convertTunnelSecretToAuthParams keyWithoutPath)).2.isOk := by
  refine ⟨⟨fun _ => true, fun _ => true⟩, fun h => ?_, by decide, by decide, by decide⟩
  have hsame := h.exports
  revert hsame
  decide

end ErplTunnel.Pragma.Authenticate

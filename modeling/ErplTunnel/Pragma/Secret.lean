import ErplTunnel.Framework.Assoc
import ErplTunnel.Mesh.Cache
import ErplTunnel.Pragma.Tunnels

/-!
# Tunnel secrets

`CREATE SECRET` hands its options to `CreateTunnelSecretFunction`, in the order
in which an unordered map enumerates them, and `ConvertTunnelSecretToAuthParams`
reads the result. `host`, `user` and `port` are stored under the names of
`ssh_host`, `ssh_user` and `ssh_port`, so with both spellings of a field the one
that comes last is kept: a secret is the same in every order exactly when the
options that name one field agree (`secret_order_free_iff`).
-/

namespace ErplTunnel.Pragma

open Mesh (TunnelError KeyValueSecret lower)

/-- `TunnelAuthParams`. -/
structure AuthParams extends TunnelAuthParams where
  passphrase : String
  deriving DecidableEq, Repr

/-- `CreateSecretInput`; the options with the texts of their values. -/
structure CreateSecretInput where
  type : String
  name : String
  options : List (String × String)
  deriving DecidableEq, Repr

/-- A secret as it is made. -/
structure TunnelSecret extends KeyValueSecret where
  provider : String
  name : String
  redactKeys : List String
  deriving DecidableEq, Repr

def kKnownKeys : List String :=
  ["backend", "ssh_host", "ssh_port", "ssh_user", "host", "user", "port", "password", "private_key_path",
    "passphrase", "auth_method", "auth_key", "setup_key", "hostname", "tags", "groups", "control_url",
    "management_url", "state_dir", "ephemeral"]

def unknownParameter (lowerName : String) : TunnelError :=
  .invalidInput ("Unknown tunnel secret parameter '" ++ lowerName ++ "'. Valid parameters:\n" ++
    "  SSH:      host/user/port (or ssh_host/ssh_user/ssh_port), password, " ++
    "private_key_path, passphrase\n" ++
    "  Mesh:     backend ('tailscale'|'netbird'), auth_key, setup_key, hostname, " ++
    "tags, groups, control_url, management_url, ephemeral, state_dir")

/-- The friendly aliases. -/
def normalise (lowerName : String) : String :=
  if lowerName = "host" then "ssh_host"
  else if lowerName = "user" then "ssh_user"
  else if lowerName = "port" then "ssh_port"
  else lowerName

/-- One turn of the loop over the options. -/
def storeOption (secretMap : List (String × String)) (option : String × String) :
    Except TunnelError (List (String × String)) :=
  if lower option.1 ∈ kKnownKeys then .ok (Assoc.assign secretMap (normalise (lower option.1)) option.2)
  else .error (unknownParameter (lower option.1))

def createTunnelSecretFunction (input : CreateSecretInput) : Except TunnelError TunnelSecret := do
  let secretMap ← input.options.foldlM storeOption []
  return { type := input.type, secretMap, provider := "config", name := input.name
           redactKeys := ["password", "passphrase", "private_key_path", "auth_key", "setup_key"] }

def isSpace (c : Char) : Bool := c ∈ [' ', '\t', '\n', '\x0b', '\x0c', '\r']

/-- `std::stoi`, which throws for a text that does not start with a number or
whose number is out of the range of an int. -/
def stoi (s : String) : Option Int32 :=
  let cs := s.toList.dropWhile isSpace
  let digits := (if cs.head? = some '-' ∨ cs.head? = some '+' then cs.tail else cs).takeWhile Char.isDigit
  let n : Int := digits.foldl (fun n c => 10 * n + (c.toNat - '0'.toNat)) 0
  let n := if cs.head? = some '-' then -n else n
  if digits = [] then none
  else if -2147483648 ≤ n ∧ n ≤ 2147483647 then some (.ofInt n)
  else none

def convertTunnelSecretToAuthParams (secret : KeyValueSecret) : AuthParams :=
  let get := fun key => (secret.secretMap.lookup key).getD ""
  { sshHost := get "ssh_host"
    sshPort := ((secret.secretMap.lookup "ssh_port").bind stoi).getD 22
    sshUser := get "ssh_user"
    password := get "password"
    privateKeyPath := get "private_key_path"
    passphrase := get "passphrase"
    authMethod :=
      match secret.secretMap.lookup "auth_method" with
      | some method => method
      | none =>
        if get "password" ≠ "" then "password"
        else if get "private_key_path" ≠ "" then "key"
        else "agent" }

/-- The key that an option is stored under. -/
def field (name : String) : String := normalise (lower name)

/-- What an option stores. -/
def stored (option : String × String) : String × String := (field option.1, option.2)

/-- Every option is a recognised one. -/
def Recognised (options : List (String × String)) : Prop := ∀ o ∈ options, lower o.1 ∈ kKnownKeys

theorem foldlM_storeOption {options : List (String × String)} (h : Recognised options) (m : List (String × String)) :
    options.foldlM storeOption m = .ok (options.foldl (fun m o => Assoc.assign m (field o.1) o.2) m) := by
  induction options generalizing m with
  | nil => rfl
  | cons o options ih =>
    have ho : storeOption m o = .ok (Assoc.assign m (field o.1) o.2) := if_pos (h o (List.mem_cons_self ..))
    rw [List.foldlM_cons, ho]
    exact ih (fun o' ho' => h o' (List.mem_cons_of_mem _ ho')) _

/-- The secret of recognised options. -/
theorem createTunnelSecretFunction_ok {type name : String} {options : List (String × String)} (h : Recognised options) :
    createTunnelSecretFunction ⟨type, name, options⟩ =
      .ok { type, secretMap := Assoc.assignAll (options.map stored), provider := "config", name
            redactKeys := ["password", "passphrase", "private_key_path", "auth_key", "setup_key"] } := by
  rw [createTunnelSecretFunction, foldlM_storeOption h, Assoc.assignAll, List.foldl_map]
  rfl

/-- What is read of a secret is the values of its keys. -/
theorem convertTunnelSecretToAuthParams_congr {s t : KeyValueSecret}
    (h : ∀ k, s.secretMap.lookup k = t.secretMap.lookup k) :
    convertTunnelSecretToAuthParams s = convertTunnelSecretToAuthParams t := by
  simp only [convertTunnelSecretToAuthParams, h]

/-- The two calls make the same secret, or throw the same. -/
inductive SameSecret : Except TunnelError TunnelSecret → Except TunnelError TunnelSecret → Prop
  | made {s t : TunnelSecret} (rest : t = { s with secretMap := t.secretMap })
    (map : ∀ k, s.secretMap.lookup k = t.secretMap.lookup k)
    (auth : convertTunnelSecretToAuthParams s.toKeyValueSecret = convertTunnelSecretToAuthParams t.toKeyValueSecret) :
    SameSecret (.ok s) (.ok t)
  | threw (e : TunnelError) : SameSecret (.error e) (.error e)

theorem sameSecret_iff {type name : String} {options options' : List (String × String)} (h : Recognised options)
    (h' : Recognised options') :
    SameSecret (createTunnelSecretFunction ⟨type, name, options'⟩) (createTunnelSecretFunction ⟨type, name, options⟩) ↔
      ∀ k, (Assoc.assignAll (options'.map stored)).lookup k = (Assoc.assignAll (options.map stored)).lookup k := by
  rw [createTunnelSecretFunction_ok h, createTunnelSecretFunction_ok h']
  constructor
  · rintro ⟨⟩
    assumption
  · intro hmap
    exact .made rfl hmap (convertTunnelSecretToAuthParams_congr hmap)

/-- The secret depends neither on the order of the options nor on the spelling of
their names. -/
structure OrderFree (type name : String) (options : List (String × String)) : Prop where
  order : ∀ options' : List (String × String), options'.Perm options →
    SameSecret (createTunnelSecretFunction ⟨type, name, options'⟩) (createTunnelSecretFunction ⟨type, name, options⟩)
  spelling : SameSecret (createTunnelSecretFunction ⟨type, name, options.map stored⟩)
    (createTunnelSecretFunction ⟨type, name, options⟩)

/-- The keys that are stored are recognised themselves, and stay as they are. -/
theorem normalise_known : ∀ k ∈ kKnownKeys, lower (normalise k) ∈ kKnownKeys ∧ field (normalise k) = normalise k := by
  decide

theorem field_field {name : String} (h : lower name ∈ kKnownKeys) :
    lower (field name) ∈ kKnownKeys ∧ field (field name) = field name :=
  normalise_known (lower name) h

/-- A secret is the same for every order of its options, and for the canonical
names of them, exactly when the options that name one field have one value. -/
theorem secret_order_free_iff (type name : String) (options : List (String × String)) (h : Recognised options) :
    OrderFree type name options ↔ ∀ o₁ ∈ options, ∀ o₂ ∈ options, field o₁.1 = field o₂.1 → o₁.2 = o₂.2 := by
  have hagree : Assoc.Agree (options.map stored) ↔
      ∀ o₁ ∈ options, ∀ o₂ ∈ options, field o₁.1 = field o₂.1 → o₁.2 = o₂.2 := by
    simp only [Assoc.Agree, List.forall_mem_map, stored]
  have hperm : ∀ options', options'.Perm options → Recognised options' :=
    fun options' hp o ho => h o (hp.mem_iff.mp ho)
  have hspelling : SameSecret (createTunnelSecretFunction ⟨type, name, options.map stored⟩)
      (createTunnelSecretFunction ⟨type, name, options⟩) := by
    have hstored : (options.map stored).map stored = options.map stored := by
      rw [List.map_map]
      refine List.map_congr_left fun o ho => ?_
      rw [Function.comp_apply, stored, stored, (field_field (h o ho)).2]
    refine (sameSecret_iff h fun o ho => ?_).mpr fun k => by rw [hstored]
    obtain ⟨o', ho', rfl⟩ := List.mem_map.mp ho
    exact (field_field (h o' ho')).1
  rw [← hagree, ← Assoc.assignAll_perm_iff]
  constructor
  · intro hf options' hp
    exact (sameSecret_iff h (hperm options' hp)).mp (hf.order options' hp)
  · intro hall
    exact ⟨fun options' hp => (sameSecret_iff h (hperm options' hp)).mpr (hall options' hp), hspelling⟩

/-- The options of a secret with the short names, one of them in capitals. -/
def shortNames : List (String × String) :=
  [("HOST", "bastion.example.com"), ("user", "jump"), ("port", "2222"), ("password", "pw")]

theorem shortNames_order_free :
    OrderFree "ssh_tunnel" "s_short" shortNames ∧
      ((createTunnelSecretFunction ⟨"ssh_tunnel", "s_short", shortNames⟩).map
        fun s => convertTunnelSecretToAuthParams s.toKeyValueSecret) =
        .ok ⟨⟨"bastion.example.com", 2222, "jump", "pw", "", "password"⟩, ""⟩ := by
  refine ⟨(secret_order_free_iff "ssh_tunnel" "s_short" shortNames ?_).mpr ?_, ?_⟩
  · show ∀ o ∈ shortNames, lower o.1 ∈ kKnownKeys
    decide
  · decide
  · decide

/-- With both spellings of the host, the last one is kept. -/
theorem two_hosts_depend_on_order :
    ¬OrderFree "ssh_tunnel" "s" [("host", "a"), ("ssh_host", "b")] := by
  intro h
  have hr : Recognised [("host", "a"), ("ssh_host", "b")] := by
    show ∀ o ∈ [("host", "a"), ("ssh_host", "b")], lower o.1 ∈ kKnownKeys
    decide
  have hr' : Recognised [("ssh_host", "b"), ("host", "a")] := fun o ho => hr o (by simpa [or_comm] using ho)
  have hsame := (sameSecret_iff hr hr').mp (h.order _ (List.Perm.swap ..)) "ssh_host"
  revert hsame
  decide

end ErplTunnel.Pragma

import ErplTunnel.Framework.Assoc
import ErplTunnel.Framework.Lockstep
import ErplTunnel.Mesh.NodeIdentity

/-!
# Credentials in the place of others

A secret has credentials among its values, which a disguise puts others in the
place of. A `MeshBackend` passes them on to the shim and looks at nothing but
whether they are empty, so all its methods are blind to a disguise.

The key of the cache has the credentials in it. Two secrets without a separator
have one key exactly when they have one name and one set of options
(`cacheKey_inj`), so the nodes of disguised secrets are found where those of the
secrets are, as long as different credentials stay different (`Renaming`).
-/

namespace ErplTunnel.Mesh

open Throws (Blind)

/-- The values of a secret that are told to nobody but the other end. The path of
a private key is not one of them: it is in the exception when there is no such
file. -/
def credentials : List String := ["password", "passphrase", "auth_key", "setup_key"]

/-- Other credentials, none for none. -/
structure Disguise where
  map : String → String
  empty : ∀ s, map s = "" ↔ s = ""

/-- Different credentials stay different, and the separator comes into none. -/
structure Renaming extends Disguise where
  injective : Function.Injective map
  sepFree : ∀ s, unitSep ∉ s.toList → unitSep ∉ (map s).toList

namespace Disguise

variable (ρ : Disguise)

theorem map_empty : ρ.map "" = "" := (ρ.empty "").mpr rfl

/-- The value of a key. -/
def value (k v : String) : String := if k ∈ credentials then ρ.map v else v

def secret (secret : KeyValueSecret) : KeyValueSecret :=
  { secret with secretMap := Assoc.mapVals ρ.value secret.secretMap }

def options (o : MeshOptions) : MeshOptions :=
  { o with authKey := ρ.map o.authKey, setupKey := ρ.map o.setupKey }

def call : ShimCall → ShimCall
  | .setStr node key val => .setStr node key (ρ.value key val)
  | c => c

def backend (b : MeshBackend) : MeshBackend :=
  { b with opts := ρ.options b.opts, calls := b.calls.map ρ.call }

variable {ρ}

theorem value_of_not_mem {k : String} (h : k ∉ credentials) (v : String) : ρ.value k v = v := if_neg h

theorem value_empty (k : String) : ρ.value k "" = "" := by
  rw [value]
  split
  · exact ρ.map_empty
  · rfl

theorem get_secret (s : KeyValueSecret) (k : String) : (ρ.secret s).get k = ρ.value k (s.get k) := by
  rw [KeyValueSecret.get, KeyValueSecret.get, secret, Assoc.lookup_mapVals]
  cases s.secretMap.lookup k with
  | none => exact (value_empty k).symm
  | some v => rfl

theorem options_secret (s : KeyValueSecret) : (ρ.secret s).options = ρ.options s.options := by
  have hg : ∀ k, k ∉ credentials → (ρ.secret s).get k = s.get k := fun k hk => by
    rw [get_secret, value_of_not_mem hk]
  have ha : (ρ.secret s).get "auth_key" = ρ.map (s.get "auth_key") := by
    rw [get_secret, value, if_pos (by decide)]
  have hs : (ρ.secret s).get "setup_key" = ρ.map (s.get "setup_key") := by
    rw [get_secret, value, if_pos (by decide)]
  simp only [KeyValueSecret.options, options, ha, hs, hg "backend" (by decide), hg "hostname" (by decide),
    hg "tags" (by decide), hg "groups" (by decide), hg "control_url" (by decide), hg "management_url" (by decide),
    hg "state_dir" (by decide), hg "ephemeral" (by decide)]

/-! ## The methods of a backend -/

theorem optionCalls_options (o : MeshOptions) (node : Int) :
    optionCalls (ρ.options o) node = (optionCalls o node).map ρ.call := by
  have hfilter : ∀ l : List (String × String),
      ((l.map fun kv => (kv.1, ρ.value kv.1 kv.2)).filter fun kv => kv.2 ≠ "").map
          (fun kv => ShimCall.setStr node kv.1 kv.2) =
        ((l.filter fun kv => kv.2 ≠ "").map fun kv => .setStr node kv.1 kv.2).map ρ.call := by
    intro l
    have he : ∀ k v, ρ.value k v = "" ↔ v = "" := by
      intro k v
      rw [value]
      split
      · exact ρ.empty v
      · exact Iff.rfl
    rw [List.filter_map, List.map_map, List.map_map]
    congr 1
    refine List.filter_congr fun kv _ => ?_
    simp only [Function.comp_apply, ne_eq, he]
  simp only [optionCalls, List.map_append, ← hfilter]
  rfl

theorem blind_issue {c : ShimCall} (hc : ρ.call c = c) : Blind ρ.backend (issue c) := by
  refine .modify fun b => ?_
  simp only [backend, List.map_append, List.map_cons, List.map_nil, hc]

theorem blind_setOptions : Blind ρ.backend setOptions := by
  refine .modify fun b => ?_
  simp only [backend, List.map_append, optionCalls_options]

theorem blind_lastError (text : String) : Blind ρ.backend (lastError text) := by
  refine .get (fun _ => rfl) fun b => ?_
  split
  · exact .pure _
  · exact .bind (blind_issue rfl) fun _ => .pure _

theorem blind_throwLast (text : String) : Blind ρ.backend (throwLast text) :=
  .bind (blind_lastError text) fun _ => .throw _

theorem blind_jsonAnswer (rc : Int) (r : Reply) : Blind ρ.backend (jsonAnswer rc r) := by
  rw [jsonAnswer]
  split
  · exact blind_throwLast _
  · exact .pure _

theorem blind_jsonCall {call : Int → Nat → ShimCall} (hc : ∀ n k, ρ.call (call n k) = call n k) (size : Nat)
    (what : String) (r : Reply) : Blind ρ.backend (jsonCall call size what r) := by
  refine .get (fun _ => rfl) fun b => .bind (blind_issue (hc _ _)) fun _ => ?_
  split
  · split
    · exact .throw _
    · exact .bind (blind_issue (hc _ _)) fun _ => blind_jsonAnswer _ _
  · exact blind_jsonAnswer _ _

theorem blind_resume (m : Method) (r : Reply) : Blind ρ.backend (resume m r) := by
  cases m with
  | ensureUp => exact .pure _
  | dial host port =>
    refine .get (fun _ => rfl) fun b => .bind (blind_issue rfl) fun _ => ?_
    split
    · split
      · exact blind_throwLast _
      · exact .pure _
    · exact blind_throwLast _
  | meshExport meshPort localHost localPort =>
    refine .get (fun _ => rfl) fun b => .bind (blind_issue rfl) fun _ => ?_
    split
    · exact blind_throwLast _
    · exact .pure _
  | peersJson => exact blind_jsonCall (fun _ _ => rfl) _ _ _
  | selfJson => exact blind_jsonCall (fun _ _ => rfl) _ _ _

theorem blind_unexport (handle : Int) : Blind ρ.backend (unexport handle) := by
  refine .get (fun _ => rfl) fun b => ?_
  split
  · exact blind_issue rfl
  · exact .pure _

theorem blind_destroy : Blind ρ.backend destroy := by
  refine .get (fun _ => rfl) fun b => ?_
  split
  · exact .bind (blind_issue rfl) fun _ => .modify fun _ => rfl
  · exact .pure _

/-- `mesh_up`, once there is a node. -/
theorem blind_up (o : UpOutcome) : Blind ρ.backend (do
    issue (.up (← get).node o.rc)
    if o.rc ≠ 0 then
      throw (.io ("Tunnel: " ++ (← lastError o.errmsg)))
    modify fun b => { b with up := true }) := by
  refine .get (fun _ => rfl) fun b => .bind (blind_issue rfl) fun _ => ?_
  dsimp only
  split
  · exact .bind (blind_lastError _) fun _ => .bind (.throw _) fun _ => .modify fun _ => rfl
  · exact .modify fun _ => rfl

theorem blind_ensureUp (o : UpOutcome) : Blind ρ.backend (ensureUp o) := by
  refine .get (fun _ => rfl) fun b => ?_
  split
  · exact .pure _
  cases o.activate with
  | error e => exact .throw e
  | ok api =>
    refine .bind (.modify fun _ => rfl) fun _ => .get (fun _ => rfl) fun b => ?_
    have hup : Blind ρ.backend _ := blind_up o
    dsimp only at hup ⊢
    by_cases hn : b.node ≤ 0
    · rw [if_pos hn]
      refine .bind (blind_issue rfl) fun _ => .bind (.modify fun _ => rfl) fun _ => ?_
      split
      · exact .bind (.throw _) fun _ => .bind blind_setOptions fun _ => hup
      · exact .bind blind_setOptions fun _ => hup
    · rw [if_neg hn]
      exact hup

variable (ρ) in
def sys (s : Sys) : Sys := { s with backend := ρ.backend s.backend }

/-- A step of the threads does not look at the credentials. -/
theorem step_sys (s : Sys) (e : Ev) : (ρ.sys s).step e = (s.step e).map ρ.sys := by
  cases e with
  | call m o =>
    simp only [Sys.step, sys, blind_ensureUp o s.backend]
    split
    · rfl
    · rcases (ensureUp o).exec s.backend with ⟨_ | _, _⟩ <;> rfl
  | resume i r =>
    simp only [Sys.step, sys]
    cases s.inFlight[i]? with
    | none => rfl
    | some m =>
      simp only [blind_resume m r s.backend]
      rfl
  | unexport handle =>
    simp only [Sys.step, sys, blind_unexport handle s.backend]
    split <;> rfl
  | destroy =>
    simp only [Sys.step, sys, blind_destroy s.backend]
    split <;> rfl

end Disguise

/-! ## The cache -/

instance (o : MeshOptions) : Decidable o.SepFree := inferInstanceAs (Decidable (∀ l ∈ o.texts, unitSep ∉ l))

/-- Options without a separator are read back from the end of the key. -/
theorem cacheKey_inj {name name' : String} {o o' : MeshOptions} (ho : o.SepFree) (ho' : o'.SepFree) :
    cacheKey name o = cacheKey name' o' ↔ name = name' ∧ o = o' := by
  refine ⟨fun h => ?_, fun ⟨hn, ho⟩ => by rw [hn, ho]⟩
  have hl : name.toList ++ o.keyed = name'.toList ++ o'.keyed := by
    rw [← cacheKey_toList, ← cacheKey_toList, h]
  -- the part that one name has more starts with a separator, which is one too many
  have hshort : ∀ {p p' : MeshOptions} {x : List Char}, p.SepFree → p'.SepFree → p.keyed = x ++ p'.keyed → x = [] := by
    intro p p' x hp hp' hkey
    cases x with
    | nil => rfl
    | cons c x =>
      obtain rfl : unitSep = c := List.head_eq_of_cons_eq hkey
      have hc := sepFree_iff.mp hp
      rw [hkey, List.count_append, List.count_cons_self, sepFree_iff.mp hp'] at hc
      omega
  rcases List.append_eq_append_iff.mp hl with ⟨x, hx, hkey⟩ | ⟨x, hx, hkey⟩
  · obtain rfl := hshort ho ho' hkey
    rw [List.append_nil, String.toList_inj] at hx
    exact ⟨hx.symm, ho.inj hkey⟩
  · obtain rfl := hshort ho' ho hkey
    rw [List.append_nil, String.toList_inj] at hx
    exact ⟨hx, ho.inj hkey.symm⟩

namespace Renaming

variable (ρ : Renaming)

/-- An entry of the cache, and that of the same name in the cache of the disguised
secrets. -/
def Entries (e e' : String × MeshOptions) : Prop :=
  e.2.SepFree ∧ ∃ name, e.1 = cacheKey name e.2 ∧ e' = (cacheKey name (ρ.options e.2), ρ.options e.2)

/-- The same world, with the secrets disguised. -/
structure Worlds (w w' : World) : Prop where
  secrets : w'.secrets = Assoc.mapVals (fun _ => ρ.secret) w.secrets
  sepFree : ∀ e ∈ w.secrets, e.2.options.SepFree
  cache : List.Forall₂ ρ.Entries w.cache w'.cache

variable {ρ} {o o' : MeshOptions}

theorem options_inj (h : ρ.options o = ρ.options o') : o = o' := by
  cases o
  cases o'
  simp only [Disguise.options, MeshOptions.mk.injEq] at h ⊢
  obtain ⟨hk, ha, hs, hrest⟩ := h
  exact ⟨hk, ρ.injective ha, ρ.injective hs, hrest⟩

theorem options_sepFree (h : o.SepFree) : (ρ.options o).SepFree := by
  simp only [MeshOptions.SepFree, MeshOptions.texts, List.forall_mem_cons] at h ⊢
  obtain ⟨ha, hs, hrest⟩ := h
  exact ⟨ρ.sepFree _ ha, ρ.sepFree _ hs, hrest⟩

/-- The keys of a name are found at the same places. -/
theorem Entries.key_iff {e e' : String × MeshOptions} (h : ρ.Entries e e') (ho : o.SepFree) (name : String) :
    e.1 = cacheKey name o ↔ e'.1 = cacheKey name (ρ.options o) := by
  obtain ⟨hp, name', hk, rfl⟩ := h
  rw [hk, cacheKey_inj hp ho, cacheKey_inj (options_sepFree hp) (options_sepFree ho)]
  exact and_congr_right fun _ => ⟨congrArg ρ.options, options_inj⟩

theorem map_new {es es' : NodeCache} (h : List.Forall₂ ρ.Entries es es') :
    es'.map (fun e => MeshBackend.new e.2) = (es.map fun e => MeshBackend.new e.2).map ρ.backend := by
  induction h with
  | nil => rfl
  | cons he _ ih =>
    obtain ⟨-, name, -, rfl⟩ := he
    rw [List.map_cons, List.map_cons, List.map_cons, ih]
    rfl

namespace Worlds

variable {fold : String → String} {w w' : World}

theorem start : ρ.Worlds .start .start := ⟨rfl, by simp [World.start], .nil⟩

theorem lookup (h : ρ.Worlds w w') (name : String) :
    w'.lookupTunnelSecret fold name = (w.lookupTunnelSecret fold name).map ρ.secret := by
  rw [World.lookupTunnelSecret, World.lookupTunnelSecret, h.secrets, Assoc.lookup_mapVals, Option.filter_map]
  rfl

theorem lookup_sepFree (h : ρ.Worlds w w') {name : String} {secret : KeyValueSecret}
    (hs : w.lookupTunnelSecret fold name = some secret) : secret.options.SepFree := by
  obtain ⟨hl, -⟩ := Option.filter_eq_some_iff.mp hs
  obtain ⟨a, b, heq, -⟩ := List.lookup_eq_some_iff.mp hl
  exact h.sepFree (fold name, secret) (heq ▸ List.mem_append_right a List.mem_cons_self)

theorem createSecret (h : ρ.Worlds w w') (name : String) {secret : KeyValueSecret} (hs : secret.options.SepFree) :
    ρ.Worlds (w.exec fold (.createSecret name secret)) (w'.exec fold (.createSecret name (ρ.secret secret))) where
  secrets := by
    show Assoc.assign w'.secrets (fold name) (ρ.secret secret) = _
    rw [h.secrets, Assoc.assign_mapVals (fun _ => ρ.secret)]
    rfl
  sepFree e he := by
    obtain rfl | he := List.mem_cons.mp he
    · exact hs
    · exact h.sepFree e (List.mem_filter.mp he).1
  cache := h.cache

theorem dropSecret (h : ρ.Worlds w w') (name : String) :
    ρ.Worlds (w.exec fold (.dropSecret name)) (w'.exec fold (.dropSecret name)) where
  secrets := by
    show w'.secrets.filter _ = Assoc.mapVals _ (w.secrets.filter _)
    rw [h.secrets, Assoc.mapVals, List.filter_map]
    rfl
  sepFree e he := h.sepFree e (List.mem_filter.mp he).1
  cache := h.cache

/-- The node of a disguised secret is at the same place. -/
theorem meshBackendFromSecret (h : ρ.Worlds w w') (fold : String → String) (name : String) :
    (w'.meshBackendFromSecret fold name).1 = (w.meshBackendFromSecret fold name).1 ∧
      ρ.Worlds (w.meshBackendFromSecret fold name).2 (w'.meshBackendFromSecret fold name).2 := by
  rw [World.meshBackendFromSecret, World.meshBackendFromSecret, h.lookup]
  by_cases hn : name = ""
  · rw [if_pos hn, if_pos hn]
    exact ⟨rfl, h⟩
  rw [if_neg hn, if_neg hn]
  cases hl : w.lookupTunnelSecret fold name with
  | none => exact ⟨rfl, h⟩
  | some secret =>
    have ho := h.lookup_sepFree hl
    dsimp only [Option.map_some]
    rw [Disguise.options_secret]
    by_cases hk : secret.options.kind = .none
    · rw [if_pos hk, if_pos (show (ρ.options secret.options).kind = .none from hk)]
      exact ⟨rfl, h⟩
    · rw [if_neg hk, if_neg (show (ρ.options secret.options).kind ≠ .none from hk)]
      have he : ρ.Entries (cacheKey name secret.options, secret.options)
          (cacheKey name (ρ.options secret.options), ρ.options secret.options) := ⟨ho, name, rfl, rfl⟩
      obtain ⟨hi, hc⟩ := Intern.forall₂_intern h.cache (fun _ _ h => h.key_iff ho name) he
      exact ⟨congrArg Except.ok hi, h.secrets, h.sepFree, hc⟩

end Worlds

end Renaming

end ErplTunnel.Mesh

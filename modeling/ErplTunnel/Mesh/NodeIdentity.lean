import ErplTunnel.Framework.Assoc
import ErplTunnel.Mesh.Cache

/-!
# Which calls share a node

Two calls of `MeshBackendFromSecret` receive one `MeshBackend` exactly when
they come to one key of the cache (`World.calls_share_iff`): what decides is
what the key says of the secret.

The separator may stand in an option, and in the name, where the text after it
can pass for the kind. So a secret shares its key with another when an option
has the separator in it, or when its name goes on after a separator with the
number of a kind, and with no other otherwise (`cacheKey_unique_iff`). And the
key has the name as the caller wrote it, not the one the secret is stored
under: two spellings of it are two nodes (`one_node_iff`).
-/

namespace ErplTunnel.Mesh

open Intern (Holds Distinct)

/-! ## Calls and the cache -/

namespace World

variable {fold : String → String} {w w' : World} {name : String} {b : Nat}

/-- What a call that returns has done. -/
theorem meshBackendFromSecret_ok (h : w.meshBackendFromSecret fold name = (.ok b, w')) :
    ∃ secret, name ≠ "" ∧ w.lookupTunnelSecret fold name = some secret ∧ secret.options.kind ≠ .none ∧
      Intern.intern (cacheKey name secret.options) secret.options w.cache = (b, w'.cache) ∧
      w'.secrets = w.secrets := by
  rw [meshBackendFromSecret] at h
  split at h
  case isTrue => cases h
  case isFalse hname =>
  split at h
  case h_1 => cases h
  case h_2 secret hs =>
  dsimp only at h
  split at h
  case isTrue => cases h
  case isFalse hk =>
  cases h
  exact ⟨secret, hname, hs, hk, rfl, rfl⟩

/-- A call that finds a mesh secret returns. -/
theorem meshBackendFromSecret_eq {secret : KeyValueSecret} (hn : name ≠ "")
    (hs : w.lookupTunnelSecret fold name = some secret) (hk : secret.options.kind ≠ .none) :
    w.meshBackendFromSecret fold name =
      (.ok (Intern.intern (cacheKey name secret.options) secret.options w.cache).1,
        { w with cache := (Intern.intern (cacheKey name secret.options) secret.options w.cache).2 }) := by
  simp only [meshBackendFromSecret, if_neg hn, hs, if_neg hk]

/-- The cache grows at its end, or stays. -/
theorem exec_cache (fold : String → String) (w : World) (e : WorldEv) :
    w.cache <+: (w.exec fold e).cache ∧ (Distinct w.cache → Distinct (w.exec fold e).cache) := by
  cases e with
  | createSecret | dropSecret => exact ⟨List.prefix_refl _, id⟩
  | call name =>
    simp only [exec, meshBackendFromSecret]
    split
    · exact ⟨List.prefix_refl _, id⟩
    split
    · exact ⟨List.prefix_refl _, id⟩
    split
    · exact ⟨List.prefix_refl _, id⟩
    · exact ⟨Intern.prefix_intern _ _ _, fun hd => hd.intern _ _⟩

theorem execAll_cache (fold : String → String) (es : List WorldEv) (w : World) :
    w.cache <+: (w.execAll fold es).cache ∧ (Distinct w.cache → Distinct (w.execAll fold es).cache) := by
  induction es generalizing w with
  | nil => exact ⟨List.prefix_refl _, id⟩
  | cons e es ih =>
    obtain ⟨hp, hd⟩ := exec_cache fold w e
    obtain ⟨hp', hd'⟩ := ih (w.exec fold e)
    exact ⟨hp.trans hp', hd' ∘ hd⟩

theorem distinct_start (es : List WorldEv) : Distinct (start.execAll fold es).cache :=
  (execAll_cache fold es start).2 List.nodup_nil

/-- Two calls of a run are given one backend exactly when they have one key. -/
theorem calls_share_iff {w₁ w₂ : World} {name₁ name₂ : String} {b₁ b₂ : Nat} {s₁ s₂ : KeyValueSecret}
    {mid : List WorldEv} (hd : Distinct w.cache) (h₁ : w.meshBackendFromSecret fold name₁ = (.ok b₁, w₁))
    (hs₁ : w.lookupTunnelSecret fold name₁ = some s₁)
    (h₂ : (w₁.execAll fold mid).meshBackendFromSecret fold name₂ = (.ok b₂, w₂))
    (hs₂ : (w₁.execAll fold mid).lookupTunnelSecret fold name₂ = some s₂) :
    b₁ = b₂ ↔ cacheKey name₁ s₁.options = cacheKey name₂ s₂.options := by
  obtain ⟨s, -, hs, -, hi₁, -⟩ := meshBackendFromSecret_ok h₁
  obtain rfl : s₁ = s := Option.some.inj (hs₁.symm.trans hs)
  obtain ⟨s, -, hs, -, hi₂, -⟩ := meshBackendFromSecret_ok h₂
  obtain rfl : s₂ = s := Option.some.inj (hs₂.symm.trans hs)
  have hd₁ := hd.intern (cacheKey name₁ s₁.options) s₁.options
  have hh₁ := Intern.holds_intern (cacheKey name₁ s₁.options) s₁.options w.cache
  rw [hi₁] at hd₁ hh₁
  obtain ⟨hp, hdm⟩ := execAll_cache fold mid w₁
  have hd₂ := (hdm hd₁).intern (cacheKey name₂ s₂.options) s₂.options
  have hh₂ := Intern.holds_intern (cacheKey name₂ s₂.options) s₂.options (w₁.execAll fold mid).cache
  have hp₂ := Intern.prefix_intern (cacheKey name₂ s₂.options) s₂.options (w₁.execAll fold mid).cache
  rw [hi₂] at hd₂ hh₂ hp₂
  exact (hh₁.mono (hp.trans hp₂)).place_eq_iff hd₂ hh₂

end World

/-! ## What a key says -/

def unitSep : Char := '\x1f'

/-- The options that are texts, in the order of the key. -/
def MeshOptions.texts (o : MeshOptions) : List (List Char) :=
  [o.authKey.toList, o.setupKey.toList, o.hostname.toList, o.tags.toList, o.groups.toList, o.controlUrl.toList,
    o.mgmtUrl.toList, o.stateDir.toList]

def MeshKind.digit : MeshKind → Char
  | .none => '0'
  | .tailscale => '1'
  | .netBird => '2'

def flag (b : Bool) : List Char := if b then ['1'] else ['0']

/-- The parts of a list, each after a separator. -/
def framed (ls : List (List Char)) : List Char := ls.flatMap (unitSep :: ·)

/-- What the options add to the name in the key. -/
def MeshOptions.keyed (o : MeshOptions) : List Char :=
  unitSep :: o.kind.digit :: framed (o.texts ++ [flag o.ephemeral])

theorem cacheKey_toList (name : String) (o : MeshOptions) : (cacheKey name o).toList = name.toList ++ o.keyed := by
  have hs : "\x1f".toList = [unitSep] := by
    simp only [String.reduceToList]
    rfl
  have hk : (toString o.kind.toInt).toList = [o.kind.digit] := by
    cases o.kind <;> rfl
  have he : (if o.ephemeral then "1" else "0").toList = flag o.ephemeral := by
    cases o.ephemeral <;> rfl
  unfold cacheKey
  simp only [String.toList_append, hs, hk, he, MeshOptions.keyed, MeshOptions.texts, framed, List.flatMap_cons,
    List.flatMap_nil, List.cons_append, List.nil_append, List.append_assoc, List.append_nil]

theorem count_framed (ls : List (List Char)) :
    (framed ls).count unitSep = ls.length + ls.flatten.count unitSep := by
  induction ls with
  | nil => rfl
  | cons l ls ih =>
    rw [framed, List.flatMap_cons, List.cons_append, List.count_cons_self, List.count_append, ← framed, ih,
      List.length_cons, List.flatten_cons, List.count_append]
    omega

/-- Parts without the separator are read back. -/
theorem framed_inj {ls ms : List (List Char)} (hl : ∀ l ∈ ls, unitSep ∉ l) (hm : ∀ m ∈ ms, unitSep ∉ m)
    (h : framed ls = framed ms) : ls = ms := by
  have hcons : ∀ l (ls : List (List Char)), framed (l :: ls) = unitSep :: [unitSep].intercalate (l :: ls) := by
    intro l ls
    induction ls generalizing l with
    | nil => simp [framed]
    | cons k ls ih =>
      rw [framed, List.flatMap_cons, ← framed, ih, List.intercalate_cons_cons]
      simp
  cases ls with
  | nil =>
    cases ms with
    | nil => rfl
    | cons m ms => cases h
  | cons l ls =>
    cases ms with
    | nil => cases h
    | cons m ms =>
      rw [hcons, hcons] at h
      rw [← List.splitOn_intercalate unitSep hl (by simp), ← List.splitOn_intercalate unitSep hm (by simp),
        List.tail_eq_of_cons_eq h]

/-- No option has the separator in it. -/
def MeshOptions.SepFree (o : MeshOptions) : Prop := ∀ l ∈ o.texts, unitSep ∉ l

/-- After a separator that is not its first character, the name has the number
of a kind, up to its end or the next separator. -/
def HoldsKind (name : String) : Prop :=
  ∃ p k r, p ≠ [] ∧ k ≠ MeshKind.none ∧ name.toList = p ++ unitSep :: k.digit :: r ∧
    (r = [] ∨ ∃ r', r = unitSep :: r')

theorem MeshKind.digit_ne (k : MeshKind) : k.digit ≠ unitSep := by
  cases k <;> decide

theorem MeshKind.digit_inj {k k' : MeshKind} (h : k.digit = k'.digit) : k = k' := by
  cases k <;> cases k' <;> first | rfl | exact absurd h (by decide)

theorem unitSep_not_mem_flag (b : Bool) : unitSep ∉ flag b := by
  cases b <;> decide

theorem count_keyed (o : MeshOptions) :
    o.keyed.count unitSep = 10 + o.texts.flatten.count unitSep := by
  have hlen : (o.texts ++ [flag o.ephemeral]).length = 9 := rfl
  have hflag := List.count_eq_zero.mpr (unitSep_not_mem_flag o.ephemeral)
  rw [MeshOptions.keyed, List.count_cons_self, List.count_cons_of_ne o.kind.digit_ne, count_framed, hlen,
    List.flatten_append, List.flatten_singleton, List.count_append, hflag]
  omega

theorem sepFree_iff {o : MeshOptions} : o.SepFree ↔ o.keyed.count unitSep = 10 := by
  rw [count_keyed, MeshOptions.SepFree, Nat.add_eq_left, List.count_eq_zero, List.mem_flatten]
  simp only [not_exists, not_and]

theorem MeshOptions.SepFree.inj {o o' : MeshOptions} (ho : o.SepFree) (h : o.keyed = o'.keyed) : o = o' := by
  have ho' : o'.SepFree := sepFree_iff.mpr (h ▸ sepFree_iff.mp ho)
  have hfree : ∀ q : MeshOptions, q.SepFree → ∀ l ∈ q.texts ++ [flag q.ephemeral], unitSep ∉ l := by
    intro q hq l hl
    rcases List.mem_append.mp hl with hl | hl
    · exact hq l hl
    · rw [List.mem_singleton.mp hl]
      exact unitSep_not_mem_flag _
  simp only [MeshOptions.keyed, List.cons.injEq, true_and] at h
  obtain ⟨hk, hf⟩ := h
  have ht := framed_inj (hfree o ho) (hfree o' ho') hf
  cases o
  cases o'
  simp only [MeshOptions.texts, List.cons_append, List.nil_append, List.cons.injEq, String.toList_inj,
    and_true] at ht
  obtain ⟨rfl, rfl, rfl, rfl, rfl, rfl, rfl, rfl, he⟩ := ht
  obtain rfl := MeshKind.digit_inj hk
  rename_i e e'
  cases e <;> cases e' <;> first | rfl | exact absurd he (by decide)

/-- No other secret has the key of `name` and `o`. -/
theorem cacheKey_unique {name name' : String} {o o' : MeshOptions} (ho : o.SepFree) (hn : ¬ HoldsKind name)
    (hname : name' ≠ "") (hk : o'.kind ≠ .none) (h : cacheKey name o = cacheKey name' o') :
    name = name' ∧ o = o' := by
  have hl : name.toList ++ o.keyed = name'.toList ++ o'.keyed := by
    rw [← cacheKey_toList, ← cacheKey_toList, h]
  have hc := sepFree_iff.mp ho
  have hc' := count_keyed o'
  rcases List.append_eq_append_iff.mp hl with ⟨x, hx, hkey⟩ | ⟨x, hx, hkey⟩
  · -- the other name is longer, and what it has more would be options
    cases x with
    | nil =>
      rw [List.append_nil, String.toList_inj] at hx
      exact ⟨hx.symm, ho.inj hkey⟩
    | cons c x =>
      obtain rfl : unitSep = c := List.head_eq_of_cons_eq hkey
      rw [hkey, List.count_append, List.count_cons_self] at hc
      omega
  · cases x with
    | nil =>
      rw [List.append_nil, String.toList_inj] at hx
      exact ⟨hx, ho.inj hkey.symm⟩
    | cons c x =>
      -- the name is longer, and the kind of the other secret is in it
      exfalso
      obtain rfl : unitSep = c := List.head_eq_of_cons_eq hkey
      replace hkey := List.tail_eq_of_cons_eq hkey
      cases x with
      | nil => exact o'.kind.digit_ne (List.head_eq_of_cons_eq hkey)
      | cons c x =>
        obtain rfl : o'.kind.digit = c := List.head_eq_of_cons_eq hkey
        replace hkey := List.tail_eq_of_cons_eq hkey
        refine hn ⟨name'.toList, o'.kind, x, fun h0 => hname (String.toList_eq_nil_iff.mp h0), hk, hx, ?_⟩
        cases x with
        | nil => exact .inl rfl
        | cons c x =>
          obtain rfl : unitSep = c := List.head_eq_of_cons_eq hkey
          exact .inr ⟨x, rfl⟩

/-- A name that holds a kind is read as another name, with that kind. -/
theorem HoldsKind.collides {name : String} (h : HoldsKind name) (o : MeshOptions) :
    ∃ name' o', name' ≠ "" ∧ o'.kind ≠ .none ∧ cacheKey name' o' = cacheKey name o ∧ name' ≠ name := by
  obtain ⟨p, k, r, hp, hk, hname, hr⟩ := h
  refine ⟨.ofList p,
    { o with
      kind := k
      authKey := .ofList (r ++ [unitSep, o.kind.digit]).tail
      setupKey := o.authKey
      hostname := o.setupKey
      tags := o.hostname
      groups := o.tags
      controlUrl := o.groups
      mgmtUrl := o.controlUrl
      stateDir := .ofList (o.mgmtUrl.toList ++ unitSep :: o.stateDir.toList) }, ?_, hk, ?_, ?_⟩
  · intro h0
    exact hp (by simpa using congrArg String.toList h0)
  · rw [← String.toList_inj, cacheKey_toList, cacheKey_toList, hname]
    have ht : ∀ x, unitSep :: ((r ++ [unitSep, o.kind.digit]).tail ++ x) = r ++ unitSep :: o.kind.digit :: x := by
      rcases hr with rfl | ⟨r', rfl⟩ <;> simp
    simp only [MeshOptions.keyed, MeshOptions.texts, framed, String.toList_ofList, List.cons_append,
      List.nil_append, List.flatMap_cons, List.flatMap_nil, List.append_assoc, List.append_nil, ht]
  · intro he
    rw [← he, String.toList_ofList] at hname
    simpa using congrArg List.length hname

/-- A part with the separator in it can give up what is on one side of it to the
part beside it. -/
theorem framed_shift {ls : List (List Char)} (hl : 2 ≤ ls.length) (h : ¬ ∀ l ∈ ls, unitSep ∉ l) :
    ∃ ms, ms.length = ls.length ∧ framed ms = framed ls ∧ ms ≠ ls := by
  have hlonger : ∀ x y : List Char, x ≠ x ++ unitSep :: y := by
    intro x y he
    simpa using congrArg List.length he
  push Not at h
  obtain ⟨l, hm, hs⟩ := h
  obtain ⟨xs, ys, rfl⟩ := List.append_of_mem hm
  obtain ⟨u, v, rfl⟩ := List.append_of_mem hs
  cases ys with
  | cons w ys =>
    refine ⟨xs ++ u :: (v ++ unitSep :: w) :: ys, by simp, by simp [framed], fun he => ?_⟩
    simp only [List.append_cancel_left_eq, List.cons.injEq] at he
    exact hlonger u v he.1
  | nil =>
    obtain rfl | ⟨xs, w, rfl⟩ := List.eq_nil_or_concat xs
    · simp at hl
    · refine ⟨xs ++ [w ++ unitSep :: u, v], by simp, by simp [framed], fun he => ?_⟩
      simp only [List.concat_eq_append, List.append_assoc, List.append_cancel_left_eq, List.cons_append,
        List.cons.injEq] at he
      exact hlonger w u he.1.symm

/-- Eight texts are the texts of some options. -/
theorem MeshOptions.exists_texts (o : MeshOptions) {ms : List (List Char)} (hl : ms.length = 8) :
    ∃ o' : MeshOptions, o'.kind = o.kind ∧ o'.ephemeral = o.ephemeral ∧ o'.texts = ms := by
  match ms, hl with
  | [a, b, c, d, e, f, g, h], _ =>
    refine ⟨⟨o.kind, .ofList a, .ofList b, .ofList c, .ofList d, .ofList e, .ofList f, .ofList g, .ofList h,
      o.ephemeral⟩, rfl, rfl, ?_⟩
    simp only [texts, String.toList_ofList]

theorem MeshOptions.collides {o : MeshOptions} (h : ¬ o.SepFree) :
    ∃ o' : MeshOptions, o'.kind = o.kind ∧ o'.keyed = o.keyed ∧ o' ≠ o := by
  obtain ⟨ms, hl, hf, hne⟩ := framed_shift (by simp [texts]) h
  obtain ⟨o', hk, he, ht⟩ := o.exists_texts hl
  refine ⟨o', hk, ?_, fun ho => hne (by rw [← ht, ho])⟩
  simp only [framed] at hf
  simp only [keyed, hk, he, ht, framed, List.flatMap_append, hf]

/-- No other secret has the key of a secret exactly when its options are free of
the separator and its name holds no kind. -/
theorem cacheKey_unique_iff {name : String} {o : MeshOptions} (hname : name ≠ "") (hk : o.kind ≠ .none) :
    (∀ name' o', name' ≠ "" → o'.kind ≠ .none → cacheKey name o = cacheKey name' o' → name = name' ∧ o = o') ↔
      o.SepFree ∧ ¬ HoldsKind name := by
  constructor
  · intro h
    constructor
    · by_contra ho
      obtain ⟨o', hk', he, hne⟩ := MeshOptions.collides ho
      refine hne (h name o' hname (hk' ▸ hk) ?_).2.symm
      rw [← String.toList_inj, cacheKey_toList, cacheKey_toList, he]
    · intro hh
      obtain ⟨name', o', hn', hk', he, hne⟩ := hh.collides o
      exact hne (h name' o' hn' hk' he.symm).1.symm
  · rintro ⟨ho, hn⟩ name' o' hn' hk' he
    exact cacheKey_unique ho hn hn' hk' he

/-! ## Over every run -/

/-- In some run a call of `name₁` finds `s₁` and receives `b₁`, and a later one of
`name₂` finds `s₂` and receives `b₂`. -/
def Calls (fold : String → String) (name₁ : String) (s₁ : KeyValueSecret) (b₁ : Nat) (name₂ : String)
    (s₂ : KeyValueSecret) (b₂ : Nat) : Prop :=
  ∃ pre mid w₁ w₂,
    (World.start.execAll fold pre).lookupTunnelSecret fold name₁ = some s₁ ∧
    (World.start.execAll fold pre).meshBackendFromSecret fold name₁ = (.ok b₁, w₁) ∧
    (w₁.execAll fold mid).lookupTunnelSecret fold name₂ = some s₂ ∧
    (w₁.execAll fold mid).meshBackendFromSecret fold name₂ = (.ok b₂, w₂)

variable {fold : String → String} {name₁ name₂ : String} {s₁ s₂ : KeyValueSecret} {b₁ b₂ : Nat}

theorem Calls.share_iff (h : Calls fold name₁ s₁ b₁ name₂ s₂ b₂) :
    b₁ = b₂ ↔ cacheKey name₁ s₁.options = cacheKey name₂ s₂.options := by
  obtain ⟨pre, mid, w₁, w₂, hs₁, h₁, hs₂, h₂⟩ := h
  exact World.calls_share_iff (World.distinct_start pre) h₁ hs₁ h₂ hs₂

theorem Calls.returns (h : Calls fold name₁ s₁ b₁ name₂ s₂ b₂) :
    (name₁ ≠ "" ∧ s₁.options.kind ≠ .none) ∧ name₂ ≠ "" ∧ s₂.options.kind ≠ .none := by
  obtain ⟨pre, mid, w₁, w₂, hs₁, h₁, hs₂, h₂⟩ := h
  obtain ⟨s, hn₁, hl₁, hk₁, -⟩ := World.meshBackendFromSecret_ok h₁
  obtain ⟨t, hn₂, hl₂, hk₂, -⟩ := World.meshBackendFromSecret_ok h₂
  obtain rfl : s₁ = s := Option.some.inj (hs₁.symm.trans hl₁)
  obtain rfl : s₂ = t := Option.some.inj (hs₂.symm.trans hl₂)
  exact ⟨⟨hn₁, hk₁⟩, hn₂, hk₂⟩

/-- A secret that is created is found. -/
theorem World.lookup_created (fold : String → String) (w : World) (name : String) {s : KeyValueSecret}
    (hs : s.isTunnel = true) : (w.exec fold (.createSecret name s)).lookupTunnelSecret fold name = some s := by
  simp [lookupTunnelSecret, exec, hs]

/-- Two secrets, created one after the other, and called. -/
theorem calls_created (fold : String → String) (hn₁ : name₁ ≠ "") (hn₂ : name₂ ≠ "") (ht₁ : s₁.isTunnel = true)
    (ht₂ : s₂.isTunnel = true) (hk₁ : s₁.options.kind ≠ .none) (hk₂ : s₂.options.kind ≠ .none) :
    ∃ b₁ b₂, Calls fold name₁ s₁ b₁ name₂ s₂ b₂ := by
  have hl₁ : (World.start.execAll fold [.createSecret name₁ s₁]).lookupTunnelSecret fold name₁ = some s₁ :=
    World.lookup_created fold World.start name₁ ht₁
  have hr₁ := World.meshBackendFromSecret_eq hn₁ hl₁ hk₁
  have hl₂ := World.lookup_created fold
    ((World.start.execAll fold [.createSecret name₁ s₁]).meshBackendFromSecret fold name₁).2 name₂ ht₂
  rw [hr₁] at hl₂
  exact ⟨_, _, [.createSecret name₁ s₁], [.createSecret name₂ s₂], _, _, hl₁, hr₁, hl₂,
    World.meshBackendFromSecret_eq hn₂ hl₂ hk₂⟩

/-- `CREATE SECRET` with the options `o`. -/
def MeshOptions.secret (o : MeshOptions) : KeyValueSecret where
  type := "tunnel"
  secretMap :=
    [("backend", if o.kind = .tailscale then "tailscale" else "netbird"), ("auth_key", o.authKey),
      ("setup_key", o.setupKey), ("hostname", o.hostname), ("tags", o.tags), ("groups", o.groups),
      ("control_url", o.controlUrl), ("management_url", o.mgmtUrl), ("state_dir", o.stateDir),
      ("ephemeral", if o.ephemeral then "true" else "false")]

theorem parseMeshKind_names : parseMeshKind "tailscale" = .tailscale ∧ parseMeshKind "netbird" = .netBird := by
  decide

theorem MeshOptions.options_secret {o : MeshOptions} (hk : o.kind ≠ .none) : o.secret.options = o := by
  obtain ⟨kind, a, b, c, d, e, f, g, h, eph⟩ := o
  simp only [KeyValueSecret.options, secret, MeshOptions.mk.injEq]
  refine ⟨?_, rfl, rfl, rfl, rfl, rfl, rfl, rfl, rfl, ?_⟩
  · cases kind with
    | none => exact absurd rfl hk
    | tailscale => exact parseMeshKind_names.1
    | netBird => exact parseMeshKind_names.2
  · cases eph <;> rfl

/-- In no run does a call of `name` with the options `o` receive the backend of a
call with another name or other options. -/
def NeverMixed (fold : String → String) (name : String) (o : MeshOptions) : Prop :=
  ∀ s name' s' b b', s.options = o →
    Calls fold name s b name' s' b' ∨ Calls fold name' s' b' name s b → b = b' →
    name = name' ∧ o = s'.options

theorem never_mixed_iff (fold : String → String) (name : String) (o : MeshOptions) (hname : name ≠ "")
    (hk : o.kind ≠ .none) : NeverMixed fold name o ↔ o.SepFree ∧ ¬ HoldsKind name := by
  rw [← cacheKey_unique_iff hname hk]
  constructor
  · intro h name' o' hn' hk' he
    have hcalls : ∃ b b', Calls fold name o.secret b name' o'.secret b' :=
      calls_created fold hname hn' rfl rfl (by rwa [o.options_secret hk]) (by rwa [o'.options_secret hk'])
    obtain ⟨b, b', hc⟩ := hcalls
    have hb : b = b' := hc.share_iff.mpr (by rwa [o.options_secret hk, o'.options_secret hk'])
    have hm := h o.secret name' o'.secret b b' (o.options_secret hk) (.inl hc) hb
    rwa [o'.options_secret hk'] at hm
  · rintro h s name' s' b b' rfl (hc | hc) hb
    · exact h name' s'.options hc.returns.2.1 hc.returns.2.2 (hc.share_iff.mp hb)
    · exact h name' s'.options hc.returns.1.1 hc.returns.1.2 (hc.share_iff.mp hb.symm).symm

/-- The options of a tailnet node. -/
def tailnetNode (authKey setupKey : String) : MeshOptions :=
  ⟨.tailscale, authKey, setupKey, "db", "", "", "", "", "", false⟩

theorem never_mixed_tailnet : NeverMixed lower "ts" (tailnetNode "tskey" "") := by
  refine (never_mixed_iff lower "ts" (tailnetNode "tskey" "") (by decide) (by decide)).mpr ⟨?_, ?_⟩
  · simp only [MeshOptions.SepFree, MeshOptions.texts, tailnetNode, String.reduceToList]
    decide
  · rintro ⟨p, k, r, hp, -, he, -⟩
    have hm : unitSep ∈ "ts".toList := by rw [he]; simp
    simp only [String.reduceToList] at hm
    exact absurd hm (by decide)

/-- Two credentials, with the separator in one and then in the other. -/
theorem credentials_mixed : ¬ ∀ fold name o, name ≠ "" → o.kind ≠ .none → NeverMixed fold name o := by
  intro h
  have hcalls : ∃ b b', Calls lower "ts" (tailnetNode "a\x1fb" "c").secret b "ts"
      (tailnetNode "a" "b\x1fc").secret b' :=
    calls_created lower (by decide) (by decide) rfl rfl (by decide) (by decide)
  obtain ⟨b, b', hc⟩ := hcalls
  have hb : b = b' := hc.share_iff.mpr (by decide)
  have hm := h lower "ts" (tailnetNode "a\x1fb" "c") (by decide) (by decide) _ _ _ b b'
    (MeshOptions.options_secret (by decide)) (.inl hc) hb
  exact absurd hm (by decide)

/-! ## The spelling of a name -/

/-- `e` changes what is stored for `name`. -/
def WorldEv.Modifies (fold : String → String) (name : String) : WorldEv → Prop
  | .createSecret n _ | .dropSecret n => fold n = fold name
  | .call _ => False

theorem World.lookup_exec {e : WorldEv} {name : String} (h : ¬ e.Modifies fold name) (w : World) :
    (w.exec fold e).lookupTunnelSecret fold name = w.lookupTunnelSecret fold name := by
  cases e with
  | createSecret n s =>
    have hk : (fold name == fold n) = false := by rw [beq_eq_false_iff_ne]; exact Ne.symm h
    simp only [lookupTunnelSecret, exec, List.lookup_cons, hk, Assoc.lookup_filter_ne h]
  | dropSecret n => simp only [lookupTunnelSecret, exec, Assoc.lookup_filter_ne h]
  | call n =>
    have hs : (w.exec fold (.call n)).secrets = w.secrets := by
      simp only [exec, meshBackendFromSecret]
      split
      · rfl
      split
      · rfl
      split <;> rfl
    rw [lookupTunnelSecret, lookupTunnelSecret, hs]

theorem World.lookup_execAll {es : List WorldEv} {name : String} (h : ∀ e ∈ es, ¬ e.Modifies fold name)
    (w : World) : (w.execAll fold es).lookupTunnelSecret fold name = w.lookupTunnelSecret fold name := by
  induction es generalizing w with
  | nil => rfl
  | cons e es ih =>
    obtain ⟨he, hes⟩ := List.forall_mem_cons.mp h
    exact (ih hes _).trans (World.lookup_exec he w)

/-- One secret and one spelling, or another. -/
theorem cacheKey_spelling (o : MeshOptions) : cacheKey name₁ o = cacheKey name₂ o ↔ name₁ = name₂ := by
  rw [← String.toList_inj, cacheKey_toList, cacheKey_toList, List.append_left_inj, String.toList_inj]

/-- Two calls that find the same stored secret, not modified in between, are both
given a node, and it is one node exactly when they spell the name alike. -/
theorem one_node_iff (fold : String → String) (pre mid : List WorldEv) (name₁ name₂ : String)
    (secret : KeyValueSecret) (hn₁ : name₁ ≠ "") (hn₂ : name₂ ≠ "") (hname : fold name₁ = fold name₂)
    (hs : (World.start.execAll fold pre).lookupTunnelSecret fold name₁ = some secret)
    (hk : secret.options.kind ≠ .none) (hmid : ∀ e ∈ mid, ¬ e.Modifies fold name₁) :
    ∃ b₁ b₂ w₁ w₂, (World.start.execAll fold pre).meshBackendFromSecret fold name₁ = (.ok b₁, w₁) ∧
      (w₁.execAll fold mid).meshBackendFromSecret fold name₂ = (.ok b₂, w₂) ∧ (b₁ = b₂ ↔ name₁ = name₂) := by
  obtain ⟨b₁, w₁, h₁⟩ : ∃ b₁ w₁, (World.start.execAll fold pre).meshBackendFromSecret fold name₁ = (.ok b₁, w₁) :=
    ⟨_, _, World.meshBackendFromSecret_eq hn₁ hs hk⟩
  obtain ⟨-, -, -, -, -, hsecrets⟩ := World.meshBackendFromSecret_ok h₁
  -- the second call finds what the first one found
  have hs₂ : (w₁.execAll fold mid).lookupTunnelSecret fold name₂ = some secret := by
    rw [World.lookupTunnelSecret, ← hname, ← World.lookupTunnelSecret, World.lookup_execAll hmid,
      World.lookupTunnelSecret, hsecrets, ← World.lookupTunnelSecret, hs]
  have h₂ := World.meshBackendFromSecret_eq hn₂ hs₂ hk
  exact ⟨b₁, _, w₁, _, h₁, h₂,
    (World.calls_share_iff (World.distinct_start pre) h₁ hs h₂ hs₂).trans (cacheKey_spelling _)⟩

/-- A secret, and another one that is replaced between two calls of the first. -/
theorem one_node_tailnet :
    ∃ b₁ b₂ w₁ w₂,
      (World.start.execAll lower [.createSecret "ts" (tailnetNode "tskey" "").secret]).meshBackendFromSecret
        lower "ts" = (.ok b₁, w₁) ∧
      (w₁.execAll lower [.createSecret "nb" (tailnetNode "k" "").secret, .call "nb"]).meshBackendFromSecret
        lower "ts" = (.ok b₂, w₂) ∧ b₁ = b₂ := by
  obtain ⟨b₁, b₂, w₁, w₂, h₁, h₂, hb⟩ := one_node_iff lower [.createSecret "ts" (tailnetNode "tskey" "").secret]
    [.createSecret "nb" (tailnetNode "k" "").secret, .call "nb"] "ts" "ts" (tailnetNode "tskey" "").secret
    (by decide) (by decide) rfl (World.lookup_created lower World.start "ts" rfl) (by decide)
    (by simp [WorldEv.Modifies]; decide)
  exact ⟨b₁, b₂, w₁, w₂, h₁, h₂, hb.mpr rfl⟩

/-- `ts` and `TS` name one secret, and are two nodes. -/
theorem two_spellings_two_nodes :
    ¬ ∀ fold pre mid name₁ name₂ secret b₁ b₂ w₁ w₂, fold name₁ = fold name₂ →
      (World.start.execAll fold pre).lookupTunnelSecret fold name₁ = some secret →
      (∀ e ∈ mid, ¬ e.Modifies fold name₁) →
      (World.start.execAll fold pre).meshBackendFromSecret fold name₁ = (.ok b₁, w₁) →
      (w₁.execAll fold mid).meshBackendFromSecret fold name₂ = (.ok b₂, w₂) → b₁ = b₂ := by
  intro h
  have hb : 0 = 1 := h lower [.createSecret "ts" (tailnetNode "tskey" "").secret] [] "ts" "TS"
    (tailnetNode "tskey" "").secret 0 1 _ _ (by decide) (World.lookup_created lower World.start "ts" rfl)
    (by simp) rfl rfl
  cases hb

end ErplTunnel.Mesh

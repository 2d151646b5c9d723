import Mathlib.Data.List.Nodup
import Mathlib.Data.List.Induction
import ErplTunnel.Mesh.Loader

/-!
# The single-mesh latch

What one call of `Activate` does (`run_cases`), and what a sequence of calls
does to the process:

* `one_runtime_iff`: how many shim libraries get mapped. The latch is set
  only after the symbols and the kind were checked, so a library that is
  mapped and then refused does not keep another one out;
* `single_mesh_latch`: the four fields of the loader move together, once.
-/

namespace ErplTunnel.Mesh

/-! ## What one call does -/

/-- The symbols `Activate` resolves. -/
def symbols : List String :=
  ["mesh_kind", "mesh_new", "mesh_set_str", "mesh_set_bool", "mesh_up", "mesh_dial", "mesh_export",
    "mesh_unexport", "mesh_peers_json", "mesh_self_json", "mesh_errmsg", "mesh_close"]

/-- Every symbol is there. -/
def Outcome.resolves (o : Outcome) : Bool := symbols.all fun n => (o.symbol n).isSome

theorem resolveApi_run (o : Outcome) :
    ∃ r : Except TunnelError MeshApi, r.isOk = o.resolves ∧ ∀ p, (resolveApi o).exec p = (r, p) := by
  simp only [Outcome.resolves, symbols, List.all_cons, List.all_nil, resolveApi, resolveSymbol]
  rcases o.symbol "mesh_kind" with _ | _ <;> [exact ⟨.error _, rfl, fun _ => rfl⟩; skip]
  rcases o.symbol "mesh_new" with _ | _ <;> [exact ⟨.error _, rfl, fun _ => rfl⟩; skip]
  rcases o.symbol "mesh_set_str" with _ | _ <;> [exact ⟨.error _, rfl, fun _ => rfl⟩; skip]
  rcases o.symbol "mesh_set_bool" with _ | _ <;> [exact ⟨.error _, rfl, fun _ => rfl⟩; skip]
  rcases o.symbol "mesh_up" with _ | _ <;> [exact ⟨.error _, rfl, fun _ => rfl⟩; skip]
  rcases o.symbol "mesh_dial" with _ | _ <;> [exact ⟨.error _, rfl, fun _ => rfl⟩; skip]
  rcases o.symbol "mesh_export" with _ | _ <;> [exact ⟨.error _, rfl, fun _ => rfl⟩; skip]
  rcases o.symbol "mesh_unexport" with _ | _ <;> [exact ⟨.error _, rfl, fun _ => rfl⟩; skip]
  rcases o.symbol "mesh_peers_json" with _ | _ <;> [exact ⟨.error _, rfl, fun _ => rfl⟩; skip]
  rcases o.symbol "mesh_self_json" with _ | _ <;> [exact ⟨.error _, rfl, fun _ => rfl⟩; skip]
  rcases o.symbol "mesh_errmsg" with _ | _ <;> [exact ⟨.error _, rfl, fun _ => rfl⟩; skip]
  rcases o.symbol "mesh_close" with _ | _
  · exact ⟨.error _, rfl, fun _ => rfl⟩
  · exact ⟨.ok _, rfl, fun _ => rfl⟩

/-- The blob is there, is extracted, and the library loads. -/
def Outcome.loads (o : Outcome) : Bool := o.blobLen ≠ 0 && o.extractError.isNone && o.loadError.isNone

/-- The call gets its library mapped, unless a mesh is latched. -/
def Activation.loadable (b : Build) (a : Activation) : Bool := isCompiledIn b a.kind && a.outcome.loads

/-- `MeshKind::None` is compiled into no build. -/
theorem kind_ne_none {b : Build} {a : Activation} (h : a.loadable b = true) : a.kind ≠ .none := by
  intro e
  simp [Activation.loadable, e, isCompiledIn] at h

/-- The library passes the checks made after it is mapped. -/
def Activation.passes (a : Activation) : Bool := a.outcome.resolves && a.outcome.reported = a.kind.toInt

/-- The file the call extracts its shim to. -/
def shimFile (b : Build) (kind : MeshKind) (p : Process) : ShimFile :=
  match b.platform with
  | .unix => .temp p.temps
  | .windows => .cached kind

/-- The number of temporary files after an extraction. -/
def tempsAfter (b : Build) (p : Process) : Nat :=
  match b.platform with
  | .unix => p.temps + 1
  | .windows => p.temps

theorem extractShim_ok {b : Build} {o : Outcome} (h : o.extractError = none) (kind : MeshKind) (p : Process) :
    ∃ fs, (extractShim b o kind).exec p =
      (.ok (shimFile b kind p), { p with files := fs, temps := tempsAfter b p }) := by
  simp only [extractShim, h, shimFile, tempsAfter]
  cases b.platform <;> exact ⟨_, rfl⟩

theorem loadShim_ok {b : Build} {o : Outcome} (h : o.loadError = none) (path : ShimFile) (kind : MeshKind)
    (p : Process) :
    (loadShim b o path kind).exec p = (.ok path, { p with mapped := p.mapped.insert path }) := by
  simp only [loadShim, h]
  rfl

theorem loadShim_error {b : Build} {o : Outcome} {err : String} (h : o.loadError = some err) (path : ShimFile)
    (kind : MeshKind) (p : Process) :
    ∃ e fs, (loadShim b o path kind).exec p = (.error e, { p with files := fs }) := by
  simp only [loadShim, h]
  cases b.platform <;> exact ⟨_, _, rfl⟩

theorem afterLoad_ok (b : Build) (path : ShimFile) (p : Process) :
    ∃ fs, (afterLoad b path).exec p = (.ok ⟨⟩, { p with files := fs }) := by
  simp only [afterLoad]
  cases b.platform <;> exact ⟨_, rfl⟩

/-- A call returns the latched table; or throws and maps nothing; or, with no
mesh latched, maps its library and then throws at a check, or latches. -/
theorem run_cases (b : Build) (a : Activation) (p : Process) :
    (p.loader.activeKind = a.kind ∧ a.kind ≠ .none ∧ a.run b p = (.ok p.loader.api, p)) ∨
    (∃ e p', a.run b p = (.error e, p') ∧ p'.loader = p.loader ∧ p'.mapped = p.mapped ∧
      p.temps ≤ p'.temps ∧ (p.loader.activeKind = .none → a.loadable b = false)) ∨
    (p.loader.activeKind = .none ∧ a.loadable b = true ∧ a.passes = false ∧
      ∃ e p', a.run b p = (.error e, p') ∧ p'.loader = p.loader ∧
        p'.mapped = p.mapped.insert (shimFile b a.kind p) ∧ p'.temps = tempsAfter b p) ∨
    (p.loader.activeKind = .none ∧ a.loadable b = true ∧ a.passes = true ∧
      ∃ api p', a.run b p = (.ok api, p') ∧
        p'.loader = ⟨a.kind, api, some (shimFile b a.kind p), some (shimFile b a.kind p)⟩ ∧
        p'.mapped = p.mapped.insert (shimFile b a.kind p) ∧ p'.temps = tempsAfter b p) := by
  have hrun : a.run b p = (activate b a.outcome a.kind).exec p := rfl
  rw [hrun]
  simp only [activate]
  cases hc : isCompiledIn b a.kind with
  | false =>
    exact .inr (.inl ⟨_, p, rfl, rfl, rfl, Nat.le_refl _, fun _ => by simp [Activation.loadable, hc]⟩)
  | true =>
  simp only [Bool.not_true, Bool.false_eq_true, ↓reduceIte, Throws.exec_bind, Throws.exec_get]
  by_cases ha : p.loader.activeKind = .none
  · simp only [ha, ne_eq, not_true, ↓reduceIte]
    -- every throw before the library is mapped
    have refused : ∀ {e p'} {r : Except TunnelError MeshApi × Process}, r = (.error e, p') →
        p'.loader = p.loader → p'.mapped = p.mapped → p.temps ≤ p'.temps → a.outcome.loads = false →
        ∃ e p', r = (.error e, p') ∧ p'.loader = p.loader ∧ p'.mapped = p.mapped ∧ p.temps ≤ p'.temps ∧
          (True → a.loadable b = false) :=
      fun hr hl hm ht ho => ⟨_, _, hr, hl, hm, ht, fun _ => by simp [Activation.loadable, ho]⟩
    by_cases h0 : a.outcome.blobLen = 0
    · simp only [h0, ↓reduceIte]
      exact .inr (.inl (refused rfl rfl rfl (Nat.le_refl _) (by simp [Outcome.loads, h0])))
    simp only [h0, ↓reduceIte, Throws.exec_bind]
    cases hx : a.outcome.extractError with
    | some msg =>
      exact .inr (.inl (refused (by simp only [extractShim, hx]; rfl) rfl rfl (Nat.le_refl _)
        (by simp [Outcome.loads, hx])))
    | none =>
    obtain ⟨fs, hex⟩ := extractShim_ok (b := b) hx a.kind p
    have ht : p.temps ≤ tempsAfter b p := by
      simp only [tempsAfter]; cases b.platform <;> simp
    simp only [hex]
    cases hl : a.outcome.loadError with
    | some err =>
      obtain ⟨e, fs', hld⟩ := loadShim_error (b := b) hl (shimFile b a.kind p) a.kind
        { p with files := fs, temps := tempsAfter b p }
      simp only [hld]
      exact .inr (.inl (refused rfl rfl rfl ht (by simp [Outcome.loads, hl])))
    | none =>
    have hloads : a.loadable b = true := by simp [Activation.loadable, Outcome.loads, hc, h0, hx, hl]
    simp only [loadShim_ok hl]
    obtain ⟨r, hok, hres⟩ := resolveApi_run a.outcome
    simp only [hres]
    cases r with
    | error e =>
      refine .inr (.inr (.inl ⟨trivial, hloads, ?_, e, _, rfl, rfl, rfl, rfl⟩))
      simp only [Activation.passes, ← hok]; rfl
    | ok api =>
    by_cases hk : a.outcome.reported = a.kind.toInt
    · obtain ⟨fs', hal⟩ := afterLoad_ok b (shimFile b a.kind p)
        { loader := ⟨a.kind, api, some (shimFile b a.kind p), some (shimFile b a.kind p)⟩
          mapped := p.mapped.insert (shimFile b a.kind p), files := fs, temps := tempsAfter b p }
      simp only [hk, not_true, ↓reduceIte, Throws.exec_bind, Throws.exec_modify, hal, Throws.exec_pure]
      exact .inr (.inr (.inr ⟨trivial, hloads, by simp only [Activation.passes, ← hok, hk]; rfl,
        api, _, rfl, rfl, rfl, rfl⟩))
    · simp only [hk, not_false_eq_true, ↓reduceIte, Throws.exec_bind, Throws.exec_throw]
      exact .inr (.inr (.inl ⟨trivial, hloads, by simp [Activation.passes, hk], _, _, rfl, rfl, rfl, rfl⟩))
  · simp only [ha, ne_eq, not_false_eq_true, ↓reduceIte]
    by_cases hk : p.loader.activeKind = a.kind
    · exact .inl ⟨hk, fun e => ha (hk.trans e), by simp only [hk, ↓reduceIte, Throws.exec_pure]⟩
    · exact .inr (.inl ⟨_, p, by simp only [hk, ↓reduceIte]; rfl, rfl, rfl, Nat.le_refl _,
        fun h => h.elim⟩)

/-- Once a mesh is latched, no call changes the loader or maps a library. -/
theorem run_latched {b : Build} {p : Process} (h : p.loader.activeKind ≠ .none) (a : Activation) :
    (a.run b p).2.loader = p.loader ∧ (a.run b p).2.mapped = p.mapped := by
  obtain ⟨-, -, hr⟩ | ⟨e, p', hr, hl, hm, -, -⟩ | ⟨h0, -⟩ | ⟨h0, -⟩ := run_cases b a p
  · rw [hr]; exact ⟨rfl, rfl⟩
  · rw [hr]; exact ⟨hl, hm⟩
  · exact absurd h0 h
  · exact absurd h0 h

/-- A call that returns leaves its kind latched. -/
theorem run_ok {b : Build} {p : Process} {a : Activation} {api : MeshApi} (h : (a.run b p).1 = .ok api) :
    (a.run b p).2.loader.activeKind = a.kind ∧ a.kind ≠ .none := by
  obtain ⟨hk, hne, hr⟩ | ⟨e, p', hr, -⟩ | ⟨-, -, -, e, p', hr, -⟩ | ⟨-, hld, -, api', p', hr, hl, -⟩ :=
    run_cases b a p
  · rw [hr]
    exact ⟨hk, hne⟩
  · rw [hr] at h
    cases h
  · rw [hr] at h
    cases h
  · rw [hr, hl]
    exact ⟨rfl, kind_ne_none hld⟩

theorem activations_latched {b : Build} (as : List Activation) {p : Process}
    (h : p.loader.activeKind ≠ .none) :
    (activations b p as).loader = p.loader ∧ (activations b p as).mapped = p.mapped := by
  induction as generalizing p with
  | nil => exact ⟨rfl, rfl⟩
  | cons a as ih =>
    obtain ⟨hl, hm⟩ := run_latched (b := b) h a
    obtain ⟨hl', hm'⟩ := ih (p := (a.run b p).2) (by rwa [hl])
    exact ⟨hl'.trans hl, hm'.trans hm⟩

/-! ## How many libraries are mapped -/

/-- The calls that get their library mapped: those that load, up to the first
whose library passes the checks, after which the latch is set. -/
def attempts (b : Build) : List Activation → List Activation
  | [] => []
  | a :: as => if a.loadable b then (if a.passes then [a] else a :: attempts b as) else attempts b as

/-- One of the calls of `attempts` maps its library, and the rest follow. -/
theorem activations_cons {b : Build} {p : Process} (h0 : p.loader.activeKind = .none) (a : Activation)
    (as : List Activation) :
    (attempts b (a :: as) = attempts b as ∧ (a.run b p).2.loader = p.loader ∧
      (a.run b p).2.mapped = p.mapped ∧ p.temps ≤ (a.run b p).2.temps) ∨
    (attempts b (a :: as) = a :: attempts b as ∧ (a.run b p).2.loader = p.loader ∧
      (a.run b p).2.mapped = p.mapped.insert (shimFile b a.kind p) ∧
      (a.run b p).2.temps = tempsAfter b p) ∨
    (attempts b (a :: as) = [a] ∧ (a.run b p).2.loader.activeKind ≠ .none ∧
      (a.run b p).2.mapped = p.mapped.insert (shimFile b a.kind p)) := by
  obtain ⟨hk, hne, -⟩ | ⟨e, p', hr, hl, hm, ht, hld⟩ | ⟨-, hld, hps, e, p', hr, hl, hm, ht⟩ |
    ⟨-, hld, hps, api, p', hr, hl, hm, -⟩ := run_cases b a p
  · exact absurd (hk.symm.trans h0) hne
  · exact .inl ⟨by simp [attempts, hld h0], by rw [hr]; exact ⟨hl, hm, ht⟩⟩
  · exact .inr (.inl ⟨by simp [attempts, hld, hps], by rw [hr]; exact ⟨hl, hm, ht⟩⟩)
  · refine .inr (.inr ⟨by simp [attempts, hld, hps], ?_⟩)
    rw [hr]
    exact ⟨hl ▸ kind_ne_none hld, hm⟩

/-- On Unix every extraction is a new file, so every load is a new library. -/
theorem length_mapped_unix {b : Build} (hb : b.platform = .unix) (as : List Activation) {p : Process}
    (h0 : p.loader.activeKind = .none) (ht : ∀ n, .temp n ∈ p.mapped → n < p.temps) :
    (activations b p as).mapped.length = p.mapped.length + (attempts b as).length := by
  induction as generalizing p with
  | nil => rfl
  | cons a as ih =>
    have hf : shimFile b a.kind p = .temp p.temps := by simp only [shimFile, hb]
    have hnew : shimFile b a.kind p ∉ p.mapped := fun h => Nat.lt_irrefl _ (ht _ (hf ▸ h))
    show (activations b (a.run b p).2 as).mapped.length = _
    obtain ⟨hat, hl, hm, hle⟩ | ⟨hat, hl, hm, hts⟩ | ⟨hat, hl, hm⟩ := activations_cons (b := b) h0 a as
    · rw [hat, ih (hl ▸ h0) (fun n hn => Nat.lt_of_lt_of_le (ht n (hm ▸ hn)) hle), hm]
    · rw [hat, ih (hl ▸ h0) ?_, hm, List.length_insert_of_not_mem hnew, List.length_cons]
      · omega
      · intro n hn
        simp only [tempsAfter, hb] at hts
        rw [hm, List.mem_insert_iff, hf] at hn
        rcases hn with hn | hn
        · cases hn; omega
        · have := ht n hn; omega
    · rw [hat, (activations_latched as hl).2, hm, List.length_insert_of_not_mem hnew, List.length_singleton]

/-- On Windows a shim has one cache entry, and loading it again gives the
library that is mapped already. -/
theorem mem_mapped_windows {b : Build} (hb : b.platform = .windows) (as : List Activation) {p : Process}
    (h0 : p.loader.activeKind = .none) (hn : p.mapped.Nodup) :
    (activations b p as).mapped.Nodup ∧ ∀ f, f ∈ (activations b p as).mapped ↔
      f ∈ p.mapped ∨ ∃ a ∈ attempts b as, f = .cached a.kind := by
  induction as generalizing p with
  | nil => exact ⟨hn, fun f => by simp [attempts, activations]⟩
  | cons a as ih =>
    have hf : shimFile b a.kind p = .cached a.kind := by simp only [shimFile, hb]
    show (activations b (a.run b p).2 as).mapped.Nodup ∧ ∀ f, f ∈ (activations b (a.run b p).2 as).mapped ↔ _
    obtain ⟨hat, hl, hm, -⟩ | ⟨hat, hl, hm, -⟩ | ⟨hat, hl, hm⟩ := activations_cons (b := b) h0 a as
    · rw [hat, ← hm]
      exact ih (hl ▸ h0) (hm ▸ hn)
    · obtain ⟨hn', hmem⟩ := ih (p := (a.run b p).2) (hl ▸ h0) (by rw [hm]; exact hn.insert)
      refine ⟨hn', fun f => ?_⟩
      rw [hmem, hm, hat, List.mem_insert_iff, hf]
      simp only [List.mem_cons, exists_eq_or_imp]
      tauto
    · rw [(activations_latched as hl).2, hm, hat]
      refine ⟨hn.insert, fun f => ?_⟩
      rw [List.mem_insert_iff, hf]
      simp only [List.mem_singleton, exists_eq_left]
      tauto

/-- The calls of `attempts` load one library between them. -/
def OneLibrary (b : Build) (as : List Activation) : Prop :=
  match b.platform with
  | .unix => as.length ≤ 1
  | .windows => ∀ a ∈ as, ∀ a' ∈ as, a.kind = a'.kind

/-- At most one shim is ever mapped exactly when the calls that load before
the latch is set load one library between them: on Unix, when no call whose
shim loads and then fails a symbol or the kind check is followed by another
that loads. -/
theorem one_runtime_iff (b : Build) (as : List Activation) :
    (activations b .init as).mapped.length ≤ 1 ↔ OneLibrary b (attempts b as) := by
  unfold OneLibrary
  split
  · rename_i hb
    rw [length_mapped_unix hb as rfl (fun n hn => by cases hn)]
    simp [Process.init]
  · rename_i hb
    obtain ⟨hn, hm⟩ := mem_mapped_windows hb as (p := .init) rfl List.nodup_nil
    constructor
    · intro hle a ha a' ha'
      have h1 := (hm (.cached a.kind)).mpr (.inr ⟨a, ha, rfl⟩)
      have h2 := (hm (.cached a'.kind)).mpr (.inr ⟨a', ha', rfl⟩)
      match (activations b .init as).mapped, hle, h1, h2 with
      | [f], _, h1, h2 =>
        rw [List.mem_singleton] at h1 h2
        exact ShimFile.cached.inj (h1.trans h2.symm)
    · intro hall
      match hl : (activations b .init as).mapped with
      | [] => simp
      | [f] => simp
      | f :: g :: fs =>
        rw [hl] at hm hn
        have hf := (hm f).mp (by simp)
        have hg := (hm g).mp (by simp)
        simp only [Process.init, List.not_mem_nil, false_or] at hf hg
        obtain ⟨a, ha, rfl⟩ := hf
        obtain ⟨a', ha', rfl⟩ := hg
        rw [hall a ha a' ha'] at hn
        simp at hn

/-- A shim that loads and passes the checks for `kind`. -/
def goodShim (kind : MeshKind) : Outcome := ⟨1, none, none, fun _ => some 1, kind.toInt⟩

/-- A shim that was built before `mesh_unexport` was added. -/
def oldShim (kind : MeshKind) : Outcome :=
  { goodShim kind with symbol := fun n => if n = "mesh_unexport" then none else some 1 }

/-- Tailscale's shim is mapped and then refused, so the latch is not set and
NetBird's shim is mapped beside it. -/
theorem two_runtimes : ¬ ∀ b as, (activations b .init as).mapped.length ≤ 1 := by
  intro h
  have := h ⟨.unix, true, true⟩ [⟨.tailscale, oldShim .tailscale⟩, ⟨.netBird, goodShim .netBird⟩]
  revert this
  decide

/-! ## The latch over a run -/

/-- The process after the calls `as`. -/
abbrev after (b : Build) (as : List Activation) : Process := activations b .init as

theorem after_append (b : Build) (as bs : List Activation) :
    after b (as ++ bs) = activations b (after b as) bs := by
  simp [activations, List.foldl_append]

/-- The call that set the latch. -/
theorem latched_by (b : Build) (xs : List Activation) (h : (after b xs).loader.activeKind ≠ .none) :
    ∃ xs' a ys, xs = xs' ++ a :: ys ∧ (after b xs').loader.activeKind = .none ∧
      a.kind = (after b xs).loader.activeKind ∧
      (a.run b (after b xs')).1 = .ok (after b xs).loader.api ∧ a.outcome.reported = a.kind.toInt := by
  induction xs using List.reverseRecOn with
  | nil => exact absurd rfl h
  | append_singleton xs x ih =>
    have hstep : after b (xs ++ [x]) = (x.run b (after b xs)).2 := after_append b xs [x]
    rw [hstep] at h ⊢
    by_cases h0 : (after b xs).loader.activeKind = .none
    · obtain ⟨hk, hne, -⟩ | ⟨e, p', hr, hl, -⟩ | ⟨-, -, -, e, p', hr, hl, -⟩ |
        ⟨-, -, hps, api, p', hr, hl, -⟩ := run_cases b x (after b xs)
      · exact absurd (hk.symm.trans h0) hne
      · rw [hr, hl] at h; exact absurd h0 h
      · rw [hr, hl] at h; exact absurd h0 h
      · refine ⟨xs, x, [], rfl, h0, ?_⟩
        simp only [Activation.passes, Bool.and_eq_true, decide_eq_true_eq] at hps
        rw [hr, hl]
        exact ⟨rfl, rfl, hps.2⟩
    · obtain ⟨xs', a, ys, rfl, hrest⟩ := ih h0
      rw [(run_latched h0 x).1]
      exact ⟨xs', a, ys ++ [x], by simp, hrest⟩

/-- The single-mesh latch. Over every sequence of calls: the active kind,
once set, stays; every call that succeeds was for the kind that is active at
the end and returned the table the loader holds at the end, which the call
that set the latch got from a shim that reported that kind; a call for
another kind than the active one throws; and a call that throws leaves the
loader's fields as they were. -/
theorem single_mesh_latch (b : Build) (as : List Activation) :
    (∀ xs ys, as = xs ++ ys → (after b xs).loader.activeKind ≠ .none →
      (after b as).loader.activeKind = (after b xs).loader.activeKind) ∧
    (∀ xs a ys api, as = xs ++ a :: ys → (a.run b (after b xs)).1 = .ok api →
      (after b as).loader.activeKind = a.kind ∧ (after b as).loader.api = api ∧
      ∃ xs' a' ys', as = xs' ++ a' :: ys' ∧ xs'.length ≤ xs.length ∧ a'.kind = a.kind ∧
        (after b xs').loader.activeKind = .none ∧ (a'.run b (after b xs')).1 = .ok api ∧
        a'.outcome.reported = a.kind.toInt) ∧
    (∀ xs a ys, as = xs ++ a :: ys → (after b xs).loader.activeKind ≠ .none →
      a.kind ≠ (after b xs).loader.activeKind → ∃ e, (a.run b (after b xs)).1 = .error e) ∧
    (∀ xs a ys e, as = xs ++ a :: ys → (a.run b (after b xs)).1 = .error e →
      (a.run b (after b xs)).2.loader = (after b xs).loader) := by
  refine ⟨?_, ?_, ?_, ?_⟩
  · rintro xs ys rfl h
    rw [after_append, (activations_latched ys h).1]
  · rintro xs a ys api rfl hok
    -- whatever the call did, its kind and table are in the loader after it, to stay
    have hset : (a.run b (after b xs)).2.loader.activeKind = a.kind ∧ a.kind ≠ .none ∧
        (a.run b (after b xs)).2.loader.api = api := by
      obtain ⟨hk, hne, hr⟩ | ⟨e, p', hr, -⟩ | ⟨-, -, -, e, p', hr, -⟩ |
        ⟨-, hld, -, api', p', hr, hl, -⟩ := run_cases b a (after b xs) <;> rw [hr] at hok ⊢ <;> cases hok
      · exact ⟨hk, hne, rfl⟩
      · rw [hl]; exact ⟨rfl, kind_ne_none hld, rfl⟩
    have hone : after b (xs ++ [a]) = (a.run b (after b xs)).2 := after_append b xs [a]
    have hend : (after b (xs ++ a :: ys)).loader = (after b (xs ++ [a])).loader := by
      rw [show xs ++ a :: ys = (xs ++ [a]) ++ ys by simp, after_append b (xs ++ [a])]
      exact (activations_latched ys (by rw [hone, hset.1]; exact hset.2.1)).1
    obtain ⟨xs', a', ys', hsplit, h0, hk', hok', hrep⟩ :=
      latched_by b (xs ++ [a]) (by rw [hone, hset.1]; exact hset.2.1)
    rw [hone, hset.1] at hk'
    rw [hone, hset.2.2] at hok'
    refine ⟨by rw [hend, hone]; exact hset.1, by rw [hend, hone]; exact hset.2.2,
      xs', a', ys' ++ ys, ?_, ?_, hk', h0, hok', hk' ▸ hrep⟩
    · rw [show xs ++ a :: ys = (xs ++ [a]) ++ ys by simp, hsplit]
      simp
    · have := congrArg List.length hsplit
      simp only [List.length_append, List.length_cons, List.length_nil] at this
      omega
  · rintro xs a ys rfl h hne
    obtain ⟨hk, -⟩ | ⟨e, p', hr, -⟩ | ⟨h0, -⟩ | ⟨h0, -⟩ := run_cases b a (after b xs)
    · exact absurd hk.symm hne
    · exact ⟨e, by rw [hr]⟩
    · exact absurd h0 h
    · exact absurd h0 h
  · rintro xs a ys e rfl herr
    obtain ⟨-, -, hr⟩ | ⟨e', p', hr, hl, -⟩ | ⟨-, -, -, e', p', hr, hl, -⟩ |
      ⟨-, -, -, api, p', hr, -⟩ := run_cases b a (after b xs) <;> rw [hr] at herr ⊢
    · exact hl
    · exact hl
    · cases herr

end ErplTunnel.Mesh

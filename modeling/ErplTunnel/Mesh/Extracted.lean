import ErplTunnel.Mesh.Latch

/-!
# The files that activations leave behind

On Unix a call of `Activate` that gets as far as `mkstemp` makes a temporary
file, and two of its exits remove it: `LoadShim` when `dlopen` fails, and
`AfterLoad` at the end. Between them are the twelve symbols and the kind check,
and whoever throws there leaves the file in `/tmp`.

* `run_files`: what one call leaves;
* `nothing_left_iff`: what is left after any sequence of calls.
-/

namespace ErplTunnel.Mesh

/-- The call finds no mesh active, its library loads, and is then refused. -/
def Activation.leaves (b : Build) (a : Activation) (p : Process) : Bool :=
  p.loader.activeKind = .none && a.loadable b && !a.passes

section Unix

variable {b : Build} (hb : b.platform = .unix)
include hb

theorem extractShim_files {o : Outcome} (h : o.extractError = none) (kind : MeshKind) (p : Process) :
    (extractShim b o kind).exec p =
      (.ok (.temp p.temps), { p with files := .temp p.temps :: p.files, temps := p.temps + 1 }) := by
  simp only [extractShim, h, hb]
  rfl

theorem loadShim_removes {o : Outcome} {err : String} (h : o.loadError = some err) (path : ShimFile)
    (kind : MeshKind) (p : Process) :
    ∃ e, (loadShim b o path kind).exec p = (.error e, { p with files := p.files.erase path }) := by
  simp only [loadShim, h, hb]
  exact ⟨_, rfl⟩

theorem afterLoad_removes (path : ShimFile) (p : Process) :
    (afterLoad b path).exec p = (.ok ⟨⟩, { p with files := p.files.erase path }) := by
  simp only [afterLoad, hb]
  rfl

/-- One call: its file stays where the library is refused, and nowhere else. -/
theorem run_files (a : Activation) (p : Process) :
    (a.run b p).2.files = if a.leaves b p then .temp p.temps :: p.files else p.files := by
  have hrun : a.run b p = (activate b a.outcome a.kind).exec p := rfl
  rw [hrun]
  simp only [activate]
  cases hc : isCompiledIn b a.kind with
  | false => simp [Activation.leaves, Activation.loadable, hc]
  | true =>
  simp only [Bool.not_true, Bool.false_eq_true, ↓reduceIte, Throws.exec_bind, Throws.exec_get]
  by_cases ha : p.loader.activeKind = .none
  case neg =>
    have hstay : a.leaves b p = false := by simp [Activation.leaves, ha]
    simp only [ha, ne_eq, not_false_eq_true, ↓reduceIte, hstay]
    by_cases hk : p.loader.activeKind = a.kind <;> simp [hk]
  simp only [ha, ne_eq, not_true, ↓reduceIte]
  by_cases h0 : a.outcome.blobLen = 0
  · simp [h0, Activation.leaves, Activation.loadable, Outcome.loads]
  simp only [h0, ↓reduceIte, Throws.exec_bind]
  cases hx : a.outcome.extractError with
  | some msg => simp [extractShim, hx, Activation.leaves, Activation.loadable, Outcome.loads]
  | none =>
  simp only [extractShim_files hb hx]
  cases hl : a.outcome.loadError with
  | some err =>
    -- `LoadShim` removes what it could not load
    obtain ⟨e, hld⟩ := loadShim_removes hb hl (.temp p.temps) a.kind
      { p with files := .temp p.temps :: p.files, temps := p.temps + 1 }
    simp [hld, Activation.leaves, Activation.loadable, Outcome.loads, hl]
  | none =>
  have hleaves : a.leaves b p = !a.passes := by
    simp [Activation.leaves, Activation.loadable, Outcome.loads, ha, hc, h0, hx, hl]
  simp only [loadShim_ok hl, hleaves, Activation.passes]
  obtain ⟨r, hok, hres⟩ := resolveApi_run a.outcome
  simp only [hres, ← hok]
  cases r with
  | error e => rfl
  | ok api =>
  by_cases hk : a.outcome.reported = a.kind.toInt
  · simp only [hk, not_true, ↓reduceIte, Throws.exec_bind, Throws.exec_modify, afterLoad_removes hb,
      Throws.exec_pure]
    simp [Except.isOk, Except.toBool]
  · simp [hk]

/-- Once a mesh is latched, no call makes a file. -/
theorem files_latched (as : List Activation) {p : Process} (h : p.loader.activeKind ≠ .none) :
    (activations b p as).files = p.files := by
  induction as generalizing p with
  | nil => rfl
  | cons a as ih =>
    have hstay : a.leaves b p = false := by simp [Activation.leaves, h]
    have hfiles : (a.run b p).2.files = p.files := by rw [run_files hb, hstay]; rfl
    show (activations b (a.run b p).2 as).files = p.files
    rw [ih (by rw [(run_latched h a).1]; exact h), hfiles]

/-- Every library that is mapped and then refused leaves its file. -/
theorem length_files (as : List Activation) {p : Process} (h0 : p.loader.activeKind = .none) :
    (activations b p as).files.length = p.files.length + (attempts b as).countP fun a => !a.passes := by
  induction as generalizing p with
  | nil => rfl
  | cons a as ih =>
    have hfiles := run_files hb a p
    show (activations b (a.run b p).2 as).files.length = _
    obtain ⟨hk, hne, -⟩ | ⟨e, p', hr, hl, -, -, hld⟩ | ⟨-, hld, hps, e, p', hr, hl, -⟩ |
      ⟨-, hld, hps, api, p', hr, hl, -⟩ := run_cases b a p
    · exact absurd (hk.symm.trans h0) hne
    · have hstay : a.leaves b p = false := by simp [Activation.leaves, hld h0]
      rw [hr] at hfiles ⊢
      rw [ih (hl ▸ h0), hfiles, hstay]
      simp [attempts, hld h0]
    · have hstay : a.leaves b p = true := by simp [Activation.leaves, h0, hld, hps]
      rw [hr] at hfiles ⊢
      rw [ih (hl ▸ h0), hfiles, hstay]
      simp only [attempts, hld, hps, ↓reduceIte, Bool.false_eq_true, List.length_cons, Bool.not_false,
        List.countP_cons_of_pos]
      omega
    · have hstay : a.leaves b p = false := by simp [Activation.leaves, hps]
      rw [hr] at hfiles ⊢
      rw [files_latched hb as (by rw [hl]; exact kind_ne_none hld), hfiles, hstay]
      simp [attempts, hld, hps]

end Unix

/-- On Unix, whatever the build has compiled in. A call leaves what it found on
disk exactly when it finds a mesh active, or its library does not load, or all
twelve symbols and the kind are as they should be; and a sequence of calls leaves
nothing exactly when every library it maps passes these checks. -/
theorem nothing_left_iff (haveTailscale haveNetBird : Bool) :
    let b : Build := ⟨.unix, haveTailscale, haveNetBird⟩
    (∀ (p : Process) (a : Activation), (a.run b p).2.files = p.files ↔
      (p.loader.activeKind = .none → a.loadable b = true → a.passes = true)) ∧
    ∀ as, (activations b .init as).files = [] ↔ ∀ a ∈ attempts b as, a.passes = true := by
  intro b
  refine ⟨fun p a => ?_, fun as => ?_⟩
  · rw [run_files rfl]
    cases hs : a.leaves b p with
    | false =>
      simp only [Bool.false_eq_true, ↓reduceIte, true_iff]
      intro h0 hld
      simpa [Activation.leaves, h0, hld] using hs
    | true =>
      simp only [↓reduceIte, List.cons_ne_self, false_iff, not_forall]
      simp only [Activation.leaves, Bool.and_eq_true, decide_eq_true_eq, Bool.not_eq_true'] at hs
      exact ⟨hs.1.1, hs.1.2, by simp [hs.2]⟩
  · rw [← List.length_eq_zero_iff, length_files rfl as rfl]
    simp [Process.init, List.countP_eq_zero]

/-- A shim without `mesh_unexport` is extracted, mapped and refused: its file is
still there. -/
theorem shim_left_on_disk :
    ¬ ∀ haveTailscale haveNetBird : Bool,
      (∀ (p : Process) (a : Activation), (a.run ⟨.unix, haveTailscale, haveNetBird⟩ p).2.files = p.files) ∧
      ∀ as, (activations ⟨.unix, haveTailscale, haveNetBird⟩ .init as).files = [] := by
  intro h
  have hone := (h true true).2 [⟨.tailscale, oldShim .tailscale⟩]
  revert hone
  decide

end ErplTunnel.Mesh

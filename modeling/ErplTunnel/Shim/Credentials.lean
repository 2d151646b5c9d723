import ErplTunnel.Mesh.Credentials
import ErplTunnel.Shim.Told

/-!
# A node with another key

The keys of a backend are put in the place of others, and the libraries answer as
before. The shim looks at a key to see that there is one, and gives it to the
library: nothing that it returns or says is made of it, and neither is anything
that the backend returns or throws (`keys_kept`).
-/

namespace ErplTunnel.Shim

open Mesh (ShimCall MeshOptions MeshBackend Method Reply Returned TunnelError Codec Sys Disguise)

/-- The same node with another auth key, or both have none. -/
def TsNode.OtherKey (n n' : TsNode) : Prop := ∃ k, (k = [] ↔ n.authKey = []) ∧ n' = { n with authKey := k }

/-- The same node with another setup key, or both have none. -/
def NbNode.OtherKey (n n' : NbNode) : Prop := ∃ k, (k = [] ↔ n.setupKey = []) ∧ n' = { n with setupKey := k }

/-- Two nodes go the same way in `mesh_up`. -/
inductive Up.Alike {α : Type} : Up α → Up α → Prop
  | already : Up.Alike .already .already
  | refused (lastErr : GoString) : Up.Alike (.refused lastErr) (.refused lastErr)
  | makes (a a' : α) : Up.Alike (.makes a) (.makes a')

theorem TsNode.OtherKey.meshUp {n n' : TsNode} (h : n.OtherKey n') (mkdirTemp : Except GoString GoString) :
    Up.Alike (n.meshUp mkdirTemp) (n'.meshUp mkdirTemp) := by
  obtain ⟨k, hk, rfl⟩ := h
  rw [TsNode.meshUp, TsNode.meshUp]
  dsimp only
  rw [if_congr hk rfl rfl]
  split
  · exact .already
  split
  · exact .refused _
  cases (if n.stateDir = [] then mkdirTemp else .ok n.stateDir) with
  | error err => exact .refused _
  | ok dir => exact .makes _ _

theorem NbNode.OtherKey.meshUp {n n' : NbNode} (h : n.OtherKey n') (mkdirTemp : Except GoString GoString) :
    Up.Alike (n.meshUp mkdirTemp) (n'.meshUp mkdirTemp) := by
  obtain ⟨k, hk, rfl⟩ := h
  rw [NbNode.meshUp, NbNode.meshUp]
  dsimp only
  rw [if_congr hk rfl rfl]
  split
  · exact .already
  split
  · exact .refused _
  cases (if n.statePath = [] then mkdirTemp else .ok n.statePath) with
  | error err => exact .refused _
  | ok statePath => exact .makes _ _

namespace Errors

variable {σ : Type}

/-- The same entry with a node that `A` has it like. -/
structure Entry.Alike (A : σ → σ → Prop) (n n' : Entry σ) : Prop where
  opts : A n.opts n'.opts
  srv : n'.srv = n.srv
  lastErr : n'.lastErr = n.lastErr

/-- A shim does not look at what `A` leaves open of a node, and `ρ` changes nothing
else. -/
structure Impl.Discreet (sh : Impl σ) (ρ : Disguise) (A : σ → σ → Prop) : Prop where
  configured : ∀ o, A (sh.abi.configured o) (sh.abi.configured (ρ.options o))
  isUp : ∀ n n', A n n' → sh.isUp n' = sh.isUp n
  meshUp : ∀ n n' a, Entry.Alike A n n' →
    (sh.meshUp n' a).2 = (sh.meshUp n a).2 ∧ (sh.meshUp n a).1.Alike A (sh.meshUp n' a).1

/-! ## Each shim -/

section

variable {ρ : Disguise}

theorem tsImpl_discreet (hρ : ∀ s, goString (ρ.map s) = [] ↔ goString s = []) :
    tsImpl.Discreet ρ TsNode.OtherKey where
  configured o := by
    show TsNode.OtherKey (ts.configured o) (ts.configured (ρ.options o))
    rw [ts_configured, ts_configured]
    exact ⟨goString (ρ.map o.authKey), hρ o.authKey, rfl⟩
  isUp n n' h := by
    obtain ⟨k, -, rfl⟩ := h
    rfl
  meshUp n n' a h := by
    show (tsMeshUp n' a).2 = (tsMeshUp n a).2 ∧ (tsMeshUp n a).1.Alike TsNode.OtherKey (tsMeshUp n' a).1
    have hup := h.opts.meshUp a.mkdirTemp
    rw [tsMeshUp, tsMeshUp]
    revert hup
    generalize n.opts.meshUp a.mkdirTemp = u, n'.opts.meshUp a.mkdirTemp = u'
    intro hup
    cases hup with
    | already => exact ⟨rfl, h⟩
    | refused lastErr => exact ⟨rfl, h.opts, h.srv, rfl⟩
    | makes s s' =>
      obtain ⟨k, hk, hn⟩ := h.opts
      dsimp only
      cases a.up with
      | ok _ => exact ⟨rfl, ⟨k, hk, by rw [hn]; rfl⟩, rfl, h.lastErr⟩
      | error err =>
        have ht : n'.opts.tags = n.opts.tags := by rw [hn]
        dsimp only
        rw [ht]
        split
        · exact ⟨rfl, ⟨k, hk, hn⟩, rfl, rfl⟩
        · exact ⟨rfl, ⟨k, hk, hn⟩, rfl, rfl⟩

theorem nbImpl_discreet (hρ : ∀ s, goString (ρ.map s) = [] ↔ goString s = []) :
    nbImpl.Discreet ρ NbNode.OtherKey where
  configured o := by
    show NbNode.OtherKey (nb.configured o) (nb.configured (ρ.options o))
    rw [nb_configured, nb_configured]
    exact ⟨goString (ρ.map o.setupKey), hρ o.setupKey, rfl⟩
  isUp n n' h := by
    obtain ⟨k, -, rfl⟩ := h
    rfl
  meshUp n n' a h := by
    show (nbMeshUp n' a).2 = (nbMeshUp n a).2 ∧ (nbMeshUp n a).1.Alike NbNode.OtherKey (nbMeshUp n' a).1
    have hup := h.opts.meshUp a.mkdirTemp
    rw [nbMeshUp, nbMeshUp]
    revert hup
    generalize n.opts.meshUp a.mkdirTemp = u, n'.opts.meshUp a.mkdirTemp = u'
    intro hup
    cases hup with
    | already => exact ⟨rfl, h⟩
    | refused lastErr => exact ⟨rfl, h.opts, h.srv, rfl⟩
    | makes s s' =>
      obtain ⟨k, hk, hn⟩ := h.opts
      cases a.new with
      | error err => exact ⟨rfl, ⟨k, hk, hn⟩, h.srv, rfl⟩
      | ok _ =>
        cases a.up with
        | error err => exact ⟨rfl, ⟨k, hk, hn⟩, h.srv, rfl⟩
        | ok _ => exact ⟨rfl, ⟨k, hk, by rw [hn]; rfl⟩, rfl, h.lastErr⟩

end

/-! ## A step -/

section

variable {sh : Impl σ} {ρ : Disguise} {A : σ → σ → Prop} (c : Codec) (decode : GoString → String)

theorem Entry.Alike.setErr {n n' : Entry σ} (h : n.Alike A n') (e : Option GoString) :
    (n.setErr e).Alike A (n'.setErr e) := by
  cases e with
  | none => exact h
  | some text => exact ⟨h.opts, h.srv, rfl⟩

theorem Entry.Alike.text {n n' : Entry σ} (h : n.Alike A n') : n'.text decode = n.text decode := by
  rw [Entry.text, Entry.text, h.lastErr]

namespace Impl.Discreet

theorem up (hd : sh.Discreet ρ A) {n n' : Entry σ} (h : n.Alike A n') :
    (sh.isUp n'.opts && n'.srv) = (sh.isUp n.opts && n.srv) := by
  rw [hd.isUp _ _ h.opts, h.srv]

theorem onMesh (hd : sh.Discreet ρ A) {n n' : Entry σ} (h : n.Alike A n') (e : Option GoString) :
    (sh.onMesh n' e).2 = (sh.onMesh n e).2 ∧ (sh.onMesh n e).1.Alike A (sh.onMesh n' e).1 := by
  rw [Impl.onMesh, Impl.onMesh, hd.up h]
  split
  · exact ⟨rfl, h.setErr e⟩
  · exact ⟨rfl, h⟩

theorem report (hd : sh.Discreet ρ A) {n n' : Entry σ} (h : n.Alike A n') (m : Method) (a : StatusAnswer) :
    (sh.report n' m a).2 = (sh.report n m a).2 ∧ (sh.report n m a).1.Alike A (sh.report n' m a).1 := by
  rw [Impl.report, Impl.report, hd.up h]
  split
  · exact ⟨rfl, h⟩
  cases sh.status m a with
  | error e => exact ⟨rfl, h.opts, h.srv, rfl⟩
  | ok v => exact ⟨rfl, h⟩

/-- The rest of a method answers the same. -/
theorem rest (hd : sh.Discreet ρ A) {n n' : Entry σ} (h : n.Alike A n') (m : Method) (a : Answers) :
    (sh.rest c decode n' m a).2 = (sh.rest c decode n m a).2 ∧
      (sh.rest c decode n m a).1.Alike A (sh.rest c decode n' m a).1 := by
  cases m with
  | ensureUp => exact ⟨rfl, h⟩
  | dial host port =>
    obtain ⟨hr, ha⟩ := hd.onMesh h (dialError sh.name host port a)
    refine ⟨?_, ha⟩
    rw [Impl.rest, Impl.rest]
    dsimp only
    rw [hr, ha.text]
  | meshExport meshPort localHost localPort =>
    obtain ⟨hr, ha⟩ := hd.onMesh h (exportError sh.name meshPort a)
    refine ⟨?_, ha⟩
    rw [Impl.rest, Impl.rest]
    dsimp only
    rw [hr, ha.text]
  | peersJson | selfJson =>
    obtain ⟨hr, ha⟩ := hd.report h _ a.first
    obtain ⟨hr', ha'⟩ := hd.report ha _ a.second
    rw [Impl.rest, Impl.rest]
    dsimp only
    rw [hr, hr']
    split
    · exact ⟨by rw [ha'.text], ha'⟩
    · exact ⟨by rw [ha.text], ha⟩

end Impl.Discreet

theorem calledUp_backend (ρ : Disguise) (b b' : MeshBackend) :
    calledUp (ρ.backend b) (ρ.backend b') = calledUp b b' := by
  show ((b'.calls.map ρ.call).drop (b.calls.map ρ.call).length).any _ = _
  rw [List.length_map, ← List.map_drop, List.any_map, calledUp]
  congr 1
  funext c
  cases c <;> rfl

/-- The same state with the keys of the backend, and that of its node, in disguise. -/
structure State.Alike (ρ : Disguise) (A : σ → σ → Prop) (s s' : State σ) : Prop where
  sys : s'.sys = ρ.sys s.sys
  entry : Option.Rel (Entry.Alike A) s.entry s'.entry

variable (sh) in
/-- What a step of a method returns or throws. -/
def State.outcome (s : State σ) : Ev → Option (Except TunnelError Returned)
  | .call _ activate handle a =>
    some (((Mesh.ensureUp (s.upOutcome sh decode activate handle a)).exec s.sys.backend).1.map fun _ => .done)
  | .resume i a => do
    let m ← s.sys.inFlight[i]?
    some ((Mesh.resume m (s.rest sh c decode m a).2).exec s.sys.backend).1
  | _ => none

namespace State.Alike

variable {s s' : State σ}

theorem start (ρ : Disguise) (A : σ → σ → Prop) (o : MeshOptions) :
    Alike ρ A (Errors.start o) (Errors.start (ρ.options o)) :=
  ⟨rfl, .none⟩

theorem node (hd : sh.Discreet ρ A) (h : s.Alike ρ A s') : (s.node sh).Alike A (s'.node sh) := by
  obtain ⟨sys, entry⟩ := s
  obtain ⟨sys', entry'⟩ := s'
  obtain ⟨rfl, he⟩ := h
  cases he with
  | none => exact ⟨hd.configured _, rfl, rfl⟩
  | some hn => exact hn

theorem upOutcome (hd : sh.Discreet ρ A) (h : s.Alike ρ A s') (activate : Except TunnelError Mesh.MeshApi)
    (handle : Int) (a : UpAnswers) :
    s'.upOutcome sh decode activate handle a = s.upOutcome sh decode activate handle a := by
  obtain ⟨hr, ha⟩ := hd.meshUp _ _ a (h.node hd)
  rw [State.upOutcome, State.upOutcome, hr, ha.text]

theorem rest (hd : sh.Discreet ρ A) (h : s.Alike ρ A s') (m : Method) (a : Answers) :
    (s'.rest sh c decode m a).2 = (s.rest sh c decode m a).2 ∧
      Option.Rel (Entry.Alike A) (s.rest sh c decode m a).1 (s'.rest sh c decode m a).1 := by
  obtain ⟨sys, entry⟩ := s
  obtain ⟨sys', entry'⟩ := s'
  obtain ⟨-, he⟩ := h
  cases he with
  | none => exact ⟨rfl, .none⟩
  | some hn =>
    obtain ⟨hr, ha⟩ := hd.rest c decode hn m a
    exact ⟨hr, .some ha⟩

theorem outcome (hd : sh.Discreet ρ A) (h : s.Alike ρ A s') (e : Ev) :
    s'.outcome sh c decode e = s.outcome sh c decode e := by
  cases e with
  | call m activate handle a =>
    rw [State.outcome, State.outcome, h.upOutcome decode hd, h.sys]
    rw [show (ρ.sys s.sys).backend = ρ.backend s.sys.backend from rfl, Disguise.blind_ensureUp]
  | resume i a =>
    rw [State.outcome, State.outcome, h.sys]
    show ((s.sys.inFlight[i]?).bind fun m => _) = (s.sys.inFlight[i]?).bind fun m => _
    cases s.sys.inFlight[i]? with
    | none => rfl
    | some m =>
      have hr := (h.rest c decode hd m a).1
      show some ((Mesh.resume m (s'.rest sh c decode m a).2).exec (ρ.backend s.sys.backend)).1 = _
      rw [hr, Disguise.blind_resume m (s.rest sh c decode m a).2 s.sys.backend]
      rfl
  | unexport | destroy => rfl

theorem step (hd : sh.Discreet ρ A) (h : s.Alike ρ A s') (e : Ev) :
    Option.Rel (State.Alike ρ A) (s.step sh c decode e) (s'.step sh c decode e) := by
  cases e with
  | call m activate handle a =>
    rw [State.step, State.step, h.upOutcome decode hd, h.sys, Disguise.step_sys]
    cases hs : s.sys.step (.call m (s.upOutcome sh decode activate handle a)) with
    | none => exact .none
    | some sys =>
      refine .some ⟨rfl, ?_⟩
      show Option.Rel _ (if calledUp s.sys.backend sys.backend then _ else _)
        (if calledUp (ρ.backend s.sys.backend) (ρ.backend sys.backend) then _ else _)
      rw [calledUp_backend]
      split
      · exact .some (hd.meshUp _ _ a (h.node hd)).2
      · exact h.entry
  | resume i a =>
    rw [State.step, State.step, h.sys]
    show Option.Rel _ ((s.sys.inFlight[i]?).bind fun m => _) ((s.sys.inFlight[i]?).bind fun m => _)
    cases s.sys.inFlight[i]? with
    | none => exact .none
    | some m =>
      obtain ⟨hr, he⟩ := h.rest c decode hd m a
      dsimp only [Option.bind_some]
      rw [hr, Disguise.step_sys]
      cases s.sys.step (.resume i (s.rest sh c decode m a).2) with
      | none => exact .none
      | some sys => exact .some ⟨rfl, he⟩
  | unexport handle =>
    rw [State.step, State.step, h.sys, Disguise.step_sys]
    cases s.sys.step (.unexport handle) with
    | none => exact .none
    | some sys => exact .some ⟨rfl, h.entry⟩
  | destroy =>
    rw [State.step, State.step, h.sys, Disguise.step_sys]
    cases s.sys.step .destroy with
    | none => exact .none
    | some sys => exact .some ⟨rfl, .none⟩

end State.Alike

/-- A run of a backend with the options `o`, and of one with the keys of `ρ`. -/
structure Kept (sh : Impl σ) (c : Codec) (decode : GoString → String) (ρ : Disguise) (o : MeshOptions) (es : List Ev) :
    Prop where
  possible : (∃ s', Lts.Run (State.step sh c decode) (start (ρ.options o)) es s') ↔
    ∃ s, Lts.Run (State.step sh c decode) (start o) es s
  same : ∀ s s', Lts.Run (State.step sh c decode) (start o) es s →
    Lts.Run (State.step sh c decode) (start (ρ.options o)) es s' →
    s'.sys = ρ.sys s.sys ∧ ∀ e, s'.outcome sh c decode e = s.outcome sh c decode e

theorem Impl.Discreet.kept (hd : sh.Discreet ρ A) (o : MeshOptions) (es : List Ev) : Kept sh c decode ρ o es where
  possible := Lockstep.run_iff (fun _ _ e h => h.step c decode hd e) (State.Alike.start ρ A o) es
  same s s' hr hr' := by
    have h := Lockstep.run_related (fun _ _ e h => h.step c decode hd e) (State.Alike.start ρ A o) hr hr'
    exact ⟨h.sys, h.outcome c decode hd⟩

end

/-- With other keys among its options, a backend has the same runs, over either
shim and on any number of threads: every method returns or throws the same, and
the shim is called alike, but for the keys that it is given. -/
theorem keys_kept (c : Codec) (decode : GoString → String) (ρ : Disguise)
    (hρ : ∀ s, goString (ρ.map s) = [] ↔ goString s = []) (o : MeshOptions) (es : List Ev) :
    Kept tsImpl c decode ρ o es ∧ Kept nbImpl c decode ρ o es :=
  ⟨(tsImpl_discreet hρ).kept c decode o es, (nbImpl_discreet hρ).kept c decode o es⟩

/-- Every key is blotted out. -/
def blotted : Disguise where
  map s := if goString s = [] then s else "***"
  empty s := by
    split
    case isTrue => exact Iff.rfl
    case isFalse h =>
      refine ⟨fun hs => absurd hs (by decide), fun hs => ?_⟩
      rw [hs] at h
      exact absurd Abi.goString_empty h

theorem keys_kept_dial : ∃ s,
    Lts.Run (State.step tsImpl Mesh.peersCodec latin1) (start (blotted.options tailnet.options))
      secondAttemptThenListen s ∧
    s.outcome tsImpl Mesh.peersCodec latin1 (.resume 0 noRoute) =
      some (.error (.io "Tunnel: Tailscale: dial db:5432 failed: no route")) := by
  have hρ : ∀ s, goString (blotted.map s) = [] ↔ goString s = [] := by
    intro s
    show goString (if goString s = [] then s else "***") = [] ↔ _
    split
    case isTrue h => exact Iff.rfl
    case isFalse h => exact ⟨fun hs => absurd hs (by decide), fun hs => absurd hs h⟩
  have hk := (keys_kept Mesh.peersCodec latin1 blotted hρ tailnet.options secondAttemptThenListen).1
  obtain ⟨s', hs'⟩ := hk.possible.mpr ⟨_, rfl⟩
  refine ⟨s', hs', ?_⟩
  rw [(hk.same _ s' rfl hs').2]
  decide +kernel

end Errors

end ErplTunnel.Shim

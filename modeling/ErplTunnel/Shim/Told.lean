import ErplTunnel.Shim.LastError

/-!
# Whose failure an exception tells of

A node has one `lastErr` for all its calls and all the threads of its backend.
The backend has `mu_` from a call until it has read the text. `State` is a
backend with the threads in its methods and the node of its shim; what the shim
returns is made of the answers of the libraries (`State.step`).

The exception of a method has the text of its own failure, made of the answers in
that call and of the options of the node, and a call over the mesh throws only if
a library failed in it (`errors_told`). The text of an earlier failure is thrown
only by a JSON method that no library failed: its answer cannot be written, or
outgrew the second buffer too.
-/

namespace ErplTunnel.Shim

open Mesh (ShimCall MeshOptions MeshBackend Method Reply Returned TunnelError Json Codec Sys)

namespace Errors

/-! ## A backend and its node -/

/-- A backend with the threads in its methods, and `reg[node_]`. -/
structure State (σ : Type) where
  sys : Sys
  entry : Option (Entry σ)

inductive Ev where
  | call (m : Method) (activate : Except TunnelError Mesh.MeshApi) (handle : Int) (a : UpAnswers)
  | resume (i : Nat) (a : Answers)
  | unexport (handle : Int)
  | destroy

def start {σ : Type} (o : MeshOptions) : State σ := ⟨.start o, none⟩

def failed {ε α : Type} : Except ε α → Option ε
  | .error e => some e
  | .ok _ => none

/-- The backend has called `mesh_up` in between. -/
def calledUp (b b' : MeshBackend) : Bool :=
  (b'.calls.drop b.calls.length).any fun
    | .up .. => true
    | _ => false

/-- What is in the reply to a method that calls nothing. -/
def nothing : Reply := ⟨0, none, 0, 0, 0, "", ""⟩

/-- The buffers of `PeersJson` and `SelfJson`. -/
def jsonSize : Method → Nat
  | .peersJson => 8192
  | _ => 4096

def jsonWhat : Method → String
  | .peersJson => "peer"
  | _ => "self"

section

variable {σ : Type} (sh : Impl σ) (c : Codec) (decode : GoString → String)

def Entry.text (n : Entry σ) : String := decode (lastErrorText n.lastErr)

/-- What the rest of a method makes of the node, and what the backend sees of it. -/
def Impl.rest (n : Entry σ) (m : Method) (a : Answers) : Entry σ × Reply :=
  match m with
  | .ensureUp => (n, nothing)
  | .dial host port =>
    let r := sh.onMesh n (dialError sh.name host port a)
    (r.1, { nothing with rc := r.2, stream := if r.2 = 0 then some a.stream else none, errmsg := r.1.text decode })
  | .meshExport meshPort _ _ =>
    let r := sh.onMesh n (exportError sh.name meshPort a)
    (r.1, { nothing with rc := r.2, handle := a.handle, errmsg := r.1.text decode })
  | .peersJson | .selfJson =>
    let first := sh.report n m a.first
    let second := sh.report first.1 m a.second
    let r := Mesh.jsonReply c (jsonSize m) first.2 second.2 ""
    let n' := if r.rc = 2 ∧ jsonSize m < r.need ∧ r.need ≤ Mesh.maxMeshJson then second.1 else first.1
    (n', { r with errmsg := n'.text decode })

namespace State

/-- The node that `mesh_up` is called on: the one there is, or a new one with its
options. -/
def node (s : State σ) : Entry σ := s.entry.getD ⟨sh.abi.configured s.sys.backend.opts, false, []⟩

def upOutcome (s : State σ) (activate : Except TunnelError Mesh.MeshApi) (handle : Int) (a : UpAnswers) :
    Mesh.UpOutcome :=
  let r := sh.meshUp (s.node sh) a
  ⟨activate, handle, r.2, r.1.text decode⟩

/-- A handle that `reg` does not have is answered with no text. -/
def rest (s : State σ) (m : Method) (a : Answers) : Option (Entry σ) × Reply :=
  match s.entry with
  | some n =>
    let r := sh.rest c decode n m a
    (some r.1, r.2)
  | none => (none, { nothing with rc := 1, errmsg := decode [] })

def step (s : State σ) : Ev → Option (State σ)
  | .call m activate handle a =>
    (s.sys.step (.call m (s.upOutcome sh decode activate handle a))).map fun sys =>
      ⟨sys, if calledUp s.sys.backend sys.backend then some (sh.meshUp (s.node sh) a).1 else s.entry⟩
  | .resume i a => do
    let m ← s.sys.inFlight[i]?
    let r := s.rest sh c decode m a
    (s.sys.step (.resume i r.2)).map fun sys => ⟨sys, r.1⟩
  | .unexport handle => (s.sys.step (.unexport handle)).map fun sys => ⟨sys, s.entry⟩
  | .destroy => (s.sys.step .destroy).map fun sys => ⟨sys, none⟩

/-- The exception that a step ends with. -/
def thrown (s : State σ) : Ev → Option TunnelError
  | .call _ activate handle a =>
    failed ((Mesh.ensureUp (s.upOutcome sh decode activate handle a)).exec s.sys.backend).1
  | .resume i a => do
    let m ← s.sys.inFlight[i]?
    failed ((Mesh.resume m (s.rest sh c decode m a).2).exec s.sys.backend).1
  | _ => none

end State

/-! ## What is thrown -/

def failure (text : GoString) : TunnelError := .io ("Tunnel: " ++ decode (told text))

/-- The exception of a JSON method, on a node with this `lastErr`: of the first
status call, or of the one with the larger buffer. Where the answer cannot be
written, or outgrew the larger buffer as well, nothing sets a text. -/
def Impl.jsonThrown (m : Method) (a : Answers) (lastErr : GoString) : Option TunnelError :=
  match sh.status m a.first with
  | .error e => some (failure decode e)
  | .ok v =>
    match c.marshal v with
    | none => some (failure decode lastErr)
    | some text =>
      if Mesh.needs text ≤ jsonSize m then none
      else if Mesh.maxMeshJson < Mesh.needs text then
        some (.io ("Tunnel: mesh " ++ jsonWhat m ++ " status is implausibly large; aborting."))
      else
        match sh.status m a.second with
        | .error e => some (failure decode e)
        | .ok v₂ =>
          match c.marshal v₂ with
          | none => some (failure decode lastErr)
          | some text₂ => if Mesh.needs text₂ ≤ Mesh.needs text then none else some (failure decode lastErr)

/-- What the methods throw of a backend with the options `o`. -/
structure Told (o : MeshOptions) (s : State σ) : Prop where
  up : s.sys.destroyed = false → ∀ m activate handle a, s.thrown sh c decode (.call m activate handle a) =
    if s.sys.backend.up then none
    else
      match activate with
      | .error e => some e
      | .ok _ =>
        if s.sys.backend.node ≤ 0 ∧ handle ≤ 0 then some (.io "Tunnel: could not allocate a mesh node.")
        else (sh.upError (sh.abi.configured o) a).map (failure decode)
  dial : ∀ i host port a, s.sys.inFlight[i]? = some (.dial host port) →
    s.thrown sh c decode (.resume i a) = (dialError sh.name host port a).map (failure decode)
  meshExport : ∀ i meshPort localHost localPort a,
    s.sys.inFlight[i]? = some (.meshExport meshPort localHost localPort) →
    s.thrown sh c decode (.resume i a) = (exportError sh.name meshPort a).map (failure decode)
  json : ∀ i m a n, s.sys.inFlight[i]? = some m → m = .peersJson ∨ m = .selfJson → s.entry = some n →
    s.thrown sh c decode (.resume i a) = sh.jsonThrown c decode m a n.lastErr

end

/-! ## What a method of the backend throws -/

section

variable {b : MeshBackend}

theorem failed_throwLast (ha : b.api ≠ none) (hn : 0 < b.node) (text : String) (cs : List ShimCall) :
    failed ((Mesh.throwLast text).exec { b with calls := cs }).1 = some (.io ("Tunnel: " ++ text)) := by
  have hc : ¬(b.api = none ∨ b.node ≤ 0) := by
    rintro (h | h)
    · exact ha h
    · omega
  simp [Mesh.throwLast, Mesh.lastError, Mesh.issue, hc, failed]

theorem failed_jsonCall (ha : b.api ≠ none) (hn : 0 < b.node) (call : Int → Nat → ShimCall) (size : Nat) (what : String)
    (r : Reply) : failed ((Mesh.jsonCall call size what r).exec b).1 =
      if r.rc = 2 ∧ size < r.need then
        if Mesh.maxMeshJson < r.need then
          some (.io ("Tunnel: mesh " ++ what ++ " status is implausibly large; aborting."))
        else if r.rc₂ ≠ 0 then some (.io ("Tunnel: " ++ r.errmsg))
        else none
      else if r.rc ≠ 0 then some (.io ("Tunnel: " ++ r.errmsg))
      else none := by
  have hanswer : ∀ (rc : Int) (cs : List ShimCall), failed ((Mesh.jsonAnswer rc r).exec { b with calls := cs }).1 =
      if rc ≠ 0 then some (.io ("Tunnel: " ++ r.errmsg)) else none := by
    intro rc cs
    by_cases hrc : rc ≠ 0
    · rw [Mesh.jsonAnswer, if_pos hrc, if_pos hrc]
      exact failed_throwLast ha hn _ cs
    · rw [Mesh.jsonAnswer, if_neg hrc, if_neg hrc]
      rfl
  simp only [Mesh.jsonCall, Mesh.issue, Throws.exec_bind, Throws.exec_get, Throws.exec_modify]
  split
  · split
    · rfl
    · exact hanswer r.rc₂ _
  · exact hanswer r.rc _

theorem failed_ensureUp (o : Mesh.UpOutcome) : failed ((Mesh.ensureUp o).exec b).1 =
    if b.up then none
    else
      match o.activate with
      | .error e => some e
      | .ok _ =>
        if b.node ≤ 0 ∧ o.node ≤ 0 then some (.io "Tunnel: could not allocate a mesh node.")
        else if o.rc = 0 then none
        else some (.io ("Tunnel: " ++ o.errmsg)) := by
  cases hu : b.up with
  | true => simp [Mesh.ensureUp, hu, failed]
  | false =>
    cases ha : o.activate with
    | error e => simp [Mesh.ensureUp, hu, ha, failed]
    | ok api =>
      by_cases hn : b.node ≤ 0
      · by_cases hf : o.node ≤ 0
        · simp [Mesh.ensureUp, Mesh.issue, hu, ha, hn, hf, failed]
        · by_cases hr : o.rc = 0 <;>
            simp [Mesh.ensureUp, Mesh.issue, Mesh.setOptions, Mesh.lastError, hu, ha, hn, hf, hr, failed]
      · by_cases hr : o.rc = 0 <;>
          simp [Mesh.ensureUp, Mesh.issue, Mesh.lastError, hu, ha, hn, hr, failed]

end

/-! ## The node of a backend -/

section

variable {σ : Type} {sh : Impl σ} {c : Codec} {decode : GoString → String} {o : MeshOptions} {s s' : State σ}

/-- The node is there once the backend has its handle, it is up when the backend
has it for up, and before that it has the options of the backend. -/
structure Fits (sh : Impl σ) (o : MeshOptions) (b : MeshBackend) (entry : Option (Entry σ)) : Prop where
  missing : entry = none → ¬0 < b.node
  node : ∀ n, entry = some n → 0 < b.node
  isUp : ∀ n, entry = some n → sh.isUp n.opts = b.up
  srv : ∀ n, entry = some n → b.up = true → n.srv = true
  opts : ∀ n, entry = some n → b.up = false → n.opts = sh.abi.configured o

theorem Fits.start (o : MeshOptions) : Fits sh o (.new o) none where
  missing _ := Int.lt_irrefl 0
  node := nofun
  isUp := nofun
  srv := nofun
  opts := nofun

theorem Fits.exists (h : Fits sh o s.sys.backend s.entry) (hn : 0 < s.sys.backend.node) : ∃ n, s.entry = some n := by
  cases he : s.entry with
  | none => exact absurd hn (h.missing he)
  | some n => exact ⟨n, rfl⟩

/-- Where the node is not up, `mesh_up` finds the options of the backend. -/
theorem Fits.configured (h : Fits sh o s.sys.backend s.entry) (ho : s.sys.backend.opts = o)
    (hu : s.sys.backend.up = false) : (s.node sh).opts = sh.abi.configured o := by
  rw [State.node]
  cases he : s.entry with
  | none =>
    rw [Option.getD_none, ho]
  | some n => exact h.opts n he hu

theorem calledUp_self (b : MeshBackend) : calledUp b b = false := by
  rw [calledUp, List.drop_length]
  rfl

theorem calledUp_append {b b' : MeshBackend} {cs : List ShimCall} (h : b'.calls = b.calls ++ cs) :
    calledUp b b' = cs.any fun
      | .up .. => true
      | _ => false := by
  rw [calledUp, h, List.drop_left]

variable (decode) in
theorem Fits.ensureUp (hl : sh.Lawful) (h : Fits sh o s.sys.backend s.entry) (ho : s.sys.backend.opts = o)
    (activate : Except TunnelError Mesh.MeshApi) (handle : Int) (a : UpAnswers) :
    let b' := ((Mesh.ensureUp (s.upOutcome sh decode activate handle a)).exec s.sys.backend).2
    Fits sh o b' (if calledUp s.sys.backend b' then some (sh.meshUp (s.node sh) a).1 else s.entry) := by
  intro b'
  obtain ⟨-, hr⟩ | ⟨-, e, hr⟩ | ⟨hu, hn, hf, e, api, hr⟩ | ⟨hu, api, b₁, hb₁, hr⟩ :=
    Mesh.ensureUp_cases (s.upOutcome sh decode activate handle a) s.sys.backend
  · have hb : b' = s.sys.backend := congrArg Prod.snd hr
    rw [hb, calledUp_self, if_neg Bool.false_ne_true]
    exact h
  · have hb : b' = s.sys.backend := congrArg Prod.snd hr
    rw [hb, calledUp_self, if_neg Bool.false_ne_true]
    exact h
  · have hb := congrArg Prod.snd hr
    have hnone : s.entry = none := by
      cases he : s.entry with
      | none => rfl
      | some n => exact absurd (h.node n he) hn
    have hcalled : calledUp s.sys.backend b' = false := calledUp_append (congrArg MeshBackend.calls hb)
    rw [hcalled, if_neg Bool.false_ne_true, hnone]
    refine ⟨fun _ => ?_, nofun, nofun, nofun, nofun⟩
    have hnode : b'.node = handle := congrArg MeshBackend.node hb
    rw [hnode]
    exact hf
  -- `mesh_up` is called, on a node with the options of the backend
  · have hopts := h.configured ho hu
    have hdown : sh.isUp (s.node sh).opts = false := by
      rw [hopts]
      exact hl.configured o
    have hb : 0 < b₁.node ∧ b₁.up = false ∧ ∃ cs, b₁.calls = s.sys.backend.calls ++ cs := by
      obtain ⟨hn, rfl⟩ | ⟨-, hp, rfl⟩ := hb₁
      · exact ⟨hn, hu, [], (List.append_nil _).symm⟩
      · exact ⟨hp, hu, _, List.append_assoc ..⟩
    obtain ⟨hn, hu₁, cs, hcs⟩ := hb
    have hb' : b'.node = b₁.node ∧ b'.up = decide ((sh.meshUp (s.node sh) a).2 = 0) ∧
        ∃ ds, b'.calls = b₁.calls ++ .up b₁.node (sh.meshUp (s.node sh) a).2 :: ds := by
      obtain ⟨hrc, hr⟩ | ⟨hrc, e, hr⟩ := hr
      · have hb : b' = { b₁ with calls := _, up := true } := congrArg Prod.snd hr
        exact ⟨by rw [hb], by rw [hb]; exact (decide_eq_true hrc).symm, [], by rw [hb]; rfl⟩
      · have hb : b' = { b₁ with calls := _ } := congrArg Prod.snd hr
        refine ⟨by rw [hb], ?_, [.errmsg b₁.node], by rw [hb]; exact List.append_assoc ..⟩
        rw [hb]
        exact hu₁.trans (decide_eq_false hrc).symm
    obtain ⟨hnode, hup, ds, hds⟩ := hb'
    have hcalled : calledUp s.sys.backend b' = true := by
      rw [calledUp_append (by rw [hds, hcs, List.append_assoc])]
      simp
    rw [hcalled, if_pos rfl]
    cases he : sh.upError (s.node sh).opts a with
    | none =>
      obtain ⟨hrc, hup', hsrv⟩ := hl.comes _ a hdown he
      rw [hrc] at hup
      refine ⟨nofun, fun _ _ => hnode ▸ hn, ?_, ?_, ?_⟩
      · rintro _ ⟨⟩
        exact hup'.trans hup.symm
      · rintro _ ⟨⟩ -
        exact hsrv
      · rw [hup]
        nofun
    | some text =>
      obtain ⟨hrc, -, hsame⟩ := hl.fails _ a text hdown he
      rw [decide_eq_false hrc] at hup
      refine ⟨nofun, fun _ _ => hnode ▸ hn, ?_, ?_, ?_⟩
      · rintro _ ⟨⟩
        rw [hsame, hdown, hup]
      · rw [hup]
        nofun
      · rintro _ ⟨⟩ -
        rw [hsame, hopts]

theorem Impl.onMesh_fields (n : Entry σ) (e : Option GoString) :
    (sh.onMesh n e).1.opts = n.opts ∧ (sh.onMesh n e).1.srv = n.srv := by
  rw [Impl.onMesh]
  split
  · cases e <;> exact ⟨rfl, rfl⟩
  · exact ⟨rfl, rfl⟩

theorem Impl.report_fields (n : Entry σ) (m : Method) (a : StatusAnswer) :
    (sh.report n m a).1.opts = n.opts ∧ (sh.report n m a).1.srv = n.srv := by
  rw [Impl.report]
  split
  · exact ⟨rfl, rfl⟩
  · split <;> exact ⟨rfl, rfl⟩

/-- After `EnsureUp`, a method changes `lastErr` and nothing else. -/
theorem Impl.rest_fields (n : Entry σ) (m : Method) (a : Answers) :
    (sh.rest c decode n m a).1.opts = n.opts ∧ (sh.rest c decode n m a).1.srv = n.srv := by
  cases m with
  | ensureUp => exact ⟨rfl, rfl⟩
  | dial | meshExport => exact sh.onMesh_fields n _
  | peersJson | selfJson =>
    simp only [Impl.rest]
    split
    · exact ⟨(sh.report_fields _ _ _).1.trans (sh.report_fields _ _ _).1,
        (sh.report_fields _ _ _).2.trans (sh.report_fields _ _ _).2⟩
    · exact sh.report_fields n _ _

theorem Fits.same {b b' : MeshBackend} {n n' : Entry σ} (h : Fits sh o b (some n)) (hn : b'.node = b.node)
    (hu : b'.up = b.up) (hf : n'.opts = n.opts ∧ n'.srv = n.srv) : Fits sh o b' (some n') where
  missing := nofun
  node _ _ := hn ▸ h.node n rfl
  isUp := by
    rintro _ ⟨⟩
    rw [hf.1, hu]
    exact h.isUp n rfl
  srv := by
    rintro _ ⟨⟩
    rw [hf.2, hu]
    exact h.srv n rfl
  opts := by
    rintro _ ⟨⟩
    rw [hf.1, hu]
    exact h.opts n rfl

theorem Fits.calls {b b' : MeshBackend} {entry : Option (Entry σ)} (h : Fits sh o b entry) (hn : b'.node = b.node)
    (hu : b'.up = b.up) : Fits sh o b' entry := by
  cases entry with
  | none => exact ⟨fun _ => hn ▸ h.missing rfl, nofun, nofun, nofun, nofun⟩
  | some n => exact h.same hn hu ⟨rfl, rfl⟩

/-! ## Runs -/

structure Inv (sh : Impl σ) (o : MeshOptions) (s : State σ) : Prop where
  sys : Mesh.Sys.Inv o s.sys
  fits : Fits sh o s.sys.backend s.entry

/-- Of a method in flight, the node is there and up. -/
theorem Inv.up (h : Inv sh o s) {i : Nat} {m : Method} (hm : s.sys.inFlight[i]? = some m) :
    0 < s.sys.backend.node ∧ s.sys.backend.api ≠ none ∧
      ∃ n, s.entry = some n ∧ (sh.isUp n.opts && n.srv) = true := by
  have hup : s.sys.backend.up = true := h.sys.inFlight fun hf => by rw [hf] at hm; cases hm
  have hn : 0 < s.sys.backend.node := (h.sys.alive.isUp hup).1
  obtain ⟨n, he⟩ := h.fits.exists hn
  refine ⟨hn, h.sys.alive.api hn, n, he, ?_⟩
  rw [h.fits.isUp n he, hup, h.fits.srv n he hup]
  rfl

theorem call_backend {t t' : Sys} {m : Method} {out : Mesh.UpOutcome} (hs : t.step (.call m out) = some t') :
    t.destroyed = false ∧ t'.backend = ((Mesh.ensureUp out).exec t.backend).2 := by
  simp only [Sys.step] at hs
  split at hs
  case isTrue => cases hs
  case isFalse hd =>
    refine ⟨by simpa using hd, ?_⟩
    split at hs
    case h_1 hr | h_2 hr =>
      obtain rfl := Option.some.inj hs
      rw [hr]

/-- A step before the end keeps the invariant, and the last one leaves no method in flight. -/
theorem Inv.step (hl : sh.Lawful) (h : Inv sh o s) {e : Ev} (hs : s.step sh c decode e = some s') :
    s'.sys.destroyed = s.sys.destroyed ∧ Inv sh o s' ∨ s'.sys.destroyed = true ∧ s'.sys.inFlight = [] := by
  cases e with
  | call m activate handle a =>
    obtain ⟨t, ht, rfl⟩ := Option.map_eq_some_iff.mp hs
    have hb := (call_backend ht).2
    have hfits := h.fits.ensureUp decode hl h.sys.opts activate handle a
    rw [← hb] at hfits
    exact (h.sys.step ht).imp (fun hi => ⟨hi.1, hi.2, hfits⟩) fun hi => ⟨hi.1, hi.2.1⟩
  | resume i a =>
    obtain ⟨m, hm, hs⟩ := Option.bind_eq_some_iff.mp hs
    obtain ⟨t, ht, rfl⟩ := Option.map_eq_some_iff.mp hs
    obtain ⟨-, -, n, he, -⟩ := h.up hm
    have hb : t.backend = ((Mesh.resume m (s.rest sh c decode m a).2).exec s.sys.backend).2 := by
      simp only [Sys.step, hm] at ht
      rw [← Option.some.inj ht]
    obtain ⟨cs, hcs, -⟩ := Only.resume m (s.rest sh c decode m a).2 s.sys.backend
    rw [hcs] at hb
    have hfits : Fits sh o t.backend (s.rest sh c decode m a).1 := by
      rw [State.rest, he]
      have hn := h.fits
      rw [he] at hn
      exact hn.same (by rw [hb]) (by rw [hb]) (sh.rest_fields n m a)
    exact (h.sys.step ht).imp (fun hi => ⟨hi.1, hi.2, hfits⟩) fun hi => ⟨hi.1, hi.2.1⟩
  | unexport handle =>
    obtain ⟨t, ht, rfl⟩ := Option.map_eq_some_iff.mp hs
    have hb : t.backend = ((Mesh.unexport handle).exec s.sys.backend).2 := by
      simp only [Sys.step] at ht
      split at ht
      · cases ht
      · rw [← Option.some.inj ht]
    obtain ⟨cs, hcs, -⟩ := Only.unexport handle s.sys.backend
    rw [hcs] at hb
    have hfits : Fits sh o t.backend s.entry := h.fits.calls (by rw [hb]) (by rw [hb])
    exact (h.sys.step ht).imp (fun hi => ⟨hi.1, hi.2, hfits⟩) fun hi => ⟨hi.1, hi.2.1⟩
  | destroy =>
    obtain ⟨t, ht, rfl⟩ := Option.map_eq_some_iff.mp hs
    have hd : t.destroyed = true ∧ t.inFlight = [] := by
      simp only [Sys.step] at ht
      split at ht
      case isTrue => cases ht
      case isFalse hf =>
        rw [← Option.some.inj ht]
        exact ⟨rfl, by simpa using (not_or.mp hf).2⟩
    exact .inr hd

theorem step_destroyed (hd : s.sys.destroyed = true) (hf : s.sys.inFlight = []) (e : Ev) :
    s.step sh c decode e = none := by
  cases e with
  | resume i a => simp [State.step, hf]
  | _ => simp [State.step, Mesh.Sys.step_destroyed hd hf]

theorem inv_run (hl : sh.Lawful) {es : List Ev} (hr : Lts.Run (State.step sh c decode) (Errors.start o) es s) :
    s.sys.destroyed = false ∧ Inv sh o s ∨ s.sys.destroyed = true ∧ s.sys.inFlight = [] := by
  refine hr.inv (P := fun s => s.sys.destroyed = false ∧ Inv sh o s ∨ s.sys.destroyed = true ∧ s.sys.inFlight = [])
    (fun t e u ht hu => ?_) ?_
  · rcases ht with ⟨hd, hi⟩ | ⟨hd, hf⟩
    · exact (hi.step hl hu).imp_left fun h => ⟨h.1.trans hd, h.2⟩
    · rw [step_destroyed hd hf] at hu
      cases hu
  · exact .inl ⟨rfl, ⟨.new o, fun hp => absurd hp (Int.lt_irrefl 0), rfl, by simp [Errors.start, Sys.start]⟩,
      .start o⟩

/-! ## The exceptions of a run -/

theorem text_eq (n : Entry σ) : n.text decode = decode (told n.lastErr) := by
  rw [Entry.text, lastErrorText_eq]

theorem Inv.thrown_up (hl : sh.Lawful) (h : Inv sh o s) (m : Method) (activate : Except TunnelError Mesh.MeshApi)
    (handle : Int) (a : UpAnswers) : s.thrown sh c decode (.call m activate handle a) =
    if s.sys.backend.up then none
    else
      match activate with
      | .error e => some e
      | .ok _ =>
        if s.sys.backend.node ≤ 0 ∧ handle ≤ 0 then some (.io "Tunnel: could not allocate a mesh node.")
        else (sh.upError (sh.abi.configured o) a).map (failure decode) := by
  rw [State.thrown, failed_ensureUp]
  cases hu : s.sys.backend.up with
  | true => rfl
  | false =>
    rw [if_neg Bool.false_ne_true, if_neg Bool.false_ne_true]
    cases activate with
    | error e => rfl
    | ok api =>
      have hopts := h.fits.configured h.sys.opts hu
      have hdown : sh.isUp (s.node sh).opts = false := by
        rw [hopts]
        exact hl.configured o
      show (if _ then _ else if (sh.meshUp (s.node sh) a).2 = 0 then _ else
        some (TunnelError.io ("Tunnel: " ++ (sh.meshUp (s.node sh) a).1.text decode))) = _
      congr 1
      rw [← hopts]
      cases he : sh.upError (s.node sh).opts a with
      | none => rw [if_pos (hl.comes _ a hdown he).1, Option.map_none]
      | some text =>
        obtain ⟨hrc, htext, -⟩ := hl.fails _ a text hdown he
        rw [if_neg hrc, Option.map_some, text_eq, htext, failure]

variable (c decode) in
theorem Inv.thrown_resume (h : Inv sh o s) {i : Nat} {m : Method} (hm : s.sys.inFlight[i]? = some m) (a : Answers) :
    ∃ n, s.entry = some n ∧ (sh.isUp n.opts && n.srv) = true ∧ s.thrown sh c decode (.resume i a) =
      failed ((Mesh.resume m (sh.rest c decode n m a).2).exec s.sys.backend).1 := by
  obtain ⟨-, -, n, he, hup⟩ := h.up hm
  refine ⟨n, he, hup, ?_⟩
  rw [State.thrown, hm, Option.bind_eq_bind, Option.bind_some, State.rest, he]

variable (decode) in
/-- A call over the mesh throws what a library said in it. -/
theorem onMesh_up {n : Entry σ} (hup : (sh.isUp n.opts && n.srv) = true)
    (e : Option GoString) : (sh.onMesh n e).2 = (if e.isSome then 1 else 0) ∧
      ∀ text, e = some text → (sh.onMesh n e).1.text decode = decode (told text) := by
  rw [Impl.onMesh, if_pos hup]
  refine ⟨rfl, ?_⟩
  rintro text rfl
  exact text_eq _

theorem Inv.thrown_dial (h : Inv sh o s) {i : Nat} {host : String} {port : Int}
    (hm : s.sys.inFlight[i]? = some (.dial host port)) (a : Answers) :
    s.thrown sh c decode (.resume i a) = (dialError sh.name host port a).map (failure decode) := by
  obtain ⟨hn, hapi, -⟩ := h.up hm
  obtain ⟨n, -, hup, ht⟩ := h.thrown_resume c decode hm a
  obtain ⟨hrc, htext⟩ := onMesh_up decode hup (dialError sh.name host port a)
  rw [ht]
  simp only [Mesh.resume, Mesh.issue, Impl.rest, hrc, Throws.exec_bind, Throws.exec_get, Throws.exec_modify]
  cases he : dialError sh.name host port a with
  | none => rfl
  | some text =>
    rw [he] at htext
    rw [htext text rfl]
    exact failed_throwLast hapi hn _ _

theorem Inv.thrown_meshExport (h : Inv sh o s) {i : Nat} {meshPort localPort : Int} {localHost : String}
    (hm : s.sys.inFlight[i]? = some (.meshExport meshPort localHost localPort)) (a : Answers) :
    s.thrown sh c decode (.resume i a) = (exportError sh.name meshPort a).map (failure decode) := by
  obtain ⟨hn, hapi, -⟩ := h.up hm
  obtain ⟨n, -, hup, ht⟩ := h.thrown_resume c decode hm a
  obtain ⟨hrc, htext⟩ := onMesh_up decode hup (exportError sh.name meshPort a)
  rw [ht]
  simp only [Mesh.resume, Mesh.issue, Impl.rest, hrc, Throws.exec_bind, Throws.exec_get, Throws.exec_modify]
  cases he : exportError sh.name meshPort a with
  | none => rfl
  | some text =>
    rw [he] at htext
    rw [htext text rfl]
    exact failed_throwLast hapi hn _ _

theorem report_error {n : Entry σ} (hup : (sh.isUp n.opts && n.srv) = true) {m : Method} {a : StatusAnswer}
    {e : GoString} (hs : sh.status m a = .error e) : sh.report n m a = ({ n with lastErr := e }, none) := by
  rw [Impl.report, hup, Bool.not_true, Bool.and_false, if_neg Bool.false_ne_true, hs]

theorem report_ok {n : Entry σ} (hup : (sh.isUp n.opts && n.srv) = true) {m : Method} {a : StatusAnswer} {v : Json}
    (hs : sh.status m a = .ok v) : sh.report n m a = (n, some v) := by
  rw [Impl.report, hup, Bool.not_true, Bool.and_false, if_neg Bool.false_ne_true, hs]

theorem jsonShim_rc_none {v : Json} (hm : c.marshal v = none) (buf : Mesh.JsonBuffer) :
    (Mesh.jsonShim c (some v) buf).1 = 1 := by
  have hp : Mesh.payload c (some v) = none := hm
  rw [Mesh.jsonShim_failed buf hp]

/-- The return code of a JSON call. -/
theorem jsonShim_rc {v : Json} {text : String} (hm : c.marshal v = some text) (buf : Mesh.JsonBuffer) :
    (Mesh.jsonShim c (some v) buf).1 = if Mesh.needs text ≤ buf.data.length then 0 else 2 := by
  have hp : Mesh.payload c (some v) = some text := hm
  split
  case isTrue h => rw [Mesh.jsonShim_fits buf hp h]
  case isFalse h => rw [Mesh.jsonShim_small buf hp (by omega)]

/-- A JSON call whose buffer is too small, and what the second one is answered. -/
theorem jsonReply_again {v : Json} {text : String} {size : Nat} (hm : c.marshal v = some text)
    (hlt : size < Mesh.needs text) (second : Option Json) (errmsg : String) :
    let r := Mesh.jsonReply c size (some v) second errmsg
    r.rc = 2 ∧ r.need = Mesh.needs text ∧
      ∃ buf : Mesh.JsonBuffer, buf.data.length = Mesh.needs text ∧ r.rc₂ = (Mesh.jsonShim c second buf).1 := by
  have hp : Mesh.payload c (some v) = some text := hm
  have hs := Mesh.jsonShim_small ⟨List.replicate size 0, 0⟩ hp (by simpa using hlt)
  simp only [Mesh.jsonReply, hs]
  refine ⟨trivial, trivial, _, ?_, rfl⟩
  simp only [List.length_append, List.length_replicate]
  omega

variable (c decode) in
theorem failed_json {n : Entry σ} (hup : (sh.isUp n.opts && n.srv) = true) {m : Method}
    (hj : m = .peersJson ∨ m = .selfJson) (a : Answers) {b : MeshBackend} (ha : b.api ≠ none) (hn : 0 < b.node)
    (call : Int → Nat → ShimCall) :
    failed ((Mesh.jsonCall call (jsonSize m) (jsonWhat m) (sh.rest c decode n m a).2).exec b).1 =
      sh.jsonThrown c decode m a n.lastErr := by
  have hrest : (sh.rest c decode n m a).2 =
      let first := sh.report n m a.first
      let second := sh.report first.1 m a.second
      let r := Mesh.jsonReply c (jsonSize m) first.2 second.2 ""
      let n' := if r.rc = 2 ∧ jsonSize m < r.need ∧ r.need ≤ Mesh.maxMeshJson then second.1 else first.1
      { r with errmsg := n'.text decode } := by
    obtain rfl | rfl := hj <;> rfl
  have hthrown : ∀ n : Entry σ,
      some (TunnelError.io ("Tunnel: " ++ n.text decode)) = some (failure decode n.lastErr) := by
    intro n
    rw [text_eq]
    rfl
  rw [failed_jsonCall ha hn, hrest, Impl.jsonThrown]
  cases hs : sh.status m a.first with
  | error e =>
    -- the first call fails, with return code 1
    simp only [report_error hup hs]
    exact hthrown _
  | ok v =>
    simp only [report_ok hup hs]
    cases hm : c.marshal v with
    | none =>
      have hrc : ∀ second : Option Json, (Mesh.jsonReply c (jsonSize m) (some v) second "").rc = 1 :=
        fun _ => jsonShim_rc_none hm _
      simp only [hrc]
      exact hthrown _
    | some text =>
      by_cases hfit : Mesh.needs text ≤ jsonSize m
      · have hrc : ∀ second : Option Json, (Mesh.jsonReply c (jsonSize m) (some v) second "").rc = 0 :=
          fun _ => (jsonShim_rc hm _).trans (if_pos (by simpa using hfit))
        simp only [hrc, if_pos hfit]
        rfl
      have hlt : jsonSize m < Mesh.needs text := by omega
      have hagain := fun second : Option Json => jsonReply_again hm hlt second ""
      simp only [(hagain _).1, (hagain _).2.1, hlt, and_self, if_true, if_neg hfit]
      by_cases hbig : Mesh.maxMeshJson < Mesh.needs text
      · rw [if_pos hbig, if_pos hbig]
      rw [if_neg hbig, if_neg hbig]
      simp only [Nat.le_of_not_lt hbig, and_self, if_true]
      cases hs₂ : sh.status m a.second with
      | error e =>
        obtain ⟨-, -, buf, -, hrc₂⟩ := hagain none
        simp only [report_error hup hs₂, hrc₂]
        exact hthrown _
      | ok v₂ =>
        obtain ⟨-, -, buf, hlen, hrc₂⟩ := hagain (some v₂)
        simp only [report_ok hup hs₂, hrc₂]
        cases hm₂ : c.marshal v₂ with
        | none =>
          rw [jsonShim_rc_none hm₂]
          exact hthrown _
        | some text₂ =>
          rw [jsonShim_rc hm₂, hlen]
          by_cases hfit₂ : Mesh.needs text₂ ≤ Mesh.needs text
          · simp only [if_pos hfit₂]
            rfl
          · simp only [if_neg hfit₂]
            exact hthrown _

theorem Inv.thrown_json (h : Inv sh o s) {i : Nat} {m : Method} (hm : s.sys.inFlight[i]? = some m)
    (hj : m = .peersJson ∨ m = .selfJson) (a : Answers) {n : Entry σ} (he : s.entry = some n) :
    s.thrown sh c decode (.resume i a) = sh.jsonThrown c decode m a n.lastErr := by
  obtain ⟨hn, hapi, -⟩ := h.up hm
  obtain ⟨n', he', hup, ht⟩ := h.thrown_resume c decode hm a
  obtain rfl : n = n' := Option.some.inj (he.symm.trans he')
  have hf := failed_json c decode hup hj a hapi hn
  rw [ht]
  obtain rfl | rfl := hj
  · exact hf .peersJson
  · exact hf .selfJson

theorem Inv.told (hl : sh.Lawful) (h : Inv sh o s) : Told sh c decode o s where
  up _ := h.thrown_up hl
  dial _ _ _ a hm := h.thrown_dial hm a
  meshExport _ _ _ _ a hm := h.thrown_meshExport hm a
  json _ _ a _ hm hj he := h.thrown_json hm hj a he

theorem told_run (hl : sh.Lawful) {es : List Ev} (hr : Lts.Run (State.step sh c decode) (Errors.start o) es s) :
    Told sh c decode o s := by
  obtain ⟨-, hi⟩ | ⟨hd, hf⟩ := inv_run hl hr
  · exact hi.told hl
  · -- nothing is called of a backend that is destroyed
    have hnone : ∀ {i : Nat} {m : Method}, s.sys.inFlight[i]? ≠ some m := by
      intro i m hm
      rw [hf] at hm
      cases hm
    refine ⟨fun h => ?_, fun _ _ _ _ hm => absurd hm hnone, fun _ _ _ _ _ hm => absurd hm hnone,
      fun _ _ _ _ hm => absurd hm hnone⟩
    rw [hd] at h
    cases h

end

/-- In every run of a backend, over either shim and on any number of threads, a
method throws the text of its own failure. -/
theorem errors_told (c : Codec) (decode : GoString → String) (o : MeshOptions) (es : List Ev) :
    (∀ s, Lts.Run (State.step tsImpl c decode) (start o) es s → Told tsImpl c decode o s) ∧
    ∀ s, Lts.Run (State.step nbImpl c decode) (start o) es s → Told nbImpl c decode o s :=
  ⟨fun _ hr => told_run tsImpl_lawful hr, fun _ hr => told_run nbImpl_lawful hr⟩

/-- Every byte a character. -/
def latin1 (text : GoString) : String := String.ofList (text.map Char.ofUInt8)

/-- A service that is not there. -/
def noRoute : Answers :=
  ⟨.ok (), 1, .ok (), .error (lit "no route"), 5, ⟨.arr [], none⟩, ⟨.arr [], none⟩⟩

/-- A node that comes up at the second attempt, and cannot listen. -/
def secondAttemptThenListen : List Ev :=
  [.call .ensureUp (.ok .null) 7 { answered with up := .error (lit "no control server") },
    .call (.meshExport 80 "" 8080) (.ok .null) 7 answered,
    .resume 0 { noRoute with listen := .error (lit "in use") },
    .call (.dial "db" 5432) (.ok .null) 7 answered]

theorem errors_told_dial : ∃ s,
    Lts.Run (State.step tsImpl Mesh.peersCodec latin1) (start tailnet.options) secondAttemptThenListen s ∧
    s.thrown tsImpl Mesh.peersCodec latin1 (.resume 0 noRoute) =
      some (.io "Tunnel: Tailscale: dial db:5432 failed: no route") := by
  refine ⟨_, rfl, ?_⟩
  rw [((errors_told Mesh.peersCodec latin1 tailnet.options secondAttemptThenListen).1 _ rfl).dial 0 "db" 5432 noRoute
    rfl]
  decide

end Errors

end ErplTunnel.Shim

import ErplTunnel.Framework.Trace
import ErplTunnel.Mesh.Backend

/-!
# The discipline of the mesh backend

What a backend calls of the shim, over every sequence of methods on any number
of threads and whatever the shim returns: one node, its options before it is
brought up, no `mesh_up` after one that succeeded, nothing on the mesh before,
and one `mesh_close` at the end (`bring_up_discipline`).

`Allowed` says what a call needs of the calls before it, and `Alive` what the
fields of the backend say about its calls. `ensureUp_cases` and `resume_calls`
are all that the proofs use of the methods.
-/

namespace ErplTunnel.Mesh

/-- The nodes `mesh_new` allocated. -/
def allocated (cs : List ShimCall) : List Int :=
  cs.filterMap fun
    | .new n => if 0 < n then some n else none
    | _ => none

/-- The nodes `mesh_close` was called on. -/
def closed (cs : List ShimCall) : List Int :=
  cs.filterMap fun
    | .close n => some n
    | _ => none

/-- The node of a call that goes over the mesh. -/
def ShimCall.onMesh : ShimCall → Option Int
  | .dial n _ _ | .meshExport n _ _ _ | .peersJson n _ | .selfJson n _ => some n
  | _ => none

/-- What a call needs of the calls before it. -/
def Allowed (opts : MeshOptions) (cs : List ShimCall) : ShimCall → Prop
  | .new _ => allocated cs = [] ∧ ∀ n rc, .up n rc ∉ cs
  | .up n _ => allocated cs = [n] ∧ (∀ c ∈ optionCalls opts n, c ∈ cs) ∧ ∀ n', .up n' 0 ∉ cs
  | .dial n _ _ | .meshExport n _ _ _ | .peersJson n _ | .selfJson n _ => .up n 0 ∈ cs
  | _ => True

theorem allocated_append (cs ds : List ShimCall) :
    allocated (cs ++ ds) = allocated cs ++ allocated ds := List.filterMap_append

theorem mem_allocated {cs : List ShimCall} {n : Int} : n ∈ allocated cs ↔ .new n ∈ cs ∧ 0 < n := by
  simp only [allocated, List.mem_filterMap]
  constructor
  · rintro ⟨c, hc, h⟩
    cases c with
    | new k =>
      simp only [Option.ite_none_right_eq_some, Option.some.injEq] at h
      obtain ⟨hp, rfl⟩ := h
      exact ⟨hc, hp⟩
    | _ => cases h
  · rintro ⟨hc, hp⟩
    exact ⟨.new n, hc, if_pos hp⟩

theorem closed_append (cs ds : List ShimCall) : closed (cs ++ ds) = closed cs ++ closed ds :=
  List.filterMap_append

/-- A call that neither allocates, nor brings up, nor closes. -/
def ShimCall.Plain : ShimCall → Prop
  | .new _ | .up _ _ | .close _ => False
  | _ => True

/-- Such a call needs the node to be up, where it goes over the mesh. -/
theorem ShimCall.Plain.allowed {opts : MeshOptions} {cs : List ShimCall} {c : ShimCall} (hp : c.Plain)
    (h : ∀ n, c.onMesh = some n → .up n 0 ∈ cs) : Allowed opts cs c := by
  cases c with
  | new | up => exact hp.elim
  | dial n | meshExport n | peersJson n | selfJson n => exact h n rfl
  | _ => trivial

theorem ShimCall.Plain.allocated {c : ShimCall} (h : c.Plain) : allocated [c] = [] := by
  cases c <;> first | rfl | cases h

theorem ShimCall.Plain.closed {c : ShimCall} (h : c.Plain) : closed [c] = [] := by
  cases c <;> first | rfl | cases h

theorem plain_of_mem_optionCalls {o : MeshOptions} {n : Int} {c : ShimCall}
    (h : c ∈ optionCalls o n) : c.Plain ∧ c.onMesh = none := by
  simp only [optionCalls, List.mem_append, List.mem_map, List.mem_singleton] at h
  rcases h with ⟨kv, -, rfl⟩ | rfl <;> exact ⟨trivial, rfl⟩

/-- What the fields of a backend say about its calls. -/
structure Alive (b : MeshBackend) : Prop where
  each : Trace.Each (Allowed b.opts) b.calls
  node : allocated b.calls = if 0 < b.node then [b.node] else []
  api : 0 < b.node → b.api ≠ none
  noUp : ¬ 0 < b.node → ∀ n rc, .up n rc ∉ b.calls
  down : b.up = false → ∀ n, .up n 0 ∉ b.calls
  isUp : b.up = true → 0 < b.node ∧ .up b.node 0 ∈ b.calls
  notClosed : closed b.calls = []

/-- A node that was allocated has its options. -/
def Optioned (b : MeshBackend) : Prop :=
  0 < b.node → ∀ c ∈ optionCalls b.opts b.node, c ∈ b.calls

namespace Alive

variable {b : MeshBackend}

theorem new (opts : MeshOptions) : Alive (.new opts) where
  each := Trace.each_nil
  node := rfl
  api h := absurd h (Int.lt_irrefl 0)
  noUp _ _ _ := List.not_mem_nil
  down _ _ := List.not_mem_nil
  isUp h := by cases h
  notClosed := rfl

/-- One more call that changes nothing. -/
theorem push (h : Alive b) {c : ShimCall} (hp : c.Plain) (ha : Allowed b.opts b.calls c) :
    Alive { b with calls := b.calls ++ [c] } where
  each := Trace.each_snoc.mpr ⟨h.each, ha⟩
  node := by rw [allocated_append, hp.allocated, List.append_nil]; exact h.node
  api := h.api
  noUp hn n rc hm := by
    rcases List.mem_append.mp hm with hm | hm
    · exact h.noUp hn n rc hm
    · rw [List.mem_singleton] at hm; subst hm; exact hp
  down hu n hm := by
    rcases List.mem_append.mp hm with hm | hm
    · exact h.down hu n hm
    · rw [List.mem_singleton] at hm; subst hm; exact hp
  isUp hu := ⟨(h.isUp hu).1, List.mem_append_left _ (h.isUp hu).2⟩
  notClosed := by rw [closed_append, hp.closed, List.append_nil]; exact h.notClosed

/-- Several of them, over the mesh only once the node is up. -/
theorem pushAll (h : Alive b) {cs : List ShimCall} (hp : ∀ c ∈ cs, c.Plain)
    (ha : ∀ c ∈ cs, ∀ n, c.onMesh = some n → .up n 0 ∈ b.calls) :
    Alive { b with calls := b.calls ++ cs } := by
  induction cs generalizing b with
  | nil => simpa using h
  | cons c cs ih =>
    have hc : Allowed b.opts b.calls c := (hp c List.mem_cons_self).allowed (ha c List.mem_cons_self)
    have h' := ih (h.push (hp c List.mem_cons_self) hc) (fun d hd => hp d (List.mem_cons_of_mem _ hd))
      fun d hd n hn => List.mem_append_left _ (ha d (List.mem_cons_of_mem _ hd) n hn)
    simpa using h'

/-- `mesh_new`, which is called when there is no node. -/
theorem newCall (h : Alive b) (hn : ¬ 0 < b.node) (api : MeshApi) (n : Int) :
    Alive { b with api := some api, node := n, calls := b.calls ++ [.new n] } where
  each := Trace.each_snoc.mpr ⟨h.each, by rw [h.node, if_neg hn], h.noUp hn⟩
  node := by
    rw [allocated_append, h.node, if_neg hn, List.nil_append]
    by_cases hp : 0 < n <;> simp [allocated, hp]
  api _ := by simp
  noUp _ n' rc hm := h.noUp hn n' rc (by simpa using hm)
  down hd n' hm := h.down hd n' (by simpa using hm)
  isUp hu := absurd (h.isUp hu).1 hn
  notClosed := by rw [closed_append, h.notClosed]; rfl

/-- `mesh_up`, which is called when the node is not up. -/
theorem upCall (h : Alive b) (ho : Optioned b) (hn : 0 < b.node) (hu : b.up = false) (rc : Int) :
    Alive { b with calls := b.calls ++ [.up b.node rc], up := decide (rc = 0) } where
  each := Trace.each_snoc.mpr ⟨h.each, by rw [h.node, if_pos hn], ho hn, h.down hu⟩
  node := by rw [allocated_append, h.node]; exact List.append_nil _
  api := h.api
  noUp hp := absurd hn hp
  down hd n hm := by
    rcases List.mem_append.mp hm with hm | hm
    · exact h.down hu n hm
    · simp only [List.mem_singleton, ShimCall.up.injEq] at hm
      exact of_decide_eq_false hd hm.2.symm
  isUp hd := ⟨hn, by simp [of_decide_eq_true hd]⟩
  notClosed := by rw [closed_append, h.notClosed]; rfl

end Alive

/-- What `EnsureUp` does: nothing when the node is up or the shim is not to be
had; `mesh_new` that fails; or `mesh_up` on the node, allocated before (`b'`)
or by this call. -/
theorem ensureUp_cases (o : UpOutcome) (b : MeshBackend) :
    (b.up = true ∧ (ensureUp o).exec b = (.ok (), b)) ∨
    (b.up = false ∧ ∃ e, (ensureUp o).exec b = (.error e, b)) ∨
    (b.up = false ∧ ¬ 0 < b.node ∧ ¬ 0 < o.node ∧ ∃ e api, (ensureUp o).exec b =
      (.error e, { b with api := some api, node := o.node, calls := b.calls ++ [.new o.node] })) ∨
    b.up = false ∧ ∃ api b',
      (0 < b.node ∧ b' = { b with api := some api } ∨
        ¬ 0 < b.node ∧ 0 < o.node ∧ b' = { b with
          api := some api, node := o.node
          calls := b.calls ++ [.new o.node] ++ optionCalls b.opts o.node }) ∧
      (o.rc = 0 ∧ (ensureUp o).exec b = (.ok (), { b' with
          calls := b'.calls ++ [.up b'.node o.rc], up := true }) ∨
        o.rc ≠ 0 ∧ ∃ e, (ensureUp o).exec b = (.error e, { b' with
          calls := b'.calls ++ [.up b'.node o.rc] ++ [.errmsg b'.node] })) := by
  by_cases hu : b.up = true
  · exact .inl ⟨hu, by simp [ensureUp, hu]⟩
  have hu : b.up = false := by simpa using hu
  cases ha : o.activate with
  | error e => exact .inr (.inl ⟨hu, e, by simp [ensureUp, hu, ha]⟩)
  | ok api =>
    by_cases hn : 0 < b.node
    · refine .inr (.inr (.inr ⟨hu, api, _, .inl ⟨hn, rfl⟩, ?_⟩))
      have hle : ¬ b.node ≤ 0 := by omega
      by_cases hr : o.rc = 0
      · exact .inl ⟨hr, by simp [ensureUp, issue, hu, ha, hle, hr]⟩
      · exact .inr ⟨hr, _, by simp [ensureUp, issue, lastError, hu, ha, hle, hr]; rfl⟩
    · have hle : b.node ≤ 0 := by omega
      by_cases ho : 0 < o.node
      · refine .inr (.inr (.inr ⟨hu, api, _, .inr ⟨hn, ho, rfl⟩, ?_⟩))
        have hle' : ¬ o.node ≤ 0 := by omega
        by_cases hr : o.rc = 0
        · exact .inl ⟨hr, by simp [ensureUp, issue, setOptions, hu, ha, hle, hle', hr]⟩
        · exact .inr ⟨hr, _, by simp [ensureUp, issue, setOptions, lastError, hu, ha, hle, hle', hr]; rfl⟩
      · have hle' : o.node ≤ 0 := by omega
        exact .inr (.inr (.inl ⟨hu, hn, ho, _, api, by simp [ensureUp, issue, hu, ha, hle, hle']; rfl⟩))

/-- `EnsureUp` keeps what the fields say, and leaves the node up if it
returns. -/
theorem Alive.ensureUp {b : MeshBackend} (h : Alive b) (ho : Optioned b) (o : UpOutcome) :
    let r := (ensureUp o).exec b
    Alive r.2 ∧ Optioned r.2 ∧ r.2.opts = b.opts ∧ (b.up = true → r.2.up = true) ∧
      (r.1 = .ok () → r.2.up = true) := by
  obtain ⟨hu, hr⟩ | ⟨hu, e, hr⟩ | ⟨hu, hn, hf, e, api, hr⟩ | ⟨hu, api, b', hb', hr⟩ :=
    ensureUp_cases o b
  · rw [hr]
    exact ⟨h, ho, rfl, id, fun _ => hu⟩
  · rw [hr]
    exact ⟨h, ho, rfl, id, by simp⟩
  · rw [hr]
    exact ⟨h.newCall hn api o.node, fun hp => absurd hp hf, rfl, id, by simp⟩
  -- `b'` has a node with its options, and `mesh_up` is next
  have hb : Alive b' ∧ Optioned b' ∧ 0 < b'.node ∧ b'.up = false ∧ b'.opts = b.opts := by
    obtain ⟨hn, rfl⟩ | ⟨hn, hp, rfl⟩ := hb'
    · exact ⟨{ h with api := fun _ => by simp }, ho, hn, hu, rfl⟩
    · refine ⟨(h.newCall hn api o.node).pushAll (fun c hc => (plain_of_mem_optionCalls hc).1) ?_,
        fun _ c hc => List.mem_append_right _ hc, hp, hu, rfl⟩
      intro c hc n hm
      rw [(plain_of_mem_optionCalls hc).2] at hm
      cases hm
  obtain ⟨ha, ho', hn, hu', hopt⟩ := hb
  have hup := ha.upCall ho' hn hu' o.rc
  obtain ⟨hrc, hr⟩ | ⟨hrc, e, hr⟩ := hr
  · rw [hr]
    rw [decide_eq_true hrc] at hup
    exact ⟨hup, fun hp c hc => List.mem_append_left _ (ho' hp c hc), hopt, fun _ => rfl, fun _ => rfl⟩
  · rw [hr]
    rw [decide_eq_false hrc, ← hu'] at hup
    refine ⟨hup.push trivial trivial, fun hp c hc => ?_, hopt, fun hc => ?_, by simp⟩
    · exact List.mem_append_left _ (List.mem_append_left _ (ho' hp c hc))
    · rw [hu] at hc; cases hc

/-- A part of a method that does nothing but call the shim, over the mesh only
on the node `n`. -/
def Talks {α : Type} (n : Int) (x : BackendM α) : Prop :=
  ∀ b : MeshBackend, b.node = n → ∃ cs, (x.exec b).2 = { b with calls := b.calls ++ cs } ∧
    ∀ c ∈ cs, c.Plain ∧ ∀ k, c.onMesh = some k → k = n

namespace Talks

variable {α β : Type} {n : Int}

theorem pure (a : α) : Talks n (pure a : BackendM α) := fun _ _ => ⟨[], by simp, by simp⟩

theorem throw (e : TunnelError) : Talks n (throw e : BackendM α) := fun _ _ => ⟨[], by simp, by simp⟩

theorem issue {c : ShimCall} (hp : c.Plain) (hm : ∀ k, c.onMesh = some k → k = n) : Talks n (issue c) :=
  fun _ _ => ⟨[c], rfl, by simpa using ⟨hp, hm⟩⟩

theorem bind {x : BackendM α} {f : α → BackendM β} (hx : Talks n x) (hf : ∀ a, Talks n (f a)) :
    Talks n (x >>= f) := by
  intro b hb
  obtain ⟨cs, he, hcs⟩ := hx b hb
  rw [Throws.exec_bind]
  rcases hxb : x.exec b with ⟨e | a, b'⟩
  all_goals rw [hxb] at he; subst he
  · exact ⟨cs, rfl, hcs⟩
  · obtain ⟨ds, he', hds⟩ := hf a { b with calls := b.calls ++ cs } hb
    refine ⟨cs ++ ds, by simp [he'], fun c hc => ?_⟩
    exact (List.mem_append.mp hc).elim (hcs c) (hds c)

theorem get {f : MeshBackend → BackendM α} (hf : ∀ b : MeshBackend, b.node = n → Talks n (f b)) :
    Talks n (get >>= f) := fun b hb => by
  obtain ⟨cs, he, hcs⟩ := hf b hb b hb
  exact ⟨cs, by simpa using he, hcs⟩

theorem throwLast (text : String) : Talks n (throwLast text) := by
  refine .bind (.get fun b hb => ?_) fun _ => .throw _
  split
  · exact .pure _
  · exact .bind (.issue trivial (by simp [ShimCall.onMesh])) fun _ => .pure _

theorem jsonAnswer (rc : Int) (r : Reply) : Talks n (jsonAnswer rc r) := by
  unfold Mesh.jsonAnswer
  split
  · exact throwLast _
  · exact .pure _

theorem jsonCall {f : Int → Nat → ShimCall} (hp : ∀ n k, (f n k).Plain)
    (hm : ∀ n k, (f n k).onMesh = some n) (size : Nat) (what : String) (r : Reply) :
    Talks n (jsonCall f size what r) := by
  have onNode : ∀ {b : MeshBackend} {k : Nat}, b.node = n → Talks n (Mesh.issue (f b.node k)) :=
    fun hb => .issue (hp _ _) (by simp [hm, hb])
  refine .get fun b hb => .bind (onNode hb) fun _ => ?_
  split
  · split
    · exact .throw _
    · exact .bind (onNode hb) fun _ => jsonAnswer _ _
  · exact jsonAnswer _ _

/-- The rest of a method. -/
theorem resume (m : Method) (r : Reply) : Talks n (resume m r) := by
  cases m with
  | ensureUp => exact .pure _
  | dial host port =>
    refine .get fun b hb => .bind (.issue trivial (by simp [ShimCall.onMesh, hb])) fun _ => ?_
    split
    · split
      · exact throwLast _
      · exact .pure _
    · exact throwLast _
  | meshExport meshPort localHost localPort =>
    refine .get fun b hb => .bind (.issue trivial (by simp [ShimCall.onMesh, hb])) fun _ => ?_
    split
    · exact throwLast _
    · exact .pure _
  | peersJson => exact jsonCall (f := .peersJson) (fun _ _ => trivial) (fun _ _ => rfl) _ _ _
  | selfJson => exact jsonCall (f := .selfJson) (fun _ _ => trivial) (fun _ _ => rfl) _ _ _

end Talks

/-! ## Whole runs -/

/-- What a backend's calls of the shim keep to. -/
structure Disciplined (opts : MeshOptions) (s : Sys) : Prop where
  /-- `mesh_new` succeeds at most once. -/
  oneNode : (allocated s.backend.calls).length ≤ 1
  /-- The options are set before any `mesh_up`. -/
  optionsFirst : ∀ cs n rc ds, s.backend.calls = cs ++ .up n rc :: ds →
    ∀ c ∈ optionCalls opts n, c ∈ cs
  /-- After a `mesh_up` that succeeded there is none. -/
  upOnce : ∀ cs n ds, s.backend.calls = cs ++ .up n 0 :: ds → ∀ n' rc, .up n' rc ∉ ds
  /-- After a `mesh_up`, whatever it returned, no node is allocated, and the
  next one is on the same node, which was allocated before. -/
  sameNode : ∀ cs n rc ds, s.backend.calls = cs ++ .up n rc :: ds →
    allocated cs = [n] ∧ (∀ k, .new k ∉ ds) ∧ ∀ n' rc', .up n' rc' ∈ ds → n' = n
  /-- What goes over the mesh is called on a node that is up. -/
  onUpNode : ∀ cs c ds n, s.backend.calls = cs ++ c :: ds → c.onMesh = some n → .up n 0 ∈ cs
  /-- `mesh_close` is called by the destructor, once, on the node if there is
  one, and on nothing else. -/
  closedOnce : closed s.backend.calls = if s.destroyed then allocated s.backend.calls else []

theorem disciplined {opts : MeshOptions} {s : Sys} (he : Trace.Each (Allowed opts) s.backend.calls)
    (h1 : (allocated s.backend.calls).length ≤ 1)
    (hc : closed s.backend.calls = if s.destroyed then allocated s.backend.calls else []) :
    Disciplined opts s where
  oneNode := h1
  optionsFirst cs n rc ds heq := (he cs (.up n rc) ds heq).2.1
  upOnce cs n ds heq n' rc hm := by
    obtain ⟨l, hl, -, hok⟩ := he.later heq hm
    exact hok.2.2 n hl
  sameNode cs n rc ds heq := by
    have hn : allocated cs = [n] := (he cs (.up n rc) ds heq).1
    refine ⟨hn, fun k hm => ?_, fun n' rc' hm => ?_⟩
    · obtain ⟨l, hl, -, hok⟩ := he.later heq hm
      exact hok.2 n rc hl
    · -- both nodes are the one that was allocated
      obtain ⟨l, -, hcs, hok⟩ := he.later heq hm
      have hnew := mem_allocated.mp (by rw [hn]; exact List.mem_singleton_self n)
      have hl : n ∈ allocated l := mem_allocated.mpr ⟨hcs _ hnew.1, hnew.2⟩
      rw [hok.1, List.mem_singleton] at hl
      exact hl.symm
  onUpNode cs c ds n heq hm := by
    have hok := he cs c ds heq
    cases c with
    | dial | meshExport | peersJson | selfJson => cases hm; exact hok
    | _ => cases hm
  closedOnce := hc

namespace Sys

variable {opts : MeshOptions} {s s' : Sys}

/-- What holds of a backend and its threads until it is destroyed. -/
structure Inv (opts : MeshOptions) (s : Sys) : Prop where
  alive : Alive s.backend
  optioned : Optioned s.backend
  opts : s.backend.opts = opts
  /-- A method that is through `EnsureUp` finds the node up. -/
  inFlight : s.inFlight ≠ [] → s.backend.up = true

theorem Inv.disciplined (h : Inv opts s) (hd : s.destroyed = false) : Disciplined opts s := by
  refine Mesh.disciplined (h.opts ▸ h.alive.each) ?_ ?_
  · rw [h.alive.node]; split <;> simp
  · rw [hd]; exact h.alive.notClosed

/-- The part of a method after `EnsureUp` keeps it. -/
theorem Inv.resume (h : Inv opts s) (hu : s.backend.up = true) (m : Method) (r : Reply) (fs : List Method) :
    Inv opts { s with backend := ((resume m r).exec s.backend).2, inFlight := fs } := by
  obtain ⟨cs, he, hcs⟩ := Talks.resume m r s.backend rfl
  rw [he]
  refine ⟨h.alive.pushAll (fun c hc => (hcs c hc).1) fun c hc n hn => ?_,
    fun hp c hc => List.mem_append_left _ (h.optioned hp c hc), h.opts, fun _ => hu⟩
  rw [(hcs c hc).2 n hn]
  exact (h.alive.isUp hu).2

theorem Inv.unexport (h : Inv opts s) (handle : Int) :
    Inv opts { s with backend := ((unexport handle).exec s.backend).2 } := by
  by_cases hc : s.backend.api ≠ none ∧ 0 < s.backend.node ∧ handle ≠ 0
  · have he : ((Mesh.unexport handle).exec s.backend).2 =
        { s.backend with calls := s.backend.calls ++ [.meshUnexport s.backend.node handle] } := by
      simp [Mesh.unexport, issue, hc]
    rw [he]
    exact ⟨h.alive.push trivial trivial, fun hp c hm => List.mem_append_left _ (h.optioned hp c hm),
      h.opts, h.inFlight⟩
  · have he : ((Mesh.unexport handle).exec s.backend).2 = s.backend := by
      simp only [Mesh.unexport, Throws.exec_bind, Throws.exec_get, hc, ↓reduceIte, Throws.exec_pure]
    rw [he]
    exact ⟨h.alive, h.optioned, h.opts, h.inFlight⟩

/-- The destructor closes the node, if there is one. -/
theorem Inv.destroy (h : Inv opts s) :
    Disciplined opts { s with backend := (destroy.exec s.backend).2, destroyed := true } := by
  by_cases hn : 0 < s.backend.node
  · have he : (Mesh.destroy.exec s.backend).2 =
        { s.backend with node := 0, calls := s.backend.calls ++ [.close s.backend.node] } := by
      simp [Mesh.destroy, issue, h.alive.api hn, hn]
    have hone : allocated (s.backend.calls ++ [.close s.backend.node]) = [s.backend.node] := by
      rw [allocated_append, h.alive.node, if_pos hn]; rfl
    rw [he]
    refine Mesh.disciplined (Trace.each_snoc.mpr ⟨h.opts ▸ h.alive.each, trivial⟩) ?_ ?_
    · rw [hone]; exact Nat.le_refl 1
    · show closed _ = allocated _
      rw [hone, closed_append, h.alive.notClosed]; rfl
  · have he : (Mesh.destroy.exec s.backend).2 = s.backend := by
      simp [Mesh.destroy, hn]
    have hnone : allocated s.backend.calls = [] := by rw [h.alive.node, if_neg hn]
    rw [he]
    refine Mesh.disciplined (h.opts ▸ h.alive.each) ?_ ?_
    · rw [hnone]; exact Nat.zero_le 1
    · show closed _ = allocated _
      rw [hnone, h.alive.notClosed]

/-- A step before the end keeps it, and the last one leaves the calls in order. -/
theorem Inv.step (h : Inv opts s) {e : Ev} (hs : s.step e = some s') :
    s'.destroyed = s.destroyed ∧ Inv opts s' ∨
      s'.destroyed = true ∧ s'.inFlight = [] ∧ Disciplined opts s' := by
  cases e with
  | call m o =>
    obtain ⟨ha, ho, hopt, hup, hok⟩ := h.alive.ensureUp h.optioned o
    simp only [Sys.step] at hs
    split at hs
    · cases hs
    · split at hs
      · rename_i u b hr
        rw [hr] at ha ho hopt hup hok
        obtain rfl := Option.some.inj hs
        exact .inl ⟨rfl, ha, ho, hopt.trans h.opts, fun _ => hok rfl⟩
      · rename_i u b hr
        rw [hr] at ha ho hopt hup
        obtain rfl := Option.some.inj hs
        exact .inl ⟨rfl, ha, ho, hopt.trans h.opts, fun hf => hup (h.inFlight hf)⟩
  | resume i r =>
    simp only [Sys.step] at hs
    split at hs
    · rename_i m hm
      obtain rfl := Option.some.inj hs
      exact .inl ⟨rfl, h.resume (h.inFlight fun hf => by rw [hf] at hm; cases hm) m r _⟩
    · cases hs
  | unexport handle =>
    simp only [Sys.step] at hs
    split at hs
    · cases hs
    · obtain rfl := Option.some.inj hs
      exact .inl ⟨rfl, h.unexport handle⟩
  | destroy =>
    simp only [Sys.step] at hs
    split at hs
    · cases hs
    · rename_i hf
      obtain rfl := Option.some.inj hs
      exact .inr ⟨rfl, by simpa using (not_or.mp hf).2, h.destroy⟩

/-- Nothing happens to a backend that is destroyed. -/
theorem step_destroyed (hd : s.destroyed = true) (hf : s.inFlight = []) (e : Ev) : s.step e = none := by
  cases e <;> simp [Sys.step, hd, hf]

end Sys

/-- The backend's discipline, over every run of its methods by any threads,
whatever the shim returns. -/
theorem bring_up_discipline (opts : MeshOptions) (es : List Ev) (s : Sys)
    (h : Lts.Run Sys.step (.start opts) es s) : Disciplined opts s := by
  have hi : s.destroyed = false ∧ Sys.Inv opts s ∨
      s.destroyed = true ∧ s.inFlight = [] ∧ Disciplined opts s := by
    refine h.inv (P := fun s => s.destroyed = false ∧ Sys.Inv opts s ∨
      s.destroyed = true ∧ s.inFlight = [] ∧ Disciplined opts s) (fun t e u ht hu => ?_) ?_
    · rcases ht with ⟨hd, hi⟩ | ⟨hd, hf, -⟩
      · rcases hi.step hu with ⟨hd', hi'⟩ | hend
        · exact .inl ⟨hd'.trans hd, hi'⟩
        · exact .inr hend
      · rw [Sys.step_destroyed hd hf] at hu
        cases hu
    · exact .inl ⟨rfl, .new opts, fun hp => absurd hp (Int.lt_irrefl 0), rfl, by simp [Sys.start]⟩
  rcases hi with ⟨hd, hi⟩ | ⟨-, -, hdis⟩
  · exact hi.disciplined hd
  · exact hdis

/-- A Tailscale node by the name of `db`. -/
def dbOptions : MeshOptions :=
  { kind := .tailscale, authKey := "k", setupKey := "", hostname := "db", tags := "", groups := ""
    controlUrl := "", mgmtUrl := "", stateDir := "", ephemeral := true }

/-- The node is 7; it comes up at the second attempt, with two dials crossing,
and the backend is destroyed. -/
def secondAttempt : List Ev :=
  let up (rc : Int) : UpOutcome := ⟨.ok .null, 7, rc, "no control server"⟩
  let dialed : Reply := ⟨0, some 5, 0, 0, 0, "", ""⟩
  [.call (.dial "a" 80) (up 1), .call (.dial "a" 80) (up 0), .call (.dial "b" 80) (up 0),
    .resume 1 dialed, .resume 0 dialed, .destroy]

theorem secondAttempt_disciplined :
    ∃ s, Lts.Run Sys.step (.start dbOptions) secondAttempt s ∧
      s.backend.calls = [.new 7, .setStr 7 "auth_key" "k", .setStr 7 "hostname" "db",
        .setBool 7 "ephemeral" 1, .up 7 1, .errmsg 7, .up 7 0, .dial 7 "b" 80, .dial 7 "a" 80,
        .close 7] ∧ Disciplined dbOptions s :=
  ⟨_, rfl, by decide, bring_up_discipline dbOptions secondAttempt _ rfl⟩

end ErplTunnel.Mesh

import ErplTunnel.Import.Create

/-!
# Who owns the port

When an import that was created owns its port: its own socket listens at the
address and port it was created for. It does in the runs that keep clear of
three things (`Clear`): an SSH import's probe answered by another listener, an
SSH import's accept loop ending on an error, and a mesh import of a port that
does not fit in sixteen bits.
-/

namespace ErplTunnel.Import

namespace Call

variable {free : Endpoint → Bool} {answered : Nat → Bool} {c c' : Call} {e : CallEv}

/-- The steps of an import. -/
inductive Step (free : Endpoint → Bool) (answered : Nat → Bool) (c : Call) : CallEv → Call → Prop
  | connected (hpc : c.pc = .up) (hk : c.req.kind = .ssh) (hv : c.req.portValid = true) :
    Step free answered c (.up true) { c with pc := .auth }
  | meshUp (hpc : c.pc = .up) (hk : c.req.kind = .mesh) :
    Step free answered c (.up true) { c with pc := .opening, sock := .socket }
  | upFailed {ok : Bool} (hpc : c.pc = .up) : Step free answered c (.up ok) { c with pc := .closed }
  | authenticated (hpc : c.pc = .auth) : Step free answered c (.auth true) { c with pc := .startWorker }
  | authFailed (hpc : c.pc = .auth) : Step free answered c (.auth false) { c with pc := .closed }
  | startWorker (hpc : c.pc = .startWorker) :
    Step free answered c .startWorker { c with pc := .probe, running := true, sock := .socket }
  | socket (hs : c.sock = .socket) : Step free answered c (.socket true) { c with sock := .bind }
  | bound {p : Nat} (hs : c.sock = .bind) (hp : c.mayBind p = true) :
    Step free answered c (.bind (some p)) { c with sock := .listen p }
  | listening {p : Nat} (hs : c.sock = .listen p) (hf : free (c.req.bindAddr, p) = true) :
    Step free answered c (.listen true) (c.opened p)
  | openFailed {e : CallEv} (hs : c.sock = .socket ∨ c.sock = .bind ∨ ∃ p, c.sock = .listen p)
    (he : e = .socket false ∨ e = .bind none ∨ e = .listen false) : Step free answered c e c.openFailed
  | answered (hpc : c.pc = .probe) (ha : answered c.req.port = true) :
    Step free answered c (.probe true) { c with pc := .store }
  | refused (hpc : c.pc = .probe) : Step free answered c (.probe false) c
  | timeout (hpc : c.pc = .probe) : Step free answered c .timeout { c with pc := .closing, running := false }
  | store (hpc : c.pc = .store) : Step free answered c .store { c with pc := .returned }
  | loopError {p : Nat} (hs : c.sock = .listening p) (hk : c.req.kind = .ssh) :
    Step free answered c .loopError { c with sock := .ended }
  | loopContinue {p : Nat} (hs : c.sock = .listening p) (hk : c.req.kind = .mesh) :
    Step free answered c .loopError c
  | loopStop {p : Nat} (hs : c.sock = .listening p) (hk : c.req.kind = .ssh) (hr : c.running = false) :
    Step free answered c .loopStop { c with sock := .ended }
  | close (hpc : c.pc = .returned) : Step free answered c .close { c with pc := .closing, running := false }
  | joinedWorker (hpc : c.pc = .closing) (hk : c.req.kind = .ssh) (hs : c.sock = .ended) :
    Step free answered c .joined { c with pc := .closed }
  | joinedMesh (hpc : c.pc = .closing) (hk : c.req.kind = .mesh) :
    Step free answered c .joined { c with pc := .closed, sock := .ended }

theorem step_cases (h : c.step free answered e = some c') : Step free answered c e c' := by
  cases e with
  | up ok =>
    simp only [step] at h
    split at h
    · rename_i hpc
      split at h
      · rename_i hk
        obtain rfl := Option.some.inj h
        split
        · rename_i hv
          obtain ⟨rfl, hv⟩ := hv
          exact .connected hpc hk hv
        · exact .upFailed hpc
      · rename_i hk
        obtain rfl := Option.some.inj h
        cases ok
        · exact .upFailed hpc
        · exact .meshUp hpc hk
    · cases h
  | auth ok =>
    simp only [step] at h
    split at h
    · rename_i hpc
      obtain rfl := Option.some.inj h
      cases ok
      · exact .authFailed hpc
      · exact .authenticated hpc
    · cases h
  | startWorker =>
    simp only [step] at h
    split at h
    · rename_i hpc
      obtain rfl := Option.some.inj h
      exact .startWorker hpc
    · cases h
  | socket ok =>
    simp only [step] at h
    split at h
    · rename_i hs
      obtain rfl := Option.some.inj h
      cases ok
      · exact .openFailed (.inl hs) (.inl rfl)
      · exact .socket hs
    · cases h
  | bind port =>
    simp only [step] at h
    split at h
    · rename_i hs
      split at h
      · split at h
        · rename_i hp
          obtain rfl := Option.some.inj h
          exact .bound hs hp
        · cases h
      · obtain rfl := Option.some.inj h
        exact .openFailed (.inr (.inl hs)) (.inr (.inl rfl))
    · cases h
  | listen ok =>
    simp only [step] at h
    split at h
    · rename_i p hs
      cases ok with
      | false =>
        obtain rfl := Option.some.inj h
        exact .openFailed (.inr (.inr ⟨p, hs⟩)) (.inr (.inr rfl))
      | true =>
        simp only [if_true] at h
        split at h
        · rename_i hf
          obtain rfl := Option.some.inj h
          exact .listening hs hf
        · cases h
    · cases h
  | probe ok =>
    simp only [step] at h
    split at h
    · rename_i hpc
      cases ok with
      | false =>
        obtain rfl := Option.some.inj h
        exact .refused hpc.1
      | true =>
        simp only [if_true] at h
        split at h
        · rename_i ha
          obtain rfl := Option.some.inj h
          exact .answered hpc.1 ha
        · cases h
    · cases h
  | timeout =>
    simp only [step] at h
    split at h
    · rename_i hpc
      obtain rfl := Option.some.inj h
      exact .timeout hpc
    · cases h
  | store =>
    simp only [step] at h
    split at h
    · rename_i hpc
      obtain rfl := Option.some.inj h
      exact .store hpc
    · cases h
  | loopError =>
    simp only [step] at h
    split at h
    · rename_i hs hk
      obtain rfl := Option.some.inj h
      exact .loopError hs hk
    · rename_i hs hk
      obtain rfl := Option.some.inj h
      exact .loopContinue hs hk
    · cases h
  | loopStop =>
    simp only [step] at h
    split at h
    · rename_i hs hk
      split at h
      · cases h
      · rename_i hr
        obtain rfl := Option.some.inj h
        exact .loopStop hs hk (by simpa using hr)
    · cases h
  | close =>
    simp only [step] at h
    split at h
    · rename_i hpc
      obtain rfl := Option.some.inj h
      exact .close hpc
    · cases h
  | joined =>
    simp only [step] at h
    split at h
    · rename_i hpc
      split at h
      · rename_i hk
        split at h
        · rename_i hs
          obtain rfl := Option.some.inj h
          exact .joinedWorker hpc hk hs
        · cases h
      · rename_i hk
        obtain rfl := Option.some.inj h
        exact .joinedMesh hpc hk
    · cases h

/-- The socket listens at the address and port that were asked for. -/
def Owns (c : Call) : Prop := ∃ p : Nat, c.sock = .listening p ∧ (p : Int) = c.req.localPort

/-- The create has its id, or is about to. -/
def Created (c : Call) : Prop := c.pc = .store ∨ c.pc = .returned

/-- What holds of an import in a clear run. -/
structure Inv (c : Call) : Prop where
  /-- A port that does not fit gets no socket. -/
  valid : c.req.portValid = true ∨ (c.pc = .up ∨ c.pc = .closed) ∧ c.sock = .none
  bound : ∀ p, c.sock = .listen p ∨ c.sock = .listening p → p = c.req.port
  running : c.pc = .probe ∨ c.Created → c.running = true
  meshPc : c.req.kind = .mesh → c.pc ≠ .auth ∧ c.pc ≠ .startWorker
  mesh : c.req.kind = .mesh → c.pc = .probe → ∃ p, c.sock = .listening p
  created : c.Created → ∃ p, c.sock = .listening p

theorem inv_start (r : Request) : (start r).Inv where
  valid := .inr ⟨.inl rfl, rfl⟩
  bound := by simp [start]
  running := by simp [start, Created]
  meshPc := by simp [start]
  mesh := by simp [start]
  created := by simp [start, Created]

theorem Inv.portValid (h : c.Inv) (hs : c.sock ≠ .none) : c.req.portValid = true :=
  h.valid.resolve_right fun hv => hs hv.2

theorem port_ne_zero {r : Request} (h : r.portValid = true) : r.port ≠ 0 := by
  simp only [Request.portValid, decide_eq_true_eq] at h
  simp only [Request.port]
  omega

theorem Inv.owns (h : c.Inv) {p : Nat} (hs : c.sock = .listening p) : c.Owns := by
  refine ⟨p, hs, ?_⟩
  have hv := h.portValid (by simp [hs])
  rw [h.bound p (.inr hs)]
  simp only [Request.portValid, decide_eq_true_eq] at hv
  simp only [Request.port]
  omega

theorem Inv.openFailed (h : c.Inv) (hs : c.sock = .socket ∨ c.sock = .bind ∨ ∃ p, c.sock = .listen p) :
    c.openFailed.Inv := by
  have hn : ∀ p, c.sock ≠ .listening p := by
    rcases hs with hs | hs | ⟨q, hs⟩ <;> simp [hs]
  have hc : ¬ c.Created := fun hc => by
    obtain ⟨p, hp⟩ := h.created hc
    exact hn p hp
  have hv := h.portValid (by rcases hs with hs | hs | ⟨q, hs⟩ <;> simp [hs])
  unfold Call.openFailed
  split
  · rename_i hk
    exact { valid := .inl hv, bound := by simp, running := h.running, meshPc := h.meshPc,
            mesh := by simp [hk], created := fun h => absurd h hc }
  · exact { valid := .inl hv, bound := by simp, running := by simp [Created], meshPc := by simp,
            mesh := by simp, created := by simp [Created] }

theorem Inv.opened (h : c.Inv) {p : Nat} (hs : c.sock = .listen p) : (c.opened p).Inv := by
  have hv := h.portValid (by simp [hs])
  have hb := h.bound p (.inl hs)
  unfold Call.opened
  split
  · rename_i hk
    exact { valid := .inl hv, bound := by simpa using hb, running := h.running, meshPc := h.meshPc,
            mesh := by simp [hk], created := fun _ => ⟨p, rfl⟩ }
  · exact { valid := .inl hv, bound := by simpa using hb, running := by simp, meshPc := by simp,
            mesh := by simp, created := fun _ => ⟨p, rfl⟩ }

/-- A step keeps it, if the accept loop of an SSH import does not fail and an
answered probe found its socket listening. -/
theorem Inv.step (h : c.Inv) (hs : Step free answered c e c') (hm : c.req.kind = .mesh → c.req.portValid = true)
    (hl : e = .loopError → c.req.kind = .mesh) (hp : e = .probe true → ∃ p, c.sock = .listening p) : c'.Inv := by
  cases hs with
  | connected hpc hk hv =>
    exact { valid := .inl hv, bound := h.bound, running := by simp [Created], meshPc := by simp [hk],
            mesh := by simp, created := by simp [Created] }
  | meshUp hpc hk =>
    exact { valid := .inl (hm hk), bound := by simp, running := by simp [Created], meshPc := by simp,
            mesh := by simp, created := by simp [Created] }
  | upFailed hpc =>
    exact { valid := h.valid.imp_right fun hv => ⟨.inr rfl, hv.2⟩, bound := h.bound,
            running := by simp [Created], meshPc := by simp, mesh := by simp, created := by simp [Created] }
  | authenticated hpc =>
    have hv : c.req.portValid = true := h.valid.resolve_right (by simp [hpc])
    exact { valid := .inl hv, bound := h.bound, running := by simp [Created],
            meshPc := fun hk => absurd hpc (h.meshPc hk).1, mesh := by simp, created := by simp [Created] }
  | authFailed hpc =>
    have hv : c.req.portValid = true := h.valid.resolve_right (by simp [hpc])
    exact { valid := .inl hv, bound := h.bound, running := by simp [Created], meshPc := by simp,
            mesh := by simp, created := by simp [Created] }
  | startWorker hpc =>
    have hv : c.req.portValid = true := h.valid.resolve_right (by simp [hpc])
    exact { valid := .inl hv, bound := by simp, running := by simp, meshPc := by simp,
            mesh := fun hk => absurd hpc (h.meshPc hk).2, created := by simp [Created] }
  | socket hs =>
    have hv := h.portValid (by simp [hs])
    exact { valid := .inl hv, bound := by simp, running := h.running, meshPc := h.meshPc,
            mesh := fun hk hpc => by simpa [hs] using h.mesh hk hpc,
            created := fun hc => by simpa [hs] using h.created hc }
  | @bound p hs hb =>
    have hv := h.portValid (by simp [hs])
    have hp : p = c.req.port := by simpa [mayBind, port_ne_zero hv] using hb
    exact { valid := .inl hv, bound := by simpa using hp, running := h.running, meshPc := h.meshPc,
            mesh := fun hk hpc => by simpa [hs] using h.mesh hk hpc,
            created := fun hc => by simpa [hs] using h.created hc }
  | listening hs => exact h.opened hs
  | openFailed hs => exact h.openFailed hs
  | answered hpc =>
    have hs := hp rfl
    have hv := h.valid.resolve_right (by simp [hpc])
    exact { valid := .inl hv, bound := h.bound, running := fun _ => h.running (.inl hpc), meshPc := by simp,
            mesh := by simp, created := fun _ => hs }
  | refused => exact h
  | timeout hpc =>
    have hv := h.valid.resolve_right (by simp [hpc])
    exact { valid := .inl hv, bound := h.bound, running := by simp [Created], meshPc := by simp,
            mesh := by simp, created := by simp [Created] }
  | store hpc =>
    have hv := h.valid.resolve_right (by simp [hpc])
    exact { valid := .inl hv, bound := h.bound, running := fun _ => h.running (.inr (.inl hpc)),
            meshPc := by simp, mesh := by simp, created := fun _ => h.created (.inl hpc) }
  | loopError _ hk => rw [hl rfl] at hk; cases hk
  | loopContinue => exact h
  | loopStop hs hk hr =>
    have hv := h.portValid (by simp [hs])
    have hc : ¬ c.Created := fun hc => by
      rw [h.running (.inr hc)] at hr; cases hr
    exact { valid := .inl hv, bound := by simp, running := h.running, meshPc := h.meshPc,
            mesh := by simp [hk], created := fun h => absurd h hc }
  | close hpc =>
    have hv := h.valid.resolve_right (by simp [hpc])
    exact { valid := .inl hv, bound := h.bound, running := by simp [Created], meshPc := by simp,
            mesh := by simp, created := by simp [Created] }
  | joinedWorker hpc =>
    have hv := h.valid.resolve_right (by simp [hpc])
    exact { valid := .inl hv, bound := h.bound, running := by simp [Created], meshPc := by simp,
            mesh := by simp, created := by simp [Created] }
  | joinedMesh hpc =>
    have hv := h.valid.resolve_right (by simp [hpc])
    exact { valid := .inl hv, bound := by simp, running := by simp [Created], meshPc := by simp,
            mesh := by simp, created := by simp [Created] }

theorem Step.req_eq (hs : Step free answered c e c') : c'.req = c.req := by
  cases hs with
  | listening => unfold Call.opened; split <;> rfl
  | openFailed => unfold Call.openFailed; split <;> rfl
  | _ => rfl

theorem Step.probed (hs : Step free answered c (.probe true) c') :
    c.pc = .probe ∧ answered c.req.port = true := by
  cases hs with
  | answered hpc ha => exact ⟨hpc, ha⟩
  | openFailed _ he => rcases he with he | he | he <;> cases he

/-- The socket of an import comes to listen only where nothing does. -/
theorem Step.endpoint (hs : Step free answered c e c') {x : Endpoint} (hx : c'.endpoint = some x) :
    c.endpoint = some x ∨ free x = true := by
  cases hs with
  | listening hs hf =>
    right
    unfold Call.opened at hx
    split at hx <;> (cases hx; exact hf)
  | openFailed =>
    unfold Call.openFailed at hx
    split at hx <;> cases hx
  | meshUp | startWorker | socket | bound | loopError | loopStop | joinedMesh => cases hx
  | connected | upFailed | authenticated | authFailed | answered | refused | timeout | store | loopContinue
  | close | joinedWorker => exact .inl hx

end Call

namespace Machine

variable {m m' : Machine} {e : Ev} {foreign : List Endpoint} {es : List Ev}

theorem step_call {i : Nat} {e : CallEv} (h : m.step (.call i e) = some m') :
    ∃ c c', m.calls[i]? = some c ∧ Call.Step m.free m.answered c e c' ∧
      m' = { m with calls := m.calls.set i c' } := by
  simp only [step, Option.bind_eq_bind, Option.bind_eq_some_iff, Option.pure_def, Option.some.injEq] at h
  obtain ⟨c, hc, c', hc', rfl⟩ := h
  exact ⟨c, c', hc, Call.step_cases hc', rfl⟩

/-- What a run has to keep clear of. -/
def Clear (m : Machine) : Ev → Prop
  | .create r => r.kind = .mesh → r.portValid = true
  | .call i (.probe true) => ∀ c, m.calls[i]? = some c → c.req.kind = .ssh →
      ∀ x ∈ m.others i, answersAt c.req.port x = false
  | .call i .loopError => ∀ c, m.calls[i]? = some c → c.req.kind = .mesh
  | _ => True

/-- What holds in a clear run. -/
structure Inv (m : Machine) : Prop where
  call : ∀ c ∈ m.calls, c.Inv
  mesh : ∀ c ∈ m.calls, c.req.kind = .mesh → c.req.portValid = true
  exclusive : ∀ (i j : Nat) (c d : Call) (x : Endpoint), i ≠ j → m.calls[i]? = some c → m.calls[j]? = some d →
    c.endpoint = some x → d.endpoint ≠ some x
  foreign : ∀ c ∈ m.calls, ∀ x, c.endpoint = some x → x ∉ m.foreign

theorem mem_own {c : Call} {x : Endpoint} (hc : c ∈ m.calls) (hx : c.endpoint = some x) : x ∈ m.own :=
  List.mem_filterMap.mpr ⟨c, hc, hx⟩

theorem not_mem_of_free {x : Endpoint} (h : m.free x = true) :
    x ∉ m.foreign ∧ ∀ c ∈ m.calls, c.endpoint ≠ some x := by
  simp only [free, List.mem_append, not_or, decide_eq_true_eq] at h
  exact ⟨h.1, fun c hc hx => h.2 (mem_own hc hx)⟩

/-- A probe that was answered, and by nothing else, was answered by the
import's own socket. -/
theorem listening_of_answered {i : Nat} {c : Call} {p : Nat} (hc : m.calls[i]? = some c)
    (ha : m.answered p = true) (ho : ∀ x ∈ m.others i, answersAt p x = false) :
    ∃ q, c.sock = .listening q := by
  obtain ⟨x, hx, hp⟩ := List.any_eq_true.mp ha
  rcases List.mem_append.mp hx with hx | hx
  · rw [ho x (List.mem_append_left _ hx)] at hp; cases hp
  · obtain ⟨d, hd, hdx⟩ := List.mem_filterMap.mp hx
    obtain ⟨j, hj⟩ := List.mem_iff_getElem?.mp hd
    by_cases hij : j = i
    · subst hij
      obtain rfl := Option.some.inj (hc.symm.trans hj)
      unfold Call.endpoint at hdx
      split at hdx
      · rename_i q hq
        exact ⟨q, hq⟩
      · cases hdx
    · have hmem : d ∈ m.calls.eraseIdx i := List.mem_eraseIdx_iff_getElem?.mpr ⟨j, hij, hj⟩
      rw [ho x (List.mem_append_right _ (List.mem_filterMap.mpr ⟨d, hmem, hdx⟩))] at hp
      cases hp

theorem inv_start : (start foreign).Inv where
  call := by simp [start]
  mesh := by simp [start]
  exclusive := by simp [start]
  foreign := by simp [start]

theorem Inv.create (h : m.Inv) {r : Request} (hr : r.kind = .mesh → r.portValid = true) :
    Inv { m with calls := m.calls ++ [.start r] } where
  call c hc := by
    rcases List.mem_append.mp hc with hc | hc
    · exact h.call c hc
    · obtain rfl := List.mem_singleton.mp hc
      exact Call.inv_start r
  mesh c hc := by
    rcases List.mem_append.mp hc with hc | hc
    · exact h.mesh c hc
    · obtain rfl := List.mem_singleton.mp hc
      exact hr
  exclusive i j c d x hij hc hd hx := by
    simp only [List.getElem?_append, List.getElem?_singleton] at hc hd
    split at hc
    · split at hd
      · exact h.exclusive i j c d x hij hc hd hx
      · split at hd
        · obtain rfl := Option.some.inj hd
          nofun
        · cases hd
    · split at hc
      · obtain rfl := Option.some.inj hc
        cases hx
      · cases hc
  foreign c hc x hx := by
    rcases List.mem_append.mp hc with hc | hc
    · exact h.foreign c hc x hx
    · obtain rfl := List.mem_singleton.mp hc
      cases hx

theorem getElem?_set_cases {l : List Call} {i j : Nat} {c d : Call} (h : (l.set i c)[j]? = some d) :
    j = i ∧ d = c ∨ j ≠ i ∧ l[j]? = some d := by
  rw [List.getElem?_set] at h
  split at h
  · rename_i hij
    split at h
    · exact .inl ⟨hij.symm, (Option.some.inj h).symm⟩
    · cases h
  · rename_i hij
    exact .inr ⟨Ne.symm hij, h⟩

/-- The endpoint of import `i` after a step is none of another one's. -/
theorem Inv.endpoint_ne (h : m.Inv) {i j : Nat} {c c' d : Call} {e : CallEv} {x : Endpoint} (hij : j ≠ i)
    (hc : m.calls[i]? = some c) (hs : Call.Step m.free m.answered c e c') (hd : m.calls[j]? = some d)
    (hx : c'.endpoint = some x) : d.endpoint ≠ some x := by
  rcases hs.endpoint hx with hx | hx
  · exact h.exclusive i j c d x (Ne.symm hij) hc hd hx
  · exact (not_mem_of_free hx).2 d (List.mem_of_getElem? hd)

/-- Import `i` takes a step. -/
theorem Inv.set (h : m.Inv) {i : Nat} {c c' : Call} {e : CallEv} (hc : m.calls[i]? = some c)
    (hs : Call.Step m.free m.answered c e c') (hc' : c'.Inv) (hreq : c'.req = c.req) :
    Inv { m with calls := m.calls.set i c' } where
  call d hd := (List.mem_or_eq_of_mem_set hd).elim (h.call d) (fun he => he ▸ hc')
  mesh d hd := by
    rcases List.mem_or_eq_of_mem_set hd with hd | rfl
    · exact h.mesh d hd
    · rw [hreq]
      exact h.mesh c (List.mem_of_getElem? hc)
  exclusive j k a b x hjk ha hb hx := by
    rcases getElem?_set_cases ha with ⟨rfl, rfl⟩ | ⟨hj, ha'⟩
    · rcases getElem?_set_cases hb with ⟨rfl, rfl⟩ | ⟨hk, hb'⟩
      · exact absurd rfl hjk
      · exact h.endpoint_ne hk hc hs hb' hx
    · rcases getElem?_set_cases hb with ⟨rfl, rfl⟩ | ⟨hk, hb'⟩
      · exact fun hbx => h.endpoint_ne hj hc hs ha' hbx hx
      · exact h.exclusive j k a b x hjk ha' hb' hx
  foreign d hd x hx := by
    rcases List.mem_or_eq_of_mem_set hd with hd | rfl
    · exact h.foreign d hd x hx
    · rcases hs.endpoint hx with hx | hx
      · exact h.foreign c (List.mem_of_getElem? hc) x hx
      · exact (not_mem_of_free hx).1

/-- A step keeps it in a clear run. -/
theorem Inv.step (h : m.Inv) (he : m.Clear e) (hs : m.step e = some m') : m'.Inv := by
  cases e with
  | env es =>
    simp only [Machine.step] at hs
    split at hs
    · rename_i hes
      obtain rfl := Option.some.inj hs
      exact { call := h.call, mesh := h.mesh, exclusive := h.exclusive,
              foreign := fun c hc x hx hmem => hes x hmem (mem_own hc hx) }
    · cases hs
  | create r =>
    obtain rfl := Option.some.inj hs
    exact h.create he
  | call i e =>
    obtain ⟨c, c', hc, hcs, rfl⟩ := step_call hs
    have hmem := List.mem_of_getElem? hc
    refine h.set hc hcs ((h.call c hmem).step hcs (h.mesh c hmem) ?_ ?_) hcs.req_eq
    · rintro rfl
      exact he c hc
    · rintro rfl
      obtain ⟨hpc, ha⟩ := hcs.probed
      cases hk : c.req.kind with
      | ssh => exact listening_of_answered hc ha (he c hc hk)
      | mesh => exact (h.call c hmem).mesh hk hpc

theorem inv_of_clear (h : Lts.Run step (start foreign) es m) (hc : Lts.Along step Clear (start foreign) es) :
    m.Inv :=
  h.invAlong (fun _ _ _ hi hc hs => hi.step hc hs) hc inv_start

theorem endpoint_of_owns {c : Call} (h : c.Owns) : ∃ p : Nat, (p : Int) = c.req.localPort ∧
    c.endpoint = some (c.req.bindAddr, p) := by
  obtain ⟨p, hs, hp⟩ := h
  exact ⟨p, hp, by simp [Call.endpoint, hs]⟩

/-- Every import that was created owns its port, and there is none where
anything else listens. -/
def Owned (m : Machine) : Prop :=
  (∀ c ∈ m.calls, c.Created → c.Owns) ∧
  (∀ (i j : Nat) (c d : Call), i ≠ j → m.calls[i]? = some c → m.calls[j]? = some d → c.Created → d.Created →
    ¬ (c.req.bindAddr = d.req.bindAddr ∧ c.req.localPort = d.req.localPort)) ∧
  ∀ (i : Nat) (c : Call), m.calls[i]? = some c →
    (∃ p : Nat, (p : Int) = c.req.localPort ∧ (c.req.bindAddr, p) ∈ m.others i) → ¬ c.Created

theorem Inv.owned (h : m.Inv) : m.Owned := by
  have howns : ∀ c ∈ m.calls, c.Created → c.Owns := fun c hc hcr =>
    ((h.call c hc).created hcr).elim fun p hp => (h.call c hc).owns hp
  refine ⟨howns, fun i j c d hij hc hd hcr hdr heq => ?_, fun i c hc hbusy hcr => ?_⟩
  · obtain ⟨p, hp, hcx⟩ := endpoint_of_owns (howns c (List.mem_of_getElem? hc) hcr)
    obtain ⟨q, hq, hdx⟩ := endpoint_of_owns (howns d (List.mem_of_getElem? hd) hdr)
    obtain rfl : p = q := by omega
    exact h.exclusive i j c d _ hij hc hd hcx (by rw [hdx, heq.1])
  · obtain ⟨p, hp, hcx⟩ := endpoint_of_owns (howns c (List.mem_of_getElem? hc) hcr)
    obtain ⟨q, hq, hmem⟩ := hbusy
    obtain rfl : p = q := by omega
    rcases List.mem_append.mp hmem with hf | ho
    · exact h.foreign c (List.mem_of_getElem? hc) _ hcx hf
    · obtain ⟨d, hd, hdx⟩ := List.mem_filterMap.mp ho
      obtain ⟨j, hji, hj⟩ := List.mem_eraseIdx_iff_getElem?.mp hd
      exact h.exclusive i j c d _ (Ne.symm hji) hc hj hcx hdx

/-! ## An SSH import on its own -/

/-- Only import 0 acts, and its accept loop does not fail. -/
def Lone (es : List Ev) : Prop := ∀ e ∈ es, ∃ a, e = .call 0 a ∧ a ≠ .loopError

/-- The rest of the machine stays as it is. -/
theorem lone_run {r : Request} (h : Lts.Run step ⟨[.start r], foreign⟩ es m) (hl : Lone es) :
    m.foreign = foreign ∧ ∃ c, m.calls = [c] ∧ c.req = r := by
  refine h.history (P := fun es t => Lone es → t.foreign = foreign ∧ ∃ c, t.calls = [c] ∧ c.req = r)
    (fun _ => ⟨rfl, _, rfl, rfl⟩) (fun es t e u _ ih hu hl => ?_) hl
  obtain ⟨hf, c, hc, hr⟩ := ih fun x hx => hl x (List.mem_append_left _ hx)
  obtain ⟨a, rfl, -⟩ := hl e (by simp)
  obtain ⟨d, d', hd, hs, rfl⟩ := step_call hu
  rw [hc] at hd
  obtain rfl := Option.some.inj hd
  exact ⟨hf, d', by simp [hc], hs.req_eq.trans hr⟩

theorem clear_of_lone {r : Request} (ha : ∀ x ∈ foreign, answersAt r.port x = false)
    (hl : Lone es) : Lts.Along step Clear ⟨[.start r], foreign⟩ es := by
  rintro is₁ e is₂ t rfl ht
  obtain ⟨hf, c, hc, hr⟩ := lone_run ht fun x hx => hl x (List.mem_append_left _ hx)
  obtain ⟨a, rfl, hne⟩ := hl e (by simp)
  cases a with
  | loopError => exact absurd rfl hne
  | probe ok =>
    cases ok with
    | false => trivial
    | true =>
      intro d hd _ x hx
      rw [hc] at hd
      obtain rfl := Option.some.inj hd
      rw [hr]
      simp only [others, hc, hf, List.eraseIdx_zero, List.tail_cons, List.filterMap_nil, List.append_nil] at hx
      exact ha x hx
  | _ => trivial

/-- The worker fails to bind and another listener answers the probe. -/
def misled : List Ev :=
  [.call 0 (.up true), .call 0 (.auth true), .call 0 .startWorker, .call 0 (.socket true), .call 0 (.bind none),
    .call 0 (.probe true), .call 0 .store]

theorem run_misled {r : Request} (hk : r.kind = .ssh) (hv : r.portValid = true) {x : Endpoint} (hx : x ∈ foreign)
    (ha : answersAt r.port x = true) :
    Lts.Run step ⟨[.start r], foreign⟩ misled ⟨[⟨r, .returned, true, .ended⟩], foreign⟩ := by
  have hany : foreign.any (answersAt r.port) = true := List.any_eq_true.mpr ⟨x, hx, ha⟩
  simp [Lts.Run, misled, step, Call.step, Call.start, Call.openFailed, answered, own, Call.endpoint, hk, hv, hany]

/-- On a machine where `foreign` listens at first: in every state of a clear
run the imports own their ports. And of SSH imports, alone on the machine while
`foreign` stays as it is, those and only those are certain to own their port
once created at whose port no other listener answers. -/
theorem import_owns_port (foreign : List Endpoint) :
    (∀ es m, Lts.Run step (start foreign) es m → Lts.Along step Clear (start foreign) es → m.Owned) ∧
    ∀ r : Request, r.kind = .ssh → r.portValid = true →
      ((∀ es m, Lts.Run step ⟨[.start r], foreign⟩ es m → Lone es → ∀ c ∈ m.calls, c.Created → c.Owns) ↔
        ∀ x ∈ foreign, answersAt r.port x = false) := by
  refine ⟨fun es m h hc => ?_, fun r hk hv => ⟨fun h x hx => ?_, fun ha es m h hl c hc hcr => ?_⟩⟩
  · exact (inv_of_clear h hc).owned
  · by_contra ha
    have hl : Lone misled := by simp [Lone, misled]
    have hrun := run_misled hk hv hx (by simpa using ha)
    obtain ⟨p, hp, -⟩ := h misled _ hrun hl ⟨r, .returned, true, .ended⟩ (by simp) (.inr rfl)
    cases hp
  · have h₀ : Inv ⟨[.start r], foreign⟩ := inv_start.create (by simp [hk])
    have hi : m.Inv := h.invAlong (fun _ _ _ hi hc hs => hi.step hc hs) (clear_of_lone ha hl) h₀
    exact hi.owned.1 c hc hcr

/-- An SSH import of port 9000. -/
def request : Request := ⟨.ssh, false, 9000⟩

/-- It is created, and its socket listens. -/
def created : List Ev :=
  [.create request, .call 0 (.up true), .call 0 (.auth true), .call 0 .startWorker, .call 0 (.socket true),
    .call 0 (.bind (some 9000)), .call 0 (.listen true), .call 0 (.probe true), .call 0 .store]

theorem created_clear : Lts.Along step Clear (start []) created := by
  refine .cons (by simp [Clear, request]) rfl (.cons trivial rfl (.cons trivial rfl (.cons trivial rfl
    (.cons trivial rfl (.cons trivial rfl (.cons trivial rfl (.cons ?_ rfl (.cons trivial rfl Lts.along_nil))))))))
  intro c _ _ x hx
  exact absurd (show x ∈ ([] : List Endpoint) from hx) List.not_mem_nil

theorem created_owned :
    ∃ m, Lts.Run step (start []) created m ∧ m.calls = [⟨request, .returned, true, .listening 9000⟩] ∧ m.Owned :=
  ⟨_, rfl, rfl, (import_owns_port []).1 created _ rfl created_clear⟩

/-- A second import of the same port: its worker fails to bind, and the first
one answers its probe. -/
def createdTwice : List Ev :=
  created ++ [.create request, .call 1 (.up true), .call 1 (.auth true), .call 1 .startWorker,
    .call 1 (.socket true), .call 1 (.bind none), .call 1 (.probe true), .call 1 .store]

theorem two_imports_one_port :
    ∃ m, Lts.Run step (start []) createdTwice m ∧
      m.calls = [⟨request, .returned, true, .listening 9000⟩, ⟨request, .returned, true, .ended⟩] ∧
      ¬ m.Owned := by
  refine ⟨_, rfl, rfl, fun h => ?_⟩
  obtain ⟨p, hp, -⟩ := h.1 ⟨request, .returned, true, .ended⟩ (by decide) (.inr rfl)
  cases hp

end Machine

end ErplTunnel.Import

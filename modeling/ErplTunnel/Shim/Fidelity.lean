import ErplTunnel.Shim.ExporterClose

/-!
# Fidelity and isolation of the Go relays

Over every run of an exporter with any number of connections, and of any number
of bridges of a shim: what each connection is written is a prefix of what was
read from its partner, an end of stream is passed on after everything before it,
a connection is closed only when both of its directions have ended, or the
exporter was closed, or its own dial failed; and no step of one goroutine
touches another's connections, nor the listener.
-/

namespace ErplTunnel.Shim

open Relay (Dir)

variable {α : Type}

namespace Serve

variable {v v' : Serve α} {closed : Bool} {localAddr : String} {e : ServeEv α} {eff : Effect}

/-- Only the bridge copies. -/
theorem step_copy (h : v.step closed localAddr e = some (v', eff)) :
    v'.pair.copy = v.pair.copy ∨ ∃ be, e = .bridge be := by
  cases step_cases h with
  | @bridge be => exact .inr ⟨be, rfl⟩
  | _ => exact .inl rfl

/-- A step closes a connection when both directions have ended, when the exporter
is closed, or when the dial has failed. -/
theorem Inv.step_closes (hi : Inv closed v) (h : v.step closed localAddr e = some (v', eff)) {x : Side}
    (ho : (v.pair.conn x).closed = false) (hc : (v'.pair.conn x).closed = true) :
    v.pair.bothDone = true ∨ closed = true ∨ v.pc = .dropping := by
  cases step_cases h with
  | turnMesh hpc => exact .inr (.inl (hi.turned (.inl hpc)))
  | turnLocal hpc => exact .inr (.inl (hi.turned (.inr hpc)))
  | drop hpc => exact .inr (.inr hpc)
  | bridge _ hb => exact .inl (Bridge.step_closes hi.pair hb ho hc)
  | _ => exact absurd (ho.symm.trans hc) (by decide)

end Serve

namespace Exporter

variable {s s' : Exporter α} {k : Nat} {v : Serve α} {e : ExportEv α}

/-- A call of `Close` that is under way has set `closed`. -/
theorem Inv.closed_of_closing (h : Inv s) {j : Nat} {todo : List (Nat × Side)} {b : Bool}
    (hj : s.closers[j]? = some (.closing todo b)) : s.closed = true := by
  have hpos : 0 < s.closers.countP CloserPc.first := List.countP_pos_iff.mpr ⟨_, List.mem_of_getElem? hj, rfl⟩
  rw [h.first] at hpos
  cases hc : s.closed with
  | true => rfl
  | false =>
    rw [hc] at hpos
    exact absurd hpos (by decide)

/-- What a step does to the goroutine `k`: nothing, or one of its own steps, or a
call of `Close` closes one of its connections. -/
theorem step_serves (h : Inv s) (hs : s.step e = some s') (hk : s.serves[k]? = some v) :
    ∃ v', s'.serves[k]? = some v' ∧
      (v' = v ∨ (∃ se eff, e = .serve k se ∧ v.step s.closed s.localAddr se = some (v', eff)) ∨
        (s.closed = true ∧ ∃ x, v' = { v with pair := v.pair.kill x })) := by
  have hlt : k < s.serves.length := (List.getElem?_eq_some_iff.mp hk).1
  cases step_cases hs with
  | accept => exact ⟨v, by rw [List.getElem?_append_left hlt, hk], .inl rfl⟩
  | @serve j se w w' eff hj hw =>
    rw [apply_serves]
    by_cases hkj : j = k
    · obtain rfl : w = v := by rw [hkj, hk] at hj; exact (Option.some.inj hj).symm
      exact ⟨w', by rw [hkj, List.getElem?_set_self hlt], .inr (.inl ⟨se, eff, by rw [hkj], hw⟩)⟩
    · exact ⟨v, by rw [List.getElem?_set_ne hkj, hk], .inl rfl⟩
  | @closeConn j c todo hj =>
    by_cases hck : c.1 = k
    · refine ⟨_, by rw [kill, List.getElem?_modify, hk]; rfl, .inr (.inr ⟨h.closed_of_closing hj, c.2, ?_⟩)⟩
      simp [hck]
    · exact ⟨_, by rw [kill, List.getElem?_modify, hk]; rfl, .inl (by simp [hck])⟩
  | _ => exact ⟨v, hk, .inl rfl⟩

theorem step_serve {se : ServeEv α} (hs : s.step (.serve k se) = some s') :
    ∃ v v' eff, s.serves[k]? = some v ∧ v.step s.closed s.localAddr se = some (v', eff) ∧ s'.serves[k]? = some v' := by
  cases step_cases hs with
  | @serve _ _ v v' eff hk hv =>
    refine ⟨v, v', eff, hk, hv, ?_⟩
    rw [apply_serves]
    exact List.getElem?_set_self (List.getElem?_eq_some_iff.mp hk).1

/-- What a step of the exporter does to the connections of the goroutine `k`. -/
structure Isolated (s : Exporter α) (e : ExportEv α) (k : Nat) (v v' : Serve α) : Prop where
  /-- Nothing is read or written but by its own copies. -/
  copy : v'.pair.copy = v.pair.copy ∨ ∃ be, e = .serve k (.bridge be)
  /-- It is closed when both directions have ended, the exporter is closed or its dial failed. -/
  closes : ∀ x, (v.pair.conn x).closed = false → (v'.pair.conn x).closed = true →
    v.pair.bothDone = true ∨ s.closed = true ∨ v.pc = .dropping

theorem step_isolated (h : Inv s) (hs : s.step e = some s') (hk : s.serves[k]? = some v) :
    ∃ v', s'.serves[k]? = some v' ∧ Isolated s e k v v' := by
  obtain ⟨v', hv', rfl | ⟨se, eff, rfl, hse⟩ | ⟨hc, x, rfl⟩⟩ := step_serves h hs hk
  · exact ⟨v', hv', .inl rfl, fun x ho hc => absurd (ho.symm.trans hc) (by decide)⟩
  · refine ⟨v', hv', (Serve.step_copy hse).imp_right fun ⟨be, hbe⟩ => ⟨be, by rw [hbe]⟩, fun x ho hc => ?_⟩
    exact (h.serves v (List.mem_of_getElem? hk)).step_closes hse ho hc
  · exact ⟨_, hv', .inl rfl, fun _ _ _ => .inr (.inl hc)⟩

/-- What a step of the goroutine `k` leaves as it is. -/
structure Untouched (k : Nat) (s s' : Exporter α) : Prop where
  listener : s'.lnCloses = s.lnCloses ∧ s'.acceptPc = s.acceptPc ∧ s'.closed = s.closed ∧ s'.closers = s.closers
  others : ∀ j, j ≠ k → s'.serves[j]? = s.serves[j]?
  tracked : ∀ c : Nat × Side, c.1 ≠ k → (c ∈ s'.conns ↔ c ∈ s.conns)

theorem serve_untouched {se : ServeEv α} (hs : s.step (.serve k se) = some s') : Untouched k s s' := by
  cases step_cases hs with
  | @serve _ _ w w' eff hj hw =>
    refine ⟨by simp, fun j hjk => by rw [apply_serves, List.getElem?_set_ne (Ne.symm hjk)], fun c hc => ?_⟩
    have hne : ∀ x, c ≠ (k, x) := fun x he => hc (congrArg Prod.fst he)
    cases eff <;> simp [apply, hne]

end Exporter

/-! ## The bridges of a shim -/

inductive BridgesEv (α : Type) where
  /-- `mesh_dial` has its connection, and starts a bridge. -/
  | dial
  | run (k : Nat) (e : BridgeEv α)

namespace Bridges

variable {bs bs' : List (Bridge α)} {k : Nat} {b : Bridge α} {e : BridgesEv α}

def step (bs : List (Bridge α)) : BridgesEv α → Option (List (Bridge α))
  | .dial => some (bs ++ [.new])
  | .run k e =>
    match bs[k]? with
    | none => none
    | some b => (b.step e).map fun b' => bs.set k b'

/-- What a step does to the bridge `k`. -/
structure Isolated (e : BridgesEv α) (k : Nat) (b b' : Bridge α) : Prop where
  own : b' = b ∨ ∃ be, e = .run k be
  closes : ∀ x, (b.conn x).closed = false → (b'.conn x).closed = true → b.bothDone = true

/-- A step leaves a bridge as it is, or is a step of that bridge. -/
theorem step_bridge (hs : step bs e = some bs') (hk : bs[k]? = some b) :
    ∃ b', bs'[k]? = some b' ∧ (b' = b ∨ ∃ be, e = .run k be ∧ b.step be = some b') := by
  have hlt : k < bs.length := (List.getElem?_eq_some_iff.mp hk).1
  cases e with
  | dial =>
    cases hs
    exact ⟨b, by rw [List.getElem?_append_left hlt, hk], .inl rfl⟩
  | run j be =>
    simp only [step] at hs
    split at hs
    case h_1 => cases hs
    case h_2 w hj =>
    obtain ⟨w', hw, rfl⟩ := Option.map_eq_some_iff.mp hs
    by_cases hjk : j = k
    · subst hjk
      obtain rfl : w = b := Option.some.inj (hj.symm.trans hk)
      exact ⟨w', List.getElem?_set_self hlt, .inr ⟨be, rfl, hw⟩⟩
    · exact ⟨b, by rw [List.getElem?_set_ne hjk, hk], .inl rfl⟩

theorem step_run {be : BridgeEv α} (hs : step bs (.run k be) = some bs') :
    ∃ b b', bs[k]? = some b ∧ b.step be = some b' ∧ bs'[k]? = some b' := by
  simp only [step] at hs
  split at hs
  case h_1 => cases hs
  case h_2 b hk =>
  obtain ⟨b', hb, rfl⟩ := Option.map_eq_some_iff.mp hs
  exact ⟨b, b', hk, hb, List.getElem?_set_self (List.getElem?_eq_some_iff.mp hk).1⟩

theorem step_isolated (hi : ∀ b ∈ bs, b.Inv) (hs : step bs e = some bs') (hk : bs[k]? = some b) :
    ∃ b', bs'[k]? = some b' ∧ Isolated e k b b' := by
  obtain ⟨b', hb', rfl | ⟨be, rfl, hbe⟩⟩ := step_bridge hs hk
  · exact ⟨b', hb', .inl rfl, fun x ho hc => absurd (ho.symm.trans hc) (by decide)⟩
  · exact ⟨b', hb', .inr ⟨be, rfl⟩, fun x ho hc => Bridge.step_closes (hi b (List.mem_of_getElem? hk)) hbe ho hc⟩

theorem step_inv (hi : ∀ b ∈ bs, b.Inv) (hs : step bs e = some bs') : ∀ b ∈ bs', b.Inv := by
  intro b hb
  cases e with
  | dial =>
    cases hs
    rcases List.mem_append.mp hb with hb | hb
    · exact hi b hb
    · rw [List.mem_singleton.mp hb]
      exact .new
  | run j be =>
    simp only [step] at hs
    split at hs
    case h_1 => cases hs
    case h_2 w hj =>
    obtain ⟨w', hw, rfl⟩ := Option.map_eq_some_iff.mp hs
    rcases List.mem_or_eq_of_mem_set hb with hb | rfl
    · exact hi b hb
    · exact (hi w (List.mem_of_getElem? hj)).step hw

theorem inv_of_run {bes : List (BridgesEv α)} (h : Lts.Run step [] bes bs) : ∀ b ∈ bs, b.Inv :=
  h.inv (fun _ _ _ hi hs => step_inv hi hs) (fun _ hb => absurd hb List.not_mem_nil)

end Bridges

/-- Of every run of an exporter, and of the bridges of a shim: each direction is
faithful, and the next step, whatever it is, keeps the connections apart. A step
of one goroutine, the failed dial among them, leaves the listener and the other
goroutines as they are. -/
theorem relays_faithful (localAddr : String) (es : List (ExportEv α)) (s : Exporter α)
    (h : Lts.Run Exporter.step (.start localAddr) es s) (bes : List (BridgesEv α)) (bs : List (Bridge α))
    (hb : Lts.Run Bridges.step [] bes bs) :
    (∀ v ∈ s.serves, v.pair.Faithful) ∧
    (∀ e s', s.step e = some s' →
      (∀ k v, s.serves[k]? = some v → ∃ v', s'.serves[k]? = some v' ∧ Exporter.Isolated s e k v v') ∧
      ∀ k se, e = .serve k se → Exporter.Untouched k s s') ∧
    (∀ b ∈ bs, b.Faithful) ∧
    ∀ e bs', Bridges.step bs e = some bs' → ∀ k b, bs[k]? = some b → ∃ b', bs'[k]? = some b' ∧
      Bridges.Isolated e k b b' := by
  have hi := Exporter.inv_of_run h
  have hib := Bridges.inv_of_run hb
  refine ⟨fun v hv => (hi.serves v hv).pair.faithful, fun e s' hs => ⟨fun k v hk => ?_, ?_⟩,
    fun b hm => (hib b hm).faithful, fun e bs' hs k b hk => Bridges.step_isolated hib hs hk⟩
  · exact Exporter.step_isolated hi hs hk
  · rintro k se rfl
    exact Exporter.serve_untouched hs

/-- Two connections are accepted; the local service takes the second and refuses
the first while the second relays. -/
def refusedBeside : List (ExportEv Nat) :=
  [.accept, .accept, .serve 0 .track, .serve 1 .track, .serve 1 (.dial none), .serve 1 .track,
    .serve 1 (.bridge (.read .up [7, 8])), .serve 0 (.dial (some "connection refused")), .serve 0 .record,
    .serve 1 (.bridge (.write .up 1))]

theorem refusedBeside_faithful :
    ∃ s s' : Exporter Nat, Lts.Run Exporter.step (.start "127.0.0.1:8080") refusedBeside s ∧
      s.step (.serve 0 .drop) = some s' ∧ Exporter.Untouched 0 s s' ∧
      ∃ v, s.serves[1]? = some v ∧ v.pair.Faithful ∧ (v.pair.copy .up).flow.put = [7] ∧
        (v.pair.copy .up).flow.got = [7, 8] := by
  have hrun : ∃ s s' : Exporter Nat, Lts.Run Exporter.step (.start "127.0.0.1:8080") refusedBeside s ∧
      s.step (.serve 0 .drop) = some s' ∧ ∃ v, s.serves[1]? = some v ∧ (v.pair.copy .up).flow.put = [7] ∧
        (v.pair.copy .up).flow.got = [7, 8] := ⟨_, _, rfl, rfl, _, rfl, rfl, rfl⟩
  obtain ⟨s, s', hs, hd, v, hv, hput, hgot⟩ := hrun
  obtain ⟨hf, hstep, -⟩ := relays_faithful "127.0.0.1:8080" refusedBeside s hs [] [] rfl
  exact ⟨s, s', hs, hd, (hstep _ s' hd).2 0 .drop rfl, v, hv, hf v (List.mem_of_getElem? hv), hput, hgot⟩

end ErplTunnel.Shim

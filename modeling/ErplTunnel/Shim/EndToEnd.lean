import ErplTunnel.Framework.Hops
import ErplTunnel.Lifecycle.MeshForwarder
import ErplTunnel.Pump.HalfClose
import ErplTunnel.Shim.Fidelity

/-!
# From the client of an import to the service of an export

A client's bytes pass through three relays: the pump of the import
(`MeshForwarder::Pump`), the bridge of the importing shim (`bridge`), and the
bridge of the exporting one (`Exporter.serve`). Each is one among others in its
process: `hop` of each says which, and is lawful, so the three joined are, and
with the connections between them any number of steps apart.

Up is from the client to the service. The importing shim's bridge has its mesh
end on the other side, so its own directions are the opposite ones.
-/

namespace ErplTunnel.Shim

open Relay

variable {α : Type}

/-! ## A bridge -/

namespace Bridge

/-- The destination of the direction is half-closed or closed. -/
def shut (b : Bridge α) (d : Dir) : Bool := (b.conn (dst d)).writeClosed || (b.conn (dst d)).closed

end Bridge

/-- `c'` comes after `c`, whose destination takes no more or does. -/
structure Copy.Later (shut : Bool) (c c' : Copy α) : Prop where
  got : c.flow.got <+: c'.flow.got
  put : c.flow.put <+: c'.flow.put
  eof : c.pc.eof = true → c'.pc.eof = true
  frozen : shut = true → c'.flow.put = c.flow.put

theorem Copy.Later.rfl {shut : Bool} {c : Copy α} : c.Later shut c :=
  ⟨List.prefix_rfl, List.prefix_rfl, id, fun _ => Eq.refl _⟩

/-- The goroutine moves, and nothing is read or written. -/
theorem Copy.Later.goto {shut : Bool} {c : Copy α} {pc : CopyPc α} (h : c.pc.eof = true → pc.eof = true) :
    c.Later shut ⟨pc, c.flow⟩ :=
  ⟨List.prefix_rfl, List.prefix_rfl, h, fun _ => Eq.refl _⟩

namespace Bridge

variable {b b' : Bridge α} {d : Dir}

/-- What a step, or a `Close` from outside, does to every direction. -/
structure Later (b b' : Bridge α) : Prop where
  copy : ∀ d, (b.copy d).Later (b.shut d) (b'.copy d)
  shut : ∀ d, b.shut d = true → b'.shut d = true

theorem Later.rfl : b.Later b := ⟨fun _ => .rfl, fun _ => id⟩

theorem Later.setCopy {c : Copy α} (h : (b.copy d).Later (b.shut d) c) : b.Later (b.setCopy d c) where
  copy := forall_setCopy (P := fun e c => (b.copy e).Later (b.shut e) c) (fun _ => .rfl) h
  shut _ := id

theorem Later.kill (x : Side) : b.Later (b.kill x) where
  copy _ := .rfl
  shut d h := by
    simp only [Bridge.shut, kill_writeClosed, kill_closed, Bool.or_eq_true] at h ⊢
    exact h.imp_right .inr

theorem Later.closeWrite (h : b.Later b') (x : Side) : b.Later (b'.closeWrite x) where
  copy := h.copy
  shut d hd := by
    have hb := h.shut d hd
    simp only [Bridge.shut, Bool.or_eq_true, closeWrite_closed] at hb ⊢
    refine hb.imp_left fun hw => ?_
    by_cases hx : dst d = x
    · subst hx
      simp [Bridge.closeWrite, hw]
    · simpa [Bridge.closeWrite, Function.update_of_ne hx] using hw

/-- A goroutine that still writes has an open destination. -/
theorem not_shut_of_writing (hi : b.Inv) {buf : List α} (hpc : (b.copy d).pc = .writing buf)
    (hc : (b.conn (dst d)).closed = false) : b.shut d = false := by
  rw [Bridge.shut, hc, Bool.or_false]
  by_contra hw
  have hs := hi.shut d (by simpa using hw)
  rw [hpc] at hs
  cases hs

theorem step_later (hi : b.Inv) {e : BridgeEv α} (h : b.step e = some b') : b.Later b' := by
  cases e with
  | read d bs =>
    simp only [step] at h
    split at h
    case h_2 => cases h
    case h_1 hpc =>
    split at h <;> cases h
    refine .setCopy ⟨List.prefix_append .., List.prefix_rfl, fun he => ?_, fun _ => rfl⟩
    rw [hpc] at he
    cases he
  | eof d =>
    simp only [step] at h
    split at h
    case h_2 => cases h
    case h_1 hpc =>
    split at h <;> cases h
    exact .setCopy (.goto fun _ => rfl)
  | readErr d =>
    simp only [step] at h
    split at h <;> cases h
    case h_1 hpc =>
    refine .setCopy (.goto fun he => ?_)
    rw [hpc] at he
    cases he
  | write d n =>
    simp only [step] at h
    split at h
    case h_2 => cases h
    case h_1 buf hpc =>
    split at h
    case isTrue => cases h
    case isFalse hn =>
    cases h
    have hopen : b.shut d = false := by
      refine not_shut_of_writing hi hpc ?_
      cases hc : (b.conn (dst d)).closed with
      | false => rfl
      | true => exact absurd (by simp [hc]) hn
    refine .setCopy ⟨List.prefix_rfl, List.prefix_append .., fun he => ?_, fun ho => ?_⟩
    · rw [hpc] at he
      cases he
    · rw [hopen] at ho
      cases ho
  | writeErr d =>
    simp only [step] at h
    split at h <;> cases h
    case h_1 buf hpc =>
    refine .setCopy (.goto fun he => ?_)
    rw [hpc] at he
    cases he
  | closeWrite d =>
    simp only [step] at h
    split at h <;> cases h
    case h_1 eof hpc =>
    refine .closeWrite (.setCopy (.goto fun he => ?_)) _
    rwa [hpc] at he
  | signal d =>
    simp only [step] at h
    split at h <;> cases h
    case h_1 eof hpc =>
    refine .setCopy (.goto fun he => ?_)
    rwa [hpc] at he
  | closeLocal =>
    simp only [step] at h
    split at h <;> cases h
    exact ⟨(Later.kill (b := b) .localEnd).copy, (Later.kill (b := b) .localEnd).shut⟩
  | closeMesh =>
    simp only [step] at h
    split at h <;> cases h
    exact ⟨(Later.kill (b := b) .mesh).copy, (Later.kill (b := b) .mesh).shut⟩

theorem step_eof (h : b.step (.eof d) = some b') : (b'.copy d).pc.eof = true := by
  simp only [step] at h
  split at h
  case h_2 => cases h
  case h_1 hpc =>
  split at h <;> cases h
  rw [setCopy_self]
  rfl

/-- A direction at the end of its stream has nothing left to write. -/
theorem Inv.settled (hi : b.Inv) (he : (b.copy d).pc.eof = true) : (b.copy d).flow.put = (b.copy d).flow.got := by
  have hd := hi.holds d
  cases hpc : (b.copy d).pc with
  | reading | writing =>
    rw [hpc] at he
    cases he
  | ended eof | shut eof | done eof =>
    rw [hpc] at hd he
    obtain ⟨q, hq, hnil⟩ := hd
    obtain rfl := hnil he
    exact Transit.owes_nil.mp hq

end Bridge

/-! ## The bridges of the importing shim -/

namespace Bridges

variable {bs bs' : List (Bridge α)} {j : Nat} {b b' : Bridge α}

/-- The bridge `j`. -/
def member (α : Type) (j : Nat) : Member α (List (Bridge α)) (BridgesEv α) (Bridge α) where
  init := []
  step := step
  look bs := bs[j]?
  flow b d := (b.copy d.opp).flow
  ends
    | d, .run k (.eof c) => decide (k = j ∧ c = d.opp)
    | _, _ => false
  shut b d := b.shut d.opp

theorem ends_eq {d : Dir} {e : BridgesEv α} (h : (member α j).ends d e = true) : e = .run j (.eof d.opp) := by
  simp only [member] at h
  split at h
  · obtain ⟨rfl, rfl⟩ := of_decide_eq_true h
    rfl
  · cases h

theorem step_later {e : BridgesEv α} (hi : ∀ b ∈ bs, b.Inv) (hs : step bs e = some bs') (hk : bs[j]? = some b) :
    ∃ b', bs'[j]? = some b' ∧ b.Later b' := by
  obtain ⟨b', hb', rfl | ⟨be, -, hbe⟩⟩ := step_bridge hs hk
  · exact ⟨b', hb', .rfl⟩
  · exact ⟨b', hb', Bridge.step_later (hi b (List.mem_of_getElem? hk)) hbe⟩

theorem kept : (member α j).Kept (fun bs => ∀ b ∈ bs, b.Inv) fun d b => (b.copy d.opp).pc.eof = true where
  init := rfl
  start b hb := by cases hb
  step := step_inv
  faithful hi hb d := (hi _ (List.mem_of_getElem? hb)).faithful.prefix_read d.opp
  settled hi hb d he := (hi _ (List.mem_of_getElem? hb)).settled he
  later := by
    intro bs e bs' b hi hs hb
    obtain ⟨b', hb', hl⟩ := step_later hi hs hb
    refine ⟨b', hb', fun d => ⟨(hl.copy d.opp).got, (hl.copy d.opp).put, fun he => ?_, fun ho => ?_⟩⟩
    · rcases he with he | he
      · obtain rfl := ends_eq he
        obtain ⟨c, c', hc, hcs, hc'⟩ := step_run hs
        obtain rfl : c' = b' := Option.some.inj (hc'.symm.trans hb')
        exact Bridge.step_eof hcs
      · exact (hl.copy d.opp).eof he
    · exact ⟨hl.shut d.opp ho, (hl.copy d.opp).frozen ho⟩
  here := by
    intro bs e bs' d hs he
    obtain rfl := ends_eq he
    obtain ⟨b, b', hb, -, -⟩ := step_run hs
    exact ⟨b, hb⟩

end Bridges

/-! ## The connections of the exporting shim -/

namespace Exporter

variable {s s' : Exporter α} {k : Nat} {v v' : Serve α} {localAddr : String}

/-- The connection `k`. -/
def member (α : Type) (localAddr : String) (k : Nat) : Member α (Exporter α) (ExportEv α) (Serve α) where
  init := .start localAddr
  step := step
  look s := s.serves[k]?
  flow v d := (v.pair.copy d).flow
  ends
    | d, .serve i (.bridge (.eof c)) => decide (i = k ∧ c = d)
    | _, _ => false
  shut v d := v.pair.shut d

theorem ends_eq {d : Dir} {e : ExportEv α} (h : (member α localAddr k).ends d e = true) :
    e = .serve k (.bridge (.eof d)) := by
  simp only [member] at h
  split at h
  · obtain ⟨rfl, rfl⟩ := of_decide_eq_true h
    rfl
  · cases h

end Exporter

theorem Serve.step_later {closed : Bool} {localAddr : String} {v v' : Serve α} {e : ServeEv α} {eff : Effect}
    (hi : v.pair.Inv) (h : v.step closed localAddr e = some (v', eff)) : v.pair.Later v'.pair := by
  cases Serve.step_cases h with
  | turnMesh | turnLocal | drop => exact .kill _
  | bridge _ hb => exact Bridge.step_later hi hb
  | _ => exact .rfl

theorem Serve.step_eof {closed : Bool} {localAddr : String} {v v' : Serve α} {d : Dir} {eff : Effect}
    (h : v.step closed localAddr (.bridge (.eof d)) = some (v', eff)) : (v'.pair.copy d).pc.eof = true := by
  cases Serve.step_cases h with
  | bridge _ hb => exact Bridge.step_eof hb

namespace Exporter

variable {s s' : Exporter α} {k : Nat} {v v' : Serve α} {localAddr : String}

theorem step_later {e : ExportEv α} (hi : Inv s) (hs : s.step e = some s') (hk : s.serves[k]? = some v) :
    ∃ v', s'.serves[k]? = some v' ∧ v.pair.Later v'.pair := by
  obtain ⟨v', hv', rfl | ⟨se, eff, -, hse⟩ | ⟨-, x, rfl⟩⟩ := step_serves hi hs hk
  · exact ⟨v', hv', .rfl⟩
  · exact ⟨v', hv', Serve.step_later (hi.serves v (List.mem_of_getElem? hk)).pair hse⟩
  · exact ⟨_, hv', .kill x⟩

theorem kept : (member α localAddr k).Kept Inv fun d v => (v.pair.copy d).pc.eof = true where
  init := rfl
  start := .start localAddr
  step hi hs := hi.step hs
  faithful hi hv d := (hi.serves _ (List.mem_of_getElem? hv)).pair.faithful.prefix_read d
  settled hi hv d he := (hi.serves _ (List.mem_of_getElem? hv)).pair.settled he
  later := by
    intro s e s' v hi hs hv
    obtain ⟨v', hv', hl⟩ := step_later hi hs hv
    refine ⟨v', hv', fun d => ⟨(hl.copy d).got, (hl.copy d).put, fun he => ?_, fun ho => ?_⟩⟩
    · rcases he with he | he
      · obtain rfl := ends_eq he
        obtain ⟨w, w', eff, hw, hws, hw'⟩ := step_serve hs
        obtain rfl : w' = v' := Option.some.inj (hw'.symm.trans hv')
        exact Serve.step_eof hws
      · exact (hl.copy d).eof he
    · exact ⟨hl.shut d ho, (hl.copy d).frozen ho⟩
  here := by
    intro s e s' d hs he
    obtain rfl := ends_eq he
    obtain ⟨v, v', eff, hv, -, -⟩ := step_serve hs
    exact ⟨v, hv⟩

end Exporter

end ErplTunnel.Shim

/-! ## The clients of the import -/

namespace ErplTunnel.Lifecycle.MeshForwarder

open Relay Pump
open Pump.MeshForwarder (Pc slot closing)

variable {s s' : State} {x : In} {i : Nat}

/-- The client `i`. One that was turned away is sent nothing. -/
def member (i : Nat) : Member Byte State In (Pool.Slot (St Pc)) where
  init := start
  step := State.step
  look s := s.clients[i]?
  flow
    | .refused, _ => .empty
    | .thread p _, d => p.flow d
  ends
    | d, .pump j e => decide (j = i ∧ e = .read d (.data []))
    | _, _ => false
  shut
    | .refused, _ => true
    | .thread p _, _ => closing p.pc

theorem ends_eq {d : Dir} (h : (member i).ends d x = true) : x = .pump i (.read d (.data [])) := by
  simp only [member] at h
  split at h
  · obtain ⟨rfl, rfl⟩ := of_decide_eq_true h
    rfl
  · cases h

/-- What a step does to the client `i`: nothing, or its thread is joined, or its
pump goes on. -/
inductive ClientStep (running : Bool) : Pool.Slot (St Pc) → Pool.Slot (St Pc) → Prop
  | keep {c : Pool.Slot (St Pc)} : ClientStep running c c
  | join {p : St Pc} {j j' : Bool} : ClientStep running (.thread p j) (.thread p j')
  | pump {e : Ev} {p p' : St Pc} {j : Bool} (hp : Pump.MeshForwarder.Step { p with running := running } e p') :
    ClientStep running (.thread p j) (.thread p' j)

theorem step_client {c : Pool.Slot (St Pc)} (hs : Step s x s') (hi : s.clients[i]? = some c) :
    ∃ c', s'.clients[i]? = some c' ∧ ClientStep s.running c c' := by
  have hlt : i < s.clients.length := (List.getElem?_eq_some_iff.mp hi).1
  cases hs with
  | @joinWorker destroy k rest p hm hc hp =>
    by_cases hki : k = i
    · subst hki
      obtain rfl : c = .thread p true := Option.some.inj (hi.symm.trans hc)
      exact ⟨_, List.getElem?_set_self hlt, .join⟩
    · exact ⟨c, by rw [← hi]; exact List.getElem?_set_ne hki, .keep⟩
  | @pump k e p p' j hc he hp =>
    by_cases hki : k = i
    · subst hki
      obtain rfl : c = .thread p j := Option.some.inj (hi.symm.trans hc)
      exact ⟨_, List.getElem?_set_self hlt, .pump hp⟩
    · exact ⟨c, by rw [← hi]; exact List.getElem?_set_ne hki, .keep⟩
  | accept ha =>
    cases ha with
    | stop | noDial | spawn => exact ⟨c, by rw [← hi]; exact List.getElem?_append_left hlt, .keep⟩
    | _ => exact ⟨c, hi, .keep⟩
  | _ => exact ⟨c, hi, .keep⟩

theorem step_pump {e : Ev} (hs : s.step (.pump i e) = some s') :
    ∃ p p' j, s.clients[i]? = some (.thread p j) ∧ Pump.MeshForwarder.Step { p with running := s.running } e p' ∧
      s'.clients[i]? = some (.thread p' j) := by
  have hp : s.pumpStep i e = some s' := hs
  unfold State.pumpStep at hp
  split at hp
  · rename_i p j hc
    obtain ⟨_, -, hp⟩ := Option.bind_eq_some_iff.mp hp
    obtain ⟨p', hp', hp⟩ := Option.bind_eq_some_iff.mp hp
    cases hp
    exact ⟨p, p', j, hc, Pump.MeshForwarder.step_cases hp',
      List.getElem?_set_self (List.getElem?_eq_some_iff.mp hc).1⟩
  · cases hp

theorem slot_ne_loose (pc : Pc) (d : Dir) : slot pc d ≠ .loose := by
  cases pc with
  | sendAll c m n q sent =>
    by_cases hd : d = c <;> simp [slot, hd]
  | _ => simp [slot]

/-- The promise of a pump does not look at the flag. -/
theorem inv_running {p : St Pc} {running : Bool} (h : p.Inv slot) : St.Inv slot { p with running := running } := by
  intro d
  have hd : (slot p.pc d).Holds p.running p.buf (p.flow d) := h d
  have hl : slot p.pc d ≠ .loose := slot_ne_loose p.pc d
  show (slot p.pc d).Holds running p.buf (p.flow d)
  cases hs : slot p.pc d with
  | loose => exact absurd hs hl
  | clean | owes | cut =>
    rw [hs] at hd
    exact hd

/-- The pump of the client keeps its promises. -/
def Holds : Pool.Slot (St Pc) → Prop
  | .refused => True
  | .thread p _ => p.Inv slot

/-- The pump of the client has come to an end, and is through with the direction. -/
def AtEnd (d : Dir) : Pool.Slot (St Pc) → Prop
  | .refused => False
  | .thread p _ => closing p.pc = true ∧ (p.flow d).put = (p.flow d).got

theorem ClientStep.holds {running : Bool} {c c' : Pool.Slot (St Pc)} (h : ClientStep running c c') (hc : Holds c) :
    Holds c' := by
  cases h with
  | keep | join => exact hc
  | pump hp => exact Pump.MeshForwarder.inv_step (inv_running hc) hp

theorem step_holds (hs : Step s x s') (h : ∀ c ∈ s.clients, Holds c) : ∀ c ∈ s'.clients, Holds c := by
  intro c hc
  cases hs with
  | @joinWorker destroy k rest p hm hk hp =>
    rcases List.mem_or_eq_of_mem_set hc with hc | rfl
    · exact h c hc
    · have hk' : Holds (.thread p true) := h _ (List.mem_of_getElem? hk)
      exact hk'
  | @pump k e p p' j hk he hp =>
    rcases List.mem_or_eq_of_mem_set hc with hc | rfl
    · exact h c hc
    · exact (ClientStep.pump hp).holds (h _ (List.mem_of_getElem? hk))
  | accept ha =>
    cases ha with
    | stop | noDial =>
      rcases List.mem_append.mp hc with hc | hc
      · exact h c hc
      · obtain rfl := List.mem_singleton.mp hc
        exact trivial
    | spawn =>
      rcases List.mem_append.mp hc with hc | hc
      · exact h c hc
      · obtain rfl := List.mem_singleton.mp hc
        exact St.inv_start fun _ => .inl rfl
    | _ => exact h c hc
  | _ => exact h c hc

theorem put_prefix {p p' : St Pc} {e : Ev} (h : p.Move e p') (d : Dir) : (p.flow d).put <+: (p'.flow d).put := by
  cases h with
  | shutdown | goto => exact List.prefix_rfl
  | @take c bs pc =>
    by_cases hd : d = c
    · subst hd
      simp only [St.take, Function.update_self]
      exact List.prefix_rfl
    · rw [St.flow_take_of_ne hd]
  | @give c off k pc =>
    by_cases hd : d = c
    · subst hd
      simp only [St.give, Function.update_self]
      exact List.prefix_append ..
    · rw [St.flow_give_of_ne hd]

theorem ClientStep.later {running : Bool} {c c' : Pool.Slot (St Pc)} (h : ClientStep running c c') (d : Dir) :
    (member i).Later AtEnd d false c c' := by
  cases h with
  | keep | join => exact ⟨List.prefix_rfl, List.prefix_rfl, fun he => he.resolve_left nofun, fun ho => ⟨ho, rfl⟩⟩
  | @pump e p p' j hp =>
    have hm := hp.move
    refine ⟨?_, put_prefix hm d, fun he => ?_, fun ho => ?_⟩
    · show (p.flow d).got <+: (p'.flow d).got
      rw [hm.got d]
      exact List.prefix_append ..
    · obtain ⟨hc, hq⟩ := he.resolve_left nofun
      obtain ⟨hc', hf, -⟩ := Pump.MeshForwarder.closing_step hp hc
      exact ⟨hc', by rw [hf]; exact hq⟩
    · obtain ⟨hc', hf, -⟩ := Pump.MeshForwarder.closing_step hp ho
      exact ⟨hc', by show (p'.flow d).put = _; rw [hf]; rfl⟩

theorem kept : (member i).Kept (fun s => ∀ c ∈ s.clients, Holds c) AtEnd where
  init := rfl
  start c hc := by cases hc
  step hi hs := step_holds (step_cases hs) hi
  faithful := by
    intro s c hi hc d
    cases c with
    | refused => exact List.prefix_rfl
    | thread p j => exact (hi _ (List.mem_of_getElem? hc) d).isPrefix
  settled := by
    intro s c hi hc d he
    cases c with
    | refused => exact he.elim
    | thread p j => exact he.2
  later := by
    intro s x s' c hi hs hc
    obtain ⟨c', hc', hcs⟩ := step_client (step_cases hs) hc
    refine ⟨c', hc', fun d => ?_⟩
    have hl : (member i).Later AtEnd d false c c' := hcs.later d
    refine ⟨hl.got, hl.put, fun he => ?_, hl.frozen⟩
    rcases he with he | he
    · obtain rfl := ends_eq he
      obtain ⟨p, p', j, hp, hps, hp'⟩ := step_pump hs
      obtain rfl : Pool.Slot.thread p j = c := Option.some.inj (hp.symm.trans hc)
      obtain rfl : Pool.Slot.thread p' j = c' := Option.some.inj (hp'.symm.trans hc')
      have hinv : St.Inv slot { p with running := s.running } := inv_running (hi _ (List.mem_of_getElem? hc))
      have hq := Pump.MeshForwarder.settled_at_end hinv hps (socketEnd_eq_some.mpr rfl) d
      obtain ⟨-, rfl⟩ := Pump.MeshForwarder.end_cases hps (socketEnd_eq_some.mpr rfl)
      exact ⟨rfl, hq⟩
    · exact hl.atEnd (.inr he)
  here := by
    intro s x s' d hs he
    obtain rfl := ends_eq he
    obtain ⟨p, p', j, hp, -, -⟩ := step_pump hs
    exact ⟨_, hp⟩

end ErplTunnel.Lifecycle.MeshForwarder

/-! ## All the way -/

namespace ErplTunnel.Shim

open Relay Pump

/-- Client `i` of an import, the bridge `j` of its shim, and the connection `k`
of the exporter at the peer. -/
def path (i j k : Nat) (localAddr : String) : Hop Byte :=
  (Lifecycle.MeshForwarder.member i).hop.seq ((Bridges.member Byte j).hop.seq (Exporter.member Byte localAddr k).hop)

theorem path_lawful (i j k : Nat) (localAddr : String) : (path i j k localAddr).Lawful :=
  Lifecycle.MeshForwarder.kept.lawful.seq (Bridges.kept.lawful.seq Exporter.kept.lawful)

/-- However the three relays and whatever else runs beside them take turns, what
arrives at an end is a prefix of what was read at the other, and all of it once
each of them has come to the end of its stream. -/
theorem end_to_end (i j k : Nat) (localAddr : String) (is : List (path i j k localAddr).In)
    (s : (path i j k localAddr).State)
    (h : Lts.Run (path i j k localAddr).step (path i j k localAddr).init is s) (d : Dir) :
    ((path i j k localAddr).flow s d).put <+: ((path i j k localAddr).flow s d).got ∧
    (.inl (.pump i (.read d (.data []))) ∈ is → .inr (.inl (.run j (.eof d.opp))) ∈ is →
      .inr (.inr (.serve k (.bridge (.eof d)))) ∈ is →
      ((path i j k localAddr).flow s d).put = ((path i j k localAddr).flow s d).got) := by
  refine ⟨(path_lawful i j k localAddr).faithful is s h d, fun h₁ h₂ h₃ => ?_⟩
  refine (path_lawful i j k localAddr).complete is s h d ⟨?_, ?_, ?_⟩
  · exact ⟨_, mem_lefts.mpr h₁, decide_eq_true ⟨rfl, rfl⟩⟩
  · exact ⟨_, mem_lefts.mpr (mem_rights.mpr h₂), decide_eq_true ⟨rfl, rfl⟩⟩
  · exact ⟨_, mem_rights.mpr (mem_rights.mpr h₃), decide_eq_true ⟨rfl, rfl⟩⟩

/-- A client sends two bytes and is done; the exporting shim reads them one by
one, the first before the second has left the importing one. -/
def through : List (path 0 0 0 "127.0.0.1:8080").In :=
  [.inl .start, .inl (.startCall true), .inl (.startCall true), .inl (.startCall true), .inl (.startCall true),
    .inl (.probe true true), .inl (.accept .test), .inl (.accept (.select true)), .inl (.accept (.accept true)),
    .inl (.accept .test), .inl (.accept (.dial true)), .inl (.accept (.spawn (.const 0))),
    .inr (.inl .dial), .inr (.inr .accept), .inr (.inr (.serve 0 .track)), .inr (.inr (.serve 0 (.dial none))),
    .inr (.inr (.serve 0 .track)),
    .inl (.pump 0 .test), .inl (.pump 0 (.select (.ready true false))), .inl (.pump 0 (.read .up (.data [7, 8]))),
    .inl (.pump 0 .test), .inl (.pump 0 (.write .up (.count 2))), .inl (.pump 0 .test),
    .inr (.inl (.run 0 (.read .down [7, 8]))), .inr (.inl (.run 0 (.write .down 1))),
    .inr (.inr (.serve 0 (.bridge (.read .up [7])))), .inr (.inl (.run 0 (.write .down 1))),
    .inr (.inr (.serve 0 (.bridge (.write .up 1)))), .inr (.inr (.serve 0 (.bridge (.read .up [8])))),
    .inl (.pump 0 .test), .inl (.pump 0 (.select (.ready true false))), .inl (.pump 0 (.read .up (.data []))),
    .inr (.inl (.run 0 (.eof .down))), .inr (.inl (.run 0 (.closeWrite .down))),
    .inr (.inr (.serve 0 (.bridge (.write .up 1)))), .inr (.inr (.serve 0 (.bridge (.eof .up))))]

theorem end_to_end_through :
    ∃ s, Lts.Run (path 0 0 0 "127.0.0.1:8080").step (path 0 0 0 "127.0.0.1:8080").init through s ∧
      ((path 0 0 0 "127.0.0.1:8080").flow s .up).got = [7, 8] ∧
      ((path 0 0 0 "127.0.0.1:8080").flow s .up).put = ((path 0 0 0 "127.0.0.1:8080").flow s .up).got := by
  refine ⟨_, rfl, rfl, ?_⟩
  refine (end_to_end 0 0 0 "127.0.0.1:8080" through _ rfl .up).2 ?_ ?_ ?_
  · exact List.mem_of_getElem? (i := 31) rfl
  · exact List.mem_of_getElem? (i := 32) rfl
  · exact List.mem_of_getElem? (i := 35) rfl

end ErplTunnel.Shim

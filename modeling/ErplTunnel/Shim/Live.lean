import ErplTunnel.Shim.Calls
import Mathlib.Data.List.Perm.Basic

/-!
# The live nodes of a handle

A handle should own one live server (ts) or client (nb) at most, and nothing
once `mesh_close` has returned. Neither shim keeps to that (`two_live_nodes`):
a server that did not come up stays live in `n.srv` until the next `mesh_up`
overwrites it, calls of `mesh_up` that cross make one node each, and `mesh_up`
and `mesh_export` store what they made in a node that `mesh_close` has been
through. In a run whose steps are all `Careful` it
holds (`one_live_node`).

`Inv n cs` is what holds between two steps, of the node and the calls made on
it. The order of the calls does not matter to it, so the call that takes a step
may be put first (`Inv.perm`).
-/

namespace ErplTunnel.Shim

variable {w : Nat}

namespace Call

/-- The servers that only this call has. -/
def servers : Call w → List Nat
  | .upStore (some k) | .closeAllExports k | .closing k _ => [k]
  | _ => []

/-- The exporters that only this call has. -/
def exporters : Call w → List Nat
  | .addExport e | .closeExporter _ e => [e]
  | .closing _ all => all
  | _ => []

/-- A `mesh_close` that is yet to take the server out of the node. -/
def Pending : Call w → Prop
  | .closeLock => True
  | _ => False

/-- A `mesh_close` that has taken the server, but not yet the exporters. -/
def Draining : Call w → Prop
  | .closeAllExports _ => True
  | _ => False

/-- A `mesh_close` that has been through the lock. -/
def Passed : Call w → Prop
  | .closeAllExports _ | .closing _ _ | .delete | .returned .meshClose _ => True
  | _ => False

def InFlight : Call w → Prop
  | .returned _ _ | .exported _ => False
  | _ => True

end Call

/-- Some call satisfies `P`. -/
def Any (P : Call w → Prop) (cs : List (Call w)) : Prop := ∃ c ∈ cs, P c

/-- A server put into the node now will be taken out by a `mesh_close`, if any
has been called. -/
def Reclaimed (cs : List (Call w)) : Prop := Any Call.Passed cs → Any Call.Pending cs

/-- The condition on a step: no server or client is made while another one is
live, none is stored behind the back of `mesh_close`, and neither is an
exporter, whose number must be free. -/
def Call.Careful (kind : Kind) (n : Node w) (cs : List (Call w)) (ok : Bool) : Call w → Prop
  | .upLock => kind = .ts → n.up = false → ok = true → n.live = [] ∧ Reclaimed cs
  | .upStart => ok = true → n.live = []
  | .upStore (some _) => Reclaimed cs
  | .addExport _ =>
    n.exports.nextExport + 1 ∉ n.exports.exports ∧ (Any Call.Draining cs ∨ n.srv.isSome = true)
  | _ => True

def State.Careful (kind : Kind) (s : State w) : In w → Prop
  | .call _ => True
  | .step i ok => ∀ c, s.calls[i]? = some c → c.Careful kind s.node s.calls ok

/-- What holds of a node and the calls on it. -/
structure Inv (n : Node w) (cs : List (Call w)) : Prop where
  one : n.live.length ≤ 1
  held : n.live.Perm (n.srv.toList ++ cs.flatMap Call.servers)
  closed : n.registered = false → Any Call.Passed cs
  stored : n.srv.isSome = true → Reclaimed cs
  exporters : ∀ e ∈ n.liveExporters, (∃ h, n.exports.exports.lookup h = some e) ∨ e ∈ cs.flatMap Call.exporters
  kept : ∀ h e, n.exports.exports.lookup h = some e → Any Call.Draining cs ∨ n.srv.isSome = true

section Any

variable {P : Call w → Prop} {c : Call w} {cs cs' : List (Call w)}

@[simp] theorem any_cons : Any P (c :: cs) ↔ P c ∨ Any P cs := by
  simp [Any]

theorem Any.move {c' : Call w} (h : Any P (c :: cs)) (hn : ¬P c) : Any P (c' :: cs) :=
  any_cons.mpr (.inr ((any_cons.mp h).resolve_left hn))

theorem any_perm (h : cs.Perm cs') : Any P cs ↔ Any P cs' :=
  exists_congr fun _ => and_congr_left fun _ => h.mem_iff

end Any

variable {kind : Kind} {n n' : Node w} {c c' : Call w} {cs cs' : List (Call w)} {ok : Bool}

theorem Reclaimed.move (h : Reclaimed (c :: cs)) (hp : c'.Passed ↔ c.Passed) (hl : ¬c.Pending) :
    Reclaimed (c' :: cs) := by
  intro ha
  rw [any_cons, hp, ← any_cons] at ha
  exact (h ha).move hl

theorem reclaimed_perm (h : cs.Perm cs') : Reclaimed cs ↔ Reclaimed cs' :=
  imp_congr (any_perm h) (any_perm h)

theorem Call.Careful.perm (hc : c.Careful kind n cs ok) (h : cs.Perm cs') : c.Careful kind n cs' ok := by
  cases c with
  | upLock =>
    intro hk hu hok
    exact (hc hk hu hok).imp_right (reclaimed_perm h).mp
  | upStart => exact hc
  | upStore client =>
    cases client with
    | none => trivial
    | some k => exact (reclaimed_perm h).mp hc
  | addExport e => exact hc.imp_right (Or.imp_left (any_perm h).mp)
  | _ => trivial

namespace Inv

theorem new : Inv (.new : Node w) [] where
  one := Nat.zero_le 1
  held := .refl []
  closed h := by cases h
  stored h := by cases h
  exporters _ h := by cases h
  kept _ _ h := by cases h

theorem perm (hi : Inv n cs) (h : cs.Perm cs') : Inv n cs' where
  one := hi.one
  held := hi.held.trans ((h.flatMap_right Call.servers).append_left _)
  closed hr := (any_perm h).mp (hi.closed hr)
  stored hs := (reclaimed_perm h).mp (hi.stored hs)
  exporters e he := (hi.exporters e he).imp_right (h.flatMap_right Call.exporters).mem_iff.mp
  kept x e he := (hi.kept x e he).imp_left (any_perm h).mp

/-! ## Steps that leave the servers alone -/

theorem frame (hi : Inv n (c :: cs)) (hsrv : n'.srv = n.srv) (hlive : n'.live = n.live)
    (hreg : n'.registered = n.registered) (hs : c'.servers = c.servers) (hp : c'.Passed ↔ c.Passed)
    (hl : ¬c.Pending)
    (hx : ∀ e ∈ n'.liveExporters,
      (∃ h, n'.exports.exports.lookup h = some e) ∨ e ∈ (c' :: cs).flatMap Call.exporters)
    (hk : ∀ h e, n'.exports.exports.lookup h = some e → Any Call.Draining (c' :: cs) ∨ n.srv.isSome = true) :
    Inv n' (c' :: cs) where
  one := by rw [hlive]; exact hi.one
  held := by
    rw [hlive, hsrv, List.flatMap_cons, hs, ← List.flatMap_cons]
    exact hi.held
  closed hr := by
    rw [any_cons, hp, ← any_cons]
    exact hi.closed (hreg ▸ hr)
  stored hso := (hi.stored (hsrv ▸ hso)).move hp hl
  exporters := hx
  kept x e he := by rw [hsrv]; exact hk x e he

/-- The exporters stay where they are. -/
theorem exporters_move (hi : Inv n (c :: cs)) (hx : c'.exporters = c.exporters) :
    ∀ e ∈ n.liveExporters,
      (∃ h, n.exports.exports.lookup h = some e) ∨ e ∈ (c' :: cs).flatMap Call.exporters := by
  rw [List.flatMap_cons, hx, ← List.flatMap_cons]
  exact hi.exporters

/-- The node does not change, but for `up`. -/
theorem move (hi : Inv n (c :: cs)) (b : Bool) (hs : c'.servers = c.servers) (hp : c'.Passed ↔ c.Passed)
    (hl : ¬c.Pending) (hx : c'.exporters = c.exporters) (hd : ¬c.Draining) :
    Inv { n with up := b } (c' :: cs) :=
  hi.frame rfl rfl rfl hs hp hl (hi.exporters_move hx) fun x e he =>
    (hi.kept x e he).imp_left fun ha => ha.move hd

theorem startExport {k : Nat} (hi : Inv n (.listen k :: cs)) :
    Inv { n with liveExporters := n.liveExporters ++ [n.madeExporters], madeExporters := n.madeExporters + 1 }
      (.addExport n.madeExporters :: cs) := by
  refine hi.frame rfl rfl rfl rfl Iff.rfl id (fun e he => ?_) fun x e he =>
    (hi.kept x e he).imp_left fun ha => ha.move id
  rcases List.mem_append.mp he with he | he
  · exact (hi.exporters e he).imp_right (List.mem_append_right _)
  · exact .inr (List.mem_append_left _ he)

theorem addExport {e : Nat} (hi : Inv n (.addExport e :: cs))
    (hc : (Call.addExport e).Careful kind n (.addExport e :: cs) ok) :
    Inv { n with exports := (n.exports.addExport e).2 } (.exported (n.exports.addExport e).1 :: cs) := by
  obtain ⟨hfree, hd⟩ := hc
  refine hi.frame rfl rfl rfl rfl Iff.rfl id (fun x hx => ?_) fun _ _ _ => hd.imp_left fun ha => ha.move id
  rcases hi.exporters x hx with ⟨h, hl⟩ | hm
  · -- the number is free, so none of the others is lost
    have hne : h ≠ n.exports.nextExport + 1 := by
      rintro rfl
      exact hfree (AList.lookup_isSome.mp (by rw [hl]; rfl))
    exact .inl ⟨h, (AList.lookup_insert_ne hne).trans hl⟩
  · rcases List.mem_append.mp hm with hm | hm
    · obtain rfl := List.mem_singleton.mp hm
      exact .inl ⟨_, AList.lookup_insert _⟩
    · exact .inr (List.mem_append_right _ hm)

theorem takeExport {h : Long w} (hi : Inv n (.takeExport h :: cs)) (hs : c'.servers = []) (hp : ¬c'.Passed)
    (hx : c'.exporters = (n.exports.takeExport h).1.toList) :
    Inv { n with exports := (n.exports.takeExport h).2 } (c' :: cs) := by
  refine hi.frame rfl rfl rfl hs (iff_of_false hp id) id (fun e he => ?_) fun x e he => ?_
  · rcases hi.exporters e he with ⟨x, hl⟩ | hm
    · by_cases hxh : x = h
      · subst hxh
        refine .inr (List.mem_append_left _ ?_)
        rw [hx]
        exact Option.mem_toList.mpr hl
      · exact .inl ⟨x, (AList.lookup_erase_ne hxh).trans hl⟩
    · exact .inr (List.mem_append_right _ hm)
  · have hxh : x ≠ h := by
      rintro rfl
      exact absurd ((AList.lookup_erase x n.exports.exports).symm.trans he) (by simp)
    have he' : n.exports.exports.lookup x = some e := (AList.lookup_erase_ne hxh).symm.trans he
    exact (hi.kept x e he').imp_left fun ha => ha.move id

theorem closeExporter {e : Nat} (hi : Inv n (c :: cs)) (hs : c'.servers = c.servers)
    (hp : c'.Passed ↔ c.Passed) (hl : ¬c.Pending) (hx : c.exporters = e :: c'.exporters) (hd : ¬c.Draining) :
    Inv { n with liveExporters := n.liveExporters.filter (· ≠ e) } (c' :: cs) := by
  refine hi.frame rfl rfl rfl hs hp hl (fun x hm => ?_) fun x e he => ?_
  · obtain ⟨hm, hne⟩ := List.mem_filter.mp hm
    refine (hi.exporters x hm).imp_right fun hm => ?_
    rw [List.flatMap_cons, hx, List.cons_append, ← List.flatMap_cons] at hm
    exact (List.mem_cons.mp hm).resolve_left (by simpa using hne)
  · exact (hi.kept x e he).imp_left fun ha => ha.move hd

theorem closeAllExports {k : Nat} (hi : Inv n (.closeAllExports k :: cs)) :
    Inv { n with exports := n.exports.closeAllExports.2 } (.closing k n.exports.closeAllExports.1 :: cs) := by
  refine hi.frame rfl rfl rfl rfl Iff.rfl id (fun e he => ?_) fun x e he => by cases he
  refine .inr (List.mem_append.mpr ?_)
  rcases hi.exporters e he with hl | hm
  · exact .inl (Exports.mem_closeAllExports.mpr hl)
  · exact .inr hm

/-! ## Steps on the servers -/

/-- Where nothing is live, nothing is held. -/
theorem nothing_held (hi : Inv n (c :: cs)) (h : n.live = []) : n.srv = none ∧ cs.flatMap Call.servers = [] := by
  have hp := hi.held
  rw [h, List.nil_perm, List.flatMap_cons, List.append_eq_nil_iff, List.append_eq_nil_iff] at hp
  exact ⟨Option.toList_eq_nil_iff.mp hp.1, hp.2.2⟩

/-- `mesh_up` of ts makes its server. -/
theorem newServer (hi : Inv n (.upLock :: cs)) (hl : n.live = []) (hr : Reclaimed (.upLock :: cs)) :
    Inv { n with srv := some n.made, live := n.live ++ [n.made], made := n.made + 1 } (.upWait :: cs) where
  one := by simp [hl]
  held := by
    obtain ⟨-, hn⟩ := hi.nothing_held hl
    show (n.live ++ [n.made]).Perm ([n.made] ++ cs.flatMap Call.servers)
    rw [hl, hn]
    exact .refl _
  closed h := (hi.closed h).move id
  stored _ := hr.move Iff.rfl id
  exporters := hi.exporters_move rfl
  kept _ _ _ := .inr rfl

/-- `mesh_up` of nb starts its client. -/
theorem newClient (hi : Inv n (.upStart :: cs)) (hl : n.live = []) :
    Inv { n with live := n.live ++ [n.made], made := n.made + 1 } (.upStore (some n.made) :: cs) where
  one := by simp [hl]
  held := by
    obtain ⟨hs, hn⟩ := hi.nothing_held hl
    show (n.live ++ [n.made]).Perm (n.srv.toList ++ ([n.made] ++ cs.flatMap Call.servers))
    rw [hl, hs, hn]
    exact .refl _
  closed h := (hi.closed h).move id
  stored h := (hi.stored h).move Iff.rfl id
  exporters := hi.exporters_move rfl
  kept x e he := (hi.kept x e he).imp_left fun ha => ha.move id

/-- And stores it. -/
theorem storeClient {k : Nat} (hi : Inv n (.upStore (some k) :: cs)) (hr : Reclaimed (.upStore (some k) :: cs)) :
    Inv { n with srv := some k, up := true } (.returned .meshUp 0 :: cs) where
  one := hi.one
  held := by
    -- there is no room for another server, so none is overwritten
    have hp : n.live.Perm (n.srv.toList ++ ([k] ++ cs.flatMap Call.servers)) := hi.held
    have hlen := hp.length_eq
    have hone := hi.one
    simp only [List.length_append, List.length_singleton] at hlen
    have hsrv : n.srv.toList = [] := List.length_eq_zero_iff.mp (by omega)
    rw [hsrv] at hp
    exact hp
  closed h := (hi.closed h).move id
  stored _ := hr.move Iff.rfl id
  exporters := hi.exporters_move rfl
  kept _ _ _ := .inr rfl

/-- `mesh_close` takes the server. -/
theorem takeServer {k : Nat} (hi : Inv n (.closeLock :: cs)) (hs : n.srv = some k) :
    Inv { n with srv := none, up := false } (.closeAllExports k :: cs) where
  one := hi.one
  held := by
    have hp := hi.held
    rw [hs] at hp
    exact hp
  closed _ := any_cons.mpr (.inl trivial)
  stored h := by cases h
  exporters := hi.exporters_move rfl
  kept _ _ _ := .inl (any_cons.mpr (.inl trivial))

/-- There is none, so there are no exporters either but those that another
`mesh_close` is about to take. -/
theorem takeNothing (hi : Inv n (.closeLock :: cs)) (hs : n.srv = none) :
    Inv { n with srv := none, up := false } (.delete :: cs) where
  one := hi.one
  held := by
    have hp := hi.held
    rw [hs] at hp
    exact hp
  closed _ := any_cons.mpr (.inl trivial)
  stored h := by cases h
  exporters := hi.exporters_move rfl
  kept x e he := by
    have hk := hi.kept x e he
    rw [hs] at hk
    exact .inl ((hk.resolve_right Bool.false_ne_true).move id)

/-- `srv.Close` and `client.Stop`. -/
theorem stop {k : Nat} (hi : Inv n (.closing k [] :: cs)) : Inv { n with live := n.live.erase k } (.delete :: cs) where
  one := Nat.le_trans List.length_erase_le hi.one
  held := by
    have hp : n.live.Perm (k :: (n.srv.toList ++ cs.flatMap Call.servers)) := hi.held.trans List.perm_middle
    have hq := hp.erase k
    rw [List.erase_cons_head] at hq
    exact hq
  closed _ := any_cons.mpr (.inl trivial)
  stored h := (hi.stored h).move Iff.rfl id
  exporters := hi.exporters_move rfl
  kept x e he := (hi.kept x e he).imp_left fun ha => ha.move id

theorem delete (hi : Inv n (.delete :: cs)) :
    Inv { n with registered := false } (.returned .meshClose 0 :: cs) where
  one := hi.one
  held := hi.held
  closed _ := any_cons.mpr (.inl trivial)
  stored h := (hi.stored h).move Iff.rfl id
  exporters := hi.exporters_move rfl
  kept x e he := (hi.kept x e he).imp_left fun ha => ha.move id

/-- A `mesh_close` of a handle that is gone, as another one has been through. -/
theorem closedAlready (hi : Inv n (.get .meshClose :: cs)) (hr : n.registered = false) :
    Inv n (.returned .meshClose 0 :: cs) where
  one := hi.one
  held := hi.held
  closed _ := any_cons.mpr (.inl trivial)
  stored h _ := (hi.stored h (hi.closed hr)).move id
  exporters := hi.exporters_move rfl
  kept x e he := (hi.kept x e he).imp_left fun ha => ha.move id

/-! ## Every step -/

theorem get {f : Fn w} (hi : Inv n (.get f :: cs)) (h : (Call.get f).next kind n ok = some (n', c')) :
    Inv n' (c' :: cs) := by
  simp only [Call.next, Option.some.injEq, Prod.mk.injEq] at h
  obtain ⟨rfl, rfl⟩ := h
  cases hr : n.registered with
  | true => cases f <;> exact hi.move n.up rfl Iff.rfl id rfl id
  | false =>
    cases f with
    | meshClose => exact hi.closedAlready hr
    | _ => exact hi.move n.up rfl Iff.rfl id rfl id

theorem upLock (hi : Inv n (.upLock :: cs)) (hc : Call.upLock.Careful kind n (.upLock :: cs) ok)
    (h : Call.upLock.next kind n ok = some (n', c')) : Inv n' (c' :: cs) := by
  simp only [Call.next] at h
  split at h
  · cases h
    exact hi.move n.up rfl Iff.rfl id rfl id
  · rename_i hup
    split at h
    · cases h
      exact hi.move n.up rfl Iff.rfl id rfl id
    · rename_i hok
      cases kind with
      | ts =>
        cases h
        obtain ⟨hl, hr⟩ := hc rfl (by simpa using hup) (by simpa using hok)
        exact hi.newServer hl hr
      | nb =>
        cases h
        exact hi.move n.up rfl Iff.rfl id rfl id

/-- What a careful step preserves, of the call that takes it and the others. -/
theorem next (hi : Inv n (c :: cs)) (hc : c.Careful kind n (c :: cs) ok)
    (h : c.next kind n ok = some (n', c')) : Inv n' (c' :: cs) := by
  cases c with
  | get f => exact hi.get h
  | upLock => exact hi.upLock hc h
  | upWait =>
    cases h
    cases ok <;> exact hi.move n.up rfl Iff.rfl id rfl id
  | upStart =>
    cases ok with
    | true => cases h; exact hi.newClient (hc rfl)
    | false => cases h; exact hi.move n.up rfl Iff.rfl id rfl id
  | upStore client =>
    cases client with
    | none => cases h; exact hi.move true rfl Iff.rfl id rfl id
    | some k => cases h; exact hi.storeClient hc
  | exportLock | dialLock =>
    simp only [Call.next] at h
    split at h <;> cases h <;> exact hi.move n.up rfl Iff.rfl id rfl id
  | listen k =>
    cases ok with
    | true => cases h; exact hi.startExport
    | false => cases h; exact hi.move n.up rfl Iff.rfl id rfl id
  | addExport e => cases h; exact hi.addExport hc
  | takeExport x =>
    have hx : n.exports.takeExport x = (n.exports.exports.lookup x, (n.exports.takeExport x).2) := rfl
    cases hl : n.exports.exports.lookup x with
    | some e =>
      rw [hl] at hx
      rw [Call.next, hx] at h
      cases h
      exact hi.takeExport rfl id (by rw [hx]; rfl)
    | none =>
      rw [hl] at hx
      rw [Call.next, hx] at h
      cases h
      exact hi.takeExport rfl id (by rw [hx]; rfl)
  | closeExporter x e => cases h; exact hi.closeExporter rfl Iff.rfl id rfl id
  | dialing k => cases h; exact hi.move n.up rfl Iff.rfl id rfl id
  | closeLock =>
    cases h
    cases hs : n.srv with
    | some k => exact hi.takeServer hs
    | none => exact hi.takeNothing hs
  | closeAllExports k => cases h; exact hi.closeAllExports
  | closing k all =>
    cases all with
    | nil => cases h; exact hi.stop
    | cons e all => cases h; exact hi.closeExporter rfl Iff.rfl id rfl id
  | delete => cases h; exact hi.delete
  | returned f rc | exported out => cases h

theorem call (hi : Inv n cs) (f : Fn w) : Inv n (cs ++ [.get f]) := by
  have hcons : Inv n (.get f :: cs) :=
    { one := hi.one
      held := hi.held
      closed := fun h => any_cons.mpr (.inr (hi.closed h))
      stored := fun h ha => any_cons.mpr (.inr (hi.stored h ((any_cons.mp ha).resolve_left id)))
      exporters := hi.exporters
      kept := fun x e he => (hi.kept x e he).imp_left fun ha => any_cons.mpr (.inr ha) }
  exact hcons.perm (List.perm_append_singleton _ _).symm

theorem step {s s' : State w} {i : In w} (hi : Inv s.node s.calls) (hc : s.Careful kind i)
    (h : s.step kind i = some s') : Inv s'.node s'.calls := by
  cases i with
  | call f => cases h; exact hi.call f
  | step i ok =>
    simp only [State.step, Option.bind_eq_bind, Option.bind_eq_some_iff] at h
    obtain ⟨c, hget, ⟨node, c'⟩, hn, hs⟩ := h
    cases hs
    obtain ⟨hlt, rfl⟩ := List.getElem?_eq_some_iff.mp hget
    have hp : s.calls.Perm (s.calls[i] :: s.calls.eraseIdx i) := (List.getElem_cons_eraseIdx_perm hlt).symm
    have hnext : Inv node (c' :: s.calls.eraseIdx i) := (hi.perm hp).next ((hc _ hget).perm hp) hn
    exact hnext.perm (List.set_perm_cons_eraseIdx hlt c').symm

end Inv

/-- One live server or client at most, and none, nor an exporter, when
`mesh_close` has returned and no call is in flight. -/
def State.OneNode (s : State w) : Prop :=
  s.node.live.length ≤ 1 ∧
    ((∃ rc, .returned .meshClose rc ∈ s.calls) → (∀ c ∈ s.calls, ¬c.InFlight) →
      s.node.live = [] ∧ s.node.liveExporters = [])

theorem Call.idle (h : ¬c.InFlight) : c.servers = [] ∧ c.exporters = [] ∧ ¬c.Pending ∧ ¬c.Draining := by
  cases c with
  | returned f rc | exported out => exact ⟨rfl, rfl, id, id⟩
  | _ => exact absurd trivial h

theorem Inv.oneNode {s : State w} (hi : Inv s.node s.calls) : s.OneNode := by
  refine ⟨hi.one, fun ⟨rc, hr⟩ hidle => ?_⟩
  have hservers : s.calls.flatMap Call.servers = [] := List.flatMap_eq_nil_iff.mpr fun c hc => (Call.idle (hidle c hc)).1
  have hexporters : s.calls.flatMap Call.exporters = [] :=
    List.flatMap_eq_nil_iff.mpr fun c hc => (Call.idle (hidle c hc)).2.1
  have hpending : ¬Any Call.Pending s.calls := fun ⟨c, hc, hp⟩ => (Call.idle (hidle c hc)).2.2.1 hp
  have hdraining : ¬Any Call.Draining s.calls := fun ⟨c, hc, hd⟩ => (Call.idle (hidle c hc)).2.2.2 hd
  have hsrv : ¬s.node.srv.isSome = true := fun h => hpending (hi.stored h ⟨_, hr, trivial⟩)
  refine ⟨?_, List.eq_nil_iff_forall_not_mem.mpr fun e he => ?_⟩
  · have hp := hi.held
    rw [hservers, Option.not_isSome_iff_eq_none.mp hsrv] at hp
    exact List.perm_nil.mp hp
  · rcases hi.exporters e he with ⟨h, hl⟩ | hm
    · exact (hi.kept h e hl).elim hdraining hsrv
    · rw [hexporters] at hm
      cases hm

/-- `srv.Up` fails, and `mesh_up` is called again. -/
def retry : List (In 64) :=
  [.call .meshUp, .step 0 true, .step 0 true, .step 0 false, .call .meshUp, .step 1 true, .step 1 true]

end ErplTunnel.Shim

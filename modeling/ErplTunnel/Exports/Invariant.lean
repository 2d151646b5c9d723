import ErplTunnel.Exports.Layers
import ErplTunnel.Framework.Pool
import ErplTunnel.Mesh.BringUp

/-!
# Who holds an exported listener

What a node of the shim exports is held by the exporter that it was exported
for, from `mesh_export` to `mesh_unexport`, as long as the shim's counters have
not wrapped. `Inv` says so, and the lemmas below keep it: an exporter gets on
(`Inv.advance`), a backend is given a node (`Inv.moves`), an exporter is given a
listener (`Inv.exported`) and gives it back (`Inv.unexported`).
-/

namespace ErplTunnel.Exports

open Custody Pool
open Manager (TunnelId Tunnels Closer takeOut)
open Mesh (MeshBackend MeshOptions ShimCall UpOutcome Reply optionCalls)
open Shim (Long)

variable {w : Nat} {s s' : State w}

/-! ## The backend -/

/-- A node that a backend has can be called. -/
def Fit (b : MeshBackend) : Prop := (0 < b.node → b.api ≠ none) ∧ (b.up = true → 0 < b.node)

/-- The calls change nothing that is exported. -/
theorem foldl_optionCalls (g : GoShim w) (o : MeshOptions) (n : Int) :
    (optionCalls o n).foldl GoShim.call g = g := by
  have hinert (cs : List ShimCall) (h : ∀ c ∈ cs, ∀ g : GoShim w, g.call c = g) : cs.foldl GoShim.call g = g := by
    induction cs with
    | nil => rfl
    | cons c cs ih =>
      rw [List.foldl_cons, h c List.mem_cons_self g]
      exact ih fun d hd => h d (List.mem_cons_of_mem _ hd)
  refine hinert _ fun c hc g => ?_
  simp only [optionCalls, List.mem_append, List.mem_map, List.mem_singleton] at hc
  rcases hc with ⟨kv, -, rfl⟩ | rfl <;> rfl

/-- What `EnsureUp` does to the shim: it allocates a node for a backend that has
none, or nothing. -/
inductive Moves (s : State w) (b : Nat) : State w → Prop
  | keeps {b' : MeshBackend} (hf : Fit b') (hn : b'.node = (s.backends b).node) :
    Moves s b { s with backends := Function.update s.backends b b' }
  | allocates {b' : MeshBackend} (hf : Fit b') (hn : ¬0 < (s.backends b).node) (hb : b'.node = s.shim.nextH.toInt) :
    Moves s b { s with backends := Function.update s.backends b b', shim := s.shim.meshNew }

theorem through_keeps {b : Nat} {b' : MeshBackend} {cs : List ShimCall} (hc : b'.calls = (s.backends b).calls ++ cs)
    (hcs : cs.foldl GoShim.call s.shim = s.shim) :
    s.through b b' = { s with backends := Function.update s.backends b b' } := by
  rw [State.through, hc, List.drop_left, hcs]

theorem through_allocates {b : Nat} {b' : MeshBackend} {cs : List ShimCall}
    (hc : b'.calls = (s.backends b).calls ++ cs) (hcs : cs.foldl GoShim.call s.shim = s.shim.meshNew) :
    s.through b b' = { s with backends := Function.update s.backends b b', shim := s.shim.meshNew } := by
  rw [State.through, hc, List.drop_left, hcs]

theorem ensureUp_moves {b : Nat} (hf : Fit (s.backends b)) (o : UpOutcome) :
    Moves s b (s.ensureUp b o).2 ∧ ((s.ensureUp b o).1 = true → 0 < ((s.ensureUp b o).2.backends b).node) := by
  unfold State.ensureUp
  rcases Mesh.ensureUp_cases { o with node := s.shim.nextH.toInt } (s.backends b) with
    ⟨hu, he⟩ | ⟨hu, e, he⟩ | ⟨hu, hn, ho, e, api, he⟩ | ⟨hu, api, b', hb', hr⟩
  · rw [he]
    refine ⟨?_, fun _ => by simpa [State.through] using hf.2 hu⟩
    show Moves s b (s.through b (s.backends b))
    rw [through_keeps (List.append_nil _).symm rfl]
    exact .keeps hf rfl
  · rw [he]
    refine ⟨?_, nofun⟩
    show Moves s b (s.through b (s.backends b))
    rw [through_keeps (List.append_nil _).symm rfl]
    exact .keeps hf rfl
  · rw [he]
    refine ⟨?_, nofun⟩
    show Moves s b (s.through b _)
    rw [through_allocates rfl rfl]
    refine .allocates ⟨fun hp => absurd hp ho, fun h => ?_⟩ hn rfl
    exact absurd (hf.2 h) hn
  · have hopts (n : Int) (cs : List ShimCall) (hcs : ∀ g : GoShim w, cs.foldl GoShim.call g = g) :
        (.new n :: (optionCalls (s.backends b).opts n ++ cs)).foldl GoShim.call s.shim = s.shim.meshNew := by
      rw [List.foldl_cons, List.foldl_append, foldl_optionCalls, hcs]
      rfl
    obtain ⟨hn, rfl⟩ | ⟨hn, ho, rfl⟩ := hb'
    · obtain ⟨-, he⟩ | ⟨-, e, he⟩ := hr
      · rw [he]
        refine ⟨?_, fun _ => by simpa [State.through] using hn⟩
        show Moves s b (s.through b _)
        rw [through_keeps rfl rfl]
        exact .keeps ⟨fun _ => by simp, fun _ => hn⟩ rfl
      · rw [he]
        refine ⟨?_, nofun⟩
        show Moves s b (s.through b _)
        rw [through_keeps (List.append_assoc _ _ _) rfl]
        exact .keeps ⟨fun _ => by simp, fun _ => hn⟩ rfl
    · obtain ⟨-, he⟩ | ⟨-, e, he⟩ := hr
      · rw [he]
        refine ⟨?_, fun _ => by simpa [State.through] using ho⟩
        show Moves s b (s.through b _)
        rw [through_allocates (by simp only [List.append_assoc]; rfl) (hopts _ _ fun _ => rfl)]
        exact .allocates ⟨fun _ => by simp, fun _ => ho⟩ hn rfl
      · rw [he]
        refine ⟨?_, nofun⟩
        show Moves s b (s.through b _)
        rw [through_allocates (by simp only [List.append_assoc]; rfl) (hopts _ _ fun _ => rfl)]
        exact .allocates ⟨fun _ => by simp, fun _ => ho⟩ hn rfl

/-! ## The invariant -/

/-- How often the shim has given out a node. -/
def nodes (log : List (Op (Res w))) : Nat :=
  log.countP fun
    | .acquire (.node _) => true
    | _ => false

/-- How often it has given out a listener of node `n`. -/
def listeners (n : Long w) (log : List (Op (Res w))) : Nat :=
  log.countP fun
    | .acquire (.listener m _) => m = n
    | _ => false

/-- No counter of the shim has wrapped. -/
def Bounded (log : List (Op (Res w))) : Prop := nodes log ≤ 2 ^ w ∧ ∀ n, listeners n log < 2 ^ w

theorem Bounded.of_append {l₁ l₂ : List (Op (Res w))} (h : Bounded (l₁ ++ l₂)) : Bounded l₁ := by
  refine ⟨?_, fun n => ?_⟩
  · have hn := h.1
    rw [nodes, List.countP_append] at hn
    exact Nat.le_trans (Nat.le_add_right _ _) hn
  · have hn := h.2 n
    rw [listeners, List.countP_append] at hn
    exact Nat.lt_of_le_of_lt (Nat.le_add_right _ _) hn

/-- A listener is of a node that was given out. -/
def rule (held : Res w → Prop) : Op (Res w) → Prop
  | .acquire (.listener n _) => held (.node n)
  | _ => True

namespace Exporter

variable (e : Exporter w)

/-- The handle it was given is its own to give back. -/
def holding : Bool :=
  match e.phase with
  | .own _ _ | .selfJson _ | .started _ | .registered _ | .unexport _ _ => true
  | .close _ => e.listening
  | _ => false

/-- It has taken ownership of `h`. -/
def Owns (h : Long w) : Prop := e.got = some h ∧ e.exportHandle = h.toInt ∧ h ≠ 0 ∧ e.listening = true

def Clear : Prop := e.exportHandle = 0 ∧ e.listening = false

/-- What its fields are at each place. -/
def Fits : Prop :=
  match e.phase with
  | .ensureUp _ | .exportUp _ | .meshExport _ => e.Clear ∧ e.got = none
  | .own _ handle | .unexport handle _ => e.Clear ∧ ∃ h, e.got = some h ∧ handle = h.toInt ∧ h ≠ 0
  | .selfJson _ | .started _ | .registered _ => ∃ h, e.Owns h
  | .close _ => e.Clear ∨ ∃ h, e.Owns h
  | .closed | .destroyed => e.Clear

end Exporter

namespace State

/-- The node of the backend of an exporter. -/
def nodeOf (s : State w) (e : Exporter w) : Int := (s.backends e.backend).node

/-- Exporter `e` holds listener `h` of node `n`. -/
def Has (s : State w) (n h : Long w) (e : Exporter w) : Prop :=
  s.nodeOf e = n.toInt ∧ e.got = some h ∧ e.holding = true

/-- What is given out and not given back. -/
def Holds (s : State w) : Res w → Prop
  | .node n => n ∈ s.shim.reg
  | .listener n h => ∃ x, At (s.Has n h) s.exporters x

/-- What holds of each exporter. -/
structure Good (s : State w) (e : Exporter w) : Prop where
  fits : e.Fits
  up : ∀ id, e.phase = .meshExport id → 0 < s.nodeOf e
  got : ∀ h, e.got = some h → 0 < s.nodeOf e ∧
    ∃ n, s.nodeOf e = n.toInt ∧ .acquire (.listener n h) ∈ s.shim.log

end State

/-- What was given out stays in the log. -/
theorem State.Good.got_append {e : Exporter w} (hg : s.Good e) (l : List (Op (Res w))) (h : Long w)
    (hh : e.got = some h) :
    0 < s.nodeOf e ∧ ∃ n, s.nodeOf e = n.toInt ∧ .acquire (.listener n h) ∈ s.shim.log ++ l := by
  obtain ⟨hp, n, hn, hl⟩ := hg.got h hh
  exact ⟨hp, n, hn, List.mem_append_left _ hl⟩

structure Inv (s : State w) : Prop where
  nextH : s.shim.nextH = .ofNat w (nodes s.shim.log + 1)
  named : ∀ n, .acquire (.node n) ∈ s.shim.log → ∃ k, 0 < k ∧ k ≤ nodes s.shim.log ∧ n = .ofNat w k
  nextExport : ∀ n es, s.shim.reg.lookup n = some es → es.nextExport = .ofNat w (listeners n s.shim.log)
  issued : ∀ n h, .acquire (.listener n h) ∈ s.shim.log →
    ∃ k, 0 < k ∧ k ≤ listeners n s.shim.log ∧ h = .ofNat w k
  fit : ∀ b, Fit (s.backends b)
  node : ∀ b, 0 < (s.backends b).node → ∃ n, (s.backends b).node = n.toInt ∧ n ∈ s.shim.reg
  apart : ∀ b c, 0 < (s.backends b).node → (s.backends b).node = (s.backends c).node → b = c
  good : ∀ (x : Nat) e, s.exporters[x]? = some e → s.Good e
  inj : ∀ (x y : Nat) e f h, s.exporters[x]? = some e → s.exporters[y]? = some f → e.backend = f.backend →
    e.got = some h → f.got = some h → x = y
  kept : Kept rule s.Holds (fun r => .acquire r ∉ s.shim.log) s.shim.log
  exports : ∀ n es h, s.shim.reg.lookup n = some es → (h ∈ es.exports ↔ s.Holds (.listener n h))
  tunnels : ∀ id x, s.tunnels.lookup id = some x ↔ At (fun e => e.phase = .registered id) s.exporters x

theorem inv_start (opts : Nat → MeshOptions) : Inv (start opts : State w) where
  nextH := by simp [start, nodes]
  named n h := absurd h List.not_mem_nil
  nextExport n es h := by simp [start] at h
  issued n h hl := absurd hl List.not_mem_nil
  fit b := ⟨fun h => absurd h (Int.lt_irrefl 0), nofun⟩
  node b h := absurd h (Int.lt_irrefl 0)
  apart b c h := absurd h (Int.lt_irrefl 0)
  good x e h := by simp [start] at h
  inj x y e f h hx := by simp [start] at hx
  kept := by
    refine Kept.nil fun r => ?_
    cases r with
    | node n => exact List.not_mem_nil
    | listener n h => exact fun ⟨x, hx⟩ => not_at_nil hx
  exports n es h hr := by simp [start] at hr
  tunnels id x := iff_of_false (by simp [start]) not_at_nil

/-- The exporters have got on, each with the handle it was given. -/
theorem Inv.relabel (hi : Inv s) (f : Nat → Exporter w → Exporter w)
    (hf : ∀ x : Nat, s'.exporters[x]? = s.exporters[x]?.map (f x)) (hs : s'.shim = s.shim)
    (hb : s'.backends = s.backends)
    (he : ∀ (x : Nat) e, s.exporters[x]? = some e → (f x e).backend = e.backend ∧ (f x e).got = e.got ∧
      (f x e).holding = e.holding ∧ (f x e).Fits ∧ ∀ id, (f x e).phase = .meshExport id → 0 < s.nodeOf e)
    (ht : ∀ id x, s'.tunnels.lookup id = some x ↔ At (fun e => e.phase = .registered id) s'.exporters x) :
    Inv s' := by
  have hback {x : Nat} {e' : Exporter w} (h : s'.exporters[x]? = some e') :
      ∃ e, s.exporters[x]? = some e ∧ e' = f x e := by
    rw [hf] at h
    obtain ⟨e, hx, rfl⟩ := Option.map_eq_some_iff.mp h
    exact ⟨e, hx, rfl⟩
  have hnode {x : Nat} {e : Exporter w} (hx : s.exporters[x]? = some e) : s'.nodeOf (f x e) = s.nodeOf e := by
    rw [State.nodeOf, State.nodeOf, hb, (he x e hx).1]
  have hholds : ∀ r, s'.Holds r ↔ s.Holds r := by
    intro r
    cases r with
    | node n => simp only [State.Holds, hs]
    | listener n h =>
      refine exists_congr fun x => ⟨fun ⟨e', hx', hh⟩ => ?_, fun ⟨e, hx, hh⟩ => ?_⟩
      · obtain ⟨e, hx, rfl⟩ := hback hx'
        obtain ⟨-, hg, hhold, -⟩ := he x e hx
        exact ⟨e, hx, by rw [← hnode hx]; exact hh.1, hg ▸ hh.2.1, hhold ▸ hh.2.2⟩
      · obtain ⟨-, hg, hhold, -⟩ := he x e hx
        refine ⟨f x e, by rw [hf, hx]; rfl, ?_, hg.trans hh.2.1, hhold.trans hh.2.2⟩
        rw [hnode hx]
        exact hh.1
  constructor
  · rw [hs]; exact hi.nextH
  · rw [hs]; exact hi.named
  · rw [hs]; exact hi.nextExport
  · rw [hs]; exact hi.issued
  · rw [hb]; exact hi.fit
  · rw [hb, hs]; exact hi.node
  · rw [hb]; exact hi.apart
  · intro x e' hx'
    obtain ⟨e, hx, rfl⟩ := hback hx'
    obtain ⟨-, hg, -, hfits, hup⟩ := he x e hx
    refine ⟨hfits, fun id hp => ?_, fun h hh => ?_⟩
    · rw [hnode hx]; exact hup id hp
    · rw [hnode hx, hs]; exact (hi.good x e hx).got h (hg ▸ hh)
  · intro x y e' g' h hx' hy' hbe hge hgg
    obtain ⟨e, hx, rfl⟩ := hback hx'
    obtain ⟨g, hy, rfl⟩ := hback hy'
    rw [(he x e hx).1, (he y g hy).1] at hbe
    exact hi.inj x y e g h hx hy hbe ((he x e hx).2.1 ▸ hge) ((he y g hy).2.1 ▸ hgg)
  · rw [hs]; exact hi.kept.congr hholds fun _ hr => hr
  · intro n es h hr
    rw [hs] at hr
    rw [hholds]
    exact hi.exports n es h hr
  · exact ht

theorem getElem?_set_map {α : Type} {xs : List α} {x : Nat} {a b : α} (hx : xs[x]? = some a) (y : Nat) :
    (xs.set x b)[y]? = xs[y]?.map fun c => if y = x then b else c := by
  by_cases hy : y = x
  · subst hy
    have hlt : y < xs.length := (List.getElem?_eq_some_iff.mp hx).1
    simp [hlt]
  · simp [List.getElem?_set_ne (Ne.symm hy), hy]

/-- An entry of a list that changed at `x`. -/
theorem getElem?_set_cases {α : Type} {xs : List α} {x y : Nat} {b c : α} (h : (xs.set x b)[y]? = some c) :
    y = x ∧ c = b ∨ y ≠ x ∧ xs[y]? = some c := by
  by_cases hyx : y = x
  · subst hyx
    rw [List.getElem?_set_self'] at h
    obtain ⟨a, -, rfl⟩ := Option.map_eq_some_iff.mp h
    exact .inl ⟨rfl, rfl⟩
  · rw [List.getElem?_set_ne (Ne.symm hyx)] at h
    exact .inr ⟨hyx, h⟩

/-- Exporter `x` was not registered and is not now. -/
theorem Inv.tunnels_set {x : Nat} {e e' : Exporter w} (hi : Inv s) (hx : s.exporters[x]? = some e)
    (hr : ∀ id, e.phase ≠ .registered id) (hr' : ∀ id, e'.phase ≠ .registered id) (id : TunnelId) (y : Nat) :
    s.tunnels.lookup id = some y ↔ At (fun e => e.phase = .registered id) (s.exporters.set x e') y := by
  rw [hi.tunnels, at_set hx]
  simp only [hr', and_false, or_false]
  refine ⟨fun h => ⟨?_, h⟩, And.right⟩
  rintro rfl
  exact hr id ((at_iff hx).mp h)

/-- Exporter `x` keeps its backend and the handle it was given. -/
theorem Inv.inj_set {x : Nat} {e e' : Exporter w} (hi : Inv s) (hx : s.exporters[x]? = some e)
    (hb : e'.backend = e.backend) (hg : e'.got = e.got) (y z : Nat) (f g : Exporter w) (h : Long w)
    (hy : (s.exporters.set x e')[y]? = some f) (hz : (s.exporters.set x e')[z]? = some g)
    (hfg : f.backend = g.backend) (hf : f.got = some h) (hg' : g.got = some h) : y = z := by
  have hold {y : Nat} {f : Exporter w} (hy : (s.exporters.set x e')[y]? = some f) :
      ∃ f', s.exporters[y]? = some f' ∧ f.backend = f'.backend ∧ f.got = f'.got := by
    rcases getElem?_set_cases hy with ⟨rfl, rfl⟩ | ⟨-, hy⟩
    · exact ⟨e, hx, hb, hg⟩
    · exact ⟨f, hy, rfl, rfl⟩
  obtain ⟨f', hy, hfb, hff⟩ := hold hy
  obtain ⟨g', hz, hgb, hgg⟩ := hold hz
  rw [hfb, hgb] at hfg
  exact hi.inj y z f' g' h hy hz hfg (hff ▸ hf) (hgg ▸ hg')

/-- Exporter `x` gets on. -/
theorem Inv.advance {x : Nat} {e e' : Exporter w} (hi : Inv s) (hx : s.exporters[x]? = some e)
    (hs' : s' = { s with exporters := s.exporters.set x e' }) (hb : e'.backend = e.backend) (hg : e'.got = e.got)
    (hh : e'.holding = e.holding) (hf : e'.Fits) (hm : ∀ id, e'.phase = .meshExport id → 0 < s.nodeOf e)
    (hr : ∀ id, e.phase ≠ .registered id) (hr' : ∀ id, e'.phase ≠ .registered id) : Inv s' := by
  subst hs'
  refine hi.relabel (fun y f => if y = x then e' else f) (getElem?_set_map hx) rfl rfl (fun y f hy => ?_)
    (hi.tunnels_set hx hr hr')
  by_cases hyx : y = x
  · subst hyx
    obtain rfl : e = f := Option.some.inj (hx.symm.trans hy)
    rw [if_pos rfl]
    exact ⟨hb, hg, hh, hf, hm⟩
  · rw [if_neg hyx]
    exact ⟨rfl, rfl, rfl, (hi.good y f hy).fits, (hi.good y f hy).up⟩

/-- What is held depends on the nodes of those that were given a handle. -/
theorem holds_listener_congr {n h : Long w} (hx : s'.exporters = s.exporters)
    (hn : ∀ (x : Nat) e, s.exporters[x]? = some e → e.got = some h → s'.nodeOf e = s.nodeOf e) :
    s'.Holds (.listener n h) ↔ s.Holds (.listener n h) := by
  refine exists_congr fun x => ?_
  rw [hx]
  refine ⟨fun ⟨e, he, hh⟩ => ⟨e, he, ?_, hh.2⟩, fun ⟨e, he, hh⟩ => ⟨e, he, ?_, hh.2⟩⟩
  · rw [← hn x e he hh.2.1]; exact hh.1
  · rw [hn x e he hh.2.1]; exact hh.1

theorem Inv.node_of_listener {n h : Long w} (hi : Inv s) (hl : .acquire (.listener n h) ∈ s.shim.log) :
    .acquire (.node n) ∈ s.shim.log := by
  obtain ⟨l₁, l₂, hlog⟩ := List.append_of_mem hl
  have hr : Held l₁ (.node n) := hi.kept.ruled hlog
  rw [hlog]
  exact List.mem_append_left _ hr.1

theorem Inv.listeners_eq_zero {n : Long w} (hi : Inv s) (hn : .acquire (.node n) ∉ s.shim.log) :
    listeners n s.shim.log = 0 := by
  refine List.countP_eq_zero.mpr fun op hop => ?_
  split
  · rename_i m h
    simp only [decide_eq_true_eq]
    rintro rfl
    exact hn (hi.node_of_listener hop)
  · simp

theorem nodes_snoc_node (log : List (Op (Res w))) (n : Long w) : nodes (log ++ [.acquire (.node n)]) = nodes log + 1 := by
  simp [nodes, List.countP_append]

theorem listeners_snoc_node (log : List (Op (Res w))) (m n : Long w) :
    listeners m (log ++ [.acquire (.node n)]) = listeners m log := by
  simp [listeners, List.countP_append]

/-- The node that comes next is a new one. -/
theorem Inv.fresh (hi : Inv s) (hb : nodes s.shim.log < 2 ^ w) : .acquire (.node s.shim.nextH) ∉ s.shim.log := by
  intro hm
  obtain ⟨k, hk, hkn, he⟩ := hi.named _ hm
  rw [hi.nextH] at he
  exact Shim.ofNat_ne_ofNat_succ hk hkn hb he.symm

theorem Inv.acquired_node {n : Long w} (hi : Inv s) (hn : n ∈ s.shim.reg) : .acquire (.node n) ∈ s.shim.log :=
  ((hi.kept.held (.node n)).mp hn).1

theorem Inv.keeps {b : Nat} {b' : MeshBackend} (hi : Inv s) (hf : Fit b') (hn : b'.node = (s.backends b).node) :
    Inv { s with backends := Function.update s.backends b b' } := by
  have hnode (c : Nat) : (Function.update s.backends b b' c).node = (s.backends c).node := by
    by_cases hc : c = b
    · subst hc; simpa using hn
    · simp [hc]
  have hof (e : Exporter w) :
      State.nodeOf { s with backends := Function.update s.backends b b' } e = s.nodeOf e := hnode _
  have hholds : ∀ r, State.Holds { s with backends := Function.update s.backends b b' } r ↔ s.Holds r := by
    intro r
    cases r with
    | node n => exact Iff.rfl
    | listener n h => exact holds_listener_congr rfl fun _ e _ _ => hof e
  refine { hi with fit := fun c => ?_, node := ?_, apart := ?_, good := ?_, kept := ?_, exports := ?_ }
  · by_cases hc : c = b
    · subst hc; simpa using hf
    · simpa [hc] using hi.fit c
  · intro c
    rw [hnode]
    exact hi.node c
  · intro c d
    rw [hnode, hnode]
    exact hi.apart c d
  · intro x e hx
    obtain ⟨h₁, h₂, h₃⟩ := hi.good x e hx
    refine ⟨h₁, ?_, ?_⟩
    · rw [hof]; exact h₂
    · rw [hof]; exact h₃
  · exact hi.kept.congr hholds fun _ hr => hr
  · intro n es h hr
    rw [hholds]
    exact hi.exports n es h hr

/-- A backend has made calls that change nothing. -/
theorem Inv.called (hi : Inv s) (b : Nat) (cs : List ShimCall) : Inv { s with
    backends := Function.update s.backends b { s.backends b with calls := (s.backends b).calls ++ cs } } :=
  hi.keeps (hi.fit b) rfl

/-- A new node is no other backend's. -/
theorem Inv.apart_allocates {b : Nat} {b' : MeshBackend} (hi : Inv s) (hnot : s.shim.nextH ∉ s.shim.reg)
    (hb' : b'.node = s.shim.nextH.toInt) (c d : Nat) (hp : 0 < (Function.update s.backends b b' c).node)
    (hcd : (Function.update s.backends b b' c).node = (Function.update s.backends b b' d).node) : c = d := by
  have hnew {d : Nat} (hd : (s.backends d).node = s.shim.nextH.toInt) (hp : 0 < (s.backends d).node) : False := by
    obtain ⟨n, hdn, hreg⟩ := hi.node d hp
    exact hnot (BitVec.toInt_inj.mp (hdn.symm.trans hd) ▸ hreg)
  by_cases hc : c = b
  · by_cases hd : d = b
    · rw [hc, hd]
    · subst hc
      simp only [Function.update_self, Function.update_of_ne hd] at hp hcd
      exact (hnew (hcd.symm.trans hb') (hcd ▸ hp)).elim
  · by_cases hd : d = b
    · subst hd
      simp only [Function.update_self, Function.update_of_ne hc] at hp hcd
      exact (hnew (hcd.trans hb') hp).elim
    · simp only [Function.update_of_ne hc, Function.update_of_ne hd] at hp hcd
      exact hi.apart c d hp hcd

theorem Inv.allocates {b : Nat} {b' : MeshBackend} (hi : Inv s) (hf : Fit b') (hn : ¬0 < (s.backends b).node)
    (hb' : b'.node = s.shim.nextH.toInt) (hb : nodes s.shim.log < 2 ^ w) :
    Inv { s with backends := Function.update s.backends b b', shim := s.shim.meshNew } := by
  have hfresh := hi.fresh hb
  have hnot : s.shim.nextH ∉ s.shim.reg := fun h => hfresh (hi.acquired_node h)
  have hother {e : Exporter w} (he : 0 < s.nodeOf e) :
      State.nodeOf { s with backends := Function.update s.backends b b', shim := s.shim.meshNew } e = s.nodeOf e := by
    have hne : e.backend ≠ b := fun h => hn (h ▸ he)
    simp [State.nodeOf, hne]
  have hlistener (n h : Long w) :
      State.Holds { s with backends := Function.update s.backends b b', shim := s.shim.meshNew } (.listener n h) ↔
        s.Holds (.listener n h) :=
    holds_listener_congr rfl fun x e hx hg => hother ((hi.good x e hx).got h hg).1
  constructor
  · show s.shim.nextH + 1 = .ofNat w (nodes (s.shim.log ++ [.acquire (.node s.shim.nextH)]) + 1)
    rw [nodes_snoc_node, hi.nextH, Shim.ofNat_succ]
  · intro n hm
    show ∃ k, 0 < k ∧ k ≤ nodes (s.shim.log ++ [.acquire (.node s.shim.nextH)]) ∧ n = .ofNat w k
    rw [nodes_snoc_node]
    rcases List.mem_append.mp hm with hm | hm
    · obtain ⟨k, hk, hkn, he⟩ := hi.named n hm
      exact ⟨k, hk, by omega, he⟩
    · obtain rfl : n = s.shim.nextH := by simpa using hm
      exact ⟨nodes s.shim.log + 1, by omega, by omega, hi.nextH⟩
  · intro n es hl
    show _ = BitVec.ofNat w (listeners n (s.shim.log ++ [.acquire (.node s.shim.nextH)]))
    rw [listeners_snoc_node]
    by_cases hne : n = s.shim.nextH
    · subst hne
      rw [hi.listeners_eq_zero hfresh]
      obtain rfl : Shim.Exports.empty = es := by simpa [GoShim.meshNew] using hl
      rfl
    · refine hi.nextExport n es ?_
      simpa [GoShim.meshNew, AList.lookup_insert_ne hne] using hl
  · intro n h hl
    show ∃ k, 0 < k ∧ k ≤ listeners n (s.shim.log ++ [.acquire (.node s.shim.nextH)]) ∧ h = .ofNat w k
    rw [listeners_snoc_node]
    exact hi.issued n h (by simpa [GoShim.meshNew] using hl)
  · intro c
    by_cases hc : c = b
    · subst hc; simpa using hf
    · simpa [hc] using hi.fit c
  · intro c hp
    by_cases hc : c = b
    · subst hc
      exact ⟨s.shim.nextH, by simpa using hb', by simp [GoShim.meshNew]⟩
    · obtain ⟨n, hcn, hreg⟩ := hi.node c (by simpa [hc] using hp)
      exact ⟨n, by simpa [hc] using hcn, by simp [GoShim.meshNew, hreg]⟩
  · exact hi.apart_allocates hnot hb'
  · intro x e hx
    obtain ⟨h₁, h₂, h₃⟩ := hi.good x e hx
    refine ⟨h₁, fun id hp => ?_, fun h hg => ?_⟩
    · rw [hother (h₂ id hp)]; exact h₂ id hp
    · obtain ⟨hp, n, hne, hl⟩ := h₃ h hg
      rw [hother hp]
      exact ⟨hp, n, hne, List.mem_append_left _ hl⟩
  · exact hi.inj
  · refine hi.kept.acquire hfresh trivial (fun r => ?_) fun r hr => ?_
    · cases r with
      | node n => simp [State.Holds, GoShim.meshNew, or_comm]
      | listener n h => simp [hlistener]
    · simp only [GoShim.meshNew, List.mem_append, List.mem_singleton, not_or] at hr
      exact ⟨hr.1, fun he => hr.2 (by rw [he])⟩
  · intro n es h hr
    rw [hlistener]
    by_cases hne : n = s.shim.nextH
    · subst hne
      obtain rfl : Shim.Exports.empty = es := by simpa [GoShim.meshNew] using hr
      exact iff_of_false List.not_mem_nil fun hh => hfresh (hi.node_of_listener ((hi.kept.held _).mp hh).1)
    · refine hi.exports n es h ?_
      simpa [GoShim.meshNew, AList.lookup_insert_ne hne] using hr
  · exact hi.tunnels

/-- A backend has a node or is given one. -/
theorem Inv.moves {b : Nat} (hi : Inv s) (hm : Moves s b s') (hb : Bounded s'.shim.log) : Inv s' := by
  cases hm with
  | keeps hf hn => exact hi.keeps hf hn
  | allocates hf hn hb' =>
    refine hi.allocates hf hn hb' ?_
    have hle : nodes (s.shim.log ++ [.acquire (.node s.shim.nextH)]) ≤ 2 ^ w := hb.1
    rw [nodes_snoc_node] at hle
    omega

theorem nodes_snoc_listener (log : List (Op (Res w))) (n h : Long w) :
    nodes (log ++ [.acquire (.listener n h)]) = nodes log := by
  simp [nodes, List.countP_append]

theorem listeners_snoc_self (log : List (Op (Res w))) (n h : Long w) :
    listeners n (log ++ [.acquire (.listener n h)]) = listeners n log + 1 := by
  simp [listeners, List.countP_append]

theorem listeners_snoc_ne (log : List (Op (Res w))) {m n : Long w} (h : Long w) (hne : m ≠ n) :
    listeners m (log ++ [.acquire (.listener n h)]) = listeners m log := by
  simp [listeners, List.countP_append, Ne.symm hne]

section Exported

/-! ### Exporter `x` is given listener `h` of node `n` -/

variable {x : Nat} {e : Exporter w} {id : TunnelId} {n h : Long w}

/-- Who holds what then. -/
theorem holds_exported (hx : s.exporters[x]? = some e) (hgot : e.got = none) (hn : s.nodeOf e = n.toInt)
    (m k : Long w) : (∃ y, At (s.Has m k) (s.exporters.set x { e with
      phase := .own id h.toInt, got := some h }) y) ↔ s.Holds (.listener m k) ∨ m = n ∧ k = h := by
  have hnot : ¬At (s.Has m k) s.exporters x := fun ha => by
    have hk : e.got = some k := ((at_iff hx).mp ha).2.1
    rw [hgot] at hk
    cases hk
  constructor
  · rintro ⟨y, hy⟩
    rcases (at_set hx).mp hy with ⟨-, hy⟩ | ⟨-, hm, hk, -⟩
    · exact .inl ⟨y, hy⟩
    · exact .inr ⟨BitVec.toInt_inj.mp (hm.symm.trans hn), (Option.some.inj hk).symm⟩
  · rintro (⟨y, hy⟩ | ⟨rfl, rfl⟩)
    · exact ⟨y, (at_set hx).mpr (.inl ⟨fun h => hnot (h ▸ hy), hy⟩)⟩
    · exact ⟨x, (at_set hx).mpr (.inr ⟨rfl, hn, rfl, rfl⟩)⟩

theorem Inv.nextExport_exported {es : Shim.Exports w Unit} (hi : Inv s) (hh : h = .ofNat w (listeners n s.shim.log + 1))
    (hnext : es.nextExport = h) (m : Long w) (fs : Shim.Exports w Unit)
    (hm : (s.shim.reg.insert n es).lookup m = some fs) :
    fs.nextExport = .ofNat w (listeners m (s.shim.log ++ [.acquire (.listener n h)])) := by
  by_cases hmn : m = n
  · subst hmn
    rw [listeners_snoc_self, ← hh]
    obtain rfl : es = fs := by simpa using hm
    exact hnext
  · rw [listeners_snoc_ne _ _ hmn]
    exact hi.nextExport m fs (by simpa [AList.lookup_insert_ne hmn] using hm)

theorem Inv.issued_exported (hi : Inv s) (hh : h = .ofNat w (listeners n s.shim.log + 1)) (m k : Long w)
    (hm : .acquire (.listener m k) ∈ s.shim.log ++ [.acquire (.listener n h)]) :
    ∃ j, 0 < j ∧ j ≤ listeners m (s.shim.log ++ [.acquire (.listener n h)]) ∧ k = .ofNat w j := by
  rcases List.mem_append.mp hm with hm | hm
  · obtain ⟨j, hj, hjn, he⟩ := hi.issued m k hm
    refine ⟨j, hj, Nat.le_trans hjn ?_, he⟩
    rw [listeners, listeners, List.countP_append]
    exact Nat.le_add_right _ _
  · obtain ⟨rfl, rfl⟩ : m = n ∧ k = h := by simpa using hm
    exact ⟨listeners m s.shim.log + 1, by omega, by rw [listeners_snoc_self], hh⟩

/-- The listener is new, so no other exporter was given it. -/
theorem Inv.inj_exported (hi : Inv s) (hn : s.nodeOf e = n.toInt) (hfresh : .acquire (.listener n h) ∉ s.shim.log)
    (y z : Nat) (f g : Exporter w) (k : Long w)
    (hy : (s.exporters.set x { e with phase := .own id h.toInt, got := some h })[y]? = some f)
    (hz : (s.exporters.set x { e with phase := .own id h.toInt, got := some h })[z]? = some g)
    (hbe : f.backend = g.backend) (hf : f.got = some k) (hg : g.got = some k) : y = z := by
  have hother {y : Nat} {f : Exporter w} (hy : s.exporters[y]? = some f) (hb : e.backend = f.backend)
      (hk : f.got = some h) : False := by
    obtain ⟨-, m, hm, hl⟩ := (hi.good y f hy).got h hk
    have hmn : m.toInt = n.toInt := by rw [← hm, ← hn, State.nodeOf, State.nodeOf, hb]
    exact hfresh (BitVec.toInt_inj.mp hmn ▸ hl)
  rcases getElem?_set_cases hy with ⟨hyx, rfl⟩ | ⟨-, hy⟩ <;>
    rcases getElem?_set_cases hz with ⟨hzx, rfl⟩ | ⟨-, hz⟩
  · rw [hyx, hzx]
  · rw [← Option.some.inj hf] at hg
    exact (hother hz hbe hg).elim
  · rw [← Option.some.inj hg] at hf
    exact (hother hy hbe.symm hf).elim
  · exact hi.inj y z f g k hy hz hbe hf hg

end Exported

/-- Exporter `x` is given a listener of node `n`. -/
theorem Inv.exported {x : Nat} {e : Exporter w} {id : TunnelId} {n : Long w} {es : Shim.Exports w Unit} (hi : Inv s)
    (hx : s.exporters[x]? = some e) (hp : e.phase = .meshExport id) (hn : s.nodeOf e = n.toInt)
    (hl : s.shim.reg.lookup n = some es) (hb : listeners n s.shim.log + 1 < 2 ^ w) :
    Inv { s with
      shim := { s.shim with
        reg := s.shim.reg.insert n (es.addExport ()).2
        log := s.shim.log ++ [.acquire (.listener n (es.addExport ()).1)] }
      exporters := s.exporters.set x { e with
        phase := .own id (BitVec.toInt (es.addExport ()).1), got := some (es.addExport ()).1 } } := by
  have hh : (es.addExport ()).1 = .ofNat w (listeners n s.shim.log + 1) := by
    rw [← Shim.ofNat_succ, ← hi.nextExport n es hl]
    rfl
  have hnext : (es.addExport ()).2.nextExport = (es.addExport ()).1 := rfl
  have hexports (k : Long w) : k ∈ (es.addExport ()).2.exports ↔ k = (es.addExport ()).1 ∨ k ∈ es.exports :=
    AList.mem_insert _
  generalize (es.addExport ()).1 = h at *
  generalize (es.addExport ()).2 = es' at *
  have hg := hi.good x e hx
  have hpos : 0 < s.nodeOf e := hg.up id hp
  have hgot : e.got = none := by
    have hf := hg.fits
    rw [Exporter.Fits, hp] at hf
    exact hf.2
  have hfresh : .acquire (.listener n h) ∉ s.shim.log := by
    intro hm
    obtain ⟨k, hk, hkn, he⟩ := hi.issued n h hm
    exact Shim.ofNat_ne_ofNat_succ hk hkn (by omega) (he.symm.trans hh)
  have hne0 : h ≠ 0 := hh ▸ Shim.ofNat_succ_ne_zero hb
  have hclear : e.Clear := by
    have hf := hg.fits
    rw [Exporter.Fits, hp] at hf
    exact hf.1
  have hlistener (m k : Long w) : (∃ y, At (s.Has m k) (s.exporters.set x { e with
      phase := .own id h.toInt, got := some h }) y) ↔ s.Holds (.listener m k) ∨ m = n ∧ k = h :=
    holds_exported hx hgot hn m k
  constructor
  · show s.shim.nextH = .ofNat w (nodes (s.shim.log ++ [.acquire (.listener n h)]) + 1)
    rw [nodes_snoc_listener]
    exact hi.nextH
  · intro m hm
    show ∃ k, 0 < k ∧ k ≤ nodes (s.shim.log ++ [.acquire (.listener n h)]) ∧ m = .ofNat w k
    rw [nodes_snoc_listener]
    exact hi.named m (by simpa using hm)
  · exact hi.nextExport_exported hh hnext
  · exact hi.issued_exported hh
  · exact hi.fit
  · intro b hp
    obtain ⟨m, hbm, hreg⟩ := hi.node b hp
    exact ⟨m, hbm, by simp [hreg]⟩
  · exact hi.apart
  · intro y f hy
    rcases getElem?_set_cases hy with ⟨-, rfl⟩ | ⟨-, hy⟩
    · refine ⟨⟨hclear, h, rfl, rfl, hne0⟩, nofun, fun k hk => ⟨hpos, n, hn, ?_⟩⟩
      rw [← Option.some.inj hk]
      simp
    · have hf := hi.good y f hy
      exact ⟨hf.fits, hf.up, hf.got_append _⟩
  · exact hi.inj_exported hn hfresh
  · refine hi.kept.acquire hfresh ?_ (fun r => ?_) fun r hr => ?_
    · exact AList.lookup_isSome.mp (by rw [hl]; rfl)
    · cases r with
      | node m =>
        have hreg : n ∈ s.shim.reg := AList.lookup_isSome.mp (by rw [hl]; rfl)
        simp only [State.Holds, AList.mem_insert, reduceCtorEq, or_false]
        exact ⟨fun h => h.elim (fun he => he ▸ hreg) fun h => h, .inr⟩
      | listener m k =>
        refine (hlistener m k).trans ?_
        simp
    · simp only [List.mem_append, List.mem_singleton, not_or] at hr
      exact ⟨hr.1, fun he => hr.2 (by rw [he])⟩
  · intro m fs k hm
    refine Iff.trans ?_ (hlistener m k).symm
    by_cases hmn : m = n
    · subst hmn
      obtain rfl : es' = fs := by simpa using hm
      rw [hexports, hi.exports m es k hl]
      simp [or_comm]
    · rw [hi.exports m fs k (by simpa [AList.lookup_insert_ne hmn] using hm)]
      simp [hmn]
  · exact hi.tunnels_set hx (by simp [hp]) fun _ h => by cases h

theorem nodes_snoc_release (log : List (Op (Res w))) (r : Res w) : nodes (log ++ [.release r]) = nodes log := by
  simp [nodes, List.countP_append]

theorem listeners_snoc_release (log : List (Op (Res w))) (n : Long w) (r : Res w) :
    listeners n (log ++ [.release r]) = listeners n log := by
  simp [listeners, List.countP_append]

theorem afterClose_fits {e : Exporter w} (destructor : Bool) (hc : e.Clear) :
    Exporter.Fits { e with phase := afterClose destructor } := by
  cases destructor <;> exact hc

theorem afterClose_not_holding (e : Exporter w) (destructor : Bool) :
    Exporter.holding { e with phase := afterClose destructor } = false := by
  cases destructor <;> rfl

theorem afterClose_ne_registered (destructor : Bool) (id : TunnelId) : afterClose destructor ≠ .registered id := by
  cases destructor <;> nofun

theorem afterClose_ne_meshExport (destructor : Bool) (id : TunnelId) : afterClose destructor ≠ .meshExport id := by
  cases destructor <;> nofun

/-- Who holds what when exporter `x` has given listener `h` of node `n` back. -/
theorem Inv.holds_unexported {x : Nat} {e : Exporter w} {destructor : Bool} {n h : Long w} (hi : Inv s)
    (hx : s.exporters[x]? = some e) (hg : e.got = some h) (hn : s.nodeOf e = n.toInt) (m k : Long w) :
    (∃ y, At (s.Has m k) (s.exporters.set x { e with phase := afterClose destructor }) y) ↔
      s.Holds (.listener m k) ∧ Res.listener m k ≠ .listener n h := by
  have hpos : 0 < s.nodeOf e := ((hi.good x e hx).got h hg).1
  constructor
  · rintro ⟨y, hy⟩
    rcases (at_set hx).mp hy with ⟨hyx, f, hf, hm, hk, hhold⟩ | ⟨-, -, -, hhold⟩
    · refine ⟨⟨y, f, hf, hm, hk, hhold⟩, fun he => hyx ?_⟩
      obtain ⟨rfl, rfl⟩ := Res.listener.inj he
      have hb : f.backend = e.backend := (hi.apart e.backend f.backend hpos (hn.trans hm.symm)).symm
      exact hi.inj y x f e k hf hx hb hk hg
    · rw [afterClose_not_holding] at hhold
      cases hhold
  · rintro ⟨⟨y, hy⟩, hne⟩
    refine ⟨y, (at_set hx).mpr (.inl ⟨fun hyx => hne ?_, hy⟩)⟩
    obtain ⟨hm, hk, -⟩ := (at_iff hx).mp (hyx ▸ hy)
    rw [BitVec.toInt_inj.mp (hm.symm.trans hn), Option.some.inj (hk.symm.trans hg)]

/-- Exporter `x` gives listener `h` of node `n` back. -/
theorem Inv.unexported {x : Nat} {e : Exporter w} {handle : Int} {destructor : Bool} {n h : Long w} (hi : Inv s)
    (hx : s.exporters[x]? = some e) (hp : e.phase = .unexport handle destructor) (hg : e.got = some h)
    (hn : s.nodeOf e = n.toInt) :
    Inv { s with
      shim := s.shim.meshUnexport n h
      exporters := s.exporters.set x { e with phase := afterClose destructor } } := by
  have hgood := hi.good x e hx
  have hpos : 0 < s.nodeOf e := (hgood.got h hg).1
  have hclear : e.Clear := by
    have hf := hgood.fits
    rw [Exporter.Fits, hp] at hf
    exact hf.1
  have hreg : n ∈ s.shim.reg := by
    obtain ⟨m, hm, hreg⟩ := hi.node e.backend hpos
    exact BitVec.toInt_inj.mp (hm.symm.trans hn) ▸ hreg
  obtain ⟨es, hl⟩ := Option.isSome_iff_exists.mp (AList.lookup_isSome.mpr hreg)
  have hhas : s.Has n h e := ⟨hn, hg, by rw [Exporter.holding, hp]⟩
  have hlistener (m k : Long w) : (∃ y, At (s.Has m k) (s.exporters.set x { e with
      phase := afterClose destructor }) y) ↔ s.Holds (.listener m k) ∧ Res.listener m k ≠ .listener n h :=
    hi.holds_unexported hx hg hn m k
  have hreg' : (s.shim.meshUnexport n h).reg = s.shim.reg.insert n (es.takeExport h).2 := by
    simp only [GoShim.meshUnexport, hl]
  constructor
  · show s.shim.nextH = .ofNat w (nodes (s.shim.log ++ [.release (.listener n h)]) + 1)
    rw [nodes_snoc_release]
    exact hi.nextH
  · intro m hm
    show ∃ k, 0 < k ∧ k ≤ nodes (s.shim.log ++ [.release (.listener n h)]) ∧ m = .ofNat w k
    rw [nodes_snoc_release]
    exact hi.named m (by simpa [GoShim.meshUnexport] using hm)
  · intro m fs hm
    show _ = BitVec.ofNat w (listeners m (s.shim.log ++ [.release (.listener n h)]))
    rw [listeners_snoc_release]
    have hm : (s.shim.reg.insert n (es.takeExport h).2).lookup m = some fs := hreg' ▸ hm
    by_cases hmn : m = n
    · subst hmn
      obtain rfl : (es.takeExport h).2 = fs := by simpa using hm
      exact hi.nextExport m es hl
    · exact hi.nextExport m fs (by simpa [AList.lookup_insert_ne hmn] using hm)
  · intro m k hm
    show ∃ j, 0 < j ∧ j ≤ listeners m (s.shim.log ++ [.release (.listener n h)]) ∧ k = .ofNat w j
    rw [listeners_snoc_release]
    exact hi.issued m k (by simpa [GoShim.meshUnexport] using hm)
  · exact hi.fit
  · intro b hp
    obtain ⟨m, hbm, hm⟩ := hi.node b hp
    exact ⟨m, hbm, by show m ∈ (s.shim.meshUnexport n h).reg; rw [hreg']; simp [hm]⟩
  · exact hi.apart
  · intro y f hy
    rcases getElem?_set_cases hy with ⟨-, rfl⟩ | ⟨-, hy⟩
    · exact ⟨afterClose_fits _ hclear, fun id h => absurd h (afterClose_ne_meshExport _ _), hgood.got_append _⟩
    · have hf := hi.good y f hy
      exact ⟨hf.fits, hf.up, hf.got_append _⟩
  · exact hi.inj_set hx rfl rfl
  · refine hi.kept.release ⟨x, (at_iff hx).mpr hhas⟩ trivial (fun r => ?_) fun r hr => ?_
    · cases r with
      | node m =>
        show m ∈ (s.shim.meshUnexport n h).reg ↔ _
        rw [hreg']
        simp only [State.Holds, AList.mem_insert, ne_eq, reduceCtorEq, not_false_eq_true, and_true]
        exact ⟨fun h => h.elim (fun he => he ▸ hreg) fun h => h, .inr⟩
      | listener m k => exact hlistener m k
    · simpa [GoShim.meshUnexport] using hr
  · intro m fs k hm
    refine Iff.trans ?_ (hlistener m k).symm
    have hm : (s.shim.reg.insert n (es.takeExport h).2).lookup m = some fs := hreg' ▸ hm
    by_cases hmn : m = n
    · subst hmn
      obtain rfl : (es.takeExport h).2 = fs := by simpa using hm
      have hk : k ∈ (es.takeExport h).2.exports ↔ k ≠ h ∧ k ∈ es.exports := AList.mem_erase
      rw [hk, hi.exports m es k hl]
      simp [and_comm]
    · rw [hi.exports m fs k (by simpa [AList.lookup_insert_ne hmn] using hm)]
      simp [hmn]
  · exact hi.tunnels_set hx (by simp [hp]) (afterClose_ne_registered _)

end ErplTunnel.Exports

import ErplTunnel.Exports.Invariant
import ErplTunnel.Manager.Steps

/-!
# C++ and Go agree on what is exported

Every step keeps the invariant, so in every run in which the shim's counters
have not wrapped what the nodes export is what the registered exporters hold,
and every handle is given back once (`exports_agree`). Once the counter of a
node has wrapped it gives out 0, which `Close` takes for no handle
(`export_stranded`).
-/

namespace ErplTunnel.Exports

open Custody Pool
open Manager (TunnelId Tunnels Closer takeOut)
open Mesh (MeshBackend MeshOptions ShimCall UpOutcome Reply)
open Shim (Long)

variable {w : Nat} {s s' : State w}

/-! ## The steps -/

theorem Inv.create {e : Exporter w} {id : TunnelId} (hi : Inv s) (hp : e.phase = .ensureUp id) (hc : e.Clear)
    (hg : e.got = none) : Inv { s with nextTunnelId := s.nextTunnelId + 1, exporters := s.exporters ++ [e] } := by
  have hnew {x : Nat} {f : Exporter w} (hx : (s.exporters ++ [e])[x]? = some f) : s.exporters[x]? = some f ∨ f = e := by
    rcases Nat.lt_or_ge x s.exporters.length with hlt | hge
    · rw [List.getElem?_append_left hlt] at hx
      exact .inl hx
    · rw [List.getElem?_append_right hge, List.getElem?_singleton] at hx
      split at hx
      · exact .inr (Option.some.inj hx).symm
      · cases hx
  have hholds : ∀ r, State.Holds { s with
      nextTunnelId := s.nextTunnelId + 1, exporters := s.exporters ++ [e] } r ↔ s.Holds r := by
    intro r
    cases r with
    | node n => exact Iff.rfl
    | listener n h =>
      refine exists_congr fun x => at_snoc.trans ?_
      refine or_iff_left fun hx => ?_
      have hgot : e.got = some h := hx.2.2.1
      rw [hg] at hgot
      cases hgot
  refine { hi with good := ?_, inj := ?_, kept := ?_, exports := ?_, tunnels := ?_ }
  · intro x f hx
    rcases hnew hx with hx | rfl
    · exact ⟨(hi.good x f hx).fits, (hi.good x f hx).up, (hi.good x f hx).got⟩
    · refine ⟨?_, fun i h => ?_, fun h hh => ?_⟩
      · rw [Exporter.Fits, hp]; exact ⟨hc, hg⟩
      · rw [hp] at h; cases h
      · rw [hg] at hh; cases hh
  · intro x y f g h hx hy hb hf hg'
    rcases hnew hx with hx | rfl
    · rcases hnew hy with hy | rfl
      · exact hi.inj x y f g h hx hy hb hf hg'
      · rw [hg] at hg'; cases hg'
    · rw [hg] at hf; cases hf
  · exact hi.kept.congr hholds fun _ hr => hr
  · intro n es h hr
    rw [hholds]
    exact hi.exports n es h hr
  · intro i x
    rw [hi.tunnels, at_snoc]
    refine (or_iff_left fun hx => ?_).symm
    rw [hp] at hx
    cases hx.2

/-- Whoever is registered under an id owns a listener. -/
theorem Inv.owns {x : Nat} {id : TunnelId} {e : Exporter w} (hi : Inv s) (hl : s.tunnels.lookup id = some x)
    (hx : s.exporters[x]? = some e) : e.phase = .registered id ∧ ∃ h, e.Owns h := by
  have hp : e.phase = .registered id := (at_iff hx).mp ((hi.tunnels id x).mp hl)
  have hf := (hi.good x e hx).fits
  rw [Exporter.Fits, hp] at hf
  exact ⟨hp, hf⟩

/-- An owner is told to close. -/
theorem Exporter.Owns.toClose {e : Exporter w} {h : Long w} (ho : e.Owns h) (destructor : Bool) :
    Exporter.holding { e with phase := .close destructor } = true ∧
      Exporter.Fits { e with phase := .close destructor } :=
  ⟨ho.2.2.2, .inr ⟨h, ho⟩⟩

theorem Inv.lookup_inj {id id' : TunnelId} {x : Nat} (hi : Inv s) (h : s.tunnels.lookup id = some x)
    (h' : s.tunnels.lookup id' = some x) : id = id' := by
  obtain ⟨e, hx, hp⟩ := (hi.tunnels id x).mp h
  have hp' : e.phase = .registered id' := (at_iff hx).mp ((hi.tunnels id' x).mp h')
  exact Phase.registered.inj (hp.symm.trans hp')

theorem Inv.take (hi : Inv s) (op : Closer) : Inv (s.takeStep op) := by
  have hmem {x : Nat} (hx : x ∈ (takeOut s.tunnels s.isActive op).1) : ∃ id, s.tunnels.lookup id = some x := by
    obtain ⟨id, hl, -⟩ := Manager.mem_takeOut.mp hx
    exact ⟨id, hl⟩
  have hidx (x : Nat) : (s.takeStep op).exporters[x]? = s.exporters[x]?.map fun e =>
      if x ∈ (takeOut s.tunnels s.isActive op).1 then { e with phase := .close false } else e :=
    List.getElem?_mapIdx
  refine hi.relabel (fun x e => if x ∈ (takeOut s.tunnels s.isActive op).1 then { e with phase := .close false } else e)
    hidx rfl rfl (fun x e hx => ?_) fun id x => ?_
  · by_cases ht : x ∈ (takeOut s.tunnels s.isActive op).1
    · rw [if_pos ht]
      obtain ⟨id, hl⟩ := hmem ht
      obtain ⟨hp, h, ho⟩ := hi.owns hl hx
      refine ⟨rfl, rfl, ?_, (ho.toClose false).2, nofun⟩
      rw [(ho.toClose false).1, Exporter.holding, hp]
    · rw [if_neg ht]
      exact ⟨rfl, rfl, rfl, (hi.good x e hx).fits, (hi.good x e hx).up⟩
  · show (takeOut s.tunnels s.isActive op).2.lookup id = some x ↔ ∃ f, (s.takeStep op).exporters[x]? = some f ∧ _
    constructor
    · intro hl
      have hl' := Manager.takeOut_sub hl
      obtain ⟨e, hx, hp⟩ := (hi.tunnels id x).mp hl'
      have hn : x ∉ (takeOut s.tunnels s.isActive op).1 := by
        intro hm
        obtain ⟨id', hl₁, hnone⟩ := Manager.mem_takeOut.mp hm
        obtain rfl := hi.lookup_inj hl' hl₁
        rw [hl] at hnone
        cases hnone
      exact ⟨e, by rw [hidx, hx]; simp [hn], hp⟩
    · rintro ⟨f, hf, hp⟩
      rw [hidx] at hf
      obtain ⟨e, hx, rfl⟩ := Option.map_eq_some_iff.mp hf
      by_cases ht : x ∈ (takeOut s.tunnels s.isActive op).1
      · rw [if_pos ht] at hp
        cases hp
      · rw [if_neg ht] at hp
        exact Manager.takeOut_kept ((hi.tunnels id x).mpr ⟨e, hx, hp⟩) ht

/-- The registered exporter `y` that an insert displaces is destroyed. -/
theorem displace_exporters (hi : Inv s) (id : TunnelId) (y : Nat) :
    (s.displace id).exporters[y]? = s.exporters[y]?.map fun f =>
      if s.tunnels.lookup id = some y then { f with phase := .close true } else f := by
  unfold State.displace
  split
  · rename_i hl
    simp [hl]
  · rename_i z hl
    obtain ⟨f, hz, -⟩ := (hi.tunnels id z).mp hl
    rw [hz]
    show (s.exporters.set z _)[y]? = _
    rw [getElem?_set_map hz, hl]
    by_cases hy : y = z
    · subst hy
      simp [hz]
    · simp [hy, Ne.symm hy]

theorem Inv.insert {x : Nat} {e : Exporter w} {id : TunnelId} (hi : Inv s) (hx : s.exporters[x]? = some e)
    (hp : e.phase = .started id) : Inv { (s.displace id).setPhase x e (.registered id) with
      tunnels := s.tunnels.insert id x } := by
  have hnot {i : TunnelId} (hl : s.tunnels.lookup i = some x) : False := by
    have h := (hi.owns hl hx).1
    rw [hp] at h
    cases h
  have hidx (y : Nat) : ((s.displace id).setPhase x e (.registered id)).exporters[y]? = s.exporters[y]?.map fun f =>
      if y = x then { e with phase := .registered id }
      else if s.tunnels.lookup id = some y then { f with phase := .close true } else f := by
    have hne : s.tunnels.lookup id ≠ some x := hnot
    have hdx : (s.displace id).exporters[x]? = some e := by
      rw [displace_exporters hi, hx]
      simp [hne]
    show ((s.displace id).exporters.set x _)[y]? = _
    rw [getElem?_set_map hdx, displace_exporters hi, Option.map_map]
    rfl
  have hshim : (s.displace id).shim = s.shim ∧ (s.displace id).backends = s.backends := by
    unfold State.displace
    split
    · exact ⟨rfl, rfl⟩
    · split <;> exact ⟨rfl, rfl⟩
  have hown : ∃ h, e.Owns h := by
    have hf := (hi.good x e hx).fits
    rw [Exporter.Fits, hp] at hf
    exact hf
  refine hi.relabel (fun y f => if y = x then { e with phase := .registered id }
    else if s.tunnels.lookup id = some y then { f with phase := .close true } else f) hidx hshim.1 hshim.2
    (fun y f hy => ?_) fun i y => ?_
  · by_cases hyx : y = x
    · subst hyx
      obtain rfl : e = f := Option.some.inj (hx.symm.trans hy)
      rw [if_pos rfl]
      exact ⟨rfl, rfl, by rw [Exporter.holding, Exporter.holding, hp], hown, fun _ h => by cases h⟩
    · rw [if_neg hyx]
      by_cases hl : s.tunnels.lookup id = some y
      · rw [if_pos hl]
        obtain ⟨hpf, h, ho⟩ := hi.owns hl hy
        refine ⟨rfl, rfl, ?_, (ho.toClose true).2, fun _ h => by cases h⟩
        rw [(ho.toClose true).1, Exporter.holding, hpf]
      · rw [if_neg hl]
        exact ⟨rfl, rfl, rfl, (hi.good y f hy).fits, (hi.good y f hy).up⟩
  · show (s.tunnels.insert id x).lookup i = some y ↔
      ∃ f, ((s.displace id).setPhase x e (.registered id)).exporters[y]? = some f ∧ f.phase = .registered i
    rw [hidx]
    by_cases hyx : y = x
    · subst hyx
      rw [hx]
      simp only [if_true, Option.map_some, Option.some.injEq, exists_eq_left', Phase.registered.injEq]
      by_cases hid : i = id
      · subst hid
        simp
      · rw [AList.lookup_insert_ne hid]
        exact iff_of_false hnot fun h => hid h.symm
    · simp only [if_neg hyx, Option.map_eq_some_iff]
      by_cases hid : i = id
      · subst hid
        refine iff_of_false (by simpa using Ne.symm hyx) ?_
        rintro ⟨f, ⟨g, hy, rfl⟩, hpf⟩
        by_cases hl : s.tunnels.lookup i = some y
        · rw [if_pos hl] at hpf
          cases hpf
        · rw [if_neg hl] at hpf
          exact hl ((hi.tunnels i y).mpr ⟨g, hy, hpf⟩)
      · rw [AList.lookup_insert_ne hid]
        constructor
        · intro hl
          obtain ⟨g, hy, hpf⟩ := (hi.tunnels i y).mp hl
          refine ⟨g, ⟨g, hy, if_neg fun hl' => hid (hi.lookup_inj hl hl')⟩, hpf⟩
        · rintro ⟨f, ⟨g, hy, rfl⟩, hpf⟩
          by_cases hl : s.tunnels.lookup id = some y
          · rw [if_pos hl] at hpf
            cases hpf
          · rw [if_neg hl] at hpf
            exact (hi.tunnels i y).mpr ⟨g, hy, hpf⟩

theorem Moves.exporters {b : Nat} (h : Moves s b s') : s'.exporters = s.exporters := by
  cases h <;> rfl

/-- An exporter with nothing to give back is destroyed. -/
theorem Inv.abandon {x : Nat} {e : Exporter w} (hi : Inv s) (hx : s.exporters[x]? = some e) (hc : e.Clear)
    (hh : e.holding = false) (hr : ∀ id, e.phase ≠ .registered id) : Inv (s.setPhase x e (.close true)) :=
  hi.advance hx rfl rfl rfl (hc.2.trans hh.symm) (.inl hc) nofun hr nofun

theorem Inv.up {x : Nat} {e : Exporter w} {o : UpOutcome} {next : Phase} (hi : Inv s) (hx : s.exporters[x]? = some e)
    (hh : e.holding = false) (hc : e.Clear) (hr : ∀ id, e.phase ≠ .registered id)
    (hf : Exporter.Fits { e with phase := next }) (hh' : Exporter.holding { e with phase := next } = false)
    (hr' : ∀ id, next ≠ .registered id) (hb : Bounded (s.upStep x e o next).shim.log) :
    Inv (s.upStep x e o next) := by
  obtain ⟨hm, hup⟩ := ensureUp_moves (hi.fit e.backend) o
  unfold State.upStep at hb ⊢
  revert hb hm hup
  rcases s.ensureUp e.backend o with ⟨ok, s₁⟩
  intro hb hm hup
  have hx₁ : s₁.exporters[x]? = some e := hm.exporters ▸ hx
  cases ok with
  | true => exact (hi.moves hm hb).advance hx₁ rfl rfl rfl (hh'.trans hh.symm) hf (fun _ _ => hup rfl) hr hr'
  | false => exact (hi.moves hm hb).abandon hx₁ hc hh hr

/-- The calls of a method are all that it changes of a backend. -/
theorem resume_backend (m : Mesh.Method) (r : Reply) (b : MeshBackend) :
    ∃ cs, ((Mesh.resume m r).exec b).2 = { b with calls := b.calls ++ cs } := by
  obtain ⟨cs, he, -⟩ := Mesh.Talks.resume m r b rfl
  exact ⟨cs, he⟩

theorem resume_meshExport (p q : Int) (host : String) (r : Reply) (b : MeshBackend) :
    (r.rc = 0 → ((Mesh.resume (.meshExport p host q) r).exec b).1 = .ok (.handle r.handle)) ∧
      (r.rc ≠ 0 → ∃ err, ((Mesh.resume (.meshExport p host q) r).exec b).1 = .error err) := by
  refine ⟨fun h => ?_, fun h => ?_⟩
  · simp only [Mesh.resume, Mesh.issue, Throws.exec_bind, Throws.exec_get, Throws.exec_modify,
      if_neg (not_not_intro h), Throws.exec_pure]
  · simp only [Mesh.resume, Mesh.issue, Mesh.throwLast, Mesh.lastError, Throws.exec_bind, Throws.exec_get,
      Throws.exec_modify, if_pos h]
    split <;> exact ⟨_, rfl⟩

/-- `mesh_export` fails and the exporter is destroyed. -/
theorem exportStep_false {x : Nat} {e : Exporter w} {id : TunnelId} {errmsg : String} :
    ∃ cs, s.exportStep x e id false errmsg = { s with
      backends := Function.update s.backends e.backend { s.backends e.backend with
        calls := (s.backends e.backend).calls ++ cs }
      exporters := s.exporters.set x { e with phase := .close true } } := by
  have hm : s.shim.meshExport (.ofInt w (s.backends e.backend).node) false = (none, s.shim) := by
    unfold GoShim.meshExport
    split <;> rfl
  obtain ⟨cs, hcs⟩ := resume_backend (.meshExport e.meshPort e.localHost e.localPort)
    (exportReply (none : Option (Long w)) errmsg) (s.backends e.backend)
  obtain ⟨err, herr⟩ := (resume_meshExport e.meshPort e.localPort e.localHost
    (exportReply (none : Option (Long w)) errmsg) (s.backends e.backend)).2 (show (1 : Int) ≠ 0 by decide)
  refine ⟨cs, ?_⟩
  simp only [State.exportStep, hm]
  rw [hcs, herr]
  rfl

/-- `mesh_export` gives out a listener of the exporter's node. -/
theorem exportStep_true {x : Nat} {e : Exporter w} {n : Long w} {es : Shim.Exports w Unit}
    (hn : s.nodeOf e = n.toInt) (hl : s.shim.reg.lookup n = some es) (id : TunnelId) (errmsg : String) :
    ∃ cs, s.exportStep x e id true errmsg = { s with
      shim := { s.shim with
        reg := s.shim.reg.insert n (es.addExport ()).2
        log := s.shim.log ++ [.acquire (.listener n (es.addExport ()).1)] }
      backends := Function.update s.backends e.backend { s.backends e.backend with
        calls := (s.backends e.backend).calls ++ cs }
      exporters := s.exporters.set x { e with
        phase := .own id (BitVec.toInt (es.addExport ()).1), got := some (es.addExport ()).1 } } := by
  have hnode : BitVec.ofInt w (s.backends e.backend).node = n := by
    rw [show (s.backends e.backend).node = n.toInt from hn, BitVec.ofInt_toInt]
  have hm : s.shim.meshExport n true = (some (es.addExport ()).1, { s.shim with
      reg := s.shim.reg.insert n (es.addExport ()).2
      log := s.shim.log ++ [.acquire (.listener n (es.addExport ()).1)] }) := by
    simp [GoShim.meshExport, hl]
  obtain ⟨cs, hcs⟩ := resume_backend (.meshExport e.meshPort e.localHost e.localPort)
    (exportReply (some (es.addExport ()).1) errmsg) (s.backends e.backend)
  have hret := (resume_meshExport e.meshPort e.localPort e.localHost
    (exportReply (some (es.addExport ()).1) errmsg) (s.backends e.backend)).1 rfl
  refine ⟨cs, ?_⟩
  simp only [State.exportStep, hnode, hm]
  rw [hcs, hret]
  rfl

/-- `Unexport` of a handle reaches the shim. -/
theorem unexportStep_eq {x : Nat} {e : Exporter w} {n h : Long w} (hf : Fit (s.backends e.backend))
    (hpos : 0 < s.nodeOf e) (hn : s.nodeOf e = n.toInt) (hne : h ≠ 0) (destructor : Bool) :
    s.unexportStep x e h.toInt destructor = { s with
      shim := s.shim.meshUnexport n h
      backends := Function.update s.backends e.backend { s.backends e.backend with
        calls := (s.backends e.backend).calls ++ [.meshUnexport (s.backends e.backend).node h.toInt] }
      exporters := s.exporters.set x { e with phase := afterClose destructor } } := by
  have hne' : h.toInt ≠ 0 := fun h0 => hne (BitVec.toInt_inj.mp (h0.trans BitVec.toInt_zero.symm))
  have hexec : ((Mesh.unexport h.toInt).exec (s.backends e.backend)).2 = { s.backends e.backend with
      calls := (s.backends e.backend).calls ++ [.meshUnexport (s.backends e.backend).node h.toInt] } := by
    have hc : (s.backends e.backend).api ≠ none ∧ 0 < (s.backends e.backend).node ∧ h.toInt ≠ 0 :=
      ⟨hf.1 hpos, hpos, hne'⟩
    simp only [Mesh.unexport, Mesh.issue, Throws.exec_bind, Throws.exec_get, if_pos hc, Throws.exec_modify]
  have hnode : BitVec.ofInt w (s.backends e.backend).node = n := by
    rw [show (s.backends e.backend).node = n.toInt from hn, BitVec.ofInt_toInt]
  unfold State.unexportStep
  rw [if_pos hne', hexec]
  simp only [State.through, List.drop_left, List.foldl_cons, List.foldl_nil, GoShim.call, hnode, BitVec.ofInt_toInt]
  rfl

theorem Step.inv (h : Step s s') (hi : Inv s) (hb : Bounded s'.shim.log) : Inv s' := by
  cases h with
  | create => exact hi.create rfl ⟨rfl, rfl⟩ rfl
  | take => exact hi.take _
  | @ensureUp x e o id hx hp =>
    have hf := (hi.good x e hx).fits
    rw [Exporter.Fits, hp] at hf
    exact hi.up hx (by rw [Exporter.holding, hp]) hf.1 (by simp [hp]) hf rfl (fun _ h => by cases h) hb
  | @exportUp x e o id hx hp =>
    have hf := (hi.good x e hx).fits
    rw [Exporter.Fits, hp] at hf
    exact hi.up hx (by rw [Exporter.holding, hp]) hf.1 (by simp [hp]) hf rfl (fun _ h => by cases h) hb
  | @meshExport x e ok errmsg id hx hp =>
    have hg := hi.good x e hx
    have hf := hg.fits
    rw [Exporter.Fits, hp] at hf
    cases ok with
    | false =>
      obtain ⟨cs, he⟩ := exportStep_false (s := s) (x := x) (e := e)
      rw [he]
      exact (hi.called e.backend cs).abandon hx hf.1 (by rw [Exporter.holding, hp]) (by simp [hp])
    | true =>
      obtain ⟨n, hn, hreg⟩ := hi.node e.backend (hg.up id hp)
      obtain ⟨es, hl⟩ := Option.isSome_iff_exists.mp (AList.lookup_isSome.mpr hreg)
      obtain ⟨cs, he⟩ := exportStep_true (x := x) hn hl id errmsg
      rw [he] at hb ⊢
      have hlt : listeners n s.shim.log + 1 < 2 ^ w := by
        have hlt := hb.2 n
        rwa [listeners_snoc_self] at hlt
      refine (hi.called e.backend cs).exported hx hp ?_ hl hlt
      simpa [State.nodeOf] using hn
  | @own x e id handle hx hp =>
    have hf := (hi.good x e hx).fits
    rw [Exporter.Fits, hp] at hf
    obtain ⟨-, h, hg, hh, hne⟩ := hf
    exact hi.advance hx rfl rfl rfl (by rw [Exporter.holding, Exporter.holding, hp]) ⟨h, hg, hh, hne, rfl⟩
      (fun _ h => by cases h) (by simp [hp]) fun _ h => by cases h
  | @selfJson x e o r id hx hp =>
    obtain ⟨hm, hup⟩ := ensureUp_moves (hi.fit e.backend) o
    unfold State.selfJsonStep at hb ⊢
    revert hb hm hup
    rcases s.ensureUp e.backend o with ⟨ok, s₁⟩
    intro hb hm hup
    cases ok with
    | true =>
      have hi₁ : Inv s₁ := hi.moves hm hb
      obtain ⟨cs, hcs⟩ := resume_backend .selfJson r (s₁.backends e.backend)
      simp only [hcs]
      exact hi₁.called e.backend cs
    | false => exact hi.moves hm hb
  | @settle x e ok id hx hp =>
    have hf := (hi.good x e hx).fits
    rw [Exporter.Fits, hp] at hf
    have hh : e.holding = true := by rw [Exporter.holding, hp]
    obtain ⟨h, ho⟩ := hf
    cases ok
    · exact hi.advance hx rfl rfl rfl ((ho.toClose true).1.trans hh.symm) (ho.toClose true).2
        (fun _ h => by cases h) (by simp [hp]) fun _ h => by cases h
    · exact hi.advance hx rfl rfl rfl hh.symm ⟨h, ho⟩ (fun _ h => by cases h) (by simp [hp]) fun _ h => by cases h
  | insert hx hp => exact hi.insert hx hp
  | @close x e destructor hx hp =>
    have hf := (hi.good x e hx).fits
    rw [Exporter.Fits, hp] at hf
    have hh : e.holding = e.listening := by rw [Exporter.holding, hp]
    unfold State.closeStep
    rcases hf with hc | ⟨h, hg, hk, hne, hl⟩
    · rw [if_neg (by simp [hc.2])]
      exact hi.advance hx rfl rfl rfl ((afterClose_not_holding e destructor).trans (hh.trans hc.2).symm)
        (afterClose_fits _ hc) (fun _ h => absurd h (afterClose_ne_meshExport _ _)) (by simp [hp])
        (fun _ => afterClose_ne_registered _ _)
    · rw [if_pos hl]
      exact hi.advance hx rfl rfl rfl (hh.trans hl).symm ⟨⟨rfl, rfl⟩, h, hg, hk, hne⟩
        (fun _ h => by cases h) (by simp [hp]) fun _ h => by cases h
  | @unexport x e handle destructor hx hp =>
    have hg := hi.good x e hx
    have hf := hg.fits
    rw [Exporter.Fits, hp] at hf
    obtain ⟨-, h, hgot, rfl, hne⟩ := hf
    obtain ⟨hpos, n, hn, -⟩ := hg.got h hgot
    rw [unexportStep_eq (hi.fit e.backend) hpos hn hne]
    refine (hi.called e.backend _).unexported hx hp hgot ?_
    simpa [State.nodeOf] using hn
  | @destroy x e hx hp =>
    have hf := (hi.good x e hx).fits
    rw [Exporter.Fits, hp] at hf
    exact hi.abandon hx hf (by rw [Exporter.holding, hp]) (by simp [hp])

/-! ## Whole runs -/

theorem call_log (g : GoShim w) (c : ShimCall) : g.log <+: (g.call c).log := by
  cases c with
  | new | meshUnexport => exact List.prefix_append _ _
  | _ => exact List.prefix_refl _

theorem through_log (b : Nat) (b' : MeshBackend) : s.shim.log <+: (s.through b b').shim.log := by
  have hfold (cs : List ShimCall) : ∀ g : GoShim w, g.log <+: (cs.foldl GoShim.call g).log := by
    induction cs with
    | nil => exact fun g => List.prefix_refl _
    | cons c cs ih => exact fun g => (call_log g c).trans (ih _)
  exact hfold _ _

theorem ensureUp_log (b : Nat) (o : UpOutcome) : s.shim.log <+: (s.ensureUp b o).2.shim.log := by
  unfold State.ensureUp
  split <;> exact through_log _ _

/-- The log grows. -/
theorem Step.log (h : Step s s') : s.shim.log <+: s'.shim.log := by
  cases h with
  | @ensureUp x e o | @exportUp x e o =>
    have hup := ensureUp_log (s := s) e.backend o
    unfold State.upStep
    revert hup
    rcases s.ensureUp e.backend o with ⟨ok, s₁⟩
    cases ok <;> exact id
  | @meshExport x e ok errmsg id hx hp =>
    have hlog : s.shim.log <+: (s.shim.meshExport (.ofInt w (s.backends e.backend).node) ok).2.log := by
      unfold GoShim.meshExport
      split
      · exact List.prefix_refl _
      · cases ok
        · exact List.prefix_refl _
        · exact List.prefix_append _ _
    have hexported (s : State w) (got : Option (Long w)) (r : Except Mesh.TunnelError Mesh.Returned) :
        (s.exported x e id got r).shim = s.shim := by
      unfold State.exported
      split <;> rfl
    unfold State.exportStep
    rw [hexported]
    exact hlog
  | @selfJson x e o r =>
    have hup := ensureUp_log (s := s) e.backend o
    unfold State.selfJsonStep
    revert hup
    rcases s.ensureUp e.backend o with ⟨ok, s₁⟩
    cases ok <;> exact id
  | @insert x e id =>
    have hshim : (s.displace id).shim = s.shim := by
      unfold State.displace
      split
      · rfl
      · split <;> rfl
    show s.shim.log <+: (s.displace id).shim.log
    exact hshim ▸ List.prefix_refl _
  | close =>
    unfold State.closeStep
    split <;> exact List.prefix_refl _
  | unexport =>
    unfold State.unexportStep
    split
    · exact through_log _ _
    · exact List.prefix_refl _
  | _ => exact List.prefix_refl _

theorem inv_run {opts : Nat → MeshOptions} {is : List In} (h : Lts.Run step (start opts) is s)
    (hb : Bounded s.shim.log) : Inv s := by
  refine h.inv (P := fun s => Bounded s.shim.log → Inv s) (fun s i s' hi hs hb => ?_) (fun _ => inv_start opts) hb
  have hstep := step_cases hs
  obtain ⟨l, hl⟩ := hstep.log
  exact hstep.inv (hi (hl ▸ hb).of_append) hb

/-- No thread works on the exporter. -/
def Phase.idle : Phase → Bool
  | .registered _ | .closed | .destroyed => true
  | _ => false

/-- Its tunnel was closed, or its `Start` failed. -/
def Phase.isOver : Phase → Bool
  | .closed | .destroyed => true
  | _ => false

/-- No operation is in progress. -/
def State.Idle (s : State w) : Prop := ∀ e ∈ s.exporters, e.phase.idle = true

/-- What the two sides agree on. -/
structure State.Agrees (s : State w) : Prop where
  /-- What the nodes export is what the registered exporters hold. -/
  same : s.Idle → ∀ n h, (∃ es, s.shim.reg.lookup n = some es ∧ h ∈ es.exports) ↔
    ∃ id x e, s.tunnels.lookup id = some x ∧ s.exporters[x]? = some e ∧ s.nodeOf e = n.toInt ∧
      e.exportHandle = h.toInt
  /-- No handle is given back twice. -/
  atMostOnce : ∀ n h, s.shim.log.count (.release (.listener n h)) ≤ 1
  /-- A handle that was given out has been given back, or is with an exporter
  that is not closed. -/
  issued : ∀ n h, .acquire (.listener n h) ∈ s.shim.log → s.shim.log.count (.release (.listener n h)) = 1 ∨
    ∃ e ∈ s.exporters, s.nodeOf e = n.toInt ∧ e.got = some h ∧ e.phase.isOver = false
  /-- What a closed exporter was given it has given back. -/
  once : ∀ e ∈ s.exporters, e.phase.isOver = true → ∀ h, e.got = some h →
    ∃ n, s.nodeOf e = n.toInt ∧ s.shim.log.count (.release (.listener n h)) = 1
  flags : ∀ e ∈ s.exporters, e.listening = true ↔ e.exportHandle ≠ 0

theorem Exporter.Clear.flags {e : Exporter w} (h : e.Clear) : e.listening = true ↔ e.exportHandle ≠ 0 := by
  simp [h.1, h.2]

theorem Exporter.Owns.flags {e : Exporter w} {h : Long w} (ho : e.Owns h) :
    e.listening = true ↔ e.exportHandle ≠ 0 := by
  refine iff_of_true ho.2.2.2 fun h0 => ho.2.2.1 ?_
  exact BitVec.toInt_inj.mp (ho.2.1.symm.trans (h0.trans BitVec.toInt_zero.symm))

theorem Exporter.Fits.flags {e : Exporter w} (hf : e.Fits) : e.listening = true ↔ e.exportHandle ≠ 0 := by
  unfold Exporter.Fits at hf
  split at hf
  · exact hf.1.flags
  · exact hf.1.flags
  · exact hf.1.flags
  · exact hf.1.flags
  · exact hf.1.flags
  · obtain ⟨h, ho⟩ := hf; exact ho.flags
  · obtain ⟨h, ho⟩ := hf; exact ho.flags
  · obtain ⟨h, ho⟩ := hf; exact ho.flags
  · rcases hf with hc | ⟨h, ho⟩
    · exact hc.flags
    · exact ho.flags
  · exact Exporter.Clear.flags hf
  · exact Exporter.Clear.flags hf

theorem Phase.isOver_eq_false {e : Exporter w} (h : e.holding = true) : e.phase.isOver = false := by
  unfold Exporter.holding at h
  split at h <;> rename_i hp <;> first | rw [hp]; rfl | cases h

/-- An exporter that holds its handle is registered when no thread works on it. -/
theorem registered_of_idle {e : Exporter w} (hh : e.holding = true) (hi : e.phase.idle = true) :
    ∃ id, e.phase = .registered id := by
  unfold Exporter.holding at hh
  cases hp : e.phase with
  | registered id => exact ⟨id, rfl⟩
  | closed | destroyed =>
    rw [hp] at hh
    cases hh
  | _ =>
    rw [hp] at hi
    cases hi

theorem Inv.same (hi : Inv s) (hidle : s.Idle) (n h : Long w) :
    (∃ es, s.shim.reg.lookup n = some es ∧ h ∈ es.exports) ↔
      ∃ id x e, s.tunnels.lookup id = some x ∧ s.exporters[x]? = some e ∧ s.nodeOf e = n.toInt ∧
        e.exportHandle = h.toInt := by
  constructor
  · rintro ⟨es, hl, hm⟩
    obtain ⟨x, e, hx, hn, hg, hh⟩ := (hi.exports n es h hl).mp hm
    obtain ⟨id, hp⟩ := registered_of_idle hh (hidle e (List.mem_of_getElem? hx))
    have hl : s.tunnels.lookup id = some x := (hi.tunnels id x).mpr ⟨e, hx, hp⟩
    obtain ⟨-, h', hg', hk, -⟩ := hi.owns hl hx
    rw [hg] at hg'
    exact ⟨id, x, e, hl, hx, hn, by rw [hk, Option.some.inj hg']⟩
  · rintro ⟨id, x, e, hl, hx, hn, hk⟩
    obtain ⟨hp, h', hg, hk', -⟩ := hi.owns hl hx
    have hhh : h' = h := BitVec.toInt_inj.mp (hk'.symm.trans hk)
    subst hhh
    obtain ⟨m, hm, hreg⟩ := hi.node e.backend ((hi.good x e hx).got h' hg).1
    have hmn : m = n := BitVec.toInt_inj.mp (hm.symm.trans hn)
    subst hmn
    obtain ⟨es, hes⟩ := Option.isSome_iff_exists.mp (AList.lookup_isSome.mpr hreg)
    exact ⟨es, hes, (hi.exports m es h' hes).mpr ⟨x, e, hx, hn, hg, by rw [Exporter.holding, hp]⟩⟩

/-- In every run in which no counter of the shim has wrapped, the two sides
agree. -/
theorem exports_agree (opts : Nat → MeshOptions) (is : List In) (s : State w) (h : Lts.Run step (start opts) is s)
    (hb : Bounded s.shim.log) : s.Agrees := by
  have hi := inv_run h hb
  refine ⟨hi.same, fun n k => ?_, fun n k ha => ?_, fun e he ho k hg => ?_, fun e he => ?_⟩
  · by_cases hr : .release (.listener n k) ∈ s.shim.log
    · exact Nat.le_of_eq (hi.kept.count_release hr)
    · rw [List.count_eq_zero.mpr hr]
      exact Nat.zero_le 1
  · by_cases hh : s.Holds (.listener n k)
    · obtain ⟨x, e, hx, hn, hg, hhold⟩ := hh
      exact .inr ⟨e, List.mem_of_getElem? hx, hn, hg, Phase.isOver_eq_false hhold⟩
    · exact .inl (hi.kept.releasedOnce hh ha)
  · obtain ⟨x, hx⟩ := List.getElem?_of_mem he
    obtain ⟨hpos, n, hn, ha⟩ := (hi.good x e hx).got k hg
    refine ⟨n, hn, hi.kept.releasedOnce ?_ ha⟩
    -- another exporter that holds the handle would be on the same node, and so this one
    rintro ⟨y, f, hy, hm, hk, hhold⟩
    have hb : f.backend = e.backend := (hi.apart e.backend f.backend hpos (hn.trans hm.symm)).symm
    obtain rfl := hi.inj y x f e k hy hx hb hk hg
    obtain rfl : f = e := Option.some.inj (hy.symm.trans hx)
    rw [Phase.isOver_eq_false hhold] at ho
    cases ho
  · obtain ⟨x, hx⟩ := List.getElem?_of_mem he
    exact (hi.good x e hx).fits.flags

/-- A shim that does what it is asked. -/
def willing : UpOutcome := ⟨.ok .null, 0, 0, ""⟩

/-- Options with nothing set. -/
def plain : MeshOptions := ⟨.tailscale, "", "", "", "", "", "", "", "", false⟩

/-- Two exports by one backend, whose calls cross; the second is given handle 1
and closed again. -/
def twoExports : List In :=
  [.create 0 443 "localhost" 80, .ensureUp 0 willing, .create 0 444 "localhost" 81, .ensureUp 1 willing,
    .ensureUp 1 willing, .ensureUp 0 willing, .meshExport 1 true "", .meshExport 0 true "", .own 0, .own 1,
    .settle 1 true, .settle 0 true, .insert 0, .insert 1, .take (.closeTunnel 2), .close 1, .unexport 1]

theorem twoExports_agree :
    ∃ s : State 64, Lts.Run step (start fun _ => plain) twoExports s ∧ s.shim.log = [.acquire (.node 1),
      .acquire (.listener 1 1), .acquire (.listener 1 2), .release (.listener 1 1)] ∧ s.Agrees := by
  have hrun : ∃ s : State 64, Lts.Run step (start fun _ => plain) twoExports s ∧ s.shim.log = [.acquire (.node 1),
      .acquire (.listener 1 1), .acquire (.listener 1 2), .release (.listener 1 1)] := ⟨_, rfl, rfl⟩
  obtain ⟨s, hs, hl⟩ := hrun
  have hb : Bounded s.shim.log := by
    rw [hl]
    exact ⟨by decide, fun n => Nat.lt_of_le_of_lt List.countP_le_length (by decide)⟩
  exact ⟨s, hs, hl, exports_agree _ twoExports s hs hb⟩

/-! ## When a counter has wrapped -/

/-- One more exporter. -/
def State.last (s : State w) (e : Exporter w) : State w := { s with exporters := s.exporters ++ [e] }

section Last

variable {e : Exporter w}

theorem set_last (f : Exporter w) : { s.last e with exporters := (s.last e).exporters.set s.exporters.length f } =
    s.last f := by
  simp [State.last]

theorem setPhase_last (phase : Phase) :
    (s.last e).setPhase s.exporters.length e phase = s.last { e with phase } :=
  set_last _

theorem step_last {i : In} (hi : i.on = some s.exporters.length) :
    step (s.last e) i = (s.last e).exporterStep s.exporters.length e i := by
  cases i with
  | create | take => cases hi
  | _ =>
    obtain rfl := Option.some.inj hi
    simp [step, In.on, State.last]

/-- `EnsureUp` of a backend that is up. -/
theorem ensureUp_up {b : Nat} (hu : (s.backends b).up = true) (o : UpOutcome) : s.ensureUp b o = (true, s) := by
  unfold State.ensureUp
  rcases Mesh.ensureUp_cases { o with node := s.shim.nextH.toInt } (s.backends b) with ⟨-, he⟩ | ⟨hn, -⟩ | ⟨hn, -⟩ | ⟨hn, -⟩
  · rw [he]
    simp [State.through]
  all_goals rw [hu] at hn; cases hn

theorem upStep_last (hu : (s.backends e.backend).up = true) (o : UpOutcome) (next : Phase) :
    (s.last e).upStep s.exporters.length e o next = s.last { e with phase := next } := by
  unfold State.upStep
  rw [ensureUp_up (s := s.last e) hu]
  exact setPhase_last next

/-- `CloseTunnel` takes the last exporter out. -/
theorem takeStep_last {id : TunnelId} (hl : s.tunnels.lookup id = some s.exporters.length) :
    (s.last e).takeStep (.closeTunnel id) =
      { s with tunnels := s.tunnels.erase id }.last { e with phase := .close false } := by
  have ht : takeOut (s.last e).tunnels (s.last e).isActive (.closeTunnel id) =
      ([s.exporters.length], s.tunnels.erase id) := by
    simp [takeOut, State.last, hl]
  unfold State.takeStep
  rw [ht]
  have hidx : (s.exporters ++ [e]).mapIdx (fun x f => if x ∈ [s.exporters.length] then { f with
      phase := .close false } else f) = s.exporters ++ [{ e with phase := .close false }] := by
    refine List.ext_getElem? fun x => ?_
    rw [List.getElem?_mapIdx]
    rcases Nat.lt_trichotomy x s.exporters.length with h | h | h
    · have hne : x ≠ s.exporters.length := by omega
      simp [List.getElem?_append_left h, hne]
    · simp [h]
    · rw [List.getElem?_eq_none (by simp; omega), List.getElem?_eq_none (by simp; omega)]
      rfl
  show ({ s.last e with tunnels := _, exporters := (s.exporters ++ [e]).mapIdx _ } : State w) = _
  rw [hidx]
  rfl

end Last

/-- Node 1 has made `k` exports, and none is left. -/
structure Used (k : Nat) (s : State w) : Prop where
  up : (s.backends 0).up = true
  fit : Fit (s.backends 0)
  node : (s.backends 0).node = BitVec.toInt (1 : Long w)
  made : ∃ es, s.shim.reg.lookup 1 = some es ∧ es.nextExport = .ofNat w k
  empty : ∀ id, s.tunnels.lookup id = none
  idle : s.Idle

/-- A tunnel is created and closed. -/
def exportAndClose (x : Nat) (id : TunnelId) : List In :=
  [.create 0 443 "localhost" 80, .ensureUp x willing, .ensureUp x willing, .meshExport x true "", .own x,
    .settle x true, .insert x, .take (.closeTunnel id), .close x, .unexport x]

theorem run_exportAndClose {es : Shim.Exports w Unit} (hu : (s.backends 0).up = true)
    (hn : (s.backends 0).node = BitVec.toInt (1 : Long w)) (hl : s.shim.reg.lookup 1 = some es)
    (he : ∀ id, s.tunnels.lookup id = none) :
    ∃ (t : State w) (e : Exporter w), t.exporters = s.exporters ∧ (∀ id, t.tunnels.lookup id = none) ∧
      (∃ cs, t.backends = Function.update s.backends 0 { s.backends 0 with
        calls := (s.backends 0).calls ++ cs }) ∧
      t.shim.reg = s.shim.reg.insert 1 (es.addExport ()).2 ∧ e.backend = 0 ∧
      Lts.Run step s (exportAndClose s.exporters.length s.nextTunnelId)
        ((t.last e).unexportStep s.exporters.length e (BitVec.toInt (es.addExport ()).1) false) := by
  let id := s.nextTunnelId
  let x := s.exporters.length
  let s₁ : State w := { s with nextTunnelId := id + 1 }
  let e₀ (phase : Phase) : Exporter w := ⟨0, 443, "localhost", 80, 0, false, phase, none⟩
  have h₁ : step s (.create 0 443 "localhost" 80) = some (s₁.last (e₀ (.ensureUp id))) := rfl
  have h₂ : step (s₁.last (e₀ (.ensureUp id))) (.ensureUp x willing) = some (s₁.last (e₀ (.exportUp id))) := by
    rw [step_last rfl]
    exact congrArg some (upStep_last (s := s₁) (e := e₀ (.ensureUp id)) hu _ _)
  have h₃ : step (s₁.last (e₀ (.exportUp id))) (.ensureUp x willing) = some (s₁.last (e₀ (.meshExport id))) := by
    rw [step_last rfl]
    exact congrArg some (upStep_last (s := s₁) (e := e₀ (.exportUp id)) hu _ _)
  obtain ⟨cs, hex⟩ := exportStep_true (s := s₁.last (e₀ (.meshExport id))) (x := x) (e := e₀ (.meshExport id)) hn hl
    id ""
  generalize (es.addExport ()).1 = h at *
  let s₂ : State w := { s₁ with
    shim := { s.shim with
      reg := s.shim.reg.insert 1 (es.addExport ()).2, log := s.shim.log ++ [.acquire (.listener 1 h)] }
    backends := Function.update s.backends 0 { s.backends 0 with calls := (s.backends 0).calls ++ cs } }
  let e₁ : Exporter w := { e₀ (.own id h.toInt) with got := some h }
  let e₂ (phase : Phase) : Exporter w := { e₁ with phase, exportHandle := h.toInt, listening := true }
  let e₃ : Exporter w := { e₁ with phase := .unexport h.toInt false }
  have h₄ : step (s₁.last (e₀ (.meshExport id))) (.meshExport x true "") = some (s₂.last e₁) := by
    rw [step_last rfl]
    show some ((s₁.last _).exportStep x _ id true "") = _
    rw [hex]
    exact congrArg some (set_last (s := s₂) (e := e₀ (.meshExport id)) e₁)
  have h₅ : step (s₂.last e₁) (.own x) = some (s₂.last (e₂ (.selfJson id))) := by
    rw [step_last rfl]
    exact congrArg some (set_last _)
  have h₆ : step (s₂.last (e₂ (.selfJson id))) (.settle x true) = some (s₂.last (e₂ (.started id))) := by
    rw [step_last rfl]
    exact congrArg some (setPhase_last _)
  let s₃ : State w := { s₂ with tunnels := s.tunnels.insert id x }
  have h₇ : step (s₂.last (e₂ (.started id))) (.insert x) = some (s₃.last (e₂ (.registered id))) := by
    have hd : (s₂.last (e₂ (.started id))).displace id = s₂.last (e₂ (.started id)) := by
      unfold State.displace
      rw [show (s₂.last (e₂ (.started id))).tunnels.lookup id = none from he id]
    rw [step_last rfl]
    show some ({ ((s₂.last (e₂ (.started id))).displace id).setPhase x (e₂ (.started id)) (.registered id) with
      tunnels := s.tunnels.insert id x } : State w) = _
    rw [hd, show (s₂.last (e₂ (.started id))).setPhase x (e₂ (.started id)) (.registered id) = _ from setPhase_last _]
    rfl
  let s₄ : State w := { s₃ with tunnels := (s.tunnels.insert id x).erase id }
  have h₈ : step (s₃.last (e₂ (.registered id))) (.take (.closeTunnel id)) = some (s₄.last (e₂ (.close false))) :=
    congrArg some (takeStep_last (s := s₃) (AList.lookup_insert _))
  have h₉ : step (s₄.last (e₂ (.close false))) (.close x) = some (s₄.last e₃) := by
    rw [step_last rfl]
    exact congrArg some (set_last _)
  have h₁₀ : step (s₄.last e₃) (.unexport x) = some ((s₄.last e₃).unexportStep x e₃ h.toInt false) := step_last rfl
  refine ⟨s₄, e₃, rfl, fun i => ?_, ⟨cs, rfl⟩, rfl, rfl, ?_⟩
  · show ((s.tunnels.insert id x).erase id).lookup i = none
    by_cases hi : i = id
    · rw [hi, AList.lookup_erase]
    · rw [AList.lookup_erase_ne hi, AList.lookup_insert_ne hi]
      exact he i
  · show Lts.Run step s [_, _, _, _, _, _, _, _, _, _] _
    rw [Lts.run_cons]
    refine ⟨_, h₁, Lts.run_cons.mpr ⟨_, h₂, Lts.run_cons.mpr ⟨_, h₃, Lts.run_cons.mpr ⟨_, h₄, ?_⟩⟩⟩⟩
    refine Lts.run_cons.mpr ⟨_, h₅, Lts.run_cons.mpr ⟨_, h₆, Lts.run_cons.mpr ⟨_, h₇, ?_⟩⟩⟩
    exact Lts.run_cons.mpr ⟨_, h₈, Lts.run_cons.mpr ⟨_, h₉, Lts.run_cons.mpr ⟨_, h₁₀, Lts.run_nil.mpr rfl⟩⟩⟩

/-- The shim is not asked to give up a listener whose handle is 0. -/
theorem Used.next {k : Nat} (h : Used k s) :
    ∃ s', Lts.Run step s (exportAndClose s.exporters.length s.nextTunnelId) s' ∧ Used (k + 1) s' ∧
      (BitVec.ofNat w (k + 1) = 0 → ∃ es, s'.shim.reg.lookup 1 = some es ∧ 0 ∈ es.exports) := by
  obtain ⟨es, hl, hk⟩ := h.made
  have hh : (es.addExport ()).1 = .ofNat w (k + 1) := by
    rw [← Shim.ofNat_succ, ← hk]
    rfl
  have hnext : (es.addExport ()).2.nextExport = (es.addExport ()).1 := rfl
  have hmem : (es.addExport ()).1 ∈ (es.addExport ()).2.exports := (AList.mem_insert _).mpr (.inl rfl)
  obtain ⟨t, e, hx, ht, ⟨cs, hb⟩, hr, he, hrun⟩ := run_exportAndClose h.up h.node hl h.empty
  have hb₀ : t.backends 0 = { s.backends 0 with calls := (s.backends 0).calls ++ cs } := by rw [hb]; simp
  have hidle (f : Exporter w) (hf : f.phase = .closed) : ∀ g ∈ t.exporters ++ [f], g.phase.idle = true := by
    intro g hg
    rcases List.mem_append.mp hg with hg | hg
    · exact h.idle g (hx ▸ hg)
    · rw [List.mem_singleton.mp hg, hf]
      rfl
  refine ⟨_, hrun, ?_⟩
  rw [← hx]
  by_cases h0 : (es.addExport ()).1 = 0
  · have hs : (t.last e).unexportStep t.exporters.length e (BitVec.toInt (es.addExport ()).1) false =
        t.last { e with phase := .closed } := by
      unfold State.unexportStep
      rw [h0, if_neg (by simp)]
      exact setPhase_last _
    rw [hs]
    have hl' : t.shim.reg.lookup 1 = some (es.addExport ()).2 := by rw [hr]; exact AList.lookup_insert _
    refine ⟨⟨?_, ?_, ?_, ⟨_, hl', hnext.trans hh⟩, ht, hidle _ rfl⟩, fun _ => ⟨_, hl', h0 ▸ hmem⟩⟩
    · show (t.backends 0).up = true
      rw [hb₀]; exact h.up
    · show Fit (t.backends 0)
      rw [hb₀]; exact h.fit
    · show (t.backends 0).node = _
      rw [hb₀]; exact h.node
  · have hpos : 0 < (t.last e).nodeOf e := by
      show 0 < (t.backends e.backend).node
      rw [he, hb₀]
      exact h.fit.2 h.up
    have hnode : (t.last e).nodeOf e = BitVec.toInt (1 : Long w) := by
      show (t.backends e.backend).node = _
      rw [he, hb₀]
      exact h.node
    have hfit : Fit ((t.last e).backends e.backend) := by
      show Fit (t.backends e.backend)
      rw [he, hb₀]
      exact h.fit
    have hl' : t.shim.reg.lookup 1 = some (es.addExport ()).2 := by rw [hr]; exact AList.lookup_insert _
    rw [unexportStep_eq hfit hpos hnode h0, he]
    refine ⟨⟨?_, ?_, ?_, ⟨(((es.addExport ()).2).takeExport (es.addExport ()).1).2, ?_, hnext.trans hh⟩, ht, ?_⟩,
      fun hz => absurd (hh.trans hz) h0⟩
    · simpa [State.last, hb₀] using h.up
    · simpa [State.last, hb₀, Fit] using h.fit
    · simpa [State.last, hb₀] using h.node
    · show (t.shim.meshUnexport 1 (es.addExport ()).1).reg.lookup 1 = _
      simp only [GoShim.meshUnexport, hl']
      exact AList.lookup_insert _
    · show ∀ g ∈ (t.exporters ++ [e]).set t.exporters.length _, _
      rw [List.set_append_right _ _ (Nat.le_refl _), Nat.sub_self, List.set_cons_zero]
      exact hidle _ rfl

/-- A first export that is refused brings the node up. -/
def refused : List In :=
  [.create 0 443 "localhost" 80, .ensureUp 0 willing, .ensureUp 0 willing, .meshExport 0 false "", .close 0]

theorem used_refused : ∃ s : State 64, Lts.Run step (start fun _ => plain) refused s ∧ Used 0 s := by
  have hrun : ∃ s : State 64, Lts.Run step (start fun _ => plain) refused s ∧ (s.backends 0).up = true ∧
      (s.backends 0).api = some .null ∧ (s.backends 0).node = 1 ∧ s.shim.reg.lookup 1 = some .empty ∧
      s.tunnels = ∅ ∧ s.exporters.map (·.phase) = [.destroyed] := ⟨_, rfl, rfl, rfl, rfl, rfl, rfl, rfl⟩
  obtain ⟨s, hs, hu, ha, hn, hl, ht, hp⟩ := hrun
  refine ⟨s, hs, hu, ⟨fun _ => by simp [ha], fun _ => by rw [hn]; decide⟩, hn, ⟨_, hl, rfl⟩, by simp [ht], ?_⟩
  intro e he
  have hm : e.phase ∈ s.exporters.map (·.phase) := List.mem_map_of_mem he
  rw [hp, List.mem_singleton] at hm
  rw [hm]
  rfl

/-- Any number of exports, one after the other. -/
theorem used_run (k : Nat) : ∃ is, ∃ s : State 64, Lts.Run step (start fun _ => plain) is s ∧ Used k s := by
  induction k with
  | zero =>
    obtain ⟨s, hs, hu⟩ := used_refused
    exact ⟨refused, s, hs, hu⟩
  | succ k ih =>
    obtain ⟨is, s, hs, hu⟩ := ih
    obtain ⟨s', hs', hu', -⟩ := hu.next
    exact ⟨is ++ _, s', Lts.run_append.mpr ⟨s, hs, hs'⟩, hu'⟩

/-- After 2^64 exports by one node, each closed before the next, the last is
still exported, and no tunnel is registered. -/
theorem export_stranded : ¬∀ is, ∀ s : State 64, Lts.Run step (start fun _ => plain) is s → s.Agrees := by
  intro h
  obtain ⟨is, s, hs, hu⟩ := used_run (2 ^ 64 - 1)
  obtain ⟨s', hs', hu', hz⟩ := hu.next
  obtain ⟨es, hl, hm⟩ := hz (by decide)
  have ha := h _ s' (Lts.run_append.mpr ⟨s, hs, hs'⟩)
  obtain ⟨id, x, e, hx, -⟩ := (ha.same hu'.idle 1 0).mp ⟨es, hl, hm⟩
  rw [hu'.empty id] at hx
  cases hx

end ErplTunnel.Exports

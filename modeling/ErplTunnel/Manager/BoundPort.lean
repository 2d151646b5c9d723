import ErplTunnel.Manager.Conservation
import ErplTunnel.Manager.Listing

/-!
# The port an SSH export reports

`TunnelExport` over SSH creates the export and then asks the manager for its
port by id (`GetTunnelBoundPort`), under `tunnels_mutex` again. The port is the
one the server bound, which `SshExporter::Start` has written into the attributes
of the handle; an id that is not in the map has port 0.

The mutex, the closers, the listings and the inserts are those of `Sys`; here a
create also constructs its handle with the remote port it is given, and the
start of an SSH export has the server's answer. In every run the row of an
export has the bound port if the tunnel is still registered when the port is
looked up (`reported_port_is_bound`), and until the ids come round only then
(`reported_port_is_bound_iff`): whoever closes the tunnel in between has the row
say 0.
-/

namespace ErplTunnel.Manager

open Lts

variable {β : Type}

/-- What the SSH server makes of `SshExporter::Start`. -/
inductive Answer where
  /-- No connection, no login, or no forward. -/
  | refused
  /-- A forward, with the port in the answer, which is 0 if there is none. -/
  | granted (port : Int32)
  deriving DecidableEq, Repr

/-- `bound` after `libssh2_channel_forward_listen_ex`: the port of the answer
counts where port 0 was requested. -/
def forwardListen (requested port : Int32) : Int32 := if requested = 0 then port else requested

/-- `SshExporter::Start`: the bound port, unless it throws. -/
def sshExporterStart (requested : Int32) : Answer → Option Int32
  | .refused => none
  | .granted port =>
    let bound := forwardListen requested port
    if bound = 0 then none else some bound

/-- The manager, the ports, and the rows of the exports. -/
structure Exporting (β : Type) where
  sys : Sys β
  /-- What the call creates. -/
  kind : Nat → Option Create
  /-- The remote port the call was made with. -/
  requested : Nat → Int32
  /-- `GetAttributes().remote_port` of the handle. -/
  remotePort : Handle → Int32
  /-- The port in the answer of the server, once it has granted the forward. -/
  granted : Nat → Option Int32
  /-- `tunnel_id` and `remote_port` in the row of the call. -/
  rows : Nat → Option (TunnelId × Int32)

inductive ExportEv (β : Type) where
  /-- The mutex, a listing, a closer, or the insert of a create. -/
  | sys (e : SysEv β)
  /-- A create takes its id and constructs the handle. -/
  | create (c : Nat) (k : Create) (remotePort : Int32)
  /-- `Start` of a handle that is no SSH export returns, or throws. -/
  | start (c : Nat) (ok : Bool)
  /-- `SshExporter::Start`. -/
  | sshStart (c : Nat) (answer : Answer)
  /-- `GetTunnelBoundPort`, and the row made from it. -/
  | boundPort (c : Nat)

/-- The steps of a create up to its `Start`. -/
def SysEv.creating : SysEv β → Bool
  | .manager (.generate _ _) | .manager (.start _ _) => true
  | _ => false

/-- The id of a create whose handle has been started. -/
def Call.up : Call → Option TunnelId
  | .started i | .created i => some i
  | _ => none

namespace Exporting

def init : Exporting β := ⟨Sys.start, fun _ => none, fun _ => 0, fun _ => 0, fun _ => none, fun _ => none⟩

def getTunnelBoundPort (s : Exporting β) (id : TunnelId) : Int32 :=
  match s.sys.manager.tunnels.lookup id with
  | none => 0
  | some h => s.remotePort h

def step (s : Exporting β) : ExportEv β → Option (Exporting β)
  | .sys e => if e.creating then none else (s.sys.step e).map fun t => { s with sys := t }
  | .create c k remotePort =>
    (s.sys.step (.manager (.generate c k))).map fun t =>
      { s with
        sys := t
        kind := Function.update s.kind c (some k)
        requested := Function.update s.requested c remotePort
        remotePort := Function.update s.remotePort c remotePort }
  | .start c ok =>
    if s.kind c = some .createSshExport then none
    else (s.sys.step (.manager (.start c ok))).map fun t => { s with sys := t }
  | .sshStart c answer =>
    if s.kind c = some .createSshExport then
      match answer, sshExporterStart (s.requested c) answer with
      | .granted port, some bound =>
        (s.sys.step (.manager (.start c true))).map fun t =>
          { s with
            sys := t
            granted := Function.update s.granted c (some port)
            remotePort := Function.update s.remotePort c bound }
      | _, _ => (s.sys.step (.manager (.start c false))).map fun t => { s with sys := t }
    else none
  | .boundPort c =>
    if s.kind c = some .createSshExport ∧ s.sys.owner = some (.status c) ∧ s.rows c = none then
      match s.sys.manager.calls c with
      | .created id => some { s with rows := Function.update s.rows c (some (id, s.getTunnelBoundPort id)) }
      | _ => none
    else none

/-- The port that the server reported as bound for the tunnel of call `c`. -/
def IsBound (s : Exporting β) (c : Nat) (port : Int32) : Prop :=
  port ≠ 0 ∧ (s.granted c).map (forwardListen (s.requested c)) = some port

/-- Where call `c` looks its port up, its tunnel is registered. -/
def StillRegistered (c : Nat) (s : Exporting β) (e : ExportEv β) : Prop :=
  ∀ id, e = .boundPort c → s.sys.manager.calls c = .created id → s.sys.manager.Registered id c

end Exporting

/-! ## The calls under a step -/

/-- A step takes no handle from up to down, and up only by its `Start`. -/
theorem step_up {m m' : State} {e : Ev} (h : step m e = some m') (c : Nat) :
    (m'.calls c).up = (m.calls c).up ∨ (m.calls c).up = none ∧ e = .start c true := by
  -- the call that moves, if its handle stays as it is
  have move : ∀ {t : State} {d : Nat} {k : Call}, t.calls = (m.setCall d k).calls → k.up = (m.calls d).up →
      (t.calls c).up = (m.calls c).up := by
    intro t d k ht hk
    rw [ht]
    exact proj_setCall Call.up hk c
  cases e with
  | generate d k =>
    simp only [step] at h
    split at h
    case h_2 => cases h
    case h_1 hd =>
    split at h <;> cases h <;> exact .inl (move rfl (by rw [hd]; rfl))
  | start d ok =>
    simp only [step] at h
    split at h
    case h_2 => cases h
    case h_1 i hd =>
    cases h
    cases ok with
    | false => exact .inl (move rfl (by rw [hd]; rfl))
    | true =>
      by_cases hcd : c = d
      · subst hcd
        exact .inr ⟨by rw [hd]; rfl, rfl⟩
      · left
        rw [calls_setCall, if_neg hcd]
  | insert d =>
    simp only [step] at h
    split at h
    case h_2 => cases h
    case h_1 i hd =>
    cases h
    exact .inl (move rfl (by rw [hd]; rfl))
  | take d op a =>
    simp only [step] at h
    split at h
    case h_2 => cases h
    case h_1 hd =>
    split at h <;> cases h <;> exact .inl (move rfl (by rw [hd]; rfl))
  | close d x throws =>
    simp only [step] at h
    split at h
    case h_2 => cases h
    case h_1 hd =>
    split at h
    case isFalse => cases h
    case isTrue =>
    split at h <;> cases h <;> exact .inl (move rfl (by rw [hd]; rfl))
  | ret d =>
    simp only [step] at h
    split at h
    case h_2 => cases h
    case h_1 hd =>
    cases h
    exact .inl (move rfl (by rw [hd]; rfl))

theorem Call.created_of_made {k : Call} {i : TunnelId} (h : k.made = some i) : k = .created i := by
  cases k <;> simp_all [made]

theorem Call.up_of_made {k : Call} {i : TunnelId} (h : k.made = some i) : k.up = some i := by
  rw [created_of_made h]
  rfl

theorem up_of_generate {m m' : State} {c : Nat} {k : Create} (h : step m (.generate c k) = some m') :
    (m.calls c).up = none := by
  simp only [step] at h
  split at h
  case h_2 => cases h
  case h_1 hc =>
  rw [hc]
  rfl

theorem up_of_start {m m' : State} {c : Nat} {ok : Bool} (h : step m (.start c ok) = some m') :
    (m.calls c).up = none := by
  simp only [step] at h
  split at h
  case h_2 => cases h
  case h_1 i hc =>
  rw [hc]
  rfl

namespace Exporting

variable {s t : Exporting β} {e : ExportEv β} {es : List (ExportEv β)} {c : Nat} {id : TunnelId} {port : Int32}

/-- The creates that took an id. -/
def issued (es : List (ExportEv β)) : Nat :=
  es.countP fun
    | .create _ k _ => k ≠ .createTunnel "agent"
    | _ => false

/-- What a step does: the system moves and no export comes up, a create
constructs its handle, an export comes up, or a port is looked up. -/
theorem step_cases (h : s.step e = some t) :
    (∃ se sys, s.sys.step se = some sys ∧
      (∀ m, se = .manager m → Manager.issued [m] = 0 ∧ ∀ c, m = .start c true → s.kind c ≠ some .createSshExport) ∧
      (∀ c, e ≠ .boundPort c) ∧ issued [e] = 0 ∧ t = { s with sys := sys }) ∨
    (∃ c k remotePort sys, e = .create c k remotePort ∧ s.sys.step (.manager (.generate c k)) = some sys ∧
      t = { s with
        sys := sys
        kind := Function.update s.kind c (some k)
        requested := Function.update s.requested c remotePort
        remotePort := Function.update s.remotePort c remotePort }) ∨
    (∃ c port bound sys, e = .sshStart c (.granted port) ∧
      sshExporterStart (s.requested c) (.granted port) = some bound ∧
      s.sys.step (.manager (.start c true)) = some sys ∧
      t = { s with
        sys := sys
        granted := Function.update s.granted c (some port)
        remotePort := Function.update s.remotePort c bound }) ∨
    ∃ c id, e = .boundPort c ∧ s.kind c = some .createSshExport ∧ s.rows c = none ∧
      s.sys.manager.calls c = .created id ∧
      t = { s with rows := Function.update s.rows c (some (id, s.getTunnelBoundPort id)) } := by
  cases e with
  | sys se =>
    simp only [step] at h
    split at h
    case isTrue => cases h
    case isFalse hcr =>
    obtain ⟨sys, hsys, rfl⟩ := Option.map_eq_some_iff.mp h
    refine .inl ⟨se, sys, hsys, ?_, by simp, rfl, rfl⟩
    rintro m rfl
    cases m <;> simp_all [SysEv.creating, Manager.issued]
  | create c k remotePort =>
    obtain ⟨sys, hsys, rfl⟩ := Option.map_eq_some_iff.mp h
    exact .inr (.inl ⟨c, k, remotePort, sys, rfl, hsys, rfl⟩)
  | start c ok =>
    simp only [step] at h
    split at h
    case isTrue => cases h
    case isFalse hk =>
    obtain ⟨sys, hsys, rfl⟩ := Option.map_eq_some_iff.mp h
    refine .inl ⟨_, sys, hsys, ?_, by simp, rfl, rfl⟩
    rintro m hm
    cases hm
    refine ⟨rfl, fun d hd => ?_⟩
    cases hd
    exact hk
  | sshStart c answer =>
    simp only [step] at h
    split at h
    case isFalse => cases h
    case isTrue =>
    split at h
    case h_1 port bound hb =>
      obtain ⟨sys, hsys, rfl⟩ := Option.map_eq_some_iff.mp h
      exact .inr (.inr (.inl ⟨c, port, bound, sys, rfl, hb, hsys, rfl⟩))
    case h_2 =>
      obtain ⟨sys, hsys, rfl⟩ := Option.map_eq_some_iff.mp h
      refine .inl ⟨_, sys, hsys, ?_, by simp, rfl, rfl⟩
      rintro m hm
      cases hm
      exact ⟨rfl, by simp⟩
  | boundPort c =>
    simp only [step] at h
    split at h
    case isFalse => cases h
    case isTrue hg =>
    split at h
    case h_2 => cases h
    case h_1 id hc =>
    cases h
    exact .inr (.inr (.inr ⟨c, id, rfl, hg.1, hg.2.2, hc, rfl⟩))

/-- A tunnel that is up keeps its ports. -/
structure SamePorts (c : Nat) (s t : Exporting β) : Prop where
  kind : t.kind c = s.kind c
  requested : t.requested c = s.requested c
  remotePort : t.remotePort c = s.remotePort c
  granted : t.granted c = s.granted c

theorem SamePorts.isBound (h : SamePorts c s t) : t.IsBound c port ↔ s.IsBound c port := by
  rw [IsBound, IsBound, h.granted, h.requested]

theorem samePorts_of_up {i : TunnelId} (h : s.step e = some t) (hc : (s.sys.manager.calls c).up = some i) :
    SamePorts c s t := by
  obtain ⟨_, _, -, -, -, -, rfl⟩ | ⟨d, k, p, sys, -, hsys, rfl⟩ | ⟨d, p, b, sys, -, -, hsys, rfl⟩ |
    ⟨_, _, -, -, -, -, rfl⟩ := step_cases h
  · exact ⟨rfl, rfl, rfl, rfl⟩
  · have hd := up_of_generate (Sys.manager_of_step hsys)
    have hne : c ≠ d := by
      rintro rfl
      rw [hd] at hc
      cases hc
    exact ⟨Function.update_of_ne hne .., Function.update_of_ne hne .., Function.update_of_ne hne .., rfl⟩
  · have hd := up_of_start (Sys.manager_of_step hsys)
    have hne : c ≠ d := by
      rintro rfl
      rw [hd] at hc
      cases hc
    exact ⟨rfl, rfl, Function.update_of_ne hne .., Function.update_of_ne hne ..⟩
  · exact ⟨rfl, rfl, rfl, rfl⟩

/-- A create that has returned has returned. -/
theorem made_step (h : s.step e = some t) (hc : (s.sys.manager.calls c).made = some id) :
    (t.sys.manager.calls c).made = some id := by
  have hsys : ∀ {se sys}, s.sys.step se = some sys → (sys.manager.calls c).made = some id := by
    intro se sys hse
    rcases Sys.step_manager hse with hm | ⟨m, -, hm⟩
    · rw [hm, hc]
    · exact (step_keeps hm c).1 id hc
  obtain ⟨_, _, hse, -, -, -, rfl⟩ | ⟨_, _, _, _, -, hse, rfl⟩ | ⟨_, _, _, _, -, -, hse, rfl⟩ |
    ⟨_, _, -, -, -, -, rfl⟩ := step_cases h
  · exact hsys hse
  · exact hsys hse
  · exact hsys hse
  · exact hc

/-- An SSH export that is up has the bound port in its attributes. -/
def Attributed (s : Exporting β) : Prop :=
  ∀ c i, s.kind c = some .createSshExport → (s.sys.manager.calls c).up = some i → s.IsBound c (s.remotePort c)

/-- Where `Start` returns, the port is the bound one. -/
theorem sshExporterStart_bound {requested bound : Int32} (h : sshExporterStart requested (.granted port) = some bound) :
    bound ≠ 0 ∧ forwardListen requested port = bound := by
  simp only [sshExporterStart] at h
  split at h
  case isTrue => cases h
  case isFalse hne =>
  cases h
  exact ⟨hne, rfl⟩

theorem Attributed.step (hs : s.Attributed) (h : s.step e = some t) : t.Attributed := by
  intro c i hk hc
  by_cases hup : ∃ i, (s.sys.manager.calls c).up = some i
  · obtain ⟨i', hi⟩ := hup
    have hsame := samePorts_of_up h hi
    rw [hsame.isBound, hsame.remotePort]
    exact hs c i' (hsame.kind ▸ hk) hi
  · -- it comes up with this step, which then is its `Start`
    have hdown : (s.sys.manager.calls c).up = none := by
      cases hu : (s.sys.manager.calls c).up with
      | none => rfl
      | some i' => exact absurd ⟨i', hu⟩ hup
    have hstart : ∀ {se sys}, s.sys.step se = some sys → (sys.manager.calls c).up = some i →
        se = .manager (.start c true) := by
      intro se sys hse hu
      rcases Sys.step_manager hse with hm | ⟨m, rfl, hm⟩
      · rw [hm, hdown] at hu
        cases hu
      · rcases step_up hm c with he | ⟨-, rfl⟩
        · rw [he, hdown] at hu
          cases hu
        · rfl
    obtain ⟨se, sys, hse, hm, -, -, rfl⟩ | ⟨d, k, p, sys, -, hse, rfl⟩ | ⟨d, p, b, sys, -, hb, hse, rfl⟩ |
      ⟨_, _, -, -, -, -, rfl⟩ := step_cases h
    · exact absurd hk ((hm _ (hstart hse hc)).2 c rfl)
    · cases hstart hse hc
    · cases hstart hse hc
      obtain ⟨hne, hfl⟩ := sshExporterStart_bound hb
      simp only [IsBound, Function.update_self, Option.map_some, Option.some.injEq]
      exact ⟨hne, hfl⟩
    · rw [hdown] at hc
      cases hc

theorem attributed_of_run (h : Run step init es s) : s.Attributed :=
  h.inv (fun _ _ _ hp hs => hp.step hs) fun c i hk => by cases hk

/-! ## The rows -/

/-- A step that is not the lookup of `c` leaves its row alone. -/
theorem rows_step (h : s.step e = some t) (he : e ≠ .boundPort c) : t.rows c = s.rows c := by
  obtain ⟨_, _, -, -, -, -, rfl⟩ | ⟨_, _, _, _, -, -, rfl⟩ | ⟨_, _, _, _, -, -, -, rfl⟩ |
    ⟨d, _, rfl, -, -, -, rfl⟩ := step_cases h
  · rfl
  · rfl
  · rfl
  · have hne : c ≠ d := by
      rintro rfl
      exact he rfl
    exact Function.update_of_ne hne ..

/-- A row was made by one lookup, in a state of the run; what the server had
reported by then it has reported now. -/
structure LookedUp (es : List (ExportEv β)) (s : Exporting β) (c : Nat) (id : TunnelId) (port : Int32) : Prop where
  made : (s.sys.manager.calls c).made = some id
  lookup : ∃ es₁ es₂ t, es = es₁ ++ es₂ ∧ Run step init es₁ t ∧ t.kind c = some .createSshExport ∧
    t.sys.manager.calls c = .created id ∧ port = t.getTunnelBoundPort id ∧ SamePorts c t s ∧
    (Along step (StillRegistered c) init es ↔ t.sys.manager.Registered id c)

theorem along_of_notMem (h : ExportEv.boundPort c ∉ es) : Along step (StillRegistered c) s es := by
  rintro es₁ e es₂ t rfl - id rfl
  exact absurd (by simp) h

/-- Only the lookup of `c` may find its tunnel gone. -/
theorem along_snoc (h : Run step init es s) (he : e ≠ .boundPort c) :
    Along step (StillRegistered c) init (es ++ [e]) ↔ Along step (StillRegistered c) init es :=
  ⟨fun ha => ha.append, fun ha => ha.snoc h fun _ hb => absurd hb he⟩

theorem lookedUp_of_run (h : Run step init es s) (c : Nat) :
    (s.rows c = none → ExportEv.boundPort c ∉ es) ∧ ∀ id port, s.rows c = some (id, port) → LookedUp es s c id port := by
  refine h.history (P := fun es s => (s.rows c = none → ExportEv.boundPort c ∉ es) ∧
    ∀ id port, s.rows c = some (id, port) → LookedUp es s c id port) ⟨by simp, by simp [init]⟩ ?_
  rintro es s e t hrun ⟨hnone, hsome⟩ hs
  by_cases he : e = .boundPort c
  · subst he
    obtain ⟨_, _, -, -, hne, -⟩ | ⟨_, _, _, _, he, -⟩ | ⟨_, _, _, _, he, -⟩ | ⟨d, id, he, hk, hrow, hc, rfl⟩ :=
      step_cases hs
    · exact absurd rfl (hne c)
    · cases he
    · cases he
    cases he
    refine ⟨by simp, fun id' port hr => ?_⟩
    simp only [Function.update_self, Option.some.injEq, Prod.mk.injEq] at hr
    obtain ⟨rfl, rfl⟩ := hr
    refine ⟨by rw [hc]; rfl, es, [.boundPort c], s, rfl, hrun, hk, hc, rfl, ⟨rfl, rfl, rfl, rfl⟩, ?_⟩
    constructor
    · intro ha
      exact ha.last hrun id rfl hc
    · intro hreg
      -- there was no lookup before this one
      refine (along_of_notMem (hnone hrow)).snoc hrun fun id' _ hc' => ?_
      rw [hc] at hc'
      cases hc'
      exact hreg
  · rw [rows_step hs he]
    refine ⟨fun hr => ?_, fun id port hr => ?_⟩
    · have hnot := hnone hr
      simp only [List.mem_append, List.mem_singleton, not_or]
      exact ⟨hnot, fun hb => he hb.symm⟩
    · obtain ⟨hmade, es₁, es₂, u, rfl, hu, hk, hc, hp, hsame, hiff⟩ := hsome id port hr
      have hstep := samePorts_of_up hs (Call.up_of_made hmade)
      refine ⟨made_step hs hmade, es₁, es₂ ++ [e], u, by simp, hu, hk, hc, hp, ?_, ?_⟩
      · exact ⟨hstep.kind.trans hsame.kind, hstep.requested.trans hsame.requested,
          hstep.remotePort.trans hsame.remotePort, hstep.granted.trans hsame.granted⟩
      · rw [along_snoc hrun he]
        exact hiff

/-- The lookup reads the port from the handle. -/
theorem isBound_of_still (h : Run step init es s) (hc : Along step (StillRegistered c) init es)
    (hr : s.rows c = some (id, port)) : s.sys.manager.calls c = .created id ∧ s.IsBound c port := by
  obtain ⟨hmade, es₁, es₂, t, rfl, ht, hk, hcall, rfl, hsame, hiff⟩ := (lookedUp_of_run h c).2 id port hr
  have hreg : t.sys.manager.tunnels.lookup id = some c := hiff.mp hc
  have hbound := attributed_of_run ht c id hk (by rw [hcall]; rfl)
  refine ⟨Call.created_of_made hmade, ?_⟩
  rw [hsame.isBound, getTunnelBoundPort, hreg]
  exact hbound

/-- The row of an SSH export whose tunnel is still registered where its port is
looked up has the port that the server reported as bound for this tunnel: the
requested one, or the server's choice where 0 was requested, and never 0. -/
theorem reported_port_is_bound (es : List (ExportEv β)) (s : Exporting β) (h : Run step init es s) (c : Nat)
    (hc : Along step (StillRegistered c) init es) (id : TunnelId) (port : Int32) (hr : s.rows c = some (id, port)) :
    s.sys.manager.calls c = .created id ∧ port ≠ 0 ∧
      ∃ answer, s.granted c = some answer ∧ port = if s.requested c = 0 then answer else s.requested c := by
  obtain ⟨hcall, hne, hmap⟩ := isBound_of_still h hc hr
  obtain ⟨answer, hanswer, hport⟩ := Option.map_eq_some_iff.mp hmap
  exact ⟨hcall, hne, answer, hanswer, hport.symm⟩

/-- An export with a port of the server's choice; another tunnel is created
before it and closed beside it. -/
def exportBeside : List (ExportEv String) :=
  [.create 1 .createMeshTunnel 8080, .start 1 true, .sys (.lock (.call 1)), .sys (.manager (.insert 1)),
    .sys (.unlock (.call 1)), .create 0 .createSshExport 0, .sshStart 0 (.granted 40001), .sys (.lock (.call 0)),
    .sys (.manager (.insert 0)), .sys (.unlock (.call 0)), .sys (.lock (.call 2)),
    .sys (.manager (.take 2 (.closeTunnel 1) fun _ => true)), .sys (.unlock (.call 2)), .sys (.lock (.status 0))]

theorem exportBeside_reports :
    ∃ s : Exporting String, Run step init (exportBeside ++ [.boundPort 0]) s ∧ s.rows 0 = some (2, 40001) ∧
      s.requested 0 = 0 ∧ s.granted 0 = some 40001 ∧ s.sys.manager.calls 0 = .created 2 := by
  have hrun : ∃ s t : Exporting String, Run step init exportBeside s ∧ step s (.boundPort 0) = some t ∧
      s.sys.manager.calls 0 = .created 2 ∧ s.sys.manager.Registered 2 0 ∧ t.requested 0 = 0 ∧
      t.rows 0 = some (2, 40001) :=
    ⟨_, _, rfl, rfl, rfl, rfl, rfl, rfl⟩
  obtain ⟨s, t, hs, ht, hc, hreg, hreq, hr⟩ := hrun
  have hstill : Along step (StillRegistered 0) init (exportBeside ++ [.boundPort 0]) := by
    refine (along_of_notMem (by simp [exportBeside])).snoc hs fun id _ hid => ?_
    rw [hc] at hid
    cases hid
    exact hreg
  have hboth : Run step init (exportBeside ++ [.boundPort 0]) t := run_snoc.mpr ⟨s, hs, ht⟩
  obtain ⟨hcall, -, answer, hanswer, hport⟩ := reported_port_is_bound _ t hboth 0 hstill 2 40001 hr
  rw [if_pos hreq] at hport
  exact ⟨t, hboth, hr, hreq, by rw [hanswer, hport], hcall⟩

/-- The same export, and `CloseAllTunnels` before the port is looked up. -/
def closedBetween : List (ExportEv String) :=
  [.create 0 .createSshExport 0, .sshStart 0 (.granted 40001), .sys (.lock (.call 0)), .sys (.manager (.insert 0)),
    .sys (.unlock (.call 0)), .sys (.lock (.call 1)), .sys (.manager (.take 1 .closeAllTunnels fun _ => true)),
    .sys (.unlock (.call 1)), .sys (.lock (.status 0)), .boundPort 0, .sys (.unlock (.status 0))]

theorem closed_export_reports_zero :
    ¬ ∀ (es : List (ExportEv String)) (s : Exporting String), Run step init es s → ∀ c id port,
      s.rows c = some (id, port) → s.IsBound c port := by
  intro hall
  have hrun : ∃ s : Exporting String, Run step init closedBetween s ∧ s.rows 0 = some (1, 0) := ⟨_, rfl, rfl⟩
  obtain ⟨s, hs, hr⟩ := hrun
  exact (hall closedBetween s hs 0 1 0 hr).1 rfl

/-! ## Until the ids come round -/

theorem issued_append (es es' : List (ExportEv β)) : issued (es ++ es') = issued es + issued es' :=
  List.countP_append

theorem inv_of_run (h : Run step init es s) (hn : issued es ≤ 2 ^ 64) : Inv (issued es) s.sys.manager := by
  refine h.history (P := fun es s => issued es ≤ 2 ^ 64 → Inv (issued es) s.sys.manager)
    (fun _ => by exact inv_init) (fun es s e t _ ih hs hn => ?_) hn
  rw [issued_append] at hn ⊢
  have hi := ih (by omega)
  obtain ⟨se, sys, hse, hm, -, h0, rfl⟩ | ⟨c, k, _, sys, rfl, hse, rfl⟩ | ⟨c, _, _, sys, rfl, -, hse, rfl⟩ |
    ⟨c, _, rfl, -, -, -, rfl⟩ := step_cases hs
  · rcases Sys.step_manager hse with he | ⟨m, rfl, hms⟩
    · rw [h0, he]
      exact hi
    · have hquiet := (hm m rfl).1
      have hnext := hi.step hms (by rw [hquiet]; omega)
      rwa [hquiet, ← h0] at hnext
  · exact hi.step (Sys.manager_of_step hse) hn
  · exact hi.step (Sys.manager_of_step hse) hn
  · exact hi

/-- For as long as at most `2 ^ 64` ids were handed out, a row has the bound port
exactly if the tunnel was still registered where the port was looked up. -/
theorem reported_port_is_bound_iff (h : Run step init es s) (hn : issued es ≤ 2 ^ 64)
    (hr : s.rows c = some (id, port)) : s.IsBound c port ↔ Along step (StillRegistered c) init es := by
  constructor
  · intro hb
    obtain ⟨-, es₁, es₂, t, rfl, ht, -, hcall, rfl, -, hiff⟩ := (lookedUp_of_run h c).2 id port hr
    rw [issued_append] at hn
    have hi := inv_of_run ht (by omega)
    rw [hiff, State.Registered]
    cases hl : t.sys.manager.tunnels.lookup id with
    | none => exact absurd (by simp [getTunnelBoundPort, hl]) hb.1
    | some x =>
      -- an entry under the id of `c` is that of `c`
      have hx := Call.id?_of_made (hi.reg id x hl)
      rw [hi.unique x c id hx (by rw [hcall]; rfl)]
  · intro hc
    exact (isBound_of_still h hc hr).2

end Exporting

end ErplTunnel.Manager

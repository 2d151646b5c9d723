import ErplTunnel.Manager.Conservation
import ErplTunnel.Manager.Listing

/-!
# The manager of the process

`g_tunnel_manager` is a global of the process, and `RegisterTunnelFunctions`
makes a new manager each time the extension is loaded, which is once for every
database instance. The manager that was there is destroyed by the assignment,
and its destructor calls `CloseAllTunnels`. The pragmas call the four `Create*`,
`CloseTunnel` and `CloseAllTunnels`; nobody calls `CleanupInactiveTunnels`.

A call that is still at work on a manager when that is destroyed has no defined
behaviour once it touches the map again. The model has what such a call does
without the map: it closes the handles it has taken out.
-/

namespace ErplTunnel.Manager

structure Process where
  /-- `g_tunnel_manager`, once the extension has been loaded. -/
  manager : Option State
  /-- The managers that were replaced. -/
  past : List State
  /-- Every id that was handed out. -/
  ids : List TunnelId
  /-- How many of them by the managers that were replaced. -/
  base : Nat

inductive ProcessEv where
  /-- A load, and the number of the destructor's call of `CloseAllTunnels`. -/
  | load (d : Nat)
  /-- A step of a call on `g_tunnel_manager`. -/
  | call (e : Ev)
  /-- A call on a manager that was replaced closes a handle. -/
  | close (k c : Nat) (h : Handle) (throws : Bool)

/-- A pragma makes this step. -/
def Ev.pragma : Ev → Bool
  | .take _ .cleanupInactiveTunnels _ => false
  | _ => true

/-- The ids that a step hands out. -/
def Ev.hands (e : Ev) (m : State) : List TunnelId :=
  match e with
  | .generate _ k => if k = .createTunnel "agent" then [] else [m.nextTunnelId]
  | _ => []

namespace Process

def start : Process := ⟨none, [], [], 0⟩

def step (s : Process) : ProcessEv → Option Process
  | .load d =>
    match s.manager with
    | none => some { s with manager := some init }
    | some m => (Manager.step m (.take d .closeAllTunnels fun _ => true)).map fun m' =>
        { s with manager := some init, past := s.past ++ [m'], base := s.ids.length }
  | .call e =>
    match s.manager with
    | none => none
    | some m =>
      if e.pragma then (Manager.step m e).map fun m' => { s with manager := some m', ids := s.ids ++ e.hands m }
      else none
  | .close k c h throws =>
    match s.past[k]? with
    | none => none
    | some m => (Manager.step m (.close c h throws)).map fun m' => { s with past := s.past.set k m' }

/-- The tunnel is in the registry of the process. -/
def Registered (s : Process) (id : TunnelId) (h : Handle) : Prop := ∃ m, s.manager = some m ∧ m.Registered id h

/-- The step is the take-out of a `tunnel_close` of this id or of a `tunnel_close_all`. -/
def Closes (e : ProcessEv) (id : TunnelId) : Prop :=
  ∃ c a, e = .call (.take c (.closeTunnel id) a) ∨ e = .call (.take c .closeAllTunnels a)

/-- A step that leaves every tunnel registered under its id, but for those it closes. -/
def Keeps (s : Process) (e : ProcessEv) (s' : Process) : Prop :=
  ∀ id h, s.Registered id h → s'.Registered id h ∨ Closes e id

/-- No id was handed out twice, and nobody has taken a registered tunnel to close it. -/
structure Undisturbed (s : Process) : Prop where
  ids : s.ids.Nodup
  unclosed : ∀ m id h, s.manager = some m → m.Registered id h → ∀ k, h ∉ (m.calls k).taken

/-- A load finds no tunnel, registered or being created; and no id is handed out
after a load that came after an id, nor after the last of the `2 ^ 64`. -/
def Sound (s : Process) : ProcessEv → Prop
  | .load _ => ∀ m, s.manager = some m → m.tunnels = ∅ ∧ ∀ c i, m.calls c ≠ .starting i ∧ m.calls c ≠ .started i
  | .call e => issued [e] = 1 → s.base = 0 ∧ s.ids.length < 2 ^ 64
  | .close _ _ _ _ => True

variable {s s' : Process}

/-- What a step of the process can be: the first load, one that replaces a
manager, a step of that manager, or a handle closed for one that was replaced. -/
theorem step_cases {e : ProcessEv} (hs : s.step e = some s') :
    (∃ d, e = .load d ∧ s.manager = none ∧ s' = { s with manager := some init }) ∨
    (∃ d m m', e = .load d ∧ s.manager = some m ∧
      s' = { s with manager := some init, past := s.past ++ [m'], base := s.ids.length }) ∨
    (∃ c m m', e = .call c ∧ s.manager = some m ∧ c.pragma = true ∧ Manager.step m c = some m' ∧
      s' = { s with manager := some m', ids := s.ids ++ c.hands m }) ∨
    ∃ k c h throws m', e = .close k c h throws ∧ s' = { s with past := s.past.set k m' } := by
  cases e with
  | load d =>
    simp only [Process.step] at hs
    split at hs
    case h_1 hm =>
      cases hs
      exact .inl ⟨d, rfl, hm, rfl⟩
    case h_2 m hm =>
      obtain ⟨m', -, rfl⟩ := Option.map_eq_some_iff.mp hs
      exact .inr (.inl ⟨d, m, m', rfl, hm, rfl⟩)
  | call c =>
    simp only [Process.step] at hs
    split at hs
    case h_1 => cases hs
    case h_2 m hm =>
    split at hs
    case isFalse => cases hs
    case isTrue hp =>
    obtain ⟨m', hst, rfl⟩ := Option.map_eq_some_iff.mp hs
    exact .inr (.inr (.inl ⟨c, m, m', rfl, hm, hp, hst, rfl⟩))
  | close k c h throws =>
    simp only [Process.step] at hs
    split at hs
    case h_1 => cases hs
    case h_2 =>
    obtain ⟨m', -, rfl⟩ := Option.map_eq_some_iff.mp hs
    exact .inr (.inr (.inr ⟨k, c, h, throws, m', rfl, rfl⟩))

structure Inv (s : Process) : Prop where
  ids : s.ids = (List.range s.ids.length).map idAt
  few : s.ids.length ≤ 2 ^ 64
  base : s.base = 0 ∨ s.base = s.ids.length
  manager : ∀ m, s.manager = some m → Manager.Inv (s.ids.length - s.base) m
  unloaded : s.manager = none → s.ids = []

theorem inv_start : Inv start where
  ids := rfl
  few := by decide
  base := .inl rfl
  manager m h := by cases h
  unloaded _ := rfl

/-- A step hands out an id when it counts, and then the next one. -/
theorem hands_eq (e : Ev) (m : State) :
    issued [e] = 0 ∧ e.hands m = [] ∨ issued [e] = 1 ∧ e.hands m = [m.nextTunnelId] := by
  cases e with
  | generate c k =>
    by_cases hk : k = .createTunnel "agent"
    · exact .inl (by simp [issued, Ev.hands, hk])
    · exact .inr (by simp [issued, Ev.hands, hk])
  | _ => exact .inl ⟨rfl, rfl⟩

theorem Inv.call (h : Inv s) {m m' : State} {e : Ev} (hm : s.manager = some m) (hs : Manager.step m e = some m')
    (hc : issued [e] = 1 → s.base = 0 ∧ s.ids.length < 2 ^ 64) :
    Inv { s with manager := some m', ids := s.ids ++ e.hands m } := by
  have hi := h.manager m hm
  have hfew := h.few
  rcases hands_eq e m with ⟨h0, hn⟩ | ⟨h1, hn⟩
  · have hi' := hi.step hs (by omega)
    rw [h0] at hi'
    refine ⟨?_, ?_, ?_, ?_, fun hf => by cases hf⟩
    · simpa [hn] using h.ids
    · simpa [hn] using hfew
    · simpa [hn] using h.base
    · rintro _ ⟨⟩
      simpa [hn] using hi'
  · obtain ⟨hb, hlt⟩ := hc h1
    have hi' := hi.step hs (by omega)
    have hnext := hi.next
    rw [hb, Nat.sub_zero] at hnext hi'
    refine ⟨?_, ?_, .inl hb, ?_, fun hf => by cases hf⟩
    · have hlen : (s.ids ++ e.hands m).length = s.ids.length + 1 := by simp [hn]
      show s.ids ++ e.hands m = _
      rw [hlen, List.range_succ, List.map_append, ← h.ids, hn, hnext]
      rfl
    · simp only [hn, List.length_append, List.length_singleton]
      omega
    · rintro _ ⟨⟩
      simpa [hn, hb, h1] using hi'

theorem Inv.step {e : ProcessEv} (h : Inv s) (hc : s.Sound e) (hs : s.step e = some s') : Inv s' := by
  obtain ⟨d, rfl, hm, rfl⟩ | ⟨d, m, m', rfl, hm, rfl⟩ | ⟨c, m, m', rfl, hm, hp, hst, rfl⟩ |
    ⟨k, c, x, throws, m', rfl, rfl⟩ := step_cases hs
  · have hnil := h.unloaded hm
    refine ⟨h.ids, h.few, h.base, ?_, fun hf => by cases hf⟩
    rintro _ ⟨⟩
    have hlen : s.ids.length - s.base = 0 := by simp [hnil]
    show Manager.Inv (s.ids.length - s.base) init
    rw [hlen]
    exact inv_init
  · refine ⟨h.ids, h.few, .inr rfl, ?_, fun hf => by cases hf⟩
    rintro _ ⟨⟩
    show Manager.Inv (s.ids.length - s.ids.length) init
    rw [Nat.sub_self]
    exact inv_init
  · exact h.call hm hst hc
  · exact ⟨h.ids, h.few, h.base, h.manager, h.unloaded⟩

theorem Inv.undisturbed (h : Inv s) : Undisturbed s where
  ids := by
    rw [h.ids]
    refine List.Nodup.map_on (fun j hj k hk he => ?_) List.nodup_range
    have hfew := h.few
    rw [List.mem_range] at hj hk
    exact idAt_inj (by omega) (by omega) he
  unclosed m id x hm hr k := (h.manager m hm).free id x k hr

/-- A step of the manager, told by the registered tunnels. -/
theorem registered_step {n : Nat} {m m' : State} {e : Ev} (hi : Manager.Inv n m) (hs : Manager.step m e = some m')
    (hp : e.pragma = true) {id : TunnelId} {h : Handle} (hr : m.Registered id h) :
    m'.Registered id h ∨ Closes (.call e) id := by
  cases hl : e.locked with
  | none =>
    left
    rw [State.Registered, Sys.tunnels_of_unlocked hs hl]
    exact hr
  | some c =>
    cases e with
    | insert c' =>
      simp only [Manager.step] at hs
      split at hs
      case h_2 => cases hs
      case h_1 i hc =>
      cases hs
      have habsent := hi.absent hc
      have hne : id ≠ i := by
        rintro rfl
        exact absurd (habsent.symm.trans hr) (by simp)
      left
      rw [State.Registered, AList.lookup_insert_ne hne]
      exact hr
    | take c' op a =>
      cases op with
      | closeAllTunnels => exact .inr ⟨c', a, .inr rfl⟩
      | cleanupInactiveTunnels => cases hp
      | closeTunnel id' =>
        by_cases hid : id' = id
        · exact .inr ⟨c', a, .inl (by rw [hid])⟩
        · left
          simp only [Manager.step] at hs
          split at hs
          case h_2 => cases hs
          case h_1 =>
          split at hs <;> cases hs
          · exact hr
          · exact (lookup_takeOut_ne (Ne.symm hid)).trans hr
    | _ => cases hl

theorem Inv.keeps {e : ProcessEv} (h : Inv s) (hc : s.Sound e) (hs : s.step e = some s') : Keeps s e s' := by
  rintro id x ⟨m₀, hm₀, hr⟩
  obtain ⟨d, rfl, hm, rfl⟩ | ⟨d, m, m', rfl, hm, rfl⟩ | ⟨c, m, m', rfl, hm, hp, hst, rfl⟩ |
    ⟨k, c, y, throws, m', rfl, rfl⟩ := step_cases hs
  · exact absurd (hm.symm.trans hm₀) (by simp)
  · have hempty := (hc m₀ hm₀).1
    rw [State.Registered, hempty] at hr
    cases hr
  · obtain rfl : m = m₀ := Option.some.inj (hm.symm.trans hm₀)
    exact (registered_step (h.manager m hm) hst hp hr).imp_left fun hr' => ⟨m', rfl, hr'⟩
  · exact .inl ⟨m₀, hm₀, hr⟩

/-- In every run whose loads find no tunnel, and that hands out no id after a load
that came after one: no id is handed out twice, no registered tunnel is closed,
and the next step leaves every tunnel registered that it does not close. -/
theorem load_disturbs_nothing (es : List ProcessEv) (s : Process) (h : Lts.Run step start es s)
    (hc : Lts.Along step Sound start es) :
    Undisturbed s ∧ ∀ e s', s.Sound e → s.step e = some s' → Keeps s e s' := by
  have hi : Inv s := h.invAlong (fun _ _ _ hi hc hs => hi.step hc hs) hc inv_start
  exact ⟨hi.undisturbed, fun e s' hse hs => hi.keeps hse hs⟩

/-- A tunnel is created in a process that has loaded the extension twice. -/
def loadedTwice : List ProcessEv :=
  [.load 0, .load 0, .call (.generate 0 .createMeshTunnel), .call (.start 0 true), .call (.insert 0)]

theorem loadedTwice_undisturbed :
    ∃ s s' : Process, Lts.Run step start loadedTwice s ∧ s.ids = [1] ∧ s.Registered 1 0 ∧ Undisturbed s ∧
      s.step (.call (.generate 1 .createMeshTunnel)) = some s' ∧ s'.Registered 1 0 := by
  have hrun : ∃ s s' : Process, Lts.Run step start loadedTwice s ∧ s.ids = [1] ∧ s.base = 0 ∧
      s.step (.call (.generate 1 .createMeshTunnel)) = some s' ∧ s.Registered 1 0 :=
    ⟨_, _, rfl, rfl, rfl, rfl, _, rfl, rfl⟩
  have hsound : Lts.Along step Sound start loadedTwice := by
    refine .cons (fun m hm => by cases hm) rfl (.cons ?_ rfl (.cons (fun _ => ⟨rfl, by decide⟩) rfl
      (.cons (fun hf => by cases hf) rfl (.cons (fun hf => by cases hf) rfl Lts.along_nil))))
    rintro _ ⟨⟩
    exact ⟨rfl, fun c i => ⟨Call.noConfusion, Call.noConfusion⟩⟩
  obtain ⟨s, s', hs, hids, hbase, hstep, hr⟩ := hrun
  obtain ⟨hu, hkeeps⟩ := load_disturbs_nothing loadedTwice s hs hsound
  have hse : s.Sound (.call (.generate 1 .createMeshTunnel)) := fun _ => ⟨hbase, by rw [hids]; decide⟩
  refine ⟨s, s', hs, hids, hr, hu, hstep, (hkeeps _ s' hse hstep 1 0 hr).resolve_right ?_⟩
  rintro ⟨c, a, hf | hf⟩ <;> cases hf

/-- After a load nothing is registered. -/
theorem not_registered_of_load {d : Nat} {id : TunnelId} {x : Handle} (h : s.step (.load d) = some s') :
    ¬s'.Registered id x := by
  rintro ⟨m, hm, hr⟩
  obtain ⟨d, -, -, rfl⟩ | ⟨d, m₀, m', -, -, rfl⟩ | ⟨c, m₀, m', he, -⟩ | ⟨k, c, y, throws, m', he, -⟩ := step_cases h
  · cases hm
    cases hr
  · cases hm
    cases hr
  · cases he
  · cases he

/-- A database instance is opened while a tunnel is registered. -/
theorem load_loses_tunnels :
    ¬ ∀ (es : List ProcessEv) (s : Process), Lts.Run step start es s →
      Undisturbed s ∧ ∀ e s', s.step e = some s' → Keeps s e s' := by
  intro hall
  have hrun : ∃ s s' : Process, Lts.Run step start loadedTwice s ∧ s.step (.load 1) = some s' ∧ s.Registered 1 0 :=
    ⟨_, _, rfl, rfl, _, rfl, rfl⟩
  obtain ⟨s, s', hs, hload, hr⟩ := hrun
  rcases (hall loadedTwice s hs).2 _ s' hload 1 0 hr with hr' | ⟨c, a, hf | hf⟩
  · exact not_registered_of_load hload hr'
  · cases hf
  · cases hf

end Process

end ErplTunnel.Manager

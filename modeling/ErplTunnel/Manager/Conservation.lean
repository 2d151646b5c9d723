import ErplTunnel.Manager.Steps

/-!
# The registry conserves handles

Over every interleaving of the manager's calls: ids are handed out once, an
insert never replaces a live handle, a handle that was inserted is either
registered under its id or in the hands of exactly one closer, and a removed
id never comes back (`registry_conservation`). The counter is an `int64_t`,
so this holds for the first `2 ^ 64` ids; the one after them is the first one
again (`conservation_fails_after_wrap`).

The laws follow from one invariant (`Inv`), kept by each of the four kinds of
step.
-/

namespace ErplTunnel.Manager

open Lts

/-- The state after `n` ids were handed out. -/
structure Inv (n : Nat) (s : State) : Prop where
  next : s.nextTunnelId = idAt n
  below : ∀ c i, (s.calls c).id? = some i → ∃ k < n, i = idAt k
  unique : ∀ c c' i, (s.calls c).id? = some i → (s.calls c').id? = some i → c = c'
  /-- An entry is under the id of the call that made it. -/
  reg : ∀ i h, s.Registered i h → (s.calls h).made = some i
  /-- No closer has what is registered. -/
  free : ∀ i h k, s.Registered i h → h ∉ (s.calls k).taken
  took : ∀ k h, h ∈ (s.calls k).taken → ∃ i, (s.calls h).made = some i
  once : ∀ k k' h, h ∈ (s.calls k).taken → h ∈ (s.calls k').taken → k = k'
  /-- What was made is registered or taken. -/
  place : ∀ c i, (s.calls c).made = some i → s.Registered i c ∨ ∃ k, c ∈ (s.calls k).taken
  hit : ∀ k i, (s.calls k).hit = some i → ∃ h ∈ (s.calls k).taken, (s.calls h).made = some i

theorem inv_init : Inv 0 init where
  next := rfl
  below c i h := by cases h
  unique c c' i h := by cases h
  reg i h hr := by cases hr
  free i h k hr := by cases hr
  took k h ht := by cases ht
  once k k' h ht := by cases ht
  place c i h := by cases h
  hit k i h := by cases h

/-- The invariant reads only the counter, the map and four projections of
each call. -/
theorem Inv.congr {n : Nat} {s s' : State} (hs : Inv n s) (hn : s'.nextTunnelId = s.nextTunnelId)
    (ht : s'.tunnels = s.tunnels) (hq : ∀ c, Quiet (s.calls c) (s'.calls c)) : Inv n s' where
  next := hn.trans hs.next
  below c i h := hs.below c i ((hq c).id? ▸ h)
  unique c c' i h h' := hs.unique c c' i ((hq c).id? ▸ h) ((hq c').id? ▸ h')
  reg i h hr := by
    rw [State.Registered, ht] at hr
    rw [(hq h).made]; exact hs.reg i h hr
  free i h k hr := by
    rw [State.Registered, ht] at hr
    rw [(hq k).taken]; exact hs.free i h k hr
  took k h hm := by
    rw [(hq k).taken] at hm
    rw [(hq h).made]; exact hs.took k h hm
  once k k' h hm hm' := hs.once k k' h ((hq k).taken ▸ hm) ((hq k').taken ▸ hm')
  place c i h := by
    rw [(hq c).made] at h
    rw [State.Registered, ht]
    exact (hs.place c i h).imp id fun ⟨k, hk⟩ => ⟨k, (hq k).taken ▸ hk⟩
  hit k i h := by
    rw [(hq k).hit] at h
    obtain ⟨h', hm, hd⟩ := hs.hit k i h
    exact ⟨h', (hq k).taken ▸ hm, (hq h').made ▸ hd⟩

theorem calls_setCall (s : State) (c d : Nat) (k : Call) :
    (s.setCall c k).calls d = if d = c then k else s.calls d := by
  simp [State.setCall, Function.update_apply]

/-- A projection that the changed call keeps, every call keeps. -/
theorem proj_setCall {α : Type} (f : Call → α) {s : State} {c : Nat} {k : Call} (hf : f k = f (s.calls c))
    (d : Nat) : f ((s.setCall c k).calls d) = f (s.calls d) := by
  rw [calls_setCall]
  split
  · rename_i e; rw [e, hf]
  · rfl

theorem Inv.quiet {n : Nat} {s : State} (hs : Inv n s) {c : Nat} {k : Call} (hq : Quiet (s.calls c) k) :
    Inv n (s.setCall c k) :=
  hs.congr rfl rfl fun d => ⟨proj_setCall _ hq.id? d, proj_setCall _ hq.taken d,
    proj_setCall _ hq.made d, proj_setCall _ hq.hit d⟩

/-- Nothing is registered for a call that has not inserted, or taken from it. -/
theorem Inv.fresh {n : Nat} {s : State} (hs : Inv n s) {c : Nat} (hc : (s.calls c).made = none) :
    (∀ i, ¬ s.Registered i c) ∧ ∀ k, c ∉ (s.calls k).taken := by
  refine ⟨fun i hr => ?_, fun k hm => ?_⟩
  · have := hs.reg i c hr
    rw [hc] at this; cases this
  · obtain ⟨i, hi⟩ := hs.took k c hm
    rw [hc] at hi; cases hi

/-- Handing out an id that no call has. -/
theorem Inv.issue {n : Nat} {s : State} (hs : Inv n s) (hn : n < 2 ^ 64) {c : Nat} (hc : s.calls c = .idle) :
    Inv (n + 1) { s.setCall c (.starting s.nextTunnelId) with nextTunnelId := s.nextTunnelId + 1 } := by
  have htk := proj_setCall Call.taken (s := s) (c := c) (k := .starting s.nextTunnelId) (by rw [hc]; rfl)
  have hmd := proj_setCall Call.made (s := s) (c := c) (k := .starting s.nextTunnelId) (by rw [hc]; rfl)
  have hht := proj_setCall Call.hit (s := s) (c := c) (k := .starting s.nextTunnelId) (by rw [hc]; rfl)
  have hid : ∀ d i, ((s.setCall c (.starting s.nextTunnelId)).calls d).id? = some i →
      (d = c ∧ i = idAt n) ∨ (s.calls d).id? = some i := by
    intro d i h
    rw [calls_setCall] at h
    split at h
    · rename_i e
      exact .inl ⟨e, by rw [← hs.next]; exact (Option.some.inj h).symm⟩
    · exact .inr h
  -- the counter has not come round, so the new id is none of the old ones
  have hnew : ∀ d, (s.calls d).id? ≠ some (idAt n) := by
    intro d h
    obtain ⟨k, hk, e⟩ := hs.below d _ h
    have := idAt_inj hn (by omega) e
    omega
  exact {
    next := by show s.nextTunnelId + 1 = _; rw [hs.next, idAt_succ]
    below := fun d i h => by
      rcases hid d i h with ⟨-, rfl⟩ | h
      · exact ⟨n, by omega, rfl⟩
      · obtain ⟨k, hk, e⟩ := hs.below d i h
        exact ⟨k, by omega, e⟩
    unique := fun d d' i h h' => by
      rcases hid d i h with ⟨hd, hi⟩ | ho <;> rcases hid d' i h' with ⟨hd', hi'⟩ | ho'
      · rw [hd, hd']
      · exact absurd (hi ▸ ho') (hnew d')
      · exact absurd (hi' ▸ ho) (hnew d)
      · exact hs.unique d d' i ho ho'
    reg := fun i h hr => (hmd h).trans (hs.reg i h hr)
    free := fun i h k hr => htk k ▸ hs.free i h k hr
    took := fun k h hm => by
      obtain ⟨i, hi⟩ := hs.took k h (htk k ▸ hm)
      exact ⟨i, (hmd h).trans hi⟩
    once := fun k k' h hm hm' => hs.once k k' h (htk k ▸ hm) (htk k' ▸ hm')
    place := fun d i h => (hs.place d i (hmd d ▸ h)).imp id fun ⟨k, hk⟩ => ⟨k, (htk k).symm ▸ hk⟩
    hit := fun k i h => by
      obtain ⟨h', hm, hd⟩ := hs.hit k i (hht k ▸ h)
      exact ⟨h', (htk k).symm ▸ hm, (hmd h').trans hd⟩ }

/-- The key of an insert is absent. -/
theorem Inv.absent {n : Nat} {s : State} (hs : Inv n s) {c : Nat} {i : TunnelId}
    (hc : s.calls c = .started i) : s.tunnels.lookup i = none := by
  cases hl : s.tunnels.lookup i with
  | none => rfl
  | some h =>
    have hm := hs.reg i h hl
    have : h = c := hs.unique h c i (Call.id?_of_made hm) (by rw [hc]; rfl)
    rw [this, hc] at hm; cases hm

/-- The insert. -/
theorem Inv.insert {n : Nat} {s : State} (hs : Inv n s) {c : Nat} {i : TunnelId} (hc : s.calls c = .started i) :
    Inv n { s.setCall c (.created i) with tunnels := s.tunnels.insert i c } := by
  have hid := proj_setCall Call.id? (s := s) (c := c) (k := .created i) (by rw [hc]; rfl)
  have htk := proj_setCall Call.taken (s := s) (c := c) (k := .created i) (by rw [hc]; rfl)
  have hht := proj_setCall Call.hit (s := s) (c := c) (k := .created i) (by rw [hc]; rfl)
  obtain ⟨hnr, hnt⟩ := hs.fresh (c := c) (by rw [hc]; rfl)
  have hself : ((s.setCall c (.created i)).calls c).made = some i := by rw [calls_setCall, if_pos rfl]; rfl
  have hmd : ∀ d j, (s.calls d).made = some j → ((s.setCall c (.created i)).calls d).made = some j := by
    intro d j h
    rw [calls_setCall]
    split
    · rename_i e; rw [e, hc] at h; cases h
    · exact h
  have hreg : ∀ j h, (s.tunnels.insert i c).lookup j = some h → (j = i ∧ h = c) ∨ s.Registered j h := by
    intro j h hl
    by_cases e : j = i
    · rw [e, AList.lookup_insert] at hl
      exact .inl ⟨e, (Option.some.inj hl).symm⟩
    · rw [AList.lookup_insert_ne e] at hl
      exact .inr hl
  exact {
    next := hs.next
    below := fun d j h => hs.below d j (hid d ▸ h)
    unique := fun d d' j h h' => hs.unique d d' j (hid d ▸ h) (hid d' ▸ h')
    reg := fun j h hr => by
      rcases hreg j h hr with ⟨rfl, rfl⟩ | hr
      · exact hself
      · exact hmd h j (hs.reg j h hr)
    free := fun j h k hr => by
      rw [htk k]
      rcases hreg j h hr with ⟨-, rfl⟩ | hr
      · exact hnt k
      · exact hs.free j h k hr
    took := fun k h hm => by
      obtain ⟨j, hj⟩ := hs.took k h (htk k ▸ hm)
      exact ⟨j, hmd h j hj⟩
    once := fun k k' h hm hm' => hs.once k k' h (htk k ▸ hm) (htk k' ▸ hm')
    place := fun d j h => by
      by_cases e : d = c
      · subst e
        rw [hself] at h
        cases h
        exact .inl (AList.lookup_insert _)
      · rw [calls_setCall, if_neg e] at h
        rcases hs.place d j h with hr | ⟨k, hk⟩
        · have hji : j ≠ i := fun e' => by
            have := hs.absent hc
            rw [← e', hr] at this; cases this
          exact .inl ((AList.lookup_insert_ne hji).trans hr)
        · exact .inr ⟨k, (htk k).symm ▸ hk⟩
    hit := fun k j h => by
      obtain ⟨h', hm, hd⟩ := hs.hit k j (hht k ▸ h)
      exact ⟨h', (htk k).symm ▸ hm, hmd h' j hd⟩ }

/-- The take-out: the handles taken are out of the map, and no other closer
has them. -/
theorem Inv.take {n : Nat} {s : State} (hs : Inv n s) {c : Nat} (hc : s.calls c = .idle) {op : Closer}
    {a : Handle → Bool} (hop : ∀ i, op = .closeTunnel i → (takeOut s.tunnels a op).1 ≠ []) :
    Inv n { s.setCall c (.closing op (takeOut s.tunnels a op).1 (takeOut s.tunnels a op).1) with
      tunnels := (takeOut s.tunnels a op).2 } := by
  generalize hk : Call.closing op (takeOut s.tunnels a op).1 (takeOut s.tunnels a op).1 = k₀
  have hid := proj_setCall Call.id? (s := s) (c := c) (k := k₀) (by rw [hc, ← hk]; rfl)
  have hmd := proj_setCall Call.made (s := s) (c := c) (k := k₀) (by rw [hc, ← hk]; rfl)
  have htk : ∀ k h, h ∈ ((s.setCall c k₀).calls k).taken →
      (k = c ∧ h ∈ (takeOut s.tunnels a op).1) ∨ (k ≠ c ∧ h ∈ (s.calls k).taken) := by
    intro k h hm
    rw [calls_setCall] at hm
    split at hm
    · rename_i e; rw [← hk] at hm; exact .inl ⟨e, hm⟩
    · rename_i e; exact .inr ⟨e, hm⟩
  have hself : ((s.setCall c k₀).calls c).taken = (takeOut s.tunnels a op).1 := by
    rw [calls_setCall, if_pos rfl, ← hk]; rfl
  have hother : ∀ k h, h ∈ (s.calls k).taken → h ∈ ((s.setCall c k₀).calls k).taken := by
    intro k h hm
    rw [calls_setCall, if_neg (fun e => by rw [e, hc] at hm; cases hm)]
    exact hm
  -- a handle just taken was registered, so no closer had it
  have hwas : ∀ h, h ∈ (takeOut s.tunnels a op).1 → ∃ i, s.Registered i h := fun h hm => by
    obtain ⟨i, hi, -⟩ := mem_takeOut.mp hm
    exact ⟨i, hi⟩
  exact {
    next := hs.next
    below := fun d j h => hs.below d j (hid d ▸ h)
    unique := fun d d' j h h' => hs.unique d d' j (hid d ▸ h) (hid d' ▸ h')
    reg := fun i h hr => (hmd h).trans (hs.reg i h (takeOut_sub hr))
    free := fun i h k hr hm => by
      rcases htk k h hm with ⟨-, ht⟩ | ⟨-, ht⟩
      · obtain ⟨j, hj, hn⟩ := mem_takeOut.mp ht
        have : some i = some j := (hs.reg i h (takeOut_sub hr)).symm.trans (hs.reg j h hj)
        cases this
        rw [State.Registered, hn] at hr; cases hr
      · exact hs.free i h k (takeOut_sub hr) ht
    took := fun k h hm => by
      rcases htk k h hm with ⟨-, ht⟩ | ⟨-, ht⟩
      · obtain ⟨i, hi⟩ := hwas h ht
        exact ⟨i, (hmd h).trans (hs.reg i h hi)⟩
      · obtain ⟨i, hi⟩ := hs.took k h ht
        exact ⟨i, (hmd h).trans hi⟩
    once := fun k k' h hm hm' => by
      rcases htk k h hm with ⟨e, ht⟩ | ⟨-, ht⟩ <;> rcases htk k' h hm' with ⟨e', ht'⟩ | ⟨-, ht'⟩
      · rw [e, e']
      · obtain ⟨i, hi⟩ := hwas h ht
        exact absurd ht' (hs.free i h k' hi)
      · obtain ⟨i, hi⟩ := hwas h ht'
        exact absurd ht (hs.free i h k hi)
      · exact hs.once k k' h ht ht'
    place := fun d i h => by
      rcases hs.place d i (hmd d ▸ h) with hr | ⟨k, hk⟩
      · by_cases ht : d ∈ (takeOut s.tunnels a op).1
        · exact .inr ⟨c, hself ▸ ht⟩
        · exact .inl (takeOut_kept hr ht)
      · exact .inr ⟨k, hother k d hk⟩
    hit := fun k i h => by
      by_cases e : k = c
      · subst e
        rw [calls_setCall, if_pos rfl, ← hk] at h
        cases op <;> simp only [Call.hit, Option.some.injEq, reduceCtorEq] at h
        subst h
        obtain ⟨h', hm, hl⟩ := takeOut_closeTunnel (hop _ rfl)
        exact ⟨h', hself ▸ hm, (hmd h').trans (hs.reg _ h' hl)⟩
      · rw [calls_setCall, if_neg e] at h
        obtain ⟨h', hm, hd⟩ := hs.hit k i h
        exact ⟨h', hother k h' hm, (hmd h').trans hd⟩ }

/-- A step keeps the invariant, as long as the counter has not come round. -/
theorem Inv.step {n : Nat} {s s' : State} {e : Ev} (hs : Inv n s) (h : step s e = some s')
    (hn : n + issued [e] ≤ 2 ^ 64) : Inv (n + issued [e]) s' := by
  obtain ⟨c, k, hq, rfl, h0⟩ | ⟨c, hc, h1, rfl⟩ | ⟨c, i, hc, h0, rfl⟩ | ⟨c, op, a, hc, h0, hop, rfl⟩ :=
    step_cases h
  · rw [h0]; exact hs.quiet hq
  · rw [h1] at hn ⊢; exact hs.issue (by omega) hc
  · rw [h0]; exact hs.insert hc
  · rw [h0]; exact hs.take hc hop

theorem issued_append (es es' : List Ev) : issued (es ++ es') = issued es + issued es' :=
  List.countP_append

theorem inv_of_run {es : List Ev} {s : State} (h : Run step init es s) (hn : issued es ≤ 2 ^ 64) :
    Inv (issued es) s := by
  refine h.history (P := fun es s => issued es ≤ 2 ^ 64 → Inv (issued es) s) (fun _ => inv_init)
    (fun es t e u _ ih hu hn => ?_) hn
  rw [issued_append] at hn ⊢
  exact (ih (by omega)).step hu hn

/-! ## Conservation -/

/-- The laws of a reachable state. -/
structure Conserved (s : State) : Prop where
  /-- No two calls were handed the same id. -/
  idsDistinct : ∀ c c' i, (s.calls c).id? = some i → (s.calls c').id? = some i → c = c'
  /-- Whoever is about to insert finds its key absent. -/
  insertAbsent : ∀ c i, s.calls c = .started i → i ∉ s.tunnels
  /-- A handle that was inserted is registered, under its id only and in no
  closer's hands, or it is not registered and in one closer's hands. -/
  onePlace : ∀ c i, s.calls c = .created i →
    (s.Registered i c ∧ (∀ j, s.Registered j c → j = i) ∧ ∀ k, c ∉ (s.calls k).taken) ∨
    ((∀ j, ¬ s.Registered j c) ∧ ∃! k, c ∈ (s.calls k).taken)
  /-- A `Create*` that threw has no entry, and no closer found one. -/
  throwAddsNone : ∀ c i, s.calls c = .threw i →
    (∀ j, ¬ s.Registered j c) ∧ ∀ k, c ∉ (s.calls k).taken
  /-- At most one `CloseTunnel(i)` returned true. -/
  closeTrueOnce : ∀ k k' i t t', s.calls k = .closed (.closeTunnel i) t (some true) →
    s.calls k' = .closed (.closeTunnel i) t' (some true) → k = k'

theorem Inv.conserved {n : Nat} {s : State} (hs : Inv n s) : Conserved s where
  idsDistinct := hs.unique
  insertAbsent c i hc := AList.lookup_eq_none.mp (hs.absent hc)
  onePlace c i hc := by
    have hmade : (s.calls c).made = some i := by rw [hc]; rfl
    have hkey : ∀ j, s.Registered j c → j = i := fun j hj =>
      Option.some.inj ((hs.reg j c hj).symm.trans hmade)
    rcases hs.place c i hmade with hr | ⟨k, hk⟩
    · exact .inl ⟨hr, hkey, fun k => hs.free i c k hr⟩
    · refine .inr ⟨fun j hj => hs.free j c k hj hk, k, hk, fun k' hk' => hs.once k' k c hk' hk⟩
  throwAddsNone c i hc := hs.fresh (by rw [hc]; rfl)
  closeTrueOnce k k' i t t' hk hk' := by
    obtain ⟨h, hm, hd⟩ := hs.hit k i (by rw [hk]; rfl)
    obtain ⟨h', hm', hd'⟩ := hs.hit k' i (by rw [hk']; rfl)
    have : h = h' := hs.unique h h' i (Call.id?_of_made hd) (Call.id?_of_made hd')
    exact hs.once k k' h hm (this ▸ hm')

/-- What was made stays made, and what was taken stays taken. -/
theorem step_keeps {s s' : State} {e : Ev} (h : step s e = some s') (c : Nat) :
    (∀ i, (s.calls c).made = some i → (s'.calls c).made = some i) ∧
    ∀ d, d ∈ (s.calls c).taken → d ∈ (s'.calls c).taken := by
  -- the call that moves has made and taken nothing yet, unless it moves quietly
  have move : ∀ {t : State} {d : Nat} {k : Call}, t.calls = (s.setCall d k).calls →
      (s.calls d).made = none → (s.calls d).taken = [] →
      (∀ i, (s.calls c).made = some i → (t.calls c).made = some i) ∧
      ∀ x, x ∈ (s.calls c).taken → x ∈ (t.calls c).taken := by
    intro t d k ht hm hn
    rw [ht, calls_setCall]
    split
    · rename_i e; rw [e, hm, hn]; simp
    · exact ⟨fun _ => id, fun _ => id⟩
  obtain ⟨d, k, hq, rfl, -⟩ | ⟨d, hd, -, rfl⟩ | ⟨d, i, hd, -, rfl⟩ | ⟨d, op, a, hd, -, -, rfl⟩ :=
    step_cases h
  · rw [proj_setCall _ hq.made, proj_setCall _ hq.taken]
    exact ⟨fun _ => id, fun _ => id⟩
  all_goals exact move rfl (by rw [hd]; rfl) (by rw [hd]; rfl)

theorem run_keeps {s s' : State} {es : List Ev} (h : Run step s es s') (c : Nat) :
    (∀ i, (s.calls c).made = some i → (s'.calls c).made = some i) ∧
    ∀ d, d ∈ (s.calls c).taken → d ∈ (s'.calls c).taken :=
  h.inv (P := fun t => (∀ i, (s.calls c).made = some i → (t.calls c).made = some i) ∧
      ∀ d, d ∈ (s.calls c).taken → d ∈ (t.calls c).taken)
    (fun _ _ _ hp hu => ⟨fun i hi => (step_keeps hu c).1 i (hp.1 i hi),
      fun d hd => (step_keeps hu c).2 d (hp.2 d hd)⟩)
    ⟨fun _ => id, fun _ => id⟩

/-- Registry conservation, for as long as at most `2 ^ 64` ids were handed
out: the laws hold in every state a run reaches, and an id that was
registered and has been removed is never registered again. -/
theorem registry_conservation {es : List Ev} {s : State} (h : Run step init es s)
    (hn : issued es ≤ 2 ^ 64) :
    Conserved s ∧
    ∀ es₁ es₂ es₃ s₁ s₂ i, es = es₁ ++ es₂ ++ es₃ → Run step init es₁ s₁ → Run step s₁ es₂ s₂ →
      i ∈ s₁.tunnels → i ∉ s₂.tunnels → i ∉ s.tunnels := by
  refine ⟨(inv_of_run h hn).conserved, ?_⟩
  rintro es₁ es₂ es₃ s₁ s₂ i rfl h₁ h₂ hin hout
  obtain ⟨t, ht, h₃⟩ := run_append.mp h
  obtain rfl := ht.det (run_append.mpr ⟨s₁, h₁, h₂⟩)
  simp only [issued_append] at hn
  have inv₁ := inv_of_run h₁ (by omega)
  have inv₂ := inv_of_run ht (by rw [issued_append]; omega)
  have inv₃ := inv_of_run h (by simp only [issued_append]; omega)
  obtain ⟨x, hx⟩ := Option.isSome_iff_exists.mp (AList.lookup_isSome.mpr hin)
  have made₂ := (run_keeps h₂ x).1 i (inv₁.reg i x hx)
  -- it is gone from the map, so a closer has it, and keeps it
  rcases inv₂.place x i made₂ with hr | ⟨k, hk⟩
  · rw [State.Registered, AList.lookup_eq_none.mpr hout] at hr; cases hr
  · rw [← AList.lookup_eq_none]
    refine Option.eq_none_iff_forall_not_mem.mpr fun y hy => ?_
    have made₃ := (run_keeps h₃ x).1 i made₂
    have : y = x := inv₃.unique y x i (Call.id?_of_made (inv₃.reg i y hy)) (Call.id?_of_made made₃)
    exact inv₃.free i x k (this ▸ hy) ((run_keeps h₃ k).2 x hk)

/-- One tunnel created, and closed by the first of two `CloseTunnel(1)`. -/
def createAndClose : List Ev :=
  [.generate 0 .createMeshTunnel, .start 0 true, .insert 0, .take 1 (.closeTunnel 1) fun _ => true,
    .take 2 (.closeTunnel 1) fun _ => true, .close 1 0 false, .ret 1]

theorem createAndClose_conserved :
    ∃ s, Run step init createAndClose s ∧ s.calls 1 = .closed (.closeTunnel 1) [0] (some true) ∧
      s.calls 2 = .closed (.closeTunnel 1) [] (some false) ∧ Conserved s :=
  ⟨_, rfl, rfl, rfl, (registry_conservation (h := (rfl : Run step init createAndClose _)) (by decide)).1⟩

/-- `n` calls that each take an id. -/
def generates (n : Nat) : List Ev := (List.range n).map fun c => .generate c .createMeshTunnel

theorem run_generates (n : Nat) :
    Run step init (generates n) ⟨idAt n, ∅, fun c => if c < n then .starting (idAt c) else .idle⟩ := by
  induction n with
  | zero => exact run_nil.mpr rfl
  | succ n ih =>
    rw [generates, List.range_succ, List.map_append]
    refine run_snoc.mpr ⟨_, ih, ?_⟩
    simp only [step, Nat.lt_irrefl, ↓reduceIte, reduceCtorEq, State.setCall, ← idAt_succ, Option.some.injEq,
      State.mk.injEq, true_and]
    funext c
    rw [Function.update_apply]
    by_cases h : c = n
    · simp [h]
    · rw [if_neg h]
      exact if_congr (by omega) rfl rfl

/-- After `2 ^ 64` ids the counter is back at the first one. -/
theorem conservation_fails_after_wrap : ¬ ∀ es s, Run step init es s → Conserved s := by
  intro h
  have hc := (h _ _ (run_generates (2 ^ 64 + 1))).idsDistinct 0 (2 ^ 64) (idAt 0) ?_ ?_
  · omega
  · simp [Call.id?]
  · show (if 2 ^ 64 < 2 ^ 64 + 1 then Call.starting (idAt (2 ^ 64)) else .idle).id? = _
    rw [if_pos (Nat.lt_succ_self _), idAt_wraps]
    rfl

end ErplTunnel.Manager

import Mathlib.Algebra.Group.Nat.Defs
import ErplTunnel.Manager.Registry

/-!
# What a step of the registry does

The ids the counter hands out (`idAt`), what a closer takes out of the map
(`mem_takeOut`), and the inversion of a step (`step_cases`): it either leaves
what the conservation laws read of every call alone (`Quiet`), or hands out
an id, inserts, or takes out.
-/

namespace ErplTunnel.Manager

/-! ## Ids -/

/-- The id the `k`-th `GenerateTunnelId` returns, counting from 0. -/
def idAt (k : Nat) : TunnelId := 1 + Int64.ofNat k

theorem idAt_succ (k : Nat) : idAt (k + 1) = idAt k + 1 := by
  simp only [idAt, Int64.ofNat_add, Int64.add_assoc]
  rfl

theorem idAt_inj {j k : Nat} (hj : j < 2 ^ 64) (hk : k < 2 ^ 64) (h : idAt j = idAt k) : j = k := by
  have hb := congrArg Int64.toBitVec h
  simp only [idAt, Int64.toBitVec_add, BitVec.add_right_inj] at hb
  have hn : j % 2 ^ 64 = k % 2 ^ 64 := by
    simpa [Int64.ofNat, Int64.toBitVec] using congrArg BitVec.toNat hb
  rwa [Nat.mod_eq_of_lt hj, Nat.mod_eq_of_lt hk] at hn

/-- The counter wraps. -/
theorem idAt_wraps : idAt (2 ^ 64) = idAt 0 := by
  decide

/-! ## What the laws read of a call -/

/-- The id a `Create*` has inserted its handle under. -/
def Call.made : Call → Option TunnelId
  | .created i => some i
  | _ => none

/-- The id a `CloseTunnel` has found: it is closing its handle, or has
returned true. -/
def Call.hit : Call → Option TunnelId
  | .closing (.closeTunnel i) _ _ => some i
  | .closed (.closeTunnel i) _ (some true) => some i
  | _ => none

theorem Call.id?_of_made {k : Call} {i : TunnelId} (h : k.made = some i) : k.id? = some i := by
  cases k <;> simp_all [made, id?]

/-- Going from `k` to `k'` changes nothing the laws read. -/
structure Quiet (k k' : Call) : Prop where
  id? : k'.id? = k.id?
  taken : k'.taken = k.taken
  made : k'.made = k.made
  hit : k'.hit = k.hit

theorem takeOut_sub {m : Tunnels} {a : Handle → Bool} {op : Closer} {i : TunnelId} {h : Handle}
    (hl : (takeOut m a op).2.lookup i = some h) : m.lookup i = some h := by
  cases op with
  | closeTunnel id =>
    simp only [takeOut] at hl
    split at hl
    · by_cases e : i = id
      · rw [e, AList.lookup_erase] at hl; cases hl
      · rwa [AList.lookup_erase_ne e] at hl
    · exact hl
  | closeAllTunnels => simp [takeOut] at hl
  | cleanupInactiveTunnels =>
    have := AList.mem_lookup_iff.mp (Option.mem_def.mpr hl)
    exact Option.mem_def.mp (AList.mem_lookup_iff.mpr (List.mem_filter.mp this).1)

theorem lookup_filter {m : Tunnels} {p : Handle → Bool} {i : TunnelId} {h : Handle}
    (hl : m.lookup i = some h) : (m.filter p).lookup i = if p h then some h else none := by
  have hm := AList.mem_lookup_iff.mp (Option.mem_def.mpr hl)
  split
  · rename_i hp
    exact Option.mem_def.mp (AList.mem_lookup_iff.mpr (List.mem_filter.mpr ⟨hm, hp⟩))
  · rename_i hp
    refine Option.eq_none_iff_forall_not_mem.mpr fun h' hf => hp ?_
    obtain ⟨hm', hp'⟩ := List.mem_filter.mp (AList.mem_lookup_iff.mp hf)
    have := hl.symm.trans (Option.mem_def.mp (AList.mem_lookup_iff.mpr hm'))
    cases this
    exact hp'

theorem mem_handles {m : Tunnels} {h : Handle} : h ∈ m.handles ↔ ∃ i, m.lookup i = some h := by
  simp only [Tunnels.handles, List.mem_map, ← Option.mem_def, AList.mem_lookup_iff]
  constructor
  · rintro ⟨⟨i, h'⟩, hm, rfl⟩; exact ⟨i, hm⟩
  · rintro ⟨i, hm⟩; exact ⟨⟨i, h⟩, hm, rfl⟩

/-- A closer takes exactly the handles whose keys it removes. -/
theorem mem_takeOut {m : Tunnels} {a : Handle → Bool} {op : Closer} {h : Handle} :
    h ∈ (takeOut m a op).1 ↔ ∃ i, m.lookup i = some h ∧ (takeOut m a op).2.lookup i = none := by
  cases op with
  | closeTunnel id =>
    simp only [takeOut]
    split
    · rename_i h' hl
      simp only [List.mem_singleton]
      constructor
      · rintro rfl; exact ⟨id, hl, AList.lookup_erase ..⟩
      · rintro ⟨i, hi, he⟩
        by_cases e : i = id
        · rw [e, hl] at hi; exact (Option.some.inj hi).symm
        · rw [AList.lookup_erase_ne e, hi] at he; cases he
    · simp only [List.not_mem_nil, false_iff, not_exists, not_and]
      intro i hi hn
      rw [hi] at hn; cases hn
  | closeAllTunnels => simp [takeOut, mem_handles]
  | cleanupInactiveTunnels =>
    simp only [takeOut, mem_handles]
    constructor
    · rintro ⟨i, hi⟩
      have hm := AList.mem_lookup_iff.mp (Option.mem_def.mpr hi)
      obtain ⟨hm, hp⟩ := List.mem_filter.mp hm
      have hl : m.lookup i = some h := Option.mem_def.mp (AList.mem_lookup_iff.mpr hm)
      exact ⟨i, hl, by rw [lookup_filter hl]; simpa using hp⟩
    · rintro ⟨i, hl, hn⟩
      rw [lookup_filter hl] at hn
      exact ⟨i, by rw [lookup_filter hl]; simpa using hn⟩

theorem takeOut_kept {m : Tunnels} {a : Handle → Bool} {op : Closer} {i : TunnelId} {h : Handle}
    (hl : m.lookup i = some h) (hn : h ∉ (takeOut m a op).1) : (takeOut m a op).2.lookup i = some h := by
  cases hr : (takeOut m a op).2.lookup i with
  | none => exact absurd (mem_takeOut.mpr ⟨i, hl, hr⟩) hn
  | some h' => rw [← hl, takeOut_sub hr]

theorem lookup_takeOut_ne {m : Tunnels} {a : Handle → Bool} {id i : TunnelId} (h : i ≠ id) :
    (takeOut m a (.closeTunnel id)).2.lookup i = m.lookup i := by
  simp only [takeOut]
  split
  · exact AList.lookup_erase_ne h
  · rfl

theorem takeOut_closeTunnel {m : Tunnels} {a : Handle → Bool} {id : TunnelId}
    (hne : (takeOut m a (.closeTunnel id)).1 ≠ []) :
    ∃ h ∈ (takeOut m a (.closeTunnel id)).1, m.lookup id = some h := by
  simp only [takeOut] at hne ⊢
  split
  · rename_i h hl; exact ⟨h, List.mem_singleton_self h, hl⟩
  · rename_i hl; simp [hl] at hne

/-! ## The steps -/

/-- What a step does: it changes one call quietly, hands out the next id,
inserts a handle under its id, or takes handles out. -/
theorem step_cases {s s' : State} {e : Ev} (h : step s e = some s') :
    (∃ c k, Quiet (s.calls c) k ∧ s' = s.setCall c k ∧ issued [e] = 0) ∨
    (∃ c, s.calls c = .idle ∧ issued [e] = 1 ∧
      s' = { s.setCall c (.starting s.nextTunnelId) with nextTunnelId := s.nextTunnelId + 1 }) ∨
    (∃ c i, s.calls c = .started i ∧ issued [e] = 0 ∧
      s' = { s.setCall c (.created i) with tunnels := s.tunnels.insert i c }) ∨
    (∃ c op a, s.calls c = .idle ∧ issued [e] = 0 ∧
      (∀ i, op = .closeTunnel i → (takeOut s.tunnels a op).1 ≠ []) ∧
      s' = { s.setCall c (.closing op (takeOut s.tunnels a op).1 (takeOut s.tunnels a op).1) with
        tunnels := (takeOut s.tunnels a op).2 }) := by
  cases e with
  | generate c k =>
    simp only [step] at h
    split at h <;> [skip; cases h]
    rename_i hc
    split at h <;> cases h
    · rename_i hk
      exact .inl ⟨c, _, by rw [hc]; exact ⟨rfl, rfl, rfl, rfl⟩, rfl, by simp [issued, hk]⟩
    · rename_i hk
      exact .inr (.inl ⟨c, hc, by simp [issued, hk], rfl⟩)
  | start c ok =>
    simp only [step] at h
    split at h <;> cases h
    rename_i id hc
    refine .inl ⟨c, _, ?_, rfl, rfl⟩
    rw [hc]
    cases ok <;> exact ⟨rfl, rfl, rfl, rfl⟩
  | insert c =>
    simp only [step] at h
    split at h <;> cases h
    rename_i id hc
    exact .inr (.inr (.inl ⟨c, id, hc, rfl, rfl⟩))
  | take c op a =>
    simp only [step] at h
    split at h <;> [skip; cases h]
    rename_i hc
    split at h <;> cases h
    · exact .inl ⟨c, _, by rw [hc]; exact ⟨rfl, rfl, rfl, rfl⟩, rfl, rfl⟩
    · rename_i hne
      exact .inr (.inr (.inr ⟨c, _, a, hc, rfl, fun i hi ht => hne i hi ht, rfl⟩))
  | close c h' throws =>
    simp only [step] at h
    split at h <;> [skip; cases h]
    rename_i op taken left hc
    split at h <;> [skip; cases h]
    split at h <;> cases h
    · rename_i hop
      refine .inl ⟨c, _, ?_, rfl, rfl⟩
      rw [hc, hop.2]; exact ⟨rfl, rfl, rfl, rfl⟩
    · refine .inl ⟨c, _, ?_, rfl, rfl⟩
      rw [hc]
      exact ⟨rfl, rfl, rfl, by cases op <;> rfl⟩
  | ret c =>
    simp only [step] at h
    split at h <;> cases h
    rename_i op taken hc
    refine .inl ⟨c, _, ?_, rfl, rfl⟩
    rw [hc]
    exact ⟨rfl, rfl, rfl, by cases op <;> rfl⟩

end ErplTunnel.Manager

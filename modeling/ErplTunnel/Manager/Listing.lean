import Mathlib.Data.List.Perm.Basic
import ErplTunnel.Manager.Registry

/-!
# Listing the tunnels

`ListTunnels` and `ListTunnelsWithDetails` against every other call of the
manager. Here `tunnels_mutex` is in the state: the insert of a `Create*` and the
take-out of a closer are made by the call that holds it, the status calls hold
it, and a listing only tries to take it, so as never to block a create or a
close. A listing that has it walks the map, in the order of the hash table,
which may be any; one that has not returns no rows.

The two listings differ in what a row shows of a tunnel (`β`: its status, or all
its attributes), which is read from the handle when the row is made.
-/

namespace ErplTunnel.Manager

variable {β : Type}

/-- Who holds `tunnels_mutex`. -/
inductive Owner where
  /-- A create or a closer. -/
  | call (c : Nat)
  /-- `GetTunnelBoundPort`, `IsTunnelActive`, `GetTunnelStatus` or `GetTunnelError`. -/
  | status (r : Nat)
  | listing (l : Nat)
  deriving DecidableEq, Repr

/-- This one waits for the mutex. -/
def Owner.waits : Owner → Bool
  | .listing _ => false
  | _ => true

/-- Where a listing stands. -/
inductive Listing (β : Type) where
  | idle
  /-- Before `try_to_lock`. -/
  | called
  /-- With the mutex, the rows so far and the tunnels to come. -/
  | reading (rows : List (TunnelId × β)) (left : List TunnelId)
  | returned (rows : List (TunnelId × β))

/-- Between the call and its return. -/
def Listing.underWay : Listing β → Bool
  | .called | .reading _ _ => true
  | _ => false

structure Sys (β : Type) where
  manager : State
  owner : Option Owner
  listings : Nat → Listing β

inductive SysEv (β : Type) where
  | lock (o : Owner)
  | unlock (o : Owner)
  /-- A step of a create or of a closer. -/
  | manager (e : Ev)
  | list (l : Nat)
  /-- `try_to_lock`, which may fail on a free mutex too. -/
  | tryLock (l : Nat) (ok : Bool)
  | row (l : Nat) (id : TunnelId) (shown : β)
  | ret (l : Nat)

/-- The call that makes this step while it holds the mutex. -/
def Ev.locked : Ev → Option Nat
  | .insert c | .take c _ _ => some c
  | _ => none

namespace Sys

def start : Sys β := ⟨init, none, fun _ => .idle⟩

def setListing (s : Sys β) (l : Nat) (k : Listing β) : Sys β := { s with listings := Function.update s.listings l k }

def step (s : Sys β) : SysEv β → Option (Sys β)
  | .lock o => if s.owner = none ∧ o.waits then some { s with owner := some o } else none
  | .unlock o => if s.owner = some o ∧ o.waits then some { s with owner := none } else none
  | .manager e =>
    if e.locked = none ∨ s.owner = e.locked.map .call then (Manager.step s.manager e).map fun m => { s with manager := m }
    else none
  | .list l =>
    match s.listings l with
    | .idle => some (s.setListing l .called)
    | _ => none
  | .tryLock l ok =>
    match s.listings l with
    | .called =>
      if ok then
        if s.owner = none then
          some { s.setListing l (.reading [] s.manager.tunnels.keys) with owner := some (.listing l) }
        else none
      else some (s.setListing l (.returned []))
    | _ => none
  | .row l id shown =>
    match s.listings l with
    | .reading rows left =>
      if id ∈ left then some (s.setListing l (.reading (rows ++ [(id, shown)]) (left.erase id))) else none
    | _ => none
  | .ret l =>
    match s.listings l with
    | .reading rows [] => some { s.setListing l (.returned rows) with owner := none }
    | _ => none

variable {s s' : Sys β} {l : Nat} {k : Listing β} {es : List (SysEv β)} {e : SysEv β}

/-- There is one row for each tunnel that is registered in a state of the run in
which the listing is under way. -/
def Snapshot (es : List (SysEv β)) (l : Nat) (rows : List (TunnelId × β)) : Prop :=
  ∃ es₁ es₂ t, es = es₁ ++ es₂ ∧ Lts.Run step start es₁ t ∧ (t.listings l).underWay = true ∧
    (rows.map Prod.fst).Perm t.manager.tunnels.keys

theorem Snapshot.snoc {rows : List (TunnelId × β)} (h : Snapshot es l rows) : Snapshot (es ++ [e]) l rows := by
  obtain ⟨es₁, es₂, t, rfl, ht⟩ := h
  exact ⟨es₁, es₂ ++ [e], t, by simp, ht⟩

/-- What is known of listing `l` after `es`. -/
def Told (es : List (SysEv β)) (s : Sys β) (l : Nat) : Listing β → Prop
  | .idle | .called => True
  | .reading rows left =>
    s.owner = some (.listing l) ∧ (rows.map Prod.fst ++ left).Perm s.manager.tunnels.keys
  | .returned rows => Snapshot es l rows ∨ rows = [] ∧ SysEv.tryLock l false ∈ es

/-- A step that leaves the map alone while listing `l` reads it. -/
theorem Told.frame (h : Told es s l k)
    (hf : s.owner = some (.listing l) → s'.owner = s.owner ∧ s'.manager.tunnels = s.manager.tunnels) :
    Told (es ++ [e]) s' l k := by
  cases k with
  | idle | called => exact trivial
  | reading rows left =>
    obtain ⟨ho, hp⟩ := h
    obtain ⟨ho', hm⟩ := hf ho
    exact ⟨ho'.trans ho, hm ▸ hp⟩
  | returned rows =>
    rcases h with h | ⟨rfl, h⟩
    · exact .inl h.snoc
    · exact .inr ⟨rfl, List.mem_append_left _ h⟩

/-- Without the mutex a step of the manager changes nothing in the map. -/
theorem tunnels_of_unlocked {m m' : State} {e : Ev} (h : Manager.step m e = some m') (hl : e.locked = none) :
    m'.tunnels = m.tunnels := by
  cases e with
  | insert c | take c op a => cases hl
  | generate c k =>
    simp only [Manager.step] at h
    split at h
    case h_2 => cases h
    case h_1 => split at h <;> cases h <;> rfl
  | start c ok | ret c =>
    simp only [Manager.step] at h
    split at h <;> cases h
    rfl
  | close c x throws =>
    simp only [Manager.step] at h
    split at h
    case h_2 => cases h
    case h_1 =>
    split at h
    case isFalse => cases h
    case isTrue => split at h <;> cases h <;> rfl

theorem manager_of_step {s t : Sys β} {m : Ev} (h : s.step (.manager m) = some t) :
    Manager.step s.manager m = some t.manager := by
  simp only [step] at h
  split at h
  case isFalse => cases h
  case isTrue =>
  obtain ⟨m', hm, rfl⟩ := Option.map_eq_some_iff.mp h
  exact hm

/-- Of the manager, a step of the system is a step of the manager or nothing. -/
theorem step_manager {s t : Sys β} {e : SysEv β} (h : s.step e = some t) :
    t.manager = s.manager ∨ ∃ m, e = .manager m ∧ Manager.step s.manager m = some t.manager := by
  cases e with
  | manager m => exact .inr ⟨m, rfl, manager_of_step h⟩
  | lock o | unlock o =>
    simp only [step] at h
    split at h <;> cases h
    exact .inl rfl
  | list l | ret l =>
    simp only [step] at h
    split at h <;> cases h
    exact .inl rfl
  | tryLock l ok =>
    simp only [step] at h
    split at h
    case h_2 => cases h
    case h_1 =>
    split at h
    case isTrue =>
      split at h <;> cases h
      exact .inl rfl
    case isFalse =>
      cases h
      exact .inl rfl
  | row l id shown =>
    simp only [step] at h
    split at h
    case h_2 => cases h
    case h_1 =>
      split at h <;> cases h
      exact .inl rfl

/-- One listing moves on, and the others do not read the map or it stays as it is. -/
theorem told_update {es' : List (SysEv β)} (hl : s'.listings = Function.update s.listings l k) (hk : Told es' s' l k)
    (ho : ∀ l', l' ≠ l → Told es' s' l' (s.listings l')) (l' : Nat) : Told es' s' l' (s'.listings l') := by
  rw [hl]
  by_cases hll : l' = l
  · subst hll
    rw [Function.update_self]
    exact hk
  · rw [Function.update_of_ne hll]
    exact ho l' hll

theorem told_step (hr : Lts.Run step start es s) (h : ∀ l, Told es s l (s.listings l)) (hs : s.step e = some s') :
    ∀ l, Told (es ++ [e]) s' l (s'.listings l) := by
  cases e with
  | lock o =>
    simp only [step] at hs
    split at hs
    case isFalse => cases hs
    case isTrue ho =>
    cases hs
    exact fun l => (h l).frame fun hl => absurd (ho.1.symm.trans hl) (by simp)
  | unlock o =>
    simp only [step] at hs
    split at hs
    case isFalse => cases hs
    case isTrue ho =>
    cases hs
    refine fun l => (h l).frame fun hl => ?_
    obtain rfl : o = .listing l := Option.some.inj (ho.1.symm.trans hl)
    exact absurd ho.2 Bool.false_ne_true
  | manager me =>
    simp only [step] at hs
    split at hs
    case isFalse => cases hs
    case isTrue ho =>
    obtain ⟨m, hm, rfl⟩ := Option.map_eq_some_iff.mp hs
    refine fun l => (h l).frame fun hl => ⟨rfl, tunnels_of_unlocked hm ?_⟩
    -- the mutex is with the listing, so the step is one that needs none
    rcases ho with ho | ho
    · exact ho
    · rw [hl] at ho
      cases hc : me.locked with
      | none => rfl
      | some c =>
        rw [hc] at ho
        cases ho
  | list l =>
    simp only [step] at hs
    split at hs <;> cases hs
    exact told_update rfl trivial fun l' _ => (h l').frame fun _ => ⟨rfl, rfl⟩
  | tryLock l ok =>
    simp only [step] at hs
    split at hs
    case h_2 => cases hs
    case h_1 =>
    split at hs
    case isTrue =>
      split at hs
      case isFalse => cases hs
      case isTrue ho =>
      cases hs
      refine told_update rfl ⟨rfl, .refl _⟩ fun l' _ => (h l').frame fun hl => ?_
      exact absurd (ho.symm.trans hl) (by simp)
    case isFalse hok =>
      cases hs
      obtain rfl : ok = false := by simpa using hok
      refine told_update rfl (.inr ⟨rfl, ?_⟩) fun l' _ => (h l').frame fun _ => ⟨rfl, rfl⟩
      exact List.mem_append_right _ (List.mem_singleton.mpr rfl)
  | row l id shown =>
    simp only [step] at hs
    split at hs
    case h_2 => cases hs
    case h_1 rows left hk =>
    split at hs
    case isFalse => cases hs
    case isTrue hid =>
    cases hs
    have hl := h l
    rw [hk] at hl
    refine told_update rfl ⟨hl.1, ?_⟩ fun l' _ => (h l').frame fun _ => ⟨rfl, rfl⟩
    have hperm : (rows.map Prod.fst ++ id :: left.erase id).Perm s.manager.tunnels.keys :=
      ((List.perm_cons_erase hid).symm.append_left _).trans hl.2
    simpa [setListing] using hperm
  | ret l =>
    simp only [step] at hs
    split at hs
    case h_2 => cases hs
    case h_1 rows hk =>
    cases hs
    have hl := h l
    rw [hk] at hl
    refine told_update rfl (.inl ⟨es, [.ret l], s, rfl, hr, by rw [hk]; rfl, ?_⟩) fun l' hll => ?_
    · simpa using hl.2
    · refine (h l').frame fun hl' => ?_
      exact absurd (Owner.listing.inj (Option.some.inj (hl.1.symm.trans hl'))).symm hll

theorem told_of_run (h : Lts.Run step start es s) : ∀ l, Told es s l (s.listings l) :=
  h.history (P := fun es s => ∀ l, Told es s l (s.listings l)) (fun l => show Told [] start l .idle from trivial)
    fun _ _ _ _ hr ht hs => told_step hr ht hs

end Sys

/-! ## `tunnels()` -/

/-- `TunnelsBindData`, with the rows that `ListTunnelsBind` has listed. -/
structure TunnelsBindData (β : Type) where
  tunnels : List (TunnelId × β)
  currentRow : Nat

namespace TunnelsBindData

def hasMoreResults (d : TunnelsBindData β) : Bool := d.currentRow < d.tunnels.length

/-- `FetchNextResult`: one row, and the cursor behind it. -/
def fetchNextResult (d : TunnelsBindData β) : Option (TunnelId × β) × TunnelsBindData β :=
  match d.tunnels[d.currentRow]? with
  | some row => (some row, { d with currentRow := d.currentRow + 1 })
  | none => (none, d)

/-- `ListTunnelsFunction`, called until a chunk is empty, at most `n` times. -/
def scan (n : Nat) (d : TunnelsBindData β) : List (TunnelId × β) :=
  match n with
  | 0 => []
  | n + 1 =>
    if d.hasMoreResults then
      match d.fetchNextResult with
      | (some row, d') => row :: d'.scan n
      | (none, _) => []
    else []

theorem scan_eq_drop (n : Nat) (d : TunnelsBindData β) (h : d.tunnels.length ≤ d.currentRow + n) :
    d.scan n = d.tunnels.drop d.currentRow := by
  induction n generalizing d with
  | zero => rw [scan, List.drop_eq_nil_of_le (by omega)]
  | succ n ih =>
    rw [scan]
    by_cases hlt : d.currentRow < d.tunnels.length
    · have hrow : d.tunnels[d.currentRow]? = some d.tunnels[d.currentRow] := List.getElem?_eq_getElem hlt
      simp only [hasMoreResults, decide_eq_true hlt, fetchNextResult, hrow]
      rw [ih _ (by simp only; omega), List.drop_eq_getElem_cons hlt]
      rfl
    · have hnil : d.tunnels.drop d.currentRow = [] := List.drop_eq_nil_of_le (by omega)
      simp [hasMoreResults, hlt, hnil]

end TunnelsBindData

namespace Sys

/-- In every run, a listing that has returned has one row for each tunnel that was
registered at some moment between its call and its return, or it has no rows
because it did not get the mutex; and `tunnels()` shows these rows. -/
theorem listing_snapshot_or_busy (es : List (SysEv β)) (s : Sys β) (h : Lts.Run step start es s) (l : Nat)
    (rows : List (TunnelId × β)) (hl : s.listings l = .returned rows) :
    (Snapshot es l rows ∨ rows = [] ∧ SysEv.tryLock l false ∈ es) ∧
      ∀ n, rows.length ≤ n → TunnelsBindData.scan n ⟨rows, 0⟩ = rows := by
  have ht := told_of_run h l
  rw [hl] at ht
  refine ⟨ht, fun n hn => ?_⟩
  exact TunnelsBindData.scan_eq_drop n ⟨rows, 0⟩ (by simpa using hn)

/-- One tunnel is created. -/
def oneTunnel : List (SysEv String) :=
  [.manager (.generate 0 .createMeshTunnel), .manager (.start 0 true), .lock (.call 0), .manager (.insert 0),
    .unlock (.call 0)]

/-- It is listed while another is being created. -/
def listedAlone : List (SysEv String) :=
  oneTunnel ++ [.list 0, .manager (.generate 1 .createMeshTunnel), .tryLock 0 true, .manager (.start 1 true),
    .row 0 1 "Listening on 127.0.0.1:8080", .ret 0, .lock (.call 1), .manager (.insert 1), .unlock (.call 1)]

theorem listedAlone_snapshot :
    ∃ s : Sys String, Lts.Run step start listedAlone s ∧
      s.listings 0 = .returned [(1, "Listening on 127.0.0.1:8080")] ∧
      Snapshot listedAlone 0 [(1, "Listening on 127.0.0.1:8080")] := by
  have hrun : ∃ s : Sys String, Lts.Run step start listedAlone s ∧
      s.listings 0 = .returned [(1, "Listening on 127.0.0.1:8080")] := ⟨_, rfl, rfl⟩
  obtain ⟨s, hs, hl⟩ := hrun
  obtain ⟨hsnap | hempty, -⟩ := listing_snapshot_or_busy listedAlone s hs 0 _ hl
  · exact ⟨s, hs, hl, hsnap⟩
  · cases hempty.1

/-- The same tunnel is listed while a status call holds the mutex. -/
def listedBusy : List (SysEv String) :=
  oneTunnel ++ [.lock (.status 0), .list 0, .tryLock 0 false, .unlock (.status 0)]

/-- The listing is not under way in this state, or a tunnel is registered. -/
def shows (s : Option (Sys String)) : Bool :=
  s.all fun t => !(t.listings 0).underWay || !t.manager.tunnels.keys.isEmpty

theorem busy_listing_empty :
    ¬ ∀ (es : List (SysEv String)) (s : Sys String), Lts.Run step start es s → ∀ l rows,
      s.listings l = .returned rows → Snapshot es l rows := by
  intro hall
  have hrun : ∃ s : Sys String, Lts.Run step start listedBusy s ∧ s.listings 0 = .returned [] := ⟨_, rfl, rfl⟩
  obtain ⟨s, hs, hl⟩ := hrun
  obtain ⟨es₁, es₂, t, he, ht, hu, hp⟩ := hall listedBusy s hs 0 [] hl
  have hshows : ∀ n < 10, shows ((listedBusy.take n).foldlM step start) = true := by decide
  have hlen : es₁.length < 10 := by
    have h := congrArg List.length he
    have h9 : listedBusy.length = 9 := rfl
    rw [List.length_append, h9] at h
    omega
  have htake : listedBusy.take es₁.length = es₁ := by rw [he, List.take_left]
  have hat := hshows es₁.length hlen
  rw [htake, show es₁.foldlM step start = some t from ht] at hat
  simp [shows, hu, List.nil_perm.mp hp] at hat

end Sys

end ErplTunnel.Manager

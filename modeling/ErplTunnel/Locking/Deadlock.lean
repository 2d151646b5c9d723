import ErplTunnel.Locking.Discipline

/-!
# No deadlock

Any number of DuckDB's threads create, list and close tunnels of every kind
while accept loops, pumps and goroutines run. A thread that cannot go on waits,
through the threads that hold what is waited for, for one that can
(`no_deadlock`). The rules that the comments of the sources state follow from
the same order: nothing but an object's own workers is joined under a mutex
(`joins_held`), the manager's mutex is not held across anything but a handle's
(`tunnels_held`), and whoever holds any other but a backend's can go on
(`leaf_canStep`).
-/

namespace ErplTunnel.Locking

open Threads (CanStep System)

/-- A state that the process can be in, with any number of threads of DuckDB's. -/
def Reachable (shim : Shim) (σ : System Mutex Kind) : Prop :=
  ∃ n is, Lts.Run (Threads.step (body shim)) (Threads.initial (body shim) (List.replicate n .query)) is σ

variable {shim : Shim} {σ : System Mutex Kind} {t u : Nat}

/-- The state after these moves: so many of a thread, each with the same choice. -/
def after (n : Nat) (moves : List (Nat × Nat × Nat)) : System Mutex Kind :=
  ((moves.flatMap fun (k, i) => List.replicate k i).foldlM (Threads.step (body .ts))
    (Threads.initial (body .ts) (List.replicate n .query))).getD []

theorem reachable_after {n : Nat} {moves : List (Nat × Nat × Nat)} (h : after n moves ≠ []) :
    Reachable .ts (after n moves) := by
  refine ⟨n, moves.flatMap fun (k, i) => List.replicate k i, ?_⟩
  revert h
  unfold after Lts.Run
  cases List.foldlM (Threads.step (body .ts)) _ _ with
  | none => exact fun h => absurd rfl h
  | some σ => exact fun _ => rfl

theorem Reachable.may {r r' : Res} (h : Reachable shim σ) (hr : r ∈ σ.held t) (hw : σ.Waits t r' u) : May r r' := by
  obtain ⟨n, is, h⟩ := h
  exact Threads.may_of_waits (bodies_obey shim) h hr hw

/-- In every state, every thread that has not ended can take a step, or waits
for what another thread holds, which can or waits in turn, and so on to one that
can. -/
theorem no_deadlock (h : Reachable shim σ) (ht : σ.Unfinished t) :
    ∃ u, Relation.ReflTransGen σ.WaitsFor t u ∧ CanStep (body shim) σ u := by
  obtain ⟨n, is, h⟩ := h
  exact Threads.exists_canStep (bodies_obey shim) wellFounded_may h ht

/-- One thread lists the tunnels and has come to one that another is closing. -/
def listing : System Mutex Kind :=
  after 2 [(1, 1, 1), (1, 1, 0), (2, 1, 1), (8, 1, 0), (2, 1, 1), (7, 1, 0), (1, 0, 1), (1, 0, 0), (12, 0, 1),
    (2, 0, 0), (3, 0, 1), (2, 0, 0)]

theorem reachable_listing : Reachable .ts listing := reachable_after (by decide +kernel)

theorem no_deadlock_listing : ∃ u, Relation.ReflTransGen listing.WaitsFor 0 u ∧ CanStep (body .ts) listing u :=
  no_deadlock reachable_listing ⟨_, rfl, nofun⟩

/-- A thread that waits for the end of another holds no mutex, unless it closes
a tunnel and waits for that tunnel's workers under the mutex of their list. -/
theorem joins_held {k : Kind} {m : Mutex} (h : Reachable shim σ) (hm : .mutex m ∈ σ.held t)
    (hw : σ.Waits t (.thread k) u) :
    ∃ o, m = .meshForwarder o ∧ k = .meshPump o ∨ m = .forwardThreads o ∧ k = .forward o := by
  have hmay : May (.mutex m) (.thread k) := h.may hm hw
  cases hmay with
  | meshPumps o => exact ⟨o, .inl ⟨rfl, rfl⟩⟩
  | forwards o => exact ⟨o, .inr ⟨rfl, rfl⟩⟩

/-- `TunnelConnection::Close` waits for a forwarder. -/
def closing : System Mutex Kind :=
  after 1 [(1, 0, 1), (6, 0, 0), (1, 0, 1), (22, 0, 0), (5, 1, 0), (1, 1, 1), (10, 1, 0), (17, 0, 0), (1, 0, 1),
    (1, 0, 0), (2, 0, 1), (17, 0, 0), (2, 0, 1), (1, 0, 2)]

set_option maxRecDepth 4000 in
theorem joins_held_closing :
    ∃ o, Mutex.forwardThreads 0 = .meshForwarder o ∧ Kind.forward 0 = .meshPump o ∨
      Mutex.forwardThreads 0 = .forwardThreads o ∧ Kind.forward 0 = .forward o :=
  joins_held (σ := closing) (t := 0) (u := 2) (reachable_after (by decide +kernel)) (by decide +kernel)
    (.join rfl (by decide +kernel))

/-- A thread that holds the manager's mutex waits for nothing but the mutex
around a handle's attributes. -/
theorem tunnels_held {r : Res} (h : Reachable shim σ) (hm : .mutex .tunnels ∈ σ.held t) (hw : σ.Waits t r u) :
    ∃ m : Mutex, r = .mutex m ∧ m.ofHandle := by
  have hmay : May (.mutex .tunnels) r := h.may hm hw
  cases hmay with
  | attributes hm => exact ⟨_, rfl, hm⟩

theorem tunnels_held_listing : ∃ m : Mutex, Threads.Res.mutex (κ := Kind) (.meshExporter 0) = .mutex m ∧ m.ofHandle :=
  tunnels_held (t := 0) (u := 1) reachable_listing (by decide +kernel) (.lock rfl (by decide +kernel))

/-- A mutex under which no other is taken and nothing is joined. -/
def Mutex.isLeaf : Mutex → Bool
  | .tunnels | .meshForwarder _ | .forwardThreads _ | .meshBackend _ | .sshOnce => false
  | _ => true

/-- A thread that holds such a mutex can take a step. -/
theorem leaf_canStep {m : Mutex} (h : Reachable shim σ) (hm : .mutex m ∈ σ.held t) (hl : m.isLeaf) :
    CanStep (body shim) σ t := by
  obtain ⟨th, ht, hth⟩ := Threads.mem_held.mp hm
  have hstep : CanStep (body shim) σ t ∨ ∃ r u, σ.Waits t r u :=
    Threads.canStep_or_waits ht (Threads.Thread.stack_ne_nil hth)
  rcases hstep with hc | ⟨r, u, hw⟩
  · exact hc
  · have hmay : May (.mutex m) r := h.may hm hw
    cases hmay <;> simp [Mutex.isLeaf] at hl

theorem leaf_canStep_listing : CanStep (body .ts) listing 1 :=
  leaf_canStep (m := .meshExporter 0) reachable_listing (by decide +kernel) rfl

end ErplTunnel.Locking

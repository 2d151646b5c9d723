import Mathlib.Data.List.Perm.Subperm
import ErplTunnel.Lifecycle.JoinBeforeFree
import ErplTunnel.Lifecycle.MeshTeardown
import ErplTunnel.Lifecycle.ExportTeardown

/-!
# The workers that a tunnel tracks

Each of the three accept loops puts the thread of a connection into a list that
`Close` joins. `SshExporter` takes the threads that have finished out of it
before it adds one (`SshExporter.registered`); the comment in `WorkerFunction`
says so of `forward_threads_`, but that list and `workers_` of a `MeshForwarder`
only grow. So after a connection has been registered the list has no more than
the live connections and the new one, in an import when nothing tracked had
finished (`workers_reaped_iff`).
-/

namespace ErplTunnel.Lifecycle

open Relay Pump Pool

/-- Worker `i` has been registered, and of the others only those are tracked that
were live when its connection was accepted. -/
structure Reaped (live tracked : List Nat) (i : Nat) : Prop where
  only : ∀ j ∈ tracked, j = i ∨ j ∈ live
  size : tracked.length ≤ live.length + 1

theorem reaped_of_only {live tracked : List Nat} {i : Nat} (hn : tracked.Nodup)
    (h : ∀ j ∈ tracked, j = i ∨ j ∈ live) : Reaped live tracked i where
  only := h
  size := (List.subperm_of_subset hn fun j hj => List.mem_cons.mpr (h j hj)).length_le

/-- Where nothing is taken out of the list, everything in it has to be live. -/
theorem reaped_append_iff {σ : Type*} {xs : List (Slot σ)} {ids live : List Nat} (h : Enlisted xs ids) :
    Reaped live (ids ++ [xs.length]) xs.length ↔ ∀ j ∈ ids, j ∈ live := by
  have hlt : ∀ j ∈ ids, j ≠ xs.length := fun j hj => Nat.ne_of_lt (h.2 j hj).lt
  constructor
  · intro hr j hj
    exact (hr.only j (List.mem_append_left _ hj)).resolve_left (hlt j hj)
  · intro hl
    refine reaped_of_only ?_ fun j hj => ?_
    · refine List.nodup_append.mpr ⟨h.1, by simp, fun a ha b hb => ?_⟩
      rw [List.mem_singleton.mp hb]
      exact hlt a ha
    · rcases List.mem_append.mp hj with hj | hj
      · exact .inr (hl j hj)
      · exact .inl (List.mem_singleton.mp hj)

namespace TunnelConnection

open Pump.ForwardData (Pc)

variable {s s' t : State}

/-- The forwarders that have not returned. -/
def State.live (s : State) : List Nat := living (fun p => p.pc != .done) s.clients

/-- `WorkerFunction` accepts. -/
def In.Accepts : In → Prop
  | .worker (.accept _) => True
  | _ => False

theorem WorkerStep.enlisted {e : WorkerEv} (h : WorkerStep s e s') (he : Enlisted s.clients s.forwardThreads) :
    Enlisted s'.clients s'.forwardThreads := by
  cases h with
  | stop hw | noChannel hw => exact he.refuse
  | spawn hw => exact he.spawn
  | _ => exact he

theorem Step.enlisted {x : In} (h : Step s x s') (he : Enlisted s.clients s.forwardThreads) :
    Enlisted s'.clients s'.forwardThreads := by
  cases h with
  | worker h => exact h.enlisted he
  | forwarder hc | joinForwarder hm hc => exact he.set hc
  | clear hm => exact .nil
  | _ => exact he

theorem enlisted_run {xs : List In} (h : Lts.Run State.step start xs s) : Enlisted s.clients s.forwardThreads :=
  h.inv (P := fun s => Enlisted s.clients s.forwardThreads) (fun _ _ _ he hs => (step_cases hs).enlisted he) .nil

/-- The worker has a client that it has not handed over. -/
def Worker.hasNew : Worker → Bool
  | .check | .channel | .spawn => true
  | _ => false

theorem Worker.not_hasNew_of_listening {w : Worker} (h : w.listening = true) : ¬w.hasNew = true := by
  cases w <;> simp [Worker.hasNew, Worker.listening] at h ⊢

/-- Between the accept and the registration the list stays as it is. -/
def Waits (ids : List Nat) (n : Nat) (s : State) : Prop :=
  Inv s ∧ (s.worker.hasNew = true → s.forwardThreads = ids ∧ s.clients.length = n)

theorem Waits.keep {ids : List Nat} {n : Nat} (h : Waits ids n s) (hi : Inv s') (hw : s'.worker = s.worker)
    (hf : s'.forwardThreads = s.forwardThreads) (hc : s'.clients.length = s.clients.length) : Waits ids n s' := by
  refine ⟨hi, fun hn => ?_⟩
  rw [hf, hc]
  exact h.2 (hw ▸ hn)

theorem Waits.step {ids : List Nat} {n : Nat} {x : In} (h : Waits ids n s) (hx : ¬x.Accepts) (hs : Step s x s') :
    Waits ids n s' := by
  have hi := h.1.step hs
  cases hs with
  | worker hs =>
    refine ⟨hi, fun hn => ?_⟩
    cases hs with
    | accept hw => exact absurd trivial hx
    | check hw | channel hw => exact h.2 (by rw [hw]; rfl)
    | listening hw hw' | test hw hw' => exact absurd hn (Worker.not_hasNew_of_listening hw')
    | _ => cases hn
  | forwarder hc => exact h.keep hi rfl rfl (List.length_set ..)
  | joinForwarder hm hc => exact h.keep hi rfl rfl (List.length_set ..)
  | startWorker hm => exact ⟨hi, nofun⟩
  | joinWorker hm hw => exact ⟨hi, nofun⟩
  | clear hm =>
    -- the worker has been joined before the list is cleared
    have hp := h.1.phase
    rw [State.Phase, hm] at hp
    refine ⟨hi, fun hn => ?_⟩
    have hw : s.worker.hasNew = true := hn
    rcases hp.1 with hu | hu <;> rw [hu] at hw <;> cases hw
  | _ => exact h.keep hi rfl rfl rfl

theorem workerStep_spawn {buffer : Buffer Byte bufferSize} (h : s.step (.worker (.spawn buffer)) = some t) :
    s.worker = .spawn ∧ t.forwardThreads = s.forwardThreads ++ [s.clients.length] := by
  have hw : s.workerStep (.spawn buffer) = some t := h
  cases hs : s.worker <;> simp only [State.workerStep, hs, reduceCtorEq] at hw
  cases hw
  exact ⟨rfl, rfl⟩

theorem workerStep_accept (h : s.step (.worker (.accept .client)) = some t) :
    t.forwardThreads = s.forwardThreads ∧ t.clients = s.clients := by
  have hw : s.workerStep (.accept .client) = some t := h
  cases hs : s.worker <;> simp only [State.workerStep, hs, reduceCtorEq] at hw
  cases hw
  exact ⟨rfl, rfl⟩

/-- What a registration does to the list. -/
theorem registered {xs : List In} {buffer : Buffer Byte bufferSize} (h : Lts.Run State.step start xs s)
    (hs : Lts.Span State.step In.Accepts (.worker (.accept .client)) (.worker (.spawn buffer)) s t) :
    t.forwardThreads = s.forwardThreads ++ [s.clients.length] := by
  have hfirst : ∀ s₁, s.step (.worker (.accept .client)) = some s₁ → Waits s.forwardThreads s.clients.length s₁ := by
    intro s₁ ha
    obtain ⟨hf, hc⟩ := workerStep_accept ha
    exact ⟨(inv_run h).step (step_cases ha), fun _ => ⟨hf, by rw [hc]⟩⟩
  obtain ⟨s₂, hw, hb⟩ := hs.inv hfirst fun _ _ _ hx hp hs => hp.step hx (step_cases hs)
  obtain ⟨hsp, ht⟩ := workerStep_spawn hb
  obtain ⟨hf, hl⟩ := hw.2 (by rw [hsp]; rfl)
  rw [ht, hf, hl]

end TunnelConnection

namespace MeshForwarder

open Pump.MeshForwarder (Pc)

variable {s s' t : State}

/-- The workers that have not returned. -/
def State.live (s : State) : List Nat := living (fun p => p.pc != .done) s.clients

/-- `AcceptLoop` accepts. -/
def In.Accepts : In → Prop
  | .accept (.accept _) => True
  | _ => False

theorem AcceptStep.enlisted {e : AcceptEv} (h : AcceptStep s e s') (he : Enlisted s.clients s.workers) :
    Enlisted s'.clients s'.workers := by
  cases h with
  | stop | noDial => exact he.refuse
  | spawn => exact he.spawn
  | _ => exact he

theorem Step.enlisted {x : In} (h : Step s x s') (he : Enlisted s.clients s.workers) :
    Enlisted s'.clients s'.workers := by
  cases h with
  | accept h => exact h.enlisted he
  | pump hc | joinWorker hm hc => exact he.set hc
  | clear hm => exact .nil
  | _ => exact he

theorem enlisted_run {xs : List In} (h : Lts.Run State.step start xs s) : Enlisted s.clients s.workers :=
  h.inv (P := fun s => Enlisted s.clients s.workers) (fun _ _ _ he hs => (step_cases hs).enlisted he) .nil

/-- Between the accept and the registration the list stays as it is. -/
def Waits (ids : List Nat) (n : Nat) (s : State) : Prop :=
  Inv s ∧ (s.accept.hasClient = true → s.workers = ids ∧ s.clients.length = n)

theorem Waits.keep {ids : List Nat} {n : Nat} (h : Waits ids n s) (hi : Inv s') (ha : s'.accept = s.accept)
    (hw : s'.workers = s.workers) (hc : s'.clients.length = s.clients.length) : Waits ids n s' := by
  refine ⟨hi, fun hn => ?_⟩
  rw [hw, hc]
  exact h.2 (ha ▸ hn)

theorem Waits.step {ids : List Nat} {n : Nat} {x : In} (h : Waits ids n s) (hx : ¬x.Accepts) (hs : Step s x s') :
    Waits ids n s' := by
  have hi := h.1.step hs
  cases hs with
  | accept hs =>
    refine ⟨hi, fun hn => ?_⟩
    cases hs with
    | client ha => exact absurd trivial hx
    | check ha | dial ha => exact h.2 (by rw [ha]; rfl)
    | @select ready ha => cases ready <;> cases hn
    | _ => cases hn
  | pump hc => exact h.keep hi rfl rfl (List.length_set ..)
  | joinWorker hm hc => exact h.keep hi rfl rfl (List.length_set ..)
  | listen hm => exact ⟨hi, nofun⟩
  | joinAccept hm ha => exact ⟨hi, nofun⟩
  | clear hm =>
    -- the accept loop has been joined before the list is cleared
    have hp := h.1.phase
    rw [State.Phase, hm] at hp
    refine ⟨hi, fun hn => ?_⟩
    have ha : s.accept.hasClient = true := hn
    rcases hp.1 with hu | hu <;> rw [hu] at ha <;> cases ha
  | _ => exact h.keep hi rfl rfl rfl

theorem acceptStep_spawn {buf : Buffer Byte bufferSize} (h : s.step (.accept (.spawn buf)) = some t) :
    s.accept = .spawn ∧ t.workers = s.workers ++ [s.clients.length] := by
  have ha : s.acceptStep (.spawn buf) = some t := h
  cases hs : s.accept <;> simp only [State.acceptStep, hs, reduceCtorEq] at ha
  cases ha
  exact ⟨rfl, rfl⟩

theorem acceptStep_accept (h : s.step (.accept (.accept true)) = some t) :
    t.workers = s.workers ∧ t.clients = s.clients := by
  have ha : s.acceptStep (.accept true) = some t := h
  cases hs : s.accept <;> simp only [State.acceptStep, hs, reduceCtorEq] at ha
  cases ha
  exact ⟨rfl, rfl⟩

/-- What a registration does to the list. -/
theorem registered {xs : List In} {buf : Buffer Byte bufferSize} (h : Lts.Run State.step start xs s)
    (hs : Lts.Span State.step In.Accepts (.accept (.accept true)) (.accept (.spawn buf)) s t) :
    t.workers = s.workers ++ [s.clients.length] := by
  have hfirst : ∀ s₁, s.step (.accept (.accept true)) = some s₁ → Waits s.workers s.clients.length s₁ := by
    intro s₁ ha
    obtain ⟨hw, hc⟩ := acceptStep_accept ha
    exact ⟨(inv_run h).step (step_cases ha), fun _ => ⟨hw, by rw [hc]⟩⟩
  obtain ⟨s₂, hw, hb⟩ := hs.inv hfirst fun _ _ _ hx hp hs => hp.step hx (step_cases hs)
  obtain ⟨hsp, ht⟩ := acceptStep_spawn hb
  obtain ⟨hf, hl⟩ := hw.2 (by rw [hsp]; rfl)
  rw [ht, hf, hl]

end MeshForwarder

namespace SshExporter

variable {s s' t : State}

/-- The worker has not set its flag. -/
def Worker.running : Worker → Bool
  | .pumping _ _ => true
  | .finished => false

/-- The workers that have not set their flag. -/
def State.live (s : State) : List Nat := living Worker.running s.served

/-- `AcceptLoop` asks for a channel. -/
def In.Accepts : In → Prop
  | .accept (.accept _) => True
  | _ => False

/-- The worker that has been started and is not in the list. -/
def Accept.pushes : Accept → List Nat
  | .push i => [i]
  | _ => []

theorem JoinStep.served {i : Nat} (h : JoinStep s i s') :
    s'.served.length = s.served.length ∧ s'.workers = s.workers ∧ s'.accept = s.accept ∧
      (∀ ids, Enlisted s.served ids → Enlisted s'.served ids) ∧ ∀ j, s'.isDone j = s.isDone j := by
  cases h with
  | notJoinable hc => exact ⟨rfl, rfl, rfl, fun _ he => he, fun _ => rfl⟩
  | joined hc =>
    refine ⟨List.length_set .., rfl, rfl, fun _ he => he.set hc, fun j => ?_⟩
    by_cases hj : j = i
    · subst hj
      simp [State.isDone, hc, List.getElem?_set_self (List.getElem?_eq_some_iff.mp hc).1]
    · simp [State.isDone, List.getElem?_set_ne (Ne.symm hj)]

/-- The list and the worker on its way into it name workers, each once. -/
def Named (s : State) : Prop := Enlisted s.served (s.workers ++ s.accept.pushes)

theorem AcceptStep.named {e : AcceptEv} (h : AcceptStep s e s') (hn : Named s) : Named s' := by
  have hlist : Enlisted s.served s.workers := hn.sublist (List.sublist_append_left ..)
  have plain : ∀ a : Accept, a.pushes = [] → Enlisted s.served (s.workers ++ a.pushes) := by
    intro a ha
    rw [ha, List.append_nil]
    exact hlist
  cases h with
  | enter ha => exact plain _ rfl
  | leave ha => exact plain _ rfl
  | select ha => exact plain _ rfl
  | recheck ha => exact plain _ rfl
  | @accept r ha hl => exact plain _ (by cases r <;> rfl)
  | noListener ha hl => exact plain _ rfl
  | reap ha =>
    show Enlisted s.served (s.workers.filter _ ++ [])
    rw [List.append_nil]
    exact hlist.sublist List.filter_sublist
  | @join i finished s₁ ha hj =>
    obtain ⟨-, hw, -, he, -⟩ := hj.served
    show Enlisted s₁.served (s₁.workers ++ [])
    rw [hw, List.append_nil]
    exact he _ hlist
  | reaped ha => exact plain _ rfl
  | spawn ha => exact hlist.spawn
  | @push i ha =>
    rw [Named, ha] at hn
    show Enlisted s.served (s.workers ++ [i] ++ [])
    rwa [List.append_nil]
  | drop ha => exact plain _ rfl

theorem Step.named {x : In} (h : Step s x s') (hn : Named s) : Named s' := by
  have hlist : Enlisted s.served s.workers := hn.sublist (List.sublist_append_left ..)
  cases h with
  | accept h => exact h.named hn
  | dial hc | pump hc | finish hc => exact Enlisted.set hn hc
  | bound hm | joinAccept hm ha => rw [← List.append_nil s.workers] at hlist; exact hlist
  | swap hm => exact hn.sublist (List.sublist_append_right ..)
  | joinWorker hm hj =>
    obtain ⟨-, hw, ha, he, -⟩ := hj.served
    show Enlisted _ (State.workers _ ++ Accept.pushes (State.accept _))
    rw [hw, ha]
    exact he _ hn
  | _ => exact hn

theorem named_run {xs : List In} (h : Lts.Run State.step start xs s) : Named s :=
  h.inv (P := Named) (fun _ _ _ hn hs => (step_cases hs).named hn) .nil

theorem Named.live {j : Nat} (h : Named s) (hj : j ∈ s.workers) (hd : ¬s.isDone j = true) : j ∈ s.live := by
  obtain ⟨slot, hslot, his⟩ := h.2 j (List.mem_append_left _ hj)
  refine mem_living.mpr ⟨slot, hslot, ?_⟩
  match slot with
  | .thread (.pumping _ _) _ => rfl
  | .thread .finished _ => exact absurd (by simp [State.isDone, hslot]) hd

/-- A worker that pumps has not set its flag. -/
theorem isDone_set {i j : Nat} {p : St Pump.SshExporter.Pc} {sock : Option Nat} {joinable : Bool}
    {slot : Slot Worker} (hc : s.served[i]? = some (.thread (.pumping p sock) joinable))
    (hs : s'.served = s.served.set i slot) (hd : s.isDone j = true) : s'.isDone j = true := by
  have hji : j ≠ i := by
    rintro rfl
    simp [State.isDone, hc] at hd
  rw [State.isDone, hs, List.getElem?_set_ne (Ne.symm hji)]
  exact hd

/-- A flag stays set. -/
theorem Step.isDone {x : In} {j : Nat} (h : Step s x s') (hd : s.isDone j = true) : s'.isDone j = true := by
  cases h with
  | accept h =>
    cases h with
    | join ha hj =>
      obtain ⟨-, -, -, -, hdone⟩ := hj.served
      exact (hdone j).trans hd
    | spawn ha =>
      have hlt : j < s.served.length := by
        by_contra hge
        simp [State.isDone, List.getElem?_eq_none (Nat.le_of_not_lt hge)] at hd
      rw [State.isDone]
      simp only [List.getElem?_append_left hlt]
      exact hd
    | _ => exact hd
  | joinWorker hm hj =>
    obtain ⟨-, -, -, -, hdone⟩ := hj.served
    exact (hdone j).trans hd
  | dial hc | pump hc | finish hc => exact isDone_set hc rfl hd
  | _ => exact hd

/-- A connection has been accepted in `s₀`: until its worker is registered the
list only shrinks, and after the sweep it has only workers that were live. -/
structure Sweeps (s₀ s : State) : Prop where
  named : Named s
  done : ∀ j, s₀.isDone j = true → s.isDone j = true
  listed : match s.accept with
    | .reap => s.served.length = s₀.served.length ∧ s.workers ⊆ s₀.workers
    | .join _ | .spawn => s.served.length = s₀.served.length ∧ s.workers ⊆ s₀.live
    | .push i => i = s₀.served.length ∧ s.workers ⊆ s₀.live
    | _ => True

variable {s₀ : State}

theorem Sweeps.keep (h : Sweeps s₀ s) (hn : Named s') (hd : ∀ j, s.isDone j = true → s'.isDone j = true)
    (ha : s'.accept = s.accept) (hw : s'.workers ⊆ s.workers) (hl : s'.served.length = s.served.length) :
    Sweeps s₀ s' := by
  refine ⟨hn, fun j hj => hd j (h.done j hj), ?_⟩
  have hlisted := h.listed
  rw [ha]
  split
  · rename_i hr; rw [hr] at hlisted; exact ⟨hl.trans hlisted.1, List.Subset.trans hw hlisted.2⟩
  · rename_i hr; rw [hr] at hlisted; exact ⟨hl.trans hlisted.1, List.Subset.trans hw hlisted.2⟩
  · rename_i hr; rw [hr] at hlisted; exact ⟨hl.trans hlisted.1, List.Subset.trans hw hlisted.2⟩
  · rename_i hr; rw [hr] at hlisted; exact ⟨hlisted.1, List.Subset.trans hw hlisted.2⟩
  · trivial

theorem Sweeps.acceptStep {e : AcceptEv} (h₀ : Named s₀) (h : Sweeps s₀ s) (hx : ¬In.Accepts (.accept e))
    (hs : AcceptStep s e s') (hn : Named s') (hd : ∀ j, s.isDone j = true → s'.isDone j = true) : Sweeps s₀ s' := by
  refine ⟨hn, fun j hj => hd j (h.done j hj), ?_⟩
  have hlisted := h.listed
  cases hs with
  | enter ha | leave ha | select ha | recheck ha | noListener ha hl | push ha | drop ha => trivial
  | accept ha hl => exact absurd trivial hx
  | reap ha =>
    rw [ha] at hlisted
    refine ⟨hlisted.1, fun j hj => ?_⟩
    obtain ⟨hj, hdone⟩ := List.mem_filter.mp hj
    refine h₀.live (hlisted.2 hj) fun hj₀ => ?_
    rw [h.done j hj₀] at hdone
    cases hdone
  | join ha hj =>
    obtain ⟨hl, hw, -⟩ := hj.served
    rw [ha] at hlisted
    exact ⟨hl.trans hlisted.1, hw ▸ hlisted.2⟩
  | reaped ha => rw [ha] at hlisted; exact hlisted
  | spawn ha => rw [ha] at hlisted; exact hlisted

theorem Sweeps.step {x : In} (h₀ : Named s₀) (h : Sweeps s₀ s) (hx : ¬x.Accepts) (hs : Step s x s') :
    Sweeps s₀ s' := by
  have hn := hs.named h.named
  have hd : ∀ j, s.isDone j = true → s'.isDone j = true := fun j => hs.isDone
  cases hs with
  | accept hs => exact h.acceptStep h₀ hx hs hn hd
  | dial hc | pump hc | finish hc => exact h.keep hn hd rfl (List.Subset.refl _) (List.length_set ..)
  | bound hm | joinAccept hm ha => exact ⟨hn, h.done, trivial⟩
  | swap hm => exact h.keep hn hd rfl (List.nil_subset _) rfl
  | joinWorker hm hj =>
    obtain ⟨hl, hw, ha, -⟩ := hj.served
    exact h.keep hn hd ha (by rw [← hw]; exact List.Subset.refl _) hl
  | _ => exact h.keep hn hd rfl (List.Subset.refl _) rfl

theorem acceptStep_push (h : s.step (.accept .push) = some t) :
    ∃ i, s.accept = .push i ∧ t.workers = s.workers ++ [i] := by
  have ha : s.acceptStep .push = some t := h
  cases hs : s.accept <;> simp only [State.acceptStep, hs, reduceCtorEq] at ha
  cases ha
  exact ⟨_, rfl, rfl⟩

theorem acceptStep_accept (h : s.step (.accept (.accept .channel)) = some t) :
    t.workers = s.workers ∧ t.served = s.served ∧ (t.accept = .reap ∨ t.accept = .done) := by
  have ha : s.acceptStep (.accept .channel) = some t := h
  cases hs : s.accept <;> simp only [State.acceptStep, hs, reduceCtorEq] at ha
  cases ha
  split
  · exact ⟨rfl, rfl, .inl rfl⟩
  · exact ⟨rfl, rfl, .inr rfl⟩

/-- After a registration the list is swept. -/
theorem registered {xs : List In} (h : Lts.Run State.step start xs s)
    (hs : Lts.Span State.step In.Accepts (.accept (.accept .channel)) (.accept .push) s t) :
    Reaped s.live t.workers s.served.length := by
  have h₀ := named_run h
  have hfirst : ∀ s₁, s.step (.accept (.accept .channel)) = some s₁ → Sweeps s s₁ := by
    intro s₁ ha
    obtain ⟨hw, hserved, hacc⟩ := acceptStep_accept ha
    refine ⟨(step_cases ha).named h₀, fun j hj => (step_cases ha).isDone hj, ?_⟩
    rcases hacc with hacc | hacc <;> rw [hacc]
    · exact ⟨by rw [hserved], by rw [hw]; exact List.Subset.refl _⟩
    · trivial
  obtain ⟨s₂, hw, hb⟩ := hs.inv hfirst fun _ _ _ hx hp hs => hp.step h₀ hx (step_cases hs)
  obtain ⟨i, hi, ht⟩ := acceptStep_push hb
  have hlisted := hw.listed
  rw [hi] at hlisted
  obtain ⟨rfl, hlive⟩ := hlisted
  have hnamed : Enlisted s₂.served (s₂.workers ++ [s.served.length]) := by
    have := hw.named
    rwa [Named, hi] at this
  rw [ht]
  refine reaped_of_only hnamed.1 fun j hj => ?_
  rcases List.mem_append.mp hj with hj | hj
  · exact .inr (hlive hj)
  · exact .inl (List.mem_singleton.mp hj)

end SshExporter

/-- A connection that is accepted in `s` has been registered in `t`. In an export
the list has been swept then; in the two kinds of imports it has only live
workers besides the new one when every worker in it was live in `s`. -/
theorem workers_reaped_iff (buffer : Buffer Byte bufferSize) :
    (∀ (xs : List SshExporter.In) (s t : SshExporter.State), Lts.Run SshExporter.State.step SshExporter.start xs s →
      Lts.Span SshExporter.State.step SshExporter.In.Accepts (.accept (.accept .channel)) (.accept .push) s t →
      Reaped s.live t.workers s.served.length) ∧
    (∀ (xs : List TunnelConnection.In) (s t : TunnelConnection.State),
      Lts.Run TunnelConnection.State.step TunnelConnection.start xs s →
      Lts.Span TunnelConnection.State.step TunnelConnection.In.Accepts (.worker (.accept .client))
        (.worker (.spawn buffer)) s t →
      (Reaped s.live t.forwardThreads s.clients.length ↔ ∀ i ∈ s.forwardThreads, i ∈ s.live)) ∧
    (∀ (xs : List MeshForwarder.In) (s t : MeshForwarder.State),
      Lts.Run MeshForwarder.State.step MeshForwarder.start xs s →
      Lts.Span MeshForwarder.State.step MeshForwarder.In.Accepts (.accept (.accept true)) (.accept (.spawn buffer)) s t →
      (Reaped s.live t.workers s.clients.length ↔ ∀ i ∈ s.workers, i ∈ s.live)) := by
  refine ⟨fun xs s t h hs => SshExporter.registered h hs, fun xs s t h hs => ?_, fun xs s t h hs => ?_⟩
  · rw [TunnelConnection.registered h hs]
    exact reaped_append_iff (TunnelConnection.enlisted_run h)
  · rw [MeshForwarder.registered h hs]
    exact reaped_append_iff (MeshForwarder.enlisted_run h)

/-- An import with a client that is being served, up to the next `accept`. -/
def servingOne : List TunnelConnection.In :=
  [.connect true, .resolve 1, .socket true, .connected true, .sessionInit true, .handshake true,
    .authenticate true true, .startWorker, .worker (.answer true), .worker (.answer true), .worker (.answer true),
    .worker .test, .worker (.select (.ready true false)), .worker (.accept .client), .worker .test,
    .worker (.answer true), .worker (.spawn (.const 0)), .worker .test, .worker (.select (.ready true false))]

/-- Its client leaves before that. -/
def servedOne : List TunnelConnection.In :=
  servingOne ++ [.forwarder 0 .test, .forwarder 0 (.select (.ready true false)), .forwarder 0 (.read .up (.data [])),
    .forwarder 0 .call, .forwarder 0 .call]

theorem servingOne_reaped :
    ∃ s t, Lts.Run TunnelConnection.State.step TunnelConnection.start servingOne s ∧
      Lts.Span TunnelConnection.State.step TunnelConnection.In.Accepts (.worker (.accept .client))
        (.worker (.spawn (.const 0))) s t ∧ t.forwardThreads = [0, 1] ∧ Reaped s.live t.forwardThreads 1 := by
  have hrun : ∃ s t, Lts.Run TunnelConnection.State.step TunnelConnection.start servingOne s ∧
      Lts.Span TunnelConnection.State.step TunnelConnection.In.Accepts (.worker (.accept .client))
        (.worker (.spawn (.const 0))) s t ∧ t.forwardThreads = [0, 1] ∧ s.clients.length = 1 ∧
      s.forwardThreads = [0] ∧ s.live = [0] :=
    ⟨_, _, rfl, ⟨[.worker .test, .worker (.answer true)], _, _, rfl, by simp [TunnelConnection.In.Accepts], rfl, rfl⟩,
      rfl, rfl, rfl, rfl⟩
  obtain ⟨s, t, hs, hspan, ht, hn, hf, hl⟩ := hrun
  refine ⟨s, t, hs, hspan, ht, ?_⟩
  have h := ((workers_reaped_iff _).2.1 servingOne s t hs hspan).mpr (by rw [hf, hl]; exact fun _ hi => hi)
  rwa [hn] at h

/-- The worker of the client that has left is tracked yet. -/
theorem finished_worker_tracked :
    ∃ s t, Lts.Run TunnelConnection.State.step TunnelConnection.start servedOne s ∧
      Lts.Span TunnelConnection.State.step TunnelConnection.In.Accepts (.worker (.accept .client))
        (.worker (.spawn (.const 0))) s t ∧ t.forwardThreads = [0, 1] ∧ s.live = [] ∧
      ¬Reaped s.live t.forwardThreads s.clients.length := by
  have hrun : ∃ s t, Lts.Run TunnelConnection.State.step TunnelConnection.start servedOne s ∧
      Lts.Span TunnelConnection.State.step TunnelConnection.In.Accepts (.worker (.accept .client))
        (.worker (.spawn (.const 0))) s t ∧ t.forwardThreads = [0, 1] ∧ s.live = [] :=
    ⟨_, _, rfl, ⟨[.worker .test, .worker (.answer true)], _, _, rfl, by simp [TunnelConnection.In.Accepts], rfl, rfl⟩,
      rfl, rfl⟩
  obtain ⟨s, t, hs, hspan, ht, hl⟩ := hrun
  refine ⟨s, t, hs, hspan, ht, hl, fun hr => ?_⟩
  have hsize := hr.size
  rw [ht, hl] at hsize
  exact absurd hsize (by decide)

end ErplTunnel.Lifecycle

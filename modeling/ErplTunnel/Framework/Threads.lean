import Mathlib.Logic.Relation
import Mathlib.Data.List.Basic
import Mathlib.Tactic.Common
import ErplTunnel.Framework.Run

/-!
# Threads, mutexes and joins

The code of a thread, as far as threads can hold each other up (`Code`): the
mutexes it takes, each for a block, the threads it starts and those it joins,
and the control flow around them, where `return` and `throw` leave blocks early
and release what these hold. Which way the data sends it is left open, so the
runs of a system of threads include those of the program.

A thread waits for a resource: a mutex that is held, or the end of a thread,
which that thread holds until it ends. A discipline `may h r` says that the
resource `r` may be waited for while `h` is held. Code that keeps to it
(`Code.Obeys`, read off the text) gives a system that keeps to it in every run
(`Lts.Run.may_of_waits`), and if no chain of resources goes down the discipline
forever, a thread that cannot go on waits for one that can
(`Lts.Run.exists_canStep`).
-/

namespace Threads

variable {μ κ : Type}

/-- What takes control out of a block before its end. -/
inductive Exit where
  | ret
  | throw
  deriving DecidableEq, Repr

/-- Code over the mutexes `μ` and the kinds of threads `κ`. -/
inductive Code (μ κ : Type) where
  | skip
  | leave (e : Exit)
  | seq (p q : Code μ κ)
  | alt (p q : Code μ κ)
  /-- One of these. -/
  | pick (f : Nat → Code μ κ)
  /-- `p` any number of times. -/
  | loop (p : Code μ κ)
  /-- `p` under a lock guard. -/
  | locked (m : μ) (p : Code μ κ)
  /-- `p` under a lock guard if the mutex could be taken at once, or else `q`. -/
  | tryLocked (m : μ) (p q : Code μ κ)
  /-- `p`, and `q` if it throws. -/
  | attempt (p q : Code μ κ)
  /-- The body of a function, which `return` leaves. -/
  | call (p : Code μ κ)
  | start (k : κ)
  /-- Waits for the end of a thread of this kind, if there is one to wait for. -/
  | join (k : κ)

/-- One after another. -/
def Code.all : List (Code μ κ) → Code μ κ := List.foldr .seq .skip

/-- One of these, or none. -/
def Code.oneOf : List (Code μ κ) → Code μ κ := List.foldr .alt .skip

/-- What is on a thread's stack. -/
inductive Frame (μ κ : Type) where
  | run (p : Code μ κ)
  /-- A lock guard. -/
  | guard (m : μ)
  | handler (q : Code μ κ)
  /-- The end of a function. -/
  | ret
  /-- Waiting for the end of thread `t`, of kind `k`. -/
  | await (k : κ) (t : Nat)

/-- A thread ends when its stack is empty. -/
structure Thread (μ κ : Type) where
  kind : κ
  stack : List (Frame μ κ)

/-- What the frame makes of an exit that comes to it. -/
def Frame.exit (e : Exit) : Frame μ κ → Code μ κ
  | .handler q => if e = .throw then q else .leave e
  | .ret => if e = .ret then .skip else .leave e
  | .run _ | .guard _ | .await _ _ => .leave e

/-- What a thread can be waiting for. -/
inductive Res (μ κ : Type) where
  | mutex (m : μ)
  | thread (k : κ)
  deriving DecidableEq, Repr

def Frame.held : Frame μ κ → Option (Res μ κ)
  | .guard m => some (.mutex m)
  | .run _ | .handler _ | .ret | .await _ _ => none

/-- What a thread of kind `k` with this stack holds: its mutexes, and its own
end. -/
def heldBy (k : κ) (K : List (Frame μ κ)) : List (Res μ κ) := K.filterMap Frame.held ++ [.thread k]

def Thread.held (th : Thread μ κ) : List (Res μ κ) := heldBy th.kind th.stack

/-- A thread that holds more than its own end has not ended. -/
theorem Thread.stack_ne_nil {th : Thread μ κ} {m : μ} (h : .mutex m ∈ th.held) : th.stack ≠ [] := by
  intro he
  simp [Thread.held, heldBy, he] at h

/-- With the resources of `H` held, `r` may be waited for. -/
def Allows (may : Res μ κ → Res μ κ → Prop) (H : List (Res μ κ)) (r : Res μ κ) : Prop := ∀ h ∈ H, may h r

@[simp] theorem allows_nil {may : Res μ κ → Res μ κ → Prop} {r : Res μ κ} : Allows may [] r := by simp [Allows]

@[simp] theorem allows_cons {may : Res μ κ → Res μ κ → Prop} {h r : Res μ κ} {H : List (Res μ κ)} :
    Allows may (h :: H) r ↔ may h r ∧ Allows may H r := by simp [Allows]

/-- With the resources of `H` held, the code waits only for what may be waited
for with all that is held then. -/
def Code.Obeys (may : Res μ κ → Res μ κ → Prop) (H : List (Res μ κ)) : Code μ κ → Prop
  | .skip | .leave _ | .start _ => True
  | .seq p q | .alt p q | .attempt p q => p.Obeys may H ∧ q.Obeys may H
  | .pick f => ∀ n, (f n).Obeys may H
  | .loop p | .call p => p.Obeys may H
  | .locked m p => Allows may H (.mutex m) ∧ p.Obeys may (.mutex m :: H)
  | .tryLocked m p q => p.Obeys may (.mutex m :: H) ∧ q.Obeys may H
  | .join k => Allows may H (.thread k)

def Frame.Obeys (may : Res μ κ → Res μ κ → Prop) (H : List (Res μ κ)) : Frame μ κ → Prop
  | .run p | .handler p => p.Obeys may H
  | .guard _ | .ret => True
  | .await k _ => Allows may H (.thread k)

/-- Every frame obeys with what the frames under it hold. -/
def StackObeys (may : Res μ κ → Res μ κ → Prop) (k : κ) : List (Frame μ κ) → Prop
  | [] => True
  | f :: K => f.Obeys may (heldBy k K) ∧ StackObeys may k K

variable {may : Res μ κ → Res μ κ → Prop}

theorem Code.Obeys.oneOf {H : List (Res μ κ)} {ps : List (Code μ κ)} (h : ∀ p ∈ ps, p.Obeys may H) :
    (Code.oneOf ps).Obeys may H := by
  induction ps with
  | nil => trivial
  | cons p ps ih =>
    exact ⟨h p (List.mem_cons_self ..), ih fun q hq => h q (List.mem_cons_of_mem _ hq)⟩

/-- A frame that is left passes on code that obeys under it. -/
theorem Frame.Obeys.exit {H : List (Res μ κ)} {f : Frame μ κ} (h : f.Obeys may H) (e : Exit) :
    (f.exit e).Obeys may H := by
  cases f <;> simp only [Frame.exit]
  case handler q => split; exacts [h, trivial]
  case ret => split <;> trivial
  all_goals trivial

/-- The threads of a process, those that have ended among them. -/
abbrev System (μ κ : Type) := List (Thread μ κ)

/-- Thread `t` has not ended. -/
def System.Unfinished (σ : System μ κ) (t : Nat) : Prop := ∃ th, σ[t]? = some th ∧ th.stack ≠ []

/-- What thread `t` holds. -/
def System.held (σ : System μ κ) (t : Nat) : List (Res μ κ) := (σ[t]?.map Thread.held).getD []

/-- What thread `t` goes on with. -/
def System.top (σ : System μ κ) (t : Nat) : Option (Frame μ κ) := σ[t]?.bind fun th => th.stack.head?

theorem mem_held {σ : System μ κ} {t : Nat} {r : Res μ κ} : r ∈ σ.held t ↔ ∃ th, σ[t]? = some th ∧ r ∈ th.held := by
  cases h : σ[t]? <;> simp [System.held, h]

theorem top_eq_some {σ : System μ κ} {t : Nat} {f : Frame μ κ} :
    σ.top t = some f ↔ ∃ th K, σ[t]? = some th ∧ th.stack = f :: K := by
  simp [System.top, Option.bind_eq_some_iff, List.head?_eq_some_iff]

variable [DecidableEq μ] [DecidableEq κ]

/-- No thread holds `m`. -/
def System.free (σ : System μ κ) (m : μ) : Bool := σ.all fun th => decide (.mutex m ∉ th.held)

/-- Thread `t` is one of kind `k` that has not ended. -/
def System.alive (σ : System μ κ) (k : κ) (t : Nat) : Bool :=
  match σ[t]? with
  | some th => th.kind = k ∧ !th.stack.isEmpty
  | none => false

/-- A step of a thread with the stack `K`: its next stack, and the thread it
starts, if any. The number `c` stands for what the data decides. -/
def System.advance (σ : System μ κ) (c : Nat) : List (Frame μ κ) → Option (List (Frame μ κ) × Option κ)
  | [] => none
  | .run p :: K =>
    match p with
    | .skip => some (K, none)
    | .leave e =>
      match K with
      | [] => some ([], none)
      | f :: K => some (.run (f.exit e) :: K, none)
    | .seq p q => some (.run p :: .run q :: K, none)
    | .alt p q => some (.run (if c = 0 then p else q) :: K, none)
    | .pick f => some (.run (f c) :: K, none)
    | .loop p => some (if c = 0 then K else .run p :: .run (.loop p) :: K, none)
    | .locked m p => if σ.free m then some (.run p :: .guard m :: K, none) else none
    | .tryLocked m p q => some (if σ.free m ∧ c = 0 then .run p :: .guard m :: K else .run q :: K, none)
    | .attempt p q => some (.run p :: .handler q :: K, none)
    | .call p => some (.run p :: .ret :: K, none)
    | .start k => some (K, some k)
    | .join k => some (if σ.alive k c then .await k c :: K else K, none)
  | .guard _ :: K | .handler _ :: K | .ret :: K => some (K, none)
  | .await k t :: K => if σ.alive k t then none else some (K, none)

/-- A thread of kind `k`, at its start. -/
def fresh (body : κ → Code μ κ) (k : κ) : Thread μ κ := ⟨k, [.run (body k)]⟩

/-- Thread `t` takes a step, where each kind of thread runs its body. -/
def step (body : κ → Code μ κ) (σ : System μ κ) (i : Nat × Nat) : Option (System μ κ) := do
  let th ← σ[i.1]?
  let (K, started) ← σ.advance i.2 th.stack
  return σ.set i.1 { th with stack := K } ++ (started.map (fresh body)).toList

/-- Thread `t` can take a step. -/
def CanStep (body : κ → Code μ κ) (σ : System μ κ) (t : Nat) : Prop := ∃ c σ', step body σ (t, c) = some σ'

/-- Thread `t` waits for `r`, which thread `u` holds. -/
inductive System.Waits (σ : System μ κ) (t : Nat) : Res μ κ → Nat → Prop
  | lock {m : μ} {p : Code μ κ} {u : Nat} (ht : σ.top t = some (.run (.locked m p))) (hu : .mutex m ∈ σ.held u) :
    Waits σ t (.mutex m) u
  | join {k : κ} {u : Nat} (ht : σ.top t = some (.await k u)) (hu : σ.alive k u) : Waits σ t (.thread k) u

/-- Thread `t` waits for something that thread `u` holds. -/
def System.WaitsFor (σ : System μ κ) (t u : Nat) : Prop := ∃ r, σ.Waits t r u

def System.Obeys (may : Res μ κ → Res μ κ → Prop) (σ : System μ κ) : Prop :=
  ∀ th ∈ σ, StackObeys may th.kind th.stack

/-- Each kind of thread obeys, holding its own end. -/
def BodiesObey (may : Res μ κ → Res μ κ → Prop) (body : κ → Code μ κ) : Prop :=
  ∀ k, (body k).Obeys may [.thread k]

variable {body : κ → Code μ κ} {σ σ' : System μ κ} {k : κ} {K : List (Frame μ κ)}

/-- A step keeps a stack that obeys. -/
theorem StackObeys.advance {c : Nat} {K' : List (Frame μ κ)} {started : Option κ} (hK : StackObeys may k K)
    (h : σ.advance c K = some (K', started)) : StackObeys may k K' := by
  cases K with
  | nil => cases h
  | cons f K =>
    obtain ⟨hf, hK⟩ := hK
    cases f with
    | guard m | handler q | ret => cases h; exact hK
    | await k' t =>
      simp only [System.advance] at h
      split at h
      · cases h
      · cases h; exact hK
    | run p =>
      cases p with
      | skip | start k' => cases h; exact hK
      | leave e =>
        cases K with
        | nil => cases h; trivial
        | cons g K => cases h; exact ⟨hK.1.exit e, hK.2⟩
      | seq p q => cases h; exact ⟨hf.1, hf.2, hK⟩
      | alt p q =>
        cases h
        refine ⟨?_, hK⟩
        show (if c = 0 then p else q).Obeys may _
        split; exacts [hf.1, hf.2]
      | pick g => cases h; exact ⟨hf c, hK⟩
      | loop p =>
        cases h
        split; exacts [hK, ⟨hf, hf, hK⟩]
      | locked m p =>
        simp only [System.advance] at h
        split at h
        · cases h; exact ⟨hf.2, trivial, hK⟩
        · cases h
      | tryLocked m p q =>
        cases h
        split; exacts [⟨hf.1, trivial, hK⟩, ⟨hf.2, hK⟩]
      | attempt p q => cases h; exact ⟨hf.1, hf.2, hK⟩
      | call p => cases h; exact ⟨hf, trivial, hK⟩
      | join k' =>
        cases h
        split; exacts [⟨hf, hK⟩, hK]

theorem step_cases {i : Nat × Nat} (h : step body σ i = some σ') :
    ∃ th K started, σ[i.1]? = some th ∧ σ.advance i.2 th.stack = some (K, started) ∧
      σ' = σ.set i.1 { th with stack := K } ++ (started.map (fresh body)).toList := by
  simp only [step, Option.bind_eq_bind, Option.bind_eq_some_iff, Prod.exists] at h
  obtain ⟨th, ht, K, started, hK, he⟩ := h
  exact ⟨th, K, started, ht, hK, (Option.some.inj he).symm⟩

theorem System.Obeys.step (hb : BodiesObey may body) (hσ : σ.Obeys may) {i : Nat × Nat}
    (h : Threads.step body σ i = some σ') : σ'.Obeys may := by
  obtain ⟨th, K, started, ht, hK, rfl⟩ := step_cases h
  intro th' hm
  rcases List.mem_append.mp hm with hm | hm
  · rcases List.mem_or_eq_of_mem_set hm with hm | rfl
    · exact hσ th' hm
    · exact (hσ th (List.mem_of_getElem? ht)).advance hK
  · obtain ⟨k', -, rfl⟩ := Option.map_eq_some_iff.mp (Option.mem_toList.mp hm)
    exact ⟨hb k', trivial⟩

/-- A process whose threads are at their start. -/
def initial (body : κ → Code μ κ) (ks : List κ) : System μ κ := ks.map (fresh body)

section Runs

variable (hb : BodiesObey may body) {ks : List κ} {is : List (Nat × Nat)}
include hb

theorem obeys_of_run (h : Lts.Run (step body) (initial body ks) is σ) : σ.Obeys may := by
  refine h.inv (P := System.Obeys may) (fun σ i σ' hσ hi => hσ.step hb hi) fun th hm => ?_
  obtain ⟨k, -, rfl⟩ := List.mem_map.mp hm
  exact ⟨hb k, trivial⟩

/-- Whatever a thread waits for in a run, it may wait for with each thing it
holds. -/
theorem may_of_waits (h : Lts.Run (step body) (initial body ks) is σ) {t u : Nat} {r r' : Res μ κ}
    (hr : r ∈ σ.held t) (hw : σ.Waits t r' u) : may r r' := by
  obtain ⟨th, ht, hr⟩ := mem_held.mp hr
  have hob : StackObeys may th.kind th.stack := obeys_of_run hb h th (List.mem_of_getElem? ht)
  cases hw with
  | lock htop =>
    obtain ⟨th', K, ht', hs⟩ := top_eq_some.mp htop
    obtain rfl := Option.some.inj (ht.symm.trans ht')
    rw [hs] at hob
    refine hob.1.1 r ?_
    simpa [Thread.held, heldBy, hs, Frame.held] using hr
  | join htop =>
    obtain ⟨th', K, ht', hs⟩ := top_eq_some.mp htop
    obtain rfl := Option.some.inj (ht.symm.trans ht')
    rw [hs] at hob
    refine hob.1 r ?_
    simpa [Thread.held, heldBy, hs, Frame.held] using hr

end Runs

/-- A mutex that is not free is held by a thread. -/
theorem exists_holder {m : μ} (h : ¬σ.free m) : ∃ u, .mutex m ∈ σ.held u := by
  obtain ⟨thu, hu, hm⟩ : ∃ thu ∈ σ, .mutex m ∈ thu.held := by simpa [System.free] using h
  obtain ⟨u, hu⟩ := List.mem_iff_getElem?.mp hu
  exact ⟨u, mem_held.mpr ⟨thu, hu, hm⟩⟩

theorem canStep_of_advance {t c : Nat} {th : Thread μ κ} (ht : σ[t]? = some th)
    (h : (σ.advance c th.stack).isSome) : CanStep body σ t := by
  obtain ⟨⟨K, started⟩, hK⟩ := Option.isSome_iff_exists.mp h
  exact ⟨c, σ.set t { th with stack := K } ++ (started.map (fresh body)).toList, by simp [step, ht, hK]⟩

/-- A thread that has not ended can step, or waits for a thread. -/
theorem canStep_or_waits {t : Nat} {th : Thread μ κ} (ht : σ[t]? = some th) (hne : th.stack ≠ []) :
    CanStep body σ t ∨ ∃ r u, σ.Waits t r u := by
  match hs : th.stack with
  | [] => exact absurd hs hne
  | .guard _ :: K | .handler _ :: K | .ret :: K =>
    exact .inl (canStep_of_advance (c := 0) ht (by rw [hs]; rfl))
  | .await k u :: K =>
    by_cases hu : σ.alive k u
    · exact .inr ⟨.thread k, u, .join (top_eq_some.mpr ⟨th, K, ht, hs⟩) hu⟩
    · exact .inl (canStep_of_advance (c := 0) ht (by simp [hs, System.advance, hu]))
  | .run p :: K =>
    cases p with
    | locked m p =>
      by_cases hm : σ.free m
      · exact .inl (canStep_of_advance (c := 0) ht (by simp [hs, System.advance, hm]))
      · obtain ⟨u, hu⟩ := exists_holder hm
        exact .inr ⟨.mutex m, u, .lock (top_eq_some.mpr ⟨th, K, ht, hs⟩) hu⟩
    | leave e => cases K <;> exact .inl (canStep_of_advance (c := 0) ht (by rw [hs]; rfl))
    | skip | seq | alt | pick | loop | tryLocked | attempt | call | start | join =>
      exact .inl (canStep_of_advance (c := 0) ht (by rw [hs]; rfl))

omit [DecidableEq μ] in
/-- What is waited for is held by a thread that has not ended. -/
theorem System.Waits.held {t u : Nat} {r : Res μ κ} (h : σ.Waits t r u) :
    ∃ thu, σ[u]? = some thu ∧ r ∈ thu.held ∧ thu.stack ≠ [] := by
  cases h with
  | lock ht hu =>
    obtain ⟨thu, hu, hm⟩ := mem_held.mp hu
    exact ⟨thu, hu, hm, Thread.stack_ne_nil hm⟩
  | join ht hu =>
    rename_i k
    simp only [System.alive] at hu
    split at hu
    · rename_i thu hthu
      obtain ⟨rfl, hne⟩ : thu.kind = k ∧ thu.stack ≠ [] := by simpa using hu
      exact ⟨thu, hthu, by simp [Thread.held, heldBy], hne⟩
    · cases hu

/-- No deadlock: where the discipline has no endless descent, every thread that
has not ended can step, or waits, through other threads, for one that can. -/
theorem exists_canStep (hb : BodiesObey may body) (hwf : WellFounded fun r h => may h r) {ks : List κ}
    {is : List (Nat × Nat)} (h : Lts.Run (step body) (initial body ks) is σ) {t : Nat} (ht : σ.Unfinished t) :
    ∃ u, Relation.ReflTransGen σ.WaitsFor t u ∧ CanStep body σ u := by
  have hholds : ∀ (r : Res μ κ) t th, σ[t]? = some th → th.stack ≠ [] → r ∈ th.held →
      ∃ u, Relation.ReflTransGen σ.WaitsFor t u ∧ CanStep body σ u := by
    intro r
    induction r using hwf.induction with
    | _ r ih =>
      intro t th ht hne hr
      have hstep : CanStep body σ t ∨ ∃ r u, σ.Waits t r u := canStep_or_waits ht hne
      rcases hstep with hc | ⟨r', u, hw⟩
      · exact ⟨t, .refl, hc⟩
      · obtain ⟨thu, hu, hru, hneu⟩ := hw.held
        obtain ⟨v, huv, hv⟩ := ih r' (may_of_waits hb h (mem_held.mpr ⟨th, ht, hr⟩) hw) u thu hu hneu hru
        exact ⟨v, .head ⟨r', hw⟩ huv, hv⟩
  obtain ⟨th, ht, hne⟩ := ht
  exact hholds (.thread th.kind) t th ht hne (by simp [Thread.held, heldBy])

end Threads

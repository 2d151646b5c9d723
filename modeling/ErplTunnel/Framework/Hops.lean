import ErplTunnel.Framework.Relay
import ErplTunnel.Framework.Run

/-!
# Relays one behind the other

A `Hop` is a machine that relays a stream in each direction. `flow` is what it
has read from a direction's source and what its sink has taken; its inputs say
when a source has come to its end (`ends`), and its state when a sink takes no
more (`shut`).

`seq` joins two hops by a pipe in each direction. A pipe gives back what was put
in, in that order, in whatever pieces and as late as it likes, and its end only
when the writer is through with it and everything has been read; nothing keeps a
reader from failing before. The steps of the two hops come in any order.

A hop is `Lawful` if what it hands on is always a prefix of what it has read, and
all of it once it has come to the end. `Member.Kept.lawful`: one relay of a
machine with many is, given what a step keeps. `Lawful.seq`: so are two lawful
hops joined, and with them any chain.
-/

namespace Relay

open Lts

variable {α : Type}

/-- A relay of two streams. -/
structure Hop (α : Type) where
  State : Type
  In : Type
  init : State
  step : State → In → Option State
  flow : State → Dir → Transit α
  /-- The source of the direction has come to its end. -/
  ends : Dir → In → Bool
  /-- The sink of the direction takes no more. -/
  shut : State → Dir → Bool
  /-- The inputs have brought every relay inside to the end of its source. -/
  clean : Dir → List In → Prop := fun d is => ∃ i ∈ is, ends d i = true

namespace Hop

/-- An input of the list brings the source of the direction to its end. -/
def Ended (h : Hop α) (d : Dir) (is : List h.In) : Prop := ∃ i ∈ is, h.ends d i = true

structure Lawful (h : Hop α) : Prop where
  empty : ∀ d, h.flow h.init d = .empty
  faithful : ∀ is s, Run h.step h.init is s → ∀ d, (h.flow s d).put <+: (h.flow s d).got
  complete : ∀ is s, Run h.step h.init is s → ∀ d, h.clean d is → (h.flow s d).put = (h.flow s d).got
  ends_of_clean : ∀ d is, h.clean d is → h.Ended d is
  grows : ∀ is s i t, Run h.step h.init is s → h.step s i = some t → ∀ d,
    (h.flow s d).got <+: (h.flow t d).got ∧ (h.flow s d).put <+: (h.flow t d).put
  frozen : ∀ is s i t, Run h.step h.init is s → h.step s i = some t → ∀ d, h.shut s d = true →
    h.shut t d = true ∧ (h.flow t d).put = (h.flow s d).put

theorem ended_snoc {h : Hop α} {d : Dir} {is : List h.In} {i : h.In} (he : h.Ended d (is ++ [i])) :
    h.Ended d is ∨ h.ends d i = true := by
  obtain ⟨j, hj, he⟩ := he
  rcases List.mem_append.mp hj with hj | hj
  · exact .inl ⟨j, hj, he⟩
  · exact .inr (List.mem_singleton.mp hj ▸ he)

end Hop

/-! ## One relay among others -/

/-- A machine with many relays, and one of them, which may not be there yet. -/
structure Member (α σ ι ρ : Type) where
  init : σ
  step : σ → ι → Option σ
  look : σ → Option ρ
  flow : ρ → Dir → Transit α
  ends : Dir → ι → Bool
  shut : ρ → Dir → Bool

namespace Member

variable {σ ι ρ : Type} (m : Member α σ ι ρ)

/-- The machine as a hop, of which the other relays are nothing. -/
def hop : Hop α where
  State := σ
  In := ι
  init := m.init
  step := m.step
  flow s d := (m.look s).elim .empty fun r => m.flow r d
  ends := m.ends
  shut s d := (m.look s).elim false fun r => m.shut r d

/-- What a step makes of the relay `r`, in one direction. -/
structure Later (atEnd : Dir → ρ → Prop) (d : Dir) (ended : Bool) (r r' : ρ) : Prop where
  got : (m.flow r d).got <+: (m.flow r' d).got
  put : (m.flow r d).put <+: (m.flow r' d).put
  atEnd : ended = true ∨ atEnd d r → atEnd d r'
  frozen : m.shut r d = true → m.shut r' d = true ∧ (m.flow r' d).put = (m.flow r d).put

/-- What makes the hop lawful: an invariant, and what a direction that has come
to its end is known by. -/
structure Kept (I : σ → Prop) (atEnd : Dir → ρ → Prop) : Prop where
  init : m.look m.init = none
  start : I m.init
  step : ∀ {s i t}, I s → m.step s i = some t → I t
  faithful : ∀ {s r}, I s → m.look s = some r → ∀ d, (m.flow r d).put <+: (m.flow r d).got
  settled : ∀ {s r}, I s → m.look s = some r → ∀ d, atEnd d r → (m.flow r d).put = (m.flow r d).got
  later : ∀ {s i t r}, I s → m.step s i = some t → m.look s = some r →
    ∃ r', m.look t = some r' ∧ ∀ d, m.Later atEnd d (m.ends d i) r r'
  here : ∀ {s i t d}, m.step s i = some t → m.ends d i = true → ∃ r, m.look s = some r

variable {m} {I : σ → Prop} {atEnd : Dir → ρ → Prop} {is : List ι} {s : σ} {r : ρ} {d : Dir}

theorem hop_flow (h : m.look s = some r) : m.hop.flow s d = m.flow r d := by
  simp only [hop, h, Option.elim_some]

theorem hop_flow_none (h : m.look s = none) : m.hop.flow s d = .empty := by
  simp only [hop, h, Option.elim_none]

theorem hop_shut (h : m.look s = some r) : m.hop.shut s d = m.shut r d := by
  simp only [hop, h, Option.elim_some]

theorem Kept.run (hk : m.Kept I atEnd) (hs : Run m.step m.init is s) : I s :=
  hs.inv (fun _ _ _ hi ht => hk.step hi ht) hk.start

theorem Kept.atEnd_of_ended (hk : m.Kept I atEnd) (hs : Run m.step m.init is s) (he : m.hop.Ended d is) :
    ∃ r, m.look s = some r ∧ atEnd d r := by
  refine hs.history (P := fun is t => m.hop.Ended d is → ∃ r, m.look t = some r ∧ atEnd d r) ?_ ?_ he
  · rintro ⟨i, hi, -⟩
    cases hi
  · intro is t i u ht ih hu he
    rcases Hop.ended_snoc he with he | he
    · obtain ⟨r, hr, ha⟩ := ih he
      obtain ⟨r', hr', hl⟩ := hk.later (hk.run ht) hu hr
      exact ⟨r', hr', (hl d).atEnd (.inr ha)⟩
    · obtain ⟨r, hr⟩ := hk.here hu he
      obtain ⟨r', hr', hl⟩ := hk.later (hk.run ht) hu hr
      exact ⟨r', hr', (hl d).atEnd (.inl he)⟩

theorem Kept.lawful (hk : m.Kept I atEnd) : m.hop.Lawful where
  empty _ := hop_flow_none hk.init
  faithful is s hs d := by
    cases hr : m.look s with
    | none =>
      rw [hop_flow_none hr]
      exact List.prefix_rfl
    | some r =>
      rw [hop_flow hr]
      exact hk.faithful (hk.run hs) hr d
  complete is s hs d hc := by
    obtain ⟨r, hr, ha⟩ := hk.atEnd_of_ended hs hc
    rw [hop_flow hr]
    exact hk.settled (hk.run hs) hr d ha
  ends_of_clean _ _ := id
  grows is s i t hs ht d := by
    cases hr : m.look s with
    | none =>
      rw [hop_flow_none hr]
      exact ⟨List.nil_prefix, List.nil_prefix⟩
    | some r =>
      obtain ⟨r', hr', hl⟩ := hk.later (hk.run hs) ht hr
      rw [hop_flow hr, hop_flow hr']
      exact ⟨(hl d).got, (hl d).put⟩
  frozen is s i t hs ht d ho := by
    cases hr : m.look s with
    | none => simp [hop, hr] at ho
    | some r =>
      obtain ⟨r', hr', hl⟩ := hk.later (hk.run hs) ht hr
      rw [hop_shut hr] at ho
      rw [hop_flow hr, hop_flow hr', hop_shut hr']
      exact (hl d).frozen ho

end Member

/-! ## A pipe -/

section Pipe

variable {sent sent' got got' : List α} {shut shut' : Bool} {ended ended' : Prop}

/-- A reader may come to have read `got`, and to the end, when `sent` has been
put in and the writer is through or not. -/
def allows [DecidableEq α] (sent : List α) (shut : Bool) (got : List α) (ends : Bool) : Bool :=
  decide (got <+: sent) && (!ends || shut && decide (got = sent))

/-- How far the reader is with what was put in. -/
structure Pipe (sent : List α) (shut : Bool) (got : List α) (ended : Prop) : Prop where
  isPrefix : got <+: sent
  whole : ended → shut = true ∧ got = sent

theorem Pipe.new (h : ¬ended) : Pipe ([] : List α) shut [] ended :=
  ⟨List.prefix_rfl, fun he => absurd he h⟩

/-- The writer's step. -/
theorem Pipe.write (h : Pipe sent shut got ended) (hs : sent <+: sent')
    (hf : shut = true → shut' = true ∧ sent' = sent) : Pipe sent' shut' got ended where
  isPrefix := h.isPrefix.trans hs
  whole he := by
    obtain ⟨hsh, hr⟩ := h.whole he
    obtain ⟨hsh', hs'⟩ := hf hsh
    exact ⟨hsh', hr.trans hs'.symm⟩

/-- The reader's step. -/
theorem Pipe.read [DecidableEq α] {e : Bool} (h : Pipe sent shut got ended) (ha : allows sent shut got' e = true)
    (hg : got <+: got') (he : ended' → ended ∨ e = true) : Pipe sent shut got' ended' := by
  simp only [allows, Bool.and_eq_true, decide_eq_true_eq] at ha
  obtain ⟨hp, hend⟩ := ha
  refine ⟨hp, fun h' => ?_⟩
  rcases he h' with ho | rfl
  · -- the reader was at the end before, and has read nothing since
    obtain ⟨hsh, rfl⟩ := h.whole ho
    exact ⟨hsh, hp.eq_of_length_le hg.length_le⟩
  · simpa using hend

end Pipe

/-! ## Two hops -/

section Inputs

variable {ι κ : Type} {is : List (ι ⊕ κ)}

theorem mem_lefts {i : ι} : i ∈ is.filterMap Sum.getLeft? ↔ .inl i ∈ is := by
  simp [List.mem_filterMap]

theorem mem_rights {i : κ} : i ∈ is.filterMap Sum.getRight? ↔ .inr i ∈ is := by
  simp [List.mem_filterMap]

end Inputs

namespace Hop

variable [DecidableEq α] {h k : Hop α}

/-- `h` in front of `k`, which is nearer to the end that streams go up to. -/
def seq (h k : Hop α) : Hop α where
  State := h.State × k.State
  In := h.In ⊕ k.In
  init := (h.init, k.init)
  step s
    | .inl i => (h.step s.1 i).bind fun t =>
      if allows (k.flow s.2 .down).put (k.shut s.2 .down) (h.flow t .down).got (h.ends .down i) then some (t, s.2)
      else none
    | .inr i => (k.step s.2 i).bind fun t =>
      if allows (h.flow s.1 .up).put (h.shut s.1 .up) (k.flow t .up).got (k.ends .up i) then some (s.1, t) else none
  flow s
    | .up => ⟨(h.flow s.1 .up).got, (k.flow s.2 .up).put⟩
    | .down => ⟨(k.flow s.2 .down).got, (h.flow s.1 .down).put⟩
  ends
    | .up, .inl i => h.ends .up i
    | .down, .inr i => k.ends .down i
    | _, _ => false
  shut s
    | .up => k.shut s.2 .up
    | .down => h.shut s.1 .down
  clean d is := h.clean d (is.filterMap Sum.getLeft?) ∧ k.clean d (is.filterMap Sum.getRight?)

/-- The steps of two hops joined. -/
inductive SeqStep (h k : Hop α) (s : h.State × k.State) : h.In ⊕ k.In → h.State × k.State → Prop
  | left {i : h.In} {t : h.State} (hs : h.step s.1 i = some t)
    (ha : allows (k.flow s.2 .down).put (k.shut s.2 .down) (h.flow t .down).got (h.ends .down i) = true) :
    SeqStep h k s (.inl i) (t, s.2)
  | right {i : k.In} {t : k.State} (hs : k.step s.2 i = some t)
    (ha : allows (h.flow s.1 .up).put (h.shut s.1 .up) (k.flow t .up).got (k.ends .up i) = true) :
    SeqStep h k s (.inr i) (s.1, t)

theorem seqStep_cases {s s' : h.State × k.State} {x : h.In ⊕ k.In} (hs : (h.seq k).step s x = some s') :
    SeqStep h k s x s' := by
  cases x with
  | inl i =>
    obtain ⟨t, ht, hs⟩ := Option.bind_eq_some_iff.mp hs
    split at hs
    · rename_i ha
      cases hs
      exact .left ht ha
    · cases hs
  | inr i =>
    obtain ⟨t, ht, hs⟩ := Option.bind_eq_some_iff.mp hs
    split at hs
    · rename_i ha
      cases hs
      exact .right ht ha
    · cases hs

/-- What holds along the runs of two hops joined: each makes a run of its own,
and reads from the other through a pipe. -/
structure Joined (h k : Hop α) (is : List (h.In ⊕ k.In)) (s : h.State × k.State) : Prop where
  left : Run h.step h.init (is.filterMap Sum.getLeft?) s.1
  right : Run k.step k.init (is.filterMap Sum.getRight?) s.2
  up : Pipe (h.flow s.1 .up).put (h.shut s.1 .up) (k.flow s.2 .up).got (k.Ended .up (is.filterMap Sum.getRight?))
  down : Pipe (k.flow s.2 .down).put (k.shut s.2 .down) (h.flow s.1 .down).got
    (h.Ended .down (is.filterMap Sum.getLeft?))

/-- A step of two hops joined: the one that moves writes to a pipe and reads
from the other. -/
theorem Joined.step (hh : h.Lawful) (hk : k.Lawful) {is : List (h.In ⊕ k.In)} {s s' : h.State × k.State}
    {x : h.In ⊕ k.In} (hj : Joined h k is s) (hs : SeqStep h k s x s') : Joined h k (is ++ [x]) s' := by
  obtain ⟨hl, hr, hup, hdown⟩ := hj
  cases hs with
  | @left i t ht ha =>
    have hls : (is ++ [Sum.inl i]).filterMap Sum.getLeft? = is.filterMap Sum.getLeft? ++ [i] := by simp
    have hrs : (is ++ [Sum.inl i]).filterMap Sum.getRight? = is.filterMap Sum.getRight? := by simp
    have hg : (h.flow s.1 .down).got <+: (h.flow t .down).got := (hh.grows _ _ i t hl ht .down).1
    have hp : (h.flow s.1 .up).put <+: (h.flow t .up).put := (hh.grows _ _ i t hl ht .up).2
    constructor
    · rw [hls]
      exact run_snoc.mpr ⟨s.1, hl, ht⟩
    · rw [hrs]
      exact hr
    · rw [hrs]
      exact hup.write hp (hh.frozen _ _ i t hl ht .up)
    · rw [hls]
      exact hdown.read ha hg ended_snoc
  | @right i t ht ha =>
    have hls : (is ++ [Sum.inr i]).filterMap Sum.getLeft? = is.filterMap Sum.getLeft? := by simp
    have hrs : (is ++ [Sum.inr i]).filterMap Sum.getRight? = is.filterMap Sum.getRight? ++ [i] := by simp
    have hg : (k.flow s.2 .up).got <+: (k.flow t .up).got := (hk.grows _ _ i t hr ht .up).1
    have hp : (k.flow s.2 .down).put <+: (k.flow t .down).put := (hk.grows _ _ i t hr ht .down).2
    constructor
    · rw [hls]
      exact hl
    · rw [hrs]
      exact run_snoc.mpr ⟨s.2, hr, ht⟩
    · rw [hrs]
      exact hup.read ha hg ended_snoc
    · rw [hls]
      exact hdown.write hp (hk.frozen _ _ i t hr ht .down)

theorem joined (hh : h.Lawful) (hk : k.Lawful) {is : List (h.In ⊕ k.In)} {s : h.State × k.State}
    (hs : Run (h.seq k).step (h.seq k).init is s) : Joined h k is s := by
  refine hs.history (P := Joined h k) ?_ fun is t x u _ hj hu => hj.step hh hk (seqStep_cases hu)
  refine ⟨run_nil.mpr rfl, run_nil.mpr rfl, ?_, ?_⟩
  · show Pipe (h.flow h.init .up).put _ (k.flow k.init .up).got _
    rw [hh.empty, hk.empty]
    exact .new (by simp [Ended])
  · show Pipe (k.flow k.init .down).put _ (h.flow h.init .down).got _
    rw [hh.empty, hk.empty]
    exact .new (by simp [Ended])

theorem ended_seq_up {is : List (h.In ⊕ k.In)} (he : h.Ended .up (is.filterMap Sum.getLeft?)) :
    (h.seq k).Ended .up is := by
  obtain ⟨i, hi, he⟩ := he
  exact ⟨.inl i, mem_lefts.mp hi, he⟩

theorem ended_seq_down {is : List (h.In ⊕ k.In)} (he : k.Ended .down (is.filterMap Sum.getRight?)) :
    (h.seq k).Ended .down is := by
  obtain ⟨i, hi, he⟩ := he
  exact ⟨.inr i, mem_rights.mp hi, he⟩

/-- Lawful hops joined make a lawful hop. -/
theorem Lawful.seq (hh : h.Lawful) (hk : k.Lawful) : (h.seq k).Lawful where
  empty d := by
    cases d
    · show Transit.mk (h.flow h.init .up).got (k.flow k.init .up).put = .empty
      rw [hh.empty, hk.empty]
    · show Transit.mk (k.flow k.init .down).got (h.flow h.init .down).put = .empty
      rw [hh.empty, hk.empty]
  faithful is s hs d := by
    obtain ⟨hl, hr, hup, hdown⟩ := joined hh hk hs
    have hf : ∀ d, (h.flow s.1 d).put <+: (h.flow s.1 d).got := hh.faithful _ _ hl
    have kf : ∀ d, (k.flow s.2 d).put <+: (k.flow s.2 d).got := hk.faithful _ _ hr
    cases d
    · exact ((kf .up).trans hup.isPrefix).trans (hf .up)
    · exact ((hf .down).trans hdown.isPrefix).trans (kf .down)
  complete is s hs d hc := by
    obtain ⟨hl, hr, hup, hdown⟩ := joined hh hk hs
    obtain ⟨hhc, hkc⟩ := hc
    have hf : (h.flow s.1 d).put = (h.flow s.1 d).got := hh.complete _ _ hl d hhc
    have kf : (k.flow s.2 d).put = (k.flow s.2 d).got := hk.complete _ _ hr d hkc
    cases d
    · have hpipe := (hup.whole (hk.ends_of_clean .up _ hkc)).2
      exact kf.trans (hpipe.trans hf)
    · have hpipe := (hdown.whole (hh.ends_of_clean .down _ hhc)).2
      exact hf.trans (hpipe.trans kf)
  ends_of_clean d is hc := by
    cases d
    · exact ended_seq_up (hh.ends_of_clean .up _ hc.1)
    · exact ended_seq_down (hk.ends_of_clean .down _ hc.2)
  grows is s x s' hs hx d := by
    obtain ⟨hl, hr, -, -⟩ := joined hh hk hs
    cases seqStep_cases hx with
    | @left i t ht ha =>
      have hg := fun d => hh.grows _ _ i t hl ht d
      cases d
      · exact ⟨(hg .up).1, List.prefix_rfl⟩
      · exact ⟨List.prefix_rfl, (hg .down).2⟩
    | @right i t ht ha =>
      have hg := fun d => hk.grows _ _ i t hr ht d
      cases d
      · exact ⟨List.prefix_rfl, (hg .up).2⟩
      · exact ⟨(hg .down).1, List.prefix_rfl⟩
  frozen is s x s' hs hx d ho := by
    obtain ⟨hl, hr, -, -⟩ := joined hh hk hs
    cases seqStep_cases hx with
    | @left i t ht ha =>
      cases d
      · exact ⟨ho, rfl⟩
      · exact hh.frozen _ _ i t hl ht .down ho
    | @right i t ht ha =>
      cases d
      · exact hk.frozen _ _ i t hr ht .up ho
      · exact ⟨ho, rfl⟩

end Hop

end Relay

import Mathlib.Logic.Function.Basic
import ErplTunnel.Framework.Relay
import ErplTunnel.Framework.Run

/-!
# Two connections bridged in Go

`bridge` of the shims (`shim/ts/main.go`, `shim/nb/main.go`) and the end of
`Exporter.serve` (`meshpair/export.go`) are the same code: a goroutine for each
direction runs `io.Copy`, half-closes its destination and reports, and when both
have reported the two connections are closed. Of `io.Copy` the model has that
it writes what it has read, in order, until the end of the stream or an error;
of a connection, that nothing is read from it or written to it once it is
closed. Somebody else may close a connection at any moment (`kill`).

`Bridge.Inv` is what every step keeps: what each direction owes, by where its
goroutine stands.
-/

namespace ErplTunnel.Shim

open Relay (Dir Transit)

/-- The two connections of a bridge. -/
inductive Side where
  | mesh
  | localEnd
  deriving DecidableEq, Repr

/-- Up is to the local end. -/
def src : Dir → Side
  | .up => .mesh
  | .down => .localEnd

def dst : Dir → Side
  | .up => .localEnd
  | .down => .mesh

theorem dst_inj {d e : Dir} (h : dst d = dst e) : d = e := by
  cases d <;> cases e <;> first | rfl | cases h

/-- A `net.Conn`, as far as this side of it was closed. -/
structure Conn where
  closed : Bool
  writeClosed : Bool
  deriving DecidableEq, Repr

/-- Where `cp(dst, src)` stands. -/
inductive CopyPc (α : Type) where
  /-- In `io.Copy`, which has written all it has read. -/
  | reading
  /-- In `io.Copy`, with `buf` still to write. -/
  | writing (buf : List α)
  /-- `io.Copy` has returned, at the end of the stream or for an error. -/
  | ended (eof : Bool)
  /-- Past `CloseWrite`. -/
  | shut (eof : Bool)
  /-- `done` has its message. -/
  | done (eof : Bool)

namespace CopyPc

variable {α : Type}

/-- `io.Copy` came to the end of the stream. -/
def eof : CopyPc α → Bool
  | .reading | .writing _ => false
  | .ended e | .shut e | .done e => e

/-- The goroutine has reported. -/
def isDone : CopyPc α → Bool
  | .done _ => true
  | _ => false

/-- It has called `CloseWrite`. -/
def isShut : CopyPc α → Bool
  | .shut _ | .done _ => true
  | _ => false

end CopyPc

/-- One direction: its goroutine, what it has read and what it has written. -/
structure Copy (α : Type) where
  pc : CopyPc α
  flow : Transit α

/-- Where the function that started the two goroutines stands. -/
inductive BridgePc where
  /-- Before both messages of `done`. -/
  | waiting
  | closedLocal
  | finished
  deriving DecidableEq, Repr

structure Bridge (α : Type) where
  conn : Side → Conn
  copy : Dir → Copy α
  pc : BridgePc

inductive BridgeEv (α : Type) where
  | read (d : Dir) (bs : List α)
  | eof (d : Dir)
  | readErr (d : Dir)
  /-- The destination takes `n` more bytes. -/
  | write (d : Dir) (n : Nat)
  | writeErr (d : Dir)
  | closeWrite (d : Dir)
  | signal (d : Dir)
  | closeLocal
  | closeMesh

namespace Bridge

variable {α : Type}

def new : Bridge α := ⟨fun _ => ⟨false, false⟩, fun _ => ⟨.reading, .empty⟩, .waiting⟩

def setCopy (b : Bridge α) (d : Dir) (c : Copy α) : Bridge α := { b with copy := Function.update b.copy d c }

/-- `Close` of one connection. -/
def kill (b : Bridge α) (x : Side) : Bridge α :=
  { b with conn := Function.update b.conn x { b.conn x with closed := true } }

/-- `CloseWrite`, which does nothing to a connection that is closed. -/
def closeWrite (b : Bridge α) (x : Side) : Bridge α :=
  { b with conn := Function.update b.conn x { b.conn x with writeClosed := !(b.conn x).closed || (b.conn x).writeClosed } }

/-- Both goroutines have reported. -/
def bothDone (b : Bridge α) : Bool := (b.copy .up).pc.isDone && (b.copy .down).pc.isDone

def step (b : Bridge α) : BridgeEv α → Option (Bridge α)
  | .read d bs =>
    match (b.copy d).pc with
    | .reading =>
      if (b.conn (src d)).closed || bs.isEmpty then none
      else some (b.setCopy d ⟨.writing bs, (b.copy d).flow.recv bs⟩)
    | _ => none
  | .eof d =>
    match (b.copy d).pc with
    | .reading => if (b.conn (src d)).closed then none else some (b.setCopy d ⟨.ended true, (b.copy d).flow⟩)
    | _ => none
  | .readErr d =>
    match (b.copy d).pc with
    | .reading => some (b.setCopy d ⟨.ended false, (b.copy d).flow⟩)
    | _ => none
  | .write d n =>
    match (b.copy d).pc with
    | .writing buf =>
      if (b.conn (dst d)).closed || n == 0 || buf.length < n then none
      else some (b.setCopy d
        ⟨if buf.length = n then .reading else .writing (buf.drop n), (b.copy d).flow.accept (buf.take n)⟩)
    | _ => none
  | .writeErr d =>
    match (b.copy d).pc with
    | .writing _ => some (b.setCopy d ⟨.ended false, (b.copy d).flow⟩)
    | _ => none
  | .closeWrite d =>
    match (b.copy d).pc with
    | .ended e => some ((b.setCopy d ⟨.shut e, (b.copy d).flow⟩).closeWrite (dst d))
    | _ => none
  | .signal d =>
    match (b.copy d).pc with
    | .shut e => some (b.setCopy d ⟨.done e, (b.copy d).flow⟩)
    | _ => none
  | .closeLocal =>
    if b.pc = .waiting ∧ b.bothDone then some { b.kill .localEnd with pc := .closedLocal } else none
  | .closeMesh => if b.pc = .closedLocal then some { b.kill .mesh with pc := .finished } else none

variable {b b' : Bridge α} {d : Dir} {c : Copy α}

@[simp] theorem setCopy_self : (b.setCopy d c).copy d = c := Function.update_self ..

theorem setCopy_of_ne {e : Dir} (h : e ≠ d) : (b.setCopy d c).copy e = b.copy e := Function.update_of_ne h ..

@[simp] theorem setCopy_conn : (b.setCopy d c).conn = b.conn := rfl

theorem kill_closed (x y : Side) : ((b.kill x).conn y).closed = (y == x || (b.conn y).closed) := by
  by_cases h : y = x
  · subst h
    simp [kill]
  · simp [kill, h]

@[simp] theorem kill_writeClosed (x y : Side) : ((b.kill x).conn y).writeClosed = (b.conn y).writeClosed := by
  by_cases h : y = x
  · subst h
    simp [kill]
  · simp [kill, Function.update_of_ne h]

@[simp] theorem closeWrite_copy (x : Side) : (b.closeWrite x).copy = b.copy := rfl

@[simp] theorem closeWrite_closed (x y : Side) : ((b.closeWrite x).conn y).closed = (b.conn y).closed := by
  by_cases h : y = x
  · subst h
    simp [closeWrite]
  · simp [closeWrite, Function.update_of_ne h]

theorem closeWrite_writeClosed {x y : Side} (h : ((b.closeWrite x).conn y).writeClosed = true) :
    y = x ∨ (b.conn y).writeClosed = true := by
  by_cases hx : y = x
  · exact .inl hx
  · exact .inr (by simpa [closeWrite, Function.update_of_ne hx] using h)

end Bridge

theorem CopyPc.isShut_of_isDone {α : Type} {pc : CopyPc α} (h : pc.isDone = true) : pc.isShut = true := by
  cases pc with
  | done e => rfl
  | _ => cases h

/-- What a goroutine owes where it stands. -/
def CopyPc.Holds {α : Type} (f : Transit α) : CopyPc α → Prop
  | .reading => f.Owes []
  | .writing buf => f.Owes buf
  | .ended e | .shut e | .done e => ∃ q, f.Owes q ∧ (e = true → q = [])

/-- What `Copy` becomes in one step of its goroutine, with its source open or not. -/
structure Copy.Moves {α : Type} (srcClosed : Bool) (c c' : Copy α) : Prop where
  holds : c.pc.Holds c.flow → c'.pc.Holds c'.flow
  shut : c.pc.isShut = true → c'.pc.isShut = true
  done : c.pc.isDone = true → c'.pc.isDone = true
  got : srcClosed = true → c'.flow.got = c.flow.got

/-- A goroutine that is still in `io.Copy`. -/
theorem Copy.Moves.inCopy {α : Type} {srcClosed : Bool} {c c' : Copy α} (hs : c.pc.isShut = false)
    (holds : c.pc.Holds c.flow → c'.pc.Holds c'.flow) (got : srcClosed = true → c'.flow.got = c.flow.got) :
    c.Moves srcClosed c' where
  holds := holds
  shut h := by rw [hs] at h; cases h
  done h := by rw [CopyPc.isShut_of_isDone h] at hs; cases hs
  got := got

namespace Bridge

variable {α : Type} {b b' : Bridge α}

/-- What a step does: one goroutine moves, or half-closes its destination, or a
connection is closed because both have reported. -/
theorem step_cases {e : BridgeEv α} (h : b.step e = some b') :
    (∃ d c, b' = b.setCopy d c ∧ (b.copy d).Moves (b.conn (src d)).closed c) ∨
    (∃ d eof, (b.copy d).pc = .ended eof ∧ b' = (b.setCopy d ⟨.shut eof, (b.copy d).flow⟩).closeWrite (dst d)) ∨
    (b.pc = .waiting ∧ b.bothDone = true ∧ b' = { b.kill .localEnd with pc := .closedLocal }) ∨
    (b.pc = .closedLocal ∧ b' = { b.kill .mesh with pc := .finished }) := by
  cases e with
  | read d bs =>
    simp only [step] at h
    split at h
    case h_2 => cases h
    case h_1 hpc =>
    split at h
    case isTrue => cases h
    case isFalse hc =>
    cases h
    refine .inl ⟨d, _, rfl, .inCopy (by rw [hpc]; rfl) (fun ho => ?_) fun hk => ?_⟩
    · rw [hpc] at ho
      exact Transit.Owes.recv ho bs
    · simp [hk] at hc
  | eof d =>
    simp only [step] at h
    split at h
    case h_2 => cases h
    case h_1 hpc =>
    split at h <;> cases h
    refine .inl ⟨d, _, rfl, .inCopy (by rw [hpc]; rfl) (fun ho => ?_) fun _ => rfl⟩
    rw [hpc] at ho
    exact ⟨[], ho, fun _ => rfl⟩
  | readErr d =>
    simp only [step] at h
    split at h <;> cases h
    case h_1 hpc =>
    refine .inl ⟨d, _, rfl, .inCopy (by rw [hpc]; rfl) (fun ho => ?_) fun _ => rfl⟩
    rw [hpc] at ho
    exact ⟨[], ho, fun _ => rfl⟩
  | write d n =>
    simp only [step] at h
    split at h
    case h_2 => cases h
    case h_1 buf hpc =>
    split at h
    case isTrue => cases h
    case isFalse hn =>
    cases h
    refine .inl ⟨d, _, rfl, .inCopy (by rw [hpc]; rfl) (fun ho => ?_) fun _ => rfl⟩
    rw [hpc] at ho
    have hsplit : (b.copy d).flow.Owes (buf.take n ++ buf.drop n) := by rwa [List.take_append_drop]
    have hrest := hsplit.accept
    by_cases hall : buf.length = n
    · rw [List.drop_eq_nil_of_le (by omega)] at hrest
      simp only [if_pos hall]
      exact hrest
    · simp only [if_neg hall]
      exact hrest
  | writeErr d =>
    simp only [step] at h
    split at h <;> cases h
    case h_1 buf hpc =>
    refine .inl ⟨d, _, rfl, .inCopy (by rw [hpc]; rfl) (fun ho => ?_) fun _ => rfl⟩
    rw [hpc] at ho
    exact ⟨buf, ho, fun hf => by cases hf⟩
  | closeWrite d =>
    simp only [step] at h
    split at h <;> cases h
    case h_1 eof hpc => exact .inr (.inl ⟨d, eof, hpc, rfl⟩)
  | signal d =>
    simp only [step] at h
    split at h <;> cases h
    case h_1 eof hpc =>
    refine .inl ⟨d, _, rfl, fun ho => ?_, fun _ => rfl, fun _ => rfl, fun _ => rfl⟩
    rwa [hpc] at ho
  | closeLocal =>
    simp only [step] at h
    split at h
    case isTrue hw =>
      cases h
      exact .inr (.inr (.inl ⟨hw.1, hw.2, rfl⟩))
    case isFalse => cases h
  | closeMesh =>
    simp only [step] at h
    split at h
    case isTrue hw =>
      cases h
      exact .inr (.inr (.inr ⟨hw, rfl⟩))
    case isFalse => cases h

theorem forall_setCopy {P : Dir → Copy α → Prop} {d : Dir} {c : Copy α} (h : ∀ e, P e (b.copy e)) (hd : P d c)
    (e : Dir) : P e ((b.setCopy d c).copy e) := by
  by_cases he : e = d
  · rw [he, setCopy_self]
    exact hd
  · rw [setCopy_of_ne he]
    exact h e

theorem bothDone_iff : b.bothDone = true ↔ ∀ d, (b.copy d).pc.isDone = true := by
  rw [bothDone, Bool.and_eq_true]
  exact ⟨fun h d => by cases d; exacts [h.1, h.2], fun h => ⟨h .up, h .down⟩⟩

/-- What every step keeps. -/
structure Inv (b : Bridge α) : Prop where
  holds : ∀ d, (b.copy d).pc.Holds (b.copy d).flow
  shut : ∀ d, (b.conn (dst d)).writeClosed = true → (b.copy d).pc.isShut = true
  done : b.pc ≠ .waiting → b.bothDone = true
  closedLocal : b.pc ≠ .waiting → (b.conn .localEnd).closed = true
  closedMesh : b.pc = .finished → (b.conn .mesh).closed = true

theorem Inv.new : Inv (new : Bridge α) where
  holds _ := Transit.owes_empty
  shut _ h := by cases h
  done h := absurd rfl h
  closedLocal h := absurd rfl h
  closedMesh h := by cases h

theorem kill_keeps {x y : Side} (h : (b.conn y).closed = true) : ((b.kill x).conn y).closed = true := by
  rw [kill_closed, h, Bool.or_true]

theorem Inv.kill (h : Inv b) (x : Side) : Inv (b.kill x) where
  holds := h.holds
  shut d hd := h.shut d (by simpa using hd)
  done := h.done
  closedLocal hp := kill_keeps (h.closedLocal hp)
  closedMesh hp := kill_keeps (h.closedMesh hp)

theorem Inv.step (h : Inv b) {e : BridgeEv α} (hs : b.step e = some b') : Inv b' := by
  obtain ⟨d, c, rfl, hm⟩ | ⟨d, eof, hpc, rfl⟩ | ⟨hw, hd, rfl⟩ | ⟨hc, rfl⟩ := step_cases hs
  · refine ⟨forall_setCopy (P := fun _ c => c.pc.Holds c.flow) h.holds (hm.holds (h.holds d)), ?_, fun hp => ?_,
      h.closedLocal, h.closedMesh⟩
    · exact forall_setCopy (P := fun x c => (b.conn (dst x)).writeClosed = true → c.pc.isShut = true) h.shut
        fun hd => hm.shut (h.shut d hd)
    · have hd := bothDone_iff.mp (h.done hp)
      exact bothDone_iff.mpr (forall_setCopy (P := fun _ c => c.pc.isDone = true) hd (hm.done (hd d)))
  · have hq := h.holds d
    rw [hpc] at hq
    refine ⟨forall_setCopy (P := fun _ c => c.pc.Holds c.flow) h.holds hq, fun x hx => ?_, fun hp => ?_,
      fun hp => ?_, fun hp => ?_⟩
    · by_cases hxd : x = d
      · rw [hxd, closeWrite_copy, setCopy_self]
        rfl
      · rw [closeWrite_copy, setCopy_of_ne hxd]
        exact h.shut x ((closeWrite_writeClosed hx).resolve_left fun he => hxd (dst_inj he))
    · have hd := bothDone_iff.mp (h.done hp) d
      rw [hpc] at hd
      cases hd
    · rw [closeWrite_closed]
      exact h.closedLocal hp
    · rw [closeWrite_closed]
      exact h.closedMesh hp
  · refine ⟨h.holds, fun x hx => h.shut x (by simpa using hx), fun _ => hd, fun _ => ?_, fun hp => by cases hp⟩
    exact kill_closed ..
  · have hp : b.pc ≠ .waiting := by rw [hc]; decide
    refine ⟨h.holds, fun x hx => h.shut x (by simpa using hx), fun _ => h.done hp,
      fun _ => kill_keeps (h.closedLocal hp), fun _ => ?_⟩
    exact kill_closed ..

/-- Each direction has written a prefix of what it has read, and all of it when
its destination was half-closed for the end of the stream. -/
structure Faithful (b : Bridge α) : Prop where
  prefix_read : ∀ d, (b.copy d).flow.put <+: (b.copy d).flow.got
  eof_last : ∀ d, (b.conn (dst d)).writeClosed = true → (b.copy d).pc.eof = true →
    (b.copy d).flow.put = (b.copy d).flow.got

theorem Inv.faithful (h : Inv b) : b.Faithful where
  prefix_read d := by
    have hd := h.holds d
    cases hpc : (b.copy d).pc with
    | reading | writing =>
      rw [hpc] at hd
      exact Transit.Owes.isPrefix hd
    | ended | shut | done =>
      rw [hpc] at hd
      obtain ⟨q, hq, -⟩ := hd
      exact hq.isPrefix
  eof_last d hw he := by
    have hd := h.holds d
    have hsh := h.shut d hw
    cases hpc : (b.copy d).pc with
    | reading | writing | ended =>
      rw [hpc] at hsh
      cases hsh
    | shut eof | done eof =>
      rw [hpc] at hd he
      obtain ⟨q, hq, hnil⟩ := hd
      obtain rfl := hnil he
      exact Transit.owes_nil.mp hq

/-- A step closes a connection only when both directions have ended. -/
theorem step_closes {e : BridgeEv α} (hi : Inv b) (h : b.step e = some b') {x : Side}
    (ho : (b.conn x).closed = false) (hc : (b'.conn x).closed = true) : b.bothDone = true := by
  obtain ⟨d, c, rfl, hm⟩ | ⟨d, eof, hpc, rfl⟩ | ⟨hw, hd, rfl⟩ | ⟨hw, rfl⟩ := step_cases h
  · rw [setCopy_conn, ho] at hc
    cases hc
  · rw [closeWrite_closed, setCopy_conn, ho] at hc
    cases hc
  · exact hd
  · exact hi.done (by rw [hw]; decide)

end Bridge

end ErplTunnel.Shim

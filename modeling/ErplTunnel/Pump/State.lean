import Mathlib.Logic.Function.Basic
import ErplTunnel.Framework.Run
import ErplTunnel.Framework.Relay

/-!
# What the three pumps share

`TunnelConnection::ForwardData`, `SshExporter::Pump` and
`MeshForwarder::Pump` each relay bytes between two ends through one array of
16384 bytes, from one thread, until the tunnel's flag goes down. A pump is a
program counter over this state (`St`), and its steps are the system calls it
makes, with their results as inputs. Going up is from the local end into the
tunnel, going down is back.

A pump's invariant (`Inv`) is a slot for each direction at each program
counter.
-/

namespace ErplTunnel.Pump

open Relay

abbrev Byte := UInt8

/-- `kBufferSize`, and the size of `buf` in the other two. -/
def bufferSize : Nat := 16384

/-- What `recv` or `libssh2_channel_read` returns: bytes, of which none means
that no more come or, on a channel, that none are there; a negative count with
would-block or `LIBSSH2_ERROR_EAGAIN`; or another negative count. -/
inductive ReadResult where
  | data (bs : List Byte)
  | again
  | error
  deriving DecidableEq, Repr

/-- What `send` or `libssh2_channel_write` returns. -/
inductive WriteResult where
  | count (n : Nat)
  | again
  | error
  deriving DecidableEq, Repr

/-- What `select` returns: a negative count, none ready in time, or whether the
near end can be read, and the far one where the pump watches it. -/
inductive SelectResult where
  | error
  | timeout
  | ready (near far : Bool)
  deriving DecidableEq, Repr

/-- What happens to a pump: its own steps, each with what the call returned,
and `Close()` on another thread. -/
inductive Ev where
  /-- `Close()` stores false to the tunnel's flag. -/
  | shutdown
  /-- A loop condition is evaluated. -/
  | test
  | select (r : SelectResult)
  /-- A read at the source of direction `d`. -/
  | read (d : Dir) (r : ReadResult)
  /-- A write at the sink of direction `d`. -/
  | write (d : Dir) (r : WriteResult)
  /-- `libssh2_channel_eof`. -/
  | eof (b : Bool)
  /-- Another call that answers yes or no. -/
  | answer (b : Bool)
  /-- A sleep, or a wait for a socket to become writable. -/
  | pause
  /-- A call whose result is not looked at. -/
  | call
  deriving DecidableEq, Repr

/-- The bytes that come in from direction `d`. -/
def Ev.received (d : Dir) : Ev → List Byte
  | .read d' (.data bs) => if d' = d then bs else []
  | _ => []

theorem Ev.eq_read_of_received {d : Dir} {e : Ev} (h : e.received d ≠ []) :
    ∃ bs, e = .read d (.data bs) ∧ bs ≠ [] := by
  unfold Ev.received at h
  split at h
  · rename_i d' bs
    by_cases hd : d' = d
    · rw [if_pos hd] at h
      exact ⟨bs, by rw [hd], h⟩
    · rw [if_neg hd] at h
      exact absurd rfl h
  · exact absurd rfl h

/-- The bytes that have come in from direction `d`. -/
def received (d : Dir) (es : List Ev) : List Byte := es.flatMap (Ev.received d)

/-- The state of a pump: where it is, the tunnel's flag, its buffer, and what
each direction has received and what its sink has accepted. -/
structure St (Pc : Type) where
  pc : Pc
  running : Bool
  buf : Buffer Byte bufferSize
  flow : Dir → Transit Byte

namespace St

variable {Pc : Type}

/-- A pump at `pc` with nothing moved yet, and whatever the array holds. -/
def start (pc : Pc) (buf : Buffer Byte bufferSize) : St Pc := ⟨pc, true, buf, fun _ => .empty⟩

def goto (s : St Pc) (pc : Pc) : St Pc := { s with pc }

/-- `Close()` stores false. -/
def shutdown (s : St Pc) : St Pc := { s with running := false }

/-- A read of direction `d` puts `bs` at the front of the buffer. -/
def take (s : St Pc) (d : Dir) (bs : List Byte) (pc : Pc) : St Pc :=
  { s with pc, buf := s.buf.fill bs, flow := Function.update s.flow d ((s.flow d).recv bs) }

/-- The sink of direction `d` accepts `k` bytes of the buffer at `off`. -/
def give (s : St Pc) (d : Dir) (off k : Nat) (pc : Pc) : St Pc :=
  { s with pc, flow := Function.update s.flow d ((s.flow d).accept (s.buf.slice off (off + k))) }

theorem flow_take_of_ne {s : St Pc} {c d : Dir} (hc : c ≠ d) {bs : List Byte} {pc : Pc} :
    (s.take d bs pc).flow c = s.flow c := Function.update_of_ne hc _ _

theorem flow_give_of_ne {s : St Pc} {c d : Dir} (hc : c ≠ d) {off k : Nat} {pc : Pc} :
    (s.give d off k pc).flow c = s.flow c := Function.update_of_ne hc _ _

/-- What a step of a pump does to everything but its program counter: nothing,
one chunk read, one piece of the buffer written, or the flag going down. -/
inductive Move (s : St Pc) : Ev → St Pc → Prop
  | shutdown : Move s .shutdown s.shutdown
  | goto {e : Ev} {pc : Pc} (hr : ∀ d, e.received d = []) (hs : e ≠ .shutdown) : Move s e (s.goto pc)
  | take {d : Dir} {bs : List Byte} {pc : Pc} : Move s (.read d (.data bs)) (s.take d bs pc)
  | give {d : Dir} {off k : Nat} {pc : Pc} : Move s (.write d (.count k)) (s.give d off k pc)

/-- Direction `d` keeps the promise of its slot. -/
def InvOn (slot : Pc → Dir → Slot) (d : Dir) (s : St Pc) : Prop :=
  (slot s.pc d).Holds s.running s.buf (s.flow d)

/-- Every direction keeps the promise of its slot. -/
def Inv (slot : Pc → Dir → Slot) (s : St Pc) : Prop := ∀ d, s.InvOn slot d

variable {slot : Pc → Dir → Slot} {s : St Pc} {c d : Dir}

theorem inv_start {pc : Pc} {buf : Buffer Byte bufferSize} (h : ∀ d, slot pc d = .clean ∨ slot pc d = .loose) :
    (start pc buf).Inv slot := by
  intro d
  rcases h d with e | e <;> simp only [InvOn, start, e]
  · exact Transit.owes_empty
  · exact ⟨fun _ => Transit.owes_empty, _, Transit.owes_empty⟩

theorem InvOn.shutdown (h : s.InvOn slot d) : s.shutdown.InvOn slot d := Slot.Holds.shutdown h

theorem InvOn.toCut (h : s.InvOn slot d) {pc : Pc} (hs : slot pc d = .cut) : (s.goto pc).InvOn slot d := by
  simp only [InvOn, St.goto, hs]
  exact Slot.Holds.toCut h

/-- A read: the direction owed nothing. -/
theorem InvOn.take (h : s.InvOn slot d) {bs : List Byte} {pc : Pc} (hb : bs.length ≤ bufferSize)
    (hd : slot s.pc d = .clean) (hd' : slot pc d = .owes 0 bs.length) : (s.take d bs pc).InvOn slot d := by
  simp only [InvOn, hd] at h
  simp only [InvOn, St.take, Function.update_self, hd']
  exact h.recv hb

/-- A read of the other direction: this one owed no part of the buffer. -/
theorem InvOn.takeOther (h : s.InvOn slot c) (hc : c ≠ d) {bs : List Byte} {pc : Pc}
    (ho : slot s.pc c = .clean ∨ slot s.pc c = .loose) (ho' : slot pc c = slot s.pc c) :
    (s.take d bs pc).InvOn slot c := by
  simp only [InvOn, St.take, Function.update_of_ne hc, ho']
  rcases ho with e | e <;> simp only [InvOn, e] at h ⊢
  · exact h.cleanBuf
  · exact h.looseBuf

/-- A write. -/
theorem InvOn.give (h : s.InvOn slot d) {off k n : Nat} {pc : Pc} (hk : k ≤ n - off)
    (hd : slot s.pc d = .owes off n) (hd' : slot pc d = .owes (off + k) n) :
    (s.give d off k pc).InvOn slot d := by
  simp only [InvOn, hd] at h
  simp only [InvOn, St.give, Function.update_self, hd']
  exact h.accept hk

/-- A write of the other direction. -/
theorem InvOn.giveOther (h : s.InvOn slot c) (hc : c ≠ d) {off k : Nat} {pc : Pc}
    (ho : slot pc c = slot s.pc c) : (s.give d off k pc).InvOn slot c := by
  simp only [InvOn, St.give, Function.update_of_ne hc, ho]
  exact h

theorem InvOn.isPrefix (h : s.InvOn slot d) : (s.flow d).put <+: (s.flow d).got := Slot.Holds.isPrefix h

theorem InvOn.settled (h : s.InvOn slot d) (hl : slot s.pc d = .clean) : (s.flow d).put = (s.flow d).got := by
  simp only [InvOn, hl] at h
  exact Transit.owes_nil.mp h

theorem InvOn.settledOfRunning (h : s.InvOn slot d) (hl : slot s.pc d = .loose) (hr : s.running = true) :
    (s.flow d).put = (s.flow d).got := by
  simp only [InvOn, hl] at h
  exact Transit.owes_nil.mp (h.1 hr)

theorem Inv.shutdown (h : s.Inv slot) : s.shutdown.Inv slot := fun d => (h d).shutdown

theorem Inv.goto (h : s.Inv slot) {pc : Pc}
    (hs : ∀ d, (slot s.pc d).Holds s.running s.buf (s.flow d) →
      (slot pc d).Holds s.running s.buf (s.flow d)) : (s.goto pc).Inv slot :=
  fun d => hs d (h d)

theorem Inv.toCut (h : s.Inv slot) {pc : Pc} (hs : ∀ d, slot pc d = .cut) : (s.goto pc).Inv slot :=
  fun d => (h d).toCut (hs d)

theorem Inv.take (h : s.Inv slot) {bs : List Byte} {pc : Pc} (hb : bs.length ≤ bufferSize)
    (hd : slot s.pc d = .clean) (hd' : slot pc d = .owes 0 bs.length)
    (ho : slot s.pc d.opp = .clean ∨ slot s.pc d.opp = .loose) (ho' : slot pc d.opp = slot s.pc d.opp) :
    (s.take d bs pc).Inv slot := by
  intro c
  by_cases hc : c = d
  · exact hc ▸ (h d).take hb hd hd'
  · obtain rfl := (c.eq_or_opp d).resolve_left hc
    exact (h d.opp).takeOther hc ho ho'

theorem Inv.give (h : s.Inv slot) {off k n : Nat} {pc : Pc} (hk : k ≤ n - off)
    (hd : slot s.pc d = .owes off n) (hd' : slot pc d = .owes (off + k) n)
    (ho : slot pc d.opp = slot s.pc d.opp) : (s.give d off k pc).Inv slot := by
  intro c
  by_cases hc : c = d
  · exact hc ▸ (h d).give hk hd hd'
  · obtain rfl := (c.eq_or_opp d).resolve_left hc
    exact (h d.opp).giveOther hc ho

theorem Move.got {e : Ev} {s' : St Pc} (h : Move s e s') (d : Dir) :
    (s'.flow d).got = (s.flow d).got ++ e.received d := by
  cases h with
  | shutdown => simp [St.shutdown, Ev.received]
  | goto hr _ => simp [St.goto, hr d]
  | @take d' bs pc =>
    by_cases hd : d = d'
    · subst hd; simp [St.take, Ev.received, Transit.recv]
    · simp [St.take, Ev.received, Function.update_of_ne hd, Ne.symm hd]
  | @give d' off k pc =>
    by_cases hd : d = d'
    · subst hd; simp [St.give, Ev.received, Transit.accept]
    · simp [St.give, Ev.received, Function.update_of_ne hd]

theorem Move.running_eq_false {e : Ev} {s' : St Pc} (h : Move s e s') :
    s'.running = false ↔ s.running = false ∨ e = .shutdown := by
  cases h with
  | shutdown => simp [St.shutdown]
  | goto _ hs => simp [St.goto, hs]
  | take => simp [St.take]
  | give => simp [St.give]

section Runs

variable {step : St Pc → Ev → Option (St Pc)} (hm : ∀ s e s', step s e = some s' → Move s e s')
include hm

/-- A pump's history of a direction is what its inputs delivered. -/
theorem got_eq_received {pc : Pc} {buf : Buffer Byte bufferSize} {es : List Ev} {s' : St Pc}
    (h : Lts.Run step (start pc buf) es s') (d : Dir) : (s'.flow d).got = received d es := by
  refine h.history (P := fun es t => (t.flow d).got = received d es) rfl fun es t e u _ ih hu => ?_
  rw [(hm t e u hu).got d, ih]
  simp [received]

theorem running_eq_false_iff {pc : Pc} {buf : Buffer Byte bufferSize} {es : List Ev} {s' : St Pc}
    (h : Lts.Run step (start pc buf) es s') : s'.running = false ↔ .shutdown ∈ es := by
  refine h.history (P := fun es t => t.running = false ↔ .shutdown ∈ es) (by simp [start])
    fun es t e u _ ih hu => ?_
  rw [(hm t e u hu).running_eq_false, ih, List.mem_append, List.mem_singleton, eq_comm (a := e)]

theorem running_of_open {pc : Pc} {buf : Buffer Byte bufferSize} {es : List Ev} {s' : St Pc}
    (h : Lts.Run step (start pc buf) es s') (ho : .shutdown ∉ es) : s'.running = true := by
  rw [← running_eq_false_iff hm h] at ho
  simpa using ho

/-- The flag never comes up again. -/
theorem running_of_run {s s' : St Pc} {es : List Ev} (h : Lts.Run step s es s')
    (hr : s'.running = true) : s.running = true := by
  by_contra hs
  have : s'.running = false := by
    refine h.inv (P := fun t => t.running = false) (fun t e u ht hu => ?_) (by simpa using hs)
    exact (hm t e u hu).running_eq_false.mpr (.inl ht)
  rw [hr] at this; cases this

end Runs

end St

end ErplTunnel.Pump

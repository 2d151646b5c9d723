import ErplTunnel.Framework.Custody
import ErplTunnel.Framework.Throws

/-!
# A stream pair on Windows

`newPair` (`meshpair/pair_windows.go`) connects a raw socket to a listener of
its own on the loopback and accepts the other end. Anyone on the machine can
connect to the listener too, so a connection is taken only if it comes from the
port of the raw socket; the others are closed. What each call returns is an
input, and so are the connections, in the order they are accepted. The log is
what was opened and closed.

The check is of the port, and of an address anywhere in 127.0.0.0/8, while the
raw socket is at 127.0.0.1: a socket at 127.0.0.2 can have the same port. It is
taken for ours when it is accepted first, and that is the only way
(`pair_ours_iff`). Everything else that was opened is closed on every path.
-/

namespace ErplTunnel.Shim

open Custody (Op Kept Held ReleasedOnce)

/-- An IPv4 address. -/
structure IPv4 where
  a : UInt8
  b : UInt8
  c : UInt8
  d : UInt8
  deriving DecidableEq, Repr

/-- `IP.IsLoopback`. -/
def IPv4.isLoopback (ip : IPv4) : Bool := ip.a == 127

/-- 127.0.0.1, where the raw socket is. -/
def localhost : IPv4 := ⟨127, 0, 0, 1⟩

structure Endpoint where
  ip : IPv4
  port : UInt16
  deriving DecidableEq, Repr

/-- What `newPair` opens; the connections are numbered as they are accepted. -/
inductive PairRes where
  | listener
  | raw
  | conn (i : Nat)
  deriving DecidableEq, Repr

/-- What the calls of `newPair` return, with the texts of their errors. -/
structure PairOutcome where
  /-- `Listen`, with its `Control`. -/
  listen : Except String Unit
  /-- The type of the listener, when it is not `*net.TCPListener`. -/
  otherListener : Option String
  socket : Except String Unit
  connect : Except String Unit
  noDelay : Except String Unit
  /-- The address of the raw socket, or the name of a type other than `SockaddrInet4`. -/
  getsockname : Except String (Except String Endpoint)
  setDeadline : Except String Unit
  /-- What `Accept` returns, one after another: an error, or a connection with
  its remote address, if that is a `TCPAddr`. -/
  accepts : List (Except String (Option Endpoint))
  /-- The error of `Accept` when the deadline has passed. -/
  deadline : String

/-- The Go end: which connection it is, and its remote endpoint. -/
structure GoEnd where
  index : Nat
  remote : Endpoint
  deriving DecidableEq, Repr

abbrev PairM := Throws String (List (Op PairRes))

def opened (r : PairRes) : PairM Unit := modify (· ++ [.acquire r])

def close (r : PairRes) : PairM Unit := modify (· ++ [.release r])

/-- The error of a call, with the words before it. -/
def orThrow {α : Type} (words : String) : Except String α → PairM α
  | .ok a => pure a
  | .error e => throw (words ++ e)

/-- `fail`. -/
def fail {α : Type} (text : String) : PairM α := do
  close .raw
  throw text

def orFail {α : Type} (words : String) : Except String α → PairM α
  | .ok a => pure a
  | .error e => fail (words ++ e)

/-- A connection that the accept loop takes, for the port of the raw socket. -/
def isOurs (port : UInt16) (ra : Endpoint) : Bool := ra.ip.isLoopback && ra.port == port

/-- The accept loop, at connection `i`. -/
def acceptLoop (deadline : String) (mine : Endpoint) : Nat → List (Except String (Option Endpoint)) → PairM GoEnd
  | _, [] => fail ("loopback accept failed: " ++ deadline)
  | _, .error e :: _ => fail ("loopback accept failed: " ++ e)
  | i, .ok (some ra) :: rest => do
    opened (.conn i)
    if isOurs mine.port ra then return ⟨i, ra⟩
    close (.conn i)
    acceptLoop deadline mine (i + 1) rest
  | i, .ok none :: rest => do
    opened (.conn i)
    close (.conn i)
    acceptLoop deadline mine (i + 1) rest

/-- `newPair` once it has the raw socket. -/
def pairUp (o : PairOutcome) : PairM GoEnd := do
  orFail "loopback connect failed: " o.connect
  orFail "set TCP_NODELAY on raw end failed: " o.noDelay
  let lsa ← orFail "getsockname failed: " o.getsockname
  let mine ← orFail "unexpected local address type " lsa
  orFail "set accept deadline failed: " o.setDeadline
  acceptLoop o.deadline mine 0 o.accepts

/-- `newPair` once it has the listener. -/
def listening (o : PairOutcome) : PairM GoEnd :=
  match o.otherListener with
  | some t => throw ("unexpected listener type " ++ t)
  | none => do
    orThrow "socket failed: " o.socket
    opened .raw
    pairUp o

def newPair (o : PairOutcome) : PairM GoEnd := do
  orThrow "loopback listen failed: " o.listen
  opened .listener
  Throws.deferring (close .listener) (listening o)

/-! ## What stays open -/

/-- What the caller is left with. -/
def Left : Except String GoEnd → PairRes → Prop
  | .ok g, r => r = .raw ∨ r = .conn g.index
  | .error _, _ => False

/-- The log is in order, and only what the caller is left with, and `H`, is open. -/
def Closed (H : PairRes → Prop) (x : Except String GoEnd × List (Op PairRes)) : Prop :=
  Kept (fun _ _ => True) (fun r => H r ∨ Left x.1 r) (fun _ => False) x.2

/-- What is open while the raw socket waits for its other end. -/
def Waiting (i : Nat) (log : List (Op PairRes)) : Prop :=
  Kept (fun _ _ => True) (fun r => r = .listener ∨ r = .raw) (fun r => ∃ j, i ≤ j ∧ r = .conn j) log

theorem Waiting.fail {i : Nat} {log : List (Op PairRes)} (h : Waiting i log) (text : String) :
    Closed (· = .listener) (Throws.exec (fail text) log) := by
  refine Kept.release h (.inr rfl) trivial (fun r => ?_) fun _ hx => hx.elim
  show (r = .listener ∨ False) ↔ (r = .listener ∨ r = .raw) ∧ r ≠ .raw
  cases r <;> simp

theorem Waiting.drop {i : Nat} {log : List (Op PairRes)} (h : Waiting i log) :
    Waiting (i + 1) (log ++ [.acquire (.conn i)] ++ [.release (.conn i)]) := by
  have hopen : Kept (fun _ _ => True) (fun r => (r = .listener ∨ r = .raw) ∨ r = .conn i)
      (fun r => ∃ j, i + 1 ≤ j ∧ r = .conn j) (log ++ [.acquire (.conn i)]) := by
    refine Kept.acquire h ⟨i, Nat.le_refl i, rfl⟩ trivial (fun _ => Iff.rfl) ?_
    rintro r ⟨j, hj, rfl⟩
    refine ⟨⟨j, by omega, rfl⟩, fun he => ?_⟩
    obtain rfl := PairRes.conn.inj he
    omega
  refine hopen.release (.inr rfl) trivial (fun r => ?_) fun _ hx => hx
  cases r <;> simp

/-- The accept loop closes what it does not return. -/
theorem Waiting.acceptLoop (deadline : String) (mine : Endpoint) (accepts : List (Except String (Option Endpoint)))
    {i : Nat} {log : List (Op PairRes)} (h : Waiting i log) :
    Closed (· = .listener) (Throws.exec (acceptLoop deadline mine i accepts) log) := by
  induction accepts generalizing i log with
  | nil => exact h.fail _
  | cons a rest ih =>
    rcases a with e | (_ | ra)
    · exact h.fail _
    · exact ih h.drop
    · rw [Shim.acceptLoop]
      cases hours : isOurs mine.port ra with
      | true =>
        refine Kept.acquire h ⟨i, Nat.le_refl i, rfl⟩ trivial (fun r => ?_) fun _ hx => hx.elim
        show (r = .listener ∨ r = .raw ∨ r = .conn i) ↔ (r = .listener ∨ r = .raw) ∨ r = .conn i
        exact or_assoc.symm
      | false => exact ih h.drop

theorem Waiting.orFail {α : Type} {i : Nat} {log : List (Op PairRes)} (h : Waiting i log) (words : String)
    (r : Except String α) {k : α → PairM GoEnd}
    (hk : ∀ a, r = .ok a → Closed (· = .listener) (Throws.exec (k a) log)) :
    Closed (· = .listener) (Throws.exec (Shim.orFail words r >>= k) log) := by
  cases r with
  | error e => exact h.fail _
  | ok a => exact hk a rfl

theorem Waiting.pairUp (o : PairOutcome) {log : List (Op PairRes)} (h : Waiting 0 log) :
    Closed (· = .listener) (Throws.exec (pairUp o) log) :=
  h.orFail _ _ fun _ _ => h.orFail _ _ fun _ _ => h.orFail _ _ fun _ _ => h.orFail _ _ fun mine _ =>
    h.orFail _ _ fun _ _ => h.acceptLoop o.deadline mine o.accepts

/-- The listener is closed last. -/
theorem Closed.closeListener {x : Except String GoEnd × List (Op PairRes)} (h : Closed (· = .listener) x) :
    Closed (fun _ => False) (x.1, x.2 ++ [.release .listener]) := by
  refine Kept.release h (.inl rfl) trivial (fun r => ?_) fun _ hx => hx
  obtain ⟨res, log⟩ := x
  cases res with
  | ok g => cases r <;> simp [Left]
  | error e => simp [Left]

theorem listening_closed (o : PairOutcome) :
    Closed (· = .listener) (Throws.exec (listening o) [.acquire .listener]) := by
  have hempty : Kept (fun _ _ => True) (fun _ => False) (fun _ => True) ([] : List (Op PairRes)) :=
    Kept.nil fun _ => id
  have hlisten : ∀ e, Closed (· = .listener) (.error e, [.acquire .listener]) := fun e =>
    hempty.acquire trivial trivial (fun r => by simp [Left]) fun _ hx => hx.elim
  rw [listening]
  split
  case h_1 t _ => exact hlisten _
  case h_2 =>
    cases o.socket with
    | error e => exact hlisten _
    | ok _ =>
      refine Waiting.pairUp o ?_
      have hl : Kept (fun _ _ => True) (· = .listener) (· ≠ .listener) ([.acquire .listener] : List (Op PairRes)) :=
        hempty.acquire trivial trivial (fun r => by simp) fun _ hx => ⟨trivial, hx⟩
      refine hl.acquire (by simp) trivial (fun _ => Iff.rfl) ?_
      rintro r ⟨j, -, rfl⟩
      exact ⟨by simp, by simp⟩

/-- `newPair` leaves open what it returns, and nothing when it fails. -/
theorem newPair_closed (o : PairOutcome) : Closed (fun _ => False) (Throws.exec (newPair o) []) := by
  rw [newPair]
  cases o.listen with
  | error e => exact Kept.nil fun r => by rintro (h | h) <;> exact h
  | ok _ => exact (listening_closed o).closeListener

/-! ## What is returned -/

/-- The accept loop goes on after `a`. -/
def Dropped (port : UInt16) : Except String (Option Endpoint) → Prop
  | .ok (some ra) => isOurs port ra = false
  | .ok none => True
  | .error _ => False

/-- `ra` is the first that the loop takes. -/
def Taken (port : UInt16) (accepts : List (Except String (Option Endpoint))) (i : Nat) (ra : Endpoint) : Prop :=
  ∃ pre rest, accepts = pre ++ .ok (some ra) :: rest ∧ i = pre.length ∧ isOurs port ra = true ∧
    ∀ a ∈ pre, Dropped port a

theorem taken_cons {port : UInt16} {a : Except String (Option Endpoint)} (ha : Dropped port a)
    {rest : List (Except String (Option Endpoint))} {i : Nat} {ra : Endpoint} :
    Taken port (a :: rest) i ra ↔ ∃ j, i = j + 1 ∧ Taken port rest j ra := by
  constructor
  · rintro ⟨pre, rest', he, rfl, ho, hd⟩
    cases pre with
    | nil =>
      obtain ⟨rfl, -⟩ := List.cons.inj he
      exact absurd (ho.symm.trans ha) (by decide)
    | cons b pre =>
      obtain ⟨rfl, rfl⟩ := List.cons.inj he
      exact ⟨pre.length, rfl, pre, rest', rfl, rfl, ho, fun x hx => hd x (List.mem_cons_of_mem _ hx)⟩
  · rintro ⟨j, rfl, pre, rest', rfl, rfl, ho, hd⟩
    exact ⟨a :: pre, rest', rfl, rfl, ho, List.forall_mem_cons.mpr ⟨ha, hd⟩⟩

/-- The head is taken when it is ours, and nothing after an error is. -/
theorem taken_head {port : UInt16} {a : Except String (Option Endpoint)} (ha : ¬ Dropped port a)
    {rest : List (Except String (Option Endpoint))} {i : Nat} {ra : Endpoint} :
    Taken port (a :: rest) i ra ↔ i = 0 ∧ a = .ok (some ra) ∧ isOurs port ra = true := by
  constructor
  · rintro ⟨pre, rest', he, rfl, ho, hd⟩
    cases pre with
    | nil => exact ⟨rfl, (List.cons.inj he).1, ho⟩
    | cons b pre =>
      obtain ⟨rfl, -⟩ := List.cons.inj he
      exact absurd (hd a List.mem_cons_self) ha
  · rintro ⟨rfl, rfl, ho⟩
    exact ⟨[], rest, rfl, rfl, ho, fun x hx => by cases hx⟩

/-- A connection that is dropped moves the count on by one. -/
theorem taken_next {port : UInt16} {a : Except String (Option Endpoint)} (ha : Dropped port a)
    {rest : List (Except String (Option Endpoint))} {n i : Nat} {ra : Endpoint} :
    (∃ j, n = i + 1 + j ∧ Taken port rest j ra) ↔ ∃ j, n = i + j ∧ Taken port (a :: rest) j ra := by
  constructor
  · rintro ⟨j, hj, ht⟩
    exact ⟨j + 1, by omega, (taken_cons ha).mpr ⟨j, rfl, ht⟩⟩
  · rintro ⟨j, hj, ht⟩
    obtain ⟨k, rfl, hk⟩ := (taken_cons ha).mp ht
    exact ⟨k, by omega, hk⟩

theorem acceptLoop_ok_iff (deadline : String) (mine : Endpoint) (accepts : List (Except String (Option Endpoint)))
    (i : Nat) (log : List (Op PairRes)) (g : GoEnd) :
    (Throws.exec (acceptLoop deadline mine i accepts) log).1 = .ok g ↔
      ∃ j, g.index = i + j ∧ Taken mine.port accepts j g.remote := by
  induction accepts generalizing i log with
  | nil =>
    refine iff_of_false (by intro h; cases h) ?_
    rintro ⟨j, -, pre, rest, he, -⟩
    cases pre <;> cases he
  | cons a rest ih =>
    rcases a with e | (_ | ra)
    · refine iff_of_false (by intro h; cases h) ?_
      rintro ⟨j, -, ht⟩
      exact absurd ((taken_head id).mp ht).2.1 (by simp)
    · exact (ih (i + 1) _).trans (taken_next (show Dropped mine.port (.ok none) from trivial))
    · rw [acceptLoop]
      cases hours : isOurs mine.port ra with
      | false => exact (ih (i + 1) _).trans (taken_next (show Dropped mine.port (.ok (some ra)) from hours))
      | true =>
        have hnot : ¬ Dropped mine.port (.ok (some ra)) := fun hd => by
          rw [Dropped, hours] at hd
          cases hd
        constructor
        · intro h
          obtain rfl : ⟨i, ra⟩ = g := Except.ok.inj h
          exact ⟨0, rfl, (taken_head hnot).mpr ⟨rfl, rfl, hours⟩⟩
        · rintro ⟨j, hj, ht⟩
          obtain ⟨rfl, he, -⟩ := (taken_head hnot).mp ht
          obtain ⟨n, remote⟩ := g
          obtain rfl : ra = remote := Option.some.inj (Except.ok.inj he)
          obtain rfl : n = i := hj
          rfl

/-- The calls before the accept loop all succeed, and the raw socket is at `mine`. -/
structure PairOutcome.Reaches (o : PairOutcome) (mine : Endpoint) : Prop where
  listen : o.listen = .ok ()
  tcp : o.otherListener = none
  socket : o.socket = .ok ()
  connect : o.connect = .ok ()
  noDelay : o.noDelay = .ok ()
  sockname : o.getsockname = .ok (.ok mine)
  setDeadline : o.setDeadline = .ok ()

theorem orFail_ok_iff {α : Type} (words : String) (r : Except String α) (k : α → PairM GoEnd)
    (log : List (Op PairRes)) (g : GoEnd) :
    (Throws.exec (orFail words r >>= k) log).1 = .ok g ↔ ∃ a, r = .ok a ∧ (Throws.exec (k a) log).1 = .ok g := by
  cases r with
  | error e => exact iff_of_false (by intro h; cases h) (by rintro ⟨a, ha, -⟩; cases ha)
  | ok a => exact ⟨fun h => ⟨a, rfl, h⟩, by rintro ⟨_, ⟨rfl⟩, h⟩; exact h⟩

theorem orThrow_ok_iff {α : Type} (words : String) (r : Except String α) (k : α → PairM GoEnd)
    (log : List (Op PairRes)) (g : GoEnd) :
    (Throws.exec (orThrow words r >>= k) log).1 = .ok g ↔ ∃ a, r = .ok a ∧ (Throws.exec (k a) log).1 = .ok g := by
  cases r with
  | error e => exact iff_of_false (by intro h; cases h) (by rintro ⟨a, ha, -⟩; cases ha)
  | ok a => exact ⟨fun h => ⟨a, rfl, h⟩, by rintro ⟨_, ⟨rfl⟩, h⟩; exact h⟩

theorem pairUp_ok_iff (o : PairOutcome) (log : List (Op PairRes)) (g : GoEnd) :
    (Throws.exec (pairUp o) log).1 = .ok g ↔
      o.connect = .ok () ∧ o.noDelay = .ok () ∧ o.setDeadline = .ok () ∧
        ∃ mine, o.getsockname = .ok (.ok mine) ∧ Taken mine.port o.accepts g.index g.remote := by
  simp only [pairUp, orFail_ok_iff, acceptLoop_ok_iff, Nat.zero_add]
  constructor
  · rintro ⟨_, hc, _, hn, lsa, hl, mine, rfl, _, hd, j, rfl, ht⟩
    exact ⟨hc, hn, hd, mine, hl, ht⟩
  · rintro ⟨hc, hn, hd, mine, hl, ht⟩
    exact ⟨(), hc, (), hn, _, hl, mine, rfl, (), hd, _, rfl, ht⟩

theorem newPair_ok_iff (o : PairOutcome) (g : GoEnd) :
    (Throws.exec (newPair o) []).1 = .ok g ↔
      ∃ mine, o.Reaches mine ∧ Taken mine.port o.accepts g.index g.remote := by
  have hlisten : (Throws.exec (listening o) [.acquire .listener]).1 = .ok g ↔
      o.otherListener = none ∧ o.socket = .ok () ∧
        (Throws.exec (pairUp o) [.acquire .listener, .acquire .raw]).1 = .ok g := by
    rw [listening]
    split
    case h_1 t ht =>
      refine iff_of_false (by intro h; cases h) ?_
      rintro ⟨hn, -⟩
      rw [ht] at hn
      cases hn
    case h_2 hn =>
      rw [orThrow_ok_iff]
      exact ⟨fun ⟨_, hs, h⟩ => ⟨hn, hs, h⟩, fun ⟨_, hs, h⟩ => ⟨(), hs, h⟩⟩
  rw [newPair, orThrow_ok_iff]
  constructor
  · rintro ⟨_, hl, h⟩
    obtain ⟨ht, hs, h⟩ := hlisten.mp h
    obtain ⟨hc, hn, hd, mine, hm, htk⟩ := (pairUp_ok_iff o _ g).mp h
    exact ⟨mine, ⟨hl, ht, hs, hc, hn, hm, hd⟩, htk⟩
  · rintro ⟨mine, ⟨hl, ht, hs, hc, hn, hm, hd⟩, htk⟩
    exact ⟨(), hl, hlisten.mpr ⟨ht, hs, (pairUp_ok_iff o _ g).mpr ⟨hc, hn, hd, mine, hm, htk⟩⟩⟩

/-! ## Whose connection it is -/

/-- A connection from another loopback address, with the port of the raw socket,
comes before ours: the ones accepted before it are dropped. -/
def Overtaken (port : UInt16) (accepts : List (Except String (Option Endpoint))) : Prop :=
  ∃ pre ra rest, accepts = pre ++ .ok (some ra) :: rest ∧ ra.ip.isLoopback = true ∧ ra.ip ≠ localhost ∧
    ra.port = port ∧ ∀ a ∈ pre, Dropped port a

/-- The Go end is the other end of the raw socket, and everything else that was
opened has been closed, once. -/
structure PairOurs (o : PairOutcome) : Prop where
  ours : ∀ g, (Throws.exec (newPair o) []).1 = .ok g →
    ∃ mine, o.getsockname = .ok (.ok mine) ∧ g.remote = ⟨localhost, mine.port⟩
  left : ∀ r, Held (Throws.exec (newPair o) []).2 r ↔ Left (Throws.exec (newPair o) []).1 r
  closed : ∀ r, ¬ Left (Throws.exec (newPair o) []).1 r → ReleasedOnce (Throws.exec (newPair o) []).2 r

theorem pair_ours_iff (o : PairOutcome) :
    PairOurs o ↔ ∀ mine, o.Reaches mine → ¬ Overtaken mine.port o.accepts := by
  constructor
  · rintro ⟨hours, -, -⟩ mine hr ⟨pre, ra, rest, he, hloop, hne, hport, hd⟩
    have hok : (Throws.exec (newPair o) []).1 = .ok ⟨pre.length, ra⟩ :=
      (newPair_ok_iff o _).mpr ⟨mine, hr, pre, rest, he, rfl, by simp [isOurs, hloop, hport], hd⟩
    obtain ⟨m, -, hra⟩ := hours _ hok
    exact hne (congrArg Endpoint.ip hra)
  · intro h
    have hc := newPair_closed o
    refine ⟨fun g hg => ?_, fun r => ?_, fun r hr => ?_⟩
    · obtain ⟨mine, hr, pre, rest, he, -, ho, hd⟩ := (newPair_ok_iff o g).mp hg
      simp only [isOurs, Bool.and_eq_true, beq_iff_eq] at ho
      obtain ⟨⟨ip, port⟩, hip⟩ : ∃ ra, g.remote = ra := ⟨_, rfl⟩
      rw [hip] at ho he
      obtain ⟨hloop, rfl⟩ := ho
      refine ⟨mine, hr.sockname, hip.trans ?_⟩
      have hlocal : ip = localhost := by
        by_contra hne
        exact h mine hr ⟨pre, _, rest, he, hloop, hne, rfl, hd⟩
      rw [hlocal]
    · rw [← hc.held]
      simp
    · exact hc.releasedOnce (by simpa using hr)

/-- Our own connection comes second, after one from 127.0.0.2 at its port. -/
def impostorFirst : PairOutcome where
  listen := .ok ()
  otherListener := none
  socket := .ok ()
  connect := .ok ()
  noDelay := .ok ()
  getsockname := .ok (.ok ⟨localhost, 50000⟩)
  setDeadline := .ok ()
  accepts := [.ok (some ⟨⟨127, 0, 0, 2⟩, 50000⟩), .ok (some ⟨localhost, 50000⟩)]
  deadline := "i/o timeout"

theorem pair_hijacked :
    (Throws.exec (newPair impostorFirst) []).1 = .ok ⟨0, ⟨127, 0, 0, 2⟩, 50000⟩ ∧ ¬ ∀ o, PairOurs o := by
  refine ⟨rfl, fun h => ?_⟩
  obtain ⟨mine, hm, he⟩ := (h impostorFirst).ours ⟨0, ⟨127, 0, 0, 2⟩, 50000⟩ rfl
  have hip : (⟨127, 0, 0, 2⟩ : IPv4) = localhost := congrArg Endpoint.ip he
  exact absurd hip (by decide)

end ErplTunnel.Shim

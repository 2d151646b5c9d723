import ErplTunnel.Pump.MeshForwarder
import ErplTunnel.Pump.SshExporter
import ErplTunnel.Pump.ForwardData

/-!
# The pumps between their endpoints

A pump together with what is around it (`Sys`): each direction has bytes
waiting at its source and room at its sink, and the two ends send, end and
read on whenever they like. A pump is blocked (`Blocked`) when it is at a call
or in a retry loop that only one direction can get it out of, that direction
cannot move, and the other one could: it has bytes at its source and room at
its sink.

All three can be blocked (`pumps_block`), since each serves both directions
from one thread. They are not in a run in which every chunk that is taken in
fits the room there is for it, and no read is made that has to wait
(`not_blocked_of_smooth`, by the invariant `Fits`).
-/

namespace ErplTunnel.Pump

open Relay

/-- One direction: the bytes waiting at its source, the room at its sink, and
whether the source has ended. -/
structure Link where
  avail : Nat
  room : Nat
  ended : Bool
  deriving DecidableEq, Repr

namespace Link

def empty : Link := ⟨0, 0, false⟩

/-- A read does not have to wait. -/
def Readable (l : Link) : Prop := 0 < l.avail ∨ l.ended = true

instance (l : Link) : Decidable l.Readable := inferInstanceAs (Decidable (_ ∨ _))

end Link

/-- What an endpoint does: send `n` bytes, end its stream, or read `n` bytes. -/
inductive Act where
  | send (n : Nat)
  | finish
  | drain (n : Nat)
  deriving DecidableEq, Repr

def Act.apply : Act → Link → Link
  | send n, l => { l with avail := l.avail + n }
  | finish, l => { l with ended := true }
  | drain n, l => { l with room := l.room + n }

/-- How the calls of a pump behave, direction by direction: whether a read
waits for bytes, may return none before the end, and whether a write waits for
room, or may take nothing. -/
structure Wiring where
  readWaits : Dir → Bool
  emptyReads : Dir → Bool
  writeWaits : Dir → Bool
  zeroWrites : Dir → Bool

/-- The result of a call is one its endpoint allows. -/
def Wiring.permits (w : Wiring) (l : Dir → Link) : Ev → Bool
  | .read d (.data []) => (l d).avail = 0 ∧ ((l d).ended ∨ w.emptyReads d)
  | .read d (.data bs) => bs.length ≤ (l d).avail
  | .read d .again => ¬ w.readWaits d ∧ (l d).avail = 0 ∧ ¬ (l d).ended
  | .write d (.count k) => k ≤ (l d).room ∧ (k = 0 → w.zeroWrites d)
  | .write d .again => ¬ w.writeWaits d ∧ (l d).room = 0
  | .eof b => b = decide ((l .down).ended ∧ (l .down).avail = 0)
  | .select (.ready near far) => (near → (l .up).Readable) ∧ (far → (l .down).Readable)
  | _ => true

/-- The bytes the sink of `d` takes. -/
def Ev.written (d : Dir) : Ev → Nat
  | .write d' (.count k) => if d' = d then k else 0
  | _ => 0

/-- What a call does to its endpoint. -/
def Link.react (l : Link) (d : Dir) (e : Ev) : Link :=
  { l with avail := l.avail - (e.received d).length, room := l.room - e.written d }

/-- A pump and its endpoints. -/
structure Sys (Pc : Type) where
  pump : St Pc
  link : Dir → Link

/-- What happens next: an endpoint acts, or the pump does. -/
inductive In where
  | env (d : Dir) (a : Act)
  | pump (e : Ev)
  deriving DecidableEq, Repr

/-- What a pump waits for: room at the sink of `d`, or bytes from its source. -/
inductive Wait where
  | sink (d : Dir)
  | source (d : Dir)
  deriving DecidableEq, Repr

def Wait.dir : Wait → Dir
  | sink d | source d => d

/-- It does not come as things are. -/
def Wait.Stuck (l : Dir → Link) : Wait → Prop
  | sink d => (l d).room = 0
  | source d => ¬ (l d).Readable

instance (l : Dir → Link) : DecidablePred (Wait.Stuck l)
  | .sink d => inferInstanceAs (Decidable ((l d).room = 0))
  | .source d => inferInstanceAs (Decidable (¬ (l d).Readable))

section

variable {Pc : Type}

/-- A step of the system. -/
def sysStep (w : Wiring) (step : St Pc → Ev → Option (St Pc)) (s : Sys Pc) : In → Option (Sys Pc)
  | .env d a => some { s with link := Function.update s.link d (a.apply (s.link d)) }
  | .pump e =>
    if w.permits s.link e then (step s.pump e).map fun p => ⟨p, fun d => (s.link d).react d e⟩ else none

/-- A pump that waits on one direction, which does not move, while the other
one could. -/
def Blocked (waits : Pc → Option Wait) (s : Sys Pc) : Prop :=
  s.pump.running = true ∧ ∃ w, waits s.pump.pc = some w ∧ w.Stuck s.link ∧
    0 < (s.link w.dir.opp).avail ∧ 0 < (s.link w.dir.opp).room

/-- The pump waits for room at the sink of `d` when there is none. -/
def WaitsFor (waits : Pc → Option Wait) (d : Dir) : Prop := ∃ pc, waits pc = some (.sink d)

/-- Where the pump would wait for room it takes in only what there is room
for, and it makes no read that has to wait. -/
def Smooth (step : St Pc → Ev → Option (St Pc)) (waits : Pc → Option Wait) (s : Sys Pc) : In → Prop
  | .env _ _ => True
  | .pump e => (∀ d, WaitsFor waits d → (e.received d).length ≤ (s.link d).room) ∧
    ∀ p d, step s.pump e = some p → waits p.pc = some (.source d) → ((s.link d).react d e).Readable

/-- `need pc d` is how much room a pump at `pc` needs at the sink of `d` to be
done with its chunk: it goes down by what the sink takes, grows by nothing but
a read, of which there is none meanwhile, and is positive where the pump waits
for room. -/
structure Needs (step : St Pc → Ev → Option (St Pc)) (waits : Pc → Option Wait)
    (need : Pc → Dir → Nat) : Prop where
  move : ∀ s e s', step s e = some s' → ∀ d, need s'.pc d + e.written d ≤ need s.pc d + (e.received d).length
  read : ∀ s e s', step s e = some s' → ∀ d, e.received d ≠ [] → need s.pc d = 0
  wait : ∀ pc d, waits pc = some (.sink d) → 0 < need pc d

/-- Every chunk fits, and no read waits. -/
structure Fits (waits : Pc → Option Wait) (need : Pc → Dir → Nat) (s : Sys Pc) : Prop where
  sink : ∀ d, WaitsFor waits d → need s.pump.pc d ≤ (s.link d).room
  source : ∀ d, waits s.pump.pc = some (.source d) → (s.link d).Readable

variable {w : Wiring} {step : St Pc → Ev → Option (St Pc)} {waits : Pc → Option Wait} {need : Pc → Dir → Nat}

theorem Fits.not_blocked (hn : Needs step waits need) {s : Sys Pc} (h : Fits waits need s) :
    ¬ Blocked waits s := by
  rintro ⟨-, w, hw, hs, -⟩
  cases w with
  | sink d =>
    have := hn.wait _ _ hw
    have := h.sink d ⟨_, hw⟩
    simp only [Wait.Stuck] at hs
    omega
  | source d => exact hs (h.source d hw)

theorem Fits.env {s : Sys Pc} (h : Fits waits need s) (d : Dir) (a : Act) :
    Fits waits need { s with link := Function.update s.link d (a.apply (s.link d)) } where
  sink c hf := by
    refine Nat.le_trans (h.sink c hf) ?_
    by_cases hc : c = d
    · subst hc
      cases a <;> simp [Act.apply]
    · simp [Function.update_of_ne hc]
  source c hw := by
    have hr := h.source c hw
    by_cases hc : c = d
    · subst hc
      simp only [Function.update_self]
      cases a with
      | send n => exact hr.imp (fun ha => by simp only [Act.apply]; omega) id
      | finish => exact .inr rfl
      | drain n => exact hr
    · simpa [Function.update_of_ne hc] using hr

theorem Fits.sysStep (hn : Needs step waits need) {s s' : Sys Pc} {i : In} (h : Fits waits need s)
    (hi : Smooth step waits s i) (hs : Pump.sysStep w step s i = some s') :
    Fits waits need s' := by
  cases i with
  | env d a => obtain rfl := Option.some.inj hs; exact h.env d a
  | pump e =>
    simp only [Pump.sysStep] at hs
    split at hs
    · obtain ⟨p, hp, rfl⟩ := Option.map_eq_some_iff.mp hs
      refine ⟨fun d hf => ?_, fun d hw => hi.2 p d hp hw⟩
      have hmove := hn.move s.pump e p hp d
      have hroom := hi.1 d hf
      have hsink := h.sink d hf
      simp only [Link.react]
      by_cases hr : e.received d = []
      · simp only [hr, List.length_nil] at hmove
        omega
      · have hneed := hn.read s.pump e p hp d hr
        omega
    · cases hs

/-- In a run whose steps are smooth the pump is never blocked. -/
theorem not_blocked_of_smooth (hn : Needs step waits need) {s s' : Sys Pc} {is : List In}
    (h : Lts.Run (sysStep w step) s is s') (hs : Lts.Along (sysStep w step) (Smooth step waits) s is)
    (h₀ : ∀ d, need s.pump.pc d = 0) (hw : waits s.pump.pc = none) : ¬ Blocked waits s' := by
  have h₀ : Fits waits need s := ⟨fun d _ => by simp [h₀ d], fun d hd => by rw [hw] at hd; cases hd⟩
  exact (h.invAlong (fun t i u ht hi hu => ht.sysStep hn hi hu) hs h₀).not_blocked hn

/-- Where a wait is stuck the endpoints can block the pump. -/
theorem blocked_of_stuck {s : Sys Pc} {v : Wait} (hr : s.pump.running = true) (hv : waits s.pump.pc = some v)
    (hst : v.Stuck s.link) : ∃ is t, Lts.Run (sysStep w step) s is t ∧ Blocked waits t := by
  refine ⟨[.env v.dir.opp (.send 1), .env v.dir.opp (.drain 1)], _, rfl, hr, v, hv, ?_, ?_, ?_⟩
  · cases v with
    | sink d => simpa [Wait.Stuck, Wait.dir, Function.update_of_ne (d.opp_ne).symm] using hst
    | source d => simpa [Wait.Stuck, Wait.dir, Function.update_of_ne (d.opp_ne).symm] using hst
  · simp [Act.apply]
  · simp [Act.apply]

/-- A write loop: at `test k` with bytes left it goes on to write, and what
the sink takes brings it back to the test. -/
structure Loop (step : St Pc → Ev → Option (St Pc)) (d : Dir) (n : Nat) (test write : Nat → Pc) : Prop where
  enter : ∀ u k, u.pc = test k → u.running = true → k < n → step u .test = some (u.goto (write k))
  write : ∀ u k j, u.pc = write k → 0 < j → j ≤ n - k →
    step u (.write d (.count j)) = some (u.give d k j (test (k + j)))

/-- With too little room for its bytes the loop comes to a point where there is
none, and has bytes left. -/
theorem Loop.fill {d : Dir} {n : Nat} {test write : Nat → Pc} (hl : Loop step d n test write) {s : Sys Pc}
    (hpc : s.pump.pc = test 0) (hr : s.pump.running = true) (hlt : (s.link d).room < n) :
    ∃ is t k, Lts.Run (sysStep w step) s is t ∧ t.pump.running = true ∧ t.pump.pc = test k ∧ k < n ∧
      (t.link d).room = 0 := by
  rcases Nat.eq_zero_or_pos (s.link d).room with h0 | hpos
  · exact ⟨[], s, 0, rfl, hr, hpc, by omega, h0⟩
  · have htest := hl.enter s.pump 0 hpc hr (by omega)
    have hwrite := hl.write (s.pump.goto (write 0)) 0 (s.link d).room rfl hpos (by omega)
    have hne : (s.link d).room ≠ 0 := by omega
    refine ⟨[.pump .test, .pump (.write d (.count (s.link d).room))],
      ⟨(s.pump.goto (write 0)).give d 0 (s.link d).room (test (0 + (s.link d).room)),
        fun c => (s.link c).react c (.write d (.count (s.link d).room))⟩, 0 + (s.link d).room, ?_, ?_⟩
    · refine Lts.run_cons.mpr ⟨⟨s.pump.goto (write 0), s.link⟩, ?_, Lts.run_cons.mpr ⟨_, ?_, Lts.run_nil.mpr rfl⟩⟩
      · simp [sysStep, Wiring.permits, htest, Link.react, Ev.received, Ev.written]
      · simp [sysStep, Wiring.permits, hwrite, hne]
    · exact ⟨hr, rfl, by omega, by simp [Link.react, Ev.written]⟩

/-- A pump that has taken in more than there is room for fills its sink and
waits. -/
def Fills (w : Wiring) (step : St Pc → Ev → Option (St Pc)) (waits : Pc → Option Wait) : Prop :=
  ∀ s e s' d, sysStep w step s (.pump e) = some s' → WaitsFor waits d →
    (s.link d).room < (e.received d).length → s'.pump.running = true →
    ∃ is t, Lts.Run (sysStep w step) s' is t ∧ t.pump.running = true ∧
      waits t.pump.pc = some (.sink d) ∧ (t.link d).room = 0

/-- It is enough to follow the pump from where it has taken in the bytes. -/
theorem fills_of_read (h : ∀ (p : St Pc) (bs : List Byte) (q : St Pc) (link : Dir → Link) (d : Dir),
      WaitsFor waits d → step p (.read d (.data bs)) = some q → bs ≠ [] → (link d).room < bs.length →
      q.running = true → ∃ is t, Lts.Run (sysStep w step) ⟨q, link⟩ is t ∧ t.pump.running = true ∧
        waits t.pump.pc = some (.sink d) ∧ (t.link d).room = 0) : Fills w step waits := by
  intro s e s' d hs hd hlt hr
  obtain ⟨bs, rfl, hne⟩ := Ev.eq_read_of_received (List.ne_nil_of_length_pos (Nat.zero_lt_of_lt hlt))
  simp only [Ev.received, if_true] at hlt
  simp only [sysStep] at hs
  split at hs
  · obtain ⟨q, hq, rfl⟩ := Option.map_eq_some_iff.mp hs
    exact h s.pump bs q _ d hd hq hne (by simpa [Link.react, Ev.written] using hlt) hr
  · cases hs

/-- Any other step can be followed by some that block the pump. -/
theorem blocks_of_not_smooth (hf : Fills w step waits) {s s' : Sys Pc} {i : In}
    (hs : sysStep w step s i = some s') (hr : s'.pump.running = true) (hi : ¬ Smooth step waits s i) :
    ∃ is t, Lts.Run (sysStep w step) s' is t ∧ Blocked waits t := by
  cases i with
  | env d a => exact absurd trivial hi
  | pump e =>
    simp only [Smooth, not_and_or, not_forall] at hi
    rcases hi with ⟨d, hd, hlt⟩ | ⟨p, d, hp, hv, hn⟩
    · obtain ⟨is, t, ht, hr, hv, hroom⟩ := hf s e s' d hs hd (by omega) hr
      obtain ⟨js, u, hu, hb⟩ : ∃ js u, Lts.Run (sysStep w step) t js u ∧ Blocked waits u :=
        blocked_of_stuck hr hv hroom
      exact ⟨is ++ js, u, Lts.run_append.mpr ⟨t, ht, hu⟩, hb⟩
    · simp only [sysStep, hp, Option.map_some] at hs
      split at hs
      · obtain rfl := Option.some.inj hs
        exact blocked_of_stuck hr hv hn
      · cases hs

/-- An event that lets a pump go whatever its endpoints do. -/
def Ev.releases : Ev → Bool
  | .shutdown | .read _ .error | .write _ .error => true
  | _ => false

/-- While the wait is stuck the pump goes round in it, and moves nothing. -/
def Holds (w : Wiring) (step : St Pc → Ev → Option (St Pc)) (waits : Pc → Option Wait) : Prop :=
  ∀ s e s' v l, step s e = some s' → s.running = true → waits s.pc = some v → v.Stuck l → w.permits l e = true →
    e.releases = false → waits s'.pc = some v ∧ ∀ d, e.received d = [] ∧ e.written d = 0

/-- A blocked pump stays blocked until an endpoint acts, the flag goes down or
a call fails. -/
theorem Blocked.stays (hw : Holds w step waits) (hm : ∀ s e s', step s e = some s' → s.Move e s')
    {s s' : Sys Pc} {e : Ev} (h : Blocked waits s) (hs : sysStep w step s (.pump e) = some s')
    (he : e.releases = false) : Blocked waits s' := by
  simp only [sysStep] at hs
  split at hs
  · rename_i hp
    obtain ⟨p, hp', rfl⟩ := Option.map_eq_some_iff.mp hs
    obtain ⟨hr, v, hv, hst, ha, hroom⟩ := h
    obtain ⟨hv', hz⟩ := hw s.pump e p v s.link hp' hr hv hst hp he
    have hl : (fun d => (s.link d).react d e) = s.link := by
      funext d
      simp [Link.react, hz d]
    refine ⟨?_, v, hv', by rw [hl]; exact hst, by rw [hl]; exact ha, by rw [hl]; exact hroom⟩
    have := (hm s.pump e p hp').running_eq_false
    by_contra hf
    rcases this.mp (by simpa using hf) with h | h
    · rw [hr] at h; cases h
    · rw [h] at he; cases he
  · cases hs

end

/-! ## The three pumps -/

/-- `SendAll` waits for room until its bytes are out. -/
def sendWait (d : Dir) (n sent : Nat) : Option Wait := if sent < n then some (.sink d) else none

theorem sendWait_eq_some {d : Dir} {n sent : Nat} {v : Wait} :
    sendWait d n sent = some v ↔ sent < n ∧ v = .sink d := by
  unfold sendWait
  split
  · rename_i h; simp [h, eq_comm]
  · rename_i h; simp [h]

section

variable {Pc : Type} {inCall : SendPc → Nat → Pc} {ret : Bool → Pc} {d : Dir} {len sent : Nat} {p : SendPc}
  {s s' : St Pc} {e : Ev}

theorem SendStep.need_le {need : Pc → Dir → Nat} (hs : SendStep inCall ret d len s p sent e s')
    (hin : ∀ q k c, need (inCall q k) c = if c = d then len - k else 0) (hret : ∀ ok c, need (ret ok) c = 0)
    (c : Dir) : need s'.pc c + e.written c ≤ need (inCall p sent) c + (e.received c).length := by
  cases hs with
  | more | block | wake => simp [St.goto, hin, Ev.written]
  | stop | all => simp [St.goto, hret, Ev.written]
  | fail he => rcases he with rfl | rfl <;> simp [St.goto, hret, Ev.written]
  | accept hk hle =>
    by_cases hc : c = d
    · subst hc
      simp only [St.give, hin, Ev.written, if_true]
      omega
    · simp [St.give, hin, Ev.written, hc, Ne.symm hc]

/-- `SendAll` is a write loop. -/
theorem loop_sendAll {step : St Pc → Ev → Option (St Pc)}
    (hs : ∀ q k u e, u.pc = inCall q k → e ≠ .shutdown → step u e = sendAll inCall ret d len q k u e) :
    Loop step d len (inCall .test) (inCall .send) where
  enter u k hpc hr hlt := by
    rw [hs .test k u .test hpc (by decide)]
    simp [sendAll, hr, hlt]
  write u k j hpc hj hle := by
    rw [hs .send k u _ hpc (by simp)]
    simp [sendAll, hj, hle]

/-- With no room `SendAll` goes round without sending anything. -/
theorem SendStep.holds {w : Wiring} {l : Dir → Link} (hs : SendStep inCall ret d len s p sent e s')
    (hlt : sent < len) (hr : s.running = true) (hz : w.zeroWrites d = false) (hroom : (l d).room = 0)
    (hp : w.permits l e = true) (he : e.releases = false) :
    (∃ q, s'.pc = inCall q sent) ∧ ∀ c, e.received c = [] ∧ e.written c = 0 := by
  cases hs with
  | more | block | wake => exact ⟨⟨_, rfl⟩, fun _ => ⟨rfl, rfl⟩⟩
  | stop _ hr' => rw [hr] at hr'; cases hr'
  | all hge => omega
  | accept hk =>
    simp only [Wiring.permits, hroom, decide_eq_true_eq] at hp
    omega
  | fail hf =>
    rcases hf with rfl | rfl
    · simp [Wiring.permits, hz] at hp
    · cases he

end

namespace MeshForwarder

/-- Two sockets: a send to a full one waits or answers would-block. -/
def wiring : Wiring where
  readWaits _ := true
  emptyReads _ := false
  writeWaits _ := false
  zeroWrites _ := false

def waits : Pc → Option Wait
  | .sendAll d _ n _ sent => sendWait d n sent
  | _ => none

def need : Pc → Dir → Nat
  | .sendAll d _ n _ sent, c => if c = d then n - sent else 0
  | _, _ => 0

theorem need_next (m : Bool) (c : Dir) : need (next m) c = 0 := by
  cases m <;> rfl

theorem needs : Needs step waits need where
  move s e s' h c := by
    cases step_cases h with
    | shutdown => exact Nat.le_refl _
    | @chunk d m bs hpc =>
      by_cases hc : c = d
      · subst hc; simp [hpc, St.take, need, Ev.written, Ev.received]
      · simp [St.take, need, Ev.written, hc]
    | send hpc hs =>
      rw [hpc]
      refine hs.need_le (fun _ _ _ => rfl) (fun ok c => ?_) c
      cases ok
      · rfl
      · exact need_next _ c
    | mesh hpc => simp [St.goto, need_next, Ev.written]
    | _ => exact Nat.zero_le _
  read s e s' h c hr := by
    obtain ⟨bs, rfl, hne⟩ := Ev.eq_read_of_received hr
    cases step_cases h with
    | finished => exact absurd rfl hne
    | chunk hpc => rw [hpc]; rfl
    | recvFailed hpc => rw [hpc]; rfl
    | send _ hs => exact absurd rfl (hs.not_read.1 _ _)
  wait pc d hw := by
    cases pc with
    | sendAll d' m n p sent =>
      obtain ⟨hlt, hd⟩ := sendWait_eq_some.mp hw
      cases hd
      simp only [need, if_true]
      omega
    | _ => cases hw

theorem smooth_of_room {s : Sys Pc} {e : Ev} (h : ∀ d, (e.received d).length ≤ (s.link d).room) :
    Smooth step waits s (.pump e) := by
  refine ⟨fun d _ => h d, fun p d _ hw => ?_⟩
  cases hpc : p.pc with
  | sendAll d m n q sent =>
    rw [hpc] at hw
    obtain ⟨-, hd⟩ := sendWait_eq_some.mp hw
    cases hd
  | _ => rw [hpc] at hw; cases hw

theorem holds : Holds wiring step waits := by
  intro s e s' v l h hr hv hst hp he
  cases hpc : s.pc with
  | sendAll d m n p sent =>
    rw [hpc] at hv
    obtain ⟨hlt, rfl⟩ := sendWait_eq_some.mp hv
    cases step_cases h with
    | shutdown => cases he
    | send hpc' hs =>
      rw [hpc] at hpc'
      cases hpc'
      obtain ⟨⟨q, hq⟩, hz⟩ := hs.holds hlt hr rfl hst hp he
      refine ⟨?_, hz⟩
      rw [hq]
      exact sendWait_eq_some.mpr ⟨hlt, rfl⟩
    | _ hpc' => rw [hpc] at hpc'; cases hpc'
  | _ => rw [hpc] at hv; cases hv

theorem step_sendAll {s : St Pc} {e : Ev} {d : Dir} {m : Bool} {n sent : Nat} {p : SendPc}
    (hpc : s.pc = .sendAll d m n p sent) (he : e ≠ .shutdown) :
    step s e = sendAll (.sendAll d m n) (fun ok => if ok then next m else .closeClient) d n p sent s e := by
  simp [step, hpc]

theorem loop (d : Dir) (m : Bool) (n : Nat) : Loop step d n (.sendAll d m n .test) (.sendAll d m n .send) :=
  loop_sendAll fun _ _ _ _ hu he => step_sendAll hu he

theorem fills : Fills wiring step waits := by
  refine fills_of_read fun p bs q link d hd hq hne hlt hr => ?_
  cases step_cases hq with
  | finished => exact absurd rfl hne
  | recvFailed _ hf => rcases hf with hf | hf <;> cases hf
  | send _ hs => exact absurd rfl (hs.not_read.1 _ _)
  | chunk hpc =>
    obtain ⟨is, t, k, ht, hrt, hk, hkn, h0⟩ := (loop d _ bs.length).fill (s := ⟨_, link⟩) rfl hr hlt
    exact ⟨is, t, ht, hrt, by rw [hk]; exact sendWait_eq_some.mpr ⟨hkn, rfl⟩, h0⟩

end MeshForwarder

namespace SshExporter

/-- A socket, and a channel of a non-blocking session. -/
def wiring : Wiring where
  readWaits _ := false
  emptyReads d := d = .down
  writeWaits _ := false
  zeroWrites d := d = .up

def waits : Pc → Option Wait
  | .writeTest n off | .write n off | .writeSleep n off => sendWait .up n off
  | .sendAll n _ sent => sendWait .down n sent
  | _ => none

def need : Pc → Dir → Nat
  | .writeTest n off, c | .write n off, c | .writeSleep n off, c => if c = .up then n - off else 0
  | .sendAll n _ sent, c => if c = .down then n - sent else 0
  | _, _ => 0

theorem need_next (idle : Bool) (c : Dir) : need (next idle) c = 0 := by
  cases idle <;> rfl

theorem needs : Needs step waits need where
  move s e s' h c := by
    cases step_cases h with
    | shutdown => exact Nat.le_refl _
    | @dial valid _ => cases valid <;> exact Nat.zero_le _
    | @fits fits _ => cases fits <;> exact Nat.zero_le _
    | notReady _ hr => rcases hr with rfl | rfl <;> exact Nat.zero_le _
    | serviceChunk hpc => cases c <;> simp [hpc, St.take, need, Ev.written, Ev.received]
    | channelChunk hpc => cases c <;> simp [hpc, St.take, need, Ev.written, Ev.received]
    | writeMore hpc | writeAgain hpc | writeRetry hpc => rw [hpc]; exact Nat.le_refl _
    | write hpc hk =>
      cases c
      · simp only [hpc, St.give, need, Ev.written, if_true]
        omega
      · simp [hpc, St.give, need, Ev.written]
    | channelAgain | channelOpen => simp [St.goto, need_next, Ev.written]
    | send hpc hs =>
      rw [hpc]
      refine hs.need_le (fun _ _ _ => rfl) (fun ok c => ?_) c
      cases ok <;> rfl
    | _ => exact Nat.zero_le _
  read s e s' h c hr := by
    obtain ⟨bs, rfl, hne⟩ := Ev.eq_read_of_received hr
    cases step_cases h with
    | serviceDone | channelNone => exact absurd rfl hne
    | serviceChunk hpc | channelChunk hpc => rw [hpc]; rfl
    | send _ hs => exact absurd rfl (hs.not_read.1 _ _)
  wait pc d hw := by
    cases pc with
    | writeTest n off | write n off | writeSleep n off | sendAll n p off =>
      obtain ⟨hlt, hd⟩ := sendWait_eq_some.mp hw
      cases hd
      simp only [need, if_true]
      omega
    | _ => cases hw

theorem holds : Holds wiring step waits := by
  intro s e s' v l h hr hv hst hp he
  cases step_cases h with
  | shutdown | writeError => cases he
  | writeMore hpc | writeAgain hpc | writeRetry hpc =>
    rw [hpc] at hv
    exact ⟨hv, fun _ => ⟨rfl, rfl⟩⟩
  | writeEnd hpc hend =>
    rw [hpc] at hv
    obtain ⟨hlt, -⟩ := sendWait_eq_some.mp hv
    rw [hend hlt] at hr; cases hr
  | @write n off k hpc hk =>
    rw [hpc] at hv
    obtain ⟨hlt, rfl⟩ := sendWait_eq_some.mp hv
    simp only [Wait.Stuck] at hst
    simp only [Wiring.permits, hst, decide_eq_true_eq] at hp
    obtain rfl : k = 0 := by omega
    exact ⟨sendWait_eq_some.mpr ⟨hlt, rfl⟩, fun c => ⟨rfl, by cases c <;> rfl⟩⟩
  | send hpc hs =>
    rw [hpc] at hv
    obtain ⟨hlt, rfl⟩ := sendWait_eq_some.mp hv
    obtain ⟨⟨q, hq⟩, hz⟩ := hs.holds hlt hr rfl hst hp he
    refine ⟨?_, hz⟩
    rw [hq]
    exact sendWait_eq_some.mpr ⟨hlt, rfl⟩
  | _ hpc => rw [hpc] at hv; cases hv

theorem step_sendAll {s : St Pc} {e : Ev} {n sent : Nat} {p : SendPc} (hpc : s.pc = .sendAll n p sent)
    (he : e ≠ .shutdown) :
    step s e = sendAll (.sendAll n) (fun ok => if ok then .head else .closeLocal) .down n p sent s e := by
  simp [step, hpc]

theorem loop (n : Nat) : Loop step .down n (.sendAll n .test) (.sendAll n .send) :=
  loop_sendAll fun _ _ _ _ hu he => step_sendAll hu he

theorem loop_write (n : Nat) : Loop step .up n (.writeTest n) (.write n) where
  enter u k hpc hr hlt := by
    unfold step
    rw [hpc]
    exact congrArg (fun pc => some (u.goto pc)) (if_pos ⟨hlt, hr⟩)
  write u k j hpc hj hle := by
    unfold step
    rw [hpc]
    exact if_pos hle

theorem fills : Fills wiring step waits := by
  refine fills_of_read fun p bs q link d hd hq hne hlt hr => ?_
  cases step_cases hq with
  | serviceDone | channelNone => exact absurd rfl hne
  | send _ hs => exact absurd rfl (hs.not_read.1 _ _)
  | serviceChunk hpc =>
    obtain ⟨is, t, k, ht, hrt, hk, hkn, h0⟩ := (loop_write bs.length).fill (s := ⟨_, link⟩) rfl hr hlt
    exact ⟨is, t, ht, hrt, by rw [hk]; exact sendWait_eq_some.mpr ⟨hkn, rfl⟩, h0⟩
  | channelChunk hpc =>
    obtain ⟨is, t, k, ht, hrt, hk, hkn, h0⟩ := (loop bs.length).fill (s := ⟨_, link⟩) rfl hr hlt
    exact ⟨is, t, ht, hrt, by rw [hk]; exact sendWait_eq_some.mpr ⟨hkn, rfl⟩, h0⟩

end SshExporter

namespace ForwardData

/-- A non-blocking socket, and a channel of a session that waits. -/
def wiring : Wiring where
  readWaits d := d = .down
  emptyReads _ := false
  writeWaits d := d = .up
  zeroWrites _ := false

def waits : Pc → Option Wait
  | .write n w => sendWait .up n w
  | .read => some (.source .down)
  | _ => none

def need : Pc → Dir → Nat
  | .writeTest n w, c | .write n w, c => if c = .up then n - w else 0
  | .sendTest n w, c | .send n w, c => if c = .down then n - w else 0
  | _, _ => 0

theorem needs : Needs step waits need where
  move s e s' h c := by
    cases step_cases h with
    | shutdown => exact Nat.le_refl _
    | notReady _ hr => rcases hr with rfl | rfl <;> exact Nat.zero_le _
    | recvFailed _ hr => rcases hr with rfl | rfl <;> exact Nat.zero_le _
    | clientChunk hpc => cases c <;> simp [hpc, St.take, need, Ev.written, Ev.received]
    | channelChunk hpc => cases c <;> simp [hpc, St.take, need, Ev.written, Ev.received]
    | writeMore hpc | sendMore hpc => rw [hpc]; exact Nat.le_refl _
    | write hpc hk =>
      cases c
      · simp only [hpc, St.give, need, Ev.written, if_true]
        omega
      · simp [hpc, St.give, need, Ev.written]
    | send hpc hk =>
      cases c
      · simp [hpc, St.give, need, Ev.written]
      · simp only [hpc, St.give, need, Ev.written, if_true]
        omega
    | _ => exact Nat.zero_le _
  read s e s' h c hr := by
    obtain ⟨bs, rfl, hne⟩ := Ev.eq_read_of_received hr
    cases step_cases h with
    | clientDone | channelNone => exact absurd rfl hne
    | clientChunk hpc | channelChunk hpc | recvFailed hpc => rw [hpc]; rfl
  wait pc d hw := by
    cases pc with
    | write n w =>
      obtain ⟨hlt, hd⟩ := sendWait_eq_some.mp hw
      cases hd
      simp only [need, if_true]
      omega
    | read => cases hw
    | _ => cases hw

/-- It is in a call that does not return. -/
theorem holds : Holds wiring step waits := by
  intro s e s' v l h hr hv hst hp he
  cases step_cases h with
  | shutdown | writeError | channelError => cases he
  | @write n w k hpc hk =>
    rw [hpc] at hv
    obtain ⟨hlt, rfl⟩ := sendWait_eq_some.mp hv
    simp only [Wait.Stuck] at hst
    simp [Wiring.permits, hst, wiring] at hp
  | writeAgain => simp [Wiring.permits, wiring] at hp
  | channelNone hpc =>
    rw [hpc] at hv
    cases hv
    have hp : (l .down).avail = 0 ∧ (l .down).ended = true := by simpa [Wiring.permits, wiring] using hp
    exact absurd (.inr hp.2) hst
  | @channelChunk bs hpc _ hne =>
    rw [hpc] at hv
    cases hv
    cases bs with
    | nil => exact absurd rfl hne
    | cons b bs =>
      simp only [Wiring.permits, List.length_cons, decide_eq_true_eq] at hp
      exact absurd (.inl (by omega)) hst
  | channelAgain => simp [Wiring.permits, wiring] at hp
  | _ hpc => rw [hpc] at hv; cases hv

/-- The write loop with bytes left and no room enters a call that waits. -/
theorem enter_write {s : Sys Pc} {n k : Nat} (hpc : s.pump.pc = .writeTest n k) (hr : s.pump.running = true)
    (hlt : k < n) (h0 : (s.link .up).room = 0) :
    ∃ t, Lts.Run (sysStep wiring step) s [.pump .test] t ∧ t.pump.running = true ∧
      waits t.pump.pc = some (.sink .up) ∧ (t.link .up).room = 0 := by
  have htest : step s.pump .test = some (s.pump.goto (.write n k)) := by
    simp [step, hpc, hr, hlt]
  refine ⟨⟨s.pump.goto (.write n k), s.link⟩, ?_, hr, sendWait_eq_some.mpr ⟨hlt, rfl⟩, h0⟩
  refine Lts.run_cons.mpr ⟨_, ?_, Lts.run_nil.mpr rfl⟩
  simp [sysStep, Wiring.permits, htest, Link.react, Ev.received, Ev.written]

theorem loop_write (n : Nat) : Loop step .up n (.writeTest n) (.write n) where
  enter u k hpc hr hlt := by
    unfold step
    rw [hpc]
    exact congrArg (fun pc => some (u.goto pc)) (if_pos ⟨hlt, hr⟩)
  write u k j hpc hj hle := by
    unfold step
    rw [hpc]
    exact if_pos hle

theorem waitsFor {d : Dir} (h : WaitsFor waits d) : d = .up := by
  obtain ⟨pc, hpc⟩ := h
  cases pc with
  | write n w =>
    obtain ⟨-, hd⟩ := sendWait_eq_some.mp hpc
    cases hd
    rfl
  | read => cases hpc
  | _ => cases hpc

theorem fills : Fills wiring step waits := by
  refine fills_of_read fun p bs q link d hd hq hne hlt hr => ?_
  obtain rfl := waitsFor hd
  cases step_cases hq with
  | clientDone => exact absurd rfl hne
  | recvFailed _ hf => rcases hf with hf | hf <;> cases hf
  | clientChunk hpc =>
    obtain ⟨is, t, k, ht, hrt, hk, hkn, h0⟩ := (loop_write bs.length).fill (s := ⟨_, link⟩) rfl hr hlt
    obtain ⟨u, hu, hu'⟩ := enter_write hk hrt hkn h0
    exact ⟨is ++ [.pump .test], u, Lts.run_append.mpr ⟨t, ht, hu⟩, hu'⟩

end ForwardData

/-- When the pump that starts as `p` is blocked. In every run, from any state
of the endpoints: it is not if all steps are smooth; any step that is not, with
the flag up, can be followed by some that block it; and once blocked it stays
so until an endpoint acts, the flag goes down or a call fails. -/
def BlocksUnlessSmooth {Pc : Type} (w : Wiring) (step : St Pc → Ev → Option (St Pc)) (waits : Pc → Option Wait)
    (p : St Pc) : Prop :=
  ∀ (l : Dir → Link) (is : List In) (s : Sys Pc), Lts.Run (sysStep w step) ⟨p, l⟩ is s →
    (Lts.Along (sysStep w step) (Smooth step waits) ⟨p, l⟩ is → ¬ Blocked waits s) ∧
    (∀ i s', sysStep w step s i = some s' → s'.pump.running = true → ¬ Smooth step waits s i →
      ∃ js t, Lts.Run (sysStep w step) s' js t ∧ Blocked waits t) ∧
    ∀ e s', Blocked waits s → sysStep w step s (.pump e) = some s' → e.releases = false → Blocked waits s'

theorem blocksUnlessSmooth {Pc : Type} {w : Wiring} {step : St Pc → Ev → Option (St Pc)}
    {waits : Pc → Option Wait} {need : Pc → Dir → Nat} (hm : ∀ s e s', step s e = some s' → s.Move e s')
    (hn : Needs step waits need) (hf : Fills w step waits) (hh : Holds w step waits) {p : St Pc}
    (h₀ : ∀ d, need p.pc d = 0) (hw : waits p.pc = none) : BlocksUnlessSmooth w step waits p :=
  fun _ _ _ h => ⟨fun hs => not_blocked_of_smooth hn h hs h₀ hw,
    fun _ _ hi hr hns => blocks_of_not_smooth hf hi hr hns, fun _ _ hb hs he => hb.stays hh hm hs he⟩

/-- Each of the three pumps is blocked only through a chunk that does not fit
the room there is for it, or, in the SSH import, a read that has to wait. -/
theorem pumps_block_unless_smooth (buf : Buffer Byte bufferSize) :
    BlocksUnlessSmooth MeshForwarder.wiring MeshForwarder.step MeshForwarder.waits (MeshForwarder.start buf) ∧
    BlocksUnlessSmooth SshExporter.wiring SshExporter.step SshExporter.waits (SshExporter.start buf) ∧
    BlocksUnlessSmooth ForwardData.wiring ForwardData.step ForwardData.waits (ForwardData.start buf) := by
  refine ⟨?_, ?_, ?_⟩
  · exact blocksUnlessSmooth MeshForwarder.step_move MeshForwarder.needs MeshForwarder.fills MeshForwarder.holds
      (fun _ => rfl) rfl
  · exact blocksUnlessSmooth SshExporter.step_move SshExporter.needs SshExporter.fills SshExporter.holds
      (fun _ => rfl) rfl
  · exact blocksUnlessSmooth ForwardData.step_move ForwardData.needs ForwardData.fills ForwardData.holds
      (fun _ => rfl) rfl

/-- No bytes and no room anywhere. -/
def quiet : Dir → Link := fun _ => .empty

/-- A byte goes up through the mesh import, to a stream that has room for it. -/
def meshFlow : List In :=
  [.env .up (.send 1), .env .up (.drain 1), .pump .test, .pump (.select (.ready true false)),
    .pump (.read .up (.data [1])), .pump .test, .pump (.write .up (.count 1)), .pump .test]

theorem meshFlow_smooth :
    Lts.Along (sysStep MeshForwarder.wiring MeshForwarder.step) (Smooth MeshForwarder.step MeshForwarder.waits)
      ⟨MeshForwarder.start (.const 0), quiet⟩ meshFlow := by
  refine .cons trivial rfl (.cons trivial rfl (.cons ?_ rfl (.cons ?_ rfl (.cons ?_ rfl (.cons ?_ rfl
    (.cons ?_ rfl (.cons ?_ rfl Lts.along_nil)))))))
  all_goals refine MeshForwarder.smooth_of_room fun d => ?_
  all_goals cases d <;> decide

theorem meshFlow_not_blocked :
    ∃ s, Lts.Run (sysStep MeshForwarder.wiring MeshForwarder.step) ⟨MeshForwarder.start (.const 0), quiet⟩
      meshFlow s ∧ (s.pump.flow .up).put = [1] ∧ ¬ Blocked MeshForwarder.waits s := by
  refine ⟨_, rfl, rfl, ?_⟩
  exact ((pumps_block_unless_smooth (.const 0)).1 quiet meshFlow _ rfl).1 meshFlow_smooth

/-- Both sides have a byte ready, the client can be sent to, and the mesh side
does not read. -/
def meshStall : List In :=
  [.env .up (.send 1), .env .down (.send 1), .env .down (.drain 1), .pump .test,
    .pump (.select (.ready true true)), .pump (.read .up (.data [1])), .pump .test]

/-- The same at the SSH export, where the server does not read. -/
def exportStall : List In :=
  [.pump (.answer true), .pump (.answer true), .env .up (.send 1), .env .down (.send 1),
    .env .down (.drain 1), .pump .test, .pump (.select (.ready true false)),
    .pump (.read .up (.data [1])), .pump .test, .pump (.write .up .again)]

/-- At the SSH import the client sends after the pump has gone to read a
channel that is silent. -/
def importStall : List In :=
  [.pump .test, .pump (.select .timeout), .env .up (.send 1), .env .up (.drain 1)]

theorem pumps_block :
    (∃ s, Lts.Run (sysStep MeshForwarder.wiring MeshForwarder.step) ⟨MeshForwarder.start (.const 0), quiet⟩
      meshStall s ∧ Blocked MeshForwarder.waits s) ∧
    (∃ s, Lts.Run (sysStep SshExporter.wiring SshExporter.step) ⟨SshExporter.start (.const 0), quiet⟩
      exportStall s ∧ Blocked SshExporter.waits s) ∧
    (∃ s, Lts.Run (sysStep ForwardData.wiring ForwardData.step) ⟨ForwardData.start (.const 0), quiet⟩
      importStall s ∧ Blocked ForwardData.waits s) := by
  refine ⟨⟨_, rfl, rfl, .sink .up, rfl, rfl, ?_, ?_⟩, ⟨_, rfl, rfl, .sink .up, rfl, rfl, ?_, ?_⟩,
    ⟨_, rfl, rfl, .source .down, rfl, ?_, ?_, ?_⟩⟩
  all_goals decide

end ErplTunnel.Pump

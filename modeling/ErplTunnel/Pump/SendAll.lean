import ErplTunnel.Pump.State

/-!
# SendAll

`SendAll` of `socket_compat.hpp` writes the first `len` bytes of a pump's
buffer to a socket. `sendAll` is one step of it inside a pump: `inCall` are
the pump's program counters during the call and `ret` those it continues at.
`SendStep` lists its steps. Two results: a pump's invariant survives the call
(`Inv.sendAll`), and of the call on its own, what is accepted when it returns
(`sendAll_spec`).
-/

namespace ErplTunnel.Pump

open Relay

variable {Pc : Type}

/-- Where `SendAll` stands: at the head of its loop, at `send`, or in the wait
for the socket to become writable. -/
inductive SendPc where
  | test
  | send
  | wait
  deriving DecidableEq, Repr

/-- One step of `SendAll(s, buf, len, running)`, with `sent` bytes out. -/
def sendAll (inCall : SendPc → Nat → Pc) (ret : Bool → Pc) (d : Dir) (len : Nat) (p : SendPc) (sent : Nat)
    (s : St Pc) (e : Ev) : Option (St Pc) :=
  match p, e with
  | .test, .test =>
    if sent < len then
      if s.running then some (s.goto (inCall .send sent)) else some (s.goto (ret false))
    else some (s.goto (ret true))
  | .send, .write d' (.count k) =>
    if d' = d ∧ k ≤ len - sent then
      if 0 < k then some (s.give d sent k (inCall .test (sent + k))) else some (s.goto (ret false))
    else none
  | .send, .write d' .again => if d' = d then some (s.goto (inCall .wait sent)) else none
  | .send, .write d' .error => if d' = d then some (s.goto (ret false)) else none
  | .wait, .pause => some (s.goto (inCall .test sent))
  | _, _ => none

/-- The steps of `SendAll`. -/
inductive SendStep (inCall : SendPc → Nat → Pc) (ret : Bool → Pc) (d : Dir) (len : Nat) (s : St Pc) :
    SendPc → Nat → Ev → St Pc → Prop
  /-- More to send, and the flag is up. -/
  | more {sent : Nat} (hlt : sent < len) (hr : s.running = true) :
    SendStep inCall ret d len s .test sent .test (s.goto (inCall .send sent))
  /-- More to send, and the flag is down. -/
  | stop {sent : Nat} (hlt : sent < len) (hr : s.running = false) :
    SendStep inCall ret d len s .test sent .test (s.goto (ret false))
  | all {sent : Nat} (hge : len ≤ sent) : SendStep inCall ret d len s .test sent .test (s.goto (ret true))
  | accept {sent k : Nat} (hk : 0 < k) (hle : k ≤ len - sent) :
    SendStep inCall ret d len s .send sent (.write d (.count k)) (s.give d sent k (inCall .test (sent + k)))
  | fail {sent : Nat} {e : Ev} (he : e = .write d (.count 0) ∨ e = .write d .error) :
    SendStep inCall ret d len s .send sent e (s.goto (ret false))
  | block {sent : Nat} : SendStep inCall ret d len s .send sent (.write d .again) (s.goto (inCall .wait sent))
  | wake {sent : Nat} : SendStep inCall ret d len s .wait sent .pause (s.goto (inCall .test sent))

section

variable {inCall : SendPc → Nat → Pc} {ret : Bool → Pc} {d : Dir} {len sent : Nat} {p : SendPc}
  {s s' : St Pc} {e : Ev}

theorem sendStep_of_sendAll (h : sendAll inCall ret d len p sent s e = some s') :
    SendStep inCall ret d len s p sent e s' := by
  unfold sendAll at h
  split at h
  · split at h
    · rename_i hlt
      split at h
      · rename_i hr
        obtain rfl := Option.some.inj h
        exact .more hlt hr
      · rename_i hr
        obtain rfl := Option.some.inj h
        exact .stop hlt (by simpa using hr)
    · obtain rfl := Option.some.inj h
      exact .all (by omega)
  · split at h
    · rename_i hk
      obtain ⟨rfl, hle⟩ := hk
      split at h
      · rename_i hk
        obtain rfl := Option.some.inj h
        exact .accept hk hle
      · rename_i hk
        obtain rfl := Option.some.inj h
        obtain rfl := Nat.eq_zero_of_not_pos hk
        exact .fail (.inl rfl)
    · cases h
  · split at h
    · rename_i hd
      obtain rfl := Option.some.inj h
      exact hd ▸ .block
    · cases h
  · split at h
    · rename_i hd
      obtain rfl := Option.some.inj h
      exact .fail (.inr (hd ▸ rfl))
    · cases h
  · obtain rfl := Option.some.inj h
    exact .wake
  · cases h

theorem SendStep.move (h : SendStep inCall ret d len s p sent e s') : s.Move e s' := by
  cases h with
  | more | stop | all | block | wake => exact .goto (fun _ => rfl) (by simp)
  | accept => exact .give
  | fail he => rcases he with rfl | rfl <;> exact .goto (fun _ => rfl) (by simp)

/-- `SendAll` reads nothing. -/
theorem SendStep.not_read (h : SendStep inCall ret d len s p sent e s') :
    (∀ c r, e ≠ .read c r) ∧ ∀ b, e ≠ .eof b := by
  cases h with
  | fail he => rcases he with rfl | rfl <;> exact ⟨by simp, by simp⟩
  | _ => exact ⟨by simp, by simp⟩

/-- A pump's invariant over a step of `SendAll`: during the call direction `d`
owes the rest of the chunk; a pump that goes on after a true result owes
nothing, and one that was told false closes. -/
theorem St.Inv.sendAll {slot : Pc → Dir → Slot} {o : Slot} (h : s.Inv slot) (hpc : s.pc = inCall p sent)
    (hs : SendStep inCall ret d len s p sent e s') (hd : ∀ p sent, slot (inCall p sent) d = .owes sent len)
    (ho : ∀ p sent, slot (inCall p sent) d.opp = o) (ht : slot (ret true) d = .clean)
    (hto : slot (ret true) d.opp = o) (hf : ∀ d, slot (ret false) d = .cut) : s'.Inv slot := by
  have stay : ∀ q, (s.goto (inCall q sent)).Inv slot := by
    refine fun q => h.goto fun c hc => ?_
    rcases c.eq_or_opp d with rfl | rfl
    · rw [hpc, hd] at hc; rw [hd]; exact hc
    · rw [hpc, ho] at hc; rw [ho]; exact hc
  cases hs with
  | more | block | wake => exact stay _
  | stop | fail => exact h.toCut hf
  | all hge =>
    refine h.goto fun c hc => ?_
    rcases c.eq_or_opp d with rfl | rfl
    · rw [hpc, hd] at hc; rw [ht]; exact hc.owesToClean hge
    · rw [hpc, ho] at hc; rw [hto]; exact hc
  | accept hk hle =>
    exact h.give hle (hpc ▸ hd _ _) (hd _ _) (by rw [hpc, ho, ho])

end

/-! ## The call on its own -/

/-- Where a call of `SendAll` stands. -/
inductive SendCall where
  | inCall (p : SendPc) (sent : Nat)
  | returned (ok : Bool)
  deriving DecidableEq, Repr

/-- A step of the call, or of `Close()` meanwhile. -/
def sendCallStep (d : Dir) (len : Nat) (s : St SendCall) (e : Ev) : Option (St SendCall) :=
  match s.pc with
  | .inCall p sent =>
    if e = .shutdown then some s.shutdown else sendAll .inCall .returned d len p sent s e
  | .returned _ => none

/-- A call about to send the first `len` bytes of `buf`. -/
def sendCallStart (d : Dir) (len : Nat) (running : Bool) (buf : Buffer Byte bufferSize) : St SendCall :=
  ⟨.inCall .test 0, running, buf, Function.update (fun _ => .empty) d ⟨buf.slice 0 len, []⟩⟩

/-- What holds during a call: the rest of the chunk is owed, and where the
call failed there is a rest and a reason. -/
def SendCallInv (d : Dir) (len : Nat) (buf : Buffer Byte bufferSize) (es : List Ev) (s : St SendCall) : Prop :=
  s.buf = buf ∧ (s.flow d).got = buf.slice 0 len ∧
  match s.pc with
  | .inCall p sent => (Slot.owes sent len).Holds s.running s.buf (s.flow d) ∧ (p ≠ .test → sent < len)
  | .returned true => Slot.clean.Holds s.running s.buf (s.flow d)
  | .returned false => ((s.flow d).put <+: (s.flow d).got ∧ (s.flow d).put ≠ (s.flow d).got) ∧
      (s.running = false ∨ .write d (.count 0) ∈ es ∨ .write d .error ∈ es)

section

variable {d : Dir} {len : Nat} {running : Bool} {buf : Buffer Byte bufferSize}

theorem sendCallInv_start (hl : len ≤ bufferSize) :
    SendCallInv d len buf [] (sendCallStart d len running buf) := by
  simp only [SendCallInv, sendCallStart, Function.update_self, true_and]
  exact ⟨⟨Nat.zero_le _, hl, rfl⟩, nofun⟩

/-- A step keeps it. -/
theorem SendCallInv.step {es : List Ev} {s s' : St SendCall} {e : Ev} (h : SendCallInv d len buf es s)
    (hs : sendCallStep d len s e = some s') : SendCallInv d len buf (es ++ [e]) s' := by
  obtain ⟨hb, hg, hp⟩ := h
  cases hpc : s.pc with
  | returned ok => simp [sendCallStep, hpc] at hs
  | inCall p sent =>
    simp only [hpc] at hp
    obtain ⟨ho, hlt⟩ := hp
    simp only [sendCallStep, hpc] at hs
    split at hs
    · obtain rfl := Option.some.inj hs
      simp only [SendCallInv, St.shutdown, hpc]
      exact ⟨hb, hg, ho.shutdown, hlt⟩
    · have failed (hlt : sent < len) : (s.flow d).put <+: (s.flow d).got ∧ (s.flow d).put ≠ (s.flow d).got :=
        ⟨ho.isPrefix, ho.owesNe hlt⟩
      cases sendStep_of_sendAll hs with
      | more hlt hr => exact ⟨hb, hg, ho, fun _ => hlt⟩
      | stop hlt hr => exact ⟨hb, hg, failed hlt, .inl hr⟩
      | all hge => exact ⟨hb, hg, ho.owesToClean hge⟩
      | accept hk hle =>
        simp only [SendCallInv, St.give, Function.update_self]
        exact ⟨hb, hg, ho.accept hle, by simp⟩
      | fail he =>
        refine ⟨hb, hg, failed (hlt (by simp)), .inr ?_⟩
        rcases he with rfl | rfl <;> simp
      | block => exact ⟨hb, hg, ho, fun _ => hlt (by simp)⟩
      | wake => exact ⟨hb, hg, ho, by simp⟩

/-- `SendAll` returns true exactly when all of its bytes were accepted, in
order; when it returns false only a part of them was, from the front, and the
flag was down or the socket returned zero or failed. -/
theorem sendAll_spec (hl : len ≤ bufferSize) {es : List Ev} {s' : St SendCall} {ok : Bool}
    (h : Lts.Run (sendCallStep d len) (sendCallStart d len running buf) es s')
    (hpc : s'.pc = .returned ok) :
    (ok = true ↔ (s'.flow d).put = buf.slice 0 len) ∧
    (ok = false → ((s'.flow d).put <+: buf.slice 0 len ∧ (s'.flow d).put ≠ buf.slice 0 len) ∧
      (s'.running = false ∨ .write d (.count 0) ∈ es ∨ .write d .error ∈ es)) := by
  have hi : SendCallInv d len buf es s' :=
    h.history (sendCallInv_start hl) fun _ _ _ _ _ ht hu => ht.step hu
  obtain ⟨-, hg, hp⟩ := hi
  rw [← hg]
  cases ok with
  | true =>
    simp only [hpc] at hp
    exact ⟨⟨fun _ => Transit.owes_nil.mp hp, fun _ => rfl⟩, nofun⟩
  | false =>
    simp only [hpc] at hp
    exact ⟨⟨nofun, fun he => absurd he hp.1.2⟩, fun _ => hp⟩

end

end ErplTunnel.Pump

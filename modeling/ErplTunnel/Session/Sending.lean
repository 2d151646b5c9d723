import ErplTunnel.Session.Shared

/-!
# Sending under back-pressure

A packet that is partly sent has to be finished by the call that began it, and
`session_mu_` is free in between. The code leaves three things to chance: that
no other thread sends meanwhile, that only a call that is made again leaves a
packet (the calls that end a channel are made once), and that the flag stays up
until a write is through. Where all three go well (`Clear`), every call that
sends while a packet is pending repeats the one that left it, and no write
fails because of another connection.
-/

namespace ErplTunnel.Session

open Relay Pump
open Pump.SshExporter (Pc)

/-- The code makes this call again after `LIBSSH2_ERROR_EAGAIN`. -/
def Send.retried : Send → Bool
  | .write _ _ _ | .keepalive => true
  | .eof _ | .close _ | .free _ => false

/-- What libssh2 replies to the call of an input. -/
def In.reply : In → Reply
  | .acceptCall _ _ _ r | .pump _ _ r => r
  | _ => .done

/-- In the write loop, with `off` of `n` bytes out. -/
def Pc.AtWrite (n off : Nat) (pc : Pc) : Prop :=
  pc = .writeTest n off ∨ pc = .write n off ∨ pc = .writeSleep n off

theorem thread_of_sends {i : Nat} {p : St Pc} {c : Send} (h : sends i p = some c) : c.thread = some i := by
  unfold sends at h
  split at h <;> cases h <;> rfl

/-- A call that is made again is a write. -/
theorem write_of_retried {i : Nat} {p : St Pc} {c : Send} (h : sends i p = some c) (hr : c.retried = true) :
    ∃ n off, p.pc = .write n off ∧ c = .write i off (p.buf.slice off n) := by
  unfold sends at h
  split at h
  · rename_i n off hpc
    exact ⟨n, off, hpc, (Option.some.inj h).symm⟩
  · cases h; cases hr
  · cases h; cases hr
  · cases h; cases hr
  · cases h

/-- A step of a pump in its write loop whose write stays to be repeated, and
the place it is at. -/
theorem write_again {p p' : St Pc} {e : Ev} {n off : Nat} {b left : Bool} (h : SshExporter.Step p e p')
    (hpc : p.pc = .write n off) (he : e ≠ .shutdown) (hg : agrees e b (.again left) = true) :
    p'.pc = .writeSleep n off ∧ p'.buf = p.buf := by
  cases h with
  | shutdown => exact absurd rfl he
  | writeAgain hpc' => rw [hpc] at hpc'; cases hpc'; exact ⟨rfl, rfl⟩
  | write => simp [agrees] at hg
  | writeError => simp [agrees] at hg
  | _ hpc' => rw [hpc] at hpc'; cases hpc'

/-- Between two writes of a loop that goes on, the pump stays in the loop. -/
theorem write_stays {p p' : St Pc} {e : Ev} {i n off : Nat} (h : SshExporter.Step p e p') (hn : sends i p = none)
    (hpc : Pc.AtWrite n off p.pc) (hlt : off < n) (he : e ≠ .shutdown)
    (hr : p.pc = .writeTest n off → p.running = true) : Pc.AtWrite n off p'.pc ∧ p'.buf = p.buf := by
  have hnw : p.pc ≠ .write n off := fun hw => by simp [sends, hw] at hn
  have hpc : p.pc = .writeTest n off ∨ p.pc = .writeSleep n off := by
    rcases hpc with hpc | hpc | hpc
    · exact .inl hpc
    · exact absurd hpc hnw
    · exact .inr hpc
  cases h with
  | shutdown => exact absurd rfl he
  | @writeMore n' off' hpc' =>
    rw [hpc'] at hpc
    simp only [Pc.writeTest.injEq, reduceCtorEq, or_false] at hpc
    obtain ⟨rfl, rfl⟩ := hpc
    exact ⟨.inr (.inl rfl), rfl⟩
  | @writeEnd n' off' hpc' hend =>
    rw [hpc'] at hpc
    simp only [Pc.writeTest.injEq, reduceCtorEq, or_false] at hpc
    obtain ⟨rfl, rfl⟩ := hpc
    rw [hr hpc'] at hend
    exact absurd (hend hlt) (by simp)
  | @writeRetry n' off' hpc' =>
    rw [hpc'] at hpc
    simp only [Pc.writeSleep.injEq, reduceCtorEq, false_or] at hpc
    obtain ⟨rfl, rfl⟩ := hpc
    exact ⟨.inl rfl, rfl⟩
  | _ hpc' => rw [hpc'] at hpc; simp at hpc

/-- A pump that is to write has something to write. -/
def Offset (p : St Pc) : Prop := ∀ n off, p.pc = .write n off ∨ p.pc = .writeSleep n off → off < n

theorem Offset.step {p p' : St Pc} {e : Ev} (ho : Offset p) (h : SshExporter.Step p e p') : Offset p' := by
  intro n off hpc'
  cases h with
  | shutdown => exact ho n off hpc'
  | @dial valid => cases valid <;> simp [St.goto] at hpc'
  | @fits fits => cases fits <;> simp [St.goto] at hpc'
  | @channelAgain idle | @channelOpen idle => cases idle <;> simp [St.goto, SshExporter.next] at hpc'
  | writeMore _ hlt => simp [St.goto] at hpc'; omega
  | writeAgain hpc => simp [St.goto] at hpc'; obtain ⟨rfl, rfl⟩ := hpc'; exact ho _ _ (.inl hpc)
  | send _ hs => cases hs <;> simp [St.goto, St.give] at hpc'
  | _ => simp [St.goto, St.give, St.take] at hpc'

namespace State

variable {s s' : State} {x : In}

/-- Nothing comes between a packet and its repeat: no other thread sends while
a packet is pending, only a call that is made again leaves one, and a pump at
the head of its write loop with a packet pending finds the flag up. -/
structure Clear (s : State) (x : In) : Prop where
  owner : ∀ c c', s.call? x = some c → s.pending = some c' → c.thread = c'.thread
  retried : ∀ c, s.call? x = some c → x.reply = .again true → c.retried = true
  kept : ∀ i e r p n off c, x = .pump i e r → s.pumps[i]? = some p → p.pc = .writeTest n off →
    s.pending = some c → c.thread = some i → s.running = true

/-- A call made while a packet is pending is the one that left it, with the
same buffer. -/
def Repeats (s : State) (x : In) : Prop := ∀ c c', s.call? x = some c → s.pending = some c' → c = c'

/-- The thread whose packet is pending is about to repeat its call. -/
def Retrying (s : State) : Send → Prop
  | .write i off data => ∃ p n, s.pumps[i]? = some p ∧ Pc.AtWrite n off p.pc ∧ off < n ∧ p.buf.slice off n = data
  | .keepalive => True
  | _ => False

/-- The invariant of the runs in which nothing comes between. -/
structure Orderly (s : State) : Prop where
  offset : ∀ (i : Nat) p, s.pumps[i]? = some p → Offset p
  retrying : ∀ c, s.pending = some c → s.Retrying c
  uncut : s.cut = []

theorem Orderly.repeats (h : s.Orderly) (hc : s.Clear x) : s.Repeats x := by
  intro c c' hcall hp
  have ht : c.thread = c'.thread := hc.owner c c' hcall hp
  have hr := h.retrying c' hp
  cases c' with
  | write i off data =>
    obtain ⟨p, n, hpi, hat, hlt, rfl⟩ := hr
    cases x with
    | pump j e r =>
      obtain ⟨q, hq, hs⟩ := Option.bind_eq_some_iff.mp hcall
      obtain rfl : j = i := Option.some.inj ((thread_of_sends hs).symm.trans ht)
      cases hpi.symm.trans hq
      rcases hat with hpc | hpc | hpc
      · simp [sends, hpc] at hs
      · rw [sends, hpc] at hs
        exact (Option.some.inj hs).symm
      · simp [sends, hpc] at hs
    | acceptCall channel dead due r => cases due <;> cases hcall; cases ht
    | _ => cases hcall
  | keepalive =>
    cases x with
    | pump j e r =>
      obtain ⟨q, hq, hs⟩ := Option.bind_eq_some_iff.mp hcall
      exact absurd ((thread_of_sends hs).symm.trans ht) (by simp [Send.thread])
    | acceptCall channel dead due r => cases due <;> cases hcall; rfl
    | _ => cases hcall
  | _ => exact hr.elim

/-- What a call in turn leaves pending: itself, if it comes back with a packet
partly sent. -/
theorem pending_of_repeats {pending pending' : Option Send} {c d : Send} {r : Reply}
    (ha : afterSend pending c r = some pending') (hrep : ∀ c', pending = some c' → c = c')
    (hd : pending' = some d) : d = c ∧ r = .again true := by
  subst hd
  cases pending with
  | none =>
    cases r with
    | done => cases ha
    | again left => cases left <;> cases ha; exact ⟨rfl, rfl⟩
  | some c' =>
    obtain rfl := hrep c' rfl
    cases r with
    | done => simp [afterSend] at ha
    | again left =>
      simp only [afterSend, true_and] at ha
      split at ha
      · rename_i hl
        cases ha
        exact ⟨rfl, by rw [hl]⟩
      · cases ha

/-- Whose packet is pending still repeats its call, if its pump is as it was. -/
theorem Retrying.keep {c : Send} (h : s.Retrying c)
    (hk : ∀ (i : Nat) p, c.thread = some i → s.pumps[i]? = some p → s'.pumps[i]? = some p) : s'.Retrying c := by
  cases c with
  | write i off data =>
    obtain ⟨p, n, hp, hr⟩ := h
    exact ⟨p, n, hk i p rfl hp, hr⟩
  | keepalive => trivial
  | _ => exact h

theorem offset_set {i : Nat} {p p' : St Pc} (h : ∀ (j : Nat) q, s.pumps[j]? = some q → Offset q)
    (hp : s.pumps[i]? = some p) (hp' : Offset p') (hs' : s'.pumps = s.pumps.set i p') :
    ∀ (j : Nat) q, s'.pumps[j]? = some q → Offset q := by
  intro j q hq
  rw [hs'] at hq
  by_cases hij : i = j
  · subst hij
    rw [List.getElem?_set_self (List.getElem?_eq_some_iff.mp hp).1] at hq
    cases hq
    exact hp'
  · rw [List.getElem?_set_ne hij] at hq
    exact h j q hq

/-- Accepting a channel changes nothing for the pumps that are there. -/
theorem Orderly.accepted {channel : Option (Buffer Byte bufferSize)} {dead : Bool} (h : s.Orderly) :
    (s.accepted channel dead).Orderly := by
  cases channel with
  | none => exact ⟨h.offset, fun c hc => (h.retrying c hc).keep fun _ _ _ hp => hp, h.uncut⟩
  | some buf =>
    refine ⟨fun j q hq => ?_, fun c hc => ?_, h.uncut⟩
    · rcases List.mem_append.mp (List.mem_of_getElem? hq) with hq | hq
      · obtain ⟨k, hk⟩ := List.getElem?_of_mem hq
        exact h.offset k q hk
      · cases List.mem_singleton.mp hq
        intro n off hpc
        simp [SshExporter.start, St.start] at hpc
    · refine (h.retrying c hc).keep fun i p _ hp => ?_
      have hlt : i < s.pumps.length := (List.getElem?_eq_some_iff.mp hp).1
      exact (List.getElem?_append_left hlt).trans hp

/-- A step with nothing in between keeps the invariant. -/
theorem Orderly.step (h : s.Orderly) (hc : s.Clear x) (hs : Step s x s') : s'.Orderly := by
  have hrep := h.repeats hc
  cases hs with
  | shutdown | test | drop =>
    exact ⟨h.offset, fun c hc => (h.retrying c hc).keep fun _ _ _ hp => hp, h.uncut⟩
  | accept => exact h.accepted
  | @keepalive channel dead r pending ha =>
    refine accepted ⟨h.offset, fun d hd => ?_, h.uncut⟩
    obtain ⟨rfl, -⟩ := pending_of_repeats ha (fun c' => hrep .keepalive c' rfl) hd
    trivial
  | @quiet i e r p p' hp hn hs he =>
    have ho : Offset { p with running := s.running } := h.offset i p hp
    refine ⟨offset_set h.offset hp (ho.step hs) rfl, fun c hcp => ?_, h.uncut⟩
    have hr := h.retrying c hcp
    by_cases hi : c.thread = some i
    · cases c with
      | write j off data =>
        obtain rfl : j = i := Option.some.inj hi
        obtain ⟨q, n, hq, hat, hlt, hdata⟩ := hr
        cases hp.symm.trans hq
        obtain ⟨hat', hbuf⟩ := write_stays hs hn hat hlt he fun hpc =>
          hc.kept j e r p n off _ rfl hp hpc hcp rfl
        exact ⟨p', n, List.getElem?_set_self (List.getElem?_eq_some_iff.mp hp).1, hat', hlt, hbuf ▸ hdata⟩
      | keepalive => trivial
      | _ => exact hr.elim
    · refine hr.keep fun j q hj hq => ?_
      have hij : i ≠ j := fun hij => hi (hij ▸ hj)
      exact (List.getElem?_set_ne hij).trans hq
  | @send i e r p p' c pending hp hcs hs he hg ha =>
    have hcall : s.call? (.pump i e r) = some c := by rw [call?, hp]; exact hcs
    have hturn : s.inTurn c = true := by
      cases hpe : s.pending with
      | none => simp [inTurn, hpe]
      | some c' => simp [inTurn, hpe, hrep c c' hcall hpe]
    have ho : Offset { p with running := s.running } := h.offset i p hp
    refine ⟨offset_set h.offset hp (ho.step hs) rfl, fun d hd => ?_, by simpa [sent, hturn] using h.uncut⟩
    obtain ⟨rfl, rfl⟩ := pending_of_repeats ha (fun c' => hrep c c' hcall) hd
    obtain ⟨n, off, hpc, rfl⟩ := write_of_retried hcs (hc.retried d hcall rfl)
    obtain ⟨hpc', hbuf⟩ := write_again hs hpc he hg
    refine ⟨p', n, List.getElem?_set_self (List.getElem?_eq_some_iff.mp hp).1, .inr (.inr hpc'), ?_, by rw [hbuf]⟩
    exact h.offset i p hp n off (.inl hpc)

theorem orderly_run {xs : List In} (h : Lts.Run State.step start xs s) (hc : Lts.Along State.step Clear start xs) :
    s.Orderly :=
  h.invAlong (fun _ _ _ ho hc hs => ho.step hc (step_cases hs)) hc ⟨by simp [start], nofun, rfl⟩

/-- In a run where nothing comes between a packet and its repeat, each call that
sends while a packet is pending is that repeat, and no pump's write has failed
out of turn. -/
theorem sends_isolated (xs : List In) (s : State) (h : Lts.Run State.step start xs s)
    (hc : Lts.Along State.step Clear start xs) : Lts.Along State.step Repeats start xs ∧ s.cut = [] := by
  refine ⟨fun xs₁ x xs₂ t he ht => ?_, (orderly_run h hc).uncut⟩
  subst he
  exact (orderly_run ht hc.append).repeats (hc xs₁ x xs₂ t rfl ht)

theorem clear_of_idle (hp : s.pending = none) (hr : x.reply = .done) : s.Clear x :=
  ⟨fun _ _ _ h => by simp [hp] at h, fun _ _ h => by simp [hr] at h,
    fun _ _ _ _ _ _ _ _ _ _ h => by simp [hp] at h⟩

theorem idle_step (hp : s.pending = none) (hr : x.reply = .done) (hs : Step s x s') : s'.pending = none := by
  cases hs with
  | shutdown | test | drop | quiet => exact hp
  | @accept channel => cases channel <;> exact hp
  | @keepalive channel dead r pending ha =>
    obtain rfl : r = .done := hr
    rw [hp] at ha
    cases channel <;> exact (Option.some.inj ha).symm
  | @send i e r p p' c pending hpi hc hs he hg ha =>
    obtain rfl : r = .done := hr
    rw [hp] at ha
    exact (Option.some.inj ha).symm

/-- Without back-pressure nothing can come between. -/
theorem clear_of_done {xs : List In} (hp : s.pending = none) (hx : ∀ x ∈ xs, x.reply = .done) :
    Lts.Along State.step Clear s xs := by
  rintro xs₁ x xs₂ t rfl ht
  have hidle : t.pending = none := by
    refine ht.invAlong (P := fun t => t.pending = none) (C := fun _ x => x.reply = .done)
      (fun _ _ _ hp hr hs => idle_step hp hr (step_cases hs)) ?_ hp
    rintro ys y zs u rfl -
    exact hx y (by simp)
  exact clear_of_idle hidle (hx x (by simp))

/-- A channel is accepted, and its pump takes two bytes from the local
service. -/
def served (i : Nat) : List In :=
  [.acceptTest, .acceptTest, .acceptCall (some (.const 0)) false false .done, .pump i (.answer true) .done,
    .pump i (.answer true) .done, .pump i .test .done, .pump i (.select (.ready true false)) .done,
    .pump i (.read .up (.data [1, 2])) .done, .pump i .test .done]

/-- A pump with two bytes to write. -/
def writing : St Pc := (St.start .dial (.const 0)).take .up [1, 2] (.write 2 0)

/-- The session with that pump alone. -/
def alone (pc : Pc) (pending : Option Send) : State := ⟨true, .head, [writing.goto pc], [0], pending, []⟩

/-- One connection under back-pressure: its write is made again and goes out. -/
def backPressure : List In :=
  [.pump 0 (.write .up .again) (.again true), .pump 0 .pause .done, .pump 0 .test .done,
    .pump 0 (.write .up (.count 2)) .done]

theorem backPressure_clear : Lts.Along State.step Clear (alone (.write 2 0) none) backPressure := by
  let packet : Send := .write 0 0 (writing.buf.slice 0 2)
  have write : (alone (.write 2 0) none).Clear (.pump 0 (.write .up .again) (.again true)) := by
    refine ⟨fun _ _ _ h => ?_, fun c hc _ => ?_, fun _ _ _ _ _ _ _ _ _ _ h => ?_⟩
    · cases h
    · cases hc; rfl
    · cases h
  have wake : (alone (.writeSleep 2 0) packet).Clear (.pump 0 .pause .done) := by
    refine ⟨fun _ _ h => ?_, fun _ h => ?_, fun _ _ _ _ _ _ _ _ _ _ _ _ => rfl⟩ <;> cases h
  have test : (alone (.writeTest 2 0) packet).Clear (.pump 0 .test .done) := by
    refine ⟨fun _ _ h => ?_, fun _ h => ?_, fun _ _ _ _ _ _ _ _ _ _ _ _ => rfl⟩ <;> cases h
  have again : (alone (.write 2 0) packet).Clear (.pump 0 (.write .up (.count 2)) .done) := by
    refine ⟨fun _ _ h h' => ?_, fun _ _ h => ?_, fun _ _ _ _ _ _ _ _ _ _ _ _ => rfl⟩
    · cases h; cases h'; rfl
    · cases h
  exact .cons write rfl (.cons wake rfl (.cons test rfl (.cons again rfl Lts.along_nil)))

theorem backPressure_isolated :
    ∃ s, Lts.Run State.step start (served 0 ++ backPressure) s ∧ s.pending = none ∧
      Lts.Along State.step Repeats start (served 0 ++ backPressure) ∧ s.cut = [] := by
  have hserved : Lts.Run State.step start (served 0) (alone (.write 2 0) none) := rfl
  have hclear : Lts.Along State.step Clear start (served 0 ++ backPressure) :=
    (clear_of_done rfl (by decide)).trans hserved backPressure_clear
  refine ⟨_, Lts.run_append.mpr ⟨_, hserved, rfl⟩, rfl, ?_⟩
  exact sends_isolated (served 0 ++ backPressure) _ (Lts.run_append.mpr ⟨_, hserved, rfl⟩) hclear

/-- Two connections: the first leaves a packet, and the write of the second
fails before it is made again. -/
def crossing : List In :=
  served 0 ++ served 1 ++ [.pump 0 (.write .up .again) (.again true), .pump 1 (.write .up .error) .done]

theorem crossing_cut :
    ¬∀ xs s, Lts.Run State.step start xs s → Lts.Along State.step Repeats start xs ∧ s.cut = [] := by
  intro h
  have hserved : Lts.Run State.step start (served 0 ++ served 1) ⟨true, .head, [writing, writing], [0, 1], none, []⟩ :=
    rfl
  have hcut : ∃ s, Lts.Run State.step start crossing s ∧ s.cut = [1] :=
    ⟨_, Lts.run_append.mpr ⟨_, hserved, rfl⟩, rfl⟩
  obtain ⟨s, hs, hc⟩ := hcut
  have hn : s.cut = [] := (h crossing s hs).2
  rw [hc] at hn
  cases hn

end State

end ErplTunnel.Session

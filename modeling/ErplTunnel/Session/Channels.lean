import ErplTunnel.Framework.Pool
import ErplTunnel.Session.Shared

/-!
# Who holds a channel

The channels of the session are those of the pumps that have not returned, as
long as no `libssh2_channel_free` returns `LIBSSH2_ERROR_EAGAIN`: the pump
calls it once and does not look at the result, so one that did leaves a channel
without a pump, for good. The write loop and the cancel of the listener repeat
their calls.
-/

namespace ErplTunnel.Session

open Relay Pump
open Pump.SshExporter (Pc)

/-- A step of a pump is not the last one unless it frees the channel, and after
the last one there are none. -/
theorem pump_done {p p' : St Pc} {e : Ev} (h : SshExporter.Step p e p') (he : e ≠ .shutdown) :
    p.pc ≠ .done ∧ (p'.pc = .done ↔ p.pc = .channelFree) := by
  cases h with
  | shutdown => exact absurd rfl he
  | @dial valid hpc => cases valid <;> simp [hpc, St.goto]
  | @fits fits hpc => cases fits <;> simp [hpc, St.goto]
  | @channelAgain idle hpc | @channelOpen idle hpc => cases idle <;> simp [hpc, St.goto, SshExporter.next]
  | serviceChunk hpc | channelChunk hpc => simp [hpc, St.take]
  | write hpc => simp [hpc, St.give]
  | send hpc hs => cases hs <;> simp [hpc, St.goto, St.give]
  | _ hpc => simp [hpc, St.goto]

namespace State

variable {s s' : State} {x : In}

/-- Pump `i` has not returned. -/
def Serving (s : State) (i : Nat) : Prop := ∃ p, s.pumps[i]? = some p ∧ p.pc ≠ .done

/-- If the input is a `libssh2_channel_free`, it does not return
`LIBSSH2_ERROR_EAGAIN`. -/
def Frees (s : State) : In → Prop
  | .pump i _ r => ∀ p, s.pumps[i]? = some p → p.pc = .channelFree → r = .done
  | _ => True

/-- The session holds one channel for each pump that has not returned. -/
def Exact (s : State) : Prop := s.held.Nodup ∧ ∀ i, i ∈ s.held ↔ s.Serving i

/-- The session holds the channel of a pump that has returned. -/
def Leaks (s : State) : Prop := ∃ i p, i ∈ s.held ∧ s.pumps[i]? = some p ∧ p.pc = .done

theorem Leaks.not_exact (h : s.Leaks) : ¬∀ i, i ∈ s.held ↔ s.Serving i := by
  intro hx
  obtain ⟨i, p, hi, hp, hd⟩ := h
  obtain ⟨q, hq, hn⟩ := (hx i).mp hi
  cases hp.symm.trans hq
  exact hn hd

theorem serving_iff {i : Nat} : s.Serving i ↔ Pool.At (·.pc ≠ .done) s.pumps i := Iff.rfl

/-- What a step of pump `i` does to who is serving. -/
theorem serving_set {i : Nat} {p p' : St Pc} (hp : s.pumps[i]? = some p) (hs' : s'.pumps = s.pumps.set i p')
    (j : Nat) : s'.Serving j ↔ if j = i then p'.pc ≠ .done else s.Serving j := by
  rw [serving_iff, hs', Pool.at_set hp, serving_iff]
  split
  · rename_i hji
    simp [hji]
  · rename_i hji
    simp [hji]

/-- Accepting a channel gives it to a new pump. -/
theorem serving_accepted {channel : Option (Buffer Byte bufferSize)} {dead : Bool} (h : s.Exact) :
    (s.accepted channel dead).Exact := by
  cases channel with
  | none => exact h
  | some buf =>
    have hlast : s.pumps.length ∉ s.held := fun hi => Pool.not_at_length ((h.2 _).mp hi)
    refine ⟨by simpa [accepted, List.nodup_append] using ⟨h.1, fun j hj hji => hlast (hji ▸ hj)⟩, fun j => ?_⟩
    show j ∈ s.held ++ [s.pumps.length] ↔ Pool.At (·.pc ≠ .done) (s.pumps ++ [SshExporter.start buf]) j
    rw [List.mem_append, List.mem_singleton, h.2, Pool.at_snoc, serving_iff]
    simp [SshExporter.start, St.start]

/-- A step that frees what it is to free keeps the books straight. -/
theorem Exact.step (h : s.Exact) (hf : s.Frees x) (hs : Step s x s') : s'.Exact := by
  cases hs with
  | shutdown | test | drop => exact h
  | accept | keepalive => exact serving_accepted h
  | @quiet i e r p p' hp hn hs he =>
    obtain ⟨hd, hd'⟩ := pump_done hs he
    have hnf : p.pc ≠ .channelFree := fun hf => by simp [sends, hf] at hn
    refine ⟨h.1, fun j => ?_⟩
    rw [serving_set hp rfl]
    split
    · rename_i hji
      exact ⟨fun _ => mt hd'.mp hnf, fun _ => (h.2 j).mpr (hji ▸ ⟨p, hp, hd⟩)⟩
    · exact h.2 j
  | @send i e r p p' c pending hp hc hs he hg ha =>
    obtain ⟨hd, hd'⟩ := pump_done hs he
    have hi : i ∈ s.held := (h.2 i).mpr ⟨p, hp, hd⟩
    by_cases hpc : p.pc = .channelFree
    · have hr : r = .done := hf p hp hpc
      have hheld : (s.sent i p p' c r pending).held = s.held.erase i := by simp [sent, hpc, hr]
      refine ⟨hheld ▸ h.1.erase i, fun j => ?_⟩
      rw [hheld, h.1.mem_erase_iff, serving_set hp rfl, h.2]
      split
      · rename_i hji
        simp [hji, hd'.mpr hpc]
      · rename_i hji
        simp [hji]
    · have hheld : (s.sent i p p' c r pending).held = s.held := by simp [sent, hpc]
      refine ⟨hheld ▸ h.1, fun j => ?_⟩
      rw [hheld, serving_set hp rfl]
      split
      · rename_i hji
        exact ⟨fun _ => mt hd'.mp hpc, fun _ => hji ▸ hi⟩
      · exact h.2 j

/-- A channel that a pump has left behind stays. -/
theorem Leaks.step (h : s.Leaks) (hs : Step s x s') : s'.Leaks := by
  obtain ⟨j, q, hj, hq, hd⟩ := h
  cases hs with
  | shutdown | test | drop => exact ⟨j, q, hj, hq, hd⟩
  | @accept channel dead | @keepalive channel dead =>
    cases channel with
    | none => exact ⟨j, q, hj, hq, hd⟩
    | some buf =>
      have hlt : j < s.pumps.length := (List.getElem?_eq_some_iff.mp hq).1
      exact ⟨j, q, List.mem_append_left _ hj, (List.getElem?_append_left hlt).trans hq, hd⟩
  | @quiet i e r p p' hp hn hs he =>
    have hij : i ≠ j := by
      rintro rfl
      cases hp.symm.trans hq
      exact (pump_done hs he).1 hd
    exact ⟨j, q, hj, (List.getElem?_set_ne hij).trans hq, hd⟩
  | @send i e r p p' c pending hp hc hs he hg ha =>
    have hij : i ≠ j := by
      rintro rfl
      cases hp.symm.trans hq
      exact (pump_done hs he).1 hd
    refine ⟨j, q, ?_, (List.getElem?_set_ne hij).trans hq, hd⟩
    show j ∈ if _ then s.held.erase i else s.held
    split
    · exact (List.mem_erase_of_ne (Ne.symm hij)).mpr hj
    · exact hj

/-- A `libssh2_channel_free` that returns `LIBSSH2_ERROR_EAGAIN` is the pump's
last call. -/
theorem Exact.leaks (h : s.Exact) (hf : ¬s.Frees x) (hs : Step s x s') : s'.Leaks := by
  cases hs with
  | shutdown | test | drop | accept | keepalive => exact absurd trivial hf
  | @quiet i e r p p' hp hn hs he =>
    refine absurd (fun q hq hpc => ?_) hf
    cases hp.symm.trans hq
    simp [sends, hpc] at hn
  | @send i e r p p' c pending hp hc hs he hg ha =>
    obtain ⟨hd, hd'⟩ := pump_done hs he
    have hi : i ∈ s.held := (h.2 i).mpr ⟨p, hp, hd⟩
    obtain ⟨hpc, hr⟩ : p.pc = .channelFree ∧ r ≠ .done := by
      simp only [Frees, not_forall] at hf
      obtain ⟨q, hq, hpc, hr⟩ := hf
      cases hp.symm.trans hq
      exact ⟨hpc, hr⟩
    refine ⟨i, p', by simpa [sent, hr] using hi, ?_, hd'.mpr hpc⟩
    exact List.getElem?_set_self (List.getElem?_eq_some_iff.mp hp).1

theorem exact_or_leaks {xs : List In} (h : Lts.Run step start xs s) :
    Lts.Along step Frees start xs ∧ s.Exact ∨ ¬Lts.Along step Frees start xs ∧ s.Leaks := by
  refine h.history
    (P := fun xs t => Lts.Along step Frees start xs ∧ t.Exact ∨ ¬Lts.Along step Frees start xs ∧ t.Leaks)
    (.inl ⟨Lts.along_nil, by simp [start], by simp [start, Serving]⟩) fun xs t x u ht ih hu => ?_
  rcases ih with ⟨ha, hx⟩ | ⟨ha, hl⟩
  · by_cases hf : t.Frees x
    · exact .inl ⟨ha.snoc ht hf, hx.step hf (step_cases hu)⟩
    · exact .inr ⟨fun hc => hf (hc.last ht), hx.leaks hf (step_cases hu)⟩
  · exact .inr ⟨fun hc => ha hc.append, hl.step (step_cases hu)⟩

/-- The channels that the session holds are those of the pumps that have not
returned, exactly as long as no `libssh2_channel_free` has returned
`LIBSSH2_ERROR_EAGAIN`. -/
theorem channels_held_iff (xs : List In) (s : State) (h : Lts.Run step start xs s) :
    (∀ i, i ∈ s.held ↔ s.Serving i) ↔ Lts.Along step Frees start xs := by
  rcases exact_or_leaks h with ⟨ha, hx⟩ | ⟨ha, hl⟩
  · exact iff_of_true hx.2 ha
  · exact iff_of_false hl.not_exact ha

/-- A channel is accepted and the local service does not answer. -/
def refused (r : Reply) : List In :=
  [.acceptTest, .acceptTest, .acceptCall (some (.const 0)) false false .done, .pump 0 (.answer false) .done,
    .pump 0 .call .done, .pump 0 .call r]

theorem refused_freed :
    ∃ s, Lts.Run step start (refused .done) s ∧ s.pumps.length = 1 ∧ ∀ i, i ∈ s.held ↔ s.Serving i := by
  refine ⟨_, rfl, rfl, (channels_held_iff (refused .done) _ rfl).mpr ?_⟩
  refine .cons trivial rfl (.cons trivial rfl (.cons trivial rfl (.cons ?_ rfl (.cons ?_ rfl (.cons ?_ rfl
    Lts.along_nil)))))
  all_goals exact fun _ _ _ => rfl

/-- The free of a refused connection has to wait, and the channel stays. -/
theorem refused_leaks :
    ¬∀ xs s, Lts.Run step start xs s → ∀ i, i ∈ s.held ↔ s.Serving i := by
  intro h
  obtain ⟨s, hs, hl⟩ : ∃ s, Lts.Run step start (refused (.again false)) s ∧ s.Leaks :=
    ⟨_, rfl, 0, _, by decide, rfl, rfl⟩
  exact hl.not_exact (h _ s hs)

end State

end ErplTunnel.Session

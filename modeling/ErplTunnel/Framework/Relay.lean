import ErplTunnel.Framework.Transit

/-!
# The invariant of a two-way relay

A relay that serves both directions from one thread, through one buffer, and
stops when a flag goes down. Where it stands in its loop says how much each
direction owes (`Slot`): nothing; a slice of the buffer; nothing unless the
flag is down, when a chunk may have been abandoned; or anything, once the
relay is on its way out. `Slot.Holds` is what a slot promises, and the lemmas
say which slot each kind of step leads to. The promise does not look at the
buffer unless a slice of it is owed, which is why one buffer serves both
directions.
-/

namespace Relay

variable {α : Type*} {cap : Nat}

/-- The two directions of a relay. -/
inductive Dir where
  | up
  | down
  deriving DecidableEq, Repr

def Dir.opp : Dir → Dir
  | .up => .down
  | .down => .up

theorem Dir.opp_ne (d : Dir) : d.opp ≠ d := by
  cases d <;> decide

theorem Dir.eq_or_opp (c d : Dir) : c = d ∨ c = d.opp := by
  cases c <;> cases d <;> simp [Dir.opp]

/-- How much a direction owes. -/
inductive Slot where
  /-- Nothing. -/
  | clean
  /-- The cells of the buffer from `off` up to `n`. -/
  | owes (off n : Nat)
  /-- Nothing, while the relay is running. -/
  | loose
  /-- The relay is closing. -/
  | cut
  deriving DecidableEq, Repr

namespace Slot

/-- What a slot promises of a flow. -/
def Holds (running : Bool) (buf : Buffer α cap) (f : Transit α) : Slot → Prop
  | clean => f.Owes []
  | owes off n => off ≤ n ∧ n ≤ cap ∧ f.Owes (buf.slice off n)
  | loose => (running = true → f.Owes []) ∧ ∃ q, f.Owes q
  | cut => ∃ q, f.Owes q

variable {running : Bool} {buf buf' : Buffer α cap} {f : Transit α} {slot : Slot}

theorem Holds.exists_owes (h : slot.Holds running buf f) : ∃ q, f.Owes q := by
  cases slot with
  | clean => exact ⟨_, h⟩
  | owes off n => exact ⟨_, h.2.2⟩
  | loose => exact h.2
  | cut => exact h

theorem Holds.isPrefix (h : slot.Holds running buf f) : f.put <+: f.got :=
  h.exists_owes.elim fun _ hq => hq.isPrefix

/-- The flag going down breaks no promise. -/
theorem Holds.shutdown (h : slot.Holds running buf f) : slot.Holds false buf f := by
  cases slot with
  | loose => exact ⟨nofun, h.2⟩
  | clean | owes | cut => exact h

theorem Holds.toCut (h : slot.Holds running buf f) : cut.Holds running buf' f := h.exists_owes

theorem Holds.cleanToLoose (h : clean.Holds running buf f) : loose.Holds running buf' f :=
  ⟨fun _ => h, _, h⟩

theorem Holds.cleanBuf (h : clean.Holds running buf f) : clean.Holds running buf' f := h

theorem Holds.looseBuf (h : loose.Holds running buf f) : loose.Holds running buf' f := h

theorem Holds.looseToClean (h : loose.Holds running buf f) (hr : running = true) :
    clean.Holds running buf' f := h.1 hr

/-- A chunk is read into the buffer. -/
theorem Holds.recv (h : clean.Holds running buf f) {xs : List α} (hx : xs.length ≤ cap) :
    (owes 0 xs.length).Holds running (buf.fill xs) (f.recv xs) := by
  refine ⟨Nat.zero_le _, hx, ?_⟩
  rw [Buffer.slice_fill _ hx]
  exact Transit.Owes.recv h xs

/-- The sink accepts the front of the chunk. -/
theorem Holds.accept {off n k : Nat} (h : (owes off n).Holds running buf f) (hk : k ≤ n - off) :
    (owes (off + k) n).Holds running buf (f.accept (buf.slice off (off + k))) := by
  obtain ⟨h₁, h₂, ho⟩ := h
  refine ⟨by omega, h₂, Transit.Owes.accept ?_⟩
  rwa [← Buffer.slice_split _ (by omega) (by omega)]

/-- The chunk is through. -/
theorem Holds.owesToClean {off n : Nat} (h : (owes off n).Holds running buf f) (hn : n ≤ off) :
    clean.Holds running buf' f := by
  obtain ⟨hle, -, ho⟩ := h
  rwa [show off = n by omega, Buffer.slice_self] at ho

/-- The chunk is through, or the flag is down. -/
theorem Holds.owesToLoose {off n : Nat} (h : (owes off n).Holds running buf f)
    (hd : off < n → running = false) : loose.Holds running buf' f := by
  refine ⟨fun hr => ?_, h.exists_owes⟩
  rcases Nat.lt_or_ge off n with hlt | hge
  · rw [hd hlt] at hr; cases hr
  · have hc : clean.Holds running buf f := h.owesToClean hge
    exact hc

/-- A chunk that is not through is owed. -/
theorem Holds.owesNe {off n : Nat} (h : (owes off n).Holds running buf f) (hlt : off < n) : f.put ≠ f.got := by
  intro he
  have hn := congrArg List.length (h.2.2.nil_of_eq he)
  rw [Buffer.length_slice _ h.2.1] at hn
  simp only [List.length_nil] at hn
  omega

end Slot

end Relay

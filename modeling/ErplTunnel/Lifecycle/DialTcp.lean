import Mathlib.Tactic.NormNum
import ErplTunnel.Lifecycle.SshExporter

/-!
# DialTcp and its deadline

`DialTcp` goes over the addresses of a name. Each of them gets a socket, a
non-blocking `connect` and, where that is in progress, a `select` with the whole
timeout. The waits of one call are as many as the addresses that are in progress
(`dialLoop_calls`), so they stay within what was asked for when there is at most
one of those, and when the product that `Start` makes of the seconds fits in an
int (`timeout_is_bound_iff`).
-/

namespace ErplTunnel.Lifecycle.Dial

/-- What `connect` returns: 0, an error that says it is in progress, or another. -/
inductive ConnectResult where
  | connected
  | inProgress
  | failed
  deriving DecidableEq, Repr

def kInvalidSocket : Int := -1

def socketValid (s : Int) : Bool := s != kInvalidSocket

/-- An address of `getaddrinfo`, with what the calls for it return. -/
structure Address where
  socket : Int
  connect : ConnectResult
  select : Int
  /-- `getsockopt` fails, or reads an error back. -/
  soError : Bool
  deriving DecidableEq, Repr

structure Timeval where
  sec : Int32
  usec : Int32
  deriving DecidableEq, Repr

/-- `timeval tv{timeout_ms / 1000, (timeout_ms % 1000) * 1000}`. -/
def timeval (timeoutMs : Int32) : Timeval := ⟨timeoutMs / 1000, timeoutMs % 1000 * 1000⟩

/-- The loop of `DialTcp`: its variables, and the calls so far. -/
structure Dialling where
  sock : Int := kInvalidSocket
  timedOut : Bool := false
  /-- The timeouts given to `select`. -/
  waits : List Timeval := []
  /-- The sockets put into a set. -/
  fdSets : List Int := []
  closed : List Int := []
  deriving DecidableEq, Repr

def Dialling.closeSocketHandle (d : Dialling) (s : Int) : Dialling := { d with closed := d.closed ++ [s] }

/-- One turn of the loop. -/
def Dialling.address (d : Dialling) (timeoutMs : Int32) (a : Address) : Dialling :=
  if !socketValid a.socket then d
  else
    match a.connect with
    | .connected => { d with sock := a.socket }
    | .failed => d.closeSocketHandle a.socket
    | .inProgress =>
      let d := { d with fdSets := d.fdSets ++ [a.socket], waits := d.waits ++ [timeval timeoutMs] }
      if a.select ≤ 0 then { d with timedOut := d.timedOut || a.select == 0 }.closeSocketHandle a.socket
      else if a.soError then d.closeSocketHandle a.socket
      else { d with sock := a.socket }

def dialLoop (timeoutMs : Int32) (d : Dialling) : List Address → Dialling
  | [] => d
  | a :: as => if socketValid d.sock then d else dialLoop timeoutMs (d.address timeoutMs a) as

/-- `DialTcp`, of a name with these addresses; there are none where `getaddrinfo`
fails. It returns a socket or the text in `err`. -/
def dialTcp (host : String) (port : Int) (timeoutMs : Int32) (res : List Address) : Except String Int × Dialling :=
  if res = [] then (.error ("could not resolve '" ++ host ++ "'"), {})
  else
    let d := dialLoop timeoutMs {} res
    if socketValid d.sock then (.ok d.sock, d)
    else if d.timedOut then (.error ("timed out connecting to " ++ host ++ ":" ++ toString port), d)
    else (.error ("could not connect to " ++ host ++ ":" ++ toString port), d)

/-- `connect_timeout_ms` in `Start`. -/
def connectTimeoutMs (timeoutSeconds : Int32) : Int32 :=
  if 0 < timeoutSeconds then timeoutSeconds * 1000 else 30000

namespace Address

/-- `connect` has not finished. -/
def pending (a : Address) : Bool := socketValid a.socket && a.connect == .inProgress

/-- The address ends the loop. -/
def connects (a : Address) : Bool :=
  socketValid a.socket &&
    (a.connect == .connected || a.connect == .inProgress && decide (0 < a.select) && !a.soError)

/-- The address as the life of the exporter has it. -/
def attempt (a : Address) : SshExporter.Attempt :=
  if !socketValid a.socket then .noSocket else if a.connects then .connected else .refused

end Address

/-- The addresses that the loop comes to: those up to the first that connects. -/
def tried : List Address → List Address
  | [] => []
  | a :: as => a :: if a.connects then [] else tried as

section Loop

variable (ms : Int32)

theorem address_sock (d : Dialling) (a : Address) :
    (d.address ms a).sock = if a.connects then a.socket else d.sock := by
  unfold Dialling.address Address.connects
  cases hv : socketValid a.socket with
  | false => simp
  | true =>
    cases hc : a.connect with
    | connected => simp
    | failed => simp [Dialling.closeSocketHandle]
    | inProgress =>
      by_cases hs : a.select ≤ 0
      · have hn : ¬0 < a.select := by omega
        simp [hs, hn, Dialling.closeSocketHandle]
      · have hp : 0 < a.select := by omega
        cases he : a.soError <;> simp [hs, hp, Dialling.closeSocketHandle]

theorem address_calls (d : Dialling) (a : Address) :
    (d.address ms a).waits = d.waits ++ ([a].filter Address.pending).map (fun _ => timeval ms) ∧
      (d.address ms a).fdSets = d.fdSets ++ ([a].filter Address.pending).map Address.socket := by
  unfold Dialling.address Address.pending
  cases hv : socketValid a.socket with
  | false => simp [hv]
  | true =>
    cases hc : a.connect with
    | connected => simp [hv, hc]
    | failed => simp [hv, hc, Dialling.closeSocketHandle]
    | inProgress =>
      simp only [Bool.not_true, Bool.false_eq_true, ↓reduceIte]
      split
      · simp [hv, hc, Dialling.closeSocketHandle]
      · split <;> simp [hv, hc, Dialling.closeSocketHandle]

theorem socketValid_of_connects {a : Address} (h : a.connects) : socketValid a.socket := by
  simp only [Address.connects, Bool.and_eq_true] at h
  exact h.1

theorem dialLoop_valid {d : Dialling} (h : socketValid d.sock) (res : List Address) : dialLoop ms d res = d := by
  cases res with
  | nil => rfl
  | cons a as => simp [dialLoop, h]

/-- The calls of the loop: a `select` for each address tried that is in progress,
with the whole timeout. -/
theorem dialLoop_calls {d : Dialling} (h : ¬socketValid d.sock) (res : List Address) :
    (dialLoop ms d res).waits = d.waits ++ ((tried res).filter Address.pending).map (fun _ => timeval ms) ∧
      (dialLoop ms d res).fdSets = d.fdSets ++ ((tried res).filter Address.pending).map Address.socket := by
  induction res generalizing d with
  | nil => simp [dialLoop, tried]
  | cons a as ih =>
    obtain ⟨hw, hf⟩ := address_calls ms d a
    have hs := address_sock ms d a
    simp only [dialLoop, h, Bool.false_eq_true, ↓reduceIte, tried]
    by_cases hc : a.connects
    · simp only [hc, ↓reduceIte] at hs ⊢
      rw [dialLoop_valid ms (by rw [hs]; exact socketValid_of_connects hc)]
      exact ⟨hw, hf⟩
    · simp only [hc, Bool.false_eq_true, ↓reduceIte] at hs ⊢
      obtain ⟨hw', hf'⟩ := ih (d := d.address ms a) (by rw [hs]; exact h)
      have happ : (a :: tried as).filter Address.pending =
          [a].filter Address.pending ++ (tried as).filter Address.pending := by
        rw [← List.filter_append]; rfl
      rw [hw', hf', hw, hf, happ, List.map_append, List.map_append, List.append_assoc, List.append_assoc]
      exact ⟨rfl, rfl⟩

theorem dialTcp_calls (host : String) (port : Int) (res : List Address) :
    (dialTcp host port ms res).2.waits = ((tried res).filter Address.pending).map (fun _ => timeval ms) ∧
      (dialTcp host port ms res).2.fdSets = ((tried res).filter Address.pending).map Address.socket := by
  have h := dialLoop_calls ms (d := {}) (by decide) res
  unfold dialTcp
  by_cases hr : res = []
  · subst hr; simp [tried]
  · simp only [hr, ↓reduceIte]
    split
    · simpa using h
    · split <;> simpa using h

end Loop

theorem dialLoop_attempts {d : Dialling} (h : ¬socketValid d.sock) (ms : Int32) (name : Nat → SshExporter.Res)
    (k : Nat) (res : List Address) :
    (SshExporter.dialTcp name k (res.map Address.attempt)).2.isSome = socketValid (dialLoop ms d res).sock := by
  induction res generalizing d k with
  | nil => simpa [dialLoop, SshExporter.dialTcp] using h
  | cons a as ih =>
    have hs := address_sock ms d a
    simp only [dialLoop, h, Bool.false_eq_true, ↓reduceIte, List.map_cons]
    by_cases hc : a.connects
    · have hv := socketValid_of_connects hc
      rw [if_pos hc] at hs
      rw [dialLoop_valid ms (by rw [hs]; exact hv), hs]
      simp [Address.attempt, hv, hc, SshExporter.dialTcp]
    · rw [if_neg hc] at hs
      rw [← ih (d := d.address ms a) (by rw [hs]; exact h) (k + 1)]
      by_cases hv : socketValid a.socket
      · simp [Address.attempt, hv, hc, SshExporter.dialTcp]
      · simp [Address.attempt, hv, SshExporter.dialTcp]

/-- The life of the exporter dials the same: a socket comes back, or none. -/
theorem dialTcp_attempts (host : String) (port : Int) (ms : Int32) (name : Nat → SshExporter.Res)
    (res : List Address) :
    (SshExporter.dialTcp name 0 (res.map Address.attempt)).2.isSome = (dialTcp host port ms res).1.isOk := by
  rw [dialLoop_attempts (d := {}) (by decide) ms]
  unfold dialTcp
  by_cases hr : res = []
  · subst hr; rfl
  · simp only [hr, ↓reduceIte]
    split
    · rename_i hv; simpa [Except.isOk, Except.toBool] using hv
    · rename_i hv
      split <;> simpa [Except.isOk, Except.toBool] using hv

section Deadline

/-- The wait in milliseconds. -/
def Timeval.ms (tv : Timeval) : Int := tv.sec.toInt * 1000 + tv.usec.toInt / 1000

/-- POSIX asks this of what is given to `select`. -/
def Timeval.WellFormed (tv : Timeval) : Prop := 0 ≤ tv.sec.toInt ∧ 0 ≤ tv.usec.toInt ∧ tv.usec.toInt < 1000000

/-- The milliseconds that a caller with this timeout asks for. -/
def askedMs (timeoutSeconds : Int32) : Int :=
  if 0 < timeoutSeconds.toInt then timeoutSeconds.toInt * 1000 else 30000

theorem toInt_bounds (t : Int32) : -2147483648 ≤ t.toInt ∧ t.toInt ≤ 2147483647 := by
  have h₁ := Int32.le_toInt t
  have h₂ := Int32.toInt_lt t
  omega

theorem timeval_sec (ms : Int32) : (timeval ms).sec.toInt = ms.toInt.tdiv 1000 := by
  have h : (1000 : Int32).toInt = 1000 := by decide
  rw [timeval, Int32.toInt_div_of_ne_right _ _ (by decide), h]

theorem timeval_usec (ms : Int32) : (timeval ms).usec.toInt = ms.toInt.tmod 1000 * 1000 := by
  have h : (1000 : Int32).toInt = 1000 := by decide
  have hlt := Int.tmod_lt_of_pos ms.toInt (show (0 : Int) < 1000 by decide)
  have hgt : -1000 < ms.toInt.tmod 1000 := by
    have := Int.lt_tmod_of_pos ms.toInt (show (0 : Int) < 1000 by decide)
    omega
  rw [timeval, Int32.toInt_mul, Int32.toInt_mod, h]
  exact Int.bmod_eq_of_le (by norm_num; omega) (by norm_num; omega)

theorem timeval_wellFormed {ms : Int32} (h : 0 ≤ ms.toInt) : (timeval ms).WellFormed := by
  have hs : 0 ≤ ms.toInt.tdiv 1000 := Int.tdiv_nonneg h (by decide)
  have hu : 0 ≤ ms.toInt.tmod 1000 := Int.tmod_nonneg 1000 h
  have hlt := Int.tmod_lt_of_pos ms.toInt (show (0 : Int) < 1000 by decide)
  refine ⟨?_, ?_, ?_⟩
  · rw [timeval_sec]; exact hs
  · rw [timeval_usec]; omega
  · rw [timeval_usec]; omega

/-- No part of the timeout is lost in the split. -/
theorem timeval_ms (ms : Int32) : (timeval ms).ms = ms.toInt := by
  have h := Int.mul_tdiv_add_tmod ms.toInt 1000
  rw [Timeval.ms, timeval_sec, timeval_usec, Int.mul_ediv_cancel _ (by decide)]
  omega

theorem connectTimeoutMs_toInt (t : Int32) :
    (connectTimeoutMs t).toInt = if 0 < t.toInt then (t.toInt * 1000).bmod (2 ^ 32) else 30000 := by
  have h : (0 < t) = (0 < t.toInt) := by rw [Int32.lt_iff_toInt_lt]; rfl
  have h₁ : (1000 : Int32).toInt = 1000 := by decide
  simp only [connectTimeoutMs, h]
  split
  · rw [Int32.toInt_mul, h₁]
  · rfl

/-- The product does not overflow up to this many seconds, which are 24 days. -/
theorem connectTimeoutMs_exact_iff (t : Int32) : (connectTimeoutMs t).toInt = askedMs t ↔ t.toInt ≤ 2147483 := by
  obtain ⟨-, hmax⟩ := toInt_bounds t
  have hb := toInt_bounds (connectTimeoutMs t)
  rw [connectTimeoutMs_toInt] at hb ⊢
  unfold askedMs
  by_cases hpos : 0 < t.toInt
  · simp only [hpos, ↓reduceIte] at hb ⊢
    constructor
    · intro h; omega
    · intro h
      exact Int.bmod_eq_of_le (by norm_num; omega) (by norm_num; omega)
  · simp only [hpos, ↓reduceIte, true_iff]
    omega

theorem askedMs_pos (t : Int32) : 0 < askedMs t := by
  unfold askedMs
  split <;> omega

theorem sum_waits (ms : Int32) (as : List Address) :
    ((as.map fun _ => timeval ms).map Timeval.ms).sum = as.length * ms.toInt := by
  induction as with
  | nil => simp
  | cons a as ih =>
    simp only [List.map_cons, List.sum_cons, List.length_cons, ih, timeval_ms]
    rw [Int.natCast_succ, Int.add_mul, Int.one_mul, Int.add_comm]

/-- The timeout bounds a dial: the product is exact and positive, what `select`
is given is well formed, and the waits are within what was asked for. -/
structure Bounded (timeoutSeconds : Int32) (d : Dialling) : Prop where
  exact : (connectTimeoutMs timeoutSeconds).toInt = askedMs timeoutSeconds
  positive : 0 < (connectTimeoutMs timeoutSeconds).toInt
  wellFormed : ∀ tv ∈ d.waits, tv.WellFormed
  total : (d.waits.map Timeval.ms).sum ≤ askedMs timeoutSeconds

/-- A dial of `Start` keeps to the timeout when the product fits and at most one
address tried is in progress: every further one waits for the whole timeout
again. -/
theorem timeout_is_bound_iff (t : Int32) (host : String) (port : Int) (res : List Address) :
    Bounded t (dialTcp host port (connectTimeoutMs t) res).2 ↔
      t.toInt ≤ 2147483 ∧ (tried res).countP Address.pending ≤ 1 := by
  obtain ⟨hw, -⟩ := dialTcp_calls (connectTimeoutMs t) host port res
  have hsum := sum_waits (connectTimeoutMs t) ((tried res).filter Address.pending)
  have hpos := askedMs_pos t
  rw [← hw, ← List.countP_eq_length_filter] at hsum
  constructor
  · intro h
    refine ⟨(connectTimeoutMs_exact_iff t).mp h.exact, ?_⟩
    have htotal := h.total
    rw [hsum, h.exact] at htotal
    by_contra hc
    -- two waits are over the total already
    have hge : (2 : Int) * askedMs t ≤ (tried res).countP Address.pending * askedMs t :=
      Int.mul_le_mul_of_nonneg_right (by omega) (by omega)
    omega
  · rintro ⟨ht, hc⟩
    have hexact := (connectTimeoutMs_exact_iff t).mpr ht
    refine ⟨hexact, by omega, ?_, ?_⟩
    · rw [hw]
      intro tv htv
      obtain ⟨-, -, rfl⟩ := List.mem_map.mp htv
      exact timeval_wellFormed (by omega)
    · rw [hsum, hexact]
      have hle : ((tried res).countP Address.pending : Int) * askedMs t ≤ 1 * askedMs t :=
        Int.mul_le_mul_of_nonneg_right (by omega) (by omega)
      omega

/-- With a timeout of 5, two addresses that do not answer are waited for 10
seconds; with one of 2147484, the product is negative. -/
theorem second_address_waits_again :
    ¬Bounded 5 (dialTcp "bastion" 22 (connectTimeoutMs 5) [⟨7, .inProgress, 0, false⟩, ⟨8, .inProgress, 0, false⟩]).2 ∧
      ¬Bounded 2147484 (dialTcp "bastion" 22 (connectTimeoutMs 2147484) []).2 := by
  constructor
  · intro h
    have htotal := h.total
    revert htotal
    decide
  · intro h
    have hpos := h.positive
    revert hpos
    decide

end Deadline

end ErplTunnel.Lifecycle.Dial

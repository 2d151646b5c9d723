import Mathlib.Algebra.Group.Nat.Defs
import Mathlib.Data.Set.Function
import ErplTunnel.Framework.Run
import ErplTunnel.Mesh.Loader

/-!
# The shim cache on Windows

`ExtractShim` on Windows keeps a shim under a name made from the hash of its
bytes. A call that finds a file of the right size there takes it; any other
writes the bytes, as many at a time as `WriteFile` takes, into a file of its own
process id and moves that into place. A move that fails is as good as one that
does not if there is a file of the right size afterwards.

Here any number of processes make these calls, each cut at its calls of the
system, and each may be gone at any step and its id be given to another process
(`step`). What is moved into place is the whole shim, whatever was left of
earlier ones, and nobody removes it (`cache_serves_whole_shim`).
-/

namespace ErplTunnel.Mesh.ShimCache

open Lts

/-- The hash of `BlobHashHex`, FNV-1a in 64 bits. -/
def blobHash (blob : List UInt8) : UInt64 :=
  blob.foldl (fun h b => (h ^^^ b.toUInt64) * 1099511628211) 1469598103934665603

/-- `BlobHashHex`: sixteen digits, as `%016llx` prints them. -/
def blobHashHex (blob : List UInt8) : List Char :=
  (List.range 16).reverse.map fun i => Nat.digitChar ((blobHash blob).toNat / 16 ^ i % 16)

/-- The paths under `ShimCacheRoot()`. -/
inductive Path where
  /-- `final_path`: the shim of Tailscale or the other one, in the directory of its hash. -/
  | final (dir : List Char) (tailscale : Bool)
  /-- `tmp_path`. -/
  | temp (dir : List Char) (tailscale : Bool) (pid : Nat)
  deriving DecidableEq, Repr

/-- The text of `final_path`. -/
def finalText (root : String) (dir : List Char) (tailscale : Bool) : String :=
  root ++ "\\" ++ String.ofList dir ++ if tailscale then "\\ts_shim.dll" else "\\nb_shim.dll"

def Path.text (root : String) : Path → String
  | .final dir tailscale => finalText root dir tailscale
  | .temp dir tailscale pid => finalText root dir tailscale ++ ".tmp." ++ toString pid

/-- The arguments of `ExtractShim`. -/
structure Call where
  kind : MeshKind
  blob : List UInt8
  deriving DecidableEq, Repr

def Call.finalPath (c : Call) : Path := .final (blobHashHex c.blob) (c.kind = .tailscale)

def Call.tempPath (c : Call) (pid : Nat) : Path := .temp (blobHashHex c.blob) (c.kind = .tailscale) pid

/-- The exceptions, with what the system says of each. -/
inductive ExtractError where
  /-- Of `ShimCacheRoot` or `CreateDirectoryTree`. -/
  | directory (what : String)
  | create (path : Path) (os : String)
  | write (os : String)
  | place (path : Path) (os : String)
  deriving DecidableEq, Repr

def ExtractError.what (root : String) : ExtractError → String
  | .directory what => what
  | .create path os => "Tunnel: could not write the mesh shim to '" ++ path.text root ++ "': " ++ os
  | .write os => "Tunnel: failed writing the mesh shim: " ++ os
  | .place path os => "Tunnel: could not place the mesh shim at '" ++ path.text root ++ "': " ++ os

/-- Where the process of an id stands. -/
inductive Proc where
  /-- No process has the id. -/
  | gone
  | idle
  /-- Before `CreateDirectoryTree`. -/
  | called (c : Call)
  /-- Before the first `GetFileAttributesExW`. -/
  | check (c : Call)
  /-- Before `CreateFileW`. -/
  | create (c : Call)
  /-- At the head of the loop, and the offset and the length of what each `WriteFile` has transferred. -/
  | write (c : Call) (written : Nat) (sent : List (Nat × Nat))
  /-- Before `MoveFileExW`. -/
  | move (c : Call) (sent : List (Nat × Nat))
  /-- Before the second `GetFileAttributesExW`. -/
  | recheck (c : Call) (os : String)
  /-- Before `DeleteFileW`, after which the call throws or returns. -/
  | discard (c : Call) (error : Option ExtractError)
  | returned (c : Call)
  | threw (c : Call) (error : ExtractError)
  deriving DecidableEq, Repr

/-- The call that the process is in, or was in last. -/
def Proc.call : Proc → Option Call
  | .gone | .idle => none
  | .called c | .check c | .create c | .write c _ _ | .move c _ | .recheck c _ | .discard c _ | .returned c
  | .threw c _ => some c

/-- The files by their paths. -/
abbrev Files := Path → Option (List UInt8)

structure State where
  files : Files
  procs : Nat → Proc

/-- No process has been started yet. -/
def start (files : Files) : State := ⟨files, fun _ => .gone⟩

/-- The process moves on, and leaves these files. -/
def State.next (s : State) (pid : Nat) (p : Proc) (files : Files) : State := ⟨files, Function.update s.procs pid p⟩

theorem State.next_procs (s : State) (pid : Nat) (p : Proc) (files : Files) : (s.next pid p files).procs pid = p :=
  Function.update_self ..

/-- `chunk`. -/
def chunk (len written : Nat) : Nat := if len - written > 2 ^ 20 then 2 ^ 20 else len - written

/-- `WriteFile` at an offset in a file. -/
def writeAt (file : List UInt8) (offset : Nat) (bytes : List UInt8) : List UInt8 :=
  file.take offset ++ bytes ++ file.drop (offset + bytes.length)

/-- The files after `got` bytes have been transferred into the temporary one. -/
def State.transfer (s : State) (pid : Nat) (c : Call) (written got : Nat) : Files :=
  Function.update s.files (c.tempPath pid)
    ((s.files (c.tempPath pid)).map fun f => writeAt f written ((c.blob.drop written).take got))

/-- `GetFileAttributesExW` succeeds and the size is right. -/
def rightSize (ok : Bool) (file : Option (List UInt8)) (len : Nat) : Bool :=
  ok && file.any fun f => f.length = len

/-- What happens next. Each call of the system may fail. -/
inductive Ev where
  | spawn (pid : Nat)
  /-- A crash, or the end of the process. -/
  | crash (pid : Nat)
  | call (pid : Nat) (c : Call)
  | createDirectoryTree (pid : Nat) (error : Option String)
  | getFileAttributes (pid : Nat) (ok : Bool)
  | createFile (pid : Nat) (error : Option String)
  /-- `WriteFile`, and how many bytes it has transferred; `os` is for a failure. -/
  | writeFile (pid : Nat) (ok : Bool) (got : Nat) (os : String)
  /-- `FlushFileBuffers` and `CloseHandle` after the loop. -/
  | closeHandle (pid : Nat)
  | moveFile (pid : Nat) (error : Option String)
  | deleteFile (pid : Nat) (ok : Bool)
  deriving Repr

def step (s : State) : Ev → Option State
  | .spawn pid =>
    match s.procs pid with
    | .gone => some (s.next pid .idle s.files)
    | _ => none
  | .crash pid => some (s.next pid .gone s.files)
  | .call pid c =>
    match s.procs pid with
    | .idle | .returned _ | .threw _ _ => some (s.next pid (.called c) s.files)
    | _ => none
  | .createDirectoryTree pid error =>
    match s.procs pid, error with
    | .called c, none => some (s.next pid (.check c) s.files)
    | .called c, some what => some (s.next pid (.threw c (.directory what)) s.files)
    | _, _ => none
  | .getFileAttributes pid ok =>
    match s.procs pid with
    | .check c =>
      if rightSize ok (s.files c.finalPath) c.blob.length then some (s.next pid (.returned c) s.files)
      else some (s.next pid (.create c) s.files)
    | .recheck c os =>
      let error := if rightSize ok (s.files c.finalPath) c.blob.length then none else some (.place c.finalPath os)
      some (s.next pid (.discard c error) s.files)
    | _ => none
  | .createFile pid error =>
    match s.procs pid, error with
    -- `CREATE_ALWAYS` empties a file that an earlier process of this id has left
    | .create c, none => some (s.next pid (.write c 0 []) (Function.update s.files (c.tempPath pid) (some [])))
    | .create c, some os => some (s.next pid (.threw c (.create (c.tempPath pid) os)) s.files)
    | _, _ => none
  | .writeFile pid ok got os =>
    match s.procs pid with
    | .write c written sent =>
      if written < c.blob.length ∧ got ≤ chunk c.blob.length written then
        let files := s.transfer pid c written got
        if !ok || got = 0 then some (s.next pid (.discard c (some (.write os))) files)
        else some (s.next pid (.write c (written + got) (sent ++ [(written, got)])) files)
      else none
    | _ => none
  | .closeHandle pid =>
    match s.procs pid with
    | .write c written sent => if written < c.blob.length then none else some (s.next pid (.move c sent) s.files)
    | _ => none
  | .moveFile pid error =>
    match s.procs pid, error with
    | .move c _, none =>
      match s.files (c.tempPath pid) with
      | none => none
      | some f =>
        let files := Function.update (Function.update s.files c.finalPath (some f)) (c.tempPath pid) none
        some (s.next pid (.returned c) files)
    | .move c _, some os => some (s.next pid (.recheck c os) s.files)
    | _, _ => none
  | .deleteFile pid ok =>
    match s.procs pid with
    | .discard c error =>
      let files := if ok then Function.update s.files (c.tempPath pid) none else s.files
      let p := match error with
        | none => Proc.returned c
        | some e => Proc.threw c e
      some (s.next pid p files)
    | _ => none

/-! ## The write loop -/

/-- The offsets of the bytes that were transferred. -/
def offsets (sent : List (Nat × Nat)) : List Nat := sent.flatMap fun t => List.range' t.1 t.2

/-- The transfers have come to `written`: no byte was left out, none was sent
twice, and there were no more transfers than bytes. -/
structure Sent (len written : Nat) (sent : List (Nat × Nat)) : Prop where
  le : written ≤ len
  once : offsets sent = List.range written
  few : sent.length ≤ written

theorem chunk_le {len written : Nat} : chunk len written ≤ len - written := by
  rw [chunk]
  split <;> omega

theorem chunk_pos {len written : Nat} (h : written < len) : 0 < chunk len written := by
  rw [chunk]
  split <;> omega

theorem Sent.snoc {len written got : Nat} {sent : List (Nat × Nat)} (h : Sent len written sent) (hpos : 0 < got)
    (hle : got ≤ chunk len written) : Sent len (written + got) (sent ++ [(written, got)]) where
  le := by
    have hrest := hle.trans chunk_le
    have hlen := h.le
    omega
  once := by
    have honce := h.once
    simp only [offsets] at honce
    simp only [offsets, List.flatMap_append, List.flatMap_singleton, honce]
    rw [List.range_add, List.range'_eq_map_range]
  few := by
    have hfew := h.few
    simp only [List.length_append, List.length_singleton]
    omega

/-- What comes next goes behind what is there. -/
theorem writeAt_take {blob : List UInt8} {written got : Nat} (h : written ≤ blob.length) :
    writeAt (blob.take written) written ((blob.drop written).take got) = blob.take (written + got) := by
  have hend : (blob.take written).drop (written + ((blob.drop written).take got).length) = [] :=
    List.drop_eq_nil_of_le (by simp only [List.length_take]; omega)
  rw [writeAt, hend, List.append_nil, List.take_take, Nat.min_self, List.take_add]

theorem step_writeFile {s : State} {pid : Nat} {c : Call} {written got : Nat} {sent : List (Nat × Nat)} (os : String)
    (hp : s.procs pid = .write c written sent) (hw : written < c.blob.length) (hpos : 0 < got)
    (hle : got ≤ chunk c.blob.length written) :
    step s (.writeFile pid true got os) =
      some (s.next pid (.write c (written + got) (sent ++ [(written, got)])) (s.transfer pid c written got)) := by
  have hne : got ≠ 0 := Nat.pos_iff_ne_zero.mp hpos
  simp only [step, hp, hw, hle, and_self, ↓reduceIte, Bool.not_true, Bool.false_or, decide_eq_true_eq, hne]

/-- A process in the loop writes, `part` of each chunk being transferred, for as
long as there is something left. -/
def transfers (pid : Nat) (part : Nat → Nat → Nat) (len : Nat) : Nat → Nat → List Ev
  | 0, _ => []
  | n + 1, written =>
    if written < len then
      let got := part written (chunk len written)
      .writeFile pid true got "" :: transfers pid part len n (written + got)
    else []

theorem transfers_done {pid len n written : Nat} {part : Nat → Nat → Nat} (h : ¬written < len) :
    transfers pid part len n written = [] := by
  cases n with
  | zero => rfl
  | succ n => rw [transfers, if_neg h]

/-- Where every transfer is a part of its chunk that is not empty, the loop ends
after as many of them as there are bytes left, at most. -/
theorem loop_ends {part : Nat → Nat → Nat} (hpart : ∀ w n, 0 < n → 0 < part w n ∧ part w n ≤ n) {pid : Nat} {c : Call}
    (n : Nat) (s : State) (written : Nat) (sent : List (Nat × Nat)) (hp : s.procs pid = .write c written sent)
    (hn : c.blob.length - written ≤ n) :
    ∃ t sent', Run step s (transfers pid part c.blob.length n written ++ [.closeHandle pid]) t ∧
      t.procs pid = .move c sent' := by
  have hclose : ∀ (s : State) written sent, s.procs pid = .write c written sent → ¬written < c.blob.length →
      ∃ t, Run step s [.closeHandle pid] t ∧ t.procs pid = .move c sent := by
    intro s written sent hp hw
    refine ⟨s.next pid (.move c sent) s.files, run_cons.mpr ⟨_, ?_, run_nil.mpr rfl⟩, s.next_procs ..⟩
    simp only [step, hp, if_neg hw]
  induction n generalizing s written sent with
  | zero =>
    obtain ⟨t, ht, hm⟩ := hclose s written sent hp (by omega)
    exact ⟨t, sent, ht, hm⟩
  | succ n ih =>
    by_cases hw : written < c.blob.length
    · obtain ⟨hpos, hle⟩ := hpart written _ (chunk_pos hw)
      simp only [transfers, if_pos hw, List.cons_append, run_cons]
      generalize part written (chunk c.blob.length written) = got at *
      have hu := step_writeFile "" hp hw hpos hle
      obtain ⟨t, sent', ht, hm⟩ := ih _ (written + got) _ (s.next_procs pid _ _) (by omega)
      exact ⟨t, sent', ⟨_, hu, ht⟩, hm⟩
    · rw [transfers_done hw]
      obtain ⟨t, ht, hm⟩ := hclose s written sent hp hw
      exact ⟨t, sent, ht, hm⟩

/-! ## The cache -/

/-- A file that has the size of the shim is the shim. -/
def Whole (file : Option (List UInt8)) (blob : List UInt8) : Prop :=
  ∀ f, file = some f → f.length = blob.length → f = blob

/-- What is known of the files where a process stands. -/
def Holds (files : Files) (pid : Nat) : Proc → Prop
  | .write c written sent =>
    files (c.tempPath pid) = some (c.blob.take written) ∧ Sent c.blob.length written sent
  | .move c sent => files (c.tempPath pid) = some c.blob ∧ Sent c.blob.length c.blob.length sent
  | .discard c none | .returned c => files c.finalPath = some c.blob
  | _ => True

/-- `builds` are the shims of the processes. -/
structure Inv (builds : Set (List UInt8)) (s : State) : Prop where
  whole : ∀ c : Call, c.blob ∈ builds → Whole (s.files c.finalPath) c.blob
  procs : ∀ pid, Holds s.files pid (s.procs pid)
  calls : ∀ pid c, (s.procs pid).call = some c → c.blob ∈ builds

theorem Whole.of_eq {file : Option (List UInt8)} {blob : List UInt8} (h : file = some blob) : Whole file blob := by
  intro f hf _
  rw [h] at hf
  exact (Option.some.inj hf).symm

/-- The files of the others stay as they are, and a shim in its place does. -/
theorem Holds.frame {files files' : Files} {pid : Nat} {p : Proc} (h : Holds files pid p)
    (htemp : ∀ c : Call, files' (c.tempPath pid) = files (c.tempPath pid))
    (hfinal : ∀ c, p.call = some c → files c.finalPath = some c.blob → files' c.finalPath = some c.blob) :
    Holds files' pid p := by
  cases p with
  | write c written sent => exact ⟨(htemp c).trans h.1, h.2⟩
  | move c sent => exact ⟨(htemp c).trans h.1, h.2⟩
  | returned c => exact hfinal c rfl h
  | discard c error =>
    cases error with
    | none => exact hfinal c rfl h
    | some e => trivial
  | _ => trivial

variable {builds : Set (List UInt8)} {s t : State}

theorem tempPath_ne {c d : Call} {pid pid' : Nat} (h : pid' ≠ pid) : d.tempPath pid' ≠ c.tempPath pid := by
  intro he
  simp only [Call.tempPath, Path.temp.injEq] at he
  exact h he.2.2

theorem finalPath_ne {c d : Call} {pid : Nat} : d.finalPath ≠ c.tempPath pid := by
  simp [Call.finalPath, Call.tempPath]

/-- What a process may leave: the files of the others as they were, and in a
place of a shim what was there or the shim. -/
structure Leaves (builds : Set (List UInt8)) (s : State) (pid : Nat) (files : Files) : Prop where
  temp : ∀ pid' (c : Call), pid' ≠ pid → files (c.tempPath pid') = s.files (c.tempPath pid')
  final : ∀ c : Call, c.blob ∈ builds → files c.finalPath = s.files c.finalPath ∨ files c.finalPath = some c.blob

theorem Leaves.same {pid : Nat} : Leaves builds s pid s.files := ⟨fun _ _ _ => rfl, fun _ _ => .inl rfl⟩

/-- A process changes its temporary file. -/
theorem Leaves.update {pid : Nat} {c : Call} {file : Option (List UInt8)} :
    Leaves builds s pid (Function.update s.files (c.tempPath pid) file) where
  temp _ _ h := Function.update_of_ne (tempPath_ne h) ..
  final _ _ := .inl (Function.update_of_ne finalPath_ne ..)

theorem Inv.next (hi : Inv builds s) {pid : Nat} {p : Proc} {files : Files} (hl : Leaves builds s pid files)
    (hp : Holds files pid p) (hc : ∀ c, p.call = some c → c.blob ∈ builds) : Inv builds (s.next pid p files) where
  whole c hb := by
    rcases hl.final c hb with h | h
    · have hw := hi.whole c hb
      rwa [← h] at hw
    · exact .of_eq h
  procs pid' := by
    by_cases h : pid' = pid
    · subst h
      rw [State.next_procs]
      exact hp
    · have hq : (s.next pid p files).procs pid' = s.procs pid' := Function.update_of_ne h ..
      rw [hq]
      refine (hi.procs pid').frame (fun c => hl.temp pid' c h) fun c hcall hin => ?_
      rcases hl.final c (hi.calls pid' c hcall) with hf | hf
      · exact hf.trans hin
      · exact hf
  calls pid' c h := by
    by_cases hpid : pid' = pid
    · subst hpid
      rw [State.next_procs] at h
      exact hc c h
    · have hq : (s.next pid p files).procs pid' = s.procs pid' := Function.update_of_ne hpid ..
      rw [hq] at h
      exact hi.calls pid' c h

/-- The size says that it is the shim. -/
theorem Inv.of_rightSize (hi : Inv builds s) {c : Call} (hc : c.blob ∈ builds) {ok : Bool}
    (h : rightSize ok (s.files c.finalPath) c.blob.length = true) : s.files c.finalPath = some c.blob := by
  have hw := hi.whole c hc
  cases hf : s.files c.finalPath with
  | none => simp [rightSize, hf] at h
  | some f =>
    have hsize : f.length = c.blob.length := by
      simp only [rightSize, hf, Option.any_some, Bool.and_eq_true, decide_eq_true_eq] at h
      exact h.2
    rw [hw f hf hsize]

/-- The step puts a shim into its place, at the path of its hash. -/
theorem Leaves.move (hcoll : Set.InjOn blobHashHex builds) {pid : Nat} {c : Call} (hc : c.blob ∈ builds) :
    Leaves builds s pid
      (Function.update (Function.update s.files c.finalPath (some c.blob)) (c.tempPath pid) none) where
  temp pid' d h := by
    rw [Function.update_of_ne (tempPath_ne h), Function.update_of_ne finalPath_ne.symm]
  final d hd := by
    rw [Function.update_of_ne finalPath_ne]
    by_cases he : d.finalPath = c.finalPath
    · right
      have hhash : blobHashHex d.blob = blobHashHex c.blob := (Path.final.inj he).1
      rw [he, Function.update_self, hcoll hd hc hhash]
    · left
      exact Function.update_of_ne he ..

/-- One process moves on, to where what is known of it holds, and leaves the files
as it may. -/
def Moves (builds : Set (List UInt8)) (s t : State) : Prop :=
  ∃ pid p files, t = s.next pid p files ∧ Leaves builds s pid files ∧ Holds files pid p ∧
    ∀ c, p.call = some c → c.blob ∈ builds

/-- It stays in its call. -/
theorem Inv.moves (hi : Inv builds s) {pid : Nat} {p p' : Proc} {files : Files} (hp : s.procs pid = p)
    (hcall : p'.call = p.call) (hl : Leaves builds s pid files) (hh : Holds files pid p') :
    Moves builds s (s.next pid p' files) := by
  refine ⟨pid, p', files, rfl, hl, hh, fun c hc => hi.calls pid c ?_⟩
  rw [hp, ← hcall, hc]

theorem Inv.holds (hi : Inv builds s) {pid : Nat} {p : Proc} (hp : s.procs pid = p) : Holds s.files pid p :=
  hp ▸ hi.procs pid

theorem Inv.built (hi : Inv builds s) {pid : Nat} {p : Proc} {c : Call} (hp : s.procs pid = p) (hc : p.call = some c) :
    c.blob ∈ builds :=
  hi.calls pid c (hp ▸ hc)

/-- A step moves one process on. -/
theorem step_moves (hcoll : Set.InjOn blobHashHex builds) (hi : Inv builds s) {e : Ev} (h : step s e = some t)
    (he : ∀ pid c, e = .call pid c → c.blob ∈ builds) : Moves builds s t := by
  cases e with
  | spawn pid =>
    simp only [step] at h
    split at h <;> cases h
    exact ⟨pid, .idle, s.files, rfl, .same, trivial, by simp [Proc.call]⟩
  | crash pid =>
    cases h
    exact ⟨pid, .gone, s.files, rfl, .same, trivial, by simp [Proc.call]⟩
  | call pid c =>
    have hb : ∀ d, (Proc.called c).call = some d → d.blob ∈ builds := by
      intro d hd
      cases hd
      exact he pid c rfl
    simp only [step] at h
    split at h <;> cases h <;> exact ⟨pid, .called c, s.files, rfl, .same, trivial, hb⟩
  | createDirectoryTree pid error =>
    simp only [step] at h
    split at h <;> cases h
    case h_1 hp => exact hi.moves hp rfl .same trivial
    case h_2 hp => exact hi.moves hp rfl .same trivial
  | getFileAttributes pid ok =>
    simp only [step] at h
    split at h
    case h_3 => cases h
    case h_1 c hp =>
      split at h <;> cases h
      case isTrue hsize => exact hi.moves hp rfl .same (hi.of_rightSize (hi.built hp rfl) hsize)
      case isFalse => exact hi.moves hp rfl .same trivial
    case h_2 c os hp =>
      cases h
      refine hi.moves hp rfl .same ?_
      split
      case isTrue hsize => exact hi.of_rightSize (hi.built hp rfl) hsize
      case isFalse => trivial
  | createFile pid error =>
    simp only [step] at h
    split at h <;> cases h
    case h_1 c hp =>
      have hempty : Sent c.blob.length 0 [] := ⟨Nat.zero_le _, rfl, Nat.le_refl 0⟩
      refine hi.moves hp rfl .update ⟨?_, hempty⟩
      rw [Function.update_self, List.take_zero]
    case h_2 hp => exact hi.moves hp rfl .same trivial
  | writeFile pid ok got os =>
    simp only [step] at h
    split at h
    case h_2 => cases h
    case h_1 c written sent hp =>
    obtain ⟨hfile, hsent⟩ := hi.holds hp
    split at h
    case isFalse => cases h
    case isTrue hgot =>
    split at h <;> cases h
    case isTrue => exact hi.moves hp rfl .update trivial
    case isFalse hok =>
      have hpos : 0 < got := by
        simp only [Bool.or_eq_true, decide_eq_true_eq, not_or] at hok
        omega
      refine hi.moves hp rfl .update ⟨?_, hsent.snoc hpos hgot.2⟩
      rw [State.transfer, Function.update_self, hfile, Option.map_some, writeAt_take hsent.le]
  | closeHandle pid =>
    simp only [step] at h
    split at h
    case h_2 => cases h
    case h_1 c written sent hp =>
    obtain ⟨hfile, hsent⟩ := hi.holds hp
    split at h <;> cases h
    case isFalse hw =>
    -- nothing is left, so the file is the whole shim
    obtain rfl : written = c.blob.length := by
      have hle := hsent.le
      omega
    rw [List.take_length] at hfile
    exact hi.moves hp rfl .same ⟨hfile, hsent⟩
  | moveFile pid error =>
    simp only [step] at h
    split at h
    case h_3 => cases h
    case h_1 c sent hp =>
      have hfile := (hi.holds hp).1
      rw [hfile] at h
      cases h
      refine hi.moves hp rfl (.move hcoll (hi.built hp rfl)) ?_
      show Function.update _ _ _ _ = _
      rw [Function.update_of_ne finalPath_ne, Function.update_self]
    case h_2 hp =>
      cases h
      exact hi.moves hp rfl .same trivial
  | deleteFile pid ok =>
    simp only [step] at h
    split at h <;> cases h
    case h_1 c error hp =>
    have hleaves : Leaves builds s pid (if ok = true then Function.update s.files (c.tempPath pid) none else s.files) := by
      split
      · exact .update
      · exact .same
    cases error with
    | some e => exact hi.moves hp rfl hleaves trivial
    | none =>
      refine hi.moves hp rfl hleaves ?_
      rcases hleaves.final c (hi.built hp rfl) with hf | hf
      · exact hf.trans (hi.holds hp)
      · exact hf

theorem Inv.step (hcoll : Set.InjOn blobHashHex builds) (hi : Inv builds s) {e : Ev} (h : step s e = some t)
    (he : ∀ pid c, e = .call pid c → c.blob ∈ builds) : Inv builds t := by
  obtain ⟨pid, p, files, rfl, hl, hp, hc⟩ := step_moves hcoll hi h he
  exact hi.next hl hp hc

/-- A shim that is in its place stays there. -/
theorem inPlace_step (hcoll : Set.InjOn blobHashHex builds) (hi : Inv builds s) {e : Ev} (h : step s e = some t)
    (he : ∀ pid c, e = .call pid c → c.blob ∈ builds) {c : Call} (hc : c.blob ∈ builds)
    (hin : s.files c.finalPath = some c.blob) : t.files c.finalPath = some c.blob := by
  obtain ⟨pid, p, files, rfl, hl, -, -⟩ := step_moves hcoll hi h he
  rcases hl.final c hc with hf | hf
  · exact hf.trans hin
  · exact hf

/-- What may be at `final_path` before the first call: nothing, the shim, or a file
of another size. -/
def Initially (file : Option (List UInt8)) (blob : List UInt8) : Prop :=
  file = none ∨ file = some blob ∨ ∃ f, file = some f ∧ f.length ≠ blob.length

theorem Whole.of_initially {file : Option (List UInt8)} {blob : List UInt8} (h : Initially file blob) :
    Whole file blob := by
  rcases h with h | h | ⟨g, h, hne⟩
  · intro f hf _
    rw [h] at hf
    cases hf
  · exact .of_eq h
  · intro f hf hlen
    rw [h] at hf
    cases hf
    exact absurd hlen hne

section Runs

variable {files : Files} {es : List Ev} (hcoll : Set.InjOn blobHashHex builds)
  (hinit : ∀ c : Call, c.blob ∈ builds → Initially (files c.finalPath) c.blob)
include hcoll hinit

theorem inv_of_run (h : Run step (start files) es s) (hcalls : ∀ pid c, Ev.call pid c ∈ es → c.blob ∈ builds) :
    Inv builds s := by
  have hstart : Inv builds (start files) :=
    ⟨fun c hc => .of_initially (hinit c hc), fun _ => trivial, fun _ _ hc => by cases hc⟩
  refine h.history (P := fun es s => (∀ pid c, Ev.call pid c ∈ es → c.blob ∈ builds) → Inv builds s) (fun _ => hstart)
    (fun es s e t _ ih hs hcalls => ?_) hcalls
  have hi := ih fun pid c hm => hcalls pid c (List.mem_append_left _ hm)
  exact hi.step hcoll hs fun pid c he => hcalls pid c (by simp [he])

theorem inPlace_run {es₂ : List Ev} (h : Run step (start files) es s) (h₂ : Run step s es₂ t)
    (hcalls : ∀ pid c, Ev.call pid c ∈ es ++ es₂ → c.blob ∈ builds) {c : Call} (hc : c.blob ∈ builds)
    (hin : s.files c.finalPath = some c.blob) : t.files c.finalPath = some c.blob := by
  have hi := inv_of_run hcoll hinit h fun pid c hm => hcalls pid c (List.mem_append_left _ hm)
  have halong : Along step (fun _ e => ∀ pid c, e = .call pid c → c.blob ∈ builds) s es₂ := by
    rintro es₁ e es₃ u rfl - pid d rfl
    exact hcalls pid d (by simp)
  refine (h₂.invAlong (P := fun u => Inv builds u ∧ u.files c.finalPath = some c.blob)
    (fun u e v hu hcall hs => ⟨hu.1.step hcoll hs hcall, inPlace_step hcoll hu.1 hs hcall hc hu.2⟩) halong ⟨hi, hin⟩).2

end Runs

/-- Of the shims that are extracted no two have the same hash, and at their places
there is at first nothing, the shim, or a file of another size. In every run, where
a call returns, the whole shim is in its place; where a file of its size is seen
there, it is the shim, and it is there from then on; the loop makes no more
transfers than there are bytes, comes to its end if every transfer is a part of its
chunk that is not empty, and has transferred each byte once when it is there. -/
theorem cache_serves_whole_shim (builds : Set (List UInt8)) (hcoll : Set.InjOn blobHashHex builds) (files : Files)
    (hinit : ∀ c : Call, c.blob ∈ builds → Initially (files c.finalPath) c.blob) (es : List Ev) (s : State)
    (h : Run step (start files) es s) (hcalls : ∀ pid c, Ev.call pid c ∈ es → c.blob ∈ builds) :
    (∀ pid c, s.procs pid = .returned c → s.files c.finalPath = some c.blob) ∧
    (∀ (c : Call) es₁ es₂ t f, c.blob ∈ builds → es = es₁ ++ es₂ → Run step (start files) es₁ t →
      t.files c.finalPath = some f → f.length = c.blob.length → f = c.blob ∧ s.files c.finalPath = some c.blob) ∧
    (∀ pid c written sent, s.procs pid = .write c written sent →
      sent.length ≤ c.blob.length ∧
      ∀ part : Nat → Nat → Nat, (∀ w n, 0 < n → 0 < part w n ∧ part w n ≤ n) →
        ∃ t sent', Run step s (transfers pid part c.blob.length c.blob.length written ++ [.closeHandle pid]) t ∧
          t.procs pid = .move c sent') ∧
    ∀ pid c sent, s.procs pid = .move c sent → offsets sent = List.range c.blob.length := by
  have hi := inv_of_run hcoll hinit h hcalls
  refine ⟨fun pid c hp => hi.holds hp, ?_, fun pid c written sent hp => ?_, fun pid c sent hp => (hi.holds hp).2.once⟩
  · rintro c es₁ es₂ t f hc rfl ht hf hsize
    have hit := inv_of_run hcoll hinit ht fun pid c hm => hcalls pid c (List.mem_append_left _ hm)
    obtain rfl : f = c.blob := hit.whole c hc f hf hsize
    obtain ⟨u, hu, h₂⟩ := run_append.mp h
    obtain rfl := ht.det hu
    exact ⟨rfl, inPlace_run hcoll hinit ht h₂ hcalls hc hf⟩
  · obtain ⟨-, hsent⟩ := hi.holds hp
    refine ⟨hsent.few.trans hsent.le, fun part hpart => ?_⟩
    exact loop_ends hpart _ s written sent hp (by omega)

/-- A shim of three bytes. -/
def smallShim : Call := ⟨.tailscale, [77, 90, 144]⟩

/-- The cache has a file of another size, and what a process 7 has left behind. -/
def usedCache : Files :=
  Function.update (Function.update (fun _ => none) smallShim.finalPath (some [77])) (smallShim.tempPath 7) (some [0, 0])

/-- A call up to its loop. -/
def opens (pid : Nat) : List Ev :=
  [.spawn pid, .call pid smallShim, .createDirectoryTree pid none, .getFileAttributes pid true, .createFile pid none]

/-- A process 7 is gone with two bytes written. The next one of that id and a
process 8 extract the shim at the same time, and the second move fails. -/
def crashAndRace : List Ev :=
  opens 7 ++ [.writeFile 7 true 2 "", .crash 7] ++ opens 7 ++ [.writeFile 7 true 1 ""] ++ opens 8 ++
    [.writeFile 7 true 2 "", .closeHandle 7, .moveFile 7 none, .writeFile 8 true 3 "", .closeHandle 8,
      .moveFile 8 (some "Access is denied."), .getFileAttributes 8 true, .deleteFile 8 true]

theorem crashAndRace_whole :
    ∃ s, Run step (start usedCache) crashAndRace s ∧ s.procs 8 = .returned smallShim ∧
      s.files smallShim.finalPath = some [77, 90, 144] := by
  have hrun : ∃ s, Run step (start usedCache) crashAndRace s ∧ s.procs 8 = .returned smallShim := ⟨_, rfl, rfl⟩
  obtain ⟨s, hs, hp⟩ := hrun
  refine ⟨s, hs, hp, ?_⟩
  refine (cache_serves_whole_shim {smallShim.blob} (Set.injOn_singleton ..) usedCache ?_ crashAndRace s hs ?_).1 8 smallShim hp
  · rintro ⟨kind, blob⟩ hc
    obtain rfl : blob = smallShim.blob := hc
    cases kind with
    | tailscale => exact .inr (.inr ⟨[77], rfl, by decide⟩)
    | none | netBird => exact .inl rfl
  · intro pid c hm
    have hc : c = smallShim := by
      simp only [crashAndRace, opens, List.cons_append, List.nil_append, List.mem_cons, Ev.call.injEq, reduceCtorEq,
        List.not_mem_nil, or_false, false_or] at hm
      tauto
    exact congrArg Call.blob hc

end ErplTunnel.Mesh.ShimCache

import ErplTunnel.Framework.Scan
import ErplTunnel.Manager.Listing
import ErplTunnel.Mesh.PeerStatus

/-!
# The table functions

`tunnels()` hands over one row in each call (`ListTunnelsFunction`),
`tunnel_peers()` and `tunnel_self()` a chunk of up to `STANDARD_VECTOR_SIZE`
(`MeshPeersEmit`). Both keep the place of the next row in the bind data, which
outlives an execution: the first one of a bound plan has every row once, in
order, and any other one has none (`emits_once_per_execution_iff`).
-/

namespace ErplTunnel.Pragma

open Mesh (MeshPeer)
open Manager (TunnelId TunnelsBindData)

/-- The value of a column. -/
inductive Value where
  | bigint (n : TunnelId)
  | integer (n : Int32)
  | varchar (s : String)
  | list (ss : List String)
  | boolean (b : Bool)
  deriving DecidableEq, Repr

def standardVectorSize : Nat := 2048

/-- `MeshPeersBindData`. -/
structure MeshPeersBindData where
  rows : List MeshPeer
  cursor : Nat := 0
  deriving DecidableEq, Repr

/-- The columns of a peer. -/
def peerColumns (r : MeshPeer) : List Value :=
  [.varchar r.backend, .varchar r.hostName, .varchar r.dnsName, .varchar r.meshIp, .list r.tags, .boolean r.online]

/-- The loop of `MeshPeersEmit`, with room for so many rows yet: the rows that it
sets, and the cursor behind them. -/
def emitLoop (rows : List MeshPeer) : Nat → Nat → List (List Value) × Nat
  | 0, cursor => ([], cursor)
  | room + 1, cursor =>
    match rows[cursor]? with
    | some r => (peerColumns r :: (emitLoop rows room (cursor + 1)).1, (emitLoop rows room (cursor + 1)).2)
    | none => ([], cursor)

def meshPeersEmit (bind : MeshPeersBindData) : List (List Value) × MeshPeersBindData :=
  ((emitLoop bind.rows standardVectorSize bind.cursor).1,
    { bind with cursor := (emitLoop bind.rows standardVectorSize bind.cursor).2 })

/-- `TunnelConnectionAttributes`, as far as `tunnels()` shows them. -/
structure TunnelConnectionAttributes where
  backend : String
  direction : String
  sshHost : String
  sshPort : Int32
  sshUser : String
  remoteHost : String
  remotePort : Int32
  localPort : Int32
  bindAddr : String
  localHost : String
  status : String
  deriving DecidableEq, Repr

/-- The columns of a tunnel. -/
def tunnelColumns (row : TunnelId × TunnelConnectionAttributes) : List Value :=
  [.bigint row.1, .varchar row.2.backend, .varchar row.2.direction, .varchar row.2.sshHost, .integer row.2.sshPort,
    .varchar row.2.sshUser, .varchar row.2.remoteHost, .integer row.2.remotePort, .integer row.2.localPort,
    .varchar row.2.bindAddr, .varchar row.2.localHost, .varchar row.2.status]

def listTunnelsFunction (bind : TunnelsBindData TunnelConnectionAttributes) :
    List (List Value) × TunnelsBindData TunnelConnectionAttributes :=
  if !bind.hasMoreResults then ([], bind)
  else (bind.fetchNextResult.1.toList.map tunnelColumns, bind.fetchNextResult.2)

/-! ## The rows to come -/

/-- The rows from the cursor on. -/
def peersLeft (bind : MeshPeersBindData) : List (List Value) := (bind.rows.drop bind.cursor).map peerColumns

def tunnelsLeft (bind : TunnelsBindData TunnelConnectionAttributes) : List (List Value) :=
  (bind.tunnels.drop bind.currentRow).map tunnelColumns

theorem emitLoop_eq (rows : List MeshPeer) (room cursor : Nat) :
    (emitLoop rows room cursor).1 = ((rows.drop cursor).take room).map peerColumns ∧
      rows.drop (emitLoop rows room cursor).2 = (rows.drop cursor).drop room := by
  induction room generalizing cursor with
  | zero => simp [emitLoop]
  | succ room ih =>
    rw [emitLoop]
    by_cases hlt : cursor < rows.length
    · obtain ⟨hrows, hcursor⟩ := ih (cursor + 1)
      rw [List.getElem?_eq_getElem hlt, List.drop_eq_getElem_cons hlt]
      simp only [List.take_succ_cons, List.map_cons, List.drop_succ_cons]
      exact ⟨by rw [hrows], hcursor⟩
    · have hnil : rows.drop cursor = [] := List.drop_eq_nil_of_le (by omega)
      rw [List.getElem?_eq_none (by omega)]
      simp only [hnil, List.take_nil, List.map_nil, List.drop_nil, and_self]

/-- `MeshPeersEmit` serves the peers. -/
theorem serves_peers : Scan.Serves meshPeersEmit peersLeft standardVectorSize where
  pos := by decide
  chunk bind := by
    rw [peersLeft, ← List.map_take]
    exact (emitLoop_eq bind.rows standardVectorSize bind.cursor).1
  rest bind := by
    rw [peersLeft, peersLeft, ← List.map_drop]
    exact congrArg _ (emitLoop_eq bind.rows standardVectorSize bind.cursor).2

section

variable {bind : TunnelsBindData TunnelConnectionAttributes}

theorem listTunnelsFunction_row (h : bind.currentRow < bind.tunnels.length) :
    listTunnelsFunction bind =
      ([tunnelColumns bind.tunnels[bind.currentRow]], { bind with currentRow := bind.currentRow + 1 }) := by
  have hrow : bind.tunnels[bind.currentRow]? = some bind.tunnels[bind.currentRow] := List.getElem?_eq_getElem h
  have hmore : bind.hasMoreResults = true := decide_eq_true h
  simp only [listTunnelsFunction, hmore, TunnelsBindData.fetchNextResult, hrow]
  rfl

theorem listTunnelsFunction_done (h : bind.tunnels.length ≤ bind.currentRow) : listTunnelsFunction bind = ([], bind) := by
  have hmore : bind.hasMoreResults = false := decide_eq_false (by omega)
  rw [listTunnelsFunction, hmore]
  rfl

end

/-- `ListTunnelsFunction` serves the tunnels, one at a time. -/
theorem serves_tunnels : Scan.Serves listTunnelsFunction tunnelsLeft 1 where
  pos := by decide
  chunk bind := by
    rcases Nat.lt_or_ge bind.currentRow bind.tunnels.length with h | h
    · rw [listTunnelsFunction_row h, tunnelsLeft, List.drop_eq_getElem_cons h]
      rfl
    · rw [listTunnelsFunction_done h, tunnelsLeft, List.drop_eq_nil_of_le h]
      rfl
  rest bind := by
    rcases Nat.lt_or_ge bind.currentRow bind.tunnels.length with h | h
    · rw [listTunnelsFunction_row h, tunnelsLeft, tunnelsLeft, ← List.map_drop, List.drop_drop]
    · rw [listTunnelsFunction_done h, tunnelsLeft, List.drop_eq_nil_of_le h]
      rfl

/-- The outputs of executions: the chunks fit, and each output has the rows. -/
def Whole (rows : List (List Value)) (outs : List (List (List (List Value)))) : Prop :=
  (∀ out ∈ outs, ∀ chunk ∈ out, chunk.length ≤ standardVectorSize) ∧ ∀ out ∈ outs, out.flatten = rows

/-- A bound plan is executed `k` times, each time until a call emits no row, which
takes no more than one call for each row and one more. Every execution emits the
rows, in order and each once, exactly when there is at most one, or no row. -/
theorem emits_once_per_execution_iff (extra k : Nat) :
    (∀ rows : List MeshPeer, ∃ outs, Scan.executeAll meshPeersEmit (rows.length + extra + 1) k ⟨rows, 0⟩ = some outs ∧
      outs.length = k ∧ (Whole (rows.map peerColumns) outs ↔ k ≤ 1 ∨ rows = [])) ∧
    (∀ tunnels : List (TunnelId × TunnelConnectionAttributes),
      ∃ outs, Scan.executeAll listTunnelsFunction (tunnels.length + extra + 1) k ⟨tunnels, 0⟩ = some outs ∧
      outs.length = k ∧ (Whole (tunnels.map tunnelColumns) outs ↔ k ≤ 1 ∨ tunnels = [])) := by
  refine ⟨fun rows => ?_, fun tunnels => ?_⟩
  · obtain ⟨outs, he, hlen, hsize, hiff⟩ :=
      serves_peers.whole_iff (rows.length + extra) k ⟨rows, 0⟩ (by simp [peersLeft])
    refine ⟨outs, he, hlen, ?_⟩
    rw [Whole, and_iff_right hsize]
    simpa [peersLeft] using hiff
  · obtain ⟨outs, he, hlen, hsize, hiff⟩ :=
      serves_tunnels.whole_iff (tunnels.length + extra) k ⟨tunnels, 0⟩ (by simp [tunnelsLeft])
    refine ⟨outs, he, hlen, ?_⟩
    rw [Whole, and_iff_right fun out ho chunk hc => Nat.le_trans (hsize out ho chunk hc) (by decide)]
    simpa [tunnelsLeft] using hiff

/-- One tunnel is listed by a prepared statement, twice: the second time there is
no row. -/
theorem second_execution_empty :
    ∃ outs, Scan.executeAll listTunnelsFunction 2 2
        ⟨[(1, ⟨"ssh", "import", "bastion", 22, "jump", "db", 5432, 15432, "127.0.0.1", "127.0.0.1", "Listening"⟩)], 0⟩ =
        some outs ∧ outs.map List.length = [1, 0] ∧
      ¬Whole [tunnelColumns
        (1, ⟨"ssh", "import", "bastion", 22, "jump", "db", 5432, 15432, "127.0.0.1", "127.0.0.1", "Listening"⟩)] outs := by
  refine ⟨_, rfl, rfl, fun h => ?_⟩
  exact absurd (h.2 [] (List.mem_cons_of_mem _ (List.mem_cons_self ..))) nofun

end ErplTunnel.Pragma

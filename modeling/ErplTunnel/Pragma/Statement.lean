import Mathlib.Data.List.TakeWhile
import ErplTunnel.Framework.Sql
import ErplTunnel.Pragma.Tunnels

/-!
# The statement that `tunnel_export` returns

`TunnelExport` (`pragma_tunnel_export.cpp`) answers with the text of a
statement, which DuckDB parses and executes as the result of the pragma. It is
made by `StringUtil::Format`, and `local_host` stands between the quotes of its
literal as the caller wrote it, up to the first NUL (`c_str`): nothing doubles
the quotes in it. So the text is the `SELECT` that was meant, with `local_host`
in its message, exactly when there is no quote and no NUL in `local_host`
(`tunnelExport_selects_iff`); on the mesh nothing has looked at it before.

What the manager answers is an input.
-/

namespace ErplTunnel.Pragma

open Mesh (TunnelError)

/-- What the call of the manager returns, and `GetTunnelBoundPort`. -/
structure ManagerAnswers where
  create : ExportCall → Except TunnelError Int64
  getTunnelBoundPort : Int64 → Int32

/-- What `%s` prints of `s.c_str()`. -/
def cStr (s : String) : String := String.ofList (s.toList.takeWhile (· != '\x00'))

/-- The two formats of `TunnelExport`, which differ in the words after the port. -/
def formatExport (tunnelId : Int64) (remotePort : Int32) (localHost : String) (localPort : Int32)
    (via : String) : String :=
  "SELECT " ++ toString tunnelId.toInt ++ " as tunnel_id, " ++ toString remotePort.toInt ++ " as remote_port, " ++
    "'Exporting " ++ cStr localHost ++ ":" ++ toString localPort.toInt ++ via ++ "' as message"

def onTheMesh : String := " on the mesh"

def viaTheSshServer : String := " via the SSH server"

/-- `TunnelExport`, to its end. -/
def tunnelExportText (hasMesh : Bool) (s : Secrets) (a : ExportArgs) (m : ManagerAnswers) :
    Except TunnelError String := do
  let call ← tunnelExport hasMesh s a
  let tunnelId ← m.create call
  match call with
  | .mesh meshPort localHost localPort => return formatExport tunnelId meshPort localHost localPort onTheMesh
  | .ssh _ localHost localPort _ _ _ =>
    let bound := m.getTunnelBoundPort tunnelId
    return formatExport tunnelId bound localHost localPort viaTheSshServer

/-- The remote port an export reports. -/
def ExportCall.reportedPort (m : ManagerAnswers) (tunnelId : Int64) : ExportCall → Int32
  | .mesh meshPort _ _ => meshPort
  | .ssh .. => m.getTunnelBoundPort tunnelId

def ExportCall.via : ExportCall → String
  | .mesh .. => onTheMesh
  | .ssh .. => viaTheSshServer

/-- The message meant, with `local_host` as it was given. -/
def exporting (localHost : String) (localPort : Int32) (via : String) : String :=
  "Exporting " ++ localHost ++ ":" ++ toString localPort.toInt ++ via

/-- `text` is one `SELECT` of the three columns. -/
def Selects (text : String) (tunnelId : Int64) (remotePort : Int32) (message : String) : Prop :=
  Sql.constSelect text = some
    [⟨.int tunnelId.toInt, "tunnel_id"⟩, ⟨.int remotePort.toInt, "remote_port"⟩,
      ⟨.str message.toList, "message"⟩]

/-! ## What the text means -/

open Sql (Token Lexed quote tokens literal)

theorem lexed_select : Lexed "SELECT ".toList [.word "select"] :=
  .of_tokens (by simp only [String.reduceToList]; decide) (by simp only [String.reduceToList]; decide)

theorem lexed_tunnel_id : Lexed " as tunnel_id, ".toList [.word "as", .word "tunnel_id", .sym ','] :=
  .of_tokens (by simp only [String.reduceToList]; decide) (by simp only [String.reduceToList]; decide)

theorem lexed_remote_port : Lexed " as remote_port, ".toList [.word "as", .word "remote_port", .sym ','] :=
  .of_tokens (by simp only [String.reduceToList]; decide) (by simp only [String.reduceToList]; decide)

theorem tokens_as_message : tokens " as message".toList = some [.word "as", .word "message"] := by
  simp only [String.reduceToList]
  decide

theorem literal_as_message : literal (quote :: " as message".toList) = some ([], " as message".toList) := by
  simp only [String.reduceToList]
  decide

section Text

variable (tunnelId : Int64) (remotePort : Int32) (localHost : String) (localPort : Int32) (via : String)

theorem formatExport_toList :
    (formatExport tunnelId remotePort localHost localPort via).toList =
      "SELECT ".toList ++ ((toString tunnelId.toInt).toList ++ (" as tunnel_id, ".toList ++
        ((toString remotePort.toInt).toList ++ (" as remote_port, ".toList ++
          quote :: ((exporting (cStr localHost) localPort via).toList ++ quote :: " as message".toList))))) := by
  have hq : "'Exporting ".toList = quote :: "Exporting ".toList := by
    simp only [String.reduceToList]
    rfl
  have hm : "' as message".toList = quote :: " as message".toList := by
    simp only [String.reduceToList]
    rfl
  unfold formatExport exporting
  simp only [String.toList_append, hq, hm, List.append_assoc, List.cons_append]

/-- Up to the message, the text is read the same for every host. -/
theorem constSelect_formatExport :
    Sql.constSelect (formatExport tunnelId remotePort localHost localPort via) =
      (tokens (quote :: ((exporting (cStr localHost) localPort via).toList ++ quote :: " as message".toList))).bind
        fun ts => (Sql.columns ts).map fun cs =>
          ⟨.int tunnelId.toInt, "tunnel_id"⟩ :: ⟨.int remotePort.toInt, "remote_port"⟩ :: cs := by
  rw [Sql.constSelect, formatExport_toList, lexed_select, Sql.tokens_int, lexed_tunnel_id, Sql.tokens_int,
    lexed_remote_port]
  · cases tokens (quote :: ((exporting (cStr localHost) localPort via).toList ++ quote :: " as message".toList)) with
    | none => rfl
    | some ts =>
      simp only [Option.map_some, Option.bind_some, List.cons_append, List.nil_append, Sql.select, if_true,
        Sql.columns_int, Option.map_map]
      rfl
  · rfl
  · rfl

/-- The bytes of `local_host` are all there. -/
theorem cStr_eq_self {s : String} (h : '\x00' ∉ s.toList) : cStr s = s := by
  have hall : ∀ c ∈ s.toList, (c != '\x00') = true := by
    intro c hc
    rw [bne_iff_ne]
    exact fun he => h (he ▸ hc)
  rw [cStr, List.takeWhile_eq_self_iff.mpr hall, String.ofList_toList]

theorem length_cStr_lt {s : String} (h : '\x00' ∈ s.toList) : (cStr s).toList.length < s.toList.length := by
  rw [cStr, String.toList_ofList]
  refine Nat.lt_of_le_of_ne (List.takeWhile_prefix _).length_le fun hl => ?_
  have heq := (List.takeWhile_prefix _).eq_of_length hl
  have := List.takeWhile_eq_self_iff.mp heq _ h
  cases this

theorem quote_not_mem_exporting (hvia : quote ∉ via.toList) :
    quote ∉ (exporting localHost localPort via).toList ↔ quote ∉ localHost.toList := by
  have he : quote ∉ "Exporting ".toList := by simp only [String.reduceToList]; decide
  have hc : quote ∉ ":".toList := by simp only [String.reduceToList]; decide
  simp only [exporting, String.toList_append, List.mem_append, he, hc, hvia, Sql.quote_not_mem_int, false_or,
    or_false]

/-- The text is the statement that was meant exactly when nothing of the host
ends the literal or the C string. -/
theorem selects_formatExport_iff (hvia : quote ∉ via.toList) :
    Selects (formatExport tunnelId remotePort localHost localPort via) tunnelId remotePort
        (exporting localHost localPort via) ↔
      quote ∉ localHost.toList ∧ '\x00' ∉ localHost.toList := by
  have htail : quote ∉ " as message".toList := by simp only [String.reduceToList]; decide
  rw [Selects, constSelect_formatExport, Sql.tokens_quote]
  constructor
  · intro h
    obtain ⟨ts', ht, hcols⟩ := Option.bind_eq_some_iff.mp h
    obtain ⟨⟨v, rest⟩, hl, hts⟩ := Option.bind_eq_some_iff.mp ht
    obtain ⟨ts, -, rfl⟩ := Option.map_eq_some_iff.mp hts
    obtain ⟨cs, hcs, heq⟩ := Option.map_eq_some_iff.mp hcols
    simp only [List.cons.injEq, true_and] at heq
    rw [heq] at hcs
    -- the literal of the text has the message for its value
    have hv := Sql.column_str (Sql.column_of_columns hcs)
    obtain rfl : (exporting localHost localPort via).toList = v := Sql.Const.str.inj hv
    have hlen := (Sql.literal_span hl).length_le htail
    simp only [exporting, String.toList_append, List.length_append, List.count_append] at hlen
    constructor
    · intro hq
      have hpos := List.count_pos_iff.mpr hq
      have hle : (cStr localHost).toList.length ≤ localHost.toList.length := by
        rw [cStr, String.toList_ofList]
        exact (List.takeWhile_prefix _).length_le
      omega
    · intro hnul
      have hlt := length_cStr_lt hnul
      omega
  · rintro ⟨hq, hnul⟩
    rw [cStr_eq_self hnul, Sql.literal_quote_free ((quote_not_mem_exporting _ _ _ hvia).mpr hq) literal_as_message,
      Option.bind_some, tokens_as_message, Option.map_some, Option.bind_some,
      Sql.columns_last (by simp)]
    rfl

end Text

/-! ## Over every call -/

variable {hasMesh : Bool} {s : Secrets} {a : ExportArgs} {m : ManagerAnswers} {call : ExportCall} {tunnelId : Int64}

theorem ExportCall.quote_not_mem_via (call : ExportCall) : quote ∉ call.via.toList := by
  cases call <;>
  · simp only [via, onTheMesh, viaTheSshServer, String.reduceToList]
    decide

/-- The host and the local port reach the manager as they were given. -/
theorem tunnelExport_call (h : tunnelExport hasMesh s a = .ok call) :
    (∃ port, call = .mesh port (a.localHost.getD "127.0.0.1") (a.localPort.getD 0)) ∨
      ∃ auth host port timeout,
        call = .ssh auth (a.localHost.getD "127.0.0.1") (a.localPort.getD 0) host port timeout := by
  unfold tunnelExport at h
  simp only [bind, Except.bind] at h
  iterate 4 (split at h; cases h)
  split at h
  · iterate 2 (split at h; cases h)
    split at h <;> cases h
    exact .inl ⟨_, rfl⟩
  · split at h <;> cases h
    exact .inr ⟨_, _, _, _, rfl⟩

/-- The text of an export that was created. -/
theorem tunnelExportText_ok (hc : tunnelExport hasMesh s a = .ok call) (hm : m.create call = .ok tunnelId) :
    tunnelExportText hasMesh s a m = .ok (formatExport tunnelId (call.reportedPort m tunnelId)
      (a.localHost.getD "127.0.0.1") (a.localPort.getD 0) call.via) := by
  simp only [tunnelExportText, hc, bind, Except.bind, hm]
  obtain ⟨port, rfl⟩ | ⟨auth, host, port, timeout, rfl⟩ := tunnelExport_call hc
  · rfl
  · rfl

theorem tunnelExport_selects_iff (hasMesh : Bool) (s : Secrets) (a : ExportArgs) (m : ManagerAnswers)
    (call : ExportCall) (tunnelId : Int64) (hc : tunnelExport hasMesh s a = .ok call)
    (hm : m.create call = .ok tunnelId) :
    ∃ text, tunnelExportText hasMesh s a m = .ok text ∧
      (Selects text tunnelId (call.reportedPort m tunnelId)
          (exporting (a.localHost.getD "127.0.0.1") (a.localPort.getD 0) call.via) ↔
        quote ∉ (a.localHost.getD "127.0.0.1").toList ∧ '\x00' ∉ (a.localHost.getD "127.0.0.1").toList) :=
  ⟨_, tunnelExportText_ok hc hm, selects_formatExport_iff _ _ _ _ _ call.quote_not_mem_via⟩

/-- A secret of a tailnet. -/
def tailnet : Secrets := ⟨"ts", .tailscale, .ok (), .error (.io "")⟩

/-- `PRAGMA tunnel_export(secret='ts', local_port=9494, local_host=…)`. -/
def exportFrom (localHost : String) : ExportArgs := ⟨some localHost, some 9494, none, none, none⟩

/-- The first tunnel of the process. -/
def firstTunnel : ManagerAnswers := ⟨fun _ => .ok 1, fun _ => 0⟩

theorem tunnelExport_selects_localhost :
    ∃ text, tunnelExportText true tailnet (exportFrom "localhost") firstTunnel = .ok text ∧
      Selects text 1 9494 "Exporting localhost:9494 on the mesh" := by
  obtain ⟨text, ht, hs⟩ := tunnelExport_selects_iff true tailnet (exportFrom "localhost") firstTunnel
    (.mesh 9494 "localhost" 9494) 1 rfl rfl
  refine ⟨text, ht, hs.mpr ?_⟩
  constructor
  · simp only [exportFrom, Option.getD_some, String.reduceToList]
    decide
  · simp only [exportFrom, Option.getD_some, String.reduceToList]
    decide

/-- `local_host` with a quote, and a statement of its own. -/
def dropTable : String := "x' as message; DROP TABLE t; --"

/-- The literal ends at the quote and the statement at the semicolon, and the
comment takes the rest. -/
example : tokens (formatExport 1 9494 dropTable 9494 onTheMesh).toList =
    some [.word "select", .int 1, .word "as", .word "tunnel_id", .sym ',', .int 9494, .word "as",
      .word "remote_port", .sym ',', .str "Exporting x".toList, .word "as", .word "message", .sym ';',
      .word "drop", .word "table", .word "t", .sym ';'] := by
  have hid : (toString (1 : Int64).toInt).toList = ['1'] := by decide
  have hport : (toString (9494 : Int32).toInt).toList = ['9', '4', '9', '4'] := by decide
  have hnul : '\x00' ∉ dropTable.toList := by
    simp only [dropTable, String.reduceToList]
    decide
  unfold formatExport
  rw [cStr_eq_self hnul]
  simp only [String.toList_append, hid, hport]
  simp only [dropTable, onTheMesh, String.reduceToList, List.cons_append, List.nil_append]
  decide

theorem export_executes_host :
    ¬ ∀ hasMesh s a m call tunnelId text, tunnelExport hasMesh s a = .ok call →
      m.create call = .ok tunnelId → tunnelExportText hasMesh s a m = .ok text →
      Selects text tunnelId (call.reportedPort m tunnelId)
        (exporting (a.localHost.getD "127.0.0.1") (a.localPort.getD 0) call.via) := by
  intro h
  have hs := h true tailnet (exportFrom dropTable) firstTunnel (.mesh 9494 dropTable 9494) 1
    (formatExport 1 9494 dropTable 9494 onTheMesh) rfl rfl rfl
  have hq := ((selects_formatExport_iff 1 9494 dropTable 9494 onTheMesh
    (ExportCall.quote_not_mem_via (.mesh 9494 dropTable 9494))).mp hs).1
  simp only [dropTable, String.reduceToList] at hq
  exact absurd hq (by decide)

end ErplTunnel.Pragma

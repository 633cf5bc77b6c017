import Hakuraku.Server.Convergence
import Hakuraku.Server.History
import Hakuraku.Server.StatsJson

/-!
# The messages and responses as JSON

Reference: `pulse-server/src/ws.rs`, `WsMessage` and `NodeSnapshot`; `pulse-server/src/api.rs`,
`list_nodes`, `get_node` and `get_node_history`; `pulse-server/src/db.rs`, `SnapshotRecord`;
`pulse-server/src/state.rs`, `NodeStatus`.

A WebSocket message is written field by field, its tag first; a response is built as a value, whose
maps keep their keys in order. The reader is a client: it parses a text and takes the fields by their
names. A client finds in every text what the server has put into it, except that it cannot tell a
node without stats from one whose stats are `null` (`client_reads_frames`, `responses_read_back`).
-/

namespace Hakuraku.Server

open Json

variable {F : Type} (floats : Floats F)

/-! ## Writing -/

/-- `NodeStatus` in its lowercase form, which is also how it is displayed. -/
def NodeStatus.text : NodeStatus → String
  | .online => "online"
  | .offline => "offline"
  | .unknown => "unknown"

/-- An `i64` as a value. -/
def ofI64 (n : Int64) : Value F := .number (.ofI64 n)

/-- A length as a value. -/
def ofUsize (n : ℕ) : Value F := .number (.posInt (UInt64.ofNat n))

/-- An optional value. -/
def ofOption (v : Option (Value F)) : Value F := v.getD .null

/-- A `NodeSnapshot` of the `Init` message. -/
def NodeSnapshot.value (node : NodeSnapshot (Value F)) : Value F :=
  .object
    [("node_id", .string node.nodeId), ("hostname", .string node.hostname),
      ("last_seen_ms", ofI64 node.lastSeenMs), ("status", .string node.status.text),
      ("stats", ofOption node.stats)]

/-- A `WsMessage` with its tag. -/
def WsMessage.value : WsMessage (Value F) → Value F
  | .init nodes =>
    .object [("type", .string "init"), ("nodes", .array (nodes.map NodeSnapshot.value))]
  | .update u =>
    .object
      [("type", .string "update"), ("node_id", .string u.nodeId),
        ("timestamp_ms", ofI64 u.timestampMs), ("stats", u.stats)]

/-- The text of a WebSocket message. -/
def frame (message : WsMessage (Value F)) : List Char := print floats message.value

/-- A node as `list_nodes` and `get_node` respond with it. -/
def NodeInfo.value (node : NodeInfo (Value F)) : Value F :=
  .ofFields
    [("node_id", .string node.nodeId), ("hostname", .string node.hostname),
      ("last_seen_ms", ofI64 node.lastSeenMs), ("status", .string node.status.text),
      ("latest_stats", ofOption node.latestStats)]

/-- The body of `list_nodes`. -/
def NodeList.value (list : NodeList (Value F)) : Value F :=
  .ofFields [("nodes", .array (list.nodes.map NodeInfo.value)), ("count", ofUsize list.count)]

/-- A `SnapshotRecord`. -/
def Snapshot.value (s : Snapshot (Value F)) : Value F :=
  .ofFields
    [("node_id", .string s.nodeId), ("timestamp", ofI64 s.timestamp), ("stats_json", s.statsJson)]

/-- The body of `get_node_history`. -/
def History.value (history : History (Value F)) : Value F :=
  .ofFields
    [("node_id", .string history.nodeId), ("range", .string history.range),
      ("from_ms", ofI64 history.fromMs), ("to_ms", ofI64 history.toMs),
      ("count", ofUsize history.count), ("snapshots", .array (history.snapshots.map Snapshot.value))]

/-! ## Reading -/

/-- The elements of an array. -/
def readArray {α : Type} (item : Value F → Option α) : Value F → Option (List α)
  | .array vs => vs.mapM item
  | _ => none

/-- A `NodeStatus`. -/
def readStatus : Value F → Option NodeStatus
  | .string s =>
    if s = "online" then some .online
    else if s = "offline" then some .offline
    else if s = "unknown" then some .unknown
    else none
  | _ => none

/-- Stats that are there. -/
def readStats : Value F → Option (Value F)
  | .null => none
  | v => some v

/-- A node of an `Init` message. -/
def readSnapshot (v : Value F) : Option (NodeSnapshot (Value F)) := do
  let nodeId ← (← v.get "node_id").asStr
  let hostname ← (← v.get "hostname").asStr
  let lastSeenMs ← (← v.get "last_seen_ms").asI64
  let status ← readStatus (← v.get "status")
  let stats ← v.get "stats"
  some ⟨nodeId, hostname, lastSeenMs, status, readStats stats⟩

/-- A WebSocket message. -/
def readMessage (text : List Char) : Option (WsMessage (Value F)) := do
  let v ← parse floats text
  let type ← (← v.get "type").asStr
  if type = "init" then
    let nodes ← readArray readSnapshot (← v.get "nodes")
    some (.init nodes)
  else if type = "update" then
    let nodeId ← (← v.get "node_id").asStr
    let timestampMs ← (← v.get "timestamp_ms").asI64
    let stats ← v.get "stats"
    some (.update ⟨nodeId, timestampMs, stats⟩)
  else none

/-- A node of a response. -/
def readNode (v : Value F) : Option (NodeInfo (Value F)) := do
  let nodeId ← (← v.get "node_id").asStr
  let hostname ← (← v.get "hostname").asStr
  let lastSeenMs ← (← v.get "last_seen_ms").asI64
  let status ← readStatus (← v.get "status")
  let stats ← v.get "latest_stats"
  some ⟨nodeId, hostname, lastSeenMs, status, readStats stats⟩

/-- The response of `list_nodes`. -/
def readNodeList (v : Value F) : Option (NodeList (Value F)) := do
  let nodes ← readArray readNode (← v.get "nodes")
  let count ← (← v.get "count").asU64
  some ⟨nodes, count.toNat⟩

/-- A snapshot of a history. -/
def readRecord (v : Value F) : Option (Snapshot (Value F)) := do
  let nodeId ← (← v.get "node_id").asStr
  let timestamp ← (← v.get "timestamp").asI64
  let statsJson ← v.get "stats_json"
  some ⟨nodeId, timestamp, statsJson⟩

/-- The response of `get_node_history`. -/
def readHistory (v : Value F) : Option (History (Value F)) := do
  let nodeId ← (← v.get "node_id").asStr
  let range ← (← v.get "range").asStr
  let fromMs ← (← v.get "from_ms").asI64
  let toMs ← (← v.get "to_ms").asI64
  let count ← (← v.get "count").asU64
  let snapshots ← readArray readRecord (← v.get "snapshots")
  some ⟨nodeId, range, fromMs, toMs, count.toNat, snapshots⟩

/-! ## Reading what was written -/

@[simp] theorem readStatus_text (status : NodeStatus) :
    readStatus (.string status.text : Value F) = some status := by
  cases status <;> rfl

@[simp] theorem readStats_ofOption (v : Option (Value F)) :
    readStats (ofOption v) = v.bind readStats := by
  cases v <;> rfl

@[simp] theorem asI64_ofI64_value (n : Int64) : (ofI64 n : Value F).asI64 = some n := asI64_ofI64 n

theorem readArray_map {α β : Type} {item : Value F → Option β} {value : α → Value F} {k : α → β}
    (h : ∀ x, item (value x) = some (k x)) (l : List α) :
    readArray item (.array (l.map value)) = some (l.map k) := by
  rw [readArray]
  induction l with
  | nil => rfl
  | cons x l ih =>
    rw [List.map_cons, List.mapM_cons, h x, ih]
    rfl

/-- A node of an `Init` message as a client sees it: stats that are `null` are no stats. -/
def NodeSnapshot.visible (node : NodeSnapshot (Value F)) : NodeSnapshot (Value F) :=
  { node with stats := node.stats.bind readStats }

/-- A message as a client sees it. -/
def WsMessage.visible : WsMessage (Value F) → WsMessage (Value F)
  | .init nodes => .init (nodes.map NodeSnapshot.visible)
  | .update u => .update u

theorem readSnapshot_value (node : NodeSnapshot (Value F)) :
    readSnapshot node.value = some node.visible := by
  simp [readSnapshot, NodeSnapshot.value, Value.get, Value.asStr, NodeSnapshot.visible]

/-- **A message is read as it was written**, but for stats that are `null`. -/
theorem readMessage_frame (message : WsMessage (Value F)) :
    readMessage floats (frame floats message) = some message.visible := by
  rw [readMessage, frame, parse_print]
  cases message with
  | init nodes =>
    have hnodes := readArray_map readSnapshot_value nodes
    simp [WsMessage.value, Value.get, Value.asStr, hnodes, WsMessage.visible]
  | update u => simp [WsMessage.value, Value.get, Value.asStr, WsMessage.visible]

/-- What is not there is sent as `null`. -/
theorem getD_bind_readStats (v : Option (Value F)) :
    (v.bind readStats).getD .null = v.getD .null := by
  rcases v with _ | v
  · rfl
  · cases v <;> rfl

/-- A client holds the same after a message as after the message it sees. -/
theorem apply_visible (held : String → Option (Value F)) (message : WsMessage (Value F)) :
    message.visible.apply .null held = message.apply .null held := by
  cases message with
  | update u => rfl
  | init nodes =>
    rw [WsMessage.visible, WsMessage.apply, WsMessage.apply, List.foldl_map]
    simp only [NodeSnapshot.visible, getD_bind_readStats]

/-- **A client that reads the texts holds what the messages say.** Whatever has been sent on a
connection, every text is read, and the stats that the client then holds for each node are those that
the messages give it. -/
theorem client_reads_frames (messages : List (WsMessage (Value F))) :
    (∀ message ∈ messages, readMessage floats (frame floats message) = some message.visible) ∧
      client .null ((messages.map (frame floats)).filterMap (readMessage floats)) =
        client .null messages := by
  refine ⟨fun message _ => readMessage_frame floats message, ?_⟩
  have hread : (messages.map (frame floats)).filterMap (readMessage floats) =
      messages.map WsMessage.visible := by
    rw [List.filterMap_map]
    simp only [Function.comp_def, readMessage_frame, List.filterMap_eq_map']
  rw [hread, client, client, List.foldl_map]
  simp only [apply_visible]

/-! ## The responses -/

/-- A node as a client sees it: stats that are `null` are no stats. -/
def NodeInfo.visible (node : NodeInfo (Value F)) : NodeInfo (Value F) :=
  { node with latestStats := node.latestStats.bind readStats }

theorem readNode_value (node : NodeInfo (Value F)) : readNode node.value = some node.visible := by
  simp [readNode, NodeInfo.value, get_ofFields_eq_find?, Value.asStr, NodeInfo.visible]

theorem readRecord_value (s : Snapshot (Value F)) : readRecord s.value = some s := by
  simp [readRecord, Snapshot.value, get_ofFields_eq_find?, Value.asStr]

/-- A length below `2 ^ 64` is read as it is. -/
theorem asU64_ofUsize {n : ℕ} (h : n < 2 ^ 64) :
    ((ofUsize n : Value F).asU64).map UInt64.toNat = some n :=
  congrArg some (UInt64.toNat_ofNat_of_lt' h)

theorem readNodeList_value {list : NodeList (Value F)} (h : list.count < 2 ^ 64) :
    readNodeList list.value = some ⟨list.nodes.map NodeInfo.visible, list.count⟩ := by
  have hnodes := readArray_map readNode_value list.nodes
  obtain ⟨count, hcount, hnat⟩ := Option.map_eq_some_iff.mp (asU64_ofUsize (F := F) h)
  simp [readNodeList, NodeList.value, get_ofFields_eq_find?, hnodes, hcount, hnat]

theorem readHistory_value {history : History (Value F)} (h : history.count < 2 ^ 64) :
    readHistory history.value = some history := by
  have hsnapshots := readArray_map (k := id) readRecord_value history.snapshots
  obtain ⟨count, hcount, hnat⟩ := Option.map_eq_some_iff.mp (asU64_ofUsize (F := F) h)
  simp [readHistory, History.value, get_ofFields_eq_find?, Value.asStr, hsnapshots, hcount, hnat]

/-- A history counts its snapshots, which are fewer than `2 ^ 63`. -/
theorem count_of_getNodeHistory {B J : Type} {cfg : Config B J} {unicode : Unicode} {db : Database J}
    {nodeId : String} {params : HistoryQuery} {nowMs : Int64} {ok : Bool} {history : History J}
    (h : getNodeHistory cfg unicode db nodeId params nowMs ok = some (.ok history)) :
    history.count = history.snapshots.length ∧ history.count < 2 ^ 63 := by
  unfold getNodeHistory at h
  cases hid : isValidNodeId cfg nodeId with
  | false => simp [hid] at h
  | true =>
    cases hrange : isValidRange cfg params.range with
    | false => simp [hid, hrange] at h
    | true =>
      simp only [hid, hrange, Bool.not_true, Bool.false_eq_true, if_false,
        Option.bind_eq_bind, Option.bind_eq_some_iff] at h
      obtain ⟨rangeMs, -, h⟩ := h
      cases ok with
      | false => simp at h
      | true =>
        rw [if_pos rfl, Option.some.injEq, Except.ok.injEq] at h
        subst h
        refine ⟨rfl, ?_⟩
        rw [Database.getSnapshots, List.length_take]
        exact (Nat.min_le_left ..).trans_lt (Int64.toNatClampNeg_lt _)

/-- **The responses are read back.** A client that parses the body of `list_nodes` gets every entry of
the registry and their number; the body of `get_node` gives it the node; and the body of every
successful `get_node_history` gives it the history as it was selected. Stats that are `null` are read
as none. -/
theorem responses_read_back (nodes : Registry (Value F)) (hnodes : nodes.entries.length < 2 ^ 64) :
    (parse floats (print floats (listNodes nodes).value)).bind readNodeList =
        some ⟨nodes.entries.map (·.2.visible), nodes.entries.length⟩ ∧
      (∀ node : NodeInfo (Value F),
        (parse floats (print floats node.value)).bind readNode = some node.visible) ∧
      ∀ {B : Type} (cfg : Config B (Value F)) (unicode : Unicode) (db : Database (Value F))
        (nodeId : String) (params : HistoryQuery) (nowMs : Int64) (ok : Bool)
        (history : History (Value F)),
        getNodeHistory cfg unicode db nodeId params nowMs ok = some (.ok history) →
          (parse floats (print floats history.value)).bind readHistory = some history := by
  have hlength : (listNodes nodes).count = nodes.entries.length := List.length_map _
  refine ⟨?_, fun node => ?_, fun cfg unicode db nodeId params nowMs ok history h => ?_⟩
  · rw [parse_print, Option.bind_some, readNodeList_value (hlength ▸ hnodes), hlength]
    exact congrArg some (congrArg₂ NodeList.mk (List.map_map ..) rfl)
  · rw [parse_print]
    exact readNode_value node
  · rw [parse_print]
    exact readHistory_value ((count_of_getNodeHistory h).2.trans (by decide))

/-- A database with a snapshot. -/
def oneSnapshot : Database (Value ℤ) :=
  ((Database.empty.upsertNode "node-01" "node-01" "online" 1000).insertSnapshot
    (jsonSerde wholeDoubles id) "node-01" 1500 "[7]").getD .empty

/-- A registry with a node whose stats are `null`. -/
def nullStats : Registry (Value ℤ) := (∅ : Registry (Value ℤ)).onStats "node-01" 1500 .null

theorem responses_read_back_one_snapshot :
    (parse wholeFloats (print wholeFloats (listNodes nullStats).value)).bind readNodeList =
        some ⟨[⟨"node-01", "node-01", 1500, .online, none⟩], 1⟩ ∧
      ∃ history, getNodeHistory ⟨jsonSerde wholeDoubles id, String.length, Char.isAlphanum⟩ .ascii
          oneSnapshot "node-01" {} 2000 true = some (.ok history) ∧ history.snapshots.length = 1 ∧
        (parse wholeFloats (print wholeFloats history.value)).bind readHistory = some history := by
  have hcounts : (getNodeHistory ⟨jsonSerde wholeDoubles id, String.length, Char.isAlphanum⟩ .ascii
      oneSnapshot "node-01" {} 2000 true).map (fun response =>
        match response with
        | .ok history => history.snapshots.length
        | .error _ => 0) = some 1 := by
    decide +kernel
  obtain ⟨response, h, hlength⟩ := Option.map_eq_some_iff.mp hcounts
  obtain ⟨hlist, -, hhistory⟩ := responses_read_back wholeFloats nullStats (by decide)
  refine ⟨hlist, ?_⟩
  cases response with
  | error code => exact absurd hlength Nat.zero_ne_one
  | ok history => exact ⟨history, h, hlength, hhistory _ _ _ _ _ _ _ _ h⟩

end Hakuraku.Server

import Hakuraku.Core.Proto
import Mathlib.Data.List.AList

/-!
# The server's data

Reference: `pulse-server/src/state.rs`, and `StatsSerializable` of `pulse-server/src/grpc.rs`.

A JSON value is a value of a type `J`. What the server does with one goes through `Serde`: the
functions of `serde_json` it calls, and what a `JSONB` column returns for a value stored in it. No
law is assumed of them.
-/

namespace Hakuraku.Server

/-- `serde_json` on the snapshots with metrics in `B`, and the `JSONB` columns. -/
structure Serde (B J : Type) where
  /-- `serde_json::to_value(StatsSerializable::from(&stats))`. The node id and the timestamp are
  not among the serialized fields. -/
  toValue : B → Option J
  /-- `Value::to_string`. -/
  toText : J → String
  /-- `serde_json::from_str`. -/
  fromStr : String → Option J
  /-- `Value::Null`, which is also `Value::default()`. -/
  null : J
  /-- What a `JSONB` column returns for a value. -/
  jsonb : J → J

/-- `NodeStatus`. -/
inductive NodeStatus where
  | online
  | offline
  | unknown
deriving DecidableEq

/-- `NodeInfo`: a node's entry in the in-memory registry. -/
structure NodeInfo (J : Type) where
  nodeId : String
  hostname : String
  lastSeenMs : Int64
  status : NodeStatus
  latestStats : Option J
deriving DecidableEq

/-- `AppState::nodes`. -/
abbrev Registry (J : Type) := AList fun _ : String => NodeInfo J

/-- `NodeUpdate`: what is broadcast to WebSocket subscribers. -/
structure NodeUpdate (J : Type) where
  nodeId : String
  timestampMs : Int64
  stats : J
deriving DecidableEq

/-- `IngestionItem::Stats`. -/
structure StatsItem (J : Type) where
  nodeId : String
  timestampMs : Int64
  statsStr : String
  statsJson : J
deriving DecidableEq

/-- `IngestionItem::ProbeResult`. -/
structure ProbeItem where
  nodeId : String
  target : String
  success : Bool
  latencyUs : Int64
  errorMessage : String
  timestamp : Int64
deriving DecidableEq

/-- `IngestionItem`. -/
inductive IngestionItem (J : Type) where
  | stats (item : StatsItem J)
  | probeResult (item : ProbeItem)
deriving DecidableEq

/-- The `Stats` item in an ingestion item, if it is one. -/
def IngestionItem.stats? {J : Type} : IngestionItem J → Option (StatsItem J)
  | .stats item => some item
  | .probeResult _ => none

namespace Registry

variable {J : Type}

/-- The registry update of the `Stats` arm of `stream_telemetry`. -/
def onStats (nodes : Registry J) (nodeId : String) (timestampMs : Int64) (statsJson : J) :
    Registry J :=
  nodes.insert nodeId
    { nodeId, hostname := nodeId, lastSeenMs := timestampMs, status := .online,
      latestStats := some statsJson }

/-- The registry update of the `Heartbeat` arm: an entry that exists is refreshed. -/
def onHeartbeat (nodes : Registry J) (nodeId : String) (timestampMs : Int64) : Registry J :=
  match nodes.lookup nodeId with
  | some node => nodes.insert nodeId { node with lastSeenMs := timestampMs, status := .online }
  | none => nodes

/-- The liveness checker finds a node overdue. The subtraction wraps. -/
def overdue (now : Int64) (node : NodeInfo J) : Bool :=
  node.status = .online && 30000 < now - node.lastSeenMs

/-- The liveness checker's update of one entry. -/
def onVisit (nodes : Registry J) (now : Int64) (nodeId : String) : Registry J :=
  match nodes.lookup nodeId with
  | some node =>
    if overdue now node then nodes.insert nodeId { node with status := .offline } else nodes
  | none => nodes

variable {nodes : Registry J} {n nodeId : String} {timestampMs now : Int64} {statsJson : J}

@[simp] theorem lookup_onStats_self :
    (nodes.onStats n timestampMs statsJson).lookup n =
      some ⟨n, n, timestampMs, .online, some statsJson⟩ := AList.lookup_insert _

theorem lookup_onStats_of_ne (h : n ≠ nodeId) :
    (nodes.onStats nodeId timestampMs statsJson).lookup n = nodes.lookup n :=
  AList.lookup_insert_ne h

theorem lookup_onHeartbeat_self :
    (nodes.onHeartbeat n timestampMs).lookup n =
      (nodes.lookup n).map ({ · with lastSeenMs := timestampMs, status := .online }) := by
  unfold onHeartbeat
  split
  · rename_i node h
    rw [AList.lookup_insert, h, Option.map_some]
  · rename_i h
    rw [h, Option.map_none]

theorem lookup_onHeartbeat_of_ne (h : n ≠ nodeId) :
    (nodes.onHeartbeat nodeId timestampMs).lookup n = nodes.lookup n := by
  unfold onHeartbeat
  split
  · exact AList.lookup_insert_ne h
  · rfl

theorem lookup_onVisit_self :
    (nodes.onVisit now n).lookup n =
      (nodes.lookup n).map fun node =>
        if overdue now node then { node with status := .offline } else node := by
  unfold onVisit
  split
  · rename_i node h
    split
    · rename_i hdue
      rw [AList.lookup_insert, h, Option.map_some, if_pos hdue]
    · rename_i hdue
      rw [h, Option.map_some, if_neg hdue]
  · rename_i h
    rw [h, Option.map_none]

theorem lookup_onVisit_of_ne (h : n ≠ nodeId) :
    (nodes.onVisit now nodeId).lookup n = nodes.lookup n := by
  unfold onVisit
  split
  · split
    · exact AList.lookup_insert_ne h
    · rfl
  · rfl

theorem onVisit_of_not_overdue {node : NodeInfo J} (hnode : nodes.lookup nodeId = some node)
    (h : ¬ overdue now node) : nodes.onVisit now nodeId = nodes := by
  simp only [onVisit, hnode]
  exact if_neg h

end Registry

end Hakuraku.Server

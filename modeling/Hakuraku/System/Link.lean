import Hakuraku.Agent.Session
import Hakuraku.Server.Receipts

/-!
# An agent and its server

Reference: `pulse-agent/src/main.rs`, `run_session`; `pulse-server/src/grpc.rs`, `stream_telemetry`.

The agent and one server, joined by the telemetry stream. The agent uses one stream at a time: a
session starts only when no request stream of an earlier one is left. What the request streams have
taken and the server has not handled is on the wire, oldest first, and the server handles it in that
order. When a connection breaks off, the end of the wire is lost; what comes before may still be
handled after the agent has reconnected.

The server does all else that a server does, and other agents may stream to it. The registry entry
of this agent's node is written by messages from the wire and by the liveness checker; requests to
the REST API are no part of a run.
-/

namespace Hakuraku

/-- An agent, the messages it has sent, and its server. -/
structure Link (J : Type) where
  agent : Agent.State
  wire : List Agent.Message
  server : Server.State J

/-- What the request stream of a session takes in a step of the agent. -/
def Agent.State.outgoing (s : Agent.State) : Agent.Act → List Agent.Message
  | .within i .take => (s.sessions[i]?.map (·.channel.take 1)).getD []
  | _ => []

theorem Agent.State.outgoing_eq_nil {s : Agent.State} {a : Agent.Act}
    (h : ∀ i, a ≠ .within i .take) : s.outgoing a = [] := by
  unfold outgoing
  split
  · rename_i i
    exact absurd rfl (h i)
  · rfl

namespace Link

/-- The steps of agent and server. -/
inductive Act where
  | agent (a : Agent.Act)
  /-- A step of the server in which it hears nothing from the agent. -/
  | server (a : Server.Act ℕ)
  /-- The server handles the next message on the wire, on a stream of the agent's node. -/
  | handle (stream : ℕ)
  /-- The connection breaks off: all but the first messages on the wire are lost. -/
  | breakOff (delivered : ℕ)

variable {J : Type}

/-- The agent has a request stream. -/
def streaming (s : Link J) : Bool := s.agent.sessions.any (·.receiving)

/-- A step of the server is a message on a stream of the agent's node. -/
def hears (s : Link J) : Server.Act ℕ → Bool
  | .receive i (.message (some _)) => s.server.1.streams[i]?.any (·.nodeId = s.agent.nodeId)
  | _ => false

/-- One step of agent and server. -/
def step (cfg : Server.Config ℕ J) (s : Link J) : Act → Option (Link J)
  | .agent a =>
    if a = .startSession ∧ s.streaming = true then none
    else (s.agent.step a).map fun agent => { s with agent, wire := s.wire ++ s.agent.outgoing a }
  | .server a =>
    if s.hears a then none else (Server.step cfg s.server a).map fun server => { s with server }
  | .handle i =>
    match s.wire with
    | msg :: wire =>
      if s.hears (.receive i (.message (some msg))) then
        (Server.step cfg s.server (.receive i (.message (some msg)))).map fun server =>
          { s with server, wire }
      else none
    | [] => none
  | .breakOff delivered => some { s with wire := s.wire.take delivered }

/-! ## What each step does -/

variable {cfg : Server.Config ℕ J} {s s' : Link J}

theorem step_agent_iff {a : Agent.Act} :
    s.step cfg (.agent a) = some s' ↔ ¬ (a = .startSession ∧ s.streaming = true) ∧
      ∃ agent, s.agent.step a = some agent ∧
        { s with agent, wire := s.wire ++ s.agent.outgoing a } = s' := by
  simp only [step, Option.ite_none_left_eq_some, Option.map_eq_some_iff]

theorem step_server_iff {a : Server.Act ℕ} :
    s.step cfg (.server a) = some s' ↔ ¬ s.hears a = true ∧
      ∃ server, Server.step cfg s.server a = some server ∧ { s with server } = s' := by
  simp only [step, Option.ite_none_left_eq_some, Option.map_eq_some_iff]

theorem step_handle_iff {i : ℕ} :
    s.step cfg (.handle i) = some s' ↔ ∃ msg wire, s.wire = msg :: wire ∧
      s.hears (.receive i (.message (some msg))) = true ∧
      ∃ server, Server.step cfg s.server (.receive i (.message (some msg))) = some server ∧
        { s with server, wire } = s' := by
  cases h : s.wire <;> simp [step, h]

end Link

/-- The agent keeps its node id. -/
theorem Agent.State.step_nodeId {s s' : Agent.State} {a : Agent.Act} (h : s.step a = some s') :
    s'.nodeId = s.nodeId := by
  cases a with
  | collect now =>
    obtain ⟨-, rfl⟩ := step_collect_iff.mp h
    rfl
  | push =>
    obtain ⟨sample, -, rfl⟩ := step_push_iff.mp h
    rfl
  | notifyOne =>
    obtain ⟨-, rfl⟩ := step_notifyOne_iff.mp h
    obtain ⟨permit, waiters, sessions, heq⟩ := notifyOne_eq { s with collector := .idle }
    rw [heq]
  | startSession =>
    obtain ⟨-, rfl⟩ := step_startSession_iff.mp h
    rfl
  | drain i =>
    obtain ⟨x, -, -, rfl⟩ := step_drain_iff.mp h
    rfl
  | park i =>
    obtain ⟨x, -, -, rfl⟩ := step_park_iff.mp h
    split <;> rfl
  | reapForwarder i =>
    obtain ⟨x, -, -, rfl⟩ := step_reapForwarder_iff.mp h
    obtain ⟨permit, waiters, sessions, heq⟩ :=
      notifyOne_eq (s.setSession i { x with forwarder := .done })
    split
    · rfl
    · rw [heq]
      rfl
    · rfl
  | finish i how =>
    obtain ⟨x, -, -, rfl⟩ := step_finish_iff.mp h
    rfl
  | cancel =>
    obtain rfl := Option.some.inj h
    rfl
  | within i event =>
    obtain ⟨x, -, x', -, t, ht, rfl⟩ := step_within_iff.mp h
    obtain ⟨clock, intervalMs, rfl⟩ := observe_eq ht
    rfl

end Hakuraku

import Hakuraku.Agent.Books
import Hakuraku.Server.Acks
import Hakuraku.System.LastSeen

/-!
# What the commands of a server do to an agent

Reference: `pulse-agent/src/main.rs`, the loop over server commands in `run_session`;
`pulse-server/src/grpc.rs`, `stream_telemetry`.

The agent carries out two commands: `ConfigUpdate` sets the collection interval and `AddTcpProbe`
starts a probe, whose result goes to the server on the session's channel. A server sends neither. So
where an agent hears only what its server has sent (`Genuine`), its interval stays as configured,
it never probes, and the server never receives a probe result of it.
-/

namespace Hakuraku

open Agent (Session)

/-! ## An agent that gets no command but acknowledgements -/

/-- The message is a probe result. -/
def Payload.isProbe {B : Type} : Payload B → Bool
  | .probeResult _ => true
  | _ => false

namespace Agent

/-- The session has started no probe and has no result of one. -/
structure Session.Unprobed (x : Session) : Prop where
  probes : x.probes = 0
  channel : ∀ msg ∈ x.channel, msg.isProbe = false
  sent : ∀ msg ∈ x.sent, msg.isProbe = false

theorem Session.unprobed_new : Session.new.Unprobed :=
  ⟨rfl, fun _ h => absurd h List.not_mem_nil, fun _ h => absurd h List.not_mem_nil⟩

/-- What a session keeps while other tasks move. -/
theorem Session.Unprobed.congr {x x' : Session} (h : x.Unprobed) (hprobes : x'.probes = x.probes)
    (hchannel : x'.channel = x.channel) (hsent : x'.sent = x.sent) : x'.Unprobed :=
  ⟨hprobes.trans h.probes, hchannel ▸ h.channel, hsent ▸ h.sent⟩

theorem Session.Unprobed.concat {x x' : Session} {msg : Message} (h : x.Unprobed)
    (hmsg : msg.isProbe = false) (hprobes : x'.probes = x.probes)
    (hchannel : x'.channel = x.channel ++ [msg]) (hsent : x'.sent = x.sent) : x'.Unprobed := by
  refine ⟨hprobes.trans h.probes, fun m hm => ?_, hsent ▸ h.sent⟩
  rw [hchannel] at hm
  rcases List.mem_append.mp hm with hm | hm
  · exact h.channel m hm
  · exact List.mem_singleton.mp hm ▸ hmsg

/-- A session that gets no command to probe does not. -/
theorem Session.Unprobed.step {nodeId : String} {x x' : Session} {event : Session.Event}
    (h : x.Unprobed) (hcmd : ∀ host port timeoutMs, event ≠ .command (.addTcpProbe host port timeoutMs))
    (hs : x.step nodeId event = some x') : x'.Unprobed := by
  cases event with
  | established =>
    obtain ⟨-, rfl⟩ := by simpa [Session.step] using hs
    exact h.congr rfl rfl rfl
  | command cmd =>
    simp only [Session.step, Option.ite_none_right_eq_some] at hs
    obtain ⟨-, hs⟩ := hs
    split at hs
    · exact absurd rfl (hcmd _ _ _)
    · obtain rfl := Option.some.inj hs
      exact h
  | send =>
    obtain ⟨msg, rest, -, -, rfl⟩ := step_send_iff.mp hs
    exact h.concat rfl rfl rfl rfl
  | sendFails =>
    obtain ⟨msg, rest, -, -, rfl⟩ := step_sendFails_iff.mp hs
    exact h.congr rfl rfl rfl
  | resume =>
    obtain ⟨-, rfl⟩ := by simpa [Session.step] using hs
    exact h.congr rfl rfl rfl
  | tick now =>
    obtain ⟨-, rfl⟩ := step_tick_iff.mp hs
    exact h.congr rfl rfl rfl
  | sendHeartbeat =>
    obtain ⟨hb, -, -, rfl⟩ := step_sendHeartbeat_iff.mp hs
    exact h.concat rfl rfl rfl rfl
  | sendHeartbeatFails =>
    simp only [Session.step] at hs
    split at hs
    · obtain ⟨-, rfl⟩ := by simpa using hs
      exact h.congr rfl rfl rfl
    · exact absurd hs (by simp)
  | sendProbe result =>
    obtain ⟨⟨hpos, -⟩, -⟩ := by simpa [Session.step] using hs
    exact absurd hpos (by simp [h.probes])
  | sendProbeFails =>
    obtain ⟨⟨hpos, -⟩, -⟩ := by simpa [Session.step] using hs
    exact absurd hpos (by simp [h.probes])
  | take =>
    obtain ⟨msg, rest, hchannel, -, rfl⟩ := step_take_iff.mp hs
    have hall := h.channel
    rw [hchannel, List.forall_mem_cons] at hall
    refine ⟨h.probes, hall.2, fun m hm => ?_⟩
    rcases List.mem_append.mp hm with hm | hm
    · exact h.sent m hm
    · exact List.mem_singleton.mp hm ▸ hall.1
  | closeReceiver =>
    obtain ⟨-, rfl⟩ := step_closeReceiver_iff.mp hs
    exact ⟨h.probes, fun _ hm => absurd hm List.not_mem_nil, h.sent⟩
  | reapHeartbeat =>
    obtain ⟨-, rfl⟩ := by simpa [Session.step] using hs
    exact h.congr rfl rfl rfl

namespace State

variable {s s' : State} {a : Act} {intervalMs : UInt64}

/-- The agent collects at the interval it was configured with, and has never probed. -/
structure Unconfigured (intervalMs : UInt64) (s : State) : Prop where
  waiters : s.WaitersSound
  interval : s.intervalMs = intervalMs
  sessions : ∀ x ∈ s.sessions, x.Unprobed

theorem unconfigured_init (nodeId : String) (clock : Int64) (intervalMs : UInt64) :
    (init nodeId clock intervalMs).Unconfigured intervalMs :=
  ⟨waitersSound_init _ _ _, rfl, fun _ h => absurd h List.not_mem_nil⟩

theorem Unconfigured.setSession {i : ℕ} {y : Session} (h : ∀ x ∈ s.sessions, x.Unprobed)
    (hy : y.Unprobed) : ∀ x ∈ (s.setSession i y).sessions, x.Unprobed := fun x hx => by
  rcases mem_setSession hx with hx | rfl
  · exact h x hx
  · exact hy

theorem Unconfigured.notifyOne (hw : s.WaitersSound) (h : ∀ x ∈ s.sessions, x.Unprobed) :
    ∀ x ∈ s.notifyOne.sessions, x.Unprobed := by
  rcases hw.notifyOne_cases with ⟨-, heq⟩ | ⟨i, rest, x, -, hx, -, heq⟩
  · rw [heq]
    exact h
  · rw [heq]
    exact Unconfigured.setSession (s := { s with waiters := rest }) h
      ((h x (List.mem_of_getElem? hx)).congr rfl rfl rfl)

/-- **An agent that gets no command but acknowledgements stays as it was configured.** -/
theorem Unconfigured.step (h : s.Unconfigured intervalMs)
    (hcmd : ∀ i cmd, a = .within i (.command cmd) → ∃ stamp, cmd = .heartbeatAck stamp)
    (hs : s.step a = some s') : s'.Unconfigured intervalMs := by
  suffices hrest : s'.intervalMs = intervalMs ∧ ∀ x ∈ s'.sessions, x.Unprobed from
    ⟨h.waiters.step hs, hrest.1, hrest.2⟩
  cases a with
  | collect now =>
    obtain ⟨-, rfl⟩ := step_collect_iff.mp hs
    exact ⟨h.interval, h.sessions⟩
  | push =>
    obtain ⟨sample, -, rfl⟩ := step_push_iff.mp hs
    exact ⟨h.interval, h.sessions⟩
  | notifyOne =>
    obtain ⟨-, rfl⟩ := step_notifyOne_iff.mp hs
    have hidle : ({ s with collector := .idle } : State).WaitersSound :=
      ⟨h.waiters.nodup, h.waiters.waiting⟩
    refine ⟨?_, Unconfigured.notifyOne hidle h.sessions⟩
    obtain ⟨permit, waiters, sessions, heq⟩ := notifyOne_eq { s with collector := .idle }
    rw [heq]
    exact h.interval
  | startSession =>
    obtain ⟨-, rfl⟩ := step_startSession_iff.mp hs
    refine ⟨h.interval, fun x hx => ?_⟩
    rcases List.mem_append.mp hx with hx | hx
    · exact h.sessions x hx
    · exact List.mem_singleton.mp hx ▸ Session.unprobed_new
  | drain i =>
    obtain ⟨x, hx, -, rfl⟩ := step_drain_iff.mp hs
    exact ⟨h.interval, Unconfigured.setSession (s := { s with holdback := _ }) h.sessions
      ((h.sessions x (List.mem_of_getElem? hx)).congr rfl rfl rfl)⟩
  | park i =>
    obtain ⟨x, hx, -, rfl⟩ := step_park_iff.mp hs
    have hx' := h.sessions x (List.mem_of_getElem? hx)
    split
    · exact ⟨h.interval, Unconfigured.setSession (s := { s with permit := false })
        h.sessions (hx'.congr rfl rfl rfl)⟩
    · exact ⟨h.interval, Unconfigured.setSession (s := { s with waiters := _ })
        h.sessions (hx'.congr rfl rfl rfl)⟩
  | reapForwarder i =>
    obtain ⟨x, hx, -, rfl⟩ := step_reapForwarder_iff.mp hs
    have hset : ∀ x' ∈ (s.setSession i { x with forwarder := .done }).sessions, x'.Unprobed :=
      Unconfigured.setSession h.sessions
        ((h.sessions x (List.mem_of_getElem? hx)).congr rfl rfl rfl)
    split
    · exact ⟨h.interval, hset⟩
    · rename_i hf
      have hsound := h.waiters.setSession_of_not_mem (y := { x with forwarder := .done })
        (h.waiters.not_mem hx (by simp [hf]))
      refine ⟨?_, Unconfigured.notifyOne hsound hset⟩
      obtain ⟨permit, waiters, sessions, heq⟩ :=
        notifyOne_eq (s.setSession i { x with forwarder := .done })
      rw [heq]
      exact h.interval
    · exact ⟨h.interval, hset⟩
  | finish i how =>
    obtain ⟨x, hx, -, rfl⟩ := step_finish_iff.mp hs
    exact ⟨h.interval, Unconfigured.setSession h.sessions
      ((h.sessions x (List.mem_of_getElem? hx)).congr rfl rfl rfl)⟩
  | cancel =>
    obtain rfl := Option.some.inj hs
    exact ⟨h.interval, h.sessions⟩
  | within i event =>
    obtain ⟨x, hx, x', hx', t, ht, rfl⟩ := step_within_iff.mp hs
    have hunprobed := (h.sessions x (List.mem_of_getElem? hx)).step (fun host port timeoutMs hev => by
      obtain ⟨stamp, heq⟩ := hcmd i _ (by rw [hev])
      exact absurd heq (by simp)) hx'
    obtain ⟨clock, interval, rfl⟩ := observe_eq ht
    refine ⟨?_, Unconfigured.setSession (s := { s with clock := _, intervalMs := _ })
      h.sessions hunprobed⟩
    -- only a configuration update would set the interval
    unfold observe at ht
    split at ht
    · split at ht
      · exact (congrArg State.intervalMs (Option.some.inj ht)).symm.trans h.interval
      · exact absurd ht (by simp)
    · obtain ⟨stamp, heq⟩ := hcmd i _ rfl
      exact absurd heq (by simp)
    · exact (congrArg State.intervalMs (Option.some.inj ht)).symm.trans h.interval

end State

end Agent

/-! ## Agent and server -/

namespace Link

variable {J : Type} {cfg : Server.Config ℕ J} {s s' : Link J} {a : Act} {intervalMs : UInt64}

/-- A command that reaches the agent has been sent by the server on a stream of the agent's node. -/
def Genuine (s : Link J) : Act → Prop
  | .agent (.within _ (.command cmd)) =>
    ∃ x ∈ s.server.1.streams, x.nodeId = s.agent.nodeId ∧ cmd ∈ x.commands
  | _ => True

instance (s : Link J) : DecidablePred s.Genuine
  | .agent (.within _ (.command cmd)) => inferInstanceAs
    (Decidable (∃ x ∈ s.server.1.streams, x.nodeId = s.agent.nodeId ∧ cmd ∈ x.commands))
  | .agent (.collect _) | .agent .push | .agent .notifyOne | .agent .startSession
  | .agent (.drain _) | .agent (.park _) | .agent (.reapForwarder _) | .agent (.finish ..)
  | .agent .cancel | .agent (.within _ .established) | .agent (.within _ .send)
  | .agent (.within _ .sendFails) | .agent (.within _ .resume) | .agent (.within _ (.tick _))
  | .agent (.within _ .sendHeartbeat) | .agent (.within _ .sendHeartbeatFails)
  | .agent (.within _ (.sendProbe _)) | .agent (.within _ .sendProbeFails)
  | .agent (.within _ .take) | .agent (.within _ .closeReceiver)
  | .agent (.within _ .reapHeartbeat) | .server _ | .handle _ | .breakOff _ => isTrue trivial

/-- The agent is as it was configured, the wire carries no probe result, and the server has sent
nothing but acknowledgements. -/
structure Unconfigured (intervalMs : UInt64) (s : Link J) : Prop where
  agent : s.agent.Unconfigured intervalMs
  wire : ∀ msg ∈ s.wire, msg.isProbe = false
  server : ∀ x ∈ s.server.1.streams, x.Acks s.server.1.clock

theorem Unconfigured.ack (h : s.Unconfigured intervalMs) {x : Server.Stream J}
    (hx : x ∈ s.server.1.streams) {cmd : ServerCommand} (hcmd : cmd ∈ x.commands) :
    ∃ stamp, cmd = .heartbeatAck stamp := by
  obtain ⟨stamps, hcommands, -⟩ := h.server x hx
  rw [hcommands] at hcmd
  obtain ⟨stamp, -, rfl⟩ := List.mem_map.mp hcmd
  exact ⟨stamp, rfl⟩

theorem Unconfigured.outgoing (h : s.Unconfigured intervalMs) (a : Agent.Act) :
    ∀ msg ∈ s.agent.outgoing a, msg.isProbe = false := by
  intro msg hmsg
  unfold Agent.State.outgoing at hmsg
  split at hmsg
  · rename_i i
    cases hx : s.agent.sessions[i]? with
    | none => exact absurd hmsg (by simp [hx])
    | some x =>
      rw [hx] at hmsg
      exact (h.agent.sessions x (List.mem_of_getElem? hx)).channel msg (List.mem_of_mem_take hmsg)
  · exact absurd hmsg List.not_mem_nil

theorem Unconfigured.step (h : s.Unconfigured intervalMs) (hguard : s.Genuine a)
    (hs : s.step cfg a = some s') : s'.Unconfigured intervalMs := by
  cases a with
  | agent a =>
    obtain ⟨-, agent, hagent, rfl⟩ := step_agent_iff.mp hs
    refine ⟨h.agent.step (fun i cmd ha => ?_) hagent, fun msg hmsg => ?_, h.server⟩
    · subst ha
      obtain ⟨x, hx, -, hcmd⟩ := hguard
      exact h.ack hx hcmd
    · rcases List.mem_append.mp hmsg with hmsg | hmsg
      · exact h.wire msg hmsg
      · exact h.outgoing a msg hmsg
  | server a =>
    obtain ⟨-, server, hserver, rfl⟩ := step_server_iff.mp hs
    exact ⟨h.agent, h.wire, Server.acks_step h.server hserver⟩
  | handle i =>
    obtain ⟨msg, wire, hwire, -, server, hserver, rfl⟩ := step_handle_iff.mp hs
    have hall := h.wire
    rw [hwire, List.forall_mem_cons] at hall
    exact ⟨h.agent, hall.2, Server.acks_step h.server hserver⟩
  | breakOff delivered =>
    obtain rfl := Option.some.inj hs
    exact ⟨h.agent, fun msg hmsg => h.wire msg (List.mem_of_mem_take hmsg), h.server⟩

/-- **An agent of this server is never reconfigured and never probes.** In every run in which the
agent hears only commands that its server has sent, its collection interval stays as configured, no
session ever starts a probe, and no probe result is ever sent to the server. -/
theorem agent_stays_as_configured {nodeId : String} {clock : Int64} {intervalMs : UInt64}
    {server : Server.State J} {as : List Act} {t : Link J}
    (hserver : ∀ x ∈ server.1.streams, x.Acks server.1.clock)
    (hrun : Machine.run (step cfg) (init nodeId clock intervalMs server) as = some t)
    (hguard : Machine.Along (step cfg) Genuine (init nodeId clock intervalMs server) as) :
    t.agent.intervalMs = intervalMs ∧ (∀ x ∈ t.agent.sessions, x.probes = 0) ∧
      (∀ x ∈ t.agent.sessions, ∀ msg ∈ x.sent, ∀ probe, msg ≠ .probeResult probe) ∧
      ∀ msg ∈ t.wire, ∀ probe, msg ≠ .probeResult probe := by
  have hstart : (init nodeId clock intervalMs server).Unconfigured intervalMs :=
    ⟨Agent.State.unconfigured_init _ _ _, fun _ h => absurd h List.not_mem_nil, hserver⟩
  have h := Machine.run_preserves (I := Unconfigured intervalMs)
    (fun _ _ _ h hg hs => h.step hg hs) hstart hguard hrun
  have hprobe : ∀ {msg : Agent.Message}, msg.isProbe = false → ∀ probe, msg ≠ .probeResult probe := by
    rintro _ hmsg probe rfl
    exact absurd hmsg (by simp [Payload.isProbe])
  exact ⟨h.agent.interval, fun x hx => (h.agent.sessions x hx).probes,
    fun x hx msg hmsg => hprobe ((h.agent.sessions x hx).sent msg hmsg),
    fun msg hmsg => hprobe (h.wire msg hmsg)⟩

/-- A heartbeat goes to the server and its acknowledgement comes back. -/
def acknowledgedRun : List Act :=
  connectRun ++ [.agent (.within 0 .established), .agent (.within 0 (.tick 5000)),
    .agent (.within 0 .sendHeartbeat), .agent (.within 0 .take), .handle 0, .server (.ack 0 true),
    .agent (.within 0 (.command (.heartbeatAck 500))), .agent (.within 0 (.tick 10000))]

theorem agent_stays_as_configured_acknowledged :
    ∃ t : Link String, Machine.run (step .byText) (init "node-01" 500 1000 loaded) acknowledgedRun =
        some t ∧ t.agent.intervalMs = 1000 ∧ ∀ x ∈ t.agent.sessions, x.probes = 0 := by
  obtain ⟨t, hrun⟩ := Option.isSome_iff_exists.mp (show (Machine.run (step .byText)
    (init "node-01" 500 1000 loaded) acknowledgedRun).isSome = true by decide +kernel)
  have h := agent_stays_as_configured (fun _ hx => absurd hx List.not_mem_nil) hrun
    (by decide +kernel)
  exact ⟨t, hrun, h.1, h.2.1⟩

end Link

end Hakuraku

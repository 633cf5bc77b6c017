import Hakuraku.System.Link

/-!
# The time a node was last seen

Reference: `pulse-agent/src/main.rs`, the forwarder of `run_session` and `heartbeat_loop`;
`pulse-agent/src/buffer.rs`; `pulse-server/src/grpc.rs`, the registry updates of `stream_telemetry`.

The server assigns the timestamp of every message to `last_seen_ms`, whatever stood there. So
`last_seen_ms` advances as long as messages arrive in the order of their timestamps. The agent
stamps a snapshot when it is collected and a heartbeat when its ticker fires, and two tasks put them
into one channel: a heartbeat overtakes the snapshots that wait in the holdback buffer, and a
heartbeat that waits for room in the channel is overtaken by later snapshots.

`InTurn` is the guard under which neither happens. The timestamps on the way of a session then form
one line, in order (`Ordered`): `last_seen_ms`, the wire and the channel, then the snapshots that
wait for the channel.
-/

namespace Hakuraku

open Agent (Session Sample)

/-! ## Timestamps at the agent -/

/-- The snapshot in the hand of the collection task. -/
def Agent.Collector.hand : Agent.Collector → List Sample
  | .collected sample => [sample]
  | _ => []

/-- The heartbeat that waits for room in the channel. -/
def Agent.HeartbeatTask.stamped : Agent.HeartbeatTask → Option Heartbeat
  | .sending hb => some hb
  | _ => none

/-- The snapshots that wait for the channel of a session, oldest first. -/
def Agent.State.waiting (s : Agent.State) (x : Session) : List Sample :=
  x.forwarder.drained ++ s.holdback.inner ++ s.collector.hand

/-- The events that put a message into the channel or take one out, or stamp one. -/
def Agent.Session.Event.passes : Session.Event → Bool
  | .send | .tick _ | .sendHeartbeat | .take => true
  | _ => false

/-- Any other event of a session at most drops some of its messages. -/
theorem Agent.Session.step_drops {nodeId : String} {x x' : Session} {event : Session.Event}
    (h : x.step nodeId event = some x') (hp : event.passes = false) :
    (stampsOf x'.channel).Sublist (stampsOf x.channel) ∧
      x'.forwarder.drained.Sublist x.forwarder.drained ∧
      (∀ hb ∈ x'.heartbeat.stamped, hb ∈ x.heartbeat.stamped) ∧
      (x'.receiving = true → x.receiving = true) := by
  cases event with
  | send | tick _ | sendHeartbeat | take => cases hp
  | established =>
    obtain ⟨-, rfl⟩ := by simpa [step] using h
    exact ⟨.refl _, .refl _, fun _ => id, id⟩
  | command cmd =>
    simp only [step, Option.ite_none_right_eq_some] at h
    obtain ⟨-, h⟩ := h
    split at h <;> (obtain rfl := Option.some.inj h; exact ⟨.refl _, .refl _, fun _ => id, id⟩)
  | sendFails =>
    obtain ⟨msg, rest, hf, -, rfl⟩ := step_sendFails_iff.mp h
    exact ⟨.refl _, List.nil_sublist _, fun _ => id, id⟩
  | resume =>
    obtain ⟨-, rfl⟩ := by simpa [step] using h
    exact ⟨.refl _, List.nil_sublist _, fun _ => id, id⟩
  | sendHeartbeatFails =>
    simp only [step] at h
    split at h
    · obtain ⟨-, rfl⟩ := by simpa using h
      exact ⟨.refl _, .refl _, fun _ hb => absurd hb (by simp [HeartbeatTask.stamped]), id⟩
    · exact absurd h (by simp)
  | sendProbe result =>
    obtain ⟨-, rfl⟩ := by simpa [step] using h
    refine ⟨?_, .refl _, fun _ => id, id⟩
    rw [stampsOf_append]
    exact (List.append_nil _).symm ▸ .refl _
  | sendProbeFails =>
    obtain ⟨-, rfl⟩ := by simpa [step] using h
    exact ⟨.refl _, .refl _, fun _ => id, id⟩
  | closeReceiver =>
    obtain ⟨-, rfl⟩ := step_closeReceiver_iff.mp h
    exact ⟨List.nil_sublist _, .refl _, fun _ => id, fun hr => absurd hr (by simp)⟩
  | reapHeartbeat =>
    obtain ⟨-, rfl⟩ := by simpa [step] using h
    exact ⟨.refl _, .refl _, fun _ hb => absurd hb (by simp [HeartbeatTask.stamped]), id⟩

/-! ## The registry -/

/-- The `last_seen_ms` of a node in the registry. -/
def Server.Process.lastSeenOf {J : Type} (s : Server.Process J) (n : String) : Option Int64 :=
  (s.nodes.lookup n).map (·.lastSeenMs)

/-- **A step that sets the `last_seen_ms` of a node sets it to the timestamp of a message**, which
it receives on a stream of the node. -/
theorem Server.Effect.lastSeenOf {B J : Type} {s s' : Server.Process J} {a : Server.Act B}
    (he : Server.Effect s s' a) (n : String) : s'.lastSeenOf n = s.lastSeenOf n ∨
      ∃ i msg x timestampMs, a = .receive i (.message (some msg)) ∧ s.streams[i]? = some x ∧
        x.nodeId = n ∧ msg.stamp? = some timestampMs ∧ s'.lastSeenOf n = some timestampMs := by
  have hcongr : s'.nodes = s.nodes → s'.lastSeenOf n = s.lastSeenOf n := fun hnodes => by
    rw [Process.lastSeenOf, Process.lastSeenOf, hnodes]
  cases he with
  | other hnodes => exact .inl (hcongr hnodes)
  | stats i stats nodeId timestampMs statsStr statsJson hid hstamp hstream hnodes =>
    by_cases hne : n = nodeId
    · subst hne
      obtain ⟨x, hx, hxid⟩ := hstream
      refine .inr ⟨i, .stats stats, x, timestampMs, rfl, hx, hxid, congrArg some hstamp, ?_⟩
      rw [Process.lastSeenOf, hnodes, Registry.lookup_onStats_self, Option.map_some]
    · refine .inl ?_
      rw [Process.lastSeenOf, hnodes, Registry.lookup_onStats_of_ne hne, Process.lastSeenOf]
  | heartbeat i hb nodeId timestampMs hid hstamp hstream hnodes =>
    by_cases hne : n = nodeId
    · subst hne
      obtain ⟨x, hx, hxid⟩ := hstream
      cases hnode : s.nodes.lookup n with
      | none =>
        refine .inl ?_
        rw [Process.lastSeenOf, hnodes, Registry.lookup_onHeartbeat_self, Process.lastSeenOf, hnode]
        rfl
      | some node =>
        refine .inr ⟨i, .heartbeat hb, x, timestampMs, rfl, hx, hxid, congrArg some hstamp, ?_⟩
        rw [Process.lastSeenOf, hnodes, Registry.lookup_onHeartbeat_self, hnode]
        rfl
    · refine .inl ?_
      rw [Process.lastSeenOf, hnodes, Registry.lookup_onHeartbeat_of_ne hne, Process.lastSeenOf]
  | tick hidle heq => exact .inl (hcongr (heq ▸ rfl))
  | visit m now due visited transitions node hscan hnode hnew heq =>
    subst heq
    refine .inl ?_
    by_cases hne : n = m
    · subst hne
      simp only [Process.lastSeenOf, Registry.lookup_onVisit_self, hnode, Option.map_some]
      split <;> rfl
    · simp only [Process.lastSeenOf, Registry.lookup_onVisit_of_ne hne]
  | scanned now due visited transitions hscan hall heq => exact .inl (hcongr (heq ▸ rfl))
  | persist ok nowMs transition rest hupsert hnodes => exact .inl (hcongr hnodes)
  | announce transition rest hann hnodes => exact .inl (hcongr hnodes)

namespace Link

variable {J : Type} {cfg : Server.Config ℕ J} {s s' : Link J} {x x' : Session} {i : ℕ}

/-- The agent's node in the registry of the server. -/
def lastSeen (s : Link J) : Option Int64 := s.server.1.lastSeenOf s.agent.nodeId

/-- `last_seen_ms` does not go backwards in a step. -/
def Advances (cfg : Server.Config ℕ J) (s : Link J) (a : Act) : Prop :=
  ∀ s', s.step cfg a = some s' → s.lastSeen ≤ s'.lastSeen

/-- The guard on the steps. -/
def InTurn (s : Link J) : Act → Prop
  -- a heartbeat enters the channel when no older snapshot waits
  | .agent (.within i .sendHeartbeat) => ∀ x ∈ s.agent.sessions[i]?, ∀ hb ∈ x.heartbeat.stamped,
    ∀ sample ∈ s.agent.waiting x, hb.timestampMs ≤ sample.timestampMs
  -- a snapshot enters the channel when no older heartbeat waits
  | .agent (.within i .send) => ∀ x ∈ s.agent.sessions[i]?, ∀ hb ∈ x.heartbeat.stamped,
    ∀ sample ∈ x.forwarder.drained.head?, sample.timestampMs ≤ hb.timestampMs
  | _ => True

/-! ## The line of timestamps -/

/-- The timestamps ahead of the snapshots that wait. -/
def front (s : Link J) (x : Session) : List Int64 :=
  s.lastSeen.toList ++ stampsOf s.wire ++ stampsOf x.channel

/-- The timestamps on the way of a session. -/
def line (s : Link J) (x : Session) : List Int64 :=
  s.front x ++ (s.agent.waiting x).map (·.timestampMs)

/-- The timestamps on the way of a session are in order, and of the past. A heartbeat that waits is
later than all that have passed the channel's entrance. -/
structure Ordered (s : Link J) (x : Session) : Prop where
  sorted : (s.line x).Pairwise (· ≤ ·)
  past : ∀ t ∈ s.line x, t ≤ s.agent.clock
  heartbeat : ∀ hb ∈ x.heartbeat.stamped,
    hb.timestampMs ≤ s.agent.clock ∧ ∀ t ∈ s.front x, t ≤ hb.timestampMs

/-- The line may lose timestamps while the clock advances. -/
theorem Ordered.shrink (h : s.Ordered x) (hclock : s.agent.clock ≤ s'.agent.clock)
    (hline : (s'.line x').Sublist (s.line x)) (hfront : s'.front x' ⊆ s.front x)
    (hhb : ∀ hb ∈ x'.heartbeat.stamped, hb ∈ x.heartbeat.stamped) : s'.Ordered x' where
  sorted := h.sorted.sublist hline
  past t ht := Int64.le_trans (h.past t (hline.subset ht)) hclock
  heartbeat hb hmem := by
    obtain ⟨hle, hall⟩ := h.heartbeat hb (hhb hb hmem)
    exact ⟨Int64.le_trans hle hclock, fun t ht => hall t (hfront ht)⟩

/-- All request streams but the newest are gone, and the timestamps on the way of the newest are
ordered, as are those that a new session would find. -/
structure Sequenced (s : Link J) : Prop where
  idle : s.Ordered .new
  current : ∀ i x, s.agent.sessions[i]? = some x → x.receiving = true →
    i + 1 = s.agent.sessions.length ∧ s.Ordered x

/-- Sessions may be replaced one by one. -/
theorem Sequenced.of_sessions (h : s.Sequenced)
    (hlen : s'.agent.sessions.length = s.agent.sessions.length) (hidle : s'.Ordered .new)
    (hall : ∀ (i : ℕ) (x' : Session), s'.agent.sessions[i]? = some x' → x'.receiving = true →
      ∃ x, s.agent.sessions[i]? = some x ∧ x.receiving = true ∧ (s.Ordered x → s'.Ordered x')) :
    s'.Sequenced := by
  refine ⟨hidle, fun i x' hx' hr => ?_⟩
  obtain ⟨x, hx, hrx, hord⟩ := hall i x' hx' hr
  obtain ⟨hlast, hx⟩ := h.current i x hx hrx
  exact ⟨hlen ▸ hlast, hord hx⟩

/-- One session may be replaced. The others change only if its request stream is gone. -/
theorem Sequenced.setSession (h : s.Sequenced) (hx : s.agent.sessions[i]? = some x)
    (hsessions : s'.agent.sessions = s.agent.sessions.set i x')
    (hrecv : x'.receiving = true → x.receiving = true) (hidle : s'.Ordered .new)
    (hself : x.receiving = true → s.Ordered x → s'.Ordered x')
    (hother : x.receiving = false → ∀ y, s.Ordered y → s'.Ordered y) : s'.Sequenced := by
  refine h.of_sessions (by rw [hsessions, List.length_set]) hidle fun j y hy hr => ?_
  rw [hsessions, List.getElem?_set] at hy
  split at hy
  · rename_i hij
    subst hij
    split at hy
    · obtain rfl := Option.some.inj hy
      exact ⟨x, hx, hrecv hr, hself (hrecv hr)⟩
    · exact absurd hy (by simp)
  · rename_i hij
    refine ⟨y, hy, hr, hother ?_ y⟩
    by_contra hxr
    have hi := (h.current i x hx (by simpa using hxr)).1
    have hj := (h.current j y hy hr).1
    exact hij (by omega)

/-! ## Steps of the agent -/

/-- A step of the agent may drop messages of a session. -/
theorem Ordered.agent {agent : Agent.State} (h : s.Ordered x) (hnode : agent.nodeId = s.agent.nodeId)
    (hclock : s.agent.clock ≤ agent.clock)
    (hchannel : (stampsOf x'.channel).Sublist (stampsOf x.channel))
    (hwaiting : (agent.waiting x').Sublist (s.agent.waiting x))
    (hhb : ∀ hb ∈ x'.heartbeat.stamped, hb ∈ x.heartbeat.stamped) :
    ({ s with agent } : Link J).Ordered x' := by
  have hfront : (({ s with agent } : Link J).front x').Sublist (s.front x) := by
    simp only [front, lastSeen, hnode]
    exact (List.Sublist.refl _).append hchannel
  exact h.shrink hclock (hfront.append (hwaiting.map _)) hfront.subset hhb

/-- A step of the agent that touches neither its clock nor what waits leaves a session ordered. -/
theorem Ordered.agent_same {agent : Agent.State} (h : s.Ordered x)
    (hnode : agent.nodeId = s.agent.nodeId) (hclock : agent.clock = s.agent.clock)
    (hholdback : agent.holdback.inner.Sublist s.agent.holdback.inner)
    (hcollector : agent.collector.hand = s.agent.collector.hand)
    (hchannel : x'.channel = x.channel)
    (hdrained : x'.forwarder.drained.Sublist x.forwarder.drained)
    (hheartbeat : x'.heartbeat = x.heartbeat) : ({ s with agent } : Link J).Ordered x' := by
  refine h.agent hnode (hclock ▸ Int64.le_refl _) (hchannel ▸ .refl _) ?_ (hheartbeat ▸ fun _ => id)
  simp only [Agent.State.waiting, hcollector]
  exact (hdrained.append hholdback).append (.refl _)

/-- A session may be replaced by one that is ordered as it stands. -/
theorem Sequenced.update {agent : Agent.State} (h : s.Sequenced)
    (hx : s.agent.sessions[i]? = some x)
    (hagent : ∃ permit waiters intervalMs, agent =
      { s.agent with permit, waiters, intervalMs, sessions := s.agent.sessions.set i x' })
    (hrecv : x'.receiving = true → x.receiving = true)
    (hself : x.receiving = true → s.Ordered x → s.Ordered x') :
    ({ s with agent } : Link J).Sequenced := by
  obtain ⟨permit, waiters, intervalMs, rfl⟩ := hagent
  have hsame : ∀ y, s.Ordered y → Link.Ordered { s with agent := { s.agent with
      permit, waiters, intervalMs, sessions := s.agent.sessions.set i x' } } y :=
    fun y hord => hord.agent_same rfl rfl (.refl _) rfl rfl (.refl _) rfl
  exact h.setSession hx rfl hrecv (hsame _ h.idle) (fun hr hord => hsame _ (hself hr hord))
    (fun _ y hord => hsame y hord)

/-- A session may end, and its forwarder move on and drop messages. -/
theorem Sequenced.replace {agent : Agent.State} (h : s.Sequenced)
    (hx : s.agent.sessions[i]? = some x)
    (hagent : ∃ permit waiters, agent =
      { s.agent with permit, waiters, sessions := s.agent.sessions.set i x' })
    (hchannel : x'.channel = x.channel)
    (hdrained : x'.forwarder.drained.Sublist x.forwarder.drained)
    (hheartbeat : x'.heartbeat = x.heartbeat) (hrecv : x'.receiving = x.receiving) :
    ({ s with agent } : Link J).Sequenced := by
  obtain ⟨permit, waiters, rfl⟩ := hagent
  exact h.update hx ⟨permit, waiters, s.agent.intervalMs, rfl⟩ (hrecv ▸ id)
    fun _ hord => hord.agent_same rfl rfl (.refl _) rfl hchannel hdrained hheartbeat

/-- A notification touches the place of a forwarder only. -/
theorem Sequenced.notifyOne (h : s.Sequenced) :
    ({ s with agent := s.agent.notifyOne } : Link J).Sequenced := by
  obtain ⟨permit, waiters, sessions, heq⟩ := Agent.State.notifyOne_eq s.agent
  have hidle : ({ s with agent := s.agent.notifyOne } : Link J).Ordered .new := by
    rw [heq]
    exact h.idle.agent_same rfl rfl (.refl _) rfl rfl (.refl _) rfl
  unfold Agent.State.notifyOne at hidle ⊢
  split at hidle
  · rename_i hw
    exact h.of_sessions rfl hidle fun i x hx hr => ⟨x, hx, hr, fun hord =>
      hord.agent_same rfl rfl (.refl _) rfl rfl (.refl _) rfl⟩
  · rename_i i rest hw
    refine h.of_sessions (List.length_modify ..) hidle fun j y hy hr => ?_
    rw [List.getElem?_modify] at hy
    obtain ⟨x, hx, rfl⟩ := Option.map_eq_some_iff.mp hy
    refine ⟨x, hx, ?_, fun hord => ?_⟩
    · split at hr <;> exact hr
    · split
      · exact hord.agent_same rfl rfl (.refl _) rfl rfl (List.nil_sublist _) rfl
      · exact hord.agent_same rfl rfl (.refl _) rfl rfl (.refl _) rfl

/-- A new snapshot is the latest of the line. -/
theorem Ordered.collect {agent : Agent.State} {sample : Sample} (h : s.Ordered x)
    (hnode : agent.nodeId = s.agent.nodeId) (hclock : s.agent.clock ≤ agent.clock)
    (hstamp : sample.timestampMs = agent.clock)
    (hwaiting : agent.waiting x = s.agent.waiting x ++ [sample]) :
    ({ s with agent } : Link J).Ordered x := by
  have hfront : ({ s with agent } : Link J).front x = s.front x := by
    simp only [front, lastSeen, hnode]
  have hline : ({ s with agent } : Link J).line x = s.line x ++ [agent.clock] := by
    simp only [line, hfront, hwaiting, List.map_append, List.map_singleton, hstamp, List.append_assoc]
  refine ⟨?_, fun t ht => ?_, fun hb hmem => ?_⟩
  · rw [hline, List.pairwise_append]
    refine ⟨h.sorted, List.pairwise_singleton _ _, fun t ht u hu => ?_⟩
    rw [List.mem_singleton.mp hu]
    exact Int64.le_trans (h.past t ht) hclock
  · rw [hline, List.mem_append, List.mem_singleton] at ht
    rcases ht with ht | rfl
    · exact Int64.le_trans (h.past t ht) hclock
    · exact Int64.le_refl _
  · rw [hfront]
    exact (h.heartbeat hb hmem).imp_left (Int64.le_trans · hclock)

/-- The forwarder hands over a snapshot that is no later than a waiting heartbeat. -/
theorem Ordered.send {msg : Sample} {rest : List Sample} (h : s.Ordered x)
    (hf : x.forwarder = .sending (msg :: rest))
    (hguard : ∀ hb ∈ x.heartbeat.stamped, msg.timestampMs ≤ hb.timestampMs) :
    s.Ordered { x with channel := x.channel ++ [.stats msg], forwarder := .sending rest } := by
  have hfront : s.front { x with channel := x.channel ++ [.stats msg], forwarder := .sending rest } =
      s.front x ++ [msg.timestampMs] := by
    simp only [front, stampsOf_append, List.append_assoc]
    rfl
  have hline : s.line { x with channel := x.channel ++ [.stats msg], forwarder := .sending rest } =
      s.line x := by
    simp only [line, hfront, Agent.State.waiting, hf, Agent.Forwarder.drained]
    simp
  refine ⟨hline ▸ h.sorted, hline ▸ h.past, fun hb hmem => ?_⟩
  obtain ⟨hle, hall⟩ := h.heartbeat hb hmem
  refine ⟨hle, fun t ht => ?_⟩
  rw [hfront, List.mem_append, List.mem_singleton] at ht
  rcases ht with ht | rfl
  · exact hall t ht
  · exact hguard hb hmem

/-- A heartbeat that is no later than the waiting snapshots takes its place in the line. -/
theorem Ordered.sendHeartbeat {hb : Heartbeat} (h : s.Ordered x) (hhb : x.heartbeat = .sending hb)
    (hguard : ∀ sample ∈ s.agent.waiting x, hb.timestampMs ≤ sample.timestampMs) :
    s.Ordered { x with channel := x.channel ++ [.heartbeat hb], heartbeat := .ticking } := by
  obtain ⟨hle, hall⟩ := h.heartbeat hb (by rw [hhb]; rfl)
  have hfront : s.front { x with channel := x.channel ++ [.heartbeat hb], heartbeat := .ticking } =
      s.front x ++ [hb.timestampMs] := by
    simp only [front, stampsOf_append, List.append_assoc]
    rfl
  have hwaiting : ∀ t ∈ (s.agent.waiting x).map (·.timestampMs), hb.timestampMs ≤ t := by
    intro t ht
    obtain ⟨sample, hsample, rfl⟩ := List.mem_map.mp ht
    exact hguard sample hsample
  have hline : s.line { x with channel := x.channel ++ [.heartbeat hb], heartbeat := .ticking } =
      s.front x ++ [hb.timestampMs] ++ (s.agent.waiting x).map (·.timestampMs) := by
    rw [line, hfront]
    rfl
  obtain ⟨hsfront, hswaiting, hcross⟩ := List.pairwise_append.mp h.sorted
  refine ⟨?_, fun t ht => ?_, fun hb' hmem => absurd hmem (by simp [Agent.HeartbeatTask.stamped])⟩
  · rw [hline, List.append_assoc, List.pairwise_append, List.singleton_append, List.pairwise_cons]
    refine ⟨hsfront, ⟨hwaiting, hswaiting⟩, fun t ht u hu => ?_⟩
    rcases List.mem_cons.mp hu with rfl | hu
    · exact hall t ht
    · exact hcross t ht u hu
  · rw [hline, List.append_assoc, List.mem_append, List.singleton_append, List.mem_cons] at ht
    rcases ht with ht | rfl | ht
    · exact h.past t (List.mem_append_left _ ht)
    · exact hle
    · exact h.past t (List.mem_append_right _ ht)

/-- A heartbeat is stamped with the clock. -/
theorem Ordered.tick {agent : Agent.State} {hb : Heartbeat} (h : s.Ordered x)
    (hnode : agent.nodeId = s.agent.nodeId) (hclock : s.agent.clock ≤ agent.clock)
    (hwaiting : agent.waiting x = s.agent.waiting x) (hstamp : hb.timestampMs = agent.clock) :
    ({ s with agent } : Link J).Ordered { x with heartbeat := .sending hb } := by
  have hfront : ({ s with agent } : Link J).front { x with heartbeat := .sending hb } = s.front x := by
    simp only [front, lastSeen, hnode]
  have hline : ({ s with agent } : Link J).line { x with heartbeat := .sending hb } = s.line x := by
    rw [line, hfront]
    exact congrArg (s.front x ++ List.map _ ·) hwaiting
  refine ⟨hline ▸ h.sorted, fun t ht => ?_, fun hb' hmem => ?_⟩
  · exact Int64.le_trans (h.past t (hline ▸ ht)) hclock
  · obtain rfl := Option.some.inj hmem
    refine ⟨hstamp ▸ Int64.le_refl _, fun t ht => ?_⟩
    rw [hstamp]
    exact Int64.le_trans (h.past t (List.mem_append_left _ (hfront ▸ ht))) hclock

/-- An event that keeps the wire keeps the order if it takes its turn. -/
theorem Sequenced.within {agent : Agent.State} {event : Session.Event} (h : s.Sequenced)
    (hguard : s.InTurn (.agent (.within i event))) (hevent : event ≠ .take)
    (hs : s.agent.step (.within i event) = some agent) : ({ s with agent } : Link J).Sequenced := by
  obtain ⟨x, hx, x', hx', t, ht, rfl⟩ := Agent.State.step_within_iff.mp hs
  by_cases hp : event.passes = false
  · obtain ⟨hchannel, hdrained, hhb, hrecv⟩ := Session.step_drops hx' hp
    obtain ⟨intervalMs, rfl⟩ : ∃ intervalMs, t = { s.agent with intervalMs } := by
      cases event with
      | command cmd => cases cmd <;> exact ⟨_, (Option.some.inj ht).symm⟩
      | tick now => cases hp
      | _ => exact ⟨_, (Option.some.inj ht).symm⟩
    refine h.update hx ⟨_, _, intervalMs, rfl⟩ hrecv fun _ hord => ?_
    exact hord.agent rfl (Int64.le_refl _) hchannel
      ((hdrained.append (.refl _)).append (.refl _)) hhb
  cases event with
  | send =>
    obtain ⟨msg, rest, hf, -, rfl⟩ := Session.step_send_iff.mp hx'
    obtain rfl := Option.some.inj ht
    have hturn : ∀ hb ∈ x.heartbeat.stamped, msg.timestampMs ≤ hb.timestampMs :=
      fun hb hmem => hguard x hx hb hmem msg (by rw [hf]; rfl)
    exact h.update hx ⟨_, _, _, rfl⟩ id fun _ hord => hord.send hf hturn
  | sendHeartbeat =>
    obtain ⟨hb, hhb, -, rfl⟩ := Session.step_sendHeartbeat_iff.mp hx'
    obtain rfl := Option.some.inj ht
    have hturn := hguard x hx hb (by rw [hhb]; rfl)
    exact h.update hx ⟨_, _, _, rfl⟩ id fun _ hord => hord.sendHeartbeat hhb hturn
  | tick now =>
    obtain ⟨-, rfl⟩ := Session.step_tick_iff.mp hx'
    obtain ⟨hclock, rfl⟩ : s.agent.clock ≤ now ∧ { s.agent with clock := now } = t := by
      simpa [Agent.State.observe] using ht
    refine h.setSession hx rfl id ?_ (fun _ hord => ?_) (fun _ y hord => ?_)
    · exact h.idle.agent rfl hclock (.refl _) (.refl _) fun _ => id
    · exact hord.tick rfl hclock rfl rfl
    · exact hord.agent rfl hclock (.refl _) (.refl _) fun _ => id
  | take => exact absurd rfl hevent
  | _ => exact absurd rfl hp

/-- The request stream puts the oldest message of the channel on the wire. -/
theorem Sequenced.take {agent : Agent.State} (h : s.Sequenced)
    (hs : s.agent.step (.within i .take) = some agent) :
    ({ s with agent, wire := s.wire ++ s.agent.outgoing (.within i .take) } : Link J).Sequenced := by
  obtain ⟨x, hx, x', hx', t, ht, rfl⟩ := Agent.State.step_within_iff.mp hs
  obtain ⟨msg, rest, hc, hrecv, rfl⟩ := Session.step_take_iff.mp hx'
  obtain rfl := Option.some.inj ht
  have hout : s.agent.outgoing (.within i .take) = [msg] := by
    simp [Agent.State.outgoing, hx, hc]
  have hchannel : stampsOf x.channel = stampsOf [msg] ++ stampsOf rest := by
    rw [hc, ← stampsOf_append]
    rfl
  rw [hout]
  have hord := (h.current i x hx hrecv).2
  refine h.setSession hx rfl id ?_ (fun _ _ => ?_) (fun hno => absurd hrecv (by simp [hno]))
  · -- what has been taken was ahead of all that waits
    have hfront : (s.lastSeen.toList ++ stampsOf (s.wire ++ [msg]) ++ []).Sublist (s.front x) := by
      rw [front, hchannel, stampsOf_append, List.append_nil, ← List.append_assoc, ← List.append_assoc]
      exact List.sublist_append_left _ _
    have hwaiting : (s.agent.waiting .new).Sublist (s.agent.waiting x) :=
      ((List.nil_sublist _).append (.refl _)).append (.refl _)
    exact hord.shrink (Int64.le_refl _) (hfront.append (hwaiting.map _)) hfront.subset
      fun hb hmem => absurd hmem (by simp [Session.new, Agent.HeartbeatTask.stamped])
  · have hfront : s.lastSeen.toList ++ stampsOf (s.wire ++ [msg]) ++ stampsOf rest = s.front x := by
      rw [front, hchannel, stampsOf_append, List.append_assoc, List.append_assoc, List.append_assoc]
    refine hord.shrink (Int64.le_refl _) ?_ ?_ fun _ => id
    · exact (hfront ▸ .refl _ : List.Sublist _ (s.front x)).append (.refl _)
    · exact (hfront ▸ .refl _ : List.Sublist _ (s.front x)).subset

/-- **A step of the agent that takes its turn keeps the order.** -/
theorem Sequenced.agent_step {agent : Agent.State} {a : Agent.Act} (h : s.Sequenced)
    (hguard : s.InTurn (.agent a)) (hone : ¬ (a = .startSession ∧ s.streaming = true))
    (hs : s.agent.step a = some agent) :
    ({ s with agent, wire := s.wire ++ s.agent.outgoing a } : Link J).Sequenced := by
  by_cases htake : ∃ i, a = .within i .take
  · obtain ⟨i, rfl⟩ := htake
    exact h.take hs
  rw [Agent.State.outgoing_eq_nil fun i ha => htake ⟨i, ha⟩, List.append_nil]
  cases a with
  | collect now =>
    obtain ⟨⟨hidle, hclock⟩, rfl⟩ := Agent.State.step_collect_iff.mp hs
    have hwaiting : ∀ x, Agent.State.waiting { s.agent with
        collector := .collected ⟨s.agent.nodeId, now, s.agent.collections⟩
        collections := s.agent.collections + 1
        clock := now } x = s.agent.waiting x ++ [⟨s.agent.nodeId, now, s.agent.collections⟩] := by
      intro x
      simp [Agent.State.waiting, hidle, Agent.Collector.hand]
    exact h.of_sessions rfl (h.idle.collect rfl hclock rfl (hwaiting _)) fun i x hx hr =>
      ⟨x, hx, hr, fun hord => hord.collect rfl hclock rfl (hwaiting x)⟩
  | push =>
    obtain ⟨sample, hsample, rfl⟩ := Agent.State.step_push_iff.mp hs
    have hpush : ∀ x, s.Ordered x → Link.Ordered { s with agent := { s.agent with
        collector := .pushed
        holdback := s.agent.holdback.push sample
        pushed := s.agent.pushed ++ [sample]
        discarded := s.agent.discarded ++ s.agent.holdback.evicted } } x := by
      intro x hord
      refine hord.agent rfl (Int64.le_refl _) (.refl _) ?_ fun _ => id
      have hkept : (s.agent.holdback.kept ++ [sample]).Sublist (s.agent.holdback.inner ++ [sample]) :=
        s.agent.holdback.kept_sublist.append (.refl _)
      simp only [Agent.State.waiting, hsample, Agent.Collector.hand, List.append_nil,
        List.append_assoc]
      exact (List.Sublist.refl _).append hkept
    exact h.of_sessions rfl (hpush _ h.idle) fun i x hx hr => ⟨x, hx, hr, hpush x⟩
  | notifyOne =>
    obtain ⟨hpushed, rfl⟩ := Agent.State.step_notifyOne_iff.mp hs
    have hidle : ({ s with agent := { s.agent with collector := .idle } } : Link J).Sequenced := by
      have hsame : ∀ x, s.Ordered x →
          ({ s with agent := { s.agent with collector := .idle } } : Link J).Ordered x :=
        fun x hord => hord.agent_same rfl rfl (.refl _) (by rw [hpushed]; rfl) rfl (.refl _) rfl
      exact h.of_sessions rfl (hsame _ h.idle) fun i x hx hr => ⟨x, hx, hr, hsame x⟩
    exact hidle.notifyOne
  | startSession =>
    obtain ⟨-, rfl⟩ := Agent.State.step_startSession_iff.mp hs
    have hsame : ∀ x, s.Ordered x → Link.Ordered { s with agent := { s.agent with
        sessions := s.agent.sessions ++ [.new] } } x :=
      fun x hord => hord.agent_same rfl rfl (.refl _) rfl rfl (.refl _) rfl
    refine ⟨hsame _ h.idle, fun i x hx hr => ?_⟩
    rcases Machine.getElem?_concat_cases hx with hx | ⟨rfl, rfl⟩
    · -- no earlier request stream is left
      exact absurd ⟨rfl, List.any_eq_true.mpr ⟨x, List.mem_of_getElem? hx, hr⟩⟩ hone
    · refine ⟨?_, hsame _ h.idle⟩
      simp only [List.length_append, List.length_singleton]
  | drain i =>
    obtain ⟨x, hx, -, rfl⟩ := Agent.State.step_drain_iff.mp hs
    refine h.setSession hx rfl id ?_ (fun _ hord => ?_) (fun _ y hord => ?_)
    · exact h.idle.agent_same rfl rfl (List.nil_sublist _) rfl rfl (.refl _) rfl
    · refine hord.agent rfl (Int64.le_refl _) (.refl _) ?_ fun _ => id
      simp [Agent.State.waiting, Agent.State.setSession, Agent.Forwarder.drained]
    · exact hord.agent_same rfl rfl (List.nil_sublist _) rfl rfl (.refl _) rfl
  | park i =>
    obtain ⟨x, hx, hf, rfl⟩ := Agent.State.step_park_iff.mp hs
    split
    · exact h.replace hx ⟨_, _, rfl⟩ rfl (List.nil_sublist _) rfl rfl
    · exact h.replace hx ⟨_, _, rfl⟩ rfl (List.nil_sublist _) rfl rfl
  | reapForwarder i =>
    obtain ⟨x, hx, -, rfl⟩ := Agent.State.step_reapForwarder_iff.mp hs
    have hreaped : ({ s with agent := s.agent.setSession i { x with forwarder := .done } } :
        Link J).Sequenced := h.replace hx ⟨_, _, rfl⟩ rfl (List.nil_sublist _) rfl rfl
    split
    · exact h.replace hx ⟨_, _, rfl⟩ rfl (List.nil_sublist _) rfl rfl
    · exact hreaped.notifyOne
    · exact hreaped
  | finish i how =>
    obtain ⟨x, hx, -, rfl⟩ := Agent.State.step_finish_iff.mp hs
    exact h.replace hx ⟨_, _, rfl⟩ rfl (.refl _) rfl rfl
  | cancel =>
    obtain rfl := Option.some.inj hs
    have hsame : ∀ x, s.Ordered x →
        ({ s with agent := { s.agent with cancelled := true } } : Link J).Ordered x :=
      fun x hord => hord.agent_same rfl rfl (.refl _) rfl rfl (.refl _) rfl
    exact h.of_sessions rfl (hsame _ h.idle) fun i x hx hr => ⟨x, hx, hr, hsame x⟩
  | within i event => exact h.within hguard (fun he => htake ⟨i, by rw [he]⟩) hs

/-! ## Steps of the server -/

/-- The wire and the registry may lose timestamps. -/
theorem Sequenced.shrink (h : s.Sequenced) (hagent : s'.agent = s.agent)
    (hfront : (s'.lastSeen.toList ++ stampsOf s'.wire).Sublist
      (s.lastSeen.toList ++ stampsOf s.wire)) : s'.Sequenced := by
  have hord : ∀ x, s.Ordered x → s'.Ordered x := by
    intro x hx
    have hfront' : (s'.front x).Sublist (s.front x) := hfront.append (.refl _)
    refine hx.shrink (hagent ▸ Int64.le_refl _) ?_ hfront'.subset fun _ => id
    rw [line, line, hagent]
    exact hfront'.append (.refl _)
  exact h.of_sessions (by rw [hagent]) (hord _ h.idle) fun i x hx hr =>
    ⟨x, hagent ▸ hx, hr, hord x⟩

/-- A step of the server in which it hears nothing from the agent leaves `last_seen_ms` alone. -/
theorem lastSeen_server {a : Server.Act ℕ} {server : Server.State J} (hears : ¬ s.hears a = true)
    (hs : Server.step cfg s.server a = some server) :
    ({ s with server } : Link J).lastSeen = s.lastSeen := by
  rcases (Server.step_effect hs).lastSeenOf s.agent.nodeId with
    hsame | ⟨i, msg, x, timestampMs, rfl, hx, hid, -, -⟩
  · exact hsame
  · exact absurd (by simp [Link.hears, hx, hid]) hears

/-- A message that is handled gives its timestamp to `last_seen_ms`, or leaves it alone. -/
theorem lastSeen_handle {msg : Agent.Message} {server : Server.State J} (wire : List Agent.Message)
    (hs : Server.step cfg s.server (.receive i (.message (some msg))) = some server) :
    ({ s with server, wire } : Link J).lastSeen = s.lastSeen ∨
      ∃ timestampMs, msg.stamp? = some timestampMs ∧
        ({ s with server, wire } : Link J).lastSeen = some timestampMs := by
  refine ((Server.step_effect hs).lastSeenOf s.agent.nodeId).imp id ?_
  rintro ⟨j, msg', x, timestampMs, heq, -, -, hstamp, hseen⟩
  obtain ⟨-, rfl⟩ : i = j ∧ msg = msg' := by simpa using heq
  exact ⟨timestampMs, hstamp, hseen⟩

/-- **A step that takes its turn keeps the order.** -/
theorem Sequenced.step {a : Act} (h : s.Sequenced) (hguard : s.InTurn a)
    (hs : s.step cfg a = some s') : s'.Sequenced := by
  cases a with
  | agent a =>
    obtain ⟨hone, agent, hagent, rfl⟩ := step_agent_iff.mp hs
    exact h.agent_step hguard hone hagent
  | server a =>
    obtain ⟨hears, server, hserver, rfl⟩ := step_server_iff.mp hs
    refine h.shrink rfl ?_
    rw [lastSeen_server hears hserver]
  | handle i =>
    obtain ⟨msg, wire, hwire, -, server, hserver, rfl⟩ := step_handle_iff.mp hs
    refine h.shrink rfl ?_
    have hstamps : stampsOf s.wire = stampsOf [msg] ++ stampsOf wire := by
      rw [hwire, ← stampsOf_append]
      rfl
    rw [hstamps]
    rcases lastSeen_handle wire hserver with hseen | ⟨timestampMs, hstamp, hseen⟩
    · rw [hseen]
      exact (List.Sublist.refl _).append (List.sublist_append_right _ _)
    · have hmsg : stampsOf [msg] = [timestampMs] := by simp [stampsOf, hstamp]
      rw [hseen, hmsg]
      exact List.sublist_append_right _ _
  | breakOff delivered =>
    obtain rfl := Option.some.inj hs
    exact h.shrink rfl ((List.Sublist.refl _).append ((List.take_sublist _ _).filterMap _))

theorem lastSeen_le_of_eq (h : s'.lastSeen = s.lastSeen) : s.lastSeen ≤ s'.lastSeen := by
  rw [h]
  cases s.lastSeen with
  | none => exact Option.none_le
  | some t => exact Option.some_le_some.mpr (Int64.le_refl t)

/-- From an ordered state `last_seen_ms` does not go backwards. -/
theorem Sequenced.advances {a : Act} (h : s.Sequenced) : s.Advances cfg a := by
  intro s' hs
  cases a with
  | agent a =>
    obtain ⟨-, agent, hagent, rfl⟩ := step_agent_iff.mp hs
    exact lastSeen_le_of_eq (congrArg s.server.1.lastSeenOf (Agent.State.step_nodeId hagent))
  | server a =>
    obtain ⟨hears, server, hserver, rfl⟩ := step_server_iff.mp hs
    exact lastSeen_le_of_eq (lastSeen_server hears hserver)
  | handle i =>
    obtain ⟨msg, wire, hwire, -, server, hserver, rfl⟩ := step_handle_iff.mp hs
    rcases lastSeen_handle wire hserver with hseen | ⟨timestampMs, hstamp, hseen⟩
    · exact lastSeen_le_of_eq hseen
    · rw [hseen]
      cases hold : s.lastSeen with
      | none => exact Option.none_le
      | some old =>
        -- the message stood behind the old value in the line
        have hline : s.line .new = old :: timestampMs ::
            (stampsOf wire ++ (s.agent.waiting .new).map (·.timestampMs)) := by
          simp [line, front, hold, hwire, stampsOf, hstamp, Session.new]
        have hsorted := h.idle.sorted
        rw [hline, List.pairwise_cons] at hsorted
        exact Option.some_le_some.mpr (hsorted.1 timestampMs List.mem_cons_self)
  | breakOff delivered =>
    obtain rfl := Option.some.inj hs
    exact lastSeen_le_of_eq rfl

/-- An agent that enters its loop, and a server in any state. -/
def init (nodeId : String) (clock : Int64) (intervalMs : UInt64) (server : Server.State J) : Link J :=
  { agent := .init nodeId clock intervalMs, wire := [], server }

theorem sequenced_init {nodeId : String} {clock : Int64} {intervalMs : UInt64}
    {server : Server.State J} (hstart : ∀ t ∈ server.1.lastSeenOf nodeId, t ≤ clock) :
    (init nodeId clock intervalMs server).Sequenced := by
  have hline : (init nodeId clock intervalMs server).line .new =
      (server.1.lastSeenOf nodeId).toList := by
    simp [line, front, lastSeen, init, Agent.State.init, Agent.State.waiting, Session.new,
      Agent.Forwarder.drained, Agent.Collector.hand]
  refine ⟨⟨?_, fun t ht => ?_, fun hb hmem => ?_⟩, fun i x hx => absurd hx (by simp [init,
    Agent.State.init])⟩
  · rw [hline]
    cases server.1.lastSeenOf nodeId with
    | none => exact .nil
    | some t => exact List.pairwise_singleton _ _
  · rw [hline, Option.mem_toList] at ht
    exact hstart t ht
  · exact absurd hmem (by simp [Session.new, Agent.HeartbeatTask.stamped])

/-- **In a run in which the messages enter the channel in turn, `last_seen_ms` never goes
backwards.** -/
theorem lastSeen_advances_of_inTurn {nodeId : String} {clock : Int64} {intervalMs : UInt64}
    {server : Server.State J} {as : List Act}
    (hstart : ∀ t ∈ server.1.lastSeenOf nodeId, t ≤ clock)
    (hguard : Machine.Along (step cfg) InTurn (init nodeId clock intervalMs server) as) :
    Machine.Along (step cfg) (Advances cfg) (init nodeId clock intervalMs server) as :=
  hguard.of_invariant (fun _ _ _ hI hP hs => hI.step hP hs) (fun _ _ hI _ => hI.advances)
    (sequenced_init hstart)

section Decidable

instance (s : Link J) : DecidablePred s.InTurn
  | .agent (.within i .sendHeartbeat) => inferInstanceAs (Decidable (∀ x ∈ s.agent.sessions[i]?,
    ∀ hb ∈ x.heartbeat.stamped, ∀ sample ∈ s.agent.waiting x, _ ≤ _))
  | .agent (.within i .send) => inferInstanceAs (Decidable (∀ x ∈ s.agent.sessions[i]?,
    ∀ hb ∈ x.heartbeat.stamped, ∀ sample ∈ x.forwarder.drained.head?, _ ≤ _))
  | .agent (.collect _) | .agent .push | .agent .notifyOne | .agent .startSession
  | .agent (.drain _) | .agent (.park _) | .agent (.reapForwarder _) | .agent (.finish ..)
  | .agent .cancel | .agent (.within _ .established) | .agent (.within _ (.command _))
  | .agent (.within _ .sendFails) | .agent (.within _ .resume) | .agent (.within _ (.tick _))
  | .agent (.within _ .sendHeartbeatFails) | .agent (.within _ (.sendProbe _))
  | .agent (.within _ .sendProbeFails) | .agent (.within _ .take)
  | .agent (.within _ .closeReceiver) | .agent (.within _ .reapHeartbeat) | .server _ | .handle _
  | .breakOff _ => isTrue trivial

end Decidable

/-- A server that has loaded one node, last written at 500 ms. -/
def loaded : Server.State String :=
  let db := Server.Database.empty.upsertNode "node-01" "node-01" "online" 500
  (.boot db 500, db)

theorem lastSeenOf_loaded {t : Int64} (ht : t ∈ loaded.1.lastSeenOf "node-01") : t = 500 := by
  have hseen : loaded.1.lastSeenOf "node-01" = some 500 := by decide
  rw [hseen, Option.mem_some] at ht
  exact ht.symm

/-- A snapshot is collected and waits in the holdback buffer while the agent connects. -/
def connectRun : List Act :=
  [.agent (.collect 1000), .agent .push, .agent .notifyOne, .agent .startSession,
    .server (.openStream "node-01")]

/-- The forwarder empties the buffer before the first heartbeat. -/
def drainedFirst : List Act :=
  connectRun ++ [.agent (.drain 0), .agent (.within 0 .send), .agent (.within 0 (.tick 5000)),
    .agent (.within 0 .sendHeartbeat), .agent (.within 0 .take), .agent (.within 0 .take), .handle 0,
    .server (.enqueue 0), .server (.broadcast 0), .handle 0]

theorem lastSeen_advances_drainedFirst :
    (Machine.run (step .byText) (init "node-01" 500 1000 loaded) drainedFirst).isSome = true ∧
      Machine.Along (step .byText) (Advances .byText) (init "node-01" 500 1000 loaded)
        drainedFirst :=
  ⟨by decide, lastSeen_advances_of_inTurn (fun t ht => lastSeenOf_loaded ht ▸ Int64.le_refl _)
    (by decide)⟩

/-- The first heartbeat is faster than the forwarder. -/
def heartbeatFirst : List Act :=
  connectRun ++ [.agent (.within 0 (.tick 5000)), .agent (.within 0 .sendHeartbeat),
    .agent (.drain 0), .agent (.within 0 .send), .agent (.within 0 .take), .agent (.within 0 .take),
    .handle 0, .server (.ack 0 true)]

theorem lastSeen_goes_backwards :
    ¬ Machine.Along (step .byText) (Advances .byText) (init "node-01" 500 1000 loaded)
      (heartbeatFirst ++ [.handle 0]) := by
  intro hall
  have hrun := (Option.some_get (x := Machine.run (step .byText) (init "node-01" 500 1000 loaded)
    heartbeatFirst) (by decide)).symm
  have hhandle := ((Machine.along_append hrun).mp hall).2.1
  have hle := hhandle _ (Option.some_get (by decide)).symm
  rw [show lastSeen _ = some 5000 by decide, show lastSeen _ = some 1000 by decide,
    Option.some_le_some] at hle
  exact absurd hle (by decide)

end Link

end Hakuraku

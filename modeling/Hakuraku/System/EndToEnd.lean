import Hakuraku.Agent.Conservation
import Hakuraku.Server.Inserts
import Hakuraku.System.LastSeen

/-!
# From the collector to the database

Reference: `pulse-agent/src/main.rs`, `collection_loop` and `run_session`;
`pulse-agent/src/buffer.rs`; `pulse-server/src/grpc.rs`, `stream_telemetry`;
`pulse-server/src/main.rs`, the ingestion workers; `pulse-server/src/db.rs`, `insert_snapshot`.

A snapshot goes from the holdback buffer over a session to the wire, and from a stream of the server
over a worker to the table. The agent's books say that what the request streams have taken was
pushed, and not taken twice; the server's accounts that what it has accepted is stored at most once.
This module adds the wire between them: what the server has accepted of the agent's node and what is
on the wire is what the request streams have taken, less what broke off.

Neither side keeps a sequence number. A snapshot is stored at most once because no task ever gives
back what it has drained. Where nothing on its way loses it, it is stored, which is shown in
`Pipeline` for a server that also cleans up its tables.
-/

namespace Hakuraku

open Agent (Session Sample)
open Server (Snapshot StatsItem)

/-- The row the server makes of a snapshot; `none` if it cannot be serialised. -/
def Server.Config.row {J : Type} (cfg : Server.Config ℕ J) (sample : Agent.Sample) :
    Option (Snapshot J) :=
  (cfg.serde.toValue sample.metrics).map fun statsJson =>
    ⟨sample.nodeId, sample.timestampMs,
      Server.Database.stored cfg.serde (cfg.serde.toText statsJson)⟩

/-! ## What the request streams take -/

/-- Only a `take` adds to what a session has sent. -/
theorem Agent.Session.step_sent {nodeId : String} {x x' : Session} {event : Session.Event}
    (h : x.step nodeId event = some x') (hne : event ≠ .take) : x'.sent = x.sent := by
  unfold step at h
  split at h <;> repeat' split at h
  all_goals cases h <;> first | rfl | exact absurd rfl hne

namespace Agent.State

variable {s s' : State} {a : Act} {i : ℕ} {x y : Session}

/-- The snapshots that the request streams have taken. -/
def taken (s : State) : Multiset Sample := (s.sessions.map Session.taken).sum

/-- The snapshots that wait in the buffer or in the live session, and those a push has discarded. -/
def onHand (s : State) : Multiset Sample :=
  s.discarded + (s.holdback.inner + (s.sessions.map fun x => if x.live then x.inFlight else 0).sum)

theorem secured_eq_onHand_add (s : State) : s.secured = s.onHand + s.taken := s.secured_eq

theorem taken_le_held (s : State) : s.taken ≤ s.held := by
  refine (List.sum_le_sum fun x _ => ?_).trans (Multiset.le_add_left _ _)
  exact Multiset.le_add_right _ _

theorem taken_setSession (hx : s.sessions[i]? = some x) (hy : y.sent = x.sent) :
    (s.setSession i y).taken = s.taken := by
  have hsum := Sums.sum_map_set Session.taken y hx
  have hsame : y.taken = x.taken := by rw [Session.taken, Session.taken, hy]
  rw [hsame] at hsum
  exact add_right_cancel hsum

theorem WaitersSound.taken_notifyOne (h : s.WaitersSound) : s.notifyOne.taken = s.taken := by
  rcases h.notifyOne_cases with ⟨-, heq⟩ | ⟨i, rest, x, -, hx, -, heq⟩
  · rw [heq]
    rfl
  · rw [heq]
    exact taken_setSession (s := { s with waiters := rest }) hx rfl

/-- **What a step adds to what has been taken is what it puts on the wire.** -/
theorem WaitersSound.step_taken (h : s.WaitersSound) (hs : s.step a = some s') :
    s'.taken = s.taken + (statsOf (s.outgoing a) : List Sample) := by
  cases a with
  | collect now =>
    obtain ⟨-, rfl⟩ := step_collect_iff.mp hs
    exact (add_zero _).symm
  | push =>
    obtain ⟨sample, -, rfl⟩ := step_push_iff.mp hs
    exact (add_zero _).symm
  | notifyOne =>
    obtain ⟨-, rfl⟩ := step_notifyOne_iff.mp hs
    have hidle : ({ s with collector := .idle } : State).WaitersSound := ⟨h.nodup, h.waiting⟩
    exact hidle.taken_notifyOne.trans (add_zero _).symm
  | startSession =>
    obtain ⟨-, rfl⟩ := step_startSession_iff.mp hs
    simp [taken, Session.taken, Session.new, outgoing]
  | drain i =>
    obtain ⟨x, hx, -, rfl⟩ := step_drain_iff.mp hs
    refine Eq.trans ?_ (add_zero _).symm
    exact taken_setSession (s := { s with holdback := s.holdback.drain.2 }) hx rfl
  | park i =>
    obtain ⟨x, hx, -, rfl⟩ := step_park_iff.mp hs
    refine Eq.trans ?_ (add_zero _).symm
    split
    · exact taken_setSession (s := { s with permit := false }) hx rfl
    · exact taken_setSession (s := { s with waiters := s.waiters ++ [i] }) hx rfl
  | reapForwarder i =>
    obtain ⟨x, hx, -, rfl⟩ := step_reapForwarder_iff.mp hs
    have hset : (s.setSession i { x with forwarder := .done }).taken = s.taken :=
      taken_setSession hx rfl
    refine Eq.trans ?_ (add_zero _).symm
    split
    · exact hset
    · rename_i hf
      have hsound := h.setSession_of_not_mem (y := { x with forwarder := .done })
        (h.not_mem hx (by simp [hf]))
      exact hsound.taken_notifyOne.trans hset
    · exact hset
  | finish i how =>
    obtain ⟨x, hx, -, rfl⟩ := step_finish_iff.mp hs
    refine Eq.trans ?_ (add_zero _).symm
    exact taken_setSession hx rfl
  | cancel =>
    obtain rfl := Option.some.inj hs
    exact (add_zero _).symm
  | within i event =>
    obtain ⟨x, hx, x', hx', t, ht, rfl⟩ := step_within_iff.mp hs
    obtain ⟨clock, intervalMs, rfl⟩ := observe_eq ht
    by_cases htake : event = .take
    · subst htake
      obtain ⟨msg, rest, hchannel, -, rfl⟩ := Session.step_take_iff.mp hx'
      have hsum := Sums.sum_map_set Session.taken
        { x with channel := rest, sent := x.sent ++ [msg] } hx
      have hout : s.outgoing (.within i .take) = [msg] := by simp [outgoing, hx, hchannel]
      have hmore : Session.taken { x with channel := rest, sent := x.sent ++ [msg] } =
          x.taken + (statsOf [msg] : List Sample) := by
        rw [Session.taken, statsOf_append, ← Multiset.coe_add]
        rfl
      rw [hmore, add_left_comm, add_comm] at hsum
      rw [hout]
      exact add_left_cancel hsum
    · have hnone : s.outgoing (.within i event) = [] :=
        outgoing_eq_nil fun j hj => htake (Act.within.inj hj).2
      rw [hnone]
      exact (taken_setSession (s := { s with clock, intervalMs }) hx
        (Session.step_sent hx' htake)).trans (add_zero _).symm

/-- The snapshots of the agent carry its node id. -/
structure Owned (s : State) : Prop where
  pushed : ∀ m ∈ s.pushed, m.nodeId = s.nodeId
  collected : ∀ m ∈ s.collector.hand, m.nodeId = s.nodeId

theorem Owned.step (h : s.Owned) (hs : s.step a = some s') : s'.Owned := by
  cases a with
  | collect now =>
    obtain ⟨-, rfl⟩ := step_collect_iff.mp hs
    refine ⟨h.pushed, fun m hm => ?_⟩
    rw [List.mem_singleton.mp hm]
  | push =>
    obtain ⟨sample, hc, rfl⟩ := step_push_iff.mp hs
    refine ⟨fun m hm => ?_, fun m hm => absurd hm List.not_mem_nil⟩
    rcases List.mem_append.mp hm with hm | hm
    · exact h.pushed m hm
    · exact h.collected m (by rw [hc]; exact hm)
  | notifyOne =>
    obtain ⟨-, rfl⟩ := step_notifyOne_iff.mp hs
    obtain ⟨permit, waiters, sessions, heq⟩ := notifyOne_eq { s with collector := .idle }
    rw [heq]
    exact ⟨h.pushed, fun m hm => absurd hm List.not_mem_nil⟩
  | startSession =>
    obtain ⟨-, rfl⟩ := step_startSession_iff.mp hs
    exact ⟨h.pushed, h.collected⟩
  | drain i =>
    obtain ⟨x, -, -, rfl⟩ := step_drain_iff.mp hs
    exact ⟨h.pushed, h.collected⟩
  | park i =>
    obtain ⟨x, -, -, rfl⟩ := step_park_iff.mp hs
    split <;> exact ⟨h.pushed, h.collected⟩
  | reapForwarder i =>
    obtain ⟨x, -, -, rfl⟩ := step_reapForwarder_iff.mp hs
    split
    · exact ⟨h.pushed, h.collected⟩
    · obtain ⟨permit, waiters, sessions, heq⟩ :=
        notifyOne_eq (s.setSession i { x with forwarder := .done })
      rw [heq]
      exact ⟨h.pushed, h.collected⟩
    · exact ⟨h.pushed, h.collected⟩
  | finish i how =>
    obtain ⟨x, -, -, rfl⟩ := step_finish_iff.mp hs
    exact ⟨h.pushed, h.collected⟩
  | cancel =>
    obtain rfl := Option.some.inj hs
    exact ⟨h.pushed, h.collected⟩
  | within i event =>
    obtain ⟨x, -, x', -, t, ht, rfl⟩ := step_within_iff.mp hs
    obtain ⟨clock, intervalMs, rfl⟩ := observe_eq ht
    exact ⟨h.pushed, h.collected⟩

end Agent.State

/-! ## What the server accepts -/

namespace Server

variable {B J : Type} {p p' : State J} {n : String} {i : ℕ}

/-- A message accepted of another node is none of this one's. -/
theorem Process.acceptedOf_concat_of_ne {s s' : Process J} {receipt : Receipt J}
    (h : s'.receipts = s.receipts ++ [receipt]) (hne : ∀ item ∈ receipt.item, item.nodeId ≠ n) :
    s'.acceptedOf n = s.acceptedOf n := by
  have hnone : receipt.item.toList.filter (·.nodeId = n) = [] :=
    List.filter_eq_nil_iff.mpr fun item hitem => by simpa using hne item (Option.mem_toList.mp hitem)
  rw [acceptedOf, acceptedOf, accepted_append h, List.filter_append, hnone, List.append_nil]

/-- The rows of the items accepted for a node. -/
def Process.rowsOf (cfg : Config B J) (s : Process J) (n : String) : Multiset (Snapshot J) :=
  (s.acceptedOf n : Multiset (StatsItem J)).map (·.snapshot cfg)

theorem Process.rowsOf_concat {cfg : Config B J} {s s' : Process J} {receivedAt timestampMs : Int64}
    (item : StatsItem J)
    (h : s'.receipts = s.receipts ++ [⟨item.nodeId, receivedAt, timestampMs, some item⟩]) :
    s'.rowsOf cfg item.nodeId = s.rowsOf cfg item.nodeId + {item.snapshot cfg} := by
  have haccepted : s'.accepted = s.accepted ++ [item] := accepted_append h
  rw [rowsOf, rowsOf, acceptedOf_append haccepted, if_pos rfl, ← Multiset.coe_add, Multiset.map_add]
  rfl

/-- **A step that hears nothing on the streams of a node accepts nothing of it.** -/
theorem step_acceptedOf {cfg : Config B J} {a : Act B} (h : step cfg p a = some p')
    (hquiet : ∀ i msg x, a = .receive i (.message (some msg)) → p.1.streams[i]? = some x →
      x.nodeId ≠ n) : p'.1.acceptedOf n = p.1.acceptedOf n := by
  have hsame : p'.1.receipts = p.1.receipts → p'.1.acceptedOf n = p.1.acceptedOf n :=
    fun hr => Process.acceptedOf_congr (Process.accepted_congr hr)
  cases step_effect h with
  | other _ hreceipts => exact hsame hreceipts
  | stats i stats nodeId _ _ _ _ _ hstream _ hreceipts =>
    obtain ⟨x, hx, rfl⟩ := hstream
    refine Process.acceptedOf_concat_of_ne hreceipts fun item hitem => ?_
    obtain rfl := Option.some.inj hitem
    exact hquiet i _ x rfl hx
  | heartbeat _ _ _ _ _ _ _ _ hreceipts =>
    exact Process.acceptedOf_concat_of_ne hreceipts fun item hitem => absurd hitem (by simp)
  | tick _ heq => exact hsame (heq ▸ rfl)
  | visit _ _ _ _ _ _ _ _ _ heq => exact hsame (heq ▸ rfl)
  | scanned _ _ _ _ _ _ heq => exact hsame (heq ▸ rfl)
  | persist _ _ _ _ _ _ hreceipts => exact hsame hreceipts
  | announce _ _ _ _ hreceipts => exact hsame hreceipts

/-- **A message received on a stream of its node becomes the row of its snapshot.** -/
theorem receive_acceptedOf {cfg : Config ℕ J} {msg : Payload ℕ} {x : Stream J}
    (h : step cfg p (.receive i (.message (some msg))) = some p') (hx : p.1.streams[i]? = some x)
    (hown : ∀ stats, msg = .stats stats → stats.nodeId = x.nodeId) :
    p'.1.rowsOf cfg x.nodeId = p.1.rowsOf cfg x.nodeId +
      (statsOf [msg] : Multiset Agent.Sample).filterMap cfg.row := by
  obtain ⟨s, db⟩ := p
  obtain ⟨x', hx', -, s', hs', rfl⟩ := step_receive_iff.mp h
  obtain rfl : x = x' := Option.some.inj (hx.symm.trans hx')
  cases msg with
  | stats stats =>
    have hid := hown stats rfl
    have hrows : (statsOf [Payload.stats stats] : Multiset Agent.Sample).filterMap cfg.row =
        ((cfg.row stats).toList : Multiset (Snapshot J)) := by
      change (([stats].filterMap cfg.row : List (Snapshot J)) : Multiset (Snapshot J)) = _
      cases hrow : cfg.row stats <;> simp [hrow]
    rw [hrows, Server.Config.row, hid]
    simp only [Process.receive, ne_eq, hid, not_true_eq_false, if_false] at hs'
    cases hval : cfg.serde.toValue stats.metrics with
    | none =>
      obtain rfl : s = s' := by simpa [hval] using hs'
      exact (add_zero _).symm
    | some statsJson =>
      rw [hval] at hs'
      obtain rfl := Option.some.inj hs'
      exact Process.rowsOf_concat (s := s)
        ⟨x.nodeId, stats.timestampMs, cfg.serde.toText statsJson, statsJson⟩ rfl
  | heartbeat hb =>
    refine Eq.trans ?_ (add_zero _).symm
    simp only [Process.receive] at hs'
    split at hs'
    · obtain rfl := Option.some.inj hs'
      rfl
    · obtain rfl := Option.some.inj hs'
      rw [Process.rowsOf, Process.acceptedOf_concat_of_ne (s := s) rfl fun item hitem =>
        absurd hitem (by simp)]
      rfl
  | probeResult probe =>
    obtain ⟨shards, drops, rfl⟩ := Process.sendToWorker_eq hs'
    exact (add_zero _).symm

/-- The rows of a node in the database and on their way to it. -/
def stockOf (cfg : Config B J) (p : State J) (n : String) : Multiset (Snapshot J) :=
  (stock cfg p).filter (·.nodeId = n)

/-- The accounts of one node. -/
theorem Accounted.of_node {cfg : Config B J} (h : Accounted cfg p p') (n : String) :
    ∃ lost : Multiset (Snapshot J), stockOf cfg p' n + lost + p.1.rowsOf cfg n =
        stockOf cfg p n + p'.1.rowsOf cfg n ∧
      (p'.1.losses = p.1.losses → lost = 0) := by
  obtain ⟨items, lost, hacc, hstock, hloss⟩ := h
  have hfilter : ∀ items : Multiset (StatsItem J), (items.map (·.snapshot cfg)).filter (·.nodeId = n) =
      (items.filter (·.nodeId = n)).map (·.snapshot cfg) := fun items => by
    rw [Multiset.filter_map]
    rfl
  have hrows : p'.1.rowsOf cfg n = p.1.rowsOf cfg n +
      (items.map (·.snapshot cfg)).filter (·.nodeId = n) := by
    rw [Process.rowsOf, Process.acceptedOf, ← Multiset.filter_coe, hacc, Multiset.filter_add,
      Multiset.map_add, hfilter]
    rfl
  refine ⟨(lost.map (·.snapshot cfg)).filter (·.nodeId = n), ?_, fun heq => ?_⟩
  · rw [stockOf, stockOf, ← Multiset.filter_add, hstock, Multiset.filter_add, hrows]
    ac_rfl
  · rw [Multiset.card_eq_zero.mp (show lost.card = 0 by omega)]
    rfl

end Server

/-! ## Agent and wire -/

/-- The books of an agent since its start: `wire` are the snapshots on their way to the server, and
`accepted` are the rows accepted of its node, those accepted before among them. With `keeps` they are
the books of a run that loses nothing. -/
structure Books {J : Type} (cfg : Server.Config ℕ J) (keeps : Prop) (nodeId : String)
    (before : Multiset (Snapshot J)) (agent : Agent.State) (wire : Multiset Sample)
    (accepted : Multiset (Snapshot J)) : Prop where
  nodeId : agent.nodeId = nodeId
  sound : agent.Sound
  owned : agent.Owned
  wire_le : wire ≤ agent.taken
  arrived : ∃ lost : Multiset (Snapshot J), accepted + wire.filterMap cfg.row + lost =
    before + agent.taken.filterMap cfg.row ∧ (keeps → lost = 0)
  secured : keeps → agent.secured = agent.pushed

namespace Books

variable {J : Type} {cfg : Server.Config ℕ J} {keeps : Prop} {nodeId : String}
  {before accepted accepted' : Multiset (Snapshot J)} {agent agent' : Agent.State}
  {wire piece : Multiset Sample}

theorem init (cfg : Server.Config ℕ J) (keeps : Prop) (nodeId : String) (clock : Int64)
    (intervalMs : UInt64) (before : Multiset (Snapshot J)) :
    Books cfg keeps nodeId before (.init nodeId clock intervalMs) 0 before where
  nodeId := rfl
  sound := Agent.State.sound_init _ _ _
  owned := ⟨fun _ hm => absurd hm List.not_mem_nil, fun _ hm => absurd hm List.not_mem_nil⟩
  wire_le := le_rfl
  arrived := ⟨0, add_zero _, fun _ => rfl⟩
  secured _ := Agent.State.secured_init _ _ _

/-- Only the agent's own snapshots are on its wire. -/
theorem own (h : Books cfg keeps nodeId before agent wire accepted) :
    ∀ m ∈ wire, m.nodeId = nodeId := fun m hm =>
  (h.owned.pushed m (Multiset.mem_of_le (agent.taken_le_held.trans h.sound.held_le)
    (Multiset.mem_of_le h.wire_le hm))).trans h.nodeId

/-- **What the request streams take is on the wire.** -/
theorem agent_step {a : Agent.Act} (h : Books cfg keeps nodeId before agent wire accepted)
    (hguard : keeps → agent.StrandsNothing a) (hs : agent.step a = some agent') :
    Books cfg keeps nodeId before agent'
      (wire + (statsOf (agent.outgoing a) : List Sample)) accepted where
  nodeId := (Agent.State.step_nodeId hs).trans h.nodeId
  sound := h.sound.step hs
  owned := h.owned.step hs
  wire_le := by
    rw [h.sound.waiters.step_taken hs]
    exact add_le_add_left h.wire_le _
  arrived := by
    obtain ⟨lost, harrived, hnone⟩ := h.arrived
    refine ⟨lost, ?_, hnone⟩
    rw [h.sound.waiters.step_taken hs, Multiset.filterMap_add, Multiset.filterMap_add, ← add_assoc,
      ← add_assoc, ← harrived, add_right_comm]
  secured hkeeps := (h.sound.secured_step_iff (h.secured hkeeps) hs).mpr (hguard hkeeps)

/-- **What leaves the wire is accepted or lost.** -/
theorem wire_step (h : Books cfg keeps nodeId before agent (piece + wire) accepted)
    (haccepted : ∃ lost : Multiset (Snapshot J),
      accepted' + lost = accepted + piece.filterMap cfg.row ∧ (keeps → lost = 0)) :
    Books cfg keeps nodeId before agent wire accepted' where
  nodeId := h.nodeId
  sound := h.sound
  owned := h.owned
  wire_le := (Multiset.le_add_left _ _).trans h.wire_le
  arrived := by
    obtain ⟨lost, harrived, hnone⟩ := h.arrived
    obtain ⟨lost', hpiece, hnone'⟩ := haccepted
    refine ⟨lost + lost', ?_, fun hkeeps => by rw [hnone hkeeps, hnone' hkeeps, add_zero]⟩
    calc accepted' + wire.filterMap cfg.row + (lost + lost')
        = accepted' + lost' + wire.filterMap cfg.row + lost := by ac_rfl
      _ = before + agent.taken.filterMap cfg.row := by
          rw [hpiece, ← harrived, Multiset.filterMap_add]
          ac_rfl
  secured := h.secured

/-- The server accepts what it takes from the wire. -/
theorem handle (h : Books cfg keeps nodeId before agent (piece + wire) accepted)
    (haccepted : accepted' = accepted + piece.filterMap cfg.row) :
    Books cfg keeps nodeId before agent wire accepted' :=
  h.wire_step ⟨0, by rw [haccepted, add_zero], fun _ => rfl⟩

/-- A piece of the wire is lost. -/
theorem lose (h : Books cfg keeps nodeId before agent (piece + wire) accepted)
    (hguard : keeps → piece = 0) : Books cfg keeps nodeId before agent wire accepted :=
  h.wire_step ⟨piece.filterMap cfg.row, rfl, fun hkeeps => by
    rw [hguard hkeeps]
    rfl⟩

variable {counted : Prop} {stock stock' : Multiset (Snapshot J)}

/-- **What is stored, on the wire and lost is what the request streams have taken.** -/
theorem exists_stock (h : Books cfg keeps nodeId before agent wire accepted)
    (hstock : ∃ lost : Multiset (Snapshot J), stock' + lost + before = stock + accepted ∧
      (counted → lost = 0)) :
    ∃ lost : Multiset (Snapshot J), stock' + wire.filterMap cfg.row + lost =
      stock + agent.taken.filterMap cfg.row ∧ (keeps → counted → lost = 0) := by
  obtain ⟨lost, harrived, hnone⟩ := h.arrived
  obtain ⟨lost', hrows, hnone'⟩ := hstock
  refine ⟨lost + lost', add_right_cancel (b := before) ?_, fun hkeeps hcounted => by
    rw [hnone hkeeps, hnone' hcounted, add_zero]⟩
  calc stock' + wire.filterMap cfg.row + (lost + lost') + before
      = stock' + lost' + before + (wire.filterMap cfg.row + lost) := by ac_rfl
    _ = stock + (accepted + wire.filterMap cfg.row + lost) := by
        rw [hrows]
        ac_rfl
    _ = stock + agent.taken.filterMap cfg.row + before := by
        rw [harrived]
        ac_rfl

/-- **If nothing is lost, what is stored, on the wire or with the agent is what there was and what was
pushed.** -/
theorem stock_eq (h : Books cfg keeps nodeId before agent wire accepted) (hkeeps : keeps)
    (hstock : ∃ lost : Multiset (Snapshot J), stock' + lost + before = stock + accepted ∧
      (counted → lost = 0)) (hcounted : counted) :
    stock' + wire.filterMap cfg.row + agent.onHand.filterMap cfg.row =
      stock + (agent.pushed : Multiset Sample).filterMap cfg.row := by
  obtain ⟨lost, hrows, hnone⟩ := h.exists_stock hstock
  rw [hnone hkeeps hcounted, add_zero] at hrows
  rw [hrows, add_assoc, ← Multiset.filterMap_add, add_comm agent.taken,
    ← Agent.State.secured_eq_onHand_add, h.secured hkeeps]

end Books

/-! ## Agent, wire and server -/

namespace Link

variable {J : Type} {cfg : Server.Config ℕ J} {s s' : Link J} {a : Act} {nodeId : String}
  {before : Multiset (Snapshot J)}

/-- **The books of agent, wire and server.** -/
theorem step_books
    (h : Books cfg False nodeId before s.agent (statsOf s.wire : List Sample)
      (s.server.1.rowsOf cfg nodeId)) (hs : s.step cfg a = some s') :
    Books cfg False nodeId before s'.agent (statsOf s'.wire : List Sample)
      (s'.server.1.rowsOf cfg nodeId) := by
  cases a with
  | agent a =>
    obtain ⟨-, agent, hagent, rfl⟩ := step_agent_iff.mp hs
    rw [statsOf_append, ← Multiset.coe_add]
    exact h.agent_step False.elim hagent
  | server a =>
    obtain ⟨hears, server, hserver, rfl⟩ := step_server_iff.mp hs
    have hsame := Server.step_acceptedOf hserver (n := nodeId) fun i msg x ha hx hid =>
      hears (by simp [Link.hears, ha, hx, hid, h.nodeId])
    rwa [Server.Process.rowsOf, hsame]
  | handle i =>
    obtain ⟨msg, wire, hwire, hears, server, hserver, rfl⟩ := step_handle_iff.mp hs
    obtain ⟨x, hx, hid⟩ : ∃ x, s.server.1.streams[i]? = some x ∧ x.nodeId = s.agent.nodeId := by
      simpa [Link.hears, Option.any_eq_true] using hears
    obtain rfl : x.nodeId = nodeId := hid.trans h.nodeId
    have haccepted := Server.receive_acceptedOf hserver hx fun stats hmsg => h.own stats (by
      rw [hwire, hmsg]
      exact List.mem_cons_self)
    have hsplit : statsOf s.wire = statsOf [msg] ++ statsOf wire := by
      rw [hwire, ← statsOf_append]
      rfl
    rw [hsplit, ← Multiset.coe_add] at h
    exact h.handle haccepted
  | breakOff delivered =>
    obtain rfl := Option.some.inj hs
    have hsplit : (statsOf s.wire : Multiset Sample) =
        statsOf (s.wire.drop delivered) + statsOf (s.wire.take delivered) := by
      rw [Multiset.coe_add, Multiset.coe_eq_coe]
      refine List.Perm.trans (.of_eq ?_) List.perm_append_comm
      rw [← statsOf_append, List.take_append_drop]
    rw [hsplit] at h
    exact h.lose False.elim

end Link

end Hakuraku

import Hakuraku.Lib.Sums
import Hakuraku.Server.Receipts

/-!
# What is broadcast

Reference: `pulse-server/src/grpc.rs`, `stream_telemetry`; `pulse-server/src/main.rs`, the liveness
checker; `pulse-server/src/state.rs`, `broadcast_tx`.

Two kinds of tasks send on the broadcast channel, and both write the registry first: a stream that has
accepted a `Stats`, and the liveness checker that has taken a node offline. `unaired` are the updates
that streams still have to send, `unannounced` those of the liveness checker. `Airs` says what every
step does to the registry, to these updates and to the channel.
-/

namespace Hakuraku.Server

variable {B J : Type} {cfg : Config B J} {s s' : Process J} {p p' : State J} {a : Act B} {i : ℕ}

/-- The update that a stream sends for an item. -/
def StatsItem.update (item : StatsItem J) : NodeUpdate J :=
  ⟨item.nodeId, item.timestampMs, item.statsJson⟩

/-- The update that a stream has still to send. -/
def Stream.unaired (x : Stream J) : Multiset (NodeUpdate J) :=
  match x.phase with
  | .registered item => {⟨x.nodeId, item.timestampMs, item.statsJson⟩}
  | .queued update => {update}
  | _ => 0

/-- The update that announces a transition. -/
def Transition.update (serde : Serde B J) (transition : Transition J) : NodeUpdate J :=
  ⟨transition.nodeId, transition.lastSeen, transition.latestStats.getD serde.null⟩

/-- The transitions that have not been announced. -/
def Liveness.transitions : Liveness J → List (Transition J)
  | .idle => []
  | .scanning _ _ _ transitions => transitions
  | .upserting _ transition rest | .announcing transition rest => transition :: rest

@[simp] theorem Liveness.transitions_next (clock : Int64) (transitions : List (Transition J)) :
    (Liveness.next clock transitions).transitions = transitions := by
  cases transitions <;> rfl

namespace Registry

variable {nodes : Registry J} {n nodeId : String} {timestampMs now : Int64} {statsJson : J}

/-- The `latest_stats` of a node, if it has an entry. -/
def latest (nodes : Registry J) (n : String) : Option (Option J) :=
  (nodes.lookup n).map (·.latestStats)

theorem latest_onStats_self : (nodes.onStats n timestampMs statsJson).latest n = some (some statsJson) := by
  rw [latest, lookup_onStats_self, Option.map_some]

theorem latest_onStats_of_ne (h : n ≠ nodeId) :
    (nodes.onStats nodeId timestampMs statsJson).latest n = nodes.latest n := by
  rw [latest, latest, lookup_onStats_of_ne h]

@[simp] theorem latest_onHeartbeat : (nodes.onHeartbeat nodeId timestampMs).latest n = nodes.latest n := by
  by_cases h : n = nodeId
  · subst h
    rw [latest, latest, lookup_onHeartbeat_self, Option.map_map]
    rfl
  · rw [latest, latest, lookup_onHeartbeat_of_ne h]

@[simp] theorem latest_onVisit : (nodes.onVisit now nodeId).latest n = nodes.latest n := by
  by_cases h : n = nodeId
  · subst h
    rw [latest, latest, lookup_onVisit_self, Option.map_map]
    congr 1
    funext node
    show (if overdue now node then { node with status := .offline } else node).latestStats = _
    split <;> rfl
  · rw [latest, latest, lookup_onVisit_of_ne h]

theorem mem_iff_isSome_latest : n ∈ nodes ↔ (nodes.latest n).isSome := by
  rw [latest, Option.isSome_map, AList.lookup_isSome]

end Registry

namespace Process

/-- The updates that streams have still to send. -/
def unaired (s : Process J) : Multiset (NodeUpdate J) := (s.streams.map Stream.unaired).sum

/-- The updates that the liveness checker has still to send. -/
def unannounced (serde : Serde B J) (s : Process J) : Multiset (NodeUpdate J) :=
  (s.liveness.transitions.map (Transition.update serde) : List (NodeUpdate J))

theorem unaired_setStream {x y : Stream J} (h : s.streams[i]? = some x) :
    (s.setStream i y).unaired + x.unaired = s.unaired + y.unaired :=
  Sums.sum_map_set Stream.unaired y h

theorem unaired_setStream_of_eq {x y : Stream J} (h : s.streams[i]? = some x)
    (hy : y.unaired = x.unaired) : (s.setStream i y).unaired = s.unaired := by
  have hset := unaired_setStream (y := y) h
  rw [hy] at hset
  exact add_right_cancel hset

/-- A stream takes on an update. -/
theorem unaired_setStream_add {x y : Stream J} {m : Multiset (NodeUpdate J)}
    (h : s.streams[i]? = some x) (hx : x.unaired = 0) (hy : y.unaired = m) :
    (s.setStream i y).unaired = s.unaired + m := by
  have hset := unaired_setStream (y := y) h
  rwa [hx, hy, add_zero] at hset

end Process

/-- The item of the `Stats` that a step accepts. -/
def accepts? (cfg : Config B J) (s : Process J) : Act B → Option (StatsItem J)
  | .receive i (.message (some (.stats stats))) => do
    let x ← s.streams[i]?
    match x.phase with
    | .receiving =>
      if stats.nodeId = x.nodeId then
        (cfg.serde.toValue stats.metrics).map fun statsJson =>
          ⟨x.nodeId, stats.timestampMs, cfg.serde.toText statsJson, statsJson⟩
      else none
    | _ => none
  | _ => none

/-- **What a step does to the registry, the updates on their way and the channel.** -/
inductive Airs (cfg : Config B J) (s s' : Process J) : Act B → Prop where
  | quiet {a : Act B} (hnodes : s'.nodes = s.nodes) (hreceipts : s'.receipts = s.receipts)
      (hunaired : s'.unaired = s.unaired)
      (hunannounced : s'.unannounced cfg.serde = s.unannounced cfg.serde)
      (hbroadcasts : s'.broadcasts = s.broadcasts) : Airs cfg s s' a
  /-- A stream accepts a `Stats`. -/
  | stats (i : ℕ) (stats : NodeStats B) (item : StatsItem J)
      (haccepts : accepts? cfg s (.receive i (.message (some (.stats stats)))) = some item)
      (hnodes : s'.nodes = s.nodes.onStats item.nodeId item.timestampMs item.statsJson)
      (hreceipts : s'.receipts = s.receipts ++
        [⟨item.nodeId, s.clock, item.timestampMs, some item⟩])
      (hunaired : s'.unaired = s.unaired + {item.update})
      (hunannounced : s'.unannounced cfg.serde = s.unannounced cfg.serde)
      (hbroadcasts : s'.broadcasts = s.broadcasts) :
      Airs cfg s s' (.receive i (.message (some (.stats stats))))
  /-- A stream accepts a `Heartbeat`. -/
  | heartbeat (i : ℕ) (hb : Heartbeat)
      (hnodes : s'.nodes = s.nodes.onHeartbeat hb.nodeId hb.timestampMs)
      (hreceipts : s'.receipts = s.receipts ++ [⟨hb.nodeId, s.clock, hb.timestampMs, none⟩])
      (hunaired : s'.unaired = s.unaired)
      (hunannounced : s'.unannounced cfg.serde = s.unannounced cfg.serde)
      (hbroadcasts : s'.broadcasts = s.broadcasts) :
      Airs cfg s s' (.receive i (.message (some (.heartbeat hb))))
  /-- The liveness checker visits an entry. -/
  | visit (n : String) (now : Int64) (node : NodeInfo J) (hnode : s.nodes.lookup n = some node)
      (hnodes : s'.nodes = s.nodes.onVisit now n) (hreceipts : s'.receipts = s.receipts)
      (hunaired : s'.unaired = s.unaired)
      (hunannounced : s'.unannounced cfg.serde = s.unannounced cfg.serde +
        if Registry.overdue now node then
          {⟨node.nodeId, node.lastSeenMs, node.latestStats.getD cfg.serde.null⟩}
        else 0)
      (hbroadcasts : s'.broadcasts = s.broadcasts) : Airs cfg s s' (.visit n)
  /-- A stream sends its update. -/
  | broadcast (i : ℕ) (update : NodeUpdate J) (hnodes : s'.nodes = s.nodes)
      (hreceipts : s'.receipts = s.receipts) (hunaired : s'.unaired + {update} = s.unaired)
      (hunannounced : s'.unannounced cfg.serde = s.unannounced cfg.serde)
      (hbroadcasts : s'.broadcasts = s.broadcasts ++ [update]) : Airs cfg s s' (.broadcast i)
  /-- The liveness checker sends its update. -/
  | announce (transition : Transition J) (rest : List (Transition J))
      (hlive : s.liveness = .announcing transition rest) (hnodes : s'.nodes = s.nodes)
      (hreceipts : s'.receipts = s.receipts) (hunaired : s'.unaired = s.unaired)
      (hunannounced : s'.unannounced cfg.serde + {transition.update cfg.serde} =
        s.unannounced cfg.serde)
      (hbroadcasts : s'.broadcasts = s.broadcasts ++ [transition.update cfg.serde]) :
      Airs cfg s s' .announce

/-- **Every step is one of these.** -/
theorem step_airs (h : step cfg p a = some p') : Airs cfg p.1 p'.1 a := by
  obtain ⟨s, db⟩ := p
  cases a with
  | wait now =>
    obtain ⟨-, rfl⟩ := step_wait_iff.mp h
    exact .quiet rfl rfl rfl rfl rfl
  | openStream nodeId =>
    obtain rfl := step_openStream_iff.mp h
    refine .quiet rfl rfl ?_ rfl rfl
    simp [Process.unaired, Stream.unaired]
  | receive i inbound =>
    obtain ⟨x, hx, hphase, s', hs', rfl⟩ := step_receive_iff.mp h
    have hzero : x.unaired = 0 := by rw [Stream.unaired, hphase]
    rcases Process.receive_cases hs' with
      rfl | rfl | ⟨stats, statsJson, rfl, hid, hval, rfl⟩ | ⟨hb, rfl, hid, rfl⟩ | ⟨probe, -, hitem⟩
    · exact .quiet rfl rfl (Process.unaired_setStream_of_eq hx hzero.symm) rfl rfl
    · exact .quiet rfl rfl rfl rfl rfl
    · refine .stats i stats
        ⟨x.nodeId, stats.timestampMs, cfg.serde.toText statsJson, statsJson⟩ ?_ rfl rfl ?_ rfl rfl
      · simp [accepts?, hx, hphase, hid, hval]
      exact Process.unaired_setStream_add (s := { s with nodes := _, receipts := _ }) hx hzero rfl
    · refine .heartbeat i hb (by rw [hid]; rfl) (by rw [hid]; rfl) ?_ rfl rfl
      exact Process.unaired_setStream_of_eq (s := { s with nodes := _, receipts := _ }) hx hzero.symm
    · obtain ⟨shards, drops, rfl⟩ := Process.sendToWorker_eq hitem
      exact .quiet rfl rfl rfl rfl rfl
  | enqueue i =>
    obtain ⟨x, hx, item, hphase, s', hs', rfl⟩ := step_enqueue_iff.mp h
    obtain ⟨shards, drops, rfl⟩ := Process.sendToWorker_eq hs'
    refine .quiet rfl rfl ?_ rfl rfl
    refine Process.unaired_setStream_of_eq (s := { s with shards, drops }) hx ?_
    rw [Stream.unaired, Stream.unaired, hphase]
  | broadcast i =>
    obtain ⟨x, hx, update, hphase, rfl⟩ := step_broadcast_iff.mp h
    refine .broadcast i update rfl rfl ?_ rfl rfl
    have hset := Process.unaired_setStream (s := { s with broadcasts := s.broadcasts ++ [update] })
      (y := { x with phase := .receiving }) hx
    have hx' : x.unaired = {update} := by rw [Stream.unaired, hphase]
    rw [hx'] at hset
    exact hset.trans (add_zero _)
  | ack i ok =>
    obtain ⟨x, hx, nowMs, hphase, rfl⟩ := step_ack_iff.mp h
    refine .quiet rfl rfl (Process.unaired_setStream_of_eq hx ?_) rfl rfl
    have hzero : x.unaired = 0 := by rw [Stream.unaired, hphase]
    rw [hzero]
    cases ok <;> rfl
  | workerRecv | workerUpsert | workerInsert =>
    obtain ⟨shards, dbErrors, heq⟩ := step_of_worker h rfl
    rw [heq]
    exact .quiet rfl rfl rfl rfl rfl
  | tick =>
    obtain ⟨hidle, rfl⟩ := step_tick_iff.mp h
    refine .quiet rfl rfl rfl ?_ rfl
    rw [Process.unannounced, Process.unannounced, hidle]
    rfl
  | visit n =>
    obtain ⟨now, due, visited, transitions, node, hscan, hnode, -, rfl⟩ := step_visit_iff.mp h
    refine .visit n now node hnode rfl rfl rfl ?_ rfl
    rw [Process.unannounced, Process.unannounced, hscan]
    split
    · simp only [Liveness.transitions, List.map_append, List.map_singleton, ← Multiset.coe_add]
      rfl
    · exact (add_zero _).symm
  | scanned =>
    obtain ⟨now, due, visited, transitions, hscan, -, rfl⟩ := step_scanned_iff.mp h
    refine .quiet rfl rfl rfl ?_ rfl
    rw [Process.unannounced, Process.unannounced, hscan, Liveness.transitions_next]
    rfl
  | persist ok =>
    obtain ⟨nowMs, transition, rest, hupsert, rfl⟩ := step_persist_iff.mp h
    have hsame : ∀ s' : Process J, s'.liveness = .announcing transition rest →
        s'.unannounced cfg.serde = s.unannounced cfg.serde := by
      intro s' hs'
      rw [Process.unannounced, Process.unannounced, hupsert, hs']
      rfl
    cases ok <;> exact .quiet rfl rfl rfl (hsame _ rfl) rfl
  | announce =>
    obtain ⟨transition, rest, hann, rfl⟩ := step_announce_iff.mp h
    refine .announce transition rest hann rfl rfl rfl ?_ rfl
    rw [Process.unannounced, Process.unannounced, hann, Liveness.transitions_next,
      Liveness.transitions, List.map_cons, ← Multiset.cons_coe]
    exact Multiset.add_comm _ _

end Hakuraku.Server

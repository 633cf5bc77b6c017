import Hakuraku.Lib.Sums
import Hakuraku.Server.Receipts

/-!
# From the streams to the database

Reference: `pulse-server/src/grpc.rs`, `stream_telemetry`; `pulse-server/src/state.rs`,
`send_to_worker`; `pulse-server/src/main.rs`, the ingestion workers and the liveness checker.

An accepted `Stats` message writes the registry at once and the database later: its item waits in
the stream, then in the queue of a worker, then in the worker's hands, and on the way it is written
twice, first by `upsert_node` and then by `insert_snapshot`. `unwritten` are the items whose upsert
is outstanding, `uninserted` those whose snapshot is. `Flow` says what every step does to the
registry, to these items, to the pending offline transitions and to the tables, all in one.
-/

namespace Hakuraku.Server

variable {B J : Type} {cfg : Config B J} {p p' : State J} {s s' : Process J} {a : Act B} {n : String}
  {i w : ℕ}

/-! ## The items on their way -/

/-- The item a stream has not handed over. -/
def Stream.item (x : Stream J) : Multiset (StatsItem J) :=
  match x.phase with
  | .registered item => {item}
  | _ => 0

/-- The `Stats` items of a queue. -/
def statsItems (queue : List (IngestionItem J)) : Multiset (StatsItem J) :=
  (queue.filterMap IngestionItem.stats? : List (StatsItem J))

/-- The item a worker has not upserted. -/
def Worker.unwritten : Worker J → Multiset (StatsItem J)
  | .upserting item _ => {item}
  | _ => 0

/-- The item a worker has not inserted. -/
def Worker.uninserted : Worker J → Multiset (StatsItem J)
  | .upserting item _ | .inserting item => {item}
  | _ => 0

def Shard.unwritten (x : Shard J) : Multiset (StatsItem J) := statsItems x.queue + x.worker.unwritten

def Shard.uninserted (x : Shard J) : Multiset (StatsItem J) :=
  statsItems x.queue + x.worker.uninserted

namespace Process

/-- The items of the streams and those that `g` finds with the workers. -/
def items (g : Shard J → Multiset (StatsItem J)) (s : Process J) : Multiset (StatsItem J) :=
  (s.streams.map Stream.item).sum + (s.shards.map g).sum

/-- The accepted items whose `upsert_node` is outstanding. -/
def unwritten : Process J → Multiset (StatsItem J) := items Shard.unwritten

/-- The accepted items whose `insert_snapshot` is outstanding. -/
def uninserted : Process J → Multiset (StatsItem J) := items Shard.uninserted

/-- Items dropped and database errors. -/
def losses (s : Process J) : ℕ := s.drops + s.dbErrors

variable {g : Shard J → Multiset (StatsItem J)}

theorem items_setStream {x y : Stream J} (h : s.streams[i]? = some x) :
    (s.setStream i y).items g + x.item = s.items g + y.item := by
  have hsum := Sums.sum_map_set Stream.item y h
  calc (s.setStream i y).items g + x.item
      = ((s.streams.set i y).map Stream.item).sum + x.item + (s.shards.map g).sum :=
        add_right_comm _ _ _
    _ = (s.streams.map Stream.item).sum + y.item + (s.shards.map g).sum := by rw [hsum]
    _ = s.items g + y.item := add_right_comm _ _ _

theorem items_setShard {x y : Shard J} (h : s.shards[w]? = some x) :
    (s.setShard w y).items g + g x = s.items g + g y := by
  have hsum := Sums.sum_map_set g y h
  calc (s.setShard w y).items g + g x
      = (s.streams.map Stream.item).sum + (((s.shards.set w y).map g).sum + g x) := add_assoc _ _ _
    _ = (s.streams.map Stream.item).sum + ((s.shards.map g).sum + g y) := by rw [hsum]
    _ = s.items g + g y := (add_assoc _ _ _).symm

theorem items_setStream_add {x y : Stream J} {m : Multiset (StatsItem J)}
    (h : s.streams[i]? = some x) (hy : y.item = x.item + m) :
    (s.setStream i y).items g = s.items g + m := by
  have hset := items_setStream (g := g) (y := y) h
  rw [hy, add_comm x.item, ← add_assoc] at hset
  exact add_right_cancel hset

theorem items_setShard_add {x y : Shard J} {m : Multiset (StatsItem J)}
    (h : s.shards[w]? = some x) (hy : g y = g x + m) :
    (s.setShard w y).items g = s.items g + m := by
  have hset := items_setShard (g := g) (y := y) h
  rw [hy, add_comm (g x), ← add_assoc] at hset
  exact add_right_cancel hset

theorem items_setShard_sub {x y : Shard J} {m : Multiset (StatsItem J)}
    (h : s.shards[w]? = some x) (hy : g x = g y + m) :
    (s.setShard w y).items g + m = s.items g := by
  have hset := items_setShard (g := g) (y := y) h
  rw [hy, add_comm (g y), ← add_assoc] at hset
  exact add_right_cancel hset

theorem items_setStream_of_eq {x y : Stream J} (h : s.streams[i]? = some x) (hy : y.item = x.item) :
    (s.setStream i y).items g = s.items g := by
  rw [items_setStream_add h (hy.trans (add_zero _).symm), add_zero]

theorem items_setShard_of_eq {x y : Shard J} (h : s.shards[w]? = some x) (hy : g y = g x) :
    (s.setShard w y).items g = s.items g := by
  rw [items_setShard_add h (hy.trans (add_zero _).symm), add_zero]

end Process

/-! ## The transitions on their way -/

/-- The nodes whose offline write is outstanding. -/
def Liveness.pending : Liveness J → List String
  | .idle => []
  | .scanning _ _ _ transitions => transitions.map (·.nodeId)
  | .upserting _ transition rest => transition.nodeId :: rest.map (·.nodeId)
  | .announcing _ rest => rest.map (·.nodeId)

/-- The transition whose offline write is being made. -/
def Liveness.current? : Liveness J → Option (Transition J)
  | .upserting _ transition _ => some transition
  | _ => none

@[simp] theorem Liveness.pending_next (clock : Int64) (transitions : List (Transition J)) :
    (Liveness.next clock transitions).pending = transitions.map (·.nodeId) := by
  cases transitions <;> rfl

/-! ## What a step does -/

/-- **What a step does to the registry, the items, the pending transitions and the tables.** -/
inductive Flow (cfg : Config B J) (p p' : State J) : Act B → Prop where
  /-- The step changes none of them. -/
  | quiet {a : Act B} (hnodes : p'.1.nodes = p.1.nodes) (hreceipts : p'.1.receipts = p.1.receipts)
      (hpending : p'.1.liveness.pending = p.1.liveness.pending)
      (hunwritten : p'.1.unwritten = p.1.unwritten)
      (huninserted : p'.1.uninserted = p.1.uninserted) (hloss : p'.1.losses = p.1.losses)
      (hrows : p'.2.nodes = p.2.nodes) (hsnapshots : p'.2.snapshots = p.2.snapshots) :
      Flow cfg p p' a
  /-- An item is dropped, or the database fails. -/
  | lost {a : Act B} (hloss : p.1.losses < p'.1.losses) : Flow cfg p p' a
  /-- A stream accepts a `Stats`. -/
  | stats {a : Act B} (item : StatsItem J) (metrics : B)
      (hitem : cfg.serde.toValue metrics = some item.statsJson)
      (htext : item.statsStr = cfg.serde.toText item.statsJson)
      (hnodes : p'.1.nodes = p.1.nodes.onStats item.nodeId item.timestampMs item.statsJson)
      (hreceipts : p'.1.receipts = p.1.receipts ++
        [⟨item.nodeId, p.1.clock, item.timestampMs, some item⟩])
      (hpending : p'.1.liveness.pending = p.1.liveness.pending)
      (hunwritten : p'.1.unwritten = p.1.unwritten + {item})
      (huninserted : p'.1.uninserted = p.1.uninserted + {item}) (hloss : p'.1.losses = p.1.losses)
      (hdb : p'.2 = p.2) : Flow cfg p p' a
  /-- A stream accepts a `Heartbeat`. -/
  | heartbeat (i : ℕ) (x : Stream J) (hb : Heartbeat) (hx : p.1.streams[i]? = some x)
      (hid : hb.nodeId = x.nodeId)
      (hnodes : p'.1.nodes = p.1.nodes.onHeartbeat hb.nodeId hb.timestampMs)
      (hreceipts : p'.1.receipts = p.1.receipts ++ [⟨hb.nodeId, p.1.clock, hb.timestampMs, none⟩])
      (hpending : p'.1.liveness.pending = p.1.liveness.pending)
      (hunwritten : p'.1.unwritten = p.1.unwritten)
      (huninserted : p'.1.uninserted = p.1.uninserted) (hloss : p'.1.losses = p.1.losses)
      (hdb : p'.2 = p.2) : Flow cfg p p' (.receive i (.message (some (.heartbeat hb))))
  /-- The upsert of an item takes effect. -/
  | upserted {a : Act B} (item : StatsItem J) (nowMs : Int64) (hnodes : p'.1.nodes = p.1.nodes)
      (hreceipts : p'.1.receipts = p.1.receipts)
      (hpending : p'.1.liveness.pending = p.1.liveness.pending)
      (hunwritten : p'.1.unwritten + {item} = p.1.unwritten)
      (huninserted : p'.1.uninserted = p.1.uninserted) (hloss : p'.1.losses = p.1.losses)
      (hdb : p'.2 = p.2.upsertNode item.nodeId item.nodeId "online" nowMs) : Flow cfg p p' a
  /-- The insert of an item takes effect. -/
  | inserted {a : Act B} (item : StatsItem J) (hnodes : p'.1.nodes = p.1.nodes)
      (hreceipts : p'.1.receipts = p.1.receipts)
      (hpending : p'.1.liveness.pending = p.1.liveness.pending)
      (hunwritten : p'.1.unwritten = p.1.unwritten)
      (huninserted : p'.1.uninserted + {item} = p.1.uninserted) (hloss : p'.1.losses = p.1.losses)
      (hdb : p.2.insertSnapshot cfg.serde item.nodeId item.timestampMs item.statsStr = some p'.2) :
      Flow cfg p p' a
  /-- The liveness checker visits an entry. -/
  | visit (n : String) (now : Int64) (node : NodeInfo J) (hnode : p.1.nodes.lookup n = some node)
      (hnodes : p'.1.nodes = p.1.nodes.onVisit now n) (hreceipts : p'.1.receipts = p.1.receipts)
      (hpending : p'.1.liveness.pending = p.1.liveness.pending ++
        if Registry.overdue now node then [node.nodeId] else [])
      (hunwritten : p'.1.unwritten = p.1.unwritten)
      (huninserted : p'.1.uninserted = p.1.uninserted) (hloss : p'.1.losses = p.1.losses)
      (hdb : p'.2 = p.2) : Flow cfg p p' (.visit n)
  /-- An offline write takes effect. -/
  | persisted (ok : Bool) (nowMs : Int64) (transition : Transition J)
      (rest : List (Transition J)) (hlive : p.1.liveness = .upserting nowMs transition rest)
      (hnodes : p'.1.nodes = p.1.nodes) (hreceipts : p'.1.receipts = p.1.receipts)
      (hpending : p'.1.liveness.pending = rest.map (·.nodeId))
      (hunwritten : p'.1.unwritten = p.1.unwritten)
      (huninserted : p'.1.uninserted = p.1.uninserted) (hloss : p'.1.losses = p.1.losses)
      (hdb : p'.2 = p.2.upsertNode transition.nodeId transition.nodeId "offline" nowMs) :
      Flow cfg p p' (.persist ok)

/-- What is lost stays lost. -/
theorem Flow.losses_le (hf : Flow cfg p p' a) : p.1.losses ≤ p'.1.losses := by
  cases hf <;> omega

theorem statsItems_append (queue : List (IngestionItem J)) (item : IngestionItem J) :
    statsItems (queue ++ [item]) = statsItems queue + statsItems [item] := by
  rw [statsItems, List.filterMap_append, ← Multiset.coe_add]
  rfl

theorem statsItems_cons (item : IngestionItem J) (queue : List (IngestionItem J)) :
    statsItems (item :: queue) = statsItems queue + statsItems [item] := by
  rw [← List.singleton_append, statsItems, List.filterMap_append, ← Multiset.coe_add, add_comm]
  rfl

theorem Worker.unwritten_start (clock : Int64) (item : IngestionItem J) :
    (Worker.start clock item).unwritten = statsItems [item] := by
  cases item <;> rfl

theorem Worker.uninserted_start (clock : Int64) (item : IngestionItem J) :
    (Worker.start clock item).uninserted = statsItems [item] := by
  cases item <;> rfl

/-- An item is dropped, or is with its worker from now on. -/
theorem Process.sendToWorker_flow {nodeId : String} {item : IngestionItem J}
    (h : s.sendToWorker cfg nodeId item = some s') :
    s' = { s with drops := s.drops + 1 } ∨ (∃ shards, s' = { s with shards }) ∧
      s'.unwritten = s.unwritten + statsItems [item] ∧
      s'.uninserted = s.uninserted + statsItems [item] := by
  obtain ⟨x, hx, rfl⟩ := sendToWorker_iff.mp h
  split
  · refine .inr ⟨⟨_, rfl⟩, items_setShard_add hx ?_, items_setShard_add hx ?_⟩
    · rw [Shard.unwritten, Shard.unwritten, statsItems_append, add_right_comm]
    · rw [Shard.uninserted, Shard.uninserted, statsItems_append, add_right_comm]
  · exact .inl rfl

/-- **Every step is one of these.** -/
theorem step_flow (h : step cfg p a = some p') : Flow cfg p p' a := by
  obtain ⟨s, db⟩ := p
  cases a with
  | wait now =>
    obtain ⟨-, rfl⟩ := step_wait_iff.mp h
    exact .quiet rfl rfl rfl rfl rfl rfl rfl rfl
  | openStream nodeId =>
    obtain rfl := step_openStream_iff.mp h
    have hitems : ∀ g : Shard J → _,
        Process.items g { s with streams := s.streams ++ [⟨nodeId, .receiving, []⟩] } = s.items g := by
      intro g
      simp [Process.items, Stream.item]
    exact .quiet rfl rfl rfl (hitems _) (hitems _) rfl rfl rfl
  | receive i inbound =>
    obtain ⟨x, hx, hphase, s', hs', rfl⟩ := step_receive_iff.mp h
    have hzero : x.item = 0 := by rw [Stream.item, hphase]
    rcases Process.receive_cases hs' with
      rfl | rfl | ⟨stats, statsJson, rfl, -, hval, rfl⟩ | ⟨hb, rfl, hid, rfl⟩ | ⟨probe, rfl, hitem⟩
    · have hitems : ∀ g : Shard J → _,
          (s.setStream i { x with phase := .closed }).items g = s.items g :=
        fun g => Process.items_setStream_of_eq hx hzero.symm
      exact .quiet rfl rfl rfl (hitems _) (hitems _) rfl rfl rfl
    · exact .quiet rfl rfl rfl rfl rfl rfl rfl rfl
    · refine .stats ⟨x.nodeId, stats.timestampMs, cfg.serde.toText statsJson, statsJson⟩ stats.metrics
        hval rfl rfl rfl rfl ?_ ?_ rfl rfl
      · exact Process.items_setStream_add hx (by rw [hzero, zero_add]; rfl)
      · exact Process.items_setStream_add hx (by rw [hzero, zero_add]; rfl)
    · refine .heartbeat i x hb hx hid ?_ ?_ rfl ?_ ?_ rfl rfl
      · rw [hid]
        rfl
      · rw [hid]
        rfl
      · exact Process.items_setStream_of_eq hx hzero.symm
      · exact Process.items_setStream_of_eq hx hzero.symm
    · rcases Process.sendToWorker_flow hitem with rfl | ⟨⟨shards, rfl⟩, hunw, hunin⟩
      · exact .lost (Nat.lt_of_lt_of_eq (Nat.lt_succ_self _) (Nat.succ_add _ _).symm)
      · exact .quiet rfl rfl rfl (hunw.trans (add_zero _)) (hunin.trans (add_zero _)) rfl rfl rfl
  | enqueue i =>
    obtain ⟨x, hx, item, hphase, s', hs', rfl⟩ := step_enqueue_iff.mp h
    rcases Process.sendToWorker_flow hs' with rfl | ⟨⟨shards, rfl⟩, hunw, hunin⟩
    · exact .lost (Nat.lt_of_lt_of_eq (Nat.lt_succ_self _) (Nat.succ_add _ _).symm)
    · -- the stream gives up what the worker has received
      have hitem : x.item = {item} := by rw [Stream.item, hphase]
      have hmove : ∀ g : Shard J → _,
          Process.items g { s with shards } = s.items g + {item} →
          (({ s with shards } : Process J).setStream i { x with
            phase := .queued ⟨x.nodeId, item.timestampMs, item.statsJson⟩ }).items g = s.items g := by
        intro g hg
        have hset := Process.items_setStream (g := g) (s := { s with shards })
          (y := { x with phase := .queued ⟨x.nodeId, item.timestampMs, item.statsJson⟩ }) hx
        rw [hitem, hg, add_right_comm] at hset
        exact (add_right_cancel hset).trans (add_zero _)
      exact .quiet rfl rfl rfl (hmove _ hunw) (hmove _ hunin) rfl rfl rfl
  | broadcast i =>
    obtain ⟨x, hx, update, hphase, rfl⟩ := step_broadcast_iff.mp h
    have hzero : x.item = 0 := by rw [Stream.item, hphase]
    have hitems : ∀ g : Shard J → _,
        (({ s with broadcasts := s.broadcasts ++ [update] } : Process J).setStream i
          { x with phase := .receiving }).items g = s.items g :=
      fun g => Process.items_setStream_of_eq (s := { s with broadcasts := s.broadcasts ++ [update] })
        hx hzero.symm
    exact .quiet rfl rfl rfl (hitems _) (hitems _) rfl rfl rfl
  | ack i ok =>
    obtain ⟨x, hx, nowMs, hphase, rfl⟩ := step_ack_iff.mp h
    have hzero : x.item = 0 := by rw [Stream.item, hphase]
    have hitems : ∀ g : Shard J → _, ∀ y : Stream J, y.item = 0 →
        (s.setStream i y).items g = s.items g :=
      fun g y hy => Process.items_setStream_of_eq hx (hy.trans hzero.symm)
    cases ok <;> exact .quiet rfl rfl rfl (hitems _ _ rfl) (hitems _ _ rfl) rfl rfl rfl
  | workerRecv w =>
    obtain ⟨x, hx, hidle, item, rest, hqueue, rfl⟩ := step_workerRecv_iff.mp h
    have hunw : Shard.unwritten ⟨rest, .start s.clock item⟩ = x.unwritten := by
      rw [Shard.unwritten, Shard.unwritten, hqueue, hidle, statsItems_cons, Worker.unwritten_start]
      exact (add_zero _).symm
    have hunin : Shard.uninserted ⟨rest, .start s.clock item⟩ = x.uninserted := by
      rw [Shard.uninserted, Shard.uninserted, hqueue, hidle, statsItems_cons,
        Worker.uninserted_start]
      exact (add_zero _).symm
    exact .quiet rfl rfl rfl (Process.items_setShard_of_eq hx hunw)
      (Process.items_setShard_of_eq hx hunin) rfl rfl rfl
  | workerUpsert w ok =>
    obtain ⟨x, hx, item, nowMs, hworker, rfl⟩ := step_workerUpsert_iff.mp h
    cases ok with
    | false => exact .lost (Nat.lt_succ_self _)
    | true =>
      refine .upserted item nowMs rfl rfl rfl (Process.items_setShard_sub hx ?_)
        (Process.items_setShard_of_eq hx ?_) rfl rfl
      · rw [Shard.unwritten, Shard.unwritten, hworker]
        exact congrArg (· + _) (add_zero _).symm
      · rw [Shard.uninserted, Shard.uninserted, hworker]
        rfl
  | workerInsert w ok =>
    obtain ⟨x, hx, hcases⟩ := step_workerInsert_cases h
    rcases hcases with
      ⟨item, hworker, ⟨db', hdb', rfl⟩ | rfl⟩ | ⟨item, hworker, ⟨db', hdb', rfl⟩ | rfl⟩
    · refine .inserted item rfl rfl rfl (Process.items_setShard_of_eq hx ?_)
        (Process.items_setShard_sub hx ?_) rfl hdb'
      · rw [Shard.unwritten, Shard.unwritten, hworker]
        rfl
      · rw [Shard.uninserted, Shard.uninserted, hworker]
        exact congrArg (· + _) (add_zero _).symm
    · exact .lost (Nat.lt_succ_self _)
    · have htables := Database.insertProbeResult_eq hdb'
      refine .quiet rfl rfl rfl (Process.items_setShard_of_eq hx ?_)
        (Process.items_setShard_of_eq hx ?_) rfl htables.1 htables.2
      · rw [Shard.unwritten, Shard.unwritten, hworker]
        rfl
      · rw [Shard.uninserted, Shard.uninserted, hworker]
        rfl
    · exact .lost (Nat.lt_succ_self _)
  | tick =>
    obtain ⟨hidle, rfl⟩ := step_tick_iff.mp h
    exact .quiet rfl rfl (by rw [hidle]; rfl) rfl rfl rfl rfl rfl
  | visit n =>
    obtain ⟨now, due, visited, transitions, node, hscan, hnode, hnew, rfl⟩ := step_visit_iff.mp h
    refine .visit n now node hnode rfl rfl ?_ rfl rfl rfl rfl
    rw [hscan]
    split <;> simp [Liveness.pending]
  | scanned =>
    obtain ⟨now, due, visited, transitions, hscan, hall, rfl⟩ := step_scanned_iff.mp h
    exact .quiet rfl rfl (by rw [hscan, Liveness.pending_next]; rfl) rfl rfl rfl rfl rfl
  | persist ok =>
    obtain ⟨nowMs, transition, rest, hupsert, rfl⟩ := step_persist_iff.mp h
    cases ok with
    | false => exact .lost (Nat.lt_succ_self _)
    | true => exact .persisted true nowMs transition rest hupsert rfl rfl rfl rfl rfl rfl rfl
  | announce =>
    obtain ⟨transition, rest, hann, rfl⟩ := step_announce_iff.mp h
    exact .quiet rfl rfl (by rw [hann, Liveness.pending_next]; rfl) rfl rfl rfl rfl rfl

end Hakuraku.Server

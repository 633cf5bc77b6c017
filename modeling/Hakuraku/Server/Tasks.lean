import Hakuraku.Lib.Machine
import Hakuraku.Server.Db

/-!
# The server's tasks

Reference: `pulse-server/src/main.rs`, the ingestion workers and the liveness checker;
`pulse-server/src/grpc.rs`, `stream_telemetry`; `pulse-server/src/state.rs`, `send_to_worker`.

One server process is a step function over its own state and the database. Its tasks are one for
every open telemetry stream, the ingestion workers and the liveness checker. A step goes from one
access of shared state to the next: the registry update of a message, its hand-over to a worker and
its broadcast are separate steps, and so are the visit of one registry entry by the liveness
checker, its database write and its broadcast. A database write takes effect in a step of its own
with the clock that the task has read when it made the call.

The scan of the liveness checker goes through the registry while other tasks change it. It visits
every entry that was there when it began, in any order and none of them twice; entries that are
inserted meanwhile may be visited or not.

This is not all that writes to the registry and the tables. The requests that fill the registry from
the table of nodes come in with `Cluster`, and the cleanup task, which deletes old snapshots and probe
results, and a server that starts without its nodes because it failed to load them with `Deployment`.
The push to VictoriaMetrics is in `Exporter`, and the shutdown in `Ingestion`.

Gauges and latency histograms and logging are not modelled. The counters of dropped items and of
database errors are, since results speak about runs without them. `receipts` is a ghost record of the
messages that were accepted.
-/

namespace Hakuraku.Server

/-- What the server is built from: `serde_json` and parts of the standard library. -/
structure Config (B J : Type) where
  serde : Serde B J
  /-- `DefaultHasher` on a node id. -/
  hash : String → ℕ
  /-- `char::is_alphanumeric`. -/
  alphanumeric : Char → Bool

/-- A configuration to evaluate runs in: the metrics are a number, and a JSON value is its text. -/
def Config.byText : Config ℕ String where
  serde :=
    { toValue := fun metrics => some (toString metrics), toText := id, fromStr := some, null := "null",
      jsonb := id }
  hash := String.length
  alphanumeric := Char.isAlphanum

/-- The number of ingestion workers. -/
def workerCount : ℕ := 4

/-- The capacity of a worker's queue. -/
def queueCapacity : ℕ := 1024

/-- Where the task of a telemetry stream stands. -/
inductive StreamPhase (J : Type) where
  /-- Awaiting the next message. -/
  | receiving
  /-- The registry has been updated, and the item is not yet handed to its worker. -/
  | registered (item : StatsItem J)
  /-- The item has been handed over, and the update is not yet broadcast. -/
  | queued (update : NodeUpdate J)
  /-- Sending a heartbeat acknowledgement with this clock. -/
  | acking (nowMs : Int64)
  | closed
deriving DecidableEq

/-- A telemetry stream with its authenticated node id and the commands sent back on it. -/
structure Stream (J : Type) where
  nodeId : String
  phase : StreamPhase J
  commands : List ServerCommand

/-- What `inbound.next()` returns. -/
inductive Inbound (B : Type) where
  | message (payload : Option (Payload B))
  | error
  | ended

/-- Where an ingestion worker stands. -/
inductive Worker (J : Type) where
  | idle
  /-- In `upsert_node`, with the clock it has read. -/
  | upserting (item : StatsItem J) (nowMs : Int64)
  /-- In `insert_snapshot`. -/
  | inserting (item : StatsItem J)
  /-- In `insert_probe_result`. -/
  | probing (item : ProbeItem)
deriving DecidableEq

/-- How a worker begins with an item. -/
def Worker.start {J : Type} (clock : Int64) : IngestionItem J → Worker J
  | .stats item => .upserting item clock
  | .probeResult item => .probing item

/-- An ingestion worker with its queue. -/
structure Shard (J : Type) where
  queue : List (IngestionItem J)
  worker : Worker J

/-- An offline transition with the values captured for its broadcast. -/
structure Transition (J : Type) where
  nodeId : String
  lastSeen : Int64
  latestStats : Option J

/-- Where the liveness checker stands. -/
inductive Liveness (J : Type) where
  /-- Awaiting the next tick. -/
  | idle
  /-- Scanning the registry: the entries that were there at the start, and those visited. -/
  | scanning (now : Int64) (due visited : List String) (transitions : List (Transition J))
  /-- In `upsert_node` for the first transition, with the clock it has read. -/
  | upserting (nowMs : Int64) (transition : Transition J) (rest : List (Transition J))
  /-- About to broadcast the first transition. -/
  | announcing (transition : Transition J) (rest : List (Transition J))

/-- The liveness checker goes on with the transitions that are left. -/
def Liveness.next {J : Type} (clock : Int64) : List (Transition J) → Liveness J
  | [] => .idle
  | transition :: rest => .upserting clock transition rest

/-- A `Stats` or `Heartbeat` that a stream has accepted. -/
structure Receipt (J : Type) where
  nodeId : String
  /-- The server's clock when it was processed. -/
  receivedAt : Int64
  /-- The `timestamp_ms` it carries. -/
  timestampMs : Int64
  /-- The item a `Stats` became, `none` for a `Heartbeat`. -/
  item : Option (StatsItem J)

/-- A server process. -/
structure Process (J : Type) where
  nodes : Registry J
  streams : List (Stream J)
  shards : List (Shard J)
  liveness : Liveness J
  clock : Int64
  /-- What has been sent on the broadcast channel. -/
  broadcasts : List (NodeUpdate J)
  /-- The counter `INGESTION_DROPS`. -/
  drops : ℕ
  /-- The counter `DB_ERRORS`. -/
  dbErrors : ℕ
  receipts : List (Receipt J)

/-- A server and the database. -/
abbrev State (J : Type) := Process J × Database J

/-- The steps of a server. -/
inductive Act (B : Type) where
  /-- The clock advances. -/
  | wait (now : Int64)
  /-- A stream authenticated as a node is opened. -/
  | openStream (nodeId : String)
  | receive (stream : ℕ) (inbound : Inbound B)
  /-- The item of a stream is handed to its worker. -/
  | enqueue (stream : ℕ)
  | broadcast (stream : ℕ)
  /-- The acknowledgement of a stream is sent, or its client is found disconnected. -/
  | ack (stream : ℕ) (ok : Bool)
  | workerRecv (worker : ℕ)
  /-- The `upsert_node` of a worker takes effect, or fails. -/
  | workerUpsert (worker : ℕ) (ok : Bool)
  /-- The insert of a worker takes effect, or fails. -/
  | workerInsert (worker : ℕ) (ok : Bool)
  | tick
  /-- The liveness checker visits the entry of a node. -/
  | visit (nodeId : String)
  | scanned
  /-- The `upsert_node` of the liveness checker takes effect, or fails. -/
  | persist (ok : Bool)
  | announce

namespace Process

variable {B J : Type}

/-- The server after it has loaded the nodes from the database. One that fails to load them starts as on
an empty database (`DeploymentAct.bootUnloaded`). -/
def boot (db : Database J) (clock : Int64) : Process J :=
  { nodes := .load db.getAllNodes, streams := [], shards := List.replicate workerCount ⟨[], .idle⟩,
    liveness := .idle, clock, broadcasts := [], drops := 0, dbErrors := 0, receipts := [] }

/-- Replace a stream. -/
def setStream (s : Process J) (i : ℕ) (x : Stream J) : Process J :=
  { s with streams := s.streams.set i x }

/-- Replace a worker with its queue. -/
def setShard (s : Process J) (w : ℕ) (x : Shard J) : Process J :=
  { s with shards := s.shards.set w x }

/-- `AppState::shard`. -/
def shardOf (cfg : Config B J) (s : Process J) (nodeId : String) : ℕ :=
  cfg.hash nodeId % s.shards.length

/-- `AppState::send_to_worker`. A full queue drops the item. -/
def sendToWorker (cfg : Config B J) (s : Process J) (nodeId : String) (item : IngestionItem J) :
    Option (Process J) :=
  s.shards[s.shardOf cfg nodeId]?.map fun x =>
    if x.queue.length < queueCapacity then
      s.setShard (s.shardOf cfg nodeId) { x with queue := x.queue ++ [item] }
    else { s with drops := s.drops + 1 }

/-- One turn of the loop of `stream_telemetry`, up to the hand-over of an item. -/
def receive (cfg : Config B J) (s : Process J) (i : ℕ) (x : Stream J) : Inbound B → Option (Process J)
  | .error | .ended => some (s.setStream i { x with phase := .closed })
  | .message none => some s
  | .message (some (.stats stats)) =>
    -- a spoofed node id closes the stream
    if stats.nodeId ≠ x.nodeId then some (s.setStream i { x with phase := .closed })
    else
      match cfg.serde.toValue stats.metrics with
      | none => some s
      | some statsJson =>
        let item : StatsItem J :=
          ⟨x.nodeId, stats.timestampMs, cfg.serde.toText statsJson, statsJson⟩
        some ({ s with
          nodes := s.nodes.onStats x.nodeId stats.timestampMs statsJson
          receipts := s.receipts ++ [⟨x.nodeId, s.clock, stats.timestampMs, some item⟩]
          : Process J }.setStream i { x with phase := .registered item })
  | .message (some (.heartbeat hb)) =>
    if hb.nodeId ≠ x.nodeId then some (s.setStream i { x with phase := .closed })
    else
      some ({ s with
        nodes := s.nodes.onHeartbeat x.nodeId hb.timestampMs
        receipts := s.receipts ++ [⟨x.nodeId, s.clock, hb.timestampMs, none⟩]
        : Process J }.setStream i { x with phase := .acking s.clock })
  | .message (some (.probeResult probe)) =>
    s.sendToWorker cfg x.nodeId (.probeResult
      ⟨x.nodeId, probe.target, probe.success, probe.latencyUs.toInt64, probe.errorMessage, s.clock⟩)

/-- A database error is counted. -/
def failed (s : Process J) : Process J := { s with dbErrors := s.dbErrors + 1 }

end Process

/-- One step of a server. -/
def step {B J : Type} (cfg : Config B J) : State J → Act B → Option (State J)
  | (s, db), .wait now => if s.clock ≤ now then some ({ s with clock := now }, db) else none
  | (s, db), .openStream nodeId =>
    some ({ s with streams := s.streams ++ [⟨nodeId, .receiving, []⟩] }, db)
  | (s, db), .receive i inbound => do
    let x ← s.streams[i]?
    match x.phase with
    | .receiving => (s.receive cfg i x inbound).map (·, db)
    | _ => none
  | (s, db), .enqueue i => do
    let x ← s.streams[i]?
    match x.phase with
    | .registered item =>
      (s.sendToWorker cfg x.nodeId (.stats item)).map fun s' =>
        (s'.setStream i { x with phase := .queued ⟨x.nodeId, item.timestampMs, item.statsJson⟩ }, db)
    | _ => none
  | (s, db), .broadcast i => do
    let x ← s.streams[i]?
    match x.phase with
    | .queued update =>
      some ({ s with broadcasts := s.broadcasts ++ [update] }.setStream i
        { x with phase := .receiving }, db)
    | _ => none
  | (s, db), .ack i ok => do
    let x ← s.streams[i]?
    match x.phase with
    | .acking nowMs =>
      if ok then
        some (s.setStream i
          { x with phase := .receiving, commands := x.commands ++ [.heartbeatAck nowMs] }, db)
      else some (s.setStream i { x with phase := .closed }, db)
    | _ => none
  | (s, db), .workerRecv w => do
    let x ← s.shards[w]?
    match x.worker, x.queue with
    | .idle, item :: rest => some (s.setShard w ⟨rest, .start s.clock item⟩, db)
    | _, _ => none
  | (s, db), .workerUpsert w ok => do
    let x ← s.shards[w]?
    match x.worker with
    | .upserting item nowMs =>
      if ok then
        some (s.setShard w { x with worker := .inserting item },
          db.upsertNode item.nodeId item.nodeId "online" nowMs)
      else some (s.failed.setShard w { x with worker := .inserting item }, db)
    | _ => none
  | (s, db), .workerInsert w ok => do
    let x ← s.shards[w]?
    match x.worker with
    | .inserting item =>
      match ok, db.insertSnapshot cfg.serde item.nodeId item.timestampMs item.statsStr with
      | true, some db' => some (s.setShard w { x with worker := .idle }, db')
      | _, _ => some (s.failed.setShard w { x with worker := .idle }, db)
    | .probing item =>
      match ok, db.insertProbeResult item with
      | true, some db' => some (s.setShard w { x with worker := .idle }, db')
      | _, _ => some (s.failed.setShard w { x with worker := .idle }, db)
    | _ => none
  | (s, db), .tick =>
    match s.liveness with
    | .idle => some ({ s with liveness := .scanning s.clock s.nodes.keys [] [] }, db)
    | _ => none
  | (s, db), .visit n =>
    match s.liveness, s.nodes.lookup n with
    | .scanning now due visited transitions, some node =>
      if n ∈ visited then none
      else
        some ({ s with
          nodes := s.nodes.onVisit now n
          liveness := .scanning now due (n :: visited)
            (if Registry.overdue now node then
              transitions ++ [⟨node.nodeId, node.lastSeenMs, node.latestStats⟩]
            else transitions) }, db)
    | _, _ => none
  | (s, db), .scanned =>
    match s.liveness with
    | .scanning _ due visited transitions =>
      if ∀ n ∈ due, n ∈ visited then some ({ s with liveness := .next s.clock transitions }, db)
      else none
    | _ => none
  | (s, db), .persist ok =>
    match s.liveness with
    | .upserting nowMs transition rest =>
      if ok then
        some ({ s with liveness := .announcing transition rest },
          db.upsertNode transition.nodeId transition.nodeId "offline" nowMs)
      else some ({ s.failed with liveness := .announcing transition rest }, db)
    | _ => none
  | (s, db), .announce =>
    match s.liveness with
    | .announcing transition rest =>
      some ({ s with
        broadcasts := s.broadcasts ++
          [⟨transition.nodeId, transition.lastSeen, transition.latestStats.getD cfg.serde.null⟩]
        liveness := .next s.clock rest }, db)
    | _ => none

/-! ## What each step does -/

section Steps

variable {B J : Type} {cfg : Config B J} {s s' : Process J} {db : Database J} {t : State J} {i w : ℕ}
  {ok : Bool}

/-- An item is queued, or dropped from a full queue. -/
theorem Process.sendToWorker_iff {nodeId : String} {item : IngestionItem J} :
    s.sendToWorker cfg nodeId item = some s' ↔ ∃ x, s.shards[s.shardOf cfg nodeId]? = some x ∧
      (if x.queue.length < queueCapacity then
        s.setShard (s.shardOf cfg nodeId) { x with queue := x.queue ++ [item] }
      else { s with drops := s.drops + 1 }) = s' := by
  rw [sendToWorker, Option.map_eq_some_iff]

/-- What a turn of a stream's loop can do. -/
theorem Process.receive_cases {x : Stream J} {inbound : Inbound B}
    (h : s.receive cfg i x inbound = some s') :
    s' = s.setStream i { x with phase := .closed } ∨ s' = s ∨
    (∃ stats statsJson, inbound = .message (some (.stats stats)) ∧ stats.nodeId = x.nodeId ∧
      cfg.serde.toValue stats.metrics = some statsJson ∧
      s' = { s with
        nodes := s.nodes.onStats x.nodeId stats.timestampMs statsJson
        receipts := s.receipts ++ [⟨x.nodeId, s.clock, stats.timestampMs,
          some ⟨x.nodeId, stats.timestampMs, cfg.serde.toText statsJson, statsJson⟩⟩]
        : Process J }.setStream i { x with
          phase := .registered
            ⟨x.nodeId, stats.timestampMs, cfg.serde.toText statsJson, statsJson⟩ }) ∨
    (∃ hb, inbound = .message (some (.heartbeat hb)) ∧ hb.nodeId = x.nodeId ∧
      s' = { s with
        nodes := s.nodes.onHeartbeat x.nodeId hb.timestampMs
        receipts := s.receipts ++ [⟨x.nodeId, s.clock, hb.timestampMs, none⟩]
        : Process J }.setStream i { x with phase := .acking s.clock }) ∨
    ∃ probe, inbound = .message (some (.probeResult probe)) ∧
      s.sendToWorker cfg x.nodeId (.probeResult
        ⟨x.nodeId, probe.target, probe.success, probe.latencyUs.toInt64, probe.errorMessage,
          s.clock⟩) = some s' := by
  unfold receive at h
  split at h
  · exact .inl (Option.some.inj h).symm
  · exact .inl (Option.some.inj h).symm
  · exact .inr (.inl (Option.some.inj h).symm)
  · rename_i stats
    split at h
    · exact .inl (Option.some.inj h).symm
    · rename_i hid
      split at h
      · exact .inr (.inl (Option.some.inj h).symm)
      · rename_i statsJson hval
        exact .inr (.inr (.inl
          ⟨stats, statsJson, rfl, not_not.mp hid, hval, (Option.some.inj h).symm⟩))
  · rename_i hb
    split at h
    · exact .inl (Option.some.inj h).symm
    · rename_i hid
      exact .inr (.inr (.inr (.inl ⟨hb, rfl, not_not.mp hid, (Option.some.inj h).symm⟩)))
  · exact .inr (.inr (.inr (.inr ⟨_, rfl, h⟩)))

theorem step_wait_iff {now : Int64} :
    step cfg (s, db) (.wait now) = some t ↔ s.clock ≤ now ∧ ({ s with clock := now }, db) = t := by
  simp only [step, Option.ite_none_right_eq_some, Option.some.injEq]

theorem step_openStream_iff {nodeId : String} :
    step cfg (s, db) (.openStream nodeId) = some t ↔
      ({ s with streams := s.streams ++ [⟨nodeId, .receiving, []⟩] }, db) = t := by
  simp only [step, Option.some.injEq]

theorem step_receive_iff {inbound : Inbound B} :
    step cfg (s, db) (.receive i inbound) = some t ↔ ∃ x, s.streams[i]? = some x ∧
      x.phase = .receiving ∧ ∃ s', s.receive cfg i x inbound = some s' ∧ (s', db) = t := by
  simp only [step, Option.bind_eq_bind, Option.bind_eq_some_iff]
  refine exists_congr fun x => and_congr_right fun _ => ?_
  cases x.phase <;> simp

theorem step_enqueue_iff :
    step cfg (s, db) (.enqueue i) = some t ↔ ∃ x, s.streams[i]? = some x ∧
      ∃ item, x.phase = .registered item ∧
        ∃ s', s.sendToWorker cfg x.nodeId (.stats item) = some s' ∧
          (s'.setStream i { x with
            phase := .queued ⟨x.nodeId, item.timestampMs, item.statsJson⟩ }, db) = t := by
  simp only [step, Option.bind_eq_bind, Option.bind_eq_some_iff]
  refine exists_congr fun x => and_congr_right fun _ => ?_
  cases x.phase <;> simp

theorem step_broadcast_iff :
    step cfg (s, db) (.broadcast i) = some t ↔ ∃ x, s.streams[i]? = some x ∧
      ∃ update, x.phase = .queued update ∧
        ({ s with broadcasts := s.broadcasts ++ [update] }.setStream i
          { x with phase := .receiving }, db) = t := by
  simp only [step, Option.bind_eq_bind, Option.bind_eq_some_iff]
  refine exists_congr fun x => and_congr_right fun _ => ?_
  cases x.phase <;> simp

theorem step_ack_iff :
    step cfg (s, db) (.ack i ok) = some t ↔ ∃ x, s.streams[i]? = some x ∧
      ∃ nowMs, x.phase = .acking nowMs ∧
        (s.setStream i (if ok then
          { x with phase := .receiving, commands := x.commands ++ [.heartbeatAck nowMs] }
          else { x with phase := .closed }), db) = t := by
  simp only [step, Option.bind_eq_bind, Option.bind_eq_some_iff]
  refine exists_congr fun x => and_congr_right fun _ => ?_
  cases x.phase <;> cases ok <;> simp

theorem step_workerRecv_iff :
    step cfg (s, db) (.workerRecv w) = some t ↔ ∃ x, s.shards[w]? = some x ∧
      x.worker = .idle ∧ ∃ item rest, x.queue = item :: rest ∧
        (s.setShard w ⟨rest, .start s.clock item⟩, db) = t := by
  simp only [step, Option.bind_eq_bind, Option.bind_eq_some_iff]
  refine exists_congr fun x => and_congr_right fun _ => ?_
  cases x.worker <;> cases x.queue <;> simp

theorem step_workerUpsert_iff :
    step cfg (s, db) (.workerUpsert w ok) = some t ↔ ∃ x, s.shards[w]? = some x ∧
      ∃ item nowMs, x.worker = .upserting item nowMs ∧
        (if ok then
          (s.setShard w { x with worker := .inserting item },
            db.upsertNode item.nodeId item.nodeId "online" nowMs)
        else (s.failed.setShard w { x with worker := .inserting item }, db)) = t := by
  simp only [step, Option.bind_eq_bind, Option.bind_eq_some_iff]
  refine exists_congr fun x => and_congr_right fun _ => ?_
  cases x.worker <;> cases ok <;> simp

/-- A worker's insert takes effect or counts as an error. -/
theorem step_workerInsert_cases (h : step cfg (s, db) (.workerInsert w ok) = some t) :
    ∃ x, s.shards[w]? = some x ∧
      ((∃ item, x.worker = .inserting item ∧
        ((∃ db', db.insertSnapshot cfg.serde item.nodeId item.timestampMs item.statsStr = some db' ∧
            t = (s.setShard w { x with worker := .idle }, db')) ∨
          t = (s.failed.setShard w { x with worker := .idle }, db))) ∨
      (∃ item, x.worker = .probing item ∧
        ((∃ db', db.insertProbeResult item = some db' ∧
            t = (s.setShard w { x with worker := .idle }, db')) ∨
          t = (s.failed.setShard w { x with worker := .idle }, db)))) := by
  simp only [step, Option.bind_eq_bind, Option.bind_eq_some_iff] at h
  obtain ⟨x, hx, h⟩ := h
  refine ⟨x, hx, ?_⟩
  split at h
  · rename_i item hw
    refine .inl ⟨item, hw, ?_⟩
    split at h
    · rename_i db' hdb
      exact .inl ⟨db', hdb, (Option.some.inj h).symm⟩
    · exact .inr (Option.some.inj h).symm
  · rename_i item hw
    refine .inr ⟨item, hw, ?_⟩
    split at h
    · rename_i db' hdb
      exact .inl ⟨db', hdb, (Option.some.inj h).symm⟩
    · exact .inr (Option.some.inj h).symm
  · exact absurd h (by simp)

theorem step_tick_iff :
    step cfg (s, db) .tick = some t ↔ s.liveness = .idle ∧
      ({ s with liveness := .scanning s.clock s.nodes.keys [] [] }, db) = t := by
  simp only [step]
  cases s.liveness <;> simp

theorem step_visit_iff {n : String} :
    step cfg (s, db) (.visit n) = some t ↔ ∃ now due visited transitions node,
      s.liveness = .scanning now due visited transitions ∧ s.nodes.lookup n = some node ∧
      n ∉ visited ∧
      ({ s with
        nodes := s.nodes.onVisit now n
        liveness := .scanning now due (n :: visited)
          (if Registry.overdue now node then
            transitions ++ [⟨node.nodeId, node.lastSeenMs, node.latestStats⟩]
          else transitions) }, db) = t := by
  simp only [step]
  cases s.liveness <;> cases s.nodes.lookup n <;> simp

theorem step_scanned_iff :
    step cfg (s, db) .scanned = some t ↔ ∃ now due visited transitions,
      s.liveness = .scanning now due visited transitions ∧ (∀ n ∈ due, n ∈ visited) ∧
      ({ s with liveness := .next s.clock transitions }, db) = t := by
  simp only [step]
  cases s.liveness <;> simp

theorem step_persist_iff :
    step cfg (s, db) (.persist ok) = some t ↔ ∃ nowMs transition rest,
      s.liveness = .upserting nowMs transition rest ∧
      (if ok then
        ({ s with liveness := .announcing transition rest },
          db.upsertNode transition.nodeId transition.nodeId "offline" nowMs)
      else ({ s.failed with liveness := .announcing transition rest }, db)) = t := by
  simp only [step]
  cases s.liveness <;> cases ok <;> simp

theorem step_announce_iff :
    step cfg (s, db) .announce = some t ↔ ∃ transition rest,
      s.liveness = .announcing transition rest ∧
      ({ s with
        broadcasts := s.broadcasts ++
          [⟨transition.nodeId, transition.lastSeen, transition.latestStats.getD cfg.serde.null⟩]
        liveness := .next s.clock rest }, db) = t := by
  simp only [step]
  cases s.liveness <;> simp

/-! ### What the tasks leave alone -/

/-- The steps of the workers. -/
def Act.ofWorker : Act B → Bool
  | .workerRecv _ | .workerUpsert .. | .workerInsert .. => true
  | _ => false

/-- The steps of the liveness checker. -/
def Act.ofLiveness : Act B → Bool
  | .tick | .visit _ | .scanned | .persist _ | .announce => true
  | _ => false

/-- The steps that are writes to the database. -/
def Act.writesDb : Act B → Bool
  | .workerUpsert .. | .workerInsert .. | .persist _ => true
  | _ => false

variable {p p' : State J} {a : Act B}

/-- A worker touches its shard, the error counter and the database. -/
theorem step_of_worker (h : step cfg p a = some p') (ha : a.ofWorker = true) :
    ∃ shards dbErrors, p'.1 = { p.1 with shards, dbErrors } := by
  obtain ⟨s, db⟩ := p
  cases a with
  | workerRecv w =>
    obtain ⟨x, -, -, item, rest, -, rfl⟩ := step_workerRecv_iff.mp h
    exact ⟨_, _, rfl⟩
  | workerUpsert w ok =>
    obtain ⟨x, -, item, nowMs, -, rfl⟩ := step_workerUpsert_iff.mp h
    cases ok <;> exact ⟨_, _, rfl⟩
  | workerInsert w ok =>
    obtain ⟨x, -, hcases⟩ := step_workerInsert_cases h
    rcases hcases with ⟨item, -, ⟨db', -, rfl⟩ | rfl⟩ | ⟨item, -, ⟨db', -, rfl⟩ | rfl⟩ <;>
      exact ⟨_, _, rfl⟩
  | _ => exact absurd ha Bool.false_ne_true

/-- The liveness checker touches the registry, its own state, the channel, the error counter and the
database. -/
theorem step_of_liveness (h : step cfg p a = some p') (ha : a.ofLiveness = true) :
    ∃ nodes liveness broadcasts dbErrors,
      p'.1 = { p.1 with nodes, liveness, broadcasts, dbErrors } := by
  obtain ⟨s, db⟩ := p
  cases a with
  | tick =>
    obtain ⟨-, rfl⟩ := step_tick_iff.mp h
    exact ⟨_, _, _, _, rfl⟩
  | visit n =>
    obtain ⟨now, due, visited, transitions, node, -, -, -, rfl⟩ := step_visit_iff.mp h
    exact ⟨_, _, _, _, rfl⟩
  | scanned =>
    obtain ⟨now, due, visited, transitions, -, -, rfl⟩ := step_scanned_iff.mp h
    exact ⟨_, _, _, _, rfl⟩
  | persist ok =>
    obtain ⟨nowMs, transition, rest, -, rfl⟩ := step_persist_iff.mp h
    cases ok <;> exact ⟨_, _, _, _, rfl⟩
  | announce =>
    obtain ⟨transition, rest, -, rfl⟩ := step_announce_iff.mp h
    exact ⟨_, _, _, _, rfl⟩
  | _ => exact absurd ha Bool.false_ne_true

theorem step_db_eq (h : step cfg p a = some p') (ha : a.writesDb = false) : p'.2 = p.2 := by
  obtain ⟨s, db⟩ := p
  cases a with
  | wait now =>
    obtain ⟨-, rfl⟩ := step_wait_iff.mp h
    rfl
  | openStream nodeId =>
    obtain rfl := step_openStream_iff.mp h
    rfl
  | receive i inbound =>
    obtain ⟨x, -, -, s', -, rfl⟩ := step_receive_iff.mp h
    rfl
  | enqueue i =>
    obtain ⟨x, -, item, -, s', -, rfl⟩ := step_enqueue_iff.mp h
    rfl
  | broadcast i =>
    obtain ⟨x, -, update, -, rfl⟩ := step_broadcast_iff.mp h
    rfl
  | ack i ok =>
    obtain ⟨x, -, nowMs, -, rfl⟩ := step_ack_iff.mp h
    rfl
  | workerRecv w =>
    obtain ⟨x, -, -, item, rest, -, rfl⟩ := step_workerRecv_iff.mp h
    rfl
  | tick =>
    obtain ⟨-, rfl⟩ := step_tick_iff.mp h
    rfl
  | visit n =>
    obtain ⟨now, due, visited, transitions, node, -, -, -, rfl⟩ := step_visit_iff.mp h
    rfl
  | scanned =>
    obtain ⟨now, due, visited, transitions, -, -, rfl⟩ := step_scanned_iff.mp h
    rfl
  | announce =>
    obtain ⟨transition, rest, -, rfl⟩ := step_announce_iff.mp h
    rfl
  | workerUpsert | workerInsert | persist => exact absurd ha.symm Bool.false_ne_true

end Steps

end Hakuraku.Server

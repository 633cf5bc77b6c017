import Hakuraku.Server.Isolation

/-!
# The ingestion workers

Reference: `pulse-server/src/state.rs`, `send_to_worker` and `shard`; `pulse-server/src/main.rs`, the
worker pool and the drain on shutdown; `pulse-server/src/grpc.rs`, the two places that enqueue.

An item goes to the worker that the hash of its node id selects, if there is room in the worker's
queue, and is dropped otherwise. `Ingests` says what a step of the server does to the queues and the
workers.

`Ingestion` is the server with any number of workers, its shutdown, and a ghost record of the items:
those handed to `send_to_worker` with the outcome of the `try_send`, those that a worker has received
and those that it is done with. The channels are bounded queues whose receiver is told that they are
closed only when all senders are gone and the queue is empty.
-/

namespace Hakuraku.Server

variable {B J : Type} {cfg : Config B J}

/-! ## The items on their way -/

/-- The item that a step gives to `send_to_worker`. -/
def handedOver (s : Process J) : Act B → Option (IngestionItem J)
  | .receive i (.message (some (.probeResult probe))) =>
    s.streams[i]?.map fun x => .probeResult
      ⟨x.nodeId, probe.target, probe.success, probe.latencyUs.toInt64, probe.errorMessage, s.clock⟩
  | .enqueue i => s.streams[i]?.bind fun x =>
    match x.phase with
    | .registered item => some (.stats item)
    | _ => none
  | _ => none

/-- The item a worker is at. -/
def Worker.item? : Worker J → Option (IngestionItem J)
  | .idle => none
  | .upserting item _ | .inserting item => some (.stats item)
  | .probing item => some (.probeResult item)

/-- The item that a worker inserts next. -/
def Worker.inserting? : Worker J → Option (IngestionItem J)
  | .inserting item => some (.stats item)
  | .probing item => some (.probeResult item)
  | .idle | .upserting .. => none

theorem Worker.item?_of_inserting? {worker : Worker J} {item : IngestionItem J}
    (h : worker.inserting? = some item) : worker.item? = some item := by
  cases worker with
  | idle => exact absurd h (by simp [inserting?])
  | upserting item nowMs => exact absurd h (by simp [inserting?])
  | inserting item => exact h
  | probing item => exact h

/-- The task of the stream has ended. -/
def Stream.isClosed (x : Stream J) : Bool :=
  match x.phase with
  | .closed => true
  | _ => false

/-- The `try_send` of an item finds room. -/
def Process.hasRoom (cfg : Config B J) (s : Process J) (item : IngestionItem J) : Bool :=
  s.shards[s.shardOf cfg item.nodeId]?.any fun x => x.queue.length < queueCapacity

/-- **What a step does to the queues, the workers and the rows of `nodes`.** -/
inductive Ingests (cfg : Config B J) (p p' : State J) : Act B → Prop where
  /-- No item moves. -/
  | quiet {a : Act B} (hhand : handedOver p.1 a = none) (hother : a.ofWorker = false)
      (hshards : p'.1.shards = p.1.shards) (hdrops : p'.1.drops = p.1.drops)
      (hrows : ∀ n ∈ p.2.nodes, n ∈ p'.2.nodes) : Ingests cfg p p' a
  /-- An item enters a queue. -/
  | sent {a : Act B} (item : IngestionItem J) (x : Shard J) (hhand : handedOver p.1 a = some item)
      (hother : a.ofWorker = false) (hroom : p.1.hasRoom cfg item = true)
      (hx : p.1.shards[p.1.shardOf cfg item.nodeId]? = some x)
      (hshards : p'.1.shards = p.1.shards.set (p.1.shardOf cfg item.nodeId)
        { x with queue := x.queue ++ [item] })
      (hdrops : p'.1.drops = p.1.drops) (hdb : p'.2 = p.2) : Ingests cfg p p' a
  /-- An item is dropped. -/
  | refused {a : Act B} (item : IngestionItem J) (hhand : handedOver p.1 a = some item)
      (hother : a.ofWorker = false) (hfull : p.1.hasRoom cfg item = false)
      (hshards : p'.1.shards = p.1.shards) (hdrops : p'.1.drops = p.1.drops + 1)
      (hdb : p'.2 = p.2) : Ingests cfg p p' a
  /-- A worker receives an item. -/
  | taken (w : ℕ) (x : Shard J) (item : IngestionItem J) (rest : List (IngestionItem J))
      (hx : p.1.shards[w]? = some x) (hidle : x.worker = .idle) (hqueue : x.queue = item :: rest)
      (hshards : p'.1.shards = p.1.shards.set w ⟨rest, .start p.1.clock item⟩)
      (hdrops : p'.1.drops = p.1.drops) (hdb : p'.2 = p.2) : Ingests cfg p p' (.workerRecv w)
  /-- A worker is through with the upsert of its item. -/
  | upserted (w : ℕ) (ok : Bool) (x : Shard J) (item : StatsItem J) (nowMs : Int64)
      (hx : p.1.shards[w]? = some x) (hworker : x.worker = .upserting item nowMs)
      (hshards : p'.1.shards = p.1.shards.set w { x with worker := .inserting item })
      (hdrops : p'.1.drops = p.1.drops)
      (hdb : p'.2 = if ok then p.2.upsertNode item.nodeId item.nodeId "online" nowMs else p.2) :
      Ingests cfg p p' (.workerUpsert w ok)
  /-- A worker is through with its item. -/
  | inserted (w : ℕ) (ok : Bool) (x : Shard J) (item : IngestionItem J)
      (hx : p.1.shards[w]? = some x) (hitem : x.worker.inserting? = some item)
      (hshards : p'.1.shards = p.1.shards.set w { x with worker := .idle })
      (hdrops : p'.1.drops = p.1.drops) (hrows : p'.2.nodes = p.2.nodes) :
      Ingests cfg p p' (.workerInsert w ok)

section Steps

variable {s s' : Process J} {p p' : State J} {a : Act B}

theorem Process.hasRoom_iff {item : IngestionItem J} {x : Shard J}
    (hx : s.shards[s.shardOf cfg item.nodeId]? = some x) :
    s.hasRoom cfg item = true ↔ x.queue.length < queueCapacity := by
  simp [hasRoom, hx]

/-- `send_to_worker` queues the item or drops it. -/
theorem Process.sendToWorker_ingests (item : IngestionItem J) {db : Database J}
    (streams : List (Stream J)) (receipts : List (Receipt J)) (hhand : handedOver s a = some item)
    (hother : a.ofWorker = false) (h : s.sendToWorker cfg item.nodeId item = some s') :
    Ingests cfg (s, db) ({ s' with streams, receipts }, db) a := by
  obtain ⟨x, hx, rfl⟩ := Process.sendToWorker_iff.mp h
  by_cases hroom : x.queue.length < queueCapacity
  · rw [if_pos hroom]
    exact .sent item x hhand hother ((Process.hasRoom_iff hx).mpr hroom) hx rfl rfl rfl
  · rw [if_neg hroom]
    refine .refused item hhand hother ?_ rfl rfl rfl
    rw [← Bool.not_eq_true, Process.hasRoom_iff hx]
    exact hroom

/-- A row that is there stays there. -/
theorem Database.mem_upsertNode {db : Database J} {n nodeId hostname status : String} {nowMs : Int64}
    (h : n ∈ db.nodes) : n ∈ (db.upsertNode nodeId hostname status nowMs).nodes :=
  (AList.mem_insert _).mpr (.inr h)

theorem step_ingests (hfaithful : p.1.FaithfulStreams) (h : step cfg p a = some p') :
    Ingests cfg p p' a := by
  obtain ⟨s, db⟩ := p
  cases a with
  | wait now =>
    obtain ⟨-, rfl⟩ := step_wait_iff.mp h
    exact .quiet rfl rfl rfl rfl fun _ hn => hn
  | openStream nodeId =>
    obtain rfl := step_openStream_iff.mp h
    exact .quiet rfl rfl rfl rfl fun _ hn => hn
  | receive i inbound =>
    obtain ⟨x, hx, -, s', hs', rfl⟩ := step_receive_iff.mp h
    by_cases hprobe : ∃ probe, inbound = .message (some (.probeResult probe))
    · rcases hprobe with ⟨probe, rfl⟩
      refine Process.sendToWorker_ingests (.probeResult ⟨x.nodeId, probe.target, probe.success,
        probe.latencyUs.toInt64, probe.errorMessage, s.clock⟩) s'.streams s'.receipts ?_ rfl hs'
      simp [handedOver, hx]
    · have hhand : handedOver s (.receive i inbound) = none := by
        rcases inbound with (_ | stats | hb | probe) | _ | _ <;>
          first | rfl | exact absurd ⟨probe, rfl⟩ hprobe
      rcases Process.receive_cases hs' with
        rfl | rfl | ⟨stats, statsJson, -, -, -, rfl⟩ | ⟨hb, -, -, rfl⟩ | ⟨probe, hinbound, -⟩
      · exact .quiet hhand rfl rfl rfl fun _ hn => hn
      · exact .quiet hhand rfl rfl rfl fun _ hn => hn
      · exact .quiet hhand rfl rfl rfl fun _ hn => hn
      · exact .quiet hhand rfl rfl rfl fun _ hn => hn
      · exact absurd ⟨probe, hinbound⟩ hprobe
  | enqueue i =>
    obtain ⟨x, hx, item, hphase, s', hs', rfl⟩ := step_enqueue_iff.mp h
    have hid : item.nodeId = x.nodeId := by
      have howed := hfaithful x (List.mem_of_getElem? hx) (.handOver x.nodeId (.stats item))
        (by simp [Stream.owed, hphase])
      exact howed.2
    refine Process.sendToWorker_ingests (.stats item) _ _ ?_ rfl ?_
    · simp [handedOver, hx, hphase]
    · rw [show (IngestionItem.stats item).nodeId = x.nodeId from hid]
      exact hs'
  | broadcast i =>
    obtain ⟨x, -, update, -, rfl⟩ := step_broadcast_iff.mp h
    exact .quiet rfl rfl rfl rfl fun _ hn => hn
  | ack i ok =>
    obtain ⟨x, -, nowMs, -, rfl⟩ := step_ack_iff.mp h
    exact .quiet rfl rfl rfl rfl fun _ hn => hn
  | workerRecv w =>
    obtain ⟨x, hx, hidle, item, rest, hqueue, rfl⟩ := step_workerRecv_iff.mp h
    exact .taken w x item rest hx hidle hqueue rfl rfl rfl
  | workerUpsert w ok =>
    obtain ⟨x, hx, item, nowMs, hworker, rfl⟩ := step_workerUpsert_iff.mp h
    cases ok <;> exact .upserted w _ x item nowMs hx hworker rfl rfl rfl
  | workerInsert w ok =>
    obtain ⟨x, hx, hcases⟩ := step_workerInsert_cases h
    rcases hcases with
      ⟨item, hworker, ⟨db', hdb', rfl⟩ | rfl⟩ | ⟨item, hworker, ⟨db', hdb', rfl⟩ | rfl⟩
    · exact .inserted w ok x _ hx (by rw [hworker]; rfl) rfl rfl (Database.insertSnapshot_eq hdb').1
    · exact .inserted w ok x _ hx (by rw [hworker]; rfl) rfl rfl rfl
    · exact .inserted w ok x _ hx (by rw [hworker]; rfl) rfl rfl
        (Database.insertProbeResult_eq hdb').1
    · exact .inserted w ok x _ hx (by rw [hworker]; rfl) rfl rfl rfl
  | tick | visit | scanned | announce =>
    obtain ⟨nodes, liveness, broadcasts, dbErrors, heq⟩ := step_of_liveness h rfl
    have hdb := step_db_eq h rfl
    exact .quiet rfl rfl (by rw [heq]) (by rw [heq]) fun _ hn => hdb ▸ hn
  | persist ok =>
    obtain ⟨nowMs, transition, rest, -, rfl⟩ := step_persist_iff.mp h
    cases ok with
    | false => exact .quiet rfl rfl rfl rfl fun _ hn => hn
    | true => exact .quiet rfl rfl rfl rfl fun _ hn => Database.mem_upsertNode hn

end Steps

/-! ## The pool with its shutdown -/

/-- The server with the state of its shutdown, and the items in the order in which they moved. -/
structure Ingestion (J : Type) where
  server : State J
  /-- All senders have been dropped. -/
  closed : Bool
  /-- The workers that have returned. -/
  ended : List ℕ
  /-- The items given to `send_to_worker`, and whether the `try_send` succeeded. -/
  handed : List (IngestionItem J × Bool)
  /-- The items that workers have received. -/
  taken : List (ℕ × IngestionItem J)
  /-- The items that workers are done with. -/
  finished : List (ℕ × IngestionItem J)

/-- The steps of the server and of its shutdown. -/
inductive IngestionAct (B : Type) where
  | act (a : Act B)
  /-- The last sender is dropped. -/
  | close
  /-- The `recv` of a worker returns `None`, and the worker returns. -/
  | finish (worker : ℕ)

namespace Ingestion

/-- A server with `workers` workers. -/
def start (db : Database J) (clock : Int64) (workers : ℕ) : Ingestion J :=
  { server := ({ Process.boot db clock with shards := List.replicate workers ⟨[], .idle⟩ }, db)
    closed := false, ended := [], handed := [], taken := [], finished := [] }

/-- The steps that are left to the tasks. Whoever can send holds a sender, and a worker that has
returned receives nothing. -/
def permits (g : Ingestion J) : Act B → Bool
  | .workerRecv w => w ∉ g.ended
  | .workerUpsert .. | .workerInsert .. | .wait _ => true
  | _ => !g.closed

/-- The record after a step of the server. -/
def record (cfg : Config B J) (g : Ingestion J) (a : Act B) (server : State J) : Ingestion J :=
  { g with
    server
    handed := g.handed ++
      (handedOver g.server.1 a).toList.map fun item => (item, g.server.1.hasRoom cfg item)
    taken := g.taken ++ match a with
      | .workerRecv w => (g.server.1.shards[w]?.bind (·.queue.head?)).toList.map (w, ·)
      | _ => []
    finished := g.finished ++ match a with
      | .workerInsert w _ => (g.server.1.shards[w]?.bind (·.worker.item?)).toList.map (w, ·)
      | _ => [] }

/-- One step. -/
def step (cfg : Config B J) (g : Ingestion J) : IngestionAct B → Option (Ingestion J)
  | .act a => if g.permits a then (Server.step cfg g.server a).map (g.record cfg a) else none
  | .close =>
    -- every open stream holds a sender
    if g.server.1.streams.all Stream.isClosed then some { g with closed := true } else none
  | .finish w => do
    let x ← g.server.1.shards[w]?
    match x.worker, x.queue with
    | .idle, [] =>
      if g.closed ∧ w ∉ g.ended then some { g with ended := w :: g.ended } else none
    | _, _ => none

/-- The items whose `try_send` succeeded. -/
def sent (g : Ingestion J) : List (IngestionItem J) := (g.handed.filter (·.2)).map (·.1)

/-- The items whose `try_send` failed. -/
def refused (g : Ingestion J) : List (IngestionItem J) := (g.handed.filter (!·.2)).map (·.1)

end Ingestion

/-- The entries of a worker in a record. -/
def byWorker (w : ℕ) (record : List (ℕ × IngestionItem J)) : List (IngestionItem J) :=
  (record.filter (·.1 = w)).map (·.2)

/-- The items of a node. -/
def ofNode (n : String) (items : List (IngestionItem J)) : List (IngestionItem J) :=
  items.filter (·.nodeId = n)

theorem mem_byWorker {w : ℕ} {record : List (ℕ × IngestionItem J)} {item : IngestionItem J} :
    item ∈ byWorker w record ↔ (w, item) ∈ record := by
  simp [byWorker]

theorem byWorker_append (w : ℕ) (l l' : List (ℕ × IngestionItem J)) :
    byWorker w (l ++ l') = byWorker w l ++ byWorker w l' := by
  simp [byWorker]

theorem byWorker_entry {w v : ℕ} {items : List (IngestionItem J)} :
    byWorker w (items.map (v, ·)) = if v = w then items else [] := by
  rw [byWorker, List.filter_map]
  split
  · rename_i h
    simp [h, Function.comp_def]
  · rename_i h
    simp [h, Function.comp_def]

namespace Ingestion

variable {g g' : Ingestion J} {workers : ℕ}

/-- The worker of an item. -/
def target (cfg : Config B J) (workers : ℕ) (item : IngestionItem J) : ℕ :=
  cfg.hash item.nodeId % workers

/-- What every step keeps. -/
structure Sound (cfg : Config B J) (workers : ℕ) (g : Ingestion J) : Prop where
  count : g.server.1.shards.length = workers
  faithful : g.server.1.FaithfulStreams
  /-- A worker has received what was sent to it, but for its queue. -/
  queued : ∀ (w : ℕ) (x : Shard J), g.server.1.shards[w]? = some x →
    g.sent.filter (target cfg workers · = w) = byWorker w g.taken ++ x.queue
  /-- A worker is done with what it has received, but for the item it is at. -/
  current : ∀ (w : ℕ) (x : Shard J), g.server.1.shards[w]? = some x →
    byWorker w g.taken = byWorker w g.finished ++ x.worker.item?.toList
  taken_lt : ∀ e ∈ g.taken, e.1 < workers
  finished_lt : ∀ e ∈ g.finished, e.1 < workers
  /-- The drop counter counts the refused items. -/
  drops : g.server.1.drops = g.refused.length
  closed : g.closed = true → ∀ x ∈ g.server.1.streams, x.isClosed = true
  ended : ∀ w ∈ g.ended, g.closed = true ∧
    ∀ x, g.server.1.shards[w]? = some x → x.queue = [] ∧ x.worker = .idle

theorem sound_start (cfg : Config B J) (db : Database J) (clock : Int64) (workers : ℕ) :
    (start db clock workers).Sound cfg workers where
  count := List.length_replicate
  faithful := fun x hx => absurd hx (by simp [start, Process.boot])
  queued w x hx := by
    obtain ⟨-, hx⟩ := List.mem_replicate.mp (List.mem_of_getElem? hx)
    simp [start, sent, byWorker, hx]
  current w x hx := by
    obtain ⟨-, hx⟩ := List.mem_replicate.mp (List.mem_of_getElem? hx)
    simp [start, byWorker, hx, Worker.item?]
  taken_lt e he := absurd he (by simp [start])
  finished_lt e he := absurd he (by simp [start])
  drops := rfl
  closed h := absurd h (by simp [start])
  ended w hw := absurd hw (by simp [start])

/-! ### The steps -/

section Steps

variable {a : Act B} {p' : State J}

/-- What `send_to_worker` is given is recorded as sent or as refused. -/
theorem sent_record_none (cfg : Config B J) (p' : State J) (h : handedOver g.server.1 a = none) :
    (g.record cfg a p').sent = g.sent ∧ (g.record cfg a p').refused = g.refused := by
  simp [record, sent, refused, h]

theorem sent_record_some (cfg : Config B J) (p' : State J) {item : IngestionItem J}
    (h : handedOver g.server.1 a = some item) :
    (g.record cfg a p').sent = g.sent ++ (if g.server.1.hasRoom cfg item then [item] else []) ∧
      (g.record cfg a p').refused =
        g.refused ++ (if g.server.1.hasRoom cfg item then [] else [item]) := by
  cases hroom : g.server.1.hasRoom cfg item <;> simp [record, sent, refused, h, hroom]

/-- Only a worker's step moves an item from or to a worker. -/
theorem record_of_not_worker (cfg : Config B J) (g : Ingestion J) (p' : State J)
    (h : a.ofWorker = false) :
    (g.record cfg a p').taken = g.taken ∧ (g.record cfg a p').finished = g.finished := by
  cases a <;> simp_all [record, Act.ofWorker]

/-- The steps that a closed pool is left with leave the streams alone. -/
theorem streams_of_permits (hclosed : g.closed = true) (hperm : g.permits a = true)
    (hs : Server.step cfg g.server a = some p') :
    p'.1.streams = g.server.1.streams ∧ handedOver g.server.1 a = none := by
  cases a <;> simp only [permits, hclosed, Bool.not_true, Bool.false_eq_true] at hperm
  all_goals
    rcases step_streams hs rfl with heq | ⟨nodeId, ha, -⟩
    · exact ⟨heq, rfl⟩
    · exact absurd ha (by simp)

/-- A worker that has returned stays as it was. -/
theorem Sound.ended_act (h : g.Sound cfg workers) (hperm : g.permits a = true)
    (hs : Server.step cfg g.server a = some p') : ∀ w ∈ g.ended, g.closed = true ∧
      ∀ x, p'.1.shards[w]? = some x → x.queue = [] ∧ x.worker = .idle := by
  intro w hw
  obtain ⟨hclosed, hidle⟩ := h.ended w hw
  refine ⟨hclosed, fun x hx => ?_⟩
  obtain ⟨-, hnone⟩ := streams_of_permits hclosed hperm hs
  cases step_ingests h.faithful hs with
  | quiet hhand hother hshards => exact hidle x (hshards ▸ hx)
  | sent item y hhand => exact absurd (hnone.symm.trans hhand) (by simp)
  | refused item hhand => exact absurd (hnone.symm.trans hhand) (by simp)
  | taken v y item rest hy hyidle hqueue hshards =>
    rcases Machine.getElem?_set_cases (hshards ▸ hx) with ⟨rfl, -⟩ | ⟨-, hx⟩
    · exact absurd ((hidle y hy).1.symm.trans hqueue) (by simp)
    · exact hidle x hx
  | upserted v ok y item nowMs hy hworker hshards =>
    rcases Machine.getElem?_set_cases (hshards ▸ hx) with ⟨rfl, -⟩ | ⟨-, hx⟩
    · exact absurd ((hidle y hy).2.symm.trans hworker) (by simp)
    · exact hidle x hx
  | inserted v ok y item hy hitem hshards =>
    rcases Machine.getElem?_set_cases (hshards ▸ hx) with ⟨rfl, -⟩ | ⟨-, hx⟩
    · rw [(hidle y hy).2] at hitem
      exact absurd hitem (by simp [Worker.inserting?])
    · exact hidle x hx

/-- The record stays right when no item moves from or to a shard. -/
theorem Sound.of_shards_eq (h : g.Sound cfg workers)
    (hshards : g'.server.1.shards = g.server.1.shards) (hsent : g'.sent = g.sent)
    (htaken : g'.taken = g.taken) (hfinished : g'.finished = g.finished)
    (hdrops : g'.server.1.drops = g'.refused.length) (hfaithful : g'.server.1.FaithfulStreams)
    (hclosed : g'.closed = true → ∀ x ∈ g'.server.1.streams, x.isClosed = true)
    (hended : ∀ w ∈ g'.ended, g'.closed = true ∧
      ∀ x, g'.server.1.shards[w]? = some x → x.queue = [] ∧ x.worker = .idle) :
    g'.Sound cfg workers where
  count := hshards ▸ h.count
  faithful := hfaithful
  queued w x hx := by
    rw [hsent, htaken]
    exact h.queued w x (hshards ▸ hx)
  current w x hx := by
    rw [htaken, hfinished]
    exact h.current w x (hshards ▸ hx)
  taken_lt := htaken ▸ h.taken_lt
  finished_lt := hfinished ▸ h.finished_lt
  drops := hdrops
  closed := hclosed
  ended := hended

/-- A record that gets entries of a worker of the pool stays one of the pool. -/
theorem lt_of_mem_append {w : ℕ} {record : List (ℕ × IngestionItem J)} {items : List (IngestionItem J)}
    (hw : w < workers) (h : ∀ e ∈ record, e.1 < workers) :
    ∀ e ∈ record ++ items.map (w, ·), e.1 < workers := by
  intro e he
  rcases List.mem_append.mp he with he | he
  · exact h e he
  · obtain ⟨_, _, rfl⟩ := List.mem_map.mp he
    exact hw

/-- The record stays right when items move through one shard: `added` to its queue, `received` from
it and `done` by its worker. -/
theorem Sound.of_shards_set {w : ℕ} {y z : Shard J} (h : g.Sound cfg workers)
    (added received done : List (IngestionItem J)) (hy : g.server.1.shards[w]? = some y)
    (hshards : g'.server.1.shards = g.server.1.shards.set w z)
    (hsent : g'.sent = g.sent ++ added) (htarget : ∀ item ∈ added, target cfg workers item = w)
    (htaken : g'.taken = g.taken ++ received.map (w, ·))
    (hfinished : g'.finished = g.finished ++ done.map (w, ·))
    (hqueue : y.queue ++ added = received ++ z.queue)
    (hworker : y.worker.item?.toList ++ received = done ++ z.worker.item?.toList)
    (hdrops : g'.server.1.drops = g'.refused.length) (hfaithful : g'.server.1.FaithfulStreams)
    (hclosed : g'.closed = true → ∀ x ∈ g'.server.1.streams, x.isClosed = true)
    (hended : ∀ w ∈ g'.ended, g'.closed = true ∧
      ∀ x, g'.server.1.shards[w]? = some x → x.queue = [] ∧ x.worker = .idle) :
    g'.Sound cfg workers := by
  have hlt : w < workers := h.count ▸ (List.getElem?_eq_some_iff.mp hy).1
  refine ⟨?_, hfaithful, fun v x hx => ?_, fun v x hx => ?_, ?_, ?_, hdrops, hclosed, hended⟩
  · rw [hshards, List.length_set]
    exact h.count
  · rw [hsent, htaken, List.filter_append, byWorker_append, byWorker_entry]
    rcases Machine.getElem?_set_cases (hshards ▸ hx) with ⟨rfl, rfl⟩ | ⟨hne, hx⟩
    · have hall : added.filter (target cfg workers · = w) = added :=
        List.filter_eq_self.mpr fun item hitem => by simp [htarget item hitem]
      rw [if_pos rfl, hall, h.queued _ y hy, List.append_assoc, hqueue, List.append_assoc]
    · have hnone : added.filter (target cfg workers · = v) = [] :=
        List.filter_eq_nil_iff.mpr fun item hitem => by simp [htarget item hitem, hne]
      rw [if_neg hne, hnone, List.append_nil, List.append_nil]
      exact h.queued v x hx
  · rw [htaken, hfinished, byWorker_append, byWorker_append, byWorker_entry, byWorker_entry]
    rcases Machine.getElem?_set_cases (hshards ▸ hx) with ⟨rfl, rfl⟩ | ⟨hne, hx⟩
    · rw [if_pos rfl, if_pos rfl, h.current _ y hy, List.append_assoc, hworker, List.append_assoc]
    · rw [if_neg hne, if_neg hne, List.append_nil, List.append_nil]
      exact h.current v x hx
  · exact htaken ▸ lt_of_mem_append hlt h.taken_lt
  · exact hfinished ▸ lt_of_mem_append hlt h.finished_lt

/-- **A step of the server keeps the record right.** -/
theorem Sound.act (h : g.Sound cfg workers) (hperm : g.permits a = true)
    (hs : Server.step cfg g.server a = some p') : (g.record cfg a p').Sound cfg workers := by
  have hclosed : (g.record cfg a p').closed = true →
      ∀ x ∈ (g.record cfg a p').server.1.streams, x.isClosed = true := by
    intro hc x hx
    obtain ⟨hstreams, -⟩ := streams_of_permits (g := g) hc hperm hs
    exact h.closed hc x (hstreams ▸ hx)
  have hended := h.ended_act hperm hs
  have hfaithful := h.faithful.step hs
  cases step_ingests h.faithful hs with
  | quiet hhand hother hshards hdrops =>
    obtain ⟨hsent, hrefused⟩ := sent_record_none cfg p' hhand
    obtain ⟨htaken, hfinished⟩ := record_of_not_worker cfg g p' hother
    refine h.of_shards_eq hshards hsent htaken hfinished ?_ hfaithful hclosed hended
    rw [hrefused]
    exact hdrops.trans h.drops
  | sent item y hhand hother hroom hy hshards hdrops =>
    have htarget : g.server.1.shardOf cfg item.nodeId = target cfg workers item := by
      rw [Process.shardOf, h.count]
      rfl
    obtain ⟨hsent, hrefused⟩ := sent_record_some cfg p' hhand
    obtain ⟨htaken, hfinished⟩ := record_of_not_worker cfg g p' hother
    rw [hroom, if_pos rfl] at hsent
    rw [hroom, if_pos rfl, List.append_nil] at hrefused
    refine h.of_shards_set [item] [] [] hy hshards hsent ?_
      (htaken.trans (List.append_nil _).symm) (hfinished.trans (List.append_nil _).symm) rfl
      (List.append_nil _) ?_ hfaithful hclosed hended
    · intro item' hitem
      rw [List.mem_singleton.mp hitem]
      exact htarget.symm
    · rw [hrefused]
      exact hdrops.trans h.drops
  | refused item hhand hother hfull hshards hdrops =>
    obtain ⟨hsent, hrefused⟩ := sent_record_some cfg p' hhand
    obtain ⟨htaken, hfinished⟩ := record_of_not_worker cfg g p' hother
    rw [hfull] at hsent hrefused
    simp only [Bool.false_eq_true, if_false, List.append_nil] at hsent hrefused
    refine h.of_shards_eq hshards hsent htaken hfinished ?_ hfaithful hclosed hended
    rw [hrefused, List.length_append, List.length_singleton]
    exact hdrops.trans (congrArg (· + 1) h.drops)
  | taken w y item rest hy hyidle hqueue hshards hdrops =>
    obtain ⟨hsent, hrefused⟩ := sent_record_none (g := g) (a := .workerRecv w) cfg p' rfl
    have htaken : (g.record cfg (.workerRecv w : Act B) p').taken = g.taken ++ [item].map (w, ·) := by
      simp [record, hy, hqueue]
    refine h.of_shards_set [] [item] [] hy hshards (hsent.trans (List.append_nil _).symm)
      (fun _ hitem => absurd hitem List.not_mem_nil) htaken rfl ?_ ?_ ?_ hfaithful hclosed hended
    · rw [hqueue, List.append_nil]
      rfl
    · rw [hyidle]
      cases item <;> rfl
    · rw [hrefused]
      exact hdrops.trans h.drops
  | upserted w ok y item nowMs hy hworker hshards hdrops =>
    obtain ⟨hsent, hrefused⟩ := sent_record_none (g := g) (a := .workerUpsert w ok) cfg p' rfl
    refine h.of_shards_set [] [] [] hy hshards (hsent.trans (List.append_nil _).symm)
      (fun _ hitem => absurd hitem List.not_mem_nil) rfl rfl
      (List.append_nil _) ?_ ?_ hfaithful hclosed hended
    · rw [hworker]
      rfl
    · rw [hrefused]
      exact hdrops.trans h.drops
  | inserted w ok y item hy hitem hshards hdrops =>
    obtain ⟨hsent, hrefused⟩ := sent_record_none (g := g) (a := .workerInsert w ok) cfg p' rfl
    have hfinished : (g.record cfg (.workerInsert w ok : Act B) p').finished =
        g.finished ++ [item].map (w, ·) := by
      simp [record, hy, Worker.item?_of_inserting? hitem]
    refine h.of_shards_set [] [] [item] hy hshards (hsent.trans (List.append_nil _).symm)
      (fun _ hitem => absurd hitem List.not_mem_nil) rfl hfinished (List.append_nil _) ?_ ?_ hfaithful hclosed hended
    · rw [Worker.item?_of_inserting? hitem]
      rfl
    · rw [hrefused]
      exact hdrops.trans h.drops

theorem Sound.step {b : IngestionAct B} (h : g.Sound cfg workers) (hs : g.step cfg b = some g') :
    g'.Sound cfg workers := by
  cases b with
  | act a =>
    simp only [Ingestion.step, Option.ite_none_right_eq_some, Option.map_eq_some_iff] at hs
    obtain ⟨hperm, p', hstep, rfl⟩ := hs
    exact h.act hperm hstep
  | close =>
    simp only [Ingestion.step, Option.ite_none_right_eq_some, Option.some.injEq] at hs
    obtain ⟨hall, rfl⟩ := hs
    exact { h with
      closed := fun _ x hx => List.all_eq_true.mp hall x hx
      ended := fun w hw => ⟨rfl, (h.ended w hw).2⟩ }
  | finish w =>
    simp only [Ingestion.step, Option.bind_eq_bind, Option.bind_eq_some_iff] at hs
    obtain ⟨x, hx, hs⟩ := hs
    split at hs
    · rename_i hidle hqueue
      simp only [Option.ite_none_right_eq_some, Option.some.injEq] at hs
      obtain ⟨⟨hclosed, -⟩, rfl⟩ := hs
      refine { h with ended := fun v hv => ?_ }
      rcases List.mem_cons.mp hv with rfl | hv
      · refine ⟨hclosed, fun y hy => ?_⟩
        obtain rfl : x = y := Option.some.inj (hx.symm.trans hy)
        exact ⟨hqueue, hidle⟩
      · exact h.ended v hv
    · exact absurd hs (by simp)

end Steps

/-! ### The items of a node -/

section Node

variable {n : String}

/-- The items of a node that a record holds are those of the worker of the node. -/
theorem ofNode_record {record : List (ℕ × IngestionItem J)}
    (h : ∀ e ∈ record, e.1 = target cfg workers e.2) :
    ofNode n (record.map (·.2)) = ofNode n (byWorker (cfg.hash n % workers) record) := by
  rw [ofNode, ofNode, byWorker, List.filter_map, List.filter_map, List.filter_filter]
  congr 1
  refine List.filter_congr fun e he => ?_
  by_cases hn : e.2.nodeId = n
  · simp [hn, h e he, target]
  · simp [hn]

/-- What has been sent for a node has been sent to its worker. -/
theorem ofNode_sent (cfg : Config B J) (workers : ℕ) (items : List (IngestionItem J)) :
    ofNode n items = ofNode n (items.filter (target cfg workers · = cfg.hash n % workers)) := by
  rw [ofNode, ofNode, List.filter_filter]
  refine List.filter_congr fun item _ => ?_
  by_cases hn : item.nodeId = n
  · simp [hn, target]
  · simp [hn]

/-- What a worker has received was sent to it. -/
theorem Sound.taken_target (h : g.Sound cfg workers) :
    ∀ e ∈ g.taken, e.1 = target cfg workers e.2 := by
  rintro ⟨w, item⟩ he
  have hlt : w < g.server.1.shards.length := h.count.symm ▸ h.taken_lt _ he
  have hqueued := h.queued w _ (List.getElem?_eq_getElem hlt)
  have hsent : item ∈ g.sent.filter (target cfg workers · = w) :=
    hqueued ▸ List.mem_append_left _ (mem_byWorker.mpr he)
  have htarget : target cfg workers item = w := by simpa using List.of_mem_filter hsent
  exact htarget.symm

theorem Sound.finished_target (h : g.Sound cfg workers) :
    ∀ e ∈ g.finished, e.1 = target cfg workers e.2 := by
  rintro ⟨w, item⟩ he
  have hlt : w < g.server.1.shards.length := h.count.symm ▸ h.finished_lt _ he
  have hcurrent := h.current w _ (List.getElem?_eq_getElem hlt)
  have htaken : item ∈ byWorker w g.taken :=
    hcurrent ▸ List.mem_append_left _ (mem_byWorker.mpr he)
  exact h.taken_target (w, item) (mem_byWorker.mp htaken)

/-- What a node's worker has received, and its queue, is what was sent for the node. -/
theorem Sound.ofNode_taken (h : g.Sound cfg workers) {x : Shard J}
    (hx : g.server.1.shards[cfg.hash n % workers]? = some x) :
    ofNode n g.sent = ofNode n (g.taken.map (·.2)) ++ ofNode n x.queue := by
  rw [ofNode_sent cfg workers, h.queued _ x hx,
    ofNode_record h.taken_target]
  exact List.filter_append ..

/-- What a node's worker is done with, and the item it is at, is what it has received. -/
theorem Sound.ofNode_finished (h : g.Sound cfg workers) {x : Shard J}
    (hx : g.server.1.shards[cfg.hash n % workers]? = some x) :
    ofNode n (g.taken.map (·.2)) =
      ofNode n (g.finished.map (·.2)) ++ ofNode n x.worker.item?.toList := by
  rw [ofNode_record h.taken_target, h.current _ x hx, ofNode_record h.finished_target]
  exact List.filter_append ..

end Node

/-- **Ingestion keeps the order of every node's items and loses none silently.** In every run, with
any number of workers, the items of a node that workers have received, or are done with, are those
sent for it so far without the last ones, and all of them once nothing is queued; one worker has them
all; the drop counter counts the items that found no room, and nothing else; and a worker returns
with its queue empty. -/
theorem ingestion_in_order (cfg : Config B J) (db : Database J) (clock : Int64) (workers : ℕ)
    (hworkers : 1 ≤ workers) (as : List (IngestionAct B)) (g : Ingestion J)
    (hrun : Machine.run (step cfg) (start db clock workers) as = some g) :
    (∀ n, (∃ later, ofNode n g.sent = ofNode n (g.taken.map (·.2)) ++ later) ∧
      (∃ later, ofNode n g.sent = ofNode n (g.finished.map (·.2)) ++ later) ∧
      ((∀ x ∈ g.server.1.shards, x.queue = []) →
        ofNode n g.sent = ofNode n (g.taken.map (·.2))) ∧
      ((∀ x ∈ g.server.1.shards, x.queue = [] ∧ x.worker = .idle) →
        ofNode n g.sent = ofNode n (g.finished.map (·.2))) ∧
      ∀ e ∈ g.taken ++ g.finished, e.2.nodeId = n → e.1 = cfg.hash n % workers) ∧
    g.server.1.drops = g.refused.length ∧
    ∀ w ∈ g.ended, ∀ x, g.server.1.shards[w]? = some x → x.queue = [] := by
  have h : g.Sound cfg workers :=
    Machine.run_invariant (fun _ _ _ hI hs => hI.step hs) (sound_start cfg db clock workers) hrun
  refine ⟨fun n => ?_, h.drops, fun w hw x hx => ((h.ended w hw).2 x hx).1⟩
  have hlt : cfg.hash n % workers < g.server.1.shards.length := by
    rw [h.count]
    exact Nat.mod_lt _ hworkers
  have hx := List.getElem?_eq_getElem hlt
  have hmem := List.mem_of_getElem? hx
  have htaken := h.ofNode_taken hx
  have hfinished := h.ofNode_finished hx
  refine ⟨⟨_, htaken⟩, ?_, fun hempty => ?_, fun hidle => ?_, fun e he hn => ?_⟩
  · rw [htaken, hfinished, List.append_assoc]
    exact ⟨_, rfl⟩
  · rw [hempty _ hmem] at htaken
    rw [htaken]
    exact List.append_nil _
  · obtain ⟨hqueue, hworker⟩ := hidle _ hmem
    rw [hqueue] at htaken
    rw [hworker] at hfinished
    rw [htaken, hfinished]
    exact (List.append_nil _).trans (List.append_nil _)
  · have htarget : e.1 = target cfg workers e.2 := by
      rcases List.mem_append.mp he with he | he
      · exact h.taken_target e he
      · exact h.finished_target e he
    rw [htarget, target, hn]

/-- A node sends a snapshot and a probe result, the server shuts down, and its workers drain their
queues and return. -/
def drainRun : List (IngestionAct ℕ) :=
  [.act (.openStream "node-01"),
    .act (.receive 0 (.message (some (.stats ⟨"node-01", 5, 7⟩)))), .act (.enqueue 0),
    .act (.broadcast 0),
    .act (.receive 0 (.message (some (.probeResult ⟨"db:5432", true, 900, ""⟩)))),
    .act (.receive 0 .ended), .close, .act (.workerRecv 1), .act (.workerUpsert 1 true),
    .act (.workerInsert 1 true), .act (.workerRecv 1), .act (.workerInsert 1 true), .finish 1,
    .finish 0, .finish 2]

theorem ingestion_in_order_drainRun :
    ∃ g : Ingestion String, Machine.run (step .byText) (start .empty 0 3) drainRun = some g ∧
      g.ended = [2, 0, 1] ∧ g.sent.length = 2 ∧
      ofNode "node-01" g.sent = ofNode "node-01" (g.finished.map (·.2)) := by
  refine ⟨_, (Option.some_get (by decide)).symm, by decide, by decide, ?_⟩
  exact ((ingestion_in_order Config.byText .empty 0 3 (by decide) drainRun _
    (Option.some_get (by decide)).symm).1 "node-01").2.2.2.1 (by decide)

end Ingestion

end Hakuraku.Server

import Hakuraku.Server.Flow

/-!
# What becomes of a probe result

Reference: `pulse-server/src/grpc.rs`, the `ProbeResult` arm of `stream_telemetry`;
`pulse-server/src/state.rs`, `send_to_worker`; `pulse-server/src/main.rs`, the ingestion workers;
`pulse-server/src/db.rs`, `insert_probe_result`.

A probe result is handed to a worker in the step that receives it. It is no receipt of its node and
changes nothing in the registry, and its row needs the row of the node, which it does not create. All
the same its way has books like those of a snapshot (`Server.Inserts`): a step puts a probe result on
its way, stores one that was, or counts it as lost.

The row has what the message says: the latency is stored as a signed number, from which it can be
had again.
-/

namespace Hakuraku.Server

variable {B J : Type} {cfg : Config B J} {p p' : State J} {s s' : Process J} {a : Act B} {w : ℕ}

/-! ## Probe results on their way -/

/-- The item of a probe result that is received at some time. -/
def probeItem (nodeId : String) (probe : ProbeResult) (clock : Int64) : ProbeItem :=
  ⟨nodeId, probe.target, probe.success, probe.latencyUs.toInt64, probe.errorMessage, clock⟩

/-- The probe result that an item was. -/
def ProbeItem.result (item : ProbeItem) : ProbeResult :=
  ⟨item.target, item.success, item.latencyUs.toUInt64, item.errorMessage⟩

@[simp] theorem result_probeItem (nodeId : String) (probe : ProbeResult) (clock : Int64) :
    (probeItem nodeId probe clock).result = probe := by
  simp [probeItem, ProbeItem.result]

/-- The probe result in an ingestion item, if it is one. -/
def IngestionItem.probes : IngestionItem J → List ProbeItem
  | .stats _ => []
  | .probeResult item => [item]

/-- The probe result that a worker inserts. -/
def Worker.probes : Worker J → List ProbeItem
  | .probing item => [item]
  | _ => []

/-- The probe results with a worker. -/
def Shard.probes (x : Shard J) : Multiset ProbeItem :=
  ((x.worker.probes ++ x.queue.flatMap IngestionItem.probes : List ProbeItem) : Multiset ProbeItem)

/-- A worker goes on with the probe result that it had, or with none. -/
theorem Shard.probes_of_worker {x : Shard J} {worker : Worker J}
    (h : worker.probes = x.worker.probes) : ({ x with worker } : Shard J).probes = x.probes := by
  rw [Shard.probes, Shard.probes, h]

namespace Process

/-- The probe results on their way to the database. -/
def probes (s : Process J) : Multiset ProbeItem := (s.shards.map Shard.probes).sum

theorem probes_setShard_add {x y : Shard J} {m : Multiset ProbeItem} (h : s.shards[w]? = some x)
    (hy : y.probes = x.probes + m) : (s.setShard w y).probes = s.probes + m := by
  have hsum := Sums.sum_map_set Shard.probes y h
  rw [hy, add_comm x.probes, ← add_assoc] at hsum
  exact add_right_cancel hsum

theorem probes_setShard_sub {x y : Shard J} {m : Multiset ProbeItem} (h : s.shards[w]? = some x)
    (hx : x.probes = y.probes + m) : (s.setShard w y).probes + m = s.probes := by
  have hsum := Sums.sum_map_set Shard.probes y h
  rw [hx, add_comm y.probes, ← add_assoc] at hsum
  exact add_right_cancel hsum

theorem probes_setShard_of_eq {x y : Shard J} (h : s.shards[w]? = some x)
    (hy : y.probes = x.probes) : (s.setShard w y).probes = s.probes := by
  rw [probes_setShard_add h (hy.trans (add_zero _).symm), add_zero]

/-- An item that is handed over is with its worker from now on, or lost and counted. -/
theorem sendToWorker_probes {nodeId : String} {item : IngestionItem J}
    (h : s.sendToWorker cfg nodeId item = some s') :
    ∃ lost : Multiset ProbeItem,
      s'.probes + lost = s.probes + (item.probes : Multiset ProbeItem) ∧
      s.losses + lost.card ≤ s'.losses := by
  obtain ⟨x, hx, rfl⟩ := sendToWorker_iff.mp h
  split
  · refine ⟨0, (add_zero _).trans (probes_setShard_add hx ?_), le_rfl⟩
    simp [Shard.probes, ← Multiset.coe_add, add_assoc]
  · refine ⟨item.probes, rfl, ?_⟩
    have hcard : item.probes.length ≤ 1 := by cases item <;> simp [IngestionItem.probes]
    simp only [losses, Multiset.coe_card]
    omega

end Process

namespace Database

variable {db db' : Database J}

theorem insertSnapshot_probeResults {serde : Serde B J} {nodeId statsJson : String}
    {timestampMs : Int64} (h : db.insertSnapshot serde nodeId timestampMs statsJson = some db') :
    db'.probeResults = db.probeResults := by
  rw [insertSnapshot, Option.dite_none_right_eq_some] at h
  obtain ⟨_, h⟩ := h
  exact Option.some.inj h ▸ rfl

theorem insertProbeResult_probeResults {item : ProbeItem}
    (h : db.insertProbeResult item = some db') :
    db'.probeResults = db.probeResults ++ [item] := by
  rw [insertProbeResult, Option.dite_none_right_eq_some] at h
  obtain ⟨_, h⟩ := h
  exact Option.some.inj h ▸ rfl

end Database

/-! ## Books -/

/-- The probe results in the database and those on their way to it. -/
def probeStock (p : State J) : Multiset ProbeItem := p.2.probeResults + p.1.probes

/-- The item of the probe result that a step receives. -/
def probed (p : State J) : Act B → List ProbeItem
  | .receive i (.message (some (.probeResult probe))) =>
    p.1.streams[i]?.toList.map (probeItem ·.nodeId probe p.1.clock)
  | _ => []

/-- **What a step does to the stock.** It gains the probe result that is received, and what it loses
is counted. -/
theorem step_probeStock (h : step cfg p a = some p') :
    ∃ lost : Multiset ProbeItem, probeStock p' + lost = probeStock p + (probed p a : List ProbeItem) ∧
      p.1.losses + lost.card ≤ p'.1.losses := by
  obtain ⟨s, db⟩ := p
  -- steps that move no probe result
  have hsame : ∀ {p' : State J} {a : Act B}, p'.2.probeResults = db.probeResults →
      p'.1.probes = s.probes → s.losses ≤ p'.1.losses → probed (s, db) a = [] →
      ∃ lost : Multiset ProbeItem,
        probeStock p' + lost = probeStock (s, db) + (probed (s, db) a : List ProbeItem) ∧
        s.losses + lost.card ≤ p'.1.losses := fun htable hprobes hloss hprobed =>
    ⟨0, by rw [probeStock, probeStock, htable, hprobes, hprobed]; rfl, hloss⟩
  cases a with
  | receive i inbound =>
    obtain ⟨x, hx, -, s', hs', rfl⟩ := step_receive_iff.mp h
    by_cases hprobe : ∃ probe, inbound = .message (some (.probeResult probe))
    · obtain ⟨probe, rfl⟩ := hprobe
      obtain ⟨lost, hprobes, hloss⟩ := Process.sendToWorker_probes hs'
      refine ⟨lost, ?_, hloss⟩
      have hprobed : probed (s, db) (.receive (B := B) i (.message (some (.probeResult probe)))) =
          [probeItem x.nodeId probe s.clock] := by simp [probed, hx]
      rw [hprobed, probeStock, probeStock, add_assoc, hprobes, add_assoc]
      rfl
    · have hnone : probed (s, db) (.receive i inbound) = [] := by
        rcases inbound with (_ | stats | hb | probe) | _ | _ <;>
          first | rfl | exact absurd ⟨probe, rfl⟩ hprobe
      rcases Process.receive_cases hs' with
        rfl | rfl | ⟨stats, statsJson, -, -, -, rfl⟩ | ⟨hb, -, -, rfl⟩ | ⟨probe, hinbound, -⟩
      · exact hsame rfl rfl le_rfl hnone
      · exact hsame rfl rfl le_rfl hnone
      · exact hsame rfl rfl le_rfl hnone
      · exact hsame rfl rfl le_rfl hnone
      · exact absurd ⟨probe, hinbound⟩ hprobe
  | enqueue i =>
    obtain ⟨x, hx, item, -, s', hs', rfl⟩ := step_enqueue_iff.mp h
    obtain ⟨lost, hprobes, hloss⟩ := Process.sendToWorker_probes hs'
    refine ⟨lost, ?_, hloss⟩
    rw [probeStock, probeStock, add_assoc, add_assoc]
    exact congrArg _ hprobes
  | workerRecv w =>
    obtain ⟨x, hx, hidle, item, rest, hqueue, rfl⟩ := step_workerRecv_iff.mp h
    refine hsame rfl (Process.probes_setShard_of_eq hx ?_) le_rfl rfl
    cases item <;> simp [Shard.probes, hidle, hqueue, Worker.start, Worker.probes,
      IngestionItem.probes]
  | workerUpsert w ok =>
    obtain ⟨x, hx, item, nowMs, hworker, rfl⟩ := step_workerUpsert_iff.mp h
    have hprobes : ({ x with worker := .inserting item } : Shard J).probes = x.probes :=
      Shard.probes_of_worker (by rw [hworker]; rfl)
    cases ok with
    | true => exact hsame rfl (Process.probes_setShard_of_eq hx hprobes) le_rfl rfl
    | false =>
      exact hsame rfl (Process.probes_setShard_of_eq (s := s.failed) hx hprobes)
        (Nat.le_succ _) rfl
  | workerInsert w ok =>
    obtain ⟨x, hx, hcases⟩ := step_workerInsert_cases h
    have hdone : ∀ {item : ProbeItem}, x.worker = .probing item →
        x.probes = ({ x with worker := .idle } : Shard J).probes + {item} := fun hworker => by
      rw [Shard.probes, Shard.probes, hworker, add_comm]
      rfl
    rcases hcases with
      ⟨item, hworker, ⟨db', hdb', rfl⟩ | rfl⟩ | ⟨item, hworker, ⟨db', hdb', rfl⟩ | rfl⟩
    · exact hsame (Database.insertSnapshot_probeResults hdb') (Process.probes_setShard_of_eq hx
        (Shard.probes_of_worker (by rw [hworker]; rfl))) le_rfl rfl
    · exact hsame rfl (Process.probes_setShard_of_eq (s := s.failed) hx
        (Shard.probes_of_worker (by rw [hworker]; rfl))) (Nat.le_succ _) rfl
    · -- the row moves from the worker to the table
      refine ⟨0, ?_, le_rfl⟩
      have hmove := Process.probes_setShard_sub (y := { x with worker := .idle })
        (m := ({item} : Multiset ProbeItem)) hx (hdone hworker)
      rw [probeStock, probeStock, Database.insertProbeResult_probeResults hdb', ← hmove,
        ← Multiset.coe_add]
      simp only [probed, Multiset.coe_nil, add_zero, Multiset.coe_singleton]
      rw [add_assoc]
      exact congrArg _ (add_comm _ _)
    · have hmove := Process.probes_setShard_sub (s := s.failed) (y := { x with worker := .idle })
        (m := ({item} : Multiset ProbeItem)) hx (hdone hworker)
      refine ⟨{item}, ?_, by rw [Multiset.card_singleton]; exact le_rfl⟩
      rw [probeStock, probeStock, add_assoc, hmove]
      exact (add_zero _).symm
  | persist ok =>
    obtain ⟨nowMs, transition, rest, -, rfl⟩ := step_persist_iff.mp h
    cases ok with
    | true => exact hsame rfl rfl le_rfl rfl
    | false => exact hsame rfl rfl (Nat.le_succ _) rfl
  | wait now =>
    obtain ⟨-, rfl⟩ := step_wait_iff.mp h
    exact hsame rfl rfl le_rfl rfl
  | openStream nodeId =>
    obtain rfl := step_openStream_iff.mp h
    exact hsame rfl rfl le_rfl rfl
  | broadcast i =>
    obtain ⟨x, -, update, -, rfl⟩ := step_broadcast_iff.mp h
    exact hsame rfl rfl le_rfl rfl
  | ack i ok =>
    obtain ⟨x, -, nowMs, -, rfl⟩ := step_ack_iff.mp h
    exact hsame rfl rfl le_rfl rfl
  | tick =>
    obtain ⟨-, rfl⟩ := step_tick_iff.mp h
    exact hsame rfl rfl le_rfl rfl
  | visit n =>
    obtain ⟨now, due, visited, transitions, node, -, -, -, rfl⟩ := step_visit_iff.mp h
    exact hsame rfl rfl le_rfl rfl
  | scanned =>
    obtain ⟨now, due, visited, transitions, -, -, rfl⟩ := step_scanned_iff.mp h
    exact hsame rfl rfl le_rfl rfl
  | announce =>
    obtain ⟨transition, rest, -, rfl⟩ := step_announce_iff.mp h
    exact hsame rfl rfl le_rfl rfl

/-- What a step receives is a message that arrives. -/
theorem result_of_probed {item : ProbeItem} (h : item ∈ probed p a) :
    ∃ i probe, a = .receive i (.message (some (.probeResult probe))) ∧ item.result = probe := by
  unfold probed at h
  split at h
  · rename_i i probe
    obtain ⟨x, -, rfl⟩ := List.mem_map.mp h
    exact ⟨i, probe, rfl, result_probeItem _ _ _⟩
  · exact absurd h List.not_mem_nil

theorem probes_boot (db : Database J) (clock : Int64) : (Process.boot db clock).probes = 0 := by
  simp [Process.probes, Process.boot, workerCount, Shard.probes, Worker.probes]

end Hakuraku.Server

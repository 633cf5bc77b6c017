import Hakuraku.Server.Latest

/-!
# What becomes of an accepted snapshot

Reference: `pulse-server/src/grpc.rs`, `stream_telemetry`; `pulse-server/src/state.rs`,
`send_to_worker`; `pulse-server/src/main.rs`, the ingestion workers; `pulse-server/src/db.rs`,
`insert_snapshot`.

The way of an accepted `Stats` to the database is seen as the way of the row that it becomes. `stock`
are the rows in the database and those on their way to it. A step either keeps the stock, takes an
accepted item into it, or loses one item and counts it, as `INGESTION_DROPS` or as `DB_ERRORS`.
-/

namespace Hakuraku.Server

variable {B J : Type} {cfg : Config B J} {p p' : State J} {s s' : Process J} {a : Act B} {w : ℕ}

/-- The rows in the database and those on their way to it. -/
def stock (cfg : Config B J) (p : State J) : Multiset (Snapshot J) :=
  p.2.snapshots + p.1.uninserted.map (·.snapshot cfg)

/-- A message that is accepted adds its item. -/
theorem Process.coe_accepted {r : Receipt J} (h : s'.receipts = s.receipts ++ [r]) :
    (s'.accepted : Multiset (StatsItem J)) = s.accepted + (r.item.toList : Multiset (StatsItem J)) := by
  rw [accepted_append h, Multiset.coe_add]

/-- The item an insert loses is the one in the worker's hands. -/
theorem Process.uninserted_setShard_idle {x : Shard J} (hx : s.shards[w]? = some x) :
    (s.setShard w { x with worker := .idle }).uninserted + x.worker.uninserted = s.uninserted := by
  refine items_setShard_sub hx ?_
  rw [Shard.uninserted, Shard.uninserted]
  exact congrArg (· + _) (add_zero _).symm

/-- **A step that counts a loss loses at most one item**, and stores and accepts nothing. -/
theorem step_lost (h : step cfg p a = some p') (hloss : p.1.losses < p'.1.losses) :
    p'.1.receipts = p.1.receipts ∧ p'.2.snapshots = p.2.snapshots ∧
      ∃ lost : Multiset (StatsItem J), p'.1.uninserted + lost = p.1.uninserted ∧ lost.card ≤ 1 := by
  obtain ⟨s, db⟩ := p
  have hsame : ∀ {p' : State J}, p'.1.receipts = s.receipts → p'.2.snapshots = db.snapshots →
      p'.1.uninserted = s.uninserted → p'.1.receipts = s.receipts ∧
        p'.2.snapshots = db.snapshots ∧
        ∃ lost : Multiset (StatsItem J), p'.1.uninserted + lost = s.uninserted ∧ lost.card ≤ 1 :=
    fun hr hs hu => ⟨hr, hs, 0, (add_zero _).trans hu, Nat.zero_le _⟩
  cases a with
  | receive i inbound =>
    obtain ⟨x, hx, -, s', hs', rfl⟩ := step_receive_iff.mp h
    rcases Process.receive_cases hs' with
      rfl | rfl | ⟨stats, statsJson, rfl, -, -, rfl⟩ | ⟨hb, rfl, -, rfl⟩ | ⟨probe, rfl, hitem⟩
    · exact absurd hloss (lt_irrefl _)
    · exact absurd hloss (lt_irrefl _)
    · exact absurd hloss (lt_irrefl _)
    · exact absurd hloss (lt_irrefl _)
    · rcases Process.sendToWorker_flow hitem with rfl | ⟨⟨shards, rfl⟩, -, -⟩
      · exact hsame rfl rfl rfl
      · exact absurd hloss (lt_irrefl _)
  | enqueue i =>
    obtain ⟨x, hx, item, hphase, s', hs', rfl⟩ := step_enqueue_iff.mp h
    rcases Process.sendToWorker_flow hs' with rfl | ⟨⟨shards, rfl⟩, -, -⟩
    · have hset := Process.items_setStream (g := Shard.uninserted)
        (s := { s with drops := s.drops + 1 })
        (y := { x with phase := .queued ⟨x.nodeId, item.timestampMs, item.statsJson⟩ }) hx
      have hitem : x.item = {item} := by rw [Stream.item, hphase]
      exact ⟨rfl, rfl, x.item, hset.trans (add_zero _), by rw [hitem, Multiset.card_singleton]⟩
    · exact absurd hloss (lt_irrefl _)
  | workerUpsert w ok =>
    obtain ⟨x, hx, item, nowMs, hworker, rfl⟩ := step_workerUpsert_iff.mp h
    cases ok with
    | true => exact absurd hloss (lt_irrefl _)
    | false =>
      refine hsame rfl rfl (Process.items_setShard_of_eq (s := s.failed) hx ?_)
      rw [Shard.uninserted, Shard.uninserted, hworker]
      rfl
  | workerInsert w ok =>
    obtain ⟨x, hx, hcases⟩ := step_workerInsert_cases h
    have hlost := Process.uninserted_setShard_idle (s := s.failed) hx
    rcases hcases with
      ⟨item, hworker, ⟨db', hdb', rfl⟩ | rfl⟩ | ⟨item, hworker, ⟨db', hdb', rfl⟩ | rfl⟩
    · exact absurd hloss (lt_irrefl _)
    · exact ⟨rfl, rfl, _, hlost, by simp [hworker, Worker.uninserted]⟩
    · exact absurd hloss (lt_irrefl _)
    · exact ⟨rfl, rfl, _, hlost, by simp [hworker, Worker.uninserted]⟩
  | persist ok =>
    obtain ⟨nowMs, transition, rest, hupsert, rfl⟩ := step_persist_iff.mp h
    cases ok with
    | true => exact absurd hloss (lt_irrefl _)
    | false => exact hsame rfl rfl rfl
  | wait now =>
    obtain ⟨-, rfl⟩ := step_wait_iff.mp h
    exact absurd hloss (lt_irrefl _)
  | openStream nodeId =>
    obtain rfl := step_openStream_iff.mp h
    exact absurd hloss (lt_irrefl _)
  | broadcast i =>
    obtain ⟨x, -, update, -, rfl⟩ := step_broadcast_iff.mp h
    exact absurd hloss (lt_irrefl _)
  | ack i ok =>
    obtain ⟨x, -, nowMs, -, rfl⟩ := step_ack_iff.mp h
    cases ok <;> exact absurd hloss (lt_irrefl _)
  | workerRecv w =>
    obtain ⟨x, -, -, item, rest, -, rfl⟩ := step_workerRecv_iff.mp h
    exact absurd hloss (lt_irrefl _)
  | tick =>
    obtain ⟨-, rfl⟩ := step_tick_iff.mp h
    exact absurd hloss (lt_irrefl _)
  | visit n =>
    obtain ⟨now, due, visited, transitions, node, -, -, -, rfl⟩ := step_visit_iff.mp h
    exact absurd hloss (lt_irrefl _)
  | scanned =>
    obtain ⟨now, due, visited, transitions, -, -, rfl⟩ := step_scanned_iff.mp h
    exact absurd hloss (lt_irrefl _)
  | announce =>
    obtain ⟨transition, rest, -, rfl⟩ := step_announce_iff.mp h
    exact absurd hloss (lt_irrefl _)

/-- **What a step does to the stock.** It gains the row of every accepted item, and what it loses is
counted. -/
theorem step_stock (h : step cfg p a = some p') :
    ∃ items lost : Multiset (StatsItem J), (p'.1.accepted : Multiset (StatsItem J)) = p.1.accepted + items ∧
      stock cfg p' + lost.map (·.snapshot cfg) =
        stock cfg p + items.map (·.snapshot cfg) ∧
      p.1.losses + lost.card ≤ p'.1.losses := by
  have hsame : p'.1.receipts = p.1.receipts →
      (p'.1.accepted : Multiset (StatsItem J)) = p.1.accepted + 0 := fun hr => by
    rw [add_zero, Process.accepted_congr hr]
  cases step_flow h with
  | quiet _ hreceipts _ _ huninserted hloss _ hsnapshots =>
    exact ⟨0, 0, hsame hreceipts, by rw [stock, stock, huninserted, hsnapshots], hloss.ge⟩
  | lost hloss =>
    obtain ⟨hreceipts, hsnapshots, lost, huninserted, hcard⟩ := step_lost h hloss
    refine ⟨0, lost, hsame hreceipts, ?_, by omega⟩
    rw [stock, stock, ← huninserted, hsnapshots, Multiset.map_add, Multiset.map_zero, add_zero,
      add_assoc]
  | stats item _ _ _ _ hreceipts _ _ huninserted hloss hdb =>
    refine ⟨{item}, 0, Process.coe_accepted hreceipts, ?_, hloss.ge⟩
    rw [stock, stock, huninserted, hdb, Multiset.map_add, Multiset.map_zero, add_zero, add_assoc]
  | heartbeat _ _ _ _ _ _ hreceipts _ _ huninserted hloss hdb =>
    refine ⟨0, 0, Process.coe_accepted hreceipts, ?_, hloss.ge⟩
    rw [stock, stock, huninserted, hdb]
  | upserted _ _ _ hreceipts _ _ huninserted hloss hdb =>
    refine ⟨0, 0, hsame hreceipts, ?_, hloss.ge⟩
    rw [stock, stock, huninserted, hdb]
    rfl
  | inserted item _ hreceipts _ _ huninserted hloss hdb =>
    refine ⟨0, 0, hsame hreceipts, ?_, hloss.ge⟩
    -- the row moves from those on their way to those in the table
    rw [stock, stock, ← huninserted, (Database.insertSnapshot_eq hdb).2, ← Multiset.coe_add,
      Multiset.map_add, Multiset.map_singleton, ← add_assoc, Multiset.map_zero]
    exact congrArg (· + 0) (add_right_comm _ _ _)
  | visit _ _ _ _ _ hreceipts _ _ huninserted hloss hdb =>
    refine ⟨0, 0, hsame hreceipts, ?_, hloss.ge⟩
    rw [stock, stock, huninserted, hdb]
  | persisted _ _ _ _ _ _ hreceipts _ _ huninserted hloss hdb =>
    refine ⟨0, 0, hsame hreceipts, ?_, hloss.ge⟩
    rw [stock, stock, huninserted, hdb]
    rfl

/-- The accounts of a run that began in state `p`: the stock has grown by the rows of the accepted
items, but for lost ones that have been counted. -/
def Accounted (cfg : Config B J) (p t : State J) : Prop :=
  ∃ items lost : Multiset (StatsItem J), (t.1.accepted : Multiset (StatsItem J)) = p.1.accepted + items ∧
    stock cfg t + lost.map (·.snapshot cfg) = stock cfg p + items.map (·.snapshot cfg) ∧
    p.1.losses + lost.card ≤ t.1.losses

theorem Accounted.refl (cfg : Config B J) (p : State J) : Accounted cfg p p :=
  ⟨0, 0, (add_zero _).symm, rfl, le_rfl⟩

theorem Accounted.trans {t : State J} (h : Accounted cfg p p') (h' : Accounted cfg p' t) :
    Accounted cfg p t := by
  obtain ⟨items, lost, hacc, hstock, hloss⟩ := h
  obtain ⟨items', lost', hacc', hstock', hloss'⟩ := h'
  refine ⟨items + items', lost + lost', by rw [hacc', hacc, add_assoc], ?_, ?_⟩
  · calc stock cfg t + (lost + lost').map (·.snapshot cfg)
        = stock cfg t + lost'.map (·.snapshot cfg) + lost.map (·.snapshot cfg) := by
          rw [add_comm lost, Multiset.map_add, add_assoc]
      _ = stock cfg p' + lost.map (·.snapshot cfg) + items'.map (·.snapshot cfg) := by
          rw [hstock', add_right_comm]
      _ = stock cfg p + (items + items').map (·.snapshot cfg) := by
          rw [hstock, Multiset.map_add, add_assoc]
  · rw [Multiset.card_add]
    omega

theorem accounted_of_run {as : List (Act B)} {t : State J}
    (hrun : Machine.run (step cfg) p as = some t) : Accounted cfg p t :=
  Machine.run_invariant (I := Accounted cfg p)
    (fun _ _ _ h hs => h.trans (step_stock hs)) (.refl _ _) hrun

theorem uninserted_boot (db : Database J) (clock : Int64) :
    (Process.boot db clock).uninserted = 0 := by
  simp [Process.uninserted, Process.items, Process.boot, workerCount, Shard.uninserted, statsItems,
    Worker.uninserted]

end Hakuraku.Server

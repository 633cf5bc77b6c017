import Hakuraku.Server.Ingestion

/-!
# The foreign keys of snapshots and probe results

Reference: `pulse-server/src/main.rs`, the ingestion workers; `pulse-server/src/grpc.rs`,
`stream_telemetry`; `pulse-server/src/db.rs`, `insert_snapshot` and `insert_probe_result`;
`pulse-server/migrations/001_init.sql`.

A row of `nodes` is created by the `upsert_node` before the snapshot of a `Stats` item. A probe result
is inserted without it, although its table refers to `nodes` as well. So a probe result is stored only
if its node has a row by then: because it had one when the result arrived, or because a `Stats` item
of the node was queued before it (`Covered`).
-/

namespace Hakuraku.Server

variable {B J : Type} {cfg : Config B J}

/-- The database does not fail in the step. That includes a statement that PostgreSQL refuses for its
content, such as a text with the character U+0000. -/
def Act.dbUp : Act B → Bool
  | .workerUpsert _ ok | .workerInsert _ ok | .persist ok => ok
  | _ => true

/-- The worker is about to create the row of the node. -/
def Worker.upserts (n : String) : Worker J → Bool
  | .upserting item _ => item.nodeId = n
  | _ => false

/-- The worker will create the row of the node before it is through with its queue. -/
def Shard.willUpsert (x : Shard J) (n : String) : Bool :=
  x.worker.upserts n || (x.queue.filterMap IngestionItem.stats?).any (·.nodeId = n)

/-- The item is a probe result. -/
def IngestionItem.isProbe : IngestionItem J → Bool
  | .stats _ => false
  | .probeResult _ => true

/-- The item is in its table. -/
def IngestionItem.Stored (serde : Serde B J) (db : Database J) : IngestionItem J → Prop
  | .stats item => ⟨item.nodeId, item.timestampMs, Database.stored serde item.statsStr⟩ ∈ db.snapshots
  | .probeResult item => item ∈ db.probeResults

/-! ## The order within a queue -/

/-- Every probe result of the queue is of a known node or comes after a snapshot of its node. -/
def Covered (known : String → Prop) : List (IngestionItem J) → Prop
  | [] => True
  | .stats item :: rest => Covered (fun n => known n ∨ n = item.nodeId) rest
  | .probeResult item :: rest => known item.nodeId ∧ Covered known rest

theorem Covered.mono {known known' : String → Prop} {queue : List (IngestionItem J)}
    (h : Covered known queue) (himp : ∀ n, known n → known' n) : Covered known' queue := by
  induction queue generalizing known known' with
  | nil => trivial
  | cons item queue ih =>
    cases item with
    | stats item => exact ih h fun n hn => hn.imp (himp n) id
    | probeResult item => exact ⟨himp _ h.1, ih h.2 himp⟩

/-- An item may be added that creates its row, or whose row will be there. -/
theorem Covered.append {known : String → Prop} {queue : List (IngestionItem J)}
    {item : IngestionItem J} (h : Covered known queue)
    (hitem : ∀ probe, item = .probeResult probe →
      known probe.nodeId ∨ ∃ stats, .stats stats ∈ queue ∧ stats.nodeId = probe.nodeId) :
    Covered known (queue ++ [item]) := by
  induction queue generalizing known with
  | nil =>
    cases item with
    | stats item => trivial
    | probeResult probe =>
      refine ⟨(hitem probe rfl).resolve_right ?_, trivial⟩
      rintro ⟨stats, hmem, -⟩
      exact absurd hmem List.not_mem_nil
  | cons first queue ih =>
    cases first with
    | stats first =>
      refine ih h fun probe hprobe => ?_
      rcases hitem probe hprobe with hknown | ⟨stats, hmem, hid⟩
      · exact .inl (.inl hknown)
      · rcases List.mem_cons.mp hmem with heq | hmem
        · obtain rfl := IngestionItem.stats.inj heq
          exact .inl (.inr hid.symm)
        · exact .inr ⟨stats, hmem, hid⟩
    | probeResult first =>
      refine ⟨h.1, ih h.2 fun probe hprobe => (hitem probe hprobe).imp id ?_⟩
      rintro ⟨stats, hmem, hid⟩
      exact ⟨stats, (List.mem_cons.mp hmem).resolve_left (by simp), hid⟩

/-! ## What the workers find -/

/-- A worker finds the rows of the items that it inserts. -/
structure Shard.RowsReady (db : Database J) (x : Shard J) : Prop where
  current : ∀ item ∈ x.worker.inserting?, item.nodeId ∈ db.nodes
  queue : Covered (fun n => n ∈ db.nodes ∨ x.worker.upserts n = true) x.queue

/-- Every worker finds its rows. -/
def RowsReady (p : State J) : Prop := ∀ x ∈ p.1.shards, x.RowsReady p.2

theorem Shard.RowsReady.mono {db db' : Database J} {x : Shard J} (h : x.RowsReady db)
    (hrows : ∀ n ∈ db.nodes, n ∈ db'.nodes) : x.RowsReady db' :=
  ⟨fun item hitem => hrows _ (h.current item hitem),
    h.queue.mono fun n hn => hn.imp (hrows n) id⟩

/-- A worker that will create the row is at it, or finds a snapshot of the node in its queue. -/
theorem Shard.willUpsert_iff {x : Shard J} {n : String} : x.willUpsert n = true ↔
    x.worker.upserts n = true ∨ ∃ item, .stats item ∈ x.queue ∧ item.nodeId = n := by
  rw [willUpsert, Bool.or_eq_true, List.any_eq_true]
  refine or_congr_right (exists_congr fun item => ?_)
  rw [List.mem_filterMap, decide_eq_true_eq]
  refine and_congr_left fun _ => ⟨?_, fun hmem => ⟨_, hmem, rfl⟩⟩
  rintro ⟨item', hmem, heq⟩
  cases item' with
  | stats item' => exact Option.some.inj heq ▸ hmem
  | probeResult probe => exact absurd heq (by simp [IngestionItem.stats?])

section Steps

variable {p p' : State J} {a : Act B}

/-- One worker changes, and the rows stay. -/
theorem RowsReady.set {w : ℕ} {y : Shard J} (h : RowsReady p)
    (hrows : ∀ n ∈ p.2.nodes, n ∈ p'.2.nodes) (hy : y.RowsReady p'.2)
    (hshards : p'.1.shards = p.1.shards.set w y) : RowsReady p' := by
  intro z hz
  rcases List.mem_or_eq_of_mem_set (hshards ▸ hz) with hz | rfl
  · exact (h z hz).mono hrows
  · exact hy

/-- The guard: a probe result is handed over only if its node has a row, or the worker will create it
first. -/
def RowFirst (cfg : Config B J) (p : State J) (a : Act B) : Prop :=
  ∀ item ∈ handedOver p.1 a, item.isProbe = true → item.nodeId ∈ p.2.nodes ∨
    ∃ y ∈ p.1.shards[p.1.shardOf cfg item.nodeId]?, y.willUpsert item.nodeId = true

/-- **Guarded steps keep the rows ready.** -/
theorem RowsReady.step (h : RowsReady p) (hfaithful : p.1.FaithfulStreams) (hup : a.dbUp = true)
    (hguard : RowFirst cfg p a) (hs : step cfg p a = some p') : RowsReady p' := by
  cases step_ingests hfaithful hs with
  | quiet hhand hother hshards hdrops hrows =>
    exact fun x hx => (h x (hshards ▸ hx)).mono hrows
  | sent item y hhand hother hroom hy hshards hdrops hdb =>
    have hready := h y (List.mem_of_getElem? hy)
    refine h.set (by rw [hdb]; exact fun _ hn => hn) ?_ hshards
    rw [hdb]
    refine ⟨hready.current, hready.queue.append ?_⟩
    rintro probe rfl
    rcases hguard _ hhand rfl with hrow | ⟨z, hz, hwill⟩
    · exact .inl (.inl hrow)
    · obtain rfl : y = z := Option.some.inj (hy.symm.trans hz)
      exact (Shard.willUpsert_iff.mp hwill).imp .inr id
  | refused item hhand hother hfull hshards hdrops hdb =>
    exact fun x hx => (h x (hshards ▸ hx)).mono (by rw [hdb]; exact fun _ hn => hn)
  | taken w y item rest hy hidle hqueue hshards hdrops hdb =>
    have hready := h y (List.mem_of_getElem? hy)
    have hcovered := hready.queue
    rw [hqueue] at hcovered
    have hknown : ∀ n, n ∈ p.2.nodes ∨ y.worker.upserts n = true → n ∈ p.2.nodes := fun n hn =>
      hn.resolve_right (by simp [hidle, Worker.upserts])
    refine h.set (by rw [hdb]; exact fun _ hn => hn) ?_ hshards
    rw [hdb]
    cases item with
    | stats item =>
      refine ⟨fun item hitem => absurd hitem (by simp [Worker.start, Worker.inserting?]), ?_⟩
      refine Covered.mono hcovered fun n hn => ?_
      rcases hn with hn | rfl
      · exact .inl (hknown n hn)
      · exact .inr (by simp [Worker.start, Worker.upserts])
    | probeResult item =>
      refine ⟨fun item' hitem => ?_, Covered.mono hcovered.2 fun n hn => .inl (hknown n hn)⟩
      obtain rfl := Option.some.inj hitem
      exact hknown _ hcovered.1
  | upserted w ok y item nowMs hy hworker hshards hdrops hdb =>
    have hready := h y (List.mem_of_getElem? hy)
    obtain rfl : ok = true := hup
    have hrow : item.nodeId ∈ p'.2.nodes := by
      rw [hdb]
      exact (AList.mem_insert _).mpr (.inl rfl)
    have hrows : ∀ n ∈ p.2.nodes, n ∈ p'.2.nodes := by
      rw [hdb]
      exact fun n hn => Database.mem_upsertNode hn
    refine h.set hrows ?_ hshards
    refine ⟨fun item' hitem => ?_, hready.queue.mono fun n hn => ?_⟩
    · obtain rfl := Option.some.inj hitem
      exact hrow
    · rcases hn with hn | hn
      · exact .inl (hrows n hn)
      · have hid : item.nodeId = n := by simpa [hworker, Worker.upserts] using hn
        exact .inl (hid ▸ hrow)
  | inserted w ok y item hy hitem hshards hdrops hrows =>
    have hready := h y (List.mem_of_getElem? hy)
    have hsame : ∀ n ∈ p.2.nodes, n ∈ p'.2.nodes := by
      rw [hrows]
      exact fun _ hn => hn
    refine h.set hsame ?_ hshards
    refine ⟨fun item' hitem' => absurd hitem' (by simp [Worker.inserting?]),
      hready.queue.mono fun n hn => .inl ?_⟩
    refine hsame n (hn.resolve_right ?_)
    cases hworker : y.worker <;> simp [hworker, Worker.inserting?, Worker.upserts] at hitem ⊢

end Steps

/-! ## What is stored -/

/-- A worker's insert finds the row of its node. -/
def HasRow (p : State J) : Act B → Prop
  | .workerInsert w _ => ∀ x ∈ p.1.shards[w]?, ∀ item ∈ x.worker.inserting?, item.nodeId ∈ p.2.nodes
  | _ => True

/-- What is in the tables of the first database is in those of the second. -/
structure Database.Grows (db db' : Database J) : Prop where
  snapshots : ∀ s ∈ db.snapshots, s ∈ db'.snapshots
  probeResults : ∀ r ∈ db.probeResults, r ∈ db'.probeResults

theorem Database.Grows.refl (db : Database J) : db.Grows db := ⟨fun _ => id, fun _ => id⟩

theorem Database.grows_insertSnapshot {serde : Serde B J} {db db' : Database J}
    {nodeId statsJson : String} {timestampMs : Int64}
    (h : db.insertSnapshot serde nodeId timestampMs statsJson = some db') : db.Grows db' := by
  rw [insertSnapshot, Option.dite_none_right_eq_some] at h
  obtain ⟨_, h⟩ := h
  obtain rfl := Option.some.inj h
  exact ⟨fun _ hs => List.mem_append_left _ hs, fun _ => id⟩

theorem Database.grows_insertProbeResult {db db' : Database J} {item : ProbeItem}
    (h : db.insertProbeResult item = some db') : db.Grows db' := by
  rw [insertProbeResult, Option.dite_none_right_eq_some] at h
  obtain ⟨_, h⟩ := h
  obtain rfl := Option.some.inj h
  exact ⟨fun _ => id, fun _ hr => List.mem_append_left _ hr⟩

/-- Nothing is removed from the tables. -/
theorem step_grows {p p' : State J} {a : Act B} (hs : step cfg p a = some p') : p.2.Grows p'.2 := by
  cases hwrites : a.writesDb with
  | false => exact step_db_eq hs hwrites ▸ .refl p.2
  | true =>
    obtain ⟨s, db⟩ := p
    cases a with
    | workerUpsert w ok =>
      obtain ⟨x, -, item, nowMs, -, rfl⟩ := step_workerUpsert_iff.mp hs
      cases ok <;> exact ⟨fun _ => id, fun _ => id⟩
    | workerInsert w ok =>
      obtain ⟨x, -, hcases⟩ := step_workerInsert_cases hs
      rcases hcases with ⟨item, -, ⟨db', hdb', rfl⟩ | rfl⟩ | ⟨item, -, ⟨db', hdb', rfl⟩ | rfl⟩
      · exact Database.grows_insertSnapshot hdb'
      · exact .refl db
      · exact Database.grows_insertProbeResult hdb'
      · exact .refl db
    | persist ok =>
      obtain ⟨nowMs, transition, rest, -, rfl⟩ := step_persist_iff.mp hs
      cases ok <;> exact ⟨fun _ => id, fun _ => id⟩
    | _ => exact absurd hwrites Bool.false_ne_true

theorem IngestionItem.Stored.grows {serde : Serde B J} {db db' : Database J}
    {item : IngestionItem J} (h : item.Stored serde db) (hg : db.Grows db') :
    item.Stored serde db' := by
  cases item with
  | stats item => exact hg.snapshots _ h
  | probeResult item => exact hg.probeResults _ h

/-- An insert that finds the row stores its item. -/
theorem stored_of_workerInsert {p p' : State J} {w : ℕ} {x : Shard J} {item : IngestionItem J}
    (hx : p.1.shards[w]? = some x) (hitem : x.worker.inserting? = some item)
    (hrow : item.nodeId ∈ p.2.nodes) (hs : step cfg p (.workerInsert w true) = some p') :
    item.Stored cfg.serde p'.2 := by
  obtain ⟨s, db⟩ := p
  cases hworker : x.worker with
  | idle => exact absurd hitem (by simp [hworker, Worker.inserting?])
  | upserting item nowMs => exact absurd hitem (by simp [hworker, Worker.inserting?])
  | inserting item =>
    obtain rfl := Option.some.inj (hworker ▸ hitem)
    have hrow' : item.nodeId ∈ db.nodes := hrow
    simp only [step, hx, hworker, Option.bind_eq_bind, Option.bind_some, Database.insertSnapshot,
      hrow', dif_pos, Option.some.injEq] at hs
    subst hs
    exact List.mem_append_right _ (List.mem_singleton.mpr rfl)
  | probing item =>
    obtain rfl := Option.some.inj (hworker ▸ hitem)
    have hrow' : item.nodeId ∈ db.nodes := hrow
    simp only [step, hx, hworker, Option.bind_eq_bind, Option.bind_some,
      Database.insertProbeResult, hrow', dif_pos, Option.some.injEq] at hs
    subst hs
    exact List.mem_append_right _ (List.mem_singleton.mpr rfl)

namespace Ingestion

/-- A property of the steps of the server. -/
def OnServer (P : State J → Act B → Prop) (g : Ingestion J) : IngestionAct B → Prop
  | .act a => P g.server a
  | _ => True

/-- What guarded steps keep: every worker finds its rows, and what workers are done with is stored. -/
structure Storing (cfg : Config B J) (g : Ingestion J) : Prop where
  ready : RowsReady g.server
  stored : ∀ e ∈ g.finished, e.2.Stored cfg.serde g.server.2

theorem storing_start (cfg : Config B J) (db : Database J) (clock : Int64) (workers : ℕ) :
    (start db clock workers).Storing cfg where
  ready x hx := by
    obtain ⟨-, rfl⟩ := List.mem_replicate.mp hx
    exact ⟨fun item hitem => absurd hitem (by simp [Worker.inserting?]), trivial⟩
  stored e he := absurd he (by simp [start])

theorem Storing.hasRow {g : Ingestion J} (h : g.Storing cfg) (b : IngestionAct B) :
    OnServer HasRow g b := by
  cases b with
  | act a =>
    cases a with
    | workerInsert w ok => exact fun x hx item hitem =>
        (h.ready x (List.mem_of_getElem? hx)).current item hitem
    | _ => trivial
  | _ => trivial

theorem Storing.step {g g' : Ingestion J} {b : IngestionAct B} (h : g.Storing cfg)
    (hfaithful : g.server.1.FaithfulStreams) (hup : OnServer (fun _ a => a.dbUp = true) g b)
    (hguard : OnServer (RowFirst cfg) g b) (hs : g.step cfg b = some g') : g'.Storing cfg := by
  have hrow := h.hasRow b
  cases b with
  | act a =>
    simp only [Ingestion.step, Option.ite_none_right_eq_some, Option.map_eq_some_iff] at hs
    obtain ⟨-, p', hstep, rfl⟩ := hs
    refine ⟨h.ready.step hfaithful hup hguard hstep, fun e he => ?_⟩
    rcases List.mem_append.mp he with he | he
    · exact (h.stored e he).grows (step_grows hstep)
    · cases a with
      | workerInsert w ok =>
        obtain rfl : ok = true := hup
        cases step_ingests hfaithful hstep with
        | quiet hhand hother => exact absurd hother (by simp [Act.ofWorker])
        | sent item y hhand hother => exact absurd hother (by simp [Act.ofWorker])
        | refused item hhand hother => exact absurd hother (by simp [Act.ofWorker])
        | inserted _ _ y item hy hitem =>
          simp only [hy, Option.bind_some, Worker.item?_of_inserting? hitem, Option.toList_some,
            List.map_cons, List.map_nil, List.mem_singleton] at he
          rw [he]
          exact stored_of_workerInsert hy hitem (hrow y hy item hitem) hstep
      | _ => exact absurd he List.not_mem_nil
  | close =>
    simp only [Ingestion.step, Option.ite_none_right_eq_some, Option.some.injEq] at hs
    obtain ⟨-, rfl⟩ := hs
    exact ⟨h.ready, h.stored⟩
  | finish w =>
    simp only [Ingestion.step, Option.bind_eq_bind, Option.bind_eq_some_iff] at hs
    obtain ⟨x, -, hs⟩ := hs
    split at hs
    · simp only [Option.ite_none_right_eq_some, Option.some.injEq] at hs
      obtain ⟨-, rfl⟩ := hs
      exact ⟨h.ready, h.stored⟩
    · exact absurd hs (by simp)

/-- Once the workers are through, what was handed over and found room is stored. -/
theorem Storing.stored_of_drained {g : Ingestion J} {workers : ℕ} (h : g.Storing cfg)
    (hsound : g.Sound cfg workers) (hworkers : 1 ≤ workers) (hdrops : g.server.1.drops = 0)
    (hidle : ∀ x ∈ g.server.1.shards, x.queue = [] ∧ x.worker = .idle) :
    ∀ e ∈ g.handed, e.1.Stored cfg.serde g.server.2 := by
  rintro ⟨item, ok⟩ he
  have hrefused : g.refused = [] := List.length_eq_zero_iff.mp (hsound.drops.symm.trans hdrops)
  have hok : ok = true := by
    by_contra hnot
    have hmem : item ∈ g.refused :=
      List.mem_map.mpr ⟨(item, ok), List.mem_filter.mpr ⟨he, by simpa using hnot⟩, rfl⟩
    rw [hrefused] at hmem
    exact absurd hmem List.not_mem_nil
  have hsent : item ∈ g.sent :=
    List.mem_map.mpr ⟨(item, ok), List.mem_filter.mpr ⟨he, by simpa using hok⟩, rfl⟩
  have hlt : target cfg workers item < g.server.1.shards.length := by
    rw [hsound.count]
    exact Nat.mod_lt _ hworkers
  have hx := List.getElem?_eq_getElem hlt
  obtain ⟨hqueue, hworker⟩ := hidle _ (List.mem_of_getElem? hx)
  have hfinished : item ∈ byWorker (target cfg workers item) g.finished := by
    have hall := (hsound.queued _ _ hx).trans (congrArg (· ++ _) (hsound.current _ _ hx))
    rw [hqueue, hworker, Worker.item?, Option.toList_none, List.append_nil, List.append_nil] at hall
    rw [← hall]
    exact List.mem_filter.mpr ⟨hsent, by simp⟩
  exact h.stored (_, item) (mem_byWorker.mp hfinished)

/-- **Items are stored whose rows come first.** In a run in which the database does not fail, and every
probe result is accepted only when its node has a row or its worker will create it before, every
insert finds the row of its node, what workers are done with is stored, and once they are through
without a drop, all that was taken from the streams is. -/
theorem items_stored_of_rowFirst (cfg : Config B J) (db : Database J) (clock : Int64) (workers : ℕ)
    (hworkers : 1 ≤ workers) (as : List (IngestionAct B)) (g : Ingestion J)
    (hrun : Machine.run (step cfg) (start db clock workers) as = some g)
    (hup : Machine.Along (step cfg) (OnServer fun _ a => a.dbUp = true) (start db clock workers) as)
    (hguard : Machine.Along (step cfg) (OnServer (RowFirst cfg)) (start db clock workers) as) :
    Machine.Along (step cfg) (OnServer HasRow) (start db clock workers) as ∧
      (∀ e ∈ g.finished, e.2.Stored cfg.serde g.server.2) ∧
      (g.server.1.drops = 0 → (∀ x ∈ g.server.1.shards, x.queue = [] ∧ x.worker = .idle) →
        ∀ e ∈ g.handed, e.1.Stored cfg.serde g.server.2) := by
  have hstep : ∀ (s : Ingestion J) (b : IngestionAct B) (s' : Ingestion J),
      s.Sound cfg workers ∧ s.Storing cfg →
      OnServer (fun _ a => a.dbUp = true) s b ∧ OnServer (RowFirst cfg) s b →
      s.step cfg b = some s' → s'.Sound cfg workers ∧ s'.Storing cfg :=
    fun s b s' hI hP hs => ⟨hI.1.step hs, hI.2.step hI.1.faithful hP.1 hP.2 hs⟩
  have hstart : (start db clock workers).Sound cfg workers ∧ (start db clock workers).Storing cfg :=
    ⟨sound_start cfg db clock workers, storing_start cfg db clock workers⟩
  have hboth := hup.and hguard
  obtain ⟨hsound, hstoring⟩ := Machine.run_preserves hstep hstart hboth hrun
  refine ⟨hboth.of_invariant hstep (fun s b hI _ => hI.2.hasRow b) hstart, hstoring.stored, ?_⟩
  exact fun hdrops hidle => hstoring.stored_of_drained hsound hworkers hdrops hidle

/-- A node opens a stream, sends what comes first, and then a probe result. -/
def probeRun (first : List (Act ℕ)) : List (IngestionAct ℕ) :=
  let acts : List (Act ℕ) := .openStream "node-01" :: first ++
    [.receive 0 (.message (some (.probeResult ⟨"db:5432", true, 900, ""⟩))), .workerRecv 3]
  acts.map .act

/-- A snapshot that is handed to the worker. -/
def snapshotFirst : List (Act ℕ) :=
  [.receive 0 (.message (some (.stats ⟨"node-01", 5, 7⟩))), .enqueue 0, .broadcast 0]

/-- The worker goes through its queue. -/
def storeBoth : List (IngestionAct ℕ) :=
  [.act (.workerUpsert 3 true), .act (.workerInsert 3 true), .act (.workerRecv 3),
    .act (.workerInsert 3 true)]

instance (P : State J → Act B → Prop) [∀ p a, Decidable (P p a)] (g : Ingestion J) :
    ∀ b : IngestionAct B, Decidable (OnServer P g b)
  | .act a => inferInstanceAs (Decidable (P g.server a))
  | .close | .finish _ => isTrue trivial

instance (cfg : Config B J) (p : State J) (a : Act B) : Decidable (RowFirst cfg p a) :=
  inferInstanceAs (Decidable (∀ item ∈ handedOver p.1 a, _))

theorem items_stored_snapshotFirst :
    ∃ g : Ingestion String, Machine.run (step .byText) (start .empty 0 4)
        (probeRun snapshotFirst ++ storeBoth) = some g ∧
      g.handed.length = 2 ∧ ∀ e ∈ g.handed, e.1.Stored Config.byText.serde g.server.2 := by
  refine ⟨_, (Option.some_get (by decide)).symm, by decide, ?_⟩
  exact (items_stored_of_rowFirst Config.byText .empty 0 4 (by decide)
    (probeRun snapshotFirst ++ storeBoth) _ (Option.some_get (by decide)).symm (by decide)
    (by decide)).2.2 (by decide) (by decide)

/-- **A probe result that comes first is lost.** The database is up and nothing is dropped, but the
insert of the worker finds no row of the node, and the probe result is not stored. -/
theorem probe_result_lost_without_row :
    ∃ g g' : Ingestion String,
      Machine.run (step .byText) (start .empty 0 4) (probeRun []) = some g ∧
      ¬ OnServer HasRow g (.act (.workerInsert 3 true) : IngestionAct ℕ) ∧
      g.step .byText (.act (.workerInsert 3 true)) = some g' ∧ g'.server.1.drops = 0 ∧
      g'.finished.length = 1 ∧ g'.server.2.probeResults = [] := by
  refine ⟨_, _, (Option.some_get (by decide)).symm, fun hrow => ?_, (Option.some_get (by decide)).symm,
    by decide, by decide, by decide⟩
  exact absurd (hrow _ rfl _ rfl) (by decide)

end Ingestion

end Hakuraku.Server

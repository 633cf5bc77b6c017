import Hakuraku.Server.Flow

/-!
# The latest snapshot in the registry and in the database

Reference: `pulse-server/src/grpc.rs`, the `Stats` arm of `stream_telemetry`;
`pulse-server/src/db.rs`, `get_node` and `get_all_nodes`; `pulse-server/src/main.rs`, the start-up
load.

The registry keeps the snapshot that was accepted last. The queries select the snapshot with the
greatest timestamp, among those of the run and those stored before it. After everything accepted for
a node has been inserted, its snapshots in the table are just these (`StoresAccepted`), whatever
streams they came from and in whatever order they were queued. So the two agree exactly if the
message accepted last carries the same stats as the one with the greatest timestamp.
-/

namespace Hakuraku.Server

variable {B J : Type} {cfg : Config B J} {db : Database J} {p p' : State J} {a : Act B} {n : String}

namespace Process

/-- The items of the accepted `Stats` messages, in order. -/
def accepted (s : Process J) : List (StatsItem J) := s.receipts.filterMap (·.item)

/-- The items accepted for a node, in order. -/
def acceptedOf (s : Process J) (n : String) : List (StatsItem J) :=
  s.accepted.filter (·.nodeId = n)

/-- Every item accepted for the node has been inserted. -/
def Drained (s : Process J) (n : String) : Prop := ∀ item ∈ s.uninserted, item.nodeId ≠ n

instance (s : Process J) (n : String) : Decidable (s.Drained n) := Multiset.decidableForallMultiset

end Process

/-- The row that `insert_snapshot` makes of an item. -/
def StatsItem.snapshot (cfg : Config B J) (item : StatsItem J) : Snapshot J :=
  ⟨item.nodeId, item.timestampMs, Database.stored cfg.serde item.statsStr⟩

/-- The snapshots of a node that were there before the run, and those of its accepted messages. -/
def recorded (cfg : Config B J) (db : Database J) (s : Process J) (n : String) : List (Snapshot J) :=
  db.snapshotsOf n ++ (s.acceptedOf n).map (·.snapshot cfg)

/-- The registry's `latest_stats` of the node is the one that `get_node` and `get_all_nodes` select,
and that a restarted server would load. -/
def LatestAgrees (p : State J) (n : String) : Prop :=
  ∀ node ∈ p.1.nodes.lookup n,
    (∃ info, p.2.getNode n = some info ∧ info.latestStats = node.latestStats) ∧
    (∃ info ∈ p.2.getAllNodes, info.nodeId = n ∧ info.latestStats = node.latestStats) ∧
    ∀ clock, ∃ info, (Process.boot p.2 clock).nodes.lookup n = some info ∧
      info.latestStats = node.latestStats

/-! ## The tables over a run -/

/-- What is stored and what is still to be inserted, is what was stored before and what was
accepted. -/
def StoresAccepted (cfg : Config B J) (db : Database J) (p : State J) : Prop :=
  (p.2.snapshots : Multiset (Snapshot J)) + p.1.uninserted.map (·.snapshot cfg) =
    (db.snapshots : Multiset (Snapshot J)) + ((p.1.accepted.map (·.snapshot cfg) : List _) : Multiset _)

theorem Process.accepted_append {s s' : Process J} {r : Receipt J}
    (h : s'.receipts = s.receipts ++ [r]) : s'.accepted = s.accepted ++ r.item.toList := by
  rw [accepted, accepted, h, List.filterMap_append]
  cases hitem : r.item <;> simp [hitem]

theorem Process.accepted_congr {s s' : Process J} (h : s'.receipts = s.receipts) :
    s'.accepted = s.accepted := by rw [accepted, accepted, h]

theorem storesAccepted_boot (cfg : Config B J) (db : Database J) (clock : Int64) :
    StoresAccepted cfg db (Process.boot db clock, db) := by
  simp [StoresAccepted, Process.uninserted, Process.items, Process.boot, Process.accepted,
    workerCount, Shard.uninserted, statsItems, Worker.uninserted]

/-- The books keep balancing as long as nothing is lost. -/
theorem StoresAccepted.of_flow (h : StoresAccepted cfg db p) (hf : Flow cfg p p' a)
    (hloss : p'.1.losses = 0) : StoresAccepted cfg db p' := by
  have hsame : p'.1.receipts = p.1.receipts → p'.1.uninserted = p.1.uninserted →
      p'.2.snapshots = p.2.snapshots → StoresAccepted cfg db p' := by
    intro hreceipts huninserted hsnapshots
    rw [StoresAccepted, hsnapshots, huninserted, Process.accepted_congr hreceipts]
    exact h
  cases hf with
  | quiet hnodes hreceipts hpending hunwritten huninserted hl hrows hsnapshots =>
    exact hsame hreceipts huninserted hsnapshots
  | lost hl => omega
  | stats item metrics hitem htext hnodes hreceipts hpending hunwritten huninserted hl hdb =>
    have haccepted : p'.1.accepted = p.1.accepted ++ [item] := Process.accepted_append hreceipts
    rw [StoresAccepted, hdb, huninserted, haccepted, Multiset.map_add, List.map_append,
      ← Multiset.coe_add, ← add_assoc, ← add_assoc, h]
    rfl
  | heartbeat i x hb hx hid hnodes hreceipts hpending hunwritten huninserted hl hdb =>
    have haccepted : p'.1.accepted = p.1.accepted := by
      rw [Process.accepted_append hreceipts, Option.toList_none, List.append_nil]
    rw [StoresAccepted, hdb, huninserted, haccepted]
    exact h
  | upserted item nowMs hnodes hreceipts hpending hunwritten huninserted hl hdb =>
    exact hsame hreceipts huninserted (hdb ▸ rfl)
  | inserted item hnodes hreceipts hpending hunwritten huninserted hl hdb =>
    have hsnapshots := (Database.insertSnapshot_eq hdb).2
    rw [StoresAccepted, ← huninserted, Multiset.map_add] at h
    rw [StoresAccepted, hsnapshots, Process.accepted_congr hreceipts, ← Multiset.coe_add, ← h]
    simp only [Multiset.map_singleton, StatsItem.snapshot, Multiset.coe_singleton]
    ac_rfl
  | visit m now node hnode hnodes hreceipts hpending hunwritten huninserted hl hdb =>
    exact hsame hreceipts huninserted (hdb ▸ rfl)
  | persisted ok nowMs transition rest hlive hnodes hreceipts hpending hunwritten huninserted hl hdb =>
    exact hsame hreceipts huninserted (hdb ▸ rfl)

/-- **Once a node is drained, its snapshots in the table are the recorded ones.** -/
theorem StoresAccepted.snapshotsOf_perm (h : StoresAccepted cfg db p) (hdrained : p.1.Drained n) :
    (p.2.snapshotsOf n).Perm (recorded cfg db p.1 n) := by
  have hfilter := congrArg (Multiset.filter (fun s : Snapshot J => s.nodeId = n)) h
  have hnone : Multiset.filter (fun s : Snapshot J => s.nodeId = n)
      (p.1.uninserted.map (·.snapshot cfg)) = 0 := by
    rw [Multiset.filter_eq_nil]
    intro s hs
    obtain ⟨item, hitem, rfl⟩ := Multiset.mem_map.mp hs
    exact hdrained item hitem
  rw [Multiset.filter_add, Multiset.filter_add, hnone, add_zero, Multiset.filter_coe,
    Multiset.filter_coe, Multiset.filter_coe, Multiset.coe_add, Multiset.coe_eq_coe,
    List.filter_map] at hfilter
  exact hfilter

/-! ## The registry over a run -/

/-- An entry holds the stats accepted last, or is as it was loaded, and rows are never removed. -/
structure HoldsLast (db : Database J) (p : State J) : Prop where
  rows : ∀ n, n ∈ db.nodes → n ∈ p.2.nodes
  present : ∀ n, p.1.acceptedOf n ≠ [] → (p.1.nodes.lookup n).isSome = true
  latest : ∀ n node item, p.1.nodes.lookup n = some node →
    (p.1.acceptedOf n).getLast? = some item → node.latestStats = some item.statsJson
  loaded : ∀ n node, p.1.nodes.lookup n = some node → p.1.acceptedOf n = [] →
    n ∈ db.nodes ∧ db.IsLatest n node.latestStats

theorem holdsLast_boot (db : Database J) (clock : Int64) :
    HoldsLast db (Process.boot db clock, db) where
  rows _ := id
  present n h := absurd rfl h
  latest n node item _ h := by simp [Process.acceptedOf, Process.accepted, Process.boot] at h
  loaded n node h _ := by
    obtain ⟨hmem, rfl⟩ := Registry.mem_of_lookup_load h
    obtain ⟨row, hrow, -, -, -, hlatest⟩ := Database.getAllNodes_spec hmem
    exact ⟨AList.lookup_isSome.mp (by rw [hrow]; rfl), hlatest⟩

theorem Process.acceptedOf_congr {s s' : Process J} (h : s'.accepted = s.accepted) :
    s'.acceptedOf n = s.acceptedOf n := by rw [acceptedOf, acceptedOf, h]

theorem Process.acceptedOf_append {s s' : Process J} {item : StatsItem J}
    (h : s'.accepted = s.accepted ++ [item]) :
    s'.acceptedOf n = if item.nodeId = n then s.acceptedOf n ++ [item] else s.acceptedOf n := by
  rw [acceptedOf, acceptedOf, h, List.filter_append]
  split <;> simp_all

/-- Steps that accept no `Stats` and keep every entry's stats. -/
theorem HoldsLast.congr (h : HoldsLast db p)
    (hnodes : ∀ n, (p'.1.nodes.lookup n).map (·.latestStats) =
      (p.1.nodes.lookup n).map (·.latestStats))
    (haccepted : p'.1.accepted = p.1.accepted) (hrows : ∀ n, n ∈ p.2.nodes → n ∈ p'.2.nodes) :
    HoldsLast db p' := by
  have hold : ∀ n node, p'.1.nodes.lookup n = some node →
      ∃ old, p.1.nodes.lookup n = some old ∧ old.latestStats = node.latestStats := by
    intro n node hnode
    have heq := hnodes n
    rw [hnode, Option.map_some] at heq
    exact Option.map_eq_some_iff.mp heq.symm
  refine ⟨fun n hn => hrows n (h.rows n hn), fun n hne => ?_, fun n node item hnode hlast => ?_,
    fun n node hnode hnil => ?_⟩
  · rw [Process.acceptedOf_congr haccepted] at hne
    have hsome := h.present n hne
    rwa [← Option.isSome_map (f := (·.latestStats)), ← hnodes n, Option.isSome_map] at hsome
  · obtain ⟨old, hold, heq⟩ := hold n node hnode
    rw [Process.acceptedOf_congr haccepted] at hlast
    exact heq.symm.trans (h.latest n old item hold hlast)
  · obtain ⟨old, hold, heq⟩ := hold n node hnode
    rw [Process.acceptedOf_congr haccepted] at hnil
    exact heq ▸ h.loaded n old hold hnil

theorem HoldsLast.of_flow (h : HoldsLast db p) (hf : Flow cfg p p' a) (hloss : p'.1.losses = 0) :
    HoldsLast db p' := by
  have hsame : p'.1.nodes = p.1.nodes → p'.1.receipts = p.1.receipts →
      (∀ n, n ∈ p.2.nodes → n ∈ p'.2.nodes) → HoldsLast db p' := fun hnodes hreceipts =>
    h.congr (fun n => by rw [hnodes]) (Process.accepted_congr hreceipts)
  have hinsert : ∀ {nodeId hostname status nowMs},
      p'.2 = p.2.upsertNode nodeId hostname status nowMs → ∀ n, n ∈ p.2.nodes → n ∈ p'.2.nodes :=
    fun hdb n hn => hdb ▸ (AList.mem_insert _).mpr (.inr hn)
  cases hf with
  | quiet hnodes hreceipts hpending hunwritten huninserted hl hrows =>
    exact hsame hnodes hreceipts (hrows ▸ fun _ => id)
  | lost hl => omega
  | stats item metrics hitem htext hnodes hreceipts hpending hunwritten huninserted hl hdb =>
    have haccepted : p'.1.accepted = p.1.accepted ++ [item] := Process.accepted_append hreceipts
    refine ⟨fun n hn => hdb ▸ h.rows n hn, fun n hne => ?_, fun n node last hnode hlast => ?_,
      fun n node hnode hnil => ?_⟩
    · rw [Process.acceptedOf_append haccepted] at hne
      by_cases hid : item.nodeId = n
      · rw [hnodes, hid, Registry.lookup_onStats_self]
        rfl
      · rw [if_neg hid] at hne
        rw [hnodes, Registry.lookup_onStats_of_ne (Ne.symm hid)]
        exact h.present n hne
    · rw [Process.acceptedOf_append haccepted] at hlast
      by_cases hid : item.nodeId = n
      · rw [if_pos hid, List.getLast?_concat, Option.some.injEq] at hlast
        rw [hnodes, hid, Registry.lookup_onStats_self, Option.some.injEq] at hnode
        rw [← hnode, hlast]
      · rw [if_neg hid] at hlast
        rw [hnodes, Registry.lookup_onStats_of_ne (Ne.symm hid)] at hnode
        exact h.latest n node last hnode hlast
    · rw [Process.acceptedOf_append haccepted] at hnil
      by_cases hid : item.nodeId = n
      · simp [hid] at hnil
      · rw [if_neg hid] at hnil
        rw [hnodes, Registry.lookup_onStats_of_ne (Ne.symm hid)] at hnode
        exact h.loaded n node hnode hnil
  | heartbeat i x hb hx hid hnodes hreceipts hpending hunwritten huninserted hl hdb =>
    have haccepted : p'.1.accepted = p.1.accepted := by
      rw [Process.accepted_append hreceipts, Option.toList_none, List.append_nil]
    refine h.congr (fun n => ?_) haccepted (hdb ▸ fun _ => id)
    by_cases hne : n = hb.nodeId
    · rw [hnodes, hne, Registry.lookup_onHeartbeat_self, Option.map_map]
      rfl
    · rw [hnodes, Registry.lookup_onHeartbeat_of_ne hne]
  | upserted item nowMs hnodes hreceipts hpending hunwritten huninserted hl hdb =>
    exact hsame hnodes hreceipts (hinsert hdb)
  | inserted item hnodes hreceipts hpending hunwritten huninserted hl hdb =>
    exact hsame hnodes hreceipts ((Database.insertSnapshot_eq hdb).1 ▸ fun _ => id)
  | visit m now node' hnode' hnodes hreceipts hpending hunwritten huninserted hl hdb =>
    refine h.congr (fun n => ?_) (Process.accepted_congr hreceipts) (hdb ▸ fun _ => id)
    by_cases hne : n = m
    · rw [hnodes, hne, Registry.lookup_onVisit_self, Option.map_map]
      refine congrArg (fun f => Option.map f _) (funext fun node => ?_)
      rw [Function.comp_apply]
      split <;> rfl
    · rw [hnodes, Registry.lookup_onVisit_of_ne hne]
  | persisted ok nowMs transition rest hlive hnodes hreceipts hpending hunwritten huninserted hl hdb =>
    exact hsame hnodes hreceipts (hinsert hdb)

/-! ## When they agree -/

/-- The node's snapshots decide what the queries and a restart return for it. -/
theorem latestAgrees_iff {node : NodeInfo J} (hnode : p.1.nodes.lookup n = some node)
    (hrow : n ∈ p.2.nodes) (hdistinct : ((p.2.snapshotsOf n).map (·.timestamp)).Nodup) :
    LatestAgrees p n ↔ p.2.IsLatest n node.latestStats := by
  constructor
  · intro h
    obtain ⟨⟨info, hinfo, heq⟩, -⟩ := h node hnode
    obtain ⟨rfl, row, -, -, -, -, hlatest⟩ := Database.getNode_spec hinfo
    exact heq ▸ hlatest
  · intro h node' hnode'
    rw [hnode, Option.mem_some] at hnode'
    subst hnode'
    have hunique : ∀ info, p.2.Describes info → info.nodeId = n →
        info.latestStats = node.latestStats := by
      rintro info ⟨row, -, -, -, -, hlatest⟩ rfl
      exact hlatest.unique h hdistinct
    obtain ⟨info, hmem, hid⟩ := Database.exists_mem_getAllNodes hrow
    refine ⟨?_, ⟨info, hmem, hid, hunique info (Database.getAllNodes_spec hmem) hid⟩, fun clock => ?_⟩
    · obtain ⟨info', hinfo'⟩ := Option.isSome_iff_exists.mp (Database.getNode_isSome hrow)
      obtain ⟨hid', hdescribes⟩ := Database.getNode_spec hinfo'
      exact ⟨info', hinfo', hunique info' hdescribes hid'⟩
    · obtain ⟨info', hinfo'⟩ :=
        Option.isSome_iff_exists.mp (Registry.isSome_lookup_load hmem)
      obtain ⟨hmem', hid'⟩ := Registry.mem_of_lookup_load hinfo'
      exact ⟨info', hid ▸ hinfo', hunique info' (Database.getAllNodes_spec hmem') (hid'.trans hid)⟩

/-- **Once the node is drained and nothing was lost, registry and database agree on its latest stats
exactly if the message accepted last carries the stats of the snapshot with the greatest
timestamp.** -/
theorem latestAgrees_iff_last_is_greatest {clock : Int64} {as : List (Act B)} {t : State J}
    (hrun : Machine.run (step cfg) (Process.boot db clock, db) as = some t)
    (hdrops : t.1.drops = 0) (herrors : t.1.dbErrors = 0) (hdrained : t.1.Drained n)
    (hdistinct : ((recorded cfg db t.1 n).map (·.timestamp)).Nodup) :
    LatestAgrees t n ↔ ∀ last ∈ (t.1.acceptedOf n).getLast?, ∃ top ∈ recorded cfg db t.1 n,
      (∀ s ∈ recorded cfg db t.1 n, s.timestamp ≤ top.timestamp) ∧
        top.statsJson = last.statsJson := by
  obtain ⟨hstores, hholds⟩ := Machine.run_invariant
    (I := fun p => p.1.losses = 0 → StoresAccepted cfg db p ∧ HoldsLast db p)
    (fun p a p' hI hstep hloss => by
      have hf := step_flow hstep
      obtain ⟨hstores, hholds⟩ := hI (Nat.le_zero.mp (hloss ▸ hf.losses_le))
      exact ⟨hstores.of_flow hf hloss, hholds.of_flow hf hloss⟩)
    (fun _ => ⟨storesAccepted_boot cfg db clock, holdsLast_boot db clock⟩) hrun
    (by rw [Process.losses, hdrops, herrors])
  have hperm := hstores.snapshotsOf_perm hdrained
  have hmem : ∀ s, s ∈ t.2.snapshotsOf n ↔ s ∈ recorded cfg db t.1 n := fun s => hperm.mem_iff
  have hdistinct' : ((t.2.snapshotsOf n).map (·.timestamp)).Nodup :=
    (hperm.map _).nodup_iff.mpr hdistinct
  cases hlast : (t.1.acceptedOf n).getLast? with
  | none =>
    -- nothing was accepted: the entry and the snapshots are those that were loaded
    have hnil : t.1.acceptedOf n = [] := List.getLast?_eq_none_iff.mp hlast
    refine iff_of_true (fun node hnode => ?_) (by simp)
    obtain ⟨hrow, hlatest⟩ := hholds.loaded n node hnode hnil
    have hrecorded : recorded cfg db t.1 n = db.snapshotsOf n := by
      rw [recorded, hnil, List.map_nil, List.append_nil]
    have hlatest' : t.2.IsLatest n node.latestStats :=
      (Database.isLatest_perm (hrecorded ▸ hperm)).mpr hlatest
    exact (latestAgrees_iff hnode (hholds.rows n hrow) hdistinct').mpr hlatest' node hnode
  | some last =>
    have hne : t.1.acceptedOf n ≠ [] := by
      intro hnil
      rw [hnil] at hlast
      exact absurd hlast (by simp)
    obtain ⟨node, hnode⟩ := Option.isSome_iff_exists.mp (hholds.present n hne)
    have hstats := hholds.latest n node last hnode hlast
    have hrow : n ∈ t.2.nodes := by
      obtain ⟨item, hitem⟩ := List.exists_mem_of_ne_nil _ hne
      have hs : item.snapshot cfg ∈ t.2.snapshotsOf n :=
        (hmem _).mpr (List.mem_append_right _ (List.mem_map_of_mem hitem))
      have hid : (item.snapshot cfg).nodeId = n := by simpa using List.of_mem_filter hs
      exact hid ▸ t.2.snapshots_fk _ (List.mem_of_mem_filter hs)
    rw [latestAgrees_iff hnode hrow hdistinct', hstats]
    simp only [Option.mem_def, Option.some.injEq, forall_eq', Database.IsLatest, hmem]
    exact exists_congr fun top => and_congr_right fun _ => and_comm

/-- Two streams of one node deliver a snapshot each, and the worker stores both. -/
def twoStreamsRun (first second : Int64) : List (Act ℕ) :=
  [.openStream "node-01", .openStream "node-01",
    .receive 0 (.message (some (.stats ⟨"node-01", first, 7⟩))), .enqueue 0, .broadcast 0,
    .receive 1 (.message (some (.stats ⟨"node-01", second, 8⟩))), .enqueue 1, .broadcast 1,
    .workerRecv 3, .workerUpsert 3 true, .workerInsert 3 true,
    .workerRecv 3, .workerUpsert 3 true, .workerInsert 3 true]

theorem latestAgrees_twoStreamsRun :
    ∃ t, Machine.run (step .byText) (Process.boot .empty 0, .empty) (twoStreamsRun 1000 2000)
        = some t ∧ LatestAgrees t "node-01" :=
  ⟨_, (Option.some_get (by decide)).symm,
    (latestAgrees_iff_last_is_greatest (Option.some_get (by decide)).symm (by decide) (by decide)
      (by decide) (by decide)).mpr (by decide)⟩

theorem latest_disagrees_on_overlapping_streams :
    ∃ t, Machine.run (step .byText) (Process.boot .empty 0, .empty) (twoStreamsRun 2000 1000)
        = some t ∧ t.1.drops = 0 ∧ t.1.dbErrors = 0 ∧ t.1.Drained "node-01" ∧
      ((recorded .byText .empty t.1 "node-01").map (·.timestamp)).Nodup ∧
      ¬ LatestAgrees t "node-01" := by
  refine ⟨_, (Option.some_get (by decide)).symm, by decide, by decide, by decide, by decide,
    fun h => ?_⟩
  obtain ⟨⟨info, hinfo, heq⟩, -⟩ := h _ (Option.some_get (by decide)).symm
  have hlatest : info.latestStats = some "7" := by
    have hquery := congrArg (Option.map (·.latestStats)) hinfo
    exact (Option.some.inj hquery).symm
  exact absurd (hlatest.symm.trans heq) (by decide)

end Hakuraku.Server

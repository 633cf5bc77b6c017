import Hakuraku.Server.Ledger

/-!
# Restarts

Reference: `pulse-server/src/main.rs`, the start-up load, the cleanup task and the shutdown;
`pulse-server/src/db.rs`, `get_all_nodes` and `insert_snapshot`.

A server keeps its registry and its queues in memory and only the tables outlive it. However many
servers start on a database and stop at any point, a row that is stored stays for at least seven days
from its time on, and an accepted snapshot is stored at most once. If the servers stop after their
workers have drained the queues, without a loss, every accepted snapshot is stored until then, so that
a server that starts and loads the nodes finds the newest one of every node that has one of the last
seven days.
-/

namespace Hakuraku.Server

variable {B J : Type} {cfg : Config B J}

/-! ## What is stored stays stored -/

theorem step_snapshots_kept {p p' : State J} {a : Act B} (h : step cfg p a = some p') :
    p.2.snapshots <+: p'.2.snapshots := by
  cases step_flow h with
  | quiet _ _ _ _ _ _ _ hsnapshots => exact hsnapshots ▸ List.prefix_rfl
  | lost hloss => exact (step_lost h hloss).2.1 ▸ List.prefix_rfl
  | stats _ _ _ _ _ _ _ _ _ _ hdb => exact hdb ▸ List.prefix_rfl
  | heartbeat _ _ _ _ _ _ _ _ _ _ _ hdb => exact hdb ▸ List.prefix_rfl
  | upserted _ _ _ _ _ _ _ _ hdb => exact hdb ▸ List.prefix_rfl
  | inserted _ _ _ _ _ _ _ hdb => exact (Database.insertSnapshot_eq hdb).2 ▸ List.prefix_append _ _
  | visit _ _ _ _ _ _ _ _ _ _ hdb => exact hdb ▸ List.prefix_rfl
  | persisted _ _ _ _ _ _ _ _ _ _ _ hdb => exact hdb ▸ List.prefix_rfl

namespace Deployment

variable {d d' t : Deployment J} {b : DeploymentAct B}

/-- The rows that have ever been stored. -/
def everStored (d : Deployment J) : Multiset (Snapshot J) := d.cluster.db.snapshots + d.deleted

/-- **A row leaves the table only for those deleted.** -/
theorem step_everStored (hs : d.step cfg b = some d') : d.everStored ≤ d'.everStored := by
  cases step_moves hs with
  | act i a x p' hx hserver hdb hdeleted hdeletedProbes htotal =>
    rw [everStored, everStored, hdb, hdeleted]
    exact add_le_add_left (Multiset.coe_le.mpr (step_snapshots_kept hserver).sublist.subperm) _
  | other b hb hsnapshots hprobeResults htotal => exact hsnapshots.ge

theorem run_everStored {bs : List (DeploymentAct B)} (hrun : Machine.run (step cfg) d bs = some t) :
    d.everStored ≤ t.everStored :=
  Machine.run_invariant (I := fun d' : Deployment J => d.everStored ≤ d'.everStored)
    (fun _ _ _ h hs => h.trans (step_everStored hs)) le_rfl hrun

/-- The time is not more than seven days ago. -/
def InWeek (d : Deployment J) (s : Snapshot J) : Prop :=
  d.cluster.clock.toInt - 7 * 24 * 3600 * 1000 ≤ s.timestamp.toInt

instance (d : Deployment J) : DecidablePred d.InWeek := fun _ => inferInstanceAs (Decidable (_ ≤ _))

/-- What is in the week has not been deleted. -/
theorem DeletesOld.not_inWeek (h : d.DeletesOld) {s : Snapshot J} (hs : s ∈ d.deleted) :
    ¬ d.InWeek s := by
  have hold := h.deleted s hs
  unfold PastWeek at hold
  unfold InWeek
  omega

/-- The rows of the week that have ever been stored are stored. -/
theorem DeletesOld.filter_everStored (h : d.DeletesOld) :
    d.everStored.filter d.InWeek ≤ d.cluster.db.snapshots := by
  have hnone : (d.deleted : Multiset (Snapshot J)).filter d.InWeek = 0 :=
    Multiset.filter_eq_nil.mpr fun s hs => h.not_inWeek hs
  rw [everStored, Multiset.filter_add, hnone, add_zero]
  exact Multiset.filter_le _ _

end Deployment

/-! ## The next start -/

/-- A server that loads the nodes finds the newest row of a node that has one. -/
theorem exists_loaded {db : Database J} {s : Snapshot J} (hs : s ∈ db.snapshots) (clock : Int64) :
    ∃ info, (Process.boot db clock).nodes.lookup s.nodeId = some info ∧
      ∃ top ∈ db.snapshots, top.nodeId = s.nodeId ∧ info.latestStats = some top.statsJson ∧
        ∀ s' ∈ db.snapshots, s'.nodeId = s.nodeId → s'.timestamp ≤ top.timestamp := by
  obtain ⟨listed, hlisted, hid⟩ := Database.exists_mem_getAllNodes (db.snapshots_fk s hs)
  obtain ⟨info, hinfo⟩ := Option.isSome_iff_exists.mp (Registry.isSome_lookup_load hlisted)
  obtain ⟨hmem, hinfoId⟩ := Registry.mem_of_lookup_load hinfo
  obtain ⟨row, -, -, -, -, hlatest⟩ := Database.getAllNodes_spec hmem
  rw [hinfoId, hid] at hlatest
  have hof : ∀ s' : Snapshot J, s' ∈ db.snapshotsOf s.nodeId ↔
      s' ∈ db.snapshots ∧ s'.nodeId = s.nodeId := fun s' => by
    simp [Database.snapshotsOf]
  refine ⟨info, hid ▸ hinfo, ?_⟩
  cases hstats : info.latestStats with
  | none =>
    rw [hstats] at hlatest
    have hnil : db.snapshotsOf s.nodeId = [] := hlatest
    exact absurd ((hof s).mpr ⟨hs, rfl⟩) (by simp [hnil])
  | some v =>
    rw [hstats] at hlatest
    obtain ⟨top, htop, rfl, hmax⟩ := hlatest
    obtain ⟨htop, htopId⟩ := (hof top).mp htop
    exact ⟨top, htop, htopId, rfl, fun s' hs' hid' => hmax s' ((hof s').mpr ⟨hs', hid'⟩)⟩

namespace Deployment

variable {d t : Deployment J}

/-- A server that loads the nodes finds the newest of the rows ever stored of a node, if one of them is
of the week. -/
theorem DeletesOld.exists_loaded (h : d.DeletesOld) {s : Snapshot J} (hs : s ∈ d.everStored)
    (hweek : d.InWeek s) (clock : Int64) :
    ∃ info, (Process.boot d.cluster.db clock).nodes.lookup s.nodeId = some info ∧
      ∃ top ∈ d.everStored, top.nodeId = s.nodeId ∧ info.latestStats = some top.statsJson ∧
        ∀ s' ∈ d.everStored, s'.nodeId = s.nodeId → s'.timestamp ≤ top.timestamp := by
  have hstored : s ∈ d.cluster.db.snapshots :=
    (Multiset.mem_add.mp hs).resolve_right fun hdeleted => h.not_inWeek hdeleted hweek
  obtain ⟨info, hinfo, top, htop, hid, hlatest, hmax⟩ := Server.exists_loaded hstored clock
  refine ⟨info, hinfo, top, Multiset.mem_add.mpr (.inl htop), hid, hlatest, fun s' hs' hid' => ?_⟩
  rcases Multiset.mem_add.mp hs' with hs' | hs'
  · exact hmax s' hs' hid'
  · -- what has been deleted is older than the row of the week
    have hle := Int64.le_iff_toInt_le.mp (hmax s hstored rfl)
    have hold := h.not_inWeek hs'
    unfold InWeek at hweek hold
    exact Int64.le_iff_toInt_le.mpr (by omega)

/-- **Restarts forget nothing that is stored.** However many servers start on a database and stop at any
point, with or without their nodes loaded, the rows that are stored at one time are stored at every
later time as long as they are of the last seven days, and all rows but those that were there are of
accepted snapshots, at most one of each. If no server has anything left to insert or has counted a
loss, every accepted snapshot is stored or was deleted after seven days, and a server that starts and
loads the nodes has, of each node with a snapshot of the last seven days, the newest of all its
snapshots. -/
theorem restarts_forget_nothing {db : Database J} {clock : Int64} {bs bs' : List (DeploymentAct B)}
    (hclock : 0 ≤ clock.toInt) (hd : Machine.run (step cfg) (init db clock) bs = some d)
    (hrun : Machine.run (step cfg) d bs' = some t) :
    (d.cluster.db.snapshots : Multiset (Snapshot J)).filter t.InWeek ≤ t.cluster.db.snapshots ∧
    t.everStored ≤ db.snapshots + t.accepted.map (·.snapshot cfg) ∧
    (t.losses = 0 → t.uninserted = 0 →
      t.everStored = db.snapshots + t.accepted.map (·.snapshot cfg) ∧
      ∀ s ∈ t.everStored, t.InWeek s →
        ∃ info, (Process.boot t.cluster.db t.cluster.clock).nodes.lookup s.nodeId = some info ∧
          ∃ top ∈ t.everStored, top.nodeId = s.nodeId ∧ info.latestStats = some top.statsJson ∧
            ∀ s' ∈ t.everStored, s'.nodeId = s.nodeId → s'.timestamp ≤ top.timestamp) := by
  have hall : Machine.run (step cfg) (init db clock) (bs ++ bs') = some t :=
    Machine.run_append_eq_some.mpr ⟨d, hd, hrun⟩
  have hold := deletesOld_of_run hclock hall
  obtain ⟨lost, hlost, hrows⟩ := exists_rows hall
  refine ⟨?_, ?_, fun hlosses hnone => ⟨?_, fun s hs hweek => hold.exists_loaded hs hweek _⟩⟩
  · calc (d.cluster.db.snapshots : Multiset (Snapshot J)).filter t.InWeek
        ≤ d.everStored.filter t.InWeek :=
          Multiset.filter_le_filter _ (Multiset.le_add_right _ _)
      _ ≤ t.everStored.filter t.InWeek := Multiset.filter_le_filter _ (run_everStored hrun)
      _ ≤ _ := hold.filter_everStored
  · rw [← hrows, everStored, add_assoc _ _ lost]
    exact Multiset.le_add_right _ _
  · have hzero : lost = 0 := Multiset.card_eq_zero.mp (by omega)
    rw [← hrows, hnone, hzero, Multiset.map_zero, add_zero, add_zero]
    rfl

/-- A server stores a snapshot of the epoch and one of the present. -/
def firstServerRun : List (DeploymentAct ℕ) :=
  [.start, .cluster .boot] ++
    [Act.openStream "node-01", .receive 0 (.message (some (.stats ⟨"node-01", 0, 0⟩))), .enqueue 0,
      .workerRecv 3, .workerUpsert 3 true, .workerInsert 3 true, .broadcast 0,
      .receive 0 (.message (some (.stats ⟨"node-01", 604803000, 1⟩))), .enqueue 0, .workerRecv 3,
      .workerUpsert 3 true, .workerInsert 3 true, .broadcast 0].map fun a => .cluster (.act 0 a)

/-- Another server is started. Its cleanup task deletes the first of these snapshots, and it stores one
that is older than the second. -/
def secondServerRun : List (DeploymentAct ℕ) :=
  [.start, .cluster .boot, .tick 1, .delete 1 true, .delete 1 true] ++
    [Act.openStream "node-01", .receive 0 (.message (some (.stats ⟨"node-01", 604802000, 2⟩))),
      .enqueue 0, .workerRecv 3, .workerUpsert 3 true, .workerInsert 3 true, .broadcast 0].map
        fun a => .cluster (.act 1 a)

theorem restarts_forget_nothing_second_server :
    ∃ d t : Deployment String,
      Machine.run (step Config.byText) (init .empty 604805000) firstServerRun = some d ∧
      Machine.run (step Config.byText) d secondServerRun = some t ∧
      d.cluster.db.snapshots.map (·.timestamp) = [0, 604803000] ∧
      t.cluster.db.snapshots.map (·.timestamp) = [604803000, 604802000] ∧
      (d.cluster.db.snapshots : Multiset (Snapshot String)).filter t.InWeek ≤
        t.cluster.db.snapshots ∧
      t.everStored = t.accepted.map (·.snapshot Config.byText) ∧
      ∀ s ∈ t.everStored, t.InWeek s →
        ∃ info, (Process.boot t.cluster.db t.cluster.clock).nodes.lookup s.nodeId = some info ∧
          ∃ top ∈ t.everStored, top.nodeId = s.nodeId ∧ info.latestStats = some top.statsJson ∧
            ∀ s' ∈ t.everStored, s'.nodeId = s.nodeId → s'.timestamp ≤ top.timestamp := by
  have hfirst : (Machine.run (step Config.byText) (init .empty 604805000) firstServerRun).map
      (fun d => d.cluster.db.snapshots.map (·.timestamp)) = some [0, 604803000] := by
    decide +kernel
  obtain ⟨d, hd, hstored⟩ := Option.map_eq_some_iff.mp hfirst
  have hsecond : (Machine.run (step Config.byText) (init .empty 604805000)
      (firstServerRun ++ secondServerRun)).map (fun t => (t.losses, t.uninserted.card,
        t.cluster.db.snapshots.map (·.timestamp))) = some (0, 0, [604803000, 604802000]) := by
    decide +kernel
  obtain ⟨t, hall, heq⟩ := Option.map_eq_some_iff.mp hsecond
  simp only [Prod.mk.injEq, Multiset.card_eq_zero] at heq
  obtain ⟨hlosses, hnone, hkept⟩ := heq
  have hrun : Machine.run (step Config.byText) d secondServerRun = some t := by
    obtain ⟨d', hd', hrun⟩ := Machine.run_append_eq_some.mp hall
    rwa [Option.some.inj (hd.symm.trans hd')]
  obtain ⟨hweek, -, hdrained⟩ := restarts_forget_nothing (by decide) hd hrun
  obtain ⟨hever, hloaded⟩ := hdrained hlosses hnone
  exact ⟨d, t, hd, hrun, hstored, hkept, hweek, hever.trans (zero_add _), hloaded⟩

end Deployment

end Hakuraku.Server

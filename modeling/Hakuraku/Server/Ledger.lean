import Hakuraku.Server.Deployment
import Hakuraku.Server.Inserts
import Hakuraku.Server.Probes

/-!
# The books of a deployment

Reference: `pulse-server/src/grpc.rs`, `stream_telemetry`; `pulse-server/src/state.rs`,
`send_to_worker`; `pulse-server/src/main.rs`, the ingestion workers and the cleanup task;
`pulse-server/src/db.rs`, `insert_snapshot`, `insert_probe_result` and `cleanup_old_snapshots`.

What a step of one server does to the stock of rows is known from `step_stock` and
`step_probeStock`. Here the servers are put together, and the cleanup tasks come in: they take rows
out of the tables that nobody counts, but only rows of a time more than seven days ago. So over a
whole run every accepted snapshot and every probe result that was received is stored once, is on its
way once, has been deleted once, or has been counted as lost. What a server has in its queues when it
stops stays on its way there.
-/

namespace Hakuraku.Server

variable {B J : Type} {cfg : Config B J}

/-! ## Quantities of the servers -/

/-- The quantity is nothing at the start of a server, and depends neither on the registry nor on the
clock. -/
structure Tallied {M : Type} [AddCancelCommMonoid M] (f : Process J → M) : Prop where
  boot : ∀ db clock, f (Process.boot db clock) = 0
  congr : ∀ s nodes clock, f { s with nodes, clock } = f s

theorem tallied_accepted : Tallied fun s : Process J => (s.accepted : Multiset (StatsItem J)) :=
  ⟨fun _ _ => rfl, fun _ _ _ => rfl⟩

theorem tallied_uninserted : Tallied (J := J) Process.uninserted :=
  ⟨uninserted_boot, fun _ _ _ => rfl⟩

theorem tallied_losses : Tallied (J := J) Process.losses := ⟨fun _ _ => rfl, fun _ _ _ => rfl⟩

theorem tallied_probes : Tallied (J := J) Process.probes := ⟨probes_boot, fun _ _ _ => rfl⟩

namespace Cluster

variable {M : Type} [AddCancelCommMonoid M] {c c' : Cluster J} {i : ℕ} {x y : Replica J}
  {f : Process J → M}

/-- A quantity of all servers together. -/
def total (f : Process J → M) (c : Cluster J) : M := (c.replicas.map fun x => f x.process).sum

theorem total_setReplica (f : Process J → M) (hx : c.replicas[i]? = some x) :
    (c.setReplica i y).total f + f x.process = c.total f + f y.process :=
  Sums.sum_map_set (fun x : Replica J => f x.process) y hx

theorem total_setReplica_of_eq (hx : c.replicas[i]? = some x) (hy : f y.process = f x.process) :
    (c.setReplica i y).total f = c.total f :=
  add_right_cancel ((total_setReplica f hx).trans (congrArg (_ + ·) hy))

theorem total_boot (hf : Tallied f) (c : Cluster J) (db : Database J) (requests : List (GetNode J)) :
    ({ c with replicas := c.replicas ++ [⟨Process.boot db c.clock, requests⟩] } : Cluster J).total f =
      c.total f := by
  simp [total, hf.boot]

/-- **What a step does to the quantities**: a server takes a step of its own, or they stay as they
are. -/
inductive Moves (cfg : Config B J) (c c' : Cluster J) : ClusterAct B → Prop where
  | act (i : ℕ) (a : Act B) (x : Replica J) (p' : State J) (hx : c.replicas[i]? = some x)
      (hstep : Server.step cfg (x.process, c.db) a = some p') (hdb : c'.db = p'.2)
      (htotal : ∀ {M : Type} [AddCancelCommMonoid M] (f : Process J → M),
        c'.total f + f x.process = c.total f + f p'.1) : Moves cfg c c' (.act i a)
  | other (b : ClusterAct B) (hb : ∀ i a, b ≠ .act i a) (hdb : c'.db = c.db)
      (htotal : ∀ {M : Type} [AddCancelCommMonoid M] (f : Process J → M), Tallied f →
        c'.total f = c.total f) : Moves cfg c c' b

theorem step_moves {b : ClusterAct B} (h : c.step cfg b = some c') : Moves cfg c c' b := by
  cases b with
  | wait now =>
    obtain ⟨-, rfl⟩ := step_wait_iff.mp h
    refine .other _ nofun rfl fun f hf => ?_
    rw [total, total, List.map_map]
    exact congrArg List.sum (List.map_congr_left fun x _ => hf.congr x.process x.process.nodes now)
  | boot =>
    obtain rfl := Option.some.inj h
    exact .other _ nofun rfl fun f hf => total_boot hf c c.db []
  | act i a =>
    obtain ⟨x, hx, -, process, db, hstep, rfl⟩ := step_act_iff.mp h
    exact .act i a x (process, db) hx hstep rfl fun f => total_setReplica (c := { c with db }) f hx
  | getNode i n =>
    obtain ⟨x, hx, rfl⟩ := step_getNode_iff.mp h
    exact .other _ nofun rfl fun f _ => total_setReplica_of_eq hx rfl
  | query i k ok =>
    obtain ⟨x, hx, nodeId, -, rfl⟩ := step_query_iff.mp h
    exact .other _ nofun rfl fun f _ => total_setReplica_of_eq hx rfl
  | fill i k =>
    obtain ⟨x, hx, info, -, rfl⟩ := step_fill_iff.mp h
    exact .other _ nofun rfl fun f hf => total_setReplica_of_eq hx
      (hf.congr x.process (x.process.nodes.insert info.nodeId info) x.process.clock)

/-- The clock of the servers does not go back. -/
theorem step_clock_le {b : ClusterAct B} (h : c.step cfg b = some c') : c.clock ≤ c'.clock := by
  cases b with
  | wait now =>
    obtain ⟨hle, rfl⟩ := step_wait_iff.mp h
    exact hle
  | boot =>
    obtain rfl := Option.some.inj h
    exact Int64.le_refl _
  | act i a =>
    obtain ⟨x, -, -, process, db, -, rfl⟩ := step_act_iff.mp h
    exact Int64.le_refl _
  | getNode i n =>
    obtain ⟨x, -, rfl⟩ := step_getNode_iff.mp h
    exact Int64.le_refl _
  | query i k ok =>
    obtain ⟨x, -, nodeId, -, rfl⟩ := step_query_iff.mp h
    exact Int64.le_refl _
  | fill i k =>
    obtain ⟨x, -, info, -, rfl⟩ := step_fill_iff.mp h
    exact Int64.le_refl _

end Cluster

/-! ## The age of what is deleted -/

namespace Deployment

variable {d d' t : Deployment J} {b : DeploymentAct B}

/-- A time that was more than seven days ago. -/
def PastWeek (d : Deployment J) (timestamp : Int64) : Prop :=
  timestamp.toInt < d.cluster.clock.toInt - 604800000

theorem PastWeek.mono {timestamp : Int64} (h : d.PastWeek timestamp)
    (hclock : d.cluster.clock ≤ d'.cluster.clock) : d'.PastWeek timestamp := by
  rw [Int64.le_iff_toInt_le] at hclock
  unfold PastWeek at *
  omega

/-- What has been deleted, and all that a cleanup task is about to delete, is past the week. -/
structure DeletesOld (d : Deployment J) : Prop where
  clock : 0 ≤ d.cluster.clock.toInt
  bounds : ∀ cleanup ∈ d.cleanups, ∀ beforeMs ∈ cleanup.beforeMs?,
    beforeMs.toInt ≤ d.cluster.clock.toInt - 604800000
  deleted : ∀ s ∈ d.deleted, d.PastWeek s.timestamp
  deletedProbes : ∀ r ∈ d.deletedProbes, d.PastWeek r.timestamp

theorem deletesOld_init (db : Database J) {clock : Int64} (h : 0 ≤ clock.toInt) :
    (init db clock).DeletesOld := ⟨h, nofun, nofun, nofun⟩

/-- Time passes, and the cleanup tasks change to ones whose bounds are past the week. -/
theorem DeletesOld.mono (h : d.DeletesOld) (hclock : d.cluster.clock ≤ d'.cluster.clock)
    (hbounds : ∀ cleanup ∈ d'.cleanups, cleanup ∈ d.cleanups ∨ ∀ beforeMs ∈ cleanup.beforeMs?,
      beforeMs.toInt ≤ d.cluster.clock.toInt - 604800000)
    (hdeleted : ∀ s ∈ d'.deleted, s ∈ d.deleted ∨ d.PastWeek s.timestamp)
    (hprobes : ∀ r ∈ d'.deletedProbes, r ∈ d.deletedProbes ∨ d.PastWeek r.timestamp) :
    d'.DeletesOld where
  clock := h.clock.trans (Int64.le_iff_toInt_le.mp hclock)
  bounds cleanup hcleanup beforeMs hbefore := by
    have hle := Int64.le_iff_toInt_le.mp hclock
    have hold : beforeMs.toInt ≤ d.cluster.clock.toInt - 604800000 := by
      rcases hbounds cleanup hcleanup with hmem | hnew
      · exact h.bounds cleanup hmem beforeMs hbefore
      · exact hnew beforeMs hbefore
    omega
  deleted s hs := ((hdeleted s hs).elim (h.deleted s) id).mono hclock
  deletedProbes r hr := ((hprobes r hr).elim (h.deletedProbes r) id).mono hclock

/-- **What is deleted is always past the week.** -/
theorem DeletesOld.step (h : d.DeletesOld) (hs : d.step cfg b = some d') : d'.DeletesOld := by
  rcases step_cases hs with ⟨b', cluster, -, hstep, rfl⟩ | ⟨-, rfl | hcleans⟩
  · exact h.mono (Cluster.step_clock_le hstep) (fun _ => .inl) (fun _ => .inl) fun _ => .inl
  · exact ⟨h.clock, h.bounds, h.deleted, h.deletedProbes⟩
  · have hclock : d.cluster.clock ≤ d.cluster.clock := Int64.le_refl _
    cases hcleans with
    | idle cleanups heq hidle =>
      subst heq
      exact h.mono hclock (fun x hx => (hidle x hx).imp id fun hnone => by simp [hnone])
        (fun _ => .inl) fun _ => .inl
    | tick k heq =>
      subst heq
      refine h.mono hclock (fun x hx => ?_) (fun _ => .inl) fun _ => .inl
      refine (List.mem_or_eq_of_mem_set hx).imp id ?_
      rintro rfl beforeMs hbefore
      obtain rfl := Option.some.inj hbefore
      -- the clock counts from the epoch, so that the bound does not wrap around
      have hmax := d.cluster.clock.toInt_lt
      have hzero := h.clock
      have hweek := Retained.sevenDaysMs_toInt
      exact (Wrapping.toInt_sub (by omega) (by omega)).trans_le (by omega)
    | snapshots k beforeMs hk heq =>
      subst heq
      have hbound := h.bounds _ (List.mem_of_getElem? hk) beforeMs rfl
      refine h.mono hclock (fun x hx => ?_) (fun s hs => ?_) fun _ => .inl
      · refine (List.mem_or_eq_of_mem_set hx).imp id ?_
        rintro rfl before hbefore
        exact Option.some.inj hbefore ▸ hbound
      · refine (List.mem_append.mp hs).imp id fun hs => ?_
        have hold : s.timestamp < beforeMs := by simpa using List.of_mem_filter hs
        exact (Int64.lt_iff_toInt_lt.mp hold).trans_le hbound
    | probeResults k beforeMs hk heq =>
      subst heq
      have hbound := h.bounds _ (List.mem_of_getElem? hk) beforeMs rfl
      refine h.mono hclock (fun x hx => ?_) (fun _ => .inl) fun r hr => ?_
      · refine (List.mem_or_eq_of_mem_set hx).imp id ?_
        rintro rfl before hbefore
        exact absurd hbefore (by simp [Cleanup.beforeMs?])
      · refine (List.mem_append.mp hr).imp id fun hr => ?_
        have hold : r.timestamp < beforeMs := by simpa using List.of_mem_filter hr
        exact (Int64.lt_iff_toInt_lt.mp hold).trans_le hbound

/-! ## Rows and quantities -/

/-- A statement moves rows from the table to those deleted. -/
theorem filter_add_deleted {α : Type} (p : α → Prop) [DecidablePred p] (rows deleted : List α) :
    ((rows.filter fun x => ¬ p x : List α) : Multiset α) +
        (deleted ++ rows.filter p : List α) = rows + deleted := by
  rw [← Multiset.coe_add, add_left_comm, add_comm (rows : Multiset α), ← Multiset.filter_coe,
    ← Multiset.filter_coe]
  exact congrArg _ ((add_comm _ _).trans (Multiset.filter_add_not p _))

/-- **What a step does to the books**: a server takes a step of its own, or the quantities of the
servers stay as they are and rows at most go from the tables to those deleted. -/
inductive Moves (cfg : Config B J) (d d' : Deployment J) : DeploymentAct B → Prop where
  | act (i : ℕ) (a : Act B) (x : Replica J) (p' : State J) (hx : d.cluster.replicas[i]? = some x)
      (hstep : Server.step cfg (x.process, d.cluster.db) a = some p') (hdb : d'.cluster.db = p'.2)
      (hdeleted : d'.deleted = d.deleted) (hdeletedProbes : d'.deletedProbes = d.deletedProbes)
      (htotal : ∀ {M : Type} [AddCancelCommMonoid M] (f : Process J → M),
        d'.cluster.total f + f x.process = d.cluster.total f + f p'.1) :
      Moves cfg d d' (.cluster (.act i a))
  | other (b : DeploymentAct B) (hb : ∀ i a, b ≠ .cluster (.act i a))
      (hsnapshots : (d'.cluster.db.snapshots + d'.deleted : Multiset (Snapshot J)) =
        d.cluster.db.snapshots + d.deleted)
      (hprobeResults : (d'.cluster.db.probeResults + d'.deletedProbes : Multiset ProbeItem) =
        d.cluster.db.probeResults + d.deletedProbes)
      (htotal : ∀ {M : Type} [AddCancelCommMonoid M] (f : Process J → M), Tallied f →
        d'.cluster.total f = d.cluster.total f) : Moves cfg d d' b

/-- A cleanup task moves rows and leaves the servers as they are. -/
theorem Cleans.moves (h : Cleans d d') (hb : ∀ i a, b ≠ .cluster (.act i a)) :
    Moves cfg d d' b := by
  refine .other b hb ?_ ?_ fun f _ =>
    congrArg (fun replicas => (replicas.map fun x : Replica J => f x.process).sum) h.replicas_eq
  · cases h with
    | idle cleanups heq => exact heq ▸ rfl
    | tick k heq => exact heq ▸ rfl
    | snapshots k beforeMs hk heq =>
      subst heq
      exact filter_add_deleted (fun s : Snapshot J => s.timestamp < beforeMs)
        d.cluster.db.snapshots d.deleted
    | probeResults k beforeMs hk heq => exact heq ▸ rfl
  · cases h with
    | idle cleanups heq => exact heq ▸ rfl
    | tick k heq => exact heq ▸ rfl
    | snapshots k beforeMs hk heq => exact heq ▸ rfl
    | probeResults k beforeMs hk heq =>
      subst heq
      exact filter_add_deleted (fun r : ProbeItem => r.timestamp < beforeMs)
        d.cluster.db.probeResults d.deletedProbes

theorem step_moves (hs : d.step cfg b = some d') : Moves cfg d d' b := by
  rcases step_cases hs with ⟨b', cluster, rfl, hstep, rfl⟩ | ⟨hb, rfl | hcleans⟩
  · cases Cluster.step_moves hstep with
    | act i a x p' hx hserver hdb htotal => exact .act i a x p' hx hserver hdb rfl rfl htotal
    | other b' hb hdb htotal =>
      refine .other _ (fun i a heq => hb i a (DeploymentAct.cluster.inj heq)) ?_ ?_ htotal
      · rw [hdb]
      · rw [hdb]
  · exact .other b (fun i a => hb _) rfl rfl fun f hf => Cluster.total_boot hf _ _ _
  · exact hcleans.moves fun i a => hb _

/-! ## Snapshots -/

/-- The items that the servers have accepted. -/
def accepted (d : Deployment J) : Multiset (StatsItem J) :=
  d.cluster.total fun s => (s.accepted : Multiset (StatsItem J))

/-- The accepted items whose `insert_snapshot` is outstanding. -/
def uninserted (d : Deployment J) : Multiset (StatsItem J) := d.cluster.total Process.uninserted

/-- Items dropped and database errors. -/
def losses (d : Deployment J) : ℕ := d.cluster.total Process.losses

/-- The rows that are stored, have been deleted or are on their way. -/
def record (cfg : Config B J) (d : Deployment J) : Multiset (Snapshot J) :=
  d.cluster.db.snapshots + d.deleted + d.uninserted.map (·.snapshot cfg)

/-- **What a step does to the rows.** They gain those of the accepted items, and what they lose is
counted. -/
theorem step_record (hs : d.step cfg b = some d') :
    ∃ items, d'.accepted = d.accepted + items ∧
      Sums.Balanced (d.record cfg) d.losses (items.map (·.snapshot cfg)) (d'.record cfg)
        d'.losses := by
  cases step_moves hs with
  | act i a x p' hx hserver hdb hdeleted hdeletedProbes htotal =>
    obtain ⟨items, lost, haccepted, hstock, hloss⟩ := step_stock hserver
    have hserver : Sums.Balanced (stock cfg (x.process, d.cluster.db)) x.process.losses
        (items.map (·.snapshot cfg)) (stock cfg p') p'.1.losses :=
      ⟨lost.map (·.snapshot cfg), hstock, by rwa [Multiset.card_map]⟩
    refine ⟨items, ?_, hserver.of_part ?_ (htotal Process.losses)⟩
    · have hsum := htotal fun s : Process J => (s.accepted : Multiset (StatsItem J))
      rw [haccepted, add_comm (x.process.accepted : Multiset (StatsItem J)), ← add_assoc] at hsum
      exact add_right_cancel hsum
    · have hsum := congrArg (Multiset.map (·.snapshot cfg)) (htotal Process.uninserted)
      rw [Multiset.map_add, Multiset.map_add] at hsum
      simp only [record, uninserted, stock, hdb, hdeleted]
      calc _ = (p'.2.snapshots : Multiset (Snapshot J)) + d.deleted + d.cluster.db.snapshots +
            ((d'.cluster.total Process.uninserted).map (·.snapshot cfg) +
              x.process.uninserted.map (·.snapshot cfg)) := by ac_rfl
        _ = _ := by
            rw [hsum]
            ac_rfl
  | other b hb hsnapshots hprobeResults htotal =>
    refine ⟨0, (htotal _ tallied_accepted).trans (add_zero _).symm, .of_eq ?_ ?_⟩
    · rw [record, record, hsnapshots, uninserted, htotal _ tallied_uninserted]
      exact (add_zero _).symm
    · exact (htotal _ tallied_losses).ge

/-- What holds of the rows since the deployment was in a first state. -/
def Recorded (cfg : Config B J) (start d : Deployment J) : Prop :=
  ∃ items, d.accepted = start.accepted + items ∧
    Sums.Balanced (start.record cfg) start.losses (items.map (·.snapshot cfg)) (d.record cfg) d.losses

theorem Recorded.refl (cfg : Config B J) (d : Deployment J) : Recorded cfg d d :=
  ⟨0, (add_zero _).symm, .refl _ _⟩

theorem Recorded.step {start : Deployment J} (h : Recorded cfg start d)
    (hs : d.step cfg b = some d') : Recorded cfg start d' := by
  obtain ⟨items, haccepted, hbalanced⟩ := h
  obtain ⟨items', haccepted', hbalanced'⟩ := step_record hs
  refine ⟨items + items', by rw [haccepted', haccepted, add_assoc], ?_⟩
  rw [Multiset.map_add]
  exact hbalanced.trans hbalanced'

/-- The rows of a run that begins before any server has started. -/
theorem exists_rows {db : Database J} {clock : Int64} {bs : List (DeploymentAct B)}
    (hrun : Machine.run (step cfg) (init db clock) bs = some t) :
    ∃ lost : Multiset (Snapshot J), lost.card ≤ t.losses ∧
      (t.cluster.db.snapshots : Multiset (Snapshot J)) + t.deleted +
          t.uninserted.map (·.snapshot cfg) + lost =
        db.snapshots + t.accepted.map (·.snapshot cfg) := by
  have hrecorded : Recorded cfg (init db clock) t :=
    Machine.run_invariant (fun _ _ _ h hs => h.step hs) (.refl cfg _) hrun
  obtain ⟨items, haccepted, lost, hrows, hlosses⟩ := hrecorded
  refine ⟨lost, (Nat.le_add_left _ _).trans hlosses, ?_⟩
  rw [show t.accepted = items from haccepted.trans (zero_add _)]
  simpa [record, init, uninserted, Cluster.init, Cluster.total] using hrows

theorem deletesOld_of_run {db : Database J} {clock : Int64} {bs : List (DeploymentAct B)}
    (hclock : 0 ≤ clock.toInt) (hrun : Machine.run (step cfg) (init db clock) bs = some t) :
    t.DeletesOld :=
  Machine.run_invariant (fun _ _ _ h hs => DeletesOld.step h hs) (deletesOld_init db hclock) hrun

/-- **Every accepted snapshot is stored at most once, and none is missing unaccounted.** In every run
of the servers on a database, with their cleanup tasks and requests, the rows that are stored, that
have been deleted or that are on their way are one for each accepted snapshot, except for some of
which each has been counted as dropped or as a database error. Only what is more than seven days old
is deleted. -/
theorem accepted_stored_once {db : Database J} {clock : Int64} {bs : List (DeploymentAct B)}
    (hrun : Machine.run (step cfg) (init db clock) bs = some t) :
    (∃ lost : Multiset (Snapshot J), lost.card ≤ t.losses ∧
      (t.cluster.db.snapshots : Multiset (Snapshot J)) + t.deleted +
          t.uninserted.map (·.snapshot cfg) + lost =
        db.snapshots + t.accepted.map (·.snapshot cfg)) ∧
    (0 ≤ clock.toInt → ∀ s ∈ t.deleted,
      s.timestamp.toInt < t.cluster.clock.toInt - 7 * 24 * 3600 * 1000) :=
  ⟨exists_rows hrun, fun hclock => (deletesOld_of_run hclock hrun).deleted⟩

/-- A node streams a snapshot of the epoch and one of the present. The first is stored, and deleted by
the cleanup task, before another server starts without the nodes and is asked for this one. -/
def lateRun : List (DeploymentAct ℕ) :=
  [.start, .cluster .boot] ++
    [Act.openStream "node-01", .receive 0 (.message (some (.stats ⟨"node-01", 0, 0⟩))), .enqueue 0,
      .workerRecv 3, .broadcast 0,
      .receive 0 (.message (some (.stats ⟨"node-01", 604800001, 1⟩))), .workerUpsert 3 true,
      .workerInsert 3 true].map (fun a => .cluster (.act 0 a)) ++
    [.tick 0, .delete 0 true, .start, .bootUnloaded, .delete 0 true, .cluster (.getNode 1 "node-01"),
      .cluster (.query 1 0 true), .cluster (.fill 1 0)]

theorem accepted_stored_once_late :
    ∃ t lost, Machine.run (step Config.byText) (init .empty 604800001) lateRun = some t ∧
      t.cluster.db.snapshots.length = 0 ∧ t.deleted.length = 1 ∧ t.accepted.card = 2 ∧
      Multiset.card (lost : Multiset (Snapshot String)) ≤ t.losses ∧
      (t.cluster.db.snapshots : Multiset (Snapshot String)) + t.deleted +
          t.uninserted.map (·.snapshot Config.byText) + lost =
        t.accepted.map (·.snapshot Config.byText) ∧
      ∀ s ∈ t.deleted, s.timestamp.toInt < t.cluster.clock.toInt - 7 * 24 * 3600 * 1000 := by
  have hcounts : (Machine.run (step Config.byText) (init .empty 604800001) lateRun).map
      (fun t => (t.cluster.db.snapshots.length, t.deleted.length, t.accepted.card)) =
        some (0, 1, 2) := by
    decide +kernel
  obtain ⟨t, hrun, heq⟩ := Option.map_eq_some_iff.mp hcounts
  simp only [Prod.mk.injEq] at heq
  obtain ⟨⟨lost, hcard, hrows⟩, hold⟩ := accepted_stored_once hrun
  exact ⟨t, lost, hrun, heq.1, heq.2.1, heq.2.2, hcard, hrows.trans (zero_add _),
    hold (by decide)⟩

/-! ## Probe results -/

/-- The probe results on their way to the database. -/
def probes (d : Deployment J) : Multiset ProbeItem := d.cluster.total Process.probes

/-- The rows that are stored, have been deleted or are on their way. -/
def probeRecord (d : Deployment J) : Multiset ProbeItem :=
  d.cluster.db.probeResults + d.deletedProbes + d.probes

/-- The probe result that a step receives. -/
def received (d : Deployment J) : DeploymentAct B → List ProbeItem
  | .cluster (.act i a) =>
    match d.cluster.replicas[i]? with
    | some x => probed (x.process, d.cluster.db) a
    | none => []
  | _ => []

/-- **What a step does to the probe results.** They gain the one that is received, and what they lose
is counted. -/
theorem step_probeRecord (hs : d.step cfg b = some d') :
    Sums.Balanced d.probeRecord d.losses (d.received b : Multiset ProbeItem) d'.probeRecord
      d'.losses := by
  cases step_moves hs with
  | act i a x p' hx hserver hdb hdeleted hdeletedProbes htotal =>
    have hserver : Sums.Balanced (probeStock (x.process, d.cluster.db)) x.process.losses
        (probed (x.process, d.cluster.db) a : Multiset ProbeItem) (probeStock p') p'.1.losses :=
      step_probeStock hserver
    have hreceived : d.received (.cluster (.act i a)) = probed (x.process, d.cluster.db) a := by
      simp only [received, hx]
    rw [hreceived]
    refine hserver.of_part ?_ (htotal Process.losses)
    have hsum := htotal Process.probes
    simp only [probeRecord, probes, probeStock, hdb, hdeletedProbes]
    calc _ = (p'.2.probeResults : Multiset ProbeItem) + d.deletedProbes +
          d.cluster.db.probeResults + (d'.cluster.total Process.probes + x.process.probes) := by
          ac_rfl
      _ = _ := by
          rw [hsum]
          ac_rfl
  | other b hb hsnapshots hprobeResults htotal =>
    have hnone : d.received b = [] := by
      unfold received
      split
      · exact absurd rfl (hb _ _)
      · rfl
    refine .of_eq ?_ (htotal _ tallied_losses).ge
    rw [hnone, probeRecord, probeRecord, hprobeResults, probes, htotal _ tallied_probes]
    exact (add_zero _).symm

/-- What is received is a message that arrives. -/
theorem result_of_received {item : ProbeItem} (h : item ∈ d.received b) :
    ∃ j i probe, b = .cluster (.act j (.receive i (.message (some (.probeResult probe))))) ∧
      item.result = probe := by
  unfold received at h
  split at h
  · rename_i j a
    split at h
    · rename_i x hx
      obtain ⟨i, probe, rfl, hresult⟩ := result_of_probed h
      exact ⟨j, i, probe, rfl, hresult⟩
    · exact absurd h List.not_mem_nil
  · exact absurd h List.not_mem_nil

/-- What a run has received comes from its messages. -/
theorem received_of_run {bs : List (DeploymentAct B)} {r r' : Deployment J × List ProbeItem}
    (hrun : Machine.run (Machine.recorded (step cfg) received) r bs = some r') :
    ∀ item ∈ r'.2, item ∈ r.2 ∨
      ∃ j i probe, .cluster (.act j (.receive i (.message (some (.probeResult probe))))) ∈ bs ∧
        item.result = probe := by
  induction bs generalizing r with
  | nil =>
    obtain rfl := Option.some.inj hrun
    exact fun item hitem => .inl hitem
  | cons b bs ih =>
    obtain ⟨r₁, hs, hrun'⟩ := Machine.run_cons_eq_some.mp hrun
    obtain ⟨d', -, rfl⟩ := Machine.recorded_eq_some.mp hs
    intro item hitem
    rcases ih hrun' item hitem with hitem | ⟨j, i, probe, hmem, hresult⟩
    · refine (List.mem_append.mp hitem).imp id fun hitem => ?_
      obtain ⟨j, i, probe, rfl, hresult⟩ := result_of_received hitem
      exact ⟨j, i, probe, List.mem_cons_self, hresult⟩
    · exact .inr ⟨j, i, probe, List.mem_cons_of_mem _ hmem, hresult⟩

/-- **Every probe result that is received is stored at most once, and none is missing unaccounted.**
In every run of the servers on a database, the rows of `probe_results` that are stored, that have been
deleted or that are on their way are those that were received, except for some of which each has been
counted as dropped or as a database error. Only what is more than seven days old is deleted, and what
a message says is read in its row. -/
theorem probes_stored_once {db : Database J} {clock : Int64} {bs : List (DeploymentAct B)}
    {items : List ProbeItem}
    (hrun : Machine.run (Machine.recorded (step cfg) received) (init db clock, []) bs =
      some (t, items)) :
    (∃ lost : Multiset ProbeItem, lost.card ≤ t.losses ∧
      (t.cluster.db.probeResults : Multiset ProbeItem) + t.deletedProbes + t.probes + lost =
        db.probeResults + (items : Multiset ProbeItem)) ∧
    (0 ≤ clock.toInt → ∀ r ∈ t.deletedProbes,
      r.timestamp.toInt < t.cluster.clock.toInt - 7 * 24 * 3600 * 1000) ∧
    ∀ row ∈ t.cluster.db.probeResults, row ∈ db.probeResults ∨
      ∃ j i probe, .cluster (.act j (.receive i (.message (some (.probeResult probe))))) ∈ bs ∧
        row.result = probe := by
  have hbalanced : Sums.Balanced (init db clock).probeRecord (init db clock).losses
      (items : Multiset ProbeItem) t.probeRecord t.losses :=
    Machine.run_invariant (I := fun r : Deployment J × List ProbeItem =>
        Sums.Balanced (init db clock).probeRecord (init db clock).losses (r.2 : Multiset ProbeItem)
          r.1.probeRecord r.1.losses)
      (fun r b r' h hs => by
        obtain ⟨d', hd', rfl⟩ := Machine.recorded_eq_some.mp hs
        rw [← Multiset.coe_add]
        exact h.trans (step_probeRecord hd'))
      (.refl _ _) hrun
  obtain ⟨lost, hrows, hlosses⟩ := hbalanced
  have hbooks : (t.cluster.db.probeResults : Multiset ProbeItem) + t.deletedProbes + t.probes + lost =
      db.probeResults + (items : Multiset ProbeItem) := by
    simpa [probeRecord, probes, init, Cluster.init, Cluster.total] using hrows
  refine ⟨⟨lost, (Nat.le_add_left _ _).trans hlosses, hbooks⟩, fun hclock => ?_, fun row hrow => ?_⟩
  · exact (Machine.run_invariant (I := fun r : Deployment J × List ProbeItem => r.1.DeletesOld)
      (fun r b r' h hs => by
        obtain ⟨d', hd', rfl⟩ := Machine.recorded_eq_some.mp hs
        exact DeletesOld.step h hd')
      (deletesOld_init db hclock) hrun).deletedProbes
  · have hmem : row ∈ (db.probeResults : Multiset ProbeItem) + (items : Multiset ProbeItem) := by
      rw [← hbooks, add_assoc, add_assoc]
      exact Multiset.mem_add.mpr (.inl hrow)
    refine (Multiset.mem_add.mp hmem).imp id fun hitem => ?_
    exact (received_of_run hrun row hitem).resolve_left List.not_mem_nil

/-- A node sends a snapshot and three probe results. The first of these is stored and deleted after a
week, the second is stored then, and the third is still with the worker. -/
def twoProbesRun : List (DeploymentAct ℕ) :=
  [.start, .cluster .boot] ++
    [Act.openStream "node-01", .receive 0 (.message (some (.stats ⟨"node-01", 1000, 0⟩))), .enqueue 0,
      .broadcast 0, .receive 0 (.message (some (.probeResult ⟨"db-01:5432", true, 850, ""⟩))),
      .workerRecv 3, .workerUpsert 3 true, .workerInsert 3 true, .workerRecv 3,
      .workerInsert 3 true].map (fun a => .cluster (.act 0 a)) ++
    [.cluster (.wait 604800001), .tick 0, .delete 0 true, .delete 0 true] ++
    [Act.receive 0 (.message (some (.probeResult ⟨"db-02:5432", true, 0xffffffffffffffff, ""⟩))),
      .workerRecv 3, .workerInsert 3 true,
      .receive 0 (.message (some (.probeResult ⟨"db-01:5432", false, 0, "timeout"⟩)))].map
        (fun a => .cluster (.act 0 a))

theorem probes_stored_once_two_probes :
    ∃ t items, Machine.run (Machine.recorded (step Config.byText) received)
        (init .empty 0, []) twoProbesRun = some (t, items) ∧
      t.cluster.db.probeResults.map (·.latencyUs) = [-1] ∧ t.deletedProbes.length = 1 ∧
      items.length = 3 ∧
      (∃ lost : Multiset ProbeItem, lost.card ≤ t.losses ∧
        (t.cluster.db.probeResults : Multiset ProbeItem) + t.deletedProbes + t.probes + lost =
          (items : Multiset ProbeItem)) ∧
      ∀ r ∈ t.deletedProbes,
        r.timestamp.toInt < t.cluster.clock.toInt - 7 * 24 * 3600 * 1000 := by
  have hcounts : (Machine.run (Machine.recorded (step Config.byText) received)
      (init .empty 0, []) twoProbesRun).map
        (fun r => (r.1.cluster.db.probeResults.map (·.latencyUs), r.1.deletedProbes.length,
          r.2.length)) = some ([-1], 1, 3) := by
    decide +kernel
  obtain ⟨⟨t, items⟩, hrun, heq⟩ := Option.map_eq_some_iff.mp hcounts
  simp only [Prod.mk.injEq] at heq
  obtain ⟨⟨lost, hcard, hrows⟩, hold, -⟩ := probes_stored_once hrun
  exact ⟨t, items, hrun, heq.1, heq.2.1, heq.2.2, ⟨lost, hcard, hrows.trans (zero_add _)⟩,
    hold (by decide)⟩

end Deployment

end Hakuraku.Server

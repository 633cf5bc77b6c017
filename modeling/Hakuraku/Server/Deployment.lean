import Hakuraku.Server.Replicas
import Hakuraku.Server.Retention

/-!
# A deployment

Reference: `pulse-server/src/main.rs`, all tasks of a server and its start-up load;
`pulse-server/src/api.rs`, `get_node`; `docker-compose.swarm.yml`.

The deployment has all that writes to a registry or to the tables: the servers on one database, each
with its telemetry streams, ingestion workers, liveness checker and requests for nodes, as in
`Cluster`, and their cleanup tasks. A server spawns its cleanup task first, which wakes up at once and
then every hour; here it may wake up at any time. Then the server loads the nodes, and starts with
none if the load fails. A server that has stopped takes no more steps, so that a restart is the start
of another one.

`deleted` and `deletedProbes` are ghost records of what the cleanup tasks have deleted. No counter
counts these rows. The errors of the cleanup tasks and of the queries are counted with the others in
the source, but not here, where the counters are upper bounds of what has been lost.
-/

namespace Hakuraku.Server

variable {B J : Type} {cfg : Config B J}

/-- The servers on a database with their cleanup tasks. -/
structure Deployment (J : Type) where
  cluster : Cluster J
  cleanups : List Cleanup
  deleted : List (Snapshot J)
  deletedProbes : List ProbeItem

/-- The steps of a deployment. -/
inductive DeploymentAct (B : Type) where
  /-- A server starts and spawns its cleanup task. -/
  | start
  /-- A server that has started fails to load the nodes, and goes on without them. -/
  | bootUnloaded
  /-- A step of the servers without their cleanup tasks. -/
  | cluster (b : ClusterAct B)
  /-- A cleanup task wakes up and reads the clock. -/
  | tick (cleanup : ℕ)
  /-- The next statement of a cleanup task; it may fail. -/
  | delete (cleanup : ℕ) (ok : Bool)
  /-- A cleanup task sees the cancellation. -/
  | cancel (cleanup : ℕ)

/-- How many servers load their nodes. -/
def ClusterAct.boots : ClusterAct B → ℕ
  | .boot => 1
  | _ => 0

namespace Deployment

variable {d d' : Deployment J} {k : ℕ}

/-- Before any server has started. -/
def init (db : Database J) (clock : Int64) : Deployment J := ⟨.init db clock, [], [], []⟩

/-- Replace a cleanup task. -/
def setCleanup (d : Deployment J) (k : ℕ) (x : Cleanup) : Deployment J :=
  { d with cleanups := d.cleanups.set k x }

/-- One step of a deployment. -/
def step (cfg : Config B J) (d : Deployment J) : DeploymentAct B → Option (Deployment J)
  | .start => some { d with cleanups := d.cleanups ++ [.waiting] }
  | .bootUnloaded =>
    if d.cluster.replicas.length < d.cleanups.length then
      -- such a server is one on an empty database
      some { d with
        cluster := { d.cluster with
          replicas := d.cluster.replicas ++ [⟨Process.boot .empty d.cluster.clock, []⟩] } }
    else none
  | .cluster b =>
    if d.cluster.replicas.length + b.boots ≤ d.cleanups.length then
      (d.cluster.step cfg b).map fun cluster => { d with cluster }
    else none
  | .tick k =>
    match d.cleanups[k]? with
    | some .waiting => some (d.setCleanup k (.snapshots (d.cluster.clock - sevenDaysMs)))
    | _ => none
  | .delete k ok =>
    match d.cleanups[k]? with
    | some (.snapshots beforeMs) =>
      if ok then
        some ({ d with
          cluster := { d.cluster with db := d.cluster.db.deleteSnapshots beforeMs }
          deleted := d.deleted ++ d.cluster.db.snapshots.filter (·.timestamp < beforeMs)
          : Deployment J }.setCleanup k (.probeResults beforeMs))
      else some (d.setCleanup k .waiting)
    | some (.probeResults beforeMs) =>
      if ok then
        some ({ d with
          cluster := { d.cluster with db := d.cluster.db.deleteProbeResults beforeMs }
          deletedProbes := d.deletedProbes ++
            d.cluster.db.probeResults.filter (·.timestamp < beforeMs)
          : Deployment J }.setCleanup k .waiting)
      else some (d.setCleanup k .waiting)
    | _ => none
  | .cancel k =>
    match d.cleanups[k]? with
    | some .waiting => some (d.setCleanup k .stopped)
    | _ => none

/-! ## What each step does -/

theorem step_bootUnloaded_iff :
    d.step cfg .bootUnloaded = some d' ↔ d.cluster.replicas.length < d.cleanups.length ∧
      { d with
        cluster := { d.cluster with
          replicas := d.cluster.replicas ++ [⟨Process.boot .empty d.cluster.clock, []⟩] } } = d' := by
  simp only [step, Option.ite_none_right_eq_some, Option.some.injEq]

theorem step_cluster_iff {b : ClusterAct B} :
    d.step cfg (.cluster b) = some d' ↔
      d.cluster.replicas.length + b.boots ≤ d.cleanups.length ∧
        ∃ cluster, d.cluster.step cfg b = some cluster ∧ { d with cluster } = d' := by
  simp only [step, Option.ite_none_right_eq_some, Option.map_eq_some_iff]

/-- **What a cleanup task does**: it reads the clock, deletes old snapshots or old probe results, or
goes to where it has nothing to delete. -/
inductive Cleans (d d' : Deployment J) : Prop where
  | idle (cleanups : List Cleanup) (h : d' = { d with cleanups })
      (hidle : ∀ x ∈ cleanups, x ∈ d.cleanups ∨ x.beforeMs? = none) : Cleans d d'
  | tick (k : ℕ) (h : d' = d.setCleanup k (.snapshots (d.cluster.clock - sevenDaysMs))) : Cleans d d'
  | snapshots (k : ℕ) (beforeMs : Int64) (hk : d.cleanups[k]? = some (.snapshots beforeMs))
      (h : d' = { d with
        cluster := { d.cluster with db := d.cluster.db.deleteSnapshots beforeMs }
        deleted := d.deleted ++ d.cluster.db.snapshots.filter (·.timestamp < beforeMs)
        : Deployment J }.setCleanup k (.probeResults beforeMs)) : Cleans d d'
  | probeResults (k : ℕ) (beforeMs : Int64) (hk : d.cleanups[k]? = some (.probeResults beforeMs))
      (h : d' = { d with
        cluster := { d.cluster with db := d.cluster.db.deleteProbeResults beforeMs }
        deletedProbes := d.deletedProbes ++
          d.cluster.db.probeResults.filter (·.timestamp < beforeMs)
        : Deployment J }.setCleanup k .waiting) : Cleans d d'

/-- A cleanup task goes to where it has nothing to delete. -/
theorem Cleans.of_idle {x : Cleanup} (hx : x.beforeMs? = none) : Cleans d (d.setCleanup k x) :=
  .idle _ rfl fun y hy => (List.mem_or_eq_of_mem_set hy).imp id fun heq : y = x => heq ▸ hx

theorem Cleans.replicas_eq (h : Cleans d d') : d'.cluster.replicas = d.cluster.replicas := by
  cases h with
  | idle cleanups heq => exact heq ▸ rfl
  | tick k heq => exact heq ▸ rfl
  | snapshots k beforeMs hk heq => exact heq ▸ rfl
  | probeResults k beforeMs hk heq => exact heq ▸ rfl

theorem step_tick_iff :
    d.step cfg (.tick k) = some d' ↔ d.cleanups[k]? = some .waiting ∧
      d.setCleanup k (.snapshots (d.cluster.clock - sevenDaysMs)) = d' := by
  simp only [step]
  rcases d.cleanups[k]? with _ | (_ | _ | _ | _) <;> simp

theorem cleans_of_delete {ok : Bool} (h : d.step cfg (.delete k ok) = some d') : Cleans d d' := by
  simp only [step] at h
  split at h
  · rename_i beforeMs hk
    split at h
    · exact .snapshots k beforeMs hk (Option.some.inj h).symm
    · exact Option.some.inj h ▸ .of_idle rfl
  · rename_i beforeMs hk
    split at h
    · exact .probeResults k beforeMs hk (Option.some.inj h).symm
    · exact Option.some.inj h ▸ .of_idle rfl
  · exact absurd h (by simp)

/-- **What a step does**: the servers take a step of their own, one of them starts without the nodes,
or a cleanup task is started or takes a step. -/
theorem step_cases {b : DeploymentAct B} (h : d.step cfg b = some d') :
    (∃ b' cluster, b = .cluster b' ∧ d.cluster.step cfg b' = some cluster ∧
      d' = { d with cluster }) ∨
    (∀ b', b ≠ .cluster b') ∧
      (d' = { d with
        cluster := { d.cluster with
          replicas := d.cluster.replicas ++ [⟨Process.boot .empty d.cluster.clock, []⟩] } } ∨
      Cleans d d') := by
  cases b with
  | start =>
    refine .inr ⟨nofun, .inr (.idle _ (Option.some.inj h).symm fun x hx => ?_)⟩
    refine (List.mem_append.mp hx).imp id fun hx => ?_
    rw [List.mem_singleton.mp hx]
    rfl
  | bootUnloaded => exact .inr ⟨nofun, .inl (step_bootUnloaded_iff.mp h).2.symm⟩
  | cluster b' =>
    obtain ⟨-, cluster, hstep, rfl⟩ := step_cluster_iff.mp h
    exact .inl ⟨b', cluster, rfl, hstep, rfl⟩
  | tick k => exact .inr ⟨nofun, .inr (.tick k (step_tick_iff.mp h).2.symm)⟩
  | delete k ok => exact .inr ⟨nofun, .inr (cleans_of_delete h)⟩
  | cancel k =>
    refine .inr ⟨nofun, .inr ?_⟩
    simp only [step] at h
    split at h
    · exact Option.some.inj h ▸ .of_idle rfl
    · exact absurd h (by simp)

end Deployment

end Hakuraku.Server

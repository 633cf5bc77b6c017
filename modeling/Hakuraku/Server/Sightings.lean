import Hakuraku.Server.Replicas

/-!
# When a node was last seen

Reference: `pulse-server/src/db.rs`, `upsert_node` and `get_all_nodes`; `pulse-server/src/main.rs`,
the ingestion workers, the liveness checker and the start-up load.

`upsert_node` stamps the row of a node with the clock it reads itself, whoever calls it. A worker
calls it because a snapshot of the node has arrived; the liveness checker calls it because none has.
A run is recorded with the upserts that workers have made (`workerUpserts`), and a server restarts by
the `boot` of another one.

In the registry of a running server the transition to offline leaves `last_seen_ms` alone. In the
table it moves `last_seen` to the time of the transition, which every later load then reports.
-/

namespace Hakuraku.Server

variable {B J : Type} {cfg : Config B J}

/-- The `last_seen` column of a node. -/
def Database.lastSeen (db : Database J) (n : String) : Option Int64 :=
  (db.nodes.lookup n).map (·.lastSeen)

theorem Database.lastSeen_upsertNode {db : Database J} {n nodeId hostname status : String}
    {nowMs : Int64} :
    (db.upsertNode nodeId hostname status nowMs).lastSeen n =
      if n = nodeId then some nowMs else db.lastSeen n := by
  rw [lastSeen, lookup_upsertNode]
  split <;> rfl

/-! ## The two callers of `upsert_node` -/

/-- The upsert that a step of a worker makes: the node, and the clock that the call has read. -/
def Process.workerUpsert? (s : Process J) : Act B → Option (String × Int64)
  | .workerUpsert w true =>
    match s.shards[w]? with
    | some ⟨_, .upserting item nowMs⟩ => some (item.nodeId, nowMs)
    | _ => none
  | _ => none

/-- The upsert that a step of the liveness checker makes. -/
def Process.offlineWrite? (s : Process J) : Act B → Option (String × Int64)
  | .persist true =>
    match s.liveness with
    | .upserting nowMs transition _ => some (transition.nodeId, nowMs)
    | _ => none
  | _ => none

/-- **What a step does to the `last_seen` column.** -/
inductive Stamps (p p' : State J) (a : Act B) : Prop where
  | none (hworker : p.1.workerUpsert? a = .none) (hoffline : p.1.offlineWrite? a = .none)
      (hrows : p'.2.nodes = p.2.nodes)
  | worker (n : String) (stamp : Int64) (hworker : p.1.workerUpsert? a = some (n, stamp))
      (hoffline : p.1.offlineWrite? a = .none)
      (hdb : p'.2 = p.2.upsertNode n n "online" stamp)
  | offline (n : String) (stamp : Int64) (hworker : p.1.workerUpsert? a = .none)
      (hoffline : p.1.offlineWrite? a = some (n, stamp))
      (hdb : p'.2 = p.2.upsertNode n n "offline" stamp)

theorem step_stamps {p p' : State J} {a : Act B} (h : step cfg p a = some p') : Stamps p p' a := by
  obtain ⟨s, db⟩ := p
  by_cases hwrites : a.writesDb = true
  · cases a with
    | workerUpsert w ok =>
      obtain ⟨⟨queue, worker⟩, hx, item, nowMs, hw, rfl⟩ := step_workerUpsert_iff.mp h
      cases ok with
      | false => exact .none rfl rfl rfl
      | true =>
        refine .worker item.nodeId nowMs ?_ rfl rfl
        simp only [Process.workerUpsert?, hx]
        rw [show worker = .upserting item nowMs from hw]
    | workerInsert w ok =>
      obtain ⟨x, -, hcases⟩ := step_workerInsert_cases h
      rcases hcases with ⟨item, -, ⟨db', hdb, rfl⟩ | rfl⟩ | ⟨item, -, ⟨db', hdb, rfl⟩ | rfl⟩
      · exact .none rfl rfl (Database.insertSnapshot_eq hdb).1
      · exact .none rfl rfl rfl
      · exact .none rfl rfl (Database.insertProbeResult_eq hdb).1
      · exact .none rfl rfl rfl
    | persist ok =>
      obtain ⟨nowMs, transition, rest, hlive, rfl⟩ := step_persist_iff.mp h
      cases ok with
      | false => exact .none rfl rfl rfl
      | true =>
        refine .offline transition.nodeId nowMs rfl ?_ rfl
        simp only [Process.offlineWrite?, hlive]
    | _ => exact absurd hwrites (by simp [Act.writesDb])
  · have hdb := step_db_eq h (Bool.not_eq_true _ ▸ hwrites)
    cases a with
    | workerUpsert | workerInsert | persist => exact absurd rfl hwrites
    | _ => exact .none rfl rfl (congrArg Database.nodes hdb)

/-! ## Sightings -/

/-- The clock that the last upsert of a node has read. -/
def lastUpsert (upserts : List (String × Int64)) (n : String) : Option Int64 :=
  ((upserts.filter (·.1 = n)).getLast?).map (·.2)

theorem lastUpsert_concat (upserts : List (String × Int64)) (m n : String) (stamp : Int64) :
    lastUpsert (upserts ++ [(m, stamp)]) n =
      if n = m then some stamp else lastUpsert upserts n := by
  rw [lastUpsert, List.filter_append]
  by_cases h : n = m
  · subst h
    simp
  · have hne : m ≠ n := Ne.symm h
    simp [h, hne, lastUpsert]

namespace Cluster

/-- The upsert that a step makes for a worker. -/
def workerUpserts (c : Cluster J) : ClusterAct B → List (String × Int64)
  | .act i a =>
    match c.replicas[i]? with
    | some x => (x.process.workerUpsert? a).toList
    | none => []
  | _ => []

/-- One step of the cluster, with a record of the upserts that workers have made. -/
def stepRecorded (cfg : Config B J) : Cluster J × List (String × Int64) → ClusterAct B →
    Option (Cluster J × List (String × Int64)) :=
  Machine.recorded (step cfg) workerUpserts

/-- No row says that a node was seen later than a worker has upserted it for a snapshot, and neither
would a server that started now. -/
structure SeenAsStamped (p : Cluster J × List (String × Int64)) : Prop where
  column : ∀ n, ∀ seen ∈ p.1.db.lastSeen n, ∃ stamp ∈ lastUpsert p.2 n, seen ≤ stamp
  loaded : ∀ n, ∀ info ∈ (Process.boot p.1.db p.1.clock).nodes.lookup n,
    ∃ stamp ∈ lastUpsert p.2 n, info.lastSeenMs ≤ stamp

/-- The offline write of a step leaves `last_seen` unchanged. -/
def KeepsLastSeen (cfg : Config B J) (p : Cluster J × List (String × Int64)) : ClusterAct B → Prop
  | .act i (.persist ok) =>
    ∀ c', p.1.step cfg (.act i (.persist ok)) = some c' → ∀ n, c'.db.lastSeen n = p.1.db.lastSeen n
  | _ => True

/-- The offline write of a step, if there is one and it succeeds, has read the very time that the row
holds. -/
def StampsNothingNew (p : Cluster J × List (String × Int64)) : ClusterAct B → Prop
  | .act i a => ∀ x ∈ p.1.replicas[i]?, ∀ write ∈ x.process.offlineWrite? a,
    p.1.db.lastSeen write.1 = some write.2
  | _ => True

instance (p : Cluster J × List (String × Int64)) : DecidablePred (StampsNothingNew (B := B) p)
  | .act i a =>
    have (x : Replica J) : Decidable (∀ write ∈ x.process.offlineWrite? a,
        p.1.db.lastSeen write.1 = some write.2) := Option.decidableForallMem _
    inferInstanceAs (Decidable (∀ x ∈ p.1.replicas[i]?, _))
  | .wait _ | .boot | .getNode .. | .query .. | .fill .. => isTrue trivial

variable {c c' : Cluster J} {upserts : List (String × Int64)} {a : ClusterAct B}

/-- What a load reports is what the column says. -/
theorem seenAsStamped_of_column {p : Cluster J × List (String × Int64)}
    (h : ∀ n, ∀ seen ∈ p.1.db.lastSeen n, ∃ stamp ∈ lastUpsert p.2 n, seen ≤ stamp) :
    SeenAsStamped p := by
  refine ⟨h, fun n info hinfo => ?_⟩
  obtain ⟨hmem, rfl⟩ := Registry.mem_of_lookup_load hinfo
  obtain ⟨node, hnode, -, hseen, -⟩ := Database.getAllNodes_spec hmem
  rw [hseen]
  exact h info.nodeId node.lastSeen (by rw [Database.lastSeen, hnode]; rfl)

theorem seenAsStamped_init (clock : Int64) :
    SeenAsStamped (init (.empty : Database J) clock, []) := by
  refine seenAsStamped_of_column fun n seen hseen => ?_
  exact absurd hseen (by simp [init, Database.lastSeen, Database.empty])

/-- The steps that write no row. -/
theorem SeenAsStamped.of_rows {new : List (String × Int64)} (h : SeenAsStamped (c, upserts))
    (hnew : new = []) (hrows : c'.db.nodes = c.db.nodes) : SeenAsStamped (c', upserts ++ new) := by
  rw [hnew, List.append_nil]
  refine seenAsStamped_of_column fun n seen hseen => h.column n seen ?_
  rwa [Database.lastSeen, hrows] at hseen

/-- **A step that stamps nothing new keeps the column honest.** -/
theorem SeenAsStamped.step (h : SeenAsStamped (c, upserts))
    (hguard : StampsNothingNew (c, upserts) a) (hs : c.step cfg a = some c') :
    SeenAsStamped (c', upserts ++ c.workerUpserts a) := by
  cases a with
  | act i a =>
    obtain ⟨x, hx, -, process, db, hstep, rfl⟩ := step_act_iff.mp hs
    simp only [workerUpserts, hx]
    cases step_stamps hstep with
    | none hworker hoffline hrows =>
      exact h.of_rows (Option.toList_eq_nil_iff.mpr hworker) hrows
    | worker n stamp hworker hoffline hdb =>
      rw [show x.process.workerUpsert? a = some (n, stamp) from hworker, Option.toList_some]
      refine seenAsStamped_of_column fun m seen hseen => ?_
      rw [show db = _ from hdb] at hseen
      change seen ∈ (c.db.upsertNode n n "online" stamp).lastSeen m at hseen
      rw [Database.lastSeen_upsertNode] at hseen
      rw [lastUpsert_concat]
      split at hseen
      · rename_i hmn
        rw [if_pos hmn]
        exact ⟨stamp, rfl, (Option.some.inj hseen) ▸ Int64.le_refl _⟩
      · rename_i hmn
        rw [if_neg hmn]
        exact h.column m seen hseen
    | offline n stamp hworker hoffline hdb =>
      rw [show x.process.workerUpsert? a = none from hworker, Option.toList_none, List.append_nil]
      -- the row is stamped with what it holds
      have hsame : c.db.lastSeen n = some stamp := hguard x hx (n, stamp) hoffline
      refine seenAsStamped_of_column fun m seen hseen => ?_
      rw [show db = _ from hdb] at hseen
      change seen ∈ (c.db.upsertNode n n "offline" stamp).lastSeen m at hseen
      rw [Database.lastSeen_upsertNode] at hseen
      split at hseen
      · rename_i hmn
        subst hmn
        exact h.column m seen (hsame.trans hseen)
      · exact h.column m seen hseen
  | wait now =>
    obtain ⟨-, rfl⟩ := step_wait_iff.mp hs
    exact h.of_rows rfl rfl
  | boot =>
    obtain rfl := Option.some.inj hs
    exact h.of_rows rfl rfl
  | getNode i nodeId =>
    obtain ⟨x, -, rfl⟩ := step_getNode_iff.mp hs
    exact h.of_rows rfl rfl
  | query i k ok =>
    obtain ⟨x, -, nodeId, -, rfl⟩ := step_query_iff.mp hs
    exact h.of_rows rfl rfl
  | fill i k =>
    obtain ⟨x, -, info, -, rfl⟩ := step_fill_iff.mp hs
    exact h.of_rows rfl rfl

/-- An offline write leaves the column alone exactly if it stamps nothing new. -/
theorem keepsLastSeen_iff {p : Cluster J × List (String × Int64)}
    (hs : p.1.step cfg a = some c') : KeepsLastSeen cfg p a ↔ StampsNothingNew p a := by
  cases a with
  | act i a =>
    obtain ⟨x, hx, hwait, process, db, hstep, rfl⟩ := step_act_iff.mp hs
    cases a with
    | persist ok =>
      obtain ⟨nowMs, transition, rest, hlive, heq⟩ := step_persist_iff.mp hstep
      cases ok with
      | false =>
        refine iff_of_true (fun c' hs' n => ?_) fun y _ write hwrite => ?_
        · rw [hs, Option.some.injEq] at hs'
          rw [← hs', ← show p.1.db = db from congrArg Prod.snd heq]
          rfl
        · exact absurd hwrite (by simp [Process.offlineWrite?])
      | true =>
        have hoffline : x.process.offlineWrite? (Act.persist true : Act B) =
            some (transition.nodeId, nowMs) := by simp only [Process.offlineWrite?, hlive]
        have hdb : p.1.db.upsertNode transition.nodeId transition.nodeId "offline" nowMs = db :=
          congrArg Prod.snd heq
        have hguard : StampsNothingNew p (.act i (.persist true : Act B)) ↔
            p.1.db.lastSeen transition.nodeId = some nowMs := by
          simp only [StampsNothingNew, hx, Option.mem_def, Option.some.injEq, forall_eq', hoffline]
        rw [hguard]
        constructor
        · intro hkeeps
          have hrow := hkeeps _ hs transition.nodeId
          rw [← hrow]
          show db.lastSeen transition.nodeId = _
          rw [← hdb, Database.lastSeen_upsertNode, if_pos rfl]
        · intro hsame c' hs' n
          rw [hs, Option.some.injEq] at hs'
          rw [← hs']
          show db.lastSeen n = _
          rw [← hdb, Database.lastSeen_upsertNode]
          split
          · rename_i hn
            rw [hn, hsame]
          · rfl
    | _ =>
      refine iff_of_true trivial fun y _ write hwrite => ?_
      exact absurd hwrite (by simp [Process.offlineWrite?])
  | _ => exact iff_of_true trivial trivial

/-- **Marking a node offline counts as seeing it, unless the write comes to nothing.** In every run of
the servers from an empty database, the `last_seen` column and whatever a restart would load are never
later than the last upsert that a worker made for the node, and every offline write leaves the column
unchanged, if and only if every offline write fails or has read the very millisecond that the row
holds. -/
theorem seen_as_stamped_iff (cfg : Config B J) (clock : Int64) (as : List (ClusterAct B))
    (t : Cluster J) (hrun : Machine.run (step cfg) (init .empty clock) as = some t) :
    Machine.Always (stepRecorded cfg) SeenAsStamped (init .empty clock, []) as ∧
        Machine.Along (stepRecorded cfg) (KeepsLastSeen cfg) (init .empty clock, []) as ↔
      Machine.Along (stepRecorded cfg) StampsNothingNew (init .empty clock, []) as := by
  obtain ⟨upserts, hrun'⟩ := Machine.run_recorded workerUpserts hrun []
  have hiff := Machine.along_congr (I := fun _ => True) (fun _ _ _ _ _ => trivial)
    (fun p a p' _ hs => ?_) trivial hrun' (P := KeepsLastSeen cfg) (Q := StampsNothingNew)
  · constructor
    · exact fun h => hiff.mp h.2
    · intro h
      refine ⟨h.always (fun p a p' hp hguard hs => ?_) (seenAsStamped_init clock), hiff.mpr h⟩
      obtain ⟨c', hs', rfl⟩ := Machine.recorded_eq_some.mp hs
      exact hp.step hguard hs'
  · obtain ⟨c', hs', -⟩ := Machine.recorded_eq_some.mp hs
    exact keepsLastSeen_iff hs'

/-- A snapshot of a node is written at 100 s, and no other arrives. -/
def silentNode : List (ClusterAct ℕ) :=
  [.boot, .act 0 (.openStream "node-01"),
    .act 0 (.receive 0 (.message (some (.stats ⟨"node-01", 100000, 7⟩)))), .act 0 (.enqueue 0),
    .act 0 (.broadcast 0), .act 0 (.workerRecv 3), .act 0 (.workerUpsert 3 true),
    .act 0 (.workerInsert 3 true), .wait 140000, .act 0 .tick, .act 0 (.visit "node-01"),
    .act 0 .scanned]

theorem seen_as_stamped_when_write_fails :
    Machine.Always (stepRecorded .byText) SeenAsStamped (init .empty 100000, [])
      (silentNode ++ [.act 0 (.persist false), .boot]) :=
  ((seen_as_stamped_iff .byText 100000 _ _ (Option.some_get (by decide)).symm).mpr (by decide)).1

/-- **An offline write counts as a sighting.** The node is marked offline at 140 s, and a server that
starts then loads that time as the last one at which the node was seen. -/
theorem offline_write_seen :
    ∃ t info, Machine.run (stepRecorded .byText) (init .empty 100000, [])
        (silentNode ++ [.act 0 (.persist true), .boot]) = some (t, [("node-01", 100000)]) ∧
      t.db.lastSeen "node-01" = some 140000 ∧
      (Process.boot t.db t.clock).nodes.lookup "node-01" = some info ∧ info.lastSeenMs = 140000 ∧
      ¬ SeenAsStamped (t, [("node-01", 100000)]) := by
  refine ⟨_, _, rfl, by decide, rfl, by decide, fun h => ?_⟩
  obtain ⟨stamp, hstamp, hle⟩ := h.column "node-01" 140000 (by decide)
  obtain rfl := Option.some.inj hstamp
  exact absurd hle (by decide)

end Cluster

end Hakuraku.Server

import Hakuraku.Server.Api
import Hakuraku.Server.Flow
import Hakuraku.Server.Liveness

/-!
# Replicas on one database

Reference: `pulse-server/src/main.rs`, the start-up load and the liveness checker;
`pulse-server/src/api.rs`, `get_node`; `docker-compose.swarm.yml`, the two replicas of the server.

Any number of servers share one database and nothing else. A server knows a node from the row it
loaded at start-up or cached for a request, and hears nothing of the messages that the node sends to
another server. So its liveness checker takes the node offline 30 s after the time in that row, and
writes this to the shared table.

`NoForeignOffline` says that no server writes a node offline that is streaming to another server.
`KeepsClear` is the guard under which it holds: no checker finds such a node overdue, and no server
accepts a snapshot of a node whose offline write another server has outstanding.
-/

namespace Hakuraku.Server

variable {B J : Type} {cfg : Config B J}

/-- A server process with its requests for nodes. -/
structure Replica (J : Type) where
  process : Process J
  requests : List (GetNode J)

/-- Servers that share a database. -/
structure Cluster (J : Type) where
  replicas : List (Replica J)
  db : Database J
  clock : Int64

/-- The steps of the cluster. -/
inductive ClusterAct (B : Type) where
  /-- The clock advances, for all servers. -/
  | wait (now : Int64)
  /-- A server starts and loads the nodes. -/
  | boot
  /-- A step of a server, other than the passing of time. -/
  | act (replica : ℕ) (a : Act B)
  /-- A request for a node reaches a server. -/
  | getNode (replica : ℕ) (nodeId : String)
  /-- The query of a request returns. -/
  | query (replica request : ℕ) (ok : Bool)
  /-- A request puts the node it has read into the registry. -/
  | fill (replica request : ℕ)

/-- The steps in which time passes. -/
def Act.isWait : Act B → Bool
  | .wait _ => true
  | _ => false

/-- A transition becomes outstanding when its entry is found overdue. -/
theorem Effect.mem_pending {s s' : Process J} {a : Act B} {m : String} (he : Effect s s' a)
    (hm : m ∈ s'.liveness.pending) : m ∈ s.liveness.pending ∨
      ∃ n now node, a = .visit n ∧ s.tickTime = some now ∧ s.nodes.lookup n = some node ∧
        Registry.overdue now node = true ∧ m = node.nodeId := by
  cases he with
  | other hnodes hreceipts hlive => exact .inl (hlive ▸ hm)
  | stats i stats nodeId timestampMs statsStr statsJson hid hstamp hstream hnodes hreceipts hlive =>
    exact .inl (hlive ▸ hm)
  | heartbeat i hb nodeId timestampMs hid hstamp hstream hnodes hreceipts hlive =>
    exact .inl (hlive ▸ hm)
  | tick hidle heq =>
    subst heq
    exact absurd hm List.not_mem_nil
  | visit n now due visited transitions node hscan hnode hnew heq =>
    subst heq
    have htick : s.tickTime = some now := by rw [Process.tickTime, hscan]
    rw [hscan]
    by_cases hdue : Registry.overdue now node = true
    · rw [Liveness.pending, if_pos hdue, List.map_append, List.mem_append] at hm
      exact hm.imp id fun hm => ⟨n, now, node, rfl, htick, hnode, hdue, List.mem_singleton.mp hm⟩
    · rw [Liveness.pending, if_neg hdue] at hm
      exact .inl hm
  | scanned now due visited transitions hscan hall heq =>
    subst heq
    rw [Liveness.pending_next] at hm
    rw [hscan]
    exact .inl hm
  | persist ok nowMs transition rest hupsert hnodes hreceipts hlive =>
    rw [hlive] at hm
    rw [hupsert]
    exact .inl (List.mem_cons_of_mem _ hm)
  | announce transition rest hann hnodes hreceipts hlive =>
    rw [hlive, Liveness.pending_next] at hm
    rw [hann]
    exact .inl hm

/-- A `Stats` is received on a stream of its node. -/
theorem Effect.mem_receipts {s s' : Process J} {a : Act B} {r : Receipt J} (he : Effect s s' a)
    (hr : r ∈ s'.receipts) (hitem : r.item.isSome = true) : r ∈ s.receipts ∨
      ∃ k stats y, a = .receive k (.message (some (.stats stats))) ∧ s.streams[k]? = some y ∧
        stats.nodeId = y.nodeId ∧ r.nodeId = stats.nodeId := by
  cases he with
  | other hnodes hreceipts => exact .inl (hreceipts ▸ hr)
  | stats i stats nodeId timestampMs statsStr statsJson hid hstamp hstream hnodes hreceipts =>
    rw [hreceipts, List.mem_append, List.mem_singleton] at hr
    obtain ⟨y, hy, hyid⟩ := hstream
    exact hr.imp id fun hr => ⟨i, stats, y, rfl, hy, hid.trans hyid.symm, by rw [hr, hid]⟩
  | heartbeat i hb nodeId timestampMs hid hstamp hstream hnodes hreceipts =>
    rw [hreceipts, List.mem_append, List.mem_singleton] at hr
    exact .inl (hr.resolve_right fun hr => by simp [hr] at hitem)
  | tick hidle heq =>
    subst heq
    exact .inl hr
  | visit n now due visited transitions node hscan hnode hnew heq =>
    subst heq
    exact .inl hr
  | scanned now due visited transitions hscan hall heq =>
    subst heq
    exact .inl hr
  | persist ok nowMs transition rest hupsert hnodes hreceipts => exact .inl (hreceipts ▸ hr)
  | announce transition rest hann hnodes hreceipts => exact .inl (hreceipts ▸ hr)

namespace Cluster

variable {c c' : Cluster J} {i j : ℕ} {n : String} {x y : Replica J}

/-- Before any server has started. -/
def init (db : Database J) (clock : Int64) : Cluster J := ⟨[], db, clock⟩

/-- Replace a server. -/
def setReplica (c : Cluster J) (i : ℕ) (x : Replica J) : Cluster J :=
  { c with replicas := c.replicas.set i x }

/-- One step of the cluster. -/
def step (cfg : Config B J) (c : Cluster J) : ClusterAct B → Option (Cluster J)
  | .wait now =>
    if c.clock ≤ now then
      some { c with
        clock := now
        replicas := c.replicas.map fun x => { x with process := { x.process with clock := now } } }
    else none
  | .boot => some { c with replicas := c.replicas ++ [⟨Process.boot c.db c.clock, []⟩] }
  | .act i a => do
    let x ← c.replicas[i]?
    if a.isWait then none
    else
      let (process, db) ← Server.step cfg (x.process, c.db) a
      some ({ c with db }.setReplica i { x with process })
  | .getNode i nodeId => do
    let x ← c.replicas[i]?
    some (c.setReplica i
      { x with requests := x.requests ++ [.start cfg x.process.nodes nodeId] })
  | .query i k ok => do
    let x ← c.replicas[i]?
    match x.requests[k]? with
    | some (.querying nodeId) =>
      some (c.setReplica i { x with requests := x.requests.set k (.query c.db nodeId ok) })
    | _ => none
  | .fill i k => do
    let x ← c.replicas[i]?
    match x.requests[k]? with
    | some (.filling info) =>
      some (c.setReplica i
        { process := { x.process with nodes := x.process.nodes.insert info.nodeId info }
          requests := x.requests.set k (.answered (.ok info)) })
    | _ => none

/-! ## What each step does -/

theorem step_wait_iff {now : Int64} :
    c.step cfg (.wait now) = some c' ↔ c.clock ≤ now ∧ { c with
      clock := now
      replicas := c.replicas.map fun x => { x with process := { x.process with clock := now } } } = c' := by
  simp only [step, Option.ite_none_right_eq_some, Option.some.injEq]

theorem step_act_iff {a : Act B} :
    c.step cfg (.act i a) = some c' ↔ ∃ x, c.replicas[i]? = some x ∧ ¬ a.isWait = true ∧
      ∃ process db, Server.step cfg (x.process, c.db) a = some (process, db) ∧
        { c with db }.setReplica i { x with process } = c' := by
  simp only [step, Option.bind_eq_bind, Option.bind_eq_some_iff, Option.ite_none_left_eq_some,
    Option.some.injEq, Prod.exists]

theorem step_getNode_iff :
    c.step cfg (.getNode i n) = some c' ↔ ∃ x, c.replicas[i]? = some x ∧ c.setReplica i
      { x with requests := x.requests ++ [.start cfg x.process.nodes n] } = c' := by
  simp only [step, Option.bind_eq_bind, Option.bind_eq_some_iff, Option.some.injEq]

theorem step_query_iff {k : ℕ} {ok : Bool} :
    c.step cfg (.query i k ok) = some c' ↔ ∃ x, c.replicas[i]? = some x ∧
      ∃ nodeId, x.requests[k]? = some (.querying nodeId) ∧
        c.setReplica i { x with requests := x.requests.set k (.query c.db nodeId ok) } = c' := by
  simp only [step, Option.bind_eq_bind, Option.bind_eq_some_iff]
  refine exists_congr fun x => and_congr_right fun _ => ?_
  rcases x.requests[k]? with _ | (_ | _ | _) <;> simp

theorem step_fill_iff {k : ℕ} :
    c.step cfg (.fill i k) = some c' ↔ ∃ x, c.replicas[i]? = some x ∧
      ∃ info, x.requests[k]? = some (.filling info) ∧
        c.setReplica i
          { process := { x.process with nodes := x.process.nodes.insert info.nodeId info }
            requests := x.requests.set k (.answered (.ok info)) } = c' := by
  simp only [step, Option.bind_eq_bind, Option.bind_eq_some_iff]
  refine exists_congr fun x => and_congr_right fun _ => ?_
  rcases x.requests[k]? with _ | (_ | _ | _) <;> simp

/-! ## Offline writes across servers -/

/-- A server has processed a `Stats` of the node less than 30 s ago. -/
def Streaming (c : Cluster J) (i : ℕ) (n : String) : Prop :=
  ∃ x ∈ c.replicas[i]?, ∃ r ∈ x.process.receiptsOf n,
    r.item.isSome = true ∧ c.clock.toInt - 30000 < r.receivedAt.toInt

/-- A server has an offline write of the node outstanding. -/
def Pending (c : Cluster J) (j : ℕ) (n : String) : Prop :=
  ∃ x ∈ c.replicas[j]?, n ∈ x.process.liveness.pending

/-- The node is streaming to another server. -/
def StreamingElsewhere (c : Cluster J) (j : ℕ) (n : String) : Prop := ∃ i, i ≠ j ∧ c.Streaming i n

/-- Another server has an offline write of the node outstanding. -/
def PendingElsewhere (c : Cluster J) (i : ℕ) (n : String) : Prop := ∃ j, j ≠ i ∧ c.Pending j n

/-- A step is the write of status `offline` for the node by a server. -/
def WritesOffline (c : Cluster J) (a : ClusterAct B) (j : ℕ) (n : String) : Prop :=
  a = .act j (.persist true) ∧ ∃ x ∈ c.replicas[j]?,
    ∃ transition ∈ x.process.liveness.current?, transition.nodeId = n

/-- No server writes a node offline that is streaming to another server. -/
def NoForeignOffline (c : Cluster J) (a : ClusterAct B) : Prop :=
  ∀ j n, c.WritesOffline a j n → ¬ c.StreamingElsewhere j n

/-- The guard on the steps. -/
def KeepsClear (c : Cluster J) : ClusterAct B → Prop
  -- a checker finds no node overdue that is streaming to another server
  | .act j (.visit n) => ∀ x ∈ c.replicas[j]?, ∀ now ∈ x.process.tickTime,
    ∀ node ∈ x.process.nodes.lookup n, Registry.overdue now node = true →
      ¬ c.StreamingElsewhere j node.nodeId
  -- a snapshot is accepted of a node only while no other server has an offline write outstanding
  | .act i (.receive k (.message (some (.stats stats)))) => ∀ x ∈ c.replicas[i]?,
    ∀ y ∈ x.process.streams[k]?, stats.nodeId = y.nodeId → ¬ c.PendingElsewhere i stats.nodeId
  | _ => True

section Decidable

instance : Decidable (c.Streaming i n) := inferInstanceAs (Decidable (∃ x ∈ c.replicas[i]?, _))

instance : Decidable (c.Pending i n) := inferInstanceAs (Decidable (∃ x ∈ c.replicas[i]?, _))

instance : Decidable (c.StreamingElsewhere j n) :=
  decidable_of_iff (∃ i < c.replicas.length, i ≠ j ∧ c.Streaming i n) <| by
    refine ⟨fun ⟨i, _, h⟩ => ⟨i, h⟩, fun ⟨i, hij, x, hx, h⟩ => ⟨i, ?_, hij, x, hx, h⟩⟩
    exact (List.getElem?_eq_some_iff.mp hx).1

instance : Decidable (c.PendingElsewhere i n) :=
  decidable_of_iff (∃ j < c.replicas.length, j ≠ i ∧ c.Pending j n) <| by
    refine ⟨fun ⟨j, _, h⟩ => ⟨j, h⟩, fun ⟨j, hij, x, hx, h⟩ => ⟨j, ?_, hij, x, hx, h⟩⟩
    exact (List.getElem?_eq_some_iff.mp hx).1

instance : DecidablePred (KeepsClear (B := B) c)
  | .act j (.visit n) =>
    have (x : Replica J) : Decidable (∀ now ∈ x.process.tickTime,
        ∀ node ∈ x.process.nodes.lookup n, Registry.overdue now node = true →
          ¬ c.StreamingElsewhere j node.nodeId) := Option.decidableForallMem _
    inferInstanceAs (Decidable (∀ x ∈ c.replicas[j]?, _))
  | .act i (.receive k (.message (some (.stats _)))) => inferInstanceAs (Decidable
    (∀ x ∈ c.replicas[i]?, ∀ y ∈ x.process.streams[k]?, _ → ¬ _))
  | .act _ (.receive _ .error) | .act _ (.receive _ .ended) | .act _ (.receive _ (.message none))
  | .act _ (.receive _ (.message (some (.heartbeat _))))
  | .act _ (.receive _ (.message (some (.probeResult _)))) | .act _ (.wait _) | .act _ (.openStream _)
  | .act _ (.enqueue _) | .act _ (.broadcast _) | .act _ (.ack ..) | .act _ (.workerRecv _)
  | .act _ (.workerUpsert ..) | .act _ (.workerInsert ..) | .act _ .tick | .act _ .scanned
  | .act _ (.persist _) | .act _ .announce | .wait _ | .boot | .getNode .. | .query .. | .fill .. =>
    isTrue trivial

end Decidable

/-! ## The invariant -/

/-- A node that is streaming to a server has no offline write outstanding at another. -/
def Clear (c : Cluster J) : Prop := ∀ j n, c.Pending j n → ¬ c.StreamingElsewhere j n

theorem clear_init (db : Database J) (clock : Int64) : (init db clock).Clear := by
  rintro j n ⟨x, hx, -⟩
  exact absurd hx (by simp [init])

theorem getElem?_setReplica (h : c.replicas[i]? = some x) :
    (c.setReplica i y).replicas[j]? = if i = j then some y else c.replicas[j]? := by
  obtain ⟨hlt, -⟩ := List.getElem?_eq_some_iff.mp h
  rw [setReplica, List.getElem?_set]
  split <;> simp_all

/-- A server may be replaced by one with no new transition of a node that streams elsewhere, and no
new snapshot of a node that is pending elsewhere. -/
theorem Clear.setReplica (h : c.Clear) (hx : c.replicas[i]? = some x)
    (hpending : ∀ n ∈ y.process.liveness.pending,
      n ∈ x.process.liveness.pending ∨ ¬ c.StreamingElsewhere i n)
    (hreceipts : ∀ r ∈ y.process.receipts, r.item.isSome = true →
      r ∈ x.process.receipts ∨ ¬ c.PendingElsewhere i r.nodeId) :
    (c.setReplica i y).Clear := by
  have hstreaming : ∀ k n, (c.setReplica i y).Streaming k n → c.Streaming k n ∨
      k = i ∧ ¬ c.PendingElsewhere i n := by
    rintro k n ⟨z, hz, r, hr, hitem, hlate⟩
    rw [getElem?_setReplica hx] at hz
    split at hz
    · rename_i hik
      obtain rfl := Option.some.inj hz
      have hid : r.nodeId = n := by simpa using List.of_mem_filter hr
      refine (hreceipts r (List.mem_of_mem_filter hr) hitem).imp (fun hold => ?_) fun hnew =>
        ⟨hik.symm, hid ▸ hnew⟩
      exact ⟨x, hik ▸ hx, r, List.mem_filter.mpr ⟨hold, by simpa using hid⟩, hitem, hlate⟩
    · exact .inl ⟨z, hz, r, hr, hitem, hlate⟩
  rintro j n ⟨z, hz, hn⟩ ⟨k, hk, hstream⟩
  rw [getElem?_setReplica hx] at hz
  split at hz
  · rename_i hij
    subst hij
    obtain rfl := Option.some.inj hz
    have hold : c.Streaming k n := (hstreaming k n hstream).resolve_right fun hnew => hk hnew.1
    rcases hpending n hn with hmem | hclear
    · exact h i n ⟨x, hx, hmem⟩ ⟨k, hk, hold⟩
    · exact hclear ⟨k, hk, hold⟩
  · rename_i hij
    rcases hstreaming k n hstream with hold | ⟨rfl, hnone⟩
    · exact h j n ⟨z, hz, hn⟩ ⟨k, hk, hold⟩
    · exact hnone ⟨j, Ne.symm hij, z, hz, hn⟩

/-- A request changes neither transitions nor receipts. -/
theorem Clear.setReplica_of_same (h : c.Clear) (hx : c.replicas[i]? = some x)
    (hlive : y.process.liveness = x.process.liveness)
    (hreceipts : y.process.receipts = x.process.receipts) : (c.setReplica i y).Clear :=
  h.setReplica hx (fun _ hn => .inl (hlive ▸ hn)) (fun _ hr _ => .inl (hreceipts ▸ hr))

/-- **Guarded steps keep the nodes clear.** -/
theorem Clear.step {a : ClusterAct B} (h : c.Clear) (hguard : c.KeepsClear a)
    (hs : c.step cfg a = some c') : c'.Clear := by
  cases a with
  | wait now =>
    obtain ⟨hle, rfl⟩ := step_wait_iff.mp hs
    rintro j n ⟨y, hy, hn⟩ ⟨i, hij, x, hx, r, hr, hitem, hlate⟩
    rw [Option.mem_def, List.getElem?_map] at hx hy
    obtain ⟨x₀, hx₀, rfl⟩ := Option.map_eq_some_iff.mp hx
    obtain ⟨y₀, hy₀, rfl⟩ := Option.map_eq_some_iff.mp hy
    -- what is recent at the later time was recent before
    rw [Int64.le_iff_toInt_le] at hle
    have hlate' : now.toInt - 30000 < r.receivedAt.toInt := hlate
    exact h j n ⟨y₀, hy₀, hn⟩ ⟨i, hij, x₀, hx₀, r, hr, hitem, by omega⟩
  | boot =>
    obtain rfl := Option.some.inj hs
    rintro j n ⟨y, hy, hn⟩ ⟨i, hij, x, hx, r, hr, hrest⟩
    rcases Machine.getElem?_concat_cases hy with hy | ⟨-, rfl⟩
    · rcases Machine.getElem?_concat_cases hx with hx | ⟨-, rfl⟩
      · exact h j n ⟨y, hy, hn⟩ ⟨i, hij, x, hx, r, hr, hrest⟩
      · exact absurd hr (by simp [Process.receiptsOf, Process.boot])
    · exact absurd hn List.not_mem_nil
  | act i a =>
    obtain ⟨x, hx, -, process, db, hstep, rfl⟩ := step_act_iff.mp hs
    have he := step_effect hstep
    have hdb : ({ c with db } : Cluster J).Clear := h
    refine hdb.setReplica hx (fun n hn => ?_) (fun r hr hitem => ?_)
    · refine (he.mem_pending hn).imp id ?_
      rintro ⟨m, now, node, rfl, htick, hnode, hdue, rfl⟩
      exact hguard x hx now htick node hnode hdue
    · refine (he.mem_receipts hr hitem).imp id ?_
      rintro ⟨k, stats, y, rfl, hy, hid, hrid⟩
      rw [hrid]
      exact hguard x hx y hy hid
  | getNode i nodeId =>
    obtain ⟨x, hx, rfl⟩ := step_getNode_iff.mp hs
    exact h.setReplica_of_same hx rfl rfl
  | query i k ok =>
    obtain ⟨x, hx, nodeId, -, rfl⟩ := step_query_iff.mp hs
    exact h.setReplica_of_same hx rfl rfl
  | fill i k =>
    obtain ⟨x, hx, info, -, rfl⟩ := step_fill_iff.mp hs
    exact h.setReplica_of_same hx rfl rfl

/-- The node whose offline write is made has it outstanding. -/
theorem WritesOffline.pending {a : ClusterAct B} (h : c.WritesOffline a j n) : c.Pending j n := by
  obtain ⟨-, x, hx, transition, hcurrent, rfl⟩ := h
  refine ⟨x, hx, ?_⟩
  cases hlive : x.process.liveness with
  | upserting nowMs t rest =>
    rw [hlive, Liveness.current?, Option.mem_some] at hcurrent
    exact hcurrent ▸ List.mem_cons_self
  | _ => simp [hlive, Liveness.current?] at hcurrent

/-- **In a guarded run no server writes a node offline that is streaming to another.** -/
theorem noForeignOffline_of_keepsClear {db : Database J} {clock : Int64} {as : List (ClusterAct B)}
    (hguard : Machine.Along (step cfg) KeepsClear (init db clock) as) :
    Machine.Along (step cfg) NoForeignOffline (init db clock) as :=
  hguard.of_invariant (fun _ _ _ hI hP hs => hI.step hP hs)
    (fun _ _ hI _ j n hwrite => hI j n hwrite.pending) (clear_init db clock)

/-- A database with one node, last written at 100 s. -/
def oneNode : Database String := Database.empty.upsertNode "node-01" "node-01" "online" 100000

/-- Two servers load the node, which then streams to the first of them. -/
def streamingRun : List (ClusterAct ℕ) :=
  [.boot, .boot, .wait 110000, .act 0 (.openStream "node-01"),
    .act 0 (.receive 0 (.message (some (.stats ⟨"node-01", 110000, 7⟩)))), .act 0 (.enqueue 0),
    .act 0 (.broadcast 0), .wait 125000,
    .act 0 (.receive 0 (.message (some (.stats ⟨"node-01", 125000, 8⟩))))]

theorem noForeignOffline_streamingRun :
    (Machine.run (step .byText) (init oneNode 100000) (streamingRun ++
        [.act 1 .tick, .act 1 (.visit "node-01"), .act 1 .scanned])).isSome = true ∧
      Machine.Along (step .byText) NoForeignOffline (init oneNode 100000) (streamingRun ++
        [.act 1 .tick, .act 1 (.visit "node-01"), .act 1 .scanned]) :=
  ⟨by decide, noForeignOffline_of_keepsClear (by decide)⟩

theorem streaming_node_written_offline :
    ¬ Machine.Along (step .byText) NoForeignOffline (init oneNode 100000) (streamingRun ++
      [.wait 135000, .act 1 .tick, .act 1 (.visit "node-01"), .act 1 .scanned] ++
        [.act 1 (.persist true)]) := by
  intro hall
  have hrun := (Option.some_get (x := Machine.run (step .byText) (init oneNode 100000) (streamingRun ++
    [.wait 135000, .act 1 .tick, .act 1 (.visit "node-01"), .act 1 .scanned])) (by decide)).symm
  have hpersist := ((Machine.along_append hrun).mp hall).2.1
  exact hpersist 1 "node-01" ⟨rfl, by decide⟩ (by decide)

end Cluster

end Hakuraku.Server

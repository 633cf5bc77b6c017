import Hakuraku.Server.Isolation
import Hakuraku.Server.Replicas

/-!
# The cache fill of the node endpoint

Reference: `pulse-server/src/api.rs`, `get_node`; `pulse-server/src/grpc.rs`, `stream_telemetry`;
`pulse-server/src/db.rs`, `get_node`.

A request for a node that misses the registry reads the node's row, and puts it into the registry
whatever has happened there since the miss. A message that the server accepts for the node in between
is overwritten with the older row.

`Watched` keeps, beside the servers, a ghost record of the registry entries that `stream_telemetry` has
written. No step of a request changes such an entry in a run in which no message is accepted of a node
that a request has missed and not yet put into the registry.
-/

namespace Hakuraku.Server

variable {B J : Type} {cfg : Config B J}

/-- The node whose registry entry a step of a stream writes. A heartbeat writes an entry that is
there. -/
def writesEntry (cfg : Config B J) (s : Process J) (a : Act B) : Option String := do
  let i ← a.stream?
  match emits cfg i s a with
  | some (.insert nodeId _ _) => some nodeId
  | some (.refresh nodeId _) => if (s.nodes.lookup nodeId).isSome then some nodeId else none
  | _ => none

/-- The request has missed the node and not yet put it into the registry. -/
def GetNode.pendingFor (n : String) : GetNode J → Bool
  | .querying nodeId => nodeId = n
  | .filling info => info.nodeId = n
  | .answered _ => false

/-- The steps of the requests for nodes. -/
def ClusterAct.ofGetNode : ClusterAct B → Bool
  | .getNode .. | .query .. | .fill .. => true
  | _ => false

/-- The servers, and the entries that `stream_telemetry` has written last, each with its server. -/
structure Watched (J : Type) where
  cluster : Cluster J
  written : List (ℕ × String)

/-- A node's entry in the registry of a server. -/
def Cluster.entry (c : Cluster J) (i : ℕ) (n : String) : Option (NodeInfo J) :=
  c.replicas[i]?.bind fun x => x.process.nodes.lookup n

namespace Watched

/-- The record after a step. A fill takes the entry over. -/
def recorded (cfg : Config B J) (w : Watched J) : ClusterAct B → List (ℕ × String)
  | .act i a => match w.cluster.replicas[i]?.bind fun x => writesEntry cfg x.process a with
    | some n => (i, n) :: w.written
    | none => w.written
  | .fill i k => match w.cluster.replicas[i]?.bind fun x => x.requests[k]? with
    | some (.filling info) => w.written.filter (· ≠ (i, info.nodeId))
    | _ => w.written
  | _ => w.written

/-- One step of the servers. -/
def step (cfg : Config B J) (w : Watched J) (b : ClusterAct B) : Option (Watched J) :=
  (w.cluster.step cfg b).map fun cluster => ⟨cluster, w.recorded cfg b⟩

/-- Before any server has started. -/
def init (db : Database J) (clock : Int64) : Watched J := ⟨.init db clock, []⟩

/-- A step of a request leaves alone what `stream_telemetry` has written. -/
def KeepsUpdates (cfg : Config B J) (w : Watched J) (b : ClusterAct B) : Prop :=
  b.ofGetNode = true → ∀ c, w.cluster.step cfg b = some c →
    ∀ e ∈ w.written, c.entry e.1 e.2 = w.cluster.entry e.1 e.2

/-- The guard: a stream writes the entry of a node only while no request of the server has missed the
node and is still to put it into the registry. -/
def NoneBetween (cfg : Config B J) (w : Watched J) : ClusterAct B → Prop
  | .act i a => ∀ x ∈ w.cluster.replicas[i]?, ∀ n ∈ writesEntry cfg x.process a,
    ∀ r ∈ x.requests, r.pendingFor n = false
  | _ => True

/-- An entry that `stream_telemetry` has written is there, and no request is about to replace it. -/
def Settled (w : Watched J) : Prop :=
  ∀ e ∈ w.written, ∃ x, w.cluster.replicas[e.1]? = some x ∧
    (x.process.nodes.lookup e.2).isSome = true ∧ ∀ r ∈ x.requests, r.pendingFor e.2 = false

theorem settled_init (db : Database J) (clock : Int64) : (init db clock).Settled :=
  fun _ he => absurd he List.not_mem_nil

end Watched

/-! ## Entries stay -/

/-- No step of a server removes an entry. -/
theorem Effect.isSome_lookup {s s' : Process J} {a : Act B} {n : String} (he : Effect s s' a)
    (h : (s.nodes.lookup n).isSome = true) : (s'.nodes.lookup n).isSome = true := by
  cases he with
  | other hnodes => rwa [hnodes]
  | stats i stats nodeId timestampMs statsStr statsJson hid hstamp hstream hnodes =>
    by_cases hne : n = nodeId
    · subst hne
      rw [hnodes, Registry.lookup_onStats_self]
      rfl
    · rwa [hnodes, Registry.lookup_onStats_of_ne hne]
  | heartbeat i hb nodeId timestampMs hid hstamp hstream hnodes =>
    by_cases hne : n = nodeId
    · subst hne
      rwa [hnodes, Registry.lookup_onHeartbeat_self, Option.isSome_map]
    · rwa [hnodes, Registry.lookup_onHeartbeat_of_ne hne]
  | tick hidle heq => rwa [heq]
  | visit m now due visited transitions node hscan hnode hnew heq =>
    subst heq
    by_cases hne : n = m
    · subst hne
      rwa [Registry.lookup_onVisit_self, Option.isSome_map]
    · rwa [Registry.lookup_onVisit_of_ne hne]
  | scanned now due visited transitions hscan hall heq => rwa [heq]
  | persist ok nowMs transition rest hupsert hnodes => rwa [hnodes]
  | announce transition rest hann hnodes => rwa [hnodes]

/-- An entry that a stream writes is there afterwards. -/
theorem isSome_of_writesEntry {p p' : State J} {a : Act B} {n : String}
    (hs : step cfg p a = some p') (hw : writesEntry cfg p.1 a = some n) :
    (p'.1.nodes.lookup n).isSome = true := by
  rw [writesEntry, Option.bind_eq_bind, Option.bind_eq_some_iff] at hw
  obtain ⟨i, hi, hw⟩ := hw
  obtain ⟨x, y, hdoes, -⟩ := step_doesOnly hs hi
  obtain ⟨q, receipts, happly, rfl⟩ := hdoes.process
  split at hw
  · rename_i nodeId timestampMs statsJson he
    obtain rfl := Option.some.inj hw
    rw [he] at happly
    obtain rfl := Option.some.inj happly
    show ((p.1.nodes.onStats nodeId timestampMs statsJson).lookup nodeId).isSome = true
    rw [Registry.lookup_onStats_self]
    rfl
  · rename_i nodeId timestampMs he
    rw [Option.ite_none_right_eq_some, Option.some.injEq] at hw
    obtain ⟨hsome, rfl⟩ := hw
    rw [he] at happly
    obtain rfl := Option.some.inj happly
    show ((p.1.nodes.onHeartbeat nodeId timestampMs).lookup nodeId).isSome = true
    rwa [Registry.lookup_onHeartbeat_self, Option.isSome_map]
  · exact absurd hw (by simp)

/-- A request that arrives is pending for a node only if the node is not in the registry. -/
theorem GetNode.pendingFor_start {nodes : Registry J} {nodeId n : String}
    (h : (nodes.lookup n).isSome = true) : (start cfg nodes nodeId).pendingFor n = false := by
  unfold start
  split
  · split
    · rfl
    · rename_i hmiss
      have hne : nodeId ≠ n := by
        rintro rfl
        rw [hmiss] at h
        exact absurd h (by simp)
      simp [pendingFor, hne]
  · rfl

/-- The database answers for the node that it was asked for. -/
theorem GetNode.pendingFor_query {db : Database J} {nodeId n : String} {ok : Bool}
    (h : (GetNode.querying nodeId : GetNode J).pendingFor n = false) :
    (query db nodeId ok).pendingFor n = false := by
  unfold query
  split
  · split
    · rename_i info hinfo
      have hid := (Database.getNode_spec hinfo).1
      simpa [pendingFor, hid] using h
    · rfl
  · rfl

namespace Watched

variable {w w' : Watched J} {b : ClusterAct B}

/-- One server changes: what was settled stays so if the server keeps it settled. -/
theorem Settled.setReplica {i : ℕ} {x y : Replica J} {written : List (ℕ × String)} {db : Database J}
    (h : w.Settled) (hx : w.cluster.replicas[i]? = some x)
    (hold : ∀ e ∈ written, e.1 ≠ i → e ∈ w.written)
    (hy : ∀ n, (i, n) ∈ written → (y.process.nodes.lookup n).isSome = true ∧
      ∀ r ∈ y.requests, r.pendingFor n = false) :
    (⟨{ w.cluster with db }.setReplica i y, written⟩ : Watched J).Settled := by
  rintro ⟨j, n⟩ he
  have hset : ∀ j, ({ w.cluster with db }.setReplica i y).replicas[j]? =
      if i = j then some y else w.cluster.replicas[j]? := fun j =>
    Cluster.getElem?_setReplica (c := { w.cluster with db }) hx
  by_cases hij : i = j
  · subst hij
    obtain ⟨hsome, hnone⟩ := hy n he
    exact ⟨y, (hset i).trans (if_pos rfl), hsome, hnone⟩
  · obtain ⟨z, hz, hrest⟩ := h (j, n) (hold _ he (Ne.symm hij))
    exact ⟨z, ((hset j).trans (if_neg hij)).trans hz, hrest⟩

/-- What a server's own entries are settled with. -/
theorem Settled.of_replica {i : ℕ} {x : Replica J} {n : String} (h : w.Settled)
    (hx : w.cluster.replicas[i]? = some x) (hn : (i, n) ∈ w.written) :
    (x.process.nodes.lookup n).isSome = true ∧ ∀ r ∈ x.requests, r.pendingFor n = false := by
  obtain ⟨z, hz, hsettled⟩ := h (i, n) hn
  obtain rfl : x = z := Option.some.inj (hx.symm.trans hz)
  exact hsettled

/-- **Guarded steps keep the entries settled.** -/
theorem Settled.step (h : w.Settled) (hguard : w.NoneBetween cfg b) (hs : w.step cfg b = some w') :
    w'.Settled := by
  obtain ⟨c, hc, rfl⟩ := Option.map_eq_some_iff.mp hs
  cases b with
  | wait now =>
    obtain ⟨-, rfl⟩ := Cluster.step_wait_iff.mp hc
    intro e he
    obtain ⟨x, hx, hrest⟩ := h e he
    refine ⟨{ x with process := { x.process with clock := now } }, ?_, hrest⟩
    rw [List.getElem?_map, hx]
    rfl
  | boot =>
    obtain rfl := Option.some.inj hc
    intro e he
    obtain ⟨x, hx, hrest⟩ := h e he
    exact ⟨x, (List.getElem?_append_left (List.getElem?_eq_some_iff.mp hx).1).trans hx, hrest⟩
  | act i a =>
    obtain ⟨x, hx, -, process, db, hstep, rfl⟩ := Cluster.step_act_iff.mp hc
    have heffect := step_effect hstep
    have hkeep : ∀ n, (i, n) ∈ w.written → (process.nodes.lookup n).isSome = true ∧
        ∀ r ∈ x.requests, r.pendingFor n = false := by
      intro n hn
      obtain ⟨hsome, hnone⟩ := h.of_replica hx hn
      exact ⟨heffect.isSome_lookup hsome, hnone⟩
    cases hwrites : writesEntry cfg x.process a with
    | none =>
      simp only [recorded, hx, Option.bind_some, hwrites]
      exact h.setReplica hx (fun e he _ => he) hkeep
    | some n =>
      simp only [recorded, hx, Option.bind_some, hwrites]
      refine h.setReplica hx (fun e he hne => ?_) fun m hm => ?_
      · rcases List.mem_cons.mp he with rfl | he
        · exact absurd rfl hne
        · exact he
      · rcases List.mem_cons.mp hm with heq | hm
        · obtain rfl := (Prod.mk.inj heq).2
          exact ⟨isSome_of_writesEntry hstep hwrites, hguard x hx m hwrites⟩
        · exact hkeep m hm
  | getNode i nodeId =>
    obtain ⟨x, hx, rfl⟩ := Cluster.step_getNode_iff.mp hc
    refine h.setReplica hx (fun e he _ => he) fun n hn => ?_
    obtain ⟨hsome, hnone⟩ := h.of_replica hx hn
    refine ⟨hsome, fun r hr => ?_⟩
    rcases List.mem_append.mp hr with hr | hr
    · exact hnone r hr
    · rw [List.mem_singleton.mp hr]
      exact GetNode.pendingFor_start hsome
  | query i k ok =>
    obtain ⟨x, hx, nodeId, hk, rfl⟩ := Cluster.step_query_iff.mp hc
    refine h.setReplica hx (fun e he _ => he) fun n hn => ?_
    obtain ⟨hsome, hnone⟩ := h.of_replica hx hn
    refine ⟨hsome, fun r hr => ?_⟩
    rcases List.mem_or_eq_of_mem_set hr with hr | rfl
    · exact hnone r hr
    · exact GetNode.pendingFor_query (hnone _ (List.mem_of_getElem? hk))
  | fill i k =>
    obtain ⟨x, hx, info, hk, rfl⟩ := Cluster.step_fill_iff.mp hc
    simp only [recorded, hx, Option.bind_some, hk]
    refine h.setReplica hx (fun e he _ => List.mem_of_mem_filter he) fun n hn => ?_
    obtain ⟨hn, hne⟩ := List.mem_filter.mp hn
    have hne' : n ≠ info.nodeId := by
      rintro rfl
      simp at hne
    obtain ⟨hsome, hnone⟩ := h.of_replica hx hn
    refine ⟨(AList.lookup_insert_ne hne').symm ▸ hsome, fun r hr => ?_⟩
    rcases List.mem_or_eq_of_mem_set hr with hr | rfl
    · exact hnone r hr
    · rfl

/-- The entries of a cluster in which one server changes. -/
theorem entry_setReplica {c : Cluster J} {i j : ℕ} {x y : Replica J} {n : String}
    (hx : c.replicas[i]? = some x) (hy : i = j → y.process.nodes.lookup n = x.process.nodes.lookup n) :
    (c.setReplica i y).entry j n = c.entry j n := by
  rw [Cluster.entry, Cluster.entry, Cluster.getElem?_setReplica hx]
  split
  · rename_i hij
    rw [← hij, hx]
    exact hy hij
  · rfl

/-- Where the entries are settled, a request changes none of them. -/
theorem Settled.keepsUpdates (h : w.Settled) (b : ClusterAct B) : w.KeepsUpdates cfg b := by
  rintro hb c hc ⟨j, n⟩ he
  cases b with
  | getNode i nodeId =>
    obtain ⟨x, hx, rfl⟩ := Cluster.step_getNode_iff.mp hc
    exact entry_setReplica hx fun _ => rfl
  | query i k ok =>
    obtain ⟨x, hx, nodeId, -, rfl⟩ := Cluster.step_query_iff.mp hc
    exact entry_setReplica hx fun _ => rfl
  | fill i k =>
    obtain ⟨x, hx, info, hk, rfl⟩ := Cluster.step_fill_iff.mp hc
    refine entry_setReplica hx fun hij => ?_
    -- the request is pending for the node that it fills in
    have hne : n ≠ info.nodeId := by
      rintro rfl
      obtain ⟨z, hz, -, hnone⟩ := h _ he
      obtain rfl : x = z := Option.some.inj (hx.symm.trans (hij ▸ hz))
      have hpending := hnone _ (List.mem_of_getElem? hk)
      simp [GetNode.pendingFor] at hpending
    exact AList.lookup_insert_ne hne
  | wait now => exact absurd hb (by simp [ClusterAct.ofGetNode])
  | boot => exact absurd hb (by simp [ClusterAct.ofGetNode])
  | act i a => exact absurd hb (by simp [ClusterAct.ofGetNode])

/-- **Requests lose no update in a run in which none comes between.** If no stream writes the entry of
a node while a request has missed it and is still to put it into the registry, no step of any request
changes an entry that `stream_telemetry` has written. -/
theorem requests_keep_updates (cfg : Config B J) (db : Database J) (clock : Int64)
    (as : List (ClusterAct B))
    (hguard : Machine.Along (step cfg) (NoneBetween cfg) (init db clock) as) :
    Machine.Along (step cfg) (KeepsUpdates cfg) (init db clock) as :=
  hguard.of_invariant (fun _ _ _ hI hP hs => hI.step hP hs) (fun _ b hI _ => hI.keepsUpdates b)
    (settled_init db clock)

/-- A server starts before the node's row is there, and then a request misses the node. -/
def missRun : List (ClusterAct ℕ) :=
  [.boot, .boot, .act 1 (.openStream "node-01"),
    .act 1 (.receive 0 (.message (some (.stats ⟨"node-01", 5, 7⟩)))), .act 1 (.enqueue 0),
    .act 1 (.workerRecv 3), .act 1 (.workerUpsert 3 true), .act 1 (.workerInsert 3 true),
    .act 0 (.openStream "node-01"), .getNode 0 "node-01", .query 0 0 true]

/-- A snapshot that is accepted by the first server. -/
def newSnapshot : ClusterAct ℕ := .act 0 (.receive 0 (.message (some (.stats ⟨"node-01", 9, 8⟩))))

instance (cfg : Config B J) (w : Watched J) : ∀ b : ClusterAct B, Decidable (NoneBetween cfg w b)
  | .act i _ => inferInstanceAs (Decidable (∀ x ∈ w.cluster.replicas[i]?, _))
  | .wait _ | .boot | .getNode .. | .query .. | .fill .. => isTrue trivial

theorem requests_keep_updates_missRun :
    (Machine.run (step .byText) (init .empty 0) (missRun ++ [.fill 0 0, newSnapshot])).isSome = true ∧
      Machine.Along (step .byText) (KeepsUpdates .byText) (init .empty 0)
        (missRun ++ [.fill 0 0, newSnapshot]) :=
  ⟨by decide, requests_keep_updates _ _ _ _ (by decide)⟩

/-- **A request overwrites a newer snapshot.** The snapshot is accepted between the query of the request
and its insert, and the entry goes back to the row that was read. -/
theorem request_overwrites_snapshot :
    ∃ w c, Machine.run (step .byText) (init .empty 0) (missRun ++ [newSnapshot]) = some w ∧
      w.cluster.step .byText (.fill 0 0 : ClusterAct ℕ) = some c ∧
      (w.cluster.entry 0 "node-01").bind (·.latestStats) = some "8" ∧
      (c.entry 0 "node-01").bind (·.latestStats) = some "7" ∧
      ¬ KeepsUpdates .byText w (.fill 0 0 : ClusterAct ℕ) := by
  refine ⟨_, _, (Option.some_get (by decide)).symm, (Option.some_get (by decide)).symm,
    by decide, by decide, fun hkeeps => ?_⟩
  have hsame := hkeeps rfl _ (Option.some_get (by decide)).symm (0, "node-01") (by decide)
  have hstats := congrArg (Option.bind · fun node => node.latestStats) hsame
  exact absurd hstats (by decide)

end Watched

end Hakuraku.Server

import Hakuraku.Lib.Query
import Hakuraku.Server.State
import Mathlib.Data.List.Induction
import Mathlib.Data.String.Basic

/-!
# The database

Reference: `pulse-server/src/db.rs` and `pulse-server/migrations/001_init.sql`.

The tables are the `nodes` table, keyed by id, and the lists of the `snapshots` and `probe_results`
in the order of their identity columns. The queries are given their meaning by `Query`. A statement
that violates a foreign key returns `none`.
-/

namespace Hakuraku.Server

/-- A row of `nodes`, without its key. -/
structure NodeRecord where
  hostname : String
  lastSeen : Int64
  status : String
deriving DecidableEq

/-- A row of `snapshots`. -/
structure Snapshot (J : Type) where
  nodeId : String
  timestamp : Int64
  statsJson : J
deriving DecidableEq

/-- The tables, with their foreign keys. -/
structure Database (J : Type) where
  nodes : AList fun _ : String => NodeRecord
  snapshots : List (Snapshot J)
  probeResults : List ProbeItem
  snapshots_fk : ∀ s ∈ snapshots, s.nodeId ∈ nodes
  probeResults_fk : ∀ r ∈ probeResults, r.nodeId ∈ nodes

/-- The database after the migrations. -/
def Database.empty {J : Type} : Database J := ⟨∅, [], [], by simp, by simp⟩

/-- `NodeRow`: a row of the queries for nodes. -/
structure NodeRow (J : Type) where
  id : String
  hostname : String
  lastSeen : Int64
  status : String
  statsJson : Option J

/-- The status a value of the `status` column stands for. -/
def NodeStatus.ofColumn (status : String) : NodeStatus :=
  if status = "online" then .online else if status = "offline" then .offline else .unknown

/-- `impl From<NodeRow> for NodeInfo`. -/
def NodeRow.into {J : Type} (row : NodeRow J) : NodeInfo J :=
  { nodeId := row.id, hostname := row.hostname, lastSeenMs := row.lastSeen,
    status := .ofColumn row.status, latestStats := row.statsJson }

namespace Database

variable {B J : Type}

/-- `upsert_node`, with the clock it has read. -/
def upsertNode (db : Database J) (nodeId hostname status : String) (nowMs : Int64) : Database J :=
  { db with
    nodes := db.nodes.insert nodeId ⟨hostname, nowMs, status⟩
    snapshots_fk := fun s hs => (AList.mem_insert _).mpr (.inr (db.snapshots_fk s hs))
    probeResults_fk := fun r hr => (AList.mem_insert _).mpr (.inr (db.probeResults_fk r hr)) }

/-- The value `insert_snapshot` stores, as the column returns it. -/
def stored (serde : Serde B J) (statsJson : String) : J :=
  serde.jsonb ((serde.fromStr statsJson).getD serde.null)

/-- `insert_snapshot`. -/
def insertSnapshot (serde : Serde B J) (db : Database J) (nodeId : String) (timestampMs : Int64)
    (statsJson : String) : Option (Database J) :=
  if h : nodeId ∈ db.nodes then
    some { db with
      snapshots := db.snapshots ++ [⟨nodeId, timestampMs, stored serde statsJson⟩]
      snapshots_fk := by simpa [or_imp, forall_and, h] using db.snapshots_fk }
  else none

/-- `insert_probe_result`. -/
def insertProbeResult (db : Database J) (item : ProbeItem) : Option (Database J) :=
  if h : item.nodeId ∈ db.nodes then
    some { db with
      probeResults := db.probeResults ++ [item]
      probeResults_fk := by simpa [or_imp, forall_and, h] using db.probeResults_fk }
  else none

theorem insertSnapshot_eq {serde : Serde B J} {db db' : Database J} {nodeId statsJson : String}
    {timestampMs : Int64} (h : db.insertSnapshot serde nodeId timestampMs statsJson = some db') :
    db'.nodes = db.nodes ∧
      db'.snapshots = db.snapshots ++ [⟨nodeId, timestampMs, stored serde statsJson⟩] := by
  rw [insertSnapshot, Option.dite_none_right_eq_some] at h
  obtain ⟨_, h⟩ := h
  exact Option.some.inj h ▸ ⟨rfl, rfl⟩

theorem insertProbeResult_eq {db db' : Database J} {item : ProbeItem}
    (h : db.insertProbeResult item = some db') :
    db'.nodes = db.nodes ∧ db'.snapshots = db.snapshots := by
  rw [insertProbeResult, Option.dite_none_right_eq_some] at h
  obtain ⟨_, h⟩ := h
  exact Option.some.inj h ▸ ⟨rfl, rfl⟩

/-- The snapshots of a node. -/
def snapshotsOf (db : Database J) (nodeId : String) : List (Snapshot J) :=
  db.snapshots.filter (·.nodeId = nodeId)

/-- A row of the join with the snapshot's timestamp, by which the queries order. -/
abbrev JoinRow (J : Type) := NodeRow J × Option Int64

/-- The rows of the join for one node. -/
def joinRows (db : Database J) (id : String) (node : NodeRecord) : List (JoinRow J) :=
  match db.snapshotsOf id with
  | [] => [(⟨id, node.hostname, node.lastSeen, node.status, none⟩, none)]
  | snapshots => snapshots.map fun s =>
    (⟨id, node.hostname, node.lastSeen, node.status, some s.statsJson⟩, some s.timestamp)

/-- `nodes n LEFT JOIN snapshots s ON s.node_id = n.id`. -/
def leftJoin (db : Database J) : List (JoinRow J) :=
  db.nodes.entries.flatMap fun entry => db.joinRows entry.1 entry.2

/-- `ORDER BY s.timestamp DESC`: nulls come first. -/
def timestampDesc : Option Int64 → Option Int64 → Prop
  | none, _ => True
  | some _, none => False
  | some a, some b => b ≤ a

instance : DecidableRel timestampDesc
  | none, _ => isTrue trivial
  | some _, none => isFalse id
  | some a, some b => inferInstanceAs (Decidable (b ≤ a))

/-- The order of the rows by timestamp. -/
def newestFirst (x y : JoinRow J) : Prop := timestampDesc x.2 y.2

instance : DecidableRel (newestFirst (J := J)) :=
  fun _ _ => inferInstanceAs (Decidable (timestampDesc _ _))

instance : Std.Total (newestFirst (J := J)) where
  total x y := by
    obtain ⟨x, _ | a⟩ := x
    · exact .inl trivial
    · obtain ⟨y, _ | b⟩ := y
      · exact .inr trivial
      · exact (Int64.le_total b a)

instance : IsTrans (JoinRow J) newestFirst where
  trans x y z := by
    obtain ⟨x, _ | a⟩ := x
    · exact fun _ _ => trivial
    · obtain ⟨y, _ | b⟩ := y
      · exact fun h => h.elim
      · obtain ⟨z, _ | c⟩ := z
        · exact fun _ h => h
        · exact fun hab hbc => Int64.le_trans hbc hab

/-- `get_node`. -/
def getNode (db : Database J) (nodeId : String) : Option (NodeInfo J) :=
  (Query.first newestFirst (db.leftJoin.filter (·.1.id = nodeId))).map (·.1.into)

/-- `get_all_nodes`. -/
def getAllNodes (db : Database J) : List (NodeInfo J) :=
  (Query.firstOfEach (· < ·) (·.1.id) newestFirst db.leftJoin).map (·.1.into)

theorem lookup_upsertNode {db : Database J} {n nodeId hostname status : String} {nowMs : Int64} :
    (db.upsertNode nodeId hostname status nowMs).nodes.lookup n =
      if n = nodeId then some ⟨hostname, nowMs, status⟩ else db.nodes.lookup n := by
  split
  · rename_i h
    rw [h]
    exact AList.lookup_insert _
  · rename_i h
    exact AList.lookup_insert_ne h

/-! ## What the queries select -/

variable {db : Database J} {n : String} {info : NodeInfo J}

/-- The stats of a node's newest snapshot, `none` if it has no snapshot. -/
def IsLatest (db : Database J) (n : String) : Option J → Prop
  | none => db.snapshotsOf n = []
  | some v =>
    ∃ s ∈ db.snapshotsOf n, s.statsJson = v ∧ ∀ s' ∈ db.snapshotsOf n, s'.timestamp ≤ s.timestamp

/-- The information describes a row of `nodes` with its newest snapshot. -/
def Describes (db : Database J) (info : NodeInfo J) : Prop :=
  ∃ node, db.nodes.lookup info.nodeId = some node ∧ info.hostname = node.hostname ∧
    info.lastSeenMs = node.lastSeen ∧ info.status = .ofColumn node.status ∧
    db.IsLatest info.nodeId info.latestStats

/-- A row of the join belongs to a node. -/
theorem mem_leftJoin {x : JoinRow J} :
    x ∈ db.leftJoin ↔ ∃ node, db.nodes.lookup x.1.id = some node ∧ x ∈ db.joinRows x.1.id node := by
  have hid : ∀ id node, x ∈ db.joinRows id node → x.1.id = id := by
    intro id node hx
    unfold joinRows at hx
    split at hx
    · rw [List.mem_singleton.mp hx]
    · obtain ⟨s, -, rfl⟩ := List.mem_map.mp hx
      rfl
  rw [leftJoin, List.mem_flatMap]
  constructor
  · rintro ⟨⟨id, node⟩, hmem, hx⟩
    obtain rfl := hid id node hx
    exact ⟨node, AList.mem_lookup_iff.mpr hmem, hx⟩
  · rintro ⟨node, hnode, hx⟩
    exact ⟨⟨x.1.id, node⟩, AList.mem_lookup_iff.mp hnode, hx⟩

/-- The rows of the join for one node carry its columns and one of its snapshots. -/
theorem mem_joinRows {x : JoinRow J} {node : NodeRecord} :
    x ∈ db.joinRows n node ↔
      x = (⟨n, node.hostname, node.lastSeen, node.status, none⟩, none) ∧ db.snapshotsOf n = [] ∨
      ∃ s ∈ db.snapshotsOf n,
        x = (⟨n, node.hostname, node.lastSeen, node.status, some s.statsJson⟩, some s.timestamp) := by
  unfold joinRows
  split
  · rename_i h
    simp [h]
  · rename_i h
    rw [List.mem_map, or_iff_right fun hnil => h hnil.2]
    exact exists_congr fun s => and_congr_right fun _ => eq_comm

theorem exists_mem_joinRows (db : Database J) (n : String) (node : NodeRecord) :
    ∃ x ∈ db.joinRows n node, x.1.id = n := by
  cases h : db.snapshotsOf n with
  | nil => exact ⟨_, mem_joinRows.mpr (.inl ⟨rfl, h⟩), rfl⟩
  | cons s l => exact ⟨_, mem_joinRows.mpr (.inr ⟨s, by simp [h], rfl⟩), rfl⟩

/-- **A row that no row of its node precedes describes the node.** -/
theorem describes_of_newest {x : JoinRow J} (hx : x ∈ db.leftJoin)
    (hnewest : ∀ y ∈ db.leftJoin, x.1.id = y.1.id → newestFirst x y) : db.Describes x.1.into := by
  obtain ⟨node, hnode, hrow⟩ := mem_leftJoin.mp hx
  refine ⟨node, hnode, ?_⟩
  rcases mem_joinRows.mp hrow with ⟨heq, hnil⟩ | ⟨s, hs, heq⟩
  · rw [heq]
    exact ⟨rfl, rfl, rfl, hnil⟩
  · have hlatest : ∀ s' ∈ db.snapshotsOf x.1.id, s'.timestamp ≤ s.timestamp := by
      intro s' hs'
      let y : JoinRow J :=
        (⟨x.1.id, node.hostname, node.lastSeen, node.status, some s'.statsJson⟩, some s'.timestamp)
      have hy : y ∈ db.joinRows x.1.id node := mem_joinRows.mpr (.inr ⟨s', hs', rfl⟩)
      have hle : timestampDesc x.2 y.2 := hnewest y (mem_leftJoin.mpr ⟨node, hnode, hy⟩) rfl
      rwa [congrArg Prod.snd heq] at hle
    have hcolumns : x.1 = ⟨x.1.id, node.hostname, node.lastSeen, node.status, some s.statsJson⟩ :=
      congrArg Prod.fst heq
    rw [hcolumns]
    exact ⟨rfl, rfl, rfl, s, hs, rfl, hlatest⟩

/-- **`get_node` describes the node it is asked for.** -/
theorem getNode_spec (h : db.getNode n = some info) : info.nodeId = n ∧ db.Describes info := by
  obtain ⟨x, hx, rfl⟩ := Option.map_eq_some_iff.mp h
  obtain ⟨hmem, hfirst⟩ := Query.first_spec hx
  simp only [List.mem_filter, decide_eq_true_eq] at hmem hfirst
  exact ⟨hmem.2, describes_of_newest hmem.1 fun y hy heq => hfirst y ⟨hy, heq ▸ hmem.2⟩⟩

/-- `get_node` finds every node of the table. -/
theorem getNode_isSome (h : n ∈ db.nodes) : (db.getNode n).isSome = true := by
  obtain ⟨node, hnode⟩ := Option.isSome_iff_exists.mp (AList.lookup_isSome.mpr h)
  obtain ⟨x, hx, hid⟩ := exists_mem_joinRows db n node
  have hmem : x ∈ db.leftJoin.filter (·.1.id = n) := by
    simp only [List.mem_filter, decide_eq_true_eq]
    exact ⟨mem_leftJoin.mpr ⟨node, hid.symm ▸ hnode, hid.symm ▸ hx⟩, hid⟩
  rw [getNode, Option.isSome_map, Option.isSome_iff_ne_none, Ne, Query.first_eq_none]
  exact List.ne_nil_of_mem hmem

/-- **Everything `get_all_nodes` returns describes a node.** -/
theorem getAllNodes_spec (h : info ∈ db.getAllNodes) : db.Describes info := by
  obtain ⟨x, hx, rfl⟩ := List.mem_map.mp h
  obtain ⟨hmem, hfirst⟩ := Query.firstOfEach_spec hx
  exact describes_of_newest hmem hfirst

/-- `get_all_nodes` returns every node of the table. -/
theorem exists_mem_getAllNodes (h : n ∈ db.nodes) : ∃ info ∈ db.getAllNodes, info.nodeId = n := by
  obtain ⟨node, hnode⟩ := Option.isSome_iff_exists.mp (AList.lookup_isSome.mpr h)
  obtain ⟨x, hx, hid⟩ := exists_mem_joinRows db n node
  have hmem : x ∈ db.leftJoin := mem_leftJoin.mpr ⟨node, hid.symm ▸ hnode, hid.symm ▸ hx⟩
  obtain ⟨y, hy, hkey⟩ := Query.exists_mem_firstOfEach (· < ·) (·.1.id) newestFirst hmem
  exact ⟨y.1.into, List.mem_map_of_mem hy, hkey.trans hid⟩

/-- What the latest stats are depends on the node's snapshots only, in any order. -/
theorem isLatest_perm {db db' : Database J} {n : String} {stats : Option J}
    (h : (db.snapshotsOf n).Perm (db'.snapshotsOf n)) :
    db.IsLatest n stats ↔ db'.IsLatest n stats := by
  cases stats with
  | none =>
    rw [IsLatest, IsLatest]
    exact ⟨fun hnil => (hnil ▸ h).nil_eq.symm, fun hnil => (hnil ▸ h).eq_nil⟩
  | some v => simp only [IsLatest, h.mem_iff]

/-- Where no two snapshots of a node have the same timestamp, only one can be its latest. -/
theorem IsLatest.unique {v w : Option J} (hv : db.IsLatest n v) (hw : db.IsLatest n w)
    (hdistinct : ((db.snapshotsOf n).map (·.timestamp)).Nodup) : v = w := by
  cases v with
  | none =>
    cases w with
    | none => rfl
    | some w =>
      obtain ⟨s, hs, -⟩ := hw
      rw [show db.snapshotsOf n = [] from hv] at hs
      exact absurd hs List.not_mem_nil
  | some v =>
    obtain ⟨s, hs, rfl, hmax⟩ := hv
    cases w with
    | none =>
      rw [show db.snapshotsOf n = [] from hw] at hs
      exact absurd hs List.not_mem_nil
    | some w =>
      obtain ⟨s', hs', rfl, hmax'⟩ := hw
      have heq : s.timestamp = s'.timestamp := Int64.le_antisymm (hmax' s hs) (hmax s' hs')
      rw [List.inj_on_of_nodup_map hdistinct hs hs' heq]

end Database

/-! ## Loading the registry -/

namespace Registry

variable {J : Type} {n : String} {info : NodeInfo J}

/-- The registry filled with the given nodes, one after the other. -/
def load (infos : List (NodeInfo J)) : Registry J :=
  infos.foldl (fun nodes info => nodes.insert info.nodeId info) ∅

theorem lookup_load_concat (infos : List (NodeInfo J)) :
    (load (infos ++ [info])).lookup n =
      if n = info.nodeId then some info else (load infos).lookup n := by
  simp only [load, List.foldl_append, List.foldl_cons, List.foldl_nil]
  split
  · rename_i h
    subst h
    exact AList.lookup_insert _
  · rename_i h
    exact AList.lookup_insert_ne h

/-- A loaded entry is one of the nodes. -/
theorem mem_of_lookup_load {infos : List (NodeInfo J)} (h : (load infos).lookup n = some info) :
    info ∈ infos ∧ info.nodeId = n := by
  induction infos using List.reverseRecOn with
  | nil => exact absurd h (by simp [load])
  | append_singleton infos last ih =>
    rw [lookup_load_concat] at h
    split at h
    · obtain rfl := Option.some.inj h
      exact ⟨by simp, by simp_all⟩
    · exact ⟨by simp [(ih h).1], (ih h).2⟩

/-- Every node is loaded. -/
theorem isSome_lookup_load {infos : List (NodeInfo J)} (h : info ∈ infos) :
    ((load infos).lookup info.nodeId).isSome = true := by
  induction infos using List.reverseRecOn with
  | nil => exact absurd h List.not_mem_nil
  | append_singleton infos last ih =>
    rw [lookup_load_concat]
    split
    · rfl
    · rename_i hne
      have hmem : info ∈ infos := (List.mem_append.mp h).resolve_right fun hlast =>
        hne (congrArg _ (List.mem_singleton.mp hlast))
      exact ih hmem

end Registry

end Hakuraku.Server

import Hakuraku.Server.Db
import Mathlib.Data.List.Perm.Lattice

/-!
# The two queries for nodes

Reference: `pulse-server/src/db.rs`, `get_all_nodes` and `get_node`.

`get_all_nodes` selects the first row of every node from the whole join, and `get_node` the first row
of the join of one node. The server fills its registry with the first query when it starts and with
the second when it meets a node that is not cached. Both select a row that no other row of the node
precedes, and there is only one such row if no two snapshots of the node have the same timestamp.
-/

namespace Hakuraku.Server.Database

variable {J : Type} {db : Database J}

/-- What describes a node is determined by its id, unless two of its snapshots are equally old. -/
theorem Describes.unique {info info' : NodeInfo J} (h : db.Describes info) (h' : db.Describes info')
    (hid : info.nodeId = info'.nodeId)
    (hdistinct : ((db.snapshotsOf info.nodeId).map (·.timestamp)).Nodup) : info = info' := by
  obtain ⟨row, hrow, hhostname, hlastSeen, hstatus, hlatest⟩ := h
  obtain ⟨row', hrow', hhostname', hlastSeen', hstatus', hlatest'⟩ := h'
  rw [← hid] at hrow' hlatest'
  obtain rfl : row = row' := Option.some.inj (hrow.symm.trans hrow')
  have hstats := hlatest.unique hlatest' hdistinct
  cases info
  cases info'
  simp_all

theorem mem_nodes_of_describes {info : NodeInfo J} (h : db.Describes info) : info.nodeId ∈ db.nodes := by
  obtain ⟨row, hrow, -⟩ := h
  exact AList.lookup_isSome.mp (hrow ▸ rfl)

/-- `get_node` finds the nodes of the table only. -/
theorem getNode_eq_none_iff {n : String} : db.getNode n = none ↔ n ∉ db.nodes := by
  constructor
  · intro hnone hmem
    have hsome := getNode_isSome hmem
    rw [hnone] at hsome
    cases hsome
  · intro hmem
    cases h : db.getNode n with
    | none => rfl
    | some info =>
      obtain ⟨hid, hdescribes⟩ := getNode_spec h
      exact absurd (hid ▸ mem_nodes_of_describes hdescribes) hmem

/-- `get_all_nodes` returns every node once. -/
theorem nodup_getAllNodes (db : Database J) : (db.getAllNodes.map (·.nodeId)).Nodup := by
  have hkeys := Query.nodup_map_distinctOn (fun x : JoinRow J => x.1.id)
    (db.leftJoin.insertionSort (Query.byKey (· < ·) (·.1.id) newestFirst))
  rw [getAllNodes, List.map_map]
  exact hkeys

/-- **`get_all_nodes` and `get_node` agree.** If no node has two snapshots with the same timestamp,
`get_all_nodes` returns each row of `nodes` once, and its entry for an id is what `get_node` returns
for it; `get_node` returns nothing exactly for the ids that are not in `nodes`. Every entry carries
the columns of its row with the stats of the newest snapshot, and none if there is no snapshot. -/
theorem node_queries_agree (db : Database J)
    (hdistinct : ∀ n, ((db.snapshotsOf n).map (·.timestamp)).Nodup) :
    (db.getAllNodes.map (·.nodeId)).Perm db.nodes.keys ∧
      (∀ n, db.getAllNodes.find? (·.nodeId = n) = db.getNode n) ∧
      (∀ info ∈ db.getAllNodes, db.getNode info.nodeId = some info) ∧
      (∀ n, db.getNode n = none ↔ n ∉ db.nodes) ∧
      ∀ info ∈ db.getAllNodes, db.Describes info ∧
        (info.latestStats = none ↔ db.snapshotsOf info.nodeId = []) := by
  have hsame : ∀ info ∈ db.getAllNodes, db.getNode info.nodeId = some info := by
    intro info hinfo
    have hdescribes := getAllNodes_spec hinfo
    obtain ⟨info', hinfo'⟩ :=
      Option.isSome_iff_exists.mp (getNode_isSome (mem_nodes_of_describes hdescribes))
    obtain ⟨hid, hdescribes'⟩ := getNode_spec hinfo'
    rw [hinfo', hdescribes.unique hdescribes' hid.symm (hdistinct _)]
  refine ⟨?_, ?_, hsame, fun n => getNode_eq_none_iff, fun info hinfo => ⟨getAllNodes_spec hinfo, ?_⟩⟩
  · refine (List.perm_ext_iff_of_nodup db.nodup_getAllNodes db.nodes.keys_nodup).mpr fun n => ?_
    constructor
    · intro hn
      obtain ⟨info, hinfo, rfl⟩ := List.mem_map.mp hn
      exact mem_nodes_of_describes (getAllNodes_spec hinfo)
    · intro hn
      obtain ⟨info, hinfo, hid⟩ := exists_mem_getAllNodes hn
      exact List.mem_map.mpr ⟨info, hinfo, hid⟩
  · intro n
    cases hfind : db.getAllNodes.find? (·.nodeId = n) with
    | none =>
      -- an id that is not listed is not in the table
      refine (getNode_eq_none_iff.mpr fun hn => ?_).symm
      obtain ⟨info, hinfo, hid⟩ := exists_mem_getAllNodes hn
      exact List.find?_eq_none.mp hfind info hinfo (decide_eq_true hid)
    | some info =>
      have hid : info.nodeId = n := by simpa using List.find?_some hfind
      exact hid ▸ (hsame info (List.mem_of_find?_eq_some hfind)).symm
  · obtain ⟨row, -, -, -, -, hlatest⟩ := getAllNodes_spec hinfo
    cases hstats : info.latestStats with
    | none =>
      rw [hstats] at hlatest
      exact iff_of_true rfl hlatest
    | some v =>
      rw [hstats] at hlatest
      obtain ⟨s, hs, -⟩ := hlatest
      exact iff_of_false nofun (List.ne_nil_of_mem hs)

/-- A node with two snapshots, and one without any. -/
theorem node_queries_agree_of_two_nodes :
    ∃ db : Database String, (∀ n, ((db.snapshotsOf n).map (·.timestamp)).Nodup) ∧
      db.getAllNodes.find? (·.nodeId = "a") = db.getNode "a" ∧
      db.getNode "a" = some ⟨"a", "host", 5, .online, some "new"⟩ ∧
      db.getNode "b" = some ⟨"b", "", 7, .offline, none⟩ := by
  let nodes := ((empty : Database String).upsertNode "a" "host" "online" 5).upsertNode "b" "" "offline" 7
  let db : Database String :=
    { nodes with
      snapshots := [⟨"a", 2, "new"⟩, ⟨"a", 1, "old"⟩]
      snapshots_fk := by
        intro s hs
        have hid : s.nodeId = "a" := by
          rcases List.mem_pair.mp hs with rfl | rfl <;> rfl
        rw [hid]
        decide }
  have hdistinct : ∀ n, ((db.snapshotsOf n).map (·.timestamp)).Nodup := by
    intro n
    have hall : (db.snapshots.map (·.timestamp)).Nodup := by decide
    exact hall.sublist (List.filter_sublist.map _)
  exact ⟨db, hdistinct, (node_queries_agree db hdistinct).2.1 "a", by decide +kernel,
    by decide +kernel⟩

end Hakuraku.Server.Database

import Hakuraku.Server.Flow

/-!
# Status in the registry and in the database

Reference: `pulse-server/src/main.rs`, the ingestion workers and the liveness checker;
`pulse-server/src/grpc.rs`, `stream_telemetry`; `pulse-server/src/db.rs`, `upsert_node`.

The status of a node is kept twice, and not every writer writes both. A `Stats` sets the registry to
online and has the row upserted later; a transition of the liveness checker sets the registry to
offline and has the row upserted later; a `Heartbeat` sets the registry to online and writes no row.
The two late writes can also land in the other order than the registry writes.

`StatusSettles` is the guard under which the two agree again whenever nothing is outstanding: a
heartbeat finds the node online or its offline write outstanding, and an offline write lands while
the registry says online if and only if a newer online write is outstanding.
-/

namespace Hakuraku.Server

variable {B J : Type} {cfg : Config B J} {p p' : State J} {a : Act B} {n : String}

namespace Process

/-- An accepted `Stats` of the node has not been upserted. -/
def Unwritten (s : Process J) (n : String) : Prop := ∃ item ∈ s.unwritten, item.nodeId = n

/-- No stream has an item to hand over, the queues are empty, the workers idle, and no offline write
is outstanding. -/
structure Quiescent (s : Process J) : Prop where
  streams : ∀ x ∈ s.streams, x.item = 0
  queues : ∀ x ∈ s.shards, x.queue = []
  workers : ∀ x ∈ s.shards, x.worker = .idle
  transitions : s.liveness.pending = []

instance (s : Process J) (n : String) : Decidable (s.Unwritten n) :=
  Multiset.decidableExistsMultiset

/-- In a quiescent state every item has been written. -/
theorem Quiescent.not_unwritten {s : Process J} (h : s.Quiescent) : ¬ s.Unwritten n := by
  rintro ⟨item, hitem, -⟩
  rw [unwritten, items, Multiset.mem_add, Sums.mem_sum_map, Sums.mem_sum_map] at hitem
  rcases hitem with ⟨x, hx, hitem⟩ | ⟨x, hx, hitem⟩
  · rw [h.streams x hx] at hitem
    exact absurd hitem (Multiset.notMem_zero _)
  · simp [Shard.unwritten, h.queues x hx, h.workers x hx, statsItems, Worker.unwritten] at hitem

end Process

/-- The node's row says what its registry entry says, if it has both. -/
def Agree (p : State J) (n : String) : Prop :=
  ∀ node ∈ p.1.nodes.lookup n, ∀ row ∈ p.2.nodes.lookup n,
    NodeStatus.ofColumn row.status = node.status

instance (p : State J) (n : String) : Decidable (Agree p n) :=
  inferInstanceAs (Decidable (∀ node ∈ p.1.nodes.lookup n, ∀ row ∈ p.2.nodes.lookup n, _ = _))

/-- The guard on the steps. -/
def StatusSettles (p : State J) : Act B → Prop
  -- a heartbeat is accepted for a node that is online, or whose offline write is outstanding
  | .receive i (.message (some (.heartbeat hb))) =>
    ∀ x ∈ p.1.streams[i]?, hb.nodeId = x.nodeId → ∀ node ∈ p.1.nodes.lookup hb.nodeId,
      node.status = .online ∨ hb.nodeId ∈ p.1.liveness.pending
  -- an offline write lands on an online node exactly if an online write will follow
  | .persist _ => ∀ transition ∈ p.1.liveness.current?,
    (p.1.statusOf transition.nodeId = some .online ↔ p.1.Unwritten transition.nodeId)
  | _ => True

instance (p : State J) : DecidablePred (StatusSettles (B := B) p)
  | .receive i (.message (some (.heartbeat hb))) =>
    inferInstanceAs (Decidable (∀ x ∈ p.1.streams[i]?, _ → ∀ node ∈ p.1.nodes.lookup hb.nodeId, _ ∨ _))
  | .persist _ => inferInstanceAs (Decidable (∀ transition ∈ p.1.liveness.current?, (_ ↔ _)))
  | .receive _ .error | .receive _ .ended | .receive _ (.message none)
  | .receive _ (.message (some (.stats _))) | .receive _ (.message (some (.probeResult _)))
  | .wait _ | .openStream _ | .enqueue _ | .broadcast _ | .ack .. | .workerRecv _ | .workerUpsert ..
  | .workerInsert .. | .tick | .visit _ | .scanned | .announce => isTrue trivial

/-- What guarded steps keep true of a node as long as nothing is lost. -/
structure NodeSound (p : State J) (n : String) : Prop where
  /-- While its offline write is outstanding the node is offline, or online again. -/
  pending : n ∈ p.1.liveness.pending →
    p.1.statusOf n = some .online ∨ p.1.statusOf n = some .offline
  /-- Otherwise, while an online write is outstanding, it is online. -/
  unwritten : n ∉ p.1.liveness.pending → p.1.Unwritten n → p.1.statusOf n = some .online
  /-- Otherwise the registry and the table agree on it. -/
  settled : n ∉ p.1.liveness.pending → ¬ p.1.Unwritten n → Agree p n

theorem nodeSound_boot (db : Database J) (clock : Int64) (n : String) :
    NodeSound (Process.boot db clock, db) n where
  pending hn := absurd hn List.not_mem_nil
  unwritten _ hn := by
    obtain ⟨item, hitem, -⟩ := hn
    simp [Process.unwritten, Process.items, Process.boot, workerCount, Shard.unwritten, statsItems,
      Worker.unwritten] at hitem
  settled _ _ node hnode row hrow := by
    obtain ⟨hmem, rfl⟩ := Registry.mem_of_lookup_load hnode
    obtain ⟨row', hrow', -, -, hstatus, -⟩ := Database.getAllNodes_spec hmem
    have heq : some row' = some row := hrow'.symm.trans hrow
    rw [hstatus, Option.some.inj heq]

/-- A step that touches neither the node's entry, its row, its items nor its transitions. -/
theorem NodeSound.congr (h : NodeSound p n) (hnode : p'.1.nodes.lookup n = p.1.nodes.lookup n)
    (hrow : p'.2.nodes.lookup n = p.2.nodes.lookup n)
    (hpending : n ∈ p'.1.liveness.pending ↔ n ∈ p.1.liveness.pending)
    (hunwritten : p'.1.Unwritten n ↔ p.1.Unwritten n) : NodeSound p' n := by
  have hstatus : p'.1.statusOf n = p.1.statusOf n := by
    rw [Process.statusOf, Process.statusOf, hnode]
  refine ⟨?_, ?_, ?_⟩
  · rw [hpending, hstatus]
    exact h.pending
  · rw [hpending, hunwritten, hstatus]
    exact h.unwritten
  · rw [hpending, hunwritten, Agree, hnode, hrow]
    exact h.settled

/-- A node that is online with an online write outstanding. -/
theorem NodeSound.of_online (hstatus : p.1.statusOf n = some .online)
    (hsettled : n ∉ p.1.liveness.pending → ¬ p.1.Unwritten n →
      ∀ row, p.2.nodes.lookup n = some row → NodeStatus.ofColumn row.status = .online) :
    NodeSound p n where
  pending _ := .inl hstatus
  unwritten _ _ := hstatus
  settled hpending hunwritten node hnode row hrow := by
    rw [Process.statusOf, hnode, Option.map_some, Option.some.injEq] at hstatus
    exact (hsettled hpending hunwritten row hrow).trans hstatus.symm

theorem Process.unwritten_add_iff {s s' : Process J} {item : StatsItem J}
    (h : s'.unwritten = s.unwritten + {item}) :
    s'.Unwritten n ↔ s.Unwritten n ∨ item.nodeId = n := by
  rw [Unwritten, Unwritten, h]
  constructor
  · rintro ⟨item', hitem', hid⟩
    rcases Multiset.mem_add.mp hitem' with hitem' | hitem'
    · exact .inl ⟨item', hitem', hid⟩
    · exact .inr (Multiset.mem_singleton.mp hitem' ▸ hid)
  · rintro (⟨item', hitem', hid⟩ | hid)
    · exact ⟨item', Multiset.mem_add.mpr (.inl hitem'), hid⟩
    · exact ⟨item, Multiset.mem_add.mpr (.inr (Multiset.mem_singleton_self _)), hid⟩

theorem Process.unwritten_congr {s s' : Process J} (h : s'.unwritten = s.unwritten) :
    s'.Unwritten n ↔ s.Unwritten n := by
  rw [Unwritten, Unwritten, h]

/-- **A guarded step that loses nothing keeps a node sound.** -/
theorem NodeSound.of_flow (h : NodeSound p n) (hsound : p.1.RegistrySound) (hf : Flow cfg p p' a)
    (hguard : StatusSettles p a) (hloss : p'.1.losses = 0) : NodeSound p' n := by
  cases hf with
  | quiet hnodes hreceipts hpending hunwritten huninserted hl hrows =>
    exact h.congr (hnodes ▸ rfl) (hrows ▸ rfl) (hpending ▸ Iff.rfl)
      (Process.unwritten_congr hunwritten)
  | lost hl => omega
  | stats item metrics hitem htext hnodes hreceipts hpending hunwritten huninserted hl hdb =>
    by_cases hid : item.nodeId = n
    · refine .of_online ?_ fun _ hun =>
        absurd ((Process.unwritten_add_iff hunwritten).mpr (.inr hid)) hun
      rw [Process.statusOf, hnodes, hid, Registry.lookup_onStats_self, Option.map_some]
    · refine h.congr ?_ (hdb ▸ rfl) (hpending ▸ Iff.rfl) ?_
      · rw [hnodes, Registry.lookup_onStats_of_ne (Ne.symm hid)]
      · rw [Process.unwritten_add_iff hunwritten, or_iff_left hid]
  | heartbeat i x hb hx hid hnodes hreceipts hpending hunwritten huninserted hl hdb =>
    by_cases hne : hb.nodeId = n
    · cases hnode : p.1.nodes.lookup n with
      | none =>
        refine h.congr ?_ (hdb ▸ rfl) (hpending ▸ Iff.rfl) (Process.unwritten_congr hunwritten)
        rw [hnodes, hne, Registry.lookup_onHeartbeat_self, hnode, Option.map_none]
      | some node =>
        refine .of_online ?_ fun hpend hun row hrow => ?_
        · rw [Process.statusOf, hnodes, hne, Registry.lookup_onHeartbeat_self, hnode]
          rfl
        · rw [hpending] at hpend
          rw [Process.unwritten_congr hunwritten] at hun
          have hon := (hguard x hx hid node (hne ▸ hnode)).resolve_right (hne ▸ hpend)
          exact (h.settled hpend hun node hnode row (hdb ▸ hrow)).trans hon
    · refine h.congr ?_ (hdb ▸ rfl) (hpending ▸ Iff.rfl) (Process.unwritten_congr hunwritten)
      rw [hnodes, Registry.lookup_onHeartbeat_of_ne (Ne.symm hne)]
  | upserted item nowMs hnodes hreceipts hpending hunwritten huninserted hl hdb =>
    by_cases hid : item.nodeId = n
    · have hun : p.1.Unwritten n := (Process.unwritten_add_iff hunwritten.symm).mpr (.inr hid)
      have hstatus : p'.1.statusOf n = p.1.statusOf n := Process.statusOf_congr hnodes
      by_cases hpend : n ∈ p.1.liveness.pending
      · refine ⟨fun _ => hstatus ▸ h.pending hpend, fun hnot => ?_, fun hnot => ?_⟩
        · exact absurd (hpending ▸ hpend) hnot
        · exact absurd (hpending ▸ hpend) hnot
      · refine .of_online (hstatus.trans (h.unwritten hpend hun)) fun _ _ row hrow => ?_
        rw [hdb, Database.lookup_upsertNode, if_pos hid.symm, Option.some.injEq] at hrow
        rw [← hrow]
        rfl
    · refine h.congr (hnodes ▸ rfl) ?_ (hpending ▸ Iff.rfl) ?_
      · rw [hdb, Database.lookup_upsertNode, if_neg (Ne.symm hid)]
      · rw [Process.unwritten_add_iff hunwritten.symm, or_iff_left hid]
  | inserted item hnodes hreceipts hpending hunwritten huninserted hl hdb =>
    have hrows := (Database.insertSnapshot_eq hdb).1
    exact h.congr (hnodes ▸ rfl) (hrows ▸ rfl) (hpending ▸ Iff.rfl)
      (Process.unwritten_congr hunwritten)
  | visit m now node hnode hnodes hreceipts hpending hunwritten huninserted hl hdb =>
    have hkey := hsound.keyed m node hnode
    by_cases hdue : n = m ∧ Registry.overdue now node = true
    · obtain ⟨rfl, hdue⟩ := hdue
      have hpend : n ∈ p'.1.liveness.pending := by
        rw [hpending, if_pos hdue, hkey]
        exact List.mem_append_right _ List.mem_cons_self
      refine ⟨fun _ => .inr ?_, fun hnot => absurd hpend hnot, fun hnot => absurd hpend hnot⟩
      rw [Process.statusOf, hnodes, Registry.lookup_onVisit_self, hnode, Option.map_some, if_pos hdue]
      rfl
    · refine h.congr ?_ (hdb ▸ rfl) ?_ (Process.unwritten_congr hunwritten)
      · rw [hnodes]
        by_cases hd : Registry.overdue now node = true
        · exact Registry.lookup_onVisit_of_ne fun hne => hdue ⟨hne, hd⟩
        · rw [Registry.onVisit_of_not_overdue hnode hd]
      · rw [hpending, List.mem_append]
        refine or_iff_left fun hmem => ?_
        split at hmem
        · rename_i hd
          exact hdue ⟨(List.mem_singleton.mp hmem).trans hkey, hd⟩
        · exact absurd hmem List.not_mem_nil
  | persisted ok nowMs transition rest hlive hnodes hreceipts hpending hunwritten huninserted hl hdb =>
    have hpend : p.1.liveness.pending = transition.nodeId :: p'.1.liveness.pending := by
      rw [hlive, hpending]
      rfl
    by_cases hid : transition.nodeId = n
    · have hstatus : p'.1.statusOf n = p.1.statusOf n := Process.statusOf_congr hnodes
      have hcases := h.pending (hpend ▸ hid ▸ List.mem_cons_self)
      have hiff : p.1.statusOf n = some .online ↔ p.1.Unwritten n :=
        hid ▸ hguard transition (hlive ▸ rfl)
      refine ⟨fun _ => hstatus ▸ hcases, fun _ hun => ?_, fun _ hun node hnode row hrow => ?_⟩
      · exact hstatus.trans (hiff.mpr ((Process.unwritten_congr hunwritten).mp hun))
      · -- no online write follows, so the node has stayed offline
        have hoff := hcases.resolve_left fun hon =>
          hun ((Process.unwritten_congr hunwritten).mpr (hiff.mp hon))
        rw [← hstatus, Process.statusOf, hnode, Option.map_some, Option.some.injEq] at hoff
        rw [hdb, Database.lookup_upsertNode, if_pos hid.symm, Option.mem_some] at hrow
        rw [← hrow, hoff]
        rfl
    · refine h.congr (hnodes ▸ rfl) ?_ ?_ (Process.unwritten_congr hunwritten)
      · rw [hdb, Database.lookup_upsertNode, if_neg (Ne.symm hid)]
      · rw [hpend, List.mem_cons, or_iff_right (Ne.symm hid)]

/-- **When nothing is outstanding, registry and database agree on every node, provided that no step
of the run was unguarded and nothing was lost.** -/
theorem statuses_agree {db : Database J} {clock : Int64} {as : List (Act B)} {t : State J}
    (hrun : Machine.run (step cfg) (Process.boot db clock, db) as = some t)
    (hguard : Machine.Along (step cfg) StatusSettles (Process.boot db clock, db) as)
    (hdrops : t.1.drops = 0) (herrors : t.1.dbErrors = 0) (hquiet : t.1.Quiescent) (n : String) :
    Agree t n := by
  have hinv := Machine.run_preserves
    (I := fun p => p.1.losses = 0 → p.1.RegistrySound ∧ ∀ n, NodeSound p n)
    (fun p a p' hI hP hstep hloss => ?_)
    (fun _ => ⟨Process.registrySound_boot db clock, nodeSound_boot db clock⟩) hguard hrun
  · have hsound := (hinv (by rw [Process.losses, hdrops, herrors])).2 n
    exact hsound.settled (hquiet.transitions ▸ List.not_mem_nil) hquiet.not_unwritten
  · have hf := step_flow hstep
    obtain ⟨hregistry, hnodes⟩ := hI (Nat.le_zero.mp (hloss ▸ hf.losses_le))
    exact ⟨hregistry.of_effect (step_effect hstep),
      fun n => (hnodes n).of_flow hregistry hf hP hloss⟩

/-- A node sends a snapshot, which is stored, and falls silent until it has been marked offline. -/
def offlineRun : List (Act ℕ) :=
  [.wait 100000, .openStream "node-01",
    .receive 0 (.message (some (.stats ⟨"node-01", 100000, 7⟩))), .enqueue 0, .broadcast 0,
    .workerRecv 3, .workerUpsert 3 true, .workerInsert 3 true,
    .wait 140000, .tick, .visit "node-01", .scanned, .persist true, .announce]

theorem statuses_agree_offlineRun :
    ∃ t, Machine.run (step .byText) (Process.boot .empty 0, .empty) offlineRun = some t ∧
      t.1.statusOf "node-01" = some .offline ∧ Agree t "node-01" :=
  ⟨_, (Option.some_get (by decide)).symm, by decide,
    statuses_agree (Option.some_get (by decide)).symm (by decide) (by decide) (by decide)
      ⟨by decide, by decide, by decide, by decide⟩ "node-01"⟩

theorem statuses_disagree_after_heartbeat :
    ∃ t, Machine.run (step .byText) (Process.boot .empty 0, .empty)
        (offlineRun ++ [.receive 0 (.message (some (.heartbeat ⟨"node-01", 140000⟩))), .ack 0 true])
          = some t ∧
      t.1.drops = 0 ∧ t.1.dbErrors = 0 ∧ t.1.Quiescent ∧ ¬ Agree t "node-01" :=
  ⟨_, (Option.some_get (by decide)).symm, by decide, by decide,
    ⟨by decide, by decide, by decide, by decide⟩, by decide⟩

end Hakuraku.Server

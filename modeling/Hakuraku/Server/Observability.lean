import Hakuraku.Lib.Repeats
import Hakuraku.Server.Convergence
import Hakuraku.Server.Latest
import Hakuraku.Server.Liveness

/-!
# Offline transitions on the wire

Reference: `pulse-server/src/ws.rs`, `WsMessage` and `handle_socket`; `pulse-server/src/main.rs`, the
liveness checker.

An `Update` has no status. The one that announces an offline transition repeats the timestamp and the
stats of the node's entry, and looks like the update of a `Stats`. A client can tell the two apart by
`decode` if no `Stats` repeats what the node had before: then the value that was new to the client last
is the one in the registry, and the node is offline exactly if that value came twice. Where a node
sends the same snapshot again, two runs with different outcomes send the same messages.
-/

namespace Hakuraku.Server

variable {B J : Type} {cfg : Config B J} {s s' : Process J} {p p' : State J} {a : Act B} {n : String}
  {x y : Socket J} {null : J}

/-! ## The decoder -/

/-- What an announcement of the node would carry. -/
def NodeInfo.update (null : J) (node : NodeInfo J) : NodeUpdate J :=
  ⟨node.nodeId, node.lastSeenMs, node.latestStats.getD null⟩

/-- What an announcement of the node would have carried when its entry was read. -/
def NodeSnapshot.update (null : J) (snapshot : NodeSnapshot J) : NodeUpdate J :=
  ⟨snapshot.nodeId, snapshot.lastSeenMs, snapshot.stats.getD null⟩

/-- What a client is told of a node, by `Init` and by the updates. -/
def toldOf (null : J) (nodes : List (NodeSnapshot J)) (updates : List (NodeUpdate J)) (n : String) :
    List (NodeUpdate J) :=
  (nodes.filter (·.nodeId = n)).map (·.update null) ++ updates.filter (·.nodeId = n)

/-- The status of a node as a client can make it out: offline if the value that was new last came twice,
else the status of `Init` if the value comes from there. -/
def decode [DecidableEq J] (null : J) (nodes : List (NodeSnapshot J)) (updates : List (NodeUpdate J))
    (n : String) : Option NodeStatus :=
  (Repeats.newest (toldOf null nodes updates n)).map fun value =>
    if 2 ≤ (toldOf null nodes updates n).count value then .offline
    else
      match (nodes.filter (·.nodeId = n)).find? (·.update null = value) with
      | some snapshot => snapshot.status
      | none => .online

/-! ## What is under way for a node -/

namespace Process

/-- The updates of a node that streams have still to send. -/
def unairedOf (s : Process J) (n : String) : Multiset (NodeUpdate J) :=
  s.unaired.filter (·.nodeId = n)

/-- The updates of a node that the liveness checker has still to send. -/
def unannouncedOf (serde : Serde B J) (s : Process J) (n : String) : Multiset (NodeUpdate J) :=
  (s.unannounced serde).filter (·.nodeId = n)

theorem unairedOf_congr (h : s'.unaired = s.unaired) : s'.unairedOf n = s.unairedOf n := by
  rw [unairedOf, unairedOf, h]

theorem unannouncedOf_congr {serde : Serde B J} (h : s'.unannounced serde = s.unannounced serde) :
    s'.unannouncedOf serde n = s.unannouncedOf serde n := by
  rw [unannouncedOf, unannouncedOf, h]

end Process

theorem filter_add_of_eq {m : Multiset (NodeUpdate J)} {update : NodeUpdate J}
    (h : update.nodeId = n) :
    (m + {update}).filter (·.nodeId = n) = m.filter (·.nodeId = n) + {update} := by
  rw [Multiset.filter_add, Multiset.filter_singleton, if_pos h]

theorem filter_add_of_ne {m : Multiset (NodeUpdate J)} {update : NodeUpdate J}
    (h : update.nodeId ≠ n) : (m + {update}).filter (·.nodeId = n) = m.filter (·.nodeId = n) := by
  rw [Multiset.filter_add, Multiset.filter_singleton, if_neg h]
  exact add_zero _

namespace Socket

/-- The updates of a node broadcast since the subscription. -/
def airedOf (s : Process J) (x : Socket J) (n : String) : List (NodeUpdate J) :=
  (s.broadcasts.drop x.start).filter (·.nodeId = n)

/-- The entries of a node that were read. -/
def readOf (x : Socket J) (n : String) : List (NodeSnapshot J) := x.nodes.filter (·.nodeId = n)

/-- What the client of the connection will be told of a node. -/
def told (null : J) (s : Process J) (x : Socket J) (n : String) : List (NodeUpdate J) :=
  (x.readOf n).map (·.update null) ++ x.airedOf s n

theorem airedOf_congr (h : s'.broadcasts = s.broadcasts) : x.airedOf s' n = x.airedOf s n := by
  rw [airedOf, airedOf, h]

theorem airedOf_of_eq {update : NodeUpdate J} (hstart : x.start ≤ s.broadcasts.length)
    (hs' : s'.broadcasts = s.broadcasts ++ [update]) (h : update.nodeId = n) :
    x.airedOf s' n = x.airedOf s n ++ [update] := by
  rw [airedOf, airedOf, hs', List.drop_append_of_le_length hstart, List.filter_append,
    List.filter_cons_of_pos (by simpa using h), List.filter_nil]

theorem airedOf_of_ne {update : NodeUpdate J} (hstart : x.start ≤ s.broadcasts.length)
    (hs' : s'.broadcasts = s.broadcasts ++ [update]) (h : update.nodeId ≠ n) :
    x.airedOf s' n = x.airedOf s n := by
  rw [airedOf, airedOf, hs', List.drop_append_of_le_length hstart, List.filter_append,
    List.filter_cons_of_neg (by simpa using h), List.filter_nil, List.append_nil]

end Socket

/-! ## The guards -/

/-- The entries for `Init` have all been read. -/
def Handler.collected : Handler → Bool
  | .subscribed | .reading _ _ => false
  | .sendingInit | .serving | .returned => true

/-- No heartbeats are received. -/
def StatsOnly (_ : Process J) : Act B → Prop
  | .receive _ (.message (some (.heartbeat _))) => False
  | _ => True

instance (s : Process J) : ∀ a : Act B, Decidable (StatsOnly s a)
  | .receive _ (.message (some (.heartbeat _))) => isFalse id
  | .receive _ (.message (some (.stats _))) | .receive _ (.message (some (.probeResult _)))
  | .receive _ (.message none) | .receive _ .error | .receive _ .ended => isTrue trivial
  | .wait _ | .openStream _ | .enqueue _ | .broadcast _ | .ack _ _ | .workerRecv _
  | .workerUpsert _ _ | .workerInsert _ _ | .tick | .visit _ | .scanned | .persist _
  | .announce => isTrue trivial

/-- A `Stats` is accepted only when no update of its node is left to send and the connection has read
the registry, and it differs in its timestamp or its stats from what the node had before: from all
that were accepted for it, and from the entry that was read. -/
def Hub.FreshStats (cfg : Config B J) (i : ℕ) (hub : Hub J) : HubAct B → Prop
  | .server a => ∀ item ∈ accepts? cfg hub.server.1 a,
    (∀ update ∈ hub.server.1.unaired, update.nodeId ≠ item.nodeId) ∧
    item.update ∉ hub.server.1.accepted.map (·.update) ∧
    ∀ x ∈ hub.sockets[i]?, x.handler.collected = true ∧
      item.update ∉ x.nodes.map (·.update cfg.serde.null)
  | _ => True

variable [DecidableEq J]

instance (cfg : Config B J) (i : ℕ) (hub : Hub J) : ∀ a : HubAct B, Decidable (hub.FreshStats cfg i a)
  | .server a =>
    have : ∀ item : StatsItem J, Decidable (∀ x ∈ hub.sockets[i]?, x.handler.collected = true ∧
        item.update ∉ x.nodes.map (·.update cfg.serde.null)) :=
      fun _ => Option.decidableForallMem _
    have : ∀ item : StatsItem J, Decidable (∀ update ∈ hub.server.1.unaired,
        update.nodeId ≠ item.nodeId) := fun _ => Multiset.decidableForallMultiset
    Option.decidableForallMem (accepts? cfg hub.server.1 a)
  | .connect _ | .socket _ _ => isTrue trivial

/-! ## A node that can be decoded -/

/-- The entry of a node was not yet read, or it was read once. -/
def Socket.ReadOnce (x : Socket J) (n : String) : Prop :=
  x.Due n ∧ x.readOf n = [] ∨
    (∃ snapshot, x.readOf n = [snapshot]) ∧ x.handler ≠ .subscribed ∧
      ∀ due visited, x.handler = .reading due visited → n ∈ visited

/-- **What the client is told of a node fits its entry in the registry.** -/
inductive Decodes (serde : Serde B J) (s : Process J) (x : Socket J) (n : String) : Prop where
  | absent (hnode : s.nodes.lookup n = none) (htold : x.told serde.null s n = [])
      (hunaired : s.unairedOf n = 0) (hunannounced : s.unannouncedOf serde n = 0)
  /-- No `Stats` of the node was accepted. -/
  | unheard (node : NodeInfo J) (hnode : s.nodes.lookup n = some node)
      (hread : x.ReadOnce n) (hunaired : s.unairedOf n = 0)
      (hvalues : ∀ update, update ∈ x.told serde.null s n ∨ update ∈ s.unannouncedOf serde n →
        update = node.update serde.null)
      (hstatus : (x.airedOf s n = [] ∧ s.unannouncedOf serde n = 0 ∧
          ∀ snapshot ∈ x.readOf n, snapshot.status = node.status) ∨
        node.status = .offline ∧ (x.airedOf s n ≠ [] ∨ s.unannouncedOf serde n ≠ 0))
  | heard (node : NodeInfo J) (hnode : s.nodes.lookup n = some node)
      (hcollected : x.handler.collected = true) (hstatus : node.status ≠ .unknown)
      (hfresh : node.update serde.null ∉ (x.readOf n).map (·.update serde.null))
      (hknown : ∀ update, update ∈ x.told serde.null s n ∨ update ∈ s.unairedOf n ∨
          update ∈ s.unannouncedOf serde n →
        update ∈ x.nodes.map (·.update serde.null) ∨ update ∈ s.accepted.map (·.update))
      (htold : Repeats.Told (x.told serde.null s n) (s.unairedOf n) (s.unannouncedOf serde n)
        (node.update serde.null) (node.status = .offline))

/-- **Once everything is sent, the client can tell the status.** -/
theorem Decodes.statusOf_eq (h : Decodes cfg.serde s x n) (hunaired : s.unaired = 0)
    (hunannounced : s.unannounced cfg.serde = 0) (hcollected : x.handler.collected = true) :
    s.statusOf n = decode cfg.serde.null x.nodes (s.broadcasts.drop x.start) n := by
  have hpending : s.unairedOf n = 0 := by rw [Process.unairedOf, hunaired, Multiset.filter_zero]
  have hrepeats : s.unannouncedOf cfg.serde n = 0 := by
    rw [Process.unannouncedOf, hunannounced, Multiset.filter_zero]
  show _ = (Repeats.newest (x.told cfg.serde.null s n)).map fun value =>
    if 2 ≤ (x.told cfg.serde.null s n).count value then NodeStatus.offline
    else
      match (x.readOf n).find? (·.update cfg.serde.null = value) with
      | some snapshot => snapshot.status
      | none => .online
  cases h with
  | absent hnode htold =>
    rw [Process.statusOf, hnode, htold]
    rfl
  | unheard node hnode hread _ hvalues hstatus =>
    rcases hread with ⟨hdue, -⟩ | ⟨⟨snapshot, hsnapshot⟩, -⟩
    · rcases hdue with hsub | ⟨due, visited, hreading, -⟩
      · simp [hsub, Handler.collected] at hcollected
      · simp [hreading, Handler.collected] at hcollected
    have htold : x.told cfg.serde.null s n = snapshot.update cfg.serde.null :: x.airedOf s n := by
      rw [Socket.told, hsnapshot]
      rfl
    have hvalue : snapshot.update cfg.serde.null = node.update cfg.serde.null :=
      hvalues _ (.inl (htold ▸ List.mem_cons_self))
    have hnewest : Repeats.newest (x.told cfg.serde.null s n) = some (node.update cfg.serde.null) :=
      Repeats.newest_of_forall (by simp [htold]) fun update hu => hvalues update (.inl hu)
    rw [Process.statusOf, hnode, hnewest, Option.map_some, Option.map_some, Option.some.injEq]
    rcases hstatus with ⟨hnone, -, hsame⟩ | ⟨hoffline, hsome⟩
    · rw [htold, hnone, hsnapshot, hvalue, if_neg (by simp), List.find?_cons_of_pos (by simp [hvalue])]
      exact (hsame snapshot (by simp [hsnapshot])).symm
    · have hne : x.airedOf s n ≠ [] := hsome.resolve_right fun h => h hrepeats
      have hcount : 2 ≤ (x.told cfg.serde.null s n).count (node.update cfg.serde.null) := by
        rw [List.count_eq_length.mpr fun update hu => (hvalues update (.inl hu)).symm, htold,
          List.length_cons]
        have := List.length_pos_iff.mpr hne
        omega
      rw [if_pos hcount, hoffline]
  | heard node hnode _ hstatus hfresh _ htold =>
    rw [hpending, hrepeats] at htold
    obtain ⟨hnewest, hcount⟩ := htold.count_eq
    rw [Process.statusOf, hnode, hnewest, Option.map_some, Option.map_some, Option.some.injEq, hcount]
    by_cases hoffline : node.status = .offline
    · simp [hoffline]
    · have honline : node.status = .online := by
        cases hs : node.status <;> simp_all
      have hnone : (x.readOf n).find? (·.update cfg.serde.null = node.update cfg.serde.null) = none := by
        rw [List.find?_eq_none]
        intro snapshot hmem heq
        exact hfresh (List.mem_map.mpr ⟨snapshot, hmem, by simpa using heq⟩)
      simp [honline, hnone]

/-! ## Steps of the server -/

namespace Decodes

/-- A step that does not concern the node. -/
theorem congr (h : Decodes cfg.serde s x n) (hnode : s'.nodes.lookup n = s.nodes.lookup n)
    (haired : x.airedOf s' n = x.airedOf s n) (hunaired : s'.unairedOf n = s.unairedOf n)
    (hunannounced : s'.unannouncedOf cfg.serde n = s.unannouncedOf cfg.serde n)
    (haccepted : ∀ item ∈ s.accepted, item ∈ s'.accepted) : Decodes cfg.serde s' x n := by
  have htold' : x.told cfg.serde.null s' n = x.told cfg.serde.null s n := by
    rw [Socket.told, Socket.told, haired]
  cases h with
  | absent hlookup htold hpending hrepeats =>
    exact .absent (hnode.trans hlookup) (htold'.trans htold) (hunaired.trans hpending)
      (hunannounced.trans hrepeats)
  | unheard node hlookup hread hpending hvalues hstatus =>
    refine .unheard node (hnode.trans hlookup) hread (hunaired.trans hpending) ?_ ?_
    · rw [htold', hunannounced]
      exact hvalues
    · rw [haired, hunannounced]
      exact hstatus
  | heard node hlookup hcollected hstatus hfresh hknown htold =>
    refine .heard node (hnode.trans hlookup) hcollected hstatus hfresh ?_ ?_
    · rw [htold', hunaired, hunannounced]
      intro update hu
      refine (hknown update hu).imp_right fun hmem => ?_
      obtain ⟨item, hitem, rfl⟩ := List.mem_map.mp hmem
      exact List.mem_map.mpr ⟨item, haccepted item hitem, rfl⟩
    · rw [htold', hunaired, hunannounced]
      exact htold

/-- What the client is told of a node comes from `Init` and from what was accepted. -/
theorem known (h : Decodes cfg.serde s x n) (hcollected : x.handler.collected = true)
    (hpending : s.unairedOf n = 0) :
    (∀ update ∈ s.unannouncedOf cfg.serde n, update ∈ x.told cfg.serde.null s n) ∧
    ∀ update, update ∈ x.told cfg.serde.null s n ∨ update ∈ s.unannouncedOf cfg.serde n →
      update ∈ x.nodes.map (·.update cfg.serde.null) ∨ update ∈ s.accepted.map (·.update) := by
  cases h with
  | absent hnode htold hunaired hunannounced => simp [htold, hunannounced]
  | unheard node hnode hread hunaired hvalues hstatus =>
    rcases hread with ⟨hdue, -⟩ | ⟨⟨snapshot, hsnapshot⟩, -⟩
    · rcases hdue with hsub | ⟨due, visited, hreading, -⟩
      · simp [hsub, Handler.collected] at hcollected
      · simp [hreading, Handler.collected] at hcollected
    -- all that the client is told is the entry that was read
    have htold : snapshot.update cfg.serde.null ∈ x.told cfg.serde.null s n := by
      simp [Socket.told, hsnapshot]
    have hvalue := hvalues _ (.inl htold)
    have hmem : snapshot ∈ x.nodes :=
      List.mem_of_mem_filter (show snapshot ∈ x.readOf n by simp [hsnapshot])
    constructor
    · intro update hu
      rw [hvalues update (.inr hu), ← hvalue]
      exact htold
    · intro update hu
      rw [hvalues update hu, ← hvalue]
      exact .inl (List.mem_map.mpr ⟨snapshot, hmem, rfl⟩)
  | heard node hnode _ hstatus hfresh hknown htold =>
    rw [hpending] at htold
    exact ⟨htold.known_of_pending, fun update hu => hknown update (hu.imp_right .inr)⟩

/-- A `Stats` of the node is accepted. -/
theorem accept {item : StatsItem J} (h : Decodes cfg.serde s x n) (hn : item.nodeId = n)
    (hcollected : x.handler.collected = true) (hpending : s.unairedOf n = 0)
    (hnew : item.update ∉ s.accepted.map (·.update))
    (hinit : item.update ∉ x.nodes.map (·.update cfg.serde.null))
    (hnodes : s'.nodes = s.nodes.onStats item.nodeId item.timestampMs item.statsJson)
    (haired : x.airedOf s' n = x.airedOf s n) (hunaired : s'.unairedOf n = {item.update})
    (hunannounced : s'.unannouncedOf cfg.serde n = s.unannouncedOf cfg.serde n)
    (haccepted : s'.accepted = s.accepted ++ [item]) : Decodes cfg.serde s' x n := by
  subst hn
  obtain ⟨hrepeats, hknown⟩ := h.known hcollected hpending
  have htold' : x.told cfg.serde.null s' item.nodeId = x.told cfg.serde.null s item.nodeId := by
    rw [Socket.told, Socket.told, haired]
  have hnot : item.update ∉ x.told cfg.serde.null s item.nodeId := fun hmem =>
    (hknown _ (.inl hmem)).elim hinit hnew
  refine .heard ⟨item.nodeId, item.nodeId, item.timestampMs, .online, some item.statsJson⟩ ?_
    hcollected (by simp) ?_ ?_ ?_
  · rw [hnodes, Registry.lookup_onStats_self]
  · intro hmem
    obtain ⟨snapshot, hsnapshot, heq⟩ := List.mem_map.mp hmem
    exact hinit (List.mem_map.mpr ⟨snapshot, List.mem_of_mem_filter hsnapshot, heq⟩)
  · rw [htold', hunaired, hunannounced, haccepted, List.map_append]
    rintro update (hu | hu | hu)
    · exact (hknown update (.inl hu)).imp_right (List.mem_append_left _)
    · rw [Multiset.mem_singleton.mp hu]
      exact .inr (List.mem_append_right _ (List.mem_singleton_self _))
    · exact (hknown update (.inr hu)).imp_right (List.mem_append_left _)
  · rw [htold', hunaired, hunannounced]
    exact Repeats.Told.emit hrepeats hnot

/-- The node is found overdue. -/
theorem overdue {node : NodeInfo J} (h : Decodes cfg.serde s x n)
    (hnode : s.nodes.lookup n = some node) (honline : node.status = .online)
    (hnode' : s'.nodes.lookup n = some { node with status := .offline })
    (haired : x.airedOf s' n = x.airedOf s n) (hunaired : s'.unairedOf n = s.unairedOf n)
    (hunannounced : s'.unannouncedOf cfg.serde n =
      s.unannouncedOf cfg.serde n + {node.update cfg.serde.null})
    (haccepted : s'.accepted = s.accepted) : Decodes cfg.serde s' x n := by
  have htold' : x.told cfg.serde.null s' n = x.told cfg.serde.null s n := by
    rw [Socket.told, Socket.told, haired]
  cases h with
  | absent hnone => exact absurd (hnode.symm.trans hnone) (by simp)
  | unheard node₀ hnode₀ hread hpending hvalues hstatus =>
    obtain rfl := Option.some.inj (hnode₀.symm.trans hnode)
    refine .unheard _ hnode' hread (hunaired.trans hpending) ?_ (.inr ⟨rfl, .inr ?_⟩)
    · rw [htold', hunannounced]
      rintro update (hu | hu)
      · exact hvalues update (.inl hu)
      · rcases Multiset.mem_add.mp hu with hold | hlast
        · exact hvalues update (.inr hold)
        · exact Multiset.mem_singleton.mp hlast
    · rw [hunannounced]
      exact fun hzero => absurd (congrArg Multiset.card hzero) (by simp)
  | heard node₀ hnode₀ hcollected hstatus hfresh hknown htold =>
    obtain rfl := Option.some.inj (hnode₀.symm.trans hnode)
    have hvalue : node₀.update cfg.serde.null ∈ x.told cfg.serde.null s n ∨
        node₀.update cfg.serde.null ∈ s.unairedOf n := by
      rcases htold.current with ⟨-, hnewest⟩ | ⟨hpending, -⟩
      · exact .inl (Repeats.mem_of_newest hnewest)
      · exact .inr (hpending ▸ Multiset.mem_singleton_self _)
    refine .heard _ hnode' hcollected (by simp) hfresh ?_ ?_
    · rw [htold', hunaired, hunannounced, haccepted]
      rintro update (hu | hu | hu)
      · exact hknown update (.inl hu)
      · exact hknown update (.inr (.inl hu))
      · rcases Multiset.mem_add.mp hu with hold | hlast
        · exact hknown update (.inr (.inr hold))
        · rw [Multiset.mem_singleton.mp hlast]
          exact hknown _ (hvalue.imp_right .inl)
    · rw [htold', hunaired, hunannounced]
      rw [decide_eq_false (by simp [honline])] at htold
      exact htold.mark

/-- A stream sends an update of the node. -/
theorem send {update : NodeUpdate J} (h : Decodes cfg.serde s x n) (hnodes : s'.nodes = s.nodes)
    (haired : x.airedOf s' n = x.airedOf s n ++ [update])
    (hunaired : s'.unairedOf n + {update} = s.unairedOf n)
    (hunannounced : s'.unannouncedOf cfg.serde n = s.unannouncedOf cfg.serde n)
    (haccepted : s'.accepted = s.accepted) : Decodes cfg.serde s' x n := by
  have htold' : x.told cfg.serde.null s' n = x.told cfg.serde.null s n ++ [update] := by
    rw [Socket.told, Socket.told, haired, List.append_assoc]
  have hmem : update ∈ s.unairedOf n :=
    hunaired ▸ Multiset.mem_add.mpr (.inr (Multiset.mem_singleton_self _))
  cases h with
  | absent _ _ hpending => exact absurd (hpending ▸ hmem) (Multiset.notMem_zero _)
  | unheard _ _ _ hpending => exact absurd (hpending ▸ hmem) (Multiset.notMem_zero _)
  | heard node hnode hcollected hstatus hfresh hknown htold =>
    refine .heard node (hnodes ▸ hnode) hcollected hstatus hfresh ?_ ?_
    · rw [htold', hunannounced, haccepted]
      rintro u (hu | hu | hu)
      · rcases List.mem_append.mp hu with hold | hlast
        · exact hknown u (.inl hold)
        · exact hknown u (.inr (.inl (List.mem_singleton.mp hlast ▸ hmem)))
      · exact hknown u (.inr (.inl (hunaired ▸ Multiset.mem_add.mpr (.inl hu))))
      · exact hknown u (.inr (.inr hu))
    · rw [htold', hunannounced]
      rw [← hunaired] at htold
      exact htold.send

/-- The liveness checker announces the node. -/
theorem announce {update : NodeUpdate J} (h : Decodes cfg.serde s x n) (hnodes : s'.nodes = s.nodes)
    (haired : x.airedOf s' n = x.airedOf s n ++ [update]) (hunaired : s'.unairedOf n = s.unairedOf n)
    (hunannounced : s'.unannouncedOf cfg.serde n + {update} = s.unannouncedOf cfg.serde n)
    (haccepted : s'.accepted = s.accepted) : Decodes cfg.serde s' x n := by
  have htold' : x.told cfg.serde.null s' n = x.told cfg.serde.null s n ++ [update] := by
    rw [Socket.told, Socket.told, haired, List.append_assoc]
  have hmem : update ∈ s.unannouncedOf cfg.serde n :=
    hunannounced ▸ Multiset.mem_add.mpr (.inr (Multiset.mem_singleton_self _))
  have hleft : ∀ u ∈ s'.unannouncedOf cfg.serde n, u ∈ s.unannouncedOf cfg.serde n :=
    fun u hu => hunannounced ▸ Multiset.mem_add.mpr (.inl hu)
  cases h with
  | absent _ _ _ hrepeats => exact absurd (hrepeats ▸ hmem) (Multiset.notMem_zero _)
  | unheard node hnode hread hpending hvalues hstatus =>
    refine .unheard node (hnodes ▸ hnode) hread (hunaired.trans hpending) ?_ (.inr ⟨?_, .inl ?_⟩)
    · rw [htold']
      rintro u (hu | hu)
      · rcases List.mem_append.mp hu with hold | hlast
        · exact hvalues u (.inl hold)
        · exact hvalues u (.inr (List.mem_singleton.mp hlast ▸ hmem))
      · exact hvalues u (.inr (hleft u hu))
    · rcases hstatus with ⟨-, hzero, -⟩ | ⟨hoffline, -⟩
      · exact absurd (hzero ▸ hmem) (Multiset.notMem_zero _)
      · exact hoffline
    · rw [haired]
      exact List.append_ne_nil_of_right_ne_nil _ (List.cons_ne_nil _ _)
  | heard node hnode hcollected hstatus hfresh hknown htold =>
    refine .heard node (hnodes ▸ hnode) hcollected hstatus hfresh ?_ ?_
    · rw [htold', hunaired, haccepted]
      rintro u (hu | hu | hu)
      · rcases List.mem_append.mp hu with hold | hlast
        · exact hknown u (.inl hold)
        · exact hknown u (.inr (.inr (List.mem_singleton.mp hlast ▸ hmem)))
      · exact hknown u (.inr (.inl hu))
      · exact hknown u (.inr (.inr (hleft u hu)))
    · rw [htold', hunaired]
      rw [← hunannounced] at htold
      exact htold.announce

/-- **Every step of the server keeps a node decodable**, where the `Stats` that it accepts are
fresh. -/
theorem airs (h : Decodes cfg.serde s x n) (hsound : s.RegistrySound)
    (hstart : x.start ≤ s.broadcasts.length) (hstats : StatsOnly s a)
    (hfresh : ∀ item ∈ accepts? cfg s a, (∀ update ∈ s.unaired, update.nodeId ≠ item.nodeId) ∧
      item.update ∉ s.accepted.map (·.update) ∧ x.handler.collected = true ∧
      item.update ∉ x.nodes.map (·.update cfg.serde.null))
    (ha : Airs cfg s s' a) : Decodes cfg.serde s' x n := by
  cases ha with
  | quiet hnodes hreceipts hunaired hunannounced hbroadcasts =>
    refine h.congr (by rw [hnodes]) (Socket.airedOf_congr hbroadcasts) ?_ ?_ ?_
    · exact Process.unairedOf_congr hunaired
    · exact Process.unannouncedOf_congr hunannounced
    · rw [Process.accepted_congr hreceipts]
      exact fun _ hitem => hitem
  | stats i stats item haccepts hnodes hreceipts hunaired hunannounced hbroadcasts =>
    obtain ⟨hfirst, hnew, hcollected, hinit⟩ := hfresh item haccepts
    have haccepted : s'.accepted = s.accepted ++ [item] := Process.accepted_append hreceipts
    have hrepeats : s'.unannouncedOf cfg.serde n = s.unannouncedOf cfg.serde n :=
      Process.unannouncedOf_congr hunannounced
    by_cases hn : item.nodeId = n
    · have hpending : s.unairedOf n = 0 :=
        Multiset.filter_eq_nil.mpr fun update hu => hn ▸ hfirst update hu
      refine h.accept hn hcollected hpending hnew hinit hnodes (Socket.airedOf_congr hbroadcasts) ?_
        hrepeats haccepted
      rw [Process.unairedOf, hunaired, filter_add_of_eq hn]
      exact (congrArg (· + _) hpending).trans (zero_add _)
    · refine h.congr ?_ (Socket.airedOf_congr hbroadcasts) ?_ hrepeats ?_
      · rw [hnodes, Registry.lookup_onStats_of_ne fun heq => hn heq.symm]
      · rw [Process.unairedOf, Process.unairedOf, hunaired, filter_add_of_ne hn]
      · rw [haccepted]
        exact fun _ => List.mem_append_left _
  | heartbeat => exact hstats.elim
  | visit m now node hnode hnodes hreceipts hunaired hunannounced hbroadcasts =>
    have hpending : s'.unairedOf n = s.unairedOf n := Process.unairedOf_congr hunaired
    have haccepted := Process.accepted_congr hreceipts
    have hm : (node.update cfg.serde.null).nodeId = m := hsound.keyed m node hnode
    by_cases hover : Registry.overdue now node
    · rw [if_pos hover] at hunannounced
      by_cases hn : m = n
      · subst hn
        refine h.overdue hnode (Process.overdue_iff.mp hover).1 ?_ (Socket.airedOf_congr hbroadcasts)
          hpending ?_ haccepted
        · rw [hnodes, Registry.lookup_onVisit_self, hnode, Option.map_some, if_pos hover]
        · rw [Process.unannouncedOf, hunannounced]
          exact filter_add_of_eq hm
      · refine h.congr ?_ (Socket.airedOf_congr hbroadcasts) hpending ?_ ?_
        · rw [hnodes, Registry.lookup_onVisit_of_ne fun heq => hn heq.symm]
        · rw [Process.unannouncedOf, hunannounced]
          exact filter_add_of_ne fun heq => hn (hm.symm.trans heq)
        · exact fun _ hitem => haccepted ▸ hitem
    · rw [if_neg hover, add_zero] at hunannounced
      refine h.congr ?_ (Socket.airedOf_congr hbroadcasts) hpending ?_ ?_
      · rw [hnodes, Registry.onVisit_of_not_overdue hnode hover]
      · exact Process.unannouncedOf_congr hunannounced
      · exact fun _ hitem => haccepted ▸ hitem
  | broadcast i update hnodes hreceipts hunaired hunannounced hbroadcasts =>
    have haccepted := Process.accepted_congr hreceipts
    have hrepeats : s'.unannouncedOf cfg.serde n = s.unannouncedOf cfg.serde n :=
      Process.unannouncedOf_congr hunannounced
    by_cases hn : update.nodeId = n
    · refine h.send hnodes (Socket.airedOf_of_eq hstart hbroadcasts hn) ?_ hrepeats haccepted
      rw [Process.unairedOf, Process.unairedOf, ← hunaired, filter_add_of_eq hn]
    · refine h.congr (by rw [hnodes]) (Socket.airedOf_of_ne hstart hbroadcasts hn) ?_ hrepeats
        fun _ hitem => haccepted ▸ hitem
      rw [Process.unairedOf, Process.unairedOf, ← hunaired, filter_add_of_ne hn]
  | announce transition rest hlive hnodes hreceipts hunaired hunannounced hbroadcasts =>
    have haccepted := Process.accepted_congr hreceipts
    have hpending : s'.unairedOf n = s.unairedOf n := Process.unairedOf_congr hunaired
    by_cases hn : (transition.update cfg.serde).nodeId = n
    · refine h.announce hnodes (Socket.airedOf_of_eq hstart hbroadcasts hn) hpending ?_ haccepted
      rw [Process.unannouncedOf, Process.unannouncedOf, ← hunannounced, filter_add_of_eq hn]
    · refine h.congr (by rw [hnodes]) (Socket.airedOf_of_ne hstart hbroadcasts hn) hpending ?_
        fun _ hitem => haccepted ▸ hitem
      rw [Process.unannouncedOf, Process.unannouncedOf, ← hunannounced, filter_add_of_ne hn]

end Decodes

/-! ## Steps of the connection -/

omit [DecidableEq J] in
theorem Socket.ReadOnce.collected {due visited : List String} (h : x.ReadOnce n)
    (hhandler : x.handler = .reading due visited) (hall : ∀ n ∈ due, n ∈ visited) :
    ∃ snapshot, x.readOf n = [snapshot] := by
  rcases h with ⟨hdue, -⟩ | ⟨hread, -⟩
  · exact absurd hdue (Socket.not_due_of_visited hhandler hall)
  · exact hread

/-- A step that reads no entry of the node. -/
theorem Decodes.of_socket (h : Decodes cfg.serde s x n) (hstart : y.start = x.start)
    (hnodes : y.readOf n = x.readOf n) (hknown : ∀ snapshot ∈ x.nodes, snapshot ∈ y.nodes)
    (hcollected : x.handler.collected = true → y.handler.collected = true)
    (hread : n ∈ s.nodes → x.ReadOnce n → y.ReadOnce n) : Decodes cfg.serde s y n := by
  have haired : y.airedOf s n = x.airedOf s n := by rw [Socket.airedOf, Socket.airedOf, hstart]
  have htold' : y.told cfg.serde.null s n = x.told cfg.serde.null s n := by
    rw [Socket.told, Socket.told, hnodes, haired]
  cases h with
  | absent hnode htold hpending hrepeats =>
    exact .absent hnode (htold'.trans htold) hpending hrepeats
  | unheard node hnode honce hpending hvalues hstatus =>
    have hmem : n ∈ s.nodes := AList.lookup_isSome.mp (by rw [hnode]; rfl)
    refine .unheard node hnode (hread hmem honce) hpending ?_ ?_
    · rw [htold']
      exact hvalues
    · rw [haired, hnodes]
      exact hstatus
  | heard node hnode hcoll hstatus hfresh hkn htold =>
    refine .heard node hnode (hcollected hcoll) hstatus (hnodes ▸ hfresh) ?_ ?_
    · rw [htold']
      intro update hu
      refine (hkn update hu).imp_left fun hmem => ?_
      obtain ⟨snapshot, hsnapshot, rfl⟩ := List.mem_map.mp hmem
      exact List.mem_map.mpr ⟨snapshot, hknown snapshot hsnapshot, rfl⟩
    · rw [htold']
      exact htold

/-- The entry of the node is read. -/
theorem Decodes.read {due visited : List String} {node : NodeInfo J} (h : Decodes cfg.serde s x n)
    (hnode : s.nodes.lookup n = some node) (hn : node.nodeId = n)
    (hhandler : x.handler = .reading due visited) (hnew : n ∉ visited)
    (hhandler' : y.handler = .reading due (n :: visited)) (hstart : y.start = x.start)
    (hnodes : y.nodes = x.nodes ++ [node.toSnapshot]) : Decodes cfg.serde s y n := by
  have haired : y.airedOf s n = x.airedOf s n := by rw [Socket.airedOf, Socket.airedOf, hstart]
  cases h with
  | absent hnone => exact absurd (hnode.symm.trans hnone) (by simp)
  | heard _ _ hcollected =>
    rw [hhandler] at hcollected
    exact absurd hcollected (by simp [Handler.collected])
  | unheard node₀ hnode₀ honce hpending hvalues hstatus =>
    obtain rfl := Option.some.inj (hnode₀.symm.trans hnode)
    have hunread : x.readOf n = [] := by
      rcases honce with ⟨-, hunread⟩ | ⟨-, -, hread⟩
      · exact hunread
      · exact absurd (hread due visited hhandler) hnew
    have hread : y.readOf n = [node₀.toSnapshot] := by
      have hsnapshot : node₀.toSnapshot.nodeId = n := hn
      rw [Socket.readOf, hnodes, List.filter_append, List.filter_cons_of_pos (by simpa using hsnapshot)]
      exact congrArg (· ++ _) hunread
    refine .unheard node₀ hnode (.inr ⟨⟨_, hread⟩, by simp [hhandler'], ?_⟩) hpending ?_ ?_
    · intro due' visited' heq
      obtain ⟨-, rfl⟩ := Handler.reading.inj (hhandler'.symm.trans heq)
      exact List.mem_cons_self
    · rintro update (hu | hu)
      · rw [Socket.told, hread, haired] at hu
        rcases List.mem_append.mp hu with hinit | hold
        · exact List.mem_singleton.mp hinit
        · exact hvalues update (.inl (List.mem_append_right _ hold))
      · exact hvalues update (.inr hu)
    · rw [haired, hread]
      refine hstatus.imp_left fun ⟨hnone, hzero, _⟩ => ⟨hnone, hzero, fun snapshot hmem => ?_⟩
      rw [List.mem_singleton.mp hmem]
      rfl

theorem Decodes.moves {b : SocketAct} (h : Decodes cfg.serde s x n) (hfilter : x.filter = none)
    (hsound : s.RegistrySound) (hm : x.Moves s y b) : Decodes cfg.serde s y n := by
  have hlate : ∀ z : Socket J, z.readOf n = x.readOf n → z.handler.collected = true →
      (∃ snapshot, x.readOf n = [snapshot]) → z.ReadOnce n := by
    rintro z hz hcollected ⟨snapshot, hread⟩
    refine .inr ⟨⟨snapshot, hz.trans hread⟩, fun hsub => ?_, fun due visited hreading => ?_⟩
    · simp [hsub, Handler.collected] at hcollected
    · simp [hreading, Handler.collected] at hcollected
  cases hm with
  | begin hhandler =>
    refine h.of_socket rfl rfl (fun _ hmem => hmem) (fun hc => ?_) fun hmem honce => ?_
    · simp [hhandler, Handler.collected] at hc
    · rcases honce with ⟨-, hunread⟩ | ⟨-, hsub, -⟩
      · exact .inl ⟨Socket.due_of_begin hmem rfl, hunread⟩
      · exact absurd hhandler hsub
  | read m due visited node hhandler hnode hnew =>
    have hm := hsound.keyed m node hnode
    have hpass : passes x.filter m = true := by rw [hfilter]; rfl
    by_cases hn : m = n
    · subst hn
      exact h.read hnode hm hhandler hnew rfl rfl (by rw [if_pos hpass])
    · have hother : node.toSnapshot.nodeId ≠ n := fun heq => hn (hm.symm.trans heq)
      have hsame : (if passes x.filter m then x.nodes ++ [node.toSnapshot] else x.nodes).filter
          (·.nodeId = n) = x.readOf n := by
        rw [if_pos hpass, List.filter_append, List.filter_cons_of_neg (by simpa using hother)]
        exact List.append_nil _
      refine h.of_socket rfl hsame (fun snapshot hmem => ?_) (fun hc => ?_) fun _ honce => ?_
      · show snapshot ∈ if _ then _ else _
        rw [if_pos hpass]
        exact List.mem_append_left _ hmem
      · simp [hhandler, Handler.collected] at hc
      · rcases honce with ⟨hdue, hunread⟩ | ⟨⟨snapshot, hread⟩, -, hvisited⟩
        · exact .inl ⟨hdue.read hhandler (fun heq => hn heq.symm) rfl, hsame.trans hunread⟩
        · refine .inr ⟨⟨snapshot, hsame.trans hread⟩, by simp, fun due' visited' heq => ?_⟩
          obtain ⟨-, rfl⟩ := Handler.reading.inj heq
          exact List.mem_cons_of_mem _ (hvisited due visited hhandler)
  | collected due visited hhandler hall =>
    refine h.of_socket rfl rfl (fun _ hmem => hmem) (fun _ => rfl) fun _ honce => ?_
    exact hlate _ rfl rfl (honce.collected hhandler hall)
  | init hhandler | refused hhandler | finish hhandler =>
    refine h.of_socket rfl rfl (fun _ hmem => hmem) (fun _ => rfl) fun _ honce => ?_
    refine hlate _ rfl rfl ?_
    rcases honce with ⟨hdue, -⟩ | ⟨hread, -⟩
    · exact absurd hdue (Socket.not_due_of_handler (by simp [hhandler]) (by simp [hhandler]))
    · exact hread
  | lagged | skipped | taken | sent | failed | clientGone =>
    exact h.of_socket rfl rfl (fun _ hmem => hmem) id fun _ honce => honce

/-! ## Two runs -/

omit [DecidableEq J] in
/-- The server has just been started, and the connection has subscribed. -/
theorem unairedOf_boot (db : Database J) (clock : Int64) (n : String) :
    (Process.boot db clock).unairedOf n = 0 := by simp [Process.unairedOf, Process.unaired, Process.boot]

theorem decodes_subscribe (serde : Serde B J) (db : Database J) (clock : Int64)
    (filter : Option String) (n : String) :
    Decodes serde (.boot db clock) (.subscribe (.boot db clock) filter) n := by
  have htold : (Socket.subscribe (.boot db clock) filter).told serde.null (.boot db clock) n = [] := rfl
  cases hnode : (Process.boot db clock).nodes.lookup n with
  | none => exact .absent hnode htold (unairedOf_boot db clock n) rfl
  | some node =>
    refine .unheard node hnode (.inl ⟨.inl rfl, rfl⟩) (unairedOf_boot db clock n) ?_
      (.inl ⟨rfl, rfl, fun snapshot hmem => absurd hmem List.not_mem_nil⟩)
    rintro update (hu | hu)
    · exact absurd (htold ▸ hu) List.not_mem_nil
    · exact absurd hu (Multiset.notMem_zero update)

namespace Hub

variable {hub hub₁ hub₂ : Hub J} {db db₁ db₂ : Database J} {clock clock₁ clock₂ : Int64}
  {as as₁ as₂ : List (HubAct B)} {messages : List (WsMessage J)}

/-- **A subscriber that is connected from the start gets these messages.** The run is one of streams of
`Stats` and liveness ticks, the receiver of the subscriber never lags, and at the end nothing is left to
broadcast or to deliver. -/
structure Observed (cfg : Config B J) (db : Database J) (clock : Int64) (as : List (HubAct B))
    (hub : Hub J) (messages : List (WsMessage J)) : Prop where
  run : Machine.run (step cfg) (boot db clock) (.connect none :: as) = some hub
  statsOnly : Machine.Along (step cfg) (AtServer StatsOnly) (boot db clock) (.connect none :: as)
  neverLags : Machine.Along (step cfg) (NeverLags 0) (boot db clock) (.connect none :: as)
  unaired : hub.server.1.unaired = 0
  unannounced : hub.server.1.unannounced cfg.serde = 0
  socket : ∃ x, hub.sockets[0]? = some x ∧ x.UpToDate hub.server.1 ∧ x.sent = messages

/-- The status of every node can be decoded from the messages. -/
theorem Observed.statusOf_eq (h : Observed cfg db clock as hub messages)
    (hfresh : Machine.Along (step cfg) (FreshStats cfg 0) (boot db clock) (.connect none :: as)) :
    ∃ nodes updates, messages = .init nodes :: updates.map .update ∧
      ∀ n, hub.server.1.statusOf n = decode cfg.serde.null nodes updates n := by
  obtain ⟨x, hx, hup, rfl⟩ := h.socket
  obtain ⟨first, hconnect, hrun⟩ := Machine.run_cons_eq_some.mp h.run
  have hguard := (h.statsOnly.2 first hconnect).and (hfresh.2 first hconnect)
  obtain rfl := step_connect_iff.mp hconnect
  have hinv := run_socket_from (i := 0) (K := fun p => p.1.RegistrySound)
    (I := fun s x => x.filter = none ∧ x.start ≤ s.broadcasts.length ∧
      ∀ n, Decodes cfg.serde s x n) ?_ ?_ ?_ (by simp [boot])
    (Process.registrySound_boot db clock) ?_ hguard hrun
  · obtain ⟨hfilter, -, hdecodes⟩ := hinv.2 x hx
    have hsent := (delivers h.run h.neverLags hx).upToDate hup
    rw [Socket.forwarded_of_filter_none hfilter] at hsent
    refine ⟨_, _, hsent, fun n => ?_⟩
    exact (hdecodes n).statusOf_eq h.unaired h.unannounced (by rw [hup.1]; rfl)
  · intro hub b p hsound _ hs
    exact hsound.of_effect (step_effect hs)
  · rintro hub b p x hsound ⟨hstats, hfresh⟩ hx hs ⟨hfilter, hstart, hdecodes⟩
    obtain ⟨later, hlater⟩ := (step_airs hs).exists_broadcasts
    refine ⟨hfilter, by rw [hlater, List.length_append]; omega, fun n => ?_⟩
    refine (hdecodes n).airs hsound hstart hstats (fun item hitem => ?_) (step_airs hs)
    obtain ⟨hfirst, hnew, hinit⟩ := hfresh item hitem
    exact ⟨hfirst, hnew, hinit x hx⟩
  · rintro hub b x y hsound - - hm ⟨hfilter, hstart, hdecodes⟩
    obtain ⟨hfilter', hstart'⟩ := hm.filter_start
    exact ⟨hfilter'.trans hfilter, hstart' ▸ hstart, fun n => (hdecodes n).moves hfilter hsound hm⟩
  · intro x hx
    obtain rfl := Option.some.inj hx
    exact ⟨rfl, Nat.le_refl _, fun n => decodes_subscribe cfg.serde db clock none n⟩

omit [DecidableEq J] in
/-- **Offline transitions are observable as long as no `Stats` repeats what its node had before.** In any
two runs in which a subscriber that is connected from the start gets the same messages, and after which
nothing is left to broadcast or to deliver, every node ends with the same status. -/
theorem same_messages_same_status (h₁ : Observed cfg db₁ clock₁ as₁ hub₁ messages)
    (h₂ : Observed cfg db₂ clock₂ as₂ hub₂ messages)
    (hfresh₁ : Machine.Along (step cfg) (FreshStats cfg 0) (boot db₁ clock₁) (.connect none :: as₁))
    (hfresh₂ : Machine.Along (step cfg) (FreshStats cfg 0) (boot db₂ clock₂) (.connect none :: as₂))
    (n : String) : hub₁.server.1.statusOf n = hub₂.server.1.statusOf n := by
  classical
  obtain ⟨nodes, updates, rfl, hstatus₁⟩ := h₁.statusOf_eq hfresh₁
  obtain ⟨nodes', updates', heq, hstatus₂⟩ := h₂.statusOf_eq hfresh₂
  obtain ⟨hinit, hupdates⟩ := List.cons.inj heq
  obtain rfl := WsMessage.init.inj hinit
  obtain rfl := List.map_injective_iff.mpr (fun _ _ => WsMessage.update.inj) hupdates
  rw [hstatus₁, hstatus₂]

/-- A subscriber connects to a server that knows no node. -/
def connectActs : List (HubAct ℕ) :=
  [.socket 0 .begin, .socket 0 .collected, .socket 0 (.sendInit true), .server (.openStream "node-01")]

/-- A snapshot is received and broadcast. -/
def snapshotActs (timestampMs : Int64) (metrics : ℕ) : List (HubAct ℕ) :=
  [.server (.receive 0 (.message (some (.stats ⟨"node-01", timestampMs, metrics⟩)))),
    .server (.enqueue 0), .server (.broadcast 0), .socket 0 .recv, .socket 0 (.send true)]

/-- The node is found overdue and announced. -/
def overdueActs (now : Int64) : List (HubAct ℕ) :=
  [.server (.wait now), .server .tick, .server (.visit "node-01"), .server .scanned,
    .server (.persist true), .server .announce, .socket 0 .recv, .socket 0 (.send true)]

/-- `Init` and twice the same `Update`. -/
def repeatedMessages : List (WsMessage String) :=
  [.init [], .update ⟨"node-01", 1000, "7"⟩, .update ⟨"node-01", 1000, "7"⟩]

/-- A node sends a snapshot and is then found overdue, sooner in one run than in the other. -/
theorem same_status_overdueActs :
    ∃ hub₁ hub₂,
      Observed .byText Database.empty 0 (connectActs ++ snapshotActs 1000 7 ++ overdueActs 40000) hub₁
        repeatedMessages ∧
      Observed .byText Database.empty 500 (connectActs ++ snapshotActs 1000 7 ++ overdueActs 50000) hub₂
        repeatedMessages ∧
      ∀ n, hub₁.server.1.statusOf n = hub₂.server.1.statusOf n := by
  have h₁ : Observed .byText Database.empty 0
      (connectActs ++ snapshotActs 1000 7 ++ overdueActs 40000) _ repeatedMessages :=
    ⟨(Option.some_get (by decide)).symm, by decide, by decide, by decide, by decide,
      _, rfl, ⟨by decide, by decide, by decide⟩, by decide⟩
  have h₂ : Observed .byText Database.empty 500
      (connectActs ++ snapshotActs 1000 7 ++ overdueActs 50000) _ repeatedMessages :=
    ⟨(Option.some_get (by decide)).symm, by decide, by decide, by decide, by decide,
      _, rfl, ⟨by decide, by decide, by decide⟩, by decide⟩
  exact ⟨_, _, h₁, h₂, same_messages_same_status h₁ h₂ (by decide) (by decide)⟩

/-- **A node that repeats a snapshot looks like one that went offline.** The node sends one snapshot
twice in one run, and in the other it sends it once and is found overdue. The subscriber gets the same
messages, and the node is online in the first and offline in the second. -/
theorem offline_looks_like_repeated_snapshot :
    ∃ hub₁ hub₂,
      Observed .byText Database.empty 0 (connectActs ++ snapshotActs 1000 7 ++ snapshotActs 1000 7) hub₁
        repeatedMessages ∧
      Observed .byText Database.empty 0 (connectActs ++ snapshotActs 1000 7 ++ overdueActs 40000) hub₂
        repeatedMessages ∧
      hub₁.server.1.statusOf "node-01" = some .online ∧
      hub₂.server.1.statusOf "node-01" = some .offline := by
  refine ⟨_, _, ⟨(Option.some_get (by decide)).symm, by decide, by decide, by decide, by decide,
    _, rfl, ⟨by decide, by decide, by decide⟩, by decide⟩, ⟨(Option.some_get (by decide)).symm,
    by decide, by decide, by decide, by decide, _, rfl, ⟨by decide, by decide, by decide⟩,
    by decide⟩, by decide, by decide⟩

end Hub

end Hakuraku.Server

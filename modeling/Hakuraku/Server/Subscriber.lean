import Hakuraku.Server.Delivery

/-!
# A subscriber misses no telemetry

Reference: `pulse-server/src/ws.rs`, `handle_socket`; `pulse-server/src/grpc.rs`, the `Stats` arm of
`stream_telemetry`.

A stream inserts the stats into the registry before it broadcasts them, and a connection subscribes
before it reads the registry. So a `Stats` accepted after the subscription is broadcast after it, and
one that was accepted before is in the registry when the entry is read, unless a newer one of the node
has replaced it there. The cut that the subscription and the reads make through the accepted messages
is recorded in `Socket.since` and `Socket.reads`.
-/

namespace Hakuraku.Server

variable {B J : Type} {cfg : Config B J} {s s' : Process J} {n : String} {k m : ℕ}
  {item : StatsItem J}

namespace Process

/-- The item of the accepted message number `k`, if it is a `Stats`. -/
def statsAt (s : Process J) (k : ℕ) : Option (StatsItem J) := s.receipts[k]?.bind (·.item)

/-- Between the messages `k` and `m`, a `Stats` of the node was accepted. -/
def Superseded (s : Process J) (n : String) (k m : ℕ) : Prop :=
  ∃ k' item, k < k' ∧ k' < m ∧ s.statsAt k' = some item ∧ item.nodeId = n

/-- The updates that were broadcast from `start` on, and those that streams have still to send. -/
def onAir (s : Process J) (start : ℕ) : Multiset (NodeUpdate J) :=
  (s.broadcasts.drop start : List (NodeUpdate J)) + s.unaired

theorem lt_of_statsAt (h : s.statsAt k = some item) : k < s.receipts.length := by
  obtain ⟨r, hr, -⟩ := Option.bind_eq_some_iff.mp h
  exact (List.getElem?_eq_some_iff.mp hr).1

theorem statsAt_append {r : Receipt J} (h : s'.receipts = s.receipts ++ [r]) :
    s'.statsAt k = if k = s.receipts.length then r.item else s.statsAt k := by
  rw [statsAt, statsAt, h]
  split_ifs with hk
  · rw [hk, List.getElem?_concat_length, Option.bind_some]
  · rcases Nat.lt_or_gt_of_ne hk with hlt | hgt
    · rw [List.getElem?_append_left hlt]
    · rw [List.getElem?_eq_none (by simp; omega), List.getElem?_eq_none (by omega)]

/-- Sending the update of a stream takes it from the stream to the channel. -/
theorem onAir_broadcast {start : ℕ} {update : NodeUpdate J} (hstart : start ≤ s.broadcasts.length)
    (hunaired : s'.unaired + {update} = s.unaired)
    (hbroadcasts : s'.broadcasts = s.broadcasts ++ [update]) : s'.onAir start = s.onAir start := by
  rw [onAir, onAir, hbroadcasts, ← hunaired, List.drop_append_of_le_length hstart, ← Multiset.coe_add,
    Multiset.coe_singleton]
  ac_rfl

end Process

/-! ## What a step accepts -/

/-- A step accepts a `Stats`. -/
structure Accepts (s s' : Process J) (item : StatsItem J) : Prop where
  statsAt : ∀ k, s'.statsAt k = if k = s.receipts.length then some item else s.statsAt k
  length : s'.receipts.length = s.receipts.length + 1
  nodes : s'.nodes = s.nodes.onStats item.nodeId item.timestampMs item.statsJson
  unaired : s'.unaired = s.unaired + {item.update}
  broadcasts : s'.broadcasts = s.broadcasts

/-- A step accepts no `Stats`. -/
structure AcceptsNone (s s' : Process J) : Prop where
  statsAt : ∀ k, s'.statsAt k = s.statsAt k
  length : s.receipts.length ≤ s'.receipts.length
  latest : ∀ n, s'.nodes.latest n = s.nodes.latest n
  onAir : ∀ start ≤ s.broadcasts.length, s.onAir start ≤ s'.onAir start
  broadcasts : s.broadcasts.length ≤ s'.broadcasts.length

/-- Every step accepts a `Stats` or none. -/
theorem Airs.accepts_or {a : Act B} (ha : Airs cfg s s' a) :
    (∃ item, Accepts s s' item) ∨ AcceptsNone s s' := by
  cases ha with
  | quiet hnodes hreceipts hunaired hunannounced hbroadcasts =>
    exact .inr ⟨fun k => by rw [Process.statsAt, Process.statsAt, hreceipts], by rw [hreceipts],
      fun n => by rw [hnodes], fun start _ => by rw [Process.onAir, Process.onAir, hbroadcasts, hunaired],
      by rw [hbroadcasts]⟩
  | stats i stats item haccepts hnodes hreceipts hunaired hunannounced hbroadcasts =>
    exact .inl ⟨item, fun k => Process.statsAt_append hreceipts, by rw [hreceipts, List.length_append]; rfl,
      hnodes, hunaired, hbroadcasts⟩
  | heartbeat i hb hnodes hreceipts hunaired hunannounced hbroadcasts =>
    refine .inr ⟨fun k => ?_, by rw [hreceipts, List.length_append]; omega,
      fun n => by rw [hnodes, Registry.latest_onHeartbeat],
      fun start _ => by rw [Process.onAir, Process.onAir, hbroadcasts, hunaired], by rw [hbroadcasts]⟩
    rw [Process.statsAt_append hreceipts]
    split_ifs with hk
    · rw [hk, Process.statsAt, List.getElem?_eq_none (Nat.le_refl _), Option.bind_none]
    · rfl
  | visit m now node hnode hnodes hreceipts hunaired hunannounced hbroadcasts =>
    exact .inr ⟨fun k => by rw [Process.statsAt, Process.statsAt, hreceipts], by rw [hreceipts],
      fun n => by rw [hnodes, Registry.latest_onVisit],
      fun start _ => by rw [Process.onAir, Process.onAir, hbroadcasts, hunaired], by rw [hbroadcasts]⟩
  | broadcast i update hnodes hreceipts hunaired hunannounced hbroadcasts =>
    exact .inr ⟨fun k => by rw [Process.statsAt, Process.statsAt, hreceipts], by rw [hreceipts],
      fun n => by rw [hnodes],
      fun start hstart => (Process.onAir_broadcast hstart hunaired hbroadcasts).ge,
      by rw [hbroadcasts, List.length_append]; omega⟩
  | announce transition rest hlive hnodes hreceipts hunaired hunannounced hbroadcasts =>
    refine .inr ⟨fun k => by rw [Process.statsAt, Process.statsAt, hreceipts], by rw [hreceipts],
      fun n => by rw [hnodes], fun start hstart => ?_, by rw [hbroadcasts, List.length_append]; omega⟩
    rw [Process.onAir, Process.onAir, hbroadcasts, hunaired, List.drop_append_of_le_length hstart,
      ← Multiset.coe_add]
    exact Multiset.add_le_add_right (Multiset.le_add_right _ _)

/-- What a step adds to the accepted messages and to the updates on air. -/
structure Process.Grows (s s' : Process J) : Prop where
  length : s.receipts.length ≤ s'.receipts.length
  statsAt : ∀ k < s.receipts.length, s'.statsAt k = s.statsAt k
  fresh : ∀ k item, s.receipts.length ≤ k → s'.statsAt k = some item → item.update ∈ s'.unaired
  onAir : ∀ start ≤ s.broadcasts.length, s.onAir start ≤ s'.onAir start
  broadcasts : s.broadcasts.length ≤ s'.broadcasts.length

theorem Airs.grows {a : Act B} (ha : Airs cfg s s' a) : s.Grows s' := by
  rcases ha.accepts_or with ⟨item, h⟩ | h
  · refine ⟨by rw [h.length]; omega, fun k hk => ?_, fun k item' hk hitem => ?_, fun start _ => ?_,
      by rw [h.broadcasts]⟩
    · rw [h.statsAt, if_neg (Nat.ne_of_lt hk)]
    · have hlast : k = s.receipts.length := by
        have hlt := Process.lt_of_statsAt hitem
        rw [h.length] at hlt
        omega
      rw [h.statsAt, if_pos hlast, Option.some.injEq] at hitem
      rw [h.unaired, hitem]
      exact Multiset.mem_add.mpr (.inr (Multiset.mem_singleton_self _))
    · rw [Process.onAir, Process.onAir, h.broadcasts, h.unaired, ← add_assoc]
      exact Multiset.le_add_right _ _
  · refine ⟨h.length, fun k _ => h.statsAt k, fun k item' hk hitem => ?_, h.onAir, h.broadcasts⟩
    rw [h.statsAt] at hitem
    exact absurd (Process.lt_of_statsAt hitem) (Nat.not_lt.mpr hk)

theorem Process.Grows.statsAt_of (h : s.Grows s') (hk : s.statsAt k = some item) :
    s'.statsAt k = some item := by
  rw [h.statsAt k (lt_of_statsAt hk), hk]

theorem Process.Grows.superseded (h : s.Grows s') (hk : s.Superseded n k m) : s'.Superseded n k m := by
  obtain ⟨k', item, hlt, hlt', hitem, hn⟩ := hk
  exact ⟨k', item, hlt, hlt', h.statsAt_of hitem, hn⟩

/-! ## The registry -/

/-- A `Stats` that was accepted is the latest of its node in the registry, or was superseded. -/
structure Process.KeepsLast (s : Process J) : Prop where
  present : ∀ k item, s.statsAt k = some item → item.nodeId ∈ s.nodes
  latest : ∀ k item, s.statsAt k = some item →
    s.nodes.latest item.nodeId = some (some item.statsJson) ∨
      s.Superseded item.nodeId k s.receipts.length

theorem Process.keepsLast_boot (db : Database J) (clock : Int64) : (boot db clock).KeepsLast where
  present k item h := absurd (lt_of_statsAt h) (by simp [boot])
  latest k item h := absurd (lt_of_statsAt h) (by simp [boot])

theorem Process.KeepsLast.airs {a : Act B} (h : s.KeepsLast) (ha : Airs cfg s s' a) :
    s'.KeepsLast := by
  rcases ha.accepts_or with ⟨new, hnew⟩ | hnone
  · have hself : s'.nodes.latest new.nodeId = some (some new.statsJson) := by
      rw [hnew.nodes, Registry.latest_onStats_self]
    have hother : ∀ n, n ≠ new.nodeId → s'.nodes.latest n = s.nodes.latest n := by
      intro n hn
      rw [hnew.nodes, Registry.latest_onStats_of_ne hn]
    constructor
    · intro k item hitem
      rw [hnew.nodes, Registry.onStats, AList.mem_insert]
      rw [hnew.statsAt] at hitem
      split_ifs at hitem with hk
      · exact .inl (by rw [Option.some.inj hitem])
      · exact .inr (h.present k item hitem)
    · intro k item hitem
      rw [hnew.statsAt] at hitem
      split_ifs at hitem with hk
      · obtain rfl := Option.some.inj hitem
        exact .inl hself
      · by_cases hn : item.nodeId = new.nodeId
        · refine .inr ⟨s.receipts.length, new, lt_of_statsAt hitem, ?_, ?_, hn.symm⟩
          · rw [hnew.length]
            omega
          · rw [hnew.statsAt, if_pos rfl]
        · rcases h.latest k item hitem with hlatest | ⟨k', item', hlt, hlt', hitem', hn'⟩
          · exact .inl ((hother _ hn).trans hlatest)
          · exact .inr ⟨k', item', hlt, hlt'.trans_le ha.grows.length, ha.grows.statsAt_of hitem', hn'⟩
  · constructor
    · intro k item hitem
      rw [Registry.mem_iff_isSome_latest, hnone.latest, ← Registry.mem_iff_isSome_latest]
      exact h.present k item ((hnone.statsAt k).symm.trans hitem)
    · intro k item hitem
      rw [hnone.statsAt] at hitem
      rcases h.latest k item hitem with hlatest | ⟨k', item', hlt, hlt', hitem', hn'⟩
      · exact .inl ((hnone.latest _).trans hlatest)
      · exact .inr ⟨k', item', hlt, hlt'.trans_le ha.grows.length, ha.grows.statsAt_of hitem', hn'⟩

/-! ## A connection -/

namespace Socket

variable {x y : Socket J}

/-- The `Init` of a connection has these stats for the node. -/
def Presents (x : Socket J) (n : String) (stats : J) : Prop :=
  ∃ snapshot ∈ x.nodes, snapshot.nodeId = n ∧ snapshot.stats = some stats

/-- Every `Stats` accepted so far for a node that passes the filter is in the `Init` of the connection,
or was superseded when the entry of the node was read, or was sent after `Init`. -/
def MissesNothing (s : Process J) (x : Socket J) : Prop :=
  ∃ updates : List (NodeUpdate J), x.sent = .init x.nodes :: updates.map .update ∧
    ∀ k item, s.statsAt k = some item → passes x.filter item.nodeId = true →
      x.Presents item.nodeId item.statsJson ∨
      (∃ m, (item.nodeId, m) ∈ x.reads ∧ s.Superseded item.nodeId k m) ∨ item.update ∈ updates

/-- What a connection has seen of the accepted messages. -/
structure Watches (s : Process J) (x : Socket J) : Prop where
  start_le : x.start ≤ s.broadcasts.length
  since_le : x.since ≤ s.receipts.length
  /-- What is accepted after the subscription is broadcast after it. -/
  aired : ∀ k item, x.since ≤ k → s.statsAt k = some item → item.update ∈ s.onAir x.start
  reads_le : ∀ n m, (n, m) ∈ x.reads → x.since ≤ m ∧ m ≤ s.receipts.length
  /-- What is accepted before an entry is read is found there, unless it was superseded. -/
  read : ∀ n m k item, (n, m) ∈ x.reads → passes x.filter n → k < m → s.statsAt k = some item →
    item.nodeId = n → x.Presents n item.statsJson ∨ s.Superseded n k m
  /-- The entries of all nodes with a `Stats` before the subscription are read. -/
  covers : ∀ k item, k < x.since → s.statsAt k = some item → x.handler = .subscribed ∨
    (∃ due visited, x.handler = .reading due visited ∧ item.nodeId ∈ due) ∨
    ∃ m, (item.nodeId, m) ∈ x.reads
  visited : ∀ due visited, x.handler = .reading due visited → ∀ n ∈ visited, ∃ m, (n, m) ∈ x.reads

theorem watches_subscribe (filter : Option String) : Watches s (subscribe s filter) where
  start_le := Nat.le_refl _
  since_le := Nat.le_refl _
  aired k item hk hitem := absurd (Process.lt_of_statsAt hitem) (Nat.not_lt.mpr hk)
  reads_le n m hmem := absurd hmem List.not_mem_nil
  read n m k item hmem := absurd hmem List.not_mem_nil
  covers k item _ _ := .inl rfl
  visited due visited h := absurd h (by simp [subscribe])

theorem Watches.airs {a : Act B} (h : Watches s x) (ha : Airs cfg s s' a) : Watches s' x := by
  have hg := ha.grows
  refine ⟨h.start_le.trans hg.broadcasts, h.since_le.trans hg.length, ?_, ?_, ?_, ?_, h.visited⟩
  · intro k item hk hitem
    rcases Nat.lt_or_ge k s.receipts.length with hlt | hge
    · have hold := h.aired k item hk ((hg.statsAt k hlt).symm.trans hitem)
      exact Multiset.mem_of_le (hg.onAir x.start h.start_le) hold
    · exact Multiset.mem_add.mpr (.inr (hg.fresh k item hge hitem))
  · intro n m hmem
    exact ⟨(h.reads_le n m hmem).1, (h.reads_le n m hmem).2.trans hg.length⟩
  · intro n m k item hmem hpasses hk hitem hn
    have hlt := hk.trans_le (h.reads_le n m hmem).2
    rw [hg.statsAt k hlt] at hitem
    exact (h.read n m k item hmem hpasses hk hitem hn).imp_right hg.superseded
  · intro k item hk hitem
    rw [hg.statsAt k (hk.trans_le h.since_le)] at hitem
    exact h.covers k item hk hitem

/-- The entry that is read has the stats that were accepted last. -/
theorem presents_of_read {node : NodeInfo J} (hsound : s.RegistrySound) (hkeeps : s.KeepsLast)
    (hnode : s.nodes.lookup n = some node) (hitem : s.statsAt k = some item) (hn : item.nodeId = n)
    (hy : node.toSnapshot ∈ y.nodes) :
    y.Presents n item.statsJson ∨ s.Superseded n k s.receipts.length := by
  subst hn
  refine (hkeeps.latest k item hitem).imp_left fun hlatest => ?_
  rw [Registry.latest, hnode, Option.map_some, Option.some.injEq] at hlatest
  exact ⟨node.toSnapshot, hy, hsound.keyed _ node hnode, hlatest⟩

theorem Watches.moves {a : SocketAct} (h : Watches s x) (hsound : s.RegistrySound)
    (hkeeps : s.KeepsLast) (hm : x.Moves s y a) : Watches s y := by
  cases hm with
  | begin hhandler =>
    refine ⟨h.start_le, h.since_le, h.aired, h.reads_le, h.read, fun k item hk hitem => ?_, ?_⟩
    · exact .inr (.inl ⟨_, _, rfl, AList.mem_keys.mpr (hkeeps.present k item hitem)⟩)
    · intro due visited heq n hn
      obtain ⟨-, rfl⟩ := Handler.reading.inj heq
      exact absurd hn List.not_mem_nil
  | read n due visited node hhandler hnode hnew =>
    refine ⟨h.start_le, h.since_le, h.aired, ?_, ?_, ?_, ?_⟩
    · intro n' m hmem
      rcases List.mem_append.mp hmem with hold | hlast
      · exact h.reads_le n' m hold
      · obtain ⟨-, rfl⟩ := Prod.mk.inj (List.mem_singleton.mp hlast)
        exact ⟨h.since_le, Nat.le_refl _⟩
    · intro n' m k item hmem hpasses hk hitem hn
      rcases List.mem_append.mp hmem with hold | hlast
      · refine (h.read n' m k item hold hpasses hk hitem hn).imp_left ?_
        rintro ⟨snapshot, hsnapshot, hrest⟩
        refine ⟨snapshot, ?_, hrest⟩
        show snapshot ∈ if _ then _ else _
        split
        · exact List.mem_append_left _ hsnapshot
        · exact hsnapshot
      · obtain ⟨rfl, rfl⟩ := Prod.mk.inj (List.mem_singleton.mp hlast)
        refine presents_of_read hsound hkeeps hnode hitem hn ?_
        show node.toSnapshot ∈ if _ then _ else _
        rw [if_pos hpasses]
        exact List.mem_append_right _ (List.mem_singleton_self _)
    · intro k item hk hitem
      rcases h.covers k item hk hitem with hsub | ⟨due', visited', hreading, hdue⟩ | ⟨m, hmem⟩
      · exact absurd (hsub.symm.trans hhandler) (by simp)
      · obtain ⟨rfl, rfl⟩ := Handler.reading.inj (hreading.symm.trans hhandler)
        exact .inr (.inl ⟨due', _, rfl, hdue⟩)
      · exact .inr (.inr ⟨m, List.mem_append_left _ hmem⟩)
    · intro due' visited' heq n' hn'
      obtain ⟨-, rfl⟩ := Handler.reading.inj heq
      rcases List.mem_cons.mp hn' with rfl | hold
      · exact ⟨_, List.mem_append_right _ (List.mem_singleton_self _)⟩
      · obtain ⟨m, hmem⟩ := h.visited due visited hhandler n' hold
        exact ⟨m, List.mem_append_left _ hmem⟩
  | collected due visited hhandler hall =>
    refine ⟨h.start_le, h.since_le, h.aired, h.reads_le, h.read, fun k item hk hitem => ?_,
      fun _ _ heq => absurd heq (by simp)⟩
    rcases h.covers k item hk hitem with hsub | ⟨due', visited', hreading, hdue⟩ | hread
    · exact absurd (hsub.symm.trans hhandler) (by simp)
    · obtain ⟨rfl, rfl⟩ := Handler.reading.inj (hreading.symm.trans hhandler)
      exact .inr (.inr (h.visited due' visited' hhandler _ (hall _ hdue)))
    · exact .inr (.inr hread)
  | init hhandler | refused hhandler | finish hhandler =>
    refine ⟨h.start_le, h.since_le, h.aired, h.reads_le, h.read, fun k item hk hitem => ?_,
      fun _ _ heq => absurd heq (by simp)⟩
    rcases h.covers k item hk hitem with hsub | ⟨due', visited', hreading, -⟩ | hread
    · exact absurd (hsub.symm.trans hhandler) (by simp)
    · exact absurd (hreading.symm.trans hhandler) (by simp)
    · exact .inr (.inr hread)
  | lagged | skipped | taken | sent | failed | clientGone =>
    exact ⟨h.start_le, h.since_le, h.aired, h.reads_le, h.read, h.covers, h.visited⟩

end Socket

namespace Hub

variable {hub : Hub J} {i : ℕ} {x : Socket J} {db : Database J} {clock : Int64} {as : List (HubAct B)}

theorem watches (hrun : Machine.run (step cfg) (boot db clock) as = some hub)
    (hx : hub.sockets[i]? = some x) : Socket.Watches hub.server.1 x := by
  refine (run_socket (K := fun p => p.1.RegistrySound ∧ p.1.KeepsLast) (I := Socket.Watches)
    (P := fun _ _ => True) ?_ ?_ ?_ ?_
    ⟨Process.registrySound_boot db clock, Process.keepsLast_boot db clock⟩
    (Machine.along_true _ as) hrun).2 x hx
  · rintro hub b p ⟨hsound, hkeeps⟩ - hs
    exact ⟨hsound.of_effect (step_effect hs), hkeeps.airs (step_airs hs)⟩
  · intro hub b p x _ _ _ hs hwatches
    exact hwatches.airs (step_airs hs)
  · intro p filter _
    exact Socket.watches_subscribe filter
  · rintro hub b x y ⟨hsound, hkeeps⟩ - - hm hwatches
    exact hwatches.moves hsound hkeeps hm

/-- **A subscriber misses no telemetry.** In every reachable state, no connection has sent an update
outside its filter. If its receiver never lags, then it has missed nothing whenever the streams have
nothing left to broadcast and the connection is up to date. -/
theorem subscriber_misses_nothing (hrun : Machine.run (step cfg) (boot db clock) as = some hub)
    (hx : hub.sockets[i]? = some x) :
    (∀ update, .update update ∈ x.sent → passes x.filter update.nodeId = true) ∧
    (Machine.Along (step cfg) (NeverLags i) (boot db clock) as → hub.server.1.unaired = 0 →
      x.UpToDate hub.server.1 → x.MissesNothing hub.server.1) := by
  have hwatches := watches hrun hx
  constructor
  · intro update hmem
    exact filtered hrun hx update (List.mem_append_left _ hmem)
  · intro hlags hunaired hup
    refine ⟨_, (delivers hrun hlags hx).upToDate hup, fun k item hitem hpasses => ?_⟩
    rcases Nat.lt_or_ge k x.since with hlt | hge
    · -- accepted before the subscription: the entry was read after that
      obtain ⟨m, hmem⟩ : ∃ m, (item.nodeId, m) ∈ x.reads := by
        rcases hwatches.covers k item hlt hitem with hsub | ⟨due, visited, hreading, -⟩ | hread
        · exact absurd (hsub.symm.trans hup.1) (by simp)
        · exact absurd (hreading.symm.trans hup.1) (by simp)
        · exact hread
      have hk := hlt.trans_le (hwatches.reads_le _ m hmem).1
      exact (hwatches.read _ m k item hmem hpasses hk hitem rfl).imp_right fun h => .inl ⟨m, hmem, h⟩
    · -- accepted after the subscription: broadcast after it
      have haired := hwatches.aired k item hge hitem
      rw [Process.onAir, hunaired, add_zero, Multiset.mem_coe] at haired
      exact .inr (.inr (List.mem_filter.mpr ⟨haired, hpasses⟩))

/-- A client connects between the registry insert and the broadcast of a first `Stats`, and a second
one replaces it before the entry is read. -/
def racingRun : List (HubAct ℕ) :=
  [.server (.openStream "node-01"), .server (.openStream "node-01"),
    .server (.receive 0 (.message (some (.stats ⟨"node-01", 1000, 7⟩)))), .connect none,
    .socket 0 .begin, .server (.receive 1 (.message (some (.stats ⟨"node-01", 2000, 8⟩)))),
    .socket 0 (.read "node-01"), .server (.enqueue 1), .server (.broadcast 1), .socket 0 .collected,
    .socket 0 (.sendInit true), .server (.enqueue 0), .server (.broadcast 0), .socket 0 .recv,
    .socket 0 (.send true), .socket 0 .recv, .socket 0 (.send true)]

theorem subscriber_misses_nothing_racingRun :
    ∃ hub, Machine.run (step Config.byText) (boot Database.empty 0) racingRun = some hub ∧
      ∃ x, hub.sockets[0]? = some x ∧ x.MissesNothing hub.server.1 := by
  refine ⟨_, (Option.some_get (by decide)).symm, _, (Option.some_get (by decide)).symm, ?_⟩
  exact (subscriber_misses_nothing (Option.some_get (by decide)).symm
    (Option.some_get (by decide)).symm).2 (by decide) (by decide)
    ⟨by decide, by decide, by decide⟩

end Hub

end Hakuraku.Server

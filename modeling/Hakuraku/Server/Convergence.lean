import Hakuraku.Server.Delivery
import Hakuraku.Server.OneStream
import Hakuraku.Server.Status

/-!
# What a client holds

Reference: `pulse-server/src/ws.rs`, `handle_socket`; `pulse-server/src/grpc.rs`, the `Stats` arm of
`stream_telemetry`; `pulse-server/src/main.rs`, the liveness checker.

A client that applies `Init` and then every `Update` in order holds for each node the stats it was told
last. With one stream for each node, an update of a stream carries what the registry holds when it is
sent. An announcement of the liveness checker carries what the registry held when the node was found
overdue. Between that and the announcement lies a database write, during which the node may come back
with newer stats: then the client is told the older ones last.
-/

namespace Hakuraku.Server

variable {B J : Type} {cfg : Config B J} {s s' : Process J} {p p' : State J} {a : Act B} {n : String}
  {x y : Socket J}

/-! ## The client -/

/-- What a client holds after a message: the stats of the nodes it was told of. A `None` arrives as
`null`. -/
def WsMessage.apply (null : J) (held : String → Option J) : WsMessage J → String → Option J
  | .init nodes =>
    nodes.foldl (fun held node => Function.update held node.nodeId (some (node.stats.getD null))) held
  | .update u => Function.update held u.nodeId (some u.stats)

/-- What a client holds after the messages it has got. -/
def client (null : J) (messages : List (WsMessage J)) : String → Option J :=
  messages.foldl (WsMessage.apply null) fun _ => none

/-- What a client of the connection will hold when it has got all that was broadcast so far. -/
def Socket.outlook (null : J) (s : Process J) (x : Socket J) : String → Option J :=
  client null (.init x.nodes :: (s.broadcasts.drop x.start).map .update)

/-- The stats of a node in the registry as they are sent. -/
def Process.latestSent (null : J) (s : Process J) (n : String) : Option J :=
  (s.nodes.latest n).map (·.getD null)

theorem client_init_concat {null : J} {nodes : List (NodeSnapshot J)} {node : NodeSnapshot J} :
    client null [.init (nodes ++ [node])] =
      Function.update (client null [.init nodes]) node.nodeId (some (node.stats.getD null)) := by
  simp only [client, List.foldl_cons, List.foldl_nil, WsMessage.apply, List.foldl_append]

/-- Updates of other nodes leave what the client holds for a node. -/
theorem foldl_update_of_ne {null : J} {updates : List (NodeUpdate J)}
    (h : ∀ update ∈ updates, update.nodeId ≠ n) (held : String → Option J) :
    (updates.map .update).foldl (WsMessage.apply null) held n = held n := by
  induction updates generalizing held with
  | nil => rfl
  | cons update updates ih =>
    rw [List.forall_mem_cons] at h
    rw [List.map_cons, List.foldl_cons, ih h.2, WsMessage.apply, Function.update_of_ne h.1.symm]

/-- After an update of a node, it does not matter what the client held before. -/
theorem foldl_update_of_mem {null : J} {updates : List (NodeUpdate J)}
    (h : ∃ update ∈ updates, update.nodeId = n) (held held' : String → Option J) :
    (updates.map .update).foldl (WsMessage.apply null) held n =
      (updates.map .update).foldl (WsMessage.apply null) held' n := by
  induction updates generalizing held held' with
  | nil => exact absurd h (by simp)
  | cons update updates ih =>
    by_cases hlater : ∃ update ∈ updates, update.nodeId = n
    · exact ih hlater _ _
    · have hnone : ∀ update ∈ updates, update.nodeId ≠ n := fun u hu hn => hlater ⟨u, hu, hn⟩
      obtain ⟨u, hu, hn⟩ := h
      rcases List.mem_cons.mp hu with rfl | hu
      · rw [List.map_cons, List.foldl_cons, List.foldl_cons, foldl_update_of_ne hnone,
          foldl_update_of_ne hnone, WsMessage.apply, WsMessage.apply, hn, Function.update_self,
          Function.update_self]
      · exact absurd hn (hnone u hu)

namespace Socket

/-- One more update is broadcast. -/
theorem outlook_concat {null : J} {update : NodeUpdate J} (hstart : x.start ≤ s.broadcasts.length)
    (hs' : s'.broadcasts = s.broadcasts ++ [update]) :
    x.outlook null s' = Function.update (x.outlook null s) update.nodeId (some update.stats) := by
  rw [outlook, outlook, hs', List.drop_append_of_le_length hstart, List.map_append, client, client,
    ← List.cons_append, List.foldl_append]
  rfl

theorem outlook_congr {null : J} (hs' : s'.broadcasts = s.broadcasts) :
    x.outlook null s' = x.outlook null s := by rw [outlook, outlook, hs']

/-- Where no update of a node was broadcast since the subscription, `Init` decides. -/
theorem outlook_of_ne {null : J} (h : ∀ update ∈ s.broadcasts.drop x.start, update.nodeId ≠ n) :
    x.outlook null s n = client null [.init x.nodes] n := by
  rw [outlook, client, List.foldl_cons, foldl_update_of_ne h]
  rfl

/-- Where one was, `Init` does not matter. -/
theorem outlook_of_mem {null : J} (h : ∃ update ∈ s.broadcasts.drop x.start, update.nodeId = n)
    (hstart : y.start = x.start) : y.outlook null s n = x.outlook null s n := by
  rw [outlook, outlook, client, client, List.foldl_cons, List.foldl_cons, hstart]
  exact foldl_update_of_mem h _ _

end Socket

/-! ## What the client is told last -/

/-- The transition that the liveness checker is about to announce. -/
def Liveness.announcing? : Liveness J → Option (Transition J)
  | .announcing transition _ => some transition
  | _ => none

/-- The stats captured for a transition are those of the registry, or a stream has still an update of
the node to send. -/
def Transition.UpToDate (null : J) (s : Process J) (transition : Transition J) : Prop :=
  s.latestSent null transition.nodeId = some (transition.latestStats.getD null) ∨
    ∃ update ∈ s.unaired, update.nodeId = transition.nodeId

instance [DecidableEq J] (null : J) (s : Process J) (transition : Transition J) :
    Decidable (transition.UpToDate null s) :=
  have : Decidable (∃ update ∈ s.unaired, update.nodeId = transition.nodeId) :=
    Multiset.decidableExistsMultiset
  inferInstanceAs (Decidable (_ ∨ _))

/-- The liveness checker announces no stats that newer ones have overtaken. -/
def AnnouncesCurrent (null : J) (s : Process J) : Act B → Prop
  | .announce => ∀ transition ∈ s.liveness.announcing?, transition.UpToDate null s
  | _ => True

instance [DecidableEq J] (null : J) (s : Process J) :
    ∀ a : Act B, Decidable (AnnouncesCurrent null s a)
  | .announce => Option.decidableForallMem _
  | .wait _ | .openStream _ | .receive _ _ | .enqueue _ | .broadcast _ | .ack _ _ | .workerRecv _
  | .workerUpsert _ _ | .workerInsert _ _ | .tick | .visit _ | .scanned | .persist _ => isTrue trivial

namespace Socket

variable {null : J}

/-- The handler has still to read the entry of the node. -/
def Due (x : Socket J) (n : String) : Prop :=
  x.handler = .subscribed ∨ ∃ due visited, x.handler = .reading due visited ∧ n ∈ due ∧ n ∉ visited

/-- The iteration begins with the entries that are there. -/
theorem due_of_begin (hmem : n ∈ s.nodes) (h : y.handler = .reading s.nodes.keys []) : y.Due n :=
  .inr ⟨_, _, h, AList.mem_keys.mpr hmem, List.not_mem_nil⟩

/-- Reading another entry leaves the entry of the node to be read. -/
theorem Due.read {due visited : List String} {m : String} (h : x.Due n)
    (hhandler : x.handler = .reading due visited) (hne : n ≠ m)
    (hhandler' : y.handler = .reading due (m :: visited)) : y.Due n := by
  rcases h with hsub | ⟨due', visited', hreading, hn, hunread⟩
  · exact absurd (hsub.symm.trans hhandler) (by simp)
  · obtain ⟨rfl, rfl⟩ := Handler.reading.inj (hreading.symm.trans hhandler)
    refine .inr ⟨due', _, hhandler', hn, ?_⟩
    rw [List.mem_cons, not_or]
    exact ⟨hne, hunread⟩

/-- An iteration that is through has read the entry. -/
theorem not_due_of_visited {due visited : List String} (hhandler : x.handler = .reading due visited)
    (hall : ∀ n ∈ due, n ∈ visited) : ¬ x.Due n := by
  rintro (hsub | ⟨due', visited', hreading, hn, hunread⟩)
  · exact absurd (hsub.symm.trans hhandler) (by simp)
  · obtain ⟨rfl, rfl⟩ := Handler.reading.inj (hreading.symm.trans hhandler)
    exact hunread (hall n hn)

theorem not_due_of_handler (hsub : x.handler ≠ .subscribed)
    (hreading : ∀ due visited, x.handler ≠ .reading due visited) : ¬ x.Due n := by
  rintro (h | ⟨due, visited, h, -⟩)
  · exact hsub h
  · exact hreading due visited h

/-- The client will hold what the registry holds, unless an update of the node is left to send or its
entry is still to be read. -/
def Converges (null : J) (s : Process J) (x : Socket J) (n : String) : Prop :=
  (∃ update ∈ s.unaired, update.nodeId = n) ∨ x.outlook null s n = s.latestSent null n ∨
    n ∈ s.nodes ∧ (∀ update ∈ s.broadcasts.drop x.start, update.nodeId ≠ n) ∧ x.Due n

theorem converges_subscribe (filter : Option String) (n : String) :
    (subscribe s filter).Converges null s n := by
  have hnone : s.broadcasts.drop (subscribe s filter).start = [] := List.drop_length
  by_cases hn : n ∈ s.nodes
  · exact .inr (.inr ⟨hn, by simp [hnone], .inl rfl⟩)
  · refine .inr (.inl ?_)
    have hlatest : s.nodes.latest n = none := by
      rwa [Registry.mem_iff_isSome_latest, Bool.not_eq_true, Option.isSome_eq_false_iff,
        Option.isNone_iff_eq_none] at hn
    rw [outlook_of_ne (by simp [hnone]), Process.latestSent, hlatest]
    rfl

/-- A step that changes neither the registry's stats nor the channel. -/
theorem Converges.congr (h : x.Converges null s n)
    (hlatest : s'.nodes.latest n = s.nodes.latest n) (hbroadcasts : s'.broadcasts = s.broadcasts)
    (hunaired : ∀ update ∈ s.unaired, update ∈ s'.unaired) : x.Converges null s' n := by
  rcases h with ⟨update, hu, hn⟩ | hsame | ⟨hmem, hnone, hdue⟩
  · exact .inl ⟨update, hunaired update hu, hn⟩
  · refine .inr (.inl ?_)
    rw [outlook_congr hbroadcasts, Process.latestSent, hlatest]
    exact hsame
  · refine .inr (.inr ⟨?_, hbroadcasts ▸ hnone, hdue⟩)
    rwa [Registry.mem_iff_isSome_latest, hlatest, ← Registry.mem_iff_isSome_latest]

/-- An update of another node is broadcast. -/
theorem Converges.broadcast_of_ne {update : NodeUpdate J} (h : x.Converges null s n)
    (hstart : x.start ≤ s.broadcasts.length) (hne : update.nodeId ≠ n) (hnodes : s'.nodes = s.nodes)
    (hbroadcasts : s'.broadcasts = s.broadcasts ++ [update])
    (hunaired : ∀ u ∈ s.unaired, u.nodeId = n → u ∈ s'.unaired) : x.Converges null s' n := by
  rcases h with ⟨u, hu, hn⟩ | hsame | ⟨hmem, hnone, hdue⟩
  · exact .inl ⟨u, hunaired u hu hn, hn⟩
  · refine .inr (.inl ?_)
    rw [outlook_concat hstart hbroadcasts, Function.update_of_ne hne.symm, Process.latestSent, hnodes]
    exact hsame
  · refine .inr (.inr ⟨hnodes ▸ hmem, ?_, hdue⟩)
    rw [hbroadcasts, List.drop_append_of_le_length hstart]
    intro u hu
    rcases List.mem_append.mp hu with hold | hnew
    · exact hnone u hold
    · exact List.mem_singleton.mp hnew ▸ hne

/-- An update that carries what the registry holds is broadcast. -/
theorem converges_of_broadcast {update : NodeUpdate J} (hstart : x.start ≤ s.broadcasts.length)
    (hnodes : s'.nodes = s.nodes) (hbroadcasts : s'.broadcasts = s.broadcasts ++ [update])
    (hlatest : s.latestSent null update.nodeId = some update.stats) :
    x.Converges null s' update.nodeId := by
  refine .inr (.inl ?_)
  rw [outlook_concat hstart hbroadcasts, Function.update_self, Process.latestSent, hnodes]
  exact hlatest.symm

theorem Converges.airs (h : x.Converges cfg.serde.null s n) (hstart : x.start ≤ s.broadcasts.length)
    (hcurrent : s.Current) (hguard : AnnouncesCurrent cfg.serde.null s a) (ha : Airs cfg s s' a) :
    x.Converges cfg.serde.null s' n := by
  cases ha with
  | quiet hnodes hreceipts hunaired hunannounced hbroadcasts =>
    exact h.congr (by rw [hnodes]) hbroadcasts fun update hu => hunaired ▸ hu
  | stats i stats item haccepts hnodes hreceipts hunaired hunannounced hbroadcasts =>
    by_cases hn : n = item.nodeId
    · exact .inl ⟨_, hunaired ▸ Multiset.mem_add.mpr (.inr (Multiset.mem_singleton_self _)), hn.symm⟩
    · refine h.congr (by rw [hnodes, Registry.latest_onStats_of_ne hn]) hbroadcasts fun update hu => ?_
      exact hunaired ▸ Multiset.mem_add.mpr (.inl hu)
  | heartbeat i hb hnodes hreceipts hunaired hunannounced hbroadcasts =>
    exact h.congr (by rw [hnodes, Registry.latest_onHeartbeat]) hbroadcasts
      fun update hu => hunaired ▸ hu
  | visit m now node hnode hnodes hreceipts hunaired hunannounced hbroadcasts =>
    exact h.congr (by rw [hnodes, Registry.latest_onVisit]) hbroadcasts fun update hu => hunaired ▸ hu
  | broadcast i update hnodes hreceipts hunaired hunannounced hbroadcasts =>
    by_cases hn : update.nodeId = n
    · subst hn
      refine converges_of_broadcast hstart hnodes hbroadcasts ?_
      have hmem : update ∈ s.unaired :=
        hunaired ▸ Multiset.mem_add.mpr (.inr (Multiset.mem_singleton_self _))
      rw [Process.latestSent, hcurrent update hmem]
      rfl
    · refine h.broadcast_of_ne hstart hn hnodes hbroadcasts fun u hu hun => ?_
      rcases Multiset.mem_add.mp (hunaired ▸ hu) with hleft | hsent
      · exact hleft
      · exact absurd (Multiset.mem_singleton.mp hsent ▸ hun) hn
  | announce transition rest hlive hnodes hreceipts hunaired hunannounced hbroadcasts =>
    by_cases hn : transition.nodeId = n
    · rcases hguard transition (by rw [hlive]; rfl) with hlatest | ⟨u, hu, hun⟩
      · exact hn ▸ converges_of_broadcast hstart hnodes hbroadcasts hlatest
      · exact .inl ⟨u, hunaired ▸ hu, hun.trans hn⟩
    · exact h.broadcast_of_ne hstart hn hnodes hbroadcasts fun u hu _ => hunaired ▸ hu

/-- After the entry of a node was read, the client will hold what the registry holds for it. -/
theorem outlook_read (null : J) (s : Process J) (n : String) {node : NodeInfo J} {m : String}
    (hm : node.nodeId = m)
    (hstart : y.start = x.start) (hnodes : y.nodes = x.nodes ++ [node.toSnapshot]) :
    y.outlook null s n =
      if n = m ∧ ∀ update ∈ s.broadcasts.drop x.start, update.nodeId ≠ n then
        some (node.latestStats.getD null)
      else x.outlook null s n := by
  by_cases hnone : ∀ update ∈ s.broadcasts.drop x.start, update.nodeId ≠ n
  · rw [outlook_of_ne (hstart ▸ hnone), outlook_of_ne hnone, hnodes, client_init_concat]
    split_ifs with hn
    · rw [hn.1, ← hm]
      exact Function.update_self _ _ _
    · refine Function.update_of_ne (fun heq => hn ⟨?_, hnone⟩) _ _
      exact heq.trans hm
  · rw [if_neg fun h => hnone h.2]
    refine outlook_of_mem ?_ hstart
    by_contra hno
    exact hnone fun update hu hn => hno ⟨update, hu, hn⟩

theorem Converges.moves {b : SocketAct} (h : x.Converges null s n) (hfilter : x.filter = none)
    (hsound : s.RegistrySound) (hm : x.Moves s y b) : y.Converges null s n := by
  cases hm with
  | begin hhandler =>
    refine h.imp_right (Or.imp_right ?_)
    rintro ⟨hmem, hnone, -⟩
    exact ⟨hmem, hnone, due_of_begin hmem rfl⟩
  | read m due visited node hhandler hnode hnew =>
    rcases h with hleft | h
    · exact .inl hleft
    have hread := outlook_read (x := x) null s n
      (y := { x with
        handler := .reading due (m :: visited)
        nodes := if passes x.filter m then x.nodes ++ [node.toSnapshot] else x.nodes
        reads := x.reads ++ [(m, s.receipts.length)] })
      (hsound.keyed m node hnode) rfl (by simp [hfilter, passes])
    by_cases hnow : n = m ∧ ∀ update ∈ s.broadcasts.drop x.start, update.nodeId ≠ n
    · refine .inr (.inl ?_)
      rw [hread, if_pos hnow, hnow.1, Process.latestSent, Registry.latest, hnode]
      rfl
    · rw [if_neg hnow] at hread
      refine .inr (h.imp (fun hsame => hread.trans hsame) ?_)
      rintro ⟨hmem, hnone, hdue⟩
      exact ⟨hmem, hnone, hdue.read hhandler (fun heq => hnow ⟨heq, hnone⟩) rfl⟩
  | collected due visited hhandler hall =>
    refine h.imp_right (Or.imp_right ?_)
    rintro ⟨-, -, hdue⟩
    exact absurd hdue (not_due_of_visited hhandler hall)
  | init hhandler | refused hhandler | finish hhandler =>
    refine h.imp_right (Or.imp_right ?_)
    rintro ⟨-, -, hdue⟩
    exact absurd hdue (not_due_of_handler (by simp [hhandler]) (by simp [hhandler]))
  | lagged | skipped | taken | sent | failed | clientGone => exact h

/-- A connection keeps the filter and the position it subscribed with. -/
theorem Moves.filter_start {b : SocketAct} (hm : x.Moves s y b) :
    y.filter = x.filter ∧ y.start = x.start := by
  cases hm <;> exact ⟨rfl, rfl⟩

end Socket

namespace Hub

variable {hub : Hub J} {i : ℕ} {db : Database J} {clock : Int64} {as : List (HubAct B)}

/-- A guard on the steps of the server. -/
def AtServer (g : Process J → Act B → Prop) (hub : Hub J) : HubAct B → Prop
  | .server a => g hub.server.1 a
  | _ => True

instance (g : Process J → Act B → Prop) [∀ s a, Decidable (g s a)] (hub : Hub J) :
    ∀ a : HubAct B, Decidable (hub.AtServer g a)
  | .server a => inferInstanceAs (Decidable (g hub.server.1 a))
  | .connect _ | .socket _ _ => isTrue trivial

/-- **A client converges to the registry as long as no stale stats are announced.** Take a run in which
no node has two streams open, and whatever the liveness checker announces for a node is what the
registry holds, or a stream has still an update of the node to send. Whenever the streams have sent
everything and an unfiltered connection whose receiver never lags is up to date, its client holds for
every node the stats of the registry. -/
theorem client_converges (hrun : Machine.run (step cfg) (boot db clock) as = some hub)
    (hone : Machine.Along (step cfg) (AtServer OneStream) (boot db clock) as)
    (hannounces : Machine.Along (step cfg) (AtServer (AnnouncesCurrent cfg.serde.null))
      (boot db clock) as)
    (hlags : Machine.Along (step cfg) (NeverLags i) (boot db clock) as)
    (hx : hub.sockets[i]? = some x) (hfilter : x.filter = none) (hunaired : hub.server.1.unaired = 0)
    (hup : x.UpToDate hub.server.1) (n : String) :
    client cfg.serde.null x.sent n = hub.server.1.latestSent cfg.serde.null n := by
  have hinv := run_socket (i := i)
    (K := fun p => p.1.RegistrySound ∧ p.1.OneOpen ∧ p.1.FaithfulStreams ∧ p.1.Current)
    (I := fun s x => x.start ≤ s.broadcasts.length ∧
      (x.filter = none → ∀ n, x.Converges cfg.serde.null s n)) ?_ ?_ ?_ ?_
    ⟨Process.registrySound_boot db clock, Process.oneOpen_boot db clock,
      fun x hx => absurd hx List.not_mem_nil, Process.current_boot db clock⟩
    (hone.and hannounces) hrun
  · have hsent := (delivers hrun hlags hx).upToDate hup
    rw [Socket.forwarded_of_filter_none hfilter] at hsent
    rw [hsent]
    rcases (hinv.2 x hx).2 hfilter n with ⟨u, hu, -⟩ | hsame | ⟨-, -, hsub | ⟨due, visited, hread, -⟩⟩
    · rw [hunaired] at hu
      exact absurd hu (Multiset.notMem_zero u)
    · exact hsame
    · exact absurd (hsub.symm.trans hup.1) (by simp)
    · exact absurd (hread.symm.trans hup.1) (by simp)
  · rintro hub b p ⟨hsound, hopen, hfaithful, hcurrent⟩ ⟨hone, -⟩ hs
    exact ⟨hsound.of_effect (step_effect hs), hopen.step hone hs, hfaithful.step hs,
      hcurrent.airs (hopen.airsFirst hfaithful) (step_airs hs)⟩
  · rintro hub b p x ⟨-, -, -, hcurrent⟩ ⟨-, hannounces⟩ - hs ⟨hstart, hconverges⟩
    obtain ⟨later, hlater⟩ := (step_airs hs).exists_broadcasts
    refine ⟨by rw [hlater, List.length_append]; omega, fun hfilter n => ?_⟩
    exact (hconverges hfilter n).airs hstart hcurrent hannounces (step_airs hs)
  · intro p filter _
    exact ⟨Nat.le_refl _, fun _ n => Socket.converges_subscribe filter n⟩
  · rintro hub b x y ⟨hsound, -⟩ - - hm ⟨hstart, hconverges⟩
    obtain ⟨hfilter, hstart'⟩ := hm.filter_start
    refine ⟨hstart' ▸ hstart, fun hnone n => ?_⟩
    exact (hconverges (hfilter ▸ hnone) n).moves (hfilter ▸ hnone) hsound hm

/-- A client connects, the node falls silent until it has been announced offline, and then sends
another snapshot. -/
def returnRun : List (HubAct ℕ) :=
  [.server (.openStream "node-01"),
    .server (.receive 0 (.message (some (.stats ⟨"node-01", 1000, 7⟩)))), .connect none,
    .socket 0 .begin, .socket 0 (.read "node-01"), .socket 0 .collected, .socket 0 (.sendInit true),
    .server (.enqueue 0), .server (.broadcast 0), .server (.wait 40000), .server .tick,
    .server (.visit "node-01"), .server .scanned, .server (.persist true), .server .announce,
    .server (.receive 0 (.message (some (.stats ⟨"node-01", 40000, 8⟩)))), .server (.enqueue 0),
    .server (.broadcast 0), .socket 0 .recv, .socket 0 (.send true), .socket 0 .recv,
    .socket 0 (.send true), .socket 0 .recv, .socket 0 (.send true)]

theorem client_converges_returnRun :
    ∃ hub, Machine.run (step Config.byText) (boot Database.empty 0) returnRun = some hub ∧
      ∃ x, hub.sockets[0]? = some x ∧
        ∀ n, client Config.byText.serde.null x.sent n =
          hub.server.1.latestSent Config.byText.serde.null n := by
  refine ⟨_, (Option.some_get (by decide)).symm, _, (Option.some_get (by decide)).symm, ?_⟩
  exact client_converges (i := 0) (Option.some_get (by decide)).symm (by decide) (by decide) (by decide)
    (Option.some_get (by decide)).symm (by decide) (by decide) ⟨by decide, by decide, by decide⟩

/-- A client connects, the node falls silent, and comes back while the liveness checker writes its
offline status to the database. -/
def staleRun : List (HubAct ℕ) :=
  [.server (.openStream "node-01"),
    .server (.receive 0 (.message (some (.stats ⟨"node-01", 1000, 7⟩)))), .server (.enqueue 0),
    .server (.broadcast 0), .server (.workerRecv 3), .server (.workerUpsert 3 true),
    .server (.workerInsert 3 true), .connect none, .socket 0 .begin, .socket 0 (.read "node-01"),
    .socket 0 .collected, .socket 0 (.sendInit true), .server (.wait 40000), .server .tick,
    .server (.visit "node-01"), .server .scanned,
    .server (.receive 0 (.message (some (.stats ⟨"node-01", 40000, 8⟩)))), .server (.enqueue 0),
    .server (.broadcast 0), .server (.workerRecv 3), .server (.workerUpsert 3 true),
    .server (.workerInsert 3 true), .server (.persist true), .server .announce, .socket 0 .recv,
    .socket 0 (.send true), .socket 0 .recv, .socket 0 (.send true)]

/-- **An announcement undoes an update.** The streams, the workers and the liveness checker are idle,
and the client has got everything. It holds the older snapshot, and the registry the newer one. -/
theorem client_left_with_stale_stats :
    ∃ hub, Machine.run (step Config.byText) (boot Database.empty 0) staleRun = some hub ∧
      Machine.Along (step Config.byText) (AtServer OneStream) (boot Database.empty 0) staleRun ∧
      Machine.Along (step Config.byText) (NeverLags 0) (boot Database.empty 0) staleRun ∧
      hub.server.1.Quiescent ∧ hub.server.1.unaired = 0 ∧
      hub.server.1.unannounced Config.byText.serde = 0 ∧
      ∃ x, hub.sockets[0]? = some x ∧ x.filter = none ∧ x.UpToDate hub.server.1 ∧
        client "null" x.sent "node-01" = some "7" ∧
        hub.server.1.latestSent "null" "node-01" = some "8" := by
  refine ⟨_, (Option.some_get (by decide)).symm, by decide, by decide,
    ⟨by decide, by decide, by decide, by decide⟩, by decide, by decide, _,
    (Option.some_get (by decide)).symm, ?_⟩
  exact ⟨by decide, ⟨by decide, by decide, by decide⟩, by decide, by decide⟩

end Hub

end Hakuraku.Server

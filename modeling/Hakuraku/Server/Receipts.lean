import Hakuraku.Server.Tasks

/-!
# The registry over a run

Reference: `pulse-server/src/grpc.rs`, `stream_telemetry`; `pulse-server/src/main.rs`, the liveness
checker.

Three kinds of steps write the registry: a stream that accepts a `Stats`, a stream that accepts a
`Heartbeat`, and a visit of the liveness checker (`Effect`). The invariants of this module
say what they leave there: an entry stands under its own node id, and its `last_seen_ms` is the
timestamp carried by the message that the server accepted last for the node, however late that
message was and whatever the other messages said.
-/

namespace Hakuraku.Server

variable {B J : Type} {cfg : Config B J} {p p' : State J} {a : Act B} {n : String}

namespace Process

/-- The status of a node in the registry. -/
def statusOf (s : Process J) (n : String) : Option NodeStatus := (s.nodes.lookup n).map (·.status)

theorem statusOf_congr {s s' : Process J} (h : s'.nodes = s.nodes) : s'.statusOf n = s.statusOf n := by
  rw [statusOf, statusOf, h]

/-- The accepted messages of a node, in order. -/
def receiptsOf (s : Process J) (n : String) : List (Receipt J) := s.receipts.filter (·.nodeId = n)

/-- The message of a node accepted last. -/
def lastReceipt (s : Process J) (n : String) : Option (Receipt J) := (s.receiptsOf n).getLast?

end Process

/-- **What a step does to the registry and the liveness checker.** A step of a stream that accepts
no message, a worker or the clock leaves both alone. -/
inductive Effect (s s' : Process J) : Act B → Prop where
  | other {a : Act B} (hnodes : s'.nodes = s.nodes) (hreceipts : s'.receipts = s.receipts)
      (hlive : s'.liveness = s.liveness) (hclock : s.clock ≤ s'.clock) : Effect s s' a
  | stats (i : ℕ) (stats : NodeStats B) (nodeId : String) (timestampMs : Int64) (statsStr : String)
      (statsJson : J) (hid : stats.nodeId = nodeId) (hstamp : stats.timestampMs = timestampMs)
      (hstream : ∃ x, s.streams[i]? = some x ∧ x.nodeId = nodeId)
      (hnodes : s'.nodes = s.nodes.onStats nodeId timestampMs statsJson)
      (hreceipts : s'.receipts = s.receipts ++
        [⟨nodeId, s.clock, timestampMs, some ⟨nodeId, timestampMs, statsStr, statsJson⟩⟩])
      (hlive : s'.liveness = s.liveness) (hclock : s'.clock = s.clock) :
      Effect s s' (.receive i (.message (some (.stats stats))))
  | heartbeat (i : ℕ) (hb : Heartbeat) (nodeId : String) (timestampMs : Int64)
      (hid : hb.nodeId = nodeId) (hstamp : hb.timestampMs = timestampMs)
      (hstream : ∃ x, s.streams[i]? = some x ∧ x.nodeId = nodeId)
      (hnodes : s'.nodes = s.nodes.onHeartbeat nodeId timestampMs)
      (hreceipts : s'.receipts = s.receipts ++ [⟨nodeId, s.clock, timestampMs, none⟩])
      (hlive : s'.liveness = s.liveness) (hclock : s'.clock = s.clock) :
      Effect s s' (.receive i (.message (some (.heartbeat hb))))
  | tick (hidle : s.liveness = .idle)
      (heq : s' = { s with liveness := .scanning s.clock s.nodes.keys [] [] }) : Effect s s' .tick
  | visit (n : String) (now : Int64) (due visited : List String) (transitions : List (Transition J))
      (node : NodeInfo J) (hscan : s.liveness = .scanning now due visited transitions)
      (hnode : s.nodes.lookup n = some node) (hnew : n ∉ visited)
      (heq : s' = { s with
        nodes := s.nodes.onVisit now n
        liveness := .scanning now due (n :: visited)
          (if Registry.overdue now node then
            transitions ++ [⟨node.nodeId, node.lastSeenMs, node.latestStats⟩]
          else transitions) }) : Effect s s' (.visit n)
  | scanned (now : Int64) (due visited : List String) (transitions : List (Transition J))
      (hscan : s.liveness = .scanning now due visited transitions) (hall : ∀ n ∈ due, n ∈ visited)
      (heq : s' = { s with liveness := .next s.clock transitions }) : Effect s s' .scanned
  | persist (ok : Bool) (nowMs : Int64) (transition : Transition J) (rest : List (Transition J))
      (hupsert : s.liveness = .upserting nowMs transition rest) (hnodes : s'.nodes = s.nodes)
      (hreceipts : s'.receipts = s.receipts) (hlive : s'.liveness = .announcing transition rest)
      (hclock : s'.clock = s.clock) : Effect s s' (.persist ok)
  | announce (transition : Transition J) (rest : List (Transition J))
      (hann : s.liveness = .announcing transition rest) (hnodes : s'.nodes = s.nodes)
      (hreceipts : s'.receipts = s.receipts) (hlive : s'.liveness = .next s.clock rest)
      (hclock : s'.clock = s.clock) : Effect s s' .announce

/-- Queueing an item touches nothing but the queues and the drop counter. -/
theorem Process.sendToWorker_eq {s s' : Process J} {nodeId : String} {item : IngestionItem J}
    (h : s.sendToWorker cfg nodeId item = some s') :
    ∃ shards drops, s' = { s with shards, drops } := by
  obtain ⟨x, -, rfl⟩ := Process.sendToWorker_iff.mp h
  split
  · exact ⟨_, s.drops, rfl⟩
  · exact ⟨s.shards, _, rfl⟩

theorem step_effect (h : step cfg p a = some p') : Effect p.1 p'.1 a := by
  obtain ⟨s, db⟩ := p
  cases a with
  | wait now =>
    obtain ⟨hle, rfl⟩ := step_wait_iff.mp h
    exact .other rfl rfl rfl hle
  | openStream nodeId =>
    obtain rfl := step_openStream_iff.mp h
    exact .other rfl rfl rfl (Int64.le_refl _)
  | receive i inbound =>
    obtain ⟨x, hx, -, s', hs', rfl⟩ := step_receive_iff.mp h
    rcases Process.receive_cases hs' with
      rfl | rfl | ⟨stats, statsJson, rfl, hid, -, rfl⟩ | ⟨hb, rfl, hid, rfl⟩ | ⟨probe, rfl, hitem⟩
    · exact .other rfl rfl rfl (Int64.le_refl _)
    · exact .other rfl rfl rfl (Int64.le_refl _)
    · exact .stats i stats _ _ _ _ hid rfl ⟨x, hx, rfl⟩ rfl rfl rfl rfl
    · exact .heartbeat i hb _ _ hid rfl ⟨x, hx, rfl⟩ rfl rfl rfl rfl
    · obtain ⟨shards, drops, rfl⟩ := Process.sendToWorker_eq hitem
      exact .other rfl rfl rfl (Int64.le_refl _)
  | enqueue i =>
    obtain ⟨x, -, item, -, s', hs', rfl⟩ := step_enqueue_iff.mp h
    obtain ⟨shards, drops, rfl⟩ := Process.sendToWorker_eq hs'
    exact .other rfl rfl rfl (Int64.le_refl _)
  | broadcast i =>
    obtain ⟨x, -, update, -, rfl⟩ := step_broadcast_iff.mp h
    exact .other rfl rfl rfl (Int64.le_refl _)
  | ack i ok =>
    obtain ⟨x, -, nowMs, -, rfl⟩ := step_ack_iff.mp h
    exact .other rfl rfl rfl (Int64.le_refl _)
  | workerRecv | workerUpsert | workerInsert =>
    obtain ⟨shards, dbErrors, heq⟩ := step_of_worker h rfl
    rw [heq]
    exact .other rfl rfl rfl (Int64.le_refl _)
  | tick =>
    obtain ⟨hidle, rfl⟩ := step_tick_iff.mp h
    exact .tick hidle rfl
  | visit n =>
    obtain ⟨now, due, visited, transitions, node, hscan, hnode, hnew, rfl⟩ := step_visit_iff.mp h
    exact .visit n now due visited transitions node hscan hnode hnew rfl
  | scanned =>
    obtain ⟨now, due, visited, transitions, hscan, hall, rfl⟩ := step_scanned_iff.mp h
    exact .scanned now due visited transitions hscan hall rfl
  | persist ok =>
    obtain ⟨nowMs, transition, rest, hupsert, rfl⟩ := step_persist_iff.mp h
    cases ok <;> exact .persist _ nowMs transition rest hupsert rfl rfl rfl rfl
  | announce =>
    obtain ⟨transition, rest, hann, rfl⟩ := step_announce_iff.mp h
    exact .announce transition rest hann rfl rfl rfl rfl

namespace Process

variable {s s' : Process J}

/-- Accepting a message adds it to the receipts of its node. -/
theorem receiptsOf_append {r : Receipt J} (h : s'.receipts = s.receipts ++ [r]) :
    s'.receiptsOf n = if r.nodeId = n then s.receiptsOf n ++ [r] else s.receiptsOf n := by
  rw [receiptsOf, receiptsOf, h, List.filter_append]
  split <;> simp_all

theorem lastReceipt_append {r : Receipt J} (h : s'.receipts = s.receipts ++ [r]) :
    s'.lastReceipt n = if r.nodeId = n then some r else s.lastReceipt n := by
  rw [lastReceipt, receiptsOf_append h]
  split
  · exact List.getLast?_concat
  · rfl

theorem lastReceipt_congr (h : s'.receipts = s.receipts) : s'.lastReceipt n = s.lastReceipt n := by
  rw [lastReceipt, lastReceipt, receiptsOf, receiptsOf, h]

/-! ## What the registry keeps -/

/-- What every step keeps true of the registry. -/
structure RegistrySound (s : Process J) : Prop where
  /-- Every entry stands under its own node id. -/
  keyed : ∀ n node, s.nodes.lookup n = some node → node.nodeId = n
  /-- An entry's `last_seen_ms` is the timestamp of the message accepted last. -/
  lastSeen : ∀ n node r, s.nodes.lookup n = some node → s.lastReceipt n = some r →
    node.lastSeenMs = r.timestampMs

theorem registrySound_boot (db : Database J) (clock : Int64) : (boot db clock).RegistrySound where
  keyed n node h := (Registry.mem_of_lookup_load h).2
  lastSeen n node r _ h := absurd h (by simp [lastReceipt, receiptsOf, boot])

/-- **Where an entry comes from.** It is the entry of before, up to its status, or it carries the
timestamp of the message that was just accepted. -/
theorem entry_cases {node : NodeInfo J} (he : Effect s s' a) (h : s'.nodes.lookup n = some node) :
    (∃ old, s.nodes.lookup n = some old ∧ node.nodeId = old.nodeId ∧
      node.lastSeenMs = old.lastSeenMs ∧ s'.lastReceipt n = s.lastReceipt n) ∨
    (∃ r, s'.lastReceipt n = some r ∧ node.lastSeenMs = r.timestampMs ∧
      (node.nodeId = n ∨ ∃ old, s.nodes.lookup n = some old ∧ node.nodeId = old.nodeId)) := by
  have hsame : s'.nodes = s.nodes → s'.receipts = s.receipts → ∃ old, s.nodes.lookup n = some old ∧
      node.nodeId = old.nodeId ∧ node.lastSeenMs = old.lastSeenMs ∧
      s'.lastReceipt n = s.lastReceipt n :=
    fun hnodes hreceipts => ⟨node, hnodes ▸ h, rfl, rfl, lastReceipt_congr hreceipts⟩
  cases he with
  | other hnodes hreceipts => exact .inl (hsame hnodes hreceipts)
  | stats i stats nodeId timestampMs statsStr statsJson hid hstamp hstream hnodes hreceipts =>
    rw [lastReceipt_append hreceipts]
    by_cases hne : n = nodeId
    · subst hne
      rw [hnodes, Registry.lookup_onStats_self, Option.some.injEq] at h
      subst h
      exact .inr ⟨_, if_pos rfl, rfl, .inl rfl⟩
    · rw [hnodes, Registry.lookup_onStats_of_ne hne] at h
      exact .inl ⟨node, h, rfl, rfl, if_neg (Ne.symm hne)⟩
  | heartbeat i hb nodeId timestampMs hid hstamp hstream hnodes hreceipts =>
    rw [lastReceipt_append hreceipts]
    by_cases hne : n = nodeId
    · subst hne
      rw [hnodes, Registry.lookup_onHeartbeat_self] at h
      obtain ⟨old, hold, rfl⟩ := Option.map_eq_some_iff.mp h
      exact .inr ⟨_, if_pos rfl, rfl, .inr ⟨old, hold, rfl⟩⟩
    · rw [hnodes, Registry.lookup_onHeartbeat_of_ne hne] at h
      exact .inl ⟨node, h, rfl, rfl, if_neg (Ne.symm hne)⟩
  | visit m now due visited transitions node' hscan hnode hnew heq =>
    -- a visit changes nothing but a status
    subst heq
    by_cases hne : n = m
    · subst hne
      rw [Registry.lookup_onVisit_self] at h
      obtain ⟨old, hold, rfl⟩ := Option.map_eq_some_iff.mp h
      refine .inl ⟨old, hold, ?_⟩
      split <;> exact ⟨rfl, rfl, rfl⟩
    · rw [Registry.lookup_onVisit_of_ne hne] at h
      exact .inl ⟨node, h, rfl, rfl, rfl⟩
  | tick hidle heq => exact .inl (hsame (heq ▸ rfl) (heq ▸ rfl))
  | scanned now due visited transitions hscan hall heq =>
    exact .inl (hsame (heq ▸ rfl) (heq ▸ rfl))
  | persist ok nowMs transition rest hupsert hnodes hreceipts => exact .inl (hsame hnodes hreceipts)
  | announce transition rest hann hnodes hreceipts => exact .inl (hsame hnodes hreceipts)

theorem RegistrySound.of_effect (h : s.RegistrySound) (he : Effect s s' a) : s'.RegistrySound where
  keyed n node hn := by
    rcases entry_cases he hn with ⟨old, hold, hid, -⟩ | ⟨r, -, -, hid | ⟨old, hold, hid⟩⟩
    · exact hid.trans (h.keyed n old hold)
    · exact hid
    · exact hid.trans (h.keyed n old hold)
  lastSeen n node r hn hr := by
    rcases entry_cases he hn with ⟨old, hold, -, hseen, hlast⟩ | ⟨r', hlast, hseen, -⟩
    · exact hseen.trans (h.lastSeen n old r hold (hlast ▸ hr))
    · rw [hlast, Option.some.injEq] at hr
      exact hr ▸ hseen

end Process

end Hakuraku.Server

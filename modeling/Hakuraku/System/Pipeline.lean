import Hakuraku.Server.Ledger
import Hakuraku.System.EndToEnd

/-!
# An agent and a deployment

Reference: `pulse-agent/src/main.rs`, `main` and `run_session`; `pulse-server/src/grpc.rs`,
`stream_telemetry`; `pulse-server/src/main.rs`, all tasks; `docker-compose.swarm.yml`.

The agent connects to a port behind which there are several servers, so that each of its sessions may
be with another one, and servers start, stop and clean up while it runs. Each connection keeps its
messages in order. Here, where an old and a new one may lead to two servers, any message that is on
the wire may be the next one that is handled or lost.

Only messages from the wire come in on the streams of the agent's node; other agents stream under
other ids.
-/

namespace Hakuraku

open Agent (Sample)
open Server (Snapshot Deployment DeploymentAct)

/-! ## The rows of a node -/

namespace Server.Deployment

variable {B J : Type} {cfg : Config B J} {d d' : Deployment J} {b : DeploymentAct B} {i k : ℕ}
  {n : String}

/-- A telemetry stream of one of the servers. -/
def stream? (d : Deployment J) (i k : ℕ) : Option (Stream J) :=
  d.cluster.replicas[i]?.bind (·.process.streams[k]?)

/-- The rows of the items accepted for a node. -/
def rowsOf (cfg : Config B J) (d : Deployment J) (n : String) : Multiset (Snapshot J) :=
  d.cluster.total fun s => s.rowsOf cfg n

/-- The rows of a node that are stored, have been deleted or are on their way. -/
def recordOf (cfg : Config B J) (d : Deployment J) (n : String) : Multiset (Snapshot J) :=
  (d.record cfg).filter (·.nodeId = n)

theorem tallied_rowsOf (cfg : Config B J) (n : String) :
    Tallied fun s : Process J => s.rowsOf cfg n :=
  ⟨fun _ _ => rfl, fun _ _ _ => rfl⟩

theorem rowsOf_eq (d : Deployment J) :
    d.rowsOf cfg n = (d.accepted.map (·.snapshot cfg)).filter (·.nodeId = n) := by
  simp only [rowsOf, accepted, Cluster.total]
  induction d.cluster.replicas with
  | nil => rfl
  | cons x replicas ih =>
    have hfilter : x.process.rowsOf cfg n =
        ((x.process.accepted : Multiset (StatsItem J)).map (·.snapshot cfg)).filter
          (·.nodeId = n) := by
      rw [Multiset.filter_map]
      rfl
    rw [List.map_cons, List.sum_cons, List.map_cons, List.sum_cons, Multiset.map_add,
      Multiset.filter_add, ih, hfilter]

/-- **A step that hears nothing on the streams of a node accepts nothing of it.** -/
theorem step_rowsOf (hs : d.step cfg b = some d')
    (hquiet : ∀ i k msg x, b = .cluster (.act i (.receive k (.message (some msg)))) →
      d.stream? i k = some x → x.nodeId ≠ n) : d'.rowsOf cfg n = d.rowsOf cfg n := by
  cases step_moves hs with
  | act i a x p' hx hserver hdb hdeleted hdeletedProbes htotal =>
    have hsame := step_acceptedOf hserver (n := n) fun k msg y ha hy =>
      hquiet i k msg y (by rw [ha]) (by simp [stream?, hx, hy])
    refine add_right_cancel ((htotal fun s => s.rowsOf cfg n).trans ?_)
    rw [Process.rowsOf, hsame]
    rfl
  | other b hb hsnapshots hprobeResults htotal => exact htotal _ (tallied_rowsOf cfg n)

/-- **A message received on a stream of its node becomes the row of its snapshot.** -/
theorem receive_rowsOf {cfg : Config ℕ J} {msg : Payload ℕ} {x : Stream J}
    (hs : d.step cfg (.cluster (.act i (.receive k (.message (some msg))))) = some d')
    (hx : d.stream? i k = some x) (hown : ∀ stats, msg = .stats stats → stats.nodeId = x.nodeId) :
    d'.rowsOf cfg x.nodeId = d.rowsOf cfg x.nodeId +
      (statsOf [msg] : Multiset Agent.Sample).filterMap cfg.row := by
  cases step_moves hs with
  | act i a y p' hy hserver hdb hdeleted hdeletedProbes htotal =>
    have hstream : y.process.streams[k]? = some x := by simpa [stream?, hy] using hx
    have haccepted := receive_acceptedOf hserver hstream hown
    refine add_right_cancel ((htotal fun s => s.rowsOf cfg x.nodeId).trans ?_)
    rw [haccepted]
    exact (add_assoc _ _ _).symm.trans (add_right_comm _ _ _)
  | other b hb => exact absurd rfl (hb _ _)

/-- The books of one node. -/
theorem Recorded.of_node {start : Deployment J} (h : Recorded cfg start d) (n : String) :
    ∃ lost : Multiset (Snapshot J), d.recordOf cfg n + lost + start.rowsOf cfg n =
        start.recordOf cfg n + d.rowsOf cfg n ∧ (d.losses = start.losses → lost = 0) := by
  obtain ⟨items, haccepted, hbalanced⟩ := h
  obtain ⟨lost, hrows, hlosses⟩ := hbalanced.filter (·.nodeId = n)
  refine ⟨lost, ?_, fun heq => Multiset.card_eq_zero.mp (by omega)⟩
  rw [recordOf, hrows, rowsOf_eq d, haccepted, Multiset.map_add, Multiset.filter_add,
    ← rowsOf_eq start, recordOf]
  ac_rfl

end Server.Deployment

/-! ## Agent, wire and servers -/

/-- An agent, the messages it has sent, and the servers. -/
structure Pipeline (J : Type) where
  agent : Agent.State
  wire : List Agent.Message
  servers : Deployment J

namespace Pipeline

/-- The steps of agent and servers. -/
inductive Act where
  | agent (a : Agent.Act)
  /-- A step of the servers in which they hear nothing from the agent. -/
  | servers (b : DeploymentAct ℕ)
  /-- A server handles a message on the wire, on a stream of the agent's node. -/
  | handle (position server stream : ℕ)
  /-- A message on the wire is lost with its connection. -/
  | lose (position : ℕ)

variable {J : Type}

/-- A step of the servers is a message on a stream of the agent's node. -/
def hears (s : Pipeline J) : DeploymentAct ℕ → Bool
  | .cluster (.act i (.receive k (.message (some _)))) =>
    (s.servers.stream? i k).any (·.nodeId = s.agent.nodeId)
  | _ => false

/-- One step of agent and servers. -/
def step (cfg : Server.Config ℕ J) (s : Pipeline J) : Act → Option (Pipeline J)
  | .agent a =>
    (s.agent.step a).map fun agent => { s with agent, wire := s.wire ++ s.agent.outgoing a }
  | .servers b =>
    if s.hears b then none else (s.servers.step cfg b).map fun servers => { s with servers }
  | .handle j i k =>
    match s.wire[j]? with
    | some msg =>
      if s.hears (.cluster (.act i (.receive k (.message (some msg))))) then
        (s.servers.step cfg (.cluster (.act i (.receive k (.message (some msg)))))).map fun servers =>
          { s with servers, wire := s.wire.eraseIdx j }
      else none
    | none => none
  | .lose j => some { s with wire := s.wire.eraseIdx j }

/-- Before the agent has connected and before any server has started. -/
def init (nodeId : String) (clock : Int64) (intervalMs : UInt64) (db : Server.Database J)
    (serverClock : Int64) : Pipeline J :=
  { agent := .init nodeId clock intervalMs, wire := [], servers := .init db serverClock }

/-- A step leaves no snapshot behind, at the agent or on the wire. -/
def LosesNothing (s : Pipeline J) : Act → Prop
  | .agent a => s.agent.StrandsNothing a
  | .lose j => statsOf s.wire[j]?.toList = []
  | _ => True

instance (s : Pipeline J) : DecidablePred s.LosesNothing
  | .agent a => inferInstanceAs (Decidable (s.agent.StrandsNothing a))
  | .lose _ => inferInstanceAs (Decidable (_ = _))
  | .servers _ | .handle .. => isTrue trivial

variable {cfg : Server.Config ℕ J} {s s' : Pipeline J} {a : Act} {nodeId : String}

theorem step_agent_iff {a : Agent.Act} :
    s.step cfg (.agent a) = some s' ↔ ∃ agent, s.agent.step a = some agent ∧
      { s with agent, wire := s.wire ++ s.agent.outgoing a } = s' := by
  simp only [step, Option.map_eq_some_iff]

theorem step_servers_iff {b : DeploymentAct ℕ} :
    s.step cfg (.servers b) = some s' ↔ ¬ s.hears b = true ∧
      ∃ servers, s.servers.step cfg b = some servers ∧ { s with servers } = s' := by
  simp only [step, Option.ite_none_left_eq_some, Option.map_eq_some_iff]

theorem step_handle_iff {j i k : ℕ} :
    s.step cfg (.handle j i k) = some s' ↔ ∃ msg, s.wire[j]? = some msg ∧
      s.hears (.cluster (.act i (.receive k (.message (some msg))))) = true ∧
      ∃ servers,
        s.servers.step cfg (.cluster (.act i (.receive k (.message (some msg))))) = some servers ∧
        { s with servers, wire := s.wire.eraseIdx j } = s' := by
  cases h : s.wire[j]? <;> simp [step, h]

/-- A message and the others on the wire. -/
theorem statsOf_eraseIdx (wire : List Agent.Message) (j : ℕ) :
    (statsOf wire : Multiset Sample) =
      (statsOf wire[j]?.toList : List Sample) + (statsOf (wire.eraseIdx j) : List Sample) := by
  rw [Multiset.coe_add, Multiset.coe_eq_coe, ← statsOf_append]
  cases hj : wire[j]? with
  | none =>
    rw [List.eraseIdx_of_length_le (List.getElem?_eq_none_iff.mp hj)]
    rfl
  | some msg =>
    obtain ⟨hlt, rfl⟩ := List.getElem?_eq_some_iff.mp hj
    exact ((List.getElem_cons_eraseIdx_perm hlt).filterMap _).symm

/-- **The books of agent, wire and servers.** -/
theorem step_books {keeps : Prop} {before : Multiset (Snapshot J)}
    (h : Books cfg keeps nodeId before s.agent (statsOf s.wire : List Sample)
      (s.servers.rowsOf cfg nodeId))
    (hguard : keeps → s.LosesNothing a) (hs : s.step cfg a = some s') :
    Books cfg keeps nodeId before s'.agent (statsOf s'.wire : List Sample)
      (s'.servers.rowsOf cfg nodeId) := by
  cases a with
  | agent a =>
    obtain ⟨agent, hagent, rfl⟩ := step_agent_iff.mp hs
    rw [statsOf_append, ← Multiset.coe_add]
    exact h.agent_step hguard hagent
  | servers b =>
    obtain ⟨hears, servers, hservers, rfl⟩ := step_servers_iff.mp hs
    -- what is heard on the streams of the agent's node comes from the wire, so nothing is accepted
    have hsame := Deployment.step_rowsOf hservers (n := nodeId) fun i k msg x hb hx hid =>
      hears (by simp [Pipeline.hears, hb, hx, hid, h.nodeId])
    rwa [hsame]
  | handle j i k =>
    obtain ⟨msg, hmsg, hears, servers, hservers, rfl⟩ := step_handle_iff.mp hs
    obtain ⟨x, hx, hid⟩ : ∃ x, s.servers.stream? i k = some x ∧ x.nodeId = s.agent.nodeId := by
      simpa [Pipeline.hears, Option.any_eq_true] using hears
    obtain rfl : x.nodeId = nodeId := hid.trans h.nodeId
    have haccepted := Deployment.receive_rowsOf hservers hx fun stats heq => h.own stats (by
      rw [heq] at hmsg
      exact mem_statsOf.mpr (List.mem_of_getElem? hmsg))
    rw [statsOf_eraseIdx s.wire j, hmsg] at h
    exact h.handle haccepted
  | lose j =>
    obtain rfl := Option.some.inj hs
    rw [statsOf_eraseIdx s.wire j] at h
    exact h.lose fun hkeeps => congrArg _ (hguard hkeeps)

/-- Agent and wire leave the servers as they are. -/
theorem step_servers_cases (hs : s.step cfg a = some s') :
    s'.servers = s.servers ∨ ∃ b, s.servers.step cfg b = some s'.servers := by
  cases a with
  | agent a =>
    obtain ⟨agent, -, rfl⟩ := step_agent_iff.mp hs
    exact .inl rfl
  | servers b =>
    obtain ⟨-, servers, hservers, rfl⟩ := step_servers_iff.mp hs
    exact .inr ⟨b, hservers⟩
  | handle j i k =>
    obtain ⟨msg, -, -, servers, hservers, rfl⟩ := step_handle_iff.mp hs
    exact .inr ⟨_, hservers⟩
  | lose j =>
    obtain rfl := Option.some.inj hs
    exact .inl rfl

/-- An invariant of the servers holds in every run with an agent. -/
theorem servers_of_run {I : Deployment J → Prop} {as : List Act} {t : Pipeline J}
    (hstep : ∀ d b d', I d → d.step cfg b = some d' → I d') (hstart : I s.servers)
    (hrun : Machine.run (step cfg) s as = some t) : I t.servers :=
  Machine.run_invariant (I := fun s : Pipeline J => I s.servers)
    (fun s a s' h hs => by
      rcases step_servers_cases hs with heq | ⟨b, hb⟩
      · rwa [heq]
      · exact hstep _ b _ h hb)
    hstart hrun

/-- **Where nothing is lost on the way, a snapshot is stored exactly once.** In a run of an agent and a
deployment in which no session strands a snapshot, none is lost on the wire and no server counts a
loss, every snapshot that was pushed is once with the servers, on the wire or with the agent, where a
push may discard it. With the servers it is stored, has been deleted, or is on its way to the table,
which it stays if its server has stopped. Only what is more than seven days old is deleted. -/
theorem stored_exactly_once {clock serverClock : Int64} {intervalMs : UInt64}
    {db : Server.Database J} {as : List Act} {t : Pipeline J}
    (hrun : Machine.run (step cfg) (init nodeId clock intervalMs db serverClock) as = some t)
    (hguard : Machine.Along (step cfg) LosesNothing (init nodeId clock intervalMs db serverClock) as)
    (hloss : t.servers.losses = 0) :
    t.servers.recordOf cfg nodeId + (statsOf t.wire : Multiset Sample).filterMap cfg.row +
        t.agent.onHand.filterMap cfg.row =
      (db.snapshots : Multiset (Snapshot J)).filter (·.nodeId = nodeId) +
        (t.agent.pushed : Multiset Sample).filterMap cfg.row ∧
    (0 ≤ serverClock.toInt → ∀ row ∈ t.servers.deleted,
      row.timestamp.toInt < t.servers.cluster.clock.toInt - 7 * 24 * 3600 * 1000) := by
  have hbooks : Books cfg True nodeId 0 t.agent (statsOf t.wire : List Sample)
      (t.servers.rowsOf cfg nodeId) :=
    Machine.run_preserves (I := fun s : Pipeline J => Books cfg True nodeId 0 s.agent
        (statsOf s.wire : List Sample) (s.servers.rowsOf cfg nodeId))
      (fun _ _ _ h hg hs => step_books h (fun _ => hg) hs)
      (.init cfg True nodeId clock intervalMs 0) hguard hrun
  have hrecorded : Deployment.Recorded cfg (.init db serverClock) t.servers :=
    servers_of_run (fun _ _ _ h hs => h.step hs) (.refl cfg _) hrun
  refine ⟨?_, fun hclock => Deployment.DeletesOld.deleted <|
    servers_of_run (fun _ _ _ h hs => h.step hs) (Deployment.deletesOld_init db hclock) hrun⟩
  have hstart : (Deployment.init db serverClock).recordOf cfg nodeId =
      (db.snapshots : Multiset (Snapshot J)).filter (·.nodeId = nodeId) := by
    simp [Deployment.recordOf, Deployment.record, Deployment.init, Deployment.uninserted,
      Server.Cluster.init, Server.Cluster.total]
  rw [← hstart]
  exact hbooks.stock_eq trivial (hrecorded.of_node nodeId) hloss

/-- A snapshot is stored by one server and deleted after a week. The agent connects to another one,
which is started then and stores the next snapshot. A third one is on the wire, and a fourth in the
holdback buffer. -/
def nextServerRun : List Act :=
  [.servers .start, .servers (.cluster .boot), .agent (.collect 1000), .agent .push,
    .agent .notifyOne, .agent .startSession, .servers (.cluster (.act 0 (.openStream "node-01"))),
    .agent (.drain 0), .agent (.within 0 .send), .agent (.park 0), .agent (.within 0 .take),
    .handle 0 0 0] ++
  [Server.Act.enqueue 0, .workerRecv 3, .workerUpsert 3 true, .workerInsert 3 true].map
    (fun a => .servers (.cluster (.act 0 a))) ++
  [.servers (.cluster (.wait 604805000)), .servers (.tick 0), .servers (.delete 0 true),
    .agent (.within 0 .closeReceiver), .agent (.finish 0 .streamFailed), .servers .start,
    .servers (.cluster .boot), .agent (.collect 604805000), .agent .push, .agent .notifyOne,
    .agent .startSession, .servers (.cluster (.act 1 (.openStream "node-01"))), .agent (.drain 1),
    .agent (.within 1 .send), .agent (.park 1), .agent (.within 1 .take), .handle 0 1 0] ++
  [Server.Act.enqueue 0, .workerRecv 3, .workerUpsert 3 true, .workerInsert 3 true].map
    (fun a => .servers (.cluster (.act 1 a))) ++
  [.agent (.collect 604806000), .agent .push, .agent .notifyOne, .agent (.drain 1),
    .agent (.within 1 .send), .agent (.within 1 .take), .agent (.collect 604807000), .agent .push]

theorem stored_exactly_once_next_server :
    ∃ t : Pipeline String,
      Machine.run (step .byText) (init "node-01" 500 1000 .empty 500) nextServerRun = some t ∧
      t.servers.cluster.db.snapshots.map (·.timestamp) = [604805000] ∧
      t.servers.deleted.map (·.timestamp) = [1000] ∧ t.wire.length = 1 ∧
      t.agent.pushed.length = 4 ∧
      t.servers.recordOf Server.Config.byText "node-01" +
          (statsOf t.wire : Multiset Sample).filterMap Server.Config.byText.row +
          t.agent.onHand.filterMap Server.Config.byText.row =
        (t.agent.pushed : Multiset Sample).filterMap Server.Config.byText.row ∧
      ∀ row ∈ t.servers.deleted,
        row.timestamp.toInt < t.servers.cluster.clock.toInt - 7 * 24 * 3600 * 1000 := by
  have hcounts : (Machine.run (step .byText) (init "node-01" 500 1000 .empty 500)
      nextServerRun).map (fun t => (t.servers.losses,
        t.servers.cluster.db.snapshots.map (·.timestamp), t.servers.deleted.map (·.timestamp),
        t.wire.length, t.agent.pushed.length)) = some (0, [604805000], [1000], 1, 4) := by
    decide +kernel
  obtain ⟨t, hrun, heq⟩ := Option.map_eq_some_iff.mp hcounts
  simp only [Prod.mk.injEq] at heq
  obtain ⟨hloss, hstored, hdeleted, hwire, hpushed⟩ := heq
  obtain ⟨hrows, hold⟩ := stored_exactly_once hrun (by decide +kernel) hloss
  exact ⟨t, hrun, hstored, hdeleted, hwire, hpushed, hrows.trans (zero_add _), hold (by decide)⟩

end Pipeline

end Hakuraku

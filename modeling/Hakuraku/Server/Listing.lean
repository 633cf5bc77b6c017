import Hakuraku.Server.Endpoint
import Hakuraku.Server.History
import Hakuraku.Server.Replicas

/-!
# The list and the detail endpoint

Reference: `pulse-server/src/api.rs`, `list_nodes`, `get_node`, `get_node_history` and
`is_valid_node_id`; `pulse-server/src/grpc.rs`, `stream_telemetry`; `pulse-core/src/auth.rs`,
`AuthInterceptor::call`; `docker-compose.swarm.yml`, where the host name is the node id.

The gRPC side admits every node id that fits into a header and is signed. The REST side refuses the
ids that `is_valid_node_id` does not know, before it looks into the registry. So `list_nodes` shows
nodes that `get_node` and `get_node_history` answer with `BAD_REQUEST`.
-/

namespace Hakuraku.Server

variable {B J : Type} {cfg : Config B J}

/-! ## The registries of a cluster -/

/-- Every entry stands under its own node id. -/
def Registry.Keyed (nodes : Registry J) : Prop :=
  ∀ n node, nodes.lookup n = some node → node.nodeId = n

/-- What a server does keeps its registry keyed. -/
theorem Registry.Keyed.of_effect {s s' : Process J} {a : Act B} (h : Keyed s.nodes)
    (he : Effect s s' a) : Keyed s'.nodes := by
  intro n node hn
  rcases Process.entry_cases he hn with ⟨old, hold, hid, -⟩ | ⟨r, -, -, hid | ⟨old, hold, hid⟩⟩
  · exact hid.trans (h n old hold)
  · exact hid
  · exact hid.trans (h n old hold)

theorem Registry.Keyed.insert {nodes : Registry J} {info : NodeInfo J} (h : Keyed nodes) :
    Keyed (nodes.insert info.nodeId info) := by
  intro n node hn
  by_cases hne : n = info.nodeId
  · subst hne
    rw [AList.lookup_insert, Option.some.injEq] at hn
    exact congrArg _ hn.symm
  · rw [AList.lookup_insert_ne hne] at hn
    exact h n node hn

namespace Cluster

variable {c c' : Cluster J} {i : ℕ} {x : Replica J}

/-- All servers have keyed registries. -/
def Keyed (c : Cluster J) : Prop :=
  ∀ (i : ℕ) (x : Replica J), c.replicas[i]? = some x → Registry.Keyed x.process.nodes

theorem Keyed.setReplica {y : Replica J} (h : c.Keyed) (hx : c.replicas[i]? = some x)
    (hy : Registry.Keyed y.process.nodes) : (c.setReplica i y).Keyed := by
  intro j z hz
  rw [getElem?_setReplica hx] at hz
  split at hz
  · exact Option.some.inj hz ▸ hy
  · exact h j z hz

theorem Keyed.step {a : ClusterAct B} (h : c.Keyed) (hs : c.step cfg a = some c') : c'.Keyed := by
  cases a with
  | wait now =>
    obtain ⟨-, rfl⟩ := step_wait_iff.mp hs
    intro i x hx
    rw [List.getElem?_map] at hx
    obtain ⟨x₀, hx₀, rfl⟩ := Option.map_eq_some_iff.mp hx
    exact h i x₀ hx₀
  | boot =>
    obtain rfl := Option.some.inj hs
    intro i x hx
    rcases List.mem_append.mp (List.mem_of_getElem? hx) with hold | hnew
    · obtain ⟨j, hj⟩ := List.getElem?_of_mem hold
      exact h j x hj
    · rw [List.mem_singleton.mp hnew]
      exact (Process.registrySound_boot c.db c.clock).keyed
  | act i a =>
    obtain ⟨x, hx, -, process, db, hstep, rfl⟩ := step_act_iff.mp hs
    have hdb : ({ c with db } : Cluster J).Keyed := h
    exact hdb.setReplica hx ((h i x hx).of_effect (step_effect hstep))
  | getNode i nodeId =>
    obtain ⟨x, hx, rfl⟩ := step_getNode_iff.mp hs
    exact h.setReplica hx (h i x hx)
  | query i k ok =>
    obtain ⟨x, hx, nodeId, -, rfl⟩ := step_query_iff.mp hs
    exact h.setReplica hx (h i x hx)
  | fill i k =>
    obtain ⟨x, hx, info, -, rfl⟩ := step_fill_iff.mp hs
    exact h.setReplica hx (h i x hx).insert

theorem keyed_of_run {db : Database J} {clock : Int64} {as : List (ClusterAct B)}
    (hrun : Machine.run (step cfg) (init db clock) as = some c) : c.Keyed := by
  refine Machine.run_invariant (fun _ _ _ hI hs => Keyed.step hI hs) ?_ hrun
  intro i x hx
  simp [init] at hx

end Cluster

/-! ## The two endpoints -/

/-- A node as the list shows it: `get_node` on its id returns the same, and `get_node_history` with a
range that passes its check is no bad request. -/
def AgreesWithDetail (cfg : Config B J) (unicode : Unicode) (nodes : Registry J) (db : Database J)
    (node : NodeInfo J) : Prop :=
  GetNode.start cfg nodes node.nodeId = .answered (.ok node) ∧
    ∀ params nowMs ok, isValidRange cfg params.range = true →
      getNodeHistory cfg unicode db node.nodeId params nowMs ok ≠ some (.error .badRequest)

/-- What the list shows stands in the registry under its own id. -/
theorem lookup_of_mem_listNodes {nodes : Registry J} {node : NodeInfo J} (hkeyed : nodes.Keyed)
    (h : node ∈ (listNodes nodes).nodes) : nodes.lookup node.nodeId = some node := by
  rw [listNodes, List.mem_map] at h
  obtain ⟨⟨n, info⟩, hmem, rfl⟩ := h
  have hlookup : nodes.lookup n = some info := AList.mem_lookup_iff.mpr hmem
  rw [hkeyed n info hlookup]
  exact hlookup

theorem isValidNodeId_iff {n : String} :
    isValidNodeId cfg n = true ↔ n ≠ "" ∧ n.utf8ByteSize ≤ 64 ∧
      ∀ ch ∈ n.toList, cfg.alphanumeric ch = true ∨ ch = '-' ∨ ch = '_' := by
  simp [isValidNodeId, and_assoc, or_assoc]

/-- **The detail endpoints answer for a listed node exactly when its id passes their check.** In every
state of every server, a node of the list is returned by `get_node` as listed, and its history is
not refused as a bad request, if and only if the id is not empty, has at most 64 bytes and consists
of alphanumeric characters, hyphens and underscores. -/
theorem listed_node_agrees_iff (cfg : Config B J) (unicode : Unicode) (db : Database J)
    (clock : Int64) (as : List (ClusterAct B)) (c : Cluster J)
    (hrun : Machine.run (Cluster.step cfg) (Cluster.init db clock) as = some c) (i : ℕ)
    (x : Replica J) (hx : c.replicas[i]? = some x) (node : NodeInfo J)
    (hnode : node ∈ (listNodes x.process.nodes).nodes) :
    AgreesWithDetail cfg unicode x.process.nodes c.db node ↔
      node.nodeId ≠ "" ∧ node.nodeId.utf8ByteSize ≤ 64 ∧
        ∀ ch ∈ node.nodeId.toList, cfg.alphanumeric ch = true ∨ ch = '-' ∨ ch = '_' := by
  have hlookup := lookup_of_mem_listNodes (Cluster.keyed_of_run hrun i x hx) hnode
  rw [← isValidNodeId_iff, AgreesWithDetail, GetNode.start, hlookup]
  cases hid : isValidNodeId cfg node.nodeId with
  | false => simp
  | true =>
    refine iff_of_true ⟨by simp, fun params nowMs ok hrange hbad => ?_⟩ rfl
    rcases getNodeHistory_eq_badRequest_iff.mp hbad with hid' | hrange'
    · exact absurd (hid.symm.trans hid') (by decide)
    · exact absurd (hrange.symm.trans hrange') (by decide)

/-- A server to which a node has streamed one snapshot. -/
def listedRun (nodeId : String) : List (ClusterAct ℕ) :=
  [.boot, .wait 1000100000, .act 0 (.openStream nodeId),
    .act 0 (.receive 0 (.message (some (.stats ⟨nodeId, 1000100000, 7⟩))))]

/-- The node as the list shows it. -/
def listedNode (nodeId : String) : NodeInfo String :=
  ⟨nodeId, nodeId, 1000100000, .online, some "7"⟩

theorem listed_node_agrees_node01 :
    ∃ c x, Machine.run (Cluster.step .byText) (Cluster.init .empty 0) (listedRun "node-01") = some c ∧
      c.replicas[0]? = some x ∧ listedNode "node-01" ∈ (listNodes x.process.nodes).nodes ∧
      AgreesWithDetail .byText .ascii x.process.nodes c.db (listedNode "node-01") := by
  refine ⟨_, _, (Option.some_get (by decide)).symm, rfl, by decide, ?_⟩
  refine (listed_node_agrees_iff _ _ _ _ (listedRun "node-01") _ (Option.some_get (by decide)).symm 0 _
    rfl _ (by decide)).mpr ⟨by decide, by decide, ?_⟩
  exact @of_decide_eq_true _ (List.decidableBAll _ _) rfl

/-- A correctly signed request of a host whose name has dots. The tag is the HMAC-SHA256 of the
signed text under the key `test-secret-key`. -/
def dottedRequest : Auth.Request :=
  ⟨[("x-pulse-node-id", Text.asBytes "web-01.example.com"),
    ("x-pulse-timestamp", Text.asBytes "1000100"),
    ("x-pulse-nonce", Text.asBytes "00112233445566778899aabbccddeeff"),
    ("x-pulse-signature",
      Text.asBytes "d45fcfc847be8e62dd548d6cc2d3456810cde1614a05f9038ca710bff0688997")]⟩

/-- A tag function with the value of HMAC-SHA256 on the text signed in `dottedRequest`. -/
def dottedHmac (key message : List UInt8) : List UInt8 :=
  if key = Auth.sampleSecret ∧
      message = Text.asBytes "web-01.example.com:1000100:00112233445566778899aabbccddeeff" then
    [212, 95, 207, 200, 71, 190, 142, 98, 221, 84, 141, 108, 194, 211, 69, 104, 16, 205, 225, 97, 74,
      5, 249, 3, 140, 167, 16, 191, 240, 104, 137, 151]
  else []

/-- **A node with a dotted host name is listed and cannot be asked for.** The endpoint accepts its
stream, the list shows it, and `get_node` and `get_node_history` refuse its id. -/
theorem dotted_node_listed_and_refused :
    ∃ c x, authInterceptor dottedHmac Auth.sampleSecret ⟨dottedRequest, 1000100, 1000100, 1000100⟩
          = .ok dottedRequest ∧
      authenticatedNodeId dottedRequest = .ok "web-01.example.com" ∧
      Machine.run (Cluster.step .byText) (Cluster.init .empty 0) (listedRun "web-01.example.com")
          = some c ∧
      c.replicas[0]? = some x ∧
      listedNode "web-01.example.com" ∈ (listNodes x.process.nodes).nodes ∧
      GetNode.start .byText x.process.nodes "web-01.example.com"
          = .answered (.error .badRequest) ∧
      getNodeHistory .byText .ascii c.db "web-01.example.com" {} 1000100000 true
          = some (.error .badRequest) ∧
      ¬ AgreesWithDetail .byText .ascii x.process.nodes c.db (listedNode "web-01.example.com") := by
  have hid : isValidNodeId Config.byText "web-01.example.com" = false := by decide
  have hget : ∀ nodes : Registry String,
      GetNode.start .byText nodes "web-01.example.com" = .answered (.error .badRequest) :=
    fun nodes => by simp [GetNode.start, hid]
  refine ⟨_, _, by decide, by decide, (Option.some_get (by decide)).symm, rfl, by decide, hget _,
    getNodeHistory_eq_badRequest_iff.mpr (.inl hid), ?_⟩
  rintro ⟨hdetail, -⟩
  have hrefused := (hget _).symm.trans hdetail
  simp at hrefused

end Hakuraku.Server

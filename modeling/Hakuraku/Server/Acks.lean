import Hakuraku.Lib.Sums
import Hakuraku.Server.Receipts
import Mathlib.Algebra.GroupWithZero.Nat

/-!
# What a server sends to its agents

Reference: `pulse-server/src/grpc.rs`, `stream_telemetry`; `pulse-core/proto/telemetry.proto`,
`ServerCommand`.

The protocol has four commands for agents, but the only one a server sends is the answer to a
heartbeat. The clock is read when the heartbeat is processed, and the answer is sent before the next
message is taken. So the timestamps on a stream, with the one about to be sent, form one line in the
order of the clock. A heartbeat is answered at most once.
-/

namespace Hakuraku.Server

variable {B J : Type} {cfg : Config B J} {p p' : State J} {s s' : Process J} {a : Act B}

/-- The acknowledgement that a stream is about to send. -/
def Stream.pendingAck (x : Stream J) : List Int64 :=
  match x.phase with
  | .acking nowMs => [nowMs]
  | _ => []

/-- Every command of a stream acknowledges a heartbeat, with timestamps in the order of the clock. -/
def Stream.Acks (clock : Int64) (x : Stream J) : Prop :=
  ∃ stamps : List Int64, x.commands = stamps.map .heartbeatAck ∧
    (stamps ++ x.pendingAck).Pairwise (· ≤ ·) ∧ ∀ t ∈ stamps ++ x.pendingAck, t ≤ clock

/-- The acknowledgements a stream has sent or is about to send, if it is one of the node. -/
def Stream.answers (n : String) (x : Stream J) : ℕ :=
  if x.nodeId = n then x.commands.length + x.pendingAck.length else 0

/-- The acknowledgements on all streams of a node. -/
def Process.answers (s : Process J) (n : String) : ℕ := (s.streams.map (Stream.answers n)).sum

/-- The accepted heartbeats of a node. -/
def Process.heartbeats (s : Process J) (n : String) : ℕ :=
  (s.receiptsOf n).countP (·.item.isNone)

theorem Process.heartbeats_congr (h : s'.receipts = s.receipts) (n : String) :
    s'.heartbeats n = s.heartbeats n := by
  rw [heartbeats, heartbeats, receiptsOf, receiptsOf, h]

theorem Process.heartbeats_concat {r : Receipt J} (h : s'.receipts = s.receipts ++ [r])
    (n : String) : s'.heartbeats n = s.heartbeats n +
      if r.nodeId = n ∧ r.item.isNone = true then 1 else 0 := by
  rw [heartbeats, heartbeats, receiptsOf, receiptsOf, h, List.filter_append, List.countP_append]
  by_cases hn : r.nodeId = n <;> cases hitem : r.item <;> simp [hn, hitem]

/-! ## What a step does to the answers -/

/-- What a step does to one stream, in a state whose clock shows `clock`. -/
inductive Stream.Answers (clock : Int64) (x y : Stream J) : Prop where
  /-- It sends nothing, and may drop what it was about to send. -/
  | silent (hcommands : y.commands = x.commands) (hpending : y.pendingAck <+: x.pendingAck)
  /-- It is about to answer. -/
  | asked (hcommands : y.commands = x.commands) (hnone : x.pendingAck = [])
      (hpending : y.pendingAck = [clock])
  /-- It answers. -/
  | sent (nowMs : Int64) (hsome : x.pendingAck = [nowMs])
      (hcommands : y.commands = x.commands ++ [.heartbeatAck nowMs]) (hpending : y.pendingAck = [])

/-- **What a step does to the streams and the accepted heartbeats.** -/
inductive Answering (s s' : Process J) : Prop where
  | other (hstreams : s'.streams = s.streams) (hheartbeats : s'.heartbeats = s.heartbeats)
  | opened (nodeId : String) (hstreams : s'.streams = s.streams ++ [⟨nodeId, .receiving, []⟩])
      (hheartbeats : s'.heartbeats = s.heartbeats)
  | moved (i : ℕ) (x y : Stream J) (hx : s.streams[i]? = some x)
      (hstreams : s'.streams = s.streams.set i y) (hid : y.nodeId = x.nodeId)
      (hanswers : x.Answers s.clock y)
      (hearned : ∀ n, y.answers n + s.heartbeats n ≤ x.answers n + s'.heartbeats n)

theorem Stream.answers_eq {x y : Stream J} (hid : y.nodeId = x.nodeId)
    (h : y.commands.length + y.pendingAck.length ≤ x.commands.length + x.pendingAck.length)
    (n : String) : y.answers n ≤ x.answers n := by
  rw [answers, answers, hid]
  split
  · exact h
  · exact le_rfl

/-- A step of a stream that accepts no heartbeat earns nothing. -/
theorem Answering.of_moved {i : ℕ} {x y : Stream J} (hx : s.streams[i]? = some x)
    (hstreams : s'.streams = s.streams.set i y) (hid : y.nodeId = x.nodeId)
    (hanswers : x.Answers s.clock y) (hreceipts : ∀ n, s.heartbeats n ≤ s'.heartbeats n)
    (hlen : y.commands.length + y.pendingAck.length ≤ x.commands.length + x.pendingAck.length) :
    Answering s s' :=
  .moved i x y hx hstreams hid hanswers fun n =>
    add_le_add (Stream.answers_eq hid hlen n) (hreceipts n)

/-- An accepted heartbeat earns the answer that its stream is about to give. -/
theorem Answering.of_heartbeat {i : ℕ} {x y : Stream J} {r : Receipt J} (hx : s.streams[i]? = some x)
    (hstreams : s'.streams = s.streams.set i y) (hid : y.nodeId = x.nodeId)
    (hcommands : y.commands = x.commands) (hnone : x.pendingAck = [])
    (hpending : y.pendingAck = [s.clock]) (hreceipts : s'.receipts = s.receipts ++ [r])
    (hnode : r.nodeId = x.nodeId) (hitem : r.item = none) : Answering s s' := by
  refine .moved i x y hx hstreams hid (.asked hcommands hnone hpending) fun n => ?_
  rw [Process.heartbeats_concat hreceipts, Stream.answers, Stream.answers, hid, hcommands, hnone,
    hpending, hnode, hitem]
  by_cases hn : x.nodeId = n
  · simp only [hn, if_true, Option.isNone_none, and_self, List.length_singleton, List.length_nil]
    omega
  · simp [hn]

theorem step_answering (h : step cfg p a = some p') : Answering p.1 p'.1 ∧ p.1.clock ≤ p'.1.clock := by
  obtain ⟨s, db⟩ := p
  have hsame : ∀ s' : Process J, s'.receipts = s.receipts → s'.heartbeats = s.heartbeats :=
    fun s' hr => funext (Process.heartbeats_congr hr)
  cases a with
  | wait now =>
    obtain ⟨hle, rfl⟩ := step_wait_iff.mp h
    exact ⟨.other rfl rfl, hle⟩
  | openStream nodeId =>
    obtain rfl := step_openStream_iff.mp h
    exact ⟨.opened nodeId rfl rfl, Int64.le_refl _⟩
  | receive i inbound =>
    obtain ⟨x, hx, hphase, s', hs', rfl⟩ := step_receive_iff.mp h
    have hnone : x.pendingAck = [] := by rw [Stream.pendingAck, hphase]
    rcases Process.receive_cases hs' with
      rfl | rfl | ⟨stats, statsJson, rfl, -, -, rfl⟩ | ⟨hb, rfl, -, rfl⟩ | ⟨probe, rfl, hitem⟩
    · exact ⟨.of_moved hx rfl rfl (.silent rfl (List.nil_prefix)) (fun _ => le_rfl)
        (Nat.le_add_right _ _), Int64.le_refl _⟩
    · exact ⟨.other rfl rfl, Int64.le_refl _⟩
    · refine ⟨.of_moved hx rfl rfl (.silent rfl (List.nil_prefix)) (fun n => ?_)
        (Nat.le_add_right _ _), Int64.le_refl _⟩
      exact (Nat.le_add_right _ _).trans (Process.heartbeats_concat (s := s) rfl n).ge
    · exact ⟨.of_heartbeat hx rfl rfl rfl hnone rfl rfl rfl rfl, Int64.le_refl _⟩
    · obtain ⟨shards, drops, rfl⟩ := Process.sendToWorker_eq hitem
      exact ⟨.other rfl (hsame _ rfl), Int64.le_refl _⟩
  | enqueue i =>
    obtain ⟨x, hx, item, hphase, s', hs', rfl⟩ := step_enqueue_iff.mp h
    obtain ⟨shards, drops, rfl⟩ := Process.sendToWorker_eq hs'
    exact ⟨.of_moved hx rfl rfl (.silent rfl List.nil_prefix) (fun _ => le_rfl)
      (Nat.le_add_right _ _), Int64.le_refl _⟩
  | broadcast i =>
    obtain ⟨x, hx, update, hphase, rfl⟩ := step_broadcast_iff.mp h
    exact ⟨.of_moved hx rfl rfl (.silent rfl List.nil_prefix) (fun _ => le_rfl)
      (Nat.le_add_right _ _), Int64.le_refl _⟩
  | ack i ok =>
    obtain ⟨x, hx, nowMs, hphase, rfl⟩ := step_ack_iff.mp h
    have hsome : x.pendingAck = [nowMs] := by rw [Stream.pendingAck, hphase]
    cases ok with
    | false =>
      exact ⟨.of_moved hx rfl rfl (.silent rfl List.nil_prefix) (fun _ => le_rfl)
        (Nat.le_add_right _ _), Int64.le_refl _⟩
    | true =>
      refine ⟨.of_moved hx rfl rfl (.sent nowMs hsome rfl rfl) (fun _ => le_rfl) ?_,
        Int64.le_refl _⟩
      rw [hsome]
      simp [Stream.pendingAck]
  | workerRecv | workerUpsert | workerInsert =>
    obtain ⟨shards, dbErrors, heq⟩ := step_of_worker h rfl
    rw [heq]
    exact ⟨.other rfl (hsame _ rfl), Int64.le_refl _⟩
  | tick | visit | scanned | persist | announce =>
    obtain ⟨nodes, liveness, broadcasts, dbErrors, heq⟩ := step_of_liveness h rfl
    rw [heq]
    exact ⟨.other rfl (hsame _ rfl), Int64.le_refl _⟩

/-! ## Over a run -/

theorem Stream.Acks.mono {x : Stream J} {clock clock' : Int64} (h : x.Acks clock)
    (hle : clock ≤ clock') : x.Acks clock' := by
  obtain ⟨stamps, hcommands, hsorted, hpast⟩ := h
  exact ⟨stamps, hcommands, hsorted, fun t ht => Int64.le_trans (hpast t ht) hle⟩

theorem Stream.Acks.answers {x y : Stream J} {clock : Int64} (h : x.Acks clock)
    (hanswers : x.Answers clock y) : y.Acks clock := by
  obtain ⟨stamps, hcommands, hsorted, hpast⟩ := h
  cases hanswers with
  | silent heq hpending =>
    have hsub : (stamps ++ y.pendingAck).Sublist (stamps ++ x.pendingAck) :=
      (List.Sublist.refl _).append hpending.sublist
    exact ⟨stamps, heq.trans hcommands, hsorted.sublist hsub, fun t ht => hpast t (hsub.subset ht)⟩
  | asked heq hnone hpending =>
    rw [hnone, List.append_nil] at hsorted hpast
    refine ⟨stamps, heq.trans hcommands, ?_, ?_⟩
    · rw [hpending, List.pairwise_append]
      refine ⟨hsorted, List.pairwise_singleton _ _, fun t ht u hu => ?_⟩
      rw [List.mem_singleton.mp hu]
      exact hpast t ht
    · intro t ht
      rw [hpending] at ht
      rcases List.mem_append.mp ht with ht | ht
      · exact hpast t ht
      · rw [List.mem_singleton.mp ht]
        exact Int64.le_refl _
  | sent nowMs hsome heq hpending =>
    -- the stamp moves from the end of the line to its sent part
    rw [hsome] at hsorted hpast
    refine ⟨stamps ++ [nowMs], ?_, ?_, ?_⟩
    · rw [heq, hcommands, List.map_append]
      rfl
    · rwa [hpending, List.append_nil]
    · rwa [hpending, List.append_nil]

/-- The streams of a server acknowledge heartbeats, no more than it has accepted. -/
structure Process.Answerable (s : Process J) : Prop where
  acks : ∀ x ∈ s.streams, x.Acks s.clock
  earned : ∀ n, s.answers n ≤ s.heartbeats n

theorem Process.answers_set {i : ℕ} {x y : Stream J} (hx : s.streams[i]? = some x)
    (hstreams : s'.streams = s.streams.set i y) (n : String) :
    s'.answers n + x.answers n = s.answers n + y.answers n := by
  rw [answers, hstreams]
  exact Sums.sum_map_set (Stream.answers n) y hx

/-- **Every step keeps the commands acknowledgements.** -/
theorem acks_step (h : ∀ x ∈ p.1.streams, x.Acks p.1.clock) (hs : step cfg p a = some p') :
    ∀ x ∈ p'.1.streams, x.Acks p'.1.clock := by
  obtain ⟨hans, hclock⟩ := step_answering hs
  intro z hz
  cases hans with
  | other hstreams => exact (h z (hstreams ▸ hz)).mono hclock
  | opened nodeId hstreams =>
    rw [hstreams, List.mem_append] at hz
    rcases hz with hz | hz
    · exact (h z hz).mono hclock
    · rw [List.mem_singleton.mp hz]
      exact ⟨[], rfl, List.Pairwise.nil, fun t ht => absurd ht List.not_mem_nil⟩
  | moved i x y hx hstreams hid hanswers =>
    rw [hstreams] at hz
    rcases List.mem_or_eq_of_mem_set hz with hz | rfl
    · exact (h z hz).mono hclock
    · exact ((h x (List.mem_of_getElem? hx)).answers hanswers).mono hclock

theorem Process.Answerable.step (h : p.1.Answerable) (hs : Server.step cfg p a = some p') :
    p'.1.Answerable := by
  refine ⟨acks_step h.acks hs, fun n => ?_⟩
  have hstart := h.earned n
  cases (step_answering hs).1 with
  | other hstreams hheartbeats =>
    rw [answers, hstreams, hheartbeats]
    exact hstart
  | opened nodeId hstreams hheartbeats =>
    rw [answers, hstreams, hheartbeats, List.map_append, List.sum_append]
    simpa [Stream.answers, Stream.pendingAck, answers] using hstart
  | moved i x y hx hstreams hid hanswers hearned =>
    have hset := answers_set hx hstreams n
    have hone := hearned n
    omega

theorem answerable_boot (db : Database J) (clock : Int64) : (Process.boot db clock).Answerable :=
  ⟨fun _ hx => absurd hx List.not_mem_nil, fun _ => Nat.zero_le _⟩

/-- **A server sends its agents nothing but answers to their heartbeats.** In every run, all that it
has sent on a stream are acknowledgements, whose timestamps are in the order of its clock and not
ahead of it; and a node has been sent no more of them, on all its streams, than heartbeats have been
accepted of it. -/
theorem commands_are_acks {db : Database J} {clock : Int64} {as : List (Act B)} {t : State J}
    (hrun : Machine.run (step cfg) (Process.boot db clock, db) as = some t) :
    (∀ x ∈ t.1.streams, ∃ stamps : List Int64, x.commands = stamps.map .heartbeatAck ∧
        stamps.Pairwise (· ≤ ·) ∧ ∀ stamp ∈ stamps, stamp ≤ t.1.clock) ∧
      ∀ n, ((t.1.streams.filter (·.nodeId = n)).map (·.commands.length)).sum ≤
        t.1.heartbeats n := by
  have h := Machine.run_invariant (I := fun p : State J => p.1.Answerable)
    (fun _ _ _ h hs => h.step hs) (answerable_boot db clock) hrun
  refine ⟨fun x hx => ?_, fun n => le_trans ?_ (h.earned n)⟩
  · obtain ⟨stamps, hcommands, hsorted, hpast⟩ := h.acks x hx
    exact ⟨stamps, hcommands, (List.pairwise_append.mp hsorted).1,
      fun t ht => hpast t (List.mem_append_left _ ht)⟩
  · rw [Process.answers]
    generalize t.1.streams = streams
    induction streams with
    | nil => exact le_rfl
    | cons x streams ih =>
      by_cases hn : x.nodeId = n
      · simp only [List.filter_cons, hn, decide_true, if_true, List.map_cons, List.sum_cons,
          Stream.answers]
        omega
      · simpa [List.filter_cons, hn, Stream.answers] using ih

/-- Two streams of one node: one is answered twice, the other has its client gone. -/
def acknowledgedRun : List (Act ℕ) :=
  [.openStream "node-01", .openStream "node-01",
    .receive 0 (.message (some (.heartbeat ⟨"node-01", 900⟩))), .wait 2000,
    .receive 1 (.message (some (.heartbeat ⟨"node-01", 1900⟩))), .ack 0 true, .ack 1 false,
    .receive 0 (.message (some (.heartbeat ⟨"node-01", 500⟩))), .ack 0 true]

theorem commands_are_acks_acknowledged :
    ∃ t : State String, Machine.run (step Config.byText) (Process.boot .empty 1000, .empty)
        acknowledgedRun = some t ∧
      t.1.streams.map (·.commands) = [[.heartbeatAck 1000, .heartbeatAck 2000], []] ∧
      ∀ n, ((t.1.streams.filter (·.nodeId = n)).map (·.commands.length)).sum ≤
        t.1.heartbeats n := by
  have hsent : (Machine.run (step Config.byText) (Process.boot .empty 1000, .empty)
      acknowledgedRun).map (fun t => t.1.streams.map (·.commands)) =
        some [[.heartbeatAck 1000, .heartbeatAck 2000], []] := by
    decide +kernel
  obtain ⟨t, hrun, hcommands⟩ := Option.map_eq_some_iff.mp hsent
  exact ⟨t, hrun, hcommands, (commands_are_acks hrun).2⟩

end Hakuraku.Server

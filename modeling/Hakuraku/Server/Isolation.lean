import Hakuraku.Server.Endpoint
import Hakuraku.Server.Receipts

/-!
# What a stream does to the server

Reference: `pulse-server/src/grpc.rs`, `stream_telemetry`; `pulse-core/src/auth.rs`,
`extract_header` and `AuthInterceptor::call`; `pulse-server/src/state.rs`, `send_to_worker`.

`telemetry` is the loop of `stream_telemetry` as a function of all that the stream receives: the
list of what it does to the registry, the worker queues, the broadcast channel and the client
(`Emission`). On any sequence of messages it does what it does on the messages before the first that
ends the loop.

The tasks of the server run interleaved, and a stream does one thing at a time. In every run, what
the steps of a stream have done, followed by what it still owes for its last message (`owed`), is
`telemetry` of what it has received, under the node id that was authenticated.
-/

namespace Hakuraku.Server

variable {B J : Type} {cfg : Config B J}

/-! ## The loop -/

/-- What a stream does outside of itself. -/
inductive Emission (J : Type) where
  /-- The registry entry of a node is replaced. -/
  | insert (nodeId : String) (timestampMs : Int64) (statsJson : J)
  /-- The registry entry of a node is refreshed, if there is one. -/
  | refresh (nodeId : String) (timestampMs : Int64)
  /-- `send_to_worker`. -/
  | handOver (nodeId : String) (item : IngestionItem J)
  | broadcast (update : NodeUpdate J)
  /-- A heartbeat is acknowledged. -/
  | ack (nowMs : Int64)

/-- The node id in an ingestion item. -/
def IngestionItem.nodeId : IngestionItem J → String
  | .stats item => item.nodeId
  | .probeResult item => item.nodeId

/-- The emission is about the node and no other. -/
def Emission.Concerns (n : String) : Emission J → Prop
  | .insert nodeId _ _ | .refresh nodeId _ => nodeId = n
  | .handOver nodeId item => nodeId = n ∧ item.nodeId = n
  | .broadcast update => update.nodeId = n
  | .ack _ => True

/-- What `inbound.next()` returns, the clock at that time, and whether the acknowledgement that a
heartbeat asks for can be sent. -/
structure Turn (B : Type) where
  inbound : Inbound B
  clock : Int64
  acked : Bool

/-- The body of the loop: what it does, and whether the loop goes on. -/
def Turn.body (cfg : Config B J) (nodeId : String) (turn : Turn B) : List (Emission J) × Bool :=
  match turn.inbound with
  | .error | .ended => ([], false)
  | .message none => ([], true)
  | .message (some (.stats stats)) =>
    if stats.nodeId ≠ nodeId then ([], false)
    else
      match cfg.serde.toValue stats.metrics with
      | none => ([], true)
      | some statsJson =>
        ([.insert nodeId stats.timestampMs statsJson,
          .handOver nodeId (.stats
            ⟨nodeId, stats.timestampMs, cfg.serde.toText statsJson, statsJson⟩),
          .broadcast ⟨nodeId, stats.timestampMs, statsJson⟩], true)
  | .message (some (.heartbeat hb)) =>
    if hb.nodeId ≠ nodeId then ([], false)
    else if turn.acked then ([.refresh nodeId hb.timestampMs, .ack turn.clock], true)
    else ([.refresh nodeId hb.timestampMs], false)
  | .message (some (.probeResult probe)) =>
    ([.handOver nodeId (.probeResult
      ⟨nodeId, probe.target, probe.success, probe.latencyUs.toInt64, probe.errorMessage,
        turn.clock⟩)], true)

/-- The loop of `stream_telemetry`. -/
def telemetry (cfg : Config B J) (nodeId : String) : List (Turn B) → List (Emission J)
  | [] => []
  | turn :: turns =>
    (turn.body cfg nodeId).1 ++ if (turn.body cfg nodeId).2 then telemetry cfg nodeId turns else []

/-- The message neither ends the stream nor carries the id of another node. -/
def Turn.accepted (nodeId : String) (turn : Turn B) : Bool :=
  match turn.inbound with
  | .error | .ended => false
  | .message (some (.stats stats)) => stats.nodeId = nodeId
  | .message (some (.heartbeat hb)) => hb.nodeId = nodeId
  | .message _ => true

/-- The message is a heartbeat whose acknowledgement cannot be sent. -/
def Turn.unanswered (turn : Turn B) : Bool :=
  match turn.inbound with
  | .message (some (.heartbeat _)) => !turn.acked
  | _ => false

/-- The messages before the first that is not accepted, up to the first heartbeat that cannot be
answered. -/
def processed (nodeId : String) : List (Turn B) → List (Turn B)
  | [] => []
  | turn :: turns =>
    if turn.accepted nodeId then
      turn :: if turn.unanswered then [] else processed nodeId turns
    else []

/-- The loop goes on after an accepted message that can be answered. -/
theorem Turn.body_snd (cfg : Config B J) (nodeId : String) (turn : Turn B) :
    (turn.body cfg nodeId).2 = (turn.accepted nodeId && !turn.unanswered) := by
  obtain ⟨inbound, clock, acked⟩ := turn
  rcases inbound with (_ | stats | hb | probe) | _ | _
  · rfl
  · by_cases hid : stats.nodeId = nodeId
    · cases hval : cfg.serde.toValue stats.metrics <;> simp [body, accepted, unanswered, hid, hval]
    · simp [body, accepted, hid]
  · by_cases hid : hb.nodeId = nodeId
    · cases acked <;> simp [body, accepted, unanswered, hid]
    · simp [body, accepted, hid]
  · rfl
  · rfl
  · rfl

/-- A message that is not accepted has no effect. -/
theorem Turn.body_of_not_accepted {nodeId : String} {turn : Turn B}
    (h : turn.accepted nodeId = false) : (turn.body cfg nodeId).1 = [] := by
  obtain ⟨inbound, clock, acked⟩ := turn
  rcases inbound with (_ | stats | hb | probe) | _ | _
  · rfl
  · have hid : stats.nodeId ≠ nodeId := by simpa [accepted] using h
    simp [body, hid]
  · have hid : hb.nodeId ≠ nodeId := by simpa [accepted] using h
    simp [body, hid]
  · exact absurd h (by simp [accepted])
  · rfl
  · rfl

/-- **The loop does what it does on the messages that it processes.** -/
theorem telemetry_eq (cfg : Config B J) (nodeId : String) (turns : List (Turn B)) :
    telemetry cfg nodeId turns =
      (processed nodeId turns).flatMap fun turn => (turn.body cfg nodeId).1 := by
  induction turns with
  | nil => rfl
  | cons turn turns ih =>
    rw [telemetry, processed, turn.body_snd]
    cases hacc : turn.accepted nodeId with
    | false => simp [Turn.body_of_not_accepted hacc]
    | true => cases hun : turn.unanswered <;> simp [ih]

/-- While acknowledgements can be sent, the loop processes the messages before the first that is not
accepted. -/
theorem processed_of_acked {nodeId : String} {turns : List (Turn B)}
    (h : ∀ turn ∈ turns, turn.acked = true) :
    processed nodeId turns = turns.takeWhile (·.accepted nodeId) := by
  induction turns with
  | nil => rfl
  | cons turn turns ih =>
    have hun : turn.unanswered = false := by
      unfold Turn.unanswered
      split
      · simp [h turn List.mem_cons_self]
      · rfl
    have htail := ih fun t ht => h t (List.mem_cons_of_mem _ ht)
    rw [processed, List.takeWhile_cons, hun, htail]
    rfl

/-- **All that the loop does concerns the authenticated node.** -/
theorem concerns_of_mem_telemetry {nodeId : String} {turns : List (Turn B)} {e : Emission J}
    (h : e ∈ telemetry cfg nodeId turns) : e.Concerns nodeId := by
  rw [telemetry_eq, List.mem_flatMap] at h
  obtain ⟨turn, -, he⟩ := h
  unfold Turn.body at he
  split at he
  · exact absurd he List.not_mem_nil
  · exact absurd he List.not_mem_nil
  · exact absurd he List.not_mem_nil
  · split at he
    · exact absurd he List.not_mem_nil
    · split at he
      · exact absurd he List.not_mem_nil
      · simp only [List.mem_cons, List.not_mem_nil, or_false] at he
        rcases he with rfl | rfl | rfl
        · rfl
        · exact ⟨rfl, rfl⟩
        · rfl
  · split at he
    · exact absurd he List.not_mem_nil
    · split at he
      · simp only [List.mem_cons, List.not_mem_nil, or_false] at he
        rcases he with rfl | rfl
        · rfl
        · trivial
      · rw [List.mem_singleton.mp he]
        rfl
  · rw [List.mem_singleton.mp he]
    exact ⟨rfl, rfl⟩

/-! ## The stream in the server -/

/-- The stream whose task takes the step. -/
def Act.stream? : Act B → Option ℕ
  | .receive i _ | .enqueue i | .broadcast i | .ack i _ => some i
  | _ => none

/-- What a stream still has to do for the message it is at. -/
def Stream.owed (x : Stream J) : List (Emission J) :=
  match x.phase with
  | .registered item =>
    [.handOver x.nodeId (.stats item), .broadcast ⟨x.nodeId, item.timestampMs, item.statsJson⟩]
  | .queued update => [.broadcast update]
  | .acking nowMs => [.ack nowMs]
  | .receiving | .closed => []

/-- What a step does as a step of the stream `i`. A message has its first effect when it is
received. -/
def emits (cfg : Config B J) (i : ℕ) (s : Process J) (a : Act B) : Option (Emission J) :=
  if a.stream? = some i then do
    let x ← s.streams[i]?
    match a with
    | .receive _ inbound => (Turn.body cfg x.nodeId ⟨inbound, s.clock, true⟩).1.head?
    | .ack _ false => none
    | _ => x.owed.head?
  else none

/-- What an emission does to the server. An acknowledgement goes to the client. -/
def Emission.apply (cfg : Config B J) (s : Process J) : Emission J → Option (Process J)
  | .insert nodeId timestampMs statsJson =>
    some { s with nodes := s.nodes.onStats nodeId timestampMs statsJson }
  | .refresh nodeId timestampMs => some { s with nodes := s.nodes.onHeartbeat nodeId timestampMs }
  | .handOver nodeId item => s.sendToWorker cfg nodeId item
  | .broadcast update => some { s with broadcasts := s.broadcasts ++ [update] }
  | .ack _ => some s

/-- What an emission sends to the client. -/
def Emission.commands : Emission J → List ServerCommand
  | .ack nowMs => [.heartbeatAck nowMs]
  | _ => []

/-- A step does an emission, takes the stream `i` from `x` to `y`, and does nothing else. The ghost
record of the accepted messages may grow. -/
structure DoesOnly (cfg : Config B J) (i : ℕ) (e : Option (Emission J)) (x y : Stream J)
    (p p' : State J) : Prop where
  stream : p.1.streams[i]? = some x
  process : ∃ q receipts, e.elim (some p.1) (Emission.apply cfg p.1) = some q ∧
    p' = ({ q with streams := p.1.streams.set i y, receipts }, p.2)
  nodeId : y.nodeId = x.nodeId
  commands : y.commands = x.commands ++ e.elim [] Emission.commands

/-- What a stream will have done after the messages `turns`, where `acked` says whether the
acknowledgement it is at can be sent. -/
def Stream.rest (cfg : Config B J) (x : Stream J) (turns : List (Turn B)) (acked : Bool) :
    List (Emission J) :=
  match x.phase with
  | .closed => []
  | .acking nowMs => if acked then .ack nowMs :: telemetry cfg x.nodeId turns else []
  | _ => x.owed ++ telemetry cfg x.nodeId turns

/-- The message that a step of a stream receives. -/
def Act.turns (clock : Int64) (acked : Bool) : Act B → List (Turn B)
  | .receive _ inbound => [⟨inbound, clock, acked⟩]
  | _ => []

/-- Whether the acknowledgement that comes next is sent, from this step on. -/
def Act.acked (later : Bool) : Act B → Bool
  | .ack _ ok => ok
  | _ => later

section Steps

variable {s s' : Process J} {p p' : State J} {a : Act B} {i : ℕ} {x : Stream J}

theorem setStream_self (h : s.streams[i]? = some x) : s.streams.set i x = s.streams := by
  obtain ⟨hlt, hget⟩ := List.getElem?_eq_some_iff.mp h
  rw [← hget, List.set_getElem_self]

/-- A step that leaves the server as it is. -/
theorem doesOnly_skip {db : Database J} (hx : s.streams[i]? = some x) :
    DoesOnly cfg i none x x (s, db) (s, db) := by
  refine ⟨hx, ⟨s, s.receipts, rfl, ?_⟩, rfl, (List.append_nil _).symm⟩
  rw [setStream_self hx]

/-- A step that closes the stream. -/
theorem doesOnly_close {db : Database J} (hx : s.streams[i]? = some x) :
    DoesOnly cfg i none x { x with phase := .closed } (s, db)
      (s.setStream i { x with phase := .closed }, db) :=
  ⟨hx, ⟨s, s.receipts, rfl, rfl⟩, rfl, (List.append_nil _).symm⟩

/-- A message has its first effect when it is received, and the stream owes the others. -/
theorem receive_doesOnly {inbound : Inbound B} (db : Database J) (hx : s.streams[i]? = some x)
    (hphase : x.phase = .receiving) (h : s.receive cfg i x inbound = some s') :
    ∃ y, DoesOnly cfg i (Turn.body cfg x.nodeId ⟨inbound, s.clock, true⟩).1.head? x y (s, db)
        (s', db) ∧
      ∀ turns acked, telemetry cfg x.nodeId (⟨inbound, s.clock, acked⟩ :: turns) =
        (Turn.body cfg x.nodeId ⟨inbound, s.clock, true⟩).1.head?.toList ++
          y.rest cfg turns acked := by
  rcases inbound with (_ | stats | hb | probe) | _ | _
  · obtain rfl := Option.some.inj h
    refine ⟨x, doesOnly_skip hx, fun turns acked => ?_⟩
    simp [telemetry, Turn.body, Stream.rest, Stream.owed, hphase]
  · by_cases hid : stats.nodeId = x.nodeId
    · cases hval : cfg.serde.toValue stats.metrics with
      | none =>
        obtain rfl : s = s' := by simpa [Process.receive, hid, hval] using h
        refine ⟨x, ?_, fun turns acked => ?_⟩
        · simpa [Turn.body, hid, hval] using doesOnly_skip hx
        · simp [telemetry, Turn.body, Stream.rest, Stream.owed, hphase, hid, hval]
      | some statsJson =>
        simp only [Process.receive, hid, hval, ne_eq, not_true_eq_false, if_false,
          Option.some.injEq] at h
        subst h
        let item : StatsItem J :=
          ⟨x.nodeId, stats.timestampMs, cfg.serde.toText statsJson, statsJson⟩
        refine ⟨{ x with phase := .registered item }, ?_, fun turns acked => ?_⟩
        · simp only [Turn.body, hid, hval, ne_eq, not_true_eq_false, if_false, List.head?_cons]
          exact ⟨hx, ⟨_, _, rfl, rfl⟩, rfl, (List.append_nil _).symm⟩
        · simp [telemetry, Turn.body, Stream.rest, Stream.owed, hid, hval, item]
    · obtain rfl : s.setStream i { x with phase := .closed } = s' := by
        simpa [Process.receive, hid] using h
      refine ⟨{ x with phase := .closed }, ?_, fun turns acked => ?_⟩
      · simpa [Turn.body, hid] using doesOnly_close hx
      · simp [telemetry, Turn.body, Stream.rest, hid]
  · by_cases hid : hb.nodeId = x.nodeId
    · simp only [Process.receive, hid, ne_eq, not_true_eq_false, if_false, Option.some.injEq] at h
      subst h
      refine ⟨{ x with phase := .acking s.clock }, ?_, fun turns acked => ?_⟩
      · simp only [Turn.body, hid, ne_eq, not_true_eq_false, if_false, if_true, List.head?_cons]
        exact ⟨hx, ⟨_, _, rfl, rfl⟩, rfl, (List.append_nil _).symm⟩
      · cases acked <;> simp [telemetry, Turn.body, Stream.rest, hid]
    · obtain rfl : s.setStream i { x with phase := .closed } = s' := by
        simpa [Process.receive, hid] using h
      refine ⟨{ x with phase := .closed }, ?_, fun turns acked => ?_⟩
      · simpa [Turn.body, hid] using doesOnly_close hx
      · simp [telemetry, Turn.body, Stream.rest, hid]
  · refine ⟨x, ⟨hx, ⟨s', s'.receipts, h, ?_⟩, rfl, (List.append_nil _).symm⟩, fun turns acked => ?_⟩
    · obtain ⟨shards, drops, rfl⟩ := Process.sendToWorker_eq h
      rw [setStream_self hx]
    · simp [telemetry, Turn.body, Stream.rest, Stream.owed, hphase]
  · obtain rfl := Option.some.inj h
    exact ⟨{ x with phase := .closed }, doesOnly_close hx, fun turns acked => rfl⟩
  · obtain rfl := Option.some.inj h
    exact ⟨{ x with phase := .closed }, doesOnly_close hx, fun turns acked => rfl⟩

/-- **A step of a stream does its emission and nothing else**, and what is left to be done afterwards
is what was left before without it. -/
theorem step_doesOnly (h : step cfg p a = some p') (ha : a.stream? = some i) :
    ∃ x y, DoesOnly cfg i (emits cfg i p.1 a) x y p p' ∧ ∀ turns acked,
      x.rest cfg (a.turns p.1.clock acked ++ turns) (a.acked acked) =
        (emits cfg i p.1 a).toList ++ y.rest cfg turns acked := by
  obtain ⟨s, db⟩ := p
  cases a with
  | receive j inbound =>
    obtain rfl := Option.some.inj ha
    obtain ⟨x, hx, hphase, s', hs', rfl⟩ := step_receive_iff.mp h
    obtain ⟨y, hdoes, hrest⟩ := receive_doesOnly db hx hphase hs'
    have hemits : emits cfg j s (.receive j inbound) =
        (Turn.body cfg x.nodeId ⟨inbound, s.clock, true⟩).1.head? := by
      simp [emits, Act.stream?, hx]
    refine ⟨x, y, hemits ▸ hdoes, fun turns acked => ?_⟩
    rw [hemits, ← hrest]
    simp [Stream.rest, Stream.owed, hphase, Act.turns]
  | enqueue j =>
    obtain rfl := Option.some.inj ha
    obtain ⟨x, hx, item, hphase, s', hs', rfl⟩ := step_enqueue_iff.mp h
    have hemits : emits cfg j s (.enqueue j) = some (.handOver x.nodeId (.stats item)) := by
      simp [emits, Act.stream?, hx, Stream.owed, hphase]
    refine ⟨x, { x with phase := .queued ⟨x.nodeId, item.timestampMs, item.statsJson⟩ }, ?_,
      fun turns acked => ?_⟩
    · rw [hemits]
      refine ⟨hx, ⟨s', s'.receipts, hs', ?_⟩, rfl, (List.append_nil _).symm⟩
      obtain ⟨shards, drops, rfl⟩ := Process.sendToWorker_eq hs'
      rfl
    · rw [hemits]
      simp [Stream.rest, Stream.owed, hphase, Act.turns]
  | broadcast j =>
    obtain rfl := Option.some.inj ha
    obtain ⟨x, hx, update, hphase, rfl⟩ := step_broadcast_iff.mp h
    have hemits : emits cfg j s (.broadcast j) = some (.broadcast update) := by
      simp [emits, Act.stream?, hx, Stream.owed, hphase]
    refine ⟨x, { x with phase := .receiving }, ?_, fun turns acked => ?_⟩
    · rw [hemits]
      exact ⟨hx, ⟨_, _, rfl, rfl⟩, rfl, (List.append_nil _).symm⟩
    · rw [hemits]
      simp [Stream.rest, Stream.owed, hphase, Act.turns]
  | ack j ok =>
    obtain rfl := Option.some.inj ha
    obtain ⟨x, hx, nowMs, hphase, rfl⟩ := step_ack_iff.mp h
    cases ok with
    | false =>
      have hemits : emits cfg j s (.ack j false) = none := by simp [emits, hx]
      refine ⟨x, { x with phase := .closed }, ?_, fun turns acked => ?_⟩
      · rw [hemits]
        exact doesOnly_close hx
      · rw [hemits]
        simp [Stream.rest, hphase, Act.acked]
    | true =>
      have hemits : emits cfg j s (.ack j true) = some (.ack nowMs) := by
        simp [emits, Act.stream?, hx, Stream.owed, hphase]
      refine ⟨x, { x with phase := .receiving, commands := x.commands ++ [.heartbeatAck nowMs] },
        ?_, fun turns acked => ?_⟩
      · rw [hemits]
        exact ⟨hx, ⟨_, _, rfl, rfl⟩, rfl, rfl⟩
      · rw [hemits]
        simp [Stream.rest, Stream.owed, hphase, Act.acked, Act.turns]
  | _ => exact absurd ha (by simp [Act.stream?])

/-- The other tasks leave the streams alone, and new streams are opened. -/
theorem step_streams (h : step cfg p a = some p') (ha : a.stream? = none) :
    p'.1.streams = p.1.streams ∨
      ∃ nodeId, a = .openStream nodeId ∧ p'.1.streams = p.1.streams ++ [⟨nodeId, .receiving, []⟩] := by
  obtain ⟨s, db⟩ := p
  cases a with
  | receive j inbound => exact absurd ha (by simp [Act.stream?])
  | enqueue j => exact absurd ha (by simp [Act.stream?])
  | broadcast j => exact absurd ha (by simp [Act.stream?])
  | ack j ok => exact absurd ha (by simp [Act.stream?])
  | wait now =>
    obtain ⟨-, rfl⟩ := step_wait_iff.mp h
    exact .inl rfl
  | openStream nodeId =>
    obtain rfl := step_openStream_iff.mp h
    exact .inr ⟨nodeId, rfl, rfl⟩
  | workerRecv | workerUpsert | workerInsert =>
    obtain ⟨shards, dbErrors, heq⟩ := step_of_worker h rfl
    exact .inl (by rw [heq])
  | tick | visit | scanned | persist | announce =>
    obtain ⟨nodes, liveness, broadcasts, dbErrors, heq⟩ := step_of_liveness h rfl
    exact .inl (by rw [heq])

/-- Steps of other tasks leave a stream alone. -/
theorem step_other_stream (h : step cfg p a = some p') (ha : a.stream? ≠ some i)
    (hx : p.1.streams[i]? = some x) : p'.1.streams[i]? = some x := by
  cases hstream : a.stream? with
  | some j =>
    have hji : j ≠ i := fun hji => ha (hji ▸ hstream)
    obtain ⟨x', y, hdoes, -⟩ := step_doesOnly h hstream
    obtain ⟨q, receipts, -, rfl⟩ := hdoes.process
    exact (List.getElem?_set_ne hji).trans hx
  | none =>
    rcases step_streams h hstream with heq | ⟨nodeId, -, heq⟩
    · rw [heq, hx]
    · rw [heq, List.getElem?_append_left (List.getElem?_eq_some_iff.mp hx).1, hx]

end Steps

/-! ## The stream over a run -/

/-- Whether the acknowledgement that the stream sends next in a run is sent. -/
def ackedIn (i : ℕ) : List (Act B) → Bool
  | [] => true
  | a :: as => if a.stream? = some i then a.acked (ackedIn i as) else ackedIn i as

/-- What the stream receives in a run. -/
def received (cfg : Config B J) (i : ℕ) : State J → List (Act B) → List (Turn B)
  | _, [] => []
  | p, a :: as =>
    (if a.stream? = some i then a.turns p.1.clock (ackedIn i as) else []) ++
      (step cfg p a).elim [] fun p' => received cfg i p' as

/-- What the stream does in a run. -/
def emitted (cfg : Config B J) (i : ℕ) : State J → List (Act B) → List (Emission J)
  | _, [] => []
  | p, a :: as =>
    (emits cfg i p.1 a).toList ++ (step cfg p a).elim [] fun p' => emitted cfg i p' as

section Runs

variable {p t : State J} {as : List (Act B)} {i : ℕ} {x : Stream J}

theorem Stream.rest_nil (cfg : Config B J) (x : Stream J) : x.rest cfg [] true = x.owed := by
  cases hphase : x.phase <;> simp [rest, owed, telemetry, hphase]

/-- **What a stream has done in a run, with what it owes at the end, is what it had to do.** -/
theorem emitted_append_owed (hx : p.1.streams[i]? = some x)
    (hrun : Machine.run (step cfg) p as = some t) :
    ∃ y, t.1.streams[i]? = some y ∧
      emitted cfg i p as ++ y.owed = x.rest cfg (received cfg i p as) (ackedIn i as) := by
  induction as generalizing p x with
  | nil =>
    rw [Machine.run_nil, Option.some.injEq] at hrun
    subst hrun
    exact ⟨x, hx, (x.rest_nil cfg).symm⟩
  | cons a as ih =>
    obtain ⟨p', hstep, hrun'⟩ := Machine.run_cons_eq_some.mp hrun
    simp only [emitted, received, ackedIn, hstep, Option.elim_some, List.append_assoc]
    by_cases ha : a.stream? = some i
    · obtain ⟨x', y, hdoes, hrest⟩ := step_doesOnly hstep ha
      obtain rfl : x = x' := Option.some.inj (hx.symm.trans hdoes.stream)
      obtain ⟨q, receipts, -, rfl⟩ := hdoes.process
      have hlt : i < p.1.streams.length := (List.getElem?_eq_some_iff.mp hx).1
      obtain ⟨z, hz, hemitted⟩ := ih (List.getElem?_set_self hlt) hrun'
      refine ⟨z, hz, ?_⟩
      rw [if_pos ha, if_pos ha, hrest, hemitted]
    · obtain ⟨z, hz, hemitted⟩ := ih (step_other_stream hstep ha hx) hrun'
      refine ⟨z, hz, ?_⟩
      rw [if_neg ha, if_neg ha, emits, if_neg ha]
      exact hemitted

/-- What the stream owes concerns its node. -/
def Stream.Faithful (x : Stream J) : Prop := ∀ e ∈ x.owed, e.Concerns x.nodeId

theorem Stream.Faithful.of_mem_rest (h : x.Faithful) {turns : List (Turn B)} {acked : Bool}
    {e : Emission J} (he : e ∈ x.rest cfg turns acked) : e.Concerns x.nodeId := by
  have happend : e ∈ x.owed ++ telemetry cfg x.nodeId turns → e.Concerns x.nodeId := fun he =>
    (List.mem_append.mp he).elim (h e) concerns_of_mem_telemetry
  unfold Stream.rest at he
  split at he
  · exact absurd he List.not_mem_nil
  · split at he
    · rcases List.mem_cons.mp he with rfl | he
      · trivial
      · exact concerns_of_mem_telemetry he
    · exact absurd he List.not_mem_nil
  · exact happend he

/-- The stream is one of the node. -/
def IsStreamOf (i : ℕ) (n : String) (p : State J) : Prop :=
  ∃ x, p.1.streams[i]? = some x ∧ x.nodeId = n ∧ x.Faithful

/-- A step of the stream does its emission and nothing else, the emission concerns the node, and the
registry entries of the other nodes stay as they are. -/
def Confined (cfg : Config B J) (i : ℕ) (n : String) (p : State J) (a : Act B) : Prop :=
  a.stream? = some i → ∀ p', step cfg p a = some p' →
    (∃ x y, DoesOnly cfg i (emits cfg i p.1 a) x y p p') ∧
    (∀ e ∈ emits cfg i p.1 a, e.Concerns n) ∧
    ∀ m, m ≠ n → p'.1.nodes.lookup m = p.1.nodes.lookup m

theorem IsStreamOf.step {n : String} {p' : State J} {a : Act B} (h : IsStreamOf i n p)
    (hs : step cfg p a = some p') : IsStreamOf i n p' := by
  obtain ⟨x, hx, rfl, hfaithful⟩ := h
  by_cases ha : a.stream? = some i
  · obtain ⟨x', y, hdoes, hrest⟩ := step_doesOnly hs ha
    obtain rfl : x = x' := Option.some.inj (hx.symm.trans hdoes.stream)
    obtain ⟨q, receipts, -, rfl⟩ := hdoes.process
    have hlt : i < p.1.streams.length := (List.getElem?_eq_some_iff.mp hx).1
    refine ⟨y, List.getElem?_set_self hlt, hdoes.nodeId, fun e he => ?_⟩
    rw [← y.rest_nil cfg] at he
    rw [hdoes.nodeId]
    exact hfaithful.of_mem_rest (hrest [] true ▸ List.mem_append_right _ he)
  · exact ⟨x, step_other_stream hs ha hx, rfl, hfaithful⟩

/-- All streams owe only what concerns their nodes. -/
def Process.FaithfulStreams (s : Process J) : Prop := ∀ x ∈ s.streams, x.Faithful

/-- Streams that have been opened stay faithful. -/
theorem Process.FaithfulStreams.step {p' : State J} {a : Act B} (h : p.1.FaithfulStreams)
    (hs : step cfg p a = some p') : p'.1.FaithfulStreams := by
  have hold : ∀ i < p.1.streams.length, ∀ y, p'.1.streams[i]? = some y → y.Faithful := by
    intro i hi y hy
    have hx : p.1.streams[i]? = some p.1.streams[i] := List.getElem?_eq_getElem hi
    have hof : IsStreamOf i p.1.streams[i].nodeId p :=
      ⟨_, hx, rfl, h _ (List.mem_of_getElem? hx)⟩
    obtain ⟨z, hz, -, hfaithful⟩ := hof.step hs
    rw [hz, Option.some.injEq] at hy
    exact hy ▸ hfaithful
  intro y hy
  obtain ⟨i, hi⟩ := List.getElem?_of_mem hy
  by_cases hlt : i < p.1.streams.length
  · exact hold i hlt y hi
  · cases hstream : a.stream? with
    | some j =>
      obtain ⟨x', y', hdoes, -⟩ := step_doesOnly hs hstream
      obtain ⟨q, receipts, -, rfl⟩ := hdoes.process
      have hlt' := (List.getElem?_eq_some_iff.mp hi).1
      rw [List.length_set] at hlt'
      exact absurd hlt' hlt
    | none =>
      rcases step_streams hs hstream with heq | ⟨nodeId, -, heq⟩
      · exact h y (heq ▸ hy)
      · rcases List.mem_append.mp (heq ▸ hy) with hy | hy
        · exact h y hy
        · rw [List.mem_singleton.mp hy]
          exact fun e he => absurd he List.not_mem_nil

/-- An emission leaves the entries of other nodes alone. -/
theorem Emission.lookup_apply {s q : Process J} {e : Emission J} {n m : String}
    (he : e.Concerns n) (hm : m ≠ n) (h : e.apply cfg s = some q) :
    q.nodes.lookup m = s.nodes.lookup m := by
  cases e with
  | insert nodeId timestampMs statsJson =>
    obtain rfl := Option.some.inj h
    exact Registry.lookup_onStats_of_ne (he ▸ hm)
  | refresh nodeId timestampMs =>
    obtain rfl := Option.some.inj h
    exact Registry.lookup_onHeartbeat_of_ne (he ▸ hm)
  | handOver nodeId item =>
    obtain ⟨shards, drops, rfl⟩ := Process.sendToWorker_eq h
    rfl
  | broadcast update =>
    obtain rfl := Option.some.inj h
    rfl
  | ack nowMs =>
    obtain rfl := Option.some.inj h
    rfl

theorem IsStreamOf.confined {n : String} (h : IsStreamOf i n p) (a : Act B) :
    Confined cfg i n p a := by
  intro ha p' hs
  obtain ⟨x, hx, rfl, hfaithful⟩ := h
  obtain ⟨x', y, hdoes, hrest⟩ := step_doesOnly hs ha
  obtain rfl : x = x' := Option.some.inj (hx.symm.trans hdoes.stream)
  have hconcerns : ∀ e ∈ emits cfg i p.1 a, e.Concerns x.nodeId := by
    intro e he
    refine hfaithful.of_mem_rest (hrest [] true ▸ List.mem_append_left _ ?_)
    exact Option.mem_toList.mpr he
  refine ⟨⟨x, y, hdoes⟩, hconcerns, fun m hm => ?_⟩
  obtain ⟨q, receipts, happly, rfl⟩ := hdoes.process
  cases he : emits cfg i p.1 a with
  | none =>
    rw [he] at happly
    obtain rfl := Option.some.inj happly
    rfl
  | some e =>
    rw [he] at happly
    show q.nodes.lookup m = p.1.nodes.lookup m
    exact Emission.lookup_apply (hconcerns e he) hm happly

end Runs

/-! ## The identity of a stream -/

open Auth in
/-- The node id among the credentials is the first value of its header. -/
theorem header_of_readCredentials {request : Request} {c : Credentials}
    (h : readCredentials request = .ok c) :
    (request.get "x-pulse-node-id").bind toStr = some c.nodeId := by
  unfold readCredentials extractHeader at h
  cases hget : request.get "x-pulse-node-id" with
  | none => simp [hget, Except.mapError, bind, Except.bind] at h
  | some value =>
    cases hstr : toStr value with
    | none => simp [hget, hstr, Except.mapError, bind, Except.bind] at h
    | some nodeId =>
      simp only [hget, hstr, Except.mapError, bind, Except.bind] at h
      repeat' split at h
      all_goals cases h
      exact hstr

open Auth in
/-- **A stream acts for the node that it was authenticated as, and for no other.** A request that the
interceptor accepts has been verified for the first value of its node id header, and this is the id
that `stream_telemetry` takes. On any sequence of messages, what the loop does concerns that node, and
is what it does on the messages before the first that ends the stream or carries another id; a
heartbeat that cannot be answered is the last one. In every run of the server, the steps of the stream
do just this, and leave the entries of all other nodes alone. -/
theorem stream_isolated (cfg : Config B J) (hmac : List UInt8 → List UInt8 → List UInt8)
    (interceptor : AuthInterceptor) (request accepted : Request) (verifiedAt insertedAt : Int64)
    (hcall : (interceptor.call hmac request verifiedAt insertedAt).1 = .ok accepted) :
    ∃ nodeId, (request.get "x-pulse-node-id").bind toStr = some nodeId ∧
      (∃ c, interceptor.authenticate hmac request verifiedAt = .ok c ∧ c.nodeId = nodeId) ∧
      authenticatedNodeId accepted = .ok nodeId ∧
      (∀ turns : List (Turn B), (∀ e ∈ telemetry cfg nodeId turns, e.Concerns nodeId) ∧
        telemetry cfg nodeId turns =
          (processed nodeId turns).flatMap (fun turn => (turn.body cfg nodeId).1) ∧
        ((∀ turn ∈ turns, turn.acked = true) →
          processed nodeId turns = turns.takeWhile (·.accepted nodeId))) ∧
      ∀ (p t : State J) (as : List (Act B)),
        Machine.run (step cfg) p (.openStream nodeId :: as) = some t →
          Machine.Along (step cfg) (Confined cfg p.1.streams.length nodeId) p
            (.openStream nodeId :: as) ∧
          ∃ y, t.1.streams[p.1.streams.length]? = some y ∧
            emitted cfg p.1.streams.length p (.openStream nodeId :: as) ++ y.owed =
              telemetry cfg nodeId
                (received cfg p.1.streams.length p (.openStream nodeId :: as)) := by
  cases hauth : interceptor.authenticate hmac request verifiedAt with
  | error e => simp [AuthInterceptor.call_of_error hauth] at hcall
  | ok c =>
    obtain rfl : request = accepted := by
      rw [AuthInterceptor.call_of_ok hauth] at hcall
      simp only at hcall
      split at hcall
      · exact Except.ok.inj hcall
      · exact absurd hcall (by simp)
    have hread := ((AuthInterceptor.authenticate_eq_ok_iff hmac).mp hauth).1
    have hheader := header_of_readCredentials hread
    have hid : authenticatedNodeId request = .ok c.nodeId := by
      obtain ⟨value, hget, hstr⟩ := Option.bind_eq_some_iff.mp hheader
      simp [authenticatedNodeId, hget, hstr]
    refine ⟨c.nodeId, hheader, ⟨c, rfl, rfl⟩, hid, fun turns => ⟨fun e he => ?_, ?_, ?_⟩,
      fun p t as hrun => ?_⟩
    · exact concerns_of_mem_telemetry he
    · exact telemetry_eq cfg c.nodeId turns
    · exact processed_of_acked
    · -- the stream begins when it is opened
      obtain ⟨p', hopen, hrun'⟩ := Machine.run_cons_eq_some.mp hrun
      obtain ⟨s, db⟩ := p
      obtain rfl := step_openStream_iff.mp hopen
      have hx : (s.streams ++ [(⟨c.nodeId, .receiving, []⟩ : Stream J)])[s.streams.length]? =
          some ⟨c.nodeId, .receiving, []⟩ := by simp
      refine ⟨⟨fun ha => absurd ha (by simp [Act.stream?]), fun p₁ hp₁ => ?_⟩, ?_⟩
      · rw [hopen, Option.some.injEq] at hp₁
        subst hp₁
        refine Machine.along_of_invariant (I := IsStreamOf s.streams.length c.nodeId)
          (fun _ _ _ hI hs => hI.step hs) (fun _ a hI => hI.confined a) as ?_
        exact ⟨_, hx, rfl, fun e he => absurd he List.not_mem_nil⟩
      · obtain ⟨y, hy, hemitted⟩ := emitted_append_owed hx hrun'
        refine ⟨y, hy, ?_⟩
        rw [emitted, received, hopen]
        simpa [emits, Act.stream?, Stream.rest, Stream.owed] using hemitted

/-- The sample request with a second node id header. -/
def doubledRequest : Auth.Request :=
  ⟨Auth.sampleRequest.metadata ++ [("x-pulse-node-id", Text.asBytes "node-02")]⟩

/-- The stream of the request sends a snapshot and a heartbeat, and then a snapshot under the second
id. -/
def doubledRun : List (Act ℕ) :=
  [.receive 0 (.message (some (.stats ⟨"node-01", 5, 7⟩))), .enqueue 0, .broadcast 0,
    .receive 0 (.message (some (.heartbeat ⟨"node-01", 6⟩))), .ack 0 true,
    .receive 0 (.message (some (.stats ⟨"node-02", 7, 8⟩)))]

theorem stream_isolated_doubledRun :
    ∃ t y, Machine.run (step .byText) (.boot .empty 0, .empty) (.openStream "node-01" :: doubledRun)
        = some t ∧ t.1.streams[0]? = some y ∧
      emitted .byText 0 (.boot .empty 0, .empty) (.openStream "node-01" :: doubledRun) ++ y.owed =
        telemetry .byText "node-01"
          (received .byText 0 (.boot .empty 0, .empty) (.openStream "node-01" :: doubledRun)) := by
  obtain ⟨nodeId, -, -, hid, -, hruns⟩ := stream_isolated Config.byText Auth.sampleHmac
    (.new Auth.sampleSecret 1000000) doubledRequest doubledRequest 1000100 1000100 (by decide)
  obtain rfl : nodeId = "node-01" := by
    have hfirst : authenticatedNodeId doubledRequest = .ok "node-01" := by decide
    exact Except.ok.inj (hid.symm.trans hfirst)
  obtain ⟨-, y, hy, hemitted⟩ := hruns (.boot .empty 0, .empty) _ doubledRun
    (Option.some_get (by decide)).symm
  exact ⟨_, y, (Option.some_get (by decide)).symm, hy, hemitted⟩

end Hakuraku.Server

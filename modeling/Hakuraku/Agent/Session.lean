import Hakuraku.Agent.Buffer
import Hakuraku.Core.Proto
import Hakuraku.Lib.Machine

/-!
# The agent's tasks

Reference: `pulse-agent/src/main.rs`, `run_agent_loop`, `run_session`, `collection_loop` and
`heartbeat_loop`.

The agent is a step function over the states of its tasks. One collection task pushes snapshots into
the holdback buffer. Every session spawns a forwarder, which drains the buffer into the session's
channel, and a heartbeat task, which sends into the same channel; the gRPC request stream takes the
messages out at the other end. A step goes from one await point (or lock) of a task to the next, and
the action says which task moves.

What is modelled of the libraries:

* `tokio::sync::mpsc`: a queue of 64 messages; a send completes when there is room, fails once the
  receiver is gone, and the messages in the queue are gone with the receiver. The receiver belongs
  to the request stream, which may outlive the call of `run_session` or be dropped before it ends.
* `tokio::sync::Notify`: at most one stored permit; `notify_one` wakes the oldest waiter or stores
  the permit, and a waiter that is dropped with its notification passes it on.
* `JoinHandle::abort` only requests the end of a task, which takes its steps until the request takes
  effect, and that happens only while the task is suspended: before its first poll or at an await
  point that was not ready. Here such a task may go on as long as it likes; that it ends with the poll
  it is in is added by `Runtime`. Dropping a `JoinHandle` leaves the task running.

The metric fields of a snapshot stand for its number in collection order, so that every snapshot is
a distinct value. A failed collection only logs a warning and is no step.
-/

namespace Hakuraku.Agent

/-- A `Stats` message of the agent. Its metrics are represented by its collection number. -/
abbrev Sample := NodeStats ℕ

/-- A message in a session's channel. -/
abbrev Message := Payload ℕ

/-- Where a forwarder task stands in its loop. -/
inductive Forwarder where
  /-- Spawned, and not yet polled. -/
  | spawned
  /-- Running, before the lock of the holdback buffer. -/
  | draining
  /-- Handing the drained messages to the channel; the first of them is being sent. -/
  | sending (messages : List Sample)
  /-- Registered with `notify`, without a notification. -/
  | waiting
  /-- Notified, and not yet resumed. -/
  | notified
  /-- Returned or dropped. -/
  | done
deriving DecidableEq

/-- The drained messages a forwarder still has to hand over. -/
def Forwarder.drained : Forwarder → List Sample
  | .sending messages => messages
  | _ => []

/-- The forwarder locks the holdback buffer next. -/
def Forwarder.atLock : Forwarder → Bool
  | .spawned | .draining => true
  | _ => false

/-- The forwarder is suspended, so that an abort can take effect. From its last send it goes on to
`notified()`, and from there to the lock if it finds a permit, without an await that is not ready. -/
def Forwarder.suspended : Forwarder → Bool
  | .spawned | .sending (_ :: _) | .waiting | .notified => true
  | .draining | .sending [] | .done => false

namespace Forwarder

variable {fwd : Forwarder}

/-- A forwarder at the lock runs, is no waiter and holds nothing. -/
theorem of_atLock (h : fwd.atLock = true) : fwd ≠ .done ∧ fwd ≠ .waiting ∧ fwd.drained = [] := by
  cases fwd <;> simp_all [atLock, drained]

theorem ne_done_of_suspended (h : fwd.suspended = true) : fwd ≠ .done := by
  rintro rfl
  exact absurd h (by decide)

end Forwarder

/-- Where a heartbeat task stands in its loop. -/
inductive HeartbeatTask where
  | ticking
  | sending (hb : Heartbeat)
  | done
deriving DecidableEq

/-- How far a call of `run_session` has come since it connected. -/
inductive Stage where
  /-- Awaiting the response of `stream_telemetry`. -/
  | establishing
  /-- In the loop over server commands. -/
  | streaming
  /-- Returned or dropped. -/
  | ended
deriving DecidableEq

/-- The ways a call of `run_session` ends after it has spawned its tasks. -/
inductive Ending where
  /-- `stream_telemetry` failed. -/
  | streamFailed
  /-- `inbound.message` returned an error. -/
  | inboundError
  /-- The server closed the stream. -/
  | serverClosed
  /-- The session's own `select!` saw the cancellation. -/
  | cancelled
  /-- The `select!` of `run_agent_loop` saw the cancellation and dropped the call. -/
  | dropped
deriving DecidableEq

/-- Whether the call reaches the clean-up that aborts the spawned tasks. The error paths return
before it. -/
def Ending.aborts : Ending → Bool
  | .serverClosed | .cancelled => true
  | .streamFailed | .inboundError | .dropped => false

/-- The stages at which a call can end in a given way, and whether it takes the cancellation. -/
def Ending.possible (how : Ending) (stage : Stage) (cancelled : Bool) : Bool :=
  match how with
  | .streamFailed => stage = .establishing
  | .inboundError | .serverClosed => stage = .streaming
  | .cancelled => stage = .streaming && cancelled
  | .dropped => stage ≠ .ended && cancelled

/-- A session from its connection on. -/
structure Session where
  stage : Stage
  channel : List Message
  /-- The request stream still holds the receiver. -/
  receiving : Bool
  /-- What the request stream has taken from the channel. -/
  sent : List Message
  forwarder : Forwarder
  heartbeat : HeartbeatTask
  /-- `abort` has been called on both tasks. -/
  aborted : Bool
  /-- Probes that have been started and have not sent their result. -/
  probes : ℕ
deriving DecidableEq

/-- The capacity of a session's channel. -/
def channelCapacity : ℕ := 64

namespace Session

/-- A session whose channel and tasks have just been created. -/
def new : Session :=
  { stage := .establishing, channel := [], receiving := true, sent := [], forwarder := .spawned,
    heartbeat := .ticking, aborted := false, probes := 0 }

/-- A send on the channel completes. -/
def canSend (x : Session) : Bool := x.receiving && x.channel.length < channelCapacity

/-- The steps that involve one session only. -/
inductive Event where
  | established
  | command (cmd : ServerCommand)
  /-- The forwarder's pending send completes. -/
  | send
  /-- The forwarder's pending send fails: the task returns. -/
  | sendFails
  /-- The notified forwarder resumes its loop. -/
  | resume
  /-- The heartbeat's ticker fires, and the heartbeat is stamped. -/
  | tick (now : Int64)
  | sendHeartbeat
  | sendHeartbeatFails
  /-- A probe has its result and sends it. -/
  | sendProbe (result : ProbeResult)
  | sendProbeFails
  /-- The request stream takes the next message. -/
  | take
  /-- The request stream is dropped, and the receiver with it. -/
  | closeReceiver
  /-- The abort of the heartbeat task takes effect. -/
  | reapHeartbeat
deriving DecidableEq

/-- One step of one session of the agent for `nodeId`. -/
def step (nodeId : String) (x : Session) : Event → Option Session
  | .established => if x.stage = .establishing then some { x with stage := .streaming } else none
  | .command cmd =>
    if x.stage = .streaming then
      match cmd with
      | .addTcpProbe .. => some { x with probes := x.probes + 1 }
      | _ => some x
    else none
  | .send =>
    match x.forwarder with
    | .sending (msg :: rest) =>
      if x.canSend then
        some { x with channel := x.channel ++ [.stats msg], forwarder := .sending rest }
      else none
    | _ => none
  | .sendFails =>
    match x.forwarder with
    | .sending (_ :: _) => if x.receiving then none else some { x with forwarder := .done }
    | _ => none
  | .resume => if x.forwarder = .notified then some { x with forwarder := .draining } else none
  | .tick now =>
    if x.heartbeat = .ticking then some { x with heartbeat := .sending ⟨nodeId, now⟩ } else none
  | .sendHeartbeat =>
    match x.heartbeat with
    | .sending hb =>
      if x.canSend then
        some { x with channel := x.channel ++ [.heartbeat hb], heartbeat := .ticking }
      else none
    | _ => none
  | .sendHeartbeatFails =>
    match x.heartbeat with
    | .sending _ => if x.receiving then none else some { x with heartbeat := .done }
    | _ => none
  | .sendProbe result =>
    if 0 < x.probes ∧ x.canSend then
      some { x with channel := x.channel ++ [.probeResult result], probes := x.probes - 1 }
    else none
  | .sendProbeFails =>
    if 0 < x.probes ∧ ¬ x.receiving then some { x with probes := x.probes - 1 } else none
  | .take =>
    match x.channel with
    | msg :: rest =>
      if x.receiving then some { x with channel := rest, sent := x.sent ++ [msg] } else none
    | [] => none
  | .closeReceiver =>
    if x.receiving then some { x with receiving := false, channel := [] } else none
  | .reapHeartbeat =>
    if x.aborted ∧ x.heartbeat ≠ .done then some { x with heartbeat := .done } else none

/-! ## What each event does -/

section Events

variable {nodeId : String} {x x' : Session}

/-- The forwarder hands its next message over. -/
theorem step_send_iff :
    x.step nodeId .send = some x' ↔ ∃ msg rest, x.forwarder = .sending (msg :: rest) ∧
      x.canSend = true ∧
      { x with channel := x.channel ++ [.stats msg], forwarder := .sending rest } = x' := by
  simp only [step]
  split
  · rename_i msg rest hf
    simp [hf]
  · rename_i hf
    simp only [reduceCtorEq, false_iff]
    rintro ⟨msg, rest, hx, -⟩
    exact hf msg rest hx

/-- The heartbeat task hands its heartbeat over. -/
theorem step_sendHeartbeat_iff :
    x.step nodeId .sendHeartbeat = some x' ↔ ∃ hb, x.heartbeat = .sending hb ∧ x.canSend = true ∧
      { x with channel := x.channel ++ [.heartbeat hb], heartbeat := .ticking } = x' := by
  cases h : x.heartbeat <;> simp [step, h]

theorem step_tick_iff {now : Int64} :
    x.step nodeId (.tick now) = some x' ↔
      x.heartbeat = .ticking ∧ { x with heartbeat := .sending ⟨nodeId, now⟩ } = x' := by
  simp only [step, Option.ite_none_right_eq_some, Option.some.injEq]

/-- The request stream takes the oldest message of the channel. -/
theorem step_take_iff :
    x.step nodeId .take = some x' ↔ ∃ msg rest, x.channel = msg :: rest ∧ x.receiving = true ∧
      { x with channel := rest, sent := x.sent ++ [msg] } = x' := by
  cases h : x.channel <;> simp [step, h]

theorem step_closeReceiver_iff :
    x.step nodeId .closeReceiver = some x' ↔
      x.receiving = true ∧ { x with receiving := false, channel := [] } = x' := by
  simp only [step, Option.ite_none_right_eq_some, Option.some.injEq]

theorem step_sendFails_iff :
    x.step nodeId .sendFails = some x' ↔ ∃ msg rest, x.forwarder = .sending (msg :: rest) ∧
      x.receiving = false ∧ { x with forwarder := .done } = x' := by
  simp only [step]
  split
  · rename_i msg rest hf
    simp [hf]
  · rename_i hf
    simp only [reduceCtorEq, false_iff]
    rintro ⟨msg, rest, hx, -⟩
    exact hf msg rest hx

end Events

end Session

/-- Where the collection task stands in its loop. -/
inductive Collector where
  /-- Sleeping. -/
  | idle
  /-- A snapshot has been collected and not yet pushed. -/
  | collected (sample : Sample)
  /-- The snapshot has been pushed, and `notify_one` has not been called. -/
  | pushed
deriving DecidableEq

/-- The agent. -/
structure State where
  nodeId : String
  holdback : TelemetryBuffer Sample
  collector : Collector
  /-- How many snapshots have been collected. -/
  collections : ℕ
  /-- The last reading of the agent's clock. -/
  clock : Int64
  /-- The collection interval, as last set. -/
  intervalMs : UInt64
  /-- The permit stored in `notify`. -/
  permit : Bool
  /-- The sessions whose forwarders wait on `notify`, the oldest waiter first. -/
  waiters : List ℕ
  /-- All sessions so far, the oldest first. -/
  sessions : List Session
  /-- The cancellation token. -/
  cancelled : Bool
  /-- The snapshots pushed so far, in order. -/
  pushed : List Sample
  /-- The snapshots that a push has discarded. -/
  discarded : List Sample

/-- The state in which `run_agent_loop` enters its loop. -/
def State.init (nodeId : String) (clock : Int64) (intervalMs : UInt64) : State :=
  { nodeId, holdback := .new 100, collector := .idle, collections := 0, clock, intervalMs,
    permit := false, waiters := [], sessions := [], cancelled := false, pushed := [],
    discarded := [] }

/-- The steps of the agent. -/
inductive Act where
  /-- `collect` succeeds with a snapshot stamped `now`. -/
  | collect (now : Int64)
  | push
  | notifyOne
  /-- `run_session` has connected and spawned its tasks. -/
  | startSession
  /-- The forwarder of a session locks and drains the holdback buffer. -/
  | drain (session : ℕ)
  /-- The forwarder of a session has handed everything over and awaits `notified()`. -/
  | park (session : ℕ)
  /-- The abort of the forwarder of a session takes effect. -/
  | reapForwarder (session : ℕ)
  /-- The call of `run_session` of a session ends. -/
  | finish (session : ℕ) (how : Ending)
  /-- The cancellation token is cancelled. -/
  | cancel
  /-- A step within one session. -/
  | within (session : ℕ) (event : Session.Event)
deriving DecidableEq

namespace State

/-- Replace a session. -/
def setSession (s : State) (i : ℕ) (x : Session) : State :=
  { s with sessions := s.sessions.set i x }

/-- `Notify::notify_one`. -/
def notifyOne (s : State) : State :=
  match s.waiters with
  | [] => { s with permit := true }
  | i :: rest =>
    { s with waiters := rest, sessions := s.sessions.modify i ({ · with forwarder := .notified }) }

/-- What a session's event does outside the session: a tick reads the clock, and a configuration
update sets the interval. -/
def observe (s : State) : Session.Event → Option State
  | .tick now => if s.clock ≤ now then some { s with clock := now } else none
  | .command (.configUpdate intervalMs) => some { s with intervalMs := intervalMs.toUInt64 }
  | _ => some s

/-- One step of the agent. -/
def step (s : State) : Act → Option State
  | .collect now =>
    if s.collector = .idle ∧ s.clock ≤ now then
      some { s with
        collector := .collected ⟨s.nodeId, now, s.collections⟩
        collections := s.collections + 1
        clock := now }
    else none
  | .push =>
    match s.collector with
    | .collected sample =>
      some { s with
        collector := .pushed
        holdback := s.holdback.push sample
        pushed := s.pushed ++ [sample]
        discarded := s.discarded ++ s.holdback.evicted }
    | _ => none
  | .notifyOne =>
    if s.collector = .pushed then some ({ s with collector := .idle } : State).notifyOne else none
  | .startSession =>
    if (∀ x ∈ s.sessions, x.stage = .ended) ∧ s.cancelled = false then
      some { s with sessions := s.sessions ++ [Session.new] }
    else none
  | .drain i => do
    let x ← s.sessions[i]?
    if x.forwarder.atLock then
      some ({ s with holdback := s.holdback.drain.2 }.setSession i
        { x with forwarder := .sending s.holdback.drain.1 })
    else none
  | .park i => do
    let x ← s.sessions[i]?
    if x.forwarder = .sending [] then
      if s.permit then
        some ({ s with permit := false }.setSession i { x with forwarder := .draining })
      else
        some ({ s with waiters := s.waiters ++ [i] }.setSession i { x with forwarder := .waiting })
    else none
  | .reapForwarder i => do
    let x ← s.sessions[i]?
    if x.aborted ∧ x.forwarder.suspended then
      let s' := s.setSession i { x with forwarder := .done }
      match x.forwarder with
      | .waiting => some { s' with waiters := s'.waiters.erase i }
      | .notified => some s'.notifyOne
      | _ => some s'
    else none
  | .finish i how => do
    let x ← s.sessions[i]?
    if how.possible x.stage s.cancelled then
      some (s.setSession i { x with stage := .ended, aborted := how.aborts })
    else none
  | .cancel => some { s with cancelled := true }
  | .within i event => do
    let x ← s.sessions[i]?
    let x' ← x.step s.nodeId event
    let s' ← s.observe event
    some (s'.setSession i x')

/-! ## What each step does -/

variable {s s' : State} {i : ℕ} {x y : Session}

theorem getElem?_setSession_of_ne {j : ℕ} (h : i ≠ j) :
    (s.setSession i y).sessions[j]? = s.sessions[j]? := List.getElem?_set_ne h

theorem getElem?_setSession_self (h : s.sessions[i]? = some x) :
    (s.setSession i y).sessions[i]? = some y := by
  obtain ⟨hlt, -⟩ := List.getElem?_eq_some_iff.mp h
  exact List.getElem?_set_self hlt

theorem step_collect_iff {now : Int64} :
    s.step (.collect now) = some s' ↔ (s.collector = .idle ∧ s.clock ≤ now) ∧
      { s with
        collector := .collected ⟨s.nodeId, now, s.collections⟩
        collections := s.collections + 1
        clock := now } = s' := by
  simp only [step, Option.ite_none_right_eq_some, Option.some.injEq]

theorem step_push_iff :
    s.step .push = some s' ↔ ∃ sample, s.collector = .collected sample ∧
      { s with
        collector := .pushed
        holdback := s.holdback.push sample
        pushed := s.pushed ++ [sample]
        discarded := s.discarded ++ s.holdback.evicted } = s' := by
  cases h : s.collector <;> simp [step, h]

theorem step_notifyOne_iff :
    s.step .notifyOne = some s' ↔
      s.collector = .pushed ∧ ({ s with collector := .idle } : State).notifyOne = s' := by
  simp only [step, Option.ite_none_right_eq_some, Option.some.injEq]

theorem step_startSession_iff :
    s.step .startSession = some s' ↔
      ((∀ x ∈ s.sessions, x.stage = .ended) ∧ s.cancelled = false) ∧
        { s with sessions := s.sessions ++ [Session.new] } = s' := by
  simp only [step, Option.ite_none_right_eq_some, Option.some.injEq]

theorem step_drain_iff :
    s.step (.drain i) = some s' ↔ ∃ x, s.sessions[i]? = some x ∧ x.forwarder.atLock = true ∧
      { s with holdback := s.holdback.drain.2 }.setSession i
        { x with forwarder := .sending s.holdback.inner } = s' := by
  simp only [step, Option.bind_eq_bind, Option.bind_eq_some_iff, Option.ite_none_right_eq_some,
    Option.some.injEq]
  rfl

theorem step_park_iff :
    s.step (.park i) = some s' ↔ ∃ x, s.sessions[i]? = some x ∧ x.forwarder = .sending [] ∧
      (if s.permit then
        { s with permit := false }.setSession i { x with forwarder := .draining }
      else
        { s with waiters := s.waiters ++ [i] }.setSession i { x with forwarder := .waiting })
          = s' := by
  simp only [step, Option.bind_eq_bind, Option.bind_eq_some_iff, Option.ite_none_right_eq_some]
  refine exists_congr fun x => and_congr_right fun _ => and_congr_right fun _ => ?_
  split <;> simp only [Option.some.injEq]

theorem step_reapForwarder_iff :
    s.step (.reapForwarder i) = some s' ↔ ∃ x, s.sessions[i]? = some x ∧
      (x.aborted ∧ x.forwarder.suspended) ∧
      (match x.forwarder with
        | .waiting =>
          { s.setSession i { x with forwarder := .done } with waiters := s.waiters.erase i }
        | .notified => (s.setSession i { x with forwarder := .done }).notifyOne
        | _ => s.setSession i { x with forwarder := .done }) = s' := by
  simp only [step, Option.bind_eq_bind, Option.bind_eq_some_iff, Option.ite_none_right_eq_some]
  refine exists_congr fun x => and_congr_right fun _ => and_congr_right fun _ => ?_
  cases x.forwarder <;> simp only [Option.some.injEq, setSession]

theorem step_finish_iff {how : Ending} :
    s.step (.finish i how) = some s' ↔ ∃ x, s.sessions[i]? = some x ∧
      how.possible x.stage s.cancelled = true ∧
      s.setSession i { x with stage := .ended, aborted := how.aborts } = s' := by
  simp only [step, Option.bind_eq_bind, Option.bind_eq_some_iff, Option.ite_none_right_eq_some,
    Option.some.injEq]

theorem step_within_iff {event : Session.Event} :
    s.step (.within i event) = some s' ↔ ∃ x, s.sessions[i]? = some x ∧
      ∃ x', x.step s.nodeId event = some x' ∧ ∃ t, s.observe event = some t ∧
        t.setSession i x' = s' := by
  simp only [step, Option.bind_eq_bind, Option.bind_eq_some_iff, Option.some.injEq]

/-- A notification leaves alone all but the permit, the waiters and the sessions. -/
theorem notifyOne_eq (s : State) :
    ∃ permit waiters sessions, s.notifyOne = { s with permit, waiters, sessions } := by
  unfold notifyOne
  split
  · exact ⟨_, s.waiters, s.sessions, rfl⟩
  · exact ⟨s.permit, _, _, rfl⟩

/-- An event of a session leaves alone all that the sessions and the buffer hold. -/
theorem observe_eq {event : Session.Event} {t : State} (h : s.observe event = some t) :
    ∃ clock intervalMs, t = { s with clock, intervalMs } := by
  unfold observe at h
  split at h
  · split at h
    · exact ⟨_, s.intervalMs, (Option.some.inj h).symm⟩
    · exact absurd h (by simp)
  · exact ⟨s.clock, _, (Option.some.inj h).symm⟩
  · exact ⟨s.clock, s.intervalMs, (Option.some.inj h).symm⟩

end State

end Hakuraku.Agent

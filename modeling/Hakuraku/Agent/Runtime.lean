import Hakuraku.Agent.Books
import Mathlib.Data.Finset.Basic

/-!
# The polls of the spawned tasks

Reference: `pulse-agent/src/main.rs`, `run_session`, its forwarder and heartbeat tasks.

A task takes its steps while one of the runtime's threads polls it. A poll goes on until the task
returns, starts to wait or comes to an await point that is not ready, and `JoinHandle::abort` does
not stop it: a task whose abort has been requested is dropped when its poll is over, and is not
polled again. The steps of the agent let such a task go on at will; here it goes on to the end of the
poll that it is in, so that every run is one of the agent (`run_agent`).
-/

namespace Hakuraku.Agent

/-- The tasks that a session spawns for itself. -/
inductive SpawnedTask where
  | forwarder
  | heartbeat
deriving DecidableEq

/-- A spawned task, with the number of its session. -/
abbrev TaskId := ℕ × SpawnedTask

namespace Session

/-- The task has returned or been dropped. -/
def gone (x : Session) : SpawnedTask → Bool
  | .forwarder => x.forwarder = .done
  | .heartbeat => x.heartbeat = .done

/-- A poll of the task goes on, or could begin. -/
def ready (x : Session) : SpawnedTask → Bool
  | .forwarder => x.forwarder ≠ .waiting && x.forwarder ≠ .done
  | .heartbeat => x.heartbeat ≠ .done

/-- The task is at an await point that may turn out not to be ready. -/
def awaits (x : Session) : SpawnedTask → Bool
  | .forwarder =>
    match x.forwarder with
    | .sending (_ :: _) | .notified => true
    | _ => false
  | .heartbeat => x.heartbeat ≠ .done

/-- The task that takes the step. -/
def Event.mover : Event → Option SpawnedTask
  | .send | .sendFails | .resume => some .forwarder
  | .tick _ | .sendHeartbeat | .sendHeartbeatFails => some .heartbeat
  | _ => none

theorem gone_eq_false_of_ready {x : Session} {task : SpawnedTask} (h : x.ready task = true) :
    x.gone task = false := by
  cases task <;> simp_all [ready, gone]

end Session

/-- The spawned task that takes the step. -/
def Act.mover : Act → Option TaskId
  | .drain i | .park i => some (i, .forwarder)
  | .within i event => event.mover.map (i, ·)
  | _ => none

/-- The spawned task that the step drops. -/
def Act.reaps : Act → Option TaskId
  | .reapForwarder i => some (i, .forwarder)
  | .within i .reapHeartbeat => some (i, .heartbeat)
  | _ => none

namespace State

/-- The test holds of the session and its task. -/
def testTask (s : State) (p : Session → SpawnedTask → Bool) (k : TaskId) : Bool :=
  s.sessions[k.1]?.any (p · k.2)

theorem testTask_eq_true {s : State} {p : Session → SpawnedTask → Bool} {k : TaskId} :
    s.testTask p k = true ↔ ∃ x, s.sessions[k.1]? = some x ∧ p x k.2 = true := by
  simp [testTask, Option.any_eq_true]

end State

/-- The agent with the spawned tasks that are being polled. -/
@[ext]
structure Runtime where
  agent : State
  polled : Finset TaskId
  /-- A poll is over when its task waits or has returned. -/
  polled_ready : ∀ k ∈ polled, agent.testTask Session.ready k = true

namespace Runtime

/-- The agent enters its loop. -/
def init (nodeId : String) (clock : Int64) (intervalMs : UInt64) : Runtime :=
  ⟨.init nodeId clock intervalMs, ∅, by simp⟩

inductive Act where
  /-- A step of the agent. -/
  | agent (a : Agent.Act)
  /-- A thread begins to poll the task. -/
  | poll (k : TaskId)
  /-- The poll ends at an await point. -/
  | yield (k : TaskId)

/-- The spawned task that takes the step. -/
def Act.mover : Act → Option TaskId
  | .agent a => a.mover
  | .poll k | .yield k => some k

/-- The step of the agent, if it is one. -/
def Act.agent? : Act → Option Agent.Act
  | .agent a => some a
  | .poll _ | .yield _ => none

/-- A spawned task steps only while it is polled and is dropped only while it is not. No poll begins
after the abort has been requested. -/
def step (r : Runtime) : Act → Option Runtime
  | .agent a =>
    if (∀ k ∈ a.mover, k ∈ r.polled) ∧ ∀ k ∈ a.reaps, k ∉ r.polled then
      (r.agent.step a).map fun s =>
        ⟨s, r.polled.filter (s.testTask Session.ready · = true),
          fun _ hk => (Finset.mem_filter.mp hk).2⟩
    else none
  | .poll k =>
    if h : r.agent.testTask (fun x task => x.ready task && !x.aborted) k = true ∧ k ∉ r.polled then
      some ⟨r.agent, insert k r.polled, by
        intro k' hk'
        rcases Finset.mem_insert.mp hk' with rfl | hk'
        · obtain ⟨x, hx, hready⟩ := State.testTask_eq_true.mp h.1
          exact State.testTask_eq_true.mpr ⟨x, hx, (Bool.and_eq_true _ _ ▸ hready).1⟩
        · exact r.polled_ready k' hk'⟩
    else none
  | .yield k =>
    if r.agent.testTask Session.awaits k = true ∧ k ∈ r.polled then
      some ⟨r.agent, r.polled.erase k, fun k' hk' => r.polled_ready k' (Finset.mem_of_mem_erase hk')⟩
    else none

/-! ## What each step does -/

variable {r r' : Runtime} {k : TaskId}

theorem step_agent_iff {a : Agent.Act} :
    r.step (.agent a) = some r' ↔
      ((∀ k ∈ a.mover, k ∈ r.polled) ∧ ∀ k ∈ a.reaps, k ∉ r.polled) ∧
        r.agent.step a = some r'.agent ∧
        r'.polled = r.polled.filter (r'.agent.testTask Session.ready · = true) := by
  simp only [step, Option.ite_none_right_eq_some, Option.map_eq_some_iff]
  refine and_congr_right fun _ => ⟨?_, ?_⟩
  · rintro ⟨s, hs, rfl⟩
    exact ⟨hs, rfl⟩
  · rintro ⟨hs, hpolled⟩
    exact ⟨r'.agent, hs, Runtime.ext rfl hpolled.symm⟩

theorem step_poll_iff :
    r.step (.poll k) = some r' ↔
      (r.agent.testTask (fun x task => x.ready task && !x.aborted) k = true ∧ k ∉ r.polled) ∧
        r'.agent = r.agent ∧ r'.polled = insert k r.polled := by
  simp only [step, Option.dite_none_right_eq_some, Option.some.injEq]
  constructor
  · rintro ⟨h, rfl⟩
    exact ⟨h, rfl, rfl⟩
  · rintro ⟨h, hagent, hpolled⟩
    exact ⟨h, Runtime.ext hagent.symm hpolled.symm⟩

theorem step_yield_iff :
    r.step (.yield k) = some r' ↔
      (r.agent.testTask Session.awaits k = true ∧ k ∈ r.polled) ∧
        r'.agent = r.agent ∧ r'.polled = r.polled.erase k := by
  simp only [step, Option.ite_none_right_eq_some, Option.some.injEq]
  refine and_congr_right fun _ => ⟨?_, ?_⟩
  · rintro rfl
    exact ⟨rfl, rfl⟩
  · rintro ⟨hagent, hpolled⟩
    exact Runtime.ext hagent.symm hpolled.symm

/-- A poll that begins or ends leaves the agent as it is. -/
theorem step_cases {act : Act} (h : r.step act = some r') :
    (∃ a, act = .agent a ∧ r.agent.step a = some r'.agent) ∨
      act.agent? = none ∧ r'.agent = r.agent := by
  cases act with
  | agent a => exact .inl ⟨a, rfl, (step_agent_iff.mp h).2.1⟩
  | poll k => exact .inr ⟨rfl, (step_poll_iff.mp h).2.1⟩
  | yield k => exact .inr ⟨rfl, (step_yield_iff.mp h).2.1⟩

/-- **Every run with polls is a run of the agent**, so that what holds of these holds here. -/
theorem run_agent {as : List Act} (h : Machine.run step r as = some r') :
    Machine.run State.step r.agent (as.filterMap Act.agent?) = some r'.agent := by
  induction as generalizing r with
  | nil =>
    rw [Machine.run_nil, Option.some.injEq] at h
    exact congrArg _ (congrArg agent h)
  | cons act as ih =>
    obtain ⟨r₁, hstep, hrun⟩ := Machine.run_cons_eq_some.mp h
    rcases step_cases hstep with ⟨a, rfl, ha⟩ | ⟨hnone, hsame⟩
    · exact Machine.run_cons_eq_some.mpr ⟨r₁.agent, ha, ih hrun⟩
    · rw [List.filterMap_cons_none hnone, ← hsame]
      exact ih hrun

end Runtime

end Hakuraku.Agent

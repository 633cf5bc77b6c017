import Hakuraku.Agent.Runtime

/-!
# The end of a session

Reference: `pulse-agent/src/main.rs`, `run_session` and `run_agent_loop`.

`run_session` spawns a forwarder and a heartbeat task and aborts both at its end. The two error
returns between the spawns and the clean-up, and the drop of the call by `run_agent_loop`, do not
pass through it: they drop the `JoinHandle`s, which leaves the tasks running. Such a forwarder goes
on to drain the holdback buffer, which it shares with the forwarder of the next session. The abort,
on its part, does not stop a task that a thread is polling: `run_session` returns without waiting for
it, and until the poll is over the task goes on as well.
-/

namespace Hakuraku.Agent

namespace State

variable {s s' : State} {a : Act} {i : ℕ} {x : Session}

/-! ## One session at a time -/

/-- `run_session` is called again only after it has returned. -/
def OneLive (s : State) : Prop :=
  ∀ (i j : ℕ) (x y : Session), s.sessions[i]? = some x → s.sessions[j]? = some y →
    x.live → y.live → i = j

theorem oneLive_init (nodeId : String) (clock : Int64) (intervalMs : UInt64) :
    (init nodeId clock intervalMs).OneLive := by
  intro i j x y hx
  simp [init] at hx

/-- A session of the next state that has not ended is one of this state, or has just been started
with all others ended. -/
theorem WaitersSound.live_step (h : s.WaitersSound) (hs : s.step a = some s') {x' : Session}
    (hx' : s'.sessions[i]? = some x') (hlive : x'.live) :
    (∃ x, s.sessions[i]? = some x ∧ x.live) ∨
      i = s.sessions.length ∧ ∀ x ∈ s.sessions, ¬ x.live := by
  rcases h.continues_step hs with rfl | ⟨j, how, rfl⟩ | hcont
  · obtain ⟨⟨hended, -⟩, rfl⟩ := step_startSession_iff.mp hs
    by_cases hi : i < s.sessions.length
    · exact .inl ⟨x', (List.getElem?_append_left hi).symm.trans hx', hlive⟩
    · obtain ⟨hlt, -⟩ := List.getElem?_eq_some_iff.mp hx'
      rw [List.length_append, List.length_singleton] at hlt
      exact .inr ⟨by omega, fun x hx hl => hl (hended x hx)⟩
  · obtain ⟨x, hx, -, rfl⟩ := step_finish_iff.mp hs
    by_cases hij : j = i
    · subst hij
      rw [getElem?_setSession_self hx, Option.some.injEq] at hx'
      exact absurd rfl (hx' ▸ hlive)
    · exact .inl ⟨x', (getElem?_setSession_of_ne hij).symm.trans hx', hlive⟩
  · obtain ⟨x, hx, hxx'⟩ := hcont i x' hx'
    exact .inl ⟨x, hx, hxx'.live.mp hlive⟩

theorem OneLive.step (h : s.OneLive) (hw : s.WaitersSound) (hs : s.step a = some s') :
    s'.OneLive := by
  intro i j x' y' hx' hy' hx hy
  rcases hw.live_step hs hx' hx with ⟨x, hix, hxl⟩ | ⟨hi, hnone⟩
  · rcases hw.live_step hs hy' hy with ⟨y, hjy, hyl⟩ | ⟨-, hnone⟩
    · exact h i j x y hix hjy hxl hyl
    · exact absurd hxl (hnone x (List.mem_of_getElem? hix))
  · rcases hw.live_step hs hy' hy with ⟨y, hjy, hyl⟩ | ⟨hj, -⟩
    · exact absurd hyl (hnone y (List.mem_of_getElem? hjy))
    · exact hi.trans hj.symm

end State

namespace Runtime

variable {r r' : Runtime} {k : TaskId} {act : Act}

/-- The task can take a step: it has not ended, and its abort has not been requested, or comes too
late for the poll that it is in. -/
def Runs (r : Runtime) (k : TaskId) : Prop :=
  ∃ x, r.agent.sessions[k.1]? = some x ∧ x.gone k.2 = false ∧ (x.aborted = false ∨ k ∈ r.polled)

/-- The tasks that can take a step are the live session's. -/
def OnlyLiveRun (r : Runtime) : Prop :=
  ∀ (k : TaskId) (x : Session), r.agent.sessions[k.1]? = some x → r.Runs k → x.live

/-- No task of an ended session can take a step, and at most one forwarder can drain the holdback
buffer. -/
structure TornDown (r : Runtime) : Prop where
  ended : r.OnlyLiveRun
  single : ∀ i j : ℕ, r.Runs (i, .forwarder) → r.Runs (j, .forwarder) → i = j

/-- The step, if it is one of a spawned task, is one of a session that has not ended. -/
def QuietAfterEnd (r : Runtime) (act : Act) : Prop :=
  ∀ k ∈ act.mover, ∀ x ∈ r.agent.sessions[k.1]?, x.live

/-- The step, if it ends a session, finds each of the session's tasks ended, or aborts it while no
thread polls it. -/
def EndsCleanly (r : Runtime) : Act → Prop
  | .agent (.finish i how) => ∀ x ∈ r.agent.sessions[i]?, ∀ task,
      x.gone task = true ∨ how.aborts = true ∧ (i, task) ∉ r.polled
  | _ => True

instance {p : SpawnedTask → Prop} [DecidablePred p] : Decidable (∀ task, p task) :=
  decidable_of_iff (p .forwarder ∧ p .heartbeat)
    ⟨fun h task => by cases task <;> simp [h], fun h => ⟨h _, h _⟩⟩

instance : ∀ (r : Runtime) (act : Act), Decidable (r.EndsCleanly act)
  | r, .agent (.finish i how) =>
    inferInstanceAs (Decidable (∀ x ∈ r.agent.sessions[i]?, ∀ task,
      x.gone task = true ∨ how.aborts = true ∧ (i, task) ∉ r.polled))
  | _, .poll _ | _, .yield _ => isTrue trivial
  | _, .agent (.collect _) | _, .agent .push | _, .agent .notifyOne | _, .agent .startSession
  | _, .agent (.drain _) | _, .agent (.park _) | _, .agent (.reapForwarder _) | _, .agent .cancel
  | _, .agent (.within _ _) => isTrue trivial

/-- A task that is polled has not ended. -/
theorem runs_of_polled (h : k ∈ r.polled) : r.Runs k := by
  obtain ⟨x, hx, hready⟩ := State.testTask_eq_true.mp (r.polled_ready k h)
  exact ⟨x, hx, Session.gone_eq_false_of_ready hready, .inr h⟩

/-- Only a task that can take a step takes one. -/
theorem runs_of_mover (h : r.step act = some r') (hk : k ∈ act.mover) : r.Runs k := by
  cases act with
  | agent a => exact runs_of_polled ((step_agent_iff.mp h).1.1 k hk)
  | poll k' =>
    obtain rfl := Option.some.inj hk
    obtain ⟨x, hx, htest⟩ := State.testTask_eq_true.mp (step_poll_iff.mp h).1.1
    rw [Bool.and_eq_true, Bool.not_eq_true'] at htest
    exact ⟨x, hx, Session.gone_eq_false_of_ready htest.1, .inl htest.2⟩
  | yield k' =>
    obtain rfl := Option.some.inj hk
    exact runs_of_polled (step_yield_iff.mp h).1.2

/-- Where no task of an ended session runs, none takes a step. -/
theorem TornDown.quiet (h : r.TornDown) (hs : r.step act = some r') : r.QuietAfterEnd act :=
  fun k hk x hx => h.ended k x hx (runs_of_mover hs hk)

/-- A step of a spawned task after the end of its session is what must not happen. -/
theorem not_tornDown_of_mover {x : Session} (h : r.step act = some r') (hk : k ∈ act.mover)
    (hx : r.agent.sessions[k.1]? = some x) (hended : ¬ x.live) :
    ¬ r.TornDown ∧ ¬ r.QuietAfterEnd act :=
  ⟨fun htorn => hended (htorn.ended k x hx (runs_of_mover h hk)),
    fun hquiet => hended (hquiet k hk x hx)⟩

/-- Where no task of an ended session runs, the forwarder that can drain is the live session's. -/
theorem tornDown_iff (h : r.agent.OneLive) :
    r.TornDown ↔ r.OnlyLiveRun := by
  refine ⟨TornDown.ended, fun hended => ⟨hended, fun i j hi hj => ?_⟩⟩
  obtain ⟨x, hx, -⟩ := id hi
  obtain ⟨y, hy, -⟩ := id hj
  exact h i j x y hx hy (hended _ x hx hi) (hended _ y hy hj)

/-! ## When the tasks end with their session -/

/-- A session that goes on runs no task that it did not run. -/
theorem Runs.of_continues (h : r'.Runs k) (hagent : r.agent.Continues r'.agent)
    (hpolled : r'.polled ⊆ r.polled) : r.Runs k := by
  obtain ⟨x', hx', hgone, hrun⟩ := h
  obtain ⟨x, hx, hxx'⟩ := hagent k.1 x' hx'
  refine ⟨x, hx, ?_, hrun.imp (fun haborted => hxx'.aborted ▸ haborted) (fun hk => hpolled hk)⟩
  rw [← Bool.not_eq_true] at hgone ⊢
  refine fun hx => hgone ?_
  cases htask : k.2 <;> simp only [htask, Session.gone, decide_eq_true_eq] at hx ⊢
  · exact hxx'.forwarder hx
  · exact hxx'.heartbeat hx

/-- The end of a session leaves a running task behind unless it finds the task ended or aborts it
between two polls. -/
theorem onlyLiveRun_finish_iff {i : ℕ} {how : Ending}
    (h : r.OnlyLiveRun) (hs : r.step (.agent (.finish i how)) = some r') :
    r'.OnlyLiveRun ↔ r.EndsCleanly (.agent (.finish i how)) := by
  obtain ⟨-, hagent, hpolled⟩ := step_agent_iff.mp hs
  obtain ⟨x, hx, -, hset⟩ := State.step_finish_iff.mp hagent
  have hself : r'.agent.sessions[i]? = some { x with stage := .ended, aborted := how.aborts } :=
    hset ▸ State.getElem?_setSession_self hx
  -- the end of the session ends no poll
  have hpoll : ∀ task, (i, task) ∈ r'.polled ↔ (i, task) ∈ r.polled := by
    intro task
    rw [hpolled, Finset.mem_filter, and_iff_left_iff_imp]
    intro hk
    obtain ⟨y, hy, hready⟩ := State.testTask_eq_true.mp (r.polled_ready _ hk)
    rw [hx, Option.some.injEq] at hy
    subst hy
    exact State.testTask_eq_true.mpr ⟨_, hself, by cases task <;> exact hready⟩
  have hgone : ∀ task, ({ x with stage := .ended, aborted := how.aborts } : Session).gone task =
      x.gone task := fun task => by cases task <;> rfl
  simp only [EndsCleanly, hx, Option.mem_def, Option.some.injEq, forall_eq']
  constructor
  · intro hend task
    by_contra hnot
    rw [not_or, Bool.not_eq_true] at hnot
    refine hend (i, task) _ hself ⟨_, hself, (hgone task).trans hnot.1, ?_⟩ rfl
    by_contra hrun
    rw [not_or, Bool.not_eq_false, hpoll] at hrun
    exact hnot.2 hrun
  · intro hclean k y hy hrun
    by_cases hik : i = k.1
    · obtain ⟨j, task⟩ := k
      subst hik
      obtain ⟨z, hz, hzgone, hzrun⟩ := hrun
      rw [hself, Option.some.injEq] at hz
      subst hz
      rw [hgone] at hzgone
      rw [hpoll] at hzrun
      rcases hclean task with hdone | ⟨habort, hidle⟩
      · exact absurd (hdone.symm.trans hzgone) (by decide)
      · exact hzrun.elim (fun haborted => absurd (habort.symm.trans haborted) (by decide))
          (fun hk => absurd hk hidle)
    · have hother : r'.agent.sessions[k.1]? = r.agent.sessions[k.1]? :=
        hset ▸ State.getElem?_setSession_of_ne hik
      obtain ⟨z, hz, hzgone, hzrun⟩ := hrun
      refine h k y (hother ▸ hy) ⟨z, hother ▸ hz, hzgone, hzrun.imp id fun hk => ?_⟩
      rw [hpolled] at hk
      exact Finset.mem_of_mem_filter k hk

/-- **A step leaves a running task behind exactly when it ends a session and does not stop the
task.** -/
theorem onlyLiveRun_step_iff (hw : r.agent.WaitersSound) (h : r.OnlyLiveRun)
    (hs : r.step act = some r') : r'.OnlyLiveRun ↔ r.EndsCleanly act := by
  -- a session that goes on is live if it was, and runs no new task
  have hgoesOn : r.agent.Continues r'.agent → r'.polled ⊆ r.polled → r'.OnlyLiveRun := by
    intro hcont hpolled k x' hx' hrun
    obtain ⟨x, hx, hxx'⟩ := hcont k.1 x' hx'
    exact hxx'.live.mpr (h k x hx (hrun.of_continues hcont hpolled))
  cases act with
  | poll k' =>
    obtain ⟨-, hagent, hpolled⟩ := step_poll_iff.mp hs
    refine iff_of_true (fun k x hx hrun => ?_) trivial
    rw [hagent] at hx
    refine h k x hx ?_
    obtain ⟨y, hy, hgone, hyrun⟩ := hrun
    rw [hagent] at hy
    rw [hpolled, Finset.mem_insert] at hyrun
    rcases hyrun with haborted | rfl | hk
    · exact ⟨y, hy, hgone, .inl haborted⟩
    · exact runs_of_mover hs rfl
    · exact ⟨y, hy, hgone, .inr hk⟩
  | yield k' =>
    obtain ⟨-, hagent, hpolled⟩ := step_yield_iff.mp hs
    exact iff_of_true (hgoesOn (.of_eq (by rw [hagent])) (hpolled ▸ Finset.erase_subset k' _)) trivial
  | agent a =>
    by_cases hfin : ∃ i how, a = .finish i how
    · obtain ⟨i, how, rfl⟩ := hfin
      exact onlyLiveRun_finish_iff h hs
    obtain ⟨-, hagent, hpolled⟩ := step_agent_iff.mp hs
    have hsub : r'.polled ⊆ r.polled := hpolled ▸ Finset.filter_subset _ _
    have hclean : r.EndsCleanly (.agent a) := by
      cases a with
      | finish i how => exact absurd ⟨i, how, rfl⟩ hfin
      | _ => trivial
    refine iff_of_true ?_ hclean
    rcases hw.continues_step hagent with rfl | hfin' | hcont
    · obtain ⟨-, hadd⟩ := State.step_startSession_iff.mp hagent
      intro k x' hx' hrun
      rcases Machine.getElem?_concat_cases ((congrArg State.sessions hadd) ▸ hx') with hx | ⟨-, rfl⟩
      · refine h k x' hx ?_
        obtain ⟨y, hy, hgone, hyrun⟩ := hrun
        rw [hx', Option.some.injEq] at hy
        subst hy
        exact ⟨x', hx, hgone, hyrun.imp id fun hk => hsub hk⟩
      · simp [Session.live, Session.new]
    · exact absurd hfin' hfin
    · exact hgoesOn hcont hsub

/-- **The tasks of a session end with it exactly when no session ends on a path that leaves them
running.** In every run of the agent under the runtime, no task of an ended session takes a step, and
in every state none of them could take one and at most one forwarder can drain the buffer, if and only
if every session that ended found each of its tasks ended or aborted it between two polls. -/
theorem torn_down_iff_ends_cleanly (nodeId : String) (clock : Int64) (intervalMs : UInt64)
    (as : List Act) (t : Runtime)
    (hrun : Machine.run step (.init nodeId clock intervalMs) as = some t) :
    Machine.Always step TornDown (.init nodeId clock intervalMs) as ∧
        Machine.Along step QuietAfterEnd (.init nodeId clock intervalMs) as ↔
      Machine.Along step EndsCleanly (.init nodeId clock intervalMs) as := by
  have hiff := Machine.always_iff_along (Q := TornDown) (P := EndsCleanly)
    (I := fun r => r.agent.WaitersSound ∧ r.agent.OneLive)
    (fun r act r' hI hs => by
      rcases step_cases hs with ⟨a, -, ha⟩ | ⟨-, hsame⟩
      · exact ⟨hI.1.step ha, hI.2.step hI.1 ha⟩
      · exact hsame ▸ hI)
    (fun r act r' hI hQ hs => by
      have hlive : r'.agent.OneLive := by
        rcases step_cases hs with ⟨a, -, ha⟩ | ⟨-, hsame⟩
        · exact hI.2.step hI.1 ha
        · exact hsame ▸ hI.2
      rw [tornDown_iff hlive]
      exact onlyLiveRun_step_iff hI.1 hQ.ended hs)
    ⟨State.waitersSound_init nodeId clock intervalMs, State.oneLive_init nodeId clock intervalMs⟩
    ((tornDown_iff (State.oneLive_init _ _ _)).mpr (by simp [OnlyLiveRun, init, State.init]))
    hrun
  rw [← hiff]
  exact ⟨And.left, fun h => ⟨h, h.along (fun r act r' hQ hs => hQ.quiet hs) hrun⟩⟩

/-- The forwarder of a session drains and starts to wait before the server closes the stream, and is
dropped before the next session starts. -/
def closedRun : List Act :=
  [.agent .startSession, .poll (0, .forwarder), .agent (.drain 0), .agent (.park 0),
    .agent (.within 0 .established), .agent (.finish 0 .serverClosed), .agent (.reapForwarder 0),
    .agent .startSession]

theorem torn_down_when_server_closes :
    Machine.Always step TornDown (.init "node-01" 0 5000) closedRun :=
  (torn_down_iff_ends_cleanly "node-01" 0 5000 _ _ (Option.some_get (by decide)).symm).mpr
    (by decide) |>.1

/-- The first session ends when its stream cannot be established, the second one starts, and a
snapshot is pushed. -/
def orphanRun : List Act :=
  [.agent .startSession, .agent (.finish 0 .streamFailed), .agent .startSession,
    .agent (.collect 7), .agent .push, .poll (0, .forwarder)]

/-- **An orphaned forwarder drains the buffer.** While the second session is live, the forwarder of
the first one takes the snapshot. -/
theorem orphan_drains_after_failed_stream :
    ∃ t t', Machine.run step (.init "node-01" 0 5000) orphanRun = some t ∧
      t.step (.agent (.drain 0)) = some t' ∧ t.agent.holdback.inner ≠ [] ∧
      t'.agent.holdback.inner = [] ∧ ¬ t.TornDown ∧ ¬ t.QuietAfterEnd (.agent (.drain 0)) := by
  have hended : ∀ h, ∃ x, ((Machine.run step (.init "node-01" 0 5000) orphanRun).get
      h).agent.sessions[0]? = some x ∧ ¬ x.live := fun _ => ⟨_, rfl, by decide⟩
  obtain ⟨x, hx, hdead⟩ := hended (by decide)
  exact ⟨_, _, (Option.some_get (by decide)).symm, (Option.some_get (by decide)).symm, by decide,
    by decide, not_tornDown_of_mover (k := (0, .forwarder)) (Option.some_get (by decide)).symm rfl
      hx hdead⟩

/-- The server closes the stream while the forwarder is on its way to the lock, and a snapshot is
pushed. -/
def overtakenRun : List Act :=
  [.agent .startSession, .agent (.within 0 .established), .poll (0, .forwarder),
    .agent (.finish 0 .serverClosed), .agent (.collect 7), .agent .push]

/-- So does a forwarder whose abort comes during its poll. -/
theorem overtaken_drains_after_abort :
    ∃ t t', Machine.run step (.init "node-01" 0 5000) overtakenRun = some t ∧
      t.step (.agent (.drain 0)) = some t' ∧ t.agent.holdback.inner ≠ [] ∧
      t'.agent.holdback.inner = [] ∧ ¬ t.TornDown ∧ ¬ t.QuietAfterEnd (.agent (.drain 0)) := by
  have hended : ∀ h, ∃ x, ((Machine.run step (.init "node-01" 0 5000) overtakenRun).get
      h).agent.sessions[0]? = some x ∧ ¬ x.live := fun _ => ⟨_, rfl, by decide⟩
  obtain ⟨x, hx, hdead⟩ := hended (by decide)
  exact ⟨_, _, (Option.some_get (by decide)).symm, (Option.some_get (by decide)).symm, by decide,
    by decide, not_tornDown_of_mover (k := (0, .forwarder)) (Option.some_get (by decide)).symm rfl
      hx hdead⟩

end Runtime

end Hakuraku.Agent

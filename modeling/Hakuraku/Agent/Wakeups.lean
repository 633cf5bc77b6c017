import Hakuraku.Agent.Books

/-!
# Wake-ups of the forwarders

Reference: `pulse-agent/src/main.rs`, `run_session` and `collection_loop`.

The collector pushes a snapshot and then calls `notify_one`; a forwarder drains the buffer, sends
what it drained and then awaits `notified()`. A push may fall anywhere into this loop, several
forwarders share one `Notify`, and the one that is woken may be dropped before it resumes.

What rules out a lost wake-up is that a snapshot in the buffer comes with a signal that has not been
spent on it: a stored permit, or a forwarder that a notification has set off and that has not reached
the lock. `Signalled` says so, and only a drain, which empties the buffer, uses a signal up.
-/

namespace Hakuraku.Agent

/-- The forwarder has not returned and has not been dropped. -/
def Forwarder.live (fwd : Forwarder) : Prop := fwd ≠ .done

/-- The forwarder has been set off by a notification and has not reached the lock. -/
def Forwarder.woken : Forwarder → Bool
  | .notified | .draining => true
  | _ => false

theorem Forwarder.of_woken {fwd : Forwarder} (h : fwd.woken = true) :
    fwd.live ∧ fwd ≠ .waiting := by
  cases fwd <;> simp_all [woken, live]

/-- No event of a session makes its forwarder a waiter, or stops one that has been woken. -/
theorem Session.step_woken {nodeId : String} {x x' : Session} {event : Session.Event}
    (h : x.step nodeId event = some x') :
    (x'.forwarder = .waiting → x.forwarder = .waiting) ∧
      (x.forwarder.woken = true → x'.forwarder.woken = true) := by
  unfold step at h
  split at h <;> repeat' split at h
  all_goals
    cases h
    try simp_all [Forwarder.woken]

namespace State

variable {s s' : State} {a : Act} {i : ℕ} {x y : Session}

/-- `Notify` keeps its contract: a forwarder that waits is registered, and there is no permit while
one waits. -/
structure NotifySound (s : State) : Prop where
  waiters : s.WaitersSound
  registered : ∀ (i : ℕ) (x : Session),
    s.sessions[i]? = some x → x.forwarder = .waiting → i ∈ s.waiters
  permit : s.permit = true → s.waiters = []

/-- There is a permit, or a forwarder that has been woken. -/
def Signalled (s : State) : Prop :=
  s.permit = true ∨ ∃ x ∈ s.sessions, x.forwarder.woken = true

/-! ## One session is replaced -/

/-- A session may be replaced if its forwarder does not start to wait. -/
theorem NotifySound.setSession (h : s.NotifySound) (hsound : (s.setSession i y).WaitersSound)
    (hx : s.sessions[i]? = some x) (hy : y.forwarder = .waiting → x.forwarder = .waiting) :
    (s.setSession i y).NotifySound := by
  refine ⟨hsound, fun j z hz hw => ?_, h.permit⟩
  rcases Machine.getElem?_set_cases hz with ⟨rfl, rfl⟩ | ⟨-, hz⟩
  · exact h.registered i x hx (hy hw)
  · exact h.registered j z hz hw

/-- A signal survives unless it is the replaced session's. -/
theorem Signalled.setSession (h : s.Signalled) (hx : s.sessions[i]? = some x)
    (hy : x.forwarder.woken = true → y.forwarder.woken = true) : (s.setSession i y).Signalled := by
  rcases h with hp | ⟨z, hz, hw⟩
  · exact .inl hp
  · obtain ⟨j, hj⟩ := List.getElem?_of_mem hz
    by_cases hij : i = j
    · subst hij
      rw [hx, Option.some.injEq] at hj
      subst hj
      exact .inr ⟨y, List.mem_of_getElem? (getElem?_setSession_self hx), hy hw⟩
    · exact .inr ⟨z, List.mem_of_getElem? ((getElem?_setSession_of_ne hij).trans hj), hw⟩

/-- A forwarder that is woken is a signal. -/
theorem signalled_setSession (hx : s.sessions[i]? = some x) (hy : y.forwarder.woken = true) :
    (s.setSession i y).Signalled :=
  .inr ⟨y, List.mem_of_getElem? (getElem?_setSession_self hx), hy⟩

/-! ## `notify_one` -/

/-- `notify_one` gives a signal. -/
theorem WaitersSound.signalled_notifyOne (h : s.WaitersSound) : s.notifyOne.Signalled := by
  rcases h.notifyOne_cases with ⟨-, heq⟩ | ⟨i, rest, x, -, hx, -, heq⟩
  · rw [heq]
    exact .inl rfl
  · rw [heq]
    exact signalled_setSession (s := { s with waiters := rest }) hx rfl

theorem NotifySound.notifyOne (h : s.NotifySound) : s.notifyOne.NotifySound := by
  have hsound := h.waiters.notifyOne
  rcases h.waiters.notifyOne_cases with ⟨hnil, heq⟩ | ⟨i, rest, x, hw, -, -, heq⟩
  · rw [heq]
    exact ⟨heq ▸ hsound, h.registered, fun _ => hnil⟩
  · rw [heq] at hsound ⊢
    refine ⟨hsound, fun j z hz hwait => ?_, fun hp => ?_⟩
    · rcases Machine.getElem?_set_cases hz with ⟨rfl, rfl⟩ | ⟨hij, hz⟩
      · exact absurd hwait (by simp)
      · have hmem := h.registered j z hz hwait
        rw [hw, List.mem_cons] at hmem
        exact hmem.resolve_left (Ne.symm hij)
    · exact absurd (h.permit hp) (by simp [hw])

/-! ## The steps -/

theorem notifySound_init (nodeId : String) (clock : Int64) (intervalMs : UInt64) :
    (init nodeId clock intervalMs).NotifySound :=
  ⟨waitersSound_init _ _ _, by simp [init], by simp [init]⟩

theorem NotifySound.step (h : s.NotifySound) (hs : s.step a = some s') : s'.NotifySound := by
  have hsound := h.waiters.step hs
  cases a with
  | collect now =>
    obtain ⟨-, rfl⟩ := step_collect_iff.mp hs
    exact ⟨hsound, h.registered, h.permit⟩
  | push =>
    obtain ⟨sample, -, rfl⟩ := step_push_iff.mp hs
    exact ⟨hsound, h.registered, h.permit⟩
  | notifyOne =>
    obtain ⟨-, rfl⟩ := step_notifyOne_iff.mp hs
    have hidle : ({ s with collector := .idle } : State).NotifySound :=
      ⟨⟨h.waiters.nodup, h.waiters.waiting⟩, h.registered, h.permit⟩
    exact hidle.notifyOne
  | startSession =>
    obtain ⟨-, rfl⟩ := step_startSession_iff.mp hs
    refine ⟨hsound, fun i x hx hw => ?_, h.permit⟩
    rcases Machine.getElem?_concat_cases hx with hx | ⟨-, rfl⟩
    · exact h.registered i x hx hw
    · -- the new session's forwarder has not been polled
      exact absurd hw (by simp [Session.new])
  | drain i =>
    obtain ⟨x, hx, -, rfl⟩ := step_drain_iff.mp hs
    have hdrained : ({ s with holdback := s.holdback.drain.2 } : State).NotifySound :=
      ⟨⟨h.waiters.nodup, h.waiters.waiting⟩, h.registered, h.permit⟩
    exact hdrained.setSession hsound hx (by simp)
  | park i =>
    obtain ⟨x, hx, hf, rfl⟩ := step_park_iff.mp hs
    revert hsound
    split
    · intro hsound
      have hspent : ({ s with permit := false } : State).NotifySound :=
        ⟨⟨h.waiters.nodup, h.waiters.waiting⟩, h.registered, by simp⟩
      exact hspent.setSession hsound hx (by simp)
    · rename_i hpermit
      intro hsound
      refine ⟨hsound, fun j z hz hw => ?_, fun hp => absurd hp hpermit⟩
      rcases Machine.getElem?_set_cases hz with ⟨rfl, -⟩ | ⟨-, hz⟩
      · exact List.mem_append_right _ (List.mem_singleton_self _)
      · exact List.mem_append_left _ (h.registered j z hz hw)
  | reapForwarder i =>
    obtain ⟨x, hx, -, rfl⟩ := step_reapForwarder_iff.mp hs
    revert hsound
    split
    · -- the dropped waiter leaves the list, and every other waiter stays in it
      intro hsound
      refine ⟨hsound, fun j z hz hw => ?_, fun hp => by simp [h.permit hp]⟩
      rcases Machine.getElem?_set_cases hz with ⟨rfl, rfl⟩ | ⟨hij, hz⟩
      · exact absurd hw (by simp)
      · exact (List.mem_erase_of_ne (Ne.symm hij)).mpr (h.registered j z hz hw)
    · rename_i hf
      intro _
      have hreaped := h.waiters.setSession_of_not_mem (y := { x with forwarder := .done })
        (h.waiters.not_mem hx (by simp [hf]))
      exact (h.setSession hreaped hx (by simp)).notifyOne
    · exact fun hsound => h.setSession hsound hx (by simp)
  | finish i how =>
    obtain ⟨x, hx, -, rfl⟩ := step_finish_iff.mp hs
    exact h.setSession hsound hx id
  | cancel =>
    obtain rfl := Option.some.inj hs
    exact ⟨hsound, h.registered, h.permit⟩
  | within i event =>
    obtain ⟨x, hx, x', hx', t, ht, rfl⟩ := step_within_iff.mp hs
    obtain ⟨clock, intervalMs, rfl⟩ := observe_eq ht
    have hclock : ({ s with clock, intervalMs } : State).NotifySound :=
      ⟨⟨h.waiters.nodup, h.waiters.waiting⟩, h.registered, h.permit⟩
    exact hclock.setSession hsound hx (Session.step_woken hx').1

/-- A non-empty buffer has a signal, unless `notify_one` is about to give one. -/
def Pending (s : State) : Prop :=
  s.holdback.inner ≠ [] → s.collector ≠ .pushed → s.Signalled

/-- **A signal is spent only on a drain.** Every step from a state whose buffer has a signal leads to
such a state. -/
theorem Pending.step (h : s.Pending) (hsound : s.NotifySound) (hs : s.step a = some s') :
    s'.Pending := by
  intro hne hcoll
  cases a with
  | collect now =>
    obtain ⟨⟨hidle, -⟩, rfl⟩ := step_collect_iff.mp hs
    exact h hne (by simp [hidle])
  | push =>
    obtain ⟨sample, -, rfl⟩ := step_push_iff.mp hs
    exact absurd rfl hcoll
  | notifyOne =>
    obtain ⟨-, rfl⟩ := step_notifyOne_iff.mp hs
    have hidle : ({ s with collector := .idle } : State).WaitersSound :=
      ⟨hsound.waiters.nodup, hsound.waiters.waiting⟩
    exact hidle.signalled_notifyOne
  | startSession =>
    obtain ⟨-, rfl⟩ := step_startSession_iff.mp hs
    refine (h hne hcoll).imp id ?_
    rintro ⟨x, hx, hw⟩
    exact ⟨x, List.mem_append_left _ hx, hw⟩
  | drain i =>
    obtain ⟨x, -, -, rfl⟩ := step_drain_iff.mp hs
    exact absurd rfl hne
  | park i =>
    obtain ⟨x, hx, hf, rfl⟩ := step_park_iff.mp hs
    revert hne hcoll
    split
    · -- the forwarder takes the permit with it to the lock
      intro _ _
      exact signalled_setSession (s := { s with permit := false }) hx rfl
    · intro hne hcoll
      have hsig : ({ s with waiters := s.waiters ++ [i] } : State).Signalled := h hne hcoll
      exact hsig.setSession hx (by simp [hf, Forwarder.woken])
  | reapForwarder i =>
    obtain ⟨x, hx, ⟨-, hsusp⟩, rfl⟩ := step_reapForwarder_iff.mp hs
    revert hne hcoll
    split
    · rename_i hf
      intro hne hcoll
      exact (h hne hcoll).setSession hx (by simp [hf, Forwarder.woken])
    · -- a notification that has not been used is passed on
      rename_i hf
      intro _ _
      exact (hsound.waiters.setSession_of_not_mem
        (hsound.waiters.not_mem hx (by simp [hf]))).signalled_notifyOne
    · -- an abort does not take effect between the wake-up and the lock
      rename_i hnotified
      intro hne hcoll
      refine (h hne hcoll).setSession hx fun hw => ?_
      cases hf : x.forwarder <;> simp_all [Forwarder.woken, Forwarder.suspended]
  | finish i how =>
    obtain ⟨x, hx, -, rfl⟩ := step_finish_iff.mp hs
    exact (h hne hcoll).setSession hx id
  | cancel =>
    obtain rfl := Option.some.inj hs
    exact h hne hcoll
  | within i event =>
    obtain ⟨x, hx, x', hx', t, ht, rfl⟩ := step_within_iff.mp hs
    obtain ⟨clock, intervalMs, rfl⟩ := observe_eq ht
    have hsig : ({ s with clock, intervalMs } : State).Signalled := h hne hcoll
    exact hsig.setSession hx (Session.step_woken hx').2

/-- What the tasks keep true of the buffer and of `notify`. -/
theorem wakeful_of_run {nodeId : String} {clock : Int64} {intervalMs : UInt64} {as : List Act}
    {t : State} (hrun : Machine.run State.step (.init nodeId clock intervalMs) as = some t) :
    t.NotifySound ∧ t.Pending := by
  refine Machine.run_invariant (I := fun s => s.NotifySound ∧ s.Pending) ?_ ?_ hrun
  · rintro s a s' ⟨hsound, hpending⟩ hs
    exact ⟨hsound.step hs, hpending.step hsound hs⟩
  · exact ⟨notifySound_init _ _ _, fun hne => absurd rfl hne⟩

/-- **No wake-up is lost.** In every reachable state in which the collector is not between its push
and its `notify_one` and some forwarder is live, a non-empty holdback buffer finds a live forwarder
that is not parked without a notification. -/
theorem some_forwarder_awake (nodeId : String) (clock : Int64) (intervalMs : UInt64)
    (as : List Act) (t : State)
    (hrun : Machine.run State.step (.init nodeId clock intervalMs) as = some t)
    (hlive : ∃ x ∈ t.sessions, x.forwarder.live) (hcoll : t.collector ≠ .pushed)
    (hne : t.holdback.inner ≠ []) :
    ∃ x ∈ t.sessions, x.forwarder.live ∧ x.forwarder ≠ .waiting := by
  obtain ⟨hsound, hpending⟩ := wakeful_of_run hrun
  rcases hpending hne hcoll with hp | ⟨x, hx, hw⟩
  · -- with a permit stored no forwarder waits
    obtain ⟨x, hx, hl⟩ := hlive
    refine ⟨x, hx, hl, fun hwait => ?_⟩
    obtain ⟨i, hi⟩ := List.getElem?_of_mem hx
    have hmem := hsound.registered i x hi hwait
    rw [hsound.permit hp] at hmem
    exact absurd hmem (by simp)
  · exact ⟨x, hx, Forwarder.of_woken hw⟩

/-- A snapshot is pushed and announced while the forwarder waits. -/
theorem some_forwarder_awake_after_push :
    ∃ t, Machine.run State.step (.init "node-01" 0 5000)
        [.startSession, .drain 0, .park 0, .collect 7, .push, .notifyOne] = some t ∧
      ∃ x ∈ t.sessions, x.forwarder.live ∧ x.forwarder ≠ .waiting :=
  ⟨_, (Option.some_get (by decide)).symm,
    some_forwarder_awake "node-01" 0 5000 _ _ (Option.some_get (by decide)).symm
      ⟨_, List.mem_cons_self, by simp [Forwarder.live]⟩ (by decide) (by decide)⟩

end State

end Hakuraku.Agent

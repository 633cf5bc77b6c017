import Hakuraku.Agent.Books

/-!
# What the agent loses

Reference: `pulse-agent/src/main.rs`, `run_session`; `README.md`, the reliability features.

`NothingLost` says that every snapshot pushed to the holdback buffer is accounted for in exactly one
way: the request stream has taken it, it waits in the buffer or in the live session, or a push has
discarded it for a newer one. In the books this is the equation `secured = pushed`.

`run_session` drains the buffer before it knows the stream to be established and gives nothing back
when it ends. So the steps that lose snapshots are those that leave some behind: a session ends
while its forwarder or its channel holds some, a forwarder that has outlived its session drains the
buffer, or the receiver goes while there are snapshots on the way to it. `StrandsNothing` is the
guard that excludes them, and a run keeps `NothingLost` exactly if it is guarded throughout.
-/

namespace Hakuraku.Agent

namespace Session

variable {nodeId : String} {x x' : Session} {event : Event}

/-- A step of a session leaves no snapshot behind: no live session's forwarder finds the channel
closed, and no live session's receiver goes while the channel holds snapshots. -/
def StrandsNothing (x : Session) : Event → Prop
  | .sendFails => ¬ x.live
  | .closeReceiver => x.live → statsOf x.channel = []
  | _ => True

instance (x : Session) : DecidablePred x.StrandsNothing
  | .sendFails => inferInstanceAs (Decidable (¬ x.live))
  | .closeReceiver => inferInstanceAs (Decidable (x.live → _ = _))
  | .established | .command _ | .send | .resume | .tick _ | .sendHeartbeat | .sendHeartbeatFails
  | .sendProbe _ | .sendProbeFails | .take | .reapHeartbeat => isTrue trivial

/-- A session accounts for all it carries unless it has ended with snapshots in flight. -/
theorem secured_eq_carried_iff : x.secured = x.carried ↔ (¬ x.live → x.inFlight = 0) := by
  by_cases hlive : x.live
  · simp [secured, carried, hlive]
  · rw [secured, carried, if_neg hlive, add_right_inj, eq_comm, forall_prop_of_true hlive]

/-- Two accounts that agree on what was taken agree if they agree on what is in flight. -/
theorem secured_eq_iff (ht : x'.taken = x.taken) (hl : x'.live ↔ x.live) :
    x'.secured = x.secured ↔ (x.live → x'.inFlight = x.inFlight) := by
  by_cases hlive : x.live
  · rw [secured, secured, ht, if_pos hlive, if_pos (hl.mpr hlive), add_right_inj,
      forall_prop_of_true hlive]
  · have hlive' : ¬ x'.live := fun h => hlive (hl.mp h)
    rw [secured, secured, ht, if_neg hlive, if_neg hlive', forall_prop_of_false hlive]
    exact iff_of_true rfl trivial

/-- The request stream of a session that accounts for all it carries takes nothing unaccounted. -/
theorem secured_take (h : x.step nodeId .take = some x') (hx : x.secured = x.carried) :
    x'.secured = x.secured := by
  have hlive : x'.live ↔ x.live := (step_frame h).1
  have hcarried := carried_take h
  by_cases hl : x.live
  · have hl' := hlive.mpr hl
    simpa only [secured, carried, if_pos hl, if_pos hl'] using hcarried
  · -- an ended session's channel holds no snapshot
    have hzero : x.inFlight = 0 := secured_eq_carried_iff.mp hx hl
    obtain ⟨msg, rest, -, -, rfl⟩ := step_take_iff.mp h
    refine (secured_eq_iff (le_antisymm ?_ ?_) hlive).mpr fun hl' => absurd hl' hl
    · calc taken { x with channel := rest, sent := x.sent ++ [msg] }
          ≤ carried { x with channel := rest, sent := x.sent ++ [msg] } := Multiset.le_add_right _ _
        _ = x.carried := hcarried
        _ = x.taken := by rw [carried, hzero, add_zero]
    · simp only [taken, statsOf_append, ← Multiset.coe_add]
      exact Multiset.le_add_right _ _

/-- A step keeps a session's account exactly if it leaves nothing behind. -/
theorem step_secured_iff (h : x.step nodeId event = some x') (hx : x.secured = x.carried) :
    x'.secured = x.secured ↔ x.StrandsNothing event := by
  have hlive : x'.live ↔ x.live := (step_frame h).1
  by_cases hm : event.moves = false
  · obtain ⟨ht, hf⟩ := step_books h hm
    have heq : x'.secured = x.secured := (secured_eq_iff ht hlive).mpr fun _ => hf
    cases event <;> first | exact iff_of_true heq trivial | exact absurd hm (by decide)
  · cases event <;> simp only [Event.moves, not_true_eq_false, Bool.true_eq_false] at hm
    case take => exact iff_of_true (secured_take h hx) trivial
    case closeReceiver =>
      obtain ⟨-, rfl⟩ := step_closeReceiver_iff.mp h
      rw [secured_eq_iff (by rfl) hlive]
      simp only [inFlight, StrandsNothing, statsOf_nil, add_right_inj, Multiset.coe_eq_coe,
        List.nil_perm]
    case sendFails =>
      obtain ⟨msg, rest, hf, -, rfl⟩ := step_sendFails_iff.mp h
      rw [secured_eq_iff (by rfl) hlive]
      simp only [inFlight, StrandsNothing, hf, Forwarder.drained, add_left_inj,
        Multiset.coe_eq_coe, List.nil_perm, reduceCtorEq, imp_false]

end Session

namespace State

variable {s s' : State} {a : Act} {i : ℕ} {x : Session}

/-! ## Nothing is lost -/

/-- A request stream has taken the snapshot. -/
def Taken (s : State) (m : Sample) : Prop := ∃ x ∈ s.sessions, .stats m ∈ x.sent

/-- The snapshot is in the holdback buffer, or on its way in the live session. -/
def Waiting (s : State) (m : Sample) : Prop :=
  m ∈ s.holdback.inner ∨
    ∃ x ∈ s.sessions, x.live ∧ (m ∈ x.forwarder.drained ∨ .stats m ∈ x.channel)

/-- A push at capacity has discarded the snapshot. -/
def Discarded (s : State) (m : Sample) : Prop := m ∈ s.discarded

instance (s : State) : DecidablePred s.Taken := fun _ => inferInstanceAs (Decidable (∃ x ∈ _, _))

instance (s : State) : DecidablePred s.Waiting := fun _ => inferInstanceAs (Decidable (_ ∨ ∃ x ∈ _, _))

instance (s : State) : DecidablePred s.Discarded := fun _ => inferInstanceAs (Decidable (_ ∈ _))

/-- Every snapshot pushed is in exactly one of the three cases. -/
def NothingLost (s : State) : Prop :=
  ∀ m ∈ s.pushed,
    s.Taken m ∧ ¬ s.Waiting m ∧ ¬ s.Discarded m ∨
    ¬ s.Taken m ∧ s.Waiting m ∧ ¬ s.Discarded m ∨
    ¬ s.Taken m ∧ ¬ s.Waiting m ∧ s.Discarded m

instance (s : State) : Decidable s.NothingLost := inferInstanceAs (Decidable (∀ m ∈ s.pushed, _))

theorem mem_taken_iff {m : Sample} : m ∈ (s.sessions.map Session.taken).sum ↔ s.Taken m := by
  rw [Sums.mem_sum_map]
  exact exists_congr fun x => and_congr_right fun _ => mem_statsOf

theorem mem_waiting_iff {m : Sample} :
    m ∈ (s.holdback.inner : Multiset Sample) +
      (s.sessions.map fun x => if x.live then x.inFlight else 0).sum ↔ s.Waiting m := by
  rw [Multiset.mem_add, Sums.mem_sum_map]
  refine or_congr Iff.rfl (exists_congr fun x => and_congr_right fun _ => ?_)
  by_cases hl : x.live
  · rw [if_pos hl, and_iff_right hl, Session.inFlight, Multiset.mem_add]
    exact or_congr Iff.rfl mem_statsOf
  · simp [hl]

/-- The three cases are the parts of what is secured. -/
theorem secured_eq (s : State) :
    s.secured = s.discarded + ((s.holdback.inner : Multiset Sample) +
      (s.sessions.map fun x => if x.live then x.inFlight else 0).sum) +
        (s.sessions.map Session.taken).sum := by
  have hsum : (s.sessions.map Session.secured).sum = (s.sessions.map Session.taken).sum +
      (s.sessions.map fun x => if x.live then x.inFlight else 0).sum := List.sum_map_add
  rw [secured, books, hsum]
  ac_rfl

theorem mem_secured_iff {m : Sample} :
    m ∈ s.secured ↔ s.Discarded m ∨ s.Waiting m ∨ s.Taken m := by
  rw [secured_eq, Multiset.mem_add, Multiset.mem_add, mem_waiting_iff, mem_taken_iff, or_assoc]
  rfl

/-- No snapshot is in two of the three cases. -/
theorem Sound.exclusive (h : s.Sound) {m : Sample} :
    ¬ (s.Discarded m ∧ s.Waiting m) ∧ ¬ (s.Discarded m ∧ s.Taken m) ∧
      ¬ (s.Waiting m ∧ s.Taken m) := by
  have hnodup : s.secured.Nodup :=
    Multiset.nodup_of_le (s.secured_le_held.trans h.held_le) (Multiset.coe_nodup.mpr h.numbered.nodup)
  rw [secured_eq, Multiset.nodup_add, Multiset.nodup_add] at hnodup
  obtain ⟨⟨-, -, hdw⟩, -, hall⟩ := hnodup
  rw [Multiset.disjoint_left] at hdw hall
  refine ⟨fun ⟨hd, hw⟩ => hdw hd (mem_waiting_iff.mpr hw),
    fun ⟨hd, ht⟩ => hall (Multiset.mem_add.mpr (.inl hd)) (mem_taken_iff.mpr ht),
    fun ⟨hw, ht⟩ => hall (Multiset.mem_add.mpr (.inr (mem_waiting_iff.mpr hw)))
      (mem_taken_iff.mpr ht)⟩

/-- **Nothing is lost exactly if the books balance.** -/
theorem Sound.nothingLost_iff (h : s.Sound) : s.NothingLost ↔ s.secured = s.pushed := by
  have hle : s.secured ≤ s.pushed := s.secured_le_held.trans h.held_le
  have hpushed : (s.pushed : Multiset Sample).Nodup := Multiset.coe_nodup.mpr h.numbered.nodup
  constructor
  · intro hall
    refine le_antisymm hle ((Multiset.le_iff_subset hpushed).mpr fun m hm => ?_)
    have hm' := hall m hm
    rw [mem_secured_iff]
    tauto
  · intro heq m hm
    have hm' : m ∈ s.secured := heq ▸ hm
    rw [mem_secured_iff] at hm'
    have hex := h.exclusive (m := m)
    tauto

/-! ## The steps that lose nothing -/

/-- A step leaves no snapshot behind. -/
def StrandsNothing (s : State) : Act → Prop
  -- a forwarder that has outlived its session finds the buffer empty
  | .drain i => ∀ x ∈ s.sessions[i]?, ¬ x.live → s.holdback.inner = []
  -- a session ends with nothing drained and not taken
  | .finish i _ => ∀ x ∈ s.sessions[i]?, x.forwarder.drained = [] ∧ statsOf x.channel = []
  | .within i event => ∀ x ∈ s.sessions[i]?, x.StrandsNothing event
  | _ => True

instance (s : State) : DecidablePred s.StrandsNothing
  | .drain i => inferInstanceAs (Decidable (∀ x ∈ s.sessions[i]?, _))
  | .finish i _ => inferInstanceAs (Decidable (∀ x ∈ s.sessions[i]?, _ ∧ _))
  | .within i _ => inferInstanceAs (Decidable (∀ x ∈ s.sessions[i]?, _))
  | .collect _ | .push | .notifyOne | .startSession | .park _ | .reapForwarder _ | .cancel =>
    isTrue trivial

/-- When the books balance, every session accounts for all it carries. -/
theorem secured_eq_carried_of_balanced (h : s.Sound) (hb : s.secured = s.pushed) :
    ∀ x ∈ s.sessions, x.secured = x.carried := by
  have hheld : s.secured = s.held := le_antisymm s.secured_le_held (hb ▸ h.held_le)
  have hsum : (s.sessions.map Session.secured).sum = (s.sessions.map Session.carried).sum :=
    add_left_cancel hheld
  exact Sums.eq_of_sum_map_eq (fun x _ => Session.secured_le_carried x) hsum

/-- Replacing a session keeps the balance exactly if the new one accounts for the same. -/
theorem secured_setSession_eq_iff {y : Session} (hx : s.sessions[i]? = some x) :
    (s.setSession i y).secured = s.secured ↔ y.secured = x.secured := by
  have h : (s.setSession i y).secured + x.secured = s.secured + y.secured := books_setSession hx
  constructor
  · intro heq
    rw [heq, add_right_inj] at h
    exact h.symm
  · intro heq
    rw [heq] at h
    exact add_right_cancel h

/-- A drain keeps the balance exactly if the forwarder's session is live or there is nothing to
drain. -/
theorem secured_drain_eq_iff (hx : s.sessions[i]? = some x) (hf : x.forwarder.atLock = true) :
    ({ s with holdback := s.holdback.drain.2 }.setSession i
      { x with forwarder := .sending s.holdback.inner }).secured = s.secured ↔
        (¬ x.live → s.holdback.inner = []) := by
  have hbooks := books_drain (f := Session.secured)
    (y := { x with forwarder := .sending s.holdback.inner }) hx
  have hy := x.secured_forwarder (.sending s.holdback.inner)
  rw [(Forwarder.of_atLock hf).2.2, Multiset.coe_nil, ite_self, add_zero, Forwarder.drained] at hy
  rw [hy] at hbooks
  by_cases hl : x.live
  · rw [if_pos hl, add_assoc, add_left_inj] at hbooks
    exact iff_of_true hbooks fun hl' => absurd hl hl'
  · rw [if_neg hl, add_zero, add_right_comm, add_left_inj] at hbooks
    change State.secured _ + _ = State.secured s at hbooks
    rw [← hbooks, left_eq_add, Multiset.coe_eq_zero, forall_prop_of_true hl]

/-- **A step from a state in which nothing is lost loses nothing exactly if it strands nothing.** -/
theorem Sound.secured_step_iff (h : s.Sound) (hb : s.secured = s.pushed)
    (hs : s.step a = some s') : s'.secured = s'.pushed ↔ s.StrandsNothing a := by
  have hcarried := secured_eq_carried_of_balanced h hb
  cases a with
  | collect now =>
    obtain ⟨-, rfl⟩ := step_collect_iff.mp hs
    exact iff_of_true hb trivial
  | push =>
    obtain ⟨sample, -, rfl⟩ := step_push_iff.mp hs
    refine iff_of_true ?_ trivial
    rw [secured, books_push, ← Multiset.coe_add]
    exact congrArg (· + _) hb
  | notifyOne =>
    obtain ⟨-, rfl⟩ := step_notifyOne_iff.mp hs
    have hidle : ({ s with collector := .idle } : State).WaitersSound :=
      ⟨h.waiters.nodup, h.waiters.waiting⟩
    obtain ⟨permit, waiters, sessions, heq⟩ := notifyOne_eq { s with collector := .idle }
    refine iff_of_true ?_ trivial
    rw [secured, hidle.books_notifyOne fun x hw =>
      Session.secured_forwarder_of_nil (by simp [hw, Forwarder.drained]) rfl, heq]
    exact hb
  | startSession =>
    obtain ⟨-, rfl⟩ := step_startSession_iff.mp hs
    refine iff_of_true ?_ trivial
    rw [secured, books_startSession Session.secured_new]
    exact hb
  | drain i =>
    obtain ⟨x, hx, hf, rfl⟩ := step_drain_iff.mp hs
    have hiff := secured_drain_eq_iff hx hf
    rw [hb] at hiff
    simp only [StrandsNothing, hx, Option.mem_def, Option.some.injEq, forall_eq']
    exact hiff
  | park i =>
    obtain ⟨x, hx, hf, rfl⟩ := step_park_iff.mp hs
    have hnil : x.forwarder.drained = [] := by simp [hf, Forwarder.drained]
    refine iff_of_true ?_ trivial
    split
    · exact ((secured_setSession_eq_iff (s := { s with permit := false }) hx).mpr
        (Session.secured_forwarder_of_nil hnil rfl)).trans hb
    · exact ((secured_setSession_eq_iff (s := { s with waiters := s.waiters ++ [i] }) hx).mpr
        (Session.secured_forwarder_of_nil hnil rfl)).trans hb
  | reapForwarder i =>
    obtain ⟨x, hx, ⟨habs, -⟩, rfl⟩ := step_reapForwarder_iff.mp hs
    -- only an ended session's forwarder is reaped, and that one holds nothing
    have hl : ¬ x.live := h.aborted x (List.mem_of_getElem? hx) habs
    have hsame : ({ x with forwarder := .done } : Session).secured = x.secured :=
      (Session.secured_eq_iff (by rfl) (by rfl)).mpr fun hl' => absurd hl' hl
    have hset : (s.setSession i { x with forwarder := .done }).secured = s.pushed :=
      ((secured_setSession_eq_iff hx).mpr hsame).trans hb
    refine iff_of_true ?_ trivial
    split
    · exact hset
    · rename_i hf
      have hsound := h.waiters.setSession_of_not_mem (y := { x with forwarder := .done })
        (h.waiters.not_mem hx (by simp [hf]))
      obtain ⟨permit, waiters, sessions, heq⟩ :=
        notifyOne_eq (s.setSession i { x with forwarder := .done })
      rw [secured, hsound.books_notifyOne fun x hw =>
        Session.secured_forwarder_of_nil (by simp [hw, Forwarder.drained]) rfl, heq]
      exact hset
    · exact hset
  | finish i how =>
    obtain ⟨x, hx, hpos, rfl⟩ := step_finish_iff.mp hs
    have hiff := secured_setSession_eq_iff (y := { x with stage := .ended, aborted := how.aborts }) hx
    rw [hb] at hiff
    simp only [StrandsNothing, hx, Option.mem_def, Option.some.injEq, forall_eq']
    refine hiff.trans ?_
    have hl : x.live := by
      intro hended
      cases how <;> simp [Ending.possible, hended] at hpos
    have hl' : ¬ ({ x with stage := .ended, aborted := how.aborts } : Session).live :=
      fun hl' => hl' rfl
    rw [Session.secured, Session.secured, if_neg hl', if_pos hl, Session.taken, Session.taken,
      add_right_inj, eq_comm, Session.inFlight,
      add_eq_zero_iff_of_nonneg (Multiset.zero_le _) (Multiset.zero_le _), Multiset.coe_eq_zero,
      Multiset.coe_eq_zero]
  | cancel =>
    obtain rfl := Option.some.inj hs
    exact iff_of_true hb trivial
  | within i event =>
    obtain ⟨x, hx, x', hx', t, ht, rfl⟩ := step_within_iff.mp hs
    obtain ⟨clock, intervalMs, rfl⟩ := observe_eq ht
    have hiff := secured_setSession_eq_iff (s := { s with clock, intervalMs }) (y := x') hx
    have hsame : ({ s with clock, intervalMs } : State).secured = s.pushed := hb
    rw [hsame] at hiff
    simp only [StrandsNothing, hx, Option.mem_def, Option.some.injEq, forall_eq']
    exact hiff.trans (Session.step_secured_iff hx' (hcarried x (List.mem_of_getElem? hx)))

theorem secured_init (nodeId : String) (clock : Int64) (intervalMs : UInt64) :
    (init nodeId clock intervalMs).secured = (init nodeId clock intervalMs).pushed := by
  simp [init, secured, books]

/-- **A run of the agent loses nothing exactly if none of its steps strands a snapshot.** -/
theorem nothingLost_iff_strandsNothing {nodeId : String} {clock : Int64} {intervalMs : UInt64}
    {as : List Act} {t : State} (hrun : Machine.run step (init nodeId clock intervalMs) as = some t) :
    Machine.Always step NothingLost (init nodeId clock intervalMs) as ↔
      Machine.Along step StrandsNothing (init nodeId clock intervalMs) as := by
  have hinit := sound_init nodeId clock intervalMs
  refine Machine.always_iff_along (fun s a s' h hs => Sound.step h hs)
    (fun s a s' h hQ hs => ?_) hinit (hinit.nothingLost_iff.mpr (secured_init _ _ _)) hrun
  rw [(Sound.step h hs).nothingLost_iff]
  exact h.secured_step_iff (h.nothingLost_iff.mp hQ) hs

/-- A run in which a snapshot is drained, handed over and taken before the server closes the
stream. -/
def servedRun : List Act :=
  [.startSession, .collect 1000, .push, .notifyOne, .drain 0, .within 0 .send,
    .within 0 .established, .within 0 .take, .park 0, .finish 0 .serverClosed]

theorem nothingLost_servedRun :
    (Machine.run step (init "node-01" 0 1000) servedRun).isSome = true ∧
      Machine.Always step NothingLost (init "node-01" 0 1000) servedRun :=
  ⟨by decide, (nothingLost_iff_strandsNothing (Option.get_mem (by decide))).mpr (by decide)⟩

/-- A run in which `stream_telemetry` fails after the forwarder has drained the buffer. -/
def strandedRun : List Act :=
  [.startSession, .collect 1000, .push, .notifyOne, .drain 0, .finish 0 .streamFailed]

theorem strandedRun_loses_snapshot :
    ∃ t, Machine.run step (init "node-01" 0 1000) strandedRun = some t ∧ ¬ t.NothingLost :=
  ⟨_, (Option.some_get (by decide)).symm, by decide⟩

end State

end Hakuraku.Agent

import Hakuraku.Agent.Session
import Hakuraku.Lib.Sums

/-!
# The agent's books

Reference: `pulse-agent/src/main.rs`, `run_session` and `collection_loop`; `pulse-agent/src/buffer.rs`.

A snapshot that has been pushed moves from the holdback buffer into the drained vector of a
forwarder, from there into the channel of the forwarder's session, and from there into the request
stream. The module keeps books about it with multisets. `held` counts the snapshots in all these
places, of all sessions, and those that a push has discarded. `secured` leaves out what an ended
session has drained and its request stream has not taken.

`Sound` collects what the tasks keep true in every order of their steps: the waiters of `notify` are
the forwarders that wait, snapshots have numbers of their own, and nothing is held that was not
pushed, or held twice.
-/

namespace Hakuraku.Agent

/-! ## The books of a session -/

namespace Session

variable {nodeId : String} {x x' : Session} {event : Event}

/-- The session is the one that `run_session` is running. -/
def live (x : Session) : Prop := x.stage ≠ .ended

instance (x : Session) : Decidable x.live := inferInstanceAs (Decidable (_ ≠ _))

/-- The snapshots between the holdback buffer and the request stream. -/
def inFlight (x : Session) : Multiset Sample := x.forwarder.drained + statsOf x.channel

/-- The snapshots the request stream has taken. -/
def taken (x : Session) : Multiset Sample := statsOf x.sent

/-- All snapshots the session has drained and not dropped. -/
def carried (x : Session) : Multiset Sample := x.taken + x.inFlight

/-- The snapshots that have arrived or are on their way in a live session. -/
def secured (x : Session) : Multiset Sample := x.taken + if x.live then x.inFlight else 0

theorem secured_le_carried (x : Session) : x.secured ≤ x.carried := by
  unfold secured carried
  split
  · exact le_rfl
  · exact add_le_add_right (Multiset.zero_le _) _

/-- What a session accounts for when its forwarder moves on. -/
theorem carried_forwarder (x : Session) (fwd : Forwarder) :
    { x with forwarder := fwd }.carried + x.forwarder.drained = x.carried + fwd.drained := by
  simp only [carried, taken, inFlight]
  ac_rfl

/-- A live session accounts for what its forwarder has drained, an ended one does not. -/
theorem secured_forwarder (x : Session) (fwd : Forwarder) :
    { x with forwarder := fwd }.secured + (if x.live then (x.forwarder.drained : Multiset _) else 0)
      = x.secured + if x.live then (fwd.drained : Multiset _) else 0 := by
  by_cases hlive : x.live
  · have hlive' : ({ x with forwarder := fwd } : Session).live := hlive
    simp only [secured, if_pos hlive, if_pos hlive', taken, inFlight]
    ac_rfl
  · have hlive' : ¬ ({ x with forwarder := fwd } : Session).live := hlive
    simp only [secured, if_neg hlive, if_neg hlive', taken]

/-- A forwarder that holds nothing may become any that holds nothing. -/
theorem carried_forwarder_of_nil {x : Session} {fwd : Forwarder} (hx : x.forwarder.drained = [])
    (hf : fwd.drained = []) : { x with forwarder := fwd }.carried = x.carried := by
  simpa [hx, hf] using carried_forwarder x fwd

theorem secured_forwarder_of_nil {x : Session} {fwd : Forwarder} (hx : x.forwarder.drained = [])
    (hf : fwd.drained = []) : { x with forwarder := fwd }.secured = x.secured := by
  simpa [hx, hf] using secured_forwarder x fwd

theorem carried_new : carried new = 0 := rfl

theorem secured_new : secured new = 0 := rfl

/-- The steps of a session that can change its books. -/
def Event.moves : Event → Bool
  | .sendFails | .take | .closeReceiver => true
  | _ => false

/-- Every other step leaves the books alone. -/
theorem step_books (h : x.step nodeId event = some x') (hm : event.moves = false) :
    x'.taken = x.taken ∧ x'.inFlight = x.inFlight := by
  cases event with
  | sendFails => exact absurd hm (by decide)
  | take => exact absurd hm (by decide)
  | closeReceiver => exact absurd hm (by decide)
  | established =>
    obtain ⟨-, rfl⟩ := by simpa [step] using h
    exact ⟨rfl, rfl⟩
  | command cmd =>
    simp only [step, Option.ite_none_right_eq_some] at h
    obtain ⟨-, h⟩ := h
    split at h <;> (obtain rfl := Option.some.inj h; exact ⟨rfl, rfl⟩)
  | send =>
    obtain ⟨msg, rest, hf, -, rfl⟩ := step_send_iff.mp h
    refine ⟨rfl, ?_⟩
    simp only [inFlight, hf, Forwarder.drained, statsOf_append, statsOf_stats_cons, statsOf_nil]
    rw [← Multiset.cons_coe, ← Multiset.coe_add, Multiset.cons_add, ← add_assoc]
    exact add_comm _ _
  | resume =>
    obtain ⟨hf, rfl⟩ := by simpa [step] using h
    exact ⟨rfl, by simp [inFlight, hf, Forwarder.drained]⟩
  | tick now =>
    obtain ⟨-, rfl⟩ := by simpa [step] using h
    exact ⟨rfl, rfl⟩
  | sendHeartbeat =>
    obtain ⟨hb, -, -, rfl⟩ := step_sendHeartbeat_iff.mp h
    exact ⟨rfl, by simp [inFlight]⟩
  | sendHeartbeatFails =>
    simp only [step] at h
    split at h
    · obtain ⟨-, rfl⟩ := by simpa using h
      exact ⟨rfl, rfl⟩
    · exact absurd h (by simp)
  | sendProbe result =>
    obtain ⟨-, rfl⟩ := by simpa [step] using h
    exact ⟨rfl, by simp [inFlight]⟩
  | sendProbeFails =>
    obtain ⟨-, rfl⟩ := by simpa [step] using h
    exact ⟨rfl, rfl⟩
  | reapHeartbeat =>
    obtain ⟨-, rfl⟩ := by simpa [step] using h
    exact ⟨rfl, rfl⟩

/-- An event neither ends a session nor revives one, requests no abort and wakes no waiter. -/
theorem step_frame (h : x.step nodeId event = some x') :
    (x'.live ↔ x.live) ∧ x'.aborted = x.aborted ∧
      (x.forwarder = .waiting → x'.forwarder = .waiting) := by
  unfold step at h
  split at h <;> repeat' split at h
  all_goals
    cases h
    try simp_all [live]

/-- A session goes on: it neither ends nor is aborted, and its tasks that have ended stay ended. -/
structure Continues (x x' : Session) : Prop where
  live : x'.live ↔ x.live
  aborted : x'.aborted = x.aborted
  forwarder : x.forwarder = .done → x'.forwarder = .done
  heartbeat : x.heartbeat = .done → x'.heartbeat = .done

theorem Continues.refl (x : Session) : x.Continues x := ⟨Iff.rfl, rfl, id, id⟩

/-- A forwarder that has not ended may go anywhere. -/
theorem Continues.of_forwarder {x : Session} {f : Forwarder} (h : x.forwarder ≠ .done) :
    x.Continues { x with forwarder := f } := ⟨Iff.rfl, rfl, fun hd => absurd hd h, id⟩

theorem step_continues (h : x.step nodeId event = some x') : x.Continues x' := by
  obtain ⟨hlive, haborted, -⟩ := step_frame h
  refine ⟨hlive, haborted, fun hf => ?_, fun hb => ?_⟩
  · unfold step at h
    split at h <;> repeat' split at h
    all_goals
      cases h
      try simp_all
  · unfold step at h
    split at h <;> repeat' split at h
    all_goals
      cases h
      try simp_all

/-- Taking a message moves it within the books. -/
theorem carried_take (h : x.step nodeId .take = some x') : x'.carried = x.carried := by
  obtain ⟨msg, rest, hc, -, rfl⟩ := step_take_iff.mp h
  have hsplit : statsOf x.channel = statsOf [msg] ++ statsOf rest := by
    rw [hc, ← statsOf_append]
    rfl
  simp only [carried, taken, inFlight, hsplit, statsOf_append, ← Multiset.coe_add]
  ac_rfl

/-- **What a session carries never grows by a step of its own.** -/
theorem step_carried_le (h : x.step nodeId event = some x') : x'.carried ≤ x.carried := by
  by_cases hm : event.moves = false
  · obtain ⟨ht, hf⟩ := step_books h hm
    exact le_of_eq (congrArg₂ (· + ·) ht hf)
  · cases event <;> simp only [Event.moves, not_true_eq_false, Bool.true_eq_false] at hm
    case take => exact (carried_take h).le
    case closeReceiver =>
      obtain ⟨-, rfl⟩ := step_closeReceiver_iff.mp h
      exact add_le_add_right (add_le_add_right (Multiset.zero_le _) _) _
    case sendFails =>
      obtain ⟨msg, rest, hf, -, rfl⟩ := step_sendFails_iff.mp h
      exact add_le_add_right (add_le_add_left (Multiset.zero_le _) _) _

end Session

namespace State

variable {s s' : State} {a : Act} {i : ℕ} {x y : Session} {f : Session → Multiset Sample}

/-! ## The waiters of `notify` -/

/-- The waiters are the forwarders that wait. -/
structure WaitersSound (s : State) : Prop where
  nodup : s.waiters.Nodup
  waiting : ∀ i ∈ s.waiters, ∃ x, s.sessions[i]? = some x ∧ x.forwarder = .waiting

/-- A session that does not wait may be replaced, and one that waits by one that waits. -/
theorem WaitersSound.setSession (h : s.WaitersSound) (hx : s.sessions[i]? = some x)
    (hy : x.forwarder = .waiting → y.forwarder = .waiting) : (s.setSession i y).WaitersSound := by
  refine ⟨h.nodup, fun j hj => ?_⟩
  obtain ⟨z, hz, hw⟩ := h.waiting j hj
  by_cases hij : i = j
  · subst hij
    rw [hx, Option.some.injEq] at hz
    exact ⟨y, getElem?_setSession_self hx, hy (hz ▸ hw)⟩
  · exact ⟨z, (getElem?_setSession_of_ne hij).trans hz, hw⟩

/-- A session that does not wait is no waiter. -/
theorem WaitersSound.not_mem (h : s.WaitersSound) (hx : s.sessions[i]? = some x)
    (hw : x.forwarder ≠ .waiting) : i ∉ s.waiters := by
  intro hi
  obtain ⟨z, hz, hzw⟩ := h.waiting i hi
  rw [hx, Option.some.injEq] at hz
  exact hw (hz ▸ hzw)

/-- `notify_one` stores a permit or wakes a forwarder that waits. -/
theorem WaitersSound.notifyOne_cases (h : s.WaitersSound) :
    s.waiters = [] ∧ s.notifyOne = { s with permit := true } ∨
      ∃ i rest x, s.waiters = i :: rest ∧ s.sessions[i]? = some x ∧ x.forwarder = .waiting ∧
        s.notifyOne = { s with waiters := rest }.setSession i { x with forwarder := .notified } := by
  cases hw : s.waiters with
  | nil => exact .inl ⟨rfl, by simp [State.notifyOne, hw]⟩
  | cons i rest =>
    obtain ⟨x, hx, hwait⟩ := h.waiting i (by simp [hw])
    refine .inr ⟨i, rest, x, rfl, hx, hwait, ?_⟩
    have hmod := List.modify_eq_set_getElem? (fun y : Session => { y with forwarder := .notified })
      i s.sessions
    simp only [State.notifyOne, hw, State.setSession, hmod, hx, Option.map_eq_map, Option.map_some,
      Option.getD_some]

theorem WaitersSound.of_sublist {waiters : List ℕ} (h : s.WaitersSound)
    (hsub : waiters.Sublist s.waiters) : ({ s with waiters } : State).WaitersSound :=
  ⟨h.nodup.sublist hsub, fun i hi => h.waiting i (hsub.subset hi)⟩

/-- Sessions that are no longer among the waiters may be replaced by any. -/
theorem WaitersSound.setSession_of_not_mem (h : s.WaitersSound) (hi : i ∉ s.waiters) :
    (s.setSession i y).WaitersSound := by
  refine ⟨h.nodup, fun j hj => ?_⟩
  obtain ⟨z, hz, hw⟩ := h.waiting j hj
  have hij : i ≠ j := fun hij => hi (hij ▸ hj)
  exact ⟨z, (getElem?_setSession_of_ne hij).trans hz, hw⟩

theorem WaitersSound.notifyOne (h : s.WaitersSound) : s.notifyOne.WaitersSound := by
  rcases h.notifyOne_cases with ⟨-, heq⟩ | ⟨i, rest, x, hw, -, -, heq⟩
  · rw [heq]
    exact ⟨h.nodup, h.waiting⟩
  · have hnodup := h.nodup
    rw [hw, List.nodup_cons] at hnodup
    rw [heq]
    have hrest : ({ s with waiters := rest } : State).WaitersSound :=
      h.of_sublist (hw ▸ List.sublist_cons_self i rest)
    exact hrest.setSession_of_not_mem hnodup.1

theorem waitersSound_init (nodeId : String) (clock : Int64) (intervalMs : UInt64) :
    (init nodeId clock intervalMs).WaitersSound := ⟨List.nodup_nil, by simp [init]⟩

theorem WaitersSound.step (h : s.WaitersSound) (hs : s.step a = some s') : s'.WaitersSound := by
  cases a with
  | collect now =>
    obtain ⟨-, rfl⟩ := step_collect_iff.mp hs
    exact ⟨h.nodup, h.waiting⟩
  | push =>
    obtain ⟨sample, -, rfl⟩ := step_push_iff.mp hs
    exact ⟨h.nodup, h.waiting⟩
  | notifyOne =>
    obtain ⟨-, rfl⟩ := step_notifyOne_iff.mp hs
    have hidle : ({ s with collector := .idle } : State).WaitersSound := ⟨h.nodup, h.waiting⟩
    exact hidle.notifyOne
  | startSession =>
    obtain ⟨-, rfl⟩ := step_startSession_iff.mp hs
    refine ⟨h.nodup, fun i hi => ?_⟩
    obtain ⟨x, hx, hw⟩ := h.waiting i hi
    obtain ⟨hlt, -⟩ := List.getElem?_eq_some_iff.mp hx
    exact ⟨x, (List.getElem?_append_left hlt).trans hx, hw⟩
  | drain i =>
    obtain ⟨x, hx, hf, rfl⟩ := step_drain_iff.mp hs
    have hnot := h.not_mem hx (Forwarder.of_atLock hf).2.1
    have hdrained : ({ s with holdback := s.holdback.drain.2 } : State).WaitersSound :=
      ⟨h.nodup, h.waiting⟩
    exact hdrained.setSession_of_not_mem hnot
  | park i =>
    obtain ⟨x, hx, hf, rfl⟩ := step_park_iff.mp hs
    have hnot := h.not_mem hx (by simp [hf])
    split
    · have hpermit : ({ s with permit := false } : State).WaitersSound := ⟨h.nodup, h.waiting⟩
      exact hpermit.setSession_of_not_mem hnot
    · refine ⟨List.nodup_append_comm.mp (List.nodup_cons.mpr ⟨hnot, h.nodup⟩), fun j hj => ?_⟩
      by_cases hij : i = j
      · subst hij
        exact ⟨_, getElem?_setSession_self (s := { s with waiters := s.waiters ++ [i] }) hx, rfl⟩
      · have hold : j ∈ s.waiters := (List.mem_append.mp hj).resolve_right fun hj' =>
          hij (List.mem_singleton.mp hj').symm
        obtain ⟨z, hz, hw⟩ := h.waiting j hold
        exact ⟨z, (getElem?_setSession_of_ne hij).trans hz, hw⟩
  | reapForwarder i =>
    obtain ⟨x, hx, -, rfl⟩ := step_reapForwarder_iff.mp hs
    split
    · have hgone : i ∉ s.waiters.erase i := h.nodup.not_mem_erase
      have herase : ({ s with waiters := s.waiters.erase i } : State).WaitersSound :=
        h.of_sublist List.erase_sublist
      exact herase.setSession_of_not_mem hgone
    · rename_i hf
      exact (h.setSession_of_not_mem (h.not_mem hx (by simp [hf]))).notifyOne
    · rename_i hwait _
      exact h.setSession_of_not_mem (h.not_mem hx hwait)
  | finish i how =>
    obtain ⟨x, hx, -, rfl⟩ := step_finish_iff.mp hs
    exact h.setSession hx id
  | cancel =>
    obtain rfl := Option.some.inj hs
    exact ⟨h.nodup, h.waiting⟩
  | within i event =>
    obtain ⟨x, hx, x', hx', t, ht, rfl⟩ := step_within_iff.mp hs
    obtain ⟨clock, intervalMs, rfl⟩ := observe_eq ht
    have hclock : ({ s with clock, intervalMs } : State).WaitersSound := ⟨h.nodup, h.waiting⟩
    exact hclock.setSession hx (Session.step_frame hx').2.2

/-! ## Sessions go on -/

/-- Every session of the second state is one of the first that goes on. -/
def Continues (s s' : State) : Prop :=
  ∀ (i : ℕ) (x' : Session), s'.sessions[i]? = some x' →
    ∃ x : Session, s.sessions[i]? = some x ∧ Session.Continues x x'

theorem Continues.of_eq (h : s'.sessions = s.sessions) : s.Continues s' :=
  fun _ x hx => ⟨x, h ▸ hx, .refl x⟩

theorem Continues.trans {t : State} (h : s.Continues s') (h' : s'.Continues t) : s.Continues t := by
  intro i z hz
  obtain ⟨y, hy, hyz⟩ := h' i z hz
  obtain ⟨x, hx, hxy⟩ := h i y hy
  exact ⟨x, hx, hyz.live.trans hxy.live, hyz.aborted.trans hxy.aborted,
    fun hd => hyz.forwarder (hxy.forwarder hd), fun hd => hyz.heartbeat (hxy.heartbeat hd)⟩

theorem Continues.of_set (hx : s.sessions[i]? = some x) (hy : x.Continues y)
    (h : s'.sessions = s.sessions.set i y) : s.Continues s' := by
  intro j z hz
  rcases Machine.getElem?_set_cases (h ▸ hz) with ⟨rfl, rfl⟩ | ⟨-, hz⟩
  · exact ⟨x, hx, hy⟩
  · exact ⟨z, hz, .refl z⟩

/-- A notification wakes a forwarder that has not ended. -/
theorem WaitersSound.continues_notifyOne (h : s.WaitersSound) : s.Continues s.notifyOne := by
  rcases h.notifyOne_cases with ⟨-, heq⟩ | ⟨i, rest, x, -, hx, hw, heq⟩
  · rw [heq]
    exact .of_eq rfl
  · rw [heq]
    exact .of_set hx (.of_forwarder (by simp [hw])) rfl

/-- **Only the start and the end of a session are more than a session going on.** -/
theorem WaitersSound.continues_step (h : s.WaitersSound) (hs : s.step a = some s') :
    a = .startSession ∨ (∃ i how, a = .finish i how) ∨ s.Continues s' := by
  cases a with
  | collect now =>
    obtain ⟨-, rfl⟩ := step_collect_iff.mp hs
    exact .inr (.inr (.of_eq rfl))
  | push =>
    obtain ⟨sample, -, rfl⟩ := step_push_iff.mp hs
    exact .inr (.inr (.of_eq rfl))
  | notifyOne =>
    obtain ⟨-, rfl⟩ := step_notifyOne_iff.mp hs
    have hidle : ({ s with collector := .idle } : State).WaitersSound := ⟨h.nodup, h.waiting⟩
    exact .inr (.inr ((Continues.of_eq rfl).trans hidle.continues_notifyOne))
  | startSession => exact .inl rfl
  | drain i =>
    obtain ⟨x, hx, hf, rfl⟩ := step_drain_iff.mp hs
    exact .inr (.inr (.of_set hx (.of_forwarder (Forwarder.of_atLock hf).1) rfl))
  | park i =>
    obtain ⟨x, hx, hf, rfl⟩ := step_park_iff.mp hs
    refine .inr (.inr ?_)
    split
    · exact .of_set hx (.of_forwarder (by simp [hf])) rfl
    · exact .of_set hx (.of_forwarder (by simp [hf])) rfl
  | reapForwarder i =>
    obtain ⟨x, hx, ⟨-, hsusp⟩, rfl⟩ := step_reapForwarder_iff.mp hs
    have hne := Forwarder.ne_done_of_suspended hsusp
    have hreap : s.Continues (s.setSession i { x with forwarder := .done }) :=
      .of_set hx (.of_forwarder hne) rfl
    refine .inr (.inr ?_)
    split
    · exact .of_set hx (.of_forwarder hne) rfl
    · rename_i hf
      have hsound := h.setSession_of_not_mem (y := { x with forwarder := .done })
        (h.not_mem hx (by simp [hf]))
      exact hreap.trans hsound.continues_notifyOne
    · exact hreap
  | finish i how => exact .inr (.inl ⟨i, how, rfl⟩)
  | cancel =>
    obtain rfl := Option.some.inj hs
    exact .inr (.inr (.of_eq rfl))
  | within i event =>
    obtain ⟨x, hx, x', hx', t, ht, rfl⟩ := step_within_iff.mp hs
    obtain ⟨clock, intervalMs, rfl⟩ := observe_eq ht
    exact .inr (.inr (.of_set hx (Session.step_continues hx') rfl))

/-! ## Snapshots are told apart by their numbers -/

/-- Every snapshot has a number of its own, and the one in the collector's hand has the highest. -/
structure Numbered (s : State) : Prop where
  nodup : s.pushed.Nodup
  lt_collections : ∀ m ∈ s.pushed, m.metrics < s.collections
  collected_lt : ∀ c, s.collector = .collected c → c.metrics < s.collections
  lt_collected : ∀ c, s.collector = .collected c → ∀ m ∈ s.pushed, m.metrics < c.metrics

theorem numbered_init (nodeId : String) (clock : Int64) (intervalMs : UInt64) :
    (init nodeId clock intervalMs).Numbered := by
  constructor <;> simp [init]

/-- What the numbering depends on. -/
theorem Numbered.congr (h : s.Numbered) (hp : s'.pushed = s.pushed)
    (hn : s'.collections = s.collections) (hc : s'.collector = s.collector) : s'.Numbered := by
  constructor
  · exact hp ▸ h.nodup
  · exact hp ▸ hn ▸ h.lt_collections
  · exact hc ▸ hn ▸ h.collected_lt
  · exact hc ▸ hp ▸ h.lt_collected

/-- The numbering survives once the collector holds no snapshot. -/
theorem Numbered.of_not_collected (h : s.Numbered) (hp : s'.pushed = s.pushed)
    (hn : s'.collections = s.collections) (hc : ∀ c, s'.collector ≠ .collected c) :
    s'.Numbered := by
  constructor
  · exact hp ▸ h.nodup
  · exact hp ▸ hn ▸ h.lt_collections
  · exact fun c hc' => absurd hc' (hc c)
  · exact fun c hc' => absurd hc' (hc c)

theorem Numbered.step (h : s.Numbered) (hs : s.step a = some s') : s'.Numbered := by
  cases a with
  | collect now =>
    obtain ⟨-, rfl⟩ := step_collect_iff.mp hs
    refine ⟨h.nodup, fun m hm => (h.lt_collections m hm).trans (Nat.lt_succ_self _), ?_, ?_⟩
    · rintro c ⟨⟩
      exact Nat.lt_succ_self _
    · rintro c ⟨⟩
      exact h.lt_collections
  | push =>
    obtain ⟨sample, hc, rfl⟩ := step_push_iff.mp hs
    refine ⟨?_, ?_, by simp, by simp⟩
    · refine List.nodup_append_comm.mp (List.nodup_cons.mpr ⟨fun hm => ?_, h.nodup⟩)
      exact lt_irrefl _ (h.lt_collected sample hc sample hm)
    · intro m hm
      rcases List.mem_append.mp hm with hm | hm
      · exact h.lt_collections m hm
      · exact List.mem_singleton.mp hm ▸ h.collected_lt sample hc
  | notifyOne =>
    obtain ⟨-, rfl⟩ := step_notifyOne_iff.mp hs
    obtain ⟨permit, waiters, sessions, heq⟩ := notifyOne_eq { s with collector := .idle }
    rw [heq]
    exact h.of_not_collected rfl rfl (by simp)
  | startSession =>
    obtain ⟨-, rfl⟩ := step_startSession_iff.mp hs
    exact h.congr rfl rfl rfl
  | drain i =>
    obtain ⟨x, -, -, rfl⟩ := step_drain_iff.mp hs
    exact h.congr rfl rfl rfl
  | park i =>
    obtain ⟨x, -, -, rfl⟩ := step_park_iff.mp hs
    split <;> exact h.congr rfl rfl rfl
  | reapForwarder i =>
    obtain ⟨x, -, -, rfl⟩ := step_reapForwarder_iff.mp hs
    split
    · exact h.congr rfl rfl rfl
    · obtain ⟨permit, waiters, sessions, heq⟩ :=
        notifyOne_eq (s.setSession i { x with forwarder := .done })
      rw [heq]
      exact h.congr rfl rfl rfl
    · exact h.congr rfl rfl rfl
  | finish i how =>
    obtain ⟨x, -, -, rfl⟩ := step_finish_iff.mp hs
    exact h.congr rfl rfl rfl
  | cancel =>
    obtain rfl := Option.some.inj hs
    exact h.congr rfl rfl rfl
  | within i event =>
    obtain ⟨x, -, x', -, t, ht, rfl⟩ := step_within_iff.mp hs
    obtain ⟨clock, intervalMs, rfl⟩ := observe_eq ht
    exact h.congr rfl rfl rfl

/-! ## The books of the agent -/

/-- What has been discarded, what waits in the holdback buffer, and what the sessions account for. -/
def books (f : Session → Multiset Sample) (s : State) : Multiset Sample :=
  s.discarded + s.holdback.inner + (s.sessions.map f).sum

/-- Every snapshot that is anywhere. -/
def held : State → Multiset Sample := books Session.carried

/-- Every snapshot that has arrived, can still arrive, or was discarded for a newer one. -/
def secured : State → Multiset Sample := books Session.secured

theorem secured_le_held (s : State) : s.secured ≤ s.held := by
  refine add_le_add_right (List.sum_le_sum fun x _ => ?_) _
  exact x.secured_le_carried

theorem books_setSession (hx : s.sessions[i]? = some x) :
    books f (s.setSession i y) + f x = books f s + f y := by
  have h := Sums.sum_map_set f y hx
  calc books f (s.setSession i y) + f x
      = s.discarded + s.holdback.inner + (((s.sessions.set i y).map f).sum + f x) := add_assoc _ _ _
    _ = s.discarded + s.holdback.inner + ((s.sessions.map f).sum + f y) := by rw [h]
    _ = books f s + f y := (add_assoc _ _ _).symm

/-- A session may be replaced by one that accounts for the same. -/
theorem books_setSession_of_eq (hx : s.sessions[i]? = some x) (hf : f y = f x) :
    books f (s.setSession i y) = books f s := by
  have h := books_setSession (f := f) (y := y) hx
  rw [hf] at h
  exact add_right_cancel h

/-- A notification moves no snapshot. -/
theorem WaitersSound.books_notifyOne (h : s.WaitersSound)
    (hf : ∀ x : Session, x.forwarder = .waiting → f { x with forwarder := .notified } = f x) :
    books f s.notifyOne = books f s := by
  rcases h.notifyOne_cases with ⟨-, heq⟩ | ⟨i, rest, x, -, hx, hw, heq⟩
  · rw [heq]
    rfl
  · rw [heq]
    exact books_setSession_of_eq (s := { s with waiters := rest }) hx (hf x hw)

theorem books_push {sample : Sample} :
    books f { s with
      collector := .pushed
      holdback := s.holdback.push sample
      pushed := s.pushed ++ [sample]
      discarded := s.discarded ++ s.holdback.evicted } = books f s + {sample} := by
  have h := s.holdback.coe_push sample
  simp only [books, ← Multiset.coe_add]
  rw [add_assoc (s.discarded : Multiset Sample), h, ← add_assoc, add_right_comm]

theorem books_startSession (hf : f Session.new = 0) :
    books f { s with sessions := s.sessions ++ [Session.new] } = books f s := by
  simp only [books, List.map_append, List.sum_append, List.map_singleton, List.sum_singleton, hf,
    add_zero]

/-- A drain takes the buffer's snapshots out of the buffer's books. -/
theorem books_drain (hx : s.sessions[i]? = some x) :
    books f ({ s with holdback := s.holdback.drain.2 }.setSession i y) + f x + s.holdback.inner =
      books f s + f y := by
  rw [books_setSession (s := { s with holdback := s.holdback.drain.2 }) hx]
  simp only [books, TelemetryBuffer.inner_drain, Multiset.coe_nil, add_zero]
  ac_rfl

/-- What the agent's tasks keep true whatever the order of their steps. -/
structure Sound (s : State) : Prop where
  waiters : s.WaitersSound
  numbered : s.Numbered
  /-- Only ended sessions have had their tasks aborted. -/
  aborted : ∀ x ∈ s.sessions, x.aborted = true → ¬ x.live
  held_le : s.held ≤ s.pushed

theorem sound_init (nodeId : String) (clock : Int64) (intervalMs : UInt64) :
    (init nodeId clock intervalMs).Sound :=
  ⟨waitersSound_init _ _ _, numbered_init _ _ _, by simp [init], by simp [init, held, books]⟩

theorem mem_setSession {z : Session} (h : z ∈ (s.setSession i y).sessions) :
    z ∈ s.sessions ∨ z = y := List.mem_or_eq_of_mem_set h

theorem Sound.aborted_step (h : s.Sound) (hs : s.step a = some s') :
    ∀ x ∈ s'.sessions, x.aborted = true → ¬ x.live := by
  intro x hx
  rcases h.waiters.continues_step hs with rfl | ⟨i, how, rfl⟩ | hcont
  · obtain ⟨-, rfl⟩ := step_startSession_iff.mp hs
    rcases List.mem_append.mp hx with hx | hx
    · exact h.aborted x hx
    · rw [List.mem_singleton.mp hx]
      exact fun habs => absurd habs (by decide)
  · obtain ⟨y, -, -, rfl⟩ := step_finish_iff.mp hs
    rcases mem_setSession hx with hx | rfl
    · exact h.aborted x hx
    · exact fun _ hlive => hlive rfl
  · obtain ⟨i, hi⟩ := List.getElem?_of_mem hx
    obtain ⟨y, hy, hxy⟩ := hcont i x hi
    rw [hxy.aborted, hxy.live]
    exact h.aborted y (List.mem_of_getElem? hy)

/-- Replacing a session by one that carries less keeps the agent within what has been pushed. -/
theorem held_setSession_le (hx : s.sessions[i]? = some x) (hy : y.carried ≤ x.carried) :
    (s.setSession i y).held ≤ s.held := by
  have h : books Session.carried (s.setSession i y) + x.carried ≤
      books Session.carried s + x.carried := by
    rw [books_setSession hx]
    exact add_le_add_right hy _
  exact le_of_add_le_add_right h

theorem Sound.held_step (h : s.Sound) (hs : s.step a = some s') : s'.held ≤ s'.pushed := by
  cases a with
  | collect now =>
    obtain ⟨-, rfl⟩ := step_collect_iff.mp hs
    exact h.held_le
  | push =>
    obtain ⟨sample, -, rfl⟩ := step_push_iff.mp hs
    rw [held, books_push, ← Multiset.coe_add]
    exact add_le_add_left h.held_le _
  | notifyOne =>
    obtain ⟨-, rfl⟩ := step_notifyOne_iff.mp hs
    have hidle : ({ s with collector := .idle } : State).WaitersSound :=
      ⟨h.waiters.nodup, h.waiters.waiting⟩
    obtain ⟨permit, waiters, sessions, heq⟩ := notifyOne_eq { s with collector := .idle }
    rw [held, hidle.books_notifyOne fun x hw =>
      Session.carried_forwarder_of_nil (by simp [hw, Forwarder.drained]) rfl, heq]
    exact h.held_le
  | startSession =>
    obtain ⟨-, rfl⟩ := step_startSession_iff.mp hs
    rw [held, books_startSession Session.carried_new]
    exact h.held_le
  | drain i =>
    obtain ⟨x, hx, hf, rfl⟩ := step_drain_iff.mp hs
    have hbooks := books_drain (f := Session.carried)
      (y := { x with forwarder := .sending s.holdback.inner }) hx
    have hy := x.carried_forwarder (.sending s.holdback.inner)
    rw [(Forwarder.of_atLock hf).2.2, Multiset.coe_nil, add_zero, Forwarder.drained] at hy
    rw [hy, add_assoc, add_left_inj] at hbooks
    rw [held, hbooks]
    exact h.held_le
  | park i =>
    obtain ⟨x, hx, hf, rfl⟩ := step_park_iff.mp hs
    split
    · exact (held_setSession_le (s := { s with permit := false }) hx
        (Session.carried_forwarder_of_nil (by simp [hf, Forwarder.drained]) rfl).le).trans h.held_le
    · exact (held_setSession_le (s := { s with waiters := s.waiters ++ [i] }) hx
        (Session.carried_forwarder_of_nil (by simp [hf, Forwarder.drained]) rfl).le).trans h.held_le
  | reapForwarder i =>
    obtain ⟨x, hx, -, rfl⟩ := step_reapForwarder_iff.mp hs
    have hle := held_setSession_le (y := { x with forwarder := .done }) hx
      (add_le_add_right (add_le_add_left (Multiset.zero_le _) _) _)
    split
    · exact hle.trans h.held_le
    · rename_i hf
      have hsound := h.waiters.setSession_of_not_mem (y := { x with forwarder := .done })
        (h.waiters.not_mem hx (by simp [hf]))
      obtain ⟨permit, waiters, sessions, heq⟩ :=
        notifyOne_eq (s.setSession i { x with forwarder := .done })
      rw [held, hsound.books_notifyOne fun x hw =>
        Session.carried_forwarder_of_nil (by simp [hw, Forwarder.drained]) rfl, heq]
      exact hle.trans h.held_le
    · exact hle.trans h.held_le
  | finish i how =>
    obtain ⟨x, hx, -, rfl⟩ := step_finish_iff.mp hs
    have hle : ({ x with stage := .ended, aborted := how.aborts } : Session).carried ≤ x.carried :=
      le_rfl
    exact (held_setSession_le hx hle).trans h.held_le
  | cancel =>
    obtain rfl := Option.some.inj hs
    exact h.held_le
  | within i event =>
    obtain ⟨x, hx, x', hx', t, ht, rfl⟩ := step_within_iff.mp hs
    obtain ⟨clock, intervalMs, rfl⟩ := observe_eq ht
    exact (held_setSession_le (s := { s with clock, intervalMs }) hx
      (Session.step_carried_le hx')).trans h.held_le

theorem Sound.step (h : s.Sound) (hs : s.step a = some s') : s'.Sound :=
  ⟨h.waiters.step hs, h.numbered.step hs, h.aborted_step hs, h.held_step hs⟩

end State

end Hakuraku.Agent

import Hakuraku.Agent.Books

/-!
# The order of snapshots

Reference: `pulse-agent/src/main.rs`, `run_session` and `collection_loop`; `pulse-agent/src/buffer.rs`.

Any number of forwarders may share the holdback buffer, each with a channel of its own. A run is
recorded with every snapshot that enters a channel and the session whose channel it is (`entering`).

A drain takes all that the buffer holds, under the lock, and a forwarder drains again only after it
has handed over what it drained. So for every session the snapshots that have entered its channel,
then those its forwarder still has to hand over, and then those in the buffer stand in the order in
which they were pushed (`InOrder.session`). A snapshot that leaves one of these places goes to the
next or is gone, so none is in two of them (`InOrder.once`).
-/

namespace Hakuraku.Agent

namespace Session

variable {nodeId : String} {x x' : Session} {event : Event}

/-- The snapshots in the channel and those taken from it, in the order in which they entered. -/
def channelled (x : Session) : List Sample := statsOf x.sent ++ statsOf x.channel

/-- Only a send brings a snapshot into the channel, and no event but a send or its failure changes
what the forwarder has drained. -/
theorem step_channelled (h : x.step nodeId event = some x') (hs : event ≠ .send) :
    x'.channelled.Sublist x.channelled ∧ x'.forwarder.drained.Sublist x.forwarder.drained := by
  cases event with
  | send => exact absurd rfl hs
  | take =>
    obtain ⟨msg, rest, hc, -, rfl⟩ := step_take_iff.mp h
    refine ⟨?_, .refl _⟩
    simp only [channelled, hc, ← statsOf_append, List.append_assoc]
    exact .refl _
  | closeReceiver =>
    obtain ⟨-, rfl⟩ := step_closeReceiver_iff.mp h
    exact ⟨(List.Sublist.refl _).append (List.nil_sublist _), .refl _⟩
  | sendFails =>
    obtain ⟨msg, rest, hf, -, rfl⟩ := step_sendFails_iff.mp h
    exact ⟨.refl _, List.nil_sublist _⟩
  | resume =>
    obtain ⟨hf, rfl⟩ := by simpa [step] using h
    exact ⟨.refl _, List.nil_sublist _⟩
  | sendHeartbeat =>
    obtain ⟨hb, -, -, rfl⟩ := step_sendHeartbeat_iff.mp h
    exact ⟨by simp [channelled], .refl _⟩
  | sendProbe result =>
    obtain ⟨-, rfl⟩ := by simpa [step] using h
    exact ⟨by simp [channelled], .refl _⟩
  | established =>
    obtain ⟨-, rfl⟩ := by simpa [step] using h
    exact ⟨.refl _, .refl _⟩
  | command cmd =>
    simp only [step, Option.ite_none_right_eq_some] at h
    obtain ⟨-, h⟩ := h
    split at h <;> (obtain rfl := Option.some.inj h; exact ⟨.refl _, .refl _⟩)
  | tick now =>
    obtain ⟨-, rfl⟩ := by simpa [step] using h
    exact ⟨.refl _, .refl _⟩
  | sendHeartbeatFails =>
    simp only [step] at h
    split at h
    · obtain ⟨-, rfl⟩ := by simpa using h
      exact ⟨.refl _, .refl _⟩
    · exact absurd h (by simp)
  | sendProbeFails =>
    obtain ⟨-, rfl⟩ := by simpa [step] using h
    exact ⟨.refl _, .refl _⟩
  | reapHeartbeat =>
    obtain ⟨-, rfl⟩ := by simpa [step] using h
    exact ⟨.refl _, .refl _⟩

end Session

namespace State

variable {s s' : State} {a : Act} {i : ℕ} {x y : Session} {es : List (ℕ × Sample)}

/-- The snapshot that a step puts into a channel, with the session whose channel it is. -/
def entering (s : State) : Act → List (ℕ × Sample)
  | .within i .send =>
    match s.sessions[i]? with
    | some x => (x.forwarder.drained.take 1).map (i, ·)
    | none => []
  | _ => []

/-- One step of the agent, with a record of what has entered the channels. -/
def stepRecorded : State × List (ℕ × Sample) → Act → Option (State × List (ℕ × Sample)) :=
  Machine.recorded State.step entering

/-- The snapshots that enter the channel of session `i`. -/
def channelOf (i : ℕ) (es : List (ℕ × Sample)) : List Sample :=
  (es.filter (·.1 = i)).map Prod.snd

theorem channelOf_append_self (es : List (ℕ × Sample)) (i : ℕ) (m : Sample) :
    channelOf i (es ++ [(i, m)]) = channelOf i es ++ [m] := by
  simp [channelOf]

theorem channelOf_append_of_ne (es : List (ℕ × Sample)) {i j : ℕ} (m : Sample) (h : i ≠ j) :
    channelOf j (es ++ [(i, m)]) = channelOf j es := by
  simp [channelOf, h]

theorem channelOf_eq_nil (h : ∀ e ∈ es, e.1 ≠ i) : channelOf i es = [] := by
  rw [channelOf, List.map_eq_nil_iff, List.filter_eq_nil_iff]
  exact fun e he => by simpa using h e he

/-! ## The invariant -/

/-- What a forwarder has drained and not handed over, as a multiset. -/
def drainedOf (x : Session) : Multiset Sample := x.forwarder.drained

/-- Where the snapshots stand, in the order of their collection. -/
structure InOrder (s : State) (es : List (ℕ × Sample)) : Prop where
  increasing : s.pushed.Pairwise (·.metrics < ·.metrics)
  /-- Only sessions that have been started have channels. -/
  started : ∀ e ∈ es, e.1 < s.sessions.length
  buffered : s.holdback.inner.Sublist s.pushed
  session : ∀ (i : ℕ) (x : Session), s.sessions[i]? = some x →
    (channelOf i es ++ x.forwarder.drained ++ s.holdback.inner).Sublist s.pushed
  once : (es.map Prod.snd : Multiset Sample) + books drainedOf s ≤ s.pushed
  /-- A channel holds only what has entered it. -/
  channelled : ∀ (i : ℕ) (x : Session), s.sessions[i]? = some x →
    x.channelled.Sublist (channelOf i es)

theorem inOrder_init (nodeId : String) (clock : Int64) (intervalMs : UInt64) :
    (init nodeId clock intervalMs).InOrder [] := by
  constructor <;> simp [init, books]

/-- What the order depends on. -/
theorem InOrder.congr (h : s.InOrder es) (hp : s'.pushed = s.pushed)
    (hb : s'.holdback = s.holdback) (hd : s'.discarded = s.discarded)
    (hs : s'.sessions = s.sessions) : s'.InOrder es := by
  have hbooks : books drainedOf s' = books drainedOf s := by simp only [books, hb, hd, hs]
  constructor
  · exact hp ▸ h.increasing
  · exact hs ▸ h.started
  · exact hp ▸ hb ▸ h.buffered
  · exact hp ▸ hb ▸ hs ▸ h.session
  · rw [hbooks, hp]
    exact h.once
  · exact hs ▸ h.channelled

/-- A step that puts nothing into a channel. -/
theorem InOrder.quiet (hent : s.entering a = []) (h : s'.InOrder es) :
    s'.InOrder (es ++ s.entering a) := by
  rwa [hent, List.append_nil]

/-- A session may be replaced by one that has dropped some of its snapshots. -/
theorem InOrder.setSession (h : s.InOrder es) (hx : s.sessions[i]? = some x)
    (hy : y.channelled.Sublist x.channelled ∧ y.forwarder.drained.Sublist x.forwarder.drained) :
    (s.setSession i y).InOrder es := by
  refine ⟨h.increasing, ?_, h.buffered, fun j z hz => ?_, ?_, fun j z hz => ?_⟩
  · simpa [State.setSession] using h.started
  · rcases Machine.getElem?_set_cases hz with ⟨rfl, rfl⟩ | ⟨-, hz⟩
    · exact (((List.Sublist.refl _).append hy.2).append (.refl _)).trans (h.session i x hx)
    · exact h.session j z hz
  · have hle : books drainedOf (s.setSession i y) + drainedOf x ≤ books drainedOf s + drainedOf x := by
      rw [books_setSession hx]
      exact add_le_add_right (Multiset.coe_le.mpr hy.2.subperm) _
    exact (add_le_add_right (le_of_add_le_add_right hle) _).trans h.once
  · rcases Machine.getElem?_set_cases hz with ⟨rfl, rfl⟩ | ⟨-, hz⟩
    · exact hy.1.trans (h.channelled i x hx)
    · exact h.channelled j z hz

/-- A session's forwarder may be replaced by one that has dropped some of what it drained. -/
theorem InOrder.setForwarder {fwd : Forwarder} (h : s.InOrder es) (hx : s.sessions[i]? = some x)
    (hf : fwd.drained.Sublist x.forwarder.drained) :
    (s.setSession i { x with forwarder := fwd }).InOrder es := h.setSession hx ⟨.refl _, hf⟩

theorem InOrder.notifyOne (h : s.InOrder es) (hw : s.WaitersSound) : s.notifyOne.InOrder es := by
  rcases hw.notifyOne_cases with ⟨-, heq⟩ | ⟨i, rest, x, -, hx, -, heq⟩
  · rw [heq]
    exact h.congr rfl rfl rfl rfl
  · rw [heq]
    have hrest : ({ s with waiters := rest } : State).InOrder es := h.congr rfl rfl rfl rfl
    exact hrest.setForwarder hx (List.nil_sublist _)

/-! ## The steps -/

theorem InOrder.push {sample : Sample} (h : s.InOrder es) (hn : s.Numbered)
    (hc : s.collector = .collected sample) :
    InOrder { s with
      collector := .pushed
      holdback := s.holdback.push sample
      pushed := s.pushed ++ [sample]
      discarded := s.discarded ++ s.holdback.evicted } es := by
  have hkept := s.holdback.kept_sublist
  refine ⟨?_, h.started, ?_, fun i x hx => ?_, ?_, h.channelled⟩
  · refine List.pairwise_append.mpr ⟨h.increasing, List.pairwise_singleton _ _, fun m hm m' hm' => ?_⟩
    rw [List.mem_singleton.mp hm']
    exact hn.lt_collected sample hc m hm
  · -- what is evicted leaves the buffer, and the rest keeps its order
    exact (hkept.trans h.buffered).append (.refl [sample])
  · show (channelOf i es ++ x.forwarder.drained ++ (s.holdback.kept ++ [sample])).Sublist _
    rw [← List.append_assoc]
    exact (((List.Sublist.refl _).append hkept).trans (h.session i x hx)).append (.refl [sample])
  · rw [books_push, ← add_assoc]
    show _ ≤ ((s.pushed ++ [sample] : List Sample) : Multiset Sample)
    rw [← Multiset.coe_add]
    exact add_le_add_left h.once _

/-- A drain by a forwarder that holds nothing moves the buffer into its hands. -/
theorem InOrder.drain (h : s.InOrder es) (hx : s.sessions[i]? = some x)
    (hf : x.forwarder.drained = []) :
    InOrder ({ s with holdback := s.holdback.drain.2 }.setSession i
      { x with forwarder := .sending s.holdback.inner }) es := by
  refine ⟨h.increasing, ?_, List.nil_sublist _, fun j z hz => ?_, ?_, fun j z hz => ?_⟩
  · simpa [State.setSession] using h.started
  · rcases Machine.getElem?_set_cases hz with ⟨rfl, rfl⟩ | ⟨-, hz⟩
    · -- the buffer follows what has entered the channel, and the forwarder held nothing between
      have hsub := h.session i x hx
      rw [hf, List.append_nil] at hsub
      show (channelOf i es ++ s.holdback.inner ++ []).Sublist s.pushed
      rwa [List.append_nil]
    · exact ((List.Sublist.refl _).append (List.nil_sublist _)).trans (h.session j z hz)
  · have hbooks := books_drain (f := drainedOf)
      (y := { x with forwarder := .sending s.holdback.inner }) hx
    have hx0 : drainedOf x = 0 := by rw [drainedOf, hf, Multiset.coe_nil]
    rw [hx0, add_zero] at hbooks
    rw [add_right_cancel (b := (s.holdback.inner : Multiset Sample)) hbooks]
    exact h.once
  · rcases Machine.getElem?_set_cases hz with ⟨rfl, rfl⟩ | ⟨-, hz⟩
    · exact h.channelled i x hx
    · exact h.channelled j z hz

/-- A send takes the first of the drained snapshots to the end of the channel. -/
theorem InOrder.send {msg : Sample} {rest : List Sample} (h : s.InOrder es)
    (hx : s.sessions[i]? = some x) (hf : x.forwarder = .sending (msg :: rest)) :
    InOrder (s.setSession i
      { x with channel := x.channel ++ [.stats msg], forwarder := .sending rest })
        (es ++ [(i, msg)]) := by
  have hdrained : x.forwarder.drained = msg :: rest := by rw [hf, Forwarder.drained]
  refine ⟨h.increasing, fun e he => ?_, h.buffered, fun j z hz => ?_, ?_, fun j z hz => ?_⟩
  · rw [State.setSession, List.length_set]
    rcases List.mem_append.mp he with he | he
    · exact h.started e he
    · rw [List.mem_singleton.mp he]
      exact (List.getElem?_eq_some_iff.mp hx).1
  · rcases Machine.getElem?_set_cases hz with ⟨rfl, rfl⟩ | ⟨hij, hz⟩
    · have hsub := h.session i x hx
      rw [hdrained] at hsub
      rw [channelOf_append_self, List.append_assoc (channelOf i es)]
      exact hsub
    · rw [channelOf_append_of_ne es msg hij]
      exact h.session j z hz
  · have hset := books_setSession (f := drainedOf)
      (y := { x with channel := x.channel ++ [.stats msg], forwarder := .sending rest }) hx
    have hmoved : drainedOf x = {msg} + drainedOf
        { x with channel := x.channel ++ [.stats msg], forwarder := .sending rest } := by
      rw [drainedOf, hdrained, ← Multiset.cons_coe, Multiset.singleton_add]
      rfl
    rw [hmoved, ← add_assoc, add_left_inj] at hset
    have hsnd : ((es ++ [(i, msg)]).map Prod.snd : Multiset Sample) =
        (es.map Prod.snd : Multiset Sample) + {msg} := by
      rw [List.map_append, ← Multiset.coe_add]
      rfl
    rw [hsnd, add_assoc, add_comm ({msg} : Multiset Sample), hset]
    exact h.once
  · rcases Machine.getElem?_set_cases hz with ⟨rfl, rfl⟩ | ⟨hij, hz⟩
    · rw [channelOf_append_self]
      simp only [Session.channelled, statsOf_append, statsOf_stats_cons, statsOf_nil]
      rw [← List.append_assoc]
      exact (h.channelled i x hx).append (.refl [msg])
    · rw [channelOf_append_of_ne es msg hij]
      exact h.channelled j z hz

/-- **Every step keeps the order.** -/
theorem InOrder.step (h : s.InOrder es) (hw : s.WaitersSound) (hn : s.Numbered)
    (hs : s.step a = some s') : s'.InOrder (es ++ s.entering a) := by
  cases a with
  | within i event =>
    obtain ⟨x, hx, x', hx', t, ht, rfl⟩ := step_within_iff.mp hs
    obtain ⟨clock, intervalMs, rfl⟩ := observe_eq ht
    have hclock : ({ s with clock, intervalMs } : State).InOrder es := h.congr rfl rfl rfl rfl
    by_cases hev : event = .send
    · subst hev
      obtain ⟨msg, rest, hf, -, rfl⟩ := Session.step_send_iff.mp hx'
      have hent : s.entering (.within i .send) = [(i, msg)] := by
        simp [entering, hx, hf, Forwarder.drained]
      rw [hent]
      exact hclock.send hx hf
    · have hent : s.entering (.within i event) = [] := by
        cases event <;> first | rfl | exact absurd rfl hev
      exact .quiet hent <| hclock.setSession hx (Session.step_channelled hx' hev)
  | collect now =>
    obtain ⟨-, rfl⟩ := step_collect_iff.mp hs
    refine .quiet rfl ?_
    exact h.congr rfl rfl rfl rfl
  | push =>
    obtain ⟨sample, hc, rfl⟩ := step_push_iff.mp hs
    refine .quiet rfl ?_
    exact h.push hn hc
  | notifyOne =>
    obtain ⟨-, rfl⟩ := step_notifyOne_iff.mp hs
    have hidle : ({ s with collector := .idle } : State).InOrder es := h.congr rfl rfl rfl rfl
    refine .quiet rfl ?_
    exact hidle.notifyOne ⟨hw.nodup, hw.waiting⟩
  | startSession =>
    obtain ⟨-, rfl⟩ := step_startSession_iff.mp hs
    refine .quiet rfl ?_
    -- nothing has entered the channel of a session that starts
    have hnew : channelOf s.sessions.length es = [] :=
      channelOf_eq_nil fun e he => (h.started e he).ne
    refine ⟨h.increasing, fun e he => ?_, h.buffered, fun j z hz => ?_, ?_, fun j z hz => ?_⟩
    · exact (h.started e he).trans (by simp)
    · rcases Machine.getElem?_concat_cases hz with hz | ⟨rfl, rfl⟩
      · exact h.session j z hz
      · rw [hnew]
        exact h.buffered
    · rw [books_startSession rfl]
      exact h.once
    · rcases Machine.getElem?_concat_cases hz with hz | ⟨rfl, rfl⟩
      · exact h.channelled j z hz
      · exact List.nil_sublist _
  | drain i =>
    obtain ⟨x, hx, hf, rfl⟩ := step_drain_iff.mp hs
    refine .quiet rfl ?_
    exact h.drain hx (Forwarder.of_atLock hf).2.2
  | park i =>
    obtain ⟨x, hx, -, rfl⟩ := step_park_iff.mp hs
    refine .quiet rfl ?_
    split
    · have hspent : ({ s with permit := false } : State).InOrder es := h.congr rfl rfl rfl rfl
      exact hspent.setForwarder hx (List.nil_sublist _)
    · have hwaits : ({ s with waiters := s.waiters ++ [i] } : State).InOrder es :=
        h.congr rfl rfl rfl rfl
      exact hwaits.setForwarder hx (List.nil_sublist _)
  | reapForwarder i =>
    obtain ⟨x, hx, -, rfl⟩ := step_reapForwarder_iff.mp hs
    have hreaped : (s.setSession i { x with forwarder := .done }).InOrder es :=
      h.setForwarder hx (List.nil_sublist _)
    refine .quiet rfl ?_
    split
    · exact hreaped.congr rfl rfl rfl rfl
    · rename_i hf
      exact hreaped.notifyOne (hw.setSession_of_not_mem (hw.not_mem hx (by simp [hf])))
    · exact hreaped
  | finish i how =>
    obtain ⟨x, hx, -, rfl⟩ := step_finish_iff.mp hs
    refine .quiet rfl ?_
    exact h.setSession hx ⟨.refl _, .refl _⟩
  | cancel =>
    obtain rfl := Option.some.inj hs
    refine .quiet rfl ?_
    exact h.congr rfl rfl rfl rfl

theorem inOrder_of_run {nodeId : String} {clock : Int64} {intervalMs : UInt64} {as : List Act}
    {t : State}
    (hrun : Machine.run stepRecorded (.init nodeId clock intervalMs, []) as = some (t, es)) :
    t.InOrder es ∧ t.pushed.Nodup := by
  have hall := Machine.run_invariant
    (I := fun p : State × List (ℕ × Sample) =>
      p.1.WaitersSound ∧ p.1.Numbered ∧ p.1.InOrder p.2) ?_ ?_ hrun
  · exact ⟨hall.2.2, hall.2.1.nodup⟩
  · rintro ⟨s, es⟩ a p' ⟨hw, hn, hord⟩ hs
    obtain ⟨s', hs', rfl⟩ := Machine.recorded_eq_some.mp hs
    exact ⟨hw.step hs', hn.step hs', hord.step hw hn hs'⟩
  · exact ⟨waitersSound_init _ _ _, numbered_init _ _ _, inOrder_init _ _ _⟩

/-- **No snapshot is duplicated, and none is overtaken.** Along every run of the agent, the snapshots
that enter the channel of a session are some of those pushed, in strictly increasing order of their
collection, and no snapshot enters two channels or one channel twice. -/
theorem entered_in_order_once (nodeId : String) (clock : Int64) (intervalMs : UInt64)
    (as : List Act) (t : State)
    (hrun : Machine.run State.step (.init nodeId clock intervalMs) as = some t) :
    ∃ es, Machine.run stepRecorded (.init nodeId clock intervalMs, []) as = some (t, es) ∧
      (∀ i, (channelOf i es).Sublist t.pushed ∧
        (channelOf i es).Pairwise (·.metrics < ·.metrics)) ∧ (es.map Prod.snd).Nodup := by
  obtain ⟨es, hes⟩ := Machine.run_recorded entering hrun []
  obtain ⟨hord, hnodup⟩ := inOrder_of_run hes
  have hsub : ∀ i, (channelOf i es).Sublist t.pushed := by
    intro i
    by_cases hi : i < t.sessions.length
    · refine List.Sublist.trans ?_ (hord.session i _ (List.getElem?_eq_getElem hi))
      rw [List.append_assoc]
      exact List.sublist_append_left _ _
    · rw [channelOf_eq_nil fun e he => ((hord.started e he).trans_le (not_lt.mp hi)).ne]
      exact List.nil_sublist _
  refine ⟨es, hes, fun i => ⟨hsub i, hord.increasing.sublist (hsub i)⟩, ?_⟩
  -- what was pushed once is on the books once, wherever it is
  have hle : (es.map Prod.snd : Multiset Sample) ≤ t.pushed :=
    le_trans (Multiset.le_add_right _ _) hord.once
  exact Multiset.coe_nodup.mp (Multiset.nodup_of_le hle (Multiset.coe_nodup.mpr hnodup))

/-- A session whose stream fails leaves its forwarder running beside that of the next session, and
each of them hands one snapshot over. -/
def handoverRun : List Act :=
  [.startSession, .collect 7, .push, .notifyOne, .drain 0, .within 0 .send,
    .finish 0 .streamFailed, .startSession, .collect 8, .push, .notifyOne, .drain 1,
    .within 1 .send, .park 0, .drain 0]

theorem entered_once_handover :
    ∃ t es, Machine.run stepRecorded (.init "node-01" 0 5000, []) handoverRun = some (t, es) ∧
      es = [(0, ⟨"node-01", 7, 0⟩), (1, ⟨"node-01", 8, 1⟩)] ∧ (es.map Prod.snd).Nodup := by
  obtain ⟨es, hes, -, hnodup⟩ := entered_in_order_once "node-01" 0 5000 handoverRun _
    (Option.some_get (by decide)).symm
  exact ⟨_, es, hes, (congrArg Prod.snd (Option.some.inj hes)).symm, hnodup⟩

end State

end Hakuraku.Agent

import Hakuraku.Server.Delivery

/-!
# What a connection delivers that may lag

Reference: `pulse-server/src/ws.rs`, the send task of `handle_socket`; `pulse-server/src/state.rs`,
`broadcast_tx`.

A receiver that has fallen more than the capacity of the channel behind goes on with the oldest update
that is kept. So a slow client misses updates, and is not told. The positions whose updates went
through the receiver stand in a list (`Passed`): it is in order, and what is missing between the
subscription and the receiver has at least a channel's worth of newer updates behind it.
-/

namespace Hakuraku.Server

namespace Socket

variable {B J : Type} {cfg : Config B J} {s s' : Process J} {x y : Socket J} {a : SocketAct}

/-- The updates at these positions of the channel. -/
def broadcastsAt (s : Process J) (positions : List ℕ) : List (NodeUpdate J) :=
  positions.filterMap (s.broadcasts[·]?)

/-- The updates at `positions` went through the receiver of the connection, and no others since its
subscription. -/
structure Passed (s : Process J) (x : Socket J) (positions : List ℕ) : Prop where
  next_le : x.next ≤ s.broadcasts.length
  start_le : x.start ≤ x.next
  sorted : positions.Pairwise (· < ·)
  range : ∀ k ∈ positions, x.start ≤ k ∧ k < x.next
  /-- What did not go through has been overwritten. -/
  missed : ∀ k, x.start ≤ k → k < x.next → k ∉ positions →
    k + broadcastCapacity < s.broadcasts.length
  /-- What was sent. The last update is lost when the socket is found broken. -/
  sent : x.sent ++ x.sendTask.inFlight <+: .init x.nodes :: x.forwarded (broadcastsAt s positions)
  running : x.sendTask.running = true →
    x.sent ++ x.sendTask.inFlight = .init x.nodes :: x.forwarded (broadcastsAt s positions)
  early : x.handler.early = true → x.sent = [] ∧ x.next = x.start

theorem passed_subscribe (filter : Option String) : Passed s (subscribe s filter) [] where
  next_le := Nat.le_refl _
  start_le := Nat.le_refl _
  sorted := .nil
  range _ h := absurd h List.not_mem_nil
  missed _ hle hlt := absurd hlt (Nat.not_lt.mpr hle)
  sent := List.nil_prefix
  running h := absurd h (by simp [subscribe, SendTask.running])
  early _ := ⟨rfl, rfl⟩

variable {positions : List ℕ}

/-- Later broadcasts leave the updates at earlier positions alone. -/
theorem broadcastsAt_append {later : List (NodeUpdate J)} (hs' : s'.broadcasts = s.broadcasts ++ later)
    (h : ∀ k ∈ positions, k < s.broadcasts.length) :
    broadcastsAt s' positions = broadcastsAt s positions := by
  refine List.filterMap_congr fun k hk => ?_
  rw [hs', List.getElem?_append_left (h k hk)]

theorem Passed.airs {b : Act B} (h : Passed s x positions) (ha : Airs cfg s s' b) :
    Passed s' x positions := by
  obtain ⟨later, hlater⟩ := ha.exists_broadcasts
  have hlen : s.broadcasts.length ≤ s'.broadcasts.length := by
    rw [hlater, List.length_append]
    exact Nat.le_add_right _ _
  have hat : broadcastsAt s' positions = broadcastsAt s positions :=
    broadcastsAt_append hlater fun k hk => (h.range k hk).2.trans_le h.next_le
  refine ⟨h.next_le.trans hlen, h.start_le, h.sorted, h.range,
    fun k hle hlt hk => (h.missed k hle hlt hk).trans_le hlen, ?_, ?_, h.early⟩
  · rw [hat]
    exact h.sent
  · rw [hat]
    exact h.running

/-- The next update goes through the receiver. -/
theorem broadcastsAt_concat {update : NodeUpdate J} (hnext : s.broadcasts[x.next]? = some update) :
    broadcastsAt s (positions ++ [x.next]) = broadcastsAt s positions ++ [update] := by
  simp [broadcastsAt, List.filterMap_append, hnext]

/-- A receiver that moves to the next position extends the list. -/
theorem Passed.range_concat (h : Passed s x positions) :
    (positions ++ [x.next]).Pairwise (· < ·) ∧
      (∀ k ∈ positions ++ [x.next], x.start ≤ k ∧ k < x.next + 1) ∧
      ∀ k, x.start ≤ k → k < x.next + 1 → k ∉ positions ++ [x.next] →
        k + broadcastCapacity < s.broadcasts.length := by
  refine ⟨?_, fun k hk => ?_, fun k hle hlt hk => ?_⟩
  · rw [List.pairwise_append]
    refine ⟨h.sorted, List.pairwise_singleton _ _, fun k hk j hj => ?_⟩
    rw [List.mem_singleton.mp hj]
    exact (h.range k hk).2
  · rcases List.mem_append.mp hk with hk | hk
    · exact ⟨(h.range k hk).1, (h.range k hk).2.trans (Nat.lt_succ_self _)⟩
    · rw [List.mem_singleton.mp hk]
      exact ⟨h.start_le, Nat.lt_succ_self _⟩
  · rw [List.mem_append, List.mem_singleton, not_or] at hk
    exact h.missed k hle (by omega) hk.1

/-- **What a step of the connection lets through its receiver.** -/
theorem Passed.moves (h : Passed s x positions) (hsound : x.Sound) (hm : x.Moves s y a) :
    ∃ positions, Passed s y positions := by
  have hspawned : ∀ {task : SendTask J}, x.sendTask = task → task ≠ .unspawned →
      x.handler.early = true → False :=
    fun htask hne hearly => hne (htask.symm.trans (hsound hearly).1)
  have hunsent : x.handler.early = true → x.sent ++ x.sendTask.inFlight = [] := fun hearly => by
    rw [(h.early hearly).1, (hsound hearly).1]
    rfl
  cases hm with
  | begin hhandler =>
    exact ⟨positions, h.next_le, h.start_le, h.sorted, h.range, h.missed, h.sent, h.running,
      fun _ => h.early (by rw [hhandler]; rfl)⟩
  | read n due visited node hhandler =>
    have hearly : x.handler.early = true := by rw [hhandler]; rfl
    refine ⟨positions, h.next_le, h.start_le, h.sorted, h.range, h.missed, ?_, fun hrun => ?_,
      fun _ => h.early hearly⟩
    · exact (hunsent hearly).symm ▸ List.nil_prefix
    · exact absurd (h.running hrun) (by simp [hunsent hearly])
  | collected due visited hhandler =>
    exact ⟨positions, h.next_le, h.start_le, h.sorted, h.range, h.missed, h.sent, h.running,
      fun _ => h.early (by rw [hhandler]; rfl)⟩
  | init hhandler =>
    obtain ⟨hsent, hnext⟩ := h.early (by rw [hhandler]; rfl)
    have hnone : ∀ k ∈ positions, False := fun k hk => by
      have := h.range k hk
      omega
    obtain rfl : positions = [] := List.eq_nil_iff_forall_not_mem.mpr hnone
    have hinit : x.sent ++ [.init x.nodes] ++ SendTask.receiving.inFlight =
        .init x.nodes :: x.forwarded (broadcastsAt s []) := by
      rw [hsent]
      rfl
    exact ⟨[], h.next_le, h.start_le, h.sorted, h.range, h.missed,
      ⟨[], (List.append_nil _).trans hinit⟩, fun _ => hinit,
      fun hearly => absurd hearly (by simp [Handler.early])⟩
  | refused =>
    exact ⟨positions, h.next_le, h.start_le, h.sorted, h.range, h.missed, h.sent, h.running,
      fun hearly => absurd hearly (by simp [Handler.early])⟩
  | lagged next htask hlag hnext =>
    -- the receiver only moves on, and all it passes has been overwritten
    have hle : x.next ≤ next ∧ next + broadcastCapacity = s.broadcasts.length := by omega
    refine ⟨positions, ?_, h.start_le.trans hle.1, h.sorted,
      fun k hk => ⟨(h.range k hk).1, (h.range k hk).2.trans_le hle.1⟩,
      fun k _ hlt _ => ?_, h.sent, h.running,
      fun hearly => (hspawned htask (by simp) hearly).elim⟩
    · exact hle.2 ▸ Nat.le_add_right _ _
    · exact hle.2 ▸ Nat.add_lt_add_right hlt _
  | skipped update htask hnext hpasses =>
    obtain ⟨hsorted, hrange, hmissed⟩ := h.range_concat
    have hforward : x.forwarded (broadcastsAt s (positions ++ [x.next])) =
        x.forwarded (broadcastsAt s positions) := by
      rw [broadcastsAt_concat hnext, forwarded_concat_of_not_passes hpasses]
    refine ⟨positions ++ [x.next], (List.getElem?_eq_some_iff.mp hnext).1,
      h.start_le.trans (Nat.le_succ _), hsorted, hrange, hmissed, ?_, ?_,
      fun hearly => (hspawned htask (by simp) hearly).elim⟩
    · exact (congrArg (_ <+: _ :: ·) hforward).mpr h.sent
    · exact fun hrun => (h.running hrun).trans (congrArg (_ :: ·) hforward.symm)
  | taken update htask hnext hpasses =>
    obtain ⟨hsorted, hrange, hmissed⟩ := h.range_concat
    have hsent := h.running (by rw [htask]; rfl)
    rw [htask, SendTask.inFlight, List.append_nil] at hsent
    have hforward : x.sent ++ [.update update] =
        .init x.nodes :: x.forwarded (broadcastsAt s (positions ++ [x.next])) := by
      rw [broadcastsAt_concat hnext, forwarded_concat_of_passes hpasses, hsent]
      rfl
    exact ⟨positions ++ [x.next], (List.getElem?_eq_some_iff.mp hnext).1,
      h.start_le.trans (Nat.le_succ _), hsorted, hrange, hmissed,
      ⟨[], (List.append_nil _).trans hforward⟩, fun _ => hforward,
      fun hearly => (hspawned htask (by simp) hearly).elim⟩
  | sent update htask =>
    have hsent := h.running (by rw [htask]; rfl)
    rw [htask, SendTask.inFlight] at hsent
    have hforward : x.sent ++ [.update update] ++ SendTask.receiving.inFlight =
        .init x.nodes :: x.forwarded (broadcastsAt s positions) := (List.append_nil _).trans hsent
    exact ⟨positions, h.next_le, h.start_le, h.sorted, h.range, h.missed,
      ⟨[], (List.append_nil _).trans hforward⟩, fun _ => hforward,
      fun hearly => (hspawned htask (by simp) hearly).elim⟩
  | failed update htask =>
    refine ⟨positions, h.next_le, h.start_le, h.sorted, h.range, h.missed, ?_,
      fun hrun => absurd hrun (by simp [SendTask.running]),
      fun hearly => (hspawned htask (by simp) hearly).elim⟩
    have hsent := h.sent
    rw [htask] at hsent
    exact (List.append_nil x.sent).symm ▸ (List.prefix_append _ _).trans hsent
  | clientGone =>
    exact ⟨positions, h.next_le, h.start_le, h.sorted, h.range, h.missed, h.sent, h.running, h.early⟩
  | finish =>
    exact ⟨positions, h.next_le, h.start_le, h.sorted, h.range, h.missed, h.sent, h.running,
      fun hearly => absurd hearly (by simp [Handler.early])⟩

end Socket

namespace Hub

variable {B J : Type} {cfg : Config B J} {hub : Hub J} {i : ℕ} {db : Database J} {clock : Int64}
  {as : List (HubAct B)} {x : Socket J}

/-- **A slow client misses old updates only, and gets the others in order and once.** In every run,
what a connection has sent is its `Init` followed by the updates that went through its receiver and
pass its filter, in the order of the channel (when the socket breaks, the last one is lost). An update
since the subscription that the receiver is past and that did not go through it has at least 256
newer ones behind it. -/
theorem sent_since_subscription (hrun : Machine.run (step cfg) (boot db clock) as = some hub)
    (hx : hub.sockets[i]? = some x) :
    ∃ positions : List ℕ, positions.Pairwise (· < ·) ∧
      (∀ k ∈ positions, x.start ≤ k ∧ k < x.next) ∧
      (∀ k, x.start ≤ k → k < x.next → k ∉ positions →
        k + broadcastCapacity < hub.server.1.broadcasts.length) ∧
      x.sent ++ x.sendTask.inFlight <+:
        .init x.nodes :: x.forwarded (Socket.broadcastsAt hub.server.1 positions) ∧
      (x.sendTask.running = true → x.sent ++ x.sendTask.inFlight =
        .init x.nodes :: x.forwarded (Socket.broadcastsAt hub.server.1 positions)) := by
  have h := (run_socket (K := fun _ => True)
    (I := fun s x => x.Sound ∧ ∃ positions, Socket.Passed s x positions) (P := fun _ _ => True)
    (fun _ _ _ _ _ _ => trivial) ?_ ?_ ?_ trivial (Machine.along_true _ as) hrun).2 x hx
  · obtain ⟨-, positions, hpassed⟩ := h
    exact ⟨positions, hpassed.sorted, hpassed.range, hpassed.missed, hpassed.sent, hpassed.running⟩
  · rintro hub b p x - - - hs ⟨hsound, positions, hpassed⟩
    exact ⟨hsound, positions, hpassed.airs (step_airs hs)⟩
  · intro p filter _
    exact ⟨Socket.sound_subscribe filter, [], Socket.passed_subscribe filter⟩
  · rintro hub b x y - - hx hm ⟨hsound, positions, hpassed⟩
    exact ⟨hsound.moves hm, hpassed.moves hsound hm⟩

/-- A connection whose client is served only after two updates more than the channel keeps. -/
def slowRun : List (HubAct ℕ) :=
  [.server (.openStream "node-01"), .connect none, .socket 0 .begin, .socket 0 .collected,
    .socket 0 (.sendInit true)] ++
  (List.range 258).flatMap (fun k =>
    [.server (.receive 0 (.message (some (.stats ⟨"node-01", 1000, k⟩)))), .server (.enqueue 0),
      .server (.broadcast 0)]) ++
  [.socket 0 .recv, .socket 0 .recv, .socket 0 (.send true)]

theorem sent_since_subscription_slow :
    ∃ (hub : Hub String) (x : Socket String) (positions : List ℕ),
      Machine.run (step Config.byText) (boot .empty 0) slowRun = some hub ∧
      hub.sockets[0]? = some x ∧ x.sent = [.init [], .update ⟨"node-01", 1000, "2"⟩] ∧
      x.next = 3 ∧ ∀ k < 3, k ∉ positions → k + broadcastCapacity < 258 := by
  have heval : (Machine.run (step Config.byText) (boot .empty 0) slowRun).bind (fun hub =>
      hub.sockets[0]?.map fun x => (hub.server.1.broadcasts.length, x.sent, x.start, x.next)) =
        some (258, [.init [], .update ⟨"node-01", 1000, "2"⟩], 0, 3) := by
    decide +kernel
  obtain ⟨hub, hrun, hsocket⟩ := Option.bind_eq_some_iff.mp heval
  obtain ⟨x, hx, heq⟩ := Option.map_eq_some_iff.mp hsocket
  simp only [Prod.mk.injEq] at heq
  obtain ⟨hlen, hsent, hstart, hnext⟩ := heq
  obtain ⟨positions, -, -, hmissed, -, -⟩ := sent_since_subscription hrun hx
  rw [hlen, hstart, hnext] at hmissed
  exact ⟨hub, x, positions, hrun, hx, hsent, hnext, fun k hk => hmissed k (Nat.zero_le _) hk⟩

end Hub

end Hakuraku.Server

import Hakuraku.Server.Broadcast
import Hakuraku.Server.Sockets

/-!
# What a connection delivers

Reference: `pulse-server/src/ws.rs`, the send task of `handle_socket`.

A connection whose receiver never lags and whose send task has not ended has sent its `Init` and then,
in order, every update that has gone through its receiver since the subscription and passes its filter
(`Delivery`). One of them may still be under way. Whatever happens, no other update is sent
(`Filtered`).
-/

namespace Hakuraku.Server

variable {B J : Type} {cfg : Config B J} {s s' : Process J} {x y : Socket J} {a : SocketAct}

/-- The message that the send task is about to send. -/
def SendTask.inFlight : SendTask J → List (WsMessage J)
  | .sending update => [.update update]
  | .unspawned | .receiving | .ended => []

namespace Socket

/-- The updates that went through the receiver. -/
def received (s : Process J) (x : Socket J) : List (NodeUpdate J) :=
  (s.broadcasts.take x.next).drop x.start

/-- The messages that the client is due for these updates. -/
def forwarded (x : Socket J) (updates : List (NodeUpdate J)) : List (WsMessage J) :=
  (updates.filter fun update => passes x.filter update.nodeId).map .update

/-- All that was broadcast so far has been sent to the client, and its connection is open. -/
def UpToDate (s : Process J) (x : Socket J) : Prop :=
  x.handler = .serving ∧ x.sendTask = .receiving ∧ x.next = s.broadcasts.length

end Socket

/-- The receiver of the connection does not lag. -/
def Hub.NeverLags (i : ℕ) (hub : Hub J) : HubAct B → Prop
  | .socket j .recv =>
    j = i → ∀ x ∈ hub.sockets[i]?, hub.server.1.broadcasts.length ≤ x.next + broadcastCapacity
  | _ => True

instance (i : ℕ) (hub : Hub J) : ∀ a : HubAct B, Decidable (hub.NeverLags i a)
  | .socket j .recv =>
    have : Decidable (∀ x ∈ hub.sockets[i]?,
        hub.server.1.broadcasts.length ≤ x.next + broadcastCapacity) := Option.decidableForallMem _
    inferInstanceAs (Decidable (j = i → _))
  | .server _ | .connect _ => isTrue trivial
  | .socket _ .begin | .socket _ (.read _) | .socket _ .collected | .socket _ (.sendInit _)
  | .socket _ (.send _) | .socket _ .clientGone | .socket _ .finish => isTrue trivial

/-- What is broadcast stays broadcast. -/
theorem Airs.exists_broadcasts {a : Act B} (ha : Airs cfg s s' a) :
    ∃ later, s'.broadcasts = s.broadcasts ++ later := by
  cases ha with
  | quiet _ _ _ _ hbroadcasts | heartbeat _ _ _ _ _ _ hbroadcasts
  | visit _ _ _ _ _ _ _ _ hbroadcasts => exact ⟨[], hbroadcasts.trans (List.append_nil _).symm⟩
  | stats _ _ _ _ _ _ _ _ hbroadcasts =>
    exact ⟨[], hbroadcasts.trans (List.append_nil _).symm⟩
  | broadcast i update _ _ _ _ hbroadcasts => exact ⟨[update], hbroadcasts⟩
  | announce transition rest _ _ _ _ _ hbroadcasts => exact ⟨[transition.update cfg.serde], hbroadcasts⟩

namespace Socket

/-! ## No update outside the filter -/

/-- Every update sent or about to be sent passes the filter. -/
def Filtered (x : Socket J) : Prop :=
  ∀ update, .update update ∈ x.sent ++ x.sendTask.inFlight → passes x.filter update.nodeId

theorem filtered_subscribe (filter : Option String) : (subscribe s filter).Filtered :=
  fun update h => absurd h (by simp [subscribe, SendTask.inFlight])

theorem Filtered.moves (h : x.Filtered) (hm : x.Moves s y a) : y.Filtered := by
  intro update hmem
  cases hm with
  | begin | read | collected | refused | lagged | skipped | clientGone | finish => exact h update hmem
  | init =>
    exact h update (List.mem_append_left _ (by simpa [SendTask.inFlight] using hmem))
  | taken u htask hnext hpasses =>
    rcases List.mem_append.mp hmem with hsent | hnew
    · exact h update (List.mem_append_left _ hsent)
    · obtain rfl : update = u := by simpa [SendTask.inFlight] using hnew
      exact hpasses
  | sent u htask => exact h update (by simpa [SendTask.inFlight, htask] using hmem)
  | failed u htask => exact h update (List.mem_append_left _ (by simpa [SendTask.inFlight] using hmem))

/-! ## Every update inside the filter, in order -/

/-- **What a connection that does not lag has sent.** -/
structure Delivery (s : Process J) (x : Socket J) : Prop where
  start_le : x.start ≤ x.next
  next_le : x.next ≤ s.broadcasts.length
  early : x.handler.early = true → x.next = x.start ∧ x.sent = []
  sent : x.sendTask.running = true →
    x.sent ++ x.sendTask.inFlight = .init x.nodes :: x.forwarded (x.received s)

theorem delivery_subscribe (filter : Option String) : Delivery s (subscribe s filter) where
  start_le := Nat.le_refl _
  next_le := Nat.le_refl _
  early _ := ⟨rfl, rfl⟩
  sent h := absurd h (by simp [subscribe, SendTask.running])

/-- Later broadcasts do not change what went through the receiver. -/
theorem received_append {later : List (NodeUpdate J)} (h : x.next ≤ s.broadcasts.length)
    (hs' : s'.broadcasts = s.broadcasts ++ later) : x.received s' = x.received s := by
  rw [received, received, hs', List.take_append_of_le_length h]

theorem Delivery.airs {b : Act B} (h : Delivery s x) (ha : Airs cfg s s' b) : Delivery s' x := by
  obtain ⟨later, hlater⟩ := ha.exists_broadcasts
  refine ⟨h.start_le, ?_, h.early, fun hrun => ?_⟩
  · rw [hlater, List.length_append]
    exact h.next_le.trans (Nat.le_add_right _ _)
  · rw [received_append h.next_le hlater]
    exact h.sent hrun

/-- Without a filter, every update is forwarded. -/
theorem forwarded_of_filter_none (h : x.filter = none) (updates : List (NodeUpdate J)) :
    x.forwarded updates = updates.map .update := by
  rw [forwarded, h]
  exact congrArg _ (List.filter_eq_self.mpr fun update _ => rfl)

theorem forwarded_concat_of_passes {updates : List (NodeUpdate J)} {update : NodeUpdate J}
    (h : passes x.filter update.nodeId = true) :
    x.forwarded (updates ++ [update]) = x.forwarded updates ++ [.update update] := by
  rw [forwarded, forwarded, List.filter_append, List.map_append, List.filter_singleton, h]
  rfl

theorem forwarded_concat_of_not_passes {updates : List (NodeUpdate J)} {update : NodeUpdate J}
    (h : passes x.filter update.nodeId = false) :
    x.forwarded (updates ++ [update]) = x.forwarded updates := by
  rw [forwarded, forwarded, List.filter_append, List.filter_singleton, h, cond_false, List.append_nil]

/-- One more update goes through the receiver. -/
theorem received_succ {update : NodeUpdate J} (hle : x.start ≤ x.next)
    (hnext : s.broadcasts[x.next]? = some update) :
    (s.broadcasts.take (x.next + 1)).drop x.start = x.received s ++ [update] := by
  have hlen : x.start ≤ (s.broadcasts.take x.next).length := by
    rw [List.length_take_of_le (List.getElem?_eq_some_iff.mp hnext).1.le]
    exact hle
  rw [List.take_add_one, hnext, Option.toList_some, List.drop_append_of_le_length hlen]
  rfl

theorem Delivery.moves (h : Delivery s x) (hsound : x.Sound)
    (hlag : a = .recv → s.broadcasts.length ≤ x.next + broadcastCapacity) (hm : x.Moves s y a) :
    Delivery s y := by
  have hspawned : x.handler.early = true → x.sendTask.running = true → False := by
    intro hearly hrun
    simp [(hsound hearly).1, SendTask.running] at hrun
  cases hm with
  | begin hhandler =>
    exact ⟨h.start_le, h.next_le, fun _ => h.early (by rw [hhandler]; rfl), h.sent⟩
  | read n due visited node hhandler =>
    have hearly : x.handler.early = true := by rw [hhandler]; rfl
    exact ⟨h.start_le, h.next_le, fun _ => h.early hearly, fun hrun => (hspawned hearly hrun).elim⟩
  | collected due visited hhandler =>
    exact ⟨h.start_le, h.next_le, fun _ => h.early (by rw [hhandler]; rfl), h.sent⟩
  | init hhandler =>
    obtain ⟨hnext, hsent⟩ := h.early (by rw [hhandler]; rfl)
    refine ⟨h.start_le, h.next_le, fun hearly => absurd hearly (by simp [Handler.early]), fun _ => ?_⟩
    have hnone : (s.broadcasts.take x.next).drop x.start = [] := by
      rw [hnext]
      exact List.drop_eq_nil_of_le (List.length_take_le _ _)
    simp [hsent, SendTask.inFlight, forwarded, received, hnone]
  | refused =>
    exact ⟨h.start_le, h.next_le, fun hearly => absurd hearly (by simp [Handler.early]), h.sent⟩
  | lagged next htask hbehind =>
    have := hlag rfl
    omega
  | skipped update htask hnext hpasses =>
    have hrun : x.sendTask.running = true := by rw [htask]; rfl
    refine ⟨h.start_le.trans (Nat.le_succ _), (List.getElem?_eq_some_iff.mp hnext).1,
      fun hearly => (hspawned hearly hrun).elim, fun _ => ?_⟩
    show _ = _ :: x.forwarded ((s.broadcasts.take (x.next + 1)).drop x.start)
    rw [received_succ h.start_le hnext, forwarded_concat_of_not_passes hpasses]
    exact h.sent hrun
  | taken update htask hnext hpasses =>
    have hrun : x.sendTask.running = true := by rw [htask]; rfl
    refine ⟨h.start_le.trans (Nat.le_succ _), (List.getElem?_eq_some_iff.mp hnext).1,
      fun hearly => (hspawned hearly hrun).elim, fun _ => ?_⟩
    have hsent := h.sent hrun
    rw [htask, SendTask.inFlight, List.append_nil] at hsent
    show x.sent ++ [.update update] = _ :: x.forwarded ((s.broadcasts.take (x.next + 1)).drop x.start)
    rw [received_succ h.start_le hnext, forwarded_concat_of_passes hpasses, hsent]
    rfl
  | sent update htask =>
    have hrun : x.sendTask.running = true := by rw [htask]; rfl
    refine ⟨h.start_le, h.next_le, fun hearly => (hspawned hearly hrun).elim, fun _ => ?_⟩
    have hsent := h.sent hrun
    rw [htask] at hsent
    exact (List.append_nil _).trans hsent
  | failed update htask =>
    have hrun : x.sendTask.running = true := by rw [htask]; rfl
    exact ⟨h.start_le, h.next_le, fun hearly => (hspawned hearly hrun).elim,
      fun hrun => absurd hrun (by simp [SendTask.running])⟩
  | clientGone => exact ⟨h.start_le, h.next_le, h.early, h.sent⟩
  | finish =>
    exact ⟨h.start_le, h.next_le, fun hearly => absurd hearly (by simp [Handler.early]), h.sent⟩

/-- **A connection that is up to date has delivered every update since its subscription.** -/
theorem Delivery.upToDate (h : Delivery s x) (hup : x.UpToDate s) :
    x.sent = .init x.nodes :: x.forwarded (s.broadcasts.drop x.start) := by
  obtain ⟨-, htask, hnext⟩ := hup
  have hsent := h.sent (by rw [htask]; rfl)
  rwa [htask, SendTask.inFlight, List.append_nil, received, hnext, List.take_length] at hsent

end Socket

namespace Hub

variable {hub : Hub J} {i : ℕ} {db : Database J} {clock : Int64} {as : List (HubAct B)}

/-- No connection of a run has sent an update outside its filter. -/
theorem filtered (hrun : Machine.run (step cfg) (boot db clock) as = some hub)
    (hx : hub.sockets[i]? = some x) : x.Filtered :=
  (run_socket (K := fun _ => True) (I := fun _ x => x.Filtered) (P := fun _ _ => True)
    (fun _ _ _ _ _ _ => trivial) (fun _ _ _ _ _ _ _ _ h => h)
    (fun _ filter _ => Socket.filtered_subscribe filter) (fun _ _ _ _ _ _ _ hm h => h.moves hm)
    trivial (Machine.along_true _ as) hrun).2 x hx

/-- A connection of a run that does not lag delivers. -/
theorem delivers (hrun : Machine.run (step cfg) (boot db clock) as = some hub)
    (hlags : Machine.Along (step cfg) (NeverLags i) (boot db clock) as)
    (hx : hub.sockets[i]? = some x) : Socket.Delivery hub.server.1 x := by
  refine ((run_socket (K := fun _ => True) (I := fun s x => x.Sound ∧ Socket.Delivery s x)
    (fun _ _ _ _ _ _ => trivial) ?_ ?_ ?_ trivial hlags hrun).2 x hx).2
  · rintro hub b p x - - - hs ⟨hsound, hdel⟩
    exact ⟨hsound, hdel.airs (step_airs hs)⟩
  · intro p filter _
    exact ⟨Socket.sound_subscribe filter, Socket.delivery_subscribe filter⟩
  · rintro hub b x y - hguard hx hm ⟨hsound, hdel⟩
    refine ⟨hsound.moves hm, hdel.moves hsound ?_ hm⟩
    rintro rfl
    exact hguard rfl x hx

end Hub

end Hakuraku.Server

import Hakuraku.Lib.Sums
import Hakuraku.Server.Sockets
import Mathlib.Algebra.Order.Ring.Int
import Mathlib.Algebra.Order.Group.Defs

/-!
# Subscriptions that outlive their connection

Reference: `pulse-server/src/ws.rs`, `WsGuard` and `handle_socket`.

The handler waits for its two tasks in a `select!` and returns as soon as one of them has ended. The
handle of the other one is dropped with the `select!`, which detaches the task and does not stop it.
So after a client has gone, the send task keeps its receiver until an update that passes its filter
comes by and cannot be sent.

While the handler has not spawned the send task, it is the handler that holds the receiver.
-/

namespace Hakuraku.Server

variable {B J : Type} {cfg : Config B J} {s : Process J} {hub hub' : Hub J}

namespace Socket

/-- The broadcast receivers that the handler and the tasks of a connection hold. -/
def receivers (x : Socket J) : ℤ := if x.handler.early || x.sendTask.running then 1 else 0

/-- What a connection counts for in `WS_CONNECTIONS`. -/
def counted (x : Socket J) : ℤ := if x.handler = .returned then 0 else 1

/-- If the handler has returned, neither of its tasks is running. -/
def TornDown (x : Socket J) : Prop :=
  x.handler = .returned → x.sendTask.running = false ∧ x.recvTask.running = false

/-- The handler is about to return, for its send task has ended. -/
def Ending (x : Socket J) : Prop := x.handler = .serving ∧ x.sendTask.running = false

/-- The step does not end a connection that was established: no update fails to be sent, and no
handler returns that has spawned its tasks. -/
def StaysConnected (_ : Socket J) : SocketAct → Prop
  | .send ok => ok = true
  | .finish => False
  | _ => True

/-- A handler that returns after it has spawned its tasks finds both of them ended. -/
def EndsCleanly (x : Socket J) : SocketAct → Prop
  | .finish => x.sendTask.running = false ∧ x.recvTask.running = false
  | _ => True

end Socket

namespace Hub

/-- The broadcast receivers held by the WebSocket handlers and tasks. -/
def receivers (hub : Hub J) : ℤ := (hub.sockets.map Socket.receivers).sum

/-- No task of a handler that has returned is running, and the receivers are as many as the
connections. -/
def NoLeak (hub : Hub J) : Prop :=
  (∀ x ∈ hub.sockets, x.TornDown) ∧ hub.receivers = hub.connections

/-- The same, but for the connections that are about to end. -/
def NoLastingLeak (hub : Hub J) : Prop :=
  (∀ x ∈ hub.sockets, x.TornDown) ∧
    ((∀ x ∈ hub.sockets, ¬ x.Ending) → hub.receivers = hub.connections)

/-- A guard on the steps of the connections. -/
def AtSocket (g : Socket J → SocketAct → Prop) (hub : Hub J) : HubAct B → Prop
  | .socket i a => ∀ x, hub.sockets[i]? = some x → g x a
  | _ => True

end Hub

/-! ## One connection -/

namespace Socket

variable {x y : Socket J} {a : SocketAct}

/-- A step tears a connection down, exactly if it does not return from tasks that run. -/
theorem tornDown_moves_iff (hsound : x.Sound) (h : x.TornDown) (hm : x.Moves s y a) :
    y.TornDown ↔ x.EndsCleanly a := by
  cases hm with
  | begin | read | collected | init => exact iff_of_true (fun hret => absurd hret (by simp)) trivial
  | refused hhandler =>
    refine iff_of_true (fun _ => ?_) trivial
    obtain ⟨hsend, hrecv⟩ := hsound (by rw [hhandler]; rfl)
    exact ⟨by simp [hsend, SendTask.running], by simp [hrecv, RecvTask.running]⟩
  | lagged | skipped => exact iff_of_true h trivial
  | taken update htask =>
    exact iff_of_true (fun hret => absurd (h hret).1 (by simp [htask, SendTask.running])) trivial
  | sent update htask =>
    exact iff_of_true (fun hret => absurd (h hret).1 (by simp [htask, SendTask.running])) trivial
  | failed update htask =>
    exact iff_of_true (fun hret => absurd (h hret).1 (by simp [htask, SendTask.running])) trivial
  | clientGone htask => exact iff_of_true (fun hret => ⟨(h hret).1, rfl⟩) trivial
  | finish => exact ⟨fun hy => hy rfl, fun hg _ => hg⟩

/-- A connection holds no receiver that is not counted, once it is torn down. -/
theorem TornDown.receivers_le (h : x.TornDown) : x.receivers ≤ x.counted := by
  unfold receivers counted
  split_ifs with hheld hret
  · simp [hret, Handler.early, (h hret).1] at hheld
  all_goals simp

/-- The connection is torn down, and it holds a receiver exactly if it is counted. -/
def Balanced (x : Socket J) : Prop := x.TornDown ∧ x.receivers = x.counted

theorem balanced_subscribe (filter : Option String) : (subscribe s filter).Balanced :=
  ⟨fun hret => absurd hret (by simp [subscribe]), rfl⟩

/-- A connection stays balanced as long as it is not ended. -/
theorem balanced_moves_iff (hsound : x.Sound) (h : x.Balanced) (hm : x.Moves s y a) :
    y.Balanced ↔ x.StaysConnected a := by
  rw [Balanced, tornDown_moves_iff hsound h.1 hm]
  cases hm with
  | begin | read | collected | init => exact iff_of_true ⟨trivial, rfl⟩ trivial
  | refused hhandler =>
    have hsend := (hsound (by rw [hhandler]; rfl)).1
    exact iff_of_true ⟨trivial, by simp [receivers, counted, hsend, Handler.early, SendTask.running]⟩
      trivial
  | lagged | skipped | clientGone => exact iff_of_true ⟨trivial, h.2⟩ trivial
  | taken update htask =>
    refine iff_of_true ⟨trivial, ?_⟩ trivial
    simpa [receivers, counted, htask, SendTask.running] using h.2
  | sent update htask =>
    refine iff_of_true ⟨trivial, ?_⟩ rfl
    simpa [receivers, counted, htask, SendTask.running] using h.2
  | failed update htask =>
    refine iff_of_false (fun hy => ?_) (by simp [StaysConnected])
    -- the receiver is gone, and the handler has not returned
    have hlate : x.handler.early = false :=
      Bool.eq_false_iff.mpr fun hearly => absurd (hsound hearly).1 (by simp [htask])
    have hopen : x.handler ≠ .returned :=
      fun hret => absurd (h.1 hret).1 (by simp [htask, SendTask.running])
    exact absurd hy.2 (by simp [receivers, counted, hlate, hopen, SendTask.running])
  | finish hhandler hended =>
    refine iff_of_false (fun hy => ?_) id
    have hheld : x.receivers = 0 := by simp [receivers, hhandler, hy.1.1, Handler.early]
    exact absurd (hheld.symm.trans h.2) (by simp [counted, hhandler])

end Socket

/-! ## All connections -/

namespace Hub

/-- What every connection has from the start, and each step of a connection keeps exactly if it is
guarded, a step of the hub keeps exactly if it is guarded. -/
theorem forall_sockets_step_iff {T : Socket J → Prop} {g : Socket J → SocketAct → Prop}
    {a : HubAct B} (hsubscribe : ∀ s filter, T (.subscribe s filter))
    (hmoves : ∀ s x y a, x.Sound → T x → x.Moves s y a → (T y ↔ g x a))
    (hsound : ∀ x ∈ hub.sockets, x.Sound) (hT : ∀ x ∈ hub.sockets, T x)
    (h : step cfg hub a = some hub') : (∀ x ∈ hub'.sockets, T x) ↔ hub.AtSocket g a := by
  cases a with
  | server b =>
    obtain ⟨p, -, rfl⟩ := step_server_iff.mp h
    exact iff_of_true hT trivial
  | connect filter =>
    obtain rfl := step_connect_iff.mp h
    refine iff_of_true (fun x hx => ?_) trivial
    rcases List.mem_append.mp hx with hold | hnew
    · exact hT x hold
    · exact List.mem_singleton.mp hnew ▸ hsubscribe _ _
  | socket i b =>
    obtain ⟨x, hx, y, hy, rfl⟩ := step_socket_iff.mp h
    have hmem := List.mem_of_getElem? hx
    have hone := hmoves _ x y b (hsound x hmem) (hT x hmem) (Socket.step_moves hy)
    simp only [AtSocket, hx, Option.some.injEq, forall_eq']
    rw [← hone]
    constructor
    · intro hall
      exact hall y (List.mem_set (List.getElem?_eq_some_iff.mp hx).1 y)
    · intro hTy z hz
      rcases List.mem_or_eq_of_mem_set hz with hold | rfl
      · exact hT z hold
      · exact hTy

/-- The handlers have their tasks in order, and the gauge counts the connections that have not
returned. -/
structure Sound (hub : Hub J) : Prop where
  sockets : ∀ x ∈ hub.sockets, x.Sound
  counted : hub.connections = (hub.sockets.map Socket.counted).sum

theorem sound_boot (db : Database J) (clock : Int64) : (boot db clock).Sound :=
  ⟨fun x hx => absurd hx (by simp [boot]), rfl⟩

theorem Sound.step {a : HubAct B} (h : hub.Sound) (hs : step cfg hub a = some hub') :
    hub'.Sound where
  sockets := by
    refine (forall_sockets_step_iff (T := Socket.Sound) (g := fun _ _ => True)
      (fun s => Socket.sound_subscribe)
      (fun s x y a hx _ hm => iff_of_true (hx.moves hm) trivial) h.sockets h.sockets hs).mpr ?_
    cases a with
    | server | connect => trivial
    | socket => exact fun _ _ => trivial
  counted := by
    cases a with
    | server b =>
      obtain ⟨p, -, rfl⟩ := step_server_iff.mp hs
      exact h.counted
    | connect filter =>
      obtain rfl := step_connect_iff.mp hs
      show hub.connections + 1 = _
      rw [h.counted, List.map_append, List.sum_append]
      rfl
    | socket i b =>
      obtain ⟨x, hx, y, hy, rfl⟩ := step_socket_iff.mp hs
      have hset := Sums.sum_map_set Socket.counted y hx
      have hreturned := (Socket.step_moves hy).returned
      rw [← h.counted, Socket.counted, Socket.counted] at hset
      show (if _ then _ else _) = ((hub.sockets.set i y).map Socket.counted).sum
      split_ifs with hends
      · rw [if_neg hends.2, if_pos hends.1, add_zero] at hset
        exact (eq_sub_of_add_eq hset).symm
      · by_cases hx' : x.handler = .returned
        · rw [if_pos hx', if_pos (hreturned hx')] at hset
          omega
        · rw [if_neg hx', if_neg fun hy' => hends ⟨hy', hx'⟩] at hset
          omega

/-- Nothing leaks exactly if every connection is balanced. -/
theorem Sound.noLeak_iff (h : hub.Sound) : hub.NoLeak ↔ ∀ x ∈ hub.sockets, x.Balanced := by
  rw [NoLeak, receivers, h.counted]
  constructor
  · rintro ⟨htorn, hsum⟩ x hx
    exact ⟨htorn x hx, Sums.eq_of_sum_map_eq (fun x hx => (htorn x hx).receivers_le) hsum x hx⟩
  · intro hall
    refine ⟨fun x hx => (hall x hx).1, congrArg List.sum ?_⟩
    exact List.map_congr_left fun x hx => (hall x hx).2

/-- A connection that is torn down and not about to end is balanced. -/
theorem Sound.noLastingLeak_iff (h : hub.Sound) :
    hub.NoLastingLeak ↔ ∀ x ∈ hub.sockets, x.TornDown := by
  refine ⟨And.left, fun htorn => ⟨htorn, fun hending => ?_⟩⟩
  refine (h.noLeak_iff.mpr fun x hx => ⟨htorn x hx, ?_⟩).2
  have hnot := hending x hx
  have hdown := htorn x hx
  cases hhandler : x.handler <;>
    simp_all [Socket.receivers, Socket.counted, Handler.early, Socket.Ending, Socket.TornDown]

/-- **Nothing leaks as long as no established connection ends.** In every run, each state has no task
of a returned handler running and as many receivers as connections, if and only if no update fails to
be sent and no handler returns that has spawned its tasks. But for connections that are about to end,
it is if and only if every handler that returns finds both of its tasks ended. -/
theorem no_leak_iff_stays_connected {db : Database J} {clock : Int64} {as : List (HubAct B)}
    (hrun : Machine.run (step cfg) (boot db clock) as = some hub) :
    (Machine.Always (step cfg) NoLeak (boot db clock) as ↔
      Machine.Along (step cfg) (AtSocket Socket.StaysConnected) (boot db clock) as) ∧
    (Machine.Always (step cfg) NoLastingLeak (boot db clock) as ↔
      Machine.Along (step cfg) (AtSocket Socket.EndsCleanly) (boot db clock) as) := by
  constructor
  · refine Machine.always_iff_along (I := Sound) (fun _ _ _ hI hs => hI.step hs) ?_
      (sound_boot db clock) ((sound_boot db clock).noLeak_iff.mpr (by simp [boot])) hrun
    intro hub a hub' hI hQ hs
    rw [(hI.step hs).noLeak_iff]
    exact forall_sockets_step_iff (fun s => Socket.balanced_subscribe)
      (fun s x y a hx hT hm => Socket.balanced_moves_iff hx hT hm) hI.sockets
      (hI.noLeak_iff.mp hQ) hs
  · refine Machine.always_iff_along (I := Sound) (fun _ _ _ hI hs => hI.step hs) ?_
      (sound_boot db clock) ((sound_boot db clock).noLastingLeak_iff.mpr (by simp [boot])) hrun
    intro hub a hub' hI hQ hs
    rw [(hI.step hs).noLastingLeak_iff]
    exact forall_sockets_step_iff (fun s filter => (Socket.balanced_subscribe filter).1)
      (fun s x y a hx hT hm => Socket.tornDown_moves_iff hx hT hm) hI.sockets hQ.1 hs

/-- A client that watches one node connects, and gets an update of it. -/
def watchRun : List (HubAct ℕ) :=
  [.connect (some "node-01"), .socket 0 .begin, .socket 0 .collected, .socket 0 (.sendInit true),
    .server (.openStream "node-01"),
    .server (.receive 0 (.message (some (.stats ⟨"node-01", 1000, 7⟩)))),
    .server (.enqueue 0), .server (.broadcast 0), .socket 0 .recv, .socket 0 (.send true)]

theorem no_leak_watchRun :
    Machine.Always (step .byText) NoLeak (boot Database.empty 0) watchRun :=
  (no_leak_iff_stays_connected (Option.some_get (by decide)).symm).1.mpr
    (by simp [watchRun, Machine.Along, AtSocket, Socket.StaysConnected])

/-- A client that watches one node connects, and goes away. -/
def leaveRun : List (HubAct ℕ) :=
  [.connect (some "node-01"), .socket 0 .begin, .socket 0 .collected, .socket 0 (.sendInit true),
    .socket 0 .clientGone, .socket 0 .finish]

/-- **A closed connection leaves its subscription behind.** The handler has returned and no connection
is counted, but the send task still runs and holds a receiver. -/
theorem subscription_outlives_connection :
    ∃ hub, Machine.run (step Config.byText) (boot Database.empty 0) leaveRun = some hub ∧
      (∃ x ∈ hub.sockets, x.handler = .returned ∧ x.sendTask.running = true) ∧
      hub.connections = 0 ∧ hub.receivers = 1 ∧ ¬ hub.NoLeak ∧ ¬ hub.NoLastingLeak := by
  have hleft : ∀ h, ∃ x ∈ ((Machine.run (step Config.byText) (boot Database.empty 0) leaveRun).get
      h).sockets, x.handler = .returned ∧ x.sendTask.running = true :=
    fun _ => ⟨_, List.mem_of_getElem? (i := 0) rfl, by decide, by decide⟩
  refine ⟨_, (Option.some_get (by decide)).symm, hleft _, by decide, by decide, ?_, ?_⟩
  all_goals
    intro hnone
    obtain ⟨x, hx, hreturned, hrunning⟩ := hleft (by decide)
    exact absurd (hnone.1 x hx hreturned).1 (by simp [hrunning])

end Hub

end Hakuraku.Server

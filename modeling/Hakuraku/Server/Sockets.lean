import Hakuraku.Server.Tasks

/-!
# WebSocket connections

Reference: `pulse-server/src/ws.rs`; `pulse-server/src/state.rs`, `broadcast_tx`.

A connection is the handler `handle_socket` with the two tasks it spawns. The handler subscribes to
the broadcast channel, reads the registry entry by entry, sends what it has read as `Init` and then
waits for either task. The send task forwards what its receiver yields, and the receive task waits for
the client to go away. Every access of the registry or the channel and every message sent is a step of
its own, and the steps of the connections are interleaved with those of the server.

The reading of the registry goes on while other tasks change it. As the scan of the liveness checker
does, it comes to every entry that was there when it began, in any order and to none of them twice;
entries that are inserted meanwhile may be read or not.

A receiver of the channel is a position in `Process.broadcasts`. One that is more than the channel's
capacity behind has lagged: it skips to the oldest update that is still kept. The channel is closed
when its last sender is dropped, which is at the end of the process and not modelled. The messages
consist of strings, numbers and JSON values, for which `serde_json::to_string` does not fail.

`start`, `since` and `reads` are ghost records of the moments at which a connection subscribed and
read the entries, as lengths of `Process.broadcasts` and `Process.receipts`.
-/

namespace Hakuraku.Server

/-- The capacity of the broadcast channel. -/
def broadcastCapacity : ℕ := 256

/-- `NodeSnapshot`: an entry of the `Init` message. -/
structure NodeSnapshot (J : Type) where
  nodeId : String
  hostname : String
  lastSeenMs : Int64
  status : NodeStatus
  stats : Option J
deriving DecidableEq

/-- `WsMessage`. The fields of `Update` are those of a `NodeUpdate`. -/
inductive WsMessage (J : Type) where
  | init (nodes : List (NodeSnapshot J))
  | update (update : NodeUpdate J)
deriving DecidableEq

/-- What `handle_socket` takes from a registry entry. -/
def NodeInfo.toSnapshot {J : Type} (node : NodeInfo J) : NodeSnapshot J :=
  ⟨node.nodeId, node.hostname, node.lastSeenMs, node.status, node.latestStats⟩

/-- The node filter lets a node pass. -/
def passes (filter : Option String) (nodeId : String) : Bool := filter.all (· == nodeId)

/-- Where `handle_socket` stands. -/
inductive Handler where
  /-- Subscribed to the channel, and not yet reading the registry. -/
  | subscribed
  /-- Reading the registry: the entries that were there at the start, and those read. -/
  | reading (due visited : List String)
  | sendingInit
  /-- The tasks are spawned, and neither is known to have ended. -/
  | serving
  | returned
deriving DecidableEq

/-- The handler has not come to spawn its tasks. -/
def Handler.early : Handler → Bool
  | .subscribed | .reading _ _ | .sendingInit => true
  | .serving | .returned => false

/-- Where the send task stands. -/
inductive SendTask (J : Type) where
  | unspawned
  /-- Awaiting the next update. -/
  | receiving
  | sending (update : NodeUpdate J)
  | ended
deriving DecidableEq

/-- The send task runs, and so holds the receiver. -/
def SendTask.running {J : Type} : SendTask J → Bool
  | .receiving | .sending _ => true
  | .unspawned | .ended => false

/-- Where the receive task stands. -/
inductive RecvTask where
  | unspawned
  | listening
  | ended
deriving DecidableEq

/-- The receive task runs. -/
def RecvTask.running : RecvTask → Bool
  | .listening => true
  | .unspawned | .ended => false

/-- A WebSocket connection. -/
structure Socket (J : Type) where
  filter : Option String
  handler : Handler
  /-- The entries collected for `Init`. -/
  nodes : List (NodeSnapshot J)
  sendTask : SendTask J
  recvTask : RecvTask
  /-- The position of the receiver: how many updates of the channel are behind it. -/
  next : ℕ
  /-- The messages sent to the client. -/
  sent : List (WsMessage J)
  /-- How many updates had been broadcast at the subscription. -/
  start : ℕ
  /-- How many messages the server had accepted at the subscription. -/
  since : ℕ
  /-- The nodes whose entries were read, with how many messages the server had accepted then. -/
  reads : List (String × ℕ)
deriving DecidableEq

/-- The steps of a connection. -/
inductive SocketAct where
  /-- The handler begins to read the registry. -/
  | begin
  /-- The handler reads the entry of a node. -/
  | read (nodeId : String)
  | collected
  /-- `Init` is sent, or the socket is found broken. -/
  | sendInit (ok : Bool)
  /-- The receiver of the send task yields. -/
  | recv
  /-- An update is sent, or the socket is found broken. -/
  | send (ok : Bool)
  /-- The receive task finds the socket closed or broken. -/
  | clientGone
  /-- The handler finds one of its tasks ended, and returns. -/
  | finish

namespace Socket

variable {J : Type}

/-- A connection that has subscribed. -/
def subscribe (s : Process J) (filter : Option String) : Socket J where
  filter
  handler := .subscribed
  nodes := []
  sendTask := .unspawned
  recvTask := .unspawned
  next := s.broadcasts.length
  sent := []
  start := s.broadcasts.length
  since := s.receipts.length
  reads := []

/-- `rx.recv()` of the send task, and what it does with the outcome. -/
def recv (s : Process J) (x : Socket J) : Option (Socket J) :=
  if broadcastCapacity < s.broadcasts.length - x.next then
    -- `Lagged`: the task goes on with the oldest update that is kept
    some { x with next := s.broadcasts.length - broadcastCapacity }
  else
    s.broadcasts[x.next]?.map fun update =>
      if passes x.filter update.nodeId then
        { x with next := x.next + 1, sendTask := .sending update }
      else { x with next := x.next + 1 }

/-- One step of a connection to the server. -/
def step (s : Process J) (x : Socket J) : SocketAct → Option (Socket J)
  | .begin =>
    match x.handler with
    | .subscribed => some { x with handler := .reading s.nodes.keys [] }
    | _ => none
  | .read n =>
    match x.handler, s.nodes.lookup n with
    | .reading due visited, some node =>
      if n ∈ visited then none
      else
        some { x with
          handler := .reading due (n :: visited)
          nodes := if passes x.filter n then x.nodes ++ [node.toSnapshot] else x.nodes
          reads := x.reads ++ [(n, s.receipts.length)] }
    | _, _ => none
  | .collected =>
    match x.handler with
    | .reading due visited =>
      if ∀ n ∈ due, n ∈ visited then some { x with handler := .sendingInit } else none
    | _ => none
  | .sendInit ok =>
    match x.handler with
    | .sendingInit =>
      if ok then
        some { x with
          handler := .serving, sendTask := .receiving, recvTask := .listening,
          sent := x.sent ++ [.init x.nodes] }
      else some { x with handler := .returned }
    | _ => none
  | .recv =>
    match x.sendTask with
    | .receiving => x.recv s
    | _ => none
  | .send ok =>
    match x.sendTask with
    | .sending update =>
      if ok then some { x with sendTask := .receiving, sent := x.sent ++ [.update update] }
      else some { x with sendTask := .ended }
    | _ => none
  | .clientGone =>
    match x.recvTask with
    | .listening => some { x with recvTask := .ended }
    | _ => none
  | .finish =>
    match x.handler with
    | .serving =>
      -- the handle of the other task is dropped, which detaches it
      if x.sendTask.running && x.recvTask.running then none
      else some { x with handler := .returned }
    | _ => none

end Socket

/-- A server, the database and the WebSocket connections to the server. -/
structure Hub (J : Type) where
  server : State J
  sockets : List (Socket J)
  /-- The gauge `WS_CONNECTIONS`. -/
  connections : ℤ

/-- The steps of a server with its connections. -/
inductive HubAct (B : Type) where
  | server (a : Act B)
  /-- A client connects with a node filter: the connection is counted and subscribes. -/
  | connect (filter : Option String)
  | socket (i : ℕ) (a : SocketAct)

namespace Hub

variable {B J : Type}

/-- A server that has just been started. -/
def boot (db : Database J) (clock : Int64) : Hub J := ⟨(.boot db clock, db), [], 0⟩

/-- One step of a server with its connections. A handler that returns drops its `WsGuard`. -/
def step (cfg : Config B J) (hub : Hub J) : HubAct B → Option (Hub J)
  | .server a => (Server.step cfg hub.server a).map ({ hub with server := · })
  | .connect filter =>
    some { hub with
      sockets := hub.sockets ++ [.subscribe hub.server.1 filter]
      connections := hub.connections + 1 }
  | .socket i a => do
    let x ← hub.sockets[i]?
    let y ← x.step hub.server.1 a
    some { hub with
      sockets := hub.sockets.set i y
      connections :=
        if y.handler = .returned ∧ x.handler ≠ .returned then hub.connections - 1
        else hub.connections }

end Hub

/-! ## What each step does -/

variable {B J : Type} {cfg : Config B J} {s : Process J} {hub hub' : Hub J} {i : ℕ}

/-- **What a step of a connection does.** -/
inductive Socket.Moves (s : Process J) (x : Socket J) : Socket J → SocketAct → Prop where
  | begin (hhandler : x.handler = .subscribed) :
      Moves s x { x with handler := .reading s.nodes.keys [] } .begin
  | read (n : String) (due visited : List String) (node : NodeInfo J)
      (hhandler : x.handler = .reading due visited) (hnode : s.nodes.lookup n = some node)
      (hnew : n ∉ visited) :
      Moves s x { x with
        handler := .reading due (n :: visited)
        nodes := if passes x.filter n then x.nodes ++ [node.toSnapshot] else x.nodes
        reads := x.reads ++ [(n, s.receipts.length)] } (.read n)
  | collected (due visited : List String) (hhandler : x.handler = .reading due visited)
      (hall : ∀ n ∈ due, n ∈ visited) : Moves s x { x with handler := .sendingInit } .collected
  | init (hhandler : x.handler = .sendingInit) :
      Moves s x { x with
        handler := .serving, sendTask := .receiving, recvTask := .listening,
        sent := x.sent ++ [.init x.nodes] } (.sendInit true)
  | refused (hhandler : x.handler = .sendingInit) :
      Moves s x { x with handler := .returned } (.sendInit false)
  | lagged (next : ℕ) (htask : x.sendTask = .receiving)
      (hlag : broadcastCapacity < s.broadcasts.length - x.next)
      (hnext : next = s.broadcasts.length - broadcastCapacity) : Moves s x { x with next } .recv
  | skipped (update : NodeUpdate J) (htask : x.sendTask = .receiving)
      (hnext : s.broadcasts[x.next]? = some update) (hpasses : passes x.filter update.nodeId = false) :
      Moves s x { x with next := x.next + 1 } .recv
  | taken (update : NodeUpdate J) (htask : x.sendTask = .receiving)
      (hnext : s.broadcasts[x.next]? = some update) (hpasses : passes x.filter update.nodeId = true) :
      Moves s x { x with next := x.next + 1, sendTask := .sending update } .recv
  | sent (update : NodeUpdate J) (htask : x.sendTask = .sending update) :
      Moves s x { x with sendTask := .receiving, sent := x.sent ++ [.update update] } (.send true)
  | failed (update : NodeUpdate J) (htask : x.sendTask = .sending update) :
      Moves s x { x with sendTask := .ended } (.send false)
  | clientGone (htask : x.recvTask = .listening) :
      Moves s x { x with recvTask := .ended } .clientGone
  | finish (hhandler : x.handler = .serving)
      (hended : (x.sendTask.running && x.recvTask.running) = false) :
      Moves s x { x with handler := .returned } .finish

/-- Every step of a connection is one of these. -/
theorem Socket.step_moves {x y : Socket J} {a : SocketAct} (h : x.step s a = some y) :
    x.Moves s y a := by
  cases a with
  | begin =>
    simp only [step] at h
    split at h
    · rename_i hhandler
      exact Option.some.inj h ▸ .begin hhandler
    · exact absurd h (by simp)
  | read n =>
    simp only [step] at h
    split at h
    · rename_i due visited node hhandler hnode
      split at h
      · exact absurd h (by simp)
      · rename_i hnew
        exact Option.some.inj h ▸ .read n due visited node hhandler hnode hnew
    · exact absurd h (by simp)
  | collected =>
    simp only [step] at h
    split at h
    · rename_i due visited hhandler
      split at h
      · rename_i hall
        exact Option.some.inj h ▸ .collected due visited hhandler hall
      · exact absurd h (by simp)
    · exact absurd h (by simp)
  | sendInit ok =>
    simp only [step] at h
    split at h
    · rename_i hhandler
      cases ok with
      | true => exact Option.some.inj h ▸ .init hhandler
      | false => exact Option.some.inj h ▸ .refused hhandler
    · exact absurd h (by simp)
  | recv =>
    simp only [step] at h
    split at h
    · rename_i htask
      rw [recv] at h
      split at h
      · rename_i hlag
        exact Option.some.inj h ▸ .lagged _ htask hlag rfl
      · obtain ⟨update, hnext, rfl⟩ := Option.map_eq_some_iff.mp h
        split
        · rename_i hpasses
          exact .taken update htask hnext hpasses
        · rename_i hpasses
          exact .skipped update htask hnext (Bool.eq_false_iff.mpr hpasses)
    · exact absurd h (by simp)
  | send ok =>
    simp only [step] at h
    split at h
    · rename_i update htask
      cases ok with
      | true => exact Option.some.inj h ▸ .sent update htask
      | false => exact Option.some.inj h ▸ .failed update htask
    · exact absurd h (by simp)
  | clientGone =>
    simp only [step] at h
    split at h
    · rename_i htask
      exact Option.some.inj h ▸ .clientGone htask
    · exact absurd h (by simp)
  | finish =>
    simp only [step] at h
    split at h
    · rename_i hhandler
      split at h
      · exact absurd h (by simp)
      · rename_i hended
        exact Option.some.inj h ▸ .finish hhandler (Bool.eq_false_iff.mpr hended)
    · exact absurd h (by simp)

namespace Socket

variable {x y : Socket J} {a : SocketAct}

/-- A handler that has not come to spawn its tasks has none. -/
def Sound (x : Socket J) : Prop :=
  x.handler.early = true → x.sendTask = .unspawned ∧ x.recvTask = .unspawned

theorem sound_subscribe (filter : Option String) : (subscribe s filter).Sound := fun _ => ⟨rfl, rfl⟩

theorem Sound.moves (h : x.Sound) (hm : x.Moves s y a) : y.Sound := by
  cases hm with
  | begin hhandler => exact fun _ => h (by rw [hhandler]; rfl)
  | read n due visited node hhandler => exact fun _ => h (by rw [hhandler]; rfl)
  | collected due visited hhandler => exact fun _ => h (by rw [hhandler]; rfl)
  | init | refused | finish => exact fun hearly => absurd hearly (by simp [Handler.early])
  | lagged | skipped => exact h
  | taken update htask => exact fun hearly => absurd (h hearly).1 (by simp [htask])
  | sent update htask => exact fun hearly => absurd (h hearly).1 (by simp [htask])
  | failed update htask => exact fun hearly => absurd (h hearly).1 (by simp [htask])
  | clientGone htask => exact fun hearly => absurd (h hearly).2 (by simp [htask])

/-- A handler returns once. -/
theorem Moves.returned (hm : x.Moves s y a) (h : x.handler = .returned) : y.handler = .returned := by
  cases hm with
  | begin hhandler | read n due visited node hhandler | collected due visited hhandler
  | init hhandler => exact absurd (hhandler.symm.trans h) (by simp)
  | refused | finish => rfl
  | lagged | skipped | taken | sent | failed | clientGone => exact h

end Socket

namespace Hub

theorem step_server_iff {a : Act B} : step cfg hub (.server a) = some hub' ↔
    ∃ p, Server.step cfg hub.server a = some p ∧ { hub with server := p } = hub' := by
  simp only [step, Option.map_eq_some_iff]

theorem step_connect_iff {filter : Option String} : step cfg hub (.connect filter) = some hub' ↔
    { hub with
      sockets := hub.sockets ++ [.subscribe hub.server.1 filter]
      connections := hub.connections + 1 } = hub' := by
  simp only [step, Option.some.injEq]

theorem step_socket_iff {a : SocketAct} : step cfg hub (.socket i a) = some hub' ↔
    ∃ x, hub.sockets[i]? = some x ∧ ∃ y, x.step hub.server.1 a = some y ∧
      { hub with
        sockets := hub.sockets.set i y
        connections :=
          if y.handler = .returned ∧ x.handler ≠ .returned then hub.connections - 1
          else hub.connections } = hub' := by
  simp only [step, Option.bind_eq_bind, Option.bind_eq_some_iff, Option.some.injEq]

/-- What a step of the hub does to one connection. -/
theorem step_socket_cases {a : HubAct B} {y : Socket J} (h : step cfg hub a = some hub')
    (hy : hub'.sockets[i]? = some y) :
    (∃ b, a = .server b ∧ Server.step cfg hub.server b = some hub'.server ∧
      hub.sockets[i]? = some y) ∨
    hub'.server = hub.server ∧
      (hub.sockets[i]? = some y ∨
      (∃ filter, a = .connect filter ∧ i = hub.sockets.length ∧
        y = .subscribe hub.server.1 filter) ∨
      ∃ x b, a = .socket i b ∧ hub.sockets[i]? = some x ∧ x.Moves hub.server.1 y b) := by
  cases a with
  | server b =>
    obtain ⟨p, hp, rfl⟩ := step_server_iff.mp h
    exact .inl ⟨b, rfl, hp, hy⟩
  | connect filter =>
    obtain rfl := step_connect_iff.mp h
    refine .inr ⟨rfl, ?_⟩
    rw [List.getElem?_append] at hy
    split at hy
    · exact .inl hy
    · have hlast := (List.getElem?_eq_some_iff.mp hy).1
      rw [List.length_singleton] at hlast
      refine .inr (.inl ⟨filter, rfl, by omega, ?_⟩)
      exact List.mem_singleton.mp (List.mem_of_getElem? hy)
  | socket j b =>
    obtain ⟨x, hx, z, hz, rfl⟩ := step_socket_iff.mp h
    refine .inr ⟨rfl, ?_⟩
    rcases Machine.getElem?_set_cases hy with ⟨rfl, rfl⟩ | ⟨-, hold⟩
    · exact .inr (.inr ⟨x, b, rfl, hx, Socket.step_moves hz⟩)
    · exact .inl hold

section Invariants

/-! An invariant of a connection: `K` holds of the server, and `I` relates the server and the
connection. -/

variable {K : State J → Prop} {I : Process J → Socket J → Prop} {P : Hub J → HubAct B → Prop}

theorem step_keeps {a : HubAct B}
    (hK : ∀ hub b p, K hub.server → P hub (.server b) → Server.step cfg hub.server b = some p → K p)
    (hserver : ∀ hub b p x, K hub.server → P hub (.server b) → hub.sockets[i]? = some x →
      Server.step cfg hub.server b = some p → I hub.server.1 x → I p.1 x)
    (hmoves : ∀ hub b x y, K hub.server → P hub (.socket i b) → hub.sockets[i]? = some x →
      x.Moves hub.server.1 y b → I hub.server.1 x → I hub.server.1 y)
    (hconnect : i = hub.sockets.length → ∀ filter, I hub.server.1 (.subscribe hub.server.1 filter))
    (hk : K hub.server) (hI : ∀ x, hub.sockets[i]? = some x → I hub.server.1 x)
    (hguard : P hub a) (h : step cfg hub a = some hub') :
    K hub'.server ∧ ∀ x, hub'.sockets[i]? = some x → I hub'.server.1 x := by
  refine ⟨?_, fun y hy => ?_⟩
  · cases a with
    | server b =>
      obtain ⟨p, hp, rfl⟩ := step_server_iff.mp h
      exact hK hub b p hk hguard hp
    | connect filter =>
      obtain rfl := step_connect_iff.mp h
      exact hk
    | socket j b =>
      obtain ⟨x, -, y, -, rfl⟩ := step_socket_iff.mp h
      exact hk
  · rcases step_socket_cases h hy with
      ⟨b, rfl, hp, hold⟩ | ⟨hsame, hold | ⟨filter, rfl, hlast, rfl⟩ | ⟨x, b, rfl, hx, hmove⟩⟩
    · exact hserver hub b _ y hk hguard hold hp (hI y hold)
    · exact hsame ▸ hI y hold
    · exact hsame ▸ hconnect hlast filter
    · exact hsame ▸ hmoves hub b x y hk hguard hx hmove (hI x hx)

/-- **The invariant rule for a connection.** -/
theorem run_socket
    (hK : ∀ hub b p, K hub.server → P hub (.server b) → Server.step cfg hub.server b = some p → K p)
    (hserver : ∀ hub b p x, K hub.server → P hub (.server b) → hub.sockets[i]? = some x →
      Server.step cfg hub.server b = some p → I hub.server.1 x → I p.1 x)
    (hconnect : ∀ p filter, K p → I p.1 (.subscribe p.1 filter))
    (hmoves : ∀ hub b x y, K hub.server → P hub (.socket i b) → hub.sockets[i]? = some x →
      x.Moves hub.server.1 y b → I hub.server.1 x → I hub.server.1 y)
    {db : Database J} {clock : Int64} {as : List (HubAct B)} (hboot : K (.boot db clock, db))
    (hP : Machine.Along (step cfg) P (boot db clock) as)
    (hrun : Machine.run (step cfg) (boot db clock) as = some hub) :
    K hub.server ∧ ∀ x, hub.sockets[i]? = some x → I hub.server.1 x := by
  refine Machine.run_preserves
    (I := fun hub : Hub J => K hub.server ∧ ∀ x, hub.sockets[i]? = some x → I hub.server.1 x)
    ?_ ⟨hboot, fun x hx => absurd hx (by simp [boot])⟩ hP hrun
  rintro hub a hub' ⟨hk, hI⟩ hguard h
  exact step_keeps hK hserver hmoves (fun _ filter => hconnect hub.server filter hk) hk hI hguard h

theorem length_sockets_le {a : HubAct B} (h : step cfg hub a = some hub') :
    hub.sockets.length ≤ hub'.sockets.length := by
  cases a with
  | server b =>
    obtain ⟨p, -, rfl⟩ := step_server_iff.mp h
    exact Nat.le_refl _
  | connect filter =>
    obtain rfl := step_connect_iff.mp h
    simp
  | socket j b =>
    obtain ⟨x, -, y, -, rfl⟩ := step_socket_iff.mp h
    simp

/-- The invariant rule for a connection that is there from the start. -/
theorem run_socket_from
    (hK : ∀ hub b p, K hub.server → P hub (.server b) → Server.step cfg hub.server b = some p → K p)
    (hserver : ∀ hub b p x, K hub.server → P hub (.server b) → hub.sockets[i]? = some x →
      Server.step cfg hub.server b = some p → I hub.server.1 x → I p.1 x)
    (hmoves : ∀ hub b x y, K hub.server → P hub (.socket i b) → hub.sockets[i]? = some x →
      x.Moves hub.server.1 y b → I hub.server.1 x → I hub.server.1 y)
    {first : Hub J} {as : List (HubAct B)} (hi : i < first.sockets.length) (hk : K first.server)
    (hI : ∀ x, first.sockets[i]? = some x → I first.server.1 x)
    (hP : Machine.Along (step cfg) P first as)
    (hrun : Machine.run (step cfg) first as = some hub) :
    K hub.server ∧ ∀ x, hub.sockets[i]? = some x → I hub.server.1 x := by
  refine (Machine.run_preserves (I := fun hub : Hub J => i < hub.sockets.length ∧ K hub.server ∧
    ∀ x, hub.sockets[i]? = some x → I hub.server.1 x) ?_ ⟨hi, hk, hI⟩ hP hrun).2
  rintro hub a hub' ⟨hi, hk, hI⟩ hguard h
  refine ⟨hi.trans_le (length_sockets_le h), ?_⟩
  exact step_keeps hK hserver hmoves (fun hlast => absurd hlast (Nat.ne_of_lt hi)) hk hI hguard h

end Invariants

end Hub

end Hakuraku.Server

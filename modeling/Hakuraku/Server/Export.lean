import Hakuraku.Server.StatsJson

/-!
# The push to VictoriaMetrics

Reference: `pulse-server/src/main.rs`, `vm_url`, `vm_semaphore` and the push of the ingestion workers.

A worker that is through with the two database calls of a snapshot, whether or not they succeeded,
tries to take one of 64 permits, and gives the text of the snapshot to a task of its own that holds
the permit until the request is through. Without a permit the push is dropped. A request fails if no
answer comes; the status of an answer is not looked at.

`Exporter` is the server with these tasks. The books are kept in snapshots: every accepted one is on
its way to its worker, in flight, answered, or lost and counted (`exports_accounted`), so none is
pushed twice. With the metrics as JSON, the lines of a text say what the message has said
(`posts_are_received`).
-/

namespace Hakuraku.Server

open Json

variable {B F : Type} {cfg : Config B (Value F)} {p p' : State (Value F)} {a : Act B}

/-! ## The exporter -/

/-- `vm_url`, of the value of `VICTORIAMETRICS_URL`. -/
def vmUrl (env : Option String) : Option (List Char) :=
  env.map fun url =>
    ((Text.trim url.toList).reverse.dropWhile (· = '/')).reverse ++ "/api/v1/import".toList

/-- A request. -/
structure Post where
  url : List Char
  body : List Char
deriving DecidableEq

/-- The permits of `vm_semaphore`. -/
def vmPermits : ℕ := 64

/-- The server with its pushes. -/
structure Exporter (F : Type) where
  server : State (Value F)
  /-- The permits that are left. -/
  permits : ℕ
  /-- The requests of the tasks that hold a permit. -/
  inFlight : List Post
  /-- The requests that have been answered. -/
  answered : List Post
  /-- The counter `DB_ERRORS`, label `victoriametrics_post`. -/
  postErrors : ℕ
  /-- The counter `DB_ERRORS`, label `victoriametrics_backpressure`. -/
  backpressure : ℕ

/-- The steps of the server and of its pushes. -/
inductive ExportAct (B : Type) where
  | act (a : Act B)
  /-- A request is answered, or fails. -/
  | posted (i : ℕ) (ok : Bool)

/-- The snapshot that a step is through with. -/
def handled {B J : Type} (s : Process J) : Act B → Option (StatsItem J)
  | .workerInsert w _ => s.shards[w]?.bind fun x =>
    match x.worker with
    | .inserting item => some item
    | _ => none
  | _ => none

/-- The request for a snapshot. -/
def StatsItem.post (floats : Floats F) (url : List Char) (item : StatsItem (Value F)) : Post :=
  ⟨url, serializeToVmJsonl floats item.nodeId item.timestampMs item.statsJson⟩

namespace Exporter

/-- The server with its tasks started. -/
def start (db : Database (Value F)) (clock : Int64) : Exporter F :=
  ⟨(Process.boot db clock, db), vmPermits, [], [], 0, 0⟩

/-- The push of a worker. -/
def push (floats : Floats F) (e : Exporter F) (url : List Char) (item : StatsItem (Value F)) :
    Exporter F :=
  if 0 < e.permits then
    { e with permits := e.permits - 1, inFlight := e.inFlight ++ [item.post floats url] }
  else { e with backpressure := e.backpressure + 1 }

/-- One step. -/
def step (cfg : Config B (Value F)) (floats : Floats F) (env : Option String) (e : Exporter F) :
    ExportAct B → Option (Exporter F)
  | .act a => (Server.step cfg e.server a).map fun server =>
    match vmUrl env, handled e.server.1 a with
    | some url, some item => { e with server }.push floats url item
    | _, _ => { e with server }
  | .posted i ok => e.inFlight[i]?.map fun post =>
    -- the permit is dropped with the task
    let e := { e with permits := e.permits + 1, inFlight := e.inFlight.eraseIdx i }
    match ok with
    | true => { e with answered := e.answered ++ [post] }
    | false => { e with postErrors := e.postErrors + 1 }

end Exporter

/-! ## What a step does to the snapshots on their way -/

/-- The books of a step that is through with the snapshots `done`: what is accepted gets on the way to
the database, and what leaves it is done or has been dropped. -/
def Moves (p p' : State (Value F)) (done : Multiset (StatsItem (Value F))) : Prop :=
  ∃ items dropped : Multiset (StatsItem (Value F)),
    (p'.1.accepted : Multiset (StatsItem (Value F))) = p.1.accepted + items ∧
    p'.1.uninserted + done + dropped = p.1.uninserted + items ∧
    p.1.drops + dropped.card ≤ p'.1.drops

theorem Moves.same (hreceipts : p'.1.receipts = p.1.receipts)
    (huninserted : p'.1.uninserted = p.1.uninserted) (hdrops : p.1.drops ≤ p'.1.drops) :
    Moves p p' 0 := by
  refine ⟨0, 0, ?_, ?_, hdrops⟩
  · rw [Process.accepted_congr hreceipts, add_zero]
  · rw [huninserted, add_zero]

theorem Moves.accepted {r : Receipt (Value F)} (hreceipts : p'.1.receipts = p.1.receipts ++ [r])
    (huninserted : p'.1.uninserted =
      p.1.uninserted + (r.item.toList : Multiset (StatsItem (Value F))))
    (hdrops : p'.1.drops = p.1.drops) : Moves p p' 0 := by
  refine ⟨r.item.toList, 0, Process.coe_accepted hreceipts, ?_, hdrops.ge⟩
  rw [huninserted, add_zero, add_zero]

theorem Moves.done {item : StatsItem (Value F)} (hreceipts : p'.1.receipts = p.1.receipts)
    (huninserted : p'.1.uninserted + {item} = p.1.uninserted) (hdrops : p'.1.drops = p.1.drops) :
    Moves p p' {item} := by
  refine ⟨0, 0, ?_, ?_, hdrops.ge⟩
  · rw [Process.accepted_congr hreceipts, add_zero]
  · rw [huninserted]

theorem Moves.dropped {item : StatsItem (Value F)} (hreceipts : p'.1.receipts = p.1.receipts)
    (huninserted : p'.1.uninserted + {item} = p.1.uninserted)
    (hdrops : p'.1.drops = p.1.drops + 1) : Moves p p' 0 := by
  refine ⟨0, {item}, ?_, ?_, ?_⟩
  · rw [Process.accepted_congr hreceipts, add_zero]
  · rw [add_zero, huninserted, add_zero]
  · rw [Multiset.card_singleton]
    exact hdrops.ge

/-- **A step is through with a snapshot, or with none.** Failures of the database take none away. -/
theorem step_moves (h : step cfg p a = some p') :
    Moves p p' ((handled p.1 a).toList : Multiset (StatsItem (Value F))) := by
  obtain ⟨s, db⟩ := p
  cases a with
  | receive i inbound =>
    obtain ⟨x, hx, hphase, s', hs', rfl⟩ := step_receive_iff.mp h
    have hzero : x.item = 0 := by rw [Stream.item, hphase]
    rcases Process.receive_cases hs' with
      rfl | rfl | ⟨stats, statsJson, rfl, -, -, rfl⟩ | ⟨hb, rfl, -, rfl⟩ | ⟨probe, rfl, hitem⟩
    · exact .same rfl (Process.items_setStream_of_eq hx hzero.symm) le_rfl
    · exact .same rfl rfl le_rfl
    · refine .accepted rfl (Process.items_setStream_add hx ?_) rfl
      rw [hzero, zero_add]
      rfl
    · refine .accepted rfl (Process.items_setStream_add hx ?_) rfl
      rw [hzero]
      rfl
    · rcases Process.sendToWorker_flow hitem with rfl | ⟨⟨shards, rfl⟩, -, hunin⟩
      · exact .same rfl rfl (Nat.le_succ _)
      · exact .same rfl (hunin.trans (add_zero _)) le_rfl
  | enqueue i =>
    obtain ⟨x, hx, item, hphase, s', hs', rfl⟩ := step_enqueue_iff.mp h
    have hitem : x.item = {item} := by rw [Stream.item, hphase]
    rcases Process.sendToWorker_flow hs' with rfl | ⟨⟨shards, rfl⟩, -, hunin⟩
    · have hset := Process.items_setStream (g := Shard.uninserted)
        (s := { s with drops := s.drops + 1 })
        (y := { x with phase := .queued ⟨x.nodeId, item.timestampMs, item.statsJson⟩ }) hx
      exact .dropped rfl ((congrArg (_ + ·) hitem.symm).trans (hset.trans (add_zero _))) rfl
    · have hset := Process.items_setStream (g := Shard.uninserted) (s := { s with shards })
        (y := { x with phase := .queued ⟨x.nodeId, item.timestampMs, item.statsJson⟩ }) hx
      rw [hitem, show Process.items Shard.uninserted { s with shards } = s.uninserted + {item} from
        hunin, add_right_comm] at hset
      exact .same rfl ((add_right_cancel hset).trans (add_zero _)) le_rfl
  | workerInsert w ok =>
    obtain ⟨x, hx, hcases⟩ := step_workerInsert_cases h
    have hout := Process.uninserted_setShard_idle hx
    have hout' := Process.uninserted_setShard_idle (s := s.failed) hx
    rcases hcases with ⟨item, hworker, hp'⟩ | ⟨item, hworker, hp'⟩
    · have hdone : handled s (.workerInsert w ok : Act B) = some item := by
        simp [handled, hx, hworker]
      rw [hworker] at hout hout'
      rw [hdone]
      rcases hp' with ⟨db', -, rfl⟩ | rfl
      · exact .done rfl hout rfl
      · exact .done rfl hout' rfl
    · have hnone : handled s (.workerInsert w ok : Act B) = none := by
        simp [handled, hx, hworker]
      rw [hworker] at hout hout'
      rw [hnone]
      rcases hp' with ⟨db', -, rfl⟩ | rfl
      · exact .same rfl ((add_zero _).symm.trans hout) le_rfl
      · exact .same rfl ((add_zero _).symm.trans hout') le_rfl
  | workerUpsert w ok =>
    obtain ⟨x, hx, item, nowMs, hworker, rfl⟩ := step_workerUpsert_iff.mp h
    have hitem : Shard.uninserted { x with worker := .inserting item } = x.uninserted := by
      rw [Shard.uninserted, Shard.uninserted, hworker]
      rfl
    cases ok with
    | true => exact .same rfl (Process.items_setShard_of_eq hx hitem) le_rfl
    | false => exact .same rfl (Process.items_setShard_of_eq (s := s.failed) hx hitem) le_rfl
  | persist ok =>
    obtain ⟨nowMs, transition, rest, -, rfl⟩ := step_persist_iff.mp h
    cases ok <;> exact .same rfl rfl le_rfl
  | wait now =>
    obtain ⟨-, rfl⟩ := step_wait_iff.mp h
    exact .same rfl rfl le_rfl
  | openStream nodeId =>
    obtain rfl := step_openStream_iff.mp h
    refine .same rfl ?_ le_rfl
    simp [Process.uninserted, Process.items, Stream.item]
  | broadcast i =>
    obtain ⟨x, hx, update, hphase, rfl⟩ := step_broadcast_iff.mp h
    have hzero : x.item = 0 := by rw [Stream.item, hphase]
    exact .same rfl (Process.items_setStream_of_eq
      (s := { s with broadcasts := s.broadcasts ++ [update] }) hx hzero.symm) le_rfl
  | ack i ok =>
    obtain ⟨x, hx, nowMs, hphase, rfl⟩ := step_ack_iff.mp h
    have hzero : x.item = 0 := by rw [Stream.item, hphase]
    cases ok <;> exact .same rfl (Process.items_setStream_of_eq hx hzero.symm) le_rfl
  | workerRecv w =>
    obtain ⟨x, hx, hidle, item, rest, hqueue, rfl⟩ := step_workerRecv_iff.mp h
    refine .same rfl (Process.items_setShard_of_eq hx ?_) le_rfl
    rw [Shard.uninserted, Shard.uninserted, hqueue, hidle, statsItems_cons, Worker.uninserted_start]
    exact (add_zero _).symm
  | tick =>
    obtain ⟨-, rfl⟩ := step_tick_iff.mp h
    exact .same rfl rfl le_rfl
  | visit n =>
    obtain ⟨now, due, visited, transitions, node, -, -, -, rfl⟩ := step_visit_iff.mp h
    exact .same rfl rfl le_rfl
  | scanned =>
    obtain ⟨now, due, visited, transitions, -, -, rfl⟩ := step_scanned_iff.mp h
    exact .same rfl rfl le_rfl
  | announce =>
    obtain ⟨transition, rest, -, rfl⟩ := step_announce_iff.mp h
    exact .same rfl rfl le_rfl

/-! ## The books of the exporter -/

namespace Exporter

variable {floats : Floats F} {env : Option String} {e e' t : Exporter F} {url : List Char}

/-- The requests that are out, answered, still to be made or lost are those of the accepted
snapshots. -/
def Balanced (floats : Floats F) (url : List Char) (e : Exporter F) (lost : Multiset Post) : Prop :=
  (e.inFlight : Multiset Post) + e.answered + e.server.1.uninserted.map (·.post floats url) + lost =
    (e.server.1.accepted : Multiset (StatsItem (Value F))).map (·.post floats url)

/-- What every step keeps. -/
structure Books (floats : Floats F) (env : Option String) (e : Exporter F) : Prop where
  permits : e.permits + e.inFlight.length = vmPermits
  /-- What is lost has been counted. -/
  balanced : ∀ url, vmUrl env = some url → ∃ lost, e.Balanced floats url lost ∧
    lost.card ≤ e.server.1.drops + e.postErrors + e.backpressure
  /-- Without a url nothing is pushed. -/
  off : vmUrl env = none →
    e.inFlight = [] ∧ e.answered = [] ∧ e.postErrors = 0 ∧ e.backpressure = 0

theorem books_start (floats : Floats F) (env : Option String) (db : Database (Value F))
    (clock : Int64) : (start db clock).Books floats env where
  permits := rfl
  balanced url _ := by
    refine ⟨0, ?_, Nat.zero_le _⟩
    rw [Balanced, start, uninserted_boot]
    rfl
  off _ := ⟨rfl, rfl, rfl, rfl⟩

/-- The books after a step of the server that is through with the snapshots `done`: these are out or
lost. -/
theorem Balanced.moves {lost : Multiset Post} {done : Multiset (StatsItem (Value F))}
    (h : e.Balanced floats url lost) (hmoves : Moves e.server p' done) :
    ∃ lost', (e.inFlight : Multiset Post) + e.answered + done.map (·.post floats url) +
        p'.1.uninserted.map (·.post floats url) + lost' =
        (p'.1.accepted : Multiset (StatsItem (Value F))).map (·.post floats url) ∧
      lost'.card + e.server.1.drops ≤ lost.card + p'.1.drops := by
  obtain ⟨items, dropped, haccepted, hunin, hdrops⟩ := hmoves
  refine ⟨lost + dropped.map (·.post floats url), ?_, ?_⟩
  · have hmap := congrArg (Multiset.map (·.post floats url)) hunin
    rw [Multiset.map_add, Multiset.map_add, Multiset.map_add] at hmap
    rw [haccepted, Multiset.map_add, ← h]
    calc (e.inFlight : Multiset Post) + e.answered + done.map (·.post floats url) +
          p'.1.uninserted.map (·.post floats url) + (lost + dropped.map (·.post floats url))
        = (e.inFlight : Multiset Post) + e.answered + lost +
          (p'.1.uninserted.map (·.post floats url) + done.map (·.post floats url) +
            dropped.map (·.post floats url)) := by ac_rfl
      _ = (e.inFlight : Multiset Post) + e.answered + lost +
          (e.server.1.uninserted.map (·.post floats url) + items.map (·.post floats url)) := by
        rw [hmap]
      _ = _ := by ac_rfl
  · rw [Multiset.card_add, Multiset.card_map]
    omega

/-- A step that hands nothing to the exporter. -/
theorem Books.quiet (h : e.Books floats env) (hmoves : Moves e.server p' 0) :
    Exporter.Books floats env { e with server := p' } where
  permits := h.permits
  balanced url hurl := by
    obtain ⟨lost, hbalanced, hcard⟩ := h.balanced url hurl
    obtain ⟨lost', hbalanced', hcard'⟩ := hbalanced.moves hmoves
    rw [Multiset.map_zero, add_zero] at hbalanced'
    exact ⟨lost', hbalanced', by dsimp only; omega⟩
  off := h.off

/-- A push takes a permit, or is counted as dropped. -/
theorem Books.push {item : StatsItem (Value F)} (h : e.Books floats env)
    (hurl : vmUrl env = some url) (hmoves : Moves e.server p' {item}) :
    (Exporter.push floats { e with server := p' } url item).Books floats env := by
  have hpermits := h.permits
  obtain ⟨lost, hbalanced, hcard⟩ := h.balanced url hurl
  obtain ⟨lost', hbalanced', hcard'⟩ := hbalanced.moves hmoves
  rw [Multiset.map_singleton] at hbalanced'
  have hoff : ∀ P : Prop, vmUrl env = none → P := fun P hnone =>
    absurd (hnone.symm.trans hurl) (by simp)
  have hsame : ∀ url', vmUrl env = some url' → url' = url := fun url' hurl' =>
    Option.some.inj (hurl'.symm.trans hurl)
  rw [Exporter.push]
  split
  · rename_i hpos
    refine ⟨?_, fun url' hurl' => ⟨lost', ?_, by dsimp only; omega⟩, hoff _⟩
    · rw [List.length_append, List.length_singleton]
      dsimp only at hpos ⊢
      omega
    · rw [hsame url' hurl', Balanced, ← hbalanced', ← Multiset.coe_add, Multiset.coe_singleton]
      dsimp only
      ac_rfl
  · refine ⟨hpermits, fun url' hurl' => ⟨lost' + {item.post floats url}, ?_, ?_⟩, hoff _⟩
    · rw [hsame url' hurl', Balanced, ← hbalanced']
      dsimp only
      ac_rfl
    · rw [Multiset.card_add, Multiset.card_singleton]
      dsimp only
      omega

/-- A request that is through gives its permit back, and is answered or counted as failed. -/
theorem Books.posted {i : ℕ} {ok : Bool} (h : e.Books floats env)
    (hs : e.step cfg floats env (.posted i ok) = some e') : e'.Books floats env := by
  obtain ⟨post, hpost, rfl⟩ := Option.map_eq_some_iff.mp hs
  obtain ⟨hi, rfl⟩ := List.getElem?_eq_some_iff.mp hpost
  have hpermits : e.permits + 1 + (e.inFlight.eraseIdx i).length = vmPermits := by
    rw [← h.permits, List.length_eraseIdx_of_lt hi]
    omega
  have hout : (e.inFlight : Multiset Post) =
      {e.inFlight[i]} + (e.inFlight.eraseIdx i : Multiset Post) :=
    Multiset.coe_eq_coe.mpr (List.getElem_cons_eraseIdx_perm hi).symm
  have hoff : ∀ P : Prop, vmUrl env = none → P := fun P hnone => by
    rw [(h.off hnone).1] at hi
    exact absurd hi (Nat.not_lt_zero i)
  cases ok with
  | true =>
    refine ⟨hpermits, fun url hurl => ?_, hoff _⟩
    obtain ⟨lost, hbalanced, hcard⟩ := h.balanced url hurl
    refine ⟨lost, ?_, hcard⟩
    rw [Balanced, ← hbalanced, hout, ← Multiset.coe_add, Multiset.coe_singleton]
    dsimp only
    ac_rfl
  | false =>
    refine ⟨hpermits, fun url hurl => ?_, hoff _⟩
    obtain ⟨lost, hbalanced, hcard⟩ := h.balanced url hurl
    refine ⟨lost + {e.inFlight[i]}, ?_, ?_⟩
    · rw [Balanced, ← hbalanced, hout]
      dsimp only
      ac_rfl
    · rw [Multiset.card_add, Multiset.card_singleton]
      dsimp only
      omega

theorem Books.step {b : ExportAct B} (h : e.Books floats env)
    (hs : e.step cfg floats env b = some e') : e'.Books floats env := by
  cases b with
  | posted i ok => exact h.posted hs
  | act a =>
    obtain ⟨p', hstep, rfl⟩ := Option.map_eq_some_iff.mp hs
    have hmoves := step_moves hstep
    cases hhandled : handled e.server.1 a with
    | none =>
      rw [hhandled] at hmoves
      have hbooks := h.quiet hmoves
      cases vmUrl env <;> exact hbooks
    | some item =>
      rw [hhandled] at hmoves
      cases hurl : vmUrl env with
      | none => exact ⟨h.permits, fun url hsome => absurd (hurl.symm.trans hsome) (by simp), h.off⟩
      | some url => exact h.push hurl hmoves

/-- **No snapshot is pushed twice, and none goes missing uncounted.** In every run, at most 64
requests are out; with a url, the requests that are out, answered or still to be made are those of
the accepted snapshots, one for each, except for some of which each has been counted, as dropped, as
failed or as backpressure, whatever becomes of the database calls; without a url nothing is pushed. -/
theorem exports_accounted {db : Database (Value F)} {clock : Int64} {as : List (ExportAct B)}
    (hrun : Machine.run (Exporter.step cfg floats env) (start db clock) as = some t) :
    t.permits + t.inFlight.length = 64 ∧
    (∀ url, vmUrl env = some url → ∃ lost : Multiset Post,
      (t.inFlight : Multiset Post) + t.answered + t.server.1.uninserted.map (·.post floats url)
          + lost =
        (t.server.1.accepted : Multiset (StatsItem (Value F))).map (·.post floats url) ∧
      lost.card ≤ t.server.1.drops + t.postErrors + t.backpressure) ∧
    (vmUrl env = none →
      t.inFlight = [] ∧ t.answered = [] ∧ t.postErrors = 0 ∧ t.backpressure = 0) := by
  have h : t.Books floats env :=
    Machine.run_invariant (fun _ _ _ hI hs => hI.step hs) (books_start floats env db clock) hrun
  exact ⟨h.permits, h.balanced, h.off⟩

/-- A snapshot is received, its insert fails, and its push is answered. -/
def answeredRun : List (ExportAct (Agent.Metrics (Option ℤ))) :=
  [.act (.openStream "node-01"),
    .act (.receive 0 (.message (some (.stats ⟨"node-01", 1000, twoCores⟩)))), .act (.enqueue 0),
    .act (.workerRecv 3), .act (.workerUpsert 3 true), .act (.workerInsert 3 false), .posted 0 true]

/-- The next one is stored, and its push fails. -/
def failedPostRun : List (ExportAct (Agent.Metrics (Option ℤ))) :=
  answeredRun ++
    [.act (.broadcast 0), .act (.receive 0 (.message (some (.stats ⟨"node-01", 2000, twoCores⟩)))),
      .act (.enqueue 0), .act (.workerRecv 3), .act (.workerUpsert 3 true),
      .act (.workerInsert 3 true), .posted 0 false]

theorem exports_accounted_failed_post :
    ∃ t lost,
      Machine.run (Exporter.step ⟨jsonSerde unsteadyDoubles id, String.length, Char.isAlphanum⟩
        wholeFloats (some "http://vm:8428/")) (start .empty 0) failedPostRun = some t ∧
      t.answered.length = 1 ∧ t.server.1.accepted.length = 2 ∧ t.server.1.dbErrors = 1 ∧
      t.postErrors = 1 ∧ t.permits + t.inFlight.length = 64 ∧
      (t.inFlight : Multiset Post) + t.answered + t.server.1.uninserted.map
          (·.post wholeFloats "http://vm:8428/api/v1/import".toList) + lost =
        (t.server.1.accepted : Multiset (StatsItem (Value ℤ))).map
          (·.post wholeFloats "http://vm:8428/api/v1/import".toList) ∧
      Multiset.card lost ≤ t.server.1.drops + t.postErrors + t.backpressure := by
  have hcounts : (Machine.run (Exporter.step
      ⟨jsonSerde unsteadyDoubles id, String.length, Char.isAlphanum⟩ wholeFloats
      (some "http://vm:8428/")) (start .empty 0) failedPostRun).map
        (fun t => (t.answered.length, t.server.1.accepted.length, t.server.1.dbErrors,
          t.postErrors)) = some (1, 2, 1, 1) := by
    decide +kernel
  obtain ⟨t, hrun, heq⟩ := Option.map_eq_some_iff.mp hcounts
  simp only [Prod.mk.injEq] at heq
  obtain ⟨hpermits, hbalanced, -⟩ := exports_accounted hrun
  obtain ⟨lost, hposts, hlost⟩ := hbalanced "http://vm:8428/api/v1/import".toList (by decide)
  exact ⟨t, lost, hrun, heq.1, heq.2.1, heq.2.2.1, heq.2.2.2, hpermits, hposts, hlost⟩

end Exporter

/-! ## What a request says -/

section Samples

variable {D : Type} (doubles : Doubles D F)

/-- The samples of a message: the percentage, if it is a finite number, and eleven counts. -/
def samplesOf (stats : NodeStats (Agent.Metrics D)) : List (Sample F) :=
  let sample name value : Sample F := ⟨name, stats.nodeId, value, stats.timestampMs⟩
  let count name n : Sample F := sample name (doubles.floats.ofU64 n)
  let m := stats.metrics
  ((doubles.finite m.cpuPercent).map (sample "hakuraku_cpu_percent")).toList ++
    [count "hakuraku_mem_total_bytes" m.memTotal,
      count "hakuraku_mem_used_bytes" m.memUsed,
      count "hakuraku_mem_free_bytes" m.memFree,
      count "hakuraku_mem_available_bytes" m.memAvailable,
      count "hakuraku_swap_total_bytes" m.swapTotal,
      count "hakuraku_swap_used_bytes" m.swapUsed,
      count "hakuraku_disk_read_bytes_sec" m.diskReadBytesSec,
      count "hakuraku_disk_write_bytes_sec" m.diskWriteBytesSec,
      count "hakuraku_tcp_connections" m.tcpConnections.toUInt64,
      count "hakuraku_udp_connections" m.udpConnections.toUInt64,
      count "hakuraku_uptime_seconds" m.uptimeSeconds]

/-- A field of the stats. -/
theorem get_statsValue {s : Agent.Metrics D} {key : String} {v : Value F}
    (h : (key, v) ∈ statsFields doubles s) : (statsValue doubles s).get key = some v :=
  get_ofFields nodup_statsKeys h

/-- The exported fields of the stats have the values of the samples. -/
theorem filterMap_sample_statsValue (stats : NodeStats (Agent.Metrics D)) :
    exportedFields.filterMap (ExportedField.sample doubles.floats stats.nodeId stats.timestampMs
      (statsValue doubles stats.metrics)) = samplesOf doubles stats := by
  have hcpu : ExportedField.sample doubles.floats stats.nodeId stats.timestampMs
      (statsValue doubles stats.metrics) ⟨"cpu_percent", .f64, "hakuraku_cpu_percent"⟩ =
        (doubles.finite stats.metrics.cpuPercent).map fun value =>
          ⟨"hakuraku_cpu_percent", stats.nodeId, value, stats.timestampMs⟩ := by
    rw [ExportedField.sample, ExportedField.value, get_statsValue doubles (List.mem_cons_self ..),
      ofF64]
    cases doubles.finite stats.metrics.cpuPercent <;> rfl
  have hu64 : ∀ (key : String) (n : UInt64) (name : String),
      (key, (ofU64 n : Value F)) ∈ statsFields doubles stats.metrics →
      ExportedField.sample doubles.floats stats.nodeId stats.timestampMs
        (statsValue doubles stats.metrics) ⟨key, .u64, name⟩ =
          some ⟨name, stats.nodeId, doubles.floats.ofU64 n, stats.timestampMs⟩ := by
    intro key n name hmem
    rw [ExportedField.sample, ExportedField.value, get_statsValue doubles hmem]
    rfl
  have hmem_total := hu64 "mem_total" stats.metrics.memTotal "hakuraku_mem_total_bytes"
    (by simp [statsFields])
  have hmem_used := hu64 "mem_used" stats.metrics.memUsed "hakuraku_mem_used_bytes"
    (by simp [statsFields])
  have hmem_free := hu64 "mem_free" stats.metrics.memFree "hakuraku_mem_free_bytes"
    (by simp [statsFields])
  have hmem_available := hu64 "mem_available" stats.metrics.memAvailable
    "hakuraku_mem_available_bytes" (by simp [statsFields])
  have hswap_total := hu64 "swap_total" stats.metrics.swapTotal "hakuraku_swap_total_bytes"
    (by simp [statsFields])
  have hswap_used := hu64 "swap_used" stats.metrics.swapUsed "hakuraku_swap_used_bytes"
    (by simp [statsFields])
  have hread := hu64 "disk_read_bytes_sec" stats.metrics.diskReadBytesSec
    "hakuraku_disk_read_bytes_sec" (by simp [statsFields])
  have hwrite := hu64 "disk_write_bytes_sec" stats.metrics.diskWriteBytesSec
    "hakuraku_disk_write_bytes_sec" (by simp [statsFields])
  have htcp := hu64 "tcp_connections" stats.metrics.tcpConnections.toUInt64
    "hakuraku_tcp_connections" (by simp [statsFields, ofU32, ofU64])
  have hudp := hu64 "udp_connections" stats.metrics.udpConnections.toUInt64
    "hakuraku_udp_connections" (by simp [statsFields, ofU32, ofU64])
  have huptime := hu64 "uptime_seconds" stats.metrics.uptimeSeconds "hakuraku_uptime_seconds"
    (by simp [statsFields])
  rw [exportedFields, List.filterMap_cons, hcpu]
  simp only [List.filterMap_cons, List.filterMap_nil, hmem_total, hmem_used, hmem_free,
    hmem_available, hswap_total, hswap_used, hread, hwrite, htcp, hudp, huptime, samplesOf]
  cases doubles.finite stats.metrics.cpuPercent <;> rfl

/-- What the lines of a body are read as. -/
def readBody (floats : Floats F) (body : List Char) : List (Option (Sample F)) :=
  ((body.splitOn '\n').filter (· ≠ [])).map (decodeLine floats)

/-- The body of a message is read as its samples. -/
theorem readBody_serializeToVmJsonl (stats : NodeStats (Agent.Metrics D)) :
    readBody doubles.floats (serializeToVmJsonl doubles.floats stats.nodeId stats.timestampMs
      (statsValue doubles stats.metrics)) = (samplesOf doubles stats).map some := by
  have hlines := metricLines_eq_map doubles.floats stats.nodeId stats.timestampMs
    (statsValue doubles stats.metrics)
  rw [filterMap_sample_statsValue] at hlines
  have hnewline : ∀ line ∈ metricLines doubles.floats stats.nodeId stats.timestampMs
      (statsValue doubles stats.metrics), '\n' ∉ line := by
    rw [hlines]
    exact List.forall_mem_map.mpr fun sample _ => newline_notMem_line doubles.floats sample
  have hne : [] ∉ metricLines doubles.floats stats.nodeId stats.timestampMs
      (statsValue doubles stats.metrics) := by
    rw [hlines, List.mem_map]
    rintro ⟨sample, -, hnil⟩
    exact line_ne_nil doubles.floats sample hnil
  rw [readBody, serializeToVmJsonl, Text.filter_splitOn_joined hnewline hne, hlines, List.map_map]
  exact List.map_congr_left fun sample _ => decodeLine_line doubles.floats sample

/-- The request for a message. -/
def postOf (url : List Char) (stats : NodeStats (Agent.Metrics D)) : Post :=
  ⟨url, serializeToVmJsonl doubles.floats stats.nodeId stats.timestampMs
    (statsValue doubles stats.metrics)⟩

end Samples

/-! ## Runs -/

/-- The steps of the server. -/
def serverActs (as : List (ExportAct B)) : List (Act B) :=
  as.filterMap fun
    | .act a => some a
    | .posted .. => none

namespace Exporter

theorem push_server (floats : Floats F) (e : Exporter F) (url : List Char)
    (item : StatsItem (Value F)) : (e.push floats url item).server = e.server := by
  rw [push]
  split <;> rfl

/-- The exporter does not disturb the server. -/
theorem step_act_server {floats : Floats F} {env : Option String} {e e' : Exporter F}
    (hs : e.step cfg floats env (.act a) = some e') :
    Server.step cfg e.server a = some e'.server := by
  obtain ⟨p', hstep, rfl⟩ := Option.map_eq_some_iff.mp hs
  refine hstep.trans (congrArg some ?_)
  split
  · rename_i url item _ _
    exact (push_server floats { e with server := p' } url item).symm
  · rfl

theorem server_of_run {floats : Floats F} {env : Option String} {e t : Exporter F}
    {as : List (ExportAct B)} (hrun : Machine.run (Exporter.step cfg floats env) e as = some t) :
    Machine.run (Server.step cfg) e.server (serverActs as) = some t.server := by
  induction as generalizing e with
  | nil => exact congrArg (Option.map Exporter.server) hrun
  | cons b as ih =>
    obtain ⟨e', hs, hrun'⟩ := Machine.run_cons_eq_some.mp hrun
    have hserver := ih hrun'
    cases b with
    | act a => exact Machine.run_cons_eq_some.mpr ⟨_, step_act_server hs, hserver⟩
    | posted i ok =>
      obtain ⟨post, -, rfl⟩ := Option.map_eq_some_iff.mp hs
      cases ok <;> exact hserver

section Received

variable {D : Type} (doubles : Doubles D F) (jsonb : Value F → Value F) (hash : String → ℕ)
  (alphanumeric : Char → Bool)

/-- **What is pushed are the metrics of received messages.** In every run, the requests that are out
or answered are requests for messages that were received, one for each message at most, and the lines
of the request for a message are read as the samples of the message, with its node and timestamp. -/
theorem posts_are_received {env : Option String} {url : List Char} {db : Database (Value F)}
    {clock : Int64} {as : List (ExportAct (Agent.Metrics D))} {t : Exporter F}
    (hurl : vmUrl env = some url)
    (hrun : Machine.run
      (Exporter.step ⟨jsonSerde doubles jsonb, hash, alphanumeric⟩ doubles.floats env)
      (start db clock) as = some t) :
    (t.inFlight : Multiset Post) + t.answered ≤
        ((statsReceived (serverActs as)).map (postOf doubles url) : List Post) ∧
      ∀ stats, readBody doubles.floats (postOf doubles url stats).body =
        (samplesOf doubles stats).map some := by
  refine ⟨?_, readBody_serializeToVmJsonl doubles⟩
  have hbooks : t.Books doubles.floats env :=
    Machine.run_invariant (fun _ _ _ hI hs => hI.step hs) (books_start _ env db clock) hrun
  obtain ⟨lost, hbalanced, -⟩ := hbooks.balanced url hurl
  obtain ⟨l, hl, haccepted⟩ := accepted_of_run (server_of_run hrun)
  have hposts : (t.server.1.accepted : Multiset (StatsItem (Value F))).map
      (·.post doubles.floats url) = (l.map (postOf doubles url) : List Post) := by
    have hpost : ∀ stats, (itemOf ⟨jsonSerde doubles jsonb, hash, alphanumeric⟩ stats).map
        (·.post doubles.floats url) = some (postOf doubles url stats) := fun _ => rfl
    rw [haccepted, Multiset.map_coe, List.map_append, List.map_filterMap]
    simp only [hpost, List.filterMap_eq_map']
    rfl
  calc (t.inFlight : Multiset Post) + t.answered
      ≤ (l.map (postOf doubles url) : List Post) := by
        rw [← hposts, ← hbalanced, add_assoc]
        exact Multiset.le_add_right ..
    _ ≤ ((statsReceived (serverActs as)).map (postOf doubles url) : List Post) :=
        Multiset.coe_le.mpr (hl.map _).subperm

end Received

theorem posts_are_received_answered :
    ∃ t, Machine.run (Exporter.step ⟨jsonSerde wholeDoubles id, String.length, Char.isAlphanum⟩
        wholeFloats (some "http://vm:8428/")) (start .empty 0) answeredRun = some t ∧
      t.answered.length = 1 ∧ (t.inFlight : Multiset Post) + t.answered ≤
        ([postOf wholeDoubles "http://vm:8428/api/v1/import".toList
          ⟨"node-01", 1000, twoCores⟩] : List Post) := by
  have hcounts : (Machine.run (Exporter.step
      ⟨jsonSerde wholeDoubles id, String.length, Char.isAlphanum⟩ wholeFloats
      (some "http://vm:8428/")) (start .empty 0) answeredRun).map (·.answered.length) = some 1 := by
    decide +kernel
  obtain ⟨t, hrun, hlength⟩ := Option.map_eq_some_iff.mp hcounts
  exact ⟨t, hrun, hlength, (posts_are_received wholeDoubles id String.length Char.isAlphanum
    (by decide +kernel) hrun).1⟩

end Exporter

end Hakuraku.Server

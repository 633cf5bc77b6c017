import Hakuraku.Server.Ingestion
import Hakuraku.Lib.Sums
import Mathlib.Algebra.Group.Action.Defs
import Mathlib.Algebra.GroupWithZero.Nat
import Mathlib.Data.Finset.Card

/-!
# The drain of the ingestion workers

Reference: `pulse-server/src/main.rs`, the end of `main`: the servers have stopped, the last senders
are dropped, and every worker is awaited.

`Ingestion.left` counts the turns that the workers still have before them: two database calls for a
snapshot and one for a probe result, one receipt for every queued item, and one last `recv` that
returns `None`. Once the channels are closed nothing adds to it. Every turn of a worker takes one
from it, whatever the database answers, and as long as it is not zero some worker has a turn.
-/

namespace Hakuraku.Server

variable {B J : Type} {cfg : Config B J}

/-- The turns that an item takes from its worker. -/
def IngestionItem.turns : IngestionItem J → ℕ
  | .stats _ => 3
  | .probeResult _ => 2

/-- The turns that the current item of a worker still takes. -/
def Worker.turns : Worker J → ℕ
  | .idle => 0
  | .upserting .. => 2
  | .inserting _ | .probing _ => 1

/-- The turns that the items of a worker still take. -/
def Shard.turns (x : Shard J) : ℕ := (x.queue.map IngestionItem.turns).sum + x.worker.turns

/-- Receiving an item is the first of its turns. -/
theorem Worker.turns_start (clock : Int64) (item : IngestionItem J) :
    (Worker.start clock item).turns + 1 = item.turns := by
  cases item <;> rfl

theorem Worker.turns_idle : (.idle : Worker J).turns = 0 := rfl

theorem Worker.turns_of_inserting? {worker : Worker J} {item : IngestionItem J}
    (h : worker.inserting? = some item) : worker.turns = 1 := by
  cases worker with
  | idle => exact absurd h (by simp [inserting?])
  | upserting item nowMs => exact absurd h (by simp [inserting?])
  | inserting item => rfl
  | probing item => rfl

/-- Nothing is left of the items of a worker that waits at an empty queue, and of no other. -/
theorem Shard.turns_eq_zero_iff {x : Shard J} : x.turns = 0 ↔ x.queue = [] ∧ x.worker = .idle := by
  rw [turns, Nat.add_eq_zero_iff]
  refine and_congr ?_ ?_
  · cases x.queue with
    | nil => simp
    | cons item rest => cases item <;> simp [IngestionItem.turns]
  · cases x.worker <;> simp [Worker.turns]

/-- A queue of at most its capacity, and the item in hand. -/
theorem Shard.turns_le {x : Shard J} (h : x.queue.length ≤ queueCapacity) :
    x.turns ≤ 3 * queueCapacity + 2 := by
  have hqueue : (x.queue.map IngestionItem.turns).sum ≤ x.queue.length * 3 := by
    have hle := List.sum_le_card_nsmul (x.queue.map IngestionItem.turns) 3 fun n hn => by
      obtain ⟨item, -, rfl⟩ := List.mem_map.mp hn
      cases item with
      | stats item => exact le_refl 3
      | probeResult item => exact Nat.le_succ 2
    rwa [List.length_map, smul_eq_mul] at hle
  have hworker : x.worker.turns ≤ 2 := by
    cases x.worker <;> simp [Worker.turns]
  rw [turns]
  omega

/-- The turns of the workers, among the steps. -/
def IngestionAct.isTurn : IngestionAct B → Bool
  | .act a => a.ofWorker
  | .close => false
  | .finish _ => true

namespace Ingestion

variable {g g' t : Ingestion J} {workers : ℕ}

/-- The turns that are left to all workers, with their last one. -/
def left (g : Ingestion J) : ℕ :=
  (g.server.1.shards.map Shard.turns).sum + (g.server.1.shards.length - g.ended.length)

/-- No queue is over its capacity. -/
def Bounded (g : Ingestion J) : Prop := ∀ x ∈ g.server.1.shards, x.queue.length ≤ queueCapacity

theorem Bounded.step {b : IngestionAct B} (hbounded : g.Bounded) (h : g.Sound cfg workers)
    (hs : g.step cfg b = some g') : g'.Bounded := by
  cases b with
  | act a =>
    simp only [Ingestion.step, Option.ite_none_right_eq_some, Option.map_eq_some_iff] at hs
    obtain ⟨-, p', hstep, rfl⟩ := hs
    have hset : ∀ {w : ℕ} {y : Shard J}, p'.1.shards = g.server.1.shards.set w y →
        y.queue.length ≤ queueCapacity → ∀ x ∈ p'.1.shards, x.queue.length ≤ queueCapacity := by
      intro w y hshards hy x hx
      rcases List.mem_or_eq_of_mem_set (hshards ▸ hx) with hx | rfl
      · exact hbounded x hx
      · exact hy
    cases step_ingests h.faithful hstep with
    | quiet hhand hother hshards => exact fun x hx => hbounded x (hshards ▸ hx)
    | sent item y hhand hother hroom hy hshards =>
      refine hset hshards ?_
      rw [List.length_append, List.length_singleton]
      exact (Process.hasRoom_iff hy).mp hroom
    | refused item hhand hother hfull hshards => exact fun x hx => hbounded x (hshards ▸ hx)
    | taken w y item rest hy hidle hqueue hshards =>
      refine hset hshards ?_
      have hle := hbounded y (List.mem_of_getElem? hy)
      rw [hqueue, List.length_cons] at hle
      exact Nat.le_of_succ_le hle
    | upserted w ok y item nowMs hy hworker hshards =>
      exact hset hshards (hbounded y (List.mem_of_getElem? hy))
    | inserted w ok y item hy hitem hshards =>
      exact hset hshards (hbounded y (List.mem_of_getElem? hy))
  | close =>
    simp only [Ingestion.step, Option.ite_none_right_eq_some, Option.some.injEq] at hs
    obtain ⟨-, rfl⟩ := hs
    exact hbounded
  | finish w =>
    simp only [Ingestion.step, Option.bind_eq_bind, Option.bind_eq_some_iff] at hs
    obtain ⟨x, hx, hs⟩ := hs
    split at hs
    · simp only [Option.ite_none_right_eq_some, Option.some.injEq] at hs
      obtain ⟨-, rfl⟩ := hs
      exact hbounded
    · exact absurd hs (by simp)

/-- What every step keeps. -/
structure Pool (cfg : Config B J) (workers : ℕ) (g : Ingestion J) : Prop extends
    g.Sound cfg workers where
  bounded : g.Bounded
  /-- A worker returns once. -/
  nodup : g.ended.Nodup
  ended_lt : ∀ w ∈ g.ended, w < workers

theorem pool_start (cfg : Config B J) (db : Database J) (clock : Int64) (workers : ℕ) :
    (start db clock workers).Pool cfg workers where
  toSound := sound_start cfg db clock workers
  bounded x hx := by
    obtain ⟨-, rfl⟩ := List.mem_replicate.mp hx
    exact Nat.zero_le _
  nodup := List.nodup_nil
  ended_lt _ hw := absurd hw List.not_mem_nil

theorem Pool.step {b : IngestionAct B} (h : g.Pool cfg workers) (hs : g.step cfg b = some g') :
    g'.Pool cfg workers := by
  have hsound := h.toSound.step hs
  have hbounded := h.bounded.step h.toSound hs
  cases b with
  | act a =>
    simp only [Ingestion.step, Option.ite_none_right_eq_some, Option.map_eq_some_iff] at hs
    obtain ⟨-, p', -, rfl⟩ := hs
    exact ⟨hsound, hbounded, h.nodup, h.ended_lt⟩
  | close =>
    simp only [Ingestion.step, Option.ite_none_right_eq_some, Option.some.injEq] at hs
    obtain ⟨-, rfl⟩ := hs
    exact ⟨hsound, hbounded, h.nodup, h.ended_lt⟩
  | finish w =>
    simp only [Ingestion.step, Option.bind_eq_bind, Option.bind_eq_some_iff] at hs
    obtain ⟨x, hx, hs⟩ := hs
    split at hs
    · simp only [Option.ite_none_right_eq_some, Option.some.injEq] at hs
      obtain ⟨⟨-, hnew⟩, rfl⟩ := hs
      have hlt : w < workers := h.count ▸ (List.getElem?_eq_some_iff.mp hx).1
      exact ⟨hsound, hbounded, List.nodup_cons.mpr ⟨hnew, h.nodup⟩,
        List.forall_mem_cons.mpr ⟨hlt, h.ended_lt⟩⟩
    · exact absurd hs (by simp)

/-- Fewer workers have returned than there are, unless all have. -/
theorem Pool.ended_length_le (h : g.Pool cfg workers) :
    g.ended.length ≤ g.server.1.shards.length := by
  rw [h.count]
  have hsub : g.ended.toFinset ⊆ Finset.range workers := fun w hw =>
    Finset.mem_range.mpr (h.ended_lt w (List.mem_toFinset.mp hw))
  have hcard := Finset.card_le_card hsub
  rwa [Finset.card_range, List.toFinset_card_of_nodup h.nodup] at hcard

/-! ## The turns -/

/-- Replacing a shard takes from what is left what the shard has less. -/
theorem left_of_shards_set {w : ℕ} {x y : Shard J} (hx : g.server.1.shards[w]? = some x)
    (hshards : g'.server.1.shards = g.server.1.shards.set w y) (hended : g'.ended = g.ended)
    (hturns : y.turns + 1 = x.turns) : g'.left + 1 = g.left := by
  have hsum := Sums.sum_map_set Shard.turns y hx
  rw [left, left, hshards, hended, List.length_set]
  omega

/-- A closed pool stays closed and accepts nothing. -/
theorem closed_step {b : IngestionAct B} (hclosed : g.closed = true)
    (hs : g.step cfg b = some g') : g'.closed = true ∧ g'.sent = g.sent := by
  cases b with
  | act a =>
    simp only [Ingestion.step, Option.ite_none_right_eq_some, Option.map_eq_some_iff] at hs
    obtain ⟨hperm, p', hstep, rfl⟩ := hs
    obtain ⟨-, hnone⟩ := streams_of_permits hclosed hperm hstep
    exact ⟨hclosed, (sent_record_none cfg p' hnone).1⟩
  | close =>
    simp only [Ingestion.step, Option.ite_none_right_eq_some, Option.some.injEq] at hs
    obtain ⟨-, rfl⟩ := hs
    exact ⟨rfl, rfl⟩
  | finish w =>
    simp only [Ingestion.step, Option.bind_eq_bind, Option.bind_eq_some_iff] at hs
    obtain ⟨x, -, hs⟩ := hs
    split at hs
    · simp only [Option.ite_none_right_eq_some, Option.some.injEq] at hs
      obtain ⟨-, rfl⟩ := hs
      exact ⟨hclosed, rfl⟩
    · exact absurd hs (by simp)

/-- **A turn takes one from what is left**, and no other step of a closed pool changes it. -/
theorem Pool.left_step {b : IngestionAct B} (h : g.Pool cfg workers) (hclosed : g.closed = true)
    (hs : g.step cfg b = some g') : g'.left + (if b.isTurn then 1 else 0) = g.left := by
  have hpool := h.step hs
  cases b with
  | act a =>
    simp only [Ingestion.step, Option.ite_none_right_eq_some, Option.map_eq_some_iff] at hs
    obtain ⟨hperm, p', hstep, rfl⟩ := hs
    obtain ⟨-, hnone⟩ := streams_of_permits hclosed hperm hstep
    cases step_ingests h.faithful hstep with
    | quiet hhand hother hshards =>
      rw [IngestionAct.isTurn, hother]
      exact congrArg (fun l : List (Shard J) => (l.map Shard.turns).sum + (l.length - g.ended.length))
        hshards
    | sent item x hhand => exact absurd (hnone.symm.trans hhand) (by simp)
    | refused item hhand => exact absurd (hnone.symm.trans hhand) (by simp)
    | taken w x item rest hx hidle hqueue hshards =>
      refine left_of_shards_set hx hshards rfl ?_
      have hstart := Worker.turns_start g.server.1.clock item
      rw [Shard.turns, Shard.turns, hidle, hqueue, List.map_cons, List.sum_cons, Worker.turns_idle]
      dsimp only
      omega
    | upserted w ok x item nowMs hx hworker hshards =>
      refine left_of_shards_set hx hshards rfl ?_
      rw [Shard.turns, Shard.turns, hworker]
      rfl
    | inserted w ok x item hx hitem hshards =>
      refine left_of_shards_set hx hshards rfl ?_
      rw [Shard.turns, Shard.turns, Worker.turns_of_inserting? hitem]
      rfl
  | close =>
    simp only [Ingestion.step, Option.ite_none_right_eq_some, Option.some.injEq] at hs
    obtain ⟨-, rfl⟩ := hs
    rfl
  | finish w =>
    simp only [Ingestion.step, Option.bind_eq_bind, Option.bind_eq_some_iff] at hs
    obtain ⟨x, hx, hs⟩ := hs
    split at hs
    · simp only [Option.ite_none_right_eq_some, Option.some.injEq] at hs
      obtain ⟨-, rfl⟩ := hs
      have hle : g.ended.length + 1 ≤ g.server.1.shards.length := hpool.ended_length_le
      simp only [left, List.length_cons, IngestionAct.isTurn, if_true]
      omega
    · exact absurd hs (by simp)

/-! ## No worker is stuck -/

/-- A worker with something left to do has a turn. -/
theorem Pool.turn_of_shard {w : ℕ} {x : Shard J} (h : g.Pool cfg workers)
    (hx : g.server.1.shards[w]? = some x) (hturns : x.turns ≠ 0) :
    ∃ b : IngestionAct B, b.isTurn = true ∧ (g.step cfg b).isSome = true := by
  obtain ⟨queue, worker⟩ := x
  cases worker with
  | idle =>
    cases queue with
    | nil => exact absurd rfl hturns
    | cons item rest =>
      have hnot : w ∉ g.ended := fun hw => absurd ((h.ended w hw).2 _ hx).1 (by simp)
      exact ⟨.act (.workerRecv w), rfl, by simp [Ingestion.step, permits, hnot, Server.step, hx]⟩
  | upserting item nowMs =>
    exact ⟨.act (.workerUpsert w false), rfl, by simp [Ingestion.step, permits, Server.step, hx]⟩
  | inserting item =>
    exact ⟨.act (.workerInsert w false), rfl, by simp [Ingestion.step, permits, Server.step, hx]⟩
  | probing item =>
    exact ⟨.act (.workerInsert w false), rfl, by simp [Ingestion.step, permits, Server.step, hx]⟩

/-- **As long as a turn is left, some worker has one.** -/
theorem Pool.exists_turn (h : g.Pool cfg workers) (hclosed : g.closed = true) (hleft : g.left ≠ 0) :
    ∃ b : IngestionAct B, b.isTurn = true ∧ (g.step cfg b).isSome = true := by
  by_cases hall : ∀ x ∈ g.server.1.shards, x.turns = 0
  · -- all items are through, so a worker is left that has not returned
    have hsum : (g.server.1.shards.map Shard.turns).sum = 0 :=
      List.sum_eq_zero fun n hn => by
        obtain ⟨x, hx, rfl⟩ := List.mem_map.mp hn
        exact hall x hx
    have hlt : g.ended.toFinset.card < (Finset.range workers).card := by
      rw [Finset.card_range, List.toFinset_card_of_nodup h.nodup, ← h.count]
      rw [left, hsum] at hleft
      omega
    obtain ⟨w, hw, hnot⟩ := Finset.exists_mem_notMem_of_card_lt_card hlt
    rw [Finset.mem_range, ← h.count] at hw
    rw [List.mem_toFinset] at hnot
    obtain ⟨hqueue, hidle⟩ := Shard.turns_eq_zero_iff.mp (hall _ (List.getElem_mem hw))
    exact ⟨.finish w, rfl, by simp [Ingestion.step, hw, hqueue, hidle, hclosed, hnot]⟩
  · obtain ⟨x, hx⟩ := not_forall.mp hall
    obtain ⟨hx, hturns⟩ := Classical.not_imp.mp hx
    obtain ⟨w, hw⟩ := List.mem_iff_getElem?.mp hx
    exact h.turn_of_shard hw hturns

/-- When no turn is left, all workers have returned, and all items are through. -/
theorem Pool.of_left_eq_zero (h : g.Pool cfg workers) (hleft : g.left = 0) :
    (∀ w < workers, w ∈ g.ended) ∧ ∀ x ∈ g.server.1.shards, x.queue = [] ∧ x.worker = .idle := by
  obtain ⟨hsum, hcount⟩ := Nat.add_eq_zero_iff.mp hleft
  refine ⟨fun w hw => ?_, fun x hx => ?_⟩
  · have hsub : g.ended.toFinset ⊆ Finset.range workers := fun v hv =>
      Finset.mem_range.mpr (h.ended_lt v (List.mem_toFinset.mp hv))
    have heq : g.ended.toFinset = Finset.range workers := by
      refine Finset.eq_of_subset_of_card_le hsub ?_
      rw [Finset.card_range, List.toFinset_card_of_nodup h.nodup, ← h.count]
      omega
    rw [← List.mem_toFinset, heq]
    exact Finset.mem_range.mpr hw
  · have hle : x.turns ≤ (g.server.1.shards.map Shard.turns).sum :=
      List.single_le_sum (fun _ _ => Nat.zero_le _) _ (List.mem_map_of_mem hx)
    exact Shard.turns_eq_zero_iff.mp (by omega)

theorem Bounded.left_le (h : g.Bounded) :
    g.left ≤ g.server.1.shards.length * (3 * queueCapacity + 3) := by
  have hsum : (g.server.1.shards.map Shard.turns).sum ≤
      g.server.1.shards.length * (3 * queueCapacity + 2) := by
    have hle := List.sum_le_card_nsmul (g.server.1.shards.map Shard.turns) (3 * queueCapacity + 2)
      fun n hn => by
        obtain ⟨x, hx, rfl⟩ := List.mem_map.mp hn
        exact Shard.turns_le (h x hx)
    rwa [List.length_map, smul_eq_mul] at hle
  rw [left]
  have hmul : g.server.1.shards.length * (3 * queueCapacity + 3) =
      g.server.1.shards.length * (3 * queueCapacity + 2) + g.server.1.shards.length :=
    Nat.mul_succ _ _
  omega

/-- **A shutdown completes.** However the server came to close its channels, the drain accepts nothing
more; each turn of a worker takes one from a bounded number of turns, whether or not the database
calls succeed; a worker has a turn as long as one is left; and when none is left all workers have
returned, done with every item that was sent, in the order of each node. -/
theorem drain_completes (cfg : Config B J) (db : Database J) (clock : Int64) (workers : ℕ)
    (hworkers : 1 ≤ workers) (as drain : List (IngestionAct B)) (g t : Ingestion J)
    (hrun : Machine.run (Ingestion.step cfg) (start db clock workers) as = some g)
    (hclosed : g.closed = true)
    (hdrain : Machine.run (Ingestion.step cfg) g drain = some t) :
    t.sent = g.sent ∧ t.left + drain.countP IngestionAct.isTurn = g.left ∧
      g.left ≤ workers * (3 * queueCapacity + 3) ∧
      (t.left ≠ 0 → ∃ b : IngestionAct B, b.isTurn = true ∧ (t.step cfg b).isSome = true) ∧
      (t.left = 0 → (∀ w < workers, w ∈ t.ended) ∧
        ∀ n, ofNode n (t.finished.map (·.2)) = ofNode n t.sent) := by
  have h : g.Pool cfg workers :=
    Machine.run_invariant (fun _ _ _ hI hs => hI.step hs) (pool_start cfg db clock workers) hrun
  obtain ⟨ht, htclosed, hsent⟩ : t.Pool cfg workers ∧ t.closed = true ∧ t.sent = g.sent :=
    Machine.run_invariant (I := fun t => t.Pool cfg workers ∧ t.closed = true ∧ t.sent = g.sent)
      (fun _ _ _ ⟨hI, hclosed, hsent⟩ hs =>
        have hstep := closed_step hclosed hs
        ⟨hI.step hs, hstep.1, hstep.2.trans hsent⟩) ⟨h, hclosed, rfl⟩ hdrain
  have hwork : t.left + drain.countP IngestionAct.isTurn = g.left :=
    Machine.run_work (I := fun g => g.Pool cfg workers ∧ g.closed = true)
      (fun _ _ _ hI hs => ⟨hI.1.step hs, (closed_step hI.2 hs).1⟩)
      (fun _ _ _ hI hs => hI.1.left_step hI.2 hs) ⟨h, hclosed⟩ hdrain
  refine ⟨hsent, hwork, h.count ▸ h.bounded.left_le, ht.exists_turn htclosed, fun hleft => ?_⟩
  obtain ⟨hended, hidle⟩ := ht.of_left_eq_zero hleft
  refine ⟨hended, fun n => ?_⟩
  -- the worker of the node waits at an empty queue
  have hlt : cfg.hash n % workers < t.server.1.shards.length := by
    rw [ht.count]
    exact Nat.mod_lt _ hworkers
  have hx := List.getElem?_eq_getElem hlt
  obtain ⟨hqueue, hworker⟩ := hidle _ (List.mem_of_getElem? hx)
  have htaken := ht.ofNode_taken (n := n) hx
  have hfinished := ht.ofNode_finished (n := n) hx
  rw [hqueue] at htaken
  rw [hworker] at hfinished
  rw [htaken, hfinished]
  exact ((List.append_nil _).trans (List.append_nil _)).symm

theorem drain_completes_two_items :
    ∃ g t : Ingestion String,
      Machine.run (step .byText) (start .empty 0 3) (drainRun.take 7) = some g ∧
      Machine.run (step .byText) g (drainRun.drop 7) = some t ∧ g.left = 8 ∧ t.left = 0 ∧
      ofNode "node-01" (t.finished.map (·.2)) = ofNode "node-01" t.sent := by
  refine ⟨_, _, (Option.some_get (by decide)).symm, (Option.some_get (by decide)).symm, by decide,
    by decide, ?_⟩
  exact ((drain_completes Config.byText .empty 0 3 (by decide) (drainRun.take 7) (drainRun.drop 7)
    _ _ (Option.some_get (by decide)).symm (by decide) (Option.some_get (by decide)).symm).2.2.2.2
    (by decide)).2 "node-01"

end Ingestion

end Hakuraku.Server

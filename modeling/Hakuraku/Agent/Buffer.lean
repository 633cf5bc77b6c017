import Mathlib.Algebra.Order.Group.Multiset
import Mathlib.Data.List.DropRight
import Mathlib.Data.List.Induction

/-!
# The holdback buffer

Reference: `pulse-agent/src/buffer.rs`.

A buffer of capacity `c ≥ 1` holds the last `c` of the messages pushed since it was drained, or all of
them, after every sequence of operations.
-/

namespace Hakuraku.Agent

/-- `TelemetryBuffer`: a bounded queue, oldest message first. Even a buffer of capacity zero holds
the message pushed last. -/
structure TelemetryBuffer (α : Type) where
  inner : List α
  capacity : ℕ
  length_le : inner.length ≤ max 1 capacity

namespace TelemetryBuffer

variable {α : Type}

/-- `TelemetryBuffer::new`. -/
def new (capacity : ℕ) : TelemetryBuffer α := ⟨[], capacity, Nat.zero_le _⟩

/-- What `push` keeps: at capacity the oldest message goes. -/
def kept (b : TelemetryBuffer α) : List α :=
  if b.capacity ≤ b.inner.length then b.inner.tail else b.inner

/-- What `push` discards. -/
def evicted (b : TelemetryBuffer α) : List α :=
  if b.capacity ≤ b.inner.length then b.inner.take 1 else []

theorem evicted_append_kept (b : TelemetryBuffer α) : b.evicted ++ b.kept = b.inner := by
  unfold evicted kept
  split
  · cases b.inner <;> rfl
  · rfl

theorem kept_sublist (b : TelemetryBuffer α) : b.kept.Sublist b.inner := by
  rw [← b.evicted_append_kept]
  exact List.sublist_append_right _ _

theorem length_kept_lt (b : TelemetryBuffer α) : b.kept.length < max 1 b.capacity := by
  have hle := b.length_le
  unfold kept
  split
  · rw [List.length_tail]
    omega
  · omega

/-- `TelemetryBuffer::push`. -/
def push (b : TelemetryBuffer α) (msg : α) : TelemetryBuffer α :=
  ⟨b.kept ++ [msg], b.capacity, by
    rw [List.length_append, List.length_singleton]
    exact b.length_kept_lt⟩

/-- `TelemetryBuffer::drain`: the messages in order, and the buffer after. -/
def drain (b : TelemetryBuffer α) : List α × TelemetryBuffer α := (b.inner, new b.capacity)

/-- A push adds its message to what the buffer held and what it discards. -/
theorem coe_push (b : TelemetryBuffer α) (msg : α) :
    (b.evicted : Multiset α) + ((b.push msg).inner : Multiset α) = (b.inner : Multiset α) + {msg} := by
  show (b.evicted : Multiset α) + ((b.kept ++ [msg] : List α) : Multiset α) = _
  rw [← Multiset.coe_add, ← add_assoc, Multiset.coe_add, b.evicted_append_kept]
  rfl

@[simp] theorem inner_new (capacity : ℕ) : (new capacity : TelemetryBuffer α).inner = [] := rfl

@[simp] theorem inner_drain (b : TelemetryBuffer α) : b.drain.2.inner = [] := rfl

/-! ## Sequences of operations -/

/-- An operation that changes the buffer. -/
inductive Op (α : Type) where
  | push (msg : α)
  | drain

/-- The buffer after an operation. -/
def apply (b : TelemetryBuffer α) : Op α → TelemetryBuffer α
  | .push msg => b.push msg
  | .drain => b.drain.2

/-- The buffer after a sequence of operations. -/
def applyAll (b : TelemetryBuffer α) (ops : List (Op α)) : TelemetryBuffer α := ops.foldl apply b

/-- The messages pushed since the last drain, after those pushed before. -/
def pushedSinceDrain (before : List α) : Op α → List α
  | .push msg => before ++ [msg]
  | .drain => []

/-- The messages pushed since the last drain of a sequence. -/
def pushedBy (ops : List (Op α)) : List α := ops.foldl pushedSinceDrain []

theorem applyAll_concat (b : TelemetryBuffer α) (ops : List (Op α)) (op : Op α) :
    b.applyAll (ops ++ [op]) = (b.applyAll ops).apply op := List.foldl_concat ..

theorem pushedBy_concat (ops : List (Op α)) (op : Op α) :
    pushedBy (ops ++ [op]) = pushedSinceDrain (pushedBy ops) op := List.foldl_concat ..

/-- If a buffer of capacity `n + 1` holds the newest messages, `push` keeps the newest `n`. -/
theorem kept_eq_rtake {b : TelemetryBuffer α} {l : List α} {n : ℕ} (hcapacity : b.capacity = n + 1)
    (h : b.inner = l.rtake (n + 1)) : b.kept = l.rtake n := by
  have hlength : (l.rtake (n + 1)).length = l.length - (l.length - (n + 1)) := by
    rw [List.rtake, List.length_drop]
  unfold kept
  rw [hcapacity, h]
  split
  · -- full: the oldest of the newest `n + 1` goes
    rw [List.rtake, List.rtake, List.tail_drop]
    congr 1
    omega
  · -- not full: no message has been evicted since the last drain
    rw [List.rtake, List.rtake]
    congr 1
    omega

/-- **One operation keeps the newest messages in the buffer.** -/
theorem apply_inner {b : TelemetryBuffer α} {l : List α} {n : ℕ} (hcapacity : b.capacity = n + 1)
    (h : b.inner = l.rtake (n + 1)) (op : Op α) :
    (b.apply op).inner = (pushedSinceDrain l op).rtake (n + 1) := by
  cases op with
  | push msg =>
    show b.kept ++ [msg] = (l ++ [msg]).rtake (n + 1)
    rw [List.rtake_concat_succ, kept_eq_rtake hcapacity h]
  | drain => exact (List.rtake_nil _).symm

theorem apply_capacity (b : TelemetryBuffer α) (op : Op α) : (b.apply op).capacity = b.capacity := by
  cases op <;> rfl

theorem applyAll_new (n : ℕ) (ops : List (Op α)) :
    ((new (n + 1)).applyAll ops).capacity = n + 1 ∧
      ((new (n + 1)).applyAll ops).inner = (pushedBy ops).rtake (n + 1) := by
  induction ops using List.reverseRecOn with
  | nil => exact ⟨rfl, (List.rtake_nil _).symm⟩
  | append_singleton ops op ih =>
    rw [applyAll_concat, pushedBy_concat]
    exact ⟨(apply_capacity _ op).trans ih.1, apply_inner ih.1 ih.2 op⟩

/-- **The buffer keeps exactly the newest messages.** After every sequence of operations on a buffer of
capacity `c ≥ 1` it holds the last `min c k` of the `k` messages pushed since the last drain, in order;
a drain returns them and leaves the buffer empty. -/
theorem holds_newest (c : ℕ) (hc : 1 ≤ c) (ops : List (Op α)) :
    ((new c).applyAll ops).inner = (pushedBy ops).rtake (min c (pushedBy ops).length) ∧
      ((new c).applyAll ops).inner.length = min c (pushedBy ops).length ∧
      ((new c).applyAll ops).inner.length ≤ c ∧
      ((new c).applyAll ops).drain.1 = (pushedBy ops).rtake (min c (pushedBy ops).length) ∧
      ((new c).applyAll ops).drain.2.inner = [] := by
  obtain ⟨n, rfl⟩ := Nat.exists_eq_add_of_le' hc
  have hinner := (applyAll_new n ops).2
  have hmin : (pushedBy ops).rtake (n + 1) =
      (pushedBy ops).rtake (min (n + 1) (pushedBy ops).length) := by
    rw [List.rtake, List.rtake]
    congr 1
    omega
  have hlength : ((new (n + 1)).applyAll ops).inner.length = min (n + 1) (pushedBy ops).length := by
    rw [hinner, List.rtake, List.length_drop]
    omega
  exact ⟨hinner.trans hmin, hlength, hlength ▸ Nat.min_le_left _ _, hinner.trans hmin, rfl⟩

theorem holds_newest_of_four :
    1 ≤ 3 ∧ ((new 3).applyAll [.push 0, .drain, .push 1, .push 2, .push 3, .push 4]).inner =
      [2, 3, 4] :=
  ⟨by decide, (holds_newest 3 (by decide) [.push 0, .drain, .push 1, .push 2, .push 3, .push 4]).1⟩

end TelemetryBuffer

end Hakuraku.Agent

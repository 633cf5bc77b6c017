import Mathlib.Data.List.Dedup
import Mathlib.Algebra.Order.Group.Multiset

/-!
# Telling a repeated value

A source passes through values, none of them twice, and sends each one to an observer. A monitor may
send the current value once more. The two send independently of each other, so that a repetition may
arrive late or even before the value itself. What the observer gets is a list of values: nothing says
who sent them.

Still, once everything has arrived, the observer knows the current value, which is the one that was new
to it last (`newest`), and knows whether it was repeated by counting it (`Told.count_eq`).
-/

namespace Repeats

variable {V : Type*} [DecidableEq V] {told : List V} {pending repeats : Multiset V} {u v : V}
  {repeated : Bool}

/-- The value that occurs first last. -/
def newest (told : List V) : Option V := told.reverse.dedup.head?

theorem newest_concat_of_mem (h : u ∈ told) : newest (told ++ [u]) = newest told := by
  rw [newest, newest, List.reverse_concat, List.dedup_cons_of_mem (List.mem_reverse.mpr h)]

theorem newest_concat_of_notMem (h : u ∉ told) : newest (told ++ [u]) = some u := by
  rw [newest, List.reverse_concat, List.dedup_cons_of_notMem (by rwa [List.mem_reverse]), List.head?_cons]

theorem mem_of_newest (h : newest told = some v) : v ∈ told :=
  List.mem_reverse.mp (List.mem_dedup.mp (List.mem_of_head? h))

/-- Where only one value occurs, it is the newest. -/
theorem newest_of_forall (hne : told ≠ []) (h : ∀ u ∈ told, u = v) : newest told = some v := by
  cases hnew : newest told with
  | none =>
    rw [newest, List.head?_eq_none_iff] at hnew
    obtain ⟨w, hw⟩ := List.exists_mem_of_ne_nil told hne
    have hmem : w ∈ told.reverse.dedup := List.mem_dedup.mpr (List.mem_reverse.mpr hw)
    rw [hnew] at hmem
    exact absurd hmem List.not_mem_nil
  | some w => rw [h w (mem_of_newest hnew)]

/-- The observer has got `told`, the source has `pending` left to send and the monitor `repeats`. The
current value is `v`, and `repeated` says whether the monitor has repeated it. -/
structure Told (told : List V) (pending repeats : Multiset V) (v : V) (repeated : Bool) : Prop where
  current : pending = 0 ∧ newest told = some v ∨
    pending = {v} ∧ (v ∈ told → newest told = some v)
  count : told.count v + pending.count v + repeats.count v = if repeated then 2 else 1
  known : ∀ u ∈ repeats, u ∈ told ∨ u = v

namespace Told

/-- The source comes to a value that is new. -/
theorem emit (hknown : ∀ u ∈ repeats, u ∈ told) (hnew : v ∉ told) : Told told {v} repeats v false where
  current := .inr ⟨rfl, fun h => absurd h hnew⟩
  count := by
    rw [List.count_eq_zero_of_not_mem hnew, Multiset.count_singleton_self,
      Multiset.count_eq_zero_of_notMem fun h => hnew (hknown v h)]
    rfl
  known u hu := .inl (hknown u hu)

/-- Once the source has sent everything, the observer has seen all values. -/
theorem known_of_pending (h : Told told 0 repeats v repeated) : ∀ u ∈ repeats, u ∈ told := by
  intro u hu
  rcases h.current with ⟨-, hnewest⟩ | ⟨hpending, -⟩
  · rcases h.known u hu with htold | rfl
    · exact htold
    · exact mem_of_newest hnewest
  · exact absurd hpending.symm (Multiset.singleton_ne_zero v)

/-- The monitor repeats the current value. -/
theorem mark (h : Told told pending repeats v false) : Told told pending (repeats + {v}) v true where
  current := h.current
  count := by
    rw [Multiset.count_add, Multiset.count_singleton_self, ← Nat.add_assoc, h.count]
    rfl
  known u hu := by
    rcases Multiset.mem_add.mp hu with hold | hnew
    · exact h.known u hold
    · exact .inr (Multiset.mem_singleton.mp hnew)

/-- A value of the source arrives. -/
theorem send (h : Told told (pending + {u}) repeats v repeated) :
    Told (told ++ [u]) pending repeats v repeated := by
  rcases h.current with ⟨hpending, -⟩ | ⟨hpending, hnewest⟩
  · exact absurd (congrArg Multiset.card hpending) (by simp)
  · have hcard := congrArg Multiset.card hpending
    obtain rfl : pending = 0 := Multiset.card_eq_zero.mp (by simpa using hcard)
    obtain rfl : u = v := Multiset.singleton_inj.mp (by simpa using hpending)
    refine ⟨.inl ⟨rfl, ?_⟩, ?_, fun w hw => ?_⟩
    · by_cases hmem : u ∈ told
      · rw [newest_concat_of_mem hmem, hnewest hmem]
      · exact newest_concat_of_notMem hmem
    · rw [← h.count, List.count_append, zero_add]
      simp
    · refine .inl (List.mem_append.mpr ?_)
      exact (h.known w hw).imp_right fun heq => List.mem_singleton.mpr heq

/-- A repetition arrives. -/
theorem announce (h : Told told pending (repeats + {u}) v repeated) :
    Told (told ++ [u]) pending repeats v repeated where
  current := by
    have hu := h.known u (Multiset.mem_add.mpr (.inr (Multiset.mem_singleton_self u)))
    by_cases hmem : u ∈ told
    · rw [newest_concat_of_mem hmem]
      refine h.current.imp_right (And.imp_right fun hnewest hv => ?_)
      rcases List.mem_append.mp hv with hold | hlast
      · exact hnewest hold
      · exact hnewest (List.mem_singleton.mp hlast ▸ hmem)
    · -- the repetition overtakes the value itself
      obtain rfl : u = v := hu.resolve_left hmem
      rw [newest_concat_of_notMem hmem]
      rcases h.current with ⟨-, hnewest⟩ | ⟨hpending, -⟩
      · exact absurd (mem_of_newest hnewest) hmem
      · exact .inr ⟨hpending, fun _ => rfl⟩
  count := by
    rw [← h.count, List.count_append, List.count_singleton, Multiset.count_add,
      Multiset.count_singleton]
    simp only [beq_iff_eq, eq_comm (a := u)]
    omega
  known w hw := by
    refine (h.known w (Multiset.mem_add.mpr (.inl hw))).imp_left ?_
    exact List.mem_append_left _

/-- **Once everything has arrived, the observer can tell.** -/
theorem count_eq (h : Told told 0 0 v repeated) :
    newest told = some v ∧ told.count v = if repeated then 2 else 1 := by
  refine ⟨?_, by simpa using h.count⟩
  rcases h.current with ⟨-, hnewest⟩ | ⟨hpending, -⟩
  · exact hnewest
  · exact absurd hpending.symm (Multiset.singleton_ne_zero v)

end Told

end Repeats

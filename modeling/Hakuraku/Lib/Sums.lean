import Mathlib.Algebra.BigOperators.Group.Finset.Basic
import Mathlib.Algebra.BigOperators.Group.Finset.Piecewise
import Mathlib.Algebra.Order.BigOperators.Group.List
import Mathlib.Data.Multiset.OrderedMonoid

/-!
# Sums over the parts of a system

A system that is a list of like parts has its books in sums `(l.map f).sum` over the parts. The
lemmas say what replacing one part does to such a sum, when two sums agree, what a sum of multisets
contains, and how a sum over keyed parts changes when keys come and go.

`Balanced` is about a stock that gains and loses: what it loses is counted.
-/

namespace Sums

variable {β M : Type*}

/-- Replacing a part trades its contribution to the sum. -/
theorem sum_map_set [AddCommMonoid M] (f : β → M) {l : List β} {i : ℕ} {x : β} (y : β)
    (h : l[i]? = some x) : ((l.set i y).map f).sum + f x = (l.map f).sum + f y := by
  induction l generalizing i with
  | nil => exact absurd h (by simp)
  | cons z l ih =>
    cases i with
    | zero =>
      rw [List.getElem?_cons_zero, Option.some.injEq] at h
      subst h
      simp only [List.set_cons_zero, List.map_cons, List.sum_cons]
      ac_rfl
    | succ i =>
      rw [List.getElem?_cons_succ] at h
      simp only [List.set_cons_succ, List.map_cons, List.sum_cons, add_assoc]
      rw [ih h]

/-- Sums that agree although every part of the first is at most that of the second agree part by
part. -/
theorem eq_of_sum_map_eq [AddCommMonoid M] [PartialOrder M] [IsOrderedCancelAddMonoid M]
    {f g : β → M} {l : List β} (hle : ∀ x ∈ l, f x ≤ g x) (h : (l.map f).sum = (l.map g).sum) :
    ∀ x ∈ l, f x = g x := by
  induction l with
  | nil => exact fun x hx => absurd hx List.not_mem_nil
  | cons y l ih =>
    rw [List.forall_mem_cons] at hle
    rw [List.map_cons, List.map_cons, List.sum_cons, List.sum_cons,
      add_eq_add_iff_eq_and_eq hle.1 (List.sum_le_sum hle.2)] at h
    exact List.forall_mem_cons.mpr ⟨h.1, ih hle.2 h.2⟩

/-- A sum of multisets contains what one of the parts contains. -/
theorem mem_sum_map {α : Type*} {f : β → Multiset α} {l : List β} {m : α} :
    m ∈ (l.map f).sum ↔ ∃ x ∈ l, m ∈ f x := by
  induction l with
  | nil => simp
  | cons y l ih => simp [ih]

/-! ## Stocks -/

/-- The second stock is the first with what it has gained, but for lost pieces that the second counter
has counted since the first. -/
def Balanced (stock : Multiset β) (losses : ℕ) (gained stock' : Multiset β) (losses' : ℕ) : Prop :=
  ∃ lost : Multiset β, stock' + lost = stock + gained ∧ losses + lost.card ≤ losses'

section Balanced

variable {stock stock' stock'' gained gained' part part' : Multiset β} {losses losses' losses'' : ℕ}

/-- A stock that only gains. -/
theorem Balanced.of_eq (hstock : stock' = stock + gained) (hlosses : losses ≤ losses') :
    Balanced stock losses gained stock' losses' :=
  ⟨0, by rw [add_zero, hstock], by rwa [Multiset.card_zero, add_zero]⟩

theorem Balanced.refl (stock : Multiset β) (losses : ℕ) : Balanced stock losses 0 stock losses :=
  .of_eq (add_zero _).symm le_rfl

theorem Balanced.trans (h : Balanced stock losses gained stock' losses')
    (h' : Balanced stock' losses' gained' stock'' losses'') :
    Balanced stock losses (gained + gained') stock'' losses'' := by
  obtain ⟨lost, hstock, hlosses⟩ := h
  obtain ⟨lost', hstock', hlosses'⟩ := h'
  refine ⟨lost + lost', ?_, by rw [Multiset.card_add]; omega⟩
  calc stock'' + (lost + lost') = stock'' + lost' + lost := by ac_rfl
    _ = stock' + lost + gained' := by rw [hstock', add_right_comm]
    _ = stock + (gained + gained') := by rw [hstock, add_assoc]

/-- The stock is balanced if the one part of it that changes is. -/
theorem Balanced.of_part {count count' : ℕ} (h : Balanced part count gained part' count')
    (hstock : stock' + part = stock + part') (hlosses : losses' + count = losses + count') :
    Balanced stock losses gained stock' losses' := by
  obtain ⟨lost, hpart, hcount⟩ := h
  refine ⟨lost, add_right_cancel (b := part) ?_, by omega⟩
  calc stock' + lost + part = stock + (part' + lost) := by
        rw [add_right_comm, hstock, add_assoc]
    _ = stock + gained + part := by rw [hpart, ← add_assoc, add_right_comm]

/-- The pieces of one kind are balanced if all are. -/
theorem Balanced.filter (p : β → Prop) [DecidablePred p]
    (h : Balanced stock losses gained stock' losses') :
    Balanced (stock.filter p) losses (gained.filter p) (stock'.filter p) losses' := by
  obtain ⟨lost, hstock, hlosses⟩ := h
  refine ⟨lost.filter p, by rw [← Multiset.filter_add, hstock, Multiset.filter_add], ?_⟩
  have hcard := Multiset.card_le_card (Multiset.filter_le p lost)
  omega

end Balanced

/-! ## Sums over keys -/

section Keys

variable {κ : Type*} [DecidableEq κ]

/-- A sum over the parts is one over their keys. -/
theorem sum_map_eq_sum_keys [AddCommMonoid M] (key : β → κ) (f : β → M) (l : List β) :
    (l.map f).sum = ∑ k ∈ (l.map key).toFinset, ((l.filter (key · = k)).map f).sum := by
  induction l with
  | nil => simp
  | cons x l ih =>
    have hcons : ∀ k, (((x :: l).filter (key · = k)).map f).sum =
        (if key x = k then f x else 0) + ((l.filter (key · = k)).map f).sum := by
      intro k
      by_cases h : key x = k <;> simp [h]
    have hrest : ∑ k ∈ insert (key x) (l.map key).toFinset, ((l.filter (key · = k)).map f).sum =
        ∑ k ∈ (l.map key).toFinset, ((l.filter (key · = k)).map f).sum := by
      refine Finset.sum_insert_of_eq_zero_if_notMem fun hx => ?_
      -- the key of the first part is no other part's
      have hnil : l.filter (key · = key x) = [] := by
        refine List.filter_eq_nil_iff.mpr fun y hy heq => hx ?_
        rw [decide_eq_true_eq] at heq
        exact List.mem_toFinset.mpr (List.mem_map.mpr ⟨y, hy, heq⟩)
      rw [hnil]
      rfl
    rw [List.map_cons, List.sum_cons, List.map_cons, List.toFinset_cons, Finset.sum_congr rfl fun k _ =>
      hcons k, Finset.sum_add_distrib, hrest, ← ih, Finset.sum_ite_eq, if_pos (Finset.mem_insert_self _ _)]

/-- **The books of two sums over keys**: the second sum has what the new keys bring and what the
common ones gain, the first what the old keys take and what the common ones lose. -/
theorem sum_add_sum_sdiff_add_sum_inter (s t : Finset κ) (f g : κ → ℕ) :
    ∑ k ∈ t, g k + ∑ k ∈ s \ t, f k + ∑ k ∈ s ∩ t, (f k - g k) =
      ∑ k ∈ s, f k + ∑ k ∈ t \ s, g k + ∑ k ∈ s ∩ t, (g k - f k) := by
  have hs := Finset.sum_inter_add_sum_sdiff s t f
  have ht := Finset.sum_inter_add_sum_sdiff t s g
  have hcommon : ∑ k ∈ s ∩ t, g k + ∑ k ∈ s ∩ t, (f k - g k) =
      ∑ k ∈ s ∩ t, f k + ∑ k ∈ s ∩ t, (g k - f k) := by
    rw [← Finset.sum_add_distrib, ← Finset.sum_add_distrib]
    exact Finset.sum_congr rfl fun k _ => by omega
  rw [Finset.inter_comm t s] at ht
  omega

end Keys

end Sums

import Mathlib.Data.List.Sort

/-!
# Ordered selection

The parts of a `SELECT` that depend on an order: `ORDER BY` is a stable sort of the rows, `LIMIT 1`
takes the first of them (`first`), `LIMIT k` the first `k` (`IsTop`), and `DISTINCT ON` keeps the
first row for every key (`distinctOn`). When the rows are ordered by the key before anything else
(`byKey`), the row that `DISTINCT ON` keeps is one that comes first among the rows of its key.

Rows that the order does not separate stay in the order of the table, one of the orders a database
may return them in.
-/

namespace Query

variable {ρ κ : Type*} {r : ρ → ρ → Prop} [DecidableRel r]

/-! ## The first row -/

/-- `ORDER BY … LIMIT 1`. -/
def first (r : ρ → ρ → Prop) [DecidableRel r] (rows : List ρ) : Option ρ :=
  (rows.insertionSort r).head?

/-- The first row is one of the rows, and none comes before it. -/
theorem first_spec [Std.Total r] [IsTrans ρ r] {rows : List ρ} {x : ρ} (h : first r rows = some x) :
    x ∈ rows ∧ ∀ y ∈ rows, r x y := by
  have hsorted := List.pairwise_insertionSort r rows
  obtain ⟨rest, hrest⟩ := List.head?_eq_some_iff.mp h
  have hmem : ∀ y, y ∈ rows ↔ y ∈ x :: rest := fun y => by
    rw [← hrest, List.mem_insertionSort]
  rw [hrest, List.pairwise_cons] at hsorted
  refine ⟨(hmem x).mpr List.mem_cons_self, fun y hy => ?_⟩
  rcases List.mem_cons.mp ((hmem y).mp hy) with rfl | hy
  · exact (total_of r y y).elim id id
  · exact hsorted.1 y hy

theorem first_eq_none {rows : List ρ} : first r rows = none ↔ rows = [] := by
  rw [first, List.head?_eq_none_iff, ← List.length_eq_zero_iff, List.length_insertionSort,
    List.length_eq_zero_iff]

/-! ## The first rows -/

/-- What `ORDER BY … LIMIT k` may return: the first `k` of the rows or all of them, with the ties
broken in any way. -/
structure IsTop (r : ρ → ρ → Prop) (k : ℕ) (rows result : List ρ) : Prop where
  sorted : result.Pairwise r
  length : result.length = min k rows.length
  /-- The rows that are left out come after those that are returned. -/
  rest : ∃ rest, (result ++ rest).Perm rows ∧ ∀ x ∈ result, ∀ y ∈ rest, r x y

theorem isTop_take_insertionSort [Std.Total r] [IsTrans ρ r] (k : ℕ) (rows : List ρ) :
    IsTop r k rows ((rows.insertionSort r).take k) where
  sorted := (List.pairwise_insertionSort r rows).sublist (List.take_sublist k _)
  length := by rw [List.length_take, List.length_insertionSort]
  rest := by
    have hsorted := List.pairwise_insertionSort r rows
    rw [← List.take_append_drop k (rows.insertionSort r), List.pairwise_append] at hsorted
    refine ⟨(rows.insertionSort r).drop k, ?_, hsorted.2.2⟩
    rw [List.take_append_drop]
    exact List.perm_insertionSort r rows

/-- Tables that agree on some rows agree on any part of these. -/
theorem filter_eq_of_imp {p q : ρ → Bool} {rows rows' : List ρ} (himp : ∀ x, q x = true → p x = true)
    (h : rows.filter p = rows'.filter p) : rows.filter q = rows'.filter q := by
  have hpart : ∀ l : List ρ, l.filter q = (l.filter p).filter q := fun l => by
    rw [List.filter_filter]
    refine List.filter_congr fun x _ => ?_
    cases hq : q x with
    | false => rfl
    | true => rw [himp x hq, Bool.and_true]
  rw [hpart rows, hpart rows', h]

/-! ## The first row of every key -/

section DistinctOn

variable [DecidableEq κ] {key : ρ → κ} {rows : List ρ} {x y : ρ}

/-- `DISTINCT ON (key)`: of the rows with the same key only the first. -/
def distinctOn (key : ρ → κ) : List ρ → List ρ
  | [] => []
  | x :: rows => x :: (distinctOn key rows).filter (key · ≠ key x)

theorem mem_of_mem_distinctOn (h : x ∈ distinctOn key rows) : x ∈ rows := by
  induction rows with
  | nil => exact h
  | cons z rows ih =>
    rcases List.mem_cons.mp h with rfl | h
    · exact List.mem_cons_self
    · exact List.mem_cons_of_mem z (ih (List.mem_of_mem_filter h))

/-- Every key is kept. -/
theorem exists_mem_distinctOn (h : x ∈ rows) : ∃ y ∈ distinctOn key rows, key y = key x := by
  induction rows with
  | nil => exact absurd h List.not_mem_nil
  | cons z rows ih =>
    by_cases hz : key z = key x
    · exact ⟨z, List.mem_cons_self, hz⟩
    · have hx : x ∈ rows := (List.mem_cons.mp h).resolve_left fun hx => hz (congrArg key hx.symm)
      obtain ⟨y, hy, hkey⟩ := ih hx
      have hyz : key y ≠ key z := fun hyz => hz (hyz.symm.trans hkey)
      exact ⟨y, List.mem_cons_of_mem z (List.mem_filter.mpr ⟨hy, by simpa using hyz⟩), hkey⟩

/-- No key is kept twice. -/
theorem nodup_map_distinctOn (key : ρ → κ) (rows : List ρ) : ((distinctOn key rows).map key).Nodup := by
  induction rows with
  | nil => exact List.nodup_nil
  | cons z rows ih =>
    rw [distinctOn, List.map_cons, List.nodup_cons]
    refine ⟨fun hz => ?_, ih.sublist (List.filter_sublist.map key)⟩
    obtain ⟨x, hx, hkey⟩ := List.mem_map.mp hz
    have hne : key x ≠ key z := by simpa using List.of_mem_filter hx
    exact hne hkey

/-- Rows ordered by their key, and by `r` where they agree on it. -/
def byKey (lt : κ → κ → Prop) (key : ρ → κ) (r : ρ → ρ → Prop) (x y : ρ) : Prop :=
  lt (key x) (key y) ∨ key x = key y ∧ r x y

instance {lt : κ → κ → Prop} [DecidableRel lt] : DecidableRel (byKey lt key r) :=
  fun _ _ => inferInstanceAs (Decidable (_ ∨ _ ∧ _))

omit [DecidableEq κ] in
theorem byKey_total [LinearOrder κ] (key : ρ → κ) (r : ρ → ρ → Prop) [Std.Total r] :
    Std.Total (byKey (· < ·) key r) where
  total x y := by
    rcases lt_trichotomy (key x) (key y) with h | h | h
    · exact .inl (.inl h)
    · exact (total_of r x y).imp (fun hr => .inr ⟨h, hr⟩) (fun hr => .inr ⟨h.symm, hr⟩)
    · exact .inr (.inl h)

omit [DecidableEq κ] in
theorem byKey_trans [LinearOrder κ] (key : ρ → κ) (r : ρ → ρ → Prop) [IsTrans ρ r] :
    IsTrans ρ (byKey (· < ·) key r) where
  trans x y z := by
    rintro (hxy | ⟨hxy, hr⟩) (hyz | ⟨hyz, hr'⟩)
    · exact .inl (hxy.trans hyz)
    · exact .inl (hyz ▸ hxy)
    · exact .inl (hxy ▸ hyz)
    · exact .inr ⟨hxy.trans hyz, trans_of r hr hr'⟩

omit [DecidableRel r] in
/-- In an ordered list the row kept for a key comes before the others of that key. -/
theorem rel_of_mem_distinctOn {s : ρ → ρ → Prop} (hsorted : rows.Pairwise s)
    (hs : ∀ a b, s a b → key a = key b → r a b) (hx : x ∈ distinctOn key rows) (hy : y ∈ rows)
    (hkey : key x = key y) : x = y ∨ r x y := by
  induction rows with
  | nil => exact absurd hy List.not_mem_nil
  | cons z rows ih =>
    rw [List.pairwise_cons] at hsorted
    rcases List.mem_cons.mp hx with rfl | hx
    · rcases List.mem_cons.mp hy with rfl | hy
      · exact .inl rfl
      · exact .inr (hs x y (hsorted.1 y hy) hkey)
    · have hxz : key x ≠ key z := by simpa using List.of_mem_filter hx
      have hy : y ∈ rows := (List.mem_cons.mp hy).resolve_left fun hyz => hxz (hyz ▸ hkey)
      exact ih hsorted.2 (List.mem_of_mem_filter hx) hy

/-- `SELECT DISTINCT ON (key) … ORDER BY key, …`. -/
def firstOfEach (lt : κ → κ → Prop) [DecidableRel lt] (key : ρ → κ) (r : ρ → ρ → Prop)
    [DecidableRel r] (rows : List ρ) : List ρ :=
  distinctOn key (rows.insertionSort (byKey lt key r))

/-- **Every selected row is one of the rows, and none of its key comes before it.** -/
theorem firstOfEach_spec [LinearOrder κ] [Std.Total r] [IsTrans ρ r]
    (h : x ∈ firstOfEach (· < ·) key r rows) :
    x ∈ rows ∧ ∀ y ∈ rows, key x = key y → r x y := by
  have := byKey_total key r
  have := byKey_trans key r
  have hsorted := List.pairwise_insertionSort (byKey (· < ·) key r) rows
  refine ⟨(List.mem_insertionSort _).mp (mem_of_mem_distinctOn h), fun y hy hkey => ?_⟩
  have hs : ∀ a b, byKey (· < ·) key r a b → key a = key b → r a b := fun a b hab heq =>
    hab.elim (fun hlt => absurd heq hlt.ne) And.right
  rcases rel_of_mem_distinctOn hsorted hs h ((List.mem_insertionSort _).mpr hy) hkey with rfl | hr
  · exact (total_of r x x).elim id id
  · exact hr

/-- Every key among the rows is selected. -/
theorem exists_mem_firstOfEach (lt : κ → κ → Prop) [DecidableRel lt] (key : ρ → κ)
    (r : ρ → ρ → Prop) [DecidableRel r] (h : x ∈ rows) :
    ∃ y ∈ firstOfEach lt key r rows, key y = key x :=
  exists_mem_distinctOn ((List.mem_insertionSort _).mpr h)

end DistinctOn

end Query

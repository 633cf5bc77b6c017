import Mathlib.Logic.Basic
import Mathlib.Data.List.Basic

/-!
# Runs of a partial step function

A system of interleaved tasks is a partial step function `step : σ → α → Option σ`: the action
`a : α` names the task that moves and resolves its nondeterminism, and `none` says that the action
is not enabled. A run is a list of actions (`run`), so that runs are data and can be evaluated.

Two predicates speak about a whole run rather than its end:

* `Along step P s as`: every step of the run is taken in a state where the guard `P` holds of the
  state and the action;
* `Always step Q s as`: `Q` holds in every state of the run, the first and the last included.

`run_preserves` is the invariant rule for guarded runs, and `Along.always_iff` turns a step-wise
characterisation of when `Q` survives into one for runs. `recorded` adds to the state a record of what
the steps put out, so that the rules apply to properties of the state and its history.
-/

namespace Machine

variable {σ α : Type*} {step : σ → α → Option σ}

/-- Take the actions one after the other; `none` as soon as one is not enabled. -/
def run (step : σ → α → Option σ) : σ → List α → Option σ
  | s, [] => some s
  | s, a :: as => (step s a).bind fun s' => run step s' as

@[simp] theorem run_nil (s : σ) : run step s [] = some s := rfl

theorem run_cons (s : σ) (a : α) (as : List α) :
    run step s (a :: as) = (step s a).bind fun s' => run step s' as := rfl

/-- A run splits at its first action. -/
theorem run_cons_eq_some {s t : σ} {a : α} {as : List α} :
    run step s (a :: as) = some t ↔ ∃ s', step s a = some s' ∧ run step s' as = some t := by
  rw [run_cons, Option.bind_eq_some_iff]

theorem run_append (s : σ) (as bs : List α) :
    run step s (as ++ bs) = (run step s as).bind fun s' => run step s' bs := by
  induction as generalizing s with
  | nil => rfl
  | cons a as ih =>
    rw [List.cons_append, run_cons, run_cons, Option.bind_assoc]
    exact congrArg _ (funext fun s' => ih s')

/-- A run splits at any point of its action list. -/
theorem run_append_eq_some {s t : σ} {as bs : List α} :
    run step s (as ++ bs) = some t ↔ ∃ s', run step s as = some s' ∧ run step s' bs = some t := by
  rw [run_append, Option.bind_eq_some_iff]

/-- A run splits at its last action. -/
theorem run_concat_eq_some {s t : σ} {as : List α} {a : α} :
    run step s (as ++ [a]) = some t ↔ ∃ s', run step s as = some s' ∧ step s' a = some t := by
  rw [run_append_eq_some]
  simp [run_cons]

/-- A machine that never stops has every run. -/
theorem exists_run (h : ∀ s a, ∃ s', step s a = some s') (s : σ) (as : List α) :
    ∃ t, run step s as = some t := by
  induction as generalizing s with
  | nil => exact ⟨s, rfl⟩
  | cons a as ih =>
    obtain ⟨s', hs'⟩ := h s a
    obtain ⟨t, ht⟩ := ih s'
    exact ⟨t, run_cons_eq_some.mpr ⟨s', hs', ht⟩⟩

/-! ## Guarded runs -/

/-- The guard `P` holds at every step of the run. -/
def Along (step : σ → α → Option σ) (P : σ → α → Prop) : σ → List α → Prop
  | _, [] => True
  | s, a :: as => P s a ∧ ∀ s', step s a = some s' → Along step P s' as

@[simp] theorem along_nil (P : σ → α → Prop) (s : σ) : Along step P s [] := trivial

theorem along_cons {P : σ → α → Prop} {s : σ} {a : α} {as : List α} :
    Along step P s (a :: as) ↔ P s a ∧ ∀ s', step s a = some s' → Along step P s' as := Iff.rfl

/-- Every run has the guard that asks for nothing. -/
theorem along_true (s : σ) (as : List α) : Along step (fun _ _ => True) s as := by
  induction as generalizing s with
  | nil => trivial
  | cons a as ih => exact ⟨trivial, fun s' _ => ih s'⟩

/-- Two guards of a run are one. -/
theorem Along.and {P Q : σ → α → Prop} {s : σ} {as : List α} (hP : Along step P s as)
    (hQ : Along step Q s as) : Along step (fun s a => P s a ∧ Q s a) s as := by
  induction as generalizing s with
  | nil => trivial
  | cons a as ih => exact ⟨⟨hP.1, hQ.1⟩, fun s' hs' => ih (hP.2 s' hs') (hQ.2 s' hs')⟩

/-- A guarded run splits at any state it passes through. -/
theorem along_append {P : σ → α → Prop} {s s' : σ} {as bs : List α}
    (h : run step s as = some s') :
    Along step P s (as ++ bs) ↔ Along step P s as ∧ Along step P s' bs := by
  induction as generalizing s with
  | nil =>
    rw [run_nil, Option.some.injEq] at h
    subst h
    simp
  | cons a as ih =>
    obtain ⟨s₁, hstep, hrun⟩ := run_cons_eq_some.mp h
    rw [List.cons_append, along_cons, along_cons, and_assoc]
    refine and_congr_right fun _ => ?_
    constructor
    · intro hall
      have hsplit := (ih hrun).mp (hall s₁ hstep)
      refine ⟨fun s₂ h₂ => ?_, hsplit.2⟩
      rw [hstep, Option.some.injEq] at h₂
      exact h₂ ▸ hsplit.1
    · rintro ⟨hall, hlast⟩ s₂ h₂
      rw [hstep, Option.some.injEq] at h₂
      subst h₂
      exact (ih hrun).mpr ⟨hall s₁ hstep, hlast⟩

/-- Whether a run is guarded can be evaluated. -/
instance Along.decidable {P : σ → α → Prop} [∀ s a, Decidable (P s a)] :
    ∀ (s : σ) (as : List α), Decidable (Along step P s as)
  | _, [] => isTrue trivial
  | s, a :: as =>
    match h : step s a with
    | none => decidable_of_iff (P s a) (by simp [along_cons, h])
    | some s' =>
      have : Decidable (Along step P s' as) := Along.decidable s' as
      decidable_of_iff (P s a ∧ Along step P s' as) (by simp [along_cons, h])

/-- **The invariant rule for guarded runs.** What every guarded step keeps, a guarded run keeps. -/
theorem run_preserves {P : σ → α → Prop} {I : σ → Prop}
    (hstep : ∀ s a s', I s → P s a → step s a = some s' → I s')
    {s t : σ} {as : List α} (hs : I s) (hP : Along step P s as) (hrun : run step s as = some t) :
    I t := by
  induction as generalizing s with
  | nil =>
    rw [run_nil, Option.some.injEq] at hrun
    exact hrun ▸ hs
  | cons a as ih =>
    obtain ⟨s', hs', hrun'⟩ := run_cons_eq_some.mp hrun
    exact ih (hstep s a s' hs hP.1 hs') (hP.2 s' hs') hrun'

/-- The invariant rule without a guard. -/
theorem run_invariant {I : σ → Prop} (hstep : ∀ s a s', I s → step s a = some s' → I s')
    {s t : σ} {as : List α} (hs : I s) (hrun : run step s as = some t) : I t := by
  induction as generalizing s with
  | nil =>
    rw [run_nil, Option.some.injEq] at hrun
    exact hrun ▸ hs
  | cons a as ih =>
    obtain ⟨s', hs', hrun'⟩ := run_cons_eq_some.mp hrun
    exact ih (hstep s a s' hs hs') hrun'

/-- Every step of a run is taken in a state of the invariant. -/
theorem along_of_invariant {I : σ → Prop} {Q : σ → α → Prop}
    (hinv : ∀ s a s', I s → step s a = some s' → I s') (himp : ∀ s a, I s → Q s a)
    {s : σ} (as : List α) (hI : I s) : Along step Q s as := by
  induction as generalizing s with
  | nil => trivial
  | cons a as ih => exact ⟨himp s a hI, fun s' hs' => ih (hinv s a s' hI hs')⟩

/-- Where an invariant that guarded steps keep makes the guard imply another, a guarded run is guarded
by both. -/
theorem Along.of_invariant {I : σ → Prop} {P Q : σ → α → Prop} {s : σ} {as : List α}
    (hP : Along step P s as) (hinv : ∀ s a s', I s → P s a → step s a = some s' → I s')
    (himp : ∀ s a, I s → P s a → Q s a) (hI : I s) : Along step Q s as := by
  induction as generalizing s with
  | nil => trivial
  | cons a as ih =>
    exact ⟨himp s a hI hP.1, fun s' hs' => ih (hP.2 s' hs') (hinv s a s' hI hP.1 hs')⟩

/-- Guards that agree on the steps of a run guard it alike. -/
theorem along_congr {I : σ → Prop} {P Q : σ → α → Prop}
    (hinv : ∀ s a s', I s → step s a = some s' → I s')
    (hstep : ∀ s a s', I s → step s a = some s' → (P s a ↔ Q s a))
    {s t : σ} {as : List α} (hI : I s) (hrun : run step s as = some t) :
    Along step P s as ↔ Along step Q s as := by
  induction as generalizing s with
  | nil => exact iff_of_true trivial trivial
  | cons a as ih =>
    obtain ⟨s', hs', hrun'⟩ := run_cons_eq_some.mp hrun
    rw [along_cons, along_cons, hstep s a s' hI hs', hs']
    refine and_congr_right fun _ => ?_
    simp only [Option.some.injEq, forall_eq']
    exact ih (hinv s a s' hI hs') hrun'

/-! ## Properties of every state of a run -/

/-- `Q` holds in every state of the run. -/
def Always (step : σ → α → Option σ) (Q : σ → Prop) : σ → List α → Prop
  | s, [] => Q s
  | s, a :: as => Q s ∧ ∀ s', step s a = some s' → Always step Q s' as

theorem Always.head {Q : σ → Prop} {s : σ} {as : List α} (h : Always step Q s as) : Q s := by
  cases as with
  | nil => exact h
  | cons a as => exact h.1

/-- What every guarded step keeps holds in every state of a guarded run. -/
theorem Along.always {Q : σ → Prop} {P : σ → α → Prop}
    (hstep : ∀ s a s', Q s → P s a → step s a = some s' → Q s')
    {s : σ} {as : List α} (h : Along step P s as) (hQ : Q s) : Always step Q s as := by
  induction as generalizing s with
  | nil => exact hQ
  | cons a as ih => exact ⟨hQ, fun s' hs' => ih (h.2 s' hs') (hstep s a s' hQ h.1 hs')⟩

/-- What an enabled step from a `Q`-state satisfies, every step of a run within `Q` satisfies. -/
theorem Always.along {Q : σ → Prop} {P : σ → α → Prop}
    (hstep : ∀ s a s', Q s → step s a = some s' → P s a)
    {s t : σ} {as : List α} (h : Always step Q s as) (hrun : run step s as = some t) :
    Along step P s as := by
  induction as generalizing s with
  | nil => trivial
  | cons a as ih =>
    obtain ⟨s', hs', hrun'⟩ := run_cons_eq_some.mp hrun
    refine ⟨hstep s a s' h.1 hs', fun s₂ h₂ => ?_⟩
    rw [hs', Option.some.injEq] at h₂
    subst h₂
    exact ih (h.2 s' hs') hrun'

/-- If, under an invariant `I` of runs guarded by `G`, a step from a `Q`-state ends in a `Q`-state
exactly when its guard `P` holds, then a run guarded by `G` stays in `Q` exactly when it is guarded
by `P` throughout. -/
theorem Along.always_iff {I Q : σ → Prop} {G P : σ → α → Prop} {s t : σ} {as : List α}
    (hG : Along step G s as) (hinv : ∀ s a s', I s → G s a → step s a = some s' → I s')
    (hstep : ∀ s a s', I s → Q s → G s a → step s a = some s' → (Q s' ↔ P s a))
    (hI : I s) (hQ : Q s) (hrun : run step s as = some t) :
    Always step Q s as ↔ Along step P s as := by
  induction as generalizing s with
  | nil => exact iff_of_true hQ trivial
  | cons a as ih =>
    obtain ⟨s', hs', hrun'⟩ := run_cons_eq_some.mp hrun
    have hone := hstep s a s' hI hQ hG.1 hs'
    have hI' := hinv s a s' hI hG.1 hs'
    have hG' := hG.2 s' hs'
    constructor
    · rintro ⟨-, hall⟩
      have htail := hall s' hs'
      refine ⟨hone.mp htail.head, fun s₂ h₂ => ?_⟩
      rw [hs', Option.some.injEq] at h₂
      subst h₂
      exact (ih hG' hI' htail.head hrun').mp htail
    · rintro ⟨hP, hall⟩
      refine ⟨hQ, fun s₂ h₂ => ?_⟩
      rw [hs', Option.some.injEq] at h₂
      subst h₂
      exact (ih hG' hI' (hone.mpr hP) hrun').mpr (hall s' hs')

/-- The same for every run. -/
theorem always_iff_along {I Q : σ → Prop} {P : σ → α → Prop}
    (hinv : ∀ s a s', I s → step s a = some s' → I s')
    (hstep : ∀ s a s', I s → Q s → step s a = some s' → (Q s' ↔ P s a))
    {s t : σ} {as : List α} (hI : I s) (hQ : Q s) (hrun : run step s as = some t) :
    Always step Q s as ↔ Along step P s as :=
  (along_true s as).always_iff (fun s a s' hI _ hs' => hinv s a s' hI hs')
    (fun s a s' hI hQ _ hs' => hstep s a s' hI hQ hs') hI hQ hrun

/-! ## Work that is left -/

/-- **The rule for a bounded amount of work.** If every turn takes one piece of the work that is left
and no other step changes it, a run takes as many turns as pieces of work are gone. -/
theorem run_work {I : σ → Prop} {left : σ → ℕ} {turn : α → Bool}
    (hinv : ∀ s a s', I s → step s a = some s' → I s')
    (hturn : ∀ s a s', I s → step s a = some s' →
      left s' + (if turn a = true then 1 else 0) = left s)
    {s t : σ} {as : List α} (hs : I s) (hrun : run step s as = some t) :
    left t + as.countP turn = left s := by
  induction as generalizing s with
  | nil =>
    rw [run_nil, Option.some.injEq] at hrun
    exact congrArg left hrun.symm
  | cons a as ih =>
    obtain ⟨s', hs', hrun'⟩ := run_cons_eq_some.mp hrun
    rw [List.countP_cons, ← Nat.add_assoc, ih (hinv s a s' hs hs') hrun']
    exact hturn s a s' hs hs'

/-! ## Recording what a run puts out -/

/-- The machine with a record of what its steps put out, where `out s a` is what the step `a` from
`s` does. -/
def recorded {β : Type*} (step : σ → α → Option σ) (out : σ → α → List β) (p : σ × List β) (a : α) :
    Option (σ × List β) :=
  (step p.1 a).map fun s' => (s', p.2 ++ out p.1 a)

theorem recorded_eq_some {β : Type*} {out : σ → α → List β} {p p' : σ × List β} {a : α} :
    recorded step out p a = some p' ↔
      ∃ s', step p.1 a = some s' ∧ (s', p.2 ++ out p.1 a) = p' := Option.map_eq_some_iff

/-- A record stands in nobody's way. -/
theorem run_recorded {β : Type*} (out : σ → α → List β) {s t : σ} {as : List α}
    (h : run step s as = some t) (l : List β) :
    ∃ l', run (recorded step out) (s, l) as = some (t, l') := by
  induction as generalizing s l with
  | nil =>
    rw [run_nil, Option.some.injEq] at h
    exact ⟨l, h ▸ rfl⟩
  | cons a as ih =>
    obtain ⟨s', hs', hrun⟩ := run_cons_eq_some.mp h
    obtain ⟨l', hl'⟩ := ih hrun (l ++ out s a)
    exact ⟨l', run_cons_eq_some.mpr ⟨_, recorded_eq_some.mpr ⟨s', hs', rfl⟩, hl'⟩⟩

/-! ## Tasks in a list

The state of a system often keeps its tasks in a list, and a step replaces one of them. -/

/-- After the replacement of one task, a task is the new one or an old one at another place. -/
theorem getElem?_set_cases {τ : Type*} {l : List τ} {i j : ℕ} {y z : τ}
    (h : (l.set i y)[j]? = some z) : i = j ∧ z = y ∨ i ≠ j ∧ l[j]? = some z := by
  rw [List.getElem?_set] at h
  split at h
  · rename_i hij
    split at h
    · exact .inl ⟨hij, (Option.some.inj h).symm⟩
    · exact absurd h (by simp)
  · rename_i hij
    exact .inr ⟨hij, h⟩

/-- After a task has been added, a task is an old one or the new one at the end. -/
theorem getElem?_concat_cases {τ : Type*} {l : List τ} {j : ℕ} {y z : τ}
    (h : (l ++ [y])[j]? = some z) : l[j]? = some z ∨ j = l.length ∧ z = y := by
  by_cases hj : j < l.length
  · exact .inl ((List.getElem?_append_left hj).symm.trans h)
  · rw [List.getElem?_append_right (Nat.le_of_not_lt hj), List.getElem?_singleton] at h
    split at h
    · exact .inr ⟨by omega, (Option.some.inj h).symm⟩
    · exact absurd h (by simp)

end Machine

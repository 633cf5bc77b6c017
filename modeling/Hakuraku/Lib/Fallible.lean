import Mathlib.Logic.Basic

/-!
# Computations that fail and keep their changes

`EStateM ε σ` is the monad of code that changes a state in place and returns early at an error:
`x s` is `ok a t` or `error e t`, and in both cases `t` has everything that was stored until then.
`Frames part x` says that `x` leaves a part of the state alone, whether it fails or not.
-/

namespace Fallible

variable {ε σ α β τ : Type}

/-- The state that is left. -/
def after : EStateM.Result ε σ α → σ
  | .ok _ t => t
  | .error _ t => t

/-! ## Running in sequence -/

/-- A sequence goes on with the value of its first part. -/
theorem ok_bind (a : α) (f : α → Except ε β) : (Except.ok a >>= f) = f a := rfl

theorem bind_of_ok {x : EStateM ε σ α} {s t : σ} {a : α} (h : x s = .ok a t)
    (f : α → EStateM ε σ β) : (x >>= f) s = f a t := by
  show EStateM.bind x f s = _
  rw [EStateM.bind, h]

theorem bind_of_error {x : EStateM ε σ α} {s t : σ} {e : ε} (h : x s = .error e t)
    (f : α → EStateM ε σ β) : (x >>= f) s = .error e t := by
  show EStateM.bind x f s = _
  rw [EStateM.bind, h]

/-- A sequence succeeds if its parts do. -/
theorem bind_eq_ok {x : EStateM ε σ α} {f : α → EStateM ε σ β} {s t : σ} {b : β} :
    (x >>= f) s = .ok b t ↔ ∃ a s', x s = .ok a s' ∧ f a s' = .ok b t := by
  cases h : x s with
  | ok a s' =>
    rw [bind_of_ok h]
    constructor
    · exact fun hf => ⟨a, s', rfl, hf⟩
    · rintro ⟨a', s'', heq, hf⟩
      obtain ⟨rfl, rfl⟩ := EStateM.Result.ok.inj heq
      exact hf
  | error e s' =>
    rw [bind_of_error h]
    constructor
    · exact fun hf => nomatch hf
    · rintro ⟨a', s'', heq, -⟩
      cases heq

theorem ofExcept_ok (a : α) (s : σ) :
    (MonadExcept.ofExcept (.ok a : Except ε α) : EStateM ε σ α) s = .ok a s := rfl

theorem ofExcept_eq_ok {x : Except ε α} {s t : σ} {a : α} :
    (MonadExcept.ofExcept x : EStateM ε σ α) s = .ok a t ↔ x = .ok a ∧ s = t := by
  cases x with
  | ok a' => rw [ofExcept_ok, EStateM.Result.ok.injEq, Except.ok.injEq]
  | error e => exact iff_of_false nofun nofun

/-- The computation succeeds. -/
def Succeeds (x : EStateM ε σ α) (s : σ) : Prop := ∃ a t, x s = .ok a t

/-- A computation that does not succeed fails. -/
theorem exists_error {x : EStateM ε σ α} {s : σ} (h : ¬ Succeeds x s) :
    ∃ e, x s = .error e (after (x s)) := by
  cases hx : x s with
  | ok a t => exact absurd ⟨a, t, hx⟩ h
  | error e t => exact ⟨e, rfl⟩

theorem succeeds_pure (a : α) (s : σ) : Succeeds (pure a : EStateM ε σ α) s := ⟨a, s, rfl⟩

theorem succeeds_ofExcept {x : Except ε α} {s : σ} :
    Succeeds (MonadExcept.ofExcept x : EStateM ε σ α) s ↔ x.isOk = true := by
  cases x with
  | ok a => exact iff_of_true ⟨a, s, rfl⟩ rfl
  | error e => exact iff_of_false (fun ⟨_, _, h⟩ => nomatch h) Bool.false_ne_true

/-- If the second part succeeds or not whatever the first one leaves, a sequence succeeds if both
parts do. -/
theorem succeeds_bind {x : EStateM ε σ α} {f : α → EStateM ε σ β} {s : σ} {P : Prop}
    (hf : ∀ a t, x s = .ok a t → (Succeeds (f a) t ↔ P)) :
    Succeeds (x >>= f) s ↔ Succeeds x s ∧ P := by
  cases h : x s with
  | ok a t =>
    rw [Succeeds, bind_of_ok h]
    exact (hf a t h).trans (iff_and_self.mpr fun _ => ⟨a, t, h⟩)
  | error e t =>
    refine iff_of_false ?_ ?_
    · rw [Succeeds, bind_of_error h]
      exact fun ⟨_, _, hok⟩ => nomatch hok
    · rintro ⟨⟨_, _, hok⟩, -⟩
      rw [h] at hok
      cases hok

theorem succeeds_ofExcept_bind {x : Except ε α} {f : α → EStateM ε σ β} {s : σ} {P : Prop}
    (hf : ∀ a, Succeeds (f a) s ↔ P) :
    Succeeds (MonadExcept.ofExcept x >>= f) s ↔ x.isOk = true ∧ P := by
  refine (succeeds_bind fun a t h => ?_).trans (and_congr_left' succeeds_ofExcept)
  obtain ⟨-, rfl⟩ := ofExcept_eq_ok.mp h
  exact hf a

/-! ## Parts of the state -/

/-- The computation leaves a part of the state alone. -/
def Frames (part : σ → τ) (x : EStateM ε σ α) : Prop := ∀ s, part (after (x s)) = part s

variable {part : σ → τ}

theorem Frames.of_ok {x : EStateM ε σ α} {s t : σ} {a : α} (h : Frames part x)
    (hx : x s = .ok a t) : part t = part s := by
  have hpart := h s
  rwa [hx] at hpart

theorem frames_pure (a : α) : Frames part (pure a : EStateM ε σ α) := fun _ => rfl

theorem frames_ofExcept (x : Except ε α) :
    Frames part (MonadExcept.ofExcept x : EStateM ε σ α) := by
  intro s
  cases x <;> rfl

theorem frames_get : Frames part (get : EStateM ε σ σ) := fun _ => rfl

theorem frames_modify {f : σ → σ} (h : ∀ s, part (f s) = part s) :
    Frames part (modify f : EStateM ε σ PUnit) := h

/-- A sequence leaves alone what its parts leave alone. -/
theorem Frames.bind {x : EStateM ε σ α} {f : α → EStateM ε σ β} (hx : Frames part x)
    (hf : ∀ a, Frames part (f a)) : Frames part (x >>= f) := by
  intro s
  have hpart := hx s
  cases h : x s with
  | ok a t =>
    rw [h] at hpart
    rw [bind_of_ok h, hf a t]
    exact hpart
  | error e t =>
    rw [h] at hpart
    rw [bind_of_error h]
    exact hpart

end Fallible

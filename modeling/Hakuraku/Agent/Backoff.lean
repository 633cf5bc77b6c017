import Hakuraku.Lib.Binary64
import Hakuraku.Lib.Machine
import Mathlib.Algebra.BigOperators.Group.Finset.Basic

/-!
# Reconnecting

Reference: `pulse-agent/src/main.rs`, `ExponentialBackoff`, `rand_simple` and `run_agent_loop`.

After a session that failed, `run_agent_loop` sleeps before the next one: one second at first, twice
as long after every further failure up to a minute, and up to 30 % more or less (`nextDelay`). A
session that ends cleanly starts the row anew, and the next one begins at once.

The jitter is computed with doubles. The delays stay within the 30 % all the same, whatever
`getrandom` returns, so that an agent whose sessions all fail comes back within 78 seconds and no
more often than once in 42 seconds after the first six failures (`reconnects_are_paced`).

Durations are whole milliseconds. The tasks of a session are the subject of `Agent.Session`; a session
is what comes between two decisions of the loop here.
-/

namespace Hakuraku.Agent

/-! ## The delays -/

/-- `rand_simple`, from the eight bytes of `getrandom` in little-endian order. -/
def randSimple (buf : UInt64) : ℚ :=
  Binary64.div (Binary64.round buf.toNat) (Binary64.round (2 ^ 64 - 1 : ℕ))

/-- `ExponentialBackoff`, in milliseconds. -/
structure ExponentialBackoff where
  current : ℕ
  base : ℕ
  max : ℕ
deriving DecidableEq

/-- The jitter of `next_delay`, at most 30 % of the delay. -/
def jitter (delay : ℚ) (buf : UInt64) : ℚ :=
  let jitterRange := Binary64.mul delay (Binary64.round (3 / 10))
  Binary64.mul (Binary64.sub (Binary64.mul (randSimple buf) 2) 1) jitterRange

namespace ExponentialBackoff

/-- `ExponentialBackoff::new`. -/
def new : ExponentialBackoff := ⟨1000, 1000, 60000⟩

/-- `ExponentialBackoff::next_delay`. -/
def nextDelay (self : ExponentialBackoff) (buf : UInt64) : ℕ × ExponentialBackoff :=
  let delay := Binary64.round self.current
  let millis := Max.max (Binary64.add delay (jitter delay buf)) 100
  (Min.min ⌊millis⌋.toNat (2 ^ 64 - 1), { self with current := Min.min (self.current * 2) self.max })

/-- `ExponentialBackoff::reset`. -/
def reset (self : ExponentialBackoff) : ExponentialBackoff := { self with current := self.base }

end ExponentialBackoff

/-- The random number is in the unit interval, of which `1` is part: the largest words are rounded
up to `2 ^ 64`. -/
theorem randSimple_mem (buf : UInt64) : randSimple buf ∈ Set.Icc (0 : ℚ) 1 := by
  have hlow : (0 : ℚ) ≤ Binary64.round buf.toNat := by
    rw [Binary64.round_of_nonneg (Nat.cast_nonneg _)]
    exact Binary64.roundPos_nonneg (Nat.cast_nonneg _)
  have hle : Binary64.round buf.toNat ≤ Binary64.round (2 ^ 64 - 1 : ℕ) :=
    Binary64.round_mono (Nat.cast_le.mpr (Nat.le_sub_one_of_lt buf.toNat_lt))
  have hexact : Binary64.round buf.toNat / Binary64.round (2 ^ 64 - 1 : ℕ) ∈
      Set.Icc ((0 : ℤ) : ℚ) (1 : ℤ) := by
    rw [Int.cast_zero, Int.cast_one]
    exact ⟨div_nonneg hlow (hlow.trans hle), div_le_one_of_le₀ hle (hlow.trans hle)⟩
  simpa [randSimple, Binary64.div] using Binary64.round_mem_Icc (by norm_num) (by norm_num) hexact

example : randSimple 0xfffffffffffffc00 = 1 := by decide +kernel

/-- The literal `0.3`. -/
theorem round_three_tenths : Binary64.round (3 / 10) = 5404319552844595 / 18014398509481984 := by
  decide +kernel

variable {k : ℕ}

/-- The number that scales the jitter is between `-1` and `1`. -/
theorem sign_mem (buf : UInt64) :
    Binary64.sub (Binary64.mul (randSimple buf) 2) 1 ∈ Set.Icc (-1 : ℚ) 1 := by
  obtain ⟨hlow, hhigh⟩ := randSimple_mem buf
  have hdouble : Binary64.mul (randSimple buf) 2 ∈ Set.Icc ((0 : ℤ) : ℚ) (2 : ℤ) := by
    refine Binary64.round_mem_Icc (by norm_num) (by norm_num) ?_
    constructor <;> push_cast <;> linarith
  have hsub : Binary64.mul (randSimple buf) 2 - 1 ∈ Set.Icc ((-1 : ℤ) : ℚ) (1 : ℤ) := by
    obtain ⟨hlow, hhigh⟩ := hdouble
    push_cast at hlow hhigh ⊢
    constructor <;> linarith
  simpa [Binary64.sub] using Binary64.round_mem_Icc (by norm_num) (by norm_num) hsub

/-- A delay of up to a minute has up to 30 % of jitter. -/
theorem jitter_mem (buf : UInt64) (hmax : k ≤ 60) :
    jitter (1000 * k) buf ∈ Set.Icc ((-(300 * k) : ℤ) : ℚ) ((300 * k : ℤ) : ℚ) := by
  have hk : (0 : ℚ) ≤ k := Nat.cast_nonneg k
  have hbound : |(300 * k : ℤ)| ≤ 2 ^ 53 := by
    rw [abs_of_nonneg (by positivity)]
    omega
  obtain ⟨hrange, hrange'⟩ : Binary64.mul (1000 * k) (Binary64.round (3 / 10)) ∈
      Set.Icc ((0 : ℤ) : ℚ) ((300 * k : ℤ) : ℚ) := by
    rw [round_three_tenths]
    refine Binary64.round_mem_Icc (by norm_num) hbound ?_
    constructor <;> push_cast <;> linarith
  refine Binary64.round_mem_Icc (by rwa [abs_neg]) hbound ?_
  rw [Int.cast_zero] at hrange
  rw [Int.cast_neg]
  refine abs_le.mp ?_
  rw [abs_mul, abs_of_nonneg hrange]
  calc _ ≤ 1 * Binary64.mul (1000 * k) (Binary64.round (3 / 10)) :=
        mul_le_mul_of_nonneg_right (abs_le.mpr (sign_mem buf)) hrange
    _ ≤ ((300 * k : ℤ) : ℚ) := by rwa [one_mul]

/-- **The delay is the current one, up to 30 % more or less.** -/
theorem ExponentialBackoff.nextDelay_mem (buf : UInt64) {self : ExponentialBackoff}
    (hcurrent : self.current = 1000 * k) (hk : 1 ≤ k) (hmax : k ≤ 60) :
    700 * k ≤ (self.nextDelay buf).1 ∧ (self.nextDelay buf).1 ≤ 1300 * k := by
  have hdelay : Binary64.round (self.current : ℚ) = 1000 * k := by
    rw [Binary64.round_natCast (by omega), hcurrent]
    push_cast
    rfl
  obtain ⟨hlow, hhigh⟩ := jitter_mem buf hmax
  have hsum : Binary64.add (1000 * k) (jitter (1000 * k) buf) ∈
      Set.Icc ((700 * k : ℤ) : ℚ) ((1300 * k : ℤ) : ℚ) := by
    refine Binary64.round_mem_Icc ?_ ?_ ?_
    · rw [abs_of_nonneg (by positivity)]
      omega
    · rw [abs_of_nonneg (by positivity)]
      omega
    · push_cast at hlow hhigh ⊢
      constructor <;> linarith
  -- the floor of 100 ms is below all of them
  have hfloor : (700 * k : ℤ) ≤ ⌊Max.max (Binary64.add (1000 * k) (jitter (1000 * k) buf)) 100⌋ :=
    Int.le_floor.mpr (hsum.1.trans (le_max_left _ _))
  have hfloor' : ⌊Max.max (Binary64.add (1000 * k) (jitter (1000 * k) buf)) 100⌋ ≤ 1300 * k := by
    have hk' : (1 : ℚ) ≤ k := Nat.one_le_cast.mpr hk
    refine (Int.floor_mono (max_le hsum.2 ?_)).trans_eq (Int.floor_intCast _)
    push_cast
    linarith
  have hvalue : (self.nextDelay buf).1 =
      Min.min ⌊Max.max (Binary64.add (1000 * k) (jitter (1000 * k) buf)) 100⌋.toNat (2 ^ 64 - 1) := by
    rw [← hdelay]
    rfl
  rw [hvalue]
  omega

/-! ## The loop -/

/-- What `run_agent_loop` waits for. -/
inductive LoopPhase where
  /-- `run_session`. -/
  | session
  /-- The `sleep` after a failure, with its deadline. -/
  | sleeping (deadline : ℕ)
  /-- The loop has been left. -/
  | exited
deriving DecidableEq

/-- `run_agent_loop`, on a clock in milliseconds. -/
structure AgentLoop where
  backoff : ExponentialBackoff
  phase : LoopPhase
  clock : ℕ
  cancelled : Bool
  /-- The record of the delays since the start or the last session that ended cleanly. -/
  delays : List ℕ
  /-- When that was. -/
  since : ℕ

/-- What happens to the loop. -/
inductive LoopAct where
  /-- Time passes. -/
  | wait (ms : ℕ)
  /-- `run_session` returns an error; `getrandom` fills the buffer. -/
  | fail (buf : UInt64)
  /-- `run_session` returns `Ok`. -/
  | endCleanly
  /-- The sleep is over, or has been cancelled. -/
  | wake
  /-- Ctrl-C. -/
  | cancel
  /-- The loop sees that the token is cancelled. -/
  | exit

namespace AgentLoop

/-- The loop at its start. -/
def start (clock : ℕ) : AgentLoop := ⟨.new, .session, clock, false, [], clock⟩

/-- One step of the loop. -/
def step (s : AgentLoop) : LoopAct → Option AgentLoop
  | .wait ms => some { s with clock := s.clock + ms }
  | .fail buf =>
    if s.phase = .session then
      let next := s.backoff.nextDelay buf
      some { s with
        backoff := next.2, phase := .sleeping (s.clock + next.1), delays := s.delays ++ [next.1] }
    else none
  | .endCleanly =>
    if s.phase = .session then
      some { s with backoff := s.backoff.reset, delays := [], since := s.clock }
    else none
  | .wake =>
    match s.phase with
    | .sleeping deadline =>
      if deadline ≤ s.clock ∨ s.cancelled = true then some { s with phase := .session } else none
    | _ => none
  | .cancel => some { s with cancelled := true }
  | .exit =>
    if s.phase = .session ∧ s.cancelled = true then some { s with phase := .exited } else none

/-- The seconds of the delay after so many failures, without the jitter. -/
def backoffSecs (failures : ℕ) : ℕ := Min.min 60 (2 ^ failures)

/-- What holds of the loop in every run. -/
structure Paced (s : AgentLoop) : Prop where
  base : s.backoff.base = 1000
  max : s.backoff.max = 60000
  current : s.backoff.current = 1000 * backoffSecs s.delays.length
  delays : ∀ i delay, s.delays[i]? = some delay →
    700 * backoffSecs i ≤ delay ∧ delay ≤ 1300 * backoffSecs i
  session : s.cancelled = false → s.phase = .session → s.since + s.delays.sum ≤ s.clock
  sleeping : ∀ deadline, s.phase = .sleeping deadline →
    (s.cancelled = false → s.since + s.delays.sum ≤ deadline) ∧ deadline ≤ s.clock + 78000

theorem paced_start (clock : ℕ) : (start clock).Paced where
  base := rfl
  max := rfl
  current := rfl
  delays i delay h := by simp [start] at h
  session _ _ := le_rfl
  sleeping deadline h := nomatch h

theorem one_le_backoffSecs (failures : ℕ) : 1 ≤ backoffSecs failures :=
  Nat.le_min.mpr ⟨by norm_num, Nat.one_le_two_pow⟩

theorem backoffSecs_le (failures : ℕ) : backoffSecs failures ≤ 60 := Nat.min_le_left _ _

theorem backoffSecs_succ (failures : ℕ) :
    Min.min (1000 * backoffSecs failures * 2) 60000 = 1000 * backoffSecs (failures + 1) := by
  rw [backoffSecs, backoffSecs, Nat.pow_succ]
  omega

/-- A failure puts one more delay behind those of the row. -/
theorem Paced.fail {s s' : AgentLoop} {buf : UInt64} (h : s.Paced)
    (hs : s.step (.fail buf) = some s') : s'.Paced := by
  rw [step, Option.ite_none_right_eq_some] at hs
  obtain ⟨hsession, hs⟩ := hs
  obtain rfl := Option.some.inj hs
  obtain ⟨hlow, hhigh⟩ := ExponentialBackoff.nextDelay_mem buf h.current (one_le_backoffSecs _)
    (backoffSecs_le _)
  have hcap := backoffSecs_le s.delays.length
  refine ⟨h.base, h.max, ?_, fun i delay hi => ?_, fun _ hphase => (nomatch hphase),
    fun deadline hphase => ?_⟩
  · show Min.min (s.backoff.current * 2) s.backoff.max = _
    rw [h.current, h.max, List.length_append]
    exact backoffSecs_succ _
  · rw [List.getElem?_append] at hi
    split at hi
    · exact h.delays i delay hi
    · rename_i hlast
      rw [List.getElem?_singleton, Option.ite_none_right_eq_some] at hi
      obtain ⟨hzero, hi⟩ := hi
      obtain rfl : i = s.delays.length := by omega
      obtain rfl := Option.some.inj hi
      exact ⟨hlow, hhigh⟩
  · obtain rfl := LoopPhase.sleeping.inj hphase
    refine ⟨fun hcancelled => ?_, ?_⟩
    · have hpast := h.session hcancelled hsession
      rw [List.sum_append, List.sum_singleton, ← Nat.add_assoc]
      exact Nat.add_le_add_right hpast _
    · dsimp only
      omega

theorem Paced.step {s s' : AgentLoop} {a : LoopAct} (h : s.Paced) (hs : s.step a = some s') :
    s'.Paced := by
  cases a with
  | wait ms =>
    obtain rfl := Option.some.inj hs
    refine ⟨h.base, h.max, h.current, h.delays, fun hcancelled hphase => ?_,
      fun deadline hphase => ?_⟩
    · exact (h.session hcancelled hphase).trans (Nat.le_add_right _ _)
    · obtain ⟨hpast, hbound⟩ := h.sleeping deadline hphase
      exact ⟨hpast, hbound.trans (Nat.add_le_add_right (Nat.le_add_right _ _) _)⟩
  | fail buf => exact h.fail hs
  | endCleanly =>
    rw [AgentLoop.step, Option.ite_none_right_eq_some] at hs
    obtain ⟨hsession, hs⟩ := hs
    obtain rfl := Option.some.inj hs
    refine ⟨h.base, h.max, h.base, fun i delay hi => ?_, fun _ _ => le_rfl,
      fun deadline hphase => ?_⟩
    · simp at hi
    · exact absurd (hsession.symm.trans hphase) (by simp)
  | wake =>
    rw [AgentLoop.step] at hs
    split at hs
    · rename_i deadline hphase
      obtain ⟨hpast, -⟩ := h.sleeping deadline hphase
      obtain ⟨hover, hs⟩ := Option.ite_none_right_eq_some.mp hs
      obtain rfl := Option.some.inj hs
      refine ⟨h.base, h.max, h.current, h.delays, fun hcancelled _ => ?_,
        fun _ hphase => (nomatch hphase)⟩
      rcases hover with hover | hover
      · exact (hpast hcancelled).trans hover
      · exact absurd (hcancelled.symm.trans hover) Bool.false_ne_true
    · cases hs
  | cancel =>
    obtain rfl := Option.some.inj hs
    exact ⟨h.base, h.max, h.current, h.delays, fun hcancelled => (nomatch hcancelled),
      fun deadline hphase => ⟨fun hcancelled => (nomatch hcancelled), (h.sleeping deadline hphase).2⟩⟩
  | exit =>
    rw [AgentLoop.step, Option.ite_none_right_eq_some] at hs
    obtain ⟨-, hs⟩ := hs
    obtain rfl := Option.some.inj hs
    exact ⟨h.base, h.max, h.current, h.delays, fun _ hphase => (nomatch hphase),
      fun _ hphase => (nomatch hphase)⟩

/-- Delays of at least 70 % add up. -/
theorem Paced.sum_delays {s : AgentLoop} (h : s.Paced) :
    700 * ∑ i ∈ Finset.range s.delays.length, backoffSecs i ≤ s.delays.sum := by
  have hsum : ∀ (l : List ℕ), (∀ i delay, l[i]? = some delay → 700 * backoffSecs i ≤ delay) →
      700 * ∑ i ∈ Finset.range l.length, backoffSecs i ≤ l.sum := by
    intro l
    induction l using List.reverseRecOn with
    | nil => simp
    | append_singleton l delay ih =>
      intro hl
      have hlast : 700 * backoffSecs l.length ≤ delay := hl l.length delay (by simp)
      have hprev := ih fun i delay hi => hl i delay <| by
        rwa [List.getElem?_append_left (List.getElem?_eq_some_iff.mp hi).1]
      rw [List.length_append, List.length_singleton, Finset.sum_range_succ, List.sum_append,
        List.sum_singleton, Nat.mul_add]
      exact Nat.add_le_add hprev hlast
  exact hsum s.delays fun i delay hi => (h.delays i delay hi).1

/-- **Reconnects are paced.** In every run, the delay after the failure number `i` of a row is the
smaller of `2 ^ i` seconds and a minute, up to 30 % more or less. Unless the loop is cancelled, a
session therefore comes after `n` failures in a row no earlier than 70 % of these delays together;
and a sleep is over within 78 seconds. -/
theorem reconnects_are_paced {clock : ℕ} {as : List LoopAct} {s : AgentLoop}
    (hrun : Machine.run step (start clock) as = some s) :
    (∀ i delay, s.delays[i]? = some delay →
      700 * backoffSecs i ≤ delay ∧ delay ≤ 1300 * backoffSecs i) ∧
    (s.cancelled = false → s.phase = .session →
      s.since + 700 * ∑ i ∈ Finset.range s.delays.length, backoffSecs i ≤ s.clock) ∧
    ∀ deadline, s.phase = .sleeping deadline → deadline ≤ s.clock + 78000 := by
  have h : s.Paced := Machine.run_invariant (fun _ _ _ h hs => h.step hs) (paced_start clock) hrun
  refine ⟨h.delays, fun hcancelled hphase => ?_,
    fun deadline hphase => (h.sleeping deadline hphase).2⟩
  exact (Nat.add_le_add_left h.sum_delays _).trans (h.session hcancelled hphase)

/-- Two failures, with the smallest and the largest jitter. -/
theorem reconnects_are_paced_two_failures :
    ∃ s, Machine.run step (start 0)
        [.fail 0, .wait 700, .wake, .fail 0xffffffffffffffff, .wait 2600, .wake] = some s ∧
      s.delays = [700, 2600] ∧ 700 * ∑ i ∈ Finset.range 2, backoffSecs i ≤ s.clock := by
  have hstate : (Machine.run step (start 0)
      [.fail 0, .wait 700, .wake, .fail 0xffffffffffffffff, .wait 2600, .wake]).map
        (fun s => (s.delays, s.phase, s.cancelled, s.since)) =
      some ([700, 2600], .session, false, 0) := by
    decide +kernel
  obtain ⟨s, hrun, heq⟩ := Option.map_eq_some_iff.mp hstate
  simp only [Prod.mk.injEq] at heq
  obtain ⟨hdelays, hphase, hcancelled, hsince⟩ := heq
  have hpaced := (reconnects_are_paced hrun).2.1 hcancelled hphase
  rw [hdelays, hsince, Nat.zero_add] at hpaced
  exact ⟨s, hrun, hdelays, hpaced⟩

end AgentLoop

end Hakuraku.Agent

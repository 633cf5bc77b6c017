import Mathlib.Algebra.Order.Floor.Ring
import Mathlib.Data.Int.ConditionallyCompleteOrder
import Mathlib.Data.Int.Log
import Mathlib.Data.Rat.Floor
import Mathlib.Tactic.Linarith

/-!
# Arithmetic of doubles

The value of an operation on finite doubles is the exact value, rounded to 53 binary digits, and of
two nearest doubles to the one with an even last digit (`Binary64.round`). Rounding is odd
(`round_neg`) and monotone (`round_mono`) and leaves whole numbers up to `2 ^ 53` alone
(`round_intCast`), so an operation stays between two of these whenever its exact value does
(`round_mem_Icc`).

The exponent has no bounds here: a value is a double as long as it is zero or between `2 ^ -1022` and
`2 ^ 1024`.
-/

namespace Binary64

/-! ## Rounding to a whole number -/

/-- The nearest whole number, and of two the even one. -/
def roundEven (x : ℚ) : ℤ :=
  if Int.fract x < 1 / 2 then ⌊x⌋
  else if 1 / 2 < Int.fract x then ⌊x⌋ + 1
  else if Even ⌊x⌋ then ⌊x⌋ else ⌊x⌋ + 1

theorem roundEven_intCast (n : ℤ) : roundEven n = n := by
  rw [roundEven, Int.fract_intCast, if_pos (by norm_num), Int.floor_intCast]

theorem floor_le_roundEven (x : ℚ) : ⌊x⌋ ≤ roundEven x := by
  unfold roundEven
  split_ifs <;> omega

theorem roundEven_le (x : ℚ) : roundEven x ≤ ⌊x⌋ + 1 := by
  unfold roundEven
  split_ifs <;> omega

theorem roundEven_mono {x y : ℚ} (hxy : x ≤ y) : roundEven x ≤ roundEven y := by
  rcases (Int.floor_mono hxy).lt_or_eq with hlt | heq
  · calc roundEven x ≤ ⌊x⌋ + 1 := roundEven_le x
      _ ≤ ⌊y⌋ := hlt
      _ ≤ roundEven y := floor_le_roundEven y
  · -- between the same whole numbers the fractions decide
    have hfract : Int.fract x ≤ Int.fract y := by
      rw [Int.fract, Int.fract, heq]
      exact sub_le_sub_right hxy _
    unfold roundEven
    rw [heq]
    split_ifs <;> first | omega | linarith

/-! ## Rounding to 53 digits -/

/-- The distance of the doubles around a positive number. -/
def ulp (x : ℚ) : ℚ := 2 ^ (Int.log 2 x - 52)

theorem ulp_pos (x : ℚ) : 0 < ulp x := zpow_pos (by norm_num) _

/-- The double of a positive number. -/
def roundPos (x : ℚ) : ℚ := roundEven (x / ulp x) * ulp x

/-- The double of a number. -/
def round (x : ℚ) : ℚ := if 0 < x then roundPos x else -roundPos (-x)

variable {x y : ℚ}

theorem roundPos_of_div_eq {n : ℤ} (h : x = n * ulp x) : roundPos x = x := by
  have hdiv : x / ulp x = n := (div_eq_iff (ulp_pos x).ne').mpr h
  rw [roundPos, hdiv, roundEven_intCast]
  exact h.symm

theorem pow_mul_ulp (x : ℚ) (k : ℕ) :
    ((2 ^ k : ℤ) : ℚ) * ulp x = (2 : ℚ) ^ (Int.log 2 x + (k - 52)) := by
  rw [ulp, Int.cast_pow, Int.cast_ofNat, ← zpow_natCast, ← zpow_add₀ (by norm_num)]
  ring_nf

theorem zpow_log_le_roundPos (hx : 0 < x) : (2 : ℚ) ^ Int.log 2 x ≤ roundPos x := by
  have hpow := pow_mul_ulp x 52
  have hle : ((2 ^ 52 : ℤ) : ℚ) ≤ x / ulp x := by
    rw [le_div_iff₀ (ulp_pos x), hpow]
    simpa using Int.zpow_log_le_self (b := 2) one_lt_two hx
  have hround := roundEven_mono hle
  rw [roundEven_intCast] at hround
  calc (2 : ℚ) ^ Int.log 2 x = ((2 ^ 52 : ℤ) : ℚ) * ulp x := by
        rw [hpow]
        simp
    _ ≤ roundPos x := mul_le_mul_of_nonneg_right (Int.cast_le.mpr hround) (ulp_pos x).le

theorem roundPos_le_zpow (x : ℚ) : roundPos x ≤ (2 : ℚ) ^ (Int.log 2 x + 1) := by
  have hpow := pow_mul_ulp x 53
  have hle : x / ulp x ≤ ((2 ^ 53 : ℤ) : ℚ) := by
    rw [div_le_iff₀ (ulp_pos x), hpow]
    refine (Int.lt_zpow_succ_log_self (b := 2) one_lt_two x).le.trans_eq ?_
    norm_num
  have hround := roundEven_mono hle
  rw [roundEven_intCast] at hround
  calc roundPos x ≤ ((2 ^ 53 : ℤ) : ℚ) * ulp x :=
        mul_le_mul_of_nonneg_right (Int.cast_le.mpr hround) (ulp_pos x).le
    _ = (2 : ℚ) ^ (Int.log 2 x + 1) := by
        rw [hpow]
        norm_num

theorem roundPos_mono (hx : 0 < x) (hxy : x ≤ y) : roundPos x ≤ roundPos y := by
  rcases (Int.log_mono_right (b := 2) hx hxy).lt_or_eq with hlt | heq
  · -- a power of two is between them
    calc roundPos x ≤ (2 : ℚ) ^ (Int.log 2 x + 1) := roundPos_le_zpow x
      _ ≤ (2 : ℚ) ^ Int.log 2 y := zpow_le_zpow_right₀ one_le_two hlt
      _ ≤ roundPos y := zpow_log_le_roundPos (hx.trans_le hxy)
  · have hulp : ulp x = ulp y := by rw [ulp, ulp, heq]
    rw [roundPos, roundPos, hulp]
    refine mul_le_mul_of_nonneg_right (Int.cast_le.mpr (roundEven_mono ?_)) (ulp_pos y).le
    exact div_le_div_of_nonneg_right hxy (ulp_pos y).le

theorem roundPos_zero : roundPos 0 = 0 := by
  rw [roundPos, zero_div]
  have hzero : roundEven 0 = 0 := roundEven_intCast 0
  rw [hzero, Int.cast_zero, zero_mul]

theorem roundPos_nonneg (hx : 0 ≤ x) : 0 ≤ roundPos x := by
  rcases hx.eq_or_lt with rfl | hx
  · exact roundPos_zero.ge
  · exact (zpow_nonneg (by norm_num) _).trans (zpow_log_le_roundPos hx)

theorem round_of_nonneg (hx : 0 ≤ x) : round x = roundPos x := by
  rcases hx.eq_or_lt with rfl | hx
  · rw [round, if_neg (lt_irrefl _), neg_zero, roundPos_zero, neg_zero]
  · rw [round, if_pos hx]

theorem round_neg (x : ℚ) : round (-x) = -round x := by
  rcases le_total 0 x with hx | hx
  · rw [round_of_nonneg hx, round, if_neg (by linarith), neg_neg]
  · rw [round_of_nonneg (neg_nonneg.mpr hx), round, if_neg (not_lt.mpr hx), neg_neg]

theorem round_mono : Monotone round := by
  intro x y hxy
  rcases le_or_gt y 0 with hy | hy
  · rcases hxy.eq_or_lt with rfl | hlt
    · exact le_rfl
    · rw [round, if_neg (by linarith), round, if_neg (by linarith), neg_le_neg_iff]
      rcases hy.eq_or_lt with rfl | hy
      · rw [neg_zero, roundPos_zero]
        exact roundPos_nonneg (by linarith)
      · exact roundPos_mono (by linarith) (by linarith)
  · rcases le_or_gt x 0 with hx | hx
    · calc round x = -roundPos (-x) := if_neg (not_lt.mpr hx)
        _ ≤ 0 := neg_nonpos.mpr (roundPos_nonneg (neg_nonneg.mpr hx))
        _ ≤ round y := (round_of_nonneg hy.le).symm ▸ roundPos_nonneg hy.le
    · rw [round_of_nonneg hx.le, round_of_nonneg hy.le]
      exact roundPos_mono hx hxy

/-! ## Whole numbers -/

/-- A whole number up to `2 ^ 53` is a double. -/
theorem round_natCast {n : ℕ} (hn : n ≤ 2 ^ 53) : round n = n := by
  rw [round_of_nonneg n.cast_nonneg]
  have hlog : Int.log 2 (n : ℚ) = Nat.log 2 n := Int.log_natCast 2 n
  rcases hn.eq_or_lt with rfl | hn
  · refine roundPos_of_div_eq (n := 2 ^ 52) ?_
    have hlog' : Nat.log 2 (2 ^ 53) = 53 := Nat.log_pow one_lt_two 53
    rw [ulp, hlog, hlog']
    norm_num
  · have hexp : Nat.log 2 n ≤ 52 := by
      rcases n.eq_zero_or_pos with rfl | hpos
      · simp
      · exact Nat.lt_succ_iff.mp ((Nat.log_lt_iff_lt_pow one_lt_two hpos.ne').mpr hn)
    refine roundPos_of_div_eq (n := n * 2 ^ (52 - Nat.log 2 n)) ?_
    rw [ulp, hlog]
    push_cast
    rw [mul_assoc, ← zpow_natCast, ← zpow_add₀ (by norm_num), Nat.cast_sub hexp]
    norm_num

theorem round_intCast {n : ℤ} (hn : |n| ≤ 2 ^ 53) : round n = n := by
  rcases le_total 0 n with hpos | hneg
  · lift n to ℕ using hpos
    rw [abs_of_nonneg (by positivity)] at hn
    exact_mod_cast round_natCast (by exact_mod_cast hn)
  · obtain ⟨m, rfl⟩ := Int.exists_eq_neg_ofNat hneg
    rw [abs_neg, abs_of_nonneg (by positivity)] at hn
    push_cast
    rw [round_neg, round_natCast (by exact_mod_cast hn)]

/-- Between whole numbers up to `2 ^ 53` a number stays. -/
theorem round_mem_Icc {a b : ℤ} (ha : |a| ≤ 2 ^ 53) (hb : |b| ≤ 2 ^ 53)
    (hx : x ∈ Set.Icc (a : ℚ) b) : round x ∈ Set.Icc (a : ℚ) b :=
  ⟨round_intCast ha ▸ round_mono hx.1, round_intCast hb ▸ round_mono hx.2⟩

/-! ## Operations -/

/-- A sum of doubles. -/
def add (x y : ℚ) : ℚ := round (x + y)

/-- A difference of doubles. -/
def sub (x y : ℚ) : ℚ := round (x - y)

/-- A product of doubles. -/
def mul (x y : ℚ) : ℚ := round (x * y)

/-- A quotient of doubles. -/
def div (x y : ℚ) : ℚ := round (x / y)

end Binary64

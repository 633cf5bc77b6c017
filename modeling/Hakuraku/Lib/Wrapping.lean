import Mathlib.Algebra.Order.Group.Unbundled.Int

/-!
# Wrapping 64-bit arithmetic on integers

`Int64` subtraction, multiplication and absolute value wrap. These lemmas read them back as the arithmetic of `ℤ`
where nothing overflows, and say what comes out where something does.
-/

namespace Wrapping

/-- A difference that fits is the difference. -/
theorem toInt_sub {a b : Int64} (hlo : -2 ^ 63 ≤ a.toInt - b.toInt)
    (hhi : a.toInt - b.toInt < 2 ^ 63) : (a - b).toInt = a.toInt - b.toInt := by
  rw [Int64.toInt_sub]
  exact Int.bmod_eq_of_le (by simpa using hlo) (by simpa using hhi)

/-- A product that fits is the product. -/
theorem toInt_mul {a b : Int64} (hlo : -2 ^ 63 ≤ a.toInt * b.toInt)
    (hhi : a.toInt * b.toInt < 2 ^ 63) : (a * b).toInt = a.toInt * b.toInt := by
  rw [Int64.toInt_mul]
  exact Int.bmod_eq_of_le (by simpa using hlo) (by simpa using hhi)

/-- A difference that is too large by less than `2 ^ 64` wraps once. -/
theorem toInt_sub_of_le {a b : Int64} (hlo : 2 ^ 63 ≤ a.toInt - b.toInt)
    (hhi : a.toInt - b.toInt < 3 * 2 ^ 63) : (a - b).toInt = a.toInt - b.toInt - 2 ^ 64 := by
  rw [Int64.toInt_sub, ← Int.sub_bmod_right]
  refine Int.bmod_eq_of_le ?_ ?_
  · show -(((2 ^ 64 : ℕ) : ℤ) / 2) ≤ a.toInt - b.toInt - ((2 ^ 64 : ℕ) : ℤ)
    omega
  · show a.toInt - b.toInt - ((2 ^ 64 : ℕ) : ℤ) < (((2 ^ 64 : ℕ) : ℤ) + 1) / 2
    omega

/-- The absolute value of anything but the least value is the absolute value. -/
theorem toInt_abs {x : Int64} (h : -2 ^ 63 < x.toInt) : x.abs.toInt = |x.toInt| := by
  have hne : x.toBitVec ≠ BitVec.intMin 64 := by
    intro heq
    have hmin : x.toInt = (BitVec.intMin 64).toInt := congrArg BitVec.toInt heq
    rw [hmin] at h
    exact absurd h (by decide)
  show x.toBitVec.abs.toInt = _
  rw [BitVec.toInt_abs_eq_natAbs_of_ne_intMin hne, Int.natCast_natAbs]
  rfl

/-- The absolute value of the least value is the least value. -/
theorem toInt_abs_of_eq {x : Int64} (h : x.toInt = -2 ^ 63) : x.abs.toInt = -2 ^ 63 := by
  have hmin : x = Int64.minValue := Int64.toInt_inj.mp (h.trans (by decide))
  subst hmin
  decide

end Wrapping

import Mathlib.Algebra.Order.Round
import Mathlib.Data.Rat.Floor
import Mathlib.Tactic.Ring

/-!
# Rounding to Hundredths

Exact amounts, rounded to two decimals with halves rounded up, and the difference between
rounding a sum and adding up rounded amounts.

## Main results

* `rounded_add`: a rounded amount takes the rounding of what is added to it.
* `sum_rounded_iff`: when the rounded amounts add up to the rounded sum.
-/

namespace Rounding

/-- The hundredths of an amount, halves rounded up. -/
def hundredths (q : ℚ) : ℤ := round (q * 100)

/-- An amount rounded to two decimals, halves rounded up. -/
def rounded (q : ℚ) : ℚ := hundredths q / 100

/-- What rounding leaves out of an amount, in hundredths. -/
def residue (q : ℚ) : ℚ := q * 100 - hundredths q

/-- A rounded amount takes the rounding of what is added to it. -/
theorem rounded_add (n : ℤ) (q : ℚ) : rounded (n / 100 + q) = n / 100 + rounded q := by
  have hsum : ((n : ℚ) / 100 + q) * 100 = n + q * 100 := by ring
  rw [rounded, rounded, hundredths, hundredths, hsum, round_intCast_add]
  push_cast
  ring

/-- The rounded amounts, as a number of hundredths. -/
theorem sum_rounded (amounts : List ℚ) :
    (amounts.map rounded).sum = ((amounts.map hundredths).sum : ℤ) / 100 := by
  induction amounts with
  | nil => simp
  | cons q amounts ih =>
      rw [List.map_cons, List.sum_cons, ih, List.map_cons, List.sum_cons, rounded]
      push_cast
      ring

/-- The sum, its hundredths, and what rounding each amount leaves out. -/
theorem sum_mul_hundred (amounts : List ℚ) :
    amounts.sum * 100 = ((amounts.map hundredths).sum : ℤ) + (amounts.map residue).sum := by
  induction amounts with
  | nil => simp
  | cons q amounts ih =>
      simp only [List.map_cons, List.sum_cons]
      rw [add_mul, ih, residue]
      push_cast
      ring

/-- **Rounding once.** The rounded amounts add up to the rounded sum exactly when what rounding
leaves out of them adds up to at least minus one half, and to less than one half, of a
hundredth. -/
theorem sum_rounded_iff (amounts : List ℚ) :
    (amounts.map rounded).sum = rounded amounts.sum ↔
      -(1 / 2) ≤ (amounts.map residue).sum ∧ (amounts.map residue).sum < 1 / 2 := by
  have hround : hundredths amounts.sum =
      (amounts.map hundredths).sum + round (amounts.map residue).sum := by
    rw [hundredths, sum_mul_hundred, round_intCast_add]
  have hzero : (amounts.map rounded).sum = rounded amounts.sum ↔
      round (amounts.map residue).sum = 0 := by
    rw [sum_rounded, rounded, hround, div_left_inj' (by norm_num), Int.cast_inj]
    omega
  rw [hzero, round_eq_zero_iff, Set.mem_Ico]

end Rounding

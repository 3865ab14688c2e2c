import Mathlib.Data.Int.Basic

/-!
# Rounding to the nearest integer

The quotient of two integers with halves rounded away from zero, as truncating division gives it.
-/

namespace BetterWebBrowser.Framework

/-- `value / unit`, and one more in the direction of `value` if the remainder is at least half a unit. -/
def roundedDiv (value : Int) (unit : Nat) : Int :=
  value.tdiv unit + (if unit ≤ 2 * (value.tmod unit).natAbs then 1 else 0) * value.sign

variable {value : Int} {unit : Nat}

/-- The remainder is smaller than a unit and on the side of the value. -/
theorem tmod_bounds (hunit : 0 < unit) : (value.tmod unit).natAbs < unit ∧
    (0 < value → 0 ≤ value.tmod unit) ∧ (value < 0 → value.tmod unit ≤ 0) := by
  have hpos : (0 : Int) < unit := by omega
  have hlow := Int.lt_tmod_of_pos value hpos
  have hhigh := Int.tmod_lt_of_pos value hpos
  refine ⟨by omega, fun h => Int.tmod_nonneg _ (by omega), fun h => ?_⟩
  have hneg : 0 ≤ (-value).tmod unit := Int.tmod_nonneg _ (by omega)
  rw [Int.neg_tmod] at hneg
  omega

/-- The result is at most half a unit away. -/
theorem roundedDiv_near (hunit : 0 < unit) : 2 * (unit * roundedDiv value unit - value).natAbs ≤ unit := by
  have hbounds : (value.tmod unit).natAbs < unit ∧ _ := tmod_bounds hunit
  obtain ⟨hsmall, hnonneg, hnonpos⟩ := hbounds
  have hsplit := Int.mul_tdiv_add_tmod value unit
  rw [roundedDiv, Int.mul_add]
  rcases Int.lt_trichotomy value 0 with hneg | rfl | hpos
  · rw [Int.sign_eq_neg_one_of_neg hneg]
    have hrest := hnonpos hneg
    split <;> omega
  · simp
  · rw [Int.sign_eq_one_of_pos hpos]
    have hrest := hnonneg hpos
    split <;> omega

/-- The integer that is less than half a unit away is the result. -/
theorem roundedDiv_eq {nearest : Int} (h : 2 * (unit * nearest - value).natAbs < unit) : roundedDiv value unit = nearest := by
  have hnear : 2 * (unit * roundedDiv value unit - value).natAbs ≤ unit := roundedDiv_near (by omega)
  have hless : (unit * (roundedDiv value unit - nearest) : Int).natAbs < unit := by
    rw [Int.mul_sub]
    omega
  rw [Int.natAbs_mul, Int.natAbs_natCast] at hless
  have hzero : (roundedDiv value unit - nearest).natAbs = 0 := by
    by_contra hne
    exact absurd (Nat.le_mul_of_pos_right unit (Nat.pos_of_ne_zero hne)) (Nat.not_le.mpr hless)
  omega

end BetterWebBrowser.Framework

import Mathlib.Algebra.BigOperators.Ring.List
import Mathlib.Algebra.Order.BigOperators.Group.List
import Mathlib.Algebra.Order.Field.Basic

/-!
# Weighted means

The mean of the points of a list with weights that are not negative. Only the points with a weight
count: any bound on their values is a bound on the mean.
-/

namespace StockAnomaly.Theory

variable {α K : Type*} [Field K]

/-- The mean of the values `x` with the weights `w`; 0 without any weight. -/
def weightedMean (w x : α → K) (l : List α) : K := (l.map fun a => x a * w a).sum / (l.map w).sum

variable [LinearOrder K] [IsStrictOrderedRing K] {w x : α → K} {l : List α} {bound : K}

section

variable (nonneg : ∀ a ∈ l, 0 ≤ w a)

include nonneg

/-- Without any weight every point is without weight. -/
theorem weight_eq_zero (none : (l.map w).sum = 0) : ∀ a ∈ l, w a = 0 := by
  intro a mem
  apply List.all_zero_of_le_zero_le_of_sum_eq_zero (List.forall_mem_map.2 nonneg) none
  exact List.mem_map_of_mem mem

variable (some_weight : 0 < (l.map w).sum)

include some_weight

omit nonneg in
theorem exists_weight_pos : ∃ a ∈ l, 0 < w a := by
  have more : (l.map fun _ => (0 : K)).sum < (l.map w).sum := by simpa using some_weight
  exact List.exists_lt_of_sum_lt _ _ more

theorem le_weightedMean (le : ∀ a ∈ l, 0 < w a → bound ≤ x a) : bound ≤ weightedMean w x l := by
  rw [weightedMean, le_div_iff₀ some_weight, ← List.sum_map_mul_left]
  apply List.sum_le_sum
  intro a mem
  rcases (nonneg a mem).eq_or_lt with zero | pos
  · rw [← zero, mul_zero, mul_zero]
  · exact mul_le_mul_of_nonneg_right (le a mem pos) pos.le

theorem weightedMean_le (le : ∀ a ∈ l, 0 < w a → x a ≤ bound) : weightedMean w x l ≤ bound := by
  rw [weightedMean, div_le_iff₀ some_weight, ← List.sum_map_mul_left]
  apply List.sum_le_sum
  intro a mem
  rcases (nonneg a mem).eq_or_lt with zero | pos
  · rw [← zero, mul_zero, mul_zero]
  · exact mul_le_mul_of_nonneg_right (le a mem pos) pos.le

end

end StockAnomaly.Theory

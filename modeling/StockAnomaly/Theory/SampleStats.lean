import Mathlib.Algebra.Order.Chebyshev
import Mathlib.Algebra.BigOperators.Field
import Mathlib.Tactic.FieldSimp
import Mathlib.Tactic.Linarith
import Mathlib.Tactic.Ring

/-!
# Mean and squared deviation of a finite sample

The two running statistics of an online algorithm: how the mean and the sum of squared
deviations move when a sample point is added (`mean_insert`, `sqDev_insert`) or replaced
(`mean_update`, `sqDev_update`), and how far one point of a sample can lie from the mean of
the sample it belongs to (`card_mul_deviation_sq_le`).
-/

namespace StockAnomaly.Theory.SampleStats

open Finset

variable {ι K : Type*} [Field K] {s : Finset ι} {b : ι → K} {i : ι}

/-- The mean of the sample points `b i`, `i ∈ s`; 0 of the empty sample. -/
def mean (s : Finset ι) (b : ι → K) : K := (∑ i ∈ s, b i) / s.card

/-- The sum of the squared deviations from the mean. -/
def sqDev (s : Finset ι) (b : ι → K) : K := ∑ i ∈ s, (b i - mean s b) ^ 2

@[simp] theorem mean_empty : mean ∅ b = 0 := by simp [mean]

@[simp] theorem sqDev_empty : sqDev ∅ b = 0 := by simp [sqDev]

/-- Statistics depend on the sample points only. -/
theorem mean_congr {c : ι → K} (same : ∀ i ∈ s, b i = c i) : mean s b = mean s c := by
  rw [mean, mean, sum_congr rfl same]

theorem sqDev_congr {c : ι → K} (same : ∀ i ∈ s, b i = c i) : sqDev s b = sqDev s c := by
  rw [sqDev, sqDev, mean_congr same]
  exact sum_congr rfl fun i mem => by rw [same i mem]

section CharZero

variable [CharZero K]

theorem card_mul_mean : s.card * mean s b = ∑ i ∈ s, b i := by
  obtain rfl | some_point := s.eq_empty_or_nonempty
  · simp
  · have : (s.card : K) ≠ 0 := Nat.cast_ne_zero.2 some_point.card_ne_zero
    rw [mean]
    field_simp

/-- The sum of squares without the mean's part. -/
theorem sqDev_eq : sqDev s b = ∑ i ∈ s, b i ^ 2 - s.card * mean s b ^ 2 := by
  calc sqDev s b = ∑ i ∈ s, (b i ^ 2 - 2 * mean s b * b i + mean s b ^ 2) :=
        sum_congr rfl fun i _ => by ring
    _ = ∑ i ∈ s, b i ^ 2 - 2 * mean s b * ∑ i ∈ s, b i + s.card * mean s b ^ 2 := by
        rw [sum_add_distrib, sum_sub_distrib, ← mul_sum, sum_const, nsmul_eq_mul]
    _ = ∑ i ∈ s, b i ^ 2 - s.card * mean s b ^ 2 := by
        rw [← card_mul_mean (s := s) (b := b)]
        ring

variable [DecidableEq ι]

/-- The mean after one more point. -/
theorem mean_insert (new : i ∉ s) :
    mean (insert i s) b = mean s b + (b i - mean s b) / (s.card + 1) := by
  have pos : (s.card + 1 : K) ≠ 0 := Nat.cast_add_one_ne_zero _
  rw [mean, sum_insert new, card_insert_of_notMem new, ← card_mul_mean]
  push_cast
  field_simp
  ring

/-- The squared deviation after one more point: old deviation times new deviation. -/
theorem sqDev_insert (new : i ∉ s) :
    sqDev (insert i s) b = sqDev s b + (b i - mean s b) * (b i - mean (insert i s) b) := by
  have pos : (s.card + 1 : K) ≠ 0 := Nat.cast_add_one_ne_zero _
  rw [sqDev_eq, sqDev_eq, sum_insert new, card_insert_of_notMem new, mean_insert new]
  push_cast
  field_simp
  ring

omit [CharZero K] in
/-- The sum after one point is replaced. -/
theorem sum_update (mem : i ∈ s) (v : K) (f : K → K) :
    ∑ j ∈ s, f (Function.update b i v j) = ∑ j ∈ s, f (b j) + (f v - f (b i)) := by
  rw [← add_sum_erase s _ mem, ← add_sum_erase s (fun j => f (b j)) mem, Function.update_self]
  have rest : ∑ j ∈ s.erase i, f (Function.update b i v j) = ∑ j ∈ s.erase i, f (b j) :=
    sum_congr rfl fun j other => by rw [Function.update_of_ne (ne_of_mem_erase other)]
  rw [rest]
  ring

omit [CharZero K] in
/-- The mean after one point is replaced. -/
theorem mean_update (mem : i ∈ s) (v : K) :
    mean s (Function.update b i v) = mean s b + (v - b i) / s.card := by
  have sum := sum_update (b := b) mem v id
  simp only [id] at sum
  rw [mean, sum, mean, add_div]

/-- The squared deviation after one point is replaced. -/
theorem sqDev_update (mem : i ∈ s) (v : K) :
    sqDev s (Function.update b i v) = sqDev s b +
      (v - b i) * ((v - mean s (Function.update b i v)) + (b i - mean s b)) := by
  have pos : (s.card : K) ≠ 0 := Nat.cast_ne_zero.2 (card_ne_zero_of_mem mem)
  rw [sqDev_eq, sqDev_eq, sum_update mem v (· ^ 2), mean_update mem]
  field_simp
  ring

end CharZero

section Order

variable [LinearOrder K] [IsStrictOrderedRing K]

/-- **A point cannot lie far from a mean it takes part in.** By Cauchy-Schwarz on the
other points, whose deviations add up to minus its own. -/
theorem card_mul_deviation_sq_le [DecidableEq ι] (mem : i ∈ s) :
    s.card * (b i - mean s b) ^ 2 ≤ (s.card - 1) * sqDev s b := by
  have balance : ∑ j ∈ s, (b j - mean s b) = 0 := by
    rw [sum_sub_distrib, sum_const, nsmul_eq_mul, card_mul_mean, sub_self]
  have own : b i - mean s b = -∑ j ∈ s.erase i, (b j - mean s b) := by
    rw [← add_sum_erase s _ mem] at balance
    linarith
  have others : ((s.erase i).card : K) = s.card - 1 := by
    rw [card_erase_of_mem mem, Nat.cast_sub (card_pos.2 ⟨i, mem⟩), Nat.cast_one]
  have cauchy : (b i - mean s b) ^ 2 ≤ (s.card - 1) * ∑ j ∈ s.erase i, (b j - mean s b) ^ 2 := by
    rw [own, neg_sq, ← others]
    exact sq_sum_le_card_mul_sum_sq
  have split : sqDev s b = (b i - mean s b) ^ 2 + ∑ j ∈ s.erase i, (b j - mean s b) ^ 2 :=
    (add_sum_erase s _ mem).symm
  rw [split]
  linarith

end Order

end StockAnomaly.Theory.SampleStats

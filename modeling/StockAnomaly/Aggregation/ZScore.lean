import Mathlib.Analysis.Real.Sqrt
import Mathlib.Data.Fintype.Fin
import Mathlib.Data.Rat.Sqrt
import StockAnomaly.Theory.Numerals
import StockAnomaly.Theory.SampleStats

/-!
# The rolling z-score and the rolling price change

`ZScoreCalculator` keeps the mean and the sum of squared deviations of the last `Window`
volumes by Welford's steps. `ZScoreInv` says that they are the statistics of the values in
the buffer. A z-score is taken against a window that contains the value itself, and that
bounds it: **`push_sq_mul_le`**, `z ^ 2 * k ≤ (k - 1) ^ 2` for `k` values in the window.
-/

namespace StockAnomaly.Aggregation

open StockAnomaly.Theory
open Finset

/-- `std::sqrt` of a number type. -/
class Sqrt (K : Type*) where
  sqrt : K → K

noncomputable instance : Sqrt ℝ := ⟨Real.sqrt⟩

/-- The exact root of the squares. -/
instance : Sqrt ℚ := ⟨Rat.sqrt⟩

structure ZScoreCalculator (K : Type*) (Window : ℕ) where
  buffer : Fin Window → K
  mean : K
  m2 : K
  count : ℕ

/-- `Window` is the length of the price history. -/
structure PriceChangeTracker (K : Type*) (Window : ℕ) where
  buffer : Fin Window → K
  head : ℕ

variable {K : Type*} [Field K] [LinearOrder K] {Window : ℕ}

namespace ZScoreCalculator

/-- The value-initialised calculator. -/
def zero : ZScoreCalculator K Window := ⟨fun _ => 0, 0, 0, 0⟩

/-- The sample variance; 0 of at most one value. -/
def variance (c : ZScoreCalculator K Window) : K :=
  if 1 < c.count then c.m2 / ((min c.count Window : ℕ) - 1) else 0

def stddev [Sqrt K] (c : ZScoreCalculator K Window) : K := Sqrt.sqrt c.variance

def warmedUp (c : ZScoreCalculator K Window) : Bool := Window ≤ c.count

variable [NeZero Window]

/-- The statistics after one more volume. -/
def observe (c : ZScoreCalculator K Window) (volume : K) : ZScoreCalculator K Window :=
  let idx := Fin.ofNat Window c.count
  let buffer := Function.update c.buffer idx volume
  if Window ≤ c.count then
    let oldVal := c.buffer idx
    let newMean := c.mean + (volume - oldVal) / Window
    let m2 := c.m2 + (volume - oldVal) * ((volume - newMean) + (oldVal - c.mean))
    ⟨buffer, newMean, m2, c.count + 1⟩
  else
    let delta := volume - c.mean
    let newMean := c.mean + delta / ((c.count + 1 : ℕ) : K)
    let delta2 := volume - newMean
    ⟨buffer, newMean, c.m2 + delta * delta2, c.count + 1⟩

/-- Feed a new volume; the z-score of that value and the calculator after it. -/
def push [Sqrt K] (c : ZScoreCalculator K Window) (volume : K) : K × ZScoreCalculator K Window :=
  let c := c.observe volume
  (if 1 / 10 ^ 9 < c.stddev then (volume - c.mean) / c.stddev else 0, c)

end ZScoreCalculator

namespace PriceChangeTracker

/-- The value-initialised tracker. -/
def zero : PriceChangeTracker K Window := ⟨fun _ => 0, 0⟩

/-- The change in percent from the price the new one displaces. -/
def push [NeZero Window] (t : PriceChangeTracker K Window) (price : K) : K × PriceChangeTracker K Window :=
  let idx := Fin.ofNat Window t.head
  let oldest := t.buffer idx
  let t' := ⟨Function.update t.buffer idx price, t.head + 1⟩
  (if t.head + 1 < Window then 0
   else if 1 / 10 ^ 9 < oldest then (price - oldest) / oldest * 100 else 0, t')

end PriceChangeTracker

namespace ZScoreCalculator

/-- The slots of the buffer that hold a value after `count` pushes. -/
def filled (Window count : ℕ) : Finset (Fin Window) := {i | i.val < count}

theorem mem_filled {count : ℕ} {i : Fin Window} : i ∈ filled Window count ↔ i.val < count := by
  simp [filled]

theorem card_filled (count : ℕ) : (filled Window count).card = min count Window := by
  rw [filled, Fin.card_filter_val_lt, min_comm]

/-- A buffer with a free slot gets the next one filled. -/
theorem filled_succ [NeZero Window] {count : ℕ} (room : count < Window) :
    filled Window (count + 1) = insert (Fin.ofNat Window count) (filled Window count) := by
  ext i
  rw [mem_insert, mem_filled, mem_filled, Fin.ext_iff, Fin.val_ofNat, Nat.mod_eq_of_lt room]
  omega

theorem ofNat_notMem_filled [NeZero Window] {count : ℕ} (room : count < Window) :
    Fin.ofNat Window count ∉ filled Window count := by
  rw [mem_filled, Fin.val_ofNat, Nat.mod_eq_of_lt room]
  omega

/-- A full buffer stays full. -/
theorem filled_of_le {count : ℕ} (full : Window ≤ count) : filled Window count = univ := by
  ext i
  simp only [mem_filled, mem_univ, iff_true]
  omega

/-- The running statistics are those of the values in the buffer. -/
structure ZScoreInv (c : ZScoreCalculator K Window) : Prop where
  mean : c.mean = SampleStats.mean (filled Window c.count) c.buffer
  m2 : c.m2 = SampleStats.sqDev (filled Window c.count) c.buffer

omit [LinearOrder K] in
theorem ZScoreInv.zero : ZScoreInv (zero : ZScoreCalculator K Window) := by
  have none : filled Window 0 = ∅ := by
    ext i
    simp [filled]
  constructor <;> simp [ZScoreCalculator.zero, none]

variable [NeZero Window]

omit [LinearOrder K] in
theorem observe_count (c : ZScoreCalculator K Window) (volume : K) :
    (c.observe volume).count = c.count + 1 := by
  unfold observe
  split <;> rfl

omit [LinearOrder K] in
theorem observe_buffer (c : ZScoreCalculator K Window) (volume : K) :
    (c.observe volume).buffer = Function.update c.buffer (Fin.ofNat Window c.count) volume := by
  unfold observe
  split <;> rfl

variable [IsStrictOrderedRing K]

/-- The rolling phase: the oldest value is replaced. -/
theorem ZScoreInv.roll {c : ZScoreCalculator K Window} (h : ZScoreInv c) (full : Window ≤ c.count)
    (volume : K) : ZScoreInv (c.observe volume) := by
  have mem : Fin.ofNat Window c.count ∈ (univ : Finset (Fin Window)) := mem_univ _
  have card : ((univ : Finset (Fin Window)).card : K) = Window := by rw [card_univ, Fintype.card_fin]
  have mean := h.mean
  have m2 := h.m2
  rw [filled_of_le full] at mean m2
  have newMean := SampleStats.mean_update (b := c.buffer) mem volume
  have newM2 := SampleStats.sqDev_update (b := c.buffer) mem volume
  rw [card, ← mean] at newMean
  rw [newMean, ← mean, ← m2] at newM2
  constructor
  · rw [observe_count, observe_buffer, filled_of_le (by omega), newMean]
    simp [observe, full]
  · rw [observe_count, observe_buffer, filled_of_le (by omega), newM2]
    simp [observe, full]

/-- The warm-up phase: the value is added. -/
theorem ZScoreInv.grow {c : ZScoreCalculator K Window} (h : ZScoreInv c) (room : c.count < Window)
    (volume : K) : ZScoreInv (c.observe volume) := by
  have new := ofNat_notMem_filled room
  have others : ∀ i ∈ filled Window c.count,
      Function.update c.buffer (Fin.ofNat Window c.count) volume i = c.buffer i :=
    fun i mem => Function.update_of_ne (ne_of_mem_of_not_mem mem new) _ _
  have card : (filled Window c.count).card = c.count := by
    rw [card_filled]
    omega
  have newMean := SampleStats.mean_insert
    (b := Function.update c.buffer (Fin.ofNat Window c.count) volume) new
  have newM2 := SampleStats.sqDev_insert
    (b := Function.update c.buffer (Fin.ofNat Window c.count) volume) new
  rw [SampleStats.mean_congr others, ← h.mean, Function.update_self, card] at newMean
  rw [newMean, SampleStats.mean_congr others, SampleStats.sqDev_congr others, ← h.mean, ← h.m2,
    Function.update_self] at newM2
  constructor
  · rw [observe_count, observe_buffer, filled_succ room, newMean]
    simp [observe, Nat.not_le.2 room]
  · rw [observe_count, observe_buffer, filled_succ room, newM2]
    simp [observe, Nat.not_le.2 room]

/-- Every push keeps the statistics exact. -/
theorem ZScoreInv.observe {c : ZScoreCalculator K Window} (h : ZScoreInv c) (volume : K) :
    ZScoreInv (c.observe volume) := by
  cases Nat.lt_or_ge c.count Window with
  | inl room => exact h.grow room volume
  | inr full => exact h.roll full volume

/-- The value just pushed is one of the window's values, so its deviation is bounded by
the window's. -/
theorem ZScoreInv.deviation_sq_le {c : ZScoreCalculator K Window} (h : ZScoreInv c) (volume : K) :
    (min (c.count + 1) Window : ℕ) * (volume - (c.observe volume).mean) ^ 2 ≤
      ((min (c.count + 1) Window : ℕ) - 1) * (c.observe volume).m2 := by
  have after := h.observe volume
  have mem : Fin.ofNat Window c.count ∈ filled Window (c.observe volume).count := by
    rw [mem_filled, observe_count, Fin.val_ofNat]
    exact Nat.lt_succ_of_le (Nat.mod_le _ _)
  have bound := SampleStats.card_mul_deviation_sq_le (b := (c.observe volume).buffer) mem
  rw [← after.mean, ← after.m2, card_filled, observe_count, observe_buffer,
    Function.update_self] at bound
  exact bound

/-- **The z-score of a value is bounded by the size of its window.** -/
theorem ZScoreInv.push_sq_mul_le {c : ZScoreCalculator ℝ Window} (h : ZScoreInv c) (volume : ℝ) :
    (c.push volume).1 ^ 2 * (min (c.count + 1) Window : ℕ) ≤
      ((min (c.count + 1) Window : ℕ) - 1) ^ 2 := by
  have bound := h.deviation_sq_le volume
  simp only [push]
  generalize dev : (c.observe volume).stddev = sd
  set k : ℝ := ((min (c.count + 1) Window : ℕ) : ℝ) with size
  split
  case isFalse => nlinarith [sq_nonneg (k - 1)]
  case isTrue wide =>
    have pos : 0 < sd := lt_trans (by norm_num) wide
    have square : sd ^ 2 = (c.observe volume).variance := by
      rw [← dev] at pos ⊢
      exact Real.sq_sqrt (Real.sqrt_pos.1 pos).le
    have some_variance : 0 < (c.observe volume).variance := square ▸ pow_pos pos 2
    have spread : (c.observe volume).m2 = (k - 1) * sd ^ 2 := by
      rw [square, variance, observe_count, ← size]
      rw [variance, observe_count, ← size] at some_variance
      split at some_variance
      case isTrue many =>
        have : k - 1 ≠ 0 := by
          intro zero
          simp [zero] at some_variance
        rw [if_pos many]
        field_simp
      case isFalse => exact absurd some_variance (lt_irrefl 0)
    rw [spread] at bound
    rw [div_pow, div_mul_eq_mul_div, div_le_iff₀ (pow_pos pos 2)]
    linarith

end ZScoreCalculator

end StockAnomaly.Aggregation

import Mathlib.Algebra.Order.Group.MinMax
import Mathlib.Tactic.FieldSimp
import Mathlib.Tactic.Linarith
import StockAnomaly.AiSignalService.Indicators
import StockAnomaly.Theory.Smoothing

/-!
# The relative strength index

`_rsi` smooths the rises and the falls of the closes with the same weight and compares the two
averages. It lies in `[0, 100)`. When the closes both rise and fall, and `period > 1`, neither
average is 0 at the end, wherever the moves are; then nothing is substituted, and the index does
not see where the prices are or how large, and treats rises and falls alike
(**`rsi_bounded_and_symmetric`**).
-/

namespace StockAnomaly.AiSignalService

open StockAnomaly.Theory

variable {K : Type*} [Field K]

/-- The changes from close to close. -/
def changes (close : List K) : List K := List.zipWith (· - ·) close.tail close

section Changes

variable {close : List K}

theorem changes_add (c : K) (close : List K) : changes (close.map (· + c)) = changes close := by
  simp [changes, ← List.map_tail, List.zipWith_map]

theorem changes_mul (k : K) (close : List K) : changes (close.map (k * ·)) = (changes close).map (k * ·) := by
  simp [changes, ← List.map_tail, List.zipWith_map, List.map_zipWith, mul_sub]

theorem changes_reflect (c : K) (close : List K) : changes (close.map (c - ·)) = (changes close).map (- ·) := by
  simp [changes, ← List.map_tail, List.zipWith_map, List.map_zipWith]

theorem changes_ne_nil (two : 2 ≤ close.length) : changes close ≠ [] := by
  apply List.ne_nil_of_length_pos
  simp only [changes, List.length_zipWith, List.length_tail]
  omega

theorem getElem_mem_changes {i : ℕ} (lt : i + 1 < close.length) : close[i + 1] - close[i] ∈ changes close := by
  have bound : i < (changes close).length := by
    simp only [changes, List.length_zipWith, List.length_tail]
    omega
  have change : (changes close)[i] = close[i + 1] - close[i] := by
    simp [changes]
  rw [← change]
  exact List.getElem_mem bound

end Changes

variable [LinearOrder K]

def gains (close : List K) : List K := (changes close).map (max 0)

def losses (close : List K) : List K := (changes close).map fun x => -min 0 x

def avgGain (close : List K) (period : ℕ) : K := ewma (1 / (period : K)) (gains close)

/-- The average loss before the substitution for 0. -/
def avgLoss (close : List K) (period : ℕ) : K := ewma (1 / (period : K)) (losses close)

/-- Some close is above the one before. -/
def Rises (close : List K) : Prop := ∃ i, ∃ lt : i + 1 < close.length, close[i] < close[i + 1]

/-- Some close is below the one before. -/
def Falls (close : List K) : Prop := ∃ i, ∃ lt : i + 1 < close.length, close[i + 1] < close[i]

variable {close : List K} {period : ℕ}

/-- The index in terms of the two averages. -/
theorem rsi_eq (two : 2 ≤ close.length) (period : ℕ) : rsi close period = some (100 - 100 / (1 +
    avgGain close period / if avgLoss close period = 0 then tiny else avgLoss close period)) := by
  have some_change := changes_ne_nil two
  have delta : (Series.ofList close).diff = none :: Series.ofList (changes close) := by
    cases close with
    | nil => simp at two
    | cons first rest => exact Series.diff_ofList_cons first rest
  -- the first difference is missing; both averages start at the second
  have smoothed : ∀ f : K → K, (((Series.ofList close).diff.mapValues f).ewm (1 / (period : K))).last =
      some (ewma (1 / (period : K)) ((changes close).map f)) := by
    intro f
    rw [delta, Series.mapValues_none_cons, Series.mapValues_ofList, Series.ewm_none_cons,
      Series.last_none_cons, Series.last_ewm]
    simpa using some_change
  have same : ∀ f g : K → K, (((Series.ofList close).diff.mapValues f).ewm (1 / (period : K))).length =
      ((((Series.ofList close).diff.mapValues g).ewm (1 / (period : K))).replace 0 tiny).length := by
    intro f g
    simp only [Series.replace, Series.length_mapValues, Series.length_ewm]
  rw [rsi, Series.last_mapValues, Series.last_zip (same _ _), Series.replace, Series.last_mapValues, smoothed,
    smoothed]
  rfl

variable [IsStrictOrderedRing K]

section Averages

omit [IsStrictOrderedRing K] in
theorem gains_nonneg (close : List K) : ∀ x ∈ gains close, 0 ≤ x := by
  intro x mem
  obtain ⟨change, -, rfl⟩ := List.mem_map.1 mem
  exact le_max_left 0 change

theorem losses_nonneg (close : List K) : ∀ x ∈ losses close, 0 ≤ x := by
  intro x mem
  obtain ⟨change, -, rfl⟩ := List.mem_map.1 mem
  exact neg_nonneg.2 (min_le_left 0 change)

theorem gains_mul {k : K} (pos : 0 < k) (close : List K) :
    gains (close.map (k * ·)) = (gains close).map (k * ·) := by
  rw [gains, changes_mul, gains, List.map_map, List.map_map]
  apply List.map_congr_left
  intro change _
  simp [mul_max_of_nonneg _ _ pos.le]

theorem losses_mul {k : K} (pos : 0 < k) (close : List K) :
    losses (close.map (k * ·)) = (losses close).map (k * ·) := by
  rw [losses, changes_mul, losses, List.map_map, List.map_map]
  apply List.map_congr_left
  intro change _
  simp [mul_min_of_nonneg _ _ pos.le]

theorem gains_reflect (c : K) (close : List K) : gains (close.map (c - ·)) = losses close := by
  rw [gains, changes_reflect, losses, List.map_map]
  apply List.map_congr_left
  intro change _
  have flip := max_neg_neg 0 change
  rwa [neg_zero] at flip

theorem losses_reflect (c : K) (close : List K) : losses (close.map (c - ·)) = gains close := by
  rw [losses, changes_reflect, gains, List.map_map]
  apply List.map_congr_left
  intro change _
  have flip := min_neg_neg 0 change
  rw [neg_zero] at flip
  simp [flip]

theorem alpha_pos (positive : 1 ≤ period) : 0 < 1 / (period : K) := by
  apply one_div_pos.2
  exact_mod_cast positive

theorem alpha_le_one (positive : 1 ≤ period) : 1 / (period : K) ≤ 1 := by
  apply (div_le_one (by exact_mod_cast positive)).2
  exact_mod_cast positive

theorem alpha_lt_one (more : 1 < period) : 1 / (period : K) < 1 := by
  apply (div_lt_one (by exact_mod_cast Nat.zero_lt_of_lt more)).2
  exact_mod_cast more

theorem avgGain_nonneg (positive : 1 ≤ period) (close : List K) : 0 ≤ avgGain close period :=
  ewma_nonneg (alpha_pos positive).le (alpha_le_one positive) (gains_nonneg close)

theorem avgLoss_nonneg (positive : 1 ≤ period) (close : List K) : 0 ≤ avgLoss close period :=
  ewma_nonneg (alpha_pos positive).le (alpha_le_one positive) (losses_nonneg close)

/-- A rise anywhere leaves its trace in the average. -/
theorem avgGain_pos (more : 1 < period) (rises : Rises close) : 0 < avgGain close period := by
  apply ewma_pos (alpha_pos more.le) (alpha_lt_one more) (gains_nonneg close)
  obtain ⟨i, lt, up⟩ := rises
  refine ⟨_, List.mem_map_of_mem (getElem_mem_changes lt), ?_⟩
  exact lt_max_of_lt_right (sub_pos.2 up)

theorem avgLoss_pos (more : 1 < period) (falls : Falls close) : 0 < avgLoss close period := by
  apply ewma_pos (alpha_pos more.le) (alpha_lt_one more) (losses_nonneg close)
  obtain ⟨i, lt, down⟩ := falls
  refine ⟨_, List.mem_map_of_mem (getElem_mem_changes lt), ?_⟩
  exact neg_pos.2 (min_lt_of_right_lt (sub_neg.2 down))

end Averages

/-- The index of average gain `g` and average loss `l`. -/
theorem index_bounds {g l : K} (gain : 0 ≤ g) (loss : 0 < l) :
    0 ≤ 100 - 100 / (1 + g / l) ∧ 100 - 100 / (1 + g / l) < 100 := by
  have ratio : 0 ≤ g / l := div_nonneg gain loss.le
  have one_le : 1 ≤ 1 + g / l := le_add_of_nonneg_right ratio
  have share_pos : 0 < 100 / (1 + g / l) := div_pos (by norm_num) (by linarith)
  have share_le : 100 / (1 + g / l) ≤ 100 := div_le_self (by norm_num) one_le
  constructor <;> linarith

/-- Exchanging the averages reflects the index about 50. -/
theorem index_swap {g l : K} (gain : 0 < g) (loss : 0 < l) :
    100 - 100 / (1 + l / g) = 100 - (100 - 100 / (1 + g / l)) := by
  have total : g + l ≠ 0 := (add_pos gain loss).ne'
  have swapped : l + g ≠ 0 := (add_pos loss gain).ne'
  field_simp
  ring

theorem avgGain_mul {k : K} (pos : 0 < k) (close : List K) (period : ℕ) :
    avgGain (close.map (k * ·)) period = k * avgGain close period := by
  rw [avgGain, gains_mul pos, ewma_mul, avgGain]

theorem avgLoss_mul {k : K} (pos : 0 < k) (close : List K) (period : ℕ) :
    avgLoss (close.map (k * ·)) period = k * avgLoss close period := by
  rw [avgLoss, losses_mul pos, ewma_mul, avgLoss]

/-- With a rise and a fall there is nothing to substitute. -/
theorem rsi_of_moves (two : 2 ≤ close.length) (more : 1 < period) (falls : Falls close) :
    rsi close period = some (100 - 100 / (1 + avgGain close period / avgLoss close period)) := by
  rw [rsi_eq two, if_neg (avgLoss_pos more falls).ne']

omit [IsStrictOrderedRing K] in
theorem rsi_add (two : 2 ≤ close.length) (c : K) : rsi (close.map (· + c)) period = rsi close period := by
  have gain : avgGain (close.map (· + c)) period = avgGain close period := by
    simp only [avgGain, gains, changes_add]
  have loss : avgLoss (close.map (· + c)) period = avgLoss close period := by
    simp only [avgLoss, losses, changes_add]
  rw [rsi_eq (by simpa using two), rsi_eq two, gain, loss]

theorem rsi_mul (two : 2 ≤ close.length) (more : 1 < period) (falls : Falls close) {k : K} (pos : 0 < k) :
    rsi (close.map (k * ·)) period = rsi close period := by
  have loss := (avgLoss_pos more falls).ne'
  rw [rsi_eq (by simpa using two), rsi_of_moves two more falls, avgGain_mul pos, avgLoss_mul pos,
    if_neg (mul_ne_zero pos.ne' loss), mul_div_mul_left _ _ pos.ne']

theorem rsi_reflect (two : 2 ≤ close.length) (more : 1 < period) (rises : Rises close) (falls : Falls close)
    (c : K) : rsi (close.map (c - ·)) period = (rsi close period).map (100 - ·) := by
  have gain := avgGain_pos more rises
  have loss := avgLoss_pos more falls
  have swapped_gain : avgGain (close.map (c - ·)) period = avgLoss close period := by
    rw [avgGain, gains_reflect, avgLoss]
  have swapped_loss : avgLoss (close.map (c - ·)) period = avgGain close period := by
    rw [avgLoss, losses_reflect, avgGain]
  rw [rsi_eq (by simpa using two), rsi_of_moves two more falls, swapped_gain, swapped_loss, if_neg gain.ne',
    Option.map_some, index_swap gain loss]

/-- **The RSI is bounded, and blind to the level, the scale and the side of the prices.** -/
theorem rsi_bounded_and_symmetric (positive : 1 ≤ period) (close : List K) (two : 2 ≤ close.length) :
    (∃ value, rsi close period = some value ∧ 0 ≤ value ∧ value < 100) ∧
      (1 < period → Rises close → Falls close →
        (∀ c, rsi (close.map (· + c)) period = rsi close period) ∧
        (∀ k, 0 < k → rsi (close.map (k * ·)) period = rsi close period) ∧
        ∀ c, rsi (close.map (c - ·)) period = (rsi close period).map (100 - ·)) := by
  constructor
  · refine ⟨_, rsi_eq two period, index_bounds (avgGain_nonneg positive close) ?_⟩
    split
    case isTrue => exact tiny_pos
    case isFalse some_loss => exact (avgLoss_nonneg positive close).lt_of_ne' some_loss
  · intro more rises falls
    exact ⟨rsi_add two, fun k => rsi_mul two more falls, rsi_reflect two more rises falls⟩

/-- One fall and one rise of the same size, the rise last. -/
theorem rsi_bounded_and_symmetric_three :
    rsi ([2, 1, 2].map ((5 : ℚ) - ·)) 2 = (rsi [2, 1, 2] 2).map (100 - ·) := by
  have rises : Rises [(2 : ℚ), 1, 2] := ⟨1, by decide, by norm_num⟩
  have falls : Falls [(2 : ℚ), 1, 2] := ⟨0, by decide, by norm_num⟩
  exact ((rsi_bounded_and_symmetric (by decide) [(2 : ℚ), 1, 2] (by decide)).2 (by decide) rises falls).2.2 5

end StockAnomaly.AiSignalService

import Mathlib.Analysis.SpecialFunctions.Exp
import Mathlib.Analysis.Real.Sqrt
import StockAnomaly.AiSignalService.Vwap

/-!
# A market without movement

Of the fallbacks for a zero denominator those of the Bollinger band, of VWAP and of the
volume are neutral. The RSI's is not: without gains and losses the average gain 0 is
divided by `1e-9`, the RSI is 0 and not 50, and the score is that of a falling market.
-/

namespace StockAnomaly.AiSignalService

open StockAnomaly.Theory

noncomputable instance : FloatMath ℝ := ⟨Real.sqrt, Real.exp⟩

/-- Every candle opens, tops, bottoms and closes at `p`. -/
def Flat {K : Type*} (p : K) (df : List (Candle K)) : Prop :=
  ∀ c ∈ df, c.open = p ∧ c.high = p ∧ c.low = p ∧ c.close = p

section Field

variable {K : Type*} {n : ℕ} {p : K}

theorem ofList_replicate : Series.ofList (List.replicate n p) = List.replicate n (some p) := by
  simp [Series.ofList]

variable [Field K]

/-- All moving averages are the price. -/
theorem macdHist_flat (some_candle : n ≠ 0) (fast slow signal : ℕ) :
    macdHist (List.replicate n p) fast slow signal = some 0 := by
  simp only [macdHist, ewmSpan, ofList_replicate, Series.ewm_replicate, Series.zip_replicate, sub_self]
  exact Series.last_replicate some_candle

variable [LinearOrder K]

/-- Without gains and losses the RSI is 0. -/
theorem rsi_flat (two : 2 ≤ n) (period : ℕ) : rsi (List.replicate n p) period = some 0 := by
  obtain ⟨m, rfl⟩ : ∃ m, n = m + 1 := ⟨n - 1, by omega⟩
  have some_change : m ≠ 0 := by omega
  have delta : (Series.ofList (List.replicate (m + 1) p)).diff = none :: List.replicate m (some 0) := by
    rw [ofList_replicate, Series.diff_replicate_succ]
  -- the average loss is 0 everywhere, so `tiny` takes its place
  have loss : Series.replace 0 tiny (none :: List.replicate m (some (0 : K))) =
      none :: List.replicate m (some tiny) := by
    rw [Series.replace, Series.mapValues_none_cons, Series.mapValues_replicate, if_pos rfl]
  simp only [rsi, delta, Series.mapValues_none_cons, Series.mapValues_replicate, max_self, min_self,
    neg_zero, Series.ewm_none_cons, Series.ewm_replicate, loss, Series.zip_none_cons,
    Series.zip_replicate, zero_div, add_zero, div_one, sub_self]
  rw [Series.last_cons _ (by simpa using some_change), Series.last_replicate some_change]

variable [IsStrictOrderedRing K]

/-- The band has no width. -/
theorem bbPercentB_flat [FloatMath K] (root : FloatMath.sqrt (0 : K) = 0) {period : ℕ} (two : 2 ≤ period)
    (long : period ≤ n) (stddev : K) :
    bbPercentB (List.replicate n p) period stddev = some (1 / 2) := by
  have some_candle : n ≠ 0 := by omega
  have sma : (Series.rolling period Series.mean (List.replicate n (some p))).last = some p := by
    rw [Series.last_rolling_replicate _ long some_candle, Series.mean_replicate (by omega)]
  have deviation : (Series.rolling period std (List.replicate n (some p))).last = some 0 := by
    rw [Series.last_rolling_replicate _ long some_candle, std, Series.sampleVar_replicate two,
      Option.map_some, root]
  simp only [bbPercentB, ofList_replicate]
  rw [Series.last_zip, Series.last_zip, Series.last_zip, Series.last_mapValues, sma, deviation,
    Series.last_replicate some_candle]
  · simp [tiny_pos.le]
  all_goals simp [Series.zip, Series.rolling, List.length_inits]

/-- The volume-weighted price is the price, or there is no volume. -/
theorem vwapDeviationPct_flat {df : List (Candle K)} (some_candle : df ≠ []) (flat : Flat p df) :
    vwapDeviationPct df = some 0 := by
  have amount : (df.map fun c => typical c * c.volume).sum = p * totalVolume df := by
    rw [totalVolume, ← List.sum_map_mul_left]
    refine congrArg List.sum (List.map_congr_left fun c mem => ?_)
    obtain ⟨-, high, low, close⟩ := flat c mem
    rw [typical, high, low, close]
    ring
  have close_last : (Series.ofList (df.map Candle.close)).last = some p := by
    have close : df.map Candle.close = List.replicate df.length p := by
      rw [← List.map_const']
      exact List.map_congr_left fun c mem => (flat c mem).2.2.2
    rw [close, ofList_replicate, Series.last_replicate (by simpa using some_candle)]
  rw [vwapDeviationPct_eq (last_vwap some_candle) close_last, amount]
  by_cases none : totalVolume df = 0
  · rw [if_pos none, none, mul_zero, zero_div, if_pos tiny_pos.le]
  · rw [if_neg none, mul_div_cancel_right₀ _ none, sub_self, zero_div, zero_mul, ite_self]

end Field

section Score

variable {df : List (Candle ℝ)} {p : ℝ}

/-- The signals but the RSI's are 0. -/
theorem computeAll_flat (long : 30 ≤ df.length) (flat : Flat p df) :
    ∃ volume_zscore, computeAll df Config.shipped = some ⟨some 0, some 0, some (1 / 2), some 0, volume_zscore⟩ := by
  have some_candle : df ≠ [] := by
    rintro rfl
    simp at long
  have close : df.map Candle.close = List.replicate df.length p := by
    rw [← List.map_const']
    exact List.map_congr_left fun c mem => (flat c mem).2.2.2
  refine ⟨volumeZscore (df.map Candle.volume) 20, ?_⟩
  rw [computeAll, if_neg (by simpa using some_candle), close]
  dsimp only
  rw [macdHist_flat (by omega), rsi_flat (by omega), bbPercentB_flat Real.sqrt_zero (by decide) (le_trans (by decide) long),
    vwapDeviationPct_flat some_candle flat]
  rfl

theorem clip_mem (x : Option ℝ) {lo hi : ℝ} (le : lo ≤ hi) : lo ≤ clip x lo hi ∧ clip x lo hi ≤ hi := by
  refine ⟨le_max_left _ _, max_le le ?_⟩
  cases x with
  | none => exact le_rfl
  | some x => exact min_le_left _ _

/-- The price part of the score: the RSI alone votes. -/
theorem price_signal_rsi_zero (volume_zscore : Option ℝ) :
    (score ⟨some 0, some 0, some (1 / 2), some 0, volume_zscore⟩ Config.shipped).price_signal =
      -(1 / 4) := by
  simp only [score, clip, Config.shipped, Option.map_some, Option.elim_some]
  norm_num

/-- The volume only amplifies. -/
theorem one_le_volume_boost (indicators : Indicators ℝ) : 1 ≤ (score indicators Config.shipped).volume_boost := by
  obtain ⟨nonneg, -⟩ := clip_mem indicators.volume_zscore (show (0 : ℝ) ≤ 5 by norm_num)
  have cap : (0 : ℝ) < Config.shipped.volume_zscore_cap := show (0 : ℝ) < 5 by norm_num
  have boost : (score indicators Config.shipped).volume_boost =
      1 + 5 / 10 * (clip indicators.volume_zscore 0 5 / 5) := by
    simp only [score]
    rw [if_pos cap]
    rfl
  rw [boost]
  linarith

/-- A price signal of `-1/4` is a signal to sell. -/
theorem direction_of_price_signal (indicators : Indicators ℝ)
    (low : (score indicators Config.shipped).price_signal = -(1 / 4)) :
    (score indicators Config.shipped).direction = .SELL_READY := by
  set result := score indicators Config.shipped with result_eq
  have final : result.final_score = clip (some (result.price_signal * result.volume_boost)) (-1) 1 := rfl
  have final_low : result.final_score ≤ -(1 / 4) := by
    have boost : 1 ≤ result.volume_boost := one_le_volume_boost indicators
    rw [final, low, clip]
    exact max_le (by norm_num) ((min_le_right _ _).trans (by linarith))
  have probability : result.bull_probability = 1 / (1 + Real.exp (-result.final_score * 4)) := rfl
  have bull : result.bull_probability ≤ 1 / 3 := by
    have two_le : 2 ≤ Real.exp (-result.final_score * 4) := by
      linarith [Real.add_one_le_exp (-result.final_score * 4)]
    rw [probability]
    exact one_div_le_one_div_of_le (by norm_num) (by linarith)
  have no_buy : ¬ (65 / 100 : ℝ) ≤ result.bull_probability := by
    intro buy
    linarith
  have sell : result.bull_probability ≤ (35 / 100 : ℝ) := by linarith
  exact (if_neg no_buy).trans (if_pos sell)

/-- **A market without movement never scores as neutral.** -/
theorem flat_market_not_neutral {p : ℝ} (_ : 0 < p) {df : List (Candle ℝ)}
    (long : (Config.shipped : Config ℝ).buffer_min_len_for_signal ≤ df.length) (flat : Flat p df)
    (_ : ∀ c ∈ df, 0 ≤ c.volume) :
    ∃ indicators, computeAll df Config.shipped = some indicators ∧
      (score indicators Config.shipped).price_signal ≠ 0 ∧
      (score indicators Config.shipped).direction ≠ .NEUTRAL := by
  obtain ⟨volume_zscore, computed⟩ := computeAll_flat long flat
  refine ⟨_, computed, ?_, ?_⟩
  · rw [price_signal_rsi_zero]
    norm_num
  · rw [direction_of_price_signal _ (price_signal_rsi_zero volume_zscore)]
    decide

/-- Thirty candles at 1 without volume. -/
def still : List (Candle ℝ) := List.replicate 30 ⟨0, 1, 1, 1, 1, 0⟩

theorem flat_still : Flat 1 still := by
  intro c mem
  rw [List.eq_of_mem_replicate mem]
  exact ⟨rfl, rfl, rfl, rfl⟩

theorem flat_market_not_neutral_still :
    ∃ indicators, computeAll still Config.shipped = some indicators ∧
      (score indicators Config.shipped).price_signal ≠ 0 ∧
      (score indicators Config.shipped).direction ≠ .NEUTRAL :=
  flat_market_not_neutral one_pos le_rfl flat_still fun c mem => by
    rw [List.eq_of_mem_replicate mem]

/-- The still market is a signal to sell. -/
theorem still_market_sells :
    ¬ ∀ (p : ℝ) (df : List (Candle ℝ)), 0 < p →
      (Config.shipped : Config ℝ).buffer_min_len_for_signal ≤ df.length → Flat p df →
      (∀ c ∈ df, 0 ≤ c.volume) → ∃ indicators, computeAll df Config.shipped = some indicators ∧
        (score indicators Config.shipped).price_signal = 0 ∧
        (score indicators Config.shipped).direction = .NEUTRAL := by
  intro claim
  obtain ⟨indicators, computed, signal, -⟩ := claim 1 still one_pos le_rfl flat_still fun c mem => by
    rw [List.eq_of_mem_replicate mem]
  obtain ⟨volume_zscore, flat⟩ := computeAll_flat le_rfl flat_still
  obtain rfl := Option.some.inj (computed.symm.trans flat)
  rw [price_signal_rsi_zero] at signal
  norm_num at signal

end Score

end StockAnomaly.AiSignalService

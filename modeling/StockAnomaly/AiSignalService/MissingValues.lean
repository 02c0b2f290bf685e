import StockAnomaly.AiSignalService.DataFrame
import StockAnomaly.AiSignalService.FlatMarket

/-!
# An undefined indicator votes

`_clip` is `max(lo, min(hi, x))`, and Python's `min(hi, x)` is `hi` when `x` is NaN: an undefined
indicator counts as the strongest signal to buy, and an undefined volume as the largest boost, where
the fallbacks of the indicators are neutral. The rest of the module says on which frames each indicator
is undefined, and from that exactly when a frame does no harm: **`missing_is_neutral_iff`**.
-/

namespace StockAnomaly.AiSignalService

open StockAnomaly.Theory

namespace DataFrame

variable {K : Type*} [Field K]

/-- With some close the MACD is there. -/
theorem macdHist_ne_none {close : Series K} (some_close : ∃ x ∈ close, x ≠ none) (fast slow signal : ℕ) :
    macdHist close fast slow signal ≠ none := by
  have ema : ∀ span, (ewmSpan span close).last ≠ none := by
    intro span missing
    obtain ⟨x, mem, there⟩ := some_close
    exact there ((Series.last_ewm_eq_none_iff _).1 missing x mem)
  have lengths : ∀ span, (ewmSpan span close).length = close.length := fun span => Series.length_ewm _ close
  have same : (ewmSpan fast close).length = (ewmSpan slow close).length := (lengths fast).trans (lengths slow).symm
  have line : (Series.zip (· - ·) (ewmSpan fast close) (ewmSpan slow close)).last ≠ none := by
    rw [Ne, Series.last_zip_eq_none_iff same]
    exact not_or.2 ⟨ema fast, ema slow⟩
  rw [macdHist]
  intro missing
  obtain missing | missing := (Series.last_zip_eq_none_iff (Series.length_ewm _ _).symm).1 missing
  · exact line missing
  · obtain ⟨value, here⟩ := Option.ne_none_iff_exists'.1 line
    cases (Series.last_ewm_eq_none_iff _).1 missing (some value) (Series.mem_of_last here)

variable [LinearOrder K]

/-- The RSI needs two neighbouring closes. -/
theorem rsi_eq_none_iff {close : Series K} {period : ℕ} :
    rsi close period = none ↔ ∀ i, close[i]?.join = none ∨ close[i + 1]?.join = none := by
  have moved : ∀ f : K → K, ((close.diff.mapValues f).ewm (1 / (period : K))).last = none ↔
      ∀ d ∈ close.diff, d = none := by
    intro f
    rw [Series.last_ewm_eq_none_iff, Series.mapValues, List.forall_mem_map]
    simp only [Option.map_eq_none_iff]
  have same : ∀ f g : K → K, ((close.diff.mapValues f).ewm (1 / (period : K))).length =
      (((close.diff.mapValues g).ewm (1 / (period : K))).replace 0 tiny).length := by
    intro f g
    simp only [Series.replace, Series.length_mapValues, Series.length_ewm]
  rw [rsi, Series.last_mapValues_eq_none_iff, Series.last_zip_eq_none_iff (same _ _), Series.replace,
    Series.last_mapValues_eq_none_iff, moved, moved, or_self, Series.diff_eq_none_iff]

omit [LinearOrder K] in
theorem typicalPrice_eq_none_iff {row : Row K} :
    typicalPrice row = none ↔ row.high = none ∨ row.low = none ∨ row.close = none := by
  rw [typicalPrice, Option.map_eq_none_iff, Option.map₂_eq_none_iff, Option.map₂_eq_none_iff, or_assoc]

omit [Field K] [LinearOrder K] in
theorem last_column (older : List (Row K)) (row : Row K) (field : Row K → Option K) :
    Series.last ((older ++ [row]).map field) = field row := by
  simp [Series.last]

/-- The last entry of the column `vwap` needs the newest row. -/
theorem last_vwap_eq_none_iff (older : List (Row K)) (row : Row K) :
    (vwap (older ++ [row])).last = none ↔ typicalPrice row = none ∨ row.volume = none := by
  have same : ((older ++ [row]).map typicalPrice).length = ((older ++ [row]).map Row.volume).length := by
    rw [List.length_map, List.length_map]
  have sums : (Series.runningSum (Series.zip (· * ·) ((older ++ [row]).map typicalPrice)
        ((older ++ [row]).map Row.volume))).length =
      ((Series.runningSum ((older ++ [row]).map Row.volume)).replace 0 tiny).length := by
    rw [Series.replace, Series.length_mapValues, Series.runningSum, Series.runningSum,
      Series.length_runningSumFrom, Series.length_runningSumFrom, Series.length_zip same, same]
  rw [vwap, Series.last_zip_eq_none_iff sums, Series.last_runningSum_eq_none_iff, Series.last_zip_eq_none_iff same,
    Series.replace, Series.last_mapValues_eq_none_iff, Series.last_runningSum_eq_none_iff, last_column, last_column,
    or_assoc, or_self]

/-- VWAP needs the newest row. -/
theorem vwapDeviationPct_eq_none_iff {df : List (Row K)} : vwapDeviationPct df = none ↔
    ∀ row ∈ df.getLast?, row.high = none ∨ row.low = none ∨ row.close = none ∨ row.volume = none := by
  obtain rfl | ⟨older, row, rfl⟩ := List.eq_nil_or_concat' df
  · exact iff_of_true rfl fun _ mem => (Option.not_mem_none _ mem).elim
  have newest : (∀ r ∈ (older ++ [row]).getLast?, r.high = none ∨ r.low = none ∨ r.close = none ∨ r.volume = none) ↔
      typicalPrice row = none ∨ row.volume = none := by
    rw [typicalPrice_eq_none_iff]
    simp [or_assoc]
  rw [newest, ← last_vwap_eq_none_iff older row, vwapDeviationPct, last_column]
  cases last : (vwap (older ++ [row])).last with
  | none => exact iff_of_true rfl rfl
  | some last_vwap =>
    -- a last VWAP means a last close
    have close : row.close ≠ none := by
      intro missing
      have gone := (last_vwap_eq_none_iff older row).2 (.inl (typicalPrice_eq_none_iff.2 (.inr (.inr missing))))
      rw [last] at gone
      cases gone
    obtain ⟨c, close⟩ := Option.ne_none_iff_exists'.1 close
    apply iff_of_false _ (Option.some_ne_none _)
    rw [Option.bind_some, close]
    split <;> exact Option.some_ne_none _

variable [FloatMath K]

omit [LinearOrder K] in
theorem std_eq_none_iff {values : List K} : std values = none ↔ values.length < 2 := by
  rw [std, Option.map_eq_none_iff, Series.sampleVar_eq_none_iff]

/-- The band needs `bb_period` closes in a row at the end, and two of them. -/
theorem bbPercentB_eq_none_iff {close : Series K} {period : ℕ} {stddev : K} :
    bbPercentB close period stddev = none ↔
      period < 2 ∨ close.length < period ∨ none ∈ close.drop (close.length - period) := by
  rw [bbPercentB_eq]
  by_cases some_row : close = []
  · subst some_row
    apply iff_of_true rfl
    rw [List.length_nil]
    omega
  rw [Series.last_rolling period _ some_row, Series.last_rolling period _ some_row]
  by_cases short : close.length < period
  · rw [if_pos short]
    exact iff_of_true rfl (.inr (.inl short))
  rw [if_neg short, if_neg short]
  cases window : (close.drop (close.length - period)).mapM id with
  | none => exact iff_of_true rfl (.inr (.inr (Series.mapM_eq_none_iff.1 window)))
  | some values =>
    have gapless : none ∉ close.drop (close.length - period) := by
      rw [← Series.mapM_eq_none_iff, window]
      exact Option.some_ne_none _
    have eq := Series.eq_ofList_of_mapM window
    have length : values.length = period := by
      have same := congrArg List.length eq
      rw [List.length_drop, Series.ofList, List.length_map] at same
      omega
    rw [Option.bind_some, Option.bind_some]
    cases dev : std values with
    | none =>
      have few : period < 2 := length ▸ std_eq_none_iff.1 dev
      apply iff_of_true _ (.inl few)
      cases Series.mean values <;> rfl
    | some dev' =>
      have many : ¬ period < 2 := by
        intro few
        rw [std_eq_none_iff.2 (length.symm ▸ few)] at dev
        cases dev
      obtain ⟨mean, mean_eq⟩ : ∃ mean, Series.mean values = some mean := by
        apply Option.ne_none_iff_exists'.1
        rw [Ne, Series.mean_eq_none_iff, ← List.length_eq_zero_iff]
        omega
      -- the window has a last close
      obtain ⟨c, close_last⟩ : ∃ c, close.last = some c := by
        have last : close.getLast? = (Series.ofList values).getLast? := by
          rw [← eq, List.getLast?_drop, if_neg (by omega)]
        rw [Series.last, last, ← Series.last]
        apply exists_last
        rw [Ne, ← List.length_eq_zero_iff]
        omega
      apply iff_of_false
      · rw [mean_eq, Option.bind_some, Option.bind_some, close_last]
        split <;> exact Option.some_ne_none _
      · rintro (few | few | gap)
        · exact many few
        · exact short few
        · exact gapless gap

/-- The z-score needs two volumes in the window and, if they differ, the newest. -/
theorem volumeZscore_eq_none_iff {volume : Series K} {period : ℤ} : volumeZscore volume period = none ↔
    (Series.present (ilocFrom (-period) volume)).length < 2 ∨
      (volume.last = none ∧ ∀ dev ∈ std (Series.present (ilocFrom (-period) volume)), tiny < dev) := by
  rw [volumeZscore]
  generalize Series.present (ilocFrom (-period) volume) = window
  cases dev : std window with
  | none => exact iff_of_true rfl (.inl (std_eq_none_iff.1 dev))
  | some dev' =>
    have many : ¬ window.length < 2 := by
      intro few
      rw [std_eq_none_iff.2 few] at dev
      cases dev
    obtain ⟨mean, mean_eq⟩ : ∃ mean, Series.mean window = some mean := by
      apply Option.ne_none_iff_exists'.1
      rw [Ne, Series.mean_eq_none_iff, ← List.length_eq_zero_iff]
      omega
    rw [or_iff_right many, Option.bind_some, mean_eq]
    by_cases small : dev' ≤ tiny
    · rw [if_pos small]
      apply iff_of_false (Option.some_ne_none _)
      rintro ⟨-, wide⟩
      exact absurd (wide dev' rfl) (not_lt.2 small)
    · rw [if_neg small, Option.map_eq_none_iff, Option.map₂_eq_none_iff, or_iff_left (Option.some_ne_none _)]
      refine (and_iff_left ?_).symm
      intro d same
      obtain rfl := Option.some.inj same
      exact not_le.1 small

end DataFrame

section Votes

/-- What an indicator adds to `price_signal`: its weight times its clipped signal. -/
noncomputable def vote (weight : ℝ) (signal : ℝ → ℝ) (indicator : Option ℝ) : ℝ :=
  weight * clip (indicator.map signal) (-1) 1

noncomputable def macdVote (indicators : Indicators ℝ) (config : Config ℝ) : ℝ :=
  vote config.weight_macd (· / config.macd_norm_divisor) indicators.macd_hist

noncomputable def rsiVote (indicators : Indicators ℝ) (config : Config ℝ) : ℝ :=
  vote config.weight_rsi (fun rsi => (rsi - 50) / 50) indicators.rsi

noncomputable def bbVote (indicators : Indicators ℝ) (config : Config ℝ) : ℝ :=
  vote config.weight_bb (fun bb => (bb - 1 / 2) * 2) indicators.bb_percent_b

noncomputable def vwapVote (indicators : Indicators ℝ) (config : Config ℝ) : ℝ :=
  vote config.weight_vwap (· / config.vwap_norm_divisor) indicators.vwap_deviation_pct

/-- The neutral value for each undefined indicator. -/
noncomputable def Indicators.neutral (indicators : Indicators ℝ) : Indicators ℝ where
  macd_hist := some (indicators.macd_hist.getD 0)
  rsi := some (indicators.rsi.getD 50)
  bb_percent_b := some (indicators.bb_percent_b.getD (1 / 2))
  vwap_deviation_pct := some (indicators.vwap_deviation_pct.getD 0)
  volume_zscore := some (indicators.volume_zscore.getD 0)

/-- In `result` an undefined price indicator adds nothing to the price signal, an undefined volume does
not amplify it, and the direction, if it is one, does not come from undefined indicators. -/
structure NoUndefinedVote (indicators : Indicators ℝ) (config : Config ℝ) (result : Score ℝ) : Prop where
  macd_hist : indicators.macd_hist = none →
    result.price_signal = rsiVote indicators config + bbVote indicators config + vwapVote indicators config
  rsi : indicators.rsi = none →
    result.price_signal = macdVote indicators config + bbVote indicators config + vwapVote indicators config
  bb_percent_b : indicators.bb_percent_b = none →
    result.price_signal = macdVote indicators config + rsiVote indicators config + vwapVote indicators config
  vwap_deviation_pct : indicators.vwap_deviation_pct = none →
    result.price_signal = macdVote indicators config + rsiVote indicators config + bbVote indicators config
  volume_zscore : indicators.volume_zscore = none → result.volume_boost = 1
  ready : result.direction ≠ .NEUTRAL → (score indicators.neutral config).direction = result.direction

/-- Every undefined indicator has the weight 0. -/
structure Unweighted (indicators : Indicators ℝ) (config : Config ℝ) : Prop where
  macd_hist : indicators.macd_hist = none → config.weight_macd = 0
  rsi : indicators.rsi = none → config.weight_rsi = 0
  bb_percent_b : indicators.bb_percent_b = none → config.weight_bb = 0
  vwap_deviation_pct : indicators.vwap_deviation_pct = none → config.weight_vwap = 0
  volume_zscore : indicators.volume_zscore = none →
    config.volume_boost_weight = 0 ∨ config.volume_zscore_cap ≤ 0

variable {indicators : Indicators ℝ} {config : Config ℝ}

theorem price_signal_eq_votes (indicators : Indicators ℝ) (config : Config ℝ) :
    (score indicators config).price_signal = macdVote indicators config + rsiVote indicators config +
      bbVote indicators config + vwapVote indicators config := rfl

/-- NaN is clipped to the upper bound: an undefined indicator votes with its whole weight. -/
theorem vote_none (weight : ℝ) (signal : ℝ → ℝ) : vote weight signal none = weight := by
  have top : clip (none : Option ℝ) (-1) 1 = 1 := max_eq_right (by norm_num)
  rw [vote, Option.map_none, top, mul_one]

/-- A value with the signal 0 does not vote. -/
theorem vote_zero (weight : ℝ) {signal : ℝ → ℝ} {value : ℝ} (zero : signal value = 0) :
    vote weight signal (some value) = 0 := by
  have middle : clip (some (0 : ℝ)) (-1) 1 = 0 := by simp [clip]
  rw [vote, Option.map_some, zero, middle, mul_zero]

/-- Without weight any value does for an undefined indicator. -/
theorem vote_getD {weight : ℝ} {signal : ℝ → ℝ} {indicator : Option ℝ} (unweighted : indicator = none → weight = 0)
    (value : ℝ) : vote weight signal (some (indicator.getD value)) = vote weight signal indicator := by
  cases indicator with
  | none => rw [vote, vote, unweighted rfl, zero_mul, zero_mul]
  | some x => rfl

/-- The neutral values are neutral. -/
theorem votes_neutral (config : Config ℝ) :
    (indicators.macd_hist = none → macdVote indicators.neutral config = 0) ∧
      (indicators.rsi = none → rsiVote indicators.neutral config = 0) ∧
      (indicators.bb_percent_b = none → bbVote indicators.neutral config = 0) ∧
      (indicators.vwap_deviation_pct = none → vwapVote indicators.neutral config = 0) := by
  refine ⟨?_, ?_, ?_, ?_⟩
  · intro missing
    rw [macdVote, Indicators.neutral, missing, Option.getD_none]
    exact vote_zero _ (zero_div _)
  · intro missing
    rw [rsiVote, Indicators.neutral, missing, Option.getD_none]
    exact vote_zero _ (by norm_num)
  · intro missing
    rw [bbVote, Indicators.neutral, missing, Option.getD_none]
    exact vote_zero _ (by norm_num)
  · intro missing
    rw [vwapVote, Indicators.neutral, missing, Option.getD_none]
    exact vote_zero _ (zero_div _)

/-- The boost of an undefined volume. -/
theorem volume_boost_of_none (missing : indicators.volume_zscore = none) :
    (score indicators config).volume_boost =
      1 + config.volume_boost_weight * if 0 < config.volume_zscore_cap then 1 else 0 := by
  simp only [score, missing, clip, Option.elim_none]
  split
  case isTrue pos => rw [max_eq_right pos.le, div_self pos.ne']
  case isFalse => rfl

/-- The direction is a function of the price signal and the boost. -/
theorem direction_congr {others : Indicators ℝ}
    (price : (score others config).price_signal = (score indicators config).price_signal)
    (boost : (score others config).volume_boost = (score indicators config).volume_boost) :
    (score others config).direction = (score indicators config).direction := by
  have final : (score others config).final_score = (score indicators config).final_score := by
    have eq : ∀ i : Indicators ℝ, (score i config).final_score =
        clip (some ((score i config).price_signal * (score i config).volume_boost)) (-1) 1 := fun _ => rfl
    rw [eq, eq, price, boost]
  have bull : (score others config).bull_probability = (score indicators config).bull_probability := by
    have eq : ∀ i : Indicators ℝ, (score i config).bull_probability =
        1 / (1 + FloatMath.exp (-(score i config).final_score * config.sensitivity)) := fun _ => rfl
    rw [eq, eq, final]
  have eq : ∀ i : Indicators ℝ, (score i config).direction =
      if config.buy_threshold ≤ (score i config).bull_probability then .BUY_READY
      else if (score i config).bull_probability ≤ config.sell_threshold then .SELL_READY
      else .NEUTRAL := fun _ => rfl
  rw [eq, eq, bull]

/-- Without weight an undefined indicator does not matter. -/
theorem Unweighted.direction_neutral (h : Unweighted indicators config) :
    (score indicators.neutral config).direction = (score indicators config).direction := by
  apply direction_congr
  · have macd : macdVote indicators.neutral config = macdVote indicators config := vote_getD h.macd_hist 0
    have rsi : rsiVote indicators.neutral config = rsiVote indicators config := vote_getD h.rsi 50
    have bb : bbVote indicators.neutral config = bbVote indicators config := vote_getD h.bb_percent_b (1 / 2)
    have vwap : vwapVote indicators.neutral config = vwapVote indicators config := vote_getD h.vwap_deviation_pct 0
    rw [price_signal_eq_votes, price_signal_eq_votes, macd, rsi, bb, vwap]
  · cases here : indicators.volume_zscore with
    | some value => simp [score, Indicators.neutral, here]
    | none =>
      obtain weight | cap := h.volume_zscore here
      · simp [score, weight]
      · simp [score, not_lt.2 cap]

/-- **Undefined indicators do not vote exactly if they have no weight.** -/
theorem noUndefinedVote_iff :
    NoUndefinedVote indicators config (score indicators config) ↔ Unweighted indicators config := by
  constructor
  · intro h
    constructor
    · intro missing
      have signal := h.macd_hist missing
      rw [price_signal_eq_votes, macdVote, missing, vote_none] at signal
      linarith
    · intro missing
      have signal := h.rsi missing
      rw [price_signal_eq_votes, rsiVote, missing, vote_none] at signal
      linarith
    · intro missing
      have signal := h.bb_percent_b missing
      rw [price_signal_eq_votes, bbVote, missing, vote_none] at signal
      linarith
    · intro missing
      have signal := h.vwap_deviation_pct missing
      rw [price_signal_eq_votes, vwapVote, missing, vote_none] at signal
      linarith
    · intro missing
      have boost := h.volume_zscore missing
      rw [volume_boost_of_none missing] at boost
      split at boost
      case isTrue => exact .inl (by linarith)
      case isFalse cap => exact .inr (not_lt.1 cap)
  · intro h
    constructor
    · intro missing
      rw [price_signal_eq_votes, macdVote, missing, vote_none, h.macd_hist missing]
      ring
    · intro missing
      rw [price_signal_eq_votes, rsiVote, missing, vote_none, h.rsi missing]
      ring
    · intro missing
      rw [price_signal_eq_votes, bbVote, missing, vote_none, h.bb_percent_b missing]
      ring
    · intro missing
      rw [price_signal_eq_votes, vwapVote, missing, vote_none, h.vwap_deviation_pct missing]
      ring
    · intro missing
      rw [volume_boost_of_none missing]
      obtain weight | cap := h.volume_zscore missing
      · rw [weight, zero_mul, add_zero]
      · rw [if_neg (not_lt.2 cap), mul_zero, add_zero]
    · exact fun _ => h.direction_neutral

end Votes

namespace DataFrame

/-- No undefined indicator votes in what `main` publishes for the buffer. -/
def MissingIsNeutral (config : Config ℝ) (buffer : Option (List (Row ℝ))) : Prop :=
  ∀ indicators result, signal config buffer = some (indicators, result) → NoUndefinedVote indicators config result

/-- The nulls of the frame leave only such indicators undefined that have no weight. -/
structure HarmlessNulls (config : Config ℝ) (df : List (Row ℝ)) : Prop where
  /-- No two neighbouring closes. -/
  rsi : (∀ i, (df.map Row.close)[i]?.join = none ∨ (df.map Row.close)[i + 1]?.join = none) → config.weight_rsi = 0
  /-- Not enough closes for a band, or a null among the ones it needs. -/
  bb_percent_b : config.bb_period < 2 ∨ df.length < config.bb_period ∨
      none ∈ (df.map Row.close).drop (df.length - config.bb_period) → config.weight_bb = 0
  /-- A null in the newest row. -/
  vwap_deviation_pct : (∀ row ∈ df.getLast?, row.high = none ∨ row.low = none ∨ row.close = none ∨
      row.volume = none) → config.weight_vwap = 0
  /-- Fewer than two volumes in the window, or no newest volume and different ones before it. -/
  volume_zscore :
    let window := Series.present (ilocFrom (-config.volume_zscore_period) (df.map Row.volume))
    window.length < 2 ∨ (Series.last (df.map Row.volume) = none ∧ ∀ dev ∈ std window, tiny < dev) →
      config.volume_boost_weight = 0 ∨ config.volume_zscore_cap ≤ 0

variable {config : Config ℝ} {df : List (Row ℝ)} {indicators : Indicators ℝ}

/-- What the frame says about its indicators. -/
theorem unweighted_iff (computed : computeAll df config = some indicators) :
    Unweighted indicators config ↔ HarmlessNulls config df := by
  obtain ⟨runs, computed⟩ := Option.ite_none_right_eq_some.1 computed
  obtain rfl := Option.some.inj computed
  have macd : macdHist (df.map Row.close) config.macd_fast config.macd_slow config.macd_signal ≠ none := by
    apply macdHist_ne_none
    simp only [computes, Bool.and_eq_true] at runs
    obtain ⟨row, mem, there⟩ := List.any_eq_true.1 runs.1.2
    exact ⟨_, List.mem_map_of_mem mem, Option.isSome_iff_ne_none.1 there⟩
  constructor
  · intro h
    constructor
    · exact fun missing => h.rsi (rsi_eq_none_iff.2 missing)
    · intro missing
      rw [← List.length_map Row.close] at missing
      exact h.bb_percent_b (bbPercentB_eq_none_iff.2 missing)
    · exact fun missing => h.vwap_deviation_pct (vwapDeviationPct_eq_none_iff.2 missing)
    · exact fun missing => h.volume_zscore (volumeZscore_eq_none_iff.2 missing)
  · intro h
    constructor
    · exact fun missing => absurd missing macd
    · exact fun missing => h.rsi (rsi_eq_none_iff.1 missing)
    · intro missing
      have window := bbPercentB_eq_none_iff.1 missing
      rw [List.length_map] at window
      exact h.bb_percent_b window
    · exact fun missing => h.vwap_deviation_pct (vwapDeviationPct_eq_none_iff.1 missing)
    · exact fun missing => h.volume_zscore (volumeZscore_eq_none_iff.1 missing)

/-- A published signal is the score of the indicators of the frame. -/
theorem signal_eq_some_iff {config : Config ℝ} {buffer : Option (List (Row ℝ))} {indicators : Indicators ℝ}
    {result : Score ℝ} : signal config buffer = some (indicators, result) ↔
      ∃ df, getDataframe config buffer = some df ∧ computeAll df config = some indicators ∧
        (config.macd_norm_divisor ≠ 0 ∧ config.vwap_norm_divisor ≠ 0) ∧ result = score indicators config := by
  rw [signal, Option.bind_eq_some_iff]
  refine exists_congr fun df => and_congr_right fun _ => ?_
  rw [Option.bind_eq_some_iff]
  constructor
  · rintro ⟨computed, compute, scored⟩
    obtain ⟨divisors, scored⟩ := Option.ite_none_left_eq_some.1 scored
    obtain ⟨rfl, rfl⟩ := Prod.mk.inj (Option.some.inj scored)
    exact ⟨compute, not_or.1 divisors, rfl⟩
  · rintro ⟨compute, divisors, rfl⟩
    exact ⟨indicators, compute, if_neg (not_or.2 divisors)⟩

/-- **Missing data is neutral exactly when it leaves only indicators without weight undefined**, or
nothing is published. -/
theorem missing_is_neutral_iff (config : Config ℝ) (buffer : Option (List (Row ℝ))) :
    MissingIsNeutral config buffer ↔ ∀ df, getDataframe config buffer = some df → computes df config →
      config.macd_norm_divisor ≠ 0 → config.vwap_norm_divisor ≠ 0 → HarmlessNulls config df := by
  constructor
  · intro h df window runs macd vwap
    obtain ⟨indicators, computed⟩ : ∃ indicators, computeAll df config = some indicators := ⟨_, if_pos runs⟩
    have published : signal config buffer = some (indicators, score indicators config) :=
      signal_eq_some_iff.2 ⟨df, window, computed, ⟨macd, vwap⟩, rfl⟩
    exact (unweighted_iff computed).1 (noUndefinedVote_iff.1 (h _ _ published))
  · intro h indicators result published
    obtain ⟨df, window, computed, ⟨macd, vwap⟩, rfl⟩ := signal_eq_some_iff.1 published
    have runs := (Option.ite_none_right_eq_some.1 computed).1
    exact noUndefinedVote_iff.2 ((unweighted_iff computed).2 (h df window runs macd vwap))

/-- The shipped configuration with a band of 40 candles. -/
noncomputable def longBand : Config ℝ := { Config.shipped with bb_period := 40 }

/-- 30 candles, with all fields. -/
noncomputable def thirtyRows : List (Row ℝ) := List.replicate 30 ⟨0, some 1, some 1, some 1, some 1, some 1⟩

/-- The band is wider than the buffer: a full vote to buy. -/
theorem undefined_band_votes :
    ¬ ∀ (config : Config ℝ) (buffer : Option (List (Row ℝ))), MissingIsNeutral config buffer := by
  intro claim
  have long : thirtyRows.length = 30 := List.length_replicate
  have window : getDataframe longBand (some thirtyRows) = some thirtyRows := by
    rw [getDataframe, Option.bind_some, long]
    exact if_neg (lt_irrefl 30)
  have runs : computes thirtyRows longBand = true := by
    simp [computes, thirtyRows, longBand, Config.shipped]
  obtain ⟨indicators, computed⟩ : ∃ indicators, computeAll thirtyRows longBand = some indicators :=
    ⟨_, if_pos runs⟩
  have published : signal longBand (some thirtyRows) = some (indicators, score indicators longBand) := by
    refine signal_eq_some_iff.2 ⟨thirtyRows, window, computed, ⟨?_, ?_⟩, rfl⟩ <;>
      norm_num [longBand, Config.shipped]
  have harmless := (unweighted_iff computed).1 (noUndefinedVote_iff.1 (claim _ _ _ _ published))
  have weight := harmless.bb_percent_b (.inr (.inl (by rw [long]; decide)))
  norm_num [longBand, Config.shipped] at weight

end DataFrame

end StockAnomaly.AiSignalService

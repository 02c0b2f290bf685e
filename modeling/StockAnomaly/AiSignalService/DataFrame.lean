import StockAnomaly.AiSignalService.Indicators
import StockAnomaly.Theory.Gaps

/-!
# The data frame with its nulls

A buffered candle can have null fields, which are NaN in the data frame. Here `compute_all` is read on
such frames, NaN being `none`: arithmetic passes it on, and it fails every test for a small
denominator. On candles with all fields this is `computeAll` (`computeAll_toRow`). `signal` is what the
loop of `main` publishes for a buffer, if nothing raises.
-/

namespace StockAnomaly.AiSignalService

open StockAnomaly.Theory

variable {K : Type*}

/-- A row of the data frame. -/
structure Row (K : Type*) where
  close_time_ms : ℤ
  «open» : Option K
  high : Option K
  low : Option K
  close : Option K
  volume : Option K

/-- A candle with all fields. -/
def Candle.toRow (c : Candle K) : Row K where
  close_time_ms := c.close_time_ms
  «open» := some c.open
  high := some c.high
  low := some c.low
  close := some c.close
  volume := some c.volume

namespace DataFrame

/-- `get_dataframe`, of the buffer of one series. -/
def getDataframe (config : Config K) (buffer : Option (List (Row K))) : Option (List (Row K)) :=
  buffer.bind fun buf => if buf.length < config.buffer_min_len_for_signal then none else some buf

variable [Field K]

def macdHist (close : Series K) (fast slow signal : ℕ) : Option K :=
  let ema_fast := ewmSpan fast close
  let ema_slow := ewmSpan slow close
  let macd_line := Series.zip (· - ·) ema_fast ema_slow
  let signal_line := ewmSpan signal macd_line
  (Series.zip (· - ·) macd_line signal_line).last

variable [LinearOrder K]

def rsi (close : Series K) (period : ℕ) : Option K :=
  let delta := close.diff
  let gain := delta.mapValues (max 0)
  let loss := delta.mapValues fun x => -min 0 x
  let avg_gain := gain.ewm (1 / (period : K))
  let avg_loss := (loss.ewm (1 / (period : K))).replace 0 tiny
  let rs := Series.zip (· / ·) avg_gain avg_loss
  (rs.mapValues fun rs => 100 - 100 / (1 + rs)).last

/-- The typical price of a row. -/
def typicalPrice (row : Row K) : Option K :=
  (Option.map₂ (· + ·) (Option.map₂ (· + ·) row.high row.low) row.close).map (· / 3)

/-- The column `vwap` of `_vwap_deviation_pct`. -/
def vwap (df : List (Row K)) : Series K :=
  let cum_vol := (Series.runningSum (df.map Row.volume)).replace 0 tiny
  let cum_tp_vol := Series.runningSum (Series.zip (· * ·) (df.map typicalPrice) (df.map Row.volume))
  Series.zip (· / ·) cum_tp_vol cum_vol

def vwapDeviationPct (df : List (Row K)) : Option K :=
  let last_close := Series.last (df.map Row.close)
  (vwap df).last.bind fun last_vwap =>
    if last_vwap ≤ tiny then some 0 else last_close.map fun c => (c - last_vwap) / last_vwap * 100

variable [FloatMath K]

def bbPercentB (close : Series K) (period : ℕ) (stddev : K) : Option K :=
  let sma := close.rolling period Series.mean
  let std := close.rolling period std
  let upper := Series.zip (· + ·) sma (std.mapValues (stddev * ·))
  let lower := Series.zip (· - ·) sma (std.mapValues (stddev * ·))
  (Series.zip (· - ·) upper lower).last.bind fun band_range =>
    if band_range ≤ tiny then some (1 / 2)
    else (Option.map₂ (· - ·) close.last lower.last).map (· / band_range)

/-- The mean and the deviation are those of the present volumes. -/
def volumeZscore (volume : Series K) (period : ℤ) : Option K :=
  let window := Series.present (ilocFrom (-period) volume)
  (std window).bind fun std =>
    if std ≤ tiny then some 0 else (Option.map₂ (· - ·) volume.last (Series.mean window)).map (· / std)

/-- Nothing in `compute_all` raises. Pandas wants a span of at least 1, and Python no division by 0.
A column of nulls alone is no column of numbers: its nulls stay `None`, and subtracting from the last
close or the last volume is a `TypeError`. -/
def computes (df : List (Row K)) (config : Config K) : Bool :=
  1 ≤ config.macd_fast && 1 ≤ config.macd_slow && 1 ≤ config.macd_signal && 1 ≤ config.rsi_period &&
    df.any (·.close.isSome) && df.any (·.volume.isSome)

/-- `compute_all`; `none` if it raises. -/
def computeAll (df : List (Row K)) (config : Config K) : Option (Indicators K) :=
  if computes df config then
    let close := df.map Row.close
    some {
      macd_hist := macdHist close config.macd_fast config.macd_slow config.macd_signal
      rsi := rsi close config.rsi_period
      bb_percent_b := bbPercentB close config.bb_period config.bb_stddev
      vwap_deviation_pct := vwapDeviationPct df
      volume_zscore := volumeZscore (df.map Row.volume) config.volume_zscore_period }
  else none

/-- One round of the loop of `main`: the indicators and the score of a buffer. `score` divides by the
two divisors, whatever it divides. -/
def signal (config : Config K) (buffer : Option (List (Row K))) : Option (Indicators K × Score K) :=
  (getDataframe config buffer).bind fun df => (computeAll df config).bind fun indicators =>
    if config.macd_norm_divisor = 0 ∨ config.vwap_norm_divisor = 0 then none
    else some (indicators, score indicators config)

section Band

variable {close : Series K} {period : ℕ}

omit [LinearOrder K] in
/-- The last entries of the band, from the last rolling mean and the last rolling deviation. -/
theorem last_band (close : Series K) (period : ℕ) (f : K → K → K) (stddev : K) :
    (Series.zip f (close.rolling period Series.mean) ((close.rolling period std).mapValues (stddev * ·))).last =
      Option.map₂ f (close.rolling period Series.mean).last ((close.rolling period std).last.map (stddev * ·)) := by
  rw [Series.last_zip, Series.last_mapValues]
  simp [Series.length_rolling]

theorem bbPercentB_eq (close : Series K) (period : ℕ) (stddev : K) : bbPercentB close period stddev =
    (close.rolling period Series.mean).last.bind fun mean => (close.rolling period std).last.bind fun dev =>
      if mean + stddev * dev - (mean - stddev * dev) ≤ tiny then some (1 / 2)
      else close.last.map fun c =>
        (c - (mean - stddev * dev)) / (mean + stddev * dev - (mean - stddev * dev)) := by
  have same : (Series.zip (· + ·) (close.rolling period Series.mean)
        ((close.rolling period std).mapValues (stddev * ·))).length =
      (Series.zip (· - ·) (close.rolling period Series.mean)
        ((close.rolling period std).mapValues (stddev * ·))).length := by
    simp [Series.zip]
  simp only [bbPercentB]
  rw [Series.last_zip same, last_band, last_band]
  cases (close.rolling period Series.mean).last with
  | none => rfl
  | some mean =>
    cases (close.rolling period std).last with
    | none => rfl
    | some dev => cases close.last <;> rfl

end Band

section Complete

omit [Field K] [LinearOrder K] [FloatMath K] in
theorem exists_last {values : List K} (some_value : values ≠ []) : ∃ x, (Series.ofList values).last = some x :=
  ⟨_, (Series.last_ofList values).trans (List.getLast?_eq_some_getLast some_value)⟩

theorem bbPercentB_ofList (close : List K) (period : ℕ) (stddev : K) :
    bbPercentB (Series.ofList close) period stddev = AiSignalService.bbPercentB close period stddev := by
  have same : (Series.zip (· + ·) ((Series.ofList close).rolling period Series.mean)
        (((Series.ofList close).rolling period std).mapValues (stddev * ·))).length =
      (Series.zip (· - ·) ((Series.ofList close).rolling period Series.mean)
        (((Series.ofList close).rolling period std).mapValues (stddev * ·))).length := by
    simp [Series.zip]
  rw [bbPercentB_eq]
  simp only [AiSignalService.bbPercentB]
  rw [Series.last_zip same, last_band, last_band]
  by_cases some_close : close = []
  · subst some_close
    rfl
  · obtain ⟨c, last⟩ := exists_last some_close
    rw [last]
    cases ((Series.ofList close).rolling period Series.mean).last with
    | none => rfl
    | some mean => cases ((Series.ofList close).rolling period std).last <;> rfl

omit [Field K] [LinearOrder K] [FloatMath K] in
/-- A column that every candle has. -/
theorem column_toRow (df : List (Candle K)) {field : Row K → Option K} {value : Candle K → K}
    (same : ∀ c : Candle K, field c.toRow = some (value c)) :
    (df.map Candle.toRow).map field = Series.ofList (df.map value) := by
  rw [Series.ofList, List.map_map, List.map_map]
  exact List.map_congr_left fun c _ => same c

omit [FloatMath K] in
theorem vwapDeviationPct_toRow (df : List (Candle K)) :
    vwapDeviationPct (df.map Candle.toRow) = AiSignalService.vwapDeviationPct df := by
  have prices : (df.map Candle.toRow).map typicalPrice =
      Series.ofList (df.map fun c => (c.high + c.low + c.close) / 3) := column_toRow df fun _ => rfl
  have volumes : (df.map Candle.toRow).map Row.volume = Series.ofList (df.map Candle.volume) :=
    column_toRow df fun _ => rfl
  have closes : (df.map Candle.toRow).map Row.close = Series.ofList (df.map Candle.close) :=
    column_toRow df fun _ => rfl
  simp only [vwapDeviationPct, vwap, AiSignalService.vwapDeviationPct, prices, volumes, closes, Series.zip_ofList,
    Series.runningSum_ofList]
  by_cases some_candle : df = []
  · subst some_candle
    rfl
  · obtain ⟨c, last⟩ := exists_last (mt List.map_eq_nil_iff.1 some_candle : df.map Candle.close ≠ [])
    rw [last]
    generalize Series.last (Series.zip (fun x y : K => x / y) _ _) = vwap
    cases vwap <;> rfl

theorem volumeZscore_ofList (volume : List K) (period : ℤ) :
    volumeZscore (Series.ofList volume) period = AiSignalService.volumeZscore volume period := by
  have window : ilocFrom (-period) (Series.ofList volume) = Series.ofList (ilocFrom (-period) volume) := by
    simp only [ilocFrom, Series.ofList, List.length_map, List.map_drop]
  simp only [volumeZscore, AiSignalService.volumeZscore, window, Series.present_ofList]
  cases dev : std (ilocFrom (-period) volume) with
  | none => cases Series.mean (ilocFrom (-period) volume) <;> rfl
  | some dev =>
    have two : ¬ (ilocFrom (-period) volume).length < 2 := by
      intro short
      rw [std, Series.sampleVar_eq_none_iff.2 short] at dev
      cases dev
    have some_volume : volume ≠ [] := by
      rintro rfl
      simp [ilocFrom] at two
    obtain ⟨v, last⟩ := exists_last some_volume
    cases mean : Series.mean (ilocFrom (-period) volume) with
    | none =>
      rw [Series.mean_eq_none_iff.1 mean, List.length_nil] at two
      exact absurd (by decide) two
    | some mean =>
      rw [last]
      rfl

/-- On candles with all fields nothing is new. -/
theorem computeAll_toRow {df : List (Candle K)} (some_candle : df ≠ []) {config : Config K}
    (spans : 1 ≤ config.macd_fast ∧ 1 ≤ config.macd_slow ∧ 1 ≤ config.macd_signal) (period : 1 ≤ config.rsi_period) :
    computeAll (df.map Candle.toRow) config = AiSignalService.computeAll df config := by
  obtain ⟨c, rest, rfl⟩ := List.exists_cons_of_ne_nil some_candle
  have runs : computes ((c :: rest).map Candle.toRow) config = true := by
    simp [computes, spans, period, Candle.toRow]
  have closes : ((c :: rest).map Candle.toRow).map Row.close = Series.ofList ((c :: rest).map Candle.close) :=
    column_toRow _ fun _ => rfl
  have volumes : ((c :: rest).map Candle.toRow).map Row.volume = Series.ofList ((c :: rest).map Candle.volume) :=
    column_toRow _ fun _ => rfl
  rw [computeAll, if_pos runs, AiSignalService.computeAll, if_neg (by simp), closes, volumes]
  dsimp only
  rw [bbPercentB_ofList, vwapDeviationPct_toRow, volumeZscore_ofList]
  rfl

end Complete

end DataFrame

end StockAnomaly.AiSignalService

import Mathlib.Algebra.Order.Field.Basic
import Mathlib.Tactic.Positivity
import StockAnomaly.Theory.Numerals
import StockAnomaly.Theory.Series

/-!
# The indicators and the score

`Config` has the shipped values of `config.yaml`. A float is `none` where the code computes
NaN; no denominator is zero, since the code replaces or tests each of them.
-/

namespace StockAnomaly.AiSignalService

open StockAnomaly.Theory

/-- The functions of `math` and of numpy that the service calls. -/
class FloatMath (K : Type*) where
  sqrt : K → K
  exp : K → K

structure Config (K : Type*) where
  buffer_max_len : ℕ
  buffer_min_len_for_signal : ℕ
  macd_fast : ℕ
  macd_slow : ℕ
  macd_signal : ℕ
  macd_norm_divisor : K
  rsi_period : ℕ
  bb_period : ℕ
  bb_stddev : K
  vwap_norm_divisor : K
  volume_zscore_period : ℤ
  volume_zscore_cap : K
  weight_macd : K
  weight_rsi : K
  weight_bb : K
  weight_vwap : K
  volume_boost_weight : K
  sensitivity : K
  buy_threshold : K
  sell_threshold : K

/-- A row of the data frame; `get_dataframe` passes the buffered candles. -/
structure Candle (K : Type*) where
  close_time_ms : ℤ
  «open» : K
  high : K
  low : K
  close : K
  volume : K

/-- The five values `compute_all` returns. -/
structure Indicators (K : Type*) where
  macd_hist : Option K
  rsi : Option K
  bb_percent_b : Option K
  vwap_deviation_pct : Option K
  volume_zscore : Option K

inductive Direction
  | BUY_READY
  | SELL_READY
  | NEUTRAL
deriving DecidableEq

structure Score (K : Type*) where
  price_signal : K
  volume_boost : K
  final_score : K
  bull_probability : K
  bear_probability : K
  direction : Direction

/-- `values.iloc[start:]`: a negative start counts from the end. -/
def ilocFrom {α : Type*} (start : ℤ) (values : List α) : List α :=
  values.drop (if start < 0 then values.length + start else start).toNat

variable {K : Type*} [Field K]

/-- `config.yaml`. -/
def Config.shipped : Config K where
  buffer_max_len := 60
  buffer_min_len_for_signal := 30
  macd_fast := 12
  macd_slow := 26
  macd_signal := 9
  macd_norm_divisor := 500
  rsi_period := 14
  bb_period := 20
  bb_stddev := 2
  vwap_norm_divisor := 3
  volume_zscore_period := 20
  volume_zscore_cap := 5
  weight_macd := 30 / 100
  weight_rsi := 25 / 100
  weight_bb := 25 / 100
  weight_vwap := 20 / 100
  volume_boost_weight := 5 / 10
  sensitivity := 4
  buy_threshold := 65 / 100
  sell_threshold := 35 / 100

/-- `ewm(span=span, adjust=False).mean()`. -/
def ewmSpan (span : ℕ) (s : Series K) : Series K := s.ewm (2 / (span + 1))

def macdHist (close : List K) (fast slow signal : ℕ) : Option K :=
  let ema_fast := ewmSpan fast (Series.ofList close)
  let ema_slow := ewmSpan slow (Series.ofList close)
  let macd_line := Series.zip (· - ·) ema_fast ema_slow
  let signal_line := ewmSpan signal macd_line
  (Series.zip (· - ·) macd_line signal_line).last

/-- The average loss without zeros: `1e-9` stands in for them. -/
def tiny : K := 1 / 10 ^ 9

variable [LinearOrder K]

theorem tiny_pos [IsStrictOrderedRing K] : (0 : K) < tiny := by
  rw [tiny]
  positivity

def rsi (close : List K) (period : ℕ) : Option K :=
  let delta := (Series.ofList close).diff
  let gain := delta.mapValues (max 0)
  let loss := delta.mapValues fun x => -min 0 x
  let avg_gain := gain.ewm (1 / (period : K))
  let avg_loss := (loss.ewm (1 / (period : K))).replace 0 tiny
  let rs := Series.zip (· / ·) avg_gain avg_loss
  (rs.mapValues fun rs => 100 - 100 / (1 + rs)).last

def vwapDeviationPct (df : List (Candle K)) : Option K :=
  let typical := df.map fun c => (c.high + c.low + c.close) / 3
  let cum_vol := (Series.ofList (Series.cumsum (df.map Candle.volume))).replace 0 tiny
  let cum_tp_vol := Series.ofList (Series.cumsum (List.zipWith (· * ·) typical (df.map Candle.volume)))
  let vwap := Series.zip (· / ·) cum_tp_vol cum_vol
  match vwap.last, (Series.ofList (df.map Candle.close)).last with
  | some last_vwap, some last_close =>
    if last_vwap ≤ tiny then some 0 else some ((last_close - last_vwap) / last_vwap * 100)
  | _, _ => none

variable [FloatMath K]

/-- `Series.std()`. -/
def std (values : List K) : Option K := (Series.sampleVar values).map FloatMath.sqrt

def bbPercentB (close : List K) (period : ℕ) (stddev : K) : Option K :=
  let sma := (Series.ofList close).rolling period Series.mean
  let std := (Series.ofList close).rolling period std
  let upper := Series.zip (· + ·) sma (std.mapValues (stddev * ·))
  let lower := Series.zip (· - ·) sma (std.mapValues (stddev * ·))
  match (Series.zip (· - ·) upper lower).last, lower.last, (Series.ofList close).last with
  | some band_range, some lower, some close =>
    if band_range ≤ tiny then some (1 / 2) else some ((close - lower) / band_range)
  | _, _, _ => none

def volumeZscore (volume : List K) (period : ℤ) : Option K :=
  let window := ilocFrom (-period) volume
  match Series.mean window, std window, (Series.ofList volume).last with
  | some mean, some std, some last => if std ≤ tiny then some 0 else some ((last - mean) / std)
  | _, _, _ => none

/-- `compute_all`; `none` is the `IndexError` of `iloc[-1]` on an empty frame. -/
def computeAll (df : List (Candle K)) (config : Config K) : Option (Indicators K) :=
  if df.isEmpty then none
  else
    let close := df.map Candle.close
    some {
      macd_hist := macdHist close config.macd_fast config.macd_slow config.macd_signal
      rsi := rsi close config.rsi_period
      bb_percent_b := bbPercentB close config.bb_period config.bb_stddev
      vwap_deviation_pct := vwapDeviationPct df
      volume_zscore := volumeZscore (df.map Candle.volume) config.volume_zscore_period }

omit [Field K] [FloatMath K] in
/-- `_clip`: Python's `min(hi, x)` is `hi` when `x` is NaN. -/
def clip (x : Option K) (lo hi : K) : K :=
  max lo (x.elim hi (min hi))

def score (indicators : Indicators K) (config : Config K) : Score K :=
  let macd_signal := clip (indicators.macd_hist.map (· / config.macd_norm_divisor)) (-1) 1
  let rsi_signal := clip (indicators.rsi.map fun rsi => (rsi - 50) / 50) (-1) 1
  let bb_signal := clip (indicators.bb_percent_b.map fun bb => (bb - 1 / 2) * 2) (-1) 1
  let vwap_signal := clip (indicators.vwap_deviation_pct.map (· / config.vwap_norm_divisor)) (-1) 1
  let price_signal := config.weight_macd * macd_signal + config.weight_rsi * rsi_signal +
    config.weight_bb * bb_signal + config.weight_vwap * vwap_signal
  let vol_z_clipped := clip indicators.volume_zscore 0 config.volume_zscore_cap
  let boost_ratio := if 0 < config.volume_zscore_cap then vol_z_clipped / config.volume_zscore_cap else 0
  let volume_boost := 1 + config.volume_boost_weight * boost_ratio
  let final_score := clip (some (price_signal * volume_boost)) (-1) 1
  let bull_probability := 1 / (1 + FloatMath.exp (-final_score * config.sensitivity))
  { price_signal := price_signal
    volume_boost := volume_boost
    final_score := final_score
    bull_probability := bull_probability
    bear_probability := 1 - bull_probability
    direction :=
      if config.buy_threshold ≤ bull_probability then .BUY_READY
      else if bull_probability ≤ config.sell_threshold then .SELL_READY
      else .NEUTRAL }

end StockAnomaly.AiSignalService

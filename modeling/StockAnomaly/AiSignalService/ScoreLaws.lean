import Mathlib.Analysis.SpecialFunctions.Sigmoid
import StockAnomaly.AiSignalService.FlatMarket

/-!
# The laws of the score

On exact readings, in real arithmetic, the score treats rising and falling prices alike
(`score_mirror`), and keeps the roles of its inputs apart: the price indicators vote, the volume
amplifies (**`score_roles`**).
-/

namespace StockAnomaly.AiSignalService

/-- Five indicators that are numbers. -/
structure Reading where
  macd_hist : ℝ
  rsi : ℝ
  bb_percent_b : ℝ
  vwap_deviation_pct : ℝ
  volume_zscore : ℝ

namespace Reading

def indicators (r : Reading) : Indicators ℝ where
  macd_hist := some r.macd_hist
  rsi := some r.rsi
  bb_percent_b := some r.bb_percent_b
  vwap_deviation_pct := some r.vwap_deviation_pct
  volume_zscore := some r.volume_zscore

/-- Rising prices for falling ones, at the same volume. -/
def mirror (r : Reading) : Reading where
  macd_hist := -r.macd_hist
  rsi := 100 - r.rsi
  bb_percent_b := 1 - r.bb_percent_b
  vwap_deviation_pct := -r.vwap_deviation_pct
  volume_zscore := r.volume_zscore

/-- The same prices at another volume. -/
def withVolume (r : Reading) (volume_zscore : ℝ) : Reading := { r with volume_zscore }

/-- No price indicator is lower, at the same volume. -/
structure PriceLE (r s : Reading) : Prop where
  macd_hist : r.macd_hist ≤ s.macd_hist
  rsi : r.rsi ≤ s.rsi
  bb_percent_b : r.bb_percent_b ≤ s.bb_percent_b
  vwap_deviation_pct : r.vwap_deviation_pct ≤ s.vwap_deviation_pct
  volume_zscore : r.volume_zscore = s.volume_zscore

end Reading

attribute [ext] Score

def Direction.opposite : Direction → Direction
  | .BUY_READY => .SELL_READY
  | .SELL_READY => .BUY_READY
  | .NEUTRAL => .NEUTRAL

/-- The same confidence in the other direction. -/
def Score.opposite (result : Score ℝ) : Score ℝ where
  price_signal := -result.price_signal
  volume_boost := result.volume_boost
  final_score := -result.final_score
  bull_probability := result.bear_probability
  bear_probability := result.bull_probability
  direction := result.direction.opposite

section Clip

variable {x y lo hi : ℝ}

theorem clip_some (x lo hi : ℝ) : clip (some x) lo hi = max lo (min hi x) := rfl

theorem clip_le_clip (le : x ≤ y) : clip (some x) lo hi ≤ clip (some y) lo hi :=
  max_le_max_left lo (min_le_min_left hi le)

theorem clip_neg (x : ℝ) : clip (some (-x)) (-1) 1 = -clip (some x) (-1) 1 := by
  have low : min (1 : ℝ) (-1) = -1 := min_eq_right (by norm_num)
  calc max (-1) (min 1 (-x)) = max (-1) (-max (-1) x) := by rw [← min_neg_neg, neg_neg]
    _ = -min 1 (max (-1) x) := max_neg_neg 1 _
    _ = -max (-1) (min 1 x) := by rw [min_max_distrib_left, low]

/-- Clipping bounds the size and keeps the side. -/
theorem abs_clip (x : ℝ) : |clip (some x) (-1) 1| = min 1 |x| := by
  have nonneg {x : ℝ} (h : 0 ≤ x) : |clip (some x) (-1) 1| = min 1 |x| := by
    have clipped : 0 ≤ min 1 x := le_min zero_le_one h
    rw [clip_some, max_eq_right (by linarith), abs_of_nonneg clipped, abs_of_nonneg h]
  rcases le_total 0 x with h | h
  · exact nonneg h
  · have other := nonneg (neg_nonneg.2 h)
    rwa [clip_neg, abs_neg, abs_neg] at other

theorem clip_pos_iff : 0 < clip (some x) (-1) 1 ↔ 0 < x := by
  have low : ¬ (0 : ℝ) < -1 := by norm_num
  rw [clip_some, lt_max_iff, lt_min_iff, or_iff_right low, and_iff_right one_pos]

theorem sign_clip (x : ℝ) : SignType.sign (clip (some x) (-1) 1) = SignType.sign x := by
  rcases lt_trichotomy x 0 with neg | rfl | pos
  · have clipped := clip_pos_iff.2 (neg_pos.2 neg)
    rw [clip_neg, neg_pos] at clipped
    rw [sign_neg neg, sign_neg clipped]
  · rw [← abs_eq_zero.1 ((abs_clip 0).trans (by simp))]
    simp [clip]
  · rw [sign_pos pos, sign_pos (clip_pos_iff.2 pos)]

end Clip

section Score

variable {config : Config ℝ} {r s : Reading}

/-- `volume_boost` of a reading. -/
noncomputable def boost (config : Config ℝ) (volume_zscore : ℝ) : ℝ :=
  1 + config.volume_boost_weight * if 0 < config.volume_zscore_cap then
    clip (some volume_zscore) 0 config.volume_zscore_cap / config.volume_zscore_cap else 0

theorem final_score_eq (r : Reading) (config : Config ℝ) : (score r.indicators config).final_score =
    clip (some ((score r.indicators config).price_signal * boost config r.volume_zscore)) (-1) 1 := rfl

theorem bull_probability_eq (r : Reading) (config : Config ℝ) : (score r.indicators config).bull_probability =
    Real.sigmoid ((score r.indicators config).final_score * config.sensitivity) := by
  rw [Real.sigmoid_def, ← neg_mul, ← one_div]
  rfl

theorem direction_eq (r : Reading) (config : Config ℝ) : (score r.indicators config).direction =
    if config.buy_threshold ≤ (score r.indicators config).bull_probability then .BUY_READY
    else if (score r.indicators config).bull_probability ≤ config.sell_threshold then .SELL_READY
    else .NEUTRAL := rfl

theorem price_signal_withVolume (r : Reading) (z : ℝ) (config : Config ℝ) :
    (score (r.withVolume z).indicators config).price_signal = (score r.indicators config).price_signal := rfl

/-- Each price signal is odd about its own centre. -/
theorem price_signal_mirror (r : Reading) (config : Config ℝ) :
    (score r.mirror.indicators config).price_signal = -(score r.indicators config).price_signal := by
  have rsi : (100 - r.rsi - 50) / 50 = -((r.rsi - 50) / 50) := by ring
  have bb : (1 - r.bb_percent_b - 1 / 2) * 2 = -((r.bb_percent_b - 1 / 2) * 2) := by ring
  simp only [score, Reading.mirror, Reading.indicators, Option.map_some, neg_div, rsi, bb, clip_neg]
  ring

theorem final_score_mirror (r : Reading) (config : Config ℝ) :
    (score r.mirror.indicators config).final_score = -(score r.indicators config).final_score := by
  rw [final_score_eq, price_signal_mirror, neg_mul, clip_neg]
  rfl

theorem bull_probability_mirror (r : Reading) (config : Config ℝ) :
    (score r.mirror.indicators config).bull_probability = 1 - (score r.indicators config).bull_probability := by
  rw [bull_probability_eq, final_score_mirror, neg_mul, Real.sigmoid_neg, bull_probability_eq]

/-- **The scorer treats bulls and bears alike.** -/
theorem score_mirror (config : Config ℝ) (_ : config.macd_norm_divisor ≠ 0) (_ : config.vwap_norm_divisor ≠ 0)
    (symmetric : config.sell_threshold = 1 - config.buy_threshold) (above : 1 / 2 < config.buy_threshold)
    (r : Reading) : score r.mirror.indicators config = (score r.indicators config).opposite := by
  have bull := bull_probability_mirror r config
  have bear : (score r.mirror.indicators config).bear_probability = (score r.indicators config).bull_probability :=
    (congrArg (1 - ·) bull).trans (sub_sub_cancel 1 _)
  have direction : (score r.mirror.indicators config).direction =
      (score r.indicators config).direction.opposite := by
    rw [direction_eq, direction_eq, bull, symmetric]
    generalize (score r.indicators config).bull_probability = p
    rcases lt_or_ge p config.buy_threshold with low | buy
    · rcases le_or_gt p (1 - config.buy_threshold) with sell | middle
      · rw [if_pos (by linarith), if_neg low.not_ge, if_pos sell]
        rfl
      · rw [if_neg (by linarith), if_neg (by linarith), if_neg low.not_ge, if_neg middle.not_ge]
        rfl
    · rw [if_neg (by linarith), if_pos (by linarith), if_pos buy]
      rfl
  exact Score.ext (price_signal_mirror r config) rfl (final_score_mirror r config) bull bear direction

/-- Prices rise on high volume. -/
noncomputable def rising : Reading := ⟨250, 65, 4 / 5, 1, 2⟩

theorem score_mirror_shipped :
    score rising.mirror.indicators Config.shipped = (score rising.indicators Config.shipped).opposite :=
  score_mirror Config.shipped (show (500 : ℝ) ≠ 0 by norm_num) (show (3 : ℝ) ≠ 0 by norm_num)
    (show (35 / 100 : ℝ) = 1 - 65 / 100 by norm_num) (show (1 / 2 : ℝ) < 65 / 100 by norm_num) rising

/-- Positive divisors, no negative weight, and thresholds on both sides of one half. -/
structure Config.Sensible (config : Config ℝ) : Prop where
  macd_norm_divisor : 0 < config.macd_norm_divisor
  vwap_norm_divisor : 0 < config.vwap_norm_divisor
  weight_macd : 0 ≤ config.weight_macd
  weight_rsi : 0 ≤ config.weight_rsi
  weight_bb : 0 ≤ config.weight_bb
  weight_vwap : 0 ≤ config.weight_vwap
  volume_boost_weight : 0 ≤ config.volume_boost_weight
  sensitivity : 0 ≤ config.sensitivity
  sell_threshold : config.sell_threshold < 1 / 2
  buy_threshold : 1 / 2 < config.buy_threshold

theorem boost_mono (sensible : config.Sensible) {z w : ℝ} (le : z ≤ w) : boost config z ≤ boost config w := by
  refine add_le_add_right (mul_le_mul_of_nonneg_left ?_ sensible.volume_boost_weight) 1
  split_ifs with cap
  · exact div_le_div_of_nonneg_right (clip_le_clip le) cap.le
  · exact le_rfl

theorem one_le_boost (sensible : config.Sensible) (z : ℝ) : 1 ≤ boost config z := by
  apply le_add_of_nonneg_right
  apply mul_nonneg sensible.volume_boost_weight
  split_ifs with cap
  · exact div_nonneg (clip_mem (some z) cap.le).1 cap.le
  · exact le_rfl

theorem price_signal_mono (sensible : config.Sensible) (le : r.PriceLE s) :
    (score r.indicators config).price_signal ≤ (score s.indicators config).price_signal := by
  have macd := div_le_div_of_nonneg_right le.macd_hist sensible.macd_norm_divisor.le
  have vwap := div_le_div_of_nonneg_right le.vwap_deviation_pct sensible.vwap_norm_divisor.le
  have rsi : (r.rsi - 50) / 50 ≤ (s.rsi - 50) / 50 := by linarith [le.rsi]
  have bb : (r.bb_percent_b - 1 / 2) * 2 ≤ (s.bb_percent_b - 1 / 2) * 2 := by linarith [le.bb_percent_b]
  refine add_le_add (add_le_add (add_le_add ?_ ?_) ?_) ?_
  · exact mul_le_mul_of_nonneg_left (clip_le_clip macd) sensible.weight_macd
  · exact mul_le_mul_of_nonneg_left (clip_le_clip rsi) sensible.weight_rsi
  · exact mul_le_mul_of_nonneg_left (clip_le_clip bb) sensible.weight_bb
  · exact mul_le_mul_of_nonneg_left (clip_le_clip vwap) sensible.weight_vwap

theorem sign_final_score (sensible : config.Sensible) (r : Reading) :
    SignType.sign (score r.indicators config).final_score =
      SignType.sign (score r.indicators config).price_signal := by
  have amplified : 0 < boost config r.volume_zscore := one_pos.trans_le (one_le_boost sensible _)
  rw [final_score_eq, sign_clip, sign_mul, sign_pos amplified, mul_one]

/-- More volume, more confidence. -/
theorem abs_final_score_le (sensible : config.Sensible) (r : Reading) {z : ℝ} (le : r.volume_zscore ≤ z) :
    |(score r.indicators config).final_score| ≤
      |(score (r.withVolume z).indicators config).final_score| := by
  have amplified : 0 ≤ boost config r.volume_zscore := zero_le_one.trans (one_le_boost sensible _)
  have size : |boost config r.volume_zscore| ≤ |boost config z| :=
    abs_le_abs_of_nonneg amplified (boost_mono sensible le)
  rw [final_score_eq, final_score_eq, abs_clip, abs_clip, abs_mul, abs_mul]
  exact min_le_min_left 1 (mul_le_mul_of_nonneg_left size (abs_nonneg _))

theorem bull_probability_le (sensible : config.Sensible)
    (le : (score r.indicators config).final_score ≤ (score s.indicators config).final_score) :
    (score r.indicators config).bull_probability ≤ (score s.indicators config).bull_probability := by
  rw [bull_probability_eq, bull_probability_eq]
  exact Real.sigmoid_le (mul_le_mul_of_nonneg_right le sensible.sensitivity)

/-- A probability above one half needs a positive score. -/
theorem final_score_pos (sensible : config.Sensible) (bull : 1 / 2 < (score r.indicators config).bull_probability) :
    0 < (score r.indicators config).final_score := by
  by_contra nonpos
  have le := Real.sigmoid_le (mul_nonpos_of_nonpos_of_nonneg (not_lt.1 nonpos) sensible.sensitivity)
  rw [bull_probability_eq] at bull
  rw [Real.sigmoid_zero] at le
  linarith

theorem final_score_neg (sensible : config.Sensible) (bull : (score r.indicators config).bull_probability < 1 / 2) :
    (score r.indicators config).final_score < 0 := by
  by_contra nonneg
  have le := Real.sigmoid_le (mul_nonneg (not_lt.1 nonneg) sensible.sensitivity)
  rw [bull_probability_eq] at bull
  rw [Real.sigmoid_zero] at le
  linarith

theorem direction_eq_buy_iff : (score r.indicators config).direction = .BUY_READY ↔
    config.buy_threshold ≤ (score r.indicators config).bull_probability := by
  rw [direction_eq]
  split_ifs <;> simp_all

theorem direction_eq_sell_iff (sensible : config.Sensible) : (score r.indicators config).direction = .SELL_READY ↔
    (score r.indicators config).bull_probability ≤ config.sell_threshold := by
  have sell := sensible.sell_threshold
  have buy := sensible.buy_threshold
  rw [direction_eq]
  split_ifs with above below
  · exact iff_of_false nofun (by linarith)
  · exact iff_of_true rfl below
  · exact iff_of_false nofun below

theorem price_signal_pos (sensible : config.Sensible) (buys : (score r.indicators config).direction = .BUY_READY) :
    0 < (score r.indicators config).price_signal := by
  have bull := sensible.buy_threshold.trans_le (direction_eq_buy_iff.1 buys)
  rw [← sign_eq_one_iff, ← sign_final_score sensible, sign_eq_one_iff]
  exact final_score_pos sensible bull

theorem price_signal_neg (sensible : config.Sensible) (sells : (score r.indicators config).direction = .SELL_READY) :
    (score r.indicators config).price_signal < 0 := by
  have bull := ((direction_eq_sell_iff sensible).1 sells).trans_lt sensible.sell_threshold
  rw [← sign_eq_neg_one_iff, ← sign_final_score sensible, sign_eq_neg_one_iff]
  exact final_score_neg sensible bull

/-- A buy stays a buy when the volume rises. -/
theorem buy_of_more_volume (sensible : config.Sensible) {z : ℝ} (le : r.volume_zscore ≤ z)
    (buys : (score r.indicators config).direction = .BUY_READY) :
    (score (r.withVolume z).indicators config).direction = .BUY_READY := by
  have after : 0 < (score (r.withVolume z).indicators config).final_score := by
    rw [← sign_eq_one_iff, sign_final_score sensible, sign_eq_one_iff, price_signal_withVolume]
    exact price_signal_pos sensible buys
  have size := abs_final_score_le sensible r le
  rw [abs_of_pos after] at size
  have bull := bull_probability_le sensible ((le_abs_self _).trans size)
  exact direction_eq_buy_iff.2 ((direction_eq_buy_iff.1 buys).trans bull)

theorem sell_of_more_volume (sensible : config.Sensible) {z : ℝ} (le : r.volume_zscore ≤ z)
    (sells : (score r.indicators config).direction = .SELL_READY) :
    (score (r.withVolume z).indicators config).direction = .SELL_READY := by
  have after : (score (r.withVolume z).indicators config).final_score < 0 := by
    rw [← sign_eq_neg_one_iff, sign_final_score sensible, sign_eq_neg_one_iff, price_signal_withVolume]
    exact price_signal_neg sensible sells
  have size := abs_final_score_le sensible r le
  rw [abs_of_neg after] at size
  have bull := bull_probability_le sensible (neg_le_neg_iff.1 ((neg_le_abs _).trans size))
  exact (direction_eq_sell_iff sensible).2 (bull.trans ((direction_eq_sell_iff sensible).1 sells))

/-- What each input does to the score. -/
structure Roles (config : Config ℝ) : Prop where
  bounded : ∀ r : Reading, (score r.indicators config).final_score ∈ Set.Icc (-1) 1
  side : ∀ r : Reading, SignType.sign (score r.indicators config).final_score =
    SignType.sign (score r.indicators config).price_signal
  amplifies : ∀ (r : Reading) (z : ℝ), r.volume_zscore ≤ z → |(score r.indicators config).final_score| ≤
    |(score (r.withVolume z).indicators config).final_score|
  keeps : ∀ (r : Reading) (z : ℝ), r.volume_zscore ≤ z → (score r.indicators config).direction ≠ .NEUTRAL →
    (score (r.withVolume z).indicators config).direction = (score r.indicators config).direction
  never_against : ∀ r : Reading,
    ((score r.indicators config).direction = .BUY_READY → 0 < (score r.indicators config).price_signal) ∧
      ((score r.indicators config).direction = .SELL_READY → (score r.indicators config).price_signal < 0)
  evidence : ∀ r s : Reading, r.PriceLE s →
    (score r.indicators config).bull_probability ≤ (score s.indicators config).bull_probability

/-- **The price indicators vote and the volume amplifies.** -/
theorem score_roles (sensible : config.Sensible) : Roles config where
  bounded r := clip_mem _ (by norm_num)
  side := sign_final_score sensible
  amplifies r z := abs_final_score_le sensible r
  keeps := by
    intro r z le ready
    cases direction : (score r.indicators config).direction with
    | BUY_READY => exact buy_of_more_volume sensible le direction
    | SELL_READY => exact sell_of_more_volume sensible le direction
    | NEUTRAL => exact absurd direction ready
  never_against r := ⟨price_signal_pos sensible, price_signal_neg sensible⟩
  evidence := by
    intro r s le
    apply bull_probability_le sensible
    rw [final_score_eq, final_score_eq, le.volume_zscore]
    have amplified : 0 ≤ boost config s.volume_zscore := zero_le_one.trans (one_le_boost sensible _)
    exact clip_le_clip (mul_le_mul_of_nonneg_right (price_signal_mono sensible le) amplified)

theorem sensible_shipped : (Config.shipped : Config ℝ).Sensible := by
  constructor <;> simp only [Config.shipped] <;> norm_num

theorem score_roles_shipped : Roles Config.shipped := score_roles sensible_shipped

end Score

end StockAnomaly.AiSignalService

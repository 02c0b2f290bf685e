import Mathlib.Data.Set.Finite.Lemmas
import Mathlib.Tactic.Linarith
import StockAnomaly.AiSignalService.Indicators
import StockAnomaly.Theory.WeightedMean

/-!
# The volume-weighted price of the window

`_vwap_deviation_pct` divides two running sums, with `1e-9` for a running volume that is still 0.
At the end of a window with some volume nothing of that is left: the last price is the weighted mean
of the typical prices, and lies between the prices of the candles that were traded
(**`vwap_within_traded_range`**).
-/

namespace StockAnomaly.AiSignalService

open StockAnomaly.Theory

variable {K : Type*} [Field K]

/-- The typical price of a candle. -/
def typical (c : Candle K) : K := (c.high + c.low + c.close) / 3

/-- What was traded in the window. -/
def totalVolume (df : List (Candle K)) : K := (df.map Candle.volume).sum

variable [LinearOrder K]

/-- The column `vwap` of `_vwap_deviation_pct`. -/
def vwap (df : List (Candle K)) : Series K :=
  let cum_vol := (Series.ofList (Series.cumsum (df.map Candle.volume))).replace 0 tiny
  let cum_tp_vol := Series.ofList
    (Series.cumsum (List.zipWith (· * ·) (df.map typical) (df.map Candle.volume)))
  Series.zip (· / ·) cum_tp_vol cum_vol

/-- The candles with some volume. -/
def traded (df : List (Candle K)) : List (Candle K) := df.filter (0 < ·.volume)

/-- A candle with a low, a close and a high in this order, and a volume. -/
structure Candle.Regular (c : Candle K) : Prop where
  low_pos : 0 < c.low
  low_le_close : c.low ≤ c.close
  close_le_high : c.close ≤ c.high
  volume_nonneg : 0 ≤ c.volume

variable {df : List (Candle K)}

theorem vwapDeviationPct_eq {last_vwap last_close : K} (vwap_last : (vwap df).last = some last_vwap)
    (close_last : (Series.ofList (df.map Candle.close)).last = some last_close) :
    vwapDeviationPct df = if last_vwap ≤ tiny then some 0
      else some ((last_close - last_vwap) / last_vwap * 100) := by
  unfold vwap typical at vwap_last
  simp only [vwapDeviationPct, vwap_last, close_last]

/-- The last prefix is the whole window. -/
theorem last_vwap (some_candle : df ≠ []) : (vwap df).last = some
    ((df.map fun c => typical c * c.volume).sum / if totalVolume df = 0 then tiny else totalVolume df) := by
  have volumes : (Series.ofList (Series.cumsum (df.map Candle.volume))).last = some (totalVolume df) := by
    rw [Series.last_ofList, Series.getLast?_cumsum (by simpa using some_candle), totalVolume]
  have amounts : (Series.ofList (Series.cumsum
      (List.zipWith (· * ·) (df.map typical) (df.map Candle.volume)))).last =
        some (df.map fun c => typical c * c.volume).sum := by
    rw [Series.last_ofList, Series.getLast?_cumsum (by simpa using some_candle), List.zipWith_map,
      List.zipWith_self]
  rw [vwap, Series.last_zip, amounts, Series.replace, Series.last_mapValues, volumes]
  · rfl
  · simp [Series.replace, Series.ofList, Series.length_cumsum]

/-- With some volume the substitute is not used. -/
theorem last_vwap_of_volume (some_volume : totalVolume df ≠ 0) :
    (vwap df).last = some (weightedMean Candle.volume typical df) := by
  have some_candle : df ≠ [] := by
    rintro rfl
    exact some_volume rfl
  rw [last_vwap some_candle, if_neg some_volume]
  rfl

variable [IsStrictOrderedRing K]

theorem Candle.Regular.typical_mem {c : Candle K} (regular : c.Regular) :
    c.low ≤ typical c ∧ typical c ≤ c.high := by
  have low := regular.low_le_close
  have high := regular.close_le_high
  constructor
  · rw [typical, le_div_iff₀ three_pos]
    linarith
  · rw [typical, div_le_iff₀ three_pos]
    linarith

/-- **VWAP stays within the traded range.** -/
theorem vwap_within_traded_range (df : List (Candle K)) (some_candle : df ≠ [])
    (regular : ∀ c ∈ df, c.Regular) :
    (0 < totalVolume df → ∃ last_vwap, (vwap df).last = some last_vwap ∧
      last_vwap = weightedMean Candle.volume typical df ∧
      (∃ lowest ∈ traded df, (∀ c ∈ traded df, lowest.low ≤ c.low) ∧ lowest.low ≤ last_vwap) ∧
      (∃ highest ∈ traded df, (∀ c ∈ traded df, c.high ≤ highest.high) ∧ last_vwap ≤ highest.high) ∧
      (tiny < last_vwap → vwapDeviationPct df =
        some (((df.getLast some_candle).close - last_vwap) / last_vwap * 100))) ∧
    (totalVolume df = 0 → vwapDeviationPct df = some 0) := by
  have close_last : (Series.ofList (df.map Candle.close)).last = some (df.getLast some_candle).close := by
    rw [Series.last_ofList, List.getLast?_map, List.getLast?_eq_some_getLast some_candle, Option.map_some]
  have volumes : ∀ c ∈ df, 0 ≤ c.volume := fun c mem => (regular c mem).volume_nonneg
  have mem_traded : ∀ c, c ∈ traded df ↔ c ∈ df ∧ 0 < c.volume := by
    intro c
    rw [traded, List.mem_filter, decide_eq_true_iff]
  constructor
  · intro some_volume
    have some_traded : {c | c ∈ traded df}.Nonempty := by
      obtain ⟨c, mem, pos⟩ := exists_weight_pos some_volume
      exact ⟨c, (mem_traded c).2 ⟨mem, pos⟩⟩
    refine ⟨_, last_vwap_of_volume some_volume.ne', rfl, ?_, ?_, ?_⟩
    · obtain ⟨lowest, mem, least⟩ := Set.exists_min_image _ Candle.low (traded df).finite_toSet some_traded
      refine ⟨lowest, mem, least, le_weightedMean volumes some_volume fun c mem pos => ?_⟩
      have above := least c ((mem_traded c).2 ⟨mem, pos⟩)
      exact above.trans (regular c mem).typical_mem.1
    · obtain ⟨highest, mem, greatest⟩ := Set.exists_max_image _ Candle.high (traded df).finite_toSet some_traded
      refine ⟨highest, mem, greatest, weightedMean_le volumes some_volume fun c mem pos => ?_⟩
      have below := greatest c ((mem_traded c).2 ⟨mem, pos⟩)
      exact (regular c mem).typical_mem.2.trans below
    · intro wide
      rw [vwapDeviationPct_eq (last_vwap_of_volume some_volume.ne') close_last, if_neg (not_le.2 wide)]
  · intro no_volume
    have no_amount : (df.map fun c => typical c * c.volume).sum = 0 := by
      have zero : (df.map fun c => typical c * c.volume) = df.map fun _ => 0 :=
        List.map_congr_left fun c mem => by rw [weight_eq_zero volumes no_volume c mem, mul_zero]
      rw [zero]
      simp
    have vwap_last := last_vwap some_candle
    rw [no_amount, zero_div] at vwap_last
    rw [vwapDeviationPct_eq vwap_last close_last, if_pos tiny_pos.le]

/-- A candle without volume, then one with some. -/
def twoCandlesOneTraded : List (Candle ℚ) := [⟨0, 9, 9, 9, 9, 0⟩, ⟨0, 2, 5, 2, 2, 5⟩]

theorem vwap_within_traded_range_two : vwapDeviationPct twoCandlesOneTraded = some (-(100 / 3)) := by
  have some_candle : twoCandlesOneTraded ≠ [] := List.cons_ne_nil _ _
  have regular : ∀ c ∈ twoCandlesOneTraded, c.Regular := by
    rw [twoCandlesOneTraded, List.forall_mem_cons, List.forall_mem_singleton]
    constructor <;> constructor <;> norm_num
  have some_volume : 0 < totalVolume twoCandlesOneTraded := by
    norm_num [totalVolume, twoCandlesOneTraded]
  obtain ⟨last_vwap, -, mean, -, -, deviation⟩ :=
    (vwap_within_traded_range twoCandlesOneTraded some_candle regular).1 some_volume
  have three : last_vwap = 3 := by
    rw [mean]
    norm_num [weightedMean, typical, twoCandlesOneTraded]
  have wide : tiny < last_vwap := by
    rw [three]
    norm_num [tiny]
  rw [deviation wide, three]
  norm_num [twoCandlesOneTraded]

end StockAnomaly.AiSignalService

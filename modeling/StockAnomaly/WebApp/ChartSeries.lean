import StockAnomaly.WebApp.PriceChart

/-!
# What the chart is given

The chart library rejects a series whose times do not increase. `updateChartData` sorts the bars
by time and sets them one after the other in a map by time key. As the keys follow the times, also as
date strings, the map is filled in order, and its values are the last bar of each key:
**`updateChartData_valid`**.
-/

namespace StockAnomaly.WebApp

open StockAnomaly.Theory

/-- What the keys of an interval follow: the KST day or the second. -/
def ChartInterval.rank (interval : ChartInterval) (time : ℤ) : ℤ :=
  if interval.isDaily then kstDay (time * 1000) else time

variable {K : Type} {interval : ChartInterval} {data : List (Bar K)}

/-- The newest bar of its key, and the last one of its time. -/
structure Latest (interval : ChartInterval) (data : List (Bar K)) (bar : Bar K) : Prop where
  newest : ∀ other ∈ data, interval.chartTime other.point = interval.chartTime bar.point → other.time ≤ bar.time
  last : ∃ pre post, data = pre ++ bar :: post ∧ ∀ other ∈ post, other.time ≠ bar.time

/-- The keys increase and are those of the bars, each with the latest bar. -/
structure ValidSeries (interval : ChartInterval) (data : List (Bar K)) (series : List (ChartBar K)) : Prop where
  increasing : series.Pairwise fun a b => a.time.lt b.time
  keys : ∀ key, (∃ given ∈ series, given.time = key) ↔ ∃ bar ∈ data, interval.chartTime bar.point = key
  latest : ∀ given ∈ series, given.time = interval.chartTime given.bar.point ∧ Latest interval data given.bar

namespace ChartInterval

theorem rank_mono (interval : ChartInterval) {a b : ℤ} (le : a ≤ b) : interval.rank a ≤ interval.rank b := by
  unfold rank
  split_ifs
  · exact kstDay_mono (by omega)
  · exact le

theorem chartTime_daily {point : OhlcvPoint K} (daily : interval.isDaily = true) (plain : PlainTime point.time) :
    interval.chartTime point = .date (CivilDate.dateString (CivilDate.ofDay (kstDay (point.time * 1000)))) := by
  rw [chartTime, if_pos daily, lastTimeKey, if_pos daily, plain.getKstDateString]

theorem chartTime_seconds {point : OhlcvPoint K} (minute : ¬ interval.isDaily = true) :
    interval.chartTime point = .seconds point.time := if_neg minute

/-- **The order of the keys is that of the days or seconds.** -/
theorem chartTime_lt_iff {a b : OhlcvPoint K} (ha : PlainTime a.time) (hb : PlainTime b.time) :
    (interval.chartTime a).lt (interval.chartTime b) = true ↔ interval.rank a.time < interval.rank b.time := by
  by_cases daily : interval.isDaily = true
  · rw [chartTime_daily daily ha, chartTime_daily daily hb, rank, rank, if_pos daily, if_pos daily]
    exact decide_eq_true_iff.trans (CivilDate.dateString_ofDay_lt_iff ha.inRange hb.inRange)
  · rw [chartTime_seconds daily, chartTime_seconds daily, rank, rank, if_neg daily, if_neg daily]
    exact decide_eq_true_iff

theorem chartTime_eq_iff {a b : OhlcvPoint K} (ha : PlainTime a.time) (hb : PlainTime b.time) :
    interval.chartTime a = interval.chartTime b ↔ interval.rank a.time = interval.rank b.time := by
  by_cases daily : interval.isDaily = true
  · rw [chartTime_daily daily ha, chartTime_daily daily hb, rank, rank, if_pos daily, if_pos daily,
      TimeKey.date.injEq]
    exact CivilDate.dateString_ofDay_inj ha.inRange hb.inRange
  · rw [chartTime_seconds daily, chartTime_seconds daily, rank, rank, if_neg daily, if_neg daily,
      TimeKey.seconds.injEq]

end ChartInterval

/-- The bars in the order in which they are set. -/
def sorted (data : List (Bar K)) : List (Bar K) := data.insertionSort fun a b => a.time ≤ b.time

theorem mem_sorted {bar : Bar K} : bar ∈ sorted data ↔ bar ∈ data := List.mem_insertionSort _

theorem pairwise_sorted (data : List (Bar K)) : (sorted data).Pairwise fun a b => a.time ≤ b.time :=
  TimeSeries.pairwise_insertionSort_key data

/-- The rank of a bar. -/
def barRank (interval : ChartInterval) (bar : Bar K) : ℤ := interval.rank bar.time

theorem barRank_mono {a b : Bar K} (le : a.time ≤ b.time) : barRank interval a ≤ barRank interval b :=
  interval.rank_mono le

/-- **The map is filled in order.** -/
theorem chartData_eq (plain : ∀ bar ∈ data, PlainTime bar.time) : chartData interval data =
    (TimeSeries.collect (barRank interval) (sorted data)).map fun bar => ⟨interval.chartTime bar.point, bar⟩ := by
  have given : (fun bar : Bar K => (⟨if interval.isDaily then .date (getKstDateString bar.time)
      else .seconds bar.time, bar⟩ : ChartBar K)) = fun bar => ⟨interval.chartTime bar.point, bar⟩ := by
    cases interval <;> rfl
  have in_order : (sorted data).Pairwise fun a b => barRank interval a ≤ barRank interval b :=
    (pairwise_sorted data).imp barRank_mono
  rw [chartData, given, TimeSeries.mapValues_map, ← TimeSeries.mapValues_eq_collect in_order]
  apply congrArg (List.map _)
  apply TimeSeries.mapValues_congr
  intro a ha b hb
  exact ChartInterval.chartTime_eq_iff (plain a (mem_sorted.1 ha)) (plain b (mem_sorted.1 hb))

/-- The last bar of a rank among the sorted ones. -/
theorem latest_of_lastAt {bar : Bar K} {k : ℤ} (plain : ∀ bar ∈ data, PlainTime bar.time)
    (last : TimeSeries.lastAt (barRank interval) k (sorted data) = some bar) : Latest interval data bar := by
  obtain ⟨rfl, pre, post, split, others⟩ := TimeSeries.lastAt_eq_some_iff.1 last
  have mem : bar ∈ data := mem_sorted.1 (by simp [split])
  constructor
  · intro other other_mem same
    have rank := (ChartInterval.chartTime_eq_iff (plain other other_mem) (plain bar mem)).1 same
    have in_order : (pre ++ bar :: post).Pairwise fun a b => a.time ≤ b.time :=
      split ▸ pairwise_sorted data
    have there : other ∈ pre ++ bar :: post := split ▸ mem_sorted.2 other_mem
    rcases List.mem_append.1 there with before | here
    · exact (List.pairwise_append.1 in_order).2.2 other before bar List.mem_cons_self
    · obtain rfl | behind := List.mem_cons.1 here
      · exact le_rfl
      · exact absurd rank (others other behind)
  · have of_time : TimeSeries.lastAt Bar.time bar.time (sorted data) = some bar :=
      TimeSeries.lastAt_of_coarser (fun other same => congrArg interval.rank same) last
    rw [sorted, TimeSeries.lastAt_insertionSort] at of_time
    exact (TimeSeries.lastAt_eq_some_iff.1 of_time).2

/-- **`updateChartData` gives the chart a valid series.** -/
theorem PriceChart.updateChartData_valid (s : PriceChart K) (data : List (Bar K))
    (plain : ∀ bar ∈ data, PlainTime bar.time) :
    ∀ series ∈ (s.updateChartData data).candleSeries, ValidSeries s.interval data series := by
  intro series shown
  obtain ⟨old, -, rfl⟩ := Option.map_eq_some_iff.1 shown
  rw [chartData_eq plain]
  have from_data {bar : Bar K} (mem : bar ∈ TimeSeries.collect (barRank s.interval) (sorted data)) : bar ∈ data :=
    mem_sorted.1 (TimeSeries.mem_of_mem_collect mem)
  constructor
  · apply List.pairwise_map.2
    apply (TimeSeries.increasing_collect _).imp_of_mem
    intro a b ha hb lt
    exact (ChartInterval.chartTime_lt_iff (plain _ (from_data ha)) (plain _ (from_data hb))).2 lt
  · intro key
    simp only [List.mem_map, exists_exists_and_eq_and]
    constructor
    · rintro ⟨bar, mem, same⟩
      exact ⟨bar, from_data mem, same⟩
    · rintro ⟨bar, mem, rfl⟩
      obtain ⟨other, other_mem, rank⟩ :=
        @TimeSeries.exists_mem_collect _ _ _ (barRank s.interval) _ _ (mem_sorted.2 mem)
      have same := (ChartInterval.chartTime_eq_iff (plain other (from_data other_mem)) (plain bar mem)).2 rank
      exact ⟨other, other_mem, same⟩
  · intro given mem
    obtain ⟨bar, bar_mem, rfl⟩ := List.mem_map.1 mem
    exact ⟨rfl, latest_of_lastAt plain (TimeSeries.mem_collect.1 bar_mem)⟩

/-- Two bars of one day and one of the day before. -/
def threeBars : List (Bar ℤ) :=
  [⟨⟨1704153600, 5, 6, 4, 5, 1⟩, []⟩, ⟨⟨1704157200, 5, 7, 5, 7, 2⟩, []⟩, ⟨⟨1704067200, 4, 5, 4, 5, 3⟩, []⟩]

theorem updateChartData_valid_day : ValidSeries .day threeBars (chartData .day threeBars) :=
  PriceChart.updateChartData_valid
    { (priceChart fun _ => none : Machine (PriceChart ℤ) _).init with candleSeries := some [] } threeBars
    (by unfold PlainTime; decide) _ rfl

end StockAnomaly.WebApp

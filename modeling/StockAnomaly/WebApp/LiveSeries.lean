import StockAnomaly.Theory.SeriesMerge
import StockAnomaly.WebApp.PriceBars

/-!
# A history with ticks and older bars

`live` applies ticks to a history and `merge` puts older bars before a series. The two go
together (`Merged`): a tick changes the last bar or comes after it, and older bars come before it,
so that it does not matter what happens first.
-/

namespace StockAnomaly.WebApp

open StockAnomaly.Theory

variable {K : Type} {interval : ChartInterval} {history prior series data more front : List (OhlcvPoint K)}
  {last bar : OhlcvPoint K} {tick : Tick K} {ticks : List (Tick K)}

/-- The period of the tick is not before that of the last history bar. -/
def NotBefore (interval : ChartInterval) (history : List (OhlcvPoint K)) (tick : Tick K) : Prop :=
  ∀ last ∈ history.getLast?, barPeriod interval last ≤ interval.period tick.timestamp

instance (interval : ChartInterval) (history : List (OhlcvPoint K)) (tick : Tick K) :
    Decidable (NotBefore interval history tick) := by
  unfold NotBefore
  infer_instance

/-- The older bars and a series, whose bars win. -/
def merge (prior series : List (OhlcvPoint K)) : List (OhlcvPoint K) :=
  if prior = [] then series else TimeSeries.collect OhlcvPoint.time (prior ++ series)

/-- `data` is the series with older bars put before it: the two end in the same bar, and whatever
becomes of this bar, the rest is merged. -/
inductive Merged (prior series data : List (OhlcvPoint K)) : Prop
  | alone (none_prior : prior = []) (same : data = series)
  | after (some_prior : prior ≠ []) (pre front : List (OhlcvPoint K)) (last : OhlcvPoint K)
      (series_eq : series = front ++ [last]) (data_eq : data = pre ++ [last])
      (before : ∀ bar ∈ pre, bar.time < last.time)
      (merged : ∀ bar : OhlcvPoint K, bar.time = last.time →
        TimeSeries.collect OhlcvPoint.time (prior ++ front ++ [bar]) = pre ++ [bar])

theorem Merged.eq_merge (h : Merged prior series data) : data = merge prior series := by
  cases h with
  | alone none_prior same => rw [merge, if_pos none_prior, same]
  | after some_prior pre front last series_eq data_eq before merged =>
    rw [merge, if_neg some_prior, series_eq, data_eq, ← List.append_assoc]
    exact (merged last rfl).symm

/-- Both end in the same bar, if there is one. -/
theorem Merged.getLast?_eq (h : Merged prior series data) : data.getLast? = series.getLast? := by
  cases h with
  | alone none_prior same => rw [same]
  | after some_prior pre front last series_eq data_eq before merged =>
    rw [series_eq, data_eq, List.getLast?_concat, List.getLast?_concat]

/-- No older bar and none of the series is later than the last one. -/
theorem Merged.le_last (h : Merged prior (front ++ [last]) data)
    (sorted : TimeSeries.Increasing OhlcvPoint.time data) :
    ∀ bar ∈ prior ++ front, bar.time ≤ last.time := by
  intro bar mem
  cases h with
  | alone none_prior same =>
    subst none_prior same
    exact ((TimeSeries.increasing_snoc.1 sorted).2 bar mem).le
  | after some_prior pre front' last' series_eq data_eq before merged =>
    obtain ⟨rfl, same⟩ := List.append_inj' series_eq rfl
    obtain rfl := List.singleton_inj.1 same
    obtain ⟨y, y_mem, time⟩ :=
      @TimeSeries.exists_mem_collect _ _ _ OhlcvPoint.time _ _ (List.mem_append_left [last] mem)
    rw [merged last rfl, List.mem_append, List.mem_singleton] at y_mem
    obtain y_mem | rfl := y_mem
    · rw [← time]
      exact (before y y_mem).le
    · exact time.ge

theorem Merged.collect_eq (h : Merged prior series data) (more : List (OhlcvPoint K)) :
    TimeSeries.collect OhlcvPoint.time (more ++ data) =
      TimeSeries.collect OhlcvPoint.time (more ++ (prior ++ series)) := by
  cases h with
  | alone none_prior same => rw [none_prior, same, List.nil_append]
  | after some_prior pre front last series_eq data_eq before merged =>
    rw [data_eq, ← merged last rfl, TimeSeries.collect_append_collect, series_eq, List.append_assoc prior]

/-- **Older bars come before both**, if none of them is later than the last bar. -/
theorem Merged.collect (h : Merged prior series data) (some_more : more ≠ [])
    (sorted : TimeSeries.Increasing OhlcvPoint.time data) (ends : data.getLast? = some last)
    (le : ∀ bar ∈ more, bar.time ≤ last.time) :
    Merged (more ++ prior) series (TimeSeries.collect OhlcvPoint.time (more ++ data)) := by
  obtain ⟨front, rfl⟩ := List.getLast?_eq_some_iff.1 (h.getLast?_eq.symm.trans ends)
  have le_last : ∀ bar ∈ TimeSeries.collect OhlcvPoint.time (more ++ prior ++ front), bar.time ≤ last.time := by
    intro bar mem
    have mem := TimeSeries.mem_of_mem_collect mem
    rw [List.append_assoc] at mem
    obtain mem | mem := List.mem_append.1 mem
    · exact le bar mem
    · exact h.le_last sorted bar mem
  obtain ⟨pre, before, writes⟩ := TimeSeries.upsert_of_le (TimeSeries.increasing_collect _) le_last
  have merged (bar : OhlcvPoint K) (same : bar.time = last.time) :
      TimeSeries.collect OhlcvPoint.time (more ++ prior ++ front ++ [bar]) = pre ++ [bar] := by
    rw [TimeSeries.collect_snoc, writes bar same]
  refine .after (by simp [some_more]) pre front last rfl ?_ before merged
  rw [h.collect_eq, ← merged last rfl]
  simp only [List.append_assoc]

/-- The times of a snapshot are among those of the data, and different if those are. -/
structure Behind (snapshot data : List (OhlcvPoint K)) : Prop where
  times : ∀ bar ∈ snapshot, ∃ other ∈ data, other.time = bar.time
  distinct : (data.map OhlcvPoint.time).Nodup → (snapshot.map OhlcvPoint.time).Nodup

theorem Behind.refl (data : List (OhlcvPoint K)) : Behind data data := ⟨fun bar mem => ⟨bar, mem, rfl⟩, id⟩

theorem Behind.ne_nil {snapshot : List (OhlcvPoint K)} (h : Behind snapshot data) (some_bar : snapshot ≠ []) :
    data ≠ [] := by
  obtain ⟨bar, mem⟩ := List.exists_mem_of_ne_nil snapshot some_bar
  obtain ⟨other, other_mem, -⟩ := h.times bar mem
  exact List.ne_nil_of_mem other_mem

/-- More bars at the end. -/
theorem Behind.of_prefix {snapshot next : List (OhlcvPoint K)} (h : Behind snapshot data)
    (longer : data.map OhlcvPoint.time <+: next.map OhlcvPoint.time) : Behind snapshot next := by
  refine ⟨?_, fun distinct => h.distinct (distinct.sublist longer.sublist)⟩
  intro bar mem
  obtain ⟨other, other_mem, same⟩ := h.times bar mem
  obtain ⟨y, y_mem, time⟩ := List.mem_map.1 (longer.subset (List.mem_map_of_mem other_mem))
  exact ⟨y, y_mem, time.trans same⟩

/-- More bars before. -/
theorem Behind.collect {snapshot : List (OhlcvPoint K)} (h : Behind snapshot data)
    (sorted : TimeSeries.Increasing OhlcvPoint.time data) (more : List (OhlcvPoint K)) :
    Behind snapshot (TimeSeries.collect OhlcvPoint.time (more ++ data)) := by
  refine ⟨?_, fun _ => h.distinct (List.pairwise_map.2 (sorted.imp fun lt => lt.ne))⟩
  intro bar mem
  obtain ⟨other, other_mem, same⟩ := h.times bar mem
  obtain ⟨y, y_mem, time⟩ :=
    @TimeSeries.exists_mem_collect _ _ _ OhlcvPoint.time _ _ (List.mem_append_right more other_mem)
  exact ⟨y, y_mem, time.trans same⟩

variable [Zero K]

/-- A bar that a tick opens is later than the last one. -/
theorem time_lt_newPoint (time : PlainTime last.time) (stamp : PlainStamp tick.timestamp)
    (young : ¬ older interval last tick)
    (other : interval.lastTimeKey last ≠ interval.timeKey tick.timestamp) :
    last.time < (newPoint interval tick).time := by
  cases daily : interval.isDaily with
  | true =>
    rw [daily_older_iff daily time stamp] at young
    rw [Ne, dailyKey_eq_iff daily time stamp] at other
    simp only [newPoint, daily, if_true, kstDay] at young other ⊢
    omega
  | false =>
    simp only [older, ChartInterval.lastTimeKey, ChartInterval.timeKey, daily, Bool.false_eq_true, if_false, TimeKey.lt,
      TimeKey.truthy, Bool.and_eq_true, decide_eq_true_eq, not_and, Ne, TimeKey.seconds.injEq] at young other
    simp only [newPoint, daily, Bool.false_eq_true, if_false, PlainStamp] at stamp ⊢
    omega

variable [LinearOrder K]

/-- The history with all ticks applied whose period is not before its last bar. -/
def live (interval : ChartInterval) (history : List (OhlcvPoint K)) (ticks : List (Tick K)) : List (OhlcvPoint K) :=
  (ticks.filter (NotBefore interval history)).foldl (fun bars tick => applyTick interval tick bars) history

/-- A tick before the last history bar changes nothing. -/
theorem applyTick_of_before {first : OhlcvPoint K} (time : PlainTime last.time)
    (stamp : PlainStamp tick.timestamp) (le : first.time ≤ last.time)
    (before : interval.period tick.timestamp < barPeriod interval first) :
    applyTick interval tick (front ++ [last]) = front ++ [last] := by
  have old : older interval last tick := by
    cases daily : interval.isDaily with
    | true =>
      rw [daily_older_iff daily time stamp]
      by_contra day
      have days : kstDay (first.time * 1000) ≤ kstDay tick.timestamp :=
        (ChartInterval.kstDay_mono (by omega)).trans (not_lt.1 day)
      exact absurd (ChartInterval.period_le_of_kstDay daily days) before.not_ge
    | false =>
      cases interval with
      | minute =>
        simp only [barPeriod, ChartInterval.period, PlainStamp] at before le stamp
        simp only [older, ChartInterval.lastTimeKey, ChartInterval.timeKey, daily, Bool.false_eq_true, if_false,
          TimeKey.lt, TimeKey.truthy, Bool.and_eq_true, decide_eq_true_eq]
        omega
      | day | week | month => cases daily
  rw [applyTick_snoc, if_pos old]

/-- **A tick does the same to both.** -/
theorem Merged.applyTick (h : Merged prior series data) (stamp : PlainStamp tick.timestamp)
    (time : ∀ last ∈ series.getLast?, PlainTime last.time) :
    Merged prior (applyTick interval tick series) (applyTick interval tick data) := by
  cases h with
  | alone none_prior same => exact .alone none_prior (congrArg _ same)
  | after some_prior pre front last series_eq data_eq before merged =>
    subst series_eq data_eq
    have time := time last (List.getLast?_concat ..)
    rw [applyTick_snoc, applyTick_snoc]
    split_ifs with old key
    · exact .after some_prior pre front last rfl rfl before merged
    · exact .after some_prior pre front _ rfl rfl before merged
    · have later := time_lt_newPoint time stamp old key
      refine .after some_prior (pre ++ [last]) (front ++ [last]) _ rfl rfl ?_ ?_
      · intro bar mem
        obtain mem | self := List.mem_append.1 mem
        · exact (before bar mem).trans later
        · rw [List.mem_singleton.1 self]
          exact later
      · intro bar new
        have sorted : TimeSeries.Increasing OhlcvPoint.time (pre ++ [last]) := by
          rw [← merged last rfl]
          exact TimeSeries.increasing_collect _
        rw [← List.append_assoc, TimeSeries.collect_snoc, merged last rfl]
        refine TimeSeries.upsert_of_lt sorted fun x mem => ?_
        have later : last.time < bar.time := by
          rw [new]
          exact later
        obtain mem | self := List.mem_append.1 mem
        · exact (before x mem).trans later
        · rw [List.mem_singleton.1 self]
          exact later

theorem times_applyTick (interval : ChartInterval) (tick : Tick K) (data : List (OhlcvPoint K)) :
    data.map OhlcvPoint.time <+: (applyTick interval tick data).map OhlcvPoint.time := by
  rcases List.eq_nil_or_concat' data with rfl | ⟨front, last, rfl⟩
  · exact List.nil_prefix
  · rw [applyTick_snoc]
    split_ifs
    · exact List.prefix_rfl
    · simp only [List.map_append, List.map_singleton]
      exact List.prefix_rfl
    · exact (List.prefix_append _ _).map OhlcvPoint.time

theorem live_snoc : live interval history (ticks ++ [tick]) =
    if NotBefore interval history tick then applyTick interval tick (live interval history ticks)
    else live interval history ticks := by
  rw [live, List.filter_append, List.foldl_append]
  split_ifs with applied
  · simp [applied, live]
  · simp [applied, live]

/-- `data` holds the history with the ticks, and the older bars; the last bar is not before the
last history bar and its time is in seconds. -/
structure Kept (interval : ChartInterval) (history : List (OhlcvPoint K)) (ticks : List (Tick K))
    (prior data : List (OhlcvPoint K)) : Prop where
  merged : Merged prior (live interval history ticks) data
  plain : ∀ last ∈ (live interval history ticks).getLast?,
    PlainTime last.time ∧ ∀ first ∈ history.getLast?, first.time ≤ last.time

theorem kept_history (plain : ∀ last ∈ history.getLast?, PlainTime last.time) :
    Kept interval history [] [] history := by
  refine ⟨.alone rfl rfl, ?_⟩
  intro last ends
  refine ⟨plain last ends, ?_⟩
  intro first first_ends
  obtain rfl := Option.mem_unique ends first_ends
  exact le_rfl

/-- The bar after a tick is as plain as the one before it. -/
theorem plain_applyTick_snoc (time : PlainTime last.time) (stamp : PlainStamp tick.timestamp) :
    ∀ bar ∈ (applyTick interval tick (front ++ [last])).getLast?, PlainTime bar.time ∧ last.time ≤ bar.time := by
  rw [applyTick_snoc]
  split_ifs with old key
  · simpa using time
  · simp only [List.getLast?_concat, Option.mem_def, Option.some.injEq, forall_eq']
    exact ⟨time, le_rfl⟩
  · have later := time_lt_newPoint time stamp old key
    simp only [List.getLast?_concat, Option.mem_def, Option.some.injEq, forall_eq']
    refine ⟨?_, later.le⟩
    simp only [newPoint, PlainTime, PlainStamp] at stamp ⊢
    split_ifs <;> omega

/-- **One tick.** -/
theorem Kept.snoc (h : Kept interval history ticks prior data) (some_bar : data ≠ [])
    (stamp : PlainStamp tick.timestamp) :
    Kept interval history (ticks ++ [tick]) prior (applyTick interval tick data) := by
  obtain ⟨pre, last, rfl⟩ := (List.eq_nil_or_concat' data).resolve_left some_bar
  have ends : (live interval history ticks).getLast? = some last := by
    rw [← h.merged.getLast?_eq, List.getLast?_concat]
  obtain ⟨time, bound⟩ := h.plain last ends
  obtain ⟨front, series⟩ := List.getLast?_eq_some_iff.1 ends
  have step : Merged prior (applyTick interval tick (live interval history ticks)) (applyTick interval tick _) :=
    h.merged.applyTick stamp fun last ends => (h.plain last ends).1
  by_cases applied : NotBefore interval history tick
  · have next : live interval history (ticks ++ [tick]) = applyTick interval tick (live interval history ticks) := by
      rw [live_snoc, if_pos applied]
    refine ⟨next ▸ step, ?_⟩
    rw [next, series]
    intro bar bar_ends
    obtain ⟨bar_time, later⟩ := plain_applyTick_snoc time stamp bar bar_ends
    exact ⟨bar_time, fun first first_ends => (bound first first_ends).trans later⟩
  · have next : live interval history (ticks ++ [tick]) = live interval history ticks := by
      rw [live_snoc, if_neg applied]
    obtain ⟨first, first_ends, before⟩ : ∃ first ∈ history.getLast?,
        interval.period tick.timestamp < barPeriod interval first := by
      simpa [NotBefore] using applied
    have unchanged : applyTick interval tick (pre ++ [last]) = pre ++ [last] :=
      applyTick_of_before time stamp (bound first first_ends) before
    rw [unchanged]
    exact ⟨next ▸ h.merged, next ▸ h.plain⟩

/-- Ticks that come to the same series are as good. -/
theorem Kept.of_live_eq {others : List (Tick K)} (h : Kept interval history ticks prior data)
    (same : live interval history others = live interval history ticks) : Kept interval history others prior data :=
  ⟨same ▸ h.merged, same ▸ h.plain⟩

/-- **One response of older bars.** -/
theorem Kept.collect (h : Kept interval history ticks prior data) (some_more : more ≠ [])
    (sorted : TimeSeries.Increasing OhlcvPoint.time data) (some_bar : data ≠ [])
    (le : ∀ last ∈ data.getLast?, ∀ bar ∈ more, bar.time ≤ last.time) :
    Kept interval history ticks (more ++ prior) (TimeSeries.collect OhlcvPoint.time (more ++ data)) := by
  have ends := List.getLast?_eq_some_getLast some_bar
  exact ⟨h.merged.collect some_more sorted ends (le _ ends), h.plain⟩

end StockAnomaly.WebApp

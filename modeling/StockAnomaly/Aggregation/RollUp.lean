import Mathlib.Data.List.DropRight
import StockAnomaly.Aggregation.CandleBlocks

/-!
# The 1-hour stream is the roll-up of the 15-minute stream

The two candles of a ticker are maintained on their own, each by its own close time. What
keeps them in step is `Nested`: the window of the 15-minute candle in progress lies inside
that of the 1-hour candle, so a tick that closes the hour closes the quarter too, and the
1-hour candle is the merge of the 15-minute candles since the last hour:
**`hour_rolls_up_quarters`**.
-/

namespace StockAnomaly.Aggregation

open StockAnomaly.Theory

variable {K : Type*}

/-- The candles emitted since the last 1-hour candle. -/
def sinceHour (emitted : List (Candle K)) : List (Candle K) :=
  emitted.rtakeWhile (·.windowMinutes ≠ 60)

/-- `c` is a 15-minute candle whose window lies inside the window of `hour`. -/
def Candle.Inside (c hour : Candle K) : Prop :=
  c.windowMinutes = 15 ∧ hour.openTimeMs ≤ c.openTimeMs ∧ c.closeTimeMs ≤ hour.closeTimeMs

theorem sinceHour_quarter {emitted : List (Candle K)} {c : Candle K} (quarter : c.windowMinutes = 15) :
    sinceHour (emitted ++ [c]) = sinceHour emitted ++ [c] :=
  List.rtakeWhile_concat_pos _ _ _ (by simp [quarter])

theorem sinceHour_hour {emitted : List (Candle K)} {c : Candle K} (hour : c.windowMinutes = 60) :
    sinceHour (emitted ++ [c]) = [] :=
  List.rtakeWhile_concat_neg _ _ _ (by simp [hour])

variable [AddCommGroup K] [LinearOrder K]

/-- The 1-hour candle in progress is what the 15-minute candles since the last hour, with
the one in progress, amount to. -/
structure Nested (emitted : List (Candle K)) (s : SwingTickerState K) : Prop where
  merge : IsMerge s.candle1h.bar ((sinceHour emitted ++ [s.candle15m]).map Candle.bar)
  inside : ∀ c ∈ sinceHour emitted ++ [s.candle15m], c.Inside s.candle1h

namespace SwingTickerState

variable {s : SwingTickerState K}

/-- The branches of an update when the quarter closes no later than the hour. -/
theorem update_cases (tick : Tick K) (active : s.active15m = true ∧ s.active1h = true)
    (nested : s.candle15m.closeTimeMs ≤ s.candle1h.closeTimeMs) :
    (tick.timestampMs < s.candle15m.closeTimeMs ∧
      s.update tick = (⟨s.candle15m.update tick, s.candle1h.update tick, true, true⟩, [])) ∨
    (s.candle15m.closeTimeMs ≤ tick.timestampMs ∧ tick.timestampMs < s.candle1h.closeTimeMs ∧
      s.update tick =
        (⟨Candle.reset tick 15, s.candle1h.update tick, true, true⟩, [s.candle15m])) ∨
    (s.candle1h.closeTimeMs ≤ tick.timestampMs ∧
      s.update tick =
        (⟨Candle.reset tick 15, Candle.reset tick 60, true, true⟩, [s.candle15m, s.candle1h])) := by
  simp only [update, advance, active.1, active.2, Candle.isExpired, Bool.not_true,
    Bool.false_eq_true, if_false, decide_eq_true_eq]
  by_cases quarter : s.candle15m.closeTimeMs ≤ tick.timestampMs
  · by_cases hour : s.candle1h.closeTimeMs ≤ tick.timestampMs
    · right; right
      simp [quarter, hour]
    · right; left
      simp [quarter, hour, not_le.1 hour]
  · left
    have hour : ¬ s.candle1h.closeTimeMs ≤ tick.timestampMs := fun late => quarter (nested.trans late)
    simp [quarter, hour, not_le.1 quarter]

end SwingTickerState

/-- A quarter that starts inside the hour ends inside it. -/
theorem Candle.inside_reset {hour : Candle K} {block : List (Tick K)} {tick : Tick K}
    (covers : hour.Covers 60 block) (nonneg : 0 ≤ tick.timestampMs)
    (after : hour.openTimeMs ≤ tick.timestampMs) (before : tick.timestampMs < hour.closeTimeMs) :
    (reset tick 15).Inside hour := by
  have quarter_ms : windowMs 15 = 900000 := by decide
  have hour_ms : windowMs 60 = 3600000 := by decide
  have pos : 0 < windowMs 15 := windowMs_pos .quarter
  have start_le := windowStart_le pos nonneg
  have lt_end : tick.timestampMs < windowStart 15 tick.timestampMs + windowMs 15 := lt_windowStart_add pos
  have window := covers.window
  obtain ⟨n, close⟩ := covers.aligned
  obtain ⟨m, start⟩ := windowMs_dvd_windowStart 15 tick.timestampMs
  rw [hour_ms] at window close
  rw [quarter_ms] at lt_end start
  -- both boundaries are multiples of a quarter, so the quarter cannot cross the hour's
  have opens : hour.openTimeMs ≤ windowStart 15 tick.timestampMs := by omega
  have closes : windowStart 15 tick.timestampMs + windowMs 15 ≤ hour.closeTimeMs := by omega
  exact ⟨rfl, opens, closes⟩

namespace Nested

variable {emitted : List (Candle K)} {s : SwingTickerState K} {tick : Tick K}

theorem quarter_inside (h : Nested emitted s) : s.candle15m.Inside s.candle1h :=
  h.inside _ (by simp)

/-- A fresh quarter in a fresh hour. -/
theorem start (hour : ∀ c ∈ emitted.getLast?, c.windowMinutes = 60) (nonneg : 0 ≤ tick.timestampMs) :
    Nested emitted ⟨Candle.reset tick 15, Candle.reset tick 60, true, true⟩ := by
  have none_since : sinceHour emitted = [] := by
    cases emitted using List.reverseRecOn with
    | nil => rfl
    | append_singleton emitted c => exact sinceHour_hour (hour c (by simp))
  constructor
  · rw [none_since, List.nil_append, List.map_singleton, Candle.bar_reset, Candle.bar_reset]
    exact IsMerge.single _
  · intro c mem
    rw [none_since] at mem
    rw [List.mem_singleton.1 mem]
    exact Candle.inside_reset (Candle.covers_reset (windowMs_pos .hour) nonneg) nonneg
      (windowStart_le (windowMs_pos .hour) nonneg) (lt_windowStart_add (windowMs_pos .hour))

/-- The tick joins both candles. -/
theorem join (h : Nested emitted s) :
    Nested emitted ⟨s.candle15m.update tick, s.candle1h.update tick, true, true⟩ where
  merge := by
    have merge := h.merge
    rw [List.map_append] at merge ⊢
    simp only [List.map_singleton, Candle.bar_update] at merge ⊢
    exact merge.append_last _
  inside := by
    intro c mem
    rcases List.mem_append.1 mem with old | current
    · exact h.inside c (List.mem_append_left _ old)
    · rw [List.mem_singleton.1 current]
      exact h.quarter_inside

/-- The tick closes the quarter and joins the hour. -/
theorem expire_quarter {block block' : List (Tick K)} (h : Nested emitted s)
    (quarter : s.candle15m.Covers 15 block) (hour : s.candle1h.Covers 60 block')
    (nonneg : 0 ≤ tick.timestampMs) (late : s.candle15m.closeTimeMs ≤ tick.timestampMs)
    (early : tick.timestampMs < s.candle1h.closeTimeMs) :
    Nested (emitted ++ [s.candle15m]) ⟨Candle.reset tick 15, s.candle1h.update tick, true, true⟩ where
  merge := by
    rw [sinceHour_quarter quarter.minutes, List.map_append, Candle.bar_update]
    exact h.merge.concat _
  inside := by
    intro c mem
    rw [sinceHour_quarter quarter.minutes] at mem
    rcases List.mem_append.1 mem with old | current
    · exact h.inside c old
    · rw [List.mem_singleton.1 current]
      have opened := h.quarter_inside.2.1
      have window := quarter.window
      have pos : 0 < windowMs 15 := windowMs_pos .quarter
      exact Candle.inside_reset (hour.update early) nonneg (show s.candle1h.openTimeMs ≤ _ by omega) early

/-- One call of `update_swing_state` keeps the windows nested. -/
theorem update {block block' : List (Tick K)} (h : Nested emitted s)
    (active : s.active15m = true ∧ s.active1h = true)
    (quarter : s.candle15m.Covers 15 block) (hour : s.candle1h.Covers 60 block')
    (nonneg : 0 ≤ tick.timestampMs) : Nested (emitted ++ (s.update tick).2) (s.update tick).1 := by
  rcases SwingTickerState.update_cases tick active h.quarter_inside.2.2 with
    ⟨-, eq⟩ | ⟨late, early, eq⟩ | ⟨-, eq⟩
  · rw [eq, List.append_nil]
    exact h.join
  · rw [eq]
    exact h.expire_quarter quarter hour nonneg late early
  · rw [eq]
    refine start ?_ nonneg
    simp [hour.minutes]

/-- The 1-hour candle that a call emits, with the 15-minute candle before it. -/
theorem emits_hour {block : List (Tick K)} (h : Nested emitted s)
    (active : s.active15m = true ∧ s.active1h = true) (quarter : s.candle15m.Covers 15 block)
    {c : Candle K} (mem : c ∈ (s.update tick).2) (minutes : c.windowMinutes = 60) :
    (s.update tick).2 = [s.candle15m, c] ∧ c = s.candle1h := by
  have ne : s.candle15m.windowMinutes ≠ 60 := by
    rw [quarter.minutes]
    decide
  rcases SwingTickerState.update_cases tick active h.quarter_inside.2.2 with
    ⟨-, eq⟩ | ⟨-, -, eq⟩ | ⟨-, eq⟩
  · rw [eq] at mem
    cases mem
  · rw [eq] at mem
    exact absurd (List.mem_singleton.1 mem ▸ minutes) ne
  · rw [eq] at mem ⊢
    rcases List.mem_cons.1 mem with rfl | last
    · exact absurd minutes ne
    · rw [List.mem_singleton.1 last]
      exact ⟨rfl, rfl⟩

end Nested

/-- The windows of a ticker's state are nested after every nonempty sequence of ticks. -/
theorem SwingTickerState.run_nested {ticks : List (Tick K)} (some_tick : ticks ≠ [])
    (nonneg : ∀ t ∈ ticks, 0 ≤ t.timestampMs) : Nested (run ticks).2 (run ticks).1 := by
  induction ticks using List.reverseRecOn with
  | nil => exact absurd rfl some_tick
  | append_singleton ticks tick ih =>
    have now : 0 ≤ tick.timestampMs := nonneg tick (by simp)
    have before : ∀ t ∈ ticks, 0 ≤ t.timestampMs := fun t mem => nonneg t (by simp [mem])
    rw [run_snoc]
    by_cases first : ticks = []
    · subst first
      exact Nested.start (by rintro c ⟨⟩) now
    · obtain ⟨_, _, quarter⟩ := run_segmented first before .quarter
      obtain ⟨_, _, hour⟩ := run_segmented first before .hour
      exact (ih first before).update (by simp [run_active, first]) quarter.inProgress hour.inProgress now

/-- **The 1-hour stream is the roll-up of the 15-minute stream.** A call that emits a 1-hour
candle has emitted a 15-minute one just before it, and the 1-hour candle is the merge of all
15-minute candles since the previous 1-hour one, whose windows lie inside its own; and after
every call the 1-hour candle in progress is the merge of the 15-minute candles since then
and the 15-minute candle in progress. -/
theorem hour_rolls_up_quarters (ticker : Ticker) (ticks : List (Tick K)) (tick : Tick K)
    (own : ∀ t ∈ ticks ++ [tick], t.ticker = ticker) (nonneg : ∀ t ∈ ticks ++ [tick], 0 ≤ t.timestampMs) :
    (∀ hour ∈ ((SwingPath.run ticks).1.updateSwingState tick).2.map AggregatorSignal.candle,
      hour.windowMinutes = 60 → ∃ quarter : Candle K, quarter.windowMinutes = 15 ∧
        ((SwingPath.run ticks).1.updateSwingState tick).2.map AggregatorSignal.candle = [quarter, hour] ∧
        IsMerge hour.bar ((sinceHour ((SwingPath.run ticks).2.map AggregatorSignal.candle) ++
          [quarter]).map Candle.bar) ∧
        ∀ c ∈ sinceHour ((SwingPath.run ticks).2.map AggregatorSignal.candle) ++ [quarter],
          c.Inside hour) ∧
    ∃ s, (SwingPath.run (ticks ++ [tick])).1.registry ticker = some s ∧
      IsMerge s.candle1h.bar ((sinceHour ((SwingPath.run (ticks ++ [tick])).2.map
        AggregatorSignal.candle) ++ [s.candle15m]).map Candle.bar) := by
  have before : ∀ t ∈ ticks, 0 ≤ t.timestampMs := fun t mem => nonneg t (by simp [mem])
  have candles : ∀ cs : List (Candle K), (cs.map emitSwingCandle).map AggregatorSignal.candle = cs :=
    fun cs => by simp [emitSwingCandle, Function.comp_def]
  obtain ⟨registry, signals⟩ := SwingPath.run_single fun t mem => own t (List.mem_append_left _ mem)
  obtain ⟨registry', signals'⟩ := SwingPath.run_single own
  have here : tick.ticker = ticker := own tick (by simp)
  constructor
  · intro hour mem minutes
    by_cases first : ticks = []
    · subst first
      rw [SwingPath.updateSwingState_created rfl (by simp [SwingPath.run, SwingPath.zero, kStatePoolSize])] at mem
      cases mem
    · obtain ⟨_, _, quarter⟩ := SwingTickerState.run_segmented first before .quarter
      have nested := SwingTickerState.run_nested first before
      rw [if_neg first, ← here] at registry
      rw [SwingPath.updateSwingState_found registry] at mem ⊢
      simp only [candles, signals] at mem ⊢
      obtain ⟨emits, rfl⟩ := nested.emits_hour (by simp [SwingTickerState.run_active, first])
        quarter.inProgress mem minutes
      exact ⟨_, quarter.inProgress.minutes, emits, nested.merge, nested.inside⟩
  · rw [if_neg (by simp)] at registry'
    refine ⟨_, registry', ?_⟩
    rw [signals', candles]
    exact (SwingTickerState.run_nested (by simp) nonneg).merge

/-- Two ticks of one hour in different quarters, and a tick two hours later. -/
theorem hour_rolls_up_quarters_three :
    (∃ hour ∈ ((SwingPath.run [⟨"A", 5, 1, 0⟩, ⟨"A", 7, 2, 1800000⟩]).1.updateSwingState
        (⟨"A", 6, 2, 9000000⟩ : Tick ℚ)).2.map AggregatorSignal.candle,
      hour.windowMinutes = 60 ∧ hour.open = 5 ∧ hour.close = 7 ∧ hour.volume = 3 ∧
        IsMerge hour.bar ([⟨"A", 5, 5, 5, 5, 1, 0, 900000, 1, 15⟩,
          ⟨"A", 7, 7, 7, 7, 2, 1800000, 2700000, 1, 15⟩].map Candle.bar)) := by
  obtain ⟨rolls, -⟩ := hour_rolls_up_quarters (K := ℚ) "A" [⟨"A", 5, 1, 0⟩, ⟨"A", 7, 2, 1800000⟩]
    ⟨"A", 6, 2, 9000000⟩ (by decide +kernel) (by decide +kernel)
  have emits : ((SwingPath.run [⟨"A", 5, 1, 0⟩, ⟨"A", 7, 2, 1800000⟩]).1.updateSwingState
        (⟨"A", 6, 2, 9000000⟩ : Tick ℚ)).2.map AggregatorSignal.candle =
      [⟨"A", 7, 7, 7, 7, 2, 1800000, 2700000, 1, 15⟩, ⟨"A", 5, 7, 5, 7, 3, 0, 3600000, 2, 60⟩] := by
    decide +kernel
  have since : sinceHour ((SwingPath.run [⟨"A", 5, 1, 0⟩, (⟨"A", 7, 2, 1800000⟩ : Tick ℚ)]).2.map
      AggregatorSignal.candle) = [⟨"A", 5, 5, 5, 5, 1, 0, 900000, 1, 15⟩] := by
    decide +kernel
  obtain ⟨quarter, -, both, merge, -⟩ := rolls ⟨"A", 5, 7, 5, 7, 3, 0, 3600000, 2, 60⟩ (by simp [emits]) rfl
  rw [emits] at both
  rw [since, ← (List.cons.inj both).1] at merge
  exact ⟨_, by simp [emits], rfl, rfl, rfl, rfl, merge⟩

end StockAnomaly.Aggregation

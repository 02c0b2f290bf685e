import StockAnomaly.WebApp.LiveSeries
import StockAnomaly.WebApp.PriceChart

/-!
# Live ticks under the loads of the chart

For one selection, `ohlcvData` should come to the history with all ticks applied, merged with the
older bars. Two things lose ticks: `fetchHistory` replays the buffered ticks while
`ohlcvDataRef` is still empty, so that `applyTick` drops them, and `loadMore` writes back the
snapshot from before its `await`. **`no_tick_lost`** says under which conditions on the ticks and
responses nothing is lost.
-/

namespace StockAnomaly.WebApp

open StockAnomaly.Theory

variable {K : Type}

def points (bars : List (Bar K)) : List (OhlcvPoint K) := bars.map Bar.point

theorem interval_of_selected {selection : Selection} {s : PriceChart K} (selected : s.selected = some selection) :
    s.interval = selection.interval := by
  obtain ⟨shown, eq, source⟩ := Option.bind_eq_some_iff.1 selected
  obtain ⟨ticker, -, rfl⟩ := Option.map_eq_some_iff.1 source
  rw [PriceChart.interval, eq]
  rfl

theorem points_uniqueSorted (bars : List (Bar K)) :
    points (uniqueSorted bars) = TimeSeries.collect OhlcvPoint.time (points bars) := by
  rw [uniqueSorted, TimeSeries.sort_mapValues]
  exact TimeSeries.map_collect (fun _ => rfl) bars

theorem points_fetched (selection : Selection) (data : List (OhlcvPoint K)) :
    points (PriceChart.fetched selection data) = data := by
  rw [points, PriceChart.fetched, List.map_map]
  exact List.map_id data

theorem points_eq_nil {bars : List (Bar K)} : points bars = [] ↔ bars = [] := List.map_eq_nil_iff

/-- A response that adds nothing to the snapshot would add nothing to the data. -/
theorem collect_of_not_adds {call : LoadMore K} {more : List (Bar K)} {data : List (OhlcvPoint K)}
    (some_more : more ≠ []) (none_new : ¬ PriceChart.Adds call more) (behind : Behind (points call.currentData) data)
    (sorted : TimeSeries.Increasing OhlcvPoint.time data) :
    TimeSeries.collect OhlcvPoint.time (points more ++ data) = data := by
  refine TimeSeries.collect_append_of_keys sorted fun bar mem => ?_
  have distinct : ((points call.currentData).map OhlcvPoint.time).Nodup :=
    behind.distinct (List.pairwise_map.2 (sorted.imp fun lt => lt.ne))
  by_contra new
  refine none_new ⟨some_more, ?_⟩
  have longer : (points call.currentData).length <
      (TimeSeries.collect OhlcvPoint.time (points more ++ points call.currentData)).length := by
    refine TimeSeries.length_lt_collect distinct mem fun y y_mem same => new ?_
    obtain ⟨other, other_mem, time⟩ := behind.times y y_mem
    exact ⟨other, other_mem, time.trans same⟩
  have joined : points more ++ points call.currentData = points (more ++ call.currentData) := List.map_append.symm
  rw [joined, ← points_uniqueSorted] at longer
  simpa [points] using longer

section Stages

variable {selection : Selection} {s : PriceChart K} {stock : Option Stock}

/-- The last render saw the chart. -/
def PriceChart.shownReady (s : PriceChart K) : Bool := s.shown.any Shown.isChartReady

theorem reselects_of_keeps (selected : s.selected = some selection)
    (ticker : stock.map Stock.ticker = some selection.ticker) :
    s.reselects stock selection.interval = false := by
  obtain ⟨old, shown, source⟩ := Option.bind_eq_some_iff.1 selected
  obtain ⟨name, old_ticker, rfl⟩ := Option.map_eq_some_iff.1 source
  simp [PriceChart.reselects, shown, old_ticker, ticker]

theorem selected_of_shown {t : PriceChart K} (ticker : stock.map Stock.ticker = some selection.ticker)
    (shown : t.shown = some (s.shownBy stock selection.interval)) : t.selected = some selection := by
  rw [PriceChart.selected, shown]
  simp only [PriceChart.shownBy, ticker, Option.bind_some, Option.map_some]

theorem shownReady_of_shown {t : PriceChart K} {interval : ChartInterval}
    (shown : t.shown = some (s.shownBy stock interval)) : t.shownReady = s.isChartReady := by
  rw [PriceChart.shownReady, shown]
  rfl

/-- The selection is shown and has a chart. -/
structure Opened (selection : Selection) (s : PriceChart K) : Prop where
  selected : s.selected = some selection
  ready : s.isChartReady = true
  chart : s.candleSeries.isSome = true

/-- New data leaves the chart there. -/
theorem Opened.redrawn (h : Opened selection s) (data : List (ChartBar K)) :
    (s.candleSeries.map fun _ => data).isSome = true := by
  rw [Option.isSome_map]
  exact h.chart

/-- No history has come yet. -/
structure Waiting (selection : Selection) (s : PriceChart K) : Prop extends Opened selection s where
  no_data : s.ohlcvData = []
  no_ref : s.ohlcvDataRef = []
  no_call : s.loadingMore = none
  no_history : s.received.history = none
  no_older : s.received.older = []
  request : s.histories = [] ∨ s.histories = [selection] ∧ s.shownReady = true
  unloaded : s.isHistoryLoaded = false ∧ s.isHistoryLoadedRef = false ∨ s.histories = [] ∧ s.shownReady = true

/-- The history has come. -/
structure Loaded (selection : Selection) (history : List (Bar K)) (s : PriceChart K) : Prop
    extends Opened selection s where
  shown_ready : s.shownReady = true
  no_request : s.histories = []
  received : s.received.history = some history
  loaded : s.isHistoryLoaded = true

/-- The history has come and is not rendered yet. -/
structure Arrived (selection : Selection) (history : List (Bar K)) (s : PriceChart K) : Prop
    extends Loaded selection history s where
  unshown : s.isHistoryLoadedRef = false
  data : s.ohlcvData = history
  changed : s.dataChanged = true
  no_call : s.loadingMore = none
  no_older : s.received.older = []
  plain : ∀ last ∈ (points history).getLast?, PlainTime last.time

theorem Waiting.buffered (h : Waiting selection s) (buffer ticks : List (LiveTick K)) :
    Waiting selection { s with tickBuffer := buffer, received := { s.received with ticks := ticks } } :=
  ⟨⟨h.selected, h.ready, h.chart⟩, h.no_data, h.no_ref, h.no_call, h.no_history, h.no_older, h.request, h.unloaded⟩

/-- The refs after a render without data. -/
theorem Waiting.synced (h : Waiting selection s) (ticker : stock.map Stock.ticker = some selection.ticker) :
    Waiting selection (s.rendered stock selection.interval) where
  selected := selected_of_shown ticker rfl
  ready := h.ready
  chart := h.chart
  no_data := h.no_data
  no_ref := by simp [PriceChart.rendered, PriceChart.syncRefs, h.no_data, h.no_ref]
  no_call := h.no_call
  no_history := h.no_history
  no_older := h.no_older
  request := by
    rw [shownReady_of_shown rfl, h.ready]
    exact h.request.imp_right fun asked => ⟨asked.1, rfl⟩
  unloaded := by
    rw [shownReady_of_shown rfl, h.ready]
    exact h.unloaded.imp (fun unloaded => ⟨unloaded.1, unloaded.1⟩) fun failed => ⟨failed.1, rfl⟩

/-- The render that calls `fetchHistory`. -/
theorem Waiting.asks (h : Waiting selection s) (ticker : stock.map Stock.ticker = some selection.ticker)
    (unready : s.shownReady = false) :
    Waiting selection
      ((s.rendered stock selection.interval).historyEffect stock true) := by
  obtain ⟨stock, rfl, name⟩ := Option.map_eq_some_iff.1 ticker
  have none_asked : s.histories = [] := h.request.elim id fun asked => by simp [unready] at asked
  have unloaded : s.isHistoryLoaded = false := h.unloaded.elim And.left fun failed => by simp [unready] at failed
  refine ⟨⟨selected_of_shown ticker rfl, h.ready, h.chart⟩, h.no_data, ?_, h.no_call, h.no_history, h.no_older,
    .inr ⟨?_, ?_⟩, .inl ⟨rfl, unloaded⟩⟩
  · simp [PriceChart.historyEffect, PriceChart.rendered, PriceChart.syncRefs, h.no_data, h.no_ref]
  · show s.histories ++ [⟨stock.ticker, selection.interval⟩] = [selection]
    rw [none_asked, name]
    rfl
  · exact h.ready

theorem Loaded.synced {history : List (Bar K)} (h : Loaded selection history s)
    (ticker : stock.map Stock.ticker = some selection.ticker) :
    Loaded selection history (s.rendered stock selection.interval) :=
  ⟨⟨selected_of_shown ticker rfl, h.ready, h.chart⟩, h.ready, h.no_request, h.received, h.loaded⟩

/-- What `Loaded` reads. -/
theorem Loaded.frame {history : List (Bar K)} {t : PriceChart K} (h : Loaded selection history s)
    (shown : t.shown = s.shown) (ready : t.isChartReady = s.isChartReady) (chart : t.candleSeries.isSome = true)
    (asked : t.histories = s.histories) (received : t.received.history = s.received.history)
    (loaded : t.isHistoryLoaded = s.isHistoryLoaded) : Loaded selection history t where
  selected := by
    rw [PriceChart.selected, shown]
    exact h.selected
  ready := ready.trans h.ready
  chart := chart
  shown_ready := by
    rw [PriceChart.shownReady, shown]
    exact h.shown_ready
  no_request := asked.trans h.no_request
  received := received.trans h.received
  loaded := loaded.trans h.loaded

theorem Waiting.loadMore (h : Waiting selection s) : s.loadMore = s := by
  simp [PriceChart.loadMore, h.no_ref]

theorem Arrived.loadMore {history : List (Bar K)} (h : Arrived selection history s) : s.loadMore = s := by
  simp [PriceChart.loadMore, h.unshown]

theorem noteHistory_of_selected {history : Option (List (Bar K))} (selected : s.selected = some selection) :
    s.noteHistory selection history =
      { s with received := { s.received with answered := true, history } } :=
  if_pos selected.symm

theorem noteOlder_of_selected {more : List (Bar K)} (selected : s.selected = some selection) :
    s.noteOlder selection more = { s with received := { s.received with older := more ++ s.received.older } } :=
  if_pos selected.symm

end Stages

variable [LinearOrder K] [Zero K]

/-- The stock and interval stay the same. -/
def ChartAction.Keeps (selection : Selection) : ChartAction K → Prop
  | .render stock interval _ => stock.map Stock.ticker = some selection.ticker ∧ interval = selection.interval
  | _ => True

instance (selection : Selection) : (a : ChartAction K) → Decidable (a.Keeps selection)
  | .render .. => inferInstanceAs (Decidable (_ ∧ _))
  | .loadMore => inferInstanceAs (Decidable True)
  | .historyResponse .. => inferInstanceAs (Decidable True)
  | .moreResponse .. => inferInstanceAs (Decidable True)

/-- When no request is out and the history load has been rendered, `ohlcvData` holds the history
with the ticks, merged with the older bars. -/
def NoTickLost (s : PriceChart K) : Prop :=
  s.histories = [] → s.loadingMore = none → s.isHistoryLoadedRef = true →
    ∀ history ∈ s.received.history,
      points s.ohlcvData = merge (points s.received.older)
        (live s.interval (points history) (s.received.ticks.map LiveTick.toTick))

/-- The tick of the render after the history load makes up for the ticks before it, and later ticks
find bars; `loadMore` brings bars when `ohlcvData` is sorted, none of them after its last bar, and
if it adds any, `ohlcvData` is still the snapshot. Times are in seconds and timestamps in
milliseconds. -/
def Lossless (parseFloat : String → Option K) (s : PriceChart K) : ChartAction K → Prop
  | .render stock _ now =>
      let fired := (s.fires parseFloat stock now).map LiveTick.toTick
      ∀ history ∈ s.received.history,
        (∀ tick ∈ fired, PlainStamp tick.timestamp ∧ s.ohlcvData ≠ []) ∧
          (s.isHistoryLoadedRef = false →
            live s.interval (points history) (s.received.ticks.map LiveTick.toTick ++ fired.toList) =
              live s.interval (points history) fired.toList)
  | .loadMore => True
  | .historyResponse _ response => ∀ history ∈ response, ∀ last ∈ history.getLast?, PlainTime last.time
  | .moreResponse response => ∀ call ∈ s.loadingMore, ∀ moreData ∈ response, moreData ≠ [] →
      TimeSeries.Increasing OhlcvPoint.time (points s.ohlcvData) ∧
        (∀ last ∈ (points s.ohlcvData).getLast?, ∀ point ∈ moreData, point.time ≤ last.time) ∧
        (PriceChart.Adds call (PriceChart.fetched call.selection moreData) →
          points s.ohlcvData = points call.currentData)

instance (parseFloat : String → Option K) (s : PriceChart K) :
    (a : ChartAction K) → Decidable (Lossless parseFloat s a)
  | .render stock _ now => inferInstanceAs (Decidable (∀ history ∈ s.received.history,
      (∀ tick ∈ (s.fires parseFloat stock now).map LiveTick.toTick, _ ∧ _) ∧ (_ → _ = _)))
  | .loadMore => inferInstanceAs (Decidable True)
  | .historyResponse _ response =>
      inferInstanceAs (Decidable (∀ history ∈ response, ∀ last ∈ history.getLast?, PlainTime last.time))
  | .moreResponse response => inferInstanceAs (Decidable (∀ call ∈ s.loadingMore, ∀ moreData ∈ response, _ →
      List.Pairwise _ _ ∧ (∀ last ∈ (points s.ohlcvData).getLast?, ∀ point ∈ moreData, _) ∧ (_ → _ = _)))

/-- The history is rendered. -/
structure Running (selection : Selection) (history : List (Bar K)) (s : PriceChart K) : Prop
    extends Loaded selection history s where
  kept : Kept selection.interval (points history) (s.received.ticks.map LiveTick.toTick) (points s.received.older)
    (points s.ohlcvData)
  awake : s.ohlcvData ≠ [] → s.dataChanged = true ∨ s.ohlcvDataRef ≠ []
  behind : Behind (points s.ohlcvDataRef) (points s.ohlcvData)
  call : ∀ call ∈ s.loadingMore, call.selection = selection ∧ call.currentData ≠ [] ∧
    Behind (points call.currentData) (points s.ohlcvData)

/-- The states of a run with one selection. -/
inductive Stage (parseFloat : String → Option K) (selection : Selection) (s : PriceChart K) : Prop
  | mounted (h : s = (priceChart parseFloat).init)
  | waiting (h : Waiting selection s)
  | arrived (history : List (Bar K)) (h : Arrived selection history s)
  | running (history : List (Bar K)) (h : Running selection history s)

theorem points_tickBars (interval : ChartInterval) (tick : LiveTick K) (bars : List (Bar K)) :
    points (tickBars interval tick bars) = applyTick interval tick.toTick (points bars) :=
  map_point_tickBars interval tick bars

variable {parseFloat : String → Option K} {selection : Selection} {s : PriceChart K} {tick : LiveTick K}
  {stock : Option Stock} {now : ℤ}

/-- A tick that is not ignored. -/
theorem applyTick_eq (chart : s.candleSeries.isSome = true) (awake : s.ohlcvDataRef ≠ []) :
    ∃ changed series, s.applyTick tick = { s with
      ohlcvData := tickBars s.interval tick s.ohlcvData, dataChanged := changed, candleSeries := some series } := by
  obtain ⟨series, some_series⟩ := Option.isSome_iff_exists.1 chart
  simp only [PriceChart.applyTick, some_series, Option.isNone_some, Bool.false_or, List.isEmpty_iff, awake, if_false,
    tickBars]
  cases tickUpdate s.interval tick s.ohlcvData with
  | none =>
    refine ⟨s.dataChanged, series, ?_⟩
    rw [← some_series]
    rfl
  | some update => exact ⟨true, _, rfl⟩

/-- While there are no bars in the ref, a tick is buffered or ignored. -/
theorem liveEffect_of_ref_nil (no_ref : s.ohlcvDataRef = []) (fired : Option (LiveTick K)) (loaded : Bool) :
    ∃ buffer ticks, s.liveEffect fired loaded =
      { s with tickBuffer := buffer, received := { s.received with ticks := ticks } } := by
  cases fired with
  | none => exact ⟨s.tickBuffer, s.received.ticks, rfl⟩
  | some tick =>
    cases loaded with
    | false => exact ⟨_, _, rfl⟩
    | true =>
      refine ⟨s.tickBuffer, s.received.ticks ++ [tick], ?_⟩
      simp only [PriceChart.liveEffect, if_true]
      exact PriceChart.applyTick_of_ref_nil no_ref

/-- A render that sees the chart for the first time calls `fetchHistory`. -/
theorem render_of_unready (same : s.reselects stock selection.interval = false) (ready : s.isChartReady = true)
    (unready : s.shownReady = false) (shown : s.shown.isSome = true) :
    s.render parseFloat stock selection.interval now =
      ((s.rendered stock selection.interval).historyEffect stock true).liveEffect
        (s.fires parseFloat stock now) s.isHistoryLoaded := by
  obtain ⟨old, shown⟩ := Option.isSome_iff_exists.1 shown
  rw [PriceChart.shownReady, shown, Option.any_some] at unready
  rw [PriceChart.render_of_same same, shown, Option.all_some, unready, ready]
  rfl

theorem render_of_ready (same : s.reselects stock selection.interval = false) (ready : s.isChartReady = true)
    (shown_ready : s.shownReady = true) :
    s.render parseFloat stock selection.interval now =
      (s.rendered stock selection.interval).liveEffect
        (s.fires parseFloat stock now) s.isHistoryLoaded := by
  obtain ⟨old, shown, shown_ready⟩ := (Option.any_eq_true _ _).1 shown_ready
  rw [PriceChart.render_of_same same, shown, Option.all_some, shown_ready, ready]
  rfl

theorem Waiting.render (h : Waiting selection s) (ticker : stock.map Stock.ticker = some selection.ticker) :
    Waiting selection (s.render parseFloat stock selection.interval now) := by
  have same := reselects_of_keeps h.selected ticker
  cases ready : s.shownReady with
  | false =>
    obtain ⟨old, shown, -⟩ := Option.bind_eq_some_iff.1 h.selected
    rw [render_of_unready same h.ready ready (by rw [shown]; rfl)]
    have asked := h.asks ticker ready
    obtain ⟨buffer, ticks, eq⟩ := liveEffect_of_ref_nil asked.no_ref (s.fires parseFloat stock now) s.isHistoryLoaded
    rw [eq]
    exact asked.buffered buffer ticks
  | true =>
    rw [render_of_ready same h.ready ready]
    have synced := h.synced ticker
    obtain ⟨buffer, ticks, eq⟩ := liveEffect_of_ref_nil synced.no_ref (s.fires parseFloat stock now) s.isHistoryLoaded
    rw [eq]
    exact synced.buffered buffer ticks

/-- The first render. -/
theorem waiting_mount (ticker : stock.map Stock.ticker = some selection.ticker) :
    Waiting selection ((priceChart parseFloat).init.render parseFloat stock selection.interval now) := by
  obtain ⟨stock, rfl, name⟩ := Option.map_eq_some_iff.1 ticker
  let mounted : PriceChart K := { (priceChart parseFloat).init with
    shown := some ((priceChart parseFloat).init.shownBy (some stock) selection.interval)
    isChartReady := true
    candleSeries := some [] }
  have opened : Waiting selection mounted :=
    ⟨⟨selected_of_shown ticker rfl, rfl, rfl⟩, rfl, rfl, rfl, rfl, rfl, .inl rfl, .inl ⟨rfl, rfl⟩⟩
  obtain ⟨buffer, ticks, eq⟩ := liveEffect_of_ref_nil opened.no_ref
    ((priceChart parseFloat).init.fires parseFloat (some stock) now) false
  have shape : (priceChart parseFloat).init.render parseFloat (some stock) selection.interval now =
      mounted.liveEffect ((priceChart parseFloat).init.fires parseFloat (some stock) now) false := rfl
  rw [shape, eq]
  exact opened.buffered buffer ticks

/-- The live effect once the history is loaded. -/
theorem liveEffect_eq {fired : Option (LiveTick K)} (chart : s.candleSeries.isSome = true)
    (awake : ∀ tick ∈ fired, s.ohlcvDataRef ≠ []) :
    ∃ changed series, s.liveEffect fired true = { s with
      ohlcvData := fired.elim s.ohlcvData fun tick => tickBars s.interval tick s.ohlcvData
      dataChanged := changed
      candleSeries := some series
      received := { s.received with ticks := s.received.ticks ++ fired.toList } } := by
  cases fired with
  | none =>
    obtain ⟨series, some_series⟩ := Option.isSome_iff_exists.1 chart
    refine ⟨s.dataChanged, series, ?_⟩
    rw [← some_series, Option.toList_none, List.append_nil]
    rfl
  | some tick =>
    let noted : PriceChart K := { s with received := { s.received with ticks := s.received.ticks ++ [tick] } }
    obtain ⟨changed, series, eq⟩ : ∃ changed series, noted.applyTick tick = { noted with
        ohlcvData := tickBars noted.interval tick noted.ohlcvData, dataChanged := changed,
        candleSeries := some series } := applyTick_eq chart (awake tick rfl)
    exact ⟨changed, series, eq⟩

/-- **The live effect after a render**, from ticks that make up the series so far. -/
theorem running_liveEffect {history : List (Bar K)} {ticks : List (Tick K)} {fired : Option (LiveTick K)}
    (h : Loaded selection history s) (awake : s.ohlcvData ≠ [] → s.ohlcvDataRef ≠ [])
    (kept : Kept selection.interval (points history) ticks (points s.received.older) (points s.ohlcvData))
    (behind : Behind (points s.ohlcvDataRef) (points s.ohlcvData))
    (call : ∀ call ∈ s.loadingMore, call.selection = selection ∧ call.currentData ≠ [] ∧
      Behind (points call.currentData) (points s.ohlcvData))
    (plain : ∀ tick ∈ fired.map LiveTick.toTick, PlainStamp tick.timestamp ∧ s.ohlcvData ≠ [])
    (same : live selection.interval (points history)
        (s.received.ticks.map LiveTick.toTick ++ (fired.map LiveTick.toTick).toList) =
      live selection.interval (points history) (ticks ++ (fired.map LiveTick.toTick).toList)) :
    Running selection history (s.liveEffect fired true) := by
  obtain ⟨changed, series, eq⟩ := liveEffect_eq h.chart fun tick mem =>
    awake (plain tick.toTick (Option.mem_map_of_mem _ mem)).2
  rw [eq]
  cases fired with
  | none =>
    have kept_now : Kept selection.interval (points history) ((s.received.ticks ++ []).map LiveTick.toTick)
        (points s.received.older) (points s.ohlcvData) := by
      rw [List.append_nil]
      exact kept.of_live_eq (by simpa using same)
    exact ⟨h.frame rfl rfl rfl rfl rfl rfl, kept_now, fun some_bar => .inr (awake some_bar), behind, call⟩
  | some tick =>
    obtain ⟨stamp, some_bar⟩ := plain tick.toTick rfl
    have data_eq : points (tickBars s.interval tick s.ohlcvData) =
        applyTick selection.interval tick.toTick (points s.ohlcvData) := by
      rw [points_tickBars, interval_of_selected h.selected]
    have longer := times_applyTick selection.interval tick.toTick (points s.ohlcvData)
    have kept_now : Kept selection.interval (points history) ((s.received.ticks ++ [tick]).map LiveTick.toTick)
        (points s.received.older) (points (tickBars s.interval tick s.ohlcvData)) := by
      rw [data_eq, List.map_append]
      exact (kept.snoc (mt points_eq_nil.1 some_bar) stamp).of_live_eq same
    refine ⟨h.frame rfl rfl rfl rfl rfl rfl, kept_now, fun _ => .inr (awake some_bar), ?_, ?_⟩
    · show Behind _ (points (tickBars s.interval tick s.ohlcvData))
      rw [data_eq]
      exact behind.of_prefix longer
    · intro request out
      obtain ⟨own, some_snapshot, call_behind⟩ := call request out
      refine ⟨own, some_snapshot, ?_⟩
      show Behind _ (points (tickBars s.interval tick s.ohlcvData))
      rw [data_eq]
      exact call_behind.of_prefix longer

theorem Arrived.render {history : List (Bar K)} (h : Arrived selection history s)
    (ticker : stock.map Stock.ticker = some selection.ticker)
    (lossless : Lossless parseFloat s (.render stock selection.interval now)) :
    Running selection history (s.render parseFloat stock selection.interval now) := by
  obtain ⟨plain, same⟩ := lossless history h.received
  rw [render_of_ready (reselects_of_keeps h.selected ticker) h.ready h.shown_ready, h.loaded]
  have ref_eq : (s.rendered stock selection.interval).ohlcvDataRef = s.ohlcvData := if_pos h.changed
  have kept : Kept selection.interval (points history) [] (points s.received.older) (points s.ohlcvData) := by
    rw [h.no_older, h.data]
    exact kept_history h.plain
  refine running_liveEffect (h.toLoaded.synced ticker) ?_ kept ?_ ?_ plain ?_
  · intro some_bar
    rw [ref_eq]
    exact some_bar
  · rw [ref_eq]
    exact Behind.refl _
  · intro call out
    rw [show (s.rendered stock selection.interval).loadingMore = none from h.no_call] at out
    cases out
  · rw [← interval_of_selected h.selected]
    exact same h.unshown

theorem Running.render {history : List (Bar K)} (h : Running selection history s)
    (ticker : stock.map Stock.ticker = some selection.ticker)
    (lossless : Lossless parseFloat s (.render stock selection.interval now)) :
    Running selection history (s.render parseFloat stock selection.interval now) := by
  obtain ⟨plain, -⟩ := lossless history h.received
  rw [render_of_ready (reselects_of_keeps h.selected ticker) h.ready h.shown_ready, h.loaded]
  refine running_liveEffect (h.toLoaded.synced ticker) ?_ h.kept ?_ h.call plain rfl
  · intro some_bar
    show (if s.dataChanged then s.ohlcvData else s.ohlcvDataRef) ≠ []
    split_ifs with changed
    · exact some_bar
    · exact (h.awake some_bar).resolve_left changed
  · show Behind (points (if s.dataChanged then s.ohlcvData else s.ohlcvDataRef)) (points s.ohlcvData)
    split_ifs
    · exact Behind.refl _
    · exact h.behind

theorem Running.loadMore {history : List (Bar K)} (h : Running selection history s) :
    Running selection history s.loadMore := by
  unfold PriceChart.loadMore
  split_ifs with skipped
  · exact h
  · simp only [Bool.or_eq_true, not_or, List.isEmpty_iff] at skipped
    refine ⟨h.toLoaded.frame rfl rfl h.chart rfl rfl rfl, h.kept, h.awake, h.behind, ?_⟩
    intro call out
    rw [h.selected] at out
    cases out
    exact ⟨rfl, skipped.1.2, h.behind⟩

/-- While there are no bars in the ref, `fetchHistory` drops the buffered ticks. -/
theorem showHistory_of_ref_nil (no_ref : s.ohlcvDataRef = []) (history : List (Bar K)) :
    s.showHistory history = { (s.setOhlcvData history).updateChartData history with tickBuffer := [] } := by
  have dropped := PriceChart.foldl_applyTick_of_ref_nil (s := (s.setOhlcvData history).updateChartData history) no_ref
    (s.pendingTicks history)
  rw [PriceChart.showHistory, dropped]

/-- The history comes, or its request fails. -/
theorem Waiting.historyResponse {i : ℕ} {asked : Selection} {response : Option (List (OhlcvPoint K))}
    (h : Waiting selection s) (request : s.histories[i]? = some asked)
    (lossless : Lossless parseFloat s (.historyResponse i response)) :
    Stage parseFloat selection ({ s with histories := s.histories.eraseIdx i }.historyResponse asked response) := by
  obtain none_asked | ⟨one, ready⟩ := h.request
  · rw [none_asked] at request
    cases request
  · obtain ⟨rfl, rfl⟩ : i = 0 ∧ asked = selection := by
      rw [one] at request
      cases i with
      | zero => exact ⟨rfl, (Option.some.inj request).symm⟩
      | succ i => cases request
    have answered : s.histories.eraseIdx 0 = [] := by
      rw [one]
      rfl
    have selected : PriceChart.selected { s with histories := s.histories.eraseIdx 0 } = some asked := h.selected
    cases response with
    | none =>
      rw [PriceChart.historyResponse, Option.map_none, Option.elim_none, noteHistory_of_selected selected, answered]
      exact .waiting ⟨⟨h.selected, h.ready, h.chart⟩, h.no_data, h.no_ref, h.no_call, rfl, h.no_older, .inl rfl,
        .inr ⟨rfl, ready⟩⟩
    | some history =>
      have unloaded : s.isHistoryLoadedRef = false := h.unloaded.elim And.right fun failed => by simp [one] at failed
      have plain : ∀ last ∈ (points (PriceChart.fetched asked history)).getLast?, PlainTime last.time := by
        rw [points_fetched]
        exact lossless history rfl
      rw [PriceChart.historyResponse, Option.map_some, Option.elim_some,
        showHistory_of_ref_nil (s := { s with histories := s.histories.eraseIdx 0 }) h.no_ref, noteHistory_of_selected,
        answered]
      · exact .arrived (PriceChart.fetched asked history) ⟨⟨⟨h.selected, h.ready, h.redrawn _⟩, ready, rfl, rfl, rfl⟩,
          unloaded, rfl, rfl, h.no_call, h.no_older, plain⟩
      · exact h.selected

/-- **A response of older bars.** -/
theorem Running.moreResponse {history : List (Bar K)} {call : LoadMore K} {response : Option (List (OhlcvPoint K))}
    (h : Running selection history s) (out : s.loadingMore = some call)
    (lossless : Lossless parseFloat s (.moreResponse response)) :
    Running selection history (s.moreResponse call response) := by
  obtain ⟨own, some_snapshot, behind⟩ := h.call call out
  cases response with
  | none =>
    exact ⟨h.toLoaded.frame rfl rfl h.chart rfl rfl rfl, h.kept, h.awake, h.behind,
      fun _ none_out => nomatch none_out⟩
  | some moreData =>
    have joined : points (PriceChart.fetched call.selection moreData ++ s.received.older) =
        moreData ++ points s.received.older := by
      rw [points, List.map_append, ← points, ← points, points_fetched]
    rw [PriceChart.moreResponse, Option.map_some, Option.elim_some]
    rcases eq_or_ne moreData [] with rfl | some_more
    · have none_new : ¬ PriceChart.Adds call (PriceChart.fetched call.selection []) := fun adds => adds.1 rfl
      rw [PriceChart.showMore_of_not_adds none_new, own, noteOlder_of_selected]
      · exact ⟨h.toLoaded.frame rfl rfl h.chart rfl rfl rfl, h.kept, h.awake, h.behind,
          fun _ none_out => nomatch none_out⟩
      · exact h.selected
    · obtain ⟨sorted, le, same⟩ := lossless call out moreData rfl some_more
      have some_bar : points s.ohlcvData ≠ [] := behind.ne_nil (mt points_eq_nil.1 some_snapshot)
      have kept := h.kept.collect some_more sorted some_bar le
      by_cases adds : PriceChart.Adds call (PriceChart.fetched call.selection moreData)
      · have data_eq : points (uniqueSorted (PriceChart.fetched call.selection moreData ++ call.currentData)) =
            TimeSeries.collect OhlcvPoint.time (moreData ++ points s.ohlcvData) := by
          rw [points_uniqueSorted, points, List.map_append, ← points, ← points, points_fetched, same adds]
        have behind_ref := h.behind.collect sorted moreData
        rw [← data_eq, ← joined, own] at kept
        rw [← data_eq, own] at behind_ref
        rw [PriceChart.showMore_of_adds adds, own, noteOlder_of_selected]
        · exact ⟨h.toLoaded.frame rfl rfl (h.redrawn _) rfl rfl rfl, kept,
            fun _ => .inl rfl, behind_ref, fun _ none_out => nomatch none_out⟩
        · exact h.selected
      · have unchanged :
            TimeSeries.collect OhlcvPoint.time (moreData ++ points s.ohlcvData) = points s.ohlcvData := by
          have none_new := collect_of_not_adds (by simpa [PriceChart.fetched] using some_more) adds behind sorted
          rwa [points_fetched] at none_new
        rw [unchanged, ← joined] at kept
        rw [PriceChart.showMore_of_not_adds adds, own, noteOlder_of_selected]
        · rw [own] at kept
          exact ⟨h.toLoaded.frame rfl rfl h.chart rfl rfl rfl, kept, h.awake, h.behind,
            fun _ none_out => nomatch none_out⟩
        · exact h.selected

theorem stage_step {s' : PriceChart K} {a : ChartAction K} (h : Stage parseFloat selection s)
    (keeps : a.Keeps selection) (lossless : Lossless parseFloat s a) (step : (priceChart parseFloat).step s a = some s') :
    Stage parseFloat selection s' := by
  cases a with
  | render stock interval now =>
    obtain ⟨ticker, rfl⟩ := keeps
    cases step
    cases h with
    | mounted h =>
      rw [h]
      exact .waiting (waiting_mount ticker)
    | waiting h => exact .waiting (h.render ticker)
    | arrived history h => exact .running history (h.render ticker lossless)
    | running history h => exact .running history (h.render ticker lossless)
  | loadMore =>
    cases step
    cases h with
    | mounted h =>
      rw [h]
      exact .mounted rfl
    | waiting h =>
      rw [h.loadMore]
      exact .waiting h
    | arrived history h =>
      rw [h.loadMore]
      exact .arrived history h
    | running history h => exact .running history h.loadMore
  | historyResponse i response =>
    obtain ⟨asked, request, rfl⟩ := Option.map_eq_some_iff.1 step
    cases h with
    | mounted h =>
      rw [h] at request
      cases request
    | waiting h => exact h.historyResponse request lossless
    | arrived history h =>
      rw [h.no_request] at request
      cases request
    | running history h =>
      rw [h.no_request] at request
      cases request
  | moreResponse response =>
    obtain ⟨call, out, rfl⟩ := Option.map_eq_some_iff.1 step
    cases h with
    | mounted h =>
      rw [h] at out
      cases out
    | waiting h =>
      rw [h.no_call] at out
      cases out
    | arrived history h =>
      rw [h.no_call] at out
      cases out
    | running history h => exact .running history (h.moreResponse out lossless)

theorem Stage.noTickLost (h : Stage parseFloat selection s) : NoTickLost s := by
  intro _ _ shown history received
  cases h with
  | mounted h =>
    rw [h] at received
    cases received
  | waiting h =>
    rw [h.no_history] at received
    cases received
  | arrived history h =>
    rw [h.unshown] at shown
    cases shown
  | running history' h =>
    obtain rfl : history' = history := Option.some.inj (h.received.symm.trans received)
    rw [interval_of_selected h.selected]
    exact h.kept.merged.eq_merge

/-- **No live tick is lost**, in runs with one selection whose steps are all lossless. -/
theorem no_tick_lost (parseFloat : String → Option K) (selection : Selection) {acts : List (ChartAction K)}
    (lossless : (priceChart parseFloat).Along (fun s a => a.Keeps selection ∧ Lossless parseFloat s a)
      (priceChart parseFloat).init acts) :
    (priceChart parseFloat).Always NoTickLost acts := by
  refine Machine.always_of_inv (I := Stage parseFloat selection) (.mounted rfl) ?_ (fun s _ h => h.noTickLost) lossless
  intro s a s' _ h ok step
  exact stage_step h ok.1 ok.2 step

/-- `parseFloat` on two prices. -/
def parseWon (text : String) : Option ℤ :=
  if text = "70000" then some 70000 else if text = "75000" then some 75000 else none

/-- Ticks before and after the load of older bars. -/
def loadsOlder : List (ChartAction ℤ) :=
  [.render (some ⟨"005930", "70000"⟩) .day 1704100000000, .render (some ⟨"005930", "70000"⟩) .day 1704100000100,
    .historyResponse 0 (some [⟨1704067200, 69000, 71000, 68000, 69000, 10⟩]),
    .render (some ⟨"005930", "70000"⟩) .day 1704100000200, .render (some ⟨"005930", "75000"⟩) .day 1704100000300,
    .render (some ⟨"005930", "70000"⟩) .day 1704186500000, .render (some ⟨"005930", "70000"⟩) .day 1704186500100,
    .loadMore, .moreResponse (some [⟨1703980800, 69000, 70000, 68000, 69000, 10⟩]),
    .render (some ⟨"005930", "75000"⟩) .day 1704186500200]

theorem no_tick_lost_loadsOlder : ∃ s, (priceChart parseWon).run loadsOlder = some s ∧
    s.received.ticks.length = 5 ∧ (points s.received.older).length = 1 ∧
    (priceChart parseWon).Always NoTickLost loadsOlder := by
  obtain ⟨s, run, received⟩ := (priceChart parseWon).exists_of_any loadsOlder
    (fun s => s.received.ticks.length = 5 && (points s.received.older).length = 1) (by decide +kernel)
  simp only [Bool.and_eq_true, decide_eq_true_eq] at received
  refine ⟨s, run, received.1, received.2, ?_⟩
  exact no_tick_lost parseWon ⟨"005930", .day⟩ (Machine.along_of_check
    (p := fun s a => decide (a.Keeps ⟨"005930", .day⟩ ∧ Lossless parseWon s a)) (fun _ _ => of_decide_eq_true)
    (by decide +kernel))

/-- When a render took place. -/
def ChartAction.renderedAt {K : Type} : ChartAction K → Option ℤ
  | .render _ _ at_time => some at_time
  | _ => none

/-- A tick comes while `loadMore` waits for older bars. -/
theorem tick_lost_in_loadMore : ¬ ∀ acts : List (ChartAction ℤ), (∀ a ∈ acts, a.Keeps ⟨"005930", .day⟩) →
    (acts.filterMap ChartAction.renderedAt).Pairwise (· ≤ ·) → (priceChart parseWon).Always NoTickLost acts := by
  intro claim
  let acts : List (ChartAction ℤ) := [.render (some ⟨"005930", "70000"⟩) .day 1704100000000,
    .render (some ⟨"005930", "70000"⟩) .day 1704100000100,
    .historyResponse 0 (some [⟨1704067200, 69000, 71000, 68000, 69000, 10⟩]),
    .render (some ⟨"005930", "70000"⟩) .day 1704100000200, .render (some ⟨"005930", "70000"⟩) .day 1704100000300,
    .loadMore, .render (some ⟨"005930", "75000"⟩) .day 1704100000400,
    .moreResponse (some [⟨1703980800, 69000, 70000, 68000, 69000, 10⟩])]
  have keeps : ∀ a ∈ acts, a.Keeps ⟨"005930", .day⟩ := by
    simp [acts, ChartAction.Keeps]
  obtain ⟨s, run, bad⟩ := Machine.exists_of_any (M := priceChart parseWon) acts
    (fun s => s.histories = [] ∧ s.loadingMore = none ∧ s.isHistoryLoadedRef ∧ ∃ history ∈ s.received.history,
      points s.ohlcvData ≠ merge (points s.received.older)
        (live s.interval (points history) (s.received.ticks.map LiveTick.toTick)))
    (by decide +kernel)
  simp only [decide_eq_true_eq] at bad
  obtain ⟨none_asked, none_called, shown, history, received, lost⟩ := bad
  exact lost (claim acts keeps (by decide) acts s List.prefix_rfl run none_asked none_called shown history received)

end StockAnomaly.WebApp

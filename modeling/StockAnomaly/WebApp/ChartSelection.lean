import StockAnomaly.WebApp.PriceChart

/-!
# What the price chart shows after a selection

Responses are not matched with the selection: one that arrives after the selection has changed
still sets `ohlcvData` and the chart. **`only_selected`** names the responses that must not come
for the chart to show the selected series alone.
-/

namespace StockAnomaly.WebApp

open StockAnomaly.Theory

variable {K : Type}

/-- All sources of the bars are in `S`. -/
def From (S : Selection → Prop) (bars : List (Bar K)) : Prop := ∀ bar ∈ bars, ∀ source ∈ bar.sources, S source

instance (S : Selection → Prop) [DecidablePred S] (bars : List (Bar K)) : Decidable (From S bars) :=
  inferInstanceAs (Decidable (∀ bar ∈ bars, ∀ source ∈ bar.sources, S source))

/-- The bars in `ohlcvData` and those given to the chart. -/
def PriceChart.onScreen (s : PriceChart K) : List (Bar K) :=
  s.ohlcvData ++ (s.candleSeries.getD []).map ChartBar.bar

/-- Once the history load of the selection has completed, every bar on the screen is of it. -/
def OnlySelected (s : PriceChart K) : Prop := s.received.answered → From s.Selects s.onScreen

variable {S : Selection → Prop} {interval : ChartInterval} {bars more : List (Bar K)} {s : PriceChart K}

theorem from_nil : From S ([] : List (Bar K)) := fun _ mem => nomatch mem

theorem from_append : From S (bars ++ more) ↔ From S bars ∧ From S more := List.forall_mem_append

theorem From.subset (h : From S bars) (sub : ∀ bar ∈ more, bar ∈ bars) : From S more :=
  fun bar mem => h bar (sub bar mem)

theorem from_fetched {selection : Selection} (h : S selection) (points : List (OhlcvPoint K)) :
    From S (PriceChart.fetched selection points) := by
  intro bar mem source source_mem
  obtain ⟨point, -, rfl⟩ := List.mem_map.1 mem
  obtain rfl := List.mem_singleton.1 source_mem
  exact h

theorem mem_chartData {bar : ChartBar K} (mem : bar ∈ chartData interval bars) : bar.bar ∈ bars := by
  obtain ⟨d, sorted, rfl⟩ := List.mem_map.1 (TimeSeries.mem_of_mem_mapValues mem)
  exact (List.mem_insertionSort _).1 sorted

theorem mem_uniqueSorted {bar : Bar K} (mem : bar ∈ uniqueSorted bars) : bar ∈ bars :=
  TimeSeries.mem_of_mem_mapValues ((List.mem_insertionSort _).1 mem)

theorem from_chartData (h : From S bars) : From S ((chartData interval bars).map ChartBar.bar) := by
  refine h.subset fun bar mem => ?_
  obtain ⟨given, given_mem, rfl⟩ := List.mem_map.1 mem
  exact mem_chartData given_mem

namespace PriceChart

/-- `setOhlcvData(data)` and `updateChartData(data)`. -/
theorem from_setOhlcvData (h : From S bars) : From S ((s.setOhlcvData bars).updateChartData bars).onScreen := by
  refine from_append.2 ⟨h, ?_⟩
  cases series : s.candleSeries with
  | none => simp [updateChartData, setOhlcvData, series, From]
  | some shown =>
    simp only [updateChartData, setOhlcvData, series, Option.map_some, Option.getD_some]
    exact from_chartData h

@[simp] theorem noteHistory_onScreen {selection : Selection} {history : Option (List (Bar K))} :
    (s.noteHistory selection history).onScreen = s.onScreen := by
  unfold noteHistory
  split_ifs <;> rfl

@[simp] theorem noteOlder_onScreen {selection : Selection} : (s.noteOlder selection bars).onScreen = s.onScreen := by
  unfold noteOlder
  split_ifs <;> rfl

theorem from_historyEffect {stock : Option Stock} {isChartReady : Bool} (h : From S s.onScreen) :
    From S (s.historyEffect stock isChartReady).onScreen := by
  cases stock with
  | none =>
    refine from_append.2 ⟨from_nil, ?_⟩
    cases series : s.candleSeries <;> simp [historyEffect, setOhlcvData, series, From]
  | some stock =>
    rw [historyEffect]
    split_ifs <;> exact h

/-- A tick is of the stock that is rendered. -/
theorem ticker_of_fires {parseFloat : String → Option K} {stock : Option Stock} {now : ℤ}
    (fires : tick ∈ s.fires parseFloat stock now) : stock.map Stock.ticker = some tick.ticker := by
  unfold PriceChart.fires at fires
  split_ifs at fires
  · obtain ⟨stock, rfl, price⟩ := Option.bind_eq_some_iff.1 fires
    obtain ⟨price, -, rfl⟩ := Option.map_eq_some_iff.1 price
    rfl
  · cases fires

end PriceChart

section Ticks

variable [LinearOrder K] [Zero K] {tick : LiveTick K}

/-- A tick adds its own source only. -/
theorem from_tickUpdate {next : List (Bar K)} {given : ChartBar K} (h : From S bars)
    (source : S ⟨tick.ticker, interval⟩) (update : tickUpdate interval tick bars = some (next, given)) :
    From S next ∧ From S [given.bar] := by
  obtain ⟨rfl, new⟩ | ⟨front, last, rfl, rfl, updated⟩ := tickUpdate_cases update
  · have given_from : From S [given.bar] := by
      rw [new]
      exact from_fetched source [newPoint interval tick.toTick]
    exact ⟨from_append.2 ⟨h, given_from⟩, given_from⟩
  · obtain ⟨h_front, h_last⟩ := from_append.1 h
    have given_from : From S [given.bar] := by
      rw [updated]
      simp only [From, List.mem_singleton, forall_eq, List.forall_mem_cons] at h_last ⊢
      exact ⟨source, h_last⟩
    exact ⟨from_append.2 ⟨h_front, given_from⟩, given_from⟩

namespace PriceChart

theorem from_applyTick (h : From S s.onScreen) (source : S ⟨tick.ticker, s.interval⟩) :
    From S (s.applyTick tick).onScreen := by
  unfold applyTick
  split_ifs
  · exact h
  · split
    · exact h
    next newHistory given update =>
      obtain ⟨data, chart⟩ := from_append.1 h
      obtain ⟨next, last⟩ := from_tickUpdate data source update
      refine from_append.2 ⟨next, ?_⟩
      cases series : s.candleSeries with
      | none => exact from_nil
      | some shown =>
        rw [series] at chart
        show From S ((shown ++ [given]).map ChartBar.bar)
        rw [List.map_append]
        exact from_append.2 ⟨chart, last⟩

theorem from_foldl_applyTick {ticks : List (LiveTick K)} (h : From S s.onScreen)
    (sources : ∀ tick ∈ ticks, S ⟨tick.ticker, s.interval⟩) :
    From S (ticks.foldl (fun s tick => s.applyTick tick) s).onScreen := by
  induction ticks generalizing s with
  | nil => exact h
  | cons tick ticks ih =>
    obtain ⟨first, rest⟩ := List.forall_mem_cons.1 sources
    refine ih (from_applyTick h first) ?_
    simpa only [interval, applyTick_shown] using rest

/-- **The screen after a history response** is of that response and of the ticks that are applied. -/
theorem from_showHistory (h : From S bars)
    (sources : s.ohlcvDataRef = [] ∨ ∀ tick ∈ s.pendingTicks bars, S ⟨tick.ticker, s.interval⟩) :
    From S (s.showHistory bars).onScreen := by
  have given : From S ((s.setOhlcvData bars).updateChartData bars).onScreen := from_setOhlcvData h
  obtain empty | sources := sources
  · have nothing := foldl_applyTick_of_ref_nil (s := (s.setOhlcvData bars).updateChartData bars) empty
      (s.pendingTicks bars)
    show From S (PriceChart.onScreen (List.foldl _ _ _))
    rw [nothing]
    exact given
  · exact from_foldl_applyTick given sources

theorem from_liveEffect {fired : Option (LiveTick K)} {isHistoryLoaded : Bool} (h : From S s.onScreen)
    (source : ∀ tick ∈ fired, S ⟨tick.ticker, s.interval⟩) :
    From S (s.liveEffect fired isHistoryLoaded).onScreen := by
  cases fired with
  | none => exact h
  | some tick =>
    cases isHistoryLoaded with
    | false => exact h
    | true => exact from_applyTick (s := { s with received := _ }) h (source tick rfl)

/-- **A render without a new selection** adds the source of its tick at most. -/
theorem from_render {parseFloat : String → Option K} {stock : Option Stock} {now : ℤ}
    (same : s.reselects stock interval = false) (h : From S s.onScreen)
    (source : ∀ tick ∈ s.fires parseFloat stock now, S ⟨tick.ticker, interval⟩) :
    From S (s.render parseFloat stock interval now).onScreen := by
  have rendered : From S (s.rendered stock interval).onScreen := h
  have sources (t : PriceChart K) (shown : t.shown = some (s.shownBy stock interval)) :
      ∀ tick ∈ s.fires parseFloat stock now, S ⟨tick.ticker, t.interval⟩ := by
    rw [PriceChart.interval, shown]
    exact source
  rw [render_of_same same]
  split_ifs
  · exact from_liveEffect (from_historyEffect rendered) (sources _ historyEffect_shown)
  · exact from_liveEffect rendered (sources _ rfl)

end PriceChart

/-- The responses that come for the selection that is shown, or change nothing, once the history
load of the selection has completed or completes with them. -/
def Current (s : PriceChart K) : ChartAction K → Prop
  | .historyResponse i response => ∀ selection ∈ s.histories[i]?,
      s.received.answered = true ∨ s.Selects selection →
        match response with
        | none => From s.Selects s.onScreen
        | some history => (history = [] ∨ s.Selects selection) ∧ (s.ohlcvDataRef = [] ∨
            ∀ tick ∈ s.pendingTicks (PriceChart.fetched selection history), s.Selects ⟨tick.ticker, s.interval⟩)
  | .moreResponse (some moreData) => ∀ call ∈ s.loadingMore, s.received.answered = true →
      PriceChart.Adds call (PriceChart.fetched call.selection moreData) →
        s.Selects call.selection ∧ From s.Selects call.currentData
  | _ => True

instance (s : PriceChart K) : (a : ChartAction K) → Decidable (Current s a)
  | .historyResponse i none =>
    inferInstanceAs (Decidable (∀ selection ∈ s.histories[i]?, _ → From s.Selects s.onScreen))
  | .historyResponse i (some _) => inferInstanceAs (Decidable (∀ selection ∈ s.histories[i]?, _ → _ ∧ _))
  | .moreResponse (some _) => inferInstanceAs (Decidable (∀ call ∈ s.loadingMore, _ → _ → _ ∧ _))
  | .moreResponse none => inferInstanceAs (Decidable True)
  | .render .. => inferInstanceAs (Decidable True)
  | .loadMore => inferInstanceAs (Decidable True)

theorem onlySelected_render {parseFloat : String → Option K} {stock : Option Stock} {now : ℤ} (h : OnlySelected s) :
    OnlySelected (s.render parseFloat stock interval now) := by
  intro answered
  rw [PriceChart.render_answered] at answered
  cases same : s.reselects stock interval with
  | true => simp [same] at answered
  | false =>
    rw [same, if_neg Bool.false_ne_true] at answered
    obtain ⟨stays, selected⟩ := PriceChart.selected_render same
    refine PriceChart.from_render same ?_ ?_
    · intro bar mem source source_mem
      exact stays.trans (h answered bar mem source source_mem)
    · intro tick fires
      rw [PriceChart.Selects, stays, selected]
      obtain ⟨stock, rfl, ticker⟩ := Option.map_eq_some_iff.1 (PriceChart.ticker_of_fires fires)
      rw [← ticker]
      rfl

theorem onlySelected_historyResponse {i : ℕ} {selection : Selection} {response : Option (List (OhlcvPoint K))}
    (asked : s.histories[i]? = some selection) (current : Current s (.historyResponse i response)) :
    OnlySelected ({ s with histories := s.histories.eraseIdx i }.historyResponse selection response) := by
  intro answered
  have loaded : s.received.answered = true ∨ s.Selects selection :=
    (PriceChart.historyResponse_answered (s := { s with histories := s.histories.eraseIdx i })).1 answered
  have selects : ({ s with histories := s.histories.eraseIdx i }.historyResponse selection response).Selects =
      s.Selects := PriceChart.selects_congr PriceChart.historyResponse_shown
  rw [selects]
  cases response with
  | none =>
    show From s.Selects (PriceChart.noteHistory _ _ _).onScreen
    rw [PriceChart.noteHistory_onScreen]
    exact current selection asked loaded
  | some history =>
    obtain ⟨bars, ticks⟩ := current selection asked loaded
    show From s.Selects (PriceChart.noteHistory _ _ _).onScreen
    rw [PriceChart.noteHistory_onScreen]
    refine PriceChart.from_showHistory ?_ ticks
    obtain rfl | own := bars
    · exact from_nil
    · exact from_fetched own history

omit [LinearOrder K] [Zero K] in
theorem onlySelected_moreResponse {call : LoadMore K} {response : Option (List (OhlcvPoint K))}
    (h : OnlySelected s) (asked : s.loadingMore = some call) (current : Current s (.moreResponse response)) :
    OnlySelected (s.moreResponse call response) := by
  intro answered
  rw [PriceChart.moreResponse_answered] at answered
  rw [PriceChart.selects_congr (s := s) PriceChart.moreResponse_shown]
  cases response with
  | none => exact h answered
  | some moreData =>
    show From s.Selects (PriceChart.noteOlder _ _ _).onScreen
    rw [PriceChart.noteOlder_onScreen]
    by_cases adds : PriceChart.Adds call (PriceChart.fetched call.selection moreData)
    · obtain ⟨own, snapshot⟩ := current call asked answered adds
      rw [PriceChart.showMore_of_adds adds]
      refine PriceChart.from_setOhlcvData ?_
      refine (from_append.2 ⟨from_fetched own moreData, snapshot⟩).subset ?_
      intro bar mem
      exact mem_uniqueSorted mem
    · rw [PriceChart.showMore_of_not_adds adds]
      exact h answered

/-- One step. -/
theorem onlySelected_step {parseFloat : String → Option K} {s' : PriceChart K} {a : ChartAction K}
    (h : OnlySelected s) (current : Current s a) (step : (priceChart parseFloat).step s a = some s') :
    OnlySelected s' := by
  cases a with
  | render stock interval now =>
    cases step
    exact onlySelected_render h
  | loadMore =>
    cases step
    unfold PriceChart.loadMore
    split_ifs
    · exact h
    · exact h
  | historyResponse i response =>
    obtain ⟨selection, asked, rfl⟩ := Option.map_eq_some_iff.1 step
    exact onlySelected_historyResponse asked current
  | moreResponse response =>
    obtain ⟨call, asked, rfl⟩ := Option.map_eq_some_iff.1 step
    exact onlySelected_moreResponse h asked current

/-- **The chart shows the selected series** as long as no response for another selection comes once
the history load has completed, and none that mixes. -/
theorem only_selected (parseFloat : String → Option K) {acts : List (ChartAction K)}
    (current : (priceChart parseFloat).Along Current (priceChart parseFloat).init acts) :
    (priceChart parseFloat).Always OnlySelected acts := by
  refine Machine.always_of_inv (I := OnlySelected) (P := Current) ?_ ?_ (fun s _ h => h) current
  · intro answered
    cases answered
  · intro s a s' _ h current step
    exact onlySelected_step h current step

end Ticks

/-- `parseFloat` on one price. -/
def won (text : String) : Option ℤ := if text = "70000" then some 70000 else none

/-- Older bars of a stock are loaded, and more of them when the other stock is selected, whose history
comes last. -/
def twoStocks : List (ChartAction ℤ) :=
  [.render (some ⟨"005930", "70000"⟩) .day 1704100000000, .render (some ⟨"005930", "70000"⟩) .day 1704100000100,
    .historyResponse 0 (some [⟨1704067200, 69000, 71000, 68000, 70000, 10⟩]),
    .render (some ⟨"005930", "70000"⟩) .day 1704100000200, .render (some ⟨"005930", "70000"⟩) .day 1704100000300,
    .loadMore, .moreResponse (some [⟨1703980800, 69000, 70000, 68000, 69000, 10⟩]),
    .render (some ⟨"005930", "70000"⟩) .day 1704100000400, .loadMore,
    .render (some ⟨"000660", "130000"⟩) .day 1704100000500, .render (some ⟨"000660", "130000"⟩) .day 1704100000600,
    .moreResponse (some [⟨1703894400, 69000, 70000, 68000, 69000, 10⟩]),
    .historyResponse 0 (some [⟨1704067200, 129000, 131000, 128000, 130000, 10⟩]),
    .render (some ⟨"000660", "130000"⟩) .day 1704100000700]

/-- In the end the chart has bars of the other stock alone. -/
theorem only_selected_twoStocks : (priceChart won).Always OnlySelected twoStocks ∧
    ∃ s, (priceChart won).run twoStocks = some s ∧ s.ohlcvData ≠ [] ∧ From s.Selects s.onScreen := by
  have current : (priceChart won).Along Current (priceChart won).init twoStocks :=
    Machine.along_of_check (p := fun s a => decide (Current s a)) (fun _ _ => of_decide_eq_true) (by decide +kernel)
  obtain ⟨s, run, shown⟩ := (priceChart won).exists_of_any twoStocks
    (fun s => s.received.answered && !s.ohlcvData.isEmpty) (by decide +kernel)
  obtain ⟨answered, some_bar⟩ := Bool.and_eq_true_iff.1 shown
  refine ⟨only_selected won current, s, run, ?_, only_selected won current twoStocks s List.prefix_rfl run answered⟩
  simpa using some_bar

/-- The second stock is selected while the history of the first is loading, and the first
history comes last. -/
theorem late_history_of_other_stock : ¬ ∀ acts, (priceChart won).Always OnlySelected acts := by
  intro claim
  let acts : List (ChartAction ℤ) := [.render (some ⟨"005930", "70000"⟩) .day 1704100000000,
    .render (some ⟨"005930", "70000"⟩) .day 1704100000100, .render (some ⟨"000660", "130000"⟩) .day 1704100000200,
    .historyResponse 1 (some [⟨1704067200, 129000, 131000, 128000, 130000, 10⟩]),
    .historyResponse 0 (some [⟨1704067200, 69000, 71000, 68000, 70000, 10⟩])]
  obtain ⟨s, run, bad⟩ := Machine.exists_of_any (M := priceChart won) acts
    (fun s => s.received.answered && s.onScreen.any fun bar => bar.sources.any fun source => s.selected ≠ some source)
    (by decide +kernel)
  simp only [Bool.and_eq_true, List.any_eq_true, decide_eq_true_eq] at bad
  obtain ⟨answered, bar, mem, source, source_mem, other⟩ := bad
  exact other (claim acts acts s List.prefix_rfl run answered bar mem source source_mem)

end StockAnomaly.WebApp

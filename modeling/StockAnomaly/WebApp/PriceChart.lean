import StockAnomaly.Theory.SeriesMerge
import StockAnomaly.WebApp.PriceBars

/-!
# The price chart component

The React component as a machine. Its state is the state that the hooks keep, the refs, the
bars given to the chart and the requests at their `await`. A `render` action is one render with
all its effects: first the cleanup of the chart effect, then the effects whose dependencies have
changed, in the order of the source. A state setter takes effect at once, while `ohlcvDataRef`
follows `ohlcvData` only at the next render. Bars carry the selections they come from, and a
log keeps what the component has received; the code uses neither.
-/

namespace StockAnomaly.WebApp

open StockAnomaly.Theory

structure Selection where
  ticker : String
  interval : ChartInterval
deriving DecidableEq

/-- What the component reads of `selectedStock`. -/
structure Stock where
  ticker : String
  price : String
deriving DecidableEq

/-- A bar and the selections it was fetched for or built from ticks of. -/
structure Bar (K : Type) where
  point : OhlcvPoint K
  sources : List Selection
deriving DecidableEq

def Bar.time {K : Type} (bar : Bar K) : ℤ := bar.point.time

/-- A tick and the stock it is of. -/
structure LiveTick (K : Type) extends Tick K where
  ticker : String
deriving DecidableEq

/-- A bar as the chart is given it. -/
structure ChartBar (K : Type) where
  time : TimeKey
  bar : Bar K
deriving DecidableEq

/-- The dependencies of the effects at the last render. -/
structure Shown where
  ticker : Option String
  interval : ChartInterval
  price : Option String
  isHistoryLoaded : Bool
  isChartReady : Bool
deriving DecidableEq

/-- `loadMore` at its `await`: what it was called for, and `currentData`. -/
structure LoadMore (K : Type) where
  selection : Selection
  currentData : List (Bar K)
deriving DecidableEq

/-- What the component has received since the last selection: whether a history request for it was
answered, the ticks, the history and the older bars. -/
structure Received (K : Type) where
  answered : Bool
  ticks : List (LiveTick K)
  history : Option (List (Bar K))
  older : List (Bar K)
deriving DecidableEq

structure PriceChart (K : Type) where
  ohlcvData : List (Bar K)
  /-- `ohlcvData` is another array than at the last render. -/
  dataChanged : Bool
  isHistoryLoaded : Bool
  isChartReady : Bool
  /-- `none` before the first render. -/
  shown : Option Shown
  ohlcvDataRef : List (Bar K)
  isHistoryLoadedRef : Bool
  noMoreDataRef : Bool
  tickBuffer : List (LiveTick K)
  /-- The bars given to the series since its last `setData`, or no series. -/
  candleSeries : Option (List (ChartBar K))
  /-- `fetchHistory` at its `await`, once for each call. -/
  histories : List Selection
  /-- `isFetchingRef` is true exactly while there is one. -/
  loadingMore : Option (LoadMore K)
  received : Received K
deriving DecidableEq

/-- `chartTime` of an updated bar. -/
def ChartInterval.chartTime {K : Type} (interval : ChartInterval) (lastPoint : OhlcvPoint K) : TimeKey :=
  if interval.isDaily then interval.lastTimeKey lastPoint else .seconds lastPoint.time

section Functions

variable {K : Type} [LinearOrder K] [Zero K]

/-- The updater of `applyTick` on bars with their sources: the new bars and what `update` gives
to the chart, or nothing for a tick that is dropped. -/
def tickUpdate (interval : ChartInterval) (tick : LiveTick K) (prev : List (Bar K)) :
    Option (List (Bar K) × ChartBar K) :=
  let key := interval.timeKey tick.timestamp
  let source : Selection := ⟨tick.ticker, interval⟩
  let newBar : Bar K := ⟨newPoint interval tick.toTick, [source]⟩
  match prev.getLast? with
  | none => some (prev ++ [newBar], ⟨key, newBar⟩)
  | some last =>
    if older interval last.point tick.toTick then none
    else if interval.lastTimeKey last.point = key then
      let updated : Bar K := ⟨last.point.update tick.price, source :: last.sources⟩
      some (prev.dropLast ++ [updated],
        ⟨interval.chartTime last.point, updated⟩)
    else some (prev ++ [newBar], ⟨key, newBar⟩)

/-- The bars after a tick. -/
def tickBars (interval : ChartInterval) (tick : LiveTick K) (prev : List (Bar K)) : List (Bar K) :=
  (tickUpdate interval tick prev).elim prev Prod.fst

theorem tickUpdate_snoc (interval : ChartInterval) (tick : LiveTick K) (front : List (Bar K)) (last : Bar K) :
    tickUpdate interval tick (front ++ [last]) =
      if older interval last.point tick.toTick then none
      else if interval.lastTimeKey last.point = interval.timeKey tick.timestamp then
        let updated : Bar K := ⟨last.point.update tick.price, ⟨tick.ticker, interval⟩ :: last.sources⟩
        some (front ++ [updated],
          ⟨interval.chartTime last.point, updated⟩)
      else
        let newBar : Bar K := ⟨newPoint interval tick.toTick, [⟨tick.ticker, interval⟩]⟩
        some (front ++ [last] ++ [newBar], ⟨interval.timeKey tick.timestamp, newBar⟩) := by
  simp only [tickUpdate, List.getLast?_concat, List.dropLast_concat]

/-- A tick that is not dropped opens a bar or updates the last one. -/
theorem tickUpdate_cases {interval : ChartInterval} {tick : LiveTick K} {prev next : List (Bar K)}
    {given : ChartBar K} (update : tickUpdate interval tick prev = some (next, given)) :
    (next = prev ++ [given.bar] ∧ given.bar = ⟨newPoint interval tick.toTick, [⟨tick.ticker, interval⟩]⟩) ∨
      ∃ front last, prev = front ++ [last] ∧ next = front ++ [given.bar] ∧
        given.bar = ⟨last.point.update tick.price, ⟨tick.ticker, interval⟩ :: last.sources⟩ := by
  rcases List.eq_nil_or_concat' prev with rfl | ⟨front, last, rfl⟩
  · cases update
    exact .inl ⟨rfl, rfl⟩
  · rw [tickUpdate_snoc] at update
    split_ifs at update
    · cases update
      exact .inr ⟨front, last, rfl, rfl, rfl⟩
    · cases update
      exact .inl ⟨rfl, rfl⟩

/-- Without the sources, the bars are those of `applyTick`. -/
theorem map_point_tickBars (interval : ChartInterval) (tick : LiveTick K) (prev : List (Bar K)) :
    (tickBars interval tick prev).map Bar.point = applyTick interval tick.toTick (prev.map Bar.point) := by
  rcases List.eq_nil_or_concat' prev with rfl | ⟨front, last, rfl⟩
  · rfl
  · rw [tickBars, tickUpdate_snoc, List.map_append, List.map_singleton, applyTick_snoc]
    split_ifs <;> simp

/-- What `updateChartData` gives to the chart. -/
def chartData (interval : ChartInterval) (data : List (Bar K)) : List (ChartBar K) :=
  let sortedData := data.insertionSort fun a b => a.time ≤ b.time
  TimeSeries.mapValues ChartBar.time (sortedData.map fun d =>
    ⟨if interval.isDaily then .date (getKstDateString d.time) else .seconds d.time, d⟩)

/-- `uniqueSorted` of `combined`. -/
def uniqueSorted (combined : List (Bar K)) : List (Bar K) :=
  (TimeSeries.mapValues Bar.time combined).insertionSort fun a b => a.time ≤ b.time

namespace PriceChart

/-- `intervalRef`, which starts with `1d`. -/
def interval (s : PriceChart K) : ChartInterval := s.shown.elim .day Shown.interval

/-- The ticker and interval that are shown. -/
def selected (s : PriceChart K) : Option Selection :=
  s.shown.bind fun shown => shown.ticker.map fun ticker => ⟨ticker, shown.interval⟩

def updateChartData (data : List (Bar K)) (s : PriceChart K) : PriceChart K :=
  { s with candleSeries := s.candleSeries.map fun _ => chartData s.interval data }

def setOhlcvData (data : List (Bar K)) (s : PriceChart K) : PriceChart K :=
  { s with ohlcvData := data, dataChanged := true }

def applyTick (tick : LiveTick K) (s : PriceChart K) : PriceChart K :=
  if s.candleSeries.isNone || s.ohlcvDataRef.isEmpty then s
  else match tickUpdate s.interval tick s.ohlcvData with
    | none => s
    | some (newHistory, given) =>
      { s.setOhlcvData newHistory with candleSeries := s.candleSeries.map (· ++ [given]) }

/-- The cleanup of the chart effect, which there is while there is a chart. -/
def cleanup (s : PriceChart K) : PriceChart K :=
  if s.candleSeries.isSome then
    { s with ohlcvDataRef := [], noMoreDataRef := false, isChartReady := false, candleSeries := none }
  else s

/-- The effects on `[ohlcvData]` and `[isHistoryLoaded]`. -/
def syncRefs (s : PriceChart K) : PriceChart K :=
  { s with
    ohlcvDataRef := if s.dataChanged then s.ohlcvData else s.ohlcvDataRef
    dataChanged := false
    isHistoryLoadedRef := s.isHistoryLoaded }

/-- The chart effect. -/
def openChart (stock : Option Stock) (s : PriceChart K) : PriceChart K :=
  if stock.isSome then { s with candleSeries := some [], isChartReady := true, noMoreDataRef := false } else s

/-- The history effect; `isChartReady` is that of the render. -/
def historyEffect (stock : Option Stock) (isChartReady : Bool) (s : PriceChart K) : PriceChart K :=
  match stock with
  | none => { s.setOhlcvData [] with isHistoryLoaded := false, candleSeries := s.candleSeries.map fun _ => [] }
  | some stock =>
    if isChartReady then
      { s with isHistoryLoaded := false, histories := s.histories ++ [⟨stock.ticker, s.interval⟩] }
    else s

/-- The tick of the live effect: the price is a number and not zero. -/
def tickOf (parseFloat : String → Option K) (stock : Option Stock) (now : ℤ) : Option (LiveTick K) :=
  stock.bind fun stock => (parseFloat stock.price).map fun price => ⟨⟨price, now⟩, stock.ticker⟩

/-- The live effect; `isHistoryLoaded` is that of the render. -/
def liveEffect (tick : Option (LiveTick K)) (isHistoryLoaded : Bool) (s : PriceChart K) : PriceChart K :=
  match tick with
  | none => s
  | some tick =>
    let s := { s with received := { s.received with ticks := s.received.ticks ++ [tick] } }
    if isHistoryLoaded then s.applyTick tick else { s with tickBuffer := s.tickBuffer ++ [tick] }

/-- The dependencies of a render. -/
def shownBy (stock : Option Stock) (interval : ChartInterval) (s : PriceChart K) : Shown :=
  ⟨stock.map Stock.ticker, interval, stock.map Stock.price, s.isHistoryLoaded, s.isChartReady⟩

/-- The render is the first one or `[selectedStock?.ticker, interval]` has changed. -/
def reselects (stock : Option Stock) (interval : ChartInterval) (s : PriceChart K) : Bool :=
  s.shown.all fun old => old.ticker ≠ stock.map Stock.ticker || old.interval ≠ interval

/-- The tick that the live effect gets at a render, if its dependencies have changed. -/
def fires (parseFloat : String → Option K) (stock : Option Stock) (now : ℤ) (s : PriceChart K) :
    Option (LiveTick K) :=
  if s.shown.all fun old => old.price ≠ stock.map Stock.price || old.isHistoryLoaded ≠ s.isHistoryLoaded then
    tickOf parseFloat stock now
  else none

def render (parseFloat : String → Option K) (stock : Option Stock) (interval : ChartInterval) (now : ℤ)
    (s : PriceChart K) : PriceChart K :=
  let reselected := s.reselects stock interval
  let restarts := reselected || s.shown.all fun old => old.isChartReady ≠ s.isChartReady
  let tick := s.fires parseFloat stock now
  let shown := { s with shown := some (s.shownBy stock interval) }
  let chosen := if reselected then { shown.cleanup with received := ⟨false, [], none, []⟩ } else shown
  let opened := if reselected then chosen.syncRefs.openChart stock else chosen.syncRefs
  let asked := if restarts then opened.historyEffect stock s.isChartReady else opened
  asked.liveEffect tick s.isHistoryLoaded

/-- `loadMore` up to its `await`, with the conditions of the scroll handler and its own. -/
def loadMore (s : PriceChart K) : PriceChart K :=
  if s.loadingMore.isSome || s.noMoreDataRef || s.ohlcvDataRef.isEmpty || !s.isHistoryLoadedRef then s
  else { s with loadingMore := s.selected.map fun selection => ⟨selection, s.ohlcvDataRef⟩ }

/-- The buffered ticks that `fetchHistory` applies. -/
def pendingTicks (history : List (Bar K)) (s : PriceChart K) : List (LiveTick K) :=
  s.tickBuffer.filter fun tick => history.getLast?.elim 0 Bar.time * 1000 < tick.timestamp

/-- The bars of a response. -/
def fetched (selection : Selection) (points : List (OhlcvPoint K)) : List (Bar K) :=
  points.map fun point => ⟨point, [selection]⟩

/-- The answer to a history request is noted. -/
def noteHistory (selection : Selection) (history : Option (List (Bar K))) (s : PriceChart K) : PriceChart K :=
  if some selection = s.selected then { s with received := { s.received with answered := true, history } } else s

/-- `fetchHistory` from a successful response on. -/
def showHistory (history : List (Bar K)) (s : PriceChart K) : PriceChart K :=
  { (s.pendingTicks history).foldl (fun s tick => s.applyTick tick)
      ((s.setOhlcvData history).updateChartData history) with tickBuffer := [] }

/-- The response to `fetchHistory`, or `none` for a failure; `finally` comes in both cases. -/
def historyResponse (selection : Selection) (response : Option (List (OhlcvPoint K))) (s : PriceChart K) :
    PriceChart K :=
  let history := response.map (fetched selection)
  { (history.elim s fun bars => s.showHistory bars).noteHistory selection history with isHistoryLoaded := true }

/-- `loadMore` from a successful response on. -/
def showMore (call : LoadMore K) (moreData : List (Bar K)) (s : PriceChart K) : PriceChart K :=
  if moreData = [] then { s with noMoreDataRef := true }
  else
    let unique := uniqueSorted (moreData ++ call.currentData)
    if call.currentData.length < unique.length then (s.setOhlcvData unique).updateChartData unique
    else { s with noMoreDataRef := true }

/-- The older bars of a response are noted. -/
def noteOlder (selection : Selection) (moreData : List (Bar K)) (s : PriceChart K) : PriceChart K :=
  if some selection = s.selected then
    { s with received := { s.received with older := moreData ++ s.received.older } }
  else s

/-- The response to `loadMore`, or `none` for a failure. -/
def moreResponse (call : LoadMore K) (response : Option (List (OhlcvPoint K))) (s : PriceChart K) : PriceChart K :=
  let moreData := response.map (fetched call.selection)
  { moreData.elim s fun bars => (s.showMore call bars).noteOlder call.selection bars with loadingMore := none }

end PriceChart

/-- What happens to the component. -/
inductive ChartAction (K : Type)
  | render (stock : Option Stock) (interval : ChartInterval) (now : ℤ)
  | loadMore
  | historyResponse (i : ℕ) (response : Option (List (OhlcvPoint K)))
  | moreResponse (response : Option (List (OhlcvPoint K)))

/-- The component from its mounting on; `parseFloat` has no value for a text that is not a number
and for zero. -/
def priceChart (parseFloat : String → Option K) : Machine (PriceChart K) (ChartAction K) where
  init := ⟨[], false, false, false, none, [], false, false, [], none, [], none, ⟨false, [], none, []⟩⟩
  step s
    | .render stock interval now => some (s.render parseFloat stock interval now)
    | .loadMore => some s.loadMore
    | .historyResponse i response => s.histories[i]?.map fun selection =>
        { s with histories := s.histories.eraseIdx i }.historyResponse selection response
    | .moreResponse response => s.loadingMore.map fun call => s.moreResponse call response

end Functions

namespace PriceChart

section Frames

variable {K : Type} {s : PriceChart K} {bars more : List (Bar K)}

/-- `source` is the selection that is shown. -/
def Selects (s : PriceChart K) (source : Selection) : Prop := s.selected = some source

instance (s : PriceChart K) : DecidablePred s.Selects := fun source =>
  inferInstanceAs (Decidable (s.selected = some source))

@[simp] theorem noteHistory_shown {selection : Selection} {history : Option (List (Bar K))} :
    (s.noteHistory selection history).shown = s.shown := by
  unfold noteHistory
  split_ifs <;> rfl

theorem selects_congr {t : PriceChart K} (shown : t.shown = s.shown) : t.Selects = s.Selects := by
  funext source
  rw [Selects, Selects, selected, selected, shown]

theorem noteHistory_answered {selection : Selection} {history : Option (List (Bar K))} :
    (s.noteHistory selection history).received.answered = true ↔
      s.received.answered = true ∨ s.Selects selection := by
  unfold noteHistory Selects
  by_cases current : s.selected = some selection
  · simp [current]
  · rw [if_neg (Ne.symm current)]
    simp [current]

@[simp] theorem noteOlder_shown {selection : Selection} : (s.noteOlder selection bars).shown = s.shown := by
  unfold noteOlder
  split_ifs <;> rfl

@[simp] theorem noteOlder_answered {selection : Selection} :
    (s.noteOlder selection bars).received.answered = s.received.answered := by
  unfold noteOlder
  split_ifs <;> rfl

/-- A `loadMore` response that adds bars. -/
def Adds (call : LoadMore K) (moreData : List (Bar K)) : Prop :=
  moreData ≠ [] ∧ call.currentData.length < (uniqueSorted (moreData ++ call.currentData)).length

instance (call : LoadMore K) (moreData : List (Bar K)) : Decidable (Adds call moreData) :=
  inferInstanceAs (Decidable (_ ∧ _))

theorem showMore_of_adds {call : LoadMore K} (adds : Adds call more) : s.showMore call more =
    (s.setOhlcvData (uniqueSorted (more ++ call.currentData))).updateChartData
      (uniqueSorted (more ++ call.currentData)) := by
  rw [showMore, if_neg adds.1]
  exact if_pos adds.2

theorem showMore_of_not_adds {call : LoadMore K} (none_new : ¬ Adds call more) :
    s.showMore call more = { s with noMoreDataRef := true } := by
  rw [showMore]
  split_ifs with empty
  · rfl
  · exact if_neg fun new => none_new ⟨empty, new⟩

@[simp] theorem showMore_shown {call : LoadMore K} : (s.showMore call more).shown = s.shown := by
  by_cases adds : Adds call more
  · rw [showMore_of_adds adds]
    rfl
  · rw [showMore_of_not_adds adds]

@[simp] theorem showMore_received {call : LoadMore K} : (s.showMore call more).received = s.received := by
  by_cases adds : Adds call more
  · rw [showMore_of_adds adds]
    rfl
  · rw [showMore_of_not_adds adds]

theorem moreResponse_shown {call : LoadMore K} {response : Option (List (OhlcvPoint K))} :
    (s.moreResponse call response).shown = s.shown := by
  cases response with
  | none => rfl
  | some points => exact noteOlder_shown.trans showMore_shown

theorem moreResponse_answered {call : LoadMore K} {response : Option (List (OhlcvPoint K))} :
    (s.moreResponse call response).received.answered = s.received.answered := by
  cases response with
  | none => rfl
  | some points => exact noteOlder_answered.trans (congrArg Received.answered showMore_received)

@[simp] theorem historyEffect_shown {stock : Option Stock} {ready : Bool} :
    (s.historyEffect stock ready).shown = s.shown := by
  cases stock with
  | none => rfl
  | some stock =>
    rw [historyEffect]
    split_ifs <;> rfl

@[simp] theorem historyEffect_received {stock : Option Stock} {ready : Bool} :
    (s.historyEffect stock ready).received = s.received := by
  cases stock with
  | none => rfl
  | some stock =>
    rw [historyEffect]
    split_ifs <;> rfl

@[simp] theorem openChart_shown {stock : Option Stock} : (s.openChart stock).shown = s.shown := by
  rw [openChart]
  split_ifs <;> rfl

@[simp] theorem openChart_received {stock : Option Stock} : (s.openChart stock).received = s.received := by
  rw [openChart]
  split_ifs <;> rfl

@[simp] theorem cleanup_shown : s.cleanup.shown = s.shown := by
  rw [cleanup]
  split_ifs <;> rfl

end Frames

section Ticks

variable {K : Type} [LinearOrder K] [Zero K] {s : PriceChart K} {tick : LiveTick K} {bars : List (Bar K)}

@[simp] theorem applyTick_shown : (s.applyTick tick).shown = s.shown := by
  unfold applyTick
  split_ifs
  · rfl
  · split <;> rfl

@[simp] theorem applyTick_received : (s.applyTick tick).received = s.received := by
  unfold applyTick
  split_ifs
  · rfl
  · split <;> rfl

theorem applyTick_of_ref_nil (empty : s.ohlcvDataRef = []) : s.applyTick tick = s := by
  simp [applyTick, empty]

theorem foldl_applyTick_of_ref_nil (empty : s.ohlcvDataRef = []) (ticks : List (LiveTick K)) :
    ticks.foldl (fun s tick => s.applyTick tick) s = s := by
  induction ticks with
  | nil => rfl
  | cons tick ticks ih => rw [List.foldl_cons, applyTick_of_ref_nil empty, ih]

@[simp] theorem foldl_applyTick_shown (ticks : List (LiveTick K)) :
    (ticks.foldl (fun s tick => s.applyTick tick) s).shown = s.shown := by
  induction ticks generalizing s with
  | nil => rfl
  | cons tick ticks ih => rw [List.foldl_cons, ih, applyTick_shown]

@[simp] theorem foldl_applyTick_received (ticks : List (LiveTick K)) :
    (ticks.foldl (fun s tick => s.applyTick tick) s).received = s.received := by
  induction ticks generalizing s with
  | nil => rfl
  | cons tick ticks ih => rw [List.foldl_cons, ih, applyTick_received]

@[simp] theorem showHistory_shown : (s.showHistory bars).shown = s.shown := foldl_applyTick_shown _

@[simp] theorem showHistory_received : (s.showHistory bars).received = s.received := foldl_applyTick_received _

theorem historyResponse_shown {selection : Selection} {response : Option (List (OhlcvPoint K))} :
    (s.historyResponse selection response).shown = s.shown := by
  cases response with
  | none => exact noteHistory_shown
  | some points => exact noteHistory_shown.trans showHistory_shown

theorem historyResponse_answered {selection : Selection} {response : Option (List (OhlcvPoint K))} :
    (s.historyResponse selection response).received.answered = true ↔
      s.received.answered = true ∨ s.Selects selection := by
  cases response with
  | none => exact noteHistory_answered
  | some points =>
    refine noteHistory_answered.trans ?_
    rw [Option.map_some, Option.elim_some, showHistory_received, selects_congr showHistory_shown]

@[simp] theorem liveEffect_shown {fired : Option (LiveTick K)} {loaded : Bool} :
    (s.liveEffect fired loaded).shown = s.shown := by
  cases fired with
  | none => rfl
  | some tick =>
    cases loaded with
    | false => rfl
    | true => exact applyTick_shown

theorem liveEffect_answered {fired : Option (LiveTick K)} {loaded : Bool} :
    (s.liveEffect fired loaded).received.answered = s.received.answered := by
  cases fired with
  | none => rfl
  | some tick =>
    cases loaded with
    | false => rfl
    | true => simp [liveEffect]

theorem render_shown {parseFloat : String → Option K} {stock : Option Stock} {interval : ChartInterval} {now : ℤ} :
    (s.render parseFloat stock interval now).shown = some (s.shownBy stock interval) := by
  simp only [render, liveEffect_shown]
  split_ifs <;> simp [syncRefs]

theorem render_answered {parseFloat : String → Option K} {stock : Option Stock} {interval : ChartInterval} {now : ℤ} :
    (s.render parseFloat stock interval now).received.answered =
      if s.reselects stock interval then false else s.received.answered := by
  simp only [render, liveEffect_answered]
  split_ifs <;> simp [syncRefs]

/-- A render without a new selection, up to the refs. -/
def rendered (stock : Option Stock) (interval : ChartInterval) (s : PriceChart K) : PriceChart K :=
  { s with shown := some (s.shownBy stock interval) }.syncRefs

/-- **A render without a new selection**: the history effect, if `isChartReady` has changed, and the
live effect. -/
theorem render_of_same {parseFloat : String → Option K} {stock : Option Stock} {interval : ChartInterval} {now : ℤ}
    (same : s.reselects stock interval = false) : s.render parseFloat stock interval now =
      (if s.shown.all fun old => old.isChartReady ≠ s.isChartReady then
        (s.rendered stock interval).historyEffect stock s.isChartReady
      else s.rendered stock interval).liveEffect (s.fires parseFloat stock now) s.isHistoryLoaded := by
  simp only [render, same, Bool.false_or, Bool.false_eq_true, if_false, rendered]

/-- Without a new selection, the one that is shown stays. -/
theorem selected_render {parseFloat : String → Option K} {stock : Option Stock} {interval : ChartInterval} {now : ℤ}
    (same : s.reselects stock interval = false) :
    (s.render parseFloat stock interval now).selected = s.selected ∧
      s.selected = stock.map fun stock => ⟨stock.ticker, interval⟩ := by
  cases shown : s.shown with
  | none => simp [reselects, shown] at same
  | some old =>
    simp only [reselects, shown, Option.all_some, Bool.or_eq_false_iff, decide_eq_false_iff_not, not_not] at same
    obtain ⟨ticker, rfl⟩ := same
    rw [selected, selected, render_shown, shown]
    simp only [shownBy, Option.bind_some, ticker, true_and]
    cases stock <;> rfl

end Ticks

end PriceChart

end StockAnomaly.WebApp

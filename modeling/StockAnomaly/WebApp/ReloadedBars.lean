import StockAnomaly.Engine.StoredBars
import StockAnomaly.WebApp.LiveTicks

/-!
# Live bars and reloaded bars

An open `1m` chart makes bars of the live ticks, and the api-server stores the same ticks, of
which InfluxDB makes the bars that a reload reads. The chart dates a tick by its own clock and
does not see one that leaves the price as it was. While its clock is in the minute of the tick
and every minute begins with a change of the price, neither matters
(**`points_of_delivers`**). The chart gives a bar the start of its minute as its time,
`aggregateWindow` gives it the end. So what a reload reads are then the bars of the chart a
minute later, with volumes, but for the bar that was there before: **`live_eq_reloaded`**.
-/

namespace StockAnomaly.WebApp

open StockAnomaly.Theory StockAnomaly.Aggregation StockAnomaly.ApiServer StockAnomaly.Engine

variable {K : Type}

/-- A tick at the time that the server gives it. -/
def seen (t : Aggregation.Tick K) : Tick K := ⟨t.price, t.timestampMs⟩

/-- The bar of a candle of one minute, with the time and the volume that the chart gives it. -/
def chartPoint [Zero K] (c : Candle K) : OhlcvPoint K := ⟨c.openTimeMs / 1000, c.open, c.high, c.low, c.close, 0⟩

/-- A reloaded bar as the chart had it. -/
def minuteBefore [Zero K] (bar : OhlcvResponse K) : OhlcvPoint K :=
  ⟨bar.time - 60, bar.open, bar.high, bar.low, bar.close, 0⟩

section Live

variable [LinearOrder K] [Zero K] {front : List (OhlcvPoint K)} {last : OhlcvPoint K}

/-- The bars of a `1m` chart if every tick came with the time of the server. -/
def applyTicks (bars : List (OhlcvPoint K)) (ticks : List (Aggregation.Tick K)) : List (OhlcvPoint K) :=
  ticks.foldl (fun bars t => applyTick .minute (seen t) bars) bars

theorem applyTicks_append (bars : List (OhlcvPoint K)) (ticks more : List (Aggregation.Tick K)) :
    applyTicks bars (ticks ++ more) = applyTicks (applyTicks bars ticks) more :=
  List.foldl_append

/-- A tick of the minute of the last bar or of a later one. -/
theorem applyTick_minute {tick : Tick K} (later : last.time / 60 ≤ tick.timestamp / 60000) :
    applyTick .minute tick (front ++ [last]) =
      if last.time / 60 = tick.timestamp / 60000 then front ++ [last.update tick.price]
      else front ++ [last] ++ [newPoint .minute tick] := by
  have young : older .minute last tick = false := by
    simp only [older, ChartInterval.lastTimeKey, ChartInterval.timeKey, ChartInterval.isDaily, Bool.false_eq_true,
      if_false, TimeKey.lt, Bool.and_eq_false_iff, decide_eq_false_iff_not]
    omega
  have same_key : ChartInterval.minute.lastTimeKey last = ChartInterval.minute.timeKey tick.timestamp ↔
      last.time / 60 = tick.timestamp / 60000 := by
    simp only [ChartInterval.lastTimeKey, ChartInterval.timeKey, ChartInterval.isDaily, Bool.false_eq_true, if_false,
      TimeKey.seconds.injEq]
    omega
  rw [applyTick_snoc, young, if_neg Bool.false_ne_true]
  simp only [same_key]

/-- The ticks of its own minute go into the last bar. -/
theorem applyTicks_now {now : List (Aggregation.Tick K)} (same : ∀ t ∈ now, t.timestampMs / 60000 = last.time / 60) :
    applyTicks (front ++ [last]) now = front ++ [now.foldl (fun bar t => bar.update t.price) last] := by
  induction now generalizing last with
  | nil => rfl
  | cons t now ih =>
    have here : last.time / 60 = (seen t).timestamp / 60000 := (same t List.mem_cons_self).symm
    rw [applyTicks, List.foldl_cons, applyTick_minute here.le, if_pos here]
    exact ih fun t mem => same t (List.mem_cons_of_mem _ mem)

omit [Zero K] in
theorem time_foldl_update (now : List (Aggregation.Tick K)) :
    (now.foldl (fun bar t => bar.update t.price) last).time = last.time := by
  induction now generalizing last with
  | nil => rfl
  | cons t now ih => exact ih

end Live

section Candles

variable [AddCommGroup K] [LinearOrder K] {front bars : List (OhlcvPoint K)} {last : OhlcvPoint K}
  {c : Candle K} {block ticks : List (Aggregation.Tick K)} {tick : Aggregation.Tick K}

omit [LinearOrder K] in
theorem newPoint_seen (nonneg : 0 ≤ tick.timestampMs) :
    newPoint .minute (seen tick) = chartPoint (Candle.reset tick 1) := by
  have start : windowStart 1 tick.timestampMs / 1000 = tick.timestampMs / 60000 * 60 := by
    rw [windowStart, Int.tdiv_eq_ediv_of_nonneg nonneg, windowMs]
    omega
  rw [chartPoint, newPoint]
  simp only [Candle.reset, start]
  rfl

theorem chartPoint_update : (chartPoint c).update tick.price = chartPoint (c.update tick) := by
  have high : (if c.high < tick.price then tick.price else c.high) = max c.high tick.price := by
    grind
  have low : (if tick.price < c.low then tick.price else c.low) = min c.low tick.price := by
    grind
  simp only [chartPoint, OhlcvPoint.update, Candle.update, high, low]

/-- A tick does to the last bar what it does to the candle. -/
theorem applyTick_chartPoint (covers : c.Covers 1 block) (nonneg : 0 ≤ tick.timestampMs)
    (later : c.openTimeMs ≤ tick.timestampMs) :
    applyTick .minute (seen tick) (front ++ [chartPoint c]) =
      front ++ ((advance 1 true c tick).2 ++ [(advance 1 true c tick).1]).map chartPoint := by
  obtain ⟨n, close⟩ := covers.aligned
  have window := covers.window
  simp only [windowMs] at close window
  have minute : (chartPoint c).time / 60 = n - 1 := by
    show c.openTimeMs / 1000 / 60 = n - 1
    omega
  rw [applyTick_minute, minute]
  · show (if n - 1 = tick.timestampMs / 60000 then front ++ [(chartPoint c).update tick.price]
      else front ++ [chartPoint c] ++ [newPoint .minute (seen tick)]) = _
    by_cases late : c.closeTimeMs ≤ tick.timestampMs
    · rw [if_neg (by omega), newPoint_seen nonneg, List.append_assoc]
      simp [advance, Candle.isExpired, late]
    · rw [if_pos (by omega), chartPoint_update]
      simp [advance, Candle.isExpired, late]
  · rw [minute]
    show n - 1 ≤ tick.timestampMs / 60000
    omega

/-- **The new bars are those of the candles of one minute.** -/
theorem applyTicks_segmented (some_tick : ticks ≠ [])
    (sorted : ticks.Pairwise fun a b => a.timestampMs ≤ b.timestampMs)
    (nonneg : ∀ t ∈ ticks, 0 ≤ t.timestampMs) (later : ∀ t ∈ ticks, last.time / 60 < t.timestampMs / 60000) :
    ∃ emitted candle closed current, Segmented 1 ticks emitted candle closed current ∧
      applyTicks (front ++ [last]) ticks = front ++ [last] ++ (emitted ++ [candle]).map chartPoint := by
  induction ticks using List.reverseRecOn with
  | nil => exact absurd rfl some_tick
  | append_singleton ticks tick ih =>
    have here := List.mem_append_right ticks (List.mem_singleton_self tick)
    rw [applyTicks_append]
    by_cases first : ticks = []
    · subst first
      refine ⟨[], Candle.reset tick 1, [], [tick], Segmented.start (by decide) (nonneg tick here), ?_⟩
      have later : last.time / 60 < (seen tick).timestamp / 60000 := later tick here
      show applyTick .minute (seen tick) (front ++ [last]) = _
      rw [applyTick_minute later.le, if_neg later.ne, newPoint_seen (nonneg tick here)]
      rfl
    · obtain ⟨emitted, candle, closed, current, inv, eq⟩ := ih first (List.pairwise_append.1 sorted).1
        (fun t mem => nonneg t (List.mem_append_left _ mem)) (fun t mem => later t (List.mem_append_left _ mem))
      obtain ⟨closed', current', next⟩ := inv.advance (by decide) (nonneg tick here)
      refine ⟨_, _, closed', current', next, ?_⟩
      have opened : candle.openTimeMs ≤ tick.timestampMs := by
        obtain ⟨t, first⟩ : ∃ t, current.head? = some t :=
          (Option.map_eq_some_iff.1 inv.inProgress.summary.open_first).imp fun _ both => both.1
        have mem : t ∈ ticks := inv.arrival ▸ List.mem_append_right _ (List.mem_of_head? first)
        have ordered := (List.pairwise_append.1 sorted).2.2 t mem tick (List.mem_singleton_self tick)
        exact (inv.inProgress.first_mem t first).1.trans ordered
      rw [eq, List.map_append, ← List.append_assoc, List.map_singleton]
      show applyTick .minute (seen tick) _ = _
      rw [applyTick_chartPoint inv.inProgress (nonneg tick here) opened]
      simp only [List.map_append, List.append_assoc]

end Candles

section Reload

variable {front : List (OhlcvPoint K)} {last : OhlcvPoint K} {past now later : List (Aggregation.Tick K)}
  {start stop : ℤ}

/-- The windows of the ticks after the last bar's minute. -/
theorem windows_later (sorted : (past ++ later).Pairwise fun a b => a.timestampMs ≤ b.timestampMs)
    (ended : ∀ t ∈ past, t.timestampMs / 60000 ≤ last.time / 60)
    (after : ∀ t ∈ later, last.time / 60 < t.timestampMs / 60000) (opened : start ≤ (last.time / 60 + 1) * 60000)
    (closed : ∀ t ∈ later, (t.timestampMs / 60000 + 1) * 60000 ≤ stop) :
    (Flux.windows 60000 ((InfluxDbRepository.inRange TickPoint.time start stop ((past ++ later).map tickPoint)).map
      TickPoint.time)).filter (fun n => (last.time / 60 + 1) * 60 < Flux.windowStop 60000 stop n / 1000) =
      Flux.windows 60000 (later.map Tick.timestampMs) := by
  have in_order : ((past ++ later).map tickPoint).Pairwise fun a b => a.time ≤ b.time := List.pairwise_map.2 sorted
  refine @TimeSeries.increasing_ext ℤ ℤ _ id _ _ ((Flux.increasing_windows (by decide) ?_).filter _)
    (Flux.increasing_windows (by decide) ?_) fun n => ?_
  · exact List.pairwise_map.2 (in_order.filter _)
  · exact List.pairwise_map.2 (List.pairwise_append.1 sorted).2.1
  · simp only [List.mem_filter, Flux.mem_windows, Flux.window, decide_eq_true_eq]
    constructor
    · rintro ⟨⟨time, mem, rfl⟩, late⟩
      obtain ⟨p, p_mem, rfl⟩ := List.mem_map.1 mem
      obtain ⟨t, t_mem, rfl⟩ := List.mem_map.1 (List.mem_filter.1 p_mem).1
      rcases List.mem_append.1 t_mem with old | new
      · have early := ended t old
        simp only [Flux.windowStop, tickPoint] at late
        omega
      · exact ⟨_, List.mem_map_of_mem new, rfl⟩
    · rintro ⟨time, mem, rfl⟩
      obtain ⟨t, t_mem, rfl⟩ := List.mem_map.1 mem
      have late := after t t_mem
      have done := closed t t_mem
      refine ⟨⟨t.timestampMs, List.mem_map.2 ⟨tickPoint t, List.mem_filter.2 ⟨?_, ?_⟩, rfl⟩, rfl⟩, ?_⟩
      · exact List.mem_map_of_mem (List.mem_append_right _ t_mem)
      · apply decide_eq_true
        show start ≤ t.timestampMs ∧ t.timestampMs < stop
        omega
      · rw [Flux.windowStop, min_eq_right done]
        omega

variable [Ring K] [LinearOrder K]

/-- The stored form of a candle of one minute is its bar in the chart. -/
theorem minuteBefore_ohlcv {ticks : List (Aggregation.Tick K)} {c : Candle K} {n : ℤ}
    (h : OfWindow 1 ticks c n) : chartPoint c = minuteBefore (InfluxDbRepository.tickBar ((n + 1) * 60000 / 1000)
      (InfluxDbRepository.inWindow 60000 n (ticks.map tickPoint))) := by
  have stored : KafkaCandleConsumer.ohlcv c = InfluxDbRepository.tickBar ((n + 1) * 60000 / 1000)
      (InfluxDbRepository.inWindow 60000 n (ticks.map tickPoint)) := h.ohlcv
  have opening : c.openTimeMs = n * 60000 := h.openTimeMs
  have time : (KafkaCandleConsumer.ohlcv c).time - 60 = c.openTimeMs / 1000 := by
    rw [stored]
    show (n + 1) * 60000 / 1000 - 60 = c.openTimeMs / 1000
    omega
  rw [← stored, minuteBefore, time]
  rfl

/-- The new bars, by the ticks of their minutes. -/
theorem applyTicks_later (sorted : later.Pairwise fun a b => a.timestampMs ≤ b.timestampMs)
    (after : ∀ t ∈ later, last.time / 60 < t.timestampMs / 60000) (nonneg : 0 ≤ last.time) :
    applyTicks (front ++ [last]) later = front ++ [last] ++
      (Flux.windows 60000 (later.map Tick.timestampMs)).map fun n =>
      minuteBefore (InfluxDbRepository.tickBar ((n + 1) * 60000 / 1000)
        (InfluxDbRepository.inWindow 60000 n (later.map tickPoint))) := by
  by_cases none_later : later = []
  · subst none_later
    exact (List.append_nil _).symm
  · have stamps : ∀ t ∈ later, 0 ≤ t.timestampMs := by
      intro t mem
      have after := after t mem
      omega
    obtain ⟨emitted, candle, closed, current, inv, eq⟩ := applyTicks_segmented none_later sorted stamps after
    have related := ofWindow_of_segmented inv (by decide) sorted stamps
    rw [eq, List.append_cancel_left_eq, ← List.forall₂_eq_eq_eq, List.forall₂_map_left_iff,
      List.forall₂_map_right_iff]
    exact related.imp fun c n => minuteBefore_ohlcv

/-- The reloaded bar of a minute after that of the last bar. -/
theorem liveBar_later {n : ℤ} (ended : ∀ t ∈ past, t.timestampMs / 60000 ≤ last.time / 60)
    (later_n : last.time / 60 < n)
    (opened : start ≤ (last.time / 60 + 1) * 60000) (closed : (n + 1) * 60000 ≤ stop) :
    InfluxDbRepository.liveBar 60000 start stop ((past ++ later).map tickPoint) n =
      InfluxDbRepository.tickBar ((n + 1) * 60000 / 1000)
        (InfluxDbRepository.inWindow 60000 n (later.map tickPoint)) := by
  have nothing : InfluxDbRepository.inWindow 60000 n (past.map tickPoint) = [] := by
    refine List.filter_eq_nil_iff.2 fun p mem at_n => ?_
    obtain ⟨t, t_mem, rfl⟩ := List.mem_map.1 mem
    have early := ended t t_mem
    have at_n : t.timestampMs / 60000 = n := of_decide_eq_true at_n
    omega
  rw [InfluxDbRepository.liveBar, inWindow_inRange (by decide) (by omega) closed, Flux.windowStop,
    min_eq_right closed, List.map_append]
  rw [InfluxDbRepository.inWindow] at nothing ⊢
  rw [List.filter_append, nothing, List.nil_append]
  rfl

/-- When the minutes of the ticks are over, the bars that the query makes after the end of the
last bar's minute are the new bars. -/
theorem applyTicks_reloaded {db : Measurement K} (sorted : db.Sorted) {ticker : Ticker}
    (points : db.ticks ticker = (past ++ now ++ later).map tickPoint)
    (ended : ∀ t ∈ past, t.timestampMs / 60000 ≤ last.time / 60)
    (same : ∀ t ∈ now, t.timestampMs / 60000 = last.time / 60)
    (after : ∀ t ∈ later, last.time / 60 < t.timestampMs / 60000) (nonneg : 0 ≤ last.time)
    (opened : start ≤ (last.time / 60 + 1) * 60000)
    (closed : ∀ t ∈ later, (t.timestampMs / 60000 + 1) * 60000 ≤ stop) :
    ∃ reread, InfluxDbRepository.findOhlcv db ticker "1m" 60000 start stop =
        InfluxDbRepository.inRange (fun bar : OhlcvResponse K => bar.time * 1000) start stop
          (db.tagged (ticker, "1m")) ++ reread ∧
      applyTicks (front ++ [last]) (now ++ later) =
        front ++ [now.foldl (fun bar t => bar.update t.price) last] ++
          (reread.filter ((last.time / 60 + 1) * 60 < ·.time)).map minuteBefore := by
  have in_order : (past ++ now ++ later).Pairwise fun a b => a.timestampMs ≤ b.timestampMs := by
    have increasing := sorted.ticks ticker
    rw [points] at increasing
    exact (List.pairwise_map.1 increasing).imp fun lt => le_of_lt lt
  have ended : ∀ t ∈ past ++ now, t.timestampMs / 60000 ≤ last.time / 60 := by
    intro t mem
    rcases List.mem_append.1 mem with old | here
    · exact ended t old
    · exact (same t here).le
  refine ⟨_, InfluxDbRepository.findOhlcv_eq sorted ticker "1m" (by decide), ?_⟩
  have kept := windows_later in_order ended after opened closed
  rw [points, InfluxDbRepository.liveBars, List.filter_map, applyTicks_append, applyTicks_now same,
    applyTicks_later (List.pairwise_append.1 in_order).2.1 (by rwa [time_foldl_update]) (by rwa [time_foldl_update]),
    List.append_cancel_left_eq]
  show _ = ((List.filter (fun n => (last.time / 60 + 1) * 60 < Flux.windowStop 60000 stop n / 1000) _).map _).map _
  rw [kept, List.map_map]
  refine List.map_congr_left fun n mem => ?_
  obtain ⟨time, time_mem, at_n⟩ := Flux.mem_windows.1 mem
  obtain ⟨t, t_mem, rfl⟩ := List.mem_map.1 time_mem
  have at_n : t.timestampMs / 60000 = n := at_n
  have late := after t t_mem
  have done := closed t t_mem
  rw [Function.comp_apply, liveBar_later ended (by omega) opened (by omega)]

end Reload

/-! ## What the component makes of the ticks -/

/-- A render of an open chart, for a tick or for another reason. -/
structure ChartRender (K : Type) where
  price : String
  /-- `Date.now()` -/
  now : ℤ
  tick : Option (Aggregation.Tick K)

def ChartRender.action (ticker : String) (r : ChartRender K) : ChartAction K :=
  .render (some ⟨ticker, r.price⟩) .minute r.now

/-- Renders with a tick each, or with the price that is `shown` already. The client's clock is in
the minute of the tick, and a tick that is not of the `minute` of the one before it changes the
price. -/
def Delivers (parseFloat : String → Option K) : Option ℤ → String → List (ChartRender K) → Prop
  | _, _, [] => True
  | minute, shown, ⟨price, _, none⟩ :: renders => price = shown ∧ Delivers parseFloat minute shown renders
  | minute, shown, ⟨price, now, some t⟩ :: renders =>
    parseFloat price = some t.price ∧ now / 60000 = t.timestampMs / 60000 ∧
      (minute ≠ some (t.timestampMs / 60000) → price ≠ shown) ∧
      Delivers parseFloat (some (t.timestampMs / 60000)) price renders

/-- The `1m` chart of a ticker is open at a price, with bars. -/
structure OpenAt (ticker price : String) (s : PriceChart K) : Prop where
  shown : s.shown = some ⟨some ticker, .minute, some price, true, true⟩
  loaded : s.isHistoryLoaded = true
  ready : s.isChartReady = true
  chart : s.candleSeries.isSome = true
  some_bar : s.ohlcvData ≠ []
  synced : s.dataChanged = true ∨ s.ohlcvDataRef ≠ []

section Renders

variable [LinearOrder K] [Zero K] {parseFloat : String → Option K} {ticker shown price : String} {now : ℤ}
  {s s' : PriceChart K} {front : List (OhlcvPoint K)} {last : OhlcvPoint K}

omit [LinearOrder K] [Zero K] in
theorem OpenAt.noted (h : OpenAt ticker price s) (received : Received K) :
    OpenAt ticker price { s with received := received } :=
  ⟨h.shown, h.loaded, h.ready, h.chart, h.some_bar, h.synced⟩

/-- A live tick on an open chart is `applyTick` on its bars. -/
theorem OpenAt.applyTick (h : OpenAt ticker price s) (some_ref : s.ohlcvDataRef ≠ []) (tick : LiveTick K) :
    OpenAt ticker price (s.applyTick tick) ∧
      points (s.applyTick tick).ohlcvData = WebApp.applyTick .minute tick.toTick (points s.ohlcvData) := by
  have minute : s.interval = .minute := by simp [PriceChart.interval, h.shown]
  have bars : points (tickBars .minute tick s.ohlcvData) = _ := map_point_tickBars .minute tick s.ohlcvData
  rw [tickBars] at bars
  unfold PriceChart.applyTick
  rw [if_neg (by simp [Option.isNone_eq_false_iff.2 h.chart, some_ref]), minute]
  cases update : tickUpdate .minute tick s.ohlcvData with
  | none =>
    rw [update] at bars
    exact ⟨h, bars⟩
  | some both =>
    obtain ⟨newHistory, given⟩ := both
    rw [update] at bars
    refine ⟨⟨h.shown, h.loaded, h.ready, ?_, ?_, .inl rfl⟩, bars⟩
    · exact Option.isSome_map.trans h.chart
    · show newHistory ≠ []
      rcases tickUpdate_cases update with ⟨rfl, -⟩ | ⟨front, last, -, rfl, -⟩
      · exact List.concat_ne_nil _ _
      · exact List.concat_ne_nil _ _

theorem OpenAt.liveEffect (h : OpenAt ticker price s) (some_ref : s.ohlcvDataRef ≠ []) (tick : LiveTick K) :
    OpenAt ticker price (s.liveEffect (some tick) true) ∧
      points (s.liveEffect (some tick) true).ohlcvData =
        WebApp.applyTick .minute tick.toTick (points s.ohlcvData) :=
  (h.noted { s.received with ticks := s.received.ticks ++ [tick] }).applyTick some_ref tick

omit [LinearOrder K] [Zero K] in
/-- A new price is a tick at the time of the client. -/
theorem OpenAt.fires (parseFloat : String → Option K) (h : OpenAt ticker shown s) (price : String) (now : ℤ) :
    s.fires parseFloat (some ⟨ticker, price⟩) now =
      if price = shown then none else (parseFloat price).map fun p => ⟨⟨p, now⟩, ticker⟩ := by
  rw [PriceChart.fires, h.shown, h.loaded]
  by_cases old : price = shown
  · simp [old]
  · simp [old, Ne.symm old, PriceChart.tickOf]

omit [LinearOrder K] [Zero K] in
/-- At a render `ohlcvDataRef` catches up. -/
theorem OpenAt.rendered (h : OpenAt ticker shown s) (price : String) :
    OpenAt ticker price (s.rendered (some ⟨ticker, price⟩) .minute) ∧
      (s.rendered (some ⟨ticker, price⟩) .minute).ohlcvDataRef ≠ [] := by
  have some_ref : (s.rendered (some ⟨ticker, price⟩) .minute).ohlcvDataRef ≠ [] := by
    show (if s.dataChanged then s.ohlcvData else s.ohlcvDataRef) ≠ []
    split_ifs with changed
    · exact h.some_bar
    · exact h.synced.resolve_left changed
  refine ⟨⟨?_, h.loaded, h.ready, h.chart, h.some_bar, .inr some_ref⟩, some_ref⟩
  show some (s.shownBy _ _) = _
  rw [PriceChart.shownBy, h.loaded, h.ready]
  rfl

/-- **One render**: a new price is a tick at the time of the client, the old one changes nothing. -/
theorem OpenAt.render (parseFloat : String → Option K) (h : OpenAt ticker shown s) (price : String) (now : ℤ) :
    OpenAt ticker price (s.render parseFloat (some ⟨ticker, price⟩) .minute now) ∧
      points (s.render parseFloat (some ⟨ticker, price⟩) .minute now).ohlcvData =
        if price = shown then points s.ohlcvData
        else (parseFloat price).elim (points s.ohlcvData) fun p =>
          WebApp.applyTick .minute ⟨p, now⟩ (points s.ohlcvData) := by
  have same : s.reselects (some ⟨ticker, price⟩) .minute = false := by simp [PriceChart.reselects, h.shown]
  obtain ⟨rendered, some_ref⟩ := h.rendered price
  have shown_ready : s.shownReady = true := by simp [PriceChart.shownReady, h.shown]
  have render := @render_of_ready K _ _ parseFloat ⟨ticker, .minute⟩ s _ now same h.ready shown_ready
  rw [h.loaded, h.fires parseFloat price now] at render
  rw [render]
  split_ifs
  · exact ⟨rendered, rfl⟩
  · cases parseFloat price with
    | none => exact ⟨rendered, rfl⟩
    | some p => exact rendered.liveEffect some_ref ⟨⟨p, now⟩, ticker⟩

/-- After a tick of the last minute or a later one, the last bar is of its minute and closes at
its price. -/
theorem applyTick_ends {tick : Tick K} (later : last.time / 60 ≤ tick.timestamp / 60000) :
    ∃ front' last', applyTick .minute tick (front ++ [last]) = front' ++ [last'] ∧
      last'.time / 60 = tick.timestamp / 60000 ∧ Fits last' tick.price := by
  rw [applyTick_minute later]
  split_ifs with same
  · refine ⟨front, last.update tick.price, rfl, same, ?_⟩
    exact ⟨min_le_right .., le_max_right .., rfl⟩
  · refine ⟨front ++ [last], newPoint .minute tick, rfl, ?_, le_rfl, le_rfl, rfl⟩
    show tick.timestamp / 60000 * 60 / 60 = tick.timestamp / 60000
    omega

/-- Only the minute of a tick matters. -/
theorem applyTick_seen {t : Aggregation.Tick K} (clock : now / 60000 = t.timestampMs / 60000)
    (bars : List (OhlcvPoint K)) : applyTick .minute ⟨t.price, now⟩ bars = applyTick .minute (seen t) bars := by
  simp only [WebApp.applyTick, older, newPoint, ChartInterval.timeKey, ChartInterval.isDaily, seen, clock,
    Bool.false_eq_true, if_false]

/-- **A tick reaches the bars**, whether its price is new or has been seen in its minute. -/
theorem OpenAt.deliver (h : OpenAt ticker shown s) {t : Aggregation.Tick K} (parsed : parseFloat price = some t.price)
    (clock : now / 60000 = t.timestampMs / 60000) (young : last.time / 60 ≤ t.timestampMs / 60000)
    (seen_before : price = shown → last.time / 60 = t.timestampMs / 60000 ∧ Fits last t.price)
    (bars : points s.ohlcvData = front ++ [last]) :
    OpenAt ticker price (s.render parseFloat (some ⟨ticker, price⟩) .minute now) ∧
      points (s.render parseFloat (some ⟨ticker, price⟩) .minute now).ohlcvData =
        WebApp.applyTick .minute (seen t) (front ++ [last]) := by
  obtain ⟨h', after⟩ := h.render parseFloat price now
  refine ⟨h', ?_⟩
  rw [after, parsed, bars, Option.elim_some, applyTick_seen clock]
  split_ifs with old
  · obtain ⟨same, fits⟩ := seen_before old
    have here : last.time / 60 = (seen t).timestamp / 60000 := same
    have unchanged := update_eq_self_iff.2 fits
    rw [applyTick_minute young, if_pos here]
    exact congrArg (fun bar => front ++ [bar]) unchanged.symm
  · rfl

/-- **What the component makes of the ticks**: its bars are those of the ticks at the times of
the server. -/
theorem points_of_delivers {renders : List (ChartRender K)} {minute : Option ℤ} (h : OpenAt ticker shown s)
    (delivers : Delivers parseFloat minute shown renders) (bars : points s.ohlcvData = front ++ [last])
    (ended : ∀ m ∈ minute, last.time / 60 = m ∧ ∀ p ∈ parseFloat shown, Fits last p)
    (order : (renders.filterMap ChartRender.tick).Pairwise fun a b => a.timestampMs ≤ b.timestampMs)
    (later : ∀ t ∈ renders.filterMap ChartRender.tick, last.time / 60 ≤ t.timestampMs / 60000)
    (run : (priceChart parseFloat).runFrom s (renders.map (ChartRender.action ticker)) = some s') :
    points s'.ohlcvData = applyTicks (front ++ [last]) (renders.filterMap ChartRender.tick) := by
  induction renders generalizing s shown minute front last with
  | nil =>
    cases run
    exact bars
  | cons r renders ih =>
    obtain ⟨price, now, tick⟩ := r
    have run : (priceChart parseFloat).runFrom (s.render parseFloat (some ⟨ticker, price⟩) .minute now)
        (renders.map (ChartRender.action ticker)) = some s' := run
    cases tick with
    | none =>
      obtain ⟨rfl, delivers⟩ := delivers
      obtain ⟨h', after⟩ := h.render parseFloat price now
      rw [if_pos rfl] at after
      exact ih h' delivers (after.trans bars) ended order later run
    | some t =>
      obtain ⟨parsed, clock, changes, delivers⟩ := delivers
      obtain ⟨first, order⟩ := List.pairwise_cons.1 order
      have young := later t List.mem_cons_self
      have seen_before : price = shown → last.time / 60 = t.timestampMs / 60000 ∧ Fits last t.price := by
        intro old
        obtain ⟨same, fits⟩ := ended _ (by_contra fun other => changes other old)
        exact ⟨same, fits t.price (old ▸ parsed)⟩
      obtain ⟨h', after⟩ := h.deliver parsed clock young seen_before bars
      obtain ⟨front', last', ends, minute', fits'⟩ := @applyTick_ends K _ _ front last (seen t) young
      show _ = applyTicks (applyTick .minute (seen t) (front ++ [last])) (renders.filterMap ChartRender.tick)
      rw [ends]
      refine ih h' delivers (after.trans ends) ?_ order ?_ run
      · rintro m ⟨⟩
        refine ⟨minute', ?_⟩
        intro p same
        obtain rfl : t.price = p := Option.some.inj (parsed.symm.trans same)
        exact fits'
      · intro t' mem
        have le := first t' mem
        rw [minute']
        show t.timestampMs / 60000 ≤ t'.timestampMs / 60000
        omega

end Renders

section Reread

variable [Ring K] [LinearOrder K] {parseFloat : String → Option K} {ticker shown : String} {s s' : PriceChart K}
  {front : List (OhlcvPoint K)} {last : OhlcvPoint K} {past now later : List (Aggregation.Tick K)} {start stop : ℤ}

/-- **A reload reads the bars of the live ticks again, a minute later**: when the minutes of
the ticks are over, the bars that the query makes after the end of the last bar's minute are
the new bars of the chart. -/
theorem live_eq_reloaded {renders : List (ChartRender K)} (h : OpenAt ticker shown s)
    (bars : points s.ohlcvData = front ++ [last]) (delivers : Delivers parseFloat none shown renders)
    (ticks : renders.filterMap ChartRender.tick = now ++ later)
    (run : (priceChart parseFloat).runFrom s (renders.map (ChartRender.action ticker)) = some s')
    {db : Measurement K} (sorted : db.Sorted) (stored : db.ticks ticker = (past ++ now ++ later).map tickPoint)
    (ended : ∀ t ∈ past, t.timestampMs / 60000 ≤ last.time / 60)
    (same : ∀ t ∈ now, t.timestampMs / 60000 = last.time / 60)
    (after : ∀ t ∈ later, last.time / 60 < t.timestampMs / 60000) (nonneg : 0 ≤ last.time)
    (opened : start ≤ (last.time / 60 + 1) * 60000)
    (closed : ∀ t ∈ later, (t.timestampMs / 60000 + 1) * 60000 ≤ stop) :
    ∃ reread, InfluxDbRepository.findOhlcv db ticker "1m" 60000 start stop =
        InfluxDbRepository.inRange (fun bar : OhlcvResponse K => bar.time * 1000) start stop
          (db.tagged (ticker, "1m")) ++ reread ∧
      points s'.ohlcvData = front ++ [now.foldl (fun bar t => bar.update t.price) last] ++
        (reread.filter ((last.time / 60 + 1) * 60 < ·.time)).map minuteBefore := by
  have order : (past ++ (now ++ later)).Pairwise fun a b => a.timestampMs ≤ b.timestampMs := by
    have increasing := sorted.ticks ticker
    rw [stored, List.append_assoc] at increasing
    exact (List.pairwise_map.1 increasing).imp fun lt => le_of_lt lt
  have live : points s'.ohlcvData = applyTicks (front ++ [last]) (now ++ later) := by
    rw [← ticks]
    refine points_of_delivers h delivers bars nofun ?_ ?_ run
    · rw [ticks]
      exact (List.pairwise_append.1 order).2.1
    · rw [ticks]
      intro t mem
      rcases List.mem_append.1 mem with here | new
      · exact (same t here).ge
      · exact (after t new).le
  rw [live]
  exact applyTicks_reloaded sorted stored ended same after nonneg opened closed

end Reread

section Example

def stock70000 : Option Stock := some ⟨"005930", "70000"⟩

/-- The chart opens in the minute of its only bar. -/
def opening : List (ChartAction ℤ) :=
  [.render stock70000 .minute 10000, .render stock70000 .minute 10100,
    .historyResponse 0 (some [⟨0, 69000, 71000, 68000, 69000, 10⟩]), .render stock70000 .minute 10200]

/-- Two ticks of one price in that minute, with a render between them, and two in the next one. -/
def twoMinutes : List (ChartRender ℤ) :=
  [⟨"75000", 31000, some ⟨"005930", 75000, 10, 30000⟩⟩, ⟨"75000", 31100, none⟩,
    ⟨"75000", 42000, some ⟨"005930", 75000, 20, 40000⟩⟩, ⟨"70000", 61000, some ⟨"005930", 70000, 10, 90000⟩⟩,
    ⟨"75000", 119000, some ⟨"005930", 75000, 10, 100000⟩⟩]

/-- The ticks are stored. -/
def storedTicks : Measurement ℤ where
  tagged := fun _ => []
  ticks := fun _ => (twoMinutes.filterMap ChartRender.tick).map tickPoint

theorem live_eq_reloaded_two : ∃ s s' : PriceChart ℤ, (priceChart parseWon).run opening = some s ∧
    (priceChart parseWon).runFrom s (twoMinutes.map (ChartRender.action "005930")) = some s' ∧
    ∃ reread, InfluxDbRepository.findOhlcv storedTicks "005930" "1m" 60000 0 150000 =
        InfluxDbRepository.inRange (fun bar : OhlcvResponse ℤ => bar.time * 1000) 0 150000
          (storedTicks.tagged ("005930", "1m")) ++ reread ∧
      points s'.ohlcvData = [] ++ [((twoMinutes.filterMap ChartRender.tick).take 2).foldl
        (fun bar t => bar.update t.price) ⟨0, 69000, 71000, 68000, 70000, 10⟩] ++
        (reread.filter ((0 / 60 + 1) * 60 < ·.time)).map minuteBefore := by
  obtain ⟨s, run, facts⟩ := (priceChart parseWon).exists_of_any opening
    (fun s => s.shown = some ⟨some "005930", .minute, some "70000", true, true⟩ ∧ s.isHistoryLoaded = true ∧
      s.isChartReady = true ∧ s.candleSeries.isSome = true ∧ s.dataChanged = true ∧
      points s.ohlcvData = [⟨0, 69000, 71000, 68000, 70000, 10⟩]) (by decide +kernel)
  obtain ⟨shown, loaded, ready, chart, changed, bars⟩ := of_decide_eq_true facts
  have open_ : OpenAt "005930" "70000" s := by
    refine ⟨shown, loaded, ready, chart, ?_, .inl changed⟩
    intro no_data
    rw [no_data] at bars
    cases bars
  obtain ⟨s', rest, -⟩ := (priceChart parseWon).exists_of_any
    (opening ++ twoMinutes.map (ChartRender.action "005930")) (fun _ => true) (by decide +kernel)
  rw [Machine.run_append, run, Option.bind_some] at rest
  have delivers : Delivers parseWon none "70000" twoMinutes := by
    refine ⟨rfl, rfl, by decide, rfl, rfl, rfl, ?_, rfl, rfl, by decide, rfl, rfl, ?_, trivial⟩
    · exact fun other => absurd rfl other
    · exact fun other => absurd rfl other
  have sorted : storedTicks.Sorted := by
    refine ⟨fun _ => List.Pairwise.nil, fun _ => ?_⟩
    show List.Pairwise _ [_, _, _, _]
    decide
  refine ⟨s, s', run, rest, ?_⟩
  exact @live_eq_reloaded ℤ _ _ parseWon "005930" "70000" s s' [] ⟨0, 69000, 71000, 68000, 70000, 10⟩ []
    ((twoMinutes.filterMap ChartRender.tick).take 2) ((twoMinutes.filterMap ChartRender.tick).drop 2) 0 150000
    twoMinutes open_ bars delivers rfl rest storedTicks sorted rfl (by decide) (by decide) (by decide) (by decide)
    (by decide) (by decide)

/-- The chart has the bars of the minutes 0 and 1, the reload those of 1 and 2. -/
example : (((priceChart parseWon).run (opening ++ twoMinutes.map (ChartRender.action "005930"))).map fun s =>
      (points s.ohlcvData).map OhlcvPoint.time) = some [0, 60] ∧
    (InfluxDbRepository.liveBars 60000 0 150000 (storedTicks.ticks "005930")).map OhlcvResponse.time = [60, 120] := by
  decide +kernel

end Example

end StockAnomaly.WebApp

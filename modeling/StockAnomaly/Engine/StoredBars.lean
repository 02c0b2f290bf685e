import StockAnomaly.Aggregation.CandleBlocks
import StockAnomaly.ApiServer.InfluxDbRepository
import StockAnomaly.Engine.MarketFeed

/-!
# Stored bars and engine candles

Both services consume `raw-market-data`: the engine makes candles of the ticks, the api-server
stores the ticks, and InfluxDB makes bars of them when it is asked for the interval of a window.
When no two ticks of the ticker have the same time, these bars are the engine's candles, except
that the range of the query cuts the first and the last of them:
**`liveBars_eq_candles`**. A closed candle that is also stored under its interval tag is then in
the answer twice, with the same values: **`answer_agrees`**.
-/

namespace StockAnomaly.Engine

open StockAnomaly.Theory StockAnomaly.Aggregation StockAnomaly.ApiServer

variable {K : Type*}

/-- The point of a tick. -/
def tickPoint (t : Tick K) : TickPoint K := ⟨t.timestampMs, t.price, t.volume⟩

theorem map_filter_of_forall₂ {α β γ : Type*} {R : α → β → Prop} {as : List α} {bs : List β} {p : α → Bool}
    {q : β → Bool} {f : α → γ} {g : β → γ} (related : List.Forall₂ R as bs) (test : ∀ a b, R a b → p a = q b)
    (same : ∀ a b, R a b → q b = true → f a = g b) : (as.filter p).map f = (bs.filter q).map g := by
  induction related with
  | nil => rfl
  | @cons a b as bs here rest ih =>
    rw [List.filter_cons, List.filter_cons, test a b here]
    split
    · rename_i met
      rw [List.map_cons, List.map_cons, ih, same a b here met]
    · exact ih

/-- A window within the range has all its ticks there. -/
theorem inWindow_inRange {every n start stop : ℤ} {points : List (TickPoint K)} (pos : 0 < every)
    (low : start ≤ n * every) (high : (n + 1) * every ≤ stop) :
    InfluxDbRepository.inWindow every n (InfluxDbRepository.inRange TickPoint.time start stop points) =
      InfluxDbRepository.inWindow every n points := by
  rw [InfluxDbRepository.inWindow, InfluxDbRepository.inRange, List.filter_filter]
  apply List.filter_congr
  intro p _
  by_cases at_n : Flux.window every p.time = n
  · obtain ⟨after, before⟩ := (Flux.window_eq_iff pos).1 at_n
    simp [at_n, low.trans after, before.trans_le high]
  · simp [at_n]

section Candles

variable [AddCommGroup K] [LinearOrder K]

/-- The candles of a ticker: the emitted ones and the one in progress. -/
def candles (w : Window) (ticker : Ticker) (ticks : List (Tick K)) : List (Candle K) :=
  emittedCandles w ((SwingPath.run ticks).2.filter (·.ticker = ticker)) ++
    candleInProgress w (SwingPath.run ticks).1 ticker

/-- The stored form of the candle of a block, by the ticks of the block. -/
theorem ohlcv_of_summarizes {c : Candle K} {block : List (Tick K)} (summary : c.Summarizes block)
    (nonneg : 0 ≤ c.closeTimeMs) :
    KafkaCandleConsumer.ohlcv c = InfluxDbRepository.tickBar (c.closeTimeMs / 1000) (block.map tickPoint) := by
  have prices : (block.map tickPoint).map TickPoint.price = block.map Tick.price := by
    rw [List.map_map]
    rfl
  have volumes : (block.map tickPoint).map TickPoint.volume = block.map Tick.volume := by
    rw [List.map_map]
    rfl
  have open_first : (block.map Tick.price).head? = some c.open := by
    rw [List.head?_map, summary.open_first]
  have close_last : (block.map Tick.price).getLast? = some c.close := by
    rw [List.getLast?_map, summary.close_last]
  have high_max : (block.map Tick.price).argmax id = some c.high := summary.high_max
  have low_min : (block.map Tick.price).argmin id = some c.low := summary.low_min
  rw [InfluxDbRepository.tickBar, prices, volumes, open_first, close_last, high_max, low_min, summary.volume_sum,
    KafkaCandleConsumer.ohlcv, Int.tdiv_eq_ediv_of_nonneg nonneg]
  rfl

/-- The candle of a window: its times, and its stored form by the ticks of the window. -/
structure OfWindow (windowMin : ℤ) (ticks : List (Tick K)) (c : Candle K) (n : ℤ) : Prop where
  openTimeMs : c.openTimeMs = n * windowMs windowMin
  closeTimeMs : c.closeTimeMs = (n + 1) * windowMs windowMin
  ohlcv : KafkaCandleConsumer.ohlcv c = InfluxDbRepository.tickBar ((n + 1) * windowMs windowMin / 1000)
    (InfluxDbRepository.inWindow (windowMs windowMin) n (ticks.map tickPoint))

theorem ofWindow_of_covers {windowMin : ℤ} (pos : 0 < windowMs windowMin) {ticks : List (Tick K)}
    {c : Candle K} {n : ℤ}
    (sorted : ticks.Pairwise fun a b => a.timestampMs ≤ b.timestampMs) (nonneg : ∀ t ∈ ticks, 0 ≤ t.timestampMs)
    (covers : c.Covers windowMin (ticks.filter (Segmented.windowNumber windowMin · = n))) :
    OfWindow windowMin ticks c n := by
  obtain ⟨t, first⟩ : ∃ t, (ticks.filter (Segmented.windowNumber windowMin · = n)).head? = some t := by
    have some_open := covers.summary.open_first
    exact (Option.map_eq_some_iff.1 some_open).imp fun _ both => both.1
  have mem := List.mem_of_head? first
  obtain ⟨t_mem, at_n⟩ := List.mem_filter.1 mem
  have number := Segmented.windowNumber_eq covers pos (sorted.filter _) mem
  have close : c.closeTimeMs = (n + 1) * windowMs windowMin := by
    have quotient : c.closeTimeMs / windowMs windowMin = n + 1 := by
      have at_n : Segmented.windowNumber windowMin t = n := of_decide_eq_true at_n
      omega
    rw [← quotient, Int.ediv_mul_cancel covers.aligned]
  have window := covers.window
  refine ⟨?_, close, ?_⟩
  · rw [close, add_one_mul] at window
    omega
  · have late := (covers.first_mem t first).2
    have early := nonneg t t_mem
    rw [ohlcv_of_summarizes covers.summary (by omega), close, InfluxDbRepository.inWindow, List.filter_map]
    rfl

/-- The candles of blocks in time order are those of the windows with ticks. -/
theorem ofWindow_of_segmented {windowMin : ℤ} {ticks : List (Tick K)} {emitted : List (Candle K)} {candle : Candle K}
    {closed : List (List (Tick K))} {current : List (Tick K)}
    (inv : Segmented windowMin ticks emitted candle closed current) (pos : 0 < windowMs windowMin)
    (sorted : ticks.Pairwise fun a b => a.timestampMs ≤ b.timestampMs) (nonneg : ∀ t ∈ ticks, 0 ≤ t.timestampMs) :
    List.Forall₂ (OfWindow windowMin ticks) (emitted ++ [candle])
      (Flux.windows (windowMs windowMin) (ticks.map Tick.timestampMs)) := by
  have covers := inv.covers
  rw [inv.blocks_eq_groups pos sorted] at covers
  have numbers : Flux.windows (windowMs windowMin) (ticks.map Tick.timestampMs) =
      (ticks.map (Segmented.windowNumber windowMin)).dedup := by
    rw [Flux.windows, List.map_map]
    rfl
  rw [numbers]
  exact (List.forall₂_map_right_iff.1 covers).imp fun c n => ofWindow_of_covers pos sorted nonneg

/-- The state of a ticker depends on its own ticks only. -/
theorem registry_admitted {ticks : List (Tick K)} {ticker : Ticker}
    (early : ticker ∈ SwingPath.admittedTickers ticks) :
    (SwingPath.run ticks).1.registry ticker =
      (SwingPath.perTicker.runOne (ticks.filter (·.ticker = ticker))).1 := by
  have taken : (ticks.filter (·.ticker ∈ SwingPath.admittedTickers ticks)).filter (·.ticker = ticker) =
      ticks.filter (·.ticker = ticker) := by
    rw [List.filter_filter]
    apply List.filter_congr
    intro t _
    by_cases own : t.ticker = ticker
    · simp [own, early]
    · simp [own]
  rw [(SwingPath.tells ticks).registry, Keyed.run_entry, ← taken]
  rfl

/-- The candles of a ticker that got a state are those its own ticks give. -/
theorem candles_own {w : Window} {ticks : List (Tick K)} {ticker : Ticker}
    (early : ticker ∈ SwingPath.admittedTickers ticks) :
    candles w ticker ticks = emittedCandles w (SwingPath.run (ticks.filter (·.ticker = ticker))).2 ++
      candleInProgress w (SwingPath.run (ticks.filter (·.ticker = ticker))).1 ticker := by
  have own : ∀ t ∈ ticks.filter (·.ticker = ticker), t.ticker = ticker := by
    intro t mem
    exact of_decide_eq_true (List.mem_filter.1 mem).2
  have some_tick : ticks.filter (·.ticker = ticker) ≠ [] := by
    obtain ⟨t, mem, same⟩ := List.mem_map.1 (mem_of_mem_admitted early)
    exact List.ne_nil_of_mem (List.mem_filter.2 ⟨mem, decide_eq_true same⟩)
  have alone : ticker ∈ SwingPath.admittedTickers (ticks.filter (·.ticker = ticker)) := by
    by_contra late
    have registry := (SwingPath.run_single own).1
    rw [((SwingPath.tells _).absent ticker).2 late, if_neg some_tick] at registry
    cases registry
  have registry : (SwingPath.run ticks).1.registry ticker =
      (SwingPath.run (ticks.filter (·.ticker = ticker))).1.registry ticker := by
    have again : (ticks.filter (·.ticker = ticker)).filter (·.ticker = ticker) = ticks.filter (·.ticker = ticker) :=
      List.filter_eq_self.2 fun t mem => decide_eq_true (own t mem)
    rw [registry_admitted early, registry_admitted alone, again]
  rw [candles, SwingPath.run_filter_admitted ticks early, candleInProgress, candleInProgress, registry]

/-- **The candles are those of the windows with ticks.** -/
theorem candles_ofWindow {w : Window} {ticks : List (Tick K)} {ticker : Ticker}
    (early : ticker ∈ SwingPath.admittedTickers ticks)
    (sorted : (ticks.filter (·.ticker = ticker)).Pairwise fun a b => a.timestampMs ≤ b.timestampMs)
    (nonneg : ∀ t ∈ ticks.filter (·.ticker = ticker), 0 ≤ t.timestampMs) :
    List.Forall₂ (OfWindow w.minutes (ticks.filter (·.ticker = ticker))) (candles w ticker ticks)
      (Flux.windows (windowMs w.minutes) ((ticks.filter (·.ticker = ticker)).map Tick.timestampMs)) := by
  have own : ∀ t ∈ ticks.filter (·.ticker = ticker), t.ticker = ticker := by
    intro t mem
    exact of_decide_eq_true (List.mem_filter.1 mem).2
  have some_tick : ticks.filter (·.ticker = ticker) ≠ [] := by
    obtain ⟨t, mem, same⟩ := List.mem_map.1 (mem_of_mem_admitted early)
    exact List.ne_nil_of_mem (List.mem_filter.2 ⟨mem, decide_eq_true same⟩)
  rw [candles_own early, emittedCandles_run w own, candleInProgress, (SwingPath.run_single own).1, if_neg some_tick]
  generalize ticks.filter (·.ticker = ticker) = ticks at *
  obtain ⟨closed, current, inv⟩ := SwingTickerState.run_segmented some_tick nonneg w
  exact ofWindow_of_segmented inv (windowMs_pos w) sorted nonneg

/-- The bars of some ticks are the candles, for every range of a query: those whose window lies
within the range, and before and after them at most one bar of a window that the range cuts. -/
def BarsAreCandles (windowMin : ℤ) (candles : List (Candle K)) (points : List (TickPoint K)) : Prop :=
  ∀ start stop, ∃ front back, InfluxDbRepository.liveBars (windowMs windowMin) start stop points =
      front ++ (candles.filter fun c => start ≤ c.openTimeMs ∧ c.closeTimeMs ≤ stop).map
        KafkaCandleConsumer.ohlcv ++ back ∧
    front.length ≤ 1 ∧ back.length ≤ 1 ∧
    (windowMs windowMin ∣ start → front = []) ∧ (windowMs windowMin ∣ stop → back = [])

theorem barsAreCandles {windowMin : ℤ} {ticks : List (Tick K)} {candles : List (Candle K)}
    (pos : 0 < windowMs windowMin) (sorted : ticks.Pairwise fun a b => a.timestampMs ≤ b.timestampMs)
    (ofWindow : List.Forall₂ (OfWindow windowMin ticks) candles
      (Flux.windows (windowMs windowMin) (ticks.map Tick.timestampMs))) :
    BarsAreCandles windowMin candles (ticks.map tickPoint) := by
  intro start stop
  obtain ⟨front, back, windows, short, short', aligned, aligned'⟩ :=
    Flux.windows_range start stop pos (List.pairwise_map.2 sorted)
  have times : (InfluxDbRepository.inRange TickPoint.time start stop (ticks.map tickPoint)).map TickPoint.time =
      (ticks.map Tick.timestampMs).filter fun t => start ≤ t ∧ t < stop := by
    rw [InfluxDbRepository.inRange, List.filter_map, List.filter_map, List.map_map]
    rfl
  rw [InfluxDbRepository.liveBars, times, windows, List.map_append, List.map_append]
  refine ⟨front.map (InfluxDbRepository.liveBar (windowMs windowMin) start stop (ticks.map tickPoint)),
    back.map (InfluxDbRepository.liveBar (windowMs windowMin) start stop (ticks.map tickPoint)), ?_,
    (List.length_map _).trans_le short, (List.length_map _).trans_le short', ?_, ?_⟩
  · congr 2
    refine (map_filter_of_forall₂ ofWindow ?_ ?_).symm
    · intro c n h
      rw [h.openTimeMs, h.closeTimeMs]
      rfl
    · intro c n h whole
      obtain ⟨low, high⟩ := of_decide_eq_true whole
      rw [h.ohlcv, InfluxDbRepository.liveBar, Flux.windowStop, min_eq_right high, inWindow_inRange pos low high]
  · intro dvd
    rw [aligned dvd, List.map_nil]
  · intro dvd
    rw [aligned' dvd, List.map_nil]

end Candles

section Consumers

variable [Ring K] {stod parseDouble : String → Option K} {parseLong : String → Option ℤ} {ticker : Ticker}

/-- The two services read the records of the ticker alike, and no ticker is too long for the
engine. -/
structure ReadAlike (stod parseDouble : String → Option K) (parseLong : String → Option ℤ) (ticker : Ticker)
    (records : List StockTick) : Prop where
  numbers : ∀ record ∈ records, record.ticker = ticker → ∃ price volume,
    parseDouble record.price = some price ∧ stod record.price = some price ∧
      parseLong record.volume = some volume ∧ stod record.volume = some (volume : K)
  tickers : ∀ record ∈ records, tickerField record.ticker = record.ticker

/-- The points after the api-server has consumed the records. -/
def saved (parseDouble : String → Option K) (parseLong : String → Option ℤ) (records : List StockTick)
    (db : Measurement K) : Measurement K :=
  records.foldl (InfluxDbRepository.save parseDouble parseLong) db

/-- The ticks of the ticker that the engine makes of the records. -/
def ownTicks (stod : String → Option K) (ticker : Ticker) (records : List StockTick) : List (Tick K) :=
  (records.filterMap (marketTick stod)).filter (·.ticker = ticker)

theorem save_other {db : Measurement K} {record : StockTick} (other : record.ticker ≠ ticker) :
    (InfluxDbRepository.save parseDouble parseLong db record).ticks ticker = db.ticks ticker := by
  unfold InfluxDbRepository.save
  split
  · exact Function.update_of_ne other.symm _ _
  · rfl

omit [Ring K] in
theorem marketTick_ticker {record : StockTick} {t : Tick K} (decoded : marketTick stod record = some t) :
    t.ticker = tickerField record.ticker := by
  simp only [marketTick, Option.bind_eq_bind, Option.bind_eq_some_iff] at decoded
  obtain ⟨price, -, volume, -, made⟩ := decoded
  cases made
  rfl

/-- **The stored points are the engine's ticks**, when their times increase. -/
theorem ticks_saved {records : List StockTick} {db : Measurement K}
    (read : ReadAlike stod parseDouble parseLong ticker records) (empty : db.ticks ticker = [])
    (increasing : (ownTicks stod ticker records).Pairwise fun a b => a.timestampMs < b.timestampMs) :
    (saved parseDouble parseLong records db).ticks ticker = (ownTicks stod ticker records).map tickPoint := by
  induction records using List.reverseRecOn with
  | nil => exact empty
  | append_singleton records record ih =>
    have last : ownTicks stod ticker (records ++ [record]) =
        ownTicks stod ticker records ++ ownTicks stod ticker [record] := by
      rw [ownTicks, List.filterMap_append, List.filter_append]
      rfl
    have earlier : ReadAlike stod parseDouble parseLong ticker records :=
      ⟨fun r mem => read.numbers r (List.mem_append_left _ mem),
        fun r mem => read.tickers r (List.mem_append_left _ mem)⟩
    have here : record ∈ records ++ [record] := List.mem_append_right _ (List.mem_singleton_self _)
    rw [last] at increasing ⊢
    have ih := ih earlier (List.pairwise_append.1 increasing).1
    rw [saved, List.foldl_append, List.foldl_cons, List.foldl_nil, ← saved]
    by_cases same : record.ticker = ticker
    · obtain ⟨price, volume, double, number, long, count⟩ := read.numbers record here same
      have fits : tickerField ticker = ticker := same ▸ read.tickers record here
      have decoded : ownTicks stod ticker [record] = [⟨ticker, price, volume, record.timestamp⟩] := by
        simp [ownTicks, marketTick, number, count, fits, same]
      rw [decoded] at increasing ⊢
      have later : ∀ p ∈ (ownTicks stod ticker records).map tickPoint, p.time < record.timestamp := by
        intro p mem
        obtain ⟨t, t_mem, rfl⟩ := List.mem_map.1 mem
        exact (List.pairwise_append.1 increasing).2.2 t t_mem _ (List.mem_singleton_self _)
      have written :
          (InfluxDbRepository.save parseDouble parseLong (saved parseDouble parseLong records db) record).ticks
          ticker = TimeSeries.upsert TickPoint.time ⟨record.timestamp, price, volume⟩
            ((saved parseDouble parseLong records db).ticks ticker) := by
        simp [InfluxDbRepository.save, double, long, same]
      have sorted : TimeSeries.Increasing TickPoint.time ((ownTicks stod ticker records).map tickPoint) :=
        List.pairwise_map.2 (List.pairwise_append.1 increasing).1
      rw [written, ih, TimeSeries.upsert_of_lt sorted later, List.map_append]
      rfl
    · have nothing : ownTicks stod ticker [record] = [] := by
        refine List.filter_eq_nil_iff.2 fun t mem own => same ?_
        obtain ⟨r, r_mem, decoded⟩ := List.mem_filterMap.1 mem
        obtain rfl := List.mem_singleton.1 r_mem
        rw [← read.tickers r here, ← marketTick_ticker decoded]
        exact of_decide_eq_true own
      rw [nothing, List.append_nil, save_other same, ih]

end Consumers

section Answer

variable [Ring K] [LinearOrder K] {ticker : Ticker}

/-- The bars that `KafkaCandleConsumer` has stored. -/
def persisted (consumed : List (Candle K)) (tagged : StockPrices K) : StockPrices K :=
  consumed.foldl KafkaCandleConsumer.consume tagged

/-- The interval tag of a window. -/
def tag : Window → String
  | .quarter => "15m"
  | .hour => "1h"

/-- The query for the tag of a window makes bars of the window's length. -/
theorem toFluxInterval_tag (w : Window) : InfluxDbRepository.toFluxInterval (tag w) = some (windowMs w.minutes) := by
  cases w with
  | quarter => rfl
  | hour => rfl

omit [Ring K] [LinearOrder K] in
/-- A stored bar is that of a candle of its series. -/
theorem mem_persisted {consumed : List (Candle K)} {tagged : StockPrices K} {series : Ticker × String}
    (empty : tagged series = []) {bar : OhlcvResponse K} (mem : bar ∈ persisted consumed tagged series) :
    ∃ c ∈ consumed, (c.ticker, KafkaCandleConsumer.interval c) = series ∧ bar = KafkaCandleConsumer.ohlcv c := by
  induction consumed using List.reverseRecOn with
  | nil =>
    rw [persisted, List.foldl_nil, empty] at mem
    cases mem
  | append_singleton consumed c ih =>
    rw [persisted, List.foldl_append, List.foldl_cons, List.foldl_nil, ← persisted] at mem
    have older (mem : bar ∈ persisted consumed tagged series) :
        ∃ d ∈ consumed ++ [c], (d.ticker, KafkaCandleConsumer.interval d) = series ∧
          bar = KafkaCandleConsumer.ohlcv d :=
      (ih mem).imp fun d both => ⟨List.mem_append_left _ both.1, both.2⟩
    by_cases own : series = (c.ticker, KafkaCandleConsumer.interval c)
    · subst own
      rw [KafkaCandleConsumer.consume, InfluxDbRepository.saveOhlcv, Function.update_self] at mem
      rcases TimeSeries.mem_of_mem_upsert mem with rfl | old
      · exact ⟨c, List.mem_append_right _ (List.mem_singleton_self c), rfl, rfl⟩
      · exact older old
    · rw [KafkaCandleConsumer.consume, InfluxDbRepository.saveOhlcv, Function.update_of_ne own] at mem
      exact older mem

/-- A signal is about its candle's ticker. -/
theorem signal_ticker {ticks : List (Tick K)} {sig : AggregatorSignal K} (mem : sig ∈ (SwingPath.run ticks).2) :
    sig.ticker = sig.candle.ticker := by
  induction ticks using List.reverseRecOn with
  | nil => cases mem
  | append_singleton ticks tick ih =>
    rw [SwingPath.run_snoc] at mem
    rcases List.mem_append.1 mem with old | new
    · exact ih old
    · rw [SwingPath.updateSwingState] at new
      split at new
      · cases new
      · obtain ⟨c, -, rfl⟩ := List.mem_map.1 new
        rfl

/-- An emitted candle of the ticker that is stored under the tag of a window is one of that
window. -/
theorem mem_candles {w : Window} {ticks : List (Tick K)} {c : Candle K}
    (mem : c ∈ (SwingPath.run ticks).2.map AggregatorSignal.candle) (own : c.ticker = ticker)
    (tagged : KafkaCandleConsumer.interval c = tag w) : c ∈ candles w ticker ticks := by
  obtain ⟨s, v, -, minutes, -⟩ := (Identified.run ticks).earlier c mem
  obtain rfl : v = w := by
    rw [KafkaCandleConsumer.interval, minutes] at tagged
    cases v <;> cases w <;> first | rfl | (revert tagged; decide)
  obtain ⟨sig, sig_mem, rfl⟩ := List.mem_map.1 mem
  refine List.mem_append_left _ (List.mem_filter.2 ⟨List.mem_map_of_mem (List.mem_filter.2 ⟨sig_mem, ?_⟩), ?_⟩)
  · exact decide_eq_true ((signal_ticker sig_mem).trans own)
  · exact decide_eq_true minutes

/-- The measurement after the ticks of the records and the consumed candles have been stored. -/
def stored (parseDouble : String → Option K) (parseLong : String → Option ℤ) (records : List StockTick)
    (consumed : List (Candle K)) : Measurement K where
  tagged := persisted consumed fun _ => []
  ticks := (saved parseDouble parseLong records ⟨fun _ => [], fun _ => []⟩).ticks

omit [LinearOrder K] in
theorem sorted_stored (parseDouble : String → Option K) (parseLong : String → Option ℤ) (records : List StockTick)
    (consumed : List (Candle K)) : (stored parseDouble parseLong records consumed).Sorted where
  tagged := by
    induction consumed using List.reverseRecOn with
    | nil => exact fun _ => List.Pairwise.nil
    | append_singleton consumed c ih =>
      simp only [stored, persisted, List.foldl_append, List.foldl_cons, List.foldl_nil] at ih ⊢
      exact ih.saveOhlcv _ _ _
  ticks := by
    have sorted : (saved parseDouble parseLong records (⟨fun _ => [], fun _ => []⟩ : Measurement K)).Sorted := by
      induction records using List.reverseRecOn with
      | nil => exact ⟨fun _ => List.Pairwise.nil, fun _ => List.Pairwise.nil⟩
      | append_singleton records record ih =>
        rw [saved, List.foldl_append]
        exact InfluxDbRepository.sorted_save ih record
    exact sorted.ticks

variable {stod parseDouble : String → Option K} {parseLong : String → Option ℤ} {records : List StockTick}
  {consumed : List (Candle K)}

/-- The records of a ticker that both services read alike, in the order of their times, no two
at the same time; the engine has a state for the ticker. -/
structure Feed (stod parseDouble : String → Option K) (parseLong : String → Option ℤ) (ticker : Ticker)
    (records : List StockTick) : Prop extends ReadAlike stod parseDouble parseLong ticker records where
  early : ticker ∈ SwingPath.admittedTickers (records.filterMap (marketTick stod))
  increasing : (ownTicks stod ticker records).Pairwise fun a b => a.timestampMs < b.timestampMs
  nonneg : ∀ t ∈ ownTicks stod ticker records, 0 ≤ t.timestampMs

omit [LinearOrder K] in
/-- The stored points are the ticks of the engine. -/
theorem Feed.points (feed : Feed stod parseDouble parseLong ticker records) (consumed : List (Candle K)) :
    (stored parseDouble parseLong records consumed).ticks ticker = (ownTicks stod ticker records).map tickPoint :=
  ticks_saved feed.toReadAlike rfl feed.increasing

theorem Feed.bars (feed : Feed stod parseDouble parseLong ticker records) (w : Window) :
    BarsAreCandles w.minutes (candles w ticker (records.filterMap (marketTick stod)))
      ((ownTicks stod ticker records).map tickPoint) := by
  have sorted := feed.increasing.imp fun lt => le_of_lt lt
  exact barsAreCandles (windowMs_pos w) sorted (candles_ofWindow feed.early sorted feed.nonneg)

/-- **The bars of the stored ticks are the engine's candles**: the bars that the query makes for
the interval of a window are the candles whose window lies within its range, and before and
after them at most one bar of a window that the range cuts. -/
theorem liveBars_eq_candles (w : Window) (feed : Feed stod parseDouble parseLong ticker records)
    (consumed : List (Candle K)) :
    BarsAreCandles w.minutes (candles w ticker (records.filterMap (marketTick stod)))
      ((stored parseDouble parseLong records consumed).ticks ticker) := by
  rw [feed.points]
  exact feed.bars w

section Example

def readNumber (text : String) : Option ℤ :=
  if text = "70000" then some 70000 else if text = "71000" then some 71000 else if text = "10" then some 10 else none

/-- Two trades of a ticker, a quarter apart. -/
def twoRecords : List StockTick :=
  [⟨"005930", "70000", "10", 0, none, "0", "0"⟩, ⟨"005930", "71000", "10", 900000, none, "0", "0"⟩]

theorem feed_twoRecords : Feed (fun text => (readNumber text).map (Int.cast : ℤ → ℚ))
    (fun text => (readNumber text).map Int.cast) readNumber "005930" twoRecords where
  numbers := by
    intro record mem _
    rcases List.mem_pair.1 mem with rfl | rfl
    · exact ⟨70000, 10, rfl, rfl, rfl, rfl⟩
    · exact ⟨71000, 10, rfl, rfl, rfl, rfl⟩
  tickers := by decide
  early := by decide +kernel
  increasing := by decide +kernel
  nonneg := by decide +kernel

end Example

theorem liveBars_eq_candles_two : BarsAreCandles 15
    (candles .quarter "005930"
      (twoRecords.filterMap (marketTick fun text => (readNumber text).map (Int.cast : ℤ → ℚ))))
    ((stored (fun text => (readNumber text).map (Int.cast : ℤ → ℚ)) readNumber twoRecords []).ticks "005930") :=
  liveBars_eq_candles .quarter feed_twoRecords []

/-- Every bar of an answer is that of a candle, and bars of the same time are the same. -/
structure AnswerAgrees (candles : List (Candle K)) (answer : List (OhlcvResponse K)) : Prop where
  candle : ∀ bar ∈ answer, ∃ c ∈ candles, bar = KafkaCandleConsumer.ohlcv c
  same : ∀ a ∈ answer, ∀ b ∈ answer, a.time = b.time → a = b

/-- Candles of one window with the same stored time are the same. -/
theorem ohlcv_eq_of_time {w : Window} (feed : Feed stod parseDouble parseLong ticker records) {c d : Candle K}
    (mem : c ∈ candles w ticker (records.filterMap (marketTick stod)))
    (mem' : d ∈ candles w ticker (records.filterMap (marketTick stod)))
    (same : (KafkaCandleConsumer.ohlcv c).time = (KafkaCandleConsumer.ohlcv d).time) : c = d := by
  have sorted := feed.increasing.imp fun lt => le_of_lt lt
  have related := candles_ofWindow (w := w) feed.early sorted feed.nonneg
  have seconds {c : Candle K} (mem : c ∈ candles w ticker (records.filterMap (marketTick stod))) :
      (KafkaCandleConsumer.ohlcv c).time * 1000 = c.closeTimeMs := by
    obtain ⟨n, -, h⟩ := forall₂_mem_right related.flip mem
    have whole : 1000 ∣ windowMs w.minutes := by cases w <;> decide
    rw [KafkaCandleConsumer.ohlcv, h.closeTimeMs]
    exact Int.tdiv_mul_cancel (Dvd.dvd.mul_left whole _)
  have times : (candles w ticker (records.filterMap (marketTick stod))).map Candle.closeTimeMs =
      (Flux.windows (windowMs w.minutes) ((ownTicks stod ticker records).map Tick.timestampMs)).map
        fun n => (n + 1) * windowMs w.minutes := by
    rw [← List.forall₂_eq_eq_eq]
    exact List.forall₂_map_left_iff.2 (List.forall₂_map_right_iff.2 (related.imp fun _ _ h => h.closeTimeMs))
  have pos := windowMs_pos w
  have distinct : ((candles w ticker (records.filterMap (marketTick stod))).map Candle.closeTimeMs).Nodup := by
    rw [times]
    refine (Flux.nodup_of_increasing (Flux.increasing_windows pos (List.pairwise_map.2 sorted))).map ?_
    intro n m eq
    have eq := Int.eq_of_mul_eq_mul_right pos.ne' eq
    omega
  apply List.inj_on_of_nodup_map distinct mem mem'
  rw [← seconds mem, ← seconds mem', same]

/-- **Whichever source a bar of the answer comes from**, the candle topic or the ticks, it is the
engine's candle of its time, if the range of the query cuts no window. -/
theorem answer_agrees (w : Window) (feed : Feed stod parseDouble parseLong ticker records)
    (emitted : consumed <+: (SwingPath.run (records.filterMap (marketTick stod))).2.map AggregatorSignal.candle)
    {start stop : ℤ} (aligned : windowMs w.minutes ∣ start) (aligned' : windowMs w.minutes ∣ stop) :
    AnswerAgrees (candles w ticker (records.filterMap (marketTick stod)))
      (InfluxDbRepository.findOhlcv (stored parseDouble parseLong records consumed) ticker (tag w)
        (windowMs w.minutes) start stop) := by
  have all : ∀ bar ∈ InfluxDbRepository.findOhlcv (stored parseDouble parseLong records consumed) ticker (tag w)
      (windowMs w.minutes) start stop,
      ∃ c ∈ candles w ticker (records.filterMap (marketTick stod)), bar = KafkaCandleConsumer.ohlcv c := by
    intro bar mem
    rw [InfluxDbRepository.findOhlcv_eq (sorted_stored ..) _ _ (windowMs_pos w)] at mem
    rcases List.mem_append.1 mem with old | live
    · obtain ⟨c, c_mem, series, rfl⟩ := mem_persisted rfl (List.mem_filter.1 old).1
      obtain ⟨own, tagged⟩ := Prod.ext_iff.1 series
      exact ⟨c, mem_candles (emitted.subset c_mem) own tagged, rfl⟩
    · obtain ⟨front, back, eq, -, -, no_front, no_back⟩ := feed.bars w start stop
      rw [feed.points, eq, no_front aligned, no_back aligned', List.nil_append, List.append_nil] at live
      obtain ⟨c, c_mem, rfl⟩ := List.mem_map.1 live
      exact ⟨c, (List.mem_filter.1 c_mem).1, rfl⟩
  refine ⟨all, fun a a_mem b b_mem same => ?_⟩
  obtain ⟨c, c_mem, rfl⟩ := all a a_mem
  obtain ⟨d, d_mem, rfl⟩ := all b b_mem
  rw [ohlcv_eq_of_time feed c_mem d_mem same]

/-- The first quarter is in the answer from both sources. -/
theorem answer_agrees_two :
    AnswerAgrees (candles .quarter "005930"
        (twoRecords.filterMap (marketTick fun text => (readNumber text).map (Int.cast : ℤ → ℚ))))
      (InfluxDbRepository.findOhlcv
        (stored (fun text => (readNumber text).map (Int.cast : ℤ → ℚ)) readNumber twoRecords
          [⟨"005930", 70000, 70000, 70000, 70000, 10, 0, 900000, 1, 15⟩])
        "005930" "15m" 900000 0 1800000) :=
  answer_agrees .quarter feed_twoRecords (by decide +kernel) (by decide) (by decide)

end Answer

end StockAnomaly.Engine

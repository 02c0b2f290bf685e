import Mathlib.Algebra.Ring.Defs
import Mathlib.Data.List.MinMax
import StockAnomaly.ApiServer.KafkaCandleConsumer
import StockAnomaly.ApiServer.KisMessages
import StockAnomaly.Theory.Flux

/-!
# The bars of `InfluxDbRepository`

The measurement `stock_prices` holds the points of the ticks, and under an interval tag bars
that were stored as such. The query for the bars of an interval takes both: the stored bars of
the range, and bars that it makes of the ticks of the range, one for each window with ticks,
at the end of the window. What the query's five aggregations and its pivot amount to is
**`findOhlcv_eq`**.
-/

namespace StockAnomaly.ApiServer

open StockAnomaly.Aggregation (Ticker)
open StockAnomaly.Theory

/-- A point without an interval tag. -/
structure TickPoint (K : Type*) where
  /-- Milliseconds. -/
  time : ℤ
  price : K
  volume : K
deriving DecidableEq

/-- The measurement `stock_prices`. -/
structure Measurement (K : Type*) where
  tagged : StockPrices K
  ticks : Ticker → List (TickPoint K)

/-- The fields of the points. -/
inductive Field
  | «open»
  | high
  | low
  | close
  | volume
  | price
deriving DecidableEq

variable {K : Type*}

def OhlcvResponse.field (p : OhlcvResponse K) : Field → K
  | .open => p.open
  | .high => p.high
  | .low => p.low
  | .close => p.close
  | .volume => p.volume
  | .price => p.close

namespace InfluxDbRepository

/-- `save`; nothing is stored of a tick with a text that is no number. -/
def save [IntCast K] (parseDouble : String → Option K) (parseLong : String → Option ℤ) (db : Measurement K)
    (tick : StockTick) : Measurement K :=
  match parseDouble tick.price, parseLong tick.volume with
  | some price, some volume =>
    { db with
      ticks := Function.update db.ticks tick.ticker
        (TimeSeries.upsert TickPoint.time ⟨tick.timestamp, price, volume⟩ (db.ticks tick.ticker)) }
  | _, _ => db

/-- The intervals of a fixed length, in milliseconds; `1mo` is none. -/
def toFluxInterval (interval : String) : Option ℤ :=
  match interval with
  | "1m" => some 60000
  | "15m" => some 900000
  | "1h" => some 3600000
  | "1d" => some 86400000
  | "1w" => some 604800000
  | _ => none

section Query

variable [LinearOrder K] [AddMonoid K]

/-- The tables of `buildOhlcvQuery` for the stored bars: `cached`. -/
def cached (db : Measurement K) (ticker : Ticker) (interval : String) (start stop : ℤ) :
    List (Field × List (Flux.Record K)) :=
  [Field.open, .high, .low, .close, .volume].map fun field =>
    (field, Flux.range start stop ((db.tagged (ticker, interval)).map fun p => ⟨p.time * 1000, p.field field⟩))

/-- Those for the ticks: `agg_open` to `agg_vol`. -/
def agg (db : Measurement K) (ticker : Ticker) (every start stop : ℤ) : List (Field × List (Flux.Record K)) :=
  let price_ticks := Flux.range start stop ((db.ticks ticker).map fun p => ⟨p.time, p.price⟩)
  let vol_ticks := Flux.range start stop ((db.ticks ticker).map fun p => ⟨p.time, p.volume⟩)
  [(.open, Flux.aggregateWindow every stop List.head? price_ticks),
    (.high, Flux.aggregateWindow every stop (List.argmax id) price_ticks),
    (.low, Flux.aggregateWindow every stop (List.argmin id) price_ticks),
    (.close, Flux.aggregateWindow every stop List.getLast? price_ticks),
    (.volume, Flux.aggregateWindow every stop (fun values => some values.sum) vol_ticks)]

def getDoubleValue (record : Field → Option K) (field fallbackField : Field) : K :=
  ((record field).or (record fallbackField)).getD 0

/-- A record of the answer as `executeOhlcvQuery` reads it. -/
def response (record : ℤ × (Field → Option K)) : OhlcvResponse K where
  time := record.1 / 1000
  «open» := getDoubleValue record.2 .open .price
  high := getDoubleValue record.2 .high .price
  low := getDoubleValue record.2 .low .price
  close := getDoubleValue record.2 .close .price
  volume := (record.2 .volume).getD 0

/-- `findOhlcv` for an interval of a fixed length, of a range in milliseconds. The two series
of points have tables of their own, since one of them has an interval tag. -/
def findOhlcv (db : Measurement K) (ticker : Ticker) (interval : String) (every start stop : ℤ) :
    List (OhlcvResponse K) :=
  (Flux.pivot (cached db ticker interval start stop) ++ Flux.pivot (agg db ticker every start stop)).map response

/-- The bar of some ticks. -/
def tickBar (time : ℤ) (ticks : List (TickPoint K)) : OhlcvResponse K where
  time := time
  «open» := ((ticks.map TickPoint.price).head?).getD 0
  high := ((ticks.map TickPoint.price).argmax id).getD 0
  low := ((ticks.map TickPoint.price).argmin id).getD 0
  close := ((ticks.map TickPoint.price).getLast?).getD 0
  volume := (ticks.map TickPoint.volume).sum

/-- The points of the range. -/
def inRange {α : Type*} (time : α → ℤ) (start stop : ℤ) (points : List α) : List α :=
  points.filter fun p => start ≤ time p ∧ time p < stop

/-- The ticks of a window. -/
def inWindow (every n : ℤ) (points : List (TickPoint K)) : List (TickPoint K) :=
  points.filter (Flux.window every ·.time = n)

def liveBar (every start stop : ℤ) (points : List (TickPoint K)) (n : ℤ) : OhlcvResponse K :=
  tickBar (Flux.windowStop every stop n / 1000) (inWindow every n (inRange TickPoint.time start stop points))

/-- The bars that are made of ticks. -/
def liveBars (every start stop : ℤ) (points : List (TickPoint K)) : List (OhlcvResponse K) :=
  (Flux.windows every ((inRange TickPoint.time start stop points).map TickPoint.time)).map
    (liveBar every start stop points)

end Query

end InfluxDbRepository

/-- Every series is sorted, with one point per time. -/
structure Measurement.Sorted (db : Measurement K) : Prop where
  tagged : db.tagged.Sorted
  ticks : ∀ ticker, TimeSeries.Increasing TickPoint.time (db.ticks ticker)

namespace InfluxDbRepository

theorem sorted_save [IntCast K] {parseDouble : String → Option K} {parseLong : String → Option ℤ}
    {db : Measurement K} (sorted : db.Sorted) (tick : StockTick) : (save parseDouble parseLong db tick).Sorted := by
  unfold save
  split
  · refine ⟨sorted.tagged, fun ticker => ?_⟩
    by_cases same : ticker = tick.ticker
    · subst same
      simp only [Function.update_self]
      exact TimeSeries.pairwise_upsert (sorted.ticks _)
    · simp only [Function.update_of_ne same]
      exact sorted.ticks ticker
  · exact sorted

section Query

variable {α : Type*} {time : α → ℤ} {start stop every n : ℤ} {points : List α}

theorem range_map (value : α → K) : Flux.range start stop (points.map fun p => ⟨time p, value p⟩) =
    (inRange time start stop points).map fun p => ⟨time p, value p⟩ := by
  rw [Flux.range, List.filter_map]
  rfl

theorem valuesIn_map (value : α → K) :
    Flux.valuesIn every n (points.map fun p => (⟨time p, value p⟩ : Flux.Record K)) =
      (points.filter fun p => Flux.window every (time p) = n).map value := by
  rw [Flux.valuesIn, List.filter_map, List.map_map]
  rfl

theorem increasing_inRange (sorted : TimeSeries.Increasing time points) :
    TimeSeries.Increasing time (inRange time start stop points) :=
  sorted.sublist List.filter_sublist

/-- One aggregation of the ticks of the range. -/
theorem aggregateWindow_map [Zero K] {points : List (TickPoint K)} {value : TickPoint K → K} {fn : List K → Option K}
    (some_value : ∀ values, values ≠ [] → fn values ≠ none) :
    Flux.aggregateWindow every stop fn (points.map fun p => ⟨p.time, value p⟩) =
      (Flux.windows every (points.map TickPoint.time)).map fun n =>
        ⟨Flux.windowStop every stop n, (fn ((inWindow every n points).map value)).getD 0⟩ := by
  have times : (points.map fun p => (⟨p.time, value p⟩ : Flux.Record K)).map Flux.Record.time =
      points.map TickPoint.time := by
    rw [List.map_map]
    rfl
  rw [← times]
  apply Flux.aggregateWindow_eq
  intro n mem
  have some_in := some_value _ (Flux.valuesIn_ne_nil mem)
  rw [valuesIn_map] at some_in ⊢
  exact (Option.getD_of_ne_none some_in 0).symm

variable [AddMonoid K]

/-- The fields of stored bars are put together again. -/
theorem pivot_cached {db : Measurement K} (sorted : db.Sorted) (ticker : Ticker) (interval : String) :
    (Flux.pivot (cached db ticker interval start stop)).map response =
      inRange (fun p : OhlcvResponse K => p.time * 1000) start stop (db.tagged (ticker, interval)) := by
  have ms : TimeSeries.Increasing (fun p : OhlcvResponse K => p.time * 1000) (db.tagged (ticker, interval)) :=
    (sorted.tagged (ticker, interval)).imp fun lt => by
      show _ * 1000 < _ * 1000
      omega
  have increasing : ((inRange (fun p : OhlcvResponse K => p.time * 1000) start stop
      (db.tagged (ticker, interval))).map fun p => p.time * 1000).Pairwise (· < ·) :=
    List.pairwise_map.2 (increasing_inRange ms)
  have tables : cached db ticker interval start stop = [Field.open, .high, .low, .close, .volume].map fun field =>
      (field, (inRange (fun p : OhlcvResponse K => p.time * 1000) start stop (db.tagged (ticker, interval))).map
        fun p => ⟨p.time * 1000, (fun field p => p.field field) field p⟩) := by
    simp only [cached, range_map]
  rw [tables, Flux.pivot_of_times (by simp) (by decide) increasing, List.map_map]
  refine (List.map_congr_left fun p _ => ?_).trans (List.map_id _)
  simp [response, getDoubleValue, OhlcvResponse.field]

variable [LinearOrder K]

/-- The aggregations of the ticks are put together, window by window. -/
theorem pivot_agg {db : Measurement K} (sorted : db.Sorted) (ticker : Ticker) (pos : 0 < every) :
    (Flux.pivot (agg db ticker every start stop)).map response = liveBars every start stop (db.ticks ticker) := by
  have increasing : ((inRange TickPoint.time start stop (db.ticks ticker)).map TickPoint.time).Pairwise (· ≤ ·) := by
    rw [List.pairwise_map]
    exact (increasing_inRange (sorted.ticks ticker)).imp le_of_lt
  have tables : agg db ticker every start stop = [Field.open, .high, .low, .close, .volume].map fun field =>
      (field, (Flux.windows every ((inRange TickPoint.time start stop (db.ticks ticker)).map TickPoint.time)).map
        fun n => ⟨Flux.windowStop every stop n,
          (tickBar 0 (inWindow every n (inRange TickPoint.time start stop (db.ticks ticker)))).field field⟩) := by
    simp only [agg, range_map, List.map_cons, List.map_nil]
    rw [aggregateWindow_map (by simp), aggregateWindow_map (by simp), aggregateWindow_map (by simp),
      aggregateWindow_map (by simp), aggregateWindow_map (by simp)]
    rfl
  rw [tables, Flux.pivot_of_times (by simp) (by decide), List.map_map]
  · refine List.map_congr_left fun n _ => ?_
    simp [response, getDoubleValue, OhlcvResponse.field, liveBar, tickBar]
  · apply Flux.increasing_windowStop pos increasing
    intro t mem
    obtain ⟨p, p_mem, rfl⟩ := List.mem_map.1 mem
    exact (of_decide_eq_true (List.mem_filter.1 p_mem).2).2

/-- **The bars of the query**: the stored ones of the range, and those made of its ticks. -/
theorem findOhlcv_eq {db : Measurement K} (sorted : db.Sorted) (ticker : Ticker) (interval : String)
    (pos : 0 < every) :
    findOhlcv db ticker interval every start stop =
      inRange (fun p : OhlcvResponse K => p.time * 1000) start stop (db.tagged (ticker, interval)) ++
        liveBars every start stop (db.ticks ticker) := by
  rw [findOhlcv, List.map_append, pivot_cached sorted, pivot_agg sorted ticker pos]

end Query

end InfluxDbRepository

end StockAnomaly.ApiServer

import Mathlib.Logic.Function.Basic
import StockAnomaly.Aggregation.Candle
import StockAnomaly.Theory.TimeSeries

/-!
# The persisted candles

`candle-data` carries the engine's closed candles. `KafkaCandleConsumer` stores each in the
measurement `stock_prices`; a series is a ticker with an interval tag, and a point replaces
the one of its series with the same time, which is in whole seconds.
-/

namespace StockAnomaly.ApiServer

open StockAnomaly.Aggregation (Ticker)
open StockAnomaly.Theory

structure OhlcvResponse (K : Type*) where
  /-- Seconds. -/
  time : ℤ
  «open» : K
  high : K
  low : K
  close : K
  volume : K
deriving DecidableEq

variable {K : Type*}

/-- The points of each series, in the order of time. -/
abbrev StockPrices (K : Type*) := Ticker × String → List (OhlcvResponse K)

namespace InfluxDbRepository

def saveOhlcv (db : StockPrices K) (ticker : Ticker) (interval : String) (ohlcv : OhlcvResponse K) :
    StockPrices K :=
  Function.update db (ticker, interval) (TimeSeries.upsert OhlcvResponse.time ohlcv (db (ticker, interval)))

end InfluxDbRepository

namespace KafkaCandleConsumer

def interval (message : Aggregation.Candle K) : String :=
  if message.windowMinutes = 60 then "1h" else "15m"

def ohlcv (message : Aggregation.Candle K) : OhlcvResponse K where
  time := message.closeTimeMs.tdiv 1000
  «open» := message.open
  high := message.high
  low := message.low
  close := message.close
  volume := message.volume

def consume (db : StockPrices K) (message : Aggregation.Candle K) : StockPrices K :=
  InfluxDbRepository.saveOhlcv db message.ticker (interval message) (ohlcv message)

end KafkaCandleConsumer

/-- Every series is sorted, with one point per time. -/
def StockPrices.Sorted (db : StockPrices K) : Prop := ∀ series, TimeSeries.Increasing OhlcvResponse.time (db series)

theorem StockPrices.Sorted.saveOhlcv {db : StockPrices K} (h : db.Sorted) (ticker : Ticker) (interval : String)
    (ohlcv : OhlcvResponse K) : (InfluxDbRepository.saveOhlcv db ticker interval ohlcv).Sorted := by
  intro series
  by_cases same : series = (ticker, interval)
  · subst same
    rw [InfluxDbRepository.saveOhlcv, Function.update_self]
    exact TimeSeries.pairwise_upsert (h _)
  · rw [InfluxDbRepository.saveOhlcv, Function.update_of_ne same]
    exact h series

end StockAnomaly.ApiServer

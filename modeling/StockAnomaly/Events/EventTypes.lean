import StockAnomaly.Aggregation.Candle
import StockAnomaly.Theory.Ieee
import StockAnomaly.Theory.Numerals

/-!
# Events and orders

The records of `event_types.hpp` and the order request of the handlers. An order executor
answers each request with `true` (accepted) or `false` (rejected); nothing is assumed
about its answers.
-/

namespace StockAnomaly.Events

export StockAnomaly.Aggregation (Ticker)

open StockAnomaly.Theory

structure ScalpingEvent (K : Type*) where
  ticker : Ticker
  zscore : K
  priceChangePct : K
  currentPrice : K
  timestampMs : ℤ
deriving DecidableEq

inductive SwingState
  /-- The candle is ready and waits for the AI. -/
  | candleClosed
  /-- The AI has responded. -/
  | aiConfirmed
  /-- The AI did not respond in time. -/
  | ttlExpired
deriving DecidableEq

/-- The answer of `ai-signal-service`. Its probabilities are never NaN: they are numbers of a JSON
message, and the parser refuses `NaN`, `Infinity` and what a double cannot hold. -/
structure AISignal (K : Type*) where
  bullProbability : K
  bearProbability : K
  /-- BUY_READY, SELL_READY or NEUTRAL. -/
  direction : String
  /-- The candle this signal is for. -/
  candleCloseTime : ℤ
deriving DecidableEq

structure SwingEvent (K : Type*) where
  state : SwingState
  ticker : Ticker
  «open» : K
  high : K
  low : K
  close : K
  volume : K
  candleCloseTimeMs : ℤ
  windowMinutes : ℤ
  /-- Read in the state `aiConfirmed` only. -/
  aiSignal : AISignal K
  timestampMs : ℤ
deriving DecidableEq

inductive Side
  | buy
  | sell
deriving DecidableEq

structure OrderRequest (K : Type*) where
  ticker : Ticker
  price : K
  quantity : K
  side : Side
deriving DecidableEq

/-- A submitted order and the executor's answer. -/
structure Order (K : Type*) where
  request : OrderRequest K
  accepted : Bool
deriving DecidableEq

abbrev OrderExecutor (K : Type*) := OrderRequest K → Bool

/-- The change of a price in percent of the entry price, as a double. -/
def changePct {K : Type*} [Field K] [LinearOrder K] (currentPrice entryPrice : K) : Ieee K :=
  (Ieee.div (currentPrice - entryPrice) entryPrice).scale 100

end StockAnomaly.Events

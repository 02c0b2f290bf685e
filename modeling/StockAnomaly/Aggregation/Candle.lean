import Mathlib.Algebra.Order.Ring.Defs
import Mathlib.Data.Int.Basic

/-!
# Ticks, candles and aggregator signals

The records of `candle.hpp` and the signal record of `tick_aggregator.hpp`. Prices and
volumes are elements of an ordered field `K` (exact arithmetic); times are epoch
milliseconds, and the window arithmetic divides as C++ does, towards zero.
-/

namespace StockAnomaly.Aggregation

/-- The text of a `char ticker[12]` field. -/
abbrev Ticker := String

structure Tick (K : Type*) where
  ticker : Ticker
  price : K
  volume : K
  timestampMs : ℤ
deriving DecidableEq

structure Candle (K : Type*) where
  ticker : Ticker
  «open» : K
  high : K
  low : K
  close : K
  volume : K
  /-- Window start. -/
  openTimeMs : ℤ
  /-- Window end. -/
  closeTimeMs : ℤ
  tickCount : ℕ
  /-- 15 or 60. -/
  windowMinutes : ℤ
deriving DecidableEq

inductive SignalType
  | scalping
  | swing
  | alertLow
  | alertMedium
deriving DecidableEq

structure AggregatorSignal (K : Type*) where
  type : SignalType
  ticker : Ticker
  zscore : K
  priceChangePct : K
  candle : Candle K
  timestampMs : ℤ
deriving DecidableEq

variable {K : Type*}

/-- The value-initialised candle `Candle{}`. -/
def Candle.zero [Zero K] : Candle K := ⟨"", 0, 0, 0, 0, 0, 0, 0, 0, 0⟩

/-- The length of a window in milliseconds. -/
def windowMs (windowMin : ℤ) : ℤ := windowMin * 60000

/-- The window boundary at or before a timestamp. -/
def windowStart (windowMin timestampMs : ℤ) : ℤ :=
  timestampMs.tdiv (windowMs windowMin) * windowMs windowMin

namespace Candle

def reset (firstTick : Tick K) (windowMin : ℤ) : Candle K where
  ticker := firstTick.ticker
  «open» := firstTick.price
  high := firstTick.price
  low := firstTick.price
  close := firstTick.price
  volume := firstTick.volume
  tickCount := 1
  windowMinutes := windowMin
  openTimeMs := windowStart windowMin firstTick.timestampMs
  closeTimeMs := windowStart windowMin firstTick.timestampMs + windowMs windowMin

def update [Add K] [LT K] [DecidableLT K] (c : Candle K) (tick : Tick K) : Candle K :=
  { c with
    high := if c.high < tick.price then tick.price else c.high
    low := if tick.price < c.low then tick.price else c.low
    close := tick.price
    volume := c.volume + tick.volume
    tickCount := c.tickCount + 1 }

def isExpired (c : Candle K) (timestampMs : ℤ) : Bool := c.closeTimeMs ≤ timestampMs

end Candle

end StockAnomaly.Aggregation

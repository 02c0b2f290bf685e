import Mathlib.Data.List.Induction
import Mathlib.Logic.Function.Basic
import StockAnomaly.Aggregation.Candle

/-!
# The swing path

`update_swing_state` keeps a 15-minute and a 1-hour candle for every ticker that got a
state from the pool, and emits a candle when a tick at or past its close arrives. The two
windows are one definition, `advance`, at two lengths. The state of a ticker lives under
the lock of its registry entry, so an update is one step.
-/

namespace StockAnomaly.Aggregation

/-- The two candle windows of the swing path. -/
inductive Window
  | quarter
  | hour
deriving DecidableEq

def Window.minutes : Window → ℤ
  | quarter => 15
  | hour => 60

/-- The per-ticker state of the swing path. -/
structure SwingTickerState (K : Type*) where
  candle15m : Candle K
  candle1h : Candle K
  active15m : Bool
  active1h : Bool

/-- The registry and the number of states taken from the pool, which are never given back. -/
structure SwingPath (K : Type*) where
  registry : Ticker → Option (SwingTickerState K)
  acquired : ℕ

/-- The size of the state pool. -/
def kStatePoolSize : ℕ := 512

variable {K : Type*} [AddCommGroup K] [LinearOrder K]

/-- The value-initialised state. -/
def SwingTickerState.zero : SwingTickerState K := ⟨Candle.zero, Candle.zero, false, false⟩

def SwingPath.zero : SwingPath K := ⟨fun _ => none, 0⟩

/-- One window of `update_swing_state`: the candle after the tick and what is emitted. -/
def advance (windowMin : ℤ) (active : Bool) (candle : Candle K) (tick : Tick K) :
    Candle K × List (Candle K) :=
  if !active then (Candle.reset tick windowMin, [])
  else if candle.isExpired tick.timestampMs then (Candle.reset tick windowMin, [candle])
  else (candle.update tick, [])

/-- Both windows, the 15-minute one first. -/
def SwingTickerState.update (s : SwingTickerState K) (tick : Tick K) :
    SwingTickerState K × List (Candle K) :=
  let (candle15m, emitted15m) := advance 15 s.active15m s.candle15m tick
  let (candle1h, emitted1h) := advance 60 s.active1h s.candle1h tick
  (⟨candle15m, candle1h, true, true⟩, emitted15m ++ emitted1h)

def emitSwingCandle (candle : Candle K) : AggregatorSignal K where
  type := .swing
  ticker := candle.ticker
  zscore := 0
  priceChangePct := 0
  candle := candle
  timestampMs := candle.closeTimeMs

namespace SwingPath

def getOrCreateState (p : SwingPath K) (ticker : Ticker) : Option (SwingTickerState K) × SwingPath K :=
  match p.registry ticker with
  | some state => (some state, p)
  | none =>
    if p.acquired < kStatePoolSize then
      (some .zero, ⟨Function.update p.registry ticker (some .zero), p.acquired + 1⟩)
    else (none, p)

/-- A tick of a ticker without a state is dropped when the pool is exhausted. -/
def updateSwingState (p : SwingPath K) (tick : Tick K) : SwingPath K × List (AggregatorSignal K) :=
  match p.getOrCreateState tick.ticker with
  | (none, p) => (p, [])
  | (some state, p) =>
    let (state, emitted) := state.update tick
    ({ p with registry := Function.update p.registry tick.ticker (some state) }, emitted.map emitSwingCandle)

/-- The path after a sequence of ticks, and the signals emitted on the way. -/
def run (ticks : List (Tick K)) : SwingPath K × List (AggregatorSignal K) :=
  ticks.foldl (fun (p, signals) tick =>
    let (p, new) := p.updateSwingState tick
    (p, signals ++ new)) (zero, [])

theorem run_snoc (ticks : List (Tick K)) (tick : Tick K) :
    run (ticks ++ [tick]) = (((run ticks).1.updateSwingState tick).1,
      (run ticks).2 ++ ((run ticks).1.updateSwingState tick).2) := by
  rw [run, List.foldl_append]
  rfl

theorem updateSwingState_found {p : SwingPath K} {tick : Tick K} {state : SwingTickerState K}
    (found : p.registry tick.ticker = some state) :
    p.updateSwingState tick =
      ({ p with registry := Function.update p.registry tick.ticker (some (state.update tick).1) },
        (state.update tick).2.map emitSwingCandle) := by
  simp [updateSwingState, getOrCreateState, found]

theorem updateSwingState_created {p : SwingPath K} {tick : Tick K}
    (absent : p.registry tick.ticker = none) (room : p.acquired < kStatePoolSize) :
    p.updateSwingState tick =
      (⟨Function.update p.registry tick.ticker (some (SwingTickerState.zero.update tick).1),
        p.acquired + 1⟩, (SwingTickerState.zero.update tick).2.map emitSwingCandle) := by
  simp [updateSwingState, getOrCreateState, absent, room, Function.update_idem]

theorem updateSwingState_dropped {p : SwingPath K} {tick : Tick K}
    (absent : p.registry tick.ticker = none) (exhausted : ¬ p.acquired < kStatePoolSize) :
    p.updateSwingState tick = (p, []) := by
  simp [updateSwingState, getOrCreateState, absent, exhausted]

end SwingPath

namespace SwingTickerState

/-- The state of one ticker after its ticks, and the candles emitted on the way. -/
def run (ticks : List (Tick K)) : SwingTickerState K × List (Candle K) :=
  ticks.foldl (fun (s, candles) tick =>
    let (s, new) := s.update tick
    (s, candles ++ new)) (zero, [])

theorem run_snoc (ticks : List (Tick K)) (tick : Tick K) :
    run (ticks ++ [tick]) =
      (((run ticks).1.update tick).1, (run ticks).2 ++ ((run ticks).1.update tick).2) := by
  rw [run, List.foldl_append]
  rfl

def candle (s : SwingTickerState K) : Window → Candle K
  | .quarter => s.candle15m
  | .hour => s.candle1h

/-- A state that has seen a tick has both candles in progress. -/
theorem run_active {ticks : List (Tick K)} :
    (run ticks).1.active15m = !ticks.isEmpty ∧ (run ticks).1.active1h = !ticks.isEmpty := by
  induction ticks using List.reverseRecOn with
  | nil => exact ⟨rfl, rfl⟩
  | append_singleton ticks tick =>
    rw [run_snoc]
    simp [update]

end SwingTickerState

/-- **The registry adds nothing to one ticker's ticks**: its state and its signals are those
of the per-ticker updates alone. -/
theorem SwingPath.run_single {ticker : Ticker} {ticks : List (Tick K)}
    (own : ∀ tick ∈ ticks, tick.ticker = ticker) :
    (run ticks).1.registry ticker =
        (if ticks = [] then none else some (SwingTickerState.run ticks).1) ∧
      (run ticks).2 = (SwingTickerState.run ticks).2.map emitSwingCandle := by
  induction ticks using List.reverseRecOn with
  | nil => exact ⟨rfl, rfl⟩
  | append_singleton ticks tick ih =>
    obtain ⟨registry, signals⟩ := ih fun t mem => own t (by simp [mem])
    obtain rfl : tick.ticker = ticker := own tick (by simp)
    rw [run_snoc, SwingTickerState.run_snoc]
    split at registry
    case isTrue empty =>
      subst empty
      rw [updateSwingState_created registry (by simp [run, zero, kStatePoolSize])]
      simp [run, SwingTickerState.run, zero]
    case isFalse some_tick =>
      rw [updateSwingState_found registry]
      simp [signals]

end StockAnomaly.Aggregation

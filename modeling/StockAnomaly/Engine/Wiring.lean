import StockAnomaly.Aggregation.Scalping
import StockAnomaly.Aggregation.Swing
import StockAnomaly.Events.ScalpingHandler
import StockAnomaly.Events.SwingHandler

/-!
# The engine as `main` wires it

Five threads meet here: the market consumer, which runs `push_tick` and, for each closed
candle, the aggregator callback; the drain thread of the scalping queue; the AI consumer;
and the two dispatch threads of the event bus. An action is one step of one of them, so a
run is an interleaving. Between `publish_candle` and `bus.publish` the callback can be
overtaken, so its sends are separate steps.

The engine keeps what it did beside its state: every tick has its arrival number, every
event of the swing bus the candle it is about, and the dispatches stay on record.
-/

namespace StockAnomaly.Engine

open StockAnomaly.Theory StockAnomaly.Aggregation StockAnomaly.Events

/-- Ticks in flight to the drain thread. -/
def kQueueCapacity : ℕ := 65536

/-- A message of the topic `ai-signals`. -/
structure AiSignalMessage (K : Type*) where
  ticker : Ticker
  close : K
  bullProbability : K
  bearProbability : K
  direction : String
  candleCloseTime : ℤ
  timestampMs : ℤ
deriving DecidableEq

/-- What the callback still has to do for a closed candle. -/
inductive Send (K : Type*)
  /-- `publish_candle`, to the topic `candle-data`. -/
  | publishCandle (candle : Candle K)
  /-- `bus.publish` of the candle's event. -/
  | publishEvent (event : SwingEvent K) (candle : Candle K)

/-- The market consumer inside `push_tick`. -/
structure Pushing (K : Type*) where
  number : ℕ
  tick : Tick K
  sends : List (Send K)

/-- The drain thread between the pop of a tick and the end of its callback. -/
structure Draining (K : Type*) where
  number : ℕ
  tick : Tick K
  signal : Option (AggregatorSignal K)

/-- A dispatch of the swing thread: the call, the branch it took and the candle its event is
about. -/
structure Dispatch (K : Type*) where
  op : SwingOp K
  outcome : Outcome K
  candle : Candle K

def Dispatch.IsBuy {K : Type*} (ticker : Ticker) (d : Dispatch K) : Prop :=
  ∃ o, d.outcome = .submitted o ∧ o.request.ticker = ticker ∧ o.request.side = .buy ∧ o.accepted = true

/-- What happened on the scalping side. -/
inductive ScalpingEntry (K : Type*)
  | dispatched (event : ScalpingEvent K) (order : Option (Order K))
  /-- The tick has left `push_tick`, the queue and the drain thread. -/
  | processed (tick : Tick K)

structure EngineState (K : Type*) where
  arrived : ℕ
  pushing : Option (Pushing K)
  scalpingQueue : List (ℕ × Tick K)
  stats : Scalping.Stats K
  draining : Option (Draining K)
  swingPath : SwingPath K
  scalpingBus : List (ScalpingEvent K)
  swingBus : List (SwingEvent K × Candle K)
  positions : Positions K
  states : SwingStates K
  /-- The messages of the topic `candle-data`. -/
  candleData : List (Candle K)
  /-- The candles `update_swing_state` emitted. -/
  emitted : List (Candle K)
  dispatched : List (Dispatch K)
  scalpingLog : List (ScalpingEntry K)

inductive EngineAction (K : Type*)
  /-- The market consumer calls `push_tick`. -/
  | tick (tick : Tick K)
  /-- Its next send; `delivered` is false when no message buffer is free or Kafka refuses. -/
  | send (delivered : Bool)
  /-- `push_tick` returns. -/
  | pushed
  | drain
  | drained
  /-- The AI consumer handles a message, computed from `candle`. -/
  | aiSignal (message : AiSignalMessage K) (candle : Candle K)
  | dispatchScalping (nowMs : ℤ) (executor : OrderExecutor K)
  | dispatchSwing (nowMs entryMs : ℤ) (executor : OrderExecutor K)

variable {K : Type*}

/-- The stub gateway: every order succeeds. -/
def makeOrderExecutor : OrderExecutor K := fun _ => true

section Events

variable [Zero K]

/-- The value-initialised signal. -/
def noSignal : AISignal K := ⟨0, 0, "", 0⟩

def closedEvent (sig : AggregatorSignal K) : SwingEvent K where
  state := .candleClosed
  ticker := sig.ticker
  «open» := sig.candle.open
  high := sig.candle.high
  low := sig.candle.low
  close := sig.candle.close
  volume := sig.candle.volume
  candleCloseTimeMs := sig.candle.closeTimeMs
  windowMinutes := sig.candle.windowMinutes
  aiSignal := noSignal
  timestampMs := sig.timestampMs

def confirmedEvent (message : AiSignalMessage K) : SwingEvent K where
  state := .aiConfirmed
  ticker := message.ticker
  «open» := 0
  high := 0
  low := 0
  close := message.close
  volume := 0
  candleCloseTimeMs := 0
  windowMinutes := 0
  aiSignal := ⟨message.bullProbability, message.bearProbability, message.direction, message.candleCloseTime⟩
  timestampMs := message.timestampMs

/-- The callback for a closed candle: the candle goes to Kafka first. -/
def swingSends (sig : AggregatorSignal K) : List (Send K) :=
  [.publishCandle sig.candle, .publishEvent (closedEvent sig) sig.candle]

end Events

/-- The callback for a signal of the drain thread; alerts go to Kafka only. -/
def scalpingEvents (signal : Option (AggregatorSignal K)) : List (ScalpingEvent K) :=
  match signal with
  | none => []
  | some sig =>
    if sig.type = .scalping then
      [⟨sig.ticker, sig.zscore, sig.priceChangePct, sig.candle.close, sig.timestampMs⟩]
    else []

namespace EngineState

/-- No thread has the tick of this number in its hands. -/
def finished (s : EngineState K) (number : ℕ) : Bool :=
  s.pushing.all (·.number ≠ number) && s.draining.all (·.number ≠ number) &&
    s.scalpingQueue.all (·.1 ≠ number)

/-- A thread is done with a tick. -/
def settle (s : EngineState K) (number : ℕ) (tick : Tick K) : EngineState K :=
  { s with
    scalpingLog := if s.finished number then s.scalpingLog ++ [.processed tick] else s.scalpingLog }

end EngineState

variable [Field K] [LinearOrder K] [Sqrt K]

def EngineState.init : EngineState K where
  arrived := 0
  pushing := none
  scalpingQueue := []
  stats := Scalping.Stats.zero
  draining := none
  swingPath := SwingPath.zero
  scalpingBus := []
  swingBus := []
  positions := fun _ => none
  states := fun _ => none
  candleData := []
  emitted := []
  dispatched := []
  scalpingLog := []

/-- `push_tick` up to the callbacks: a full scalping queue drops the tick. -/
def EngineState.pushTick (s : EngineState K) (tick : Tick K) : EngineState K :=
  let (swingPath, signals) := s.swingPath.updateSwingState tick
  { s with
    arrived := s.arrived + 1
    pushing := some ⟨s.arrived, tick, signals.flatMap swingSends⟩
    scalpingQueue :=
      if s.scalpingQueue.length < kQueueCapacity then s.scalpingQueue ++ [(s.arrived, tick)]
      else s.scalpingQueue
    swingPath := swingPath
    emitted := s.emitted ++ signals.map AggregatorSignal.candle }

/-- The swing thread calls the handler. -/
def EngineState.dispatchSwing (s : EngineState K) (event : SwingEvent K) (candle : Candle K)
    (rest : List (SwingEvent K × Candle K)) (nowMs entryMs : ℤ) (executor : OrderExecutor K) : EngineState K :=
  let op : SwingOp K := .onEvent event nowMs entryMs executor
  { s with
    swingBus := rest
    states := (SwingHandler.apply s.states op).1
    dispatched := s.dispatched ++ [⟨op, (SwingHandler.apply s.states op).2, candle⟩] }

/-- The scalping thread calls the handler. -/
def EngineState.dispatchScalping (s : EngineState K) (event : ScalpingEvent K) (rest : List (ScalpingEvent K))
    (nowMs : ℤ) (executor : OrderExecutor K) : EngineState K :=
  { s with
    scalpingBus := rest
    positions := (ScalpingHandler.onEvent s.positions event nowMs executor).1
    scalpingLog := s.scalpingLog ++
      [.dispatched event (ScalpingHandler.onEvent s.positions event nowMs executor).2] }

def step (s : EngineState K) : EngineAction K → Option (EngineState K)
  | .tick tick =>
    match s.pushing with
    | none => some (s.pushTick tick)
    | some _ => none
  | .send delivered =>
    match s.pushing with
    | some ⟨number, tick, .publishCandle candle :: sends⟩ =>
      some { s with
        pushing := some ⟨number, tick, sends⟩
        candleData := if delivered then s.candleData ++ [candle] else s.candleData }
    | some ⟨number, tick, .publishEvent event candle :: sends⟩ =>
      some { s with
        pushing := some ⟨number, tick, sends⟩
        swingBus := s.swingBus ++ [(event, candle)] }
    | _ => none
  | .pushed =>
    match s.pushing with
    | some ⟨number, tick, []⟩ => some ({ s with pushing := none }.settle number tick)
    | _ => none
  | .drain =>
    match s.draining, s.scalpingQueue with
    | none, (number, tick) :: queue =>
      some { s with
        scalpingQueue := queue
        stats := (Scalping.drainTick s.stats tick).1
        draining := some ⟨number, tick, (Scalping.drainTick s.stats tick).2⟩ }
    | _, _ => none
  | .drained =>
    match s.draining with
    | some ⟨number, tick, signal⟩ =>
      some ({ s with
        draining := none
        scalpingBus := s.scalpingBus ++ scalpingEvents signal }.settle number tick)
    | none => none
  | .aiSignal message candle => some { s with swingBus := s.swingBus ++ [(confirmedEvent message, candle)] }
  | .dispatchScalping nowMs executor =>
    match s.scalpingBus with
    | event :: rest => some (s.dispatchScalping event rest nowMs executor)
    | [] => none
  | .dispatchSwing nowMs entryMs executor =>
    match s.swingBus with
    | (event, candle) :: rest => some (s.dispatchSwing event candle rest nowMs entryMs executor)
    | [] => none

/-- The engine from the start of `main` on, under every interleaving. -/
def machine (K : Type*) [Field K] [LinearOrder K] [Sqrt K] : Machine (EngineState K) (EngineAction K) where
  init := EngineState.init
  step := step

/-- The history of the swing handler. -/
def EngineState.history (s : EngineState K) : List (SwingOp K × Outcome K) :=
  s.dispatched.map fun d => (d.op, d.outcome)

/-- The steps of the engine, one constructor for each branch of `step`. -/
inductive Step (s : EngineState K) : EngineAction K → EngineState K → Prop
  | tick {tick : Tick K} (idle : s.pushing = none) : Step s (.tick tick) (s.pushTick tick)
  | publishCandle {number : ℕ} {tick : Tick K} {candle : Candle K} {sends : List (Send K)} {delivered : Bool}
      (next : s.pushing = some ⟨number, tick, .publishCandle candle :: sends⟩) :
      Step s (.send delivered) { s with
        pushing := some ⟨number, tick, sends⟩
        candleData := if delivered then s.candleData ++ [candle] else s.candleData }
  | publishEvent {number : ℕ} {tick : Tick K} {event : SwingEvent K} {candle : Candle K} {sends : List (Send K)}
      {delivered : Bool} (next : s.pushing = some ⟨number, tick, .publishEvent event candle :: sends⟩) :
      Step s (.send delivered) { s with
        pushing := some ⟨number, tick, sends⟩
        swingBus := s.swingBus ++ [(event, candle)] }
  | pushed {number : ℕ} {tick : Tick K} (done : s.pushing = some ⟨number, tick, []⟩) :
      Step s .pushed ({ s with pushing := none }.settle number tick)
  | drain {number : ℕ} {tick : Tick K} {queue : List (ℕ × Tick K)} (idle : s.draining = none)
      (head : s.scalpingQueue = (number, tick) :: queue) :
      Step s .drain { s with
        scalpingQueue := queue
        stats := (Scalping.drainTick s.stats tick).1
        draining := some ⟨number, tick, (Scalping.drainTick s.stats tick).2⟩ }
  | drained {number : ℕ} {tick : Tick K} {signal : Option (AggregatorSignal K)}
      (done : s.draining = some ⟨number, tick, signal⟩) :
      Step s .drained ({ s with
        draining := none
        scalpingBus := s.scalpingBus ++ scalpingEvents signal }.settle number tick)
  | aiSignal {message : AiSignalMessage K} {candle : Candle K} :
      Step s (.aiSignal message candle) { s with swingBus := s.swingBus ++ [(confirmedEvent message, candle)] }
  | dispatchScalping {event : ScalpingEvent K} {rest : List (ScalpingEvent K)} {nowMs : ℤ}
      {executor : OrderExecutor K} (head : s.scalpingBus = event :: rest) :
      Step s (.dispatchScalping nowMs executor) (s.dispatchScalping event rest nowMs executor)
  | dispatchSwing {event : SwingEvent K} {candle : Candle K} {rest : List (SwingEvent K × Candle K)}
      {nowMs entryMs : ℤ} {executor : OrderExecutor K} (head : s.swingBus = (event, candle) :: rest) :
      Step s (.dispatchSwing nowMs entryMs executor)
        (s.dispatchSwing event candle rest nowMs entryMs executor)

/-- **All that one step of the engine can do.** -/
theorem step_cases {s s' : EngineState K} {a : EngineAction K} (taken : (machine K).step s a = some s') :
    Step s a s' := by
  cases a with
  | tick tick =>
    simp only [machine, step] at taken
    split at taken <;> cases taken
    rename_i idle
    exact .tick idle
  | send delivered =>
    simp only [machine, step] at taken
    split at taken <;> cases taken
    · rename_i next
      exact .publishCandle next
    · rename_i next
      exact .publishEvent next
  | pushed =>
    simp only [machine, step] at taken
    split at taken <;> cases taken
    rename_i done
    exact .pushed done
  | drain =>
    simp only [machine, step] at taken
    split at taken <;> cases taken
    rename_i idle head
    exact .drain idle head
  | drained =>
    simp only [machine, step] at taken
    split at taken <;> cases taken
    rename_i done
    exact .drained done
  | aiSignal message candle =>
    cases taken
    exact .aiSignal
  | dispatchScalping nowMs executor =>
    simp only [machine, step] at taken
    split at taken <;> cases taken
    rename_i head
    exact .dispatchScalping head
  | dispatchSwing nowMs entryMs executor =>
    simp only [machine, step] at taken
    split at taken <;> cases taken
    rename_i head
    exact .dispatchSwing head

/-- **The swing handler inside the engine is the swing handler**: its states and history are
those of a run of its own machine, so what holds of every such run holds here. -/
theorem swingHandler_reachable {s : EngineState K} (reach : (machine K).Reachable s) :
    (SwingHandler.machine K).Reachable ⟨s.states, s.history⟩ := by
  refine reach.induct (I := fun s => (SwingHandler.machine K).Reachable ⟨s.states, s.history⟩)
    ⟨[], rfl⟩ ?_
  intro s a s' ih taken
  cases step_cases taken with
  | @dispatchSwing event _ _ nowMs entryMs executor head =>
    apply ih.step (a := .onEvent event nowMs entryMs executor)
    simp only [SwingHandler.machine, EngineState.history, EngineState.dispatchSwing, List.map_append,
      List.map_singleton]
  | _ => exact ih

end StockAnomaly.Engine

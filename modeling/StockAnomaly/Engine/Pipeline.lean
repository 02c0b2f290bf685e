import Mathlib.Algebra.Field.Rat
import Mathlib.Algebra.Order.Ring.Rat
import StockAnomaly.Engine.Wiring

/-!
# The engine and the AI service

The loop through Kafka: closed candles go out on the topic `candle-data`, the AI service
answers them on `ai-signals`, and the engine's AI consumer puts the answers on its bus. The
service may answer a candle at any time after it is on the topic, in any order and more
than once, and so may the consumer take a message: both name the message by its offset.
What the scorer makes of a candle is the action's choice.
-/

namespace StockAnomaly.Engine

open StockAnomaly.Theory StockAnomaly.Aggregation StockAnomaly.Events

variable {K : Type*}

/-- The payload that `main.py` builds from a candle and the scorer's result. -/
def signalPayload (candle : Candle K) (bullProbability bearProbability : K) (direction : String) :
    AiSignalMessage K where
  ticker := candle.ticker
  close := candle.close
  bullProbability := bullProbability
  bearProbability := bearProbability
  direction := direction
  candleCloseTime := candle.closeTimeMs
  timestampMs := candle.closeTimeMs

structure Pipeline (K : Type*) where
  engine : EngineState K
  /-- The messages of the topic `ai-signals`, each with the candle it answers. -/
  aiSignals : List (AiSignalMessage K × Candle K)

inductive PipelineAction (K : Type*)
  /-- A step of a thread of the engine other than the AI consumer. -/
  | engine (action : EngineAction K)
  /-- The AI service answers the candle at this offset of `candle-data`. -/
  | answer (offset : ℕ) (bullProbability bearProbability : K) (direction : String)
  /-- The AI consumer handles the message at this offset of `ai-signals`. -/
  | consume (offset : ℕ)

variable [Field K] [LinearOrder K] [Sqrt K]

namespace Pipeline

def init : Pipeline K := ⟨EngineState.init, []⟩

def step (s : Pipeline K) : PipelineAction K → Option (Pipeline K)
  | .engine (.aiSignal ..) => none
  | .engine action => (Engine.step s.engine action).map fun engine => { s with engine := engine }
  | .answer offset bullProbability bearProbability direction =>
    s.engine.candleData[offset]?.map fun candle =>
      { s with
        aiSignals := s.aiSignals ++ [(signalPayload candle bullProbability bearProbability direction, candle)] }
  | .consume offset =>
    s.aiSignals[offset]?.bind fun (message, candle) =>
      (Engine.step s.engine (.aiSignal message candle)).map fun engine => { s with engine := engine }

def machine (K : Type*) [Field K] [LinearOrder K] [Sqrt K] : Machine (Pipeline K) (PipelineAction K) where
  init := init
  step := step

/-- The steps of the pipeline. -/
inductive Step (s : Pipeline K) : PipelineAction K → Pipeline K → Prop
  | engine {action : EngineAction K} {engine : EngineState K}
      (thread : ∀ message candle, action ≠ .aiSignal message candle)
      (moved : (Engine.machine K).step s.engine action = some engine) :
      Step s (.engine action) { s with engine := engine }
  | answer {offset : ℕ} {bullProbability bearProbability : K} {direction : String} {candle : Candle K}
      (mem : candle ∈ s.engine.candleData) :
      Step s (.answer offset bullProbability bearProbability direction) { s with
        aiSignals := s.aiSignals ++ [(signalPayload candle bullProbability bearProbability direction, candle)] }
  | consume {offset : ℕ} {message : AiSignalMessage K} {candle : Candle K} {engine : EngineState K}
      (found : s.aiSignals[offset]? = some (message, candle))
      (moved : (Engine.machine K).step s.engine (.aiSignal message candle) = some engine) :
      Step s (.consume offset) { s with engine := engine }

theorem step_cases {s s' : Pipeline K} {a : PipelineAction K} (taken : (machine K).step s a = some s') :
    Step s a s' := by
  cases a with
  | engine action =>
    cases action with
    | aiSignal message candle => cases taken
    | _ =>
      obtain ⟨engine, moved, rfl⟩ := Option.map_eq_some_iff.1 taken
      exact .engine (by rintro _ _ ⟨⟩) moved
  | answer offset bullProbability bearProbability direction =>
    obtain ⟨candle, found, rfl⟩ := Option.map_eq_some_iff.1 taken
    exact .answer (List.mem_of_getElem? found)
  | consume offset =>
    obtain ⟨⟨message, candle⟩, found, moves⟩ := Option.bind_eq_some_iff.1 taken
    obtain ⟨engine, moved, rfl⟩ := Option.map_eq_some_iff.1 moves
    exact .consume found moved

/-- A step dispatches the head of the swing bus, or leaves the dispatches alone. -/
theorem dispatched_cases {s s' : Pipeline K} {a : PipelineAction K} (taken : (machine K).step s a = some s') :
    (∃ event candle rest nowMs entryMs executor, a = .engine (.dispatchSwing nowMs entryMs executor) ∧
        s.engine.swingBus = (event, candle) :: rest ∧
        s'.engine = s.engine.dispatchSwing event candle rest nowMs entryMs executor) ∨
      (∀ nowMs entryMs executor, a ≠ .engine (.dispatchSwing nowMs entryMs executor)) ∧
        s'.engine.dispatched = s.engine.dispatched := by
  cases step_cases taken with
  | answer => exact .inr ⟨by rintro _ _ _ ⟨⟩, rfl⟩
  | consume _ moved =>
    cases Engine.step_cases moved
    exact .inr ⟨by rintro _ _ _ ⟨⟩, rfl⟩
  | engine _ moved =>
    cases Engine.step_cases moved with
    | dispatchSwing head => exact .inl ⟨_, _, _, _, _, _, rfl, head, rfl⟩
    | _ => exact .inr ⟨by rintro _ _ _ ⟨⟩, rfl⟩

/-- **The engine inside the pipeline is the engine.** -/
theorem engine_reachable {s : Pipeline K} (reach : (machine K).Reachable s) :
    (Engine.machine K).Reachable s.engine := by
  refine reach.induct (I := fun s => (Engine.machine K).Reachable s.engine) ⟨[], rfl⟩ ?_
  intro s a s' ih taken
  cases step_cases taken with
  | engine _ moved => exact ih.step moved
  | answer => exact ih
  | consume _ moved => exact ih.step moved

/-- A run in which the first quarter of A closes, arms A and is answered: A is bought. -/
def quarterAnswered : List (PipelineAction ℚ) :=
  [.engine (.tick ⟨"A", 100, 1, 0⟩), .engine .pushed, .engine (.tick ⟨"A", 100, 1, 900000⟩),
    .engine (.send true), .engine (.send true), .engine .pushed,
    .answer 0 (7 / 10) (3 / 10) "BUY_READY", .consume 0,
    .engine (.dispatchSwing 0 0 makeOrderExecutor), .engine (.dispatchSwing 1 1 makeOrderExecutor)]

/-- Its candle. -/
def quarterOfA : Candle ℚ := ⟨"A", 100, 100, 100, 100, 1, 0, 900000, 1, 15⟩

end Pipeline

end StockAnomaly.Engine

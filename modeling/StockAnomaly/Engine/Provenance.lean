import StockAnomaly.Aggregation.CandleIdentity
import StockAnomaly.Engine.Pipeline

/-!
# Where messages come from

Every event on the swing bus is the closed event of an emitted candle or an answer to one,
and the closed event of each emitted candle is published once, in the order of emission.
`Provenance` holds of the engine as long as the AI consumer handles answers to emitted
candles (**`provenance_step`**), which in the pipeline it always does.
-/

namespace StockAnomaly.Engine

open StockAnomaly.Theory StockAnomaly.Aggregation StockAnomaly.Events

variable {K : Type*}

section Records

/-- An event that was dispatched, with the candle it is about. -/
def Dispatch.event (d : Dispatch K) : Option (SwingEvent K × Candle K) :=
  match d.op with
  | .onEvent event .. => some (event, d.candle)
  | .checkExit .. => none

/-- All that was put on the swing bus, in order: the bus is a queue. -/
def EngineState.published (s : EngineState K) : List (SwingEvent K × Candle K) :=
  s.dispatched.filterMap Dispatch.event ++ s.swingBus

/-- The candles among published events whose closed event it is. -/
def closedCandles (published : List (SwingEvent K × Candle K)) : List (Candle K) :=
  (published.filter (·.1.state = .candleClosed)).map Prod.snd

/-- What the callback still has to send. -/
def EngineState.sends (s : EngineState K) : List (Send K) :=
  match s.pushing with
  | none => []
  | some pushing => pushing.sends

/-- The candle whose closed event is still to be published. -/
def Send.unpublished : Send K → Option (Candle K)
  | publishCandle _ => none
  | publishEvent _ candle => some candle

theorem closedCandles_append (published published' : List (SwingEvent K × Candle K)) :
    closedCandles (published ++ published') = closedCandles published ++ closedCandles published' := by
  rw [closedCandles, List.filter_append, List.map_append]
  rfl

theorem mem_closedCandles {published : List (SwingEvent K × Candle K)} {candle : Candle K} :
    candle ∈ closedCandles published ↔ ∃ event, (event, candle) ∈ published ∧ event.state = .candleClosed := by
  simp [closedCandles]

end Records

section Events

variable [Field K]

/-- A send of the callback for an emitted candle. -/
def Send.Faithful (emitted : List (Candle K)) : Send K → Prop
  | publishCandle candle => candle ∈ emitted
  | publishEvent event candle => event = closedEvent (emitSwingCandle candle) ∧ candle ∈ emitted

/-- The event is the close of the candle, or an answer to it. -/
inductive About : SwingEvent K → Candle K → Prop
  | closed (candle : Candle K) : About (closedEvent (emitSwingCandle candle)) candle
  | confirmed (candle : Candle K) (bullProbability bearProbability : K) (direction : String) :
      About (confirmedEvent (signalPayload candle bullProbability bearProbability direction)) candle

theorem About.ticker {event : SwingEvent K} {candle : Candle K} (h : About event candle) :
    event.ticker = candle.ticker := by
  cases h <;> rfl

theorem About.state {event : SwingEvent K} {candle : Candle K} (h : About event candle) :
    event.state = .candleClosed ∨ event.state = .aiConfirmed := by
  cases h with
  | closed => exact .inl rfl
  | confirmed => exact .inr rfl

theorem About.closeTimeMs_closed {event : SwingEvent K} {candle : Candle K} (h : About event candle)
    (closed : event.state = .candleClosed) : event.candleCloseTimeMs = candle.closeTimeMs := by
  cases h with
  | closed => rfl
  | confirmed => cases closed

theorem About.closeTimeMs_confirmed {event : SwingEvent K} {candle : Candle K} (h : About event candle)
    (confirmed : event.state = .aiConfirmed) : event.aiSignal.candleCloseTime = candle.closeTimeMs := by
  cases h with
  | closed => cases confirmed
  | confirmed => rfl

/-- The sends for the signals of the swing path. -/
theorem faithful_swingSends {emitted new : List (Candle K)} (sub : new ⊆ emitted) {send : Send K}
    (mem : send ∈ (new.map emitSwingCandle).flatMap swingSends) : send.Faithful emitted := by
  obtain ⟨sig, mem, mem'⟩ := List.mem_flatMap.1 mem
  obtain ⟨candle, new, rfl⟩ := List.mem_map.1 mem
  simp only [swingSends, List.mem_cons, List.not_mem_nil, or_false] at mem'
  cases mem' with
  | inl topic =>
    rw [topic]
    exact sub new
  | inr bus =>
    rw [bus]
    exact ⟨rfl, sub new⟩

theorem unpublished_swingSends (new : List (Candle K)) :
    ((new.map emitSwingCandle).flatMap swingSends).filterMap Send.unpublished = new := by
  induction new with
  | nil => rfl
  | cons candle new ih =>
    rw [List.map_cons, List.flatMap_cons, List.filterMap_append, ih]
    rfl

/-- Where the engine's messages come from. -/
structure Provenance (s : EngineState K) : Prop where
  identified : Identified s.swingPath s.emitted
  once : closedCandles s.published ++ s.sends.filterMap Send.unpublished = s.emitted
  sends : ∀ send ∈ s.sends, send.Faithful s.emitted
  candleData : ∀ candle ∈ s.candleData, candle ∈ s.emitted
  published : ∀ e ∈ s.published, About e.1 e.2 ∧ e.2 ∈ s.emitted

/-- The message answers an emitted candle. -/
def Answered (emitted : List (Candle K)) (message : AiSignalMessage K) (candle : Candle K) : Prop :=
  candle ∈ emitted ∧ ∃ bullProbability bearProbability direction,
    message = signalPayload candle bullProbability bearProbability direction

end Events

variable [Field K] [LinearOrder K]

/-- The swing path's signals are those of its new candles. -/
theorem updateSwingState_signals (p : SwingPath K) (tick : Tick K) :
    (p.updateSwingState tick).2 =
      ((p.updateSwingState tick).2.map AggregatorSignal.candle).map emitSwingCandle := by
  have signals : ∃ new : List (Candle K), (p.updateSwingState tick).2 = new.map emitSwingCandle := by
    cases present : p.registry tick.ticker with
    | some s => exact ⟨_, congrArg Prod.snd (SwingPath.updateSwingState_found present)⟩
    | none =>
      by_cases room : p.acquired < kStatePoolSize
      · exact ⟨_, congrArg Prod.snd (SwingPath.updateSwingState_created present room)⟩
      · exact ⟨[], congrArg Prod.snd (SwingPath.updateSwingState_dropped present room)⟩
  obtain ⟨new, eq⟩ := signals
  rw [eq, List.map_map, List.map_map]
  rfl

namespace Provenance

variable {s : EngineState K}

omit [LinearOrder K] in
theorem init : Provenance (EngineState.init : EngineState K) where
  identified := Identified.zero
  once := rfl
  sends := by
    rintro _ ⟨⟩
  candleData := by
    rintro _ ⟨⟩
  published := by
    rintro _ ⟨⟩

theorem pushTick (h : Provenance s) (idle : s.pushing = none) (tick : Tick K) : Provenance (s.pushTick tick) := by
  have sends : (s.pushTick tick).sends = (s.swingPath.updateSwingState tick).2.flatMap swingSends := rfl
  have emitted : (s.pushTick tick).emitted =
      s.emitted ++ (s.swingPath.updateSwingState tick).2.map AggregatorSignal.candle := rfl
  have published : (s.pushTick tick).published = s.published := rfl
  have sub : s.emitted ⊆ (s.pushTick tick).emitted := List.subset_append_left ..
  have none_sends : s.sends = [] := by
    simp only [EngineState.sends, idle]
  rw [updateSwingState_signals] at sends
  constructor
  · exact h.identified.updateSwingState tick
  · have once := h.once
    rw [none_sends, List.filterMap_nil, List.append_nil] at once
    rw [sends, unpublished_swingSends, published, once, emitted]
  · intro send mem
    rw [sends] at mem
    apply faithful_swingSends _ mem
    rw [emitted]
    exact List.subset_append_right ..
  · intro candle mem
    exact sub (h.candleData candle mem)
  · intro e mem
    rw [published] at mem
    exact ⟨(h.published e mem).1, sub (h.published e mem).2⟩

omit [LinearOrder K] in
theorem publishCandle (h : Provenance s) {number : ℕ} {tick : Tick K} {candle : Candle K}
    {sends : List (Send K)} {delivered : Bool}
    (next : s.pushing = some ⟨number, tick, .publishCandle candle :: sends⟩) :
    Provenance { s with
      pushing := some ⟨number, tick, sends⟩
      candleData := if delivered then s.candleData ++ [candle] else s.candleData } := by
  have before : s.sends = .publishCandle candle :: sends := by
    simp only [EngineState.sends, next]
  constructor
  · exact h.identified
  · have once := h.once
    rw [before] at once
    exact once
  · intro send mem
    apply h.sends send
    rw [before]
    exact List.mem_cons_of_mem _ mem
  · have new : candle ∈ s.emitted := h.sends (.publishCandle candle) (by simp [before])
    intro c mem
    cases delivered with
    | false => exact h.candleData c mem
    | true =>
      rcases List.mem_append.1 mem with old | last
      · exact h.candleData c old
      · rw [List.mem_singleton.1 last]
        exact new
  · exact h.published

omit [Field K] [LinearOrder K] in
/-- An event is put on the bus. -/
theorem published_snoc {bus : List (SwingEvent K × Candle K)} {e : SwingEvent K × Candle K} :
    ({ s with swingBus := bus ++ [e] } : EngineState K).published =
      ({ s with swingBus := bus } : EngineState K).published ++ [e] := by
  simp only [EngineState.published, List.append_assoc]

omit [LinearOrder K] in
theorem publishEvent (h : Provenance s) {number : ℕ} {tick : Tick K} {event : SwingEvent K}
    {candle : Candle K} {sends : List (Send K)}
    (next : s.pushing = some ⟨number, tick, .publishEvent event candle :: sends⟩) :
    Provenance { s with
      pushing := some ⟨number, tick, sends⟩
      swingBus := s.swingBus ++ [(event, candle)] } := by
  have before : s.sends = .publishEvent event candle :: sends := by
    simp only [EngineState.sends, next]
  have published : ({ s with
      pushing := some ⟨number, tick, sends⟩
      swingBus := s.swingBus ++ [(event, candle)] } : EngineState K).published =
        s.published ++ [(event, candle)] := by
    simp only [EngineState.published, List.append_assoc]
  obtain ⟨rfl, new⟩ : event = _ ∧ candle ∈ s.emitted :=
    h.sends (.publishEvent event candle) (by simp [before])
  constructor
  · exact h.identified
  · have once := h.once
    rw [before] at once
    rw [published, closedCandles_append, List.append_assoc]
    exact once
  · intro send mem
    apply h.sends send
    rw [before]
    exact List.mem_cons_of_mem _ mem
  · exact h.candleData
  · intro e mem
    rw [published] at mem
    rcases List.mem_append.1 mem with old | last
    · exact h.published e old
    · rw [List.mem_singleton.1 last]
      exact ⟨.closed candle, new⟩

omit [LinearOrder K] in
/-- The next event of the bus. -/
theorem head (h : Provenance s) {event : SwingEvent K} {candle : Candle K}
    {rest : List (SwingEvent K × Candle K)} (head : s.swingBus = (event, candle) :: rest) :
    About event candle ∧ candle ∈ s.emitted := by
  have onBus : (event, candle) ∈ s.published := by
    rw [EngineState.published, head]
    simp
  exact h.published _ onBus

omit [LinearOrder K] in
/-- Every field that matters here is left alone. -/
theorem frame (h : Provenance s) {s' : EngineState K} (swingPath : s'.swingPath = s.swingPath)
    (emitted : s'.emitted = s.emitted) (published : s'.published = s.published)
    (sends : s'.sends = s.sends) (candleData : s'.candleData = s.candleData) : Provenance s' where
  identified := by
    rw [swingPath, emitted]
    exact h.identified
  once := by
    rw [published, sends, emitted]
    exact h.once
  sends := by
    rw [sends, emitted]
    exact h.sends
  candleData := by
    rw [candleData, emitted]
    exact h.candleData
  published := by
    rw [published, emitted]
    exact h.published

end Provenance

omit [LinearOrder K] in
theorem Provenance.aiSignal {s : EngineState K} (h : Provenance s) {message : AiSignalMessage K}
    {candle : Candle K} (answered : Answered s.emitted message candle) :
    Provenance { s with swingBus := s.swingBus ++ [(confirmedEvent message, candle)] } := by
  obtain ⟨new, bullProbability, bearProbability, direction, rfl⟩ := answered
  constructor
  · exact h.identified
  · have once := h.once
    rw [Provenance.published_snoc, closedCandles_append, List.append_assoc]
    exact once
  · exact h.sends
  · exact h.candleData
  · intro e mem
    rw [Provenance.published_snoc] at mem
    rcases List.mem_append.1 mem with old | last
    · exact h.published e old
    · rw [List.mem_singleton.1 last]
      exact ⟨.confirmed .., new⟩

/-- Dispatching an event takes it off the bus and puts it on record. -/
theorem published_dispatchSwing {s : EngineState K} {event : SwingEvent K} {candle : Candle K}
    {rest : List (SwingEvent K × Candle K)} (head : s.swingBus = (event, candle) :: rest)
    (nowMs entryMs : ℤ) (executor : OrderExecutor K) :
    (s.dispatchSwing event candle rest nowMs entryMs executor).published = s.published := by
  simp only [EngineState.published, EngineState.dispatchSwing, head, List.filterMap_append]
  simp [Dispatch.event]

variable [Sqrt K]

/-- **A step of the engine keeps the provenance of its messages** when the AI consumer handles
answers to emitted candles only. -/
theorem provenance_step {s s' : EngineState K} {a : EngineAction K} (h : Provenance s)
    (answered : ∀ message candle, a = .aiSignal message candle → Answered s.emitted message candle)
    (taken : (machine K).step s a = some s') : Provenance s' := by
  cases step_cases taken with
  | tick idle => exact h.pushTick idle _
  | publishCandle next => exact h.publishCandle next
  | publishEvent next => exact h.publishEvent next
  | pushed done =>
    have before : s.sends = [] := by
      simp only [EngineState.sends, done]
    exact h.frame rfl rfl rfl before.symm rfl
  | drain => exact h.frame rfl rfl rfl rfl rfl
  | drained => exact h.frame rfl rfl rfl rfl rfl
  | aiSignal => exact h.aiSignal (answered _ _ rfl)
  | dispatchScalping => exact h.frame rfl rfl rfl rfl rfl
  | dispatchSwing head => exact h.frame rfl rfl (published_dispatchSwing head ..) rfl rfl

/-- The records of the engine only grow. -/
theorem records_grow {s s' : EngineState K} {a : EngineAction K} (taken : (machine K).step s a = some s') :
    s.emitted <+: s'.emitted ∧ s.dispatched <+: s'.dispatched := by
  cases step_cases taken with
  | tick => exact ⟨List.prefix_append .., List.prefix_rfl⟩
  | dispatchSwing => exact ⟨List.prefix_rfl, List.prefix_append ..⟩
  | _ => exact ⟨List.prefix_rfl, List.prefix_rfl⟩

namespace Pipeline

/-- Where the messages of the pipeline come from. -/
structure Provenance (s : Pipeline K) : Prop where
  engine : Engine.Provenance s.engine
  aiSignals : ∀ e ∈ s.aiSignals, Answered s.engine.emitted e.1 e.2

theorem provenance_step {s s' : Pipeline K} {a : PipelineAction K} (h : Provenance s)
    (taken : (machine K).step s a = some s') : Provenance s' := by
  have grown : ∀ {engine : EngineState K} {action : EngineAction K},
      (Engine.machine K).step s.engine action = some engine →
        ∀ e ∈ s.aiSignals, Answered engine.emitted e.1 e.2 :=
    fun moved e mem => ⟨(records_grow moved).1.subset (h.aiSignals e mem).1, (h.aiSignals e mem).2⟩
  cases step_cases taken with
  | engine thread moved =>
    constructor
    · exact Engine.provenance_step h.engine (fun _ _ eq => absurd eq (thread _ _)) moved
    · exact grown moved
  | @answer offset bullProbability bearProbability direction candle mem =>
    refine ⟨h.engine, ?_⟩
    intro e mem'
    rcases List.mem_append.1 mem' with old | last
    · exact h.aiSignals e old
    · rw [List.mem_singleton.1 last]
      exact ⟨h.engine.candleData candle mem, _, _, _, rfl⟩
  | @consume offset message candle engine found moved =>
    constructor
    · refine Engine.provenance_step h.engine ?_ moved
      rintro _ _ ⟨⟩
      exact h.aiSignals _ (List.mem_of_getElem? found)
    · exact grown moved

omit [LinearOrder K] [Sqrt K] in
theorem provenance_init : Provenance (init : Pipeline K) where
  engine := Engine.Provenance.init
  aiSignals := by
    rintro _ ⟨⟩

/-- **Every message of the pipeline is about a candle that the engine emitted.** -/
theorem provenance {s : Pipeline K} (reach : (machine K).Reachable s) : Provenance s :=
  reach.induct provenance_init fun _ _ _ => provenance_step

/-- The invariant rule for the engine inside the pipeline: its messages have their provenance. -/
theorem engine_induct {I : EngineState K → Prop} (init : I EngineState.init)
    (step : ∀ s a s', Engine.Provenance s → I s → (Engine.machine K).step s a = some s' → I s')
    {s : Pipeline K} (reach : (machine K).Reachable s) : I s.engine := by
  have both : Provenance s ∧ I s.engine := by
    refine reach.induct (I := fun s => Provenance s ∧ I s.engine) ⟨provenance_init, init⟩ ?_
    intro s a s' ⟨origin, inv⟩ taken
    refine ⟨provenance_step origin taken, ?_⟩
    cases step_cases taken with
    | engine _ moved => exact step _ _ _ origin.engine inv moved
    | answer => exact inv
    | consume _ moved => exact step _ _ _ origin.engine inv moved
  exact both.2

end Pipeline

end StockAnomaly.Engine

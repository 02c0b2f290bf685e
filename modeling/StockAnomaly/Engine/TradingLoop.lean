import StockAnomaly.AiSignalService.Service
import StockAnomaly.Engine.ArmingCandle

/-!
# The loop of the engine and the AI service

The engine publishes its closed candles, `ai-signal-service` scores them and publishes the
scores, and the engine trades on these. Both processes are here as they are, with the service
ending and starting again at any time. A message may be handled late, more than once or never,
so both consumers name it by its offset. The loop is a pipeline whose answers are the scores
(**`pipeline_reachable`**), and behind every buy there is a score that one process of the
service published for a candle of the engine: **`buys_backed`**.
-/

namespace StockAnomaly.Engine

open StockAnomaly.Theory StockAnomaly.Aggregation StockAnomaly.Events SwingHandler
open StockAnomaly.AiSignalService hiding Candle

variable {K : Type*}

structure TradingLoop (K : Type*) extends Pipeline K where
  /-- The running process of `ai-signal-service`. -/
  service : Service K
  /-- The processes before it, as they ended. -/
  earlier : List (Service K)

inductive LoopAction (K : Type*)
  /-- A step of a thread of the engine other than the AI consumer. -/
  | engine (action : EngineAction K)
  /-- The AI consumer handles the message at this offset of `ai-signals`. -/
  | consume (offset : ℕ)
  /-- The service polls the candle at this offset of `candle-data`. -/
  | round (offset : ℕ) (r : Round K)
  /-- A step of the service without a candle. -/
  | service (action : ServiceAction K)
  /-- A new process of the service. -/
  | restart

/-- The candle of a round. -/
def polledCandle : ServiceAction K → Option (Candle K)
  | .round r =>
    match r.polled with
    | .candle payload => some payload
    | _ => none
  | _ => none

/-- What a round with a candle has put on `ai-signals`. -/
def publishedBy (before after : Service K) (candle : Candle K) : List (AiSignalMessage K × Candle K) :=
  (after.features.drop before.features.length).map fun row => (row.signalPayload, candle)

namespace TradingLoop

variable [Field K] [LinearOrder K] [Sqrt K] [FloatMath K]

def init : TradingLoop K := ⟨Pipeline.init, Service.init, []⟩

/-- The processes of the service in the run. -/
def processes (s : TradingLoop K) : List (Service K) := s.earlier ++ [s.service]

def step (config : Config K) (flush_every : ℕ) (s : TradingLoop K) : LoopAction K → Option (TradingLoop K)
  | .engine action => (Pipeline.step s.toPipeline (.engine action)).map fun pipeline =>
    { s with toPipeline := pipeline }
  | .consume offset => (Pipeline.step s.toPipeline (.consume offset)).map fun pipeline =>
    { s with toPipeline := pipeline }
  | .round offset r => s.engine.candleData[offset]?.bind fun candle =>
    (Service.step config flush_every s.service (.round { r with polled := .candle candle })).map fun service =>
      { s with service, aiSignals := s.aiSignals ++ publishedBy s.service service candle }
  | .service action =>
    match polledCandle action with
    | none => (Service.step config flush_every s.service action).map fun service => { s with service }
    | some _ => none
  | .restart => some { s with service := Service.init, earlier := s.earlier ++ [s.service] }

def machine (config : Config K) (flush_every : ℕ) : Machine (TradingLoop K) (LoopAction K) where
  init := init
  step := step config flush_every

variable {config : Config K} {flush_every : ℕ} {s s' : TradingLoop K}

/-- The steps of the loop. -/
inductive Step (config : Config K) (flush_every : ℕ) (s : TradingLoop K) : LoopAction K → TradingLoop K → Prop
  | engine {action : EngineAction K} {pipeline : Pipeline K}
      (moved : (Pipeline.machine K).step s.toPipeline (.engine action) = some pipeline) :
      Step config flush_every s (.engine action) { s with toPipeline := pipeline }
  | consume {offset : ℕ} {pipeline : Pipeline K}
      (moved : (Pipeline.machine K).step s.toPipeline (.consume offset) = some pipeline) :
      Step config flush_every s (.consume offset) { s with toPipeline := pipeline }
  | round {offset : ℕ} {r : Round K} {candle : Candle K} {service : Service K}
      (found : s.engine.candleData[offset]? = some candle)
      (moved : (Service.machine config flush_every).step s.service (.round { r with polled := .candle candle }) =
        some service) :
      Step config flush_every s (.round offset r)
        { s with service, aiSignals := s.aiSignals ++ publishedBy s.service service candle }
  | service {action : ServiceAction K} {service : Service K} (other : polledCandle action = none)
      (moved : (Service.machine config flush_every).step s.service action = some service) :
      Step config flush_every s (.service action) { s with service }
  | restart : Step config flush_every s .restart
      { s with service := Service.init, earlier := s.earlier ++ [s.service] }

theorem step_cases {a : LoopAction K} (taken : (machine config flush_every).step s a = some s') :
    Step config flush_every s a s' := by
  cases a with
  | engine action =>
    obtain ⟨pipeline, moved, rfl⟩ := Option.map_eq_some_iff.1 taken
    exact .engine moved
  | consume offset =>
    obtain ⟨pipeline, moved, rfl⟩ := Option.map_eq_some_iff.1 taken
    exact .consume moved
  | round offset r =>
    obtain ⟨candle, found, taken⟩ := Option.bind_eq_some_iff.1 taken
    obtain ⟨service, moved, rfl⟩ := Option.map_eq_some_iff.1 taken
    exact .round found moved
  | service action =>
    simp only [machine, step] at taken
    split at taken
    · rename_i other
      obtain ⟨service, moved, rfl⟩ := Option.map_eq_some_iff.1 taken
      exact .service other moved
    · cases taken
  | restart =>
    cases taken
    exact .restart

end TradingLoop

section Processes

/-- Every process is still there, and has only gone on. -/
def GoOn (processes processes' : List (Service K)) : Prop :=
  ∀ p ∈ processes, ∃ p' ∈ processes', p.handled <+: p'.handled ∧ p.features ⊆ p'.features

theorem GoOn.refl (processes : List (Service K)) : GoOn processes processes :=
  fun p mem => ⟨p, mem, List.prefix_rfl, List.Subset.refl _⟩

/-- A new process begins. -/
theorem GoOn.restart (processes : List (Service K)) : GoOn processes (processes ++ [Service.init]) :=
  fun p mem => ⟨p, List.mem_append_left _ mem, List.prefix_rfl, List.Subset.refl _⟩

end Processes

section Scored

variable [Field K] [LinearOrder K] [FloatMath K] {config : Config K}

/-- The process has published the row for the candle: it is the score of the window that the
candle ends, among the candles of the engine polled so far and what the query of the series'
first one found. -/
structure ScoredIn (config : Config K) (emitted : List (Candle K)) (process : Service K) (candle : Candle K)
    (row : FeatureRow K) : Prop where
  published : row ∈ process.features
  score : ∃ polled query, (∀ h ∈ polled, h.1 ∈ emitted) ∧ polled ++ [(candle, query)] <+: process.handled ∧
    Service.scoreRow config candle (Service.window config (polled ++ [(candle, query)]) (toKey candle)) = some row

/-- The message is the score that a process of the service gave a candle of the engine. -/
structure Scored (config : Config K) (emitted : List (Candle K)) (processes : List (Service K))
    (message : AiSignalMessage K) (candle : Candle K) : Prop where
  own : candle ∈ emitted
  score : ∃ process ∈ processes, ∃ row, ScoredIn config emitted process candle row ∧ message = row.signalPayload

theorem ScoredIn.mono {emitted emitted' : List (Candle K)} {p p' : Service K} {candle : Candle K}
    {row : FeatureRow K} (h : ScoredIn config emitted p candle row) (sub : emitted ⊆ emitted')
    (handled : p.handled <+: p'.handled) (features : p.features ⊆ p'.features) :
    ScoredIn config emitted' p' candle row where
  published := features h.published
  score := by
    obtain ⟨polled, query, own, before, scored⟩ := h.score
    exact ⟨polled, query, fun h mem => sub (own h mem), before.trans handled, scored⟩

theorem Scored.mono {emitted emitted' : List (Candle K)} {processes processes' : List (Service K)}
    {message : AiSignalMessage K} {candle : Candle K} (h : Scored config emitted processes message candle)
    (sub : emitted ⊆ emitted') (goOn : GoOn processes processes') :
    Scored config emitted' processes' message candle where
  own := sub h.own
  score := by
    obtain ⟨p, mem, row, scored, eq⟩ := h.score
    obtain ⟨p', mem', handled, features⟩ := goOn p mem
    exact ⟨p', mem', row, scored.mono sub handled features, eq⟩

/-- A row is about its candle. -/
theorem scoreRow_candle {payload : Candle K} {buffer : Option (List (AiSignalService.Candle K))} {row : FeatureRow K}
    (scored : Service.scoreRow config payload buffer = some row) :
    row.ticker = payload.ticker ∧ row.candle = toCandle payload := by
  obtain ⟨both, -, rfl⟩ := Option.map_eq_some_iff.1 scored
  exact ⟨rfl, rfl⟩

/-- A row is published as an answer to its candle. -/
theorem signalPayload_row {payload : Candle K} {buffer : Option (List (AiSignalService.Candle K))}
    {row : FeatureRow K} (scored : Service.scoreRow config payload buffer = some row) :
    row.signalPayload = signalPayload payload row.result.bull_probability row.result.bear_probability
      row.result.direction.text := by
  obtain ⟨ticker, candle⟩ := scoreRow_candle scored
  rw [FeatureRow.signalPayload, ticker, candle]
  rfl

/-- **What a round with a candle publishes**: nothing, or the score of the candle's window. -/
theorem publishedBy_round {flush_every : ℕ} {service service' : Service K} {r : Round K} {candle : Candle K}
    (windows : Service.Windows config service)
    (moved : (Service.machine config flush_every).step service (.round { r with polled := .candle candle }) =
      some service') :
    service'.handled = service.handled ++ [(candle, r.query)] ∧
      (publishedBy service service' candle = [] ∨ ∃ row,
        Service.scoreRow config candle
            (Service.window config (service.handled ++ [(candle, r.query)]) (toKey candle)) = some row ∧
          row ∈ service'.features ∧ publishedBy service service' candle = [(row.signalPayload, candle)]) := by
  cases Service.step_cases moved with
  | skip none_parsed => exact absurd rfl (none_parsed candle)
  | candle looping polled =>
    cases polled
    have window := (windows.received candle r.query).buffers (toKey candle)
    rcases Service.handle_cases config flush_every service { r with polled := .candle candle } candle with
      ⟨-, eq⟩ | ⟨row, -, -, eq⟩ | ⟨row, scored, -, eq⟩
    · rw [eq]
      exact ⟨rfl, .inl (by simp [publishedBy, Service.received])⟩
    · rw [eq]
      exact ⟨rfl, .inl (by simp [publishedBy, Service.received])⟩
    · rw [eq]
      refine ⟨rfl, .inr ⟨row, ?_, List.mem_append_right _ (List.mem_singleton_self row), by simp [publishedBy]⟩⟩
      rw [Service.rowOf, window] at scored
      exact scored

end Scored

section Buys

variable [Field K]

/-- What stands behind a buy. -/
structure Backed [LinearOrder K] [FloatMath K] (config : Config K) (emitted : List (Candle K))
    (processes : List (Service K)) (before : List (Dispatch K)) (d : Dispatch K) (o : Order K) : Prop where
  own : d.candle ∈ emitted
  request : o.request = buyRequest d.candle.ticker d.candle.close
  /-- A process of the service has scored the candle, with conviction. -/
  scored : ∃ process ∈ processes, ∃ row, ScoredIn config emitted process d.candle row ∧
    row.result.direction = .BUY_READY ∧ kMinBullProb ≤ row.result.bull_probability
  /-- A candle of the ticker with this close time has armed it. -/
  armed : ∃ arming, armedBy d.candle.ticker before = some arming ∧ arming ∈ emitted ∧
    arming.ticker = d.candle.ticker ∧ arming.closeTimeMs = d.candle.closeTimeMs

/-- There is a score of the service behind every buy. -/
def BuysBacked [LinearOrder K] [FloatMath K] (config : Config K) (emitted : List (Candle K))
    (processes : List (Service K)) (dispatched : List (Dispatch K)) : Prop :=
  ∀ before d after o, dispatched = before ++ d :: after → d.outcome = .submitted o → o.request.side = .buy →
    Backed config emitted processes before d o

theorem Direction.text_buy {direction : Direction} (h : direction.text = "BUY_READY") : direction = .BUY_READY := by
  cases direction with
  | BUY_READY => rfl
  | SELL_READY | NEUTRAL => exact absurd h (by decide)

variable [LinearOrder K]

/-- A buy asks for the price of the signal. -/
theorem buys_at_signal {event : SwingEvent K} {nowMs entryMs : ℤ} {executor : OrderExecutor K}
    {before after : Option (TickerState K)} {o : Order K}
    (step : Transition (.onEvent event nowMs entryMs executor) before after (.submitted o)) :
    ∃ ts, before = some ts ∧ Justified event nowMs ts ∧ o.request = buyRequest event.ticker event.close := by
  cases step with
  | bought justified | buyRejected justified => exact ⟨_, rfl, justified, rfl⟩

variable [FloatMath K] {config : Config K} {processes processes' : List (Service K)}

theorem Backed.mono {emitted emitted' : List (Candle K)} {before : List (Dispatch K)} {d : Dispatch K} {o : Order K}
    (h : Backed config emitted processes before d o) (sub : emitted ⊆ emitted') (goOn : GoOn processes processes') :
    Backed config emitted' processes' before d o where
  own := sub h.own
  request := h.request
  scored := by
    obtain ⟨p, mem, row, scored, buy⟩ := h.scored
    obtain ⟨p', mem', handled, features⟩ := goOn p mem
    exact ⟨p', mem', row, scored.mono sub handled features, buy⟩
  armed := by
    obtain ⟨arming, by_arming, mem, rest⟩ := h.armed
    exact ⟨arming, by_arming, sub mem, rest⟩

/-- Every confirmed event on the bus or dispatched carries a score. -/
def ConfirmedScored (config : Config K) (processes : List (Service K)) (s : EngineState K) : Prop :=
  ∀ e ∈ s.published, e.1.state = .aiConfirmed →
    ∃ message, e.1 = confirmedEvent message ∧ Scored config s.emitted processes message e.2

/-- **A dispatched buy is backed.** -/
theorem backed_of_dispatch {s : EngineState K} (confirmed : ConfirmedScored config processes s)
    (armed : ArmedRecord s)
    {event : SwingEvent K} {candle : Candle K} {rest : List (SwingEvent K × Candle K)}
    (head : s.swingBus = (event, candle) :: rest) {nowMs entryMs : ℤ} {executor : OrderExecutor K} {o : Order K}
    (bought : (SwingHandler.apply s.states (.onEvent event nowMs entryMs executor)).2 = .submitted o) :
    Backed config s.emitted processes s.dispatched
      ⟨.onEvent event nowMs entryMs executor,
        (SwingHandler.apply s.states (.onEvent event nowMs entryMs executor)).2, candle⟩ o := by
  have step := apply_transition s.states (.onEvent event nowMs entryMs executor)
  rw [bought] at step
  obtain ⟨ts, found, justified, request⟩ := buys_at_signal step
  have onBus : (event, candle) ∈ s.published := by
    rw [EngineState.published, head]
    simp
  obtain ⟨message, rfl, scored⟩ := confirmed _ onBus justified.confirmed
  obtain ⟨process, running, row, scored_in, rfl⟩ := scored.score
  obtain ⟨polled, query, -, -, score⟩ := scored_in.score
  obtain ⟨arming, by_arming, mem, own, close⟩ := armed _ ts found justified.armed
  obtain ⟨ticker, same⟩ := scoreRow_candle score
  have price : row.candle.close = candle.close := congrArg AiSignalService.Candle.close same
  have time : row.candle.close_time_ms = candle.closeTimeMs := congrArg AiSignalService.Candle.close_time_ms same
  constructor
  · exact scored.own
  · show o.request = buyRequest candle.ticker candle.close
    rw [← ticker, ← price]
    exact request
  · exact ⟨process, running, row, scored_in, Direction.text_buy justified.direction, justified.conviction⟩
  · refine ⟨arming, ?_, mem, own.trans ticker, ?_⟩
    · show armedBy candle.ticker s.dispatched = some arming
      rw [← ticker]
      exact by_arming
    · rw [close, ← justified.matched]
      exact time

theorem BuysBacked.snoc {emitted : List (Candle K)} {dispatched : List (Dispatch K)} {d : Dispatch K}
    (h : BuysBacked config emitted processes dispatched)
    (last : ∀ o, d.outcome = .submitted o → o.request.side = .buy → Backed config emitted processes dispatched d o) :
    BuysBacked config emitted processes (dispatched ++ [d]) := by
  intro before d' after o split bought buy
  rcases split_snoc split with ⟨rfl, rfl⟩ | ⟨rest, -, inside⟩
  · obtain ⟨rfl, -⟩ := List.append_inj' split rfl
    exact last o bought buy
  · exact h before d' rest o inside bought buy

theorem BuysBacked.mono {emitted emitted' : List (Candle K)} {dispatched : List (Dispatch K)}
    (h : BuysBacked config emitted processes dispatched) (sub : emitted ⊆ emitted')
    (goOn : GoOn processes processes') : BuysBacked config emitted' processes' dispatched :=
  fun before d after o split bought buy => (h before d after o split bought buy).mono sub goOn

theorem ConfirmedScored.mono {s s' : EngineState K} (h : ConfirmedScored config processes s)
    (sub : s.emitted ⊆ s'.emitted) (goOn : GoOn processes processes') (same : s'.published = s.published) :
    ConfirmedScored config processes' s' := by
  intro e mem confirmed
  rw [same] at mem
  obtain ⟨message, eq, scored⟩ := h e mem confirmed
  exact ⟨message, eq, scored.mono sub goOn⟩

/-- An event is put on the bus. -/
theorem ConfirmedScored.snoc {s s' : EngineState K} {e : SwingEvent K × Candle K}
    (h : ConfirmedScored config processes s) (same : s'.emitted = s.emitted)
    (published : s'.published = s.published ++ [e]) (new : e.1.state = .aiConfirmed → ∃ message,
      e.1 = confirmedEvent message ∧ Scored config s.emitted processes message e.2) :
    ConfirmedScored config processes s' := by
  intro e' mem confirmed
  rw [published] at mem
  rw [same]
  rcases List.mem_append.1 mem with old | last
  · exact h e' old confirmed
  · obtain rfl := List.mem_singleton.1 last
    exact new confirmed

variable [Sqrt K]

theorem confirmedScored_step {s s' : EngineState K} {a : EngineAction K} (h : ConfirmedScored config processes s)
    (provenance : Provenance s)
    (scored : ∀ message candle, a = .aiSignal message candle → Scored config s.emitted processes message candle)
    (taken : (machine K).step s a = some s') : ConfirmedScored config processes s' := by
  have kept := GoOn.refl processes
  cases step_cases taken with
  | tick => exact h.mono (List.subset_append_left ..) kept rfl
  | publishCandle => exact h.mono (List.Subset.refl _) kept rfl
  | @publishEvent number tick event candle sends delivered next =>
    have faithful : Send.Faithful s.emitted (.publishEvent event candle) :=
      provenance.sends _ (by simp [EngineState.sends, next])
    refine h.snoc rfl (List.append_assoc ..).symm fun confirmed => ?_
    rw [faithful.1] at confirmed
    cases confirmed
  | pushed | drain | drained | dispatchScalping => exact h.mono (List.Subset.refl _) kept rfl
  | aiSignal => exact h.snoc rfl (List.append_assoc ..).symm fun _ => ⟨_, rfl, scored _ _ rfl⟩
  | dispatchSwing head => exact h.mono (List.Subset.refl _) kept (published_dispatchSwing head ..)

theorem buysBacked_step {s s' : EngineState K} {a : EngineAction K}
    (h : BuysBacked config s.emitted processes s.dispatched) (confirmed : ConfirmedScored config processes s)
    (armed : ArmedRecord s) (taken : (machine K).step s a = some s') :
    BuysBacked config s'.emitted processes s'.dispatched := by
  cases step_cases taken with
  | tick => exact h.mono (List.subset_append_left ..) (GoOn.refl processes)
  | dispatchSwing head => exact h.snoc fun o bought _ => backed_of_dispatch confirmed armed head bought
  | _ => exact h

end Buys

namespace TradingLoop

variable [Field K] [LinearOrder K] [Sqrt K] [FloatMath K] {config : Config K} {flush_every : ℕ} {s s' : TradingLoop K}

/-- The invariant of the loop. -/
structure Sound (config : Config K) (s : TradingLoop K) : Prop where
  pipeline : (Pipeline.machine K).Reachable s.toPipeline
  scores : Service.Scores config s.service
  handled : ∀ h ∈ s.service.handled, h.1 ∈ s.engine.emitted
  aiSignals : ∀ e ∈ s.aiSignals, Scored config s.engine.emitted s.processes e.1 e.2
  confirmed : ConfirmedScored config s.processes s.engine
  buys : BuysBacked config s.engine.emitted s.processes s.engine.dispatched

theorem Sound.init : Sound config (init : TradingLoop K) where
  pipeline := ⟨[], rfl⟩
  scores := Service.Scores.init config
  handled := by
    rintro _ ⟨⟩
  aiSignals := by
    rintro _ ⟨⟩
  confirmed := by
    rintro _ ⟨⟩
  buys := by
    intro before d after o split
    cases before <;> cases split

omit [Sqrt K] in
/-- A step of the running process. -/
theorem goOn_service {service : Service K} {a : ServiceAction K} (earlier : List (Service K))
    (moved : (Service.machine config flush_every).step s.service a = some service) :
    GoOn (earlier ++ [s.service]) (earlier ++ [service]) := by
  obtain ⟨handled, features⟩ := Service.records_grow moved
  intro p mem
  rcases List.mem_append.1 mem with ended | running
  · exact ⟨p, List.mem_append_left _ ended, List.prefix_rfl, List.Subset.refl _⟩
  · rw [List.mem_singleton.1 running]
    exact ⟨service, List.mem_append_right _ (List.mem_singleton_self _), handled, features.subset⟩

/-- A step of the engine. -/
theorem Sound.engineStep (h : Sound config s) {pipeline : Pipeline K} {a : PipelineAction K} {action : EngineAction K}
    (taken : (Pipeline.machine K).step s.toPipeline a = some pipeline)
    (moved : (Engine.machine K).step s.engine action = some pipeline.engine)
    (same : pipeline.aiSignals = s.aiSignals)
    (scored : ∀ message candle, action = .aiSignal message candle →
      Scored config s.engine.emitted s.processes message candle) :
    Sound config { s with toPipeline := pipeline } := by
  have grown := (records_grow moved).1.subset
  have armed := Pipeline.armedRecord h.pipeline
  constructor
  · exact h.pipeline.step taken
  · exact h.scores
  · exact fun p mem => grown (h.handled p mem)
  · intro e mem
    exact (h.aiSignals e (same ▸ mem)).mono grown (GoOn.refl _)
  · exact confirmedScored_step h.confirmed (Pipeline.provenance h.pipeline).engine scored moved
  · exact buysBacked_step h.buys h.confirmed armed moved

/-- A round with a candle of the topic. -/
theorem Sound.roundStep (h : Sound config s) {offset : ℕ} {r : Round K} {candle : Candle K} {service : Service K}
    (found : s.engine.candleData[offset]? = some candle)
    (moved : (Service.machine config flush_every).step s.service (.round { r with polled := .candle candle }) =
      some service) :
    Sound config { s with service, aiSignals := s.aiSignals ++ publishedBy s.service service candle } := by
  have own : candle ∈ s.engine.emitted :=
    (Pipeline.provenance h.pipeline).engine.candleData candle (List.mem_of_getElem? found)
  have goOn : GoOn s.processes (s.earlier ++ [service]) := goOn_service s.earlier moved
  obtain ⟨handled, published⟩ := publishedBy_round h.scores.windows moved
  constructor
  · -- in the pipeline the round is an answer to the candle, or no step
    rcases published with nothing | ⟨row, scored, -, eq⟩
    · rw [nothing, List.append_nil]
      exact h.pipeline
    · rw [eq, signalPayload_row scored]
      refine h.pipeline.step (a := .answer offset row.result.bull_probability row.result.bear_probability
        row.result.direction.text) ?_
      simp only [Pipeline.machine, Pipeline.step, found, Option.map_some]
  · exact h.scores.step moved
  · intro p p_mem
    rw [handled] at p_mem
    rcases List.mem_append.1 p_mem with old | new
    · exact h.handled p old
    · rw [List.mem_singleton.1 new]
      exact own
  · intro e e_mem
    rcases List.mem_append.1 e_mem with old | new
    · exact (h.aiSignals e old).mono (List.Subset.refl _) goOn
    · rcases published with nothing | ⟨row, scored, logged, eq⟩
      · rw [nothing] at new
        cases new
      · rw [eq] at new
        rw [List.mem_singleton.1 new]
        have scored_in : ScoredIn config s.engine.emitted service candle row :=
          ⟨logged, s.service.handled, r.query, h.handled, handled ▸ List.prefix_rfl, scored⟩
        exact ⟨own, service, List.mem_append_right _ (List.mem_singleton_self _), row, scored_in, rfl⟩
  · exact h.confirmed.mono (List.Subset.refl _) goOn rfl
  · exact h.buys.mono (List.Subset.refl _) goOn

/-- The service goes on or starts anew, and the engine is as it was. -/
theorem Sound.serviceStep (h : Sound config s) {service : Service K} {earlier : List (Service K)}
    (scores : Service.Scores config service) (handled : ∀ h ∈ service.handled, h.1 ∈ s.engine.emitted)
    (goOn : GoOn s.processes (earlier ++ [service])) : Sound config { s with service, earlier } where
  pipeline := h.pipeline
  scores := scores
  handled := handled
  aiSignals e mem := (h.aiSignals e mem).mono (List.Subset.refl _) goOn
  confirmed := h.confirmed.mono (List.Subset.refl _) goOn rfl
  buys := h.buys.mono (List.Subset.refl _) goOn

theorem Sound.step (h : Sound config s) {a : LoopAction K} (taken : (machine config flush_every).step s a = some s') :
    Sound config s' := by
  cases step_cases taken with
  | engine moved =>
    cases Pipeline.step_cases moved with
    | engine thread engine => exact h.engineStep moved engine rfl fun _ _ eq => absurd eq (thread _ _)
  | consume moved =>
    cases Pipeline.step_cases moved with
    | consume found engine =>
      refine h.engineStep moved engine rfl ?_
      rintro _ _ ⟨⟩
      exact h.aiSignals _ (List.mem_of_getElem? found)
  | round found moved => exact h.roundStep found moved
  | service other moved =>
    refine h.serviceStep (h.scores.step moved) ?_ (goOn_service s.earlier moved)
    cases Service.step_cases moved with
    | handleSignal | skip | shutDown => exact h.handled
    | candle looping polled => simp [polledCandle, polled] at other
  | restart =>
    refine h.serviceStep (Service.Scores.init config) ?_ (GoOn.restart s.processes)
    rintro _ ⟨⟩

theorem sound_of_reachable (reach : (machine config flush_every).Reachable s) : Sound config s :=
  reach.induct Sound.init fun _ _ _ h taken => h.step taken

/-- **The engine and the service make a pipeline**: what holds of its runs holds here. -/
theorem pipeline_reachable (reach : (machine config flush_every).Reachable s) :
    (Pipeline.machine K).Reachable s.toPipeline :=
  (sound_of_reachable reach).pipeline

/-- **Behind every buy there is a score**, in every run of the engine and the service: the
candle is one that the engine closed, a process of the service in this run scored the window
that it ends as BUY_READY with conviction and published it, the order asks for its close, and
a candle of this close time armed the ticker. -/
theorem buys_backed (reach : (machine config flush_every).Reachable s) :
    BuysBacked config s.engine.emitted s.processes s.engine.dispatched :=
  (sound_of_reachable reach).buys

section Example

/-- `math.exp(-3.0)` is this double. -/
local instance instFloatMathRat : FloatMath ℚ :=
  ⟨Rat.sqrt, fun x => if x = -3 then 49787068367863944 / 10 ^ 18 else 0⟩

/-- The shipped configuration, with a signal from the first candle on. -/
def firstOn : Config ℚ := { Config.shipped with buffer_min_len_for_signal := 1 }

/-- The first quarter of A closes and is scored, the service starts anew, and the score comes
back. -/
def firstScored : List (LoopAction ℚ) :=
  [.engine (.tick ⟨"A", 100, 1, 0⟩), .engine .pushed, .engine (.tick ⟨"A", 100, 1, 900000⟩),
    .engine (.send true), .engine (.send true), .engine .pushed, .round 0 ⟨.nothing, .noClient, true, 0, true⟩,
    .restart, .consume 0, .engine (.dispatchSwing 0 0 makeOrderExecutor),
    .engine (.dispatchSwing 1 1 makeOrderExecutor)]

/-- A is bought on the score of a single candle. -/
theorem buys_backed_first : ∃ s : TradingLoop ℚ,
    (s.engine.dispatched.any fun d => d.outcome = .submitted ⟨⟨"A", 100, 50, .buy⟩, true⟩) = true ∧
      BuysBacked firstOn s.engine.emitted s.processes s.engine.dispatched := by
  obtain ⟨s, run, bought⟩ := (machine firstOn 1).exists_of_any firstScored
    (fun s => s.engine.dispatched.any fun d => d.outcome = .submitted ⟨⟨"A", 100, 50, .buy⟩, true⟩)
    (by decide +kernel)
  exact ⟨s, bought, buys_backed ⟨_, run⟩⟩

end Example

end TradingLoop

end StockAnomaly.Engine

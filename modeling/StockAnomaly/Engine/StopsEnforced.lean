import Mathlib.Algebra.Field.Rat
import Mathlib.Algebra.Order.Ring.Rat
import Mathlib.Tactic.NormNum
import StockAnomaly.Engine.Wiring

/-!
# Stops and targets in the wired engine

No thread of `main` calls `check_exit`, so no sell is ever submitted. A run therefore keeps
its stops and targets exactly as long as none falls due: **`stopsEnforced_iff`**. What is
due is told by the records of the engine: a candle of a held ticker dispatched at a price
past the stop or the target, or a tick of a held ticker processed at 1.5% below entry.
-/

namespace StockAnomaly.Engine

open StockAnomaly.Theory StockAnomaly.Aggregation StockAnomaly.Events

variable {K : Type*}

def Dispatch.IsSell (ticker : Ticker) (d : Dispatch K) : Prop :=
  ∃ o, d.outcome = .submitted o ∧ o.request.ticker = ticker ∧ o.request.side = .sell

def ScalpingEntry.IsBuy (ticker : Ticker) (entry : ScalpingEntry K) : Prop :=
  ∃ event o, entry = .dispatched event (some o) ∧ o.request.ticker = ticker ∧ o.request.side = .buy ∧
    o.accepted = true

def ScalpingEntry.IsSell (ticker : Ticker) (entry : ScalpingEntry K) : Prop :=
  ∃ event o, entry = .dispatched event (some o) ∧ o.request.ticker = ticker ∧ o.request.side = .sell

variable [Field K] [LinearOrder K]

/-- The price is 3% below or 6% above the entry. -/
def StopOrTarget (price entryPrice : K) : Prop :=
  (price - entryPrice) / entryPrice ≤ -(3 / 100) ∨ 6 / 100 ≤ (price - entryPrice) / entryPrice

instance (price entryPrice : K) : Decidable (StopOrTarget price entryPrice) :=
  inferInstanceAs (Decidable (_ ∨ _))

/-- The price is at least 1.5% below the entry. -/
def Dropped (price entryPrice : K) : Prop := price ≤ entryPrice * (1 - 15 / 1000)

/-- The dispatch of a closed candle past the stop or the target. -/
def Dispatch.IsExitCandle (ticker : Ticker) (entryPrice : K) (d : Dispatch K) : Prop :=
  ∃ event nowMs entryMs executor, d.op = .onEvent event nowMs entryMs executor ∧
    event.state = .candleClosed ∧ event.ticker = ticker ∧ StopOrTarget event.close entryPrice

/-- No ticker is still held without a sell after a candle past its stop or target was
dispatched. -/
def SwingEnforced (states : SwingStates K) (dispatched : List (Dispatch K)) : Prop :=
  ∀ ticker ts before d after, states ticker = some ts → ts.inPosition = true → 0 < ts.entryPrice →
    dispatched = before ++ d :: after → d.IsExitCandle ticker ts.entryPrice →
    (∀ d' ∈ after, ¬ d'.IsBuy ticker) → ∃ d' ∈ after, d'.IsSell ticker

/-- No ticker is still held without a sell after a tick past its stop was processed. -/
def ScalpingEnforced (positions : Positions K) (log : List (ScalpingEntry K)) : Prop :=
  ∀ ticker info before tick after, positions ticker = some info → log = before ++ .processed tick :: after →
    tick.ticker = ticker → Dropped tick.price info.entryPrice →
    (∀ e ∈ after, ¬ e.IsBuy ticker) → ∃ e ∈ after, e.IsSell ticker

/-- Stops and targets are enforced in a state. -/
structure StopsEnforced (s : EngineState K) : Prop where
  swing : SwingEnforced s.states s.dispatched
  scalping : ScalpingEnforced s.positions s.scalpingLog

/-- The tick that a step finishes the processing of. -/
def processedBy (s : EngineState K) : EngineAction K → Option (Tick K)
  | .pushed =>
    match s.pushing with
    | some ⟨number, tick, []⟩ => if { s with pushing := none }.finished number then some tick else none
    | _ => none
  | .drained =>
    match s.draining with
    | some ⟨number, tick, _⟩ => if { s with draining := none }.finished number then some tick else none
    | none => none
  | _ => none

/-- The step dispatches a closed candle past the stop or target of a held ticker, or
finishes a tick past the stop of one. -/
def StopDue (s : EngineState K) (a : EngineAction K) : Prop :=
  (∃ nowMs entryMs executor event candle rest ts, a = .dispatchSwing nowMs entryMs executor ∧
    s.swingBus = (event, candle) :: rest ∧ event.state = .candleClosed ∧
    s.states event.ticker = some ts ∧ ts.inPosition = true ∧ 0 < ts.entryPrice ∧
    StopOrTarget event.close ts.entryPrice) ∨
  (∃ tick info, processedBy s a = some tick ∧ s.positions tick.ticker = some info ∧
    Dropped tick.price info.entryPrice)

/-- A held ticker was bought by this operation or was held before it at the same price. -/
theorem held_before {op : SwingOp K} {before : Option (TickerState K)} {ts : TickerState K}
    {outcome : Outcome K} (step : SwingHandler.Transition op before (some ts) outcome)
    (held : ts.inPosition = true) :
    (∃ o, outcome = .submitted o ∧ o.request.ticker = op.ticker ∧ o.request.side = .buy ∧ o.accepted = true) ∨
      ∃ t, before = some t ∧ t.inPosition = true ∧ t.entryPrice = ts.entryPrice := by
  cases step with
  | ignored => exact .inr ⟨ts, rfl, held, rfl⟩
  | armed closed free =>
    rw [free] at held
    cases held
  | windowExpired | noConviction | ttlExpired => exact .inr ⟨_, rfl, held, rfl⟩
  | bought => exact .inl ⟨_, rfl, rfl, rfl, rfl⟩
  | buyRejected => exact .inr ⟨ts, rfl, held, rfl⟩
  | sold => cases held

/-- A dispatch keeps the swing stops enforced exactly if it makes none due. -/
theorem swingEnforced_dispatch {states : SwingStates K} {dispatched : List (Dispatch K)}
    (enforced : SwingEnforced states dispatched) (event : SwingEvent K) (nowMs entryMs : ℤ)
    (executor : OrderExecutor K) (candle : Candle K) :
    SwingEnforced (SwingHandler.apply states (.onEvent event nowMs entryMs executor)).1
        (dispatched ++ [⟨.onEvent event nowMs entryMs executor,
          (SwingHandler.apply states (.onEvent event nowMs entryMs executor)).2, candle⟩]) ↔
      ¬ ∃ ts, event.state = .candleClosed ∧ states event.ticker = some ts ∧ ts.inPosition = true ∧
        0 < ts.entryPrice ∧ StopOrTarget event.close ts.entryPrice := by
  have transition := SwingHandler.apply_transition states (.onEvent event nowMs entryMs executor)
  constructor
  · rintro after ⟨ts, closed, found, held, pos, due⟩
    simp only [SwingOp.ticker, found] at transition
    have kept := transition.held held (by rw [closed]; decide)
    obtain ⟨d, mem, -⟩ := after event.ticker ts dispatched _ [] kept held pos rfl
      ⟨event, nowMs, entryMs, executor, rfl, closed, rfl, due⟩ (by simp)
    cases mem
  · intro not_due ticker ts before d after found held pos split exit no_buy
    -- the position is of this dispatch, or older and entered at the same price
    have origin : Dispatch.IsBuy ticker ⟨.onEvent event nowMs entryMs executor,
          (SwingHandler.apply states (.onEvent event nowMs entryMs executor)).2, candle⟩ ∨
        ∃ t, states ticker = some t ∧ t.inPosition = true ∧ t.entryPrice = ts.entryPrice := by
      by_cases own : ticker = event.ticker
      · subst own
        rw [SwingOp.ticker, found] at transition
        exact held_before transition held
      · rw [SwingHandler.apply_other own] at found
        exact .inr ⟨ts, found, held, rfl⟩
    rcases split_snoc split with ⟨rfl, rfl⟩ | ⟨rest, rfl, inside⟩
    · obtain ⟨_, _, _, _, ⟨⟩, closed, rfl, due⟩ := exit
      cases origin with
      | inl bought =>
        obtain ⟨o, submitted, -, buy, -⟩ := bought
        dsimp only at submitted
        rw [submitted] at transition
        obtain ⟨_, _, _, _, _, ⟨⟩, -, justified⟩ := transition.justified buy
        rw [justified.confirmed] at closed
        cases closed
      | inr older =>
        obtain ⟨t, found', held', price⟩ := older
        rw [← price] at pos due
        exact absurd ⟨t, closed, found', held', pos, due⟩ not_due
    · cases origin with
      | inl bought => exact absurd bought (no_buy _ (by simp))
      | inr older =>
        obtain ⟨t, found', held', price⟩ := older
        rw [← price] at pos exit
        obtain ⟨d', mem, sell⟩ := enforced ticker t before d rest found' held' pos inside exit
          fun d' mem => no_buy d' (List.mem_append_left _ mem)
        exact ⟨d', List.mem_append_left _ mem, sell⟩

omit [LinearOrder K] in
/-- A call of the scalping handler enters the ticker of its event or changes nothing. -/
theorem scalping_held_before {positions : Positions K} {event : ScalpingEvent K} {nowMs : ℤ}
    {executor : OrderExecutor K} {ticker : Ticker} {info : PositionInfo K}
    (held : (ScalpingHandler.onEvent positions event nowMs executor).1 ticker = some info) :
    ScalpingEntry.IsBuy ticker
        (.dispatched event (ScalpingHandler.onEvent positions event nowMs executor).2) ∨
      positions ticker = some info := by
  unfold ScalpingHandler.onEvent at held ⊢
  split_ifs at held ⊢ with stale present accepted
  · exact .inr held
  · exact .inr held
  · by_cases own : ticker = event.ticker
    · exact .inl ⟨event, _, rfl, own.symm, rfl, rfl⟩
    · exact .inr ((Function.update_of_ne own ..).symm.trans held)
  · exact .inr held

/-- A dispatch of the scalping thread keeps the stops enforced. -/
theorem scalpingEnforced_dispatch {positions : Positions K} {log : List (ScalpingEntry K)}
    (enforced : ScalpingEnforced positions log) (event : ScalpingEvent K) (nowMs : ℤ)
    (executor : OrderExecutor K) :
    ScalpingEnforced (ScalpingHandler.onEvent positions event nowMs executor).1
      (log ++ [.dispatched event (ScalpingHandler.onEvent positions event nowMs executor).2]) := by
  intro ticker info before tick after held split own dropped no_buy
  rcases split_snoc split with ⟨⟨⟩, -⟩ | ⟨rest, rfl, inside⟩
  cases scalping_held_before held with
  | inl bought => exact absurd bought (no_buy _ (by simp))
  | inr older =>
    obtain ⟨e, mem, sell⟩ := enforced ticker info before tick rest older inside own dropped
      fun e mem => no_buy e (List.mem_append_left _ mem)
    exact ⟨e, List.mem_append_left _ mem, sell⟩

/-- A processed tick keeps them enforced exactly if it is not past the stop of its ticker. -/
theorem scalpingEnforced_processed {positions : Positions K} {log : List (ScalpingEntry K)}
    (enforced : ScalpingEnforced positions log) (tick : Tick K) :
    ScalpingEnforced positions (log ++ [.processed tick]) ↔
      ¬ ∃ info, positions tick.ticker = some info ∧ Dropped tick.price info.entryPrice := by
  constructor
  · rintro after ⟨info, held, dropped⟩
    obtain ⟨e, mem, -⟩ := after tick.ticker info log tick [] held rfl rfl dropped (by simp)
    cases mem
  · intro not_due ticker info before tick' after held split own dropped no_buy
    rcases split_snoc split with ⟨⟨⟩, -⟩ | ⟨rest, rfl, inside⟩
    · subst own
      exact absurd ⟨info, held, dropped⟩ not_due
    · obtain ⟨e, mem, sell⟩ := enforced ticker info before tick' rest held inside own dropped
        fun e mem => no_buy e (List.mem_append_left _ mem)
      exact ⟨e, List.mem_append_left _ mem, sell⟩

variable [Sqrt K]

omit [Sqrt K] in
theorem stopsEnforced_init : StopsEnforced (EngineState.init : EngineState K) where
  swing := by
    rintro _ _ _ _ _ ⟨⟩
  scalping := by
    rintro _ _ _ _ _ ⟨⟩

omit [Sqrt K] in
/-- The end of a tick's processing. -/
theorem stopsEnforced_settle {s : EngineState K} (h : StopsEnforced s) (number : ℕ) (tick : Tick K) :
    StopsEnforced (s.settle number tick) ↔
      ¬ (s.finished number = true ∧ ∃ info, s.positions tick.ticker = some info ∧
        Dropped tick.price info.entryPrice) := by
  cases done : s.finished number with
  | false =>
    simp only [Bool.false_eq_true, false_and, not_false_eq_true, iff_true]
    refine ⟨h.swing, ?_⟩
    simp only [EngineState.settle, done, Bool.false_eq_true, if_false]
    exact h.scalping
  | true =>
    simp only [true_and]
    rw [← scalpingEnforced_processed h.scalping]
    constructor
    · intro after
      have scalping := after.scalping
      simp only [EngineState.settle, done, if_true] at scalping
      exact scalping
    · intro scalping
      refine ⟨h.swing, ?_⟩
      simp only [EngineState.settle, done, if_true]
      exact scalping

/-- One step keeps stops and targets enforced exactly if it makes none due. -/
theorem stopsEnforced_step {s s' : EngineState K} {a : EngineAction K} (h : StopsEnforced s)
    (taken : (machine K).step s a = some s') : StopsEnforced s' ↔ ¬ StopDue s a := by
  cases step_cases taken with
  | tick | publishCandle | publishEvent | drain | aiSignal =>
    exact iff_of_true ⟨h.swing, h.scalping⟩ (by simp [StopDue, processedBy])
  | @pushed number tick done =>
    have keep : StopsEnforced { s with pushing := none } := ⟨h.swing, h.scalping⟩
    rw [stopsEnforced_settle keep, StopDue, processedBy, done]
    by_cases finished : ({ s with pushing := none } : EngineState K).finished number = true
    · simp [finished]
    · simp [finished]
  | @drained number tick signal done =>
    have keep : StopsEnforced { s with
      draining := none
      scalpingBus := s.scalpingBus ++ scalpingEvents signal } := ⟨h.swing, h.scalping⟩
    have same : ({ s with
      draining := none
      scalpingBus := s.scalpingBus ++ scalpingEvents signal } : EngineState K).finished number =
        ({ s with draining := none } : EngineState K).finished number := rfl
    rw [stopsEnforced_settle keep, same, StopDue, processedBy, done]
    by_cases finished : ({ s with draining := none } : EngineState K).finished number = true
    · simp [finished]
    · simp [finished]
  | @dispatchScalping event rest nowMs executor head =>
    refine iff_of_true ⟨h.swing, ?_⟩ (by simp [StopDue, processedBy])
    exact scalpingEnforced_dispatch h.scalping event nowMs executor
  | @dispatchSwing event candle rest nowMs entryMs executor head =>
    have swing := swingEnforced_dispatch h.swing event nowMs entryMs executor candle
    constructor
    · rintro after (⟨_, _, _, event', candle', rest', ts, -, head', closed, due⟩ | ⟨_, _, ⟨⟩, -⟩)
      obtain ⟨⟨rfl, -⟩, -⟩ : (event = event' ∧ candle = candle') ∧ rest = rest' := by
        simpa [head] using head'
      exact swing.1 after.swing ⟨ts, closed, due⟩
    · intro not_due
      refine ⟨swing.2 ?_, h.scalping⟩
      rintro ⟨ts, closed, due⟩
      exact not_due (.inl ⟨nowMs, entryMs, executor, event, candle, rest, ts, rfl, head, closed, due⟩)

/-- **Stops and targets are enforced in all states of a run exactly if none falls due in
it.** -/
theorem stopsEnforced_iff (acts : List (EngineAction K)) (s : EngineState K)
    (run : (machine K).run acts = some s) :
    (machine K).Always StopsEnforced acts ↔
      (machine K).Along (fun s a => ¬ StopDue s a) (machine K).init acts :=
  Machine.always_iff_along stopsEnforced_init (fun _ _ _ _ h taken => stopsEnforced_step h taken) acts s run

omit [Sqrt K] in
/-- Nothing is due while the next candle on the bus is within the bounds of its ticker and the
scalping handler holds nothing. -/
theorem not_stopDue {s : EngineState K} {a : EngineAction K}
    (within : ∀ e ∈ s.swingBus.head?, ∀ ts ∈ s.states e.1.ticker, ¬ StopOrTarget e.1.close ts.entryPrice)
    (none_held : ∀ tick ∈ processedBy s a, (s.positions tick.ticker).isNone = true) : ¬ StopDue s a := by
  rintro (⟨_, _, _, event, candle, rest, ts, -, head, -, found, -, -, due⟩ | ⟨tick, info, processed, held, -⟩)
  · exact within (event, candle) (by rw [head]; rfl) ts found due
  · have free := none_held tick processed
    rw [held] at free
    cases free

/-- A is bought at 100 on the candle that closed there. -/
def boughtAt100 : List (EngineAction ℚ) :=
  [.tick ⟨"A", 100, 1, 0⟩, .pushed, .tick ⟨"A", 100, 1, 900000⟩, .send true, .send true, .pushed,
    .dispatchSwing 0 0 makeOrderExecutor,
    .aiSignal ⟨"A", 100, 7 / 10, 3 / 10, "BUY_READY", 900000, 900000⟩
      ⟨"A", 100, 100, 100, 100, 1, 0, 900000, 1, 15⟩,
    .dispatchSwing 1 1 makeOrderExecutor]

/-- The next candle of A closes at a price, with one scalping tick drained meanwhile. -/
def nextCandle (price : ℚ) : List (EngineAction ℚ) :=
  [.tick ⟨"A", price, 1, 900001⟩, .drain, .pushed, .drained, .tick ⟨"A", price, 1, 1800000⟩, .send true, .send true]

/-- The candle of a held ticker closes between the stop and the target and is dispatched. -/
theorem stopsEnforced_iff_tick : ∃ s : EngineState ℚ,
    (machine ℚ).run (boughtAt100 ++ nextCandle 103 ++ [.pushed, .dispatchSwing 2 2 makeOrderExecutor]) = some s ∧
      (s.states "A").map (fun ts => (ts.inPosition, ts.entryPrice)) = some (true, 100) ∧
      (machine ℚ).Always StopsEnforced
        (boughtAt100 ++ nextCandle 103 ++ [.pushed, .dispatchSwing 2 2 makeOrderExecutor]) := by
  obtain ⟨s, run, held⟩ := (machine ℚ).exists_of_any
    (boughtAt100 ++ nextCandle 103 ++ [.pushed, .dispatchSwing 2 2 makeOrderExecutor])
    (fun s => (s.states "A").map (fun ts => (ts.inPosition, ts.entryPrice)) = some (true, 100)) (by decide +kernel)
  refine ⟨s, run, of_decide_eq_true held, (stopsEnforced_iff _ s run).2 ?_⟩
  refine Machine.along_of_check (p := fun s a =>
    s.swingBus.head?.all (fun e => (s.states e.1.ticker).all fun ts =>
      decide (¬ StopOrTarget e.1.close ts.entryPrice)) &&
    (processedBy s a).all fun tick => (s.positions tick.ticker).isNone) ?_ (by decide +kernel)
  intro s a calm
  obtain ⟨within, none_held⟩ := Bool.and_eq_true_iff.1 calm
  refine not_stopDue ?_ fun tick processed => (Option.all_eq_true _ _).1 none_held tick processed
  intro e mem ts found
  exact of_decide_eq_true ((Option.all_eq_true _ _).1 ((Option.all_eq_true _ _).1 within e mem) ts found)

/-- **A stop that nobody enforces.** A is bought at 100 on the candle that closed there; the
next candle of A closes at 90 and is dispatched, and A is still held without a sell. -/
theorem stop_not_enforced :
    ¬ ∀ s : EngineState ℚ, (machine ℚ).Reachable s → StopsEnforced s := by
  intro enforced
  obtain ⟨s, run, found⟩ := (machine ℚ).exists_of_any (boughtAt100 ++ nextCandle 90)
    (fun s => s.swingBus.map (fun e => (e.1.state, e.1.ticker, e.1.close)) = [(.candleClosed, "A", 90)] ∧
      (s.states "A").map (fun ts => (ts.inPosition, ts.entryPrice)) = some (true, 100)) (by decide +kernel)
  obtain ⟨bus, holding⟩ := of_decide_eq_true found
  obtain ⟨⟨event, candle⟩, head, shape⟩ := List.map_eq_singleton_iff.1 bus
  obtain ⟨ts, found, shape'⟩ := Option.map_eq_some_iff.1 holding
  simp only [Prod.mk.injEq] at shape shape'
  have reach : (machine ℚ).Reachable s := ⟨_, run⟩
  have taken : (machine ℚ).step s (.dispatchSwing 2 2 makeOrderExecutor) =
      some (s.dispatchSwing event candle [] 2 2 makeOrderExecutor) := by
    simp only [machine, step, head]
  refine (stopsEnforced_step (enforced s reach) taken).1 (enforced _ (reach.step taken)) (.inl ?_)
  refine ⟨2, 2, makeOrderExecutor, event, candle, [], ts, rfl, head, shape.1, ?_, shape'.1, ?_, ?_⟩
  · rw [shape.2.1]
    exact found
  · rw [shape'.2]
    norm_num
  · rw [shape.2.2, shape'.2]
    left
    norm_num

end StockAnomaly.Engine

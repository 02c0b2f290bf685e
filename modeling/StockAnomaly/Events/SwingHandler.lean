import Mathlib.Logic.Function.Basic
import StockAnomaly.Events.EventTypes
import StockAnomaly.Theory.Machine

/-!
# SwingHandler

The per-ticker state machine of `swing_handler.hpp`. Every operation runs under one lock,
the executor's answer included, so it is one step from states to states. An `Outcome` says
which branch was taken, and a run keeps its history of operations and outcomes.

`Transition` is all that an operation can do to the state of its ticker
(**`apply_transition`**); the invariants are derived from it and from `apply_other`.
-/

namespace StockAnomaly.Events

open StockAnomaly.Theory

inductive ArmState
  | idle
  | armed
deriving DecidableEq

structure TickerState (K : Type*) where
  state : ArmState
  armedAtMs : ℤ
  /-- Which candle armed this ticker. -/
  candleCloseTimeMs : ℤ
  entryPrice : K
  entryMs : ℤ
  inPosition : Bool

/-- The map `states_`. -/
abbrev SwingStates (K : Type*) := Ticker → Option (TickerState K)

/-- Why an armed ticker went back to idle without an order. -/
inductive Disarm
  /-- The AI signal came after the armed window. -/
  | windowExpired
  /-- The AI signal had no strong bull conviction. -/
  | noConviction
  /-- A `ttlExpired` event. -/
  | ttlExpired
deriving DecidableEq

/-- The branch an operation took. -/
inductive Outcome (K : Type*)
  /-- An early return: nothing changed. -/
  | ignored
  /-- A closed candle was accepted. -/
  | armed
  | disarmed (reason : Disarm)
  | submitted (order : Order K)
deriving DecidableEq

/-- A call of the handler, with its clock readings and the executor's answer to any request. -/
inductive SwingOp (K : Type*)
  | onEvent (event : SwingEvent K) (nowMs entryMs : ℤ) (executor : OrderExecutor K)
  | checkExit (ticker : Ticker) (currentPrice : K) (timestampMs : ℤ) (executor : OrderExecutor K)

def SwingOp.ticker {K : Type*} : SwingOp K → Ticker
  | onEvent event .. => event.ticker
  | checkExit ticker .. => ticker

namespace SwingHandler

/-- How long a ticker stays armed: 5 minutes. -/
def kArmedTTLMs : ℤ := 5 * 60000

variable {K : Type*} [Field K]

def kMinBullProb : K := 65 / 100

def kFixedQty : K := 50

/-- Percent. -/
def kStopLossPct : K := -3

/-- Percent. -/
def kTakeProfitPct : K := 6

def TickerState.zero : TickerState K := ⟨.idle, 0, 0, 0, 0, false⟩

def onCandleClosed (states : SwingStates K) (ticker : Ticker) (event : SwingEvent K) (nowMs : ℤ) :
    SwingStates K × Outcome K :=
  let ts := (states ticker).getD TickerState.zero
  if ts.inPosition then (Function.update states ticker (some ts), .ignored)
  else
    let ts := { ts with
      state := .armed
      armedAtMs := nowMs
      candleCloseTimeMs := event.candleCloseTimeMs }
    (Function.update states ticker (some ts), .armed)

def onTtlExpired (states : SwingStates K) (ticker : Ticker) : SwingStates K × Outcome K :=
  match states ticker with
  | none => (states, .ignored)
  | some ts => (Function.update states ticker (some { ts with state := .idle }), .disarmed .ttlExpired)

def buyRequest (ticker : Ticker) (price : K) : OrderRequest K := ⟨ticker, price, kFixedQty, .buy⟩

def sellRequest (ticker : Ticker) (price : K) : OrderRequest K := ⟨ticker, price, kFixedQty, .sell⟩

variable [LinearOrder K]

/-- `nowMs` is read for the armed window, `entryMs` after the order. -/
def onAiConfirmed (states : SwingStates K) (ticker : Ticker) (event : SwingEvent K) (nowMs entryMs : ℤ)
    (executor : OrderExecutor K) : SwingStates K × Outcome K :=
  match states ticker with
  | none => (states, .ignored)
  | some ts =>
    if ts.state ≠ .armed ∨ ts.inPosition then (states, .ignored)
    else if event.aiSignal.candleCloseTime ≠ ts.candleCloseTimeMs then (states, .ignored)
    else if kArmedTTLMs < nowMs - ts.armedAtMs then
      (Function.update states ticker (some { ts with state := .idle }), .disarmed .windowExpired)
    else if event.aiSignal.direction ≠ "BUY_READY" ∨ event.aiSignal.bullProbability < kMinBullProb then
      (Function.update states ticker (some { ts with state := .idle }), .disarmed .noConviction)
    else
      let request := buyRequest ticker event.close
      if executor request then
        let ts := { ts with
          state := .idle
          inPosition := true
          entryPrice := event.close
          entryMs := entryMs }
        (Function.update states ticker (some ts), .submitted ⟨request, true⟩)
      else (states, .submitted ⟨request, false⟩)

def onEvent (states : SwingStates K) (event : SwingEvent K) (nowMs entryMs : ℤ) (executor : OrderExecutor K) :
    SwingStates K × Outcome K :=
  match event.state with
  | .candleClosed => onCandleClosed states event.ticker event nowMs
  | .aiConfirmed => onAiConfirmed states event.ticker event nowMs entryMs executor
  | .ttlExpired => onTtlExpired states event.ticker

/-- The stop or the target of a position is met. -/
def exitHit (currentPrice entryPrice : K) : Bool :=
  (changePct currentPrice entryPrice).le kStopLossPct || (changePct currentPrice entryPrice).ge kTakeProfitPct

/-- The timestamp is not read; the executor's answer is not looked at. -/
def checkExit (states : SwingStates K) (ticker : Ticker) (currentPrice : K) (_timestampMs : ℤ)
    (executor : OrderExecutor K) : SwingStates K × Outcome K :=
  match states ticker with
  | none => (states, .ignored)
  | some ts =>
    if !ts.inPosition then (states, .ignored)
    else if exitHit currentPrice ts.entryPrice then
      let request := sellRequest ticker currentPrice
      (Function.update states ticker (some { ts with inPosition := false }),
        .submitted ⟨request, executor request⟩)
    else (states, .ignored)

def apply (states : SwingStates K) : SwingOp K → SwingStates K × Outcome K
  | .onEvent event nowMs entryMs executor => onEvent states event nowMs entryMs executor
  | .checkExit ticker currentPrice timestampMs executor =>
    checkExit states ticker currentPrice timestampMs executor

/-- The AI signal answers the candle that armed the ticker. -/
structure Answers (event : SwingEvent K) (ts : TickerState K) : Prop where
  confirmed : event.state = .aiConfirmed
  armed : ts.state = .armed
  free : ts.inPosition = false
  matched : event.aiSignal.candleCloseTime = ts.candleCloseTimeMs

/-- The AI signal leads to an order. -/
structure Justified (event : SwingEvent K) (nowMs : ℤ) (ts : TickerState K) : Prop extends
    Answers event ts where
  inTime : nowMs - ts.armedAtMs ≤ kArmedTTLMs
  direction : event.aiSignal.direction = "BUY_READY"
  conviction : kMinBullProb ≤ event.aiSignal.bullProbability

/-- What an operation can do to the state of its ticker. -/
inductive Transition : SwingOp K → Option (TickerState K) → Option (TickerState K) → Outcome K → Prop
  | ignored (op : SwingOp K) (before : Option (TickerState K)) : Transition op before before .ignored
  | armed {event : SwingEvent K} {nowMs entryMs : ℤ} {executor : OrderExecutor K}
      {before : Option (TickerState K)} (closed : event.state = .candleClosed)
      (free : (before.getD TickerState.zero).inPosition = false) :
      Transition (.onEvent event nowMs entryMs executor) before
        (some { before.getD TickerState.zero with
          state := .armed, armedAtMs := nowMs, candleCloseTimeMs := event.candleCloseTimeMs }) .armed
  | windowExpired {event : SwingEvent K} {nowMs entryMs : ℤ} {executor : OrderExecutor K} {ts : TickerState K}
      (answers : Answers event ts) (late : kArmedTTLMs < nowMs - ts.armedAtMs) :
      Transition (.onEvent event nowMs entryMs executor) (some ts) (some { ts with state := .idle })
        (.disarmed .windowExpired)
  | noConviction {event : SwingEvent K} {nowMs entryMs : ℤ} {executor : OrderExecutor K} {ts : TickerState K}
      (answers : Answers event ts) (inTime : nowMs - ts.armedAtMs ≤ kArmedTTLMs)
      (weak : event.aiSignal.direction ≠ "BUY_READY" ∨ event.aiSignal.bullProbability < kMinBullProb) :
      Transition (.onEvent event nowMs entryMs executor) (some ts) (some { ts with state := .idle })
        (.disarmed .noConviction)
  | ttlExpired {event : SwingEvent K} {nowMs entryMs : ℤ} {executor : OrderExecutor K} {ts : TickerState K}
      (expired : event.state = .ttlExpired) :
      Transition (.onEvent event nowMs entryMs executor) (some ts) (some { ts with state := .idle })
        (.disarmed .ttlExpired)
  | bought {event : SwingEvent K} {nowMs entryMs : ℤ} {executor : OrderExecutor K} {ts : TickerState K}
      (justified : Justified event nowMs ts) (accepted : executor (buyRequest event.ticker event.close) = true) :
      Transition (.onEvent event nowMs entryMs executor) (some ts)
        (some { ts with
          state := .idle, inPosition := true, entryPrice := event.close, entryMs := entryMs })
        (.submitted ⟨buyRequest event.ticker event.close, true⟩)
  | buyRejected {event : SwingEvent K} {nowMs entryMs : ℤ} {executor : OrderExecutor K} {ts : TickerState K}
      (justified : Justified event nowMs ts)
      (rejected : executor (buyRequest event.ticker event.close) = false) :
      Transition (.onEvent event nowMs entryMs executor) (some ts) (some ts)
        (.submitted ⟨buyRequest event.ticker event.close, false⟩)
  | sold {ticker : Ticker} {currentPrice : K} {timestampMs : ℤ} {executor : OrderExecutor K}
      {ts : TickerState K} (held : ts.inPosition = true) (hit : exitHit currentPrice ts.entryPrice = true) :
      Transition (.checkExit ticker currentPrice timestampMs executor) (some ts)
        (some { ts with inPosition := false })
        (.submitted ⟨sellRequest ticker currentPrice, executor (sellRequest ticker currentPrice)⟩)

/-- An operation submits orders of its own ticker. -/
theorem Transition.order_ticker {op : SwingOp K} {before after : Option (TickerState K)} {o : Order K}
    (step : Transition op before after (.submitted o)) : o.request.ticker = op.ticker := by
  cases step <;> rfl

/-- A submitted buy answers the candle that armed its ticker. -/
theorem Transition.justified {op : SwingOp K} {before after : Option (TickerState K)} {o : Order K}
    (step : Transition op before after (.submitted o)) (buy : o.request.side = .buy) :
    ∃ event nowMs entryMs executor t, op = .onEvent event nowMs entryMs executor ∧ before = some t ∧
      Justified event nowMs t := by
  cases step with
  | bought justified => exact ⟨_, _, _, _, _, rfl, rfl, justified⟩
  | buyRejected justified => exact ⟨_, _, _, _, _, rfl, rfl, justified⟩
  | sold => cases buy

/-- Only a signal that answers the arming candle in time decides. -/
theorem Transition.decided {op : SwingOp K} {before after : Option (TickerState K)} {outcome : Outcome K}
    (step : Transition op before after outcome)
    (decides : outcome = .disarmed .noConviction ∨ ∃ o, outcome = .submitted o ∧ o.request.side = .buy) :
    ∃ event nowMs entryMs executor ts, op = .onEvent event nowMs entryMs executor ∧ before = some ts ∧
      Answers event ts ∧ nowMs - ts.armedAtMs ≤ kArmedTTLMs := by
  rcases decides with rfl | ⟨o, rfl, buy⟩
  · cases step with
    | noConviction answers inTime => exact ⟨_, _, _, _, _, rfl, rfl, answers, inTime⟩
  · obtain ⟨event, nowMs, entryMs, executor, ts, rfl, rfl, justified⟩ := step.justified buy
    exact ⟨event, nowMs, entryMs, executor, ts, rfl, rfl, justified.toAnswers, justified.inTime⟩

/-- A ticker without a state stays unknown until a candle of it closes. -/
theorem Transition.unknown {event : SwingEvent K} {nowMs entryMs : ℤ} {executor : OrderExecutor K}
    {after : Option (TickerState K)} {outcome : Outcome K}
    (step : Transition (.onEvent event nowMs entryMs executor) none after outcome)
    (not_closed : event.state ≠ .candleClosed) : after = none ∧ outcome = .ignored := by
  cases step with
  | ignored => exact ⟨rfl, rfl⟩
  | armed closed => exact absurd closed not_closed

/-- Neither a closed candle nor a signal touches a held ticker. -/
theorem Transition.held {event : SwingEvent K} {nowMs entryMs : ℤ} {executor : OrderExecutor K}
    {ts : TickerState K} {after : Option (TickerState K)} {outcome : Outcome K}
    (step : Transition (.onEvent event nowMs entryMs executor) (some ts) after outcome)
    (held : ts.inPosition = true) (not_expired : event.state ≠ .ttlExpired) : after = some ts := by
  cases step with
  | ignored => rfl
  | armed _ free =>
    rw [Option.getD_some, held] at free
    cases free
  | windowExpired answers | noConviction answers =>
    rw [answers.free] at held
    cases held
  | ttlExpired expired => exact absurd expired not_expired
  | bought justified =>
    rw [justified.free] at held
    cases held
  | buyRejected => rfl

variable {states : SwingStates K}

theorem onCandleClosed_transition {event : SwingEvent K} {nowMs entryMs : ℤ} {executor : OrderExecutor K}
    (closed : event.state = .candleClosed) :
    Transition (.onEvent event nowMs entryMs executor) (states event.ticker)
      ((onCandleClosed states event.ticker event nowMs).1 event.ticker)
      (onCandleClosed states event.ticker event nowMs).2 := by
  unfold onCandleClosed
  dsimp only
  split
  case isTrue held =>
    have known : some ((states event.ticker).getD TickerState.zero) = states event.ticker := by
      cases found : states event.ticker with
      | none =>
        rw [found] at held
        cases held
      | some ts => rfl
    simp only [Function.update_self, known]
    exact .ignored ..
  case isFalse free =>
    simp only [Function.update_self]
    exact .armed closed (Bool.eq_false_iff.2 free)

theorem onAiConfirmed_transition {event : SwingEvent K} {nowMs entryMs : ℤ} {executor : OrderExecutor K}
    (confirmed : event.state = .aiConfirmed) :
    Transition (.onEvent event nowMs entryMs executor) (states event.ticker)
      ((onAiConfirmed states event.ticker event nowMs entryMs executor).1 event.ticker)
      (onAiConfirmed states event.ticker event nowMs entryMs executor).2 := by
  unfold onAiConfirmed
  cases found : states event.ticker with
  | none =>
    simp only [found]
    exact .ignored ..
  | some ts =>
    dsimp only
    split
    case isTrue =>
      simp only [found]
      exact .ignored ..
    case isFalse ready =>
    split
    case isTrue =>
      simp only [found]
      exact .ignored ..
    case isFalse matched =>
    have answers : Answers event ts := by
      constructor <;> grind
    split
    case isTrue late =>
      simp only [Function.update_self]
      exact .windowExpired answers late
    case isFalse inTime =>
    split
    case isTrue weak =>
      simp only [Function.update_self]
      exact .noConviction answers (not_lt.1 inTime) weak
    case isFalse strong =>
    have justified : Justified event nowMs ts := by
      rw [not_or, not_not, not_lt] at strong
      exact { answers with inTime := not_lt.1 inTime, direction := strong.1, conviction := strong.2 }
    split
    case isTrue accepted =>
      simp only [Function.update_self]
      exact .bought justified accepted
    case isFalse rejected =>
      simp only [found]
      exact .buyRejected justified (Bool.eq_false_iff.2 rejected)

theorem onTtlExpired_transition {event : SwingEvent K} {nowMs entryMs : ℤ} {executor : OrderExecutor K}
    (expired : event.state = .ttlExpired) :
    Transition (.onEvent event nowMs entryMs executor) (states event.ticker)
      ((onTtlExpired states event.ticker).1 event.ticker) (onTtlExpired states event.ticker).2 := by
  unfold onTtlExpired
  cases found : states event.ticker with
  | none =>
    simp only [found]
    exact .ignored ..
  | some ts =>
    dsimp only
    simp only [Function.update_self]
    exact .ttlExpired expired

theorem checkExit_transition {ticker : Ticker} {currentPrice : K} {timestampMs : ℤ} {executor : OrderExecutor K} :
    Transition (.checkExit ticker currentPrice timestampMs executor) (states ticker)
      ((checkExit states ticker currentPrice timestampMs executor).1 ticker)
      (checkExit states ticker currentPrice timestampMs executor).2 := by
  unfold checkExit
  cases found : states ticker with
  | none =>
    simp only [found]
    exact .ignored ..
  | some ts =>
    dsimp only
    split
    case isTrue =>
      simp only [found]
      exact .ignored ..
    case isFalse held =>
    split
    case isTrue hit =>
      simp only [Function.update_self]
      exact .sold (by simpa using held) hit
    case isFalse =>
      simp only [found]
      exact .ignored ..

/-- **All that an operation can do to the state of its ticker.** -/
theorem apply_transition (states : SwingStates K) (op : SwingOp K) :
    Transition op (states op.ticker) ((apply states op).1 op.ticker) (apply states op).2 := by
  cases op with
  | checkExit => exact checkExit_transition
  | onEvent event nowMs entryMs executor =>
    simp only [apply, onEvent, SwingOp.ticker]
    cases state : event.state with
    | candleClosed => exact onCandleClosed_transition state
    | aiConfirmed => exact onAiConfirmed_transition state
    | ttlExpired => exact onTtlExpired_transition state

/-- **An operation leaves the other tickers alone.** -/
theorem apply_other {op : SwingOp K} {ticker : Ticker} (other : ticker ≠ op.ticker) :
    (apply states op).1 ticker = states ticker := by
  cases op with
  | checkExit =>
    simp only [apply, checkExit, SwingOp.ticker] at other ⊢
    split
    · rfl
    · split_ifs <;> first | rfl | exact Function.update_of_ne other ..
  | onEvent event =>
    simp only [apply, onEvent, SwingOp.ticker] at other ⊢
    cases event.state with
    | candleClosed =>
      simp only [onCandleClosed]
      split_ifs <;> exact Function.update_of_ne other ..
    | aiConfirmed =>
      simp only [onAiConfirmed]
      split
      · rfl
      · split_ifs <;> first | rfl | exact Function.update_of_ne other ..
    | ttlExpired =>
      simp only [onTtlExpired]
      split
      · rfl
      · exact Function.update_of_ne other ..

/-- A closed candle arms a ticker that is free. -/
theorem apply_closed {event : SwingEvent K} {nowMs entryMs : ℤ} {executor : OrderExecutor K}
    (closed : event.state = .candleClosed)
    (free : ((states event.ticker).getD TickerState.zero).inPosition = false) :
    apply states (.onEvent event nowMs entryMs executor) =
      (Function.update states event.ticker (some { (states event.ticker).getD TickerState.zero with
        state := .armed, armedAtMs := nowMs, candleCloseTimeMs := event.candleCloseTimeMs }), .armed) := by
  simp only [apply, onEvent, closed, onCandleClosed, free, Bool.false_eq_true, if_false]

/-- A signal without conviction disarms. -/
theorem apply_weak {event : SwingEvent K} {nowMs entryMs : ℤ} {executor : OrderExecutor K} {ts : TickerState K}
    (found : states event.ticker = some ts) (answers : Answers event ts)
    (inTime : nowMs - ts.armedAtMs ≤ kArmedTTLMs)
    (weak : event.aiSignal.direction ≠ "BUY_READY" ∨ event.aiSignal.bullProbability < kMinBullProb) :
    (apply states (.onEvent event nowMs entryMs executor)).2 = .disarmed .noConviction := by
  simp [apply, onEvent, answers.confirmed, onAiConfirmed, found, answers.armed, answers.free, answers.matched,
    not_lt.2 inTime, weak]

/-- A justified signal submits a buy. -/
theorem apply_justified {event : SwingEvent K} {nowMs entryMs : ℤ} {executor : OrderExecutor K}
    {ts : TickerState K} (found : states event.ticker = some ts) (justified : Justified event nowMs ts) :
    (apply states (.onEvent event nowMs entryMs executor)).2 =
      .submitted ⟨buyRequest event.ticker event.close, executor (buyRequest event.ticker event.close)⟩ := by
  cases answer : executor (buyRequest event.ticker event.close) <;>
    simp [apply, onEvent, justified.confirmed, onAiConfirmed, found, justified.armed, justified.free,
      justified.matched, not_lt.2 justified.inTime, justified.direction, not_lt.2 justified.conviction, answer]

/-- A handler with the history of its operations. -/
structure SwingRun (K : Type*) where
  states : SwingStates K
  history : List (SwingOp K × Outcome K)

/-- The handler from its construction on; every operation is possible at any time. -/
def machine (K : Type*) [Field K] [LinearOrder K] : Machine (SwingRun K) (SwingOp K) where
  init := ⟨fun _ => none, []⟩
  step s op := some ⟨(apply s.states op).1, s.history ++ [(op, (apply s.states op).2)]⟩

/-- The invariant rule of the handler: an operation on the ticker takes one of its branches,
an operation on another ticker only adds to the history. -/
theorem reachable_induct (ticker : Ticker) {I : Option (TickerState K) → List (SwingOp K × Outcome K) → Prop}
    (init : I none [])
    (own : ∀ op before after outcome history, op.ticker = ticker → I before history →
      Transition op before after outcome → I after (history ++ [(op, outcome)]))
    (other : ∀ op theirs after outcome history before, op.ticker ≠ ticker → I before history →
      Transition op theirs after outcome → I before (history ++ [(op, outcome)]))
    {s : SwingRun K} (reach : (machine K).Reachable s) : I (s.states ticker) s.history := by
  refine Machine.Reachable.induct (I := fun s => I (s.states ticker) s.history) init ?_ reach
  rintro s op _ inv ⟨⟩
  have step := apply_transition s.states op
  by_cases same : op.ticker = ticker
  · subst same
    exact own _ _ _ _ _ rfl inv step
  · simp only [apply_other (Ne.symm same)]
    exact other _ _ _ _ _ _ same inv step

end SwingHandler

end StockAnomaly.Events

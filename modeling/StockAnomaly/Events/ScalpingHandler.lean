import Mathlib.Logic.Function.Basic
import StockAnomaly.Events.EventTypes
import StockAnomaly.Theory.Machine

/-!
# ScalpingHandler

`on_event` runs on the one dispatch thread and takes the lock twice, around the look-up and
around the insertion, with the executor's call between them; `check_exit` may run on any
number of threads and holds the lock across its call. The machine has one step for each
lock boundary and for each answer of the executor. `onEvent` and `checkExit` are the calls
without interleaving, and runs of the machine (**`runFrom_onEvent`**,
**`runFrom_checkExit`**).
-/

namespace StockAnomaly.Events

open StockAnomaly.Theory

structure PositionInfo (K : Type*) where
  entryPrice : K
  entryMs : ℤ

/-- The map `positions_`. -/
abbrev Positions (K : Type*) := Ticker → Option (PositionInfo K)

namespace ScalpingHandler

/-- Ten seconds. -/
def kSignalTTLMs : ℤ := 10000

variable {K : Type*} [Field K]

/-- Shares per trade. -/
def kFixedQty : K := 10

/-- Percent. -/
def kExitDropPct : K := -(3 / 2)

def isStale (event : ScalpingEvent K) (nowMs : ℤ) : Bool := kSignalTTLMs < nowMs - event.timestampMs

def buyRequest (event : ScalpingEvent K) : OrderRequest K :=
  ⟨event.ticker, event.currentPrice, kFixedQty, .buy⟩

def sellRequest (ticker : Ticker) (currentPrice : K) : OrderRequest K :=
  ⟨ticker, currentPrice, kFixedQty, .sell⟩

def insert (positions : Positions K) (event : ScalpingEvent K) (nowMs : ℤ) : Positions K :=
  Function.update positions event.ticker (some ⟨event.currentPrice, nowMs⟩)

/-- A call of `on_event`: the positions after it and the order it submitted. -/
def onEvent (positions : Positions K) (event : ScalpingEvent K) (nowMs : ℤ) (executor : OrderExecutor K) :
    Positions K × Option (Order K) :=
  if isStale event nowMs then (positions, none)
  else if (positions event.ticker).isSome then (positions, none)
  else if executor (buyRequest event) then
    (insert positions event nowMs, some ⟨buyRequest event, true⟩)
  else (positions, some ⟨buyRequest event, false⟩)

variable [LinearOrder K]

/-- The stop of a position is met, or it was held for more than a minute. -/
def exitHit (currentPrice : K) (timestampMs : ℤ) (info : PositionInfo K) : Bool :=
  (changePct currentPrice info.entryPrice).le kExitDropPct || 60000 < timestampMs - info.entryMs

/-- A call of `check_exit`; the executor's answer is not looked at. -/
def checkExit (positions : Positions K) (ticker : Ticker) (currentPrice : K) (timestampMs : ℤ)
    (executor : OrderExecutor K) : Positions K × Option (Order K) :=
  match positions ticker with
  | none => (positions, none)
  | some info =>
    if exitHit currentPrice timestampMs info then
      (Function.update positions ticker none,
        some ⟨sellRequest ticker currentPrice, executor (sellRequest ticker currentPrice)⟩)
    else (positions, none)

/-- Where the dispatch thread is in `on_event`. -/
inductive EventPc (K : Type*)
  | idle
  /-- The signal is fresh; before the look-up. -/
  | lookUp (event : ScalpingEvent K) (nowMs : ℤ)
  /-- Not holding the ticker; before the executor's call. -/
  | order (event : ScalpingEvent K) (nowMs : ℤ)
  /-- The buy was accepted; before the insertion. -/
  | insert (event : ScalpingEvent K) (nowMs : ℤ)
deriving DecidableEq

/-- Where the thread that holds the lock is in `check_exit`. -/
inductive ExitPc (K : Type*)
  /-- Before the executor's call. -/
  | order (request : OrderRequest K)
  /-- After it; before the erasure. -/
  | erase (ticker : Ticker)
deriving DecidableEq

/-- The handler, its lock and the orders submitted so far. -/
structure ScalpingRun (Tid K : Type*) where
  positions : Positions K
  eventPc : EventPc K
  /-- The lock, when a thread holds it across steps. -/
  exiting : Option (Tid × ExitPc K)
  orders : List (Order K)

inductive ScalpingAction (Tid K : Type*)
  | onEvent (event : ScalpingEvent K) (nowMs : ℤ)
  | lookUp
  | buy (accepted : Bool)
  | insert
  | lockExit (tid : Tid) (ticker : Ticker) (currentPrice : K) (timestampMs : ℤ)
  | sell (tid : Tid) (accepted : Bool)
  | erase (tid : Tid)

variable {Tid : Type*} [DecidableEq Tid]

def step (s : ScalpingRun Tid K) : ScalpingAction Tid K → Option (ScalpingRun Tid K)
  | .onEvent event nowMs =>
    match s.eventPc with
    | .idle => some (if isStale event nowMs then s else { s with eventPc := .lookUp event nowMs })
    | _ => none
  | .lookUp =>
    match s.eventPc, s.exiting with
    | .lookUp event nowMs, none =>
      some { s with eventPc := if (s.positions event.ticker).isSome then .idle else .order event nowMs }
    | _, _ => none
  | .buy accepted =>
    match s.eventPc with
    | .order event nowMs =>
      some { s with
        eventPc := if accepted then .insert event nowMs else .idle
        orders := s.orders ++ [⟨buyRequest event, accepted⟩] }
    | _ => none
  | .insert =>
    match s.eventPc, s.exiting with
    | .insert event nowMs, none =>
      some { s with eventPc := .idle, positions := insert s.positions event nowMs }
    | _, _ => none
  | .lockExit tid ticker currentPrice timestampMs =>
    match s.exiting, s.positions ticker with
    | some _, _ => none
    | none, none => some s
    | none, some info =>
      some (if exitHit currentPrice timestampMs info then
        { s with exiting := some (tid, .order (sellRequest ticker currentPrice)) } else s)
  | .sell tid accepted =>
    match s.exiting with
    | some (holder, .order request) =>
      if holder = tid then
        some { s with
          exiting := some (tid, .erase request.ticker)
          orders := s.orders ++ [⟨request, accepted⟩] }
      else none
    | _ => none
  | .erase tid =>
    match s.exiting with
    | some (holder, .erase ticker) =>
      if holder = tid then
        some { s with exiting := none, positions := Function.update s.positions ticker none }
      else none
    | _ => none

/-- The handler from its construction on, under every interleaving. -/
def machine (Tid K : Type*) [DecidableEq Tid] [Field K] [LinearOrder K] :
    Machine (ScalpingRun Tid K) (ScalpingAction Tid K) where
  init := ⟨fun _ => none, .idle, none, []⟩
  step := step

/-- No call of the handler is in progress. -/
def ScalpingRun.Quiescent (s : ScalpingRun Tid K) : Prop := s.eventPc = .idle ∧ s.exiting = none

instance (s : ScalpingRun Tid K) : Decidable s.Quiescent := inferInstanceAs (Decidable (_ ∧ _))

/-- **An uninterrupted `on_event`** is a run of the machine. -/
theorem runFrom_onEvent {s : ScalpingRun Tid K} (quiet : s.Quiescent) (event : ScalpingEvent K) (nowMs : ℤ)
    (executor : OrderExecutor K) :
    ∃ acts, (machine Tid K).runFrom s acts = some { s with
      positions := (onEvent s.positions event nowMs executor).1
      orders := s.orders ++ (onEvent s.positions event nowMs executor).2.toList } := by
  obtain ⟨idle, free⟩ := quiet
  obtain ⟨positions, eventPc, exiting, orders⟩ := s
  simp only at idle free
  subst idle free
  unfold onEvent
  split
  case isTrue stale => exact ⟨[.onEvent event nowMs], by simp [Machine.runFrom, machine, step, stale]⟩
  case isFalse fresh =>
  split
  case isTrue held =>
    exact ⟨[.onEvent event nowMs, .lookUp], by simp [Machine.runFrom, machine, step, fresh, held]⟩
  case isFalse absent =>
  split
  case isTrue accepted =>
    exact ⟨[.onEvent event nowMs, .lookUp, .buy true, .insert],
      by simp [Machine.runFrom, machine, step, fresh, absent]⟩
  case isFalse rejected =>
    exact ⟨[.onEvent event nowMs, .lookUp, .buy false],
      by simp [Machine.runFrom, machine, step, fresh, absent]⟩

/-- **An uninterrupted `check_exit`** is a run of the machine. -/
theorem runFrom_checkExit {s : ScalpingRun Tid K} (quiet : s.Quiescent) (tid : Tid) (ticker : Ticker)
    (currentPrice : K) (timestampMs : ℤ) (executor : OrderExecutor K) :
    ∃ acts, (machine Tid K).runFrom s acts = some { s with
      positions := (checkExit s.positions ticker currentPrice timestampMs executor).1
      orders := s.orders ++ (checkExit s.positions ticker currentPrice timestampMs executor).2.toList } := by
  obtain ⟨idle, free⟩ := quiet
  obtain ⟨positions, eventPc, exiting, orders⟩ := s
  simp only at idle free
  subst idle free
  unfold checkExit
  cases found : positions ticker with
  | none =>
    exact ⟨[.lockExit tid ticker currentPrice timestampMs], by simp [Machine.runFrom, machine, step, found]⟩
  | some info =>
    simp only [found]
    split
    case isTrue hit =>
      exact ⟨[.lockExit tid ticker currentPrice timestampMs,
        .sell tid (executor (sellRequest ticker currentPrice)), .erase tid],
        by simp [Machine.runFrom, machine, step, found, hit, sellRequest]⟩
    case isFalse miss =>
      exact ⟨[.lockExit tid ticker currentPrice timestampMs],
        by simp [Machine.runFrom, machine, step, found, miss]⟩

end ScalpingHandler

end StockAnomaly.Events

import StockAnomaly.Engine.Provenance

/-!
# Which candle decides an entry

An AI signal names its candle by ticker and close time only, and a quarter and an hour can
close at the same time. So an answer to one can decide the entry that the other armed. The
decisions of a run are those of the arming candles exactly if every timely answer that
matches the armed close time is about a candle of the arming candle's window length:
**`decidedByArming_iff`**.
-/

namespace StockAnomaly.Engine

open StockAnomaly.Theory StockAnomaly.Aggregation StockAnomaly.Events SwingHandler

variable {K : Type*}

/-- The dispatch armed its ticker. -/
def Dispatch.arms (ticker : Ticker) (d : Dispatch K) : Bool :=
  d.op.ticker = ticker &&
    match d.outcome with
    | .armed => true
    | _ => false

/-- The candle whose closed event armed a ticker last. -/
def armedBy (ticker : Ticker) (dispatched : List (Dispatch K)) : Option (Candle K) :=
  (dispatched.reverse.find? (·.arms ticker)).map Dispatch.candle

theorem armedBy_arms {ticker : Ticker} {dispatched : List (Dispatch K)} {d : Dispatch K}
    (arms : d.arms ticker = true) : armedBy ticker (dispatched ++ [d]) = some d.candle := by
  simp [armedBy, arms]

theorem armedBy_other {ticker : Ticker} {dispatched : List (Dispatch K)} {d : Dispatch K}
    (other : d.arms ticker = false) : armedBy ticker (dispatched ++ [d]) = armedBy ticker dispatched := by
  simp [armedBy, other]

/-- The dispatch submitted a buy, or disarmed its ticker for lack of conviction. -/
def Dispatch.Decides (d : Dispatch K) : Prop :=
  d.outcome = .disarmed .noConviction ∨ ∃ o, d.outcome = .submitted o ∧ o.request.side = .buy

/-- Every decision was made by a signal computed from the candle that armed the ticker last. -/
def DecidedByArming (dispatched : List (Dispatch K)) : Prop :=
  ∀ before d after, dispatched = before ++ d :: after → d.Decides →
    armedBy d.op.ticker before = some d.candle

theorem decidedByArming_snoc {dispatched : List (Dispatch K)} {d : Dispatch K}
    (h : DecidedByArming dispatched) :
    DecidedByArming (dispatched ++ [d]) ↔ (d.Decides → armedBy d.op.ticker dispatched = some d.candle) := by
  constructor
  · intro after
    exact after dispatched d [] rfl
  · intro last before d' after split decides
    rcases split_snoc split with ⟨rfl, rfl⟩ | ⟨rest, -, inside⟩
    · obtain ⟨rfl, -⟩ := List.append_inj' split rfl
      exact last decides
    · exact h before d' rest inside decides

/-- What the state of an armed ticker says about the dispatches. -/
def ArmedRecord (s : EngineState K) : Prop :=
  ∀ ticker ts, s.states ticker = some ts → ts.state = .armed →
    ∃ candle, armedBy ticker s.dispatched = some candle ∧ candle ∈ s.emitted ∧ candle.ticker = ticker ∧
      candle.closeTimeMs = ts.candleCloseTimeMs

variable [Field K] [LinearOrder K]

/-- The head of the bus is dispatched. -/
theorem ArmedRecord.dispatchSwing {s : EngineState K} (h : ArmedRecord s) (provenance : Provenance s)
    {event : SwingEvent K} {candle : Candle K} {rest : List (SwingEvent K × Candle K)}
    (head : s.swingBus = (event, candle) :: rest) (nowMs entryMs : ℤ) (executor : OrderExecutor K) :
    ArmedRecord (s.dispatchSwing event candle rest nowMs entryMs executor) := by
  obtain ⟨about, emitted⟩ := provenance.head head
  intro ticker ts found armed
  by_cases own : ticker = event.ticker
  · subst own
    have step := apply_transition s.states (.onEvent event nowMs entryMs executor)
    have keep : ∀ d : Dispatch K, d.arms event.ticker = false → s.states event.ticker = some ts →
        ∃ candle, armedBy event.ticker (s.dispatched ++ [d]) = some candle ∧ candle ∈ s.emitted ∧
          candle.ticker = event.ticker ∧ candle.closeTimeMs = ts.candleCloseTimeMs := by
      intro d other found
      rw [armedBy_other other]
      exact h event.ticker ts found armed
    simp only [EngineState.dispatchSwing] at found ⊢
    simp only [SwingOp.ticker, found] at step
    generalize before : s.states event.ticker = old at step
    generalize (apply s.states (.onEvent event nowMs entryMs executor)).2 = outcome at step ⊢
    cases step with
    | ignored => exact keep _ (by simp [Dispatch.arms]) before
    | armed closed =>
      refine ⟨candle, armedBy_arms (by simp [Dispatch.arms, SwingOp.ticker]), emitted, about.ticker.symm, ?_⟩
      exact (about.closeTimeMs_closed closed).symm
    | windowExpired | noConviction | ttlExpired | bought => cases armed
    | buyRejected => exact keep _ (by simp [Dispatch.arms]) before
  · have other : Dispatch.arms ticker ⟨.onEvent event nowMs entryMs executor,
        (apply s.states (.onEvent event nowMs entryMs executor)).2, candle⟩ = false := by
      simp [Dispatch.arms, SwingOp.ticker, Ne.symm own]
    simp only [EngineState.dispatchSwing] at found ⊢
    rw [apply_other own] at found
    rw [armedBy_other other]
    exact h ticker ts found armed

variable [Sqrt K]

theorem armedRecord_step {s s' : EngineState K} {a : EngineAction K} (h : ArmedRecord s)
    (provenance : Provenance s) (taken : (machine K).step s a = some s') : ArmedRecord s' := by
  cases step_cases taken with
  | tick =>
    intro ticker ts found armed
    obtain ⟨candle, armedBy, mem, rest⟩ := h ticker ts found armed
    exact ⟨candle, armedBy, List.mem_append_left _ mem, rest⟩
  | dispatchSwing head => exact h.dispatchSwing provenance head _ _ _
  | _ => exact h

namespace Pipeline

/-- **An armed ticker was armed by an emitted candle with the armed close time.** -/
theorem armedRecord {s : Pipeline K} (reach : (machine K).Reachable s) : ArmedRecord s.engine := by
  refine engine_induct ?_ ?_ reach
  · rintro _ _ ⟨⟩
  · intro s a s' origin record moved
    exact armedRecord_step record origin moved

/-- The step dispatches a signal that answers the armed close time of its ticker in time only
if the signal's candle is of the window length of the arming candle. -/
def SameWindow (s : Pipeline K) (a : PipelineAction K) : Prop :=
  ∀ nowMs entryMs executor event candle rest ts arming, a = .engine (.dispatchSwing nowMs entryMs executor) →
    s.engine.swingBus = (event, candle) :: rest → s.engine.states event.ticker = some ts →
    Answers event ts → nowMs - ts.armedAtMs ≤ kArmedTTLMs →
    armedBy event.ticker s.engine.dispatched = some arming → candle.windowMinutes = arming.windowMinutes

/-- A dispatch leaves its decision to the arming candle exactly if the window lengths agree. -/
theorem decides_iff {s : Pipeline K} (reach : (machine K).Reachable s) {event : SwingEvent K}
    {candle : Candle K} {rest : List (SwingEvent K × Candle K)}
    (head : s.engine.swingBus = (event, candle) :: rest) (nowMs entryMs : ℤ) (executor : OrderExecutor K) :
    (Dispatch.Decides ⟨.onEvent event nowMs entryMs executor,
          (apply s.engine.states (.onEvent event nowMs entryMs executor)).2, candle⟩ →
        armedBy event.ticker s.engine.dispatched = some candle) ↔
      SameWindow s (.engine (.dispatchSwing nowMs entryMs executor)) := by
  constructor
  · rintro by_arming _ _ _ event' candle' rest' ts arming ⟨⟩ head' found answers inTime armed
    obtain ⟨⟨rfl, rfl⟩, -⟩ : (event = event' ∧ candle = candle') ∧ rest = rest' := by
      simpa [head] using head'
    have decides : Dispatch.Decides ⟨.onEvent event nowMs entryMs executor,
        (apply s.engine.states (.onEvent event nowMs entryMs executor)).2, candle⟩ := by
      by_cases weak : event.aiSignal.direction ≠ "BUY_READY" ∨ event.aiSignal.bullProbability < kMinBullProb
      · exact .inl (apply_weak found answers inTime weak)
      · rw [not_or, not_not, not_lt] at weak
        exact .inr ⟨_, apply_justified found
          { answers with inTime := inTime, direction := weak.1, conviction := weak.2 }, rfl⟩
    have same : candle = arming := Option.some.inj ((by_arming decides).symm.trans armed)
    rw [same]
  · intro same decides
    have step := apply_transition s.engine.states (.onEvent event nowMs entryMs executor)
    obtain ⟨_, _, _, _, ts, ⟨⟩, found, answers, inTime⟩ := step.decided decides
    obtain ⟨arming, armed, mem, own, close⟩ := armedRecord reach event.ticker ts found answers.armed
    have origin := (provenance reach).engine
    obtain ⟨about, mem'⟩ := origin.head head
    have window := same nowMs entryMs executor event candle rest ts arming rfl head found answers inTime armed
    -- ticker and close time agree by the message, the window length by the condition
    have key : candle.key = arming.key := by
      rw [Candle.key, Candle.key, window, own, close, ← about.ticker, ← answers.matched,
        about.closeTimeMs_confirmed answers.confirmed]
    have unique : candle = arming := origin.identified.unique mem' mem key
    rw [armed, unique]

/-- **An entry is decided by the candle that armed it, in all states of a run, exactly if no
timely answer crosses the window lengths in it.** -/
theorem decidedByArming_iff (acts : List (PipelineAction K)) (s : Pipeline K)
    (run : (machine K).run acts = some s) :
    (machine K).Always (fun s => DecidedByArming s.engine.dispatched) acts ↔
      (machine K).Along SameWindow (machine K).init acts := by
  refine Machine.always_iff_along (P := fun s : Pipeline K => DecidedByArming s.engine.dispatched)
    ?_ ?_ acts s run
  · intro before d after split
    cases before <;> cases split
  · intro s a s' reach h taken
    rcases dispatched_cases taken with
      ⟨event, candle, rest, nowMs, entryMs, executor, rfl, head, next⟩ | ⟨other, same⟩
    · rw [next, ← decides_iff reach head]
      exact decidedByArming_snoc h
    · rw [same]
      refine iff_of_true h ?_
      intro nowMs entryMs executor _ _ _ _ _ dispatch
      exact absurd dispatch (other nowMs entryMs executor)

/-- A buy decided by the quarter that armed A. -/
theorem decidedByArming_iff_quarter :
    (machine ℚ).Always (fun s => DecidedByArming s.engine.dispatched) quarterAnswered := by
  obtain ⟨s, run, -⟩ := (machine ℚ).exists_of_any quarterAnswered (fun _ => true) (by decide +kernel)
  refine (decidedByArming_iff _ s run).2 ?_
  -- every dispatched event is about a candle of the window length that armed its ticker
  refine Machine.along_of_check (p := fun s _ => s.engine.swingBus.head?.all fun e =>
    (armedBy e.1.ticker s.engine.dispatched).all (·.windowMinutes = e.2.windowMinutes)) ?_ (by decide +kernel)
  intro s a same _ _ _ event candle rest ts arming _ head _ _ _ armed
  rw [head] at same
  simp only [List.head?_cons, Option.all_some, armed, decide_eq_true_eq] at same
  exact same.symm

/-- The hour has armed A, and the answer to the quarter buys. -/
def boughtByQuarter (dispatched : List (Dispatch ℚ)) : Bool :=
  match dispatched with
  | [quarter, hour, answer] =>
    answer.op.ticker = "A" && answer.outcome = .submitted ⟨⟨"A", 100, 50, .buy⟩, true⟩ &&
      (armedBy "A" [quarter, hour]).map Candle.windowMinutes = some 60 && answer.candle.windowMinutes = 15
  | _ => false

/-- **A quarter decides the entry of the hour.** A quarter and an hour of A close at the same
time; the answer to the quarter comes after the hour has armed A, and buys. -/
theorem quarter_decides_hour :
    ¬ ∀ s : Pipeline ℚ, (machine ℚ).Reachable s → DecidedByArming s.engine.dispatched := by
  intro decided
  obtain ⟨s, run, found⟩ := (machine ℚ).exists_of_any
    [.engine (.tick ⟨"A", 100, 1, 2700000⟩), .engine .pushed, .engine (.tick ⟨"A", 100, 1, 3600000⟩),
      .engine (.send true), .engine (.send true), .engine (.send true), .engine (.send true), .engine .pushed,
      .answer 0 (7 / 10) (3 / 10) "BUY_READY", .consume 0,
      .engine (.dispatchSwing 0 0 makeOrderExecutor), .engine (.dispatchSwing 1 1 makeOrderExecutor),
      .engine (.dispatchSwing 2 2 makeOrderExecutor)]
    (fun s => boughtByQuarter s.engine.dispatched) (by decide +kernel)
  unfold boughtByQuarter at found
  split at found
  case h_2 => cases found
  case h_1 quarter hour answer dispatched =>
    simp only [Bool.and_eq_true, decide_eq_true_eq] at found
    obtain ⟨⟨⟨own, bought⟩, armed⟩, window⟩ := found
    have by_arming := decided s ⟨_, run⟩ [quarter, hour] answer [] dispatched (.inr ⟨_, bought, rfl⟩)
    rw [own] at by_arming
    rw [by_arming, Option.map_some, window] at armed
    cases armed

end Pipeline

end StockAnomaly.Engine

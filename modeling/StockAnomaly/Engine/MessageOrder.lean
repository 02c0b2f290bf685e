import StockAnomaly.Engine.Provenance

/-!
# The answer that overtakes its candle

The callback sends a closed candle to Kafka before it puts the closed event on the bus, so
the answer can be on the bus first. The handler then drops the answer, and the closed event
arms the ticker for an answer that has already been. For a ticker that closes one candle,
with a strong answer in time, a buy follows the two events exactly if the closed event is
not dispatched after the answer (**`kept_iff`**), and the answer is first only if the AI
consumer handles it between the two sends of the callback (**`overtaken_in_gap`**).
-/

namespace StockAnomaly.Engine

open StockAnomaly.Theory StockAnomaly.Aggregation StockAnomaly.Events SwingHandler

variable {K : Type*}

/-- An event about `candle` in this state was dispatched at this clock reading. -/
def Seen (candle : Candle K) (state : SwingState) (nowMs : ℤ) (dispatched : List (Dispatch K)) : Prop :=
  ∃ event entryMs executor outcome,
    ⟨.onEvent event nowMs entryMs executor, outcome, candle⟩ ∈ dispatched ∧ event.state = state

/-- An accepted buy of the ticker was submitted. -/
def Bought (ticker : Ticker) (dispatched : List (Dispatch K)) : Prop := ∃ d ∈ dispatched, d.IsBuy ticker

/-- If both events of the candle have been dispatched, its ticker was bought. -/
def Kept (candle : Candle K) (dispatched : List (Dispatch K)) : Prop :=
  ∀ closedMs confirmedMs, Seen candle .candleClosed closedMs dispatched →
    Seen candle .aiConfirmed confirmedMs dispatched → Bought candle.ticker dispatched

theorem seen_snoc {candle candle' : Candle K} {state : SwingState} {nowMs nowMs' entryMs : ℤ}
    {dispatched : List (Dispatch K)} {event : SwingEvent K} {executor : OrderExecutor K} {outcome : Outcome K} :
    Seen candle state nowMs (dispatched ++ [⟨.onEvent event nowMs' entryMs executor, outcome, candle'⟩]) ↔
      Seen candle state nowMs dispatched ∨ candle = candle' ∧ event.state = state ∧ nowMs = nowMs' := by
  constructor
  · rintro ⟨event, entryMs, executor, outcome, mem, here⟩
    rcases List.mem_append.1 mem with old | last
    · exact .inl ⟨event, entryMs, executor, outcome, old, here⟩
    · cases List.mem_singleton.1 last
      exact .inr ⟨rfl, here, rfl⟩
  · rintro (⟨event, entryMs, executor, outcome, old, here⟩ | ⟨rfl, here, rfl⟩)
    · exact ⟨event, entryMs, executor, outcome, List.mem_append_left _ old, here⟩
    · exact ⟨event, entryMs, executor, outcome, by simp, here⟩

theorem bought_snoc {ticker : Ticker} {dispatched : List (Dispatch K)} {d : Dispatch K} :
    Bought ticker (dispatched ++ [d]) ↔ Bought ticker dispatched ∨ d.IsBuy ticker := by
  simp [Bought, or_and_right, exists_or]

variable [Field K] [LinearOrder K]

/-- The ticker of `candle` closes no other candle, and every answer is strong, is accepted by
the executor and is dispatched within the armed window of the candle's closed event. -/
structure SingleCandle (candle : Candle K) (s : EngineState K) : Prop where
  only : ∀ c ∈ s.emitted, c.ticker = candle.ticker → c = candle
  strong : ∀ event nowMs entryMs executor outcome,
    ⟨.onEvent event nowMs entryMs executor, outcome, candle⟩ ∈ s.dispatched → event.state = .aiConfirmed →
      event.aiSignal.direction = "BUY_READY" ∧ kMinBullProb ≤ event.aiSignal.bullProbability
  accepted : ∀ event nowMs entryMs executor outcome,
    ⟨.onEvent event nowMs entryMs executor, outcome, candle⟩ ∈ s.dispatched → event.state = .aiConfirmed →
      executor (buyRequest event.ticker event.close) = true
  inTime : ∀ closedMs confirmedMs, Seen candle .candleClosed closedMs s.dispatched →
    Seen candle .aiConfirmed confirmedMs s.dispatched → confirmedMs - closedMs ≤ kArmedTTLMs

/-- The records of an earlier state. -/
theorem SingleCandle.back {candle : Candle K} {s s' : EngineState K} (h : SingleCandle candle s')
    (emitted : s.emitted <+: s'.emitted) (dispatched : s.dispatched <+: s'.dispatched) :
    SingleCandle candle s where
  only c mem := h.only c (emitted.subset mem)
  strong event nowMs entryMs executor outcome mem :=
    h.strong event nowMs entryMs executor outcome (dispatched.subset mem)
  accepted event nowMs entryMs executor outcome mem :=
    h.accepted event nowMs entryMs executor outcome (dispatched.subset mem)
  inTime := by
    rintro closedMs confirmedMs ⟨event, entryMs, executor, outcome, mem, closed⟩
      ⟨event', entryMs', executor', outcome', mem', confirmed⟩
    exact h.inTime closedMs confirmedMs ⟨event, entryMs, executor, outcome, dispatched.subset mem, closed⟩
      ⟨event', entryMs', executor', outcome', dispatched.subset mem', confirmed⟩

/-- The closed event of the candle armed the ticker. -/
structure ArmedFor (candle : Candle K) (dispatched : List (Dispatch K)) (ts : TickerState K) : Prop where
  armed : ts.state = .armed
  free : ts.inPosition = false
  close : ts.candleCloseTimeMs = candle.closeTimeMs
  seen : Seen candle .candleClosed ts.armedAtMs dispatched

/-- How far the ticker of a single candle has come. -/
inductive Phase (candle : Candle K) (dispatched : List (Dispatch K)) : Option (TickerState K) → Prop
  | waiting (unseen : ∀ nowMs, ¬ Seen candle .candleClosed nowMs dispatched)
      (not_bought : ¬ Bought candle.ticker dispatched) : Phase candle dispatched none
  | armed {ts : TickerState K} (armed : ArmedFor candle dispatched ts) : Phase candle dispatched (some ts)
  | bought {ts : TickerState K} {closedMs : ℤ} (held : ts.inPosition = true)
      (seen : Seen candle .candleClosed closedMs dispatched)
      (bought : Bought candle.ticker dispatched) : Phase candle dispatched (some ts)

variable {candle : Candle K} {s : EngineState K} {event : SwingEvent K}
  {rest : List (SwingEvent K × Candle K)} {nowMs entryMs : ℤ} {executor : OrderExecutor K}

omit [LinearOrder K] in
/-- The closed event of a candle is dispatched once. -/
theorem Provenance.undispatched (h : Provenance s) (head : s.swingBus = (event, candle) :: rest)
    (closed : event.state = .candleClosed) :
    candle ∉ closedCandles (s.dispatched.filterMap Dispatch.event) := by
  intro before
  have now : candle ∈ closedCandles s.swingBus := by
    rw [head]
    exact mem_closedCandles.2 ⟨event, List.mem_cons_self, closed⟩
  -- the candles of the closed events are emitted candles, each once
  have nodup : (closedCandles s.published).Nodup := by
    have emitted : s.emitted.Nodup := List.Nodup.of_map _ h.identified.nodup
    rw [← h.once] at emitted
    exact (List.nodup_append'.1 emitted).1
  rw [EngineState.published, closedCandles_append] at nodup
  exact (List.nodup_append'.1 nodup).2.2 before now

omit [LinearOrder K] in
theorem Provenance.unseen (h : Provenance s) (head : s.swingBus = (event, candle) :: rest)
    (closed : event.state = .candleClosed) : ∀ nowMs, ¬ Seen candle .candleClosed nowMs s.dispatched := by
  rintro nowMs ⟨event', entryMs, executor, outcome, mem, closed'⟩
  apply h.undispatched head closed
  exact mem_closedCandles.2 ⟨event', List.mem_filterMap.2 ⟨_, mem, rfl⟩, closed'⟩

/-- The events of the ticker are those about its candle. -/
theorem SingleCandle.ticker_eq {c : Candle K} (single : SingleCandle candle s) (h : Provenance s)
    (head : s.swingBus = (event, c) :: rest) (own : event.ticker = candle.ticker) : c = candle := by
  obtain ⟨about, emitted⟩ := h.head head
  exact single.only c emitted (about.ticker.symm.trans own)

/-- A strong answer in time to the candle that armed the ticker submits the buy. -/
theorem SingleCandle.submits {ts : TickerState K}
    (single : SingleCandle candle (s.dispatchSwing event candle rest nowMs entryMs executor))
    (about : About event candle) (confirmed : event.state = .aiConfirmed)
    (found : s.states candle.ticker = some ts) (h : ArmedFor candle s.dispatched ts) :
    (apply s.states (.onEvent event nowMs entryMs executor)).2 =
      .submitted ⟨buyRequest event.ticker event.close, true⟩ := by
  have mem : ⟨.onEvent event nowMs entryMs executor,
      (apply s.states (.onEvent event nowMs entryMs executor)).2, candle⟩ ∈
        (s.dispatchSwing event candle rest nowMs entryMs executor).dispatched := by
    simp [EngineState.dispatchSwing]
  obtain ⟨direction, conviction⟩ := single.strong _ _ _ _ _ mem confirmed
  have inTime : nowMs - ts.armedAtMs ≤ kArmedTTLMs :=
    single.inTime _ _ (seen_snoc.2 (.inl h.seen)) (seen_snoc.2 (.inr ⟨rfl, confirmed, rfl⟩))
  have justified : Justified event nowMs ts := {
    confirmed := confirmed
    armed := h.armed
    free := h.free
    matched := (about.closeTimeMs_confirmed confirmed).trans h.close.symm
    inTime := inTime
    direction := direction
    conviction := conviction }
  rw [← about.ticker] at found
  rw [apply_justified found justified, single.accepted _ _ _ _ _ mem confirmed]

omit [LinearOrder K] in
/-- The closed event comes to a ticker that has seen none. -/
theorem Phase.waiting_of_closed (phase : Phase candle s.dispatched (s.states candle.ticker))
    (provenance : Provenance s) (head : s.swingBus = (event, candle) :: rest)
    (closed : event.state = .candleClosed) :
    s.states candle.ticker = none ∧ ¬ Bought candle.ticker s.dispatched := by
  have unseen := provenance.unseen head closed
  generalize s.states candle.ticker = ts at phase
  cases phase with
  | waiting _ not_bought => exact ⟨rfl, not_bought⟩
  | armed armed => exact absurd armed.seen (unseen _)
  | bought _ seen => exact absurd seen (unseen _)

/-- The closed event arms a ticker that waits for it. -/
theorem dispatchSwing_closed (about : About event candle) (closed : event.state = .candleClosed)
    (unknown : s.states candle.ticker = none) :
    apply s.states (.onEvent event nowMs entryMs executor) =
      (Function.update s.states candle.ticker (some { TickerState.zero with
        state := .armed, armedAtMs := nowMs, candleCloseTimeMs := candle.closeTimeMs }), .armed) := by
  rw [← about.ticker] at unknown ⊢
  rw [apply_closed closed (by rw [unknown]; rfl), unknown, about.closeTimeMs_closed closed]
  rfl

/-- An event of another ticker. -/
theorem Phase.other {ts : Option (TickerState K)} {event : SwingEvent K} {c : Candle K}
    {nowMs entryMs : ℤ} {executor : OrderExecutor K} {states : SwingStates K} {dispatched : List (Dispatch K)}
    (phase : Phase candle dispatched ts) (other : c ≠ candle) (other_ticker : event.ticker ≠ candle.ticker) :
    Phase candle (dispatched ++ [⟨.onEvent event nowMs entryMs executor,
      (apply states (.onEvent event nowMs entryMs executor)).2, c⟩]) ts := by
  have unseen : ∀ {state n}, Seen candle state n (dispatched ++ [⟨.onEvent event nowMs entryMs executor,
      (apply states (.onEvent event nowMs entryMs executor)).2, c⟩]) → Seen candle state n dispatched := by
    intro state n seen
    exact (seen_snoc.1 seen).resolve_right fun here => other here.1.symm
  cases phase with
  | waiting unseen' not_bought =>
    refine .waiting (fun n seen => unseen' n (unseen seen)) ?_
    rw [bought_snoc]
    rintro (bought | ⟨o, submitted, own, -⟩)
    · exact not_bought bought
    · have step := apply_transition states (.onEvent event nowMs entryMs executor)
      dsimp only at submitted
      rw [submitted] at step
      exact other_ticker (step.order_ticker.symm.trans own)
  | armed armed => exact .armed { armed with seen := seen_snoc.2 (.inl armed.seen) }
  | bought held seen bought => exact .bought held (seen_snoc.2 (.inl seen)) (bought_snoc.2 (.inl bought))

/-- An answer to the candle. -/
theorem Phase.confirmed (phase : Phase candle s.dispatched (s.states candle.ticker))
    (single : SingleCandle candle (s.dispatchSwing event candle rest nowMs entryMs executor))
    (about : About event candle) (confirmed : event.state = .aiConfirmed) :
    Phase candle (s.dispatchSwing event candle rest nowMs entryMs executor).dispatched
      ((s.dispatchSwing event candle rest nowMs entryMs executor).states candle.ticker) := by
  have step := apply_transition s.states (.onEvent event nowMs entryMs executor)
  have own := about.ticker
  simp only [EngineState.dispatchSwing]
  simp only [SwingOp.ticker, own] at step
  generalize before : s.states candle.ticker = ts at phase step
  cases phase with
  | waiting unseen not_bought =>
    obtain ⟨kept, dropped⟩ := step.unknown (by rw [confirmed]; decide)
    rw [kept, dropped]
    constructor
    · intro n seen
      rcases seen_snoc.1 seen with old | ⟨-, closed, -⟩
      · exact unseen n old
      · rw [confirmed] at closed
        cases closed
    · rw [bought_snoc]
      rintro (bought | ⟨o, ⟨⟩, -⟩)
      exact not_bought bought
  | armed armed =>
    rw [single.submits about confirmed before armed] at step ⊢
    generalize (apply s.states (.onEvent event nowMs entryMs executor)).1 candle.ticker = after at step ⊢
    cases step with
    | bought =>
      exact .bought rfl (seen_snoc.2 (.inl armed.seen)) (bought_snoc.2 (.inr ⟨_, rfl, own, rfl, rfl⟩))
  | bought held seen bought =>
    have kept := step.held held (by rw [confirmed]; decide)
    rw [kept]
    exact .bought held (seen_snoc.2 (.inl seen)) (bought_snoc.2 (.inl bought))

/-- One dispatch. -/
theorem Phase.dispatchSwing {c : Candle K} (phase : Phase candle s.dispatched (s.states candle.ticker))
    (provenance : Provenance s) (head : s.swingBus = (event, c) :: rest)
    (single : SingleCandle candle (s.dispatchSwing event c rest nowMs entryMs executor)) :
    Phase candle (s.dispatchSwing event c rest nowMs entryMs executor).dispatched
      ((s.dispatchSwing event c rest nowMs entryMs executor).states candle.ticker) := by
  have before : SingleCandle candle s := single.back List.prefix_rfl (List.prefix_append ..)
  by_cases own : c = candle
  · subst own
    obtain ⟨about, -⟩ := provenance.head head
    rcases about.state with closed | confirmed
    · obtain ⟨unknown, -⟩ := phase.waiting_of_closed provenance head closed
      simp only [EngineState.dispatchSwing, dispatchSwing_closed about closed unknown, Function.update_self]
      exact .armed ⟨rfl, rfl, rfl, seen_snoc.2 (.inr ⟨rfl, closed, rfl⟩)⟩
    · exact phase.confirmed single about confirmed
  · have other : event.ticker ≠ candle.ticker := fun same => own (before.ticker_eq provenance head same)
    have kept : (s.dispatchSwing event c rest nowMs entryMs executor).states candle.ticker =
        s.states candle.ticker := apply_other (Ne.symm other)
    rw [kept]
    exact phase.other own other

/-- One dispatch keeps the answer unless it dispatches the closed event after an answer. -/
theorem kept_dispatchSwing {c : Candle K} (phase : Phase candle s.dispatched (s.states candle.ticker))
    (provenance : Provenance s) (head : s.swingBus = (event, c) :: rest)
    (single : SingleCandle candle (s.dispatchSwing event c rest nowMs entryMs executor))
    (kept : Kept candle s.dispatched) :
    Kept candle (s.dispatchSwing event c rest nowMs entryMs executor).dispatched ↔
      ¬ (c = candle ∧ event.state = .candleClosed ∧
        ∃ confirmedMs, Seen candle .aiConfirmed confirmedMs s.dispatched) := by
  by_cases overtaken : c = candle ∧ event.state = .candleClosed
  · obtain ⟨rfl, closed⟩ := overtaken
    obtain ⟨about, -⟩ := provenance.head head
    obtain ⟨unknown, not_bought⟩ := phase.waiting_of_closed provenance head closed
    simp only [closed, true_and]
    have none_bought : ¬ Bought c.ticker (s.dispatchSwing event c rest nowMs entryMs executor).dispatched := by
      simp only [EngineState.dispatchSwing, dispatchSwing_closed about closed unknown]
      rw [bought_snoc]
      rintro (bought | ⟨o, ⟨⟩, -⟩)
      exact not_bought bought
    constructor
    · rintro after ⟨confirmedMs, answer⟩
      exact none_bought (after nowMs confirmedMs (seen_snoc.2 (.inr ⟨rfl, closed, rfl⟩))
        (seen_snoc.2 (.inl answer)))
    · intro none_answered closedMs confirmedMs _ answer
      rcases seen_snoc.1 answer with old | ⟨-, confirmed, -⟩
      · exact absurd ⟨confirmedMs, old⟩ none_answered
      · rw [closed] at confirmed
        cases confirmed
  · have not_overtaken : ¬ (c = candle ∧ event.state = .candleClosed ∧
        ∃ confirmedMs, Seen candle .aiConfirmed confirmedMs s.dispatched) := by
      rintro ⟨own, closed, -⟩
      exact overtaken ⟨own, closed⟩
    refine iff_of_true ?_ not_overtaken
    intro closedMs confirmedMs seen answer
    -- the closed event is an earlier one
    have earlier : Seen candle .candleClosed closedMs s.dispatched := by
      obtain old | ⟨own, closed, -⟩ := seen_snoc.1 seen
      · exact old
      · exact absurd ⟨own.symm, closed⟩ overtaken
    rcases seen_snoc.1 answer with old | ⟨own, confirmed, -⟩
    · exact bought_snoc.2 (.inl (kept closedMs confirmedMs earlier old))
    · subst own
      apply bought_snoc.2
      generalize found : s.states candle.ticker = ts at phase
      cases phase with
      | waiting unseen => exact absurd earlier (unseen _)
      | armed armed =>
        obtain ⟨about, -⟩ := provenance.head head
        rw [single.submits about confirmed found armed]
        exact .inr ⟨_, rfl, about.ticker, rfl, rfl⟩
      | bought _ _ bought => exact .inl bought

variable [Sqrt K]

theorem Phase.step {s s' : EngineState K} {a : EngineAction K}
    (phase : Phase candle s.dispatched (s.states candle.ticker)) (provenance : Provenance s)
    (single : SingleCandle candle s') (taken : (machine K).step s a = some s') :
    Phase candle s'.dispatched (s'.states candle.ticker) := by
  cases step_cases taken with
  | dispatchSwing head => exact phase.dispatchSwing provenance head single
  | _ => exact phase

namespace Pipeline

/-- The records of a pipeline only grow. -/
theorem singleCandle_back {s s' : Pipeline K} {a : PipelineAction K} (taken : (machine K).step s a = some s')
    (single : SingleCandle candle s'.engine) : SingleCandle candle s.engine := by
  cases step_cases taken with
  | engine _ moved => exact single.back (records_grow moved).1 (records_grow moved).2
  | answer => exact single
  | consume _ moved => exact single.back (records_grow moved).1 (records_grow moved).2

theorem phase {s : Pipeline K} (reach : (machine K).Reachable s) (single : SingleCandle candle s.engine) :
    Phase candle s.engine.dispatched (s.engine.states candle.ticker) := by
  refine engine_induct (I := fun s => SingleCandle candle s → Phase candle s.dispatched (s.states candle.ticker))
    ?_ ?_ reach single
  · intro _
    apply Phase.waiting
    · rintro _ ⟨_, _, _, _, ⟨⟩, _⟩
    · rintro ⟨_, ⟨⟩, _⟩
  · intro s a s' origin ih moved single
    have grow := records_grow moved
    exact (ih (single.back grow.1 grow.2)).step origin single moved

/-- The step dispatches the closed event of the candle after an answer to it. -/
def Overtaken (candle : Candle K) (s : Pipeline K) (a : PipelineAction K) : Prop :=
  ∃ nowMs entryMs executor event rest confirmedMs, a = .engine (.dispatchSwing nowMs entryMs executor) ∧
    s.engine.swingBus = (event, candle) :: rest ∧ event.state = .candleClosed ∧
    Seen candle .aiConfirmed confirmedMs s.engine.dispatched

/-- **No confirmation is lost, in all states of a run, exactly if the closed event of the candle
is never dispatched after an answer to it.** -/
theorem kept_iff (candle : Candle K) (acts : List (PipelineAction K)) (s : Pipeline K)
    (run : (machine K).run acts = some s) (single : SingleCandle candle s.engine) :
    (machine K).Always (fun s => Kept candle s.engine.dispatched) acts ↔
      (machine K).Along (fun s a => ¬ Overtaken candle s a) (machine K).init acts := by
  refine Machine.always_iff_along_of (P := fun s : Pipeline K => Kept candle s.engine.dispatched)
    (H := fun s => SingleCandle candle s.engine) ?_ (fun _ _ _ => singleCandle_back) ?_ acts s run single
  · rintro _ _ ⟨_, _, _, _, ⟨⟩, _⟩
  · intro s a s' reach single kept taken
    have phase := phase reach (singleCandle_back taken single)
    rcases dispatched_cases taken with
      ⟨event, c, rest, nowMs, entryMs, executor, rfl, head, next⟩ | ⟨other, same⟩
    · rw [next] at single ⊢
      refine (kept_dispatchSwing phase (provenance reach).engine head single kept).trans (not_congr ?_)
      constructor
      · rintro ⟨rfl, closed, confirmedMs, answer⟩
        exact ⟨nowMs, entryMs, executor, event, rest, confirmedMs, rfl, head, closed, answer⟩
      · rintro ⟨_, _, _, event', rest', confirmedMs, ⟨⟩, head', closed, answer⟩
        obtain ⟨⟨rfl, rfl⟩, -⟩ : (event = event' ∧ c = candle) ∧ rest = rest' := by
          simpa [head] using head'
        exact ⟨rfl, closed, confirmedMs, answer⟩
    · rw [same]
      refine iff_of_true kept ?_
      rintro ⟨nowMs, entryMs, executor, _, _, _, dispatch, -⟩
      exact other nowMs entryMs executor dispatch

/-- The AI consumer handles an answer to the candle while the callback has yet to publish the
candle's closed event. -/
def InGap (candle : Candle K) (s : Pipeline K) (a : PipelineAction K) : Prop :=
  ∃ offset message, a = .consume offset ∧ s.aiSignals[offset]? = some (message, candle) ∧
    candle ∈ s.engine.sends.filterMap Send.unpublished

omit [Field K] [LinearOrder K] [Sqrt K] in
/-- The answers to the candle come after its closed event. -/
def Ordered (candle : Candle K) (published : List (SwingEvent K × Candle K)) : Prop :=
  ∀ before event after, published = before ++ (event, candle) :: after → event.state = .aiConfirmed →
    candle ∈ closedCandles before

omit [Field K] [LinearOrder K] [Sqrt K] in
theorem Ordered.snoc {published : List (SwingEvent K × Candle K)} {e : SwingEvent K × Candle K}
    (h : Ordered candle published)
    (last : e.1.state = .aiConfirmed → e.2 = candle → candle ∈ closedCandles published) :
    Ordered candle (published ++ [e]) := by
  intro before event after split confirmed
  rcases split_snoc split with ⟨rfl, rfl⟩ | ⟨rest, -, inside⟩
  · obtain ⟨rfl, -⟩ := List.append_inj' split rfl
    exact last confirmed rfl
  · exact h before event rest inside confirmed

theorem ordered_step {s s' : Pipeline K} {a : PipelineAction K} (h : Ordered candle s.engine.published)
    (origin : Provenance s) (no_gap : ¬ InGap candle s a) (taken : (machine K).step s a = some s') :
    Ordered candle s'.engine.published := by
  cases step_cases taken with
  | answer => exact h
  | @consume offset message c engine found moved =>
    cases Engine.step_cases moved
    simp only [Provenance.published_snoc]
    apply h.snoc
    rintro - rfl
    -- an answered candle was emitted, and its closed event is not pending
    have emitted := (origin.aiSignals _ (List.mem_of_getElem? found)).1
    rw [← origin.engine.once] at emitted
    rcases List.mem_append.1 emitted with published | unpublished
    · exact published
    · exact absurd ⟨offset, message, rfl, found, unpublished⟩ no_gap
  | engine thread moved =>
    cases Engine.step_cases moved with
    | @publishEvent _ _ event c _ _ next =>
      simp only [EngineState.published, ← List.append_assoc]
      apply h.snoc
      intro confirmed
      have pending : .publishEvent event c ∈ s.engine.sends := by
        rw [EngineState.sends, next]
        exact List.mem_cons_self
      rw [(origin.engine.sends _ pending).1] at confirmed
      cases confirmed
    | aiSignal => exact absurd rfl (thread _ _)
    | dispatchSwing head =>
      rw [published_dispatchSwing head]
      exact h
    | _ => exact h

omit [LinearOrder K] [Sqrt K] in
/-- The bus hands the events over in their order. -/
theorem Ordered.not_overtaken {s : Pipeline K} {a : PipelineAction K} (h : Ordered candle s.engine.published)
    (origin : Engine.Provenance s.engine) : ¬ Overtaken candle s a := by
  rintro ⟨_, _, _, _, _, confirmedMs, -, head, closed, event, _, _, _, mem, confirmed⟩
  have dispatched : (event, candle) ∈ s.engine.dispatched.filterMap Dispatch.event :=
    List.mem_filterMap.2 ⟨_, mem, rfl⟩
  obtain ⟨before, after, split⟩ := List.append_of_mem dispatched
  have first : candle ∈ closedCandles before := by
    apply h before event (after ++ s.engine.swingBus) _ confirmed
    rw [EngineState.published, split, List.append_assoc]
    rfl
  apply origin.undispatched head closed
  rw [split, closedCandles_append]
  exact List.mem_append_left _ first

/-- **An answer overtakes its candle only in the gap between the two sends of the callback.** -/
theorem overtaken_in_gap (candle : Candle K) (acts : List (PipelineAction K)) (s : Pipeline K)
    (run : (machine K).run acts = some s)
    (no_gap : (machine K).Along (fun s a => ¬ InGap candle s a) (machine K).init acts) :
    (machine K).Along (fun s a => ¬ Overtaken candle s a) (machine K).init acts := by
  refine Machine.along_of_inv (I := fun s : Pipeline K => Ordered candle s.engine.published) ?_ ?_ ?_
    acts s run no_gap
  · intro before event after split
    cases before <;> cases split
  · intro s a s' reach ordered no_gap taken
    exact ordered_step ordered (provenance reach) no_gap taken
  · intro s a reach ordered
    exact ordered.not_overtaken (provenance reach).engine

/-- A check that suffices for a single candle. -/
def favourable (d : Dispatch K) : Bool :=
  match d.op with
  | .onEvent event nowMs _ executor =>
    0 ≤ nowMs && nowMs ≤ kArmedTTLMs && executor (buyRequest event.ticker event.close) &&
      (event.state ≠ .aiConfirmed ||
        event.aiSignal.direction = "BUY_READY" && kMinBullProb ≤ event.aiSignal.bullProbability)
  | .checkExit .. => false

omit [Sqrt K] in
theorem singleCandle_of_favourable (only : s.emitted = [candle]) (good : s.dispatched.all favourable = true) :
    SingleCandle candle s := by
  have checks : ∀ event nowMs entryMs executor outcome c,
      (⟨.onEvent event nowMs entryMs executor, outcome, c⟩ : Dispatch K) ∈ s.dispatched →
        0 ≤ nowMs ∧ nowMs ≤ kArmedTTLMs ∧ executor (buyRequest event.ticker event.close) = true ∧
          (event.state = .aiConfirmed →
            event.aiSignal.direction = "BUY_READY" ∧ kMinBullProb ≤ event.aiSignal.bullProbability) := by
    intro event nowMs entryMs executor outcome c mem
    have check := List.all_eq_true.1 good _ mem
    simp only [favourable, Bool.and_eq_true, decide_eq_true_eq, Bool.or_eq_true] at check
    obtain ⟨⟨⟨nonneg, early⟩, accepted⟩, strong⟩ := check
    exact ⟨nonneg, early, accepted, fun confirmed => strong.resolve_left fun other => other confirmed⟩
  constructor
  · intro c mem _
    rw [only] at mem
    exact List.mem_singleton.1 mem
  · intro event nowMs entryMs executor outcome mem
    exact (checks _ _ _ _ _ _ mem).2.2.2
  · intro event nowMs entryMs executor outcome mem _
    exact (checks _ _ _ _ _ _ mem).2.2.1
  · rintro closedMs confirmedMs ⟨_, _, _, _, mem, -⟩ ⟨_, _, _, _, mem', -⟩
    have closed := checks _ _ _ _ _ _ mem
    have confirmed := checks _ _ _ _ _ _ mem'
    omega

/-- The closed event of the quarter is dispatched first. -/
theorem kept_iff_quarter :
    (machine ℚ).Always (fun s => Kept quarterOfA s.engine.dispatched) quarterAnswered := by
  obtain ⟨s, run, found⟩ := (machine ℚ).exists_of_any quarterAnswered
    (fun s => s.engine.emitted = [quarterOfA] && s.engine.dispatched.all favourable) (by decide +kernel)
  simp only [Bool.and_eq_true, decide_eq_true_eq] at found
  refine (kept_iff quarterOfA _ s run (singleCandle_of_favourable found.1 found.2)).2 ?_
  refine Machine.along_of_check (p := fun s _ => s.engine.swingBus.head?.all fun e =>
    e.1.state ≠ .candleClosed || s.engine.dispatched.isEmpty) ?_ (by decide +kernel)
  rintro s a first ⟨_, _, _, event, rest, confirmedMs, -, head, closed, _, _, _, _, mem, -⟩
  rw [head] at first
  simp only [List.head?_cons, Option.all_some, closed, ne_eq, not_true_eq_false, decide_false, Bool.false_or,
    List.isEmpty_iff] at first
  rw [first] at mem
  cases mem

/-- The answer was ignored, and the closed event has armed the ticker after it. -/
def answerIgnored (dispatched : List (Dispatch ℚ)) : Bool :=
  match dispatched with
  | [⟨.onEvent answer _ _ _, .ignored, c⟩, ⟨.onEvent closed _ _ _, .armed, c'⟩] =>
    c = quarterOfA && answer.state = .aiConfirmed && c' = quarterOfA && closed.state = .candleClosed
  | _ => false

/-- **A confirmation lost to message order.** The answer to the quarter of A is dispatched before
the closed event: both have been dispatched, and A was not bought. -/
theorem confirmation_lost :
    ¬ ∀ (candle : Candle ℚ) (s : Pipeline ℚ), (machine ℚ).Reachable s → SingleCandle candle s.engine →
      Kept candle s.engine.dispatched := by
  intro kept
  obtain ⟨s, run, found⟩ := (machine ℚ).exists_of_any
    [.engine (.tick ⟨"A", 100, 1, 0⟩), .engine .pushed, .engine (.tick ⟨"A", 100, 1, 900000⟩),
      .engine (.send true), .answer 0 (7 / 10) (3 / 10) "BUY_READY", .consume 0,
      .engine (.dispatchSwing 0 0 makeOrderExecutor), .engine (.send true), .engine .pushed,
      .engine (.dispatchSwing 1 1 makeOrderExecutor)]
    (fun s => s.engine.emitted = [quarterOfA] && s.engine.dispatched.all favourable &&
      answerIgnored s.engine.dispatched) (by decide +kernel)
  simp only [Bool.and_eq_true, decide_eq_true_eq] at found
  obtain ⟨⟨only, good⟩, shape⟩ := found
  have kept := kept quarterOfA s ⟨_, run⟩ (singleCandle_of_favourable only good)
  unfold answerIgnored at shape
  split at shape
  case h_2 => cases shape
  case h_1 answer _ _ _ c closed _ _ _ c' dispatched =>
    simp only [Bool.and_eq_true, decide_eq_true_eq] at shape
    obtain ⟨⟨⟨rfl, confirmed⟩, rfl⟩, closed⟩ := shape
    rw [dispatched] at kept
    obtain ⟨d, mem, o, submitted, -⟩ := kept _ _
      ⟨_, _, _, _, List.mem_cons_of_mem _ List.mem_cons_self, closed⟩
      ⟨_, _, _, _, List.mem_cons_self, confirmed⟩
    simp only [List.mem_cons, List.not_mem_nil, or_false] at mem
    rcases mem with rfl | rfl <;> cases submitted

end Pipeline

end StockAnomaly.Engine

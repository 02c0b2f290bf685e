import StockAnomaly.AiSignalService.CandleBuffer
import StockAnomaly.AiSignalService.DataFrame
import StockAnomaly.AiSignalService.FeatureLogger
import StockAnomaly.AiSignalService.FlatMarket
import StockAnomaly.Engine.Wiring
import StockAnomaly.Theory.Numerals

/-!
# The loop of `ai-signal-service`

`main` polls one message after another until a signal clears `_running`. A message that does
not parse or whose scoring raises is skipped; an exception of `produce` or of the feature log
ends the process. What the environment answers in a round is in its action.

A buffer is a window on the candles of its series since the start, after those the warm
start found, and every round publishes the score of that window or nothing:
**`scores_of_reachable`**. The feature log keeps every row exactly if no two files get the
same name: **`rowsKept_iff`**.
-/

namespace StockAnomaly.AiSignalService

open StockAnomaly.Aggregation (Ticker)
open StockAnomaly.ApiServer
open StockAnomaly.Engine (AiSignalMessage)
open StockAnomaly.Theory

variable {K : Type*}

/-- What the query of the warm start gives; it raises, or there is no client to ask. -/
inductive Query (K : Type*)
  | answered (points : List (OhlcvResponse K))
  | raised
  | noClient

namespace CandleBuffer

/-- `_warm_start` with all its ends. -/
def warmStartQuery (config : Config K) (b : CandleBuffer K) (key : Ticker × String) : Query K → CandleBuffer K
  | .answered points => b.warmStart config key points
  | .raised =>
    if b.warm_started key then b else { b with warm_started := Function.update b.warm_started key true }
  | .noClient => b

/-- `append` with such a warm start. -/
def appendQuery (config : Config K) (b : CandleBuffer K) (key : Ticker × String) (query : Query K)
    (candle : Candle K) : CandleBuffer K :=
  let b := if (b.buffers key).isSome then b else b.warmStartQuery config key query
  let buffer := (b.buffers key).getD []
  { b with buffers := Function.update b.buffers key (some ((buffer ++ [candle]).rtake config.buffer_max_len)) }

end CandleBuffer

/-- The points a warm start gets. -/
def Query.points : Query K → List (OhlcvResponse K)
  | .answered points => points
  | .raised => []
  | .noClient => []

/-- What `consumer.poll` gives. -/
inductive Polled (K : Type*)
  | nothing
  | error
  /-- A message that is no JSON object or misses a key. -/
  | unparsable
  | candle (payload : Aggregation.Candle K)

/-- A row of the feature log, which has all that is published. -/
structure FeatureRow (K : Type*) where
  ticker : Ticker
  interval : String
  candle : Candle K
  indicators : Indicators K
  result : Score K

def Direction.text : Direction → String
  | .BUY_READY => "BUY_READY"
  | .SELL_READY => "SELL_READY"
  | .NEUTRAL => "NEUTRAL"

/-- `signal_payload`. -/
def FeatureRow.signalPayload (row : FeatureRow K) : AiSignalMessage K where
  ticker := row.ticker
  close := row.candle.close
  bullProbability := row.result.bull_probability
  bearProbability := row.result.bear_probability
  direction := row.result.direction.text
  candleCloseTime := row.candle.close_time_ms
  timestampMs := row.candle.close_time_ms

/-- Where `main` stands. -/
inductive MainPc
  | looping
  | ended
  | crashed
deriving DecidableEq

/-- The service and the record of its run: the candles it handled, each with what its query
would give, and the rows it published. -/
structure Service (K : Type*) where
  running : Bool
  pc : MainPc
  buffer : CandleBuffer K
  featureLogger : FeatureLogger (FeatureRow K)
  handled : List (Aggregation.Candle K × Query K)
  features : List (FeatureRow K)

/-- What the environment answers in a round. -/
structure Round (K : Type*) where
  polled : Polled K
  query : Query K
  /-- `produce` takes the message. -/
  produced : Bool
  nowMs : ℤ
  /-- The Parquet file, if one is due, can be written. -/
  written : Bool

inductive ServiceAction (K : Type*)
  /-- SIGINT or SIGTERM. -/
  | handleSignal
  | round (r : Round K)
  /-- The loop is left. -/
  | shutDown (nowMs : ℤ) (written : Bool)

namespace Service

def init : Service K := ⟨true, .looping, .empty, .empty, [], []⟩

section Definitions

variable [Field K] [LinearOrder K] [FloatMath K]

/-- From `get_dataframe` to the row, if nothing raises. -/
def scoreRow (config : Config K) (payload : Aggregation.Candle K) (buffer : Option (List (Candle K))) :
    Option (FeatureRow K) :=
  (DataFrame.signal config (buffer.map (List.map Candle.toRow))).map fun (indicators, result) =>
    { ticker := payload.ticker, interval := (toKey payload).2, candle := toCandle payload, indicators, result }

/-- The calls of `publish_json` and of `feature_logger.log`. -/
def publish (flush_every : ℕ) (s : Service K) (r : Round K) (row : FeatureRow K) : Service K :=
  if r.produced then
    let (featureLogger, ok) := s.featureLogger.log flush_every row r.nowMs r.written
    { s with featureLogger, features := s.features ++ [row], pc := if ok then .looping else .crashed }
  else { s with pc := .crashed }

/-- A parsed candle goes into its buffer. -/
def received (config : Config K) (s : Service K) (payload : Aggregation.Candle K) (query : Query K) : Service K :=
  { s with
    buffer := s.buffer.appendQuery config (toKey payload) query (toCandle payload)
    handled := s.handled ++ [(payload, query)] }

/-- A round with a candle. -/
def handle (config : Config K) (flush_every : ℕ) (s : Service K) (r : Round K) (payload : Aggregation.Candle K) :
    Service K :=
  let s := s.received config payload r.query
  match scoreRow config payload (s.buffer.buffers (toKey payload)) with
  | none => s
  | some row => s.publish flush_every r row

def step (config : Config K) (flush_every : ℕ) (s : Service K) : ServiceAction K → Option (Service K)
  | .handleSignal => some { s with running := false }
  | .round r =>
    if s.pc = .looping ∧ s.running = true then
      match r.polled with
      | .nothing => some s
      | .error => some s
      | .unparsable => some s
      | .candle payload => some (s.handle config flush_every r payload)
    else none
  | .shutDown nowMs written =>
    if s.pc = .looping ∧ s.running = false then
      let (featureLogger, ok) := s.featureLogger.flush nowMs written
      some { s with featureLogger, pc := if ok then .ended else .crashed }
    else none

def machine (config : Config K) (flush_every : ℕ) : Machine (Service K) (ServiceAction K) where
  init := init
  step := step config flush_every

end Definitions

/-- The messages published. -/
def published (s : Service K) : List (AiSignalMessage K) := s.features.map FeatureRow.signalPayload

section Window

/-- **What a buffer is for**: the newest candles of the series since the start, after the
points found by the query of its first one. -/
def window (config : Config K) (handled : List (Aggregation.Candle K × Query K)) (key : Ticker × String) :
    Option (List (Candle K)) :=
  match handled.filter (toKey ·.1 = key) with
  | [] => none
  | first :: rest => some ((first.2.points.map CandleBuffer.row ++
      (first :: rest).map (toCandle ·.1)).rtake config.buffer_max_len)

variable {config : Config K} {handled : List (Aggregation.Candle K × Query K)} {payload : Aggregation.Candle K}
  {query : Query K} {key : Ticker × String}

theorem window_other (other : toKey payload ≠ key) :
    window config (handled ++ [(payload, query)]) key = window config handled key := by
  have same : (handled ++ [(payload, query)]).filter (toKey ·.1 = key) = handled.filter (toKey ·.1 = key) := by
    simp [other]
  rw [window, same]
  rfl

theorem window_first (unseen : window config handled (toKey payload) = none) :
    window config (handled ++ [(payload, query)]) (toKey payload) =
      some ((query.points.map CandleBuffer.row ++ [toCandle payload]).rtake config.buffer_max_len) := by
  unfold window at unseen
  split at unseen
  · rename_i empty
    rw [window, List.filter_append, empty]
    simp
  · cases unseen

theorem window_next {buffer : List (Candle K)} (seen : window config handled (toKey payload) = some buffer) :
    window config (handled ++ [(payload, query)]) (toKey payload) =
      some ((buffer ++ [toCandle payload]).rtake config.buffer_max_len) := by
  unfold window at seen
  split at seen
  · cases seen
  · rename_i first rest some_candle
    obtain rfl := Option.some.inj seen
    rw [window, List.filter_append, some_candle, TimeSeries.rtake_rtake_snoc]
    simp

end Window

end Service

namespace CandleBuffer

variable {config : Config K} {b : CandleBuffer K} {key other : Ticker × String} {query : Query K}
  {candle : Candle K}

theorem appendQuery_other (ne : other ≠ key) :
    (b.appendQuery config key query candle).buffers other = b.buffers other := by
  cases query with
  | answered points => exact append_other ne
  | raised =>
    simp only [appendQuery, warmStartQuery]
    split_ifs <;> simp [ne]
  | noClient => simp [appendQuery, warmStartQuery, ne]

theorem appendQuery_of_some {buffer : List (Candle K)} (seen : b.buffers key = some buffer) :
    (b.appendQuery config key query candle).buffers key =
      some ((buffer ++ [candle]).rtake config.buffer_max_len) := by
  simp [appendQuery, seen]

/-- A query without an answer is as good as one that finds nothing. -/
theorem appendQuery_of_none (unseen : b.buffers key = none) (cold : b.warm_started key = false) :
    (b.appendQuery config key query candle).buffers key =
      some ((query.points.map row ++ [candle]).rtake config.buffer_max_len) := by
  cases query with
  | answered points =>
    refine (append_of_none unseen cold).trans (congrArg some ?_)
    rw [TimeSeries.map_rtake, TimeSeries.rtake_rtake_snoc]
    rfl
  | raised => simp [appendQuery, unseen, warmStartQuery, cold, Query.points]
  | noClient => simp [appendQuery, unseen, warmStartQuery, Query.points]

theorem appendQuery_warm_started (ne : other ≠ key) :
    (b.appendQuery config key query candle).warm_started other = b.warm_started other := by
  cases query with
  | answered points =>
    simp only [appendQuery, warmStartQuery, warmStart]
    split_ifs <;> simp [ne]
  | raised =>
    simp only [appendQuery, warmStartQuery]
    split_ifs <;> simp [ne]
  | noClient => simp [appendQuery, warmStartQuery]

end CandleBuffer

namespace Service

variable [Field K] [LinearOrder K] [FloatMath K] {config : Config K} {flush_every : ℕ} {s s' : Service K}

/-- What the last candle handled is worth. -/
def newest (config : Config K) (handled : List (Aggregation.Candle K × Query K)) : List (FeatureRow K) :=
  match handled.getLast? with
  | none => []
  | some (payload, _) => (scoreRow config payload (window config handled (toKey payload))).toList

/-- **What the service is for**: for each candle, the score of the window that it ends. -/
def scores (config : Config K) (handled : List (Aggregation.Candle K × Query K)) : List (FeatureRow K) :=
  handled.inits.flatMap (newest config)

theorem scores_snoc (handled : List (Aggregation.Candle K × Query K)) (payload : Aggregation.Candle K)
    (query : Query K) : scores config (handled ++ [(payload, query)]) = scores config handled ++
      (scoreRow config payload (window config (handled ++ [(payload, query)]) (toKey payload))).toList := by
  have inits : (handled ++ [(payload, query)]).inits = handled.inits ++ [handled ++ [(payload, query)]] := by
    rw [List.inits_append]
    rfl
  rw [scores, inits, List.flatMap_append, List.flatMap_singleton, ← scores]
  congr 1
  rw [newest, List.getLast?_concat]

/-- The buffers are the windows, and a series without one has not been warm started. -/
structure Windows (config : Config K) (s : Service K) : Prop where
  buffers : ∀ key, s.buffer.buffers key = window config s.handled key
  cold : ∀ key, s.buffer.buffers key = none → s.buffer.warm_started key = false

/-- The service's contract in a state of a run. -/
structure Scores (config : Config K) (s : Service K) : Prop where
  windows : Windows config s
  /-- What is published is what the candles handled are worth, in order, -/
  published : s.features <+: scores config s.handled
  /-- and all of it unless an exception ended the process. -/
  complete : s.pc ≠ .crashed → s.features = scores config s.handled

omit [Field K] [LinearOrder K] [FloatMath K] in
/-- A candle moves the window of its series by one. -/
theorem Windows.received (h : Windows config s) (payload : Aggregation.Candle K) (query : Query K) :
    Windows config (s.received config payload query) where
  buffers := by
    intro key
    by_cases own : toKey payload = key
    · subst own
      cases seen : s.buffer.buffers (toKey payload) with
      | none =>
        have before := h.buffers (toKey payload)
        rw [seen] at before
        exact (CandleBuffer.appendQuery_of_none seen (h.cold _ seen)).trans (window_first before.symm).symm
      | some buffer =>
        have before := h.buffers (toKey payload)
        rw [seen] at before
        exact (CandleBuffer.appendQuery_of_some seen).trans (window_next before.symm).symm
    · exact ((CandleBuffer.appendQuery_other (Ne.symm own)).trans (h.buffers key)).trans (window_other own).symm
  cold := by
    intro key unseen
    by_cases own : toKey payload = key
    · subst own
      cases seen : s.buffer.buffers (toKey payload) with
      | none => cases unseen.symm.trans (CandleBuffer.appendQuery_of_none seen (h.cold _ seen))
      | some buffer => cases unseen.symm.trans (CandleBuffer.appendQuery_of_some seen)
    · have before := (CandleBuffer.appendQuery_other (Ne.symm own)).symm.trans unseen
      exact (CandleBuffer.appendQuery_warm_started (Ne.symm own)).trans (h.cold key before)

/-- The row of a round with a candle, if the scoring gives one. -/
def rowOf (config : Config K) (s : Service K) (r : Round K) (payload : Aggregation.Candle K) :
    Option (FeatureRow K) :=
  scoreRow config payload ((s.received config payload r.query).buffer.buffers (toKey payload))

/-- **All that a round with a candle can do**: it has no row, or one that `produce` refuses,
or one that is published and logged. -/
theorem handle_cases (config : Config K) (flush_every : ℕ) (s : Service K) (r : Round K)
    (payload : Aggregation.Candle K) :
    (s.rowOf config r payload = none ∧ s.handle config flush_every r payload = s.received config payload r.query) ∨
      (∃ row, s.rowOf config r payload = some row ∧ r.produced = false ∧
        s.handle config flush_every r payload = { s.received config payload r.query with pc := .crashed }) ∨
      ∃ row, s.rowOf config r payload = some row ∧ r.produced = true ∧
        s.handle config flush_every r payload = { s.received config payload r.query with
          featureLogger := (s.featureLogger.log flush_every row r.nowMs r.written).1
          features := s.features ++ [row]
          pc := if (s.featureLogger.log flush_every row r.nowMs r.written).2 then .looping else .crashed } := by
  unfold handle rowOf
  dsimp only
  cases scoreRow config payload ((s.received config payload r.query).buffer.buffers (toKey payload)) with
  | none => exact .inl ⟨rfl, rfl⟩
  | some row =>
    refine .inr ?_
    cases produced : r.produced with
    | false => exact .inl ⟨row, rfl, rfl, by simp [publish, produced]⟩
    | true =>
      refine .inr ⟨row, rfl, rfl, ?_⟩
      simp only [publish, produced]
      rfl

/-- The steps of the service. -/
inductive Step (config : Config K) (flush_every : ℕ) (s : Service K) : ServiceAction K → Service K → Prop
  | handleSignal : Step config flush_every s .handleSignal { s with running := false }
  | skip {r : Round K} (none_parsed : ∀ payload, r.polled ≠ .candle payload) :
      Step config flush_every s (.round r) s
  | candle {r : Round K} {payload : Aggregation.Candle K} (looping : s.pc = .looping)
      (polled : r.polled = .candle payload) :
      Step config flush_every s (.round r) (s.handle config flush_every r payload)
  | shutDown {nowMs : ℤ} {written : Bool} (looping : s.pc = .looping) :
      Step config flush_every s (.shutDown nowMs written) { s with
        featureLogger := (s.featureLogger.flush nowMs written).1
        pc := if (s.featureLogger.flush nowMs written).2 then .ended else .crashed }

/-- **All that one step of the service can do.** -/
theorem step_cases {a : ServiceAction K} (taken : (machine config flush_every).step s a = some s') :
    Step config flush_every s a s' := by
  cases a with
  | handleSignal =>
    cases taken
    exact .handleSignal
  | round r =>
    obtain ⟨enabled, taken⟩ := Option.ite_none_right_eq_some.1 taken
    split at taken <;> cases taken
    · exact .skip (by simp [*])
    · exact .skip (by simp [*])
    · exact .skip (by simp [*])
    · exact .candle enabled.1 ‹_›
  | shutDown nowMs written =>
    obtain ⟨enabled, taken⟩ := Option.ite_none_right_eq_some.1 taken
    cases taken
    exact .shutDown enabled.1

/-- The records only grow. -/
theorem records_grow {a : ServiceAction K} (taken : (machine config flush_every).step s a = some s') :
    s.handled <+: s'.handled ∧ s.features <+: s'.features := by
  cases step_cases taken with
  | @candle r payload looping polled =>
    have more : s.handled <+: (s.received config payload r.query).handled := List.prefix_append ..
    rcases handle_cases config flush_every s r payload with ⟨-, eq⟩ | ⟨row, -, -, eq⟩ | ⟨row, -, -, eq⟩
    · rw [eq]
      exact ⟨more, List.prefix_rfl⟩
    · rw [eq]
      exact ⟨more, List.prefix_rfl⟩
    · rw [eq]
      exact ⟨more, List.prefix_append ..⟩
  | _ => exact ⟨List.prefix_rfl, List.prefix_rfl⟩

theorem Scores.init (config : Config K) : Scores config (Service.init : Service K) where
  windows := ⟨fun _ => rfl, fun _ _ => rfl⟩
  published := List.nil_prefix
  complete _ := rfl

theorem Scores.step (h : Scores config s) {a : ServiceAction K}
    (taken : (machine config flush_every).step s a = some s') : Scores config s' := by
  cases step_cases taken with
  | handleSignal => exact ⟨⟨h.windows.buffers, h.windows.cold⟩, h.published, h.complete⟩
  | skip none_parsed => exact h
  | @candle r payload looping polled =>
    have windows := h.windows.received payload r.query
    have before : s.features = scores config s.handled := h.complete (by rw [looping]; nofun)
    have after : scores config (s.handled ++ [(payload, r.query)]) =
        scores config s.handled ++ (s.rowOf config r payload).toList := by
      rw [scores_snoc, rowOf, windows.buffers]
      rfl
    rcases handle_cases config flush_every s r payload with
      ⟨unscored, eq⟩ | ⟨row, scored, -, eq⟩ | ⟨row, scored, -, eq⟩
    · have same : s.features = scores config (s.handled ++ [(payload, r.query)]) := by
        rw [after, ← before, unscored]
        exact (List.append_nil _).symm
      rw [eq]
      exact ⟨windows, same ▸ List.prefix_rfl, fun _ => same⟩
    · rw [eq]
      refine ⟨⟨windows.buffers, windows.cold⟩, ?_, fun crashed => absurd rfl crashed⟩
      show s.features <+: scores config (s.handled ++ [(payload, r.query)])
      rw [before, after]
      exact List.prefix_append _ _
    · have same : s.features ++ [row] = scores config (s.handled ++ [(payload, r.query)]) := by
        rw [after, ← before, scored]
        rfl
      rw [eq]
      exact ⟨⟨windows.buffers, windows.cold⟩, same ▸ List.prefix_rfl, fun _ => same⟩
  | shutDown looping =>
    have before : s.features = scores config s.handled := h.complete (by rw [looping]; nofun)
    exact ⟨⟨h.windows.buffers, h.windows.cold⟩, h.published, fun _ => before⟩

/-- **The service publishes the score of a sliding window**, in every run: for each candle
handled, in order, the score of the newest candles of its series, whatever other series,
broken messages and failed queries come between. -/
theorem scores_of_reachable (reach : (machine config flush_every).Reachable s) : Scores config s :=
  reach.induct (Scores.init config) fun _ _ _ h taken => h.step taken

/-- The shipped configuration, with a signal from the first candle on. -/
noncomputable def eager : Config ℝ := { Config.shipped with buffer_min_len_for_signal := 1 }

noncomputable def firstCandle : Aggregation.Candle ℝ := ⟨"A", 1, 1, 1, 1, 1, 0, 900000, 1, 15⟩

/-- With that configuration every candle has a score. -/
theorem rowOf_eager (s : Service ℝ) (r : Round ℝ) (payload : Aggregation.Candle ℝ) :
    ∃ row, s.rowOf eager r payload = some row := by
  obtain ⟨buffer, appended⟩ : ∃ buffer, (s.received eager payload r.query).buffer.buffers (toKey payload) =
      some ((buffer ++ [toCandle payload]).rtake eager.buffer_max_len) := ⟨_, Function.update_self ..⟩
  have room : eager.buffer_max_len = 59 + 1 := rfl
  rw [room, List.rtake_concat_succ] at appended
  apply Option.isSome_iff_exists.1
  rw [rowOf, appended, scoreRow, Option.isSome_map, DataFrame.signal]
  simp [DataFrame.getDataframe, DataFrame.computeAll, DataFrame.computes, eager, Config.shipped, Candle.toRow]

/-- It is published if `produce` takes the message. -/
theorem handle_eager (flush_every : ℕ) (s : Service ℝ) {r : Round ℝ} (produced : r.produced = true)
    (payload : Aggregation.Candle ℝ) : ∃ row, s.handle eager flush_every r payload =
      { s.received eager payload r.query with
        featureLogger := (s.featureLogger.log flush_every row r.nowMs r.written).1
        features := s.features ++ [row]
        pc := if (s.featureLogger.log flush_every row r.nowMs r.written).2 then .looping else .crashed } := by
  rcases handle_cases eager flush_every s r payload with ⟨unscored, -⟩ | ⟨_, -, refused, -⟩ | ⟨row, -, -, eq⟩
  · obtain ⟨row, scored⟩ := rowOf_eager s r payload
    cases scored.symm.trans unscored
  · cases produced.symm.trans refused
  · exact ⟨row, eq⟩

/-- The state after a row that waits for its file. -/
noncomputable def logged (s : Service ℝ) (payload : Aggregation.Candle ℝ) (query : Query ℝ) (row : FeatureRow ℝ) :
    Service ℝ :=
  { s.received eager payload query with
    featureLogger := ⟨s.featureLogger.files, s.featureLogger.rows ++ [row]⟩
    features := s.features ++ [row] }

theorem step_eager {flush_every : ℕ} {s : Service ℝ} (looping : s.pc = .looping) (running : s.running = true)
    (few : s.featureLogger.rows.length + 1 < flush_every) (payload : Aggregation.Candle ℝ) (query : Query ℝ) :
    ∃ row, (machine eager flush_every).step s (.round ⟨.candle payload, query, true, 0, true⟩) =
      some (s.logged payload query row) := by
  obtain ⟨row, eq⟩ := @handle_eager flush_every s ⟨.candle payload, query, true, 0, true⟩ rfl payload
  refine ⟨row, ?_⟩
  have kept : s.featureLogger.log flush_every row 0 true =
      (⟨s.featureLogger.files, s.featureLogger.rows ++ [row]⟩, true) := by
    rw [FeatureLogger.log, if_neg (by simpa using few)]
  show (if s.pc = .looping ∧ s.running = true then some (s.handle eager flush_every _ payload) else none) = _
  rw [if_pos ⟨looping, running⟩, eq, kept, logged, ← looping]
  rfl

theorem step_unparsable {flush_every : ℕ} {s : Service ℝ} (looping : s.pc = .looping) (running : s.running = true) :
    (machine eager flush_every).step s (.round ⟨.unparsable, .noClient, true, 0, true⟩) = some s :=
  if_pos ⟨looping, running⟩

noncomputable def storedBar : OhlcvResponse ℝ := ⟨0, 1, 1, 1, 1, 1⟩

noncomputable def otherCandle : Aggregation.Candle ℝ := { firstCandle with ticker := "B" }

noncomputable def secondCandle : Aggregation.Candle ℝ :=
  { firstCandle with openTimeMs := 900000, closeTimeMs := 1800000 }

/-- A series whose warm start finds a bar, a broken message, a series whose warm start raises, and
the next candle of the first series. -/
noncomputable def twoSeries : List (ServiceAction ℝ) :=
  [.round ⟨.candle firstCandle, .answered [storedBar], true, 0, true⟩, .round ⟨.unparsable, .noClient, true, 0, true⟩,
    .round ⟨.candle otherCandle, .raised, true, 0, true⟩, .round ⟨.candle secondCandle, .noClient, true, 0, true⟩]

/-- The state after one candle of each series. -/
noncomputable def bothSeries (first other : FeatureRow ℝ) : Service ℝ :=
  (Service.init.logged firstCandle (.answered [storedBar]) first).logged otherCandle .raised other

/-- Three rows, the last of them for three candles. -/
theorem scores_of_reachable_two : ∃ s, (machine eager 10).run twoSeries = some s ∧ s.features.length = 3 ∧
    window eager s.handled ("A", "15m") =
      some [CandleBuffer.row storedBar, toCandle firstCandle, toCandle secondCandle] ∧ Scores eager s := by
  obtain ⟨first, one⟩ := @step_eager 10 Service.init rfl rfl (by decide) firstCandle (.answered [storedBar])
  obtain ⟨other, two⟩ := @step_eager 10 (Service.init.logged firstCandle (.answered [storedBar]) first) rfl rfl
    (by show 2 < 10; decide) otherCandle .raised
  obtain ⟨second, three⟩ := @step_eager 10 (bothSeries first other) rfl rfl (by show 3 < 10; decide) secondCandle
    .noClient
  have run : (machine eager 10).run twoSeries =
      some ((bothSeries first other).logged secondCandle .noClient second) :=
    calc (machine eager 10).run twoSeries
      _ = (machine eager 10).runFrom _ (twoSeries.drop 1) := Machine.runFrom_cons one
      _ = (machine eager 10).runFrom _ (twoSeries.drop 2) := Machine.runFrom_cons (step_unparsable rfl rfl)
      _ = (machine eager 10).runFrom _ (twoSeries.drop 3) := Machine.runFrom_cons two
      _ = some _ := Machine.runFrom_cons three
  exact ⟨_, run, rfl, rfl, scores_of_reachable ⟨_, run⟩⟩

/-- A round with the first candle, at the clock's millisecond 0. -/
noncomputable def oneRound : Round ℝ := ⟨.candle firstCandle, .noClient, true, 0, true⟩

/-- The first such round publishes a row and writes it to the file of its millisecond. -/
theorem handle_oneRound : ∃ row, Service.init.handle eager 1 oneRound firstCandle =
    { Service.init.received eager firstCandle .noClient with
      featureLogger := ⟨[(0, [row])], []⟩, features := [row] } :=
  handle_eager 1 Service.init rfl firstCandle

section Rows

/-- Every row published is in a file or waits for one, in order. -/
def RowsKept (s : Service K) : Prop := s.featureLogger.contents = s.features

/-- The name of the file that a step writes. -/
def fileWritten (config : Config K) (flush_every : ℕ) (s : Service K) : ServiceAction K → Option ℤ
  | .handleSignal => none
  | .round r =>
    match r.polled with
    | .candle payload =>
      if (s.rowOf config r payload).isSome ∧ r.produced = true ∧
          flush_every ≤ s.featureLogger.rows.length + 1 ∧ r.written = true then some r.nowMs
      else none
    | _ => none
  | .shutDown nowMs written => if s.featureLogger.rows ≠ [] ∧ written = true then some nowMs else none

/-- The step writes no file whose name is taken. -/
def NewName (config : Config K) (flush_every : ℕ) (s : Service K) (a : ServiceAction K) : Prop :=
  ∀ ms ∈ s.fileWritten config flush_every a, ms ∉ s.featureLogger.files.map Prod.fst

theorem noEmptyFile_step {a : ServiceAction K} (h : s.featureLogger.NoEmptyFile)
    (taken : (machine config flush_every).step s a = some s') : s'.featureLogger.NoEmptyFile := by
  cases step_cases taken with
  | @candle r payload looping polled =>
    rcases handle_cases config flush_every s r payload with ⟨-, eq⟩ | ⟨row, -, -, eq⟩ | ⟨row, -, -, eq⟩
    · rw [eq]
      exact h
    · rw [eq]
      exact h
    · rw [eq]
      exact h.log
  | shutDown looping => exact h.flush
  | _ => exact h

/-- A step loses a row exactly if it writes over a file. -/
theorem rowsKept_step_iff {a : ServiceAction K} (full : s.featureLogger.NoEmptyFile) (kept : s.RowsKept)
    (taken : (machine config flush_every).step s a = some s') : s'.RowsKept ↔ NewName config flush_every s a := by
  cases step_cases taken with
  | handleSignal => exact iff_of_true kept nofun
  | @skip r none_parsed =>
    refine iff_of_true kept ?_
    intro ms mem
    unfold fileWritten at mem
    cases polled : r.polled with
    | candle payload => exact absurd polled (none_parsed payload)
    | _ => simp [polled] at mem
  | @candle r payload looping polled =>
    have written : s.fileWritten config flush_every (.round r) =
        if (s.rowOf config r payload).isSome ∧ r.produced = true ∧
          flush_every ≤ s.featureLogger.rows.length + 1 ∧ r.written = true then some r.nowMs else none := by
      simp only [fileWritten, polled]
    rcases handle_cases config flush_every s r payload with
      ⟨unscored, eq⟩ | ⟨row, -, refused, eq⟩ | ⟨row, scored, produced, eq⟩
    · rw [eq]
      refine iff_of_true kept ?_
      rw [NewName, written, unscored]
      simp
    · rw [eq]
      refine iff_of_true kept ?_
      rw [NewName, written, refused]
      simp
    · have log : (s.featureLogger.log flush_every row r.nowMs r.written).1.contents =
          s.featureLogger.contents ++ [row] ↔ _ := FeatureLogger.kept_log_iff full
      rw [kept] at log
      rw [eq, NewName, written, scored, produced]
      refine Iff.trans log ?_
      simp only [Option.isSome_some, true_and, Option.mem_ite_none_right, Option.mem_some_iff, and_imp]
      constructor
      · rintro new _ due done rfl
        exact new due done
      · exact fun new due done => new _ due done rfl
  | @shutDown nowMs written looping =>
    have flush : (s.featureLogger.flush nowMs written).1.contents = s.featureLogger.contents ↔ _ :=
      FeatureLogger.kept_flush_iff full
    rw [kept] at flush
    refine Iff.trans flush ?_
    simp only [NewName, fileWritten, Option.mem_ite_none_right, Option.mem_some_iff, and_imp]
    constructor
    · rintro new _ due done rfl
      exact new due done
    · exact fun new due done => new _ due done rfl

theorem noEmptyFile_of_reachable (reach : (machine config flush_every).Reachable s) :
    s.featureLogger.NoEmptyFile :=
  reach.induct (I := fun s => s.featureLogger.NoEmptyFile) (fun _ mem => absurd mem List.not_mem_nil)
    fun _ _ _ h taken => noEmptyFile_step h taken

/-- After a shutdown nothing waits for a file. -/
theorem rows_of_ended (reach : (machine config flush_every).Reachable s) (ended : s.pc = .ended) :
    s.featureLogger.rows = [] := by
  refine reach.induct (I := fun s => s.pc = .ended → s.featureLogger.rows = []) (fun _ => rfl) ?_ ended
  intro s a s' h taken ended
  cases step_cases taken with
  | handleSignal => exact h ended
  | skip none_parsed => exact h ended
  | @candle r payload looping polled =>
    rcases handle_cases config flush_every s r payload with ⟨-, eq⟩ | ⟨row, -, -, eq⟩ | ⟨row, -, -, eq⟩
    · rw [eq] at ended
      cases looping.symm.trans ended
    · rw [eq] at ended
      cases ended
    · rw [eq] at ended
      simp only at ended
      split at ended <;> cases ended
  | shutDown looping =>
    simp only at ended
    split at ended
    · exact FeatureLogger.flush_rows ‹_›
    · cases ended

/-- **The feature log keeps all rows in all states of a run exactly if it never writes a file
under the name of another**, that is, no two flushes with rows in one millisecond. When the
service has shut down, the files hold them all. -/
theorem rowsKept_iff (config : Config K) (flush_every : ℕ) (acts : List (ServiceAction K)) (s : Service K)
    (run : (machine config flush_every).run acts = some s) :
    ((machine config flush_every).Always RowsKept acts ↔
        (machine config flush_every).Along (NewName config flush_every) Service.init acts) ∧
      (s.pc = .ended → s.RowsKept → s.featureLogger.files.flatMap Prod.snd = s.features) := by
  have init : RowsKept (Service.init : Service K) := rfl
  refine ⟨?_, ?_⟩
  · exact Machine.always_iff_along (P := RowsKept) init
      (fun s a s' reach kept taken => rowsKept_step_iff (noEmptyFile_of_reachable reach) kept taken) acts s run
  · intro ended kept
    rw [← kept, FeatureLogger.contents, rows_of_ended ⟨acts, run⟩ ended, List.append_nil]

/-- **Rows lost to the clock**: the second of two flushes in one millisecond takes the rows of
the first. -/
theorem rowsKept_iff_oneRound : ¬ (machine eager 1).Always RowsKept [.round oneRound, .round oneRound] := by
  obtain ⟨row, eq⟩ := handle_oneRound
  have first : (machine eager 1).step Service.init (.round oneRound) =
      some (Service.init.handle eager 1 oneRound firstCandle) := rfl
  have second : (machine eager 1).step (Service.init.handle eager 1 oneRound firstCandle) (.round oneRound) =
      some ((Service.init.handle eager 1 oneRound firstCandle).handle eager 1 oneRound firstCandle) := by
    rw [eq]
    rfl
  have run : (machine eager 1).run [.round oneRound, .round oneRound] =
      some ((Service.init.handle eager 1 oneRound firstCandle).handle eager 1 oneRound firstCandle) :=
    (Machine.runFrom_cons first).trans (Machine.runFrom_cons second)
  rw [(rowsKept_iff eager 1 _ _ run).1]
  rintro ⟨-, new⟩
  obtain ⟨new, -⟩ := new _ first
  refine new 0 ?_ ?_
  · obtain ⟨row', scored⟩ := rowOf_eager (Service.init.handle eager 1 oneRound firstCandle) oneRound firstCandle
    change 0 ∈ if (rowOf eager _ oneRound firstCandle).isSome ∧ oneRound.produced = true ∧
      1 ≤ (Service.init.handle eager 1 oneRound firstCandle).featureLogger.rows.length + 1 ∧
        oneRound.written = true then some oneRound.nowMs else none
    rw [scored, eq]
    exact Option.mem_ite_none_right.2 ⟨⟨rfl, rfl, le_rfl, rfl⟩, rfl⟩
  · rw [eq]
    exact List.mem_singleton_self _

end Rows

end Service

end StockAnomaly.AiSignalService

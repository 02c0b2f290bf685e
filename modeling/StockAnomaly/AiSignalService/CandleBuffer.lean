import StockAnomaly.AiSignalService.Indicators
import StockAnomaly.ApiServer.KafkaCandleConsumer
import StockAnomaly.Theory.Machine

/-!
# `CandleBuffer` and its warm start

Two consumer groups read `candle-data`, each in order and at its own pace: `candle-persist-group`
stores the candles, `ai-signal-service` buffers them. The first append of a series after a
start of the service also reads what is stored, and then adds its own candle. If that
candle is stored already the buffer has it twice: **`increasing_iff`** says that this is the
only way a buffer is not strictly increasing.
-/

namespace StockAnomaly.AiSignalService

open StockAnomaly.Aggregation (Ticker)
open StockAnomaly.ApiServer
open StockAnomaly.Theory

variable {K : Type*}

/-- The buffers by `(ticker, interval)`. -/
structure CandleBuffer (K : Type*) where
  buffers : Ticker × String → Option (List (Candle K))
  warm_started : Ticker × String → Bool

namespace CandleBuffer

def empty : CandleBuffer K := ⟨fun _ => none, fun _ => false⟩

/-- A stored point as the query returns it. -/
def row (point : OhlcvResponse K) : Candle K where
  close_time_ms := point.time * 1000
  «open» := point.open
  high := point.high
  low := point.low
  close := point.close
  volume := point.volume

/-- The newest points of the series, oldest first. -/
def rows (config : Config K) (points : List (OhlcvResponse K)) : List (Candle K) :=
  ((points.reverse.take config.buffer_max_len).map row).reverse

/-- `_warm_start`, with the points the query finds. -/
def warmStart (config : Config K) (b : CandleBuffer K) (key : Ticker × String)
    (points : List (OhlcvResponse K)) : CandleBuffer K :=
  if b.warm_started key then b
  else
    { warm_started := Function.update b.warm_started key true
      buffers := Function.update b.buffers key (some ((rows config points).rtake config.buffer_max_len)) }

/-- `append`; a `deque` with `maxlen` drops its oldest entries. -/
def append (config : Config K) (b : CandleBuffer K) (key : Ticker × String)
    (points : List (OhlcvResponse K)) (candle : Candle K) : CandleBuffer K :=
  let b := if (b.buffers key).isSome then b else b.warmStart config key points
  let buffer := (b.buffers key).getD []
  { b with buffers := Function.update b.buffers key (some ((buffer ++ [candle]).rtake config.buffer_max_len)) }

end CandleBuffer

/-- `_to_candle`: the key. -/
def toKey (payload : Aggregation.Candle K) : Ticker × String :=
  (payload.ticker, if payload.windowMinutes = 60 then "1h" else "15m")

/-- `_to_candle`: the candle. -/
def toCandle (payload : Aggregation.Candle K) : Candle K where
  close_time_ms := payload.closeTimeMs
  «open» := payload.open
  high := payload.high
  low := payload.low
  close := payload.close
  volume := payload.volume

/-- The two consumers of `candle-data` and what they keep. -/
structure Consumers (K : Type*) where
  db : StockPrices K
  /-- The offset of `candle-persist-group`. -/
  persisted : ℕ
  /-- The offset of `ai-signal-service`. -/
  offset : ℕ
  buffer : CandleBuffer K

inductive ConsumerAction
  /-- `KafkaCandleConsumer` handles its next message. -/
  | persist
  /-- The loop of `main` handles its next message. -/
  | handle
  /-- `main` starts, at the offset its group has or, with none, at the end of the topic. -/
  | start (offset : ℕ)

namespace Consumers

def init : Consumers K := ⟨fun _ => [], 0, 0, .empty⟩

def step (config : Config K) (topic : List (Aggregation.Candle K)) (s : Consumers K) :
    ConsumerAction → Option (Consumers K)
  | .persist => topic[s.persisted]?.map fun message =>
      { s with db := KafkaCandleConsumer.consume s.db message, persisted := s.persisted + 1 }
  | .handle => topic[s.offset]?.map fun message =>
      { s with
        buffer := s.buffer.append config (toKey message) (s.db (toKey message)) (toCandle message)
        offset := s.offset + 1 }
  | .start offset =>
    if s.offset ≤ offset ∧ offset ≤ topic.length then some { s with buffer := .empty, offset := offset }
    else none

def machine (config : Config K) (topic : List (Aggregation.Candle K)) :
    Machine (Consumers K) ConsumerAction where
  init := init
  step := step config topic

/-- The closed candles of a series come with strictly increasing close times. -/
def Ordered (topic : List (Aggregation.Candle K)) : Prop :=
  topic.Pairwise fun a b => toKey a = toKey b → a.closeTimeMs < b.closeTimeMs

/-- Every buffer is strictly increasing in the close time. -/
def Increasing (s : Consumers K) : Prop :=
  ∀ key, ∀ buffer ∈ s.buffer.buffers key, TimeSeries.Increasing Candle.close_time_ms buffer

/-- A candle that is the first of its series since the start comes after all stored points. -/
def FirstIsNewest (topic : List (Aggregation.Candle K)) (s : Consumers K) : ConsumerAction → Prop
  | .handle => ∀ message ∈ topic[s.offset]?, s.buffer.buffers (toKey message) = none →
      ∀ point ∈ s.db (toKey message), point.time * 1000 < message.closeTimeMs
  | _ => True

end Consumers

namespace CandleBuffer

variable {config : Config K} {b : CandleBuffer K} {key : Ticker × String} {points : List (OhlcvResponse K)}
  {candle : Candle K}

theorem rows_eq : (rows config points).rtake config.buffer_max_len =
    (points.rtake config.buffer_max_len).map row := by
  have newest : rows config points = (points.rtake config.buffer_max_len).map row := by
    rw [rows, ← List.map_reverse, ← List.rtake_eq_reverse_take_reverse]
  have short : (rows config points).length ≤ config.buffer_max_len := by
    simp [rows]
  rw [List.rtake, Nat.sub_eq_zero_of_le short, List.drop_zero, newest]

theorem append_other {other : Ticker × String} (ne : other ≠ key) :
    (b.append config key points candle).buffers other = b.buffers other := by
  simp only [append, warmStart]
  split_ifs <;> simp [ne]

/-- A series the service has seen since its start. -/
theorem append_of_some {buffer : List (Candle K)} (seen : b.buffers key = some buffer) :
    (b.append config key points candle).buffers key =
      some ((buffer ++ [candle]).rtake config.buffer_max_len) := by
  simp [append, seen]

/-- A series the service has not seen: the stored points come first. -/
theorem append_of_none (unseen : b.buffers key = none) (cold : b.warm_started key = false) :
    (b.append config key points candle).buffers key =
      some (((points.rtake config.buffer_max_len).map row ++ [candle]).rtake config.buffer_max_len) := by
  simp [append, unseen, warmStart, cold, rows_eq]

theorem append_warm_started (other : Ticker × String) :
    (b.append config key points candle).warm_started other = true →
      other = key ∨ b.warm_started other = true := by
  intro warm
  by_cases same : other = key
  · exact .inl same
  · refine .inr ?_
    simp only [append, warmStart] at warm
    split_ifs at warm <;> simpa [same] using warm

end CandleBuffer

namespace Consumers

variable {config : Config K} {topic : List (Aggregation.Candle K)} {s s' : Consumers K}

structure ConsumersInv (topic : List (Aggregation.Candle K)) (s : Consumers K) : Prop where
  sorted : s.db.Sorted
  /-- A buffer ends in the candle of its series handled last. -/
  newest : ∀ key, ∀ buffer ∈ s.buffer.buffers key, ∃ last, buffer.getLast? = some last ∧
    ∀ i, s.offset ≤ i → ∀ message ∈ topic[i]?, toKey message = key →
      last.close_time_ms < message.closeTimeMs
  cold : ∀ key, s.buffer.buffers key = none → s.buffer.warm_started key = false

theorem ConsumersInv.init : ConsumersInv topic init :=
  ⟨fun _ => List.Pairwise.nil, fun _ _ mem => (Option.not_mem_none _ mem).elim, fun _ _ => rfl⟩

/-- Of two messages of a series the earlier one closed earlier. -/
theorem Ordered.lt (ordered : Ordered topic) {i j : ℕ} {a b : Aggregation.Candle K} (before : i < j)
    (at_i : topic[i]? = some a) (at_j : topic[j]? = some b) (same : toKey a = toKey b) :
    a.closeTimeMs < b.closeTimeMs := by
  obtain ⟨hi, rfl⟩ := List.getElem?_eq_some_iff.1 at_i
  obtain ⟨hj, rfl⟩ := List.getElem?_eq_some_iff.1 at_j
  exact List.pairwise_iff_getElem.1 ordered i j hi hj before same

/-- The buffer of the message's series after the append ends in the message's candle. -/
theorem ConsumersInv.append_self (config : Config K) (inv : ConsumersInv topic s) (key : Ticker × String)
    (points : List (OhlcvResponse K)) (candle : Candle K) :
    ∃ old, (s.buffer.append config key points candle).buffers key =
      some ((old ++ [candle]).rtake config.buffer_max_len) := by
  cases seen : s.buffer.buffers key with
  | none => exact ⟨_, CandleBuffer.append_of_none seen (inv.cold key seen)⟩
  | some buffer => exact ⟨_, CandleBuffer.append_of_some seen⟩

/-- What holds of the consumers whatever the buffers hold. -/
theorem ConsumersInv.step {a : ConsumerAction} (two : 2 ≤ config.buffer_max_len) (ordered : Ordered topic)
    (inv : ConsumersInv topic s) (step : s.step config topic a = some s') : ConsumersInv topic s' := by
  cases a with
  | persist =>
    obtain ⟨message, -, rfl⟩ := Option.map_eq_some_iff.1 step
    exact ⟨inv.sorted.saveOhlcv _ _ _, inv.newest, inv.cold⟩
  | start offset =>
    obtain ⟨-, started⟩ := Option.ite_none_right_eq_some.1 step
    obtain rfl := Option.some.inj started
    exact ⟨inv.sorted, fun _ _ mem => (Option.not_mem_none _ mem).elim, fun _ _ => rfl⟩
  | handle =>
    obtain ⟨message, next, rfl⟩ := Option.map_eq_some_iff.1 step
    refine ⟨inv.sorted, ?_, ?_⟩
    · intro key buffer mem
      by_cases own : key = toKey message
      · subst own
        obtain ⟨old, eq⟩ := inv.append_self config (toKey message) (s.db (toKey message)) (toCandle message)
        obtain rfl := Option.some.inj (eq.symm.trans mem)
        refine ⟨toCandle message, TimeSeries.getLast?_rtake_snoc _ _ (by omega), ?_⟩
        intro i later other at_i same
        exact ordered.lt (Nat.lt_of_succ_le later) next at_i same.symm
      · rw [CandleBuffer.append_other own] at mem
        obtain ⟨last, ends, before⟩ := inv.newest key buffer mem
        exact ⟨last, ends, fun i later => before i (Nat.le_of_succ_le later)⟩
    · intro key unseen
      by_cases own : key = toKey message
      · subst own
        obtain ⟨old, eq⟩ := inv.append_self config (toKey message) (s.db (toKey message)) (toCandle message)
        rw [eq] at unseen
        cases unseen
      · rw [CandleBuffer.append_other own] at unseen
        have cold := inv.cold key unseen
        refine Bool.eq_false_iff.2 fun warm => ?_
        obtain same | warm := CandleBuffer.append_warm_started key warm
        · exact own same
        · rw [cold] at warm
          cases warm

/-- A buffer that has seen its series goes on in order. -/
theorem ConsumersInv.append_increasing (inv : ConsumersInv topic s) (two : 2 ≤ config.buffer_max_len)
    {message : Aggregation.Candle K} (next : topic[s.offset]? = some message) {buffer : List (Candle K)}
    (seen : s.buffer.buffers (toKey message) = some buffer)
    (sorted : TimeSeries.Increasing Candle.close_time_ms buffer) :
    TimeSeries.Increasing Candle.close_time_ms ((buffer ++ [toCandle message]).rtake config.buffer_max_len) := by
  rw [TimeSeries.increasing_rtake_snoc sorted two]
  intro x mem
  obtain ⟨last, ends, before⟩ := inv.newest _ _ seen
  exact (TimeSeries.le_getLast sorted ends mem).trans_lt (before _ le_rfl _ next rfl)

/-- A warm start is in order exactly if the stored points come before the candle. -/
theorem increasing_warm_iff (two : 2 ≤ config.buffer_max_len) {points : List (OhlcvResponse K)}
    (sorted : TimeSeries.Increasing OhlcvResponse.time points) (candle : Candle K) :
    TimeSeries.Increasing Candle.close_time_ms
      (((points.rtake config.buffer_max_len).map CandleBuffer.row ++ [candle]).rtake config.buffer_max_len) ↔
      ∀ point ∈ points, point.time * 1000 < candle.close_time_ms := by
  have in_ms : TimeSeries.Increasing (fun point => OhlcvResponse.time point * 1000) points :=
    sorted.imp fun lt => Int.mul_lt_mul_of_pos_right lt (by decide)
  have some_row : config.buffer_max_len ≠ 0 := by omega
  have rows : TimeSeries.Increasing Candle.close_time_ms
      ((points.rtake config.buffer_max_len).map CandleBuffer.row) :=
    List.pairwise_map.2 (TimeSeries.increasing_rtake in_ms _)
  rw [TimeSeries.increasing_rtake_snoc rows two, List.forall_mem_map,
    ← TimeSeries.forall_mem_rtake in_ms some_row]
  rfl

/-- **A step keeps all buffers increasing exactly if it is no late warm start.** -/
theorem increasing_step_iff {a : ConsumerAction} (two : 2 ≤ config.buffer_max_len)
    (inv : ConsumersInv topic s) (good : s.Increasing) (step : s.step config topic a = some s') :
    s'.Increasing ↔ s.FirstIsNewest topic a := by
  cases a with
  | persist =>
    obtain ⟨message, -, rfl⟩ := Option.map_eq_some_iff.1 step
    exact iff_of_true good trivial
  | start offset =>
    obtain ⟨-, started⟩ := Option.ite_none_right_eq_some.1 step
    obtain rfl := Option.some.inj started
    exact iff_of_true (fun _ _ mem => (Option.not_mem_none _ mem).elim) trivial
  | handle =>
    obtain ⟨message, next, rfl⟩ := Option.map_eq_some_iff.1 step
    have others : ∀ key, key ≠ toKey message →
        ∀ buffer ∈ (s.buffer.append config (toKey message) (s.db (toKey message)) (toCandle message)).buffers key,
          TimeSeries.Increasing Candle.close_time_ms buffer := by
      intro key other buffer mem
      rw [CandleBuffer.append_other other] at mem
      exact good key buffer mem
    cases seen : s.buffer.buffers (toKey message) with
    | some old =>
      refine iff_of_true ?_ ?_
      · intro key buffer mem
        by_cases own : key = toKey message
        · subst own
          obtain rfl := Option.some.inj ((CandleBuffer.append_of_some seen).symm.trans mem)
          exact inv.append_increasing two next seen (good _ _ seen)
        · exact others key own buffer mem
      · intro message' next' unseen
        obtain rfl := Option.some.inj (next.symm.trans next')
        rw [seen] at unseen
        cases unseen
    | none =>
      have after := @CandleBuffer.append_of_none _ config _ _ (s.db (toKey message)) (toCandle message)
        seen (inv.cold _ seen)
      have warm := increasing_warm_iff two (inv.sorted (toKey message)) (toCandle message)
      constructor
      · intro increasing message' next' _
        obtain rfl := Option.some.inj (next.symm.trans next')
        exact warm.1 (increasing _ _ after)
      · intro newest key buffer mem
        by_cases own : key = toKey message
        · subst own
          obtain rfl := Option.some.inj (after.symm.trans mem)
          exact warm.2 (newest message next seen)
        · exact others key own buffer mem

/-- The stored points of a series are those of its messages persisted so far. -/
structure Stored (topic : List (Aggregation.Candle K)) (s : Consumers K) : Prop where
  from_message : ∀ series, ∀ point ∈ s.db series, ∃ j, j < s.persisted ∧
    ∃ message ∈ topic[j]?, toKey message = series ∧ point = KafkaCandleConsumer.ohlcv message
  of_message : ∀ j, j < s.persisted → ∀ message ∈ topic[j]?,
    ∃ point ∈ s.db (toKey message), point.time = message.closeTimeMs.tdiv 1000

theorem Stored.step {a : ConsumerAction} (h : Stored topic s) (step : s.step config topic a = some s') :
    Stored topic s' := by
  cases a with
  | start offset =>
    obtain ⟨-, started⟩ := Option.ite_none_right_eq_some.1 step
    obtain rfl := Option.some.inj started
    exact ⟨h.from_message, h.of_message⟩
  | handle =>
    obtain ⟨message, -, rfl⟩ := Option.map_eq_some_iff.1 step
    exact ⟨h.from_message, h.of_message⟩
  | persist =>
    obtain ⟨message, next, rfl⟩ := Option.map_eq_some_iff.1 step
    have db_self : KafkaCandleConsumer.consume s.db message (toKey message) =
        TimeSeries.upsert OhlcvResponse.time (KafkaCandleConsumer.ohlcv message) (s.db (toKey message)) :=
      Function.update_self ..
    have db_other : ∀ series, series ≠ toKey message →
        KafkaCandleConsumer.consume s.db message series = s.db series :=
      fun series other => Function.update_of_ne other ..
    constructor
    · intro series point mem
      dsimp only at mem ⊢
      have old : ∀ point ∈ s.db series, ∃ j, j < s.persisted + 1 ∧
          ∃ message ∈ topic[j]?, toKey message = series ∧ point = KafkaCandleConsumer.ohlcv message := by
        intro point mem
        obtain ⟨j, lt, rest⟩ := h.from_message series point mem
        exact ⟨j, by omega, rest⟩
      by_cases own : series = toKey message
      · subst own
        rw [db_self] at mem
        obtain rfl | mem := TimeSeries.mem_of_mem_upsert mem
        · exact ⟨s.persisted, by omega, message, next, rfl, rfl⟩
        · exact old point mem
      · rw [db_other series own] at mem
        exact old point mem
    · intro j lt other at_j
      dsimp only at lt ⊢
      rcases Nat.lt_succ_iff_lt_or_eq.1 lt with earlier | rfl
      · obtain ⟨point, mem, time⟩ := h.of_message j earlier other at_j
        by_cases own : toKey other = toKey message
        · rw [own] at mem ⊢
          rw [db_self]
          by_cases same : point.time = (KafkaCandleConsumer.ohlcv message).time
          · exact ⟨_, TimeSeries.self_mem_upsert _ _, same.symm.trans time⟩
          · exact ⟨point, TimeSeries.mem_upsert_of_mem mem same, time⟩
        · rw [db_other _ own]
          exact ⟨point, mem, time⟩
      · obtain rfl := Option.some.inj (next.symm.trans at_j)
        rw [db_self]
        exact ⟨_, TimeSeries.self_mem_upsert _ _, rfl⟩

/-- Closed candles end on whole seconds; for them the condition is one on the offsets: the
persisting consumer is not ahead of the service. -/
theorem firstIsNewest_iff (ordered : Ordered topic) (whole : ∀ message ∈ topic, 1000 ∣ message.closeTimeMs)
    (reach : (machine config topic).Reachable s) {message : Aggregation.Candle K}
    (next : topic[s.offset]? = some message) (unseen : s.buffer.buffers (toKey message) = none) :
    s.FirstIsNewest topic .handle ↔ s.persisted ≤ s.offset := by
  have stored : Stored topic s :=
    reach.induct ⟨fun _ _ mem => (List.not_mem_nil mem).elim, fun _ lt => absurd lt (Nat.not_lt_zero _)⟩
      fun _ _ _ stored step => stored.step step
  have in_ms : ∀ {j : ℕ} {other : Aggregation.Candle K}, topic[j]? = some other →
      other.closeTimeMs.tdiv 1000 * 1000 = other.closeTimeMs :=
    fun at_j => Int.tdiv_mul_cancel (whole _ (List.mem_of_getElem? at_j))
  constructor
  · intro newest
    by_contra ahead
    obtain ⟨point, mem, time⟩ := stored.of_message s.offset (by omega) message next
    have lt := newest message next unseen point mem
    rw [time, in_ms next] at lt
    exact lt_irrefl _ lt
  · intro behind other next' _ point mem
    obtain rfl := Option.some.inj (next.symm.trans next')
    obtain ⟨j, lt, earlier, at_j, same, rfl⟩ := stored.from_message _ _ mem
    have before := ordered.lt (by omega) at_j next same
    rw [KafkaCandleConsumer.ohlcv, in_ms at_j]
    exact before

instance (topic : List (Aggregation.Candle K)) (s : Consumers K) (a : ConsumerAction) :
    Decidable (s.FirstIsNewest topic a) :=
  match a with
  | .handle => inferInstanceAs (Decidable (∀ message ∈ topic[s.offset]?, _ → ∀ point ∈ _, _))
  | .persist | .start _ => isTrue trivial

/-- **The buffers are strictly increasing exactly if the first candle of a series after a start
is not stored yet, and no later one is.** -/
theorem increasing_iff (two : 2 ≤ config.buffer_max_len) (ordered : Ordered topic)
    (acts : List ConsumerAction) (s : Consumers K) (run : (machine config topic).run acts = some s) :
    (machine config topic).Always Increasing acts ↔
      (machine config topic).Along (FirstIsNewest topic) init acts := by
  refine Machine.always_iff_along (fun _ _ mem => (Option.not_mem_none _ mem).elim) ?_ acts s run
  intro s a s' reach good step
  have inv : ConsumersInv topic s :=
    reach.induct .init fun _ _ _ inv step => inv.step two ordered step
  exact increasing_step_iff two inv good step

/-- Two closed candles of a series. -/
def twoCandles : List (Aggregation.Candle ℚ) :=
  [⟨"005930", 1, 1, 1, 1, 1, 0, 900000, 1, 15⟩, ⟨"005930", 1, 1, 1, 1, 1, 900000, 1800000, 1, 15⟩]

theorem ordered_twoCandles : Ordered twoCandles := by
  simp [Ordered, twoCandles]

/-- The service is ahead of the persisting consumer. -/
theorem increasing_iff_ahead :
    (machine Config.shipped twoCandles).Always Increasing [.handle, .persist, .handle, .persist] := by
  obtain ⟨s, run, -⟩ := Machine.exists_of_any (M := machine Config.shipped twoCandles)
    [.handle, .persist, .handle, .persist] (fun _ => true) (by decide +kernel)
  exact (increasing_iff (by decide) ordered_twoCandles _ s run).2
    (Machine.along_of_check (p := fun s a => decide (s.FirstIsNewest twoCandles a))
      (fun _ _ => of_decide_eq_true) (by decide +kernel))

/-- The first candle after the start is stored already: it is read and appended. -/
theorem candle_counted_twice :
    ¬ ∀ (topic : List (Aggregation.Candle ℚ)) (acts : List ConsumerAction) (s : Consumers ℚ),
      Ordered topic → (machine Config.shipped topic).run acts = some s → s.Increasing := by
  intro claim
  obtain ⟨s, run, twice⟩ := Machine.exists_of_any (M := machine Config.shipped twoCandles) [.persist, .handle]
    (fun s => (s.buffer.buffers ("005930", "15m")).map (·.map Candle.close_time_ms) = some [900000, 900000])
    (by decide +kernel)
  obtain ⟨buffer, buffered, times⟩ := Option.map_eq_some_iff.1 (of_decide_eq_true twice)
  have increasing := List.pairwise_map.2 (claim twoCandles _ s ordered_twoCandles run _ buffer buffered)
  rw [times] at increasing
  simp at increasing

end Consumers

end StockAnomaly.AiSignalService

import Mathlib.Algebra.Field.Rat
import Mathlib.Algebra.Order.Ring.Rat
import StockAnomaly.Aggregation.Scalping
import StockAnomaly.Aggregation.TickerIsolation
import StockAnomaly.ApiServer.KisMessages

/-!
# From the KIS sessions to the aggregator

Every session of the api-server publishes the trades it gets on the topic
`raw-market-data`; the engine's market consumer decodes each record and pushes the tick,
whatever its `ownerEmail`. KIS sends a trade once on every subscribed session, so the
aggregator sees it once for every app key. The statistics are those of one subscriber
exactly when there is one: **`invisible_iff`**.
-/

namespace StockAnomaly.Engine

open StockAnomaly.Theory StockAnomaly.Aggregation StockAnomaly.ApiServer

variable {K : Type*}

/-- One message on the session of an app key, and the clock when it is handled. -/
structure Delivery where
  appKey : AppKey
  payload : String
  nowMs : ℕ

/-- What `strncpy` leaves of a text in a `char[12]`, in characters of one byte. -/
def tickerField (text : String) : Ticker :=
  String.ofList ((text.toList.takeWhile (· ≠ Char.ofNat 0)).take 11)

/-- The handler of `market_consumer`; `stod` stands for `std::stod`, which throws on a text
that starts with no number. -/
def marketTick (stod : String → Option K) (record : StockTick) : Option (Tick K) := do
  let price ← stod record.price
  let volume ← stod record.volume
  some { ticker := tickerField record.ticker, price, volume, timestampMs := record.timestamp }

/-- From the message to the tick that is pushed. -/
def Delivery.tick (stod : String → Option K) (d : Delivery) : Option (Tick K) :=
  (KisWebSocketClient.handleTextMessage d.payload (some d.appKey) d.nowMs).bind (marketTick stod)

/-- The ticks that reach `push_tick`, in the order of the topic. -/
def marketTicks (stod : String → Option K) (deliveries : List Delivery) : List (Tick K) :=
  deliveries.filterMap (Delivery.tick stod)

/-- The message is a trade that both services can read. -/
def Readable (stod : String → Option K) (payload : String) : Bool :=
  ((KisWebSocketClient.handleTextMessage payload none 0).bind (marketTick stod)).isSome

/-- The trades of a ticker, sent once on the session of every one of `keys`; the sessions
take turns in any way. -/
structure Broadcast (keys : Finset AppKey) (trades : List String) (deliveries : List Delivery) : Prop where
  subscribed : ∀ d ∈ deliveries, d.appKey ∈ keys
  once : ∀ k ∈ keys, (deliveries.filter (·.appKey = k)).map Delivery.payload = trades

/-- Whether a message becomes a tick does not depend on the session and the clock. -/
theorem tick_isSome (stod : String → Option K) (d : Delivery) : (d.tick stod).isSome = Readable stod d.payload := by
  unfold Delivery.tick Readable
  rw [KisWebSocketClient.handleTextMessage_eq]
  cases KisWebSocketClient.handleTextMessage d.payload none 0 with
  | none => rfl
  | some record =>
    simp only [Option.map_some, Option.bind_some, marketTick]
    cases stod record.price with
    | none => rfl
    | some price => cases stod record.volume <;> rfl

/-- The clock of the api-server counts from the epoch. -/
theorem timestampMs_nonneg {stod : String → Option K} {deliveries : List Delivery} :
    ∀ t ∈ marketTicks stod deliveries, 0 ≤ t.timestampMs := by
  intro t mem
  obtain ⟨d, -, tick⟩ := List.mem_filterMap.1 mem
  obtain ⟨record, handled, decoded⟩ := Option.bind_eq_some_iff.1 tick
  rw [KisWebSocketClient.handleTextMessage_eq] at handled
  obtain ⟨parsed, -, rfl⟩ := Option.map_eq_some_iff.1 handled
  simp only [marketTick, Option.bind_eq_bind, Option.bind_eq_some_iff] at decoded
  obtain ⟨price, -, volume, -, made⟩ := decoded
  cases made
  exact Int.natCast_nonneg _

theorem length_marketTicks (stod : String → Option K) (deliveries : List Delivery) :
    (marketTicks stod deliveries).length = (deliveries.map Delivery.payload).countP (Readable stod) := by
  rw [marketTicks, List.length_filterMap_eq_countP, List.countP_map]
  have same : (fun d => (Delivery.tick stod d).isSome) = Readable stod ∘ Delivery.payload := by
    funext d
    rw [tick_isSome, Function.comp_apply]
  rw [← same]

/-- **Every readable trade is counted once for each app key.** -/
theorem Broadcast.length {keys : Finset AppKey} {trades : List String} {deliveries : List Delivery}
    (h : Broadcast keys trades deliveries) (stod : String → Option K) :
    (marketTicks stod deliveries).length = keys.card * trades.countP (Readable stod) := by
  have per_key : ∀ k ∈ keys,
      ((deliveries.filter fun d => Readable stod d.payload).filter (·.appKey = k)).length =
        trades.countP (Readable stod) := by
    intro k mem
    rw [← h.once k mem, List.countP_map, List.countP_eq_length_filter, List.filter_filter, List.filter_filter]
    congr 1
    apply List.filter_congr
    intro d _
    rw [Bool.and_comm]
    rfl
  have known : ∀ d ∈ deliveries.filter fun d => Readable stod d.payload, d.appKey ∈ keys := by
    intro d mem
    exact h.subscribed d (List.mem_filter.1 mem).1
  rw [length_marketTicks, List.countP_map, List.countP_eq_length_filter,
    ← Finset.sum_const_nat per_key]
  exact length_eq_sum_filter Delivery.appKey keys known

section Statistics

variable [Field K] [LinearOrder K] [Sqrt K]

/-- What the aggregator makes of all deliveries is what it makes of one session's. -/
structure SameStatistics (stod : String → Option K) (deliveries : List Delivery) (k : AppKey) : Prop where
  ticks : marketTicks stod deliveries = marketTicks stod (deliveries.filter (·.appKey = k))
  candles : SwingPath.run (marketTicks stod deliveries) =
    SwingPath.run (marketTicks stod (deliveries.filter (·.appKey = k)))
  zscores : Scalping.drain (marketTicks stod deliveries) =
    Scalping.drain (marketTicks stod (deliveries.filter (·.appKey = k)))

theorem sameStatistics_of_eq {stod : String → Option K} {deliveries : List Delivery} {k : AppKey}
    (same : marketTicks stod deliveries = marketTicks stod (deliveries.filter (·.appKey = k))) :
    SameStatistics stod deliveries k :=
  ⟨same, by rw [same], by rw [same]⟩

/-- **The statistics depend on who is watching**: for trades sent once on every subscribed
session they are those of a single subscriber if and only if there is a single app key, or
none of the trades can be read. -/
theorem invisible_iff (stod : String → Option K) {keys : Finset AppKey} {trades : List String}
    {deliveries : List Delivery} (sent : Broadcast keys trades deliveries) (watched : keys.Nonempty) :
    (∀ k ∈ keys, SameStatistics stod deliveries k) ↔
      keys.card = 1 ∨ ∀ payload ∈ trades, Readable stod payload = false := by
  obtain ⟨k, mem⟩ := watched
  have alone : (marketTicks stod (deliveries.filter (·.appKey = k))).length = trades.countP (Readable stod) := by
    rw [length_marketTicks, sent.once k mem]
  have unreadable : trades.countP (Readable stod) = 0 ↔ ∀ payload ∈ trades, Readable stod payload = false := by
    simp [List.countP_eq_zero]
  constructor
  · intro same
    have count := congrArg List.length (same k mem).ticks
    rw [sent.length, alone] at count
    rw [← unreadable]
    rcases Nat.eq_zero_or_pos (trades.countP (Readable stod)) with none_read | some_read
    · exact .inr none_read
    · exact .inl (Nat.eq_of_mul_eq_mul_right some_read (count.trans (Nat.one_mul _).symm))
  · rintro (single | none_read) k' mem'
    · apply sameStatistics_of_eq
      have only : deliveries.filter (·.appKey = k') = deliveries := by
        apply List.filter_eq_self.2
        intro d sub
        exact decide_eq_true (Finset.card_le_one.1 single.le _ (sent.subscribed d sub) _ mem')
      rw [only]
    · apply sameStatistics_of_eq
      have none_here : (marketTicks stod (deliveries.filter (·.appKey = k'))).length = 0 := by
        rw [length_marketTicks, sent.once k' mem', unreadable]
        exact none_read
      have none_at_all : (marketTicks stod deliveries).length = 0 := by
        rw [sent.length, unreadable.2 none_read, Nat.mul_zero]
      rw [List.length_eq_zero_iff.1 none_here, List.length_eq_zero_iff.1 none_at_all]

end Statistics

/-- A trade of Samsung Electronics as KIS sends it, up to the accumulated volume. -/
def samsungTrade (acmlVol : String) : String :=
  "0|H0STCNT0|001|005930^093354^71900^5^100^0.14^72023^72100^72400^71700^71900^71800^1^" ++ acmlVol

/-- `std::stod` on a text of digits. -/
def stodDigits (text : String) : Option ℚ :=
  if text ≠ "" ∧ text.toList.all Char.isDigit then
    some (text.toList.foldl (fun n c => 10 * n + ((c.toNat - 48 : ℕ) : ℚ)) 0)
  else none

/-- Its fields. -/
def samsungFields (acmlVol : String) : List String :=
  ["005930", "093354", "71900", "5", "100", "0.14", "72023", "72100", "72400", "71700", "71900", "71800", "1",
    acmlVol]

theorem samsungTrade_eq (acmlVol : String) : samsungTrade acmlVol = "|".intercalate ["0", "H0STCNT0", "001",
    "^".intercalate (samsungFields acmlVol)] := by
  rw [samsungFields]
  repeat rw [String.intercalate_cons_cons]
  rw [String.intercalate_singleton, String.intercalate_singleton]
  repeat rw [← String.append_assoc]
  exact congrArg (· ++ acmlVol) (by decide +kernel)

/-- It is read as a trade at 71900. -/
theorem tick_samsungTrade {acmlVol : String} {volume : ℚ} (digits : stodDigits acmlVol = some volume)
    (appKey : AppKey) (nowMs : ℕ) :
    (⟨appKey, samsungTrade acmlVol, nowMs⟩ : Delivery).tick stodDigits = some ⟨"005930", 71900, volume, nowMs⟩ := by
  have number : acmlVol ≠ "" ∧ acmlVol.toList.all Char.isDigit = true := by
    by_contra other
    rw [stodDigits, if_neg other] at digits
    cases digits
  have digit : ∀ c ∈ acmlVol.toList, c.isDigit = true := List.all_eq_true.1 number.2
  have no_bar : '|' ∉ acmlVol.toList := fun mem => absurd (digit '|' mem) (by decide)
  have no_caret : '^' ∉ acmlVol.toList := fun mem => absurd (digit '^' mem) (by decide)
  have data : JavaString.split '^' ("^".intercalate (samsungFields acmlVol)) = samsungFields acmlVol := by
    refine JavaString.split_join_of_nonempty rfl (by simp [samsungFields]) ?_ ?_
    · simp [samsungFields, no_caret]
    · simp [samsungFields, number.1]
  have bar_free : '|' ∉ ("^".intercalate (samsungFields acmlVol)).toList :=
    JavaString.notMem_join (by decide) (by simp [samsungFields, no_bar])
  have message := samsungTrade_eq acmlVol
  generalize "^".intercalate (samsungFields acmlVol) = text at data bar_free message
  have some_text : text ≠ "" := by
    rintro rfl
    exact absurd (congrArg List.length data) (by simp [samsungFields, JavaString.split])
  have parts : JavaString.split '|' (samsungTrade acmlVol) = ["0", "H0STCNT0", "001", text] := by
    rw [message]
    exact JavaString.split_join_of_nonempty rfl (by simp) (by simp [bar_free]) (by simp [some_text])
  have starts : JavaString.startsWith (samsungTrade acmlVol) "0" = true := by
    rw [message, String.intercalate_cons_cons, String.append_assoc]
    exact JavaString.startsWith_append ..
  have price : stodDigits "71900" = some 71900 := by decide +kernel
  have ticker : tickerField "005930" = "005930" := by decide +kernel
  simp only [Delivery.tick, KisWebSocketClient.handleTextMessage, starts, KisWebSocketClient.parseAndPublish, parts,
    List.getD_cons_succ, List.getD_cons_zero, data]
  simp [samsungFields, marketTick, price, digits, ticker]

/-- Two trades of the ticker. -/
def twoTrades : List String := [samsungTrade "3052507", samsungTrade "3052600"]

/-- One app key, and two whose sessions take turns. -/
theorem invisible_iff_two :
    (∀ k ∈ ({"PSa"} : Finset AppKey), SameStatistics stodDigits
        [⟨"PSa", samsungTrade "3052507", 1000⟩, ⟨"PSa", samsungTrade "3052600", 2000⟩] k) ∧
      ¬ ∀ k ∈ ({"PSa", "PSb"} : Finset AppKey), SameStatistics stodDigits
        [⟨"PSa", samsungTrade "3052507", 1000⟩, ⟨"PSb", samsungTrade "3052507", 1001⟩,
          ⟨"PSb", samsungTrade "3052600", 2000⟩, ⟨"PSa", samsungTrade "3052600", 2001⟩] k := by
  have sent_one : Broadcast {"PSa"} twoTrades
      [⟨"PSa", samsungTrade "3052507", 1000⟩, ⟨"PSa", samsungTrade "3052600", 2000⟩] :=
    ⟨by decide +kernel, by decide +kernel⟩
  have sent_two : Broadcast {"PSa", "PSb"} twoTrades
      [⟨"PSa", samsungTrade "3052507", 1000⟩, ⟨"PSb", samsungTrade "3052507", 1001⟩,
        ⟨"PSb", samsungTrade "3052600", 2000⟩, ⟨"PSa", samsungTrade "3052600", 2001⟩] :=
    ⟨by decide +kernel, by decide +kernel⟩
  have volume : stodDigits "3052507" = some 3052507 := by decide +kernel
  have readable : Readable stodDigits (samsungTrade "3052507") = true := by
    rw [← tick_isSome stodDigits ⟨"PSa", samsungTrade "3052507", 1000⟩, tick_samsungTrade volume, Option.isSome_some]
  refine ⟨(invisible_iff stodDigits sent_one (by decide)).2 (.inl rfl), ?_⟩
  rw [invisible_iff stodDigits sent_two (by decide), not_or]
  refine ⟨by decide, fun none_read => ?_⟩
  exact absurd readable (by rw [none_read _ List.mem_cons_self]; decide)

/-- Two users with their own app keys watch the ticker, and one trade becomes two ticks. -/
theorem two_watchers_count_twice :
    ¬ ∀ (keys : Finset AppKey) (trades : List String) (deliveries : List Delivery),
      Broadcast keys trades deliveries → keys.Nonempty →
        ∀ k ∈ keys, SameStatistics stodDigits deliveries k := by
  intro claim
  have same := claim {"PSa", "PSb"} [samsungTrade "3052507"]
    [⟨"PSa", samsungTrade "3052507", 1000⟩, ⟨"PSb", samsungTrade "3052507", 1001⟩]
    ⟨by decide +kernel, by decide +kernel⟩ (by decide) "PSa" (by decide)
  have volume : stodDigits "3052507" = some 3052507 := by decide +kernel
  have count := congrArg List.length same.ticks
  simp [marketTicks, tick_samsungTrade volume] at count

end StockAnomaly.Engine

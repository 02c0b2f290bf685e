import StockAnomaly.ApiServer.KafkaCandleConsumer
import StockAnomaly.ApiServer.KisTokens
import StockAnomaly.Theory.JavaTime

/-!
# The periods of the stored bars

`getOhlcv` stores what it fetches from KIS under the interval text of the request, while
`fetchHistoricalOhlcv` decides by a mapping of its own, with daily bars as the default,
what is fetched. A request for an interval that the mapping does not know stores daily bars
under that interval, also under `15m` and `1h`, which belong to the engine's candles:
**`periods_iff`** says that nothing else goes wrong.
-/

namespace StockAnomaly.ApiServer

open StockAnomaly.Aggregation (Ticker)
open StockAnomaly.Theory

/-- What one bar stands for. -/
inductive Period
  | minute
  | quarter
  | hour
  | day
  | week
  | month
deriving DecidableEq

/-- The period an interval tag names. -/
def Period.ofTag (interval : String) : Option Period :=
  match interval with
  | "1m" => some .minute
  | "15m" => some .quarter
  | "1h" => some .hour
  | "1d" => some .day
  | "1w" => some .week
  | "1M" => some .month
  | _ => none

/-- The range of a query. -/
inductive FluxRange
  | between (start stop : ℤ)
  /-- `-days d` to now. -/
  | last (days : ℤ)

/-- The request for a chart: `inquire-daily-itemchartprice` and `inquire-time-itemchartprice`. -/
inductive KisRequest
  | dailyItemChart (ticker periodDiv startDate endDate : String)
  | timeItemChart (ticker date time : String)

/-- The bars KIS returns. -/
def KisRequest.period : KisRequest → Period
  | .dailyItemChart _ periodDiv _ _ =>
    if periodDiv = "W" then .week else if periodDiv = "M" then .month else .day
  | .timeItemChart _ _ _ => .minute

/-- A bar with the period it was fetched for. -/
structure Bar (K : Type) where
  ohlcv : OhlcvResponse K
  period : Period

/-- What a request meets outside the service: the points the query finds, the access token,
the bars in `output2`, newest first and empty on an error, the server's date and the time. -/
structure Surroundings (K : Type) where
  findOhlcv : FluxRange → List (OhlcvResponse K)
  accessToken : Option String
  output2 : KisRequest → List (OhlcvResponse K)
  today : ℤ
  now : ℤ

variable {K : Type}

namespace KisApiService

/-- `KST_OFFSET` in seconds. -/
def kstOffset : ℤ := 9 * 3600

/-- The rows of an answer, oldest first. -/
def bars (env : Surroundings K) (request : KisRequest) : List (Bar K) :=
  (env.output2 request).reverse.map fun ohlcv => ⟨ohlcv, request.period⟩

def fetchMinuteOhlcv (env : Surroundings K) (ticker : Ticker) (endDateTime : Option String) :
    Option (List (Bar K)) := do
  let kst := env.now + kstOffset
  let (date, time) := match endDateTime.filter fun text => 14 ≤ text.length with
    | some text => (String.ofList (text.toList.take 8), String.ofList ((text.toList.drop 8).take 6))
    | none => (JavaTime.formatDate (kst / 86400), JavaTime.formatTime (kst % 86400))
  let hour ← JavaTime.digits (time.toList.take 2)
  let minute ← JavaTime.digits ((time.toList.drop 2).take 2)
  if hour > 15 ∨ (hour = 15 ∧ minute ≥ 30) then some (bars env (.timeItemChart ticker date "153000"))
  else if hour < 9 then some []
  else some (bars env (.timeItemChart ticker date time))

/-- `FID_PERIOD_DIV_CODE`. -/
def periodDiv (interval : String) : String :=
  if interval = "1w" then "W" else if interval = "1M" then "M" else "D"

/-- `fetchHistoricalOhlcv`; `none` is a `DateTimeParseException`. -/
def fetchHistoricalOhlcv (env : Surroundings K) (ticker : Ticker) (interval : String) (days : ℤ)
    (endDateParam : Option String) : Option (List (Bar K)) :=
  if env.accessToken.isNone then some []
  else if interval = "1m" then fetchMinuteOhlcv env ticker endDateParam
  else do
    let periodDiv := periodDiv interval
    let endDate := endDateParam.getD (JavaTime.formatDate env.today)
    let fetchDays := if periodDiv = "D" then days else if periodDiv = "W" then days * 7 else days * 30
    let endDay ← JavaTime.parseDate endDate
    let startDate := JavaTime.formatDate (endDay - fetchDays)
    some (bars env (.dailyItemChart ticker periodDiv startDate endDate))

end KisApiService

/-- A request that `StockController` passes on. -/
structure OhlcvRequest where
  ticker : Ticker
  interval : String
  days : ℤ
  endDate : Option String
  user : KisKeys

namespace StockService

open KisApiService

/-- The range of the query and the end of the response; `none` is a `DateTimeParseException`. -/
def range (r : OhlcvRequest) : Option (FluxRange × Option ℤ) :=
  let effectiveDays := if r.interval = "1m" then min r.days 3 else r.days
  match r.endDate with
  | none => some (.last effectiveDays, none)
  | some endDate =>
    if 14 ≤ endDate.length then
      (JavaTime.parseDateTime kstOffset (String.ofList (endDate.toList.take 14))).map fun stop =>
        (.between (stop - effectiveDays * 86400) stop, some stop)
    else
      (JavaTime.parseDate endDate).map fun day =>
        (.between ((day - effectiveDays) * 86400) (day * 86400 + 86399), some (day * 86400 + 86399))

def needsApiFetch (r : OhlcvRequest) (dbData : List (OhlcvResponse K)) : Bool :=
  if r.endDate.isSome then dbData.length < 10
  else dbData.length < if r.interval = "1m" then 20 else 50

/-- The bars fetched for a request: none when there are enough points or no keys. -/
def apiData (env : Surroundings K) (r : OhlcvRequest) (dbData : List (OhlcvResponse K)) :
    Option (List (Bar K)) :=
  if needsApiFetch r dbData && r.user.kisApiKey.isSome && r.user.kisSecretKey.isSome then
    fetchHistoricalOhlcv env r.ticker r.interval r.days r.endDate
  else some []

/-- The stored points with the fetched bars over them. -/
def merge (dbData : List (OhlcvResponse K)) (fetched : List (Bar K)) : List (OhlcvResponse K) :=
  (dbData ++ fetched.map Bar.ohlcv).foldl (fun map ohlcv => TimeSeries.upsert OhlcvResponse.time ohlcv map) []

/-- `getOhlcv`: the response, and the bars it stores under the interval of the request. -/
def getOhlcv (env : Surroundings K) (r : OhlcvRequest) : Option (List (OhlcvResponse K) × List (Bar K)) := do
  let (range, stop) ← range r
  let dbData := env.findOhlcv range
  let fetched ← apiData env r dbData
  if fetched.isEmpty then some (dbData.mergeSort fun a b => a.time ≤ b.time, [])
  else some ((merge dbData fetched).filter fun d => stop.all (d.time ≤ ·), fetched)

end StockService

/-- A candle closed by the trading engine. -/
structure ClosedCandle (K : Type) extends Aggregation.Candle K where
  window : windowMinutes = 15 ∨ windowMinutes = 60

/-- A point written to `stock_prices`, with what its bar is. -/
structure Written (K : Type) where
  ticker : Ticker
  interval : String
  bar : Bar K
  /-- Whether the engine closed the bar. -/
  closedByEngine : Bool

inductive StockAction (K : Type)
  | getOhlcv (env : Surroundings K) (r : OhlcvRequest)
  /-- `KafkaCandleConsumer` handles a message. -/
  | consume (message : ClosedCandle K)

namespace StockPrices

/-- The period of a closed candle. -/
def periodOf (message : ClosedCandle K) : Period := if message.windowMinutes = 60 then .hour else .quarter

/-- The bars a request stores; none when it fails. -/
def stored (env : Surroundings K) (r : OhlcvRequest) : List (Bar K) :=
  ((StockService.getOhlcv env r).map Prod.snd).getD []

/-- All points written so far. -/
def step (written : List (Written K)) : StockAction K → Option (List (Written K))
  | .getOhlcv env r => some (written ++ (stored env r).map fun bar => ⟨r.ticker, r.interval, bar, false⟩)
  | .consume message =>
    some (written ++ [⟨message.ticker, KafkaCandleConsumer.interval message.toCandle,
      ⟨KafkaCandleConsumer.ohlcv message.toCandle, periodOf message⟩, true⟩])

def machine (K : Type) : Machine (List (Written K)) (StockAction K) where
  init := []
  step := step

/-- Every bar has the period of its tag, and those of `15m` and `1h` are the engine's. -/
def Consistent (written : List (Written K)) : Prop :=
  ∀ w ∈ written, Period.ofTag w.interval = some w.bar.period ∧
    (w.interval = "15m" ∨ w.interval = "1h" → w.closedByEngine = true)

/-- A request for which KIS is not asked for daily bars, or has none: enough points are stored, a key
or the access token is missing, or the date is not a `yyyyMMdd`. -/
def NoDailyBars (env : Surroundings K) (r : OhlcvRequest) : Prop :=
  ∀ range ∈ StockService.range r, StockService.needsApiFetch r (env.findOhlcv range.1) = true →
    r.user.kisApiKey.isSome = true → r.user.kisSecretKey.isSome = true → env.accessToken.isSome = true →
    let endDate := r.endDate.getD (JavaTime.formatDate env.today)
    ∀ endDay ∈ JavaTime.parseDate endDate,
      env.output2 (.dailyItemChart r.ticker "D" (JavaTime.formatDate (endDay - r.days)) endDate) = []

/-- The mapping of `fetchHistoricalOhlcv` knows the interval, or its default brings no bars. -/
def Known (_ : List (Written K)) : StockAction K → Prop
  | .getOhlcv env r => r.interval ∈ ["1m", "1d", "1w", "1M"] ∨ NoDailyBars env r
  | .consume _ => True

/-- The period `fetchHistoricalOhlcv` asks for. -/
def fetchedPeriod (interval : String) : Period :=
  if interval = "1m" then .minute
  else if interval = "1w" then .week
  else if interval = "1M" then .month
  else .day

/-- The tag names the fetched period for the four intervals of the mapping only. -/
theorem ofTag_eq_fetchedPeriod_iff (interval : String) :
    Period.ofTag interval = some (fetchedPeriod interval) ↔ interval ∈ ["1m", "1d", "1w", "1M"] := by
  simp only [List.mem_cons, List.not_mem_nil, or_false]
  unfold Period.ofTag
  split
  case h_7 minute _ _ day week month =>
    refine iff_of_false nofun ?_
    rintro (same | same | same | same)
    · exact minute same
    · exact day same
    · exact week same
    · exact month same
  all_goals decide

theorem bars_period {env : Surroundings K} {request : KisRequest} {bar : Bar K}
    (mem : bar ∈ KisApiService.bars env request) : bar.period = request.period := by
  obtain ⟨ohlcv, -, rfl⟩ := List.mem_map.1 mem
  rfl

/-- Minute bars, whatever the time. -/
theorem fetchMinuteOhlcv_period {env : Surroundings K} {ticker : Ticker} {endDateTime : Option String}
    {fetched : List (Bar K)} (fetch : KisApiService.fetchMinuteOhlcv env ticker endDateTime = some fetched) :
    ∀ bar ∈ fetched, bar.period = .minute := by
  intro bar mem
  simp only [KisApiService.fetchMinuteOhlcv, Option.bind_eq_bind, Option.bind_eq_some_iff] at fetch
  obtain ⟨hour, -, minute, -, fetch⟩ := fetch
  split_ifs at fetch
  · cases fetch
    exact bars_period mem
  · cases fetch
    cases mem
  · cases fetch
    exact bars_period mem

/-- What is fetched for an interval. -/
theorem fetchHistoricalOhlcv_period {env : Surroundings K} {ticker : Ticker} {interval : String} {days : ℤ}
    {endDate : Option String} {fetched : List (Bar K)}
    (fetch : KisApiService.fetchHistoricalOhlcv env ticker interval days endDate = some fetched) :
    ∀ bar ∈ fetched, bar.period = fetchedPeriod interval := by
  intro bar mem
  unfold KisApiService.fetchHistoricalOhlcv at fetch
  split_ifs at fetch with token minute
  · cases fetch
    cases mem
  · rw [fetchMinuteOhlcv_period fetch bar mem, fetchedPeriod, if_pos minute]
  · simp only [Option.bind_eq_bind, Option.bind_eq_some_iff, Option.some.injEq] at fetch
    obtain ⟨endDay, -, rfl⟩ := fetch
    rw [bars_period mem, KisRequest.period, KisApiService.periodDiv, fetchedPeriod, if_neg minute]
    split_ifs <;> simp_all

theorem apiData_period {env : Surroundings K} {r : OhlcvRequest} {dbData : List (OhlcvResponse K)}
    {fetched : List (Bar K)} (fetch : StockService.apiData env r dbData = some fetched) :
    ∀ bar ∈ fetched, bar.period = fetchedPeriod r.interval := by
  unfold StockService.apiData at fetch
  split_ifs at fetch
  · exact fetchHistoricalOhlcv_period fetch
  · cases fetch
    exact fun bar mem => (List.not_mem_nil mem).elim

/-- What a request stores is what it fetches. -/
theorem stored_spec (env : Surroundings K) (r : OhlcvRequest) :
    (stored env r = [] ∨ ∃ range ∈ StockService.range r,
      StockService.apiData env r (env.findOhlcv range.1) = some (stored env r)) ∧
    ∀ range ∈ StockService.range r, ∀ fetched ∈ StockService.apiData env r (env.findOhlcv range.1),
      stored env r = fetched := by
  have value : ∀ range ∈ StockService.range r,
      ∀ fetched ∈ StockService.apiData env r (env.findOhlcv range.1), stored env r = fetched := by
    intro range found fetched fetch
    rw [Option.mem_def] at found fetch
    simp only [stored, StockService.getOhlcv, Option.bind_eq_bind, found, fetch, Option.bind_some]
    split_ifs with empty
    · rw [List.isEmpty_iff.1 empty]
      rfl
    · rfl
  refine ⟨?_, value⟩
  cases found : StockService.range r with
  | none => exact .inl (by simp [stored, StockService.getOhlcv, found])
  | some range =>
    cases fetch : StockService.apiData env r (env.findOhlcv range.1) with
    | none => exact .inl (by simp [stored, StockService.getOhlcv, found, fetch])
    | some fetched => exact .inr ⟨range, rfl, by rw [value range found fetched fetch, fetch]⟩

theorem stored_period {env : Surroundings K} {r : OhlcvRequest} :
    ∀ bar ∈ stored env r, bar.period = fetchedPeriod r.interval := by
  obtain none | ⟨range, -, fetch⟩ := (stored_spec env r).1
  · rw [none]
    exact fun bar mem => (List.not_mem_nil mem).elim
  · exact apiData_period fetch

theorem stored_eq_nil_iff (env : Surroundings K) (r : OhlcvRequest) :
    stored env r = [] ↔ ∀ range ∈ StockService.range r,
      ∀ fetched ∈ StockService.apiData env r (env.findOhlcv range.1), fetched = [] := by
  obtain ⟨either, value⟩ := stored_spec env r
  constructor
  · intro none range found fetched fetch
    exact (value range found fetched fetch).symm.trans none
  · intro nothing
    obtain none | ⟨range, found, fetch⟩ := either
    · exact none
    · exact nothing range found _ fetch

theorem bars_eq_nil_iff {env : Surroundings K} {request : KisRequest} :
    KisApiService.bars env request = [] ↔ env.output2 request = [] := by
  rw [KisApiService.bars, List.map_eq_nil_iff, List.reverse_eq_nil_iff]

/-- Daily bars are the default. -/
theorem fetchHistoricalOhlcv_default {env : Surroundings K} {ticker : Ticker} {interval : String} {days : ℤ}
    {endDateParam : Option String} (unknown : interval ∉ ["1m", "1d", "1w", "1M"])
    (token : env.accessToken.isSome = true) :
    KisApiService.fetchHistoricalOhlcv env ticker interval days endDateParam =
      (JavaTime.parseDate (endDateParam.getD (JavaTime.formatDate env.today))).map fun endDay =>
        KisApiService.bars env (.dailyItemChart ticker "D" (JavaTime.formatDate (endDay - days))
          (endDateParam.getD (JavaTime.formatDate env.today))) := by
  simp only [List.mem_cons, List.not_mem_nil, or_false, not_or] at unknown
  obtain ⟨minute, -, week, month⟩ := unknown
  have daily : KisApiService.periodDiv interval = "D" := by
    rw [KisApiService.periodDiv, if_neg week, if_neg month]
  have some_token : ¬ env.accessToken.isNone = true := by simpa [Option.isSome_iff_ne_none] using token
  rw [KisApiService.fetchHistoricalOhlcv, if_neg some_token, if_neg minute, daily, Option.map_eq_bind]
  dsimp only
  rw [if_pos rfl]
  rfl

/-- For an interval that the mapping does not know, only daily bars can be stored. -/
theorem stored_default_eq_nil_iff {env : Surroundings K} {r : OhlcvRequest}
    (unknown : r.interval ∉ ["1m", "1d", "1w", "1M"]) : stored env r = [] ↔ NoDailyBars env r := by
  rw [stored_eq_nil_iff]
  refine forall₂_congr fun range _ => ?_
  rw [StockService.apiData]
  split_ifs with asks
  · simp only [Bool.and_eq_true] at asks
    obtain ⟨⟨needs, key⟩, secret⟩ := asks
    simp only [needs, key, secret, forall_const]
    cases token : env.accessToken.isSome with
    | false =>
      have nothing : KisApiService.fetchHistoricalOhlcv env r.ticker r.interval r.days r.endDate = some [] := by
        rw [KisApiService.fetchHistoricalOhlcv, if_pos (by simpa using token)]
      simp [nothing]
    | true =>
      rw [fetchHistoricalOhlcv_default unknown token]
      simp [bars_eq_nil_iff]
  · refine iff_of_true (fun fetched none => (Option.some.inj none).symm) fun needs key secret => ?_
    exact absurd (by rw [needs, key, secret]; rfl) asks

/-- A request keeps the store consistent exactly if its interval is known or the default brings no bars. -/
theorem consistent_stored_iff (env : Surroundings K) (r : OhlcvRequest) (written : List (Written K)) :
    Consistent ((stored env r).map fun bar => ⟨r.ticker, r.interval, bar, false⟩) ↔
      Known written (.getOhlcv env r) := by
  by_cases known : r.interval ∈ ["1m", "1d", "1w", "1M"]
  · refine iff_of_true ?_ (.inl known)
    intro w mem
    obtain ⟨bar, from_kis, rfl⟩ := List.mem_map.1 mem
    dsimp only
    rw [stored_period bar from_kis, (ofTag_eq_fetchedPeriod_iff _).2 known]
    refine ⟨rfl, ?_⟩
    rintro (quarter | hour)
    · simp [quarter] at known
    · simp [hour] at known
  · rw [Known, or_iff_right known, ← stored_default_eq_nil_iff known]
    constructor
    · intro consistent
      by_contra some_bar
      obtain ⟨bar, mem⟩ := List.exists_mem_of_ne_nil _ some_bar
      have tag := (consistent _ (List.mem_map_of_mem mem)).1
      rw [stored_period bar mem] at tag
      exact known ((ofTag_eq_fetchedPeriod_iff _).1 tag)
    · intro none w mem
      rw [none] at mem
      cases mem

/-- The engine's candles get the tags of their windows. -/
theorem consistent_consume (message : ClosedCandle K) :
    Consistent [⟨message.ticker, KafkaCandleConsumer.interval message.toCandle,
      ⟨KafkaCandleConsumer.ohlcv message.toCandle, periodOf message⟩, true⟩] := by
  intro w mem
  obtain rfl := List.mem_singleton.1 mem
  refine ⟨?_, fun _ => rfl⟩
  rcases message.window with quarter | hour
  · simp [KafkaCandleConsumer.interval, periodOf, quarter, Period.ofTag]
  · simp [KafkaCandleConsumer.interval, periodOf, hour, Period.ofTag]

theorem consistent_append {old new : List (Written K)} :
    Consistent (old ++ new) ↔ Consistent old ∧ Consistent new := by
  simp only [Consistent, List.mem_append, or_imp, forall_and]
  tauto

/-- **Every bar has the period of its tag exactly if every request that fetches bars is for one
of the four intervals that `fetchHistoricalOhlcv` maps.** -/
theorem periods_iff (acts : List (StockAction K)) (written : List (Written K))
    (run : (machine K).run acts = some written) :
    (machine K).Always Consistent acts ↔ (machine K).Along Known [] acts := by
  refine Machine.always_iff_along (fun _ mem => (List.not_mem_nil mem).elim) ?_ acts written run
  intro old a new _ good step
  cases a with
  | getOhlcv env r =>
    obtain rfl := Option.some.inj step
    rw [consistent_append, and_iff_right good]
    exact consistent_stored_iff env r old
  | consume message =>
    obtain rfl := Option.some.inj step
    rw [consistent_append, and_iff_right good]
    exact iff_of_true (consistent_consume message) trivial

/-- Nothing is stored yet, and KIS answers every request with one bar. -/
def oneBar : Surroundings ℤ where
  findOhlcv _ := []
  accessToken := some "token"
  output2 _ := [⟨1704067200, 70000, 71000, 69000, 70500, 1000⟩]
  today := 19723
  now := 1704067200

def chartRequest (interval : String) : OhlcvRequest where
  ticker := "005930"
  interval := interval
  days := 500
  endDate := none
  user := ⟨some "key", some "secret"⟩

/-- The chart's request for daily bars, beside a closed candle. -/
theorem periods_iff_daily : (machine ℤ).Always Consistent
    [.getOhlcv oneBar (chartRequest "1d"), .consume ⟨⟨"005930", 1, 1, 1, 1, 1, 0, 900000, 1, 15⟩, .inl rfl⟩] :=
  (periods_iff _ _ rfl).2 ⟨.inl (by decide), fun _ _ => ⟨trivial, fun _ _ => trivial⟩⟩

/-- A request for 15-minute bars stores daily bars as such. -/
theorem daily_bars_tagged_15m :
    ¬ ∀ (acts : List (StockAction ℤ)) (written : List (Written ℤ)),
      (machine ℤ).run acts = some written → Consistent written := by
  intro claim
  obtain ⟨written, run, daily⟩ := Machine.exists_of_any (M := machine ℤ)
    [.getOhlcv oneBar (chartRequest "15m")]
    (fun written => written.any fun w => w.interval = "15m" && w.bar.period = .day) (by decide +kernel)
  obtain ⟨w, mem, both⟩ := List.any_eq_true.1 daily
  obtain ⟨tag, period⟩ : w.interval = "15m" ∧ w.bar.period = .day := by simpa using both
  obtain ⟨named, -⟩ := claim _ written run w mem
  rw [tag, period] at named
  exact absurd named (by decide)

end StockPrices

end StockAnomaly.ApiServer

import StockAnomaly.ApiServer.OhlcvSeries

/-!
# Minute bars up to a time

The chart scrolls back with requests for `1m` that end at a time. `getOhlcv` then looks three
days back in InfluxDB, and if that gives fewer than ten points asks KIS for the bars of the
KST day up to the time, with nothing to be had before nine: **`times_older`** says which times an
answer has.
-/

namespace StockAnomaly.ApiServer

open StockAnomaly.Aggregation (Ticker)
open StockAnomaly.Theory
open KisApiService

/-- A time that InfluxDB can hold: its nanoseconds fit into 64 bits. -/
def Storable (time : ℤ) : Prop := -9223372036 ≤ time ∧ time ≤ 9223372036

instance (time : ℤ) : Decidable (Storable time) := inferInstanceAs (Decidable (_ ∧ _))

/-- The KST day of a time. -/
def kstDate (time : ℤ) : ℤ := (time + kstOffset) / 86400

/-- The second of its KST day. -/
def kstSecond (time : ℤ) : ℤ := (time + kstOffset) % 86400

/-- 09:00. -/
def opening : ℤ := 32400

/-- 15:30. -/
def closing : ℤ := 55800

/-- `yyyyMMddHHmmss` in KST. -/
def kstText (time : ℤ) : String := JavaTime.formatDate (kstDate time) ++ JavaTime.formatTime (kstSecond time)

/-- The request for the bars of a day up to a second of it. -/
def minutesUpTo (ticker : Ticker) (day second : ℤ) : KisRequest :=
  .timeItemChart ticker (JavaTime.formatDate day) (JavaTime.formatTime second)

/-- What InfluxDB and KIS have of a ticker when a request is answered. -/
structure Market (K : Type) (ticker : Ticker) where
  env : Surroundings K
  user : KisKeys
  influx : List (OhlcvResponse K)
  kis : List (OhlcvResponse K)
  storable : ∀ bar, bar ∈ influx ∨ bar ∈ kis → Storable bar.time
  /-- A query finds stored bars of its range. -/
  findOhlcv_mem : ∀ range, ∀ bar ∈ env.findOhlcv range, bar ∈ influx
  finds_in_range : StockService.FindsInRange env
  /-- KIS has minutes of trading hours. -/
  trading : ∀ bar ∈ kis, opening ≤ kstSecond bar.time ∧ kstSecond bar.time ≤ closing
  output2_mem : ∀ date time, ∀ bar ∈ env.output2 (.timeItemChart ticker date time), bar ∈ kis
  /-- It returns bars of the day up to the time, and some if there are any. -/
  output2_upTo : ∀ day second, CivilDate.InRange day → opening ≤ second → second ≤ closing →
    ∀ bar ∈ env.output2 (minutesUpTo ticker day second), kstDate bar.time = day ∧ kstSecond bar.time ≤ second
  output2_some : ∀ day second, CivilDate.InRange day → opening ≤ second → second ≤ closing →
    (∃ bar ∈ kis, kstDate bar.time = day ∧ kstSecond bar.time ≤ second) →
      env.output2 (minutesUpTo ticker day second) ≠ []

section Times

variable {time stop : ℤ}

theorem Storable.inRange (h : Storable time) : CivilDate.InRange (kstDate time) := by
  obtain ⟨low, high⟩ := h
  unfold CivilDate.InRange CivilDate.dayFromYear kstDate kstOffset
  omega

theorem kstSecond_nonneg (time : ℤ) : 0 ≤ kstSecond time := Int.emod_nonneg _ (by decide)

theorem kstSecond_lt (time : ℤ) : kstSecond time < 86400 := Int.emod_lt_of_pos _ (by decide)

theorem kstDate_add_kstSecond (time : ℤ) : kstDate time * 86400 + kstSecond time - kstOffset = time := by
  unfold kstDate kstSecond
  omega

/-- Times of one day are in the order of their seconds. -/
theorem le_of_kstSecond_le (same : kstDate time = kstDate stop) (le : kstSecond time ≤ kstSecond stop) :
    time ≤ stop := by
  have := kstDate_add_kstSecond time
  have := kstDate_add_kstSecond stop
  omega

theorem kstSecond_le_of_le (same : kstDate time = kstDate stop) (le : time ≤ stop) :
    kstSecond time ≤ kstSecond stop := by
  have := kstDate_add_kstSecond time
  have := kstDate_add_kstSecond stop
  omega

theorem toList_kstText (h : CivilDate.InRange (kstDate stop)) : (kstText stop).toList.length = 14 ∧
    (kstText stop).toList.take 8 = (JavaTime.formatDate (kstDate stop)).toList ∧
      (kstText stop).toList.drop 8 = (JavaTime.formatTime (kstSecond stop)).toList :=
  JavaTime.toList_format h (kstSecond_nonneg stop) (kstSecond_lt stop)

/-- The text is read as the time. -/
theorem parseDateTime_kstText (h : CivilDate.InRange (kstDate stop)) :
    JavaTime.parseDateTime kstOffset (kstText stop) = some stop := by
  rw [kstText, JavaTime.parseDateTime_format h (kstSecond_nonneg stop) (kstSecond_lt stop), kstDate_add_kstSecond]

end Times

section Example

/-- What KIS returns of the bars it has. -/
def pageUpTo {K : Type} (kis : List (OhlcvResponse K)) (ticker : Ticker) : KisRequest → List (OhlcvResponse K)
  | .dailyItemChart .. => []
  | .timeItemChart asked date time =>
    if asked = ticker then kis.filter fun bar => (JavaTime.parseDateTime kstOffset (date ++ time)).any fun stop =>
      kstDate bar.time = kstDate stop ∧ kstSecond bar.time ≤ kstSecond stop
    else []

theorem mem_pageUpTo {K : Type} {kis : List (OhlcvResponse K)} {ticker : Ticker} {day second : ℤ}
    (h : CivilDate.InRange day) (opened : opening ≤ second) (closed : second ≤ closing) {bar : OhlcvResponse K} :
    bar ∈ pageUpTo kis ticker (minutesUpTo ticker day second) ↔
      bar ∈ kis ∧ kstDate bar.time = day ∧ kstSecond bar.time ≤ second := by
  have nonneg : 0 ≤ second := le_trans (by decide) opened
  have lt : second < 86400 := lt_of_le_of_lt closed (by decide)
  have date : kstDate (day * 86400 + second - kstOffset) = day := by
    unfold kstDate
    omega
  have time : kstSecond (day * 86400 + second - kstOffset) = second := by
    unfold kstSecond
    omega
  simp only [pageUpTo, minutesUpTo, if_true, JavaTime.parseDateTime_format h nonneg lt, Option.any_some, date, time,
    List.mem_filter, decide_eq_true_eq]

/-- InfluxDB is empty, and KIS has the bars. -/
def Market.ofKis {K : Type} {ticker : Ticker} (user : KisKeys) (now : ℤ) (kis : List (OhlcvResponse K))
    (storable : ∀ bar ∈ kis, Storable bar.time)
    (trading : ∀ bar ∈ kis, opening ≤ kstSecond bar.time ∧ kstSecond bar.time ≤ closing) : Market K ticker where
  env := ⟨fun _ => [], some "token", pageUpTo kis ticker, kstDate now, now⟩
  user := user
  influx := []
  kis := kis
  storable := by simpa using storable
  findOhlcv_mem := nofun
  finds_in_range := nofun
  trading := trading
  output2_mem date time bar mem := by
    simp only [pageUpTo, if_true] at mem
    exact List.mem_of_mem_filter mem
  output2_upTo _ _ h opened closed _ mem := ((mem_pageUpTo h opened closed).1 mem).2
  output2_some _ _ h opened closed := by
    rintro ⟨bar, some_bar⟩
    exact List.ne_nil_of_mem ((mem_pageUpTo h opened closed).2 some_bar)

end Example

section Fetch

variable {K : Type} {ticker : Ticker} {stop : ℤ}

/-- **KIS is asked for the minutes of the day up to the time or the closing, and before the opening not at all.** -/
theorem fetchMinuteOhlcv_kstText (env : Surroundings K) (ticker : Ticker) (h : CivilDate.InRange (kstDate stop)) :
    fetchMinuteOhlcv env ticker (some (kstText stop)) = some (if kstSecond stop < opening then []
      else bars env (minutesUpTo ticker (kstDate stop) (min (kstSecond stop) closing))) := by
  obtain ⟨length, date, rest⟩ := toList_kstText h
  obtain ⟨hour, minute, sec, value, hours, minutes, seconds, time⟩ :=
    JavaTime.formatTime_spec (kstSecond_nonneg stop) (kstSecond_lt stop)
  have long : 14 ≤ (kstText stop).length := by rw [← String.length_toList, length]
  have all : ((kstText stop).toList.drop 8).take 6 = (JavaTime.formatTime (kstSecond stop)).toList := by
    rw [rest, time]
    rfl
  have parts : (JavaTime.formatTime (kstSecond stop)).toList.take 2 = JavaTime.twoDigits hour ∧
      ((JavaTime.formatTime (kstSecond stop)).toList.drop 2).take 2 = JavaTime.twoDigits minute := by
    rw [time]
    exact ⟨rfl, rfl⟩
  have close : JavaTime.formatTime closing = "153000" := by decide +kernel
  have late_iff : (hour > 15 ∨ hour = 15 ∧ minute ≥ 30) ↔ closing ≤ kstSecond stop := by
    rw [closing, value]
    omega
  have early_iff : hour < 9 ↔ kstSecond stop < opening := by
    rw [opening, value]
    omega
  simp only [fetchMinuteOhlcv, Option.filter_some, long, decide_true, if_true, date, all, String.ofList_toList, parts,
    JavaTime.digits_twoDigits (show hour < 100 by omega), JavaTime.digits_twoDigits (show minute < 100 by omega),
    Option.bind_eq_bind, Option.bind_some, late_iff, early_iff]
  by_cases late : closing ≤ kstSecond stop
  · have open_then : ¬ kstSecond stop < opening := by
      unfold closing opening at *
      omega
    rw [if_pos late, if_neg open_then, min_eq_right late, minutesUpTo, close]
  · rw [if_neg late, min_eq_left (not_le.1 late).le]
    split_ifs <;> rfl

/-- The points of an answer, oldest first. -/
theorem map_ohlcv_bars (env : Surroundings K) (request : KisRequest) :
    (bars env request).map Bar.ohlcv = (env.output2 request).reverse := by
  simp [bars, Function.comp_def]

end Fetch

namespace Market

variable {K : Type} {ticker : Ticker} (m : Market K ticker)

/-- The chart's first request. -/
def first : OhlcvRequest := ⟨ticker, "1m", 500, none, m.user⟩

/-- The chart's request for bars up to a time. -/
def older (stop : ℤ) : OhlcvRequest := ⟨ticker, "1m", 200, some (kstText stop), m.user⟩

/-- What InfluxDB has of the three days before. -/
def stored (stop : ℤ) : List (OhlcvResponse K) := m.env.findOhlcv (.between (stop - 3 * 86400) stop)

/-- What KIS has of the day. -/
def page (stop : ℤ) : List (OhlcvResponse K) :=
  m.env.output2 (minutesUpTo ticker (kstDate stop) (min (kstSecond stop) closing))

/-- The user has keys, KIS gives a token for them, and the time is not before the opening. -/
def KisReachable (stop : ℤ) : Prop :=
  m.user.kisApiKey.isSome = true ∧ m.user.kisSecretKey.isSome = true ∧ m.env.accessToken.isSome = true ∧
    opening ≤ kstSecond stop

instance (stop : ℤ) : Decidable (m.KisReachable stop) := inferInstanceAs (Decidable (_ ∧ _))

/-- What a request finds. -/
def found (stop : ℤ) : List (OhlcvResponse K) :=
  m.stored stop ++ if (m.stored stop).length < 10 ∧ m.KisReachable stop then m.page stop else []

variable {m} {stop : ℤ}

theorem range_older (h : CivilDate.InRange (kstDate stop)) :
    StockService.range (m.older stop) = some (.between (stop - 3 * 86400) stop, some stop) := by
  have length := (toList_kstText h).1
  have whole : String.ofList ((kstText stop).toList.take 14) = kstText stop := by
    rw [List.take_of_length_le length.le, String.ofList_toList]
  have long : 14 ≤ (kstText stop).length := by rw [← String.length_toList, length]
  simp only [StockService.range, older, long, if_true, whole, parseDateTime_kstText h]
  rfl

theorem fetchHistoricalOhlcv_older (h : CivilDate.InRange (kstDate stop)) :
    fetchHistoricalOhlcv m.env ticker "1m" 200 (some (kstText stop)) =
      some (if m.env.accessToken.isSome = true ∧ opening ≤ kstSecond stop then
        bars m.env (minutesUpTo ticker (kstDate stop) (min (kstSecond stop) closing)) else []) := by
  rw [fetchHistoricalOhlcv, if_pos rfl, fetchMinuteOhlcv_kstText m.env ticker h]
  cases m.env.accessToken with
  | none => rfl
  | some token =>
    simp only [Option.isNone_some, Bool.false_eq_true, if_false, Option.isSome_some, true_and, ← not_lt, ite_not]

/-- Which bars are fetched. -/
theorem apiData_older (h : CivilDate.InRange (kstDate stop)) :
    StockService.apiData m.env (m.older stop) (m.stored stop) =
      some (if (m.stored stop).length < 10 ∧ m.KisReachable stop then
        bars m.env (minutesUpTo ticker (kstDate stop) (min (kstSecond stop) closing)) else []) := by
  have data : StockService.apiData m.env (m.older stop) (m.stored stop) =
      if decide ((m.stored stop).length < 10) && m.user.kisApiKey.isSome && m.user.kisSecretKey.isSome then
        fetchHistoricalOhlcv m.env ticker "1m" 200 (some (kstText stop))
      else some [] := rfl
  rw [data, fetchHistoricalOhlcv_older h]
  by_cases asks :
      (decide ((m.stored stop).length < 10) && m.user.kisApiKey.isSome && m.user.kisSecretKey.isSome) = true
  · rw [if_pos asks]
    simp only [Bool.and_eq_true, decide_eq_true_eq] at asks
    obtain ⟨⟨few, key⟩, secret⟩ := asks
    simp only [KisReachable, few, key, secret, true_and]
  · rw [if_neg asks]
    simp only [Bool.and_eq_true, decide_eq_true_eq] at asks
    refine congrArg some (if_neg ?_).symm
    rintro ⟨few, key, secret, -⟩
    exact asks ⟨⟨few, key⟩, secret⟩

theorem mem_page {bar : OhlcvResponse K} (mem : bar ∈ m.page stop) : bar ∈ m.kis :=
  m.output2_mem _ _ bar mem

theorem mem_found {bar : OhlcvResponse K} (mem : bar ∈ m.found stop) : bar ∈ m.influx ∨ bar ∈ m.kis := by
  obtain stored | fetched := List.mem_append.1 mem
  · exact .inl (m.findOhlcv_mem _ bar stored)
  · split_ifs at fetched
    · exact .inr (mem_page fetched)
    · cases fetched

/-- A page ends at the time. -/
theorem page_upTo (h : CivilDate.InRange (kstDate stop)) (opened : opening ≤ kstSecond stop) :
    ∀ bar ∈ m.page stop, kstDate bar.time = kstDate stop ∧ bar.time ≤ stop := by
  intro bar mem
  have hours : opening ≤ closing := by decide
  obtain ⟨day, second⟩ := m.output2_upTo _ _ h (le_min opened hours) (min_le_right _ _) bar mem
  exact ⟨day, le_of_kstSecond_le day (second.trans (min_le_left _ _))⟩

theorem found_le (h : CivilDate.InRange (kstDate stop)) : ∀ bar ∈ m.found stop, bar.time ≤ stop := by
  intro bar mem
  obtain stored | fetched := List.mem_append.1 mem
  · exact (m.finds_in_range _ _ bar stored).2
  · split_ifs at fetched with asks
    · exact (page_upTo h asks.2.2.2.2 bar fetched).2
    · cases fetched

/-- **The times of an answer are those of what is found.** -/
theorem times_older (h : CivilDate.InRange (kstDate stop)) :
    ∃ answer, StockService.getOhlcv m.env (m.older stop) = some answer ∧
      ∀ t, (∃ bar ∈ answer.1, bar.time = t) ↔ ∃ bar ∈ m.found stop, bar.time = t := by
  have range := range_older (m := m) h
  have fetch := apiData_older (m := m) h
  obtain ⟨answer, returns⟩ : ∃ answer, StockService.getOhlcv m.env (m.older stop) = some answer := by
    rw [StockService.getOhlcv, range]
    simp only [Option.bind_eq_bind, Option.bind_some]
    rw [show m.env.findOhlcv _ = m.stored stop from rfl, fetch, Option.bind_some]
    split_ifs <;> exact ⟨_, rfl⟩
  refine ⟨answer, returns, fun t => ?_⟩
  have bars : StockService.apiBars m.env (m.older stop) (m.stored stop) =
      if (m.stored stop).length < 10 ∧ m.KisReachable stop then (m.page stop).reverse else [] := by
    rw [StockService.apiBars, fetch, Option.getD_some, apply_ite (List.map Bar.ohlcv), map_ohlcv_bars]
    rfl
  rw [StockService.getOhlcv_times m.finds_in_range returns range,
    show m.env.findOhlcv _ = m.stored stop from rfl, bars]
  constructor
  · rintro ⟨⟨bar, mem, rfl⟩ | ⟨bar, mem, rfl⟩, -⟩
    · exact ⟨bar, List.mem_append_left _ mem, rfl⟩
    · refine ⟨bar, List.mem_append_right _ ?_, rfl⟩
      split_ifs at mem ⊢
      · exact List.mem_reverse.1 mem
      · cases mem
  · rintro ⟨bar, mem, rfl⟩
    refine ⟨?_, fun last ends => Option.some.inj ends ▸ found_le h bar mem⟩
    obtain stored | fetched := List.mem_append.1 mem
    · exact .inl ⟨bar, stored, rfl⟩
    · refine .inr ⟨bar, ?_, rfl⟩
      split_ifs at fetched ⊢
      · exact List.mem_reverse.2 fetched
      · cases fetched

/-- **Nothing is found only if InfluxDB has nothing in three days and KIS cannot be reached or has nothing
on the day.** -/
theorem found_ne_nil_iff (h : CivilDate.InRange (kstDate stop)) : m.found stop ≠ [] ↔ m.stored stop ≠ [] ∨
    m.KisReachable stop ∧ ∃ bar ∈ m.kis, kstDate bar.time = kstDate stop ∧ bar.time ≤ stop := by
  by_cases empty : m.stored stop = []
  · simp only [found, empty, List.nil_append, List.length_nil, Nat.zero_lt_succ, true_and, ne_eq, not_true_eq_false,
      false_or]
    by_cases reachable : m.KisReachable stop
    · have opened := reachable.2.2.2
      have hours : opening ≤ closing := by decide
      rw [if_pos reachable, and_iff_right reachable]
      constructor
      · intro some_bar
        obtain ⟨bar, mem⟩ := List.exists_mem_of_ne_nil _ some_bar
        exact ⟨bar, mem_page mem, page_upTo h opened bar mem⟩
      · rintro ⟨bar, mem, day, le⟩
        refine m.output2_some _ _ h (le_min opened hours) (min_le_right _ _) ⟨bar, mem, day, ?_⟩
        exact le_min (kstSecond_le_of_le day le) (m.trading bar mem).2
    · rw [if_neg reachable]
      exact iff_of_false (fun ne => ne rfl) fun both => reachable both.1
  · refine iff_of_true ?_ (.inl empty)
    simp [found, empty]

theorem answer_older (h : CivilDate.InRange (kstDate stop)) :
    ∃ answer, StockService.getOhlcv m.env (m.older stop) = some answer ∧
      (∀ t, (∃ bar ∈ answer.1, bar.time = t) ↔ ∃ bar ∈ m.found stop, bar.time = t) ∧
      ∀ bar ∈ answer.1, Storable bar.time := by
  obtain ⟨answer, returns, times⟩ := times_older (m := m) h
  refine ⟨answer, returns, times, fun bar mem => ?_⟩
  obtain ⟨other, other_mem, same⟩ := (times bar.time).1 ⟨bar, mem, rfl⟩
  exact same ▸ m.storable other (mem_found other_mem)

theorem fetchMinuteOhlcv_mem {endDateTime : Option String} {fetched : List (Bar K)}
    (fetch : fetchMinuteOhlcv m.env ticker endDateTime = some fetched) : ∀ bar ∈ fetched, bar.ohlcv ∈ m.kis := by
  have of_bars {date time : String} {bar : Bar K} (mem : bar ∈ bars m.env (.timeItemChart ticker date time)) :
      bar.ohlcv ∈ m.kis := by
    obtain ⟨ohlcv, returned, rfl⟩ := List.mem_map.1 mem
    exact m.output2_mem _ _ ohlcv (List.mem_reverse.1 returned)
  intro bar mem
  simp only [fetchMinuteOhlcv, Option.bind_eq_bind, Option.bind_eq_some_iff] at fetch
  obtain ⟨hour, -, minute, -, fetch⟩ := fetch
  split_ifs at fetch
  · cases fetch
    exact of_bars mem
  · cases fetch
    cases mem
  · cases fetch
    exact of_bars mem

/-- The bars of the first request. -/
theorem storable_first {answer : List (OhlcvResponse K) × List (Bar K)}
    (returns : StockService.getOhlcv m.env m.first = some answer) : ∀ bar ∈ answer.1, Storable bar.time := by
  intro bar mem
  have range : StockService.range m.first = some (.last 3, none) := rfl
  obtain ⟨⟨other, found, same⟩ | ⟨other, fetched, same⟩, -⟩ :=
    (StockService.getOhlcv_times m.finds_in_range returns range bar.time).1 ⟨bar, mem, rfl⟩
  · exact same ▸ m.storable other (.inl (m.findOhlcv_mem _ other found))
  · refine same ▸ m.storable other (.inr ?_)
    obtain ⟨ohlcv, ohlcv_mem, rfl⟩ := List.mem_map.1 fetched
    cases fetch : StockService.apiData m.env m.first (m.env.findOhlcv (.last 3)) with
    | none =>
      rw [fetch] at ohlcv_mem
      cases ohlcv_mem
    | some bars =>
      rw [fetch] at ohlcv_mem
      unfold StockService.apiData at fetch
      split_ifs at fetch
      · unfold fetchHistoricalOhlcv at fetch
        split_ifs at fetch with token minute
        · cases fetch
          cases ohlcv_mem
        · exact fetchMinuteOhlcv_mem fetch ohlcv ohlcv_mem
        · exact absurd rfl minute
      · cases fetch
        cases ohlcv_mem

end Market

end StockAnomaly.ApiServer

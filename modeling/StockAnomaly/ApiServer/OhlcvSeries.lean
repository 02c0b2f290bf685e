import StockAnomaly.ApiServer.StockService
import StockAnomaly.Theory.SeriesMerge

/-!
# The series `getOhlcv` returns

With bars from KIS the answer is the values of a map by time, without them the stored points,
sorted. A map has one value per time, but sorting does not remove a second point of a time:
**`getOhlcv_series_iff`** says when the answer has one bar per time, in order.
-/

namespace StockAnomaly.ApiServer

open StockAnomaly.Theory

variable {K : Type}

namespace StockService

/-- The bars of KIS, if it was asked and has answered. -/
def apiBars (env : Surroundings K) (r : OhlcvRequest) (dbData : List (OhlcvResponse K)) : List (OhlcvResponse K) :=
  ((apiData env r dbData).getD []).map Bar.ohlcv

/-- Of the stored and the fetched bars one per time up to the end, in order, the last fetched one of
its time if there is one. -/
structure OneBarPerTime (dbData apiData : List (OhlcvResponse K)) (stop : Option ℤ)
    (response : List (OhlcvResponse K)) : Prop where
  increasing : TimeSeries.Increasing OhlcvResponse.time response
  times : ∀ t, (∃ bar ∈ response, bar.time = t) ↔
    ((∃ bar ∈ dbData, bar.time = t) ∨ ∃ bar ∈ apiData, bar.time = t) ∧ ∀ last ∈ stop, t ≤ last
  fetched : ∀ t, (∀ last ∈ stop, t ≤ last) → ∀ bar ∈ TimeSeries.lastAt OhlcvResponse.time t apiData, bar ∈ response

/-- `findOhlcv` returns times of the range. -/
def FindsInRange (env : Surroundings K) : Prop :=
  ∀ start stop, ∀ bar ∈ env.findOhlcv (.between start stop), start ≤ bar.time ∧ bar.time ≤ stop

/-- There are too few stored points, the user has keys, and KIS answers with bars. -/
def Fetches (env : Surroundings K) (r : OhlcvRequest) (dbData : List (OhlcvResponse K)) : Prop :=
  needsApiFetch r dbData = true ∧ r.user.kisApiKey.isSome = true ∧ r.user.kisSecretKey.isSome = true ∧
    ∃ fetched ∈ KisApiService.fetchHistoricalOhlcv env r.ticker r.interval r.days r.endDate, fetched ≠ []

variable {env : Surroundings K} {r : OhlcvRequest} {dbData response : List (OhlcvResponse K)}
  {fetched : List (Bar K)} {stop : Option ℤ}

theorem merge_eq_collect (dbData : List (OhlcvResponse K)) (fetched : List (Bar K)) :
    merge dbData fetched = TimeSeries.collect OhlcvResponse.time (dbData ++ fetched.map Bar.ohlcv) := rfl

/-- The end of a range bounds what is found in it. -/
theorem le_stop {range : FluxRange} (found : FindsInRange env) (requested : StockService.range r = some (range, stop)) :
    ∀ bar ∈ env.findOhlcv range, ∀ last ∈ stop, bar.time ≤ last := by
  intro bar mem last ends
  simp only [StockService.range] at requested
  split at requested
  · cases requested
    cases ends
  · split_ifs at requested
    all_goals
      obtain ⟨day, -, eq⟩ := Option.map_eq_some_iff.1 requested
      cases eq
      cases ends
      exact (found _ _ bar mem).2

/-- The merged answer. -/
theorem oneBarPerTime_merge (dbData : List (OhlcvResponse K)) (fetched : List (Bar K)) (stop : Option ℤ) :
    OneBarPerTime dbData (fetched.map Bar.ohlcv) stop
      ((merge dbData fetched).filter fun d => stop.all (d.time ≤ ·)) := by
  rw [merge_eq_collect]
  have kept {bar : OhlcvResponse K} : bar ∈ (TimeSeries.collect OhlcvResponse.time
      (dbData ++ fetched.map Bar.ohlcv)).filter (fun d => stop.all (d.time ≤ ·)) ↔
      bar ∈ TimeSeries.collect OhlcvResponse.time (dbData ++ fetched.map Bar.ohlcv) ∧
        ∀ last ∈ stop, bar.time ≤ last := by
    simp [List.mem_filter, Option.all_eq_true]
  refine ⟨(TimeSeries.increasing_collect _).sublist List.filter_sublist, ?_, ?_⟩
  · intro t
    simp only [kept]
    constructor
    · rintro ⟨bar, ⟨mem, le⟩, rfl⟩
      refine ⟨?_, le⟩
      obtain old | new := List.mem_append.1 (TimeSeries.mem_of_mem_collect mem)
      · exact .inl ⟨bar, old, rfl⟩
      · exact .inr ⟨bar, new, rfl⟩
    · rintro ⟨there, le⟩
      obtain ⟨bar, mem, rfl⟩ : ∃ bar ∈ dbData ++ fetched.map Bar.ohlcv, bar.time = t := by
        obtain ⟨bar, old, same⟩ | ⟨bar, new, same⟩ := there
        · exact ⟨bar, List.mem_append_left _ old, same⟩
        · exact ⟨bar, List.mem_append_right _ new, same⟩
      obtain ⟨other, other_mem, same⟩ := @TimeSeries.exists_mem_collect _ _ _ OhlcvResponse.time _ _ mem
      rw [← same] at le ⊢
      exact ⟨other, ⟨other_mem, le⟩, rfl⟩
  · intro t le bar last
    obtain rfl := TimeSeries.key_of_lastAt last
    refine kept.2 ⟨TimeSeries.mem_collect.2 ?_, le⟩
    rw [TimeSeries.lastAt_append, Option.mem_def.1 last]
    rfl

/-- The stored points, sorted. -/
theorem times_sort (le_stop : ∀ bar ∈ dbData, ∀ last ∈ stop, bar.time ≤ last) (t : ℤ) :
    (∃ bar ∈ dbData.mergeSort fun a b => a.time ≤ b.time, bar.time = t) ↔
      ((∃ bar ∈ dbData, bar.time = t) ∨ ∃ bar ∈ ([] : List (OhlcvResponse K)), bar.time = t) ∧
        ∀ last ∈ stop, t ≤ last := by
  simp only [List.mem_mergeSort, List.not_mem_nil, false_and, exists_false, or_false]
  refine (and_iff_left_of_imp ?_).symm
  rintro ⟨bar, mem, rfl⟩
  exact le_stop bar mem

theorem oneBarPerTime_sort_iff (le_stop : ∀ bar ∈ dbData, ∀ last ∈ stop, bar.time ≤ last) :
    OneBarPerTime dbData [] stop (dbData.mergeSort fun a b => a.time ≤ b.time) ↔
      (dbData.map OhlcvResponse.time).Nodup := by
  rw [← TimeSeries.increasing_mergeSort_iff]
  refine ⟨OneBarPerTime.increasing, fun increasing => ⟨increasing, times_sort le_stop, ?_⟩⟩
  exact fun t _ bar none => nomatch none

theorem apiData_eq_some (fetch : apiData env r dbData = some fetched) :
    Fetches env r dbData ↔ fetched ≠ [] := by
  unfold apiData at fetch
  split_ifs at fetch with asks
  · simp only [Bool.and_eq_true] at asks
    simp [Fetches, asks, fetch]
  · cases fetch
    refine iff_of_false ?_ (fun some_bar => some_bar rfl)
    rintro ⟨needs, key, secret, -⟩
    exact asks (by rw [needs, key, secret]; rfl)

/-- The two ways to an answer. -/
theorem getOhlcv_cases {answer : List (OhlcvResponse K) × List (Bar K)} {range : FluxRange}
    (returns : getOhlcv env r = some answer) (requested : StockService.range r = some (range, stop)) :
    ∃ fetched, apiData env r (env.findOhlcv range) = some fetched ∧
      apiBars env r (env.findOhlcv range) = fetched.map Bar.ohlcv ∧
      answer = if fetched.isEmpty then ((env.findOhlcv range).mergeSort fun a b => a.time ≤ b.time, [])
        else ((merge (env.findOhlcv range) fetched).filter fun d => stop.all (d.time ≤ ·), fetched) := by
  have value : (apiData env r (env.findOhlcv range)).bind (fun fetched =>
      if fetched.isEmpty then some ((env.findOhlcv range).mergeSort fun a b => a.time ≤ b.time, [])
      else some ((merge (env.findOhlcv range) fetched).filter fun d => stop.all (d.time ≤ ·), fetched)) =
      some answer := by
    rw [← returns, getOhlcv, requested]
    rfl
  obtain ⟨fetched, fetch, value⟩ := Option.bind_eq_some_iff.1 value
  refine ⟨fetched, fetch, by rw [apiBars, fetch]; rfl, ?_⟩
  split_ifs at value ⊢
  · exact (Option.some.inj value).symm
  · exact (Option.some.inj value).symm

/-- **`getOhlcv` returns one bar per time, in order, exactly if KIS adds bars or no two stored points
have one time.** -/
theorem getOhlcv_series_iff (env : Surroundings K) (r : OhlcvRequest) (found : FindsInRange env) :
    ∀ answer ∈ getOhlcv env r, ∀ range ∈ StockService.range r,
      (OneBarPerTime (env.findOhlcv range.1) (apiBars env r (env.findOhlcv range.1)) range.2 answer.1 ↔
        Fetches env r (env.findOhlcv range.1) ∨ ((env.findOhlcv range.1).map OhlcvResponse.time).Nodup) := by
  rintro answer returns ⟨range, stop⟩ requested
  obtain ⟨fetched, fetch, bars, rfl⟩ := getOhlcv_cases returns requested
  rw [apiData_eq_some fetch]
  dsimp only
  rw [bars]
  cases fetched with
  | nil =>
    rw [or_iff_right (not_not.2 rfl)]
    exact oneBarPerTime_sort_iff (le_stop found requested)
  | cons first rest =>
    exact iff_of_true (oneBarPerTime_merge _ _ _) (.inl (List.cons_ne_nil _ _))

/-- The times of an answer, whether or not they come once. -/
theorem getOhlcv_times (found : FindsInRange env) {answer : List (OhlcvResponse K) × List (Bar K)} {range : FluxRange}
    (returns : getOhlcv env r = some answer) (requested : StockService.range r = some (range, stop)) (t : ℤ) :
    (∃ bar ∈ answer.1, bar.time = t) ↔ ((∃ bar ∈ env.findOhlcv range, bar.time = t) ∨
      ∃ bar ∈ apiBars env r (env.findOhlcv range), bar.time = t) ∧ ∀ last ∈ stop, t ≤ last := by
  obtain ⟨fetched, -, bars, rfl⟩ := getOhlcv_cases returns requested
  rw [bars]
  cases fetched with
  | nil => exact times_sort (le_stop found requested) t
  | cons first rest => exact (oneBarPerTime_merge _ _ _).times t

/-- The daily bar of a day of January 2024. -/
def january (day close : ℤ) : OhlcvResponse ℤ := ⟨(19722 + day) * 86400, 70000, 71000, 69000, close, 1000⟩

/-- The bars of the third and the first are stored, KIS has the second and a newer first. -/
def overlapping : Surroundings ℤ where
  findOhlcv
    | .last _ => []
    | .between start stop => [january 3 70300, january 1 70100].filter fun bar => start ≤ bar.time ∧ bar.time ≤ stop
  accessToken := some "token"
  output2 _ := [january 2 70200, january 1 70500]
  today := 19727
  now := 19727 * 86400 + 60

theorem findsInRange_overlapping : FindsInRange overlapping := by
  intro start stop bar mem
  exact of_decide_eq_true (List.mem_filter.1 mem).2

def untilThird : OhlcvRequest := ⟨"005930", "1d", 3, some "20240103", ⟨some "key", some "secret"⟩⟩

theorem parseDate_third : JavaTime.parseDate "20240103" = some 19725 := by decide +kernel

theorem range_untilThird :
    range untilThird = some (.between (19722 * 86400) (19726 * 86400 - 1), some (19726 * 86400 - 1)) := by
  have short : ¬ 14 ≤ "20240103".length := by decide
  simp only [range, untilThird, if_neg short, parseDate_third]
  rfl

theorem fetch_untilThird : KisApiService.fetchHistoricalOhlcv overlapping "005930" "1d" 3 (some "20240103") =
    some [⟨january 1 70500, .day⟩, ⟨january 2 70200, .day⟩] := by
  simp only [KisApiService.fetchHistoricalOhlcv, Option.getD_some, parseDate_third]
  rfl

/-- The three days up to the third: the fetched bar of the first is taken. -/
theorem getOhlcv_series_iff_daily :
    (getOhlcv overlapping untilThird).map Prod.fst = some [january 1 70500, january 2 70200, january 3 70300] ∧
    OneBarPerTime [january 3 70300, january 1 70100] [january 1 70500, january 2 70200] (some (19726 * 86400 - 1))
      [january 1 70500, january 2 70200, january 3 70300] := by
  have fetch : apiData overlapping untilThird [january 3 70300, january 1 70100] =
      some [⟨january 1 70500, .day⟩, ⟨january 2 70200, .day⟩] := fetch_untilThird
  have returns : getOhlcv overlapping untilThird = some ([january 1 70500, january 2 70200, january 3 70300],
      [⟨january 1 70500, .day⟩, ⟨january 2 70200, .day⟩]) := by
    have found : overlapping.findOhlcv (.between (19722 * 86400) (19726 * 86400 - 1)) =
      [january 3 70300, january 1 70100] := rfl
    simp only [getOhlcv, range_untilThird, Option.bind_eq_bind, Option.bind_some, found, fetch]
    rfl
  have bars : apiBars overlapping untilThird [january 3 70300, january 1 70100] =
      [january 1 70500, january 2 70200] := by
    rw [apiBars, fetch]
    rfl
  refine ⟨congrArg (Option.map Prod.fst) returns, ?_⟩
  rw [← bars]
  apply (getOhlcv_series_iff overlapping untilThird findsInRange_overlapping _ returns _ range_untilThird).2
  exact .inl ⟨rfl, rfl, rfl, _, fetch_untilThird, List.cons_ne_nil _ _⟩

/-- Two points of one minute are stored. -/
def twoPoints : Surroundings ℤ where
  findOhlcv
    | .last _ => [⟨1704067200, 70000, 71000, 69000, 70500, 1000⟩, ⟨1704067200, 70000, 71000, 69000, 70600, 1200⟩]
    | .between _ _ => []
  accessToken := none
  output2 _ := []
  today := 19723
  now := 1704067260

/-- A user without keys gets both. -/
theorem two_bars_of_one_minute :
    ¬ ∀ (env : Surroundings ℤ) (r : OhlcvRequest), FindsInRange env →
      ∀ answer ∈ getOhlcv env r, ∀ range ∈ StockService.range r,
        OneBarPerTime (env.findOhlcv range.1) (apiBars env r (env.findOhlcv range.1)) range.2 answer.1 := by
  intro claim
  have both := claim twoPoints ⟨"005930", "1m", 3, none, none, none⟩ (fun _ _ _ none => nomatch none)
    _ rfl (.last 3, none) rfl
  exact absurd ((TimeSeries.increasing_mergeSort_iff _).1 both.increasing) (by decide +kernel)

end StockService

end StockAnomaly.ApiServer

import StockAnomaly.ApiServer.OlderMinutes
import StockAnomaly.WebApp.PriceChart

/-!
# Scrolling back

`loadMore` on the minute chart asks for the bars up to a minute before the earliest one, and an
answer without new bars makes it stop for good (`noMoreDataRef`). At the first bar of a day the
request ends before the opening, where KIS is not asked at all, and unless InfluxDB has bars of the
three days before the chart stops there, whatever KIS has of other days. **`noMoreData_iff`** says along
which runs it stops at the end of the data only, and `grows_iff` what an answer needs to go on.
-/

namespace StockAnomaly.WebApp

open StockAnomaly.Theory
open StockAnomaly.ApiServer (Market OhlcvRequest OhlcvResponse Storable StockService.getOhlcv kstDate kstText)

/-- `earliestPoint`. -/
def earliestPoint {K : Type} (currentData : List (Bar K)) : Option (Bar K) :=
  currentData.head?.map fun first => currentData.foldl (fun min d => if d.time < min.time then d else min) first

/-- `endDateStr` for `1m`; an instant outside the range of `Date` has no numbers. -/
def endDateStr (earliest : ℤ) : String :=
  let kst := earliest - 60 + 9 * 60 * 60
  if -8640000000000 ≤ kst ∧ kst ≤ 8640000000000 then
    let d := CivilDate.ofDay (kst / 86400)
    toString d.year ++ CivilDate.padStart 2 (toString d.month) ++ CivilDate.padStart 2 (toString d.day) ++
      CivilDate.padStart 2 (toString (kst / 3600 % 24)) ++ CivilDate.padStart 2 (toString (kst / 60 % 60)) ++
      CivilDate.padStart 2 (toString (kst % 60))
  else "NaNNaNNaNNaNNaNNaN"

/-- A bar of a response. -/
def OhlcvPoint.ofResponse {K : Type} (bar : OhlcvResponse K) : OhlcvPoint K :=
  ⟨bar.time, bar.open, bar.high, bar.low, bar.close, bar.volume⟩

/-- The server's answer to a request; `none` is an error. -/
def answer {K : Type} {ticker : String} (market : Market K ticker) (r : OhlcvRequest) :
    Option (List (OhlcvPoint K)) :=
  (StockService.getOhlcv market.env r).map fun response => response.1.map .ofResponse

/-- What happens to the minute chart of a ticker before it has a live price. A response comes from
the server, which then finds some data, or is a failure. -/
inductive ScrollAction (K : Type) (ticker : String)
  | render
  | historyResponse (server : Option (Market K ticker))
  | loadMore
  | moreResponse (server : Option (Market K ticker))

section Scroll

variable {K : Type} [LinearOrder K] [Zero K] {ticker : String}

/-- The action of the component. -/
def ScrollAction.chartAction (s : PriceChart K) : ScrollAction K ticker → Option (ChartAction K)
  | .render => some (.render (some ⟨ticker, ""⟩) .minute 0)
  | .historyResponse server => some (.historyResponse 0 (server.bind fun market => answer market market.first))
  | .loadMore => some .loadMore
  | .moreResponse server =>
    s.loadingMore.bind fun call => (earliestPoint call.currentData).map fun earliest =>
      .moreResponse (server.bind fun market =>
        answer market ⟨ticker, "1m", 200, some (endDateStr earliest.time), market.user⟩)

/-- The component while the user scrolls; no text is a price. -/
def scrollBack (K : Type) [LinearOrder K] [Zero K] (ticker : String) :
    Machine (PriceChart K) (ScrollAction K ticker) where
  init := (priceChart fun _ => none).init
  step s a := (a.chartAction s).bind ((priceChart fun _ => none).step s)

/-- Neither InfluxDB nor KIS has a bar older than all of these. -/
def NoneOlder (market : Market K ticker) (shown : List (Bar K)) : Prop :=
  ∀ bar, bar ∈ market.influx ∨ bar ∈ market.kis → ∃ earlier ∈ shown, earlier.time ≤ bar.time

/-- `noMoreDataRef` becomes true only at the end of the data. -/
def StopsAtEnd (s : PriceChart K) (a : ScrollAction K ticker) : Prop :=
  ∀ s', (scrollBack K ticker).step s a = some s' → s.noMoreDataRef = false → s'.noMoreDataRef = true →
    ∃ market, a = .moreResponse (some market) ∧ NoneOlder market s'.ohlcvData

/-- What is found up to a time has more new times than there are repeated ones among the bars. -/
def Grows (market : Market K ticker) (currentData : List (Bar K)) (stop : ℤ) : Prop :=
  currentData.length < ((market.found stop).map OhlcvResponse.time ++ currentData.map Bar.time).toFinset.card

/-- A response finds new bars, unless there are no older ones. -/
def FindsMore (s : PriceChart K) : ScrollAction K ticker → Prop
  | .moreResponse (some market) => ∀ call ∈ s.loadingMore, ∀ earliest ∈ earliestPoint call.currentData,
      NoneOlder market s.ohlcvData ∨ Grows market call.currentData (earliest.time - 60)
  | _ => True

end Scroll

section Answers

variable {K : Type} {ticker : String} {market : Market K ticker} {t : ℤ}

theorem foldl_earlier (first : Bar K) (rest : List (Bar K)) :
    let earliest := rest.foldl (fun min d => if d.time < min.time then d else min) first
    (earliest = first ∨ earliest ∈ rest) ∧ earliest.time ≤ first.time ∧ ∀ d ∈ rest, earliest.time ≤ d.time := by
  induction rest generalizing first with
  | nil => simp
  | cons d rest ih =>
    obtain ⟨among, le, all⟩ := ih (if d.time < first.time then d else first)
    simp only [List.foldl_cons, List.mem_cons, forall_eq_or_imp]
    split_ifs at among le all ⊢ with earlier
    · exact ⟨.inr among, le.trans earlier.le, le, all⟩
    · exact ⟨among.imp_right .inr, le, le.trans (not_lt.1 earlier), all⟩

theorem earliestPoint_spec {currentData : List (Bar K)} {earliest : Bar K}
    (least : earliestPoint currentData = some earliest) :
    earliest ∈ currentData ∧ ∀ d ∈ currentData, earliest.time ≤ d.time := by
  obtain ⟨first, head, rfl⟩ := Option.map_eq_some_iff.1 least
  obtain ⟨among, -, all⟩ := foldl_earlier first currentData
  refine ⟨?_, all⟩
  obtain same | mem := among
  · rw [same]
    exact List.mem_of_head? head
  · exact mem

theorem inRange_prev (storable : Storable t) : CivilDate.InRange (kstDate (t - 60)) := by
  obtain ⟨low, high⟩ := storable
  unfold CivilDate.InRange CivilDate.dayFromYear kstDate ApiServer.KisApiService.kstOffset
  omega

/-- The text is that of the minute before. -/
theorem endDateStr_eq (storable : Storable t) : endDateStr t = kstText (t - 60) := by
  have h := inRange_prev storable
  obtain ⟨y, m, d, date, -, -, -, text, -⟩ := JavaTime.formatDate_spec h
  obtain ⟨low, high⟩ := storable
  have range : -8640000000000 ≤ t - 60 + 9 * 60 * 60 ∧ t - 60 + 9 * 60 * 60 ≤ 8640000000000 := by omega
  have day : (t - 60 + 9 * 60 * 60) / 86400 = kstDate (t - 60) := rfl
  have hour : (t - 60 + 9 * 60 * 60) / 3600 % 24 = ApiServer.kstSecond (t - 60) / 3600 := by
    unfold ApiServer.kstSecond ApiServer.KisApiService.kstOffset
    omega
  have minute : (t - 60 + 9 * 60 * 60) / 60 % 60 = ApiServer.kstSecond (t - 60) / 60 % 60 := by
    unfold ApiServer.kstSecond ApiServer.KisApiService.kstOffset
    omega
  have second : (t - 60 + 9 * 60 * 60) % 60 = ApiServer.kstSecond (t - 60) % 60 := by
    unfold ApiServer.kstSecond ApiServer.KisApiService.kstOffset
    omega
  simp only [endDateStr, if_pos range, day, hour, minute, second, kstText, text, date, JavaTime.formatTime,
    String.append_assoc]

/-- **An answer to `loadMore` has the times of what is found.** -/
theorem answer_older (storable : Storable t) :
    ∃ points, answer market ⟨ticker, "1m", 200, some (endDateStr t), market.user⟩ = some points ∧
      (∀ u, (∃ point ∈ points, point.time = u) ↔ ∃ bar ∈ market.found (t - 60), bar.time = u) ∧
      ∀ point ∈ points, Storable point.time := by
  obtain ⟨response, returns, times, all⟩ := Market.answer_older (m := market) (inRange_prev storable)
  refine ⟨response.1.map .ofResponse, ?_, ?_, ?_⟩
  · rw [endDateStr_eq storable]
    exact congrArg (Option.map _) returns
  · intro u
    rw [← times u]
    simp [OhlcvPoint.ofResponse]
  · intro point mem
    obtain ⟨bar, bar_mem, rfl⟩ := List.mem_map.1 mem
    exact all bar bar_mem

theorem answer_first {points : List (OhlcvPoint K)} (answers : answer market market.first = some points) :
    ∀ point ∈ points, Storable point.time := by
  intro point mem
  obtain ⟨response, returns, rfl⟩ := Option.map_eq_some_iff.1 answers
  obtain ⟨bar, bar_mem, rfl⟩ := List.mem_map.1 mem
  exact market.storable_first returns bar bar_mem

theorem length_uniqueSorted (bars : List (Bar K)) :
    (uniqueSorted bars).length = (bars.map Bar.time).toFinset.card := by
  rw [uniqueSorted, TimeSeries.sort_mapValues, TimeSeries.length_collect]

theorem mem_of_mem_uniqueSorted {bars : List (Bar K)} {bar : Bar K} (mem : bar ∈ uniqueSorted bars) : bar ∈ bars :=
  TimeSeries.mem_of_mem_mapValues ((List.mem_insertionSort _).1 mem)

/-- **An answer adds bars exactly if what is found does.** -/
theorem adds_iff_grows {call : LoadMore K} {points : List (OhlcvPoint K)} {stop : ℤ}
    (times : ∀ u, (∃ point ∈ points, point.time = u) ↔ ∃ bar ∈ market.found stop, bar.time = u) :
    PriceChart.Adds call (PriceChart.fetched call.selection points) ↔ Grows market call.currentData stop := by
  have keys : ((PriceChart.fetched call.selection points ++ call.currentData).map Bar.time).toFinset =
      ((market.found stop).map OhlcvResponse.time ++ call.currentData.map Bar.time).toFinset := by
    ext u
    have found := times u
    simp only [PriceChart.fetched, List.map_append, List.map_map, List.mem_toFinset, List.mem_append, List.mem_map,
      Function.comp_apply, Bar.time] at found ⊢
    rw [found]
  rw [PriceChart.Adds, length_uniqueSorted, keys, Grows]
  apply and_iff_right_of_imp
  intro grows nothing
  rw [← keys, nothing, List.nil_append] at grows
  have card := List.toFinset_card_le (call.currentData.map Bar.time)
  rw [List.length_map] at card
  omega

/-- **Bars of different times grow exactly if there is something to be found**: InfluxDB has bars of the three days
before, or KIS can be reached and has one of the day. -/
theorem grows_iff {currentData : List (Bar K)} {earliest : Bar K} (storable : Storable earliest.time)
    (least : earliestPoint currentData = some earliest) (once : (currentData.map Bar.time).Nodup) :
    Grows market currentData (earliest.time - 60) ↔ market.stored (earliest.time - 60) ≠ [] ∨
      market.KisReachable (earliest.time - 60) ∧ ∃ bar ∈ market.kis,
        kstDate bar.time = kstDate (earliest.time - 60) ∧ bar.time ≤ earliest.time - 60 := by
  have apart : Disjoint ((market.found (earliest.time - 60)).map OhlcvResponse.time).toFinset
      (currentData.map Bar.time).toFinset := by
    apply Finset.disjoint_left.2
    intro time old current
    obtain ⟨bar, found, rfl⟩ := List.mem_map.1 (List.mem_toFinset.1 old)
    obtain ⟨shown, mem, same⟩ := List.mem_map.1 (List.mem_toFinset.1 current)
    have before := Market.found_le (inRange_prev storable) bar found
    have after := (earliestPoint_spec least).2 shown mem
    omega
  rw [← Market.found_ne_nil_iff (inRange_prev storable), Grows, List.toFinset_append,
    Finset.card_union_of_disjoint apart, List.toFinset_card_of_nodup once, List.length_map, Nat.lt_add_left_iff_pos,
    Finset.card_pos, List.toFinset_nonempty_iff, ne_eq, List.map_eq_nil_iff]

end Answers

section Keeps

open PriceChart

/-- What a render without a tick leaves. -/
structure Keeps {K : Type} (s t : PriceChart K) : Prop where
  ohlcvData : t.ohlcvData = s.ohlcvData
  ohlcvDataRef : ∀ bar ∈ t.ohlcvDataRef, bar ∈ s.ohlcvDataRef ∨ bar ∈ s.ohlcvData
  noMoreDataRef : t.noMoreDataRef = true → s.noMoreDataRef = true
  loadingMore : t.loadingMore = s.loadingMore
  tickBuffer : t.tickBuffer = s.tickBuffer

variable {K : Type} {s t u : PriceChart K}

theorem Keeps.refl (s : PriceChart K) : Keeps s s := ⟨rfl, fun _ => .inl, id, rfl, rfl⟩

theorem Keeps.trans (st : Keeps s t) (tu : Keeps t u) : Keeps s u where
  ohlcvData := tu.ohlcvData.trans st.ohlcvData
  ohlcvDataRef bar mem := by
    obtain ref | data := tu.ohlcvDataRef bar mem
    · exact st.ohlcvDataRef bar ref
    · exact .inr (st.ohlcvData ▸ data)
  noMoreDataRef more := st.noMoreDataRef (tu.noMoreDataRef more)
  loadingMore := tu.loadingMore.trans st.loadingMore
  tickBuffer := tu.tickBuffer.trans st.tickBuffer

theorem Keeps.ite {c : Prop} [Decidable c] (yes : Keeps s t) (no : Keeps s u) : Keeps s (if c then t else u) := by
  split_ifs
  · exact yes
  · exact no

theorem keeps_syncRefs (s : PriceChart K) : Keeps s s.syncRefs := by
  refine ⟨rfl, fun bar mem => ?_, id, rfl, rfl⟩
  unfold syncRefs at mem
  dsimp only at mem
  split_ifs at mem
  · exact .inr mem
  · exact .inl mem

theorem keeps_cleanup (s : PriceChart K) : Keeps s s.cleanup := by
  rw [cleanup]
  split_ifs
  · refine ⟨rfl, fun bar mem => ?_, fun stopped => ?_, rfl, rfl⟩
    · cases mem
    · cases stopped
  · exact .refl s

theorem keeps_openChart (stock : Option Stock) (s : PriceChart K) : Keeps s (s.openChart stock) := by
  rw [openChart]
  split_ifs
  · refine ⟨rfl, fun _ => .inl, fun stopped => ?_, rfl, rfl⟩
    cases stopped
  · exact .refl s

theorem keeps_historyEffect (stock : Stock) (ready : Bool) (s : PriceChart K) :
    Keeps s (s.historyEffect (some stock) ready) := by
  rw [historyEffect]
  split_ifs
  · exact ⟨rfl, fun _ => .inl, id, rfl, rfl⟩
  · exact .refl s

theorem keeps_noteHistory (selection : Selection) (history : Option (List (Bar K))) (s : PriceChart K) :
    Keeps s (s.noteHistory selection history) := by
  rw [noteHistory]
  split_ifs
  · exact ⟨rfl, fun _ => .inl, id, rfl, rfl⟩
  · exact .refl s

theorem keeps_noteOlder (selection : Selection) (moreData : List (Bar K)) (s : PriceChart K) :
    Keeps s (s.noteOlder selection moreData) := by
  rw [noteOlder]
  split_ifs
  · exact ⟨rfl, fun _ => .inl, id, rfl, rfl⟩
  · exact .refl s

@[simp] theorem noteOlder_noMoreDataRef {selection : Selection} {moreData : List (Bar K)} :
    (s.noteOlder selection moreData).noMoreDataRef = s.noMoreDataRef := by
  rw [noteOlder]
  split_ifs <;> rfl

/-- All times can be stored, no ticks wait, and `loadMore` is under way only while there may be more. -/
structure ScrollInv (s : PriceChart K) : Prop where
  ohlcvData : ∀ bar ∈ s.ohlcvData, Storable bar.time
  ohlcvDataRef : ∀ bar ∈ s.ohlcvDataRef, Storable bar.time
  tickBuffer : s.tickBuffer = []
  loadingMore : ∀ call ∈ s.loadingMore, s.noMoreDataRef = false ∧ ∀ bar ∈ call.currentData, Storable bar.time

theorem ScrollInv.keeps (inv : ScrollInv s) (keeps : Keeps s s') : ScrollInv s' where
  ohlcvData := keeps.ohlcvData ▸ inv.ohlcvData
  ohlcvDataRef bar mem := by
    obtain ref | data := keeps.ohlcvDataRef bar mem
    · exact inv.ohlcvDataRef bar ref
    · exact inv.ohlcvData bar data
  tickBuffer := keeps.tickBuffer.trans inv.tickBuffer
  loadingMore call pending := by
    obtain ⟨more, storable⟩ := inv.loadingMore call (keeps.loadingMore ▸ pending)
    refine ⟨?_, storable⟩
    cases stopped : s'.noMoreDataRef with
    | false => rfl
    | true => exact absurd (keeps.noMoreDataRef stopped) (by simp [more])

/-- The end of `loadMore`. -/
theorem inv_done (keeps : Keeps s t) (data : ∀ bar ∈ s.ohlcvData, Storable bar.time)
    (ref : ∀ bar ∈ s.ohlcvDataRef, Storable bar.time) (no_ticks : s.tickBuffer = []) :
    ScrollInv { t with loadingMore := none } where
  ohlcvData := keeps.ohlcvData ▸ data
  ohlcvDataRef bar mem := (keeps.ohlcvDataRef bar mem).elim (ref bar) (data bar)
  tickBuffer := keeps.tickBuffer.trans no_ticks
  loadingMore := nofun

variable [LinearOrder K] [Zero K]

/-- **A render without a tick keeps the data.** -/
theorem keeps_render (stock : Stock) (interval : ChartInterval) (now : ℤ) (s : PriceChart K) :
    Keeps s (s.render (fun _ => none) (some stock) interval now) := by
  have no_tick : s.fires (fun _ => none) (some stock) now = none := ite_self _
  have shown : Keeps s { s with shown := some (s.shownBy (some stock) interval) } :=
    ⟨rfl, fun _ => .inl, id, rfl, rfl⟩
  have reset (r : Received K) (s : PriceChart K) : Keeps s { s with received := r } :=
    ⟨rfl, fun _ => .inl, id, rfl, rfl⟩
  have chosen := Keeps.ite (c := s.reselects (some stock) interval = true)
    ((shown.trans (keeps_cleanup _)).trans (reset ⟨false, [], none, []⟩ _)) shown
  have synced := chosen.trans (keeps_syncRefs _)
  have opened := Keeps.ite (c := s.reselects (some stock) interval = true)
    (synced.trans (keeps_openChart (some stock) _)) synced
  simp only [render, no_tick, liveEffect]
  exact .ite (opened.trans (keeps_historyEffect stock _ _)) opened

end Keeps

section Steps

open PriceChart

variable {K : Type} [LinearOrder K] [Zero K] {ticker : String} {s s' : PriceChart K} {a : ScrollAction K ticker}

theorem step_render (step : (scrollBack K ticker).step s .render = some s') : Keeps s s' := by
  cases step
  exact keeps_render _ _ _ s

omit [LinearOrder K] [Zero K] in
theorem storable_fetched (selection : Selection) {points : List (OhlcvPoint K)}
    (all : ∀ point ∈ points, Storable point.time) : ∀ bar ∈ fetched selection points, Storable bar.time := by
  intro bar mem
  obtain ⟨point, point_mem, rfl⟩ := List.mem_map.1 mem
  exact all point point_mem

/-- Without ticks, the bars shown are those of the history. -/
theorem inv_showHistory {bars : List (Bar K)} (inv : ScrollInv s) (storable : ∀ bar ∈ bars, Storable bar.time) :
    ScrollInv (s.showHistory bars) ∧ (s.showHistory bars).noMoreDataRef = s.noMoreDataRef := by
  have no_ticks : s.pendingTicks bars = [] := by rw [pendingTicks, inv.tickBuffer, List.filter_nil]
  rw [showHistory, no_ticks]
  exact ⟨⟨storable, inv.ohlcvDataRef, rfl, inv.loadingMore⟩, rfl⟩

/-- **A history is shown.** -/
theorem step_historyResponse (inv : ScrollInv s) {server : Option (Market K ticker)}
    (step : (scrollBack K ticker).step s (.historyResponse server) = some s') :
    ScrollInv s' ∧ (s'.noMoreDataRef = true → s.noMoreDataRef = true) := by
  obtain ⟨selection, -, rfl⟩ := Option.map_eq_some_iff.1 step
  have loaded (t : PriceChart K) : Keeps t { t with isHistoryLoaded := true } := ⟨rfl, fun _ => .inl, id, rfl, rfl⟩
  have asked : Keeps s { s with histories := s.histories.eraseIdx 0 } := ⟨rfl, fun _ => .inl, id, rfl, rfl⟩
  unfold historyResponse
  cases response : server.bind fun market => answer market market.first with
  | none =>
    have keeps := (asked.trans (keeps_noteHistory selection none _)).trans (loaded _)
    exact ⟨inv.keeps keeps, keeps.noMoreDataRef⟩
  | some points =>
    obtain ⟨market, -, answers⟩ := Option.bind_eq_some_iff.1 response
    obtain ⟨shown, more⟩ := inv_showHistory (inv.keeps asked) (storable_fetched selection
      (answer_first answers))
    have keeps := (keeps_noteHistory selection (some (fetched selection points))
      (showHistory (fetched selection points) { s with histories := s.histories.eraseIdx 0 })).trans (loaded _)
    exact ⟨shown.keeps keeps, fun stopped => more.symm.trans (keeps.noMoreDataRef stopped)⟩

theorem step_loadMore (inv : ScrollInv s) (step : (scrollBack K ticker).step s .loadMore = some s') :
    ScrollInv s' ∧ (s'.noMoreDataRef = true → s.noMoreDataRef = true) := by
  cases step
  unfold PriceChart.loadMore
  split_ifs with skips
  · exact ⟨inv, id⟩
  · simp only [Bool.or_eq_true, not_or, Bool.not_eq_true] at skips
    refine ⟨⟨inv.ohlcvData, inv.ohlcvDataRef, inv.tickBuffer, ?_⟩, id⟩
    intro call pending
    obtain ⟨selection, -, rfl⟩ := Option.map_eq_some_iff.1 pending
    exact ⟨skips.1.1.2, inv.ohlcvDataRef⟩

/-- **A response either adds bars or stops the chart.** -/
theorem step_moreResponse (inv : ScrollInv s) {market : Market K ticker}
    (step : (scrollBack K ticker).step s (.moreResponse (some market)) = some s') :
    ∃ call ∈ s.loadingMore, ∃ earliest ∈ earliestPoint call.currentData, ScrollInv s' ∧
      (Grows market call.currentData (earliest.time - 60) → s'.noMoreDataRef = false) ∧
      (¬ Grows market call.currentData (earliest.time - 60) →
        s'.noMoreDataRef = true ∧ s'.ohlcvData = s.ohlcvData) := by
  obtain ⟨action, asked, step⟩ := Option.bind_eq_some_iff.1 step
  obtain ⟨call, pending, asked⟩ := Option.bind_eq_some_iff.1 asked
  obtain ⟨earliest, least, rfl⟩ := Option.map_eq_some_iff.1 asked
  refine ⟨call, pending, earliest, least, ?_⟩
  obtain ⟨more, storable⟩ := inv.loadingMore call pending
  obtain ⟨points, answers, times, all⟩ := answer_older (storable earliest (earliestPoint_spec least).1)
  rw [Option.bind_some, answers] at step
  have next : s.loadingMore.map (fun call => s.moreResponse call (some points)) = some s' := step
  rw [pending, Option.map_some, Option.some.injEq, moreResponse, Option.map_some, Option.elim_some] at next
  subst next
  have keeps := keeps_noteOlder call.selection (fetched call.selection points)
    (s.showMore call (fetched call.selection points))
  by_cases adds : Adds call (fetched call.selection points)
  · rw [showMore_of_adds adds] at keeps ⊢
    have new : ∀ bar ∈ uniqueSorted (fetched call.selection points ++ call.currentData), Storable bar.time := by
      intro bar mem
      obtain old | current := List.mem_append.1 (mem_of_mem_uniqueSorted mem)
      · exact storable_fetched call.selection all bar old
      · exact storable bar current
    refine ⟨inv_done keeps new inv.ohlcvDataRef inv.tickBuffer, fun _ => ?_, fun stops => ?_⟩
    · rw [noteOlder_noMoreDataRef]
      exact more
    · exact absurd ((adds_iff_grows times).1 adds) stops
  · rw [showMore_of_not_adds adds] at keeps ⊢
    refine ⟨inv_done keeps inv.ohlcvData inv.ohlcvDataRef inv.tickBuffer, fun grows => ?_, fun _ => ?_⟩
    · exact absurd ((adds_iff_grows times).2 grows) adds
    · exact ⟨noteOlder_noMoreDataRef, keeps.ohlcvData⟩

/-- The steps that are no answers to `loadMore`. -/
theorem step_quiet (inv : ScrollInv s) (other : ∀ market, a ≠ .moreResponse (some market))
    (step : (scrollBack K ticker).step s a = some s') :
    ScrollInv s' ∧ (s'.noMoreDataRef = true → s.noMoreDataRef = true) := by
  cases a with
  | render =>
    have keeps := step_render step
    exact ⟨inv.keeps keeps, keeps.noMoreDataRef⟩
  | historyResponse server => exact step_historyResponse inv step
  | loadMore => exact step_loadMore inv step
  | moreResponse server =>
    cases server with
    | some market => exact absurd rfl (other market)
    | none =>
      obtain ⟨action, asked, step⟩ := Option.bind_eq_some_iff.1 step
      obtain ⟨call, pending, asked⟩ := Option.bind_eq_some_iff.1 asked
      obtain ⟨earliest, -, rfl⟩ := Option.map_eq_some_iff.1 asked
      obtain ⟨call, -, rfl⟩ := Option.map_eq_some_iff.1 step
      exact ⟨inv_done (.refl s) inv.ohlcvData inv.ohlcvDataRef inv.tickBuffer, id⟩

/-- The invariant is kept. -/
theorem ScrollInv.step (inv : ScrollInv s) (step : (scrollBack K ticker).step s a = some s') : ScrollInv s' := by
  by_cases response : ∃ market, a = .moreResponse (some market)
  · obtain ⟨market, rfl⟩ := response
    obtain ⟨call, -, earliest, -, next, -⟩ := step_moreResponse inv step
    exact next
  · exact (step_quiet inv (fun market eq => response ⟨market, eq⟩) step).1

/-- A response can come while `loadMore` waits. -/
theorem exists_step_moreResponse (server : Option (Market K ticker)) {call : LoadMore K} {earliest : Bar K}
    (pending : s.loadingMore = some call) (least : earliestPoint call.currentData = some earliest) :
    ∃ s', (scrollBack K ticker).step s (.moreResponse server) = some s' := by
  have action : (ScrollAction.moreResponse server).chartAction s = some (.moreResponse (server.bind fun market =>
      answer market ⟨ticker, "1m", 200, some (endDateStr earliest.time), market.user⟩)) := by
    rw [ScrollAction.chartAction, pending, Option.bind_some, least, Option.map_some]
  refine ⟨s.moreResponse call (server.bind fun market =>
    answer market ⟨ticker, "1m", 200, some (endDateStr earliest.time), market.user⟩), ?_⟩
  apply (congrArg (Option.bind · _) action).trans
  exact congrArg (Option.map _) pending

/-- **A response stops the chart only at the end of the data exactly if it finds more or there is no more.** -/
theorem stopsAtEnd_moreResponse (inv : ScrollInv s) (market : Market K ticker) :
    StopsAtEnd s (.moreResponse (some market)) ↔ FindsMore s (.moreResponse (some market)) := by
  constructor
  · intro stops call pending earliest least
    obtain ⟨s', step⟩ := exists_step_moreResponse (some market) pending least
    obtain ⟨call', pending', earliest', least', -, -, nothing⟩ := step_moreResponse inv step
    obtain rfl : call' = call := Option.some.inj (pending'.symm.trans pending)
    obtain rfl : earliest' = earliest := Option.some.inj (least'.symm.trans least)
    by_cases grows : Grows market call'.currentData (earliest'.time - 60)
    · exact .inr grows
    · obtain ⟨stopped, same⟩ := nothing grows
      obtain ⟨_, eq, none_older⟩ := stops s' step (inv.loadingMore call' pending).1 stopped
      cases eq
      exact .inl (same ▸ none_older)
  · intro finds s' step _ stopped
    obtain ⟨call, pending, earliest, least, -, goes_on, nothing⟩ := step_moreResponse inv step
    have not_grows : ¬ Grows market call.currentData (earliest.time - 60) := by
      intro grows
      rw [goes_on grows] at stopped
      cases stopped
    refine ⟨market, rfl, ?_⟩
    rw [(nothing not_grows).2]
    exact (finds call pending earliest least).resolve_right not_grows

theorem stopsAtEnd_iff (inv : ScrollInv s) : StopsAtEnd s a ↔ FindsMore s a := by
  by_cases response : ∃ market, a = .moreResponse (some market)
  · obtain ⟨market, rfl⟩ := response
    exact stopsAtEnd_moreResponse inv market
  · have other : ∀ market, a ≠ .moreResponse (some market) := fun market eq => response ⟨market, eq⟩
    refine iff_of_true (fun s' step more stopped => ?_) ?_
    · rw [(step_quiet inv other step).2 stopped] at more
      cases more
    · unfold FindsMore
      split
      · exact absurd rfl (other _)
      · trivial

/-- **For `1m`, the chart stops only at the end of the data exactly along the runs in which each answer to
`loadMore` finds new bars or there are no older ones.** -/
theorem noMoreData_iff (ticker : String) (acts : List (ScrollAction K ticker)) :
    (scrollBack K ticker).Along StopsAtEnd (scrollBack K ticker).init acts ↔
      (scrollBack K ticker).Along FindsMore (scrollBack K ticker).init acts := by
  have init : ScrollInv (scrollBack K ticker).init := ⟨nofun, nofun, rfl, nofun⟩
  refine Machine.along_congr (I := fun s _ => ScrollInv s) ?_ ?_ init
  · exact fun s a as inv => stopsAtEnd_iff inv
  · exact fun s a as s' inv _ step => inv.step step

end Steps

section TwoDays

/-- KIS has a bar of nine o'clock, and one of the day before. -/
def twoDays : Market ℤ "005930" :=
  .ofKis ⟨some "key", some "secret"⟩ 1704326430
    [⟨1704326400, 71000, 71500, 70900, 71200, 1000⟩, ⟨1704243600, 70000, 71000, 69000, 70500, 1000⟩]
    (by decide) (by decide)

/-- The bars before 09:00 are asked for, and none come. -/
theorem stops_at_opening : ¬ ∀ acts : List (ScrollAction ℤ "005930"),
    (scrollBack ℤ "005930").Along StopsAtEnd (scrollBack ℤ "005930").init acts := by
  intro claim
  let before : List (ScrollAction ℤ "005930") :=
    [.render, .render, .historyResponse (some twoDays), .render, .loadMore]
  obtain ⟨s, run, shown⟩ := Machine.exists_of_any (M := scrollBack ℤ "005930") before
    (fun s => !s.noMoreDataRef && ((scrollBack ℤ "005930").step s (.moreResponse (some twoDays))).any fun s' =>
      s'.noMoreDataRef && s'.ohlcvData.all fun bar => 1704243600 < bar.time)
    (by decide +kernel)
  have last := ((Machine.along_snoc run).1 (claim (before ++ [.moreResponse (some twoDays)]))).2
  simp only [Bool.and_eq_true, Bool.not_eq_true', Option.any_eq_true, List.all_eq_true, decide_eq_true_eq] at shown
  obtain ⟨more, s', step, stopped, later⟩ := shown
  obtain ⟨_, eq, none_older⟩ := last s' step more stopped
  cases eq
  have day_before : ⟨1704243600, 70000, 71000, 69000, 70500, 1000⟩ ∈ twoDays.kis := by
    simp [twoDays, Market.ofKis]
  obtain ⟨bar, mem, le⟩ := none_older _ (.inr day_before)
  exact absurd (later bar mem) (not_lt.2 le)

end TwoDays

end StockAnomaly.WebApp

import StockAnomaly.Aggregation.Scalping
import StockAnomaly.Aggregation.CandleIdentity
import StockAnomaly.Aggregation.StateRegistry
import StockAnomaly.Theory.Keyed

/-!
# Tickers do not influence each other

Both paths of the aggregator are `Keyed` handlers: `scalping_drain_loop` over its map of
statistics, `update_swing_state` over the registry, the latter for the tickers that got one
of the `kStatePoolSize` states. A ticker that comes after the last state was taken leaves
no trace.
-/

namespace StockAnomaly.Aggregation

open StockAnomaly.Theory

variable {K : Type*}

namespace Scalping

variable [Field K] [LinearOrder K] [Sqrt K]

/-- `scalping_drain_loop` over the ticks it pops: the statistics and the signals emitted. -/
def drain (ticks : List (Tick K)) : Stats K × List (AggregatorSignal K) :=
  ticks.foldl (fun (stats, signals) tick =>
    let (stats, signal) := drainTick stats tick
    (stats, signals ++ signal.toList)) (Stats.zero, [])

/-- The statistics of one ticker take a tick of that ticker. -/
def perTicker : Keyed Ticker (ZScoreCalculator K 20 × PriceChangeTracker K 20) (Tick K) (AggregatorSignal K) where
  key := Tick.ticker
  init := (ZScoreCalculator.zero, PriceChangeTracker.zero)
  step stats tick :=
    let after := drainTick (fun _ => stats) tick
    (after.1 tick.ticker, after.2.toList)

theorem perTicker_handle (stats : Stats K) (tick : Tick K) :
    perTicker.handle stats tick = ((drainTick stats tick).1, (drainTick stats tick).2.toList) := by
  simp [Keyed.handle, perTicker, drainTick]

theorem drain_eq (ticks : List (Tick K)) : drain ticks = perTicker.run ticks := by
  have step : (fun (acc : Stats K × List (AggregatorSignal K)) (tick : Tick K) =>
      ((perTicker.handle acc.1 tick).1, acc.2 ++ (perTicker.handle acc.1 tick).2)) =
      fun acc tick => ((drainTick acc.1 tick).1, acc.2 ++ (drainTick acc.1 tick).2.toList) := by
    funext acc tick
    rw [perTicker_handle]
  rw [Keyed.run, step]
  rfl

/-- A signal carries the ticker of its tick. -/
theorem drainTick_ticker {stats : Stats K} {tick : Tick K} {sig : AggregatorSignal K}
    (emitted : (drainTick stats tick).2 = some sig) : sig.ticker = tick.ticker := by
  simp only [drainTick] at emitted
  split at emitted
  case isFalse => cases emitted
  case isTrue warm =>
    obtain ⟨type, -, rfl⟩ := Option.map_eq_some_iff.1 emitted
    rfl

theorem perTicker_tagged (stats : ZScoreCalculator K 20 × PriceChangeTracker K 20) (tick : Tick K) :
    ∀ sig ∈ (perTicker.step stats tick).2, sig.ticker = tick.ticker := by
  intro sig mem
  exact drainTick_ticker (Option.mem_toList.1 mem)

/-- The signals for a ticker are those its own ticks give. -/
theorem drain_filter (ticks : List (Tick K)) (ticker : Ticker) :
    (drain ticks).2.filter (·.ticker = ticker) = (drain (ticks.filter (·.ticker = ticker))).2 := by
  have own : ∀ tick ∈ ticks.filter (·.ticker = ticker), perTicker.key tick = ticker := by
    intro tick mem
    exact of_decide_eq_true (List.mem_filter.1 mem).2
  rw [drain_eq, drain_eq, Keyed.run_own _ own]
  exact perTicker.run_outputs (I := fun _ _ => True) (fun _ => trivial) (fun _ _ _ => trivial)
    (fun stats tick _ => perTicker_tagged stats tick) ticks ticker

end Scalping

namespace SwingPath

variable [AddCommGroup K] [LinearOrder K]

/-- The tickers that got a state: the first `kStatePoolSize` distinct ones. -/
def admittedTickers (ticks : List (Tick K)) : List Ticker :=
  admitted kStatePoolSize (ticks.map Tick.ticker)

/-- The state of one ticker, created at its first tick. -/
def perTicker : Keyed Ticker (Option (SwingTickerState K)) (Tick K) (AggregatorSignal K) where
  key := Tick.ticker
  init := none
  step state tick :=
    let after := (state.getD .zero).update tick
    (some after.1, after.2.map emitSwingCandle)

/-- What the path does, told by the ticks of the tickers that got a state. -/
structure Tells (ticks : List (Tick K)) : Prop where
  registry : (run ticks).1.registry = (perTicker.run (ticks.filter (·.ticker ∈ admittedTickers ticks))).1
  signals : (run ticks).2 = (perTicker.run (ticks.filter (·.ticker ∈ admittedTickers ticks))).2
  acquired : (run ticks).1.acquired = (admittedTickers ticks).length
  absent : ∀ ticker, (run ticks).1.registry ticker = none ↔ ticker ∉ admittedTickers ticks

omit [AddCommGroup K] [LinearOrder K] in
theorem admittedTickers_snoc (ticks : List (Tick K)) (tick : Tick K) :
    admittedTickers (ticks ++ [tick]) = admitted kStatePoolSize (ticks.map Tick.ticker ++ [tick.ticker]) := by
  simp [admittedTickers]

theorem perTicker_handle (registry : Ticker → Option (SwingTickerState K)) (tick : Tick K) :
    perTicker.handle registry tick =
      (Function.update registry tick.ticker
        (some (((registry tick.ticker).getD .zero).update tick).1),
        (((registry tick.ticker).getD .zero).update tick).2.map emitSwingCandle) := rfl

/-- A tick of a ticker with a state. -/
theorem Tells.found {ticks : List (Tick K)} (ih : Tells ticks) {tick : Tick K}
    (known : tick.ticker ∈ admittedTickers ticks) : Tells (ticks ++ [tick]) := by
  have same : admittedTickers (ticks ++ [tick]) = admittedTickers ticks := by
    rw [admittedTickers_snoc]
    exact admitted_snoc_of_mem known
  obtain ⟨state, found⟩ : ∃ state, (run ticks).1.registry tick.ticker = some state :=
    Option.ne_none_iff_exists'.1 (mt (ih.absent tick.ticker).1 (not_not.2 known))
  have kept : (ticks ++ [tick]).filter (·.ticker ∈ admittedTickers ticks) =
      ticks.filter (·.ticker ∈ admittedTickers ticks) ++ [tick] := by simp [known]
  have entry : (perTicker.run (ticks.filter (·.ticker ∈ admittedTickers ticks))).1 tick.ticker = some state := by
    rw [← ih.registry, found]
  constructor
  · rw [same, kept, run_snoc, Keyed.run_snoc, updateSwingState_found found, perTicker_handle, entry, ih.registry]
    rfl
  · rw [same, kept, run_snoc, Keyed.run_snoc, updateSwingState_found found, perTicker_handle, entry, ih.signals]
    rfl
  · rw [same, run_snoc, updateSwingState_found found]
    exact ih.acquired
  · intro ticker
    rw [same, run_snoc, updateSwingState_found found]
    by_cases own : ticker = tick.ticker
    · subst own
      simp [known]
    · simpa [own] using ih.absent ticker

/-- The first tick of a ticker that takes a state from the pool. -/
theorem Tells.created {ticks : List (Tick K)} (ih : Tells ticks) {tick : Tick K}
    (new : tick.ticker ∉ admittedTickers ticks) (room : (admittedTickers ticks).length < kStatePoolSize) :
    Tells (ticks ++ [tick]) := by
  have grown : admittedTickers (ticks ++ [tick]) = admittedTickers ticks ++ [tick.ticker] := by
    rw [admittedTickers_snoc]
    exact admitted_snoc_of_room new room
  have unseen : ∀ t ∈ ticks, t.ticker ≠ tick.ticker := by
    intro t mem same
    have met : tick.ticker ∈ ticks.map Tick.ticker := List.mem_map.2 ⟨t, mem, same⟩
    exact new ((mem_admitted_of_room room).2 met)
  have kept : (ticks ++ [tick]).filter (·.ticker ∈ admittedTickers ticks ++ [tick.ticker]) =
      ticks.filter (·.ticker ∈ admittedTickers ticks) ++ [tick] := by
    rw [List.filter_append]
    congr 1
    · apply List.filter_congr
      intro t mem
      simp [unseen t mem]
    · simp
  have absent := (ih.absent tick.ticker).2 new
  have entry : (perTicker.run (ticks.filter (·.ticker ∈ admittedTickers ticks))).1 tick.ticker = none := by
    rw [← ih.registry, absent]
  rw [← ih.acquired] at room
  constructor
  · rw [grown, kept, run_snoc, Keyed.run_snoc, updateSwingState_created absent room, perTicker_handle, entry,
      ih.registry]
    rfl
  · rw [grown, kept, run_snoc, Keyed.run_snoc, updateSwingState_created absent room, perTicker_handle, entry,
      ih.signals]
    rfl
  · rw [grown, run_snoc, updateSwingState_created absent room, List.length_append, ← ih.acquired]
    rfl
  · intro ticker
    rw [grown, run_snoc, updateSwingState_created absent room]
    by_cases own : ticker = tick.ticker
    · subst own
      simp
    · simpa [own] using ih.absent ticker

/-- A tick of a ticker without a state changes nothing once the pool is exhausted. -/
theorem Tells.updateSwingState_exhausted {ticks : List (Tick K)} (ih : Tells ticks) {tick : Tick K}
    (late : tick.ticker ∉ admittedTickers ticks) (exhausted : ¬ (admittedTickers ticks).length < kStatePoolSize) :
    (run ticks).1.updateSwingState tick = ((run ticks).1, []) := by
  rw [← ih.acquired] at exhausted
  exact updateSwingState_dropped ((ih.absent tick.ticker).2 late) exhausted

omit [AddCommGroup K] [LinearOrder K] in
theorem admittedTickers_exhausted {ticks : List (Tick K)} (tick : Tick K)
    (exhausted : ¬ (admittedTickers ticks).length < kStatePoolSize) :
    admittedTickers (ticks ++ [tick]) = admittedTickers ticks := by
  rw [admittedTickers_snoc]
  exact admitted_snoc_of_full (Nat.le_antisymm (length_admitted_le ..) (Nat.le_of_not_lt exhausted))

theorem Tells.dropped {ticks : List (Tick K)} (ih : Tells ticks) {tick : Tick K}
    (late : tick.ticker ∉ admittedTickers ticks) (exhausted : ¬ (admittedTickers ticks).length < kStatePoolSize) :
    Tells (ticks ++ [tick]) := by
  have same := admittedTickers_exhausted tick exhausted
  have kept : (ticks ++ [tick]).filter (·.ticker ∈ admittedTickers ticks) =
      ticks.filter (·.ticker ∈ admittedTickers ticks) := by simp [late]
  have dropped := ih.updateSwingState_exhausted late exhausted
  constructor
  · rw [same, kept, run_snoc, dropped]
    exact ih.registry
  · rw [same, kept, run_snoc, dropped, List.append_nil]
    exact ih.signals
  · rw [same, run_snoc, dropped]
    exact ih.acquired
  · intro ticker
    rw [same, run_snoc, dropped]
    exact ih.absent ticker

theorem tells (ticks : List (Tick K)) : Tells ticks := by
  induction ticks using List.reverseRecOn with
  | nil => exact ⟨rfl, rfl, by simp [run, zero, admittedTickers], by simp [run, zero, admittedTickers]⟩
  | append_singleton ticks tick ih =>
    by_cases known : tick.ticker ∈ admittedTickers ticks
    · exact ih.found known
    · by_cases room : (admittedTickers ticks).length < kStatePoolSize
      · exact ih.created known room
      · exact ih.dropped known room

/-- The invariant of a ticker's entry: its candles carry its name. -/
def EntryOf (ticker : Ticker) (state : Option (SwingTickerState K)) : Prop :=
  ∀ s, state = some s → s.Of ticker

theorem entryOf_step (state : Option (SwingTickerState K)) (tick : Tick K)
    (inv : EntryOf tick.ticker state) : EntryOf tick.ticker (perTicker.step state tick).1 := by
  rintro s ⟨⟩
  cases state with
  | none => exact SwingTickerState.Of.first tick
  | some state => exact (inv state rfl).update

theorem perTicker_tagged (state : Option (SwingTickerState K)) (tick : Tick K)
    (inv : EntryOf tick.ticker state) : ∀ sig ∈ (perTicker.step state tick).2, sig.ticker = tick.ticker := by
  intro sig mem
  obtain ⟨candle, emitted, rfl⟩ := List.mem_map.1 mem
  cases state with
  | none => cases emitted
  | some state =>
    obtain ⟨w, rfl, -⟩ := (inv state rfl).mem_update emitted
    exact (inv state rfl).own w

/-- The signals for a ticker, by the ticks of that ticker that a state took. -/
theorem run_filter (ticks : List (Tick K)) (ticker : Ticker) :
    (run ticks).2.filter (·.ticker = ticker) =
      (perTicker.runOne ((ticks.filter (·.ticker ∈ admittedTickers ticks)).filter (·.ticker = ticker))).2 := by
  rw [(tells ticks).signals]
  exact perTicker.run_outputs (I := EntryOf) (fun _ _ => nofun) entryOf_step perTicker_tagged _ ticker

/-- The candles of a ticker that got a state are those its own ticks give. -/
theorem run_filter_admitted (ticks : List (Tick K)) {ticker : Ticker} (early : ticker ∈ admittedTickers ticks) :
    (run ticks).2.filter (·.ticker = ticker) = (run (ticks.filter (·.ticker = ticker))).2 := by
  have taken : (ticks.filter (·.ticker ∈ admittedTickers ticks)).filter (·.ticker = ticker) =
      ticks.filter (·.ticker = ticker) := by
    rw [List.filter_filter]
    apply List.filter_congr
    intro t _
    by_cases own : t.ticker = ticker
    · simp [own, early]
    · simp [own]
  have own : ∀ tick ∈ ticks.filter (·.ticker = ticker), tick.ticker = ticker := by
    intro tick mem
    exact of_decide_eq_true (List.mem_filter.1 mem).2
  have alone : (ticks.filter (·.ticker = ticker)).filter
      (·.ticker ∈ admittedTickers (ticks.filter (·.ticker = ticker))) = ticks.filter (·.ticker = ticker) := by
    apply List.filter_eq_self.2
    intro tick mem
    have registry := (run_single own).1
    rw [if_neg (List.ne_nil_of_mem mem)] at registry
    apply decide_eq_true
    rw [own tick mem]
    by_contra late
    rw [((tells _).absent ticker).2 late] at registry
    cases registry
  rw [run_filter, taken, (tells _).signals, alone]
  exact (Keyed.run_own _ own).symm

/-- A ticker that got no state emits nothing. -/
theorem run_filter_late {ticks : List (Tick K)} {ticker : Ticker} (late : ticker ∉ admittedTickers ticks) :
    (run ticks).2.filter (·.ticker = ticker) = [] := by
  have nothing : (ticks.filter (·.ticker ∈ admittedTickers ticks)).filter (·.ticker = ticker) = [] := by
    rw [List.filter_filter]
    apply List.filter_eq_nil_iff.2
    intro t _ both
    simp only [Bool.and_eq_true, decide_eq_true_eq] at both
    exact late (both.1 ▸ both.2)
  rw [run_filter, nothing]
  rfl

omit [AddCommGroup K] [LinearOrder K] in
/-- A ticker with a state keeps it. -/
theorem admittedTickers_mono {ticks : List (Tick K)} {ticker : Ticker} (tick : Tick K)
    (early : ticker ∈ admittedTickers ticks) : ticker ∈ admittedTickers (ticks ++ [tick]) := by
  rw [admittedTickers_snoc, admitted, List.eraseDups_append, List.take_append]
  exact List.mem_append_left _ early

/-- The ticks of a ticker that got no state leave no trace. -/
theorem run_filter_ne {ticks : List (Tick K)} {ticker : Ticker} (late : ticker ∉ admittedTickers ticks) :
    run (ticks.filter (·.ticker ≠ ticker)) = run ticks := by
  induction ticks using List.reverseRecOn with
  | nil => rfl
  | append_singleton ticks tick ih =>
    have before : ticker ∉ admittedTickers ticks := mt (admittedTickers_mono tick) late
    rw [List.filter_append]
    by_cases own : tick.ticker = ticker
    · subst own
      have exhausted : ¬ (admittedTickers ticks).length < kStatePoolSize := by
        intro room
        rw [admittedTickers_snoc] at late
        apply late
        rw [admitted_snoc_of_room before room]
        exact List.mem_append_right _ (List.mem_singleton_self _)
      rw [run_snoc, (tells ticks).updateSwingState_exhausted before exhausted]
      have dropped : [tick].filter (·.ticker ≠ tick.ticker) = [] := by simp
      rw [dropped, List.append_nil, List.append_nil, ih before]
    · have kept : [tick].filter (·.ticker ≠ ticker) = [tick] := by simp [own]
      rw [kept, run_snoc, run_snoc, ih before]

end SwingPath

/-- **Tickers do not influence each other**: the scalping signals for a ticker are those of
its own ticks; so are its candles if it got a state, and otherwise its ticks leave no trace;
and concurrent calls for a state give every ticker one state of its own. -/
theorem tickers_isolated [Field K] [LinearOrder K] [Sqrt K] (ticks : List (Tick K)) (ticker : Ticker) :
    (Scalping.drain ticks).2.filter (·.ticker = ticker) =
        (Scalping.drain (ticks.filter (·.ticker = ticker))).2 ∧
      (ticker ∈ SwingPath.admittedTickers ticks →
        (SwingPath.run ticks).2.filter (·.ticker = ticker) =
          (SwingPath.run (ticks.filter (·.ticker = ticker))).2) ∧
      (ticker ∉ SwingPath.admittedTickers ticks →
        (SwingPath.run ticks).2.filter (·.ticker = ticker) = [] ∧
          SwingPath.run (ticks.filter (·.ticker ≠ ticker)) = SwingPath.run ticks) ∧
      ∀ (Tid : Type) [DecidableEq Tid] (s : StateRegistry Tid),
        (StateRegistry.machine Tid kStatePoolSize).Reachable s →
          (∀ T r r', (T, r) ∈ s.returned → (T, r') ∈ s.returned → r = r') ∧
            ∀ T U i, (T, some i) ∈ s.returned → (U, some i) ∈ s.returned → T = U := by
  refine ⟨Scalping.drain_filter ticks ticker, SwingPath.run_filter_admitted ticks, ?_, ?_⟩
  · intro late
    exact ⟨SwingPath.run_filter_late late, SwingPath.run_filter_ne late⟩
  · intro Tid _ s reach
    have inv := StateRegistry.inv_of_reachable reach
    exact ⟨fun T r r' => inv.same, fun T U i => inv.distinct⟩

end StockAnomaly.Aggregation

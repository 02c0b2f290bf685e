import StockAnomaly.Engine.AggregatorThreads

/-!
# The scalping handler never runs

With exact numbers the statistics of the drain thread stay those of its window in every
interleaving, so no tick reaches the order-triggering tier: the drain thread emits alerts
only, the scalping bus stays empty and the scalping handler opens no position and sends no
order: **`silent_of_reachable`**. Rounded numbers may leave a rest in `m2_` that lets a score
through.
-/

namespace StockAnomaly.Engine

open StockAnomaly.Theory StockAnomaly.Aggregation StockAnomaly.Events

/-- What the drain thread computes keeps the statistics exact. -/
theorem drainTick_inv {stats : Scalping.Stats ℝ} (inv : ∀ ticker, (stats ticker).1.ZScoreInv) (tick : Tick ℝ)
    (ticker : Ticker) : ((Scalping.drainTick stats tick).1 ticker).1.ZScoreInv := by
  by_cases own : ticker = tick.ticker
  · subst own
    rw [Scalping.drainTick_stats]
    exact (inv tick.ticker).observe tick.volume
  · rw [Scalping.drainTick_other own]
    exact inv ticker

/-- So no event for the scalping handler comes of it. -/
theorem scalpingEvents_drainTick {stats : Scalping.Stats ℝ} (inv : ∀ ticker, (stats ticker).1.ZScoreInv)
    (tick : Tick ℝ) : scalpingEvents (Scalping.drainTick stats tick).2 = [] := by
  cases emitted : (Scalping.drainTick stats tick).2 with
  | none => rfl
  | some sig => exact if_neg (Scalping.drainTick_ne_scalping (inv tick.ticker) emitted)

/-- The scalping side in any state of the engine. -/
structure Silent (s : EngineState ℝ) : Prop where
  exact_stats : ∀ ticker, (s.stats ticker).1.ZScoreInv
  /-- The drain thread has nothing for the handler in its hands, -/
  draining : ∀ d, s.draining = some d → scalpingEvents d.signal = []
  /-- nothing waits on the bus, -/
  bus : s.scalpingBus = []
  /-- nobody holds a position -/
  positions : s.positions = fun _ => none
  /-- and the handler was never called. -/
  undispatched : ∀ event order, ScalpingEntry.dispatched event order ∉ s.scalpingLog

theorem Silent.init : Silent EngineState.init where
  exact_stats _ := ZScoreCalculator.ZScoreInv.zero
  draining := nofun
  bus := rfl
  positions := rfl
  undispatched _ _ := List.not_mem_nil

/-- A tick that leaves the engine adds no dispatch to the record. -/
theorem Silent.settle {s : EngineState ℝ} (h : Silent s) (number : ℕ) (tick : Tick ℝ) :
    Silent (s.settle number tick) := by
  refine ⟨h.exact_stats, h.draining, h.bus, h.positions, ?_⟩
  intro event order mem
  simp only [EngineState.settle] at mem
  split at mem
  · rcases List.mem_append.1 mem with old | new
    · exact h.undispatched event order old
    · cases List.mem_singleton.1 new
  · exact h.undispatched event order mem

theorem Silent.step {s s' : EngineState ℝ} (h : Silent s) {a : EngineAction ℝ}
    (taken : (machine ℝ).step s a = some s') : Silent s' := by
  cases step_cases taken with
  | tick idle => exact ⟨h.exact_stats, h.draining, h.bus, h.positions, h.undispatched⟩
  | pushed done =>
    apply Silent.settle
    exact ⟨h.exact_stats, h.draining, h.bus, h.positions, h.undispatched⟩
  | @drain number tick queue idle head =>
    refine ⟨drainTick_inv h.exact_stats tick, ?_, h.bus, h.positions, h.undispatched⟩
    rintro d ⟨⟩
    exact scalpingEvents_drainTick h.exact_stats tick
  | @drained number tick signal done =>
    apply Silent.settle
    refine ⟨h.exact_stats, nofun, ?_, h.positions, h.undispatched⟩
    show s.scalpingBus ++ scalpingEvents signal = []
    rw [h.bus, h.draining _ done]
    rfl
  | dispatchScalping head => cases h.bus.symm.trans head
  | _ => exact ⟨h.exact_stats, h.draining, h.bus, h.positions, h.undispatched⟩

/-- **The scalping side of the engine is silent** in exact arithmetic: in every interleaving of
its threads, for all prices, volumes and orders of ticks, no scalping event is ever
dispatched, no scalping position opened and no scalping order sent. -/
theorem silent_of_reachable {s : EngineState ℝ} (reach : (machine ℝ).Reachable s) : Silent s :=
  reach.induct Silent.init fun _ _ _ h taken => h.step taken

/-- Two ticks are drained, and the second one jumps in price and volume. -/
theorem silent_of_reachable_tick : ∃ s : EngineState ℝ,
    s.arrived = 2 ∧ s.scalpingQueue = [] ∧ s.draining = none ∧ Silent s := by
  have drained : (machine ℝ).Reachable _ := ⟨[.tick ⟨"A", 100, 10, 0⟩, .drain, .pushed, .drained,
    .tick ⟨"A", 104, 1000000, 1000⟩, .pushed, .drain, .drained], rfl⟩
  exact ⟨_, rfl, rfl, rfl, silent_of_reachable drained⟩

end StockAnomaly.Engine

import StockAnomaly.Engine.AggregatorThreads

/-!
# Candles under concurrent `push_tick`

The mutex of a ticker's state serialises its updates, and the callbacks for the closed
candles run before it is released. So the candles of a ticker come out as if its ticks had
been taken one after another in the order of the lock, and no candle comes out twice:
**`linear_of_reachable`**.
-/

namespace StockAnomaly.Engine

open StockAnomaly.Theory StockAnomaly.Core StockAnomaly.Aggregation

/-- What a caller still has to hand to `on_signal_`. -/
def PushTickPc.rest {K : Type} : PushTickPc K → List (AggregatorSignal K)
  | .emitting _ rest => rest
  | _ => []

/-- The caller holds the mutex of the ticker's state. -/
def PushTickPc.Holds {K : Type} (ticker : Ticker) : PushTickPc K → Prop
  | .emitting held _ => held = ticker
  | _ => False

namespace TickAggregator

variable {Tid K : Type} {s s' : TickAggregator Tid K} {ticker : Ticker}

/-- The ticks of a ticker, in the order in which they took its mutex. -/
def updatesOf (s : TickAggregator Tid K) (ticker : Ticker) : List (Tick K) :=
  s.updates.filter (·.ticker = ticker)

/-- The signals of a ticker that the holder of its mutex has not emitted yet. -/
def pendingFor (s : TickAggregator Tid K) (ticker : Ticker) : List (AggregatorSignal K) :=
  match s.mutex ticker with
  | some t => (s.caller t).rest
  | none => []

theorem mem_updatesOf {tick : Tick K} (mem : tick ∈ s.updatesOf ticker) : tick.ticker = ticker :=
  of_decide_eq_true (List.mem_filter.1 mem).2

section OneTicker

variable [AddCommGroup K] [LinearOrder K] {ticks : List (Tick K)}

/-- A state that has taken ticks of one ticker carries its name. -/
theorem run_of (own : ∀ tick ∈ ticks, tick.ticker = ticker) (some_tick : ticks ≠ []) :
    (SwingTickerState.run ticks).1.Of ticker := by
  induction ticks using List.reverseRecOn with
  | nil => exact absurd rfl some_tick
  | append_singleton ticks tick ih =>
    obtain rfl : tick.ticker = ticker := own tick (by simp)
    rw [SwingTickerState.run_snoc]
    by_cases first : ticks = []
    · subst first
      exact .first tick
    · exact (ih (fun t mem => own t (by simp [mem])) first).update

/-- So do the candles that the next tick closes. -/
theorem update_ticker (own : ∀ tick ∈ ticks, tick.ticker = ticker) {tick : Tick K} {c : Candle K}
    (mem : c ∈ ((SwingTickerState.run ticks).1.update tick).2) : c.ticker = ticker := by
  by_cases first : ticks = []
  · subst first
    cases mem
  · have state := run_of own first
    obtain ⟨w, rfl, -⟩ := state.mem_update mem
    exact state.own w

end OneTicker

theorem getOrCreateState_registry [AddCommGroup K] (p : SwingPath K) (ticker : Ticker) :
    (p.getOrCreateState ticker).2.registry = p.registry ∨
      (p.registry ticker = none ∧
        (p.getOrCreateState ticker).2.registry = Function.update p.registry ticker (some .zero)) := by
  rw [SwingPath.getOrCreateState]
  split
  · exact .inl rfl
  · split
    · exact .inr ⟨‹_›, rfl⟩
    · exact .inl rfl

section Invariant

variable [AddCommGroup K] [LinearOrder K]

/-- What holds of the swing path between any two steps. -/
structure SwingInv (s : TickAggregator Tid K) : Prop where
  holder : ∀ ticker t, s.mutex ticker = some t ↔ (s.caller t).Holds ticker
  own : ∀ t ticker, (s.caller t).Holds ticker → ∀ sig ∈ (s.caller t).rest, sig.ticker = ticker
  state : ∀ ticker state, s.swingPath.registry ticker = some state →
    state = (SwingTickerState.run (s.updatesOf ticker)).1
  absent : ∀ ticker, s.swingPath.registry ticker = none → s.updatesOf ticker = []
  signals : ∀ ticker, s.swingSignals.filter (·.ticker = ticker) ++ s.pendingFor ticker =
    (SwingTickerState.run (s.updatesOf ticker)).2.map emitSwingCandle

variable [DecidableEq Tid] {t : Tid}

/-- A caller that holds no mutex moves, and holds none after it. -/
theorem SwingInv.setCaller (h : SwingInv s) {pc : PushTickPc K} (before : ∀ ticker, ¬ (s.caller t).Holds ticker)
    (after : ∀ ticker, ¬ pc.Holds ticker) : SwingInv (s.setCaller t pc) := by
  have other : ∀ ticker u, s.mutex ticker = some u → u ≠ t := by
    rintro ticker u held rfl
    exact before ticker ((h.holder ticker u).1 held)
  refine ⟨?_, ?_, h.state, h.absent, ?_⟩
  · intro ticker u
    by_cases same : u = t
    · subst same
      simp only [TickAggregator.setCaller, Function.update_self, after ticker, iff_false]
      intro held
      exact other ticker u held rfl
    · simpa only [TickAggregator.setCaller, Function.update_of_ne same] using h.holder ticker u
  · intro u ticker holds
    by_cases same : u = t
    · subst same
      simp only [TickAggregator.setCaller, Function.update_self] at holds
      exact absurd holds (after ticker)
    · simp only [TickAggregator.setCaller, Function.update_of_ne same] at holds ⊢
      exact h.own u ticker holds
  · intro ticker
    have pending : (s.setCaller t pc).pendingFor ticker = s.pendingFor ticker := by
      simp only [pendingFor, TickAggregator.setCaller]
      split
      · rw [Function.update_of_ne (other ticker _ ‹_›)]
      · rfl
    rw [pending]
    exact h.signals ticker

omit [DecidableEq Tid] in
/-- The registry gets a fresh state for a ticker without one. -/
theorem SwingInv.getState (h : SwingInv s) (ticker : Ticker) :
    SwingInv { s with swingPath := (s.swingPath.getOrCreateState ticker).2 } := by
  rcases getOrCreateState_registry s.swingPath ticker with same | ⟨absent, created⟩
  · refine ⟨h.holder, h.own, ?_, ?_, h.signals⟩
    · simp only [same]
      exact h.state
    · simp only [same]
      exact h.absent
  · refine ⟨h.holder, h.own, ?_, ?_, h.signals⟩
    · intro U state found
      simp only [created] at found
      by_cases own : U = ticker
      · subst own
        simp only [Function.update_self, Option.some.injEq] at found
        have none_yet : s.updatesOf U = [] := h.absent U absent
        rw [← found]
        exact congrArg (fun ticks => (SwingTickerState.run ticks).1) none_yet.symm
      · rw [Function.update_of_ne own] at found
        exact h.state U state found
    · intro U missing
      simp only [created] at missing
      by_cases own : U = ticker
      · subst own
        simp at missing
      · rw [Function.update_of_ne own] at missing
        exact h.absent U missing

end Invariant

section Steps

variable [DecidableEq Tid] [Field K] [LinearOrder K] {t : Tid}

/-- The mutex is taken and the state updated. -/
theorem SwingInv.takeLock (h : SwingInv s) {tick : Tick K} {state : SwingTickerState K}
    (inside : s.caller t = .locking tick) (free : s.mutex tick.ticker = none)
    (found : s.swingPath.registry tick.ticker = some state) : SwingInv (s.takeLock t tick state) := by
  have before : ∀ ticker, ¬ (s.caller t).Holds ticker := by
    rw [inside]
    exact fun _ => id
  have other : ∀ ticker u, s.mutex ticker = some u → u ≠ t := by
    rintro ticker u held rfl
    exact before ticker ((h.holder ticker u).1 held)
  have updates (ticker : Ticker) : (s.takeLock t tick state).updatesOf ticker =
      s.updatesOf ticker ++ if tick.ticker = ticker then [tick] else [] := by
    simp only [updatesOf, TickAggregator.takeLock, List.filter_append]
    by_cases own : tick.ticker = ticker <;> simp [own]
  have entry := h.state _ _ found
  constructor
  · intro ticker u
    simp only [TickAggregator.takeLock]
    by_cases own : ticker = tick.ticker
    · subst own
      by_cases same : u = t
      · subst same
        simp [PushTickPc.Holds]
      · rw [Function.update_self, Function.update_of_ne same, ← h.holder, free]
        simp [Ne.symm same]
    · rw [Function.update_of_ne own]
      by_cases same : u = t
      · subst same
        rw [Function.update_self]
        refine ⟨fun held => absurd rfl (other ticker u held), fun held => absurd held (Ne.symm own)⟩
      · rw [Function.update_of_ne same]
        exact h.holder ticker u
  · intro u ticker holds sig mem
    simp only [TickAggregator.takeLock] at holds mem
    by_cases same : u = t
    · subst same
      rw [Function.update_self] at holds mem
      obtain ⟨c, emitted, rfl⟩ := List.mem_map.1 mem
      rw [entry] at emitted
      exact (update_ticker (fun _ => mem_updatesOf) emitted).trans holds
    · rw [Function.update_of_ne same] at holds mem
      exact h.own u ticker holds sig mem
  · intro ticker state' found'
    rw [updates]
    simp only [TickAggregator.takeLock] at found'
    by_cases own : ticker = tick.ticker
    · subst own
      rw [Function.update_self, Option.some.injEq] at found'
      rw [if_pos rfl, SwingTickerState.run_snoc, ← found', ← entry]
    · rw [Function.update_of_ne own] at found'
      rw [if_neg (Ne.symm own), List.append_nil]
      exact h.state ticker state' found'
  · intro ticker missing
    rw [updates]
    simp only [TickAggregator.takeLock] at missing
    by_cases own : ticker = tick.ticker
    · subst own
      rw [Function.update_self] at missing
      cases missing
    · rw [Function.update_of_ne own] at missing
      rw [if_neg (Ne.symm own), List.append_nil]
      exact h.absent ticker missing
  · intro ticker
    rw [updates]
    have signals := h.signals ticker
    by_cases own : ticker = tick.ticker
    · subst own
      have idle : s.pendingFor tick.ticker = [] := by
        rw [pendingFor, free]
      have now : (s.takeLock t tick state).pendingFor tick.ticker = (state.update tick).2.map emitSwingCandle := by
        simp [pendingFor, TickAggregator.takeLock, PushTickPc.rest]
      rw [idle, List.append_nil] at signals
      rw [now, if_pos rfl, SwingTickerState.run_snoc, ← entry, List.map_append, ← signals]
      rfl
    · have pending : (s.takeLock t tick state).pendingFor ticker = s.pendingFor ticker := by
        simp only [pendingFor, TickAggregator.takeLock, Function.update_of_ne own]
        split
        · rw [Function.update_of_ne (other ticker _ ‹_›)]
        · rfl
      rw [pending, if_neg (Ne.symm own), List.append_nil]
      exact signals

/-- The holder of a mutex hands on the next signal. -/
theorem SwingInv.emit (h : SwingInv s) {ticker : Ticker} {sig : AggregatorSignal K}
    {rest : List (AggregatorSignal K)} (inside : s.caller t = .emitting ticker (sig :: rest)) :
    SwingInv { s.setCaller t (.emitting ticker rest) with swingSignals := s.swingSignals ++ [sig] } := by
  have holds : (s.caller t).Holds ticker := by
    rw [inside]
    rfl
  have held := (h.holder ticker t).2 holds
  have tagged := h.own t ticker holds
  rw [inside] at tagged
  have only : ∀ U, s.mutex U = some t → U = ticker := by
    intro U held'
    have holds' := (h.holder U t).1 held'
    rw [inside] at holds'
    exact holds'.symm
  refine ⟨?_, ?_, h.state, h.absent, ?_⟩
  · intro U u
    simp only [TickAggregator.setCaller]
    by_cases same : u = t
    · subst same
      rw [Function.update_self, h.holder, inside]
      rfl
    · rw [Function.update_of_ne same]
      exact h.holder U u
  · intro u U holds'
    simp only [TickAggregator.setCaller] at holds' ⊢
    by_cases same : u = t
    · subst same
      rw [Function.update_self] at holds' ⊢
      intro sig' mem
      exact (tagged sig' (List.mem_cons_of_mem _ mem)).trans holds'
    · rw [Function.update_of_ne same] at holds' ⊢
      exact h.own u U holds'
  · intro U
    refine Eq.trans ?_ (h.signals U)
    simp only [pendingFor, TickAggregator.setCaller, List.filter_append]
    by_cases own : U = ticker
    · subst own
      have mine : sig.ticker = U := tagged sig List.mem_cons_self
      simp [held, inside, mine, PushTickPc.rest]
    · have foreign : sig.ticker ≠ U := by
        rw [tagged sig List.mem_cons_self]
        exact Ne.symm own
      rw [List.filter_cons_of_neg (by simpa using foreign), List.filter_nil, List.append_nil]
      cases held' : s.mutex U with
      | none => rfl
      | some u =>
        have ne : u ≠ t := by
          rintro rfl
          exact own (only U held')
        simp only [Function.update_of_ne ne]

/-- The mutex is released once everything has been emitted. -/
theorem SwingInv.unlock (h : SwingInv s) {ticker : Ticker} (inside : s.caller t = .emitting ticker []) :
    SwingInv { s.setCaller t .outside with mutex := Function.update s.mutex ticker none } := by
  have holds : (s.caller t).Holds ticker := by
    rw [inside]
    rfl
  have held := (h.holder ticker t).2 holds
  have only : ∀ U, s.mutex U = some t → U = ticker := by
    intro U held'
    have holds' := (h.holder U t).1 held'
    rw [inside] at holds'
    exact holds'.symm
  refine ⟨?_, ?_, h.state, h.absent, ?_⟩
  · intro U u
    simp only [TickAggregator.setCaller]
    by_cases own : U = ticker
    · subst own
      rw [Function.update_self]
      by_cases same : u = t
      · subst same
        rw [Function.update_self]
        exact ⟨nofun, nofun⟩
      · rw [Function.update_of_ne same, ← h.holder, held, Option.some.injEq]
        exact ⟨nofun, fun eq => absurd eq.symm same⟩
    · rw [Function.update_of_ne own]
      by_cases same : u = t
      · subst same
        rw [Function.update_self]
        exact ⟨fun held' => absurd (only U held') own, nofun⟩
      · rw [Function.update_of_ne same]
        exact h.holder U u
  · intro u U holds'
    simp only [TickAggregator.setCaller] at holds' ⊢
    by_cases same : u = t
    · subst same
      rw [Function.update_self] at holds'
      exact absurd holds' id
    · rw [Function.update_of_ne same] at holds' ⊢
      exact h.own u U holds'
  · intro U
    refine Eq.trans ?_ (h.signals U)
    simp only [pendingFor, TickAggregator.setCaller]
    by_cases own : U = ticker
    · subst own
      simp [held, inside, PushTickPc.rest]
    · rw [Function.update_of_ne own]
      cases held' : s.mutex U with
      | none => rfl
      | some u =>
        have ne : u ≠ t := by
          rintro rfl
          exact own (only U held')
        simp only [Function.update_of_ne ne]

theorem SwingInv.step [Sqrt K] (h : SwingInv s) {a : AggregatorAction Tid K}
    (taken : (machine Tid K).step s a = some s') : SwingInv s' := by
  cases step_cases taken with
  | @pushTick t tick queue outside =>
    have moved : SwingInv (s.setCaller t (.queueing tick)) :=
      h.setCaller (by rw [outside]; exact fun _ => id) fun _ => id
    exact ⟨moved.holder, moved.own, moved.state, moved.absent, moved.signals⟩
  | @pushStep t a tick queue inside =>
    have after : ∀ ticker, ¬ (afterPush queue t tick).Holds ticker := by
      intro ticker
      unfold afterPush
      split <;> exact id
    have moved := h.setCaller (by rw [inside]; exact fun _ => id) after
    exact ⟨moved.holder, moved.own, moved.state, moved.absent, moved.signals⟩
  | @getState t tick inside =>
    have after : ∀ ticker,
        ¬ (afterLook tick (s.swingPath.getOrCreateState tick.ticker).1).Holds ticker := by
      intro ticker
      cases (s.swingPath.getOrCreateState tick.ticker).1 <;> exact id
    exact (h.getState tick.ticker).setCaller (by rw [inside]; exact fun _ => id) after
  | lock inside free found => exact h.takeLock inside free found
  | emit inside => exact h.emit inside
  | unlock inside => exact h.unlock inside
  | _ => exact ⟨h.holder, h.own, h.state, h.absent, h.signals⟩

omit [DecidableEq Tid] in
theorem SwingInv.init [Sqrt K] : SwingInv (TickAggregator.init : TickAggregator Tid K) where
  holder _ _ := ⟨nofun, nofun⟩
  own := nofun
  state := nofun
  absent _ _ := rfl
  signals _ := rfl

theorem swingInv_of_reachable [Sqrt K] (reach : (machine Tid K).Reachable s) : SwingInv s :=
  reach.induct SwingInv.init fun _ _ _ inv taken => inv.step taken

end Steps

section Contract

variable [AddCommGroup K] [LinearOrder K]

/-- The swing path's contract in a state of a run. -/
structure Linear (s : TickAggregator Tid K) : Prop where
  /-- One thread at a time is under the mutex of a ticker's state. -/
  exclusive : ∀ ticker t u, (s.caller t).Holds ticker → (s.caller u).Holds ticker → t = u
  /-- The signals of a ticker, with those in the hands of the holder of its mutex, are the
  plain path's on its ticks in the order of the lock. -/
  signals : ∀ ticker, s.swingSignals.filter (·.ticker = ticker) ++ s.pendingFor ticker =
    (SwingPath.run (s.updatesOf ticker)).2
  /-- So is the state of a ticker that has taken a tick. -/
  state : ∀ ticker, s.updatesOf ticker ≠ [] →
    s.swingPath.registry ticker = (SwingPath.run (s.updatesOf ticker)).1.registry ticker
  /-- No ticker, window length and close time is emitted twice. -/
  once : (s.swingSignals.map fun sig => sig.candle.key).Nodup

/-- The plain path emits no candle twice. -/
theorem run_nodup (ticks : List (Tick K)) :
    ((SwingPath.run ticks).2.map fun sig => sig.candle.key).Nodup := by
  have nodup := (Identified.run ticks).nodup
  rwa [List.map_map] at nodup

theorem SwingInv.linear (h : SwingInv s) : Linear s := by
  have own (ticker : Ticker) : ∀ tick ∈ s.updatesOf ticker, tick.ticker = ticker := fun _ => mem_updatesOf
  have plain (ticker : Ticker) := SwingPath.run_single (own ticker)
  have signals : ∀ ticker, s.swingSignals.filter (·.ticker = ticker) ++ s.pendingFor ticker =
      (SwingPath.run (s.updatesOf ticker)).2 := fun ticker => (h.signals ticker).trans (plain ticker).2.symm
  refine ⟨?_, signals, ?_, ?_⟩
  · intro ticker t u holds holds'
    have held := (h.holder ticker t).2 holds
    exact Option.some.inj (held.symm.trans ((h.holder ticker u).2 holds'))
  · intro ticker some_tick
    rw [(plain ticker).1, if_neg some_tick]
    cases found : s.swingPath.registry ticker with
    | none => exact absurd (h.absent ticker found) some_tick
    | some state => rw [h.state ticker state found]
  · have carried : ∀ sig ∈ s.swingSignals, sig.candle.ticker = sig.ticker := by
      intro sig mem
      have own : sig ∈ s.swingSignals.filter (·.ticker = sig.ticker) := List.mem_filter.2 ⟨mem, by simp⟩
      have emitted := List.mem_append_left (s.pendingFor sig.ticker) own
      rw [h.signals] at emitted
      obtain ⟨c, -, rfl⟩ := List.mem_map.1 emitted
      rfl
    apply nodup_map_of_filter (f := AggregatorSignal.ticker)
    · intro sig mem sig' mem' same
      rw [← carried sig mem, ← carried sig' mem']
      exact congrArg Prod.fst same
    · intro ticker
      have nodup := run_nodup (s.updatesOf ticker)
      rw [← signals ticker, List.map_append] at nodup
      exact nodup.of_append_left

end Contract

/-- **Concurrent calls of `push_tick` are linear ticker by ticker**: in every interleaving, the
candles of a ticker are those of the plain path on its ticks in the order of the lock, each
emitted once. -/
theorem linear_of_reachable [DecidableEq Tid] [Field K] [LinearOrder K] [Sqrt K]
    (reach : (machine Tid K).Reachable s) : Linear s :=
  (swingInv_of_reachable reach).linear

/-- Two callers with ticks of one ticker: the second waits for the mutex of the first, then
closes the quarter and is interrupted before it hands the candle on. -/
theorem linear_of_reachable_two :
    ∃ s : TickAggregator ℕ ℚ, s.updates = [⟨"A", 1, 1, 0⟩, ⟨"A", 2, 1, 900000⟩] ∧
      (s.pendingFor "A").length = 1 ∧ Linear s := by
  obtain ⟨s, run, found⟩ := (machine ℕ ℚ).exists_of_any
    [.pushTick 0 ⟨"A", 1, 1, 0⟩, .pushTick 1 ⟨"A", 2, 1, 900000⟩, .pushStep 0 .loadSequence,
      .pushStep 0 (.casEnqueue false), .pushStep 1 .loadSequence, .pushStep 0 .writeData, .pushStep 0 .publish,
      .pushStep 1 (.casEnqueue false), .pushStep 1 .loadSequence, .pushStep 1 (.casEnqueue false),
      .pushStep 1 .writeData, .pushStep 1 .publish, .getState 0, .getState 1, .lock 0, .unlock 0, .lock 1]
    (fun s => s.updates = [⟨"A", 1, 1, 0⟩, ⟨"A", 2, 1, 900000⟩] ∧ (s.pendingFor "A").length = 1)
    (by decide +kernel)
  obtain ⟨updates, pending⟩ := of_decide_eq_true found
  exact ⟨s, updates, pending, linear_of_reachable ⟨_, run⟩⟩

end TickAggregator

end StockAnomaly.Engine

import Mathlib.Data.List.Nodup
import StockAnomaly.Aggregation.CandleBlocks

/-!
# One candle for each ticker, window length and close time

The swing path emits no two candles with the same ticker, window length and close time,
whatever the order of the timestamps: a tick that closes a candle opens one that closes
later. The invariant `Identified` compares each emitted candle with the candle of its
window that is in progress.
-/

namespace StockAnomaly.Aggregation

variable {K : Type*} [AddCommGroup K] [LinearOrder K]

/-- What tells the candles of the swing path apart. -/
def Candle.key (c : Candle K) : Ticker × ℤ × ℤ := (c.ticker, c.windowMinutes, c.closeTimeMs)

/-- A state that has seen a tick of its ticker, and only such ticks. -/
structure SwingTickerState.Of (ticker : Ticker) (s : SwingTickerState K) : Prop where
  active15m : s.active15m = true
  active1h : s.active1h = true
  own : ∀ w, (s.candle w).ticker = ticker
  minutes : ∀ w, (s.candle w).windowMinutes = w.minutes

/-- Every emitted candle has its own key, and its window has moved on. -/
structure Identified (p : SwingPath K) (emitted : List (Candle K)) : Prop where
  inProgress : ∀ ticker s, p.registry ticker = some s → s.Of ticker
  earlier : ∀ c ∈ emitted, ∃ s w, p.registry c.ticker = some s ∧ c.windowMinutes = w.minutes ∧
    c.closeTimeMs < (s.candle w).closeTimeMs
  nodup : (emitted.map Candle.key).Nodup

/-- A tick closes the candle of a window and opens a later one, or joins it. -/
theorem advance_cases (windowMin : ℤ) (candle : Candle K) (tick : Tick K) :
    (candle.closeTimeMs ≤ tick.timestampMs ∧
        advance windowMin true candle tick = (Candle.reset tick windowMin, [candle])) ∨
      advance windowMin true candle tick = (candle.update tick, []) := by
  cases late : candle.isExpired tick.timestampMs with
  | true => exact .inl ⟨of_decide_eq_true late, by simp [advance, late]⟩
  | false => exact .inr (by simp [advance, late])

theorem closeTimeMs_le_advance {windowMin : ℤ} (pos : 0 < windowMs windowMin) (candle : Candle K)
    (tick : Tick K) : candle.closeTimeMs ≤ (advance windowMin true candle tick).1.closeTimeMs := by
  rcases advance_cases windowMin candle tick with ⟨late, eq⟩ | eq
  · rw [eq]
    exact late.trans (lt_windowStart_add pos).le
  · rw [eq]
    exact le_rfl

/-- An emitted candle closed before the one now in progress does. -/
theorem lt_of_mem_advance {windowMin : ℤ} (pos : 0 < windowMs windowMin) {candle c : Candle K}
    {tick : Tick K} (mem : c ∈ (advance windowMin true candle tick).2) :
    c.closeTimeMs < (advance windowMin true candle tick).1.closeTimeMs := by
  rcases advance_cases windowMin candle tick with ⟨late, eq⟩ | eq
  · rw [eq] at mem ⊢
    rw [List.mem_singleton.1 mem]
    exact late.trans_lt (lt_windowStart_add pos)
  · rw [eq] at mem
    cases mem

namespace SwingTickerState

variable {ticker : Ticker} {s : SwingTickerState K} {tick : Tick K}

theorem Of.update_candle (h : s.Of ticker) (w : Window) :
    (s.update tick).1.candle w = (advance w.minutes true (s.candle w) tick).1 := by
  cases w <;> simp [SwingTickerState.update, SwingTickerState.candle, Window.minutes, h.active15m, h.active1h]

theorem Of.update_emitted (h : s.Of ticker) : (s.update tick).2 =
    (advance Window.quarter.minutes true (s.candle .quarter) tick).2 ++
      (advance Window.hour.minutes true (s.candle .hour) tick).2 := by
  simp only [SwingTickerState.update, h.active15m, h.active1h]
  rfl

theorem Of.update (h : s.Of tick.ticker) : (s.update tick).1.Of tick.ticker where
  active15m := rfl
  active1h := rfl
  own := by
    intro w
    rw [h.update_candle]
    rcases advance_cases w.minutes (s.candle w) tick with ⟨-, eq⟩ | eq
    · rw [eq]
      rfl
    · rw [eq]
      exact h.own w
  minutes := by
    intro w
    rw [h.update_candle]
    rcases advance_cases w.minutes (s.candle w) tick with ⟨-, eq⟩ | eq
    · rw [eq]
      rfl
    · rw [eq]
      exact h.minutes w

theorem Of.first (tick : Tick K) : (zero.update tick).1.Of tick.ticker where
  active15m := rfl
  active1h := rfl
  own := by
    intro w
    cases w <;> rfl
  minutes := by
    intro w
    cases w <;> rfl

/-- What a tick emits was in progress before it. -/
theorem Of.mem_update (h : s.Of ticker) {c : Candle K} (mem : c ∈ (s.update tick).2) :
    ∃ w, c = s.candle w ∧ c.closeTimeMs < ((s.update tick).1.candle w).closeTimeMs := by
  rw [h.update_emitted] at mem
  rcases List.mem_append.1 mem with quarter | hour
  · refine ⟨.quarter, mem_advance quarter, ?_⟩
    rw [h.update_candle]
    exact lt_of_mem_advance (windowMs_pos .quarter) quarter
  · refine ⟨.hour, mem_advance hour, ?_⟩
    rw [h.update_candle]
    exact lt_of_mem_advance (windowMs_pos .hour) hour

theorem Of.update_nodup (h : s.Of ticker) : ((s.update tick).2.map Candle.key).Nodup := by
  have single : ∀ w : Window, ((advance w.minutes true (s.candle w) tick).2.map Candle.key).Nodup := by
    intro w
    rcases advance_cases w.minutes (s.candle w) tick with ⟨-, eq⟩ | eq
    · rw [eq]
      exact List.nodup_singleton _
    · rw [eq]
      exact List.nodup_nil
  rw [h.update_emitted, List.map_append, List.nodup_append']
  refine ⟨single .quarter, single .hour, ?_⟩
  intro k quarter hour
  obtain ⟨c, mem, rfl⟩ := List.mem_map.1 quarter
  obtain ⟨c', mem', eq⟩ := List.mem_map.1 hour
  -- the window lengths differ
  have minutes : c'.windowMinutes = c.windowMinutes := congrArg (fun k => k.2.1) eq
  rw [mem_advance mem, mem_advance mem', h.minutes, h.minutes] at minutes
  cases minutes

end SwingTickerState

namespace Identified

variable {p : SwingPath K} {emitted : List (Candle K)} {tick : Tick K}

omit [AddCommGroup K] [LinearOrder K] in
theorem zero : Identified (SwingPath.zero : SwingPath K) [] where
  inProgress := by
    rintro ticker s ⟨⟩
  earlier := by simp
  nodup := List.nodup_nil

/-- The first tick of a ticker emits nothing. -/
theorem created (h : Identified p emitted) (absent : p.registry tick.ticker = none) (acquired : ℕ) :
    Identified ⟨Function.update p.registry tick.ticker (some (SwingTickerState.zero.update tick).1),
      acquired⟩ emitted where
  inProgress := by
    intro ticker s found
    by_cases own : ticker = tick.ticker
    · subst own
      simp only [Function.update_self, Option.some.injEq] at found
      rw [← found]
      exact .first tick
    · simp only [Function.update_of_ne own] at found
      exact h.inProgress ticker s found
  earlier := by
    intro c mem
    obtain ⟨s, w, found, rest⟩ := h.earlier c mem
    have own : c.ticker ≠ tick.ticker := by
      intro own
      rw [own, absent] at found
      cases found
    exact ⟨s, w, (Function.update_of_ne own ..).trans found, rest⟩
  nodup := h.nodup

/-- A later tick emits candles that are still in progress, hence none of the emitted ones. -/
theorem found (h : Identified p emitted) {s : SwingTickerState K}
    (found : p.registry tick.ticker = some s) :
    Identified { p with registry := Function.update p.registry tick.ticker (some (s.update tick).1) }
      (emitted ++ (s.update tick).2) where
  inProgress := by
    intro ticker s' found'
    by_cases own : ticker = tick.ticker
    · subst own
      simp only [Function.update_self, Option.some.injEq] at found'
      rw [← found']
      exact (h.inProgress _ s found).update
    · simp only [Function.update_of_ne own] at found'
      exact h.inProgress ticker s' found'
  earlier := by
    have state := h.inProgress _ s found
    intro c mem
    rcases List.mem_append.1 mem with old | new
    · obtain ⟨s', w, found', minutes, before⟩ := h.earlier c old
      by_cases own : c.ticker = tick.ticker
      · rw [own, found] at found'
        cases found'
        refine ⟨(s.update tick).1, w, by simp only [own, Function.update_self], minutes, before.trans_le ?_⟩
        rw [state.update_candle]
        exact closeTimeMs_le_advance (windowMs_pos w) ..
      · exact ⟨s', w, (Function.update_of_ne own ..).trans found', minutes, before⟩
    · obtain ⟨w, rfl, before⟩ := state.mem_update new
      exact ⟨(s.update tick).1, w, by simp only [state.own, Function.update_self], state.minutes w, before⟩
  nodup := by
    have state := h.inProgress _ s found
    rw [List.map_append, List.nodup_append']
    refine ⟨h.nodup, state.update_nodup, ?_⟩
    intro k old new
    obtain ⟨c, mem, rfl⟩ := List.mem_map.1 old
    obtain ⟨c', mem', eq⟩ := List.mem_map.1 new
    obtain ⟨w, rfl, -⟩ := state.mem_update mem'
    simp only [Candle.key, Prod.mk.injEq, state.own, state.minutes] at eq
    obtain ⟨own, minutes, close⟩ := eq
    obtain ⟨s', w', found', minutes', before⟩ := h.earlier c mem
    rw [← own, found] at found'
    cases found'
    -- the candle in progress closes later than the emitted one of its window
    obtain rfl : w = w' := by
      have same := minutes.trans minutes'
      cases w <;> cases w' <;> first | rfl | cases same
    omega

/-- **A tick keeps the candles apart.** -/
theorem updateSwingState (h : Identified p emitted) (tick : Tick K) :
    Identified (p.updateSwingState tick).1
      (emitted ++ (p.updateSwingState tick).2.map AggregatorSignal.candle) := by
  have candles : ∀ l : List (Candle K), (l.map emitSwingCandle).map AggregatorSignal.candle = l := by
    intro l
    rw [List.map_map]
    exact List.map_id _
  cases present : p.registry tick.ticker with
  | some s =>
    rw [SwingPath.updateSwingState_found present, candles]
    exact h.found present
  | none =>
    by_cases room : p.acquired < kStatePoolSize
    · rw [SwingPath.updateSwingState_created present room, candles]
      have none_emitted : (SwingTickerState.zero.update tick : SwingTickerState K × _).2 = [] := rfl
      rw [none_emitted, List.append_nil]
      exact h.created present _
    · rw [SwingPath.updateSwingState_dropped present room, List.map_nil, List.append_nil]
      exact h

/-- The candles of a run are apart. -/
theorem run (ticks : List (Tick K)) :
    Identified (SwingPath.run ticks).1 ((SwingPath.run ticks).2.map AggregatorSignal.candle) := by
  induction ticks using List.reverseRecOn with
  | nil => exact .zero
  | append_singleton ticks tick ih =>
    rw [SwingPath.run_snoc, List.map_append]
    exact ih.updateSwingState tick

omit [AddCommGroup K] [LinearOrder K] in
/-- Emitted candles with the same key are the same. -/
theorem unique (h : Identified p emitted) {c c' : Candle K} (mem : c ∈ emitted) (mem' : c' ∈ emitted)
    (same : c.key = c'.key) : c = c' := List.inj_on_of_nodup_map h.nodup mem mem' same

end Identified

end StockAnomaly.Aggregation

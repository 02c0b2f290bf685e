import Mathlib.Data.List.Forall2
import Mathlib.Data.Rat.Init
import Mathlib.Algebra.Order.Ring.Rat
import StockAnomaly.Aggregation.Swing
import StockAnomaly.Theory.Bar
import StockAnomaly.Theory.Grouping

/-!
# Candles partition the ticks

The emitted candles of one window, followed by the candle in progress, are the summaries
of consecutive blocks of the ticks in arrival order: **`candles_partition_ticks`**. The
invariant `Segmented` holds the blocks; a tick either extends the last block or, at or past
the close of the candle in progress, starts the next one. No order of the timestamps is
assumed; when they do not decrease, the blocks are the groups of equal window number.
-/

namespace StockAnomaly.Aggregation

open StockAnomaly.Theory

variable {K : Type*} [AddCommGroup K] [LinearOrder K]

def Tick.bar (t : Tick K) : Bar K := Bar.unit t.price t.volume

def Candle.bar (c : Candle K) : Bar K := ⟨c.open, c.high, c.low, c.close, c.volume, c.tickCount⟩

/-- The prices, volume and count of `c` are those of the ticks of `block`. -/
structure Candle.Summarizes (c : Candle K) (block : List (Tick K)) : Prop where
  open_first : block.head?.map Tick.price = some c.open
  high_max : (block.map Tick.price).maximum = c.high
  low_min : (block.map Tick.price).minimum = c.low
  close_last : block.getLast?.map Tick.price = some c.close
  volume_sum : (block.map Tick.volume).sum = c.volume
  tickCount : c.tickCount = block.length

/-- `c` is the candle of `block` in a window of `windowMin` minutes. -/
structure Candle.Covers (windowMin : ℤ) (c : Candle K) (block : List (Tick K)) : Prop where
  summary : c.Summarizes block
  minutes : c.windowMinutes = windowMin
  window : c.closeTimeMs = c.openTimeMs + windowMs windowMin
  aligned : windowMs windowMin ∣ c.closeTimeMs
  first_mem : ∀ t ∈ block.head?, c.openTimeMs ≤ t.timestampMs ∧ t.timestampMs < c.closeTimeMs
  before_close : ∀ t ∈ block, t.timestampMs < c.closeTimeMs

namespace Candle

omit [AddCommGroup K] [LinearOrder K] in
theorem bar_reset (tick : Tick K) (windowMin : ℤ) : (reset tick windowMin).bar = Bar.unit tick.price tick.volume :=
  rfl

theorem bar_update (c : Candle K) (tick : Tick K) : (c.update tick).bar = c.bar.append tick.bar := by
  have high : (if c.high < tick.price then tick.price else c.high) = max c.high tick.price := by
    grind
  have low : (if tick.price < c.low then tick.price else c.low) = min c.low tick.price := by
    grind
  simp [bar, update, Bar.append, Tick.bar, Bar.unit, high, low]

/-- A summary is a merge of one-tick bars. -/
theorem summarizes_iff {c : Candle K} {block : List (Tick K)} :
    c.Summarizes block ↔ IsMerge c.bar (block.map Tick.bar) := by
  have count : ((block.map Tick.bar).map Bar.count).sum = block.length := by
    rw [List.map_map, show Bar.count ∘ Tick.bar = fun _ : Tick K => 1 from rfl]
    simp
  constructor
  · intro h
    constructor
    · simpa [Tick.bar, Bar.unit, bar, Function.comp_def] using h.open_first
    · simpa [Tick.bar, Bar.unit, bar, Function.comp_def] using h.high_max
    · simpa [Tick.bar, Bar.unit, bar, Function.comp_def] using h.low_min
    · simpa [Tick.bar, Bar.unit, bar, Function.comp_def] using h.close_last
    · simpa [Tick.bar, Bar.unit, bar, Function.comp_def] using h.volume_sum
    · exact count.trans h.tickCount.symm
  · intro h
    constructor
    · simpa [Tick.bar, Bar.unit, bar, Function.comp_def] using h.first
    · simpa [Tick.bar, Bar.unit, bar, Function.comp_def] using h.high
    · simpa [Tick.bar, Bar.unit, bar, Function.comp_def] using h.low
    · simpa [Tick.bar, Bar.unit, bar, Function.comp_def] using h.last
    · simpa [Tick.bar, Bar.unit, bar, Function.comp_def] using h.volume
    · exact h.count.symm.trans count

end Candle

section Window

theorem windowMs_pos (w : Window) : 0 < windowMs w.minutes := by cases w <;> decide

theorem windowStart_le {windowMin t : ℤ} (pos : 0 < windowMs windowMin) (nonneg : 0 ≤ t) :
    windowStart windowMin t ≤ t := by
  rw [windowStart, Int.tdiv_eq_ediv_of_nonneg nonneg]
  exact Int.ediv_mul_le _ pos.ne'

/-- A tick closes no later than its own window, also before the epoch. -/
theorem lt_windowStart_add {windowMin t : ℤ} (pos : 0 < windowMs windowMin) :
    t < windowStart windowMin t + windowMs windowMin := by
  have split := Int.tdiv_mul_add_tmod t (windowMs windowMin)
  have rest := Int.tmod_lt_of_pos t pos
  rw [windowStart]
  omega

theorem windowMs_dvd_windowStart (windowMin t : ℤ) : windowMs windowMin ∣ windowStart windowMin t :=
  Dvd.intro_left _ rfl

end Window

theorem Candle.covers_reset {windowMin : ℤ} {tick : Tick K} (pos : 0 < windowMs windowMin)
    (nonneg : 0 ≤ tick.timestampMs) : (reset tick windowMin).Covers windowMin [tick] where
  summary := summarizes_iff.2 (IsMerge.single _)
  minutes := rfl
  window := rfl
  aligned := Int.dvd_add (windowMs_dvd_windowStart _ _) dvd_rfl
  first_mem := by
    rintro t ⟨⟩
    exact ⟨windowStart_le pos nonneg, lt_windowStart_add pos⟩
  before_close := by
    rintro t mem
    rw [List.mem_singleton.1 mem]
    exact lt_windowStart_add pos

theorem Candle.Covers.update {windowMin : ℤ} {c : Candle K} {block : List (Tick K)} {tick : Tick K}
    (h : c.Covers windowMin block) (early : tick.timestampMs < c.closeTimeMs) :
    (c.update tick).Covers windowMin (block ++ [tick]) where
  summary := by
    rw [summarizes_iff, bar_update, List.map_append]
    exact (summarizes_iff.1 h.summary).concat _
  minutes := h.minutes
  window := h.window
  aligned := h.aligned
  first_mem := by
    have some_tick : block ≠ [] := by
      rintro rfl
      cases h.summary.open_first
    rw [List.head?_append_of_ne_nil _ some_tick]
    exact h.first_mem
  before_close := by
    intro t mem
    rcases List.mem_append.1 mem with old | new
    · exact h.before_close t old
    · rw [List.mem_singleton.1 new]
      exact early

/-- In a block of ticks in time order every tick is in the window of its candle. -/
theorem Candle.Covers.mem_window {windowMin : ℤ} {c : Candle K} {block : List (Tick K)}
    (covers : c.Covers windowMin block) (sorted : block.Pairwise fun a b => a.timestampMs ≤ b.timestampMs)
    {t : Tick K} (mem : t ∈ block) : c.openTimeMs ≤ t.timestampMs ∧ t.timestampMs < c.closeTimeMs := by
  refine ⟨?_, covers.before_close t mem⟩
  cases block with
  | nil => cases mem
  | cons first block =>
    have opening := (covers.first_mem first rfl).1
    rcases List.mem_cons.1 mem with rfl | later
    · exact opening
    · exact opening.trans ((List.pairwise_cons.1 sorted).1 t later)

/-- The blocks behind one window's candles: `closed` behind the emitted ones, `current`
behind the one in progress. -/
structure Segmented (windowMin : ℤ) (ticks : List (Tick K)) (emitted : List (Candle K)) (candle : Candle K)
    (closed : List (List (Tick K))) (current : List (Tick K)) : Prop where
  arrival : closed.flatten ++ current = ticks
  covered : List.Forall₂ (Candle.Covers windowMin) emitted closed
  inProgress : candle.Covers windowMin current
  increasing : ((emitted ++ [candle]).map Candle.closeTimeMs).Pairwise (· < ·)

namespace Segmented

variable {windowMin : ℤ} {ticks : List (Tick K)} {emitted : List (Candle K)} {candle : Candle K}
  {closed : List (List (Tick K))} {current : List (Tick K)} {tick : Tick K}

/-- The first tick opens the first candle. -/
theorem start (pos : 0 < windowMs windowMin) (nonneg : 0 ≤ tick.timestampMs) :
    Segmented windowMin [tick] [] (Candle.reset tick windowMin) [] [tick] where
  arrival := rfl
  covered := List.Forall₂.nil
  inProgress := Candle.covers_reset pos nonneg
  increasing := List.pairwise_singleton ..

/-- A tick at or past the close starts the next block. -/
theorem expire (h : Segmented windowMin ticks emitted candle closed current)
    (pos : 0 < windowMs windowMin) (nonneg : 0 ≤ tick.timestampMs)
    (late : candle.closeTimeMs ≤ tick.timestampMs) :
    Segmented windowMin (ticks ++ [tick]) (emitted ++ [candle]) (Candle.reset tick windowMin)
      (closed ++ [current]) [tick] where
  arrival := by rw [List.flatten_append, List.flatten_singleton, h.arrival]
  covered := List.rel_append h.covered (List.Forall₂.cons h.inProgress List.Forall₂.nil)
  inProgress := Candle.covers_reset pos nonneg
  increasing := by
    rw [List.map_append, List.pairwise_append]
    refine ⟨h.increasing, List.pairwise_singleton .., ?_⟩
    intro a before b new
    have next : tick.timestampMs < (Candle.reset tick windowMin).closeTimeMs :=
      lt_windowStart_add pos
    have upto : a ≤ candle.closeTimeMs := by
      have increasing := h.increasing
      rw [List.map_append, List.pairwise_append] at increasing
      rw [List.map_append, List.mem_append] at before
      cases before with
      | inl old => exact (increasing.2.2 a old _ (List.mem_singleton_self _)).le
      | inr last => exact (List.mem_singleton.1 last).le
    rw [List.mem_singleton.1 new]
    omega

/-- Any other tick joins the current block. -/
theorem join (h : Segmented windowMin ticks emitted candle closed current)
    (early : tick.timestampMs < candle.closeTimeMs) :
    Segmented windowMin (ticks ++ [tick]) emitted (candle.update tick) closed (current ++ [tick]) where
  arrival := by rw [← List.append_assoc, h.arrival]
  covered := h.covered
  inProgress := h.inProgress.update early
  increasing := by
    have increasing := h.increasing
    rw [List.map_append] at increasing ⊢
    exact increasing

/-- One window of one call of `update_swing_state`. -/
theorem advance (h : Segmented windowMin ticks emitted candle closed current)
    (pos : 0 < windowMs windowMin) (nonneg : 0 ≤ tick.timestampMs) :
    ∃ closed current, Segmented windowMin (ticks ++ [tick])
      (emitted ++ (advance windowMin true candle tick).2) (advance windowMin true candle tick).1
      closed current := by
  cases late : candle.isExpired tick.timestampMs with
  | true =>
    simp only [Aggregation.advance, late, Bool.not_true, Bool.false_eq_true, if_false, if_true]
    exact ⟨_, _, h.expire pos nonneg (of_decide_eq_true late)⟩
  | false =>
    simp only [Aggregation.advance, late, Bool.not_true, Bool.false_eq_true, if_false, List.append_nil]
    exact ⟨_, _, h.join (not_le.1 (of_decide_eq_false late))⟩

end Segmented

theorem mem_advance {windowMin : ℤ} {active : Bool} {candle c : Candle K} {tick : Tick K}
    (mem : c ∈ (advance windowMin active candle tick).2) : c = candle := by
  unfold advance at mem
  split at mem
  · cases mem
  · split at mem
    · exact List.mem_singleton.1 mem
    · cases mem

namespace SwingTickerState

/-- Each window emits its own candles. -/
theorem update_filter {s : SwingTickerState K} {tick : Tick K} (w : Window)
    (active : s.active15m = true ∧ s.active1h = true)
    (minutes : ∀ w, (s.candle w).windowMinutes = w.minutes) :
    (s.update tick).2.filter (·.windowMinutes = w.minutes) =
      (advance w.minutes true (s.candle w) tick).2 := by
  have own : ∀ w : Window, ∀ c ∈ (advance w.minutes true (s.candle w) tick).2,
      c.windowMinutes = w.minutes := by
    intro w c mem
    rw [mem_advance mem, minutes w]
  have keep : ∀ w : Window, (advance w.minutes true (s.candle w) tick).2.filter
      (·.windowMinutes = w.minutes) = (advance w.minutes true (s.candle w) tick).2 :=
    fun w => List.filter_eq_self.2 fun c mem => decide_eq_true (own w c mem)
  have drop : ∀ w v : Window, v ≠ w → (advance v.minutes true (s.candle v) tick).2.filter
      (·.windowMinutes = w.minutes) = [] := by
    intro w v other
    refine List.filter_eq_nil_iff.2 fun c mem eq => other ?_
    have same := (own v c mem).symm.trans (of_decide_eq_true eq)
    cases v <;> cases w <;> first | rfl | cases same
  have emitted : (s.update tick).2 =
      (advance Window.quarter.minutes true (s.candle .quarter) tick).2 ++
        (advance Window.hour.minutes true (s.candle .hour) tick).2 := by
    simp only [update, active.1, active.2]
    rfl
  rw [emitted, List.filter_append]
  cases w with
  | quarter => rw [keep, drop _ _ (by decide), List.append_nil]
  | hour => rw [keep, drop _ _ (by decide), List.nil_append]

/-- The blocks of both windows after the ticks of one ticker. -/
theorem run_segmented {ticks : List (Tick K)} (some_tick : ticks ≠ [])
    (nonneg : ∀ t ∈ ticks, 0 ≤ t.timestampMs) (w : Window) :
    ∃ closed current, Segmented w.minutes ticks
      ((run ticks).2.filter (·.windowMinutes = w.minutes)) ((run ticks).1.candle w) closed current := by
  induction ticks using List.reverseRecOn generalizing w with
  | nil => exact absurd rfl some_tick
  | append_singleton ticks tick ih =>
    have now : 0 ≤ tick.timestampMs := nonneg tick (by simp)
    rw [run_snoc]
    by_cases first : ticks = []
    · subst first
      refine ⟨[], [tick], ?_⟩
      have start := Segmented.start (windowMs_pos w) now
      cases w <;> exact start
    · have before := ih first fun t mem => nonneg t (by simp [mem])
      have active : (run ticks).1.active15m = true ∧ (run ticks).1.active1h = true := by
        simp [run_active, first]
      have minutes : ∀ w, ((run ticks).1.candle w).windowMinutes = w.minutes := by
        intro w
        obtain ⟨closed, current, inv⟩ := before w
        exact inv.inProgress.minutes
      obtain ⟨closed, current, inv⟩ := before w
      have next := inv.advance (windowMs_pos w) now
      rw [List.filter_append, update_filter w active minutes]
      have candle : ((run ticks).1.update tick).1.candle w =
          (advance w.minutes true ((run ticks).1.candle w) tick).1 := by
        cases w <;> simp [update, SwingTickerState.candle, Window.minutes, active]
      rw [candle]
      exact next

end SwingTickerState

namespace Segmented

variable {windowMin : ℤ} {ticks : List (Tick K)} {emitted : List (Candle K)} {candle : Candle K}
  {closed : List (List (Tick K))} {current : List (Tick K)} {tick : Tick K}

/-- The number of the window a timestamp falls into. -/
def windowNumber (windowMin : ℤ) (t : Tick K) : ℤ := t.timestampMs / windowMs windowMin

/-- In a block of ticks in time order every tick is in the window of the first. -/
theorem windowNumber_eq {c : Candle K} {block : List (Tick K)}
    (covers : c.Covers windowMin block) (pos : 0 < windowMs windowMin)
    (sorted : block.Pairwise fun a b => a.timestampMs ≤ b.timestampMs) {t : Tick K} (mem : t ∈ block) :
    windowNumber windowMin t = c.closeTimeMs / windowMs windowMin - 1 := by
  obtain ⟨after, before⟩ := covers.mem_window sorted mem
  obtain ⟨n, close⟩ := covers.aligned
  have window := covers.window
  rw [close] at window before
  rw [close, Int.mul_ediv_cancel_left _ pos.ne', windowNumber, Int.ediv_eq_iff_of_pos pos]
  rw [sub_one_mul, mul_comm n]
  constructor <;> omega

/-- The emitted candles and the one in progress, each with its block. -/
theorem covers (h : Segmented windowMin ticks emitted candle closed current) :
    List.Forall₂ (Candle.Covers windowMin) (emitted ++ [candle]) (closed ++ [current]) :=
  List.rel_append h.covered (List.Forall₂.cons h.inProgress List.Forall₂.nil)

theorem flatten_blocks (h : Segmented windowMin ticks emitted candle closed current) :
    (closed ++ [current]).flatten = ticks := by
  rw [List.flatten_append, List.flatten_singleton, h.arrival]

/-- Different candles have different window numbers. -/
theorem numbers_nodup (h : Segmented windowMin ticks emitted candle closed current)
    (pos : 0 < windowMs windowMin) :
    ((emitted ++ [candle]).map fun c => c.closeTimeMs / windowMs windowMin - 1).Nodup := by
  have aligned : ∀ c ∈ emitted ++ [candle], windowMs windowMin ∣ c.closeTimeMs :=
    ((List.forall₂_and_left _ _).1 (h.covers.imp fun c _ covers => ⟨covers.aligned, covers⟩)).1
  have increasing := List.pairwise_map.1 h.increasing
  refine List.pairwise_map.2 (increasing.imp_of_mem ?_)
  intro c c' mem mem' lt eq
  obtain ⟨n, close⟩ := aligned c mem
  obtain ⟨n', close'⟩ := aligned c' mem'
  rw [close, close', Int.mul_ediv_cancel_left _ pos.ne', Int.mul_ediv_cancel_left _ pos.ne'] at eq
  obtain rfl : n = n' := by omega
  omega

/-- Blocks of ticks in time order are the groups of equal window number. -/
theorem blocks_eq_groups (h : Segmented windowMin ticks emitted candle closed current)
    (pos : 0 < windowMs windowMin)
    (sorted : ticks.Pairwise fun a b => a.timestampMs ≤ b.timestampMs) :
    closed ++ [current] = groups (windowNumber windowMin) ticks := by
  have arrival := h.flatten_blocks
  rw [← arrival] at sorted ⊢
  refine eq_groups (h.numbers_nodup pos) (List.forall₂_map_left_iff.2 ?_)
  have block_sorted := (List.pairwise_flatten.1 sorted).1
  have both := (List.forall₂_and_left _ _).2 ⟨block_sorted, h.covers.flip⟩
  refine (both.imp fun block c ⟨block_sorted, covers⟩ => ?_).flip
  constructor
  · rintro rfl
    cases covers.summary.open_first
  · intro t mem
    exact windowNumber_eq covers pos block_sorted mem

end Segmented

/-- The candles of one window among the emitted signals. -/
def emittedCandles (w : Window) (signals : List (AggregatorSignal K)) : List (Candle K) :=
  (signals.map AggregatorSignal.candle).filter (·.windowMinutes = w.minutes)

/-- The candle of one window that is in progress for a ticker, if any. -/
def candleInProgress (w : Window) (p : SwingPath K) (ticker : Ticker) : List (Candle K) :=
  ((p.registry ticker).map (·.candle w)).toList

theorem emittedCandles_run (w : Window) {ticker : Ticker} {ticks : List (Tick K)}
    (own : ∀ t ∈ ticks, t.ticker = ticker) : emittedCandles w (SwingPath.run ticks).2 =
      (SwingTickerState.run ticks).2.filter (·.windowMinutes = w.minutes) := by
  rw [emittedCandles, (SwingPath.run_single own).2, List.map_map]
  exact congrArg _ (List.map_id _)

/-- **Aggregation loses and double-counts nothing.** In any timestamp order, the emitted
candles of a window and the one in progress are the summaries of consecutive blocks of the
ticks; in time order the blocks are the groups of ticks with equal `⌊t / window⌋`. -/
theorem candles_partition_ticks (w : Window) (ticker : Ticker) (ticks : List (Tick K))
    (own : ∀ t ∈ ticks, t.ticker = ticker) (nonneg : ∀ t ∈ ticks, 0 ≤ t.timestampMs) :
    ∃ blocks : List (List (Tick K)), blocks.flatten = ticks ∧
      List.Forall₂ (Candle.Covers w.minutes)
        (emittedCandles w (SwingPath.run ticks).2 ++ candleInProgress w (SwingPath.run ticks).1 ticker)
        blocks ∧
      ((emittedCandles w (SwingPath.run ticks).2 ++
        candleInProgress w (SwingPath.run ticks).1 ticker).map Candle.closeTimeMs).Pairwise (· < ·) ∧
      ((ticks.Pairwise fun a b => a.timestampMs ≤ b.timestampMs) →
        blocks = groups (fun t => t.timestampMs / windowMs w.minutes) ticks) := by
  rw [emittedCandles_run w own, candleInProgress, (SwingPath.run_single own).1]
  by_cases empty : ticks = []
  · subst empty
    exact ⟨[], rfl, List.Forall₂.nil, List.Pairwise.nil, fun _ => rfl⟩
  · obtain ⟨closed, current, inv⟩ := SwingTickerState.run_segmented empty nonneg w
    rw [if_neg empty]
    exact ⟨closed ++ [current], inv.flatten_blocks, inv.covers, inv.increasing,
      inv.blocks_eq_groups (windowMs_pos w)⟩

/-- Two ticks in the first quarter, a late one at its close, and an early one after that. -/
theorem candles_partition_ticks_four :
    ∃ blocks : List (List (Tick ℚ)), blocks.flatten = [⟨"A", 5, 1, 0⟩, ⟨"A", 7, 1, 899999⟩,
        ⟨"A", 6, 2, 900000⟩, ⟨"A", 4, 1, 1000⟩] ∧ blocks.length = 2 := by
  obtain ⟨blocks, arrival, covers, -⟩ := candles_partition_ticks (K := ℚ) .quarter "A"
    [⟨"A", 5, 1, 0⟩, ⟨"A", 7, 1, 899999⟩, ⟨"A", 6, 2, 900000⟩, ⟨"A", 4, 1, 1000⟩] (by decide +kernel)
    (by decide +kernel)
  exact ⟨blocks, arrival, by rw [← covers.length_eq]; decide +kernel⟩

end StockAnomaly.Aggregation

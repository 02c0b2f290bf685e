import Mathlib.Algebra.Order.BigOperators.Group.List
import StockAnomaly.Engine.MarketFeed

/-!
# Candle volume and traded volume

The volume of a tick is `ACML_VOL`, what was traded since the morning, and a candle adds up
the volumes of its ticks. What was traded in its window is the difference of two of them, so
the candle is right only when nothing had been traded before its last tick:
**`traded_iff`**.
-/

namespace StockAnomaly.Engine

open StockAnomaly.Theory StockAnomaly.Aggregation

variable {K : Type*}

/-- The ticks in the window of a candle. -/
def windowTicks (c : Candle K) (ticks : List (Tick K)) : List (Tick K) :=
  ticks.filter fun t => c.openTimeMs ≤ t.timestampMs ∧ t.timestampMs < c.closeTimeMs

/-- The ticks before the window of a candle. -/
def ticksBefore (c : Candle K) (ticks : List (Tick K)) : List (Tick K) :=
  ticks.filter fun t => t.timestampMs < c.openTimeMs

/-- The volume of the candle is the accumulated volume of its last tick less that of the
last tick before its window. -/
def IsTraded [Sub K] (ticks : List (Tick K)) (c : Candle K) : Prop :=
  ∃ last ∈ (windowTicks c ticks).getLast?, ∃ previous ∈ (ticksBefore c ticks).getLast?,
    c.volume = last.volume - previous.volume

/-- Before the last tick of the candle nothing had been traded on that day. -/
def NothingBefore [Zero K] (ticks : List (Tick K)) (c : Candle K) : Prop :=
  ∀ t ∈ ticksBefore c ticks ++ (windowTicks c ticks).dropLast, t.volume = 0

section Blocks

variable [AddCommGroup K] [LinearOrder K] {windowMin : ℤ}

/-- Aligned windows of one length that close one after the other do not overlap. -/
theorem close_le_open {c c' : Candle K} {block block' : List (Tick K)} (pos : 0 < windowMs windowMin)
    (covers : c.Covers windowMin block) (covers' : c'.Covers windowMin block')
    (later : c.closeTimeMs < c'.closeTimeMs) : c.closeTimeMs ≤ c'.openTimeMs := by
  obtain ⟨n, close⟩ := covers.aligned
  obtain ⟨n', close'⟩ := covers'.aligned
  have window' := covers'.window
  have lt : n < n' := by
    rw [close, close'] at later
    exact lt_of_mul_lt_mul_left later pos.le
  have step : windowMs windowMin * (n + 1) ≤ windowMs windowMin * n' := by
    exact mul_le_mul_of_nonneg_left lt pos.le
  rw [mul_add, mul_one] at step
  rw [close]
  rw [close'] at window'
  omega

variable {ticks : List (Tick K)} {emitted : List (Candle K)} {candle : Candle K}
  {closed : List (List (Tick K))} {current : List (Tick K)}

/-- The ticks around an emitted candle: before its window, its own, and from its close on. -/
theorem ticks_around (h : Segmented windowMin ticks emitted candle closed current) (pos : 0 < windowMs windowMin)
    (sorted : ticks.Pairwise fun a b => a.timestampMs ≤ b.timestampMs) {earlier later : List (Candle K)}
    {c : Candle K} (split : emitted = earlier ++ c :: later) :
    ∃ front block back, ticks = front ++ block ++ back ∧ c.Covers windowMin block ∧
      (∀ t ∈ front, t.timestampMs < c.openTimeMs) ∧
      (∀ t ∈ block, c.openTimeMs ≤ t.timestampMs ∧ t.timestampMs < c.closeTimeMs) ∧
      (∀ t ∈ back, c.closeTimeMs ≤ t.timestampMs) ∧ (earlier ≠ [] → front ≠ []) := by
  have covered := h.covered
  have increasing := h.increasing
  rw [split] at covered increasing
  obtain ⟨front, block, back, rfl, before, covers, after⟩ := forall₂_split covered
  rw [List.append_assoc, List.cons_append, List.map_append, List.map_cons, List.pairwise_append,
    List.pairwise_cons] at increasing
  obtain ⟨-, ⟨closes_before, -⟩, closes_after⟩ := increasing
  have block_sorted : ∀ b ∈ front ++ block :: back ++ [current],
      b.Pairwise fun a b => a.timestampMs ≤ b.timestampMs := by
    rw [← h.flatten_blocks, List.pairwise_flatten] at sorted
    exact sorted.1
  refine ⟨front.flatten, block, back.flatten ++ current, ?_, covers, ?_, ?_, ?_, ?_⟩
  · rw [← h.arrival, List.flatten_append, List.flatten_cons]
    simp only [List.append_assoc]
  · intro t mem
    obtain ⟨b, in_front, in_b⟩ := List.mem_flatten.1 mem
    obtain ⟨c', mem', covers'⟩ := forall₂_mem_right before in_front
    have lt := closes_after _ (List.mem_map_of_mem mem') c.closeTimeMs (by simp)
    exact (covers'.before_close t in_b).trans_le (close_le_open pos covers' covers lt)
  · intro t mem
    exact covers.mem_window (block_sorted block (by simp)) mem
  · have following : List.Forall₂ (Candle.Covers windowMin) (later ++ [candle]) (back ++ [current]) :=
      List.rel_append after (List.Forall₂.cons h.inProgress List.Forall₂.nil)
    intro t mem
    have mem : t ∈ (back ++ [current]).flatten := by simpa using mem
    obtain ⟨b, in_back, in_b⟩ := List.mem_flatten.1 mem
    obtain ⟨c', mem', covers'⟩ := forall₂_mem_right following in_back
    have lt := closes_before c'.closeTimeMs (List.mem_map_of_mem mem')
    have opening := (covers'.mem_window (block_sorted b (by simp at in_back ⊢; tauto)) in_b).1
    exact (close_le_open pos covers covers' lt).trans opening
  · intro some_earlier
    cases before with
    | nil => exact absurd rfl some_earlier
    | @cons c' b es bs here rest =>
      intro empty
      have opening := here.summary.open_first
      simp only [List.flatten_cons, List.append_eq_nil_iff] at empty
      rw [empty.1] at opening
      cases opening

/-- The block of an emitted candle is what came in its window. -/
theorem windowTicks_eq (h : Segmented windowMin ticks emitted candle closed current) (pos : 0 < windowMs windowMin)
    (sorted : ticks.Pairwise fun a b => a.timestampMs ≤ b.timestampMs) {earlier later : List (Candle K)}
    {c : Candle K} (split : emitted = earlier ++ c :: later) :
    ∃ block after, ticks = ticksBefore c ticks ++ block ++ after ∧ windowTicks c ticks = block ∧
      c.Covers windowMin block ∧ (earlier ≠ [] → ticksBefore c ticks ≠ []) := by
  obtain ⟨front, block, back, arrival, covers, left, middle, right, not_first⟩ := ticks_around h pos sorted split
  have window := covers.window
  have first_part : ticksBefore c ticks = front := by
    rw [ticksBefore, arrival, List.append_assoc]
    show ([] ++ front ++ (block ++ back)).filter _ = front
    apply filter_middle
    · nofun
    · intro t mem
      exact decide_eq_true (left t mem)
    · intro t mem
      apply decide_eq_false
      rcases List.mem_append.1 mem with mine | later
      · exact not_lt.2 (middle t mine).1
      · have from_close := right t later
        omega
  have middle_part : windowTicks c ticks = block := by
    rw [windowTicks, arrival]
    apply filter_middle
    · intro t mem
      have earlier := left t mem
      apply decide_eq_false
      omega
    · intro t mem
      exact decide_eq_true (middle t mem)
    · intro t mem
      have from_close := right t mem
      apply decide_eq_false
      omega
  rw [first_part]
  exact ⟨block, back, arrival, middle_part, covers, not_first⟩

end Blocks

section Volume

variable [AddCommGroup K] [LinearOrder K]

/-- Accumulated volumes: nothing negative, and never less than before. -/
structure Accumulated (ticks : List (Tick K)) : Prop where
  nonneg : ∀ t ∈ ticks, 0 ≤ t.volume
  rising : ticks.Pairwise fun a b => a.volume ≤ b.volume

/-- The ticks up to one with nothing accumulated have nothing accumulated. -/
theorem Accumulated.eq_zero {before : List (Tick K)} {previous : Tick K} (acc : Accumulated (before ++ [previous]))
    (zero : previous.volume = 0) : ∀ t ∈ before ++ [previous], t.volume = 0 := by
  intro t mem
  apply le_antisymm _ (acc.nonneg t mem)
  rcases List.mem_append.1 mem with earlier | last
  · rw [← zero]
    exact (List.pairwise_append.1 acc.rising).2.2 t earlier previous (List.mem_singleton_self _)
  · rw [List.mem_singleton.1 last, zero]

variable [IsOrderedAddMonoid K]

/-- A sum of accumulated volumes is a difference of two only if all but the last are zero. -/
theorem isTraded_iff {ticks after : List (Tick K)} {c : Candle K} {windowMin : ℤ} (acc : Accumulated ticks)
    (arrival : ticks = ticksBefore c ticks ++ windowTicks c ticks ++ after)
    (covers : c.Covers windowMin (windowTicks c ticks)) (not_first : ticksBefore c ticks ≠ []) :
    IsTraded ticks c ↔ NothingBefore ticks c := by
  have sum := covers.summary.volume_sum
  have opening := covers.summary.open_first
  unfold IsTraded NothingBefore
  generalize ticksBefore c ticks = before at *
  generalize windowTicks c ticks = block at *
  subst arrival
  cases before using List.reverseRecOn with
  | nil => exact absurd rfl not_first
  | append_singleton before previous =>
    cases block using List.reverseRecOn with
    | nil => cases opening
    | append_singleton block last =>
      have before_acc : Accumulated (before ++ [previous]) :=
        ⟨fun t mem => acc.nonneg t (by simp at mem ⊢; tauto),
          acc.rising.sublist ((List.sublist_append_left _ _).trans (List.sublist_append_left _ _))⟩
      have nonneg : ∀ v ∈ previous.volume :: block.map Tick.volume, 0 ≤ v := by
        intro v mem
        rcases List.mem_cons.1 mem with rfl | in_block
        · exact acc.nonneg previous (by simp)
        · obtain ⟨t, mine, rfl⟩ := List.mem_map.1 in_block
          exact acc.nonneg t (by simp [mine])
      rw [List.map_append, List.sum_append, List.map_singleton, List.sum_singleton] at sum
      have total : c.volume = last.volume - previous.volume ↔
          (previous.volume :: block.map Tick.volume).sum = 0 := by
        rw [← sum, List.sum_cons, eq_sub_iff_add_eq, add_right_comm, add_eq_right, add_comm]
      simp only [List.getLast?_append, List.getLast?_singleton, Option.some_or, Option.mem_some_iff,
        exists_eq_left', List.dropLast_concat, total]
      constructor
      · intro zero t mem
        have all_zero : ∀ v ∈ previous.volume :: block.map Tick.volume, v = 0 :=
          fun v => List.all_zero_of_le_zero_le_of_sum_eq_zero nonneg zero
        rcases List.mem_append.1 mem with earlier | mine
        · exact before_acc.eq_zero (all_zero previous.volume (by simp)) t earlier
        · exact all_zero t.volume (List.mem_cons_of_mem _ (List.mem_map_of_mem mine))
      · intro nothing
        apply List.sum_eq_zero
        intro v mem
        rcases List.mem_cons.1 mem with rfl | in_block
        · exact nothing previous (by simp)
        · obtain ⟨t, mine, rfl⟩ := List.mem_map.1 in_block
          exact nothing t (by simp [mine])

/-- **Candle volume is not traded volume**: a candle after the first one has the volume
traded in its window if and only if nothing had been traded on the day before its last tick. -/
theorem traded_iff (w : Window) (stod : String → Option K) {ticker : Ticker} {deliveries : List Delivery}
    (own : ∀ t ∈ marketTicks stod deliveries, t.ticker = ticker)
    (in_order : (marketTicks stod deliveries).Pairwise fun a b => a.timestampMs ≤ b.timestampMs)
    (acc : Accumulated (marketTicks stod deliveries)) :
    ∀ c ∈ (emittedCandles w (SwingPath.run (marketTicks stod deliveries)).2).tail,
      (IsTraded (marketTicks stod deliveries) c ↔ NothingBefore (marketTicks stod deliveries) c) := by
  intro c mem
  rw [emittedCandles_run w own] at mem
  have some_tick : marketTicks stod deliveries ≠ [] := by
    intro empty
    rw [empty] at mem
    cases mem
  obtain ⟨closed, current, inv⟩ := SwingTickerState.run_segmented some_tick timestampMs_nonneg w
  generalize (SwingTickerState.run (marketTicks stod deliveries)).2.filter (·.windowMinutes = w.minutes) = emitted
    at mem inv
  cases emitted with
  | nil => cases mem
  | cons first emitted =>
    obtain ⟨earlier, later, rfl⟩ := List.append_of_mem mem
    obtain ⟨block, after, arrival, window, covers, not_first⟩ :=
      windowTicks_eq inv (windowMs_pos w) in_order (List.cons_append (a := first)).symm
    subst window
    exact isTraded_iff acc arrival covers (not_first (List.cons_ne_nil _ _))

end Volume

/-- Trades at 100 shares in the first quarter, at 150 and 200 in the second, and one later. -/
def quarterTrades : List Delivery :=
  [⟨"PSa", samsungTrade "100", 0⟩, ⟨"PSa", samsungTrade "150", 900000⟩,
    ⟨"PSa", samsungTrade "200", 900001⟩, ⟨"PSa", samsungTrade "250", 1800000⟩]

theorem quarterTrades_ticks : marketTicks stodDigits quarterTrades =
    [⟨"005930", 71900, 100, 0⟩, ⟨"005930", 71900, 150, 900000⟩, ⟨"005930", 71900, 200, 900001⟩,
      ⟨"005930", 71900, 250, 1800000⟩] := by
  have volume : stodDigits "100" = some 100 ∧ stodDigits "150" = some 150 ∧ stodDigits "200" = some 200 ∧
      stodDigits "250" = some 250 := by decide +kernel
  simp [marketTicks, quarterTrades, tick_samsungTrade volume.1, tick_samsungTrade volume.2.1,
    tick_samsungTrade volume.2.2.1, tick_samsungTrade volume.2.2.2]

theorem quarterTrades_accumulated : Accumulated (marketTicks stodDigits quarterTrades) := by
  rw [quarterTrades_ticks]
  exact ⟨by decide +kernel, by decide +kernel⟩

/-- The candle of the second quarter. -/
def secondQuarter : Candle ℚ := ⟨"005930", 71900, 71900, 71900, 71900, 350, 900000, 1800000, 2, 15⟩

theorem secondQuarter_emitted :
    secondQuarter ∈ (emittedCandles .quarter (SwingPath.run (marketTicks stodDigits quarterTrades)).2).tail := by
  rw [quarterTrades_ticks]
  decide +kernel

theorem traded_iff_four : IsTraded (marketTicks stodDigits quarterTrades) secondQuarter ↔
    NothingBefore (marketTicks stodDigits quarterTrades) secondQuarter :=
  @traded_iff ℚ _ _ _ .quarter stodDigits "005930" quarterTrades (by rw [quarterTrades_ticks]; decide +kernel)
    (by rw [quarterTrades_ticks]; decide +kernel) quarterTrades_accumulated secondQuarter secondQuarter_emitted

/-- Of the second quarter's 100 shares its candle makes 350. -/
theorem candle_volume_inflated :
    ¬ ∀ (w : Window) (ticker : Ticker) (deliveries : List Delivery),
      (∀ t ∈ marketTicks stodDigits deliveries, t.ticker = ticker) →
      ((marketTicks stodDigits deliveries).Pairwise fun a b => a.timestampMs ≤ b.timestampMs) →
      Accumulated (marketTicks stodDigits deliveries) →
      ∀ c ∈ (emittedCandles w (SwingPath.run (marketTicks stodDigits deliveries)).2).tail,
        IsTraded (marketTicks stodDigits deliveries) c := by
  intro claim
  have second := claim .quarter "005930" quarterTrades (by rw [quarterTrades_ticks]; decide +kernel)
    (by rw [quarterTrades_ticks]; decide +kernel) quarterTrades_accumulated secondQuarter secondQuarter_emitted
  rw [quarterTrades_ticks] at second
  obtain ⟨last, in_window, previous, before, volume⟩ := second
  have in_window : some (⟨"005930", 71900, 200, 900001⟩ : Tick ℚ) = some last := in_window
  have before : some (⟨"005930", 71900, 100, 0⟩ : Tick ℚ) = some previous := before
  cases in_window
  cases before
  revert volume
  decide +kernel

end StockAnomaly.Engine

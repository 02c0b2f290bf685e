import StockAnomaly.Aggregation.ZScore
import StockAnomaly.Theory.Ring

/-!
# The trailing window of the rolling z-score

The ring buffer of `ZScoreCalculator` holds the last `Window` volumes, each at its number
modulo `Window`, and the running statistics are those of exactly these volumes
(`Tracks`). The bound on a z-score that follows from `push_sq_mul_le` is sharp: `k - 1`
equal volumes and one other reach it.
-/

namespace StockAnomaly.Aggregation.ZScoreCalculator

open StockAnomaly.Theory
open Finset

variable {K : Type*} [Field K] [LinearOrder K] {Window : ℕ}

/-- Back to the value-initialised calculator. -/
def reset (c : ZScoreCalculator K Window) : ZScoreCalculator K Window :=
  { c with mean := 0, m2 := 0, count := 0, buffer := fun _ => 0 }

/-- The calculator after the pushes of `values`, in this order. -/
def pushAll [NeZero Window] [Sqrt K] (c : ZScoreCalculator K Window) (values : List K) :
    ZScoreCalculator K Window :=
  values.foldl (fun c volume => (c.push volume).2) c

/-- The last `Window` of the values, or all of them if there are fewer. -/
def trailing (Window : ℕ) (values : List K) : List K :=
  values.drop (values.length - min values.length Window)

omit [Field K] [LinearOrder K] in
theorem trailing_of_le {values : List K} (few : values.length ≤ Window) :
    trailing Window values = values := by
  rw [trailing, min_eq_left few, Nat.sub_self, List.drop_zero]

omit [Field K] [LinearOrder K] in
/-- While there is room, a new value joins the window. -/
theorem trailing_grow {values : List K} {volume : K} (room : values.length < Window) :
    trailing Window (values ++ [volume]) = trailing Window values ++ [volume] := by
  rw [trailing_of_le room.le, trailing_of_le (by simpa using room)]

omit [Field K] [LinearOrder K] in
/-- Once the window is full, a new value drives out the oldest one. -/
theorem trailing_roll {values : List K} (some_slot : 0 < Window) (full : Window ≤ values.length)
    (volume : K) :
    ∃ rest, trailing Window values = values[values.length - Window] :: rest ∧
      trailing Window (values ++ [volume]) = rest ++ [volume] := by
  refine ⟨values.drop (values.length - Window + 1), ?_, ?_⟩
  · rw [trailing, min_eq_right full, List.drop_eq_getElem_cons]
  · have start : values.length + 1 - Window = values.length - Window + 1 := by omega
    rw [trailing, List.length_append, List.length_singleton, min_eq_right (by omega), start,
      List.drop_append_of_le_length (by omega)]

section Tracks

variable [NeZero Window]

/-- The buffer of `c` holds the trailing window of `values`: value number `i`, counted
from 0, sits at index `i % Window`, and the slots no value has reached hold 0. -/
structure Tracks (c : ZScoreCalculator K Window) (values : List K) : Prop where
  count : c.count = values.length
  slot : ∀ i (lt : i < values.length), values.length ≤ i + Window →
    c.buffer (Fin.ofNat Window i) = values[i]
  unused : ∀ j : Fin Window, values.length ≤ j → c.buffer j = 0
  /-- What the filled slots add up to under any function. -/
  sum : ∀ f : K → K, ∑ j ∈ filled Window c.count, f (c.buffer j) = ((trailing Window values).map f).sum

omit [LinearOrder K] in
theorem Tracks.zero : Tracks (zero : ZScoreCalculator K Window) [] := by
  have none : filled Window 0 = ∅ := by
    ext i
    simp [filled]
  constructor
  case count => rfl
  case slot => exact fun i lt => absurd lt (Nat.not_lt_zero i)
  case unused => exact fun _ _ => rfl
  case sum => simp [ZScoreCalculator.zero, none, trailing]

omit [LinearOrder K] in
theorem Tracks.holds {c : ZScoreCalculator K Window} {values : List K} (h : Tracks c values) :
    Ring.Holds c.buffer 0 values :=
  ⟨h.slot, h.unused⟩

omit [LinearOrder K] in
theorem Tracks.observe_holds {c : ZScoreCalculator K Window} {values : List K} (h : Tracks c values)
    (volume : K) : Ring.Holds (c.observe volume).buffer 0 (values ++ [volume]) := by
  rw [observe_buffer, h.count]
  exact h.holds.snoc volume

omit [LinearOrder K] in
/-- The sums over the filled slots follow the trailing window. -/
theorem Tracks.observe_sum {c : ZScoreCalculator K Window} {values : List K} (h : Tracks c values)
    (volume : K) (f : K → K) :
    ∑ j ∈ filled Window (c.observe volume).count, f ((c.observe volume).buffer j) =
      ((trailing Window (values ++ [volume])).map f).sum := by
  rw [observe_count, observe_buffer, h.count]
  have before := h.sum f
  rw [h.count] at before
  cases Nat.lt_or_ge values.length Window with
  | inl room =>
    have new := ofNat_notMem_filled room
    have others : ∑ j ∈ filled Window values.length,
        f (Function.update c.buffer (Fin.ofNat Window values.length) volume j) =
          ∑ j ∈ filled Window values.length, f (c.buffer j) :=
      sum_congr rfl fun j mem => by rw [Function.update_of_ne (ne_of_mem_of_not_mem mem new)]
    rw [filled_succ room, sum_insert new, Function.update_self, others, before, trailing_grow room,
      List.map_append, List.sum_append, List.map_singleton, List.sum_singleton, add_comm]
  | inr full =>
    obtain ⟨rest, now, next⟩ := trailing_roll (NeZero.pos Window) full volume
    have ago : values.length - Window < values.length := by
      have := NeZero.pos Window
      omega
    -- the slot about to be written holds the value `Window` pushes ago
    have oldest : c.buffer (Fin.ofNat Window values.length) = values[values.length - Window] :=
      h.holds.next_oldest ago (by omega)
    rw [filled_of_le full] at before
    rw [filled_of_le (by omega), SampleStats.sum_update (mem_univ _), before, now, next, oldest,
      List.map_cons, List.sum_cons, List.map_append, List.sum_append, List.map_singleton,
      List.sum_singleton]
    ring

omit [LinearOrder K] in
/-- Every push moves the window on by one value. -/
theorem Tracks.observe {c : ZScoreCalculator K Window} {values : List K} (h : Tracks c values)
    (volume : K) : Tracks (c.observe volume) (values ++ [volume]) where
  count := by rw [observe_count, h.count, List.length_append, List.length_singleton]
  slot := (h.observe_holds volume).slot
  unused := (h.observe_holds volume).unused
  sum := h.observe_sum volume

/-- The running statistics and the buffer, over any run of pushes. -/
theorem Tracks.pushAll [IsStrictOrderedRing K] [Sqrt K] {start : ZScoreCalculator K Window}
    (tracks : Tracks start []) (inv : ZScoreInv start) (values : List K) :
    Tracks (start.pushAll values) values ∧ ZScoreInv (start.pushAll values) := by
  induction values using List.reverseRecOn with
  | nil => exact ⟨tracks, inv⟩
  | append_singleton values volume ih =>
    have step : start.pushAll (values ++ [volume]) = (start.pushAll values).observe volume := by
      simp [ZScoreCalculator.pushAll, push]
    rw [step]
    exact ⟨ih.1.observe volume, ih.2.observe volume⟩

omit [LinearOrder K] in
/-- The running mean is the mean of the trailing window. -/
theorem Tracks.mean_eq {c : ZScoreCalculator K Window} {values : List K} (h : Tracks c values)
    (inv : ZScoreInv c) : c.mean = (trailing Window values).sum / (min values.length Window : ℕ) := by
  have sum := h.sum id
  rw [List.map_id] at sum
  rw [inv.mean, SampleStats.mean, card_filled, h.count, ← sum, h.count]
  rfl

omit [LinearOrder K] in
/-- The running sum of squares is that of the trailing window. -/
theorem Tracks.m2_eq {c : ZScoreCalculator K Window} {values : List K} (h : Tracks c values)
    (inv : ZScoreInv c) : c.m2 = ((trailing Window values).map fun v => (v - c.mean) ^ 2).sum := by
  rw [inv.m2, SampleStats.sqDev, ← inv.mean]
  exact h.sum fun v => (v - c.mean) ^ 2

end Tracks

section Real

/-- A value-initialised and a reset calculator are the same. -/
theorem eq_zero_of_fresh {start : ZScoreCalculator ℝ Window} (fresh : start = zero ∨ ∃ c, start = reset c) :
    start = zero := by
  obtain rfl | ⟨c, rfl⟩ := fresh
  · rfl
  · rfl

variable [NeZero Window]

/-- What one more push returns, in terms of the statistics after it. -/
theorem push_eq_of_count (c : ZScoreCalculator ℝ Window) (volume : ℝ) (n : ℕ) (count : c.count + 1 = n)
    (two : 2 ≤ Window) :
    let k := min n Window
    let s := √((c.observe volume).m2 / (k - 1))
    (c.push volume).1 = if k = 1 ∨ s ≤ 1 / 10 ^ 9 then 0 else (volume - (c.observe volume).mean) / s := by
  intro k s
  have after : (c.observe volume).count = n := (observe_count c volume).trans count
  cases Nat.lt_or_ge 1 n with
  | inr single =>
    have k_eq : k = 1 := by omega
    have none : (c.observe volume).variance = 0 := by
      rw [variance, after, if_neg (by omega)]
    have zero : (c.observe volume).stddev = 0 := by
      rw [stddev, none]
      exact Real.sqrt_zero
    rw [if_pos (.inl k_eq), push, zero, if_neg (by norm_num)]
  | inl many =>
    have k_ne : k ≠ 1 := by omega
    have sd : (c.observe volume).stddev = s := by
      rw [stddev, variance, after, if_pos many]
      rfl
    rw [push, sd]
    simp only [k_ne, false_or, ← not_lt, ite_not]

/-- **The calculator tracks the exact trailing window.** -/
theorem push_tracks_trailing_window (two : 2 ≤ Window) {start : ZScoreCalculator ℝ Window}
    (fresh : start = zero ∨ ∃ c, start = reset c) (earlier : List ℝ) (x : ℝ) :
    let values := earlier ++ [x]
    let n := values.length
    let k := min n Window
    let window := values.drop (n - k)
    let mean := window.sum / k
    let squares := (window.map fun v => (v - mean) ^ 2).sum
    let s := √(squares / (k - 1))
    let z := ((start.pushAll earlier).push x).1
    let c := ((start.pushAll earlier).push x).2
    window.length = k ∧
      (∀ i (lt : i < n), n - k ≤ i → c.buffer (Fin.ofNat Window i) = values[i]) ∧
      (∀ j : Fin Window, n ≤ j → c.buffer j = 0) ∧
      c.mean = mean ∧ c.m2 = squares ∧ 0 ≤ c.m2 ∧ (c.warmedUp = true ↔ Window ≤ n) ∧
      z = if k = 1 ∨ s ≤ 1 / 10 ^ 9 then 0 else (x - mean) / s := by
  intro values n k window mean squares s z c
  obtain rfl := eq_zero_of_fresh fresh
  obtain ⟨before, inv⟩ := Tracks.pushAll (.zero : Tracks (zero : ZScoreCalculator ℝ Window) []) .zero earlier
  have after : Tracks c values := before.observe x
  have inv_after : ZScoreInv c := inv.observe x
  have mean_eq : c.mean = mean := after.mean_eq inv_after
  have m2_eq : c.m2 = squares := by
    rw [after.m2_eq inv_after, mean_eq]
    rfl
  have count : (pushAll zero earlier : ZScoreCalculator ℝ Window).count + 1 = n := by
    rw [before.count]
    simp [n, values]
  refine ⟨?_, ?_, after.unused, mean_eq, m2_eq, ?_, ?_, ?_⟩
  case refine_1 =>
    rw [List.length_drop]
    omega
  case refine_2 =>
    intro i lt recent
    exact after.slot i lt (by omega)
  case refine_3 =>
    rw [inv_after.m2]
    exact sum_nonneg fun _ _ => sq_nonneg _
  case refine_4 =>
    rw [warmedUp, after.count, decide_eq_true_eq]
  case refine_5 =>
    have value := push_eq_of_count _ x n count two
    have c_eq : (pushAll zero earlier : ZScoreCalculator ℝ Window).observe x = c := rfl
    rw [c_eq, m2_eq, mean_eq] at value
    exact value

/-- Three pushes into a window of two values: the first one is forgotten. -/
theorem push_tracks_two_of_three :
    (((zero : ZScoreCalculator ℝ 2).pushAll [1, 2]).push 4).2.mean = 3 ∧
      (((zero : ZScoreCalculator ℝ 2).pushAll [1, 2]).push 4).2.m2 = 2 := by
  obtain ⟨-, -, -, mean, m2, -⟩ :=
    @push_tracks_trailing_window 2 _ le_rfl zero (.inl rfl) [1, 2] 4
  rw [mean, m2]
  norm_num

/-- The bound of `push_sq_mul_le`, with the root taken. -/
theorem abs_push_le (values : List ℝ) (x : ℝ) :
    let k := min (values.length + 1) Window
    |(((zero : ZScoreCalculator ℝ Window).pushAll values).push x).1| ≤ (k - 1) / √k := by
  intro k
  obtain ⟨tracks, inv⟩ := Tracks.pushAll (.zero : Tracks (zero : ZScoreCalculator ℝ Window) []) .zero values
  have bound := inv.push_sq_mul_le x
  rw [tracks.count] at bound
  have one_le : (1 : ℝ) ≤ k := by
    have := NeZero.pos Window
    exact_mod_cast (by omega : 1 ≤ k)
  have root_pos : 0 < √(k : ℝ) := Real.sqrt_pos.2 (by linarith)
  refine abs_le_of_sq_le_sq ?_ (div_nonneg (by linarith) root_pos.le)
  rw [div_pow, Real.sq_sqrt (by linarith), le_div_iff₀ (by linarith)]
  exact bound

/-- `k - 1` zeros and then `k`: the sample deviation is `√k`. -/
theorem push_after_zeros (two : 2 ≤ Window) {k : ℕ} (some_zero : 2 ≤ k) (fits : k ≤ Window) :
    (((zero : ZScoreCalculator ℝ Window).pushAll (List.replicate (k - 1) 0)).push k).1 = (k - 1) / √k := by
  obtain ⟨before, inv⟩ :=
    Tracks.pushAll (.zero : Tracks (zero : ZScoreCalculator ℝ Window) []) .zero (List.replicate (k - 1) 0)
  have after := before.observe k
  have inv_after := inv.observe k
  have two_le : (2 : ℝ) ≤ k := by exact_mod_cast some_zero
  have pred : ((k - 1 : ℕ) : ℝ) = k - 1 := by
    rw [Nat.cast_sub (by omega), Nat.cast_one]
  have length : (List.replicate (k - 1) (0 : ℝ) ++ [(k : ℝ)]).length = k := by
    rw [List.length_append, List.length_replicate, List.length_singleton]
    omega
  have mean := after.mean_eq inv_after
  have m2 := after.m2_eq inv_after
  rw [trailing_of_le (by omega), length, min_eq_left fits] at mean
  rw [trailing_of_le (by omega)] at m2
  have mean_one : (((zero : ZScoreCalculator ℝ Window).pushAll (List.replicate (k - 1) 0)).observe k).mean = 1 := by
    rw [mean, List.sum_append, List.sum_replicate, List.sum_singleton, smul_zero, zero_add]
    exact div_self (by linarith)
  rw [mean_one] at m2
  have value := push_eq_of_count _ (k : ℝ) k (by rw [before.count, List.length_replicate]; omega) two
  have squares :
      ((List.replicate (k - 1) (0 : ℝ) ++ [(k : ℝ)]).map fun v => (v - 1) ^ 2).sum = ((k : ℝ) - 1) * k := by
    simp only [List.map_append, List.map_replicate, List.map_singleton, List.sum_append,
      List.sum_replicate, List.sum_singleton, nsmul_eq_mul, pred]
    ring
  simp only [min_eq_left fits, mean_one, m2, squares] at value
  rw [mul_div_cancel_left₀ _ (by linarith)] at value
  have wide : ¬ √(k : ℝ) ≤ 1 / 10 ^ 9 := by
    have : 1 ≤ √(k : ℝ) := Real.one_le_sqrt.2 (by linarith)
    intro small
    norm_num at small
    linarith
  rw [value, if_neg]
  rintro (one | small)
  · omega
  · exact wide small

/-- **The sharp bound on the self-inclusive z-score.** -/
theorem abs_push_le_and_attained (two : 2 ≤ Window) :
    (∀ (values : List ℝ) (x : ℝ),
      let k := min (values.length + 1) Window
      |(((zero : ZScoreCalculator ℝ Window).pushAll values).push x).1| ≤ (k - 1) / √k) ∧
    ∀ k, 2 ≤ k → k ≤ Window → ∃ (values : List ℝ) (x : ℝ), min (values.length + 1) Window = k ∧
      |(((zero : ZScoreCalculator ℝ Window).pushAll values).push x).1| = (k - 1) / √k := by
  refine ⟨abs_push_le, ?_⟩
  intro k some_zero fits
  refine ⟨List.replicate (k - 1) 0, k, ?_, ?_⟩
  · rw [List.length_replicate]
    omega
  · have nonneg : 0 ≤ ((k : ℝ) - 1) / √k := by
      have : (2 : ℝ) ≤ k := by exact_mod_cast some_zero
      exact div_nonneg (by linarith) (Real.sqrt_nonneg _)
    rw [push_after_zeros two some_zero fits, abs_of_nonneg nonneg]

/-- No z-score of the 20 volumes the aggregator keeps exceeds `19 / √20`. -/
theorem abs_push_le_twenty :
    |(((zero : ZScoreCalculator ℝ 20).pushAll (List.replicate 40 5)).push 100).1| ≤ 19 / √20 := by
  have bound := (@abs_push_le_and_attained 20 _ (by decide)).1 (List.replicate 40 5) 100
  norm_num at bound ⊢
  exact bound

end Real

end StockAnomaly.Aggregation.ZScoreCalculator

import StockAnomaly.Aggregation.ZScore
import StockAnomaly.Theory.Ring

/-!
# The price change across the window

`PriceChangeTracker` reads a slot before it overwrites it. The buffer holds the last `Window`
prices (`Tracks`), so from the second lap on a push is compared with the price exactly `Window`
pushes before it: **`push_compares_window_ago`**. The last push of the first lap passes the test
for enough data, but the slot it reads was never written, and 0 is no price to compare with.
-/

namespace StockAnomaly.Aggregation.PriceChangeTracker

open StockAnomaly.Theory

variable {K : Type*} [Field K] [LinearOrder K] {Window : ℕ}

omit [LinearOrder K] in
/-- Back to the value-initialised tracker. -/
def reset (t : PriceChangeTracker K Window) : PriceChangeTracker K Window :=
  { t with head := 0, buffer := fun _ => 0 }

variable [NeZero Window]

/-- The tracker after the pushes of `prices`, in this order. -/
def pushAll (t : PriceChangeTracker K Window) (prices : List K) : PriceChangeTracker K Window :=
  prices.foldl (fun t price => (t.push price).2) t

theorem pushAll_snoc (t : PriceChangeTracker K Window) (prices : List K) (price : K) :
    t.pushAll (prices ++ [price]) = ((t.pushAll prices).push price).2 := by
  simp [pushAll]

omit [LinearOrder K] in
/-- The tracker has been pushed `prices` since it was fresh. -/
structure Tracks (t : PriceChangeTracker K Window) (prices : List K) : Prop where
  head : t.head = prices.length
  holds : Ring.Holds t.buffer 0 prices

variable {t : PriceChangeTracker K Window} {prices : List K}

omit [LinearOrder K] in
theorem Tracks.zero : Tracks (zero : PriceChangeTracker K Window) [] := ⟨rfl, .nil⟩

theorem Tracks.push (h : Tracks t prices) (price : K) : Tracks (t.push price).2 (prices ++ [price]) where
  head := by
    rw [List.length_append, List.length_singleton, ← h.head]
    rfl
  holds := by
    have next := h.holds.snoc price
    rw [← h.head] at next
    exact next

theorem Tracks.pushAll (h : Tracks t []) (prices : List K) : Tracks (t.pushAll prices) prices := by
  induction prices using List.reverseRecOn with
  | nil => exact h
  | append_singleton prices price ih =>
    rw [pushAll_snoc]
    exact ih.push price

/-- What a push returns, in terms of the slot it is about to overwrite. -/
theorem Tracks.push_eq (h : Tracks t prices) (price : K) {oldest : K}
    (slot : t.buffer (Fin.ofNat Window prices.length) = oldest) :
    (t.push price).1 = if prices.length + 1 < Window then 0
      else if 1 / 10 ^ 9 < oldest then (price - oldest) / oldest * 100 else 0 := by
  rw [← slot, ← h.head]
  rfl

variable [IsStrictOrderedRing K]

/-- In the first lap there is nothing to compare with. -/
theorem Tracks.push_first_lap (h : Tracks t prices) (price : K) (first : prices.length < Window) :
    (t.push price).1 = 0 := by
  have no_price : ¬ (1 / 10 ^ 9 : K) < 0 := by
    apply not_lt.2
    positivity
  rw [h.push_eq price (h.holds.next_blank first), if_neg no_price, ite_self]

omit [IsStrictOrderedRing K] in
/-- In a later lap the push is compared with the price it displaces. -/
theorem Tracks.push_later_lap (h : Tracks t prices) (price : K) {i : ℕ} (lt : i < prices.length)
    (lap : i + Window = prices.length) : (t.push price).1 =
      if 1 / 10 ^ 9 < prices[i] then (price - prices[i]) / prices[i] * 100 else 0 := by
  rw [h.push_eq price (h.holds.next_oldest lt lap), if_neg (by omega)]

/-- **A push is compared with the price exactly `Window` pushes before it**, in every lap. -/
theorem push_compares_window_ago {start : PriceChangeTracker K Window}
    (fresh : start = zero ∨ ∃ t, start = reset t) (earlier : List K) (price : K) :
    let n := earlier.length + 1
    let change := ((start.pushAll earlier).push price).1
    (n ≤ Window → change = 0) ∧
      -- `earlier[i]` is price number `i + 1`
      ∀ i (lt : i < earlier.length), i + 1 = n - Window → change =
        if 1 / 10 ^ 9 < earlier[i] then (price - earlier[i]) / earlier[i] * 100 else 0 := by
  intro n change
  have start_eq : start = zero := by
    obtain rfl | ⟨t, rfl⟩ := fresh
    · rfl
    · rfl
  have tracks : Tracks (start.pushAll earlier) earlier := by
    apply Tracks.pushAll
    rw [start_eq]
    exact .zero
  constructor
  · intro first
    exact tracks.push_first_lap price (by omega)
  · intro i lt ago
    exact tracks.push_later_lap price lt (by omega)

/-- The third and the fourth price in a window of three. -/
theorem push_compares_window_ago_three :
    (((zero : PriceChangeTracker ℚ 3).pushAll [100, 110]).push 120).1 = 0 ∧
      (((zero : PriceChangeTracker ℚ 3).pushAll [100, 110, 120]).push 130).1 = 30 := by
  have fresh : (zero : PriceChangeTracker ℚ 3) = zero ∨ ∃ t : PriceChangeTracker ℚ 3, zero = reset t :=
    .inl rfl
  have third := (push_compares_window_ago fresh [100, 110] 120).1 le_rfl
  have fourth := (push_compares_window_ago fresh [100, 110, 120] 130).2 0 (by decide) rfl
  refine ⟨third, fourth.trans ?_⟩
  norm_num

end StockAnomaly.Aggregation.PriceChangeTracker

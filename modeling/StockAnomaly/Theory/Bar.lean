import Mathlib.Algebra.BigOperators.Group.List.Basic
import Mathlib.Algebra.GroupWithZero.Nat
import Mathlib.Algebra.Order.Group.Defs
import Mathlib.Data.List.MinMax

/-!
# Bars of a price series and their merge

A bar sums up a nonempty stretch of a series: its first, highest, lowest and last value,
its volume and the number of observations. `IsMerge b bars` says that `b` is what the
bars, in order, amount to; a merge grows with the last bar it covers (`append_last`) and
by further bars (`concat`), so a coarse bar can be kept in step with finer ones.
-/

namespace StockAnomaly.Theory

structure Bar (K : Type*) where
  first : K
  high : K
  low : K
  last : K
  volume : K
  count : ℕ

variable {K : Type*} [LinearOrder K] [AddCommGroup K]

/-- The bar of one observation. -/
def Bar.unit (price volume : K) : Bar K := ⟨price, price, price, price, volume, 1⟩

/-- The bar of a stretch and the stretch after it. -/
def Bar.append (b u : Bar K) : Bar K :=
  ⟨b.first, max b.high u.high, min b.low u.low, u.last, b.volume + u.volume, b.count + u.count⟩

/-- The bar `b` is the in-order merge of `bars`. -/
structure IsMerge (b : Bar K) (bars : List (Bar K)) : Prop where
  first : bars.head?.map Bar.first = some b.first
  high : (bars.map Bar.high).maximum = b.high
  low : (bars.map Bar.low).minimum = b.low
  last : bars.getLast?.map Bar.last = some b.last
  volume : (bars.map Bar.volume).sum = b.volume
  count : (bars.map Bar.count).sum = b.count

namespace IsMerge

variable {b l u : Bar K} {bars : List (Bar K)}

theorem ne_nil (h : IsMerge b bars) : bars ≠ [] := by
  rintro rfl
  cases h.first

theorem single (b : Bar K) : IsMerge b [b] := by constructor <;> simp

/-- One more bar. -/
theorem concat (h : IsMerge b bars) (u : Bar K) : IsMerge (b.append u) (bars ++ [u]) where
  first := by
    rw [List.head?_append_of_ne_nil _ h.ne_nil]
    exact h.first
  high := by
    rw [List.map_append, List.map_singleton, List.maximum_concat, h.high]
    exact (WithBot.coe_max ..).symm
  low := by
    rw [List.map_append, List.map_singleton, List.minimum_concat, h.low]
    exact (WithTop.coe_min ..).symm
  last := by rw [List.getLast?_concat]; rfl
  volume := by
    rw [List.map_append, List.sum_append, h.volume, List.map_singleton, List.sum_singleton]
    rfl
  count := by
    rw [List.map_append, List.sum_append, h.count, List.map_singleton, List.sum_singleton]
    rfl

/-- The last bar grows, and the merge with it. -/
theorem append_last (h : IsMerge b (bars ++ [l])) (u : Bar K) :
    IsMerge (b.append u) (bars ++ [l.append u]) where
  first := by
    have first := h.first
    cases bars with
    | nil => exact first
    | cons => exact first
  high := by
    have high := h.high
    rw [List.map_append, List.map_singleton, List.maximum_concat] at high ⊢
    change max _ ((max l.high u.high : K) : WithBot K) = ((max b.high u.high : K) : WithBot K)
    rw [WithBot.coe_max, WithBot.coe_max, ← max_assoc, high]
  low := by
    have low := h.low
    rw [List.map_append, List.map_singleton, List.minimum_concat] at low ⊢
    change min _ ((min l.low u.low : K) : WithTop K) = ((min b.low u.low : K) : WithTop K)
    rw [WithTop.coe_min, WithTop.coe_min, ← min_assoc, low]
  last := by rw [List.getLast?_concat]; rfl
  volume := by
    have volume := h.volume
    rw [List.map_append, List.sum_append, List.map_singleton, List.sum_singleton] at volume ⊢
    change _ + (l.volume + u.volume) = b.volume + u.volume
    rw [← add_assoc, volume]
  count := by
    have count := h.count
    rw [List.map_append, List.sum_append, List.map_singleton, List.sum_singleton] at count ⊢
    change _ + (l.count + u.count) = b.count + u.count
    rw [← add_assoc, count]

end IsMerge

end StockAnomaly.Theory

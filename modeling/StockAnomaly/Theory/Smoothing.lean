import Mathlib.Algebra.Order.Field.Basic
import Mathlib.Tactic.Ring
import StockAnomaly.Theory.Series

/-!
# Exponential smoothing

On a column without gaps the recursive weights of `Series.ewm` are those of a plain recursion: it
starts at the first value, and each later value moves it by the fraction `alpha` of the way
(`ewma`). Smoothing is linear, and with `alpha < 1` a positive value is never forgotten.
-/

namespace StockAnomaly.Theory

variable {K : Type*} [Field K] {alpha : K}

/-- The smoothed value after `rest`, from `value` on. -/
def ewmaFrom (alpha value : K) (rest : List K) : K :=
  rest.foldl (fun value x => (1 - alpha) * value + alpha * x) value

/-- The smoothed value at the end of a list; 0 of the empty list. -/
def ewma (alpha : K) : List K → K
  | [] => 0
  | x :: rest => ewmaFrom alpha x rest

theorem ewmaFrom_cons (alpha value x : K) (rest : List K) :
    ewmaFrom alpha value (x :: rest) = ewmaFrom alpha ((1 - alpha) * value + alpha * x) rest := rfl

theorem ewmaFrom_mul (alpha c value : K) (rest : List K) :
    ewmaFrom alpha (c * value) (rest.map (c * ·)) = c * ewmaFrom alpha value rest := by
  induction rest generalizing value with
  | nil => rfl
  | cons x rest ih =>
    have next : (1 - alpha) * (c * value) + alpha * (c * x) = c * ((1 - alpha) * value + alpha * x) := by
      ring
    rw [List.map_cons, ewmaFrom_cons, next, ih, ewmaFrom_cons]

/-- Smoothing is homogeneous. -/
theorem ewma_mul (alpha c : K) (values : List K) : ewma alpha (values.map (c * ·)) = c * ewma alpha values := by
  cases values with
  | nil => exact (mul_zero c).symm
  | cons x rest => exact ewmaFrom_mul alpha c x rest

namespace Series

/-- A value never renews the weight of the ones before it, so the weights stay 1. -/
theorem ewmFrom_ofList_cons (alpha value x : K) (rest : List K) :
    ewmFrom alpha (some value) 1 (ofList (x :: rest)) =
      some ((1 - alpha) * value + alpha * x) ::
        ewmFrom alpha (some ((1 - alpha) * value + alpha * x)) 1 (ofList rest) := by
  simp only [ofList, List.map_cons, ewmFrom, one_mul, sub_add_cancel, div_one]

theorem last_ewmFrom (alpha value : K) (rest : List K) :
    last (some value :: ewmFrom alpha (some value) 1 (ofList rest)) = some (ewmaFrom alpha value rest) := by
  induction rest generalizing value with
  | nil => rfl
  | cons x rest ih =>
    rw [ewmFrom_ofList_cons, last_cons _ (List.cons_ne_nil _ _), ih, ewmaFrom_cons]

theorem last_ewm {values : List K} (some_value : values ≠ []) (alpha : K) :
    last (ewm alpha (ofList values)) = some (ewma alpha values) := by
  cases values with
  | nil => exact absurd rfl some_value
  | cons x rest => exact last_ewmFrom alpha x rest

/-- The differences of a column without gaps. -/
theorem diff_ofList_cons (x : K) (rest : List K) :
    diff (ofList (x :: rest)) = none :: ofList (List.zipWith (· - ·) rest (x :: rest)) := by
  rw [← zip_ofList]
  rfl

end Series

section Order

variable [LinearOrder K] [IsStrictOrderedRing K]

theorem ewmaFrom_nonneg (pos : 0 ≤ alpha) (le_one : alpha ≤ 1) {value : K} (now : 0 ≤ value) {rest : List K}
    (nonneg : ∀ x ∈ rest, 0 ≤ x) : 0 ≤ ewmaFrom alpha value rest := by
  induction rest generalizing value with
  | nil => exact now
  | cons x rest ih =>
    obtain ⟨here, later⟩ := List.forall_mem_cons.1 nonneg
    apply ih _ later
    exact add_nonneg (mul_nonneg (sub_nonneg.2 le_one) now) (mul_nonneg pos here)

theorem ewma_nonneg (pos : 0 ≤ alpha) (le_one : alpha ≤ 1) {values : List K} (nonneg : ∀ x ∈ values, 0 ≤ x) :
    0 ≤ ewma alpha values := by
  cases values with
  | nil => exact le_rfl
  | cons x rest =>
    obtain ⟨here, later⟩ := List.forall_mem_cons.1 nonneg
    exact ewmaFrom_nonneg pos le_one here later

/-- A positive value is never forgotten. -/
theorem ewmaFrom_pos (pos : 0 < alpha) (lt_one : alpha < 1) {value : K} (now : 0 ≤ value) {rest : List K}
    (nonneg : ∀ x ∈ rest, 0 ≤ x) (some_pos : 0 < value ∨ ∃ x ∈ rest, 0 < x) : 0 < ewmaFrom alpha value rest := by
  induction rest generalizing value with
  | nil =>
    obtain first | ⟨x, mem, -⟩ := some_pos
    · exact first
    · cases mem
  | cons x rest ih =>
    obtain ⟨here, later⟩ := List.forall_mem_cons.1 nonneg
    have keep : 0 ≤ (1 - alpha) * value := mul_nonneg (sub_nonneg.2 lt_one.le) now
    have move : 0 ≤ alpha * x := mul_nonneg pos.le here
    apply ih (add_nonneg keep move) later
    obtain first | ⟨y, mem, y_pos⟩ := some_pos
    · exact .inl (add_pos_of_pos_of_nonneg (mul_pos (sub_pos.2 lt_one) first) move)
    · rcases List.mem_cons.1 mem with rfl | mem
      · exact .inl (add_pos_of_nonneg_of_pos keep (mul_pos pos y_pos))
      · exact .inr ⟨y, mem, y_pos⟩

theorem ewma_pos (pos : 0 < alpha) (lt_one : alpha < 1) {values : List K} (nonneg : ∀ x ∈ values, 0 ≤ x)
    (some_pos : ∃ x ∈ values, 0 < x) : 0 < ewma alpha values := by
  cases values with
  | nil =>
    obtain ⟨x, mem, -⟩ := some_pos
    cases mem
  | cons x rest =>
    obtain ⟨here, later⟩ := List.forall_mem_cons.1 nonneg
    apply ewmaFrom_pos pos lt_one here later
    obtain ⟨y, mem, y_pos⟩ := some_pos
    rcases List.mem_cons.1 mem with rfl | mem
    · exact .inl y_pos
    · exact .inr ⟨y, mem, y_pos⟩

end Order

end StockAnomaly.Theory

import Mathlib.Algebra.BigOperators.Group.List.Basic
import Mathlib.Algebra.Field.Basic
import Mathlib.Data.List.Induction
import Mathlib.Data.List.Infix
import Mathlib.Data.Option.NAry
import Mathlib.Tactic.FieldSimp
import Mathlib.Tactic.Ring

/-!
# Series with missing values

A column of numbers of which some are missing (the NaN of data-frame libraries), with the
operations of rolling analysis. A missing value makes every result that needs it missing.
The lemmas say what the operations do to a constant series.
-/

namespace StockAnomaly.Theory

/-- A column; `none` is a missing value. -/
abbrev Series (K : Type*) := List (Option K)

namespace Series

variable {K : Type*}

/-- A column without missing values. -/
def ofList (values : List K) : Series K := values.map some

/-- An operation on the present values. -/
def mapValues (f : K → K) (s : Series K) : Series K := s.map (Option.map f)

/-- An operation on two columns, row by row. -/
def zip (f : K → K → K) (s t : Series K) : Series K := List.zipWith (Option.map₂ f) s t

/-- The differences between neighbours; the first one is missing. -/
def diff [Sub K] : Series K → Series K
  | [] => []
  | x :: s => none :: zip (· - ·) s (x :: s)

/-- `values` with `new` for `old`. -/
def replace [DecidableEq K] (old new : K) (s : Series K) : Series K :=
  s.mapValues fun x => if x = old then new else x

/-- The last value. -/
def last (s : Series K) : Option K := s.getLast?.join

/-- A function of the last `period` values, missing while there are not so many or where
one of them is missing. -/
def rolling (period : ℕ) (f : List K → Option K) (s : Series K) : Series K :=
  s.inits.tail.map fun seen =>
    if seen.length < period then none else ((seen.drop (seen.length - period)).mapM id).bind f

section Field

variable [Field K]

/-- The arithmetic mean; missing of no value. -/
def mean (values : List K) : Option K :=
  if values.length = 0 then none else some (values.sum / values.length)

/-- The sample variance; missing of fewer than two values. -/
def sampleVar (values : List K) : Option K :=
  if values.length < 2 then none
  else some ((values.map fun v => (v - values.sum / values.length) ^ 2).sum / (values.length - 1))

/-- The running sum. -/
def cumsum (values : List K) : List K := values.inits.tail.map List.sum

/-- The exponentially weighted mean that goes on from `weighted`, whose weight is `weight`. -/
def ewmFrom (alpha : K) : Option K → K → Series K → Series K
  | _, _, [] => []
  | none, weight, x :: s => x :: ewmFrom alpha x weight s
  | some weighted, weight, none :: s =>
    some weighted :: ewmFrom alpha (some weighted) (weight * (1 - alpha)) s
  | some weighted, weight, some x :: s =>
    let old := weight * (1 - alpha)
    let new := (old * weighted + alpha * x) / (old + alpha)
    some new :: ewmFrom alpha (some new) 1 s

/-- The exponentially weighted mean with the recursive weights: `x₀`, then
`(1 - alpha) * last + alpha * x`. -/
def ewm (alpha : K) (s : Series K) : Series K := ewmFrom alpha none 1 s

end Field

section Last

/-- The longest beginning of a list is the list. -/
theorem getLast?_inits_tail {α : Type*} {l : List α} (some_row : l ≠ []) : l.inits.tail.getLast? = some l := by
  induction l with
  | nil => exact absurd rfl some_row
  | cons x l ih =>
    rw [List.inits_cons, List.tail_cons, List.getLast?_map]
    cases l with
    | nil => rfl
    | cons y l =>
      have rest := ih (List.cons_ne_nil y l)
      rw [List.inits_cons, List.tail_cons] at rest
      simp [List.getLast?_cons, rest]

variable {s t : Series K} {f : K → K → K}

@[simp] theorem last_mapValues (g : K → K) : last (s.mapValues g) = (last s).map g := by
  rw [last, mapValues, List.getLast?_map, last]
  cases s.getLast? <;> rfl

@[simp] theorem length_mapValues (g : K → K) : (s.mapValues g).length = s.length := by
  rw [mapValues, List.length_map]

theorem last_ofList (values : List K) : last (ofList values) = values.getLast? := by
  rw [last, ofList, List.getLast?_map]
  cases values.getLast? <;> rfl

theorem mapValues_none_cons (g : K → K) : mapValues g (none :: s) = none :: mapValues g s := rfl

theorem zip_none_cons (x : Option K) : zip f (none :: s) (x :: t) = none :: zip f s t := rfl

theorem mapValues_ofList (g : K → K) (values : List K) : mapValues g (ofList values) = ofList (values.map g) := by
  simp [mapValues, ofList]

theorem zip_ofList (values others : List K) :
    zip f (ofList values) (ofList others) = ofList (List.zipWith f values others) := by
  simp [zip, ofList, List.zipWith_map, List.map_zipWith]

theorem last_cons (x : Option K) (some_row : s ≠ []) : last (x :: s) = last s := by
  rw [last, List.getLast?_cons_of_ne_nil some_row, last]

/-- A gap at the start is not the last value. -/
theorem last_none_cons (s : Series K) : last (none :: s) = last s := by
  cases s with
  | nil => rfl
  | cons x s => exact last_cons none (List.cons_ne_nil x s)

/-- The last row of two columns of one length. -/
theorem last_zip (same : s.length = t.length) : last (zip f s t) = Option.map₂ f (last s) (last t) := by
  induction s using List.reverseRecOn with
  | nil =>
    obtain rfl := List.length_eq_zero_iff.1 same.symm
    rfl
  | append_singleton s x =>
    induction t using List.reverseRecOn with
    | nil => simp at same
    | append_singleton t y =>
      rw [List.length_append, List.length_append, List.length_singleton, List.length_singleton,
        Nat.add_right_cancel_iff] at same
      simp [last, zip, List.zipWith_append same]

theorem length_rolling (period : ℕ) (g : List K → Option K) (s : Series K) : (s.rolling period g).length = s.length := by
  simp [rolling, List.length_inits]

/-- The last entry of a rolling column looks at the end of the series. -/
theorem last_rolling (period : ℕ) (g : List K → Option K) (some_row : s ≠ []) :
    last (s.rolling period g) = if s.length < period then none
      else ((s.drop (s.length - period)).mapM id).bind g := by
  rw [last, rolling, List.getLast?_map, getLast?_inits_tail some_row]
  rfl

end Last

section Constant

variable {n : ℕ} {c : K}

theorem zip_replicate (f : K → K → K) (d : K) :
    zip f (List.replicate n (some c)) (List.replicate n (some d)) = List.replicate n (some (f c d)) := by
  simp [zip]

theorem mapValues_replicate (g : K → K) :
    mapValues g (List.replicate n (some c)) = List.replicate n (some (g c)) := by
  simp [mapValues]

theorem last_replicate (some_row : n ≠ 0) : last (List.replicate n (some c)) = some c := by
  simp [last, List.getLast?_replicate, some_row]

theorem mapM_replicate : (List.replicate n (some c)).mapM id = some (List.replicate n c) := by
  induction n with
  | zero => rfl
  | succ n ih => simp [List.replicate_succ, ih]

/-- The rolling value of a constant column that is long enough. -/
theorem last_rolling_replicate {period : ℕ} (g : List K → Option K) (long : period ≤ n) (some_row : n ≠ 0) :
    last (rolling period g (List.replicate n (some c))) = g (List.replicate period c) := by
  have rest : n - (n - period) = period := by omega
  rw [last_rolling period g (by simpa using some_row), List.length_replicate, if_neg (by omega),
    List.drop_replicate, rest, mapM_replicate]
  rfl

variable [Field K]

theorem diff_replicate_succ :
    diff (List.replicate (n + 1) (some c)) = none :: List.replicate n (some 0) := by
  rw [List.replicate_succ, diff, ← List.replicate_succ, zip, List.zipWith_replicate,
    Nat.min_eq_left (Nat.le_succ n), Option.map₂_some_some, sub_self]

theorem mean_replicate [CharZero K] (some_value : n ≠ 0) : mean (List.replicate n c) = some c := by
  have : (n : K) ≠ 0 := Nat.cast_ne_zero.2 some_value
  simp [mean, some_value]

theorem sampleVar_replicate [CharZero K] (two : 2 ≤ n) : sampleVar (List.replicate n c) = some 0 := by
  have : (n : K) ≠ 0 := Nat.cast_ne_zero.2 (by omega)
  have mean : (n : K) * c / n = c := by field_simp
  simp [sampleVar, mean, Nat.not_lt.2 two]

/-- A weighted mean of one value is that value. -/
theorem ewmFrom_replicate (alpha : K) :
    ewmFrom alpha (some c) 1 (List.replicate n (some c)) = List.replicate n (some c) := by
  induction n with
  | zero => rfl
  | succ n ih =>
    have same : (1 * (1 - alpha) * c + alpha * c) / (1 * (1 - alpha) + alpha) = c := by
      ring_nf
    rw [List.replicate_succ, ewmFrom]
    simp only [same, ih]

theorem ewm_replicate (alpha : K) :
    ewm alpha (List.replicate n (some c)) = List.replicate n (some c) := by
  cases n with
  | zero => rfl
  | succ n => rw [List.replicate_succ, ewm, ewmFrom, ewmFrom_replicate]

theorem length_ewmFrom (alpha weight : K) (value : Option K) (s : Series K) :
    (ewmFrom alpha value weight s).length = s.length := by
  induction s generalizing value weight with
  | nil => cases value <;> rfl
  | cons x s ih => cases value <;> cases x <;> simp [ewmFrom, ih]

theorem length_ewm (alpha : K) (s : Series K) : (ewm alpha s).length = s.length := length_ewmFrom alpha 1 none s

/-- A missing first value stays missing and changes nothing else. -/
theorem ewm_none_cons (alpha : K) (s : Series K) : ewm alpha (none :: s) = none :: ewm alpha s := by
  rw [ewm, ewmFrom, ewm]

theorem getLast?_cumsum {values : List K} (some_row : values ≠ []) :
    (cumsum values).getLast? = some values.sum := by
  rw [cumsum, List.getLast?_map, getLast?_inits_tail some_row]
  rfl

theorem length_cumsum (values : List K) : (cumsum values).length = values.length := by
  simp [cumsum, List.length_inits]

end Constant

end Series

end StockAnomaly.Theory

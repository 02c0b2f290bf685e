import Mathlib.Data.List.ReduceOption
import StockAnomaly.Theory.Series

/-!
# Where a series is missing

When the last entry of a column is missing, operation by operation: element-wise operations need the
last entry of each argument, an exponentially weighted mean any entry, differences two neighbours,
a rolling value the whole window. Two more operations pass over the gaps, the running sum and the
list of the present values.
-/

namespace StockAnomaly.Theory.Series

variable {K : Type*} {s t : Series K}

/-- The present values, in order. -/
def present (s : Series K) : List K := s.reduceOption

theorem present_ofList (values : List K) : present (ofList values) = values := by
  induction values with
  | nil => rfl
  | cons x values ih =>
    rw [ofList, List.map_cons, present, List.reduceOption_cons_of_some]
    exact congrArg (x :: ·) ih

/-- The present last entry is an entry. -/
theorem mem_of_last {x : K} (here : last s = some x) : some x ∈ s := by
  rw [last, Option.join_eq_some_iff] at here
  exact List.mem_of_getLast? here

theorem last_mapValues_eq_none_iff (g : K → K) : last (s.mapValues g) = none ↔ last s = none := by
  rw [last_mapValues, Option.map_eq_none_iff]

theorem last_zip_eq_none_iff {f : K → K → K} (same : s.length = t.length) :
    last (zip f s t) = none ↔ last s = none ∨ last t = none := by
  rw [last_zip same, Option.map₂_eq_none_iff]

theorem length_zip {f : K → K → K} (same : s.length = t.length) : (zip f s t).length = s.length := by
  rw [zip, List.length_zipWith, ← same, min_self]

theorem mapM_eq_none_iff : s.mapM id = none ↔ none ∈ s := by
  induction s with
  | nil => simp
  | cons x s ih => cases x <;> cases rest : s.mapM id <;> simp_all

theorem eq_ofList_of_mapM {values : List K} (all : s.mapM id = some values) : s = ofList values := by
  induction s generalizing values with
  | nil =>
    obtain rfl : [] = values := by simpa using all
    rfl
  | cons x s ih =>
    cases x with
    | none => simp at all
    | some x =>
      cases later : s.mapM id with
      | none => simp [later] at all
      | some rest =>
        obtain rfl : x :: rest = values := by simpa [later] using all
        rw [ih later]
        rfl

section Diff

variable [Sub K]

theorem diff_cons_cons (x y : Option K) (s : Series K) :
    diff (x :: y :: s) = none :: Option.map₂ (· - ·) y x :: (diff (y :: s)).tail := rfl

/-- A column has no difference exactly if it has no two neighbours. -/
theorem diff_eq_none_iff : (∀ d ∈ diff s, d = none) ↔ ∀ i, s[i]?.join = none ∨ s[i + 1]?.join = none := by
  induction s with
  | nil => simp [diff]
  | cons x s ih =>
    cases s with
    | nil => simp [diff, zip]
    | cons y s =>
      have shifted : (∀ d ∈ (diff (y :: s)).tail, d = none) ↔ ∀ d ∈ diff (y :: s), d = none := by
        simp [diff]
      rw [diff_cons_cons, List.forall_mem_cons, List.forall_mem_cons, shifted, ih,
        Option.map₂_eq_none_iff, and_iff_right rfl]
      constructor
      · rintro ⟨first, later⟩ i
        cases i with
        | zero => exact first.symm
        | succ i => exact later i
      · intro all
        exact ⟨(all 0).symm, fun i => all (i + 1)⟩

end Diff

section Field

variable [Field K]

theorem sampleVar_eq_none_iff {values : List K} : sampleVar values = none ↔ values.length < 2 := by
  unfold sampleVar
  split <;> simp_all

theorem mean_eq_none_iff {values : List K} : mean values = none ↔ values = [] := by
  unfold mean
  split <;> simp_all

/-- Once there is a value, an exponentially weighted mean is never missing again. -/
theorem last_ewmFrom_ne_none (alpha weight value : K) (s : Series K) :
    last (some value :: ewmFrom alpha (some value) weight s) ≠ none := by
  induction s generalizing value weight with
  | nil => simp [ewmFrom, last]
  | cons x s ih =>
    rw [last_cons]
    · cases x with
      | none => exact ih _ _
      | some x => exact ih _ _
    · cases x <;> exact List.cons_ne_nil _ _

theorem last_ewm_eq_none_iff (alpha : K) : last (ewm alpha s) = none ↔ ∀ x ∈ s, x = none := by
  rw [ewm]
  induction s with
  | nil => simp [ewmFrom, last]
  | cons x s ih =>
    cases x with
    | none => rw [ewmFrom, last_none_cons, ih, List.forall_mem_cons, and_iff_right rfl]
    | some x =>
      apply iff_of_false (last_ewmFrom_ne_none alpha 1 x s)
      intro all
      cases all (some x) (List.mem_cons_self ..)

/-- The running sum from `acc` on; a gap stays a gap and adds nothing. -/
def runningSumFrom (acc : K) : Series K → Series K
  | [] => []
  | none :: s => none :: runningSumFrom acc s
  | some x :: s => some (acc + x) :: runningSumFrom (acc + x) s

/-- `cumsum` of a column with gaps. -/
def runningSum (s : Series K) : Series K := runningSumFrom 0 s

theorem length_runningSumFrom (acc : K) (s : Series K) : (runningSumFrom acc s).length = s.length := by
  induction s generalizing acc with
  | nil => rfl
  | cons x s ih => cases x <;> simp [runningSumFrom, ih]

theorem runningSumFrom_getElem?_eq_none_iff (acc : K) (i : ℕ) :
    (runningSumFrom acc s)[i]?.join = none ↔ s[i]?.join = none := by
  induction s generalizing acc i with
  | nil => simp [runningSumFrom]
  | cons x s ih => cases x <;> cases i <;> simp [runningSumFrom, ih]

theorem last_runningSum_eq_none_iff : last (runningSum s) = none ↔ last s = none := by
  rw [runningSum, last, List.getLast?_eq_getElem?, length_runningSumFrom, runningSumFrom_getElem?_eq_none_iff,
    last, List.getLast?_eq_getElem?]

theorem runningSumFrom_ofList (acc : K) (values : List K) :
    runningSumFrom acc (ofList values) = ofList (values.inits.tail.map (acc + ·.sum)) := by
  induction values generalizing acc with
  | nil => rfl
  | cons x values ih =>
    have rest := ih (acc + x)
    simp only [ofList] at rest ⊢
    rw [List.map_cons, runningSumFrom, rest]
    cases values <;> simp [add_assoc]

/-- Without gaps it is the plain running sum. -/
theorem runningSum_ofList (values : List K) : runningSum (ofList values) = ofList (cumsum values) := by
  rw [runningSum, runningSumFrom_ofList, cumsum]
  simp

end Field

end StockAnomaly.Theory.Series

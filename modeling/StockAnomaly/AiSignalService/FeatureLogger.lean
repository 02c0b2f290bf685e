import Mathlib.Data.Int.Basic
import Mathlib.Data.List.Flatten

/-!
# `FeatureLogger`

Rows are collected and written as one Parquet file once there are `flush_every_n_rows` of
them. The name of the file is the clock in milliseconds, so a second flush in the same
millisecond replaces the file of the first. A flush keeps every row exactly if its name is
new: **`kept_flush_iff`**.
-/

namespace StockAnomaly.AiSignalService

/-- The directory of the log, its files by the millisecond in their names in the order they
were written, and the rows that are not written yet. -/
structure FeatureLogger (R : Type*) where
  files : List (ℤ × List R)
  rows : List R

namespace FeatureLogger

variable {R : Type*}

def empty : FeatureLogger R := ⟨[], []⟩

/-- `to_parquet` to `part-{ms}.parquet`. -/
def toParquet (files : List (ℤ × List R)) (ms : ℤ) (rows : List R) : List (ℤ × List R) :=
  files.filter (·.1 ≠ ms) ++ [(ms, rows)]

/-- `flush`, with the clock and whether the file could be written; `false` is the exception
of `to_parquet`. -/
def flush (l : FeatureLogger R) (nowMs : ℤ) (written : Bool) : FeatureLogger R × Bool :=
  if l.rows.isEmpty then (l, true)
  else if written then (⟨toParquet l.files nowMs l.rows, []⟩, true)
  else (l, false)

/-- `log`. -/
def log (flush_every : ℕ) (l : FeatureLogger R) (row : R) (nowMs : ℤ) (written : Bool) : FeatureLogger R × Bool :=
  let l := { l with rows := l.rows ++ [row] }
  if flush_every ≤ l.rows.length then l.flush nowMs written else (l, true)

/-- The rows in the files and those not written yet. -/
def contents (l : FeatureLogger R) : List R := l.files.flatMap Prod.snd ++ l.rows

/-- No file is empty. -/
def NoEmptyFile (l : FeatureLogger R) : Prop := ∀ file ∈ l.files, file.2 ≠ []

variable {l : FeatureLogger R} {nowMs : ℤ} {written : Bool}

/-- **What a flush can do.** -/
theorem flush_cases (l : FeatureLogger R) (nowMs : ℤ) (written : Bool) :
    (l.rows = [] ∧ l.flush nowMs written = (l, true)) ∨
      (l.rows ≠ [] ∧ written = true ∧
        l.flush nowMs written = (⟨toParquet l.files nowMs l.rows, []⟩, true)) ∨
      (l.rows ≠ [] ∧ written = false ∧ l.flush nowMs written = (l, false)) := by
  by_cases nothing : l.rows = []
  · exact .inl ⟨nothing, by simp [flush, nothing]⟩
  · cases written with
    | true => exact .inr (.inl ⟨nothing, rfl, by simp [flush, nothing]⟩)
    | false => exact .inr (.inr ⟨nothing, rfl, by simp [flush, nothing]⟩)

theorem noEmptyFile_toParquet (h : l.NoEmptyFile) {rows : List R} (some_row : rows ≠ []) (ms : ℤ) :
    ∀ file ∈ toParquet l.files ms rows, file.2 ≠ [] := by
  intro file mem
  rcases List.mem_append.1 mem with old | new
  · exact h file (List.mem_filter.1 old).1
  · rw [List.mem_singleton.1 new]
    exact some_row

theorem NoEmptyFile.flush (h : l.NoEmptyFile) : (l.flush nowMs written).1.NoEmptyFile := by
  rcases flush_cases l nowMs written with ⟨-, eq⟩ | ⟨some_row, -, eq⟩ | ⟨-, -, eq⟩
  · rw [eq]
    exact h
  · rw [eq]
    exact noEmptyFile_toParquet h some_row nowMs
  · rw [eq]
    exact h

theorem NoEmptyFile.log (h : l.NoEmptyFile) {flush_every : ℕ} {row : R} :
    (l.log flush_every row nowMs written).1.NoEmptyFile := by
  have appended : NoEmptyFile { l with rows := l.rows ++ [row] } := h
  unfold FeatureLogger.log
  dsimp only
  split
  · exact appended.flush
  · exact appended

/-- A replaced file takes its rows with it. -/
theorem flatMap_toParquet_iff (h : l.NoEmptyFile) (ms : ℤ) :
    (toParquet l.files ms l.rows).flatMap Prod.snd = l.contents ↔ ms ∉ l.files.map Prod.fst := by
  rw [toParquet, List.flatMap_append, List.flatMap_singleton, contents, List.append_left_inj]
  constructor
  · intro same named
    obtain ⟨file, mem, rfl⟩ := List.mem_map.1 named
    have some_row := h file mem
    obtain ⟨before, after, split⟩ := List.append_of_mem mem
    have shorter : ∀ files : List (ℤ × List R),
        ((files.filter (·.1 ≠ file.1)).flatMap Prod.snd).length ≤ (files.flatMap Prod.snd).length := fun files =>
      (List.Sublist.flatMap List.filter_sublist Prod.snd).length_le
    have lengths := congrArg List.length same
    rw [split, List.filter_append, List.filter_cons_of_neg (by simp), List.flatMap_append, List.flatMap_append,
      List.flatMap_cons, List.length_append, List.length_append, List.length_append] at lengths
    have lost := List.length_pos_iff.2 some_row
    have := shorter before
    have := shorter after
    omega
  · intro new
    congr 1
    apply List.filter_eq_self.2
    intro file mem
    apply decide_eq_true
    rintro rfl
    exact new (List.mem_map_of_mem mem)

/-- **A flush keeps every row exactly if it writes nothing or finds its name new.** -/
theorem kept_flush_iff (h : l.NoEmptyFile) : (l.flush nowMs written).1.contents = l.contents ↔
    (l.rows ≠ [] → written = true → nowMs ∉ l.files.map Prod.fst) := by
  rcases flush_cases l nowMs written with ⟨nothing, eq⟩ | ⟨some_row, done, eq⟩ | ⟨some_row, failed, eq⟩
  · rw [eq]
    exact iff_of_true rfl fun some_row => absurd nothing some_row
  · have contents : contents ⟨toParquet l.files nowMs l.rows, []⟩ =
        (toParquet l.files nowMs l.rows).flatMap Prod.snd := List.append_nil _
    rw [eq, contents, flatMap_toParquet_iff h]
    exact ⟨fun new _ _ => new, fun new => new some_row done⟩
  · rw [eq]
    refine iff_of_true rfl ?_
    rw [failed]
    nofun

theorem kept_log_iff (h : l.NoEmptyFile) {flush_every : ℕ} {row : R} :
    (l.log flush_every row nowMs written).1.contents = l.contents ++ [row] ↔
      (flush_every ≤ l.rows.length + 1 → written = true → nowMs ∉ l.files.map Prod.fst) := by
  have appended : contents { l with rows := l.rows ++ [row] } = l.contents ++ [row] :=
    (List.append_assoc ..).symm
  have unbroken : NoEmptyFile { l with rows := l.rows ++ [row] } := h
  unfold FeatureLogger.log
  dsimp only
  rw [List.length_append, List.length_singleton]
  split
  case isTrue full =>
    rw [← appended, kept_flush_iff unbroken]
    exact ⟨fun new _ => new (by simp), fun new _ => new full⟩
  case isFalse room => exact iff_of_true appended fun full => absurd full room

/-- After a flush that did not raise, nothing waits. -/
theorem flush_rows (done : (l.flush nowMs written).2 = true) : (l.flush nowMs written).1.rows = [] := by
  rcases flush_cases l nowMs written with ⟨nothing, eq⟩ | ⟨-, -, eq⟩ | ⟨-, -, eq⟩
  · rw [eq]
    exact nothing
  · rw [eq]
  · rw [eq] at done
    cases done

/-- Fewer rows than a file takes wait after a call of `log` that did not raise. -/
theorem log_rows {flush_every : ℕ} {row : R} (positive : 0 < flush_every)
    (done : (l.log flush_every row nowMs written).2 = true) :
    (l.log flush_every row nowMs written).1.rows.length < flush_every := by
  unfold FeatureLogger.log at done ⊢
  dsimp only at done ⊢
  split at done
  case isTrue full =>
    rw [if_pos full, flush_rows done]
    exact positive
  case isFalse room =>
    rw [if_neg room]
    exact Nat.lt_of_not_le room

end FeatureLogger

end StockAnomaly.AiSignalService

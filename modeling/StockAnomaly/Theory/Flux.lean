import Mathlib.Algebra.Ring.Int.Defs
import Mathlib.Data.List.Dedup
import StockAnomaly.Theory.SeriesMerge

/-!
# Tables of Flux

A table is a series of values by time, in milliseconds. `aggregateWindow` makes one record of
each window with records, at the end of the window, where the windows start at the epoch and
the range cuts off the first and the last of them. `pivot` puts the tables of several fields
side by side, one row for each time. Tables with the same times stay in step:
`pivot_of_times`.
-/

namespace StockAnomaly.Theory.Flux

variable {V F : Type*}

structure Record (V : Type*) where
  time : ℤ
  value : V
deriving DecidableEq

/-- `range(start, stop)`. -/
def range (start stop : ℤ) (table : List (Record V)) : List (Record V) :=
  table.filter fun r => start ≤ r.time ∧ r.time < stop

/-- The number of the window that a time is in. -/
def window (every time : ℤ) : ℤ := time / every

/-- The end of a window within the range. -/
def windowStop (every stop n : ℤ) : ℤ := min stop ((n + 1) * every)

/-- The windows with records. -/
def windows (every : ℤ) (times : List ℤ) : List ℤ := (times.map (window every)).dedup

/-- The values in a window. -/
def valuesIn (every n : ℤ) (table : List (Record V)) : List V :=
  (table.filter (window every ·.time = n)).map Record.value

/-- `aggregateWindow(every, fn, createEmpty: false)` of a table whose range ends at `stop`. -/
def aggregateWindow (every stop : ℤ) (fn : List V → Option V) (table : List (Record V)) : List (Record V) :=
  (windows every (table.map Record.time)).filterMap fun n =>
    (fn (valuesIn every n table)).map fun value => ⟨windowStop every stop n, value⟩

section Pivot

variable [DecidableEq F]

/-- The value of a field at a time; the last one, if there are several. -/
def cell (tables : List (F × List (Record V))) (time : ℤ) (field : F) : Option V :=
  (TimeSeries.lastAt Record.time time ((tables.filter (·.1 = field)).flatMap Prod.snd)).map Record.value

/-- `pivot(rowKey: ["_time"], columnKey: ["_field"], valueColumn: "_value")`, then
`sort(columns: ["_time"])`. -/
def pivot (tables : List (F × List (Record V))) : List (ℤ × (F → Option V)) :=
  (((tables.flatMap Prod.snd).map Record.time).dedup.mergeSort (· ≤ ·)).map fun time => (time, cell tables time)

end Pivot

section Windows

variable {every stop n m : ℤ} {times : List ℤ}

theorem mem_windows : n ∈ windows every times ↔ ∃ t ∈ times, window every t = n := by
  rw [windows, List.mem_dedup, List.mem_map]

theorem window_eq_iff (pos : 0 < every) {t : ℤ} :
    window every t = n ↔ n * every ≤ t ∧ t < (n + 1) * every := by
  rw [window, Int.ediv_eq_iff_of_pos pos, add_one_mul]

/-- Times in order are in windows in order. -/
theorem increasing_windows (pos : 0 < every) (sorted : times.Pairwise (· ≤ ·)) :
    (windows every times).Pairwise (· < ·) := by
  have le : (times.map (window every)).Pairwise (· ≤ ·) :=
    sorted.map _ fun _ _ le => Int.ediv_le_ediv pos le
  have nodup := List.nodup_dedup (times.map (window every))
  exact ((le.sublist (List.dedup_sublist _)).and nodup).imp fun ⟨le, ne⟩ => lt_of_le_of_ne le ne

/-- The ends of two windows within the range come in the order of the windows. -/
theorem windowStop_lt (pos : 0 < every) (lt : n < m) {t : ℤ} (inside : t < stop) (at_m : window every t = m) :
    windowStop every stop n < windowStop every stop m := by
  obtain ⟨low, -⟩ := (window_eq_iff pos).1 at_m
  have before : (n + 1) * every ≤ m * every := Int.mul_le_mul_of_nonneg_right lt pos.le
  rw [windowStop, windowStop, add_one_mul m]
  omega

theorem increasing_windowStop (pos : 0 < every) (sorted : times.Pairwise (· ≤ ·)) (inside : ∀ t ∈ times, t < stop) :
    ((windows every times).map (windowStop every stop)).Pairwise (· < ·) := by
  refine List.pairwise_map.2 ((increasing_windows pos sorted).imp_of_mem ?_)
  intro n m _ mem lt
  obtain ⟨t, t_mem, at_m⟩ := mem_windows.1 mem
  exact windowStop_lt pos lt (inside t t_mem) at_m

/-- A sorted list is cut in two by a condition that what comes before meets as well. -/
theorem filter_append_filter_not {l : List ℤ} {p : ℤ → Bool} (sorted : l.Pairwise (· < ·))
    (down : ∀ a b, a < b → p b = true → p a = true) : l.filter p ++ l.filter (fun a => !p a) = l := by
  induction l with
  | nil => rfl
  | cons a l ih =>
    obtain ⟨first, rest⟩ := List.pairwise_cons.1 sorted
    by_cases met : p a = true
    · rw [List.filter_cons_of_pos met, List.filter_cons_of_neg (by simp [met]), List.cons_append, ih rest]
    · have later : l.filter p = [] := by
        refine List.filter_eq_nil_iff.2 fun b mem here => ?_
        exact met (down a b (first b mem) here)
      have kept : l.filter (fun a => !p a) = l := by
        have ih := ih rest
        rwa [later, List.nil_append] at ih
      rw [List.filter_cons_of_neg met, List.filter_cons_of_pos (by simp [met]), later, kept, List.nil_append]

/-- The window lies within the range. -/
def Whole (every start stop n : ℤ) : Prop := start ≤ n * every ∧ (n + 1) * every ≤ stop

instance : Decidable (Whole every start stop n) := inferInstanceAs (Decidable (_ ∧ _))

theorem nodup_of_increasing {l : List ℤ} (increasing : l.Pairwise (· < ·)) : l.Nodup :=
  increasing.imp fun lt => lt.ne

theorem length_le_one {l : List ℤ} {a : ℤ} (nodup : l.Nodup) (same : ∀ b ∈ l, b = a) : l.length ≤ 1 := by
  rw [List.eq_replicate_of_mem same] at nodup
  exact List.nodup_replicate.1 nodup

/-- **The windows of a range** are whole ones but for the first and the last: they are the whole
windows of all times, and before and after them one window that the range cuts. -/
theorem windows_range (start stop : ℤ) (pos : 0 < every) (sorted : times.Pairwise (· ≤ ·)) :
    ∃ front back, windows every (times.filter fun t => start ≤ t ∧ t < stop) =
        front ++ (windows every times).filter (Whole every start stop ·) ++ back ∧
      front.length ≤ 1 ∧ back.length ≤ 1 ∧ (every ∣ start → front = []) ∧ (every ∣ stop → back = []) := by
  have increasing := increasing_windows pos (sorted.filter fun t => start ≤ t ∧ t < stop)
  have found {n : ℤ} : n ∈ windows every (times.filter fun t => start ≤ t ∧ t < stop) ↔
      ∃ t ∈ times, (start ≤ t ∧ t < stop) ∧ n * every ≤ t ∧ t < (n + 1) * every := by
    rw [mem_windows]
    simp only [List.mem_filter, decide_eq_true_eq, window_eq_iff pos, and_assoc]
  generalize windows every (times.filter fun t => start ≤ t ∧ t < stop) = ns at increasing found ⊢
  -- the window of the start is cut, then come the whole ones, then the window of the end
  have first : ∀ n ∈ ns.filter (· * every < start), n = window every start := by
    intro n mem
    obtain ⟨mem, cut⟩ := List.mem_filter.1 mem
    obtain ⟨t, -, ⟨inside, -⟩, -, before⟩ := found.1 mem
    exact ((window_eq_iff pos).2 ⟨(of_decide_eq_true cut).le, inside.trans_lt before⟩).symm
  have last : ∀ n ∈
        (ns.filter fun n => !decide (n * every < start)).filter (fun n => !decide ((n + 1) * every ≤ stop)),
      n = window every stop := by
    intro n mem
    obtain ⟨mem, cut⟩ := List.mem_filter.1 mem
    obtain ⟨t, -, ⟨-, inside⟩, after, -⟩ := found.1 (List.mem_filter.1 mem).1
    have cut : stop < (n + 1) * every := by simpa using cut
    exact ((window_eq_iff pos).2 ⟨after.trans inside.le, cut⟩).symm
  have middle : (ns.filter fun n => !decide (n * every < start)).filter (fun n => (n + 1) * every ≤ stop) =
      (windows every times).filter (Whole every start stop ·) := by
    refine @TimeSeries.increasing_ext ℤ ℤ _ id _ _ ((increasing.filter _).filter _)
      ((increasing_windows pos sorted).filter _) fun n => ?_
    simp only [List.mem_filter, found, mem_windows, window_eq_iff pos, decide_eq_true_eq, Bool.not_eq_true',
      decide_eq_false_iff_not, not_lt]
    unfold Whole
    constructor
    · rintro ⟨⟨⟨t, mem, -, at_n⟩, low⟩, high⟩
      exact ⟨⟨t, mem, at_n⟩, low, high⟩
    · rintro ⟨⟨t, mem, after, before⟩, low, high⟩
      exact ⟨⟨⟨t, mem, ⟨low.trans after, before.trans_le high⟩, after, before⟩, low⟩, high⟩
  refine ⟨_, _, ?_, length_le_one ((nodup_of_increasing increasing).filter _) first,
    length_le_one (((nodup_of_increasing increasing).filter _).filter _) last, ?_, ?_⟩
  · rw [← middle, List.append_assoc, filter_append_filter_not (increasing.filter _),
      filter_append_filter_not increasing]
    · intro a b lt here
      have scaled := Int.mul_le_mul_of_nonneg_right lt.le pos.le
      exact decide_eq_true (scaled.trans_lt (of_decide_eq_true here))
    · intro a b lt here
      have scaled := Int.mul_le_mul_of_nonneg_right (Int.add_le_add_right lt.le 1) pos.le
      exact decide_eq_true (scaled.trans (of_decide_eq_true here))
  · intro aligned
    refine List.eq_nil_iff_forall_not_mem.2 fun n mem => ?_
    have cut := of_decide_eq_true (List.mem_filter.1 mem).2
    rw [first n mem, window, Int.ediv_mul_cancel aligned] at cut
    exact lt_irrefl _ cut
  · intro aligned
    refine List.eq_nil_iff_forall_not_mem.2 fun n mem => ?_
    obtain ⟨t, -, ⟨-, inside⟩, after, -⟩ := found.1 (List.mem_filter.1 (List.mem_filter.1 mem).1).1
    rw [last n mem, window, Int.ediv_mul_cancel aligned] at after
    exact lt_irrefl _ (after.trans_lt inside)

/-- A window with records has a value. -/
theorem aggregateWindow_eq {fn : List V → Option V} {table : List (Record V)} {value : ℤ → V}
    (each : ∀ n ∈ windows every (table.map Record.time), fn (valuesIn every n table) = some (value n)) :
    aggregateWindow every stop fn table =
      (windows every (table.map Record.time)).map fun n => ⟨windowStop every stop n, value n⟩ := by
  have some_each : ∀ n ∈ windows every (table.map Record.time),
      ((fn (valuesIn every n table)).map fun v => (⟨windowStop every stop n, v⟩ : Record V)) =
        some ⟨windowStop every stop n, value n⟩ := by
    intro n mem
    rw [each n mem]
    rfl
  rw [aggregateWindow, List.filterMap_congr some_each]
  exact congrFun List.filterMap_eq_map _

/-- The window of a record has values. -/
theorem valuesIn_ne_nil {table : List (Record V)} (mem : n ∈ windows every (table.map Record.time)) :
    valuesIn every n table ≠ [] := by
  obtain ⟨t, t_mem, at_n⟩ := mem_windows.1 mem
  obtain ⟨r, r_mem, rfl⟩ := List.mem_map.1 t_mem
  apply List.ne_nil_of_mem (a := r.value)
  exact List.mem_map_of_mem (List.mem_filter.2 ⟨r_mem, decide_eq_true at_n⟩)

end Windows

section Pivot

variable {ι : Type*} [DecidableEq F] {fields : List F} {ns : List ι} {timeOf : ι → ℤ} {value : F → ι → V}

/-- The table of a field. -/
theorem filter_fields (distinct : fields.Nodup) (g : F → List (Record V)) (field : F) :
    ((fields.map fun f => (f, g f)).filter (·.1 = field)).flatMap Prod.snd =
      if field ∈ fields then g field else [] := by
  rw [List.filter_map, List.flatMap_map]
  have same : fields.filter ((fun p : F × List (Record V) => decide (p.1 = field)) ∘ fun f => (f, g f)) =
      fields.filter (· = field) := rfl
  rw [same, List.filter_eq]
  split
  · rename_i mem
    rw [List.count_eq_one_of_mem distinct mem]
    exact List.append_nil _
  · rename_i not_mem
    rw [List.count_eq_zero_of_not_mem not_mem]
    rfl

theorem dedup_mergeSort {times sorted : List ℤ} (increasing : sorted.Pairwise (· < ·))
    (mem : ∀ t, t ∈ times ↔ t ∈ sorted) : times.dedup.mergeSort (· ≤ ·) = sorted := by
  have le : (times.dedup.mergeSort (· ≤ ·)).Pairwise (· ≤ ·) :=
    List.pairwise_mergeSort' (· ≤ ·) times.dedup
  have nodup : (times.dedup.mergeSort (· ≤ ·)).Nodup :=
    (List.mergeSort_perm _ _).nodup_iff.2 (List.nodup_dedup times)
  refine @TimeSeries.increasing_ext ℤ ℤ _ id _ _ ?_ increasing ?_
  · exact (le.and nodup).imp fun ⟨le, ne⟩ => lt_of_le_of_ne le ne
  · intro t
    rw [List.mem_mergeSort, List.mem_dedup, mem]

/-- **Tables with the same times are put side by side.** -/
theorem pivot_of_times (some_field : fields ≠ []) (distinct : fields.Nodup)
    (increasing : (ns.map timeOf).Pairwise (· < ·)) :
    pivot (fields.map fun f => (f, ns.map fun n => (⟨timeOf n, value f n⟩ : Record V))) =
      ns.map fun n => (timeOf n, fun f => if f ∈ fields then some (value f n) else none) := by
  have times : (((fields.map fun f => (f, ns.map fun n => (⟨timeOf n, value f n⟩ : Record V))).flatMap Prod.snd).map
      Record.time).dedup.mergeSort (· ≤ ·) = ns.map timeOf := by
    apply dedup_mergeSort increasing
    intro t
    obtain ⟨f, mem⟩ := List.exists_mem_of_ne_nil fields some_field
    constructor
    · intro there
      obtain ⟨r, r_mem, rfl⟩ := List.mem_map.1 there
      obtain ⟨table, table_mem, r_mem⟩ := List.mem_flatMap.1 r_mem
      obtain ⟨f, -, rfl⟩ := List.mem_map.1 table_mem
      obtain ⟨n, n_mem, rfl⟩ := List.mem_map.1 r_mem
      exact List.mem_map_of_mem n_mem
    · intro there
      obtain ⟨n, n_mem, rfl⟩ := List.mem_map.1 there
      refine List.mem_map.2 ⟨⟨timeOf n, value f n⟩, ?_, rfl⟩
      exact List.mem_flatMap.2 ⟨_, List.mem_map_of_mem mem, List.mem_map_of_mem n_mem⟩
  rw [pivot, times, List.map_map]
  apply List.map_congr_left
  intro n mem
  refine Prod.ext rfl (funext fun f => ?_)
  change Option.map Record.value (TimeSeries.lastAt Record.time (timeOf n) _) =
    if f ∈ fields then some (value f n) else none
  rw [filter_fields distinct]
  by_cases known : f ∈ fields
  · have sorted : TimeSeries.Increasing Record.time (ns.map fun n => (⟨timeOf n, value f n⟩ : Record V)) := by
      rw [TimeSeries.Increasing, List.pairwise_map]
      exact List.pairwise_map.1 increasing
    have found := (TimeSeries.lastAt_of_increasing sorted).2 ⟨List.mem_map_of_mem mem, rfl⟩
    rw [if_pos known, if_pos known, found, Option.map_some]
  · rw [if_neg known, if_neg known]
    rfl

end Pivot

end StockAnomaly.Theory.Flux

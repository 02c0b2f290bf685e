import Mathlib.Data.List.Induction
import Mathlib.Data.List.Nodup
import Mathlib.Data.List.Perm.Subperm
import Mathlib.Data.Option.Basic

/-!
# Tables with a primary key

A `Table` is a list of rows with distinct keys. `save` replaces the row with the key of the
new one or adds it, and `saveAll` does so for one row after another, so that of several rows
with one key the last stays: `find_saveAll`. Writes that leave what is there alone only
extend a table, and a table is determined by what it finds: `mem_iff_find`.
-/

namespace StockAnomaly.Theory

/-- Rows with distinct keys. -/
structure Table {κ α : Type*} (key : α → κ) where
  rows : List α
  unique : (rows.map key).Nodup

namespace Table

variable {κ α : Type*} [DecidableEq κ] {key : α → κ}

def empty : Table key := ⟨[], List.nodup_nil⟩

def find (t : Table key) (k : κ) : Option α := t.rows.find? fun x => key x = k

/-- The row is written, in the place of the one with its key. -/
def save (t : Table key) (x : α) : Table key where
  rows := t.rows.filter (key · ≠ key x) ++ [x]
  unique := by
    have others : ((t.rows.filter (key · ≠ key x)).map key).Nodup := (List.filter_sublist.map key).nodup t.unique
    rw [List.map_append, List.nodup_append]
    refine ⟨others, List.nodup_singleton _, ?_⟩
    intro k mem k' mem' same
    obtain ⟨y, kept, rfl⟩ := List.mem_map.1 mem
    rw [List.map_singleton, List.mem_singleton] at mem'
    exact of_decide_eq_true (List.mem_filter.1 kept).2 (same.trans mem')

def saveAll (t : Table key) (xs : List α) : Table key := xs.foldl save t

/-- `t'` finds what `t` finds, and maybe more. -/
def Extends (t' t : Table key) : Prop := ∀ k x, t.find k = some x → t'.find k = some x

variable {t t' : Table key} {k : κ} {x : α}

theorem mem_iff_find : x ∈ t.rows ↔ t.find (key x) = some x := by
  constructor
  · intro mem
    obtain ⟨y, found⟩ : ∃ y, t.find (key x) = some y := by
      rw [← Option.isSome_iff_exists, find, List.find?_isSome]
      exact ⟨x, mem, decide_eq_true rfl⟩
    have same : key y = key x := by simpa using List.find?_some found
    rw [found, List.inj_on_of_nodup_map t.unique (List.mem_of_find?_eq_some found) mem same]
  · exact fun found => List.mem_of_find?_eq_some found

theorem mem_of_find (found : t.find k = some x) : x ∈ t.rows := List.mem_of_find?_eq_some found

@[simp] theorem find_empty : (empty : Table key).find k = none := rfl

theorem find_save : (t.save x).find k = if k = key x then some x else t.find k := by
  rw [find, save, List.find?_append, List.find?_filter]
  split_ifs with same
  · subst same
    have no_other : (t.rows.find? fun y => decide (key y ≠ key x) = true ∧ decide (key y = key x) = true) = none := by
      simp
    rw [no_other, Option.none_or, List.find?_singleton, decide_eq_true rfl, if_pos rfl]
  · have not_new : [x].find? (fun y => decide (key y = k)) = none := by
      simpa using fun eq => same eq.symm
    rw [not_new, Option.or_none, find]
    congr 1
    funext y
    by_cases there : key y = k
    · simp [there, same]
    · simp [there]

theorem find_save_of_ne (other : k ≠ key x) : (t.save x).find k = t.find k := by
  rw [find_save, if_neg other]

/-- **Of the rows written with one key, the last stays.** -/
theorem find_saveAll (xs : List α) :
    (t.saveAll xs).find k = (xs.filter (key · = k)).getLast?.or (t.find k) := by
  induction xs using List.reverseRecOn with
  | nil => rfl
  | append_singleton xs x ih =>
    rw [saveAll, List.foldl_append] at *
    show (save _ x).find k = _
    rw [find_save, ih, List.filter_append]
    by_cases same : key x = k
    · rw [if_pos same.symm, List.filter_singleton, decide_eq_true same, cond_true, List.getLast?_concat]
      rfl
    · rw [if_neg (Ne.symm same), List.filter_singleton, decide_eq_false same, cond_false, List.append_nil]

theorem Extends.refl (t : Table key) : t.Extends t := fun _ _ found => found

theorem Extends.trans {t'' : Table key} (later : t''.Extends t') (first : t'.Extends t) : t''.Extends t :=
  fun k x found => later k x (first k x found)

theorem Extends.rows_subset (h : t'.Extends t) : t.rows ⊆ t'.rows := by
  intro x mem
  exact mem_iff_find.2 (h _ _ (mem_iff_find.1 mem))

theorem Extends.length_le (h : t'.Extends t) : t.rows.length ≤ t'.rows.length :=
  (t.unique.of_map key).length_le_of_subset h.rows_subset

/-- What is found is a function of what was found before, which stays. -/
theorem extends_of_or {added : κ → Option α} (or : ∀ k, t'.find k = (t.find k).or (added k)) : t'.Extends t := by
  intro k x found
  rw [or, found, Option.some_or]

end Table

end StockAnomaly.Theory

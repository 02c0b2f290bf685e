import Mathlib.Data.List.DropRight
import Mathlib.Data.List.Pairwise
import Mathlib.Order.Lattice

/-!
# Sorted series with one entry per key

`upsert` writes an entry into a list sorted by key, over the entry with the same key if
there is one. The list stays sorted, with one entry per key (`pairwise_upsert`), and
`mem_of_mem_upsert` and `mem_upsert_of_mem` say what it holds.
-/

namespace StockAnomaly.Theory.TimeSeries

variable {α κ : Type*} [LinearOrder κ] (key : α → κ)

/-- `a` at its place in the sorted list, instead of the entry with its key. -/
def upsert (a : α) : List α → List α
  | [] => [a]
  | b :: l => if key a < key b then a :: b :: l else if key a = key b then a :: l else b :: upsert a l

/-- Strictly increasing in the key. -/
def Increasing (l : List α) : Prop := l.Pairwise fun a b => key a < key b

variable {key} {a x : α} {l : List α}

theorem mem_of_mem_upsert (mem : x ∈ upsert key a l) : x = a ∨ x ∈ l := by
  induction l with
  | nil => exact .inl (List.mem_singleton.1 mem)
  | cons b l ih =>
    rw [upsert] at mem
    split_ifs at mem with before same
    · exact List.mem_cons.1 mem
    · exact (List.mem_cons.1 mem).imp_right (List.mem_cons_of_mem b)
    · obtain rfl | later := List.mem_cons.1 mem
      · exact .inr List.mem_cons_self
      · exact (ih later).imp_right (List.mem_cons_of_mem b)

theorem self_mem_upsert (a : α) (l : List α) : a ∈ upsert key a l := by
  induction l with
  | nil => exact List.mem_singleton_self a
  | cons b l ih =>
    rw [upsert]
    split_ifs
    · exact List.mem_cons_self
    · exact List.mem_cons_self
    · exact List.mem_cons_of_mem b ih

/-- A write keeps the entries with other keys. -/
theorem mem_upsert_of_mem (mem : x ∈ l) (other : key x ≠ key a) : x ∈ upsert key a l := by
  induction l with
  | nil => cases mem
  | cons b l ih =>
    rw [upsert]
    split_ifs with before same
    · exact List.mem_cons_of_mem a mem
    · obtain rfl | later := List.mem_cons.1 mem
      · exact absurd same.symm other
      · exact List.mem_cons_of_mem a later
    · obtain rfl | later := List.mem_cons.1 mem
      · exact List.mem_cons_self
      · exact List.mem_cons_of_mem b (ih later)

/-- **A write keeps the series sorted with one entry per key.** -/
theorem pairwise_upsert (h : Increasing key l) : Increasing key (upsert key a l) := by
  induction l with
  | nil => exact List.pairwise_singleton _ a
  | cons b l ih =>
    obtain ⟨first, rest⟩ := List.pairwise_cons.1 h
    rw [upsert]
    split_ifs with before same
    · refine List.pairwise_cons.2 ⟨?_, h⟩
      intro c mem
      obtain rfl | later := List.mem_cons.1 mem
      · exact before
      · exact before.trans (first c later)
    · refine List.pairwise_cons.2 ⟨?_, rest⟩
      intro c mem
      rw [same]
      exact first c mem
    · refine List.pairwise_cons.2 ⟨?_, ih rest⟩
      intro c mem
      obtain rfl | old := mem_of_mem_upsert mem
      · exact lt_of_le_of_ne (not_lt.1 before) (Ne.symm same)
      · exact first c old

theorem increasing_snoc : Increasing key (l ++ [a]) ↔ Increasing key l ∧ ∀ x ∈ l, key x < key a := by
  simp [Increasing, List.pairwise_append]

/-- No entry lies after the last one. -/
theorem le_getLast {last : α} (h : Increasing key l) (ends : l.getLast? = some last) (mem : x ∈ l) :
    key x ≤ key last := by
  obtain ⟨front, rfl⟩ := List.getLast?_eq_some_iff.1 ends
  obtain old | rfl := (List.mem_append.1 mem).imp_right List.mem_singleton.1
  · exact ((increasing_snoc.1 h).2 x old).le
  · exact le_rfl

/-- What is kept of a sorted series is sorted. -/
theorem increasing_rtake (h : Increasing key l) (n : ℕ) : Increasing key (l.rtake n) :=
  h.sublist (List.drop_sublist _ _)

/-- A bound on the entries that are kept is one on all, since the last entry is kept. -/
theorem forall_mem_rtake {n : ℕ} {bound : κ} (h : Increasing key l) (some_entry : n ≠ 0) :
    (∀ x ∈ l.rtake n, key x < bound) ↔ ∀ x ∈ l, key x < bound := by
  constructor
  · intro kept x mem
    obtain ⟨front, last, rfl⟩ := (List.eq_nil_or_concat' l).resolve_left (List.ne_nil_of_mem mem)
    obtain ⟨m, rfl⟩ := Nat.exists_eq_succ_of_ne_zero some_entry
    have last_kept : last ∈ (front ++ [last]).rtake (m + 1) := by
      rw [List.rtake_concat_succ]
      exact List.mem_append_right _ (List.mem_singleton_self last)
    exact (le_getLast h (by simp) mem).trans_lt (kept last last_kept)
  · exact fun all x mem => all x (List.mem_of_mem_drop mem)

/-- A bounded series may be cut before every entry or once at the end. -/
theorem rtake_rtake_snoc (l : List α) (a : α) (n : ℕ) : (l.rtake n ++ [a]).rtake n = (l ++ [a]).rtake n := by
  cases n with
  | zero => simp
  | succ n =>
    rw [List.rtake_concat_succ, List.rtake_concat_succ]
    congr 1
    rw [List.rtake_eq_reverse_take_reverse, List.rtake_eq_reverse_take_reverse, List.rtake_eq_reverse_take_reverse,
      List.reverse_reverse, List.take_take, Nat.min_eq_left (Nat.le_succ n)]

theorem map_rtake {β : Type*} (f : α → β) (l : List α) (n : ℕ) : (l.rtake n).map f = (l.map f).rtake n := by
  rw [List.rtake, List.rtake, List.map_drop, List.length_map]

/-- A bounded series that keeps at least two entries is sorted after one more exactly if the
new entry comes after all old ones, those included that are dropped. -/
theorem increasing_rtake_snoc {n : ℕ} (h : Increasing key l) (two : 2 ≤ n) :
    Increasing key ((l ++ [a]).rtake n) ↔ ∀ x ∈ l, key x < key a := by
  obtain ⟨m, rfl⟩ : ∃ m, n = m + 1 := ⟨n - 1, by omega⟩
  rw [List.rtake_concat_succ, increasing_snoc, forall_mem_rtake h (by omega)]
  exact and_iff_right (increasing_rtake h m)

/-- The last entry stays. -/
theorem getLast?_rtake_snoc {n : ℕ} (l : List α) (a : α) (some_entry : n ≠ 0) :
    ((l ++ [a]).rtake n).getLast? = some a := by
  obtain ⟨m, rfl⟩ := Nat.exists_eq_succ_of_ne_zero some_entry
  simp [List.rtake_concat_succ]

end StockAnomaly.Theory.TimeSeries

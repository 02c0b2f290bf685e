import Mathlib.Data.Finset.Card
import Mathlib.Data.List.Sort
import StockAnomaly.Theory.TimeSeries

/-!
# Merging series

`collect` puts entries in any order into a series, a later entry instead of an earlier one with
its key: it holds the last entry of each key (`mem_collect`). A map in insertion order whose
values are sorted afterwards comes to the same (`sort_mapValues`).
-/

namespace StockAnomaly.Theory.TimeSeries

section JsMap

variable {α κ : Type*} [DecidableEq κ] (key : α → κ)

/-- `map.set(key(a), a)` on the values of a map in insertion order. -/
def mapSet (a : α) : List α → List α
  | [] => [a]
  | b :: m => if key b = key a then a :: m else b :: mapSet a m

/-- The values of a map in which all entries were set in turn. -/
def mapValues (l : List α) : List α := l.foldl (fun m a => mapSet key a m) []

variable {key} {a x : α} {l m : List α}

theorem mem_of_mem_mapSet (mem : x ∈ mapSet key a m) : x = a ∨ x ∈ m := by
  induction m with
  | nil => exact .inl (List.mem_singleton.1 mem)
  | cons b m ih =>
    rw [mapSet] at mem
    split_ifs at mem with same
    · exact (List.mem_cons.1 mem).imp_right (List.mem_cons_of_mem b)
    · obtain rfl | later := List.mem_cons.1 mem
      · exact .inr List.mem_cons_self
      · exact (ih later).imp_right (List.mem_cons_of_mem b)

theorem mapValues_snoc (l : List α) (a : α) : mapValues key (l ++ [a]) = mapSet key a (mapValues key l) := by
  rw [mapValues, List.foldl_append]
  rfl

/-- The values of a map are among the entries. -/
theorem mem_of_mem_mapValues (mem : x ∈ mapValues key l) : x ∈ l := by
  induction l using List.reverseRecOn with
  | nil => cases mem
  | append_singleton l a ih =>
    rw [mapValues_snoc] at mem
    obtain rfl | old := mem_of_mem_mapSet mem
    · simp
    · exact List.mem_append_left _ (ih old)

theorem mem_mapSet_iff (distinct : m.Pairwise fun a b => key a ≠ key b) :
    x ∈ mapSet key a m ↔ x = a ∨ x ∈ m ∧ key x ≠ key a := by
  induction m with
  | nil => simp [mapSet]
  | cons b m ih =>
    obtain ⟨first, rest⟩ := List.pairwise_cons.1 distinct
    rw [mapSet]
    split_ifs with same
    · have others : x ∈ m → key x ≠ key a := fun mem eq => first x mem (same.trans eq.symm)
      by_cases self : x = b
      · subst self
        simp only [List.mem_cons, same, ne_eq, not_true_eq_false, and_false, or_false, or_iff_left_iff_imp]
        exact fun mem => absurd same (others mem)
      · simp only [List.mem_cons, self, false_or]
        exact or_congr_right (and_iff_left_of_imp others).symm
    · simp only [List.mem_cons, ih rest]
      by_cases self : x = b
      · simp [self, same]
      · simp [self]

theorem distinct_mapSet (distinct : m.Pairwise fun a b => key a ≠ key b) :
    (mapSet key a m).Pairwise fun a b => key a ≠ key b := by
  induction m with
  | nil => exact List.pairwise_singleton _ a
  | cons b m ih =>
    obtain ⟨first, rest⟩ := List.pairwise_cons.1 distinct
    rw [mapSet]
    split_ifs with same
    · exact List.pairwise_cons.2 ⟨fun c mem => same ▸ first c mem, rest⟩
    · refine List.pairwise_cons.2 ⟨?_, ih rest⟩
      intro c mem
      obtain rfl | old := mem_of_mem_mapSet mem
      · exact same
      · exact first c old

/-- A map of images has the images of the map. -/
theorem mapSet_map {β : Type*} (f : β → α) (b : β) (m : List β) :
    mapSet key (f b) (m.map f) = (mapSet (fun b => key (f b)) b m).map f := by
  induction m with
  | nil => rfl
  | cons c m ih =>
    simp only [mapSet, List.map_cons]
    split_ifs
    · rfl
    · rw [List.map_cons, ih]

theorem mapValues_map {β : Type*} (f : β → α) (l : List β) :
    mapValues key (l.map f) = (mapValues (fun b => key (f b)) l).map f := by
  induction l using List.reverseRecOn with
  | nil => rfl
  | append_singleton l b ih =>
    rw [List.map_append, List.map_singleton, mapValues_snoc, mapValues_snoc, ih, mapSet_map]

/-- Only the equality of the keys matters. -/
theorem mapSet_congr {κ' : Type*} [DecidableEq κ'] {key' : α → κ'} (same : ∀ b ∈ m, key b = key a ↔ key' b = key' a) :
    mapSet key a m = mapSet key' a m := by
  induction m with
  | nil => rfl
  | cons b m ih =>
    obtain ⟨first, rest⟩ := List.forall_mem_cons.1 same
    simp only [mapSet, first, ih rest]

theorem mapValues_congr {κ' : Type*} [DecidableEq κ'] {key' : α → κ'}
    (same : ∀ a ∈ l, ∀ b ∈ l, key a = key b ↔ key' a = key' b) : mapValues key l = mapValues key' l := by
  induction l using List.reverseRecOn with
  | nil => rfl
  | append_singleton l a ih =>
    have last : a ∈ l ++ [a] := List.mem_append_right l (List.mem_singleton_self a)
    rw [mapValues_snoc, mapValues_snoc, ← ih fun b hb c hc =>
      same b (List.mem_append_left _ hb) c (List.mem_append_left _ hc)]
    exact mapSet_congr fun b mem => same b (List.mem_append_left _ (mem_of_mem_mapValues mem)) a last

theorem distinct_mapValues (l : List α) : (mapValues key l).Pairwise fun a b => key a ≠ key b := by
  induction l using List.reverseRecOn with
  | nil => exact List.Pairwise.nil
  | append_singleton l a ih =>
    rw [mapValues_snoc]
    exact distinct_mapSet ih

end JsMap

section Series

variable {α κ : Type*} [LinearOrder κ] (key : α → κ)

/-- The entries as a series. -/
def collect (l : List α) : List α := l.foldl (fun m a => upsert key a m) []

/-- The last entry with a key. -/
def lastAt (k : κ) (l : List α) : Option α := (l.filter (key · = k)).getLast?

variable {key} {a x : α} {k : κ} {l m xs ys : List α}

theorem increasing_ext (hl : Increasing key l) (hm : Increasing key m) (mem : ∀ x, x ∈ l ↔ x ∈ m) : l = m := by
  have irrefl : Std.Irrefl fun a b => key a < key b := ⟨fun a => lt_irrefl (key a)⟩
  have antisymm : Std.Antisymm fun a b => key a < key b := ⟨fun a b ab ba => absurd ab ba.not_gt⟩
  exact List.Pairwise.eq_of_mem_iff hl hm mem

/-- Entries of a series with one key are one. -/
theorem Increasing.eq_of_key {y : α} (h : Increasing key l) (hx : x ∈ l) (hy : y ∈ l) (same : key x = key y) :
    x = y := by
  induction l with
  | nil => cases hx
  | cons b l ih =>
    obtain ⟨first, rest⟩ := List.pairwise_cons.1 h
    obtain rfl | x_later := List.mem_cons.1 hx
    · obtain rfl | y_later := List.mem_cons.1 hy
      · rfl
      · exact absurd same (first y y_later).ne
    · obtain rfl | y_later := List.mem_cons.1 hy
      · exact absurd same (first x x_later).ne'
      · exact ih rest x_later y_later

theorem mem_upsert_iff (h : Increasing key l) : x ∈ upsert key a l ↔ x = a ∨ x ∈ l ∧ key x ≠ key a := by
  constructor
  · intro mem
    by_cases new : x = a
    · exact .inl new
    · refine .inr ⟨(mem_of_mem_upsert mem).resolve_left new, fun same => new ?_⟩
      exact (pairwise_upsert h).eq_of_key mem (self_mem_upsert a l) same
  · rintro (rfl | ⟨mem, other⟩)
    · exact self_mem_upsert x l
    · exact mem_upsert_of_mem mem other

theorem collect_snoc (l : List α) (a : α) : collect key (l ++ [a]) = upsert key a (collect key l) := by
  rw [collect, List.foldl_append]
  rfl

/-- What the key does not depend on may be forgotten before or after. -/
theorem map_upsert {β : Type*} {f : α → β} {key' : β → κ} (same : ∀ a, key' (f a) = key a) (a : α) (l : List α) :
    (upsert key a l).map f = upsert key' (f a) (l.map f) := by
  induction l with
  | nil => rfl
  | cons b l ih =>
    simp only [upsert, List.map_cons, same]
    split_ifs
    · rfl
    · rfl
    · rw [List.map_cons, ih]

theorem map_collect {β : Type*} {f : α → β} {key' : β → κ} (same : ∀ a, key' (f a) = key a) (l : List α) :
    (collect key l).map f = collect key' (l.map f) := by
  induction l using List.reverseRecOn with
  | nil => rfl
  | append_singleton l a ih =>
    rw [collect_snoc, map_upsert same, ih, List.map_append, List.map_singleton, collect_snoc]

theorem increasing_collect (l : List α) : Increasing key (collect key l) := by
  induction l using List.reverseRecOn with
  | nil => exact List.Pairwise.nil
  | append_singleton l a ih =>
    rw [collect_snoc]
    exact pairwise_upsert ih

theorem lastAt_snoc : lastAt key k (l ++ [a]) = if key a = k then some a else lastAt key k l := by
  rw [lastAt, List.filter_append]
  split_ifs with same
  · simp [same]
  · simp [same, lastAt]

theorem lastAt_append : lastAt key k (xs ++ ys) = (lastAt key k ys).or (lastAt key k xs) := by
  rw [lastAt, List.filter_append, List.getLast?_append]
  rfl

theorem key_of_lastAt (h : lastAt key k l = some x) : key x = k := by
  have mem := List.mem_of_getLast? h
  simpa using (List.mem_filter.1 mem).2

/-- The last entry with a key has no other one of that key behind it. -/
theorem lastAt_eq_some_iff :
    lastAt key k l = some x ↔ key x = k ∧ ∃ pre post, l = pre ++ x :: post ∧ ∀ y ∈ post, key y ≠ k := by
  constructor
  · intro last
    refine ⟨key_of_lastAt last, ?_⟩
    induction l using List.reverseRecOn with
    | nil => cases last
    | append_singleton l a ih =>
      rw [lastAt_snoc] at last
      split_ifs at last with same
      · cases last
        exact ⟨l, [], rfl, by simp⟩
      · obtain ⟨pre, post, rfl, others⟩ := ih last
        refine ⟨pre, post ++ [a], by simp, ?_⟩
        intro y mem
        obtain old | new := List.mem_append.1 mem
        · exact others y old
        · rwa [List.mem_singleton.1 new]
  · rintro ⟨rfl, pre, post, rfl, others⟩
    have rest : post.filter (fun y => key y = key x) = [] := List.filter_eq_nil_iff.2 (by simpa using others)
    simp [lastAt, rest]

/-- It is also the last one with its own finer key. -/
theorem lastAt_of_coarser {κ' : Type*} [LinearOrder κ'] {fine : α → κ'}
    (coarser : ∀ y, fine y = fine x → key y = key x) (last : lastAt key k l = some x) :
    lastAt fine (fine x) l = some x := by
  obtain ⟨rfl, pre, post, split, others⟩ := lastAt_eq_some_iff.1 last
  exact lastAt_eq_some_iff.2 ⟨rfl, pre, post, split, fun y mem same => others y mem (coarser y same)⟩

/-- **A collected series holds the last entry of each key.** -/
theorem mem_collect : x ∈ collect key l ↔ lastAt key (key x) l = some x := by
  induction l using List.reverseRecOn with
  | nil => simp [collect, lastAt]
  | append_singleton l a ih =>
    rw [collect_snoc, mem_upsert_iff (increasing_collect l), lastAt_snoc, ih]
    by_cases same : key a = key x
    · simp [same, eq_comm]
    · have ne : x ≠ a := by
        rintro rfl
        exact same rfl
      simp [same, ne, Ne.symm same]

theorem lastAt_of_increasing (h : Increasing key l) : lastAt key k l = some x ↔ x ∈ l ∧ key x = k := by
  constructor
  · intro last
    exact ⟨(List.mem_filter.1 (List.mem_of_getLast? last)).1, key_of_lastAt last⟩
  · rintro ⟨mem, rfl⟩
    have kept : x ∈ l.filter (key · = key x) := List.mem_filter.2 ⟨mem, by simp⟩
    rw [lastAt, List.getLast?_eq_some_getLast (List.ne_nil_of_mem kept)]
    have last := List.mem_filter.1 (List.getLast_mem (List.ne_nil_of_mem kept))
    exact congrArg some (h.eq_of_key last.1 mem (by simpa using last.2))

theorem lastAt_collect : lastAt key k (collect key l) = lastAt key k l := by
  apply Option.ext
  intro x
  rw [lastAt_of_increasing (increasing_collect l), mem_collect]
  constructor
  · rintro ⟨last, rfl⟩
    exact last
  · intro last
    obtain rfl := key_of_lastAt last
    exact ⟨last, rfl⟩

/-- What is collected already may be collected again with the rest. -/
theorem collect_append_collect (xs ys : List α) : collect key (xs ++ collect key ys) = collect key (xs ++ ys) := by
  apply increasing_ext (increasing_collect _) (increasing_collect _)
  intro x
  rw [mem_collect, mem_collect, lastAt_append, lastAt_append, lastAt_collect]

/-- Every key stays. -/
theorem exists_mem_collect (mem : x ∈ l) : ∃ y ∈ collect key l, key y = key x := by
  have kept : x ∈ l.filter (key · = key x) := List.mem_filter.2 ⟨mem, by simp⟩
  have last : lastAt key (key x) l = some _ := List.getLast?_eq_some_getLast (List.ne_nil_of_mem kept)
  have same := key_of_lastAt last
  refine ⟨_, mem_collect.2 ?_, same⟩
  rw [same]
  exact last

theorem mem_of_mem_collect (mem : x ∈ collect key l) : x ∈ l :=
  (List.mem_filter.1 (List.mem_of_getLast? (mem_collect.1 mem))).1

/-- A collected series is as long as there are keys. -/
theorem length_collect (l : List α) : (collect key l).length = (l.map key).toFinset.card := by
  have distinct : ((collect key l).map key).Nodup := List.pairwise_map.2 ((increasing_collect l).imp ne_of_lt)
  have keys : (l.map key).toFinset = ((collect key l).map key).toFinset := by
    ext k
    simp only [List.mem_toFinset, List.mem_map]
    constructor
    · rintro ⟨x, mem, rfl⟩
      exact exists_mem_collect mem
    · rintro ⟨x, mem, rfl⟩
      exact ⟨x, mem_of_mem_collect mem, rfl⟩
  rw [keys, List.toFinset_card_of_nodup distinct, List.length_map]

/-- Entries before a series that has all their keys do not show. -/
theorem collect_append_of_keys (h : Increasing key ys) (keys : ∀ x ∈ xs, ∃ y ∈ ys, key y = key x) :
    collect key (xs ++ ys) = ys := by
  apply increasing_ext (increasing_collect _) h
  intro x
  rw [mem_collect, lastAt_append]
  constructor
  · intro last
    rcases Option.or_eq_some_iff.1 last with last | ⟨none_last, first⟩
    · exact ((lastAt_of_increasing h).1 last).1
    · obtain ⟨y, mem, same⟩ := keys x (List.mem_filter.1 (List.mem_of_getLast? first)).1
      rw [(lastAt_of_increasing h).2 ⟨mem, same⟩] at none_last
      cases none_last
  · intro mem
    rw [(lastAt_of_increasing h).2 ⟨mem, rfl⟩]
    rfl

/-- An entry with a new key makes the series longer. -/
theorem length_lt_collect (distinct : (ys.map key).Nodup) (mem : x ∈ xs) (new : ∀ y ∈ ys, key y ≠ key x) :
    ys.length < (collect key (xs ++ ys)).length := by
  have all_distinct : (key x :: ys.map key).Nodup := by
    refine List.nodup_cons.2 ⟨?_, distinct⟩
    intro old
    obtain ⟨y, y_mem, same⟩ := List.mem_map.1 old
    exact new y y_mem same
  have kept : key x :: ys.map key ⊆ (collect key (xs ++ ys)).map key := by
    intro k k_mem
    obtain ⟨z, z_mem, rfl⟩ : ∃ z ∈ xs ++ ys, key z = k := by
      obtain rfl | old := List.mem_cons.1 k_mem
      · exact ⟨x, List.mem_append_left _ mem, rfl⟩
      · obtain ⟨y, y_mem, same⟩ := List.mem_map.1 old
        exact ⟨y, List.mem_append_right _ y_mem, same⟩
    obtain ⟨w, w_mem, same⟩ := @exists_mem_collect _ _ _ key _ _ z_mem
    exact List.mem_map.2 ⟨w, w_mem, same⟩
  have length := (List.subperm_of_subset all_distinct kept).length_le
  simpa [Nat.succ_le_iff] using length

/-- Writes at or after the end of a series replace its last entry or come after it. -/
theorem upsert_of_le (h : Increasing key l) (le : ∀ x ∈ l, key x ≤ k) :
    ∃ pre, (∀ x ∈ pre, key x < k) ∧ ∀ b, key b = k → upsert key b l = pre ++ [b] := by
  induction l with
  | nil => exact ⟨[], by simp, fun b _ => rfl⟩
  | cons c l ih =>
    obtain ⟨first, rest⟩ := List.pairwise_cons.1 h
    obtain ⟨pre, before, ends⟩ := ih rest fun x mem => le x (List.mem_cons_of_mem c mem)
    rcases (le c List.mem_cons_self).lt_or_eq with lt | rfl
    · refine ⟨c :: pre, List.forall_mem_cons.2 ⟨lt, before⟩, ?_⟩
      rintro b rfl
      rw [upsert, if_neg lt.not_gt, if_neg lt.ne', ends b rfl, List.cons_append]
    · have alone : l = [] := by
        apply List.eq_nil_iff_forall_not_mem.2
        intro x mem
        exact absurd (first x mem) (le x (List.mem_cons_of_mem c mem)).not_gt
      subst alone
      refine ⟨[], by simp, ?_⟩
      intro b same
      rw [upsert, if_neg same.not_lt, if_pos same]
      rfl

/-- A write after the end. -/
theorem upsert_of_lt (h : Increasing key l) (lt : ∀ x ∈ l, key x < key a) : upsert key a l = l ++ [a] := by
  apply increasing_ext (pairwise_upsert h) (increasing_snoc.2 ⟨h, lt⟩)
  intro x
  rw [mem_upsert_iff h, List.mem_append, List.mem_singleton, or_comm]
  refine or_congr_left (and_iff_left_of_imp fun mem => (lt x mem).ne)

theorem mem_mapValues : x ∈ mapValues key l ↔ x ∈ collect key l := by
  induction l using List.reverseRecOn with
  | nil => rfl
  | append_singleton l a ih =>
    rw [mapValues_snoc, collect_snoc, mem_mapSet_iff (distinct_mapValues l), mem_upsert_iff (increasing_collect l),
      ih]

theorem pairwise_insertionSort_key (l : List α) :
    (l.insertionSort fun a b => key a ≤ key b).Pairwise fun a b => key a ≤ key b := by
  have total : Std.Total fun a b => key a ≤ key b := ⟨fun a b => le_total (key a) (key b)⟩
  have transitive : IsTrans α fun a b => key a ≤ key b := ⟨fun a b c => le_trans⟩
  exact List.pairwise_insertionSort _ l

/-- **Sorting the values of the map gives the collected series.** -/
theorem sort_mapValues (l : List α) :
    (mapValues key l).insertionSort (fun a b => key a ≤ key b) = collect key l := by
  have sorted := @pairwise_insertionSort_key _ _ _ key (mapValues key l)
  have distinct : ((mapValues key l).insertionSort fun a b => key a ≤ key b).Pairwise fun a b => key a ≠ key b :=
    (List.Perm.pairwise_iff Ne.symm (List.perm_insertionSort _ _)).2 (distinct_mapValues l)
  have increasing : Increasing key ((mapValues key l).insertionSort fun a b => key a ≤ key b) :=
    (sorted.and distinct).imp fun h => lt_of_le_of_ne h.1 h.2
  apply increasing_ext increasing (increasing_collect l)
  intro x
  rw [List.mem_insertionSort, mem_mapValues]

/-- In a sorted list a write replaces the last entry or comes after it, in a map as in a series. -/
theorem mapSet_eq_upsert (h : Increasing key m) (le : ∀ x ∈ m, key x ≤ key a) : mapSet key a m = upsert key a m := by
  induction m with
  | nil => rfl
  | cons b m ih =>
    obtain ⟨first, rest⟩ := List.forall_mem_cons.1 le
    rw [mapSet, upsert, if_neg first.not_gt, ih h.of_cons rest]
    exact if_congr eq_comm rfl rfl

/-- **The values of a map that is filled in order are the collected series.** -/
theorem mapValues_eq_collect (sorted : l.Pairwise fun a b => key a ≤ key b) : mapValues key l = collect key l := by
  induction l using List.reverseRecOn with
  | nil => rfl
  | append_singleton l a ih =>
    obtain ⟨front, -, le⟩ := List.pairwise_append.1 sorted
    rw [mapValues_snoc, collect_snoc, ih front]
    apply mapSet_eq_upsert (increasing_collect l)
    intro x mem
    exact le x (mem_of_mem_collect mem) a (List.mem_singleton_self a)

/-- Sorting is stable: the entries with one key stay in order. -/
theorem filter_insertionSort (l : List α) :
    (l.insertionSort fun a b => key a ≤ key b).filter (key · = k) = l.filter (key · = k) := by
  have total : Std.Total fun a b => key a ≤ key b := ⟨fun a b => le_total (key a) (key b)⟩
  have transitive : IsTrans α fun a b => key a ≤ key b := ⟨fun a b c => le_trans⟩
  have alike : (l.filter (key · = k)).Pairwise fun a b => key a ≤ key b := by
    apply List.pairwise_of_forall_mem_list
    intro a ha b hb
    simp only [List.mem_filter, decide_eq_true_eq] at ha hb
    exact (ha.2.trans hb.2.symm).le
  have kept := (List.sublist_insertionSort alike List.filter_sublist).filter (key · = k)
  rw [List.filter_filter] at kept
  simp only [Bool.and_self] at kept
  exact (kept.eq_of_length ((List.perm_insertionSort _ l).filter _).length_eq.symm).symm

theorem lastAt_insertionSort (l : List α) :
    lastAt key k (l.insertionSort fun a b => key a ≤ key b) = lastAt key k l := by
  rw [lastAt, filter_insertionSort, lastAt]

/-- Sorting gives a series exactly if no two entries have one key. -/
theorem increasing_mergeSort_iff (l : List α) :
    Increasing key (l.mergeSort fun a b => key a ≤ key b) ↔ (l.map key).Nodup := by
  have perm := l.mergeSort_perm fun a b => decide (key a ≤ key b)
  have sorted : (l.mergeSort fun a b => key a ≤ key b).Pairwise fun a b => key a ≤ key b := by
    refine (List.pairwise_mergeSort ?_ ?_ l).imp of_decide_eq_true
    · exact fun a b c => by simpa using le_trans
    · exact fun a b => by simpa using le_total (key a) (key b)
  rw [← (perm.map key).nodup_iff, List.Nodup, List.pairwise_map]
  constructor
  · exact fun increasing => increasing.imp fun lt => lt.ne
  · exact fun distinct => (sorted.and distinct).imp fun both => lt_of_le_of_ne both.1 both.2

end Series

end StockAnomaly.Theory.TimeSeries

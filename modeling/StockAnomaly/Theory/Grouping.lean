import Mathlib.Data.List.Dedup

/-!
# Grouping a sequence by a key

`groups key xs` collects the items of `xs` by key, in order. A sequence cut into blocks of
one key each, no key twice, is cut into its groups (`eq_groups`).
-/

namespace StockAnomaly.Theory

variable {α β : Type*} [DecidableEq β]

/-- The items of each key that occurs in `xs`. -/
def groups (key : α → β) (xs : List α) : List (List α) :=
  (xs.map key).dedup.map fun k => xs.filter (key · = k)

/-- A block of one key is a single group. -/
theorem dedup_map_key {key : α → β} {k : β} {block : List α} (some_item : block ≠ [])
    (same : ∀ a ∈ block, key a = k) : (block.map key).dedup = [k] := by
  rw [List.map_congr_left same, List.map_const']
  exact List.replicate_dedup (mt List.length_eq_zero_iff.1 some_item)

theorem filter_of_key {key : α → β} {k : β} {block : List α} (same : ∀ a ∈ block, key a = k) :
    block.filter (key · = k) = block :=
  List.filter_eq_self.2 fun a mem => decide_eq_true (same a mem)

theorem filter_of_not_key {key : α → β} {k : β} {block : List α} (other : ∀ a ∈ block, key a ≠ k) :
    block.filter (key · = k) = [] :=
  List.filter_eq_nil_iff.2 fun a mem eq => other a mem (of_decide_eq_true eq)

/-- **Blocks of one key each, with different keys, are the groups.** -/
theorem eq_groups {key : α → β} {keys : List β} {blocks : List (List α)} (distinct : keys.Nodup)
    (cut : List.Forall₂ (fun k block => block ≠ [] ∧ ∀ a ∈ block, key a = k) keys blocks) :
    blocks = groups key blocks.flatten := by
  suffices h : (blocks.flatten.map key).dedup = keys ∧
      blocks = keys.map fun k => blocks.flatten.filter (key · = k) by
    rw [groups, h.1]
    exact h.2
  induction cut with
  | nil => simp
  | @cons k block keys blocks head cut ih =>
    obtain ⟨fresh, distinct⟩ := List.nodup_cons.1 distinct
    obtain ⟨dedup, rest⟩ := ih distinct
    obtain ⟨some_item, same⟩ := head
    have mem_keys : ∀ a ∈ blocks.flatten, key a ∈ keys := fun a mem => by
      rw [← dedup, List.mem_dedup]
      exact List.mem_map_of_mem mem
    have disjoint : List.Disjoint (block.map key) (blocks.flatten.map key) := by
      intro j left right
      obtain ⟨a, mem, rfl⟩ := List.mem_map.1 left
      obtain ⟨a', mem', eq⟩ := List.mem_map.1 right
      exact fresh (same a mem ▸ eq ▸ mem_keys a' mem')
    have later : ∀ a ∈ blocks.flatten, key a ≠ k := by
      rintro a mem rfl
      exact fresh (mem_keys a mem)
    constructor
    · rw [List.flatten_cons, List.map_append, disjoint.dedup_append, dedup_map_key some_item same, dedup]
      rfl
    · rw [List.map_cons, List.flatten_cons, List.filter_append, filter_of_key same,
        filter_of_not_key later, List.append_nil]
      have skip : ∀ j ∈ keys, (block ++ blocks.flatten).filter (key · = j) =
          blocks.flatten.filter (key · = j) := by
        intro j mem
        have other : ∀ a ∈ block, key a ≠ j := by
          rintro a mem' rfl
          exact fresh (same a mem' ▸ mem)
        rw [List.filter_append, filter_of_not_key other, List.nil_append]
      rw [List.map_congr_left skip, ← rest]

/-- A filter that takes none of what is before and after a part, and all of the part. -/
theorem filter_middle {p : α → Bool} {front part back : List α} (before : ∀ a ∈ front, p a = false)
    (inside : ∀ a ∈ part, p a = true) (after : ∀ a ∈ back, p a = false) :
    (front ++ part ++ back).filter p = part := by
  have none_before : front.filter p = [] := List.filter_eq_nil_iff.2 fun a mem => by simp [before a mem]
  have none_after : back.filter p = [] := List.filter_eq_nil_iff.2 fun a mem => by simp [after a mem]
  rw [List.filter_append, List.filter_append, none_before, none_after, List.nil_append, List.append_nil]
  exact List.filter_eq_self.2 inside

omit [DecidableEq β] in
/-- The counterpart of one item cuts a related list in two. -/
theorem forall₂_split {R : α → β → Prop} {as as' : List α} {a : α} {bs : List β}
    (related : List.Forall₂ R (as ++ a :: as') bs) :
    ∃ front b back, bs = front ++ b :: back ∧ List.Forall₂ R as front ∧ R a b ∧ List.Forall₂ R as' back := by
  induction as generalizing bs with
  | nil =>
    obtain ⟨b, back, here, rest, rfl⟩ := List.forall₂_cons_left_iff.1 related
    exact ⟨[], b, back, rfl, List.Forall₂.nil, here, rest⟩
  | cons first as ih =>
    obtain ⟨b', bs, here, rest, rfl⟩ := List.forall₂_cons_left_iff.1 related
    obtain ⟨front, b, back, rfl, before, at_a, after⟩ := ih rest
    exact ⟨b' :: front, b, back, rfl, List.Forall₂.cons here before, at_a, after⟩

omit [DecidableEq β] in
/-- An item of the second list has a counterpart in the first. -/
theorem forall₂_mem_right {R : α → β → Prop} {as : List α} {bs : List β} (related : List.Forall₂ R as bs)
    {b : β} (mem : b ∈ bs) : ∃ a ∈ as, R a b := by
  induction related with
  | nil => cases mem
  | @cons a b' as bs here rest ih =>
    rcases List.mem_cons.1 mem with rfl | later
    · exact ⟨a, by simp, here⟩
    · obtain ⟨a', mem', related'⟩ := ih later
      exact ⟨a', by simp [mem'], related'⟩

end StockAnomaly.Theory

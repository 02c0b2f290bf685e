import Mathlib.Data.List.Basic
import Mathlib.Logic.Function.Basic

/-!
# Views of a log that writers update ahead of it

A log has partitions, and the records of one key are all in one of them. A reader takes the
records of a partition in order and keeps the last entry of each key in a view; when it
starts anew, it goes on from an earlier position. Some writers write the entry into the view
themselves before they append the record, so the view may run ahead of the log, and fall
back behind it. `Fresh` says that then a record of the key is still to come. It is kept by
every operation that loses nothing of the key (`Fresh.write`, `Fresh.append`, `Fresh.consume`,
`Fresh.rewind`), an append makes any state fresh (`fresh_append`), and with nothing to come a
fresh view shows the last record: `Fresh.settled`.
-/

namespace StockAnomaly.Theory

structure LogView (ι κ ρ ν τ : Type*) where
  log : ι → List ρ
  /-- The record that the reader takes next. -/
  position : ι → ℕ
  view : κ → Option ν
  /-- The record that a thread has written into the view and not yet appended. -/
  writing : τ → Option ρ

namespace LogView

variable {ι κ ρ ν τ : Type*} [DecidableEq ι] [DecidableEq κ] [DecidableEq τ]

def empty : LogView ι κ ρ ν τ := ⟨fun _ => [], fun _ => 0, fun _ => none, fun _ => none⟩

variable (key : ρ → κ) (entry : ρ → ν) (part : κ → ι)

/-- A thread writes the entry of a record that it is going to append. -/
def write (s : LogView ι κ ρ ν τ) (t : τ) (r : ρ) : LogView ι κ ρ ν τ :=
  { s with view := Function.update s.view (key r) (some (entry r)), writing := Function.update s.writing t (some r) }

/-- A record is appended. -/
def append (s : LogView ι κ ρ ν τ) (r : ρ) : LogView ι κ ρ ν τ :=
  { s with log := Function.update s.log (part (key r)) (s.log (part (key r)) ++ [r]) }

/-- A thread is done with its record. -/
def finish (s : LogView ι κ ρ ν τ) (t : τ) : LogView ι κ ρ ν τ :=
  { s with writing := Function.update s.writing t none }

/-- The reader passes a record. -/
def advance (s : LogView ι κ ρ ν τ) (i : ι) : LogView ι κ ρ ν τ :=
  { s with position := Function.update s.position i (s.position i + 1) }

/-- The reader takes a record. -/
def consume (s : LogView ι κ ρ ν τ) (i : ι) (r : ρ) : LogView ι κ ρ ν τ :=
  { s.advance i with view := Function.update s.view (key r) (some (entry r)) }

/-- The reader starts anew from a position. -/
def rewind (s : LogView ι κ ρ ν τ) (i : ι) (n : ℕ) : LogView ι κ ρ ν τ :=
  { s with position := Function.update s.position i n }

/-- The records of a key that the reader has passed. -/
def passed (s : LogView ι κ ρ ν τ) (k : κ) : List ρ :=
  ((s.log (part k)).take (s.position (part k))).filter (key · = k)

/-- The view shows the last record passed. -/
def Current (s : LogView ι κ ρ ν τ) (k : κ) : Prop := s.view k = (s.passed key part k).getLast?.map entry

/-- A record of the key is still to come. -/
def Ahead (s : LogView ι κ ρ ν τ) (k : κ) : Prop :=
  (∃ t, ∃ r ∈ s.writing t, key r = k) ∨ ∃ r ∈ (s.log (part k)).drop (s.position (part k)), key r = k

def Fresh (s : LogView ι κ ρ ν τ) (k : κ) : Prop := s.Ahead key part k ∨ s.Current key entry part k

/-- Records are in the partitions of their keys, and the reader is not past the end of one. -/
structure Placed (s : LogView ι κ ρ ν τ) : Prop where
  bounded : ∀ i, s.position i ≤ (s.log i).length
  own : ∀ i, ∀ r ∈ s.log i, part (key r) = i

/-- Nothing of the key is under way. -/
structure Settled (s : LogView ι κ ρ ν τ) (k : κ) : Prop where
  idle : ∀ t, ∀ r ∈ s.writing t, key r ≠ k
  read : ∀ r ∈ (s.log (part k)).drop (s.position (part k)), key r ≠ k

variable {key entry part} {s : LogView ι κ ρ ν τ} {k : κ} {r : ρ} {t : τ} {i : ι}

/-! ## Records in their partitions -/

omit [DecidableEq ι] [DecidableEq κ] [DecidableEq τ] in
theorem Placed.empty : (empty : LogView ι κ ρ ν τ).Placed key part :=
  ⟨fun _ => Nat.le_refl 0, fun _ _ mem => absurd mem List.not_mem_nil⟩

omit [DecidableEq κ] [DecidableEq τ] in
theorem log_append (s : LogView ι κ ρ ν τ) (r : ρ) (i : ι) :
    (s.append key part r).log i = if i = part (key r) then s.log i ++ [r] else s.log i := by
  show Function.update s.log (part (key r)) _ i = _
  rw [Function.update_apply]
  split_ifs with same
  · rw [same]
  · rfl

omit [DecidableEq κ] [DecidableEq τ] in
theorem Placed.append (h : s.Placed key part) (r : ρ) : (s.append key part r).Placed key part := by
  constructor
  · intro i
    rw [log_append]
    split_ifs
    · rw [List.length_append]
      exact Nat.le_add_right_of_le (h.bounded i)
    · exact h.bounded i
  · intro i r' mem
    rw [log_append] at mem
    split_ifs at mem with here
    · rcases List.mem_append.1 mem with old | new
      · exact h.own i r' old
      · rw [List.mem_singleton.1 new, here]
    · exact h.own i r' mem

omit [DecidableEq κ] [DecidableEq τ] in
theorem Placed.rewind (h : s.Placed key part) {n : ℕ} (back : n ≤ (s.log i).length) :
    (s.rewind i n).Placed key part := by
  refine ⟨?_, h.own⟩
  intro j
  show Function.update s.position i n j ≤ (s.log j).length
  by_cases here : j = i
  · subst here
    rwa [Function.update_self]
  · rw [Function.update_of_ne here]
    exact h.bounded j

omit [DecidableEq κ] [DecidableEq τ] in
theorem Placed.advance (h : s.Placed key part) (next : (s.log i)[s.position i]? = some r) :
    (s.advance i).Placed key part :=
  h.rewind (List.getElem?_eq_some_iff.1 next).1

omit [DecidableEq τ] in
theorem Placed.consume (h : s.Placed key part) (next : (s.log i)[s.position i]? = some r) :
    (s.consume key entry i r).Placed key part :=
  ⟨(h.advance next).bounded, h.own⟩

/-! ## Fresh views -/

omit [DecidableEq ι] [DecidableEq τ] in
theorem Fresh.empty (k : κ) : (empty : LogView ι κ ρ ν τ).Fresh key entry part k := .inr rfl

omit [DecidableEq ι] in
/-- A thread that is idle writes into the view. -/
theorem Fresh.write (h : s.Fresh key entry part k) (idle : s.writing t = none) :
    (s.write key entry t r).Fresh key entry part k := by
  by_cases same : key r = k
  · exact .inl (.inl ⟨t, r, Function.update_self .., same⟩)
  · rcases h with (⟨u, r', writing, key_eq⟩ | behind) | current
    · have other : u ≠ t := by
        rintro rfl
        rw [idle] at writing
        cases writing
      exact .inl (.inl ⟨u, r', (Function.update_of_ne other ..).trans writing, key_eq⟩)
    · exact .inl (.inr behind)
    · exact .inr ((Function.update_of_ne (Ne.symm same) ..).trans current)

omit [DecidableEq κ] [DecidableEq τ] in
/-- What is appended is still to be read. -/
theorem mem_drop_append (h : s.Placed key part) (r : ρ) :
    r ∈ ((s.append key part r).log (part (key r))).drop (s.position (part (key r))) := by
  rw [log_append, if_pos rfl, List.drop_append_of_le_length (h.bounded _)]
  exact List.mem_append_right _ (List.mem_singleton_self r)

omit [DecidableEq τ] in
/-- **An append repairs the view of its key.** -/
theorem fresh_append (h : s.Placed key part) (r : ρ) : (s.append key part r).Fresh key entry part (key r) :=
  .inl (.inr ⟨r, mem_drop_append h r, rfl⟩)

omit [DecidableEq τ] in
theorem Fresh.append (h : s.Fresh key entry part k) (placed : s.Placed key part) (r : ρ) :
    (s.append key part r).Fresh key entry part k := by
  by_cases same : key r = k
  · subst same
    exact fresh_append placed r
  · rcases h with (writing | ⟨r', mem, key_eq⟩) | current
    · exact .inl (.inl writing)
    · refine .inl (.inr ⟨r', ?_, key_eq⟩)
      rw [log_append]
      split_ifs
      · show r' ∈ List.drop (s.position (part k)) _
        rw [List.drop_append_of_le_length (placed.bounded _)]
        exact List.mem_append_left _ mem
      · exact mem
    · refine .inr ?_
      have unmoved : (s.append key part r).passed key part k = s.passed key part k := by
        rw [passed, passed, log_append]
        split_ifs
        · show List.filter _ (List.take (s.position (part k)) _) = _
          rw [List.take_append_of_le_length (placed.bounded _)]
        · rfl
      rw [Current, unmoved]
      exact current

omit [DecidableEq ι] in
/-- A thread is done when a record of its key is to be read, or its record has another key. -/
theorem Fresh.finish (h : s.Fresh key entry part k)
    (due : (∃ r ∈ (s.log (part k)).drop (s.position (part k)), key r = k) ∨ ∀ r ∈ s.writing t, key r ≠ k) :
    (s.finish t).Fresh key entry part k := by
  rcases due with behind | not_its
  · exact .inl (.inr behind)
  · rcases h with (⟨u, r, writing, key_eq⟩ | behind) | current
    · have other : u ≠ t := by
        rintro rfl
        exact not_its r writing key_eq
      exact .inl (.inl ⟨u, r, (Function.update_of_ne other ..).trans writing, key_eq⟩)
    · exact .inl (.inr behind)
    · exact .inr current

omit [DecidableEq τ] in
/-- The reader passes a record of another key without a trace. -/
theorem Fresh.advance (h : s.Fresh key entry part k) (next : (s.log i)[s.position i]? = some r) (other : key r ≠ k) :
    (s.advance i).Fresh key entry part k := by
  by_cases here : part k = i
  · subst here
    have position : (s.advance (part k)).position (part k) = s.position (part k) + 1 := Function.update_self ..
    have head := List.drop_eq_getElem_cons (List.getElem?_eq_some_iff.1 next).1
    rw [(List.getElem?_eq_some_iff.1 next).2] at head
    rcases h with (writing | ⟨r', mem, key_eq⟩) | current
    · exact .inl (.inl writing)
    · refine .inl (.inr ⟨r', ?_, key_eq⟩)
      rw [position]
      rw [head] at mem
      rcases List.mem_cons.1 mem with rfl | later
      · exact absurd key_eq other
      · exact later
    · refine .inr ?_
      rw [Current, passed, position]
      show s.view k = (((s.log (part k)).take _).filter _).getLast?.map entry
      have nothing_new : (some r).toList.filter (key · = k) = [] := by simp [other]
      rw [List.take_add_one, next, List.filter_append, nothing_new, List.append_nil]
      exact current
  · have position : (s.advance i).position (part k) = s.position (part k) := Function.update_of_ne here ..
    rw [Fresh, Ahead, Current, passed, position]
    exact h

omit [DecidableEq τ] in
/-- The reader takes a record. -/
theorem Fresh.consume (h : s.Fresh key entry part k) (placed : s.Placed key part)
    (next : (s.log i)[s.position i]? = some r) : (s.consume key entry i r).Fresh key entry part k := by
  by_cases same : key r = k
  · subst same
    have here : part (key r) = i := placed.own i r (List.mem_of_getElem? next)
    subst here
    refine .inr ?_
    have position : (s.consume key entry (part (key r)) r).position (part (key r)) = s.position (part (key r)) + 1 :=
      Function.update_self ..
    rw [Current, passed, position]
    show Function.update s.view (key r) (some (entry r)) (key r) = _
    rw [Function.update_self]
    show _ = (((s.log (part (key r))).take _).filter _).getLast?.map entry
    rw [List.take_add_one, next, List.filter_append]
    simp
  · have passed_it := h.advance next same
    rcases passed_it with ahead | current
    · exact .inl ahead
    · exact .inr ((Function.update_of_ne (Ne.symm same) ..).trans current)

omit [DecidableEq τ] in
/-- The reader starts anew from an earlier position. -/
theorem Fresh.rewind (h : s.Fresh key entry part k) {n : ℕ} (back : n ≤ s.position i) :
    (s.rewind i n).Fresh key entry part k := by
  by_cases here : part k = i
  · subst here
    have position : (s.rewind (part k) n).position (part k) = n := Function.update_self ..
    by_cases again : ∃ r ∈ (s.log (part k)).drop n, key r = k
    · refine .inl (.inr ?_)
      rw [position]
      exact again
    · rcases h with (writing | ⟨r, mem, key_eq⟩) | current
      · exact .inl (.inl writing)
      · refine absurd ⟨r, ?_, key_eq⟩ again
        exact (List.drop_subset_drop_left _ back) mem
      · refine .inr ?_
        have unread : (((s.log (part k)).drop n).take (s.position (part k) - n)).filter (key · = k) = [] := by
          rw [List.filter_eq_nil_iff]
          intro r mem key_eq
          exact again ⟨r, List.mem_of_mem_take mem, of_decide_eq_true key_eq⟩
        have same : s.passed key part k = ((s.log (part k)).take n).filter (key · = k) := by
          rw [passed, ← Nat.add_sub_cancel' back, List.take_add, List.filter_append, unread, List.append_nil]
        rw [Current, same] at current
        rw [Current, passed, position]
        exact current
  · have position : (s.rewind i n).position (part k) = s.position (part k) := Function.update_of_ne here ..
    rw [Fresh, Ahead, Current, passed, position]
    exact h

omit [DecidableEq ι] [DecidableEq τ] in
/-- With nothing of the key unread, what was passed of it is all of it. -/
theorem Settled.passed_eq (h : s.Settled key part k) :
    s.passed key part k = (s.log (part k)).filter (key · = k) := by
  have unread : ((s.log (part k)).drop (s.position (part k))).filter (key · = k) = [] := by
    rw [List.filter_eq_nil_iff]
    intro r mem key_eq
    exact h.read r mem (of_decide_eq_true key_eq)
  conv_rhs => rw [← List.take_append_drop (s.position (part k)) (s.log (part k)), List.filter_append, unread]
  exact (List.append_nil _).symm

omit [DecidableEq ι] [DecidableEq τ] in
/-- **A fresh view of a key of which nothing is under way shows its last record.** -/
theorem Fresh.settled (h : s.Fresh key entry part k) (settled : s.Settled key part k) :
    s.view k = ((s.log (part k)).filter (key · = k)).getLast?.map entry := by
  rcases h with (⟨t, r, writing, key_eq⟩ | ⟨r, mem, key_eq⟩) | current
  · exact absurd key_eq (settled.idle t r writing)
  · exact absurd key_eq (settled.read r mem)
  · rw [Current, settled.passed_eq] at current
    exact current

end LogView

end StockAnomaly.Theory

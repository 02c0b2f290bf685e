import Mathlib.Data.List.Nodup
import Mathlib.Logic.Function.Basic

/-!
# Chains of links

A singly linked list kept as a `next` map over cells, ended by a `null` address.
`Chain next null h L` says that following `next` from `h` visits exactly the cells `L`.
`walk` is the same traversal as a function of the number of links followed, so that "the
cell is reached, exactly once" can be said without naming `L`; `Chain.reached_once`
connects the two.
-/

namespace StockAnomaly.Theory

variable {ι : Type*}

/-- Following `next` from the head visits `L` and then `null`. -/
inductive Chain (next : ι → ι) (null : ι) : ι → List ι → Prop
  | nil : Chain next null null []
  | cons {i : ι} {L : List ι} : i ≠ null → Chain next null (next i) L → Chain next null i (i :: L)

/-- The cell reached from `head` after `k` links, if the walk has not ended before. -/
def walk [DecidableEq ι] (next : ι → ι) (null head : ι) : ℕ → Option ι
  | 0 => if head = null then none else some head
  | k + 1 => (walk next null head k).bind fun i => if next i = null then none else some (next i)

theorem walk_succ_of_ne [DecidableEq ι] {next : ι → ι} {null i : ι} (h : i ≠ null) (k : ℕ) :
    walk next null i (k + 1) = walk next null (next i) k := by
  induction k with
  | zero => simp [walk, h]
  | succ k ih => rw [walk, ih]; rfl

namespace Chain

variable {next : ι → ι} {null h i : ι} {L K : List ι}

theorem unique (a : Chain next null h L) (b : Chain next null h K) : L = K := by
  induction a generalizing K with
  | nil =>
    cases b with
    | nil => rfl
    | cons ne _ => exact absurd rfl ne
  | cons ne _ ih =>
    cases b with
    | nil => exact absurd rfl ne
    | cons _ rest => rw [ih rest]

/-- From any cell of a chain, the rest of it is a chain. -/
theorem suffix (c : Chain next null h L) (mem : i ∈ L) :
    ∃ pre post, L = pre ++ i :: post ∧ Chain next null i (i :: post) := by
  induction c with
  | nil => cases mem
  | @cons j L ne rest ih =>
    rcases List.mem_cons.1 mem with rfl | mem
    · exact ⟨[], L, rfl, .cons ne rest⟩
    · obtain ⟨pre, post, rfl, c⟩ := ih mem
      exact ⟨j :: pre, post, rfl, c⟩

/-- No cell occurs twice: a second visit would be followed by the same endless rest. -/
theorem nodup (c : Chain next null h L) : L.Nodup := by
  induction c with
  | nil => exact List.nodup_nil
  | @cons j L ne rest ih =>
    refine List.nodup_cons.2 ⟨fun mem => ?_, ih⟩
    obtain ⟨pre, post, rfl, again⟩ := rest.suffix mem
    have same := congrArg List.length ((Chain.cons ne rest).unique again)
    simp at same
    omega

variable [DecidableEq ι]

/-- Writing the link of a cell outside the chain leaves the chain as it is. -/
theorem update (c : Chain next null h L) (out : i ∉ L) (v : ι) :
    Chain (Function.update next i v) null h L := by
  induction c with
  | nil => exact .nil
  | @cons j L ne rest ih =>
    obtain ⟨far, out⟩ := not_or.1 (mt List.mem_cons.2 out)
    refine .cons ne ?_
    rw [Function.update_of_ne (Ne.symm far)]
    exact ih out

theorem walk_eq (c : Chain next null h L) (k : ℕ) : walk next null h k = L[k]? := by
  induction c generalizing k with
  | nil =>
    induction k with
    | zero => simp [walk]
    | succ k ih => rw [walk, ih]; rfl
  | cons ne _ ih =>
    cases k with
    | zero => simp [walk, ne]
    | succ k => rw [walk_succ_of_ne ne, ih, List.getElem?_cons_succ]

/-- The cells reached by walking a chain are its cells. -/
theorem reached_iff (c : Chain next null h L) : (∃ k, walk next null h k = some i) ↔ i ∈ L := by
  simp only [c.walk_eq, List.mem_iff_getElem?]

/-- Each cell of a chain is reached after exactly one number of links. -/
theorem reached_once (c : Chain next null h L) (mem : i ∈ L) : ∃! k, walk next null h k = some i := by
  obtain ⟨k, lt, eq⟩ := List.mem_iff_getElem.1 mem
  refine ⟨k, (c.walk_eq k).trans (List.getElem?_eq_some_iff.2 ⟨lt, eq⟩), fun j reach => ?_⟩
  obtain ⟨lt', eq'⟩ := List.getElem?_eq_some_iff.1 ((c.walk_eq j).symm.trans reach)
  exact (c.nodup.getElem_inj_iff).1 (eq'.trans eq.symm)

end Chain

end StockAnomaly.Theory

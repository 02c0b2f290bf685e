import Mathlib.Data.List.Basic

/-!
# Leases

A history of acquiring and giving back resources. `Leases history held` says that nothing was handed out
while it was out and nothing given back that was not, and that `held` is what is out now. `Leases.alternating`
is the reading for one resource: an acquire, its release, an acquire, its release, and so on.
-/

namespace StockAnomaly.Theory

variable {ι : Type*} [DecidableEq ι]

/-- What is done with a resource. -/
inductive LeaseEvent (ι : Type*)
  | acquired (i : ι)
  | released (i : ι)

def LeaseEvent.resource : LeaseEvent ι → ι
  | acquired i | released i => i

/-- After `history`, the resources `held` are out. -/
inductive Leases : List (LeaseEvent ι) → List ι → Prop
  | nil : Leases [] []
  | acquired {history : List (LeaseEvent ι)} {held : List ι} {i : ι} : Leases history held → i ∉ held →
      Leases (history ++ [.acquired i]) (i :: held)
  | released {history : List (LeaseEvent ι)} {held : List ι} {i : ι} : Leases history held → i ∈ held →
      Leases (history ++ [.released i]) (held.erase i)

/-- The events of one resource. -/
def LeaseEvent.about (i : ι) (history : List (LeaseEvent ι)) : List (LeaseEvent ι) :=
  history.filter (·.resource = i)

/-- `n` acquires of a resource, each with its release, and one without if the resource is out. -/
def LeaseEvent.turns (i : ι) (n : ℕ) (out : Bool) : List (LeaseEvent ι) :=
  (List.replicate n [acquired i, released i]).flatten ++ if out then [acquired i] else []

omit [DecidableEq ι] in
theorem LeaseEvent.turns_acquired (i : ι) (n : ℕ) : turns i n false ++ [acquired i] = turns i n true := by
  simp [turns]

omit [DecidableEq ι] in
theorem LeaseEvent.turns_released (i : ι) (n : ℕ) : turns i n true ++ [released i] = turns i (n + 1) false := by
  simp [turns, List.replicate_succ']

theorem LeaseEvent.about_snoc (i : ι) (history : List (LeaseEvent ι)) (e : LeaseEvent ι) :
    about i (history ++ [e]) = if e.resource = i then about i history ++ [e] else about i history := by
  by_cases eq : e.resource = i <;> simp [about, eq]

namespace Leases

variable {history : List (LeaseEvent ι)} {held : List ι}

theorem nodup (h : Leases history held) : held.Nodup := by
  induction h with
  | nil => exact List.nodup_nil
  | acquired _ fresh ih => exact List.nodup_cons.2 ⟨fresh, ih⟩
  | released _ _ ih => exact ih.erase _

/-- Each acquire of a resource is answered by one release, before the next acquire of it, unless the
resource is still out. -/
theorem alternating (h : Leases history held) (i : ι) :
    ∃ n, LeaseEvent.about i history = LeaseEvent.turns i n (decide (i ∈ held)) := by
  induction h with
  | nil => exact ⟨0, rfl⟩
  | @acquired history held j before fresh ih =>
    obtain ⟨n, eq⟩ := ih
    refine ⟨n, ?_⟩
    rw [LeaseEvent.about_snoc, eq]
    by_cases same : j = i
    · subst same
      simp only [LeaseEvent.resource, if_true, fresh, decide_false, List.mem_cons, true_or, decide_true]
      exact LeaseEvent.turns_acquired j n
    · have other : (i ∈ j :: held) = (i ∈ held) := by simp [Ne.symm same]
      simp only [LeaseEvent.resource, same, if_false, other]
  | @released history held j before out ih =>
    obtain ⟨n, eq⟩ := ih
    rw [LeaseEvent.about_snoc, eq]
    by_cases same : j = i
    · subst same
      refine ⟨n + 1, ?_⟩
      have gone : j ∉ held.erase j := fun mem => (before.nodup.mem_erase_iff.1 mem).1 rfl
      simp only [LeaseEvent.resource, if_true, out, decide_true, gone, decide_false]
      exact LeaseEvent.turns_released j n
    · refine ⟨n, ?_⟩
      have other : (i ∈ held.erase j) = (i ∈ held) := by simp [List.mem_erase_of_ne (Ne.symm same)]
      simp only [LeaseEvent.resource, same, if_false, other]

end Leases

end StockAnomaly.Theory

import Mathlib.Data.List.Basic

/-!
# The bounded first-in first-out queue

What the calls on a queue of at most `bound` items may return, in the order in which they take effect.
An implementation is correct if the returns of any run, in the order of the steps that decide them,
are a history of this queue.
-/

namespace StockAnomaly.Theory

variable {T : Type*}

/-- A finished call and what it returned. -/
inductive FifoReturn (T : Type*)
  | push (item : T) (ok : Bool)
  | pop (item : Option T)

/-- The returns `history` lead to the queue `items`. A push fails only on a full queue, a pop only on an
empty one. -/
inductive BoundedFifo (bound : ℕ) : List (FifoReturn T) → List T → Prop
  | nil : BoundedFifo bound [] []
  | push {history : List (FifoReturn T)} {items : List T} (item : T) : BoundedFifo bound history items →
      items.length < bound → BoundedFifo bound (history ++ [.push item true]) (items ++ [item])
  | full {history : List (FifoReturn T)} {items : List T} (item : T) : BoundedFifo bound history items →
      items.length = bound → BoundedFifo bound (history ++ [.push item false]) items
  | pop {history : List (FifoReturn T)} {items : List T} {item : T} :
      BoundedFifo bound history (item :: items) → BoundedFifo bound (history ++ [.pop (some item)]) items
  | empty {history : List (FifoReturn T)} :
      BoundedFifo bound history [] → BoundedFifo bound (history ++ [.pop none]) []

/-- The items pushed with success, in order. -/
def FifoReturn.pushed (history : List (FifoReturn T)) : List T :=
  history.filterMap fun | .push item true => some item | _ => none

/-- The items popped, in order. -/
def FifoReturn.popped (history : List (FifoReturn T)) : List T :=
  history.filterMap fun | .pop item => item | .push .. => none

theorem FifoReturn.pushed_append (history more : List (FifoReturn T)) :
    pushed (history ++ more) = pushed history ++ pushed more := List.filterMap_append

theorem FifoReturn.popped_append (history more : List (FifoReturn T)) :
    popped (history ++ more) = popped history ++ popped more := List.filterMap_append

namespace BoundedFifo

variable {bound : ℕ} {history : List (FifoReturn T)} {items : List T}

theorem length_le (h : BoundedFifo bound history items) : items.length ≤ bound := by
  induction h with
  | nil => exact Nat.zero_le bound
  | push item _ room _ =>
    rw [List.length_append, List.length_singleton]
    exact room
  | full _ _ _ ih => exact ih
  | pop _ ih => exact Nat.le_of_succ_le ih
  | empty _ ih => exact ih

/-- What was pushed is what was popped and what is left, in order. -/
theorem pushed_eq (h : BoundedFifo bound history items) :
    FifoReturn.pushed history = FifoReturn.popped history ++ items := by
  induction h with
  | nil => rfl
  | push item _ _ ih =>
    rw [FifoReturn.pushed_append, FifoReturn.popped_append, ih]
    simp [FifoReturn.pushed, FifoReturn.popped]
  | full item _ _ ih =>
    rw [FifoReturn.pushed_append, FifoReturn.popped_append, ih]
    simp [FifoReturn.pushed, FifoReturn.popped]
  | pop _ ih =>
    rw [FifoReturn.pushed_append, FifoReturn.popped_append, ih]
    simp [FifoReturn.pushed, FifoReturn.popped]
  | empty _ ih =>
    rw [FifoReturn.pushed_append, FifoReturn.popped_append, ih]
    simp [FifoReturn.pushed, FifoReturn.popped]

end BoundedFifo

end StockAnomaly.Theory

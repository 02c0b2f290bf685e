import Mathlib.Algebra.Group.Nat.Defs
import StockAnomaly.Theory.BoundedFifo
import StockAnomaly.Theory.Machine

/-!
# `SPSCQueue`: two indices and a free slot

`push` and `pop` of `core/lock_free_queue.hpp` with one producer and one consumer, one load or store
at a time. Each side works on the copy of its own index that it loaded, and knows of the other's what it
was at one load. Two ghosts record the run: `returns`, what the calls returned, and `unread`, the item
in each slot that was written there and not moved out yet.
-/

namespace StockAnomaly.Core

open Theory

variable {T : Type}

/-- Where the producer stands inside `push(item)`, with its local `head`. -/
inductive SpscPushPc (T : Type)
  | idle
  | headLoaded (item : T) (head : ℕ)
  | roomSeen (item : T) (head : ℕ)
  | written (item : T) (head : ℕ)

/-- Where the consumer stands inside `pop`, with its locals. -/
inductive SpscPopPc (T : Type)
  | idle
  | tailLoaded (tail : ℕ)
  | itemSeen (tail : ℕ)
  | moved (tail : ℕ) (item : T)

/-- `head_`, `tail_`, `buffer_`, the two control points and the ghosts. -/
structure SpscQueue (T : Type) where
  head : ℕ
  tail : ℕ
  buffer : ℕ → T
  producer : SpscPushPc T
  consumer : SpscPopPc T
  unread : ℕ → Option T
  returns : List (FifoReturn T)

/-- The loads and stores. `push` and `pop` are the calls with the load of their own index. -/
inductive SpscAction (T : Type)
  | push (item : T)
  | loadTail
  | writeItem
  | storeHead
  | pop
  | loadHead
  | moveItem
  | storeTail

namespace SpscQueue

/-- `(i + 1) & kMask`. -/
def nextIndex (capacity i : ℕ) : ℕ := (i + 1) &&& (capacity - 1)

/-- The constructor. -/
def fresh [Inhabited T] : SpscQueue T where
  head := 0
  tail := 0
  buffer _ := default
  producer := .idle
  consumer := .idle
  unread _ := none
  returns := []

/-- `buffer_[head] = item`. -/
def writeItem (s : SpscQueue T) (item : T) (head : ℕ) : SpscQueue T :=
  { s with
    producer := .written item head
    buffer := Function.update s.buffer head item
    unread := Function.update s.unread head (some item) }

/-- `head_.store(next)` and `return true`. -/
def storeHead (capacity : ℕ) (s : SpscQueue T) (item : T) (head : ℕ) : SpscQueue T :=
  { s with
    producer := .idle
    head := nextIndex capacity head
    returns := s.returns ++ [.push item true] }

/-- `T item = std::move(buffer_[tail])`. -/
def moveItem (s : SpscQueue T) (tail : ℕ) : SpscQueue T :=
  { s with
    consumer := .moved tail (s.buffer tail)
    unread := Function.update s.unread tail none }

/-- `tail_.store((tail + 1) & kMask)` and `return item`. -/
def storeTail (capacity : ℕ) (s : SpscQueue T) (tail : ℕ) (item : T) : SpscQueue T :=
  { s with
    consumer := .idle
    tail := nextIndex capacity tail
    returns := s.returns ++ [.pop (some item)] }

/-- One load or store. -/
def step (capacity : ℕ) (s : SpscQueue T) : SpscAction T → Option (SpscQueue T)
  | .push item =>
    match s.producer with
    | .idle => some { s with producer := .headLoaded item s.head }
    | _ => none
  | .loadTail =>
    match s.producer with
    | .headLoaded item head =>
      if nextIndex capacity head = s.tail then
        some { s with producer := .idle, returns := s.returns ++ [.push item false] }
      else some { s with producer := .roomSeen item head }
    | _ => none
  | .writeItem =>
    match s.producer with
    | .roomSeen item head => some (s.writeItem item head)
    | _ => none
  | .storeHead =>
    match s.producer with
    | .written item head => some (s.storeHead capacity item head)
    | _ => none
  | .pop =>
    match s.consumer with
    | .idle => some { s with consumer := .tailLoaded s.tail }
    | _ => none
  | .loadHead =>
    match s.consumer with
    | .tailLoaded tail =>
      if tail = s.head then some { s with consumer := .idle, returns := s.returns ++ [.pop none] }
      else some { s with consumer := .itemSeen tail }
    | _ => none
  | .moveItem =>
    match s.consumer with
    | .itemSeen tail => some (s.moveItem tail)
    | _ => none
  | .storeTail =>
    match s.consumer with
    | .moved tail item => some (s.storeTail capacity tail item)
    | _ => none

/-- The queue as a machine: one producer, one consumer, any interleaving. -/
def machine (T : Type) [Inhabited T] (capacity : ℕ) : Machine (SpscQueue T) (SpscAction T) where
  init := fresh
  step := step capacity

/-- `empty()`, its two loads at one moment. -/
def empty (s : SpscQueue T) : Bool := s.head == s.tail

/-- `size()`, its two loads at one moment; the difference is one of `std::size_t`. -/
def size (capacity : ℕ) (s : SpscQueue T) : ℕ := (s.head + 2 ^ 64 - s.tail) % 2 ^ 64 &&& (capacity - 1)

end SpscQueue

end StockAnomaly.Core

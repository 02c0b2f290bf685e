import StockAnomaly.Theory.Machine
import StockAnomaly.Theory.Ring

/-!
# `MPSCQueue`: the ring of sequenced slots

`push` and `pop` of `core/lock_free_queue.hpp`, one load, store or exchange at a time.
Positions are unbounded naturals, as `std::size_t` is before it wraps. Producers are the
threads `Tid`; there is one consumer. Two ghost lists record the run: `claimed`, the
items in the order in which their positions were won, and `returns`, what the calls
returned.
-/

namespace StockAnomaly.Core

open Theory

variable {Tid T : Type}

/-- Where a producer stands inside `push(data)`, with its local `pos`. -/
inductive PushPc (T : Type)
  | idle
  | posLoaded (data : T) (pos : ℕ)
  | seqMatched (data : T) (pos : ℕ)
  | claimed (data : T) (pos : ℕ)
  | written (data : T) (pos : ℕ)
  | reload (data : T)

/-- The item a producer has claimed a position for and not yet published. -/
def PushPc.pending : PushPc T → List T
  | .claimed data _ | .written data _ => [data]
  | _ => []

/-- Where the consumer stands inside `pop`, with its locals. -/
inductive PopPc (T : Type)
  | idle
  | posLoaded (pos : ℕ)
  | seqMatched (pos : ℕ)
  | moved (pos : ℕ) (item : T)
  | released (pos : ℕ) (item : T)

/-- The result of a finished call. -/
inductive MpscReturn (Tid T : Type)
  | push (t : Tid) (data : T) (ok : Bool)
  | pop (item : Option T)

/-- `slots_[i].sequence`, `slots_[i].data`, the two positions, the control points, and
the ghost record of the run. -/
structure MpscQueue (Tid T : Type) where
  sequence : ℕ → ℕ
  data : ℕ → T
  enqueuePos : ℕ
  dequeuePos : ℕ
  producer : Tid → PushPc T
  consumer : PopPc T
  claimed : List (Tid × T)
  returns : List (MpscReturn Tid T)

/-- The atomic steps. `push` and `pop` are the calls with their first load. -/
inductive MpscAction (Tid T : Type)
  | push (t : Tid) (data : T)
  | loadSequence (t : Tid)
  | casEnqueue (t : Tid) (spurious : Bool)
  | writeData (t : Tid)
  | publish (t : Tid)
  | reloadPos (t : Tid)
  | pop
  | popLoadSequence
  | moveData
  | storeSequence
  | storeDequeue

namespace MpscQueue

/-- `pos & kMask`. -/
def slotOf (capacity pos : ℕ) : ℕ := pos &&& (capacity - 1)

variable [DecidableEq Tid]

def gotoPush (s : MpscQueue Tid T) (t : Tid) (pc : PushPc T) : MpscQueue Tid T :=
  { s with producer := Function.update s.producer t pc }

def gotoPop (s : MpscQueue Tid T) (pc : PopPc T) : MpscQueue Tid T := { s with consumer := pc }

def returned (s : MpscQueue Tid T) (r : MpscReturn Tid T) : MpscQueue Tid T :=
  { s with returns := s.returns ++ [r] }

/-- The won exchange of `enqueue_pos_`. -/
def claim (s : MpscQueue Tid T) (t : Tid) (data : T) : MpscQueue Tid T :=
  { s with
    producer := Function.update s.producer t (.claimed data s.enqueuePos)
    enqueuePos := s.enqueuePos + 1
    claimed := s.claimed ++ [(t, data)] }

/-- `slot.data = data`. -/
def fill (capacity : ℕ) (s : MpscQueue Tid T) (t : Tid) (data : T) (pos : ℕ) : MpscQueue Tid T :=
  { s with
    producer := Function.update s.producer t (.written data pos)
    data := Function.update s.data (slotOf capacity pos) data }

/-- `slot.sequence.store(pos + 1)` and `return true`. -/
def publish (capacity : ℕ) (s : MpscQueue Tid T) (t : Tid) (data : T) (pos : ℕ) : MpscQueue Tid T :=
  { s with
    producer := Function.update s.producer t .idle
    sequence := Function.update s.sequence (slotOf capacity pos) (pos + 1)
    returns := s.returns ++ [.push t data true] }

/-- `slot.sequence.store(pos + Capacity)`. -/
def giveBack (capacity : ℕ) (s : MpscQueue Tid T) (pos : ℕ) (item : T) : MpscQueue Tid T :=
  { s with
    consumer := .released pos item
    sequence := Function.update s.sequence (slotOf capacity pos) (pos + capacity) }

/-- `dequeue_pos_.store(pos + 1)` and `return item`. -/
def advance (s : MpscQueue Tid T) (pos : ℕ) (item : T) : MpscQueue Tid T :=
  { s with
    consumer := .idle
    dequeuePos := pos + 1
    returns := s.returns ++ [.pop (some item)] }

/-- The constructor. -/
def fresh [Inhabited T] : MpscQueue Tid T where
  sequence i := i
  data _ := default
  enqueuePos := 0
  dequeuePos := 0
  producer _ := .idle
  consumer := .idle
  claimed := []
  returns := []

/-- One atomic step. -/
def step (capacity : ℕ) (s : MpscQueue Tid T) : MpscAction Tid T → Option (MpscQueue Tid T)
  | .push t data =>
    match s.producer t with
    | .idle => some (s.gotoPush t (.posLoaded data s.enqueuePos))
    | _ => none
  | .loadSequence t =>
    match s.producer t with
    | .posLoaded data pos =>
      let diff : ℤ := (s.sequence (slotOf capacity pos) : ℤ) - pos
      if diff = 0 then some (s.gotoPush t (.seqMatched data pos))
      else if diff < 0 then some ((s.gotoPush t .idle).returned (.push t data false))
      else some (s.gotoPush t (.reload data))
    | _ => none
  | .casEnqueue t spurious =>
    match s.producer t with
    | .seqMatched data pos =>
      if s.enqueuePos = pos ∧ spurious = false then some (s.claim t data)
      else some (s.gotoPush t (.posLoaded data s.enqueuePos))
    | _ => none
  | .writeData t =>
    match s.producer t with
    | .claimed data pos => some (s.fill capacity t data pos)
    | _ => none
  | .publish t =>
    match s.producer t with
    | .written data pos => some (s.publish capacity t data pos)
    | _ => none
  | .reloadPos t =>
    match s.producer t with
    | .reload data => some (s.gotoPush t (.posLoaded data s.enqueuePos))
    | _ => none
  | .pop =>
    match s.consumer with
    | .idle => some (s.gotoPop (.posLoaded s.dequeuePos))
    | _ => none
  | .popLoadSequence =>
    match s.consumer with
    | .posLoaded pos =>
      let diff : ℤ := (s.sequence (slotOf capacity pos) : ℤ) - (pos + 1)
      if diff ≠ 0 then some ((s.gotoPop .idle).returned (.pop none))
      else some (s.gotoPop (.seqMatched pos))
    | _ => none
  | .moveData =>
    match s.consumer with
    | .seqMatched pos => some (s.gotoPop (.moved pos (s.data (slotOf capacity pos))))
    | _ => none
  | .storeSequence =>
    match s.consumer with
    | .moved pos item => some (s.giveBack capacity pos item)
    | _ => none
  | .storeDequeue =>
    match s.consumer with
    | .released pos item => some (s.advance pos item)
    | _ => none

/-- The queue as a machine: any producers, one consumer, any interleaving. -/
def machine (Tid T : Type) [DecidableEq Tid] [Inhabited T] (capacity : ℕ) :
    Machine (MpscQueue Tid T) (MpscAction Tid T) where
  init := fresh
  step := step capacity

omit [DecidableEq Tid] in
/-- The items `pop` has returned. -/
def popped (s : MpscQueue Tid T) : List T :=
  s.returns.filterMap fun | .pop item => item | .push .. => none

/-- The items thread `t` has pushed with result `true`. -/
def pushed (s : MpscQueue Tid T) (t : Tid) : List T :=
  s.returns.filterMap fun | .push u data true => if u = t then some data else none | _ => none

omit [DecidableEq Tid] in
/-- The number of positions `pop` has given back, its store of `slot.sequence` being the
moment at which it does. -/
def released (s : MpscQueue Tid T) : ℕ :=
  match s.consumer with
  | .released .. => s.dequeuePos + 1
  | _ => s.dequeuePos

omit [DecidableEq Tid] in
/-- Thread `t` has claimed position `p` for `data` and not yet published it. -/
def Filling (s : MpscQueue Tid T) (t : Tid) (data : T) (p : ℕ) : Prop :=
  s.producer t = .claimed data p ∨ s.producer t = .written data p

omit [DecidableEq Tid] in
/-- The item at position `p` has been published. -/
def Published (s : MpscQueue Tid T) (p : ℕ) : Prop :=
  p < s.claimed.length ∧ ∀ t data, ¬ s.Filling t data p

end MpscQueue

end StockAnomaly.Core

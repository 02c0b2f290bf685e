import StockAnomaly.Theory.Machine
import StockAnomaly.Theory.Chain

/-!
# `ObjectPool`: the lock-free free list

`acquire` and `release` of `core/object_pool.hpp`, one atomic step at a time. A thread's
control point carries its locals (`idx`, `next`, `current`); the shared state is `head_`,
the `next` fields of `free_list_` and, as a ghost, which thread holds which slot. A
pointer is identified with its `slot_index`. `compare_exchange_weak` may fail spuriously,
which is the flag of the two `cas` actions; a failed exchange reloads the expected value.
-/

namespace StockAnomaly.Core

open Theory

/-- Where a thread stands inside `acquire` or `release`, with its locals. -/
inductive PoolPc
  | idle
  | acquireLoaded (idx : ℕ)
  | acquireNext (idx next : ℕ)
  | releaseLoaded (idx current : ℕ)
  | releaseStored (idx current : ℕ)
  deriving DecidableEq, Repr

/-- The slot a thread is in the middle of giving back. -/
def PoolPc.releasing : PoolPc → Option ℕ
  | .releaseLoaded idx _ | .releaseStored idx _ => some idx
  | _ => none

/-- The slot a thread in `acquire` found at `head_`. -/
def PoolPc.acquiring : PoolPc → Option ℕ
  | .acquireLoaded idx | .acquireNext idx _ => some idx
  | _ => none

/-- `free_list_[i].next`, `head_`, the threads' control points, and the slots that
callers obtained and have not yet passed to `release`. -/
structure ObjectPool (Tid : Type) where
  next : ℕ → ℕ
  head : ℕ
  pc : Tid → PoolPc
  held : List (Tid × ℕ)

/-- The atomic steps; `acquire` and `release` are the calls with their first load of `head_`. -/
inductive PoolAction (Tid : Type)
  | acquire (t : Tid)
  | loadNext (t : Tid)
  | casAcquire (t : Tid) (spurious : Bool)
  | release (t : Tid) (idx : ℕ)
  | storeNext (t : Tid)
  | casRelease (t : Tid) (spurious : Bool)

namespace ObjectPool

variable {Tid : Type} [DecidableEq Tid]

/-- The constructor: every slot is linked to the next one, the last to `kNull = PoolSize`. -/
def fresh : ObjectPool Tid where
  next i := i + 1
  head := 0
  pc _ := .idle
  held := []

def goto (s : ObjectPool Tid) (t : Tid) (pc : PoolPc) : ObjectPool Tid :=
  { s with pc := Function.update s.pc t pc }

/-- The top of the loop of `acquire`: `kNull` returns `nullptr`. -/
def acquireLoop (poolSize idx : ℕ) : PoolPc :=
  if idx = poolSize then .idle else .acquireLoaded idx

/-- One atomic step. A thread releases only a slot it holds. -/
def step (poolSize : ℕ) (s : ObjectPool Tid) : PoolAction Tid → Option (ObjectPool Tid)
  | .acquire t =>
    match s.pc t with
    | .idle => some (s.goto t (acquireLoop poolSize s.head))
    | _ => none
  | .loadNext t =>
    match s.pc t with
    | .acquireLoaded idx => some (s.goto t (.acquireNext idx (s.next idx)))
    | _ => none
  | .casAcquire t spurious =>
    match s.pc t with
    | .acquireNext idx next =>
      if s.head = idx ∧ spurious = false then
        some { s.goto t .idle with head := next, held := (t, idx) :: s.held }
      else some (s.goto t (acquireLoop poolSize s.head))
    | _ => none
  | .release t idx =>
    match s.pc t with
    | .idle =>
      if (t, idx) ∈ s.held then
        some { s.goto t (.releaseLoaded idx s.head) with held := s.held.erase (t, idx) }
      else none
    | _ => none
  | .storeNext t =>
    match s.pc t with
    | .releaseLoaded idx current =>
      some { s.goto t (.releaseStored idx current) with next := Function.update s.next idx current }
    | _ => none
  | .casRelease t spurious =>
    match s.pc t with
    | .releaseStored idx current =>
      if s.head = current ∧ spurious = false then some { s.goto t .idle with head := idx }
      else some (s.goto t (.releaseLoaded idx s.head))
    | _ => none

/-- The pool as a machine: any threads, any interleaving. -/
def machine (Tid : Type) [DecidableEq Tid] (poolSize : ℕ) : Machine (ObjectPool Tid) (PoolAction Tid) where
  init := fresh
  step := step poolSize

/-- The slots held by callers, one entry per obtained pointer. -/
def heldSlots (s : ObjectPool Tid) : List ℕ := s.held.map Prod.snd

/-- The slot is reachable from `head_` after `k` links. -/
def ReachedAfter (poolSize : ℕ) (s : ObjectPool Tid) (i k : ℕ) : Prop :=
  walk s.next poolSize s.head k = some i

/-- No slot has two holders: the held slots are pairwise distinct and off the free list,
and every other slot that no `release` is working on is on the free list exactly once. -/
structure Exclusive (poolSize : ℕ) (s : ObjectPool Tid) : Prop where
  distinct : s.heldSlots.Nodup
  heldOff : ∀ i ∈ s.heldSlots, ∀ k, ¬ s.ReachedAfter poolSize i k
  freeOnce : ∀ i < poolSize, i ∉ s.heldSlots → (∀ t, (s.pc t).releasing ≠ some i) →
    ∃! k, s.ReachedAfter poolSize i k

/-- When `acquire`'s exchange succeeds, the link it read is still the slot's link. -/
def LinkUnchanged (s : ObjectPool Tid) : PoolAction Tid → Prop
  | .casAcquire t spurious => ∀ idx next, s.pc t = .acquireNext idx next →
      s.head = idx → spurious = false → s.next idx = next
  | _ => True

@[simp] theorem goto_pc_self (s : ObjectPool Tid) (t : Tid) (pc : PoolPc) : (s.goto t pc).pc t = pc := by
  simp [goto]

theorem goto_pc_of_ne (s : ObjectPool Tid) {t u : Tid} (pc : PoolPc) (ne : u ≠ t) :
    (s.goto t pc).pc u = s.pc u := by
  simp [goto, ne]

theorem acquireLoop_releasing (poolSize idx : ℕ) : (acquireLoop poolSize idx).releasing = none := by
  unfold acquireLoop; split <;> rfl

theorem acquireLoop_ne_stored (poolSize idx i c : ℕ) : acquireLoop poolSize idx ≠ .releaseStored i c := by
  unfold acquireLoop; split <;> nofun

/-- Past the top of the loop of `acquire`, the loaded head is a slot. -/
theorem acquireLoop_acquiring {poolSize idx i : ℕ} (h : (acquireLoop poolSize idx).acquiring = some i) :
    i ≠ poolSize := by
  unfold acquireLoop at h
  split at h
  · cases h
  · cases h; assumption

end ObjectPool

end StockAnomaly.Core

import StockAnomaly.Core.MpscInvariant
import StockAnomaly.Core.ObjectPool
import StockAnomaly.Theory.RetryLoop

/-!
# The queue and the pool are lock-free

`push`, `acquire` and `release` are retry loops: a thread that is held up, also for ever and at
any point, keeps no other thread from returning. A round of `push` is lost when the exchange of
`enqueue_pos_` fails or the slot's sequence number is ahead, and both mean that another push has
claimed the position: **`MpscQueue.push_steps_le`**. A round of `acquire` or `release` is lost
only when another exchange of `head_` has succeeded: **`ObjectPool.pool_steps_le`**.
-/

namespace StockAnomaly.Core

open Theory

section Push

variable {Tid T : Type}

/-- The steps to the end of `push`, if no round is lost. -/
def PushPc.remaining : PushPc T → ℕ
  | .idle => 0
  | .written .. => 1
  | .claimed .. => 2
  | .seqMatched .. => 3
  | .posLoaded .. => 4
  | .reload _ => 5

/-- The position is still to be claimed. -/
def PushPc.claims : PushPc T → Bool
  | .posLoaded .. | .seqMatched .. | .reload _ => true
  | _ => false

/-- The position that the exchange will expect. -/
def PushPc.expected : PushPc T → Option ℕ
  | .posLoaded _ pos | .seqMatched _ pos => some pos
  | _ => none

namespace MpscQueue

/-- The producer that takes the step. -/
def producerOf : MpscAction Tid T → Option Tid
  | .push t _ | .loadSequence t | .casEnqueue t _ | .writeData t | .publish t | .reloadPos t => some t
  | _ => none

/-- The exchange that fails also on the position that it expects. -/
def spuriously : MpscAction Tid T → Bool
  | .casEnqueue _ spurious => spurious
  | _ => false

def pushLoop (Tid T : Type) : RetryLoop (MpscQueue Tid T) (MpscAction Tid T) Tid (PushPc T) ℕ where
  thread := producerOf
  begins
    | .push .. => true
    | _ => false
  spurious := spuriously
  point := producer
  shared := enqueuePos
  remaining := PushPc.remaining
  pending := PushPc.claims
  loaded := PushPc.expected

variable {capacity : ℕ} {s s' : MpscQueue Tid T} {t u : Tid} [DecidableEq Tid] {a : MpscAction Tid T}

/-- The slot of the next position is not ahead of it. -/
theorem MpscInv.sequence_le (h : MpscInv capacity s) (pos : 0 < capacity) :
    s.sequence (s.enqueuePos % capacity) ≤ s.enqueuePos := by
  obtain ⟨q, bound, same, eq⟩ := h.sequence_cases pos s.enqueuePos
  have low := h.low
  have behind : q ≤ s.enqueuePos := by
    by_contra ahead
    have := Ring.eq_of_mod_eq same bound ⟨low, by omega⟩
    omega
  rcases behind.lt_or_eq with before | here
  · omega
  · have free : ¬ s.Published q := fun ⟨claimed, _⟩ => by
      rw [h.claims] at claimed
      omega
    have own := h.unpublished q bound.1 bound.2 free
    rw [here] at own
    exact own.le

/-- The producers that take no step stay where they are. -/
theorem producer_of_step (step : MpscQueue.step capacity s a = some s') (other : producerOf a ≠ some u) :
    s'.producer u = s.producer u := by
  have ne (t : Tid) (own : producerOf a = some t) : u ≠ t := by
    rintro rfl
    exact other own
  cases a <;> simp only [MpscQueue.step] at step <;> (repeat' split at step) <;> cases step <;>
    first | rfl | exact Function.update_of_ne (ne _ rfl) ..

omit [DecidableEq Tid] in
/-- A step of a producer that claims no position, by the points before and after it. -/
theorem proceeds {pc pc' : PushPc T} (point : s.producer t = pc) (point' : s'.producer t = pc')
    (inside : ¬ (pushLoop Tid T).begins a) (less : pc'.remaining < pc.remaining) (pending : pc'.claims → pc.claims)
    (same : s'.enqueuePos = s.enqueuePos) (calm : ∀ pos ∈ pc'.expected, pc.expected = some pos ∨ pos = s.enqueuePos) :
    (pushLoop Tid T).Moves 5 2 s a s' t := by
  subst point point'
  exact .proceed inside less pending same calm

/-- What a step of a producer does in its loop. -/
theorem moves_of_step (h : MpscInv capacity s) (mask : ∀ p, slotOf capacity p = p % capacity) (pos : 0 < capacity)
    (step : MpscQueue.step capacity s a = some s') (own : producerOf a = some t) :
    (pushLoop Tid T).Moves 5 2 s a s' t := by
  cases a with
  | push u data =>
    cases own
    simp only [MpscQueue.step] at step
    split at step <;> cases step
    rename_i point
    refine .call rfl ?_ ?_ rfl ?_
    · simp [pushLoop, point, PushPc.remaining]
    · simp [pushLoop, gotoPush, PushPc.remaining]
    · simp [pushLoop, gotoPush, PushPc.expected]
  | loadSequence u =>
    cases own
    simp only [MpscQueue.step] at step
    split at step
    · rename_i data p point
      split_ifs at step with found full <;> cases step
      · exact proceeds point (Function.update_self ..) (by exact Bool.false_ne_true) (by decide : 3 < 4)
          id rfl fun _ mem => .inl mem
      · exact proceeds point (Function.update_self ..) (by exact Bool.false_ne_true) (by decide : 0 < 4)
          (fun claims => absurd claims Bool.false_ne_true) rfl fun p mem => absurd mem (Option.not_mem_none p)
      · -- the slot is ahead, so another push has claimed the position
        have passed : p ≠ s.enqueuePos := by
          have behind := h.sequence_le pos
          rintro rfl
          rw [mask] at full found
          omega
        refine .retry Bool.false_ne_true ?_ ?_ (fun _ => ?_) rfl (.inl ⟨p, ?_, passed⟩) ?_
        · simp [pushLoop, point, PushPc.remaining]
        · simp [pushLoop, gotoPush, point, PushPc.remaining]
        · simp [pushLoop, point, PushPc.claims]
        · simp [pushLoop, point, PushPc.expected]
        · simp [pushLoop, gotoPush, PushPc.expected]
    · cases step
  | casEnqueue u spurious =>
    cases own
    simp only [MpscQueue.step] at step
    split at step
    · rename_i data p point
      split_ifs at step with won <;> cases step
      · refine .exchange Bool.false_ne_true ?_ ?_ ?_ ?_
        · simp [pushLoop, claim, point, PushPc.remaining]
        · simp [pushLoop, point, PushPc.claims]
        · simp [pushLoop, claim, PushPc.claims]
        · simp [pushLoop, claim, PushPc.expected]
      · refine .retry Bool.false_ne_true ?_ ?_ (fun _ => ?_) rfl ?_ ?_
        · simp [pushLoop, point, PushPc.remaining]
        · simp [pushLoop, gotoPush, point, PushPc.remaining]
        · simp [pushLoop, point, PushPc.claims]
        · by_cases same : p = s.enqueuePos
          · exact .inr (by simpa [pushLoop, same, spuriously] using won)
          · exact .inl ⟨p, by simp [pushLoop, point, PushPc.expected], same⟩
        · simp [pushLoop, gotoPush, PushPc.expected]
    · cases step
  | writeData u =>
    cases own
    simp only [MpscQueue.step] at step
    split at step <;> cases step
    rename_i point
    exact proceeds point (Function.update_self ..) (by exact Bool.false_ne_true) (by decide : 1 < 2)
      (fun claims => absurd claims Bool.false_ne_true) rfl fun p mem => absurd mem (Option.not_mem_none p)
  | publish u =>
    cases own
    simp only [MpscQueue.step] at step
    split at step <;> cases step
    rename_i point
    exact proceeds point (Function.update_self ..) (by exact Bool.false_ne_true) (by decide : 0 < 1)
      (fun claims => absurd claims Bool.false_ne_true) rfl fun p mem => absurd mem (Option.not_mem_none p)
  | reloadPos u =>
    cases own
    simp only [MpscQueue.step] at step
    split at step <;> cases step
    rename_i point
    refine proceeds point (Function.update_self ..) (by exact Bool.false_ne_true) (by decide : 4 < 5)
      (fun _ => rfl) rfl fun p mem => .inr ?_
    exact (Option.some.inj mem).symm
  | pop | popLoadSequence | moveData | storeSequence | storeDequeue => cases own

theorem lawful_pushLoop [Inhabited T] {k : ℕ} (positive : 0 < k) :
    (pushLoop Tid T).Lawful (machine Tid T (2 ^ k)) 5 2 where
  init t := ⟨rfl, rfl, rfl⟩
  others s a s' _ step u other := producer_of_step step other
  moves s a s' t reach step own :=
    moves_of_step (MpscInv.reachable positive reach) (slotOf_two_pow k) (Nat.two_pow_pos k) step own
  elsewhere s a s' _ step other := by
    constructor
    · cases a with
      | push => cases other
      | _ => nofun
    · cases a <;> simp only [machine, MpscQueue.step] at step <;> (repeat' split at step) <;> cases step <;>
        first | rfl | cases other

/-- The finished calls of `push`. -/
def pushReturns (s : MpscQueue Tid T) : ℕ :=
  s.returns.countP fun | .push .. => true | .pop _ => false

/-- The steps that end a call are those that record its result. -/
theorem pushReturns_of_step (step : MpscQueue.step capacity s a = some s') :
    s'.pushReturns = s.pushReturns + ((pushLoop Tid T).ends s' a).toNat := by
  cases a <;> simp only [MpscQueue.step] at step <;> (repeat' split at step) <;> cases step <;>
    simp [pushReturns, RetryLoop.ends, pushLoop, producerOf, gotoPush, gotoPop, returned, claim, fill,
      publish, giveBack,
      advance, PushPc.remaining, List.countP_append]

/-- The recorded results are the calls that have returned. -/
theorem pushReturns_eq [Inhabited T] {acts : List (MpscAction Tid T)}
    (run : (machine Tid T capacity).run acts = some s) :
    s.pushReturns = (pushLoop Tid T).returns (machine Tid T capacity) (machine Tid T capacity).init acts := by
  induction acts using List.reverseRecOn generalizing s with
  | nil =>
    cases run
    rfl
  | append_singleton acts a ih =>
    obtain ⟨before, run, last⟩ := Machine.run_snoc.1 run
    rw [pushReturns_of_step last, RetryLoop.returns_snoc run last, ih run]

/-- **`push` is lock-free**: however the threads are scheduled, and whatever the consumer does,
all producers together take for each `push` that returns at most five steps and two for each
other producer, and two for each spurious failure of the exchange. -/
theorem push_steps_le [Inhabited T] {k : ℕ} (positive : 0 < k) {acts : List (MpscAction Tid T)}
    (run : (machine Tid T (2 ^ k)).run acts = some s) {producers : Finset Tid}
    (within : ∀ a ∈ acts, ∀ t ∈ producerOf a, t ∈ producers) :
    acts.countP (producerOf · |>.isSome) ≤
      (5 + 2 * (producers.card - 1)) * (s.pushReturns + producers.card) + 2 * acts.countP spuriously := by
  rw [pushReturns_eq run]
  exact (lawful_pushLoop positive).steps_le run within

/-- Two producers, the first of which loses a round to the second. -/
theorem push_steps_le_two : ∃ (acts : List (MpscAction ℕ ℕ)) (s : MpscQueue ℕ ℕ),
    (machine ℕ ℕ (2 ^ 1)).run acts = some s ∧ s.pushReturns = 2 ∧
      acts.countP (producerOf · |>.isSome) ≤ (5 + 2 * (2 - 1)) * (s.pushReturns + 2) +
        2 * acts.countP spuriously := by
  obtain ⟨s, run, found⟩ := (machine ℕ ℕ (2 ^ 1)).exists_of_any
    [.push 0 7, .push 1 8, .loadSequence 0, .loadSequence 1, .casEnqueue 1 false, .casEnqueue 0 false, .writeData 1,
      .publish 1, .loadSequence 0, .casEnqueue 0 true, .loadSequence 0, .casEnqueue 0 false, .writeData 0, .publish 0]
    (fun s => s.pushReturns = 2) (by decide)
  refine ⟨_, s, run, of_decide_eq_true found, ?_⟩
  exact push_steps_le (by decide) run (show ∀ a ∈ _, ∀ t ∈ producerOf a, t ∈ ({0, 1} : Finset ℕ) by decide)

end MpscQueue

end Push

section Pool

/-- The steps to the end of the call, if no round is lost. -/
def PoolPc.remaining : PoolPc → ℕ
  | .idle => 0
  | .acquireNext .. | .releaseStored .. => 1
  | .acquireLoaded _ | .releaseLoaded .. => 2

/-- The value of `head_` that the exchange will expect. -/
def PoolPc.expected : PoolPc → Option ℕ
  | .idle => none
  | .acquireLoaded idx | .acquireNext idx _ => some idx
  | .releaseLoaded _ current | .releaseStored _ current => some current

namespace ObjectPool

variable {Tid : Type}

/-- The thread that takes the step. -/
def threadOf : PoolAction Tid → Tid
  | .acquire t | .loadNext t | .casAcquire t _ | .release t _ | .storeNext t | .casRelease t _ => t

/-- The exchange that fails also on the head that it expects. -/
def spuriously : PoolAction Tid → Bool
  | .casAcquire _ spurious | .casRelease _ spurious => spurious
  | _ => false

def poolLoop (Tid : Type) : RetryLoop (ObjectPool Tid) (PoolAction Tid) Tid PoolPc ℕ where
  thread a := some (threadOf a)
  begins
    | .acquire _ | .release .. => true
    | _ => false
  spurious := spuriously
  point := pc
  shared := head
  remaining := PoolPc.remaining
  pending pc := pc ≠ .idle
  loaded := PoolPc.expected

variable {poolSize : ℕ} {s s' : ObjectPool Tid} {t u : Tid} [DecidableEq Tid] {a : PoolAction Tid}

theorem acquireLoop_remaining (poolSize idx : ℕ) : (acquireLoop poolSize idx).remaining ≤ 2 := by
  unfold acquireLoop
  split
  · exact Nat.zero_le 2
  · exact Nat.le_refl 2

theorem acquireLoop_expected {poolSize idx i : ℕ} (h : (acquireLoop poolSize idx).expected = some i) : i = idx := by
  unfold acquireLoop at h
  split at h
  · cases h
  · exact (Option.some.inj h).symm

theorem pc_of_step (step : ObjectPool.step poolSize s a = some s') (other : threadOf a ≠ u) : s'.pc u = s.pc u := by
  cases a <;> simp only [ObjectPool.step] at step <;> (repeat' split at step) <;> cases step <;>
    exact Function.update_of_ne other.symm ..

/-- What a step does in the loop of its call. -/
theorem moves_of_step (step : ObjectPool.step poolSize s a = some s') :
    (poolLoop Tid).Moves 3 2 s a s' (threadOf a) := by
  cases a with
  | acquire t =>
    simp only [ObjectPool.step] at step
    split at step <;> cases step
    rename_i point
    have short := acquireLoop_remaining poolSize s.head
    refine .call rfl ?_ ?_ rfl fun i mem => ?_
    · simp [poolLoop, threadOf, point, PoolPc.remaining]
    · simp only [poolLoop, threadOf, goto_pc_self]
      omega
    · simp only [poolLoop, threadOf, goto_pc_self] at mem
      exact acquireLoop_expected mem
  | loadNext t =>
    simp only [ObjectPool.step] at step
    split at step <;> cases step
    rename_i idx point
    refine .proceed Bool.false_ne_true ?_ (fun _ => ?_) rfl fun i mem => .inl ?_
    · simp [poolLoop, threadOf, point, PoolPc.remaining]
    · simp [poolLoop, threadOf, point]
    · simpa [poolLoop, threadOf, point, PoolPc.expected] using mem
  | casAcquire t spurious =>
    simp only [ObjectPool.step] at step
    split at step
    · rename_i idx next point
      split_ifs at step with won <;> cases step
      · refine .exchange Bool.false_ne_true ?_ ?_ ?_ ?_
        · simp [poolLoop, threadOf, goto, point, PoolPc.remaining]
        · simp [poolLoop, threadOf, point]
        · simp [poolLoop, threadOf, goto]
        · simp [poolLoop, threadOf, goto, PoolPc.expected]
      · have short := acquireLoop_remaining poolSize s.head
        refine .retry Bool.false_ne_true ?_ ?_ (fun _ => ?_) rfl ?_ fun i mem => ?_
        · simp [poolLoop, threadOf, point, PoolPc.remaining]
        · simp only [poolLoop, threadOf, goto_pc_self, point]
          exact short.trans_lt (by decide : 2 < 1 + 2)
        · simp [poolLoop, threadOf, point]
        · by_cases same : idx = s.head
          · exact .inr (by simpa [poolLoop, same, spuriously] using won)
          · exact .inl ⟨idx, by simp [poolLoop, threadOf, point, PoolPc.expected], same⟩
        · simp only [poolLoop, threadOf, goto_pc_self] at mem
          exact acquireLoop_expected mem
    · cases step
  | release t idx =>
    simp only [ObjectPool.step] at step
    split at step
    · rename_i point
      split_ifs at step with held
      cases step
      refine .call rfl ?_ ?_ rfl ?_
      · simp [poolLoop, threadOf, point, PoolPc.remaining]
      · simp [poolLoop, threadOf, goto, PoolPc.remaining]
      · simp [poolLoop, threadOf, goto, PoolPc.expected]
    · cases step
  | storeNext t =>
    simp only [ObjectPool.step] at step
    split at step <;> cases step
    rename_i idx current point
    refine .proceed Bool.false_ne_true ?_ (fun _ => ?_) rfl fun i mem => .inl ?_
    · simp [poolLoop, threadOf, goto, point, PoolPc.remaining]
    · simp [poolLoop, threadOf, point]
    · simpa [poolLoop, threadOf, goto, point, PoolPc.expected] using mem
  | casRelease t spurious =>
    simp only [ObjectPool.step] at step
    split at step
    · rename_i idx current point
      split_ifs at step with won <;> cases step
      · refine .exchange Bool.false_ne_true ?_ ?_ ?_ ?_
        · simp [poolLoop, threadOf, goto, point, PoolPc.remaining]
        · simp [poolLoop, threadOf, point]
        · simp [poolLoop, threadOf, goto]
        · simp [poolLoop, threadOf, goto, PoolPc.expected]
      · refine .retry Bool.false_ne_true ?_ ?_ (fun _ => ?_) rfl ?_ ?_
        · simp [poolLoop, threadOf, point, PoolPc.remaining]
        · simp [poolLoop, threadOf, point, PoolPc.remaining]
        · simp [poolLoop, threadOf, point]
        · by_cases same : current = s.head
          · exact .inr (by simpa [poolLoop, same, spuriously] using won)
          · exact .inl ⟨current, by simp [poolLoop, threadOf, point, PoolPc.expected], same⟩
        · simp [poolLoop, threadOf, PoolPc.expected]
    · cases step

theorem lawful_poolLoop (poolSize : ℕ) : (poolLoop Tid).Lawful (machine Tid poolSize) 3 2 where
  init t := ⟨rfl, rfl, rfl⟩
  others s a s' _ step u other := pc_of_step step fun own => other (congrArg some own)
  moves s a s' t _ step own := by
    obtain rfl := Option.some.inj own
    exact moves_of_step step
  elsewhere s a s' _ _ other := by cases other

/-- **`acquire` and `release` are lock-free**: however the threads are scheduled, all of them
together take for each call that returns at most three steps and two for each other thread, and
two for each spurious failure of an exchange. -/
theorem pool_steps_le {poolSize : ℕ} {acts : List (PoolAction Tid)} (run : (machine Tid poolSize).run acts = some s)
    {threads : Finset Tid} (within : ∀ a ∈ acts, threadOf a ∈ threads) :
    acts.length ≤ (3 + 2 * (threads.card - 1)) *
        ((poolLoop Tid).returns (machine Tid poolSize) (machine Tid poolSize).init acts + threads.card) +
      2 * acts.countP spuriously := by
  have all : (poolLoop Tid).steps acts = acts.length := List.countP_eq_length.2 fun _ _ => rfl
  have bound := (lawful_poolLoop poolSize).steps_le run fun a mem t own => Option.some.inj own ▸ within a mem
  rwa [all] at bound

/-- Two threads, the second of which loses a round to the first. -/
theorem pool_steps_le_two : ∃ acts : List (PoolAction ℕ), ∃ s, (machine ℕ 2).run acts = some s ∧
    s.heldSlots = [1, 0] ∧
    acts.length ≤ (3 + 2 * (2 - 1)) *
        ((poolLoop ℕ).returns (machine ℕ 2) (machine ℕ 2).init acts + 2) + 2 * acts.countP spuriously := by
  obtain ⟨s, run, found⟩ := (machine ℕ 2).exists_of_any
    [.acquire 0, .acquire 1, .loadNext 0, .loadNext 1, .casAcquire 0 false, .casAcquire 1 false, .loadNext 1,
      .casAcquire 1 false] (fun s => s.heldSlots = [1, 0]) (by decide)
  refine ⟨_, s, run, of_decide_eq_true found, ?_⟩
  exact pool_steps_le run (show ∀ a ∈ _, threadOf a ∈ ({0, 1} : Finset ℕ) by decide)

end ObjectPool

end Pool

end StockAnomaly.Core

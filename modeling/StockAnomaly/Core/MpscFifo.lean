import StockAnomaly.Core.MpscInvariant

/-!
# `MPSCQueue` is a bounded FIFO

The order of the queue is the order in which positions are claimed. `LinearFifo` says
what the calls return in terms of it: `pop` delivers the claimed items from the front,
each read whole from its slot and never overwritten before, `push` reports a full queue
only when every slot is taken, and `pop` an empty one only when the next item is not
published. It holds in every reachable state of every interleaving
(`linearFifo_of_reachable`).
-/

namespace StockAnomaly.Core.MpscQueue

open Theory

variable {Tid T : Type} [DecidableEq Tid] {capacity : ℕ} {s s' : MpscQueue Tid T}

/-- The queue's contract in a state `s` of a run. -/
structure LinearFifo (capacity : ℕ) (s : MpscQueue Tid T) : Prop where
  /-- `pop` has returned the first claimed items, in order. -/
  popped : s.popped <+: s.claimed.map Prod.snd
  /-- A producer's claimed items are those it pushed, in its order, and the one in hand. -/
  pushed : ∀ t, (s.claimed.filter (·.1 = t)).map Prod.snd = s.pushed t ++ (s.producer t).pending
  /-- A claimed item not given back is with its producer or whole in its slot. -/
  kept : ∀ p t x, s.claimed[p]? = some (t, x) → s.released ≤ p →
    s.Filling t x p ∨ (s.data (slotOf capacity p) = x ∧ s.sequence (slotOf capacity p) = p + 1)
  /-- What is given back has been returned, but for the item the consumer is returning. -/
  inHand : s.released = s.popped.length ∨ ∃ t x, s.claimed[s.popped.length]? = some (t, x) ∧
    s.consumer = .released s.popped.length x
  /-- The consumer reads the next item, from a slot nobody is writing. -/
  reads : ∀ pos, s.consumer = .seqMatched pos → pos = s.popped.length ∧
    (∀ t x q, s.Filling t x q → slotOf capacity q ≠ slotOf capacity pos) ∧
    ∃ t, s.claimed[pos]? = some (t, s.data (slotOf capacity pos))
  /-- A producer about to write a slot finds every other item claimed for it given back. -/
  overwrites : ∀ t x pos, s.producer t = .claimed x pos → ∀ q < s.claimed.length, q ≠ pos →
    slotOf capacity q = slotOf capacity pos → q < s.released
  /-- `push` returns `false` in a moment at which all positions are claimed and not released. -/
  full : ∀ a s' t x, step capacity s a = some s' → s'.returns = s.returns ++ [.push t x false] →
    (∃ pos, s.producer t = .posLoaded x pos) ∧ s.claimed.length = s.released + capacity
  /-- `pop` returns `nullopt` in a moment at which the next item is not published. -/
  empty : ∀ a s', step capacity s a = some s' → s'.returns = s.returns ++ [.pop none] →
    ¬ s.Published s.popped.length

/-- The return that a step records, if any. A call fails at the load of a sequence number. -/
inductive Records (capacity : ℕ) (s : MpscQueue Tid T) : List (MpscReturn Tid T) → Prop
  | nothing : Records capacity s []
  | pushed (t : Tid) (x : T) : Records capacity s [.push t x true]
  | popped (x : T) : Records capacity s [.pop (some x)]
  | full {t : Tid} {x : T} {pos : ℕ} (point : s.producer t = .posLoaded x pos)
      (below : s.sequence (slotOf capacity pos) < pos) : Records capacity s [.push t x false]
  | empty {pos : ℕ} (point : s.consumer = .posLoaded pos) (other : s.sequence (slotOf capacity pos) ≠ pos + 1) :
      Records capacity s [.pop none]

/-- **What a step records.** -/
theorem records_of_step {a : MpscAction Tid T} (step : MpscQueue.step capacity s a = some s') :
    ∃ recorded, s'.returns = s.returns ++ recorded ∧ Records capacity s recorded := by
  have silent {u : MpscQueue Tid T} (same : u.returns = s.returns) :
      ∃ recorded, u.returns = s.returns ++ recorded ∧ Records capacity s recorded :=
    ⟨[], by rw [same, List.append_nil], .nothing⟩
  cases a with
  | loadSequence u =>
    simp only [MpscQueue.step] at step
    split at step
    · rename_i data pos point
      split_ifs at step with matched below <;> cases step
      · exact silent rfl
      · exact ⟨_, rfl, .full point (by omega)⟩
      · exact silent rfl
    · cases step
  | casEnqueue u spurious =>
    simp only [MpscQueue.step] at step
    split at step
    · split_ifs at step <;> cases step <;> exact silent rfl
    · cases step
  | popLoadSequence =>
    simp only [MpscQueue.step] at step
    split at step
    · rename_i pos point
      split_ifs at step with other <;> cases step
      · exact ⟨_, rfl, .empty point (by omega)⟩
      · exact silent rfl
    · cases step
  | publish u =>
    simp only [MpscQueue.step] at step
    split at step <;> cases step
    exact ⟨_, rfl, .pushed _ _⟩
  | storeDequeue =>
    simp only [MpscQueue.step] at step
    split at step <;> cases step
    exact ⟨_, rfl, .popped _⟩
  | push | writeData | reloadPos | pop | moveData | storeSequence =>
    simp only [MpscQueue.step] at step
    split at step <;> cases step
    exact silent rfl

/-- `push` returns `false` only after loading a sequence number below its position. -/
theorem push_false_inv {a : MpscAction Tid T} {t : Tid} {x : T} (step : MpscQueue.step capacity s a = some s')
    (ret : s'.returns = s.returns ++ [.push t x false]) :
    ∃ pos, s.producer t = .posLoaded x pos ∧ s.sequence (slotOf capacity pos) < pos := by
  obtain ⟨recorded, eq, records⟩ := records_of_step step
  obtain rfl := List.append_cancel_left (eq.symm.trans ret)
  cases records with
  | full point below => exact ⟨_, point, below⟩

/-- `pop` returns `nullopt` only after loading a sequence number other than `pos + 1`. -/
theorem pop_none_inv {a : MpscAction Tid T} (step : MpscQueue.step capacity s a = some s')
    (ret : s'.returns = s.returns ++ [.pop none]) :
    ∃ pos, s.consumer = .posLoaded pos ∧ s.sequence (slotOf capacity pos) ≠ pos + 1 := by
  obtain ⟨recorded, eq, records⟩ := records_of_step step
  obtain rfl := List.append_cancel_left (eq.symm.trans ret)
  cases records with
  | empty point other => exact ⟨_, point, other⟩

omit [DecidableEq Tid] in
theorem released_cases (s : MpscQueue Tid T) : s.released = s.dequeuePos ∨
    ∃ pos item, s.consumer = .released pos item ∧ s.released = s.dequeuePos + 1 := by
  unfold released
  split
  · exact .inr ⟨_, _, ‹_›, rfl⟩
  · exact .inl rfl

theorem MpscInv.dequeue_le (h : MpscInv capacity s) : s.dequeuePos ≤ s.claimed.length := by
  have := h.claims
  have := h.low
  rcases released_cases s with eq | ⟨_, _, _, eq⟩ <;> omega

theorem MpscInv.popped_length (h : MpscInv capacity s) : s.popped.length = s.dequeuePos := by
  rw [h.popped, List.length_map, List.length_take, Nat.min_eq_left h.dequeue_le]

theorem MpscInv.linearFifo (h : MpscInv capacity s) (positive : 0 < capacity)
    (mask : ∀ p, slotOf capacity p = p % capacity) : LinearFifo capacity s where
  popped := by
    rw [h.popped]
    exact (List.take_prefix _ _).map _
  pushed := h.pushed
  kept p t x claimed lo := by
    have lt : p < s.claimed.length := (List.getElem?_eq_some_iff.1 claimed).1
    have hi : p < s.released + capacity := Nat.lt_of_lt_of_le (h.claims ▸ lt) h.high
    by_cases pub : s.Published p
    · refine .inr ⟨?_, by rw [mask]; exact h.published p lo hi pub⟩
      have stored := h.stored p lo pub
      rw [claimed] at stored
      rw [mask]
      exact (Option.some.inj stored).symm
    · obtain ⟨u, y, f⟩ : ∃ u y, s.Filling u y p := by
        by_contra none
        exact pub ⟨lt, fun u y f => none ⟨u, y, f⟩⟩
      cases claimed.symm.trans (h.filling u y p f).2
      exact .inl f
  inHand := by
    rw [h.popped_length]
    rcases released_cases s with eq | ⟨pos, item, point, -⟩
    · exact .inl eq
    · have inv := h.consumer
      simp only [ConsumerInv, point] at inv
      obtain ⟨rfl, holds⟩ := inv
      obtain ⟨⟨t, x⟩, claimed, rfl⟩ := Option.map_eq_some_iff.1 holds
      exact .inr ⟨t, x, claimed, point⟩
  reads pos point := by
    have inv := h.consumer
    simp only [ConsumerInv, point] at inv
    obtain ⟨rfl, pub⟩ := inv
    have same : s.released = s.dequeuePos := by simp [released, point]
    refine ⟨h.popped_length.symm, fun t x q f => ?_, ?_⟩
    · have lo := (h.filling t x q f).1
      have lt := h.filling_lt f
      have := h.high
      have ne : q ≠ s.dequeuePos := by rintro rfl; exact pub.2 t x f
      rw [mask, mask]
      exact slot_ne ne ⟨lo, by omega⟩ ⟨by omega, by omega⟩
    · obtain ⟨⟨t, x⟩, claimed, eq⟩ := Option.map_eq_some_iff.1 (h.stored _ (by omega) pub)
      refine ⟨t, ?_⟩
      rw [claimed, mask, ← eq]
  overwrites t x pos point q lt ne same := by
    have mine : s.Filling t x pos := .inl point
    have lo := (h.filling t x pos mine).1
    have hi := h.filling_lt mine
    have := h.high
    have := h.claims
    rw [mask, mask] at same
    by_contra far
    exact slot_ne ne ⟨by omega, by omega⟩ ⟨lo, by omega⟩ same
  full a s' t x step ret := by
    obtain ⟨pos, point, below⟩ := push_false_inv step ret
    rw [mask] at below
    exact ⟨⟨pos, point⟩, h.claims.trans (h.full_of_sequence_lt positive (h.loaded t x pos point) below)⟩
  empty a s' step ret pub := by
    obtain ⟨pos, point, other⟩ := pop_none_inv step ret
    have inv := h.consumer
    simp only [ConsumerInv, point] at inv
    have same : s.released = s.dequeuePos := by simp [released, point]
    rw [h.popped_length, ← inv] at pub
    rw [mask] at other
    exact other (h.published pos (by omega) (by omega) pub)

/-- **The queue is a linearizable bounded FIFO**, for every capacity `2 ^ k > 1`, any
producers and every interleaving. -/
theorem linearFifo_of_reachable [Inhabited T] {k : ℕ} (positive : 0 < k) {s : MpscQueue Tid T}
    (reach : (machine Tid T (2 ^ k)).Reachable s) : LinearFifo (2 ^ k) s :=
  (MpscInv.reachable positive reach).linearFifo (Nat.two_pow_pos k) (slotOf_two_pow k)

/-- Two producers fill a queue of two slots, a third push fails, and one item is popped. -/
theorem linearFifo_of_reachable_two :
    ∃ s : MpscQueue ℕ ℕ, s.popped = [7] ∧ s.pushed 1 = [8] ∧ LinearFifo (2 ^ 1) s := by
  obtain ⟨s, run, found⟩ := (machine ℕ ℕ (2 ^ 1)).exists_of_any
    [.push 0 7, .push 1 8, .loadSequence 0, .casEnqueue 0 false, .loadSequence 1, .casEnqueue 1 false,
      .loadSequence 1, .casEnqueue 1 false, .writeData 1, .publish 1, .push 1 9, .loadSequence 1,
      .writeData 0, .publish 0, .pop, .popLoadSequence, .moveData, .storeSequence, .storeDequeue]
    (fun s => s.popped = [7] ∧ s.pushed 1 = [8]) (by decide)
  obtain ⟨popped, pushed⟩ := of_decide_eq_true found
  exact ⟨s, popped, pushed, linearFifo_of_reachable (by decide) ⟨_, run⟩⟩

end StockAnomaly.Core.MpscQueue

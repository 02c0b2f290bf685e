import Mathlib.Data.Nat.ModEq
import StockAnomaly.Core.SpscQueue
import StockAnomaly.Theory.Ring

/-!
# `SPSCQueue` is a bounded FIFO

`SpscInv` relates a state to the list of the queued items: they lie in the slots from `tail_` on, `head_`
is the slot after the last of them, and `unread` has, offset by offset, the queued items without the one
the consumer has moved out, and after them the one the producer has written. A load of the other's index
decides the call; what a side has seen stays true, since the other can only make more room or more items.
Every load and store keeps the invariant, so in every run the returns are a history of the bounded queue
(**`refinesFifo_of_reachable`**).
-/

namespace StockAnomaly.Core

open Theory

variable {T : Type}

/-- The queued items by offset from the tail; one that has been moved out leaves a gap. -/
def SpscPopPc.queued (pc : SpscPopPc T) (items : List T) : List (Option T) :=
  match pc with
  | .moved _ _ => none :: items.tail.map some
  | _ => items.map some

/-- The item written and not yet published. -/
def SpscPushPc.pending : SpscPushPc T → List (Option T)
  | .written item _ => [some item]
  | _ => []

namespace SpscQueue

variable {capacity : ℕ} {s s' : SpscQueue T} {items : List T}

/-- What the slots hold, by offset from the tail. -/
def cells (s : SpscQueue T) (items : List T) : List (Option T) := s.consumer.queued items ++ s.producer.pending

/-- What the producer knows: its local index is current, and the room it has seen is still there. -/
def ProducerInv (capacity : ℕ) (s : SpscQueue T) (items : List T) : Prop :=
  match s.producer with
  | .idle => True
  | .headLoaded _ head => head = s.head
  | .roomSeen _ head => head = s.head ∧ items.length + 1 < capacity
  | .written _ head => head = s.head ∧ items.length + 1 < capacity

/-- What the consumer knows: its local index is current, and the item it has seen is still there. -/
def ConsumerInv (s : SpscQueue T) (items : List T) : Prop :=
  match s.consumer with
  | .idle => True
  | .tailLoaded tail => tail = s.tail
  | .itemSeen tail => tail = s.tail ∧ items ≠ []
  | .moved tail item => tail = s.tail ∧ items.head? = some item

structure SpscInv (capacity : ℕ) (s : SpscQueue T) (items : List T) : Prop where
  history : BoundedFifo (capacity - 1) s.returns items
  tail_lt : s.tail < capacity
  head_eq : s.head = (s.tail + items.length) % capacity
  unread : ∀ i < capacity, s.unread ((s.tail + i) % capacity) = (s.cells items)[i]?.join
  stored : ∀ j x, s.unread j = some x → s.buffer j = x
  producer : s.ProducerInv capacity items
  consumer : s.ConsumerInv items

theorem length_queued {pc : SpscPopPc T} (some_item : ∀ tail item, pc = .moved tail item → items ≠ []) :
    (pc.queued items).length = items.length := by
  cases pc with
  | moved tail item =>
    have pos := List.length_pos_iff.2 (some_item tail item rfl)
    simp only [SpscPopPc.queued, List.length_cons, List.length_map, List.length_tail]
    omega
  | _ => simp [SpscPopPc.queued]

/-- One more cell at the end changes no other offset. -/
theorem join_getElem?_snoc {l : List (Option T)} {x : Option T} {i : ℕ} (other : i ≠ l.length) :
    (l ++ [x])[i]?.join = l[i]?.join := by
  rcases Nat.lt_or_gt_of_ne other with inside | beyond
  · rw [List.getElem?_append_left inside]
  · have past : (l ++ [x]).length ≤ i := by
      rw [List.length_append, List.length_singleton]
      exact beyond
    rw [List.getElem?_eq_none past, List.getElem?_eq_none beyond.le]

section Steps

/-- A consumer in the middle of a `pop` has an item. -/
theorem SpscInv.some_item (h : SpscInv capacity s items) (tail : ℕ) (item : T) (moved : s.consumer = .moved tail item) :
    items ≠ [] := by
  have inv := h.consumer
  simp only [ConsumerInv, moved] at inv
  rintro rfl
  simp at inv

theorem SpscInv.length_lt (h : SpscInv capacity s items) (one : 1 < capacity) : items.length < capacity := by
  have := h.history.length_le
  omega

/-- Two offsets inside the ring have different slots. -/
theorem slot_ne (tail : ℕ) {i j : ℕ} (ne : i ≠ j) (hi : i < capacity) (hj : j < capacity) :
    (tail + i) % capacity ≠ (tail + j) % capacity := by
  intro same
  have window : tail ≤ tail + i ∧ tail + i < tail + capacity := ⟨by omega, by omega⟩
  have := Ring.eq_of_mod_eq same window ⟨by omega, by omega⟩
  omega

theorem SpscInv.tail_slot (h : SpscInv capacity s items) : (s.tail + 0) % capacity = s.tail :=
  Nat.mod_eq_of_lt h.tail_lt

/-- The consumer's test: the queue is empty. -/
theorem SpscInv.tail_eq_head_iff (h : SpscInv capacity s items) (one : 1 < capacity) :
    s.tail = s.head ↔ items = [] := by
  rw [← h.tail_slot, h.head_eq, ← List.length_eq_zero_iff]
  constructor
  · intro same
    by_contra some_item
    refine slot_ne _ (Ne.symm some_item) (by omega) (h.length_lt one) same
  · intro none
    rw [none]

/-- A step of the producer that stores nothing. -/
theorem SpscInv.moveProducer (h : SpscInv capacity s items) {pc : SpscPushPc T}
    (calm : s.producer.pending = []) (calm' : pc.pending = [])
    (producer : ({ s with producer := pc } : SpscQueue T).ProducerInv capacity items) :
    SpscInv capacity { s with producer := pc } items where
  history := h.history
  tail_lt := h.tail_lt
  head_eq := h.head_eq
  unread := by
    have old := h.unread
    simp only [cells, calm, calm'] at old ⊢
    exact old
  stored := h.stored
  producer := producer
  consumer := h.consumer

/-- A step of the consumer that stores nothing. -/
theorem SpscInv.moveConsumer (h : SpscInv capacity s items) {pc : SpscPopPc T}
    (calm : s.consumer.queued items = items.map some) (calm' : pc.queued items = items.map some)
    (consumer : ({ s with consumer := pc } : SpscQueue T).ConsumerInv items) :
    SpscInv capacity { s with consumer := pc } items where
  history := h.history
  tail_lt := h.tail_lt
  head_eq := h.head_eq
  unread := by
    have old := h.unread
    simp only [cells, calm, calm'] at old ⊢
    exact old
  stored := h.stored
  producer := h.producer
  consumer := consumer

/-- A call that returns without an item. -/
theorem SpscInv.returned (h : SpscInv capacity s items) {r : FifoReturn T}
    (history : BoundedFifo (capacity - 1) (s.returns ++ [r]) items) :
    SpscInv capacity { s with returns := s.returns ++ [r] } items where
  history := history
  tail_lt := h.tail_lt
  head_eq := h.head_eq
  unread := h.unread
  stored := h.stored
  producer := h.producer
  consumer := h.consumer

/-- What the free slot is when the producer writes it: no unread item is there. -/
theorem SpscInv.unread_head (h : SpscInv capacity s items) (one : 1 < capacity) (calm : s.producer.pending = []) :
    s.unread s.head = none := by
  rw [h.head_eq, h.unread _ (h.length_lt one), cells, calm, List.append_nil,
    List.getElem?_eq_none (length_queued h.some_item).le]
  rfl

/-- The oldest item is in the slot of the tail until it is moved out. -/
theorem SpscInv.unread_tail (h : SpscInv capacity s items) (one : 1 < capacity) {x : T} {rest : List T}
    (eq : items = x :: rest) (calm : s.consumer.queued items = items.map some) :
    s.unread s.tail = some x := by
  have slot := h.unread 0 (by omega)
  rw [h.tail_slot, cells, calm, eq] at slot
  exact slot

/-- Writing the item. -/
theorem SpscInv.writeItem (h : SpscInv capacity s items) (one : 1 < capacity) {item : T} {head : ℕ}
    (point : s.producer = .roomSeen item head) : SpscInv capacity (s.writeItem item head) items := by
  have inv := h.producer
  simp only [ProducerInv, point] at inv
  obtain ⟨rfl, room⟩ := inv
  have length : (s.consumer.queued items).length = items.length := length_queued h.some_item
  have calm : s.producer.pending = [] := by rw [point]; rfl
  have cells_eq : (s.writeItem item s.head).cells items = s.consumer.queued items ++ [some item] := rfl
  have tail_eq : (s.writeItem item s.head).tail = s.tail := rfl
  refine ⟨h.history, h.tail_lt, h.head_eq, ?_, ?_, ⟨rfl, room⟩, h.consumer⟩
  · intro i lt
    have old := h.unread i lt
    rw [cells, calm, List.append_nil] at old
    rw [cells_eq, tail_eq]
    by_cases own : i = items.length
    · subst own
      rw [← h.head_eq, List.getElem?_append_right length.le, length, Nat.sub_self]
      exact Function.update_self ..
    · have far : (s.tail + i) % capacity ≠ s.head := by
        rw [h.head_eq]
        exact slot_ne _ own lt (h.length_lt one)
      rw [join_getElem?_snoc (length ▸ own), ← old]
      exact Function.update_of_ne far ..
  · intro j x here
    by_cases own : j = s.head
    · subst own
      obtain rfl : item = x := by simpa [SpscQueue.writeItem] using here
      exact Function.update_self ..
    · have old : s.unread j = some x := by simpa [SpscQueue.writeItem, own] using here
      exact (Function.update_of_ne own ..).trans (h.stored j x old)

/-- Moving the oldest item out. -/
theorem SpscInv.moveItem (h : SpscInv capacity s items) (one : 1 < capacity) {tail : ℕ}
    (point : s.consumer = .itemSeen tail) : SpscInv capacity (s.moveItem tail) items := by
  have inv := h.consumer
  simp only [ConsumerInv, point] at inv
  obtain ⟨rfl, some_item⟩ := inv
  obtain ⟨x, rest, eq⟩ := List.exists_cons_of_ne_nil some_item
  have calm : s.consumer.queued items = items.map some := by rw [point]; rfl
  have value : s.buffer s.tail = x := h.stored _ _ (h.unread_tail one eq calm)
  have tail_eq : (s.moveItem s.tail).tail = s.tail := rfl
  refine ⟨h.history, h.tail_lt, h.head_eq, ?_, ?_, h.producer, ⟨rfl, ?_⟩⟩
  · intro i lt
    have old := h.unread i lt
    rw [cells, calm, eq, List.map_cons, List.cons_append] at old
    have cells_eq : (s.moveItem s.tail).cells items = none :: (rest.map some ++ s.producer.pending) := by
      rw [eq]
      rfl
    rw [cells_eq, tail_eq]
    cases i with
    | zero =>
      rw [h.tail_slot]
      exact Function.update_self ..
    | succ i =>
      have far : (s.tail + (i + 1)) % capacity ≠ s.tail := by
        have ne := slot_ne s.tail (Nat.succ_ne_zero i) lt (by omega)
        rwa [h.tail_slot] at ne
      exact (Function.update_of_ne far ..).trans old
  · intro j y here
    by_cases own : j = s.tail
    · subst own
      simp [SpscQueue.moveItem] at here
    · exact h.stored j y (by simpa [SpscQueue.moveItem, own] using here)
  · rw [eq, value]
    rfl

variable (mask : ∀ i, nextIndex capacity i = (i + 1) % capacity)

include mask

theorem SpscInv.next_head (h : SpscInv capacity s items) :
    nextIndex capacity s.head = (s.tail + (items.length + 1)) % capacity := by
  rw [mask, h.head_eq, Nat.mod_add_mod, Nat.add_assoc]

/-- The producer's test: only the free slot is left. -/
theorem SpscInv.next_head_eq_tail_iff (h : SpscInv capacity s items) (one : 1 < capacity) :
    nextIndex capacity s.head = s.tail ↔ items.length + 1 = capacity := by
  rw [h.next_head mask]
  constructor
  · intro same
    by_contra room
    have lt := h.length_lt one
    refine slot_ne _ (Nat.succ_ne_zero items.length) (by omega) (by omega) (same.trans h.tail_slot.symm)
  · intro full
    rw [full, Nat.add_mod_right, Nat.mod_eq_of_lt h.tail_lt]

/-- Publishing the item: it joins the queue. -/
theorem SpscInv.storeHead (h : SpscInv capacity s items) {item : T} {head : ℕ}
    (point : s.producer = .written item head) :
    SpscInv capacity (s.storeHead capacity item head) (items ++ [item]) := by
  have inv := h.producer
  simp only [ProducerInv, point] at inv
  obtain ⟨rfl, room⟩ := inv
  have pending : s.producer.pending = [some item] := by rw [point]; rfl
  -- the slots do not change, only what they are called
  have same : (s.storeHead capacity item s.head).cells (items ++ [item]) = s.cells items := by
    have queued : s.consumer.queued (items ++ [item]) = s.consumer.queued items ++ [some item] := by
      cases here : s.consumer with
      | moved tail x =>
        simp [SpscPopPc.queued, List.tail_append_of_ne_nil (h.some_item tail x here)]
      | _ => simp [SpscPopPc.queued]
    rw [cells, cells, pending, ← queued]
    exact List.append_nil _
  refine ⟨.push item h.history (by omega), h.tail_lt, ?_, ?_, h.stored, trivial, ?_⟩
  · rw [List.length_append, List.length_singleton]
    exact h.next_head mask
  · intro i lt
    rw [same]
    exact h.unread i lt
  · have inv := h.consumer
    unfold ConsumerInv at inv ⊢
    cases here : s.consumer with
    | idle => simp only [SpscQueue.storeHead, here]
    | tailLoaded tail =>
      simp only [here] at inv
      simp only [SpscQueue.storeHead, here]
      exact inv
    | itemSeen tail =>
      simp only [here] at inv
      simp only [SpscQueue.storeHead, here]
      exact ⟨inv.1, by simp⟩
    | moved tail x =>
      simp only [here] at inv
      simp only [SpscQueue.storeHead, here]
      refine ⟨inv.1, ?_⟩
      rw [List.head?_append_of_ne_nil _ (h.some_item tail x here)]
      exact inv.2

/-- Giving the slot back: the item leaves the queue. -/
theorem SpscInv.storeTail (h : SpscInv capacity s items) (one : 1 < capacity) {tail : ℕ} {item : T}
    (point : s.consumer = .moved tail item) :
    SpscInv capacity (s.storeTail capacity tail item) items.tail := by
  have inv := h.consumer
  simp only [ConsumerInv, point] at inv
  obtain ⟨rfl, first⟩ := inv
  obtain ⟨rest, rfl⟩ := List.head?_eq_some_iff.1 first
  have tail_eq : (s.storeTail capacity s.tail item).tail = (s.tail + 1) % capacity := mask s.tail
  have before : s.cells (item :: rest) = none :: (rest.map some ++ s.producer.pending) := by
    rw [cells, point]
    rfl
  have after : (s.storeTail capacity s.tail item).cells rest = rest.map some ++ s.producer.pending := rfl
  have bound := h.history.length_le
  rw [List.length_cons] at bound
  refine ⟨.pop h.history, ?_, ?_, ?_, h.stored, ?_, trivial⟩
  · rw [tail_eq]
    exact Nat.mod_lt _ (by omega)
  · rw [tail_eq, Nat.mod_add_mod, List.tail_cons, Nat.add_assoc, Nat.add_comm 1]
    exact h.head_eq
  · intro i lt
    rw [tail_eq, Nat.mod_add_mod, List.tail_cons, after, Nat.add_assoc, Nat.add_comm 1]
    rcases Nat.lt_or_ge (i + 1) capacity with inside | last
    · have old := h.unread (i + 1) inside
      rw [before, List.getElem?_cons_succ] at old
      exact old
    · -- the slot given back is the one before the new tail
      have around : (s.tail + (i + 1)) % capacity = s.tail := by
        rw [show i + 1 = capacity by omega, Nat.add_mod_right, Nat.mod_eq_of_lt h.tail_lt]
      have gap := h.unread 0 (by omega)
      rw [h.tail_slot, before] at gap
      have short : (rest.map some ++ s.producer.pending).length ≤ i := by
        have one_pending : s.producer.pending.length ≤ 1 := by
          cases s.producer <;> simp [SpscPushPc.pending]
        rw [List.length_append, List.length_map]
        omega
      rw [around, List.getElem?_eq_none short]
      exact gap
  · have inv := h.producer
    unfold ProducerInv at inv ⊢
    cases here : s.producer with
    | idle => simp only [SpscQueue.storeTail, here]
    | headLoaded x head =>
      simp only [here] at inv
      simp only [SpscQueue.storeTail, here]
      exact inv
    | roomSeen x head =>
      simp only [here, List.length_cons] at inv
      simp only [SpscQueue.storeTail, here, List.tail_cons]
      exact ⟨inv.1, by omega⟩
    | written x head =>
      simp only [here, List.length_cons] at inv
      simp only [SpscQueue.storeTail, here, List.tail_cons]
      exact ⟨inv.1, by omega⟩

/-- **One load or store.** -/
theorem SpscInv.step (h : SpscInv capacity s items) (one : 1 < capacity) {a : SpscAction T}
    (step : SpscQueue.step capacity s a = some s') : ∃ items', SpscInv capacity s' items' := by
  cases a with
  | push item =>
    simp only [SpscQueue.step] at step
    split at step <;> cases step
    rename_i point
    exact ⟨items, h.moveProducer (by rw [point]; rfl) rfl rfl⟩
  | loadTail =>
    simp only [SpscQueue.step] at step
    split at step
    · rename_i item head point
      have inv := h.producer
      simp only [ProducerInv, point] at inv
      subst inv
      split at step <;> cases step
      · rename_i last
        have full : items.length + 1 = capacity := (h.next_head_eq_tail_iff mask one).1 last
        have idle : SpscInv capacity { s with producer := .idle } items :=
          h.moveProducer (by rw [point]; rfl) rfl trivial
        exact ⟨items, idle.returned (.full item h.history (by omega))⟩
      · rename_i room
        have room : items.length + 1 ≠ capacity := mt (h.next_head_eq_tail_iff mask one).2 room
        have lt := h.length_lt one
        exact ⟨items, h.moveProducer (by rw [point]; rfl) rfl ⟨rfl, by omega⟩⟩
    · cases step
  | writeItem =>
    simp only [SpscQueue.step] at step
    split at step <;> cases step
    rename_i item head point
    exact ⟨items, h.writeItem one point⟩
  | storeHead =>
    simp only [SpscQueue.step] at step
    split at step <;> cases step
    rename_i item head point
    exact ⟨items ++ [item], h.storeHead mask point⟩
  | pop =>
    simp only [SpscQueue.step] at step
    split at step <;> cases step
    rename_i point
    exact ⟨items, h.moveConsumer (by rw [point]; rfl) rfl rfl⟩
  | loadHead =>
    simp only [SpscQueue.step] at step
    split at step
    · rename_i tail point
      have inv := h.consumer
      simp only [ConsumerInv, point] at inv
      subst inv
      split at step <;> cases step
      · rename_i none
        have none : items = [] := (h.tail_eq_head_iff one).1 none
        subst none
        have idle : SpscInv capacity { s with consumer := .idle } [] :=
          h.moveConsumer (by rw [point]; rfl) rfl trivial
        exact ⟨[], idle.returned (.empty h.history)⟩
      · rename_i some_item
        have some_item : items ≠ [] := mt (h.tail_eq_head_iff one).2 some_item
        exact ⟨items, h.moveConsumer (by rw [point]; rfl) rfl ⟨rfl, some_item⟩⟩
    · cases step
  | moveItem =>
    simp only [SpscQueue.step] at step
    split at step <;> cases step
    rename_i tail point
    exact ⟨items, h.moveItem one point⟩
  | storeTail =>
    simp only [SpscQueue.step] at step
    split at step <;> cases step
    rename_i tail item point
    exact ⟨items.tail, h.storeTail mask one point⟩

end Steps

theorem SpscInv.fresh [Inhabited T] (one : 1 < capacity) : SpscInv capacity (fresh : SpscQueue T) [] where
  history := .nil
  tail_lt := Nat.zero_lt_of_lt one
  head_eq := (Nat.zero_mod capacity).symm
  unread _ _ := rfl
  stored _ _ := nofun
  producer := trivial
  consumer := trivial

theorem nextIndex_two_pow (k i : ℕ) : nextIndex (2 ^ k) i = (i + 1) % 2 ^ k := Nat.and_two_pow_sub_one_eq_mod (i + 1) k

theorem SpscInv.reachable [Inhabited T] {k : ℕ} (positive : 0 < k) (reach : (machine T (2 ^ k)).Reachable s) :
    ∃ items, SpscInv (2 ^ k) s items := by
  have one : 1 < 2 ^ k := Nat.one_lt_two_pow (by omega)
  exact reach.induct (I := fun s => ∃ items, SpscInv (2 ^ k) s items) ⟨[], .fresh one⟩
    fun _ _ _ ⟨_, inv⟩ step => inv.step (nextIndex_two_pow k) one step

/-- `size()` counts the queued items, whether or not the indices have wrapped around. -/
theorem SpscInv.size_eq {k : ℕ} (h : SpscInv (2 ^ k) s items) (positive : 0 < k) (word : k < 64) :
    s.size (2 ^ k) = items.length := by
  have one : 1 < 2 ^ k := Nat.one_lt_two_pow (by omega)
  have divides : 2 ^ k ∣ 2 ^ 64 := Nat.pow_dvd_pow 2 word.le
  have below : 2 ^ k ≤ 2 ^ 64 := Nat.pow_le_pow_right (by decide) word.le
  have tail_lt := h.tail_lt
  have sum : s.tail + (s.head + 2 ^ 64 - s.tail) = s.head + 2 ^ 64 := by omega
  have congr : s.tail + (s.head + 2 ^ 64 - s.tail) ≡ s.tail + items.length [MOD 2 ^ k] := by
    rw [sum]
    calc s.head + 2 ^ 64 ≡ s.head + 0 [MOD 2 ^ k] := (Nat.modEq_zero_iff_dvd.2 divides).add_left _
      _ ≡ s.tail + items.length [MOD 2 ^ k] := by
        rw [Nat.add_zero, h.head_eq]
        exact Nat.mod_modEq _ _
  rw [size, Nat.and_two_pow_sub_one_eq_mod, Nat.mod_mod_of_dvd _ divides, Nat.ModEq.add_left_cancel' _ congr,
    Nat.mod_eq_of_lt (h.length_lt one)]

/-- What a step adds to `returns`. -/
inductive Records (capacity : ℕ) (s : SpscQueue T) : SpscAction T → List (FifoReturn T) → Prop
  | silent (a : SpscAction T) : Records capacity s a []
  | pushed {item : T} {head : ℕ} : s.producer = .written item head → Records capacity s .storeHead [.push item true]
  | full {item : T} {head : ℕ} : s.producer = .headLoaded item head → nextIndex capacity head = s.tail →
      Records capacity s .loadTail [.push item false]
  | popped {tail : ℕ} {item : T} : s.consumer = .moved tail item → Records capacity s .storeTail [.pop (some item)]
  | empty : s.consumer = .tailLoaded s.head → Records capacity s .loadHead [.pop none]

theorem records_of_step {a : SpscAction T} (step : SpscQueue.step capacity s a = some s') :
    ∃ recorded, s'.returns = s.returns ++ recorded ∧ Records capacity s a recorded := by
  have silent : s'.returns = s.returns → ∃ recorded, s'.returns = s.returns ++ recorded ∧
      Records capacity s a recorded := fun same => ⟨[], by rw [same, List.append_nil], .silent a⟩
  cases a with
  | push item =>
    simp only [SpscQueue.step] at step
    split at step <;> cases step
    exact silent rfl
  | loadTail =>
    simp only [SpscQueue.step] at step
    split at step
    · rename_i item head point
      split at step <;> cases step
      · exact ⟨_, rfl, .full point ‹_›⟩
      · exact silent rfl
    · cases step
  | writeItem =>
    simp only [SpscQueue.step] at step
    split at step <;> cases step
    exact silent rfl
  | storeHead =>
    simp only [SpscQueue.step] at step
    split at step <;> cases step
    rename_i item head point
    exact ⟨_, rfl, .pushed point⟩
  | pop =>
    simp only [SpscQueue.step] at step
    split at step <;> cases step
    exact silent rfl
  | loadHead =>
    simp only [SpscQueue.step] at step
    split at step
    · rename_i tail point
      split at step <;> cases step
      · rename_i same
        subst same
        exact ⟨_, rfl, .empty point⟩
      · exact silent rfl
    · cases step
  | moveItem =>
    simp only [SpscQueue.step] at step
    split at step <;> cases step
    exact silent rfl
  | storeTail =>
    simp only [SpscQueue.step] at step
    split at step <;> cases step
    rename_i tail item point
    exact ⟨_, rfl, .popped point⟩

/-- `s` is a state of a bounded FIFO of `capacity - 1` elements that holds `items`. -/
structure RefinesFifo (capacity : ℕ) (s : SpscQueue T) (items : List T) : Prop where
  /-- The calls returned what a bounded FIFO returns. -/
  history : BoundedFifo (capacity - 1) s.returns items
  /-- What was popped is what was pushed, in order, without what is queued. -/
  in_order : FifoReturn.pushed s.returns = FifoReturn.popped s.returns ++ items
  /-- The slot about to be written has no unread item. -/
  writes : ∀ item head, s.producer = .roomSeen item head → s.unread head = none
  /-- The slot about to be read has been written with the oldest item, and not been read. -/
  reads : ∀ tail, s.consumer = .itemSeen tail →
    s.unread tail = some (s.buffer tail) ∧ items.head? = some (s.buffer tail)
  /-- A `push` fails at its load of the tail, with `capacity - 1` items queued. -/
  full : ∀ a s' item, step capacity s a = some s' → s'.returns = s.returns ++ [.push item false] →
    a = .loadTail ∧ items.length = capacity - 1
  /-- A `pop` fails at its load of the head, with no item queued. -/
  empty : ∀ a s', step capacity s a = some s' → s'.returns = s.returns ++ [.pop none] → a = .loadHead ∧ items = []
  size : s.producer = .idle → s.consumer = .idle → s.size capacity = items.length

/-- What the invariant says in terms of the queue. -/
theorem SpscInv.refinesFifo {k : ℕ} (h : SpscInv (2 ^ k) s items) (positive : 0 < k) (word : k < 64) :
    RefinesFifo (2 ^ k) s items where
  history := h.history
  in_order := h.history.pushed_eq
  writes item head point := by
    have inv := h.producer
    simp only [ProducerInv, point] at inv
    rw [inv.1]
    exact h.unread_head (Nat.one_lt_two_pow (by omega)) (by rw [point]; rfl)
  reads tail point := by
    have inv := h.consumer
    simp only [ConsumerInv, point] at inv
    obtain ⟨rfl, some_item⟩ := inv
    obtain ⟨x, rest, eq⟩ := List.exists_cons_of_ne_nil some_item
    have unread := h.unread_tail (Nat.one_lt_two_pow (by omega)) eq (by rw [point]; rfl)
    rw [h.stored _ _ unread, eq]
    exact ⟨unread, rfl⟩
  full a s' item step ret := by
    obtain ⟨recorded, eq, records⟩ := records_of_step step
    obtain rfl := List.append_cancel_left (eq.symm.trans ret)
    cases records with
    | full point last =>
      have inv := h.producer
      simp only [ProducerInv, point] at inv
      subst inv
      have full := (h.next_head_eq_tail_iff (nextIndex_two_pow k) (Nat.one_lt_two_pow (by omega))).1 last
      exact ⟨rfl, by omega⟩
  empty a s' step ret := by
    obtain ⟨recorded, eq, records⟩ := records_of_step step
    obtain rfl := List.append_cancel_left (eq.symm.trans ret)
    cases records with
    | empty point =>
      have inv := h.consumer
      simp only [ConsumerInv, point] at inv
      exact ⟨rfl, (h.tail_eq_head_iff (Nat.one_lt_two_pow (by omega))).1 inv.symm⟩
  size _ _ := h.size_eq positive word

/-- **`SPSCQueue` refines a bounded FIFO of `capacity - 1` elements**, for every capacity `2 ^ k > 1` of
a `std::size_t` and every interleaving. -/
theorem refinesFifo_of_reachable [Inhabited T] {k : ℕ} (positive : 0 < k) (word : k < 64) {s : SpscQueue T}
    (reach : (machine T (2 ^ k)).Reachable s) : ∃ items, RefinesFifo (2 ^ k) s items := by
  obtain ⟨items, inv⟩ := SpscInv.reachable positive reach
  exact ⟨items, inv.refinesFifo positive word⟩

/-- Around a ring of four slots: two items through, three more queued, a fourth refused. -/
theorem refinesFifo_of_reachable_four :
    ∃ s : SpscQueue ℕ, FifoReturn.popped s.returns = [1, 2] ∧ s.head < s.tail ∧ ∃ items, RefinesFifo (2 ^ 2) s items := by
  obtain ⟨s, run, found⟩ := (machine ℕ (2 ^ 2)).exists_of_any
    [.push 1, .loadTail, .pop, .loadHead, .writeItem, .storeHead, .pop, .loadHead, .push 2, .loadTail, .moveItem,
      .writeItem, .storeHead, .storeTail, .push 3, .pop, .loadHead, .moveItem, .loadTail, .writeItem, .storeHead,
      .push 4, .loadTail, .writeItem, .storeTail, .storeHead, .push 5, .loadTail, .writeItem, .storeHead,
      .push 6, .loadTail]
    (fun s => FifoReturn.popped s.returns = [1, 2] ∧ s.head < s.tail) (by decide)
  obtain ⟨popped, around⟩ := of_decide_eq_true found
  exact ⟨s, popped, around, refinesFifo_of_reachable (by decide) (by decide) ⟨_, run⟩⟩

end SpscQueue

end StockAnomaly.Core

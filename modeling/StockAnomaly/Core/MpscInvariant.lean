import StockAnomaly.Core.MpscQueue

/-!
# The sequence numbers of `MPSCQueue`

The positions from the first one not given back, `capacity` of them, meet every slot once
(`Theory.Ring`). For each position of this window the slot's sequence number says how far
the position is: `p` until its item is published, `p + 1` from then until it is given
back. `MpscInv` states this with what each control point knows; every step keeps it.
-/

namespace StockAnomaly.Core.MpscQueue

open Theory

variable {Tid T : Type} {capacity : ℕ} {s s' : MpscQueue Tid T}

/-- What the consumer knows about its local position. -/
def ConsumerInv (s : MpscQueue Tid T) : Prop :=
  match s.consumer with
  | .idle => True
  | .posLoaded pos => pos = s.dequeuePos
  | .seqMatched pos => pos = s.dequeuePos ∧ s.Published pos
  | .moved pos item => pos = s.dequeuePos ∧ s.Published pos ∧ s.claimed[pos]?.map Prod.snd = some item
  | .released pos item => pos = s.dequeuePos ∧ s.claimed[pos]?.map Prod.snd = some item

structure MpscInv (capacity : ℕ) [DecidableEq Tid] (s : MpscQueue Tid T) : Prop where
  claims : s.claimed.length = s.enqueuePos
  low : s.released ≤ s.enqueuePos
  high : s.enqueuePos ≤ s.released + capacity
  published : ∀ p, s.released ≤ p → p < s.released + capacity → s.Published p →
    s.sequence (p % capacity) = p + 1
  unpublished : ∀ p, s.released ≤ p → p < s.released + capacity → ¬ s.Published p →
    s.sequence (p % capacity) = p
  stored : ∀ p, s.released ≤ p → s.Published p → s.claimed[p]?.map Prod.snd = some (s.data (p % capacity))
  filling : ∀ t data p, s.Filling t data p → s.released ≤ p ∧ s.claimed[p]? = some (t, data)
  written : ∀ t data p, s.producer t = .written data p → s.data (p % capacity) = data
  loaded : ∀ t data pos, s.producer t = .posLoaded data pos → pos ≤ s.enqueuePos
  matched : ∀ t data pos, s.producer t = .seqMatched data pos → pos < s.released + capacity
  consumer : ConsumerInv s
  popped : s.popped = (s.claimed.take s.dequeuePos).map Prod.snd
  pushed : ∀ t, (s.claimed.filter (·.1 = t)).map Prod.snd = s.pushed t ++ (s.producer t).pending

theorem Filling.pending {t : Tid} {data : T} {p : ℕ} (h : s.Filling t data p) :
    (s.producer t).pending = [data] := by
  rcases h with h | h <;> rw [h] <;> rfl

/-- Two positions of the window share a slot only if they are equal. -/
theorem slot_ne {p q : ℕ} (ne : p ≠ q) (hp : s.released ≤ p ∧ p < s.released + capacity)
    (hq : s.released ≤ q ∧ q < s.released + capacity) : p % capacity ≠ q % capacity :=
  fun same => ne (Ring.eq_of_mod_eq same hp hq)

section Steps

variable [DecidableEq Tid]

/-- A position being filled is claimed, inside the window, by one thread only. -/
theorem MpscInv.filling_unique (h : MpscInv capacity s) {t u : Tid} {x y : T} {p : ℕ}
    (a : s.Filling t x p) (b : s.Filling u y p) : t = u := by
  have same := (h.filling t x p a).2.symm.trans (h.filling u y p b).2
  exact congrArg Prod.fst (Option.some.inj same)

theorem MpscInv.filling_lt (h : MpscInv capacity s) {t : Tid} {x : T} {p : ℕ} (a : s.Filling t x p) :
    p < s.enqueuePos := by
  rw [← h.claims]
  exact (List.getElem?_eq_some_iff.1 (h.filling t x p a).2).1

/-- Moving a producer between points that fill no position fills and publishes nothing. -/
theorem filling_gotoPush {t : Tid} {pc : PushPc T} (calm : (s.producer t).pending = [])
    (calm' : pc.pending = []) (u : Tid) (data : T) (p : ℕ) :
    (s.gotoPush t pc).Filling u data p ↔ s.Filling u data p := by
  by_cases eq : u = t
  · subst eq
    refine ⟨fun f => ?_, fun f => ?_⟩
    · simpa [gotoPush, calm'] using f.pending
    · simpa [calm] using f.pending
  · simp [Filling, gotoPush, eq]

theorem published_gotoPush {t : Tid} {pc : PushPc T} (calm : (s.producer t).pending = [])
    (calm' : pc.pending = []) (p : ℕ) : (s.gotoPush t pc).Published p ↔ s.Published p := by
  simp only [Published, filling_gotoPush calm calm']
  rfl

/-- A producer at a point where the one that moved is not was there before. -/
theorem producer_of_moved {t u : Tid} {pc pc' : PushPc T} (point : s'.producer u = pc')
    (moved : s'.producer = Function.update s.producer t pc) (other : pc ≠ pc') : s.producer u = pc' := by
  rw [moved] at point
  by_cases eq : u = t
  · rw [eq, Function.update_self] at point
    exact absurd point other
  · rwa [Function.update_of_ne eq] at point

/-- A producer step that fills no position. -/
theorem MpscInv.gotoPush (h : MpscInv capacity s) {t : Tid} {pc : PushPc T}
    (calm : (s.producer t).pending = []) (calm' : pc.pending = [])
    (loaded : ∀ data pos, pc = .posLoaded data pos → pos ≤ s.enqueuePos)
    (matched : ∀ data pos, pc = .seqMatched data pos → pos < s.released + capacity) :
    MpscInv capacity (s.gotoPush t pc) where
  claims := h.claims
  low := h.low
  high := h.high
  published p := by rw [published_gotoPush calm calm']; exact h.published p
  unpublished p := by rw [published_gotoPush calm calm']; exact h.unpublished p
  stored p := by rw [published_gotoPush calm calm']; exact h.stored p
  filling u data p := by rw [filling_gotoPush calm calm']; exact h.filling u data p
  written u data p point := by
    by_cases eq : u = t
    · subst eq
      obtain rfl : pc = .written data p := by simpa [MpscQueue.gotoPush] using point
      cases calm'
    · exact h.written u data p (by simpa [MpscQueue.gotoPush, eq] using point)
  loaded u data pos point := by
    by_cases eq : u = t
    · subst eq
      exact loaded data pos (by simpa [MpscQueue.gotoPush] using point)
    · exact h.loaded u data pos (by simpa [MpscQueue.gotoPush, eq] using point)
  matched u data pos point := by
    by_cases eq : u = t
    · subst eq
      exact matched data pos (by simpa [MpscQueue.gotoPush] using point)
    · exact h.matched u data pos (by simpa [MpscQueue.gotoPush, eq] using point)
  consumer := by
    have inv := h.consumer
    unfold ConsumerInv at inv ⊢
    simp only [published_gotoPush calm calm']
    exact inv
  popped := h.popped
  pushed u := by
    by_cases eq : u = t
    · subst eq
      simpa [MpscQueue.gotoPush, MpscQueue.pushed, calm, calm'] using h.pushed u
    · simpa [MpscQueue.gotoPush, MpscQueue.pushed, eq] using h.pushed u

/-- Returning a result that delivers no item. -/
theorem MpscInv.returned (h : MpscInv capacity s) {r : MpscReturn Tid T}
    (quiet : (∃ t data, r = .push t data false) ∨ r = .pop none) : MpscInv capacity (s.returned r) where
  claims := h.claims
  low := h.low
  high := h.high
  published := h.published
  unpublished := h.unpublished
  stored := h.stored
  filling := h.filling
  written := h.written
  loaded := h.loaded
  matched := h.matched
  consumer := h.consumer
  popped := by
    have same : (s.returned r).popped = s.popped := by
      rcases quiet with ⟨t, data, rfl⟩ | rfl <;> simp [MpscQueue.popped, MpscQueue.returned]
    rw [same]
    exact h.popped
  pushed u := by
    have same : (s.returned r).pushed u = s.pushed u := by
      rcases quiet with ⟨t, data, rfl⟩ | rfl <;> simp [MpscQueue.pushed, MpscQueue.returned]
    rw [same]
    exact h.pushed u

/-- A won exchange: the producer owns the next position. -/
theorem MpscInv.claim (h : MpscInv capacity s) {t : Tid} {data : T}
    (point : s.producer t = .seqMatched data s.enqueuePos) : MpscInv capacity (s.claim t data) := by
  have room : s.enqueuePos < s.released + capacity := h.matched t data _ point
  have old : ∀ (p : ℕ) x, s.claimed[p]? = some x → (s.claim t data).claimed[p]? = some x := fun p x e =>
    (List.getElem?_append_left (List.getElem?_eq_some_iff.1 e).1).trans e
  have oldItem : ∀ (p : ℕ) x, s.claimed[p]?.map Prod.snd = some x →
      (s.claim t data).claimed[p]?.map Prod.snd = some x := by
    intro p x e
    obtain ⟨y, e, item⟩ := Option.map_eq_some_iff.1 e
    rw [old p y e, Option.map_some, item]
  have notFilling : ∀ x p, ¬ s.Filling t x p := fun x p f => by
    rcases f with f | f <;> rw [point] at f <;> cases f
  -- the only new filling is at the position just won, which nobody had published
  have filling : ∀ u x p, (s.claim t data).Filling u x p ↔
      s.Filling u x p ∨ (u = t ∧ x = data ∧ p = s.enqueuePos) := by
    intro u x p
    by_cases eq : u = t
    · subst eq
      simp only [notFilling, false_or, true_and]
      simp [Filling, MpscQueue.claim, eq_comm]
    · simp [Filling, MpscQueue.claim, eq]
  have published : ∀ p, (s.claim t data).Published p ↔ s.Published p := by
    intro p
    have length : (s.claim t data).claimed.length = s.enqueuePos + 1 := by
      simp [MpscQueue.claim, h.claims]
    simp only [Published, filling, length, not_or, not_and, h.claims]
    constructor
    · rintro ⟨lt, calm⟩
      have ne : p ≠ s.enqueuePos := (calm t data).2 rfl rfl
      exact ⟨by omega, fun u x => (calm u x).1⟩
    · rintro ⟨lt, calm⟩
      exact ⟨by omega, fun u x => ⟨calm u x, fun _ _ => by omega⟩⟩
  refine ⟨by simp [MpscQueue.claim, h.claims], Nat.le_succ_of_le h.low, room, ?_, ?_, ?_, ?_, ?_, ?_, ?_,
    ?_, ?_, ?_⟩
  · intro p lo hi; rw [published]; exact h.published p lo hi
  · intro p lo hi; rw [published]; exact h.unpublished p lo hi
  · intro p lo; rw [published]; exact fun pub => oldItem p _ (h.stored p lo pub)
  · intro u x p f
    rcases (filling u x p).1 f with f | ⟨rfl, rfl, rfl⟩
    · exact ⟨(h.filling u x p f).1, old p _ (h.filling u x p f).2⟩
    · exact ⟨h.low, by simp [MpscQueue.claim, ← h.claims]⟩
  · intro u x p written
    exact h.written u x p (producer_of_moved written rfl nofun)
  · intro u x pos loaded
    exact Nat.le_succ_of_le (h.loaded u x pos (producer_of_moved loaded rfl nofun))
  · intro u x pos matched
    exact h.matched u x pos (producer_of_moved matched rfl nofun)
  · have inv := h.consumer
    have same : (s.claim t data).consumer = s.consumer := rfl
    unfold ConsumerInv at inv ⊢
    simp only [published, same]
    cases here : s.consumer with
    | idle => trivial
    | posLoaded pos => simp only [here] at inv; exact inv
    | seqMatched pos => simp only [here] at inv; exact inv
    | moved pos item => simp only [here] at inv; exact ⟨inv.1, inv.2.1, oldItem pos item inv.2.2⟩
    | released pos item => simp only [here] at inv; exact ⟨inv.1, oldItem pos item inv.2⟩
  · have le : s.dequeuePos ≤ s.claimed.length := by
      rw [h.claims]
      refine Nat.le_trans ?_ h.low
      unfold released
      split <;> omega
    exact h.popped.trans (congrArg (List.map Prod.snd) (List.take_append_of_le_length le).symm)
  · intro u
    have was := h.pushed u
    by_cases eq : u = t
    · subst eq
      simp only [point, PushPc.pending, List.append_nil] at was
      simp [MpscQueue.claim, MpscQueue.pushed, PushPc.pending] at was ⊢
      exact was
    · simpa [MpscQueue.claim, MpscQueue.pushed, eq, Ne.symm eq] using was

variable (mask : ∀ p, slotOf capacity p = p % capacity)

include mask

/-- Writing the item of a claimed position touches the slot of no other position of the
window. -/
theorem MpscInv.fill (h : MpscInv capacity s) {t : Tid} {data : T} {pos : ℕ}
    (point : s.producer t = .claimed data pos) : MpscInv capacity (s.fill capacity t data pos) := by
  have mine : s.Filling t data pos := .inl point
  have lo := (h.filling t data pos mine).1
  have hi : pos < s.released + capacity := Nat.lt_of_lt_of_le (h.filling_lt mine) h.high
  have filling : ∀ u x p, (s.fill capacity t data pos).Filling u x p ↔ s.Filling u x p := by
    intro u x p
    by_cases eq : u = t
    · subst eq; simp [Filling, MpscQueue.fill, point]
    · simp [Filling, MpscQueue.fill, eq]
  have published : ∀ p, (s.fill capacity t data pos).Published p ↔ s.Published p := by
    intro p
    simp only [Published, filling]
    rfl
  have slots : ∀ p, p ≠ pos → s.released ≤ p → p < s.enqueuePos →
      (s.fill capacity t data pos).data (p % capacity) = s.data (p % capacity) := by
    intro p ne lo' lt
    have far := slot_ne ne ⟨lo', Nat.lt_of_lt_of_le lt h.high⟩ ⟨lo, hi⟩
    simp [MpscQueue.fill, mask, far]
  refine ⟨h.claims, h.low, h.high, ?_, ?_, ?_, ?_, ?_, ?_, ?_, ?_, h.popped, ?_⟩
  · intro p; rw [published]; exact h.published p
  · intro p; rw [published]; exact h.unpublished p
  · intro p lo'; rw [published]
    intro pub
    have ne : p ≠ pos := by rintro rfl; exact pub.2 t data mine
    rw [slots p ne lo' (h.claims ▸ pub.1)]
    exact h.stored p lo' pub
  · intro u x p; rw [filling]; exact h.filling u x p
  · intro u x p written
    by_cases eq : u = t
    · subst eq
      obtain ⟨rfl, rfl⟩ : data = x ∧ pos = p := by simpa [MpscQueue.fill] using written
      simp [MpscQueue.fill, mask]
    · have was : s.producer u = .written x p := by simpa [MpscQueue.fill, eq] using written
      have other : s.Filling u x p := .inr was
      have ne : p ≠ pos := by rintro rfl; exact eq (h.filling_unique other mine)
      rw [slots p ne (h.filling u x p other).1 (h.filling_lt other)]
      exact h.written u x p was
  · intro u x p loaded
    exact h.loaded u x p (producer_of_moved loaded rfl nofun)
  · intro u x p matched
    exact h.matched u x p (producer_of_moved matched rfl nofun)
  · have inv := h.consumer
    unfold ConsumerInv at inv ⊢
    simp only [published]
    exact inv
  · intro u
    by_cases eq : u = t
    · subst eq
      simpa [MpscQueue.fill, MpscQueue.pushed, point, PushPc.pending] using h.pushed u
    · simpa [MpscQueue.fill, MpscQueue.pushed, eq] using h.pushed u

/-- Publishing the item of a claimed position. -/
theorem MpscInv.publish (h : MpscInv capacity s) {t : Tid} {data : T} {pos : ℕ}
    (point : s.producer t = .written data pos) : MpscInv capacity (s.publish capacity t data pos) := by
  have mine : s.Filling t data pos := .inr point
  have lo := (h.filling t data pos mine).1
  have lt := h.filling_lt mine
  have hi : pos < s.released + capacity := Nat.lt_of_lt_of_le lt h.high
  have filling : ∀ u x p, (s.publish capacity t data pos).Filling u x p ↔ u ≠ t ∧ s.Filling u x p := by
    intro u x p
    by_cases eq : u = t
    · subst eq; simp [Filling, MpscQueue.publish]
    · simp [Filling, MpscQueue.publish, eq]
  have published : ∀ p, (s.publish capacity t data pos).Published p ↔ s.Published p ∨ p = pos := by
    intro p
    simp only [Published, filling, not_and]
    constructor
    · rintro ⟨bound, calm⟩
      refine or_iff_not_imp_right.2 fun ne => ⟨bound, fun u x f => ?_⟩
      by_cases eq : u = t
      · subst eq
        rcases f with f | f <;> rw [point] at f <;> cases f
        exact ne rfl
      · exact calm u x eq f
    · rintro (⟨bound, calm⟩ | rfl)
      · exact ⟨bound, fun u x _ => calm u x⟩
      · exact ⟨by rw [← h.claims] at lt; exact lt, fun u x ne f => ne (h.filling_unique f mine)⟩
  have slots : ∀ p, p ≠ pos → s.released ≤ p → p < s.released + capacity →
      (s.publish capacity t data pos).sequence (p % capacity) = s.sequence (p % capacity) := by
    intro p ne lo' hi'
    have far := slot_ne ne ⟨lo', hi'⟩ ⟨lo, hi⟩
    simp [MpscQueue.publish, mask, far]
  refine ⟨h.claims, h.low, h.high, ?_, ?_, ?_, ?_, ?_, ?_, ?_, ?_, ?_, ?_⟩
  · intro p lo' hi' pub
    by_cases eq : p = pos
    · subst eq; simp [MpscQueue.publish, mask]
    · rw [slots p eq lo' hi']
      exact h.published p lo' hi' (((published p).1 pub).resolve_right eq)
  · intro p lo' hi' pub
    obtain ⟨pub, eq⟩ := not_or.1 (mt (published p).2 pub)
    rw [slots p eq lo' hi']
    exact h.unpublished p lo' hi' pub
  · intro p lo' pub
    rcases (published p).1 pub with pub | rfl
    · exact h.stored p lo' pub
    · change s.claimed[p]?.map Prod.snd = some (s.data (p % capacity))
      rw [(h.filling t data p mine).2, h.written t data p point]
      rfl
  · intro u x p f
    exact h.filling u x p ((filling u x p).1 f).2
  · intro u x p written
    exact h.written u x p (producer_of_moved written rfl nofun)
  · intro u x p loaded
    exact h.loaded u x p (producer_of_moved loaded rfl nofun)
  · intro u x p matched
    exact h.matched u x p (producer_of_moved matched rfl nofun)
  · have inv := h.consumer
    have same : (s.publish capacity t data pos).consumer = s.consumer := rfl
    unfold ConsumerInv at inv ⊢
    simp only [published, same]
    cases here : s.consumer with
    | idle => trivial
    | posLoaded p => simp only [here] at inv; exact inv
    | seqMatched p => simp only [here] at inv; exact ⟨inv.1, .inl inv.2⟩
    | moved p item => simp only [here] at inv; exact ⟨inv.1, .inl inv.2.1, inv.2.2⟩
    | released p item => simp only [here] at inv; exact inv
  · have same : (s.publish capacity t data pos).popped = s.popped := by
      simp [MpscQueue.popped, MpscQueue.publish]
    rw [same]
    exact h.popped
  · intro u
    have was := h.pushed u
    by_cases eq : u = t
    · subst eq
      simpa [MpscQueue.publish, MpscQueue.pushed, point, PushPc.pending] using was
    · simpa [MpscQueue.publish, MpscQueue.pushed, eq, Ne.symm eq] using was

omit mask in
/-- A consumer step that gives nothing back. -/
theorem MpscInv.gotoPop (h : MpscInv capacity s) {pc : PopPc T}
    (same : (s.gotoPop pc).released = s.released) (inv : ConsumerInv (s.gotoPop pc)) :
    MpscInv capacity (s.gotoPop pc) where
  claims := h.claims
  low := same ▸ h.low
  high := same ▸ h.high
  published := by rw [same]; exact h.published
  unpublished := by rw [same]; exact h.unpublished
  stored := by rw [same]; exact h.stored
  filling := by rw [same]; exact h.filling
  written := h.written
  loaded := h.loaded
  matched := by rw [same]; exact h.matched
  consumer := inv
  popped := h.popped
  pushed := h.pushed

/-- Giving a position back: the window moves up by one, and the slot waits for the
position one lap later. -/
theorem MpscInv.giveBack (h : MpscInv capacity s) {pos : ℕ} {item : T}
    (point : s.consumer = .moved pos item) : MpscInv capacity (s.giveBack capacity pos item) := by
  have inv := h.consumer
  simp only [ConsumerInv, point] at inv
  obtain ⟨rfl, pub, holds⟩ := inv
  have was : s.released = s.dequeuePos := by simp [MpscQueue.released, point]
  have now : (s.giveBack capacity s.dequeuePos item).released = s.dequeuePos + 1 := rfl
  have lt : s.dequeuePos < s.enqueuePos := h.claims ▸ pub.1
  have room : s.enqueuePos ≤ s.dequeuePos + capacity := was ▸ h.high
  have slots : ∀ p, s.dequeuePos < p → p < s.dequeuePos + capacity →
      (s.giveBack capacity s.dequeuePos item).sequence (p % capacity) = s.sequence (p % capacity) := by
    intro p lo hi
    have far : p % capacity ≠ s.dequeuePos % capacity :=
      slot_ne (s := s) (by omega) ⟨by omega, by omega⟩ ⟨by omega, by omega⟩
    simp [MpscQueue.giveBack, mask, far]
  refine ⟨h.claims, ?_, ?_, ?_, ?_, ?_, ?_, h.written, h.loaded, ?_, ⟨rfl, holds⟩, h.popped, h.pushed⟩
  · rw [now]; exact lt
  · rw [now]; exact Nat.le_trans room (by omega)
  · intro p lo hi pub
    rw [now] at lo hi
    have bound : p < s.enqueuePos := h.claims ▸ pub.1
    rw [slots p (by omega) (by omega)]
    exact h.published p (by omega) (by omega) pub
  · intro p lo hi pub
    rw [now] at lo hi
    by_cases eq : p = s.dequeuePos + capacity
    · subst eq; simp [MpscQueue.giveBack, mask]
    · rw [slots p (by omega) (by omega)]
      exact h.unpublished p (by omega) (by omega) pub
  · intro p lo
    exact h.stored p (by rw [now] at lo; omega)
  · intro u x p f
    have old := h.filling u x p f
    have ne : p ≠ s.dequeuePos := by rintro rfl; exact pub.2 u x f
    exact ⟨by rw [now]; omega, old.2⟩
  · intro u x p matched
    have := h.matched u x p matched
    rw [now]; omega

omit mask in
/-- Returning the item given back. -/
theorem MpscInv.advance (h : MpscInv capacity s) {pos : ℕ} {item : T}
    (point : s.consumer = .released pos item) : MpscInv capacity (s.advance pos item) := by
  have inv := h.consumer
  simp only [ConsumerInv, point] at inv
  obtain ⟨rfl, holds⟩ := inv
  have was : s.released = s.dequeuePos + 1 := by simp [MpscQueue.released, point]
  have same : (s.advance s.dequeuePos item).released = s.released := was.symm
  obtain ⟨x, at_, rfl⟩ := Option.map_eq_some_iff.1 holds
  refine ⟨h.claims, same ▸ h.low, same ▸ h.high, ?_, ?_, ?_, ?_, h.written, h.loaded, ?_, trivial, ?_, ?_⟩
  · rw [same]; exact h.published
  · rw [same]; exact h.unpublished
  · rw [same]; exact h.stored
  · rw [same]; exact h.filling
  · rw [same]; exact h.matched
  · have grown : (s.advance s.dequeuePos x.2).popped = s.popped ++ [x.2] := by
      simp [MpscQueue.popped, MpscQueue.advance]
    change _ = (s.claimed.take (s.dequeuePos + 1)).map Prod.snd
    rw [grown, h.popped, List.take_add_one, at_]
    simp
  · intro u
    have same : (s.advance s.dequeuePos x.2).pushed u = s.pushed u := by
      simp [MpscQueue.pushed, MpscQueue.advance]
    rw [same]
    exact h.pushed u

omit mask in
/-- The sequence number found in a slot is that of the window's position there. -/
theorem MpscInv.sequence_cases (h : MpscInv capacity s) (pos : 0 < capacity) (p : ℕ) :
    ∃ q, (s.released ≤ q ∧ q < s.released + capacity) ∧ q % capacity = p % capacity ∧
      (s.sequence (p % capacity) = q ∨ s.sequence (p % capacity) = q + 1) := by
  obtain ⟨q, bound, same⟩ := Ring.exists_mod_eq pos s.released p
  refine ⟨q, bound, same, ?_⟩
  rw [← same]
  by_cases pub : s.Published q
  · exact .inr (h.published q bound.1 bound.2 pub)
  · exact .inl (h.unpublished q bound.1 bound.2 pub)

omit mask in
/-- A slot whose sequence number equals the position is in its lap. -/
theorem MpscInv.lt_of_sequence_eq (h : MpscInv capacity s) (one : 1 < capacity) {p : ℕ}
    (found : s.sequence (p % capacity) = p) : p < s.released + capacity := by
  obtain ⟨q, bound, same, eq | eq⟩ := h.sequence_cases (by omega) p
  · omega
  · obtain rfl : p = q + 1 := found.symm.trans eq
    exact absurd same.symm (Ring.succ_mod_ne one q)

omit mask in
/-- A sequence number below a loaded position is found only in a full queue. -/
theorem MpscInv.full_of_sequence_lt (h : MpscInv capacity s) (pos : 0 < capacity) {p : ℕ}
    (loaded : p ≤ s.enqueuePos) (found : s.sequence (p % capacity) < p) :
    s.enqueuePos = s.released + capacity := by
  obtain ⟨q, bound, same, eq⟩ := h.sequence_cases pos p
  have below : q < p := by omega
  have far : ¬ p < s.released + capacity := fun lt =>
    absurd (Ring.eq_of_mod_eq same bound ⟨by omega, lt⟩) (by omega)
  have := h.high
  omega

omit [DecidableEq Tid] mask in
theorem consumerInv_idle (point : s.consumer = .idle) : ConsumerInv s := by
  simp [ConsumerInv, point]

/-- **One step.** -/
theorem MpscInv.step (h : MpscInv capacity s) (one : 1 < capacity) {a : MpscAction Tid T}
    (step : MpscQueue.step capacity s a = some s') : MpscInv capacity s' := by
  cases a with
  | push t data =>
    simp only [MpscQueue.step] at step
    split at step <;> cases step
    rename_i point
    refine h.gotoPush (by rw [point]; rfl) rfl (fun d pos eq => ?_) nofun
    cases eq; exact Nat.le_refl _
  | loadSequence t =>
    simp only [MpscQueue.step, mask] at step
    split at step
    · rename_i data pos point
      have calm : (s.producer t).pending = [] := by rw [point]; rfl
      split at step
      · cases step
        refine h.gotoPush calm rfl nofun fun d p eq => ?_
        cases eq
        exact h.lt_of_sequence_eq one (by omega)
      · split at step <;> cases step
        · have left : MpscInv capacity (s.gotoPush t .idle) := h.gotoPush calm rfl nofun nofun
          exact left.returned (.inl ⟨t, data, rfl⟩)
        · exact h.gotoPush calm rfl nofun nofun
    · cases step
  | casEnqueue t spurious =>
    simp only [MpscQueue.step] at step
    split at step
    · rename_i data pos point
      split at step <;> cases step
      · rename_i won
        exact h.claim (won.1 ▸ point)
      · refine h.gotoPush (by rw [point]; rfl) rfl (fun d p eq => ?_) nofun
        cases eq; exact Nat.le_refl _
    · cases step
  | writeData t =>
    simp only [MpscQueue.step] at step
    split at step <;> cases step
    exact h.fill mask ‹_›
  | publish t =>
    simp only [MpscQueue.step] at step
    split at step <;> cases step
    exact h.publish mask ‹_›
  | reloadPos t =>
    simp only [MpscQueue.step] at step
    split at step <;> cases step
    rename_i data point
    refine h.gotoPush (by rw [point]; rfl) rfl (fun d p eq => ?_) nofun
    cases eq; exact Nat.le_refl _
  | pop =>
    simp only [MpscQueue.step] at step
    split at step <;> cases step
    rename_i point
    exact h.gotoPop (by simp [released, MpscQueue.gotoPop, point]) rfl
  | popLoadSequence =>
    simp only [MpscQueue.step, mask] at step
    split at step
    · rename_i pos point
      have inv := h.consumer
      simp only [ConsumerInv, point] at inv
      have same : s.released = s.dequeuePos := by simp [released, point]
      split at step <;> cases step
      · exact (h.gotoPop (by simp [released, MpscQueue.gotoPop, point]) (consumerInv_idle rfl)).returned (.inr rfl)
      · rename_i found
        refine h.gotoPop (by simp [released, MpscQueue.gotoPop, point]) ⟨inv, ?_⟩
        by_contra unpub
        have := h.unpublished pos (by omega) (by omega) unpub
        omega
    · cases step
  | moveData =>
    simp only [MpscQueue.step, mask] at step
    split at step <;> cases step
    rename_i pos point
    have inv := h.consumer
    simp only [ConsumerInv, point] at inv
    have same : s.released = s.dequeuePos := by simp [released, point]
    exact h.gotoPop (by simp [released, MpscQueue.gotoPop, point])
      ⟨inv.1, inv.2, h.stored pos (by omega) inv.2⟩
  | storeSequence =>
    simp only [MpscQueue.step] at step
    split at step <;> cases step
    exact h.giveBack mask ‹_›
  | storeDequeue =>
    simp only [MpscQueue.step] at step
    split at step <;> cases step
    exact h.advance ‹_›

omit mask in
/-- The constructor sets every slot to its first position. -/
theorem MpscInv.fresh [Inhabited T] : MpscInv capacity (MpscQueue.fresh : MpscQueue Tid T) where
  claims := rfl
  low := Nat.le_refl _
  high := Nat.zero_le _
  published p _ _ pub := absurd pub.1 (Nat.not_lt_zero p)
  unpublished p _ hi _ := by
    have hi : p < 0 + capacity := hi
    exact Nat.mod_eq_of_lt (by omega)
  stored p _ pub := absurd pub.1 (Nat.not_lt_zero p)
  filling := by rintro _ _ _ (f | f) <;> cases f
  written := nofun
  loaded := nofun
  matched := nofun
  consumer := trivial
  popped := rfl
  pushed _ := rfl

end Steps

/-- The mask of `Capacity - 1` is the remainder by `Capacity`, a power of two. -/
theorem slotOf_two_pow (k p : ℕ) : slotOf (2 ^ k) p = p % 2 ^ k := Nat.and_two_pow_sub_one_eq_mod p k

theorem MpscInv.reachable [DecidableEq Tid] [Inhabited T] {k : ℕ} (positive : 0 < k)
    (reach : (machine Tid T (2 ^ k)).Reachable s) : MpscInv (2 ^ k) s :=
  reach.induct MpscInv.fresh fun _ _ _ inv step =>
    inv.step (slotOf_two_pow k) (Nat.one_lt_two_pow (by omega)) step

end StockAnomaly.Core.MpscQueue

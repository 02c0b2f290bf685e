import StockAnomaly.Core.ObjectPool

/-!
# When the pool hands out a slot once

The free list is a `Chain` of the slots that are neither held nor being given back. Every
step keeps this (`PoolInv`), except an `acquire` whose exchange finds `head_` at the slot it
loaded while that slot's link has changed in between: the exchange then installs a stale
link. `exclusive_of_linkUnchanged` is the safety of every run without such a step;
`shared_slot` is a run with one, in which two threads hold the same slot.
-/

namespace StockAnomaly.Core.ObjectPool

open Theory

variable {Tid : Type} [DecidableEq Tid] {poolSize : ℕ} {s s' : ObjectPool Tid} {free : List ℕ}

/-- The free list is the chain `free`, and every slot is free, held or being released,
by one party only. -/
structure PoolInv (poolSize : ℕ) (s : ObjectPool Tid) (free : List ℕ) : Prop where
  chain : Chain s.next poolSize s.head free
  distinct : s.heldSlots.Nodup
  heldOff : ∀ i ∈ s.heldSlots, i ∉ free
  releasingOff : ∀ t i, (s.pc t).releasing = some i → i ∉ free ∧ i ∉ s.heldSlots
  releasingOnce : ∀ t u i, (s.pc t).releasing = some i → (s.pc u).releasing = some i → t = u
  stored : ∀ t idx current, s.pc t = .releaseStored idx current → s.next idx = current
  notNull : ∀ t idx, (s.pc t).acquiring = some idx → idx ≠ poolSize
  inPool : ∀ i, i ∈ free ∨ i ∈ s.heldSlots ∨ (∃ t, (s.pc t).releasing = some i) → i < poolSize
  covered : ∀ i < poolSize, i ∈ free ∨ i ∈ s.heldSlots ∨ ∃ t, (s.pc t).releasing = some i

omit [DecidableEq Tid] in
theorem PoolInv.exclusive (h : PoolInv poolSize s free) : Exclusive poolSize s where
  distinct := h.distinct
  heldOff i held k reached := h.heldOff i held (h.chain.reached_iff.1 ⟨k, reached⟩)
  freeOnce i lt notHeld notReleasing := by
    refine h.chain.reached_once ?_
    rcases h.covered i lt with free | held | ⟨t, releasing⟩
    · exact free
    · exact absurd held notHeld
    · exact absurd releasing (notReleasing t)

theorem chain_range' (n k : ℕ) : Chain (· + 1) (k + n) k (List.range' k n) := by
  induction n generalizing k with
  | zero => exact .nil
  | succ n ih =>
    refine .cons (by omega) ?_
    rw [show k + (n + 1) = k + 1 + n by omega]
    exact ih (k + 1)

omit [DecidableEq Tid] in
/-- A new pool: every slot is free. -/
theorem PoolInv.fresh : PoolInv poolSize (ObjectPool.fresh : ObjectPool Tid) (List.range' 0 poolSize) where
  chain := by
    have chain := chain_range' poolSize 0
    rwa [Nat.zero_add] at chain
  distinct := List.nodup_nil
  heldOff := nofun
  releasingOff := nofun
  releasingOnce := nofun
  stored := nofun
  notNull := nofun
  inPool i h := by
    rcases h with free | held | ⟨_, releasing⟩
    · simpa using free
    · cases held
    · cases releasing
  covered i lt := .inl (by simpa using lt)

/-- After `goto`, a thread is releasing what it was, when the moved thread is. -/
theorem goto_releasing {t : Tid} {pc : PoolPc} (same : pc.releasing = (s.pc t).releasing) (u : Tid) :
    ((s.goto t pc).pc u).releasing = (s.pc u).releasing := by
  by_cases eq : u = t
  · subst eq; simp [same]
  · rw [goto_pc_of_ne s pc eq]

/-- What a thread's point satisfies after `goto`, but the new point does not, it satisfied before. -/
theorem goto_elsewhere {P : PoolPc → Prop} {t u : Tid} {pc : PoolPc} (now : P ((s.goto t pc).pc u)) (other : ¬ P pc) :
    P (s.pc u) := by
  by_cases eq : u = t
  · rw [eq, goto_pc_self] at now
    exact absurd now other
  · rwa [goto_pc_of_ne s pc eq] at now

/-- Moving one thread to a point that works on the same slot. -/
theorem PoolInv.goto (h : PoolInv poolSize s free) {t : Tid} {pc : PoolPc}
    (same : pc.releasing = (s.pc t).releasing)
    (stored : ∀ idx current, pc = .releaseStored idx current → s.next idx = current)
    (notNull : ∀ idx, pc.acquiring = some idx → idx ≠ poolSize) :
    PoolInv poolSize (s.goto t pc) free where
  chain := h.chain
  distinct := h.distinct
  heldOff := h.heldOff
  releasingOff u i := by rw [goto_releasing same]; exact h.releasingOff u i
  releasingOnce u v i := by rw [goto_releasing same, goto_releasing same]; exact h.releasingOnce u v i
  stored u idx current point := by
    by_cases eq : u = t
    · subst eq
      exact stored idx current (by simpa using point)
    · exact h.stored u idx current (by rwa [goto_pc_of_ne s pc eq] at point)
  notNull u idx point := by
    by_cases eq : u = t
    · subst eq
      exact notNull idx (by simpa using point)
    · exact h.notNull u idx (by rwa [goto_pc_of_ne s pc eq] at point)
  inPool i := by simp only [goto_releasing same]; exact h.inPool i
  covered i := by simp only [goto_releasing same]; exact h.covered i

/-- A successful exchange of `acquire`, with the link it read still current: the head
slot moves from the free list to the caller. -/
theorem PoolInv.acquired (h : PoolInv poolSize s free) {t : Tid} {idx : ℕ}
    (point : s.pc t = .acquireNext idx (s.next idx)) (head : s.head = idx) :
    ∃ free', PoolInv poolSize
      { s.goto t .idle with head := s.next idx, held := (t, idx) :: s.held } free' := by
  have ne : idx ≠ poolSize := h.notNull t idx (by rw [point]; rfl)
  have chain := h.chain
  rw [head] at chain
  cases chain with
  | nil => exact absurd rfl ne
  | @cons _ rest _ tail =>
    have same : PoolPc.idle.releasing = (s.pc t).releasing := by rw [point]; rfl
    have fresh : idx ∉ s.heldSlots := fun held => h.heldOff idx held (List.mem_cons_self ..)
    have off : idx ∉ rest := (List.nodup_cons.1 h.chain.nodup).1
    refine ⟨rest, ⟨tail, List.nodup_cons.2 ⟨fresh, h.distinct⟩, ?_, ?_, ?_, ?_, ?_, ?_, ?_⟩⟩
    · intro i held mem
      rcases List.mem_cons.1 held with rfl | held
      · exact off mem
      · exact h.heldOff i held (List.mem_cons_of_mem _ mem)
    · intro u i releasing
      rw [goto_releasing same] at releasing
      obtain ⟨notFree, notHeld⟩ := h.releasingOff u i releasing
      obtain ⟨far, notFree⟩ := not_or.1 (mt List.mem_cons.2 notFree)
      exact ⟨notFree, fun held => (List.mem_cons.1 held).elim far notHeld⟩
    · intro u v i
      rw [goto_releasing same, goto_releasing same]
      exact h.releasingOnce u v i
    · exact (h.goto same nofun nofun).stored
    · exact (h.goto same nofun nofun).notNull
    · intro i where_
      refine h.inPool i ?_
      simp only [goto_releasing same] at where_
      rcases where_ with free | held | releasing
      · exact .inl (List.mem_cons_of_mem _ free)
      · rcases List.mem_cons.1 held with rfl | held
        · exact .inl (List.mem_cons_self ..)
        · exact .inr (.inl held)
      · exact .inr (.inr releasing)
    · intro i lt
      simp only [goto_releasing same]
      rcases h.covered i lt with free | held | releasing
      · rcases List.mem_cons.1 free with rfl | free
        · exact .inr (.inl (List.mem_cons_self ..))
        · exact .inl free
      · exact .inr (.inl (List.mem_cons_of_mem _ held))
      · exact .inr (.inr releasing)

/-- Starting a `release`: the slot passes from its holder to the operation. -/
theorem PoolInv.releaseStarted (h : PoolInv poolSize s free) {t : Tid} {idx : ℕ}
    (point : s.pc t = .idle) (held : (t, idx) ∈ s.held) :
    PoolInv poolSize
      { s.goto t (.releaseLoaded idx s.head) with held := s.held.erase (t, idx) } free := by
  have mine : idx ∈ s.heldSlots := List.mem_map_of_mem held
  have split : s.heldSlots.Perm (idx :: (s.held.erase (t, idx)).map Prod.snd) :=
    (List.perm_cons_erase held).map Prod.snd
  have distinct := split.nodup_iff.1 h.distinct
  have slots : ∀ i, i ∈ s.heldSlots ↔ i = idx ∨ i ∈ (s.held.erase (t, idx)).map Prod.snd :=
    fun i => split.mem_iff.trans List.mem_cons
  have releasing : ∀ u i, ((s.goto t (.releaseLoaded idx s.head)).pc u).releasing = some i ↔
      (u = t ∧ i = idx) ∨ (s.pc u).releasing = some i := by
    intro u i
    by_cases eq : u = t
    · subst eq; simp [PoolPc.releasing, point, eq_comm]
    · simp [goto_pc_of_ne s _ eq, eq]
  refine ⟨h.chain, (List.nodup_cons.1 distinct).2, ?_, ?_, ?_, ?_, ?_, ?_, ?_⟩
  · exact fun i mem => h.heldOff i ((slots i).2 (.inr mem))
  · intro u i r
    rcases (releasing u i).1 r with ⟨-, rfl⟩ | r
    · exact ⟨h.heldOff _ mine, (List.nodup_cons.1 distinct).1⟩
    · obtain ⟨notFree, notHeld⟩ := h.releasingOff u i r
      exact ⟨notFree, fun mem => notHeld ((slots i).2 (.inr mem))⟩
  · intro u v i ru rv
    rcases (releasing u i).1 ru with ⟨eu, ei⟩ | old <;> rcases (releasing v i).1 rv with ⟨ev, ei'⟩ | old'
    · exact eu.trans ev.symm
    · exact absurd (ei ▸ mine) (h.releasingOff v i old').2
    · exact absurd (ei' ▸ mine) (h.releasingOff u i old).2
    · exact h.releasingOnce u v i old old'
  · intro u i c stored
    exact h.stored u i c (goto_elsewhere (P := (· = .releaseStored i c)) stored nofun)
  · intro u i acquiring
    exact h.notNull u i (goto_elsewhere (P := (·.acquiring = some i)) acquiring nofun)
  · intro i where_
    refine h.inPool i ?_
    rcases where_ with free | mem | ⟨u, r⟩
    · exact .inl free
    · exact .inr (.inl ((slots i).2 (.inr mem)))
    · rcases (releasing u i).1 r with ⟨-, rfl⟩ | r
      · exact .inr (.inl mine)
      · exact .inr (.inr ⟨u, r⟩)
  · intro i lt
    rcases h.covered i lt with free | mem | ⟨u, r⟩
    · exact .inl free
    · rcases (slots i).1 mem with rfl | mem
      · exact .inr (.inr ⟨t, (releasing t _).2 (.inl ⟨rfl, rfl⟩)⟩)
      · exact .inr (.inl mem)
    · exact .inr (.inr ⟨u, (releasing u i).2 (.inr r)⟩)

/-- Storing the link of the slot being released touches no cell of the free list. -/
theorem PoolInv.linked (h : PoolInv poolSize s free) {t : Tid} {idx current : ℕ}
    (point : s.pc t = .releaseLoaded idx current) :
    PoolInv poolSize
      { s.goto t (.releaseStored idx current) with next := Function.update s.next idx current } free := by
  have mine : (s.pc t).releasing = some idx := by rw [point]; rfl
  have same : (PoolPc.releaseStored idx current).releasing = (s.pc t).releasing := mine.symm
  refine ⟨h.chain.update (h.releasingOff t idx mine).1 current, h.distinct, h.heldOff, ?_, ?_, ?_, ?_, ?_, ?_⟩
  · intro u i; rw [goto_releasing same]; exact h.releasingOff u i
  · intro u v i; rw [goto_releasing same, goto_releasing same]; exact h.releasingOnce u v i
  · intro u i c stored
    by_cases eq : u = t
    · subst eq
      obtain ⟨rfl, rfl⟩ : idx = i ∧ current = c := by simpa using stored
      simp
    · have old : s.pc u = .releaseStored i c := by simpa [goto_pc_of_ne s _ eq] using stored
      have other : i ≠ idx := by
        rintro rfl
        exact eq (h.releasingOnce u t i (by rw [old]; rfl) mine)
      simpa [other] using h.stored u i c old
  · intro u i acquiring
    exact h.notNull u i (goto_elsewhere (P := (·.acquiring = some i)) acquiring nofun)
  · intro i; simp only [goto_releasing same]; exact h.inPool i
  · intro i; simp only [goto_releasing same]; exact h.covered i

/-- A successful exchange of `release`: the slot becomes the head of the free list. -/
theorem PoolInv.released (h : PoolInv poolSize s free) {t : Tid} {idx current : ℕ}
    (point : s.pc t = .releaseStored idx current) (head : s.head = current) :
    PoolInv poolSize { s.goto t .idle with head := idx } (idx :: free) := by
  have mine : (s.pc t).releasing = some idx := by rw [point]; rfl
  obtain ⟨notFree, notHeld⟩ := h.releasingOff t idx mine
  have ne : idx ≠ poolSize := Nat.ne_of_lt (h.inPool idx (.inr (.inr ⟨t, mine⟩)))
  have releasing : ∀ u i, ((s.goto t .idle).pc u).releasing = some i ↔
      u ≠ t ∧ (s.pc u).releasing = some i := by
    intro u i
    by_cases eq : u = t
    · subst eq; simp [PoolPc.releasing]
    · simp [goto_pc_of_ne s _ eq, eq]
  refine ⟨.cons ne ?_, h.distinct, ?_, ?_, ?_, ?_, ?_, ?_, ?_⟩
  · have chain := h.chain
    rwa [head, ← h.stored t idx current point] at chain
  · intro i held mem
    rcases List.mem_cons.1 mem with rfl | mem
    · exact notHeld held
    · exact h.heldOff i held mem
  · intro u i r
    obtain ⟨other, old⟩ := (releasing u i).1 r
    refine ⟨fun mem => ?_, (h.releasingOff u i old).2⟩
    rcases List.mem_cons.1 mem with eq | mem
    · exact other (h.releasingOnce u t i old (eq ▸ mine))
    · exact (h.releasingOff u i old).1 mem
  · intro u v i ru rv
    exact h.releasingOnce u v i ((releasing u i).1 ru).2 ((releasing v i).1 rv).2
  · intro u i c stored
    exact h.stored u i c (goto_elsewhere (P := (· = .releaseStored i c)) stored nofun)
  · intro u i acquiring
    exact h.notNull u i (goto_elsewhere (P := (·.acquiring = some i)) acquiring nofun)
  · intro i where_
    refine h.inPool i ?_
    rcases where_ with mem | held | ⟨u, r⟩
    · rcases List.mem_cons.1 mem with rfl | mem
      · exact .inr (.inr ⟨t, mine⟩)
      · exact .inl mem
    · exact .inr (.inl held)
    · exact .inr (.inr ⟨u, ((releasing u i).1 r).2⟩)
  · intro i lt
    rcases h.covered i lt with free | held | ⟨u, r⟩
    · exact .inl (List.mem_cons_of_mem _ free)
    · exact .inr (.inl held)
    · by_cases eq : u = t
      · subst eq
        obtain rfl : idx = i := Option.some.inj (mine.symm.trans r)
        exact .inl (List.mem_cons_self ..)
      · exact .inr (.inr ⟨u, (releasing u i).2 ⟨eq, r⟩⟩)

/-- **One step.** Every step but a stale exchange keeps the free list a chain. -/
theorem PoolInv.step (h : PoolInv poolSize s free) {a : PoolAction Tid} (unchanged : LinkUnchanged s a)
    (step : ObjectPool.step poolSize s a = some s') : ∃ free', PoolInv poolSize s' free' := by
  cases a with
  | acquire t =>
    simp only [ObjectPool.step] at step
    split at step <;> cases step
    rename_i point
    exact ⟨free, h.goto (by rw [point, acquireLoop_releasing]; rfl)
      (fun i c eq => absurd eq (acquireLoop_ne_stored _ _ i c)) fun i => acquireLoop_acquiring⟩
  | loadNext t =>
    simp only [ObjectPool.step] at step
    split at step <;> cases step
    rename_i idx point
    refine ⟨free, h.goto (by rw [point]; rfl) nofun fun i eq => ?_⟩
    exact h.notNull t i (by rw [point]; exact eq)
  | casAcquire t spurious =>
    simp only [ObjectPool.step] at step
    split at step
    · rename_i idx next point
      split at step <;> cases step
      · rename_i taken
        obtain rfl : s.next idx = next := unchanged idx next point taken.1 taken.2
        exact h.acquired point taken.1
      · exact ⟨free, h.goto (by rw [point, acquireLoop_releasing]; rfl)
          (fun i c eq => absurd eq (acquireLoop_ne_stored _ _ i c)) fun i => acquireLoop_acquiring⟩
    · cases step
  | release t idx =>
    simp only [ObjectPool.step] at step
    split at step
    · rename_i point
      split at step <;> cases step
      exact ⟨free, h.releaseStarted point ‹_›⟩
    · cases step
  | storeNext t =>
    simp only [ObjectPool.step] at step
    split at step <;> cases step
    rename_i idx current point
    exact ⟨free, h.linked point⟩
  | casRelease t spurious =>
    simp only [ObjectPool.step] at step
    split at step
    · rename_i idx current point
      split at step <;> cases step
      · rename_i taken
        exact ⟨idx :: free, h.released point taken.1⟩
      · exact ⟨free, h.goto (by rw [point]; rfl) nofun nofun⟩
    · cases step

/-- **The pool is exclusive without stale exchanges.** In every run in which `acquire`'s
exchange never succeeds on a slot whose link has changed since it was read, no slot has
two holders, no held slot is on the free list, and no free slot is lost. -/
theorem exclusive_of_linkUnchanged (poolSize : ℕ) (acts : List (PoolAction Tid)) (s : ObjectPool Tid)
    (run : (machine Tid poolSize).run acts = some s)
    (unchanged : (machine Tid poolSize).Along LinkUnchanged (machine Tid poolSize).init acts) :
    Exclusive poolSize s := by
  have inv : ∃ free, PoolInv poolSize s free :=
    Machine.run_induct (M := machine Tid poolSize) (I := fun _ s => ∃ free, PoolInv poolSize s free)
      ⟨_, PoolInv.fresh⟩ (fun _ _ _ _ _ ⟨_, inv⟩ here last => inv.step here last) acts s run unchanged
  exact inv.elim fun _ inv => inv.exclusive

/-- Two threads take turns on a pool of two slots, one exchange failing spuriously. -/
theorem exclusive_of_linkUnchanged_two :
    ∃ s, (machine ℕ 2).run [.acquire 0, .acquire 1, .loadNext 0, .casAcquire 0 true, .loadNext 0,
      .casAcquire 0 false, .release 0 0, .storeNext 0, .casRelease 0 false] = some s ∧ Exclusive 2 s := by
  obtain ⟨s, run, -⟩ := (machine ℕ 2).exists_of_any [.acquire 0, .acquire 1, .loadNext 0,
    .casAcquire 0 true, .loadNext 0, .casAcquire 0 false, .release 0 0, .storeNext 0,
    .casRelease 0 false] (fun _ => true) (by decide)
  refine ⟨s, run, exclusive_of_linkUnchanged 2 _ s run ?_⟩
  simp [Machine.Along, machine, step, LinkUnchanged, ObjectPool.goto, ObjectPool.fresh, acquireLoop]

/-- **One slot, two holders.** Thread 0 reads head 0 and its link 1 and pauses; thread 1
takes slot 0, thread 2 takes slot 1, thread 1 returns slot 0. The exchange of thread 0
then finds head 0 again and installs slot 1, which thread 2 holds, as the head. -/
theorem shared_slot :
    ¬ ∀ (poolSize : ℕ) (acts : List (PoolAction ℕ)) (s : ObjectPool ℕ),
      (machine ℕ poolSize).run acts = some s → Exclusive poolSize s := by
  intro exclusive
  obtain ⟨s, run, shared⟩ := (machine ℕ 2).exists_of_any
    [.acquire 0, .loadNext 0,
      .acquire 1, .loadNext 1, .casAcquire 1 false,
      .acquire 2, .loadNext 2, .casAcquire 2 false,
      .release 1 0, .storeNext 1, .casRelease 1 false,
      .casAcquire 0 false,
      .acquire 1, .loadNext 1, .casAcquire 1 false]
    (fun s => !decide s.heldSlots.Nodup) (by decide)
  simp [(exclusive 2 _ s run).distinct] at shared

end StockAnomaly.Core.ObjectPool

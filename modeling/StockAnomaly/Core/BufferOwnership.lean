import Mathlib.Data.Finset.Card
import Mathlib.Logic.Equiv.Basic
import StockAnomaly.Core.PoolExclusive
import StockAnomaly.Core.PoolHandle

/-!
# Who owns a buffer

Every slot is on the free list or owned by one live handle (`OwnershipInv`). An operation on handles renames
owners (`OwnershipInv.renamed`), takes the first free slot (`OwnershipInv.acquired`) or gives an owned one back
(`OwnershipInv.released`); the special members of `PoolHandle` are composed of these.
-/

namespace StockAnomaly.Core.KafkaProducer

open Theory

variable {H : Type} {poolSize : ℕ} {s s' : KafkaProducer H} {free held : List ℕ} {g h other : H}

/-- A handle is set in both fields or in none. -/
def Whole (s : KafkaProducer H) : Prop := ∀ h v, s.handles h = some v → v.pool = v.ptr.isSome

/-- `free` is the free list, `held` the slots that were acquired and not released since. -/
structure OwnershipInv (poolSize : ℕ) (s : KafkaProducer H) (free held : List ℕ) : Prop where
  chain : Chain s.pool.next poolSize s.pool.head free
  leases : Leases s.pool.log held
  split : (free ++ held).Perm (List.range poolSize)
  owned_iff : ∀ i, (∃ h, s.owned h = some i) ↔ i ∈ held
  unique : ∀ g h i, s.owned g = some i → s.owned h = some i → g = h
  whole : s.Whole

theorem owned_of_handles {v : PoolHandle} (at_h : s.handles h = some v) : s.owned h = v.ptr := by
  rw [owned, at_h, Option.bind_some]

theorem owned_of_dead (dead : s.handles h = none) : s.owned h = none := by
  rw [owned, dead, Option.bind_none]

namespace OwnershipInv

theorem fresh (memory : ℕ → MessageBuffer) :
    OwnershipInv poolSize (KafkaProducer.fresh memory : KafkaProducer H) (List.range poolSize) [] where
  chain := by
    have chain := ObjectPool.chain_range' poolSize 0
    rwa [Nat.zero_add, ← List.range_eq_range'] at chain
  leases := .nil
  split := by rw [List.append_nil]
  owned_iff i := by
    refine iff_of_false ?_ List.not_mem_nil
    rintro ⟨h, owns⟩
    cases owns
  unique g h i owns := by cases owns
  whole h v at_h := by cases at_h

theorem mem_split (inv : OwnershipInv poolSize s free held) (i : ℕ) : i ∈ free ∨ i ∈ held ↔ i < poolSize := by
  rw [← List.mem_append, inv.split.mem_iff, List.mem_range]

theorem not_free_of_held (inv : OwnershipInv poolSize s free held) {i : ℕ} (out : i ∈ held) : i ∉ free := by
  have nodup := inv.split.nodup_iff.2 List.nodup_range
  intro mem
  exact (List.nodup_append.1 nodup).2.2 i mem i out rfl

/-- The owners change names, and neither the free list nor the slots that are out change. -/
theorem renamed (inv : OwnershipInv poolSize s free held) (e : Equiv.Perm H) (owned : ∀ g, s'.owned g = s.owned (e g))
    (head : s'.pool.head = s.pool.head) (next : s'.pool.next = s.pool.next) (log : s'.pool.log = s.pool.log)
    (whole : s'.Whole) : OwnershipInv poolSize s' free held where
  chain := by rw [head, next]; exact inv.chain
  leases := by rw [log]; exact inv.leases
  split := inv.split
  owned_iff i := by
    rw [← inv.owned_iff i]
    exact e.exists_congr fun g => by rw [owned g]
  unique g h i own_g own_h := by
    rw [owned] at own_g own_h
    exact e.injective (inv.unique _ _ i own_g own_h)
  whole := whole

variable [DecidableEq H]

/-- The first free slot goes to a handle that owned nothing. -/
theorem acquired {ptr : ℕ} {rest : List ℕ} (inv : OwnershipInv poolSize s (ptr :: rest) held) (unowning : s.owned h = none)
    (owned : s'.owned = Function.update s.owned h (some ptr)) (head : s'.pool.head = s.pool.next ptr)
    (next : s'.pool.next = s.pool.next) (log : s'.pool.log = s.pool.log ++ [.acquired ptr]) (whole : s'.Whole) :
    OwnershipInv poolSize s' rest (ptr :: held) where
  chain := by
    rw [head, next]
    cases inv.chain with
    | cons _ tail => exact tail
  leases := by
    rw [log]
    refine inv.leases.acquired ?_
    intro out
    exact inv.not_free_of_held out List.mem_cons_self
  split := List.perm_middle.trans inv.split
  owned_iff i := by
    rw [owned, List.mem_cons, ← inv.owned_iff i]
    constructor
    · rintro ⟨g, own⟩
      by_cases eq : g = h
      · subst eq
        rw [Function.update_self] at own
        exact .inl (Option.some.inj own).symm
      · rw [Function.update_of_ne eq] at own
        exact .inr ⟨g, own⟩
    · rintro (rfl | ⟨g, own⟩)
      · exact ⟨h, Function.update_self ..⟩
      · refine ⟨g, ?_⟩
        rw [Function.update_of_ne, own]
        rintro rfl
        rw [unowning] at own
        cases own
  unique := by
    have fresh : ∀ g, s.owned g ≠ some ptr := by
      intro g own
      exact inv.not_free_of_held ((inv.owned_iff ptr).1 ⟨g, own⟩) List.mem_cons_self
    intro g g' i own own'
    rw [owned] at own own'
    by_cases eq : g = h <;> by_cases eq' : g' = h
    · exact eq.trans eq'.symm
    · subst eq
      rw [Function.update_self] at own
      rw [Function.update_of_ne eq', ← own] at own'
      exact absurd own' (fresh g')
    · subst eq'
      rw [Function.update_self] at own'
      rw [Function.update_of_ne eq, ← own'] at own
      exact absurd own (fresh g)
    · rw [Function.update_of_ne eq] at own
      rw [Function.update_of_ne eq'] at own'
      exact inv.unique g g' i own own'
  whole := whole

/-- An owned slot goes back to the free list. -/
theorem released {ptr : ℕ} (inv : OwnershipInv poolSize s free held) (owns : s.owned h = some ptr)
    (owned : s'.owned = Function.update s.owned h none) (head : s'.pool.head = ptr)
    (next : s'.pool.next = Function.update s.pool.next ptr s.pool.head)
    (log : s'.pool.log = s.pool.log ++ [.released ptr]) (whole : s'.Whole) :
    OwnershipInv poolSize s' (ptr :: free) (held.erase ptr) := by
  have out : ptr ∈ held := (inv.owned_iff ptr).1 ⟨h, owns⟩
  have ne : ptr ≠ poolSize := Nat.ne_of_lt ((inv.mem_split ptr).1 (.inr out))
  constructor
  case chain =>
    rw [head, next]
    refine .cons ne ?_
    rw [Function.update_self]
    exact inv.chain.update (inv.not_free_of_held out) _
  case leases =>
    rw [log]
    exact inv.leases.released out
  case split =>
    refine List.Perm.trans ?_ inv.split
    exact List.perm_middle.symm.trans ((List.perm_cons_erase out).symm.append_left free)
  case owned_iff =>
    intro i
    rw [owned, inv.leases.nodup.mem_erase_iff, ← inv.owned_iff i]
    constructor
    · rintro ⟨g, own⟩
      have other : g ≠ h := by
        rintro rfl
        rw [Function.update_self] at own
        cases own
      rw [Function.update_of_ne other] at own
      refine ⟨?_, g, own⟩
      rintro rfl
      exact other (inv.unique g h i own owns)
    · rintro ⟨ne, g, own⟩
      refine ⟨g, ?_⟩
      rw [Function.update_of_ne, own]
      rintro rfl
      exact ne (Option.some.inj (own.symm.trans owns))
  case unique =>
    have old : ∀ g i, s'.owned g = some i → s.owned g = some i := by
      intro g i own
      rw [owned] at own
      by_cases eq : g = h
      · rw [eq, Function.update_self] at own
        cases own
      · rwa [Function.update_of_ne eq] at own
    intro g g' i own own'
    exact inv.unique g g' i (old g i own) (old g' i own')
  case whole => exact whole

end OwnershipInv

section Handles

variable [DecidableEq H]

@[simp] theorem put_handles (s : KafkaProducer H) (h : H) (v : Option PoolHandle) :
    (s.put h v).handles = Function.update s.handles h v := rfl

theorem owned_put (s : KafkaProducer H) (h : H) (v : Option PoolHandle) :
    (s.put h v).owned = Function.update s.owned h (v.bind PoolHandle.ptr) := by
  funext g
  by_cases eq : g = h
  · subst eq; simp [owned]
  · simp [owned, eq]

theorem Whole.put (whole : s.Whole) {v : Option PoolHandle} (new : ∀ w, v = some w → w.pool = w.ptr.isSome) :
    (s.put h v).Whole := by
  intro g w at_g
  by_cases eq : g = h
  · rw [put_handles, eq, Function.update_self] at at_g
    exact new w at_g
  · rw [put_handles, Function.update_of_ne eq] at at_g
    exact whole g w at_g

theorem Whole.put_empty (whole : s.Whole) : (s.put h (some .empty)).Whole := by
  apply whole.put
  rintro w eq
  cases eq
  rfl

theorem Whole.put_none (whole : s.Whole) : (s.put h none).Whole := by
  apply whole.put
  rintro w eq
  cases eq

/-- What `reset` does: it gives back the slot, or the handle had none to give back. -/
theorem reset_cases (step : s.reset h = some s') :
    (∃ ptr, s.handles h = some ⟨true, some ptr⟩ ∧ s' = { s.put h (some .empty) with pool := s.pool.release ptr }) ∨
      ∃ v, s.handles h = some v ∧ ¬ (v.pool = true ∧ v.ptr.isSome) ∧ s' = s := by
  unfold reset at step
  split at step
  · rename_i ptr at_h
    cases step
    exact .inl ⟨ptr, at_h, rfl⟩
  · rename_i v no at_h
    cases step
    refine .inr ⟨v, at_h, ?_, rfl⟩
    rintro ⟨pool, ptr⟩
    obtain ⟨ptr, eq⟩ := Option.isSome_iff_exists.1 ptr
    refine no ptr ?_
    rw [← pool, ← eq]
  · cases step

theorem reset_handles (step : s.reset h = some s') :
    ∃ v, s.handles h = some v ∧ ∃ v', s'.handles = Function.update s.handles h (some v') := by
  rcases reset_cases step with ⟨ptr, at_h, rfl⟩ | ⟨v, at_h, -, rfl⟩
  · exact ⟨_, at_h, _, rfl⟩
  · refine ⟨v, at_h, v, ?_⟩
    rw [← at_h, Function.update_eq_self]

theorem destroy_handles (step : s.destroy h = some s') : s'.handles = Function.update s.handles h none := by
  obtain ⟨t, reset, rfl⟩ := Option.map_eq_some_iff.1 step
  obtain ⟨-, -, v, eq⟩ := reset_handles reset
  rw [put_handles, eq]
  exact Function.update_idem ..

theorem acquireBuffer_handles (step : s.acquireBuffer poolSize h = some s') :
    s.handles h = none ∧ ∃ v, s'.handles = Function.update s.handles h (some v) := by
  unfold acquireBuffer at step
  split at step
  · split at step <;> cases step
    · exact ⟨‹_›, _, rfl⟩
    · exact ⟨‹_›, _, rfl⟩
  · cases step

omit [DecidableEq H] in
theorem fill_handles {b : MessageBuffer} (step : s.fill h b = some s') : s'.handles = s.handles := by
  obtain ⟨ptr, -, rfl⟩ := Option.map_eq_some_iff.1 step
  rfl

theorem moveConstruct_handles (step : s.moveConstruct h other = some s') : s.handles h = none ∧ ∃ v,
    s.handles other = some v ∧
      s'.handles = Function.update (Function.update s.handles h (some v)) other (some .empty) := by
  unfold moveConstruct at step
  split at step
  · rename_i v dead at_other
    cases step
    exact ⟨dead, v, at_other, rfl⟩
  · cases step

/-- On every path of `publish` its parameter goes out of scope. -/
theorem publish_destroys {ok : Bool} {result : Bool × KafkaProducer H} (step : s.publish h ok = some result) :
    ∃ produced, ({ s with produced := produced } : KafkaProducer H).destroy h = some result.2 := by
  unfold publish at step
  split at step
  · obtain ⟨t, destroyed, rfl⟩ := Option.map_eq_some_iff.1 step
    exact ⟨s.produced, destroyed⟩
  · obtain ⟨t, destroyed, rfl⟩ := Option.map_eq_some_iff.1 step
    exact ⟨_, destroyed⟩

theorem publish_handles {ok : Bool} {result : Bool × KafkaProducer H} (step : s.publish h ok = some result) :
    result.2.handles = Function.update s.handles h none := by
  obtain ⟨produced, destroyed⟩ := publish_destroys step
  rw [destroy_handles destroyed]

end Handles

namespace OwnershipInv

variable [DecidableEq H]

/-- A place whose handle owns nothing gets a handle that owns nothing, or none. -/
theorem put (inv : OwnershipInv poolSize s free held) (unowning : s.owned h = none) {v : Option PoolHandle}
    (empty : v.bind PoolHandle.ptr = none) (whole : (s.put h v).Whole) :
    OwnershipInv poolSize (s.put h v) free held := by
  refine inv.renamed (Equiv.refl H) ?_ rfl rfl rfl whole
  intro g
  rw [owned_put, empty, ← unowning, Function.update_eq_self, Equiv.refl_apply]

/-- The last two lines of a move: `h` owns what `other` did. -/
theorem moved (inv : OwnershipInv poolSize s free held) (unowning : s.owned h = none) {v : PoolHandle}
    (at_other : s.handles other = some v) (ne : h ≠ other) :
    OwnershipInv poolSize ((s.put h (some v)).put other (some .empty)) free held := by
  have whole : (s.put h (some v)).Whole := by
    apply inv.whole.put
    rintro w eq
    obtain rfl := Option.some.inj eq
    exact inv.whole other v at_other
  refine inv.renamed (Equiv.swap h other) ?_ rfl rfl rfl whole.put_empty
  intro g
  rw [owned_put, owned_put]
  by_cases at_o : g = other
  · subst at_o
    rw [Function.update_self, Equiv.swap_apply_right, unowning]
    rfl
  by_cases at_h : g = h
  · subst at_h
    rw [Function.update_of_ne at_o, Function.update_self, Equiv.swap_apply_left, owned_of_handles at_other]
    rfl
  · rw [Function.update_of_ne at_o, Function.update_of_ne at_h, Equiv.swap_apply_of_ne_of_ne at_h at_o]

theorem reset (inv : OwnershipInv poolSize s free held) (step : s.reset h = some s') :
    s'.owned h = none ∧ ∃ free' held', OwnershipInv poolSize s' free' held' := by
  rcases reset_cases step with ⟨ptr, at_h, rfl⟩ | ⟨v, at_h, unset, rfl⟩
  · have own : s.owned h = some ptr := owned_of_handles at_h
    have after := owned_put s h (some .empty)
    refine ⟨(congrFun after h).trans (Function.update_self ..), ptr :: free, held.erase ptr, ?_⟩
    exact inv.released own after rfl rfl rfl inv.whole.put_empty
  · refine ⟨?_, free, held, inv⟩
    rw [owned_of_handles at_h]
    rw [inv.whole h v at_h] at unset
    cases ptr : v.ptr with
    | none => rfl
    | some i => simp [ptr] at unset

theorem destroy (inv : OwnershipInv poolSize s free held) (step : s.destroy h = some s') :
    ∃ free' held', OwnershipInv poolSize s' free' held' := by
  obtain ⟨t, reset, rfl⟩ := Option.map_eq_some_iff.1 step
  obtain ⟨unowning, free', held', inv'⟩ := inv.reset reset
  exact ⟨free', held', inv'.put unowning rfl inv'.whole.put_none⟩

theorem acquireBuffer (inv : OwnershipInv poolSize s free held) (step : s.acquireBuffer poolSize h = some s') :
    (s'.owned h = none ↔ free = []) ∧ ∃ free' held', OwnershipInv poolSize s' free' held' := by
  unfold KafkaProducer.acquireBuffer at step
  split at step
  · rename_i dead
    have unowning := owned_of_dead dead
    split at step
    · rename_i none_left
      cases step
      have null := MessagePool.acquire_eq_none_iff.1 none_left
      have chain := inv.chain
      rw [null] at chain
      refine ⟨iff_of_true ?_ (chain.unique .nil), free, held, inv.put unowning rfl inv.whole.put_empty⟩
      rw [owned_put, Function.update_self]
      rfl
    · rename_i ptr pool found
      cases step
      obtain ⟨head, ne, rfl⟩ := MessagePool.acquire_eq_some found
      have chain := inv.chain
      rw [head] at chain
      have after := owned_put s h (some ⟨true, some ptr⟩)
      cases chain with
      | nil => exact absurd rfl ne
      | @cons _ rest _ tail =>
        refine ⟨iff_of_false ?_ (List.cons_ne_nil _ _), rest, ptr :: held, ?_⟩
        · intro nothing
          have own := (congrFun after h).trans (Function.update_self ..)
          cases own.symm.trans nothing
        · refine inv.acquired unowning after rfl rfl rfl ?_
          apply inv.whole.put
          rintro w eq
          cases eq
          rfl
  · cases step

omit [DecidableEq H] in
/-- What the buffers contain, and what was produced from them, is nothing to the owners. -/
theorem contents (inv : OwnershipInv poolSize s free held) (pool : MessagePool) (head : pool.head = s.pool.head)
    (next : pool.next = s.pool.next) (log : pool.log = s.pool.log) (produced : List (MessageBuffer × Bool)) :
    OwnershipInv poolSize { s with pool := pool, produced := produced } free held :=
  inv.renamed (Equiv.refl H) (fun _ => rfl) head next log inv.whole

theorem moveConstruct (inv : OwnershipInv poolSize s free held) (step : s.moveConstruct h other = some s') :
    OwnershipInv poolSize s' free held := by
  unfold KafkaProducer.moveConstruct at step
  split at step
  · rename_i v dead at_other
    cases step
    refine inv.moved (owned_of_dead dead) at_other ?_
    rintro rfl
    cases dead.symm.trans at_other
  · cases step

/-- Onto itself nothing moves; otherwise the slot of the handle assigned to is given back first. -/
theorem moveAssign (inv : OwnershipInv poolSize s free held) (step : s.moveAssign h other = some s') :
    ∃ free' held', OwnershipInv poolSize s' free' held' := by
  unfold KafkaProducer.moveAssign at step
  split at step
  · obtain ⟨-, -, rfl⟩ := Option.map_eq_some_iff.1 step
    exact ⟨free, held, inv⟩
  · rename_i ne
    obtain ⟨t, reset, step⟩ := Option.bind_eq_some_iff.1 step
    obtain ⟨v, at_other, step⟩ := Option.bind_eq_some_iff.1 step
    cases step
    obtain ⟨unowning, free', held', inv'⟩ := inv.reset reset
    exact ⟨free', held', inv'.moved unowning at_other ne⟩

theorem publish (inv : OwnershipInv poolSize s free held) {ok : Bool} {result : Bool × KafkaProducer H}
    (step : s.publish h ok = some result) : ∃ free' held', OwnershipInv poolSize result.2 free' held' := by
  obtain ⟨produced, destroyed⟩ := publish_destroys step
  exact (inv.contents s.pool rfl rfl rfl produced).destroy destroyed

/-- **One operation** keeps every slot free or owned. -/
theorem apply (inv : OwnershipInv poolSize s free held) {op : Op H} (step : s.apply poolSize op = some s') :
    ∃ free' held', OwnershipInv poolSize s' free' held' := by
  cases op with
  | construct h =>
    simp only [KafkaProducer.apply, construct] at step
    split at step <;> cases step
    exact ⟨free, held, inv.put (owned_of_dead ‹_›) rfl inv.whole.put_empty⟩
  | acquireBuffer h => exact (inv.acquireBuffer step).2
  | fill h b =>
    obtain ⟨ptr, -, rfl⟩ := Option.map_eq_some_iff.1 step
    exact ⟨free, held, inv.contents (s.pool.store ptr b) rfl rfl rfl s.produced⟩
  | moveConstruct h other => exact ⟨free, held, inv.moveConstruct step⟩
  | moveAssign h other => exact inv.moveAssign step
  | reset h => exact (inv.reset step).2
  | destroy h => exact inv.destroy step
  | publish h ok =>
    obtain ⟨result, published, rfl⟩ := Option.map_eq_some_iff.1 step
    exact inv.publish published

/-- The owning handles are as many as the slots that are out. -/
theorem exists_owners (inv : OwnershipInv poolSize s free held) :
    ∃ owners : Finset H, (∀ g, g ∈ owners ↔ (s.owned g).isSome) ∧ owners.card = held.length := by
  choose owner owns using fun i => (inv.owned_iff i).2
  refine ⟨held.toFinset.attach.image fun i : held.toFinset => owner i (List.mem_toFinset.1 i.2), ?_, ?_⟩
  · intro g
    rw [Option.isSome_iff_exists, Finset.mem_image]
    constructor
    · rintro ⟨i, -, rfl⟩
      exact ⟨i, owns _ _⟩
    · rintro ⟨i, own⟩
      have out := (inv.owned_iff i).1 ⟨g, own⟩
      exact ⟨⟨i, List.mem_toFinset.2 out⟩, Finset.mem_attach .., inv.unique _ _ i (owns i out) own⟩
  · rw [Finset.card_image_of_injective, Finset.card_attach, List.toFinset_card_of_nodup inv.leases.nodup]
    intro i j same
    have own := owns i (List.mem_toFinset.1 i.2)
    rw [show owner i _ = owner j _ from same, owns] at own
    exact Subtype.ext (Option.some.inj own).symm

/-- The invariant of all runs of operations. -/
theorem reachable {memory : ℕ → MessageBuffer} (reach : (opMachine H poolSize memory).Reachable s) :
    ∃ free held, OwnershipInv poolSize s free held := by
  refine reach.induct (I := fun s => ∃ free held, OwnershipInv poolSize s free held) ⟨_, _, fresh memory⟩ ?_
  rintro s op s' ⟨free, held, inv⟩ step
  exact inv.apply step

end OwnershipInv

end StockAnomaly.Core.KafkaProducer

import StockAnomaly.Aggregation.Swing
import StockAnomaly.Core.ObjectPool

/-!
# `get_or_create_state` under its two locks

Calls of any threads, one critical section at a time: the shared-lock `find`, then the
exclusive lock with the second `find`, the atomic steps of `state_pool_.acquire()` and the
insertion. The pool is the `ObjectPool` of the core, and a state is its slot. A ticker
always gets the same answer and two tickers never get the same slot: `Inv.same` and
`Inv.distinct`.
-/

namespace StockAnomaly.Aggregation

open StockAnomaly.Theory StockAnomaly.Core

/-- Where a thread stands inside `get_or_create_state`. -/
inductive RegistryPc
  | idle
  /-- The shared lock is released again, the ticker was not there. -/
  | missed (ticker : Ticker)
  /-- Inside `acquire` under the exclusive lock; `taken` slots were held when it was called. -/
  | acquiring (ticker : Ticker) (taken : ℕ)
  deriving DecidableEq

/-- `registry_`, `state_pool_`, the holder of the exclusive lock and, as a ghost, what
every call returned. -/
structure StateRegistry (Tid : Type) where
  registry : Ticker → Option ℕ
  pool : ObjectPool Tid
  owner : Option Tid
  pc : Tid → RegistryPc
  returned : List (Ticker × Option ℕ)

inductive RegistryAction (Tid : Type)
  /-- The section under the shared lock. -/
  | find (t : Tid) (ticker : Ticker)
  /-- The exclusive lock is taken and `find` runs again. -/
  | findAgain (t : Tid)
  /-- One atomic step of `state_pool_.acquire()`. -/
  | acquireStep (t : Tid) (spurious : Bool)
  /-- `acquire` has returned; the state is registered and the lock released. -/
  | finish (t : Tid)

namespace StateRegistry

variable {Tid : Type} [DecidableEq Tid]

def fresh : StateRegistry Tid := ⟨fun _ => none, ObjectPool.fresh, none, fun _ => .idle, []⟩

def goto (s : StateRegistry Tid) (t : Tid) (pc : RegistryPc) : StateRegistry Tid :=
  { s with pc := Function.update s.pc t pc }

/-- The call of `t` returns. -/
def ret (s : StateRegistry Tid) (t : Tid) (ticker : Ticker) (state : Option ℕ) : StateRegistry Tid :=
  { s.goto t .idle with returned := (ticker, state) :: s.returned }

/-- The next atomic step of `t` inside `acquire`. -/
def acquireStep (poolSize : ℕ) (pool : ObjectPool Tid) (t : Tid) (spurious : Bool) : Option (ObjectPool Tid) :=
  match pool.pc t with
  | .acquireLoaded _ => ObjectPool.step poolSize pool (.loadNext t)
  | .acquireNext _ _ => ObjectPool.step poolSize pool (.casAcquire t spurious)
  | _ => none

/-- What `acquire` returned, when `taken` slots were held at its call. -/
def acquired (pool : ObjectPool Tid) (taken : ℕ) : Option ℕ :=
  if pool.held.length = taken then none else pool.heldSlots.head?

def step (poolSize : ℕ) (s : StateRegistry Tid) : RegistryAction Tid → Option (StateRegistry Tid)
  | .find t ticker =>
    match s.pc t, s.owner with
    | .idle, none =>
      match s.registry ticker with
      | some state => some (s.ret t ticker (some state))
      | none => some (s.goto t (.missed ticker))
    | _, _ => none
  | .findAgain t =>
    match s.pc t, s.owner with
    | .missed ticker, none =>
      match s.registry ticker with
      | some state => some (s.ret t ticker (some state))
      | none => (ObjectPool.step poolSize s.pool (.acquire t)).map fun pool =>
          { s.goto t (.acquiring ticker s.pool.held.length) with pool, owner := some t }
    | _, _ => none
  | .acquireStep t spurious =>
    match s.pc t with
    | .acquiring _ _ => (acquireStep poolSize s.pool t spurious).map fun pool => { s with pool }
    | _ => none
  | .finish t =>
    match s.pc t, s.pool.pc t with
    | .acquiring ticker taken, .idle =>
      match acquired s.pool taken with
      | none => some { s.ret t ticker none with owner := none }
      | some state =>
        some { s.ret t ticker (some state) with
          owner := none, registry := Function.update s.registry ticker (some state) }
    | _, _ => none

/-- The calls as a machine: any threads, any interleaving at the locks. -/
def machine (Tid : Type) [DecidableEq Tid] (poolSize : ℕ) : Machine (StateRegistry Tid) (RegistryAction Tid) where
  init := fresh
  step := step poolSize

/-- How far `acquire` is for the holder of the lock. -/
inductive Phase (poolSize : ℕ) (pool : ObjectPool Tid) (t : Tid) (taken : ℕ) : Prop
  | loaded (at_head : pool.pc t = .acquireLoaded pool.head) (head : pool.head = taken) (room : taken < poolSize)
  | linked (at_head : pool.pc t = .acquireNext pool.head (pool.head + 1)) (head : pool.head = taken)
      (room : taken < poolSize)
  | empty (idle : pool.pc t = .idle) (head : pool.head = taken) (full : taken = poolSize)
  | obtained (idle : pool.pc t = .idle) (head : pool.head = taken + 1) (slot : pool.heldSlots.head? = some taken)
      (room : taken < poolSize)

/-- The pool while nobody gives a slot back: the first `head` slots are taken, in order. -/
structure Sequential (poolSize : ℕ) (pool : ObjectPool Tid) : Prop where
  next : pool.next = fun i => i + 1
  count : pool.held.length = pool.head
  le : pool.head ≤ poolSize

/-- The slots handed out so far that are, or were, registered. -/
def committed (s : StateRegistry Tid) : ℕ :=
  match s.owner with
  | none => s.pool.head
  | some t =>
    match s.pc t with
    | .acquiring _ taken => taken
    | _ => s.pool.head

structure Inv (poolSize : ℕ) (s : StateRegistry Tid) : Prop where
  sequential : Sequential poolSize s.pool
  below : ∀ ticker i, s.registry ticker = some i → i < s.committed
  injective : ∀ T U i, s.registry T = some i → s.registry U = some i → T = U
  others : ∀ t, s.owner ≠ some t → s.pool.pc t = .idle ∧ ∀ ticker taken, s.pc t ≠ .acquiring ticker taken
  owner : ∀ t, s.owner = some t → ∃ ticker taken, s.pc t = .acquiring ticker taken ∧
    s.registry ticker = none ∧ Phase poolSize s.pool t taken
  found : ∀ ticker i, (ticker, some i) ∈ s.returned → s.registry ticker = some i
  exhausted : ∀ ticker, (ticker, none) ∈ s.returned → s.registry ticker = none ∧ s.committed = poolSize

section Steps

variable {poolSize : ℕ} {s s' : StateRegistry Tid}

theorem find_cases {t : Tid} {ticker : Ticker} (h : (machine Tid poolSize).step s (.find t ticker) = some s') :
    s.pc t = .idle ∧ s.owner = none ∧
      ((∃ i, s.registry ticker = some i ∧ s' = s.ret t ticker (some i)) ∨
        (s.registry ticker = none ∧ s' = s.goto t (.missed ticker))) := by
  simp only [machine, step] at h
  split at h
  case h_1 idle free =>
    refine ⟨idle, free, ?_⟩
    split at h
    case h_1 i found => exact .inl ⟨i, found, (Option.some.inj h).symm⟩
    case h_2 absent => exact .inr ⟨absent, (Option.some.inj h).symm⟩
  case h_2 => cases h

theorem findAgain_cases {t : Tid} (h : (machine Tid poolSize).step s (.findAgain t) = some s') :
    ∃ ticker, s.pc t = .missed ticker ∧ s.owner = none ∧
      ((∃ i, s.registry ticker = some i ∧ s' = s.ret t ticker (some i)) ∨
        (s.registry ticker = none ∧ s.pool.pc t = .idle ∧
          s' = { s.goto t (.acquiring ticker s.pool.held.length) with
            pool := s.pool.goto t (ObjectPool.acquireLoop poolSize s.pool.head), owner := some t })) := by
  simp only [machine, step] at h
  split at h
  case h_1 ticker missed free =>
    refine ⟨ticker, missed, free, ?_⟩
    split at h
    case h_1 i found => exact .inl ⟨i, found, (Option.some.inj h).symm⟩
    case h_2 absent =>
      obtain ⟨pool, called, rfl⟩ := Option.map_eq_some_iff.1 h
      simp only [ObjectPool.step] at called
      split at called
      case h_1 idle =>
        cases called
        exact .inr ⟨absent, idle, rfl⟩
      case h_2 => cases called
  case h_2 => cases h

theorem acquireStep_cases {t : Tid} {spurious : Bool}
    (h : (machine Tid poolSize).step s (.acquireStep t spurious) = some s') :
    (∃ ticker taken, s.pc t = .acquiring ticker taken) ∧
      ∃ pool, acquireStep poolSize s.pool t spurious = some pool ∧ s' = { s with pool } := by
  simp only [machine, step] at h
  split at h
  case h_1 ticker taken inside =>
    obtain ⟨pool, stepped, rfl⟩ := Option.map_eq_some_iff.1 h
    exact ⟨⟨ticker, taken, inside⟩, pool, stepped, rfl⟩
  case h_2 => cases h

theorem finish_cases {t : Tid} (h : (machine Tid poolSize).step s (.finish t) = some s') :
    ∃ ticker taken, s.pc t = .acquiring ticker taken ∧ s.pool.pc t = .idle ∧
      ((acquired s.pool taken = none ∧ s' = { s.ret t ticker none with owner := none }) ∨
        ∃ i, acquired s.pool taken = some i ∧
          s' = { s.ret t ticker (some i) with
            owner := none, registry := Function.update s.registry ticker (some i) }) := by
  simp only [machine, step] at h
  split at h
  case h_1 ticker taken inside idle =>
    refine ⟨ticker, taken, inside, idle, ?_⟩
    split at h
    case h_1 empty => exact .inl ⟨empty, (Option.some.inj h).symm⟩
    case h_2 i got => exact .inr ⟨i, got, (Option.some.inj h).symm⟩
  case h_2 => cases h

end Steps

section Acquire

variable {poolSize taken : ℕ} {pool pool' : ObjectPool Tid} {t : Tid}

/-- The call of `acquire`. -/
theorem Sequential.acquire (h : Sequential poolSize pool) :
    Sequential poolSize (pool.goto t (ObjectPool.acquireLoop poolSize pool.head)) ∧
      Phase poolSize (pool.goto t (ObjectPool.acquireLoop poolSize pool.head)) t pool.held.length := by
  refine ⟨⟨h.next, h.count, h.le⟩, ?_⟩
  by_cases full : pool.head = poolSize
  · apply Phase.empty
    · simp [ObjectPool.acquireLoop, full]
    · exact h.count.symm
    · rw [h.count, full]
  · apply Phase.loaded
    · simp only [ObjectPool.goto_pc_self, ObjectPool.acquireLoop, if_neg full]
      rfl
    · exact h.count.symm
    · rw [h.count]
      exact Nat.lt_of_le_of_ne h.le full

/-- An atomic step of `acquire` under the lock. -/
theorem Sequential.acquireStep {spurious : Bool} (h : Sequential poolSize pool) (phase : Phase poolSize pool t taken)
    (stepped : acquireStep poolSize pool t spurious = some pool') :
    Sequential poolSize pool' ∧ Phase poolSize pool' t taken ∧
      (∀ u ≠ t, pool'.pc u = pool.pc u) := by
  cases phase with
  | loaded at_head head room =>
    simp only [StateRegistry.acquireStep, at_head, ObjectPool.step, Option.some.injEq] at stepped
    subst stepped
    refine ⟨⟨h.next, h.count, h.le⟩, Phase.linked ?_ head room, fun u ne => ObjectPool.goto_pc_of_ne _ _ ne⟩
    rw [ObjectPool.goto_pc_self, h.next]
    rfl
  | linked at_head head room =>
    simp only [StateRegistry.acquireStep, at_head, ObjectPool.step, true_and] at stepped
    split at stepped
    case isTrue =>
      cases stepped
      refine ⟨⟨h.next, ?_, ?_⟩, Phase.obtained ?_ ?_ ?_ room, fun u ne => ObjectPool.goto_pc_of_ne _ _ ne⟩
      · simp [h.count]
      · simp only
        omega
      · exact ObjectPool.goto_pc_self ..
      · simp only
        omega
      · simp [ObjectPool.heldSlots, head]
    case isFalse =>
      cases stepped
      have not_full : ¬ pool.head = poolSize := by omega
      refine ⟨⟨h.next, h.count, h.le⟩, Phase.loaded ?_ head room, fun u ne => ObjectPool.goto_pc_of_ne _ _ ne⟩
      rw [ObjectPool.goto_pc_self, ObjectPool.acquireLoop, if_neg not_full]
      rfl
  | empty idle => simp [StateRegistry.acquireStep, idle] at stepped
  | obtained idle => simp [StateRegistry.acquireStep, idle] at stepped

omit [DecidableEq Tid] in
/-- What the call gave, once it has returned. -/
theorem Phase.returned (h : Sequential poolSize pool) (phase : Phase poolSize pool t taken) (idle : pool.pc t = .idle) :
    (acquired pool taken = none ∧ pool.head = taken ∧ taken = poolSize) ∨
      (acquired pool taken = some taken ∧ pool.head = taken + 1) := by
  cases phase with
  | loaded at_head => rw [idle] at at_head; cases at_head
  | linked at_head => rw [idle] at at_head; cases at_head
  | empty _ head full => exact .inl ⟨by simp [acquired, h.count, head], head, full⟩
  | obtained _ head slot =>
    refine .inr ⟨?_, head⟩
    rw [acquired, if_neg (by rw [h.count]; omega), slot]

end Acquire

section Invariant

variable {poolSize : ℕ} {s s' : StateRegistry Tid} {t : Tid} {ticker : Ticker}

omit [DecidableEq Tid] in
theorem Inv.fresh : Inv poolSize (fresh : StateRegistry Tid) where
  sequential := ⟨rfl, rfl, Nat.zero_le _⟩
  below := nofun
  injective := nofun
  others := fun _ _ => ⟨rfl, nofun⟩
  owner := nofun
  found := nofun
  exhausted := nofun

/-- A thread that is not inside `acquire` moves while the exclusive lock is free. -/
theorem Inv.goto (h : Inv poolSize s) (free : s.owner = none) {pc : RegistryPc}
    (outside : ∀ ticker taken, pc ≠ .acquiring ticker taken) : Inv poolSize (s.goto t pc) where
  sequential := h.sequential
  below := by
    have bound := h.below
    simp only [committed, free] at bound
    simpa only [committed, StateRegistry.goto, free] using bound
  injective := h.injective
  others := by
    intro u not_owner
    refine ⟨(h.others u not_owner).1, ?_⟩
    by_cases same : u = t
    · subst same
      simpa [StateRegistry.goto] using outside
    · simpa [StateRegistry.goto, same] using (h.others u not_owner).2
  owner := by
    intro u owner
    cases free.symm.trans owner
  found := h.found
  exhausted := by
    have full := h.exhausted
    simp only [committed, free] at full
    simpa only [committed, StateRegistry.goto, free] using full

/-- A call that found the ticker returns its state. -/
theorem Inv.ret (h : Inv poolSize s) (free : s.owner = none) {i : ℕ} (found : s.registry ticker = some i) :
    Inv poolSize (s.ret t ticker (some i)) := by
  have moved : Inv poolSize (s.goto t .idle) := h.goto free nofun
  refine { moved with found := ?_, exhausted := ?_ }
  · intro T j mem
    rcases List.mem_cons.1 mem with new | old
    · cases new
      exact found
    · exact moved.found T j old
  · intro T mem
    rcases List.mem_cons.1 mem with new | old
    · cases new
    · exact moved.exhausted T old

/-- The exclusive lock is taken for a ticker that is still missing. -/
theorem Inv.lock (h : Inv poolSize s) (free : s.owner = none) (absent : s.registry ticker = none) :
    Inv poolSize { s.goto t (.acquiring ticker s.pool.held.length) with
      pool := s.pool.goto t (ObjectPool.acquireLoop poolSize s.pool.head), owner := some t } := by
  have called := h.sequential.acquire (t := t)
  have bound := h.below
  have full := h.exhausted
  simp only [committed, free, ← h.sequential.count] at bound full
  constructor
  · exact called.1
  · simpa [committed, StateRegistry.goto] using bound
  · exact h.injective
  · intro u not_owner
    have ne : u ≠ t := by
      rintro rfl
      exact not_owner rfl
    have others := h.others u (by rw [free]; nofun)
    refine ⟨(ObjectPool.goto_pc_of_ne _ _ ne).trans others.1, ?_⟩
    simpa [StateRegistry.goto, ne] using others.2
  · rintro u ⟨⟩
    exact ⟨ticker, s.pool.held.length, by simp [StateRegistry.goto], absent, called.2⟩
  · exact h.found
  · simpa [committed, StateRegistry.goto] using full

omit [DecidableEq Tid] in
/-- The holder of the lock is the thread inside `acquire`. -/
theorem Inv.inside (h : Inv poolSize s) {taken : ℕ} (inside : s.pc t = .acquiring ticker taken) :
    s.owner = some t ∧ s.registry ticker = none ∧ Phase poolSize s.pool t taken := by
  have owner : s.owner = some t := by
    by_contra not_owner
    exact (h.others t not_owner).2 ticker taken inside
  obtain ⟨T, taken', inside', absent, phase⟩ := h.owner t owner
  obtain ⟨rfl, rfl⟩ : ticker = T ∧ taken = taken' := by simpa using inside.symm.trans inside'
  exact ⟨owner, absent, phase⟩

/-- A step of `acquire` under the lock. -/
theorem Inv.acquireStep (h : Inv poolSize s) {T : Ticker} {taken : ℕ} (inside : s.pc t = .acquiring T taken)
    {spurious : Bool} {pool : ObjectPool Tid} (stepped : acquireStep poolSize s.pool t spurious = some pool) :
    Inv poolSize { s with pool } := by
  obtain ⟨owner, absent, phase⟩ := h.inside inside
  obtain ⟨sequential, phase, others⟩ := h.sequential.acquireStep phase stepped
  have same : committed { s with pool } = s.committed := by simp only [committed, owner, inside]
  constructor
  · exact sequential
  · rw [same]
    exact h.below
  · exact h.injective
  · intro u not_owner
    have ne : u ≠ t := by
      rintro rfl
      exact not_owner owner
    exact ⟨(others u ne).trans (h.others u not_owner).1, (h.others u not_owner).2⟩
  · intro u owner'
    obtain rfl : u = t := Option.some.inj (owner'.symm.trans owner)
    exact ⟨T, taken, inside, absent, phase⟩
  · exact h.found
  · rw [same]
    exact h.exhausted

/-- When the holder of the lock leaves, nobody is inside `acquire`. -/
theorem Inv.unlocked (h : Inv poolSize s) (owner : s.owner = some t) (idle : s.pool.pc t = .idle) (u : Tid) :
    s.pool.pc u = .idle ∧ ∀ ticker taken, (s.goto t .idle).pc u ≠ .acquiring ticker taken := by
  by_cases same : u = t
  · subst same
    exact ⟨idle, by simp [StateRegistry.goto]⟩
  · have not_owner : s.owner ≠ some u := by
      rw [owner]
      simpa using Ne.symm same
    refine ⟨(h.others u not_owner).1, ?_⟩
    simpa [StateRegistry.goto, same] using (h.others u not_owner).2

/-- `acquire` returned a slot and the ticker is registered. -/
theorem Inv.registered (h : Inv poolSize s) {taken : ℕ} (inside : s.pc t = .acquiring ticker taken)
    (idle : s.pool.pc t = .idle) (head : s.pool.head = taken + 1) :
    Inv poolSize { s.ret t ticker (some taken) with
      owner := none, registry := Function.update s.registry ticker (some taken) } := by
  obtain ⟨owner, absent, -⟩ := h.inside inside
  have below := h.below
  have exhausted := h.exhausted
  simp only [committed, owner, inside] at below exhausted
  -- every registered slot is older than the new one
  have fresh_slot : ∀ T, s.registry T ≠ some taken := by
    intro T found
    exact Nat.lt_irrefl taken (below T taken found)
  have after : committed { s.ret t ticker (some taken) with
      owner := none, registry := Function.update s.registry ticker (some taken) } = taken + 1 := head
  have le := h.sequential.le
  constructor
  · exact h.sequential
  · intro T i found
    rw [after]
    by_cases same : T = ticker
    · subst same
      simp only [Function.update_self, Option.some.injEq] at found
      omega
    · simp only [Function.update_of_ne same] at found
      exact Nat.lt_succ_of_lt (below T i found)
  · intro T U i foundT foundU
    by_cases sameT : T = ticker <;> by_cases sameU : U = ticker
    · rw [sameT, sameU]
    · simp only [sameT, Function.update_self, Option.some.injEq] at foundT
      simp only [Function.update_of_ne sameU, ← foundT] at foundU
      exact absurd foundU (fresh_slot U)
    · simp only [sameU, Function.update_self, Option.some.injEq] at foundU
      simp only [Function.update_of_ne sameT, ← foundU] at foundT
      exact absurd foundT (fresh_slot T)
    · simp only [Function.update_of_ne sameT] at foundT
      simp only [Function.update_of_ne sameU] at foundU
      exact h.injective T U i foundT foundU
  · exact fun u _ => h.unlocked owner idle u
  · nofun
  · intro T i mem
    by_cases same : T = ticker
    · subst same
      rcases List.mem_cons.1 mem with new | old
      · cases new
        exact Function.update_self ..
      · rw [h.found T i old] at absent
        cases absent
    · rcases List.mem_cons.1 mem with new | old
      · cases new
        exact absurd rfl same
      · exact (Function.update_of_ne same ..).trans (h.found T i old)
  · intro T mem
    rcases List.mem_cons.1 mem with new | old
    · cases new
    · have full := (exhausted T old).2
      omega

/-- `acquire` returned `nullptr`. -/
theorem Inv.refused (h : Inv poolSize s) {taken : ℕ} (inside : s.pc t = .acquiring ticker taken)
    (idle : s.pool.pc t = .idle) (head : s.pool.head = taken) (full : taken = poolSize) :
    Inv poolSize { s.ret t ticker none with owner := none } := by
  obtain ⟨owner, absent, -⟩ := h.inside inside
  have same : committed { s.ret t ticker none with owner := none } = s.committed := by
    simp only [committed, owner, inside]
    exact head
  constructor
  · exact h.sequential
  · rw [same]
    exact h.below
  · exact h.injective
  · exact fun u _ => h.unlocked owner idle u
  · nofun
  · intro T i mem
    rcases List.mem_cons.1 mem with new | old
    · cases new
    · exact h.found T i old
  · intro T mem
    rw [same]
    rcases List.mem_cons.1 mem with new | old
    · cases new
      exact ⟨absent, by simp only [committed, owner, inside, full]⟩
    · exact h.exhausted T old

theorem Inv.step {a : RegistryAction Tid} (h : Inv poolSize s) (step : (machine Tid poolSize).step s a = some s') :
    Inv poolSize s' := by
  cases a with
  | find t ticker =>
    obtain ⟨-, free, ⟨i, found, rfl⟩ | ⟨-, rfl⟩⟩ := find_cases step
    · exact h.ret free found
    · exact h.goto free nofun
  | findAgain t =>
    obtain ⟨ticker, -, free, ⟨i, found, rfl⟩ | ⟨absent, -, rfl⟩⟩ := findAgain_cases step
    · exact h.ret free found
    · exact h.lock free absent
  | acquireStep t spurious =>
    obtain ⟨⟨ticker, taken, inside⟩, pool, stepped, rfl⟩ := acquireStep_cases step
    exact h.acquireStep inside stepped
  | finish t =>
    obtain ⟨ticker, taken, inside, idle, outcome⟩ := finish_cases step
    rcases (h.inside inside).2.2.returned h.sequential idle with ⟨empty, head, full⟩ | ⟨got, head⟩
    · rcases outcome with ⟨-, rfl⟩ | ⟨i, got, -⟩
      · exact h.refused inside idle head full
      · rw [empty] at got
        cases got
    · rcases outcome with ⟨empty, -⟩ | ⟨i, got', rfl⟩
      · rw [got] at empty
        cases empty
      · obtain rfl : taken = i := Option.some.inj (got.symm.trans got')
        exact h.registered inside idle head

theorem inv_of_reachable (reach : (machine Tid poolSize).Reachable s) : Inv poolSize s :=
  reach.induct Inv.fresh fun _ _ _ inv step => inv.step step

omit [DecidableEq Tid] in
/-- All calls for a ticker return the same state, or all return `nullptr`. -/
theorem Inv.same (h : Inv poolSize s) {r r' : Option ℕ} (mem : (ticker, r) ∈ s.returned)
    (mem' : (ticker, r') ∈ s.returned) : r = r' := by
  have answer : ∀ q, (ticker, q) ∈ s.returned → q = s.registry ticker := by
    intro q mem
    cases q with
    | none => exact (h.exhausted ticker mem).1.symm
    | some i => exact (h.found ticker i mem).symm
  rw [answer r mem, answer r' mem']

omit [DecidableEq Tid] in
/-- A state is returned for one ticker only. -/
theorem Inv.distinct (h : Inv poolSize s) {T U : Ticker} {i : ℕ} (mem : (T, some i) ∈ s.returned)
    (mem' : (U, some i) ∈ s.returned) : T = U :=
  h.injective T U i (h.found T i mem) (h.found U i mem')

end Invariant

-- Two threads miss the ticker at the same time; the second one finds what the first registered.
example : ((machine Bool 1).run [.find true "A", .find false "A", .findAgain true, .acquireStep true false,
    .acquireStep true false, .finish true, .findAgain false, .find true "B", .findAgain true,
    .finish true]).map returned = some [("B", none), ("A", some 0), ("A", some 0)] := by
  decide +kernel

end StateRegistry

end StockAnomaly.Aggregation

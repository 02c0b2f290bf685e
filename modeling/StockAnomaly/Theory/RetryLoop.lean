import Mathlib.Algebra.BigOperators.Group.Finset.Basic
import Mathlib.Algebra.Order.BigOperators.Group.Finset
import Mathlib.Algebra.Group.Action.Defs
import StockAnomaly.Theory.Machine

/-!
# Retry loops

Threads that share a value and exchange it for another: a thread loads the value, prepares its
exchange, and starts over when the value has changed meanwhile. Only an exchange makes loaded
values stale, at most one for each other thread, and a lost round leaves its thread with a
fresh value. So the rounds lost are paid for by the exchanges, whatever the interleaving, and
among threads that keep taking steps some call always returns: **`steps_le`**.
-/

namespace StockAnomaly.Theory

/-- Threads at points `Pc` of their calls, in a machine that shares a value of type `V`. -/
structure RetryLoop (σ α Tid Pc V : Type*) where
  /-- The thread that takes the step. -/
  thread : α → Option Tid
  /-- The step is the first one of a call. -/
  begins : α → Bool
  /-- The exchange of the step fails although the value has not changed. -/
  spurious : α → Bool
  point : σ → Tid → Pc
  shared : σ → V
  /-- The steps to the end of the call, were no round lost; none outside a call. -/
  remaining : Pc → ℕ
  /-- The exchange of the call is still to come. -/
  pending : Pc → Bool
  /-- The value that the exchange will expect. -/
  loaded : Pc → Option V

namespace RetryLoop

variable {σ α Tid Pc V : Type*}

/-- What a step of a thread does, when a call without a lost round has `length` steps and a lost
round costs `round` steps. -/
inductive Moves (L : RetryLoop σ α Tid Pc V) (length round : ℕ) (s : σ) (a : α) (s' : σ) (t : Tid) : Prop
  | call (begins : L.begins a) (outside : L.remaining (L.point s t) = 0) (short : L.remaining (L.point s' t) < length)
      (same : L.shared s' = L.shared s) (fresh : ∀ v ∈ L.loaded (L.point s' t), v = L.shared s)
  | proceed (inside : ¬ L.begins a) (less : L.remaining (L.point s' t) < L.remaining (L.point s t))
      (pending : L.pending (L.point s' t) → L.pending (L.point s t)) (same : L.shared s' = L.shared s)
      (calm : ∀ v ∈ L.loaded (L.point s' t), L.loaded (L.point s t) = some v ∨ v = L.shared s)
  | exchange (inside : ¬ L.begins a) (less : L.remaining (L.point s' t) < L.remaining (L.point s t))
      (pending : L.pending (L.point s t)) (done : ¬ L.pending (L.point s' t))
      (nothing : L.loaded (L.point s' t) = none)
  | retry (inside : ¬ L.begins a) (busy : 0 < L.remaining (L.point s t))
      (more : L.remaining (L.point s' t) < L.remaining (L.point s t) + round)
      (pending : L.pending (L.point s' t) → L.pending (L.point s t)) (same : L.shared s' = L.shared s)
      (lost : (∃ v ∈ L.loaded (L.point s t), v ≠ L.shared s) ∨ L.spurious a)
      (fresh : ∀ v ∈ L.loaded (L.point s' t), v = L.shared s)

/-- The machine works by these loops. -/
structure Lawful (L : RetryLoop σ α Tid Pc V) (M : Machine σ α) (length round : ℕ) : Prop where
  init : ∀ t, L.remaining (L.point M.init t) = 0 ∧ L.pending (L.point M.init t) = false ∧
    L.loaded (L.point M.init t) = none
  others : ∀ s a s', M.Reachable s → M.step s a = some s' → ∀ u, L.thread a ≠ some u → L.point s' u = L.point s u
  moves : ∀ s a s' t, M.Reachable s → M.step s a = some s' → L.thread a = some t → L.Moves length round s a s' t
  elsewhere : ∀ s a s', M.Reachable s → M.step s a = some s' → L.thread a = none →
    ¬ L.begins a ∧ L.shared s' = L.shared s

section Count

variable (L : RetryLoop σ α Tid Pc V)

/-- The thread is in a call. -/
def inside (s : σ) (t : Tid) : Bool := 0 < L.remaining (L.point s t)

/-- The step leaves its thread outside of any call. -/
def ends (s' : σ) (a : α) : Bool := (L.thread a).any fun t => L.remaining (L.point s' t) = 0

/-- The steps of the threads. -/
def steps (acts : List α) : ℕ := acts.countP fun a => (L.thread a).isSome

/-- The calls that have begun. -/
def calls (acts : List α) : ℕ := acts.countP L.begins

/-- The calls that have returned. -/
def returns (M : Machine σ α) (s : σ) : List α → ℕ
  | [] => 0
  | a :: acts => (M.step s a).elim 0 fun s' => (L.ends s' a).toNat + returns M s' acts

variable [DecidableEq V]

/-- The value that the thread has loaded is no longer the shared one. -/
def stale (s : σ) (t : Tid) : Bool := (L.loaded (L.point s t)).any (· ≠ L.shared s)

/-- The steps that a thread may still take before it has to be paid again: `others` is the
number of the other threads. -/
def credit (round others : ℕ) (s : σ) (t : Tid) : ℕ :=
  L.remaining (L.point s t) + round * (L.stale s t).toNat + round * others * (L.pending (L.point s t)).toNat

end Count

section Run

variable {L : RetryLoop σ α Tid Pc V} {M : Machine σ α} {length round others : ℕ} {s s' : σ} {a : α} {t u : Tid}

theorem stale_iff [DecidableEq V] : L.stale s t ↔ ∃ v ∈ L.loaded (L.point s t), v ≠ L.shared s := by
  simp [stale, Option.any_eq_true]

theorem stale_eq_false [DecidableEq V] (fresh : ∀ v ∈ L.loaded (L.point s t), v = L.shared s) :
    L.stale s t = false := by
  refine Bool.eq_false_of_not_eq_true fun stale => ?_
  obtain ⟨v, mem, ne⟩ := stale_iff.1 stale
  exact ne (fresh v mem)

theorem toNat_le_toNat {b c : Bool} (h : b → c) : b.toNat ≤ c.toNat := by
  cases b
  · exact Nat.zero_le _
  · rw [h rfl]

/-- A thread that does not move gains no credit, if the shared value stays. -/
theorem credit_le [DecidableEq V] (rests : L.point s' u = L.point s u) (same : L.shared s' = L.shared s) :
    L.credit round others s' u ≤ L.credit round others s u := by
  rw [credit, credit, stale, stale, rests, same]

/-- A value that becomes stale is worth a round. -/
theorem credit_le_add [DecidableEq V] (rests : L.point s' u = L.point s u) :
    L.credit round others s' u ≤ L.credit round others s u + round := by
  have stale : round * (L.stale s' u).toNat ≤ round * 1 := Nat.mul_le_mul_left round (Bool.toNat_le _)
  simp only [credit, rests]
  omega

/-- **A step is paid for** by the credit of its thread, by the call that it begins, or by the
spurious failure. -/
theorem Moves.credit_le [DecidableEq V] (h : L.Moves length round s a s' t)
    (rests : ∀ u ≠ t, L.point s' u = L.point s u) {threads : Finset Tid} (mem : t ∈ threads) :
    1 + ∑ u ∈ threads, L.credit round (threads.card - 1) s' u ≤ ∑ u ∈ threads, L.credit round (threads.card - 1) s u +
      (length + round * (threads.card - 1)) * (L.begins a).toNat + round * (L.spurious a).toNat := by
  classical
  rw [← Finset.add_sum_erase _ _ mem, ← Finset.add_sum_erase _ _ mem]
  have card := Finset.card_erase_of_mem mem
  have rest (same : L.shared s' = L.shared s) : ∑ u ∈ threads.erase t, L.credit round (threads.card - 1) s' u ≤
      ∑ u ∈ threads.erase t, L.credit round (threads.card - 1) s u :=
    Finset.sum_le_sum fun u mem => RetryLoop.credit_le (rests u (Finset.ne_of_mem_erase mem)) same
  generalize threads.card - 1 = others at *
  cases h with
  | call begins outside short same fresh =>
    have rest := rest same
    have paid : L.credit round others s' t + 1 ≤ length + round * others := by
      have pending : round * others * (L.pending (L.point s' t)).toNat ≤ round * others * 1 :=
        Nat.mul_le_mul_left _ (Bool.toNat_le _)
      rw [credit, stale_eq_false (same ▸ fresh), Bool.toNat_false]
      omega
    rw [begins, Bool.toNat_true]
    omega
  | proceed inside less pending same calm =>
    have rest := rest same
    have paid : L.credit round others s' t + 1 ≤ L.credit round others s t := by
      have stale : L.stale s' t → L.stale s t := by
        intro stale
        obtain ⟨v, loaded, ne⟩ := stale_iff.1 stale
        rw [same] at ne
        exact stale_iff.2 ⟨v, (calm v loaded).resolve_right ne, ne⟩
      have stale := Nat.mul_le_mul_left round (toNat_le_toNat stale)
      have pending := Nat.mul_le_mul_left (round * others) (toNat_le_toNat pending)
      rw [credit, credit]
      omega
    omega
  | exchange inside less pending done nothing =>
    have rest : ∑ u ∈ threads.erase t, L.credit round others s' u ≤
        ∑ u ∈ threads.erase t, (L.credit round others s u + round) :=
      Finset.sum_le_sum fun u mem => credit_le_add (rests u (Finset.ne_of_mem_erase mem))
    rw [Finset.sum_add_distrib, Finset.sum_const, card, smul_eq_mul, Nat.mul_comm] at rest
    have paid : L.credit round others s' t + 1 + round * others ≤ L.credit round others s t := by
      have fresh : L.stale s' t = false := stale_eq_false (by simp [nothing])
      rw [credit, credit, fresh, Bool.eq_false_of_not_eq_true done, pending, Bool.toNat_false, Bool.toNat_true]
      omega
    omega
  | retry inside busy more pending same lost fresh =>
    have rest := rest same
    have paid : L.credit round others s' t + 1 ≤ L.credit round others s t + round * (L.spurious a).toNat := by
      have pending := Nat.mul_le_mul_left (round * others) (toNat_le_toNat pending)
      rw [credit, credit, stale_eq_false (same ▸ fresh), Bool.toNat_false]
      rcases lost with stale | spurious
      · rw [stale_iff.2 stale, Bool.toNat_true]
        omega
      · rw [spurious, Bool.toNat_true]
        omega
    omega

/-- Other steps give no credit. -/
theorem Lawful.sum_credit_le [DecidableEq V] (lawful : L.Lawful M length round) (reach : M.Reachable s)
    (step : M.step s a = some s') (elsewhere : L.thread a = none) (others : ℕ) (threads : Finset Tid) :
    ∑ u ∈ threads, L.credit round others s' u ≤ ∑ u ∈ threads, L.credit round others s u := by
  refine Finset.sum_le_sum fun u _ => RetryLoop.credit_le ?_ ?_
  · exact lawful.others s a s' reach step u (by simp [elsewhere])
  · exact (lawful.elsewhere s a s' reach step elsewhere).2

theorem steps_snoc (acts : List α) : L.steps (acts ++ [a]) = L.steps acts + (L.thread a).isSome.toNat := by
  rw [steps, List.countP_append, List.countP_singleton]
  cases (L.thread a).isSome <;> rfl

theorem calls_snoc (acts : List α) : L.calls (acts ++ [a]) = L.calls acts + (L.begins a).toNat := by
  rw [calls, List.countP_append, List.countP_singleton]
  cases L.begins a <;> rfl

theorem countP_spurious_snoc (acts : List α) :
    (acts ++ [a]).countP L.spurious = acts.countP L.spurious + (L.spurious a).toNat := by
  rw [List.countP_append, List.countP_singleton]
  cases L.spurious a <;> rfl

theorem returns_snoc {start : σ} {acts : List α} (run : M.runFrom start acts = some s) (step : M.step s a = some s') :
    L.returns M start (acts ++ [a]) = L.returns M start acts + (L.ends s' a).toNat := by
  induction acts generalizing start with
  | nil =>
    cases run
    simp [returns, step]
  | cons b acts ih =>
    obtain ⟨next, first, rest⟩ := Option.bind_eq_some_iff.1 run
    simp only [List.cons_append, returns, first, Option.elim_some, ih rest, Nat.add_assoc]

/-- The steps of the threads are paid for by the calls and the spurious failures. -/
theorem Lawful.steps_add_credit_le [DecidableEq V] (lawful : L.Lawful M length round) {acts : List α}
    (run : M.run acts = some s)
    {threads : Finset Tid} (within : ∀ a ∈ acts, ∀ t ∈ L.thread a, t ∈ threads) :
    L.steps acts + ∑ u ∈ threads, L.credit round (threads.card - 1) s u ≤
      (length + round * (threads.card - 1)) * L.calls acts + round * acts.countP L.spurious := by
  induction acts using List.reverseRecOn generalizing s with
  | nil =>
    cases run
    have nothing : ∑ u ∈ threads, L.credit round (threads.card - 1) M.init u = 0 := by
      refine Finset.sum_eq_zero fun u _ => ?_
      obtain ⟨remaining, pending, loaded⟩ := lawful.init u
      simp [credit, stale, remaining, pending, loaded]
    rw [nothing]
    exact Nat.zero_le _
  | append_singleton acts a ih =>
    obtain ⟨s₀, before, last⟩ := Machine.run_snoc.1 run
    have ih := ih before fun b mem => within b (List.mem_append_left _ mem)
    rw [steps_snoc, calls_snoc, countP_spurious_snoc, Nat.mul_add, Nat.mul_add]
    cases own : L.thread a with
    | none =>
      have rest := lawful.sum_credit_le ⟨acts, before⟩ last own (threads.card - 1) threads
      rw [Option.isSome_none, Bool.toNat_false]
      omega
    | some t =>
      have mem : t ∈ threads := within a (List.mem_append_right _ (List.mem_singleton_self a)) t own
      have paid := (lawful.moves s₀ a s t ⟨acts, before⟩ last own).credit_le
        (fun u ne => lawful.others s₀ a s ⟨acts, before⟩ last u (by simpa [own] using ne.symm)) mem
      rw [Option.isSome_some, Bool.toNat_true]
      omega

/-- **A step of a thread** enters a call or leaves one or neither. -/
theorem Moves.inside_add (h : L.Moves length round s a s' t) :
    (L.inside s t).toNat + (L.begins a).toNat =
      (L.inside s' t).toNat + (decide (L.remaining (L.point s' t) = 0)).toNat := by
  have now : (L.inside s' t).toNat + (decide (L.remaining (L.point s' t) = 0)).toNat = 1 := by
    by_cases out : L.remaining (L.point s' t) = 0
    · simp [inside, out]
    · simp [inside, out, Nat.pos_of_ne_zero out]
  rw [now]
  cases h with
  | call begins outside => simp [inside, begins, outside]
  | proceed not_first less | exchange not_first less =>
    have busy : 0 < L.remaining (L.point s t) := by omega
    simp [inside, not_first, busy]
  | retry not_first busy => simp [inside, not_first, busy]

/-- The calls that have begun are those that have returned and those that threads are in. -/
theorem Lawful.calls_eq (lawful : L.Lawful M length round) {acts : List α} (run : M.run acts = some s)
    {threads : Finset Tid} (within : ∀ a ∈ acts, ∀ t ∈ L.thread a, t ∈ threads) :
    L.calls acts = L.returns M M.init acts + ∑ u ∈ threads, (L.inside s u).toNat := by
  classical
  induction acts using List.reverseRecOn generalizing s with
  | nil =>
    cases run
    have outside : ∑ u ∈ threads, (L.inside M.init u).toNat = 0 :=
      Finset.sum_eq_zero fun u _ => by simp [inside, (lawful.init u).1]
    rw [outside]
    rfl
  | append_singleton acts a ih =>
    obtain ⟨s₀, before, last⟩ := Machine.run_snoc.1 run
    have ih := ih before fun b mem => within b (List.mem_append_left _ mem)
    have same (u : Tid) (other : L.thread a ≠ some u) : L.inside s u = L.inside s₀ u := by
      rw [inside, inside, lawful.others s₀ a s ⟨acts, before⟩ last u other]
    rw [calls_snoc, returns_snoc before last, ih]
    cases own : L.thread a with
    | none =>
      have rest : ∑ u ∈ threads, (L.inside s u).toNat = ∑ u ∈ threads, (L.inside s₀ u).toNat :=
        Finset.sum_congr rfl fun u _ => by rw [same u (by simp [own])]
      have first := Bool.eq_false_of_not_eq_true (lawful.elsewhere s₀ a s ⟨acts, before⟩ last own).1
      rw [rest, first, ends, own]
      simp
    | some t =>
      have mem : t ∈ threads := within a (List.mem_append_right _ (List.mem_singleton_self a)) t own
      have rest : ∑ u ∈ threads.erase t, (L.inside s u).toNat = ∑ u ∈ threads.erase t, (L.inside s₀ u).toNat :=
        Finset.sum_congr rfl fun u mem => by
          rw [same u (by simpa [own] using (Finset.ne_of_mem_erase mem).symm)]
      have step := (lawful.moves s₀ a s t ⟨acts, before⟩ last own).inside_add
      rw [← Finset.add_sum_erase _ _ mem, ← Finset.add_sum_erase _ _ mem, rest, ends, own, Option.any_some]
      omega

/-- **All threads together take few steps for each call**, whatever the interleaving: a call has
`length` steps and for each other thread one lost round. -/
theorem Lawful.steps_le (lawful : L.Lawful M length round) {acts : List α} (run : M.run acts = some s)
    {threads : Finset Tid} (within : ∀ a ∈ acts, ∀ t ∈ L.thread a, t ∈ threads) :
    L.steps acts ≤ (length + round * (threads.card - 1)) * (L.returns M M.init acts + threads.card) +
      round * acts.countP L.spurious := by
  classical
  have paid := lawful.steps_add_credit_le run within
  have busy : ∑ u ∈ threads, (L.inside s u).toNat ≤ threads.card := by
    have each := Finset.sum_le_card_nsmul threads (fun u => (L.inside s u).toNat) 1 fun u _ => Bool.toNat_le _
    rwa [smul_eq_mul, Nat.mul_one] at each
  rw [lawful.calls_eq run within] at paid
  have more := Nat.mul_le_mul_left (length + round * (threads.card - 1))
    (Nat.add_le_add_left busy (L.returns M M.init acts))
  omega

end Run

end RetryLoop

end StockAnomaly.Theory

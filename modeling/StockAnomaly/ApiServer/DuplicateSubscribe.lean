import Mathlib.Data.Fintype.Basic
import Mathlib.Data.List.Count
import StockAnomaly.Theory.Machine

/-!
# Duplicate subscriptions at one time

Calls of `subscribe` with the same user and ticker, each a transaction. Between the check and
the insert of one call another one can commit its row. The catch block then ends the method, but the
exception has left `save`, whose own transactional boundary marks the transaction
rollback-only, and the commit throws: **`harmless_iff`**. The stock is in its table already.
-/

namespace StockAnomaly.ApiServer

open StockAnomaly.Theory

/-- Where a call of `subscribe` stands. -/
inductive SubscribeCall
  | absent
  /-- Before `existsByUserAndTicker`. -/
  | called
  /-- The row was not there; `save` follows. -/
  | unseen
  /-- The row is inserted, and the commit follows. -/
  | saved
  /-- The exception of `save` is caught, and the commit follows. -/
  | rollbackOnly
  | returned
  /-- With the `UnexpectedRollbackException` of the commit. -/
  | threw
deriving DecidableEq

/-- The committed rows of the table, the call whose row is inserted and not committed, and the calls. -/
structure SubscribeCalls (User T ReqId : Type) where
  rows : List (User × T)
  uncommitted : Option ReqId
  call : ReqId → SubscribeCall

inductive SubscribeAction (ReqId : Type)
  | subscribe (r : ReqId)
  /-- The call goes on to its next access to the table. -/
  | advance (r : ReqId)

namespace SubscribeCalls

variable {User T ReqId : Type} [DecidableEq ReqId]

def goto (s : SubscribeCalls User T ReqId) (r : ReqId) (call : SubscribeCall) : SubscribeCalls User T ReqId :=
  { s with call := Function.update s.call r call }

@[simp] theorem goto_rows {s : SubscribeCalls User T ReqId} {r : ReqId} {call : SubscribeCall} :
    (s.goto r call).rows = s.rows := rfl

@[simp] theorem goto_uncommitted {s : SubscribeCalls User T ReqId} {r : ReqId} {call : SubscribeCall} :
    (s.goto r call).uncommitted = s.uncommitted := rfl

@[simp] theorem goto_call {s : SubscribeCalls User T ReqId} {r r' : ReqId} {call : SubscribeCall} :
    (s.goto r call).call r' = if r' = r then call else s.call r' := Function.update_apply ..

variable [DecidableEq User] [DecidableEq T]

/-- The calls for one user and ticker. -/
def machine (table : List (User × T)) (user : User) (ticker : T) :
    Machine (SubscribeCalls User T ReqId) (SubscribeAction ReqId) where
  init := ⟨table, none, fun _ => .absent⟩
  step s
    | .subscribe r => if s.call r = .absent then some (s.goto r .called) else none
    | .advance r =>
      match s.call r with
      | .called => some (s.goto r (if s.rows.contains (user, ticker) then .returned else .unseen))
      | .unseen =>
        -- the unique index makes the insert wait for an uncommitted row
        if s.uncommitted.isSome then none
        else if s.rows.contains (user, ticker) then some (s.goto r .rollbackOnly)
        else some { s.goto r .saved with uncommitted := some r }
      | .saved => some { s.goto r .returned with rows := s.rows ++ [(user, ticker)], uncommitted := none }
      | .rollbackOnly => some (s.goto r .threw)
      | .absent | .returned | .threw => none

/-- All calls have ended, and there was one. -/
def Complete (s : SubscribeCalls User T ReqId) : Prop :=
  (∃ r, s.call r ≠ .absent) ∧ ∀ r, s.call r = .absent ∨ s.call r = .returned ∨ s.call r = .threw

/-- There is one row, and every call has returned. -/
def Harmless (user : User) (ticker : T) (s : SubscribeCalls User T ReqId) : Prop :=
  s.rows.count (user, ticker) = 1 ∧ ∀ r, s.call r = .absent ∨ s.call r = .returned

/-- No call inserts its row after another one has committed the row that its own check missed. -/
def NoViolation (user : User) (ticker : T) (s : SubscribeCalls User T ReqId) : SubscribeAction ReqId → Prop
  | .subscribe _ => True
  | .advance r => s.call r = .unseen → (user, ticker) ∉ s.rows

/-- No call is bound to throw. -/
def Sound (s : SubscribeCalls User T ReqId) : Prop := ∀ r, s.call r ≠ .rollbackOnly ∧ s.call r ≠ .threw

variable {table : List (User × T)} {user : User} {ticker : T} {s s' : SubscribeCalls User T ReqId}
  {a : SubscribeAction ReqId} {r : ReqId}

/-- What a step does. -/
inductive Step (user : User) (ticker : T) (s : SubscribeCalls User T ReqId) :
    SubscribeAction ReqId → SubscribeCalls User T ReqId → Prop
  | subscribe {r : ReqId} (here : s.call r = .absent) : Step user ticker s (.subscribe r) (s.goto r .called)
  | seen {r : ReqId} (here : s.call r = .called) (there : (user, ticker) ∈ s.rows) :
    Step user ticker s (.advance r) (s.goto r .returned)
  | unseen {r : ReqId} (here : s.call r = .called) : Step user ticker s (.advance r) (s.goto r .unseen)
  | violation {r : ReqId} (here : s.call r = .unseen) (there : (user, ticker) ∈ s.rows) :
    Step user ticker s (.advance r) (s.goto r .rollbackOnly)
  | save {r : ReqId} (here : s.call r = .unseen) (free : s.uncommitted = none) (missing : (user, ticker) ∉ s.rows) :
    Step user ticker s (.advance r) { s.goto r .saved with uncommitted := some r }
  | commit {r : ReqId} (here : s.call r = .saved) :
    Step user ticker s (.advance r)
      { s.goto r .returned with rows := s.rows ++ [(user, ticker)], uncommitted := none }
  | throw {r : ReqId} (here : s.call r = .rollbackOnly) : Step user ticker s (.advance r) (s.goto r .threw)

theorem step_cases (step : (machine table user ticker).step s a = some s') : Step user ticker s a s' := by
  cases a with
  | subscribe r =>
    obtain ⟨here, next⟩ := Option.ite_none_right_eq_some.1 step
    cases next
    exact .subscribe here
  | advance r =>
    simp only [machine] at step
    cases here : s.call r with
    | absent | returned | threw => simp [here] at step
    | called =>
      simp only [here, Option.some.injEq] at step
      subst step
      split_ifs with there
      · exact .seen here (List.contains_iff_mem.1 there)
      · exact .unseen here
    | unseen =>
      simp only [here] at step
      split_ifs at step with waits there
      · cases step
        exact .violation here (List.contains_iff_mem.1 there)
      · cases step
        exact .save here (Option.not_isSome_iff_eq_none.1 waits) (mt List.contains_iff_mem.2 there)
    | saved =>
      simp only [here, Option.some.injEq] at step
      subst step
      exact .commit here
    | rollbackOnly =>
      simp only [here, Option.some.injEq] at step
      subst step
      exact .throw here

/-- The unique index holds, one call at most has inserted a row, and calls have ended with the row there. -/
structure Inv (user : User) (ticker : T) (s : SubscribeCalls User T ReqId) : Prop where
  unique : s.rows.count (user, ticker) ≤ 1
  holder : ∀ r, s.call r = .saved → s.uncommitted = some r ∧ (user, ticker) ∉ s.rows
  ended : ∀ r, s.call r = .returned ∨ s.call r = .rollbackOnly ∨ s.call r = .threw → (user, ticker) ∈ s.rows

/-- A call goes on without writing; if it has ended, the row is there. -/
theorem Inv.goto (inv : Inv user ticker s) (r : ReqId) {call : SubscribeCall} (not_saved : call ≠ .saved)
    (ended : call = .returned ∨ call = .rollbackOnly ∨ call = .threw → (user, ticker) ∈ s.rows) :
    Inv user ticker (s.goto r call) := by
  refine ⟨inv.unique, fun r' saved => ?_, fun r' past => ?_⟩
  · rw [goto_call] at saved
    split_ifs at saved
    · exact absurd saved not_saved
    · exact inv.holder r' saved
  · rw [goto_call] at past
    split_ifs at past
    · exact ended past
    · exact inv.ended r' past

theorem Inv.step (inv : Inv user ticker s) (step : Step user ticker s a s') : Inv user ticker s' := by
  cases step with
  | subscribe here | unseen here => exact inv.goto _ nofun (by simp)
  | seen here there | violation here there => exact inv.goto _ nofun fun _ => there
  | throw here => exact inv.goto _ nofun fun _ => inv.ended _ (.inr (.inl here))
  | @save r here free missing =>
    refine ⟨inv.unique, fun r' saved => ?_, fun r' past => ?_⟩
    · simp only [goto_call] at saved
      split_ifs at saved with same
      · rw [same]
        exact ⟨rfl, missing⟩
      · rw [(inv.holder r' saved).1] at free
        cases free
    · simp only [goto_call] at past
      split_ifs at past
      · simp at past
      · exact inv.ended r' past
  | @commit r here =>
    obtain ⟨own, missing⟩ := inv.holder r here
    refine ⟨?_, fun r' saved => ?_, fun r' _ => by simp⟩
    · rw [List.count_append, List.count_eq_zero_of_not_mem missing, List.count_singleton_self]
    · simp only [goto_call] at saved
      split_ifs at saved with same
      rw [(inv.holder r' saved).1] at own
      exact absurd (Option.some.inj own) same

omit [DecidableEq User] [DecidableEq T] in
/-- A call fails exactly if its insert meets a committed row. -/
theorem Sound.step (sound : s.Sound) (step : Step user ticker s a s') : s'.Sound ↔ NoViolation user ticker s a := by
  have moved {r : ReqId} {call : SubscribeCall} (fine : call ≠ .rollbackOnly ∧ call ≠ .threw) :
      (s.goto r call).Sound := by
    intro r'
    rw [goto_call]
    split_ifs
    · exact fine
    · exact sound r'
  cases step with
  | subscribe here => exact iff_of_true (moved ⟨nofun, nofun⟩) trivial
  | seen here | unseen here | commit here =>
    refine iff_of_true (moved ⟨nofun, nofun⟩) fun other => ?_
    rw [here] at other
    cases other
  | save here free missing => exact iff_of_true (moved ⟨nofun, nofun⟩) fun _ => missing
  | @violation r here there =>
    refine iff_of_false (fun bad => ?_) fun none_seen => none_seen here there
    exact (bad r).1 (by rw [goto_call, if_pos rfl])
  | @throw r here => exact absurd here (sound r).1

omit [DecidableEq User] [DecidableEq T] in
/-- A call that has failed goes on to throw, or stays where it is. -/
theorem Sound.of_step (step : Step user ticker s a s') (sound : s'.Sound) : s.Sound := by
  intro r
  have now := sound r
  cases step with
  | @throw r₀ here =>
    have thrown := (sound r₀).2
    rw [goto_call, if_pos rfl] at thrown
    exact absurd rfl thrown
  | subscribe here | seen here | unseen here | violation here | save here | commit here =>
    simp only [goto_call] at now
    split_ifs at now with same
    · rw [same, here]
      exact ⟨nofun, nofun⟩
    · exact now

theorem Inv.start (unique : table.Nodup) : Inv user ticker (machine table user ticker : Machine
    (SubscribeCalls User T ReqId) _).init where
  unique := List.nodup_iff_count_le_one.1 unique _
  holder := nofun
  ended := nofun

theorem Sound.start : (machine table user ticker : Machine (SubscribeCalls User T ReqId) _).init.Sound :=
  fun _ => ⟨nofun, nofun⟩

omit [DecidableEq ReqId] in
/-- In the end there is one row in any case. -/
theorem Inv.harmless_iff_sound (inv : Inv user ticker s) (complete : s.Complete) :
    Harmless user ticker s ↔ s.Sound := by
  obtain ⟨⟨r, called⟩, ends⟩ := complete
  constructor
  · rintro ⟨-, returned⟩ r'
    obtain here | here := returned r'
    · simp [here]
    · simp [here]
  · intro sound
    have there := inv.ended r (((ends r).resolve_left called).imp_right .inr)
    refine ⟨le_antisymm inv.unique (List.count_pos_iff.2 there), fun r' => ?_⟩
    exact (ends r').imp_right fun ended => ended.resolve_right (sound r').2

/-- **Duplicate calls are harmless exactly if none of them inserts its row after another one has
committed the row that its own check missed.** -/
theorem harmless_iff (unique : table.Nodup) (user : User) (ticker : T) (acts : List (SubscribeAction ReqId))
    (s : SubscribeCalls User T ReqId) (run : (machine table user ticker).run acts = some s) (complete : s.Complete) :
    Harmless user ticker s ↔ (machine table user ticker).Along (NoViolation user ticker)
      (machine table user ticker).init acts := by
  have inv : Inv user ticker s := Machine.Reachable.induct (Inv.start unique)
    (fun _ _ _ inv step => inv.step (step_cases step)) ⟨acts, run⟩
  rw [inv.harmless_iff_sound complete]
  refine Machine.iff_along (P := Sound) Sound.start ?_ ?_ acts s run
  · exact fun s a s' step => Sound.of_step (step_cases step)
  · exact fun s a s' _ sound step => sound.step (step_cases step)

instance (s : SubscribeCalls User T Bool) : Decidable s.Complete := inferInstanceAs (Decidable (_ ∧ _))

instance (s : SubscribeCalls User T Bool) : Decidable (Harmless user ticker s) :=
  inferInstanceAs (Decidable (_ ∧ _))

instance (s : SubscribeCalls User T ReqId) : (a : SubscribeAction ReqId) → Decidable (NoViolation user ticker s a)
  | .subscribe _ => inferInstanceAs (Decidable True)
  | .advance r => decidable_of_iff (s.call r = .unseen → ¬ s.rows.contains (user, ticker) = true)
      (imp_congr_right fun _ => not_congr List.contains_iff_mem)

/-- The calls of two requests. -/
abbrev twoRequests : Machine (SubscribeCalls String String Bool) (SubscribeAction Bool) :=
  machine [] "a@example.com" "005930"

/-- The second call comes while the row of the first one is not committed, and checks after the commit. -/
def waiting : List (SubscribeAction Bool) :=
  [.subscribe true, .advance true, .advance true, .subscribe false, .advance true, .advance false]

theorem harmless_iff_waiting : ∃ s, twoRequests.run waiting = some s ∧ Harmless "a@example.com" "005930" s := by
  obtain ⟨s, run, complete⟩ := Machine.exists_of_any (M := twoRequests) waiting
    (fun s => decide s.Complete) (by decide)
  refine ⟨s, run, (harmless_iff List.nodup_nil _ _ _ s run (of_decide_eq_true complete)).2 ?_⟩
  exact Machine.along_of_check (p := fun s a => decide (NoViolation "a@example.com" "005930" s a))
    (fun _ _ => of_decide_eq_true) (by decide)

/-- Both calls check, and one has committed its row when the other inserts: the commit throws. -/
theorem concurrent_call_throws :
    ¬ ∀ (acts : List (SubscribeAction Bool)) (s : SubscribeCalls String String Bool),
      twoRequests.run acts = some s → s.Complete → Harmless "a@example.com" "005930" s := by
  intro claim
  obtain ⟨s, run, threw⟩ := Machine.exists_of_any (M := twoRequests)
    [.subscribe true, .subscribe false, .advance true, .advance false, .advance true, .advance true,
      .advance false, .advance false]
    (fun s => decide (s.Complete ∧ ¬ Harmless "a@example.com" "005930" s)) (by decide)
  obtain ⟨complete, harm⟩ := of_decide_eq_true threw
  exact harm (claim _ s run complete)

end SubscribeCalls

end StockAnomaly.ApiServer

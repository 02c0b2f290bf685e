import StockAnomaly.ApiServer.Subscriptions

/-!
# Unsubscribing as a transaction

`subscribe` and `unsubscribe` change the table in a transaction, which an exception rolls
back, the Redis entry of the user at once, and the KIS session of the user's app key last.
`performSubscribe` looks the session up inside its `try`; `performUnsubscribe` does it first
of all, and a user without keys ends there: **`unsubscribed_iff`**.
-/

namespace StockAnomaly.ApiServer

open StockAnomaly.Theory

inductive RuntimeException
  | nullPointer
deriving DecidableEq

/-- What a call of the KIS client meets: the approval key is issued, a session can be opened,
the message is sent. -/
structure KisAnswers where
  approved : Bool
  connected : Bool
  sent : Bool

/-- The service with the Redis entries `user:subscriptions:<id>`. -/
structure CachedSubscriptions (User T : Type) extends SubscriptionService User T where
  cache : User → Option String

namespace CachedSubscriptions

variable {User T : Type} [DecidableEq User] [DecidableEq T]

/-- The outcome of a call and what it leaves behind. -/
abbrev Outcome (User T : Type) := Except RuntimeException Unit × CachedSubscriptions User T

/-- A session after `performSubscribe`, whose exceptions are all caught. -/
def performSubscribe (answers : KisAnswers) (session : KisSessions T) (ticker : T) : KisSessions T :=
  if !answers.approved then session.want [ticker]
  else if session.active.isNone && !answers.connected then session.want [ticker]
  else if answers.sent then session.subscribed [ticker]
  else if session.active.isNone then (session.want [ticker]).reconnect
  else session.want [ticker]

/-- The sessions after `performUnsubscribe`. -/
def performUnsubscribe (answers : KisAnswers) (client : AppKey → KisSessions T) (appKey : Option AppKey)
    (ticker : T) : Except RuntimeException (AppKey → KisSessions T) :=
  match appKey with
  -- `sessions.get(null)` of the `ConcurrentHashMap`
  | none => .error .nullPointer
  | some appKey =>
    .ok (Function.update client appKey
      (if answers.approved && answers.sent then (client appKey).unsubscribed [ticker]
      else (client appKey).forget [ticker]))

def evict (s : CachedSubscriptions User T) (user : User) : CachedSubscriptions User T :=
  { s with cache := Function.update s.cache user none }

def subscribe (answers : KisAnswers) (s : CachedSubscriptions User T) (user : User) (ticker : T) : Outcome User T :=
  if s.subscriptions.contains (user, ticker) then (.ok (), s)
  else
    let saved := { s with subscriptions := s.subscriptions ++ [(user, ticker)] }
    let evicted := saved.evict user
    let registered := { evicted with toSubscriptionService := evicted.registerAppKey user }
    match s.kisApiKey user with
    | none => (.ok (), registered)
    | some appKey => (.ok (), { registered with
        client := Function.update registered.client appKey
          (performSubscribe answers (registered.client appKey) ticker) })

def unsubscribe (answers : KisAnswers) (s : CachedSubscriptions User T) (user : User) (ticker : T) :
    Outcome User T :=
  let deleted := { s with subscriptions := s.subscriptions.filter (· ≠ (user, ticker)) }
  let evicted := deleted.evict user
  match performUnsubscribe answers evicted.client (s.kisApiKey user) ticker with
  | .ok client => (.ok (), { evicted with client })
  -- the exception leaves the method and rolls the transaction back; Redis has no part in it
  | .error e => (.error e, { evicted with subscriptions := s.subscriptions })

/-- The call returns normally, the row is gone and no other one, and the entry is absent. -/
structure Unsubscribed (s : CachedSubscriptions User T) (user : User) (ticker : T) (after : Outcome User T) :
    Prop where
  returns : after.1 = .ok ()
  rows : after.2.subscriptions = s.subscriptions.filter (· ≠ (user, ticker))
  uncached : after.2.cache user = none

/-- After a subscription that was not there, unsubscribing restores the rows. -/
def Restores (answers : KisAnswers) (s : CachedSubscriptions User T) (user : User) (ticker : T) : Prop :=
  (user, ticker) ∉ s.subscriptions → ∀ before : KisAnswers,
    ((s.subscribe before user ticker).2.unsubscribe answers user ticker).2.subscriptions = s.subscriptions

section Calls

variable {s : CachedSubscriptions User T} {user : User} {ticker : T} {answers : KisAnswers}

theorem subscribe_returns : (s.subscribe answers user ticker).1 = .ok () := by
  unfold subscribe
  split_ifs
  · rfl
  · cases s.kisApiKey user <;> rfl

theorem subscribe_kisApiKey : (s.subscribe answers user ticker).2.kisApiKey = s.kisApiKey := by
  unfold subscribe
  split_ifs
  · rfl
  · cases s.kisApiKey user <;> simp [evict]

theorem subscribe_subscriptions (new : (user, ticker) ∉ s.subscriptions) :
    (s.subscribe answers user ticker).2.subscriptions = s.subscriptions ++ [(user, ticker)] := by
  rw [subscribe, if_neg (mt List.contains_iff_mem.1 new)]
  cases s.kisApiKey user <;> simp [evict]

theorem unsubscribe_of_key {appKey : AppKey} (own : s.kisApiKey user = some appKey) :
    Unsubscribed s user ticker (s.unsubscribe answers user ticker) := by
  unfold unsubscribe
  rw [own]
  exact ⟨rfl, rfl, Function.update_self ..⟩

theorem unsubscribe_of_no_key (none_set : s.kisApiKey user = none) :
    s.unsubscribe answers user ticker = (.error .nullPointer, s.evict user) := by
  unfold unsubscribe
  rw [none_set]
  rfl

/-- What is appended and was not there is filtered out again. -/
theorem restores_of_key {appKey : AppKey} (own : s.kisApiKey user = some appKey) :
    s.Restores answers user ticker := by
  intro new before
  have own_after : (s.subscribe before user ticker).2.kisApiKey user = some appKey := by
    rw [subscribe_kisApiKey]
    exact own
  rw [(unsubscribe_of_key own_after).rows, subscribe_subscriptions new, List.filter_append]
  have kept : s.subscriptions.filter (· ≠ (user, ticker)) = s.subscriptions := by
    apply List.filter_eq_self.2
    intro row mem
    apply decide_eq_true
    rintro rfl
    exact new mem
  rw [kept]
  simp

/-- With an approval key and a session, the calls are those of the service without a cache. -/
theorem subscribe_toSubscriptionService :
    (s.subscribe ⟨true, true, true⟩ user ticker).2.toSubscriptionService =
      s.toSubscriptionService.subscribe user ticker := by
  unfold subscribe SubscriptionService.subscribe SubscriptionService.stream
  simp only [List.contains_iff_mem]
  split_ifs
  · rfl
  · cases own : s.kisApiKey user <;> simp [evict, own, performSubscribe]

theorem unsubscribe_toSubscriptionService :
    (s.unsubscribe ⟨true, true, true⟩ user ticker).2.toSubscriptionService =
      s.toSubscriptionService.unsubscribe user ticker := by
  unfold unsubscribe SubscriptionService.unsubscribe
  cases own : s.kisApiKey user <;> rfl

end Calls

/-- **Unsubscribing works for the users with keys**, in every state and whatever KIS answers. -/
theorem unsubscribed_iff (answers : KisAnswers) (s : CachedSubscriptions User T) (user : User) (ticker : T) :
    (Unsubscribed s user ticker (s.unsubscribe answers user ticker) ∧ s.Restores answers user ticker) ↔
      s.kisApiKey user ≠ none := by
  cases own : s.kisApiKey user with
  | none =>
    refine iff_of_false ?_ (fun has_key => has_key rfl)
    rintro ⟨clean, -⟩
    have returns := clean.returns
    rw [unsubscribe_of_no_key own] at returns
    cases returns
  | some appKey => exact iff_of_true ⟨unsubscribe_of_key own, restores_of_key own⟩ nofun

/-- Nobody has keys or subscriptions. -/
def keyless : CachedSubscriptions String String where
  toSubscriptionService := SubscriptionService.fresh [] fun _ => none
  cache _ := none

/-- A user who signed up without keys subscribes and cannot unsubscribe. -/
theorem stuck_without_keys :
    ¬ ∀ (answers : KisAnswers) (s : CachedSubscriptions String String) (user ticker : String),
      Unsubscribed s user ticker (s.unsubscribe answers user ticker) ∧ s.Restores answers user ticker := by
  intro claim
  let answers : KisAnswers := ⟨false, false, false⟩
  let subscribed := (keyless.subscribe answers "a@example.com" "005930").2
  have row : ("a@example.com", "005930") ∈ subscribed.subscriptions := by decide +kernel
  have rows := (claim answers subscribed "a@example.com" "005930").1.rows
  have kept : (subscribed.unsubscribe answers "a@example.com" "005930").2.subscriptions =
      subscribed.subscriptions := by decide +kernel
  rw [← kept, rows] at row
  simp at row

end CachedSubscriptions

end StockAnomaly.ApiServer

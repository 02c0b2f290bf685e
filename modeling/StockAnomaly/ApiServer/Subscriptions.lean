import Mathlib.Data.List.Dedup
import StockAnomaly.ApiServer.KisCalls
import StockAnomaly.ApiServer.KisMessages

/-!
# `SubscriptionService`: users, app keys and streams

The table of subscriptions belongs to users, a KIS session to an app key, and several users
may have one key. Calls are taken as completed and accepted by KIS. Two relations have to
survive every call: the stream of a key is what its users hold (**`mirrored_iff`**), and the
registry `appKeyToUsers` names only users of the key (**`routed_iff`**).
-/

namespace StockAnomaly.ApiServer

open StockAnomaly.Theory

/-- A user stands for the email, which is unique. -/
structure SubscriptionService (User T : Type) where
  /-- The table `subscriptions`. -/
  subscriptions : List (User × T)
  kisApiKey : User → Option AppKey
  appKeyToUsers : AppKey → List User
  client : AppKey → KisSessions T

namespace SubscriptionService

variable {User T : Type} [DecidableEq User] [DecidableEq T]

/-- The service before `initSubscriptions`. -/
def fresh (subscriptions : List (User × T)) (kisApiKey : User → Option AppKey) : SubscriptionService User T where
  subscriptions := subscriptions
  kisApiKey := kisApiKey
  appKeyToUsers _ := []
  client _ := KisSessions.start

def registerAppKey (s : SubscriptionService User T) (user : User) : SubscriptionService User T :=
  match s.kisApiKey user with
  | none => s
  | some appKey =>
    { s with appKeyToUsers := Function.update s.appKeyToUsers appKey (s.appKeyToUsers appKey ∪ [user]) }

/-- `kisWebSocketClient.subscribe` with the keys of the user; without keys it does nothing. -/
def stream (s : SubscriptionService User T) (user : User) (tickers : List T) : SubscriptionService User T :=
  match s.kisApiKey user with
  | none => s
  | some appKey =>
    { s with client := Function.update s.client appKey ((s.client appKey).subscribed tickers) }

def subscribe (s : SubscriptionService User T) (user : User) (ticker : T) : SubscriptionService User T :=
  if (user, ticker) ∈ s.subscriptions then s
  else ({ s with subscriptions := s.subscriptions ++ [(user, ticker)] }.registerAppKey user).stream user [ticker]

def unsubscribe (s : SubscriptionService User T) (user : User) (ticker : T) : SubscriptionService User T :=
  match s.kisApiKey user with
  -- `sessions.get(null)` throws, and the transaction is rolled back
  | none => s
  | some appKey =>
    { s with
      subscriptions := s.subscriptions.filter (· ≠ (user, ticker))
      client := Function.update s.client appKey ((s.client appKey).unsubscribed [ticker]) }

def tickersOf (s : SubscriptionService User T) (user : User) : List T :=
  (s.subscriptions.filter (·.1 = user)).map Prod.snd

/-- `order` is the order in which the map of the users' tickers is traversed. -/
def initSubscriptions (s : SubscriptionService User T) (order : List User) : SubscriptionService User T :=
  order.foldl (fun s user => (s.registerAppKey user).stream user (s.tickersOf user)) s

/-- `UserService.updateKisKeys`; keys that do not validate change nothing. -/
def updateKisKeys (s : SubscriptionService User T) (user : User) (appKey : AppKey) (validated : Bool) :
    SubscriptionService User T :=
  if validated then { s with kisApiKey := Function.update s.kisApiKey user (some appKey) } else s

def getUsersByAppKey (s : SubscriptionService User T) (appKey : AppKey) : List User := s.appKeyToUsers appKey

/-- The users to whom `KafkaStockTickConsumer.consume` sends an owned tick. -/
def consume (s : SubscriptionService User T) (tick : StockTick) : List User :=
  match tick.ownerEmail with
  | none => []
  | some appKey => s.getUsersByAppKey appKey

end SubscriptionService

inductive SubscriptionCall (User T : Type)
  | subscribe (user : User) (ticker : T)
  | unsubscribe (user : User) (ticker : T)

inductive ServiceAction (User T : Type)
  | initSubscriptions (order : List User)
  | call (call : SubscriptionCall User T)
  | updateKisKeys (user : User) (appKey : AppKey) (validated : Bool)

namespace SubscriptionService

variable {User T : Type} [DecidableEq User] [DecidableEq T]

def call (s : SubscriptionService User T) : SubscriptionCall User T → SubscriptionService User T
  | .subscribe user ticker => s.subscribe user ticker
  | .unsubscribe user ticker => s.unsubscribe user ticker

/-- Completed calls, from a given state on. -/
def callMachine (s₀ : SubscriptionService User T) : Machine (SubscriptionService User T) (SubscriptionCall User T) where
  init := s₀
  step s a := some (s.call a)

def step (s : SubscriptionService User T) : ServiceAction User T → Option (SubscriptionService User T)
  | .initSubscriptions order =>
    if order.Perm (s.subscriptions.map Prod.fst).dedup then some (s.initSubscriptions order) else none
  | .call call => some (s.call call)
  | .updateKisKeys user appKey validated => some (s.updateKisKeys user appKey validated)

def machine (subscriptions : List (User × T)) (kisApiKey : User → Option AppKey) :
    Machine (SubscriptionService User T) (ServiceAction User T) where
  init := fresh subscriptions kisApiKey
  step := step

/-- Upstream mirrors the database: KIS streams to a key what one of its users holds. -/
def Mirrored (s : SubscriptionService User T) : Prop :=
  ∀ appKey ticker, (s.client appKey).Streams ticker ↔
    ∃ user, s.kisApiKey user = some appKey ∧ (user, ticker) ∈ s.subscriptions

/-- A user with keys gives up a ticker only when no other user of the key holds it. -/
def LastHolder (s : SubscriptionService User T) : SubscriptionCall User T → Prop
  | .unsubscribe user ticker => s.kisApiKey user ≠ none →
      ∀ row ∈ s.subscriptions, row.2 = ticker → s.kisApiKey row.1 = s.kisApiKey user → row.1 = user
  | .subscribe .. => True

instance (s : SubscriptionService User T) : (call : SubscriptionCall User T) → Decidable (s.LastHolder call)
  | .unsubscribe user ticker => inferInstanceAs (Decidable (s.kisApiKey user ≠ none →
      ∀ row ∈ s.subscriptions, row.2 = ticker → s.kisApiKey row.1 = s.kisApiKey user → row.1 = user))
  | .subscribe .. => inferInstanceAs (Decidable True)

/-- Owned ticks go to users whose current key is the owner. -/
def Routed (s : SubscriptionService User T) : Prop :=
  ∀ tick appKey, tick.ownerEmail = some appKey → ∀ email ∈ s.consume tick, s.kisApiKey email = some appKey

/-- Nobody changes keys who is registered under another one. -/
def KeepsRegistered (s : SubscriptionService User T) : ServiceAction User T → Prop
  | .updateKisKeys user appKey validated => validated = true →
      ∀ registered, user ∈ s.appKeyToUsers registered → registered = appKey
  | _ => True

section Mirror

variable {s : SubscriptionService User T}

omit [DecidableEq T] in
@[simp] theorem registerAppKey_fields (s : SubscriptionService User T) (user : User) :
    (s.registerAppKey user).subscriptions = s.subscriptions ∧ (s.registerAppKey user).kisApiKey = s.kisApiKey ∧
      (s.registerAppKey user).client = s.client := by
  unfold registerAppKey
  split <;> exact ⟨rfl, rfl, rfl⟩

omit [DecidableEq User] in
@[simp] theorem stream_fields (s : SubscriptionService User T) (user : User) (tickers : List T) :
    (s.stream user tickers).subscriptions = s.subscriptions ∧ (s.stream user tickers).kisApiKey = s.kisApiKey ∧
      (s.stream user tickers).appKeyToUsers = s.appKeyToUsers := by
  unfold stream
  split <;> exact ⟨rfl, rfl, rfl⟩

omit [DecidableEq User] in
/-- The tickers are added to the stream of the user's key. -/
theorem stream_streams (s : SubscriptionService User T) (user : User) (tickers : List T) (appKey : AppKey)
    (ticker : T) : ((s.stream user tickers).client appKey).Streams ticker ↔
      (s.client appKey).Streams ticker ∨ (s.kisApiKey user = some appKey ∧ ticker ∈ tickers) := by
  unfold stream
  cases own : s.kisApiKey user with
  | none => simp
  | some key =>
    by_cases same : appKey = key
    · subst same
      simp [KisSessions.streams_subscribed]
    · simp [Function.update_of_ne same, Ne.symm same]

theorem Mirrored.subscribe (h : s.Mirrored) (user : User) (ticker : T) : (s.subscribe user ticker).Mirrored := by
  unfold SubscriptionService.subscribe
  split
  · exact h
  · intro appKey t
    rw [stream_streams]
    simp only [stream_fields, registerAppKey_fields]
    rw [h appKey t]
    constructor
    · rintro (⟨holder, own, held⟩ | ⟨own, new⟩)
      · exact ⟨holder, own, List.mem_append_left _ held⟩
      · rw [List.mem_singleton.1 new]
        exact ⟨user, own, List.mem_append_right _ (List.mem_singleton_self _)⟩
    · rintro ⟨holder, own, held⟩
      rcases List.mem_append.1 held with old | new
      · exact .inl ⟨holder, own, old⟩
      · cases List.mem_singleton.1 new
        exact .inr ⟨own, List.mem_singleton_self _⟩

/-- Giving up a ticker keeps the mirror exactly if no other user of the key holds it. -/
theorem Mirrored.unsubscribe_iff (h : s.Mirrored) (user : User) (ticker : T) :
    (s.unsubscribe user ticker).Mirrored ↔ s.LastHolder (.unsubscribe user ticker) := by
  unfold SubscriptionService.unsubscribe
  cases own : s.kisApiKey user with
  | none => exact iff_of_true h (by simp [LastHolder, own])
  | some appKey =>
    constructor
    · rintro mirrored - ⟨holder, t⟩ held rfl shared
      by_contra other
      have kept : (holder, t) ∈ s.subscriptions.filter (· ≠ (user, t)) := by
        refine List.mem_filter.2 ⟨held, decide_eq_true ?_⟩
        rintro ⟨⟩
        exact other rfl
      have streamed := (mirrored appKey t).2 ⟨holder, shared.trans own, kept⟩
      simp only [Function.update_self] at streamed
      exact ((KisSessions.streams_unsubscribed _ _ _).1 streamed).2 (List.mem_singleton_self _)
    · intro last k t
      by_cases mine : k = appKey
      · subst mine
        simp only [Function.update_self]
        rw [KisSessions.streams_unsubscribed, h k t]
        constructor
        · rintro ⟨⟨holder, key, held⟩, other⟩
          refine ⟨holder, key, List.mem_filter.2 ⟨held, decide_eq_true ?_⟩⟩
          rintro ⟨⟩
          exact other (List.mem_singleton_self _)
        · rintro ⟨holder, key, held⟩
          obtain ⟨before, other⟩ := List.mem_filter.1 held
          refine ⟨⟨holder, key, before⟩, ?_⟩
          intro same
          obtain rfl := List.mem_singleton.1 same
          have only : holder = user := last (by rw [own]; nofun) (holder, t) before rfl (key.trans own.symm)
          subst only
          exact of_decide_eq_true other rfl
      · simp only [Function.update_of_ne mine]
        rw [h k t]
        constructor
        · rintro ⟨holder, key, held⟩
          refine ⟨holder, key, List.mem_filter.2 ⟨held, decide_eq_true ?_⟩⟩
          rintro ⟨⟩
          exact mine (Option.some.inj (key.symm.trans own))
        · rintro ⟨holder, key, held⟩
          exact ⟨holder, key, (List.mem_filter.1 held).1⟩

omit [DecidableEq T] in
theorem mem_tickersOf {user : User} {ticker : T} : ticker ∈ s.tickersOf user ↔ (user, ticker) ∈ s.subscriptions := by
  simp [tickersOf]

/-- `initSubscriptions` adds what the listed users hold. -/
theorem initSubscriptions_streams (s : SubscriptionService User T) (order : List User) :
    (s.initSubscriptions order).subscriptions = s.subscriptions ∧
      (s.initSubscriptions order).kisApiKey = s.kisApiKey ∧
      ∀ appKey ticker, ((s.initSubscriptions order).client appKey).Streams ticker ↔
        (s.client appKey).Streams ticker ∨
          ∃ user ∈ order, s.kisApiKey user = some appKey ∧ (user, ticker) ∈ s.subscriptions := by
  induction order generalizing s with
  | nil => simp [initSubscriptions]
  | cons user order ih =>
    obtain ⟨subscriptions, keys, streams⟩ := ih ((s.registerAppKey user).stream user (s.tickersOf user))
    rw [initSubscriptions, List.foldl_cons]
    refine ⟨subscriptions.trans (by simp), keys.trans (by simp), ?_⟩
    intro appKey ticker
    rw [← initSubscriptions, streams, stream_streams, mem_tickersOf]
    simp [or_assoc]

/-- The service after a start with the given table. -/
def started (subscriptions : List (User × T)) (kisApiKey : User → Option AppKey) (order : List User) :
    SubscriptionService User T :=
  (fresh subscriptions kisApiKey).initSubscriptions order

theorem started_mirrored {subscriptions : List (User × T)} {order : List User}
    (listed : ∀ row ∈ subscriptions, row.1 ∈ order) (kisApiKey : User → Option AppKey) :
    (started subscriptions kisApiKey order).Mirrored := by
  intro appKey ticker
  obtain ⟨table, keys, streams⟩ := initSubscriptions_streams (fresh subscriptions kisApiKey) order
  have nothing : ¬ ((fresh subscriptions kisApiKey).client appKey).Streams ticker :=
    KisSessions.not_streams rfl ticker
  rw [started, streams, table, keys]
  constructor
  · rintro (before | ⟨user, -, own, held⟩)
    · exact absurd before nothing
    · exact ⟨user, own, held⟩
  · rintro ⟨user, own, held⟩
    exact .inr ⟨user, listed (user, ticker) held, own, held⟩

/-- Every sequence of calls is a run. -/
theorem callMachine_run (s₀ s : SubscriptionService User T) (calls : List (SubscriptionCall User T)) :
    (callMachine s₀).runFrom s calls = some (calls.foldl call s) := by
  induction calls generalizing s with
  | nil => rfl
  | cons c calls ih =>
    rw [Machine.runFrom_cons rfl]
    exact ih (s.call c)

theorem mirrored_call (h : s.Mirrored) (c : SubscriptionCall User T) : (s.call c).Mirrored ↔ s.LastHolder c := by
  cases c with
  | subscribe user ticker => exact iff_of_true (h.subscribe user ticker) trivial
  | unsubscribe user ticker => exact h.unsubscribe_iff user ticker

/-- **Upstream mirrors the database** in every state of a run of completed calls if and only
if no user with keys ever gives up a ticker that another user of the same key holds. -/
theorem mirrored_iff {subscriptions : List (User × T)} {order : List User}
    (listed : ∀ row ∈ subscriptions, row.1 ∈ order) (kisApiKey : User → Option AppKey)
    (calls : List (SubscriptionCall User T)) :
    (callMachine (started subscriptions kisApiKey order)).Always Mirrored calls ↔
      (callMachine (started subscriptions kisApiKey order)).Along LastHolder
        (started subscriptions kisApiKey order) calls := by
  refine Machine.always_iff_along (M := callMachine (started subscriptions kisApiKey order)) (P := Mirrored)
    (Q := LastHolder) (started_mirrored listed kisApiKey) ?_ calls _ (callMachine_run _ _ calls)
  rintro s c s' - mirrored ⟨⟩
  exact mirrored_call mirrored c

/-- Two users share a key; the one who gives the ticker up last ends its stream. -/
theorem mirrored_iff_two : (callMachine (started [("a@example.com", "005930")] (fun _ => some "PSa")
      ["a@example.com"])).Always Mirrored
    [.subscribe "b@example.com" "005930", .subscribe "b@example.com" "000660",
      .unsubscribe "b@example.com" "000660"] :=
  (mirrored_iff (by decide) (fun _ => some "PSa") _).2 (Machine.along_of_check
    (p := fun s c => decide (s.LastHolder c)) (fun _ _ h => of_decide_eq_true h) (by decide +kernel))

/-- Two users share a key and a ticker; one gives it up, and the other one gets no more ticks. -/
theorem shared_ticker_torn_down :
    ¬ ∀ (kisApiKey : String → Option AppKey) (calls : List (SubscriptionCall String String)),
      (callMachine (started [] kisApiKey [])).Always Mirrored calls := by
  intro claim
  let calls : List (SubscriptionCall String String) :=
    [.subscribe "a@example.com" "005930", .subscribe "b@example.com" "005930", .unsubscribe "b@example.com" "005930"]
  have mirrored := claim (fun _ => some "PSa") calls calls _ List.prefix_rfl (callMachine_run _ _ calls)
  obtain ⟨session, active, streamed⟩ := (mirrored "PSa" "005930").2
    ⟨"a@example.com", rfl, by decide +kernel⟩
  have session_zero : some 0 = some session := (by decide +kernel :
    ((calls.foldl call (started [] (fun _ => some "PSa") [])).client "PSa").active = some 0).symm.trans active
  cases session_zero
  revert streamed
  decide +kernel

end Mirror

section Routing

variable {s : SubscriptionService User T}

omit [DecidableEq User] [DecidableEq T] in
theorem routed_iff_registered :
    s.Routed ↔ ∀ appKey, ∀ email ∈ s.appKeyToUsers appKey, s.kisApiKey email = some appKey := by
  constructor
  · intro routed appKey
    exact routed ⟨"", "", "", 0, some appKey, "", ""⟩ appKey rfl
  · intro registered tick appKey owner email mem
    simp only [consume, owner] at mem
    exact registered appKey email mem

omit [DecidableEq T] in
theorem Routed.registerAppKey (h : s.Routed) (user : User) : (s.registerAppKey user).Routed := by
  rw [routed_iff_registered] at h ⊢
  unfold SubscriptionService.registerAppKey
  cases own : s.kisApiKey user with
  | none => exact h
  | some key =>
    intro appKey email mem
    by_cases same : appKey = key
    · subst same
      simp only [Function.update_self, List.mem_union_iff, List.mem_singleton] at mem
      rcases mem with old | rfl
      · exact h appKey email old
      · exact own
    · simp only [Function.update_of_ne same] at mem
      exact h appKey email mem

omit [DecidableEq User] [DecidableEq T] in
/-- The routing depends on the registry and the keys only. -/
theorem Routed.congr {s' : SubscriptionService User T} (h : s.Routed) (keys : s'.kisApiKey = s.kisApiKey)
    (registry : s'.appKeyToUsers = s.appKeyToUsers) : s'.Routed := by
  rw [routed_iff_registered] at h ⊢
  rw [keys, registry]
  exact h

omit [DecidableEq User] in
theorem Routed.stream (h : s.Routed) (user : User) (tickers : List T) : (s.stream user tickers).Routed :=
  h.congr (by simp) (by simp)

theorem Routed.initSubscriptions (h : s.Routed) (order : List User) : (s.initSubscriptions order).Routed := by
  induction order generalizing s with
  | nil => exact h
  | cons user order ih => exact ih ((h.registerAppKey user).stream user (s.tickersOf user))

theorem Routed.call (h : s.Routed) (c : SubscriptionCall User T) : (s.call c).Routed := by
  cases c with
  | subscribe user ticker =>
    simp only [SubscriptionService.call, subscribe]
    split
    · exact h
    · have added : ({ s with subscriptions := s.subscriptions ++ [(user, ticker)] } :
          SubscriptionService User T).Routed := h.congr rfl rfl
      exact (added.registerAppKey user).stream user [ticker]
  | unsubscribe user ticker =>
    simp only [SubscriptionService.call, unsubscribe]
    split
    · exact h
    · exact h.congr rfl rfl

omit [DecidableEq T] in
/-- A change of keys keeps the routing exactly if the user is registered under no other key. -/
theorem Routed.updateKisKeys_iff (h : s.Routed) (user : User) (appKey : AppKey) (validated : Bool) :
    (s.updateKisKeys user appKey validated).Routed ↔ s.KeepsRegistered (.updateKisKeys user appKey validated) := by
  rw [routed_iff_registered] at h ⊢
  cases validated with
  | false => exact iff_of_true h nofun
  | true =>
    simp only [updateKisKeys, if_true, KeepsRegistered, forall_const]
    constructor
    · intro routed registered mem
      have current := routed registered user mem
      rw [Function.update_self] at current
      exact (Option.some.inj current).symm
    · intro settled registered email mem
      by_cases same : email = user
      · subst same
        rw [Function.update_self, settled registered mem]
      · rw [Function.update_of_ne same]
        exact h registered email mem

/-- **Owned ticks go to current users of the key** in every state of a run if and only if
nobody ever changes keys while registered under another one. -/
theorem routed_iff {subscriptions : List (User × T)} {kisApiKey : User → Option AppKey}
    {acts : List (ServiceAction User T)} {s : SubscriptionService User T}
    (run : (machine subscriptions kisApiKey).run acts = some s) :
    (machine subscriptions kisApiKey).Always Routed acts ↔
      (machine subscriptions kisApiKey).Along KeepsRegistered (fresh subscriptions kisApiKey) acts := by
  refine Machine.always_iff_along (M := machine subscriptions kisApiKey) (P := Routed) (Q := KeepsRegistered)
    ?_ ?_ acts s run
  · exact routed_iff_registered.2 nofun
  · rintro s a s' - routed step
    cases a with
    | initSubscriptions order =>
      obtain ⟨-, moved⟩ := Option.ite_none_right_eq_some.1 step
      cases moved
      exact iff_of_true (routed.initSubscriptions order) trivial
    | call c =>
      cases step
      exact iff_of_true (routed.call c) trivial
    | updateKisKeys user appKey validated =>
      cases step
      exact routed.updateKisKeys_iff user appKey validated

/-- A user sets the keys first and subscribes then. -/
theorem routed_iff_keys_first :
    (machine [] (fun _ => none)).Always Routed
      [.updateKisKeys "a@example.com" "PSa" true, .call (.subscribe "a@example.com" "005930")] :=
  (routed_iff rfl).2 ⟨nofun, fun _ _ => ⟨trivial, fun _ _ => trivial⟩⟩

/-- A user subscribes, changes keys, and still gets the ticks of the old key. -/
theorem old_key_still_routed :
    ¬ ∀ (acts : List (ServiceAction String String)) (s : SubscriptionService String String),
      (machine [] (fun _ => some "PSa")).run acts = some s →
        (machine [] (fun _ => some "PSa")).Always Routed acts := by
  intro claim
  let acts : List (ServiceAction String String) :=
    [.call (.subscribe "a@example.com" "005930"), .updateKisKeys "a@example.com" "PSb" true]
  obtain ⟨s, run, lost⟩ := Machine.exists_of_any (M := machine [] (fun _ => some "PSa")) acts
    (fun s => decide ("a@example.com" ∈ s.appKeyToUsers "PSa" ∧ s.kisApiKey "a@example.com" = some "PSb"))
    (by decide +kernel)
  obtain ⟨registered, current⟩ := of_decide_eq_true lost
  have routed := routed_iff_registered.1 (claim acts s run acts s List.prefix_rfl run) "PSa" "a@example.com" registered
  rw [current] at routed
  revert routed
  decide +kernel

end Routing

end SubscriptionService

end StockAnomaly.ApiServer

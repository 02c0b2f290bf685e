import Mathlib.Data.Int.Basic
import StockAnomaly.Theory.Machine

/-!
# The dashboard and its requests

The page keeps the list of the subscribed stocks, the selected one and two logs. Its
requests are on their way until the server serves them, their answers until they arrive, and
neither in any order; meanwhile events come over the stream. When no answer overtakes
another and none is lost, the list is that of the server as soon as nothing is on its way:
**`inSync_of_orderly`**. The logs and the prices follow the stream in every run:
**`follows_of_reachable`**.
-/

namespace StockAnomaly.WebApp.Dashboard

open StockAnomaly.Theory

structure Stock where
  id : String
  ticker : String
  name : String
  price : String
  change : String
  changeAmount : String
  status : String
deriving DecidableEq

/-- An item of the answer to `GET /api/v1/subscriptions`. -/
structure Item where
  ticker : String
  name : String
  price : Option String
deriving DecidableEq

/-- `stock-tick`, with the texts of its values. -/
structure StockTick where
  ticker : String
  price : String
  changeRate : Option String
  changeAmount : Option String
deriving DecidableEq

structure AlarmEntry (K : Type) where
  id : String
  timestamp : ℤ
  ticker : String
  zscore : K
  price_change_pct : K
  current_price : K
  severity : String
deriving DecidableEq

structure AiSignalEntry (K : Type) where
  id : String
  timestamp : ℤ
  ticker : String
  close : K
  bullProbability : K
  bearProbability : K
  direction : String
deriving DecidableEq

/-- `anomaly-alert`. -/
structure AnomalyAlert (K : Type) where
  ticker : String
  timestamp_ms : ℤ
  zscore : K
  price_change_pct : K
  current_price : K
  severity : String
deriving DecidableEq

/-- `ai-signal`. -/
structure AiSignal (K : Type) where
  ticker : String
  timestamp_ms : ℤ
  close : K
  bull_probability : K
  bear_probability : K
  direction : String
deriving DecidableEq

variable {K : Type}

/-- An item as `fetchSubscriptions` shows it. -/
def Item.stock (item : Item) : Stock where
  id := item.ticker
  ticker := item.ticker
  name := item.name
  price :=
    match item.price with
    | some price => if price ≠ "" ∧ price ≠ "0" then price else "0"
    | none => "0"
  change := "0.00%"
  changeAmount := "0"
  status := "stable"

/-- A stock after a tick; what the tick does not carry stays. -/
def Stock.update (stock : Stock) (newTick : StockTick) : Stock :=
  if stock.ticker ≠ newTick.ticker then stock
  else { stock with
    price := newTick.price
    change := (newTick.changeRate.map (· ++ "%")).getD stock.change
    changeAmount := newTick.changeAmount.getD stock.changeAmount }

def AnomalyAlert.entry (raw : AnomalyAlert K) : AlarmEntry K where
  id := raw.ticker ++ "-" ++ toString raw.timestamp_ms
  timestamp := raw.timestamp_ms
  ticker := raw.ticker
  zscore := raw.zscore
  price_change_pct := raw.price_change_pct
  current_price := raw.current_price
  severity := raw.severity

def AiSignal.entry (raw : AiSignal K) : AiSignalEntry K where
  id := raw.ticker ++ "-" ++ toString raw.timestamp_ms
  timestamp := raw.timestamp_ms
  ticker := raw.ticker
  close := raw.close
  bullProbability := raw.bull_probability
  bearProbability := raw.bear_probability
  direction := raw.direction

/-- `[entry, ...prev.slice(0, 49)]` -/
def newestFirst {α : Type} (entry : α) (prev : List α) : List α := entry :: prev.take 49

/-- The state of the component. -/
structure Page (K : Type) where
  stocks : List Stock
  selectedStock : Option Stock
  alarms : List (AlarmEntry K)
  aiSignals : List (AiSignalEntry K)

namespace Page

def stockTick (p : Page K) (newTick : StockTick) : Page K :=
  { p with
    stocks := p.stocks.map (·.update newTick)
    selectedStock := p.selectedStock.map (·.update newTick) }

/-- The answer to `DELETE`. -/
def unsubscribed (p : Page K) (ticker : String) : Page K :=
  { p with
    stocks := p.stocks.filter (·.ticker ≠ ticker)
    selectedStock := if p.selectedStock.map Stock.ticker = some ticker then none else p.selectedStock }

end Page

inductive Request
  | fetchSubscriptions
  | subscribe (ticker : String)
  | unsubscribe (ticker : String)
deriving DecidableEq

/-- What comes back; `failed` stands for a status that is not ok and for an exception. -/
inductive Answer
  | subscriptions (items : List Item)
  | subscribed
  | unsubscribed (ticker : String)
  | failed
deriving DecidableEq

/-- What becomes of a request: it may fail before or after the server has acted on it. -/
inductive Outcome
  | done
  | refused
  | lost
deriving DecidableEq

/-- The page, its requests and answers on their way, the answers in the order in which the
server gave them, and the tickers that the server has for the user. The rest is a record:
the stocks of the list as they were loaded, and what came over the stream, the ticks since
then. -/
structure Session (K : Type) where
  page : Page K
  requests : List Request
  answers : List Answer
  subscriptions : List String
  loaded : List Stock
  ticks : List StockTick
  alerts : List (AnomalyAlert K)
  signals : List (AiSignal K)

inductive Action (K : Type)
  | handleSubscribe (ticker : String)
  | handleUnsubscribe (ticker : String)
  | selectStock (i : ℕ)
  /-- The server serves a request; `items` is the list it has for the user, if it is asked. -/
  | serve (i : ℕ) (outcome : Outcome) (items : List Item)
  /-- An answer arrives. -/
  | arrive (i : ℕ)
  | stockTick (newTick : StockTick)
  | anomalyAlert (raw : AnomalyAlert K)
  | aiSignal (raw : AiSignal K)

/-- The subscriptions after a request. -/
def Request.apply (subscriptions : List String) : Request → List String
  | .fetchSubscriptions => subscriptions
  | .subscribe ticker => if ticker ∈ subscriptions then subscriptions else subscriptions ++ [ticker]
  | .unsubscribe ticker => subscriptions.filter (· ≠ ticker)

/-- The answer to a request that is served well. -/
def Request.answer (items : List Item) : Request → Answer
  | .fetchSubscriptions => .subscriptions items
  | .subscribe _ => .subscribed
  | .unsubscribe ticker => .unsubscribed ticker

namespace Session

/-- The page is mounted with a token and has sent its first request. -/
def init (subscriptions : List String) : Session K where
  page := ⟨[], none, [], []⟩
  requests := [.fetchSubscriptions]
  answers := []
  subscriptions := subscriptions
  loaded := []
  ticks := []
  alerts := []
  signals := []

/-- The server serves the request. -/
def serve (s : Session K) (rest : List Request) (request : Request) (outcome : Outcome)
    (items : List Item) : Session K :=
  { s with
    requests := rest
    subscriptions := if outcome = .refused then s.subscriptions else request.apply s.subscriptions
    answers := s.answers ++ [if outcome = .done then request.answer items else .failed] }

/-- The page handles the answer. -/
def arrive (s : Session K) (rest : List Answer) : Answer → Session K
  | .subscriptions items =>
    { s with
      answers := rest
      page.stocks := items.map Item.stock
      loaded := items.map Item.stock
      ticks := [] }
  | .subscribed => { s with answers := rest, requests := s.requests ++ [.fetchSubscriptions] }
  | .unsubscribed ticker =>
    { s with
      answers := rest
      page := s.page.unsubscribed ticker
      loaded := s.loaded.filter (·.ticker ≠ ticker) }
  | .failed => { s with answers := rest }

def step (s : Session K) : Action K → Option (Session K)
  | .handleSubscribe ticker =>
    if ticker ≠ "" then some { s with requests := s.requests ++ [.subscribe ticker] } else none
  | .handleUnsubscribe ticker => some { s with requests := s.requests ++ [.unsubscribe ticker] }
  | .selectStock i => s.page.stocks[i]?.map fun stock => { s with page.selectedStock := some stock }
  | .serve i outcome items =>
    s.requests[i]?.map fun request => s.serve (s.requests.eraseIdx i) request outcome items
  | .arrive i => s.answers[i]?.map fun answer => s.arrive (s.answers.eraseIdx i) answer
  | .stockTick newTick => some { s with page := s.page.stockTick newTick, ticks := s.ticks ++ [newTick] }
  | .anomalyAlert raw => some { s with
      page.alarms := newestFirst raw.entry s.page.alarms
      alerts := s.alerts ++ [raw] }
  | .aiSignal raw => some { s with
      page.aiSignals := newestFirst raw.entry s.page.aiSignals
      signals := s.signals ++ [raw] }

/-- The page of a user with some subscriptions. -/
def machine (K : Type) (subscriptions : List String) : Machine (Session K) (Action K) where
  init := init subscriptions
  step := step

/-- The steps of a session, one constructor for each branch of `step`. -/
inductive Step (s : Session K) : Action K → Session K → Prop
  | handleSubscribe {ticker : String} :
      Step s (.handleSubscribe ticker) { s with requests := s.requests ++ [.subscribe ticker] }
  | handleUnsubscribe {ticker : String} :
      Step s (.handleUnsubscribe ticker) { s with requests := s.requests ++ [.unsubscribe ticker] }
  | selectStock {i : ℕ} {stock : Stock} (listed : s.page.stocks[i]? = some stock) :
      Step s (.selectStock i) { s with page.selectedStock := some stock }
  | serve {i : ℕ} {outcome : Outcome} {items : List Item} {request : Request}
      (sent : s.requests[i]? = some request) :
      Step s (.serve i outcome items) (s.serve (s.requests.eraseIdx i) request outcome items)
  | arrive {i : ℕ} {answer : Answer} (sent : s.answers[i]? = some answer) :
      Step s (.arrive i) (s.arrive (s.answers.eraseIdx i) answer)
  | stockTick {newTick : StockTick} :
      Step s (.stockTick newTick) { s with page := s.page.stockTick newTick, ticks := s.ticks ++ [newTick] }
  | anomalyAlert {raw : AnomalyAlert K} : Step s (.anomalyAlert raw) { s with
      page.alarms := newestFirst raw.entry s.page.alarms
      alerts := s.alerts ++ [raw] }
  | aiSignal {raw : AiSignal K} : Step s (.aiSignal raw) { s with
      page.aiSignals := newestFirst raw.entry s.page.aiSignals
      signals := s.signals ++ [raw] }

variable {subscriptions : List String} {s s' : Session K}

/-- **All that one step of a session can do.** -/
theorem step_cases {a : Action K} (taken : (machine K subscriptions).step s a = some s') : Step s a s' := by
  cases a with
  | handleSubscribe ticker =>
    obtain ⟨-, eq⟩ := Option.ite_none_right_eq_some.1 taken
    cases eq
    exact .handleSubscribe
  | selectStock i =>
    obtain ⟨stock, listed, rfl⟩ := Option.map_eq_some_iff.1 taken
    exact .selectStock listed
  | serve i outcome items =>
    obtain ⟨request, sent, rfl⟩ := Option.map_eq_some_iff.1 taken
    exact .serve sent
  | arrive i =>
    obtain ⟨answer, sent, rfl⟩ := Option.map_eq_some_iff.1 taken
    exact .arrive sent
  | handleUnsubscribe ticker =>
    cases taken
    exact .handleUnsubscribe
  | stockTick newTick =>
    cases taken
    exact .stockTick
  | anomalyAlert raw =>
    cases taken
    exact .anomalyAlert
  | aiSignal raw =>
    cases taken
    exact .aiSignal

/-- The tickers of the list. -/
def tickers (s : Session K) : List String := s.page.stocks.map Stock.ticker

/-- Every request is served well, a list of stocks is the one that the user has then, and no
answer overtakes another. -/
def Orderly (s : Session K) : Action K → Prop
  | .serve i outcome items => outcome = .done ∧
      (s.requests[i]? = some .fetchSubscriptions → items.map Item.ticker = s.subscriptions)
  | .arrive i => i = 0
  | _ => True

instance (s : Session K) : (a : Action K) → Decidable (s.Orderly a)
  | .serve i outcome items => inferInstanceAs (Decidable (outcome = .done ∧
      (s.requests[i]? = some .fetchSubscriptions → items.map Item.ticker = s.subscriptions)))
  | .arrive i => inferInstanceAs (Decidable (i = 0))
  | .handleSubscribe _ => inferInstanceAs (Decidable True)
  | .handleUnsubscribe _ => inferInstanceAs (Decidable True)
  | .selectStock _ => inferInstanceAs (Decidable True)
  | .stockTick _ => inferInstanceAs (Decidable True)
  | .anomalyAlert _ => inferInstanceAs (Decidable True)
  | .aiSignal _ => inferInstanceAs (Decidable True)

end Session

/-- The tickers of the list after an answer. -/
def Answer.list (tickers : List String) : Answer → List String
  | .subscriptions items => items.map Item.ticker
  | .subscribed => tickers
  | .unsubscribed ticker => tickers.filter (· ≠ ticker)
  | .failed => tickers

namespace Session

variable {subscriptions : List String} {s s' : Session K}

/-- The tickers of the list once all answers on their way have arrived in order. -/
def inView (s : Session K) : List String := s.answers.foldl Answer.list s.tickers

/-- The list will be fetched again. -/
def Due (s : Session K) : Prop := .fetchSubscriptions ∈ s.requests ∨ .subscribed ∈ s.answers

/-- What an orderly run keeps. -/
structure InStep (s : Session K) : Prop where
  /-- Unless the list will be fetched again, what is on its way makes it the server's. -/
  current : s.inView = s.subscriptions ∨ s.Due
  /-- No stock stays in the list without a subscription. -/
  subscribed : ∀ ticker ∈ s.inView, ticker ∈ s.subscriptions
  /-- A list on its way has all stocks that are then in the list. -/
  grows : ∀ before items after, s.answers = before ++ .subscriptions items :: after →
    ∀ ticker ∈ before.foldl Answer.list s.tickers, ticker ∈ items.map Item.ticker
  /-- The selected stock is in the list. -/
  selected : ∀ stock, s.page.selectedStock = some stock → stock.ticker ∈ s.tickers

theorem map_stock_ticker (items : List Item) : (items.map Item.stock).map Stock.ticker = items.map Item.ticker := by
  rw [List.map_map]
  rfl

end Session

@[simp] theorem Stock.update_ticker (stock : Stock) (newTick : StockTick) :
    (stock.update newTick).ticker = stock.ticker := by
  unfold Stock.update
  split <;> rfl

namespace Session

variable {subscriptions : List String} {s s' : Session K}

theorem filter_tickers (stocks : List Stock) (ticker : String) :
    (stocks.filter (·.ticker ≠ ticker)).map Stock.ticker = (stocks.map Stock.ticker).filter (· ≠ ticker) := by
  rw [List.filter_map]
  rfl

/-- The answer that arrives does to the list what was in view. -/
theorem arrive_tickers (s : Session K) (rest : List Answer) (answer : Answer) :
    (s.arrive rest answer).tickers = answer.list s.tickers := by
  cases answer with
  | subscriptions items => exact map_stock_ticker items
  | subscribed => rfl
  | unsubscribed ticker => exact filter_tickers s.page.stocks ticker
  | failed => rfl

@[simp] theorem arrive_answers (s : Session K) (rest : List Answer) (answer : Answer) :
    (s.arrive rest answer).answers = rest := by
  cases answer <;> rfl

@[simp] theorem arrive_subscriptions (s : Session K) (rest : List Answer) (answer : Answer) :
    (s.arrive rest answer).subscriptions = s.subscriptions := by
  cases answer <;> rfl

theorem arrive_inView {rest : List Answer} {answer : Answer} (sent : s.answers = answer :: rest) :
    (s.arrive rest answer).inView = s.inView := by
  simp only [inView, arrive_tickers, arrive_answers, sent, List.foldl_cons]

/-- A served request is seen behind all that is on its way. -/
theorem serve_inView (s : Session K) (rest : List Request) (request : Request) (items : List Item) :
    (s.serve rest request .done items).inView = (request.answer items).list s.inView := by
  simp only [inView, serve, if_true, List.foldl_append, List.foldl_cons, List.foldl_nil]
  rfl

/-- Steps that leave the two lists on their way, the subscriptions and the tickers alone. -/
theorem InStep.congr (inv : InStep s) (answers : s'.answers = s.answers) (tickers : s'.tickers = s.tickers)
    (requests : ∀ request ∈ s.requests, request ∈ s'.requests) (subscriptions : s'.subscriptions = s.subscriptions)
    (selected : ∀ stock, s'.page.selectedStock = some stock → stock.ticker ∈ s.tickers) : InStep s' := by
  have view : s'.inView = s.inView := by rw [inView, inView, answers, tickers]
  refine ⟨?_, ?_, ?_, ?_⟩
  · rw [view, subscriptions, Due, answers]
    exact inv.current.imp_right (Or.imp_left (requests _))
  · rw [view, subscriptions]
    exact inv.subscribed
  · rw [answers, tickers]
    exact inv.grows
  · rw [tickers]
    exact selected

theorem mem_eraseIdx_of_ne {α : Type} {l : List α} {i : ℕ} {a b : α} (at_i : l[i]? = some a) (ne : b ≠ a)
    (mem : b ∈ l) : b ∈ l.eraseIdx i := by
  obtain ⟨j, at_j⟩ := List.mem_iff_getElem?.1 mem
  apply List.mem_eraseIdx_iff_getElem?.2
  refine ⟨j, ?_, at_j⟩
  rintro rfl
  exact ne (Option.some.inj (at_j.symm.trans at_i))

theorem InStep.serve (inv : InStep s) {i : ℕ} {request : Request} {items : List Item}
    (sent : s.requests[i]? = some request)
    (listed : request = .fetchSubscriptions → items.map Item.ticker = s.subscriptions) :
    InStep (s.serve (s.requests.eraseIdx i) request .done items) := by
  have answers : (s.serve (s.requests.eraseIdx i) request .done items).answers =
      s.answers ++ [request.answer items] := rfl
  have served : (s.serve (s.requests.eraseIdx i) request .done items).subscriptions =
      request.apply s.subscriptions := rfl
  have due (other : request ≠ .fetchSubscriptions) (was : s.Due) :
      (s.serve (s.requests.eraseIdx i) request .done items).Due := by
    refine was.imp (mem_eraseIdx_of_ne sent other.symm) fun mem => ?_
    rw [answers]
    exact List.mem_append_left _ mem
  refine ⟨?_, ?_, ?_, inv.selected⟩
  · rw [serve_inView, served]
    cases request with
    | fetchSubscriptions => exact .inl (listed rfl)
    | subscribe ticker =>
      -- the list is fetched again when this answer arrives
      refine .inr (.inr ?_)
      rw [answers]
      exact List.mem_append_right _ (List.mem_singleton.2 rfl)
    | unsubscribe ticker =>
      refine inv.current.imp (fun same => ?_) (due (by simp))
      exact congrArg (List.filter (· ≠ ticker)) same
  · rw [serve_inView, served]
    cases request with
    | fetchSubscriptions =>
      intro ticker mem
      rwa [← listed rfl]
    | subscribe new =>
      intro ticker mem
      have kept := inv.subscribed ticker mem
      simp only [Request.apply]
      split
      · exact kept
      · exact List.mem_append_left _ kept
    | unsubscribe old =>
      intro ticker mem
      obtain ⟨mem, ne⟩ := List.mem_filter.1 mem
      exact List.mem_filter.2 ⟨inv.subscribed ticker mem, ne⟩
  · intro before list after eq ticker mem
    rw [answers] at eq
    rcases List.eq_nil_or_concat after with rfl | ⟨after, last, rfl⟩
    · -- the list is the answer just given
      obtain ⟨rfl, given⟩ := List.append_singleton_inj.1 eq
      clear eq
      cases request with
      | fetchSubscriptions =>
        cases given
        rw [listed rfl]
        exact inv.subscribed ticker mem
      | subscribe _ => cases given
      | unsubscribe _ => cases given
    · rw [List.concat_eq_append, ← List.cons_append, ← List.append_assoc] at eq
      exact inv.grows before list after (List.append_singleton_inj.1 eq).1 ticker mem

theorem InStep.arrive (inv : InStep s) {rest : List Answer} {answer : Answer} (sent : s.answers = answer :: rest) :
    InStep (s.arrive rest answer) := by
  have view := arrive_inView sent
  refine ⟨?_, ?_, ?_, ?_⟩
  · rw [view, arrive_subscriptions]
    refine inv.current.imp_right fun due => ?_
    rw [Due, arrive_answers]
    rcases due with asked | answered
    · left
      cases answer with
      | subscribed => exact List.mem_append_left _ asked
      | subscriptions _ => exact asked
      | unsubscribed _ => exact asked
      | failed => exact asked
    · rw [sent] at answered
      rcases List.mem_cons.1 answered with rfl | answered
      · exact .inl (List.mem_append_right _ (List.mem_singleton.2 rfl))
      · exact .inr answered
  · rw [view, arrive_subscriptions]
    exact inv.subscribed
  · intro before items after eq
    rw [arrive_answers] at eq
    rw [arrive_tickers]
    exact inv.grows (answer :: before) items after (by rw [sent, eq, List.cons_append])
  · intro stock picked
    rw [arrive_tickers]
    cases answer with
    | subscriptions items => exact inv.grows [] items rest sent _ (inv.selected stock picked)
    | subscribed => exact inv.selected stock picked
    | failed => exact inv.selected stock picked
    | unsubscribed ticker =>
      simp only [Session.arrive, Page.unsubscribed] at picked
      split at picked
      · cases picked
      · rename_i other
        refine List.mem_filter.2 ⟨inv.selected stock picked, ?_⟩
        rw [picked] at other
        simpa using other

theorem InStep.step {a : Action K} (inv : InStep s) (orderly : Orderly s a)
    (taken : (machine K subscriptions).step s a = some s') : InStep s' := by
  cases step_cases taken with
  | handleSubscribe => exact inv.congr rfl rfl (fun _ => List.mem_append_left _) rfl inv.selected
  | handleUnsubscribe => exact inv.congr rfl rfl (fun _ => List.mem_append_left _) rfl inv.selected
  | selectStock listed =>
    refine inv.congr rfl rfl (fun _ => id) rfl ?_
    rintro stock ⟨⟩
    exact List.mem_map_of_mem (List.mem_of_getElem? listed)
  | serve sent =>
    obtain ⟨rfl, listed⟩ := orderly
    exact inv.serve sent fun eq => listed (eq ▸ sent)
  | @arrive i answer sent =>
    obtain rfl : i = 0 := orderly
    cases answers : s.answers with
    | nil => simp [answers] at sent
    | cons first rest =>
      rw [answers] at sent
      cases sent
      exact inv.arrive answers
  | @stockTick newTick =>
    have same : (s.page.stocks.map (·.update newTick)).map Stock.ticker = s.tickers := by
      rw [List.map_map]
      exact List.map_congr_left fun stock _ => stock.update_ticker newTick
    refine inv.congr rfl same (fun _ => id) rfl fun stock picked => ?_
    obtain ⟨before, was, rfl⟩ := Option.map_eq_some_iff.1 picked
    rw [Stock.update_ticker]
    exact inv.selected before was
  | anomalyAlert => exact inv.congr rfl rfl (fun _ => id) rfl inv.selected
  | aiSignal => exact inv.congr rfl rfl (fun _ => id) rfl inv.selected

theorem init_inStep (subscriptions : List String) : InStep (init subscriptions : Session K) where
  current := .inr (.inl (List.mem_singleton.2 rfl))
  subscribed := by
    intro ticker mem
    cases mem
  grows := by
    intro before items after eq
    cases before <;> cases eq
  selected := by
    intro stock picked
    cases picked

/-- **The list shows the user's subscriptions.** When every request is served well and the
answers arrive in order, then whenever nothing is on its way the list is that of the server,
in its order, and the selected stock is in the list all the time. -/
theorem inSync_of_orderly {acts : List (Action K)} (run : (machine K subscriptions).run acts = some s)
    (orderly : (machine K subscriptions).Along Orderly (machine K subscriptions).init acts) :
    (s.requests = [] → s.answers = [] → s.tickers = s.subscriptions) ∧
      ∀ stock, s.page.selectedStock = some stock → stock.ticker ∈ s.tickers := by
  have inv : InStep s := Machine.run_induct (I := fun _ s => InStep s) (init_inStep subscriptions)
    (fun _ _ _ _ _ inv orderly taken => inv.step orderly taken) acts s run orderly
  refine ⟨fun sent answered => ?_, inv.selected⟩
  have arrived : s.inView = s.tickers := by rw [inView, answered, List.foldl_nil]
  rcases inv.current with same | asked | told
  · exact arrived.symm.trans same
  · rw [sent] at asked
    cases asked
  · rw [answered] at told
    cases told

/-- A stock is subscribed, selected and unsubscribed again. -/
def roundTrip : List (Action ℕ) :=
  [.serve 0 .done [⟨"005930", "A", none⟩], .arrive 0, .handleSubscribe "000660", .serve 0 .done [], .arrive 0,
    .serve 0 .done [⟨"005930", "A", some "70000"⟩, ⟨"000660", "B", some "0"⟩], .arrive 0, .selectStock 1,
    .handleUnsubscribe "000660", .serve 0 .done [], .arrive 0]

/-- The session after the actions; `none` when one of them is not enabled. -/
def after (subscriptions : List String) (acts : List (Action ℕ)) : Option (List String × List String) :=
  ((machine ℕ subscriptions).run acts).map fun s => (s.tickers, s.subscriptions)

theorem inSync_of_orderly_roundTrip :
    ∃ s, (machine ℕ ["005930"]).run roundTrip = some s ∧ s.tickers = s.subscriptions := by
  refine ⟨_, rfl, (inSync_of_orderly (rfl : (machine ℕ ["005930"]).run roundTrip = some _) ?_).1 rfl rfl⟩
  exact Machine.along_of_check (p := fun s a => decide (s.Orderly a)) (fun _ _ h => of_decide_eq_true h)
    (by decide)

/-- An answer that overtakes another brings a stock back that has no subscription any more. -/
example : after ["005930"] [.handleUnsubscribe "005930", .serve 0 .done [⟨"005930", "A", none⟩],
    .serve 0 .done [], .arrive 1, .arrive 0] = some (["005930"], []) := by decide

end Session

section Stream

/-- The ticks of the stock. -/
def Stock.own (stock : Stock) (ticks : List StockTick) : List StockTick :=
  ticks.filter (·.ticker = stock.ticker)

/-- A stock as the list has it after some ticks: of each value the last one that a tick of the
stock carried. -/
def Stock.shown (stock : Stock) (ticks : List StockTick) : Stock :=
  { stock with
    price := ((stock.own ticks).getLast?.map StockTick.price).getD stock.price
    change := (((stock.own ticks).filterMap StockTick.changeRate).getLast?.map (· ++ "%")).getD stock.change
    changeAmount := ((stock.own ticks).filterMap StockTick.changeAmount).getLast?.getD stock.changeAmount }

theorem Stock.own_append (stock : Stock) (ticks : List StockTick) (newTick : StockTick) :
    stock.own (ticks ++ [newTick]) =
      stock.own ticks ++ if newTick.ticker = stock.ticker then [newTick] else [] := by
  rw [own, List.filter_append, List.filter_cons, List.filter_nil]
  simp only [own, decide_eq_true_eq]

/-- One more tick updates the stock as it is shown. -/
theorem Stock.shown_append (stock : Stock) (ticks : List StockTick) (newTick : StockTick) :
    (stock.shown ticks).update newTick = stock.shown (ticks ++ [newTick]) := by
  unfold Stock.update
  split
  · rename_i other
    have other : newTick.ticker ≠ stock.ticker := fun eq => other eq.symm
    rw [shown, shown, own_append, if_neg other, List.append_nil]
  · rename_i same
    have same : newTick.ticker = stock.ticker := (not_not.1 same).symm
    have last : stock.own (ticks ++ [newTick]) = stock.own ticks ++ [newTick] := by
      rw [own_append, if_pos same]
    cases rate : newTick.changeRate <;> cases amount : newTick.changeAmount <;>
      simp [shown, last, rate, amount, List.filterMap_append, List.getLast?_append]

namespace Session

variable {subscriptions : List String} {s s' : Session K}

/-- What the list and the logs are, of what came over the stream. -/
structure Follows (s : Session K) : Prop where
  stocks : s.page.stocks = s.loaded.map (·.shown s.ticks)
  alarms : s.page.alarms = (s.alerts.map AnomalyAlert.entry).reverse.take 50
  aiSignals : s.page.aiSignals = (s.signals.map AiSignal.entry).reverse.take 50

/-- The newest entry goes in front of the log, and the oldest leaves it. -/
theorem newestFirst_log {α β : Type} (entry : β → α) (raws : List β) (raw : β) :
    newestFirst (entry raw) ((raws.map entry).reverse.take 50) = ((raws ++ [raw]).map entry).reverse.take 50 := by
  simp [newestFirst, List.take_take]

theorem Follows.step {a : Action K} (follows : Follows s)
    (taken : (machine K subscriptions).step s a = some s') : Follows s' := by
  cases step_cases taken with
  | handleSubscribe => exact ⟨follows.stocks, follows.alarms, follows.aiSignals⟩
  | handleUnsubscribe => exact ⟨follows.stocks, follows.alarms, follows.aiSignals⟩
  | selectStock => exact ⟨follows.stocks, follows.alarms, follows.aiSignals⟩
  | serve => exact ⟨follows.stocks, follows.alarms, follows.aiSignals⟩
  | @arrive i answer =>
    cases answer with
    | subscriptions items => exact ⟨(List.map_id' _).symm, follows.alarms, follows.aiSignals⟩
    | subscribed => exact ⟨follows.stocks, follows.alarms, follows.aiSignals⟩
    | failed => exact ⟨follows.stocks, follows.alarms, follows.aiSignals⟩
    | unsubscribed ticker =>
      refine ⟨?_, follows.alarms, follows.aiSignals⟩
      simp only [Session.arrive, Page.unsubscribed, follows.stocks, List.filter_map]
      rfl
  | @stockTick newTick =>
    refine ⟨?_, follows.alarms, follows.aiSignals⟩
    simp only [Page.stockTick, follows.stocks, List.map_map]
    exact List.map_congr_left fun stock _ => stock.shown_append s.ticks newTick
  | @anomalyAlert raw =>
    refine ⟨follows.stocks, ?_, follows.aiSignals⟩
    simp only [follows.alarms]
    exact newestFirst_log AnomalyAlert.entry s.alerts raw
  | @aiSignal raw =>
    refine ⟨follows.stocks, follows.alarms, ?_⟩
    simp only [follows.aiSignals]
    exact newestFirst_log AiSignal.entry s.signals raw

/-- **The page follows the stream**, in every run, whatever becomes of its requests: a stock of
the list is as it was loaded but for the last values that its own ticks carried since, and a
log has the last fifty events, the newest first. -/
theorem follows_of_reachable (reachable : (machine K subscriptions).Reachable s) : s.Follows :=
  reachable.induct ⟨rfl, rfl, rfl⟩ fun _ _ _ follows taken => follows.step taken

/-- A stock of two, after a tick of its own and one of the other. -/
def twoTicks : List (Action ℕ) :=
  [.serve 0 .done [⟨"005930", "A", none⟩, ⟨"000660", "B", none⟩], .arrive 0,
    .stockTick ⟨"005930", "70000", some "1.2", none⟩, .stockTick ⟨"000660", "9000", none, none⟩]

theorem follows_of_reachable_twoTicks :
    ∃ s, (machine ℕ ["005930", "000660"]).run twoTicks = some s ∧ s.Follows :=
  ⟨_, rfl, follows_of_reachable ⟨twoTicks, rfl⟩⟩

end Session

end Stream

end StockAnomaly.WebApp.Dashboard

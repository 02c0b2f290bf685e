import Mathlib.Algebra.Field.Rat
import Mathlib.Algebra.Order.Ring.Rat
import Mathlib.Tactic.Ring
import StockAnomaly.Events.ScalpingHandler
import StockAnomaly.Events.SwingHandler

/-!
# The position books and the broker

The ledger of a ticker is what the broker sees: its accepted buys minus its accepted sells.
Both handlers insert into their book only after an accepted buy, but `check_exit` erases
whatever the executor answers, so a rejected sell leaves shares that the book no longer
shows. The ledger is the book plus these: **`books_agree_iff`**.
-/

namespace StockAnomaly.Events

open StockAnomaly.Theory

variable {K : Type*}

/-- An order of one ticker and side with this answer. -/
def Order.isOf (ticker : Ticker) (side : Side) (accepted : Bool) (o : Order K) : Bool :=
  o.request.ticker = ticker && o.request.side = side && o.accepted = accepted

/-- Accepted buys minus accepted sells. -/
def ledger (ticker : Ticker) (orders : List (Order K)) : ℤ :=
  orders.countP (Order.isOf ticker .buy true) - orders.countP (Order.isOf ticker .sell true)

def rejectedSells (ticker : Ticker) (orders : List (Order K)) : ℤ :=
  orders.countP (Order.isOf ticker .sell false)

section Ledger

variable {ticker : Ticker} {orders : List (Order K)} {o : Order K}

theorem ledger_buy (own : o.request.ticker = ticker) (buy : o.request.side = .buy) :
    ledger ticker (orders ++ [o]) = ledger ticker orders + (if o.accepted then 1 else 0) := by
  simp only [ledger, List.countP_append, List.countP_singleton, Order.isOf, own, buy]
  cases o.accepted
  · simp
  · simp
    ring

theorem ledger_sell (own : o.request.ticker = ticker) (sell : o.request.side = .sell) :
    ledger ticker (orders ++ [o]) = ledger ticker orders - (if o.accepted then 1 else 0) := by
  simp only [ledger, List.countP_append, List.countP_singleton, Order.isOf, own, sell]
  cases o.accepted
  · simp
  · simp
    ring

theorem ledger_other (other : o.request.ticker ≠ ticker) :
    ledger ticker (orders ++ [o]) = ledger ticker orders := by
  simp [ledger, List.countP_append, Order.isOf, other]

theorem rejectedSells_buy (buy : o.request.side = .buy) :
    rejectedSells ticker (orders ++ [o]) = rejectedSells ticker orders := by
  simp [rejectedSells, List.countP_append, Order.isOf, buy]

theorem rejectedSells_sell (own : o.request.ticker = ticker) (sell : o.request.side = .sell) :
    rejectedSells ticker (orders ++ [o]) =
      rejectedSells ticker orders + (if o.accepted then 0 else 1) := by
  simp only [rejectedSells, List.countP_append, List.countP_singleton, Order.isOf, own, sell]
  cases o.accepted <;> simp

theorem rejectedSells_other (other : o.request.ticker ≠ ticker) :
    rejectedSells ticker (orders ++ [o]) = rejectedSells ticker orders := by
  simp [rejectedSells, List.countP_append, Order.isOf, other]

/-- No ticker has a rejected sell exactly when every sell was accepted. -/
theorem rejectedSells_eq_zero_iff :
    (∀ ticker, rejectedSells ticker orders = 0) ↔
      ∀ o ∈ orders, o.request.side = .sell → o.accepted = true := by
  simp only [rejectedSells, Nat.cast_eq_zero, List.countP_eq_zero, Order.isOf]
  constructor
  · intro none o mem sell
    have := none o.request.ticker o mem
    simpa [sell] using this
  · intro accepted ticker o mem
    have := accepted o mem
    simp only [Bool.and_eq_true, decide_eq_true_eq, not_and, and_imp]
    intro _ sell
    simp [this sell]

/-- A ledger that is a book plus the rejected sells is the book when none was rejected. -/
theorem agree_iff_of_balance {book : Ticker → ℤ}
    (balance : ∀ ticker, ledger ticker orders = book ticker + rejectedSells ticker orders) :
    (∀ ticker, ledger ticker orders = book ticker) ↔
      ∀ o ∈ orders, o.request.side = .sell → o.accepted = true := by
  rw [← rejectedSells_eq_zero_iff]
  refine forall_congr' fun ticker => ?_
  rw [balance ticker]
  omega

end Ledger

namespace SwingHandler

/-- The orders of a history. -/
def orders (history : List (SwingOp K × Outcome K)) : List (Order K) :=
  history.filterMap fun entry => match entry.2 with
    | .submitted order => some order
    | _ => none

/-- 1 when the handler shows a position. -/
def book (states : SwingStates K) (ticker : Ticker) : ℤ :=
  if (states ticker).any TickerState.inPosition then 1 else 0

theorem orders_snoc (history : List (SwingOp K × Outcome K)) (op : SwingOp K) (order : Order K) :
    orders (history ++ [(op, .submitted order)]) = orders history ++ [order] := by
  simp [orders]

theorem orders_snoc_of_ne {history : List (SwingOp K × Outcome K)} {op : SwingOp K} {outcome : Outcome K}
    (none : ∀ order, outcome ≠ .submitted order) : orders (history ++ [(op, outcome)]) = orders history := by
  cases outcome with
  | submitted order => exact absurd rfl (none order)
  | _ => simp [orders]

variable [Field K] [LinearOrder K]

/-- The ledger of a ticker is its book plus its rejected sells. -/
theorem balance {s : SwingRun K} (reach : (machine K).Reachable s) (ticker : Ticker) :
    ledger ticker (orders s.history) =
      book s.states ticker + rejectedSells ticker (orders s.history) := by
  refine reachable_induct ticker (I := fun ts history => ledger ticker (orders history) =
    (if ts.any TickerState.inPosition then 1 else 0) + rejectedSells ticker (orders history)) ?_ ?_ ?_ reach
  · rfl
  · intro op before after outcome history own inv step
    cases step with
    | ignored | windowExpired | noConviction | ttlExpired =>
      rw [orders_snoc_of_ne (by simp)]
      exact inv
    | armed closed free =>
      rw [orders_snoc_of_ne (by simp), inv]
      cases before with
      | none => rfl
      | some ts => rfl
    | bought justified accepted =>
      rw [orders_snoc, ledger_buy own rfl, rejectedSells_buy rfl, inv]
      simp only [Option.any_some, justified.free, if_true, Bool.false_eq_true, if_false]
      omega
    | buyRejected justified rejected =>
      rw [orders_snoc, ledger_buy own rfl, rejectedSells_buy rfl, inv]
      simp
    | sold held hit =>
      rw [orders_snoc, ledger_sell own rfl, rejectedSells_sell own rfl, inv]
      simp only [Option.any_some, held, if_true, Bool.false_eq_true, if_false]
      split_ifs <;> omega
  · intro op theirs after outcome history before other inv step
    cases outcome with
    | submitted order =>
      have foreign : order.request.ticker ≠ ticker := by
        rw [step.order_ticker]
        exact other
      rw [orders_snoc, ledger_other foreign, rejectedSells_other foreign]
      exact inv
    | _ =>
      rw [orders_snoc_of_ne (by simp)]
      exact inv

end SwingHandler

namespace ScalpingHandler

/-- 1 when the handler shows a position. -/
def book (positions : Positions K) (ticker : Ticker) : ℤ := if (positions ticker).isSome then 1 else 0

/-- 1 when an accepted buy of the ticker is not inserted yet. -/
def EventPc.inserting (ticker : Ticker) : EventPc K → ℤ
  | .insert event _ => if event.ticker = ticker then 1 else 0
  | _ => 0

/-- 1 when a submitted sell of the ticker is not erased yet. -/
def erasing {Tid : Type*} (ticker : Ticker) : Option (Tid × ExitPc K) → ℤ
  | some (_, .erase t) => if t = ticker then 1 else 0
  | _ => 0

/-- The dispatch thread is between the look-up and the insertion of `ticker`. -/
def EventPc.Entering (ticker : Ticker) : EventPc K → Prop
  | .order event _ => event.ticker = ticker
  | .insert event _ => event.ticker = ticker
  | _ => False

/-- The thread with the lock is selling `ticker`. -/
def ExitPc.Selling (ticker : Ticker) : ExitPc K → Prop
  | .order request => request.ticker = ticker ∧ request.side = .sell
  | .erase t => t = ticker

variable {Tid : Type*}

/-- The books between and inside the calls. -/
structure BookInv (s : ScalpingRun Tid K) : Prop where
  balance : ∀ ticker, ledger ticker s.orders + erasing ticker s.exiting =
    book s.positions ticker + s.eventPc.inserting ticker + rejectedSells ticker s.orders
  /-- Only the dispatch thread inserts. -/
  entering : ∀ ticker, s.eventPc.Entering ticker → s.positions ticker = none
  /-- Only the thread with the lock erases. -/
  selling : ∀ tid pc, s.exiting = some (tid, pc) → ∃ ticker, pc.Selling ticker ∧ (s.positions ticker).isSome

namespace BookInv

variable {s : ScalpingRun Tid K}

theorem eventPc (h : BookInv s) {pc : EventPc K} (free : ∀ ticker, pc.Entering ticker → s.positions ticker = none)
    (same : ∀ ticker, pc.inserting ticker = s.eventPc.inserting ticker) : BookInv { s with eventPc := pc } where
  balance := by
    intro ticker
    rw [same ticker]
    exact h.balance ticker
  entering := free
  selling := h.selling

/-- The insertion of an accepted buy. -/
theorem insert (h : BookInv s) {event : ScalpingEvent K} {nowMs : ℤ} (pc : s.eventPc = .insert event nowMs)
    (free : s.exiting = none) : BookInv { s with
      eventPc := .idle
      positions := ScalpingHandler.insert s.positions event nowMs } where
  balance := by
    intro ticker
    have balance := h.balance ticker
    have absent : s.positions event.ticker = none := h.entering _ (by rw [pc]; rfl)
    rw [pc] at balance
    by_cases own : event.ticker = ticker
    · subst own
      simp [EventPc.inserting, book, ScalpingHandler.insert, absent] at balance ⊢
      omega
    · simp only [EventPc.inserting, own, if_false] at balance ⊢
      rw [book, ScalpingHandler.insert, Function.update_of_ne (Ne.symm own)]
      exact balance
  entering := fun _ entering => entering.elim
  selling := by
    intro tid pc' held
    rw [free] at held
    cases held

/-- An answer to a sell: the position is erased whatever it is. -/
theorem sell (h : BookInv s) {tid holder : Tid} {request : OrderRequest K}
    (pc : s.exiting = some (holder, .order request)) (accepted : Bool) : BookInv { s with
      exiting := some (tid, .erase request.ticker)
      orders := s.orders ++ [⟨request, accepted⟩] } where
  balance := by
    intro ticker
    have balance := h.balance ticker
    obtain ⟨_, ⟨-, side⟩, -⟩ := h.selling _ _ pc
    rw [pc] at balance
    by_cases own : request.ticker = ticker
    · rw [ledger_sell own side, rejectedSells_sell own side]
      cases accepted <;> simp [erasing, own] at balance ⊢ <;> omega
    · rw [ledger_other own, rejectedSells_other own]
      simp only [erasing, own, if_false] at balance ⊢
      exact balance
  entering := h.entering
  selling := by
    rintro _ _ ⟨⟩
    obtain ⟨ticker, ⟨own, -⟩, held⟩ := h.selling _ _ pc
    exact ⟨ticker, own, held⟩

/-- The erasure that ends a sell. -/
theorem erase (h : BookInv s) {tid : Tid} {ticker : Ticker} (pc : s.exiting = some (tid, .erase ticker)) :
    BookInv { s with
      exiting := (none : Option (Tid × ExitPc K))
      positions := Function.update s.positions ticker none } where
  balance := by
    intro t
    have balance := h.balance t
    obtain ⟨_, rfl, held⟩ := h.selling _ _ pc
    rw [pc] at balance
    by_cases own : ticker = t
    · subst own
      simp [erasing, book, held] at balance ⊢
      omega
    · simp only [erasing, own, if_false] at balance ⊢
      rw [book, Function.update_of_ne (Ne.symm own)]
      exact balance
  entering := by
    intro t entering
    by_cases own : t = ticker
    · rw [own]
      exact Function.update_self ..
    · exact (Function.update_of_ne own ..).trans (h.entering t entering)
  selling := by rintro _ _ ⟨⟩

variable [Field K]

/-- An answer to the dispatch thread's buy. -/
theorem buy (h : BookInv s) {event : ScalpingEvent K} {nowMs : ℤ} (pc : s.eventPc = .order event nowMs)
    (accepted : Bool) : BookInv { s with
      eventPc := if accepted then .insert event nowMs else .idle
      orders := s.orders ++ [⟨buyRequest event, accepted⟩] } where
  balance := by
    intro ticker
    have balance := h.balance ticker
    rw [pc] at balance
    rw [rejectedSells_buy rfl]
    by_cases own : event.ticker = ticker
    · rw [ledger_buy own rfl]
      cases accepted <;> simp [EventPc.inserting, own] at balance ⊢ <;> omega
    · rw [ledger_other own]
      cases accepted <;> simp [EventPc.inserting, own] at balance ⊢ <;> omega
  entering := by
    intro ticker entering
    refine h.entering ticker ?_
    rw [pc]
    cases accepted with
    | true => exact entering
    | false => exact entering.elim
  selling := h.selling

/-- A thread takes the lock to sell a held ticker. -/
theorem lockExit (h : BookInv s) (free : s.exiting = none) (tid : Tid) {ticker : Ticker} (currentPrice : K)
    (held : (s.positions ticker).isSome) :
    BookInv { s with exiting := some (tid, .order (sellRequest ticker currentPrice)) } where
  balance := by
    intro t
    have balance := h.balance t
    rw [free] at balance
    exact balance
  entering := h.entering
  selling := by
    rintro _ _ ⟨⟩
    exact ⟨ticker, ⟨rfl, rfl⟩, held⟩

variable [LinearOrder K] [DecidableEq Tid]

theorem fresh : BookInv (machine Tid K).init where
  balance := fun _ => rfl
  entering := fun _ entering => entering.elim
  selling := by rintro _ _ ⟨⟩

theorem step {s' : ScalpingRun Tid K} {a : ScalpingAction Tid K} (h : BookInv s)
    (taken : ScalpingHandler.step s a = some s') : BookInv s' := by
  cases a with
  | onEvent event nowMs =>
    simp only [ScalpingHandler.step] at taken
    split at taken <;> cases taken
    rename_i idle
    split
    · exact h
    · exact h.eventPc (fun _ entering => entering.elim) (by simp [idle, EventPc.inserting])
  | lookUp =>
    simp only [ScalpingHandler.step] at taken
    split at taken <;> cases taken
    rename_i event nowMs pc free
    refine h.eventPc ?_ ?_
    · intro ticker entering
      split at entering
      case isTrue => exact entering.elim
      case isFalse absent =>
        obtain rfl : event.ticker = ticker := entering
        exact Option.not_isSome_iff_eq_none.1 absent
    · intro ticker
      rw [pc]
      split <;> rfl
  | buy accepted =>
    simp only [ScalpingHandler.step] at taken
    split at taken <;> cases taken
    rename_i pc
    exact h.buy pc accepted
  | insert =>
    simp only [ScalpingHandler.step] at taken
    split at taken <;> cases taken
    rename_i pc free
    exact h.insert pc free
  | lockExit tid ticker currentPrice timestampMs =>
    simp only [ScalpingHandler.step] at taken
    split at taken <;> cases taken
    · exact h
    · rename_i info free found
      split
      · exact h.lockExit free tid currentPrice (by rw [found]; rfl)
      · exact h
  | sell tid accepted =>
    simp only [ScalpingHandler.step] at taken
    split at taken
    · split at taken <;> cases taken
      rename_i pc _
      exact h.sell pc accepted
    · cases taken
  | erase tid =>
    simp only [ScalpingHandler.step] at taken
    split at taken
    · split at taken <;> cases taken
      rename_i pc _
      exact h.erase pc
    · cases taken

theorem reachable (reach : (machine Tid K).Reachable s) : BookInv s :=
  reach.induct fresh fun _ _ _ inv taken => inv.step taken

end BookInv

variable [Field K] [LinearOrder K] [DecidableEq Tid]

/-- With no call in progress the ledger of a ticker is its book plus its rejected sells. -/
theorem balance {s : ScalpingRun Tid K} (reach : (machine Tid K).Reachable s) (quiet : s.Quiescent)
    (ticker : Ticker) : ledger ticker s.orders = book s.positions ticker + rejectedSells ticker s.orders := by
  have balance := (BookInv.reachable reach).balance ticker
  rw [quiet.1, quiet.2] at balance
  simpa [erasing, EventPc.inserting] using balance

end ScalpingHandler

/-- **The books agree with the broker exactly as long as no sell is rejected**, for every
interleaving of the calls of the scalping handler and every sequence of operations of the
swing handler, in every state with no call in progress. -/
theorem books_agree_iff (Tid K : Type*) [DecidableEq Tid] [Field K] [LinearOrder K] :
    (∀ s : ScalpingHandler.ScalpingRun Tid K, (ScalpingHandler.machine Tid K).Reachable s → s.Quiescent →
      ((∀ ticker, ledger ticker s.orders = ScalpingHandler.book s.positions ticker) ↔
        ∀ o ∈ s.orders, o.request.side = .sell → o.accepted = true)) ∧
    (∀ s : SwingHandler.SwingRun K, (SwingHandler.machine K).Reachable s →
      ((∀ ticker, ledger ticker (SwingHandler.orders s.history) = SwingHandler.book s.states ticker) ↔
        ∀ o ∈ SwingHandler.orders s.history, o.request.side = .sell → o.accepted = true)) := by
  constructor
  · intro s reach quiet
    exact agree_iff_of_balance (ScalpingHandler.balance reach quiet)
  · intro s reach
    exact agree_iff_of_balance (SwingHandler.balance reach)

/-- A scalping signal, and a swing candle with its AI signal, for examples. -/
def signalOf (ticker : Ticker) : ScalpingEvent ℚ := ⟨ticker, 5, 3, 100, 0⟩

def closedOf (ticker : Ticker) : SwingEvent ℚ :=
  ⟨.candleClosed, ticker, 100, 100, 100, 100, 1, 900000, 15, ⟨0, 0, "", 0⟩, 900000⟩

def confirmedOf (ticker : Ticker) : SwingEvent ℚ :=
  ⟨.aiConfirmed, ticker, 0, 0, 0, 100, 0, 0, 0, ⟨7 / 10, 1 / 10, "BUY_READY", 900000⟩, 0⟩

/-- A buy and a sell that is accepted, in both handlers. -/
theorem books_agree_iff_sold :
    (∃ s, (ScalpingHandler.machine ℕ ℚ).run [.onEvent (signalOf "A") 0, .lookUp, .buy true, .insert,
        .lockExit 0 "A" 90 0, .sell 0 true, .erase 0] = some s ∧
      ∀ ticker, ledger ticker s.orders = ScalpingHandler.book s.positions ticker) ∧
    (∃ s, (SwingHandler.machine ℚ).run [.onEvent (closedOf "A") 0 0 fun _ => true,
        .onEvent (confirmedOf "A") 0 0 fun _ => true, .checkExit "A" 90 0 fun _ => true] = some s ∧
      ∀ ticker, ledger ticker (SwingHandler.orders s.history) = SwingHandler.book s.states ticker) := by
  constructor
  · obtain ⟨s, run, found⟩ := (ScalpingHandler.machine ℕ ℚ).exists_of_any
      [.onEvent (signalOf "A") 0, .lookUp, .buy true, .insert, .lockExit 0 "A" 90 0, .sell 0 true, .erase 0]
      (fun s => s.Quiescent ∧ ∀ o ∈ s.orders, o.request.side = .sell → o.accepted = true) (by decide +kernel)
    obtain ⟨quiet, accepted⟩ := of_decide_eq_true found
    exact ⟨s, run, ((books_agree_iff ℕ ℚ).1 s ⟨_, run⟩ quiet).2 accepted⟩
  · obtain ⟨s, run, found⟩ := (SwingHandler.machine ℚ).exists_of_any
      [.onEvent (closedOf "A") 0 0 fun _ => true, .onEvent (confirmedOf "A") 0 0 fun _ => true,
        .checkExit "A" 90 0 fun _ => true]
      (fun s => ∀ o ∈ SwingHandler.orders s.history, o.request.side = .sell → o.accepted = true)
      (by decide +kernel)
    exact ⟨s, run, ((books_agree_iff ℕ ℚ).2 s ⟨_, run⟩).2 (of_decide_eq_true found)⟩

/-- **A rejected sell loses shares from both books.** The position entered at 100 falls to
90, the stop submits a sell, the broker rejects it, and the handler forgets the position. -/
theorem rejected_sell_loses_shares :
    (¬ ∀ s : ScalpingHandler.ScalpingRun ℕ ℚ, (ScalpingHandler.machine ℕ ℚ).Reachable s → s.Quiescent →
      ∀ ticker, ledger ticker s.orders = ScalpingHandler.book s.positions ticker) ∧
    (¬ ∀ s : SwingHandler.SwingRun ℚ, (SwingHandler.machine ℚ).Reachable s →
      ∀ ticker, ledger ticker (SwingHandler.orders s.history) = SwingHandler.book s.states ticker) := by
  constructor
  · intro agree
    obtain ⟨s, run, found⟩ := (ScalpingHandler.machine ℕ ℚ).exists_of_any
      [.onEvent (signalOf "A") 0, .lookUp, .buy true, .insert, .lockExit 0 "A" 90 0, .sell 0 false, .erase 0]
      (fun s => s.Quiescent ∧ ledger "A" s.orders ≠ ScalpingHandler.book s.positions "A") (by decide +kernel)
    obtain ⟨quiet, differ⟩ := of_decide_eq_true found
    exact differ (agree s ⟨_, run⟩ quiet "A")
  · intro agree
    obtain ⟨s, run, found⟩ := (SwingHandler.machine ℚ).exists_of_any
      [.onEvent (closedOf "A") 0 0 fun _ => true, .onEvent (confirmedOf "A") 0 0 fun _ => true,
        .checkExit "A" 90 0 fun _ => false]
      (fun s => ledger "A" (SwingHandler.orders s.history) ≠ SwingHandler.book s.states "A")
      (by decide +kernel)
    exact of_decide_eq_true found (agree s ⟨_, run⟩ "A")

end StockAnomaly.Events

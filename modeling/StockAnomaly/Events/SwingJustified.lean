import Mathlib.Algebra.Field.Rat
import Mathlib.Algebra.Order.Ring.Rat
import StockAnomaly.Events.SwingHandler

/-!
# No buy without full justification

What a buy of the swing handler has behind it, told by the history of the run and not by the
fields of the state: the last accepted candle of the ticker is the one the signal names,
nothing disarmed the ticker since, and the clock moved by at most the armed window
(**`buys_fully_justified`**). The clock readings are arbitrary, so nothing is said about
their order.
-/

namespace StockAnomaly.Events.SwingHandler

open StockAnomaly.Theory

variable {K : Type*}

/-- What one entry of a history does to the arming of a ticker: the close time of the candle
and the clock reading. -/
def arming (ticker : Ticker) (previous : Option (ℤ × ℤ)) (entry : SwingOp K × Outcome K) : Option (ℤ × ℤ) :=
  if entry.1.ticker = ticker then
    match entry with
    | (.onEvent event nowMs _ _, .armed) => some (event.candleCloseTimeMs, nowMs)
    | (_, .disarmed _) => none
    | _ => previous
  else previous

/-- The last accepted candle of a ticker and when it was accepted, if nothing disarmed the
ticker since. -/
def lastArming (ticker : Ticker) (history : List (SwingOp K × Outcome K)) : Option (ℤ × ℤ) :=
  history.foldl (arming ticker) none

theorem lastArming_snoc (ticker : Ticker) (history : List (SwingOp K × Outcome K))
    (entry : SwingOp K × Outcome K) :
    lastArming ticker (history ++ [entry]) = arming ticker (lastArming ticker history) entry := by
  rw [lastArming, List.foldl_append]
  rfl

theorem arming_other {ticker : Ticker} {previous : Option (ℤ × ℤ)} {entry : SwingOp K × Outcome K}
    (other : entry.1.ticker ≠ ticker) : arming ticker previous entry = previous := if_neg other

variable [Field K] [LinearOrder K]

/-- What the state of a ticker says about the history. -/
structure Recorded (ticker : Ticker) (ts : Option (TickerState K)) (history : List (SwingOp K × Outcome K)) :
    Prop where
  lastArmed : ∀ t, ts = some t → t.state = .armed →
    lastArming ticker history = some (t.candleCloseTimeMs, t.armedAtMs)
  idle : ∀ t, ts = some t → t.inPosition = true → t.state = .idle

omit [Field K] [LinearOrder K] in
/-- A ticker that went back to idle. -/
theorem Recorded.of_idle {ticker : Ticker} {t : TickerState K} {history : List (SwingOp K × Outcome K)}
    (idle : t.state = .idle) : Recorded ticker (some t) history where
  lastArmed := by
    rintro _ ⟨⟩ armed
    rw [idle] at armed
    cases armed
  idle := by
    rintro _ ⟨⟩ -
    exact idle

omit [Field K] [LinearOrder K] in
/-- The entries that leave the arming alone. -/
theorem Recorded.snoc {ticker : Ticker} {ts : Option (TickerState K)} {history : List (SwingOp K × Outcome K)}
    (h : Recorded ticker ts history) {entry : SwingOp K × Outcome K}
    (same : arming ticker (lastArming ticker history) entry = lastArming ticker history) :
    Recorded ticker ts (history ++ [entry]) where
  lastArmed := by
    rw [lastArming_snoc, same]
    exact h.lastArmed
  idle := h.idle

theorem Recorded.reachable {s : SwingRun K} (reach : (machine K).Reachable s) (ticker : Ticker) :
    Recorded ticker (s.states ticker) s.history := by
  refine reachable_induct ticker (I := Recorded ticker) ?_ ?_ ?_ reach
  · constructor <;> rintro _ ⟨⟩
  · intro op before after outcome history own inv step
    cases step with
    | ignored => exact inv.snoc (by simp [arming])
    | @armed event nowMs _ _ _ closed free =>
      constructor
      · rintro _ ⟨⟩ -
        rw [lastArming_snoc, arming, if_pos own]
      · rintro _ ⟨⟩ held
        rw [free] at held
        cases held
    | windowExpired | noConviction | ttlExpired => exact .of_idle rfl
    | bought => exact .of_idle rfl
    | buyRejected => exact inv.snoc (by simp [arming])
    | @sold _ _ _ _ t held => exact .of_idle (inv.idle t rfl held)
  · intro op theirs after outcome history before other inv step
    refine inv.snoc ?_
    exact arming_other other

/-- An accepted buy of `ticker` is in the history, and no candle was accepted after it. -/
def BoughtSince (ticker : Ticker) (history : List (SwingOp K × Outcome K)) : Prop :=
  ∃ before op o after, history = before ++ (op, .submitted o) :: after ∧ o.request.ticker = ticker ∧
    o.request.side = .buy ∧ o.accepted = true ∧
    ∀ entry ∈ after, ¬ (entry.1.ticker = ticker ∧ entry.2 = .armed)

omit [Field K] [LinearOrder K] in
/-- The last entry either is the buy itself or comes after it. -/
theorem boughtSince_snoc {ticker : Ticker} {history : List (SwingOp K × Outcome K)}
    {entry : SwingOp K × Outcome K} (bought : BoughtSince ticker (history ++ [entry])) :
    (∃ o, entry.2 = .submitted o ∧ o.request.ticker = ticker ∧ o.request.side = .buy ∧ o.accepted = true) ∨
      BoughtSince ticker history ∧ ¬ (entry.1.ticker = ticker ∧ entry.2 = .armed) := by
  obtain ⟨before, op, o, after, split, own, buy, accepted, none_armed⟩ := bought
  rcases split_snoc split with ⟨rfl, -⟩ | ⟨rest, rfl, inside⟩
  · exact .inl ⟨o, rfl, own, buy, accepted⟩
  · exact .inr ⟨⟨before, op, o, rest, inside, own, buy, accepted,
      fun e mem => none_armed e (List.mem_append_left _ mem)⟩, none_armed _ (by simp)⟩

/-- After an accepted buy a ticker is not armed until the next accepted candle. -/
theorem idle_of_boughtSince {s : SwingRun K} (reach : (machine K).Reachable s) {ticker : Ticker}
    (bought : BoughtSince ticker s.history) : ∀ t, s.states ticker = some t → t.state = .idle := by
  refine reachable_induct ticker (I := fun ts history =>
    BoughtSince ticker history → ∀ t, ts = some t → t.state = .idle) ?_ ?_ ?_ reach bought
  · rintro ⟨before, op, o, after, split, -⟩
    simp at split
  · intro op before after outcome history own inv step bought
    cases boughtSince_snoc bought with
    | inl here =>
      obtain ⟨o, submitted, -, buy, accepted⟩ := here
      cases step with
      | ignored | armed | windowExpired | noConviction | ttlExpired => cases submitted
      | bought => rintro _ ⟨⟩; rfl
      | buyRejected =>
        cases submitted
        cases accepted
      | sold =>
        cases submitted
        cases buy
    | inr earlier =>
      obtain ⟨bought, not_armed⟩ := earlier
      have idle := inv bought
      cases step with
      | ignored => exact idle
      | armed => exact absurd ⟨own, rfl⟩ not_armed
      | windowExpired | noConviction | ttlExpired | bought => rintro _ ⟨⟩; rfl
      | buyRejected => exact idle
      | @sold _ _ _ _ t => rintro _ ⟨⟩; exact idle t rfl
  · intro op theirs after outcome history before other inv step bought
    cases boughtSince_snoc bought with
    | inl here =>
      obtain ⟨o, submitted, own, -⟩ := here
      dsimp only at submitted
      subst submitted
      rw [step.order_ticker] at own
      exact absurd own other
    | inr earlier => exact inv earlier.1

/-- The operation is an AI signal with everything that a buy of `ticker` needs. -/
def FullyJustified (s : SwingRun K) (ticker : Ticker) (op : SwingOp K) : Prop :=
  ∃ event nowMs entryMs executor, op = .onEvent event nowMs entryMs executor ∧
    event.state = .aiConfirmed ∧ event.ticker = ticker ∧
    event.aiSignal.direction = "BUY_READY" ∧ kMinBullProb ≤ event.aiSignal.bullProbability ∧
    (∀ t, s.states ticker = some t → t.inPosition = false) ∧
    ∃ armedAtMs, lastArming ticker s.history = some (event.aiSignal.candleCloseTime, armedAtMs) ∧
      nowMs - armedAtMs ≤ kArmedTTLMs

/-- **No buy without full justification**, at every point of every run: a submitted buy is
fully justified; after an accepted buy no further buy of the ticker is submitted until a
candle of it is accepted again; a ticker in position is idle; and an operation on one
ticker leaves the others alone. -/
theorem buys_fully_justified {s : SwingRun K} (reach : (machine K).Reachable s) :
    (∀ op o, (apply s.states op).2 = .submitted o → o.request.side = .buy →
      FullyJustified s o.request.ticker op) ∧
    (∀ ticker, BoughtSince ticker s.history → ∀ op o, (apply s.states op).2 = .submitted o →
      o.request.side = .buy → o.request.ticker ≠ ticker) ∧
    (∀ ticker t, s.states ticker = some t → t.inPosition = true → t.state = .idle) ∧
    (∀ op ticker, ticker ≠ op.ticker → (apply s.states op).1 ticker = s.states ticker) := by
  refine ⟨?_, ?_, ?_, ?_⟩
  · intro op o submitted buy
    have step := apply_transition s.states op
    rw [submitted] at step
    obtain ⟨event, nowMs, entryMs, executor, t, rfl, found, justified⟩ := step.justified buy
    have recorded := (Recorded.reachable reach event.ticker).lastArmed t found justified.armed
    rw [← justified.matched] at recorded
    rw [step.order_ticker]
    refine ⟨event, nowMs, entryMs, executor, rfl, justified.confirmed, rfl, justified.direction,
      justified.conviction, ?_, t.armedAtMs, recorded, justified.inTime⟩
    intro t' found'
    obtain rfl : t = t' := Option.some.inj (found.symm.trans found')
    exact justified.free
  · rintro ticker bought op o submitted buy rfl
    have step := apply_transition s.states op
    rw [submitted] at step
    obtain ⟨event, nowMs, entryMs, executor, t, rfl, found, justified⟩ := step.justified buy
    rw [step.order_ticker] at bought
    have idle := idle_of_boughtSince reach bought t found
    rw [justified.armed] at idle
    cases idle
  · intro ticker t
    exact (Recorded.reachable reach ticker).idle t
  · intro op ticker
    exact apply_other

/-- A candle of A is accepted, then its AI signal buys. -/
theorem buys_fully_justified_A :
    ∃ s, (machine ℚ).run [.onEvent ⟨.candleClosed, "A", 100, 100, 100, 100, 1, 900000, 15,
        ⟨0, 0, "", 0⟩, 900000⟩ 5 0 fun _ => true] = some s ∧
      FullyJustified s "A" (.onEvent ⟨.aiConfirmed, "A", 0, 0, 0, 100, 0, 0, 0,
        ⟨7 / 10, 1 / 10, "BUY_READY", 900000⟩, 0⟩ 300005 300006 fun _ => true) := by
  obtain ⟨s, run, found⟩ := (machine ℚ).exists_of_any
    [.onEvent ⟨.candleClosed, "A", 100, 100, 100, 100, 1, 900000, 15, ⟨0, 0, "", 0⟩, 900000⟩ 5 0 fun _ => true]
    (fun s => (apply s.states (.onEvent ⟨.aiConfirmed, "A", 0, 0, 0, 100, 0, 0, 0,
      ⟨7 / 10, 1 / 10, "BUY_READY", 900000⟩, 0⟩ 300005 300006 fun _ => true)).2 =
        .submitted ⟨⟨"A", 100, 50, .buy⟩, true⟩) (by decide +kernel)
  exact ⟨s, run, (buys_fully_justified ⟨_, run⟩).1 _ _ (of_decide_eq_true found) rfl⟩

end StockAnomaly.Events.SwingHandler

import StockAnomaly.Aggregation.Candle
import StockAnomaly.Aggregation.ZScore

/-!
# The scalping path

`scalping_drain_loop` takes one tick after another from the queue, feeds the statistics of
its ticker and emits at most one signal. The order-triggering tier asks for a z-score of 5
against a window of 20 values that contains the value itself; no such z-score exceeds
`19 / √20`, about 4.25, so the tier is never reached: **`not_highTierLive`**.
-/

namespace StockAnomaly.Aggregation

open StockAnomaly.Theory

variable {K : Type*} [Field K] [LinearOrder K]

/-- 5σ: HIGH, triggers an order. -/
def kScalpingZScoreThreshold : K := 5

/-- Percent. -/
def kScalpingPriceChangeThresh : K := 3

/-- 3σ: MEDIUM, alert only. -/
def kAlertMediumZThreshold : K := 3

/-- Percent. -/
def kAlertMediumPriceThresh : K := 3 / 2

/-- 2σ: LOW, volume anomaly. -/
def kAlertLowZThreshold : K := 2

namespace Scalping

/-- The per-ticker statistics of the drain thread; a ticker not met yet has fresh ones. -/
abbrev Stats (K : Type*) := Ticker → ZScoreCalculator K 20 × PriceChangeTracker K 20

def Stats.zero : Stats K := fun _ => (ZScoreCalculator.zero, PriceChangeTracker.zero)

/-- The tier of a z-score and a price change. -/
def tier (z pct : K) : Option SignalType :=
  let absPct := if pct < 0 then -pct else pct
  if kScalpingZScoreThreshold ≤ z ∧ kScalpingPriceChangeThresh ≤ absPct then some .scalping
  else if kAlertMediumZThreshold ≤ z ∧ kAlertMediumPriceThresh ≤ absPct then some .alertMedium
  else if kAlertLowZThreshold ≤ z then some .alertLow
  else none

variable [Sqrt K]

/-- The body of `scalping_drain_loop` for one popped tick. -/
def drainTick (stats : Stats K) (tick : Tick K) : Stats K × Option (AggregatorSignal K) :=
  let (zscoreCalc, priceTracker) := stats tick.ticker
  let (z, zscoreCalc) := zscoreCalc.push tick.volume
  let (pct, priceTracker) := priceTracker.push tick.price
  (Function.update stats tick.ticker (zscoreCalc, priceTracker),
    if zscoreCalc.warmedUp then
      (tier z pct).map fun type =>
        { type, ticker := tick.ticker, zscore := z, priceChangePct := pct,
          candle := { Candle.zero with close := tick.price }, timestampMs := tick.timestampMs }
    else none)

/-- The statistics after a history of drained ticks. -/
def statsAfter (history : List (Tick K)) : Stats K :=
  history.foldl (fun stats tick => (drainTick stats tick).1) Stats.zero

theorem drainTick_stats (stats : Stats K) (tick : Tick K) :
    (drainTick stats tick).1 tick.ticker =
      (((stats tick.ticker).1.push tick.volume).2, ((stats tick.ticker).2.push tick.price).2) :=
  Function.update_self ..

/-- A drained tick leaves the statistics of the other tickers alone. -/
theorem drainTick_other {stats : Stats K} {tick : Tick K} {ticker : Ticker} (other : ticker ≠ tick.ticker) :
    (drainTick stats tick).1 ticker = stats ticker :=
  Function.update_of_ne other ..

/-- Where a scalping signal comes from. -/
theorem drainTick_scalping {stats : Stats K} {tick : Tick K} {sig : AggregatorSignal K}
    (emitted : (drainTick stats tick).2 = some sig) (scalping : sig.type = .scalping) :
    20 ≤ (stats tick.ticker).1.count + 1 ∧
      kScalpingZScoreThreshold ≤ ((stats tick.ticker).1.push tick.volume).1 := by
  simp only [drainTick] at emitted
  split at emitted
  case isFalse => cases emitted
  case isTrue warm =>
    obtain ⟨type, reached, rfl⟩ := Option.map_eq_some_iff.1 emitted
    constructor
    · simpa [ZScoreCalculator.warmedUp, ZScoreCalculator.push, ZScoreCalculator.observe_count] using warm
    · simp only at scalping
      subst scalping
      by_contra low
      unfold tier at reached
      rw [if_neg fun both => low both.1] at reached
      grind

section Dead

/-- The drain thread keeps the statistics of every ticker exact. -/
theorem statsAfter_inv (history : List (Tick ℝ)) (ticker : Ticker) :
    (statsAfter history ticker).1.ZScoreInv := by
  induction history using List.reverseRecOn with
  | nil => exact ZScoreCalculator.ZScoreInv.zero
  | append_singleton history tick ih =>
    rw [statsAfter, List.foldl_append, List.foldl_cons, List.foldl_nil]
    change ((drainTick (statsAfter history) tick).1 ticker).1.ZScoreInv
    by_cases same : ticker = tick.ticker
    · subst same
      rw [drainTick_stats]
      exact ih.observe tick.volume
    · rw [drainTick_other same]
      exact ih

/-- With exact statistics no tick reaches the order-triggering tier. -/
theorem drainTick_ne_scalping {stats : Stats ℝ} {tick : Tick ℝ}
    (inv : (stats tick.ticker).1.ZScoreInv) {sig : AggregatorSignal ℝ}
    (emitted : (drainTick stats tick).2 = some sig) : sig.type ≠ .scalping := by
  intro scalping
  obtain ⟨warm, high⟩ := drainTick_scalping emitted scalping
  have bound := inv.push_sq_mul_le tick.volume
  rw [Nat.min_eq_right warm] at bound
  generalize ((stats tick.ticker).1.push tick.volume).1 = z at high bound
  have five : 5 ≤ z := high
  norm_num at bound
  nlinarith

/-- Some next tick of the ticker emits a signal of the order-triggering tier. -/
def HighTierLive (history : List (Tick ℝ)) (ticker : Ticker) : Prop :=
  ∃ tick : Tick ℝ, tick.ticker = ticker ∧
    ∃ sig, (drainTick (statsAfter history) tick).2 = some sig ∧ sig.type = .scalping

/-- **The order-triggering tier is dead**: after every history, of any length, prices and
volumes, no next tick of any ticker emits a scalping signal. -/
theorem not_highTierLive (history : List (Tick ℝ)) (ticker : Ticker) :
    ¬ HighTierLive history ticker := by
  rintro ⟨tick, -, sig, emitted, scalping⟩
  exact drainTick_ne_scalping (statsAfter_inv history tick.ticker) emitted scalping

/-- Twenty ticks at price 100 and volume 10: no next tick, however large its volume and
its price, is HIGH. -/
theorem highTier_dead_after_twenty :
    ¬ ∀ (history : List (Tick ℝ)) (ticker : Ticker),
      20 ≤ (history.filter (·.ticker = ticker)).length →
      (∀ tick ∈ history, 0 < tick.price ∧ 0 ≤ tick.volume) → HighTierLive history ticker := by
  intro live
  obtain ⟨tick, -, sig, emitted, scalping⟩ :=
    live (List.replicate 20 ⟨"005930", 100, 10, 0⟩) "005930" (by simp)
      (fun tick mem => by
        rw [List.eq_of_mem_replicate mem]
        norm_num)
  exact drainTick_ne_scalping (statsAfter_inv _ tick.ticker) emitted scalping

end Dead

end Scalping

end StockAnomaly.Aggregation

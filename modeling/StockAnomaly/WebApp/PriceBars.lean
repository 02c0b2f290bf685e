import Mathlib.Algebra.Ring.Int.Defs
import Mathlib.Order.MinMax
import StockAnomaly.Theory.CivilDate
import StockAnomaly.Theory.Machine
import StockAnomaly.Theory.TimeSeries

/-!
# The bars of the price chart

`applyTick` puts a live tick into the last bar or opens a new one, by comparing time keys: the
minute for `1m`, the KST date for all other intervals. For `1w` and `1M` the date is not
the period, so that a tick on another day of the last bar's week or month opens a bar of its
own. **`one_bar_per_period_iff`** says exactly when ticks keep one bar per period.
-/

namespace StockAnomaly.WebApp

open StockAnomaly.Theory

/-- `"1m" | "1d" | "1w" | "1M"`. -/
inductive ChartInterval
  | minute
  | day
  | week
  | month
deriving DecidableEq

structure OhlcvPoint (K : Type*) where
  time : ℤ
  «open» : K
  high : K
  low : K
  close : K
  volume : K
deriving DecidableEq

structure Tick (K : Type*) where
  price : K
  timestamp : ℤ
deriving DecidableEq

/-- What `applyTick` compares: a date or the start of a minute in seconds. -/
inductive TimeKey
  | date (s : String)
  | seconds (n : ℤ)
deriving DecidableEq

/-- `timeKey < lastTimeKey`. -/
def TimeKey.lt : TimeKey → TimeKey → Bool
  | .date s, .date t => s < t
  | .seconds m, .seconds n => m < n
  | _, _ => false

/-- A key as a condition. -/
def TimeKey.truthy : TimeKey → Bool
  | .date s => s ≠ ""
  | .seconds n => n ≠ 0

/-- The KST day of an instant in milliseconds. -/
def kstDay (ms : ℤ) : ℤ := (ms + 9 * 60 * 60 * 1000) / 86400000

/-- A number below `10000000000` is taken for seconds, any other for milliseconds. -/
def toMs (timestamp : ℤ) : ℤ := if timestamp < 10000000000 then timestamp * 1000 else timestamp

/-- An instant outside the range of `Date` has no numbers. -/
def getKstDateString (timestamp : ℤ) : String :=
  let ms := toMs timestamp + 9 * 60 * 60 * 1000
  if -8640000000000000 ≤ ms ∧ ms ≤ 8640000000000000 then
    CivilDate.dateString (CivilDate.ofDay (kstDay (toMs timestamp)))
  else "NaN-NaN-NaN"

namespace ChartInterval

def isDaily : ChartInterval → Bool
  | .minute => false
  | _ => true

def timeKey (interval : ChartInterval) (timestamp : ℤ) : TimeKey :=
  if interval.isDaily then .date (getKstDateString timestamp) else .seconds (timestamp / 60000 * 60)

def lastTimeKey {K : Type*} (interval : ChartInterval) (lastPoint : OhlcvPoint K) : TimeKey :=
  if interval.isDaily then .date (getKstDateString lastPoint.time) else .seconds (lastPoint.time / 60 * 60)

end ChartInterval

section Bars

variable {K : Type*} [LinearOrder K]

/-- The tick goes into the bar. -/
def OhlcvPoint.update (p : OhlcvPoint K) (price : K) : OhlcvPoint K :=
  { p with high := max p.high price, low := min p.low price, close := price }

variable [Zero K]

def newPoint (interval : ChartInterval) (tick : Tick K) : OhlcvPoint K where
  time := if interval.isDaily then tick.timestamp / 1000 else tick.timestamp / 60000 * 60
  «open» := tick.price
  high := tick.price
  low := tick.price
  close := tick.price
  volume := 0

/-- The tick is older than the last point and is dropped. -/
def older (interval : ChartInterval) (lastPoint : OhlcvPoint K) (tick : Tick K) : Bool :=
  (interval.lastTimeKey lastPoint).truthy &&
    (interval.timeKey tick.timestamp).lt (interval.lastTimeKey lastPoint)

/-- The function that `applyTick` passes to `setOhlcvData`. -/
def applyTick (interval : ChartInterval) (tick : Tick K) (prev : List (OhlcvPoint K)) : List (OhlcvPoint K) :=
  match prev.getLast? with
  | none => prev ++ [newPoint interval tick]
  | some lastPoint =>
    if older interval lastPoint tick then prev
    else if interval.lastTimeKey lastPoint = interval.timeKey tick.timestamp then
      prev.dropLast ++ [lastPoint.update tick.price]
    else prev ++ [newPoint interval tick]

end Bars

namespace ChartInterval

/-- The number of the period an instant is in: its minute, KST day, KST week from Monday on, or
KST month. -/
def period : ChartInterval → ℤ → ℤ
  | .minute, ms => ms / 60000
  | .day, ms => kstDay ms
  | .week, ms => (kstDay ms + 3) / 7
  | .month, ms => (CivilDate.ofDay (kstDay ms)).year * 12 + (CivilDate.ofDay (kstDay ms)).month

theorem kstDay_mono {a b : ℤ} (le : a ≤ b) : kstDay a ≤ kstDay b := by
  unfold kstDay
  omega

/-- The periods of the daily intervals follow the days. -/
theorem period_le_of_kstDay {interval : ChartInterval} {a b : ℤ} (daily : interval.isDaily)
    (days : kstDay a ≤ kstDay b) : interval.period a ≤ interval.period b := by
  cases interval with
  | minute => cases daily
  | day => exact days
  | week =>
    simp only [period]
    omega
  | month =>
    rcases days.lt_or_eq with lt | eq
    · have dates := CivilDate.ordinal_lt lt
      have month_a := CivilDate.ofDay_spec (kstDay a)
      have month_b := CivilDate.ofDay_spec (kstDay b)
      simp only [CivilDate.ordinal] at dates
      simp only [period]
      omega
    · simp only [period, eq, le_refl]

theorem period_mono (interval : ChartInterval) {a b : ℤ} (le : a ≤ b) :
    interval.period a ≤ interval.period b := by
  cases interval with
  | minute =>
    simp only [period]
    omega
  | day | week | month => exact period_le_of_kstDay rfl (kstDay_mono le)

end ChartInterval

section Days

variable {K : Type} {interval : ChartInterval} {last : OhlcvPoint K} {tick : Tick K}

/-- A time in seconds that `getKstDateString` takes for one. -/
def PlainTime (time : ℤ) : Prop := 0 ≤ time ∧ time < 10000000000

/-- A timestamp in milliseconds that `getKstDateString` takes for one, whose second is plain. -/
def PlainStamp (timestamp : ℤ) : Prop := 10000000000 ≤ timestamp ∧ timestamp < 10000000000000

instance (time : ℤ) : Decidable (PlainTime time) := inferInstanceAs (Decidable (_ ∧ _))

instance (timestamp : ℤ) : Decidable (PlainStamp timestamp) := inferInstanceAs (Decidable (_ ∧ _))

theorem getKstDateString_of_toMs {timestamp ms : ℤ} (eq : toMs timestamp = ms) (low : 0 ≤ ms)
    (high : ms < 10000000000000) :
    getKstDateString timestamp = CivilDate.dateString (CivilDate.ofDay (kstDay ms)) := by
  rw [getKstDateString, eq]
  exact if_pos (by omega)

theorem PlainTime.getKstDateString {time : ℤ} (plain : PlainTime time) :
    getKstDateString time = CivilDate.dateString (CivilDate.ofDay (kstDay (time * 1000))) := by
  obtain ⟨low, high⟩ := plain
  exact getKstDateString_of_toMs (if_pos high) (by omega) (by omega)

theorem PlainStamp.getKstDateString {timestamp : ℤ} (plain : PlainStamp timestamp) :
    getKstDateString timestamp = CivilDate.dateString (CivilDate.ofDay (kstDay timestamp)) := by
  obtain ⟨low, high⟩ := plain
  exact getKstDateString_of_toMs (if_neg (by omega)) (by omega) high

theorem inRange_kstDay {ms : ℤ} (low : 0 ≤ ms) (high : ms < 10000000000000) : CivilDate.InRange (kstDay ms) := by
  unfold CivilDate.InRange CivilDate.dayFromYear kstDay
  omega

theorem PlainTime.inRange {time : ℤ} (plain : PlainTime time) : CivilDate.InRange (kstDay (time * 1000)) := by
  obtain ⟨low, high⟩ := plain
  exact inRange_kstDay (by omega) (by omega)

theorem PlainStamp.inRange {timestamp : ℤ} (plain : PlainStamp timestamp) : CivilDate.InRange (kstDay timestamp) := by
  obtain ⟨low, high⟩ := plain
  exact inRange_kstDay (by omega) (by omega)

/-- The keys of `1d`, `1w` and `1M` are those of the KST days. -/
theorem dailyKey_eq_iff (daily : interval.isDaily) (time : PlainTime last.time) (stamp : PlainStamp tick.timestamp) :
    interval.lastTimeKey last = interval.timeKey tick.timestamp ↔
      kstDay (last.time * 1000) = kstDay tick.timestamp := by
  simp only [ChartInterval.lastTimeKey, ChartInterval.timeKey, daily, if_true, TimeKey.date.injEq,
    time.getKstDateString, stamp.getKstDateString]
  exact CivilDate.dateString_ofDay_inj time.inRange stamp.inRange

theorem daily_older_iff (daily : interval.isDaily) (time : PlainTime last.time) (stamp : PlainStamp tick.timestamp) :
    older interval last tick ↔ kstDay tick.timestamp < kstDay (last.time * 1000) := by
  simp only [older, ChartInterval.lastTimeKey, ChartInterval.timeKey, daily, if_true, TimeKey.truthy, TimeKey.lt,
    time.getKstDateString, stamp.getKstDateString, Bool.and_eq_true, decide_eq_true_eq]
  rw [← CivilDate.dateString_ofDay_lt_iff stamp.inRange time.inRange]
  refine and_iff_right_of_imp fun lt empty => ?_
  rw [empty, String.lt_iff_toList_lt] at lt
  exact List.not_lt_nil _ lt

end Days

section Periods

variable {K : Type}

/-- The period of a bar, whose time is in seconds. -/
def barPeriod (interval : ChartInterval) (bar : OhlcvPoint K) : ℤ := interval.period (bar.time * 1000)

/-- Sorted by time with at most one bar per period. -/
def OneBarPerPeriod (interval : ChartInterval) (bars : List (OhlcvPoint K)) : Prop :=
  bars.Pairwise fun a b => a.time < b.time ∧ barPeriod interval a ≠ barPeriod interval b

variable {interval : ChartInterval} {bars front : List (OhlcvPoint K)} {last bar : OhlcvPoint K} {tick : Tick K}

/-- A bar of a later period than the last one comes after all bars. -/
theorem oneBarPerPeriod_snoc (good : OneBarPerPeriod interval (front ++ [last]))
    (later : barPeriod interval last < barPeriod interval bar) :
    OneBarPerPeriod interval (front ++ [last] ++ [bar]) := by
  refine List.pairwise_append.2 ⟨good, List.pairwise_singleton _ _, ?_⟩
  have sorted : TimeSeries.Increasing OhlcvPoint.time (front ++ [last]) := good.imp And.left
  intro old mem new self
  obtain rfl := List.mem_singleton.1 self
  have le : old.time ≤ last.time := TimeSeries.le_getLast sorted (List.getLast?_concat ..) mem
  have period_le : barPeriod interval old ≤ barPeriod interval last := ChartInterval.period_mono interval (by omega)
  refine ⟨?_, by omega⟩
  by_contra early
  have : barPeriod interval new ≤ barPeriod interval old := ChartInterval.period_mono interval (by omega)
  omega

variable [LinearOrder K]

/-- The tick would not change the bar. -/
def Fits (bar : OhlcvPoint K) (price : K) : Prop := bar.low ≤ price ∧ price ≤ bar.high ∧ bar.close = price

instance (bar : OhlcvPoint K) (price : K) : Decidable (Fits bar price) :=
  inferInstanceAs (Decidable (_ ∧ _))

theorem update_eq_self_iff {price : K} : last.update price = last ↔ Fits last price := by
  obtain ⟨time, op, high, low, close, volume⟩ := last
  simp only [OhlcvPoint.update, Fits, OhlcvPoint.mk.injEq, max_eq_left_iff, min_eq_left_iff, true_and, and_true]
  constructor
  · rintro ⟨high, low, rfl⟩
    exact ⟨low, high, rfl⟩
  · rintro ⟨low, high, rfl⟩
    exact ⟨high, low, rfl⟩

/-- An update keeps the time of the bar, so that the others need not be looked at. -/
theorem oneBarPerPeriod_update {price : K} :
    OneBarPerPeriod interval (front ++ [last.update price]) ↔ OneBarPerPeriod interval (front ++ [last]) := by
  simp only [OneBarPerPeriod, List.pairwise_append, List.mem_singleton, forall_eq, List.pairwise_singleton]
  rfl

/-- The keys tell the periods apart: a tick has the key of the last bar exactly if it is in its
period, and is not dropped as older unless it would not change the bar. -/
def KeysAgree (interval : ChartInterval) (bars : List (OhlcvPoint K)) (tick : Tick K) : Prop :=
  ∀ last ∈ bars.getLast?,
    if older interval last tick then
      barPeriod interval last = interval.period tick.timestamp ∧ Fits last tick.price
    else interval.lastTimeKey last = interval.timeKey tick.timestamp ↔
      barPeriod interval last = interval.period tick.timestamp

instance (interval : ChartInterval) (bars : List (OhlcvPoint K)) (tick : Tick K) :
    Decidable (KeysAgree interval bars tick) :=
  inferInstanceAs (Decidable (∀ last ∈ bars.getLast?, if older interval last tick then _ else _))

/-- The minutes agree, whatever the units. -/
theorem keysAgree_minute (later : barPeriod .minute last ≤ ChartInterval.period .minute tick.timestamp) :
    KeysAgree .minute (front ++ [last]) tick := by
  intro bar ends
  obtain rfl : last = bar := by simpa using ends
  simp only [barPeriod, ChartInterval.period] at later ⊢
  have young : older .minute last tick = false := by
    simp only [older, ChartInterval.lastTimeKey, ChartInterval.timeKey, ChartInterval.isDaily, Bool.false_eq_true,
      if_false, TimeKey.lt, Bool.and_eq_false_iff, decide_eq_false_iff_not]
    omega
  simp only [young, Bool.false_eq_true, if_false, ChartInterval.lastTimeKey, ChartInterval.timeKey,
    ChartInterval.isDaily, TimeKey.seconds.injEq]
  omega

/-- **In plain units, the keys of a daily interval agree unless the tick comes in the last
bar's period on another day.** -/
theorem keysAgree_daily_iff (daily : interval.isDaily) (time : PlainTime last.time)
    (stamp : PlainStamp tick.timestamp) (later : barPeriod interval last ≤ interval.period tick.timestamp) :
    KeysAgree interval (front ++ [last]) tick ↔
      (barPeriod interval last = interval.period tick.timestamp → kstDay (last.time * 1000) = kstDay tick.timestamp ∨
        kstDay tick.timestamp < kstDay (last.time * 1000) ∧ Fits last tick.price) := by
  simp only [KeysAgree, List.getLast?_concat, Option.mem_def, Option.some.injEq, forall_eq',
    daily_older_iff daily time stamp, dailyKey_eq_iff daily time stamp]
  by_cases same : barPeriod interval last = interval.period tick.timestamp
  · split_ifs with old
    · simp only [same, old, old.ne', true_and, false_or, forall_const]
    · simp only [same, old, iff_true, false_and, or_false, forall_const]
  · have next_day : kstDay (last.time * 1000) < kstDay tick.timestamp := by
      by_contra back
      exact same (later.antisymm (ChartInterval.period_le_of_kstDay daily (not_lt.1 back)))
    simp only [same, next_day.not_gt, next_day.ne, if_false, false_imp_iff]

/-- In plain units, the keys of `1m` and `1d` always agree. -/
theorem keysAgree_of_fine (fine : interval = .minute ∨ interval = .day) (time : PlainTime last.time)
    (stamp : PlainStamp tick.timestamp) (later : barPeriod interval last ≤ interval.period tick.timestamp) :
    KeysAgree interval (front ++ [last]) tick := by
  obtain rfl | rfl := fine
  · exact keysAgree_minute later
  · exact (keysAgree_daily_iff rfl time stamp later).2 Or.inl

variable [Zero K]

open Machine

/-- A bar that a tick opens in its period. -/
def Opens (interval : ChartInterval) (tick : Tick K) (bar : OhlcvPoint K) : Prop :=
  bar = ⟨bar.time, tick.price, tick.price, tick.price, tick.price, 0⟩ ∧
    barPeriod interval bar = interval.period tick.timestamp

/-- What a tick shall do to the bars. -/
def TickStep (interval : ChartInterval) (tick : Tick K) (bars next : List (OhlcvPoint K)) : Prop :=
  ∀ last ∈ bars.getLast?,
    if barPeriod interval last = interval.period tick.timestamp then
      next = bars.dropLast ++ [last.update tick.price]
    else ∃ bar, next = bars ++ [bar] ∧ Opens interval tick bar

/-- The bars of a chart under live ticks. -/
def chart (interval : ChartInterval) (history : List (OhlcvPoint K)) : Machine (List (OhlcvPoint K)) (Tick K) where
  init := history
  step bars tick := some (applyTick interval tick bars)

/-- A tick does what it shall and leaves one bar per period. -/
def TickOk (interval : ChartInterval) (bars : List (OhlcvPoint K)) (tick : Tick K) : Prop :=
  TickStep interval tick bars (applyTick interval tick bars) ∧ OneBarPerPeriod interval (applyTick interval tick bars)

theorem applyTick_snoc (interval : ChartInterval) (tick : Tick K) (front : List (OhlcvPoint K))
    (last : OhlcvPoint K) : applyTick interval tick (front ++ [last]) =
      if older interval last tick then front ++ [last]
      else if interval.lastTimeKey last = interval.timeKey tick.timestamp then front ++ [last.update tick.price]
      else front ++ [last] ++ [newPoint interval tick] := by
  simp only [applyTick, List.getLast?_concat, List.dropLast_concat]

omit [LinearOrder K] in
theorem opens_newPoint (interval : ChartInterval) (tick : Tick K) :
    Opens interval tick (newPoint interval tick) := by
  refine ⟨rfl, ?_⟩
  cases interval with
  | minute =>
    show tick.timestamp / 60000 * 60 * 1000 / 60000 = tick.timestamp / 60000
    omega
  | day | week | month =>
    have day : kstDay (tick.timestamp / 1000 * 1000) = kstDay tick.timestamp := by
      unfold kstDay
      omega
    simp only [barPeriod, newPoint, ChartInterval.isDaily, if_true, ChartInterval.period, day]

theorem tickStep_snoc (next : List (OhlcvPoint K)) : TickStep interval tick (front ++ [last]) next ↔
    if barPeriod interval last = interval.period tick.timestamp then next = front ++ [last.update tick.price]
    else ∃ bar, next = front ++ [last] ++ [bar] ∧ Opens interval tick bar := by
  simp only [TickStep, List.getLast?_concat, List.dropLast_concat, Option.mem_def, Option.some.injEq, forall_eq']

/-- **One tick.** A tick of the last bar's period or later is put where it belongs exactly if
the keys agree. -/
theorem tickOk_iff (good : OneBarPerPeriod interval (front ++ [last]))
    (later : barPeriod interval last ≤ interval.period tick.timestamp) :
    TickOk interval (front ++ [last]) tick ↔ KeysAgree interval (front ++ [last]) tick := by
  simp only [TickOk, tickStep_snoc, KeysAgree, List.getLast?_concat, Option.mem_def, Option.some.injEq, forall_eq',
    applyTick_snoc]
  by_cases same : barPeriod interval last = interval.period tick.timestamp
  · simp only [same, if_true, true_and, iff_true]
    by_cases old : older interval last tick
    · simp only [old, if_true, good, and_true, ← update_eq_self_iff]
      simp only [List.append_cancel_left_eq, List.cons.injEq, and_true, eq_comm]
    · by_cases key : interval.lastTimeKey last = interval.timeKey tick.timestamp
      · simp only [old, key, if_true, Bool.false_eq_true, if_false, iff_true]
        exact ⟨trivial, oneBarPerPeriod_update.2 good⟩
      · simp [old, key]
  · have opens := opens_newPoint interval tick
    simp only [same, if_false, false_and, iff_false]
    by_cases old : older interval last tick
    · simp [old]
    · by_cases key : interval.lastTimeKey last = interval.timeKey tick.timestamp
      · simp [old, key]
      · simp only [old, key, Bool.false_eq_true, if_false, not_false_eq_true, iff_true]
        refine ⟨⟨_, rfl, opens⟩, oneBarPerPeriod_snoc good ?_⟩
        rw [opens.2]
        omega

/-- The last bar after a tick that is put where it belongs is one of the tick's period. -/
theorem TickOk.ends (ok : TickOk interval (front ++ [last]) tick) :
    ∃ front' last', applyTick interval tick (front ++ [last]) = front' ++ [last'] ∧
      barPeriod interval last' = interval.period tick.timestamp := by
  have step := (tickStep_snoc _).1 ok.1
  split_ifs at step with same
  · exact ⟨_, _, step, same⟩
  · obtain ⟨bar, next, opens⟩ := step
    exact ⟨_, _, next, opens.2⟩

/-- Bars and the ticks still to come: the bars are good, and the ticks are in order from the
period of the last bar on. -/
structure Ahead (interval : ChartInterval) (bars : List (OhlcvPoint K)) (ticks : List (Tick K)) : Prop where
  some_bar : bars ≠ []
  good : OneBarPerPeriod interval bars
  order : ticks.Pairwise fun a b => a.timestamp ≤ b.timestamp
  later : ∀ last ∈ bars.getLast?, ∀ tick ∈ ticks, barPeriod interval last ≤ interval.period tick.timestamp

theorem Ahead.here {ticks : List (Tick K)} (h : Ahead interval bars (tick :: ticks)) :
    TickOk interval bars tick ↔ KeysAgree interval bars tick := by
  obtain ⟨front, last, rfl⟩ := (List.eq_nil_or_concat' bars).resolve_left h.some_bar
  exact tickOk_iff h.good (h.later last (by simp) tick List.mem_cons_self)

theorem Ahead.step {ticks : List (Tick K)} {next : List (OhlcvPoint K)} (h : Ahead interval bars (tick :: ticks))
    (ok : TickOk interval bars tick) (step : applyTick interval tick bars = next) : Ahead interval next ticks := by
  subst step
  obtain ⟨front, last, rfl⟩ := (List.eq_nil_or_concat' bars).resolve_left h.some_bar
  obtain ⟨first, rest⟩ := List.pairwise_cons.1 h.order
  obtain ⟨front', last', next, period⟩ := ok.ends
  refine ⟨?_, ok.2, rest, ?_⟩
  · rw [next]
    exact List.concat_ne_nil last' front'
  · rw [next]
    simp only [List.getLast?_concat, Option.mem_def, Option.some.injEq, forall_eq', period]
    intro tick' mem
    exact ChartInterval.period_mono interval (first tick' mem)

/-- **Live ticks keep one bar per period exactly as long as the keys tell the periods apart.** -/
theorem one_bar_per_period_iff (interval : ChartInterval) {history : List (OhlcvPoint K)} {ticks : List (Tick K)}
    (some_bar : history ≠ []) (good : OneBarPerPeriod interval history)
    (order : ticks.Pairwise fun a b => a.timestamp ≤ b.timestamp)
    (later : ∀ last ∈ history.getLast?, ∀ tick ∈ ticks, barPeriod interval last ≤ interval.period tick.timestamp) :
    (chart interval history).Along (TickOk interval) history ticks ↔
      (chart interval history).Along (KeysAgree interval) history ticks := by
  refine along_congr (I := Ahead interval) ?_ ?_ ⟨some_bar, good, order, later⟩
  · intro bars tick ticks ahead
    exact ahead.here
  · intro bars tick ticks next ahead ok step
    exact ahead.step ok (Option.some.inj step)

/-- The bars of two weeks, the second one from Monday, 2024-01-01. -/
def twoWeeks : List (OhlcvPoint ℤ) := [⟨1703462400, 5, 6, 4, 5, 1⟩, ⟨1704067200, 5, 6, 4, 5, 1⟩]

/-- Ticks of that Monday and of the next two Mondays. -/
def onMondays : List (Tick ℤ) :=
  [⟨7, 1704070800000⟩, ⟨3, 1704081600000⟩, ⟨8, 1704675600000⟩, ⟨9, 1704686400000⟩, ⟨4, 1705280400000⟩]

/-- Each week has its bar. -/
theorem one_bar_per_period_iff_mondays : (chart .week twoWeeks).Along (TickOk .week) twoWeeks onMondays := by
  refine (one_bar_per_period_iff .week (by decide) ?_ (by decide) (by decide +kernel)).2 ?_
  · unfold OneBarPerPeriod
    decide +kernel
  · exact along_of_check (p := fun bars tick => decide (KeysAgree .week bars tick)) (fun _ _ => of_decide_eq_true)
      (by decide +kernel)

/-- Monday's weekly bar and a tick on Tuesday. -/
theorem second_bar_in_a_week : ¬ ∀ (interval : ChartInterval) (history : List (OhlcvPoint ℤ)) (ticks : List (Tick ℤ)),
    history ≠ [] → OneBarPerPeriod interval history →
      (ticks.Pairwise fun a b => a.timestamp ≤ b.timestamp) →
      (∀ last ∈ history.getLast?, ∀ tick ∈ ticks, barPeriod interval last ≤ interval.period tick.timestamp) →
      (chart interval history).Along (TickOk interval) history ticks := by
  intro claim
  have along := claim .week [⟨1704067200, 5, 6, 4, 5, 1⟩] [⟨7, 1704153600000⟩] (by decide)
    (List.pairwise_singleton _ _) (List.pairwise_singleton _ _) (by decide +kernel)
  have one_bar := along.1.2
  revert one_bar
  unfold OneBarPerPeriod
  decide +kernel

/-- The last bar after a tick has the time of the one before it, or of the tick. -/
theorem plain_applyTick (time : PlainTime last.time) (stamp : PlainStamp tick.timestamp) :
    ∀ bar ∈ (applyTick interval tick (front ++ [last])).getLast?, PlainTime bar.time := by
  have plain_new : PlainTime (newPoint interval tick).time := by
    simp only [newPoint, PlainTime, PlainStamp] at stamp ⊢
    split_ifs <;> omega
  rw [applyTick_snoc]
  split_ifs
  · simpa using time
  · simp only [List.getLast?_concat, Option.mem_def, Option.some.injEq, forall_eq']
    exact time
  · simpa using plain_new

/-- **For `1m` and `1d`, live ticks in plain units keep one bar per period.** -/
theorem one_bar_per_period_of_fine (fine : interval = .minute ∨ interval = .day) {ticks : List (Tick K)}
    (ahead : Ahead interval bars ticks) (time : ∀ bar ∈ bars.getLast?, PlainTime bar.time)
    (stamps : ∀ tick ∈ ticks, PlainStamp tick.timestamp) :
    (chart interval bars).Along (TickOk interval) bars ticks := by
  refine (along_congr (Q := fun _ _ => True) (I := fun bars ticks => Ahead interval bars ticks ∧
    (∀ bar ∈ bars.getLast?, PlainTime bar.time) ∧ ∀ tick ∈ ticks, PlainStamp tick.timestamp) ?_ ?_
    ⟨ahead, time, stamps⟩).2 (along_of_forall (fun _ _ => trivial) _ _)
  · rintro bars tick ticks ⟨ahead, time, stamps⟩
    rw [iff_true, ahead.here]
    obtain ⟨front, last, rfl⟩ := (List.eq_nil_or_concat' bars).resolve_left ahead.some_bar
    exact keysAgree_of_fine fine (time last (by simp)) (stamps tick List.mem_cons_self)
      (ahead.later last (by simp) tick List.mem_cons_self)
  · rintro bars tick ticks next ⟨ahead, time, stamps⟩ ok step
    refine ⟨ahead.step ok (Option.some.inj step), ?_, fun tick mem => stamps tick (List.mem_cons_of_mem _ mem)⟩
    obtain rfl := Option.some.inj step
    obtain ⟨front, last, rfl⟩ := (List.eq_nil_or_concat' bars).resolve_left ahead.some_bar
    exact plain_applyTick (time last (by simp)) (stamps tick List.mem_cons_self)

end Periods

end StockAnomaly.WebApp

import Mathlib.Data.Int.Basic
import Mathlib.Tactic.Lift
import Mathlib.Data.String.Basic
import Mathlib.Tactic.SplitIfs

/-!
# Days and dates

Days are counted from 1970-01-01. `ofDay` gives the date of a day in the Gregorian calendar,
by the year rule of ECMAScript, and `dateString` its text `YYYY-MM-DD`. Dates come in
the order of their days (`ordinal_lt`), and so do the texts while the year has four digits
(`dateString_lt_iff`).
-/

namespace StockAnomaly.Theory

structure CivilDate where
  year : ℤ
  month : ℤ
  day : ℤ
deriving DecidableEq

namespace CivilDate

/-- The first day of a year. -/
def dayFromYear (y : ℤ) : ℤ := 365 * (y - 1970) + (y - 1969) / 4 - (y - 1901) / 100 + (y - 1601) / 400

/-- The year of a day. -/
def yearFromDay (day : ℤ) : ℤ :=
  let y := 1970 + day * 400 / 146097
  if day < dayFromYear y then y - 1 else if dayFromYear (y + 1) ≤ day then y + 1 else y

/-- 1 in a leap year. -/
def leap (y : ℤ) : ℤ := dayFromYear (y + 1) - dayFromYear y - 365

/-- The days of the year before a month. -/
def monthStart (leap month : ℤ) : ℤ :=
  if month ≤ 2 then 31 * (month - 1) else 59 + leap + (153 * (month - 3) + 2) / 5

/-- The month of a day of the year. -/
def monthOf (leap n : ℤ) : ℤ :=
  if n < 31 then 1 else if n < 59 + leap then 2 else 3 + (5 * (n - 59 - leap) + 2) / 153

def ofDay (day : ℤ) : CivilDate :=
  let year := yearFromDay day
  let n := day - dayFromYear year
  let month := monthOf (leap year) n
  ⟨year, month, n - monthStart (leap year) month + 1⟩

def toDay (d : CivilDate) : ℤ := dayFromYear d.year + monthStart (leap d.year) d.month + d.day - 1

/-- A number in the order of the dates. -/
def ordinal (d : CivilDate) : ℤ := d.year * 10000 + d.month * 100 + d.day

/-- `s.padStart(n, '0')`. -/
def padStart (n : ℕ) (s : String) : String := String.ofList (s.toList.leftpad n '0')

/-- `YYYY-MM-DD`. -/
def dateString (d : CivilDate) : String :=
  toString d.year ++ "-" ++ padStart 2 (toString d.month) ++ "-" ++ padStart 2 (toString d.day)

theorem yearFromDay_spec (day : ℤ) :
    dayFromYear (yearFromDay day) ≤ day ∧ day < dayFromYear (yearFromDay day + 1) := by
  have low : dayFromYear (1970 + day * 400 / 146097 - 1) ≤ day := by
    unfold dayFromYear
    omega
  have high : day < dayFromYear (1970 + day * 400 / 146097 + 1 + 1) := by
    unfold dayFromYear
    omega
  unfold yearFromDay
  dsimp only
  split_ifs with early late
  · rw [Int.sub_add_cancel]
    exact ⟨low, early⟩
  · exact ⟨late, high⟩
  · exact ⟨not_lt.1 early, not_le.1 late⟩

theorem leap_mem (y : ℤ) : leap y = 0 ∨ leap y = 1 := by
  unfold leap dayFromYear
  omega

theorem dayFromYear_lt {y z : ℤ} (lt : y < z) : dayFromYear (y + 1) ≤ dayFromYear z := by
  unfold dayFromYear
  omega

/-- A day lies in its month, and months have at most 31 days. -/
theorem monthOf_spec {leap n : ℤ} (year : leap = 0 ∨ leap = 1) (nonneg : 0 ≤ n) (lt : n < 365 + leap) :
    1 ≤ monthOf leap n ∧ monthOf leap n ≤ 12 ∧ monthStart leap (monthOf leap n) ≤ n ∧
      n < monthStart leap (monthOf leap n) + 31 := by
  unfold monthOf monthStart
  split_ifs <;> omega

/-- It lies before the next one. -/
theorem lt_monthStart_succ {leap n : ℤ} : n < monthStart leap (monthOf leap n + 1) := by
  unfold monthOf monthStart
  split_ifs <;> omega

theorem monthOf_mono {leap m n : ℤ} (le : m ≤ n) : monthOf leap m ≤ monthOf leap n := by
  unfold monthOf
  split_ifs <;> omega

@[simp] theorem toDay_ofDay (day : ℤ) : toDay (ofDay day) = day := by
  simp only [toDay, ofDay]
  omega

/-- Years follow their days. -/
theorem yearFromDay_mono {a b : ℤ} (le : a ≤ b) : yearFromDay a ≤ yearFromDay b := by
  by_contra back
  have := dayFromYear_lt (not_le.1 back)
  have := yearFromDay_spec a
  have := yearFromDay_spec b
  omega

theorem ofDay_spec (day : ℤ) : 1 ≤ (ofDay day).month ∧ (ofDay day).month ≤ 12 ∧
    1 ≤ (ofDay day).day ∧ (ofDay day).day ≤ 31 := by
  have year := yearFromDay_spec day
  have := @monthOf_spec (leap (yearFromDay day)) (day - dayFromYear (yearFromDay day)) (leap_mem _)
    (by omega) (by rw [leap]; omega)
  simp only [ofDay]
  omega

/-- **Dates come in the order of their days.** -/
theorem ordinal_lt {a b : ℤ} (lt : a < b) : ordinal (ofDay a) < ordinal (ofDay b) := by
  have spec_a := ofDay_spec a
  have spec_b := ofDay_spec b
  have years := yearFromDay_mono lt.le
  rcases years.lt_or_eq with later | same
  · simp only [ordinal]
    have : (ofDay a).year < (ofDay b).year := later
    omega
  · have months : (ofDay a).month ≤ (ofDay b).month := by
      simp only [ofDay, same]
      exact monthOf_mono (by omega)
    have year : (ofDay a).year = (ofDay b).year := same
    have day_a := toDay_ofDay a
    have day_b := toDay_ofDay b
    simp only [toDay, year] at day_a day_b
    simp only [ordinal, year]
    rcases months.lt_or_eq with later | same
    · omega
    · rw [same] at day_a ⊢
      omega

theorem ordinal_lt_iff {a b : ℤ} : ordinal (ofDay a) < ordinal (ofDay b) ↔ a < b := by
  refine ⟨?_, ordinal_lt⟩
  intro lt
  by_contra back
  rcases (not_lt.1 back).lt_or_eq with later | rfl
  · exact absurd (ordinal_lt later) (by omega)
  · omega

theorem toString_natCast (n : ℕ) : toString (n : ℤ) = n.repr := rfl

/-- The characters of a number of two digits, of one digit after padding. -/
theorem toList_padStart {n : ℕ} (lt : n < 100) :
    (padStart 2 (toString (n : ℤ))).toList = [Nat.digitChar (n / 10), Nat.digitChar (n % 10)] := by
  rw [padStart, String.toList_ofList, toString_natCast, Nat.toList_repr]
  rcases Nat.lt_or_ge n 10 with small | large
  · rw [Nat.toDigits_of_lt_base small, Nat.div_eq_of_lt small, Nat.mod_eq_of_lt small]
    rfl
  · rw [Nat.toDigits_of_base_le (by decide) large, Nat.toDigits_of_lt_base (by omega)]
    rfl

/-- The characters of a number of four digits. -/
theorem toList_toString {n : ℕ} (ge : 1000 ≤ n) (lt : n < 10000) : (toString (n : ℤ)).toList =
    [Nat.digitChar (n / 10 / 10 / 10), Nat.digitChar (n / 10 / 10 % 10), Nat.digitChar (n / 10 % 10),
      Nat.digitChar (n % 10)] := by
  rw [toString_natCast, Nat.toList_repr, Nat.toDigits_of_base_le (by decide) (by omega),
    Nat.toDigits_of_base_le (by decide) (by omega), Nat.toDigits_of_base_le (by decide) (by omega),
    Nat.toDigits_of_lt_base (by omega)]
  rfl

theorem digitChar_lt_iff : ∀ i < 10, ∀ j < 10, (Nat.digitChar i < Nat.digitChar j ↔ i < j) := by decide

theorem digitChar_inj : ∀ i < 10, ∀ j < 10, (Nat.digitChar i = Nat.digitChar j ↔ i = j) := by decide

/-- The last digit decides between numbers that agree before it. -/
theorem lex_digit {a b : ℕ} {P : Prop} :
    (a / 10 < b / 10 ∨ a / 10 = b / 10 ∧ (a % 10 < b % 10 ∨ a % 10 = b % 10 ∧ P)) ↔
      a < b ∨ a = b ∧ P := by
  by_cases rest : P
  · simp only [rest, and_true]
    omega
  · simp only [rest, and_false, or_false]
    omega

/-- Dates with four digits for the year and two for month and day. -/
def FourDigits (d : CivilDate) : Prop :=
  (1000 ≤ d.year ∧ d.year < 10000) ∧ (0 ≤ d.month ∧ d.month < 100) ∧ 0 ≤ d.day ∧ d.day < 100

/-- **The texts of such dates are in the order of the dates.** -/
theorem dateString_lt_iff {c d : CivilDate} (hc : FourDigits c) (hd : FourDigits d) :
    dateString c < dateString d ↔ ordinal c < ordinal d := by
  obtain ⟨y, m, n⟩ := c
  obtain ⟨y', m', n'⟩ := d
  simp only [FourDigits] at hc hd
  lift y to ℕ using (by omega)
  lift m to ℕ using (by omega)
  lift n to ℕ using (by omega)
  lift y' to ℕ using (by omega)
  lift m' to ℕ using (by omega)
  lift n' to ℕ using (by omega)
  have dash : "-".toList = ['-'] := by decide
  simp only [String.lt_iff_toList_lt, dateString, String.toList_append, dash]
  rw [toList_toString (by omega) (by omega), toList_padStart (by omega), toList_padStart (by omega),
    toList_toString (by omega) (by omega), toList_padStart (by omega), toList_padStart (by omega)]
  simp only [List.cons_append, List.nil_append, List.cons_lt_cons_iff, ordinal]
  simp (disch := omega) only [digitChar_lt_iff, digitChar_inj, lex_digit, lt_irrefl, and_false,
    or_false, true_and, false_or]
  omega

/-- The days whose year has four digits. -/
def InRange (day : ℤ) : Prop := dayFromYear 1000 ≤ day ∧ day < dayFromYear 10000

theorem fourDigits_ofDay {day : ℤ} (h : InRange day) : FourDigits (ofDay day) := by
  have spec := ofDay_spec day
  have year := yearFromDay_spec day
  have low : 1000 ≤ yearFromDay day := by
    by_contra early
    have := dayFromYear_lt (not_le.1 early)
    have := h.1
    omega
  have high : yearFromDay day < 10000 := by
    by_contra late
    rcases (not_lt.1 late).lt_or_eq with later | same
    · have := dayFromYear_lt later
      have := h.2
      have : dayFromYear 10000 ≤ dayFromYear (10000 + 1) := by decide
      omega
    · rw [← same] at year
      have := h.2
      omega
  exact ⟨⟨low, high⟩, by omega, by omega, by omega⟩

theorem dateString_ofDay_lt_iff {a b : ℤ} (ha : InRange a) (hb : InRange b) :
    dateString (ofDay a) < dateString (ofDay b) ↔ a < b := by
  rw [dateString_lt_iff (fourDigits_ofDay ha) (fourDigits_ofDay hb), ordinal_lt_iff]

theorem dateString_ofDay_inj {a b : ℤ} (ha : InRange a) (hb : InRange b) :
    dateString (ofDay a) = dateString (ofDay b) ↔ a = b := by
  constructor
  · intro same
    have ab := dateString_ofDay_lt_iff ha hb
    have ba := dateString_ofDay_lt_iff hb ha
    rw [same] at ab ba
    have not_lt : ¬ a < b := fun lt => lt_irrefl _ (ab.2 lt)
    have not_gt : ¬ b < a := fun lt => lt_irrefl _ (ba.2 lt)
    omega
  · rintro rfl
    rfl

example : dateString (ofDay 19782) = "2024-02-29" := by decide

end CivilDate

end StockAnomaly.Theory

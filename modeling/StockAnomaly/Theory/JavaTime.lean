import StockAnomaly.Theory.CivilDate

/-!
# Dates and times in the texts of the Java library

Parsing and formatting with the patterns `yyyyMMdd` and `yyyyMMddHHmmss` in the default,
smart mode: a day that the month does not have becomes the month's last day, and 24:00:00 is
the start of the next day. A year of the era has four digits, or more with a plus sign. `none`
is a `DateTimeParseException`. Times of day are read at a fixed offset in seconds.
-/

namespace StockAnomaly.Theory.JavaTime

open CivilDate

/-- The number that a nonempty run of digits stands for. -/
def digits (s : List Char) : Option ℕ :=
  if s.isEmpty || !s.all Char.isDigit then none
  else some (s.foldl (fun n c => n * 10 + (c.toNat - '0'.toNat)) 0)

theorem isDigit_of_digits {s : List Char} {n : ℕ} (number : digits s = some n) : ∀ c ∈ s, c.isDigit := by
  unfold digits at number
  split_ifs at number with none
  simp only [Bool.or_eq_true, Bool.not_eq_true', not_or, Bool.not_eq_false, List.all_eq_true] at none
  exact none.2

/-- The length of a month. -/
def monthLength (year month : ℤ) : ℤ := monthStart (leap year) (month + 1) - monthStart (leap year) month

/-- The characters of `yyyy`, and those that follow. The four of `MMdd` are left over for the
other fields, and a sign takes up to nineteen digits. -/
def splitYear : List Char → Option (List Char × List Char)
  | '+' :: s => if 9 ≤ s.length ∧ s.length ≤ 23 then some (s.splitAt (s.length - 4)) else none
  | s => if s.length = 8 then some (s.splitAt 4) else none

/-- `LocalDate.parse(s, yyyyMMdd)`, as a day number. -/
def parseDate (s : String) : Option ℤ := do
  let (year, rest) ← splitYear s.toList
  let year ← digits year
  let month ← digits (rest.take 2)
  let day ← digits (rest.drop 2)
  guard (1 ≤ year ∧ year ≤ 999999999 ∧ 1 ≤ month ∧ month ≤ 12 ∧ 1 ≤ day ∧ day ≤ 31)
  some (toDay ⟨year, month, min day (monthLength year month)⟩)

/-- `LocalDateTime.parse(s, yyyyMMddHHmmss)` at an offset, as epoch seconds. -/
def parseDateTime (offset : ℤ) (s : String) : Option ℤ := do
  let (date, time) := s.toList.splitAt (s.length - 6)
  let day ← parseDate (String.ofList date)
  let hour ← digits (time.take 2)
  let minute ← digits ((time.drop 2).take 2)
  let second ← digits (time.drop 4)
  guard ((hour ≤ 23 ∧ minute ≤ 59 ∧ second ≤ 59) ∨ (hour = 24 ∧ minute = 0 ∧ second = 0))
  some (day * 86400 + hour * 3600 + minute * 60 + second - offset)

/-- `yyyyMMdd` of a day, with the year of its era. -/
def formatDate (day : ℤ) : String :=
  let d := ofDay day
  let year := if d.year ≤ 0 then 1 - d.year else d.year
  (if 9999 < year then "+" else "") ++ padStart 4 (toString year) ++ padStart 2 (toString d.month) ++
    padStart 2 (toString d.day)

/-- `HHmmss` of a second of the day. -/
def formatTime (second : ℤ) : String :=
  padStart 2 (toString (second / 3600)) ++ padStart 2 (toString (second / 60 % 60)) ++
    padStart 2 (toString (second % 60))

example : parseDate "20240230" = some 19782 ∧ parseDateTime 0 "20240230240000" = some (19783 * 86400) ∧
    parseDate "+100000101" = some 2932897 ∧ formatDate 2932897 = "+100000101" := by decide +kernel

section RoundTrip

/-- The characters of a number below 100. -/
def twoDigits (n : ℕ) : List Char := [n / 10, n % 10].map Nat.digitChar

/-- The characters of a number of four digits. -/
def fourDigits (n : ℕ) : List Char := [n / 10 / 10 / 10, n / 10 / 10 % 10, n / 10 % 10, n % 10].map Nat.digitChar

theorem isDigit_digitChar : ∀ i < 10, (Nat.digitChar i).isDigit = true := by decide

theorem toNat_digitChar : ∀ i < 10, (Nat.digitChar i).toNat - '0'.toNat = i := by decide

theorem digits_map_digitChar {ns : List ℕ} (some_digit : ns ≠ []) (small : ∀ n ∈ ns, n < 10) :
    digits (ns.map Nat.digitChar) = some (ns.foldl (fun n d => n * 10 + d) 0) := by
  have all_digits : (ns.map Nat.digitChar).all Char.isDigit = true := by
    simpa using fun n mem => isDigit_digitChar n (small n mem)
  rw [digits, all_digits, if_neg (by simpa using some_digit), List.foldl_map]
  apply congrArg some
  apply List.foldl_ext
  intro n d mem
  rw [toNat_digitChar d (small d mem)]

@[simp] theorem digits_twoDigits {n : ℕ} (lt : n < 100) : digits (twoDigits n) = some n := by
  rw [twoDigits, digits_map_digitChar (by simp) (by simp; omega)]
  simp only [List.foldl_cons, List.foldl_nil, Option.some.injEq]
  omega

@[simp] theorem digits_fourDigits {n : ℕ} (lt : n < 10000) : digits (fourDigits n) = some n := by
  rw [fourDigits, digits_map_digitChar (by simp) (by simp; omega)]
  simp only [List.foldl_cons, List.foldl_nil, Option.some.injEq]
  omega

theorem toList_padStart_two {n : ℕ} (lt : n < 100) : (padStart 2 (toString (n : ℤ))).toList = twoDigits n :=
  toList_padStart lt

theorem toList_toString_four {n : ℕ} (ge : 1000 ≤ n) (lt : n < 10000) :
    (toString (n : ℤ)).toList = fourDigits n := toList_toString ge lt

/-- Four digits need no padding. -/
theorem padStart_four {n : ℕ} (ge : 1000 ≤ n) (lt : n < 10000) : padStart 4 (toString (n : ℤ)) = toString (n : ℤ) := by
  rw [padStart, toList_toString ge lt, ← String.toList_inj, toList_toString ge lt, String.toList_ofList]
  rfl

/-- The text of a date. -/
theorem formatDate_spec {day : ℤ} (h : InRange day) : ∃ y m d : ℕ, ofDay day = ⟨y, m, d⟩ ∧
    (1000 ≤ y ∧ y < 10000) ∧ (1 ≤ m ∧ m ≤ 12) ∧ (1 ≤ d ∧ d ≤ 31) ∧
    formatDate day = toString (y : ℤ) ++ padStart 2 (toString (m : ℤ)) ++ padStart 2 (toString (d : ℤ)) ∧
    (formatDate day).toList = fourDigits y ++ twoDigits m ++ twoDigits d := by
  obtain ⟨year, -, -⟩ := fourDigits_ofDay h
  have spec := ofDay_spec day
  rw [formatDate]
  generalize ofDay day = date at year spec
  obtain ⟨y, m, d⟩ := date
  dsimp only at year spec
  dsimp only
  rw [if_neg (by omega : ¬ y ≤ 0), if_neg (by omega : ¬ 9999 < y), String.empty_append]
  lift y to ℕ using (by omega)
  lift m to ℕ using (by omega)
  lift d to ℕ using (by omega)
  refine ⟨y, m, d, rfl, by omega, by omega, by omega, ?_, ?_⟩
  · rw [padStart_four (by omega) (by omega)]
  · simp only [String.toList_append]
    rw [padStart_four (by omega) (by omega), toList_toString_four (by omega) (by omega),
      toList_padStart_two (by omega), toList_padStart_two (by omega)]

/-- The text of a time of day. -/
theorem formatTime_spec {second : ℤ} (nonneg : 0 ≤ second) (lt : second < 86400) : ∃ hour minute sec : ℕ,
    second = hour * 3600 + minute * 60 + sec ∧ hour ≤ 23 ∧ minute ≤ 59 ∧ sec ≤ 59 ∧
    (formatTime second).toList = twoDigits hour ++ twoDigits minute ++ twoDigits sec := by
  lift second to ℕ using nonneg
  have hour : (second : ℤ) / 3600 = (second / 3600 : ℕ) := rfl
  have minute : (second : ℤ) / 60 % 60 = (second / 60 % 60 : ℕ) := rfl
  have sec : (second : ℤ) % 60 = (second % 60 : ℕ) := rfl
  refine ⟨second / 3600, second / 60 % 60, second % 60, by omega, by omega, by omega, by omega, ?_⟩
  rw [formatTime, hour, minute, sec]
  simp only [String.toList_append]
  rw [toList_padStart_two (by omega), toList_padStart_two (by omega), toList_padStart_two (by omega)]

/-- No day lies behind the end of its month. -/
theorem day_le_monthLength (day : ℤ) :
    (ofDay day).day ≤ monthLength (ofDay day).year (ofDay day).month := by
  have next := @lt_monthStart_succ (leap (yearFromDay day)) (day - dayFromYear (yearFromDay day))
  simp only [ofDay, monthLength]
  omega

/-- Eight digits are a year of four and the rest. -/
theorem splitYear_digits {n : ℕ} (lt : n < 10000) {rest : List Char} (four : rest.length = 4) :
    splitYear (fourDigits n ++ rest) = some (fourDigits n, rest) := by
  have no_sign : Nat.digitChar (n / 10 / 10 / 10) ≠ '+' := by
    intro sign
    have digit := isDigit_digitChar (n / 10 / 10 / 10) (by omega)
    rw [sign] at digit
    exact absurd digit (by decide)
  have eight : (fourDigits n ++ rest).length = 8 := by rw [List.length_append, four]; rfl
  unfold splitYear
  split
  · next s signed =>
    exact absurd (List.cons.inj signed).1 no_sign
  · rw [if_pos eight, List.splitAt_eq]
    rfl

/-- **The text of a date is read as its day.** -/
theorem parseDate_formatDate {day : ℤ} (h : InRange day) : parseDate (formatDate day) = some day := by
  obtain ⟨y, m, d, date, year, month, days, -, text⟩ := formatDate_spec h
  have last := day_le_monthLength day
  have back := toDay_ofDay day
  rw [date] at last back
  have valid : 1 ≤ y ∧ y ≤ 999999999 ∧ 1 ≤ m ∧ m ≤ 12 ∧ 1 ≤ d ∧ d ≤ 31 := by omega
  have split : splitYear (formatDate day).toList = some (fourDigits y, twoDigits m ++ twoDigits d) := by
    rw [text, List.append_assoc]
    exact splitYear_digits (by omega) rfl
  have month : (twoDigits m ++ twoDigits d).take 2 = twoDigits m := rfl
  have day_of_month : (twoDigits m ++ twoDigits d).drop 2 = twoDigits d := rfl
  rw [parseDate, split, Option.bind_eq_bind, Option.bind_some]
  dsimp only
  rw [month, day_of_month, digits_fourDigits (by omega), digits_twoDigits (by omega), digits_twoDigits (by omega)]
  simp [guard, valid, min_eq_left last, back]

/-- A date has eight characters and a time six. -/
theorem toList_format {day second : ℤ} (h : InRange day) (nonneg : 0 ≤ second) (lt : second < 86400) :
    (formatDate day ++ formatTime second).toList.length = 14 ∧
      (formatDate day ++ formatTime second).toList.take 8 = (formatDate day).toList ∧
      (formatDate day ++ formatTime second).toList.drop 8 = (formatTime second).toList := by
  obtain ⟨y, m, d, -, -, -, -, -, date⟩ := formatDate_spec h
  obtain ⟨hour, minute, sec, -, -, -, -, time⟩ := formatTime_spec nonneg lt
  rw [String.toList_append, date, time]
  exact ⟨rfl, rfl, rfl⟩

/-- **And the text of a date and a time as its instant.** -/
theorem parseDateTime_format {day second offset : ℤ} (h : InRange day) (nonneg : 0 ≤ second) (lt : second < 86400) :
    parseDateTime offset (formatDate day ++ formatTime second) = some (day * 86400 + second - offset) := by
  obtain ⟨length, date, rest⟩ := toList_format h nonneg lt
  obtain ⟨hour, minute, sec, value, hours, minutes, seconds, time⟩ := formatTime_spec nonneg lt
  generalize formatDate day ++ formatTime second = text at length date rest
  have parts : (formatTime second).toList.take 2 = twoDigits hour ∧
      ((formatTime second).toList.drop 2).take 2 = twoDigits minute ∧
      (formatTime second).toList.drop 4 = twoDigits sec := by
    rw [time]
    exact ⟨rfl, rfl, rfl⟩
  rw [parseDateTime, ← String.length_toList, length, List.splitAt_eq, date, rest]
  dsimp only
  rw [String.ofList_toList, parseDate_formatDate h, parts.1, parts.2.1, parts.2.2, digits_twoDigits (by omega),
    digits_twoDigits (by omega), digits_twoDigits (by omega), value]
  simp only [guard, hours, minutes, seconds, and_self, true_or, if_true, Option.bind_eq_bind, Option.bind_some,
    Option.pure_def, Option.some.injEq]
  omega

end RoundTrip

end StockAnomaly.Theory.JavaTime

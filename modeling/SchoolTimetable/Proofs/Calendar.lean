import Mathlib.Tactic.IntervalCases
import SchoolTimetable.Timestamp

/-!
Days and dates. A count of days is split into eras of 400 years, centuries, groups of four years,
years that begin in March, and days; the date that is read off these parts is a date of the
calendar, and counting its days gives the count back.
-/
namespace SchoolTimetable.CivilDate

/-- Where a day of an era falls: its century, the group of four years there, the year of that group,
and the day of that year. Leap days end their years. -/
structure EraDay (dayOfEra century group year day : Int) : Prop where
  sum : dayOfEra = 36524 * century + 1461 * group + 365 * year + day
  century_le : 0 ≤ century ∧ century ≤ 3
  group_le : 0 ≤ group ∧ group ≤ 24
  year_le : 0 ≤ year ∧ year ≤ 3
  day_le : 0 ≤ day ∧ day ≤ 365
  leapDay : day = 365 → year = 3 ∧ (group = 24 → century = 3)

variable {dayOfEra century group year day : Int}

theorem exists_eraDay (lower : 0 ≤ dayOfEra) (upper : dayOfEra < 146097) :
    ∃ century group year day, EraDay dayOfEra century group year day := by
  -- The last day of an era belongs to its fourth century, which is a day longer.
  have centuries : ∃ c rest : Int, dayOfEra = 36524 * c + rest ∧ 0 ≤ c ∧ c ≤ 3 ∧ 0 ≤ rest ∧
      rest ≤ 36524 ∧ (rest = 36524 → c = 3) := by
    by_cases last : dayOfEra = 146096
    · exact ⟨3, 36524, by omega⟩
    · exact ⟨dayOfEra / 36524, dayOfEra % 36524, by omega⟩
  obtain ⟨c, rest, split, c0, c3, rest0, rest1, final⟩ := centuries
  have years : ∃ g y d : Int, rest = 1461 * g + 365 * y + d ∧ 0 ≤ g ∧ g ≤ 24 ∧ 0 ≤ y ∧ y ≤ 3 ∧
      0 ≤ d ∧ d ≤ 365 ∧ (d = 365 → y = 3) := by
    by_cases leap : rest % 1461 = 1460
    · exact ⟨rest / 1461, 3, 365, by omega⟩
    · exact ⟨rest / 1461, rest % 1461 / 365, rest % 1461 % 365, by omega⟩
  obtain ⟨g, y, d, split', g0, g24, y0, y3, d0, d365, leap⟩ := years
  exact ⟨c, g, y, d, by omega, ⟨c0, c3⟩, ⟨g0, g24⟩, ⟨y0, y3⟩, ⟨d0, d365⟩, by omega⟩

theorem EraDay.yearOfEra (h : EraDay dayOfEra century group year day) :
    (dayOfEra - dayOfEra / 1460 + dayOfEra / 36524 - dayOfEra / 146096) / 365 =
      100 * century + 4 * group + year := by
  obtain ⟨sum, ⟨c0, c3⟩, ⟨g0, g24⟩, ⟨y0, y3⟩, ⟨d0, d365⟩, leap⟩ := h
  have within : 1461 * group + 365 * year + day ≤ 36524 := by omega
  have full : 1461 * group + 365 * year + day = 36524 → century = 3 := by omega
  have centuries : dayOfEra / 36524 - dayOfEra / 146096 = century := by
    by_cases last : dayOfEra = 146096
    · subst last
      omega
    · have : dayOfEra / 36524 = century := by omega
      omega
  by_cases leapDay : day = 365
  · have groups : dayOfEra / 1460 = 25 * century + group + 1 := by omega
    omega
  · have groups : dayOfEra / 1460 = 25 * century + group ∨
        dayOfEra / 1460 = 25 * century + group + 1 ∧ 1363 ≤ 365 * year + day := by omega
    omega

def ofYearDay (year dayOfYear : Int) : CivilDate :=
  let month := (5 * dayOfYear + 2) / 153
  ⟨if month < 10 then year else year + 1, (if month < 10 then month + 3 else month - 9).toNat,
    (dayOfYear - (153 * month + 2) / 5 + 1).toNat⟩

def daysBefore (year : Int) : Int := 365 * year + year / 4 - year / 100 + year / 400

theorem EraDay.daysBefore (h : EraDay dayOfEra century group year day) (era : Int) :
    CivilDate.daysBefore (400 * era + 100 * century + 4 * group + year) + day =
      146097 * era + dayOfEra := by
  obtain ⟨sum, ⟨c0, c3⟩, ⟨g0, g24⟩, ⟨y0, y3⟩, _, _⟩ := h
  have fours : (400 * era + 100 * century + 4 * group + year) / 4 =
      100 * era + 25 * century + group := by omega
  have hundreds : (400 * era + 100 * century + 4 * group + year) / 100 = 4 * era + century := by
    omega
  have eras : (400 * era + 100 * century + 4 * group + year) / 400 = era := by omega
  rw [CivilDate.daysBefore, fours, hundreds, eras, sum]
  omega

theorem toDays_ofYearDay {y : Int} (lower : 0 ≤ day) (upper : day ≤ 365) :
    (ofYearDay y day).toDays = daysBefore y + day - 719468 := by
  simp only [ofYearDay, toDays, daysBefore]
  by_cases early : (5 * day + 2) / 153 < 10
  · have month : ¬ ((5 * day + 2) / 153 + 3).toNat ≤ 2 := by omega
    simp only [early, if_true, month, if_false]
    omega
  · have month : ((5 * day + 2) / 153 - 9).toNat ≤ 2 := by omega
    simp only [early, if_false, month, if_true]
    omega

theorem valid_ofYearDay {y : Int} (lower : 0 ≤ day) (upper : day ≤ 365)
    (leap : day = 365 → isLeapYear (y + 1) = true) :
    1 ≤ (ofYearDay y day).month ∧ (ofYearDay y day).month ≤ 12 ∧ 1 ≤ (ofYearDay y day).day ∧
      (ofYearDay y day).day ≤ daysInMonth (ofYearDay y day).year (ofYearDay y day).month := by
  obtain ⟨month, same⟩ : ∃ month, (5 * day + 2) / 153 = month := ⟨_, rfl⟩
  have first : 0 ≤ month := by omega
  have last : month ≤ 11 := by omega
  simp only [ofYearDay, same]
  by_cases february : month = 11
  · subst february
    by_cases leapDay : day = 365
    · simp [daysInMonth, leapDay, leap leapDay]
    · have early : day - 337 + 1 ≤ if isLeapYear (y + 1) = true then 29 else 28 := by
        split <;> omega
      simp [daysInMonth, early]
      omega
  · have others : month < 11 := by omega
    interval_cases month <;> simp [daysInMonth] <;> omega

theorem EraDay.ofDays (h : EraDay dayOfEra century group year day) (era : Int) :
    CivilDate.ofDays (146097 * era + dayOfEra - 719468) =
      ofYearDay (400 * era + 100 * century + 4 * group + year) day := by
  obtain ⟨sum, ⟨c0, c3⟩, ⟨g0, g24⟩, ⟨y0, y3⟩, ⟨d0, d365⟩, leap⟩ := id h
  have shift : 146097 * era + dayOfEra - 719468 + 719468 = 146097 * era + dayOfEra := by omega
  have eras : (146097 * era + dayOfEra) / 146097 = era := by omega
  have rest : 146097 * era + dayOfEra - era * 146097 = dayOfEra := by omega
  have fours : (100 * century + 4 * group + year) / 4 = 25 * century + group := by omega
  have hundreds : (100 * century + 4 * group + year) / 100 = century := by omega
  have before : dayOfEra - (365 * (100 * century + 4 * group + year) +
      (25 * century + group) - century) = day := by omega
  have counted : 100 * century + 4 * group + year + era * 400 =
      400 * era + 100 * century + 4 * group + year := by omega
  simp only [CivilDate.ofDays, shift, eras, rest, h.yearOfEra, fours, hundreds, before, counted]
  by_cases early : (5 * day + 2) / 153 < 10
  · have late : ¬ (5 * day + 2) / 153 + 3 ≤ 2 := by omega
    simp only [ofYearDay, early, late, if_true, if_false]
  · have first : (5 * day + 2) / 153 - 9 ≤ 2 := by omega
    simp only [ofYearDay, early, first, if_true, if_false]

theorem exists_yearDay (n : Int) : ∃ y day : Int, 0 ≤ day ∧ day ≤ 365 ∧
    (day = 365 → isLeapYear (y + 1) = true) ∧ CivilDate.ofDays n = ofYearDay y day ∧
      daysBefore y + day - 719468 = n := by
  have lower : 0 ≤ (n + 719468) % 146097 := by omega
  have upper : (n + 719468) % 146097 < 146097 := by omega
  obtain ⟨century, group, year, day, parts⟩ := exists_eraDay lower upper
  have date := parts.ofDays ((n + 719468) / 146097)
  have count : 146097 * ((n + 719468) / 146097) + (n + 719468) % 146097 - 719468 = n := by omega
  rw [count] at date
  have before := parts.daysBefore ((n + 719468) / 146097)
  refine ⟨_, day, parts.day_le.1, parts.day_le.2, ?_, date, by omega⟩
  intro leapDay
  have last := parts.leapDay leapDay
  have groups := parts.group_le
  simp only [isLeapYear, Bool.and_eq_true, Bool.or_eq_true, beq_iff_eq, bne_iff_ne]
  omega

theorem toDays_ofDays (n : Int) : (ofDays n).toDays = n := by
  obtain ⟨y, day, lower, upper, _, date, count⟩ := exists_yearDay n
  rw [date, toDays_ofYearDay lower upper, count]

theorem ofDays_inCalendar (n : Int) : 1 ≤ (ofDays n).month ∧ (ofDays n).month ≤ 12 ∧
    1 ≤ (ofDays n).day ∧ (ofDays n).day ≤ daysInMonth (ofDays n).year (ofDays n).month := by
  obtain ⟨y, day, lower, upper, leap, date, _⟩ := exists_yearDay n
  rw [date]
  exact valid_ofYearDay lower upper leap

theorem daysInMonth_le (y : Int) (m : Nat) : daysInMonth y m ≤ 31 := by
  unfold daysInMonth
  repeat' split
  all_goals omega

end SchoolTimetable.CivilDate

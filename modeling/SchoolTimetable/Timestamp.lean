/-!
Instants in UTC: a day counted from 1970-01-01, the second of that day, and the nanoseconds past
it. During a leap second, which follows the second it is counted under, the nanoseconds pass
`10 ^ 9`. Durations are counted in nanoseconds.
-/
namespace SchoolTimetable

structure Timestamp where
  day : Int
  second : Nat
  nanos : Nat
  deriving DecidableEq, Repr, Inhabited

namespace Timestamp

def nanosPerSecond : Nat := 1000000000
def nanosPerMillisecond : Nat := 1000000
def secondsPerDay : Nat := 86400

def inLeapSecond (t : Timestamp) : Bool := nanosPerSecond ≤ t.nanos

/-- The time from `s` to `t`. A leap second between the two times of day lasts a second of its
own. -/
def since (t s : Timestamp) : Int :=
  let leap : Int :=
    if s.second < t.second ∧ s.inLeapSecond then 1
    else if t.second < s.second ∧ t.inLeapSecond then -1
    else 0
  let seconds := (t.day - s.day) * secondsPerDay + (t.second - s.second : Int) + leap
  seconds * nanosPerSecond + (t.nanos - s.nanos : Int)

theorem since_self (t : Timestamp) : t.since t = 0 := by simp [since]

def milliseconds (n : Int) : Int := n * nanosPerMillisecond
def seconds (n : Int) : Int := n * nanosPerSecond

def ofUnixMilliseconds (n : Int) : Timestamp where
  day := n / (secondsPerDay * 1000)
  second := (n % (secondsPerDay * 1000)).toNat / 1000
  nanos := (n % (secondsPerDay * 1000)).toNat % 1000 * nanosPerMillisecond

def toUnixMilliseconds (t : Timestamp) : Int :=
  (t.day * secondsPerDay + t.second) * 1000 + (t.nanos / nanosPerMillisecond : Nat)

theorem toUnixMilliseconds_ofUnixMilliseconds (n : Int) :
    (ofUnixMilliseconds n).toUnixMilliseconds = n := by
  simp only [toUnixMilliseconds, ofUnixMilliseconds, secondsPerDay, nanosPerMillisecond]
  omega

end Timestamp

/-- A date of the Gregorian calendar, carried back before its start. -/
structure CivilDate where
  year : Int
  month : Nat
  day : Nat
  deriving DecidableEq, Repr

namespace CivilDate

def isLeapYear (y : Int) : Bool := y % 4 == 0 && (y % 100 != 0 || y % 400 == 0)

def daysInMonth (y : Int) (m : Nat) : Nat :=
  if m = 2 then if isLeapYear y then 29 else 28
  else if m = 4 ∨ m = 6 ∨ m = 9 ∨ m = 11 then 30
  else 31

def minYear : Int := -262143
def maxYear : Int := 262142

def isValid (d : CivilDate) : Bool :=
  minYear ≤ d.year && d.year ≤ maxYear && 1 ≤ d.month && d.month ≤ 12 && 1 ≤ d.day &&
    d.day ≤ daysInMonth d.year d.month

/-- Days from 1970-01-01. Years are counted from March, so that a leap day ends its year. -/
def toDays (d : CivilDate) : Int :=
  let y := if d.month ≤ 2 then d.year - 1 else d.year
  let era := y / 400
  let yearOfEra := y - era * 400
  let monthFromMarch : Int := if d.month ≤ 2 then d.month + 9 else d.month - 3
  let dayOfYear := (153 * monthFromMarch + 2) / 5 + d.day - 1
  era * 146097 + yearOfEra * 365 + yearOfEra / 4 - yearOfEra / 100 + dayOfYear - 719468

def ofDays (n : Int) : CivilDate :=
  let z := n + 719468
  let era := z / 146097
  let dayOfEra := z - era * 146097
  let yearOfEra :=
    (dayOfEra - dayOfEra / 1460 + dayOfEra / 36524 - dayOfEra / 146096) / 365
  let dayOfYear := dayOfEra - (365 * yearOfEra + yearOfEra / 4 - yearOfEra / 100)
  let monthFromMarch := (5 * dayOfYear + 2) / 153
  let day := dayOfYear - (153 * monthFromMarch + 2) / 5 + 1
  let month := if monthFromMarch < 10 then monthFromMarch + 3 else monthFromMarch - 9
  let year := yearOfEra + era * 400
  ⟨if month ≤ 2 then year + 1 else year, month.toNat, day.toNat⟩

example : (ofDays 0 = ⟨1970, 1, 1⟩) ∧ ofDays 19782 = ⟨2024, 2, 29⟩ ∧ ofDays (-719469) = ⟨0, 2, 29⟩ ∧
    toDays ⟨2024, 2, 29⟩ = 19782 := by decide

end CivilDate

end SchoolTimetable

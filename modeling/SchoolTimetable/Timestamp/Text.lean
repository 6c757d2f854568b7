import SchoolTimetable.Json.Codec
import SchoolTimetable.Text.Blank
import SchoolTimetable.Text.Integer
import SchoolTimetable.Text.Reader
import SchoolTimetable.Timestamp

/-!
Instants as texts in the form of RFC 3339. Written texts carry as many fraction digits as are
exact, out of none, three, six and nine. Reading takes any offset, and is free with blanks and
with leading zeros.
-/
namespace SchoolTimetable.Timestamp
open Text Text.Reader

def padded (width n : Nat) : List Char :=
  let ds := Nat.toDigits 10 n
  List.replicate (width - ds.length) '0' ++ ds

/-- Four digits; years outside of them carry a sign. -/
def yearText (y : Int) : List Char :=
  if 0 ≤ y ∧ y ≤ 9999 then padded 4 y.toNat
  else if y < 0 then '-' :: padded 4 y.natAbs
  else '+' :: padded 4 y.natAbs

def fractionText (nanos : Nat) : List Char :=
  if nanos = 0 then []
  else if nanos % 1000000 = 0 then '.' :: padded 3 (nanos / 1000000)
  else if nanos % 1000 = 0 then '.' :: padded 6 (nanos / 1000)
  else '.' :: padded 9 nanos

def text (zone : String) (t : Timestamp) : String :=
  let d := CivilDate.ofDays t.day
  let leap := if t.inLeapSecond then 1 else 0
  String.ofList <|
    yearText d.year ++ '-' :: padded 2 d.month ++ '-' :: padded 2 d.day ++
    'T' :: padded 2 (t.second / 3600) ++ ':' :: padded 2 (t.second / 60 % 60) ++
    ':' :: padded 2 (t.second % 60 + leap) ++ fractionText (t.nanos - leap * nanosPerSecond) ++
    zone.toList

def utcText : Timestamp → String := text "Z"

/-- The offset of UTC in figures. -/
def offsetText : Timestamp → String := text "+00:00"

def blanks : Reader Unit := do let _ ← span isBlank

def digitsUpTo (width : Nat) : Reader Nat := fun cs =>
  let ds := (cs.take width).takeWhile isDigit
  if ds = [] then none else some (digitsValue ds, cs.drop ds.length)

/-- Up to four digits, or any number of them after a sign. -/
def year : Reader Int := do
  match ← peek with
  | some '-' => do
    char '-'
    let ds ← span1 isDigit
    pure (-(digitsValue ds : Int))
  | some '+' => do
    char '+'
    let ds ← span1 isDigit
    pure (digitsValue ds)
  | _ => do pure ((← digitsUpTo 4) : Int)

def mark (c : Char) : Reader Unit := do blanks; char c

def date : Reader CivilDate := do
  blanks
  let y ← year
  mark '-'
  blanks
  let m ← digitsUpTo 2
  mark '-'
  blanks
  let d ← digitsUpTo 2
  let date : CivilDate := ⟨y, m, d⟩
  if date.isValid then pure date else failure

/-- Nine digits count, and any after them are passed over. -/
def fraction : Reader Nat := do
  char '.'
  let ds ← span1 isDigit
  let kept := ds.take 9
  pure (digitsValue kept * Nat.pow 10 (9 - kept.length))

/-- The second of the day and the nanoseconds past it. -/
def timeOfDay : Reader (Nat × Nat) := do
  blanks
  let h ← digitsUpTo 2
  mark ':'
  blanks
  let m ← digitsUpTo 2
  mark ':'
  blanks
  let s ← digitsUpTo 2
  let nanos ← optional fraction
  let nanos := nanos.getD 0
  if h < 24 ∧ m < 60 ∧ s < 60 then pure (h * 3600 + m * 60 + s, nanos)
  else if h < 24 ∧ m < 60 ∧ s = 60 then pure (h * 3600 + m * 60 + 59, nanosPerSecond + nanos)
  else failure

def twoDigits : Reader Nat := do
  let a ← satisfy isDigit
  let b ← satisfy isDigit
  pure (10 * digitValue a + digitValue b)

def letter (c : Char) : Reader Unit := do
  let _ ← satisfy fun x => x.toUpper == c

/-- The offset from UTC in seconds. -/
def zone : Reader Int :=
  (do letter 'U'; letter 'T'; letter 'C'; pure 0) <|> (do letter 'Z'; pure 0) <|> do
    let sign ← satisfy fun c => c == '+' || c == '-' || c == '\u2212'
    let h ← twoDigits
    let _ ← span fun c => c == ':' || isBlank c
    let m ← twoDigits
    let offset : Int := h * 3600 + m * 60
    if m < 60 ∧ offset < secondsPerDay then pure (if sign = '+' then offset else -offset)
    else failure

def instant : Reader Timestamp := do
  let d ← date
  let _ ← satisfy fun c => c == 'T' || c == 't' || c == ' '
  let (s, nanos) ← timeOfDay
  blanks
  let offset ← zone
  blanks
  let utc := (s : Int) - offset
  let day := d.toDays + utc / secondsPerDay
  let y := (CivilDate.ofDays day).year
  if CivilDate.minYear ≤ y ∧ y ≤ CivilDate.maxYear then
    pure ⟨day, (utc % secondsPerDay).toNat, nanos⟩
  else failure

def ofText? (s : String) : Option Timestamp := run? instant s

def codec : Codec Timestamp where
  encode t := .str t.utcText
  decode
    | .str s => ofText? s
    | _ => none

end SchoolTimetable.Timestamp

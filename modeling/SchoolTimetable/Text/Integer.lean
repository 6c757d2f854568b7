/-!
Integers written in decimal: an optional sign and at least one ASCII digit, with nothing around
them. Leading zeros count for nothing; a value outside the wanted range is refused.
-/
namespace SchoolTimetable.Text

def isDigit (c : Char) : Bool := '0' ≤ c && c ≤ '9'

def digitValue (c : Char) : Nat := c.toNat - '0'.toNat

def digitsValue (cs : List Char) : Nat := cs.foldl (fun n c => 10 * n + digitValue c) 0

def digits? (cs : List Char) : Option Nat :=
  if cs ≠ [] ∧ cs.all isDigit then some (digitsValue cs) else none

/-- How many values a word of so many bits has. -/
def wordSize (bits : Nat) : Nat := Nat.pow 2 bits

/-- Digits after an optional plus sign, of a value below `2 ^ bits`. -/
def natural? (bits : Nat) (cs : List Char) : Option Nat :=
  let body := match cs with
    | '+' :: r => r
    | r => r
  (digits? body).filter (· < wordSize bits)

/-- Digits after an optional sign, of a value that fits a signed word of `bits` bits. -/
def integer? (bits : Nat) (cs : List Char) : Option Int :=
  let value := match cs with
    | '+' :: r => (digits? r).map Int.ofNat
    | '-' :: r => (digits? r).map fun n => -Int.ofNat n
    | r => (digits? r).map Int.ofNat
  value.filter fun n => -(wordSize (bits - 1) : Int) ≤ n ∧ n < wordSize (bits - 1)

example : natural? 8 ['+', '0', '7'] = some 7 ∧ natural? 8 ['-', '0'] = none ∧
    natural? 8 ['2', '5', '6'] = none ∧ integer? 8 ['-', '0'] = some 0 ∧
    integer? 8 ['+', '-', '3'] = none ∧ integer? 8 [] = none := by decide

end SchoolTimetable.Text

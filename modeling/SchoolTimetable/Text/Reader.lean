/-!
Readers take characters off the front of a text. A reader that fails takes nothing, so
alternatives may be tried one after another.
-/
namespace SchoolTimetable.Text

abbrev Reader := StateT (List Char) Option

namespace Reader
variable {α β : Type}

def peek : Reader (Option Char) := fun cs => some (cs.head?, cs)

def satisfy (p : Char → Bool) : Reader Char
  | [] => none
  | c :: r => if p c then some (c, r) else none

def char (c : Char) : Reader Unit := do let _ ← satisfy (· == c)

/-- The longest run of characters in the class. -/
def span (p : Char → Bool) : Reader (List Char) := fun cs => some (cs.takeWhile p, cs.dropWhile p)

def span1 (p : Char → Bool) : Reader (List Char) := do
  let r ← span p
  if r.isEmpty then failure else pure r

def word : List Char → Reader Unit
  | [] => pure ()
  | c :: r => do char c; word r

def finished : Reader Unit
  | [] => some ((), [])
  | _ => none

def manyFrom (p : Reader α) (cs : List Char) : List α × List Char :=
  match p cs with
  | none => ([], cs)
  | some (a, rest) =>
    if rest.length < cs.length then
      let tail := manyFrom p rest
      (a :: tail.1, tail.2)
    else ([], cs)
termination_by cs.length

/-- As often as it succeeds and takes something. -/
def many (p : Reader α) : Reader (List α) := fun cs => some (manyFrom p cs)

/-- One or more, with a separator between them. -/
def sepBy1 (p : Reader α) (sep : Reader β) : Reader (List α) := do
  let a ← p
  let r ← many (do let _ ← sep; p)
  pure (a :: r)

def run? (p : Reader α) (s : String) : Option α :=
  ((do let a ← p; finished; pure a : Reader α).run s.toList).map (·.1)

end Reader

def hexValue? (c : Char) : Option Nat :=
  let n := c.toNat
  if 48 ≤ n ∧ n ≤ 57 then some (n - 48)
  else if 97 ≤ n ∧ n ≤ 102 then some (n - 87)
  else if 65 ≤ n ∧ n ≤ 70 then some (n - 55)
  else none

/-- The character with this code point; surrogates are none. -/
def charOfCode? (n : Nat) : Option Char :=
  if h : n.isValidChar then some (Char.ofNatAux n h) else none

end SchoolTimetable.Text

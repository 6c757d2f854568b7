import SchoolTimetable.Json
import SchoolTimetable.Text.Decimal
import SchoolTimetable.Text.Reader

/-!
Reading JSON texts. Objects and arrays may nest 127 deep.
-/
namespace SchoolTimetable.Json
open Text Text.Reader

def depthLimit : Nat := 127

def space : Reader Unit := do
  let _ ← span fun c => c == ' ' || c == '\t' || c == '\n' || c == '\r'

def lexeme {α : Type} (p : Reader α) : Reader α := do space; p

def hexWord? (a b c d : Char) : Option Nat := do
  let a ← hexValue? a
  let b ← hexValue? b
  let c ← hexValue? c
  let d ← hexValue? d
  pure (((a * 16 + b) * 16 + c) * 16 + d)

def escaped? : Char → Option Char
  | '"' => some '"'
  | '\\' => some '\\'
  | '/' => some '/'
  | 'b' => some '\x08'
  | 'f' => some '\x0c'
  | 'n' => some '\n'
  | 'r' => some '\r'
  | 't' => some '\t'
  | _ => none

/-- The character that two surrogates stand for. -/
def joinSurrogates? (hi lo : Nat) : Option Char :=
  if 0xD800 ≤ hi ∧ hi < 0xDC00 ∧ 0xDC00 ≤ lo ∧ lo < 0xE000 then
    charOfCode? (0x10000 + (hi - 0xD800) * 0x400 + (lo - 0xDC00))
  else none

/-- The rest of a string, after its opening quote. -/
def stringBody : List Char → Option (List Char × List Char)
  | '"' :: r => some ([], r)
  | '\\' :: 'u' :: a :: b :: c :: d :: r => do
    let hi ← hexWord? a b c d
    match charOfCode? hi with
    | some x => do
      let (s, rest) ← stringBody r
      pure (x :: s, rest)
    | none =>
      match r with
      | '\\' :: 'u' :: e :: f :: g :: h :: r' => do
        let lo ← hexWord? e f g h
        let x ← joinSurrogates? hi lo
        let (s, rest) ← stringBody r'
        pure (x :: s, rest)
      | _ => none
  | '\\' :: c :: r => do
    let x ← escaped? c
    let (s, rest) ← stringBody r
    pure (x :: s, rest)
  | c :: r => do
    if c.toNat < 0x20 ∨ c = '\\' then none else
    let (s, rest) ← stringBody r
    pure (c :: s, rest)
  | [] => none

def quoted : Reader String := do
  char '"'
  let s ← (stringBody : Reader (List Char))
  pure (String.ofList s)

def fraction : Reader (List Char) := do
  char '.'
  span1 isDigit

/-- The exponent as it is written, and its value. -/
def exponent : Reader (List Char × Int) := do
  let e ← satisfy fun c => c == 'e' || c == 'E'
  let sign ← optional (satisfy fun c => c == '+' || c == '-')
  let ds ← span1 isDigit
  pure (e :: (sign.toList ++ ds),
    if sign = some '-' then -(digitsValue ds : Int) else digitsValue ds)

/-- A number that is written without fraction and exponent and fits 64 bits is an integer; minus
zero is none. No number may be too large for double precision. -/
def number : Reader Json := do
  let sign ← optional (char '-')
  let ds ← span1 isDigit
  if ds.head? = some '0' ∧ ds.length ≠ 1 then failure
  let frac ← optional fraction
  let exp ← optional exponent
  if (Decimal.ofParts ds (frac.getD []) (exp.elim 0 (·.2))).exceedsDouble then failure
  let n : Int := if sign.isSome then -(digitsValue ds : Int) else digitsValue ds
  let text := (if sign.isSome then ['-'] else []) ++ ds
  if frac.isNone ∧ exp.isNone then
    if -(wordSize 63 : Int) ≤ n ∧ n < wordSize 64 ∧ ¬(sign.isSome ∧ n = 0) then pure (.int n)
    else pure (.decimal (String.ofList (text ++ ['.', '0'])))
  else pure (.decimal (String.ofList (text ++ frac.elim [] ('.' :: ·) ++ exp.elim [] (·.1))))

def scalar : Reader Json :=
  (.str <$> quoted) <|> (do word "null".toList; pure .null) <|>
    (do word "true".toList; pure (.bool true)) <|> (do word "false".toList; pure (.bool false)) <|>
    number

def list {α : Type} (opening closing : Char) (item : Reader α) : Reader (List α) := do
  char opening
  let items ← optional (sepBy1 item (lexeme (char ',')))
  lexeme (char closing)
  pure (items.getD [])

def member (value : Reader Json) : Reader (String × Json) := do
  let name ← lexeme quoted
  lexeme (char ':')
  let v ← value
  pure (name, v)

def value : Nat → Reader Json
  | 0 => lexeme scalar
  | depth + 1 => lexeme <|
    scalar <|> (.arr <$> list '[' ']' (value depth)) <|>
      (.object <$> list '{' '}' (member (value depth)))

def read? (s : String) : Option Json := run? (do let j ← value depthLimit; space; pure j) s

end SchoolTimetable.Json

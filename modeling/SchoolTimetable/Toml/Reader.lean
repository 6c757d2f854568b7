import SchoolTimetable.Text.Decimal
import SchoolTimetable.Text.Reader
import SchoolTimetable.Timestamp
import SchoolTimetable.Toml

/-!
Reading TOML documents. Arrays and inline tables may nest 79 deep, and a key may have 79 parts.
-/
namespace SchoolTimetable.Toml
open Text Text.Reader

def depthLimit : Nat := 79

def blanks : Reader Unit := do
  let _ ← span fun c => c == ' ' || c == '\t'

def newline : Reader Unit := char '\n' <|> (do char '\r'; char '\n')

/-- Characters that comments and strings may hold on one line. -/
def isText (c : Char) : Bool := c == '\t' || (0x20 ≤ c.toNat && c.toNat != 0x7f)

def comment : Reader Unit := do
  char '#'
  let _ ← span isText

/-- Blanks, comments and line ends, which may stand between the items of an array. -/
def gap : Reader Unit := do
  let _ ← many ((do let _ ← span1 fun c => c == ' ' || c == '\t') <|> newline <|> comment)

def hexCode (digits : Nat) : Reader Char := fun cs => do
  let ds := cs.take digits
  if ds.length ≠ digits then none else
  let vs ← ds.mapM hexValue?
  let c ← charOfCode? (vs.foldl (fun n v => 16 * n + v) 0)
  pure (c, cs.drop digits)

/-- What follows a backslash. -/
def escaped : Reader Char := do
  match ← satisfy fun _ => true with
  | 'b' => pure '\x08'
  | 't' => pure '\t'
  | 'n' => pure '\n'
  | 'f' => pure '\x0c'
  | 'r' => pure '\r'
  | '"' => pure '"'
  | '\\' => pure '\\'
  | 'u' => hexCode 4
  | 'U' => hexCode 8
  | _ => failure

def basicChar : Reader Char :=
  satisfy (fun c => isText c && c != '"' && c != '\\') <|> (do char '\\'; escaped)

def basicString : Reader String := do
  char '"'
  let s ← many basicChar
  char '"'
  pure (String.ofList s)

def literalString : Reader String := do
  char '\''
  let s ← span fun c => isText c && c != '\''
  char '\''
  pure (String.ofList s)

/-- A line end in a string of several lines is written as it stands. -/
def lineEnd : Reader (List Char) :=
  (do char '\n'; pure ['\n']) <|> (do char '\r'; char '\n'; pure ['\r', '\n'])

/-- A backslash at the end of a line takes the blanks and line ends after it away. -/
def continuation : Reader (List Char) := do
  char '\\'
  blanks
  newline
  let _ ← many ((do let _ ← span1 fun c => c == ' ' || c == '\t') <|> newline)
  pure []

def quoteRun (q : Char) : Reader Nat := do
  let qs ← span (· == q)
  pure qs.length

/-- One or two quotes inside a string of several lines. -/
def innerQuotes (q : Char) : Reader (List Char) := do
  let n ← quoteRun q
  if n = 1 ∨ n = 2 then pure (List.replicate n q) else failure

/-- The rest of a string of several lines; up to two quotes may stand before the closing ones. -/
def longBody (q : Char) (piece : Reader (List Char)) : Reader String := do
  let _ ← optional newline
  let parts ← many (piece <|> lineEnd <|> innerQuotes q)
  let n ← quoteRun q
  if 3 ≤ n ∧ n ≤ 5 then pure (String.ofList (parts.flatten ++ List.replicate (n - 3) q))
  else failure

def longBasicString : Reader String := do
  word ['"', '"', '"']
  longBody '"' (continuation <|> (do let c ← basicChar; pure [c]))

def longLiteralString : Reader String := do
  word ['\'', '\'', '\'']
  longBody '\'' (span1 fun c => isText c && c != '\'')

def anyString : Reader String :=
  longBasicString <|> basicString <|> longLiteralString <|> literalString

def isBareKey (c : Char) : Bool := c.isAlphanum || c == '_' || c == '-'

def simpleKey : Reader String :=
  (do let cs ← span1 isBareKey; pure (String.ofList cs)) <|> basicString <|> literalString

/-- A key with its dots: the path and the last part. -/
def key : Reader (List String × String) := do
  let parts ← sepBy1 (do blanks; let k ← simpleKey; blanks; pure k) (char '.')
  match parts.getLast? with
  | some k => if parts.length ≤ depthLimit then pure (parts.dropLast, k) else failure
  | none => failure

/-- Digits of a base, where single underscores may stand between digits. -/
def digits (isIn : Char → Bool) : Reader (List Char) := do
  let first ← satisfy isIn
  let rest ← many (satisfy isIn <|> (do char '_'; satisfy isIn))
  pure (first :: rest)

/-- Without needless zeros in front. -/
def decimalDigits : Reader (List Char) := do
  match ← peek with
  | some '0' => do
    char '0'
    pure ['0']
  | _ => digits isDigit

def sign : Reader (Option Char) := optional (satisfy fun c => c == '+' || c == '-')

def inWord (n : Int) : Reader Toml :=
  if -(wordSize 63 : Int) ≤ n ∧ n < wordSize 63 then pure (.int n) else failure

def based (mark : Char) (base : Nat) : Reader Toml := do
  char '0'
  char mark
  let ds ← digits fun c => (hexValue? c).any fun v => v < base
  inWord (ds.foldl (fun n c => base * n + (hexValue? c).getD 0) 0 : Nat)

def integer : Reader Toml :=
  based 'x' 16 <|> based 'o' 8 <|> based 'b' 2 <|> do
    let s ← sign
    let ds ← decimalDigits
    inWord (if s = some '-' then -(digitsValue ds : Int) else digitsValue ds)

def exponent : Reader Int := do
  let _ ← satisfy fun c => c == 'e' || c == 'E'
  let s ← sign
  let ds ← digits isDigit
  pure (if s = some '-' then -(digitsValue ds : Int) else digitsValue ds)

def fraction : Reader (List Char) := do
  char '.'
  digits isDigit

def decimal : Reader Decimal := do
  let whole ← decimalDigits
  (Decimal.ofParts whole [] <$> exponent) <|> do
    let frac ← fraction
    let e ← optional exponent
    pure (.ofParts whole frac (e.getD 0))

/-- A positive number may not be too large for double precision; a negative one may, and so may the
words for infinity. -/
def floatValue : Reader Toml := do
  let s ← sign
  word "inf".toList <|> word "nan".toList <|> do
    let d ← decimal
    if s ≠ some '-' ∧ d.exceedsDouble then failure
  pure .float

def fixedDigits (n : Nat) : Reader Nat := fun cs =>
  let ds := cs.take n
  if ds.length = n ∧ ds.all isDigit then some (digitsValue ds, cs.drop n) else none

def calendarDay : Reader Unit := do
  let y ← fixedDigits 4
  char '-'
  let m ← fixedDigits 2
  char '-'
  let d ← fixedDigits 2
  if 1 ≤ m ∧ m ≤ 12 ∧ 1 ≤ d ∧ d ≤ CivilDate.daysInMonth y m then pure () else failure

def clockTime : Reader Unit := do
  let h ← fixedDigits 2
  char ':'
  let m ← fixedDigits 2
  char ':'
  let s ← fixedDigits 2
  let _ ← optional (do char '.'; span1 isDigit)
  if h ≤ 23 ∧ m ≤ 59 ∧ s ≤ 60 then pure () else failure

def zone : Reader Unit :=
  (do let _ ← satisfy fun c => c == 'Z' || c == 'z') <|> do
    let _ ← satisfy fun c => c == '+' || c == '-'
    let h ← fixedDigits 2
    char ':'
    let m ← fixedDigits 2
    if h ≤ 23 ∧ m ≤ 59 then pure () else failure

def dateTime : Reader Toml := do
  (clockTime <|> do
    calendarDay
    let _ ← optional do
      let _ ← satisfy fun c => c == 'T' || c == 't' || c == ' '
      clockTime
      optional zone)
  pure .date

def scalar : Reader Toml :=
  (.str <$> anyString) <|> (do word "true".toList; pure (.bool true)) <|>
    (do word "false".toList; pure (.bool false)) <|> dateTime <|> floatValue <|> integer

def arrayValue (value : Reader Toml) : Reader Toml := do
  char '['
  let items ← optional (sepBy1 (do gap; let v ← value; gap; pure v) (char ','))
  if items.isSome then let _ ← optional (char ',')
  gap
  char ']'
  pure (.array (items.getD []))

def keyValue (value : Reader Toml) : Reader (List String × String × Toml) := do
  let (path, k) ← key
  char '='
  blanks
  let v ← value
  pure (path, k, v)

def inlineValue (value : Reader Toml) : Reader Toml := do
  char '\x7b'
  let pairs ← optional (sepBy1 (do let p ← keyValue value; blanks; pure p) (char ','))
  blanks
  char '\x7d'
  match inlineTable (pairs.getD []) with
  | some t => pure t
  | none => failure

def value : Nat → Reader Toml
  | 0 => scalar
  | depth + 1 => scalar <|> arrayValue (value depth) <|> inlineValue (value depth)

def statement : Reader Statement :=
  (do word ['[', '[']; let (path, k) ← key; word [']', ']']; pure (.tables path k)) <|>
    (do char '['; let (path, k) ← key; char ']'; pure (.table path k)) <|>
    (do let (path, k, v) ← keyValue (value depthLimit); pure (.keyValue path k v))

def line : Reader (Option Statement) := do
  blanks
  let s ← optional statement
  blanks
  let _ ← optional comment
  pure s

/-- The entries of a document; a byte order mark in front counts for nothing. -/
def read? (s : String) : Option Entries := do
  let lines ← run? (do let _ ← optional (char '\ufeff'); sepBy1 line newline) s
  let d ← (lines.filterMap id).foldlM Document.add ({} : Document)
  pure d.entries

end SchoolTimetable.Toml

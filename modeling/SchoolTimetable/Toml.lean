/-!
TOML documents, as far as settings need them: the values of numbers with a fraction and of dates
are not kept. A table remembers how it came about, since that decides what may be added to it.
-/
namespace SchoolTimetable

inductive TableForm where
  /-- Written in braces; nothing can be added. -/
  | inline
  /-- Named by a header of its own; dotted keys cannot add to it from outside. -/
  | header
  /-- Named inside the header of another table; a header of its own may follow. -/
  | implied
  /-- Named inside a dotted key; other dotted keys may add to it, a header may not name it. -/
  | dotted
  deriving DecidableEq, Repr

inductive Toml where
  | str (s : String)
  | int (n : Int)
  | float
  | bool (b : Bool)
  | date
  | array (items : List Toml)
  | table (form : TableForm) (entries : List (String × Toml))
  /-- The tables under one header in double brackets; at least one. -/
  | tables (items : List (List (String × Toml)))
  deriving Repr, Inhabited

namespace Toml

abbrev Entries := List (String × Toml)

def put (es : Entries) (k : String) (v : Toml) : Entries :=
  if (es.lookup k).isSome then es.map fun e => if e.1 = k then (k, v) else e else es ++ [(k, v)]

/-- Works on the table at the end of a path, where missing tables on the way come to be. A table
in double brackets stands for its last one. Fails where a value is in the way. -/
def within (byKey : Bool) (change : TableForm → Entries → Option Entries) :
    List String → TableForm → Entries → Option Entries
  | [], form, es => change form es
  | k :: path, _, es =>
    match es.lookup k with
    | none => do
      let form : TableForm := if byKey then .dotted else .implied
      let sub ← within byKey change path form []
      pure (put es k (.table form sub))
    | some (.table form sub) =>
      if form = .inline ∨ (byKey ∧ form = .header) then none
      else do
        let sub ← within byKey change path form sub
        pure (put es k (.table form sub))
    | some (.tables ts) => do
      let last ← ts.getLast?
      let sub ← within byKey change path .header last
      pure (put es k (.tables (ts.dropLast ++ [sub])))
    | some _ => none

/-- Adds a new key. After a dotted key the table has to be one that dotted keys made. -/
def addKey (afterDots : Bool) (k : String) (v : Toml) (form : TableForm) (es : Entries) :
    Option Entries :=
  if (form = .dotted) ≠ afterDots ∨ (es.lookup k).isSome then none else some (es ++ [(k, v)])

/-- The path of a key and its last part. -/
def addDotted (path : List String) (k : String) (v : Toml) (form : TableForm) (es : Entries) :
    Option Entries :=
  within true (addKey (path ≠ []) k v) path form es

def openTable (k : String) (_ : TableForm) (es : Entries) : Option Entries :=
  match es.lookup k with
  | none => some (es ++ [(k, .table .header [])])
  | some (.table .implied sub) => some (put es k (.table .header sub))
  | some _ => none

def openTables (k : String) (_ : TableForm) (es : Entries) : Option Entries :=
  match es.lookup k with
  | none => some (es ++ [(k, .tables [[]])])
  | some (.tables ts) => some (put es k (.tables (ts ++ [[]])))
  | some _ => none

/-- What a line of a document says. A key or header is its path and its last part. -/
inductive Statement where
  | keyValue (path : List String) (key : String) (value : Toml)
  | table (path : List String) (key : String)
  | tables (path : List String) (key : String)

/-- The entries so far and the header that holds. -/
structure Document where
  entries : Entries := []
  current : List String := []

def Document.add (d : Document) : Statement → Option Document
  | .keyValue path k v => do
    let es ← within false (addDotted path k v) d.current .header d.entries
    pure { d with entries := es }
  | .table path k => do
    let es ← within false (openTable k) path .header d.entries
    pure ⟨es, path ++ [k]⟩
  | .tables path k => do
    let es ← within false (openTables k) path .header d.entries
    pure ⟨es, path ++ [k]⟩

def inlineTable (pairs : List (List String × String × Toml)) : Option Toml := do
  let es ← pairs.foldlM (fun es p => addDotted p.1 p.2.1 p.2.2 .header es) []
  pure (.table .inline es)

end Toml

end SchoolTimetable

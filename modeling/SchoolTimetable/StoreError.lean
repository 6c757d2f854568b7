/-!
What can go wrong in a store: a kind, a message, and where it happened.
-/
namespace SchoolTimetable

inductive StoreErrorKind where
  | connection
  | query
  | notFound
  | configuration
  | transaction
  | constraint
  deriving DecidableEq, Repr

namespace StoreErrorKind

def name : StoreErrorKind → String
  | connection => "ConnectionError"
  | query => "QueryError"
  | notFound => "NotFound"
  | configuration => "ConfigurationError"
  | transaction => "TransactionError"
  | constraint => "ConstraintViolation"

def label : StoreErrorKind → String
  | connection => "Connection error"
  | query => "Query error"
  | notFound => "Not found"
  | configuration => "Configuration error"
  | transaction => "Transaction error"
  | constraint => "Constraint violation"

end StoreErrorKind

structure ErrorContext where
  operation : Option String := none
  entity : Option String := none
  entityId : Option String := none
  details : Option String := none
  retryable : Bool := false
  deriving DecidableEq, Repr, Inhabited

/-- The parts that are known, in brackets. -/
def ErrorContext.text (c : ErrorContext) : String :=
  let part (label : String) (value : Option String) : List String :=
    (value.map fun v => label ++ "=" ++ v).toList
  let parts := part "operation" c.operation ++ part "entity" c.entity ++ part "id" c.entityId ++
    part "details" c.details ++ (if c.retryable then ["retryable=true"] else [])
  "[" ++ String.intercalate ", " parts ++ "]"

structure StoreError where
  kind : StoreErrorKind
  message : String
  context : ErrorContext := {}
  deriving DecidableEq, Repr

namespace StoreError

def text (e : StoreError) : String := s!"{e.kind.label}: {e.message} {e.context.text}"

/-- A lost connection is worth another try. -/
def connection (message : String) : StoreError := ⟨.connection, message, { retryable := true }⟩

def configuration (message : String) : StoreError := ⟨.configuration, message, {}⟩

def withOperation (e : StoreError) (operation : String) : StoreError :=
  { e with context := { e.context with operation := some operation } }

theorem withOperation_withOperation (e : StoreError) (a b : String) :
    (e.withOperation a).withOperation b = e.withOperation b := rfl

end StoreError

end SchoolTimetable

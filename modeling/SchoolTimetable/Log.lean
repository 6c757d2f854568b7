/-!
What the library tells its operator.
-/
namespace SchoolTimetable

inductive LogLevel where
  | debug
  | info
  | warn
  deriving DecidableEq, Repr

def LogLevel.name : LogLevel → String
  | debug => "DEBUG"
  | info => "INFO"
  | warn => "WARN"

structure LogRecord where
  level : LogLevel
  text : String
  deriving DecidableEq, Repr

end SchoolTimetable

import SchoolTimetable.Text.Blank
import SchoolTimetable.Text.Integer
import SchoolTimetable.StoreError
import SchoolTimetable.Timestamp

/-!
The settings of the scheduler, and the environment variables that go before them.
-/
namespace SchoolTimetable

structure Settings where
  proposalTtlSeconds : Nat := 1800
  gapRepairBudget : Nat := 12
  maxSlotsPerDay : Nat := 12
  deriving DecidableEq, Repr, Inhabited

namespace Settings

/-- The longest span that is counted in milliseconds by a signed 64-bit word, in seconds. -/
def maxTtlSeconds : Nat := (Text.wordSize 63 - 1) / 1000

def ttlSeconds (s : Settings) : Nat := min s.proposalTtlSeconds maxTtlSeconds

/-- In nanoseconds. -/
def ttl (s : Settings) : Int := Timestamp.seconds s.ttlSeconds

def ttlVariable : String := "TIMETABLE_PROPOSAL_TTL_SECS"
def gapRepairVariable : String := "TIMETABLE_GAP_REPAIR_ITERATIONS"
def maxSlotsVariable : String := "TIMETABLE_MAX_TIME_SLOTS_PER_DAY"

/-- The value of a variable, which must be a natural number of `bits` bits if it is set. -/
def valueOf? (env : List (String × String)) (bits : Nat) (name : String) :
    Except StoreError (Option Nat) :=
  match env.lookup name with
  | none => .ok none
  | some raw =>
    match Text.natural? bits (Text.trimChars raw.toList) with
    | some n => .ok (some n)
    | none =>
      .error (.configuration s!"{name} must be a non-negative integer, got '{raw}'")

def withEnvironment (s : Settings) (env : List (String × String)) :
    Except StoreError Settings := do
  let ttl ← valueOf? env 64 ttlVariable
  let budget ← valueOf? env 32 gapRepairVariable
  let slots ← valueOf? env 8 maxSlotsVariable
  pure
    { proposalTtlSeconds := ttl.getD s.proposalTtlSeconds
      gapRepairBudget := budget.getD s.gapRepairBudget
      maxSlotsPerDay := slots.getD s.maxSlotsPerDay }

end Settings

end SchoolTimetable

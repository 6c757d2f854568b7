import SchoolTimetable.Settings
import SchoolTimetable.Toml.Reader

/-!
Settings in a TOML file: the table `scheduler`, in which every key may be missing. Other keys and
tables count for nothing.
-/
namespace SchoolTimetable.Settings

/-- A number below `2 ^ bits`, or the default where there is none. -/
def number? (bits default : Nat) : Option Toml → Option Nat
  | none => some default
  | some (.int n) => if 0 ≤ n ∧ n < Text.wordSize bits then some n.toNat else none
  | some _ => none

def ofParts? (ttl budget slots : Option Toml) : Option Settings := do
  let d : Settings := {}
  let ttl ← number? 64 d.proposalTtlSeconds ttl
  let budget ← number? 32 d.gapRepairBudget budget
  let slots ← number? 8 d.maxSlotsPerDay slots
  pure ⟨ttl, budget, slots⟩

/-- A table by its keys; an array gives the values in order; a date has no keys. -/
def ofToml? : Toml → Option Settings
  | .table _ es =>
    ofParts? (es.lookup "proposal_ttl_secs") (es.lookup "gap_repair_iterations")
      (es.lookup "max_time_slots_per_day")
  | .array items => ofParts? items[0]? items[1]? items[2]?
  | .date => some ({} : Settings)
  | _ => none

def parseFailure : String := "Failed to parse config file"
def readFailure : String := "Failed to read config file"

def ofText (text : String) : Except StoreError Settings :=
  let settings := do
    let es ← Toml.read? text
    match es.lookup "scheduler" with
    | none => some ({} : Settings)
    | some t => ofToml? t
  match settings with
  | some s => .ok s
  | none => .error (.configuration parseFailure)

/-- What stands under a path. -/
inductive FileEntry where
  | missing
  | directory
  | file (text : String)
  deriving DecidableEq, Repr

def ofFile (look : String → FileEntry) (path : String) : Except StoreError Settings :=
  match look path with
  | .file text => ofText text
  | _ => .error (.configuration readFailure)

/-- Where the file of the settings is looked for, in this order. -/
def searchPaths : List String := ["timetable.toml", "backend/timetable.toml", "../timetable.toml"]

/-- The first path under which anything stands decides. -/
def ofDefaultLocation (look : String → FileEntry) : Except StoreError Settings :=
  match searchPaths.find? fun p => look p ≠ .missing with
  | some p => ofFile look p
  | none => .error (.configuration "No timetable.toml found in standard locations")

end SchoolTimetable.Settings

import SchoolTimetable.Request
import SchoolTimetable.Settings
import SchoolTimetable.Store.Transaction

/-!
A session: the main store, the store that holds the daily table where that is another one, the
cached proposals, and what has been logged. A service operation changes the session and may fail;
what it changed before it failed, it has changed.
-/
namespace SchoolTimetable

structure Session where
  main : Store := {}
  /-- The store of the daily table; without one, the main store. -/
  replica : Option Store := none
  proposals : ProposalCache
  settings : Settings := {}
  log : List LogRecord := []
  deriving DecidableEq, Repr

abbrev Service := ExceptT ServiceError (StateM Session)

namespace Session

def feed (s : Session) : Store := s.replica.getD s.main

def setFeed (s : Session) (x : Store) : Session :=
  match s.replica with
  | none => { s with main := x }
  | some _ => { s with replica := some x }

theorem feed_setFeed (s : Session) (x : Store) : (s.setFeed x).feed = x := by
  cases h : s.replica <;> simp [setFeed, feed, h]

def addNotes (s : Session) (notes : List LogRecord) : Session := { s with log := s.log ++ notes }

end Session

namespace Service
variable {α : Type}

def note (notes : List LogRecord) : Service Unit := modify (·.addNotes notes)

def info (text : String) : Service Unit := note [⟨.info, text⟩]
def debug (text : String) : Service Unit := note [⟨.debug, text⟩]

/-- A read of a store; its errors are internal. -/
def reading (r : Except StoreError α) : Service α := ExceptT.mk (pure (r.mapError .internal))

/-- An update of the main store. -/
def onMain (u : StoreUpdate α) : Service α := do
  let (r, x) := u.run (← get).main
  modify fun s => { s with main := x }
  reading r

/-- An update of the store that holds the daily table. -/
def onFeed (u : StoreUpdate α) : Service α := do
  let (r, x) := u.run (← get).feed
  modify fun s => s.setFeed x
  reading r

/-- Runs to the end and keeps the outcome, whichever it is. -/
def outcome (a : Service α) : Service (Except ServiceError α) := fun s =>
  let (r, s) := a.run s
  (.ok r, s)

def commit (tx : Nat) : Service Unit := do
  let n ← onMain (Store.commit tx)
  note [Store.commitNote tx n]

def rollback (tx : Nat) : Service Unit := do
  let notes := (← get).main.rollbackNotes tx
  modify fun s => { s with main := s.main.rollback tx }
  note notes

/-- Runs inside a transaction of the main store: commits if all went well, rolls back if not. -/
def inTransaction (body : Nat → Service α) : Service α := do
  let tx ← onMain Store.begin
  match ← outcome (body tx) with
  | .ok a => do
    commit tx
    pure a
  | .error e => do
    rollback tx
    throw e

end Service

end SchoolTimetable

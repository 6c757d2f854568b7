import SchoolTimetable.Json.Reader
import SchoolTimetable.Json.Writer
import SchoolTimetable.Timestamp.Text
import SchoolTimetable.Plan
import SchoolTimetable.Store.Transaction
import SchoolTimetable.Store.Ledgers
import SchoolTimetable.ServiceError
import SchoolTimetable.Proposal
import SchoolTimetable.Settings
import SchoolTimetable.Wire.Error
import SchoolTimetable.Session.Generate
import SchoolTimetable.Session.Proposals
import SchoolTimetable.Session.Semesters
import SchoolTimetable.Session.DailyTable
import SchoolTimetable.Settings.File
import SchoolTimetable.Proofs.Entries
import SchoolTimetable.Proofs.Text
import SchoolTimetable.Proofs.Weekday
import SchoolTimetable.Proofs.Window
import SchoolTimetable.Proofs.Ledger
import SchoolTimetable.Proofs.Board.Steps
import SchoolTimetable.Proofs.Board.Books
import SchoolTimetable.Proofs.Perform
import SchoolTimetable.Proofs.Store.Staging
import SchoolTimetable.Proofs.Store.Runs
import SchoolTimetable.Proofs.Clashes
import SchoolTimetable.Proofs.Store.Steps
import SchoolTimetable.Proofs.Store.Atomicity
import SchoolTimetable.Proofs.Store.Interleaving
import SchoolTimetable.Proofs.Store.SlotOwners
import SchoolTimetable.Proofs.Session.Outcomes
import SchoolTimetable.Proofs.Session.Save
import SchoolTimetable.Proofs.Store.Ledgers
import SchoolTimetable.Proofs.Session.Requests
import SchoolTimetable.Proofs.Session.Generate
import SchoolTimetable.Proofs.Session.Acceptance
import SchoolTimetable.Proofs.Session.Scores
import SchoolTimetable.Proofs.Session.Runs
import SchoolTimetable.Proofs.Session.DailySafety
import SchoolTimetable.Proofs.Board.Teachers
import SchoolTimetable.Proofs.Board.Sliding
import SchoolTimetable.Proofs.Board.Units
import SchoolTimetable.Proofs.Board.Order
import SchoolTimetable.Proofs.Board.Shortfalls
import SchoolTimetable.Proofs.Board.Maximality
import SchoolTimetable.Proofs.Board.Choices
import SchoolTimetable.Proofs.Board.Balance
import SchoolTimetable.Proofs.Board.Caps
import SchoolTimetable.Proofs.Board.Settling
import SchoolTimetable.Proofs.Board.Budgets
import SchoolTimetable.Proofs.Board.Filling
import SchoolTimetable.Proofs.Board.Penalties
import SchoolTimetable.Proofs.Session.TwoStores
import SchoolTimetable.Proofs.Session.Agreement
import SchoolTimetable.Proofs.Session.Permanence
import SchoolTimetable.Proofs.Session.Consistency
import SchoolTimetable.Proofs.Session.Unhindered
import SchoolTimetable.Proofs.Store.Isolation
import SchoolTimetable.Proofs.Store.Commutation
import SchoolTimetable.Proofs.Store.Refusals
import SchoolTimetable.Proofs.Store.NetEffect
import SchoolTimetable.Proofs.Session.Eviction
import SchoolTimetable.Proofs.Session.OneByOne
import SchoolTimetable.Proofs.Session.Creation
import SchoolTimetable.Proofs.Session.TwoPaths
import SchoolTimetable.Proofs.Session.Deletion
import SchoolTimetable.Proofs.Board.Slots
import SchoolTimetable.Proofs.Ledger.Calls
import SchoolTimetable.Proofs.Ledger.Moves
import SchoolTimetable.Proofs.Wire
import SchoolTimetable.Proofs.Session.Accounts

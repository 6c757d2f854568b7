import SchoolTimetable.Proofs.Board.Balance
import SchoolTimetable.Proofs.Session.Generate

/-!
Requests whose teachers nothing hinders. The loads of an accepted request fill its grid exactly, so
where all of its teachers are free to take any cell, none of its lessons is missed.
-/
namespace SchoolTimetable

namespace GenerateRequest
variable {r : GenerateRequest} {main feed : Store} {b : PlanBasis}

/-- Nothing that is stored hinders the teacher: there are no caps, no windows that can be read, and
no lessons in the term. -/
structure LeavesFree (r : GenerateRequest) (main feed : Store) (t : TeacherId) : Prop where
  caps : ∀ p, main.preferences.get? t = some p → p.dailyCap = 0 ∧ p.weeklyCap = 0
  windows : ∀ p, main.preferences.get? t = some p → ∀ raw ∈ p.windows,
    ∀ cells, Window.parse raw r.slotsPerDay.toNat ≠ .ok cells
  lessons : ∀ row ∈ feed.daily.values, row.teacher = t → row.term ≠ r.term

theorem Based.unhindered (based : r.Based main feed b) {t : TeacherId}
    (free : r.LeavesFree main feed t) {a : Availability} (found : b.ledgers.get? t = some a) :
    a.Unhindered := by
  have caps := Availability.ofPreference_caps (main.preferences.get? t) b.slotsPerDay
    (feed.commitments r.term t)
  rw [based.ledgers t a found]
  refine ⟨caps.1.trans ?_, caps.2.trans ?_, fun c => ?_, fun c => ?_⟩
  · cases wish : main.preferences.get? t with
    | none => rfl
    | some p => exact (free.caps p wish).1
  · cases wish : main.preferences.get? t with
    | none => rfl
    | some p => exact (free.caps p wish).2
  · rw [← Bool.not_eq_true, Availability.isBlocked_ofPreference]
    rintro (⟨p, wish, raw, listed, cells, parsed, _⟩ | ⟨row, given, _⟩)
    · exact free.windows p wish raw listed cells (based.slots ▸ parsed)
    · obtain ⟨present, own, term⟩ := Store.mem_commitments.mp given
      exact free.lessons row present own term
  · rw [Availability.isReserved, (Availability.ofPreference_unreserved _ _ _).reserved]
    rfl

end GenerateRequest

namespace Service
open Board

/-- Loads of teachers whom nothing hinders are placed evenly on a board without lessons, whatever
calls led to it, and only what goes beyond the grid is missed. So an accepted request for such
teachers comes to a proposal that can be kept. -/
theorem unhindered_teachers_balance :
    (∀ (slots : Nat) (days : List Nat) (teachers : Table TeacherId Availability)
      (calls : List BoardCall) (loads : List SubjectLoad),
      let b := (start slots days teachers).afterCalls calls
      let filled := (b.placeLoads loads).1
      (∀ t a, teachers.get? t = some a → a.Built) → b.lessons = [] →
      (∀ l ∈ loads, ∀ a, b.teachers.get? l.teacher = some a → a.Unhindered) →
      (∀ d ∈ days, ∀ d' ∈ days, filled.dayLoad d ≤ filled.dayLoad d' + 1) ∧
        filled.shortfalls.length = b.shortfalls.length +
          (total (loads.map (·.weeklyCount)) - slots * days.dedup.length)) ∧
    ∀ (s t : Session) (id : String) (now : Timestamp) (r : GenerateRequest)
      (answer : GenerateResponse), perform s (generate id now r) = (.ok answer, t) →
      (∀ l ∈ r.loads, r.LeavesFree s.main s.feed l.teacher) →
      answer.shortfalls = [] ∧ ∃ p, t.proposals.entries.get? id = some p ∧
        answer = p.toResponse ∧ p.isSavable = true := by
  constructor
  · intro slots days teachers calls loads b filled built none free
    have run : Steps (fun _ => True) (start slots days teachers) b :=
      afterCalls_steps _ fun _ _ _ _ => trivial
    have inStep := (start_inStep slots days built).steps run
    obtain ⟨even, count⟩ := inStep.placeLoads_balanced none free
    have placed := (inStep.steps (placeLoads_steps b loads)).sameDays
    refine ⟨fun d listed d' listed' => ?_, count⟩
    exact even d (placed ▸ mem_sortDistinct_iff.mpr listed) d'
      (placed ▸ mem_sortDistinct_iff.mpr listed')
  · intro s t id now r answer run free
    obtain ⟨b, p, based, made, told, _, _, _, cache⟩ := generate_ok run
    have known : ∀ l ∈ r.loads, ∀ a, b.ledgers.get? l.teacher = some a → a.Unhindered :=
      fun l member a found => based.unhindered (free l member) found
    have count := (based.start_inStep.placeLoads_balanced rfl known).2
    have distinct : b.days.Nodup := by
      rw [based.days]
      exact (Weekday.normalize_sorted r.days).imp Nat.ne_of_lt
    have fits : total (r.loads.map (·.weeklyCount)) = b.slotsPerDay * b.days.length := based.filled
    rw [distinct.dedup, fits, Nat.sub_self] at count
    -- The repair leaves the shortfalls as placement has noted them.
    have repaired := (repairGaps_slid s.settings.gapRepairBudget
      ((start b.slotsPerDay b.days b.ledgers).placeLoads r.loads).1).shortfalls
    have none : p.shortfalls = [] := by
      rw [made]
      exact repaired.trans (List.length_eq_zero_iff.mp count)
    have key : p.id = id := made ▸ rfl
    refine ⟨told ▸ none, p, ?_, told, List.isEmpty_iff.mpr none⟩
    rw [cache, ← key]
    exact Table.get?_insert_self _ _ _

def freeTeacher : Session :=
  { staffRoom with
    main := staffRoom.main.afterCalls
      [.addAssignment ⟨"dan", "c1", "t1", "math"⟩, .setPreference ⟨"dan", 0, 0, ["no day"]⟩,
        .addDaily ⟨"t2", "c1", "math", "dan", ⟨1, 1⟩, none⟩] }

def allByDan : GenerateRequest where
  term := "t1"
  classId := "c1"
  slotsPerDay := 2
  days := [2, 1, 2]
  loads := [⟨"math", "dan", 3, 0, [2], none⟩, ⟨"math", "dan", 1, 5, [9, 2], none⟩]

theorem allByDan_free : ∀ l ∈ allByDan.loads,
    allByDan.LeavesFree freeTeacher.main freeTeacher.feed l.teacher := by
  have wish : freeTeacher.main.preferences.get? "dan" = some ⟨"dan", 0, 0, ["no day"]⟩ := by
    decide +kernel
  have unread : Window.parse "no day" 2 = .error (.unknownDay "no day") := by decide +kernel
  have dan : allByDan.LeavesFree freeTeacher.main freeTeacher.feed "dan" := by
    refine ⟨fun p own => ?_, fun p own raw listed cells => ?_, by decide +kernel⟩
    · cases wish.symm.trans own
      exact ⟨rfl, rfl⟩
    · cases wish.symm.trans own
      rw [List.mem_singleton.mp listed]
      exact fun parsed => nomatch unread.symm.trans parsed
  simpa [allByDan] using dan

theorem unhindered_teachers_balance_dan :
    let loads : List SubjectLoad :=
      [⟨"math", "ann", 4, 0, [2, 2], none⟩, ⟨"art", "bea", 3, 1, [7], none⟩]
    let filled := ((start 2 [3, 1, 5, 1] Table.empty).placeLoads loads).1
    [1, 3, 5].map filled.dayLoad = [2, 2, 2] ∧ filled.shortfalls.length = 1 ∧
      ∃ answer t p, perform freeTeacher (generate "p1" ⟨20000, 0, 0⟩ allByDan) = (.ok answer, t) ∧
        t.proposals.entries.get? "p1" = some p ∧ answer.lessons.length = 4 ∧
        p.isSavable = true := by
  intro loads filled
  have none : ∀ t a, (Table.empty : Table TeacherId Availability).get? t = some a → False := nofun
  obtain ⟨_, missed⟩ := unhindered_teachers_balance.1 2 [3, 1, 5, 1] Table.empty [] loads
    (fun t a found => (none t a found).elim) rfl fun l _ a found => (none l.teacher a found).elim
  have given : (perform freeTeacher (generate "p1" ⟨20000, 0, 0⟩ allByDan)).1.toOption.map
      (·.lessons.length) = some 4 := by decide +kernel
  refine ⟨by decide +kernel, missed, ?_⟩
  cases run : perform freeTeacher (generate "p1" ⟨20000, 0, 0⟩ allByDan) with
  | mk result t =>
    rw [run] at given
    cases result with
    | error e => cases given
    | ok answer =>
      obtain ⟨_, p, cached, _, keeps⟩ :=
        unhindered_teachers_balance.2 freeTeacher t "p1" ⟨20000, 0, 0⟩ allByDan answer run
          allByDan_free
      exact ⟨answer, t, p, rfl, cached, Option.some.inj given, keeps⟩

end Service

end SchoolTimetable

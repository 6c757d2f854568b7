import SchoolTimetable.Session.Generate
import SchoolTimetable.Proofs.Board.Units
import SchoolTimetable.Proofs.Session.Outcomes
import SchoolTimetable.Proofs.Session.Requests
import SchoolTimetable.Proofs.Store.Runs

/-!
What planning starts from when a request is accepted, and what it leaves behind: the stores as
they were, and one more proposal in the cache.
-/
namespace SchoolTimetable

namespace GenerateRequest
variable {r : GenerateRequest} {main feed : Store} {maxSlots : Nat} {b : PlanBasis}

structure Shaped (r : GenerateRequest) (maxSlots slots : Nat) (days : List Nat) : Prop where
  named : Text.blank r.term = false ∧ Text.blank r.classId = false
  loads : ∀ l ∈ r.loads, Text.blank l.subject = false ∧ Text.blank l.teacher = false
  most : r.slotsPerDay ≤ maxSlots
  sameSlots : slots = r.slotsPerDay.toNat
  sameDays : days = Weekday.normalize r.days
  filled : r.weeklyTotal = slots * days.length

theorem shape_ok {slots : Nat} {days : List Nat} (run : r.shape maxSlots = .ok (slots, days)) :
    r.Shaped maxSlots slots days := by
  obtain ⟨formed, same⟩ := shape_ok_iff.mp run
  obtain ⟨sameSlots, sameDays⟩ := Prod.mk.inj same
  refine ⟨⟨formed.term, formed.classId⟩, formed.named, formed.slots.2, sameSlots, sameDays, ?_⟩
  rw [sameSlots, sameDays, Weekday.length_normalize]
  exact formed.filled

theorem checkPairs_ok {own : List Assignment} {u : Unit} (run : r.checkPairs own = .ok u)
    {l : SubjectLoad} (member : l ∈ r.loads) :
    ∃ a ∈ own, a.teacher = l.teacher ∧ a.subject = l.subject := by
  obtain ⟨v, passed⟩ := forM_ok_of_mem run member
  split at passed
  · rename_i some
    obtain ⟨a, listed, pair⟩ := List.any_eq_true.mp some
    exact ⟨a, listed, of_decide_eq_true pair⟩
  · cases passed

structure Based (r : GenerateRequest) (main feed : Store) (b : PlanBasis) : Prop where
  slots : b.slotsPerDay = r.slotsPerDay.toNat
  days : b.days = Weekday.normalize r.days
  filled : r.weeklyTotal = b.slotsPerDay * b.days.length
  assigned : ∀ l ∈ r.loads, ∃ a ∈ main.assignments, a.classId = r.classId ∧ a.term = r.term ∧
    a.teacher = l.teacher ∧ a.subject = l.subject
  known : ∀ l ∈ r.loads, ∃ a, b.ledgers.get? l.teacher = some a
  ledgers : ∀ t a, b.ledgers.get? t = some a →
    a = .ofPreference (main.preferences.get? t) b.slotsPerDay (feed.commitments r.term t)

theorem basis_ok (run : r.basis main feed maxSlots = .ok b) : r.Based main feed b := by
  unfold basis at run
  obtain ⟨⟨slots, days⟩, shaped, run⟩ := except_bind_ok.mp run
  have shape := shape_ok (mapError_ok.mp shaped)
  obtain ⟨_, _, run⟩ := except_bind_ok.mp run
  obtain ⟨own, listed, run⟩ := except_bind_ok.mp run
  obtain ⟨_, _, listed⟩ := except_bind_ok.mp (mapError_ok.mp listed)
  split at run
  · cases run
  obtain ⟨_, paired, run⟩ := except_bind_ok.mp run
  obtain ⟨table, made, run⟩ := except_bind_ok.mp run
  cases run
  cases listed
  have ledgers := Store.ledgers_ok (mapError_ok.mp made)
  refine ⟨shape.sameSlots, shape.sameDays, shape.filled, ?_, ?_, fun t => (ledgers t).2⟩
  · intro l member
    obtain ⟨a, source, pair⟩ := checkPairs_ok paired member
    obtain ⟨kept, own⟩ := List.mem_filter.mp source
    have scope := of_decide_eq_true own
    exact ⟨a, kept, scope.1, scope.2, pair⟩
  · intro l member
    apply (ledgers l.teacher).1
    exact List.mem_append_right _ (List.mem_map_of_mem member)

theorem Based.start_inStep (based : r.Based main feed b) :
    Board.InStep (.start b.slotsPerDay b.days b.ledgers)
      (.start b.slotsPerDay b.days b.ledgers) := by
  apply Board.start_inStep
  intro t a found
  rw [based.ledgers t a found]
  exact .ofPreference _ _ _

theorem Based.ledger (based : r.Based main feed b) {l : SubjectLoad} (member : l ∈ r.loads) :
    (Board.start b.slotsPerDay b.days b.ledgers).ledger l.teacher =
      .ofPreference (main.preferences.get? l.teacher) b.slotsPerDay
        (feed.commitments r.term l.teacher) := by
  obtain ⟨a, found⟩ := based.known l member
  have entry : (Board.start b.slotsPerDay b.days b.ledgers).ledger l.teacher = a := by
    change (b.ledgers.get? l.teacher).getD .unlimited = a
    rw [found]
    rfl
  rw [entry]
  exact based.ledgers l.teacher a found

structure Suits (r : GenerateRequest) (main feed : Store) (lessons : List Lesson) (l : Lesson) :
    Prop where
  day : l.cell.day ∈ Weekday.normalize r.days
  slot : 1 ≤ l.cell.slot ∧ (l.cell.slot : Int) ≤ r.slotsPerDay
  assigned : ∃ a ∈ main.assignments, a.classId = r.classId ∧ a.term = r.term ∧
    a.teacher = l.teacher ∧ a.subject = l.subject
  windows : ∀ p, main.preferences.get? l.teacher = some p → ∀ raw ∈ p.windows,
    ∀ cells, Window.parse raw r.slotsPerDay.toNat = .ok cells → l.cell ∉ cells
  free : ∀ row ∈ feed.daily.values, row.teacher = l.teacher → row.term = r.term →
    row.cell ≠ l.cell
  weekly : ∀ p, main.preferences.get? l.teacher = some p → p.weeklyCap ≠ 0 →
    (lessons.filter (·.teacher = l.teacher)).length ≤ p.weeklyCap
  daily : ∀ p, main.preferences.get? l.teacher = some p → p.dailyCap ≠ 0 → ∀ day,
    (lessons.filter fun x => x.teacher = l.teacher ∧ x.cell.day = day).length ≤ p.dailyCap

end GenerateRequest

namespace Service
variable {s t : Session} {id : String} {now : Timestamp} {r : GenerateRequest}

def planned (s : Session) (r : GenerateRequest) (b : PlanBasis) : PlanRun :=
  .make r.loads b.slotsPerDay b.days b.ledgers s.settings.gapRepairBudget

theorem generate_ok {answer : GenerateResponse}
    (run : perform s (generate id now r) = (.ok answer, t)) :
    ∃ b p, r.Based s.main s.feed b ∧ p = r.toProposal b ((planned s r b).outcome r.loads) id now ∧
      answer = p.toResponse ∧ t.main = s.main ∧ t.replica = s.replica ∧
      t.settings = s.settings ∧ t.proposals = s.proposals.save p := by
  unfold generate at run
  obtain ⟨s₁, s₂, got, run⟩ := perform_bind_ok.mp run
  cases got
  obtain ⟨b, s₃, taken, run⟩ := perform_bind_ok.mp run
  obtain ⟨based, same⟩ := lift_iff.mp taken
  subst same
  cases run
  exact ⟨b, _, GenerateRequest.basis_ok based, rfl, rfl, rfl, rfl, rfl, rfl⟩

theorem generate_error {e : ServiceError}
    (run : perform s (generate id now r) = (.error e, t)) : t = s := by
  unfold generate at run
  rcases perform_bind_error.mp run with failed | ⟨s₁, s₂, got, run⟩
  · cases failed
  · cases got
    rcases perform_bind_error.mp run with failed | ⟨b, s₃, based, run⟩
    · exact (lift_iff.mp failed).2.symm
    · cases run

theorem planned_steps (s : Session) (r : GenerateRequest) (b : PlanBasis) :
    Board.Steps (· ∈ r.loads) (.start b.slotsPerDay b.days b.ledgers) (planned s r b).board :=
  PlanRun.make_steps _ _ _ _ _

theorem planned_inStep {b : PlanBasis} (based : r.Based s.main s.feed b) :
    Board.InStep (.start b.slotsPerDay b.days b.ledgers) (planned s r b).board :=
  based.start_inStep.steps (planned_steps s r b)

theorem planned_cells_nodup {b : PlanBasis} (based : r.Based s.main s.feed b) :
    ((planned s r b).board.lessons.map (·.cell)).Nodup := by
  rw [(planned_inStep based).lessons_cells]
  exact Table.keys_nodup _

theorem planned_suits {b : PlanBasis} (based : r.Based s.main s.feed b) {l : Lesson}
    (member : l ∈ (planned s r b).board.lessons) :
    r.Suits s.main s.feed (planned s r b).board.lessons l := by
  have inStep := planned_inStep based
  have steps := planned_steps s r b
  have within := Board.WithinCaps.steps based.start_inStep steps
  have found := inStep.mem_lessons.mp member
  have gives : (planned s r b).board.Gives l.teacher l.cell := ⟨l, found, rfl⟩
  obtain ⟨listed, least, most⟩ := (inStep.stored _ l found).2
  obtain ⟨x, asked, subject, teacher, _⟩ :=
    (Board.start_teachesAsked _ _ _ _).steps steps l.cell l found
  have ledger := based.ledger asked
  rw [← teacher] at ledger
  have unblocked := inStep.unblocked _ _ gives
  rw [ledger, ← Bool.not_eq_true, Availability.isBlocked_ofPreference, based.slots] at unblocked
  have caps := Availability.ofPreference_caps (s.main.preferences.get? l.teacher) b.slotsPerDay
    (s.feed.commitments r.term l.teacher)
  have loads := within.lessons inStep (ledger ▸ Availability.ofPreference_unreserved _ _ _)
  rw [ledger, caps.1, caps.2] at loads
  rw [inStep.sameDays] at listed
  rw [inStep.sameSlots] at most
  have top : l.cell.slot ≤ r.slotsPerDay.toNat := based.slots ▸ most
  refine ⟨?_, ⟨least, by omega⟩, ?_, ?_, ?_, ?_, ?_⟩
  · rw [← based.days]
    exact mem_sortDistinct_iff.mp listed
  · obtain ⟨a, stored, classId, term, same, sameSubject⟩ := based.assigned x asked
    exact ⟨a, stored, classId, term, same.trans teacher.symm, sameSubject.trans subject.symm⟩
  · intro p wish raw listed cells parsed inside
    exact unblocked (Or.inl ⟨p, wish, raw, listed, cells, parsed, inside⟩)
  · intro row present own term same
    exact unblocked (Or.inr ⟨row, Store.mem_commitments.mpr ⟨present, own, term⟩, same⟩)
  · intro p wish capped
    rw [wish] at loads
    exact loads.1 capped
  · intro p wish capped
    rw [wish] at loads
    exact loads.2 capped

/-- The lessons that come of an accepted request are in the order of their cells, each in a cell of
its own, and all of them suit the request and what is stored about their teachers. -/
theorem generate_respects_teachers {answer : GenerateResponse}
    (run : perform s (generate id now r) = (.ok answer, t)) :
    (answer.lessons.Pairwise fun a b => Key.before a.cell b.cell = true) ∧
      ∀ l ∈ answer.lessons, r.Suits s.main s.feed answer.lessons l := by
  obtain ⟨b, p, based, made, told, _⟩ := generate_ok run
  have lessons : answer.lessons = (planned s r b).board.lessons := by
    rw [told, made]
    rfl
  rw [lessons]
  constructor
  · have keys := Table.keys_sorted (planned s r b).board.grid
    rw [← (planned_inStep based).lessons_cells] at keys
    exact List.pairwise_map.mp keys
  · exact fun l member => planned_suits based member

def staffRoom : Session where
  main := Store.afterCalls {}
    [.addTerm ⟨"t1", "spring"⟩, .addClass ⟨"c1", "first"⟩, .addSubject ⟨"art", "arts"⟩,
      .addSubject ⟨"math", "mathematics"⟩, .addAssignment ⟨"ann", "c1", "t1", "math"⟩,
      .addAssignment ⟨"bea", "c1", "t1", "art"⟩, .addAssignment ⟨"cid", "c1", "t1", "art"⟩,
      .setPreference ⟨"ann", 1, 2, ["Monday: 3", "no day"]⟩,
      .setPreference ⟨"cid", 0, 0, ["MON"]⟩,
      .addDaily ⟨"t1", "c2", "math", "bea", ⟨1, 1⟩, none⟩]
  proposals := { ttl := Timestamp.seconds 60 }

def mondayOnly : GenerateRequest where
  term := "t1"
  classId := "c1"
  slotsPerDay := 6
  days := [9, 1, 1]
  loads := [⟨"art", "bea", 1, 1, [], none⟩, ⟨"math", "ann", 2, 0, [6], none⟩,
    ⟨"art", "cid", 3, 0, [], none⟩]

theorem generate_respects_teachers_after_repair :
    ∃ answer t, perform staffRoom (generate "p1" ⟨20000, 0, 0⟩ mondayOnly) = (.ok answer, t) ∧
      answer.stats.iterations = 2 ∧ answer.lessons.map (·.cell) = [⟨1, 2⟩, ⟨1, 4⟩] ∧
      ∀ l ∈ answer.lessons, mondayOnly.Suits staffRoom.main staffRoom.feed answer.lessons l := by
  have planned : (perform staffRoom (generate "p1" ⟨20000, 0, 0⟩ mondayOnly)).1.toOption.map
      (fun answer => (answer.stats.iterations, answer.lessons.map (·.cell))) =
        some (2, [⟨1, 2⟩, ⟨1, 4⟩]) := by decide +kernel
  cases run : perform staffRoom (generate "p1" ⟨20000, 0, 0⟩ mondayOnly) with
  | mk result t =>
    rw [run] at planned
    cases result with
    | error e => cases planned
    | ok answer =>
      have both := Prod.mk.inj (Option.some.inj planned)
      exact ⟨answer, t, rfl, both.1, both.2, (generate_respects_teachers run).2⟩

end Service

end SchoolTimetable

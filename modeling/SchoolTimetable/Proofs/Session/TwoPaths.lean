import SchoolTimetable.Proofs.Session.Agreement
import SchoolTimetable.Proofs.Session.OneByOne
import SchoolTimetable.Proofs.Store.Atomicity

/-!
Two ways to publish a timetable. Kept and published as a whole, its lessons are checked first and
come into the daily table at one commit; added one by one, each is checked as a request of its own.
What was asked of the request for the timetable is enough for its lessons to be valid requests, and
the catalog only grows, so both ways are open to the same timetables and lead to the same rows.
-/
namespace SchoolTimetable

namespace Store
variable {s t : Store} {tx : Nat}

structure Knows (s t : Store) : Prop where
  terms : ∀ id, (s.terms.get? id).isSome = true → (t.terms.get? id).isSome = true
  classes : ∀ id, (s.classes.get? id).isSome = true → (t.classes.get? id).isSome = true
  subjects : ∀ id, (s.subjects.get? id).isSome = true → (t.subjects.get? id).isSome = true

theorem Knows.of_eq (terms : t.terms = s.terms) (classes : t.classes = s.classes)
    (subjects : t.subjects = s.subjects) : s.Knows t :=
  ⟨fun _ known => terms ▸ known, fun _ known => classes ▸ known, fun _ known => subjects ▸ known⟩

theorem Knows.trans {u : Store} (first : s.Knows t) (second : t.Knows u) : s.Knows u where
  terms := fun id known => second.terms id (first.terms id known)
  classes := fun id known => second.classes id (first.classes id known)
  subjects := fun id known => second.subjects id (first.subjects id known)

theorem afterCall_knows (s : Store) (call : StoreCall) : s.Knows (s.afterCall call) := by
  cases call with
  | addTerm t => exact ⟨fun _ => Table.isSome_insert t.id t, fun _ => id, fun _ => id⟩
  | addClass c => exact ⟨fun _ => id, fun _ => Table.isSome_insert c.id c, fun _ => id⟩
  | addSubject x => exact ⟨fun _ => id, fun _ => id, fun _ => Table.isSome_insert x.id x⟩
  | commit tx =>
    cases run : perform s (commit tx) with
    | mk result t =>
      have rest := (commit_ended run).1.rest
      rw [afterCall, run, rest]
      exact .of_eq rfl rfl rfl
  | _ =>
    -- the others write elsewhere, and those that are refused write nothing
    simp only [afterCall, failOn, perform_begin, perform_insert, perform_bulkInsert,
      perform_createVersioned, perform_updateStatus, perform_delete, perform_bulkUpsert,
      perform_deleteSlots]
    repeat' split
    all_goals exact .of_eq rfl rfl rfl

theorem Leads.knows (run : s.Leads t) : s.Knows t :=
  Leads.induction (P := s.Knows) (fun u call known => known.trans (afterCall_knows u call)) run
    (.of_eq rfl rfl rfl)

end Store

namespace GenerateRequest
variable {r : GenerateRequest} {main feed : Store} {maxSlots : Nat} {b : PlanBasis}

structure Accepted (r : GenerateRequest) (main : Store) (maxSlots : Nat) : Prop where
  named : Text.blank r.term = false ∧ Text.blank r.classId = false
  loads : ∀ l ∈ r.loads, Text.blank l.subject = false ∧ Text.blank l.teacher = false
  most : r.slotsPerDay ≤ maxSlots
  term : (main.terms.get? r.term).isSome = true
  classId : (main.classes.get? r.classId).isSome = true
  subjects : ∀ l ∈ r.loads, (main.subjects.get? l.subject).isSome = true

theorem checkReferences_ok {u : Unit} (run : r.checkReferences main = .ok u) :
    (main.terms.get? r.term).isSome = true ∧ (main.classes.get? r.classId).isSome = true ∧
      ∀ l ∈ r.loads, (main.subjects.get? l.subject).isSome = true := by
  obtain ⟨_, term, run⟩ := except_bind_ok.mp run
  obtain ⟨_, classId, run⟩ := except_bind_ok.mp run
  refine ⟨ServiceError.required_known term, ServiceError.required_known classId,
    fun l member => ?_⟩
  have listed : l.subject ∈ sortDistinct (r.loads.map (·.subject)) :=
    mem_sortDistinct_iff.mpr (List.mem_map_of_mem member)
  obtain ⟨_, subject⟩ := forM_ok_of_mem run listed
  exact ServiceError.required_known subject

theorem basis_accepts (run : r.basis main feed maxSlots = .ok b) : r.Accepted main maxSlots := by
  obtain ⟨⟨slots, days⟩, shaped, run⟩ := except_bind_ok.mp run
  obtain ⟨_, referred, _⟩ := except_bind_ok.mp run
  have shape := shape_ok (mapError_ok.mp shaped)
  obtain ⟨term, classId, subjects⟩ := checkReferences_ok referred
  exact ⟨shape.named, shape.loads, shape.most, term, classId, subjects⟩

end GenerateRequest

namespace Service
variable {s t u : Session} {id : String} {now : Timestamp} {r : GenerateRequest}
  {answer : GenerateResponse}

theorem generate_accepts (run : perform s (generate id now r) = (.ok answer, t)) :
    r.Accepted s.main s.settings.maxSlotsPerDay := by
  obtain ⟨s₁, s₂, got, run⟩ := perform_bind_ok.mp run
  cases got
  obtain ⟨b, s₃, taken, run⟩ := perform_bind_ok.mp run
  exact GenerateRequest.basis_accepts (lift_iff.mp taken).1

theorem generate_asked (run : perform s (generate id now r) = (.ok answer, t)) {l : Lesson}
    (member : l ∈ answer.lessons) :
    ∃ x ∈ r.loads, l.subject = x.subject ∧ l.teacher = x.teacher := by
  obtain ⟨b, p, based, made, told, _⟩ := generate_ok run
  have lessons : answer.lessons = (planned s r b).board.lessons := by
    rw [told, made]
    rfl
  rw [lessons] at member
  have found := (planned_inStep based).mem_lessons.mp member
  obtain ⟨x, asked, subject, teacher, _⟩ :=
    (Board.start_teachesAsked _ _ _ _).steps (planned_steps s r b) l.cell l found
  exact ⟨x, asked, subject, teacher⟩

theorem generate_valid (run : perform s (generate id now r) = (.ok answer, t))
    (onward : s.main.Leads u.main)
    (settings : u.settings.maxSlotsPerDay = s.settings.maxSlotsPerDay) {l : Lesson}
    (member : l ∈ answer.lessons) :
    (CreateDailyRequest.ofLesson r.term r.classId l).Valid u := by
  have accepted := generate_accepts run
  have suits := (generate_respects_teachers run).2 l member
  obtain ⟨x, asked, subject, teacher⟩ := generate_asked run member
  have known := accepted.subjects x asked
  rw [← subject] at known
  have knows := onward.knows
  refine ⟨?_, knows.terms _ accepted.term, knows.classes _ accepted.classId,
    knows.subjects _ known⟩
  have named := accepted.loads x asked
  rw [← subject, ← teacher] at named
  have weekday := Weekday.isValid_iff.mp (Weekday.mem_normalize_iff.mp suits.day).1
  have range := suits.slot
  have most := accepted.most
  rw [settings, CreateDailyRequest.check, if_neg, if_neg, if_neg]
  · simp only [CreateDailyRequest.ofLesson]
    omega
  · simp only [CreateDailyRequest.ofLesson, Weekday.first, Weekday.last]
    omega
  · simp [CreateDailyRequest.ofLesson, accepted.named, named]

/-- Publishing a planned timetable as a whole and adding its lessons one by one agree: while no
operation is failing, the one succeeds if and only if the other does, and then the daily tables
hold the same rows under the same ids, but for the blanks around rooms. -/
theorem publishing_paths_agree {later : Timestamp} (reached : s.main.Reachable)
    (run : perform s (generate id now r) = (.ok answer, t)) (savable : answer.shortfalls = [])
    (onward : t.main.Leads u.main) (single : u.replica = none) (fit : u.main.Fit)
    (settings : u.settings.maxSlotsPerDay = s.settings.maxSlotsPerDay)
    (named : Text.blank id = false)
    (cached : u.proposals.entries.get? id = t.proposals.entries.get? id)
    (fresh : later.since now ≤ u.proposals.ttl) :
    let whole := save later ⟨id, true⟩
    let singly := createAll (answer.lessons.map (.ofLesson r.term r.classId))
    ((∃ told v, perform u whole = (.ok told, v)) ↔ ∃ rows w, perform u singly = (.ok rows, w)) ∧
      ∀ told v rows w, perform u whole = (.ok told, v) → perform u singly = (.ok rows, w) →
        tidyRooms v.main.daily = tidyRooms w.main.daily := by
  intro whole singly
  obtain ⟨p, found, savable', term, classId, lessons⟩ := planned_found run savable cached fresh
  have distinct : (answer.lessons.map (·.cell)).Nodup :=
    List.pairwise_map.mpr ((generate_respects_teachers run).1.imp fun before =>
      Key.before_ne before)
  have kept : t.main = s.main := by
    obtain ⟨_, _, _, _, _, same, _⟩ := generate_ok run
    exact same
  rw [kept] at onward
  have drawn := reached.drawn.leads onward
  have valid := fun l member => generate_valid (l := l) run onward settings member
  constructor
  · rw [save_fit_ok single fit named found savable', Proposal.collisions, term, classId, lessons]
    exact (createAll_fit_ok single fit drawn distinct valid).symm
  · intro told v rows w published added
    obtain ⟨q, here, _, _, gained, _⟩ := save_kept single published
    have same : q = p := Option.some.inj (here.symm.trans (ProposalCache.get_some.mp found).1)
    rw [same] at gained
    have table : v.main.daily = u.main.daily.insertAll (·.id) (p.dailyRows u.main.nextDaily) :=
      gained.daily
    rw [createAll_daily single added, tidyRooms_insertAll, table, Proposal.dailyRows, term,
      classId, lessons]

def mondayAndTuesday : List Lesson :=
  [⟨⟨1, 1⟩, "art", "bea", some " lab"⟩, ⟨⟨2, 1⟩, "math", "ann", some "lab"⟩]

def wholeMonday (room : Option String) : Except ServiceError String × Session :=
  perform (plannedMonday room).2 (save ⟨20000, 60, 0⟩ ⟨"p1", true⟩)

def singlyMonday (room : Option String) : Except ServiceError (List DailyLesson) × Session :=
  perform (plannedMonday room).2 (createAll (mondayAndTuesday.map (.ofLesson "t1" "c1")))

theorem publishing_paths_agree_monday :
    (∃ told v rows w, wholeMonday (some "hall") = (.ok told, v) ∧
      singlyMonday (some "hall") = (.ok rows, w) ∧ tidyRooms v.main.daily = tidyRooms w.main.daily ∧
      v.main.daily.values.map (·.room) = [some "hall", some " lab", some "lab"] ∧
      w.main.daily.values.map (·.room) = [some "hall", some "lab", some "lab"]) ∧
    ¬ ∃ rows w, singlyMonday (some "lab ") = (.ok rows, w) := by
  have planned : ∀ room ∈ [some "hall", some "lab "],
      ((plannedMonday room).1.toOption.map fun answer => (answer.lessons, answer.shortfalls)) =
          some (mondayAndTuesday, []) ∧
        (plannedMonday room).2.main.healthy = true ∧ (plannedMonday room).2.main.failing = [] ∧
        (plannedMonday room).2.replica = none ∧
        (plannedMonday room).2.settings = (takenMonday room).settings ∧
        (plannedMonday room).2.proposals.ttl = Timestamp.seconds 60 := by decide +kernel
  have law : ∀ room ∈ [some "hall", some "lab "],
      ((∃ told v, wholeMonday room = (.ok told, v)) ↔
        ∃ rows w, singlyMonday room = (.ok rows, w)) ∧
      ∀ told v rows w, wholeMonday room = (.ok told, v) → singlyMonday room = (.ok rows, w) →
        tidyRooms v.main.daily = tidyRooms w.main.daily := by
    intro room listed
    obtain ⟨lessons, healthy, failing, single, settings, ttl⟩ := planned room listed
    rw [wholeMonday, singlyMonday]
    cases run : plannedMonday room with
    | mk result t =>
      rw [run] at lessons healthy failing single settings ttl
      cases result with
      | error e => cases lessons
      | ok answer =>
        obtain ⟨same, savable⟩ := Prod.mk.inj (Option.some.inj lessons)
        have fresh : Timestamp.since ⟨20000, 60, 0⟩ ⟨20000, 0, 0⟩ ≤ t.proposals.ttl := by
          rw [ttl]
          decide
        have agree := publishing_paths_agree ⟨_, rfl⟩ run savable (.refl _) single
          ⟨healthy, failing⟩ (congrArg (·.maxSlotsPerDay) settings) (by decide) rfl fresh
        rw [same] at agree
        exact agree
  have published : (wholeMonday (some "hall")).1 = .ok "1" := by decide +kernel
  have refused : (wholeMonday (some "lab ")).1.isOk = false := by decide +kernel
  constructor
  · have whole : wholeMonday (some "hall") = (.ok "1", (wholeMonday (some "hall")).2) :=
      Prod.ext published rfl
    obtain ⟨agree, same⟩ := law (some "hall") (by decide)
    obtain ⟨rows, w, singly⟩ := agree.mp ⟨"1", _, whole⟩
    have last : (singlyMonday (some "hall")).2 = w := congrArg Prod.snd singly
    have rooms : w.main.daily.values.map (·.room) = [some "hall", some "lab", some "lab"] := by
      rw [← last]
      decide +kernel
    exact ⟨"1", _, rows, w, whole, singly, same "1" _ rows w whole singly, by decide +kernel, rooms⟩
  · intro h
    obtain ⟨told, v, done⟩ := (law (some "lab ") (by decide)).1.mpr h
    rw [done] at refused
    cases refused

end Service

end SchoolTimetable

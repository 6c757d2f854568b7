import SchoolTimetable.Proofs.Store.Steps

/-!
What a transaction has staged is its own. Two stores that differ in the staged writes of one open
transaction, and in nothing else, answer everything that does not go through it alike, and still
differ in those writes only; so nobody can tell from the answers what another transaction is about
to write before it is committed.
-/
namespace SchoolTimetable

inductive StoreQuery : Type → Type where
  | findTerm (id : TermId) : StoreQuery (Option Term)
  | findClass (id : ClassId) : StoreQuery (Option ClassGroup)
  | findSubject (id : SubjectId) : StoreQuery (Option Subject)
  | listAssignments (classId : ClassId) (term : TermId) : StoreQuery (List Assignment)
  | findPreference (t : TeacherId) : StoreQuery (Option TeacherPreference)
  | listDailyOfTeacher (t : TeacherId) (term : Option TermId) : StoreQuery (List DailyLesson)
  | listDailyOfClass (classId : ClassId) (term : TermId) : StoreQuery (List DailyLesson)
  | findConflicts (term : TermId) (c : Cell) : StoreQuery (List DailyLesson)
  | listSemesters (term : TermId) (classId : ClassId) : StoreQuery (List SemesterSchedule)
  | findSemester (id : Int) : StoreQuery (Option SemesterSchedule)
  | listSlots (id : Int) : StoreQuery (List SemesterSlot)
  | countSemesters : StoreQuery Nat
  | countSlots : StoreQuery Nat
  | countDaily : StoreQuery Nat
  | countOpen : StoreQuery Nat
  | visibleSchedule (tx : Nat) (id : Int) : StoreQuery (Option SemesterSchedule)
  | rollbackNotes (tx : Nat) : StoreQuery (List LogRecord)
  | dropNotes (tx : Nat) : StoreQuery (List LogRecord)

def StoreQuery.transaction? {α : Type} : StoreQuery α → Option Nat
  | .visibleSchedule tx _ | .rollbackNotes tx | .dropNotes tx => some tx
  | _ => none

namespace StoreCall

def transaction? : StoreCall → Option Nat
  | .commit tx | .rollback tx | .bulkInsert tx _ | .createVersioned _ tx _ | .updateStatus tx _ _
  | .delete tx _ | .bulkUpsert tx _ _ | .deleteSlots tx _ => some tx
  | _ => none

def Answer : StoreCall → Type
  | .begin | .commit _ | .bulkInsert _ _ | .bulkUpsert _ _ _ | .deleteSlots _ _ => Nat
  | .addDaily _ | .insert _ => DailyLesson
  | .createVersioned _ _ _ => SemesterSchedule
  | _ => Unit

def update : (call : StoreCall) → StoreUpdate call.Answer
  | .addTerm t => modify (·.addTerm t)
  | .addClass c => modify (·.addClass c)
  | .addSubject x => modify (·.addSubject x)
  | .addAssignment a => modify (·.addAssignment a)
  | .setPreference p => modify (·.setPreference p)
  | .addDaily r => do
    let (s, row) := (← get).addDaily r
    set s
    pure row
  | .setHealthy healthy => modify (·.setHealthy healthy)
  | .failOn name => modify (·.failOn name)
  | .clearFailures => modify (·.clearFailures)
  | .begin => Store.begin
  | .commit tx => Store.commit tx
  | .rollback tx => modify (·.rollback tx)
  | .insert r => Store.insert r
  | .bulkInsert tx rs => Store.bulkInsert tx rs
  | .createVersioned now tx x => Store.createVersioned now tx x
  | .updateStatus tx id status => Store.updateStatus tx id status
  | .delete tx id => Store.delete tx id
  | .bulkUpsert tx slots order => Store.bulkUpsert tx slots order
  | .deleteSlots tx id => Store.deleteSlots tx id

end StoreCall

namespace Store
variable {s t : Store} {tx other : Nat}

def ask (s : Store) {α : Type} : StoreQuery α → Except StoreError α
  | .findTerm id => s.findTerm id
  | .findClass id => s.findClass id
  | .findSubject id => s.findSubject id
  | .listAssignments classId term => s.listAssignments classId term
  | .findPreference t => s.findPreference t
  | .listDailyOfTeacher t term => s.listDailyOfTeacher t term
  | .listDailyOfClass classId term => s.listDailyOfClass classId term
  | .findConflicts term c => s.findConflicts term c
  | .listSemesters term classId => s.listSemesters term classId
  | .findSemester id => s.findSemester id
  | .listSlots id => s.listSlots id
  | .countSemesters => .ok s.semesters.size
  | .countSlots => .ok s.slots.size
  | .countDaily => .ok s.daily.size
  | .countOpen => .ok s.pending.size
  | .visibleSchedule tx id => s.visibleSchedule tx id
  | .rollbackNotes tx => .ok (s.rollbackNotes tx)
  | .dropNotes tx => .ok (s.dropNotes tx)

theorem afterCall_update (s : Store) (call : StoreCall) :
    s.afterCall call = (perform s call.update).2 := by
  cases call <;> rfl

def answers (s : Store) : List StoreCall → List ((call : StoreCall) × Except StoreError call.Answer)
  | [] => []
  | call :: rest => ⟨call, (perform s call.update).1⟩ :: (s.afterCall call).answers rest

/-- Two stores differ in what one transaction, open in both, has staged, and in nothing else. -/
structure SameBut (tx : Nat) (s t : Store) : Prop where
  isOpen : s.pending.contains tx = true ∧ t.pending.contains tx = true
  others : ∀ other, other ≠ tx → t.pending.get? other = s.pending.get? other
  rest : t = { s with pending := t.pending }

namespace SameBut

theorem map {f : Store → Store}
    (heedless : ∀ u p, f { u with pending := p } = { f u with pending := p })
    (same : SameBut tx s t) : SameBut tx (f s) (f t) := by
  have keeps : ∀ u, (f u).pending = u.pending := by
    intro u
    have image := congrArg Store.pending (heedless u u.pending)
    exact image
  have image := heedless s t.pending
  rw [← same.rest] at image
  refine ⟨?_, ?_, ?_⟩
  · rw [keeps, keeps]
    exact same.isOpen
  · intro other apart
    rw [keeps, keeps]
    exact same.others other apart
  · rw [keeps]
    exact image

theorem insert (same : SameBut tx s t) (other : Nat) (ws : List StagedWrite) :
    SameBut tx { s with pending := s.pending.insert other ws }
      { t with pending := t.pending.insert other ws } where
  isOpen := ⟨Table.isSome_insert other ws same.isOpen.1, Table.isSome_insert other ws same.isOpen.2⟩
  others := by
    intro k apart
    by_cases here : k = other
    · rw [here, Table.get?_insert_self, Table.get?_insert_self]
    · rw [Table.get?_insert_of_ne _ _ here, Table.get?_insert_of_ne _ _ here]
      exact same.others k apart
  rest := by rw [same.rest]

theorem addStaged (same : SameBut tx s t) (apart : other ≠ tx) (ws : List StagedWrite) :
    SameBut tx (s.addStaged other ws) (t.addStaged other ws) := by
  rw [Store.addStaged, Store.addStaged, same.others other apart]
  exact same.insert other _

theorem rollback (same : SameBut tx s t) (apart : other ≠ tx) :
    SameBut tx (s.rollback other) (t.rollback other) where
  isOpen := by
    have opens : ∀ p : Table Nat (List StagedWrite), p.contains tx = true →
        (p.erase other).contains tx = true := by
      intro p found
      rw [Table.contains, Table.get?_erase_of_ne _ (Ne.symm apart)]
      exact found
    exact ⟨opens _ same.isOpen.1, opens _ same.isOpen.2⟩
  others := by
    intro k distinct
    by_cases here : k = other
    · rw [here, Store.rollback, Store.rollback, Table.get?_erase_self, Table.get?_erase_self]
    · rw [Store.rollback, Store.rollback, Table.get?_erase_of_ne _ here,
        Table.get?_erase_of_ne _ here]
      exact same.others k distinct
  rest := by rw [same.rest]; rfl

theorem opened (same : SameBut tx s t) : SameBut tx s.opened t.opened := by
  have counted := same.map (f := fun u => { u with nextTransaction := u.nextTransaction + 1 })
    fun _ _ => rfl
  have next : t.nextTransaction = s.nextTransaction := by rw [same.rest]
  rw [Store.opened, Store.opened, next]
  rw [next] at counted
  exact counted.insert s.nextTransaction []

theorem applyAll (same : SameBut tx s t) (ws : List StagedWrite) :
    SameBut tx (s.applyAll ws) (t.applyAll ws) := by
  refine same.map (f := fun u => u.applyAll ws) fun u p => ?_
  induction ws generalizing u with
  | nil => rfl
  | cons w rest ih =>
    have first : apply { u with pending := p } w = { u.apply w with pending := p } := by
      cases w <;> rfl
    change Store.applyAll (apply { u with pending := p } w) rest = _
    rw [first]
    exact ih (u.apply w)

theorem check (same : SameBut tx s t) (o : Operation) : t.check o = s.check o := by
  rw [same.rest]
  rfl

theorem visibleSchedule (same : SameBut tx s t) (apart : other ≠ tx) (id : Int) :
    t.visibleSchedule other id = s.visibleSchedule other id := by
  have semesters : t.semesters = s.semesters := by rw [same.rest]
  rw [Store.visibleSchedule, Store.visibleSchedule, staged, staged, same.others other apart,
    semesters]

theorem ownersVisible (same : SameBut tx s t) (apart : other ≠ tx) (owners : List Int) :
    t.ownersVisible other owners = s.ownersVisible other owners := by
  induction owners with
  | nil => rfl
  | cons id rest ih => rw [Store.ownersVisible, Store.ownersVisible, same.visibleSchedule apart, ih]

theorem openCount (same : SameBut tx s t) : t.pending.size = s.pending.size := by
  apply Table.size_congr
  intro k
  by_cases here : k = tx
  · rw [here]
    exact same.isOpen.2.trans same.isOpen.1.symm
  · rw [Table.contains, Table.contains, same.others k here]

end SameBut

/-! Calls. -/

/-- Run on either of two such stores, an update comes to the same result, and leaves such stores. -/
def Blind (tx : Nat) {α : Type} (u : StoreUpdate α) : Prop :=
  ∀ s t, SameBut tx s t →
    (perform t u).1 = (perform s u).1 ∧ SameBut tx (perform s u).2 (perform t u).2

theorem blind_modify {f : Store → Store}
    (heedless : ∀ u p, f { u with pending := p } = { f u with pending := p }) :
    Blind tx (modify f) := fun _ _ same => ⟨rfl, same.map heedless⟩

theorem blind_begin (tx : Nat) : Blind tx begin := by
  intro s t same
  have next : t.nextTransaction = s.nextTransaction := by rw [same.rest]
  simp only [perform_begin, same.check, next]
  split
  · exact ⟨rfl, same.opened⟩
  · exact ⟨rfl, same⟩

theorem blind_rollback (apart : other ≠ tx) :
    Blind tx (modify fun s => s.rollback other) := fun _ _ same => ⟨rfl, same.rollback apart⟩

theorem addDaily_same (same : SameBut tx s t) (r : NewDailyLesson) :
    (t.addDaily r).2 = (s.addDaily r).2 ∧ SameBut tx (s.addDaily r).1 (t.addDaily r).1 := by
  refine ⟨?_, same.map (f := fun u => (u.addDaily r).1) fun _ _ => rfl⟩
  rw [same.rest]
  rfl

theorem blind_insert (tx : Nat) (r : NewDailyLesson) : Blind tx (insert r) := by
  intro s t same
  have added := addDaily_same same r
  simp only [perform_insert, same.check]
  split
  · exact ⟨congrArg Except.ok added.1, added.2⟩
  · exact ⟨rfl, same⟩

theorem blind_commit (apart : other ≠ tx) : Blind tx (commit other) := by
  intro s t same
  have clash : ∀ ws, t.versionClash? ws = s.versionClash? ws := by
    intro ws
    rw [same.rest]
    rfl
  simp only [perform_commit, same.check, same.others other apart, clash]
  split
  · exact ⟨rfl, same⟩
  · exact ⟨rfl, same.rollback apart⟩
  · split
    · exact ⟨rfl, same.rollback apart⟩
    · exact ⟨rfl, (same.rollback apart).applyAll _⟩

theorem blind_bulkInsert (apart : other ≠ tx) (rs : List NewDailyLesson) :
    Blind tx (bulkInsert other rs) := by
  intro s t same
  have next : t.nextDaily = s.nextDaily := by rw [same.rest]
  have counted := same.map (f := fun u => { u with nextDaily := u.nextDaily + rs.length })
    fun _ _ => rfl
  simp only [perform_bulkInsert, same.check, same.others other apart]
  split
  · exact ⟨rfl, same⟩
  · exact ⟨rfl, same⟩
  · rw [withRows, withRows, next]
    rw [next] at counted
    exact ⟨rfl, counted.addStaged apart _⟩

theorem blind_createVersioned (apart : other ≠ tx) (now : Timestamp) (x : NewSemesterSchedule) :
    Blind tx (createVersioned now other x) := by
  intro s t same
  have record : ∀ ws, t.nextVersion now ws x = s.nextVersion now ws x := by
    intro ws
    rw [same.rest]
    rfl
  have counted := same.map (f := fun u => { u with nextSemester := u.nextSemester + 1 })
    fun _ _ => rfl
  simp only [perform_createVersioned, same.check, same.others other apart, record]
  split
  · exact ⟨rfl, same⟩
  · exact ⟨rfl, same⟩
  · exact ⟨rfl, counted.addStaged apart _⟩

theorem blind_onVisible (apart : other ≠ tx) (o : Operation) (id : Int) (w : StagedWrite) :
    Blind tx (do gate o; requireVisible other id (unknownSchedule o id); stage other [w]) := by
  intro s t same
  simp only [perform_onVisible, same.check, same.visibleSchedule apart]
  split
  · exact ⟨rfl, same⟩
  · exact ⟨rfl, same⟩
  · exact ⟨rfl, same⟩
  · exact ⟨rfl, same.addStaged apart _⟩

theorem blind_bulkUpsert (apart : other ≠ tx) {xs : List SemesterSlot} (order : OwnerOrder xs) :
    Blind tx (bulkUpsert other xs order) := by
  intro s t same
  simp only [perform_bulkUpsert, same.check, same.ownersVisible apart, same.others other apart]
  split
  · exact ⟨rfl, same⟩
  · exact ⟨rfl, same⟩
  · exact ⟨rfl, same⟩
  · exact ⟨rfl, same.addStaged apart _⟩

theorem blind_deleteSlots (apart : other ≠ tx) (id : Int) : Blind tx (deleteSlots other id) := by
  intro s t same
  have slots : t.slotsOf id = s.slotsOf id := by
    rw [same.rest]
    rfl
  simp only [perform_deleteSlots, same.check, same.others other apart, slots]
  split
  · exact ⟨rfl, same⟩
  · exact ⟨rfl, same⟩
  · exact ⟨rfl, same.addStaged apart _⟩

/-- No call but those that go through the transaction tells what is staged in it. -/
theorem blind_update (call : StoreCall) (apart : call.transaction? ≠ some tx) :
    Blind tx call.update := by
  have other : ∀ {k}, call.transaction? = some k → k ≠ tx := fun through same =>
    apart (through.trans (congrArg some same))
  cases call with
  | addDaily r =>
    intro s t same
    have added := addDaily_same same r
    exact ⟨congrArg Except.ok added.1, added.2⟩
  | failOn name =>
    refine blind_modify fun u p => ?_
    simp only [failOn]
    split <;> rfl
  | begin => exact blind_begin tx
  | commit k => exact blind_commit (other rfl)
  | rollback k => exact blind_rollback (other rfl)
  | insert r => exact blind_insert tx r
  | bulkInsert k rs => exact blind_bulkInsert (other rfl) rs
  | createVersioned now k x => exact blind_createVersioned (other rfl) now x
  | updateStatus k id status => exact blind_onVisible (other rfl) _ id _
  | delete k id => exact blind_onVisible (other rfl) _ id _
  | bulkUpsert k xs order => exact blind_bulkUpsert (other rfl) order
  | deleteSlots k id => exact blind_deleteSlots (other rfl) id
  | _ => exact blind_modify fun _ _ => rfl

theorem ask_same {α : Type} (same : SameBut tx s t) (q : StoreQuery α)
    (apart : q.transaction? ≠ some tx) : t.ask q = s.ask q := by
  have other : ∀ {k}, q.transaction? = some k → k ≠ tx := fun through here =>
    apart (through.trans (congrArg some here))
  cases q with
  | visibleSchedule k id => exact same.visibleSchedule (other rfl) id
  | rollbackNotes k =>
    simp only [ask, rollbackNotes, stagedCount, same.others k (other rfl)]
  | dropNotes k =>
    have openIn : t.pending.contains k = s.pending.contains k := by
      rw [Table.contains, Table.contains, same.others k (other rfl)]
    rw [ask, ask, dropNotes, dropNotes, openIn]
  | countOpen => exact congrArg Except.ok same.openCount
  | _ =>
    rw [same.rest]
    rfl

/-- Two stores that differ in what is staged in one open transaction cannot be told apart but
through that transaction, by questions or by calls, and after any such calls they still differ in
that only. It does not matter in which order a call looks up the owners of slots. -/
theorem staged_writes_isolated (same : SameBut tx s t) :
    (∀ {α : Type} (q : StoreQuery α), q.transaction? ≠ some tx → t.ask q = s.ask q) ∧
    (∀ call : StoreCall, call.transaction? ≠ some tx →
      (perform t call.update).1 = (perform s call.update).1 ∧
        SameBut tx (perform s call.update).2 (perform t call.update).2) ∧
    ∀ calls : List StoreCall, (∀ call ∈ calls, call.transaction? ≠ some tx) →
      t.answers calls = s.answers calls ∧ SameBut tx (s.afterCalls calls) (t.afterCalls calls) := by
  refine ⟨ask_same same, fun call apart => blind_update call apart s t same, ?_⟩
  intro calls apart
  induction calls generalizing s t with
  | nil => exact ⟨rfl, same⟩
  | cons call rest ih =>
    obtain ⟨answer, still⟩ := blind_update call (apart call List.mem_cons_self) s t same
    rw [← afterCall_update, ← afterCall_update] at still
    obtain ⟨later, last⟩ := ih still fun c member => apart c (List.mem_cons_of_mem _ member)
    rw [answers, answers, answer, later]
    exact ⟨rfl, last⟩

def twoOpen (ws : List StagedWrite) : Store := (afterCalls {} [.begin, .begin]).addStaged 1 ws

def firstVersion : List StagedWrite :=
  [.createSchedule ⟨1, "t1", "c1", .draft, 1, .null, ⟨20000, 0, 0⟩⟩,
    .insertDaily ⟨1, "t1", "c1", "math", "ann", ⟨1, 1⟩, none⟩]

theorem staged_writes_isolated_rival :
    let calls : List StoreCall :=
      [.createVersioned ⟨20000, 1, 0⟩ 2 ⟨"t1", "c1", .draft, .null⟩, .commit 2]
    (twoOpen firstVersion).ask (.findConflicts "t1" ⟨1, 1⟩) =
        (twoOpen []).ask (.findConflicts "t1" ⟨1, 1⟩) ∧
      (twoOpen firstVersion).answers calls = (twoOpen []).answers calls ∧
      SameBut 1 ((twoOpen []).afterCalls calls) ((twoOpen firstVersion).afterCalls calls) ∧
      ((twoOpen firstVersion).afterCalls calls).semesters.values.map (·.version) = [1] := by
  intro calls
  have same : SameBut 1 (twoOpen []) (twoOpen firstVersion) := by
    refine ⟨by decide +kernel, fun other apart => ?_, rfl⟩
    exact (addStaged_get_of_ne _ apart _).trans (addStaged_get_of_ne _ apart _).symm
  obtain ⟨asks, _, runs⟩ := staged_writes_isolated same
  have through : ∀ call ∈ calls, call.transaction? ≠ some 1 := by
    intro call member
    rcases List.mem_cons.mp member with first | later
    · rw [first]
      decide
    · rw [List.mem_singleton.mp later]
      decide
  obtain ⟨answers, still⟩ := runs calls through
  exact ⟨asks (.findConflicts "t1" ⟨1, 1⟩) (by decide), answers, still, by decide +kernel⟩

end Store

end SchoolTimetable

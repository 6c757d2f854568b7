import SchoolTimetable.Proofs.Store.Staging

/-!
Runs of a store: any calls in any order, with faults coming and going and any number of
transactions open at once. Every id that a run has put to use was drawn from its counter, so what
the counters give next is new.
-/
namespace SchoolTimetable

inductive StoreCall where
  | addTerm (t : Term)
  | addClass (c : ClassGroup)
  | addSubject (x : Subject)
  | addAssignment (a : Assignment)
  | setPreference (p : TeacherPreference)
  | addDaily (r : NewDailyLesson)
  | setHealthy (healthy : Bool)
  | failOn (name : String)
  | clearFailures
  | begin
  | commit (tx : Nat)
  | rollback (tx : Nat)
  | insert (r : NewDailyLesson)
  | bulkInsert (tx : Nat) (rs : List NewDailyLesson)
  | createVersioned (now : Timestamp) (tx : Nat) (x : NewSemesterSchedule)
  | updateStatus (tx : Nat) (id : Int) (status : ScheduleStatus)
  | delete (tx : Nat) (id : Int)
  | bulkUpsert (tx : Nat) (slots : List SemesterSlot)
    (order : Store.OwnerOrder slots := .ascending slots)
  | deleteSlots (tx : Nat) (id : Int)

namespace Store
variable {s t : Store} {tx : Nat}

def afterCall (s : Store) : StoreCall → Store
  | .addTerm t => s.addTerm t
  | .addClass c => s.addClass c
  | .addSubject x => s.addSubject x
  | .addAssignment a => s.addAssignment a
  | .setPreference p => s.setPreference p
  | .addDaily r => (s.addDaily r).1
  | .setHealthy healthy => s.setHealthy healthy
  | .failOn name => s.failOn name
  | .clearFailures => s.clearFailures
  | .begin => (perform s begin).2
  | .commit tx => (perform s (commit tx)).2
  | .rollback tx => s.rollback tx
  | .insert r => (perform s (insert r)).2
  | .bulkInsert tx rs => (perform s (bulkInsert tx rs)).2
  | .createVersioned now tx x => (perform s (createVersioned now tx x)).2
  | .updateStatus tx id status => (perform s (updateStatus tx id status)).2
  | .delete tx id => (perform s (delete tx id)).2
  | .bulkUpsert tx slots order => (perform s (bulkUpsert tx slots order)).2
  | .deleteSlots tx id => (perform s (deleteSlots tx id)).2

def afterCalls (s : Store) (calls : List StoreCall) : Store := calls.foldl afterCall s

def Leads (s t : Store) : Prop := ∃ calls, t = s.afterCalls calls

theorem Leads.refl (s : Store) : s.Leads s := ⟨[], rfl⟩

theorem Leads.trans {s t u : Store} (first : s.Leads t) (second : t.Leads u) : s.Leads u := by
  obtain ⟨calls, rfl⟩ := first
  obtain ⟨more, rfl⟩ := second
  exact ⟨calls ++ more, List.foldl_append.symm⟩

theorem Leads.induction {P : Store → Prop} (step : ∀ s call, P s → P (s.afterCall call))
    {s t : Store} (run : s.Leads t) (start : P s) : P t := by
  obtain ⟨calls, rfl⟩ := run
  induction calls generalizing s with
  | nil => exact start
  | cons call rest ih => exact ih (step s call start)

theorem Leads.call (s : Store) (call : StoreCall) : s.Leads (s.afterCall call) := ⟨[call], rfl⟩

theorem leads_keptWithin (tx : Nat) : KeptWithin tx Leads where
  refl := Leads.refl
  trans := Leads.trans
  bulkInsert := fun rs s => .call s (.bulkInsert tx rs)
  createVersioned := fun now x s => .call s (.createVersioned now tx x)
  updateStatus := fun id status s => .call s (.updateStatus tx id status)
  delete := fun id s => .call s (.delete tx id)
  bulkUpsert := fun slots order s => .call s (.bulkUpsert tx slots order)
  deleteSlots := fun id s => .call s (.deleteSlots tx id)

def Reachable (s : Store) : Prop := ∃ calls, s = afterCalls {} calls

end Store

/-- The ids that a write brings into use come before those that are drawn next. -/
def StagedWrite.Below (semester daily : Int) : StagedWrite → Prop
  | .createSchedule x => x.id < semester
  | .upsertSlot x => x.schedule < semester
  | .insertDaily r => r.id < daily
  | _ => True

theorem StagedWrite.Below.mono {semester daily semester' daily' : Int} {w : StagedWrite}
    (below : w.Below semester daily) (later : semester ≤ semester')
    (later' : daily ≤ daily') : w.Below semester' daily' := by
  cases w with
  | createSchedule x => exact Int.lt_of_lt_of_le below later
  | upsertSlot x => exact Int.lt_of_lt_of_le below later
  | insertDaily r => exact Int.lt_of_lt_of_le below later'
  | _ => trivial

namespace Store
variable {s t : Store} {tx : Nat}

/-- Every id in use was drawn from its counter, and rows are kept under their own ids. -/
structure Drawn (s : Store) : Prop where
  transactions : ∀ tx ws, s.pending.get? tx = some ws → tx < s.nextTransaction
  semesters : ∀ id x, s.semesters.get? id = some x → x.id = id ∧ id < s.nextSemester
  slots : ∀ k x, s.slots.get? k = some x → (x.schedule, x.cell) = k ∧ k.1 < s.nextSemester
  daily : ∀ id r, s.daily.get? id = some r → r.id = id ∧ id < s.nextDaily
  staged : ∀ tx ws, s.pending.get? tx = some ws →
    ∀ w ∈ ws, w.Below s.nextSemester s.nextDaily

namespace Drawn

theorem start : Drawn {} := by
  constructor <;> intro _ _ found <;> cases found

theorem closed_next (drawn : s.Drawn) : s.pending.get? s.nextTransaction = none := by
  cases found : s.pending.get? s.nextTransaction with
  | none => rfl
  | some ws => exact absurd (drawn.transactions _ ws found) (Nat.lt_irrefl _)

theorem fresh_semester (drawn : s.Drawn) : s.semesters.get? s.nextSemester = none := by
  cases found : s.semesters.get? s.nextSemester with
  | none => rfl
  | some x => exact absurd (drawn.semesters _ x found).2 (Int.lt_irrefl _)

theorem fresh_slot (drawn : s.Drawn) (c : Cell) : s.slots.get? (s.nextSemester, c) = none := by
  cases found : s.slots.get? (s.nextSemester, c) with
  | none => rfl
  | some x => exact absurd (drawn.slots _ x found).2 (Int.lt_irrefl _)

theorem fresh_daily (drawn : s.Drawn) {id : Int} (later : s.nextDaily ≤ id) :
    s.daily.get? id = none := by
  cases found : s.daily.get? id with
  | none => rfl
  | some r =>
    have below := (drawn.daily id r found).2
    omega

theorem skip (drawn : s.Drawn) {semester daily : Int} (later : s.nextSemester ≤ semester)
    (later' : s.nextDaily ≤ daily) :
    Drawn { s with nextSemester := semester, nextDaily := daily } where
  transactions := drawn.transactions
  semesters := by
    intro id x found
    have known := drawn.semesters id x found
    exact ⟨known.1, Int.lt_of_lt_of_le known.2 later⟩
  slots := by
    intro k x found
    have known := drawn.slots k x found
    exact ⟨known.1, Int.lt_of_lt_of_le known.2 later⟩
  daily := by
    intro id r found
    have known := drawn.daily id r found
    exact ⟨known.1, Int.lt_of_lt_of_le known.2 later'⟩
  staged := by
    intro tx ws found w member
    exact (drawn.staged tx ws found w member).mono later later'

theorem addStaged (drawn : s.Drawn) {old ws : List StagedWrite}
    (found : s.pending.get? tx = some old)
    (below : ∀ w ∈ ws, w.Below s.nextSemester s.nextDaily) : (s.addStaged tx ws).Drawn where
  transactions := by
    intro other now here
    by_cases same : other = tx
    · rw [same]
      exact drawn.transactions tx old found
    · rw [addStaged_get_of_ne s same] at here
      exact drawn.transactions other now here
  semesters := drawn.semesters
  slots := drawn.slots
  daily := drawn.daily
  staged := by
    intro other now here w member
    by_cases same : other = tx
    · rw [same, addStaged_get found] at here
      cases here
      rcases List.mem_append.mp member with before | new
      · exact drawn.staged tx old found w before
      · exact below w new
    · rw [addStaged_get_of_ne s same] at here
      exact drawn.staged other now here w member

theorem opened (drawn : s.Drawn) : s.opened.Drawn where
  transactions := by
    intro other ws here
    by_cases same : other = s.nextTransaction
    · rw [same]
      exact Nat.lt_succ_self _
    · have old : s.pending.get? other = some ws := by
        rw [← here]
        exact (Table.get?_insert_of_ne s.pending [] same).symm
      exact Nat.lt_succ_of_lt (drawn.transactions other ws old)
  semesters := drawn.semesters
  slots := drawn.slots
  daily := drawn.daily
  staged := by
    intro other ws here w member
    by_cases same : other = s.nextTransaction
    · rw [same] at here
      have new : s.opened.pending.get? s.nextTransaction = some [] := Table.get?_insert_self _ _ _
      rw [new] at here
      cases here
      cases member
    · have old : s.pending.get? other = some ws := by
        rw [← here]
        exact (Table.get?_insert_of_ne s.pending [] same).symm
      exact drawn.staged other ws old w member

theorem rollback (drawn : s.Drawn) (tx : Nat) : (s.rollback tx).Drawn := by
  have kept : ∀ other ws, (s.rollback tx).pending.get? other = some ws →
      s.pending.get? other = some ws := by
    intro other ws here
    exact Table.get?_erase_source here
  constructor
  · exact fun other ws here => drawn.transactions other ws (kept other ws here)
  · exact drawn.semesters
  · exact drawn.slots
  · exact drawn.daily
  · exact fun other ws here => drawn.staged other ws (kept other ws here)

theorem putDaily (drawn : s.Drawn) {r : DailyLesson} (below : r.id < s.nextDaily) :
    (s.putDaily r).Drawn where
  transactions := drawn.transactions
  semesters := drawn.semesters
  slots := drawn.slots
  daily := by
    intro id row found
    rcases Table.get?_insert_source found with ⟨key, new⟩ | old
    · rw [key, new]
      exact ⟨rfl, below⟩
    · exact drawn.daily id row old
  staged := drawn.staged

theorem apply (drawn : s.Drawn) {w : StagedWrite} (below : w.Below s.nextSemester s.nextDaily) :
    (s.apply w).Drawn := by
  cases w with
  | createSchedule x =>
    refine ⟨drawn.transactions, ?_, drawn.slots, drawn.daily, drawn.staged⟩
    intro id y found
    rcases Table.get?_insert_source found with ⟨key, new⟩ | old
    · rw [key, new]
      exact ⟨rfl, below⟩
    · exact drawn.semesters id y old
  | updateStatus k status =>
    refine ⟨drawn.transactions, ?_, drawn.slots, drawn.daily, drawn.staged⟩
    intro id y found
    have here : (s.semesters.modify k fun x => { x with status }).get? id = some y := found
    by_cases same : id = k
    · rw [same, Table.get?_modify_self] at here
      obtain ⟨x, old, change⟩ := Option.map_eq_some_iff.mp here
      have known := drawn.semesters k x old
      rw [same, ← change]
      exact known
    · rw [Table.get?_modify_of_ne _ _ same] at here
      exact drawn.semesters id y here
  | deleteSchedule k =>
    refine ⟨drawn.transactions, ?_, drawn.slots, drawn.daily, drawn.staged⟩
    intro id y found
    exact drawn.semesters id y (Table.get?_erase_source found)
  | upsertSlot x =>
    refine ⟨drawn.transactions, drawn.semesters, ?_, drawn.daily, drawn.staged⟩
    intro k y found
    rcases Table.get?_insert_source found with ⟨key, new⟩ | old
    · rw [key, new]
      exact ⟨rfl, below⟩
    · exact drawn.slots k y old
  | deleteSlots id =>
    refine ⟨drawn.transactions, drawn.semesters, ?_, drawn.daily, drawn.staged⟩
    intro k y found
    exact drawn.slots k y (Table.get?_filter_source found)
  | insertDaily r => exact drawn.putDaily below

theorem applyAll (drawn : s.Drawn) {ws : List StagedWrite}
    (below : ∀ w ∈ ws, w.Below s.nextSemester s.nextDaily) : (s.applyAll ws).Drawn := by
  induction ws generalizing s with
  | nil => exact drawn
  | cons w rest ih =>
    have counters : (s.apply w).nextSemester = s.nextSemester ∧
        (s.apply w).nextDaily = s.nextDaily := by cases w <;> exact ⟨rfl, rfl⟩
    apply ih (drawn.apply (below w List.mem_cons_self))
    intro v member
    rw [counters.1, counters.2]
    exact below v (List.mem_cons_of_mem _ member)

theorem addDaily (drawn : s.Drawn) (r : NewDailyLesson) : (s.addDaily r).1.Drawn := by
  have later : s.nextDaily ≤ s.nextDaily + 1 := by omega
  have skipped := drawn.skip (Int.le_refl s.nextSemester) later
  exact skipped.putDaily (r := r.withId s.nextDaily) (Int.lt_succ s.nextDaily)

theorem visible (drawn : s.Drawn) {id : Int} {x : SemesterSchedule}
    (seen : s.visibleSchedule tx id = .ok (some x)) : id < s.nextSemester := by
  obtain ⟨ws, found, sight⟩ := visibleSchedule_open seen
  have below := drawn.staged tx ws found
  have committed : ∀ y, s.semesters.get? id = some y → id < s.nextSemester :=
    fun y here => (drawn.semesters id y here).2
  clear found seen
  -- each write is seen over what the ones before it have left, so the start varies
  generalize s.semesters.get? id = start at sight committed
  induction ws generalizing start with
  | nil => exact committed x sight.symm
  | cons w rest ih =>
    refine ih (fun v member => below v (List.mem_cons_of_mem _ member)) _ sight ?_
    intro y here
    have first := below w List.mem_cons_self
    cases w with
    | createSchedule z =>
      simp only [seeWrite] at here
      split at here
      · rename_i same
        exact same ▸ first
      · exact committed y here
    | updateStatus k status =>
      simp only [seeWrite] at here
      split at here
      · obtain ⟨z, old, _⟩ := Option.map_eq_some_iff.mp here
        exact committed z old
      · exact committed y here
    | deleteSchedule k =>
      simp only [seeWrite] at here
      split at here
      · cases here
      · exact committed y here
    | _ => exact committed y here

theorem withRows (drawn : s.Drawn) {old : List StagedWrite} (rs : List NewDailyLesson)
    (found : s.pending.get? tx = some old) : (s.withRows tx rs).Drawn := by
  have later : s.nextDaily ≤ s.nextDaily + rs.length := by omega
  apply (drawn.skip (Int.le_refl s.nextSemester) later).addStaged found
  intro w member
  obtain ⟨row, source, rfl⟩ := List.mem_map.mp member
  exact (mem_numbered source).2.1

theorem withSchedule (drawn : s.Drawn) {old : List StagedWrite} {x : SemesterSchedule}
    (found : s.pending.get? tx = some old) (drew : x.id = s.nextSemester) :
    (s.withSchedule tx x).Drawn := by
  have later : s.nextSemester ≤ s.nextSemester + 1 := by omega
  apply (drawn.skip later (Int.le_refl s.nextDaily)).addStaged found
  intro w member
  rw [List.mem_singleton.mp member]
  have new : x.id < s.nextSemester + 1 := by omega
  exact new

theorem commit (drawn : s.Drawn) (tx : Nat) : (perform s (commit tx)).2.Drawn := by
  rw [perform_commit]
  split
  · exact drawn
  · exact drawn.rollback tx
  · rename_i ws _ found _
    split
    · exact drawn.rollback tx
    · exact (drawn.rollback tx).applyAll (drawn.staged tx ws found)

theorem step (drawn : s.Drawn) (call : StoreCall) : (s.afterCall call).Drawn := by
  cases call with
  | addDaily r => exact drawn.addDaily r
  | failOn name =>
    simp only [afterCall, failOn]
    split <;> exact ⟨drawn.transactions, drawn.semesters, drawn.slots, drawn.daily, drawn.staged⟩
  | begin =>
    simp only [afterCall, perform_begin]
    split
    · exact drawn.opened
    · exact drawn
  | commit tx => exact drawn.commit tx
  | rollback tx => exact drawn.rollback tx
  | insert r =>
    simp only [afterCall, perform_insert]
    split
    · exact drawn.addDaily r
    · exact drawn
  | bulkInsert tx rs =>
    simp only [afterCall, perform_bulkInsert]
    split
    · exact drawn
    · exact drawn
    · rename_i found
      exact drawn.withRows rs found
  | createVersioned now tx x =>
    simp only [afterCall, perform_createVersioned]
    split
    · exact drawn
    · exact drawn
    · rename_i found
      exact drawn.withSchedule found rfl
  | updateStatus tx id status =>
    simp only [afterCall, perform_updateStatus]
    split
    · exact drawn
    · exact drawn
    · exact drawn
    · rename_i seen
      obtain ⟨ws, found, _⟩ := visibleSchedule_open seen
      exact drawn.addStaged found (by simp [StagedWrite.Below])
  | delete tx id =>
    simp only [afterCall, perform_delete]
    split
    · exact drawn
    · exact drawn
    · exact drawn
    · rename_i seen
      obtain ⟨ws, found, _⟩ := visibleSchedule_open seen
      exact drawn.addStaged found (by simp [StagedWrite.Below])
  | bulkUpsert tx slots order =>
    simp only [afterCall, perform_bulkUpsert]
    split
    · exact drawn
    · exact drawn
    · exact drawn
    · rename_i owners found
      apply drawn.addStaged found
      intro w member
      obtain ⟨x, source, rfl⟩ := List.mem_map.mp member
      obtain ⟨y, seen⟩ := order.visible_ok.mp owners x source
      exact drawn.visible seen
  | deleteSlots tx id =>
    simp only [afterCall, perform_deleteSlots]
    split
    · exact drawn
    · exact drawn
    · rename_i found
      exact drawn.addStaged found (by simp [StagedWrite.Below])
  | _ => exact ⟨drawn.transactions, drawn.semesters, drawn.slots, drawn.daily, drawn.staged⟩

end Drawn

theorem Drawn.leads (drawn : s.Drawn) (run : s.Leads t) : t.Drawn :=
  run.induction (fun _ call drawn => drawn.step call) drawn

theorem Reachable.drawn (reached : s.Reachable) : s.Drawn := Drawn.start.leads reached

/-! The slots of a schedule. -/

theorem slotsOf_eq (s : Store) (id : Int) :
    s.slotsOf id = (s.slots.entries.filter fun e => e.1.1 == id).map Prod.snd := rfl

theorem slotsOf_ordered
    (keyed : ∀ e ∈ s.slots.entries, (e.2.schedule, e.2.cell) = e.1) (id : Int) :
    (s.slotsOf id).Pairwise fun a b => Key.before a.cell b.cell = true := by
  rw [slotsOf_eq, List.pairwise_map]
  apply (s.slots.sorted.filter _).imp_of_mem
  intro a b first second before
  obtain ⟨listed, owner⟩ := List.mem_filter.mp first
  obtain ⟨listed', owner'⟩ := List.mem_filter.mp second
  rw [← keyed a listed] at before owner
  rw [← keyed b listed'] at before owner'
  have same : a.2.schedule = b.2.schedule := (beq_iff_eq.mp owner).trans (beq_iff_eq.mp owner').symm
  rw [same, Key.before_pair] at before
  exact before

end Store

end SchoolTimetable

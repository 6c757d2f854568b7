import SchoolTimetable.Session.Proposals
import SchoolTimetable.Proofs.Board.Sliding

/-!
What is remembered of the loads that a timetable was made from. The metadata of a proposal list them
by subject, under each subject its own in the order in which they were asked for. So the weekly
counts that are listed for a subject and a teacher add up to what was asked for.
-/
namespace SchoolTimetable

namespace Json

def member? : Json → String → Option Json
  | .obj fields, name => field? fields name
  | _, _ => none

def items : Json → List Json
  | .arr l => l
  | _ => []

def toCount : Json → Nat
  | .int n => n.toNat
  | _ => 0

def loadEntries (metadata : Json) (subject : SubjectId) : List Json :=
  ((metadata.member? "subjects").bind (·.member? subject)).elim [] items

def weeklyCount (metadata : Json) (subject : SubjectId) (teacher : TeacherId) : Nat :=
  total (((metadata.loadEntries subject).filter fun e =>
    e.member? "teacher_id" = some (.str teacher)).map fun e =>
      (e.member? "weekly_count").elim 0 toCount)

/-- Metadata that list some loads by subject, in these fields. -/
structure ListsLoads (metadata : Json) (loads : List SubjectLoad) (fields : List (String × Json)) :
    Prop where
  here : metadata.member? "subjects" = some (.obj fields)
  distinct : (fields.map Prod.fst).Nodup
  subjects : ∀ subject, subject ∈ fields.map Prod.fst ↔ ∃ l ∈ loads, l.subject = subject
  /-- Under a subject come its loads, as they were asked for. -/
  entries : ∀ f ∈ fields, f.2 = .arr ((loads.filter (·.subject = f.1)).map fun l =>
    .obj [("teacher_id", .str l.teacher), ("weekly_count", .nat l.weeklyCount),
      ("difficulty", .int l.difficulty)])
  /-- No load is lost or repeated. -/
  whole : total (fields.map fun f => f.2.items.length) = loads.length

namespace ListsLoads
variable {metadata : Json} {loads : List SubjectLoad} {fields : List (String × Json)}

theorem loadEntries (lists : metadata.ListsLoads loads fields) (subject : SubjectId) :
    metadata.loadEntries subject = (loads.filter (·.subject = subject)).map Proposal.loadEntry := by
  have looked : metadata.loadEntries subject = (field? fields subject).elim [] items := by
    rw [Json.loadEntries, lists.here]
    rfl
  rw [looked, field?]
  cases found : fields.find? fun f => f.1 == subject with
  | none =>
    have absent : loads.filter (·.subject = subject) = [] := by
      apply List.filter_eq_nil_iff.mpr
      intro l asked same
      obtain ⟨f, listed, name⟩ := List.mem_map.mp
        ((lists.subjects subject).mpr ⟨l, asked, of_decide_eq_true same⟩)
      exact List.find?_eq_none.mp found f listed (beq_iff_eq.mpr name)
    rw [absent]
    rfl
  | some f =>
    have met := List.find?_some found
    have name : f.1 = subject := beq_iff_eq.mp met
    have entries := lists.entries f (List.mem_of_find?_eq_some found)
    rw [Option.map_some, Option.elim_some, entries, name]
    rfl

theorem weeklyCount (lists : metadata.ListsLoads loads fields) (subject : SubjectId)
    (teacher : TeacherId) :
    metadata.weeklyCount subject teacher =
      total ((loads.filter fun l => l.subject = subject ∧ l.teacher = teacher).map
        (·.weeklyCount)) := by
  have named : ((fun e : Json => decide (e.member? "teacher_id" = some (.str teacher))) ∘
      Proposal.loadEntry) = fun l => decide (l.teacher = teacher) := by
    funext l
    have field : (Proposal.loadEntry l).member? "teacher_id" = some (.str l.teacher) := rfl
    simp only [Function.comp_apply, field, Option.some.injEq, Json.str.injEq]
  rw [Json.weeklyCount, lists.loadEntries, List.filter_map, named, List.filter_filter, List.map_map]
  simp only [Bool.decide_and, Bool.and_comm]
  rfl

end ListsLoads

end Json

namespace Proposal

def addLoad (t : Table SubjectId (List SubjectLoad)) (l : SubjectLoad) :
    Table SubjectId (List SubjectLoad) :=
  t.insert l.subject ((t.get? l.subject).getD [] ++ [l])

theorem loadsBySubject_eq (p : Proposal) : p.loadsBySubject = p.loads.foldl addLoad ∅ := rfl

theorem getD_addLoads (ls : List SubjectLoad) (t : Table SubjectId (List SubjectLoad))
    (subject : SubjectId) :
    ((ls.foldl addLoad t).get? subject).getD [] =
      (t.get? subject).getD [] ++ ls.filter (·.subject = subject) := by
  induction ls generalizing t with
  | nil => exact (List.append_nil _).symm
  | cons l rest ih =>
    rw [List.foldl_cons, ih]
    by_cases own : l.subject = subject
    · subst own
      rw [addLoad, Table.get?_insert_self, List.filter_cons_of_pos (by simp), Option.getD_some,
        List.append_assoc]
      rfl
    · rw [addLoad, Table.get?_insert_of_ne _ _ (Ne.symm own),
        List.filter_cons_of_neg (by simpa using own)]

theorem isSome_addLoads (ls : List SubjectLoad) (t : Table SubjectId (List SubjectLoad))
    (subject : SubjectId) :
    ((ls.foldl addLoad t).get? subject).isSome = true ↔
      (t.get? subject).isSome = true ∨ ∃ l ∈ ls, l.subject = subject := by
  induction ls generalizing t with
  | nil => simp
  | cons l rest ih =>
    rw [List.foldl_cons, ih]
    by_cases own : l.subject = subject
    · rw [addLoad, ← own, Table.get?_insert_self]
      simp
    · rw [addLoad, Table.get?_insert_of_ne _ _ (Ne.symm own)]
      simp [own]

theorem keys_loadsBySubject {p : Proposal} {subject : SubjectId} :
    subject ∈ p.loadsBySubject.keys ↔ ∃ l ∈ p.loads, l.subject = subject := by
  have nothing : ((∅ : Table SubjectId (List SubjectLoad)).get? subject).isSome = false := rfl
  rw [Table.mem_keys_iff, ← Option.isSome_iff_exists, loadsBySubject_eq, isSome_addLoads, nothing]
  simp

theorem mem_loadsBySubject {p : Proposal} {subject : SubjectId} {ls : List SubjectLoad}
    (listed : (subject, ls) ∈ p.loadsBySubject.entries) :
    ls = p.loads.filter (·.subject = subject) := by
  have found := getD_addLoads p.loads ∅ subject
  rw [← loadsBySubject_eq, Table.get?_eq_some_iff.mpr listed] at found
  exact found

theorem keptMetadata_listsLoads (p : Proposal) :
    p.keptMetadata.ListsLoads p.loads
      (p.loadsBySubject.mapValues fun _ ls => .arr (ls.map loadEntry)).entries := by
  have names : ((p.loadsBySubject.mapValues fun _ ls => Json.arr (ls.map loadEntry)).entries.map
      Prod.fst) = p.loadsBySubject.keys := List.map_map
  have distinct : p.loadsBySubject.keys.Nodup := p.loadsBySubject.keys_nodup
  have entries : ∀ f ∈ (p.loadsBySubject.mapValues fun _ ls => Json.arr (ls.map loadEntry)).entries,
      f.2 = .arr ((p.loads.filter (·.subject = f.1)).map loadEntry) := by
    intro f listed
    obtain ⟨⟨subject, ls⟩, own, same⟩ := List.mem_map.mp listed
    rw [← same, mem_loadsBySubject own]
  refine ⟨rfl, names ▸ distinct, fun subject => ?_, entries, ?_⟩
  · rw [names]
    exact keys_loadsBySubject
  -- under its subject is every load, and subjects are listed once
  · have covered : ∀ l ∈ p.loads, l.subject ∈ p.loadsBySubject.keys :=
      fun l asked => keys_loadsBySubject.mpr ⟨l, asked, rfl⟩
    rw [← total_countP_covered SubjectLoad.subject distinct covered, ← names, List.map_map]
    apply congrArg total
    apply List.map_congr_left
    intro f listed
    rw [entries f listed, Json.items, List.length_map]
    exact List.countP_eq_length_filter.symm

end Proposal

end SchoolTimetable

import SchoolTimetable.Proofs.Store.Runs

/-!
Versions of the schedules of one class in one term. The next version is larger than all of them,
and a listing puts the newest first. Where versions grow with the ids, it is strictly descending in
the ids as well.
-/
namespace SchoolTimetable.Store
variable {s : Store} {term : TermId} {classId : ClassId}

def VersionsGrow (s : Store) : Prop :=
  ∀ i x j y, s.semesters.get? i = some x → s.semesters.get? j = some y → x.term = y.term →
    x.classId = y.classId → i < j → x.version < y.version

theorem mem_semestersOf {x : SemesterSchedule} :
    x ∈ s.semestersOf term classId ↔
      (∃ id, s.semesters.get? id = some x) ∧ x.term = term ∧ x.classId = classId := by
  rw [semestersOf, List.mem_filter, Table.mem_values_iff, decide_eq_true_iff]

theorem le_maxVersion {xs : List SemesterSchedule} {x : SemesterSchedule} (member : x ∈ xs) :
    x.version ≤ maxVersion xs := by
  have run : ∀ (vs : List Nat) (start : Nat), start ≤ vs.foldl max start ∧
      ∀ v ∈ vs, v ≤ vs.foldl max start := by
    intro vs
    induction vs with
    | nil => exact fun start => ⟨Nat.le_refl start, nofun⟩
    | cons v rest ih =>
      intro start
      obtain ⟨least, others⟩ := ih (max start v)
      have both := Nat.max_le.mp least
      refine ⟨both.1, fun w listed => ?_⟩
      rcases List.mem_cons.mp listed with here | there
      · exact here ▸ both.2
      · exact others w there
  exact (run (xs.map (·.version)) 0).2 x.version (List.mem_map_of_mem member)

theorem insertByVersion_perm (x : SemesterSchedule) (l : List SemesterSchedule) :
    (insertByVersion x l).Perm (x :: l) := by
  induction l with
  | nil => exact .refl _
  | cons y rest ih =>
    simp only [insertByVersion]
    split
    · exact .refl _
    · exact (ih.cons y).trans (.swap x y rest)

theorem insertByVersion_newestFirst {l : List SemesterSchedule} (x : SemesterSchedule)
    (sorted : l.Pairwise fun a b => b.version ≤ a.version) :
    (insertByVersion x l).Pairwise fun a b => b.version ≤ a.version := by
  induction l with
  | nil => exact List.pairwise_singleton _ x
  | cons y rest ih =>
    obtain ⟨first, others⟩ := List.pairwise_cons.mp sorted
    simp only [insertByVersion]
    split
    · rename_i newer
      refine List.pairwise_cons.mpr ⟨fun z listed => ?_, sorted⟩
      rcases List.mem_cons.mp listed with here | there
      · rw [here]
        omega
      · have below := first z there
        omega
    · rename_i older
      refine List.pairwise_cons.mpr ⟨fun z listed => ?_, ih others⟩
      rcases List.mem_cons.mp ((insertByVersion_perm x rest).mem_iff.mp listed) with here | there
      · rw [here]
        omega
      · exact first z there

theorem foldl_insertByVersion_newestFirst (xs : List SemesterSchedule)
    {l : List SemesterSchedule} (sorted : l.Pairwise fun a b => b.version ≤ a.version) :
    (xs.foldl (fun l x => insertByVersion x l) l).Perm (xs ++ l) ∧
      (xs.foldl (fun l x => insertByVersion x l) l).Pairwise
        fun a b => b.version ≤ a.version := by
  induction xs generalizing l with
  | nil => exact ⟨.refl l, sorted⟩
  | cons x rest ih =>
    obtain ⟨perm, newest⟩ := ih (insertByVersion_newestFirst x sorted)
    have moved := (insertByVersion_perm x l).append_left rest
    exact ⟨(perm.trans moved).trans List.perm_middle, newest⟩

theorem semestersOf_ascending (drawn : s.Drawn) (grow : s.VersionsGrow) :
    (s.semestersOf term classId).Pairwise fun a b => a.id < b.id ∧ a.version < b.version := by
  have values : s.semesters.values.Pairwise fun a b => a.term = b.term →
      a.classId = b.classId → a.id < b.id ∧ a.version < b.version := by
    refine List.pairwise_map.mpr (s.semesters.sorted.imp_of_mem ?_)
    intro a b first second before sameTerm sameClass
    have found := Table.get?_eq_some_iff.mpr first
    have found' := Table.get?_eq_some_iff.mpr second
    have less : a.1 < b.1 := of_decide_eq_true before
    rw [(drawn.semesters a.1 a.2 found).1, (drawn.semesters b.1 b.2 found').1]
    exact ⟨less, grow a.1 a.2 b.1 b.2 found found' sameTerm sameClass less⟩
  apply (values.filter _).imp_of_mem
  intro a b first second ascend
  have own := of_decide_eq_true (List.mem_filter.mp first).2
  have own' := of_decide_eq_true (List.mem_filter.mp second).2
  exact ascend (own.1.trans own'.1.symm) (own.2.trans own'.2.symm)

theorem foldl_insertByVersion {xs l : List SemesterSchedule}
    (ascending : xs.Pairwise fun a b => a.version < b.version)
    (older : ∀ y ∈ l, ∀ x ∈ xs, y.version < x.version) :
    xs.foldl (fun l x => insertByVersion x l) l = xs.reverse ++ l := by
  induction xs generalizing l with
  | nil => rfl
  | cons x rest ih =>
    obtain ⟨first, others⟩ := List.pairwise_cons.mp ascending
    have front : insertByVersion x l = x :: l := by
      cases l with
      | nil => rfl
      | cons y r => exact if_pos (older y List.mem_cons_self x List.mem_cons_self)
    rw [List.foldl_cons, front, ih others, List.reverse_cons, List.append_assoc]
    · rfl
    · intro y listed z member
      rcases List.mem_cons.mp listed with here | there
      · exact here ▸ first z member
      · exact older y there z (List.mem_cons_of_mem _ member)

theorem listSemesters_descending (drawn : s.Drawn) (grow : s.VersionsGrow)
    (fit : s.check .listSemesters = .ok ()) (term : TermId) (classId : ClassId) :
    ∃ l, s.listSemesters term classId = .ok l ∧ l.Perm (s.semestersOf term classId) ∧
      l.Pairwise fun a b => b.id < a.id ∧ b.version < a.version := by
  have ascending : (s.semestersOf term classId).Pairwise fun a b =>
      a.id < b.id ∧ a.version < b.version := semestersOf_ascending drawn grow
  have listed := foldl_insertByVersion (l := []) (ascending.imp And.right) nofun
  rw [List.append_nil] at listed
  refine ⟨(s.semestersOf term classId).reverse, ?_, List.reverse_perm _, ?_⟩
  · rw [listSemesters, fit, ← listed]
    rfl
  · exact List.pairwise_reverse.mpr ascending

end SchoolTimetable.Store

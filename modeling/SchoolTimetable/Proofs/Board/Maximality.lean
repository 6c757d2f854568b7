import SchoolTimetable.Proofs.Board.Shortfalls

/-!
Placement leaves out no lesson that fits. A unit is missed only when its teacher can take no empty
cell, and while units are placed none becomes open again: cells fill up, loads rise and reservations
stay. So a teacher who has missed one unit misses all that come after it.
-/
namespace SchoolTimetable.Board
variable {b : Board} {t : TeacherId}

def missed (told : List (SubjectLoad × Option Cell)) : List SubjectLoad :=
  (told.filter (·.2 = none)).map (·.1)

theorem mem_missed_iff {told : List (SubjectLoad × Option Cell)} {l : SubjectLoad} :
    l ∈ missed told ↔ (l, none) ∈ told := by
  simp only [missed, List.mem_map, List.mem_filter, decide_eq_true_eq]
  constructor
  · rintro ⟨⟨l, c⟩, ⟨member, rfl⟩, rfl⟩
    exact member
  · intro member
    exact ⟨(l, none), ⟨member, rfl⟩, rfl⟩

theorem told_cons (b : Board) (l : SubjectLoad) (rest : List SubjectLoad) :
    (b.placeUnits (l :: rest)).2 =
      (l, (b.placeUnit l).2) :: ((b.placeUnit l).1.placeUnits rest).2 := by rw [placeUnits]

theorem told_units (b : Board) (ls : List SubjectLoad) : (b.placeUnits ls).2.map (·.1) = ls := by
  induction ls generalizing b with
  | nil => rfl
  | cons l rest ih => rw [told_cons, List.map_cons, ih]

theorem inGrid_placeUnit (b : Board) (l : SubjectLoad) (c : Cell) :
    (b.placeUnit l).1.inGrid c ↔ b.inGrid c := by
  obtain ⟨days, slots, _, _⟩ := b.withLedger_frame l.teacher
  cases found : (b.withLedger l.teacher).cellFor? l <;>
    simp [placeUnit, placeOne, found, pin, inGrid, days, slots]

theorem inGrid_placeUnits (b : Board) (ls : List SubjectLoad) (c : Cell) :
    (b.placeUnits ls).1.inGrid c ↔ b.inGrid c := by
  induction ls generalizing b with
  | nil => rfl
  | cons l rest ih => rw [placeUnits_cons, ih, inGrid_placeUnit]

theorem placeUnits_shortfalls (b : Board) (ls : List SubjectLoad) :
    (b.placeUnits ls).1.shortfalls =
      b.shortfalls ++ (missed (b.placeUnits ls).2).map .ofLoad := by
  induction ls generalizing b with
  | nil => exact (List.append_nil _).symm
  | cons l rest ih =>
    rw [placeUnits_cons, ih, placeUnit_shortfalls, told_cons, List.append_assoc]
    cases (b.placeUnit l).2 <;> simp [missed]

theorem ClosedTo.told (h : b.ClosedTo t) {ls : List SubjectLoad} {x : SubjectLoad × Option Cell}
    (member : x ∈ (b.placeUnits ls).2) (same : x.1.teacher = t) : x.2 = none := by
  induction ls generalizing b with
  | nil => cases member
  | cons l rest ih =>
    rw [told_cons] at member
    rcases List.mem_cons.mp member with first | later
    · subst first
      exact (b.placeUnit_missed_iff l).mpr (same ▸ h)
    · exact ih (h.placeUnit l) later

/-- What a missed unit says of its teacher still holds when all units are placed. -/
theorem closedTo_of_missed {ls : List SubjectLoad} {l : SubjectLoad}
    (member : l ∈ missed (b.placeUnits ls).2) : (b.placeUnits ls).1.ClosedTo l.teacher := by
  rw [mem_missed_iff] at member
  induction ls generalizing b with
  | nil => cases member
  | cons first rest ih =>
    rw [told_cons] at member
    rw [placeUnits_cons]
    rcases List.mem_cons.mp member with same | later
    · obtain ⟨rfl, nowhere⟩ := Prod.mk.inj same
      -- Closed at the time of the miss, and no later unit opens a cell.
      have closed := (b.placeUnit_missed_iff l).mp nowhere.symm
      exact (closed.placeUnit l).placeUnits rest
    · exact ih later

theorem told_missed_onwards (b : Board) (ls : List SubjectLoad) :
    (b.placeUnits ls).2.Pairwise fun before after =>
      before.2 = none → after.1.teacher = before.1.teacher → after.2 = none := by
  induction ls generalizing b with
  | nil => exact .nil
  | cons l rest ih =>
    rw [told_cons]
    refine .cons ?_ (ih _)
    intro after later nowhere same
    have closed := (b.placeUnit_missed_iff l).mp nowhere
    exact (closed.placeUnit l).told later same

/-- Placement is maximal: on the board that it leaves, no teacher of a shortfall that it has noted
can take an empty cell, and among the units in their order, a teacher who has missed one misses all
later ones. -/
theorem placeLoads_maximal (b : Board) (loads : List SubjectLoad) :
    let filled := (b.placeLoads loads).1
    let told := (b.placeLoads loads).2
    let noted := (missed told).map Shortfall.ofLoad
    told.map (·.1) = units loads ∧ filled.shortfalls = b.shortfalls ++ noted ∧
    (∀ x ∈ noted, ∀ c, b.inGrid c → filled.lessonAt? c = none →
      (filled.ledger x.teacher).canAssign c = false) ∧
    told.Pairwise fun before after =>
      before.2 = none → after.1.teacher = before.1.teacher → after.2 = none := by
  intro filled told noted
  refine ⟨told_units b _, placeUnits_shortfalls b _, ?_, told_missed_onwards b _⟩
  intro x listed c inside empty
  obtain ⟨l, member, rfl⟩ := List.mem_map.mp listed
  have still : filled.inGrid c := (inGrid_placeUnits b (units loads) c).mpr inside
  exact Availability.refuses_iff.mp (closedTo_of_missed member c still empty)

/-- Cat has the first slot only, so art is missed as music is, whatever slot it prefers. -/
example :
    let late := Table.empty.insert "cat" ((Availability.unlimited.block ⟨1, 2⟩).block ⟨1, 3⟩)
    let loads : List SubjectLoad :=
      [⟨"music", "cat", 2, 1, [], none⟩, ⟨"math", "ann", 1, 0, [], none⟩,
        ⟨"art", "cat", 1, 0, [2], none⟩]
    ((start 3 [1] late).placeLoads loads).2.map (fun x => (x.1.subject, x.2)) =
      [("music", some ⟨1, 1⟩), ("music", none), ("math", some ⟨1, 2⟩), ("art", none)] := by
  decide +kernel

end SchoolTimetable.Board

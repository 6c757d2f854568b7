import Mathlib.Data.List.Chain
import Mathlib.Logic.Relation
import SchoolTimetable.Board.GapRepair
import SchoolTimetable.Board.Placement
import SchoolTimetable.Proofs.Ledger

/-!
What can happen to a board: a teacher becomes known, a lesson is pinned, a shortfall is noted, a
lesson moves into a gap. Every call on a board is a chain of these steps, so what each step keeps
holds of all boards that calls can reach.
-/
namespace SchoolTimetable

inductive BoardCall where
  | placeOne (l : SubjectLoad)
  | placeLoads (loads : List SubjectLoad)
  | repairGaps (budget : Nat)
  deriving DecidableEq, Repr

def BoardCall.loads : BoardCall → List SubjectLoad
  | placeOne l => [l]
  | placeLoads loads => loads
  | repairGaps _ => []

namespace Board
variable {asked : SubjectLoad → Prop}

def afterCall (b : Board) : BoardCall → Board
  | .placeOne l => (b.placeOne l).1
  | .placeLoads loads => (b.placeLoads loads).1
  | .repairGaps budget => (repairGaps budget b).1

def afterCalls (b : Board) (calls : List BoardCall) : Board := calls.foldl afterCall b

/-- The lesson at `src` can close the gap right before it. -/
structure GapMove (b : Board) (lesson : Lesson) (src dest : Cell) : Prop where
  found : b.lessonAt? src = some lesson
  sameDay : dest.day = src.day
  before : dest.slot + 1 = src.slot
  afterOther : ∃ slot < dest.slot, (b.lessonAt? ⟨src.day, slot⟩).isSome
  empty : b.lessonAt? dest = none
  known : b.teachers.contains lesson.teacher = true
  admitted : (b.ledger lesson.teacher).canMove src dest = true

inductive Step (asked : SubjectLoad → Prop) : Board → Board → Prop where
  | know (b : Board) (t : TeacherId) : Step asked b (b.withLedger t)
  | pin (b : Board) (l : SubjectLoad) (c : Cell) (wanted : asked l)
      (known : b.teachers.contains l.teacher = true) (inside : b.inGrid c)
      (empty : b.lessonAt? c = none) (admitted : (b.ledger l.teacher).canAssign c = true) :
      Step asked b (b.pin l c)
  | note (b : Board) (l : SubjectLoad) (wanted : asked l) :
      Step asked b { b with shortfalls := b.shortfalls ++ [.ofLoad l] }
  | move (b : Board) (lesson : Lesson) (src dest : Cell) (gap : b.GapMove lesson src dest) :
      Step asked b (b.move src dest)

abbrev Steps (asked : SubjectLoad → Prop) : Board → Board → Prop :=
  Relation.ReflTransGen (Step asked)

theorem mem_candidateDays {b : Board} {day : Nat} : day ∈ b.candidateDays ↔ day ∈ b.days := by
  simp only [candidateDays, List.mem_map, mem_sortDistinct_iff]
  constructor
  · intro h
    obtain ⟨p, ⟨d, member, same⟩, second⟩ := h
    subst same second
    exact member
  · intro h
    exact ⟨(b.dayLoad day, day), ⟨day, h, rfl⟩, rfl⟩

theorem mem_candidateCells {b : Board} {l : SubjectLoad} {c : Cell} :
    c ∈ b.candidateCells l ↔ b.inGrid c := by
  simp only [candidateCells, List.mem_flatMap, List.mem_map, mem_candidateDays,
    mem_candidateSlots, inGrid]
  constructor
  · intro h
    obtain ⟨d, listed, s, range, same⟩ := h
    subst same
    exact ⟨listed, range⟩
  · intro h
    exact ⟨c.day, h.1, c.slot, h.2, rfl⟩

theorem lessonAt?_eq_none_iff {b : Board} {c : Cell} :
    b.lessonAt? c = none ↔ b.grid.contains c = false := by
  simp [lessonAt?, Table.contains]

theorem cellFor?_spec {b : Board} {l : SubjectLoad} {c : Cell} (found : b.cellFor? l = some c) :
    b.inGrid c ∧ b.lessonAt? c = none ∧ (b.ledger l.teacher).canAssign c = true := by
  have admitted := List.find?_some found
  have listed := mem_candidateCells.mp (List.mem_of_find?_eq_some found)
  simp only [admits, Bool.and_eq_true, Bool.not_eq_true'] at admitted
  exact ⟨listed, lessonAt?_eq_none_iff.mpr admitted.1, admitted.2⟩

theorem withLedger_known (b : Board) (t : TeacherId) :
    (b.withLedger t).teachers.contains t = true := by
  unfold withLedger
  split
  · assumption
  · simp [Table.contains]

theorem placeOne_steps (b : Board) {l : SubjectLoad} (wanted : asked l) :
    Steps asked b (b.placeOne l).1 := by
  have known : Steps asked b (b.withLedger l.teacher) := .single (.know b l.teacher)
  simp only [placeOne]
  split
  · rename_i c found
    obtain ⟨inside, empty, admitted⟩ := cellFor?_spec found
    exact known.tail (.pin _ l c wanted (b.withLedger_known l.teacher) inside empty admitted)
  · exact known

theorem placeUnit_steps (b : Board) {l : SubjectLoad} (wanted : asked l) :
    Steps asked b (b.placeUnit l).1 := by
  have placed := b.placeOne_steps wanted
  unfold placeUnit
  split
  · rename_i b' c same
    rw [same] at placed
    exact placed
  · rename_i b' same
    rw [same] at placed
    exact placed.tail (.note b' l wanted)

theorem placeUnits_cons (b : Board) (l : SubjectLoad) (rest : List SubjectLoad) :
    (b.placeUnits (l :: rest)).1 = ((b.placeUnit l).1.placeUnits rest).1 := by rw [placeUnits]

theorem placeUnits_steps (b : Board) {ls : List SubjectLoad} (wanted : ∀ l ∈ ls, asked l) :
    Steps asked b (b.placeUnits ls).1 := by
  induction ls generalizing b with
  | nil => exact .refl
  | cons l rest ih =>
    have first := b.placeUnit_steps (wanted l List.mem_cons_self)
    rw [placeUnits_cons]
    exact first.trans (ih _ fun x member => wanted x (List.mem_cons_of_mem _ member))

theorem mem_of_mem_units {loads : List SubjectLoad} {l : SubjectLoad} (member : l ∈ units loads) :
    l ∈ loads := by
  obtain ⟨x, ordered, copies⟩ := List.mem_flatMap.mp member
  have same : l = x := (List.mem_replicate.mp copies).2
  obtain ⟨k, found⟩ := Table.mem_values_iff.mp ordered
  obtain ⟨p, listed, pair⟩ := List.mem_map.mp (Table.mem_of_get?_ofList found)
  cases pair
  rw [same]
  exact (List.mem_zipIdx' listed).2 ▸ List.getElem_mem _

theorem placeLoads_steps (b : Board) (loads : List SubjectLoad) :
    Steps (· ∈ loads) b (b.placeLoads loads).1 :=
  b.placeUnits_steps fun _ member => mem_of_mem_units member

abbrev Consecutive (slots : List Nat) : Prop := slots.IsChain fun slot next => next = slot + 1

theorem consecutive_cons {a b : Nat} {rest : List Nat} :
    Consecutive (a :: b :: rest) ↔ b = a + 1 ∧ Consecutive (b :: rest) := List.isChain_cons_cons

theorem slotAfterGap?_split {slots : List Nat} (ascending : slots.Pairwise (· < ·)) {x : Nat}
    (found : slotAfterGap? slots = some x) :
    ∃ front last rest, slots = front ++ last :: x :: rest ∧ Consecutive (front ++ [last]) ∧
      last + 1 < x := by
  fun_induction slotAfterGap? slots with
  | case1 a b r gap =>
    cases found
    exact ⟨[], a, r, rfl, .singleton a, by omega⟩
  | case2 a b r none ih =>
    obtain ⟨later, ascends⟩ := List.pairwise_cons.mp ascending
    obtain ⟨front, last, rest, same, chain, gap⟩ := ih ascends found
    have before := later b List.mem_cons_self
    have next : b = a + 1 := by omega
    refine ⟨a :: front, last, rest, by rw [same]; rfl, ?_, gap⟩
    cases front <;> cases same <;> exact consecutive_cons.mpr ⟨next, chain⟩
  | case3 => cases found

theorem slotAfterGap?_eq_none_iff {slots : List Nat} (ascending : slots.Pairwise (· < ·)) :
    slotAfterGap? slots = none ↔ Consecutive slots := by
  fun_induction slotAfterGap? slots with
  | case1 a b r gap =>
    rw [consecutive_cons]
    constructor
    · intro none
      cases none
    · intro chain
      omega
  | case2 a b r none ih =>
    obtain ⟨later, ascends⟩ := List.pairwise_cons.mp ascending
    have before := later b List.mem_cons_self
    have next : b = a + 1 := by omega
    rw [ih ascends, consecutive_cons]
    simp only [next, true_and]
  | case3 slots short =>
    cases slots with
    | nil => simp
    | cons a r =>
      cases r with
      | nil => simp
      | cons b r => exact absurd rfl (short a b r)

theorem slotsOn_sorted (b : Board) (day : Nat) : (b.slotsOn day).Pairwise (· < ·) := by
  apply List.pairwise_map.mpr
  apply (b.grid.keys_sorted.filter _).imp_of_mem
  intro c d hc hd before
  have onDay : c.day = day := of_decide_eq_true (List.mem_filter.mp hc).2
  have sameDay : d.day = day := of_decide_eq_true (List.mem_filter.mp hd).2
  have := Cell.before_iff.mp before
  omega

theorem gap_before {b : Board} {day x : Nat} (found : slotAfterGap? (b.slotsOn day) = some x) :
    (b.lessonAt? ⟨day, x - 1⟩ = none) ∧
      ∃ slot < x - 1, (b.lessonAt? ⟨day, slot⟩).isSome := by
  have sorted := b.slotsOn_sorted day
  obtain ⟨front, a, rest, slots, _, gap⟩ := slotAfterGap?_split sorted found
  rw [slots] at sorted
  have parts := List.pairwise_append.mp sorted
  have tail := List.pairwise_cons.mp (List.pairwise_cons.mp parts.2.1).2
  constructor
  · have absent : x - 1 ∉ b.slotsOn day := by
      intro member
      rw [slots, List.mem_append, List.mem_cons, List.mem_cons] at member
      rcases member with early | head | here | late
      · have := parts.2.2 _ early a (by simp); omega
      · omega
      · omega
      · have := tail.1 _ late; omega
    rw [mem_slotsOn_iff] at absent
    simpa using absent
  · refine ⟨a, by omega, mem_slotsOn_iff.mp ?_⟩
    rw [slots]
    simp

theorem gapMoveOn?_spec {b : Board} {day : Nat} {src dest : Cell}
    (found : b.gapMoveOn? day = some (src, dest)) : ∃ lesson, b.GapMove lesson src dest := by
  simp only [gapMoveOn?, bind, Option.bind_eq_some_iff] at found
  obtain ⟨x, gap, lesson, stored, a, known, choice⟩ := found
  split at choice
  · rename_i admitted
    simp only [Option.some.injEq, Prod.mk.injEq] at choice
    obtain ⟨rfl, rfl⟩ := choice
    obtain ⟨empty, slot, earlier, occupied⟩ := gap_before gap
    refine ⟨lesson, stored, rfl, ?_, ⟨slot, earlier, occupied⟩, empty, ?_, ?_⟩
    · change x - 1 + 1 = x
      omega
    · simp [Table.contains, known]
    · simpa [ledger, known] using admitted
  · cases choice

theorem gapMove?_spec {b : Board} {src dest : Cell} (found : b.gapMove? = some (src, dest)) :
    ∃ lesson, b.GapMove lesson src dest := by
  obtain ⟨day, _, here⟩ := List.exists_of_findSome?_eq_some found
  exact gapMoveOn?_spec here

theorem repairGaps_of_stuck {b : Board} (stuck : b.gapMove? = none) (budget : Nat) :
    repairGaps budget b = (b, 0) := by
  cases budget with
  | zero => rfl
  | succ budget => rw [repairGaps, stuck]

/-- What holds between a board and itself, and before a move when it holds after it, holds between
a board and its repair. -/
theorem repairGaps_induction {P : Nat → Board → Board → Prop} (still : ∀ b, P 0 b b)
    (move : ∀ {b b' : Board} {n lesson src dest}, b.GapMove lesson src dest →
      P n (b.move src dest) b' → P (n + 1) b b') (budget : Nat) (b : Board) :
    P (repairGaps budget b).2 b (repairGaps budget b).1 := by
  induction budget generalizing b with
  | zero => exact still b
  | succ budget ih =>
    unfold repairGaps
    split
    · exact still b
    · rename_i src dest found
      obtain ⟨lesson, gap⟩ := gapMove?_spec found
      exact move gap (ih (b.move src dest))

theorem repairGaps_steps (budget : Nat) (b : Board) : Steps asked b (repairGaps budget b).1 := by
  apply repairGaps_induction (P := fun _ b b' => Steps asked b b')
  · exact fun _ => .refl
  · intro b b' n lesson src dest gap rest
    exact rest.head (.move b lesson src dest gap)

theorem afterCall_steps (b : Board) {call : BoardCall} (wanted : ∀ l ∈ call.loads, asked l) :
    Steps asked b (b.afterCall call) := by
  cases call with
  | placeOne l => exact b.placeOne_steps (wanted l List.mem_cons_self)
  | placeLoads loads =>
    exact b.placeUnits_steps fun l member => wanted l (mem_of_mem_units member)
  | repairGaps budget => exact repairGaps_steps budget b

theorem afterCalls_steps (b : Board) {calls : List BoardCall}
    (wanted : ∀ call ∈ calls, ∀ l ∈ call.loads, asked l) : Steps asked b (b.afterCalls calls) := by
  induction calls generalizing b with
  | nil => exact .refl
  | cons call rest ih =>
    have first := b.afterCall_steps (wanted call List.mem_cons_self)
    exact first.trans (ih _ fun x member => wanted x (List.mem_cons_of_mem _ member))

end Board

end SchoolTimetable

import SchoolTimetable.Board

/-!
Greedy placement. A lesson goes to the first cell that is empty and that its teacher can take,
where the days come by the lessons they hold, then by number, and the slots of a day come by
preference, then by number. Hard loads go first, then long ones, then as they were asked for.
-/
namespace SchoolTimetable

/-- A list without the later occurrences of each element. -/
def firstOccurrences : List Nat → List Nat
  | [] => []
  | a :: r => a :: (firstOccurrences r).filter (· ≠ a)

theorem mem_firstOccurrences {a : Nat} {l : List Nat} : a ∈ firstOccurrences l ↔ a ∈ l := by
  induction l with
  | nil => rfl
  | cons x r ih =>
    by_cases h : a = x <;> simp [firstOccurrences, ih, h]

/-- The preferences that name one of the slots `1` to `slots`. -/
def slotsInRange (slots : Nat) (preferred : List Int) : List Nat :=
  (preferred.filter fun p => 1 ≤ p ∧ p ≤ (slots : Int)).map Int.toNat

/-- All slots, the preferred ones first. -/
def candidateSlots (preferred : List Int) (slots : Nat) : List Nat :=
  let wanted := firstOccurrences (slotsInRange slots preferred)
  wanted ++ (List.range' 1 slots).filter (· ∉ wanted)

theorem mem_candidateSlots {preferred : List Int} {slots s : Nat} :
    s ∈ candidateSlots preferred slots ↔ 1 ≤ s ∧ s ≤ slots := by
  have inRange : s ∈ slotsInRange slots preferred → 1 ≤ s ∧ s ≤ slots := by
    simp only [slotsInRange, List.mem_map, List.mem_filter, decide_eq_true_eq]
    rintro ⟨p, ⟨_, h⟩, rfl⟩
    omega
  simp only [candidateSlots, List.mem_append, List.mem_filter, mem_firstOccurrences,
    List.mem_range'_1, decide_eq_true_eq]
  constructor
  · rintro (h | ⟨h, _⟩)
    · exact inRange h
    · omega
  · intro h
    by_cases hm : s ∈ slotsInRange slots preferred
    · exact Or.inl hm
    · exact Or.inr ⟨by omega, hm⟩

namespace Board

def candidateDays (b : Board) : List Nat :=
  (sortDistinct (b.days.map fun d => (b.dayLoad d, d))).map (·.2)

def candidateCells (b : Board) (l : SubjectLoad) : List Cell :=
  let slots := candidateSlots l.preferredSlots b.slotsPerDay
  b.candidateDays.flatMap fun d => slots.map fun s => ⟨d, s⟩

/-- A teacher without a ledger is unlimited. -/
def ledger (b : Board) (t : TeacherId) : Availability := (b.teachers.get? t).getD .unlimited

def withLedger (b : Board) (t : TeacherId) : Board :=
  if b.teachers.contains t then b else { b with teachers := b.teachers.insert t .unlimited }

def admits (b : Board) (t : TeacherId) (c : Cell) : Bool :=
  !b.grid.contains c && (b.ledger t).canAssign c

def cellFor? (b : Board) (l : SubjectLoad) : Option Cell :=
  (b.candidateCells l).find? (b.admits l.teacher)

def pin (b : Board) (l : SubjectLoad) (c : Cell) : Board :=
  { b with
    grid := b.grid.insert c ⟨c, l.subject, l.teacher, l.room⟩
    dayLoads := b.dayLoads.insert c.day (b.dayLoad c.day + 1)
    teachers := b.teachers.modify l.teacher fun a => (a.reserve c).1 }

/-- Places one lesson of a load, and tells where it went. -/
def placeOne (b : Board) (l : SubjectLoad) : Board × Option Cell :=
  let b := b.withLedger l.teacher
  match b.cellFor? l with
  | some c => (b.pin l c, some c)
  | none => (b, none)

/-- Places one lesson of a load, or notes the shortfall. -/
def placeUnit (b : Board) (l : SubjectLoad) : Board × Option Cell :=
  match b.placeOne l with
  | (b, some c) => (b, some c)
  | (b, none) => ({ b with shortfalls := b.shortfalls ++ [.ofLoad l] }, none)

/-- Where the lessons of the units went, in their order. -/
def placeUnits (b : Board) : List SubjectLoad → Board × List (SubjectLoad × Option Cell)
  | [] => (b, [])
  | l :: r =>
    let (b, c) := b.placeUnit l
    let (b, placed) := b.placeUnits r
    (b, (l, c) :: placed)

/-- The loads in the order in which they are placed. -/
def placementOrder (loads : List SubjectLoad) : List SubjectLoad :=
  (Table.ofList <| loads.zipIdx.map fun (l, i) =>
    ((-l.difficulty, -(l.weeklyCount : Int), i), l)).values

def units (loads : List SubjectLoad) : List SubjectLoad :=
  (placementOrder loads).flatMap fun l => List.replicate l.weeklyCount l

def placeLoads (b : Board) (loads : List SubjectLoad) :
    Board × List (SubjectLoad × Option Cell) :=
  b.placeUnits (units loads)

def placementNote : SubjectLoad × Option Cell → LogRecord
  | (l, some c) => ⟨.debug, s!"Placed {l.subject} / {l.teacher} at {c.text}"⟩
  | (l, none) => ⟨.debug, s!"No admissible slot for {l.subject} / {l.teacher}"⟩

end Board

end SchoolTimetable

import SchoolTimetable.Proofs.Board.Steps

/-!
The three records of a board: its grid, the count of lessons on each day, and the ledgers of the
teachers. Main statement: whatever calls are made on a new board, the records tell the same story,
and neither a cell nor a teacher is booked twice.
-/
namespace SchoolTimetable.Board

def Gives (b : Board) (t : TeacherId) (c : Cell) : Prop :=
  ∃ l, b.lessonAt? c = some l ∧ l.teacher = t

/-- The records of `b`, which came from the empty board `origin`, agree. -/
structure InStep (origin b : Board) : Prop where
  sameDays : b.days = origin.days
  sameSlots : b.slotsPerDay = origin.slotsPerDay
  stored : ∀ c l, b.lessonAt? c = some l → l.cell = c ∧ b.inGrid c
  limits : ∀ t, (b.ledger t).SameLimits (origin.ledger t)
  unblocked : ∀ t c, b.Gives t c → (origin.ledger t).isBlocked c = false
  apart : ∀ t c, b.Gives t c → (origin.ledger t).isReserved c = false
  reserved : ∀ t c, (b.ledger t).isReserved c = true ↔
    (origin.ledger t).isReserved c = true ∨ b.Gives t c
  balanced : ∀ t, (b.ledger t).Balanced
  counted : ∀ day, b.dayLoad day = b.grid.countKeys (·.day = day)

theorem ledger_modify {b : Board} {u : TeacherId} (known : b.teachers.contains u = true)
    (f : Availability → Availability) (t : TeacherId) :
    ((b.teachers.modify u f).get? t).getD .unlimited =
      if t = u then f (b.ledger u) else b.ledger t := by
  by_cases same : t = u
  · subst same
    obtain ⟨a, found⟩ := Option.isSome_iff_exists.mp known
    simp [ledger, found]
  · rw [Table.get?_modify_of_ne _ _ same, if_neg same]
    rfl

@[simp] theorem ledger_withLedger (b : Board) (u t : TeacherId) :
    (b.withLedger u).ledger t = b.ledger t := by
  unfold withLedger
  split
  · rfl
  · rename_i unknown
    by_cases same : t = u
    · subst same
      have absent : b.teachers.get? t = none := by simpa [Table.contains] using unknown
      simp [ledger, absent]
    · simp [ledger, Table.get?_insert_of_ne _ _ same]

theorem withLedger_frame (b : Board) (u : TeacherId) :
    (b.withLedger u).days = b.days ∧ (b.withLedger u).slotsPerDay = b.slotsPerDay ∧
      (b.withLedger u).grid = b.grid ∧ (b.withLedger u).dayLoads = b.dayLoads := by
  unfold withLedger
  split <;> exact ⟨rfl, rfl, rfl, rfl⟩

theorem lessonAt?_pin (b : Board) (l : SubjectLoad) (c d : Cell) :
    (b.pin l c).lessonAt? d =
      if d = c then some ⟨c, l.subject, l.teacher, l.room⟩ else b.lessonAt? d :=
  Table.get?_insert _ _ _ _

theorem ledger_pin {b : Board} {l : SubjectLoad} (known : b.teachers.contains l.teacher = true)
    (c : Cell) (t : TeacherId) :
    (b.pin l c).ledger t =
      if t = l.teacher then ((b.ledger l.teacher).reserve c).1 else b.ledger t :=
  ledger_modify known _ t

theorem dayLoad_pin (b : Board) (l : SubjectLoad) (c : Cell) (day : Nat) :
    (b.pin l c).dayLoad day = b.dayLoad day + if c.day = day then 1 else 0 := by
  simp only [pin, dayLoad]
  by_cases same : c.day = day
  · subst same; simp
  · rw [Table.get?_insert_of_ne _ _ (Ne.symm same), if_neg same]; rfl

theorem gives_pin {b : Board} {l : SubjectLoad} {c : Cell} (empty : b.lessonAt? c = none)
    (t : TeacherId) (d : Cell) :
    (b.pin l c).Gives t d ↔ (d = c ∧ t = l.teacher) ∨ b.Gives t d := by
  simp only [Gives, lessonAt?_pin]
  by_cases same : d = c
  · subst same
    simp [empty, eq_comm]
  · simp [same]

theorem reserved_pin {b : Board} {l : SubjectLoad}
    (known : b.teachers.contains l.teacher = true) (c : Cell) (t : TeacherId) (d : Cell) :
    ((b.pin l c).ledger t).isReserved d = true ↔
      (d = c ∧ t = l.teacher) ∨ (b.ledger t).isReserved d = true := by
  rw [ledger_pin known]
  by_cases same : t = l.teacher
  · subst same
    simp [Availability.isReserved_reserve]
  · simp [same]

section Moves
variable {b : Board} {lesson : Lesson} {src dest : Cell}

theorem GapMove.distinct (gap : b.GapMove lesson src dest) : src ≠ dest := by
  intro same
  have := gap.before
  rw [same] at this
  omega

theorem GapMove.inGrid (gap : b.GapMove lesson src dest) (inside : b.inGrid src) :
    b.inGrid dest := by
  obtain ⟨slot, earlier, _⟩ := gap.afterOther
  have := gap.before
  obtain ⟨listed, _, most⟩ := inside
  exact ⟨gap.sameDay ▸ listed, by omega, by omega⟩

theorem GapMove.move_eq (gap : b.GapMove lesson src dest) :
    b.move src dest =
      { b with
        grid := (b.grid.erase src).insert dest { lesson with cell := dest }
        teachers := b.teachers.modify lesson.teacher fun a =>
          ((a.release src).1.reserve dest).1 } := by
  have found : b.grid.get? src = some lesson := gap.found
  simp [move, found]

theorem lessonAt?_move (gap : b.GapMove lesson src dest) (d : Cell) :
    (b.move src dest).lessonAt? d =
      if d = dest then some { lesson with cell := dest }
      else if d = src then none else b.lessonAt? d := by
  rw [gap.move_eq]
  simp only [lessonAt?, Table.get?_insert]
  by_cases target : d = dest
  · rw [if_pos target, if_pos target]
  · rw [if_neg target, if_neg target]
    by_cases source : d = src
    · rw [if_pos source, source, Table.get?_erase_self]
    · rw [if_neg source, Table.get?_erase_of_ne _ source]

theorem ledger_move (gap : b.GapMove lesson src dest) (t : TeacherId) :
    (b.move src dest).ledger t =
      if t = lesson.teacher then (((b.ledger lesson.teacher).release src).1.reserve dest).1
      else b.ledger t := by
  rw [gap.move_eq]
  exact ledger_modify gap.known _ t

theorem gives_move (gap : b.GapMove lesson src dest) (t : TeacherId) (d : Cell) :
    (b.move src dest).Gives t d ↔
      (d = dest ∧ t = lesson.teacher) ∨ (d ≠ src ∧ b.Gives t d) := by
  simp only [Gives, lessonAt?_move gap]
  by_cases target : d = dest
  · subst target
    simp [gap.empty, eq_comm]
  · by_cases source : d = src
    · subst source; simp [target]
    · simp [target, source]

theorem reserved_move (gap : b.GapMove lesson src dest) (t : TeacherId) (d : Cell) :
    ((b.move src dest).ledger t).isReserved d = true ↔
      (d = dest ∧ t = lesson.teacher) ∨
        (¬ (d = src ∧ t = lesson.teacher) ∧ (b.ledger t).isReserved d = true) := by
  rw [ledger_move gap]
  by_cases same : t = lesson.teacher
  · subst same
    simp [Availability.isReserved_reserve, Availability.isReserved_release]
  · simp [same]

theorem GapMove.gives_src (gap : b.GapMove lesson src dest) (t : TeacherId) :
    b.Gives t src ↔ t = lesson.teacher := by
  simp [Gives, gap.found, eq_comm]

theorem countKeys_move (gap : b.GapMove lesson src dest) (day : Nat) :
    (b.move src dest).grid.countKeys (·.day = day) = b.grid.countKeys (·.day = day) := by
  have kept : (b.grid.erase src).get? dest = none := by
    rw [Table.get?_erase_of_ne _ gap.distinct.symm]
    exact gap.empty
  have found : b.grid.get? src = some lesson := gap.found
  rw [gap.move_eq]
  simp only
  rw [Table.countKeys_insert _ kept, gap.sameDay]
  exact Table.countKeys_erase_add found _

end Moves

namespace InStep
variable {origin b : Board}

theorem known (h : InStep origin b) (t : TeacherId) : InStep origin (b.withLedger t) := by
  obtain ⟨days, slots, grid, loads⟩ := b.withLedger_frame t
  have lessons : ∀ c, (b.withLedger t).lessonAt? c = b.lessonAt? c := by
    intro c
    rw [lessonAt?, grid]
    rfl
  refine ⟨days.trans h.sameDays, slots.trans h.sameSlots, ?_, ?_, ?_, ?_, ?_, ?_, ?_⟩
  · intro c l found
    rw [lessons] at found
    rw [inGrid, days, slots]
    exact h.stored c l found
  · intro u
    rw [ledger_withLedger]
    exact h.limits u
  · simpa only [Gives, lessons] using h.unblocked
  · simpa only [Gives, lessons] using h.apart
  · simpa only [Gives, lessons, ledger_withLedger] using h.reserved
  · simpa only [ledger_withLedger] using h.balanced
  · intro day
    rw [dayLoad, loads, grid]
    exact h.counted day

theorem pinned (h : InStep origin b) {l : SubjectLoad} {c : Cell}
    (known : b.teachers.contains l.teacher = true) (inside : b.inGrid c)
    (empty : b.lessonAt? c = none) (admitted : (b.ledger l.teacher).canAssign c = true) :
    InStep origin (b.pin l c) := by
  obtain ⟨unblocked, free, _⟩ := Availability.canAssign_iff.mp admitted
  refine ⟨h.sameDays, h.sameSlots, ?_, ?_, ?_, ?_, ?_, ?_, ?_⟩
  · intro d l' found
    rw [lessonAt?_pin] at found
    split at found
    · rename_i same
      cases found
      exact ⟨same.symm, same ▸ inside⟩
    · exact h.stored d l' found
  · intro t
    rw [ledger_pin known]
    split
    · rename_i same
      exact (Availability.reserve_sameLimits _ c).trans (same ▸ h.limits t)
    · exact h.limits t
  · intro t d gives
    rcases (gives_pin empty t d).mp gives with ⟨rfl, rfl⟩ | old
    · rw [Availability.isBlocked, ← (h.limits l.teacher).blocked]
      exact unblocked
    · exact h.unblocked t d old
  · intro t d gives
    rcases (gives_pin empty t d).mp gives with ⟨rfl, rfl⟩ | old
    · rw [← Bool.not_eq_true]
      intro held
      rw [(h.reserved l.teacher d).mpr (Or.inl held)] at free
      cases free
    · exact h.apart t d old
  · intro t d
    rw [reserved_pin known, gives_pin empty, h.reserved]
    exact or_left_comm
  · intro t
    rw [ledger_pin known]
    split
    · exact Availability.reserve_balanced (h.balanced _) c
    · exact h.balanced t
  · intro day
    have fresh : b.grid.get? c = none := empty
    rw [dayLoad_pin, h.counted, pin, Table.countKeys_insert _ fresh]
    simp

theorem moved (h : InStep origin b) {lesson : Lesson} {src dest : Cell}
    (gap : b.GapMove lesson src dest) : InStep origin (b.move src dest) := by
  obtain ⟨unblocked, free⟩ := Availability.canMove_free gap.distinct gap.admitted
  have inside := (h.stored src lesson gap.found).2
  have days : (b.move src dest).days = b.days := by rw [gap.move_eq]
  have slots : (b.move src dest).slotsPerDay = b.slotsPerDay := by rw [gap.move_eq]
  refine ⟨days.trans h.sameDays, slots.trans h.sameSlots, ?_, ?_, ?_, ?_, ?_, ?_, ?_⟩
  · intro d l found
    rw [Board.inGrid, days, slots]
    rw [lessonAt?_move gap] at found
    split at found
    · rename_i same
      cases found
      exact ⟨same.symm, same ▸ gap.inGrid inside⟩
    · split at found
      · cases found
      · exact h.stored d l found
  · intro t
    rw [ledger_move gap]
    split
    · rename_i same
      exact ((Availability.reserve_sameLimits _ dest).trans
        (Availability.release_sameLimits _ src)).trans (same ▸ h.limits t)
    · exact h.limits t
  · intro t d gives
    rcases (gives_move gap t d).mp gives with ⟨rfl, rfl⟩ | ⟨_, old⟩
    · rw [Availability.isBlocked, ← (h.limits lesson.teacher).blocked]
      exact unblocked
    · exact h.unblocked t d old
  · intro t d gives
    rcases (gives_move gap t d).mp gives with ⟨rfl, rfl⟩ | ⟨_, old⟩
    · rw [← Bool.not_eq_true]
      intro held
      rw [(h.reserved lesson.teacher d).mpr (Or.inl held)] at free
      cases free
    · exact h.apart t d old
  · intro t d
    rw [reserved_move gap, gives_move gap, h.reserved]
    by_cases source : d = src
    · subst source
      -- what `src` held is given back, and it was not reserved to begin with
      have before : t = lesson.teacher → (origin.ledger t).isReserved d = false := by
        intro same
        exact h.apart t d ((gap.gives_src t).mpr same)
      rw [gap.gives_src t]
      by_cases same : t = lesson.teacher
      · simpa [same, gap.distinct] using before same
      · simp [same]
    · simp only [source, false_and, not_false_eq_true, true_and, ne_eq]
      exact or_left_comm
  · intro t
    rw [ledger_move gap]
    split
    · exact Availability.reserve_balanced (Availability.release_balanced (h.balanced _) src) dest
    · exact h.balanced t
  · intro day
    rw [countKeys_move gap, ← h.counted, gap.move_eq]
    rfl

theorem step {asked : SubjectLoad → Prop} (h : InStep origin b) {b' : Board}
    (s : Step asked b b') : InStep origin b' := by
  cases s with
  | know t => exact h.known t
  | pin l c _ known inside empty admitted => exact h.pinned known inside empty admitted
  | note l =>
    exact ⟨h.sameDays, h.sameSlots, h.stored, h.limits, h.unblocked, h.apart, h.reserved,
      h.balanced, h.counted⟩
  | move lesson src dest gap => exact h.moved gap

theorem steps {asked : SubjectLoad → Prop} (h : InStep origin b) {b' : Board}
    (run : Steps asked b b') : InStep origin b' := by
  induction run with
  | refl => exact h
  | tail _ last ih => exact ih.step last

theorem sameLimits (h : InStep origin b) {b' : Board} (h' : InStep origin b') (t : TeacherId) :
    (b'.ledger t).SameLimits (b.ledger t) := (h'.limits t).trans (h.limits t).symm

theorem lessons_cells (h : InStep origin b) : b.lessons.map (·.cell) = b.grid.keys := by
  rw [lessons, Table.values, Table.keys, List.map_map]
  apply List.map_congr_left
  intro e member
  exact (h.stored e.1 e.2 (Table.get?_eq_some_iff.mpr member)).1

theorem mem_lessons (h : InStep origin b) {l : Lesson} :
    l ∈ b.lessons ↔ b.lessonAt? l.cell = some l := by
  rw [lessons, Table.mem_values_iff]
  constructor
  · intro listed
    obtain ⟨c, found⟩ := listed
    have same := (h.stored c l found).1
    rw [same]
    exact found
  · intro found
    exact ⟨l.cell, found⟩

theorem gives_iff (h : InStep origin b) {t : TeacherId} {c : Cell} :
    b.Gives t c ↔ ∃ l ∈ b.lessons, l.teacher = t ∧ l.cell = c := by
  constructor
  · intro gives
    obtain ⟨l, found, teacher⟩ := gives
    have same := (h.stored c l found).1
    exact ⟨l, h.mem_lessons.mpr (same ▸ found), teacher, same⟩
  · intro given
    obtain ⟨l, member, teacher, same⟩ := given
    exact ⟨l, same ▸ h.mem_lessons.mp member, teacher⟩

theorem dayLoad_eq (h : InStep origin b) (day : Nat) :
    b.dayLoad day = (b.lessons.filter (·.cell.day = day)).length := by
  rw [h.counted, Table.countKeys, ← h.lessons_cells, List.countP_map, List.countP_eq_length_filter]
  rfl

end InStep

theorem start_inStep (slots : Nat) (days : List Nat) {teachers : Table TeacherId Availability}
    (built : ∀ t a, teachers.get? t = some a → a.Built) :
    InStep (start slots days teachers) (start slots days teachers) := by
  have nobody : ∀ t c, ¬ (start slots days teachers).Gives t c := by
    intro t c gives
    obtain ⟨l, found, _⟩ := gives
    cases found
  refine ⟨rfl, rfl, ?_, fun _ => ⟨rfl, rfl, rfl⟩, ?_, ?_, ?_, ?_, fun _ => rfl⟩
  · intro c l found
    cases found
  · intro t c gives
    exact absurd gives (nobody t c)
  · intro t c gives
    exact absurd gives (nobody t c)
  · intro t c
    simp [nobody]
  · intro t
    change ((teachers.get? t).getD .unlimited).Balanced
    cases found : teachers.get? t with
    | none => exact Availability.unlimited_unreserved.balanced
    | some a => exact (built t a found).balanced

/-- Whatever calls are made on a new board: each lesson stands in its own cell of the grid, where
its teacher is not blocked; what a ledger has reserved is what it had reserved at the start and,
apart from that, the cells of the lessons of its teacher; and all counts are those of the sets. -/
theorem afterCalls_books_agree (slots : Nat) (days : List Nat)
    (teachers : Table TeacherId Availability)
    (built : ∀ t a, teachers.get? t = some a → a.Built) (calls : List BoardCall) :
    let origin := start slots days teachers
    let b := origin.afterCalls calls
    (∀ c l, b.lessonAt? c = some l → l.cell = c ∧ c.day ∈ days ∧ 1 ≤ c.slot ∧ c.slot ≤ slots) ∧
    (∀ t c, (b.ledger t).isBlocked c = (origin.ledger t).isBlocked c) ∧
    (∀ l ∈ b.lessons, (b.ledger l.teacher).isBlocked l.cell = false) ∧
    (∀ t c, (b.ledger t).isReserved c = true ↔
      (origin.ledger t).isReserved c = true ∨ ∃ l ∈ b.lessons, l.teacher = t ∧ l.cell = c) ∧
    (∀ l ∈ b.lessons, (origin.ledger l.teacher).isReserved l.cell = false) ∧
    (∀ t, (b.ledger t).weekly = (b.ledger t).reserved.size ∧
      ∀ day, (b.ledger t).dayLoad day =
        ((b.ledger t).reserved.toList.filter (·.day = day)).length) ∧
    (∀ day, b.dayLoad day = (b.lessons.filter (·.cell.day = day)).length) ∧
    (b.lessons.map (·.cell)).Nodup := by
  intro origin b
  have run : Steps (fun _ => True) origin b := afterCalls_steps origin fun _ _ _ _ => trivial
  have h : InStep origin b := (start_inStep slots days built).steps run
  have blocked : ∀ t c, (b.ledger t).isBlocked c = (origin.ledger t).isBlocked c := by
    intro t c
    rw [Availability.isBlocked, (h.limits t).blocked]
    rfl
  have gives : ∀ l ∈ b.lessons, b.Gives l.teacher l.cell := by
    intro l member
    exact ⟨l, h.mem_lessons.mp member, rfl⟩
  refine ⟨?_, blocked, ?_, ?_, ?_, ?_, h.dayLoad_eq, ?_⟩
  · intro c l found
    obtain ⟨same, listed, range⟩ := h.stored c l found
    rw [h.sameDays] at listed
    rw [h.sameSlots] at range
    exact ⟨same, mem_sortDistinct_iff.mp listed, range⟩
  · intro l member
    rw [blocked]
    exact h.unblocked _ _ (gives l member)
  · intro t c
    rw [h.reserved, h.gives_iff]
  · intro l member
    exact h.apart _ _ (gives l member)
  · intro t
    refine ⟨(h.balanced t).weekly, fun day => ?_⟩
    rw [(h.balanced t).daily, ← List.countP_eq_length_filter]
    rfl
  · rw [h.lessons_cells]
    exact b.grid.keys_nodup

theorem afterCalls_books_agree_after_repair :
    let teachers : Table TeacherId Availability :=
      Table.empty.insert "ann" (((Availability.withCaps 2 0).block ⟨1, 1⟩).reserve ⟨1, 2⟩).1
    let calls : List BoardCall :=
      [.placeLoads [⟨"art", "bea", 2, 1, [], none⟩], .placeOne ⟨"math", "ann", 1, 0, [5], none⟩,
        .repairGaps 9]
    let b := (start 5 [1] teachers).afterCalls calls
    (∀ t a, teachers.get? t = some a → a.Built) ∧ b.slotsOn 1 = [1, 2, 3] ∧
      (b.lessons.map (·.cell)).Nodup ∧
      ∀ l ∈ b.lessons, (b.ledger l.teacher).isBlocked l.cell = false := by
  intro teachers calls b
  have built : ∀ t a, teachers.get? t = some a → a.Built := by
    intro t a found
    rcases Table.get?_insert_source found with ⟨_, new⟩ | old
    · rw [new]
      exact .reserve _ (.block _ (.withCaps 2 0))
    · cases old
  have agree := afterCalls_books_agree 5 [1] teachers built calls
  exact ⟨built, by decide +kernel, agree.2.2.2.2.2.2.2, agree.2.2.1⟩

end SchoolTimetable.Board

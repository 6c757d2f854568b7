import Mathlib.Algebra.BigOperators.Group.List.Basic
import Mathlib.Data.List.Forall2
import SchoolTimetable.Board.Score
import SchoolTimetable.Proofs.Board.Teachers

/-!
What gap repair does to the lessons. A move puts a lesson one slot earlier and past no other, so the
lessons of a day stay in their order and the first of them stays where it is. The idle slots of a
day lie between its first lesson and its last, so what the day gains is what its last lesson has
come forward.
-/
namespace SchoolTimetable

def Lesson.content (l : Lesson) : SubjectId × TeacherId × Option String :=
  (l.subject, l.teacher, l.room)

structure Lesson.Slides (l m : Lesson) : Prop where
  content : m.content = l.content
  day : m.cell.day = l.cell.day
  earlier : m.cell.slot ≤ l.cell.slot

theorem Lesson.Slides.refl (l : Lesson) : l.Slides l := ⟨rfl, rfl, Nat.le_refl _⟩

theorem Lesson.Slides.trans {l m n : Lesson} (first : l.Slides m) (second : m.Slides n) :
    l.Slides n :=
  ⟨second.content.trans first.content, second.day.trans first.day,
    Nat.le_trans second.earlier first.earlier⟩

def lessonsOn (lessons : List Lesson) (day : Nat) : List Lesson :=
  lessons.filter (·.cell.day = day)

/-- How many slots earlier the second lessons are than the first, pair by pair and in all. -/
def slotsEarlier (before after : List Lesson) : Nat :=
  total (List.zipWith (fun l m => l.cell.slot - m.cell.slot) before after)

theorem total_cons (n : Nat) (rest : List Nat) : total (n :: rest) = n + total rest := rfl

theorem total_append (xs ys : List Nat) : total (xs ++ ys) = total xs + total ys :=
  List.sum_append

theorem total_map_add {α : Type} (xs : List α) (f g : α → Nat) :
    total (xs.map fun x => f x + g x) = total (xs.map f) + total (xs.map g) :=
  List.sum_map_add

theorem countP_keys_cons {α κ : Type} [DecidableEq κ] (key : α → κ) {k : κ} {keys : List κ}
    (absent : k ∉ keys) (xs : List α) :
    xs.countP (key · ∈ k :: keys) = xs.countP (key · = k) + xs.countP (key · ∈ keys) := by
  induction xs with
  | nil => rfl
  | cons x rest ih =>
    rw [List.countP_cons, List.countP_cons, List.countP_cons, ih]
    simp only [List.mem_cons, decide_eq_true_eq]
    by_cases here : key x = k
    · have elsewhere : key x ∉ keys := here ▸ absent
      rw [if_pos (Or.inl here), if_pos here, if_neg elsewhere]
      omega
    · simp only [here, false_or, if_false]
      omega

theorem total_countP_keys {α κ : Type} [DecidableEq κ] (key : α → κ) {keys : List κ}
    (distinct : keys.Nodup) (xs : List α) :
    total (keys.map fun k => xs.countP (key · = k)) = xs.countP (key · ∈ keys) := by
  induction keys with
  | nil => simp [total]
  | cons k rest ih =>
    obtain ⟨absent, distinct⟩ := List.nodup_cons.mp distinct
    rw [List.map_cons, total_cons, ih distinct, countP_keys_cons key absent]

theorem total_countP_covered {α κ : Type} [DecidableEq κ] (key : α → κ) {keys : List κ}
    (distinct : keys.Nodup) {xs : List α} (covered : ∀ x ∈ xs, key x ∈ keys) :
    total (keys.map fun k => xs.countP (key · = k)) = xs.length := by
  rw [total_countP_keys key distinct]
  exact List.countP_eq_length.mpr fun x member => decide_eq_true (covered x member)

section Slid
variable {before after : List Lesson}

theorem slid_trans {later : List Lesson} (first : List.Forall₂ Lesson.Slides before after)
    (second : List.Forall₂ Lesson.Slides after later) :
    List.Forall₂ Lesson.Slides before later := by
  induction first generalizing later with
  | nil => exact second
  | cons slides _ ih =>
    cases second with
    | cons next rest => exact .cons (slides.trans next) (ih rest)

theorem slotsEarlier_add (slid : List.Forall₂ Lesson.Slides before after) :
    slotsEarlier before after + total (after.map (·.cell.slot)) =
      total (before.map (·.cell.slot)) := by
  induction slid with
  | nil => rfl
  | cons slides _ ih =>
    have earlier := slides.earlier
    simp only [slotsEarlier, total, List.zipWith_cons_cons, List.map_cons, List.foldr_cons] at ih ⊢
    omega

theorem slid_contents (slid : List.Forall₂ Lesson.Slides before after) :
    after.map Lesson.content = before.map Lesson.content := by
  induction slid with
  | nil => rfl
  | cons slides _ ih => rw [List.map_cons, List.map_cons, slides.content, ih]

theorem slid_onDay (slid : List.Forall₂ Lesson.Slides before after) (day : Nat) :
    List.Forall₂ Lesson.Slides (lessonsOn before day) (lessonsOn after day) := by
  apply List.rel_filter _ slid
  intro l m slides
  simp [slides.day]

end Slid

namespace Score

theorem idle_add_length {first : Nat} {rest : List Nat}
    (ascending : (first :: rest).Pairwise (· < ·)) :
    idle (first :: rest) + first + rest.length = rest.getLastD first := by
  induction rest generalizing first with
  | nil => simp [idle]
  | cons next rest ih =>
    obtain ⟨later, ascends⟩ := List.pairwise_cons.mp ascending
    have here := later next List.mem_cons_self
    have there := ih ascends
    rw [List.getLastD_cons, idle, List.length_cons]
    omega

theorem idle_add_last {slots slots' : List Nat} (ascending : slots.Pairwise (· < ·))
    (ascending' : slots'.Pairwise (· < ·)) (first : slots'.head? = slots.head?)
    (length : slots'.length = slots.length) (last : slots'.getLastD 0 ≤ slots.getLastD 0) :
    idle slots' + (slots.getLastD 0 - slots'.getLastD 0) = idle slots := by
  cases slots with
  | nil =>
    rw [List.eq_nil_of_length_eq_zero length]
    rfl
  | cons a rest =>
    cases slots' with
    | nil => cases length
    | cons a' rest' =>
      cases first
      have before := idle_add_length ascending
      have after := idle_add_length ascending'
      rw [List.getLastD_cons, List.getLastD_cons] at last ⊢
      rw [List.length_cons, List.length_cons] at length
      omega

end Score

theorem getLastD_le {xs ys : List Nat} (le : List.Forall₂ (fun x y => y ≤ x) xs ys) {d e : Nat}
    (default : e ≤ d) : ys.getLastD e ≤ xs.getLastD d := by
  induction le generalizing d e with
  | nil => exact default
  | cons first _ ih =>
    rw [List.getLastD_cons, List.getLastD_cons]
    exact ih first

namespace Table
variable {κ α : Type} [Key κ]

theorem entries_rekey {t : Table κ α} {front back : List (κ × α)} {k k' : κ} {v : α} (w : α)
    (split : t.entries = front ++ (k, v) :: back)
    (above : ∀ e ∈ front, Key.before e.1 k' = true)
    (below : ∀ e ∈ back, Key.before k' e.1 = true) :
    ((t.erase k).insert k' w).entries = front ++ (k', w) :: back := by
  have sorted := t.sorted
  rw [split] at sorted
  obtain ⟨frontSorted, tail, across⟩ := List.pairwise_append.mp sorted
  obtain ⟨later, backSorted⟩ := List.pairwise_cons.mp tail
  have target : (front ++ (k', w) :: back).Pairwise fun a b => Key.before a.1 b.1 = true := by
    refine List.pairwise_append.mpr
      ⟨frontSorted, List.pairwise_cons.mpr ⟨below, backSorted⟩, fun a listed b member => ?_⟩
    rcases List.mem_cons.mp member with here | there
    · rw [here]
      exact above a listed
    · exact across a listed b (List.mem_cons_of_mem _ there)
  apply entries_ext (Table.sorted _) target
  intro e
  rw [mem_entries_insert, mem_entries_erase, split, List.mem_append, List.mem_append,
    List.mem_cons, List.mem_cons]
  constructor
  · intro h
    rcases h with new | ⟨⟨before | here | after, apart⟩, _⟩
    · exact Or.inr (Or.inl new)
    · exact Or.inl before
    · exact absurd (congrArg Prod.fst here) apart
    · exact Or.inr (Or.inr after)
  · intro h
    rcases h with before | new | after
    · have apart := Key.before_ne (across e before (k, v) List.mem_cons_self)
      exact Or.inr ⟨⟨Or.inl before, apart⟩, Key.before_ne (above e before)⟩
    · exact Or.inl new
    · have apart := (Key.before_ne (later e after)).symm
      exact Or.inr ⟨⟨Or.inr (Or.inr after), apart⟩, (Key.before_ne (below e after)).symm⟩

end Table

namespace Board
variable {origin b : Board} {lesson : Lesson} {src dest : Cell}

def placedLessons (b : Board) : List Lesson :=
  b.grid.entries.map fun e => { e.2 with cell := e.1 }

theorem InStep.placedLessons_eq (h : InStep origin b) : b.placedLessons = b.lessons := by
  apply List.map_congr_left
  intro e member
  have same := (h.stored e.1 e.2 (Table.get?_eq_some_iff.mpr member)).1
  rw [← same]

theorem contents_eq (b : Board) :
    b.lessons.map Lesson.content = b.placedLessons.map Lesson.content := by
  rw [lessons, Table.values, placedLessons, List.map_map, List.map_map]
  rfl

theorem slotsOn_eq (b : Board) (day : Nat) :
    b.slotsOn day = (lessonsOn b.placedLessons day).map (·.cell.slot) := by
  rw [slotsOn, Table.keys, lessonsOn, placedLessons, List.filter_map, List.filter_map, List.map_map,
    List.map_map]
  rfl

/-- A move changes one entry, which keeps its place and is not the first of its day. -/
theorem GapMove.entries (gap : b.GapMove lesson src dest) :
    ∃ front back, b.grid.entries = front ++ (src, lesson) :: back ∧
      (b.move src dest).grid.entries = front ++ (dest, { lesson with cell := dest }) :: back ∧
      ∃ e ∈ front, e.1.day = src.day := by
  obtain ⟨front, back, split⟩ := List.append_of_mem (Table.get?_eq_some_iff.mp gap.found)
  have sorted := b.grid.sorted
  rw [split] at sorted
  obtain ⟨_, tail, across⟩ := List.pairwise_append.mp sorted
  have later := (List.pairwise_cons.mp tail).1
  have sameDay := gap.sameDay
  have next := gap.before
  -- what comes before `src` comes before the empty cell right in front of it, too
  have above : ∀ e ∈ front, Key.before e.1 dest = true := by
    intro e member
    have before := Cell.before_iff.mp (across e member (src, lesson) List.mem_cons_self)
    have apart : e.1 ≠ dest := by
      intro same
      have found : b.grid.get? dest = some e.2 := by
        rw [Table.get?_eq_some_iff, split, ← same]
        exact List.mem_append_left _ member
      rw [show b.grid.get? dest = none from gap.empty] at found
      cases found
    have differ : e.1.day = dest.day → e.1.slot ≠ dest.slot := by
      intro day slot
      exact apart (by cases e with | mk c l => cases c; cases dest; simp_all)
    simp only [Cell.before_iff] at before ⊢
    omega
  have below : ∀ e ∈ back, Key.before dest e.1 = true := by
    intro e member
    have after := Cell.before_iff.mp (later e member)
    simp only [Cell.before_iff] at after ⊢
    omega
  refine ⟨front, back, split, ?_, ?_⟩
  · rw [gap.move_eq]
    exact Table.entries_rekey _ split above below
  · obtain ⟨slot, earlier, occupied⟩ := gap.afterOther
    obtain ⟨x, found⟩ := Option.isSome_iff_exists.mp occupied
    have listed := Table.get?_eq_some_iff.mp found
    rw [split, List.mem_append, List.mem_cons] at listed
    rcases listed with before | here | after
    · exact ⟨_, before, rfl⟩
    · have same := congrArg (fun e => e.1.slot) here
      simp only at same
      omega
    · have order := Cell.before_iff.mp (later _ after)
      simp only at order
      omega

structure Slid (n : Nat) (b b' : Board) : Prop where
  days : b'.days = b.days
  slotsPerDay : b'.slotsPerDay = b.slotsPerDay
  lessons : List.Forall₂ Lesson.Slides b.placedLessons b'.placedLessons
  first : ∀ day, (lessonsOn b'.placedLessons day).head? = (lessonsOn b.placedLessons day).head?
  slots : total (b'.placedLessons.map (·.cell.slot)) + n =
    total (b.placedLessons.map (·.cell.slot))
  dayLoads : b'.dayLoads = b.dayLoads
  shortfalls : b'.shortfalls = b.shortfalls

theorem Slid.refl (b : Board) : Slid 0 b b :=
  ⟨rfl, rfl, List.forall₂_same.mpr fun l _ => .refl l, fun _ => rfl, rfl, rfl, rfl⟩

theorem Slid.trans {m n : Nat} {b' b'' : Board} (first : Slid m b b') (second : Slid n b' b'') :
    Slid (m + n) b b'' where
  days := second.days.trans first.days
  slotsPerDay := second.slotsPerDay.trans first.slotsPerDay
  lessons := slid_trans first.lessons second.lessons
  first := fun day => (second.first day).trans (first.first day)
  slots := by
    have before := first.slots
    have after := second.slots
    omega
  dayLoads := second.dayLoads.trans first.dayLoads
  shortfalls := second.shortfalls.trans first.shortfalls

theorem GapMove.placedLessons (gap : b.GapMove lesson src dest) :
    ∃ front back, b.placedLessons = front ++ { lesson with cell := src } :: back ∧
      (b.move src dest).placedLessons = front ++ { lesson with cell := dest } :: back ∧
      ∃ l ∈ front, l.cell.day = src.day := by
  obtain ⟨front, back, split, moved, e, listed, sameDay⟩ := gap.entries
  let place : Cell × Lesson → Lesson := fun e => { e.2 with cell := e.1 }
  refine ⟨front.map place, back.map place, ?_, ?_, place e, List.mem_map_of_mem listed, sameDay⟩
  · rw [Board.placedLessons, split, List.map_append, List.map_cons]
  · rw [Board.placedLessons, moved, List.map_append, List.map_cons]

theorem GapMove.slid (gap : b.GapMove lesson src dest) : Slid 1 b (b.move src dest) := by
  obtain ⟨front, back, lessons, moved, l, listed, sameDay⟩ := gap.placedLessons
  have next := gap.before
  have still : ∀ ls : List Lesson, List.Forall₂ Lesson.Slides ls ls := fun ls =>
    List.forall₂_same.mpr fun l _ => .refl l
  refine ⟨by rw [gap.move_eq], by rw [gap.move_eq], ?_, ?_, ?_, by rw [gap.move_eq],
    by rw [gap.move_eq]⟩
  · rw [lessons, moved]
    have slides : Lesson.Slides { lesson with cell := src } { lesson with cell := dest } :=
      ⟨rfl, gap.sameDay, by simp only; omega⟩
    exact List.rel_append (still front) (.cons slides (still back))
  · intro day
    rw [lessons, moved, lessonsOn, lessonsOn, List.filter_append, List.filter_append]
    by_cases here : src.day = day
    · have before : l ∈ front.filter (·.cell.day = day) :=
        List.mem_filter.mpr ⟨listed, decide_eq_true (sameDay.trans here)⟩
      rw [List.head?_append_of_ne_nil _ (List.ne_nil_of_mem before),
        List.head?_append_of_ne_nil _ (List.ne_nil_of_mem before)]
    · have there : dest.day ≠ day := fun same => here (gap.sameDay.symm.trans same)
      simp [here, there]
  · rw [lessons, moved]
    simp only [List.map_append, List.map_cons, total_append, total_cons]
    omega

theorem repairGaps_slid (budget : Nat) (b : Board) :
    Slid (repairGaps budget b).2 b (repairGaps budget b).1 := by
  apply repairGaps_induction Slid.refl
  intro b b' n lesson src dest gap rest
  rw [Nat.add_comm]
  exact gap.slid.trans rest

theorem InStep.repairGaps_loads (h : InStep origin b) (budget : Nat) (t : TeacherId) :
    ((repairGaps budget b).1.ledger t).weekly = (b.ledger t).weekly ∧
      ∀ day, ((repairGaps budget b).1.ledger t).dayLoad day = (b.ledger t).dayLoad day := by
  revert h
  apply repairGaps_induction (P := fun _ b b' => InStep origin b →
    (b'.ledger t).weekly = (b.ledger t).weekly ∧
      ∀ day, (b'.ledger t).dayLoad day = (b.ledger t).dayLoad day)
  · exact fun _ _ => ⟨rfl, fun _ => rfl⟩
  · intro b b' n lesson src dest gap rest h
    obtain ⟨weekly, daily⟩ := rest (h.moved gap)
    obtain ⟨before, dailyBefore⟩ := h.loads_move gap t
    exact ⟨weekly.trans before, fun day => (daily day).trans (dailyBefore day)⟩

def lastSlot (b : Board) (day : Nat) : Nat := (b.slotsOn day).getLastD 0

namespace Slid
variable {n : Nat} {b' : Board}

theorem slotsOn (slid : Slid n b b') (day : Nat) :
    List.Forall₂ (fun slot slot' => slot' ≤ slot) (b.slotsOn day) (b'.slotsOn day) := by
  rw [slotsOn_eq, slotsOn_eq, List.forall₂_map_left_iff, List.forall₂_map_right_iff]
  exact (slid_onDay slid.lessons day).imp fun l m slides => slides.earlier

theorem lastSlot_le (slid : Slid n b b') (day : Nat) : b'.lastSlot day ≤ b.lastSlot day :=
  getLastD_le (slid.slotsOn day) (Nat.le_refl 0)

theorem idle_add_last (slid : Slid n b b') (day : Nat) :
    Score.idle (b'.slotsOn day) + (b.lastSlot day - b'.lastSlot day) =
      Score.idle (b.slotsOn day) := by
  apply Score.idle_add_last (b.slotsOn_sorted day) (b'.slotsOn_sorted day) _
    (slid.slotsOn day).length_eq.symm (slid.lastSlot_le day)
  rw [slotsOn_eq, slotsOn_eq, List.head?_map, List.head?_map, slid.first]

/-- Unused slots stay unused, so only idle slots count. -/
theorem gapPenalty_add (slid : Slid n b b') :
    b'.gapPenalty + total (b.days.map fun day => b.lastSlot day - b'.lastSlot day) =
      b.gapPenalty := by
  rw [gapPenalty, gapPenalty, slid.days, slid.slotsPerDay, ← total_map_add]
  apply congrArg total
  apply List.map_congr_left
  intro day _
  have idle := slid.idle_add_last day
  have length := (slid.slotsOn day).length_eq
  omega

end Slid

/-- The second board holds the lessons of the first, day by day in the same order, and `moves` slots
earlier in all. -/
structure Tightened (b b' : Board) (moves : Nat) : Prop where
  ordered : ∀ day, (lessonsOn b.lessons day).Pairwise (·.cell.slot < ·.cell.slot) ∧
    (lessonsOn b'.lessons day).Pairwise (·.cell.slot < ·.cell.slot)
  sequence : ∀ day, (lessonsOn b'.lessons day).map Lesson.content =
    (lessonsOn b.lessons day).map Lesson.content
  first : ∀ day, (lessonsOn b'.lessons day).head? = (lessonsOn b.lessons day).head?
  slides : List.Forall₂ Lesson.Slides b.lessons b'.lessons
  dayLoads : ∀ day, b'.dayLoad day = b.dayLoad day
  shortfalls : b'.shortfalls = b.shortfalls
  loads : ∀ t, (b'.ledger t).weekly = (b.ledger t).weekly ∧
    ∀ day, (b'.ledger t).dayLoad day = (b.ledger t).dayLoad day
  moved : moves = slotsEarlier b.lessons b'.lessons
  lastSlots : ∀ day, b'.lastSlot day ≤ b.lastSlot day
  gapPenalty : b'.gapPenalty + total (b.days.map fun day => b.lastSlot day - b'.lastSlot day) =
    b.gapPenalty

theorem InStep.lessonsOn_ordered (h : InStep origin b) (day : Nat) :
    (lessonsOn b.lessons day).Pairwise (·.cell.slot < ·.cell.slot) := by
  have sorted := b.slotsOn_sorted day
  rw [slotsOn_eq, h.placedLessons_eq] at sorted
  exact List.pairwise_map.mp sorted

theorem Slid.tightened {n : Nat} {b' : Board} (slid : Slid n b b') (h : InStep origin b)
    (h' : InStep origin b') (loads : ∀ t, (b'.ledger t).weekly = (b.ledger t).weekly ∧
      ∀ day, (b'.ledger t).dayLoad day = (b.ledger t).dayLoad day) : Tightened b b' n := by
  have slides := slid.lessons
  have first := slid.first
  have slots := slid.slots
  rw [h.placedLessons_eq, h'.placedLessons_eq] at slides first slots
  refine ⟨fun day => ⟨h.lessonsOn_ordered day, h'.lessonsOn_ordered day⟩,
    fun day => slid_contents (slid_onDay slides day), first, slides, ?_, slid.shortfalls, loads, ?_,
    slid.lastSlot_le, slid.gapPenalty_add⟩
  · intro day
    rw [dayLoad, dayLoad, slid.dayLoads]
  · have apart := slotsEarlier_add slides
    omega

/-- Whatever calls led to a board, gap repair only slides its lessons to earlier slots: nothing
else changes, each move counts as one slot, and the penalty for gaps falls by what the last lessons
of the days have come forward. -/
theorem repairGaps_only_slides (slots : Nat) (days : List Nat)
    (teachers : Table TeacherId Availability)
    (built : ∀ t a, teachers.get? t = some a → a.Built) (calls : List BoardCall) (budget : Nat) :
    let b := (start slots days teachers).afterCalls calls
    Tightened b (repairGaps budget b).1 (repairGaps budget b).2 := by
  intro b
  have run : Steps (fun _ => True) (start slots days teachers) b :=
    afterCalls_steps _ fun _ _ _ _ => trivial
  have inStep : InStep (start slots days teachers) b := (start_inStep slots days built).steps run
  have repaired : Steps (fun _ => True) b (repairGaps budget b).1 := repairGaps_steps budget b
  exact (repairGaps_slid budget b).tightened inStep (inStep.steps repaired)
    (inStep.repairGaps_loads budget)

def earlyTeachers : Table TeacherId Availability :=
  Table.empty.insert "ann" ((Availability.withCaps 2 0).block ⟨1, 2⟩)

def twoDaysWithGaps : List BoardCall :=
  [.placeLoads [⟨"art", "bea", 2, 3, [1], none⟩, ⟨"math", "ann", 2, 2, [4], none⟩],
    .placeOne ⟨"music", "cid", 1, 0, [6], some "hall"⟩]

theorem repairGaps_only_slides_two_days :
    let b := (start 6 [1, 2] earlyTeachers).afterCalls twoDaysWithGaps
    (∀ t a, earlyTeachers.get? t = some a → a.Built) ∧ b.gapPenalty = 12 ∧
      [1, 2].map b.slotsOn = [[1, 4, 6], [1, 4]] ∧
      [1, 2].map (repairGaps 9 b).1.slotsOn = [[1, 3, 6], [1, 2]] ∧
      Tightened b (repairGaps 9 b).1 3 ∧ (repairGaps 9 b).1.gapPenalty = 10 := by
  intro b
  have built : ∀ t a, earlyTeachers.get? t = some a → a.Built :=
    Availability.Built.only (.block _ (.withCaps 2 0)) "ann"
  have law : Tightened b (repairGaps 9 b).1 (repairGaps 9 b).2 :=
    repairGaps_only_slides 6 [1, 2] earlyTeachers built twoDaysWithGaps 9
  have moves : (repairGaps 9 b).2 = 3 := by decide +kernel
  rw [moves] at law
  exact ⟨built, by decide +kernel, by decide +kernel, by decide +kernel, law, by decide +kernel⟩

end Board

end SchoolTimetable

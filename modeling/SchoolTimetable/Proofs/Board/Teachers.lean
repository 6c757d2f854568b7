import SchoolTimetable.Proofs.Board.Books

/-!
What the lessons of a board mean to its teachers. Every lesson comes from a load that was asked
for, a move leaves all loads of teachers alone, and no load is ever raised above its cap.
-/
namespace SchoolTimetable

namespace Availability

theorem underCap_iff {cap load : Nat} : underCap cap load = true ↔ cap = 0 ∨ load < cap := by
  simp [underCap]

end Availability

namespace Board
variable {asked : SubjectLoad → Prop} {origin b : Board}

def TeachesAsked (asked : SubjectLoad → Prop) (b : Board) : Prop :=
  ∀ c l, b.lessonAt? c = some l →
    ∃ x, asked x ∧ l.subject = x.subject ∧ l.teacher = x.teacher ∧ l.room = x.room

theorem TeachesAsked.step (h : b.TeachesAsked asked) {b' : Board} (s : Step asked b b') :
    b'.TeachesAsked asked := by
  intro c l found
  cases s with
  | know t =>
    rw [lessonAt?, (b.withLedger_frame t).2.2.1] at found
    exact h c l found
  | pin x d wanted _ _ _ _ =>
    rw [lessonAt?_pin] at found
    split at found
    · cases found
      exact ⟨x, wanted, rfl, rfl, rfl⟩
    · exact h c l found
  | note x _ => exact h c l found
  | move lesson src dest gap =>
    rw [lessonAt?_move gap] at found
    split at found
    · cases found
      exact h src lesson gap.found
    · split at found
      · cases found
      · exact h c l found

theorem TeachesAsked.steps (h : b.TeachesAsked asked) {b' : Board} (run : Steps asked b b') :
    b'.TeachesAsked asked := by
  induction run with
  | refl => exact h
  | tail _ last ih => exact ih.step last

theorem start_teachesAsked (asked : SubjectLoad → Prop) (slots : Nat) (days : List Nat)
    (teachers : Table TeacherId Availability) :
    (start slots days teachers).TeachesAsked asked := by
  intro c l found
  cases found

theorem InStep.loads_move (h : InStep origin b) {lesson : Lesson} {src dest : Cell}
    (gap : b.GapMove lesson src dest) (t : TeacherId) :
    ((b.move src dest).ledger t).weekly = (b.ledger t).weekly ∧
      ∀ day, ((b.move src dest).ledger t).dayLoad day = (b.ledger t).dayLoad day := by
  rw [ledger_move gap]
  split
  · rename_i same
    have held : (b.ledger lesson.teacher).isReserved src = true :=
      (h.reserved _ _).mpr (Or.inr ((gap.gives_src _).mpr rfl))
    have free := (Availability.canMove_free gap.distinct gap.admitted).2
    have still : ((b.ledger lesson.teacher).release src).1.isReserved dest = false := by
      rw [← Bool.not_eq_true, Availability.isReserved_release, free]
      simp
    have released := Availability.release_balanced (h.balanced lesson.teacher) src
    have balanced := h.balanced lesson.teacher
    -- what is given back was counted, so no difference is cut off at zero
    have one : 0 < (b.ledger lesson.teacher).reserved.size := by
      have member := Table.get?_eq_some_iff.mp (Availability.reserved_get_some held)
      exact List.length_pos_of_mem member
    rw [same]
    constructor
    · rw [Availability.weekly_reserve still, Availability.weekly_release held, balanced.weekly]
      omega
    · intro day
      rw [Availability.dayLoad_reserve still, Availability.dayLoad_release held, gap.sameDay]
      split
      · rename_i onDay
        have some : 0 < (b.ledger lesson.teacher).dayLoad day := by
          rw [balanced.daily, Availability.reservedOn, Table.countKeys]
          refine List.countP_pos_iff.mpr ⟨src, ?_, by simpa using onDay⟩
          exact Table.mem_keys_iff.mpr ⟨(), Availability.reserved_get_some held⟩
        omega
      · omega
  · exact ⟨rfl, fun _ => rfl⟩

structure WithinCaps (origin b : Board) : Prop where
  weekly : ∀ t, (origin.ledger t).weeklyCap = 0 ∨
    (b.ledger t).weekly = (origin.ledger t).weekly ∨
    (b.ledger t).weekly ≤ (origin.ledger t).weeklyCap
  daily : ∀ t day, (origin.ledger t).dailyCap = 0 ∨
    (b.ledger t).dayLoad day = (origin.ledger t).dayLoad day ∨
    (b.ledger t).dayLoad day ≤ (origin.ledger t).dailyCap

namespace WithinCaps

theorem refl (b : Board) : WithinCaps b b :=
  ⟨fun _ => Or.inr (Or.inl rfl), fun _ _ => Or.inr (Or.inl rfl)⟩

theorem pinned (h : InStep origin b) (within : WithinCaps origin b) {l : SubjectLoad} {c : Cell}
    (known : b.teachers.contains l.teacher = true)
    (admitted : (b.ledger l.teacher).canAssign c = true) : WithinCaps origin (b.pin l c) := by
  obtain ⟨_, free, underDaily, underWeekly⟩ := Availability.canAssign_iff.mp admitted
  rw [(h.limits l.teacher).dailyCap, Availability.underCap_iff] at underDaily
  rw [(h.limits l.teacher).weeklyCap, Availability.underCap_iff] at underWeekly
  constructor
  · intro t
    rw [ledger_pin known]
    split
    · rename_i same
      rw [same, Availability.weekly_reserve free]
      omega
    · exact within.weekly t
  · intro t day
    rw [ledger_pin known]
    split
    · rename_i same
      rw [same, Availability.dayLoad_reserve free]
      have before := within.daily l.teacher day
      split
      · rename_i onDay
        rw [onDay] at underDaily
        omega
      · exact before
    · exact within.daily t day

theorem step (h : InStep origin b) (within : WithinCaps origin b) {b' : Board}
    (s : Step asked b b') : WithinCaps origin b' := by
  cases s with
  | know t =>
    constructor
    · intro u
      rw [ledger_withLedger]
      exact within.weekly u
    · intro u day
      rw [ledger_withLedger]
      exact within.daily u day
  | pin l c _ known _ _ admitted => exact pinned h within known admitted
  | note l => exact ⟨within.weekly, within.daily⟩
  | move lesson src dest gap =>
    constructor
    · intro t
      rw [(h.loads_move gap t).1]
      exact within.weekly t
    · intro t day
      rw [(h.loads_move gap t).2]
      exact within.daily t day

theorem steps (h : InStep origin origin) (run : Steps asked origin b) : WithinCaps origin b := by
  induction run with
  | refl => exact refl origin
  | tail before last ih => exact ih.step (h.steps before) last

end WithinCaps

theorem InStep.reserved_perm (h : InStep origin b) {t : TeacherId}
    (unreserved : (origin.ledger t).Unreserved) :
    (b.ledger t).reserved.keys.Perm ((b.lessons.filter (·.teacher = t)).map (·.cell)) := by
  have distinct : ((b.lessons.filter (·.teacher = t)).map (·.cell)).Nodup := by
    have cells : (b.lessons.map (·.cell)).Nodup := by
      rw [h.lessons_cells]
      exact b.grid.keys_nodup
    exact cells.sublist (List.filter_sublist.map _)
  apply (List.perm_ext_iff_of_nodup (Table.keys_nodup _) distinct).mpr
  intro c
  have none : (origin.ledger t).isReserved c = false := by
    rw [Availability.isReserved, unreserved.reserved]
    rfl
  have held : c ∈ (b.ledger t).reserved.keys ↔ (b.ledger t).isReserved c = true :=
    CellSet.has_iff.symm
  rw [held, h.reserved, none, h.gives_iff, List.mem_map]
  simp only [Bool.false_eq_true, false_or, List.mem_filter, decide_eq_true_eq]
  constructor
  · intro given
    obtain ⟨l, member, teacher, same⟩ := given
    exact ⟨l, ⟨member, teacher⟩, same⟩
  · intro given
    obtain ⟨l, ⟨member, teacher⟩, same⟩ := given
    exact ⟨l, member, teacher, same⟩

theorem WithinCaps.lessons (h : InStep origin b) (within : WithinCaps origin b) {t : TeacherId}
    (unreserved : (origin.ledger t).Unreserved) :
    ((origin.ledger t).weeklyCap ≠ 0 →
      (b.lessons.filter (·.teacher = t)).length ≤ (origin.ledger t).weeklyCap) ∧
    ((origin.ledger t).dailyCap ≠ 0 → ∀ day,
      (b.lessons.filter fun l => l.teacher = t ∧ l.cell.day = day).length ≤
        (origin.ledger t).dailyCap) := by
  have perm := h.reserved_perm unreserved
  have balanced := h.balanced t
  constructor
  · intro capped
    have count : (b.ledger t).weekly = (b.lessons.filter (·.teacher = t)).length := by
      rw [balanced.weekly, ← List.length_map, ← perm.length_eq]
      exact (List.length_map _).symm
    have bound := within.weekly t
    rw [unreserved.weekly] at bound
    omega
  · intro capped day
    have count : (b.ledger t).dayLoad day =
        (b.lessons.filter fun l => l.teacher = t ∧ l.cell.day = day).length := by
      rw [balanced.daily, Availability.reservedOn, Table.countKeys, perm.countP_eq,
        List.countP_map, List.countP_filter, List.countP_eq_length_filter]
      refine congrArg List.length (List.filter_congr fun l _ => ?_)
      simp [and_comm]
    have none : (origin.ledger t).dayLoad day = 0 := by
      rw [Availability.dayLoad, unreserved.perDay]
      rfl
    have bound := within.daily t day
    rw [none] at bound
    omega

end Board

end SchoolTimetable

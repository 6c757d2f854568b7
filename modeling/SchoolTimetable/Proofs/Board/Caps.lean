import SchoolTimetable.Proofs.Board.Units

/-!
Loads and caps. A ledger is asked before each lesson that is placed, and a move takes one lesson and
gives it back, so a load only grows where it is below its cap. What teachers have above their caps
when a plan is finished they had before, and whoever gives a lesson is within the caps.
-/
namespace SchoolTimetable

theorem total_filter_ne_zero (counts : List Nat) : total (counts.filter (· ≠ 0)) = total counts := by
  induction counts with
  | nil => rfl
  | cons n rest ih =>
    by_cases none : n = 0
    · rw [List.filter_cons_of_neg (by simpa using none), ih, total_cons, none, Nat.zero_add]
    · rw [List.filter_cons_of_pos (by simpa using none), total_cons, total_cons, ih]

namespace Table
variable {κ α β : Type} [Key κ]

def counts (t : Table κ α) (f : α → Nat) : Table κ Nat :=
  (t.mapValues fun _ => f).filter fun _ n => n ≠ 0

theorem get?_counts (t : Table κ α) (f : α → Nat) (k : κ) :
    (t.counts f).get? k = (some ((t.get? k).elim 0 f)).filter (· ≠ 0) := by
  rw [counts, get?_filter, get?_mapValues]
  cases t.get? k <;> rfl

theorem total_counts (t : Table κ α) (f : α → Nat) :
    total (t.counts f).values = total (t.values.map f) := by
  have values : (t.counts f).values = (t.values.map f).filter (· ≠ 0) := by
    change ((t.entries.map fun e => (e.1, f e.2)).filter fun e => e.2 ≠ 0).map Prod.snd = _
    rw [Table.values, List.filter_map, List.map_map, List.map_map, List.filter_map]
    rfl
  rw [values, total_filter_ne_zero]

theorem total_congr {s : Table κ α} {t : Table κ β} {f : α → Nat} {g : β → Nat}
    (same : ∀ k, (s.get? k).elim 0 f = (t.get? k).elim 0 g) :
    total (s.values.map f) = total (t.values.map g) := by
  have counted : s.counts f = t.counts g := by
    apply ext
    intro k
    rw [get?_counts, get?_counts, same]
  rw [← total_counts, counted, total_counts]

end Table

namespace Availability
variable {a b : Availability} {c : Cell} {day : Nat}

structure SameOverage (a b : Availability) : Prop where
  weekly : a.weeklyOverage = b.weeklyOverage
  daily : a.dailyOverage = b.dailyOverage

theorem SameOverage.refl (a : Availability) : a.SameOverage a := ⟨rfl, rfl⟩

theorem SameOverage.trans {c : Availability} (h : a.SameOverage b) (g : b.SameOverage c) :
    a.SameOverage c := ⟨h.weekly.trans g.weekly, h.daily.trans g.daily⟩

theorem SameLimits.sameOverage (limits : b.SameLimits a)
    (weekly : a.weeklyCap = 0 ∨ b.weekly - a.weeklyCap = a.weekly - a.weeklyCap)
    (daily : a.dailyCap = 0 ∨ ∀ day, b.dayLoad day - a.dailyCap = a.dayLoad day - a.dailyCap) :
    b.SameOverage a := by
  constructor
  · rw [weeklyOverage, weeklyOverage, limits.weeklyCap]
    split
    · rfl
    · exact weekly.resolve_left ‹_›
  · rw [dailyOverage, dailyOverage, limits.dailyCap]
    split
    · rfl
    · rename_i capped
      apply Table.total_congr
      intro day
      have excess : ∀ x : Availability, (x.perDay.get? day).elim 0 (· - a.dailyCap) =
          x.dayLoad day - a.dailyCap := by
        intro x
        rw [dayLoad]
        cases x.perDay.get? day <;> simp
      rw [excess, excess]
      exact daily.resolve_left capped day

theorem Unreserved.sameOverage (h : a.Unreserved) : a.SameOverage .unlimited := by
  constructor
  · rw [weeklyOverage, h.weekly, Nat.zero_sub, ite_self]
    rfl
  · rw [dailyOverage, h.perDay]
    split <;> rfl

/-- A cell is taken only by a load below its cap. -/
theorem sameOverage_reserve (admitted : a.canAssign c = true) :
    (a.reserve c).1.SameOverage a := by
  obtain ⟨_, free, underDaily, underWeekly⟩ := canAssign_iff.mp admitted
  rw [underCap_iff] at underDaily underWeekly
  apply (reserve_sameLimits a c).sameOverage
  · rw [weekly_reserve free]
    omega
  · refine underDaily.imp_right fun below day => ?_
    rw [dayLoad_reserve free]
    split
    · rename_i onDay
      rw [onDay] at below
      omega
    · rfl

structure Fits (a : Availability) (day : Nat) : Prop where
  weekly : a.weeklyCap = 0 ∨ a.weekly ≤ a.weeklyCap
  daily : a.dailyCap = 0 ∨ a.dayLoad day ≤ a.dailyCap

theorem Fits.congr (fits : a.Fits day) (limits : b.SameLimits a) (weekly : b.weekly = a.weekly)
    (daily : b.dayLoad day = a.dayLoad day) : b.Fits day := by
  constructor
  · rw [limits.weeklyCap, weekly]
    exact fits.weekly
  · rw [limits.dailyCap, daily]
    exact fits.daily

theorem fits_reserve (admitted : a.canAssign c = true) : (a.reserve c).1.Fits c.day := by
  obtain ⟨_, free, underDaily, underWeekly⟩ := canAssign_iff.mp admitted
  rw [underCap_iff] at underDaily underWeekly
  have limits := reserve_sameLimits a c
  constructor
  · rw [limits.weeklyCap, weekly_reserve free]
    exact underWeekly
  · rw [limits.dailyCap, dayLoad_reserve free, if_pos rfl]
    exact underDaily

theorem Fits.reserve (fits : a.Fits day) (admitted : a.canAssign c = true) :
    (a.reserve c).1.Fits day := by
  by_cases onDay : c.day = day
  · exact onDay ▸ fits_reserve admitted
  · obtain ⟨_, free, _, _⟩ := canAssign_iff.mp admitted
    refine ⟨(fits_reserve admitted).weekly, ?_⟩
    rw [(reserve_sameLimits a c).dailyCap, dayLoad_reserve free, if_neg onDay]
    exact fits.daily

end Availability

namespace Board
variable {asked : SubjectLoad → Prop} {origin b b' : Board}

theorem InStep.sameOverage_step (h : InStep origin b) (s : Step asked b b') (t : TeacherId) :
    (b'.ledger t).SameOverage (b.ledger t) := by
  have limits := h.sameLimits (h.step s) t
  cases s with
  | know u =>
    rw [ledger_withLedger]
    exact .refl _
  | pin l c _ known _ _ admitted =>
    rw [ledger_pin known]
    split
    · rename_i same
      rw [same]
      exact Availability.sameOverage_reserve admitted
    · exact .refl _
  | note l => exact .refl _
  | move lesson src dest gap =>
    obtain ⟨weekly, daily⟩ := h.loads_move gap t
    refine limits.sameOverage (Or.inr ?_) (Or.inr fun day => ?_)
    · rw [weekly]
    · rw [daily]

theorem InStep.sameOverage (h : InStep origin b) (run : Steps asked b b') (t : TeacherId) :
    (b'.ledger t).SameOverage (b.ledger t) := by
  induction run with
  | refl => exact .refl _
  | tail before last ih => exact ((h.steps before).sameOverage_step last t).trans ih

theorem loadPenalty_congr (same : ∀ t, (b'.ledger t).SameOverage (b.ledger t)) :
    loadPenalty b'.teachers = loadPenalty b.teachers := by
  have counted : ∀ (x : Board) (t : TeacherId),
      (x.teachers.get? t).elim 0 (fun a => a.weeklyOverage + a.dailyOverage) =
        (x.ledger t).weeklyOverage + (x.ledger t).dailyOverage := by
    intro x t
    rw [ledger]
    cases x.teachers.get? t <;> rfl
  apply Table.total_congr
  intro t
  rw [counted, counted, (same t).weekly, (same t).daily]

theorem loadPenalty_unreserved (unreserved : ∀ t, (b.ledger t).Unreserved) :
    loadPenalty b.teachers = 0 :=
  loadPenalty_congr (b := start 0 [] .empty) fun t => (unreserved t).sameOverage

def Staffed (b : Board) : Prop :=
  ∀ t c, b.Gives t c → b.teachers.contains t = true ∧ (b.ledger t).Fits c.day

theorem Step.known (s : Step asked b b') {t : TeacherId} (known : b.teachers.contains t = true) :
    b'.teachers.contains t = true := by
  cases s with
  | know u =>
    unfold withLedger
    split
    · exact known
    · exact Table.isSome_insert u _ known
  | pin l c _ _ _ _ _ =>
    rw [Board.pin, Table.contains_modify]
    exact known
  | note l => exact known
  | move lesson src dest gap =>
    rw [gap.move_eq, Table.contains_modify]
    exact known

theorem Staffed.step (h : InStep origin b) (staffed : b.Staffed) (s : Step asked b b') :
    b'.Staffed := by
  have limits := h.sameLimits (h.step s)
  have knows : ∀ {t}, b.teachers.contains t = true → b'.teachers.contains t = true := s.known
  intro t d gives
  cases s with
  | know u =>
    rw [Gives, lessonAt?, (b.withLedger_frame u).2.2.1] at gives
    rw [ledger_withLedger]
    exact (staffed t d gives).imp_left knows
  | pin l c _ known _ empty admitted =>
    rw [ledger_pin known]
    rcases (gives_pin empty t d).mp gives with ⟨here, same⟩ | old
    · rw [if_pos same, here, same]
      exact ⟨knows known, Availability.fits_reserve admitted⟩
    · obtain ⟨listed, fits⟩ := staffed t d old
      refine ⟨knows listed, ?_⟩
      split
      · rename_i same
        exact (same ▸ fits).reserve admitted
      · exact fits
  | note l => exact staffed t d gives
  | move lesson src dest gap =>
    obtain ⟨weekly, daily⟩ := h.loads_move gap t
    have kept : ∀ {day}, (b.ledger t).Fits day → ((b.move src dest).ledger t).Fits day :=
      fun fits => fits.congr (limits t) weekly (daily _)
    rcases (gives_move gap t d).mp gives with ⟨here, same⟩ | ⟨_, old⟩
    · rw [here, gap.sameDay]
      exact (staffed t src ((gap.gives_src t).mpr same)).imp knows kept
    · exact (staffed t d old).imp knows kept

theorem Staffed.steps (h : InStep origin b) (staffed : b.Staffed) (run : Steps asked b b') :
    b'.Staffed := by
  induction run with
  | refl => exact staffed
  | tail before last ih => exact ih.step (h.steps before) last

theorem start_staffed (slots : Nat) (days : List Nat) (teachers : Table TeacherId Availability) :
    (start slots days teachers).Staffed := by
  intro t c gives
  obtain ⟨l, found, _⟩ := gives
  cases found

end Board

open Board

/-- Whatever the teachers have reserved before: planning leaves what each has above the caps as it
is, and with it the penalty for loads; and who gives a lesson is within the caps, over the week and
on the day of that lesson. -/
theorem plan_adds_no_overload (loads : List SubjectLoad) (slots : Nat) (days : List Nat)
    (teachers : Table TeacherId Availability)
    (built : ∀ t a, teachers.get? t = some a → a.Built) (budget : Nat) :
    let before := Board.start slots days teachers
    let after := (PlanRun.make loads slots days teachers budget).board
    let p := plan loads slots days teachers budget
    (∀ t, (after.ledger t).SameLimits (before.ledger t) ∧
      (after.ledger t).SameOverage (before.ledger t)) ∧
    (∀ t, teachers.get? t = none →
      (after.ledger t).weeklyOverage = 0 ∧ (after.ledger t).dailyOverage = 0) ∧
    p.stats.loadPenalty = loadPenalty teachers ∧
    ∀ l ∈ p.lessons, after.teachers.contains l.teacher = true ∧
      (after.ledger l.teacher).Fits l.cell.day := by
  intro before after p
  have start : InStep before before := start_inStep slots days built
  have run : Steps (· ∈ loads) before after := PlanRun.make_steps loads slots days teachers budget
  have inStep := start.steps run
  have overage := start.sameOverage run
  refine ⟨fun t => ⟨start.sameLimits inStep t, overage t⟩, ?_, loadPenalty_congr overage, ?_⟩
  · intro t absent
    have unlimited : before.ledger t = .unlimited := by
      rw [ledger, show before.teachers.get? t = none from absent]
      rfl
    obtain ⟨weekly, daily⟩ := overage t
    rw [unlimited] at weekly daily
    exact ⟨weekly, daily⟩
  · intro l listed
    have staffed := (start_staffed slots days teachers).steps start run
    exact staffed l.teacher l.cell ⟨l, inStep.mem_lessons.mp listed, rfl⟩

def overbooked : Table TeacherId Availability :=
  Table.empty.insert "ann" (((Availability.withCaps 1 0).reserve ⟨1, 1⟩).1.reserve ⟨1, 2⟩).1

/-- Ann gets one lesson, on the second day, which the repair moves twice; she is missed for the
other one, and nobody is over the caps by more than before. -/
theorem plan_adds_no_overload_overbooked :
    let loads : List SubjectLoad :=
      [⟨"art", "bea", 2, 3, [1], none⟩, ⟨"math", "ann", 2, 2, [4], none⟩]
    let p := plan loads 4 [1, 2] overbooked 9
    (∀ t a, overbooked.get? t = some a → a.Built) ∧ p.stats.iterations = 2 ∧
      p.lessons.map (fun l => (l.teacher, l.cell)) =
        [("bea", ⟨1, 1⟩), ("bea", ⟨2, 1⟩), ("ann", ⟨2, 2⟩)] ∧
      p.shortfalls.map (·.teacher) = ["ann"] ∧ loadPenalty overbooked = 1 ∧
      p.stats.loadPenalty = 1 ∧
      ((PlanRun.make loads 4 [1, 2] overbooked 9).board.ledger "ann").Fits 2 := by
  intro loads p
  have built : ∀ t a, overbooked.get? t = some a → a.Built :=
    Availability.Built.only (.reserve _ (.reserve _ (.withCaps 1 0))) "ann"
  obtain ⟨_, _, penalty, fits⟩ := plan_adds_no_overload loads 4 [1, 2] overbooked built 9
  have one : loadPenalty overbooked = 1 := by decide +kernel
  exact ⟨built, by decide +kernel, by decide +kernel, by decide +kernel, one, penalty.trans one,
    (fits ⟨⟨2, 2⟩, "math", "ann", none⟩ (by decide +kernel)).2⟩

end SchoolTimetable

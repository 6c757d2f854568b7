import SchoolTimetable.Availability
import SchoolTimetable.Proofs.Entries

/-!
Ledgers as their callers can build them. The counts that run beside the set of reserved cells are
the sizes of that set, over the week and on each day; caps and blocked cells are left alone by
reservations. A ledger made of a preference and of some rows shows no more of them than the caps,
the windows that are read and the cells of the rows.
-/
namespace SchoolTimetable.Availability

def reservedOn (a : Availability) (day : Nat) : Nat := a.reserved.countKeys (·.day = day)

structure Balanced (a : Availability) : Prop where
  weekly : a.weekly = a.reserved.size
  daily : ∀ day, a.dayLoad day = a.reservedOn day

/-- The ledgers that the constructors and any calls on them give. -/
inductive Built : Availability → Prop where
  | unlimited : Built unlimited
  | withCaps (daily weekly : Nat) : Built (withCaps daily weekly)
  | ofPreference (preference : Option TeacherPreference) (slots : Nat)
      (existing : List DailyLesson) : Built (ofPreference preference slots existing)
  | block {a : Availability} (c : Cell) (h : Built a) : Built (a.block c)
  | reserve {a : Availability} (c : Cell) (h : Built a) : Built (a.reserve c).1
  | release {a : Availability} (c : Cell) (h : Built a) : Built (a.release c).1

theorem canAssign_iff {a : Availability} {c : Cell} :
    a.canAssign c = true ↔ a.isBlocked c = false ∧ a.isReserved c = false ∧
      underCap a.dailyCap (a.dayLoad c.day) = true ∧ underCap a.weeklyCap a.weekly = true := by
  simp [canAssign, and_assoc]

theorem canMove_free {a : Availability} {src dest : Cell} (apart : src ≠ dest)
    (admitted : a.canMove src dest = true) :
    a.isBlocked dest = false ∧ a.isReserved dest = false := by
  unfold canMove at admitted
  rw [if_neg apart] at admitted
  by_cases taken : (a.isBlocked dest || a.isReserved dest) = true
  · rw [if_pos taken] at admitted
    cases admitted
  · simpa using taken

theorem reserved_get_none {a : Availability} {c : Cell} (free : a.isReserved c = false) :
    a.reserved.get? c = none := by
  simpa [isReserved, CellSet.has, Table.contains] using free

theorem reserved_get_some {a : Availability} {c : Cell} (held : a.isReserved c = true) :
    a.reserved.get? c = some () := by
  obtain ⟨u, found⟩ := Option.isSome_iff_exists.mp held
  exact found

theorem reserve_taken {a : Availability} {c : Cell} (held : a.isReserved c = true) :
    (a.reserve c).1 = a := by
  unfold reserve
  rw [if_pos held]

theorem release_free {a : Availability} {c : Cell} (free : a.isReserved c = false) :
    (a.release c).1 = a := by
  unfold release
  rw [if_neg (by simp [free])]

theorem weekly_reserve {a : Availability} {c : Cell} (free : a.isReserved c = false) :
    (a.reserve c).1.weekly = a.weekly + 1 := by
  unfold reserve
  rw [if_neg (by simp [free])]

theorem weekly_release {a : Availability} {c : Cell} (held : a.isReserved c = true) :
    (a.release c).1.weekly = a.weekly - 1 := by
  unfold release
  rw [if_pos held]

theorem dayLoad_reserve {a : Availability} {c : Cell} (free : a.isReserved c = false)
    (day : Nat) :
    (a.reserve c).1.dayLoad day = a.dayLoad day + if c.day = day then 1 else 0 := by
  unfold reserve
  rw [if_neg (by simp [free])]
  simp only [dayLoad]
  by_cases same : c.day = day
  · subst same; simp
  · rw [Table.get?_insert_of_ne _ _ (Ne.symm same), if_neg same]; rfl

theorem dayLoad_release {a : Availability} {c : Cell} (held : a.isReserved c = true)
    (day : Nat) :
    (a.release c).1.dayLoad day = a.dayLoad day - if c.day = day then 1 else 0 := by
  unfold release
  rw [if_pos held]
  simp only [dayLoad]
  by_cases same : c.day = day
  · subst same
    rw [Table.get?_modify_self, if_pos rfl]
    cases a.perDay.get? c.day <;> rfl
  · rw [Table.get?_modify_of_ne _ _ (Ne.symm same), if_neg same]; rfl

theorem reservedOn_reserve {a : Availability} {c : Cell} (free : a.isReserved c = false)
    (day : Nat) :
    (a.reserve c).1.reservedOn day = a.reservedOn day + if c.day = day then 1 else 0 := by
  unfold reserve
  rw [if_neg (by simp [free])]
  simpa [reservedOn, CellSet.add] using
    Table.countKeys_insert () (reserved_get_none free) fun k => k.day = day

theorem reservedOn_release {a : Availability} {c : Cell} (held : a.isReserved c = true)
    (day : Nat) :
    (a.release c).1.reservedOn day = a.reservedOn day - if c.day = day then 1 else 0 := by
  unfold release
  rw [if_pos held]
  have count := Table.countKeys_erase_add (reserved_get_some held) fun k => k.day = day
  simp only [decide_eq_true_eq] at count
  simp only [reservedOn]
  omega

theorem size_reserve {a : Availability} {c : Cell} (free : a.isReserved c = false) :
    (a.reserve c).1.reserved.size = a.reserved.size + 1 := by
  unfold reserve
  rw [if_neg (by simp [free])]
  exact Table.size_insert () (reserved_get_none free)

theorem size_release {a : Availability} {c : Cell} (held : a.isReserved c = true) :
    (a.release c).1.reserved.size = a.reserved.size - 1 := by
  unfold release
  rw [if_pos held]
  exact Table.size_erase (reserved_get_some held)

theorem reserve_balanced {a : Availability} (h : a.Balanced) (c : Cell) :
    (a.reserve c).1.Balanced := by
  by_cases held : a.isReserved c = true
  · rw [reserve_taken held]; exact h
  · have free : a.isReserved c = false := by simpa using held
    constructor
    · rw [weekly_reserve free, size_reserve free, h.weekly]
    · intro day
      rw [dayLoad_reserve free, reservedOn_reserve free, h.daily]

theorem release_balanced {a : Availability} (h : a.Balanced) (c : Cell) :
    (a.release c).1.Balanced := by
  by_cases held : a.isReserved c = true
  · constructor
    · rw [weekly_release held, size_release held, h.weekly]
    · intro day
      rw [dayLoad_release held, reservedOn_release held, h.daily]
  · rw [release_free (by simpa using held)]; exact h

structure Unreserved (a : Availability) : Prop where
  reserved : a.reserved = ∅
  perDay : a.perDay = ∅
  weekly : a.weekly = 0

theorem Unreserved.balanced {a : Availability} (h : a.Unreserved) : a.Balanced := by
  constructor
  · rw [h.weekly, h.reserved]; rfl
  · intro day
    rw [dayLoad, h.perDay, reservedOn, h.reserved]; rfl

theorem Unreserved.block {a : Availability} (h : a.Unreserved) (c : Cell) :
    (a.block c).Unreserved := ⟨h.reserved, h.perDay, h.weekly⟩

theorem unlimited_unreserved : unlimited.Unreserved := ⟨rfl, rfl, rfl⟩

theorem withCaps_unreserved (daily weekly : Nat) : (withCaps daily weekly).Unreserved :=
  ⟨rfl, rfl, rfl⟩

theorem foldl_keeps {β : Type} {P : Availability → Prop} {step : Availability → β → Availability}
    (keeps : ∀ a x, P a → P (step a x)) (xs : List β) {a : Availability} (h : P a) :
    P (xs.foldl step a) := by
  induction xs generalizing a with
  | nil => exact h
  | cons x rest ih => exact ih (keeps a x h)

theorem blockWindow_keeps {P : Availability → Prop} (keeps : ∀ a c, P a → P (a.block c))
    (slots : Nat) (a : Availability) (raw : String) (h : P a) : P (blockWindow slots a raw) := by
  unfold blockWindow
  split
  · exact foldl_keeps keeps _ h
  · exact h

theorem ofPreference_keeps {P : Availability → Prop} (keeps : ∀ a c, P a → P (a.block c))
    {preference : Option TeacherPreference} (slots : Nat) (existing : List DailyLesson)
    (start : P (preference.elim unlimited fun p => withCaps p.dailyCap p.weeklyCap)) :
    P (ofPreference preference slots existing) := by
  unfold ofPreference
  refine foldl_keeps (fun a r h => keeps a r.cell h) _ ?_
  cases preference with
  | none => exact start
  | some p => exact foldl_keeps (blockWindow_keeps keeps slots) _ start

theorem ofPreference_unreserved (preference : Option TeacherPreference) (slots : Nat)
    (existing : List DailyLesson) : (ofPreference preference slots existing).Unreserved := by
  refine ofPreference_keeps (fun a c h => h.block c) slots existing ?_
  cases preference with
  | none => exact unlimited_unreserved
  | some p => exact withCaps_unreserved _ _

theorem ofPreference_caps (preference : Option TeacherPreference) (slots : Nat)
    (existing : List DailyLesson) :
    (ofPreference preference slots existing).dailyCap = preference.elim 0 (·.dailyCap) ∧
      (ofPreference preference slots existing).weeklyCap = preference.elim 0 (·.weeklyCap) := by
  have keeps : ∀ (a : Availability) (c : Cell),
      (a.dailyCap = preference.elim 0 (·.dailyCap) ∧
        a.weeklyCap = preference.elim 0 (·.weeklyCap)) →
      (a.block c).dailyCap = preference.elim 0 (·.dailyCap) ∧
        (a.block c).weeklyCap = preference.elim 0 (·.weeklyCap) := fun a c h => h
  refine ofPreference_keeps (P := fun a => a.dailyCap = preference.elim 0 (·.dailyCap) ∧
    a.weeklyCap = preference.elim 0 (·.weeklyCap)) keeps slots existing ?_
  cases preference <;> exact ⟨rfl, rfl⟩

theorem isBlocked_foldl {β : Type} {step : Availability → β → Availability}
    {blocks : β → Cell → Prop} (one : ∀ a x c,
      (step a x).isBlocked c = true ↔ a.isBlocked c = true ∨ blocks x c)
    (xs : List β) (a : Availability) (c : Cell) :
    (xs.foldl step a).isBlocked c = true ↔ a.isBlocked c = true ∨ ∃ x ∈ xs, blocks x c := by
  induction xs generalizing a with
  | nil => simp
  | cons x rest ih =>
    rw [List.foldl_cons, ih, one, or_assoc]
    simp

theorem isBlocked_blockWindow (slots : Nat) (a : Availability) (raw : String) (c : Cell) :
    (blockWindow slots a raw).isBlocked c = true ↔
      a.isBlocked c = true ∨ ∃ cells, Window.parse raw slots = .ok cells ∧ c ∈ cells := by
  unfold blockWindow
  cases Window.parse raw slots with
  | error e => simp
  | ok cells =>
    have one : ∀ (a : Availability) (d c : Cell),
        (a.block d).isBlocked c = true ↔ a.isBlocked c = true ∨ c = d := by
      intro a d c
      rw [isBlocked_block, or_comm]
    rw [isBlocked_foldl one]
    simp

/-- Before planning, the windows that parse and the lessons that are given already are blocked, and
nothing else is. -/
theorem isBlocked_ofPreference {preference : Option TeacherPreference} {slots : Nat}
    {existing : List DailyLesson} {c : Cell} :
    (ofPreference preference slots existing).isBlocked c = true ↔
      (∃ p, preference = some p ∧ ∃ raw ∈ p.windows, ∃ cells,
        Window.parse raw slots = .ok cells ∧ c ∈ cells) ∨ ∃ r ∈ existing, r.cell = c := by
  have one : ∀ (a : Availability) (r : DailyLesson) (c : Cell),
      (a.block r.cell).isBlocked c = true ↔ a.isBlocked c = true ∨ r.cell = c := by
    intro a r c
    rw [isBlocked_block, or_comm, eq_comm (a := c)]
  unfold ofPreference
  rw [isBlocked_foldl one]
  cases preference with
  | none =>
    have free : unlimited.isBlocked c = false := rfl
    simp [free]
  | some p =>
    have free : (withCaps p.dailyCap p.weeklyCap).isBlocked c = false := rfl
    have windows := isBlocked_foldl (isBlocked_blockWindow slots) p.windows
      (withCaps p.dailyCap p.weeklyCap) c
    rw [free] at windows
    simp only [windows, Bool.false_eq_true, false_or, Option.some.injEq, exists_eq_left']

theorem isBlocked_eq (a : Availability) (c : Cell) :
    a.isBlocked c = true ↔ a.blocked.get? c = some () := by
  rw [isBlocked, CellSet.has, Table.contains]
  cases a.blocked.get? c <;> simp

theorem Unreserved.ext {a b : Availability} (ha : a.Unreserved) (hb : b.Unreserved)
    (daily : a.dailyCap = b.dailyCap) (weekly : a.weeklyCap = b.weeklyCap)
    (blocked : ∀ c, a.isBlocked c = true ↔ b.isBlocked c = true) : a = b := by
  have cells : a.blocked = b.blocked := by
    apply Table.ext
    intro c
    have same := blocked c
    rw [isBlocked_eq, isBlocked_eq] at same
    exact Option.ext fun u => same
  cases a
  cases b
  have reserved := ha.reserved.trans hb.reserved.symm
  have perDay := ha.perDay.trans hb.perDay.symm
  have counted := ha.weekly.trans hb.weekly.symm
  simp_all

def capsOf (preference : Option TeacherPreference) : Nat × Nat :=
  preference.elim (0, 0) fun p => (p.dailyCap, p.weeklyCap)

def windowsOf (preference : Option TeacherPreference) : List String :=
  preference.elim [] (·.windows)

/-- The cell belongs to one of the window expressions, which has to be one that is read. -/
def InWindow (windows : List String) (slots : Nat) (c : Cell) : Prop :=
  ∃ raw ∈ windows, ∃ cells, Window.parse raw slots = .ok cells ∧ c ∈ cells

/-- A ledger that holds what is stored about its teacher, and no reservation. -/
structure Reflects (preference : Option TeacherPreference) (rows : List DailyLesson) (slots : Nat)
    (a : Availability) : Prop where
  caps : (a.dailyCap, a.weeklyCap) = capsOf preference
  reserved : ∀ c, a.isReserved c = false
  weekly : a.weekly = 0
  daily : ∀ day, a.dayLoad day = 0
  blocked : ∀ c, a.isBlocked c = true ↔
    InWindow (windowsOf preference) slots c ∨ ∃ row ∈ rows, row.cell = c

theorem ofPreference_reflects (preference : Option TeacherPreference) (slots : Nat)
    (rows : List DailyLesson) : Reflects preference rows slots (ofPreference preference slots rows) := by
  have untouched := ofPreference_unreserved preference slots rows
  obtain ⟨daily, weekly⟩ := ofPreference_caps preference slots rows
  constructor
  · rw [daily, weekly]
    cases preference <;> rfl
  · intro c
    rw [isReserved, untouched.reserved]
    rfl
  · exact untouched.weekly
  · intro day
    rw [dayLoad, untouched.perDay]
    rfl
  · intro c
    rw [isBlocked_ofPreference]
    cases preference with
    | none => simp [InWindow, windowsOf]
    | some p => simp [InWindow, windowsOf]

/-- What a ledger can show of a preference: the caps, and the windows that are read, in any order
and with any repetitions. -/
structure SameWishes (slots : Nat) (p q : Option TeacherPreference) : Prop where
  caps : capsOf p = capsOf q
  windows : ∀ raw cells, Window.parse raw slots = .ok cells →
    (raw ∈ windowsOf p ↔ raw ∈ windowsOf q)

theorem SameWishes.inWindow {slots : Nat} {p q : Option TeacherPreference}
    (same : SameWishes slots p q) (c : Cell) :
    InWindow (windowsOf p) slots c ↔ InWindow (windowsOf q) slots c := by
  constructor
  · rintro ⟨raw, listed, cells, read, member⟩
    exact ⟨raw, (same.windows raw cells read).mp listed, cells, read, member⟩
  · rintro ⟨raw, listed, cells, read, member⟩
    exact ⟨raw, (same.windows raw cells read).mpr listed, cells, read, member⟩

theorem ofPreference_congr {slots : Nat} {p q : Option TeacherPreference}
    {rows others : List DailyLesson} (wishes : SameWishes slots p q)
    (cells : ∀ c, (∃ row ∈ rows, row.cell = c) ↔ ∃ row ∈ others, row.cell = c) :
    ofPreference p slots rows = ofPreference q slots others := by
  have first := ofPreference_reflects p slots rows
  have second := ofPreference_reflects q slots others
  have caps := Prod.mk.inj (first.caps.trans (wishes.caps.trans second.caps.symm))
  refine (ofPreference_unreserved p slots rows).ext (ofPreference_unreserved q slots others)
    caps.1 caps.2 fun c => ?_
  rw [first.blocked, second.blocked, wishes.inWindow, cells]

theorem Built.balanced {a : Availability} (h : a.Built) : a.Balanced := by
  induction h with
  | unlimited => exact unlimited_unreserved.balanced
  | withCaps daily weekly => exact (withCaps_unreserved daily weekly).balanced
  | ofPreference preference slots existing =>
    exact (ofPreference_unreserved preference slots existing).balanced
  | block c _ ih => exact ⟨ih.weekly, ih.daily⟩
  | reserve c _ ih => exact reserve_balanced ih c
  | release c _ ih => exact release_balanced ih c

theorem Built.only {a : Availability} (h : a.Built) (t : TeacherId) :
    ∀ u x, (Table.empty.insert t a).get? u = some x → x.Built := by
  intro u x found
  rcases Table.get?_insert_source found with ⟨_, same⟩ | old
  · rw [same]
    exact h
  · cases old

structure SameLimits (a b : Availability) : Prop where
  dailyCap : a.dailyCap = b.dailyCap
  weeklyCap : a.weeklyCap = b.weeklyCap
  blocked : a.blocked = b.blocked

theorem SameLimits.symm {a b : Availability} (h : a.SameLimits b) : b.SameLimits a :=
  ⟨h.dailyCap.symm, h.weeklyCap.symm, h.blocked.symm⟩

theorem SameLimits.trans {a b c : Availability} (h : a.SameLimits b) (g : b.SameLimits c) :
    a.SameLimits c :=
  ⟨h.dailyCap.trans g.dailyCap, h.weeklyCap.trans g.weeklyCap, h.blocked.trans g.blocked⟩

theorem reserve_sameLimits (a : Availability) (c : Cell) : (a.reserve c).1.SameLimits a := by
  unfold reserve
  split <;> exact ⟨rfl, rfl, rfl⟩

theorem release_sameLimits (a : Availability) (c : Cell) : (a.release c).1.SameLimits a := by
  unfold release
  split <;> exact ⟨rfl, rfl, rfl⟩

end SchoolTimetable.Availability

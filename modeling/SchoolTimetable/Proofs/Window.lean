import SchoolTimetable.Window
import SchoolTimetable.Proofs.Entries
import SchoolTimetable.Proofs.Weekday

/-!
The grammar of window expressions. Main statement: the reader accepts exactly the texts that have
one of the three forms, takes exactly the cells that such a text names, and says of every other
text what is wrong with it. The forms are said without the reader, so that what it does by trimming
and by splitting at the first colon and the first hyphen is shown to be no more and no less.
-/
namespace SchoolTimetable.Window
open Text

def SlotNumber (n : Nat) (cs : List Char) : Prop := Numeral cs n ∧ n < wordSize 32

inductive Extent where
  | whole
  | span (first last : Nat)

/-- The forms of a window expression. White space is free around the day and around each number. -/
inductive Form : List Char → Nat → Extent → Prop where
  | day {ds : List Char} {d : Nat} (day : Spelled (Weekday.Called · d) ds) : Form ds d .whole
  | slot {ds rs : List Char} {d a : Nat} (day : Spelled (Weekday.Called · d) ds)
      (slot : Spelled (SlotNumber a) rs) : Form (ds ++ ':' :: rs) d (.span a a)
  | slots {ds xs ys : List Char} {d a b : Nat} (day : Spelled (Weekday.Called · d) ds)
      (first : Spelled (SlotNumber a) xs) (last : Spelled (SlotNumber b) ys) (ordered : a ≤ b) :
      Form (ds ++ ':' :: (xs ++ '-' :: ys)) d (.span a b)

def Extent.Has (slots : Nat) : Extent → Nat → Prop
  | whole, s => 1 ≤ s ∧ s ≤ slots
  | span first last, s => max 1 first ≤ s ∧ s ≤ min last slots

/-! The text up to the first separator, and the text after it. -/

theorem splitOnce_eq_none_iff {sep : Char} {cs : List Char} :
    splitOnce sep cs = none ↔ sep ∉ cs := by
  induction cs with
  | nil => simp [splitOnce]
  | cons c rest ih =>
    by_cases same : c = sep
    · simp [splitOnce, same]
    · simp [splitOnce, same, ih, Ne.symm same]

theorem splitOnce_trimChars {sep : Char} (solid : isBlank sep = false) (cs : List Char) :
    splitOnce sep (trimChars cs) =
      (splitOnce sep cs).map fun p => (trimStart p.1, trimEnd p.2) := by
  cases split : splitOnce sep cs with
  | none =>
    refine splitOnce_eq_none_iff.mpr fun member => splitOnce_eq_none_iff.mp split ?_
    obtain ⟨before, after, _, _, whole⟩ := padded_trimChars cs
    rw [whole]
    simp [member]
  | some p =>
    obtain ⟨rfl, first⟩ := splitOnce_eq_some_iff.mp (show _ = some (p.1, p.2) from split)
    rw [Option.map_some, splitOnce_eq_some_iff, trimChars, trimStart_around solid,
      trimEnd_around solid]
    exact ⟨rfl, fun member => first ((List.dropWhile_sublist _).subset member)⟩

theorem SlotNumber.solid {n : Nat} (token : List Char) (number : SlotNumber n token) :
    ∀ c ∈ token, isBlank c = false := number.1.solid

theorem slotNumber_iff {cs : List Char} {n : Nat} :
    natural? 32 (trimChars cs) = some n ↔ Spelled (SlotNumber n) cs := by
  rw [spelled_iff SlotNumber.solid, natural?_eq_some_iff, SlotNumber]

theorem hyphen_not_mem {cs : List Char} {n : Nat} (spelled : Spelled (SlotNumber n) cs) :
    '-' ∉ cs := by
  apply spelled.not_mem (by decide)
  intro token number member
  have := number.1.chars '-' member
  revert this
  decide

def SlotForm (cs : List Char) (a b : Nat) : Prop :=
  (Spelled (SlotNumber a) cs ∧ a = b) ∨
    ∃ xs ys, cs = xs ++ '-' :: ys ∧ Spelled (SlotNumber a) xs ∧ Spelled (SlotNumber b) ys ∧ a ≤ b

theorem range?_eq_some_iff {cs : List Char} {a b : Nat} :
    range? (trimChars cs) = some (a, b) ↔ SlotForm cs a b := by
  have numbers : ∀ xs ys : List Char, (do
        let start ← natural? 32 (trimChars xs)
        let stop ← natural? 32 (trimChars ys)
        if start ≤ stop then some (start, stop) else none) = some (a, b) ↔
      Spelled (SlotNumber a) xs ∧ Spelled (SlotNumber b) ys ∧ a ≤ b := by
    intro xs ys
    simp only [Option.bind_eq_bind, Option.bind_eq_some_iff, slotNumber_iff]
    constructor
    · rintro ⟨x, first, y, last, same⟩
      split at same
      · cases same
        exact ⟨first, last, ‹_›⟩
      · cases same
    · rintro ⟨first, last, ordered⟩
      exact ⟨a, first, b, last, if_pos ordered⟩
  have agree : ∀ {a b}, Spelled (SlotNumber a) cs → Spelled (SlotNumber b) cs → a = b := by
    intro a b first second
    rw [← slotNumber_iff] at first second
    exact Option.some.inj (first.symm.trans second)
  unfold range?
  rw [splitOnce_trimChars (by decide)]
  cases split : splitOnce '-' cs with
  | none =>
    -- without a hyphen the text is read as both ends
    have none := splitOnce_eq_none_iff.mp split
    refine (numbers cs cs).trans ?_
    constructor
    · rintro ⟨first, last, _⟩
      exact Or.inl ⟨first, agree first last⟩
    · rintro (⟨slot, rfl⟩ | ⟨xs, ys, rfl, _⟩)
      · exact ⟨slot, slot, Nat.le_refl a⟩
      · simp at none
  | some p =>
    obtain ⟨rfl, before⟩ := splitOnce_eq_some_iff.mp (show _ = some (p.1, p.2) from split)
    simp only [Option.map_some, trimChars_trimStart, trimChars_trimEnd]
    refine (numbers p.1 p.2).trans ?_
    constructor
    · rintro ⟨first, last, ordered⟩
      exact Or.inr ⟨p.1, p.2, rfl, first, last, ordered⟩
    · rintro (⟨slot, _⟩ | ⟨xs, ys, same, first, last, ordered⟩)
      · exact absurd (by simp) (hyphen_not_mem slot)
      · have here := splitOnce_eq_some_iff.mpr ⟨same, hyphen_not_mem first⟩
        obtain rfl := Option.some.inj (split.symm.trans here)
        exact ⟨first, last, ordered⟩

def dayText (cs : List Char) : List Char := cs.takeWhile (· ≠ ':')

def slotText (cs : List Char) : List Char := (cs.dropWhile (· ≠ ':')).tail

theorem splitOnce_colon (cs : List Char) :
    splitOnce ':' cs = if ':' ∈ cs then some (dayText cs, slotText cs) else none := by
  induction cs with
  | nil => rfl
  | cons c rest ih =>
    by_cases colon : c = ':'
    · simp [splitOnce, dayText, slotText, colon]
    · by_cases later : ':' ∈ rest <;>
        simp [splitOnce, dayText, slotText, colon, Ne.symm colon, ih, later]

theorem dayText_of_not_mem {cs : List Char} (absent : ':' ∉ cs) : dayText cs = cs := by
  refine List.takeWhile_eq_self_iff.mpr fun c member => ?_
  rw [decide_eq_true_eq]
  rintro rfl
  exact absent member

theorem form_iff {cs : List Char} {d : Nat} {e : Extent} :
    Form cs d e ↔ Spelled (Weekday.Called · d) (dayText cs) ∧
      ((':' ∉ cs ∧ e = .whole) ∨
        (':' ∈ cs ∧ ∃ a b, e = .span a b ∧ SlotForm (slotText cs) a b)) := by
  have plain : ∀ {ds}, Spelled (Weekday.Called · d) ds → ':' ∉ ds := by
    intro ds day
    refine day.not_mem (by decide) fun token called member => ?_
    exact (called.chars ':' member).2 rfl
  have parts : ∀ {ds rs}, Spelled (Weekday.Called · d) ds →
      dayText (ds ++ ':' :: rs) = ds ∧ slotText (ds ++ ':' :: rs) = rs := by
    intro ds rs day
    have split := splitOnce_eq_some_iff.mpr ⟨(rfl : ds ++ ':' :: rs = _), plain day⟩
    rw [splitOnce_colon, if_pos (by simp)] at split
    exact Prod.mk.inj (Option.some.inj split)
  constructor
  · intro form
    cases form with
    | day day =>
      rw [dayText_of_not_mem (plain day)]
      exact ⟨day, Or.inl ⟨plain day, rfl⟩⟩
    | slot day slot =>
      rw [(parts day).1, (parts day).2]
      exact ⟨day, Or.inr ⟨by simp, _, _, rfl, Or.inl ⟨slot, rfl⟩⟩⟩
    | slots day first last ordered =>
      rw [(parts day).1, (parts day).2]
      exact ⟨day, Or.inr ⟨by simp, _, _, rfl, Or.inr ⟨_, _, rfl, first, last, ordered⟩⟩⟩
  · rintro ⟨day, ⟨absent, rfl⟩ | ⟨present, a, b, rfl, form⟩⟩
    · rw [dayText_of_not_mem absent] at day
      exact .day day
    · have split := splitOnce_colon cs
      rw [if_pos present] at split
      rw [(splitOnce_eq_some_iff.mp split).1]
      rcases form with ⟨slot, rfl⟩ | ⟨xs, ys, same, first, last, ordered⟩
      · exact .slot day slot
      · rw [same]
        exact .slots day first last ordered

/-- The cells that a window takes in a grid of so many slots a day, where a slot is a word of eight
bits. -/
structure Takes (slots day : Nat) (e : Extent) (cells : List Cell) : Prop where
  ascending : cells.Pairwise fun a b => Key.before a b = true
  exact : ∀ c, c ∈ cells ↔ c.day = day ∧ e.Has slots c.slot
  narrow : ∀ c ∈ cells, (UInt8.ofNat c.slot).toNat = c.slot

theorem cellsBetween_ascending (day start stop : Nat) :
    (cellsBetween day start stop).Pairwise fun a b => Key.before a b = true := by
  refine List.pairwise_map.mpr ((List.pairwise_lt_range' 1).imp fun {a b} later => ?_)
  exact Cell.before_iff.mpr (Or.inr ⟨rfl, later⟩)

theorem Takes.unique {slots day : Nat} {e : Extent} {cells others : List Cell}
    (first : Takes slots day e cells) (second : Takes slots day e others) : cells = others := by
  refine Key.ascending_ext first.ascending second.ascending fun c => ?_
  rw [first.exact, second.exact]

theorem takes_cellsBetween {slots day start stop : Nat} {e : Extent} (word : slots < 256)
    (within : stop ≤ slots) (same : ∀ s, e.Has slots s ↔ start ≤ s ∧ s ≤ stop) :
    Takes slots day e (cellsBetween day start stop) where
  ascending := cellsBetween_ascending day start stop
  exact := by
    intro c
    rw [mem_cellsBetween_iff, same]
  narrow := by
    intro c member
    have range := mem_cellsBetween_iff.mp member
    rw [UInt8.toNat_ofNat']
    omega

inductive Faulty (cs : List Char) : WindowError → Prop where
  | empty (blank : cs.all isBlank = true) : Faulty cs .empty
  | unknownDay (nonblank : cs.all isBlank = false)
      (unknown : ¬ ∃ d, Spelled (Weekday.Called · d) (dayText cs)) :
      Faulty cs (.unknownDay (String.ofList (trimChars (dayText cs))))
  | invalidRange (nonblank : cs.all isBlank = false)
      (known : ∃ d, Spelled (Weekday.Called · d) (dayText cs)) (none : ¬ ∃ d e, Form cs d e) :
      Faulty cs (.invalidRange (String.ofList (trimChars (slotText cs))))

theorem SlotForm.unique {cs : List Char} {a b c d : Nat} (first : SlotForm cs a b)
    (second : SlotForm cs c d) : a = c ∧ b = d := by
  rw [← range?_eq_some_iff] at first second
  exact Prod.mk.inj (Option.some.inj (first.symm.trans second))

theorem Form.unique {cs : List Char} {d d' : Nat} {e e' : Extent} (first : Form cs d e)
    (second : Form cs d' e') : d = d' ∧ e = e' := by
  obtain ⟨day, slots⟩ := form_iff.mp first
  obtain ⟨day', slots'⟩ := form_iff.mp second
  rw [← Weekday.parse?_eq_some_iff] at day day'
  refine ⟨Option.some.inj (day.symm.trans day'), ?_⟩
  rcases slots with ⟨absent, rfl⟩ | ⟨present, a, b, rfl, range⟩ <;>
    rcases slots' with ⟨absent', rfl⟩ | ⟨present', c, f, rfl, range'⟩
  · rfl
  · exact absurd present' absent
  · exact absurd present absent'
  · obtain ⟨rfl, rfl⟩ := range.unique range'
    rfl

theorem not_form_of_blank {cs : List Char} (blank : cs.all isBlank = true) :
    ¬ ∃ d e, Form cs d e := by
  rintro ⟨d, e, form⟩
  have day := (spelled_iff fun _ called c member => (called.chars c member).1).mp
    (form_iff.mp form).1
  have empty : (dayText cs).all isBlank = true := List.all_eq_true.mpr fun c member =>
    List.all_eq_true.mp blank c ((List.takeWhile_sublist _).subset member)
  rw [trimChars_eq_nil_iff.mpr empty] at day
  cases Weekday.called_iff.mpr day

theorem Faulty.not_form {cs : List Char} {err : WindowError} (faulty : Faulty cs err) :
    ¬ ∃ d e, Form cs d e := by
  cases faulty with
  | empty blank => exact not_form_of_blank blank
  | unknownDay _ unknown =>
    rintro ⟨d, e, form⟩
    exact unknown ⟨d, (form_iff.mp form).1⟩
  | invalidRange _ _ none => exact none

theorem Faulty.unique {cs : List Char} {err err' : WindowError} (first : Faulty cs err)
    (second : Faulty cs err') : err = err' := by
  cases first with
  | empty blank =>
    cases second with
    | empty => rfl
    | unknownDay nonblank => simp [blank] at nonblank
    | invalidRange nonblank => simp [blank] at nonblank
  | unknownDay nonblank unknown =>
    cases second with
    | empty blank => simp [blank] at nonblank
    | unknownDay => rfl
    | invalidRange _ known => exact absurd known unknown
  | invalidRange nonblank known =>
    cases second with
    | empty blank => simp [blank] at nonblank
    | unknownDay _ unknown => exact absurd known unknown
    | invalidRange => rfl

theorem faulty_of_day {cs : List Char} (nonblank : cs.all isBlank = false)
    (unread : Weekday.parse? (dayText cs) = none) :
    Faulty cs (.unknownDay (String.ofList (trimChars (dayText cs)))) := by
  refine .unknownDay nonblank fun known => ?_
  obtain ⟨d, called⟩ := known
  rw [Weekday.parse?_eq_some_iff.mpr called] at unread
  cases unread

theorem faulty_of_slots {cs : List Char} {d : Nat} (nonblank : cs.all isBlank = false)
    (called : Spelled (Weekday.Called · d) (dayText cs)) (colon : ':' ∈ cs)
    (unread : range? (trimChars (slotText cs)) = none) :
    Faulty cs (.invalidRange (String.ofList (trimChars (slotText cs)))) := by
  refine .invalidRange nonblank ⟨d, called⟩ fun known => ?_
  obtain ⟨d', e, form⟩ := known
  rcases (form_iff.mp form).2 with ⟨absent, _⟩ | ⟨_, a, b, _, slots⟩
  · exact absent colon
  · rw [range?_eq_some_iff.mpr slots] at unread
    cases unread

def Fits (raw : List Char) (slots : Nat) : Except WindowError (List Cell) → Prop
  | .ok cells => ∃ d e, Form raw d e ∧ Takes slots d e cells
  | .error err => Faulty raw err

theorem parse_fits (raw : String) {slots : Nat} (word : slots < 256) :
    Fits raw.toList slots (parse raw slots) := by
  have start : ∀ cs, Weekday.parse? (trimStart cs) = Weekday.parse? cs := by
    intro cs
    rw [Weekday.parse?, trimChars_trimStart, Weekday.parse?]
  have both : ∀ cs, Weekday.parse? (trimChars cs) = Weekday.parse? cs := by
    intro cs
    rw [Weekday.parse?, trimChars_trimChars, Weekday.parse?]
  unfold parse
  simp only [trimChars_eq_nil_iff, splitOnce_trimChars (show isBlank ':' = false by decide),
    splitOnce_colon]
  split
  · rename_i blank
    exact .empty blank
  · rename_i filled
    have nonblank := Bool.eq_false_iff.mpr filled
    have unknown := faulty_of_day nonblank
    by_cases colon : ':' ∈ raw.toList
    · simp only [if_pos colon, Option.map_some, trimChars_trimStart, trimChars_trimEnd, start]
      cases day : Weekday.parse? (dayText raw.toList) with
      | none => exact unknown day
      | some d =>
        have called := Weekday.parse?_eq_some_iff.mp day
        cases range : range? (trimChars (slotText raw.toList)) with
        | none => exact faulty_of_slots nonblank called colon range
        | some bounds =>
          have form := range?_eq_some_iff.mp range
          refine ⟨d, .span bounds.1 bounds.2,
            form_iff.mpr ⟨called, Or.inr ⟨colon, _, _, rfl, form⟩⟩, ?_⟩
          apply takes_cellsBetween word (Nat.min_le_right _ _)
          intro s
          rw [Extent.Has, Nat.max_comm]
    · rw [dayText_of_not_mem colon] at unknown
      simp only [if_neg colon, Option.map_none, trimChars_trimChars, both]
      cases day : Weekday.parse? raw.toList with
      | none => exact unknown day
      | some d =>
        have called := Weekday.parse?_eq_some_iff.mp day
        rw [← dayText_of_not_mem colon] at called
        refine ⟨d, .whole, form_iff.mpr ⟨called, Or.inl ⟨colon, rfl⟩⟩, ?_⟩
        exact takes_cellsBetween word (Nat.le_refl slots) fun s => Iff.rfl

/-- The reader of windows accepts exactly the texts of the grammar, takes exactly the cells that
they name, and says of all other texts what is wrong with them. -/
theorem parse_decides_grammar (raw : String) (slots : UInt8) :
    ((∃ cells, parse raw slots.toNat = .ok cells) ↔
      ∃ day extent, Form raw.toList day extent) ∧
    (∀ cells, parse raw slots.toNat = .ok cells ↔
      ∃ day extent, Form raw.toList day extent ∧ Takes slots.toNat day extent cells) ∧
    (∀ err, parse raw slots.toNat = .error err ↔ Faulty raw.toList err) := by
  have fits := parse_fits raw slots.toNat_lt
  cases result : parse raw slots.toNat with
  | ok cells =>
    rw [result] at fits
    obtain ⟨day, extent, form, takes⟩ := fits
    refine ⟨iff_of_true ⟨cells, rfl⟩ ⟨day, extent, form⟩, fun others => ?_, fun err => ?_⟩
    · constructor
      · intro same
        obtain rfl := Except.ok.inj same
        exact ⟨day, extent, form, takes⟩
      · rintro ⟨day', extent', form', takes'⟩
        obtain ⟨rfl, rfl⟩ := form.unique form'
        rw [takes.unique takes']
    · constructor
      · intro same
        cases same
      · intro faulty
        exact absurd ⟨day, extent, form⟩ faulty.not_form
  | error err =>
    rw [result] at fits
    refine ⟨iff_of_false ?_ fits.not_form, fun cells => ?_, fun err' => ?_⟩
    · rintro ⟨cells, same⟩
      cases same
    · constructor
      · intro same
        cases same
      · rintro ⟨day, extent, form, _⟩
        exact absurd ⟨day, extent, form⟩ fits.not_form
    · constructor
      · intro same
        obtain rfl := Except.error.inj same
        exact fits
      · intro faulty
        rw [fits.unique faulty]

/-- Slots past the grid are left out, however far past it they are. -/
example :
    parse " tue : +05 - 4294967295 " 6 = .ok [⟨2, 5⟩, ⟨2, 6⟩] ∧
      parse "8:1" 6 = .error (.unknownDay "8") ∧
      parse "SUNDAY: 4-2 " 6 = .error (.invalidRange "4-2") := by
  decide +kernel

end SchoolTimetable.Window

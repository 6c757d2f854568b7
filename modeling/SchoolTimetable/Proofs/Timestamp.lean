import SchoolTimetable.Proofs.Calendar
import SchoolTimetable.Proofs.Text
import SchoolTimetable.Timestamp.Text

/-!
Instants are read again from the texts that are written of them. Each reader takes off exactly what
is written of its part, and what a reader gives lies within the bounds that the writer needs.
-/
namespace SchoolTimetable

namespace Text.Reader
variable {α β : Type} {p : Reader α} {f : α → Reader β} {cs mid rest : List Char} {a : α} {b : β}

theorem run_bind_of (first : p.run cs = some (a, mid)) : (p >>= f).run cs = (f a).run mid := by
  rw [StateT.run_bind, first]
  rfl

theorem run_bind_none (first : p.run cs = none) : (p >>= f).run cs = none := by
  rw [StateT.run_bind, first]
  rfl

theorem run_bind_iff : (p >>= f).run cs = some (b, rest) ↔
    ∃ a mid, p.run cs = some (a, mid) ∧ (f a).run mid = some (b, rest) := by
  rw [StateT.run_bind, Option.bind_eq_bind, Option.bind_eq_some_iff]
  constructor
  · rintro ⟨⟨a, mid⟩, first, second⟩
    exact ⟨a, mid, first, second⟩
  · rintro ⟨a, mid, first, second⟩
    exact ⟨(a, mid), first, second⟩

theorem satisfy_run {q : Char → Bool} {c : Char} (passes : q c = true) (rest : List Char) :
    (satisfy q).run (c :: rest) = some (c, rest) := if_pos passes

theorem char_run (c : Char) (rest : List Char) : (char c).run (c :: rest) = some ((), rest) := by
  rw [char, run_bind_of (satisfy_run (q := (· == c)) (beq_self_eq_true c) rest)]
  rfl

theorem char_run_none {c d : Char} (other : d ≠ c) (rest : List Char) :
    (char c).run (d :: rest) = none := by
  apply run_bind_none
  exact if_neg (by simpa using other)

theorem span_run {q : Char → Bool} {ds : List Char} (inside : ∀ c ∈ ds, q c = true)
    (stops : ∀ c ∈ rest.head?, q c = false) : (span q).run (ds ++ rest) = some (ds, rest) := by
  have taken : rest.takeWhile q = [] := by
    cases rest with
    | nil => rfl
    | cons c r => simp [stops c rfl]
  have left : rest.dropWhile q = rest := by
    cases rest with
    | nil => rfl
    | cons c r => simp [stops c rfl]
  change some ((ds ++ rest).takeWhile q, (ds ++ rest).dropWhile q) = _
  rw [List.takeWhile_append_of_pos inside, List.dropWhile_append_of_pos inside, taken, left,
    List.append_nil]

theorem span1_run {q : Char → Bool} {ds : List Char} (nonempty : ds ≠ [])
    (inside : ∀ c ∈ ds, q c = true) (stops : ∀ c ∈ rest.head?, q c = false) :
    (span1 q).run (ds ++ rest) = some (ds, rest) := by
  rw [span1, run_bind_of (span_run inside stops)]
  simp [nonempty]

theorem optional_run_some (read : p.run cs = some (a, mid)) :
    (optional p).run cs = some (some a, mid) := by
  change ((some <$> p).run cs <|> _) = _
  rw [StateT.run_map, read]
  rfl

theorem optional_run_none (unread : p.run cs = none) : (optional p).run cs = some (none, cs) := by
  change ((some <$> p).run cs <|> _) = _
  rw [StateT.run_map, unread]
  rfl

theorem run_orElse_cases {q : Reader α} (read : (p <|> q).run cs = some (a, rest)) :
    p.run cs = some (a, rest) ∨ q.run cs = some (a, rest) := by
  change (p.run cs <|> q.run cs) = _ at read
  cases first : p.run cs with
  | none =>
    rw [first] at read
    exact Or.inr read
  | some r =>
    rw [first] at read
    exact Or.inl read

theorem optional_run_cases {o : Option α} (read : (optional p).run cs = some (o, rest)) :
    o = none ∨ ∃ a, o = some a ∧ p.run cs = some (a, rest) := by
  rcases run_orElse_cases read with here | none
  · rw [StateT.run_map] at here
    obtain ⟨⟨a, mid⟩, first, same⟩ := Option.map_eq_some_iff.mp here
    cases same
    exact Or.inr ⟨a, rfl, first⟩
  · cases none
    exact Or.inl rfl

theorem span1_inside {q : Char → Bool} {ds : List Char}
    (read : (span1 q).run cs = some (ds, rest)) : ∀ c ∈ ds, q c = true := by
  obtain ⟨r, mid, first, read⟩ := run_bind_iff.mp read
  cases first
  split at read
  · cases read
  · cases read
    exact List.all_eq_true.mp List.all_takeWhile

end Text.Reader

namespace Timestamp
open Text Text.Reader
variable {rest : List Char}

theorem isDigit_of_asciiDigit {c : Char} (digit : c.isDigit = true) : Text.isDigit c = true := by
  simpa [Char.isDigit, Text.isDigit, Char.le_def] using digit

theorem padded_digits {width n : Nat} : ∀ c ∈ padded width n, Text.isDigit c = true := by
  intro c member
  rcases List.mem_append.mp member with zero | digit
  · rw [(List.mem_replicate.mp zero).2]
    rfl
  · exact isDigit_of_asciiDigit (Nat.isDigit_of_mem_toDigits (by decide) (by decide) digit)

theorem digitsValue_zeros (k : Nat) (ds : List Char) :
    digitsValue (List.replicate k '0' ++ ds) = digitsValue ds := by
  induction k with
  | zero => rfl
  | succ k ih =>
    rw [List.replicate_succ, List.cons_append]
    exact ih

theorem digitsValue_padded (width n : Nat) : digitsValue (padded width n) = n := by
  rw [padded, digitsValue_zeros]
  exact Nat.ofDigitChars_toDigits (by decide) (by decide)

theorem padded_ne_nil (width n : Nat) : padded width n ≠ [] := by
  simp [padded, Nat.toDigits_ne_nil]

theorem length_padded {width n : Nat} (positive : 0 < width) (fits : n < 10 ^ width) :
    (padded width n).length = width := by
  have digits := (Nat.length_toDigits_le_iff (by decide) positive).mpr fits
  simp only [padded, List.length_append, List.length_replicate]
  omega

theorem digitsUpTo_padded {width n : Nat} (positive : 0 < width) (fits : n < 10 ^ width)
    (rest : List Char) : (digitsUpTo width).run (padded width n ++ rest) = some (n, rest) := by
  have length := length_padded positive fits
  have all : (padded width n).takeWhile Text.isDigit = padded width n :=
    List.takeWhile_eq_self_iff.mpr padded_digits
  have front : (padded width n ++ rest).take width = padded width n := by
    rw [List.take_append_of_le_length (Nat.le_of_eq length.symm), List.take_of_length_le]
    exact Nat.le_of_eq length
  change (if ((padded width n ++ rest).take width).takeWhile Text.isDigit = [] then none else _) = _
  rw [front, all, if_neg (padded_ne_nil width n), digitsValue_padded, List.drop_left]

theorem blanks_run (solid : ∀ c ∈ rest.head?, isBlank c = false) :
    blanks.run rest = some ((), rest) := by
  have none : (span isBlank).run ([] ++ rest) = some ([], rest) := span_run (by simp) solid
  rw [List.nil_append] at none
  rw [blanks, run_bind_of none]
  rfl

theorem mark_run {c : Char} (solid : isBlank c = false) (rest : List Char) :
    (mark c).run (c :: rest) = some ((), rest) := by
  rw [mark, run_bind_of (blanks_run (by simpa using solid)), char_run]

theorem padded_head {width n : Nat} (rest : List Char) :
    ∃ c cs, padded width n ++ rest = c :: cs ∧ Text.isDigit c = true := by
  obtain ⟨c, cs, split⟩ := List.exists_cons_of_ne_nil (padded_ne_nil width n)
  refine ⟨c, cs ++ rest, by rw [split, List.cons_append], ?_⟩
  exact padded_digits c (split ▸ List.mem_cons_self)

theorem blanks_padded {width n : Nat} (rest : List Char) :
    blanks.run (padded width n ++ rest) = some ((), padded width n ++ rest) := by
  obtain ⟨c, cs, split, digit⟩ := @padded_head width n rest
  rw [split]
  apply blanks_run
  simpa using isBlank_of_isDigit digit

theorem span1_padded {width n : Nat} (stops : ∀ c ∈ rest.head?, Text.isDigit c = false) :
    (span1 Text.isDigit).run (padded width n ++ rest) = some (padded width n, rest) :=
  span1_run (padded_ne_nil width n) padded_digits stops

theorem year_run (y : Int) (rest : List Char) :
    year.run (yearText y ++ '-' :: rest) = some (y, '-' :: rest) := by
  have stops : ∀ c ∈ ('-' :: rest).head?, Text.isDigit c = false := by simp; decide
  have peeked : ∀ cs : List Char, peek.run cs = some (cs.head?, cs) := fun _ => rfl
  rw [year, run_bind_of (peeked _)]
  unfold yearText
  by_cases plain : 0 ≤ y ∧ y ≤ 9999
  · rw [if_pos plain]
    obtain ⟨c, cs, split, digit⟩ := @padded_head 4 y.toNat ('-' :: rest)
    have read := @digitsUpTo_padded 4 y.toNat (by decide) (by omega) ('-' :: rest)
    rw [split] at read ⊢
    split
    · rename_i minus
      rw [Option.some.inj minus] at digit
      cases digit
    · rename_i plus
      rw [Option.some.inj plus] at digit
      cases digit
    · rw [run_bind_of read, StateT.run_pure, Int.toNat_of_nonneg plain.1]
      rfl
  · rw [if_neg plain]
    by_cases negative : y < 0
    · rw [if_pos negative]
      simp only [List.cons_append, List.head?_cons]
      rw [run_bind_of (char_run _ _), run_bind_of (span1_padded stops), digitsValue_padded,
        StateT.run_pure]
      have value : -(y.natAbs : Int) = y := by omega
      rw [value]
      rfl
    · rw [if_neg negative]
      simp only [List.cons_append, List.head?_cons]
      rw [run_bind_of (char_run _ _), run_bind_of (span1_padded stops), digitsValue_padded,
        StateT.run_pure]
      have value : (y.natAbs : Int) = y := by omega
      rw [value]
      rfl

theorem blanks_yearText (y : Int) (rest : List Char) :
    blanks.run (yearText y ++ rest) = some ((), yearText y ++ rest) := by
  unfold yearText
  split
  · exact blanks_padded rest
  · split
    · exact blanks_run (by simp; decide)
    · exact blanks_run (by simp; decide)

theorem date_run {d : CivilDate} (valid : d.isValid = true) (month : d.month < 100)
    (day : d.day < 100) (rest : List Char) :
    date.run (yearText d.year ++ '-' :: (padded 2 d.month ++ '-' :: (padded 2 d.day ++ rest))) =
      some (d, rest) := by
  have hyphen : isBlank '-' = false := by decide
  rw [date, run_bind_of (blanks_yearText _ _), run_bind_of (year_run _ _),
    run_bind_of (mark_run hyphen _), run_bind_of (blanks_padded _),
    run_bind_of (digitsUpTo_padded (by decide) month _), run_bind_of (mark_run hyphen _),
    run_bind_of (blanks_padded _), run_bind_of (digitsUpTo_padded (by decide) day _)]
  simp only [valid, if_true]
  rfl

theorem fraction_run (width n : Nat) (positive : 0 < width) (short : width ≤ 9)
    (fits : n < 10 ^ width) (stops : ∀ c ∈ rest.head?, Text.isDigit c = false) :
    fraction.run ('.' :: (padded width n ++ rest)) = some (n * 10 ^ (9 - width), rest) := by
  have length := length_padded positive fits
  rw [fraction, run_bind_of (char_run _ _), run_bind_of (span1_padded stops)]
  have kept : (padded width n).take 9 = padded width n := List.take_of_length_le (by omega)
  simp only [kept, digitsValue_padded, length]
  rfl

theorem fractionText_run {nanos : Nat} (fits : nanos < nanosPerSecond)
    (stops : ∀ c ∈ rest.head?, Text.isDigit c = false) (point : rest.head? ≠ some '.') :
    ∃ o, (optional fraction).run (fractionText nanos ++ rest) = some (o, rest) ∧
      o.getD 0 = nanos := by
  unfold nanosPerSecond at fits
  unfold fractionText
  split
  · rename_i zero
    have unread : fraction.run rest = none := by
      cases rest with
      | nil => rfl
      | cons c cs =>
        exact run_bind_none (char_run_none (by simpa using point) cs)
    exact ⟨none, optional_run_none unread, zero.symm⟩
  · have shown : ∀ width n, 0 < width → width ≤ 9 → n < 10 ^ width → n * 10 ^ (9 - width) = nanos →
        ∃ o, (optional fraction).run ('.' :: (padded width n ++ rest)) = some (o, rest) ∧
          o.getD 0 = nanos := by
      intro width n positive short fits value
      exact ⟨_, optional_run_some (fraction_run width n positive short fits stops), value⟩
    split
    · exact shown 3 (nanos / 1000000) (by decide) (by decide) (by omega) (by omega)
    · split
      · exact shown 6 (nanos / 1000) (by decide) (by decide) (by omega) (by omega)
      · exact shown 9 nanos (by decide) (by decide) (by omega) (by omega)

/-- An instant as the readers give it: in a year that can be read, within a day, and in a leap
second only at the end of a minute. -/
structure Regular (t : Timestamp) : Prop where
  year : CivilDate.minYear ≤ (CivilDate.ofDays t.day).year ∧
    (CivilDate.ofDays t.day).year ≤ CivilDate.maxYear
  second : t.second < secondsPerDay
  nanos : t.nanos < 2 * nanosPerSecond
  leap : nanosPerSecond ≤ t.nanos → t.second % 60 = 59

/-- The second of the minute as it is written, a leap second being the sixtieth. -/
def shownSecond (t : Timestamp) : Nat := t.second % 60 + if t.inLeapSecond then 1 else 0

def shownNanos (t : Timestamp) : Nat := t.nanos - if t.inLeapSecond then nanosPerSecond else 0

theorem timeOfDay_run {t : Timestamp} (regular : t.Regular)
    (stops : ∀ c ∈ rest.head?, Text.isDigit c = false) (point : rest.head? ≠ some '.') :
    timeOfDay.run (padded 2 (t.second / 3600) ++ ':' :: (padded 2 (t.second / 60 % 60) ++
      ':' :: (padded 2 t.shownSecond ++ (fractionText t.shownNanos ++ rest)))) =
        some ((t.second, t.nanos), rest) := by
  have colon : isBlank ':' = false := by decide
  have second := regular.second
  have nanos := regular.nanos
  have leap := regular.leap
  unfold secondsPerDay at second
  have hour : t.second / 3600 < 24 := by omega
  have minute : t.second / 60 % 60 < 60 := by omega
  have parts : t.second / 3600 * 3600 + t.second / 60 % 60 * 60 + t.second % 60 = t.second := by
    omega
  have within : t.shownNanos < nanosPerSecond := by
    unfold shownNanos inLeapSecond
    split
    · omega
    · simp_all
  have shown : t.shownSecond < 10 ^ 2 := by
    unfold shownSecond
    split <;> omega
  obtain ⟨o, read, value⟩ := fractionText_run within stops point
  rw [timeOfDay, run_bind_of (blanks_padded _),
    run_bind_of (digitsUpTo_padded (by decide) (by omega) _), run_bind_of (mark_run colon _),
    run_bind_of (blanks_padded _), run_bind_of (digitsUpTo_padded (by decide) (by omega) _),
    run_bind_of (mark_run colon _), run_bind_of (blanks_padded _),
    run_bind_of (digitsUpTo_padded (by decide) shown _), run_bind_of read]
  simp only [value, hour, minute, true_and]
  by_cases late : nanosPerSecond ≤ t.nanos
  · have sixty : t.shownSecond = 60 := by simp [shownSecond, inLeapSecond, late, leap late]
    have rest : nanosPerSecond + t.shownNanos = t.nanos := by
      simp only [shownNanos, inLeapSecond, late, decide_true, if_true]
      omega
    have last := leap late
    rw [if_neg (by omega), if_pos sixty, rest, ← last, parts]
    rfl
  · have plain : t.shownSecond = t.second % 60 := by simp [shownSecond, inLeapSecond, late]
    have whole : t.shownNanos = t.nanos := by simp [shownNanos, inLeapSecond, late]
    rw [if_pos (by omega), plain, whole, parts]
    rfl

theorem instant_run {t : Timestamp} (regular : t.Regular) :
    instant.run (yearText (CivilDate.ofDays t.day).year ++
      '-' :: (padded 2 (CivilDate.ofDays t.day).month ++
        '-' :: (padded 2 (CivilDate.ofDays t.day).day ++
          'T' :: (padded 2 (t.second / 3600) ++ ':' :: (padded 2 (t.second / 60 % 60) ++
            ':' :: (padded 2 t.shownSecond ++ (fractionText t.shownNanos ++ ['Z']))))))) =
      some (t, []) := by
  obtain ⟨month1, month12, day1, dayLast⟩ := CivilDate.ofDays_inCalendar t.day
  have length :=
    CivilDate.daysInMonth_le (CivilDate.ofDays t.day).year (CivilDate.ofDays t.day).month
  have valid : (CivilDate.ofDays t.day).isValid = true := by
    simp [CivilDate.isValid, regular.year, month1, month12, day1, dayLast]
  have letterT : ('T' == 'T' || 'T' == 't' || 'T' == ' ') = true := by decide
  have zoned : zone.run ['Z'] = some (0, []) := rfl
  have noDigit : ∀ c ∈ ['Z'].head?, Text.isDigit c = false := by
    rintro c ⟨⟩
    decide
  have solid : ∀ c ∈ ['Z'].head?, isBlank c = false := by
    rintro c ⟨⟩
    decide
  have within : ((t.second : Int) - 0) / secondsPerDay = 0 ∧
      ((t.second : Int) - 0) % secondsPerDay = t.second := by
    have second := regular.second
    unfold secondsPerDay at second ⊢
    omega
  rw [instant, run_bind_of (date_run valid (by omega) (by omega) _),
    run_bind_of (satisfy_run (q := fun c => c == 'T' || c == 't' || c == ' ') letterT _),
    run_bind_of (timeOfDay_run regular noDigit (by decide)),
    run_bind_of (blanks_run solid), run_bind_of zoned, run_bind_of (blanks_run (by simp))]
  simp only [within, CivilDate.toDays_ofDays, Int.add_zero, Int.toNat_natCast]
  rw [if_pos regular.year]
  rfl

/-- The text of an instant is read as that instant. -/
theorem ofText?_utcText {t : Timestamp} (regular : t.Regular) : ofText? t.utcText = some t := by
  have read := instant_run regular
  have shown : t.utcText.toList = yearText (CivilDate.ofDays t.day).year ++
      '-' :: (padded 2 (CivilDate.ofDays t.day).month ++
        '-' :: (padded 2 (CivilDate.ofDays t.day).day ++
          'T' :: (padded 2 (t.second / 3600) ++ ':' :: (padded 2 (t.second / 60 % 60) ++
            ':' :: (padded 2 t.shownSecond ++ (fractionText t.shownNanos ++ ['Z'])))))) := by
    unfold utcText text shownSecond shownNanos
    cases t.inLeapSecond <;> simp
  rw [ofText?, run?, shown, run_bind_of read]
  rfl

/-! What is read is regular. -/

theorem digitsValue_lt {ds : List Char} (digits : ∀ c ∈ ds, Text.isDigit c = true) :
    digitsValue ds < 10 ^ ds.length := by
  induction ds using List.reverseRecOn with
  | nil => decide
  | append_singleton ds c ih =>
    have early := ih fun d member => digits d (List.mem_append_left _ member)
    have last := digits c (List.mem_append_right _ (List.mem_singleton_self c))
    simp only [Text.isDigit, Bool.and_eq_true, decide_eq_true_eq] at last
    have most : c.toNat ≤ 57 := last.2
    have value : digitValue c ≤ 9 := by
      change c.toNat - 48 ≤ 9
      omega
    rw [digitsValue_concat, List.length_append, List.length_singleton, Nat.pow_succ]
    omega

theorem fraction_lt {cs rest : List Char} {n : Nat} (read : fraction.run cs = some (n, rest)) :
    n < nanosPerSecond := by
  obtain ⟨_, _, _, read⟩ := run_bind_iff.mp read
  obtain ⟨ds, _, digits, read⟩ := run_bind_iff.mp read
  cases read
  have inside : ∀ c ∈ ds.take 9, Text.isDigit c = true := fun c member =>
    span1_inside digits c (List.mem_of_mem_take member)
  have length : (ds.take 9).length ≤ 9 := List.length_take_le 9 ds
  calc digitsValue (ds.take 9) * Nat.pow 10 (9 - (ds.take 9).length)
      < 10 ^ (ds.take 9).length * 10 ^ (9 - (ds.take 9).length) :=
        Nat.mul_lt_mul_of_pos_right (digitsValue_lt inside) (Nat.pow_pos (by decide))
    _ = nanosPerSecond := by
        rw [← Nat.pow_add, Nat.add_sub_cancel' length]
        rfl

theorem timeOfDay_regular {cs rest : List Char} {s nanos : Nat}
    (read : timeOfDay.run cs = some ((s, nanos), rest)) :
    s < secondsPerDay ∧ nanos < 2 * nanosPerSecond ∧ (nanosPerSecond ≤ nanos → s % 60 = 59) := by
  obtain ⟨_, _, _, read⟩ := run_bind_iff.mp read
  obtain ⟨h, _, _, read⟩ := run_bind_iff.mp read
  obtain ⟨_, _, _, read⟩ := run_bind_iff.mp read
  obtain ⟨_, _, _, read⟩ := run_bind_iff.mp read
  obtain ⟨m, _, _, read⟩ := run_bind_iff.mp read
  obtain ⟨_, _, _, read⟩ := run_bind_iff.mp read
  obtain ⟨_, _, _, read⟩ := run_bind_iff.mp read
  obtain ⟨second, _, _, read⟩ := run_bind_iff.mp read
  obtain ⟨o, _, taken, read⟩ := run_bind_iff.mp read
  have below : o.getD 0 < nanosPerSecond := by
    rcases optional_run_cases taken with rfl | ⟨n, rfl, digits⟩
    · decide
    · exact fraction_lt digits
  unfold secondsPerDay
  simp only at read
  split at read
  · cases read
    omega
  · split at read
    · cases read
      omega
    · cases read

theorem zone_minutes {cs rest : List Char} {offset : Int}
    (read : zone.run cs = some (offset, rest)) : offset % 60 = 0 := by
  rcases run_orElse_cases read with utc | read
  · obtain ⟨_, _, _, utc⟩ := run_bind_iff.mp utc
    obtain ⟨_, _, _, utc⟩ := run_bind_iff.mp utc
    obtain ⟨_, _, _, utc⟩ := run_bind_iff.mp utc
    cases utc
    rfl
  · rcases run_orElse_cases read with zulu | figures
    · obtain ⟨_, _, _, zulu⟩ := run_bind_iff.mp zulu
      cases zulu
      rfl
    · obtain ⟨_, _, _, figures⟩ := run_bind_iff.mp figures
      obtain ⟨h, _, _, figures⟩ := run_bind_iff.mp figures
      obtain ⟨_, _, _, figures⟩ := run_bind_iff.mp figures
      obtain ⟨m, _, _, figures⟩ := run_bind_iff.mp figures
      simp only at figures
      split at figures
      · cases figures
        split <;> omega
      · cases figures

theorem instant_regular {cs rest : List Char} {t : Timestamp}
    (read : instant.run cs = some (t, rest)) : t.Regular := by
  obtain ⟨d, _, _, read⟩ := run_bind_iff.mp read
  obtain ⟨_, _, _, read⟩ := run_bind_iff.mp read
  obtain ⟨⟨s, nanos⟩, _, time, read⟩ := run_bind_iff.mp read
  obtain ⟨_, _, _, read⟩ := run_bind_iff.mp read
  obtain ⟨offset, _, zoned, read⟩ := run_bind_iff.mp read
  obtain ⟨_, _, _, read⟩ := run_bind_iff.mp read
  obtain ⟨_, within, leap⟩ := timeOfDay_regular time
  have minutes := zone_minutes zoned
  simp only at read
  split at read
  · rename_i range
    have second : (((s : Int) - offset) % secondsPerDay).toNat < secondsPerDay := by
      unfold secondsPerDay
      omega
    have sixty : s % 60 = 59 → (((s : Int) - offset) % secondsPerDay).toNat % 60 = 59 := by
      unfold secondsPerDay
      omega
    cases read
    exact ⟨range, second, within, fun late => sixty (leap late)⟩
  · cases read

theorem ofText?_regular {s : String} {t : Timestamp} (read : ofText? s = some t) : t.Regular := by
  obtain ⟨⟨u, rest⟩, whole, same⟩ := Option.map_eq_some_iff.mp read
  obtain ⟨v, _, first, finish⟩ := run_bind_iff.mp whole
  obtain ⟨_, _, _, last⟩ := run_bind_iff.mp finish
  cases last
  cases same
  exact instant_regular first

theorem codec_stable : codec.Stable := by
  intro j t read
  cases j <;> simp only [codec, reduceCtorEq] at read ⊢
  exact ofText?_utcText (ofText?_regular read)

end Timestamp

end SchoolTimetable

import Mathlib.Data.List.DropRight
import SchoolTimetable.Text.Blank
import SchoolTimetable.Text.Integer

/-!
Texts with white space around them, and whole numbers as they are written. Trimming takes off what
stands around a token and leaves the token; the readers of numbers accept the digits that make up a
number, with a sign before them if there is one, and nothing else.
-/
namespace SchoolTimetable.Text

/-! Trimming. -/

theorem trimStart_around {c : Char} (solid : isBlank c = false) (a b : List Char) :
    trimStart (a ++ c :: b) = trimStart a ++ c :: b := by
  induction a with
  | nil => simp [trimStart, solid]
  | cons x a ih =>
    cases blank : isBlank x with
    | true => simpa [trimStart, blank] using ih
    | false => simp [trimStart, blank]

theorem trimEnd_around {c : Char} (solid : isBlank c = false) (a b : List Char) :
    trimEnd (a ++ c :: b) = a ++ c :: trimEnd b := by
  simp [trimEnd, trimStart_around solid]

theorem exists_solid {cs : List Char} (nonblank : cs.all isBlank = false) :
    ∃ a c b, cs = a ++ c :: b ∧ isBlank c = false := by
  obtain ⟨c, member, solid⟩ := List.all_eq_false.mp nonblank
  obtain ⟨a, b, split⟩ := List.append_of_mem member
  exact ⟨a, c, b, split, Bool.eq_false_iff.mpr solid⟩

theorem trimEnd_trimStart (cs : List Char) : trimEnd (trimStart cs) = trimStart (trimEnd cs) := by
  cases blank : cs.all isBlank with
  | true =>
    have reversed : cs.reverse.all isBlank = true := by rwa [List.all_reverse]
    rw [trimStart_eq_nil_iff.mpr blank, trimEnd, trimEnd, trimStart_eq_nil_iff.mpr reversed]
    rfl
  | false =>
    obtain ⟨a, c, b, rfl, solid⟩ := exists_solid blank
    rw [trimStart_around solid, trimEnd_around solid, trimEnd_around solid,
      trimStart_around solid]

theorem trimStart_trimStart (cs : List Char) : trimStart (trimStart cs) = trimStart cs :=
  List.dropWhile_idempotent isBlank cs

theorem trimEnd_trimEnd (cs : List Char) : trimEnd (trimEnd cs) = trimEnd cs :=
  List.rdropWhile_idempotent isBlank cs

theorem trimChars_trimStart (cs : List Char) : trimChars (trimStart cs) = trimChars cs := by
  rw [trimChars, trimStart_trimStart, trimChars]

theorem trimChars_trimEnd (cs : List Char) : trimChars (trimEnd cs) = trimChars cs := by
  rw [trimChars, ← trimEnd_trimStart, trimEnd_trimEnd, trimChars]

theorem trimChars_trimChars (cs : List Char) : trimChars (trimChars cs) = trimChars cs := by
  rw [show trimChars (trimChars cs) = trimChars (trimEnd (trimStart cs)) from rfl, trimChars_trimEnd,
    trimChars_trimStart]

theorem trim_trim (s : String) : trim (trim s) = trim s := by
  rw [trim, trim, String.toList_ofList, trimChars_trimChars]

/-! Tokens with white space around them. -/

def Padded (token cs : List Char) : Prop :=
  ∃ before after, before.all isBlank = true ∧ after.all isBlank = true ∧
    cs = before ++ (token ++ after)

theorem trimStart_append {before : List Char} (blank : before.all isBlank = true)
    (cs : List Char) : trimStart (before ++ cs) = trimStart cs :=
  List.dropWhile_append_of_pos (List.all_eq_true.mp blank)

theorem trimEnd_append {after : List Char} (blank : after.all isBlank = true)
    (cs : List Char) : trimEnd (cs ++ after) = trimEnd cs := by
  rw [trimEnd, List.reverse_append, trimStart_append (by rwa [List.all_reverse]), trimEnd]

theorem exists_trimStart (cs : List Char) :
    ∃ before, before.all isBlank = true ∧ cs = before ++ trimStart cs :=
  ⟨cs.takeWhile isBlank, List.all_takeWhile, List.takeWhile_append_dropWhile.symm⟩

theorem padded_trimChars (cs : List Char) : Padded (trimChars cs) cs := by
  obtain ⟨before, blank, first⟩ := exists_trimStart cs
  obtain ⟨after, blank', last⟩ := exists_trimStart (trimStart cs).reverse
  refine ⟨before, after.reverse, blank, by rwa [List.all_reverse], ?_⟩
  have ends : trimStart cs = trimChars cs ++ after.reverse := by
    rw [← List.reverse_reverse (trimStart cs), last, List.reverse_append]
    rfl
  rw [← ends]
  exact first

theorem trimChars_solid {token : List Char} (solid : ∀ c ∈ token, isBlank c = false) :
    trimChars token = token := by
  have start : ∀ cs : List Char, (∀ c ∈ cs, isBlank c = false) → trimStart cs = cs := by
    intro cs solid
    cases cs with
    | nil => rfl
    | cons c rest => simp [trimStart, solid c List.mem_cons_self]
  have ends := start token.reverse fun c member => solid c (List.mem_reverse.mp member)
  rw [trimChars, start token solid, trimEnd, ends, List.reverse_reverse]

theorem Padded.trimChars_eq {token cs : List Char} (padded : Padded token cs) :
    trimChars cs = trimChars token := by
  obtain ⟨before, after, blank, blank', rfl⟩ := padded
  rw [trimChars, trimStart_append blank, trimEnd_trimStart, trimEnd_append blank',
    ← trimEnd_trimStart, trimChars]

def Spelled (kind : List Char → Prop) (cs : List Char) : Prop :=
  ∃ token, kind token ∧ Padded token cs

theorem spelled_iff {kind : List Char → Prop}
    (solid : ∀ token, kind token → ∀ c ∈ token, isBlank c = false) {cs : List Char} :
    Spelled kind cs ↔ kind (trimChars cs) := by
  constructor
  · intro h
    obtain ⟨token, spelt, padded⟩ := h
    rwa [padded.trimChars_eq, trimChars_solid (solid token spelt)]
  · intro spelt
    exact ⟨_, spelt, padded_trimChars cs⟩

theorem Spelled.not_mem {kind : List Char → Prop} {cs : List Char} (spelled : Spelled kind cs)
    {c : Char} (solid : isBlank c = false) (foreign : ∀ token, kind token → c ∉ token) :
    c ∉ cs := by
  obtain ⟨token, spelt, before, after, blank, blank', rfl⟩ := spelled
  intro member
  rcases List.mem_append.mp member with first | member
  · simp [List.all_eq_true.mp blank c first] at solid
  · rcases List.mem_append.mp member with here | last
    · exact foreign token spelt here
    · simp [List.all_eq_true.mp blank' c last] at solid

/-! Whole numbers. -/

inductive Digits : List Char → Nat → Prop where
  | one {c : Char} (digit : isDigit c = true) : Digits [c] (digitValue c)
  | more {cs : List Char} {n : Nat} {c : Char} (before : Digits cs n)
      (digit : isDigit c = true) : Digits (cs ++ [c]) (10 * n + digitValue c)

theorem digitsValue_concat (cs : List Char) (c : Char) :
    digitsValue (cs ++ [c]) = 10 * digitsValue cs + digitValue c := by
  simp [digitsValue]

theorem digits_digitsValue {cs : List Char} (nonempty : cs ≠ []) (digits : cs.all isDigit = true) :
    Digits cs (digitsValue cs) := by
  induction cs using List.reverseRecOn with
  | nil => exact absurd rfl nonempty
  | append_singleton cs c ih =>
    simp only [List.all_append, List.all_cons, List.all_nil, Bool.and_true,
      Bool.and_eq_true] at digits
    rw [digitsValue_concat]
    cases cs with
    | nil => simpa [digitsValue] using Digits.one digits.2
    | cons d rest => exact .more (ih (List.cons_ne_nil d rest) digits.1) digits.2

theorem digits?_eq_some_iff {cs : List Char} {n : Nat} : digits? cs = some n ↔ Digits cs n := by
  constructor
  · intro read
    unfold digits? at read
    split at read
    · rename_i h
      obtain rfl := Option.some.inj read
      exact digits_digitsValue h.1 h.2
    · cases read
  · intro digits
    induction digits with
    | one digit => simp [digits?, digit, digitsValue]
    | @more cs n c _ digit ih =>
      unfold digits? at ih ⊢
      split at ih
      · rename_i h
        obtain rfl := Option.some.inj ih
        simp [h.2, digit, digitsValue_concat]
      · cases ih

inductive Numeral : List Char → Nat → Prop where
  | plain {cs : List Char} {n : Nat} (digits : Digits cs n) : Numeral cs n
  | signed {cs : List Char} {n : Nat} (digits : Digits cs n) : Numeral ('+' :: cs) n

theorem Digits.isDigit {cs : List Char} {n : Nat} (digits : Digits cs n) :
    ∀ c ∈ cs, isDigit c = true := by
  induction digits with
  | one digit => simpa using digit
  | more _ digit ih =>
    intro c member
    rcases List.mem_append.mp member with early | last
    · exact ih c early
    · rw [List.mem_singleton.mp last]
      exact digit

theorem not_digits_cons {c : Char} (other : isDigit c = false) (cs : List Char) (n : Nat) :
    ¬ Digits (c :: cs) n := by
  intro digits
  rw [digits.isDigit c List.mem_cons_self] at other
  cases other

theorem numeral_signed_iff {cs : List Char} {n : Nat} : Numeral ('+' :: cs) n ↔ Digits cs n := by
  constructor
  · intro numeral
    cases numeral with
    | plain digits => exact absurd digits (not_digits_cons (by decide) cs n)
    | signed digits => exact digits
  · exact .signed

theorem numeral_iff_digits {cs : List Char} {n : Nat} (unsigned : ∀ r, cs ≠ '+' :: r) :
    Numeral cs n ↔ Digits cs n := by
  constructor
  · intro numeral
    cases numeral with
    | plain digits => exact digits
    | signed digits => exact absurd rfl (unsigned _)
  · exact .plain

theorem natural?_eq_some_iff {bits : Nat} {cs : List Char} {n : Nat} :
    natural? bits cs = some n ↔ Numeral cs n ∧ n < wordSize bits := by
  unfold natural?
  split
  · rw [Option.filter_eq_some_iff, digits?_eq_some_iff, numeral_signed_iff, decide_eq_true_eq]
  · rename_i unsigned
    rw [Option.filter_eq_some_iff, digits?_eq_some_iff, numeral_iff_digits unsigned,
      decide_eq_true_eq]

theorem integer?_eq_some_iff {bits : Nat} {cs : List Char} {n : Nat} (positive : 0 < n) :
    integer? bits cs = some (n : Int) ↔ Numeral cs n ∧ n < wordSize (bits - 1) := by
  have fits : (-(wordSize (bits - 1) : Int) ≤ n ∧ (n : Int) < wordSize (bits - 1)) ↔
      n < wordSize (bits - 1) := by
    omega
  have value : ∀ r : List Char,
      (digits? r).map Int.ofNat = some (n : Int) ↔ Digits r n := by
    intro r
    rw [← digits?_eq_some_iff, Option.map_eq_some_iff]
    constructor
    · intro h
      obtain ⟨m, read, same⟩ := h
      rw [read, Int.ofNat.inj same]
    · intro read
      exact ⟨n, read, rfl⟩
  unfold integer?
  rw [Option.filter_eq_some_iff, decide_eq_true_eq, fits]
  split
  · rw [value, numeral_signed_iff]
  · rename_i r
    have negative : ∀ m : Nat, -Int.ofNat m ≠ (n : Int) := by
      intro m same
      rw [Int.ofNat_eq_natCast] at same
      omega
    simp only [Option.map_eq_some_iff, negative, and_false, exists_false, false_and, false_iff]
    intro h
    cases h.1 with
    | plain digits => exact not_digits_cons (by decide) r n digits
  · rename_i unsigned _
    rw [value, numeral_iff_digits unsigned]

theorem Numeral.chars {cs : List Char} {n : Nat} (numeral : Numeral cs n) :
    ∀ c ∈ cs, c = '+' ∨ isDigit c = true := by
  intro c member
  cases numeral with
  | plain digits => exact Or.inr (digits.isDigit c member)
  | signed digits =>
    rcases List.mem_cons.mp member with plus | digit
    · exact Or.inl plus
    · exact Or.inr (digits.isDigit c digit)

theorem isBlank_of_isDigit {c : Char} (digit : isDigit c = true) : isBlank c = false := by
  simp only [isDigit, Bool.and_eq_true, decide_eq_true_eq] at digit
  have least : 48 ≤ c.toNat := digit.1
  have most : c.toNat ≤ 57 := digit.2
  simp [isBlank]
  omega

theorem Numeral.solid {cs : List Char} {n : Nat} (numeral : Numeral cs n) :
    ∀ c ∈ cs, isBlank c = false := by
  intro c member
  rcases numeral.chars c member with rfl | digit
  · decide
  · exact isBlank_of_isDigit digit

theorem integer?_eq_none {bits : Nat} {c : Char} (plus : c ≠ '+') (minus : c ≠ '-')
    (digit : isDigit c = false) (cs : List Char) : integer? bits (c :: cs) = none := by
  have unread : digits? (c :: cs) = none := by simp [digits?, digit]
  unfold integer?
  split
  · rename_i same
    exact absurd (List.cons.inj same).1 plus
  · rename_i same
    exact absurd (List.cons.inj same).1 minus
  · rw [unread]
    rfl

end SchoolTimetable.Text

/-!
White space in the sense of the Unicode property `White_Space`, and texts without it at the ends.
-/
namespace SchoolTimetable.Text

/-- The characters with the property `White_Space`. -/
def isBlank (c : Char) : Bool :=
  let n := c.toNat
  (9 ≤ n && n ≤ 13) || n == 0x20 || n == 0x85 || n == 0xA0 || n == 0x1680 ||
    (0x2000 ≤ n && n ≤ 0x200A) || n == 0x2028 || n == 0x2029 || n == 0x202F || n == 0x205F ||
    n == 0x3000

theorem isBlank_of_isWhitespace {c : Char} (h : c.isWhitespace = true) : isBlank c = true := by
  simp only [Char.isWhitespace, Bool.or_eq_true, decide_eq_true_eq] at h
  rcases h with ((rfl | rfl) | rfl) | rfl <;> decide

example : isBlank '\u200b' = false ∧ isBlank '\ufeff' = false ∧ isBlank '\x1c' = false := by decide

def trimStart (cs : List Char) : List Char := cs.dropWhile isBlank

def trimEnd (cs : List Char) : List Char := (trimStart cs.reverse).reverse

def trimChars (cs : List Char) : List Char := trimEnd (trimStart cs)

def trim (s : String) : String := String.ofList (trimChars s.toList)

/-- True of texts that are empty or hold white space only. -/
def blank (s : String) : Bool := s.toList.all isBlank

theorem trimStart_eq_nil_iff {cs : List Char} : trimStart cs = [] ↔ cs.all isBlank = true := by
  induction cs with
  | nil => simp [trimStart]
  | cons c r ih =>
    simp only [trimStart, List.dropWhile_cons, List.all_cons, Bool.and_eq_true] at *
    split <;> simp_all

theorem trimChars_eq_nil_iff {cs : List Char} : trimChars cs = [] ↔ cs.all isBlank = true := by
  constructor
  · intro h
    have h' : (trimStart cs).all isBlank = true := by
      have := trimStart_eq_nil_iff.mp (List.reverse_eq_nil_iff.mp h)
      simpa using this
    cases hc : trimStart cs with
    | nil => exact trimStart_eq_nil_iff.mp hc
    | cons c r =>
      have hb : isBlank c = false := by
        have := List.head?_dropWhile_not isBlank cs
        rw [show cs.dropWhile isBlank = c :: r from hc] at this
        simpa using this
      simp [hc, hb] at h'
  · intro h
    rw [trimChars, trimStart_eq_nil_iff.mpr h]
    rfl

theorem blank_iff_trim_eq {s : String} : blank s = true ↔ trim s = "" := by
  rw [trim, blank, ← trimChars_eq_nil_iff]
  constructor
  · intro h; rw [h]
  · intro h
    have := congrArg String.toList h
    simpa using this

end SchoolTimetable.Text

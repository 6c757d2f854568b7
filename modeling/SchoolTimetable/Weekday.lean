import SchoolTimetable.Text.Blank
import SchoolTimetable.Text.Integer

/-!
Weekdays are numbered from 1, Monday, to 7, Sunday. A weekday is written as its number, as its
English name, or as the first three letters of that name; the case of ASCII letters is free.
-/
namespace SchoolTimetable.Weekday

def first : Nat := 1
def last : Nat := 7

def names : List String :=
  ["MONDAY", "TUESDAY", "WEDNESDAY", "THURSDAY", "FRIDAY", "SATURDAY", "SUNDAY"]

def isValid (d : Int) : Bool := (first : Int) ≤ d && d ≤ (last : Int)

/-- The weekdays among `ds`, ascending and each once. -/
def normalize (ds : List Int) : List Nat :=
  (List.range' first last).filter fun d => ds.contains (d : Int)

theorem isValid_iff {d : Int} : isValid d = true ↔ 1 ≤ d ∧ d ≤ 7 := by
  rw [isValid, Bool.and_eq_true, decide_eq_true_iff, decide_eq_true_iff]
  rfl

theorem mem_normalize_iff {ds : List Int} {d : Nat} :
    d ∈ normalize ds ↔ isValid d = true ∧ (d : Int) ∈ ds := by
  simp only [normalize, first, last, isValid_iff, List.mem_filter, List.mem_range'_1,
    List.contains_iff_mem]
  constructor <;> rintro ⟨h, hm⟩ <;> exact ⟨by omega, hm⟩

theorem normalize_sorted (ds : List Int) : (normalize ds).Pairwise (· < ·) :=
  List.Pairwise.filter _ (List.pairwise_lt_range' 1)

/-- Numbers outside the week are called by the first name. -/
def name (d : Nat) : String := if isValid d then names.getD (d - 1) "MONDAY" else "MONDAY"

def upperAscii (c : Char) : Char :=
  if 'a' ≤ c ∧ c ≤ 'z' then Char.ofNat (c.toNat - 32) else c

def ofName? (cs : List Char) : Option Nat :=
  let upper := cs.map upperAscii
  (names.findIdx? fun n =>
    n.toList == upper || (upper.length == 3 && upper.isPrefixOf n.toList)).map (· + 1)

def parse? (raw : List Char) : Option Nat :=
  let body := Text.trimChars raw
  match Text.integer? 64 body with
  | some n => if isValid n then some n.toNat else none
  | none => ofName? body

end SchoolTimetable.Weekday

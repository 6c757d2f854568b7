import SchoolTimetable.Cell
import SchoolTimetable.Weekday

/-!
Window expressions name cells of the week: a weekday alone is the whole day, a weekday, a colon
and a slot is one cell, and two slots joined by a hyphen are the cells from the one to the other.
White space is free around every part. Cells outside the grid are left out.
-/
namespace SchoolTimetable

inductive WindowError where
  | empty
  | unknownDay (text : String)
  | invalidRange (text : String)
  deriving DecidableEq, Repr

namespace WindowError

def message : WindowError → String
  | empty => "empty window"
  | unknownDay t => s!"unknown day '{t}'"
  | invalidRange t => s!"invalid slot range '{t}'"

end WindowError

namespace Window

/-- The texts before and after the first `sep`. -/
def splitOnce (sep : Char) : List Char → Option (List Char × List Char)
  | [] => none
  | c :: r => if c = sep then some ([], r) else (splitOnce sep r).map fun p => (c :: p.1, p.2)

theorem splitOnce_eq_some_iff {sep : Char} {cs a b : List Char} :
    splitOnce sep cs = some (a, b) ↔ cs = a ++ sep :: b ∧ sep ∉ a := by
  induction cs generalizing a with
  | nil => simp [splitOnce]
  | cons c r ih =>
    by_cases h : c = sep
    · subst h
      cases a with
      | nil => simp [splitOnce]
      | cons x a => simp [splitOnce]; grind
    · cases a with
      | nil => simp [splitOnce, h]
      | cons x a =>
        simp only [splitOnce, h, if_false, Option.map_eq_some_iff, Prod.mk.injEq,
          List.cons_append, List.cons.injEq, List.mem_cons, not_or]
        constructor
        · rintro ⟨⟨p, q⟩, hp, ⟨rfl, rfl⟩, rfl⟩
          obtain ⟨rfl, hn⟩ := ih.mp hp
          exact ⟨⟨rfl, rfl⟩, fun e => h e.symm, hn⟩
        · rintro ⟨⟨rfl, rfl⟩, _, hn⟩
          exact ⟨(a, b), ih.mpr ⟨rfl, hn⟩, ⟨rfl, rfl⟩, rfl⟩

/-- The first and the last slot of a range; a single slot is both. -/
def range? (cs : List Char) : Option (Nat × Nat) := do
  let (a, b) := match splitOnce '-' cs with
    | some (a, b) => (Text.trimChars a, Text.trimChars b)
    | none => (cs, cs)
  let start ← Text.natural? 32 a
  let stop ← Text.natural? 32 b
  if start ≤ stop then some (start, stop) else none

def cellsBetween (day start stop : Nat) : List Cell :=
  (List.range' start (stop + 1 - start)).map fun s => ⟨day, s⟩

theorem mem_cellsBetween_iff {day start stop : Nat} {c : Cell} :
    c ∈ cellsBetween day start stop ↔ c.day = day ∧ start ≤ c.slot ∧ c.slot ≤ stop := by
  simp only [cellsBetween, List.mem_map, List.mem_range'_1]
  constructor
  · rintro ⟨s, h, rfl⟩; simp; omega
  · rintro ⟨rfl, h⟩; exact ⟨c.slot, by omega, rfl⟩

/-- The cells that a window expression names in a grid of `slots` slots a day. -/
def parse (raw : String) (slots : Nat) : Except WindowError (List Cell) :=
  let body := Text.trimChars raw.toList
  if body = [] then .error .empty
  else
    let (dayPart, rangePart) := match splitOnce ':' body with
      | some (d, r) => (d, some (Text.trimChars r))
      | none => (body, none)
    match Weekday.parse? dayPart with
    | none => .error (.unknownDay (String.ofList (Text.trimChars dayPart)))
    | some day =>
      match rangePart with
      | none => .ok (cellsBetween day 1 slots)
      | some r =>
        match range? r with
        | none => .error (.invalidRange (String.ofList r))
        | some (start, stop) => .ok (cellsBetween day (max start 1) (min stop slots))

end Window

end SchoolTimetable

import SchoolTimetable.Weekday
import SchoolTimetable.Proofs.Text

/-!
The words for the days of the week. The reader of days accepts exactly these, with white space
around them, and no word is the name of two days.
-/
namespace SchoolTimetable.Weekday
open Text

theorem upperAscii_eq (c : Char) : upperAscii c = c.toUpper := by
  unfold upperAscii Char.toUpper
  by_cases small : 'a' ≤ c ∧ c ≤ 'z'
  · have least : 97 ≤ c.toNat := small.1
    have most : c.toNat ≤ 122 := small.2
    have valid : (c.toNat - 32).isValidChar := Or.inl (by omega)
    have here : 'a'.val ≤ c.val ∧ c.val ≤ 'z'.val := small
    rw [dif_pos here, if_pos small, Char.ofNat, dif_pos valid]
    apply Char.toNat_inj.mp
    -- the difference of the two alphabets is below zero, so adding it wraps around
    change c.toNat - 32 = (c.val + ('A'.val - 'a'.val)).toNat
    rw [UInt32.toNat_add]
    change c.toNat - 32 = (c.toNat + 4294967264) % 4294967296
    omega
  · have there : ¬ ('a'.val ≤ c.val ∧ c.val ≤ 'z'.val) := small
    rw [dif_neg there, if_neg small]

def Names (cs : List Char) (name : String) : Prop :=
  cs.map Char.toUpper = name.toList ∨ cs.map Char.toUpper = name.toList.take 3

inductive Called : List Char → Nat → Prop where
  | number {cs : List Char} {d : Nat} (numeral : Numeral cs d) (valid : 1 ≤ d ∧ d ≤ 7) :
    Called cs d
  | name {cs : List Char} {i : Nat} {name : String} (listed : names[i]? = some name)
      (called : Names cs name) : Called cs (i + 1)

theorem Names.take {cs : List Char} {name : String} (called : Names cs name) :
    (cs.map Char.toUpper).take 3 = name.toList.take 3 := by
  rcases called with whole | short
  · rw [whole]
  · rw [short, List.take_take]
    rfl

theorem Names.unique {cs : List Char} {i j : Nat} {v w : String} (first : names[i]? = some v)
    (second : names[j]? = some w) (called : Names cs v) (called' : Names cs w) : i = j := by
  have apart : (names.map (·.toList.take 3)).Nodup := by decide +kernel
  have some : i < (names.map (·.toList.take 3)).length := by
    rw [List.length_map]
    exact (List.getElem?_eq_some_iff.mp first).1
  apply (List.getElem?_inj some apart).mp
  rw [List.getElem?_map, List.getElem?_map, first, second, Option.map_some, Option.map_some,
    ← called.take, ← called'.take]

theorem names_test_iff {cs : List Char} {name : String} (listed : name ∈ names) :
    (name.toList == cs.map upperAscii || ((cs.map upperAscii).length == 3 &&
      (cs.map upperAscii).isPrefixOf name.toList)) = true ↔ Names cs name := by
  have long : ∀ name ∈ names, 3 ≤ name.toList.length := by decide +kernel
  have three := long name listed
  rw [show upperAscii = Char.toUpper from funext upperAscii_eq, Bool.or_eq_true,
    Bool.and_eq_true, beq_iff_eq, beq_iff_eq, List.isPrefixOf_iff_prefix, Names]
  constructor
  · rintro (whole | ⟨length, front⟩)
    · exact Or.inl whole.symm
    · exact Or.inr (length ▸ List.prefix_iff_eq_take.mp front)
  · rintro (whole | short)
    · exact Or.inl whole.symm
    · rw [short]
      refine Or.inr ⟨?_, List.take_prefix 3 _⟩
      rw [List.length_take]
      omega

theorem ofName?_eq_some_iff {cs : List Char} {d : Nat} :
    ofName? cs = some d ↔ ∃ i name, names[i]? = some name ∧ Names cs name ∧ d = i + 1 := by
  unfold ofName?
  simp only [Option.map_eq_some_iff, List.findIdx?_eq_some_iff_getElem]
  constructor
  · rintro ⟨i, ⟨here, fits, _⟩, same⟩
    exact ⟨i, names[i], List.getElem?_eq_getElem here,
      (names_test_iff (List.getElem_mem here)).mp fits, same.symm⟩
  · rintro ⟨i, name, listed, called, same⟩
    obtain ⟨here, rfl⟩ := List.getElem?_eq_some_iff.mp listed
    refine ⟨i, ⟨here, (names_test_iff (List.getElem_mem here)).mpr called, ?_⟩, same.symm⟩
    intro j earlier fits
    have there : j < names.length := Nat.lt_trans earlier here
    have called' := (names_test_iff (List.getElem_mem there)).mp fits
    have equal := called'.unique (List.getElem?_eq_getElem there) listed called
    omega

theorem Names.letters {cs : List Char} {name : String} (listed : name ∈ names)
    (called : Names cs name) :
    ∀ c ∈ cs, (65 ≤ c.toNat ∧ c.toNat ≤ 90) ∨ (97 ≤ c.toNat ∧ c.toNat ≤ 122) := by
  intro c member
  have capitals : (names.all fun w => w.toList.all fun u =>
      decide (65 ≤ u.toNat ∧ u.toNat ≤ 90)) = true := by decide +kernel
  have front : cs.map Char.toUpper ⊆ name.toList := by
    rcases called with whole | short
    · exact whole ▸ List.Subset.refl _
    · exact short ▸ (List.take_prefix 3 _).subset
  have upper := List.all_eq_true.mp (List.all_eq_true.mp capitals name listed) c.toUpper
    (front (List.mem_map_of_mem member))
  rw [← upperAscii_eq] at upper
  unfold upperAscii at upper
  split at upper
  · rename_i small
    exact Or.inr small
  · exact Or.inl (decide_eq_true_eq.mp upper)

theorem Names.not_integer {cs : List Char} {name : String} (listed : name ∈ names)
    (called : Names cs name) (bits : Nat) : integer? bits cs = none := by
  cases cs with
  | nil => rfl
  | cons c rest =>
    have letter := called.letters listed c List.mem_cons_self
    have digit : isDigit c = false := by
      by_contra digit
      simp only [isDigit, Bool.not_eq_false, Bool.and_eq_true, decide_eq_true_eq] at digit
      have most : c.toNat ≤ 57 := digit.2
      omega
    apply integer?_eq_none _ _ digit
    · rintro rfl
      revert letter
      decide
    · rintro rfl
      revert letter
      decide

theorem Called.chars {cs : List Char} {d : Nat} (called : Called cs d) :
    ∀ c ∈ cs, isBlank c = false ∧ c ≠ ':' := by
  intro c member
  cases called with
  | number numeral =>
    refine ⟨numeral.solid c member, ?_⟩
    rintro rfl
    have := numeral.chars ':' member
    revert this
    decide
  | name listed called =>
    have letter := called.letters (List.mem_of_getElem? listed) c member
    constructor
    · simp [isBlank]
      omega
    · rintro rfl
      revert letter
      decide

theorem called_iff {cs : List Char} {d : Nat} :
    (match integer? 64 cs with
      | some n => if isValid n then some n.toNat else none
      | none => ofName? cs) = some d ↔ Called cs d := by
  constructor
  · intro read
    split at read
    · rename_i n number
      split at read
      · rename_i valid
        have range := isValid_iff.mp valid
        obtain rfl := Option.some.inj read
        have positive : 0 < n.toNat := by omega
        rw [show n = (n.toNat : Int) by omega] at number
        exact .number ((integer?_eq_some_iff positive).mp number).1 (by omega)
      · cases read
    · obtain ⟨i, name, listed, called, rfl⟩ := ofName?_eq_some_iff.mp read
      exact .name listed called
  · intro called
    cases called with
    | number numeral valid =>
      have small : d < wordSize (64 - 1) := Nat.lt_of_le_of_lt valid.2 (by decide)
      rw [(integer?_eq_some_iff valid.1).mpr ⟨numeral, small⟩]
      simp only
      rw [if_pos (isValid_iff.mpr (by omega))]
      rfl
    | name listed called =>
      rw [called.not_integer (List.mem_of_getElem? listed)]
      exact ofName?_eq_some_iff.mpr ⟨_, _, listed, called, rfl⟩

theorem parse?_eq_some_iff {cs : List Char} {d : Nat} :
    parse? cs = some d ↔ Spelled (Called · d) cs := by
  rw [spelled_iff fun _ called c member => (called.chars c member).1]
  exact called_iff

end SchoolTimetable.Weekday

import SchoolTimetable.Json
import SchoolTimetable.Text.Integer

/-!
Codecs write values as JSON and read them back. A record is written as an object; it is read from
an object, in which unknown fields count for nothing, or from an array of its fields in order.
Main statement: a record codec is stable when its fields are and their names differ.
-/
namespace SchoolTimetable

structure Codec (α : Type) where
  encode : α → Json
  decode : Json → Option α

namespace Codec
variable {α β : Type}

/-- What has been read is read again from its written form. -/
def Stable (c : Codec α) : Prop := ∀ j v, c.decode j = some v → c.decode (c.encode v) = some v

def raw : Codec Json := ⟨id, some⟩

theorem raw_stable : raw.Stable := fun _ _ _ => rfl

def text : Codec String where
  encode := .str
  decode
    | .str s => some s
    | _ => none

theorem text_stable : text.Stable := fun _ _ _ => rfl

def flag : Codec Bool where
  encode := .bool
  decode
    | .bool b => some b
    | _ => none

theorem flag_stable : flag.Stable := fun _ _ _ => rfl

/-- Integers from `lo` to `hi`. -/
def integer (lo hi : Int) : Codec Int where
  encode := .int
  decode
    | .int n => if lo ≤ n ∧ n ≤ hi then some n else none
    | _ => none

theorem integer_stable (lo hi : Int) : (integer lo hi).Stable := by
  intro j v h
  cases j <;> simp [integer] at h ⊢
  obtain ⟨hr, rfl⟩ := h
  exact hr

def signed (bits : Nat) : Codec Int :=
  integer (-(Text.wordSize (bits - 1) : Int)) (Text.wordSize (bits - 1) - 1)

/-- Natural numbers below `2 ^ bits`. -/
def natural (bits : Nat) : Codec Nat where
  encode n := .nat n
  decode
    | .int n => if 0 ≤ n ∧ n < Text.wordSize bits then some n.toNat else none
    | _ => none

theorem natural_stable (bits : Nat) : (natural bits).Stable := by
  intro j v h
  cases j <;> simp [natural, Json.nat] at h ⊢
  obtain ⟨hr, rfl⟩ := h
  omega

def list (c : Codec α) : Codec (List α) where
  encode l := .arr (l.map c.encode)
  decode
    | .arr items => items.mapM c.decode
    | _ => none

theorem list_stable {c : Codec α} (h : c.Stable) : (list c).Stable := by
  intro j v hv
  cases j <;> simp only [list, reduceCtorEq] at hv ⊢
  rename_i items
  induction items generalizing v with
  | nil => simp at hv; subst hv; rfl
  | cons j r ih =>
    simp only [List.mapM_cons, Option.pure_def, Option.bind_eq_bind, Option.bind_eq_some_iff] at hv
    obtain ⟨a, ha, l, hl, e⟩ := hv
    cases e
    simp [h _ _ ha, ih _ hl]

/-- A value or `null`. -/
def nullable (c : Codec α) : Codec (Option α) where
  encode
    | none => .null
    | some a => c.encode a
  decode
    | .null => some none
    | j => (c.decode j).map some

theorem nullable_stable {c : Codec α} (h : c.Stable)
    (plain : ∀ j a, j ≠ .null → c.decode j = some a → c.encode a ≠ .null) :
    (nullable c).Stable := by
  intro j v hv
  by_cases hj : j = .null
  · subst hj
    obtain rfl : none = v := by simpa [nullable] using hv
    rfl
  · have : (nullable c).decode j = (c.decode j).map some := by
      cases j <;> first | exact absurd rfl hj | rfl
    rw [this] at hv
    obtain ⟨a, ha, rfl⟩ := Option.map_eq_some_iff.mp hv
    have hn := plain j a hj ha
    have hs := h j a ha
    simp only [nullable]
    simp [hs]

/-- One of finitely many names, or an object with that name alone and under it a value that counts
as nothing. -/
def enumeration (isNothing : Json → Bool) (all : List α) (name : α → String) : Codec α where
  encode a := .str (name a)
  decode
    | .str s => all.find? fun a => name a == s
    | .obj [(s, j)] => if isNothing j then all.find? fun a => name a == s else none
    | _ => none

theorem enumeration_stable (isNothing : Json → Bool) (all : List α) (name : α → String) :
    (enumeration isNothing all name).Stable := by
  have found : ∀ s v, (all.find? fun a => name a == s) = some v →
      (all.find? fun a => name a == name v) = some v := by
    intro s v h
    have hn : name v = s := by simpa using List.find?_some h
    rw [hn]; exact h
  intro j v h
  simp only [enumeration] at h ⊢
  split at h
  · exact found _ _ h
  · split at h
    · exact found _ _ h
    · cases h
  · cases h

end Codec

/-- A named part of a record, with its value where it is missing. -/
structure RecordField (α : Type) where
  name : String
  codec : Codec α
  /-- The value when an object lacks the field. -/
  absent : Option α
  /-- The value when an array ends before the field. -/
  cutOff : Option α
  /-- Whether writing leaves the field out. -/
  omits : α → Bool

namespace RecordField
variable {α : Type}

def required (name : String) (c : Codec α) : RecordField α := ⟨name, c, none, none, fun _ => false⟩

def withDefault (name : String) (c : Codec α) (d : α) : RecordField α :=
  ⟨name, c, some d, some d, fun _ => false⟩

/-- Missing reads as `none`, which is written as `null`. -/
def nullable (name : String) (c : Codec α) : RecordField (Option α) := withDefault name c.nullable none

/-- Missing reads as `none`, which is not written. -/
def optional (name : String) (c : Codec α) : RecordField (Option α) :=
  ⟨name, c.nullable, some none, some none, Option.isNone⟩

def read (f : RecordField α) : Option Json → Option α
  | none => f.absent
  | some j => f.codec.decode j

/-- Reads the field off the front of what is left of an array. -/
def readItem (f : RecordField α) : List Json → Option α
  | [] => f.cutOff
  | j :: _ => f.codec.decode j

/-- A value that the field can hold is read again from what is written of it. -/
def Stable (f : RecordField α) : Prop :=
  ∀ a, (∃ o, f.read o = some a) ∨ f.cutOff = some a →
    f.read (if f.omits a then none else some (f.codec.encode a)) = some a

theorem required_stable {c : Codec α} (h : c.Stable) (name : String) :
    (required name c).Stable := by
  rintro a (⟨o, ho⟩ | hc)
  · cases o with
    | none => simp [read, required] at ho
    | some j => simpa [read, required] using h _ _ ho
  · simp [required] at hc

theorem withDefault_stable {c : Codec α} (h : c.Stable) (name : String) {d : α}
    (hd : c.decode (c.encode d) = some d) : (withDefault name c d).Stable := by
  rintro a (⟨o, ho⟩ | hc)
  · cases o with
    | none =>
      obtain rfl : d = a := by simpa [read, withDefault] using ho
      simpa [read, withDefault] using hd
    | some j => simpa [read, withDefault] using h _ _ ho
  · obtain rfl : d = a := by simpa [withDefault] using hc
    simpa [read, withDefault] using hd

end RecordField

/-- Fields in order. -/
structure Row (β : Type) where
  names : List String
  ofObject : (String → Option Json) → Option β
  ofArray : List Json → Option (β × List Json)
  write : β → List (String × Json)

variable {α β : Type}

def RecordField.and (f : RecordField α) (r : Row β) : Row (α × β) where
  names := f.name :: r.names
  ofObject get := do
    let a ← f.read (get f.name)
    let b ← r.ofObject get
    pure (a, b)
  ofArray l := do
    let a ← f.readItem l
    let (b, rest) ← r.ofArray l.tail
    pure ((a, b), rest)
  write p := (if f.omits p.1 then [] else [(f.name, f.codec.encode p.1)]) ++ r.write p.2

namespace Row

def done : Row Unit := ⟨[], fun _ => some (), fun l => some ((), l), fun _ => []⟩

structure Stable (r : Row β) : Prop where
  others : ∀ v n, n ∉ r.names → Json.field? (r.write v) n = none
  again : ∀ v, (∃ get, r.ofObject get = some v) ∨ (∃ l rest, r.ofArray l = some (v, rest)) →
    ∀ get, (∀ n ∈ r.names, get n = Json.field? (r.write v) n) → r.ofObject get = some v

theorem done_stable : done.Stable := ⟨fun _ _ _ => rfl, fun _ _ _ _ => rfl⟩

end Row

theorem RecordField.and_stable {f : RecordField α} {r : Row β} (hf : f.Stable) (hr : r.Stable)
    (hn : f.name ∉ r.names) : (f.and r).Stable where
  others := by
    rintro ⟨a, b⟩ n h
    obtain ⟨hne, hnr⟩ := not_or.mp (fun e => h (List.mem_cons.mpr e))
    have hb := hr.others b n hnr
    simp only [RecordField.and, Json.field?] at hb ⊢
    split
    · simpa using hb
    · simpa [Ne.symm hne] using hb
  again := by
    rintro ⟨a, b⟩ hv get hget
    have parts : ((∃ o, f.read o = some a) ∨ f.cutOff = some a) ∧
        ((∃ get, r.ofObject get = some b) ∨ ∃ l rest, r.ofArray l = some (b, rest)) := by
      rcases hv with ⟨g, hg⟩ | ⟨l, rest, hl⟩
      · simp only [RecordField.and, Option.bind_eq_bind, Option.bind_eq_some_iff, Option.pure_def,
          Option.some.injEq, Prod.mk.injEq] at hg
        obtain ⟨a', ha, b', hb, rfl, rfl⟩ := hg
        exact ⟨Or.inl ⟨_, ha⟩, Or.inl ⟨g, hb⟩⟩
      · simp only [RecordField.and, Option.bind_eq_bind, Option.bind_eq_some_iff, Option.pure_def,
          Option.some.injEq, Prod.mk.injEq, Prod.exists] at hl
        obtain ⟨a', ha, b', rest', hb, ⟨rfl, rfl⟩, rfl⟩ := hl
        refine ⟨?_, Or.inr ⟨_, _, hb⟩⟩
        cases l with
        | nil => exact Or.inr ha
        | cons j t => exact Or.inl ⟨some j, ha⟩
    have hself : get f.name = if f.omits a then none else some (f.codec.encode a) := by
      have ho := hr.others b f.name hn
      rw [hget f.name (by simp [RecordField.and])]
      simp only [RecordField.and, Json.field?] at ho ⊢
      split
      · simpa using ho
      · simp
    have hrest : ∀ n ∈ r.names, get n = Json.field? (r.write b) n := by
      intro n hm
      have hne : f.name ≠ n := fun e => hn (e ▸ hm)
      rw [hget n (by simp [RecordField.and, hm])]
      simp only [RecordField.and, Json.field?]
      split
      · simp
      · simp [hne]
    simp only [RecordField.and, Option.bind_eq_bind, Option.bind_eq_some_iff, Option.pure_def,
      Option.some.injEq, Prod.mk.injEq]
    exact ⟨a, hself ▸ hf a parts.1, b, hr.again b parts.2 get hrest, rfl, rfl⟩

namespace Codec

def record {α β : Type} (r : Row β) (make : β → α) (parts : α → β) : Codec α where
  encode a := .obj (r.write (parts a))
  decode
    | .obj fields => (r.ofObject (Json.field? fields)).map make
    | .arr items =>
      match r.ofArray items with
      | some (b, []) => some (make b)
      | _ => none
    | _ => none

/-- What was read from an object or an array is read again by any look-up that gives what is written
for the names of the record. -/
theorem record_again {r : Row β} (hr : r.Stable) {make : β → α} {parts : α → β}
    (hp : ∀ b, parts (make b) = b) {j : Json} {v : α} (h : (record r make parts).decode j = some v)
    {get : String → Option Json}
    (hget : ∀ n ∈ r.names, get n = Json.field? (r.write (parts v)) n) :
    (r.ofObject get).map make = some v := by
  have source : ∃ b, make b = v ∧ ((∃ get, r.ofObject get = some b) ∨
      ∃ l rest, r.ofArray l = some (b, rest)) := by
    cases j <;> simp only [record, reduceCtorEq] at h
    · split at h
      · rename_i b hb
        exact ⟨b, by simpa using h, Or.inr ⟨_, _, hb⟩⟩
      · cases h
    · obtain ⟨b, hb, e⟩ := Option.map_eq_some_iff.mp h
      exact ⟨b, e, Or.inl ⟨_, hb⟩⟩
  obtain ⟨b, rfl, hb⟩ := source
  rw [hr.again b hb get (by simpa [hp] using hget), Option.map_some]

theorem record_stable {r : Row β} (hr : r.Stable) {make : β → α} {parts : α → β}
    (hp : ∀ b, parts (make b) = b) : (record r make parts).Stable :=
  fun _ _ h => record_again hr hp h fun _ _ => rfl

end Codec

end SchoolTimetable

/-!
Ordered tables. A table lists its entries by strictly ascending key, so every listing comes out in
key order, no key occurs twice, and two tables with the same entries are equal.
-/
namespace SchoolTimetable

/-- A strict linear order on keys, given as a test. -/
class Key (κ : Type) where
  before : κ → κ → Bool
  irrefl : ∀ a, before a a = false
  trans : ∀ {a b c}, before a b = true → before b c = true → before a c = true
  connected : ∀ {a b}, before a b = false → before b a = false → a = b

namespace Key
variable {κ μ : Type} [Key κ] [Key μ]

theorem asymm {a b : κ} (h : before a b = true) : before b a = false := by
  cases hb : before b a with
  | false => rfl
  | true => have := trans h hb; simp [irrefl] at this

def same (a b : κ) : Bool := !before a b && !before b a

theorem same_iff {a b : κ} : same a b = true ↔ a = b := by
  constructor
  · intro h
    simp only [same, Bool.and_eq_true, Bool.not_eq_true'] at h
    exact connected h.1 h.2
  · rintro rfl; simp [same, irrefl]

theorem before_ne {a b : κ} (h : before a b = true) : a ≠ b := by
  rintro rfl; simp [irrefl] at h

theorem before_or_of_ne {a b : κ} (h : a ≠ b) : before a b = true ∨ before b a = true := by
  cases hab : before a b with
  | true => exact Or.inl rfl
  | false =>
    cases hba : before b a with
    | true => exact Or.inr rfl
    | false => exact absurd (connected hab hba) h

instance : Key Nat where
  before a b := decide (a < b)
  irrefl a := by simp
  trans := by intro a b c; simp; omega
  connected := by intro a b; simp; omega

instance : Key Int where
  before a b := decide (a < b)
  irrefl a := by simp
  trans := by intro a b c; simp; omega
  connected := by intro a b; simp; omega

/-- Texts go by code points. -/
instance : Key String where
  before a b := decide (a < b)
  irrefl a := by simp
  trans := by intro a b c; simpa using String.lt_trans
  connected := by
    intro a b hab hba
    simp only [decide_eq_false_iff_not, String.not_lt] at hab hba
    exact String.le_antisymm hba hab

/-- Pairs go by the first part, then by the second. -/
instance : Key (κ × μ) where
  before a b := before a.1 b.1 || (same a.1 b.1 && before a.2 b.2)
  irrefl a := by simp [irrefl]
  trans := by
    intro a b c hab hbc
    simp only [Bool.or_eq_true, Bool.and_eq_true, same_iff] at *
    rcases hab with hab | ⟨e, hab⟩ <;> rcases hbc with hbc | ⟨e', hbc⟩
    · exact Or.inl (trans hab hbc)
    · exact Or.inl (e' ▸ hab)
    · exact Or.inl (e ▸ hbc)
    · exact Or.inr ⟨e.trans e', trans hab hbc⟩
  connected := by
    intro a b hab hba
    simp only [Bool.or_eq_false_iff, Bool.and_eq_false_iff] at hab hba
    have e : a.1 = b.1 := connected hab.1 hba.1
    have s : same a.1 b.1 = true := same_iff.mpr e
    have s' : same b.1 a.1 = true := same_iff.mpr e.symm
    simp only [s, s', Bool.true_eq_false, false_or] at hab hba
    exact Prod.ext e (connected hab.2 hba.2)

end Key

structure Table (κ α : Type) [Key κ] where
  entries : List (κ × α)
  sorted : entries.Pairwise (fun a b => Key.before a.1 b.1 = true)

namespace Table
variable {κ α : Type} [Key κ]

instance [DecidableEq κ] [DecidableEq α] : DecidableEq (Table κ α) := fun s t =>
  decidable_of_iff (s.entries = t.entries) (by cases s; cases t; simp)

instance [Repr κ] [Repr α] : Repr (Table κ α) := ⟨fun t n => reprPrec t.entries n⟩

def empty : Table κ α := ⟨[], List.Pairwise.nil⟩

instance : EmptyCollection (Table κ α) := ⟨empty⟩
instance : Inhabited (Table κ α) := ⟨empty⟩

def get? (t : Table κ α) (k : κ) : Option α :=
  (t.entries.find? fun e => Key.same e.1 k).map (·.2)

def contains (t : Table κ α) (k : κ) : Bool := (t.get? k).isSome
def keys (t : Table κ α) : List κ := t.entries.map (·.1)
def values (t : Table κ α) : List α := t.entries.map (·.2)
def size (t : Table κ α) : Nat := t.entries.length

/-- Puts `v` under `k`, in place of what stood there. -/
def insert (t : Table κ α) (k : κ) (v : α) : Table κ α where
  entries := (t.entries.filter fun e => Key.before e.1 k) ++
    (k, v) :: t.entries.filter fun e => Key.before k e.1
  sorted := by
    refine List.pairwise_append.mpr ⟨t.sorted.filter _, ?_, ?_⟩
    · exact List.pairwise_cons.mpr ⟨fun e h => (List.mem_filter.mp h).2, t.sorted.filter _⟩
    · intro a ha b hb
      have hak : Key.before a.1 k = true := (List.mem_filter.mp ha).2
      rcases List.mem_cons.mp hb with rfl | hb
      · exact hak
      · exact Key.trans hak (List.mem_filter.mp hb).2

def filter (p : κ → α → Bool) (t : Table κ α) : Table κ α where
  entries := t.entries.filter fun e => p e.1 e.2
  sorted := t.sorted.filter _

def erase (t : Table κ α) (k : κ) : Table κ α := t.filter fun k' _ => !Key.same k' k

def mapValues {β : Type} (f : κ → α → β) (t : Table κ α) : Table κ β where
  entries := t.entries.map fun e => (e.1, f e.1 e.2)
  sorted := List.pairwise_map.mpr t.sorted

/-- Changes the value under `k` if there is one. -/
def modify (t : Table κ α) (k : κ) (f : α → α) : Table κ α :=
  t.mapValues fun k' v => if Key.same k' k then f v else v

def ofList (l : List (κ × α)) : Table κ α := l.foldl (fun t e => t.insert e.1 e.2) empty

theorem key_unique {t : Table κ α} {k : κ} {v w : α}
    (hv : (k, v) ∈ t.entries) (hw : (k, w) ∈ t.entries) : v = w := by
  obtain ⟨l, s⟩ := t
  simp only at hv hw
  induction l with
  | nil => simp at hv
  | cons e r ih =>
    have s' := List.pairwise_cons.mp s
    rcases List.mem_cons.mp hv with hv | hv <;> rcases List.mem_cons.mp hw with hw | hw
    · exact (Prod.mk.inj (hv.trans hw.symm)).2
    · have := Key.before_ne (s'.1 (k, w) hw); simp [← hv] at this
    · have := Key.before_ne (s'.1 (k, v) hv); simp [← hw] at this
    · exact ih s'.2 hv hw

theorem get?_eq_some_iff {t : Table κ α} {k : κ} {v : α} :
    t.get? k = some v ↔ (k, v) ∈ t.entries := by
  unfold get?
  constructor
  · intro h
    obtain ⟨e, he, rfl⟩ := Option.map_eq_some_iff.mp h
    have hs : e.1 = k := Key.same_iff.mp (by simpa using List.find?_some he)
    subst hs
    exact List.mem_of_find?_eq_some he
  · intro h
    cases he : t.entries.find? fun e => Key.same e.1 k with
    | none =>
      have := List.find?_eq_none.mp he _ h
      simp [Key.same_iff] at this
    | some e =>
      have hs : e.1 = k := Key.same_iff.mp (by simpa using List.find?_some he)
      have hm := List.mem_of_find?_eq_some he
      subst hs
      simp [key_unique hm h]

@[simp] theorem get?_empty (k : κ) : (empty : Table κ α).get? k = none := rfl

theorem mem_entries_insert {t : Table κ α} {k : κ} {v : α} {e : κ × α} :
    e ∈ (t.insert k v).entries ↔ e = (k, v) ∨ (e ∈ t.entries ∧ e.1 ≠ k) := by
  simp only [insert, List.mem_append, List.mem_filter, List.mem_cons]
  constructor
  · rintro (⟨h, hb⟩ | h | ⟨h, hb⟩)
    · exact Or.inr ⟨h, Key.before_ne hb⟩
    · exact Or.inl h
    · exact Or.inr ⟨h, (Key.before_ne hb).symm⟩
  · rintro (h | ⟨h, hne⟩)
    · exact Or.inr (Or.inl h)
    · rcases Key.before_or_of_ne hne with hb | hb
      · exact Or.inl ⟨h, hb⟩
      · exact Or.inr (Or.inr ⟨h, hb⟩)

theorem get?_ext_iff {t : Table κ α} {k : κ} {o : Option α} :
    t.get? k = o ↔ ∀ v, o = some v ↔ (k, v) ∈ t.entries := by
  constructor
  · rintro rfl v; exact get?_eq_some_iff
  · intro h
    cases ho : t.get? k with
    | some v => exact ((h v).mpr (get?_eq_some_iff.mp ho)).symm
    | none =>
      cases o with
      | none => rfl
      | some v => rw [get?_eq_some_iff.mpr ((h v).mp rfl)] at ho; cases ho

@[simp] theorem get?_insert_self (t : Table κ α) (k : κ) (v : α) :
    (t.insert k v).get? k = some v :=
  get?_eq_some_iff.mpr (mem_entries_insert.mpr (Or.inl rfl))

theorem get?_insert_of_ne (t : Table κ α) {k k' : κ} (v : α) (h : k' ≠ k) :
    (t.insert k v).get? k' = t.get? k' := by
  refine get?_ext_iff.mpr fun w => ?_
  rw [get?_eq_some_iff, mem_entries_insert]
  constructor
  · exact fun hm => Or.inr ⟨hm, h⟩
  · rintro (e | hm)
    · exact absurd (Prod.mk.inj e).1 h
    · exact hm.1

theorem get?_insert [DecidableEq κ] (t : Table κ α) (k k' : κ) (v : α) :
    (t.insert k v).get? k' = if k' = k then some v else t.get? k' := by
  split
  · rename_i h; rw [h, get?_insert_self]
  · rename_i h; exact get?_insert_of_ne t v h

theorem mem_entries_filter {p : κ → α → Bool} {t : Table κ α} {e : κ × α} :
    e ∈ (t.filter p).entries ↔ e ∈ t.entries ∧ p e.1 e.2 = true := List.mem_filter

theorem get?_filter (p : κ → α → Bool) (t : Table κ α) (k : κ) :
    (t.filter p).get? k = (t.get? k).filter (p k) := by
  refine get?_ext_iff.mpr fun v => ?_
  rw [mem_entries_filter, Option.filter_eq_some_iff, get?_eq_some_iff]

@[simp] theorem get?_erase_self (t : Table κ α) (k : κ) : (t.erase k).get? k = none := by
  rw [erase, get?_filter]
  cases t.get? k <;> simp [Key.same_iff.mpr]

theorem get?_erase_of_ne (t : Table κ α) {k k' : κ} (h : k' ≠ k) :
    (t.erase k).get? k' = t.get? k' := by
  have : Key.same k' k = false := by
    cases hs : Key.same k' k with
    | false => rfl
    | true => exact absurd (Key.same_iff.mp hs) h
  rw [erase, get?_filter]
  cases t.get? k' <;> simp [this]

theorem get?_mapValues {β : Type} (f : κ → α → β) (t : Table κ α) (k : κ) :
    (t.mapValues f).get? k = (t.get? k).map (f k) := by
  refine get?_ext_iff.mpr fun v => ?_
  simp only [mapValues, List.mem_map, Option.map_eq_some_iff, get?_eq_some_iff]
  constructor
  · rintro ⟨w, hm, rfl⟩; exact ⟨(k, w), hm, rfl⟩
  · rintro ⟨⟨k', w⟩, hm, e⟩
    obtain ⟨rfl, rfl⟩ := Prod.mk.inj e
    exact ⟨w, hm, rfl⟩

@[simp] theorem get?_modify_self (t : Table κ α) (k : κ) (f : α → α) :
    (t.modify k f).get? k = (t.get? k).map f := by
  rw [modify, get?_mapValues]
  have : Key.same k k = true := Key.same_iff.mpr rfl
  simp [this]

theorem get?_modify_of_ne (t : Table κ α) {k k' : κ} (f : α → α) (h : k' ≠ k) :
    (t.modify k f).get? k' = t.get? k' := by
  rw [modify, get?_mapValues]
  have : Key.same k' k = false := by
    cases hs : Key.same k' k with
    | false => rfl
    | true => exact absurd (Key.same_iff.mp hs) h
  cases t.get? k' <;> simp [this]

theorem mem_keys_iff {t : Table κ α} {k : κ} : k ∈ t.keys ↔ ∃ v, t.get? k = some v := by
  simp [keys, get?_eq_some_iff]

theorem mem_values_iff {t : Table κ α} {v : α} : v ∈ t.values ↔ ∃ k, t.get? k = some v := by
  simp [values, get?_eq_some_iff]

theorem entries_ext {l m : List (κ × α)}
    (hl : l.Pairwise fun a b => Key.before a.1 b.1 = true)
    (hm : m.Pairwise fun a b => Key.before a.1 b.1 = true)
    (h : ∀ e, e ∈ l ↔ e ∈ m) : l = m := by
  induction l generalizing m with
  | nil =>
    cases m with
    | nil => rfl
    | cons e r => have := (h e).mpr (by simp); simp at this
  | cons e r ih =>
    cases m with
    | nil => have := (h e).mp (by simp); simp at this
    | cons e' r' =>
      have hl' := List.pairwise_cons.mp hl
      have hm' := List.pairwise_cons.mp hm
      have heads : e = e' := by
        rcases List.mem_cons.mp ((h e).mp (by simp)) with he | he
        · exact he
        · rcases List.mem_cons.mp ((h e').mpr (by simp)) with he' | he'
          · exact he'.symm
          · have := Key.trans (hm'.1 _ he) (hl'.1 _ he')
            simp [Key.irrefl] at this
      subst heads
      have tails : ∀ x, x ∈ r ↔ x ∈ r' := by
        intro x
        constructor <;> intro hx
        · rcases List.mem_cons.mp ((h x).mp (List.mem_cons_of_mem _ hx)) with rfl | hx'
          · exact absurd rfl (Key.before_ne (hl'.1 _ hx))
          · exact hx'
        · rcases List.mem_cons.mp ((h x).mpr (List.mem_cons_of_mem _ hx)) with rfl | hx'
          · exact absurd rfl (Key.before_ne (hm'.1 _ hx))
          · exact hx'
      rw [ih hl'.2 hm'.2 tails]

theorem ext {s t : Table κ α} (h : ∀ k, s.get? k = t.get? k) : s = t := by
  have : s.entries = t.entries := by
    apply entries_ext s.sorted t.sorted
    intro e
    obtain ⟨k, v⟩ := e
    rw [← get?_eq_some_iff, ← get?_eq_some_iff, h]
  cases s; cases t; simp_all

end Table

/-- The keys of a list, ascending and each once. -/
def sortDistinct {κ : Type} [Key κ] (l : List κ) : List κ :=
  (Table.ofList (l.map fun k => (k, ()))).keys

theorem sortDistinct_sorted {κ : Type} [Key κ] (l : List κ) :
    (sortDistinct l).Pairwise fun a b => Key.before a b = true :=
  List.pairwise_map.mpr (Table.ofList (l.map fun k => (k, ()))).sorted

theorem mem_sortDistinct_iff {κ : Type} [Key κ] {l : List κ} {k : κ} :
    k ∈ sortDistinct l ↔ k ∈ l := by
  have step : ∀ (l : List κ) (t : Table κ Unit),
      k ∈ ((l.map fun k => (k, ())).foldl (fun t e => t.insert e.1 e.2) t).keys ↔
        k ∈ l ∨ k ∈ t.keys := by
    intro l
    induction l with
    | nil => simp
    | cons a r ih =>
      intro t
      simp only [List.map_cons, List.foldl_cons, ih, List.mem_cons]
      simp only [Table.keys, List.mem_map, Table.mem_entries_insert]
      constructor
      · rintro (h | ⟨e, rfl | ⟨h, _⟩, rfl⟩)
        · exact Or.inl (Or.inr h)
        · exact Or.inl (Or.inl rfl)
        · exact Or.inr ⟨e, h, rfl⟩
      · rintro ((rfl | h) | ⟨e, h, rfl⟩)
        · exact Or.inr ⟨_, Or.inl rfl, rfl⟩
        · exact Or.inl h
        · by_cases he : e.1 = a
          · exact Or.inr ⟨(a, ()), Or.inl rfl, he.symm⟩
          · exact Or.inr ⟨e, Or.inr ⟨h, he⟩, rfl⟩
  simpa [sortDistinct, Table.ofList, Table.keys, Table.empty] using step l Table.empty

end SchoolTimetable

import SchoolTimetable.Cell

/-!
Entries of a table as a multiset: a new key adds one entry, an erased key takes one away, and a
replaced value leaves the number of entries alone. Counts over tables follow by permutation.
-/
namespace SchoolTimetable

theorem Key.before_pair {κ μ : Type} [Key κ] [Key μ] (k : κ) (a b : μ) :
    Key.before (k, a) (k, b) = Key.before a b := by
  have same : Key.same k k = true := Key.same_iff.mpr rfl
  change (Key.before k k || (Key.same k k && Key.before a b)) = _
  rw [Key.irrefl, same, Bool.false_or, Bool.true_and]

theorem Key.ascending_ext {κ : Type} [Key κ] {l m : List κ}
    (hl : l.Pairwise fun a b => Key.before a b = true)
    (hm : m.Pairwise fun a b => Key.before a b = true) (same : ∀ k, k ∈ l ↔ k ∈ m) : l = m := by
  have distinct : ∀ {l : List κ}, (l.Pairwise fun a b => Key.before a b = true) → l.Nodup :=
    fun ascending => ascending.imp fun before => Key.before_ne before
  have perm := (List.perm_ext_iff_of_nodup (distinct hl) (distinct hm)).mpr same
  refine perm.eq_of_pairwise ?_ hl hm
  intro a b _ _ before after
  rw [Key.asymm before] at after
  cases after

theorem sortDistinct_of_ascending {κ : Type} [Key κ] {l : List κ}
    (ascending : l.Pairwise fun a b => Key.before a b = true) : sortDistinct l = l :=
  Key.ascending_ext (sortDistinct_sorted l) ascending fun _ => mem_sortDistinct_iff

namespace Table
variable {κ α : Type} [Key κ]

theorem entries_nodup (t : Table κ α) : t.entries.Nodup := by
  refine t.sorted.imp fun {a b} before same => ?_
  exact Key.before_ne before (congrArg Prod.fst same)

theorem keys_sorted (t : Table κ α) : t.keys.Pairwise fun a b => Key.before a b = true :=
  List.pairwise_map.mpr t.sorted

theorem keys_nodup (t : Table κ α) : t.keys.Nodup :=
  t.keys_sorted.imp fun before => Key.before_ne before

theorem mem_entries_erase {t : Table κ α} {k : κ} {e : κ × α} :
    e ∈ (t.erase k).entries ↔ e ∈ t.entries ∧ e.1 ≠ k := by
  rw [erase, mem_entries_filter]
  have same : (!Key.same e.1 k) = true ↔ e.1 ≠ k := by
    rw [Bool.not_eq_true', ← Bool.not_eq_true, Key.same_iff]
  rw [same]

theorem get?_insert_source {t : Table κ α} {k k' : κ} {v w : α}
    (found : (t.insert k v).get? k' = some w) : (k' = k ∧ w = v) ∨ t.get? k' = some w := by
  rcases mem_entries_insert.mp (get?_eq_some_iff.mp found) with new | ⟨old, _⟩
  · exact Or.inl ⟨congrArg Prod.fst new, congrArg Prod.snd new⟩
  · exact Or.inr (get?_eq_some_iff.mpr old)

theorem get?_filter_source {t : Table κ α} {p : κ → α → Bool} {k : κ} {v : α}
    (found : (t.filter p).get? k = some v) : t.get? k = some v :=
  get?_eq_some_iff.mpr (mem_entries_filter.mp (get?_eq_some_iff.mp found)).1

theorem get?_filter_keys (p : κ → Bool) (t : Table κ α) (k : κ) :
    (t.filter fun k _ => p k).get? k = if p k then t.get? k else none := by
  rw [get?_filter]
  cases t.get? k <;> cases p k <;> rfl

theorem get?_erase_source {t : Table κ α} {k k' : κ} {v : α}
    (found : (t.erase k).get? k' = some v) : t.get? k' = some v := get?_filter_source found

theorem isSome_insert {t : Table κ α} (k : κ) (v : α) {k' : κ}
    (here : (t.get? k').isSome = true) : ((t.insert k v).get? k').isSome = true := by
  by_cases same : k' = k
  · rw [same, get?_insert_self]
    rfl
  · rw [get?_insert_of_ne _ _ same]
    exact here

theorem erase_comm (t : Table κ α) (k k' : κ) : (t.erase k).erase k' = (t.erase k').erase k := by
  apply ext
  intro i
  by_cases first : i = k
  · by_cases second : i = k'
    · rw [← first, ← second]
    · rw [get?_erase_of_ne _ second, first, get?_erase_self, get?_erase_self]
  · by_cases second : i = k'
    · rw [get?_erase_of_ne _ first, second, get?_erase_self, get?_erase_self]
    · rw [get?_erase_of_ne _ first, get?_erase_of_ne _ second, get?_erase_of_ne _ second,
        get?_erase_of_ne _ first]

theorem insert_entries_perm {t : Table κ α} {k : κ} (v : α) (fresh : t.get? k = none) :
    (t.insert k v).entries.Perm ((k, v) :: t.entries) := by
  have absent : ∀ e ∈ t.entries, e.1 ≠ k := by
    intro e member same
    have found : t.get? k = some e.2 := get?_eq_some_iff.mpr (same ▸ member)
    rw [fresh] at found
    cases found
  have new : ((k, v) :: t.entries).Nodup :=
    List.nodup_cons.mpr ⟨fun member => absent _ member rfl, t.entries_nodup⟩
  apply (List.perm_ext_iff_of_nodup (entries_nodup _) new).mpr
  intro e
  rw [mem_entries_insert, List.mem_cons]
  constructor
  · intro h
    exact h.imp_right And.left
  · intro h
    exact h.imp_right fun member => ⟨member, absent e member⟩

theorem erase_entries_perm {t : Table κ α} {k : κ} {v : α} (found : t.get? k = some v) :
    t.entries.Perm ((k, v) :: (t.erase k).entries) := by
  have gone : (k, v) ∉ (t.erase k).entries := by
    intro member
    exact (mem_entries_erase.mp member).2 rfl
  have rest : ((k, v) :: (t.erase k).entries).Nodup :=
    List.nodup_cons.mpr ⟨gone, entries_nodup _⟩
  apply (List.perm_ext_iff_of_nodup t.entries_nodup rest).mpr
  intro e
  rw [List.mem_cons, mem_entries_erase]
  constructor
  · intro member
    by_cases same : e.1 = k
    · have value : e.2 = v := by
        have here : t.get? k = some e.2 := get?_eq_some_iff.mpr (same ▸ member)
        rw [found] at here
        exact (Option.some.inj here).symm
      exact Or.inl (Prod.ext same value)
    · exact Or.inr ⟨member, same⟩
  · intro h
    cases h with
    | inl same => subst same; exact get?_eq_some_iff.mp found
    | inr kept => exact kept.1

theorem modify_insert (t : Table κ α) (k : κ) (v : α) (f : α → α) :
    (t.insert k v).modify k f = t.insert k (f v) := by
  apply ext
  intro k'
  by_cases same : k' = k
  · rw [same, get?_modify_self, get?_insert_self, get?_insert_self]
    rfl
  · rw [get?_modify_of_ne _ _ same, get?_insert_of_ne _ _ same, get?_insert_of_ne _ _ same]

theorem contains_modify (t : Table κ α) (k k' : κ) (f : α → α) :
    (t.modify k f).contains k' = t.contains k' := by
  by_cases same : k' = k
  · rw [contains, contains, same, get?_modify_self, Option.isSome_map]
  · rw [contains, contains, get?_modify_of_ne _ _ same]

theorem size_insert {t : Table κ α} {k : κ} (v : α) (fresh : t.get? k = none) :
    (t.insert k v).size = t.size + 1 := (insert_entries_perm v fresh).length_eq

theorem size_erase {t : Table κ α} {k : κ} {v : α} (found : t.get? k = some v) :
    (t.erase k).size = t.size - 1 := by
  have count := (erase_entries_perm found).length_eq
  simp only [List.length_cons] at count
  simp only [size]
  omega

theorem size_congr {β : Type} {t : Table κ α} {u : Table κ β}
    (same : ∀ k, t.contains k = u.contains k) : t.size = u.size := by
  have keys : t.keys = u.keys := by
    refine Key.ascending_ext t.keys_sorted u.keys_sorted fun k => ?_
    rw [mem_keys_iff, mem_keys_iff, ← Option.isSome_iff_exists, ← Option.isSome_iff_exists]
    exact iff_of_eq (congrArg (· = true) (same k))
  have lengths := congrArg List.length keys
  rw [Table.keys, Table.keys, List.length_map, List.length_map] at lengths
  exact lengths

def countKeys (t : Table κ α) (p : κ → Bool) : Nat := t.keys.countP p

theorem countKeys_insert {t : Table κ α} {k : κ} (v : α) (fresh : t.get? k = none)
    (p : κ → Bool) : (t.insert k v).countKeys p = t.countKeys p + if p k then 1 else 0 := by
  have perm := (insert_entries_perm v fresh).map Prod.fst
  rw [countKeys, keys, perm.countP_eq, List.map_cons, List.countP_cons]
  rfl

theorem countKeys_erase_add {t : Table κ α} {k : κ} {v : α} (found : t.get? k = some v)
    (p : κ → Bool) : (t.erase k).countKeys p + (if p k then 1 else 0) = t.countKeys p := by
  have perm := (erase_entries_perm found).map Prod.fst
  rw [countKeys, countKeys, keys, keys, perm.countP_eq, List.map_cons, List.countP_cons]

def insertAll (t : Table κ α) (key : α → κ) (xs : List α) : Table κ α :=
  xs.foldl (fun t x => t.insert (key x) x) t

theorem mem_entries_insertAll {key : α → κ} {xs : List α} {t : Table κ α} {e : κ × α}
    (member : e ∈ (t.insertAll key xs).entries) :
    (e.2 ∈ xs ∧ e.1 = key e.2) ∨ e ∈ t.entries := by
  induction xs generalizing t with
  | nil => exact Or.inr member
  | cons x rest ih =>
    rcases ih member with new | old
    · exact Or.inl ⟨List.mem_cons_of_mem _ new.1, new.2⟩
    · rcases mem_entries_insert.mp old with here | old
      · subst here
        exact Or.inl ⟨List.mem_cons_self, rfl⟩
      · exact Or.inr old.1

theorem get?_insertAll_of_ne {key : α → κ} {xs : List α} (t : Table κ α) {k : κ}
    (apart : ∀ x ∈ xs, k ≠ key x) : (t.insertAll key xs).get? k = t.get? k := by
  induction xs generalizing t with
  | nil => rfl
  | cons x rest ih =>
    have others := ih (t.insert (key x) x) fun y member => apart y (List.mem_cons_of_mem _ member)
    exact others.trans (get?_insert_of_ne t x (apart x List.mem_cons_self))

theorem mapValues_insert {β : Type} (t : Table κ α) (k : κ) (v : α) (f : κ → α → β) :
    (t.insert k v).mapValues f = (t.mapValues f).insert k (f k v) := by
  apply ext
  intro k'
  by_cases same : k' = k
  · rw [same, get?_mapValues, get?_insert_self, get?_insert_self]
    rfl
  · rw [get?_mapValues, get?_insert_of_ne _ _ same, get?_insert_of_ne _ _ same, get?_mapValues]

theorem mapValues_insertAll {key : α → κ} {f : α → α} (keeps : ∀ x, key (f x) = key x)
    (t : Table κ α) (xs : List α) : (t.insertAll key xs).mapValues (fun _ => f) =
      (t.mapValues fun _ => f).insertAll key (xs.map f) := by
  induction xs generalizing t with
  | nil => rfl
  | cons x rest ih =>
    have first : (t.insert (key x) x).mapValues (fun _ => f) =
        (t.mapValues fun _ => f).insert (key (f x)) (f x) := by
      rw [mapValues_insert, keeps]
    have later := ih (t.insert (key x) x)
    rw [first] at later
    exact later

theorem insertEntries_perm {l : List (κ × α)} {t : Table κ α} (distinct : (l.map Prod.fst).Nodup)
    (fresh : ∀ e ∈ l, t.get? e.1 = none) :
    (l.foldl (fun t e => t.insert e.1 e.2) t).entries.Perm (l ++ t.entries) := by
  induction l generalizing t with
  | nil => exact List.Perm.refl _
  | cons e rest ih =>
    have split := List.nodup_cons.mp distinct
    have still : ∀ x ∈ rest, (t.insert e.1 e.2).get? x.1 = none := by
      intro x member
      have apart : x.1 ≠ e.1 := by
        intro same
        exact split.1 (same ▸ List.mem_map_of_mem member)
      rw [get?_insert_of_ne t e.2 apart]
      exact fresh x (List.mem_cons_of_mem _ member)
    have first := insert_entries_perm e.2 (fresh e List.mem_cons_self)
    apply (ih split.2 still).trans
    exact (first.append_left _).trans List.perm_middle

theorem insertAll_entries_perm {key : α → κ} {xs : List α} {t : Table κ α}
    (distinct : (xs.map key).Nodup) (fresh : ∀ x ∈ xs, t.get? (key x) = none) :
    (t.insertAll key xs).entries.Perm (xs.map (fun x => (key x, x)) ++ t.entries) := by
  have keys : ((xs.map fun x => (key x, x)).map Prod.fst).Nodup := by
    rw [List.map_map]
    exact distinct
  have free : ∀ e ∈ xs.map (fun x => (key x, x)), t.get? e.1 = none := by
    intro e member
    obtain ⟨x, listed, same⟩ := List.mem_map.mp member
    rw [← same]
    exact fresh x listed
  have perm := insertEntries_perm keys free
  rw [List.foldl_map] at perm
  exact perm

theorem ofList_entries_perm {l : List (κ × α)} (distinct : (l.map Prod.fst).Nodup) :
    (ofList l).entries.Perm l := by
  have perm := insertEntries_perm (t := empty) distinct fun _ _ => rfl
  rw [show (empty : Table κ α).entries = [] from rfl, List.append_nil] at perm
  exact perm

theorem mem_of_get?_ofList {l : List (κ × α)} {k : κ} {v : α}
    (found : (ofList l).get? k = some v) : (k, v) ∈ l := by
  have run : ∀ (l : List (κ × α)) (t : Table κ α),
      (k, v) ∈ (l.foldl (fun t e => t.insert e.1 e.2) t).entries →
        (k, v) ∈ l ∨ (k, v) ∈ t.entries := by
    intro l
    induction l with
    | nil => exact fun t member => Or.inr member
    | cons e rest ih =>
      intro t member
      rcases ih _ member with later | before
      · exact Or.inl (List.mem_cons_of_mem _ later)
      · rcases mem_entries_insert.mp before with here | old
        · exact Or.inl (here ▸ List.mem_cons_self)
        · exact Or.inr old.1
  rcases run l empty (get?_eq_some_iff.mp found) with listed | none
  · exact listed
  · cases none

theorem contains_ofList {l : List (κ × α)} {k : κ} {v : α} (listed : (k, v) ∈ l) :
    ∃ w, (ofList l).get? k = some w := by
  have run : ∀ (l : List (κ × α)) (t : Table κ α),
      (k, v) ∈ l ∨ k ∈ t.keys → k ∈ (l.foldl (fun t e => t.insert e.1 e.2) t).keys := by
    intro l
    induction l with
    | nil => exact fun t h => h.resolve_left List.not_mem_nil
    | cons e rest ih =>
      intro t h
      apply ih
      rw [List.mem_cons] at h
      by_cases same : k = e.1
      · exact Or.inr (mem_keys_iff.mpr ⟨e.2, same ▸ get?_insert_self t e.1 e.2⟩)
      · rcases h with (here | later) | old
        · exact absurd (congrArg Prod.fst here) same
        · exact Or.inl later
        · obtain ⟨w, found⟩ := mem_keys_iff.mp old
          exact Or.inr (mem_keys_iff.mpr ⟨w, (get?_insert_of_ne t e.2 same).trans found⟩)
  exact mem_keys_iff.mp (run l empty (Or.inl listed))

end Table

end SchoolTimetable

/-!
Computations that may fail and change a state. A run of a composed computation is taken apart
into the runs of its parts, for success and for failure, and a relation that every part keeps
between the states before and after is kept by the whole.
-/
namespace SchoolTimetable
variable {ε σ α β : Type}

/-- What comes of a computation from a state, and the state that it leaves. -/
def perform (s : σ) (x : ExceptT ε (StateM σ) α) : Except ε α × σ := x.run s

theorem perform_bind (s : σ) (x : ExceptT ε (StateM σ) α) (f : α → ExceptT ε (StateM σ) β) :
    perform s (x >>= f) = match perform s x with
      | (.ok a, t) => perform t (f a)
      | (.error e, t) => (.error e, t) := by
  change ExceptT.run (x >>= f) s = _
  rw [ExceptT.run_bind]
  cases h : perform s x with
  | mk r t =>
    have run : x.run s = (r, t) := h
    cases r <;> simp only [bind, StateT.bind, run] <;> rfl

theorem perform_bind_of_ok {s t : σ} {x : ExceptT ε (StateM σ) α} {a : α}
    (f : α → ExceptT ε (StateM σ) β) (first : perform s x = (.ok a, t)) :
    perform s (x >>= f) = perform t (f a) := by
  rw [perform_bind, first]

theorem perform_bind_of_error {s t : σ} {x : ExceptT ε (StateM σ) α} {e : ε}
    (f : α → ExceptT ε (StateM σ) β) (first : perform s x = (.error e, t)) :
    perform s (x >>= f) = (.error e, t) := by
  rw [perform_bind, first]

theorem perform_pure (s : σ) (a : α) :
    perform s (pure a : ExceptT ε (StateM σ) α) = (.ok a, s) := rfl

theorem perform_throw (s : σ) (e : ε) :
    perform s (throw e : ExceptT ε (StateM σ) α) = (.error e, s) := rfl

theorem perform_get (s : σ) : perform s (get : ExceptT ε (StateM σ) σ) = (.ok s, s) := rfl

theorem perform_set (s t : σ) :
    perform s (set t : ExceptT ε (StateM σ) PUnit) = (.ok ⟨⟩, t) := rfl

theorem perform_modify (s : σ) (f : σ → σ) :
    perform s (modify f : ExceptT ε (StateM σ) PUnit) = (.ok ⟨⟩, f s) := rfl

theorem perform_lift (s : σ) (r : Except ε α) :
    perform s (liftM r : ExceptT ε (StateM σ) α) = (r, s) := rfl

theorem lift_iff {s t : σ} {r result : Except ε α} :
    perform s (liftM r : ExceptT ε (StateM σ) α) = (result, t) ↔ r = result ∧ s = t := by
  rw [perform_lift, Prod.mk.injEq]

theorem perform_unless {c : Prop} [Decidable c] (s : σ) (e : ε)
    (rest : PUnit → ExceptT ε (StateM σ) α) :
    perform s (if c then (do let u ← throw e; rest u) else rest ⟨⟩) =
      if c then (.error e, s) else perform s (rest ⟨⟩) := by
  split
  · rw [perform_bind, perform_throw]
  · rfl

theorem perform_bind_ok {s u : σ} {x : ExceptT ε (StateM σ) α}
    {f : α → ExceptT ε (StateM σ) β} {b : β} :
    perform s (x >>= f) = (.ok b, u) ↔
      ∃ a t, perform s x = (.ok a, t) ∧ perform t (f a) = (.ok b, u) := by
  rw [perform_bind]
  constructor
  · intro run
    split at run
    · rename_i a t first
      exact ⟨a, t, first, run⟩
    · cases run
  · intro h
    obtain ⟨a, t, first, rest⟩ := h
    rw [first]
    exact rest

theorem perform_bind_error {s u : σ} {x : ExceptT ε (StateM σ) α}
    {f : α → ExceptT ε (StateM σ) β} {e : ε} :
    perform s (x >>= f) = (.error e, u) ↔
      perform s x = (.error e, u) ∨
        ∃ a t, perform s x = (.ok a, t) ∧ perform t (f a) = (.error e, u) := by
  rw [perform_bind]
  constructor
  · intro run
    split at run
    · rename_i a t first
      exact Or.inr ⟨a, t, first, run⟩
    · rename_i e' t first
      cases run
      exact Or.inl first
  · intro h
    rcases h with first | ⟨a, t, first, rest⟩
    · rw [first]
    · rw [first]
      exact rest

theorem perform_fails {s : σ} {x : ExceptT ε (StateM σ) α}
    (failed : (perform s x).1.isOk = false) : ∃ e t, perform s x = (.error e, t) := by
  cases run : perform s x with
  | mk result t =>
    rw [run] at failed
    cases result with
    | ok a => cases failed
    | error e => exact ⟨e, t, rfl⟩

/-- Whatever comes of `x`, the states before and after are related. -/
def Keeps (R : σ → σ → Prop) (x : ExceptT ε (StateM σ) α) : Prop := ∀ s, R s (perform s x).2

section
variable {R : σ → σ → Prop}

theorem keeps_bind (trans : ∀ {a b c}, R a b → R b c → R a c) {x : ExceptT ε (StateM σ) α}
    {f : α → ExceptT ε (StateM σ) β} (first : Keeps R x) (rest : ∀ a, Keeps R (f a)) :
    Keeps R (x >>= f) := by
  intro s
  have before := first s
  rw [perform_bind]
  cases run : perform s x with
  | mk r t =>
    rw [run] at before
    cases r with
    | error e => exact before
    | ok a => exact trans before (rest a t)

theorem keeps_pure (refl : ∀ s, R s s) (a : α) :
    Keeps R (pure a : ExceptT ε (StateM σ) α) := fun s => refl s

theorem keeps_get (refl : ∀ s, R s s) : Keeps R (get : ExceptT ε (StateM σ) σ) := fun s => refl s

theorem Keeps.result {x : ExceptT ε (StateM σ) α} (h : Keeps R x) {s t : σ} {r : Except ε α}
    (run : perform s x = (r, t)) : R s t := by
  have kept := h s
  rw [run] at kept
  exact kept

end

/-! Computations that may fail and change nothing. -/

theorem except_bind_ok {x : Except ε α} {f : α → Except ε β} {b : β} :
    x >>= f = .ok b ↔ ∃ a, x = .ok a ∧ f a = .ok b := by
  cases x <;> simp [bind, Except.bind]

theorem mapError_ok {ε' : Type} {f : ε → ε'} {r : Except ε α} {a : α} :
    r.mapError f = .ok a ↔ r = .ok a := by
  cases r with
  | error e => exact ⟨nofun, nofun⟩
  | ok b =>
    constructor
    · intro same
      exact congrArg Except.ok (Except.ok.inj same)
    · intro same
      exact congrArg Except.ok (Except.ok.inj same)

theorem mapError_error {ε' : Type} {f : ε → ε'} {r : Except ε α} {e : ε'} :
    r.mapError f = .error e ↔ ∃ e', r = .error e' ∧ f e' = e := by
  cases r with
  | error e₀ =>
    constructor
    · intro same
      exact ⟨e₀, rfl, Except.error.inj same⟩
    · intro h
      obtain ⟨e', same, told⟩ := h
      cases same
      exact congrArg Except.error told
  | ok a => exact ⟨nofun, nofun⟩

theorem except_unless_ok {c : Prop} [Decidable c] {e : ε} {x : Except ε α} {a : α} :
    (if c then .error e else x) = .ok a ↔ ¬ c ∧ x = .ok a := by
  by_cases h : c <;> simp [h]

theorem forM_ok_of_mem {f : α → Except ε Unit} {xs : List α} {u : Unit}
    (run : xs.forM f = .ok u) {x : α} (member : x ∈ xs) : ∃ v, f x = .ok v := by
  induction xs with
  | nil => cases member
  | cons a as ih =>
    obtain ⟨v, first, others⟩ := except_bind_ok.mp run
    rcases List.mem_cons.mp member with here | there
    · exact ⟨v, here ▸ first⟩
    · exact ih others there

theorem mapM_cons_ok {f : α → Except ε β} {x : α} {xs : List α} {ys : List β} :
    (x :: xs).mapM f = .ok ys ↔
      ∃ y rest, f x = .ok y ∧ xs.mapM f = .ok rest ∧ ys = y :: rest := by
  simp only [List.mapM_cons, except_bind_ok, pure, Except.pure, Except.ok.injEq]
  constructor
  · intro h
    obtain ⟨y, first, rest, others, same⟩ := h
    exact ⟨y, rest, first, others, same.symm⟩
  · intro h
    obtain ⟨y, rest, first, others, same⟩ := h
    exact ⟨y, first, rest, others, same.symm⟩

theorem mapM_ok_of_mem {f : α → Except ε β} {xs : List α} {ys : List β}
    (run : xs.mapM f = .ok ys) {x : α} (member : x ∈ xs) : ∃ y ∈ ys, f x = .ok y := by
  induction xs generalizing ys with
  | nil => cases member
  | cons a as ih =>
    obtain ⟨y, rest, first, others, rfl⟩ := mapM_cons_ok.mp run
    rcases List.mem_cons.mp member with here | there
    · exact ⟨y, List.mem_cons_self, here ▸ first⟩
    · obtain ⟨z, listed, made⟩ := ih others there
      exact ⟨z, List.mem_cons_of_mem _ listed, made⟩

theorem mapM_ok_of_each {f : α → Except ε β} {xs : List α}
    (each : ∀ x ∈ xs, ∃ y, f x = .ok y) : ∃ ys, xs.mapM f = .ok ys := by
  induction xs with
  | nil => exact ⟨[], rfl⟩
  | cons a as ih =>
    obtain ⟨y, first⟩ := each a List.mem_cons_self
    obtain ⟨ys, others⟩ := ih fun x member => each x (List.mem_cons_of_mem _ member)
    exact ⟨y :: ys, mapM_cons_ok.mpr ⟨y, ys, first, others, rfl⟩⟩

theorem mapM_ok_source {f : α → Except ε β} {xs : List α} {ys : List β}
    (run : xs.mapM f = .ok ys) {y : β} (member : y ∈ ys) : ∃ x ∈ xs, f x = .ok y := by
  induction xs generalizing ys with
  | nil =>
    cases run
    cases member
  | cons a as ih =>
    obtain ⟨z, rest, first, others, rfl⟩ := mapM_cons_ok.mp run
    rcases List.mem_cons.mp member with here | there
    · exact ⟨a, List.mem_cons_self, here ▸ first⟩
    · obtain ⟨x, listed, made⟩ := ih others there
      exact ⟨x, List.mem_cons_of_mem _ listed, made⟩

end SchoolTimetable

import Mathlib.Data.List.Induction
import SchoolTimetable.Proofs.Session.Outcomes

/-!
Proposals are dropped from the cache by the look-ups that meet them expired, so what a look-up
answers depends on the clocks of those before it. Where the clock never goes back, and meets no leap
second, nobody can tell: the cache answers like a map that keeps every proposal until it is replaced
or removed.
-/
namespace SchoolTimetable

namespace Timestamp

def NeverBack (times : List Timestamp) : Prop := times.Pairwise fun a b => 0 ≤ b.since a

instance (times : List Timestamp) : Decidable (NeverBack times) :=
  inferInstanceAs (Decidable (times.Pairwise fun a b => 0 ≤ b.since a))

theorem since_add {a b c : Timestamp} (regularA : a.inLeapSecond = false)
    (regularB : b.inLeapSecond = false) (regularC : c.inLeapSecond = false) :
    c.since a = c.since b + b.since a := by
  simp only [since, regularA, regularB, regularC, Bool.false_eq_true, and_false, if_false]
  simp only [secondsPerDay, nanosPerSecond]
  omega

end Timestamp

inductive CacheCall where
  | save (p : Proposal)
  | delete (id : String)
  | get (id : String) (now : Timestamp)

namespace CacheCall

def id : CacheCall → String
  | .save p => p.id
  | .delete id | .get id _ => id

def time? : CacheCall → Option Timestamp
  | .get _ now => some now
  | _ => none

def Replaces (id : String) : CacheCall → Prop
  | .save p => p.id = id
  | .delete other => other = id
  | .get _ _ => False

instance (id : String) (call : CacheCall) : Decidable (call.Replaces id) :=
  match call with
  | .save p => inferInstanceAs (Decidable (p.id = id))
  | .delete other => inferInstanceAs (Decidable (other = id))
  | .get _ _ => inferInstanceAs (Decidable False)

def Evicts (ttl : Int) (id : String) (p : Proposal) : CacheCall → Prop
  | .get other now => other = id ∧ p.isExpired now ttl = true
  | _ => False

theorem Replaces.here {id : String} {call : CacheCall} (replaces : call.Replaces id) :
    id = call.id := by
  cases call with
  | get other now => exact nomatch replaces
  | _ => exact replaces.symm

theorem Evicts.here {ttl : Int} {id : String} {p : Proposal} {call : CacheCall}
    (evicts : call.Evicts ttl id p) : id = call.id := by
  cases call with
  | get other now => exact evicts.1.symm
  | _ => exact nomatch evicts

end CacheCall

namespace ProposalCache
variable {ttl : Int} {id : String} {now : Timestamp} {p : Proposal} {call : CacheCall}
  {calls : List CacheCall} {quiet : CacheCall → Prop}

def afterCall (c : ProposalCache) : CacheCall → ProposalCache
  | .save p => c.save p
  | .delete id => (c.delete id).1
  | .get id now => (c.get id now).1

def afterCalls (c : ProposalCache) (calls : List CacheCall) : ProposalCache :=
  calls.foldl afterCall c

def keep (kept : Table String Proposal) : CacheCall → Table String Proposal
  | .save p => kept.insert p.id p
  | .delete id => kept.erase id
  | .get _ _ => kept

def keptBy (calls : List CacheCall) : Table String Proposal := calls.foldl keep ∅

def clocks (calls : List CacheCall) : List Timestamp := calls.filterMap CacheCall.time?

/-- The proposal was saved, and every call since then is a quiet one. -/
def SavedThen (quiet : CacheCall → Prop) (calls : List CacheCall) (p : Proposal) : Prop :=
  ∃ before after, calls = before ++ .save p :: after ∧ ∀ call ∈ after, quiet call

/-- The proposal is what was saved last under the id, and it has not been removed since. -/
def Newest (id : String) (calls : List CacheCall) (p : Proposal) : Prop :=
  p.id = id ∧ SavedThen (fun call => ¬ call.Replaces id) calls p

theorem not_savedThen_nil : ¬ SavedThen quiet [] p := by
  intro saved
  obtain ⟨before, after, split, _⟩ := saved
  cases before <;> cases split

theorem savedThen_concat :
    SavedThen quiet (calls ++ [call]) p ↔
      call = .save p ∨ (SavedThen quiet calls p ∧ quiet call) := by
  constructor
  · intro saved
    obtain ⟨before, after, split, still⟩ := saved
    -- the last call is the saving itself, or the last one since
    rcases after.eq_nil_or_concat with none | ⟨middle, last, all⟩
    · rw [none] at split
      exact .inl (List.singleton_inj.mp (List.append_inj_right' split rfl))
    · rw [all, List.concat_eq_append] at split still
      rw [← List.cons_append, ← List.append_assoc] at split
      obtain ⟨earlier, same⟩ := List.append_inj' split rfl
      refine .inr ⟨⟨before, middle, earlier, fun c member => ?_⟩, ?_⟩
      · exact still c (List.mem_append_left _ member)
      · exact still call (List.mem_append_right _ (same ▸ List.mem_singleton_self call))
  · intro saved
    rcases saved with last | ⟨⟨before, after, split, still⟩, rest⟩
    · exact ⟨calls, [], by rw [last], fun c member => nomatch member⟩
    · refine ⟨before, after ++ [call], by rw [split, List.append_assoc, List.cons_append], ?_⟩
      intro c member
      rcases List.mem_append.mp member with old | new
      · exact still c old
      · exact List.mem_singleton.mp new ▸ rest

theorem SavedThen.imp {other : CacheCall → Prop} (saved : SavedThen quiet calls p)
    (weaker : ∀ call, quiet call → other call) : SavedThen other calls p := by
  obtain ⟨before, after, split, still⟩ := saved
  exact ⟨before, after, split, fun call member => weaker call (still call member)⟩

/-- What a call brings about by saving, and what then lasts while the calls are quiet, holds after
the runs in which the proposal was saved and every call since was quiet. -/
theorem savedThen_of_steps {P : List CacheCall → Prop} (start : ¬ P [])
    (steps : ∀ calls call, P (calls ++ [call]) ↔
      (p.id = id ∧ call = .save p) ∨ (P calls ∧ quiet call)) (calls : List CacheCall) :
    P calls ↔ p.id = id ∧ SavedThen quiet calls p := by
  induction calls using List.reverseRecOn with
  | nil => exact iff_of_false start fun saved => not_savedThen_nil saved.2
  | append_singleton calls call ih =>
    rw [steps, ih, savedThen_concat, and_assoc, ← and_or_left]

/-! One call. -/

theorem afterCall_ttl (c : ProposalCache) (call : CacheCall) : (c.afterCall call).ttl = c.ttl := by
  cases call with
  | get id now =>
    rcases get_cases c id now with same | ⟨_, _, _, gone⟩
    · rw [afterCall, same]
    · rw [afterCall, gone]
      rfl
  | _ => rfl

theorem afterCall_elsewhere (c : ProposalCache) (apart : id ≠ call.id) :
    (c.afterCall call).entries.get? id = c.entries.get? id := by
  cases call with
  | save q => exact Table.get?_insert_of_ne c.entries q apart
  | delete other => exact Table.get?_erase_of_ne c.entries apart
  | get other now =>
    rcases get_cases c other now with same | ⟨_, _, _, gone⟩
    · rw [afterCall, same]
    · rw [afterCall, gone]
      exact Table.get?_erase_of_ne c.entries apart

theorem get_left (c : ProposalCache) (id : String) (now : Timestamp) :
    (c.get id now).1.entries.get? id = (c.get id now).2 := by
  unfold get
  split
  · rename_i missing
    exact missing
  · rename_i q found
    split
    · exact Table.get?_erase_self c.entries id
    · exact found

theorem afterCall_get? (c : ProposalCache) (call : CacheCall) :
    (c.afterCall call).entries.get? id = some p ↔ (p.id = id ∧ call = .save p) ∨
      (c.entries.get? id = some p ∧ ¬ call.Replaces id ∧ ¬ call.Evicts c.ttl id p) := by
  by_cases here : id = call.id
  · cases call with
    | save q =>
      have found : (c.afterCall (.save q)).entries.get? id = some q :=
        here ▸ Table.get?_insert_self c.entries q.id q
      rw [found]
      constructor
      · intro same
        cases same
        exact .inl ⟨here.symm, rfl⟩
      · intro h
        rcases h with ⟨_, same⟩ | ⟨_, kept, _⟩
        · cases same
          rfl
        · exact absurd here.symm kept
    | delete other =>
      have gone : (c.afterCall (.delete other)).entries.get? id = none :=
        here ▸ Table.get?_erase_self c.entries other
      rw [gone]
      exact iff_of_false nofun fun h => h.elim (fun saved => nomatch saved.2)
        fun kept => kept.2.1 here.symm
    | get other now =>
      have left := get_left c other now
      have same : other = id := here.symm
      rw [same] at left
      rw [same, afterCall, left, get_some]
      simp [CacheCall.Replaces, CacheCall.Evicts]
  · rw [afterCall_elsewhere c here]
    constructor
    · exact fun found => .inr ⟨found, fun h => here h.here, fun h => here h.here⟩
    · intro h
      rcases h with ⟨same, saved⟩ | ⟨found, _⟩
      · rw [saved] at here
        exact absurd same.symm here
      · exact found

theorem keep_get? (kept : Table String Proposal) (call : CacheCall) :
    (keep kept call).get? id = some p ↔ (p.id = id ∧ call = .save p) ∨
      (kept.get? id = some p ∧ ¬ call.Replaces id) := by
  cases call with
  | save q =>
    simpa [keep, afterCall, save, CacheCall.Evicts] using afterCall_get? ⟨0, kept⟩ (.save q)
  | delete other =>
    simpa [keep, afterCall, delete, CacheCall.Evicts] using
      afterCall_get? ⟨0, kept⟩ (.delete other)
  | get other now => simp [keep, CacheCall.Replaces]

/-! Runs. -/

theorem afterCalls_ttl (c : ProposalCache) (calls : List CacheCall) :
    (c.afterCalls calls).ttl = c.ttl := by
  induction calls generalizing c with
  | nil => rfl
  | cons call rest ih => exact (ih (c.afterCall call)).trans (afterCall_ttl c call)

theorem afterCalls_get? (ttl : Int) (calls : List CacheCall) :
    (afterCalls { ttl } calls).entries.get? id = some p ↔ p.id = id ∧
      SavedThen (fun call => ¬ call.Replaces id ∧ ¬ call.Evicts ttl id p) calls p := by
  refine savedThen_of_steps (P := fun calls => (afterCalls { ttl } calls).entries.get? id = some p)
    nofun (fun calls call => ?_) calls
  have last : ((afterCalls { ttl } calls).afterCall call).entries.get? id = some p ↔ _ :=
    afterCall_get? (afterCalls { ttl } calls) call
  rw [afterCalls_ttl] at last
  rw [afterCalls, List.foldl_append]
  exact last

theorem keptBy_get? (calls : List CacheCall) :
    (keptBy calls).get? id = some p ↔ Newest id calls p := by
  refine savedThen_of_steps (P := fun calls => (keptBy calls).get? id = some p)
    nofun (fun calls call => ?_) calls
  rw [keptBy, List.foldl_append]
  exact keep_get? _ call

theorem get_newest (found : ((afterCalls { ttl } calls).get id now).2 = some p) :
    Newest id calls p ∧ now.since p.requestedAt ≤ ttl := by
  obtain ⟨cached, unexpired⟩ := get_some.mp found
  obtain ⟨key, saved⟩ := (afterCalls_get? ttl calls).mp cached
  rw [afterCalls_ttl, Proposal.isExpired, decide_eq_false_iff_not, gt_iff_lt,
    Int.not_lt] at unexpired
  exact ⟨⟨key, saved.imp fun call quiet => quiet.1⟩, unexpired⟩

theorem mem_clocks {t : Timestamp} (member : .get id t ∈ calls) : t ∈ clocks calls :=
  List.mem_filterMap.mpr ⟨_, member, rfl⟩

/-- Where no look-up has had a later clock, the newest proposal is found until it expires. -/
theorem get_of_newest (newest : Newest id calls p) (young : now.since p.requestedAt ≤ ttl)
    (older : ∀ t ∈ clocks calls, t.since p.requestedAt ≤ now.since p.requestedAt) :
    ((afterCalls { ttl } calls).get id now).2 = some p := by
  obtain ⟨key, before, after, split, still⟩ := newest
  have unexpired : ∀ t, t.since p.requestedAt ≤ ttl → p.isExpired t ttl = false :=
    fun t young => decide_eq_false (Int.not_lt.mpr young)
  refine get_some.mpr ⟨(afterCalls_get? ttl calls).mpr ⟨key, before, after, split, ?_⟩, ?_⟩
  · intro call member
    refine ⟨still call member, fun evicts => ?_⟩
    cases call with
    | get other t =>
      have listed : t ∈ clocks calls :=
        mem_clocks (split ▸ List.mem_append_right _ (List.mem_cons_of_mem _ member))
      have met := unexpired t (Int.le_trans (older t listed) young)
      exact nomatch met.symm.trans evicts.2
    | _ => exact evicts
  · rw [afterCalls_ttl]
    exact unexpired now young

/-- No clock goes back, and no time of the run falls into a leap second, past which ages can fall
while the clock goes on. -/
structure Steady (calls : List CacheCall) (now : Timestamp) : Prop where
  clock : Timestamp.NeverBack (clocks calls ++ [now])
  regular : ∀ t ∈ clocks calls ++ [now], t.inLeapSecond = false
  requests : ∀ p, .save p ∈ calls → p.requestedAt.inLeapSecond = false

theorem Steady.older (steady : Steady calls now) (saved : .save p ∈ calls) {t : Timestamp}
    (member : t ∈ clocks calls) : t.since p.requestedAt ≤ now.since p.requestedAt := by
  have later : 0 ≤ now.since t :=
    (List.pairwise_append.mp steady.clock).2.2 t member now (List.mem_singleton_self now)
  have sum := Timestamp.since_add (steady.requests p saved)
    (steady.regular t (List.mem_append_left _ member))
    (steady.regular now (List.mem_append_right _ (List.mem_singleton_self now)))
  omega

theorem Steady.get_iff (steady : Steady calls now) :
    ((afterCalls { ttl } calls).get id now).2 = some p ↔
      Newest id calls p ∧ now.since p.requestedAt ≤ ttl := by
  refine ⟨get_newest, fun h => ?_⟩
  obtain ⟨newest, young⟩ := h
  obtain ⟨before, after, split, _⟩ := newest.2
  have saved : .save p ∈ calls := split ▸ List.mem_append_right _ List.mem_cons_self
  exact get_of_newest newest young fun t member => steady.older saved member

theorem Steady.get_eq (steady : Steady calls now) :
    ((afterCalls { ttl } calls).get id now).2 =
      ((keptBy calls).get? id).filter fun p => !p.isExpired now ttl := by
  apply Option.ext
  intro p
  rw [steady.get_iff, ← keptBy_get?, Option.filter_eq_some_iff, Proposal.isExpired,
    Bool.not_eq_true', decide_eq_false_iff_not, gt_iff_lt, Int.not_lt]

/-- Whatever the clocks, a look-up finds nothing but the newest proposal under the id, and not after
its time. It finds that proposal if by no earlier clock the proposal was older; where the clocks
never go back and no time falls into a leap second, this is always so, and the answer is that of the
map that never evicts. Calls on one id leave the others alone. -/
theorem eviction_unseen (ttl : Int) (calls : List CacheCall) :
    (∀ id now p, ((afterCalls { ttl } calls).get id now).2 = some p →
      Newest id calls p ∧ now.since p.requestedAt ≤ ttl) ∧
    (∀ id now p, Newest id calls p → now.since p.requestedAt ≤ ttl →
      (∀ t ∈ clocks calls, t.since p.requestedAt ≤ now.since p.requestedAt) →
      ((afterCalls { ttl } calls).get id now).2 = some p) ∧
    (∀ id now, Steady calls now →
      (∀ p, ((afterCalls { ttl } calls).get id now).2 = some p ↔
        Newest id calls p ∧ now.since p.requestedAt ≤ ttl) ∧
      ((afterCalls { ttl } calls).get id now).2 =
        ((keptBy calls).get? id).filter fun p => !p.isExpired now ttl) ∧
    ∀ (c : ProposalCache) (call : CacheCall) (id : String), id ≠ call.id →
      (c.afterCall call).entries.get? id = c.entries.get? id := by
  refine ⟨?_, ?_, ?_, ?_⟩
  · exact fun id now p found => get_newest found
  · exact fun id now p newest young older => get_of_newest newest young older
  · exact fun id now steady => ⟨fun p => steady.get_iff, steady.get_eq⟩
  · exact fun c call id apart => afterCall_elsewhere c apart

def atSecond (n : Nat) : Timestamp := ⟨20000, n, 0⟩

def askedAt (id : String) (t : Timestamp) : Proposal :=
  ⟨id, "t1", "c1", 100, [], [], ⟨0, 0, 0, 0, 0, 0⟩, 2, [1, 2], [], t, .null⟩

def renewed : List CacheCall :=
  [.save (askedAt "a" (atSecond 0)), .get "a" (atSecond 100), .save (askedAt "a" (atSecond 90)),
    .save (askedAt "b" (atSecond 100)), .delete "b", .get "b" (atSecond 110)]

theorem eviction_unseen_renewed :
    let c := afterCalls { ttl := Timestamp.seconds 60 } renewed
    (c.get "a" (atSecond 120)).2 = some (askedAt "a" (atSecond 90)) ∧
      (c.get "b" (atSecond 120)).2 = none ∧
      (∀ p, (c.get "a" (atSecond 151)).2 ≠ some p) ∧
      (c.afterCall (.get "a" (atSecond 151))).entries.get? "b" = c.entries.get? "b" := by
  intro c
  obtain ⟨sound, found, complete, frame⟩ := eviction_unseen (Timestamp.seconds 60) renewed
  have steady : Steady renewed (atSecond 120) := by
    refine ⟨by decide, by decide, fun p member => ?_⟩
    simp only [renewed, List.mem_cons, CacheCall.save.injEq, reduceCtorEq, List.not_mem_nil,
      or_false, false_or] at member
    rcases member with same | same | same <;> rw [same] <;> rfl
  have kept : ∀ call ∈ renewed.drop 3, ¬ call.Replaces "a" := by decide
  have newest : Newest "a" renewed (askedAt "a" (atSecond 90)) :=
    ⟨rfl, renewed.take 2, renewed.drop 3, rfl, kept⟩
  refine ⟨found _ _ _ newest (by decide) (by decide), ?_, ?_, frame c _ "b" (by decide)⟩
  · rw [(complete "b" _ steady).2]
    have removed : (keptBy renewed).get? "b" = none := by rfl
    rw [removed]
    rfl
  · intro p answered
    obtain ⟨last, young⟩ := sound "a" (atSecond 151) p answered
    have held := (keptBy_get? renewed).mpr last
    rw [(keptBy_get? renewed).mpr newest] at held
    rw [← Option.some.inj held] at young
    exact absurd young (by decide)

/-- By a clock that goes back it shows that an entry is gone. -/
example :
    let c := afterCalls { ttl := Timestamp.seconds 2 }
    let asked := CacheCall.save (askedAt "a" (atSecond 58))
    ((c [asked, .get "a" (atSecond 61)]).get "a" (atSecond 60)).2 = none ∧
      ((c [asked]).get "a" (atSecond 60)).2.isSome = true := by decide

/-- Though no clock went back, a look-up misses the newest proposal before its time is over. -/
structure Misses (ttl : Int) (calls : List CacheCall) (now : Timestamp) (p : Proposal) :
    Prop where
  clock : Timestamp.NeverBack (clocks calls ++ [now])
  newest : Newest p.id calls p
  young : now.since p.requestedAt ≤ ttl
  missed : ((afterCalls { ttl } calls).get p.id now).2 = none

/-- Past a leap second proposals get younger: when the next second begins, if a look-up fell into
it, and at midnight, if the request did. -/
theorem eviction_seen_past_leap_second :
    let leap : Timestamp := ⟨20000, 59, 1500000000⟩
    let p := askedAt "a" (atSecond 58)
    let q := askedAt "a" leap
    Misses (Timestamp.seconds 2) [.save p, .get "a" leap] (atSecond 60) p ∧
      Misses (Timestamp.seconds 86340) [.save q, .get "a" ⟨20000, 86399, 900000000⟩]
        ⟨20001, 0, 0⟩ q := by
  intro leap p q
  have newest : ∀ (r : Proposal) t, Newest r.id [.save r, .get "a" t] r := by
    intro r t
    refine ⟨rfl, [], [.get "a" t], rfl, fun call member => ?_⟩
    rw [List.mem_singleton.mp member]
    exact not_false
  constructor
  · exact ⟨by decide, newest p _, by decide, by decide⟩
  · exact ⟨by decide, newest q _, by decide, by decide⟩

end ProposalCache

end SchoolTimetable

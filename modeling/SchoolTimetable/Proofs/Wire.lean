import SchoolTimetable.Proofs.Timestamp
import SchoolTimetable.Wire.Error

/-!
Everything that is written can be read again. A record is read again from its written form when its
fields are and their names differ, so each format is settled by its fields. A conflict detail
carries its kind as a field beside those of its record, which the record passes over.
-/
namespace SchoolTimetable

namespace Row
variable {α β : Type} {c : Codec α} {r : Row β} {name : String}

/-- Fields that are read again, provided that their names differ. -/
def Kept (r : Row β) : Prop := r.names.Nodup → r.Stable

theorem done_kept : done.Kept := fun _ => done_stable

theorem and_kept {f : RecordField α} (field : f.Stable) (rest : r.Kept) : (f.and r).Kept := by
  intro distinct
  obtain ⟨absent, others⟩ := List.nodup_cons.mp distinct
  exact RecordField.and_stable field (rest others) absent

theorem required_kept (stable : c.Stable) (rest : r.Kept) :
    ((RecordField.required name c).and r).Kept :=
  and_kept (RecordField.required_stable stable name) rest

theorem withDefault_kept (stable : c.Stable) {d : α} (given : c.decode (c.encode d) = some d)
    (rest : r.Kept) : ((RecordField.withDefault name c d).and r).Kept :=
  and_kept (RecordField.withDefault_stable stable name given) rest

theorem nullable_kept (stable : c.nullable.Stable) (rest : r.Kept) :
    ((RecordField.nullable name c).and r).Kept := withDefault_kept stable rfl rest

/-- An optional field, where an array that ends before it gives no value or is refused. -/
theorem optional_kept (stable : c.nullable.Stable) (rest : r.Kept) (cutOff : Option (Option α))
    (empty : ∀ a, cutOff = some a → a = none) :
    (RecordField.and { RecordField.optional name c with cutOff := cutOff } r).Kept := by
  refine and_kept ?_ rest
  intro a source
  cases a with
  | none => rfl
  | some x =>
    rcases source with ⟨o, read⟩ | cut
    · cases o with
      | none => cases read
      | some j => exact stable j (some x) read
    · cases empty _ cut

end Row

namespace Codec
variable {α β : Type}

theorem record_kept {r : Row β} (fields : r.Kept) (distinct : r.names.Nodup) {make : β → α}
    {parts : α → β} (whole : ∀ b, parts (make b) = b) : (record r make parts).Stable :=
  record_stable (fields distinct) whole

/-- Values are written as objects, and are read again from these, also behind other fields. -/
def Extensible (c : Codec α) (names : List String) : Prop :=
  ∀ j v, c.decode j = some v → ∃ fields, c.encode v = .obj fields ∧
    ∀ others : List (String × Json), (∀ f ∈ others, f.1 ∉ names) →
      c.decode (.obj (others ++ fields)) = some v

theorem Extensible.stable {c : Codec α} {names : List String} (extensible : c.Extensible names) :
    c.Stable := by
  intro j v read
  obtain ⟨fields, written, again⟩ := extensible j v read
  rw [written]
  exact again [] nofun

theorem Extensible.behind {c : Codec α} {names : List String} (extensible : c.Extensible names)
    (name : String) (strange : name ∉ names) {j : Json} {v : α} (read : c.decode j = some v)
    {fields : List (String × Json)} (written : c.encode v = .obj fields) (x : Json) :
    c.decode (.obj ((name, x) :: fields)) = some v := by
  obtain ⟨others, same, again⟩ := extensible j v read
  obtain rfl : others = fields := Json.obj.inj (same.symm.trans written)
  exact again [(name, x)] (by simpa using strange)

theorem record_extensible {r : Row β} (fields : r.Kept) (distinct : r.names.Nodup) {make : β → α}
    {parts : α → β} (whole : ∀ b, parts (make b) = b) :
    (record r make parts).Extensible r.names := by
  intro j v read
  refine ⟨r.write (parts v), rfl, fun others strange => ?_⟩
  refine record_again (fields distinct) whole read fun n known => ?_
  have missing : others.find? (fun f => f.1 == n) = none :=
    List.find?_eq_none.mpr fun f at_front same => strange f at_front (beq_iff_eq.mp same ▸ known)
  simp [Json.field?, List.find?_append, missing]

end Codec

namespace Wire
open Codec RecordField Row

/-! Plain values. -/

theorem byte_stable : byte.Stable := natural_stable 8

theorem count_stable : count.Stable := natural_stable 32

theorem int32_stable : int32.Stable := integer_stable _ _

theorem rowId_stable : rowId.Stable := integer_stable _ _

theorem nullableText_stable : text.nullable.Stable := by
  apply Codec.nullable_stable text_stable
  intro j a _ _ written
  cases written

theorem nullableRaw_stable : raw.nullable.Stable := by
  apply Codec.nullable_stable raw_stable
  rintro j _ full ⟨rfl⟩
  exact full

theorem optionalText_kept {β : Type} {r : Row β} {name : String} (rest : r.Kept) :
    ((optional name text).and r).Kept :=
  optional_kept nullableText_stable rest (some none) fun _ same => (Option.some.inj same).symm

theorem optionalRaw_kept {β : Type} {r : Row β} {name : String} (rest : r.Kept) :
    ((optional name raw).and r).Kept :=
  optional_kept nullableRaw_stable rest (some none) fun _ same => (Option.some.inj same).symm

/-! Records. -/

theorem cell_stable : cell.Stable :=
  record_kept (required_kept byte_stable <| required_kept byte_stable done_kept) (by decide)
    fun _ => rfl

theorem term_stable : term.Stable :=
  record_kept (required_kept text_stable <| required_kept text_stable done_kept) (by decide)
    fun _ => rfl

theorem classGroup_stable : classGroup.Stable :=
  record_kept (required_kept text_stable <| required_kept text_stable done_kept) (by decide)
    fun _ => rfl

theorem subject_stable : subject.Stable :=
  record_kept (required_kept text_stable <| required_kept text_stable done_kept) (by decide)
    fun _ => rfl

theorem assignment_stable : assignment.Stable :=
  record_kept
    (required_kept text_stable <| required_kept text_stable <| required_kept text_stable <|
      required_kept text_stable done_kept)
    (by decide) fun _ => rfl

theorem preference_stable : preference.Stable :=
  record_kept
    (required_kept text_stable <| withDefault_kept count_stable (by decide) <|
      withDefault_kept count_stable (by decide) <|
      withDefault_kept (list_stable text_stable) rfl done_kept)
    (by decide) fun _ => rfl

theorem load_stable : load.Stable :=
  record_kept
    (required_kept text_stable <| required_kept text_stable <| required_kept count_stable <|
      withDefault_kept int32_stable (by decide) <|
      withDefault_kept (list_stable int32_stable) rfl <| optionalText_kept done_kept)
    (by decide) fun _ => rfl

theorem lesson_stable : lesson.Stable :=
  record_kept
    (required_kept byte_stable <| required_kept byte_stable <| required_kept text_stable <|
      required_kept text_stable <| optionalText_kept done_kept)
    (by decide) fun _ => rfl

theorem shortfallWith_extensible (isNothing : Json → Bool) :
    (shortfallWith isNothing).Extensible ["type", "subject_id", "teacher_id", "message"] :=
  record_extensible
    (required_kept (enumeration_stable _ _ _) <| required_kept text_stable <|
      required_kept text_stable <| required_kept text_stable done_kept)
    (show (["type", "subject_id", "teacher_id", "message"] : List String).Nodup by decide)
    fun _ => rfl

theorem shortfall_stable : shortfall.Stable := (shortfallWith_extensible _).stable

theorem stats_stable : stats.Stable :=
  record_kept
    (required_kept count_stable <| required_kept count_stable <| required_kept count_stable <|
      required_kept count_stable <| required_kept count_stable <|
      required_kept count_stable done_kept)
    (by decide) fun _ => rfl

theorem proposal_stable : proposal.Stable :=
  record_kept
    (required_kept text_stable <| required_kept text_stable <| required_kept text_stable <|
      required_kept count_stable <| required_kept (list_stable lesson_stable) <|
      required_kept (list_stable shortfall_stable) <| required_kept stats_stable <|
      required_kept byte_stable <| required_kept (list_stable byte_stable) <|
      required_kept (list_stable load_stable) <| required_kept Timestamp.codec_stable <|
      withDefault_kept raw_stable rfl done_kept)
    (by decide) fun _ => rfl

theorem newDaily_stable : newDaily.Stable :=
  record_kept
    (required_kept text_stable <| required_kept text_stable <| required_kept text_stable <|
      required_kept text_stable <| required_kept byte_stable <| required_kept byte_stable <|
      nullable_kept nullableText_stable done_kept)
    (by decide) fun _ => rfl

theorem daily_stable : daily.Stable :=
  record_kept
    (required_kept rowId_stable <| required_kept text_stable <| required_kept text_stable <|
      required_kept text_stable <| required_kept text_stable <| required_kept byte_stable <|
      required_kept byte_stable <| nullable_kept nullableText_stable done_kept)
    (by decide) fun _ => rfl

theorem newSemester_stable : newSemester.Stable :=
  record_kept
    (required_kept text_stable <| required_kept text_stable <|
      required_kept (enumeration_stable _ _ _) <| required_kept raw_stable done_kept)
    (by decide) fun _ => rfl

theorem semester_stable : semester.Stable :=
  record_kept
    (required_kept rowId_stable <| required_kept text_stable <| required_kept text_stable <|
      required_kept (enumeration_stable _ _ _) <| required_kept count_stable <|
      required_kept raw_stable <| required_kept Timestamp.codec_stable done_kept)
    (by decide) fun _ => rfl

theorem semesterSlot_stable : semesterSlot.Stable :=
  record_kept
    (required_kept rowId_stable <| required_kept byte_stable <| required_kept byte_stable <|
      required_kept text_stable <| required_kept text_stable <|
      nullable_kept nullableText_stable done_kept)
    (by decide) fun _ => rfl

theorem collisionWith_extensible (isNothing : Json → Bool) :
    (collisionWith isNothing).Extensible
      ["dimension", "day_of_week", "time_slot", "subject_id", "teacher_id", "existing"] :=
  record_extensible
    (required_kept (enumeration_stable _ _ _) <| required_kept byte_stable <|
      required_kept byte_stable <| required_kept text_stable <| required_kept text_stable <|
      required_kept daily_stable done_kept)
    (show (["dimension", "day_of_week", "time_slot", "subject_id", "teacher_id", "existing"] :
      List String).Nodup by decide)
    fun _ => rfl

theorem statusParts_extensible : statusParts.Extensible ["schedule_id", "status"] :=
  record_extensible
    (required_kept rowId_stable <| required_kept (enumeration_stable _ _ _) done_kept) (by decide)
    fun _ => rfl

theorem generateRequest_stable : generateRequest.Stable :=
  record_kept
    (required_kept text_stable <| required_kept text_stable <| required_kept int32_stable <|
      required_kept (list_stable int32_stable) <| required_kept (list_stable load_stable) <|
      optionalRaw_kept <| optionalRaw_kept done_kept)
    (by decide) fun _ => rfl

theorem generateResponse_stable : generateResponse.Stable :=
  record_kept
    (required_kept text_stable <| required_kept count_stable <|
      required_kept (list_stable lesson_stable) <|
      required_kept (list_stable shortfall_stable) <| required_kept stats_stable done_kept)
    (by decide) fun _ => rfl

theorem saveRequest_stable : saveRequest.Stable :=
  record_kept (required_kept text_stable <| withDefault_kept flag_stable rfl done_kept) (by decide)
    fun _ => rfl

theorem semesterQuery_stable : semesterQuery.Stable :=
  record_kept (required_kept text_stable <| required_kept text_stable done_kept) (by decide)
    fun _ => rfl

theorem createDailyRequest_stable : createDailyRequest.Stable :=
  record_kept
    (required_kept text_stable <| required_kept text_stable <| required_kept text_stable <|
      required_kept text_stable <| required_kept int32_stable <| required_kept int32_stable <|
      optionalText_kept done_kept)
    (by decide) fun _ => rfl

theorem settings_stable : settings.Stable :=
  record_kept
    (withDefault_kept (natural_stable 64) (by decide) <|
      withDefault_kept count_stable (by decide) <|
      withDefault_kept byte_stable (by decide) done_kept)
    (by decide) fun _ => rfl

theorem settingsFile_stable : settingsFile.Stable :=
  record_kept (withDefault_kept settings_stable (by decide) done_kept) (by decide) fun _ => rfl

theorem apiError_stable : apiError.Stable :=
  record_kept
    (required_kept text_stable <| required_kept (natural_stable 16) <| required_kept text_stable <|
      optional_kept nullableRaw_stable done_kept none nofun)
    (by decide) fun _ => rfl

/-! Conflict details. -/

end Wire

inductive DetailKind where
  | shortfall
  | collision
  | status
  deriving DecidableEq, Repr

def ConflictDetail.kind : ConflictDetail → DetailKind
  | .shortfall _ => .shortfall
  | .collision _ => .collision
  | .status _ _ => .status

namespace Wire
open Codec

theorem detailTag_eq_iff (d e : ConflictDetail) : detailTag d = detailTag e ↔ d.kind = e.kind := by
  cases d <;> cases e <;> simp [detailTag, ConflictDetail.kind]

theorem detail_encode (d : ConflictDetail) :
    ∃ fields, detailBody d = .obj fields ∧
      detail.encode d = .obj (("source", .str (detailTag d)) :: fields) := by
  cases d <;> exact ⟨_, rfl, rfl⟩

theorem detail_decode_tagged (tag : String) (fields : List (String × Json)) :
    detail.decode (.obj (("source", .str tag) :: fields)) =
      untag tag (.obj (("source", .str tag) :: fields)) := by
  simp [detail, Json.field?]

theorem untag_of_detail_decode {j : Json} {d : ConflictDetail} (read : detail.decode j = some d) :
    ∃ tag body, untag tag body = some d := by
  unfold detail at read
  grind

theorem untag_cases {tag : String} {body : Json} {d : ConflictDetail}
    (read : untag tag body = some d) :
    (∃ s, d = .shortfall s ∧ tag = detailTag d ∧ (shortfallWith isNothing).decode body = some s) ∨
    (∃ c, d = .collision c ∧ tag = detailTag d ∧ (collisionWith isNothing).decode body = some c) ∨
    ∃ i s, d = .status i s ∧ tag = detailTag d ∧ statusParts.decode body = some (i, s) := by
  unfold untag at read
  split at read
  · obtain ⟨s, shortfall, rfl⟩ := Option.map_eq_some_iff.mp read
    exact .inl ⟨s, rfl, ‹_›, shortfall⟩
  · split at read
    · obtain ⟨c, collision, rfl⟩ := Option.map_eq_some_iff.mp read
      exact .inr (.inl ⟨c, rfl, ‹_›, collision⟩)
    · split at read
      · obtain ⟨⟨i, s⟩, parts, rfl⟩ := Option.map_eq_some_iff.mp read
        exact .inr (.inr ⟨i, s, rfl, ‹_›, parts⟩)
      · cases read

theorem tag_of_untag {tag : String} {body : Json} {d : ConflictDetail}
    (read : untag tag body = some d) : tag = detailTag d := by
  obtain ⟨_, -, same, -⟩ | ⟨_, -, same, -⟩ | ⟨_, _, -, same, -⟩ := untag_cases read <;> exact same

/-- The field of the tag is none of those of the record, which passes over it. -/
theorem untag_again {tag : String} {body : Json} {d : ConflictDetail}
    (read : untag tag body = some d) {fields : List (String × Json)}
    (written : detailBody d = .obj fields) :
    untag (detailTag d) (.obj (("source", .str (detailTag d)) :: fields)) = some d := by
  obtain ⟨s, rfl, -, payload⟩ | ⟨c, rfl, -, payload⟩ | ⟨i, s, rfl, -, payload⟩ := untag_cases read
  · simp [untag, detailTag,
      (shortfallWith_extensible _).behind "source" (by decide) payload written]
  · simp [untag, detailTag,
      (collisionWith_extensible _).behind "source" (by decide) payload written]
  · simp [untag, detailTag, statusParts_extensible.behind "source" (by decide) payload written]

theorem detail_stable : detail.Stable := by
  intro j d read
  obtain ⟨tag, body, payload⟩ := untag_of_detail_decode read
  obtain ⟨fields, body_written, written⟩ := detail_encode d
  rw [written, detail_decode_tagged]
  exact untag_again payload body_written

theorem kind_of_source {fields : List (String × Json)} {d e : ConflictDetail}
    (source : Json.field? fields "source" = some (.str (detailTag d)))
    (read : detail.decode (.obj fields) = some e) : e.kind = d.kind := by
  simp only [detail, source] at read
  exact ((detailTag_eq_iff d e).mp (tag_of_untag read)).symm

/-! All formats. -/

inductive Format where
  | textId | rowId | transactionId
  | shortfallKind | status | dimension
  | cell | term | classGroup | subject | assignment | preference
  | load | lesson | shortfall | stats | proposal
  | newSemester | semester | semesterSlot | newDaily | daily
  | collision | detail
  | generateRequest | generateResponse | saveRequest | semesterQuery | createDailyRequest
  | settings | settingsFile
  | apiError
  deriving DecidableEq, Repr

namespace Format

def Value : Format → Type
  | textId => String
  | rowId => Int
  | transactionId => Nat
  | shortfallKind => ShortfallKind
  | status => ScheduleStatus
  | dimension => CollisionDimension
  | cell => Cell
  | term => Term
  | classGroup => ClassGroup
  | subject => Subject
  | assignment => Assignment
  | preference => TeacherPreference
  | load => SubjectLoad
  | lesson => Lesson
  | shortfall => Shortfall
  | stats => PlanStats
  | proposal => Proposal
  | newSemester => NewSemesterSchedule
  | semester => SemesterSchedule
  | semesterSlot => SemesterSlot
  | newDaily => NewDailyLesson
  | daily => DailyLesson
  | collision => Collision
  | detail => ConflictDetail
  | generateRequest => GenerateRequest
  | generateResponse => GenerateResponse
  | saveRequest => SaveRequest
  | semesterQuery => SemesterQuery
  | createDailyRequest => CreateDailyRequest
  | settings | settingsFile => Settings
  | apiError => ApiError

def codec : (f : Format) → Codec f.Value
  | textId => text
  | rowId => Wire.rowId
  | transactionId => natural 64
  | shortfallKind => enumeration Json.isNull [.unfulfilledLoad] ShortfallKind.name
  | status => Wire.status
  | dimension => Wire.dimension
  | cell => Wire.cell
  | term => Wire.term
  | classGroup => Wire.classGroup
  | subject => Wire.subject
  | assignment => Wire.assignment
  | preference => Wire.preference
  | load => Wire.load
  | lesson => Wire.lesson
  | shortfall => Wire.shortfall
  | stats => Wire.stats
  | proposal => Wire.proposal
  | newSemester => Wire.newSemester
  | semester => Wire.semester
  | semesterSlot => Wire.semesterSlot
  | newDaily => Wire.newDaily
  | daily => Wire.daily
  | collision => Wire.collision
  | detail => Wire.detail
  | generateRequest => Wire.generateRequest
  | generateResponse => Wire.generateResponse
  | saveRequest => Wire.saveRequest
  | semesterQuery => Wire.semesterQuery
  | createDailyRequest => Wire.createDailyRequest
  | settings => Wire.settings
  | settingsFile => Wire.settingsFile
  | apiError => Wire.apiError

theorem codec_stable (f : Format) : f.codec.Stable := by
  cases f with
  | textId => exact text_stable
  | rowId => exact rowId_stable
  | transactionId => exact natural_stable 64
  | shortfallKind => exact enumeration_stable _ _ _
  | status => exact enumeration_stable _ _ _
  | dimension => exact enumeration_stable _ _ _
  | cell => exact cell_stable
  | term => exact term_stable
  | classGroup => exact classGroup_stable
  | subject => exact subject_stable
  | assignment => exact assignment_stable
  | preference => exact preference_stable
  | load => exact load_stable
  | lesson => exact lesson_stable
  | shortfall => exact shortfall_stable
  | stats => exact stats_stable
  | proposal => exact proposal_stable
  | newSemester => exact newSemester_stable
  | semester => exact semester_stable
  | semesterSlot => exact semesterSlot_stable
  | newDaily => exact newDaily_stable
  | daily => exact daily_stable
  | collision => exact (collisionWith_extensible _).stable
  | detail => exact detail_stable
  | generateRequest => exact generateRequest_stable
  | generateResponse => exact generateResponse_stable
  | saveRequest => exact saveRequest_stable
  | semesterQuery => exact semesterQuery_stable
  | createDailyRequest => exact createDailyRequest_stable
  | settings => exact settings_stable
  | settingsFile => exact settingsFile_stable
  | apiError => exact apiError_stable

end Format

/-- In every format, what has been read from any JSON value, in whichever form, is read again from
what is written of it. The field `source` of a written conflict detail says its kind: it tells the
kinds apart, whatever object carries it is read as that kind or not at all, and a written detail is
never read as one of another kind. -/
theorem written_is_read_back :
    (∀ (f : Format) (j : Json) (v : f.Value),
      f.codec.decode j = some v → f.codec.decode (f.codec.encode v) = some v) ∧
    (∀ d : ConflictDetail, ∃ fields, detail.encode d = .obj fields ∧
      Json.field? fields "source" = some (.str (detailTag d))) ∧
    (∀ d e : ConflictDetail, detailTag d = detailTag e ↔ d.kind = e.kind) ∧
    (∀ (d e : ConflictDetail) (fields : List (String × Json)),
      Json.field? fields "source" = some (.str (detailTag d)) →
        detail.decode (.obj fields) = some e → e.kind = d.kind) ∧
    ∀ d e : ConflictDetail, detail.decode (detail.encode d) = some e → e.kind = d.kind := by
  have source : ∀ d : ConflictDetail, ∃ fields, detail.encode d = .obj fields ∧
      Json.field? fields "source" = some (.str (detailTag d)) := by
    intro d
    obtain ⟨fields, -, written⟩ := detail_encode d
    exact ⟨_, written, rfl⟩
  refine ⟨Format.codec_stable, source, detailTag_eq_iff, fun _ _ _ => kind_of_source, ?_⟩
  intro d e read
  obtain ⟨fields, written, tagged⟩ := source d
  rw [written] at read
  exact kind_of_source tagged read

theorem written_is_read_back_status :
    detail.decode (.arr [.str "STATUS", .int 3, .obj [("PUBLISHED", .obj [])]]) =
      some (.status 3 .published) ∧
    detail.decode (detail.encode (.status 3 .published)) = some (.status 3 .published) := by
  have read : detail.decode (.arr [.str "STATUS", .int 3, .obj [("PUBLISHED", .obj [])]]) =
      some (.status 3 .published) := by decide
  exact ⟨read, written_is_read_back.1 .detail _ _ read⟩

end Wire

end SchoolTimetable

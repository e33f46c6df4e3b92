import Murder.Contracts.Identifiers
import Murder.Library.Schemas
import Murder.Triggers.Contracts
import Murder.Triggers.Instants

/-! The stored body of a payload, and the payload read back from it. -/

namespace Murder.Facts

open Contracts Library.Schemas Triggers

inductive FieldType
  | uuid
  | text (least : Nat)
  | literal (allowed : List String)
  | optionalText
  | count (least : Nat)
  | time
  | object

inductive FieldValue
  | uuid (id : Uuid)
  | text (value : String)
  | optionalText (value : Option String)
  | count (value : Nat)
  | time (instant : Timestamp)
  | object (fields : JsonObject)

def FieldType.Holds : FieldType → FieldValue → Prop
  | .uuid, .uuid _ => True
  | .text least, .text value => least ≤ value.length
  | .literal allowed, .text value => value ∈ allowed
  | .optionalText, .optionalText _ => True
  | .count least, .count value => least ≤ value
  | .time, .time instant => IsDatetime instant
  | .object, .object _ => True
  | _, _ => False

def FieldValue.dump : FieldValue → JsonValue
  | .uuid id => .str id.str
  | .text value => .str value
  | .optionalText none => .null
  | .optionalText (some value) => .str value
  | .count value => .int value
  | .time instant => .str (String.ofList (stampText instant "Z".toList))
  | .object fields => .obj fields

def readTime (text : String) : Option Timestamp := do
  let (instant, rest) ← readStamp text.toList
  if rest = "Z".toList then some instant else none

def FieldType.validate : FieldType → JsonValue → Option FieldValue
  | .uuid, .str raw => (Uuid.parse raw).map .uuid
  | .text least, .str value => if least ≤ value.length then some (.text value) else none
  | .literal allowed, .str value => if value ∈ allowed then some (.text value) else none
  | .optionalText, .null => some (.optionalText none)
  | .optionalText, .str value => some (.optionalText (some value))
  | .count least, .int value => if least ≤ value then some (.count value.toNat) else none
  | .time, .str raw => (readTime raw).map .time
  | .object, .obj fields => some (.object fields)
  | _, _ => none

theorem readTime_stampText {instant : Timestamp} (dated : IsDatetime instant)
    : readTime (String.ofList (stampText instant "Z".toList)) = some instant := by
  unfold readTime
  rw [String.toList_ofList, readStamp_stampText dated rfl]
  rfl

theorem FieldType.validate_dump {type : FieldType} {value : FieldValue}
    (holds : type.Holds value)
    : type.validate value.dump = some value := by
  cases type <;> cases value <;> try exact holds.elim
  case uuid.uuid id => simp [FieldType.validate, FieldValue.dump, Uuid.parse_str]
  case text.text least value => exact if_pos holds
  case literal.text allowed value => exact if_pos holds
  case optionalText.optionalText value => cases value <;> rfl
  case count.count least value =>
      have enough : (least : Int) ≤ value := Int.ofNat_le.mpr holds
      simp [FieldType.validate, FieldValue.dump, enough]
  case time.time instant => exact congrArg (Option.map FieldValue.time) (readTime_stampText holds)
  case object.object fields => rfl

def fieldCodec : Codec FieldType FieldValue JsonValue where
  Holds := FieldType.Holds
  dump := FieldValue.dump
  validate := FieldType.validate
  validate_dump := FieldType.validate_dump

/-- A registered payload model: its fields, and the payload of their values. -/
structure PayloadModel where
  fields : List (Field FieldType FieldValue)
  build : List FieldValue → Option FactPayload

def typeField (type : String) : Field FieldType FieldValue :=
  ⟨"type", .literal [type], some (.text type)⟩

def workflowStartedPayload : PayloadModel where
  fields := [
    typeField "workflow.started",
    ⟨"workflow_id", .uuid, none⟩,
    ⟨"definition_name", .text 1, none⟩,
    ⟨"definition_version", .count 1, none⟩,
    ⟨"status", .text 1, none⟩
  ]
  build
    | [_, .uuid workflowId, .text definitionName, .count definitionVersion, .text status] =>
      some (.workflowStarted workflowId definitionName definitionVersion status)
    | _ => none

def workflowTransitionAppliedPayload : PayloadModel where
  fields := [
    typeField "workflow.transition.applied",
    ⟨"workflow_id", .uuid, none⟩,
    ⟨"from_status", .text 1, none⟩,
    ⟨"to_status", .text 1, none⟩,
    ⟨"revision", .count 1, none⟩
  ]
  build
    | [_, .uuid workflowId, .text fromStatus, .text toStatus, .count revision] =>
      some (.workflowTransitionApplied workflowId fromStatus toStatus revision)
    | _ => none

def workflowStateMigratedPayload : PayloadModel where
  fields := [
    typeField "workflow.state.migrated",
    ⟨"workflow_id", .uuid, none⟩,
    ⟨"migration_name", .text 1, none⟩,
    ⟨"from_schema_name", .text 1, none⟩,
    ⟨"from_schema_version", .count 1, none⟩,
    ⟨"to_schema_name", .text 1, none⟩,
    ⟨"to_schema_version", .count 1, none⟩,
    ⟨"revision", .count 1, none⟩
  ]
  build
    | [_, .uuid workflowId, .text migrationName, .text fromSchemaName,
        .count fromSchemaVersion, .text toSchemaName, .count toSchemaVersion,
        .count revision] =>
        some (.workflowStateMigrated workflowId migrationName fromSchemaName fromSchemaVersion
          toSchemaName toSchemaVersion revision)
    | _ => none

def workflowOutcomeRecordedPayload : PayloadModel where
  fields := [
    typeField "workflow.outcome.recorded",
    ⟨"workflow_id", .uuid, none⟩,
    ⟨"definition_name", .text 1, none⟩,
    ⟨"outcome", .literal ["completed", "failed", "cancelled"], none⟩,
    ⟨"reason", .optionalText, some (.optionalText none)⟩
  ]
  build
    | [_, .uuid workflowId, .text definitionName, .text outcome, .optionalText reason] =>
      some (.workflowOutcomeRecorded workflowId definitionName outcome reason)
    | _ => none

def activityStateFactType : List String :=
  ["activity.created", "activity.routed", "activity.admitted", "activity.claimed",
    "activity.claim_renewed", "activity.started", "activity.claim_reaped"]

def activityStateChangedPayload : PayloadModel where
  fields := [
    ⟨"type", .literal activityStateFactType, none⟩,
    ⟨"activity_id", .uuid, none⟩,
    ⟨"workflow_id", .uuid, none⟩,
    ⟨"status", .text 1, none⟩,
    ⟨"revision", .count 0, none⟩,
    ⟨"attempt", .count 0, none⟩,
    ⟨"claim_fence", .count 0, none⟩
  ]
  build
    | [.text type, .uuid activityId, .uuid workflowId, .text status, .count revision,
        .count attempt, .count claimFence] =>
        some (.activityStateChanged type activityId workflowId status revision attempt
          claimFence)
    | _ => none

def activityOutcomeFactType : List String :=
  ["activity.succeeded", "activity.failed", "activity.cancelled"]

def activityOutcomeRecordedPayload : PayloadModel where
  fields := [
    ⟨"type", .literal activityOutcomeFactType, none⟩,
    ⟨"workflow_id", .uuid, none⟩,
    ⟨"result_id", .uuid, none⟩,
    ⟨"attempt", .count 0, none⟩,
    ⟨"outcome", .object, none⟩
  ]
  build
    | [.text type, .uuid workflowId, .uuid resultId, .count attempt, .object outcome] =>
      some (.activityOutcomeRecorded type workflowId resultId attempt outcome)
    | _ => none

def leaseMode : FieldType := .literal ["structured", "raw_terminal"]

def heldLease (type : String) (payload : Uuid → Uuid → String → Nat → Timestamp → FactPayload)
    : PayloadModel where
  fields := [
    typeField type,
    ⟨"session_id", .uuid, none⟩,
    ⟨"lease_id", .uuid, none⟩,
    ⟨"mode", leaseMode, none⟩,
    ⟨"fence", .count 1, none⟩,
    ⟨"expires_at", .time, none⟩
  ]
  build
    | [_, .uuid sessionId, .uuid leaseId, .text mode, .count fence, .time expiresAt] =>
      some (payload sessionId leaseId mode fence expiresAt)
    | _ => none

def endedLease (type : String) (payload : Uuid → Uuid → String → Nat → String → FactPayload)
    : PayloadModel where
  fields := [
    typeField type,
    ⟨"session_id", .uuid, none⟩,
    ⟨"lease_id", .uuid, none⟩,
    ⟨"mode", leaseMode, none⟩,
    ⟨"fence", .count 1, none⟩,
    ⟨"reason", .text 1, none⟩
  ]
  build
    | [_, .uuid sessionId, .uuid leaseId, .text mode, .count fence, .text reason] =>
      some (payload sessionId leaseId mode fence reason)
    | _ => none

def writerLeaseAcquiredPayload : PayloadModel :=
  heldLease "session.writer.acquired" .writerLeaseAcquired

def writerLeaseRenewedPayload : PayloadModel :=
  heldLease "session.writer.renewed" .writerLeaseRenewed

def writerLeaseReleasedPayload : PayloadModel :=
  endedLease "session.writer.released" .writerLeaseReleased

def writerLeaseRevokedPayload : PayloadModel :=
  endedLease "session.writer.revoked" .writerLeaseRevoked

def writerLeaseTakeoverPayload : PayloadModel where
  fields := [
    typeField "session.writer.takeover",
    ⟨"session_id", .uuid, none⟩,
    ⟨"previous_lease_id", .uuid, none⟩,
    ⟨"previous_fence", .count 1, none⟩,
    ⟨"lease_id", .uuid, none⟩,
    ⟨"mode", leaseMode, none⟩,
    ⟨"fence", .count 1, none⟩,
    ⟨"reason", .text 1, none⟩,
    ⟨"expires_at", .time, none⟩
  ]
  build
    | [_, .uuid sessionId, .uuid previousLeaseId, .count previousFence, .uuid leaseId,
        .text mode, .count fence, .text reason, .time expiresAt] =>
        some (.writerLeaseTakeover sessionId previousLeaseId previousFence leaseId mode fence
          reason expiresAt)
    | _ => none

def sessionLifecycleType : List String :=
  ["session.ready", "session.stopped", "session.failed", "session.lost"]

def sessionLifecyclePayload : PayloadModel where
  fields := [
    ⟨"type", .literal sessionLifecycleType, none⟩,
    ⟨"session_id", .uuid, none⟩,
    ⟨"from_status", .optionalText, some (.optionalText none)⟩,
    ⟨"to_status", .literal ["ready", "stopped", "failed", "lost"], none⟩,
    ⟨"revision", .count 0, none⟩,
    ⟨"harness", .text 1, none⟩,
    ⟨"transport", .literal ["tmux", "app_server", "subprocess"], none⟩
  ]
  build
    | [.text type, .uuid sessionId, .optionalText fromStatus, .text toStatus,
        .count revision, .text harness, .text transport] =>
        some (.sessionLifecycle type sessionId fromStatus toStatus revision harness transport)
    | _ => none

def publicModels : List (String × PayloadModel) :=
  [("workflow.started", workflowStartedPayload),
    ("workflow.transition.applied", workflowTransitionAppliedPayload),
    ("workflow.state.migrated", workflowStateMigratedPayload),
    ("workflow.outcome.recorded", workflowOutcomeRecordedPayload)]
  ++ activityStateFactType.map (fun type => (type, activityStateChangedPayload))
  ++ activityOutcomeFactType.map (fun type => (type, activityOutcomeRecordedPayload))
  ++ [("session.writer.acquired", writerLeaseAcquiredPayload),
    ("session.writer.renewed", writerLeaseRenewedPayload),
    ("session.writer.released", writerLeaseReleasedPayload),
    ("session.writer.revoked", writerLeaseRevokedPayload),
    ("session.writer.takeover", writerLeaseTakeoverPayload)]
  ++ sessionLifecycleType.map (fun type => (type, sessionLifecyclePayload))

theorem publicModels_types : publicModels.map Prod.fst = publicTypes := rfl

def FactPayload.record? : FactPayload → Option (PayloadModel × List FieldValue)
  | .workflowStarted workflowId definitionName definitionVersion status =>
    some (workflowStartedPayload, [.text "workflow.started", .uuid workflowId,
      .text definitionName, .count definitionVersion, .text status])
  | .workflowTransitionApplied workflowId fromStatus toStatus revision =>
    some (workflowTransitionAppliedPayload, [.text "workflow.transition.applied",
      .uuid workflowId, .text fromStatus, .text toStatus, .count revision])
  | .workflowStateMigrated workflowId migrationName fromSchemaName fromSchemaVersion toSchemaName
      toSchemaVersion revision =>
      some (workflowStateMigratedPayload, [.text "workflow.state.migrated", .uuid workflowId,
        .text migrationName, .text fromSchemaName, .count fromSchemaVersion, .text toSchemaName,
        .count toSchemaVersion, .count revision])
  | .workflowOutcomeRecorded workflowId definitionName outcome reason =>
    some (workflowOutcomeRecordedPayload, [.text "workflow.outcome.recorded",
      .uuid workflowId, .text definitionName, .text outcome, .optionalText reason])
  | .activityStateChanged type activityId workflowId status revision attempt claimFence =>
    some (activityStateChangedPayload, [.text type, .uuid activityId, .uuid workflowId,
      .text status, .count revision, .count attempt, .count claimFence])
  | .activityOutcomeRecorded type workflowId resultId attempt outcome =>
    some (activityOutcomeRecordedPayload, [.text type, .uuid workflowId, .uuid resultId,
      .count attempt, .object outcome])
  | .writerLeaseAcquired sessionId leaseId mode fence expiresAt =>
    some (writerLeaseAcquiredPayload, [.text "session.writer.acquired", .uuid sessionId,
      .uuid leaseId, .text mode, .count fence, .time expiresAt])
  | .writerLeaseRenewed sessionId leaseId mode fence expiresAt =>
    some (writerLeaseRenewedPayload, [.text "session.writer.renewed", .uuid sessionId,
      .uuid leaseId, .text mode, .count fence, .time expiresAt])
  | .writerLeaseReleased sessionId leaseId mode fence reason =>
    some (writerLeaseReleasedPayload, [.text "session.writer.released", .uuid sessionId,
      .uuid leaseId, .text mode, .count fence, .text reason])
  | .writerLeaseRevoked sessionId leaseId mode fence reason =>
    some (writerLeaseRevokedPayload, [.text "session.writer.revoked", .uuid sessionId,
      .uuid leaseId, .text mode, .count fence, .text reason])
  | .writerLeaseTakeover sessionId previousLeaseId previousFence leaseId mode fence reason
      expiresAt =>
      some (writerLeaseTakeoverPayload, [.text "session.writer.takeover", .uuid sessionId,
        .uuid previousLeaseId, .count previousFence, .uuid leaseId, .text mode, .count fence,
        .text reason, .time expiresAt])
  | .sessionLifecycle type sessionId fromStatus toStatus revision harness transport =>
    some (sessionLifecyclePayload, [.text type, .uuid sessionId, .optionalText fromStatus,
      .text toStatus, .count revision, .text harness, .text transport])
  | _ => none

/-- A payload its constructor accepts. The features' own payloads are not among the values:
each is a private payload of its kind.
-/
def FactPayload.Accepted (payload : FactPayload) : Prop :=
  match payload with
  | .private_ kind _ => 1 ≤ kind.length ∧ kind.length ≤ 200 ∧ kind ∉ publicTypes
  | _ => ∃ model values, payload.record? = some (model, values)
      ∧ Accepts fieldCodec model.fields values

/-- `payload.model_dump` of the public payloads. -/
instance registeredDump : FactPayloadDump where
  modelDump payload :=
    match payload.record? with
    | some (model, values) => .ofList (dump fieldCodec model.fields values)
    | none => .nil

def validateBody (body : JsonObject) : Option FactPayload :=
  match body.get? "type" with
  | some (.str type) => do
      let model ← entry? publicModels type
      let values ← validate fieldCodec model.fields body.toList
      model.build values
  | _ => none

def privateFields : List (Field FieldType FieldValue) := [
  typeField "fact.private",
  ⟨"kind", .text 1, none⟩,
  ⟨"data", .object, some (.object .nil)⟩
]

/-- `PrivateFactPayload.model_validate`. -/
def validatePrivate (body : JsonObject) : Option FactPayload := do
  match ← validate fieldCodec privateFields body.toList with
  | [_, .text kind, .object data] =>
    if kind.length ≤ 200 ∧ kind ∉ publicTypes then some (.private_ kind data) else none
  | _ => none

instance registeredAdapter : FactPayloadAdapter where
  validatePublic kind raw :=
    validateBody (if raw.get? "type" = none then .ofList (raw.toList ++ [("type", .str kind)])
      else raw)
  validatePrivate := validatePrivate

/-- The private data says of itself that it is a whole private payload. -/
def FactPayload.SelfDeclared (payload : FactPayload) : Prop :=
  ∃ kind data, payload = .private_ kind data ∧ data.get? "type" = some (.str "fact.private")

theorem toList_ofList (entries : List (String × JsonValue))
    : (JsonFields.ofList entries).toList = entries := by
  induction entries with
  | nil => rfl
  | cons entry entries ih => simp [JsonFields.ofList, JsonFields.toList, ih]

variable {model : PayloadModel}

theorem entry?_publicModels {type : String} (registered : (type, model) ∈ publicModels)
    : entry? publicModels type = some model := by
  refine entry?_of_mem ?_ registered
  rw [publicModels_types]
  decide

/-- A public payload starts with its kind, and its model is registered for that kind and
rebuilds it from its values.
-/
theorem FactPayload.record?_spec {payload : FactPayload}
    {values : List FieldValue} (record : payload.record? = some (model, values))
    (accepted : Accepts fieldCodec model.fields values)
    : (∃ field fields later, model.fields = field :: fields ∧ field.name = "type"
        ∧ values = .text payload.kind :: later)
      ∧ (payload.kind, model) ∈ publicModels
      ∧ (model.fields.map Field.name).Nodup ∧ model.build values = some payload := by
  cases payload <;> cases record
  case activityStateChanged type activityId workflowId status revision attempt claimFence =>
      have listed : type ∈ activityStateFactType := (List.forall₂_cons.mp accepted).1
      exact ⟨⟨_, _, _, rfl, rfl, rfl⟩, by simp [publicModels, listed, kind], by decide, rfl⟩
  case activityOutcomeRecorded type workflowId resultId attempt outcome =>
      have listed : type ∈ activityOutcomeFactType := (List.forall₂_cons.mp accepted).1
      exact ⟨⟨_, _, _, rfl, rfl, rfl⟩, by simp [publicModels, listed, kind], by decide, rfl⟩
  case sessionLifecycle type sessionId fromStatus toStatus revision harness transport =>
      have listed : type ∈ sessionLifecycleType := (List.forall₂_cons.mp accepted).1
      exact ⟨⟨_, _, _, rfl, rfl, rfl⟩, by simp [publicModels, listed, kind], by decide, rfl⟩
  all_goals exact ⟨⟨_, _, _, rfl, rfl, rfl⟩, by simp [publicModels, kind], by decide, rfl⟩

/-- A public payload is rebuilt from the body it is stored as. -/
theorem fromStorage_public {payload : FactPayload}
    {values : List FieldValue} (record : payload.record? = some (model, values))
    (accepted : Accepts fieldCodec model.fields values)
    : factPayloadFromStorage payload.kind (.ofList (dump fieldCodec model.fields values))
      = .ok payload := by
  obtain ⟨⟨field, fields, later, shape, name, first⟩, registered, distinct, built⟩ :=
    FactPayload.record?_spec record accepted
  have typed : (JsonFields.ofList (dump fieldCodec model.fields values)).get? "type"
      = some (.str payload.kind) := by
    rw [shape, first]
    exact if_pos name
  have isPublic : payload.kind ∈ publicTypes := by
    rw [← publicModels_types]
    exact List.mem_map_of_mem registered
  have open_ : payload.kind ≠ "fact.private" := by
    intro same
    rw [same] at isPublic
    exact absurd isPublic (by decide)
  have read : validateBody (.ofList (dump fieldCodec model.fields values)) = some payload := by
    simp only [validateBody, typed, entry?_publicModels registered, toList_ofList,
      validate_dump distinct accepted, Option.bind_eq_bind, Option.bind_some, built]
  unfold factPayloadFromStorage
  rw [typed, if_neg (by simpa using open_), if_pos isPublic]
  simp only [FactPayloadAdapter.validatePublic, typed, reduceCtorEq, if_false, read]

/-- What a body declares of its data lies inside the body. -/
theorem sizeOf_get? {fields : JsonFields} {key : String} {value : JsonValue}
    (found : fields.get? key = some value)
    : sizeOf value < sizeOf fields := by
  cases fields with
  | nil => cases found
  | cons first head tail =>
    simp only [JsonFields.get?] at found
    simp only [JsonFields.cons.sizeOf_spec]
    split at found
    · cases found
      omega
    · have inner := sizeOf_get? found
      omega

theorem entry?_toList (fields : JsonFields) (key : String)
    : entry? fields.toList key = fields.get? key := by
  cases fields with
  | nil => rfl
  | cons first head tail =>
    have later := entry?_toList tail key
    by_cases same : first = key
    · simp [JsonFields.toList, JsonFields.get?, entry?, same]
    · simpa [JsonFields.toList, JsonFields.get?, entry?, same] using later

theorem validatePrivate_smaller {body data : JsonObject} {kind : String}
    (read : validatePrivate body = some (.private_ kind data))
    (declared : body.get? "type" = some (.str "fact.private"))
    : sizeOf data < sizeOf body := by
  obtain ⟨values, fields, built⟩ := Option.bind_eq_some_iff.mp read
  obtain ⟨type, values, rfl, _, fields⟩ := readFields_cons (readFields_of_validate fields)
  obtain ⟨name, values, rfl, _, fields⟩ := readFields_cons fields
  obtain ⟨content, values, rfl, found, fields⟩ := readFields_cons fields
  cases fields
  have same : content = .object data := by
    cases name <;> cases content <;> simp at built
    rw [built.2.2]
  subst same
  simp only [readField, entry?_toList] at found
  cases inner : body.get? "data" with
  | none =>
    rw [inner] at found
    cases found
    cases body with
    | nil => cases declared
    | cons key value tail =>
      have positive : 0 < sizeOf tail := by cases tail <;> simp
      simp only [JsonFields.nil.sizeOf_spec, JsonFields.cons.sizeOf_spec]
      omega
  | some written =>
    rw [inner] at found
    have smaller := sizeOf_get? inner
    cases written <;> cases found
    rw [JsonValue.obj.sizeOf_spec] at smaller
    omega

/-- A payload is read back from its storage exactly if it is not private data that declares
itself a whole private payload: such data is validated in the payload's place.
-/
theorem fromStorage_storage_iff {payload : FactPayload} (accepted : payload.Accepted)
    : factPayloadFromStorage payload.kind (factPayloadStorage payload) = .ok payload
      ↔ ¬ payload.SelfDeclared := by
  cases payload
  case private_ kind data =>
      obtain ⟨_, _, closed⟩ := accepted
      by_cases declared : data.get? "type" = some (.str "fact.private")
      · have own : FactPayload.SelfDeclared (.private_ kind data) := ⟨kind, data, rfl, declared⟩
        refine iff_of_false (fun same => ?_) (not_not_intro own)
        have read : validatePrivate data = some (.private_ kind data) := by
          unfold factPayloadFromStorage factPayloadStorage at same
          simp only [FactPayload.kind, if_pos declared] at same
          split at same
          · next found => rwa [Except.ok.inj same] at found
          · cases same
        exact absurd (validatePrivate_smaller read declared) (Nat.lt_irrefl _)
      · have other : ¬ FactPayload.SelfDeclared (.private_ kind data) := by
          intro own
          obtain ⟨_, _, same, declares⟩ := own
          cases same
          exact declared declares
        refine iff_of_true ?_ other
        unfold factPayloadFromStorage factPayloadStorage
        rw [if_neg declared, FactPayload.kind, if_neg closed]
  all_goals
    obtain ⟨model, values, record, fields⟩ := accepted
    refine iff_of_true ?_ (fun own => ?_)
    · have read := fromStorage_public record fields
      cases record <;> exact read
    · obtain ⟨_, _, same, _⟩ := own
      cases same

/-- A lease's acquisition, with its expiry at the epoch. -/
theorem fromStorage_storage_lease
    : factPayloadFromStorage "session.writer.acquired"
        (factPayloadStorage (.writerLeaseAcquired 1 2 "structured" 3 0))
      = .ok (.writerLeaseAcquired 1 2 "structured" 3 0) := by
  have dated : IsDatetime 0 := by
    constructor <;> decide
  have mode : "structured" ∈ ["structured", "raw_terminal"] := List.mem_cons_self
  have accepted : FactPayload.Accepted (.writerLeaseAcquired 1 2 "structured" 3 0) :=
    ⟨_, _, rfl, .cons List.mem_cons_self (.cons trivial (.cons trivial (.cons mode
      (.cons (by decide : 1 ≤ 3) (.cons dated .nil)))))⟩
  refine (fromStorage_storage_iff accepted).mpr (fun own => ?_)
  obtain ⟨_, _, same, _⟩ := own
  cases same

/-- A note whose data names a private payload of another kind is read back as that one. -/
theorem fromStorage_selfDeclared
    : ∃ payload : FactPayload, payload.Accepted
      ∧ factPayloadFromStorage payload.kind (factPayloadStorage payload) ≠ .ok payload
      ∧ factPayloadFromStorage payload.kind (factPayloadStorage payload)
        = .ok (.private_ "other" .nil) := by
  refine ⟨.private_ "note" (.ofList [("type", .str "fact.private"), ("kind", .str "other")]),
    ?_, ?_, ?_⟩
  · refine ⟨by decide, by decide, by decide⟩
  · decide
  · decide

end Murder.Facts

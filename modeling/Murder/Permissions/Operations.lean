import Murder.Contracts.Identifiers
import Murder.Library.Schemas
import Murder.Permissions.Contracts
import Murder.Permissions.Destinations
import Murder.Permissions.Paths

/-! The models of proposed operations: the fields each is validated by, the validators that
bring it to its canonical form, and the JSON it is stored as.
-/

namespace Murder.Permissions

open Contracts Library.Schemas

inductive FieldType
  | uuid
  | optionalUuid
  | text (least : Nat)
  | literal (allowed : List String)
  | optionalText
  | digest
  | optionalDigest
  | count (least : Nat)
  | object
  | principal
  | texts

inductive FieldValue
  | uuid (id : Uuid)
  | optionalUuid (id : Option Uuid)
  | text (value : String)
  | optionalText (value : Option String)
  | count (value : Nat)
  | object (fields : JsonObject)
  | principal (principal : Principal)
  | texts (values : List String)

def hexDigits : List Char := "0123456789abcdef".toList

/-- The pattern `^[0-9a-f]{64}$`. -/
def IsDigest (text : String) : Prop :=
  text.length = 64 ∧ ∀ c ∈ text.toList, c ∈ hexDigits

instance : DecidablePred IsDigest :=
  fun text => inferInstanceAs (Decidable (text.length = 64 ∧ ∀ c ∈ text.toList, c ∈ hexDigits))

def FieldType.Holds : FieldType → FieldValue → Prop
  | .uuid, .uuid _ => True
  | .optionalUuid, .optionalUuid _ => True
  | .text least, .text value => least ≤ value.length
  | .literal allowed, .text value => value ∈ allowed
  | .optionalText, .optionalText _ => True
  | .digest, .text value => IsDigest value
  | .optionalDigest, .optionalText value => ∀ digest ∈ value, IsDigest digest
  | .count least, .count value => least ≤ value
  | .object, .object _ => True
  | .principal, .principal subject => 1 ≤ subject.id.length
  | .texts, .texts _ => True
  | _, _ => False

def dumpPrincipal (principal : Principal) : JsonValue :=
  .obj (.ofList [("kind", .str principal.kind.value), ("id", .str principal.id)])

def FieldValue.dump : FieldValue → JsonValue
  | .uuid id => .str id.str
  | .optionalUuid none => .null
  | .optionalUuid (some id) => .str id.str
  | .text value => .str value
  | .optionalText none => .null
  | .optionalText (some value) => .str value
  | .count value => .int value
  | .object fields => .obj fields
  | .principal subject => dumpPrincipal subject
  | .texts values => .arr (.ofList (values.map .str))

def principalKinds : List PrincipalKind := [.user, .client, .workflow, .service, .reviewer, .llm]

/-- `Principal.model_validate`. -/
def validatePrincipal (fields : JsonObject) : Option Principal :=
  match fields.get? "kind", fields.get? "id" with
  | some (.str kind), some (.str id) => do
      let kind ← principalKinds.find? (fun known => known.value = kind)
      if 1 ≤ id.length ∧ fields.keys.all (· ∈ ["kind", "id"]) then some ⟨kind, id⟩ else none
  | _, _ => none

def readText : JsonValue → Option String
  | .str value => some value
  | _ => none

def FieldType.validate : FieldType → JsonValue → Option FieldValue
  | .uuid, .str raw => (Uuid.parse raw).map .uuid
  | .optionalUuid, .null => some (.optionalUuid none)
  | .optionalUuid, .str raw => (Uuid.parse raw).map (.optionalUuid ∘ some)
  | .text least, .str value => if least ≤ value.length then some (.text value) else none
  | .literal allowed, .str value => if value ∈ allowed then some (.text value) else none
  | .optionalText, .null => some (.optionalText none)
  | .optionalText, .str value => some (.optionalText (some value))
  | .digest, .str value => if IsDigest value then some (.text value) else none
  | .optionalDigest, .null => some (.optionalText none)
  | .optionalDigest, .str value =>
    if IsDigest value then some (.optionalText (some value)) else none
  | .count least, .int value => if least ≤ value then some (.count value.toNat) else none
  | .object, .obj fields => some (.object fields)
  | .principal, .obj fields => (validatePrincipal fields).map .principal
  | .texts, .arr items => (items.toList.mapM readText).map .texts
  | _, _ => none

theorem validatePrincipal_dump {principal : Principal} (named : 1 ≤ principal.id.length)
    : validatePrincipal (.ofList [("kind", .str principal.kind.value), ("id", .str principal.id)])
      = some principal := by
  obtain ⟨kind, id⟩ := principal
  have kinds : principalKinds.find? (fun known => known.value = kind.value) = some kind := by
    cases kind <;> decide
  have read : (principalKinds.find? (fun known => known.value = kind.value)).bind
      (fun kind => if 1 ≤ id.length ∧ ["kind", "id"].all (· ∈ ["kind", "id"]) then
        some (⟨kind, id⟩ : Principal) else none) = some ⟨kind, id⟩ := by
    rw [kinds]
    exact if_pos ⟨named, by decide⟩
  exact read

theorem mapM_readText (values : List String)
    : (JsonItems.ofList (values.map .str)).toList.mapM readText = some values := by
  induction values with
  | nil => rfl
  | cons value values ih =>
    rw [List.map_cons, JsonItems.ofList, JsonItems.toList, List.mapM_cons, ih]
    rfl

theorem FieldType.validate_dump {type : FieldType} {value : FieldValue} (holds : type.Holds value)
    : type.validate value.dump = some value := by
  cases type <;> cases value <;> try exact holds.elim
  case uuid.uuid id => simp [FieldType.validate, FieldValue.dump, Uuid.parse_str]
  case optionalUuid.optionalUuid id =>
      cases id <;> simp [FieldType.validate, FieldValue.dump, Uuid.parse_str]
  case text.text least value => exact if_pos holds
  case literal.text allowed value => exact if_pos holds
  case optionalText.optionalText value => cases value <;> rfl
  case digest.text value => exact if_pos holds
  case optionalDigest.optionalText value =>
      cases value with
      | none => rfl
      | some digest => exact if_pos (holds digest rfl)
  case count.count least value =>
      have enough : (least : Int) ≤ value := Int.ofNat_le.mpr holds
      simp [FieldType.validate, FieldValue.dump, enough]
  case object.object fields => rfl
  case principal.principal subject =>
      exact congrArg (Option.map FieldValue.principal) (validatePrincipal_dump holds)
  case texts.texts values => exact congrArg (Option.map FieldValue.texts) (mapM_readText values)

theorem named_of_validatePrincipal {fields : JsonObject} {principal : Principal}
    (read : validatePrincipal fields = some principal)
    : 1 ≤ principal.id.length := by
  unfold validatePrincipal at read
  split at read
  · obtain ⟨kind, _, read⟩ := Option.bind_eq_some_iff.mp read
    split at read
    · next named =>
      cases read
      exact named.1
    · cases read
  · cases read

theorem FieldType.holds_of_validate {type : FieldType} {written : JsonValue} {value : FieldValue}
    (read : type.validate written = some value)
    : type.Holds value := by
  unfold FieldType.validate at read
  split at read
  case h_4 | h_5 | h_8 =>
      split at read
      · cases read
        assumption
      · cases read
  case h_10 =>
      split at read
      · next valid =>
        cases read
        intro digest same
        cases same
        exact valid
      · cases read
  case h_11 least count =>
      split at read
      · next enough =>
        cases read
        exact (Int.le_toNat (Int.natCast_nonneg least |>.trans enough)).mpr enough
      · cases read
  case h_13 =>
      obtain ⟨subject, inner, rfl⟩ := Option.map_eq_some_iff.mp read
      exact named_of_validatePrincipal inner
  case h_9 =>
      cases read
      intro digest none_
      cases none_
  case h_15 => cases read
  case h_1 | h_3 | h_14 =>
      obtain ⟨_, _, rfl⟩ := Option.map_eq_some_iff.mp read
      trivial
  all_goals
    cases read
    trivial

def fieldCodec : Codec FieldType FieldValue JsonValue where
  Holds := FieldType.Holds
  dump := FieldValue.dump
  validate := FieldType.validate
  validate_dump := FieldType.validate_dump

/-- The SHA-256 digest of an object's canonical JSON. -/
class StructuredDigest where
  sha256 : JsonObject → String

/-- `_verified_digest`: a supplied digest has to be the computed one. -/
def verifiedDigest [StructuredDigest] (structured : JsonObject) (supplied : Option String)
    : Option String :=
  let digest := StructuredDigest.sha256 structured
  if supplied = none ∨ supplied = some digest then some digest else none

def gitTarget (action : String) (arguments : List String) (worktreePath remote ref : Option String)
    : JsonObject :=
  .ofList [
    ("action", .str action),
    ("arguments", (FieldValue.texts arguments).dump),
    ("worktree_path", (FieldValue.optionalText worktreePath).dump),
    ("remote", (FieldValue.optionalText remote).dump),
    ("ref", (FieldValue.optionalText ref).dump)
  ]

/-- A model of the union: its fields, and what its validators make of their values. -/
structure OperationModel where
  fields : List (Field FieldType FieldValue)
  build : List FieldValue → Option ProposedOperation

def typeField (type : String) : Field FieldType FieldValue :=
  ⟨"type", .literal [type], some (.text type)⟩

def optionalUuidField (name : String) : Field FieldType FieldValue :=
  ⟨name, .optionalUuid, some (.optionalUuid none)⟩

def optionalTextField (name : String) : Field FieldType FieldValue :=
  ⟨name, .optionalText, some (.optionalText none)⟩

def terminalWriteModel : OperationModel where
  fields := [
    typeField "terminal.write",
    ⟨"operation_id", .uuid, none⟩,
    ⟨"principal", .principal, none⟩,
    ⟨"session_id", .uuid, none⟩,
    ⟨"encoding", .literal ["utf-8", "base64"], none⟩,
    ⟨"data_digest", .digest, none⟩,
    ⟨"byte_count", .count 0, none⟩,
    ⟨"lease_id", .uuid, none⟩,
    ⟨"lease_fence", .count 1, none⟩
  ]
  build
    | [_, .uuid operationId, .principal principal, .uuid sessionId, .text encoding,
        .text dataDigest, .count byteCount, .uuid leaseId, .count leaseFence] =>
        some (.terminalWrite
          ⟨operationId, principal, sessionId, encoding, dataDigest, byteCount, leaseId, leaseFence⟩)
    | _ => none

def sessionControlModel : OperationModel where
  fields := [
    typeField "session.control",
    ⟨"operation_id", .uuid, none⟩,
    ⟨"principal", .principal, none⟩,
    ⟨"session_id", .uuid, none⟩,
    ⟨"command",
      .literal ["send_structured_message", "resize_terminal", "interrupt", "terminate"], none⟩,
    ⟨"arguments_digest", .digest, none⟩
  ]
  build
    | [_, .uuid operationId, .principal principal, .uuid sessionId, .text command,
        .text argumentsDigest] =>
        some (.sessionControl ⟨operationId, principal, sessionId, command, argumentsDigest⟩)
    | _ => none

/-- The digest of the arguments is bound before the fields are validated. -/
def toolInvocationModel [StructuredDigest] : OperationModel where
  fields := [
    typeField "tool.invoke",
    ⟨"operation_id", .uuid, none⟩,
    ⟨"principal", .principal, none⟩,
    ⟨"tool", .text 1, none⟩,
    ⟨"arguments", .object, none⟩,
    optionalTextField "arguments_digest",
    optionalUuidField "repository_id",
    optionalUuidField "workflow_id",
    optionalUuidField "activity_id"
  ]
  build
    | [_, .uuid operationId, .principal principal, .text tool, .object arguments,
        .optionalText supplied, .optionalUuid repositoryId, .optionalUuid workflowId,
        .optionalUuid activityId] => do
        let digest ← verifiedDigest arguments supplied
        some (.toolInvocation
          ⟨operationId, principal, strip tool, arguments, digest, repositoryId, workflowId,
            activityId⟩)
    | _ => none

def fileMutationModel : OperationModel where
  fields := [
    typeField "file.mutate",
    ⟨"operation_id", .uuid, none⟩,
    ⟨"principal", .principal, none⟩,
    ⟨"repository_id", .uuid, none⟩,
    ⟨"path", .text 1, none⟩,
    ⟨"action", .literal ["create", "write", "append", "delete", "chmod"], none⟩,
    ⟨"content_digest", .optionalDigest, some (.optionalText none)⟩
  ]
  build
    | [_, .uuid operationId, .principal principal, .uuid repositoryId, .text path, .text action,
        .optionalText contentDigest] => do
        let path ← canonicalRepoPath path
        some (.fileMutation ⟨operationId, principal, repositoryId, path, action, contentDigest⟩)
    | _ => none

/-- `value.strip().upper()` -/
def canonicalMethod [Unicode] (value : String) : String :=
  String.ofList (capitals (strip value).toList)

def networkOperationModel [Unicode] [BracketedHost] : OperationModel where
  fields := [
    typeField "network.request",
    ⟨"operation_id", .uuid, none⟩,
    ⟨"principal", .principal, none⟩,
    ⟨"destination", .text 1, none⟩,
    ⟨"method", .text 1, none⟩,
    ⟨"payload_digest", .optionalDigest, some (.optionalText none)⟩,
    optionalUuidField "workflow_id",
    optionalUuidField "activity_id"
  ]
  build
    | [_, .uuid operationId, .principal principal, .text destination, .text method,
        .optionalText payloadDigest, .optionalUuid workflowId, .optionalUuid activityId] => do
        let destination ← canonicalDestination destination
        some (.networkOperation
          ⟨operationId, principal, destination, canonicalMethod method, payloadDigest, workflowId,
            activityId⟩)
    | _ => none

/-- The digest is taken of the target as it is given, before its path is canonical. -/
def gitOperationModel [StructuredDigest] : OperationModel where
  fields := [
    typeField "git.mutate",
    ⟨"operation_id", .uuid, none⟩,
    ⟨"principal", .principal, none⟩,
    ⟨"repository_id", .uuid, none⟩,
    ⟨"action", .literal ["commit", "push", "reset", "clean", "checkout", "merge", "rebase",
      "worktree_add", "worktree_remove"], none⟩,
    ⟨"arguments", .texts, some (.texts [])⟩,
    optionalTextField "worktree_path",
    optionalTextField "remote",
    optionalTextField "ref",
    optionalTextField "arguments_digest"
  ]
  build
    | [_, .uuid operationId, .principal principal, .uuid repositoryId, .text action,
        .texts arguments, .optionalText worktreePath, .optionalText remote, .optionalText ref,
        .optionalText supplied] =>
        let arguments := arguments.map strip
        if arguments.any (fun item => item = "" ∨ '\x00' ∈ item.toList) then none
        else do
          let digest ← verifiedDigest (gitTarget action arguments worktreePath remote ref) supplied
          let worktreePath ← worktreePath.mapM canonicalRepoPath
          if action = "worktree_remove" ∧ worktreePath = none then none
          else
            some (.gitOperation
              ⟨operationId, principal, repositoryId, action, arguments, worktreePath, remote, ref,
                digest⟩)
    | _ => none

def secretAccessModel : OperationModel where
  fields := [
    typeField "secret.access",
    ⟨"operation_id", .uuid, none⟩,
    ⟨"principal", .principal, none⟩,
    ⟨"secret_ref", .text 1, none⟩,
    ⟨"access", .literal ["read", "inject"], none⟩,
    optionalUuidField "workflow_id",
    optionalUuidField "activity_id"
  ]
  build
    | [_, .uuid operationId, .principal principal, .text secretRef, .text access,
        .optionalUuid workflowId, .optionalUuid activityId] =>
        some (.secretAccess ⟨operationId, principal, secretRef, access, workflowId, activityId⟩)
    | _ => none

def writerTakeoverModel : OperationModel where
  fields := [
    typeField "session.writer.takeover",
    ⟨"operation_id", .uuid, none⟩,
    ⟨"principal", .principal, none⟩,
    ⟨"session_id", .uuid, none⟩,
    ⟨"requested_mode", .literal ["structured", "raw_terminal"], none⟩,
    ⟨"current_lease_id", .uuid, none⟩,
    ⟨"current_lease_fence", .count 1, none⟩,
    ⟨"current_holder", .principal, none⟩,
    ⟨"request_digest", .digest, none⟩
  ]
  build
    | [_, .uuid operationId, .principal principal, .uuid sessionId, .text requestedMode,
        .uuid currentLeaseId, .count currentLeaseFence, .principal currentHolder,
        .text requestDigest] =>
        some (.writerTakeover
          ⟨operationId, principal, sessionId, requestedMode, currentLeaseId, currentLeaseFence,
            currentHolder, requestDigest⟩)
    | _ => none

section
variable [Unicode] [BracketedHost] [StructuredDigest]

/-- The members of the union under their discriminators. -/
def operationModels : List (String × OperationModel) := [
  ("terminal.write", terminalWriteModel),
  ("session.control", sessionControlModel),
  ("tool.invoke", toolInvocationModel),
  ("file.mutate", fileMutationModel),
  ("network.request", networkOperationModel),
  ("git.mutate", gitOperationModel),
  ("secret.access", secretAccessModel),
  ("session.writer.takeover", writerTakeoverModel)
]

/-- `PROPOSED_OPERATION_ADAPTER.validate_python` -/
def validateOperation (raw : JsonObject) : Option ProposedOperation :=
  match raw.get? "type" with
  | some (.str type) => do
      let model ← entry? operationModels type
      let values ← validate fieldCodec model.fields raw.toList
      model.build values
  | _ => none

def ProposedOperation.values : ProposedOperation → List FieldValue
  | .terminalWrite operation => [.text "terminal.write", .uuid operation.operationId,
      .principal operation.principal, .uuid operation.sessionId, .text operation.encoding,
      .text operation.dataDigest, .count operation.byteCount, .uuid operation.leaseId,
      .count operation.leaseFence]
  | .sessionControl operation => [.text "session.control", .uuid operation.operationId,
      .principal operation.principal, .uuid operation.sessionId, .text operation.command,
      .text operation.argumentsDigest]
  | .toolInvocation operation => [.text "tool.invoke", .uuid operation.operationId,
      .principal operation.principal, .text operation.tool, .object operation.arguments,
      .optionalText (some operation.argumentsDigest), .optionalUuid operation.repositoryId,
      .optionalUuid operation.workflowId, .optionalUuid operation.activityId]
  | .fileMutation operation => [.text "file.mutate", .uuid operation.operationId,
      .principal operation.principal, .uuid operation.repositoryId, .text operation.path,
      .text operation.action, .optionalText operation.contentDigest]
  | .networkOperation operation => [.text "network.request", .uuid operation.operationId,
      .principal operation.principal, .text operation.destination, .text operation.method,
      .optionalText operation.payloadDigest, .optionalUuid operation.workflowId,
      .optionalUuid operation.activityId]
  | .gitOperation operation => [.text "git.mutate", .uuid operation.operationId,
      .principal operation.principal, .uuid operation.repositoryId, .text operation.action,
      .texts operation.arguments, .optionalText operation.worktreePath,
      .optionalText operation.remote, .optionalText operation.ref,
      .optionalText (some operation.argumentsDigest)]
  | .secretAccess operation => [.text "secret.access", .uuid operation.operationId,
      .principal operation.principal, .text operation.secretRef, .text operation.access,
      .optionalUuid operation.workflowId, .optionalUuid operation.activityId]
  | .writerTakeover operation => [.text "session.writer.takeover", .uuid operation.operationId,
      .principal operation.principal, .uuid operation.sessionId, .text operation.requestedMode,
      .uuid operation.currentLeaseId, .count operation.currentLeaseFence,
      .principal operation.currentHolder, .text operation.requestDigest]

def ProposedOperation.model : ProposedOperation → OperationModel
  | .terminalWrite _ => terminalWriteModel
  | .sessionControl _ => sessionControlModel
  | .toolInvocation _ => toolInvocationModel
  | .fileMutation _ => fileMutationModel
  | .networkOperation _ => networkOperationModel
  | .gitOperation _ => gitOperationModel
  | .secretAccess _ => secretAccessModel
  | .writerTakeover _ => writerTakeoverModel

/-- `PROPOSED_OPERATION_ADAPTER.dump_python(operation, mode="json")` -/
def dumpOperation (operation : ProposedOperation) : JsonObject :=
  .ofList (dump fieldCodec operation.model.fields operation.values)

def ProposedOperation.Accepted (operation : ProposedOperation) : Prop :=
  ∃ raw, validateOperation raw = some operation

end

end Murder.Permissions

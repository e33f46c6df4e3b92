import Murder.Facts.PayloadStorage
import Murder.Permissions.Operations

/-! Which proposed operations are read back from their stored JSON, and are within the scope
that is granted for them.
-/

namespace Murder.Permissions

open Contracts Library.Schemas Library.Trimming
open Facts (toList_ofList entry?_toList)

/-- `_operation_path` -/
def operationPath : ProposedOperation → Option String
  | .fileMutation operation => some operation.path
  | .gitOperation operation => operation.worktreePath
  | _ => none

variable {operation : ProposedOperation}

section
variable [Unicode] [BracketedHost] [StructuredDigest]

/-- `_scope_for`, with the validators of the scope. -/
def scopeFor (operation : ProposedOperation) (expiresAt : Timestamp) : Option GrantScope := do
  let prefixes := (operationPath operation).toList.filter (· ≠ "")
  let destinations := operation.destination.toList.filter (· ≠ "")
  let prefixes ← prefixes.mapM canonicalRepoPath
  let destinations ← destinations.mapM canonicalDestination
  some {
    repositoryIds := operation.repositoryId.toList
    workflowIds := operation.workflowId.toList
    activityIds := operation.activityId.toList
    sessionIds := operation.sessionId.toList
    operationTypes := [operation.type]
    pathPrefixes := prefixes
    destinations := destinations
    maxUses := 1
    expiresAt := expiresAt
  }

def refuse (message : String) (refused : Bool) : Except Failure Unit :=
  if refused then .error (.invalidAuthorization message) else .ok ()

/-- `path == prefix or path.startswith(f"{prefix.rstrip('/')}/")` -/
def withinPrefix (path pathPrefix : String) : Bool :=
  path = pathPrefix ∨ (pathPrefix.toList.rdropWhile (· = '/') ++ ['/']) <+: path.toList

/-- `_validate_scope` -/
def validateScope (operation : ProposedOperation) (scope : GrantScope) : Except Failure Unit := do
  refuse "grant does not include this operation type" (operation.type ∉ scope.operationTypes)
  refuse "grant does not include this repository"
    (operation.repositoryId.any (· ∉ scope.repositoryIds))
  refuse "grant does not include this workflow" (operation.workflowId.any (· ∉ scope.workflowIds))
  refuse "grant does not include this activity" (operation.activityId.any (· ∉ scope.activityIds))
  refuse "grant does not include this session" (operation.sessionId.any (· ∉ scope.sessionIds))
  refuse "grant does not include this path"
    ((operationPath operation).any (fun path => !scope.pathPrefixes.any (withinPrefix path)))
  refuse "grant does not include this destination"
    (operation.destination.any (· ∉ scope.destinations))

/-- The operation is read back as it was stored, and the scope made for it includes it. -/
def ProposedOperation.Survives (operation : ProposedOperation) (expiresAt : Timestamp) : Prop :=
  validateOperation (dumpOperation operation) = some operation
    ∧ ∃ scope, scopeFor operation expiresAt = some scope ∧ validateScope operation scope = .ok ()

/-- No text of the operation is changed or refused when it is brought to its canonical form
once more, and its digest is that of its own target.
-/
def ProposedOperation.Canonical : ProposedOperation → Prop
  | .toolInvocation operation => operation.tool ≠ ""
  | .fileMutation operation => strip operation.path = operation.path
  | .networkOperation operation =>
    operation.method ≠ "" ∧ ReadableDestination operation.destination
  | .gitOperation operation =>
    operation.argumentsDigest = StructuredDigest.sha256
      (gitTarget operation.action operation.arguments operation.worktreePath operation.remote
        operation.ref)
    ∧ ∀ path ∈ operation.worktreePath, strip path = path
  | _ => True

def ProposedOperation.Built (operation : ProposedOperation) : Prop :=
  ∃ values, Accepts fieldCodec operation.model.fields values
    ∧ operation.model.build values = some operation

theorem distinct_names (operation : ProposedOperation)
    : (operation.model.fields.map Field.name).Nodup := by
  cases operation <;>
    simp [ProposedOperation.model, terminalWriteModel, sessionControlModel, toolInvocationModel,
      fileMutationModel, networkOperationModel, gitOperationModel, secretAccessModel,
      writerTakeoverModel, typeField, optionalTextField, optionalUuidField]

/-- Every default passes the check of its own field. -/
theorem defaults_hold (operation : ProposedOperation)
    : ∀ field ∈ operation.model.fields, ∀ value, field.default = some value
      → fieldCodec.Holds field.shape value := by
  cases operation <;>
    simp [ProposedOperation.model, terminalWriteModel, sessionControlModel, toolInvocationModel,
      fileMutationModel, networkOperationModel, gitOperationModel, secretAccessModel,
      writerTakeoverModel, typeField, optionalTextField, optionalUuidField, fieldCodec,
      FieldType.Holds]

section
variable {values : List FieldValue} {built : ProposedOperation}

omit [Unicode] [BracketedHost] [StructuredDigest] in
theorem terminalWriteModel_build (build : terminalWriteModel.build values = some built)
    : ∃ head operation, built = .terminalWrite operation ∧ values = head :: built.values.tail := by
  simp only [terminalWriteModel] at build
  split at build
  · cases build
    exact ⟨_, _, rfl, rfl⟩
  · cases build

omit [Unicode] [BracketedHost] [StructuredDigest] in
theorem sessionControlModel_build (build : sessionControlModel.build values = some built)
    : ∃ head operation, built = .sessionControl operation ∧ values = head :: built.values.tail := by
  simp only [sessionControlModel] at build
  split at build
  · cases build
    exact ⟨_, _, rfl, rfl⟩
  · cases build

omit [Unicode] [BracketedHost] [StructuredDigest] in
theorem secretAccessModel_build (build : secretAccessModel.build values = some built)
    : ∃ head operation, built = .secretAccess operation ∧ values = head :: built.values.tail := by
  simp only [secretAccessModel] at build
  split at build
  · cases build
    exact ⟨_, _, rfl, rfl⟩
  · cases build

omit [Unicode] [BracketedHost] [StructuredDigest] in
theorem writerTakeoverModel_build (build : writerTakeoverModel.build values = some built)
    : ∃ head operation, built = .writerTakeover operation ∧ values = head :: built.values.tail := by
  simp only [writerTakeoverModel] at build
  split at build
  · cases build
    exact ⟨_, _, rfl, rfl⟩
  · cases build

omit [Unicode] [BracketedHost] in
theorem verifiedDigest_eq_some {structured : JsonObject} {supplied : Option String}
    {digest : String} (verified : verifiedDigest structured supplied = some digest)
    : digest = StructuredDigest.sha256 structured := by
  unfold verifiedDigest at verified
  simp only at verified
  split at verified
  · exact (Option.some.inj verified).symm
  · cases verified

omit [Unicode] [BracketedHost] in
theorem toolInvocationModel_build (build : toolInvocationModel.build values = some built)
    : ∃ head tool supplied operation, built = .toolInvocation operation
      ∧ operation.tool = strip tool
      ∧ operation.argumentsDigest = StructuredDigest.sha256 operation.arguments
      ∧ values = [head, .uuid operation.operationId, .principal operation.principal, .text tool,
        .object operation.arguments, .optionalText supplied, .optionalUuid operation.repositoryId,
        .optionalUuid operation.workflowId, .optionalUuid operation.activityId] := by
  simp only [toolInvocationModel] at build
  split at build
  · obtain ⟨digest, verified, build⟩ := Option.bind_eq_some_iff.mp build
    cases build
    exact ⟨_, _, _, _, rfl, rfl, verifiedDigest_eq_some verified, rfl⟩
  · cases build

omit [Unicode] [BracketedHost] [StructuredDigest] in
theorem fileMutationModel_build (build : fileMutationModel.build values = some built)
    : ∃ head path operation, built = .fileMutation operation
      ∧ canonicalRepoPath path = some operation.path
      ∧ values = [head, .uuid operation.operationId, .principal operation.principal,
        .uuid operation.repositoryId, .text path, .text operation.action,
        .optionalText operation.contentDigest] := by
  simp only [fileMutationModel] at build
  split at build
  · obtain ⟨path, canonical, build⟩ := Option.bind_eq_some_iff.mp build
    cases build
    exact ⟨_, _, _, rfl, canonical, rfl⟩
  · cases build

omit [StructuredDigest] in
theorem networkOperationModel_build (build : networkOperationModel.build values = some built)
    : ∃ head destination method operation, built = .networkOperation operation
      ∧ canonicalDestination destination = some operation.destination
      ∧ operation.method = canonicalMethod method
      ∧ values = [head, .uuid operation.operationId, .principal operation.principal,
        .text destination, .text method, .optionalText operation.payloadDigest,
        .optionalUuid operation.workflowId, .optionalUuid operation.activityId] := by
  simp only [networkOperationModel] at build
  split at build
  · obtain ⟨destination, canonical, build⟩ := Option.bind_eq_some_iff.mp build
    cases build
    exact ⟨_, _, _, _, rfl, canonical, rfl, rfl⟩
  · cases build

omit [Unicode] [BracketedHost] in
theorem gitOperationModel_build (build : gitOperationModel.build values = some built)
    : ∃ head arguments worktreePath supplied operation, built = .gitOperation operation
      ∧ operation.arguments = arguments.map strip
      ∧ (∀ item ∈ operation.arguments, item ≠ "" ∧ '\x00' ∉ item.toList)
      ∧ worktreePath.mapM canonicalRepoPath = some operation.worktreePath
      ∧ ¬ (operation.action = "worktree_remove" ∧ operation.worktreePath = none)
      ∧ values = [head, .uuid operation.operationId, .principal operation.principal,
        .uuid operation.repositoryId, .text operation.action, .texts arguments,
        .optionalText worktreePath, .optionalText operation.remote, .optionalText operation.ref,
        .optionalText supplied] := by
  simp only [gitOperationModel] at build
  split at build
  · split at build
    · cases build
    · next plain =>
      obtain ⟨digest, _, build⟩ := Option.bind_eq_some_iff.mp build
      obtain ⟨path, canonical, build⟩ := Option.bind_eq_some_iff.mp build
      split at build
      · cases build
      · next targeted =>
        cases build
        refine ⟨_, _, _, _, _, rfl, rfl, fun item member => ?_, canonical, targeted, rfl⟩
        have clean := fun refused => plain (List.any_eq_true.mpr ⟨item, member, refused⟩)
        simpa [not_or] using clean
  · cases build

end

theorem model_of_build {type : String} {model : OperationModel} {values : List FieldValue}
    (registered : (type, model) ∈ operationModels) (built : model.build values = some operation)
    : operation.model = model := by
  simp only [operationModels, List.mem_cons, List.not_mem_nil, or_false, Prod.mk.injEq]
    at registered
  rcases registered with ⟨_, rfl⟩ | ⟨_, rfl⟩ | ⟨_, rfl⟩ | ⟨_, rfl⟩ | ⟨_, rfl⟩ | ⟨_, rfl⟩ | ⟨_, rfl⟩
    | ⟨_, rfl⟩
  · obtain ⟨_, _, rfl, _⟩ := terminalWriteModel_build built
    rfl
  · obtain ⟨_, _, rfl, _⟩ := sessionControlModel_build built
    rfl
  · obtain ⟨_, _, _, _, rfl, _⟩ := toolInvocationModel_build built
    rfl
  · obtain ⟨_, _, _, rfl, _⟩ := fileMutationModel_build built
    rfl
  · obtain ⟨_, _, _, _, rfl, _⟩ := networkOperationModel_build built
    rfl
  · obtain ⟨_, _, _, _, _, rfl, _⟩ := gitOperationModel_build built
    rfl
  · obtain ⟨_, _, rfl, _⟩ := secretAccessModel_build built
    rfl
  · obtain ⟨_, _, rfl, _⟩ := writerTakeoverModel_build built
    rfl

theorem ProposedOperation.Accepted.built (accepted : operation.Accepted)
    : operation.Built := by
  obtain ⟨raw, read⟩ := accepted
  unfold validateOperation at read
  split at read
  · obtain ⟨model, registered, read⟩ := Option.bind_eq_some_iff.mp read
    obtain ⟨values, fields, built⟩ := Option.bind_eq_some_iff.mp read
    obtain ⟨entry, found, rfl⟩ := Option.map_eq_some_iff.mp registered
    have own := model_of_build (List.mem_of_find?_eq_some found) built
    rw [← own] at fields built
    exact ⟨values, accepts_of_readFields (readFields_of_validate fields)
      FieldType.holds_of_validate (defaults_hold operation), built⟩
  · cases read

/-- A stored operation whose values meet its fields is built from them again. -/
theorem validateOperation_dump
    (accepted : Accepts fieldCodec operation.model.fields operation.values)
    : validateOperation (dumpOperation operation) = operation.model.build operation.values := by
  have typed : (dumpOperation operation).get? "type" = some (.str operation.type) := by
    cases operation <;> rfl
  have registered : entry? operationModels operation.type = some operation.model := by
    cases operation <;> rfl
  unfold validateOperation
  rw [typed]
  simp only [registered, Option.bind_eq_bind, Option.bind_some, dumpOperation, toList_ofList,
    validate_dump (distinct_names operation) accepted]

/-- The discriminator of a built operation is the one of its model. -/
theorem accepts_values {head : FieldValue}
    (fields : Accepts fieldCodec operation.model.fields (head :: operation.values.tail))
    : Accepts fieldCodec operation.model.fields operation.values := by
  cases operation <;>
    exact .cons (List.mem_singleton_self _) (List.forall₂_cons.mp fields).2

/-- An operation that no validator changes is read back. -/
theorem reload_plain {head : FieldValue}
    (fields : Accepts fieldCodec operation.model.fields (head :: operation.values.tail))
    (rebuilt : operation.model.build operation.values = some operation)
    : validateOperation (dumpOperation operation) = some operation := by
  rw [validateOperation_dump (accepts_values fields), rebuilt]

theorem reload_refused {field : Field FieldType FieldValue}
    (member : field ∈ operation.model.fields)
    (refused : readField fieldCodec (dump fieldCodec operation.model.fields operation.values) field
      = none)
    : validateOperation (dumpOperation operation) = none := by
  have typed : (dumpOperation operation).get? "type" = some (.str operation.type) := by
    cases operation <;> rfl
  have registered : entry? operationModels operation.type = some operation.model := by
    cases operation <;> rfl
  unfold validateOperation
  rw [typed]
  simp only [registered, Option.bind_eq_bind, Option.bind_some, dumpOperation, toList_ofList,
    validate_refused member refused, Option.bind_none]

omit [Unicode] [BracketedHost] in
theorem verifiedDigest_own (structured : JsonObject)
    : verifiedDigest structured (some (StructuredDigest.sha256 structured))
      = some (StructuredDigest.sha256 structured) := by
  simp [verifiedDigest]

omit [Unicode] [BracketedHost] in
theorem verifiedDigest_some {structured : JsonObject} {digest : String}
    : verifiedDigest structured (some digest) = some digest
      ↔ digest = StructuredDigest.sha256 structured := by
  constructor
  · exact verifiedDigest_eq_some
  · intro same
    rw [same, verifiedDigest_own]

omit [Unicode] [BracketedHost] [StructuredDigest] in
theorem readField_empty {object : List (String × JsonValue)} {name : String}
    (entry : entry? object name = some (.str ""))
    : readField fieldCodec object ⟨name, .text 1, none⟩ = none := by
  simp only [readField, entry]
  rfl

omit [Unicode] [BracketedHost] [StructuredDigest] in
theorem length_pos_of_ne {text : String} (some_ : text ≠ "") : 1 ≤ text.length := by
  refine Nat.pos_of_ne_zero (fun zero => some_ ?_)
  rwa [String.length_eq_zero_iff] at zero

/-- A tool is stripped after its length is checked, and checked again when it is read back. -/
theorem reload_toolInvocation {operation : ToolInvocation}
    (built : (ProposedOperation.toolInvocation operation).Built)
    : validateOperation (dumpOperation (.toolInvocation operation))
        = some (.toolInvocation operation)
      ↔ operation.tool ≠ "" := by
  obtain ⟨values, fields, build⟩ := built
  obtain ⟨head, tool, supplied, own, same, stripped, digest, rfl⟩ := toolInvocationModel_build build
  cases same
  constructor
  · intro read empty
    have entry : entry? (dump fieldCodec toolInvocationModel.fields
        (ProposedOperation.toolInvocation operation).values) "tool"
        = some (.str operation.tool) := rfl
    rw [empty] at entry
    have member : (⟨"tool", .text 1, none⟩ : Field FieldType FieldValue)
        ∈ (ProposedOperation.toolInvocation operation).model.fields := by
      simp [ProposedOperation.model, toolInvocationModel]
    have refused := reload_refused member (readField_empty entry)
    rw [refused] at read
    cases read
  · intro some_
    have named : fieldCodec.Holds (.text 1) (.text operation.tool) := length_pos_of_ne some_
    have rest : Accepts fieldCodec (ProposedOperation.toolInvocation operation).model.fields
        (ProposedOperation.toolInvocation operation).values := by
      simp only [Accepts, ProposedOperation.model, toolInvocationModel,
        List.forall₂_cons] at fields
      obtain ⟨_, id, subject, _, arguments, _, ids⟩ := fields
      exact .cons (List.mem_singleton_self _) (.cons id (.cons subject (.cons named
        (.cons arguments (.cons trivial (.cons ids.1 (.cons ids.2.1 (.cons ids.2.2.1 .nil))))))))
    rw [validateOperation_dump rest]
    simp only [ProposedOperation.model, toolInvocationModel, ProposedOperation.values]
    rw [verifiedDigest_some.mpr digest, stripped, strip_strip, ← stripped]
    rfl

omit [BracketedHost] [StructuredDigest] in
theorem canonicalMethod_again (value : String)
    : canonicalMethod (canonicalMethod value) = canonicalMethod value := by
  have stripped : trim isSpace (strip value).toList = (strip value).toList := by
    rw [toList_strip, trim_trim]
  unfold canonicalMethod
  rw [toList_strip, String.toList_ofList, trim_capitals stripped, capitals_capitals]

theorem reload_fileMutation {operation : FileMutation}
    (built : (ProposedOperation.fileMutation operation).Built)
    : validateOperation (dumpOperation (.fileMutation operation)) = some (.fileMutation operation)
      ↔ strip operation.path = operation.path := by
  obtain ⟨values, fields, build⟩ := built
  obtain ⟨head, path, own, same, canonical, rfl⟩ := fileMutationModel_build build
  cases same
  have named : fieldCodec.Holds (.text 1) (.text operation.path) := by
    refine length_pos_of_ne (fun empty => ?_)
    obtain ⟨candidate, _, joined, _, _⟩ := canonicalRepoPath_eq_some canonical
    rw [empty] at joined
    exact head?_asPosix.1 joined.symm
  have rest : Accepts fieldCodec (ProposedOperation.fileMutation operation).model.fields
      (ProposedOperation.fileMutation operation).values := by
    simp only [Accepts, ProposedOperation.model, fileMutationModel, List.forall₂_cons] at fields
    obtain ⟨_, id, subject, repository, _, action, content, _⟩ := fields
    exact .cons (List.mem_singleton_self _) (.cons id (.cons subject (.cons repository
      (.cons named (.cons action (.cons content .nil))))))
  rw [validateOperation_dump rest, ← canonicalRepoPath_again canonical]
  simp only [ProposedOperation.model, fileMutationModel, ProposedOperation.values]
  constructor
  · intro read
    obtain ⟨again, path, whole⟩ := Option.bind_eq_some_iff.mp read
    simp only [Option.some.injEq, ProposedOperation.fileMutation.injEq] at whole
    rw [path, ← whole]
  · intro again
    rw [again]
    rfl

/-- A method is stripped after its length is checked, and a destination may lose what its host
was told from its port by.
-/
theorem reload_networkOperation {operation : NetworkOperation}
    (built : (ProposedOperation.networkOperation operation).Built)
    : validateOperation (dumpOperation (.networkOperation operation))
        = some (.networkOperation operation)
      ↔ operation.method ≠ "" ∧ ReadableDestination operation.destination := by
  obtain ⟨values, fields, build⟩ := built
  obtain ⟨head, destination, method, own, same, canonical, method_, rfl⟩ :=
    networkOperationModel_build build
  cases same
  rw [← canonicalDestination_again canonical]
  by_cases empty : operation.method = ""
  · refine iff_of_false (fun read => ?_) (fun survives => survives.1 empty)
    have entry : entry? (dump fieldCodec networkOperationModel.fields
        (ProposedOperation.networkOperation operation).values) "method"
        = some (.str operation.method) := rfl
    rw [empty] at entry
    have member : (⟨"method", .text 1, none⟩ : Field FieldType FieldValue)
        ∈ (ProposedOperation.networkOperation operation).model.fields := by
      simp [ProposedOperation.model, networkOperationModel]
    have refused := reload_refused member (readField_empty entry)
    rw [refused] at read
    cases read
  · have named : fieldCodec.Holds (.text 1) (.text operation.method) := length_pos_of_ne empty
    have placed : fieldCodec.Holds (.text 1) (.text operation.destination) :=
      length_pos_of_ne (canonicalDestination_ne_empty canonical)
    have rest : Accepts fieldCodec (ProposedOperation.networkOperation operation).model.fields
        (ProposedOperation.networkOperation operation).values := by
      simp only [Accepts, ProposedOperation.model, networkOperationModel,
        List.forall₂_cons] at fields
      obtain ⟨_, id, subject, _, _, payload, ids⟩ := fields
      exact .cons (List.mem_singleton_self _) (.cons id (.cons subject (.cons placed
        (.cons named (.cons payload (.cons ids.1 (.cons ids.2.1 .nil)))))))
    have kept : canonicalMethod operation.method = operation.method := by
      rw [method_, canonicalMethod_again]
    rw [validateOperation_dump rest, and_iff_right empty]
    simp only [ProposedOperation.model, networkOperationModel, ProposedOperation.values]
    rw [kept]
    constructor
    · intro read
      obtain ⟨again, destination, whole⟩ := Option.bind_eq_some_iff.mp read
      simp only [Option.some.injEq, ProposedOperation.networkOperation.injEq] at whole
      rw [destination, ← whole]
    · intro again
      rw [again]
      rfl

/-- A digest is taken before the path is canonical, and checked with the canonical one. -/
theorem reload_gitOperation {operation : GitOperation}
    (built : (ProposedOperation.gitOperation operation).Built)
    : validateOperation (dumpOperation (.gitOperation operation)) = some (.gitOperation operation)
      ↔ operation.argumentsDigest = StructuredDigest.sha256
          (gitTarget operation.action operation.arguments operation.worktreePath operation.remote
            operation.ref)
        ∧ ∀ path ∈ operation.worktreePath, strip path = path := by
  obtain ⟨values, fields, build⟩ := built
  obtain ⟨head, arguments, worktreePath, supplied, own, same, stripped, plain, canonical, targeted,
    rfl⟩ := gitOperationModel_build build
  cases same
  have rest : Accepts fieldCodec (ProposedOperation.gitOperation operation).model.fields
      (ProposedOperation.gitOperation operation).values := by
    simp only [Accepts, ProposedOperation.model, gitOperationModel, List.forall₂_cons] at fields
    obtain ⟨_, id, subject, repository, action, _⟩ := fields
    exact .cons (List.mem_singleton_self _) (.cons id (.cons subject (.cons repository
      (.cons action (.cons trivial (.cons trivial (.cons trivial (.cons trivial
        (.cons trivial .nil)))))))))
  have items : operation.arguments.map strip = operation.arguments := by
    rw [stripped, List.map_map]
    exact List.map_congr_left (fun item _ => strip_strip item)
  have accepted : ¬ operation.arguments.any (fun item => item = "" ∨ '\x00' ∈ item.toList) := by
    intro refused
    obtain ⟨item, member, bad⟩ := List.any_eq_true.mp refused
    have clean := plain item member
    simp [clean] at bad
  have path : operation.worktreePath.mapM canonicalRepoPath = some operation.worktreePath
      ↔ ∀ path ∈ operation.worktreePath, strip path = path := by
    cases worktreePath with
    | none =>
      rw [← Option.some.inj canonical]
      simp
    | some raw =>
      obtain ⟨path, written, whole⟩ := Option.map_eq_some_iff.mp canonical
      rw [← whole]
      simpa using canonicalRepoPath_again written
  rw [validateOperation_dump rest, ← path, ← verifiedDigest_some]
  simp only [ProposedOperation.model, gitOperationModel, ProposedOperation.values]
  rw [items, if_neg accepted]
  constructor
  · intro read
    obtain ⟨digest, verified, read⟩ := Option.bind_eq_some_iff.mp read
    obtain ⟨again, mapped, read⟩ := Option.bind_eq_some_iff.mp read
    split at read
    · cases read
    · simp only [Option.some.injEq, ProposedOperation.gitOperation.injEq] at read
      rw [verified, mapped, ← read]
      exact ⟨rfl, rfl⟩
  · intro own
    rw [own.1, own.2]
    exact if_neg targeted

omit [Unicode] [BracketedHost] [StructuredDigest] in
theorem refuse_ok {message : String} {refused : Bool} (accepted : refused = false)
    : refuse message refused = .ok () := by
  rw [accepted]
  rfl

omit [Unicode] [BracketedHost] [StructuredDigest] in
theorem any_not_mem_toList (identifier : Option Uuid)
    : identifier.any (· ∉ identifier.toList) = false := by
  cases identifier <;> simp

omit [StructuredDigest] in
/-- The scope made for an operation whose path and destination are canonical includes it. -/
theorem validateScope_scopeFor (expiresAt : Timestamp)
    (paths : ∀ path ∈ operationPath operation, path ≠ "" ∧ canonicalRepoPath path = some path)
    (destinations : ∀ destination ∈ operation.destination,
      destination ≠ "" ∧ canonicalDestination destination = some destination)
    : ∃ scope, scopeFor operation expiresAt = some scope
      ∧ validateScope operation scope = .ok () := by
  have prefixes : ((operationPath operation).toList.filter (· ≠ "")).mapM canonicalRepoPath
      = some (operationPath operation).toList := by
    cases path : operationPath operation with
    | none => rfl
    | some path' =>
      obtain ⟨some_, canonical⟩ := paths path' path
      simp [some_, canonical]
  have places : (operation.destination.toList.filter (· ≠ "")).mapM canonicalDestination
      = some operation.destination.toList := by
    cases place : operation.destination with
    | none => rfl
    | some destination =>
      obtain ⟨some_, canonical⟩ := destinations destination place
      simp [some_, canonical]
  have within : (operationPath operation).any
      (fun path => !(operationPath operation).toList.any (withinPrefix path)) = false := by
    cases operationPath operation <;> simp [withinPrefix]
  have listed : operation.destination.any (· ∉ operation.destination.toList) = false := by
    cases operation.destination <;> simp
  unfold scopeFor
  simp only [prefixes, places, Option.bind_eq_bind, Option.bind_some]
  refine ⟨_, rfl, ?_⟩
  unfold validateScope
  simp only [within, listed, any_not_mem_toList, List.mem_singleton, not_true_eq_false,
    decide_false, refuse_ok]
  rfl

omit [Unicode] [BracketedHost] [StructuredDigest] in
theorem canonicalRepoPath_ne_empty {value path : String}
    (canonical : canonicalRepoPath value = some path)
    : path ≠ "" := by
  intro empty
  obtain ⟨candidate, _, joined, _, _⟩ := canonicalRepoPath_eq_some canonical
  rw [empty] at joined
  exact head?_asPosix.1 joined.symm

/-- An accepted operation is read back equal, and within its own scope, exactly if it is
canonical.
-/
theorem survives_iff_canonical {operation : ProposedOperation} (accepted : operation.Accepted)
    (expiresAt : Timestamp)
    : operation.Survives expiresAt ↔ operation.Canonical := by
  have built := accepted.built
  cases operation with
  | terminalWrite operation =>
    obtain ⟨values, fields, build⟩ := built
    obtain ⟨_, _, _, rfl⟩ := terminalWriteModel_build build
    exact iff_of_true ⟨reload_plain fields rfl,
      validateScope_scopeFor expiresAt (by simp [operationPath]) (by
        simp [ProposedOperation.destination])⟩ trivial
  | sessionControl operation =>
    obtain ⟨values, fields, build⟩ := built
    obtain ⟨_, _, _, rfl⟩ := sessionControlModel_build build
    exact iff_of_true ⟨reload_plain fields rfl,
      validateScope_scopeFor expiresAt (by simp [operationPath]) (by
        simp [ProposedOperation.destination])⟩ trivial
  | secretAccess operation =>
    obtain ⟨values, fields, build⟩ := built
    obtain ⟨_, _, _, rfl⟩ := secretAccessModel_build build
    exact iff_of_true ⟨reload_plain fields rfl,
      validateScope_scopeFor expiresAt (by simp [operationPath]) (by
        simp [ProposedOperation.destination])⟩ trivial
  | writerTakeover operation =>
    obtain ⟨values, fields, build⟩ := built
    obtain ⟨_, _, _, rfl⟩ := writerTakeoverModel_build build
    exact iff_of_true ⟨reload_plain fields rfl,
      validateScope_scopeFor expiresAt (by simp [operationPath]) (by
        simp [ProposedOperation.destination])⟩ trivial
  | toolInvocation operation =>
    refine Iff.trans (and_iff_left ?_) (reload_toolInvocation built)
    exact validateScope_scopeFor expiresAt (by simp [operationPath]) (by
      simp [ProposedOperation.destination])
  | fileMutation operation =>
    have reload := reload_fileMutation built
    obtain ⟨values, _, build⟩ := built
    obtain ⟨_, _, _, same, canonical, _⟩ := fileMutationModel_build build
    cases same
    refine ⟨fun survives => reload.mp survives.1, fun own => ⟨reload.mpr own, ?_⟩⟩
    refine validateScope_scopeFor expiresAt (fun path among => ?_) (by
      simp [ProposedOperation.destination])
    cases among
    exact ⟨canonicalRepoPath_ne_empty canonical, canonicalRepoPath_of_strip canonical own⟩
  | networkOperation operation =>
    have reload := reload_networkOperation built
    obtain ⟨values, _, build⟩ := built
    obtain ⟨_, _, _, _, same, canonical, _⟩ := networkOperationModel_build build
    cases same
    refine ⟨fun survives => reload.mp survives.1, fun own => ⟨reload.mpr own, ?_⟩⟩
    refine validateScope_scopeFor expiresAt (by simp [operationPath])
      (fun destination among => ?_)
    cases among
    exact ⟨canonicalDestination_ne_empty canonical,
      (canonicalDestination_again canonical).mpr own.2⟩
  | gitOperation operation =>
    have reload := reload_gitOperation built
    obtain ⟨values, _, build⟩ := built
    obtain ⟨_, _, worktreePath, _, _, same, _, _, canonical, _⟩ := gitOperationModel_build build
    cases same
    refine ⟨fun survives => reload.mp survives.1, fun own => ⟨reload.mpr own, ?_⟩⟩
    refine validateScope_scopeFor expiresAt (fun path among => ?_) (by
      simp [ProposedOperation.destination])
    cases worktreePath with
    | none =>
      have absent : operation.worktreePath = none := (Option.some.inj canonical).symm
      simp [operationPath, absent] at among
    | some raw =>
      obtain ⟨written, mapped, whole⟩ := Option.map_eq_some_iff.mp canonical
      have found : operation.worktreePath = some path := among
      rw [found] at whole
      cases whole
      exact ⟨canonicalRepoPath_ne_empty mapped,
        canonicalRepoPath_of_strip mapped (own.2 path found)⟩

end

namespace Plain

theorem toLower_foreign {c : Char} (foreign : ¬ isAscii c) : c.toLower = c := by
  refine dif_neg (fun letter => foreign (decide_eq_true ?_))
  have small : c.toNat ≤ 90 := UInt32.le_iff_toNat_le.mp letter.2
  omega

theorem toUpper_foreign {c : Char} (foreign : ¬ isAscii c) : c.toUpper = c := by
  refine dif_neg (fun letter => foreign (decide_eq_true ?_))
  have small : c.toNat ≤ 122 := UInt32.le_iff_toNat_le.mp letter.2
  omega

theorem toLower_plain (c : Char)
    : (isSpace c.toLower ∨ isAscii c.toLower ∧ ¬ c.toLower.isLower → c.toLower = c)
      ∧ c.toLower.toLower = c.toLower
      ∧ (isDelimiter c.toLower → c.toLower = c) := by
  by_cases ascii : isAscii c
  · exact @forall_ascii (fun c =>
      (isSpace c.toLower ∨ isAscii c.toLower ∧ ¬ c.toLower.isLower → c.toLower = c)
        ∧ c.toLower.toLower = c.toLower ∧ (isDelimiter c.toLower → c.toLower = c))
      (by decide +kernel) c ascii
  · rw [toLower_foreign ascii, toLower_foreign ascii]
    exact ⟨fun _ => rfl, rfl, fun _ => rfl⟩

theorem toUpper_plain (c : Char)
    : c.toUpper.toUpper = c.toUpper ∧ (isSpace c → c.toUpper = c)
      ∧ (isSpace c.toUpper → isSpace c) := by
  by_cases ascii : isAscii c
  · exact @forall_ascii (fun c => c.toUpper.toUpper = c.toUpper ∧ (isSpace c → c.toUpper = c)
      ∧ (isSpace c.toUpper → isSpace c)) (by decide +kernel) c ascii
  · rw [toUpper_foreign ascii, toUpper_foreign ascii]
    exact ⟨rfl, fun _ => rfl, id⟩

/-- The case mappings of ASCII texts. -/
scoped instance asciiCasing : Unicode where
  casefold c := [c.toLower]
  lower text := text.map Char.toLower
  upper c := [c.toUpper]
  nfkc text := text
  casefold_ascii _ := rfl
  casefold_plain := by
    intro c d member plain
    cases List.mem_singleton.mp member
    exact (toLower_plain c).1 plain
  casefold_casefold c := by simp [(toLower_plain c).2.1]
  casefold_ne_nil _ := List.cons_ne_nil _ _
  casefold_lower text := by
    rw [List.flatMap_map]
    exact congrArg text.flatMap (funext fun c => by rw [(toLower_plain c).2.1])
  upper_upper c := by simp [(toUpper_plain c).1]
  upper_ne_nil _ := List.cons_ne_nil _ _
  upper_space := by
    intro c space
    rw [(toUpper_plain c).2.1 space]
  upper_solid := by
    intro c d member space
    cases List.mem_singleton.mp member
    exact (toUpper_plain c).2.2 space
  nfkc_ascii _ := rfl
  nfkc_delimiter := by
    intro d text _
    simp
  nfkc_casefold := by
    intro c d e delimiter folds decomposed
    cases List.mem_singleton.mp folds
    cases List.mem_singleton.mp decomposed
    rw [(toLower_plain c).2.2 delimiter]
    exact List.mem_singleton_self _

scoped instance noAddresses : BracketedHost where
  accepted _ := false

/-- Stands for the digest where none is taken. -/
scoped instance noDigest : StructuredDigest where
  sha256 _ := ""

/-- A mutation of a file at a path. -/
def mutation (path : String) : FileMutation where
  operationId := 1
  principal := ⟨.user, "ada"⟩
  repositoryId := 2
  path := path
  action := "write"

def proposed (path : String) : JsonObject :=
  dumpOperation (.fileMutation (mutation path))

theorem survives_readme : (ProposedOperation.fileMutation (mutation "src/main.py")).Survives 0 := by
  have accepted : (ProposedOperation.fileMutation (mutation "src/main.py")).Accepted :=
    ⟨proposed "./src//main.py", by decide +kernel⟩
  have stripped : strip "src/main.py" = "src/main.py" := by decide
  exact (survives_iff_canonical accepted 0).mpr stripped

/-- A path that starts with a space behind its `./` is stripped when it is read back. -/
theorem not_survives_spaced
    : ∃ operation : ProposedOperation, operation.Accepted ∧ ¬ operation.Survives 0
      ∧ validateOperation (dumpOperation operation)
        = some (.fileMutation (mutation "notes.md")) := by
  have changed : validateOperation (dumpOperation (.fileMutation (mutation " notes.md")))
      = some (.fileMutation (mutation "notes.md")) := by decide +kernel
  refine ⟨.fileMutation (mutation " notes.md"), ⟨proposed "./ notes.md", by decide +kernel⟩,
    fun survives => ?_, changed⟩
  have same := survives.1
  rw [changed] at same
  exact absurd same (by decide)

end Plain

end Murder.Permissions

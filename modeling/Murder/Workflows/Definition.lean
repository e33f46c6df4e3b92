import Murder.Contracts.Common

/-! The workflow definition model and its pure validation.
A definition is valid when its name and stage ids are well formed, its dependencies resolve,
and the dependency graph has a root and no cycle.
-/

namespace Murder.Workflows

open Murder.Contracts

inductive WorkflowMode
  | static
  | generative
deriving DecidableEq

def WorkflowMode.value : WorkflowMode → String
  | .static => "static"
  | .generative => "generative"

inductive StageGate
  | auto
  | human
  | conditional
deriving DecidableEq

def StageGate.value : StageGate → String
  | .auto => "auto"
  | .human => "human"
  | .conditional => "conditional"

/-- One agent node within a workflow template. -/
structure StageDef where
  id : String
  harness : Option String := none
  model : Option String := none
  dependsOn : List String := []
  gate : StageGate := .auto
deriving DecidableEq

/-- A reusable pipeline of stages. -/
structure WorkflowDef where
  name : String
  definitionVersion : Nat := 1
  builtin : Bool := false
  mode : WorkflowMode := .static
  stages : List StageDef := []
deriving DecidableEq

/-- The character class `[A-Za-z0-9_-]`. -/
def identifierChar (char : Char) : Bool :=
  ('A' ≤ char && char ≤ 'Z') || ('a' ≤ char && char ≤ 'z') || ('0' ≤ char && char ≤ '9')
    || char == '_' || char == '-'

/-- What `$` lets a pattern leave unmatched: one newline at the very end. -/
def dropFinalNewline (chars : List Char) : List Char :=
  if chars.getLast? = some '\n' then chars.dropLast else chars

/-- `^[A-Za-z0-9_-]+(?: [A-Za-z0-9_-]+)*$` -/
def matchesName (name : String) : Bool :=
  ((dropFinalNewline name.toList).splitOn ' ').all (fun word =>
    !word.isEmpty && word.all identifierChar)

/-- `^[A-Za-z0-9_-]+$` -/
def matchesStageId (id : String) : Bool :=
  let chars := dropFinalNewline id.toList
  !chars.isEmpty && chars.all identifierChar

/-- The edges of the dependency graph by stage id; the first of equal ids wins, and
self-edges are left out.
-/
def adjacency : List StageDef → List (String × List String)
  | [] => []
  | stage :: rest =>
    (stage.id, stage.dependsOn.filter (fun dependency => dependency != stage.id))
      :: (adjacency rest).filter (fun entry => entry.1 != stage.id)

def dependencies (adj : List (String × List String)) (node : String) : List String :=
  (adj.lookup node).getD []

inductive Color
  | grey
  | black
deriving DecidableEq

/-- The colored nodes, and the active path with the position reached in each node's edges. -/
structure Search where
  color : List (String × Color) := []
  stack : List (String × Nat) := []

def Search.round (adj : List (String × List String)) (search : Search)
    : Except String Search :=
  match search.stack with
  | [] => .ok search
  | (node, index) :: below =>
    match (dependencies adj node)[index]? with
    | none => .ok { color := (node, .black) :: search.color, stack := below }
    | some next =>
      let advanced := (node, index + 1) :: below
      if (adj.lookup next).isNone then
        .ok { search with stack := advanced }
      else
        match search.color.lookup next with
        | some .grey => .error next
        | some .black => .ok { search with stack := advanced }
        | none =>
          .ok { color := (next, .grey) :: search.color, stack := (next, 0) :: advanced }

/-- Search from the stack until it is empty; every round uses up an edge or a node. -/
def Search.drain (adj : List (String × List String)) : Nat → Search → Except String Search
  | 0, search => .ok search
  | rounds + 1, search =>
    match search.stack with
    | [] => .ok search
    | _ :: _ => do
        let next ← search.round adj
        drain adj rounds next

def searchRounds (adj : List (String × List String)) : Nat :=
  (adj.map (fun entry => entry.2.length + 1)).sum

def searchFrom (adj : List (String × List String)) (search : Search)
    : List String → Except String Search
  | [] => .ok search
  | root :: rest =>
    if (search.color.lookup root).isSome then
      searchFrom adj search rest
    else do
      let drained ← Search.drain adj (searchRounds adj)
        { color := (root, .grey) :: search.color, stack := [(root, 0)] }
      searchFrom adj drained rest

def findCycle (definition : WorkflowDef) : Option String :=
  let adj := adjacency definition.stages
  match searchFrom adj {} (adj.map Prod.fst) with
  | .ok _ => none
  | .error node => some node

inductive WorkflowIssueCode
  | invalidName
  | noStages
  | invalidStageId
  | duplicateStageId
  | missingHarness
  | missingModel
  | selfDependency
  | unknownDependency
  | duplicateDependency
  | cycle
  | noRoot
  | unsupportedMode
  | unsupportedGate
deriving DecidableEq

inductive IssueSeverity
  | error
  | warning
deriving DecidableEq

/-- A step of the path to the field an issue is about. -/
inductive PathStep
  | field (name : String)
  | index (position : Nat)
deriving DecidableEq

structure WorkflowIssue where
  code : WorkflowIssueCode
  message : String
  path : List PathStep := []
  stageId : Option String := none
  dependencyId : Option String := none
  severity : IssueSeverity := .error
deriving DecidableEq

section Issues

variable [PyRepr]

/-- The text of `{value!r}`. -/
def quoted (value : String) : String := PyRepr.repr (.str value)

def nameIssues (definition : WorkflowDef) : List WorkflowIssue :=
  if definition.name = "" then
    [{ code := .invalidName, message := "workflow name is empty", path := [.field "name"] }]
  else if matchesName definition.name then
    []
  else
    [{
      code := .invalidName
      message := "workflow name " ++ quoted definition.name ++ " must contain non-empty words "
        ++ "of [A-Za-z0-9_-] separated by single spaces"
      path := [.field "name"]
    }]

def modeIssues (definition : WorkflowDef) : List WorkflowIssue :=
  if definition.mode = .static then
    []
  else
    [{
      code := .unsupportedMode
      message := "workflow mode " ++ quoted definition.mode.value
        ++ " is unsupported at runtime"
      path := [.field "mode"]
      severity := .warning
    }]

def stageIssue (fine : Bool) (code : WorkflowIssueCode) (message : String) (stageIndex : Nat)
    (field : String) (stage : StageDef) (severity : IssueSeverity := .error)
    : List WorkflowIssue :=
  if fine then
    []
  else
    [{
      code := code
      message := message
      path := [.field "stages", .index stageIndex, .field field]
      stageId := some stage.id
      severity := severity
    }]

/-- Python's truth of an optional text. -/
def given (value : Option String) : Bool := value.isSome && value != some ""

def stageIssues (builtin : Bool) (seen : List String) (stageIndex : Nat) (stage : StageDef)
    : List WorkflowIssue :=
  let name := quoted stage.id
  stageIssue (matchesStageId stage.id) .invalidStageId
      ("stage id " ++ name ++ " must match [A-Za-z0-9_-]+") stageIndex "id" stage
    ++ stageIssue (!seen.contains stage.id) .duplicateStageId
        ("duplicate stage id " ++ name) stageIndex "id" stage
    ++ stageIssue (builtin || given stage.harness) .missingHarness
        ("stage " ++ name ++ " requires a harness") stageIndex "harness" stage
    ++ stageIssue (builtin || given stage.model) .missingModel
        ("stage " ++ name ++ " requires a model") stageIndex "model" stage
    ++ stageIssue (stage.gate == .auto) .unsupportedGate
        ("stage " ++ name ++ " gate " ++ quoted stage.gate.value
          ++ " is unsupported at runtime") stageIndex "gate" stage .warning

def allStageIssues (builtin : Bool) : List String → Nat → List StageDef → List WorkflowIssue
  | _, _, [] => []
  | seen, stageIndex, stage :: rest =>
    stageIssues builtin seen stageIndex stage
      ++ allStageIssues builtin (stage.id :: seen) (stageIndex + 1) rest

def dependencyIssue (code : WorkflowIssueCode) (message : String)
    (stageIndex dependencyIndex : Nat) (stage : StageDef) (dependency : String)
    : WorkflowIssue :=
  {
    code := code
    message := message
    path := [.field "stages", .index stageIndex, .field "depends_on", .index dependencyIndex]
    stageId := some stage.id
    dependencyId := some dependency
  }

def dependencyIssues (ids : List String) (stageIndex : Nat) (stage : StageDef)
    : List String → Nat → List String → List WorkflowIssue
  | _, _, [] => []
  | seen, index, dependency :: rest =>
    let name := quoted stage.id
    let resolved :=
      if dependency = stage.id then
        [dependencyIssue .selfDependency ("stage " ++ name ++ " depends on itself")
          stageIndex index stage dependency]
      else if ids.contains dependency then
        []
      else
        [dependencyIssue .unknownDependency
          ("stage " ++ name ++ " depends on unknown stage " ++ quoted dependency)
          stageIndex index stage dependency]
    let repeated :=
      if seen.contains dependency then
        [dependencyIssue .duplicateDependency
          ("stage " ++ name ++ " has duplicate dependency " ++ quoted dependency)
          stageIndex index stage dependency]
      else
        []
    resolved ++ repeated
      ++ dependencyIssues ids stageIndex stage (dependency :: seen) (index + 1) rest

def allDependencyIssues (definition : WorkflowDef) : List WorkflowIssue :=
  definition.stages.zipIdx.flatMap (fun entry =>
    dependencyIssues (definition.stages.map StageDef.id) entry.2 entry.1 [] 0 entry.1.dependsOn)

def cycleIssues (definition : WorkflowDef) : List WorkflowIssue :=
  match findCycle definition with
  | none => []
  | some node =>
    [{
      code := .cycle
      message := "dependency cycle through stage " ++ quoted node
      path := [.field "stages"]
      stageId := some node
    }]

def rootIssues (definition : WorkflowDef) : List WorkflowIssue :=
  if definition.mode = .static
      ∧ ¬ definition.stages.any (fun stage => stage.dependsOn.isEmpty) then
    [{
      code := .noRoot
      message := "static workflow has no root stage (every stage has dependencies)"
      path := [.field "stages"]
    }]
  else
    []

/-- The structured findings; without stages the graph checks are vacuous. -/
def workflowIssues (definition : WorkflowDef) : List WorkflowIssue :=
  if definition.stages = [] then
    nameIssues definition
      ++ [{ code := .noStages, message := "workflow has no stages", path := [.field "stages"] }]
  else
    nameIssues definition ++ modeIssues definition
      ++ allStageIssues definition.builtin [] 0 definition.stages
      ++ allDependencyIssues definition ++ cycleIssues definition ++ rootIssues definition

/-- The messages of the errors; none means the definition is valid. -/
def validateWorkflow (definition : WorkflowDef) : List String :=
  ((workflowIssues definition).filter (fun issue => issue.severity == .error)).map
    WorkflowIssue.message

end Issues

end Murder.Workflows

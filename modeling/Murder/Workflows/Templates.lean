import Murder.Library.Records
import Murder.Library.Scanners
import Murder.Workflows.Definition

/-! Compilation of a workflow template: inline prompt templates are expanded in each stage,
the placeholders left are collected, and declared inputs are merged with them.
-/

namespace Murder.Workflows

open Murder.Contracts Library.Records Library.Scanners

/-- `[A-Za-z0-9_-]+(?: [A-Za-z0-9_-]+)*` -/
def nameWords (chars : List Char) : Bool :=
  (chars.splitOn ' ').all (fun word => !word.isEmpty && word.all identifierChar)

/-- A match of `:"` and `":` around a name. The characters of a name leave out the quote, so
the name is the longest run of them.
-/
def quotedMacro (allowed : Char → Bool) (accepts : List Char → Bool) : Matcher
  | ':' :: '\x22' :: rest =>
    let name := rest.takeWhile allowed
    match rest.drop name.length with
    | '\x22' :: ':' :: _ =>
      if accepts name then some (String.ofList name, name.length + 4) else none
    | _ => none
  | _ => none

/-- `:([A-Za-z_][A-Za-z0-9_-]*):` -/
def bareMacro : Matcher
  | ':' :: start :: rest =>
    if identifierChar start && !('0' ≤ start && start ≤ '9') && start != '-' then
      let name := start :: rest.takeWhile identifierChar
      match (start :: rest).drop name.length with
      | ':' :: _ => some (String.ofList name, name.length + 2)
      | _ => none
    else none
  | _ => none

/-- `:(?:"([A-Za-z0-9_-]+(?: [A-Za-z0-9_-]+)*)"|([A-Za-z_][A-Za-z0-9_-]*)):` -/
def inlinePromptTemplate : Matcher := fun text =>
  (quotedMacro (fun char => identifierChar char || char == ' ') nameWords text).or
    (bareMacro text)

/-- `\{([A-Za-z0-9_-]+)\}` -/
def placeholder : Matcher
  | '{' :: rest =>
    let name := rest.takeWhile identifierChar
    match rest.drop name.length with
    | '}' :: _ =>
      if name.isEmpty then none else some (String.ofList name, name.length + 2)
    | _ => none
  | _ => none

abbrev PromptTemplates := Record String String

def expandWith (matchAt : Matcher) (templates : PromptTemplates) (text : String) : String :=
  String.ofList
    (substitute (fun name whole => ((templates.lookup name).map String.toList).getD whole)
      (tokens matchAt 0 text.toList))

/-- The names of a pattern's macros that no template has, in the order they first occur. -/
def unknownWith (matchAt : Matcher) (templates : PromptTemplates) (text : String)
    : List String :=
  addAll [] ((names (tokens matchAt 0 text.toList)).filter (fun name =>
    (templates.lookup name).isNone))

def expandInlinePromptTemplates (text : String) (templates : PromptTemplates)
    : String × List String :=
  (expandWith inlinePromptTemplate templates text,
    unknownWith inlinePromptTemplate templates text)

def collectPlaceholders (texts : List String) : List String :=
  texts.foldl (fun found text => addAll found (names (tokens placeholder 0 text.toList))) []

inductive WorkflowInputKind
  | text
  | multiline
deriving DecidableEq

structure WorkflowInputDecl where
  label : Option String := none
  kind : WorkflowInputKind := .text
  required : Bool := false
  default : Option String := none
deriving DecidableEq

/-- A stage, by the fields compilation reads. -/
structure WorkflowNodeTemplate where
  id : String
  title : String
  instructions : String := ""
deriving DecidableEq

/-- A workflow, by the fields compilation reads; the declared inputs are in their order. -/
structure WorkflowTemplate where
  inputs : List (String × WorkflowInputDecl) := []
  stages : List WorkflowNodeTemplate := []
deriving DecidableEq

structure WorkflowInput where
  name : String
  label : String
  kind : WorkflowInputKind := .text
  required : Bool := false
  default : Option String := none
  inferred : Bool := false
deriving DecidableEq

inductive WorkflowCompileIssueCode
  | unknownPromptTemplate
  | unusedInput
  | requiredInputMissing
deriving DecidableEq

structure WorkflowCompileIssue where
  code : WorkflowCompileIssueCode
  message : String
  severity : IssueSeverity := .error
  path : List PathStep := []
  inputName : Option String := none
  templateName : Option String := none
  stageId : Option String := none
deriving DecidableEq

structure CompileWorkflowTemplateResult where
  ok : Bool
  expandedTemplate : WorkflowTemplate
  inputs : List WorkflowInput := []
  issues : List WorkflowCompileIssue := []
deriving DecidableEq

/-- The spelling of a macro: bare when all of the name is `[A-Za-z_][A-Za-z0-9_-]*`. -/
def formatPromptTemplateReference (name : String) : String :=
  match name.toList with
  | start :: rest =>
    if (start :: rest).all identifierChar && !('0' ≤ start && start ≤ '9') && start != '-' then
      ":" ++ name ++ ":"
    else ":\"" ++ name ++ "\":"
  | [] => ":\"" ++ name ++ "\":"

def mergeInputs (declared : List (String × WorkflowInputDecl)) (discovered : List String)
    : List WorkflowInput :=
  declared.map (fun entry =>
      { name := entry.1
        label := if entry.2.label.getD "" = "" then entry.1 else entry.2.label.getD ""
        kind := entry.2.kind
        required := entry.2.required
        default := entry.2.default })
    ++ (newOnes (declared.map Prod.fst) discovered).map (fun name =>
      { name := name, label := name, inferred := true })

section Compile

variable [PyRepr]

def unknownTemplateIssues (templates : PromptTemplates) (stageIndex : Nat)
    (stage : WorkflowNodeTemplate)
    : List WorkflowCompileIssue :=
  let titleUnknown := (expandInlinePromptTemplates stage.title templates).2
  let instrUnknown := (expandInlinePromptTemplates stage.instructions templates).2
  (addAll titleUnknown instrUnknown).map (fun name =>
    { code := .unknownPromptTemplate
      message :=
        "stage " ++ quoted stage.id ++ " references unknown prompt template "
          ++ formatPromptTemplateReference name
      path :=
        [.field "stages", .index stageIndex,
          .field (if name ∈ titleUnknown then "title" else "instructions")]
      templateName := some name
      stageId := some stage.id })

def expandStage (templates : PromptTemplates) (stage : WorkflowNodeTemplate)
    : WorkflowNodeTemplate :=
  { stage with
    title := (expandInlinePromptTemplates stage.title templates).1
    instructions := (expandInlinePromptTemplates stage.instructions templates).1 }

/-- The placeholders of all expanded stages, in the order they first occur. -/
def discoveredInputs (stages : List WorkflowNodeTemplate) : List String :=
  stages.foldl (fun discovered stage =>
    addAll discovered (collectPlaceholders [stage.title, stage.instructions])) []

def compileWorkflowTemplate (template : WorkflowTemplate) (templates : PromptTemplates)
    : CompileWorkflowTemplateResult :=
  let expandedStages := template.stages.map (expandStage templates)
  let discovered := discoveredInputs expandedStages
  let unused := (template.inputs.filter (fun entry => entry.1 ∉ discovered)).map (fun entry =>
    { code := .unusedInput
      message := "declared input " ++ quoted entry.1 ++ " is unused in any stage field"
      severity := .warning
      path := [.field "inputs", .field entry.1]
      inputName := some entry.1 : WorkflowCompileIssue })
  let issues :=
    template.stages.zipIdx.flatMap (fun entry =>
      unknownTemplateIssues templates entry.2 entry.1) ++ unused
  { ok := !issues.any (fun issue => issue.severity == .error)
    expandedTemplate := { template with stages := expandedStages }
    inputs := mergeInputs template.inputs discovered
    issues := issues }

end Compile

end Murder.Workflows

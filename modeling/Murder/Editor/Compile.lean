import Murder.Workflows.Templates

/-! The document model of the workflow template editor, its wire form as the server decodes it, and
the editor's own compilation of a draft, the fallback when the server cannot be asked.
-/

namespace Murder.Editor

open Murder.Workflows Library.Records Library.Scanners

abbrev StageKey := String

structure EditorInputDecl where
  label : Option String := none
  kind : Option WorkflowInputKind := none
  required : Option Bool := none
  default : Option String := none
deriving DecidableEq

structure EditorStage where
  key : StageKey
  id : String
  title : String
  instructions : String := ""
  harness : Option String := none
  model : Option String := none
  dependsOn : List String := []
  gate : StageGate := .auto
deriving DecidableEq

/-- An editor draft. Local keys tell its stages apart even where their ids do not. -/
structure EditorWorkflow where
  name : String
  definitionVersion : Option Nat := none
  mode : WorkflowMode := .static
  inputs : Option (Record String EditorInputDecl) := none
  stages : List EditorStage := []
  keysNodup : (stages.map EditorStage.key).Nodup

/-- A stage as it is sent; its title is its id. -/
structure StageWire where
  id : String
  title : String
  instructions : String
  harness : Option String
  model : Option String
  dependsOn : List String
  gate : StageGate
deriving DecidableEq

structure WorkflowWire where
  name : String
  definitionVersion : Option Nat
  mode : WorkflowMode
  inputs : Option (List (String × EditorInputDecl))
  stages : List StageWire
deriving DecidableEq

def inputsToWire (inputs : Option (Record String EditorInputDecl))
    : Option (List (String × EditorInputDecl)) :=
  inputs.map (fun inputs => inputs.entries.map (fun entry => (entry.1, entry.2)))

def toWire (workflow : EditorWorkflow) : WorkflowWire where
  name := workflow.name
  definitionVersion := workflow.definitionVersion
  mode := workflow.mode
  inputs := inputsToWire workflow.inputs
  stages := workflow.stages.map (fun stage =>
    { id := stage.id
      title := stage.id
      instructions := stage.instructions
      harness := stage.harness
      model := stage.model
      dependsOn := stage.dependsOn
      gate := stage.gate })

/-- Decoding fills in the defaults of what a declaration leaves out. -/
def decodeInput (decl : EditorInputDecl) : WorkflowInputDecl where
  label := decl.label
  kind := decl.kind.getD .text
  required := decl.required.getD false
  default := decl.default

/-- The definition the server validates; the wire form never says it is a builtin. -/
def WorkflowWire.toDef (wire : WorkflowWire) : WorkflowDef where
  name := wire.name
  definitionVersion := wire.definitionVersion.getD 1
  mode := wire.mode
  stages := wire.stages.map (fun stage =>
    { id := stage.id, harness := stage.harness, model := stage.model
      dependsOn := stage.dependsOn, gate := stage.gate })

def WorkflowWire.toTemplate (wire : WorkflowWire) : WorkflowTemplate where
  inputs := (wire.inputs.getD []).map (fun entry => (entry.1, decodeInput entry.2))
  stages := wire.stages.map (fun stage =>
    { id := stage.id, title := stage.title, instructions := stage.instructions })

/-- A whitespace or line terminator of the language, which `\s` and `trim` look for. -/
def jsSpace (char : Char) : Bool :=
  ('\t' ≤ char && char ≤ '\r') || char == ' ' || char == '\xA0' || char == '\u1680'
    || ('\u2000' ≤ char && char ≤ '\u200A') || char == '\u2028' || char == '\u2029'
    || char == '\u202F' || char == '\u205F' || char == '\u3000' || char == '\uFEFF'

def jsTrim (text : String) : String :=
  String.ofList (((text.toList.dropWhile jsSpace).reverse.dropWhile jsSpace).reverse)

/-- `[^"\r\n:]` -/
def quotedChar (char : Char) : Bool :=
  char != '\x22' && char != '\r' && char != '\n' && char != ':'

/-- `:"([^"\r\n:]+)":|:([A-Za-z_][A-Za-z0-9_-]*):` -/
def inlineRe : Matcher := fun text =>
  (quotedMacro quotedChar (fun name => !name.isEmpty) text).or (bareMacro text)

structure ExpansionResult where
  text : String
  missing : List String
  expanded : List String
deriving DecidableEq

def expandInlinePromptTemplates (text : String) (templates : PromptTemplates)
    : ExpansionResult where
  text := expandWith inlineRe templates text
  missing := unknownWith inlineRe templates text
  expanded := addAll [] ((names (tokens inlineRe 0 text.toList)).filter (fun name =>
    (templates.lookup name).isSome))

def collectPlaceholdersFromText (found : List String) (text : String) : List String :=
  addAll found (names (tokens placeholder 0 text.toList))

structure WizardField where
  name : String
  label : String
  kind : WorkflowInputKind
  required : Bool
  defaultValue : String
deriving DecidableEq

structure EditorCompileIssue where
  code : WorkflowCompileIssueCode
  severity : IssueSeverity
  message : String
  stageKey : Option StageKey := none
  field : Option String := none
  templateName : Option String := none
  inputName : Option String := none
deriving DecidableEq

structure WorkflowCompileResult where
  expanded : List EditorStage
  fields : List WizardField
  placeholders : List String
  issues : List EditorCompileIssue
deriving DecidableEq

def fieldFor (name : String) (declared : Option (Record String EditorInputDecl))
    : WizardField :=
  let decl := declared.bind (AList.lookup name)
  let label := ((decl.bind EditorInputDecl.label).map jsTrim).getD ""
  { name := name
    label := if label = "" then name else label
    kind := if decl.bind EditorInputDecl.kind = some .multiline then .multiline else .text
    required := (decl.bind EditorInputDecl.required).getD false
    defaultValue := (decl.bind EditorInputDecl.default).getD "" }

variable (templates : PromptTemplates) (declared : Option (Record String EditorInputDecl))

def declaredNames : List String :=
  match declared with
  | none => []
  | some declared => declared.keys

def mergeWizardFields (discovered : List String) : List WizardField :=
  (declaredNames declared).map (fun name => fieldFor name declared)
    ++ (newOnes (declaredNames declared) discovered).map (fun name => fieldFor name declared)

def missingIssue (stage : EditorStage) (field templateName : String) : EditorCompileIssue where
  code := .unknownPromptTemplate
  severity := .error
  message :=
    "Unknown prompt template :" ++ templateName ++ ": in stage “"
      ++ (if stage.id = "" then stage.key else stage.id) ++ "” " ++ field ++ "."
  stageKey := some stage.key
  field := some field
  templateName := some templateName

def missingIssues (stage : EditorStage) : List EditorCompileIssue :=
  (expandInlinePromptTemplates stage.title templates).missing.map (missingIssue stage "title")
    ++ (expandInlinePromptTemplates stage.instructions templates).missing.map
      (missingIssue stage "instructions")

def expandStage (stage : EditorStage) : EditorStage :=
  { stage with
    title := (expandInlinePromptTemplates stage.title templates).text
    instructions := (expandInlinePromptTemplates stage.instructions templates).text }

def foundPlaceholders (stages : List EditorStage) : List String :=
  stages.foldl (fun found stage =>
    collectPlaceholdersFromText (collectPlaceholdersFromText found stage.title)
      stage.instructions) []

def compileWorkflowTemplate (workflow : EditorWorkflow) (templates : PromptTemplates)
    : WorkflowCompileResult :=
  let expandedStages := workflow.stages.map (expandStage templates)
  let found := foundPlaceholders expandedStages
  let unused :=
    ((declaredNames workflow.inputs).filter (fun name => name ∉ found)).map (fun name =>
      { code := .unusedInput
        severity := .warning
        message := "declared input '" ++ name ++ "' is not used in any stage field"
        inputName := some name : EditorCompileIssue })
  let fields := mergeWizardFields workflow.inputs found
  { expanded := expandedStages
    fields := fields
    placeholders := fields.map WizardField.name
    issues := workflow.stages.flatMap (missingIssues templates) ++ unused }

end Murder.Editor

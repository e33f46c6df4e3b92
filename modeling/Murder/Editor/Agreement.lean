import Murder.Editor.Macros

/-! The editor's compilation of a draft against the server's compilation of its wire form. -/

namespace Murder.Editor

open Murder.Contracts Murder.Workflows Library.Records Library.Scanners

/-- The unknown templates an editor compilation reports. -/
def WorkflowCompileResult.unknown (result : WorkflowCompileResult) : List String :=
  result.issues.filterMap EditorCompileIssue.templateName

def serverUnknown (result : CompileWorkflowTemplateResult) : List String :=
  result.issues.filterMap WorkflowCompileIssue.templateName

/-- Both compilations expand the stages alike, ask for the same inputs and report the same
unknown templates. An input without a default starts empty in the wizard.
-/
structure Agrees (editor : WorkflowCompileResult) (server : CompileWorkflowTemplateResult)
    : Prop where
  stages
    : editor.expanded.map (fun stage => (stage.title, stage.instructions))
      = server.expandedTemplate.stages.map (fun stage => (stage.title, stage.instructions))
  inputs
    : editor.fields.map (fun field =>
        (field.name, field.kind, field.required, field.defaultValue))
      = server.inputs.map (fun input =>
        (input.name, input.kind, input.required, input.default.getD ""))
  unknown : ∀ name, name ∈ editor.unknown ↔ name ∈ serverUnknown server

/-- A stage whose texts have only well-named quoted macros. -/
structure StageWellQuoted (stage : EditorStage) : Prop where
  title : WellQuoted stage.title
  instructions : WellQuoted stage.instructions

variable (inputs : Option (Record String EditorInputDecl)) (instructions : String)
  (templates : PromptTemplates)

def serverInputs : List (String × WorkflowInputDecl) :=
  ((inputsToWire inputs).getD []).map (fun entry => (entry.1, decodeInput entry.2))

theorem serverInputs_names
    : (serverInputs inputs).map Prod.fst = declaredNames inputs := by
  cases inputs with
  | none => rfl
  | some inputs =>
    simp only [serverInputs, inputsToWire, Option.map_some, Option.getD_some, List.map_map,
      declaredNames, AList.keys, List.keys]
    rfl

/-- A name that nobody declared gets the defaults. -/
theorem fieldFor_undeclared {name : String}
    {inputs : Option (Record String EditorInputDecl)} (undeclared : name ∉ declaredNames inputs)
    : fieldFor name inputs = ⟨name, name, .text, false, ""⟩ := by
  have absent : inputs.bind (AList.lookup name) = none := by
    cases inputs with
    | none => rfl
    | some inputs => exact AList.lookup_eq_none.mpr undeclared
  simp [fieldFor, absent]

/-- A declared input asks for what the server decodes of its declaration. -/
theorem fieldFor_declared {inputs : Record String EditorInputDecl}
    {entry : Sigma (fun _ : String => EditorInputDecl)} (listed : entry ∈ inputs.entries)
    : let field := fieldFor entry.1 (some inputs)
      let decl := decodeInput entry.2
      (field.name, field.kind, field.required, field.defaultValue)
        = (entry.1, decl.kind, decl.required, decl.default.getD "") := by
  have found : inputs.lookup entry.1 = some entry.2 := AList.mem_lookup_iff.mpr listed
  simp only [fieldFor, decodeInput, Option.bind_some, found]
  cases entry.2.kind with
  | none => rfl
  | some kind => cases kind <;> rfl

/-- Neither side lists an item it has seen. -/
theorem not_mem_of_mem_newOnes {α : Type} [DecidableEq α] {seen items : List α} {item : α}
    (member : item ∈ newOnes seen items)
    : item ∉ seen := by
  induction items generalizing seen with
  | nil => cases member
  | cons head rest ih =>
    rw [newOnes] at member
    split at member
    next listed => exact ih member
    next fresh =>
      rcases List.mem_cons.mp member with same | later
      · exact same ▸ fresh
      · intro listed
        exact ih later (mem_addNew.mpr (.inl listed))

theorem mergeWizardFields_eq (discovered : List String)
    : (mergeWizardFields inputs discovered).map (fun field =>
        (field.name, field.kind, field.required, field.defaultValue))
      = (mergeInputs (serverInputs inputs) discovered).map (fun input =>
        (input.name, input.kind, input.required, input.default.getD "")) := by
  rw [mergeWizardFields, mergeInputs, serverInputs_names, List.map_append, List.map_append]
  congr 1
  · cases inputs with
    | none => rfl
    | some inputs =>
      simp only [declaredNames, AList.keys, List.keys, serverInputs, inputsToWire,
        Option.map_some, Option.getD_some, List.map_map]
      apply List.map_congr_left
      intro entry listed
      exact fieldFor_declared listed
  · rw [List.map_map, List.map_map]
    apply List.map_congr_left
    intro name member
    simp [fieldFor_undeclared (not_mem_of_mem_newOnes member)]

theorem collect_stage (found : List String) (title instructions : String)
    : collectPlaceholdersFromText (collectPlaceholdersFromText found title) instructions
      = addAll found (collectPlaceholders [title, instructions]) := by
  simp only [collectPlaceholders, List.foldl_cons, List.foldl_nil, addAll_addAll,
    collectPlaceholdersFromText]
  rfl

/-- Stages with the same texts have the same placeholders, in the same order. -/
theorem foundPlaceholders_eq {stages : List EditorStage} {nodes : List WorkflowNodeTemplate}
    (same : stages.map (fun stage => (stage.title, stage.instructions))
      = nodes.map (fun stage => (stage.title, stage.instructions)))
    : foundPlaceholders stages = discoveredInputs nodes := by
  have collected (found : List String)
      : stages.foldl (fun found stage =>
          collectPlaceholdersFromText (collectPlaceholdersFromText found stage.title)
            stage.instructions) found
        = nodes.foldl (fun discovered stage =>
          addAll discovered (collectPlaceholders [stage.title, stage.instructions])) found := by
    induction stages generalizing nodes found with
    | nil =>
      cases nodes with
      | nil => rfl
      | cons node nodes => cases same
    | cons stage stages ih =>
      cases nodes with
      | nil => cases same
      | cons node nodes =>
        simp only [List.map_cons, List.cons.injEq, Prod.mk.injEq] at same
        rw [List.foldl_cons, List.foldl_cons, collect_stage, same.1.1, same.1.2]
        exact ih same.2 _
  exact collected []

theorem missingIssues_names (stage : EditorStage)
    : (missingIssues templates stage).filterMap EditorCompileIssue.templateName
      = unknownWith inlineRe templates stage.title
        ++ unknownWith inlineRe templates stage.instructions := by
  simp [missingIssues, missingIssue, expandInlinePromptTemplates, List.filterMap_map,
    Function.comp_def]

theorem mem_unknown {workflow : EditorWorkflow} {templates : PromptTemplates} {name : String}
    : name ∈ (compileWorkflowTemplate workflow templates).unknown
      ↔ ∃ stage ∈ workflow.stages, name ∈ unknownWith inlineRe templates stage.title
          ∨ name ∈ unknownWith inlineRe templates stage.instructions := by
  simp only [WorkflowCompileResult.unknown, compileWorkflowTemplate, List.filterMap_append,
    List.filterMap_map, Function.comp_def, List.filterMap_flatMap, missingIssues_names]
  simp

/-- Of a text that is quoted well both sides make the same. -/
theorem WellQuoted.expandWith {text : String} (quoted : WellQuoted text)
    (templates : PromptTemplates)
    : expandWith inlineRe templates text = expandWith inlinePromptTemplate templates text := by
  rw [Workflows.expandWith, Workflows.expandWith, quoted.tokens]

theorem WellQuoted.unknownWith {text : String} (quoted : WellQuoted text)
    (templates : PromptTemplates)
    : unknownWith inlineRe templates text
      = unknownWith inlinePromptTemplate templates text := by
  rw [Workflows.unknownWith, Workflows.unknownWith, quoted.tokens]

theorem expandStage_texts {workflow : EditorWorkflow}
    (titles : ∀ stage ∈ workflow.stages, stage.title = stage.id)
    (quoted : ∀ stage ∈ workflow.stages, StageWellQuoted stage)
    : (workflow.stages.map (expandStage templates)).map (fun stage =>
        (stage.title, stage.instructions))
      = ((toWire workflow).toTemplate.stages.map (Workflows.expandStage templates)).map
          (fun stage => (stage.title, stage.instructions)) := by
  simp only [toWire, WorkflowWire.toTemplate, List.map_map]
  apply List.map_congr_left
  intro stage listed
  have fine := quoted stage listed
  have title := fine.title.expandWith templates
  rw [titles stage listed] at title
  simp only [Function.comp_apply, expandStage, Workflows.expandStage,
    expandInlinePromptTemplates, Workflows.expandInlinePromptTemplates, title,
    fine.instructions.expandWith, titles stage listed]

section Server

variable [PyRepr]

theorem unknownTemplateIssues_names (stageIndex : Nat) (stage : WorkflowNodeTemplate)
    : (unknownTemplateIssues templates stageIndex stage).filterMap
          WorkflowCompileIssue.templateName
      = addAll (unknownWith inlinePromptTemplate templates stage.title)
          (unknownWith inlinePromptTemplate templates stage.instructions) := by
  simp [unknownTemplateIssues, Workflows.expandInlinePromptTemplates, List.filterMap_map]

theorem mem_serverUnknown {template : WorkflowTemplate} {templates : PromptTemplates}
    {name : String}
    : name ∈ serverUnknown (Workflows.compileWorkflowTemplate template templates)
      ↔ ∃ stage ∈ template.stages,
          name ∈ unknownWith inlinePromptTemplate templates stage.title
          ∨ name ∈ unknownWith inlinePromptTemplate templates stage.instructions := by
  simp only [serverUnknown, Workflows.compileWorkflowTemplate, List.filterMap_append,
    List.filterMap_map, Function.comp_def, List.filterMap_flatMap, unknownTemplateIssues_names]
  simp only [List.mem_append, List.mem_flatMap, mem_addAll, List.filterMap_none,
    List.not_mem_nil, or_false]
  constructor
  · intro found
    obtain ⟨entry, listed, either⟩ := found
    exact ⟨entry.1, List.fst_mem_of_mem_zipIdx listed, either⟩
  · intro found
    obtain ⟨stage, listed, either⟩ := found
    obtain ⟨position, inside, same⟩ := List.getElem_of_mem listed
    refine ⟨(stage, position), ?_, either⟩
    exact List.mem_zipIdx_iff_getElem?.mpr (by simp [inside, same])

def serverCompile (workflow : EditorWorkflow) (templates : PromptTemplates)
    : CompileWorkflowTemplateResult :=
  Workflows.compileWorkflowTemplate (toWire workflow).toTemplate templates

/-- The editor's compilation of a draft agrees with the server's while every quoted macro is
named in the server's grammar; with templates named so, only then.
-/
theorem compile_agrees (workflow : EditorWorkflow) (templates : PromptTemplates)
    (titles : ∀ stage ∈ workflow.stages, stage.title = stage.id)
    : ((∀ stage ∈ workflow.stages, StageWellQuoted stage) →
        Agrees (compileWorkflowTemplate workflow templates) (serverCompile workflow templates))
      ∧ ((∀ name ∈ templates, WellNamed name) →
          Agrees (compileWorkflowTemplate workflow templates)
              (serverCompile workflow templates) →
            ∀ stage ∈ workflow.stages, StageWellQuoted stage) := by
  constructor
  · intro quoted
    have expanded := expandStage_texts templates titles quoted
    refine ⟨expanded, ?_, ?_⟩
    · simp only [compileWorkflowTemplate, serverCompile, Workflows.compileWorkflowTemplate,
        foundPlaceholders_eq expanded]
      exact mergeWizardFields_eq workflow.inputs _
    · intro name
      rw [mem_unknown, serverCompile, mem_serverUnknown]
      simp only [toWire, WorkflowWire.toTemplate, List.map_map, List.mem_map,
        exists_exists_and_eq_and, Function.comp_apply]
      apply exists_congr
      intro stage
      apply and_congr_right
      intro listed
      have fine := quoted stage listed
      rw [fine.title.unknownWith, fine.instructions.unknownWith, titles stage listed]
  · intro valid agrees stage listed
    have shared {name : String}
        (read : ∃ stage ∈ workflow.stages, name ∈ unknownWith inlineRe templates stage.title
          ∨ name ∈ unknownWith inlineRe templates stage.instructions)
        : WellNamed name := by
      have known := (agrees.unknown name).mp (mem_unknown.mpr read)
      obtain ⟨node, -, either⟩ := mem_serverUnknown.mp known
      rcases either with inTitle | inInstructions
      · exact wellNamed_of_unknown inTitle
      · exact wellNamed_of_unknown inInstructions
    constructor
    · by_contra badly
      obtain ⟨name, unknown, outside⟩ := exists_unknown_of_not_wellQuoted valid badly
      exact outside (shared ⟨stage, listed, .inl unknown⟩)
    · by_contra badly
      obtain ⟨name, unknown, outside⟩ := exists_unknown_of_not_wellQuoted valid badly
      exact outside (shared ⟨stage, listed, .inr unknown⟩)

end Server

namespace Draft

scoped instance plainRepr : PyRepr := ⟨fun _ => ""⟩

def draft : EditorWorkflow where
  name := "draft"
  stages :=
    [{ key := "stage-1", id := "build", title := "build", instructions := instructions }]
  keysNodup := List.nodup_singleton "stage-1"

theorem draft_titles
    : ∀ stage ∈ (draft instructions).stages, stage.title = stage.id := by
  simp [draft]

/-- A bare macro, a placeholder and a quoted name of two words. -/
theorem compile_agrees_draft
    : Agrees (compileWorkflowTemplate (draft ":tone: {topic} :\"house style\":") ∅)
        (serverCompile (draft ":tone: {topic} :\"house style\":") ∅) := by
  refine (compile_agrees _ ∅ (draft_titles _)).1 ?_
  intro stage listed
  rw [List.mem_singleton.mp listed]
  exact ⟨by decide +kernel, by decide +kernel⟩

/-- The editor reports a quoted name outside the grammar, which the server leaves as text. -/
theorem compile_disagrees
    : ¬ ∀ (workflow : EditorWorkflow) (templates : PromptTemplates),
        (∀ stage ∈ workflow.stages, stage.title = stage.id) →
          Agrees (compileWorkflowTemplate workflow templates)
            (serverCompile workflow templates) := by
  intro claim
  have agrees := claim (draft ":\"a!b\":") ∅ (draft_titles _)
  have editor : "a!b" ∈ (compileWorkflowTemplate (draft ":\"a!b\":") ∅).unknown := by
    decide +kernel
  have server : "a!b" ∉ serverUnknown (serverCompile (draft ":\"a!b\":") ∅) := by
    decide +kernel
  exact server ((agrees.unknown "a!b").mp editor)

end Draft

end Murder.Editor

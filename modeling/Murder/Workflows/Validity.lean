import Mathlib.Data.List.Nodup
import Murder.Workflows.Definition

/-! When the validation of a definition finds no error. -/

namespace Murder.Workflows

open Murder.Contracts

def isError (issue : WorkflowIssue) : Bool := issue.severity == .error

def StageFine (builtin : Bool) (stage : StageDef) : Prop :=
  matchesStageId stage.id = true ∧ (builtin || given stage.harness) = true
    ∧ (builtin || given stage.model) = true

/-- A definition without errors. -/
structure Valid (definition : WorkflowDef) : Prop where
  name : definition.name ≠ "" ∧ matchesName definition.name = true
  nonempty : definition.stages ≠ []
  fine : ∀ stage ∈ definition.stages, StageFine definition.builtin stage
  unique : (definition.stages.map StageDef.id).Nodup
  distinct : ∀ stage ∈ definition.stages, stage.dependsOn.Nodup
  apart : ∀ stage ∈ definition.stages, stage.id ∉ stage.dependsOn
  closed
    : ∀ stage ∈ definition.stages, ∀ dependency ∈ stage.dependsOn,
        dependency ∈ definition.stages.map StageDef.id
  acyclic : findCycle definition = none
  root
    : definition.mode = .static → ∃ stage ∈ definition.stages, stage.dependsOn = []

variable {stage : StageDef}

theorem stageIssue_error {fine : Bool} {code : WorkflowIssueCode} {message field : String}
    {stageIndex : Nat}
    : (stageIssue fine code message stageIndex field stage .error).filter isError = []
      ↔ fine = true := by
  cases fine <;> simp [stageIssue, isError]

theorem stageIssue_warning {fine : Bool} {code : WorkflowIssueCode} {message field : String}
    {stageIndex : Nat}
    : (stageIssue fine code message stageIndex field stage .warning).filter isError = [] := by
  cases fine <;> simp [stageIssue, isError]

variable {definition : WorkflowDef}

theorem rootIssues_errors
    : (rootIssues definition).filter isError = []
      ↔ (definition.mode = .static → ∃ stage ∈ definition.stages, stage.dependsOn = []) := by
  unfold rootIssues
  split_ifs with rootless
  · obtain ⟨static_, none_⟩ := rootless
    simp only [List.any_eq_true, List.isEmpty_iff] at none_
    simp [isError, static_] at none_ ⊢
    exact none_
  · simp only [List.filter_nil, true_iff]
    intro static_
    by_contra none_
    refine rootless ⟨static_, fun found => none_ ?_⟩
    simpa using found

section Issues

variable [PyRepr]

/-- The stages have no error when each is fine and no id is seen twice, by induction over
them.
-/
theorem allStageIssues_errors {builtin : Bool} {stages : List StageDef} {seen : List String}
    {index : Nat}
    : (allStageIssues builtin seen index stages).filter isError = []
      ↔ (∀ stage ∈ stages, StageFine builtin stage) ∧ (stages.map StageDef.id).Nodup
        ∧ ∀ id ∈ seen, id ∉ stages.map StageDef.id := by
  induction stages generalizing seen index with
  | nil => simp [allStageIssues]
  | cons stage rest ih =>
    simp only [allStageIssues, stageIssues, List.filter_append, List.append_eq_nil_iff,
      stageIssue_error, stageIssue_warning, ih, and_true]
    simp only [StageFine, List.forall_mem_cons, List.map_cons, List.nodup_cons,
      Bool.not_eq_true', List.contains_eq_mem, decide_eq_false_iff_not]
    simp only [List.mem_cons, not_or]
    constructor
    · intro valid
      obtain ⟨⟨⟨⟨id, unseen⟩, harness⟩, model⟩, fine, unique, fresh⟩ := valid
      refine ⟨⟨⟨id, harness, model⟩, fine⟩, ⟨fresh.1, unique⟩, fun other member => ?_⟩
      exact ⟨fun same => unseen (same ▸ member), fresh.2 other member⟩
    · intro valid
      obtain ⟨⟨⟨id, harness, model⟩, fine⟩, ⟨absent, unique⟩, fresh⟩ := valid
      refine ⟨⟨⟨⟨id, fun member => (fresh _ member).1 rfl⟩, harness⟩, model⟩, fine, unique,
        absent, fun other member => (fresh other member).2⟩

/-- The dependencies of a stage have no error when they resolve apart from it and none is
seen twice, by induction over them.
-/
theorem dependencyIssues_errors {ids : List String} {index : Nat}
    {rest seen : List String} {position : Nat}
    : (dependencyIssues ids index stage seen position rest).filter isError = []
      ↔ rest.Nodup ∧ (∀ dependency ∈ rest, dependency ∉ seen)
        ∧ ∀ dependency ∈ rest, dependency ≠ stage.id ∧ dependency ∈ ids := by
  induction rest generalizing seen position with
  | nil => simp [dependencyIssues]
  | cons dependency rest ih =>
    have resolves : (List.filter isError
        (if dependency = stage.id then
          [dependencyIssue .selfDependency ("stage " ++ quoted stage.id ++ " depends on itself")
            index position stage dependency]
        else if ids.contains dependency then
          []
        else
          [dependencyIssue .unknownDependency
            ("stage " ++ quoted stage.id ++ " depends on unknown stage " ++ quoted dependency)
            index position stage dependency])) = []
        ↔ dependency ≠ stage.id ∧ dependency ∈ ids := by
      split_ifs with self known
      · simp [dependencyIssue, isError, self]
      · simp [self, List.contains_iff_mem.mp known]
      · simp [dependencyIssue, isError, self]
        simpa using known
    have repeats : (List.filter isError
        (if seen.contains dependency then
          [dependencyIssue .duplicateDependency
            ("stage " ++ quoted stage.id ++ " has duplicate dependency " ++ quoted dependency)
            index position stage dependency]
        else
          [])) = [] ↔ dependency ∉ seen := by
      split_ifs with listed
      · simp [dependencyIssue, isError, List.contains_iff_mem.mp listed]
      · simpa using listed
    simp only [dependencyIssues, List.filter_append, List.append_eq_nil_iff, ih]
    rw [resolves, repeats]
    simp only [List.nodup_cons, List.forall_mem_cons]
    simp only [List.mem_cons, not_or]
    constructor
    · intro valid
      obtain ⟨⟨here, unseen⟩, distinct, later, resolved⟩ := valid
      refine ⟨⟨fun member => (later _ member).1 rfl, distinct⟩,
        ⟨unseen, fun other member => (later other member).2⟩, here, resolved⟩
    · intro valid
      obtain ⟨⟨absent, distinct⟩, ⟨unseen, later⟩, here, resolved⟩ := valid
      refine ⟨⟨here, unseen⟩, distinct, fun other member => ⟨?_, later other member⟩, resolved⟩
      intro same
      exact absent (same ▸ member)

theorem allDependencyIssues_errors
    : (allDependencyIssues definition).filter isError = []
      ↔ ∀ stage ∈ definition.stages, stage.dependsOn.Nodup
        ∧ ∀ dependency ∈ stage.dependsOn, dependency ≠ stage.id
            ∧ dependency ∈ definition.stages.map StageDef.id := by
  have own : ∀ stage index,
      ((dependencyIssues (definition.stages.map StageDef.id) index stage [] 0
        stage.dependsOn).filter isError = []
        ↔ stage.dependsOn.Nodup ∧ ∀ dependency ∈ stage.dependsOn, dependency ≠ stage.id
            ∧ dependency ∈ definition.stages.map StageDef.id) := by
    intro stage index
    rw [dependencyIssues_errors]
    simp
  unfold allDependencyIssues
  rw [List.filter_flatMap, List.flatMap_eq_nil_iff]
  constructor
  · intro none_ stage member
    obtain ⟨position, bound, found⟩ := List.mem_iff_getElem.mp member
    have entry : (stage, position) ∈ definition.stages.zipIdx :=
      List.mem_zipIdx_iff_getElem?.mpr (by simp [bound, found])
    exact (own stage position).mp (none_ _ entry)
  · intro fine entry member
    exact (own entry.1 entry.2).mpr (fine entry.1 (List.fst_mem_of_mem_zipIdx member))

theorem nameIssues_errors
    : (nameIssues definition).filter isError = []
      ↔ definition.name ≠ "" ∧ matchesName definition.name = true := by
  unfold nameIssues
  split_ifs with empty matched
  · simp [isError, empty]
  · simp [empty, matched]
  · simp [isError, matched]

theorem modeIssues_errors
    : (modeIssues definition).filter isError = [] := by
  unfold modeIssues
  split_ifs <;> simp [isError]

theorem cycleIssues_errors
    : (cycleIssues definition).filter isError = [] ↔ findCycle definition = none := by
  unfold cycleIssues
  cases findCycle definition <;> simp [isError]

/-- Validation finds no error exactly in a valid definition. -/
theorem workflowIssues_errors
    : (workflowIssues definition).filter isError = [] ↔ Valid definition := by
  unfold workflowIssues
  split_ifs with empty
  · constructor
    · intro none_
      simp [isError] at none_
    · intro valid
      exact absurd empty valid.nonempty
  · simp only [List.filter_append, List.append_eq_nil_iff, nameIssues_errors, modeIssues_errors,
      allStageIssues_errors, allDependencyIssues_errors, cycleIssues_errors, rootIssues_errors,
      and_true]
    constructor
    · intro valid
      obtain ⟨⟨⟨⟨name, fine, unique, -⟩, dependencies⟩, acyclic⟩, root⟩ := valid
      exact ⟨name, empty, fine, unique, fun stage member => (dependencies stage member).1,
        fun stage member self => ((dependencies stage member).2 _ self).1 rfl,
        fun stage member other listed => ((dependencies stage member).2 other listed).2, acyclic,
        root⟩
    · intro valid
      refine ⟨⟨⟨⟨valid.name, valid.fine, valid.unique, by simp⟩, fun stage member => ?_⟩,
        valid.acyclic⟩, valid.root⟩
      refine ⟨valid.distinct stage member, fun other listed => ⟨?_, ?_⟩⟩
      · intro same
        exact valid.apart stage member (same ▸ listed)
      · exact valid.closed stage member other listed

theorem validateWorkflow_eq_nil
    : validateWorkflow definition = [] ↔ Valid definition := by
  rw [← workflowIssues_errors]
  unfold validateWorkflow
  exact List.map_eq_nil_iff

end Issues

end Murder.Workflows

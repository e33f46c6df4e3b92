import Murder.Editor.Compile
import Murder.Library.Graphs
import Murder.Library.Searches

/-! The dependency edges that the editor draws of a draft, their toggles, and undo history. -/

namespace Murder.Editor

open Library.Graphs Library.Searches Relation

structure ResolvedEdge where
  source : StageKey
  target : StageKey
  dependency : String
  dependencyIndex : Nat
deriving DecidableEq

inductive UnresolvedKind
  | dangling
  | ambiguous
deriving DecidableEq

structure UnresolvedEdge where
  target : StageKey
  dependency : String
  dependencyIndex : Nat
  kind : UnresolvedKind
deriving DecidableEq

section Graph

variable (stages : List EditorStage)

def keysOf (id : String) : List StageKey :=
  (stages.filter (fun stage => stage.id = id)).map EditorStage.key

def dependencyMentions : List (StageKey × String × Nat) :=
  stages.flatMap (fun stage => stage.dependsOn.zipIdx.map (fun mention => (stage.key, mention)))

def resolvedEdges : List ResolvedEdge :=
  (dependencyMentions stages).filterMap (fun (target, dependency, index) =>
    match keysOf stages dependency with
    | [source] => some ⟨source, target, dependency, index⟩
    | _ => none)

def unresolvedEdges : List UnresolvedEdge :=
  (dependencyMentions stages).filterMap (fun (target, dependency, index) =>
    if (keysOf stages dependency).length = 1 then none
    else
      let kind := if (keysOf stages dependency).length = 0 then .dangling else .ambiguous
      some ⟨target, dependency, index, kind⟩)

/-- True when following dependency to dependent edges reaches the goal. -/
def reachable (start goal : StageKey) : Bool :=
  reaches ((resolvedEdges stages).map (fun edge => (edge.source, edge.target))) start goal

def rewriteDependencies (target : StageKey) (rewrite : List String → List String)
    : List EditorStage :=
  stages.map (fun stage =>
    if stage.key = target then { stage with dependsOn := rewrite stage.dependsOn } else stage)

end Graph

variable {stages : List EditorStage} {source target : StageKey}

theorem rewriteDependencies_keys {rewrite : List String → List String}
    : (rewriteDependencies stages target rewrite).map EditorStage.key
      = stages.map EditorStage.key := by
  rw [rewriteDependencies, List.map_map]
  exact List.map_congr_left (fun stage _ => by simp only [Function.comp]; split <;> rfl)

def EditorWorkflow.rewrite (workflow : EditorWorkflow) (target : StageKey)
    (rewrite : List String → List String)
    : EditorWorkflow :=
  { workflow with
    stages := rewriteDependencies workflow.stages target rewrite
    keysNodup := by rw [rewriteDependencies_keys]; exact workflow.keysNodup }

/-- Adds or removes a dependency. Invalid, ambiguous and cyclic additions change nothing. -/
def toggleDependency (workflow : EditorWorkflow) (target source : StageKey) : EditorWorkflow :=
  match workflow.stages.find? (fun stage => stage.key = target),
      workflow.stages.find? (fun stage => stage.key = source) with
  | some targetStage, some sourceStage =>
    let existingCount := targetStage.dependsOn.count sourceStage.id
    if existingCount = 1 then
      workflow.rewrite target (List.filter (fun id => id ≠ sourceStage.id))
    else if existingCount > 1 then workflow
    else if source = target ∨ sourceStage.id = ""
        ∨ (workflow.stages.filter (fun stage => stage.id = sourceStage.id)).length ≠ 1
        ∨ reachable workflow.stages target source then workflow
    else workflow.rewrite target (fun dependsOn => dependsOn ++ [sourceStage.id])
  | _, _ => workflow

/-- An edge of the drawn graph. -/
def Leads (stages : List EditorStage) (source target : StageKey) : Prop :=
  ∃ edge ∈ resolvedEdges stages, edge.source = source ∧ edge.target = target

def onCycle (stages : List EditorStage) : Set StageKey :=
  {node | TransGen (Leads stages) node node}

def unresolved (stages : List EditorStage) : Set (StageKey × String) :=
  {mention | ∃ edge ∈ unresolvedEdges stages, (edge.target, edge.dependency) = mention}

def Mentions (stages : List EditorStage) (target : StageKey) (dependency : String) : Prop :=
  ∃ stage ∈ stages, stage.key = target ∧ dependency ∈ stage.dependsOn

theorem mentions_iff {dependency : String}
    : Mentions stages target dependency
      ↔ ∃ index, (target, dependency, index) ∈ dependencyMentions stages := by
  simp only [dependencyMentions, List.mem_flatMap, List.mem_map, Prod.mk.injEq]
  constructor
  · intro ⟨stage, listed, keyed, mention⟩
    obtain ⟨index, bound, at_⟩ := List.mem_iff_getElem.mp mention
    exact ⟨index, stage, listed, _, List.mk_mem_zipIdx_iff_getElem?.mpr
      (List.getElem?_eq_some_iff.mpr ⟨bound, at_⟩), keyed, rfl⟩
  · intro ⟨index, stage, listed, mention, member, keyed, same⟩
    subst same
    exact ⟨stage, listed, keyed, List.fst_mem_of_mem_zipIdx member⟩

theorem leads_iff
    : Leads stages source target
      ↔ ∃ dependency, Mentions stages target dependency
        ∧ keysOf stages dependency = [source] := by
  simp only [mentions_iff]
  constructor
  · intro ⟨edge, member, from_, to_⟩
    obtain ⟨⟨key, dependency, index⟩, mention, found⟩ := List.mem_filterMap.mp member
    dsimp only at found
    split at found
    · next sole =>
        cases found
        subst from_ to_
        exact ⟨dependency, ⟨index, mention⟩, sole⟩
    · cases found
  · intro ⟨dependency, ⟨index, mention⟩, sole⟩
    refine ⟨⟨source, target, dependency, index⟩, List.mem_filterMap.mpr ?_, rfl, rfl⟩
    exact ⟨_, mention, by simp only [sole]⟩

theorem mem_unresolved {dependency : String}
    : (target, dependency) ∈ unresolved stages
      ↔ Mentions stages target dependency ∧ (keysOf stages dependency).length ≠ 1 := by
  simp only [mentions_iff, unresolved, unresolvedEdges, Set.mem_ofPred_eq, List.mem_filterMap]
  constructor
  · intro ⟨edge, ⟨mention, member, found⟩, same⟩
    split at found
    · cases found
    · next several =>
        cases found
        cases same
        exact ⟨⟨_, member⟩, several⟩
  · intro ⟨⟨index, member⟩, several⟩
    exact ⟨_, ⟨_, member, if_neg several⟩, rfl⟩

theorem reachable_iff
    : reachable stages source target = true ↔ ReflTransGen (Leads stages) source target := by
  have same : (fun a b => (a, b) ∈ (resolvedEdges stages).map (fun edge =>
      (edge.source, edge.target))) = Leads stages := by
    funext a b
    simp [Leads]
  rw [reachable, reaches_iff, Reaches, same]

/-- Rewritten dependencies leave the ids, by which edges are resolved. -/
theorem keysOf_rewrite {workflow : EditorWorkflow} {rewrite : List String → List String}
    : keysOf (workflow.rewrite target rewrite).stages = keysOf workflow.stages := by
  funext id
  change keysOf (rewriteDependencies workflow.stages target rewrite) id = _
  induction workflow.stages with
  | nil => rfl
  | cons stage rest ih =>
    simp only [keysOf, rewriteDependencies, List.map_cons, List.filter_cons] at ih ⊢
    by_cases here : stage.key = target
    · simp only [here, if_true]
      split <;> simp [ih, here]
    · simp only [here, if_false]
      split <;> simp [ih]

theorem mentions_rewrite {workflow : EditorWorkflow} {rewrite : List String → List String}
    {key : StageKey} {dependency : String}
    (mentions : Mentions (workflow.rewrite target rewrite).stages key dependency)
    : ∃ stage ∈ workflow.stages, stage.key = key
      ∧ dependency ∈ if key = target then rewrite stage.dependsOn else stage.dependsOn := by
  obtain ⟨stage, listed, keyed, mention⟩ := mentions
  obtain ⟨old, member, rfl⟩ := List.mem_map.mp listed
  by_cases here : old.key = target
  · rw [if_pos here] at keyed mention
    exact ⟨old, member, keyed, by rwa [← keyed, if_pos here]⟩
  · rw [if_neg here] at keyed mention
    exact ⟨old, member, keyed, by rwa [← keyed, if_neg here]⟩

theorem keysOf_alone {stage : EditorStage}
    (found : stages.find? (fun stage => stage.key = source) = some stage)
    (alone : (stages.filter (fun other => other.id = stage.id)).length = 1)
    : keysOf stages stage.id = [source] := by
  obtain ⟨only, same⟩ := List.length_eq_one_iff.mp alone
  have member : stage ∈ stages.filter (fun other => other.id = stage.id) :=
    List.mem_filter.mpr ⟨List.mem_of_find?_eq_some found, decide_eq_true rfl⟩
  rw [same, List.mem_singleton] at member
  have keyed : stage.key = source := by simpa using List.find?_some found
  rw [keysOf, same, ← member, List.map_singleton, keyed]

/-- A toggle keeps the ids, and adds one mention at most: of a source alone under its id, which the
target does not reach.
-/
theorem toggleDependency_cases (workflow : EditorWorkflow) (target source : StageKey)
    : keysOf (toggleDependency workflow target source).stages = keysOf workflow.stages
      ∧ ∀ key dependency,
        Mentions (toggleDependency workflow target source).stages key dependency
        → Mentions workflow.stages key dependency
          ∨ (key = target ∧ keysOf workflow.stages dependency = [source]
            ∧ ¬ReflTransGen (Leads workflow.stages) target source) := by
  unfold toggleDependency
  split
  · rename_i targetStage sourceStage targetFound sourceFound
    dsimp only
    split_ifs with once many refused
    · refine ⟨keysOf_rewrite, fun key dependency mentions => .inl ?_⟩
      obtain ⟨stage, listed, keyed, mention⟩ := mentions_rewrite mentions
      refine ⟨stage, listed, keyed, ?_⟩
      split at mention
      · exact List.mem_of_mem_filter mention
      · exact mention
    · exact ⟨rfl, fun _ _ mentions => .inl mentions⟩
    · exact ⟨rfl, fun _ _ mentions => .inl mentions⟩
    · push Not at refused
      obtain ⟨-, -, alone, apart⟩ := refused
      refine ⟨keysOf_rewrite, fun key dependency mentions => ?_⟩
      obtain ⟨stage, listed, keyed, mention⟩ := mentions_rewrite mentions
      split at mention
      · rcases List.mem_append.mp mention with old | new
        · exact .inl ⟨stage, listed, keyed, old⟩
        · rw [List.mem_singleton.mp new]
          exact .inr ⟨by assumption, keysOf_alone sourceFound alone,
            fun path => apart (reachable_iff.mpr path)⟩
      · exact .inl ⟨stage, listed, keyed, mention⟩
  · exact ⟨rfl, fun _ _ mentions => .inl mentions⟩

theorem toggleDependency_onCycle (workflow : EditorWorkflow) (target source : StageKey)
    : onCycle (toggleDependency workflow target source).stages ⊆ onCycle workflow.stages := by
  intro node loop
  obtain ⟨ids, adds⟩ := toggleDependency_cases workflow target source
  by_cases path : ReflTransGen (Leads workflow.stages) target source
  · refine TransGen.mono (fun a b edge => ?_) _ _ loop
    obtain ⟨dependency, mentions, sole⟩ := leads_iff.mp edge
    rcases adds b dependency mentions with old | ⟨-, -, apart⟩
    · exact leads_iff.mpr ⟨dependency, old, ids ▸ sole⟩
    · exact absurd path apart
  · refine cycle_of_insert path (fun a b edge => ?_) loop
    obtain ⟨dependency, mentions, sole⟩ := leads_iff.mp edge
    rw [ids] at sole
    rcases adds b dependency mentions with old | ⟨same, alone, -⟩
    · exact .inl (leads_iff.mpr ⟨dependency, old, sole⟩)
    · rw [sole] at alone
      exact .inr ⟨(List.cons.inj alone).1, same⟩

theorem toggleDependency_unresolved (workflow : EditorWorkflow) (target source : StageKey)
    : unresolved (toggleDependency workflow target source).stages
      ⊆ unresolved workflow.stages := by
  intro ⟨key, dependency⟩ mention
  obtain ⟨ids, adds⟩ := toggleDependency_cases workflow target source
  obtain ⟨mentions, several⟩ := mem_unresolved.mp mention
  rw [ids] at several
  rcases adds key dependency mentions with old | ⟨-, alone, -⟩
  · exact mem_unresolved.mpr ⟨old, several⟩
  · exact absurd (congrArg List.length alone) several

/-- Over every run of toggles a stage is on a cycle only if it was on one, and a dependency is
dangling or ambiguous only if it was.
-/
theorem toggles_sound (workflow : EditorWorkflow) (toggles : List (StageKey × StageKey))
    : let after := toggles.foldl (fun workflow toggle =>
        toggleDependency workflow toggle.1 toggle.2) workflow
      onCycle after.stages ⊆ onCycle workflow.stages
        ∧ unresolved after.stages ⊆ unresolved workflow.stages := by
  induction toggles generalizing workflow with
  | nil => exact ⟨Set.Subset.rfl, Set.Subset.rfl⟩
  | cons toggle rest ih =>
    obtain ⟨cycles, mentions⟩ := ih (toggleDependency workflow toggle.1 toggle.2)
    exact ⟨Set.Subset.trans cycles (toggleDependency_onCycle workflow toggle.1 toggle.2),
      Set.Subset.trans mentions (toggleDependency_unresolved workflow toggle.1 toggle.2)⟩

/-! ### The history of a draft -/

structure HistoryEntry where
  draft : EditorWorkflow
  selected : Option StageKey

structure EditorState where
  base : EditorWorkflow
  draft : EditorWorkflow
  selected : Option StageKey
  undo : List HistoryEntry := []
  redo : List HistoryEntry := []

def historyLimit : Nat := 100

inductive HistoryAction (Edit : Type)
  | undo
  | redo
  | saved (workflow : EditorWorkflow)
  | edit (edit : Edit) (selected : Option (Option StageKey))

def HistoryAction.moves {Edit : Type} : HistoryAction Edit → Bool
  | .undo | .redo => true
  | .saved _ | .edit .. => false

def initialEditorState (workflow : EditorWorkflow) : EditorState where
  base := workflow
  draft := workflow
  selected := workflow.stages.head?.map EditorStage.key

def EditorState.entry (state : EditorState) : HistoryEntry := ⟨state.draft, state.selected⟩

/-- What undos and redos move in: the past, the present and what is ahead. -/
def EditorState.timeline (state : EditorState) : List HistoryEntry :=
  state.undo ++ state.entry :: state.redo.reverse

section History

/- What an edit makes of a draft, and `none` where it returns the draft itself. -/
variable {Edit : Type} (applyWorkflowEdit : Edit → EditorWorkflow → Option EditorWorkflow)

def reduceEditor (state : EditorState) : HistoryAction Edit → EditorState
  | .undo =>
    match state.undo.getLast? with
    | none => state
    | some entry =>
      { state with
        draft := entry.draft
        selected := entry.selected
        undo := state.undo.dropLast
        redo := state.redo ++ [state.entry] }
  | .redo =>
    match state.redo.getLast? with
    | none => state
    | some entry =>
      { state with
        draft := entry.draft
        selected := entry.selected
        redo := state.redo.dropLast
        undo := state.undo ++ [state.entry] }
  | .saved workflow => { state with base := workflow }
  | .edit edit selected =>
    match applyWorkflowEdit edit state.draft with
    | none => state
    | some draft =>
      { state with
        draft := draft
        selected := selected.getD state.selected
        undo := (state.undo ++ [state.entry]).drop (state.undo.length + 1 - historyLimit)
        redo := [] }

/-- A move changes nothing but where it stands in the timeline. -/
theorem reduceEditor_moves {action : HistoryAction Edit} (moves : action.moves = true)
    (state : EditorState)
    : (reduceEditor applyWorkflowEdit state action).timeline = state.timeline
      ∧ (reduceEditor applyWorkflowEdit state action).base = state.base := by
  cases action with
  | undo =>
    cases last : state.undo.getLast? with
    | none => simp [reduceEditor, last]
    | some entry =>
      obtain ⟨rest, undo⟩ := List.getLast?_eq_some_iff.mp last
      simp [reduceEditor, undo, EditorState.timeline, EditorState.entry]
  | redo =>
    cases last : state.redo.getLast? with
    | none => simp [reduceEditor, last]
    | some entry =>
      obtain ⟨rest, redo⟩ := List.getLast?_eq_some_iff.mp last
      simp [reduceEditor, redo, EditorState.timeline, EditorState.entry]
  | saved workflow => cases moves
  | edit edit selected => cases moves

/-- The timeline and the place in it determine a state over its base. -/
theorem EditorState.eq_of_timeline {state other : EditorState} (base : state.base = other.base)
    (timeline : state.timeline = other.timeline)
    (place : state.undo.length = other.undo.length) : state = other := by
  obtain ⟨undo, rest⟩ := List.append_inj timeline place
  obtain ⟨entry, redo⟩ := List.cons.inj rest
  cases state
  cases other
  simp_all [EditorState.entry]

theorem undo_edit (state : EditorState) (edit : Edit) (selected : Option (Option StageKey))
    : reduceEditor applyWorkflowEdit state (.edit edit selected) = state
      ∨ (reduceEditor applyWorkflowEdit
          (reduceEditor applyWorkflowEdit state (.edit edit selected)) .undo).entry
        = state.entry := by
  cases edited : applyWorkflowEdit edit state.draft with
  | none => exact .inl (by simp [reduceEditor, edited])
  | some draft =>
    have within : ¬ state.undo.length + 1 ≤ state.undo.length + 1 - historyLimit := by
      unfold historyLimit
      omega
    have pushed : (reduceEditor applyWorkflowEdit state (.edit edit selected)).undo.getLast?
        = some state.entry := by
      simp only [reduceEditor, edited, List.getLast?_drop, List.length_append,
        List.length_singleton, within, if_false, List.getLast?_concat]
    right
    rw [reduceEditor, pushed]
    rfl

theorem reduceEditor_length {state : EditorState} (action : HistoryAction Edit)
    (within : state.timeline.length ≤ historyLimit + 1)
    : (reduceEditor applyWorkflowEdit state action).timeline.length ≤ historyLimit + 1 := by
  cases action with
  | undo => rwa [(reduceEditor_moves applyWorkflowEdit rfl state).1]
  | redo => rwa [(reduceEditor_moves applyWorkflowEdit rfl state).1]
  | saved workflow => exact within
  | edit edit selected =>
    cases edited : applyWorkflowEdit edit state.draft with
    | none => simpa [reduceEditor, edited] using within
    | some draft =>
      simp [reduceEditor, edited, EditorState.timeline]
      omega

theorem moved_timeline (later : List (HistoryAction Edit)) (state : EditorState)
    : ((later.filter (·.moves)).foldl (reduceEditor applyWorkflowEdit) state).timeline
        = state.timeline
      ∧ ((later.filter (·.moves)).foldl (reduceEditor applyWorkflowEdit) state).base
        = state.base := by
  induction later generalizing state with
  | nil => exact ⟨rfl, rfl⟩
  | cons action rest ih =>
    cases moves : action.moves with
    | false => simpa [List.filter_cons, moves] using ih state
    | true =>
      obtain ⟨timeline, base⟩ := reduceEditor_moves applyWorkflowEdit moves state
      simpa [List.filter_cons, moves, timeline, base]
        using ih (reduceEditor applyWorkflowEdit state action)

/-- Over every run the timeline holds the limit and the present at most, an edit is undone, and
undos and redos in any order only move in the timeline: where they come back to, all is as it was.
-/
theorem history_sound (workflow : EditorWorkflow) (actions : List (HistoryAction Edit))
    : let state := actions.foldl (reduceEditor applyWorkflowEdit) (initialEditorState workflow)
      state.timeline.length ≤ historyLimit + 1
        ∧ (∀ edit selected, reduceEditor applyWorkflowEdit state (.edit edit selected) = state
          ∨ (reduceEditor applyWorkflowEdit
              (reduceEditor applyWorkflowEdit state (.edit edit selected)) .undo).entry
            = state.entry)
        ∧ ∀ later : List (HistoryAction Edit),
          let moved := (later.filter (·.moves)).foldl (reduceEditor applyWorkflowEdit) state
          moved.timeline = state.timeline ∧ moved.base = state.base
            ∧ (moved.undo.length = state.undo.length → moved = state) := by
  refine ⟨?_, undo_edit applyWorkflowEdit _, fun later => ?_⟩
  · have start : (initialEditorState workflow).timeline.length ≤ historyLimit + 1 := by
      simp [initialEditorState, EditorState.timeline]
    generalize initialEditorState workflow = state at start
    induction actions generalizing state with
    | nil => exact start
    | cons action rest ih => exact ih _ (reduceEditor_length applyWorkflowEdit action start)
  · generalize List.foldl _ _ actions = state
    obtain ⟨timeline, base⟩ := moved_timeline applyWorkflowEdit later state
    exact ⟨timeline, base, EditorState.eq_of_timeline base timeline⟩

end History

end Murder.Editor

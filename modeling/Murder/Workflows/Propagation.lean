import Murder.Workflows.StaticDag
import Murder.Workflows.Validity

/-! What signals and propagation do to the stages of a static DAG.
A signal finishes an open stage; a propagation loop readies or cancels blocked stages until
no stage is left to settle.
-/

namespace Murder.Workflows

open Murder.Contracts

/-- What the propagation relies on of a validated list of stages. -/
structure WellFormed (stages : List StageDef) : Prop where
  nonempty : stages ≠ []
  unique : (stages.map StageDef.id).Nodup
  closed
    : ∀ stageDef ∈ stages, ∀ dependency ∈ stageDef.dependsOn,
        ∃ upstream ∈ stages, upstream.id = dependency

theorem Valid.wellFormed {definition : WorkflowDef} (valid : Valid definition)
    : WellFormed definition.stages where
  nonempty := valid.nonempty
  unique := valid.unique
  closed stage member dependency listed := by
    simpa using valid.closed stage member dependency listed

theorem wellFormed_of_valid [PyRepr] {definition : WorkflowDef}
    (valid : validateWorkflow definition = [])
    : WellFormed definition.stages :=
  (validateWorkflow_eq_nil.mp valid).wellFormed

/-- Unique ids name one stage. -/
theorem WellFormed.same {stages : List StageDef} (wellFormed : WellFormed stages)
    {left right : StageDef} (hl : left ∈ stages) (hr : right ∈ stages)
    (same : left.id = right.id)
    : left = right :=
  List.inj_on_of_nodup_map wellFormed.unique hl hr same

def statusOf (byStage : ByStage) (stageId : String) : Option StageStatus :=
  (byStage stageId).map StageRunState.status

@[simp] theorem set_same (byStage : ByStage) (stageId : String) (stage : StageRunState)
    : byStage.set stageId stage stageId = some stage := by
  simp [ByStage.set]

variable {stageId : String}

theorem set_other {byStage : ByStage} {other : String} {stage : StageRunState} (h : other ≠ stageId)
    : byStage.set stageId stage other = byStage other := by
  simp [ByStage.set, h]

@[simp] theorem statusOf_set_same (byStage : ByStage) (stageId : String)
    (stage : StageRunState)
    : statusOf (byStage.set stageId stage) stageId = some stage.status := by
  simp [statusOf]

theorem statusOf_set_other {byStage : ByStage} {other : String}
    {stage : StageRunState} (h : other ≠ stageId)
    : statusOf (byStage.set stageId stage) other = statusOf byStage other := by
  simp [statusOf, set_other h]

theorem statusOf_some {byStage : ByStage} {stage : StageRunState}
    (found : byStage stageId = some stage)
    : statusOf byStage stageId = some stage.status := by
  simp [statusOf, found]

def KeepsStages (before after : ByStage) : Prop :=
  ∀ stageId stage,
    before stageId = some stage → stage.status.terminal = true → after stageId = some stage

theorem KeepsStages.refl (byStage : ByStage) : KeepsStages byStage byStage :=
  fun _ _ found _ => found

theorem KeepsStages.trans {first second third : ByStage} (left : KeepsStages first second)
    (right : KeepsStages second third)
    : KeepsStages first third :=
  fun stageId stage found finished =>
    right stageId stage (left stageId stage found finished) finished

theorem KeepsStages.status {before after : ByStage} (keeps : KeepsStages before after)
    {status : StageStatus} (h : statusOf before stageId = some status)
    (finished : status.terminal = true)
    : statusOf after stageId = some status := by
  obtain ⟨stage, found, same⟩ := Option.map_eq_some_iff.mp h
  subst same
  exact statusOf_some (keeps stageId stage found finished)

theorem KeepsStages.set {byStage : ByStage} {stage : StageRunState}
    (found : byStage stageId = some stage) (open_ : stage.status.terminal = false)
    (next : StageRunState)
    : KeepsStages byStage (byStage.set stageId next) := by
  intro other kept keptFound finished
  have different : other ≠ stageId := by
    intro same
    subst same
    have equal : stage = kept := Option.some.inj (found.symm.trans keptFound)
    simp [← equal, open_] at finished
  rw [set_other different]
  exact keptFound

/-- What applying one signal does: it finishes the open stage it addresses, if any. -/
inductive Applied [PyRepr] (machine : StaticDagMachine) (byStage : ByStage)
    (signal : WorkflowSignalRecord) : ByStage → Prop
  | ignored
    (closed
      : ∀ stageId payload stage,
          machine.addressed signal.payload = some (stageId, payload)
            → byStage stageId = some stage → stage.status.terminal = true)
    : Applied machine byStage signal byStage
  | finished {stageId payload stage}
    (addressed : machine.addressed signal.payload = some (stageId, payload))
    (found : byStage stageId = some stage)
    (open_ : stage.status.terminal = false)
    : Applied machine byStage signal (byStage.set stageId {
        stage with
          status := (StaticDagMachine.finishedAs payload).1
          error := (StaticDagMachine.finishedAs payload).2
      })

section Signals

variable [PyRepr] {machine : StaticDagMachine} {byStage : ByStage}
  {signal : WorkflowSignalRecord}

theorem applySignal_applied (machine : StaticDagMachine) (byStage : ByStage)
    (signal : WorkflowSignalRecord)
    : Applied machine byStage signal (machine.applySignal byStage signal) := by
  unfold StaticDagMachine.applySignal
  split
  · next nobody =>
      exact .ignored (fun _ _ _ addressed => by simp [nobody] at addressed)
  · next stageId payload addressed =>
      split
      · next missing =>
          refine .ignored (fun other _ _ addressed' found => ?_)
          have same : stageId = other := by
            have equal := addressed.symm.trans addressed'
            simp only [Option.some.injEq, Prod.mk.injEq] at equal
            exact equal.1
          simp [← same, missing] at found
      · next existing found =>
          split
          · next finished =>
              refine .ignored (fun other _ stage addressed' found' => ?_)
              have same : stageId = other := by
                have equal := addressed.symm.trans addressed'
                simp only [Option.some.injEq, Prod.mk.injEq] at equal
                exact equal.1
              rw [← same, found] at found'
              exact Option.some.inj found' ▸ finished
          · next open_ => exact .finished addressed found (by simpa using open_)

/-- A ticket outcome always finishes a stage. -/
theorem finishedAs_terminal (payload : JsonObject)
    : (StaticDagMachine.finishedAs payload).1.terminal = true := by
  unfold StaticDagMachine.finishedAs
  dsimp only
  split
  · rfl
  · split <;> rfl

theorem Applied.keeps {next : ByStage} (h : Applied machine byStage signal next)
    : KeepsStages byStage next := by
  cases h with
  | ignored => exact .refl byStage
  | finished _ found open_ => exact .set found open_ _

theorem Applied.same_ids {next : ByStage} (h : Applied machine byStage signal next)
    (stageId : String)
    : (next stageId).map StageRunState.stageId
        = (byStage stageId).map StageRunState.stageId := by
  cases h with
  | ignored => rfl
  | @finished finishedId _ _ _ found _ =>
    by_cases same : stageId = finishedId
    · subst same
      simp [found]
    · rw [set_other same]

theorem Applied.of_open {next : ByStage} (h : Applied machine byStage signal next)
    {status : StageStatus} (after : statusOf next stageId = some status)
    (open_ : status.terminal = false)
    : statusOf byStage stageId = some status := by
  cases h with
  | ignored => exact after
  | @finished finishedId payload _ _ _ _ =>
    by_cases same : stageId = finishedId
    · subst same
      have finished := finishedAs_terminal payload
      rw [statusOf_set_same, Option.some.injEq] at after
      simp only at after
      simp [after, open_] at finished
    · rwa [statusOf_set_other same] at after

end Signals

/-- The stage has dependencies and all of them succeeded. -/
def Released (byStage : ByStage) (stageDef : StageDef) : Prop :=
  stageDef.dependsOn ≠ []
    ∧ ∀ dependency ∈ stageDef.dependsOn, statusOf byStage dependency = some .succeeded

/-- A dependency of the stage failed or was cancelled. -/
def Obstructed (byStage : ByStage) (stageDef : StageDef) : Prop :=
  ∃ dependency ∈ stageDef.dependsOn,
    statusOf byStage dependency = some .failed ∨ statusOf byStage dependency = some .cancelled

/-- What a pass does to one stage. -/
inductive Settled (byStage : ByStage) (stageDef : StageDef) : ByStage → Bool → Prop
  | unchanged
    (settled
      : statusOf byStage stageDef.id = some .blocked
          → ¬ Released byStage stageDef ∧ ¬ Obstructed byStage stageDef)
    : Settled byStage stageDef byStage false
  | readied {stage} (found : byStage stageDef.id = some stage)
    (blocked : stage.status = .blocked) (released : Released byStage stageDef)
    : Settled byStage stageDef
        (byStage.set stageDef.id { stage with status := .ready }) true
  | cancelled {stage} (found : byStage stageDef.id = some stage)
    (blocked : stage.status = .blocked) (obstructed : Obstructed byStage stageDef)
    : Settled byStage stageDef
        (byStage.set stageDef.id {
          stage with
            status := .cancelled
            error := some "an upstream stage did not succeed"
        }) true

variable {dependsOn : List String} {statuses : List StageStatus}

section Settle

open StaticDagMachine

variable {byStage : ByStage} {stageDef : StageDef}

/-- The statuses read are those of the dependencies, by induction over them. -/
theorem dependencyStatuses_returns (h : dependencyStatuses byStage dependsOn = .ok statuses)
    : dependsOn.map (statusOf byStage) = statuses.map some := by
  induction dependsOn generalizing statuses with
  | nil =>
    cases h
    rfl
  | cons dependency rest ih =>
    cases found : byStage dependency with
    | none => simp [dependencyStatuses, ByStage.require, found, bind, Except.bind] at h
    | some stage =>
      cases remaining : dependencyStatuses byStage rest with
      | error failure =>
        simp [dependencyStatuses, ByStage.require, found, remaining, bind,
          Except.bind] at h
      | ok others =>
        simp only [dependencyStatuses, ByStage.require, found, remaining, bind,
          Except.bind, Except.ok.injEq] at h
        subst h
        simp [statusOf_some found, ih remaining]

theorem dependencyStatuses_total (present : ∀ dependency ∈ dependsOn, (byStage dependency).isSome)
    : ∃ statuses, dependencyStatuses byStage dependsOn = .ok statuses := by
  induction dependsOn with
  | nil => exact ⟨[], rfl⟩
  | cons dependency rest ih =>
    obtain ⟨stage, found⟩ := Option.isSome_iff_exists.mp (present dependency (by simp))
    obtain ⟨statuses, remaining⟩ := ih (fun other member => present other (by simp [member]))
    refine ⟨stage.status :: statuses, ?_⟩
    simp [dependencyStatuses, ByStage.require, found, remaining, bind, Except.bind]

/-- The tests on the statuses read are the tests on the dependencies. -/
private theorem released_iff (read : dependsOn.map (statusOf byStage) = statuses.map some)
    : (statuses ≠ [] ∧ ∀ status ∈ statuses, status = .succeeded)
        ↔ (dependsOn ≠ []
          ∧ ∀ dependency ∈ dependsOn, statusOf byStage dependency = some .succeeded) := by
  induction dependsOn generalizing statuses with
  | nil => simp_all
  | cons dependency rest ih =>
    cases statuses with
    | nil => simp at read
    | cons status others =>
      simp only [List.map_cons, List.cons.injEq] at read
      obtain ⟨head, tail⟩ := read
      have others_iff := ih tail
      by_cases empty : rest = []
      · subst empty
        have none_left : others = [] := by simpa using tail.symm
        simp [none_left, head]
      · have some_left : others ≠ [] := by
          intro none_left
          simp [none_left, empty] at tail
        simp only [ne_eq, some_left, not_false_eq_true, true_and, empty] at others_iff
        simp [head, others_iff]

private theorem obstructed_iff
    (read : dependsOn.map (statusOf byStage) = statuses.map some) (wanted : StageStatus)
    : wanted ∈ statuses
        ↔ ∃ dependency ∈ dependsOn, statusOf byStage dependency = some wanted := by
  have listed : some wanted ∈ statuses.map some ↔ wanted ∈ statuses := by simp
  rw [← listed, ← read, List.mem_map]

theorem settle_returns {next : ByStage} {changed : Bool}
    (h : settle byStage stageDef = .ok (next, changed))
    : Settled byStage stageDef next changed := by
  cases found : byStage stageDef.id with
  | none => simp [settle, ByStage.require, found, bind, Except.bind] at h
  | some stage =>
    by_cases blocked : stage.status = .blocked
    · cases statuses : dependencyStatuses byStage stageDef.dependsOn with
      | error failure =>
        simp [settle, ByStage.require, found, blocked, statuses, bind, Except.bind] at h
      | ok read =>
        have tests := dependencyStatuses_returns statuses
        have released := released_iff tests
        have failed := obstructed_iff tests .failed
        have cancelled := obstructed_iff tests .cancelled
        simp only [settle, ByStage.require, found, blocked, statuses, bind, Except.bind,
          ne_eq, not_true_eq_false, ↓reduceIte] at h
        split at h
        · next ready =>
            cases h
            exact .readied found blocked (released.mp ready)
        · next notReady =>
            split at h
            · next stopped =>
                cases h
                refine .cancelled found blocked ?_
                rcases stopped with upstream | upstream
                · obtain ⟨dependency, member, status⟩ := failed.mp upstream
                  exact ⟨dependency, member, .inl status⟩
                · obtain ⟨dependency, member, status⟩ := cancelled.mp upstream
                  exact ⟨dependency, member, .inr status⟩
            · next notStopped =>
                cases h
                refine .unchanged (fun _ => ⟨fun ready => notReady (released.mpr ready), ?_⟩)
                intro obstructed
                obtain ⟨dependency, member, status | status⟩ := obstructed
                · exact notStopped (.inl (failed.mpr ⟨dependency, member, status⟩))
                · exact notStopped (.inr (cancelled.mpr ⟨dependency, member, status⟩))
    · simp only [settle, ByStage.require, found, blocked, bind, Except.bind, ne_eq,
        not_false_eq_true, ↓reduceIte, Except.ok.injEq, Prod.mk.injEq] at h
      obtain ⟨same, still⟩ := h
      subst same still
      refine .unchanged (fun isBlocked => absurd ?_ blocked)
      simpa [statusOf_some found] using isBlocked

theorem settle_total (own : (byStage stageDef.id).isSome)
    (present : ∀ dependency ∈ stageDef.dependsOn, (byStage dependency).isSome)
    : ∃ next changed, settle byStage stageDef = .ok (next, changed) := by
  obtain ⟨stage, found⟩ := Option.isSome_iff_exists.mp own
  obtain ⟨statuses, read⟩ := dependencyStatuses_total present
  simp only [settle, ByStage.require, found, read, bind, Except.bind]
  split
  · exact ⟨_, _, rfl⟩
  · split
    · exact ⟨_, _, rfl⟩
    · split
      · exact ⟨_, _, rfl⟩
      · exact ⟨_, _, rfl⟩

end Settle

namespace Settled

variable {byStage next : ByStage} {stageDef : StageDef} {changed : Bool}

theorem keeps (h : Settled byStage stageDef next changed) : KeepsStages byStage next := by
  cases h with
  | unchanged => exact .refl byStage
  | readied found blocked _ => exact .set found (by simp [blocked, StageStatus.terminal]) _
  | cancelled found blocked _ => exact .set found (by simp [blocked, StageStatus.terminal]) _

theorem still (h : Settled byStage stageDef next false) : next = byStage := by
  cases h
  rfl

theorem nothing (h : Settled byStage stageDef next false)
    (blocked : statusOf byStage stageDef.id = some .blocked)
    : ¬ Released byStage stageDef ∧ ¬ Obstructed byStage stageDef := by
  cases h with
  | unchanged settled => exact settled blocked

/-- What a pass leaves in a status it may also have given the stage. -/
theorem status (h : Settled byStage stageDef next changed) (stageId : String)
    : statusOf next stageId = statusOf byStage stageId
      ∨ stageId = stageDef.id ∧ statusOf byStage stageId = some .blocked
        ∧ (statusOf next stageId = some .ready ∧ Released byStage stageDef
          ∨ statusOf next stageId = some .cancelled ∧ Obstructed byStage stageDef) := by
  by_cases same : stageId = stageDef.id
  · subst same
    cases h with
    | unchanged => exact .inl rfl
    | readied found blocked released =>
      refine .inr ⟨rfl, ?_, .inl ⟨statusOf_set_same .., released⟩⟩
      rw [statusOf_some found, blocked]
    | cancelled found blocked obstructed =>
      refine .inr ⟨rfl, ?_, .inr ⟨statusOf_set_same .., obstructed⟩⟩
      rw [statusOf_some found, blocked]
  · cases h with
    | unchanged => exact .inl rfl
    | readied => exact .inl (statusOf_set_other same)
    | cancelled => exact .inl (statusOf_set_other same)

theorem of_blocked (h : Settled byStage stageDef next changed)
    (after : statusOf next stageId = some .blocked)
    : statusOf byStage stageId = some .blocked := by
  rcases h.status stageId with same | ⟨-, before, -⟩
  · rwa [same] at after
  · exact before

theorem unblocks (h : Settled byStage stageDef next true)
    : statusOf byStage stageDef.id = some .blocked
      ∧ statusOf next stageDef.id ≠ some .blocked := by
  cases h with
  | readied found blocked _ => simp [statusOf_some found, blocked]
  | cancelled found blocked _ => simp [statusOf_some found, blocked]

theorem same_ids (h : Settled byStage stageDef next changed) (stageId : String)
    : (next stageId).map StageRunState.stageId = (byStage stageId).map StageRunState.stageId := by
  cases h with
  | unchanged => rfl
  | readied found _ _ =>
    by_cases same : stageId = stageDef.id
    · subst same
      simp [found]
    · rw [set_other same]
  | cancelled found _ _ =>
    by_cases same : stageId = stageDef.id
    · subst same
      simp [found]
    · rw [set_other same]

end Settled

end Murder.Workflows

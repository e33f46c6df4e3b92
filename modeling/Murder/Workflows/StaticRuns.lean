import Murder.Library.Runs
import Murder.Workflows.Decisions
import Murder.Workflows.Transitions

/-! Runs of the static DAG: plans decided batch after batch from the initial state.
Every plan is right about the statuses of its stages, consumes its batch and waits for the
ticket of each open stage.
-/

namespace Murder.Workflows

open Murder.Contracts Library.Loops Library.Runs Library.Transactions

section RunStatus

open StaticDagMachine

variable {statuses : List StageStatus}

theorem runStatus_completed (nonempty : statuses ≠ [])
    : runStatus statuses = .completed ↔ ∀ status ∈ statuses, status = .succeeded := by
  unfold runStatus
  split
  · next all => exact iff_of_true rfl all.2
  · next some_other =>
      have notAll : ¬ ∀ status ∈ statuses, status = .succeeded :=
        fun all => some_other ⟨nonempty, all⟩
      simp only [notAll, iff_false]
      split
      · simp
      · split <;> simp

theorem runStatus_failed (statuses : List StageStatus)
    : runStatus statuses = .failed ↔ .failed ∈ statuses := by
  unfold runStatus
  split
  · next all =>
      have absent : StageStatus.failed ∉ statuses := by
        intro member
        have equal := all.2 _ member
        simp at equal
      simp [absent]
  · split
    · next member => simp [member]
    · next absent =>
        simp only [absent, iff_false]
        split <;> simp

theorem runStatus_cancelled (nonempty : statuses ≠ [])
    : runStatus statuses = .cancelled
        ↔ (∀ status ∈ statuses, status.terminal = true)
          ∧ .failed ∉ statuses ∧ .cancelled ∈ statuses := by
  unfold runStatus
  split
  · next all =>
      have absent : StageStatus.cancelled ∉ statuses := by
        intro member
        have equal := all.2 _ member
        simp at equal
      simp [absent]
  · next notAll =>
      split
      · next member => simp [member]
      · next noFailure =>
          split
          · next finished =>
              simp only [true_iff]
              refine ⟨finished.2, noFailure, ?_⟩
              by_contra noCancel
              refine notAll ⟨nonempty, fun status member => ?_⟩
              have ended := finished.2 status member
              cases status with
              | succeeded => rfl
              | failed => exact absurd member noFailure
              | cancelled => exact absurd member noCancel
              | _ => simp [StageStatus.terminal] at ended
          · next unfinished =>
              have notFinished : ¬ ∀ status ∈ statuses, status.terminal = true :=
                fun finished => unfinished ⟨nonempty, finished⟩
              simp [notFinished]

theorem runStatus_cases (statuses : List StageStatus)
    : (runStatus statuses).terminal = true ∨ runStatus statuses = .waiting := by
  unfold runStatus
  split
  · exact .inl rfl
  · split
    · exact .inl rfl
    · split
      · exact .inl rfl
      · exact .inr rfl

end RunStatus

/-- Every stage is mapped to a ticket of its own. -/
structure TicketsMapped (machine : StaticDagMachine) : Prop where
  mapped
    : ∀ stageDef ∈ machine.definition.stages,
        ∃ ticketId, machine.stageMap.lookup stageDef.id = some ticketId
  distinct
    : ∀ left ∈ machine.definition.stages, ∀ right ∈ machine.definition.stages,
        machine.stageMap.lookup left.id = machine.stageMap.lookup right.id
          → left.id = right.id

def openStages (stages : List StageRunState) : List StageRunState :=
  stages.filter (fun stage => !stage.status.terminal)

def ticketWait (ticketId : String) : WaitSpec :=
  .externalSignal "ticket.finished" (some ticketId)

variable {stages : List StageRunState}

theorem stageWaits_returns {machine : StaticDagMachine}
    (mapped
      : ∀ stage ∈ stages, ∃ ticketId, machine.stageMap.lookup stage.stageId = some ticketId)
    : ∃ ticketIds : List String,
        machine.stageWaits stages = .ok (ticketIds.map ticketWait)
          ∧ (openStages stages).map (fun stage => machine.stageMap.lookup stage.stageId)
            = ticketIds.map some := by
  induction stages with
  | nil => exact ⟨[], rfl, rfl⟩
  | cons stage rest ih =>
    obtain ⟨ticketIds, waits, tickets⟩ :=
      ih (fun other member => mapped other (by simp [member]))
    obtain ⟨ticketId, own⟩ := mapped stage (by simp)
    cases finished : stage.status.terminal with
    | true =>
      refine ⟨ticketIds, ?_, ?_⟩
      · simp [StaticDagMachine.stageWaits, finished, waits]
      · simpa [openStages, finished] using tickets
    | false =>
      refine ⟨ticketId :: ticketIds, ?_, ?_⟩
      · simp [StaticDagMachine.stageWaits, finished, own, waits, bind, Except.bind,
          ticketWait]
      · simpa [openStages, finished, own] using tickets

/-- Distinct tickets: no two open stages share one. -/
theorem ticketIds_nodup {machine : StaticDagMachine}
    {ticketIds : List String} (mapped : TicketsMapped machine)
    (unique : (stages.map StageRunState.stageId).Nodup)
    (known
      : ∀ stage ∈ stages,
          ∃ stageDef ∈ machine.definition.stages, stageDef.id = stage.stageId)
    (tickets
      : (openStages stages).map (fun stage => machine.stageMap.lookup stage.stageId)
          = ticketIds.map some)
    : ticketIds.Nodup := by
  have open_unique : ((openStages stages).map StageRunState.stageId).Nodup :=
    unique.sublist (List.Sublist.map _ List.filter_sublist)
  have distinct : ((openStages stages).map
      (fun stage => machine.stageMap.lookup stage.stageId)).Nodup := by
    refine List.Nodup.map_on ?_ (List.Nodup.of_map _ open_unique)
    intro left hl right hr same
    obtain ⟨leftDef, leftKnown, leftId⟩ := known left (List.mem_of_mem_filter hl)
    obtain ⟨rightDef, rightKnown, rightId⟩ := known right (List.mem_of_mem_filter hr)
    have sameId := mapped.distinct leftDef leftKnown rightDef rightKnown
      (by rw [leftId, rightId]; exact same)
    rw [leftId, rightId] at sameId
    exact List.inj_on_of_nodup_map open_unique hl hr sameId
  rw [tickets] at distinct
  exact List.Nodup.of_map _ distinct

/-- The machine decides one batch after another from its initial state. -/
def DagRun [PyRepr] (machine : StaticDagMachine) (inputs : JsonObject)
    : List (List WorkflowSignalRecord) → StaticDagState → Prop :=
  Run (fun state => state = machine.initializeState inputs)
    (fun state signals next =>
      ∃ decision, machine.advance state signals = .ok decision ∧ decision.state = next)

theorem initializeState_found {machine : StaticDagMachine} {stageDef : StageDef}
    (wellFormed : WellFormed machine.definition.stages) (inputs : JsonObject)
    (member : stageDef ∈ machine.definition.stages)
    : ByStage.ofStages (machine.initializeState inputs).stages stageDef.id = some {
        stageId := stageDef.id
        status := if stageDef.dependsOn = [] then .ready else .blocked
      } := by
  have unique : ((machine.initializeState inputs).stages.map StageRunState.stageId).Nodup := by
    simpa [StaticDagMachine.initializeState, Function.comp_def] using wellFormed.unique
  have listed : {
      stageId := stageDef.id
      status := if stageDef.dependsOn = [] then .ready else .blocked
    } ∈ (machine.initializeState inputs).stages :=
    List.mem_map.mpr ⟨stageDef, member, rfl⟩
  exact ofStages_of_mem unique listed

theorem initializeState_steady {machine : StaticDagMachine}
    (wellFormed : WellFormed machine.definition.stages) (inputs : JsonObject)
    : Steady machine (machine.initializeState inputs) := by
  refine ⟨⟨?_, ?_, ?_⟩, ?_⟩
  · intro stageDef member
    simp [initializeState_found wellFormed inputs member]
  · intro stageDef member ready dependency listed
    rw [statusOf_some (initializeState_found wellFormed inputs member)] at ready
    by_cases none_left : stageDef.dependsOn = []
    · simp [none_left] at listed
    · simp [none_left] at ready
  · intro stageDef member blocked none_left
    rw [statusOf_some (initializeState_found wellFormed inputs member)] at blocked
    simp [none_left] at blocked
  · simp [Listed, StaticDagMachine.initializeState, Function.comp_def]

theorem DagRun.steady [PyRepr] {machine : StaticDagMachine} {inputs : JsonObject}
    (wellFormed : WellFormed machine.definition.stages)
    {batches : List (List WorkflowSignalRecord)} {state : StaticDagState}
    (run : DagRun machine inputs batches state)
    : Steady machine state := by
  apply Run.invariant ?_ ?_ run
  · intro start initial
    subst initial
    exact initializeState_steady wellFormed inputs
  · intro before signals after holds step
    obtain ⟨decision, result, same⟩ := step
    subst same
    obtain ⟨settled, advanced⟩ := Advanced.of_advance wellFormed holds result
    exact advanced.steady wellFormed

/-- What a decided plan promises about the state it stores. -/
structure WellDecided (machine : StaticDagMachine) (state : StaticDagState)
    (signals : List WorkflowSignalRecord) (next : StaticDagState)
    (plan : WorkflowTransitionPlan)
    : Prop where
  listed : Listed machine next
  ready
    : ∀ stageDef ∈ machine.definition.stages,
        next.statusOf stageDef.id = some .ready
          → ∀ dependency ∈ stageDef.dependsOn, next.statusOf dependency = some .succeeded
  blocked
    : ∀ stageDef ∈ machine.definition.stages,
        next.statusOf stageDef.id = some .blocked
          → ¬ (∀ dependency ∈ stageDef.dependsOn, next.statusOf dependency = some .succeeded)
            ∧ ∀ dependency ∈ stageDef.dependsOn,
                next.statusOf dependency ≠ some .failed
                  ∧ next.statusOf dependency ≠ some .cancelled
  kept : ∀ stage ∈ state.stages, stage.status.terminal = true → stage ∈ next.stages
  completed
    : plan.state.status = .completed ↔ ∀ stage ∈ next.stages, stage.status = .succeeded
  failed : plan.state.status = .failed ↔ ∃ stage ∈ next.stages, stage.status = .failed
  cancelled
    : plan.state.status = .cancelled
        ↔ (∀ stage ∈ next.stages, stage.status.terminal = true)
          ∧ (∀ stage ∈ next.stages, stage.status ≠ .failed)
          ∧ ∃ stage ∈ next.stages, stage.status = .cancelled
  otherwise
    : plan.state.status ≠ .completed → plan.state.status ≠ .failed
        → plan.state.status ≠ .cancelled → plan.state.status = .waiting
  consumed : plan.consumeSignalIds = signals.map WorkflowSignalRecord.signalId
  waits
    : plan.state.status = .waiting
        → plan.replaceWaits ≠ []
          ∧ ∃ ticketIds : List String,
              plan.replaceWaits = ticketIds.map ticketWait
                ∧ ticketIds.Nodup
                ∧ (openStages next.stages).map
                    (fun stage => machine.stageMap.lookup stage.stageId)
                  = ticketIds.map some
  noWaits : plan.state.status ≠ .waiting → plan.replaceWaits = []
  accepted
    : ∀ db waiting terminal,
        Returns (checkWaits plan.state.status plan.replaceWaits waiting terminal) db () db

theorem openStages_of_waiting (nonempty : stages ≠ [])
    (waiting : StaticDagMachine.runStatus (stages.map StageRunState.status) = .waiting)
    : openStages stages ≠ [] := by
  intro none_open
  have finished : ∀ status ∈ stages.map StageRunState.status, status.terminal = true := by
    intro status member
    obtain ⟨stage, listed, same⟩ := List.mem_map.mp member
    have closed := List.filter_eq_nil_iff.mp none_open stage listed
    simpa [same] using closed
  have nonemptyStatuses : stages.map StageRunState.status ≠ [] := by simpa using nonempty
  simp only [StaticDagMachine.runStatus] at waiting
  split at waiting
  · simp at waiting
  · split at waiting
    · simp at waiting
    · split at waiting
      · simp at waiting
      · next unfinished => exact unfinished ⟨nonemptyStatuses, finished⟩

section WellDecided

variable [PyRepr] {machine : StaticDagMachine} {state : StaticDagState}
  {signals : List WorkflowSignalRecord} {settled : ByStage}
  {decision : StaticDagMachine.Decision}

/-- The waits of a plan: one for the ticket of each open stage, none when it is terminal. -/
theorem decide_returns (wellFormed : WellFormed machine.definition.stages)
    (mapped : TicketsMapped machine)
    (advanced : Advanced machine state signals settled decision)
    (result : machine.advance state signals = .ok decision) (revision : Nat)
    : ∃ ticketIds : List String,
        machine.decide state signals revision
            = .ok (machine.transitionPlan decision signals revision
                (if decision.status.terminal then [] else ticketIds.map ticketWait))
          ∧ ticketIds.Nodup
          ∧ (openStages decision.state.stages).map
              (fun stage => machine.stageMap.lookup stage.stageId)
            = ticketIds.map some := by
  have known : ∀ stage ∈ decision.state.stages,
      ∃ stageDef ∈ machine.definition.stages, stageDef.id = stage.stageId := by
    intro stage member
    have listedId : stage.stageId ∈ machine.definition.stages.map StageDef.id := by
      rw [← advanced.ids]
      exact List.mem_map_of_mem member
    simpa using listedId
  have tickets : ∀ stage ∈ decision.state.stages,
      ∃ ticketId, machine.stageMap.lookup stage.stageId = some ticketId := by
    intro stage member
    obtain ⟨stageDef, listed, same⟩ := known stage member
    exact same ▸ mapped.mapped stageDef listed
  obtain ⟨ticketIds, waits, owned⟩ := stageWaits_returns tickets
  have unique : (decision.state.stages.map StageRunState.stageId).Nodup := by
    rw [advanced.ids]
    exact wellFormed.unique
  refine ⟨ticketIds, ?_, ticketIds_nodup mapped unique known owned, owned⟩
  cases finished : decision.status.terminal <;>
    simp [StaticDagMachine.decide, result, finished, waits, bind, Except.bind]

/-- A stage of the definition reads the same from the settled loop and the stored state. -/
theorem wellDecided_of_advanced (wellFormed : WellFormed machine.definition.stages)
    (mapped : TicketsMapped machine) (steady : Steady machine state)
    (advanced : Advanced machine state signals settled decision)
    (result : machine.advance state signals = .ok decision) (revision : Nat)
    : ∃ plan,
        machine.decide state signals revision = .ok plan
          ∧ plan.state.state.value = StaticDagMachine.dumpState decision.state
          ∧ WellDecided machine state signals decision.state plan := by
  obtain ⟨ticketIds, decided, distinct, owned⟩ :=
    decide_returns wellFormed mapped advanced result revision
  refine ⟨_, decided, rfl, ?_⟩
  have stored := fun {stageDef} (member : stageDef ∈ machine.definition.stages) =>
    advanced.statusOf_stored wellFormed member
  have upstream : ∀ stageDef ∈ machine.definition.stages, ∀ dependency ∈ stageDef.dependsOn,
      decision.state.statusOf dependency = statusOf settled dependency := by
    intro stageDef member dependency listed
    obtain ⟨upstream, known, same⟩ := wellFormed.closed stageDef member dependency listed
    exact same ▸ stored known
  have nonempty : decision.state.stages ≠ [] := by
    intro none_left
    have ids := advanced.ids
    simp only [Listed, none_left, List.map_nil] at ids
    exact wellFormed.nonempty (List.map_eq_nil_iff.mp ids.symm)
  have nonemptyStatuses : decision.state.stages.map StageRunState.status ≠ [] := by
    simpa using nonempty
  have cases_ := runStatus_cases (decision.state.stages.map StageRunState.status)
  rw [← advanced.status] at cases_
  have waits : decision.status = .waiting → ticketIds ≠ [] := by
    intro waiting none_left
    have openNonempty := openStages_of_waiting nonempty (advanced.status ▸ waiting)
    rw [none_left, List.map_nil, List.map_eq_nil_iff] at owned
    exact openNonempty owned
  exact {
    listed := advanced.ids
    ready := by
      intro stageDef member ready dependency listed
      rw [stored member] at ready
      rw [upstream stageDef member dependency listed]
      exact advanced.sound.ready stageDef member ready dependency listed
    blocked := by
      intro stageDef member blocked
      rw [stored member] at blocked
      obtain ⟨notReleased, notObstructed⟩ := advanced.quiet stageDef member blocked
      have needed := advanced.sound.blocked stageDef member blocked
      refine ⟨?_, ?_⟩
      · intro all
        refine notReleased ⟨needed, fun dependency listed => ?_⟩
        rw [← upstream stageDef member dependency listed]
        exact all dependency listed
      · intro dependency listed
        rw [upstream stageDef member dependency listed]
        exact ⟨
          fun failed => notObstructed ⟨dependency, listed, .inl failed⟩,
          fun cancelled => notObstructed ⟨dependency, listed, .inr cancelled⟩
        ⟩
    kept := fun _ member finished => advanced.kept steady.listed wellFormed member finished
    completed := by
      have iff := runStatus_completed nonemptyStatuses
      rw [← advanced.status] at iff
      simpa [StaticDagMachine.transitionPlan] using iff
    failed := by
      have iff := runStatus_failed (decision.state.stages.map StageRunState.status)
      rw [← advanced.status] at iff
      simpa [StaticDagMachine.transitionPlan] using iff
    cancelled := by
      have iff := runStatus_cancelled nonemptyStatuses
      rw [← advanced.status] at iff
      simpa [StaticDagMachine.transitionPlan] using iff
    otherwise := by
      intro notCompleted notFailed notCancelled
      rcases cases_ with finished | waiting
      · simp only [StaticDagMachine.transitionPlan] at notCompleted notFailed notCancelled
        cases status : decision.status <;> simp_all [WorkflowStatus.terminal]
      · exact waiting
    consumed := rfl
    waits := by
      intro waiting
      have isWaiting : decision.status = .waiting := waiting
      have plans : (machine.transitionPlan decision signals revision
          (if decision.status.terminal then [] else ticketIds.map ticketWait)).replaceWaits
          = ticketIds.map ticketWait := by
        simp [StaticDagMachine.transitionPlan, isWaiting, WorkflowStatus.terminal]
      refine ⟨?_, ticketIds, plans, distinct, owned⟩
      rw [plans]
      simpa using waits isWaiting
    noWaits := by
      intro notWaiting
      rcases cases_ with finished | waiting
      · simp [StaticDagMachine.transitionPlan, finished]
      · exact absurd waiting notWaiting
    accepted := by
      intro db waiting terminal
      refine checkWaits_returns.mpr ⟨?_, ?_, rfl⟩
      · intro guard
        have status : decision.status = .waiting := guard.1
        have noWaits := guard.2
        simp [StaticDagMachine.transitionPlan, status, WorkflowStatus.terminal,
          waits status] at noWaits
      · intro guard
        have status : decision.status.terminal = true := guard.1
        exact guard.2 (by simp [StaticDagMachine.transitionPlan, status])
  }

end WellDecided

/-- In every state a run of a valid definition reaches, deciding the next batch ends its
propagation loop and yields a plan that is right about the stages it stores.
-/
theorem staticDagInvariant [PyRepr] (machine : StaticDagMachine) (inputs : JsonObject)
    (valid : validateWorkflow machine.definition = []) (mapped : TicketsMapped machine)
    (batches : List (List WorkflowSignalRecord)) (state : StaticDagState)
    (run : DagRun machine inputs batches state)
    (signals : List WorkflowSignalRecord) (revision : Nat)
    : ∃ settled decision plan,
        Ends (StaticDagMachine.pass machine.definition.stages)
            (signals.foldl machine.applySignal (ByStage.ofStages state.stages)) settled
          ∧ machine.advance state signals = .ok decision
          ∧ machine.decide state signals revision = .ok plan
          ∧ plan.state.state.value = StaticDagMachine.dumpState decision.state
          ∧ WellDecided machine state signals decision.state plan := by
  have wellFormed := wellFormed_of_valid valid
  have steady := run.steady wellFormed
  obtain ⟨settled, decision, result, advanced⟩ := advance_returns wellFormed steady signals
  obtain ⟨plan, decided, stored, holds⟩ :=
    wellDecided_of_advanced wellFormed mapped steady advanced result revision
  exact ⟨settled, decision, plan, advanced.ends, result, decided, stored, holds⟩

namespace Chain

scoped instance : PyRepr := ⟨fun _ => ""⟩

/-- Two stages in a row, each with a ticket of its own. -/
def machine : StaticDagMachine :=
  {
    definition := {
      name := "chain"
      builtin := true
      stages := [{ id := "a" }, { id := "b", dependsOn := ["a"] }]
    }
    stageMap := [("a", "t1"), ("b", "t2")]
  }

def finished (signalId : Uuid) (ticketId status : String) : WorkflowSignalRecord :=
  {
    signalId := signalId
    workflowId := 1
    deduplicationKey := ticketId
    createdAt := 0
    payload := .external "ticket.finished" (some ticketId) (.ofList [("status", .str status)])
  }

theorem machine_valid : validateWorkflow machine.definition = [] := by
  decide +kernel

theorem machine_mapped : TicketsMapped machine where
  mapped := by
    intro stageDef member
    simp only [machine, List.mem_cons, List.not_mem_nil, or_false] at member
    rcases member with rfl | rfl
    · exact ⟨"t1", rfl⟩
    · exact ⟨"t2", rfl⟩
  distinct := by
    intro left hl right hr same
    simp only [machine, List.mem_cons, List.not_mem_nil, or_false] at hl hr
    rcases hl with rfl | rfl <;> rcases hr with rfl | rfl
    all_goals first | rfl | exact absurd same (by decide)

def afterFirst : StaticDagState :=
  { stages := [⟨"a", .succeeded, none, none, 0, none, none⟩, { stageId := "b", status := .ready }] }

theorem afterFirst_reached : DagRun machine .nil [[finished 2 "t1" "done"]] afterFirst := by
  refine ⟨machine.initializeState .nil, rfl, .cons ⟨⟨afterFirst, .waiting⟩, ?_, rfl⟩ (.nil _)⟩
  decide +kernel

end Chain

open Chain in
theorem staticDagInvariant_of_chain
    : ∃ settled decision plan,
        Ends (StaticDagMachine.pass machine.definition.stages)
            ([finished 3 "t2" "done"].foldl machine.applySignal
              (ByStage.ofStages afterFirst.stages)) settled
          ∧ machine.advance afterFirst [finished 3 "t2" "done"] = .ok decision
          ∧ machine.decide afterFirst [finished 3 "t2" "done"] 1 = .ok plan
          ∧ plan.state.state.value = StaticDagMachine.dumpState decision.state
          ∧ WellDecided machine afterFirst [finished 3 "t2" "done"] decision.state plan :=
  staticDagInvariant machine .nil machine_valid machine_mapped [[finished 2 "t1" "done"]]
    afterFirst afterFirst_reached [finished 3 "t2" "done"] 1

end Murder.Workflows

import Murder.Library.Loops
import Murder.Workflows.Definition
import Murder.Workflows.Runtime

/-! The static ticket DAG: a pure machine that interprets ticket completion signals.
Its only inputs are the definition, the current state and one finite signal batch.
-/

namespace Murder.Workflows

open Murder.Contracts Library.Loops

inductive StageStatus
  | blocked
  | ready
  | requested
  | running
  | waitingApproval
  | succeeded
  | failed
  | cancelled
deriving DecidableEq

namespace StageStatus

def value : StageStatus → String
  | blocked => "blocked"
  | ready => "ready"
  | requested => "requested"
  | running => "running"
  | waitingApproval => "waiting_approval"
  | succeeded => "succeeded"
  | failed => "failed"
  | cancelled => "cancelled"

/-- Membership in `_TERMINAL_STAGE_STATUSES`. -/
def terminal : StageStatus → Bool
  | succeeded | failed | cancelled => true
  | _ => false

end StageStatus

/-- Per-node run state within a workflow execution. -/
structure StageRunState where
  stageId : String
  status : StageStatus
  activityId : Option Uuid := none
  sessionId : Option Uuid := none
  attempts : Nat := 0
  resultRef : Option Uuid := none
  error : Option String := none
deriving DecidableEq

structure StaticDagState where
  inputs : JsonObject := .nil
  stages : List StageRunState
  output : Option JsonObject := none
deriving DecidableEq

/-- The machine of one definition; `stageMap` names the ticket of each stage. -/
structure StaticDagMachine where
  definition : WorkflowDef
  stageMap : List (String × String)

abbrev ByStage := String → Option StageRunState

namespace ByStage

def ofStages (stages : List StageRunState) : ByStage := fun stageId =>
  stages.reverse.find? (fun stage => stage.stageId == stageId)

def set (byStage : ByStage) (stageId : String) (stage : StageRunState) : ByStage :=
  fun other => if other = stageId then some stage else byStage other

/-- `by_stage[stage_id]` -/
def require (byStage : ByStage) (stageId : String) : Except Failure StageRunState :=
  match byStage stageId with
  | some stage => .ok stage
  | none => .error (.keyError stageId)

end ByStage

namespace StaticDagMachine

def initializeState (machine : StaticDagMachine) (inputs : JsonObject) : StaticDagState :=
  {
    inputs := inputs
    stages := machine.definition.stages.map (fun stage => {
      stageId := stage.id
      status := if stage.dependsOn = [] then .ready else .blocked
    })
  }

def ticketToStage (machine : StaticDagMachine) (ticketId : String) : Option String :=
  (machine.stageMap.reverse.find? (fun entry => entry.2 == ticketId)).map Prod.fst

def addressed (machine : StaticDagMachine) : WorkflowSignalPayload → Option (String × JsonObject)
  | .external name (some ticketId) payload =>
    if name = "ticket.finished" then
      (machine.ticketToStage ticketId).map (fun stageId => (stageId, payload))
    else
      none
  | _ => none

section Texts

variable [PyRepr]

/-- `_optional_text` -/
def optionalText : Option JsonValue → Option String
  | none | some .null => none
  | some value => some value.pyStr

/-- The status a ticket outcome puts a stage in, with the error it leaves. -/
def finishedAs (payload : JsonObject) : StageStatus × Option String :=
  let ticketStatus := ((payload.get? "status").getD (.str "done")).pyStr
  if ticketStatus ∈ ["done", "archived", "succeeded"] then
    (.succeeded, none)
  else if ticketStatus ∈ ["cancelled", "canceled"] then
    (.cancelled, optionalText (payload.get? "reason"))
  else
    (.failed, optionalText (some ((payload.get? "error").getD
      (.str ("ticket finished as " ++ ticketStatus)))))

def applySignal (machine : StaticDagMachine) (byStage : ByStage)
    (signal : WorkflowSignalRecord) : ByStage :=
  match machine.addressed signal.payload with
  | none => byStage
  | some (stageId, payload) =>
    match byStage stageId with
    | none => byStage
    | some existing =>
      if existing.status.terminal then
        byStage
      else
        let finished := finishedAs payload
        byStage.set stageId { existing with status := finished.1, error := finished.2 }

end Texts

def dependencyStatuses (byStage : ByStage) : List String → Except Failure (List StageStatus)
  | [] => .ok []
  | dependency :: rest => do
      let stage ← byStage.require dependency
      let statuses ← dependencyStatuses byStage rest
      .ok (stage.status :: statuses)

/-- One stage of a pass: a blocked stage becomes ready or is cancelled by its dependencies. -/
def settle (byStage : ByStage) (stageDef : StageDef) : Except Failure (ByStage × Bool) := do
  let stage ← byStage.require stageDef.id
  if stage.status ≠ .blocked then
    .ok (byStage, false)
  else
    let statuses ← dependencyStatuses byStage stageDef.dependsOn
    if statuses ≠ [] ∧ ∀ status ∈ statuses, status = .succeeded then
      .ok (byStage.set stageDef.id { stage with status := .ready }, true)
    else if .failed ∈ statuses ∨ .cancelled ∈ statuses then
      .ok (byStage.set stageDef.id {
        stage with
          status := .cancelled
          error := some "an upstream stage did not succeed"
      }, true)
    else
      .ok (byStage, false)

def pass (stages : List StageDef) (byStage : ByStage) : Except Failure (ByStage × Bool) :=
  sweep settle byStage stages

def isBlocked (byStage : ByStage) (stageDef : StageDef) : Bool :=
  (byStage stageDef.id).map StageRunState.status == some .blocked

/-- Pass until nothing changes: every pass that changes a stage leaves fewer blocked. -/
def propagate (stages : List StageDef) (byStage : ByStage) : Except Failure ByStage :=
  whileChanged (pass stages) (stages.countP (isBlocked byStage) + 1) byStage

def orderedStages (byStage : ByStage) : List StageDef → Except Failure (List StageRunState)
  | [] => .ok []
  | stageDef :: rest => do
      let stage ← byStage.require stageDef.id
      let ordered ← orderedStages byStage rest
      .ok (stage :: ordered)

def runStatus (statuses : List StageStatus) : WorkflowStatus :=
  if statuses ≠ [] ∧ ∀ status ∈ statuses, status = .succeeded then .completed
  else if .failed ∈ statuses then .failed
  else if statuses ≠ [] ∧ ∀ status ∈ statuses, status.terminal = true then .cancelled
  else .waiting

def terminalReason : WorkflowStatus → Option String
  | .failed => some "one or more static DAG stages failed"
  | .cancelled => some "static DAG could not complete"
  | _ => none

def stageWaits (machine : StaticDagMachine) : List StageRunState → Except Failure (List WaitSpec)
  | [] => .ok []
  | stage :: rest =>
    if stage.status.terminal then
      stageWaits machine rest
    else
      match machine.stageMap.lookup stage.stageId with
      | none => .error (.keyError stage.stageId)
      | some ticketId => do
          let waits ← stageWaits machine rest
          .ok (.externalSignal "ticket.finished" (some ticketId) :: waits)

def dumpStage (stage : StageRunState) : JsonValue :=
  let optionalUuid : Option Uuid → JsonValue
    | some id => .str id.str
    | none => .null
  .obj (.ofList [
    ("activity_id", optionalUuid stage.activityId),
    ("attempts", .int stage.attempts),
    ("error", match stage.error with | some text => .str text | none => .null),
    ("result_ref", optionalUuid stage.resultRef),
    ("session_id", optionalUuid stage.sessionId),
    ("stage_id", .str stage.stageId),
    ("status", .str stage.status.value)])

def jsonItems : List JsonValue → JsonItems
  | [] => .nil
  | value :: rest => .cons value (jsonItems rest)

def dumpState (state : StaticDagState) : JsonObject :=
  .ofList [
    ("inputs", .obj state.inputs),
    ("output", match state.output with | some output => .obj output | none => .null),
    ("stages", .arr (jsonItems (state.stages.map dumpStage)))]

/-- The replacement state of a decision and the status of the run in it. -/
structure Decision where
  state : StaticDagState
  status : WorkflowStatus
deriving DecidableEq

variable [PyRepr]

/-- Apply a batch of signals in order and propagate what it made ready or cancelled. -/
def advance (machine : StaticDagMachine) (state : StaticDagState)
    (signals : List WorkflowSignalRecord) : Except Failure Decision := do
  let applied := signals.foldl machine.applySignal (ByStage.ofStages state.stages)
  let settled ← propagate machine.definition.stages applied
  let ordered ← orderedStages settled machine.definition.stages
  .ok {
    state := { state with stages := ordered }
    status := runStatus (ordered.map StageRunState.status)
  }

def transitionPlan (machine : StaticDagMachine) (decision : Decision)
    (signals : List WorkflowSignalRecord) (currentRevision : Nat) (waits : List WaitSpec)
    : WorkflowTransitionPlan :=
  {
    state := {
      expectedRevision := currentRevision
      status := decision.status
      state := {
        schemaName := "static_dag"
        schemaVersion := 1
        value := dumpState decision.state
      }
      terminalReason := terminalReason decision.status
    }
    consumeSignalIds := signals.map WorkflowSignalRecord.signalId
    replaceWaits := waits
    facts :=
      if decision.status.terminal then
        [{
          kind := "workflow." ++ decision.status.value
          payload := .ofList [("definition_name", .str machine.definition.name)]
        }]
      else
        []
  }

def decide (machine : StaticDagMachine) (state : StaticDagState)
    (signals : List WorkflowSignalRecord) (currentRevision : Nat)
    : Except Failure WorkflowTransitionPlan := do
  let decision ← machine.advance state signals
  let waits ←
    if decision.status.terminal then .ok [] else machine.stageWaits decision.state.stages
  .ok (machine.transitionPlan decision signals currentRevision waits)

end StaticDagMachine

end Murder.Workflows

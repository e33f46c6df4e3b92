import Murder.Harness.Observations
import Murder.Library.Runs

/-! The ingestion of terminal frames: what is parsed of a frame joins the history of evidence, is
projected onto the snapshot, and is published with the frame.
-/

namespace Murder.Harness

open Contracts Library.Runs

structure TerminalFrame where
  frameId : String
  harnessId : String
  capturedAt : Timestamp
  rawText : String
  paneEpoch : Nat
  captureSequence : Nat
deriving DecidableEq

structure ScreenRegionRef where
  label : String
  startLine : Option Int := none
  endLine : Option Int := none
  startColumn : Option Int := none
  endColumn : Option Int := none
deriving DecidableEq

structure EvidenceDiagnostics where
  parserName : String
  messages : List String := []
  unrecognizedRegions : List ScreenRegionRef := []
  contradictoryFields : List String := []
deriving DecidableEq

structure EvidenceEnvelope (Payload : Type) where
  evidenceId : String
  frameId : String
  harnessId : String
  parserVersion : String
  capturedAt : Timestamp
  evidenceType : String
  payload : Payload
  sourceRegions : List ScreenRegionRef := []
  diagnostics : EvidenceDiagnostics := { parserName := "unknown" }
deriving DecidableEq

/-- `EvidenceHistory` -/
abbrev EvidenceHistory (Payload : Type) := List (EvidenceEnvelope Payload)

/-- Only what has a new identifier joins the history; the envelopes are not compared among
themselves.
-/
def EvidenceHistory.append {Payload : Type} (history : EvidenceHistory Payload)
    (envelopes : List (EvidenceEnvelope Payload))
    : EvidenceHistory Payload :=
  history ++ envelopes.filter (fun envelope =>
    !(history.map (·.evidenceId)).contains envelope.evidenceId)

/-- The observations of a snapshot that a projection may update. -/
inductive ObservationField
  | surface
  | composer
  | generation
  | transcriptTail
  | modal
  | question
  | permissionRequest
  | activeModel
  | modelConfiguration
  | settings
  | info
  | usage
  | toolActivity
deriving DecidableEq

def ObservationField.all : List ObservationField :=
  [.surface, .composer, .generation, .transcriptTail, .modal, .question, .permissionRequest,
    .activeModel, .modelConfiguration, .settings, .info, .usage, .toolActivity]

/-- An observation with its provenance. -/
structure DatedObservation (Value : Type) where
  observed : Observed Value
  observedAt : Timestamp
  revision : ObservationRevision

/-- The snapshot a store exposes. -/
structure ExposedSnapshot (Value : Type) where
  revision : ObservationRevision
  capturedAt : Timestamp
  observations : ObservationField → DatedObservation Value

/-- The updates of an `ObservationDelta`. -/
abbrev ObservationUpdates (Value : Type) := ObservationField → Option (DatedObservation Value)

structure ObservationStore (Value : Type) where
  snapshot : ExposedSnapshot Value
  history : List (ExposedSnapshot Value)

namespace ObservationStore

variable {Value : Type} [DecidableEq Value]

def ofInitial (initial : ExposedSnapshot Value) : ObservationStore Value :=
  ⟨initial, [initial]⟩

def changed (store : ObservationStore Value) (updates : ObservationUpdates Value) : Bool :=
  ObservationField.all.any (fun name =>
    (updates name).any (fun update =>
      update.observed ≠ (store.snapshot.observations name).observed))

def appliedRevision (store : ObservationStore Value) (updates : ObservationUpdates Value)
    (paneEpoch captureSequence : Nat)
    : ObservationRevision :=
  ⟨paneEpoch, captureSequence,
    store.snapshot.revision.semanticSequence + if store.changed updates then 1 else 0⟩

def apply (store : ObservationStore Value) (updates : ObservationUpdates Value)
    (capturedAt : Timestamp) (paneEpoch captureSequence : Nat)
    : ObservationStore Value :=
  let revision := store.appliedRevision updates paneEpoch captureSequence
  let snapshot : ExposedSnapshot Value := {
    revision
    capturedAt
    observations := fun name =>
      match updates name with
      | some update => { update with revision, observedAt := capturedAt }
      | none => store.snapshot.observations name }
  ⟨snapshot, store.history ++ [snapshot]⟩

end ObservationStore

structure HarnessController (Payload Value : Type) where
  observations : ObservationStore Value
  evidence : EvidenceHistory Payload
  latestFrame : Option TerminalFrame := none
  latestFrameEvidence : List (EvidenceEnvelope Payload) := []

structure FrameBundle (Payload Value : Type) where
  frame : TerminalFrame
  snapshot : ExposedSnapshot Value
  evidence : List (EvidenceEnvelope Payload)

/-- A frame is not behind a revision when it is of a later epoch, or of a later capture of the same
one.
-/
def TerminalFrame.newer (frame : TerminalFrame) (revision : ObservationRevision) : Bool :=
  revision.paneEpoch < frame.paneEpoch
    || (revision.paneEpoch == frame.paneEpoch
      && revision.captureSequence < frame.captureSequence)

namespace HarnessController

variable {Payload Value : Type} [DecidableEq Value]

/-- `HarnessController.__init__` -/
def create (initial : ExposedSnapshot Value)
    (initialEvidence : List (EvidenceEnvelope Payload))
    : HarnessController Payload Value where
  observations := .ofInitial initial
  evidence := EvidenceHistory.append [] initialEvidence

def latestFrameBundle (controller : HarnessController Payload Value)
    : Option (FrameBundle Payload Value) :=
  controller.latestFrame.map (fun frame =>
    ⟨frame, controller.observations.snapshot, controller.latestFrameEvidence⟩)

def appendEvidence (controller : HarnessController Payload Value)
    (evidence : List (EvidenceEnvelope Payload))
    : HarnessController Payload Value :=
  { controller with evidence := controller.evidence.append evidence }

def applyUpdates (controller : HarnessController Payload Value) (frame : TerminalFrame)
    (updates : ObservationUpdates Value)
    : HarnessController Payload Value :=
  { controller with
    observations :=
      controller.observations.apply updates frame.capturedAt frame.paneEpoch
        frame.captureSequence }

def publish (controller : HarnessController Payload Value) (frame : TerminalFrame)
    (evidence : List (EvidenceEnvelope Payload))
    : HarnessController Payload Value :=
  { controller with latestFrame := some frame, latestFrameEvidence := evidence }

end HarnessController

/-- The journal write the holder of the ingest lock waits for. -/
inductive JournalWrite (Payload : Type)
  | recordFrame (frame : TerminalFrame)
  | recordEvidence (frame : TerminalFrame) (evidence : List (EvidenceEnvelope Payload))
  | recordSnapshot (frame : TerminalFrame) (evidence : List (EvidenceEnvelope Payload))
  | recordDelta (frame : TerminalFrame) (evidence : List (EvidenceEnvelope Payload))

/-- The call of `ingest_frame` that holds the lock, and the controller it found. -/
structure IngestCall (Payload Value : Type) where
  before : HarnessController Payload Value
  awaits : JournalWrite Payload

/-- What became visible of the ingestion: a bundle that was read, with the frame and the evidence
that the snapshot was projected from at the time, and the end of a call.
-/
inductive IngestAnswer (Payload Value : Type)
  | read (source : Option (TerminalFrame × List (EvidenceEnvelope Payload)))
    (bundle : Option (FrameBundle Payload Value))
  | returned (snapshot : ExposedSnapshot Value)
  | raised (before after : HarnessController Payload Value)

structure Ingesting (Payload Value : Type) where
  controller : HarnessController Payload Value
  call : Option (IngestCall Payload Value) := none
  source : Option (TerminalFrame × List (EvidenceEnvelope Payload)) := none
  answers : List (IngestAnswer Payload Value) := []

/-- What the adapter makes of a frame when it is asked, unless it raises. -/
structure AdapterAnswer (Payload Value : Type) where
  parsed : Option (List (EvidenceEnvelope Payload)) := none
  projected : Option (ObservationUpdates Value) := none

inductive IngestEvent (Payload Value : Type)
  | begin (frame : TerminalFrame)
  | writeRaises
  | writeReturns (answer : AdapterAnswer Payload Value)
  | readBundle

namespace Ingesting

variable {Payload Value : Type} [DecidableEq Value]

/-- The call raises, with whatever it did to the controller so far. -/
def fail (state : Ingesting Payload Value) (before : HarnessController Payload Value)
    : Ingesting Payload Value :=
  { state with
    call := none
    answers := state.answers ++ [.raised before state.controller] }

def finish (state : Ingesting Payload Value) : Ingesting Payload Value :=
  { state with
    call := none
    answers := state.answers ++ [.returned state.controller.observations.snapshot] }

def await (state : Ingesting Payload Value) (before : HarnessController Payload Value)
    (awaits : JournalWrite Payload)
    : Ingesting Payload Value :=
  { state with call := some ⟨before, awaits⟩ }

/-- What follows `record_evidence` for a frame that is not stale. -/
def project (state : Ingesting Payload Value) (before : HarnessController Payload Value)
    (frame : TerminalFrame) (evidence : List (EvidenceEnvelope Payload))
    (projected : Option (ObservationUpdates Value))
    : Ingesting Payload Value :=
  let parsed := { state with controller := state.controller.appendEvidence evidence }
  match projected with
  | none => parsed.fail before
  | some updates =>
    { parsed with
      controller := parsed.controller.applyUpdates frame updates
      source := some (frame, evidence)
      call := some ⟨before, .recordSnapshot frame evidence⟩ }

/-- From one journal write to the next. -/
def resume (state : Ingesting Payload Value) (call : IngestCall Payload Value)
    (answer : AdapterAnswer Payload Value)
    : Ingesting Payload Value :=
  match call.awaits with
  | .recordFrame frame =>
    match answer.parsed with
    | none => state.fail call.before
    | some evidence => state.await call.before (.recordEvidence frame evidence)
  | .recordEvidence frame evidence =>
    if frame.newer state.controller.observations.snapshot.revision then
      state.project call.before frame evidence answer.projected
    else
      state.finish
  | .recordSnapshot frame evidence => state.await call.before (.recordDelta frame evidence)
  | .recordDelta frame evidence =>
    { state with controller := state.controller.publish frame evidence }.finish

def read (state : Ingesting Payload Value) : Ingesting Payload Value :=
  { state with
    answers := state.answers ++ [.read state.source state.controller.latestFrameBundle] }

end Ingesting

section Steps

variable {Payload Value : Type} [DecidableEq Value]

/-- A controller that took no frame yet. -/
def IngestFresh (state : Ingesting Payload Value) : Prop :=
  ∃ initial evidence, state = { controller := .create initial evidence }

/-- One call at a time holds the lock; bundles are read at any time. -/
inductive IngestStep
    : Ingesting Payload Value → IngestEvent Payload Value → Ingesting Payload Value → Prop
  | begin {state frame} (idle : state.call = none)
    : IngestStep state (.begin frame) (state.await state.controller (.recordFrame frame))
  | raises {state call} (holds : state.call = some call)
    : IngestStep state .writeRaises (state.fail call.before)
  | returns {state call answer} (holds : state.call = some call)
    : IngestStep state (.writeReturns answer) (state.resume call answer)
  | reads {state} : IngestStep state .readBundle state.read

end Steps

end Murder.Harness

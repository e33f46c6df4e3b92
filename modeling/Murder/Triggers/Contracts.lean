import Murder.Storage.Database

/-! Typed trigger specifications, and the tables of their firings.
Observers produce occurrences, never work.
-/

namespace Murder.Triggers

open Murder.Contracts Murder.Facts Murder.Storage Library.Tables Library.Transactions

inductive TriggerSpec
  | cron (expression timezone : String)
  | fact (factKind : String) (predicate : JsonObject)
  | repository (repositoryId : Uuid) (paths changeKinds : List String) (debounceSeconds : Nat)
  | manual (command : String)
deriving DecidableEq

inductive TriggerTarget
  | startWorkflow (definitionName : String) (definitionVersion : Nat) (inputs : JsonObject)
  | signalWorkflow (workflowId : Uuid) (signalName : String) (correlationKey : Option String)
    (payload : JsonObject)
deriving DecidableEq

def TriggerTarget.starts : TriggerTarget → Bool
  | .startWorkflow .. => true
  | .signalWorkflow .. => false

def TriggerTarget.addressee : TriggerTarget → Option Uuid
  | .startWorkflow .. => none
  | .signalWorkflow workflowId .. => some workflowId

structure TriggerRecord where
  triggerId : Uuid
  name : String
  version : Nat
  spec : TriggerSpec
  target : TriggerTarget
  dedupWindowSeconds : Nat := 0
  enabled : Bool := true
  createdAt : Timestamp
  lastFiredAt : Option Timestamp := none
deriving DecidableEq

structure TriggerFiringRecord where
  firingId : Uuid
  triggerId : Uuid
  occurrenceKey : String
  firedAt : Timestamp
  workflowId : Uuid
deriving DecidableEq

/-- A row of `trigger_cursors`. -/
structure CursorRow where
  triggerId : Uuid
  cursor : String
  updatedAt : Timestamp
deriving DecidableEq

/-- A row of `trigger_manual_pending`. -/
structure PendingRow where
  triggerId : Uuid
  occurrenceKey : String
  enqueuedAt : Timestamp
deriving DecidableEq

/-- Primary key `trigger_id`. -/
def triggerClash (left right : TriggerRecord) : Bool := left.triggerId == right.triggerId

/-- Primary key `firing_id`; unique `(trigger_id, occurrence_key)`. -/
def firingClash (left right : TriggerFiringRecord) : Bool :=
  left.firingId == right.firingId
    || (left.triggerId == right.triggerId && left.occurrenceKey == right.occurrenceKey)

/-- Primary key `trigger_id`. -/
def cursorClash (left right : CursorRow) : Bool := left.triggerId == right.triggerId

/-- Primary key `(trigger_id, occurrence_key)`. -/
def pendingClash (left right : PendingRow) : Bool :=
  left.triggerId == right.triggerId && left.occurrenceKey == right.occurrenceKey

structure TriggerTables where
  triggers : Table TriggerRecord triggerClash := .empty
  firings : Table TriggerFiringRecord firingClash := .empty
  cursors : Table CursorRow cursorClash := .empty
  pending : Table PendingRow pendingClash := .empty

/-- The database with the tables of its triggers. -/
structure TriggerDatabase where
  base : Database
  tables : TriggerTables := {}

/-- A program over the database and its triggers that may raise. -/
abbrev TriggerSql (α : Type) := Program TriggerDatabase Failure α

def onBase {α : Type} (program : Sql α) : TriggerSql α := fun store =>
  match program store.base with
  | .ok value base => .ok value { store with base := base }
  | .error raised base => .error raised { store with base := base }

/-- `model_dump` of the registered public payloads. -/
class FactPayloadDump where
  modelDump : FactPayload → JsonObject

def factPayloadStorage [FactPayloadDump] : FactPayload → JsonObject
  | .private_ _ data => data
  | payload => FactPayloadDump.modelDump payload

mutual
def payloadMatches (value : JsonValue) : JsonValue → Bool
  | .obj fields =>
    match value with
    | .obj entries => fieldsMatch entries fields
    | _ => false
  | .arr items =>
    match value with
    | .arr entries => entries.pyEq items
    | _ => false
  | predicate => value.pyEq predicate

def fieldsMatch (entries : JsonFields) : JsonFields → Bool
  | .nil => true
  | .cons key expected rest =>
    (match entries.get? key with
      | some value => payloadMatches value expected
      | none => false)
    && fieldsMatch entries rest
end

end Murder.Triggers

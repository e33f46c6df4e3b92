import Mathlib.Data.List.Sort
import Murder.Contracts.Common
import Murder.Library.Tables

/-! The durable command queue: enqueuing, claiming under a lease, finishing and reaping. -/

namespace Murder.Commands

open Contracts Library.Tables

abbrev CommandId := String
abbrev WorkerName := String

inductive CommandStatus
  | pending
  | inFlight
  | done
  | failed
  | cancelled
deriving DecidableEq

structure CommandRow where
  id : CommandId
  repositoryId : String
  createdAt : Timestamp
  updatedAt : Timestamp
  targetWorker : WorkerName
  idempotencyKey : String
  status : CommandStatus
  claimedBy : Option WorkerName
  leaseExpiresAt : Option Int
  attemptCount : Nat
  retryable : Bool
  result : Option JsonObject
  lastError : Option String
deriving DecidableEq

/-- `PRIMARY KEY (id)` and `UNIQUE (repository_id, idempotency_key)`. -/
def commandClash (left right : CommandRow) : Bool :=
  left.id == right.id
    || left.repositoryId == right.repositoryId && left.idempotencyKey == right.idempotencyKey

/-- The command rows a repository's connection sees and writes. -/
structure RepoDb where
  repositoryId : String
  commands : Table CommandRow commandClash := .empty

variable (db : RepoDb) (claimedBy : WorkerName) (leaseExpiresAt : Int) (result : Option JsonObject)
  (commandId : CommandId) (maxAttempts : Int)

/-- `WHERE id = ? AND repository_id = ?` -/
def RepoDb.addressed (id : CommandId) (row : CommandRow) : Bool :=
  row.id == id && row.repositoryId == db.repositoryId

/-- The arguments of `enqueue_command`. -/
structure NewCommand where
  commandId : CommandId
  targetWorker : WorkerName
  idempotencyKey : String
  status : CommandStatus := .pending
  claimedBy : Option WorkerName := none
  leaseExpiresAt : Option Int := none
  attemptCount : Nat := 0
  retryable : Bool := true
  result : Option JsonObject := none
  lastError : Option String := none

def NewCommand.row (command : NewCommand) (repositoryId : String) (now : Timestamp)
    : CommandRow where
  id := command.commandId
  repositoryId := repositoryId
  createdAt := now
  updatedAt := now
  targetWorker := command.targetWorker
  idempotencyKey := command.idempotencyKey
  status := command.status
  claimedBy := command.claimedBy
  leaseExpiresAt := command.leaseExpiresAt
  attemptCount := command.attemptCount
  retryable := command.retryable
  result := command.result
  lastError := command.lastError

/-- Insert a command, or raise an `IntegrityError`. -/
def enqueueCommand (command : NewCommand) (now : Timestamp) : Option RepoDb :=
  (db.commands.insert? (command.row db.repositoryId now)).map
    (fun commands => { db with commands := commands })

/-- `ORDER BY created_at, id` -/
def inCreationOrder (rows : List CommandRow) : List CommandRow :=
  rows.insertionSort (fun left right =>
    left.createdAt < right.createdAt
    ∨ left.createdAt = right.createdAt ∧ left.id ≤ right.id)

def CommandRow.claim (now : Timestamp) (row : CommandRow) : CommandRow :=
  { row with
    status := .inFlight
    claimedBy := some claimedBy
    leaseExpiresAt := some leaseExpiresAt
    attemptCount := row.attemptCount + 1
    updatedAt := now }

def CommandRow.renew (now : Timestamp) (row : CommandRow) : CommandRow :=
  { row with leaseExpiresAt := some leaseExpiresAt, updatedAt := now }

def CommandRow.complete (now : Timestamp) (row : CommandRow) : CommandRow :=
  { row with status := .done, result := result, updatedAt := now }

def CommandRow.fail (lastError : String) (retryable : Bool) (now : Timestamp)
    (row : CommandRow)
    : CommandRow :=
  { row with
    status := .failed
    retryable := retryable
    lastError := some lastError
    updatedAt := now }

theorem CommandRow.claim_keeps (now : Timestamp)
    : Table.KeepsKeys commandClash (.claim claimedBy leaseExpiresAt now) :=
  ⟨fun _ _ => rfl, fun _ _ => rfl⟩

theorem CommandRow.renew_keeps (now : Timestamp)
    : Table.KeepsKeys commandClash (.renew leaseExpiresAt now) :=
  ⟨fun _ _ => rfl, fun _ _ => rfl⟩

theorem CommandRow.complete_keeps (now : Timestamp)
    : Table.KeepsKeys commandClash (.complete result now) :=
  ⟨fun _ _ => rfl, fun _ _ => rfl⟩

theorem CommandRow.fail_keeps (lastError : String) (retryable : Bool) (now : Timestamp)
    : Table.KeepsKeys commandClash (.fail lastError retryable now) :=
  ⟨fun _ _ => rfl, fun _ _ => rfl⟩

def nextPending (targetWorker : WorkerName) : Option CommandRow :=
  (inCreationOrder (db.commands.select (fun row =>
    row.repositoryId == db.repositoryId && row.targetWorker == targetWorker
      && row.status == .pending))).head?

def claimNextCommand (targetWorker claimedBy : WorkerName) (leaseExpiresAt : Int) (now : Timestamp)
    : Option CommandRow × RepoDb :=
  match nextPending db targetWorker with
  | none => (none, db)
  | some row =>
    let commands :=
      db.commands.update (db.addressed row.id) (.claim claimedBy leaseExpiresAt now)
    (commands.find? (db.addressed row.id), { db with commands := commands })

def completeCommand (result : Option JsonObject) (now : Timestamp) : RepoDb :=
  { db with
    commands := db.commands.update (db.addressed commandId) (.complete result now) }

/-- Extend a live claim; `true` when it was one. -/
def renewCommandLease (claimedBy : WorkerName) (leaseExpiresAt : Int) (now : Timestamp)
    : Bool × RepoDb :=
  let live (row : CommandRow) : Bool :=
    db.addressed commandId row && row.status == .inFlight && row.claimedBy == some claimedBy
  (db.commands.count live == 1,
    { db with
      commands := db.commands.update live (.renew leaseExpiresAt now) })

def failCommand (lastError : String) (retryable : Bool) (now : Timestamp) : RepoDb :=
  { db with
    commands := db.commands.update (db.addressed commandId) (.fail lastError retryable now) }

def RepoDb.expired (nowEpoch : Int) (row : CommandRow) : Bool :=
  row.repositoryId == db.repositoryId && row.status == .inFlight
    && row.leaseExpiresAt.any (· ≤ nowEpoch)

/-- `attempt_count` counts the dispatches made, so a command is dispatched again only below
the maximum.
-/
def CommandRow.redispatchable (row : CommandRow) : Bool :=
  row.retryable && decide ((row.attemptCount : Int) < maxAttempts)

def CommandRow.reap (now : Timestamp) (row : CommandRow) : CommandRow :=
  if row.redispatchable maxAttempts then
    { row with
      status := .pending
      claimedBy := none
      leaseExpiresAt := none
      updatedAt := now }
  else
    { row with
      status := .failed
      claimedBy := none
      leaseExpiresAt := none
      lastError := some (row.lastError.getD "command lease expired")
      updatedAt := now }

theorem CommandRow.reap_keeps (now : Timestamp)
    : Table.KeepsKeys commandClash (.reap maxAttempts now) := by
  constructor
  · intro row other
    unfold CommandRow.reap
    split <;> rfl
  · intro row other
    unfold CommandRow.reap
    split <;> rfl

/-- `ORDER BY updated_at, id` -/
def inUpdateOrder (rows : List CommandRow) : List CommandRow :=
  rows.insertionSort (fun left right =>
    left.updatedAt < right.updatedAt
    ∨ left.updatedAt = right.updatedAt ∧ left.id ≤ right.id)

structure ReapedCommands where
  retried : List CommandId
  failed : List CommandId

/-- Reclaim expired in-flight commands; each is updated by its id. -/
def reapStaleCommands (nowEpoch : Int) (maxAttempts : Int) (now : Timestamp)
    : ReapedCommands × RepoDb :=
  let rows := inUpdateOrder (db.commands.select (db.expired nowEpoch))
  let ids (retried : Bool) : List CommandId :=
    (rows.filter (fun row => row.redispatchable maxAttempts == retried)).map (·.id)
  (⟨ids true, ids false⟩,
    { db with
      commands := db.commands.update (db.expired nowEpoch) (.reap maxAttempts now)
        (CommandRow.reap_keeps maxAttempts now) })

end Murder.Commands

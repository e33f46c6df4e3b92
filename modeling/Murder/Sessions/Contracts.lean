import Murder.Contracts.Common

/-! Contracts of live harness sessions and of their fenced writer leases. -/

namespace Murder.Sessions

open Murder.Contracts

inductive SessionStatus
  | starting
  | ready
  | working
  | awaitingInput
  | awaitingApproval
  | stopping
  | stopped
  | failed
  | lost
deriving DecidableEq

namespace SessionStatus

end SessionStatus

inductive SessionTransport
  | tmux
  | appServer
  | subprocess
deriving DecidableEq

structure SessionCapabilities where
  structuredMessages : Bool := false
  structuredToolEvents : Bool := false
  structuredApprovals : Bool := false
  rawTerminal : Bool := true
  modelSwitching : Bool := false
  resumable : Bool := false
  interruptible : Bool := true
  supportsSubagents : Bool := false
deriving DecidableEq

structure HarnessSessionRecord where
  sessionId : Uuid
  agentId : Option Uuid := none
  repositoryId : Uuid
  harness : String
  model : Option String := none
  effort : Option String := none
  transport : SessionTransport
  transportRef : String
  status : SessionStatus
  revision : Nat
  capabilities : SessionCapabilities
  owningWorkflowId : Option Uuid := none
  owningActivityId : Option Uuid := none
  startedAt : Timestamp
  lastObservedAt : Option Timestamp := none
  stoppedAt : Option Timestamp := none
deriving DecidableEq

inductive WriterMode
  | structured
  | rawTerminal
deriving DecidableEq

structure WriterLease where
  leaseId : Uuid
  sessionId : Uuid
  holder : Principal
  mode : WriterMode
  fence : Nat
  issuedAt : Timestamp
  renewedAt : Timestamp
  expiresAt : Timestamp
  revokedAt : Option Timestamp := none
  revocationReason : Option String := none
deriving DecidableEq

end Murder.Sessions

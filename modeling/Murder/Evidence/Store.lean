import Murder.Evidence.Omission

/-! The evidence ledger in its tables: scopes, entries, and blobs shared by their content. -/

namespace Murder.Evidence

/-- Who holds evidence, with roots as their texts. -/
structure EvidenceScope where
  repositoryRoot : String
  worktreeRoot : String
  recipientId : String
  sessionId : Option String := none
  conversationId : Option String := none
deriving DecidableEq

/-- `_norm_nullable` -/
def normNullable (value : Option String) : String := value.getD ""

/-- The identity columns of `evidence_scopes`, where missing fields are stored as empty. -/
structure ScopeKey where
  repositoryRoot : String
  worktreeRoot : String
  recipientId : String
  sessionId : String
  conversationId : String
deriving DecidableEq

variable (scope : EvidenceScope) (store : EvidenceStore) (deliveryId : String)

def EvidenceScope.key : ScopeKey where
  repositoryRoot := scope.repositoryRoot
  worktreeRoot := scope.worktreeRoot
  recipientId := scope.recipientId
  sessionId := normNullable scope.sessionId
  conversationId := normNullable scope.conversationId

structure ScopeRow where
  scopeId : Nat
  key : ScopeKey
deriving DecidableEq

structure EvidenceBlob where
  contentHash : String
  text : String
deriving DecidableEq

/-- A row of `evidence_ledger_entries`. -/
structure EntryRow where
  entryId : Nat
  scopeId : Nat
  deliveryId : String
  path : String
  range : LineRange
  sourceHash : String
  contentHash : String
  category : EvidenceCategory
  payloadKind : PayloadKind
  status : EvidenceLedgerStatus
deriving DecidableEq

/-- `ORDER BY path, start_line, entry_id` -/
def EntryRow.Before (left right : EntryRow) : Prop :=
  left.path < right.path
  ∨ left.path = right.path
    ∧ (left.range.start < right.range.start
      ∨ left.range.start = right.range.start ∧ left.entryId ≤ right.entryId)

instance : DecidableRel EntryRow.Before := fun _ _ => inferInstanceAs (Decidable (_ ∨ _))

/-- An entry as the ledger loads it. -/
structure LoadedEntry where
  entryId : Nat
  deliveryId : String
  key : ScopeKey
  path : String
  range : LineRange
  sourceHash : String
  contentHash : String
  category : EvidenceCategory
  payloadKind : PayloadKind
  payloadText : String
deriving DecidableEq

structure EvidenceStore where
  scopes : List ScopeRow := []
  entries : List EntryRow := []
  blobs : List EvidenceBlob := []
  nextScopeId : Nat := 1
  nextEntryId : Nat := 1

namespace EvidenceStore

def findScopeId (scope : EvidenceScope) : Option Nat :=
  (store.scopes.find? (fun row => decide (row.key = scope.key))).map (·.scopeId)

def getOrCreateScope (scope : EvidenceScope) : Nat × EvidenceStore :=
  match store.findScopeId scope with
  | some scopeId => (scopeId, store)
  | none =>
    (store.nextScopeId, { store with
      scopes := store.scopes ++ [⟨store.nextScopeId, scope.key⟩]
      nextScopeId := store.nextScopeId + 1 })

/-- `ON CONFLICT(content_hash) DO NOTHING` -/
def upsertBlob (contentHash text : String) : EvidenceStore :=
  if store.blobs.any (·.contentHash == contentHash) then store
  else { store with blobs := store.blobs ++ [⟨contentHash, text⟩] }

def gcOrphanedBlobs : EvidenceStore :=
  { store with
    blobs := store.blobs.filter (fun blob =>
      store.entries.any (·.contentHash == blob.contentHash)) }

def insertDraft [Sha256] (scopeId : Nat) (deliveryId : String) (store : EvidenceStore)
    (draft : LedgerEntryDraft)
    : Except LedgerError EvidenceStore :=
  if maxEvidenceBlobChars < draft.text.length then
    .error (.blobTooLong draft)
  else
    let contentHash := Sha256.digest draft.text
    let stored := store.upsertBlob contentHash draft.text
    .ok { stored with
      entries := stored.entries ++ [⟨stored.nextEntryId, scopeId, deliveryId, draft.path,
        draft.range, draft.sourceHash, contentHash, draft.category, draft.payloadKind, .prepared⟩]
      nextEntryId := stored.nextEntryId + 1 }

/-- Persist a delivery under its new identifier; an error leaves the store alone. -/
def prepareEntries [Sha256] (scope : EvidenceScope)
    (drafts : List LedgerEntryDraft) (deliveryId : String)
    : Except LedgerError EvidenceStore :=
  if drafts = [] then
    .error .noDrafts
  else
    let (scopeId, opened) := store.getOrCreateScope scope
    drafts.foldlM (insertDraft scopeId deliveryId) opened

/-- Only prepared rows of the delivery change their status. -/
def settle (status : EvidenceLedgerStatus) : EvidenceStore :=
  { store with
    entries := store.entries.map (fun row =>
      if row.deliveryId = deliveryId ∧ row.status = .prepared then { row with status := status }
      else row) }

def markSupplied : EvidenceStore :=
  store.settle deliveryId .supplied

def markAbandoned : EvidenceStore :=
  (store.settle deliveryId .abandoned).gcOrphanedBlobs

def joined (row : EntryRow) : Option LoadedEntry := do
  let blob ← store.blobs.find? (fun blob => decide (blob.contentHash = row.contentHash))
  let scope ← store.scopes.find? (fun scope => decide (scope.scopeId = row.scopeId))
  return ⟨row.entryId, row.deliveryId, scope.key, row.path, row.range, row.sourceHash,
    row.contentHash, row.category, row.payloadKind, blob.text⟩

def loadSupplied (scope : EvidenceScope) : List LoadedEntry :=
  match store.findScopeId scope with
  | none => []
  | some scopeId =>
    ((store.entries.filter (fun row =>
      decide (row.scopeId = scopeId ∧ row.status = .supplied))).insertionSort
        EntryRow.Before).filterMap store.joined

def deleteScope (state : EvidenceStore × Nat) (scopeId : Nat) : EvidenceStore × Nat :=
  ({ state.1 with
      entries := state.1.entries.filter (fun row => decide (row.scopeId ≠ scopeId))
      scopes := state.1.scopes.filter (fun row => decide (row.scopeId ≠ scopeId)) },
    state.2 + state.1.entries.countP (fun row => decide (row.scopeId = scopeId)))

def cleanupScope (scope : EvidenceScope) : EvidenceStore × Nat :=
  match store.findScopeId scope with
  | none => (store, 0)
  | some scopeId =>
    let (left, deleted) := deleteScope (store, 0) scopeId
    (left.gcOrphanedBlobs, deleted)

def cleanupWhere (column : ScopeKey → String) (value : String) : EvidenceStore × Nat :=
  let owned := store.scopes.filter (fun row => decide (column row.key = value))
  let (left, deleted) := (owned.map (·.scopeId)).foldl deleteScope (store, 0)
  (left.gcOrphanedBlobs, deleted)

def cleanupSession (sessionId : String) : EvidenceStore × Nat :=
  store.cleanupWhere (·.sessionId) sessionId

def cleanupRepository (repositoryRoot : String) : EvidenceStore × Nat :=
  store.cleanupWhere (·.repositoryRoot) repositoryRoot

def cleanupAbandonedDeliveries : EvidenceStore × Nat :=
  let abandoned (row : EntryRow) : Bool := row.status == .abandoned
  let left := { store with entries := store.entries.filter (fun row => !abandoned row) }
  (left.gcOrphanedBlobs, store.entries.countP abandoned)

end EvidenceStore

/-- A call of the ledger that writes. -/
inductive LedgerOperation
  | prepareEntries (scope : EvidenceScope) (drafts : List LedgerEntryDraft) (deliveryId : String)
  | markSupplied (deliveryId : String)
  | markAbandoned (deliveryId : String)
  | cleanupScope (scope : EvidenceScope)
  | cleanupSession (sessionId : String)
  | cleanupRepository (repositoryRoot : String)
  | cleanupAbandonedDeliveries

/-- What an operation leaves; a refused delivery is rolled back. -/
def EvidenceStore.step [Sha256] (store : EvidenceStore) : LedgerOperation → EvidenceStore
  | .prepareEntries scope drafts deliveryId =>
    match store.prepareEntries scope drafts deliveryId with
    | .ok next => next
    | .error _ => store
  | .markSupplied deliveryId => store.markSupplied deliveryId
  | .markAbandoned deliveryId => store.markAbandoned deliveryId
  | .cleanupScope scope => (store.cleanupScope scope).1
  | .cleanupSession sessionId => (store.cleanupSession sessionId).1
  | .cleanupRepository repositoryRoot => (store.cleanupRepository repositoryRoot).1
  | .cleanupAbandonedDeliveries => store.cleanupAbandonedDeliveries.1

def EvidenceStore.run [Sha256] (history : List LedgerOperation) : EvidenceStore :=
  history.foldl EvidenceStore.step {}

end Murder.Evidence

import Murder.Contracts.Text
import Murder.Evidence.Ranges

/-! What a recipient was sent: the ledger of prepared and supplied evidence. -/

namespace Murder.Evidence

inductive EvidenceCategory
  | editTarget
  | contract
  | supportingContext
  | test
  | verification
  | currentDiff
  | other
deriving DecidableEq

/-- `_CATEGORY_ORDER`. -/
def EvidenceCategory.order : EvidenceCategory → Nat
  | .editTarget => 0
  | .contract => 1
  | .supportingContext => 2
  | .test => 3
  | .verification => 4
  | .currentDiff => 5
  | .other => 6

inductive PayloadKind
  | source
  | diff
deriving DecidableEq

def PayloadKind.value : PayloadKind → String
  | .source => "source"
  | .diff => "diff"

inductive EvidenceLedgerStatus
  | prepared
  | supplied
  | abandoned
deriving DecidableEq

/-- A source range selected for a recipient. -/
structure SelectedRange where
  path : String
  lineRange : LineRange
  category : EvidenceCategory
  reason : String
  symbolIds : List String := []
  provenance : Option String := none
deriving DecidableEq

/-- One payload of a recipient's brief. -/
structure EvidenceSegment where
  path : String
  range : LineRange
  sourceHash : String
  payloadKind : PayloadKind
  payloadText : String
  symbolIds : List String
  category : EvidenceCategory
  reason : String
  provenance : Option String
deriving DecidableEq

/-- A ledger entry as planning sees it. -/
structure EvidenceLedgerEntry where
  path : String
  range : LineRange
  sourceHash : String
  payloadKind : PayloadKind := .source
  payloadText : Option String := none
  supplied : Bool := true
  status : Option EvidenceLedgerStatus := none
  entryId : Option Nat := none
deriving DecidableEq

def EvidenceLedgerEntry.isKnown (entry : EvidenceLedgerEntry) : Bool :=
  match entry.status with
  | some status => status == .supplied
  | none => entry.supplied

structure LedgerEntryDraft where
  path : String
  range : LineRange
  sourceHash : String
  text : String
  category : EvidenceCategory
  payloadKind : PayloadKind := .source
deriving DecidableEq

/-- The exact text that will be sent. -/
def draftsFromSegments (segments : List EvidenceSegment) : List LedgerEntryDraft :=
  segments.map (fun segment =>
    ⟨segment.path, segment.range, segment.sourceHash, segment.payloadText, segment.category,
      segment.payloadKind⟩)

/-- A row of `evidence_ledger_entries` with the text of its blob. -/
structure EvidenceRow where
  entryId : Nat
  deliveryId : String
  path : String
  range : LineRange
  sourceHash : String
  text : String
  category : EvidenceCategory
  payloadKind : PayloadKind
  status : EvidenceLedgerStatus
deriving DecidableEq

/-- `MAX_EVIDENCE_BLOB_CHARS`. -/
def maxEvidenceBlobChars : Nat := 64000

/-- `ValueError` of `prepare_entries`. -/
inductive LedgerError
  | noDrafts
  | blobTooLong (draft : LedgerEntryDraft)

/-- The entries of one scope, and the next identifier to assign. -/
structure EvidenceLedger where
  rows : List EvidenceRow := []
  nextEntryId : Nat := 1

def LedgerEntryDraft.row (draft : LedgerEntryDraft) (deliveryId : String) (entryId : Nat)
    : EvidenceRow :=
  ⟨entryId, deliveryId, draft.path, draft.range, draft.sourceHash, draft.text, draft.category,
    draft.payloadKind, .prepared⟩

def EvidenceRow.entry (row : EvidenceRow) : EvidenceLedgerEntry where
  path := row.path
  range := row.range
  sourceHash := row.sourceHash
  payloadKind := row.payloadKind
  payloadText := some row.text
  status := some row.status
  entryId := some row.entryId

variable (ledger : EvidenceLedger)

namespace EvidenceLedger

def prepareEntries (drafts : List LedgerEntryDraft) (deliveryId : String)
    : Except LedgerError EvidenceLedger :=
  match drafts, drafts.find? (fun draft => maxEvidenceBlobChars < draft.text.length) with
  | [], _ => .error .noDrafts
  | _, some draft => .error (.blobTooLong draft)
  | drafts, none =>
    .ok {
      rows := ledger.rows ++ drafts.zipIdx.map (fun (draft, index) =>
        draft.row deliveryId (ledger.nextEntryId + index))
      nextEntryId := ledger.nextEntryId + drafts.length }

def settle (deliveryId : String) (status : EvidenceLedgerStatus) : EvidenceLedger :=
  { ledger with
    rows := ledger.rows.map (fun row =>
      if row.deliveryId = deliveryId ∧ row.status = .prepared then { row with status := status }
      else row) }

/-- Confirm that the recipient received a delivery. -/
def markSupplied (deliveryId : String) : EvidenceLedger :=
  ledger.settle deliveryId .supplied

def markAbandoned (deliveryId : String) : EvidenceLedger :=
  ledger.settle deliveryId .abandoned

/-- `ORDER BY path, start_line, entry_id` -/
def EvidenceRow.Before (left right : EvidenceRow) : Prop :=
  left.path < right.path
  ∨ left.path = right.path
    ∧ (left.range.start < right.range.start
      ∨ left.range.start = right.range.start ∧ left.entryId ≤ right.entryId)

instance : DecidableRel EvidenceRow.Before := fun _ _ => inferInstanceAs (Decidable (_ ∨ _))

def loadSupplied : List EvidenceLedgerEntry :=
  ((ledger.rows.filter (fun row => row.status == .supplied)).insertionSort
    EvidenceRow.Before).map EvidenceRow.entry

theorem mem_loadSupplied {ledger : EvidenceLedger} {entry : EvidenceLedgerEntry}
    : entry ∈ ledger.loadSupplied
      ↔ ∃ row ∈ ledger.rows, row.status = .supplied ∧ row.entry = entry := by
  unfold loadSupplied
  simp only [List.mem_map, List.mem_insertionSort, List.mem_filter, beq_iff_eq, and_assoc]

theorem mem_settle {ledger : EvidenceLedger} {deliveryId : String}
    {status : EvidenceLedgerStatus} {row : EvidenceRow}
    : row ∈ (ledger.settle deliveryId status).rows
      ↔ ∃ old ∈ ledger.rows,
        (if old.deliveryId = deliveryId ∧ old.status = .prepared
          then { old with status := status } else old) = row :=
  List.mem_map

theorem prepareEntries_rows {ledger next : EvidenceLedger} {drafts : List LedgerEntryDraft}
    {deliveryId : String} (h : ledger.prepareEntries drafts deliveryId = .ok next)
    : ∃ added : List EvidenceRow, next.rows = ledger.rows ++ added
        ∧ (∀ row ∈ added, ∃ draft ∈ drafts, ∃ entryId, row = draft.row deliveryId entryId)
        ∧ ∀ draft ∈ drafts, ∃ entryId, draft.row deliveryId entryId ∈ added := by
  unfold prepareEntries at h
  split at h
  · cases h
  · cases h
  · cases h
    refine ⟨_, rfl, ?_, ?_⟩
    · intro row member
      obtain ⟨⟨draft, index⟩, listed, rfl⟩ := List.mem_map.mp member
      exact ⟨draft, (List.mem_zipIdx listed).2.2 ▸ List.getElem_mem _, _, rfl⟩
    · intro draft member
      obtain ⟨index, bound, rfl⟩ := List.getElem_of_mem member
      refine ⟨_, List.mem_map.mpr ⟨(_, index), ?_, rfl⟩⟩
      exact List.mem_zipIdx_iff_getElem?.mpr (List.getElem?_eq_getElem bound)

end EvidenceLedger

end Murder.Evidence

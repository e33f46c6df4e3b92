import Mathlib.Data.Prod.Lex
import Mathlib.Data.String.Basic
import Murder.Evidence.Ledger
import Murder.Library.Transactions

/-! Planning the evidence a recipient still has to be sent.
Only confirmed entries take part; a file whose hash changed is sent as focused diffs.
-/

namespace Murder.Evidence

open Contracts Library.Transactions

/-- `difflib.unified_diff` of the standard library. -/
class Difflib where
  unifiedDiff : (old new : List String) → (fromFile toFile : String) → (context : Nat)
    → List String

/-- The current text of a path, with the digest of its bytes. -/
structure SourceSnapshot where
  text : String
  sourceHash : String
  lineCount : Nat

/-- `RepositorySourceReader.read`; `none` is a path it refuses or cannot read. -/
abbrev SourceReader := String → Option SourceSnapshot

/-- What stops a plan. -/
inductive PlanError
  | sourceRead (path : String)
  | range (error : RangeError)
  | render (range : LineRange) (lineCount : Nat)

/-- An inclusive slice of lines, without a newline behind the last one. -/
def extractSourceSlice (text : String) (range : LineRange) : Except PlanError String :=
  let lines := textLines text
  if lines.length < range.stop then
    .error (.render range lines.length)
  else
    .ok (joinLines ((lines.take range.stop).drop (range.start - 1)))

/-- `FOCUSED_DIFF_CONTEXT_LINES`. -/
def focusedDiffContextLines : Nat := 3

/-- `MAX_FOCUSED_DIFF_CHARS`. -/
def maxFocusedDiffChars : Nat := 8000

/-- `FOCUSED_DIFF_TRUNCATION_MARKER`. -/
def focusedDiffTruncationMarker : String := "\n... [focused diff truncated]\n"

structure FocusedDiffResult where
  text : String
  truncated : Bool
  unmappable : Bool := false

def LineRange.label (range : LineRange) (path : String) : String :=
  s!"{path}:{range.start}-{range.stop}"

/-- A unified diff of two excerpts under the header of their ranges, cut where it is long. -/
def buildFocusedDiff [Difflib] (path : String) (oldRange : LineRange) (oldText : String)
    (newRange : LineRange) (newText : String)
    : FocusedDiffResult :=
  if oldText = "" ∧ newText = "" then
    { text := "", truncated := false, unmappable := true }
  else
    let header := oldRange.label path ++ " -> " ++ newRange.label path
    let body := Difflib.unifiedDiff (textLines oldText) (textLines newText)
      (oldRange.label path) (newRange.label path) focusedDiffContextLines
    let filtered := body.filter (fun line => !(line.startsWith "--- " || line.startsWith "+++ "))
    let payload := header ++ "\n" ++ joinLines filtered ++ (if filtered = [] then "" else "\n")
    let keep := maxFocusedDiffChars - focusedDiffTruncationMarker.length
    if payload.length ≤ maxFocusedDiffChars then
      { text := payload, truncated := false }
    else if keep < header.length + 1 then
      { text := header ++ focusedDiffTruncationMarker, truncated := true }
    else
      let kept := (payload.toList.take keep).rdropWhile (· == '\n')
      { text := String.ofList kept ++ focusedDiffTruncationMarker, truncated := true }

/-- A supplied excerpt that is stale under a new hash. -/
structure ChangedEvidenceNotice where
  path : String
  priorHash : String
  currentHash : String
  overlappingRange : LineRange
  message : String := "changed evidence requires refresh/diff"
deriving DecidableEq

/-- Supplied evidence that no longer exists. -/
structure DeletionNotice where
  path : String
  range : LineRange
  sourceHash : String
deriving DecidableEq

def EvidenceLedgerEntry.deletionNotice (entry : EvidenceLedgerEntry) : DeletionNotice :=
  ⟨entry.path, entry.range, entry.sourceHash⟩

namespace SelectedRange

def clamp (selection : SelectedRange) (lineCount : Nat) : Except PlanError SelectedRange := do
  let lineRange ← (clampRange selection.lineRange lineCount).mapError PlanError.range
  return { selection with lineRange := lineRange }

def segment (selection : SelectedRange) (range : LineRange) (sourceHash : String)
    (kind : PayloadKind) (text : String)
    : EvidenceSegment :=
  ⟨selection.path, range, sourceHash, kind, text, selection.symbolIds, selection.category,
    selection.reason, selection.provenance⟩

def sourceSegment (selection : SelectedRange) (snapshot : SourceSnapshot) (range : LineRange)
    : Except PlanError EvidenceSegment := do
  let text ← extractSourceSlice snapshot.text range
  return selection.segment range snapshot.sourceHash .source text

end SelectedRange

structure PathPlan where
  segments : List EvidenceSegment := []
  notices : List ChangedEvidenceNotice := []
  deletions : List DeletionNotice := []
  unmappable : List String := []

def missingSourceSegments (clamped : List SelectedRange) (matching : List EvidenceLedgerEntry)
    (snapshot : SourceSnapshot)
    : Except PlanError (List EvidenceSegment) :=
  let known := normalizeRanges (matching.map (·.range))
  let pieces := clamped.flatMap (fun selection =>
    (subtractRanges [selection.lineRange] known).map (fun piece => (selection, piece)))
  pieces.mapM (fun (selection, piece) => selection.sourceSegment snapshot piece)

def fullSourceSegments (clamped : List SelectedRange) (snapshot : SourceSnapshot)
    : Except PlanError (List EvidenceSegment) :=
  clamped.mapM (fun selection => selection.sourceSegment snapshot selection.lineRange)

def overlap (left right : LineRange) : Option LineRange :=
  if shared : max left.start right.start ≤ min left.stop right.stop then
    some ⟨max left.start right.start, min left.stop right.stop,
      left.positive.trans_le (le_max_left _ _), shared⟩
  else
    none

/-- The order of `(start_line, -(end_line - start_line), entry_id or 0)`. -/
def EvidenceLedgerEntry.Before (left right : EvidenceLedgerEntry) : Prop :=
  let size (range : LineRange) := range.stop - range.start
  left.range.start < right.range.start
  ∨ left.range.start = right.range.start
    ∧ (size right.range < size left.range
      ∨ size right.range = size left.range ∧ left.entryId.getD 0 ≤ right.entryId.getD 0)

instance : DecidableRel EvidenceLedgerEntry.Before :=
  fun _ _ => inferInstanceAs (Decidable (_ ∨ _))

def bestPriorForSelection (selection : LineRange) (stale : List EvidenceLedgerEntry)
    : Option EvidenceLedgerEntry :=
  let overlapping := stale.filter (fun entry => (overlap selection entry.range).isSome)
  match overlapping.insertionSort EvidenceLedgerEntry.Before, stale with
  | first :: _, _ => some first
  | [], [entry] => some entry
  | [], _ => none

/-- What a selection of a changed file becomes. -/
structure ChangedSelection where
  segment : EvidenceSegment
  notice : ChangedEvidenceNotice
  unmappable : Bool
  coveredPrior : Option EvidenceLedgerEntry

def unmappableSelection (selection : SelectedRange) (snapshot : SourceSnapshot)
    (priorHash currentText : String) (coveredPrior : Option EvidenceLedgerEntry)
    : ChangedSelection where
  segment := selection.segment selection.lineRange snapshot.sourceHash .source currentText
  notice := ⟨selection.path, priorHash, snapshot.sourceHash, selection.lineRange,
    "changed_evidence_unmappable"⟩
  unmappable := true
  coveredPrior := coveredPrior

/-- One selection against the stale entries `first :: rest`. -/
def planChangedSelection [Difflib] (first : EvidenceLedgerEntry)
    (rest : List EvidenceLedgerEntry) (snapshot : SourceSnapshot) (selection : SelectedRange)
    : Except PlanError ChangedSelection := do
  let currentText ← extractSourceSlice snapshot.text selection.lineRange
  let prior := bestPriorForSelection selection.lineRange (first :: rest)
  match prior, prior.bind (·.payloadText) with
  | some prior, some oldText =>
    let diff := buildFocusedDiff selection.path prior.range oldText selection.lineRange
      currentText
    if diff.unmappable then
      return unmappableSelection selection snapshot prior.sourceHash currentText prior
    else
      return {
        segment := selection.segment selection.lineRange snapshot.sourceHash .diff diff.text
        notice := {
          path := selection.path
          priorHash := prior.sourceHash
          currentHash := snapshot.sourceHash
          overlappingRange :=
            (overlap selection.lineRange prior.range).getD selection.lineRange }
        unmappable := false
        coveredPrior := prior }
  | prior, _ =>
    return unmappableSelection selection snapshot (prior.getD first).sourceHash currentText none

/-- A path with stale entries `first :: rest`. -/
def planChangedPath [Difflib] (clamped : List SelectedRange) (first : EvidenceLedgerEntry)
    (rest : List EvidenceLedgerEntry) (snapshot : SourceSnapshot)
    : Except PlanError PathPlan := do
  let changed ← clamped.mapM (planChangedSelection first rest snapshot)
  let gone := (first :: rest).filter (fun entry =>
    changed.all (·.coveredPrior != some entry)
    && clamped.all (fun selection => (overlap selection.lineRange entry.range).isNone))
  return {
    segments := changed.map (·.segment)
    notices := changed.map (·.notice)
    deletions := gone.map (·.deletionNotice)
    unmappable := (changed.filter (·.unmappable)).map (·.segment.path) }

def planPath [Difflib] (path : String) (selections : List SelectedRange)
    (priors : List EvidenceLedgerEntry) (reader : SourceReader)
    : Except PlanError PathPlan :=
  match reader path with
  | none => .error (.sourceRead path)
  | some snapshot => do
      let clamped ← selections.mapM (·.clamp snapshot.lineCount)
      let matching := priors.filter (·.sourceHash = snapshot.sourceHash)
      match priors.filter (·.sourceHash ≠ snapshot.sourceHash) with
      | first :: rest => planChangedPath clamped first rest snapshot
      | [] =>
        let segments ←
          if matching = [] then fullSourceSegments clamped snapshot
          else missingSourceSegments clamped matching snapshot
        return { segments := segments }

/-- `LedgerPlanResult`. -/
structure LedgerPlanResult where
  segments : List EvidenceSegment
  deletionNotices : List DeletionNotice
  changedNotices : List ChangedEvidenceNotice
  unmappablePaths : List String

def EvidenceSegment.Before (left right : EvidenceSegment) : Prop :=
  let key (segment : EvidenceSegment) :=
    toLex (segment.category.order, toLex (segment.path, toLex (segment.range.start,
      toLex (segment.range.stop, segment.payloadKind.value))))
  key left ≤ key right

instance : DecidableRel EvidenceSegment.Before := fun _ _ => inferInstanceAs (Decidable (_ ≤ _))

def sortedPaths (paths : List String) : List String :=
  paths.eraseDups.insertionSort (· ≤ ·)

def deletionsForMissingFiles (known : List EvidenceLedgerEntry) (selected : List String)
    (reader : SourceReader)
    : List DeletionNotice :=
  let missing := (sortedPaths (known.map (·.path))).filter (fun path =>
    path ∉ selected ∧ (reader path).isNone)
  missing.flatMap (fun path => (known.filter (·.path = path)).map (·.deletionNotice))

def planEvidence [Difflib] (selections : List SelectedRange)
    (priorSupplied : List EvidenceLedgerEntry) (reader : SourceReader)
    : Except PlanError LedgerPlanResult := do
  let known := priorSupplied.filter (·.isKnown)
  let selected := sortedPaths (selections.map (·.path))
  let plans ← selected.mapM (fun path =>
    planPath path (selections.filter (·.path = path)) (known.filter (·.path = path)) reader)
  return {
    segments := (plans.flatMap (·.segments)).insertionSort EvidenceSegment.Before
    deletionNotices :=
      deletionsForMissingFiles known selected reader ++ plans.flatMap (·.deletions)
    changedNotices := (plans.flatMap (·.notices)).eraseDups
    unmappablePaths := (plans.flatMap (·.unmappable)).eraseDups }

variable {selection cut : SelectedRange}

theorem SelectedRange.clamp_path {lineCount : Nat} (h : selection.clamp lineCount = .ok cut)
    : cut.path = selection.path := by
  obtain ⟨range, -, made⟩ := except_bind_ok.mp h
  cases made
  rfl

variable {segment : EvidenceSegment}

theorem SelectedRange.sourceSegment_ok {snapshot : SourceSnapshot} {range : LineRange}
    : selection.sourceSegment snapshot range = .ok segment
      ↔ ∃ text, extractSourceSlice snapshot.text range = .ok text
        ∧ segment = selection.segment range snapshot.sourceHash .source text := by
  unfold sourceSegment
  rw [except_bind_ok]
  constructor
  · intro ⟨text, extracted, made⟩
    cases made
    exact ⟨text, extracted, rfl⟩
  · intro ⟨text, extracted, made⟩
    exact ⟨text, extracted, made ▸ rfl⟩

section PathPlans

variable {snapshot : SourceSnapshot} {clamped : List SelectedRange}
  {matching : List EvidenceLedgerEntry} {segments : List EvidenceSegment}

theorem missingSourceSegments_source
    (h : missingSourceSegments clamped matching snapshot = .ok segments)
    (member : segment ∈ segments)
    : ∃ selection ∈ clamped, ∃ range, selection.sourceSegment snapshot range = .ok segment := by
  obtain ⟨⟨selection, piece⟩, listed, made⟩ := except_mapM_value h member
  obtain ⟨selection', selected, cut⟩ := List.mem_flatMap.mp listed
  obtain ⟨piece', -, same⟩ := List.mem_map.mp cut
  cases same
  exact ⟨selection, selected, piece, made⟩

theorem missingSourceSegments_line
    (h : missingSourceSegments clamped matching snapshot = .ok segments)
    (member : selection ∈ clamped) {line : Nat} (inside : selection.lineRange.Contains line)
    : (∃ segment ∈ segments, segment.path = selection.path ∧ segment.range.Contains line)
      ∨ Covered (matching.map (·.range)) line := by
  by_cases known : Covered (matching.map (·.range)) line
  · exact .inr known
  · have left : Covered (subtractRanges [selection.lineRange]
        (normalizeRanges (matching.map (·.range)))) line := by
      rw [covered_subtractRanges, covered_normalizeRanges, covered_cons]
      exact ⟨.inl inside, known⟩
    obtain ⟨piece, cut, contains⟩ := left
    obtain ⟨segment, sent, made⟩ := except_mapM_item h (List.mem_flatMap.mpr
      ⟨selection, member, List.mem_map.mpr ⟨piece, cut, rfl⟩⟩)
    obtain ⟨text, -, rfl⟩ := SelectedRange.sourceSegment_ok.mp made
    exact .inl ⟨_, sent, rfl, contains⟩

theorem missingSourceSegments_nil
    (known : ∀ selection ∈ clamped, ∀ line, selection.lineRange.Contains line
      → Covered (matching.map (·.range)) line)
    : missingSourceSegments clamped matching snapshot = .ok [] := by
  have none_ : clamped.flatMap (fun selection =>
      (subtractRanges [selection.lineRange] (normalizeRanges (matching.map (·.range)))).map
        (fun piece => (selection, piece))) = [] := by
    refine List.flatMap_eq_nil_iff.mpr (fun selection member => ?_)
    have nothing : subtractRanges [selection.lineRange]
        (normalizeRanges (matching.map (·.range))) = [] := by
      apply subtractRanges_eq_nil.mpr
      intro line covered
      rw [covered_cons] at covered
      rcases covered with inside | other
      · exact covered_normalizeRanges.mpr (known selection member line inside)
      · exact absurd other not_covered_nil
    rw [nothing]
    rfl
  simp only [missingSourceSegments, none_]
  rfl

variable [Difflib] {first : EvidenceLedgerEntry} {rest : List EvidenceLedgerEntry}

/-- What a selection of a changed file becomes, whatever the stale entries are. -/
theorem planChangedSelection_segment {changed : ChangedSelection}
    (h : planChangedSelection first rest snapshot selection = .ok changed)
    : ∃ text, extractSourceSlice snapshot.text selection.lineRange = .ok text
      ∧ (changed.segment
          = selection.segment selection.lineRange snapshot.sourceHash .source text
        ∨ ∃ diff, changed.segment
          = selection.segment selection.lineRange snapshot.sourceHash .diff diff) := by
  obtain ⟨text, extracted, h⟩ := except_bind_ok.mp h
  refine ⟨text, extracted, ?_⟩
  dsimp only at h
  split at h
  · split at h
    · cases h
      exact .inl rfl
    · cases h
      exact .inr ⟨_, rfl⟩
  · cases h
    exact .inl rfl

theorem planChangedSelection_returns {selection : SelectedRange} {text : String}
    (extracted : extractSourceSlice snapshot.text selection.lineRange = .ok text)
    : ∃ changed, planChangedSelection first rest snapshot selection = .ok changed := by
  unfold planChangedSelection
  rw [extracted]
  simp only [bind, Except.bind]
  split
  · split
    · exact ⟨_, rfl⟩
    · exact ⟨_, rfl⟩
  · exact ⟨_, rfl⟩

variable {path : String} {selections : List SelectedRange} {priors : List EvidenceLedgerEntry}
  {reader : SourceReader} {plan : PathPlan}

/-- The branches of a plan that returns. -/
theorem planPath_ok (h : planPath path selections priors reader = .ok plan)
    : ∃ snapshot clamped, reader path = some snapshot
      ∧ selections.mapM (·.clamp snapshot.lineCount) = .ok clamped
      ∧ ((∃ first rest, priors.filter (·.sourceHash ≠ snapshot.sourceHash) = first :: rest
          ∧ planChangedPath clamped first rest snapshot = .ok plan)
        ∨ (∀ entry ∈ priors, entry.sourceHash = snapshot.sourceHash)
          ∧ ∃ segments, plan = { segments := segments }
            ∧ (priors = [] ∧ fullSourceSegments clamped snapshot = .ok segments
              ∨ missingSourceSegments clamped priors snapshot = .ok segments)) := by
  unfold planPath at h
  split at h
  · cases h
  · next snapshot read =>
      obtain ⟨clamped, cut, h⟩ := except_bind_ok.mp h
      refine ⟨snapshot, clamped, read, cut, ?_⟩
      split at h
      · next first rest stale => exact .inl ⟨first, rest, stale, h⟩
      · next current =>
          have same : ∀ entry ∈ priors, entry.sourceHash = snapshot.sourceHash := by
            intro entry member
            simpa using List.filter_eq_nil_iff.mp current entry member
          have all : priors.filter (·.sourceHash = snapshot.sourceHash) = priors :=
            List.filter_eq_self.mpr (fun entry member => decide_eq_true (same entry member))
          rw [all] at h
          dsimp only at h
          split at h
          · next none_ =>
              obtain ⟨segments, sent, made⟩ := except_bind_ok.mp h
              cases made
              exact .inr ⟨same, segments, rfl, .inl ⟨none_, sent⟩⟩
          · obtain ⟨segments, sent, made⟩ := except_bind_ok.mp h
            cases made
            exact .inr ⟨same, segments, rfl, .inr sent⟩

theorem planPath_segment (h : planPath path selections priors reader = .ok plan)
    (selected : ∀ selection ∈ selections, selection.path = path) (member : segment ∈ plan.segments)
    : ∃ snapshot, reader path = some snapshot ∧ segment.path = path
      ∧ segment.sourceHash = snapshot.sourceHash
      ∧ (segment.payloadKind = .source
          ∧ extractSourceSlice snapshot.text segment.range = .ok segment.payloadText
        ∨ segment.payloadKind = .diff ∧ ∃ entry ∈ priors, entry.sourceHash ≠ snapshot.sourceHash)
      := by
  obtain ⟨snapshot, clamped, read, cut, planned⟩ := planPath_ok h
  have named : ∀ selection ∈ clamped, selection.path = path := by
    intro selection listed
    obtain ⟨whole, among, clamps⟩ := except_mapM_value cut listed
    exact (SelectedRange.clamp_path clamps).trans (selected whole among)
  refine ⟨snapshot, read, ?_⟩
  rcases planned with ⟨first, rest, stale, changes⟩ | ⟨-, segments, rfl, sends⟩
  · obtain ⟨changed, each, made⟩ := except_bind_ok.mp changes
    cases made
    obtain ⟨change, listed, rfl⟩ := List.mem_map.mp member
    obtain ⟨selection, among, returned⟩ := except_mapM_value each listed
    obtain ⟨text, extracted, kinds⟩ := planChangedSelection_segment returned
    rcases kinds with same | ⟨diff, same⟩
    · rw [same]
      exact ⟨named selection among, rfl, .inl ⟨rfl, extracted⟩⟩
    · rw [same]
      have old : first ∈ priors.filter (·.sourceHash ≠ snapshot.sourceHash) :=
        stale ▸ List.mem_cons_self
      obtain ⟨known, differs⟩ := List.mem_filter.mp old
      exact ⟨named selection among, rfl, .inr ⟨rfl, first, known, of_decide_eq_true differs⟩⟩
  · have source : ∃ selection ∈ clamped, ∃ range,
        selection.sourceSegment snapshot range = .ok segment := by
      rcases sends with ⟨-, full⟩ | missing
      · obtain ⟨selection, among, made⟩ := except_mapM_value full member
        exact ⟨selection, among, _, made⟩
      · exact missingSourceSegments_source missing member
    obtain ⟨selection, among, range, made⟩ := source
    obtain ⟨text, extracted, rfl⟩ := SelectedRange.sourceSegment_ok.mp made
    exact ⟨named selection among, rfl, .inl ⟨rfl, extracted⟩⟩

/-- A selected line is in a segment, or the path has no stale entry and a known one holds it. -/
theorem planPath_line (h : planPath path selections priors reader = .ok plan)
    (selected : ∀ selection ∈ selections, selection.path = path)
    (read : reader path = some snapshot)
    (member : selection ∈ selections) (clamps : selection.clamp snapshot.lineCount = .ok cut)
    {line : Nat} (inside : cut.lineRange.Contains line)
    : (∃ segment ∈ plan.segments, segment.path = path ∧ segment.range.Contains line)
      ∨ (∀ entry ∈ priors, entry.sourceHash = snapshot.sourceHash)
        ∧ ∃ entry ∈ priors, entry.range.Contains line := by
  obtain ⟨snapshot', clamped, read', cuts, planned⟩ := planPath_ok h
  obtain rfl : snapshot' = snapshot := Option.some.inj (read'.symm.trans read)
  obtain ⟨cut', listed, clamps'⟩ := except_mapM_item cuts member
  obtain rfl : cut' = cut := Except.ok.inj (clamps'.symm.trans clamps)
  have named := (SelectedRange.clamp_path clamps).trans (selected selection member)
  rcases planned with ⟨first, rest, stale, changes⟩ | ⟨current, segments, rfl, sends⟩
  · obtain ⟨changed, each, made⟩ := except_bind_ok.mp changes
    cases made
    obtain ⟨change, among, returned⟩ := except_mapM_item each listed
    obtain ⟨text, -, kinds⟩ := planChangedSelection_segment returned
    refine .inl ⟨change.segment, List.mem_map_of_mem among, ?_⟩
    rcases kinds with same | ⟨diff, same⟩
    · rw [same]
      exact ⟨named, inside⟩
    · rw [same]
      exact ⟨named, inside⟩
  · rcases sends with ⟨-, full⟩ | missing
    · obtain ⟨segment, sent, made⟩ := except_mapM_item full listed
      obtain ⟨text, -, rfl⟩ := SelectedRange.sourceSegment_ok.mp made
      exact .inl ⟨_, sent, named, inside⟩
    · rcases missingSourceSegments_line missing listed inside with sent | covered
      · obtain ⟨segment, sent, same, contains⟩ := sent
        exact .inl ⟨segment, sent, same.trans named, contains⟩
      · obtain ⟨range, known, contains⟩ := covered
        obtain ⟨entry, among, rfl⟩ := List.mem_map.mp known
        exact .inr ⟨current, entry, among, contains⟩

end PathPlans

theorem mem_sortedPaths {paths : List String} {path : String}
    : path ∈ sortedPaths paths ↔ path ∈ paths := by
  unfold sortedPaths
  rw [List.mem_insertionSort, List.mem_eraseDups]

theorem selections_path {selections : List SelectedRange} {path : String}
    : ∀ selection ∈ selections.filter (·.path = path), selection.path = path :=
  fun _ member => of_decide_eq_true (List.mem_filter.mp member).2

section EvidencePlans

variable [Difflib] {selections : List SelectedRange} {supplied : List EvidenceLedgerEntry}
  {reader : SourceReader} {plan : LedgerPlanResult}

theorem planEvidence_ok (planned : planEvidence selections supplied reader = .ok plan)
    : ∃ plans,
      (sortedPaths (selections.map (·.path))).mapM (fun path =>
        planPath path (selections.filter (·.path = path))
          ((supplied.filter (·.isKnown)).filter (·.path = path)) reader) = .ok plans
      ∧ plan.segments = (plans.flatMap (·.segments)).insertionSort EvidenceSegment.Before
      ∧ plan.deletionNotices
        = deletionsForMissingFiles (supplied.filter (·.isKnown))
            (sortedPaths (selections.map (·.path))) reader
          ++ plans.flatMap (·.deletions)
      ∧ plan.changedNotices = (plans.flatMap (·.notices)).eraseDups := by
  obtain ⟨plans, each, made⟩ := except_bind_ok.mp planned
  cases made
  exact ⟨plans, each, rfl, rfl, rfl⟩

theorem planEvidence_segment (planned : planEvidence selections supplied reader = .ok plan)
    (member : segment ∈ plan.segments)
    : segment.path ∈ selections.map (·.path) ∧ ∃ snapshot, reader segment.path = some snapshot
      ∧ segment.sourceHash = snapshot.sourceHash
      ∧ (segment.payloadKind = .source
          ∧ extractSourceSlice snapshot.text segment.range = .ok segment.payloadText
        ∨ segment.payloadKind = .diff
          ∧ ∃ entry ∈ supplied, entry.isKnown = true ∧ entry.path = segment.path
            ∧ entry.sourceHash ≠ snapshot.sourceHash) := by
  obtain ⟨plans, each, segments, -⟩ := planEvidence_ok planned
  rw [segments, List.mem_insertionSort] at member
  obtain ⟨pathPlan, listed, among⟩ := List.mem_flatMap.mp member
  obtain ⟨path, selected, returned⟩ := except_mapM_value each listed
  obtain ⟨snapshot, read, named, hash, kinds⟩ :=
    planPath_segment returned selections_path among
  subst named
  refine ⟨mem_sortedPaths.mp selected, snapshot, read, hash, ?_⟩
  rcases kinds with source | ⟨diff, entry, known, stale⟩
  · exact .inl source
  · obtain ⟨known, same⟩ := List.mem_filter.mp known
    obtain ⟨known, confirmed⟩ := List.mem_filter.mp known
    exact .inr ⟨diff, entry, known, confirmed, of_decide_eq_true same, stale⟩

/-- A selected line is in a segment, or no known entry of its path is stale and one holds it. -/
theorem planEvidence_line (planned : planEvidence selections supplied reader = .ok plan)
    (member : selection ∈ selections)
    {snapshot : SourceSnapshot} (read : reader selection.path = some snapshot)
    (clamps : selection.clamp snapshot.lineCount = .ok cut)
    {line : Nat} (inside : cut.lineRange.Contains line)
    : (∃ segment ∈ plan.segments, segment.path = selection.path ∧ segment.range.Contains line)
      ∨ (∀ entry ∈ supplied, entry.isKnown = true → entry.path = selection.path
          → entry.sourceHash = snapshot.sourceHash)
        ∧ ∃ entry ∈ supplied, entry.isKnown = true ∧ entry.path = selection.path
          ∧ entry.range.Contains line := by
  obtain ⟨plans, each, segments, -⟩ := planEvidence_ok planned
  obtain ⟨pathPlan, listed, returned⟩ :=
    except_mapM_item each (mem_sortedPaths.mpr (List.mem_map_of_mem member))
  have own : selection ∈ selections.filter (·.path = selection.path) :=
    List.mem_filter.mpr ⟨member, decide_eq_true rfl⟩
  rcases planPath_line returned selections_path read own clamps inside with sent | known
  · obtain ⟨segment, among, same, contains⟩ := sent
    refine .inl ⟨segment, ?_, same, contains⟩
    rw [segments, List.mem_insertionSort]
    exact List.mem_flatMap.mpr ⟨pathPlan, listed, among⟩
  · obtain ⟨current, entry, among, contains⟩ := known
    obtain ⟨among, same⟩ := List.mem_filter.mp among
    obtain ⟨among, confirmed⟩ := List.mem_filter.mp among
    refine .inr ⟨?_, entry, among, confirmed, of_decide_eq_true same, contains⟩
    intro other listed confirmed same
    exact current other (List.mem_filter.mpr
      ⟨List.mem_filter.mpr ⟨listed, confirmed⟩, decide_eq_true same⟩)

end EvidencePlans

end Murder.Evidence

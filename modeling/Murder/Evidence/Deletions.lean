import Murder.Evidence.Omission

/-! Deletion notices against what is left of the supplied text.
A stale entry is announced as deleted when no selection overlaps its range, whatever the
current file holds.
-/

namespace Murder.Evidence

open Contracts Library.Transactions

/-- A file of the worktree: its text, or the lines of one that the reader refuses. -/
inductive WorktreeFile
  | text (content : String)
  | unreadable (lines : List String)

def WorktreeFile.lines : WorktreeFile → List String
  | text content => textLines content
  | unreadable lines => lines

/-- `FilesystemSourceReader.read` of the worktree. -/
def worktreeReader [Sha256] (files : String → Option WorktreeFile) : SourceReader := fun path =>
  match files path with
  | some (.text content) =>
    some ⟨content, Sha256.digest content, (textLines content).length⟩
  | _ => none

/-- The source lines of a payload: an excerpt's own, or the new side of a diff. -/
def EvidenceLedgerEntry.suppliedLines (entry : EvidenceLedgerEntry) : List String :=
  match entry.payloadText, entry.payloadKind with
  | none, _ => []
  | some text, .source => textLines text
  | some text, .diff => (textLines text).tail.filterMap (fun line =>
    match line.toList with
    | tag :: rest => if tag = ' ' ∨ tag = '+' then some (String.ofList rest) else none
    | [] => none)

/-- A line that the entry supplied is still in the file, empty lines apart. -/
def Remains (file : WorktreeFile) (entry : EvidenceLedgerEntry) : Prop :=
  ∃ line ∈ entry.suppliedLines, line ≠ "" ∧ line ∈ file.lines

section Plans

variable [Difflib]

/-- Notices are of files that are gone or hold nothing of the supplied text, and a path that
cannot be read leaves the plan of the others. -/
structure TruthfulDeletions (selections : List SelectedRange) (prior : List EvidenceLedgerEntry)
    (files : String → Option WorktreeFile) [Sha256]
    : Prop where
  truthful : ∀ plan, planEvidence selections prior (worktreeReader files) = .ok plan
    → ∀ entry ∈ prior, entry.isKnown = true → entry.deletionNotice ∈ plan.deletionNotices
    → ∀ file, files entry.path = some file → ¬ Remains file entry
  returns : ∀ path ∈ selections.map (·.path), worktreeReader files path = none
    → ∃ plan, planEvidence selections prior (worktreeReader files) = .ok plan
      ∧ ∀ entry ∈ prior, entry.isKnown = true → entry.path = path → files path = none
        → entry.deletionNotice ∈ plan.deletionNotices

end Plans

def staleEntries (prior : List EvidenceLedgerEntry) (path : String) (snapshot : SourceSnapshot)
    : List EvidenceLedgerEntry :=
  ((prior.filter (·.isKnown)).filter (·.path = path)).filter
    (·.sourceHash ≠ snapshot.sourceHash)

/-- An entry that the planner gives up: of an unselected path that is not read, or stale and
overlapped by no selection, unless a selection is compared with it as the only stale one. -/
def GivesUp (selections : List SelectedRange) (prior : List EvidenceLedgerEntry)
    (reader : SourceReader) (entry : EvidenceLedgerEntry)
    : Prop :=
  (entry ∈ prior ∧ entry.isKnown = true)
  ∧ if entry.path ∈ selections.map (·.path) then
      ∃ snapshot, reader entry.path = some snapshot
        ∧ entry.sourceHash ≠ snapshot.sourceHash
        ∧ (∀ selection ∈ selections, selection.path = entry.path
          → ∀ cut, selection.clamp snapshot.lineCount = .ok cut
          → overlap cut.lineRange entry.range = none)
        ∧ ¬ (staleEntries prior entry.path snapshot = [entry] ∧ entry.payloadText.isSome = true)
    else
      reader entry.path = none

theorem bestPriorForSelection_apart {selection : LineRange} {stale : List EvidenceLedgerEntry}
    {entry : EvidenceLedgerEntry} (apart : overlap selection entry.range = none)
    (chosen : bestPriorForSelection selection stale = some entry)
    : stale = [entry] := by
  unfold bestPriorForSelection at chosen
  dsimp only at chosen
  cases sorted : (stale.filter (fun entry => (overlap selection entry.range).isSome)).insertionSort
      EvidenceLedgerEntry.Before with
  | cons first rest =>
    rw [sorted] at chosen
    cases chosen
    have member : entry ∈ (stale.filter (fun entry =>
        (overlap selection entry.range).isSome)).insertionSort EvidenceLedgerEntry.Before := by
      rw [sorted]
      exact List.mem_cons_self
    rw [List.mem_insertionSort, List.mem_filter, apart] at member
    cases member.2
  | nil =>
    rw [sorted] at chosen
    match stale, chosen with
    | [only], chosen =>
      cases chosen
      rfl

theorem bestPriorForSelection_only {selection : LineRange} {entry : EvidenceLedgerEntry}
    : bestPriorForSelection selection [entry] = some entry := by
  unfold bestPriorForSelection
  by_cases apart : (overlap selection entry.range).isSome
  · simp [apart]
  · simp [apart]

variable {selection : SelectedRange} {notice : DeletionNotice}

section Plans

variable [Difflib] {selections : List SelectedRange}
  {prior : List EvidenceLedgerEntry} {reader : SourceReader} {snapshot : SourceSnapshot}
  {clamped : List SelectedRange}
  {first entry : EvidenceLedgerEntry} {rest : List EvidenceLedgerEntry}

theorem planChangedSelection_covered {changed : ChangedSelection}
    (h : planChangedSelection first rest snapshot selection = .ok changed)
    : changed.coveredPrior = some entry
      ↔ bestPriorForSelection selection.lineRange (first :: rest) = some entry
        ∧ entry.payloadText.isSome = true := by
  obtain ⟨text, extracted, h⟩ := except_bind_ok.mp h
  dsimp only at h
  cases chosen : bestPriorForSelection selection.lineRange (first :: rest) with
  | none =>
    rw [chosen] at h
    cases h
    simp [unmappableSelection]
  | some prior =>
    rw [chosen] at h
    dsimp only [Option.bind_some] at h
    cases payload : prior.payloadText with
    | none =>
      rw [payload] at h
      cases h
      constructor
      · intro covered
        cases covered
      · intro ⟨same, supplied⟩
        cases same
        rw [payload] at supplied
        cases supplied
    | some oldText =>
      rw [payload] at h
      dsimp only at h
      have covered : changed.coveredPrior = some prior := by
        split at h
        · cases h
          rfl
        · cases h
          rfl
      rw [covered]
      constructor
      · intro same
        cases same
        exact ⟨rfl, by rw [payload]; rfl⟩
      · intro ⟨same, _⟩
        exact same

theorem planChangedPath_deletions {plan : PathPlan}
    (h : planChangedPath clamped first rest snapshot = .ok plan) (some_ : clamped ≠ [])
    : notice ∈ plan.deletions
      ↔ ∃ entry ∈ first :: rest, entry.deletionNotice = notice
        ∧ (∀ cut ∈ clamped, overlap cut.lineRange entry.range = none)
        ∧ ¬ (first :: rest = [entry] ∧ entry.payloadText.isSome = true) := by
  obtain ⟨changed, each, made⟩ := except_bind_ok.mp h
  cases made
  simp only [List.mem_map, List.mem_filter, Bool.and_eq_true, List.all_eq_true, bne_iff_ne,
    Option.isNone_iff_eq_none]
  constructor
  · intro ⟨entry, ⟨listed, uncovered, apart⟩, same⟩
    refine ⟨entry, listed, same, apart, fun only => ?_⟩
    obtain ⟨cut, others, rfl⟩ := List.exists_cons_of_ne_nil some_
    obtain ⟨change, among, returned⟩ := except_mapM_item each List.mem_cons_self
    refine uncovered change among ((planChangedSelection_covered returned).mpr ⟨?_, only.2⟩)
    rw [only.1]
    exact bestPriorForSelection_only
  · intro ⟨entry, listed, same, apart, notOnly⟩
    refine ⟨entry, ⟨listed, fun change among covered => notOnly ?_, apart⟩, same⟩
    obtain ⟨cut, member, returned⟩ := except_mapM_value each among
    obtain ⟨chosen, supplied⟩ := (planChangedSelection_covered returned).mp covered
    exact ⟨bestPriorForSelection_apart (apart cut member) chosen, supplied⟩

theorem planPath_deletions {path : String} {plan : PathPlan}
    (h : planPath path (selections.filter (·.path = path))
      ((prior.filter (·.isKnown)).filter (·.path = path)) reader = .ok plan)
    (selected : path ∈ selections.map (·.path))
    : notice ∈ plan.deletions
      ↔ ∃ entry, GivesUp selections prior reader entry ∧ entry.path = path
        ∧ entry.deletionNotice = notice := by
  obtain ⟨snapshot, clamped, read, cuts, planned⟩ := planPath_ok h
  have listed : ∀ {entry : EvidenceLedgerEntry}, entry ∈ staleEntries prior path snapshot
      ↔ (entry ∈ prior ∧ entry.isKnown = true) ∧ entry.path = path
        ∧ entry.sourceHash ≠ snapshot.sourceHash := by
    intro entry
    unfold staleEntries
    rw [List.mem_filter, List.mem_filter, List.mem_filter, decide_eq_true_eq, decide_eq_true_eq,
      and_assoc]
  have apart : ∀ {entry : EvidenceLedgerEntry}, (∀ cut ∈ clamped,
      overlap cut.lineRange entry.range = none)
      ↔ ∀ selection ∈ selections, selection.path = path
        → ∀ cut, selection.clamp snapshot.lineCount = .ok cut
        → overlap cut.lineRange entry.range = none := by
    intro entry
    constructor
    · intro each selection member same cut clamps
      obtain ⟨cut', among, clamps'⟩ := except_mapM_item cuts
        (List.mem_filter.mpr ⟨member, decide_eq_true same⟩)
      cases clamps.symm.trans clamps'
      exact each cut among
    · intro each cut among
      obtain ⟨selection, member, clamps⟩ := except_mapM_value cuts among
      obtain ⟨member, same⟩ := List.mem_filter.mp member
      exact each selection member (of_decide_eq_true same) cut clamps
  have gives : ∀ {entry : EvidenceLedgerEntry}, entry.path = path
      → (GivesUp selections prior reader entry
        ↔ entry ∈ staleEntries prior path snapshot
          ∧ (∀ cut ∈ clamped, overlap cut.lineRange entry.range = none)
          ∧ ¬ (staleEntries prior path snapshot = [entry]
            ∧ entry.payloadText.isSome = true)) := by
    intro entry same
    subst same
    unfold GivesUp
    rw [if_pos selected, listed, apart, read]
    constructor
    · intro ⟨known, snapshot', read', stale, outside, notOnly⟩
      cases read'
      exact ⟨⟨known, rfl, stale⟩, outside, notOnly⟩
    · intro ⟨⟨known, _, stale⟩, outside, notOnly⟩
      exact ⟨known, snapshot, rfl, stale, outside, notOnly⟩
  rcases planned with changes | unchanged
  · obtain ⟨first, rest, stale, changes⟩ := changes
    have some_ : clamped ≠ [] := by
      obtain ⟨selection, member, same⟩ := List.mem_map.mp selected
      obtain ⟨cut, among, -⟩ := except_mapM_item cuts
        (List.mem_filter.mpr ⟨member, decide_eq_true same⟩)
      exact List.ne_nil_of_mem among
    rw [planChangedPath_deletions changes some_, ← stale]
    constructor
    · intro ⟨entry, among, same, outside, notOnly⟩
      have path_ := (listed.mp among).2.1
      exact ⟨entry, (gives path_).mpr ⟨among, outside, notOnly⟩, path_, same⟩
    · intro ⟨entry, given, path_, same⟩
      obtain ⟨among, outside, notOnly⟩ := (gives path_).mp given
      exact ⟨entry, among, same, outside, notOnly⟩
  · obtain ⟨current, segments, rfl, -⟩ := unchanged
    constructor
    · intro member
      cases member
    · intro ⟨entry, given, path_, _⟩
      obtain ⟨known, _, stale⟩ := listed.mp ((gives path_).mp given).1
      refine absurd (current entry ?_) stale
      exact List.mem_filter.mpr ⟨List.mem_filter.mpr known, decide_eq_true path_⟩

theorem mem_deletionNotices {plan : LedgerPlanResult}
    (planned : planEvidence selections prior reader = .ok plan)
    : notice ∈ plan.deletionNotices
      ↔ ∃ entry, GivesUp selections prior reader entry ∧ entry.deletionNotice = notice := by
  obtain ⟨plans, each, -, deletions, -⟩ := planEvidence_ok planned
  have missing : notice ∈ deletionsForMissingFiles (prior.filter (·.isKnown))
        (sortedPaths (selections.map (·.path))) reader
      ↔ ∃ entry, GivesUp selections prior reader entry
        ∧ entry.path ∉ selections.map (·.path) ∧ entry.deletionNotice = notice := by
    unfold deletionsForMissingFiles
    simp only [List.mem_flatMap, List.mem_filter, List.mem_map, mem_sortedPaths,
      decide_eq_true_eq, Option.isNone_iff_eq_none]
    constructor
    · intro ⟨path, ⟨_, unselected, gone⟩, entry, ⟨known, same⟩, told⟩
      subst same
      refine ⟨entry, ⟨known, ?_⟩, unselected, told⟩
      rw [if_neg (fun selected => unselected (List.mem_map.mp selected))]
      exact gone
    · intro ⟨entry, ⟨known, gone⟩, unselected, told⟩
      rw [if_neg (fun selected => unselected (List.mem_map.mp selected))] at gone
      exact ⟨entry.path, ⟨⟨entry, known, rfl⟩, unselected, gone⟩, entry, ⟨known, rfl⟩, told⟩
  rw [deletions, List.mem_append, missing, List.mem_flatMap]
  constructor
  · intro member
    rcases member with unselected | changed
    · obtain ⟨entry, given, -, told⟩ := unselected
      exact ⟨entry, given, told⟩
    · obtain ⟨pathPlan, listed, among⟩ := changed
      obtain ⟨path, selected, returned⟩ := except_mapM_value each listed
      obtain ⟨entry, given, -, told⟩ :=
        (planPath_deletions returned (mem_sortedPaths.mp selected)).mp among
      exact ⟨entry, given, told⟩
  · intro ⟨entry, given, told⟩
    by_cases selected : entry.path ∈ selections.map (·.path)
    · obtain ⟨pathPlan, listed, returned⟩ :=
        except_mapM_item each (mem_sortedPaths.mpr selected)
      exact .inr ⟨pathPlan, listed, (planPath_deletions returned selected).mpr
        ⟨entry, given, rfl, told⟩⟩
    · exact .inl ⟨entry, given, selected, told⟩

omit [Difflib] in
theorem extractSourceSlice_returns {text : String} {range : LineRange}
    (within : range.stop ≤ (textLines text).length)
    : ∃ payload, extractSourceSlice text range = .ok payload :=
  ⟨_, if_neg (Nat.not_lt.mpr within)⟩

omit [Difflib] in
theorem clamp_returns {lineCount : Nat} (within : selection.lineRange.start ≤ lineCount)
    : ∃ cut, selection.clamp lineCount = .ok cut := by
  have positive := selection.lineRange.positive
  unfold SelectedRange.clamp clampRange
  rw [if_neg (by omega), dif_neg (by omega)]
  exact ⟨_, rfl⟩

omit [Difflib] in
theorem clamp_within {cut : SelectedRange} {lineCount : Nat}
    (clamps : selection.clamp lineCount = .ok cut)
    : cut.lineRange.stop ≤ lineCount ∧ selection.lineRange.start ≤ lineCount := by
  obtain ⟨range, clamped, made⟩ := except_bind_ok.mp clamps
  cases made
  unfold clampRange at clamped
  by_cases empty : lineCount = 0
  · rw [if_pos empty] at clamped
    cases clamped
  · rw [if_neg empty] at clamped
    by_cases behind : lineCount < selection.lineRange.start
    · rw [dif_pos behind] at clamped
      cases clamped
    · rw [dif_neg behind] at clamped
      cases clamped
      exact ⟨Nat.min_le_right _ _, Nat.not_lt.mp behind⟩

omit [Difflib] in
theorem missingSourceSegments_returns {matching : List EvidenceLedgerEntry}
    (within : ∀ cut ∈ clamped, cut.lineRange.stop ≤ (textLines snapshot.text).length)
    : ∃ segments, missingSourceSegments clamped matching snapshot = .ok segments := by
  refine except_mapM_ok (fun pair member => ?_)
  obtain ⟨cut, among, pieces⟩ := List.mem_flatMap.mp member
  obtain ⟨piece, left, rfl⟩ := List.mem_map.mp pieces
  have inside := (covered_subtractRanges.mp
    ⟨piece, left, piece.ordered, Nat.le_refl piece.stop⟩).1
  rw [covered_cons] at inside
  rcases inside with contains | none_
  · obtain ⟨payload, extracted⟩ := @extractSourceSlice_returns snapshot.text piece
      (contains.2.trans (within cut among))
    exact ⟨_, SelectedRange.sourceSegment_ok.mpr ⟨payload, extracted, rfl⟩⟩
  · exact absurd none_ not_covered_nil

theorem planPath_returns {path : String} {priors : List EvidenceLedgerEntry}
    (read : reader path = some snapshot)
    (counts : snapshot.lineCount = (textLines snapshot.text).length)
    (starts : ∀ selection ∈ selections, selection.lineRange.start ≤ snapshot.lineCount)
    : ∃ plan, planPath path selections priors reader = .ok plan := by
  unfold planPath
  rw [read]
  obtain ⟨clamped, cuts⟩ := except_mapM_ok (fun selection member =>
    clamp_returns (starts selection member))
  have within : ∀ cut ∈ clamped, cut.lineRange.stop ≤ (textLines snapshot.text).length := by
    intro cut among
    obtain ⟨selection, -, clamps⟩ := except_mapM_value cuts among
    exact counts ▸ (clamp_within clamps).1
  dsimp only
  rw [cuts]
  simp only [bind, Except.bind]
  split
  · next first rest stale =>
      obtain ⟨changed, each⟩ := except_mapM_ok (fun cut among => by
        obtain ⟨payload, extracted⟩ := extractSourceSlice_returns (within cut among)
        exact @planChangedSelection_returns snapshot _ first rest cut payload extracted)
      unfold planChangedPath
      rw [each]
      exact ⟨_, rfl⟩
  · obtain ⟨missing, sent⟩ := @missingSourceSegments_returns snapshot clamped
      (priors.filter (·.sourceHash = snapshot.sourceHash)) within
    obtain ⟨full, sent'⟩ := @except_mapM_ok _ _ _
      (fun cut : SelectedRange => cut.sourceSegment snapshot cut.lineRange) clamped
      (fun cut among => by
        obtain ⟨payload, extracted⟩ := extractSourceSlice_returns (within cut among)
        exact ⟨_, SelectedRange.sourceSegment_ok.mpr ⟨payload, extracted, rfl⟩⟩)
    unfold fullSourceSegments
    rw [sent, sent']
    split
    · exact ⟨_, rfl⟩
    · exact ⟨_, rfl⟩

end Plans

section Truth

variable [Difflib] [Sha256] {selections : List SelectedRange}
  {prior : List EvidenceLedgerEntry} {files : String → Option WorktreeFile}

omit [Difflib] in
theorem worktreeReader_counts {path : String} {snapshot : SourceSnapshot}
    (read : worktreeReader files path = some snapshot)
    : snapshot.lineCount = (textLines snapshot.text).length := by
  unfold worktreeReader at read
  split at read
  · cases read
    rfl
  · cases read

/-- Notices are truthful exactly when every selected path can be read and, if its selections
start within it, nothing remains of an entry that is given up. -/
theorem truthfulDeletions_iff
    : TruthfulDeletions selections prior files
      ↔ (∀ path ∈ selections.map (·.path), worktreeReader files path ≠ none)
        ∧ ((∀ selection ∈ selections, ∀ snapshot,
              worktreeReader files selection.path = some snapshot
              → selection.lineRange.start ≤ snapshot.lineCount)
          → ∀ gone, GivesUp selections prior (worktreeReader files) gone
            → ∀ entry ∈ prior, entry.isKnown = true → entry.deletionNotice = gone.deletionNotice
            → ∀ file, files entry.path = some file → ¬ Remains file entry) := by
  constructor
  · intro truth
    have readable : ∀ path ∈ selections.map (·.path), worktreeReader files path ≠ none := by
      intro path selected unread
      obtain ⟨plan, planned, -⟩ := truth.returns path selected unread
      obtain ⟨plans, each, -⟩ := planEvidence_ok planned
      obtain ⟨pathPlan, -, returned⟩ := except_mapM_item each (mem_sortedPaths.mpr selected)
      obtain ⟨snapshot, -, read, -⟩ := planPath_ok returned
      rw [unread] at read
      cases read
    refine ⟨readable, fun starts gone given entry member known same => ?_⟩
    have returns : ∃ plan, planEvidence selections prior (worktreeReader files) = .ok plan
        ∧ True := by
      refine except_bind_returns (except_mapM_ok (fun path listed => ?_)) (fun plans _ =>
        ⟨_, rfl, trivial⟩)
      have selected := mem_sortedPaths.mp listed
      obtain ⟨snapshot, read⟩ := Option.ne_none_iff_exists'.mp (readable path selected)
      refine planPath_returns read (worktreeReader_counts read) (fun selection among => ?_)
      obtain ⟨among, sited⟩ := List.mem_filter.mp among
      exact starts selection among snapshot (of_decide_eq_true sited ▸ read)
    obtain ⟨plan, planned, -⟩ := returns
    refine truth.truthful plan planned entry member known ?_
    rw [same]
    exact (mem_deletionNotices planned).mpr ⟨gone, given, rfl⟩
  · intro ⟨readable, nothing⟩
    constructor
    · intro plan planned entry member known told
      obtain ⟨gone, given, same⟩ := (mem_deletionNotices planned).mp told
      refine nothing (fun selection among snapshot read => ?_) gone given entry member known
        same.symm
      obtain ⟨plans, each, -⟩ := planEvidence_ok planned
      obtain ⟨pathPlan, -, returned⟩ := except_mapM_item each
        (mem_sortedPaths.mpr (List.mem_map_of_mem among))
      obtain ⟨snapshot', clamped, read', cuts, -⟩ := planPath_ok returned
      cases read.symm.trans read'
      obtain ⟨cut, -, clamps⟩ := except_mapM_item cuts
        (List.mem_filter.mpr ⟨among, decide_eq_true rfl⟩)
      exact (clamp_within clamps).2
    · intro path selected unread
      exact absurd unread (readable path selected)

end Truth

/-! Two lines were supplied; a third is written behind them, and the first is selected again. -/
namespace GrownFile

abbrev difflib : Difflib where
  unifiedDiff _ _ _ _ _ := []

abbrev sha256 : Sha256 where
  digest text := "#" ++ text

def second : LineRange := ⟨2, 2, by decide, by decide⟩

def prior : List EvidenceLedgerEntry :=
  [{ path := "a.py", range := .first, sourceHash := "#x\ny", payloadText := some "x" },
    { path := "a.py", range := second, sourceHash := "#x\ny", payloadText := some "y" }]

def selections : List SelectedRange := [⟨"a.py", .first, .contract, "", [], none⟩]

def files : String → Option WorktreeFile := fun path =>
  if path = "a.py" then some (.text "x\ny\nz") else none

def plan : LedgerPlanResult where
  segments := [
    ⟨"a.py", .first, "#x\ny\nz", .diff, "a.py:1-1 -> a.py:1-1\n", [], .contract, "", none⟩]
  deletionNotices := [⟨"a.py", second, "#x\ny"⟩]
  changedNotices := [{
    path := "a.py", priorHash := "#x\ny", currentHash := "#x\ny\nz", overlappingRange := .first }]
  unmappablePaths := []

theorem planned
    : @planEvidence difflib selections prior (@worktreeReader sha256 files) = .ok plan := rfl

/-- The second line is announced as deleted and still there. -/
theorem not_truthful
    : ¬ ∀ [Difflib] [Sha256] (selections : List SelectedRange) (prior : List EvidenceLedgerEntry)
        (files : String → Option WorktreeFile), TruthfulDeletions selections prior files := by
  intro claimed
  have truth := @claimed difflib sha256 selections prior files
  have kept : Remains (.text "x\ny\nz")
      { path := "a.py", range := second, sourceHash := "#x\ny", payloadText := some "y" } :=
    ⟨"y", by decide, by decide, by decide⟩
  have untold := @TruthfulDeletions.truthful difflib selections prior files sha256 truth plan
    planned
  exact untold _ (List.mem_cons_of_mem _ (List.mem_singleton_self _)) rfl
    (List.mem_singleton_self _) _ rfl kept

end GrownFile

end Murder.Evidence

import Murder.Evidence.Planning

/-! Planning again after a delivery.
A second plan is silent exactly when no supplied entry was stale, or of a vanished file.
-/

namespace Murder.Evidence

open Library.Transactions

variable {entry : EvidenceLedgerEntry}

namespace EvidenceLedger

/-- Prepare the segments of a plan and confirm them; a plan without any sends nothing. -/
def deliver (ledger : EvidenceLedger) (segments : List EvidenceSegment) (deliveryId : String)
    : Except LedgerError EvidenceLedger :=
  if segments = [] then
    .ok ledger
  else
    (ledger.prepareEntries (draftsFromSegments segments) deliveryId).map
      (·.markSupplied deliveryId)

theorem filter_isKnown {ledger : EvidenceLedger}
    : ledger.loadSupplied.filter (·.isKnown) = ledger.loadSupplied := by
  refine List.filter_eq_self.mpr (fun entry member => ?_)
  obtain ⟨row, -, supplied, rfl⟩ := mem_loadSupplied.mp member
  show (row.status == .supplied) = true
  rw [supplied]
  rfl

section Deliveries

variable {ledger next : EvidenceLedger} {segments : List EvidenceSegment} {deliveryId : String}

theorem deliver_rows (h : ledger.deliver segments deliveryId = .ok next)
    (some_ : segments ≠ [])
    : ∃ prepared, ledger.prepareEntries (draftsFromSegments segments) deliveryId = .ok prepared
      ∧ next = prepared.markSupplied deliveryId := by
  unfold deliver at h
  rw [if_neg some_] at h
  cases stored : ledger.prepareEntries (draftsFromSegments segments) deliveryId with
  | error raised =>
    rw [stored] at h
    cases h
  | ok prepared =>
    rw [stored] at h
    cases h
    exact ⟨prepared, rfl, rfl⟩

/-- Confirmed entries stay confirmed. -/
theorem deliver_keeps (h : ledger.deliver segments deliveryId = .ok next)
    (member : entry ∈ ledger.loadSupplied)
    : entry ∈ next.loadSupplied := by
  by_cases none_ : segments = []
  · unfold deliver at h
    rw [if_pos none_] at h
    cases h
    exact member
  · obtain ⟨prepared, stored, rfl⟩ := deliver_rows h none_
    obtain ⟨added, rows, -⟩ := prepareEntries_rows stored
    obtain ⟨row, old, supplied, rfl⟩ := mem_loadSupplied.mp member
    refine mem_loadSupplied.mpr ⟨row, mem_settle.mpr ⟨row, ?_, ?_⟩, supplied, rfl⟩
    · exact rows ▸ List.mem_append_left _ old
    · apply if_neg
      intro pending
      rw [supplied] at pending
      cases pending.2

theorem deliver_segment (h : ledger.deliver segments deliveryId = .ok next)
    {segment : EvidenceSegment} (member : segment ∈ segments)
    : ∃ entry ∈ next.loadSupplied, entry.path = segment.path ∧ entry.range = segment.range
      ∧ entry.sourceHash = segment.sourceHash := by
  obtain ⟨prepared, stored, rfl⟩ := deliver_rows h (List.ne_nil_of_mem member)
  obtain ⟨added, rows, -, each⟩ := prepareEntries_rows stored
  obtain ⟨entryId, listed⟩ := each _ (List.mem_map_of_mem member)
  have confirmed := @mem_settle prepared deliveryId .supplied _ |>.mpr
    ⟨_, rows ▸ List.mem_append_right _ listed, if_pos ⟨rfl, rfl⟩⟩
  exact ⟨_, mem_loadSupplied.mpr ⟨_, confirmed, rfl, rfl⟩, rfl, rfl, rfl⟩

theorem deliver_entry (h : ledger.deliver segments deliveryId = .ok next)
    (fresh : ∀ row ∈ ledger.rows, row.deliveryId ≠ deliveryId) (member : entry ∈ next.loadSupplied)
    : entry ∈ ledger.loadSupplied
      ∨ ∃ segment ∈ segments, entry.path = segment.path
        ∧ entry.sourceHash = segment.sourceHash := by
  by_cases none_ : segments = []
  · unfold deliver at h
    rw [if_pos none_] at h
    cases h
    exact .inl member
  · obtain ⟨prepared, stored, rfl⟩ := deliver_rows h none_
    obtain ⟨added, rows, origin, -⟩ := prepareEntries_rows stored
    obtain ⟨row, listed, supplied, rfl⟩ := mem_loadSupplied.mp member
    obtain ⟨old, among, settled⟩ := mem_settle.mp listed
    rw [rows] at among
    rcases List.mem_append.mp among with kept | new
    · rw [if_neg (fun pending => fresh old kept pending.1)] at settled
      subst settled
      exact .inl (mem_loadSupplied.mpr ⟨_, kept, supplied, rfl⟩)
    · obtain ⟨draft, drafted, entryId, rfl⟩ := origin old new
      obtain ⟨segment, sent, rfl⟩ := List.mem_map.mp drafted
      rw [if_pos ⟨rfl, rfl⟩] at settled
      subst settled
      exact .inr ⟨segment, sent, rfl, rfl⟩

end Deliveries

end EvidenceLedger

section Plans

variable [Difflib] {path : String} {selections : List SelectedRange}
  {priors more : List EvidenceLedgerEntry} {reader : SourceReader} {plan : PathPlan}
  {snapshot : SourceSnapshot}

/-- A path without stale entries whose selected lines are all known has nothing to send. -/
theorem planPath_known (planned : planPath path selections priors reader = .ok plan)
    (read : reader path = some snapshot)
    (current : ∀ entry ∈ more, entry.sourceHash = snapshot.sourceHash)
    (known : ∀ selection ∈ selections, ∀ cut, selection.clamp snapshot.lineCount = .ok cut
      → ∀ line, cut.lineRange.Contains line → ∃ entry ∈ more, entry.range.Contains line)
    : planPath path selections more reader = .ok {} := by
  obtain ⟨snapshot', clamped, read', cuts, -⟩ := planPath_ok planned
  obtain rfl : snapshot' = snapshot := Option.some.inj (read'.symm.trans read)
  have all : more.filter (·.sourceHash = snapshot'.sourceHash) = more :=
    List.filter_eq_self.mpr (fun entry member => decide_eq_true (current entry member))
  have none_ : more.filter (·.sourceHash ≠ snapshot'.sourceHash) = [] := by
    refine List.filter_eq_nil_iff.mpr (fun entry member => ?_)
    simpa using current entry member
  have covered : ∀ cut ∈ clamped, ∀ line, cut.lineRange.Contains line
      → ∃ entry ∈ more, entry.range.Contains line := by
    intro cut listed
    obtain ⟨selection, member, clamps⟩ := except_mapM_value cuts listed
    exact known selection member cut clamps
  have nothing : (if more = [] then fullSourceSegments clamped snapshot'
      else missingSourceSegments clamped more snapshot') = .ok [] := by
    split
    · next unknown =>
        cases clamped with
        | nil => rfl
        | cons cut others =>
          obtain ⟨entry, member, -⟩ := covered cut List.mem_cons_self cut.lineRange.start
            ⟨Nat.le_refl _, cut.lineRange.ordered⟩
          rw [unknown] at member
          cases member
    · refine missingSourceSegments_nil (fun cut listed line inside => ?_)
      obtain ⟨entry, member, contains⟩ := covered cut listed line inside
      exact ⟨entry.range, List.mem_map_of_mem member, contains⟩
  unfold planPath
  rw [read]
  dsimp only
  rw [cuts, none_, all]
  simp only [bind, Except.bind]
  by_cases unknown : more = []
  · rw [if_pos unknown] at nothing ⊢
    rw [nothing]
    rfl
  · rw [if_neg unknown] at nothing ⊢
    rw [nothing]
    rfl

theorem planPath_stale (planned : planPath path selections priors reader = .ok plan)
    (read : reader path = some snapshot) (known : entry ∈ priors)
    (kept : entry ∈ more) (stale : entry.sourceHash ≠ snapshot.sourceHash)
    : ∃ again, planPath path selections more reader = .ok again
      ∧ (selections ≠ [] → again.notices ≠ []) := by
  obtain ⟨snapshot', clamped, read', cuts, planned⟩ := planPath_ok planned
  obtain rfl : snapshot' = snapshot := Option.some.inj (read'.symm.trans read)
  rcases planned with ⟨first, rest, -, changes⟩ | ⟨current, -⟩
  · obtain ⟨changed, each, -⟩ := except_bind_ok.mp changes
    have listed : entry ∈ more.filter (·.sourceHash ≠ snapshot'.sourceHash) :=
      List.mem_filter.mpr ⟨kept, decide_eq_true stale⟩
    unfold planPath
    rw [read]
    dsimp only
    rw [cuts]
    cases old : more.filter (·.sourceHash ≠ snapshot'.sourceHash) with
    | nil =>
      rw [old] at listed
      cases listed
    | cons first' rest' =>
      refine except_bind_returns ⟨clamped, rfl⟩ (fun cuts' same => ?_)
      cases same
      refine except_bind_returns (except_mapM_ok (fun cut among => ?_)) (fun again each' => ?_)
      · obtain ⟨change, -, returned⟩ := except_mapM_item each among
        obtain ⟨text, extracted, -⟩ := planChangedSelection_segment returned
        exact planChangedSelection_returns extracted
      · refine ⟨_, rfl, fun some_ silent => ?_⟩
        obtain ⟨selection, others, rfl⟩ := List.exists_cons_of_ne_nil some_
        obtain ⟨cut, among, -⟩ := except_mapM_item cuts List.mem_cons_self
        obtain ⟨change, sent, -⟩ := except_mapM_item each' among
        exact List.ne_nil_of_mem (List.mem_map_of_mem sent) silent
  · exact absurd (current entry known) stale

end Plans

theorem insertionSort_eq_nil {α : Type} {before : α → α → Prop} [DecidableRel before]
    {items : List α}
    : items.insertionSort before = [] ↔ items = [] := by
  rw [← List.length_eq_zero_iff, List.length_insertionSort, List.length_eq_zero_iff]

theorem eraseDups_eq_nil {α : Type} [BEq α] [LawfulBEq α] {items : List α}
    : items.eraseDups = [] ↔ items = [] := by
  simp only [List.eq_nil_iff_forall_not_mem, List.mem_eraseDups]

def LedgerPlanResult.Silent (plan : LedgerPlanResult) : Prop :=
  plan.segments = [] ∧ plan.changedNotices = [] ∧ plan.deletionNotices = []

/-- A supplied entry under the current hash of its file, or of an unselected file that exists. -/
def EvidenceLedgerEntry.UpToDate (selections : List SelectedRange) (reader : SourceReader)
    (entry : EvidenceLedgerEntry)
    : Prop :=
  if entry.path ∈ selections.map (·.path) then
    ∀ snapshot, reader entry.path = some snapshot → entry.sourceHash = snapshot.sourceHash
  else
    reader entry.path ≠ none

theorem deletionsForMissingFiles_nil {known : List EvidenceLedgerEntry} {selected : List String}
    {reader : SourceReader}
    : deletionsForMissingFiles known selected reader = []
      ↔ ∀ entry ∈ known, entry.path ∉ selected → reader entry.path ≠ none := by
  unfold deletionsForMissingFiles
  simp only [List.flatMap_eq_nil_iff, List.mem_filter, mem_sortedPaths, List.map_eq_nil_iff,
    List.filter_eq_nil_iff, decide_eq_true_eq, Option.isNone_iff_eq_none]
  constructor
  · intro silent entry member unselected missing
    exact silent entry.path ⟨List.mem_map_of_mem member, unselected, missing⟩ entry member rfl
  · intro exist path missing entry member same
    subst same
    exact exist entry member missing.2.1 missing.2.2

section Replanning

variable [Difflib] {ledger next : EvidenceLedger} {selections : List SelectedRange}
  {reader : SourceReader} {plan : LedgerPlanResult} {deliveryId : String}

/-- The second plan of a selected path sends nothing where its entries were all current. -/
theorem planPath_again (fresh : ∀ row ∈ ledger.rows, row.deliveryId ≠ deliveryId)
    (planned : planEvidence selections ledger.loadSupplied reader = .ok plan)
    (delivered : ledger.deliver plan.segments deliveryId = .ok next)
    {path : String} (selected : path ∈ selections.map (·.path))
    : ∃ again, planPath path (selections.filter (·.path = path))
          (next.loadSupplied.filter (·.path = path)) reader = .ok again
      ∧ ((again.segments = [] ∧ again.notices = [] ∧ again.deletions = [])
        ↔ ∀ entry ∈ ledger.loadSupplied, entry.path = path
          → ∀ snapshot, reader path = some snapshot → entry.sourceHash = snapshot.sourceHash) := by
  obtain ⟨plans, each, -⟩ := planEvidence_ok planned
  obtain ⟨first, -, returned⟩ := except_mapM_item each (mem_sortedPaths.mpr selected)
  obtain ⟨snapshot, clamped, read, -⟩ := planPath_ok returned
  by_cases current : ∀ entry ∈ ledger.loadSupplied, entry.path = path
      → entry.sourceHash = snapshot.sourceHash
  · have known : planPath path (selections.filter (·.path = path))
        (next.loadSupplied.filter (·.path = path)) reader = .ok {} := by
      refine planPath_known returned read ?_ ?_
      · intro entry member
        obtain ⟨member, same⟩ := List.mem_filter.mp member
        have same := of_decide_eq_true same
        rcases EvidenceLedger.deliver_entry delivered fresh member with old | new
        · exact current entry old same
        · obtain ⟨segment, sent, sited, hash⟩ := new
          obtain ⟨-, snapshot', read', hash', -⟩ := planEvidence_segment planned sent
          rw [← sited, same, read] at read'
          cases read'
          exact hash.trans hash'
      · intro selection member cut clamps line inside
        obtain ⟨member, same⟩ := List.mem_filter.mp member
        have same := of_decide_eq_true same
        subst same
        have among := (List.mem_filter.mp member).1
        rcases planEvidence_line planned among read clamps inside with sent | kept
        · obtain ⟨segment, sent, sited, contains⟩ := sent
          obtain ⟨entry, listed, path, range, -⟩ :=
            EvidenceLedger.deliver_segment delivered sent
          exact ⟨entry, List.mem_filter.mpr ⟨listed, decide_eq_true (path.trans sited)⟩,
            range ▸ contains⟩
        · obtain ⟨-, entry, old, -, sited, contains⟩ := kept
          exact ⟨entry, List.mem_filter.mpr
            ⟨EvidenceLedger.deliver_keeps delivered old, decide_eq_true sited⟩, contains⟩
    refine ⟨{}, known, fun _ entry member same snapshot' read' => ?_, fun _ => ⟨rfl, rfl, rfl⟩⟩
    cases read.symm.trans read'
    exact current entry member same
  · push Not at current
    obtain ⟨entry, member, same, stale⟩ := current
    have listed : ∀ {supplied : List EvidenceLedgerEntry}, entry ∈ supplied
        → entry ∈ supplied.filter (·.path = path) :=
      fun among => List.mem_filter.mpr ⟨among, decide_eq_true same⟩
    rw [EvidenceLedger.filter_isKnown] at returned
    obtain ⟨again, replanned, loud⟩ := planPath_stale returned read (listed member)
      (listed (EvidenceLedger.deliver_keeps delivered member)) stale
    refine ⟨again, replanned, fun silent => ?_, fun current => ?_⟩
    · obtain ⟨selection, among, rfl⟩ := List.mem_map.mp selected
      exact absurd silent.2.1
        (loud (List.ne_nil_of_mem (List.mem_filter.mpr ⟨among, decide_eq_true rfl⟩)))
    · exact absurd (current entry member same snapshot read) stale

/-- The second plan is silent where every supplied entry was up to date before the first. -/
theorem planEvidence_again (fresh : ∀ row ∈ ledger.rows, row.deliveryId ≠ deliveryId)
    (planned : planEvidence selections ledger.loadSupplied reader = .ok plan)
    (delivered : ledger.deliver plan.segments deliveryId = .ok next)
    : ∃ again, planEvidence selections next.loadSupplied reader = .ok again
      ∧ (again.Silent ↔ ∀ entry ∈ ledger.loadSupplied, entry.UpToDate selections reader) := by
  unfold planEvidence
  dsimp only
  rw [EvidenceLedger.filter_isKnown]
  refine except_bind_returns (except_mapM_ok (fun path selected => ?_)) (fun plans each => ?_)
  · obtain ⟨again, returned, -⟩ :=
      planPath_again fresh planned delivered (mem_sortedPaths.mp selected)
    exact ⟨again, returned⟩
  · refine ⟨_, rfl, ?_⟩
    have silent : ∀ {path : String} {again : PathPlan},
        planPath path (selections.filter (·.path = path))
          (next.loadSupplied.filter (·.path = path)) reader = .ok again
        → path ∈ selections.map (·.path)
        → ((again.segments = [] ∧ again.notices = [] ∧ again.deletions = [])
          ↔ ∀ entry ∈ ledger.loadSupplied, entry.path = path
            → ∀ snapshot, reader path = some snapshot
              → entry.sourceHash = snapshot.sourceHash) := by
      intro path again returned selected
      obtain ⟨again', returned', alike⟩ := planPath_again fresh planned delivered selected
      cases returned.symm.trans returned'
      exact alike
    unfold LedgerPlanResult.Silent
    simp only [insertionSort_eq_nil, eraseDups_eq_nil, List.append_eq_nil_iff,
      List.flatMap_eq_nil_iff, deletionsForMissingFiles_nil, mem_sortedPaths]
    constructor
    · intro ⟨segments, notices, missing, deletions⟩ entry member
      unfold EvidenceLedgerEntry.UpToDate
      split
      · next selected =>
          obtain ⟨again, listed, returned⟩ :=
            except_mapM_item each (mem_sortedPaths.mpr selected)
          exact (silent returned selected).mp
            ⟨segments again listed, notices again listed, deletions again listed⟩ entry member rfl
      · next unselected =>
          exact missing entry (EvidenceLedger.deliver_keeps delivered member) unselected
    · intro current
      have quiet : ∀ again ∈ plans,
          again.segments = [] ∧ again.notices = [] ∧ again.deletions = [] := by
        intro again listed
        obtain ⟨path, selected, returned⟩ := except_mapM_value each listed
        have selected := mem_sortedPaths.mp selected
        refine (silent returned selected).mpr (fun entry member same => ?_)
        subst same
        have upToDate := current entry member
        unfold EvidenceLedgerEntry.UpToDate at upToDate
        rwa [if_pos selected] at upToDate
      refine ⟨fun again listed => (quiet again listed).1,
        fun again listed => (quiet again listed).2.1, ?_,
        fun again listed => (quiet again listed).2.2⟩
      intro entry member unselected
      rcases EvidenceLedger.deliver_entry delivered fresh member with old | new
      · have upToDate := current entry old
        unfold EvidenceLedgerEntry.UpToDate at upToDate
        rwa [if_neg unselected] at upToDate
      · obtain ⟨segment, sent, sited, -⟩ := new
        exact absurd (sited ▸ (planEvidence_segment planned sent).1) unselected

end Replanning

/-! The recipient holds the first line under an old hash; the file changed behind it. -/
namespace ChangedFile

/-- Equal excerpts have no difference. -/
abbrev difflib : Difflib where
  unifiedDiff _ _ _ _ _ := []

def ledger : EvidenceLedger where
  rows := [⟨1, "deliv-1", "a.py", .first, "old", "x", .contract, .source, .supplied⟩]
  nextEntryId := 2

def selections : List SelectedRange := [⟨"a.py", .first, .contract, "", [], none⟩]

def reader : SourceReader := fun path =>
  if path = "a.py" then some ⟨"x\ny", "new", 2⟩ else none

def plan : LedgerPlanResult where
  segments := [
    ⟨"a.py", .first, "new", .diff, "a.py:1-1 -> a.py:1-1\n", [], .contract, "", none⟩]
  deletionNotices := []
  changedNotices := [{
    path := "a.py", priorHash := "old", currentHash := "new", overlappingRange := .first }]
  unmappablePaths := []

def delivered : EvidenceLedger where
  rows := ledger.rows ++ [⟨2, "deliv-2", "a.py", .first, "new", "a.py:1-1 -> a.py:1-1\n",
    .contract, .diff, .supplied⟩]
  nextEntryId := 3

theorem fresh : ∀ row ∈ ledger.rows, row.deliveryId ≠ "deliv-2" := by
  decide

theorem planned : @planEvidence difflib selections ledger.loadSupplied reader = .ok plan := rfl

theorem supplied : ledger.deliver plan.segments "deliv-2" = .ok delivered := rfl

/-- The same plan again. -/
theorem replanned
    : @planEvidence difflib selections delivered.loadSupplied reader = .ok plan := rfl

theorem again_silent_iff
    : ∃ again, @planEvidence difflib selections delivered.loadSupplied reader = .ok again
      ∧ (again.Silent
        ↔ ∀ entry ∈ ledger.loadSupplied, entry.UpToDate selections reader) :=
  @planEvidence_again difflib ledger delivered selections reader plan "deliv-2" fresh planned
    supplied

/-- The confirmed diff is sent again. -/
theorem sends_again
    : ¬ ∀ [Difflib] (ledger next : EvidenceLedger) (selections : List SelectedRange)
        (reader : SourceReader) (plan : LedgerPlanResult) (deliveryId : String),
      (∀ row ∈ ledger.rows, row.deliveryId ≠ deliveryId)
      → planEvidence selections ledger.loadSupplied reader = .ok plan
      → ledger.deliver plan.segments deliveryId = .ok next
      → ∃ again, planEvidence selections next.loadSupplied reader = .ok again ∧ again.Silent := by
  intro reaches
  obtain ⟨again, returned, silent⟩ :=
    @reaches difflib ledger delivered selections reader plan "deliv-2" fresh planned supplied
  rw [replanned] at returned
  cases returned
  cases silent.1

end ChangedFile

end Murder.Evidence

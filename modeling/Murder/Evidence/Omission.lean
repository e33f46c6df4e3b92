import Murder.Evidence.Planning
import Murder.Library.Runs

/-! Histories of file contents, plans and deliveries.
A selected line that a plan leaves out is a line of a payload the recipient already has.
-/

namespace Murder.Evidence

open Contracts Library.Runs

/-- `hashlib.sha256` of the bytes of a text. -/
class Sha256 where
  digest : String → String

/-- `FilesystemSourceReader.read` over the texts of the worktree. -/
def fileReader [Sha256] (files : String → Option String) : SourceReader := fun path =>
  (files path).map (fun text => ⟨text, Sha256.digest text, (textLines text).length⟩)

/-- A worktree with the ledger of one recipient. -/
structure Worktree where
  files : String → Option String
  /-- The texts that a file ever had. -/
  contents : List String
  ledger : EvidenceLedger
  /-- What the plans so far asked to deliver. -/
  planned : List (List LedgerEntryDraft)

namespace Worktree

/-- No file was written and nothing was delivered. -/
def IsInitial (w : Worktree) : Prop :=
  (∀ path, w.files path = none) ∧ w.ledger.rows = [] ∧ w.planned = []

end Worktree

inductive WorktreeEvent
  | write (path : String) (text : Option String)
  | plan (selections : List SelectedRange)
  | prepare (drafts : List LedgerEntryDraft) (deliveryId : String)
  | supply (deliveryId : String)
  | abandon (deliveryId : String)

/-- Writing and planning and the three ledger operations, in any order. -/
inductive WorktreeStep [Difflib] [Sha256] : Worktree → WorktreeEvent → Worktree → Prop
  | write {w : Worktree} (path text)
    : WorktreeStep w (.write path text)
        { w with
          files := Function.update w.files path text
          contents := text.toList ++ w.contents }
  | plan {w : Worktree} {selections plan}
    (planned : planEvidence selections w.ledger.loadSupplied (fileReader w.files) = .ok plan)
    : WorktreeStep w (.plan selections)
        { w with planned := draftsFromSegments plan.segments :: w.planned }
  | prepare {w : Worktree} {drafts deliveryId next} (asked : drafts ∈ w.planned)
    (prepared : w.ledger.prepareEntries drafts deliveryId = .ok next)
    : WorktreeStep w (.prepare drafts deliveryId) { w with ledger := next }
  | supply {w : Worktree} (deliveryId)
    : WorktreeStep w (.supply deliveryId)
        { w with ledger := w.ledger.markSupplied deliveryId }
  | abandon {w : Worktree} (deliveryId)
    : WorktreeStep w (.abandon deliveryId)
        { w with ledger := w.ledger.markAbandoned deliveryId }

def EvidenceRow.draft (row : EvidenceRow) : LedgerEntryDraft :=
  ⟨row.path, row.range, row.sourceHash, row.text, row.category, row.payloadKind⟩

def KeepsSupplied (before after : List EvidenceRow) : Prop :=
  ∀ row ∈ before, row.status = .supplied → row ∈ after

variable {deliveryId : String} {status : EvidenceLedgerStatus}

theorem keepsSupplied_settle {ledger : EvidenceLedger}
    : KeepsSupplied ledger.rows (ledger.settle deliveryId status).rows := by
  intro row listed supplied
  refine EvidenceLedger.mem_settle.mpr ⟨row, listed, if_neg (fun pending => ?_)⟩
  rw [supplied] at pending
  cases pending.2

/-- Settling changes no payload. -/
theorem settle_draft {ledger : EvidenceLedger} {row : EvidenceRow}
    (member : row ∈ (ledger.settle deliveryId status).rows)
    : ∃ old ∈ ledger.rows, row.draft = old.draft := by
  obtain ⟨old, listed, settled⟩ := EvidenceLedger.mem_settle.mp member
  refine ⟨old, listed, ?_⟩
  rw [← settled]
  split
  · rfl
  · rfl

theorem extractSourceSlice_line {text payload : String} {range : LineRange}
    (h : extractSourceSlice text range = .ok payload) {line : Nat}
    (inside : range.Contains line)
    : (splitNewlines payload)[line - range.start]? = (textLines text)[line - 1]? := by
  unfold extractSourceSlice at h
  dsimp only at h
  split at h
  · cases h
  · next within =>
      cases h
      have positive := range.positive
      obtain ⟨behind, before⟩ := inside
      rw [splitNewlines_joinLines]
      · rw [List.getElem?_drop, List.getElem?_take_of_lt (by omega)]
        congr 1
        omega
      · intro empty
        have length := congrArg List.length empty
        simp at length
        have ordered := range.ordered
        omega
      · intro line member
        exact textLines_newline (List.mem_of_mem_take (List.mem_of_mem_drop member))

theorem SelectedRange.clamp_contains {selection : SelectedRange} {lineCount line : Nat}
    (inside : selection.lineRange.Contains line) (within : line ≤ lineCount)
    : ∃ cut, selection.clamp lineCount = .ok cut ∧ cut.lineRange.Contains line := by
  have positive := selection.lineRange.positive
  obtain ⟨behind, before⟩ := inside
  unfold clamp clampRange
  rw [if_neg (by omega), dif_neg (by omega)]
  exact ⟨_, rfl, behind, le_min before within⟩

section Histories

variable [Sha256]

/-- A source payload is the exact slice of a content under its hash;
a diff has a confirmed entry of its path under another hash. -/
def LedgerEntryDraft.Backed (draft : LedgerEntryDraft) (contents : List String)
    (rows : List EvidenceRow)
    : Prop :=
  match draft.payloadKind with
  | .source => ∃ text ∈ contents, draft.sourceHash = Sha256.digest text
      ∧ extractSourceSlice text draft.range = .ok draft.text
  | .diff => ∃ row ∈ rows, row.status = .supplied ∧ row.path = draft.path
      ∧ row.sourceHash ≠ draft.sourceHash

/-- Contents are recorded, and everything planned or prepared is backed. -/
structure Worktree.Sound (w : Worktree) : Prop where
  recorded : ∀ path text, w.files path = some text → text ∈ w.contents
  rows : ∀ row ∈ w.ledger.rows, row.draft.Backed w.contents w.ledger.rows
  planned : ∀ drafts ∈ w.planned, ∀ draft ∈ drafts, draft.Backed w.contents w.ledger.rows

theorem LedgerEntryDraft.Backed.mono {draft : LedgerEntryDraft} {contents more : List String}
    {rows after : List EvidenceRow} (backed : draft.Backed contents rows)
    (recorded : contents ⊆ more) (kept : KeepsSupplied rows after)
    : draft.Backed more after := by
  unfold Backed at backed ⊢
  cases kind : draft.payloadKind with
  | source =>
    rw [kind] at backed
    obtain ⟨text, had, slice⟩ := backed
    exact ⟨text, recorded had, slice⟩
  | diff =>
    rw [kind] at backed
    obtain ⟨row, listed, supplied, other⟩ := backed
    exact ⟨row, kept row listed supplied, supplied, other⟩

theorem Worktree.Sound.settle {w : Worktree} (sound : w.Sound)
    : Worktree.Sound { w with ledger := w.ledger.settle deliveryId status } where
  recorded := sound.recorded
  rows row listed := by
    obtain ⟨old, before, same⟩ := settle_draft listed
    rw [same]
    exact (sound.rows old before).mono (List.Subset.refl _) keepsSupplied_settle
  planned drafts asked draft member :=
    (sound.planned drafts asked draft member).mono (List.Subset.refl _) keepsSupplied_settle

/-- Planned segments are backed by the files read and the entries that were stale. -/
theorem Worktree.Sound.plan [Difflib] {w : Worktree} (sound : w.Sound)
    {selections : List SelectedRange} {plan : LedgerPlanResult}
    (planned : planEvidence selections w.ledger.loadSupplied (fileReader w.files) = .ok plan)
    : ∀ draft ∈ draftsFromSegments plan.segments,
        draft.Backed w.contents w.ledger.rows := by
  intro draft member
  obtain ⟨segment, sent, rfl⟩ := List.mem_map.mp member
  obtain ⟨-, snapshot, read, hash, kinds⟩ := planEvidence_segment planned sent
  obtain ⟨text, stored, rfl⟩ := Option.map_eq_some_iff.mp read
  unfold LedgerEntryDraft.Backed
  rcases kinds with ⟨kind, slice⟩ | ⟨kind, entry, known, -, same, stale⟩
  · rw [kind]
    exact ⟨text, sound.recorded _ text stored, hash, slice⟩
  · obtain ⟨row, listed, supplied, rfl⟩ := EvidenceLedger.mem_loadSupplied.mp known
    rw [kind]
    exact ⟨row, listed, supplied, same, fun equal => stale (equal.trans hash)⟩

/-- One event keeps the ledger backed. -/
theorem Worktree.Sound.step [Difflib] {w after : Worktree} {event : WorktreeEvent}
    (sound : w.Sound) (step : WorktreeStep w event after)
    : after.Sound := by
  cases step with
  | write path text =>
    have more : w.contents ⊆ text.toList ++ w.contents := List.subset_append_right _ _
    have kept : KeepsSupplied w.ledger.rows w.ledger.rows := fun _ listed _ => listed
    refine ⟨fun other content stored => ?_, fun row listed => ?_,
      fun drafts asked draft member => ?_⟩
    · dsimp only at stored
      by_cases written : other = path
      · subst written
        rw [Function.update_self] at stored
        exact List.mem_append_left _ (Option.mem_toList.mpr stored)
      · rw [Function.update_of_ne written] at stored
        exact more (sound.recorded other content stored)
    · exact (sound.rows row listed).mono more kept
    · exact (sound.planned drafts asked draft member).mono more kept
  | plan planned =>
    refine ⟨sound.recorded, sound.rows, fun drafts asked => ?_⟩
    rcases List.mem_cons.mp asked with new | earlier
    · subst new
      exact sound.plan planned
    · exact sound.planned drafts earlier
  | prepare asked prepared =>
    obtain ⟨added, rows, origin, -⟩ := EvidenceLedger.prepareEntries_rows prepared
    have kept : KeepsSupplied w.ledger.rows _ :=
      fun row listed _ => rows ▸ List.mem_append_left added listed
    refine ⟨sound.recorded, fun row listed => ?_, fun drafts asked draft member => ?_⟩
    · rw [rows] at listed
      rcases List.mem_append.mp listed with old | new
      · exact (sound.rows row old).mono (List.Subset.refl _) kept
      · obtain ⟨draft, among, entryId, rfl⟩ := origin row new
        exact (sound.planned _ asked draft among).mono (List.Subset.refl _) kept
    · exact (sound.planned drafts asked draft member).mono (List.Subset.refl _) kept
  | supply deliveryId => exact sound.settle
  | abandon deliveryId => exact sound.settle

theorem sound_of_run [Difflib] {events : List WorktreeEvent} {w : Worktree}
    (run : Run Worktree.IsInitial WorktreeStep events w)
    : w.Sound := by
  refine run.invariant (fun start initial => ?_) (fun _ _ _ sound step => sound.step step)
  obtain ⟨empty, rows, planned⟩ := initial
  refine ⟨fun path text stored => ?_, fun row listed => ?_, fun drafts asked => ?_⟩
  · rw [empty path] at stored
    cases stored
  · rw [rows] at listed
    cases listed
  · rw [planned] at asked
    cases asked

/-- The payload of `entry` shows the recipient this text of `line`. -/
def EvidenceLedgerEntry.Shows (entry : EvidenceLedgerEntry) (line : Nat) (text : String)
    : Prop :=
  ∃ payload, entry.payloadText = some payload
    ∧ (splitNewlines payload)[line - entry.range.start]? = some text

/-- A selected line of a current file that a plan leaves out is shown by a source payload
supplied before, if no two contents of the history share a digest. -/
theorem omission_sound [Difflib] {events : List WorktreeEvent} {w : Worktree}
    (run : Run Worktree.IsInitial WorktreeStep events w)
    (collisionFree : ∀ left ∈ w.contents, ∀ right ∈ w.contents,
      Sha256.digest left = Sha256.digest right → left = right)
    {selections : List SelectedRange} {plan : LedgerPlanResult}
    (planned : planEvidence selections w.ledger.loadSupplied (fileReader w.files) = .ok plan)
    {selection : SelectedRange} (selected : selection ∈ selections) {text lineText : String}
    (current : w.files selection.path = some text) {line : Nat}
    (inside : selection.lineRange.Contains line)
    (present : (textLines text)[line - 1]? = some lineText)
    (omitted : ∀ segment ∈ plan.segments, segment.path = selection.path
      → ¬ segment.range.Contains line)
    : ∃ entry ∈ w.ledger.loadSupplied, entry.path = selection.path
        ∧ entry.payloadKind = .source ∧ entry.range.Contains line
        ∧ entry.Shows line lineText := by
  have sound := sound_of_run run
  have read : fileReader w.files selection.path
      = some ⟨text, Sha256.digest text, (textLines text).length⟩ :=
    Option.map_eq_some_iff.mpr ⟨text, current, rfl⟩
  have within : line ≤ (textLines text).length := by
    obtain ⟨bound, -⟩ := List.getElem?_eq_some_iff.mp present
    omega
  obtain ⟨cut, clamps, contains⟩ := SelectedRange.clamp_contains inside within
  rcases planEvidence_line planned selected read clamps contains with sent | known
  · obtain ⟨segment, listed, same, covers⟩ := sent
    exact absurd covers (omitted segment listed same)
  · obtain ⟨fresh, entry, listed, -, same, covers⟩ := known
    obtain ⟨row, stored, supplied, rfl⟩ := EvidenceLedger.mem_loadSupplied.mp listed
    have hash : ∀ other ∈ w.ledger.rows, other.status = .supplied
        → other.path = selection.path → other.sourceHash = Sha256.digest text := by
      intro other among confirmed sited
      refine fresh _ (EvidenceLedger.mem_loadSupplied.mpr ⟨other, among, confirmed, rfl⟩) ?_ sited
      exact beq_iff_eq.mpr confirmed
    have backed := sound.rows row stored
    unfold LedgerEntryDraft.Backed at backed
    refine ⟨row.entry, listed, same, ?_⟩
    cases kind : row.payloadKind with
    | source =>
      rw [show row.draft.payloadKind = .source from kind] at backed
      obtain ⟨old, had, digest, slice⟩ := backed
      -- no other content has the digest of the current text
      obtain rfl : old = text := collisionFree old had text (sound.recorded _ text current)
        (digest.symm.trans (hash row stored supplied same))
      exact ⟨kind, covers, row.text, rfl, (extractSourceSlice_line slice covers).trans present⟩
    | diff =>
      rw [show row.draft.payloadKind = .diff from kind] at backed
      obtain ⟨other, among, confirmed, sited, differs⟩ := backed
      have equal := (hash other among confirmed (sited.trans same)).trans
        (hash row stored supplied same).symm
      exact absurd equal differs

end Histories

/-! One file, whose first line is planned, prepared and supplied. -/
namespace OneDelivery

abbrev difflib : Difflib where
  unifiedDiff _ _ _ _ _ := []

abbrev sha256 : Sha256 where
  digest text := "#" ++ text

def selection : SelectedRange := ⟨"a.py", .first, .contract, "", [], none⟩

def files : String → Option String :=
  Function.update (fun _ => none) "a.py" (some "x\ny")

def segment : EvidenceSegment :=
  ⟨"a.py", .first, "#x\ny", .source, "x", [], .contract, "", none⟩

def plan : LedgerPlanResult := ⟨[segment], [], [], []⟩

def row : EvidenceRow :=
  ⟨1, "deliv-1", "a.py", .first, "#x\ny", "x", .contract, .source, .prepared⟩

def worktree : Worktree where
  files := files
  contents := ["x\ny"]
  ledger := { rows := [{ row with status := .supplied }], nextEntryId := 2 }
  planned := [draftsFromSegments plan.segments]

theorem run
    : Run Worktree.IsInitial (@WorktreeStep difflib sha256)
        [.write "a.py" (some "x\ny"), .plan [selection],
          .prepare (draftsFromSegments plan.segments) "deliv-1", .supply "deliv-1"]
        worktree := by
  let := difflib
  let := sha256
  have planned : @planEvidence difflib [selection] [] (@fileReader sha256 files) = .ok plan := rfl
  have prepared : EvidenceLedger.prepareEntries {} (draftsFromSegments plan.segments) "deliv-1"
      = .ok { rows := [row], nextEntryId := 2 } := rfl
  refine ⟨⟨fun _ => none, [], {}, []⟩, ⟨fun _ => rfl, rfl, rfl⟩, ?_⟩
  refine .cons (.write "a.py" (some "x\ny")) ?_
  refine .cons (.plan planned) ?_
  refine .cons (.prepare List.mem_cons_self prepared) ?_
  exact .cons (.supply "deliv-1") (.nil worktree)

/-- The first line is not planned again; the supplied payload shows it. -/
theorem shows_first_line
    : ∃ entry ∈ worktree.ledger.loadSupplied, entry.path = "a.py"
        ∧ entry.payloadKind = .source ∧ entry.range.Contains 1 ∧ entry.Shows 1 "x" := by
  have planned : @planEvidence difflib [selection] worktree.ledger.loadSupplied
      (@fileReader sha256 worktree.files) = .ok ⟨[], [], [], []⟩ := rfl
  refine @omission_sound sha256 difflib _ _ run ?_ _ _ planned _ List.mem_cons_self "x\ny" "x"
    rfl 1 (by decide) rfl (fun segment member => nomatch member)
  decide

end OneDelivery

end Murder.Evidence

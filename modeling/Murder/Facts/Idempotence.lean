import Mathlib.Data.List.Induction
import Murder.Facts.SharedLog

/-! Repeating an append, reusing its fact id, and which of its inputs are recorded. -/

namespace Murder.Facts

open Contracts Storage Library.Tables Library.Transactions

/-- What a row records, without its number and its time. -/
def InputRow.content (row : InputRow) : Uuid × Option Uuid × ProjectionInputDraft :=
  (row.repositoryId, row.record.sourceFactId, {
    inputId := row.record.inputId
    projection := row.record.projection
    subjectKey := row.record.subjectKey
    generation := row.record.generation
  })

variable {item : ProjectionInputDraft} {log start stop : SharedLog}
  {items : List ProjectionInputDraft} {draft : RetainedFactDraft}

namespace SharedLog

/-- Both items ask for the same projection, subject and generation. -/
def SameKey (left right : ProjectionInputDraft) : Prop :=
  left.projection = right.projection ∧ left.subjectKey = right.subjectKey
    ∧ left.generation = right.generation

instance decidableSameKey (left right : ProjectionInputDraft) : Decidable (SameKey left right) :=
  inferInstanceAs (Decidable (_ ∧ _ ∧ _))

/-- The items can both be stored as inputs of one fact. -/
def Apart (left right : ProjectionInputDraft) : Prop :=
  left.inputId ≠ right.inputId ∧ ¬ SameKey left right

instance decidableApart (left right : ProjectionInputDraft) : Decidable (Apart left right) :=
  inferInstanceAs (Decidable (_ ∧ _))

def Recorded (log : SharedLog) (repositoryId factId : Uuid) (item : ProjectionInputDraft) : Prop :=
  ∃ row ∈ log.inputs.rows, row.repositoryId = repositoryId
    ∧ row.record.sourceFactId = some factId ∧ SameKey row.content.2.2 item

/-- What stands in the way of the item: its input id is used in the repository, or its key is
an input of the fact.
-/
def Blocks (repositoryId factId : Uuid) (item : ProjectionInputDraft)
    (content : Uuid × Option Uuid × ProjectionInputDraft) : Prop :=
  (content.1 = repositoryId ∧ content.2.2.inputId = item.inputId)
    ∨ (content.2.1 = some factId ∧ SameKey content.2.2 item)

instance decidableBlocks (repositoryId factId : Uuid) (item : ProjectionInputDraft)
    (content : Uuid × Option Uuid × ProjectionInputDraft)
    : Decidable (Blocks repositoryId factId item content) :=
  inferInstanceAs (Decidable (_ ∨ _))

def isFree (log : SharedLog) (repositoryId factId : Uuid) (item : ProjectionInputDraft) : Bool :=
  log.inputs.rows.all (fun row => ¬ Blocks repositoryId factId item row.content)

/-- The items that are kept when the list is gone through in order, each if neither a stored
row nor an item kept before it stands in its way; the last one first.
-/
def newInputs (log : SharedLog) (repositoryId factId : Uuid) (items : List ProjectionInputDraft)
    : List ProjectionInputDraft :=
  (items.reverse.filter (log.isFree repositoryId factId)).pwFilter Apart

/-- Every requested key is recorded already, or is that of an item that is kept. -/
def Covered (log : SharedLog) (repositoryId factId : Uuid) (items : List ProjectionInputDraft)
    : Prop :=
  ∀ item ∈ items, log.Recorded repositoryId factId item
    ∨ ∃ kept ∈ log.newInputs repositoryId factId items, SameKey kept item

def Fits (log : SharedLog) (repositoryId : Uuid) (draft : RetainedFactDraft) : Prop :=
  ∀ row ∈ log.retained.rows, row.record.factId = draft.factId
    → row.repositoryId = repositoryId ∧ sameFact row.record draft = true

/-- The same facts and the same inputs. -/
structure SameLog (left right : SharedLog) : Prop where
  retained : left.retained = right.retained
  inputs : left.inputs = right.inputs

/-- An append is idempotent and conflict-atomic, and records what it is asked to. The log it
starts in may hold the writes of an outer transaction.
-/
structure Appends (log : SharedLog) (repositoryId : Uuid) (draft : RetainedFactDraft)
    (items : List ProjectionInputDraft) (recordedAt : Timestamp) (burns : Bool) : Prop where
  again : ∀ value stop,
    Returns (SharedLog.appendFact repositoryId draft items recordedAt burns) log value stop →
      ∀ later, ∃ last, SameLog last stop
        ∧ Returns (SharedLog.appendFact repositoryId draft items later burns) stop value last
  conflict : (∃ row ∈ log.retained.rows, row.record.factId = draft.factId
      ∧ sameFact row.record draft = false) →
    ∃ failure,
      Raises (SharedLog.appendFact repositoryId draft items recordedAt burns) log failure log
  recorded : ∀ value stop,
    Returns (SharedLog.appendFact repositoryId draft items recordedAt burns) log value stop →
      ∀ item ∈ items, stop.Recorded repositoryId draft.factId item

variable {repositoryId factId : Uuid} {createdAt : Timestamp} {burns : Bool}

theorem inputRowClash_iff {row new : InputRow}
    (content : new.content = (repositoryId, some factId, item))
    : inputRowClash row new = true ↔ Blocks repositoryId factId item row.content := by
  have own := (Prod.mk.injEq ..).mp content
  have rest := (Prod.mk.injEq ..).mp own.2
  obtain ⟨rfl, source, rfl⟩ := And.intro own.1 rest
  cases stored : row.record.sourceFactId with
  | none => simp [inputRowClash, Blocks, InputRow.content, sameKey, stored]
  | some id =>
    simp [inputRowClash, Blocks, InputRow.content, sameKey, stored, source, SameKey, and_assoc]

/-- An item that a stored row stands in the way of is dropped. -/
theorem insertInput_blocked {log : SharedLog} {item : ProjectionInputDraft}
    (blocked : ∃ row ∈ log.inputs.rows, Blocks repositoryId factId item row.content)
    : (insertInput repositoryId (some factId) createdAt burns item log).inputs = log.inputs := by
  unfold insertInput
  dsimp only
  split
  · next inputs inserted =>
      obtain ⟨row, stored, blocks⟩ := blocked
      have apart := (Table.insert?_eq_some inserted).1 row stored
      rw [(inputRowClash_iff rfl).mpr blocks] at apart
      cases apart
  · rfl

/-- Every other item is stored. -/
theorem insertInput_free
    (free : ∀ row ∈ log.inputs.rows, ¬ Blocks repositoryId factId item row.content)
    : (insertInput repositoryId (some factId) createdAt burns item log).inputs.rows.map
        InputRow.content
      = log.inputs.rows.map InputRow.content ++ [(repositoryId, some factId, item)] := by
  unfold insertInput
  dsimp only
  split
  · next inputs inserted =>
      rw [(Table.insert?_eq_some inserted).2, List.map_append]
      rfl
  · next refused =>
      have apart : ∀ row ∈ log.inputs, inputRowClash row {
          repositoryId := repositoryId
          record := {
            sequence := log.lastInputSequence + 1
            inputId := item.inputId
            sourceFactId := some factId
            projection := item.projection
            subjectKey := item.subjectKey
            generation := item.generation
            createdAt := createdAt
          } } = false := by
        intro row stored
        exact Bool.eq_false_iff.mpr (fun clash =>
          free row stored ((inputRowClash_iff rfl).mp clash))
      obtain ⟨inputs, inserted, _⟩ := Table.insert?_of_apart apart
      rw [inserted] at refused
      cases refused

theorem insertInput_retained (item : ProjectionInputDraft) (log : SharedLog)
    : (insertInput repositoryId (some factId) createdAt burns item log).retained
      = log.retained := by
  unfold insertInput
  dsimp only
  split <;> rfl

theorem newInputs_concat (log : SharedLog) (items : List ProjectionInputDraft)
    (item : ProjectionInputDraft)
    : log.newInputs repositoryId factId (items ++ [item])
      = if log.isFree repositoryId factId item = true
          ∧ ∀ kept ∈ log.newInputs repositoryId factId items, Apart item kept then
          item :: log.newInputs repositoryId factId items
        else log.newInputs repositoryId factId items := by
  unfold newInputs
  rw [List.reverse_append, List.reverse_singleton, List.singleton_append, List.filter_cons]
  by_cases free : log.isFree repositoryId factId item = true
  · rw [if_pos free]
    by_cases apart : ∀ kept ∈ (items.reverse.filter (log.isFree repositoryId factId)).pwFilter
        Apart, Apart item kept
    · rw [List.pwFilter_cons_of_pos apart, if_pos ⟨free, apart⟩]
    · rw [List.pwFilter_cons_of_neg apart, if_neg (fun both => apart both.2)]
  · rw [if_neg free, if_neg (fun both => free both.1)]

theorem blocks_kept_iff {kept : ProjectionInputDraft}
    : Blocks repositoryId factId item (repositoryId, some factId, kept) ↔ ¬ Apart item kept := by
  have swap : SameKey item kept ↔ SameKey kept item := by
    simp only [SameKey, eq_comm]
  simp only [Blocks, Apart, true_and, swap, not_and_or, not_not, ne_eq, eq_comm]

/-- What stands in the way of an item is a row of the start or an item that was kept. -/
theorem blocked_iff {rows : List InputRow} {kept : List ProjectionInputDraft}
    (content : rows.map InputRow.content = start.inputs.rows.map InputRow.content
      ++ kept.reverse.map (fun kept => (repositoryId, some factId, kept)))
    : (∃ row ∈ rows, Blocks repositoryId factId item row.content)
      ↔ ¬ (start.isFree repositoryId factId item = true ∧ ∀ other ∈ kept, Apart item other) := by
  have listed : (∃ row ∈ rows, Blocks repositoryId factId item row.content)
      ↔ ∃ entry ∈ rows.map InputRow.content, Blocks repositoryId factId item entry := by
    simp
  rw [listed, content]
  simp only [List.mem_append, List.mem_map, List.mem_reverse, or_and_right, exists_or, isFree,
    List.all_eq_true, decide_eq_true_eq, not_and_or, not_forall, not_not]
  refine or_congr ?_ ?_
  · simp
  · simp [blocks_kept_iff]

def insertInputs (repositoryId factId : Uuid) (createdAt : Timestamp) (burns : Bool)
    (items : List ProjectionInputDraft) : LogSql Unit :=
  items.forM (fun item =>
    modify (insertInput repositoryId (some factId) createdAt burns item))

/-- What the inputs table records after the items, by induction on them from the end. -/
theorem insertInputs_content
    (ran : Returns (insertInputs repositoryId factId createdAt burns items) start () stop)
    : stop.inputs.rows.map InputRow.content
        = start.inputs.rows.map InputRow.content
          ++ (start.newInputs repositoryId factId items).reverse.map (fun kept =>
            (repositoryId, some factId, kept))
      ∧ stop.retained = start.retained := by
  induction items using List.reverseRecOn generalizing stop with
  | nil =>
    obtain ⟨-, rfl⟩ := returns_pure.mp ran
    simp [newInputs]
  | append_singleton items item ih =>
    unfold insertInputs at ran ih
    rw [List.forM_eq_forM, List.forM_append, List.forM_cons] at ran
    obtain ⟨_, middle, before, last⟩ := returns_bind.mp ran
    obtain ⟨_, _, wrote, done⟩ := returns_bind.mp last
    obtain ⟨-, rfl⟩ := returns_pure.mp done
    obtain rfl := returns_modify.mp wrote
    obtain ⟨content, retained⟩ := ih before
    refine ⟨?_, (insertInput_retained item middle).trans retained⟩
    rw [newInputs_concat]
    by_cases kept : start.isFree repositoryId factId item = true
        ∧ ∀ other ∈ start.newInputs repositoryId factId items, Apart item other
    · have free := mt (blocked_iff content).mp (not_not_intro kept)
      rw [if_pos kept, insertInput_free (fun row stored blocks => free ⟨row, stored, blocks⟩),
        content]
      simp
    · rw [if_neg kept, insertInput_blocked ((blocked_iff content).mpr kept), content]

/-- The inputs are always written to the end. -/
theorem insertInputs_returns (items : List ProjectionInputDraft) (start : SharedLog)
    : ∃ stop, Returns (insertInputs repositoryId factId createdAt burns items) start () stop := by
  induction items generalizing start with
  | nil => exact ⟨start, rfl⟩
  | cons item items ih =>
    obtain ⟨stop, later⟩ := ih (insertInput repositoryId (some factId) createdAt burns item start)
    exact ⟨stop, returns_bind.mpr ⟨(), _, returns_modify.mpr rfl, later⟩⟩

theorem insertInputs_blocked (createdAt : Timestamp) (burns : Bool)
    (blocked : ∀ item ∈ items,
      ∃ row ∈ start.inputs.rows, Blocks repositoryId factId item row.content)
    : ∃ stop, Returns (insertInputs repositoryId factId createdAt burns items) start () stop
      ∧ SameLog stop start := by
  induction items generalizing start with
  | nil => exact ⟨start, rfl, rfl, rfl⟩
  | cons item items ih =>
    obtain ⟨own, later⟩ := List.forall_mem_cons.mp blocked
    have inputs := @insertInput_blocked repositoryId factId createdAt burns start item own
    have still : ∀ other ∈ items, ∃ row ∈ (insertInput repositoryId (some factId) createdAt
        burns item start).inputs.rows, Blocks repositoryId factId other row.content := by
      rw [inputs]
      exact later
    obtain ⟨stop, rest, same⟩ := ih still
    exact ⟨stop, returns_bind.mpr ⟨(), _, returns_modify.mpr rfl, rest⟩,
      same.retained.trans (insertInput_retained item start), same.inputs.trans inputs⟩

/-- No item of the list could be kept behind its end. -/
theorem newInputs_blocks (log : SharedLog) (member : item ∈ items)
    : ¬ (log.isFree repositoryId factId item = true
      ∧ ∀ kept ∈ log.newInputs repositoryId factId items, Apart item kept) := by
  induction items using List.reverseRecOn with
  | nil => cases member
  | append_singleton items last ih =>
    rw [newInputs_concat]
    rcases List.mem_append.mp member with earlier | final
    · split
      · exact fun both => ih earlier ⟨both.1, fun kept listed =>
          both.2 kept (List.mem_cons_of_mem _ listed)⟩
      · exact ih earlier
    · obtain rfl := List.mem_singleton.mp final
      split
      · exact fun both => (both.2 item List.mem_cons_self).1 rfl
      · next refused => exact refused

theorem insertInputs_blocks
    (ran : Returns (insertInputs repositoryId factId createdAt burns items) start () stop)
    : ∀ item ∈ items, ∃ row ∈ stop.inputs.rows, Blocks repositoryId factId item row.content :=
  fun _ member => (blocked_iff (insertInputs_content ran).1).mpr (newInputs_blocks start member)

theorem insertInputs_recorded
    (ran : Returns (insertInputs repositoryId factId createdAt burns items) start () stop)
    (item : ProjectionInputDraft)
    : stop.Recorded repositoryId factId item
      ↔ start.Recorded repositoryId factId item
        ∨ ∃ kept ∈ start.newInputs repositoryId factId items, SameKey kept item := by
  have view : ∀ log : SharedLog, log.Recorded repositoryId factId item
      ↔ ∃ entry ∈ log.inputs.rows.map InputRow.content, entry.1 = repositoryId
        ∧ entry.2.1 = some factId ∧ SameKey entry.2.2 item := by
    intro log
    simp only [Recorded, List.mem_map, exists_exists_and_eq_and]
    rfl
  rw [view stop, (insertInputs_content ran).1, view start]
  simp only [List.mem_append, or_and_right, exists_or]
  refine or_congr Iff.rfl ?_
  simp

/-- Whether the items are covered is read off the inputs table. -/
theorem covered_congr {left right : SharedLog} (same : left.inputs = right.inputs)
    (items : List ProjectionInputDraft)
    : left.Covered repositoryId factId items ↔ right.Covered repositoryId factId items := by
  unfold Covered Recorded newInputs isFree
  rw [same]

/-- Every requested key is recorded after the items exactly if they were covered. -/
theorem insertInputs_covered
    (ran : Returns (insertInputs repositoryId factId createdAt burns items) start () stop)
    : (∀ item ∈ items, stop.Recorded repositoryId factId item)
      ↔ start.Covered repositoryId factId items := by
  simp only [insertInputs_recorded ran, Covered]

theorem factRow_unique {row other : FactRow} (stored : row ∈ log.retained.rows)
    (listed : other ∈ log.retained.rows) (same : row.record.factId = other.record.factId)
    : row = other :=
  Table.eq_of_clash stored listed (beq_iff_eq.mpr same) (beq_iff_eq.mpr same.symm)

theorem retainFact_stored {row : FactRow}
    (stored : row ∈ log.retained.rows) (own : row.repositoryId = repositoryId)
    (same : sameFact row.record draft = true) (recordedAt : Timestamp)
    : Returns (SharedLog.retainFact repositoryId draft recordedAt) log row log := by
  have content : row.record.draft = draft := by simpa [sameFact] using same
  have id : row.record.factId = draft.factId := congrArg RetainedFactDraft.factId content
  have found : log.retained.find? (fun row =>
      row.repositoryId == repositoryId && row.record.factId == draft.factId) = some row := by
    refine Table.find?_eq_some stored (by simp [own, id]) (fun other listed holds => ?_)
    have key : other.record.factId = draft.factId := by
      simpa using (Bool.and_eq_true_iff.mp holds).2
    exact factRow_unique listed stored (key.trans id.symm)
  refine returns_bind.mpr ⟨log, log, returns_get.mpr ⟨rfl, rfl⟩, ?_⟩
  simp [found, same]

theorem retainFact_returns {middle : SharedLog} {row : FactRow} {recordedAt : Timestamp}
    (ran : Returns (SharedLog.retainFact repositoryId draft recordedAt) log row middle)
    : log.Fits repositoryId draft ∧ middle.inputs = log.inputs ∧ row ∈ middle.retained.rows
      ∧ row.repositoryId = repositoryId ∧ sameFact row.record draft = true := by
  obtain ⟨_, _, got, ran⟩ := returns_bind.mp ran
  obtain ⟨rfl, rfl⟩ := returns_get.mp got
  dsimp only at ran
  split at ran
  · next none_ =>
      unfold SharedLog.insertFact Returns at ran
      dsimp only at ran
      split at ran
      · next retained inserted =>
          cases ran
          obtain ⟨apart, rows⟩ := Table.insert?_eq_some inserted
          refine ⟨fun other stored same => ?_, rfl, ?_, rfl, by simp [sameFact]⟩
          · have clash : factRowClash other
                ⟨repositoryId, ⟨log.lastFactSequence + 1, recordedAt, draft⟩⟩ = true :=
              beq_iff_eq.mpr same
            rw [apart other stored] at clash
            cases clash
          · rw [rows]
            exact List.mem_append_right _ List.mem_cons_self
      · cases ran
  · next existing found =>
      obtain ⟨_, _, passed, done⟩ := returns_bind.mp ran
      obtain ⟨same, rfl⟩ := returns_raiseIf.mp passed
      obtain ⟨rfl, rfl⟩ := returns_pure.mp done
      obtain ⟨stored, holds⟩ := Table.mem_of_find? found
      have own : existing.repositoryId = repositoryId ∧ existing.record.factId = draft.factId := by
        simpa using holds
      have equal : sameFact existing.record draft = true := not_not.mp same
      refine ⟨fun other listed key => ?_, rfl, stored, own.1, equal⟩
      rw [factRow_unique listed stored (key.trans own.2.symm)]
      exact ⟨own.1, equal⟩

theorem retainFact_of_fits (fits : log.Fits repositoryId draft) (recordedAt : Timestamp)
    : ∃ row middle,
        Returns (SharedLog.retainFact repositoryId draft recordedAt) log row middle := by
  by_cases used : ∃ row ∈ log.retained.rows, row.record.factId = draft.factId
  · obtain ⟨row, stored, id⟩ := used
    obtain ⟨own, same⟩ := fits row stored id
    exact ⟨row, log, retainFact_stored stored own same recordedAt⟩
  · have unused : ∀ row ∈ log.retained.rows, row.record.factId ≠ draft.factId :=
      fun row stored same => used ⟨row, stored, same⟩
    have none_ : log.retained.find? (fun row =>
        row.repositoryId == repositoryId && row.record.factId == draft.factId) = none :=
      Table.find?_eq_none.mpr (fun row stored => by simp [unused row stored])
    have apart : ∀ row ∈ log.retained, factRowClash row
        ⟨repositoryId, ⟨log.lastFactSequence + 1, recordedAt, draft⟩⟩ = false :=
      fun row stored => beq_eq_false_iff_ne.mpr (unused row stored)
    obtain ⟨retained, inserted, _⟩ := Table.insert?_of_apart apart
    refine ⟨⟨repositoryId, ⟨log.lastFactSequence + 1, recordedAt, draft⟩⟩,
      { log with retained := retained, lastFactSequence := log.lastFactSequence + 1 },
      returns_bind.mpr ⟨log, log, returns_get.mpr ⟨rfl, rfl⟩, ?_⟩⟩
    simp [none_, SharedLog.insertFact, Returns, inserted]

theorem appendFact_returns {recordedAt : Timestamp}
    {value : RetainedFactRecord × List ProjectionInputRecord}
    : Returns (SharedLog.appendFact repositoryId draft items recordedAt burns) log value stop
      ↔ ∃ row middle, Returns (SharedLog.retainFact repositoryId draft recordedAt) log row middle
        ∧ Returns (insertInputs repositoryId draft.factId recordedAt burns items) middle () stop
        ∧ value = (row.record, (stop.inputs.select (fun input =>
            input.repositoryId == repositoryId
              && input.record.sourceFactId == some draft.factId)).map InputRow.record) := by
  refine returns_transaction.trans (returns_bind.trans ?_)
  constructor
  · intro ran
    obtain ⟨row, middle, retained, rest⟩ := ran
    obtain ⟨_, last, written, reads⟩ := returns_bind.mp rest
    obtain ⟨_, _, got, done⟩ := returns_bind.mp reads
    obtain ⟨rfl, rfl⟩ := returns_get.mp got
    obtain ⟨rfl, rfl⟩ := returns_pure.mp done
    exact ⟨row, middle, retained, written, rfl⟩
  · intro ran
    obtain ⟨row, middle, retained, written, rfl⟩ := ran
    exact ⟨row, middle, retained, returns_bind.mpr ⟨(), stop, written,
      returns_bind.mpr ⟨stop, stop, returns_get.mpr ⟨rfl, rfl⟩, returns_pure.mpr ⟨rfl, rfl⟩⟩⟩⟩

/-- Appending is idempotent and conflict-atomic from every log; it records every requested
key exactly if each is recorded already or is that of an item that is kept.
-/
theorem appends_iff (log : SharedLog) (repositoryId : Uuid) (draft : RetainedFactDraft)
    (items : List ProjectionInputDraft) (recordedAt : Timestamp) (burns : Bool)
    : log.Appends repositoryId draft items recordedAt burns
      ↔ (log.Fits repositoryId draft → log.Covered repositoryId draft.factId items) := by
  constructor
  · intro appends fits
    obtain ⟨row, middle, retained⟩ := retainFact_of_fits fits recordedAt
    obtain ⟨stop, written⟩ :
        ∃ stop, Returns (insertInputs repositoryId draft.factId recordedAt burns items) middle ()
          stop := insertInputs_returns items middle
    have ran := appendFact_returns.mpr ⟨row, middle, retained, written, rfl⟩
    have same := (retainFact_returns retained).2.1
    exact (covered_congr same items).mp
      ((insertInputs_covered written).mp (appends.recorded _ _ ran))
  · intro covered
    refine ⟨?_, ?_, ?_⟩
    · intro value stop ran later
      obtain ⟨row, middle, retained, written, rfl⟩ := appendFact_returns.mp ran
      obtain ⟨_, _, stored, own, same⟩ := retainFact_returns retained
      rw [← (insertInputs_content written).2] at stored
      obtain ⟨last, again, unchanged⟩ := insertInputs_blocked later burns
        (insertInputs_blocks written)
      refine ⟨last, unchanged, appendFact_returns.mpr
        ⟨row, stop, retainFact_stored stored own same later, again, ?_⟩⟩
      rw [unchanged.inputs]
    · intro used
      obtain ⟨row, stored, id, other⟩ := used
      rcases returns_or_raises
          (SharedLog.appendFact repositoryId draft items recordedAt burns) log with ran | ran
      · obtain ⟨_, ran⟩ := ran
        obtain ⟨_, _, retained, _⟩ := appendFact_returns.mp ran
        have same := ((retainFact_returns retained).1 row stored id).2
        rw [other] at same
        cases same
      · obtain ⟨failure, ran⟩ := ran
        refine ⟨failure, ?_⟩
        rwa [raises_transaction ran] at ran
    · intro value stop ran
      obtain ⟨row, middle, retained, written, _⟩ := appendFact_returns.mp ran
      obtain ⟨fits, same, _⟩ := retainFact_returns retained
      exact (insertInputs_covered written).mpr ((covered_congr same items).mpr (covered fits))

def noteDraft : RetainedFactDraft where
  factId := 2
  occurredAt := 0
  actor := ⟨"user", "ada"⟩
  correlation := { correlationId := 3 }
  payload := .private_ "note" .nil

def sharedIdInputs : List ProjectionInputDraft :=
  [⟨4, "schedule", "left", 0⟩, ⟨4, "schedule", "right", 0⟩]

/-- Two inputs under one id: the second one is dropped without a word. -/
theorem appends_sharedInputId
    : ∃ value stop,
        Returns (SharedLog.appendFact 1 noteDraft sharedIdInputs 0 false) {} value stop
          ∧ (∃ item ∈ sharedIdInputs, ¬ stop.Recorded 1 noteDraft.factId item)
          ∧ ¬ ({} : SharedLog).Appends 1 noteDraft sharedIdInputs 0 false := by
  have dropped : ∀ stop : SharedLog,
      stop.inputs.rows.map InputRow.content = [(1, some 2, ⟨4, "schedule", "left", 0⟩)] →
        ¬ stop.Recorded 1 2 ⟨4, "schedule", "right", 0⟩ := by
    intro stop content recorded
    obtain ⟨row, stored, _, _, _, key, _⟩ := recorded
    have listed : row.content ∈ stop.inputs.rows.map InputRow.content := List.mem_map_of_mem stored
    rw [content, List.mem_singleton] at listed
    rw [listed] at key
    exact absurd key (by decide)
  have content : (final (SharedLog.appendFact 1 noteDraft sharedIdInputs 0 false
      {})).inputs.rows.map InputRow.content = [(1, some 2, ⟨4, "schedule", "left", 0⟩)] := by
    decide
  have second : (⟨4, "schedule", "right", 0⟩ : ProjectionInputDraft) ∈ sharedIdInputs :=
    List.mem_cons_of_mem _ List.mem_cons_self
  exact ⟨_, _, rfl, ⟨_, second, dropped _ content⟩,
    fun appends => dropped _ content (appends.recorded _ _ rfl _ second)⟩

end SharedLog

end Murder.Facts

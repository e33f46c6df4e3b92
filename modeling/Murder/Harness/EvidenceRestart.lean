import Mathlib.Data.List.Sort
import Murder.Harness.AtomicIngestion
import Murder.Harness.EvidenceStore

/-! The parser history behind a restart is the one before it, for plain payloads whose evidence
joins the history in the order of its identifiers.
-/

namespace Murder.Harness

open Contracts Library.Runs

mutual
def PayloadValue.Plain : PayloadValue → Prop
  | .null | .bool _ | .int _ | .float _ | .str _ => True
  | .list items => items.Plain
  | .dict fields => fields.Plain
  | .tuple _ | .enumMember _ _ => False

def PayloadItems.Plain : PayloadItems → Prop
  | .nil => True
  | .cons head tail => head.Plain ∧ tail.Plain

def PayloadFields.Plain : PayloadFields → Prop
  | .nil => True
  | .cons _ value tail => value.Plain ∧ tail.Plain
end

mutual
/-- A value is read back as it was exactly when it is plain, by recursion over the value. -/
theorem PayloadValue.load_json : (value : PayloadValue)
    → (PayloadValue.load value.json = value ↔ value.Plain)
  | .null | .bool _ | .int _ | .float _ | .str _ => iff_of_true rfl trivial
  | .list items => by
      rw [PayloadValue.json, PayloadValue.load, PayloadValue.list.injEq]
      exact items.load_json
  | .dict fields => by
      rw [PayloadValue.json, PayloadValue.load, PayloadValue.dict.injEq]
      exact fields.load_json
  | .tuple _ | .enumMember _ _ => iff_of_false nofun not_false

theorem PayloadItems.load_json : (items : PayloadItems)
    → (PayloadItems.load items.json = items ↔ items.Plain)
  | .nil => iff_of_true rfl trivial
  | .cons head tail => by
      rw [PayloadItems.json, PayloadItems.load, PayloadItems.cons.injEq]
      exact and_congr head.load_json tail.load_json

theorem PayloadFields.load_json : (fields : PayloadFields)
    → (PayloadFields.load fields.json = fields ↔ fields.Plain)
  | .nil => iff_of_true rfl trivial
  | .cons key value tail => by
      rw [PayloadFields.json, PayloadFields.load, PayloadFields.cons.injEq, eq_self_iff_true,
        true_and]
      exact and_congr value.load_json tail.load_json
end

theorem toList_ofList (items : List JsonValue) : (JsonItems.ofList items).toList = items := by
  induction items with
  | nil => rfl
  | cons head tail ih => rw [JsonItems.ofList, JsonItems.toList, ih]

theorem markedItems_tupleJson (items : List JsonValue)
    : markedItems (tupleJson (.ofList items)) = items :=
  toList_ofList items

section Reading

variable [PyRepr]

theorem regionFromJson_json (region : ScreenRegionRef)
    : regionFromJson region.json = some region := by
  obtain ⟨label, startLine, endLine, startColumn, endColumn⟩ := region
  cases startLine <;> cases endLine <;> cases startColumn <;> cases endColumn <;> rfl

theorem regionsFromJson_json (regions : List ScreenRegionRef)
    : regionsFromJson (regionsJson regions) = regions := by
  rw [regionsFromJson, regionsJson, markedItems_tupleJson, List.filterMap_map]
  have each := List.filterMap_congr (fun region (_ : region ∈ regions) =>
    regionFromJson_json region)
  exact each.trans List.filterMap_some

theorem tupleStrings_json (texts : List String) : tupleStrings (stringsJson texts) = texts := by
  rw [tupleStrings, stringsJson, markedItems_tupleJson, List.map_map]
  exact List.map_id texts

theorem diagnosticsFromJson_json (diagnostics : EvidenceDiagnostics)
    : diagnosticsFromJson diagnostics.json = diagnostics := by
  have messages := tupleStrings_json diagnostics.messages
  have regions := regionsFromJson_json diagnostics.unrecognizedRegions
  have contradictory := tupleStrings_json diagnostics.contradictoryFields
  change (⟨_, tupleStrings (stringsJson diagnostics.messages),
    regionsFromJson (regionsJson diagnostics.unrecognizedRegions),
    tupleStrings (stringsJson diagnostics.contradictoryFields)⟩ : EvidenceDiagnostics) = _
  rw [messages, regions, contradictory]
  rfl

/-- An envelope is read back as it was exactly when its payload is plain. -/
theorem envelope_ofEnvelope (envelope : StoredEnvelope)
    : (EvidenceRow.ofEnvelope envelope).envelope = envelope ↔ envelope.payload.Plain := by
  rw [← envelope.payload.load_json]
  have regions := regionsFromJson_json envelope.sourceRegions
  have diagnostics := diagnosticsFromJson_json envelope.diagnostics
  have read : (EvidenceRow.ofEnvelope envelope).envelope
      = { envelope with payload := PayloadFields.load envelope.payload.json } := by
    rw [EvidenceRow.envelope, EvidenceRow.ofEnvelope]
    dsimp only
    rw [regions, diagnostics]
    rfl
  rw [read]
  constructor
  · exact fun same => congrArg EvidenceEnvelope.payload same
  · intro same
    rw [same]

end Reading

/-- A session with its store. -/
structure ControlSession (Value : Type) where
  store : ControlStore
  controller : HarnessController PayloadFields Value

/-- A frame, what is parsed of it, and what is projected if it is not stale. -/
structure IngestedFrame (Value : Type) where
  frame : TerminalFrame
  evidence : List StoredEnvelope
  updates : ObservationUpdates Value

section Sessions

variable {Value : Type} [DecidableEq Value]

def HarnessController.ingested (controller : HarnessController PayloadFields Value)
    (event : IngestedFrame Value)
    : HarnessController PayloadFields Value :=
  if event.frame.newer controller.observations.snapshot.revision then
    ((controller.appendEvidence event.evidence).applyUpdates event.frame event.updates).publish
      event.frame event.evidence
  else controller

/-- `ingest_frame` with the journal of the session, unless it raises. -/
def ControlSession.ingest (session : ControlSession Value) (sessionId : Option String)
    (event : IngestedFrame Value)
    : Option (ControlSession Value) := do
  let framed ← session.store.persistFrame sessionId event.frame
  let store ← framed.recordEvidence event.evidence
  some ⟨store, session.controller.ingested event⟩

def SessionStep (harnessId : String) (sessionId : Option String)
    (session : ControlSession Value) (event : IngestedFrame Value)
    (next : ControlSession Value)
    : Prop :=
  event.frame.harnessId = harnessId ∧ session.ingest sessionId event = some next

/-- A controller of a session without frames, over a store in which evidence names stored frames. -/
def SessionFresh (harnessId : String) (sessionId : Option String)
    (session : ControlSession Value)
    : Prop :=
  session.store.sessionFrames harnessId sessionId = []
  ∧ (∀ row ∈ session.store.evidence, (session.store.findFrame row.frameId).isSome = true)
  ∧ ∃ initial, session.controller = .create initial []

/-- The frame and its evidence are new and name each other in order, or all evidence is known.
A stale frame brings nothing that is not stored.
-/
def CarefulFrame (session : ControlSession Value) (event : IngestedFrame Value) : Prop :=
  (event.frame.newer session.controller.observations.snapshot.revision = true
    ∧ session.store.findFrame event.frame.frameId = none
    ∧ (∀ envelope ∈ event.evidence,
        envelope.frameId = event.frame.frameId ∧ envelope.payload.Plain)
    ∧ event.evidence.Pairwise (fun earlier later => earlier.evidenceId < later.evidenceId))
  ∨ ∀ envelope ∈ event.evidence,
      (session.store.findEvidence envelope.evidenceId).isSome = true
      ∧ (event.frame.newer session.controller.observations.snapshot.revision = true
        → envelope.evidenceId ∈ session.controller.evidence.map (·.evidenceId))

end Sessions

variable {frameId : String}

section Persisted

variable {store next : ControlStore} {sessionId : Option String} {frame : TerminalFrame}
  {envelope : StoredEnvelope} {evidence : List StoredEnvelope}

theorem persistFrame_cases (persisted : store.persistFrame sessionId frame = some next)
    : (∃ existing, store.findFrame frame.frameId = some existing) ∧ next = store
      ∨ store.findFrame frame.frameId = none
        ∧ next = { store with frames := store.frames ++ [⟨sessionId, frame⟩] } := by
  unfold ControlStore.persistFrame at persisted
  cases found : store.findFrame frame.frameId with
  | some existing =>
    rw [found] at persisted
    dsimp only at persisted
    split at persisted
    · cases persisted
    · exact .inl ⟨⟨existing, rfl⟩, (Option.some.inj persisted).symm⟩
  | none =>
    rw [found] at persisted
    exact .inr ⟨rfl, (Option.some.inj persisted).symm⟩

theorem persistEvidence_cases (persisted : store.persistEvidence envelope = some next)
    : (store.findFrame envelope.frameId).isSome = true
      ∧ ((∃ existing, store.findEvidence envelope.evidenceId = some existing
            ∧ existing.frameId = envelope.frameId) ∧ next = store
        ∨ store.findEvidence envelope.evidenceId = none
          ∧ next = { store with
              evidence := store.evidence ++ [EvidenceRow.ofEnvelope envelope] }) := by
  unfold ControlStore.persistEvidence at persisted
  cases named : store.findFrame envelope.frameId with
  | none =>
    rw [named] at persisted
    cases persisted
  | some frame =>
    rw [named] at persisted
    dsimp only at persisted
    refine ⟨rfl, ?_⟩
    split at persisted
    · cases persisted
    · cases found : store.findEvidence envelope.evidenceId with
      | none =>
        rw [found] at persisted
        exact .inr ⟨rfl, (Option.some.inj persisted).symm⟩
      | some existing =>
        rw [found] at persisted
        dsimp only at persisted
        split at persisted
        · cases persisted
        · next same =>
            refine .inl ⟨⟨existing, rfl, ?_⟩, (Option.some.inj persisted).symm⟩
            exact not_not.mp (fun other => same (.inl other))

/-- Known evidence leaves the store as it is, by induction over it. -/
theorem recordEvidence_known
    (known : ∀ envelope ∈ evidence, (store.findEvidence envelope.evidenceId).isSome = true)
    (recorded : store.recordEvidence evidence = some next)
    : next = store := by
  induction evidence with
  | nil => exact (Option.some.inj recorded).symm
  | cons envelope rest ih =>
    obtain ⟨middle, first, others⟩ := Option.bind_eq_some_iff.mp recorded
    obtain ⟨-, ⟨-, rfl⟩ | ⟨absent, -⟩⟩ := persistEvidence_cases first
    · exact ih (fun later member => known later (List.mem_cons_of_mem _ member)) others
    · have found := known envelope List.mem_cons_self
      rw [absent] at found
      cases found

theorem findEvidence_eq_none
    : store.findEvidence envelope.evidenceId = none
      ↔ ∀ row ∈ store.evidence, row.evidenceId ≠ envelope.evidenceId := by
  simp [ControlStore.findEvidence]

/-- New evidence of a frame adds a row for each envelope, by induction over it. -/
theorem recordEvidence_new (names : ∀ envelope ∈ evidence, envelope.frameId = frameId)
    (ordered : evidence.Pairwise (fun earlier later => earlier.evidenceId < later.evidenceId))
    (apart
      : ∀ row ∈ store.evidence, row.frameId = frameId
        → ∀ envelope ∈ evidence, row.evidenceId ≠ envelope.evidenceId)
    (recorded : store.recordEvidence evidence = some next)
    : next = { store with
        evidence := store.evidence ++ evidence.map EvidenceRow.ofEnvelope }
      ∧ ∀ row ∈ store.evidence, ∀ envelope ∈ evidence,
          row.evidenceId ≠ envelope.evidenceId := by
  induction evidence generalizing store with
  | nil =>
    refine ⟨?_, fun _ _ _ => nofun⟩
    rw [← Option.some.inj recorded]
    simp
  | cons envelope rest ih =>
    obtain ⟨middle, first, others⟩ := Option.bind_eq_some_iff.mp recorded
    obtain ⟨-, ⟨⟨existing, found, same⟩, -⟩ | ⟨absent, rfl⟩⟩ :=
      persistEvidence_cases first
    · have named := same.trans (names envelope List.mem_cons_self)
      have held := List.mem_of_find?_eq_some found
      have id : existing.evidenceId = envelope.evidenceId := by
        simpa using List.find?_some (show store.evidence.find? _ = _ from found)
      exact absurd id (apart existing held named envelope List.mem_cons_self)
    · obtain ⟨before, ordered⟩ := List.pairwise_cons.mp ordered
      obtain ⟨grown, others⟩ := ih
        (fun later member => names later (List.mem_cons_of_mem _ member)) ordered
        (by
          intro row member named later inside
          rcases List.mem_append.mp member with old | new
          · exact apart row old named later (List.mem_cons_of_mem _ inside)
          · rw [List.mem_singleton.mp new]
            exact (before later inside).ne)
        others
      refine ⟨by rw [grown]; simp, fun row member later inside => ?_⟩
      rcases List.mem_cons.mp inside with rfl | behind
      · exact findEvidence_eq_none.mp absent row member
      · exact others row (List.mem_append_left _ member) later behind

end Persisted

section Joined

variable {store next : ControlStore} {frames : List TerminalFrame} {frame : TerminalFrame}

/-- A sort finds the order a list has already, whatever it starts from. -/
theorem mergeSort_of_perm {α κ : Type} [LinearOrder κ] {key : α → κ} {items ordered : List α}
    (perm : items.Perm ordered)
    (increasing : ordered.Pairwise (fun left right => key left < key right))
    : items.mergeSort (fun left right => key left ≤ key right) = ordered := by
  have sorted : (items.mergeSort (fun left right => key left ≤ key right)).Pairwise
      (fun left right => decide (key left ≤ key right) = true) := by
    apply List.pairwise_mergeSort
    · intro a b c
      simpa using le_trans
    · intro a b
      simpa using le_total (key a) (key b)
  have keys : (ordered.map key).Nodup := List.pairwise_map.mpr (increasing.imp (fun lt => lt.ne))
  refine List.Perm.eq_of_pairwise ?_ sorted (increasing.imp ?_)
    ((List.mergeSort_perm _ _).trans perm)
  · intro a b first second below above
    have first := perm.subset ((List.mergeSort_perm _ _).subset first)
    have same := le_antisymm (of_decide_eq_true below) (of_decide_eq_true above)
    exact List.inj_on_of_nodup_map keys first second same
  · exact fun before => by simpa using before.le

theorem joined_concat
    : store.joined (frames ++ [frame])
      = store.joined frames
        ++ (store.evidence.filter (fun row => row.frameId = frame.frameId)).map (frame, ·) := by
  simp [ControlStore.joined]

theorem joined_append {rows : List EvidenceRow}
    (apart : ∀ frame ∈ frames, ∀ row ∈ rows, row.frameId ≠ frame.frameId)
    (grown : next.evidence = store.evidence ++ rows)
    : next.joined frames = store.joined frames := by
  refine List.flatMap_congr (fun frame member => ?_)
  have none_ : rows.filter (fun row => row.frameId = frame.frameId) = [] := by
    rw [List.filter_eq_nil_iff]
    exact fun row inside => by simpa using apart frame member row inside
  rw [grown, List.filter_append, none_, List.append_nil]

theorem joined_perm {others : List TerminalFrame} (perm : frames.Perm others)
    : (store.joined frames).Perm (store.joined others) :=
  perm.flatMap_right _

theorem mem_joined {pair : TerminalFrame × EvidenceRow} (member : pair ∈ store.joined frames)
    : pair.1 ∈ frames ∧ pair.2 ∈ store.evidence := by
  obtain ⟨frame, listed, inside⟩ := List.mem_flatMap.mp member
  obtain ⟨row, held, rfl⟩ := List.mem_map.mp inside
  exact ⟨listed, (List.mem_filter.mp held).1⟩

theorem frameKey_lt {older newer : TerminalFrame} {revision : ObservationRevision}
    (old : older.newer revision = false) (new : newer.newer revision = true)
    : frameKey older < frameKey newer := by
  rw [← Bool.not_eq_true, newer_iff] at old
  rw [newer_iff] at new
  rw [frameKey, frameKey, Prod.Lex.toLex_lt_toLex]
  dsimp only
  omega

end Joined

section Restart

variable {Value : Type} {harnessId : String} {sessionId : Option String}
  {session next : ControlSession Value} {event : IngestedFrame Value}

theorem sessionFrames_concat {store next : ControlStore} {frame : TerminalFrame}
    (owner : frame.harnessId = harnessId)
    (grown : next.frames = store.frames ++ [⟨sessionId, frame⟩])
    : next.sessionFrames harnessId sessionId
      = store.sessionFrames harnessId sessionId ++ [frame] := by
  simp [ControlStore.sessionFrames, List.filter_append, owner, grown]

theorem findFrame_concat {store : ControlStore} {row : FrameRow}
    (found : (store.findFrame frameId).isSome = true)
    : (ControlStore.findFrame { store with frames := store.frames ++ [row] } frameId).isSome
      = true := by
  simp only [ControlStore.findFrame, List.find?_append, Option.isSome_or] at found ⊢
  simp [found]

theorem not_stored {store : ControlStore} (absent : store.findFrame frameId = none)
    : ∀ frame ∈ store.sessionFrames harnessId sessionId, frame.frameId ≠ frameId := by
  intro frame member
  obtain ⟨row, held, rfl⟩ := List.mem_map.mp member
  have all := List.find?_eq_none.mp absent row (List.mem_filter.mp held).1
  simpa using all

theorem recordEvidence_frames {store next : ControlStore} {evidence : List StoredEnvelope}
    (recorded : store.recordEvidence evidence = some next)
    : next.frames = store.frames := by
  induction evidence generalizing store with
  | nil => rw [← Option.some.inj recorded]
  | cons envelope rest ih =>
    obtain ⟨middle, first, others⟩ := Option.bind_eq_some_iff.mp recorded
    rw [ih others]
    obtain ⟨-, ⟨-, rfl⟩ | ⟨-, rfl⟩⟩ := persistEvidence_cases first <;> rfl

section Sound

variable [PyRepr]

structure RestartSound (harnessId : String) (sessionId : Option String)
    (session : ControlSession Value)
    : Prop where
  linked
    : ∀ row ∈ session.store.evidence, (session.store.findFrame row.frameId).isSome = true
  listed
    : (session.store.joined (session.store.sessionFrames harnessId sessionId)).map
        (·.2.envelope) = session.controller.evidence
  ordered
    : (session.store.joined (session.store.sessionFrames harnessId sessionId)).Pairwise
        (fun left right => rowKey left < rowKey right)
  below
    : ∀ frame ∈ session.store.sessionFrames harnessId sessionId,
        frame.newer session.controller.observations.snapshot.revision = false

theorem restartSound_of_fresh (fresh : SessionFresh harnessId sessionId session)
    : RestartSound harnessId sessionId session := by
  obtain ⟨none_, linked, initial, created⟩ := fresh
  refine ⟨linked, ?_, ?_, ?_⟩
  · rw [none_, created]
    rfl
  · rw [none_]
    exact .nil
  · rw [none_]
    exact nofun

theorem RestartSound.unnamed (sound : RestartSound harnessId sessionId session)
    (absent : session.store.findFrame frameId = none)
    : session.store.evidence.filter (fun row => row.frameId = frameId) = [] := by
  rw [List.filter_eq_nil_iff]
  intro row member
  have found := sound.linked row member
  intro same
  rw [of_decide_eq_true same, absent] at found
  cases found

/-- With no more frames than the limit the context of the session is the history. -/
theorem RestartSound.list_eq (sound : RestartSound harnessId sessionId session) {frameLimit : Nat}
    (positive : 0 < frameLimit)
    (few : (session.store.sessionFrames harnessId sessionId).length ≤ frameLimit)
    : session.store.listSessionEvidence harnessId sessionId frameLimit
      = some session.controller.evidence := by
  rw [ControlStore.listSessionEvidence, if_neg (by omega), ← sound.listed]
  dsimp only
  have frames := List.mergeSort_perm (session.store.sessionFrames harnessId sessionId)
    (fun left right => decide (frameKey right ≤ frameKey left))
  rw [List.take_of_length_le (by rw [frames.length_eq]; exact few),
    mergeSort_of_perm (joined_perm frames) sound.ordered]

end Sound

variable [DecidableEq Value]

/-- No call leaves the snapshot behind its frame, or behind a frame it was not behind before. -/
theorem not_newer_ingested {controller : HarnessController PayloadFields Value}
    {frame : TerminalFrame}
    (old : frame.newer controller.observations.snapshot.revision = false ∨ frame = event.frame)
    : frame.newer (controller.ingested event).observations.snapshot.revision = false := by
  rw [HarnessController.ingested]
  split
  · next newer =>
      rcases old with behind | rfl
      · exact newer_later behind (lt_of_newer newer _)
      · exact not_newer_self event.frame _
  · next stale =>
      rcases old with behind | rfl
      · exact behind
      · exact Bool.eq_false_of_not_eq_true stale

theorem ingested_evidence {controller : HarnessController PayloadFields Value}
    : (controller.ingested event).evidence
      = if event.frame.newer controller.observations.snapshot.revision
        then controller.evidence.append event.evidence else controller.evidence := by
  rw [HarnessController.ingested]
  split <;> rfl

theorem SessionStep.persisted (step : SessionStep harnessId sessionId session event next)
    : event.frame.harnessId = harnessId
      ∧ ∃ framed store, session.store.persistFrame sessionId event.frame = some framed
        ∧ framed.recordEvidence event.evidence = some store
        ∧ next = ⟨store, session.controller.ingested event⟩ := by
  obtain ⟨owner, ingested⟩ := step
  obtain ⟨framed, persisted, ingested⟩ := Option.bind_eq_some_iff.mp ingested
  obtain ⟨store, recorded, ingested⟩ := Option.bind_eq_some_iff.mp ingested
  exact ⟨owner, framed, store, persisted, recorded, (Option.some.inj ingested).symm⟩

namespace RestartSound

variable [PyRepr]

/-- A frame whose evidence is known adds nothing to the history. -/
theorem known (sound : RestartSound harnessId sessionId session)
    (owner : event.frame.harnessId = harnessId) {framed : ControlStore}
    (persisted : session.store.persistFrame sessionId event.frame = some framed)
    (known
      : event.frame.newer session.controller.observations.snapshot.revision = true
        → ∀ envelope ∈ event.evidence,
            envelope.evidenceId ∈ session.controller.evidence.map (·.evidenceId))
    : RestartSound harnessId sessionId ⟨framed, session.controller.ingested event⟩ := by
  have kept : (session.controller.ingested event).evidence = session.controller.evidence := by
    rw [ingested_evidence]
    split
    · next newer => exact EvidenceHistory.append_eq_iff.mpr (known newer)
    · rfl
  rcases persistFrame_cases persisted with ⟨-, rfl⟩ | ⟨absent, rfl⟩
  · refine ⟨sound.linked, ?_, sound.ordered, ?_⟩
    · rw [kept]
      exact sound.listed
    · exact fun frame member => not_newer_ingested (.inl (sound.below frame member))
  · have frames := @sessionFrames_concat _ _ session.store
      { session.store with frames := session.store.frames ++ [⟨sessionId, event.frame⟩] }
      _ owner rfl
    have joined : ControlStore.joined
        { session.store with frames := session.store.frames ++ [⟨sessionId, event.frame⟩] }
        (session.store.sessionFrames harnessId sessionId ++ [event.frame])
        = session.store.joined (session.store.sessionFrames harnessId sessionId) := by
      rw [joined_concat]
      dsimp only
      rw [sound.unnamed absent, List.map_nil, List.append_nil]
      rfl
    refine ⟨fun row member => findFrame_concat (sound.linked row member), ?_, ?_, ?_⟩
    · rw [frames, joined, kept]
      exact sound.listed
    · rw [frames, joined]
      exact sound.ordered
    · rw [frames]
      intro frame member
      rcases List.mem_append.mp member with old | new
      · exact not_newer_ingested (.inl (sound.below frame old))
      · exact not_newer_ingested (.inr (List.mem_singleton.mp new))

/-- A new frame joins the history with its evidence, in the order of their identifiers. -/
theorem joins (sound : RestartSound harnessId sessionId session)
    (owner : event.frame.harnessId = harnessId)
    (newer : event.frame.newer session.controller.observations.snapshot.revision = true)
    (absent : session.store.findFrame event.frame.frameId = none)
    (plain
      : ∀ envelope ∈ event.evidence,
          envelope.frameId = event.frame.frameId ∧ envelope.payload.Plain)
    (increasing
      : event.evidence.Pairwise (fun earlier later => earlier.evidenceId < later.evidenceId))
    {framed store : ControlStore}
    (persisted : session.store.persistFrame sessionId event.frame = some framed)
    (recorded : framed.recordEvidence event.evidence = some store)
    : RestartSound harnessId sessionId ⟨store, session.controller.ingested event⟩ := by
  obtain ⟨⟨existing, found⟩, -⟩ | ⟨-, rfl⟩ := persistFrame_cases persisted
  · rw [absent] at found
    cases found
  have unnamed := sound.unnamed absent
  obtain ⟨rfl, fresh⟩ := recordEvidence_new (fun envelope member => (plain envelope member).1)
    increasing
    (by
      intro row member named
      have inside : row ∈ session.store.evidence.filter (fun row =>
          row.frameId = event.frame.frameId) :=
        List.mem_filter.mpr ⟨member, decide_eq_true named⟩
      rw [unnamed] at inside
      cases inside)
    recorded
  have names : ∀ row ∈ event.evidence.map EvidenceRow.ofEnvelope,
      row.frameId = event.frame.frameId := by
    intro row member
    obtain ⟨envelope, inside, rfl⟩ := List.mem_map.mp member
    exact (plain envelope inside).1
  have frames := @sessionFrames_concat _ _ session.store
    { frames := session.store.frames ++ [⟨sessionId, event.frame⟩]
      evidence := session.store.evidence ++ event.evidence.map EvidenceRow.ofEnvelope }
    _ owner rfl
  have joined : ControlStore.joined
      { frames := session.store.frames ++ [⟨sessionId, event.frame⟩]
        evidence := session.store.evidence ++ event.evidence.map EvidenceRow.ofEnvelope }
      (session.store.sessionFrames harnessId sessionId ++ [event.frame])
      = session.store.joined (session.store.sessionFrames harnessId sessionId)
        ++ (event.evidence.map EvidenceRow.ofEnvelope).map (event.frame, ·) := by
    rw [joined_concat]
    congr 1
    · refine joined_append ?_ rfl
      intro frame member row inside same
      exact not_stored absent frame member (same.symm.trans (names row inside))
    · dsimp only
      rw [List.filter_append, unnamed, List.nil_append]
      exact congrArg _ (List.filter_eq_self.mpr (fun row member => by simpa using names row member))
  have unknown : ∀ envelope ∈ event.evidence,
      envelope.evidenceId ∉ session.controller.evidence.map (·.evidenceId) := by
    intro envelope inside listed
    rw [← sound.listed, List.map_map] at listed
    obtain ⟨pair, member, same⟩ := List.mem_map.mp listed
    exact fresh pair.2 (mem_joined member).2 envelope inside same
  have read : ((event.evidence.map EvidenceRow.ofEnvelope).map (event.frame, ·)).map
      (·.2.envelope) = event.evidence := by
    rw [List.map_map, List.map_map]
    refine (List.map_congr_left (fun envelope inside => ?_)).trans (List.map_id _)
    exact (envelope_ofEnvelope envelope).mpr (plain envelope inside).2
  refine ⟨?_, ?_, ?_, ?_⟩
  · intro row member
    rcases List.mem_append.mp member with old | new
    · exact findFrame_concat (sound.linked row old)
    · simp [ControlStore.findFrame, List.find?_append, names row new]
  · rw [frames, joined, List.map_append, sound.listed, read, ingested_evidence,
      if_pos newer, EvidenceHistory.append]
    congr 1
    exact (List.filter_eq_self.mpr (fun envelope inside => by
      simpa using unknown envelope inside)).symm
  · rw [frames, joined, List.pairwise_append]
    refine ⟨sound.ordered, ?_, ?_⟩
    · rw [List.pairwise_map, List.pairwise_map]
      refine increasing.imp ?_
      intro earlier later before
      exact Prod.Lex.toLex_lt_toLex.mpr (.inr ⟨rfl, before⟩)
    · intro pair member last inside
      obtain ⟨row, -, rfl⟩ := List.mem_map.mp inside
      have old := sound.below pair.1 (mem_joined member).1
      exact Prod.Lex.toLex_lt_toLex.mpr (.inl (frameKey_lt old newer))
  · rw [frames]
    intro frame member
    rcases List.mem_append.mp member with old | new
    · exact not_newer_ingested (.inl (sound.below frame old))
    · exact not_newer_ingested (.inr (List.mem_singleton.mp new))

theorem step (sound : RestartSound harnessId sessionId session)
    (step : SessionStep harnessId sessionId session event next)
    (careful : CarefulFrame session event)
    : RestartSound harnessId sessionId next := by
  obtain ⟨owner, framed, store, persisted, recorded, rfl⟩ := step.persisted
  rcases careful with ⟨newer, absent, plain, increasing⟩ | known
  · exact sound.joins owner newer absent plain increasing persisted recorded
  · have stored : ∀ envelope ∈ event.evidence,
        (framed.findEvidence envelope.evidenceId).isSome = true := by
      intro envelope inside
      rcases persistFrame_cases persisted with ⟨-, rfl⟩ | ⟨-, rfl⟩
      · exact (known envelope inside).1
      · exact (known envelope inside).1
    rw [recordEvidence_known stored recorded]
    exact sound.known owner persisted (fun newer envelope inside =>
      (known envelope inside).2 newer)

end RestartSound

theorem length_sessionFrames {events : List (IngestedFrame Value)}
    (run : Run (SessionFresh harnessId sessionId) (SessionStep harnessId sessionId) events session)
    : (session.store.sessionFrames harnessId sessionId).length ≤ events.length := by
  apply @Run.history _ _ _ _ (fun events session =>
    (session.store.sessionFrames harnessId sessionId).length ≤ events.length) ?_ ?_ _ _ run
  · exact fun _ fresh => Nat.le_of_eq (congrArg List.length fresh.1)
  · intro past session event next few step
    obtain ⟨owner, framed, store, persisted, recorded, rfl⟩ := step.persisted
    rw [List.length_append, List.length_singleton]
    have frames := recordEvidence_frames recorded
    rcases persistFrame_cases persisted with ⟨-, rfl⟩ | ⟨-, rfl⟩
    · rw [ControlStore.sessionFrames, frames]
      exact Nat.le_succ_of_le few
    · rw [sessionFrames_concat owner frames, List.length_append]
      exact Nat.succ_le_succ few

/-- What is listed for the session is the history, and a controller created from it starts with the
same history.
-/
def SurvivesRestart [PyRepr] (harnessId : String) (sessionId : Option String) (frameLimit : Nat)
    (session : ControlSession Value)
    : Prop :=
  session.store.listSessionEvidence harnessId sessionId frameLimit
    = some session.controller.evidence
  ∧ ∀ initial : ExposedSnapshot Value,
      (HarnessController.create initial session.controller.evidence).evidence
        = session.controller.evidence

/-- With plain payloads and new frames whose evidence joins the history in the order of its
identifiers, the parser history behind a restart is the one before it.
-/
theorem survivesRestart_of_run [PyRepr] {events : List (IngestedFrame Value)}
    {frameLimit : Nat} (positive : 0 < frameLimit)
    (run
      : Run (SessionFresh harnessId sessionId) (fun session event next =>
          SessionStep harnessId sessionId session event next ∧ CarefulFrame session event)
        events session)
    (few : events.length ≤ frameLimit)
    : SurvivesRestart harnessId sessionId frameLimit session := by
  have sound : RestartSound harnessId sessionId session :=
    run.invariant (fun _ fresh => restartSound_of_fresh fresh)
      (fun _ _ _ sound step => sound.step step.1 step.2)
  have frames := length_sessionFrames
    (run.map id (fun _ fresh => fresh) (fun _ _ _ step => step.1))
  refine ⟨sound.list_eq positive (Nat.le_trans frames few), fun initial => ?_⟩
  simp [HarnessController.create, EvidenceHistory.append]

end Restart

namespace TuplePayload

/-- No text that was persisted is printed as a container. -/
abbrev pyRepr : PyRepr := ⟨fun _ => ""⟩

def frame : TerminalFrame where
  frameId := "f"
  harnessId := "codex"
  capturedAt := 1
  rawText := ""
  paneEpoch := 0
  captureSequence := 1

def envelope (value : PayloadValue) : StoredEnvelope where
  evidenceId := "e"
  frameId := "f"
  harnessId := "codex"
  parserVersion := "1"
  capturedAt := 1
  evidenceType := "screen"
  payload := .cons "items" value .nil

def ingested (value : PayloadValue) : IngestedFrame Bool :=
  ⟨frame, [envelope value], fun _ => none⟩

def start : ControlSession Bool where
  store := ⟨[], []⟩
  controller := .create FailedWrite.initial []

def stored (value : PayloadValue) : ControlStore :=
  ⟨[⟨none, frame⟩], [EvidenceRow.ofEnvelope (envelope value)]⟩

theorem fresh : SessionFresh "codex" none start := ⟨rfl, nofun, _, rfl⟩

theorem ingestStep (value : PayloadValue)
    : SessionStep "codex" none start (ingested value)
        ⟨stored value, start.controller.ingested (ingested value)⟩ :=
  ⟨rfl, rfl⟩

/-- A payload of plain values is in the history behind a restart as it was before. -/
theorem survivesRestart_list
    : @SurvivesRestart Bool pyRepr "codex" none 64
        ⟨stored (.list .nil), start.controller.ingested (ingested (.list .nil))⟩ := by
  refine @survivesRestart_of_run Bool "codex" none _ _ pyRepr [ingested (.list .nil)] 64
    (by decide) ?_ (by decide)
  refine ⟨start, fresh, .cons ⟨ingestStep _, .inl ⟨rfl, rfl, ?_,
    List.pairwise_singleton _ _⟩⟩ (.nil _)⟩
  intro envelope member
  rw [List.mem_singleton.mp member]
  exact ⟨rfl, trivial, trivial⟩

/-- A tuple is read back as the object it is written as. -/
theorem not_survivesRestart
    : ∃ events session, Run (SessionFresh "codex" none) (SessionStep "codex" none) events session
        ∧ events.length ≤ 64
        ∧ ¬ @SurvivesRestart Bool pyRepr "codex" none 64 session := by
  refine ⟨[ingested (.tuple .nil)], _, ⟨start, fresh, .cons (ingestStep _) (.nil _)⟩, by decide,
    ?_⟩
  have listed : @ControlStore.listSessionEvidence pyRepr (stored (.tuple .nil)) "codex" none 64
      = some [@EvidenceRow.envelope pyRepr (.ofEnvelope (envelope (.tuple .nil)))] := by
    simp [ControlStore.listSessionEvidence, ControlStore.sessionFrames, ControlStore.joined,
      stored, frame, EvidenceRow.ofEnvelope, envelope]
  have history : (start.controller.ingested (ingested (.tuple .nil))).evidence
      = [envelope (.tuple .nil)] := rfl
  intro ⟨same, _⟩
  rw [listed, history] at same
  have read := (@envelope_ofEnvelope pyRepr (envelope (.tuple .nil))).mp
    (List.head_eq_of_cons_eq (Option.some.inj same))
  exact read.1

end TuplePayload

end Murder.Harness

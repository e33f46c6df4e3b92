import Murder.Harness.ComposerEntry

/-! What acknowledges a committed prompt.
The commit records the revision of its snapshot and of the transcript, but neither the user
turns that are visible already nor that a transcript is empty.
-/

namespace Murder.Harness

open Contracts

def Shows (snapshot : ObservationSnapshot) (fingerprint : String) : Prop :=
  ∃ tail, snapshot.transcriptTail.value = some tail
    ∧ fingerprint ∈ tail.visibleUserFingerprints

/-- What a commit explains: a turn, a generation or an empty composer that was not there. -/
inductive FreshEvidence (op : SubmitPromptOperation) (baseline later : ObservationSnapshot) : Prop
  | turn (shown : Shows later op.payloadFingerprint)
    (hidden : ¬Shows baseline op.payloadFingerprint)
  | generation (tail : TranscriptTailState) (recorded : Int)
    (observed : later.transcriptTail.value = some tail)
    (known : op.baselineTranscriptRevision = some recorded)
    (above : recorded < tail.transcriptRevision)
    (streams : tail.assistantStreaming = some true)
  | emptied (composer : ComposerState) (observed : later.composer.value = some composer)
    (empty : composer.isEmpty = true)

/-- The transcript is the one of the baseline and the composer holds the payload. -/
def Unchanged (op : SubmitPromptOperation) (baseline later : ObservationSnapshot) : Prop :=
  later.transcriptTail.value = baseline.transcriptTail.value
  ∧ ∃ composer, later.composer.value = some composer
    ∧ composer.contentFingerprint = some op.payloadFingerprint

/-- Every later snapshot that acknowledges the submission differs from the baseline. -/
structure FreshlyAcknowledged (op : SubmitPromptOperation) (baseline : ObservationSnapshot)
    : Prop where
  evidence : ∀ later, baseline.revision < later.revision →
    (submissionAcknowledged op later).value = .true → FreshEvidence op baseline later
  changed : ∀ later, baseline.revision < later.revision →
    (submissionAcknowledged op later).value = .true → ¬Unchanged op baseline later

/-- The baseline tells turns and generations behind the commit from earlier ones. -/
structure Distinguishing (baseline : ObservationSnapshot) (fingerprint : String) : Prop where
  hidden : ¬Shows baseline fingerprint
  begun : ∃ tail, baseline.transcriptTail.value = some tail ∧ tail.transcriptRevision ≠ 0

/-- What the commit against the baseline records. -/
structure CommitRecord (op : SubmitPromptOperation) (baseline : ObservationSnapshot)
    : Prop where
  acted : op.commitActionId ≠ none
  revision : op.baselineRevision = some baseline.revision
  transcript : op.baselineTranscriptRevision
    = baseline.transcriptTail.value.map (·.transcriptRevision)

section Commits

variable [DecimalDigits]

/-- The run commits against the baseline and may go on behind it. -/
inductive CommittedAt (baseline : ObservationSnapshot) : SubmitRun → Prop
  | commit {run : SubmitRun} {actionId : ActionId} {now : Timestamp} {decision : SubmitDecision}
    {action : SemanticAction SubmitAction}
    (decided : reconcileSubmitPrompt run.op baseline actionId now = .ok decision)
    (acts : decision.action = some action) (commits : action.payload = .commitPromptSubmission)
    : CommittedAt baseline (run.apply decision baseline now)
  | later {run next : SubmitRun} {event : SubmitEvent} (committed : CommittedAt baseline run)
    (step : SubmitStep run event next)
    : CommittedAt baseline next

variable {op : SubmitPromptOperation} {decision : SubmitDecision}
  {baseline snapshot : ObservationSnapshot} {now : Timestamp} {run after : SubmitRun}

omit [DecimalDigits] in
theorem record_of_commit {action : SemanticAction SubmitAction}
    (acts : decision.action = some action) (commits : action.payload = .commitPromptSubmission)
    : CommitRecord (advanceSubmitPrompt op decision baseline now) baseline := by
  unfold advanceSubmitPrompt
  rw [acts]
  dsimp only
  unfold SubmitPromptOperation.record
  rw [commits]
  exact ⟨Option.some_ne_none _, rfl, rfl⟩

omit [DecimalDigits] in
theorem kept_of_not_commit
    (other : ∀ action, decision.action = some action → action.payload ≠ .commitPromptSubmission)
    : (advanceSubmitPrompt op decision snapshot now).commitActionId = op.commitActionId
      ∧ (advanceSubmitPrompt op decision snapshot now).baselineRevision = op.baselineRevision
      ∧ (advanceSubmitPrompt op decision snapshot now).baselineTranscriptRevision
        = op.baselineTranscriptRevision := by
  unfold advanceSubmitPrompt
  cases acts : decision.action with
  | none => exact ⟨rfl, rfl, rfl⟩
  | some action =>
    dsimp only
    unfold SubmitPromptOperation.record
    cases carried : action.payload with
    | clearComposer => exact ⟨rfl, rfl, rfl⟩
    | insertPromptPayload chunks fingerprint => exact ⟨rfl, rfl, rfl⟩
    | commitPromptSubmission => exact absurd carried (other action acts)

theorem Decided.first_commit {action : SemanticAction SubmitAction}
    (decided : Decided op snapshot now decision) (acts : decision.action = some action)
    (commits : action.payload = .commitPromptSubmission)
    : op.commitActionId = none := by
  cases decided with
  | elsewhere quiet _ => rw [quiet] at acts; cases acts
  | established _ _ quiet _ => rw [quiet] at acts; cases acts
  | stays _ _ quiet _ =>
    rcases quiet with quiet | clears
    · rw [quiet] at acts
      cases acts
    · obtain ⟨clear, acts', clears⟩ := clears
      cases acts.symm.trans acts'
      rw [clears] at commits
      cases commits
  | emptied _ _ quiet _ => rw [quiet] at acts; cases acts
  | inserts _ _ _ _ inserts =>
    obtain ⟨insert, chunks, fingerprint, acts', inserts⟩ := inserts
    cases acts.symm.trans acts'
    rw [inserts] at commits
    cases commits
  | verified _ _ quiet _ => rw [quiet] at acts; cases acts
  | commits _ _ _ first _ => exact first

theorem CommitRecord.step {event : SubmitEvent} (record : CommitRecord run.op baseline)
    (step : SubmitStep run event after)
    : CommitRecord after.op baseline := by
  cases step with
  | @reconcile snapshot actionId now decision decided =>
    have kept := @kept_of_not_commit run.op decision snapshot now (fun action acts commits =>
      record.acted ((decided_of_reconcile decided).first_commit acts commits))
    exact ⟨kept.1 ▸ record.acted, kept.2.1.trans record.revision,
      kept.2.2.trans record.transcript⟩
  | close snapshot reason now =>
    have kept := @kept_of_not_commit run.op (.escalate .escalated reason) snapshot now
      (fun action acts => nomatch acts)
    exact ⟨kept.1 ▸ record.acted, kept.2.1.trans record.revision,
      kept.2.2.trans record.transcript⟩

/-- The record stays as it was made, by induction on the steps behind the commit. -/
theorem CommittedAt.record (committed : CommittedAt baseline run)
    : CommitRecord run.op baseline := by
  induction committed with
  | commit _ acts commits => exact record_of_commit acts commits
  | later _ step ih => exact ih.step step

end Commits

variable {op : SubmitPromptOperation} {baseline later : ObservationSnapshot}

theorem transcriptAcknowledges_isSome {tail : TranscriptTailState}
    : (transcriptAcknowledges op tail).isSome
      ↔ op.payloadFingerprint ∈ tail.visibleUserFingerprints
        ∨ op.transcriptBaseline < tail.transcriptRevision
          ∧ tail.assistantStreaming = some true := by
  unfold transcriptAcknowledges
  rw [List.contains_eq_mem]
  by_cases shown : op.payloadFingerprint ∈ tail.visibleUserFingerprints
  · simp [shown]
  · by_cases streams : op.transcriptBaseline < tail.transcriptRevision
      ∧ tail.assistantStreaming = some true
    · simp [shown, streams]
    · simp only [shown, streams, decide_false, Bool.false_eq_true, if_false, Option.isSome_none,
        or_self]

theorem acknowledged_iff (record : CommitRecord op baseline)
    : (submissionAcknowledged op later).value = .true
      ↔ baseline.revision < later.revision
        ∧ ((∃ tail, later.transcriptTail.value = some tail
            ∧ (op.payloadFingerprint ∈ tail.visibleUserFingerprints
              ∨ op.transcriptBaseline < tail.transcriptRevision
                ∧ tail.assistantStreaming = some true))
          ∨ ∃ composer, later.composer.value = some composer
            ∧ composer.contentFingerprint ≠ some op.payloadFingerprint
            ∧ composer.isEmpty = true) := by
  obtain ⟨actionId, acted⟩ := Option.ne_none_iff_exists'.mp record.acted
  unfold submissionAcknowledged
  rw [acted, record.revision]
  dsimp only
  by_cases newer : baseline.revision < later.revision
  · rw [if_neg (not_not.mpr newer)]
    cases signal : later.transcriptTail.value.bind (transcriptAcknowledges op) with
    | some reason =>
      obtain ⟨tail, observed, found⟩ := Option.bind_eq_some_iff.mp signal
      refine iff_of_true rfl ⟨newer, .inl ⟨tail, observed, ?_⟩⟩
      exact transcriptAcknowledges_isSome.mp (Option.isSome_of_eq_some found)
    | none =>
      have silent : ¬∃ tail, later.transcriptTail.value = some tail
          ∧ (op.payloadFingerprint ∈ tail.visibleUserFingerprints
            ∨ op.transcriptBaseline < tail.transcriptRevision
              ∧ tail.assistantStreaming = some true) := by
        intro speaks
        obtain ⟨tail, observed, speaks⟩ := speaks
        have found := transcriptAcknowledges_isSome.mpr speaks
        rw [observed, Option.bind_some] at signal
        rw [signal] at found
        cases found
      rw [and_iff_right newer, or_iff_right silent]
      cases composed : later.composer.value with
      | none => simp
      | some composer =>
        by_cases holds : composer.contentFingerprint = some op.payloadFingerprint
        · simp [holds]
        · by_cases empty : composer.isEmpty
          · simp [holds, empty]
          · simp [holds, empty]
  · rw [if_pos newer]
    exact iff_of_false (fun bad => nomatch bad) (fun both => newer both.1)

def ObservationRevision.next (revision : ObservationRevision) : ObservationRevision :=
  ⟨revision.paneEpoch, revision.captureSequence + 1, 0⟩

theorem ObservationRevision.lt_next (revision : ObservationRevision) : revision < revision.next :=
  .inr ⟨rfl, .inl (Nat.lt_succ_self _)⟩

def again (baseline : ObservationSnapshot) : ObservationSnapshot :=
  { baseline with revision := baseline.revision.next, composer := .unknown }

/-- A transcript without turns in which the assistant streams. -/
def streaming (baseline : ObservationSnapshot) : ObservationSnapshot :=
  { baseline with
    revision := baseline.revision.next
    transcriptTail := .present ⟨none, none, [], some true, some false, 0⟩
    composer := .unknown }

theorem FreshlyAcknowledged.hidden (fresh : FreshlyAcknowledged op baseline)
    (record : CommitRecord op baseline)
    : ¬Shows baseline op.payloadFingerprint := by
  intro shown
  obtain ⟨tail, observed, visible⟩ := id shown
  have evidence := fresh.evidence (again baseline) baseline.revision.lt_next
    ((acknowledged_iff record).mpr
      ⟨baseline.revision.lt_next, .inl ⟨tail, observed, .inl visible⟩⟩)
  cases evidence with
  | turn _ hidden => exact hidden shown
  | generation later recorded observed' known above _ =>
    cases observed.symm.trans observed'
    rw [record.transcript, observed, Option.map_some] at known
    cases known
    exact lt_irrefl _ above
  | emptied composer observed _ => cases observed

theorem FreshlyAcknowledged.begun (fresh : FreshlyAcknowledged op baseline)
    (record : CommitRecord op baseline)
    : ∃ tail, baseline.transcriptTail.value = some tail ∧ tail.transcriptRevision ≠ 0 := by
  by_contra none_
  push Not at none_
  have zero : op.transcriptBaseline = -1 ∧
      ∀ recorded, op.baselineTranscriptRevision = some recorded → recorded = 0 := by
    unfold SubmitPromptOperation.transcriptBaseline
    rw [record.transcript]
    cases observed : baseline.transcriptTail.value with
    | none => exact ⟨rfl, fun recorded known => nomatch known⟩
    | some tail =>
      rw [Option.map_some]
      dsimp only
      rw [if_pos (none_ tail observed)]
      exact ⟨rfl, fun recorded known => (Option.some.inj known).symm.trans (none_ tail observed)⟩
  have evidence := fresh.evidence (streaming baseline) baseline.revision.lt_next
    ((acknowledged_iff record).mpr ⟨baseline.revision.lt_next,
      .inl ⟨_, rfl, .inr ⟨by rw [zero.1]; decide, rfl⟩⟩⟩)
  cases evidence with
  | turn shown _ =>
    obtain ⟨tail, observed, visible⟩ := shown
    cases observed
    cases visible
  | generation tail recorded observed known above _ =>
    cases observed
    rw [zero.2 recorded known] at above
    exact lt_irrefl _ above
  | emptied composer observed _ => cases observed

theorem Distinguishing.freshlyAcknowledged (record : CommitRecord op baseline)
    (distinct : Distinguishing baseline op.payloadFingerprint)
    : FreshlyAcknowledged op baseline := by
  obtain ⟨tail, observed, nonzero⟩ := distinct.begun
  have known : op.baselineTranscriptRevision = some tail.transcriptRevision := by
    rw [record.transcript, observed, Option.map_some]
  have base : op.transcriptBaseline = tail.transcriptRevision := by
    unfold SubmitPromptOperation.transcriptBaseline
    rw [known]
    exact if_neg nonzero
  constructor
  · intro later _ acknowledged
    obtain ⟨-, signal⟩ := (acknowledged_iff record).mp acknowledged
    rcases signal with speaks | cleared
    · obtain ⟨tail', observed', visible | streams⟩ := speaks
      · exact .turn ⟨tail', observed', visible⟩ distinct.hidden
      · exact .generation tail' _ observed' known (base ▸ streams.1) streams.2
    · obtain ⟨composer, composed, -, empty⟩ := cleared
      exact .emptied composer composed empty
  · intro later _ acknowledged unchanged
    obtain ⟨same, composer, composed, holds⟩ := unchanged
    obtain ⟨-, signal⟩ := (acknowledged_iff record).mp acknowledged
    rcases signal with speaks | cleared
    · obtain ⟨tail', observed', visible | streams⟩ := speaks
      · exact distinct.hidden ⟨tail', same.symm.trans observed', visible⟩
      · cases observed.symm.trans (same.symm.trans observed')
        exact lt_irrefl _ (base ▸ streams.1)
    · obtain ⟨composer', composed', other, -⟩ := cleared
      cases composed.symm.trans composed'
      exact other holds

/-- Acknowledgments behind a commit are fresh exactly when its baseline does not show the
payload's turn already and its transcript has turns.
-/
theorem freshlyAcknowledged_iff [DecimalDigits] {run : SubmitRun}
    (committed : CommittedAt baseline run)
    : FreshlyAcknowledged run.op baseline
      ↔ Distinguishing baseline run.op.payloadFingerprint := by
  constructor
  · intro fresh
    exact ⟨fresh.hidden committed.record, fresh.begun committed.record⟩
  · intro distinct
    exact distinct.freshlyAcknowledged committed.record

namespace RepeatedPrompt

open Dialog

/-- The composer holds the prompt below a transcript with one user turn. -/
def shows (turn : String) : ObservationSnapshot :=
  { Dialog.shows 5 false "go" with
    transcriptTail := .present ⟨some ⟨turn, "user"⟩, none, [turn], some false, some true, 1⟩ }

/-- The operation whose composer was verified. -/
def ready : SubmitRun where
  op := { created.op with envelope := { created.op.envelope with phase := .readyToCommit } }

def committed (turn : String) : SubmitRun :=
  ready.apply (reconcileReady ready.op "c") (shows turn) 5

theorem committedAt (turn : String) : @CommittedAt digits (shows turn) (committed turn) :=
  @CommittedAt.commit digits (shows turn) ready "c" 5 _ _ rfl rfl rfl

theorem other_prompt_fresh
    : FreshlyAcknowledged (committed "stop").op (shows "stop") := by
  refine (@freshlyAcknowledged_iff _ digits _ (committedAt "stop")).mpr ⟨?_, _, rfl, by decide⟩
  intro shown
  obtain ⟨tail, observed, visible⟩ := shown
  cases observed
  revert visible
  decide

/-- The turn of an equal earlier prompt acknowledges a prompt that is still in the composer. -/
theorem not_freshlyAcknowledged
    : ∃ baseline run, @CommittedAt digits baseline run ∧ ¬FreshlyAcknowledged run.op baseline := by
  refine ⟨_, _, committedAt "go", fun fresh => ?_⟩
  refine fresh.changed { shows "go" with revision := ⟨0, 6, 0⟩ } (by decide) (by decide) ?_
  exact ⟨rfl, _, rfl, rfl⟩

end RepeatedPrompt

end Murder.Harness

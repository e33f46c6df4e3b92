import Murder.Workflows.StaticRuns
import Murder.Workflows.Verdicts

/-! How the end of a static DAG depends on the cut of its signals into batches.
The verdicts decide the end, unless a signal finishes a stage that an earlier cancellation
has doomed: a cut between the two cancels the stage first.
-/

namespace Murder.Workflows

open Murder.Contracts

def StaticDagMachine.endStatus [PyRepr] (machine : StaticDagMachine)
    : StaticDagState → List (List WorkflowSignalRecord) → Except Failure WorkflowStatus
  | _, [] => .ok .waiting
  | state, batch :: rest => do
      let decision ← machine.advance state batch
      if decision.status.terminal then
        .ok decision.status
      else
        endStatus machine decision.state rest

/-- Until a stage failed, no signal finishes a stage that earlier signals have doomed. -/
def Timely [PyRepr] (machine : StaticDagMachine) (signals : List WorkflowSignalRecord)
    : Prop :=
  ∀ before signal after, signals = before ++ signal :: after
    → ¬ Failing machine.definition.stages (machine.verdict before)
    → ∀ stageId status, machine.outcome signal = some (stageId, status)
      → ¬ Doomed machine.definition.stages (machine.verdict before) stageId

section Batch

variable [PyRepr] {machine : StaticDagMachine} {state : StaticDagState}
  {signals batch : List WorkflowSignalRecord} {settled : ByStage}
  {decision : StaticDagMachine.Decision}

theorem Advanced.mem_statuses (advanced : Advanced machine state batch settled decision)
    {status : StageStatus}
    : status ∈ decision.state.stages.map StageRunState.status
        ↔ ∃ stageDef ∈ machine.definition.stages,
            statusOf settled stageDef.id = some status := by
  rw [List.mem_map]
  constructor
  · intro h
    obtain ⟨stage, member, same⟩ := h
    obtain ⟨stageDef, known, found⟩ := advanced.mem_stages.mp member
    exact ⟨stageDef, known, same ▸ statusOf_some found⟩
  · intro h
    obtain ⟨stageDef, known, current⟩ := h
    obtain ⟨stage, found, same⟩ := Option.map_eq_some_iff.mp current
    exact ⟨stage, advanced.mem_stages.mpr ⟨stageDef, known, found⟩, same⟩

theorem Advanced.statuses_nonempty (advanced : Advanced machine state batch settled decision)
    (wellFormed : WellFormed machine.definition.stages)
    : decision.state.stages.map StageRunState.status ≠ [] := by
  obtain ⟨stageDef, known⟩ := List.exists_mem_of_ne_nil _ wellFormed.nonempty
  obtain ⟨stage, found, -⟩ := advanced.sound.found known
  have member := advanced.mem_statuses.mpr ⟨stageDef, known, statusOf_some found⟩
  exact List.ne_nil_of_mem member

theorem Advanced.failed_of_status (advanced : Advanced machine state batch settled decision)
    {stageDef : StageDef} (member : stageDef ∈ machine.definition.stages)
    (failed : statusOf settled stageDef.id = some .failed)
    : decision.status = .failed := by
  rw [advanced.status, runStatus_failed]
  exact advanced.mem_statuses.mpr ⟨stageDef, member, failed⟩

/-- Stages that agree with verdicts without a failure give the status those judge. -/
theorem Advanced.judged {verdict : String → Option StageStatus}
    (advanced : Advanced machine state batch settled decision)
    (wellFormed : WellFormed machine.definition.stages)
    (notFailing : ¬ Failing machine.definition.stages verdict)
    (finished : ∀ stageId status, verdict stageId = some status → status.terminal = true)
    (agrees
      : Agrees machine.definition.stages verdict (Doomed machine.definition.stages verdict)
          settled)
    : Judged machine.definition.stages verdict decision.status := by
  have nonempty := advanced.statuses_nonempty wellFormed
  have of_status : ∀ stageDef ∈ machine.definition.stages, ∀ status,
      statusOf settled stageDef.id = some status → status = .succeeded ∨ status = .failed →
      verdict stageDef.id = some status := by
    intro stageDef member status current wanted
    cases given : verdict stageDef.id with
    | some other =>
      have same := agrees.decided stageDef member other given
      rw [current] at same
      exact same.symm
    | none =>
      have undecided := agrees.undecided stageDef member given
      rw [current] at undecided
      rcases wanted with rfl | rfl <;> simp at undecided
  have noFailure : StageStatus.failed ∉ decision.state.stages.map StageRunState.status := by
    intro failed
    obtain ⟨stageDef, member, current⟩ := advanced.mem_statuses.mp failed
    exact notFailing ⟨stageDef, member, of_status stageDef member _ current (.inr rfl)⟩
  have completed : (∀ status ∈ decision.state.stages.map StageRunState.status,
        status = .succeeded)
      ↔ ∀ stageDef ∈ machine.definition.stages, verdict stageDef.id = some .succeeded := by
    constructor
    · intro all stageDef member
      obtain ⟨stage, found, -⟩ := advanced.sound.found member
      have succeeded := all _ (advanced.mem_statuses.mpr ⟨stageDef, member, statusOf_some found⟩)
      have current := statusOf_some found
      rw [succeeded] at current
      exact of_status stageDef member _ current (.inl rfl)
    · intro all status listed
      obtain ⟨stageDef, member, current⟩ := advanced.mem_statuses.mp listed
      have same := agrees.decided stageDef member _ (all stageDef member)
      exact Option.some.inj (current.symm.trans same)
  have closed : (∀ status ∈ decision.state.stages.map StageRunState.status,
        status.terminal = true)
      ↔ ∀ stageDef ∈ machine.definition.stages,
          (verdict stageDef.id).isSome ∨ Doomed machine.definition.stages verdict stageDef.id := by
    constructor
    · intro all stageDef member
      cases given : verdict stageDef.id with
      | some status => exact .inl rfl
      | none =>
        have ended := fun status current =>
          all status (advanced.mem_statuses.mpr ⟨stageDef, member, current⟩)
        rcases agrees.undecided stageDef member given with blocked | ready | cancelled
        · simpa [StageStatus.terminal] using ended _ blocked
        · simpa [StageStatus.terminal] using ended _ ready
        · exact .inr cancelled.2
    · intro all status listed
      obtain ⟨stageDef, member, current⟩ := advanced.mem_statuses.mp listed
      rcases all stageDef member with decided | doomed
      · obtain ⟨given, found⟩ := Option.isSome_iff_exists.mp decided
        have same := agrees.decided stageDef member given found
        rw [current, Option.some.injEq] at same
        exact same ▸ finished _ _ found
      · have cancelled := agrees.cancelled_of_doomed wellFormed advanced.sound advanced.quiet doomed
        rw [current, Option.some.injEq] at cancelled
        rw [cancelled]
        rfl
  have cancelled : StageStatus.cancelled ∈ decision.state.stages.map StageRunState.status
      → ¬ ∀ status ∈ decision.state.stages.map StageRunState.status, status = .succeeded := by
    intro listed all
    simpa using all _ listed
  rw [advanced.status]
  refine ⟨(runStatus_completed nonempty).trans completed, ?_, ?_, runStatus_cases _⟩
  · exact iff_of_false (fun failed => noFailure ((runStatus_failed _).mp failed)) notFailing
  · rw [runStatus_cancelled nonempty, closed]
    constructor
    · intro h
      obtain ⟨all, -, some_cancelled⟩ := h
      exact ⟨fun succeeded => cancelled some_cancelled (completed.mpr succeeded), notFailing, all⟩
    · intro h
      obtain ⟨notAll, -, all⟩ := h
      refine ⟨all, noFailure, ?_⟩
      by_contra none_cancelled
      refine notAll (completed.mp (fun status listed => ?_))
      have ended := closed.mpr all status listed
      cases status with
      | succeeded => rfl
      | failed => exact absurd listed noFailure
      | cancelled => exact absurd listed none_cancelled
      | _ => simp [StageStatus.terminal] at ended

end Batch

variable {signal : WorkflowSignalRecord}

section Cuts

variable [PyRepr] {machine : StaticDagMachine} {inputs : JsonObject}
  {all before rest signals batch : List WorkflowSignalRecord}
  {batches : List (List WorkflowSignalRecord)} {byStage : ByStage} {state : StaticDagState}

/-- The stages at the start of a batch, or after some of its signals: they agree with the
verdicts so far, or one of them failed.
-/
def Tracks (machine : StaticDagMachine) (signals : List WorkflowSignalRecord)
    (byStage : ByStage) : Prop :=
  (¬ Failing machine.definition.stages (machine.verdict signals)
    ∧ Agrees machine.definition.stages (machine.verdict signals)
        (Doomed machine.definition.stages (machine.verdict signals)) byStage)
  ∨ ∃ stageDef ∈ machine.definition.stages,
      machine.verdict signals stageDef.id = some .failed
        ∧ statusOf byStage stageDef.id = some .failed

theorem Timely.spares (timely : Timely machine all) (split : all = before ++ signal :: rest)
    (notFailing : ¬ Failing machine.definition.stages (machine.verdict before)) {stageId : String}
    (doomed : Doomed machine.definition.stages (machine.verdict before) stageId)
    : machine.verdict (before ++ [signal]) stageId = none := by
  cases given : machine.verdict (before ++ [signal]) stageId with
  | none => rfl
  | some status =>
    have finishes := (verdict_snoc doomed.undecided).mp given
    exact absurd doomed (timely before signal rest split notFailing stageId status finishes)

theorem Tracks.applied (timely : Timely machine all)
    (split : all = before ++ signal :: rest) (tracks : Tracks machine before byStage)
    : Tracks machine (before ++ [signal]) (machine.applySignal byStage signal) := by
  have effect := applySignal_applied machine byStage signal
  rcases tracks with ⟨notFailing, agrees⟩ | ⟨stageDef, member, failed, current⟩
  · have extended : Agrees machine.definition.stages (machine.verdict (before ++ [signal]))
        (Doomed machine.definition.stages (machine.verdict (before ++ [signal])))
        (machine.applySignal byStage signal) := by
      refine agrees.applied effect (timely before signal rest split notFailing) ?_
      intro stageId doomed _
      exact doomed.extends (fun _ _ given => verdict_extends given _)
        (fun _ => timely.spares split notFailing)
    by_cases failing : Failing machine.definition.stages (machine.verdict (before ++ [signal]))
    · obtain ⟨stageDef, member, failed⟩ := failing
      exact .inr ⟨stageDef, member, failed, extended.decided stageDef member _ failed⟩
    · exact .inl ⟨failing, extended⟩
  · exact .inr ⟨stageDef, member, verdict_extends failed _, effect.keeps.status current rfl⟩

/-- A batch keeps track of the verdicts, by induction over its signals. -/
theorem Tracks.appliedAll (timely : Timely machine all) (split : all = before ++ (batch ++ rest))
    (tracks : Tracks machine before byStage)
    : Tracks machine (before ++ batch) (batch.foldl machine.applySignal byStage) := by
  induction batch generalizing before byStage with
  | nil => simpa using tracks
  | cons signal later ih =>
    have first := tracks.applied timely split
    have splitNext : all = (before ++ [signal]) ++ (later ++ rest) := by simpa using split
    have remaining := ih splitNext first
    simpa using remaining

/-- A run between two batches: its stages agree with the verdicts, which leave it waiting. -/
structure Boundary (machine : StaticDagMachine) (signals : List WorkflowSignalRecord)
    (state : StaticDagState) : Prop where
  steady : Steady machine state
  agrees
    : Agrees machine.definition.stages (machine.verdict signals)
        (Doomed machine.definition.stages (machine.verdict signals))
        (ByStage.ofStages state.stages)
  waiting : Judged machine.definition.stages (machine.verdict signals) .waiting

theorem Boundary.notFailing (boundary : Boundary machine signals state)
    : ¬ Failing machine.definition.stages (machine.verdict signals) :=
  fun failing => by simpa using boundary.waiting.failed.mpr failing

theorem Boundary.decided (wellFormed : WellFormed machine.definition.stages)
    (timely : Timely machine all) (split : all = before ++ (batch ++ rest))
    (boundary : Boundary machine before state)
    : ∃ decision,
        machine.advance state batch = .ok decision
          ∧ Judged machine.definition.stages (machine.verdict (before ++ batch)) decision.status
          ∧ (decision.status = .waiting → Boundary machine (before ++ batch) decision.state) := by
  obtain ⟨settled, decision, result, advanced⟩ :=
    advance_returns wellFormed boundary.steady batch
  have tracks : Tracks machine (before ++ batch)
      (batch.foldl machine.applySignal (ByStage.ofStages state.stages)) :=
    Tracks.appliedAll timely split (.inl ⟨boundary.notFailing, boundary.agrees⟩)
  refine ⟨decision, result, ?_⟩
  rcases tracks with ⟨notFailing, agrees⟩ | ⟨stageDef, member, failed, current⟩
  · have agreesSettled : Agrees machine.definition.stages (machine.verdict (before ++ batch))
        (Doomed machine.definition.stages (machine.verdict (before ++ batch))) settled :=
      propagation_keeps
        (fun _ _ _ _ member agrees effect =>
          agrees.settled wellFormed notFailing (fun _ _ => verdict_terminal) member effect)
        agrees advanced.ends
    have judged := advanced.judged wellFormed notFailing (fun _ _ => verdict_terminal)
      agreesSettled
    refine ⟨judged, fun waiting => ⟨advanced.steady wellFormed, ?_, waiting ▸ judged⟩⟩
    have stored := fun stageDef (member : stageDef ∈ machine.definition.stages) =>
      advanced.statusOf_stored wellFormed member
    exact {
      decided := fun stageDef member status given =>
        (stored stageDef member).trans (agreesSettled.decided stageDef member status given)
      undecided := by
        intro stageDef member undecided
        have current := agreesSettled.undecided stageDef member undecided
        rwa [← stored stageDef member] at current
    }
  · have stopped := (propagation_keepsTerminal advanced.ends).status current rfl
    have status := advanced.failed_of_status member stopped
    rw [status]
    exact ⟨.of_failing ⟨stageDef, member, failed⟩, by simp⟩

/-- What is judged terminal after a prefix stays so, by induction over the rest. -/
theorem Judged.stays (timely : Timely machine all) (split : all = before ++ rest)
    {status : WorkflowStatus} (finished : status.terminal = true)
    (judged : Judged machine.definition.stages (machine.verdict before) status)
    : Judged machine.definition.stages (machine.verdict all) status := by
  induction rest generalizing before with
  | nil =>
    rw [split, List.append_nil]
    exact judged
  | cons signal later ih =>
    have next := judged.extends finished
      (fun _ _ given => verdict_extends given [signal])
      (fun notFailing _ => timely.spares split notFailing)
    exact ih (by simpa using split) next

/-- Timely signals end a run as their verdicts judge, however they are cut, by induction
over the batches.
-/
theorem endStatus_judged (wellFormed : WellFormed machine.definition.stages)
    (timely : Timely machine all) (split : all = before ++ batches.flatten)
    (boundary : Boundary machine before state)
    : ∃ status,
        machine.endStatus state batches = .ok status
          ∧ Judged machine.definition.stages (machine.verdict all) status := by
  induction batches generalizing before state with
  | nil =>
    refine ⟨.waiting, rfl, ?_⟩
    rw [split, List.flatten_nil, List.append_nil]
    exact boundary.waiting
  | cons batch later ih =>
    rw [List.flatten_cons] at split
    obtain ⟨decision, result, judged, next⟩ := boundary.decided wellFormed timely split
    have splitNext : all = (before ++ batch) ++ later.flatten := by
      rw [split, List.append_assoc]
    rcases judged.ended with finished | waiting
    · refine ⟨decision.status, ?_, judged.stays timely splitNext finished⟩
      simp [StaticDagMachine.endStatus, result, finished, bind, Except.bind]
    · obtain ⟨status, ended, judgedAll⟩ := ih splitNext (next waiting)
      refine ⟨status, ?_, judgedAll⟩
      simpa [StaticDagMachine.endStatus, result, waiting, WorkflowStatus.terminal, bind,
        Except.bind] using ended

theorem Boundary.initial (wellFormed : WellFormed machine.definition.stages)
    (inputs : JsonObject)
    : Boundary machine [] (machine.initializeState inputs) := by
  obtain ⟨first, known⟩ := List.exists_mem_of_ne_nil _ wellFormed.nonempty
  have undecided : ∀ stageId, machine.verdict [] stageId = none := fun _ => rfl
  have unfailing : ¬ Failing machine.definition.stages (machine.verdict []) := by
    intro failing
    obtain ⟨stageDef, -, failed⟩ := failing
    simp [undecided] at failed
  have undoomed : ∀ stageId, ¬ Doomed machine.definition.stages (machine.verdict []) stageId := by
    intro stageId doomed
    induction doomed with
    | upstream _ _ _ cancelled => simp [undecided] at cancelled
    | downstream _ _ _ _ ih => exact ih
  refine ⟨initializeState_steady wellFormed inputs, ⟨?_, ?_⟩, ?_⟩
  · intro stageDef _ status given
    simp [undecided] at given
  · intro stageDef member _
    rw [statusOf_some (initializeState_found wellFormed inputs member)]
    by_cases root : stageDef.dependsOn = []
    · simp [root]
    · simp [root]
  · exact {
      completed := by
        refine iff_of_false (by simp) (fun succeeded => ?_)
        simpa [undecided] using succeeded first known
      failed := iff_of_false (by simp) unfailing
      cancelled := by
        refine iff_of_false (by simp) (fun closed => ?_)
        rcases closed.2.2 first known with decided | doomed
        · simp [undecided] at decided
        · exact undoomed _ doomed
      ended := .inr rfl
    }

/-- Success and failure come from verdicts, and every verdict closed its stage. -/
structure Warranted (machine : StaticDagMachine) (signals : List WorkflowSignalRecord)
    (byStage : ByStage) : Prop where
  warranted
    : ∀ stageDef ∈ machine.definition.stages, ∀ status,
        statusOf byStage stageDef.id = some status → status = .succeeded ∨ status = .failed
          → machine.verdict signals stageDef.id = some status
  closed
    : ∀ stageDef ∈ machine.definition.stages, ∀ status,
        machine.verdict signals stageDef.id = some status
          → ∃ current, statusOf byStage stageDef.id = some current ∧ current.terminal = true

theorem Warranted.applied {next : ByStage} (sound : Sound machine.definition.stages byStage)
    (warranted : Warranted machine before byStage) (effect : Applied machine byStage signal next)
    : Warranted machine (before ++ [signal]) next := by
  refine ⟨?_, ?_⟩
  · intro stageDef member status current wanted
    cases known : machine.verdict before stageDef.id with
    | some given =>
      obtain ⟨was, found, finished⟩ := warranted.closed stageDef member given known
      have stays := effect.keeps.status found finished
      rw [current, Option.some.injEq] at stays
      have standing := warranted.warranted stageDef member status (stays ▸ found) wanted
      exact verdict_extends standing [signal]
    | none =>
      have fresh : statusOf byStage stageDef.id ≠ some status := by
        intro same
        have given := warranted.warranted stageDef member status same wanted
        simp [known] at given
      cases effect with
      | ignored => exact absurd current fresh
      | @finished stageId payload stage addressed found _ =>
        by_cases same : stageDef.id = stageId
        · rw [same, statusOf_set_same, Option.some.injEq] at current
          rw [same] at known ⊢
          exact current ▸ (verdict_snoc known).mpr (outcome_of_addressed addressed)
        · rw [statusOf_set_other same] at current
          exact absurd current fresh
  · intro stageDef member status given
    cases known : machine.verdict before stageDef.id with
    | some earlier =>
      obtain ⟨was, found, finished⟩ := warranted.closed stageDef member earlier known
      exact ⟨was, effect.keeps.status found finished, finished⟩
    | none =>
      obtain ⟨payload, addressed, -⟩ := outcome_some ((verdict_snoc known).mp given)
      cases effect with
      | ignored closed =>
        obtain ⟨stage, found, -⟩ := sound.found member
        exact ⟨_, statusOf_some found, closed _ _ _ addressed found⟩
      | finished addressed' _ _ =>
        have equal := addressed.symm.trans addressed'
        simp only [Option.some.injEq, Prod.mk.injEq] at equal
        rw [equal.1]
        exact ⟨_, statusOf_set_same .., finishedAs_terminal _⟩

theorem Warranted.appliedAll (batch : List WorkflowSignalRecord)
    (sound : Sound machine.definition.stages byStage)
    (warranted : Warranted machine before byStage)
    : Warranted machine (before ++ batch) (batch.foldl machine.applySignal byStage) := by
  induction batch generalizing before byStage with
  | nil => simpa using warranted
  | cons signal later ih =>
    have effect := applySignal_applied machine byStage signal
    have remaining := ih (effect.sound sound) (warranted.applied sound effect)
    simpa using remaining

theorem Warranted.settled {next : ByStage} {stageDef : StageDef} {changed : Bool}
    (warranted : Warranted machine before byStage)
    (effect : Settled byStage stageDef next changed)
    : Warranted machine before next := by
  refine ⟨?_, ?_⟩
  · intro other member status current wanted
    rcases effect.status other.id with same | ⟨-, -, readied | cancelled⟩
    · rw [same] at current
      exact warranted.warranted other member status current wanted
    · rw [readied.1, Option.some.injEq] at current
      simp [← current] at wanted
    · rw [cancelled.1, Option.some.injEq] at current
      simp [← current] at wanted
  · intro other member status given
    obtain ⟨current, found, finished⟩ := warranted.closed other member status given
    exact ⟨current, effect.keeps.status found finished, finished⟩

/-- Without verdicts nothing succeeded or failed. -/
theorem Warranted.initial (wellFormed : WellFormed machine.definition.stages)
    (inputs : JsonObject)
    : Warranted machine [] (ByStage.ofStages (machine.initializeState inputs).stages) := by
  refine ⟨?_, ?_⟩
  · intro stageDef member status current wanted
    rw [statusOf_some (initializeState_found wellFormed inputs member)] at current
    by_cases root : stageDef.dependsOn = []
    · simp only [root, if_true, Option.some.injEq] at current
      simp [← current] at wanted
    · simp only [root, if_false, Option.some.injEq] at current
      simp [← current] at wanted
  · intro stageDef _ status given
    simp [StaticDagMachine.verdict] at given

/-- A run completes or fails in some cut only by the verdicts of all its signals, by
induction over the batches.
-/
theorem endStatus_warranted (wellFormed : WellFormed machine.definition.stages)
    (split : all = before ++ batches.flatten) (steady : Steady machine state)
    (warranted : Warranted machine before (ByStage.ofStages state.stages))
    {status : WorkflowStatus} (ended : machine.endStatus state batches = .ok status)
    : (status = .completed
        → ∀ stageDef ∈ machine.definition.stages,
            machine.verdict all stageDef.id = some .succeeded)
      ∧ (status = .failed → Failing machine.definition.stages (machine.verdict all)) := by
  induction batches generalizing before state with
  | nil =>
    cases ended
    exact ⟨nofun, nofun⟩
  | cons batch later ih =>
    rw [List.flatten_cons] at split
    have splitNext : all = (before ++ batch) ++ later.flatten := by
      rw [split, List.append_assoc]
    obtain ⟨settled, decision, result, advanced⟩ := advance_returns wellFormed steady batch
    have applied := warranted.appliedAll batch steady.sound
    have after : Warranted machine (before ++ batch) settled :=
      propagation_keeps (fun _ _ _ _ _ holds effect => holds.settled effect)
        applied advanced.ends
    cases finished : decision.status.terminal with
    | true =>
      have same : decision.status = status := by
        simpa [StaticDagMachine.endStatus, result, finished, bind, Except.bind] using ended
      subst same
      refine ⟨?_, ?_⟩
      · intro completed stageDef member
        rw [advanced.status, runStatus_completed (advanced.statuses_nonempty wellFormed)]
          at completed
        obtain ⟨stage, found, -⟩ := advanced.sound.found member
        have current := statusOf_some found
        have succeeded := completed _ (advanced.mem_statuses.mpr ⟨stageDef, member, current⟩)
        rw [succeeded] at current
        rw [splitNext]
        exact verdict_extends (after.warranted stageDef member _ current (.inl rfl)) _
      · intro failed
        rw [advanced.status, runStatus_failed] at failed
        obtain ⟨stageDef, member, current⟩ := advanced.mem_statuses.mp failed
        refine ⟨stageDef, member, ?_⟩
        rw [splitNext]
        exact verdict_extends (after.warranted stageDef member _ current (.inr rfl)) _
    | false =>
      have continued : machine.endStatus decision.state later = .ok status := by
        simpa [StaticDagMachine.endStatus, result, finished, bind, Except.bind] using ended
      have stored : Warranted machine (before ++ batch)
          (ByStage.ofStages decision.state.stages) := by
        have same := fun stageDef (member : stageDef ∈ machine.definition.stages) =>
          advanced.statusOf_stored wellFormed member
        refine ⟨?_, ?_⟩
        · intro stageDef member status current wanted
          exact after.warranted stageDef member status
            ((same stageDef member).symm.trans current) wanted
        · intro stageDef member status given
          obtain ⟨current, found, closed⟩ := after.closed stageDef member status given
          exact ⟨current, (same stageDef member).trans found, closed⟩
      exact ih splitNext (advanced.steady wellFormed) stored continued

/-- Before any cut no stage is cancelled, so one batch applies every verdict. -/
theorem Agrees.appliedAll
    (agrees : Agrees machine.definition.stages (machine.verdict before) (fun _ => False) byStage)
    : Agrees machine.definition.stages (machine.verdict (before ++ batch)) (fun _ => False)
        (batch.foldl machine.applySignal byStage) := by
  induction batch generalizing before byStage with
  | nil => simpa using agrees
  | cons signal later ih =>
    have stay : ∀ stageId, False → machine.verdict (before ++ [signal]) stageId = none
        → False := fun _ impossible _ => impossible
    have first := agrees.applied (applySignal_applied machine byStage signal)
      (fun _ _ _ => not_false) stay
    simpa using ih first

theorem endStatus_one (machine : StaticDagMachine) (state : StaticDagState)
    (signals : List WorkflowSignalRecord) {decision : StaticDagMachine.Decision}
    (result : machine.advance state signals = .ok decision)
    (finished : decision.status.terminal = true)
    : machine.endStatus state [signals] = .ok decision.status := by
  simp [StaticDagMachine.endStatus, result, finished, bind, Except.bind]

theorem endStatus_of_failing (wellFormed : WellFormed machine.definition.stages)
    (inputs : JsonObject)
    (failing : Failing machine.definition.stages (machine.verdict signals))
    : machine.endStatus (machine.initializeState inputs) [signals] = .ok .failed := by
  have initial : Agrees machine.definition.stages (machine.verdict []) (fun _ => False)
      (ByStage.ofStages (machine.initializeState inputs).stages) := by
    refine ⟨fun stageDef _ status given => ?_, fun stageDef member _ => ?_⟩
    · simp [StaticDagMachine.verdict] at given
    · rw [statusOf_some (initializeState_found wellFormed inputs member)]
      by_cases root : stageDef.dependsOn = [] <;> simp [root]
  obtain ⟨settled, decision, result, advanced⟩ :=
    advance_returns wellFormed (initializeState_steady wellFormed inputs) signals
  obtain ⟨stageDef, member, failed⟩ := failing
  have applied := initial.appliedAll.decided stageDef member _ failed
  have stopped := (propagation_keepsTerminal advanced.ends).status applied rfl
  have status := advanced.failed_of_status member stopped
  rw [endStatus_one machine _ signals result (by simp [status, WorkflowStatus.terminal]), status]

/-- Signals that succeed every stage cancel none, so all of them are timely. -/
theorem timely_of_succeeded (wellFormed : WellFormed machine.definition.stages)
    (succeeded
      : ∀ stageDef ∈ machine.definition.stages,
          machine.verdict signals stageDef.id = some .succeeded)
    : Timely machine signals := by
  intro earlier signal later split _ stageId status finishes doomed
  clear finishes
  induction doomed with
  | upstream member _ listed cancelled =>
    obtain ⟨upstream, known, same⟩ := wellFormed.closed _ member _ listed
    subst same
    have standing := verdict_extends cancelled (signal :: later)
    rw [← split, succeeded upstream known] at standing
    simp at standing
  | downstream _ _ _ _ ih => exact ih

/-- Every cut is decided to an end, by induction over the batches. -/
theorem endStatus_total (wellFormed : WellFormed machine.definition.stages)
    (steady : Steady machine state) (batches : List (List WorkflowSignalRecord))
    : ∃ status, machine.endStatus state batches = .ok status := by
  induction batches generalizing state with
  | nil => exact ⟨.waiting, rfl⟩
  | cons batch later ih =>
    obtain ⟨settled, decision, result, advanced⟩ := advance_returns wellFormed steady batch
    cases finished : decision.status.terminal with
    | true =>
      refine ⟨decision.status, ?_⟩
      simp [StaticDagMachine.endStatus, result, finished, bind, Except.bind]
    | false =>
      obtain ⟨status, ended⟩ := ih (advanced.steady wellFormed)
      refine ⟨status, ?_⟩
      simpa [StaticDagMachine.endStatus, result, finished, bind, Except.bind] using ended

theorem endStatus_of_timely (wellFormed : WellFormed machine.definition.stages)
    (inputs : JsonObject) (timely : Timely machine signals) (cut : batches.flatten = signals)
    : ∃ status,
        machine.endStatus (machine.initializeState inputs) batches = .ok status
          ∧ Judged machine.definition.stages (machine.verdict signals) status :=
  endStatus_judged wellFormed timely (by simp [cut]) (Boundary.initial wellFormed inputs)

/-- A run completes in a cut exactly when every stage has a verdict of success. -/
theorem endStatus_completed (wellFormed : WellFormed machine.definition.stages)
    (inputs : JsonObject) (cut : batches.flatten = signals)
    : machine.endStatus (machine.initializeState inputs) batches = .ok .completed
        ↔ ∀ stageDef ∈ machine.definition.stages,
            machine.verdict signals stageDef.id = some .succeeded := by
  constructor
  · intro completed
    exact (endStatus_warranted wellFormed (by simp [cut])
      (initializeState_steady wellFormed inputs) (.initial wellFormed inputs) completed).1 rfl
  · intro succeeded
    have timely := timely_of_succeeded wellFormed succeeded
    obtain ⟨status, ended, judged⟩ := endStatus_of_timely wellFormed inputs timely cut
    rw [ended, judged.completed.mpr succeeded]

end Cuts

/-- The status a run ends in is the same for every cut of signals that finish no stage which
an earlier cancellation has doomed. For any signals a run completes in every cut or in none,
and it fails in no cut unless it fails in one batch.
-/
theorem batchIndependence [PyRepr] (machine : StaticDagMachine) (inputs : JsonObject)
    (valid : validateWorkflow machine.definition = [])
    (signals : List WorkflowSignalRecord) (batches : List (List WorkflowSignalRecord))
    (cut : batches.flatten = signals)
    : (∃ status, machine.endStatus (machine.initializeState inputs) batches = .ok status)
      ∧ (Timely machine signals
        → machine.endStatus (machine.initializeState inputs) batches
            = machine.endStatus (machine.initializeState inputs) [signals])
      ∧ (machine.endStatus (machine.initializeState inputs) batches = .ok .completed
        ↔ machine.endStatus (machine.initializeState inputs) [signals] = .ok .completed)
      ∧ (machine.endStatus (machine.initializeState inputs) batches = .ok .failed
        → machine.endStatus (machine.initializeState inputs) [signals] = .ok .failed) := by
  have wellFormed := wellFormed_of_valid valid
  have steady := initializeState_steady wellFormed inputs
  have whole : [signals].flatten = signals := by simp
  refine ⟨endStatus_total wellFormed steady batches, ?_, ?_, ?_⟩
  · intro timely
    obtain ⟨status, ended, judged⟩ := endStatus_of_timely wellFormed inputs timely cut
    obtain ⟨other, endedWhole, judgedWhole⟩ :=
      endStatus_of_timely wellFormed inputs timely whole
    rw [ended, endedWhole, judged.unique judgedWhole]
  · exact (endStatus_completed wellFormed inputs cut).trans
      (endStatus_completed wellFormed inputs whole).symm
  · intro failed
    have split : signals = [] ++ batches.flatten := by simp [cut]
    have failing := (endStatus_warranted wellFormed split steady
      (.initial wellFormed inputs) failed).2 rfl
    exact endStatus_of_failing wellFormed inputs failing

open Chain in
/-- Both tickets done one by one, and in one batch. -/
theorem batchIndependence_of_chain
    : (∃ status,
          machine.endStatus (machine.initializeState .nil)
              [[finished 2 "t1" "done"], [finished 3 "t2" "done"]] = .ok status)
      ∧ machine.endStatus (machine.initializeState .nil)
            [[finished 2 "t1" "done"], [finished 3 "t2" "done"]]
          = machine.endStatus (machine.initializeState .nil)
            [[finished 2 "t1" "done", finished 3 "t2" "done"]]
      ∧ machine.endStatus (machine.initializeState .nil)
            [[finished 2 "t1" "done", finished 3 "t2" "done"]] = .ok .completed := by
  have holds := batchIndependence machine .nil machine_valid
    [finished 2 "t1" "done", finished 3 "t2" "done"]
    [[finished 2 "t1" "done"], [finished 3 "t2" "done"]] rfl
  have timely : Timely machine [finished 2 "t1" "done", finished 3 "t2" "done"] := by
    refine timely_of_succeeded (wellFormed_of_valid machine_valid) ?_
    decide +kernel
  exact ⟨holds.1, holds.2.1 timely, holds.2.2.1.mp (by decide +kernel)⟩

open Chain in
/-- The first ticket is cancelled and the second fails: one batch fails, but batches of one
cancel the second stage before its signal is read.
-/
theorem batchIndependence_broken
    : validateWorkflow machine.definition = []
      ∧ TicketsMapped machine
      ∧ machine.endStatus (machine.initializeState .nil)
          [[finished 2 "t1" "cancelled", finished 3 "t2" "failed"]] = .ok .failed
      ∧ machine.endStatus (machine.initializeState .nil)
          [[finished 2 "t1" "cancelled"], [finished 3 "t2" "failed"]] = .ok .cancelled :=
  ⟨machine_valid, machine_mapped, by decide +kernel, by decide +kernel⟩

end Murder.Workflows

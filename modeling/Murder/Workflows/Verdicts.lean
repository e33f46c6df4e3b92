import Murder.Workflows.Decisions

/-! Verdicts: the statuses that the first signals of the stages give them.
A stage without a verdict is doomed when it depends on a cancelled one; verdicts and doom
judge the status of a run.
-/

namespace Murder.Workflows

open Murder.Contracts

namespace StaticDagMachine

variable [PyRepr]

def outcome (machine : StaticDagMachine) (signal : WorkflowSignalRecord)
    : Option (String × StageStatus) :=
  (machine.addressed signal.payload).map (fun found => (found.1, (finishedAs found.2).1))

def verdict (machine : StaticDagMachine) (signals : List WorkflowSignalRecord)
    (stageId : String) : Option StageStatus :=
  (signals.filterMap machine.outcome).lookup stageId

end StaticDagMachine

/-- A stage without a verdict that depends, directly or not, on a cancelled one. -/
inductive Doomed (stages : List StageDef) (verdict : String → Option StageStatus)
    : String → Prop
  | upstream {stageDef dependency} (member : stageDef ∈ stages)
    (undecided : verdict stageDef.id = none) (listed : dependency ∈ stageDef.dependsOn)
    (cancelled : verdict dependency = some .cancelled)
    : Doomed stages verdict stageDef.id
  | downstream {stageDef dependency} (member : stageDef ∈ stages)
    (undecided : verdict stageDef.id = none) (listed : dependency ∈ stageDef.dependsOn)
    (doomed : Doomed stages verdict dependency)
    : Doomed stages verdict stageDef.id

def Failing (stages : List StageDef) (verdict : String → Option StageStatus) : Prop :=
  ∃ stageDef ∈ stages, verdict stageDef.id = some .failed

section Verdicts

variable [PyRepr] {machine : StaticDagMachine} {signals : List WorkflowSignalRecord}
  {signal : WorkflowSignalRecord} {stageId : String} {status : StageStatus}

theorem outcome_some (h : machine.outcome signal = some (stageId, status))
    : ∃ payload,
        machine.addressed signal.payload = some (stageId, payload)
          ∧ (StaticDagMachine.finishedAs payload).1 = status := by
  obtain ⟨found, addressed, same⟩ := Option.map_eq_some_iff.mp h
  cases same
  exact ⟨found.2, addressed, rfl⟩

theorem outcome_of_addressed {payload : JsonObject}
    (h : machine.addressed signal.payload = some (stageId, payload))
    : machine.outcome signal = some (stageId, (StaticDagMachine.finishedAs payload).1) := by
  simp [StaticDagMachine.outcome, h]

theorem verdict_append (machine : StaticDagMachine) (before after : List WorkflowSignalRecord)
    (stageId : String)
    : machine.verdict (before ++ after) stageId
        = (machine.verdict before stageId).or (machine.verdict after stageId) := by
  simp [StaticDagMachine.verdict, List.filterMap_append, List.lookup_append]

theorem verdict_extends (h : machine.verdict signals stageId = some status)
    (after : List WorkflowSignalRecord)
    : machine.verdict (signals ++ after) stageId = some status := by
  simp [verdict_append, h]

/-- Where there is no verdict yet, the next signal gives one to the stage it finishes. -/
theorem verdict_snoc (undecided : machine.verdict signals stageId = none)
    : machine.verdict (signals ++ [signal]) stageId = some status
        ↔ machine.outcome signal = some (stageId, status) := by
  rw [verdict_append, undecided, Option.none_or]
  cases found : machine.outcome signal with
  | none => simp [StaticDagMachine.verdict, found]
  | some entry =>
    obtain ⟨finishedId, given⟩ := entry
    have only : machine.verdict [signal] stageId = [(finishedId, given)].lookup stageId := by
      rw [StaticDagMachine.verdict, List.filterMap_cons_some found, List.filterMap_nil]
    rw [only]
    by_cases same : stageId = finishedId
    · simp [same]
    · have other : (stageId == finishedId) = false := by simpa using same
      have different : finishedId ≠ stageId := fun equal => same equal.symm
      simp [other, List.lookup_cons, different]

theorem verdict_terminal (h : machine.verdict signals stageId = some status)
    : status.terminal = true := by
  induction signals with
  | nil => simp [StaticDagMachine.verdict] at h
  | cons signal rest ih =>
    have split := verdict_append machine [signal] rest stageId
    simp only [List.singleton_append] at split
    rw [split] at h
    cases first : machine.verdict [signal] stageId with
    | none =>
      rw [first, Option.none_or] at h
      exact ih h
    | some own =>
      rw [first, Option.some_or, Option.some.injEq] at h
      have undecided : machine.verdict [] stageId = none := rfl
      have given := (verdict_snoc undecided).mp first
      obtain ⟨payload, -, same⟩ := outcome_some given
      rw [← h, ← same]
      exact finishedAs_terminal payload

end Verdicts

/-- The status of a run in which the verdicts hold and the doomed stages are cancelled. -/
structure Judged (stages : List StageDef) (verdict : String → Option StageStatus)
    (status : WorkflowStatus) : Prop where
  completed : status = .completed ↔ ∀ stageDef ∈ stages, verdict stageDef.id = some .succeeded
  failed : status = .failed ↔ Failing stages verdict
  cancelled
    : status = .cancelled
        ↔ (¬ ∀ stageDef ∈ stages, verdict stageDef.id = some .succeeded)
          ∧ ¬ Failing stages verdict
          ∧ ∀ stageDef ∈ stages,
              (verdict stageDef.id).isSome ∨ Doomed stages verdict stageDef.id
  ended : status.terminal = true ∨ status = .waiting

section Judged

variable {stages : List StageDef} {verdict later : String → Option StageStatus}
  {status : WorkflowStatus} {stageId : String}

/-- The verdicts leave one status. -/
theorem Judged.unique {other : WorkflowStatus} (left : Judged stages verdict status)
    (right : Judged stages verdict other)
    : status = other := by
  have completed := left.completed.trans right.completed.symm
  have failed := left.failed.trans right.failed.symm
  have cancelled := left.cancelled.trans right.cancelled.symm
  rcases left.ended with finished | waiting
  · cases status with
    | completed => exact (completed.mp rfl).symm
    | failed => exact (failed.mp rfl).symm
    | cancelled => exact (cancelled.mp rfl).symm
    | _ => simp [WorkflowStatus.terminal] at finished
  · subst waiting
    rcases right.ended with finished | waiting
    · cases other with
      | completed => exact completed.mpr rfl
      | failed => exact failed.mpr rfl
      | cancelled => exact cancelled.mpr rfl
      | _ => simp [WorkflowStatus.terminal] at finished
    · exact waiting.symm

theorem Judged.of_failing (failing : Failing stages verdict)
    : Judged stages verdict .failed where
  completed := by
    obtain ⟨stageDef, member, failed⟩ := failing
    refine iff_of_false (by simp) (fun all => ?_)
    simp [all stageDef member] at failed
  failed := iff_of_true rfl failing
  cancelled := iff_of_false (by simp) (fun cancelled => cancelled.2.1 failing)
  ended := .inl rfl

theorem Doomed.undecided (doomed : Doomed stages verdict stageId)
    : verdict stageId = none := by
  cases doomed with
  | upstream _ undecided => exact undecided
  | downstream _ undecided => exact undecided

/-- Doomed stages stay doomed while no verdict falls on one, by induction over the
dependencies that doom them.
-/
theorem Doomed.extends
    (standing : ∀ stageId status, verdict stageId = some status → later stageId = some status)
    (spared : ∀ stageId, Doomed stages verdict stageId → later stageId = none)
    (doomed : Doomed stages verdict stageId)
    : Doomed stages later stageId := by
  induction doomed with
  | upstream member undecided listed cancelled =>
    have first := Doomed.upstream member undecided listed cancelled
    exact .upstream member (spared _ first) listed (standing _ _ cancelled)
  | downstream member undecided listed doomed ih =>
    have first := Doomed.downstream member undecided listed doomed
    exact .downstream member (spared _ first) listed ih

theorem Judged.extends (judged : Judged stages verdict status)
    (finished : status.terminal = true)
    (standing : ∀ stageId status, verdict stageId = some status → later stageId = some status)
    (spared
      : ¬ Failing stages verdict
          → ∀ stageId, Doomed stages verdict stageId → later stageId = none)
    : Judged stages later status := by
  cases status with
  | completed =>
    have all := judged.completed.mp rfl
    have allLater := fun stageDef member => standing _ _ (all stageDef member)
    have notFailing : ¬ Failing stages later := by
      intro failing
      obtain ⟨stageDef, member, failed⟩ := failing
      simp [allLater stageDef member] at failed
    exact {
      completed := iff_of_true rfl allLater
      failed := iff_of_false (by simp) notFailing
      cancelled := iff_of_false (by simp) (fun cancelled => cancelled.1 allLater)
      ended := .inl rfl
    }
  | failed =>
    obtain ⟨stageDef, member, failed⟩ := judged.failed.mp rfl
    exact .of_failing ⟨stageDef, member, standing _ _ failed⟩
  | cancelled =>
    obtain ⟨notAll, notFailing, closed⟩ := judged.cancelled.mp rfl
    have doomedLater : ∀ stageId, Doomed stages verdict stageId → Doomed stages later stageId :=
      fun stageId doomed => doomed.extends standing (spared notFailing)
    -- every stage has its verdict or is doomed, so no verdict is new
    have same : ∀ stageDef ∈ stages, later stageDef.id = verdict stageDef.id := by
      intro stageDef member
      rcases closed stageDef member with decided | doomed
      · obtain ⟨given, found⟩ := Option.isSome_iff_exists.mp decided
        rw [found, standing _ _ found]
      · rw [spared notFailing _ doomed, doomed.undecided]
    have notAllLater : ¬ ∀ stageDef ∈ stages, later stageDef.id = some .succeeded :=
      fun all => notAll (fun stageDef member => same stageDef member ▸ all stageDef member)
    have notFailingLater : ¬ Failing stages later := by
      intro failing
      obtain ⟨stageDef, member, failed⟩ := failing
      exact notFailing ⟨stageDef, member, same stageDef member ▸ failed⟩
    exact {
      completed := iff_of_false (by simp) notAllLater
      failed := iff_of_false (by simp) notFailingLater
      cancelled := by
        refine iff_of_true rfl ⟨notAllLater, notFailingLater, ?_⟩
        intro stageDef member
        rw [same stageDef member]
        exact (closed stageDef member).imp_right (doomedLater stageDef.id)
      ended := .inl rfl
    }
  | _ => simp [WorkflowStatus.terminal] at finished

end Judged

/-- Every verdict is the status of its stage; a stage without one is blocked, ready or
cancelled among the doomed.
-/
structure Agrees (stages : List StageDef) (verdict : String → Option StageStatus)
    (doomed : String → Prop) (byStage : ByStage) : Prop where
  decided
    : ∀ stageDef ∈ stages, ∀ status,
        verdict stageDef.id = some status → statusOf byStage stageDef.id = some status
  undecided
    : ∀ stageDef ∈ stages,
        verdict stageDef.id = none
          → statusOf byStage stageDef.id = some .blocked
            ∨ statusOf byStage stageDef.id = some .ready
            ∨ statusOf byStage stageDef.id = some .cancelled ∧ doomed stageDef.id

section Agrees

variable [PyRepr] {machine : StaticDagMachine} {signals : List WorkflowSignalRecord}
  {signal : WorkflowSignalRecord} {byStage next : ByStage} {doomed later : String → Prop}

/-- A signal that finishes no doomed stage extends the verdicts and the statuses alike. -/
theorem Agrees.applied
    (agrees : Agrees machine.definition.stages (machine.verdict signals) doomed byStage)
    (effect : Applied machine byStage signal next)
    (timely : ∀ stageId status, machine.outcome signal = some (stageId, status) → ¬ doomed stageId)
    (stay
      : ∀ stageId, doomed stageId → machine.verdict (signals ++ [signal]) stageId = none
          → later stageId)
    : Agrees machine.definition.stages (machine.verdict (signals ++ [signal])) later next := by
  refine ⟨?_, ?_⟩
  · intro stageDef member status given
    cases known : machine.verdict signals stageDef.id with
    | some before =>
      have standing := verdict_extends known [signal]
      have same : before = status := Option.some.inj (standing.symm.trans given)
      have current := agrees.decided stageDef member before known
      rw [← same]
      exact effect.keeps.status current (verdict_terminal known)
    | none =>
      have finishes := (verdict_snoc known).mp given
      obtain ⟨payload, addressed, outcome⟩ := outcome_some finishes
      cases effect with
      | ignored closed =>
        exfalso
        have open_ : ∀ status, statusOf byStage stageDef.id = some status
            → status.terminal = true := by
          intro status current
          obtain ⟨stage, found, same⟩ := Option.map_eq_some_iff.mp current
          exact same ▸ closed stageDef.id payload stage addressed found
        rcases agrees.undecided stageDef member known with blocked | ready | cancelled
        · simpa [StageStatus.terminal] using open_ _ blocked
        · simpa [StageStatus.terminal] using open_ _ ready
        · exact timely _ _ finishes cancelled.2
      | finished addressed' found _ =>
        have equal := addressed.symm.trans addressed'
        simp only [Option.some.injEq, Prod.mk.injEq] at equal
        obtain ⟨sameId, samePayload⟩ := equal
        rw [sameId, statusOf_set_same, ← samePayload, outcome]
  · intro stageDef member undecided
    have before : machine.verdict signals stageDef.id = none := by
      cases known : machine.verdict signals stageDef.id with
      | none => rfl
      | some status => simp [verdict_extends known [signal]] at undecided
    have untouched : statusOf next stageDef.id = statusOf byStage stageDef.id := by
      cases effect with
      | ignored => rfl
      | @finished stageId payload stage addressed found _ =>
        have other : stageDef.id ≠ stageId := by
          intro same
          have given := (verdict_snoc before).mpr (same ▸ outcome_of_addressed addressed)
          simp [given] at undecided
        exact statusOf_set_other other
    rw [untouched]
    rcases agrees.undecided stageDef member before with blocked | ready | cancelled
    · exact .inl blocked
    · exact .inr (.inl ready)
    · exact .inr (.inr ⟨cancelled.1, stay _ cancelled.2 undecided⟩)

end Agrees

section Boundary

variable {stages : List StageDef} {verdict : String → Option StageStatus}
  {byStage next : ByStage} {stageDef : StageDef} {changed : Bool}

/-- Without a failure, propagation cancels doomed stages only. -/
theorem Agrees.settled (wellFormed : WellFormed stages) (notFailing : ¬ Failing stages verdict)
    (finished : ∀ stageId status, verdict stageId = some status → status.terminal = true)
    (agrees : Agrees stages verdict (Doomed stages verdict) byStage)
    (member : stageDef ∈ stages) (effect : Settled byStage stageDef next changed)
    : Agrees stages verdict (Doomed stages verdict) next := by
  refine ⟨?_, ?_⟩
  · intro other listed status given
    exact effect.keeps.status (agrees.decided other listed status given)
      (finished other.id status given)
  · intro other listed undecided
    rcases effect.status other.id with same | ⟨own, -, readied | cancelled⟩
    · rw [same]
      exact agrees.undecided other listed undecided
    · exact .inr (.inl readied.1)
    · refine .inr (.inr ⟨cancelled.1, ?_⟩)
      obtain ⟨dependency, needed, status⟩ := cancelled.2
      obtain ⟨upstream, known, sameId⟩ := wellFormed.closed stageDef member dependency needed
      subst sameId
      have equal := wellFormed.same listed member own
      subst equal
      cases given : verdict upstream.id with
      | some final =>
        have current := agrees.decided upstream known final given
        rw [current] at status
        rcases status with failed | stopped
        · exact absurd ⟨upstream, known, given.trans failed⟩ notFailing
        · exact .upstream listed undecided needed (given.trans stopped)
      | none =>
        rcases agrees.undecided upstream known given with blocked | ready | doomed
        · simp [blocked] at status
        · simp [ready] at status
        · exact .downstream listed undecided needed doomed.2

/-- Once propagation is done every doomed stage is cancelled, by induction over the
dependencies that doom it.
-/
theorem Agrees.cancelled_of_doomed (wellFormed : WellFormed stages)
    (agrees : Agrees stages verdict (Doomed stages verdict) byStage)
    (sound : Sound stages byStage) (quiet : Quiet stages byStage) {stageId : String}
    (doomed : Doomed stages verdict stageId)
    : statusOf byStage stageId = some .cancelled := by
  have closed : ∀ stageDef ∈ stages, verdict stageDef.id = none →
      ∀ dependency ∈ stageDef.dependsOn, statusOf byStage dependency = some .cancelled →
      statusOf byStage stageDef.id = some .cancelled := by
    intro stageDef member undecided dependency listed stopped
    rcases agrees.undecided stageDef member undecided with blocked | ready | cancelled
    · exact absurd ⟨dependency, listed, .inr stopped⟩ (quiet stageDef member blocked).2
    · have succeeded := sound.ready stageDef member ready dependency listed
      simp [succeeded] at stopped
    · exact cancelled.1
  induction doomed with
  | upstream member undecided listed cancelled =>
    obtain ⟨upstream, known, same⟩ := wellFormed.closed _ member _ listed
    subst same
    exact closed _ member undecided _ listed (agrees.decided upstream known _ cancelled)
  | downstream member undecided listed _ ih => exact closed _ member undecided _ listed ih

end Boundary

end Murder.Workflows

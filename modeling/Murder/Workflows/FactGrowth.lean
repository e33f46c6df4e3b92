import Murder.Workflows.Service

/-! Decisions only append to the fact log: every write of a transition either leaves the facts
alone or appends one.
-/

namespace Murder.Workflows

open Murder.Activities Murder.Contracts Murder.Facts Murder.Permissions Murder.Storage
open Library.Transactions

/-- An insert into another table leaves the facts alone. -/
theorem insertInto_grows {insert : Database → Option Database}
    (h : ∀ start stop, insert start = some stop → stop.facts = start.facts)
    : Relates FactsGrow (insertInto insert) :=
  Relates.insertInto (fun start stop inserted => factsGrow_of_same (h start stop inserted))

theorem insertRun_grows (run : WorkflowRunRecord) : Relates FactsGrow (insertRun run) := by
  refine insertInto_grows (fun start stop h => ?_)
  obtain ⟨runs, -, hm⟩ := Option.bind_eq_some_iff.mp h
  cases hm
  rfl

variable (supply : Supply) (workflowId : Uuid) (plan : WorkflowTransitionPlan)

theorem insertWaits_grows (createdAt : Timestamp) (waits : List WaitSpec)
    : Relates FactsGrow (insertWaits supply workflowId createdAt waits) := by
  induction waits generalizing supply with
  | nil => exact .pure _
  | cons spec rest ih =>
    refine Relates.bind (insertInto_grows (fun start stop h => ?_)) (fun _ => ih _)
    obtain ⟨waits, -, hm⟩ := Option.bind_eq_some_iff.mp h
    cases hm
    rfl

theorem createWorkflowRun_grows (run : WorkflowRunRecord) (waits : List WaitSpec)
    : Relates FactsGrow (createWorkflowRun supply run waits) := by
  refine Relates.bind (.bind (.raiseIf _ _) (fun _ => .raiseIf _ _)) (fun _ => ?_)
  refine Relates.transaction (fun start value stop h => Relates.returns ?_ h)
  refine Relates.bind (insertRun_grows run) (fun _ => ?_)
  refine Relates.bind (insertWaits_grows _ _ _ _) (fun _ => ?_)
  exact .bind (appendFact_grows _ _ _) (fun _ => .pure _)

theorem insertActivityRequests_grows (workflowRevision : Nat)
    (createdAt : Timestamp) (ordinal : Nat) (drafts : List ActivityRequestDraft)
    : Relates FactsGrow
        (insertActivityRequests workflowId workflowRevision createdAt ordinal drafts) := by
  induction drafts generalizing ordinal with
  | nil => exact .pure _
  | cons draft rest ih =>
    refine Relates.bind (insertInto_grows (fun start stop h => ?_)) (fun _ => ?_)
    · obtain ⟨records, -, hm⟩ := Option.bind_eq_some_iff.mp h
      cases hm
      rfl
    refine Relates.bind (.raiseIf _ _) (fun _ => ?_)
    refine Relates.bind (.bind .get (fun _ => .orRaise _ _)) (fun activity => ?_)
    refine Relates.bind ?_ (fun _ => ih _)
    refine Relates.bind (.bind .get (fun _ => .orRaise _ _)) (fun run => ?_)
    exact .bind (appendFact_grows _ _ _) (fun _ => .pure _)

theorem insertApprovalRequests_grows
    (workflowRevision : Nat) (createdAt : Timestamp) (drafts : List ApprovalRequestDraft)
    : Relates FactsGrow
        (insertApprovalRequests supply workflowId workflowRevision createdAt drafts) := by
  induction drafts generalizing supply with
  | nil => exact .pure _
  | cons draft rest ih =>
    refine Relates.bind (.raiseIf _ _) (fun _ => ?_)
    refine Relates.bind (.raiseIf _ _) (fun _ => ?_)
    refine Relates.bind (insertInto_grows (fun start stop h => ?_)) (fun _ => ?_)
    · obtain ⟨decisions, -, hm⟩ := Option.bind_eq_some_iff.mp h
      cases hm
      rfl
    refine Relates.bind (.bind (insertInto_grows (fun start stop h => ?_)) (fun _ => ?_))
      (fun _ => ih _)
    · obtain ⟨approvals, -, hm⟩ := Option.bind_eq_some_iff.mp h
      cases hm
      rfl
    · exact .bind (appendFact_grows _ _ _) (fun _ => .pure _)

theorem retryOnStale_grows {body retry : Sql WorkflowRunRecord} (hb : Relates FactsGrow body)
    (hr : Relates FactsGrow retry)
    : Relates FactsGrow (retryOnStale body retry) := by
  intro start
  have attempt := hb start
  unfold retryOnStale
  split
  · next raised =>
      rw [raised] at attempt
      exact trans_of FactsGrow attempt (hr _)
  · exact attempt

section Decide

variable [FactPayloadAdapter]

theorem appendTransitionFacts_grows (workflow : WorkflowRunRecord)
    (revision : Nat) (plan : WorkflowTransitionPlan) (createdAt : Timestamp)
    : Relates FactsGrow
        (appendTransitionFacts supply workflow revision plan createdAt) := by
  refine Relates.bind (appendFact_grows _ _ _) (fun _ => ?_)
  generalize 0 = ordinal
  induction plan.facts generalizing ordinal with
  | nil => exact .pure _
  | cons draft rest ih =>
    refine Relates.bind (.fromExcept _) (fun payload => ?_)
    exact .bind (appendFact_grows _ _ _) (fun _ => ih _)

theorem installPlan_grows (row : WorkflowRunRecord) (workflowId : Uuid)
    (plan : WorkflowTransitionPlan) (at_ : Timestamp)
    : Relates FactsGrow (installPlan supply row workflowId plan at_) := by
  refine Relates.bind (.modify (fun db => factsGrow_of_same rfl)) (fun _ => ?_)
  refine Relates.bind (insertWaits_grows _ _ _ _) (fun _ => ?_)
  refine Relates.bind (insertActivityRequests_grows _ _ _ _ _) (fun _ => ?_)
  refine Relates.bind (.bind .get (fun _ => .forM (fun _ => .raiseIf _ _))) (fun _ => ?_)
  refine Relates.bind (insertApprovalRequests_grows _ _ _ _ _) (fun _ => ?_)
  refine Relates.bind (.pure _) (fun _ => ?_)
  exact appendTransitionFacts_grows _ _ _ _ _

/-- A transition appends facts or writes nothing. -/
theorem applyTransitionPlan_grows (at_ : Timestamp)
    : Relates FactsGrow (applyTransitionPlan supply workflowId plan at_) := by
  refine Relates.bind ?_ (fun _ => .bind ?_ (fun _ => .bind .get (fun _ => .orRaise _ _)))
  · refine Relates.bind (.raiseIf _ _) (fun _ => ?_)
    exact .bind (.raiseIf _ _) (fun _ => .raiseIf _ _)
  refine Relates.transaction (fun start value stop h => ?_)
  obtain ⟨row, _, hr, h⟩ := returns_bind.mp h
  obtain ⟨rfl, -, -⟩ := transitionRow_returns hr
  obtain ⟨_, consumed, hc, h⟩ := returns_bind.mp h
  obtain ⟨-, rfl⟩ := consumeSignals_returns hc
  obtain ⟨_, replaced, hs, h⟩ := returns_bind.mp h
  obtain rfl := replaceState_returns hs
  have grows := (installPlan_grows _ _ _ _ _).returns h
  exact grows

theorem decideOnce_grows (resolver : WorkflowMachineResolver) (supply : Supply)
    (workflowId : Uuid) (now : Timestamp) (retries : Nat)
    : Relates FactsGrow (decideOnce resolver supply workflowId now retries) := by
  have reads : Relates FactsGrow (loadWorkflowDecisionInput workflowId now) :=
    (loadWorkflowDecisionInput_reads workflowId now 100).imp
      (fun same => factsGrow_of_same (by rw [same]))
  induction retries with
  | zero =>
    unfold decideOnce
    refine Relates.bind reads (fun input => ?_)
    split
    · exact .pure _
    · exact .bind (.fromExcept _) (fun plan => applyTransitionPlan_grows _ _ _ _)
  | succ left ih =>
    unfold decideOnce
    refine Relates.bind reads (fun input => ?_)
    split
    · exact .pure _
    · refine Relates.bind (.fromExcept _) (fun plan => ?_)
      exact retryOnStale_grows (applyTransitionPlan_grows _ _ _ _) ih

end Decide

end Murder.Workflows

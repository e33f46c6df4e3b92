import Murder.Harness.SafeFailure
import Murder.Harness.Usage
import Murder.Library.Histories

/-! Stale usage is requested again a bounded number of times, from safe surfaces, once the
delay behind the advisory is over.
-/

namespace Murder.Harness

open Contracts Library.Histories Library.Runs

/-- What a usage collection is reconciled with. -/
structure UsagePoll where
  snapshot : UsageSnapshot
  actionId : ActionId
  now : Timestamp

abbrev UsageEntry := Entry UsageOperation UsagePoll UsageDecision

abbrev UsageHistory := History UsageOperation UsagePoll UsageDecision

def usageReducer [CaseMapping] : Reducer UsageOperation UsagePoll UsageDecision where
  decide op poll := some (reconcileUsage op poll.snapshot poll.actionId poll.now)
  advance op poll decision := advanceUsage op decision poll.snapshot poll.now
  settles decision := decision.kind.settles

/-- Reconcile times do not decrease. -/
def notEarlier (op : UsageOperation) (poll : UsagePoll) : Prop :=
  op.envelope.updatedAt ≤ poll.now

instance (op : UsageOperation) (poll : UsagePoll) : Decidable (notEarlier op poll) :=
  inferInstanceAs (Decidable (op.envelope.updatedAt ≤ poll.now))

/-- A collection that was not reconciled yet. -/
def UsageCreated (op : UsageOperation) : Prop :=
  ∃ envelope request, envelope.phase = .created ∧ op = { envelope, request }

def requestsUsage (entry : UsageEntry) : Bool := (requested? entry.decision).isSome

def acceptsStale (entry : UsageEntry) : Prop :=
  entry.before.envelope.phase = .awaitingFreshUsage
  ∧ entry.decision.nextPhase = .waitingToRetryStale

/-- Behind these steps a reconcile at `now` is the first one at or after the delay of an
accepted advisory.
-/
def FirstDue (entries : List UsageEntry) (delay : Duration) (now : Timestamp) : Prop :=
  ∃ earlier accept waiting, entries = earlier ++ accept :: waiting
    ∧ acceptsStale accept
    ∧ (∀ entry ∈ waiting, entry.event.now < accept.event.now + delay)
    ∧ accept.event.now + delay ≤ now

/-- A negative number of attempts counts as zero. -/
structure BoundedRetries (history : UsageHistory) : Prop where
  bounded
    : history.entries.countP requestsUsage
      ≤ history.state.request.maximumAttempts.toNat
  safe
    : ∀ entry ∈ history.entries, requestsUsage entry = true
      → safeSurface entry.event.snapshot = true
  punctual
    : ∀ earlier due later, history.entries = earlier ++ due :: later
      → FirstDue earlier history.state.request.staleRetryDelay due.event.now
      → due.before.expired due.event.now = false → requestsUsage due = true

def UsageOperation.starting (op : UsageOperation) : Prop :=
  op.envelope.phase = .created ∨ op.envelope.phase = .ensuringSurface

def UsageOperation.retryDue (op : UsageOperation) (now : Timestamp) : Prop :=
  ∀ time, op.retryNotBefore = some time → time ≤ now

/-- A reconcile that keeps the retries bounded: an attempt is allowed at all, a retry finds a
safe surface, and the one that is due comes a full delay behind the reconcile before it.
-/
structure CarefulPoll [CaseMapping] (history : UsageHistory) (poll : UsagePoll) : Prop where
  allowed
    : history.state.starting → history.state.expired poll.now = false
      → isFresh history.state poll.snapshot = false → safeSurface poll.snapshot = true
      → 0 < history.state.request.maximumAttempts
  safe
    : history.state.envelope.phase = .waitingToRetryStale
      → history.state.expired poll.now = false → history.state.retryDue poll.now
      → safeSurface poll.snapshot = true
  sparse
    : FirstDue history.entries history.state.request.staleRetryDelay poll.now
      → history.state.expired poll.now = false
      → history.state.envelope.updatedAt + history.state.request.staleRetryDelay ≤ poll.now

section Decisions

variable {op : UsageOperation} {snapshot : UsageSnapshot} {actionId : ActionId}
  {now : Timestamp}

def UsagePhase.asked : UsagePhase → Prop
  | .requestEmitted => True
  | .awaitingFreshUsage => True
  | .waitingToRetryStale => True
  | _ => False

/-- What a decision requests, and where it leads. -/
inductive UsageMove (op : UsageOperation) (decision : UsageDecision) : Prop
  | settle (silent : requested? decision = none)
    (ends : decision.nextPhase = .succeeded ∨ decision.nextPhase = .escalated)
  | look (silent : requested? decision = none) (starting : op.starting)
    (next : decision.nextPhase = .ensuringSurface)
  | request (requests : (requested? decision).isSome = true)
    (next : decision.nextPhase = .requestEmitted)
  | await (silent : requested? decision = none) (asked : op.envelope.phase.asked)
    (next : decision.nextPhase = .awaitingFreshUsage)
  | wait (silent : requested? decision = none) (asked : op.envelope.phase.asked)
    (next : decision.nextPhase = .waitingToRetryStale)
    (left : op.envelope.phase ≠ .waitingToRetryStale
      → op.requestAttempt < op.request.maximumAttempts)
  | restore (silent : requested? decision = none)
    (next : decision.nextPhase = .restoringSurface)

theorem move_restore : UsageMove op (restoreAfterFreshUsage op snapshot actionId) := by
  unfold restoreAfterFreshUsage
  split_ifs
  · exact .settle rfl (.inl rfl)
  · exact .settle rfl (.inr rfl)
  · exact .restore rfl rfl

theorem move_surface (starting : op.starting)
    : UsageMove op (reconcileUsageSurface op snapshot actionId) := by
  unfold reconcileUsageSurface
  split_ifs
  · exact .look rfl starting rfl
  · exact .settle rfl (.inr rfl)
  · exact .request rfl rfl

theorem move_retry (waits : op.envelope.phase = .waitingToRetryStale)
    : UsageMove op (reconcileStaleRetry op actionId now) := by
  unfold reconcileStaleRetry
  split_ifs
  · exact .wait rfl (waits ▸ trivial) rfl (absurd waits)
  · exact .settle rfl (.inr rfl)
  · exact .request rfl rfl

theorem move_restoringUsage : UsageMove op (reconcileUsageRestoring op snapshot) := by
  unfold reconcileUsageRestoring
  split_ifs
  · exact .restore rfl rfl
  · exact .settle rfl (.inl rfl)
  · exact .settle rfl (.inr rfl)

variable [CaseMapping]

theorem move_emitted (asked : op.envelope.phase.asked)
    : UsageMove op (reconcileUsageEmitted op snapshot actionId) := by
  unfold reconcileUsageEmitted
  split_ifs
  · exact move_restore
  · exact .await rfl asked rfl

theorem move_fresh (asked : op.envelope.phase.asked)
    : UsageMove op (reconcileFreshUsage op snapshot actionId) := by
  unfold reconcileFreshUsage
  split_ifs with _ _ stale
  · exact .await rfl asked rfl
  · exact move_restore
  · exact .wait rfl asked rfl (fun _ => stale.2.2)
  · exact .settle rfl (.inr rfl)

theorem usageMove : UsageMove op (reconcileUsage op snapshot actionId now) := by
  unfold reconcileUsage
  split_ifs
  · exact .settle rfl (.inr rfl)
  · exact .settle rfl (.inl rfl)
  unfold reconcileUsagePhase
  cases phase : op.envelope.phase with
  | created => exact move_surface (.inl phase)
  | ensuringSurface => exact move_surface (.inr phase)
  | requestEmitted => exact move_emitted (phase ▸ trivial)
  | awaitingFreshUsage => exact move_fresh (phase ▸ trivial)
  | waitingToRetryStale => exact move_retry phase
  | restoringSurface => exact move_restoringUsage
  | succeeded | escalated => exact .settle rfl (.inr rfl)

omit [CaseMapping] in
theorem restore_silent : requested? (restoreAfterFreshUsage op snapshot actionId) = none := by
  unfold restoreAfterFreshUsage
  split_ifs <;> rfl

omit [CaseMapping] in
theorem surface_requests
    : (requested? (reconcileUsageSurface op snapshot actionId)).isSome = true
      ↔ safeSurface snapshot = true := by
  unfold reconcileUsageSurface
  split_ifs with unknown disturbs
  · exact iff_of_false nofun (by simp [safeSurface, unknown])
  · exact iff_of_false nofun (by simp [disturbs])
  · exact iff_of_true rfl (by simpa using disturbs)

omit [CaseMapping] in
theorem retryDue_iff : op.retryNotBefore.any (now < ·) = true ↔ ¬ op.retryDue now := by
  cases timer : op.retryNotBefore <;> simp [UsageOperation.retryDue, timer]

omit [CaseMapping] in
theorem retry_requests
    : (requested? (reconcileStaleRetry op actionId now)).isSome = true
      ↔ op.retryDue now ∧ op.requestAttempt < op.request.maximumAttempts := by
  unfold reconcileStaleRetry
  split_ifs with early spent
  · exact iff_of_false nofun (fun both => retryDue_iff.mp early both.1)
  · exact iff_of_false nofun (fun both => absurd both.2 (not_lt.mpr spent))
  · exact iff_of_true rfl ⟨not_not.mp (mt retryDue_iff.mpr early), lt_of_not_ge spent⟩

theorem requests_iff
    : (requested? (reconcileUsage op snapshot actionId now)).isSome = true
      ↔ op.expired now = false ∧ ¬(isFresh op snapshot = true ∧ op.requestActionId = none)
        ∧ (op.starting ∧ safeSurface snapshot = true
          ∨ op.envelope.phase = .waitingToRetryStale ∧ op.retryDue now
            ∧ op.requestAttempt < op.request.maximumAttempts) := by
  unfold reconcileUsage
  split_ifs with expired shown
  · exact iff_of_false nofun (fun all => by simp [expired] at all)
  · exact iff_of_false nofun (fun all => all.2.1 shown)
  rw [Bool.not_eq_true] at expired
  rw [and_iff_right expired, and_iff_right shown]
  unfold reconcileUsagePhase UsageOperation.starting
  cases op.envelope.phase with
  | created | ensuringSurface => simpa using surface_requests
  | waitingToRetryStale => simpa using retry_requests
  | requestEmitted =>
    unfold reconcileUsageEmitted
    split_ifs
    · simp [restore_silent]
    · exact iff_of_false nofun (by simp)
  | awaitingFreshUsage =>
    unfold reconcileFreshUsage
    split_ifs
    · exact iff_of_false nofun (by simp)
    · simp [restore_silent]
    · exact iff_of_false nofun (by simp)
    · exact iff_of_false nofun (by simp)
  | restoringSurface =>
    unfold reconcileUsageRestoring
    split_ifs <;> exact iff_of_false nofun (by simp)
  | succeeded | escalated => exact iff_of_false nofun (by simp)

/-- A reconcile that does not settle keeps waiting for a timer that runs. -/
theorem waits_on (waits : op.envelope.phase = .waitingToRetryStale) (early : ¬ op.retryDue now)
    (asked : op.requestActionId ≠ none)
    (going : (reconcileUsage op snapshot actionId now).kind.settles = false)
    : (reconcileUsage op snapshot actionId now).nextPhase = .waitingToRetryStale := by
  unfold reconcileUsage at going ⊢
  split at going
  · cases going
  next live =>
  rw [if_neg live]
  rw [if_neg (fun shown => asked shown.2)]
  simp only [reconcileUsagePhase, waits, reconcileStaleRetry]
  rw [if_pos (retryDue_iff.mpr early)]
  rfl

end Decisions

/-- What holds of a collection between its reconciles: its timer is always a full delay behind
the last one.
-/
structure UsageSound (op : UsageOperation) : Prop where
  idle : op.starting → op.requestAttempt = 0 ∧ op.requestActionId = none
  asked : op.envelope.phase.asked → op.requestActionId ≠ none
  timed
    : op.envelope.phase = .waitingToRetryStale
      → op.retryNotBefore = some (op.envelope.updatedAt + op.request.staleRetryDelay)
        ∧ op.requestAttempt < op.request.maximumAttempts

theorem UsageCreated.sound {op : UsageOperation} (created : UsageCreated op)
    : UsageSound op := by
  obtain ⟨envelope, request, phase, rfl⟩ := created
  exact ⟨fun _ => ⟨rfl, rfl⟩, fun asked => by simp [phase, UsagePhase.asked] at asked,
    fun waits => by simp [phase] at waits⟩

section Advance

variable {op : UsageOperation} {decision : UsageDecision} {snapshot : UsageSnapshot}
  {now : Timestamp}

@[simp] theorem advanceUsage_phase
    : (advanceUsage op decision snapshot now).envelope.phase = decision.nextPhase := rfl

@[simp] theorem advanceUsage_updatedAt
    : (advanceUsage op decision snapshot now).envelope.updatedAt = now := rfl

@[simp] theorem advanceUsage_request
    : (advanceUsage op decision snapshot now).request = op.request := rfl

theorem advanceUsage_silent (silent : requested? decision = none)
    : (advanceUsage op decision snapshot now).requestActionId = op.requestActionId
      ∧ (advanceUsage op decision snapshot now).requestAttempt = op.requestAttempt := by
  simp [advanceUsage, silent]

theorem UsageSound.advance (sound : UsageSound op) (move : UsageMove op decision)
    : UsageSound (advanceUsage op decision snapshot now) := by
  cases move with
  | settle silent ends =>
    constructor <;> rcases ends with next | next <;>
      simp [next, UsageOperation.starting, UsagePhase.asked]
  | look silent starting next =>
    have same := @advanceUsage_silent op _ snapshot now silent
    constructor
    · intro _
      rw [same.1, same.2]
      exact sound.idle starting
    · simp [next, UsagePhase.asked]
    · simp [next]
  | request requests next =>
    obtain ⟨actionId, found⟩ := Option.isSome_iff_exists.mp requests
    constructor
    · simp [next, UsageOperation.starting]
    · simp [advanceUsage, found]
    · simp [next]
  | await silent asked next =>
    have same := @advanceUsage_silent op _ snapshot now silent
    constructor
    · simp [next, UsageOperation.starting]
    · intro _
      rw [same.1]
      exact sound.asked asked
    · simp [next]
  | wait silent asked next left =>
    have same := @advanceUsage_silent op _ snapshot now silent
    constructor
    · simp [next, UsageOperation.starting]
    · intro _
      rw [same.1]
      exact sound.asked asked
    · intro _
      refine ⟨by simp [advanceUsage, next], ?_⟩
      rw [same.2, advanceUsage_request]
      by_cases waits : op.envelope.phase = .waitingToRetryStale
      · exact (sound.timed waits).2
      · exact left waits
  | restore silent next =>
    constructor <;> simp [next, UsageOperation.starting, UsagePhase.asked]

end Advance

/-- The timer of a collection that waits is a full delay behind its last reconcile. -/
theorem UsageSound.retryDue_iff {op : UsageOperation} (sound : UsageSound op)
    (waits : op.envelope.phase = .waitingToRetryStale) {now : Timestamp}
    : op.retryDue now ↔ op.envelope.updatedAt + op.request.staleRetryDelay ≤ now := by
  simp [UsageOperation.retryDue, (sound.timed waits).1]

section Histories

variable [CaseMapping] {history next : UsageHistory} {poll : UsagePoll}

/-- What holds of a collection and its steps between two reconciles. -/
structure RetriesSound (history : UsageHistory) : Prop where
  sound : UsageSound history.state
  counted : history.entries.countP requestsUsage = history.state.requestAttempt
  waiting
    : ∀ earlier accept waiting, history.entries = earlier ++ accept :: waiting
      → acceptsStale accept
      → (∀ entry ∈ waiting,
          entry.event.now < accept.event.now + history.state.request.staleRetryDelay)
      → history.open_ usageReducer = true
      → history.state.envelope.phase = .waitingToRetryStale
        ∧ accept.event.now ≤ history.state.envelope.updatedAt

theorem retriesSound_of_created (created : Started UsageCreated history)
    : BoundedRetries history ∧ RetriesSound history := by
  obtain ⟨fresh, none_⟩ := created
  obtain ⟨envelope, request, phase, same⟩ := id fresh
  refine ⟨⟨?_, ?_, ?_⟩, ⟨fresh.sound, ?_, ?_⟩⟩ <;> simp [none_, same]

def polled (op : UsageOperation) (poll : UsagePoll) : UsageEntry :=
  ⟨op, poll, reconcileUsage op poll.snapshot poll.actionId poll.now⟩

theorem polled_of_step (step : Extended usageReducer notEarlier history poll next)
    : next.state = advanceUsage history.state (polled history.state poll).decision
        poll.snapshot poll.now
      ∧ next.entries = history.entries ++ [polled history.state poll]
      ∧ history.state.envelope.updatedAt ≤ poll.now ∧ history.open_ usageReducer = true := by
  obtain ⟨decision, decided, later, moved, grown, going⟩ := step.entry
  cases decided
  exact ⟨moved, grown, later, going⟩

theorem RetriesSound.step (sound : RetriesSound history)
    (step : Extended usageReducer notEarlier history poll next)
    : RetriesSound next := by
  obtain ⟨moved, grown, later, going⟩ := polled_of_step step
  obtain ⟨op, entries⟩ := next
  subst moved grown
  refine ⟨sound.sound.advance usageMove, ?_, ?_⟩
  · dsimp only
    rw [List.countP_append, List.countP_singleton, sound.counted]
    rfl
  · intro earlier accept waiting parts accepts early still
    rw [open_concat] at still
    rcases concat_eq_append_cons.mp parts with ⟨rfl, rfl, rfl⟩ | ⟨rest, rfl, split⟩
    · exact ⟨accepts.2, le_refl _⟩
    · have before : ∀ entry ∈ rest,
          entry.event.now < accept.event.now + history.state.request.staleRetryDelay :=
        fun entry member => early entry (List.mem_append_left _ member)
      obtain ⟨waits, accepted⟩ := sound.waiting earlier accept rest split accepts before going
      have running : poll.now < accept.event.now + history.state.request.staleRetryDelay :=
        early (polled history.state poll) (List.mem_append_right _ (List.mem_singleton_self _))
      refine ⟨waits_on waits ?_ (sound.sound.asked (waits ▸ trivial)) still,
        le_trans accepted later⟩
      rw [sound.sound.retryDue_iff waits, not_le]
      exact lt_of_lt_of_le running (Int.add_le_add_right accepted _)

/-- A first request is made by a collection without attempts behind it, a retry by one with
attempts left.
-/
theorem RetriesSound.bounded_iff (sound : RetriesSound history)
    (bounded : history.entries.countP requestsUsage
      ≤ history.state.request.maximumAttempts.toNat)
    : (history.entries ++ [polled history.state poll]).countP requestsUsage
        ≤ history.state.request.maximumAttempts.toNat
      ↔ (history.state.starting → history.state.expired poll.now = false
        → isFresh history.state poll.snapshot = false → safeSurface poll.snapshot = true
        → 0 < history.state.request.maximumAttempts) := by
  rw [List.countP_append, List.countP_singleton, sound.counted] at *
  constructor
  · intro still starting live stale safe
    have first : requestsUsage (polled history.state poll) = true :=
      requests_iff.mpr ⟨live, by simp [stale], .inl ⟨starting, safe⟩⟩
    rw [if_pos first] at still
    omega
  · intro allowed
    split
    · next requests =>
        obtain ⟨live, unseen, first | retry⟩ := requests_iff.mp requests
        · obtain ⟨starting, safe⟩ := first
          obtain ⟨none_, unasked⟩ := sound.sound.idle starting
          have stale : isFresh history.state poll.snapshot = false := by
            simpa [unasked] using unseen
          have positive := allowed starting live stale safe
          omega
        · have left := retry.2.2
          omega
    · exact bounded

theorem BoundedRetries.step_iff (sound : RetriesSound history)
    (bounded : BoundedRetries history)
    (step : Extended usageReducer notEarlier history poll next)
    : BoundedRetries next ↔ CarefulPoll history poll := by
  obtain ⟨moved, grown, later, going⟩ := polled_of_step step
  obtain ⟨op, entries⟩ := next
  subst moved grown
  constructor
  · intro after
    refine ⟨(sound.bounded_iff bounded.bounded).mp after.bounded, ?_, ?_⟩
    · intro waits live due
      have asked := sound.sound.asked (waits ▸ trivial)
      apply after.safe (polled history.state poll) (List.mem_append_right _ (by simp))
      exact requests_iff.mpr
        ⟨live, fun shown => asked shown.2, .inr ⟨waits, due, (sound.sound.timed waits).2⟩⟩
    · intro first live
      obtain ⟨earlier, accept, waiting, split, accepts, early, -⟩ := id first
      obtain ⟨waits, -⟩ := sound.waiting earlier accept waiting split accepts early going
      have requests := after.punctual history.entries (polled history.state poll) [] rfl
        first live
      obtain ⟨-, -, first | retry⟩ := requests_iff.mp requests
      · rcases first.1 with phase | phase <;> cases waits.symm.trans phase
      · exact (sound.sound.retryDue_iff waits).mp retry.2.1
  · intro careful
    refine ⟨(sound.bounded_iff bounded.bounded).mpr careful.allowed, ?_, ?_⟩
    · apply (forall_concat bounded.safe).mpr
      intro requests
      obtain ⟨live, -, first | retry⟩ := requests_iff.mp requests
      · exact first.2
      · exact careful.safe retry.1 live retry.2.1
    · intro earlier due afterwards parts first live
      rcases concat_eq_append_cons.mp parts with ⟨rfl, rfl, rfl⟩ | ⟨rest, rfl, split⟩
      · obtain ⟨earlier', accept, waiting, split, accepts, early, -⟩ := id first
        obtain ⟨waits, -⟩ := sound.waiting earlier' accept waiting split accepts early going
        have asked := sound.sound.asked (waits ▸ trivial)
        have due := (sound.sound.retryDue_iff waits).mpr (careful.sparse first live)
        exact requests_iff.mpr
          ⟨live, fun shown => asked shown.2, .inr ⟨waits, due, (sound.sound.timed waits).2⟩⟩
      · exact bounded.punctual earlier due rest split first live

/-- The retries of a collection are bounded, safe and punctual exactly when each of its
reconciles is careful.
-/
theorem boundedRetries_iff {polls : List UsagePoll}
    (run : Run (Started UsageCreated) (Extended usageReducer notEarlier) polls history)
    : BoundedRetries history
      ↔ Run (Started UsageCreated) (fun history poll next =>
          Extended usageReducer notEarlier history poll next ∧ CarefulPoll history poll)
          polls history := by
  apply run.careful_iff (fun _ created => retriesSound_of_created created)
  · intro history poll next step bounded
    obtain ⟨moved, grown, -, -⟩ := polled_of_step step
    obtain ⟨op, entries⟩ := next
    subst moved grown
    refine ⟨?_, fun entry member => bounded.safe entry (List.mem_append_left _ member), ?_⟩
    · exact le_trans (List.Sublist.countP_le (List.sublist_append_left _ _)) bounded.bounded
    · intro earlier due afterwards split
      apply bounded.punctual earlier due (afterwards ++ [polled history.state poll])
      simp [split]
  · exact fun _ _ _ sound step => sound.step step
  · exact fun _ _ _ sound bounded step => bounded.step_iff sound step

end Histories

namespace DensePolls

abbrev caseMapping : CaseMapping := ⟨id, id⟩

/-- A composer, with the usage that stands above it. -/
def shows (capture : Nat) (freshness : Option String) : UsageSnapshot where
  revision := ⟨0, capture, 0⟩
  surface := .present { blocksComposerInput := false }
  composer := .unknown
  transcriptTail := .unknown
  health := {}
  usage :=
    match freshness with
    | some freshness => .present ⟨freshness, none⟩
    | none => .unknown

def created : UsageOperation where
  envelope := {
    operationId := "o"
    status := .pending
    phase := .created
    updatedAt := 0
    deadline := some 100 }
  request := { deadline := 100, requireCurrent := true, staleRetryDelay := 2 }

def poll (capture : Nat) (freshness : Option String) : UsagePoll :=
  ⟨shows capture freshness, "a", capture⟩

def start : UsageHistory := { state := created }

theorem started : Started UsageCreated start := ⟨⟨_, _, rfl, rfl⟩, rfl⟩

abbrev DenseStep := Extended (@usageReducer caseMapping) notEarlier

def polledTo (history : UsageHistory) (poll : UsagePoll) : UsageHistory where
  state := @advanceUsage history.state (@polled caseMapping history.state poll).decision
    poll.snapshot poll.now
  entries := history.entries ++ [@polled caseMapping history.state poll]

theorem denseStep {history : UsageHistory} {poll : UsagePoll}
    (going : history.open_ (@usageReducer caseMapping) = true)
    (later : notEarlier history.state poll)
    : DenseStep history poll (polledTo history poll) :=
  .step going later rfl

/-- A first request is bounded. -/
theorem boundedRetries_requested
    : BoundedRetries (polledTo start (poll 1 none)) := by
  have step : DenseStep start (poll 1 none) _ := denseStep rfl (by decide)
  have careful : @CarefulPoll caseMapping start (poll 1 none) :=
    @CarefulPoll.mk caseMapping _ _ (fun _ _ _ _ => by decide) nofun
      (fun first _ => by simp [FirstDue, start] at first)
  exact (@boundedRetries_iff caseMapping _ [poll 1 none]
    ⟨_, started, .cons step (.nil _)⟩).mpr ⟨_, started, .cons ⟨step, careful⟩ (.nil _)⟩

/-- The polls of a collection whose third one finds a stale advisory. -/
def densePolls : List UsagePoll :=
  [poll 1 none, poll 2 none, poll 3 (some "advisory_stale"),
    poll 4 (some "advisory_stale"), poll 5 (some "advisory_stale")]

/-- Usage is requested, found stale at the third poll and polled at every later moment: each
poll sets the timer anew, and the retry that is due at the fifth one is not emitted.
-/
theorem not_boundedRetries
    : ∃ polls history, Run (Started UsageCreated) DenseStep polls history
        ∧ ¬ BoundedRetries history := by
  have steps : Steps DenseStep start densePolls
      (densePolls.foldl polledTo start) :=
    .cons (denseStep (by decide) (by decide)) <| .cons (denseStep (by decide) (by decide))
      <| .cons (denseStep (by decide) (by decide)) <| .cons (denseStep (by decide) (by decide))
      <| .cons (denseStep (by decide) (by decide)) (.nil _)
  refine ⟨_, _, ⟨_, started, steps⟩, fun bounded => ?_⟩
  have late := bounded.punctual [_, _, _, _] _ [] rfl
    ⟨[_, _], _, [_], rfl, ⟨rfl, by decide⟩, by decide, by decide⟩ (by decide)
  revert late
  decide

end DensePolls

end Murder.Harness

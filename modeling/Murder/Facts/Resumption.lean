import Murder.Facts.Subscriptions

/-! What a client that resumes from a cursor receives.
A projection stream covers the window behind the cursor with each key's latest input; a fact
stream is that window, in order.
-/

namespace Murder.Facts

open Murder.Contracts Library.Tables Library.Transactions Library.Runs Library SharedLog

----------------------------------------
-- The latest input of each key
----------------------------------------

def Covers (items rows : List InputRow) : Prop :=
  ∀ row ∈ rows, ∃ item ∈ items, item.key = row.key ∧ row.sequence ≤ item.sequence

theorem Covers.mono {items more rows : List InputRow} (h : Covers items rows)
    (sub : items ⊆ more)
    : Covers more rows := by
  intro row member
  obtain ⟨item, hi, same, le⟩ := h row member
  exact ⟨item, sub hi, same, le⟩

theorem mem_keepLatest (latest : List InputRow) (item : InputRow)
    : item ∈ keepLatest latest item := by
  unfold keepLatest
  split
  · next found =>
      obtain ⟨other, member, same⟩ := List.any_eq_true.mp found
      exact List.mem_map.mpr ⟨other, member, by simp [same]⟩
  · simp

theorem mem_keepLatest_of_ne {latest : List InputRow} {item other : InputRow}
    (member : other ∈ latest) (different : other.key ≠ item.key)
    : other ∈ keepLatest latest item := by
  unfold keepLatest
  split
  · exact List.mem_map.mpr ⟨other, member, by simp [different]⟩
  · exact List.mem_append_left _ member

theorem of_mem_keepLatest {latest : List InputRow} {item other : InputRow}
    (member : other ∈ keepLatest latest item)
    : other ∈ latest ∨ other = item := by
  unfold keepLatest at member
  split at member
  · obtain ⟨old, hold, rfl⟩ := List.mem_map.mp member
    split
    · exact .inr rfl
    · exact .inl hold
  · simpa using member

/-- The dictionary covers what it was built from, by induction over the remaining rows. -/
theorem foldl_keepLatest {seen rest latest : List InputRow}
    (increasing : Pages.Increasing InputRow.sequence (seen ++ rest))
    (covers : Covers latest seen) (stored : latest ⊆ seen)
    : Covers (rest.foldl keepLatest latest) (seen ++ rest)
        ∧ rest.foldl keepLatest latest ⊆ seen ++ rest := by
  induction rest generalizing seen latest with
  | nil => simpa using ⟨covers, stored⟩
  | cons item rest ih =>
    have split := List.append_cons seen item rest
    rw [split] at increasing ⊢
    have below := (List.pairwise_append.mp (List.pairwise_append.mp increasing).1).2.2
    refine ih increasing ?_ ?_
    · intro row member
      by_cases same : row.key = item.key
      · refine ⟨item, mem_keepLatest latest item, same.symm, ?_⟩
        rcases List.mem_append.mp member with old | new
        · exact Nat.le_of_lt (below row old item (List.mem_singleton_self _))
        · rw [List.mem_singleton.mp new]
      · have old : row ∈ seen := by
          rcases List.mem_append.mp member with old | new
          · exact old
          · exact absurd (by rw [List.mem_singleton.mp new]) same
        obtain ⟨other, ho, key, le⟩ := covers row old
        exact ⟨other, mem_keepLatest_of_ne ho (by rw [key]; exact same), key, le⟩
    · intro other member
      rcases of_mem_keepLatest member with old | rfl
      · exact List.mem_append_left _ (stored old)
      · simp

theorem publishLatest_covers {records : List InputRow}
    (increasing : Pages.Increasing InputRow.sequence records)
    : Covers (publishLatest records) records ∧ publishLatest records ⊆ records := by
  have built := @foldl_keepLatest [] records [] increasing (by simp [Covers])
    (List.Subset.refl _)
  constructor
  · exact built.1.mono (fun item member => List.mem_mergeSort.mpr member)
  · exact fun item member => built.2 (List.mem_mergeSort.mp member)

----------------------------------------
-- Projection subscriptions
----------------------------------------

variable {log : SharedLog} {stream : Stream InputRow}

section Projections

variable {hasProvider : String → Bool} {repositoryId : Uuid} {topics : List String}
  {cursor : Nat}

def inputsBetween (repositoryId : Uuid) (topics : List String) (after upto : Nat)
    (log : SharedLog) : List InputRow :=
  Pages.between InputRow.sequence (wantsInput repositoryId topics) after upto log.inputs.rows

def inputsLater (repositoryId : Uuid) (topics : List String) (after : Nat) (log : SharedLog)
    : List InputRow :=
  Pages.later InputRow.sequence (wantsInput repositoryId topics) after log.inputs.rows

/-- The condition on the coordinator's steps: the subscription is accepted; at the ready
message at most 1000 inputs of the topics lie between the cursor and the watermark, and none
when the cursor is refused; and a tail cursor is refused only when no input lies behind it.
-/
def replaysInputs (hasProvider : String → Bool) (repositoryId : Uuid) (topics : List String)
    (cursor : Nat) (log : SharedLog) : SubscriberStep → Subscription InputRow → Bool
  | .prepare, _ => !topics.isEmpty && topics.all hasProvider
  | .ready, .watermarked watermark =>
    if log.isInputCursorRetained repositoryId cursor then
      (inputsBetween repositoryId topics cursor watermark log).length ≤ 1000
    else
      (inputsBetween repositoryId topics cursor watermark log).isEmpty
  | .poll, .streaming stream =>
    log.isInputCursorRetained repositoryId stream.cursor
      || (inputsLater repositoryId topics stream.cursor log).isEmpty
  | _, _ => true

/-- The stream covers the window up to its cursor with inputs of the log. -/
structure CoversWindow (repositoryId : Uuid) (topics : List String) (after : Nat)
    (log : SharedLog) (stream : Stream InputRow) : Prop where
  bound : stream.cursor ≤ log.lastInputSequence
  covered : Covers (stream.received ++ stream.pending)
    (inputsBetween repositoryId topics after stream.cursor log)
  stored : ∀ item ∈ stream.received ++ stream.pending,
    item ∈ log.inputs.rows ∧ wantsInput repositoryId topics item = true

/-- The invariant of a projection subscription that resumes behind `after`. -/
structure Projected (repositoryId : Uuid) (topics : List String) (after : Nat)
    (state : Subscribed InputRow) : Prop where
  ordered : Pages.Ordered InputRow.sequence state.log.inputs.rows state.log.lastInputSequence
  watermarked : ∀ watermark, state.subscription = .watermarked watermark →
    watermark ≤ state.log.lastInputSequence
  streaming : ∀ stream, state.subscription = .streaming stream →
    CoversWindow repositoryId topics after state.log stream
  served : ∀ received, state.subscription ≠ .ended received

theorem inputWatermark_le {repositoryId : Uuid}
    (ordered : Pages.Ordered InputRow.sequence log.inputs.rows log.lastInputSequence)
    : log.inputWatermark repositoryId ≤ log.lastInputSequence := by
  refine Sequences.watermark_le (fun number member => ?_)
  obtain ⟨row, stored, -, rfl⟩ := Sequences.mem_owned.mp member
  exact ordered.bound row stored

/-- Nothing of the repository lies behind its own watermark. -/
theorem inputsLater_watermark (log : SharedLog) (repositoryId : Uuid) (topics : List String)
    : inputsLater repositoryId topics (log.inputWatermark repositoryId) log = [] := by
  refine List.eq_nil_iff_forall_not_mem.mpr (fun row member => ?_)
  obtain ⟨stored, above, wants⟩ := Pages.mem_later.mp member
  simp only [wantsInput, Bool.and_eq_true, beq_iff_eq] at wants
  have own : row.sequence ∈ log.inputSequences repositoryId :=
    Sequences.mem_owned.mpr ⟨row, stored, wants.1, rfl⟩
  exact absurd (Sequences.le_watermark own) (Nat.not_le.mpr above)

theorem projected_unsubscribed {state : Subscribed InputRow} (h : Unsubscribed state)
    : Projected repositoryId topics cursor state := by
  cases h
  refine ⟨⟨by simp [Pages.Increasing, Table.empty], by simp [Table.empty]⟩, ?_, ?_, ?_⟩ <;>
    intro _ h <;> cases h

theorem CoversWindow.append {start stop : SharedLog}
    (h : CoversWindow repositoryId topics cursor start stream) (appended : Appended start stop)
    : CoversWindow repositoryId topics cursor stop stream := by
  have le := appended.inputs.le
  refine ⟨Nat.le_trans h.bound le, ?_, ?_⟩
  · have same : inputsBetween repositoryId topics cursor stream.cursor stop
        = inputsBetween repositoryId topics cursor stream.cursor start :=
      appended.inputs.between_eq h.bound
    rw [same]
    exact h.covered
  · intro item member
    exact ⟨appended.inputs.subset (h.stored item member).1, (h.stored item member).2⟩

theorem Projected.append {start : Subscribed InputRow} {next : SharedLog}
    (h : Projected repositoryId topics cursor start) (appended : Appended start.log next)
    : Projected repositoryId topics cursor { start with log := next } where
  ordered := appended.inputs.ordered h.ordered
  watermarked := fun watermark same =>
    Nat.le_trans (h.watermarked watermark same) appended.inputs.le
  streaming := fun stream same => (h.streaming stream same).append appended
  served := h.served

theorem coversWindow_ready {watermark : Nat} (bound : watermark ≤ log.lastInputSequence)
    (meets : replaysInputs hasProvider repositoryId topics cursor log .ready
      (.watermarked watermark) = true)
    : CoversWindow repositoryId topics cursor log {
        cursor := watermark
        received :=
          if log.isInputCursorRetained repositoryId cursor then
            replayProjectionInputs log repositoryId topics cursor (some watermark)
          else
            []
      } := by
  dsimp only [replaysInputs] at meets
  refine ⟨bound, ?_, ?_⟩
  · split at meets
    · next retained =>
        have fits := of_decide_eq_true meets
        simp only [retained, if_true, List.append_nil, replayProjectionInputs]
        rw [replayRows_eq_between fits]
        exact fun row member => ⟨row, member, rfl, Nat.le_refl _⟩
    · have nothing : inputsBetween repositoryId topics cursor watermark log = [] :=
        List.isEmpty_iff.mp meets
      simp [Covers, nothing]
  · intro item member
    simp only [List.append_nil] at member
    split at member
    · rw [replayProjectionInputs, replayRows_some] at member
      have found := Pages.mem_between.mp (List.mem_of_mem_take member)
      exact ⟨found.1, found.2.2.2⟩
    · cases member

theorem CoversWindow.read {row : InputRow} (h : CoversWindow repositoryId topics cursor log stream)
    (ordered : Pages.Ordered InputRow.sequence log.inputs.rows log.lastInputSequence)
    (sent : stream.pending = []) (member : row ∈ inputsLater repositoryId topics stream.cursor log)
    : CoversWindow repositoryId topics cursor log {
        stream with
          cursor := row.sequence
          pending := publishLatest
            (inputsBetween repositoryId topics stream.cursor row.sequence log)
      } := by
  obtain ⟨stored, above, -⟩ := Pages.mem_later.mp member
  have published := @publishLatest_covers
    (inputsBetween repositoryId topics stream.cursor row.sequence log)
    (ordered.increasing.filter _)
  refine ⟨ordered.bound row stored, ?_, ?_⟩
  · intro other hm
    obtain ⟨found, past, upto, wants⟩ := Pages.mem_between.mp hm
    by_cases old : other.sequence ≤ stream.cursor
    · obtain ⟨item, hi, same⟩ :=
        h.covered other (Pages.mem_between.mpr ⟨found, past, old, wants⟩)
      rw [sent, List.append_nil] at hi
      exact ⟨item, List.mem_append_left _ hi, same⟩
    · obtain ⟨item, hi, same⟩ :=
        published.1 other (Pages.mem_between.mpr ⟨found, by omega, upto, wants⟩)
      exact ⟨item, List.mem_append_right _ hi, same⟩
  · intro item hm
    rcases List.mem_append.mp hm with old | new
    · exact h.stored item (List.mem_append_left _ old)
    · have found := Pages.mem_between.mp (published.2 new)
      exact ⟨found.1, found.2.2.2⟩

theorem CoversWindow.poll (h : CoversWindow repositoryId topics cursor log stream)
    (ordered : Pages.Ordered InputRow.sequence log.inputs.rows log.lastInputSequence)
    (sent : stream.pending = [])
    : CoversWindow repositoryId topics cursor log
        (stream.read InputRow.sequence publishLatest
          (replayProjectionInputs log repositoryId topics stream.cursor none)) := by
  have page := read_cases ordered.increasing (wantsInput repositoryId topics) publishLatest
    (by decide : 0 < 1000) stream
  rw [replayProjectionInputs]
  rcases page with ⟨-, same⟩ | ⟨row, member, same⟩
  · rw [same]
    exact h
  · rw [same]
    exact h.read ordered sent member

theorem CoversWindow.send {item : InputRow}
    {rest : List InputRow} (h : CoversWindow repositoryId topics cursor log stream)
    (next : stream.pending = item :: rest)
    : CoversWindow repositoryId topics cursor log
        { stream with pending := rest, received := stream.received ++ [item] } := by
  have same : stream.received ++ [item] ++ rest = stream.received ++ stream.pending := by
    simp [next]
  refine ⟨h.bound, ?_, ?_⟩
  · simpa only [same] using h.covered
  · simpa only [same] using h.stored

/-- Every service step that meets the condition keeps the invariant. -/
theorem Projected.step {start stop : Subscribed InputRow} {event : SubscriptionEvent}
    (h : Projected repositoryId topics cursor start)
    (step : CheckedStep
      (serveProjections hasProvider repositoryId { topics := topics, cursor := some cursor })
      (replaysInputs hasProvider repositoryId topics cursor) start event stop)
    : Projected repositoryId topics cursor stop := by
  obtain ⟨step, passes⟩ := step
  cases step with
  | append call appends => exact h.append (appended_of_appends appends)
  | serve taken next served =>
    have meets := passes taken rfl
    obtain ⟨log, subscription⟩ := start
    -- One case for each pair of a step and the phase it is taken in.
    cases taken <;> cases subscription <;>
      simp only [serveProjections, reduceCtorEq, Option.some.injEq] at served
    case prepare.subscribing =>
      have accepted : (topics.isEmpty || !topics.all hasProvider) = false := by
        simpa [replaysInputs] using meets
      rw [accepted] at served
      cases served
      refine ⟨h.ordered, ?_, by simp, by simp⟩
      intro watermark same
      cases same
      exact inputWatermark_le h.ordered
    case ready.watermarked watermark =>
      subst served
      refine ⟨h.ordered, by simp, ?_, by simp⟩
      intro stream same
      cases same
      exact coversWindow_ready (h.watermarked watermark rfl) meets
    case poll.streaming stream =>
      have covers := h.streaming stream rfl
      split at served
      · next empty =>
          have sent := List.isEmpty_iff.mp empty
          split at served
          · cases served
            refine ⟨h.ordered, by simp, ?_, by simp⟩
            intro after same
            cases same
            exact covers.poll h.ordered sent
          · next refused =>
              cases served
              have nothing : inputsLater repositoryId topics stream.cursor log = [] := by
                simpa [replaysInputs, refused] using meets
              refine ⟨h.ordered, by simp, ?_, by simp⟩
              intro after same
              cases same
              refine ⟨inputWatermark_le h.ordered, ?_, covers.stored⟩
              intro row member
              obtain ⟨found, past, -, wants⟩ := Pages.mem_between.mp member
              by_cases old : row.sequence ≤ stream.cursor
              · exact covers.covered row (Pages.mem_between.mpr ⟨found, past, old, wants⟩)
              · have behind := Pages.mem_later.mpr ⟨found, Nat.lt_of_not_le old, wants⟩
                rw [inputsLater] at nothing
                simp [nothing] at behind
      · cases served
    case send.streaming stream =>
      have covers := h.streaming stream rfl
      unfold Stream.send at served
      split at served
      · cases served
      · next item rest pending =>
          cases served
          refine ⟨h.ordered, by simp, ?_, by simp⟩
          intro after same
          cases same
          exact covers.send pending

/-- Every key's latest input behind `after` was received. -/
def LatestReceived (repositoryId : Uuid) (topics : List String) (after : Nat)
    (log : SharedLog) (received : List InputRow) : Prop :=
  ∀ row ∈ inputsLater repositoryId topics after log,
    (∀ other ∈ log.inputs.rows, wantsInput repositoryId topics other = true →
      other.key = row.key → other.sequence ≤ row.sequence) →
    row ∈ received

theorem CoversWindow.latestReceived (h : CoversWindow repositoryId topics cursor log stream)
    (ordered : Pages.Ordered InputRow.sequence log.inputs.rows log.lastInputSequence)
    (idle : stream.Idle InputRow.sequence (wantsInput repositoryId topics) log.inputs.rows)
    : LatestReceived repositoryId topics cursor log stream.received := by
  intro row member latest
  have window := @between_eq_later _ _ _ _ cursor _ idle.2
  rw [inputsLater, ← window] at member
  obtain ⟨item, hi, key, le⟩ := h.covered row member
  rw [idle.1, List.append_nil] at hi
  have stored := h.stored item (by rw [idle.1, List.append_nil]; exact hi)
  have ge := latest item stored.1 stored.2 key
  have found := (Pages.mem_between.mp member).1
  rw [ordered.increasing.eq_of_same found stored.1 (Nat.le_antisymm le ge)]
  exact hi

/-- The tail reads on from every input it read. -/
theorem isInputCursorRetained_of_wants {row : InputRow}
    (stored : row ∈ log.inputs.rows) (wants : wantsInput repositoryId topics row = true)
    : log.isInputCursorRetained repositoryId row.sequence = true := by
  simp only [wantsInput, Bool.and_eq_true, beq_iff_eq] at wants
  exact Sequences.retained_of_mem (Sequences.mem_owned.mpr ⟨row, stored, wants.1, rfl⟩)

/-- A projection stream catches up by its own steps. -/
theorem serveProjections_idle
    (ordered : Pages.Ordered InputRow.sequence log.inputs.rows log.lastInputSequence)
    : ∃ steps idle,
        Serves
          (serveProjections hasProvider repositoryId { topics := topics, cursor := some cursor })
          { log := log, subscription := .streaming stream } steps
          { log := log, subscription := .streaming idle }
        ∧ idle.Idle InputRow.sequence (wantsInput repositoryId topics) log.inputs.rows := by
  have sends (stream : Stream InputRow)
      : serveProjections hasProvider repositoryId { topics := topics, cursor := some cursor }
          log .send (.streaming stream) = stream.send := rfl
  cases retained : log.isInputCursorRetained repositoryId stream.cursor with
  | true =>
    refine serves_idle ordered.increasing publishLatest (by decide : 0 < 1000)
      (fun after => log.isInputCursorRetained repositoryId after = true) sends ?_ ?_ stream
      retained
    · intro stream sent reads
      simp [serveProjections, sent, reads, replayProjectionInputs]
    · intro row stored wants
      exact isInputCursorRetained_of_wants stored wants
  | false =>
    obtain ⟨steps, served⟩ := serves_send sends stream
    refine ⟨steps ++ [.poll],
      { stream.flushed with cursor := log.inputWatermark repositoryId }, ?_, rfl,
      inputsLater_watermark log repositoryId topics⟩
    rw [Serves, List.map_append]
    refine served.append (.cons (.serve _ _ _ ?_) (.nil _))
    simp [serveProjections, Stream.flushed, retained]

end Projections

----------------------------------------
-- Fact subscriptions
----------------------------------------

section FactStreams

variable {repositoryId : Uuid} {kinds : List String} {cursor : Nat}

def factsBetween (repositoryId : Uuid) (kinds : List String) (after upto : Nat)
    (log : SharedLog) : List FactRow :=
  Pages.between FactRow.sequence (wantsFact repositoryId kinds) after upto log.retained.rows

def factsLater (repositoryId : Uuid) (kinds : List String) (after : Nat) (log : SharedLog)
    : List FactRow :=
  Pages.later FactRow.sequence (wantsFact repositoryId kinds) after log.retained.rows

/-- The condition on the coordinator's steps: the cursor is retained when the client
subscribes and at every poll, and at the ready message at most 100000 facts of the kinds lie
between the cursor and the watermark.
-/
def replaysFacts (repositoryId : Uuid) (kinds : List String) (cursor : Nat) (log : SharedLog)
    : SubscriberStep → Subscription FactRow → Bool
  | .prepare, _ => log.isFactCursorRetained repositoryId cursor
  | .ready, _ =>
    (factsBetween repositoryId kinds cursor (log.factWatermark repositoryId) log).length
      ≤ 100000
  | .poll, .streaming stream => log.isFactCursorRetained repositoryId stream.cursor
  | _, _ => true

/-- What was read is exactly the window up to the cursor, in order. -/
structure ReadsWindow (repositoryId : Uuid) (kinds : List String) (after : Nat)
    (log : SharedLog) (stream : Stream FactRow) : Prop where
  bound : stream.cursor ≤ log.lastFactSequence
  behind : after ≤ stream.cursor
  window : stream.received ++ stream.pending
    = factsBetween repositoryId kinds after stream.cursor log

/-- The invariant of a fact subscription that resumes behind `after`. -/
structure Followed (repositoryId : Uuid) (kinds : List String) (after : Nat)
    (state : Subscribed FactRow) : Prop where
  ordered : Pages.Ordered FactRow.sequence state.log.retained.rows state.log.lastFactSequence
  checked : ∀ from_, state.subscription = .checked from_ →
    from_ = after ∧ after ≤ state.log.factWatermark repositoryId
  streaming : ∀ stream, state.subscription = .streaming stream →
    ReadsWindow repositoryId kinds after state.log stream
  served : ∀ received, state.subscription ≠ .ended received

theorem factWatermark_le {repositoryId : Uuid}
    (ordered : Pages.Ordered FactRow.sequence log.retained.rows log.lastFactSequence)
    : log.factWatermark repositoryId ≤ log.lastFactSequence := by
  refine Sequences.watermark_le (fun number member => ?_)
  obtain ⟨row, stored, -, rfl⟩ := Sequences.mem_owned.mp member
  exact ordered.bound row stored

theorem factWatermark_mono {start stop : SharedLog} (appended : Appended start stop)
    (repositoryId : Uuid)
    : start.factWatermark repositoryId ≤ stop.factWatermark repositoryId := by
  refine Sequences.watermark_le (fun number member => ?_)
  obtain ⟨row, stored, own, rfl⟩ := Sequences.mem_owned.mp member
  exact Sequences.le_watermark
    (Sequences.mem_owned.mpr ⟨row, appended.facts.subset stored, own, rfl⟩)

theorem followed_unsubscribed {state : Subscribed FactRow} (h : Unsubscribed state)
    : Followed repositoryId kinds cursor state := by
  cases h
  refine ⟨⟨by simp [Pages.Increasing, Table.empty], by simp [Table.empty]⟩, ?_, ?_, ?_⟩ <;>
    intro _ h <;> cases h

theorem Followed.append {start : Subscribed FactRow} {next : SharedLog}
    (h : Followed repositoryId kinds cursor start) (appended : Appended start.log next)
    : Followed repositoryId kinds cursor { start with log := next } where
  ordered := appended.facts.ordered h.ordered
  checked := by
    intro from_ same
    obtain ⟨eq, le⟩ := h.checked from_ same
    exact ⟨eq, Nat.le_trans le (factWatermark_mono appended repositoryId)⟩
  streaming := by
    intro stream same
    have reads := h.streaming stream same
    refine ⟨Nat.le_trans reads.bound appended.facts.le, reads.behind, ?_⟩
    rw [reads.window]
    exact (appended.facts.between_eq reads.bound).symm
  served := h.served

theorem ReadsWindow.poll {stream : Stream FactRow}
    (h : ReadsWindow repositoryId kinds cursor log stream)
    (ordered : Pages.Ordered FactRow.sequence log.retained.rows log.lastFactSequence)
    (sent : stream.pending = [])
    : ReadsWindow repositoryId kinds cursor log
        (stream.read FactRow.sequence id
          (replayFacts log repositoryId kinds stream.cursor none)) := by
  rw [replayFacts]
  rcases read_cases ordered.increasing (wantsFact repositoryId kinds) id
    (by decide : 0 < 100000) stream with ⟨-, same⟩ | ⟨row, member, same⟩
  · rw [same]
    exact h
  · rw [same]
    obtain ⟨stored, above, -⟩ := Pages.mem_later.mp member
    refine ⟨ordered.bound row stored, Nat.le_trans h.behind (Nat.le_of_lt above), ?_⟩
    have before := h.window
    rw [sent, List.append_nil] at before
    change stream.received ++ _ = _
    rw [before]
    exact Pages.between_append ordered.increasing h.behind (Nat.le_of_lt above)

/-- Every service step that meets the condition keeps the invariant. -/
theorem Followed.step {start stop : Subscribed FactRow} {event : SubscriptionEvent}
    (h : Followed repositoryId kinds cursor start)
    (step : CheckedStep
      (serveFacts repositoryId { factKinds := kinds, cursor := some cursor })
      (replaysFacts repositoryId kinds cursor) start event stop)
    : Followed repositoryId kinds cursor stop := by
  obtain ⟨step, passes⟩ := step
  cases step with
  | append call appends => exact h.append (appended_of_appends appends)
  | serve taken next served =>
    have meets := passes taken rfl
    obtain ⟨log, subscription⟩ := start
    cases taken <;> cases subscription <;>
      simp only [serveFacts, reduceCtorEq, Option.some.injEq, Option.getD_some] at served
    case prepare.subscribing =>
      have retained : log.isFactCursorRetained repositoryId cursor = true := meets
      rw [if_pos retained] at served
      cases served
      refine ⟨h.ordered, ?_, by simp, by simp⟩
      intro from_ same
      cases same
      exact ⟨rfl, Sequences.le_of_retained retained⟩
    case ready.checked from_ =>
      obtain ⟨rfl, le⟩ := h.checked from_ rfl
      subst served
      refine ⟨h.ordered, by simp, ?_, by simp⟩
      intro stream same
      cases same
      refine ⟨factWatermark_le h.ordered, le, ?_⟩
      rw [List.append_nil, replayFacts]
      exact replayRows_eq_between (of_decide_eq_true meets)
    case poll.streaming stream =>
      have reads := h.streaming stream rfl
      have retained : log.isFactCursorRetained repositoryId stream.cursor = true := meets
      split at served
      · next empty =>
          cases served
          refine ⟨h.ordered, by simp, ?_, by simp⟩
          intro after same
          cases same
          exact reads.poll h.ordered (List.isEmpty_iff.mp empty)
      · cases served
    case send.streaming stream =>
      have reads := h.streaming stream rfl
      unfold Stream.send at served
      split at served
      · cases served
      · next item rest pending =>
          cases served
          refine ⟨h.ordered, by simp, ?_, by simp⟩
          intro after same
          cases same
          refine ⟨reads.bound, reads.behind, ?_⟩
          have window := reads.window
          rw [pending] at window
          simpa using window

/-- A fact stream whose cursor is retained catches up by its own steps. -/
theorem serveFacts_idle {stream : Stream FactRow}
    (ordered : Pages.Ordered FactRow.sequence log.retained.rows log.lastFactSequence)
    (retained : log.isFactCursorRetained repositoryId stream.cursor = true)
    : ∃ steps idle,
        Serves (serveFacts repositoryId { factKinds := kinds, cursor := some cursor })
          { log := log, subscription := .streaming stream } steps
          { log := log, subscription := .streaming idle }
        ∧ idle.Idle FactRow.sequence (wantsFact repositoryId kinds) log.retained.rows := by
  refine serves_idle ordered.increasing id (by decide : 0 < 100000)
    (fun after => log.isFactCursorRetained repositoryId after = true) (fun _ => rfl) ?_ ?_ stream
    retained
  · intro stream sent reads
    simp [serveFacts, sent, reads, replayFacts]
  · intro row stored wants
    simp only [wantsFact, Bool.and_eq_true, beq_iff_eq] at wants
    exact Sequences.retained_of_mem (Sequences.mem_owned.mpr ⟨row, stored, wants.1, rfl⟩)

end FactStreams

----------------------------------------
-- Resumed subscriptions
----------------------------------------

/-- What a projection subscription that resumes behind `after` owes: it is served, it has sent
every key's latest input when it is idle, and it becomes idle by its own steps.
-/
structure InputsResumed (hasProvider : String → Bool) (repositoryId : Uuid)
    (topics : List String) (after : Nat) (state : Subscribed InputRow) : Prop where
  served : ∀ received, state.subscription ≠ .ended received
  complete : ∀ stream, state.subscription = .streaming stream →
    stream.Idle InputRow.sequence (wantsInput repositoryId topics) state.log.inputs.rows →
    LatestReceived repositoryId topics after state.log stream.received
  catchesUp : ∀ stream, state.subscription = .streaming stream →
    ∃ steps idle,
      Serves
        (serveProjections hasProvider repositoryId { topics := topics, cursor := some after })
        state steps { state with subscription := .streaming idle }
      ∧ idle.Idle InputRow.sequence (wantsInput repositoryId topics) state.log.inputs.rows

/-- What a fact subscription that resumes behind `after` owes: it is served, what it sent and
will send next are the facts behind `after`, each once and in order, and it becomes idle by
its own steps while its cursor is retained.
-/
structure FactsResumed (repositoryId : Uuid) (kinds : List String) (after : Nat)
    (state : Subscribed FactRow) : Prop where
  served : ∀ received, state.subscription ≠ .ended received
  exact_ : ∀ stream, state.subscription = .streaming stream →
    stream.received ++ stream.pending
      = factsBetween repositoryId kinds after stream.cursor state.log
  complete : ∀ stream, state.subscription = .streaming stream →
    stream.Idle FactRow.sequence (wantsFact repositoryId kinds) state.log.retained.rows →
    stream.received = factsLater repositoryId kinds after state.log
  catchesUp : ∀ stream, state.subscription = .streaming stream →
    state.log.isFactCursorRetained repositoryId stream.cursor = true →
    ∃ steps idle,
      Serves (serveFacts repositoryId { factKinds := kinds, cursor := some after }) state steps
        { state with subscription := .streaming idle }
      ∧ idle.Idle FactRow.sequence (wantsFact repositoryId kinds) state.log.retained.rows

/-- In every run of a subscriber among appends whose service steps meet the conditions, the
client that resumed receives what it is owed.
-/
theorem resumedSubscriptions_of_replays (hasProvider : String → Bool) (repositoryId : Uuid)
    (topics kinds : List String) (after : Nat)
    : (∀ events state,
        Run Unsubscribed (CheckedStep
          (serveProjections hasProvider repositoryId { topics := topics, cursor := some after })
          (replaysInputs hasProvider repositoryId topics after)) events state →
        InputsResumed hasProvider repositoryId topics after state)
      ∧ ∀ events state,
          Run Unsubscribed (CheckedStep
            (serveFacts repositoryId { factKinds := kinds, cursor := some after })
            (replaysFacts repositoryId kinds after)) events state →
          FactsResumed repositoryId kinds after state := by
  constructor
  · intro events state run
    have projected : Projected repositoryId topics after state :=
      run.invariant (fun _ new => projected_unsubscribed new)
        (fun _ _ _ projected step => projected.step step)
    refine ⟨projected.served, ?_, ?_⟩
    · intro stream same idle
      exact (projected.streaming stream same).latestReceived projected.ordered idle
    · obtain ⟨log, subscription⟩ := state
      intro stream same
      cases same
      exact serveProjections_idle projected.ordered
  · intro events state run
    have followed : Followed repositoryId kinds after state :=
      run.invariant (fun _ new => followed_unsubscribed new)
        (fun _ _ _ followed step => followed.step step)
    refine ⟨followed.served, ?_, ?_, ?_⟩
    · intro stream same
      exact (followed.streaming stream same).window
    · intro stream same idle
      have window := (followed.streaming stream same).window
      rw [idle.1, List.append_nil] at window
      rw [window]
      exact between_eq_later idle.2
    · obtain ⟨log, subscription⟩ := state
      intro stream same retained
      cases same
      exact serveFacts_idle followed.ordered retained

variable {count : Nat}

section Scenario

/-- The `count`th invalidation of the ticket list. -/
def ticketInput (count : Nat) : ProjectionInputDraft where
  inputId := ⟨BitVec.ofNat 128 count⟩
  projection := "tickets"
  subjectKey := "all"
  generation := count

def ticketCall (count : Nat) : LogCall :=
  logCall 0 (.appendProjectionInput 1 (ticketInput count) 0)

def ticketRow (count : Nat) : InputRow where
  repositoryId := 1
  record := {
    sequence := count + 1
    inputId := (ticketInput count).inputId
    sourceFactId := none
    projection := "tickets"
    subjectKey := "all"
    generation := count
    createdAt := 0
  }

/-- A log of the first `count` invalidations. -/
structure HoldsTickets (count : Nat) (log : SharedLog) : Prop where
  rows : log.inputs.rows = (List.range count).map ticketRow
  last : log.lastInputSequence = count

theorem ticketInput_inj {other : Nat} (hc : count < 2 ^ 128) (ho : other < 2 ^ 128)
    (same : (ticketInput count).inputId = (ticketInput other).inputId)
    : count = other := by
  have bits : count % 2 ^ 128 = other % 2 ^ 128 :=
    congrArg (fun id : Uuid => id.bits.toNat) same
  rwa [Nat.mod_eq_of_lt hc, Nat.mod_eq_of_lt ho] at bits

theorem holdsTickets_append (holds : HoldsTickets count log) (small : count < 2 ^ 128)
    : HoldsTickets (count + 1)
        (final (runLog (ticketCall count).op (ticketCall count).supply (ticketCall count).now
          log)) := by
  have apart : ∀ stored ∈ log.inputs, inputRowClash stored (ticketRow count) = false := by
    intro stored member
    rw [Table.mem_def, holds.rows] at member
    obtain ⟨other, less, rfl⟩ := List.mem_map.mp member
    have less := List.mem_range.mp less
    have different : (ticketInput other).inputId ≠ (ticketInput count).inputId := by
      intro same
      have := ticketInput_inj (by omega) small same
      omega
    simp [inputRowClash, ticketRow, Storage.sameKey, different]
  obtain ⟨inputs, inserts, rows⟩ := Table.insert?_of_apart apart
  have inserted : insertInput 1 none 0 false (ticketInput count) log
      = { log with inputs := inputs, lastInputSequence := count + 1 } := by
    unfold insertInput
    rw [holds.last]
    dsimp only
    split
    · next grown added => rw [Option.some.inj (inserts.symm.trans added)]
    · next refused => cases inserts.symm.trans refused
  have found : inputs.find? (fun row =>
      row.repositoryId == 1 && row.record.inputId == (ticketInput count).inputId)
      = some (ticketRow count) := by
    refine Table.find?_eq_some ?_ ?_ ?_
    · simp [Table.mem_def, rows]
    · simp [ticketRow]
    · intro other member matches_
      rcases (Table.mem_of_insert? inserts).mp member with old | new
      · have free := apart other old
        simp only [Bool.and_eq_true, beq_iff_eq] at matches_
        simp [inputRowClash, ticketRow, matches_.1, matches_.2] at free
      · exact new
  have returned : Returns (SharedLog.appendProjectionInput 1 (ticketInput count) 0 false) log
      (ticketRow count).record
      { log with inputs := inputs, lastInputSequence := count + 1 } := by
    rw [SharedLog.appendProjectionInput, returns_transaction]
    simp only [returns_bind, returns_modify, returns_get, returns_orRaise, returns_raiseIf,
      returns_pure]
    exact ⟨⟨⟩, _, inserted, _, _, ⟨rfl, rfl⟩, _, _, ⟨found, rfl⟩, (), _,
      ⟨by simp [ticketRow, ticketInput], rfl⟩, rfl, rfl⟩
  have ends : final (runLog (ticketCall count).op (ticketCall count).supply
      (ticketCall count).now log)
      = { log with inputs := inputs, lastInputSequence := count + 1 } :=
    (final_map _ _ _).trans (final_of_returns returned)
  rw [ends]
  exact ⟨by simp [rows, holds.rows, List.range_succ], rfl⟩

/-- A run that only appends the first `count` invalidations, by induction on `count`. -/
theorem steps_tickets {ρ : Type}
    (serve : SharedLog → SubscriberStep → Subscription ρ → Option (Subscription ρ))
    (meets : SharedLog → SubscriberStep → Subscription ρ → Bool) (count : Nat)
    (small : count ≤ 2 ^ 128)
    : ∃ events log,
        Steps (CheckedStep serve meets) {} events { log := log } ∧ HoldsTickets count log := by
  induction count with
  | zero => exact ⟨[], {}, .nil _, rfl, rfl⟩
  | succ count ih =>
    obtain ⟨events, log, steps, holds⟩ := ih (by omega)
    refine ⟨events ++ [.append (ticketCall count)], _, steps.snoc ⟨.append _ _ rfl, ?_⟩,
      holdsTickets_append holds (by omega)⟩
    intro step same
    cases same

theorem HoldsTickets.sequences (h : HoldsTickets count log)
    : log.inputSequences 1 = (List.range count).map (fun index => index + 1) := by
  simp [SharedLog.inputSequences, Sequences.owned, h.rows, ticketRow, InputRow.sequence,
    List.filter_map, Function.comp_def]

theorem HoldsTickets.watermark (h : HoldsTickets count log)
    : log.inputWatermark 1 = count := by
  unfold SharedLog.inputWatermark
  rw [h.sequences]
  apply Nat.le_antisymm
  · apply Sequences.watermark_le
    intro sequence member
    obtain ⟨index, below, rfl⟩ := List.mem_map.mp member
    exact List.mem_range.mp below
  · cases count with
    | zero => exact Nat.zero_le _
    | succ count => exact Sequences.le_watermark (by simp)

theorem HoldsTickets.retained (h : HoldsTickets count log)
    : log.isInputCursorRetained 1 0 = true := by
  have watermark := h.watermark
  unfold SharedLog.inputWatermark at watermark
  unfold SharedLog.isInputCursorRetained
  rw [h.sequences] at watermark ⊢
  cases count with
  | zero => decide
  | succ count =>
    refine (@Sequences.retained_iff _ 1 0 ?_ ?_ (Nat.zero_le _)).mpr (Nat.le_refl 1)
    · simp
    · simp

theorem HoldsTickets.between {count : Nat} {log : SharedLog} (h : HoldsTickets count log)
    : inputsBetween 1 ["tickets"] 0 count log = (List.range count).map ticketRow := by
  rw [inputsBetween, Pages.between, h.rows]
  refine List.filter_eq_self.mpr (fun row member => ?_)
  obtain ⟨index, less, rfl⟩ := List.mem_map.mp member
  have less := List.mem_range.mp less
  have below : index + 1 ≤ count := less
  simp [ticketRow, InputRow.sequence, wantsInput, wantedBy, below]

/-- The ready message of a client behind the first `count` invalidations. -/
def ticketReady (count : Nat) : Stream InputRow where
  cursor := count
  received := ((List.range count).map ticketRow).take 1000

abbrev serveTickets := serveProjections (fun _ => true) 1
  { topics := ["tickets"], cursor := some 0 }

/-- A client that subscribes behind the first invalidations gets them in its ready message,
up to the limit.
-/
theorem steps_ticketReady
    (meets : SharedLog → SubscriberStep → Subscription InputRow → Bool) (count : Nat)
    (small : count ≤ 2 ^ 128)
    (passes : ∀ log, HoldsTickets count log →
      meets log .prepare .subscribing = true ∧ meets log .ready (.watermarked count) = true)
    : ∃ events log, HoldsTickets count log
        ∧ Run Unsubscribed (CheckedStep serveTickets meets) events
            { log := log, subscription := .streaming (ticketReady count) } := by
  obtain ⟨events, log, steps, holds⟩ := steps_tickets serveTickets meets count small
  have prepare : serveTickets log .prepare .subscribing = some (.watermarked count) := by
    simp [serveProjections, holds.watermark]
  have ready : serveTickets log .ready (.watermarked count)
      = some (.streaming (ticketReady count)) := by
    have window := holds.between
    rw [inputsBetween] at window
    simp [serveProjections, holds.retained, replayProjectionInputs, replayRows_some, window,
      ticketReady]
  obtain ⟨first, second⟩ := passes log holds
  refine ⟨_, log, holds, {}, rfl, (steps.snoc ⟨.serve _ _ _ prepare, ?_⟩).snoc
    ⟨.serve _ _ _ ready, ?_⟩⟩
  · intro step same
    cases same
    exact first
  · intro step same
    cases same
    exact second

theorem idle_ticketReady (holds : HoldsTickets count log)
    : (ticketReady count).Idle InputRow.sequence (wantsInput 1 ["tickets"]) log.inputs.rows := by
  refine ⟨rfl, ?_⟩
  have nothing := inputsLater_watermark log 1 ["tickets"]
  rwa [holds.watermark] at nothing

def notedLog : SharedLog :=
  final (runLog (.appendFact 1 (notedFact 10) [] 0) false 0 {})

def notedReady : Stream FactRow where
  cursor := notedLog.factWatermark 1
  received := replayFacts notedLog 1 [] 0 (some (notedLog.factWatermark 1))

theorem steps_notedReady
    : ∃ events, Run Unsubscribed
        (CheckedStep (serveFacts 1 { factKinds := [], cursor := some 0 }) (replaysFacts 1 [] 0))
        events { log := notedLog, subscription := .streaming notedReady } := by
  have retained : notedLog.isFactCursorRetained 1 0 = true := by decide +kernel
  have fits : (factsBetween 1 [] 0 (notedLog.factWatermark 1) notedLog).length ≤ 100000 := by
    decide +kernel
  have prepare : serveFacts 1 { factKinds := [], cursor := some 0 } notedLog .prepare
      .subscribing = some (.checked 0) := by
    simp [serveFacts, retained]
  refine ⟨[.append (logCall 0 (.appendFact 1 (notedFact 10) [] 0)), .serve .prepare,
    .serve .ready], {}, rfl, .cons ⟨.append _ _ rfl, ?_⟩ (.cons ⟨.serve _ _ _ prepare, ?_⟩
      (.cons ⟨.serve _ _ _ rfl, ?_⟩ (.nil _)))⟩
  · intro step same
    cases same
  · intro step same
    cases same
    exact retained
  · intro step same
    cases same
    exact decide_eq_true fits

theorem resumedSubscriptions_of_ready
    : (∃ state stream, state.subscription = .streaming stream ∧ stream.received.length = 2
        ∧ InputsResumed (fun _ => true) 1 ["tickets"] 0 state)
      ∧ ∃ state stream, state.subscription = .streaming stream ∧ stream.received.length = 1
          ∧ FactsResumed 1 [] 0 state := by
  constructor
  · obtain ⟨events, log, holds, run⟩ := steps_ticketReady
      (replaysInputs (fun _ => true) 1 ["tickets"] 0) 2 (by omega) (by
        intro log holds
        simp [replaysInputs, holds.retained, holds.between])
    exact ⟨_, ticketReady 2, rfl, rfl,
      (resumedSubscriptions_of_replays _ 1 ["tickets"] [] 0).1 events _ run⟩
  · obtain ⟨events, run⟩ := steps_notedReady
    exact ⟨_, notedReady, rfl, by decide +kernel,
      (resumedSubscriptions_of_replays (fun _ => true) 1 [] [] 0).2 events _ run⟩

/-- Behind more than 1000 inputs of one key the ready message misses the last of them. -/
theorem ticketReady_misses (many : 1000 ≤ count) (holds : HoldsTickets (count + 1) log)
    : ¬ LatestReceived 1 ["tickets"] 0 log (ticketReady (count + 1)).received := by
  intro latest
  have stored : ticketRow count ∈ log.inputs.rows := by
    rw [holds.rows]
    exact List.mem_map.mpr ⟨count, by simp, rfl⟩
  have later : ticketRow count ∈ inputsLater 1 ["tickets"] 0 log :=
    Pages.mem_later.mpr ⟨stored, Nat.succ_pos _, by simp [wantsInput, wantedBy, ticketRow]⟩
  have received := latest (ticketRow count) later (by
    intro other member _ _
    rw [holds.rows] at member
    obtain ⟨index, less, rfl⟩ := List.mem_map.mp member
    have less := List.mem_range.mp less
    simp only [ticketRow, InputRow.sequence]
    omega)
  simp only [ticketReady, ← List.map_take, List.take_range, List.mem_map, List.mem_range]
    at received
  obtain ⟨index, less, same⟩ := received
  have same : index + 1 = count + 1 := congrArg InputRow.sequence same
  omega

theorem resumedSubscriptions_broken
    : ¬ ∀ hasProvider repositoryId topics after events (state : Subscribed InputRow) stream,
        Run Unsubscribed
          (ServiceStep (serveProjections hasProvider repositoryId
            { topics := topics, cursor := some after })) events state →
        state.subscription = .streaming stream →
        stream.Idle InputRow.sequence (wantsInput repositoryId topics) state.log.inputs.rows →
        LatestReceived repositoryId topics after state.log stream.received := by
  intro complete
  obtain ⟨events, log, holds, start, new, steps⟩ := steps_ticketReady
    (fun _ _ _ => true) 1001 (by omega) (fun _ _ => ⟨rfl, rfl⟩)
  have run : Run Unsubscribed (ServiceStep serveTickets) events
      { log := log, subscription := .streaming (ticketReady 1001) } :=
    ⟨start, new, steps.imp (fun _ _ _ step => step.step)⟩
  exact ticketReady_misses (Nat.le_refl 1000) holds
    (complete _ 1 ["tickets"] 0 events _ _ run rfl (idle_ticketReady holds))

end Scenario

end Murder.Facts

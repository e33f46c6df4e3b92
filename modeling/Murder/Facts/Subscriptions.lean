import Murder.Facts.Retention

/-! Resumed subscriptions: a ready message that replays from the client's cursor, and a tail
that goes on behind it while others append.
Safety is a window kept by every step; that a stream catches up is a measure argument.
-/

namespace Murder.Facts

open Murder.Contracts Library.Transactions Library.Calls Library.Runs Library
open SharedLog

/-- A SQL `IN` list that is left out when it is empty. -/
def wantedBy (names : List String) (name : String) : Bool := names.isEmpty || names.contains name

def wantsInput (repositoryId : Uuid) (projections : List String) (row : InputRow) : Bool :=
  row.repositoryId == repositoryId && wantedBy projections row.record.projection

def wantsFact (repositoryId : Uuid) (kinds : List String) (row : FactRow) : Bool :=
  row.repositoryId == repositoryId && wantedBy kinds row.record.draft.payload.kind

/-- The first `limit` wanted rows behind a cursor, in sequence order. -/
def replayRows {ρ : Type} (sequence : ρ → Nat) (wanted : ρ → Bool) (rows : List ρ)
    (after : Nat) (until_ : Option Nat) (limit : Nat) : List ρ :=
  if until_.any (fun upto => upto < after) then
    []
  else
    (rows.filter (fun row =>
      after < sequence row && wanted row && until_.all (fun upto => sequence row ≤ upto))).take
      limit

/-- `ProjectionInputLog.replay`, by default in pages of 1000. -/
def replayProjectionInputs (log : SharedLog) (repositoryId : Uuid) (projections : List String)
    (after : Nat) (until_ : Option Nat) (limit : Nat := 1000) : List InputRow :=
  replayRows InputRow.sequence (wantsInput repositoryId projections) log.inputs.rows after
    until_ limit

/-- `FactLog.replay`, in pages of 100000. -/
def replayFacts (log : SharedLog) (repositoryId : Uuid) (kinds : List String) (after : Nat)
    (until_ : Option Nat) (limit : Nat := 100000) : List FactRow :=
  replayRows FactRow.sequence (wantsFact repositoryId kinds) log.retained.rows after until_
    limit

/-- A stream after its ready message: where its tail reads on, what it read and has not sent,
and what the client received.
-/
structure Stream (ρ : Type) where
  cursor : Nat
  pending : List ρ := []
  received : List ρ := []

inductive Subscription (ρ : Type)
  | subscribing
  | checked (cursor : Nat)
  | watermarked (watermark : Nat)
  | streaming (stream : Stream ρ)
  | ended (received : List ρ)

/-- What a coordinator does next; other tasks and processes run in between. -/
inductive SubscriberStep
  | prepare
  | ready
  | poll
  | send
deriving DecidableEq

def Stream.send {ρ : Type} (stream : Stream ρ) : Option (Subscription ρ) :=
  match stream.pending with
  | [] => none
  | item :: rest =>
    some (.streaming { stream with pending := rest, received := stream.received ++ [item] })

def Stream.flushed {ρ : Type} (stream : Stream ρ) : Stream ρ :=
  { stream with pending := [], received := stream.received ++ stream.pending }

/-- Read the next page once everything read is sent; the cursor moves to its last row. -/
def Stream.read {ρ : Type} (sequence : ρ → Nat) (publish : List ρ → List ρ)
    (records : List ρ) (stream : Stream ρ) : Stream ρ :=
  match records.getLast? with
  | none => stream
  | some last => { stream with cursor := sequence last, pending := publish records }

def InputRow.key (row : InputRow) : String × String :=
  (row.record.projection, row.record.subjectKey)

/-- One entry of `{(projection, subject_key): item}`: a later item takes its key's place. -/
def keepLatest (latest : List InputRow) (item : InputRow) : List InputRow :=
  if latest.any (fun other => other.key == item.key) then
    latest.map (fun other => if other.key == item.key then item else other)
  else
    latest ++ [item]

def publishLatest (records : List InputRow) : List InputRow :=
  (records.foldl keepLatest []).mergeSort (fun left right => left.sequence ≤ right.sequence)

structure ProjectionSubscription where
  topics : List String
  cursor : Option Nat

structure FactSubscription where
  factKinds : List String
  cursor : Option Nat

/-- `SubscriptionCoordinator._projections` over the current log. -/
def serveProjections (hasProvider : String → Bool) (repositoryId : Uuid)
    (spec : ProjectionSubscription) (log : SharedLog)
    : SubscriberStep → Subscription InputRow → Option (Subscription InputRow)
  | .prepare, .subscribing =>
    if spec.topics.isEmpty || !spec.topics.all hasProvider then
      some (.ended [])
    else
      some (.watermarked (log.inputWatermark repositoryId))
  | .ready, .watermarked watermark =>
    let replay :=
      match spec.cursor with
      | some cursor =>
        if log.isInputCursorRetained repositoryId cursor then
          replayProjectionInputs log repositoryId spec.topics cursor (some watermark)
        else
          []
      | none => []
    some (.streaming { cursor := watermark, received := replay })
  | .poll, .streaming stream =>
    if stream.pending.isEmpty then
      -- A replay gap restarts the tail at the watermark, behind fresh snapshots.
      if log.isInputCursorRetained repositoryId stream.cursor then
        some (.streaming (stream.read InputRow.sequence publishLatest
          (replayProjectionInputs log repositoryId spec.topics stream.cursor none)))
      else
        some (.streaming { stream with cursor := log.inputWatermark repositoryId })
    else
      none
  | .send, .streaming stream => stream.send
  | _, _ => none

/-- `SubscriptionCoordinator._facts_stream` over the current log. -/
def serveFacts (repositoryId : Uuid) (spec : FactSubscription) (log : SharedLog)
    : SubscriberStep → Subscription FactRow → Option (Subscription FactRow)
  | .prepare, .subscribing =>
    let cursor := spec.cursor.getD (log.factWatermark repositoryId)
    if log.isFactCursorRetained repositoryId cursor then
      some (.checked cursor)
    else
      some (.ended [])
  | .ready, .checked cursor =>
    let watermark := log.factWatermark repositoryId
    let replay := replayFacts log repositoryId spec.factKinds cursor (some watermark)
    some (.streaming { cursor := watermark, received := replay })
  | .poll, .streaming stream =>
    if stream.pending.isEmpty then
      -- A replay gap fails the stream.
      if log.isFactCursorRetained repositoryId stream.cursor then
        some (.streaming (stream.read FactRow.sequence id
          (replayFacts log repositoryId spec.factKinds stream.cursor none)))
      else
        some (.ended stream.received)
    else
      none
  | .send, .streaming stream => stream.send
  | _, _ => none

def LogOp.appends : LogOp → Bool
  | .appendFact .. => true
  | .appendProjectionInput .. => true
  | .pruneFacts .. => false
  | .pruneInputs .. => false

/-- The log with the state of one subscription to it. -/
structure Subscribed (ρ : Type) where
  log : SharedLog := {}
  subscription : Subscription ρ := .subscribing

inductive SubscriptionEvent
  | append (call : LogCall)
  | serve (step : SubscriberStep)

section Service

variable {ρ : Type}
  (serve : SharedLog → SubscriberStep → Subscription ρ → Option (Subscription ρ))

/-- Anyone appends, or the coordinator takes its next step. -/
inductive ServiceStep : Subscribed ρ → SubscriptionEvent → Subscribed ρ → Prop
  | append (state call) (appends : call.op.appends = true)
    : ServiceStep state (.append call)
        { state with log := final (runLog call.op call.supply call.now state.log) }
  | serve (state step next) (h : serve state.log step state.subscription = some next)
    : ServiceStep state (.serve step) { state with subscription := next }

/-- A service step that passes a check of the log and the subscription it starts from. -/
structure CheckedStep (meets : SharedLog → SubscriberStep → Subscription ρ → Bool)
    (start : Subscribed ρ) (event : SubscriptionEvent) (stop : Subscribed ρ) : Prop where
  step : ServiceStep serve start event stop
  passes : ∀ step, event = .serve step → meets start.log step start.subscription = true

def Serves (start : Subscribed ρ) (steps : List SubscriberStep) (stop : Subscribed ρ) : Prop :=
  Steps (ServiceStep serve) start (steps.map .serve) stop

end Service

/-- A new database and a client about to subscribe. -/
def Unsubscribed {ρ : Type} (state : Subscribed ρ) : Prop := state = {}

/-- Everything read is sent, and the next page is empty. -/
def Stream.Idle {ρ : Type} (sequence : ρ → Nat) (wanted : ρ → Bool) (rows : List ρ)
    (stream : Stream ρ) : Prop :=
  stream.pending = [] ∧ Pages.later sequence wanted stream.cursor rows = []

/-- What an append does to a log. -/
structure Appended (start stop : SharedLog) : Prop where
  facts : Pages.Extends FactRow.sequence start.retained.rows start.lastFactSequence
    stop.retained.rows stop.lastFactSequence
  inputs : Pages.Extends InputRow.sequence start.inputs.rows start.lastInputSequence
    stop.inputs.rows stop.lastInputSequence

theorem appended_of_appends {op : LogOp} {burns : Bool} {now : Timestamp} {log : SharedLog}
    (appends : op.appends = true)
    : Appended log (final (runLog op burns now log)) := by
  cases op with
  | appendFact writer draft items recordedAt =>
    rw [runLog, final_map]
    rcases returns_or_raises (SharedLog.appendFact writer draft items recordedAt burns) log
      with ⟨value, returned⟩ | ⟨raised, failed⟩
    · obtain ⟨middle, facts, inputs, -⟩ := appendFact_adds returned
      have left := facts.extends_
      have right := inputs.extends_
      rw [← inputs.retained, ← inputs.lastFact] at left
      rw [facts.inputs, facts.lastInput] at right
      exact ⟨left, right⟩
    · rw [final_of_raises failed, raises_transaction failed]
      exact ⟨.refl, .refl⟩
  | appendProjectionInput writer draft createdAt =>
    rw [runLog, final_map]
    have inputs := appendProjectionInput_adds writer draft createdAt burns log
    refine ⟨?_, inputs.extends_⟩
    rw [inputs.retained, inputs.lastFact]
    exact .refl
  | pruneFacts writer retention => cases appends
  | pruneInputs writer retention => cases appends

section Pages

variable {ρ : Type} {sequence : ρ → Nat} {wanted : ρ → Bool} {rows : List ρ}

theorem replayRows_none (after limit : Nat)
    : replayRows sequence wanted rows after none limit
      = (Pages.later sequence wanted after rows).take limit := by
  simp [replayRows, Pages.later]

/-- A replay up to a watermark is the window up to it, cut at the limit. -/
theorem replayRows_some (after upto limit : Nat)
    : replayRows sequence wanted rows after (some upto) limit
      = (Pages.between sequence wanted after upto rows).take limit := by
  unfold replayRows
  split
  · next less =>
      have before : upto < after := by simpa using less
      have nothing : Pages.between sequence wanted after upto rows = [] := by
        refine List.eq_nil_iff_forall_not_mem.mpr (fun row member => ?_)
        obtain ⟨-, above, below, -⟩ := Pages.mem_between.mp member
        omega
      simp [nothing]
  · congr 1
    refine List.filter_congr (fun row _ => ?_)
    simp only [Option.all_some]
    grind

/-- Within the limit a replay is the whole window. -/
theorem replayRows_eq_between {after upto limit : Nat}
    (fits : (Pages.between sequence wanted after upto rows).length ≤ limit)
    : replayRows sequence wanted rows after (some upto) limit
      = Pages.between sequence wanted after upto rows := by
  rw [replayRows_some, List.take_of_length_le fits]

/-- Reading a page either finds nothing behind the cursor or the window up to the page's
last row.
-/
theorem read_cases (increasing : Pages.Increasing sequence rows) (wanted : ρ → Bool)
    (publish : List ρ → List ρ) {limit : Nat} (some_ : 0 < limit) (stream : Stream ρ)
    : (Pages.later sequence wanted stream.cursor rows = []
        ∧ stream.read sequence publish
            (replayRows sequence wanted rows stream.cursor none limit) = stream)
      ∨ ∃ row ∈ Pages.later sequence wanted stream.cursor rows,
          stream.read sequence publish
              (replayRows sequence wanted rows stream.cursor none limit)
            = { stream with
                cursor := sequence row
                pending := publish
                  (Pages.between sequence wanted stream.cursor (sequence row) rows) } := by
  rw [replayRows_none]
  unfold Stream.read
  cases last : ((Pages.later sequence wanted stream.cursor rows).take limit).getLast? with
  | none =>
    have nothing := List.getLast?_eq_none_iff.mp last
    rw [List.take_eq_nil_iff] at nothing
    exact .inl ⟨nothing.resolve_left (by omega), rfl⟩
  | some row =>
    right
    refine ⟨row, List.mem_of_mem_take (List.mem_of_getLast? last), ?_⟩
    dsimp only
    rw [Pages.page_eq_between increasing last]

/-- A window reaches as far as its rows do when nothing is wanted behind it. -/
theorem between_eq_later {after upto : Nat}
    (nothing : Pages.later sequence wanted upto rows = [])
    : Pages.between sequence wanted after upto rows = Pages.later sequence wanted after rows := by
  refine List.filter_congr (fun row member => ?_)
  have behind : ¬ (upto < sequence row ∧ wanted row = true) := by
    intro h
    have found := Pages.mem_later.mpr ⟨member, h⟩
    simp [nothing] at found
  grind

end Pages

section Progress

variable {ρ : Type} {sequence : ρ → Nat} {wanted : ρ → Bool}
  {serve : SharedLog → SubscriberStep → Subscription ρ → Option (Subscription ρ)}
  {log : SharedLog}

/-- The coordinator alone sends everything it read, by induction over what is pending. -/
theorem serves_send (sends : ∀ stream, serve log .send (.streaming stream) = stream.send)
    (stream : Stream ρ)
    : ∃ steps, Serves serve { log := log, subscription := .streaming stream } steps
        { log := log, subscription := .streaming stream.flushed } := by
  obtain ⟨after, pending, received⟩ := stream
  induction pending generalizing received with
  | nil => exact ⟨[], by simpa [Stream.flushed] using .nil _⟩
  | cons item rest ih =>
    obtain ⟨steps, served⟩ := ih (received ++ [item])
    refine ⟨.send :: steps, .cons (.serve _ _ _ (sends _)) ?_⟩
    simpa [Serves, Stream.flushed] using served

/-- A coordinator that may read on from its cursor, and from every row it reads, becomes
idle; by induction on how many rows lie behind the cursor.
-/
theorem serves_idle {rows : List ρ} (increasing : Pages.Increasing sequence rows)
    (publish : List ρ → List ρ) {limit : Nat} (some_ : 0 < limit) (reads : Nat → Prop)
    (sends : ∀ stream, serve log .send (.streaming stream) = stream.send)
    (polls : ∀ stream : Stream ρ, stream.pending = [] → reads stream.cursor →
      serve log .poll (.streaming stream) = some (.streaming (stream.read sequence publish
        (replayRows sequence wanted rows stream.cursor none limit))))
    (onward : ∀ row ∈ rows, wanted row = true → reads (sequence row))
    (stream : Stream ρ) (from_ : reads stream.cursor)
    : ∃ steps idle,
        Serves serve { log := log, subscription := .streaming stream } steps
          { log := log, subscription := .streaming idle }
        ∧ idle.Idle sequence wanted rows := by
  induction behind : (Pages.later sequence wanted stream.cursor rows).length
    using Nat.strong_induction_on generalizing stream with
  | _ count ih =>
    obtain ⟨sending, sent⟩ := serves_send sends stream
    rcases read_cases increasing wanted publish some_ stream.flushed with
      ⟨nothing, -⟩ | ⟨row, member, same⟩
    · exact ⟨sending, stream.flushed, sent, rfl, nothing⟩
    · obtain ⟨stored, -, wants⟩ := Pages.mem_later.mp member
      have fewer := Pages.later_shrinks member
      have polled := polls stream.flushed rfl from_
      rw [same] at polled
      have less : (Pages.later sequence wanted (sequence row) rows).length < count :=
        behind ▸ fewer
      obtain ⟨steps, idle, served, ends⟩ := ih _ less {
        stream.flushed with
          cursor := sequence row
          pending := publish
            (Pages.between sequence wanted stream.flushed.cursor (sequence row) rows)
      } (onward row stored wants) rfl
      refine ⟨sending ++ .poll :: steps, idle, ?_, ends⟩
      rw [Serves, List.map_append]
      exact sent.append (.cons (.serve _ _ _ polled) served)

end Progress

end Murder.Facts

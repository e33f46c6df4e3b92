import Murder.Chat.Conversations

/-! What the pending lists are for: the messages sent and not yet shown. The abstract outbox
is read off the past of a run, and the store keeps exactly its ids.
-/

namespace Murder.Chat

open Library.Records

instance (reply : ConversationsSnapshotReply) (clientId : String)
    : Decidable (reply.HasUserBlock clientId) :=
  inferInstanceAs (Decidable (∃ conv ∈ reply.conversations, ∃ row ∈ conv.blocks, _))

/-- A send adds its id to its agent's outbox, and a snapshot takes out the ids it shows. -/
def Entry.change (agentId : String) (ids : List String) : Entry → List String
  | .sent receiver clientId => if receiver = agentId then ids ++ [clientId] else ids
  | .applied reply => ids.filter (fun clientId => ¬ reply.HasUserBlock clientId)

/-- The ids sent to an agent and not shown since, in the order they were sent. -/
def awaited (agentId : String) (history : List Entry) : List String :=
  history.foldl (Entry.change agentId) []

def Entry.sentId? : Entry → Option String
  | .sent _ clientId => some clientId
  | .applied _ => none

def sentIds (history : List Entry) : List String :=
  history.filterMap Entry.sentId?

@[simp] theorem awaited_concat (agentId : String) (history : List Entry) (entry : Entry)
    : awaited agentId (history ++ [entry]) = entry.change agentId (awaited agentId history) := by
  simp [awaited]

@[simp] theorem sentIds_append (before after : List Entry)
    : sentIds (before ++ after) = sentIds before ++ sentIds after := by
  simp [sentIds]

variable {clientId : String}

theorem mem_sentIds {history : List Entry}
    : clientId ∈ sentIds history ↔ ∃ agentId, Entry.sent agentId clientId ∈ history := by
  rw [sentIds, List.mem_filterMap]
  constructor
  · intro found
    obtain ⟨entry, member, same⟩ := found
    cases entry with
    | sent agentId other =>
      cases same
      exact ⟨agentId, member⟩
    | applied reply => cases same
  · intro found
    obtain ⟨agentId, member⟩ := found
    exact ⟨_, member, rfl⟩

/-- An agent's outbox has the ids of sends only, in their order. -/
theorem awaited_sublist (agentId : String) (history : List Entry)
    : (awaited agentId history).Sublist (sentIds history) := by
  induction history using List.reverseRecOn with
  | nil => exact List.Sublist.refl []
  | append_singleton history entry ih =>
    rw [awaited_concat, sentIds_append]
    cases entry with
    | sent receiver clientId =>
      rw [Entry.change]
      split
      next own => exact ih.append (List.Sublist.refl _)
      next other => exact ih.trans (List.sublist_append_left _ _)
    | applied reply =>
      exact (List.filter_sublist.trans ih).trans (List.sublist_append_left _ _)

variable {agentId : String}

theorem sent_of_awaited {history : List Entry} (member : clientId ∈ awaited agentId history)
    : Entry.sent agentId clientId ∈ history := by
  induction history using List.reverseRecOn with
  | nil => simp [awaited] at member
  | append_singleton history entry ih =>
    rw [awaited_concat] at member
    cases entry with
    | sent receiver other =>
      rw [Entry.change] at member
      split at member
      next own =>
        rcases List.mem_append.mp member with earlier | last
        · exact List.mem_append_left _ (ih earlier)
        · rw [List.mem_singleton] at last
          simp [own, last]
      next other_ => exact List.mem_append_left _ (ih member)
    | applied reply =>
      exact List.mem_append_left _ (ih (List.mem_filter.mp member).1)

/-- An id sent once stays in its agent's outbox until a snapshot shows it. -/
theorem mem_awaited_iff {before after : List Entry} (once : clientId ∉ sentIds after)
    : clientId ∈ awaited agentId (before ++ Entry.sent agentId clientId :: after)
      ↔ ∀ reply, Entry.applied reply ∈ after → ¬ reply.HasUserBlock clientId := by
  induction after using List.reverseRecOn with
  | nil =>
    rw [awaited_concat]
    simp [Entry.change]
  | append_singleton after entry ih =>
    have shorter
        : before ++ Entry.sent agentId clientId :: (after ++ [entry])
          = (before ++ Entry.sent agentId clientId :: after) ++ [entry] := by simp
    rw [sentIds_append, List.mem_append, not_or] at once
    rw [shorter, awaited_concat]
    cases entry with
    | sent receiver other =>
      have apart : clientId ≠ other := by
        simpa [sentIds, Entry.sentId?] using once.2
      rw [Entry.change]
      split <;> simp [ih once.1, apart]
    | applied shown =>
      simp only [Entry.change, List.mem_filter, ih once.1, decide_eq_true_eq,
        List.mem_append, List.mem_singleton, Entry.applied.injEq]
      constructor
      · intro kept reply member
        rcases member with earlier | last
        · exact kept.1 reply earlier
        · exact last ▸ kept.2
      · intro kept
        exact ⟨fun reply member => kept reply (.inl member), kept shown (.inr rfl)⟩

variable (attempts : List Attempt) (reply : CommandReply)

/-- Some delivery attempt of this id awaits its reply. -/
def InFlight (clientId : String) : Prop :=
  ∃ attempt ∈ attempts, attempt.pending.clientId = clientId ∧ attempt.settled = false

/-- For each id, only its latest attempt may be open. -/
def SingleOpen : Prop :=
  attempts.Pairwise (fun newer older =>
    newer.pending.clientId = older.pending.clientId → older.settled = true)

def Store.confirmed (store : Store) : Finset String :=
  confirmedClientMessageIds store.conversations.transcripts

def Store.pendingOf (store : Store) (agentId : String) : List PendingSend :=
  listAt store.conversations.pendingByAgent agentId

/-- What every run keeps: the pending lists are the outboxes, apart from the transcripts, and
an item is being sent exactly while its one open attempt is.
-/
structure Sound (store : Store) : Prop where
  once : (sentIds store.history).Nodup
  receiver : ∀ first second clientId, Entry.sent first clientId ∈ store.history →
    Entry.sent second clientId ∈ store.history → first = second
  named : ∀ agentId clientId, Entry.sent agentId clientId ∈ store.history → clientId ≠ ""
  outbox : ∀ agentId,
    (store.pendingOf agentId).map PendingSend.clientId = awaited agentId store.history
  keyed : ∀ agentId, ∀ item ∈ store.pendingOf agentId, item.agentId = agentId
  apart : ∀ agentId, ∀ clientId ∈ awaited agentId store.history, clientId ∉ store.confirmed
  shown : ∀ clientId ∈ store.confirmed,
    ∃ reply, Entry.applied reply ∈ store.history ∧ reply.HasUserBlock clientId
  started : ∀ attempt ∈ store.attempts,
    Entry.sent attempt.pending.agentId attempt.pending.clientId ∈ store.history
  single : SingleOpen store.attempts
  sending : ∀ agentId, ∀ item ∈ store.pendingOf agentId,
    item.status = .sending ↔ InFlight store.attempts item.clientId

namespace Sound

variable {store : Store}

theorem initial : Sound Store.initial where
  once := List.nodup_nil
  receiver := by simp [Store.initial]
  named := by simp [Store.initial]
  outbox := by simp [Store.initial, Store.pendingOf, initialConversationsState, awaited]
  keyed := by simp [Store.initial, Store.pendingOf, initialConversationsState]
  apart := by simp [Store.initial, awaited]
  shown := by
    simp [Store.initial, Store.confirmed, initialConversationsState, confirmedClientMessageIds,
      everything]
  started := by simp [Store.initial]
  single := List.Pairwise.nil
  sending := by simp [Store.initial, Store.pendingOf, initialConversationsState]

theorem awaited_of_pending (sound : Sound store) {item : PendingSend}
    (member : item ∈ store.pendingOf agentId)
    : item.clientId ∈ awaited agentId store.history := by
  rw [← sound.outbox]
  exact List.mem_map_of_mem member

theorem sent_of_pending (sound : Sound store) {item : PendingSend}
    (member : item ∈ store.pendingOf agentId)
    : Entry.sent agentId item.clientId ∈ store.history :=
  sent_of_awaited (sound.awaited_of_pending member)

theorem hydrate (sound : Sound store) (reply : ConversationsSnapshotReply)
    : Sound (store.hydrate reply) := by
  have confirmed_iff {clientId : String}
      : clientId ∈ (store.hydrate reply).confirmed
        ↔ clientId ≠ "" ∧ reply.HasUserBlock clientId :=
    mem_confirmed_projected
  have pendingOf_eq (agentId : String)
      : (store.hydrate reply).pendingOf agentId
        = unconfirmed (store.hydrate reply).confirmed (store.pendingOf agentId) :=
    listAt_reconcilePendingByAgent _ _ _
  have kept {agentId : String} {item : PendingSend}
      (member : item ∈ (store.hydrate reply).pendingOf agentId)
      : item ∈ store.pendingOf agentId := by
    rw [pendingOf_eq] at member
    exact (List.mem_filter.mp member).1
  have sent {agentId clientId : String}
      (member : Entry.sent agentId clientId ∈ (store.hydrate reply).history)
      : Entry.sent agentId clientId ∈ store.history := by
    simpa [Store.hydrate] using member
  exact {
    once := by
      have unsent : sentIds [Entry.applied reply] = [] := rfl
      rw [Store.hydrate, sentIds_append, unsent, List.append_nil]
      exact sound.once
    receiver := by
      intro first second clientId left right
      exact sound.receiver first second clientId (sent left) (sent right)
    named := by
      intro agentId clientId member
      exact sound.named agentId clientId (sent member)
    outbox := by
      intro agentId
      have outbox := sound.outbox agentId
      rw [pendingOf_eq, Store.hydrate, awaited_concat, Entry.change, ← outbox, List.filter_map,
        unconfirmed]
      congr 1
      apply List.filter_congr
      intro item member
      have named := sound.named _ _ (sound.sent_of_pending member)
      have same
          : item.clientId ∉ (store.hydrate reply).confirmed
            ↔ ¬ reply.HasUserBlock item.clientId := by simp [confirmed_iff, named]
      exact decide_eq_decide.mpr same
    keyed := by
      intro agentId item member
      exact sound.keyed agentId item (kept member)
    apart := by
      intro agentId clientId member confirmed
      rw [Store.hydrate, awaited_concat, Entry.change, List.mem_filter] at member
      exact absurd (confirmed_iff.mp confirmed).2 (by simpa using member.2)
    shown := by
      intro clientId confirmed
      exact ⟨reply, by simp [Store.hydrate], (confirmed_iff.mp confirmed).2⟩
    started := by
      intro attempt member
      exact List.mem_append_left _ (sound.started attempt member)
    single := sound.single
    sending := by
      intro agentId item member
      exact sound.sending agentId item (kept member) }

theorem send (sound : Sound store) (message : String) (now : Int)
    (drawn : NewClientMessageId store.history clientId)
    : Sound (store.send agentId clientId message now) := by
  have pendingOf_eq (name : String)
      : (store.send agentId clientId message now).pendingOf name
        = store.pendingOf name ++ if name = agentId then
            [{ clientId := clientId, agentId := agentId, text := message, createdAt := now,
               status := .sending }] else [] :=
    listAt_appendPending _ _ _
  have other {name : String} {item : PendingSend} (member : item ∈ store.pendingOf name)
      : item.clientId ≠ clientId := by
    intro same
    exact drawn.unsent name (same ▸ sound.sent_of_pending member)
  have history_iff {entry : Entry}
      : entry ∈ (store.send agentId clientId message now).history
        ↔ entry ∈ store.history ∨ entry = .sent agentId clientId := by
    simp [Store.send]
  have sent {name id : String}
      (member : Entry.sent name id ∈ (store.send agentId clientId message now).history)
      : Entry.sent name id ∈ store.history ∨ (name = agentId ∧ id = clientId) := by
    simpa using history_iff.mp member
  exact {
    once := by
      have fresh : clientId ∉ sentIds store.history := by
        intro member
        obtain ⟨name, member⟩ := mem_sentIds.mp member
        exact drawn.unsent name member
      rw [Store.send, sentIds_append]
      apply List.Nodup.append sound.once (by simp [sentIds, Entry.sentId?])
      simpa [sentIds, Entry.sentId?] using fresh
    receiver := by
      intro first second id left right
      rcases sent left with left | left <;> rcases sent right with right | right
      · exact sound.receiver first second id left right
      · exact absurd (right.2 ▸ left) (drawn.unsent first)
      · exact absurd (left.2 ▸ right) (drawn.unsent second)
      · exact left.1.trans right.1.symm
    named := by
      intro name id member
      rcases sent member with earlier | last
      · exact sound.named name id earlier
      · exact last.2 ▸ drawn.named
    outbox := by
      intro name
      rw [pendingOf_eq, List.map_append, sound.outbox, Store.send, awaited_concat, Entry.change]
      rcases eq_or_ne name agentId with own | other_
      · simp [own]
      · simp [other_, other_.symm]
    keyed := by
      intro name item member
      rw [pendingOf_eq] at member
      rcases List.mem_append.mp member with earlier | last
      · exact sound.keyed name item earlier
      · split at last
        next own =>
          rw [List.mem_singleton.mp last]
          exact own.symm
        next other_ => cases last
    apart := by
      intro name id member
      rw [Store.send, awaited_concat, Entry.change] at member
      have unseen : clientId ∉ store.confirmed := by
        intro confirmed
        obtain ⟨reply, applied, has⟩ := sound.shown clientId confirmed
        exact drawn.unseen reply applied has
      split at member
      next own =>
        rcases List.mem_append.mp member with earlier | last
        · exact sound.apart name id earlier
        · rw [List.mem_singleton.mp last]
          exact unseen
      next other_ => exact sound.apart name id member
    shown := by
      intro id confirmed
      obtain ⟨reply, applied, has⟩ := sound.shown id confirmed
      exact ⟨reply, history_iff.mpr (.inl applied), has⟩
    started := by
      intro attempt member
      rcases List.mem_cons.mp member with newest | older
      · rw [newest]
        exact history_iff.mpr (.inr rfl)
      · exact history_iff.mpr (.inl (sound.started attempt older))
    single := by
      refine List.pairwise_cons.mpr ⟨?_, sound.single⟩
      intro attempt member same
      have earlier := sound.started attempt member
      exact absurd (same ▸ earlier) (drawn.unsent _)
    sending := by
      intro name item member
      rw [pendingOf_eq] at member
      rcases List.mem_append.mp member with earlier | last
      · rw [sound.sending name item earlier]
        simp [InFlight, Store.send, (other earlier).symm]
      · split at last
        next own =>
          rw [List.mem_singleton.mp last]
          simp [InFlight, Store.send]
        next other_ => cases last }

/-- Patching the one item of a sent id keeps the invariant when the new status says whether
an attempt of that id is now open.
-/
theorem patched (sound : Sound store) {next : Store}
    (status : PendingStatus) (sent : Entry.sent agentId clientId ∈ store.history)
    (history : next.history = store.history)
    (transcripts : next.conversations.transcripts = store.conversations.transcripts)
    (lists : ∀ name, next.pendingOf name
      = if name = agentId then (store.pendingOf name).map (patchItem clientId status)
        else store.pendingOf name)
    (started : ∀ attempt ∈ next.attempts,
      Entry.sent attempt.pending.agentId attempt.pending.clientId ∈ store.history)
    (single : SingleOpen next.attempts) (own : status = .sending ↔ InFlight next.attempts clientId)
    (others : ∀ id, id ≠ clientId → (InFlight next.attempts id ↔ InFlight store.attempts id))
    : Sound next := by
  have patchedFrom {name : String} {item : PendingSend} (member : item ∈ next.pendingOf name)
      : ∃ old ∈ store.pendingOf name, item = patchItem clientId status old := by
    rw [lists] at member
    split at member
    next own_ =>
      obtain ⟨old, inside, same⟩ := List.mem_map.mp member
      exact ⟨old, inside, same.symm⟩
    next other =>
      -- no other agent has an item with this id
      refine ⟨item, member, ?_⟩
      have different : item.clientId ≠ clientId := by
        intro same
        apply other
        exact sound.receiver name agentId clientId (same ▸ sound.sent_of_pending member) sent
      rw [patchItem, if_pos (.inl different)]
  have confirmed : next.confirmed = store.confirmed := by
    rw [Store.confirmed, transcripts, Store.confirmed]
  exact {
    once := by
      rw [history]
      exact sound.once
    receiver := by
      rw [history]
      exact sound.receiver
    named := by
      rw [history]
      exact sound.named
    outbox := by
      intro name
      rw [history, ← sound.outbox, lists]
      split
      next own_ => simp [List.map_map, Function.comp_def]
      next other => rfl
    keyed := by
      intro name item member
      obtain ⟨old, inside, rfl⟩ := patchedFrom member
      simpa using sound.keyed name old inside
    apart := by
      rw [history, confirmed]
      exact sound.apart
    shown := by
      rw [history, confirmed]
      exact sound.shown
    started := by
      rw [history]
      exact started
    single := single
    sending := by
      intro name item member
      obtain ⟨old, inside, rfl⟩ := patchedFrom member
      rw [patchItem_status, patchItem_clientId]
      split
      next same =>
        rw [same]
        exact own
      next different =>
        rw [others old.clientId different]
        exact sound.sending name old inside }

theorem retryPending (sound : Sound store) (agentId clientId : String)
    : Sound (store.retryPending agentId clientId) := by
  rw [Store.retryPending]
  dsimp only
  split
  next absent => exact sound
  next pending found =>
    split
    next busy => exact sound
    next settled =>
      obtain ⟨items, entry, first⟩ := Option.bind_eq_some_iff.mp found
      have same : pending.clientId = clientId := by simpa using List.find?_some first
      have member : pending ∈ store.pendingOf agentId := by
        rw [Store.pendingOf, listAt, entry]
        exact List.mem_of_find?_eq_some first
      have sent : Entry.sent agentId clientId ∈ store.history :=
        same ▸ sound.sent_of_pending member
      have keyed : pending.agentId = agentId := sound.keyed agentId pending member
      -- nothing is open for an item that failed
      have closed : ¬ InFlight store.attempts clientId := by
        intro open_
        have sending := (sound.sending agentId pending member).mpr (same ▸ open_)
        exact settled (by simp [sending])
      apply sound.patched .sending sent
      · rfl
      · rfl
      · intro name
        exact listAt_patchPending _ _ _ _ _
      · intro attempt started
        rcases List.mem_cons.mp started with newest | older
        · rw [newest]
          simpa [same, keyed] using sent
        · exact sound.started attempt older
      · refine List.pairwise_cons.mpr ⟨?_, sound.single⟩
        intro attempt older again
        by_contra unsettled
        exact closed ⟨attempt, older, by simpa [same] using again.symm, by simpa using unsettled⟩
      · simp [InFlight, same]
      · intro id different
        simp [InFlight, same, different.symm]

end Sound

def deliveredStatus : CommandReply → PendingStatus
  | .result result =>
    if isDefinitiveRejection result then .failed
    else if result.queued = some true then .queued
    else .accepted
  | .thrown => .unknown

theorem deliveredStatus_ne_sending
    : deliveredStatus reply ≠ .sending := by
  cases reply with
  | result result =>
    rw [deliveredStatus]
    split
    next rejected => simp
    next handled => split <;> simp
  | thrown => simp [deliveredStatus]

/-- Apart from the transcripts, a settled command only sets the status of its item. -/
theorem listAt_deliverPending {state : ConversationsState} {pending : PendingSend} {name : String}
    (apart : ∀ item ∈ listAt state.pendingByAgent name,
      item.clientId ∉ confirmedClientMessageIds state.transcripts)
    : listAt (deliverPending state pending reply).pendingByAgent name
      = if name = pending.agentId then
          (listAt state.pendingByAgent name).map
            (patchItem pending.clientId (deliveredStatus reply))
        else listAt state.pendingByAgent name := by
  cases reply with
  | thrown => exact listAt_patchPending _ _ _ _ _
  | result result =>
    rw [deliverPending, deliveredStatus]
    split
    next rejected => exact listAt_patchPending _ _ _ _ _
    next handled =>
      dsimp only
      rw [listAt_reconcilePendingByAgent, listAt_patchPending]
      apply List.filter_eq_self.mpr
      intro item member
      split at member
      next own =>
        obtain ⟨old, inside, rfl⟩ := List.mem_map.mp member
        simpa using apart old inside
      next other => simpa using apart item member

namespace SingleOpen

variable {newer older : List Attempt} {attempt : Attempt}

theorem closed (single : SingleOpen (newer ++ attempt :: older))
    (open_ : attempt.settled = false)
    : ¬ InFlight (newer ++ { attempt with settled := true } :: older)
        attempt.pending.clientId := by
  obtain ⟨-, tail, across⟩ := List.pairwise_append.mp single
  intro found
  obtain ⟨other, member, same, unsettled⟩ := found
  rcases List.mem_append.mp member with left | right
  · have settled := across other left attempt List.mem_cons_self same
    simp [open_] at settled
  · rcases List.mem_cons.mp right with here | right
    · rw [here] at unsettled
      cases unsettled
    · have settled := List.rel_of_pairwise_cons tail right same.symm
      simp [unsettled] at settled

theorem settle (single : SingleOpen (newer ++ attempt :: older))
    : SingleOpen (newer ++ { attempt with settled := true } :: older) := by
  obtain ⟨head, tail, across⟩ := List.pairwise_append.mp single
  obtain ⟨first, rest⟩ := List.pairwise_cons.mp tail
  refine List.pairwise_append.mpr ⟨head, List.pairwise_cons.mpr ⟨first, rest⟩, ?_⟩
  intro left leftMember right rightMember same
  rcases List.mem_cons.mp rightMember with here | later
  · rw [here]
  · exact across left leftMember right (List.mem_cons_of_mem _ later) same

end SingleOpen

/-- Settling an attempt changes nothing for the other ids. -/
theorem inFlight_settle {newer older : List Attempt} {attempt : Attempt}
    (different : clientId ≠ attempt.pending.clientId)
    : InFlight (newer ++ { attempt with settled := true } :: older) clientId
      ↔ InFlight (newer ++ attempt :: older) clientId := by
  simp [InFlight, or_and_right, exists_or, different.symm]

namespace Sound

variable {store : Store}

theorem replied (sound : Sound store) {position : Nat} {attempt : Attempt}
    (reply : CommandReply) (started : store.attempts[position]? = some attempt)
    (open_ : attempt.settled = false)
    : Sound (store.replied position attempt reply) := by
  obtain ⟨inside, at_⟩ := List.getElem?_eq_some_iff.mp started
  have split
      : store.attempts
        = store.attempts.take position ++ attempt :: store.attempts.drop (position + 1) := by
    rw [← at_, List.getElem_cons_drop, List.take_append_drop]
  have attempts
      : (store.replied position attempt reply).attempts
        = store.attempts.take position
          ++ { attempt with settled := true } :: store.attempts.drop (position + 1) := by
    rw [Store.replied, List.set_eq_take_append_cons_drop, if_pos inside]
  have single := sound.single
  have running := sound.started
  rw [split] at single running
  apply sound.patched (deliveredStatus reply) (sound.started attempt (List.mem_of_getElem? started))
  · rfl
  · cases reply with
    | thrown => rfl
    | result result =>
      rw [Store.replied, deliverPending]
      split <;> rfl
  · intro name
    apply listAt_deliverPending reply
    intro item member
    exact sound.apart name item.clientId (sound.awaited_of_pending member)
  · rw [attempts]
    intro other member
    rcases List.mem_append.mp member with newer | later
    · exact running other (List.mem_append_left _ newer)
    · rcases List.mem_cons.mp later with here | older
      · rw [here]
        exact running attempt (by simp)
      · exact running other (by simp [older])
  · rw [attempts]
    exact SingleOpen.settle single
  · rw [attempts]
    have closed := SingleOpen.closed single open_
    simp [closed, deliveredStatus_ne_sending]
  · intro id different
    rw [attempts, inFlight_settle different, ← split]

/-- One event keeps the invariant, by cases on the event. -/
theorem step {event : Event} {next : Store} (sound : Sound store)
    (taken : Step store event next)
    : Sound next := by
  cases taken with
  | send drawn => exact sound.send _ _ drawn
  | retryPending => exact sound.retryPending _ _
  | replied started open_ => exact sound.replied _ started open_
  | refresh => exact { sound with }
  | @refreshed token reply asked =>
    have waiting : Sound { store with requests := store.requests.erase token } :=
      { sound with }
    cases reply with
    | none => exact waiting
    | some reply =>
      simp only [Store.refreshed]
      split
      next stale => exact waiting
      next latest => exact waiting.hydrate reply
  | hydrate => exact sound.hydrate _

/-- Every run keeps the invariant. -/
theorem of_run {events : List Event} (run : Run events store) : Sound store := by
  apply Library.Runs.Run.invariant ?_ ?_ run
  · intro start same
    exact same ▸ Sound.initial
  · intro before event after sound taken
    exact sound.step taken

end Sound

def LastAttemptSettled (clientId : String) : Prop :=
  ∃ attempt, attempts.find? (fun attempt => attempt.pending.clientId = clientId) = some attempt
    ∧ attempt.settled = true

/-- Where the latest attempt has settled, no earlier one is open. -/
theorem not_inFlight_of_settled {attempts : List Attempt}
    (single : SingleOpen attempts) (settled : LastAttemptSettled attempts clientId)
    : ¬ InFlight attempts clientId := by
  obtain ⟨last, first, settled⟩ := settled
  obtain ⟨named, newer, older, rfl, before⟩ := List.find?_eq_some_iff_append.mp first
  intro found
  obtain ⟨other, member, same, unsettled⟩ := found
  have tail := (List.pairwise_append.mp single).2.1
  rcases List.mem_append.mp member with left | right
  · simpa [same] using before other left
  · rcases List.mem_cons.mp right with here | right
    · rw [here, settled] at unsettled
      cases unsettled
    · have named : last.pending.clientId = clientId := by simpa using named
      have closed := List.rel_of_pairwise_cons tail right (named.trans same.symm)
      simp [unsettled] at closed

namespace Sound

variable {store : Store}

theorem nodup_pending (sound : Sound store)
    : ((everything store.conversations.pendingByAgent).map PendingSend.clientId).Nodup := by
  apply nodup_everything
  · intro agentId
    have outbox := sound.outbox agentId
    rw [Store.pendingOf] at outbox
    rw [outbox]
    exact sound.once.sublist (awaited_sublist agentId store.history)
  · intro first second left leftMember right rightMember same
    have leftSent := sound.sent_of_pending leftMember
    have rightSent := sound.sent_of_pending rightMember
    exact sound.receiver first second right.clientId (same ▸ leftSent) rightSent

theorem pending_iff (sound : Sound store) (sent : Entry.sent agentId clientId ∈ store.history)
    : (∃ item ∈ everything store.conversations.pendingByAgent, item.clientId = clientId)
      ↔ clientId ∈ awaited agentId store.history := by
  constructor
  · intro found
    obtain ⟨item, member, same⟩ := found
    obtain ⟨name, listed⟩ := mem_everything.mp member
    have sentTo : Entry.sent name item.clientId ∈ store.history := sound.sent_of_pending listed
    rw [same] at sentTo
    rw [← sound.receiver name agentId clientId sentTo sent, ← same]
    exact sound.awaited_of_pending listed
  · intro waiting
    rw [← sound.outbox] at waiting
    obtain ⟨item, listed, same⟩ := List.mem_map.mp waiting
    exact ⟨item, mem_everything.mpr ⟨agentId, listed⟩, same⟩

end Sound

/-- A message is shown exactly once. After any run, an id that was sent is pending at most
once; it is pending as long as no snapshot applied since the send has a user block with it,
and then no transcript has it; and its status is `sending` at most until the latest delivery
attempt settles.
-/
theorem shown_once {events : List Event} {store : Store} (run : Run events store)
    {before after : List Entry} {agentId clientId : String}
    (history : store.history = before ++ Entry.sent agentId clientId :: after)
    : ((everything store.conversations.pendingByAgent).map PendingSend.clientId).count clientId ≤ 1
      ∧ ((∃ item ∈ everything store.conversations.pendingByAgent, item.clientId = clientId)
          ↔ ∀ reply, Entry.applied reply ∈ after → ¬ reply.HasUserBlock clientId)
      ∧ ¬ ((∃ item ∈ everything store.conversations.pendingByAgent, item.clientId = clientId)
          ∧ ∃ block ∈ everything store.conversations.transcripts,
              block.type = "user" ∧ block.raw.clientMessageId = some clientId)
      ∧ (∀ item ∈ everything store.conversations.pendingByAgent, item.clientId = clientId →
          LastAttemptSettled store.attempts clientId → item.status ≠ .sending) := by
  have sound := Sound.of_run run
  have sent : Entry.sent agentId clientId ∈ store.history := by simp [history]
  have pending := sound.pending_iff sent
  refine ⟨List.nodup_iff_count_le_one.mp sound.nodup_pending clientId, ?_, ?_, ?_⟩
  · have once : clientId ∉ sentIds after := by
      have nodup := sound.once
      rw [history, sentIds_append] at nodup
      exact (List.nodup_cons.mp (List.nodup_append.mp nodup).2.1).1
    rw [pending, history]
    exact mem_awaited_iff once
  · intro both
    obtain ⟨waiting, block, member, user, carried⟩ := both
    have named := sound.named agentId clientId sent
    apply sound.apart agentId clientId (pending.mp waiting)
    rw [Store.confirmed, confirmedClientMessageIds, List.mem_toFinset, List.mem_filterMap]
    exact ⟨block, member, confirmedId_eq_some.mpr ⟨user, carried, named⟩⟩
  · intro item member same settled sending
    obtain ⟨name, listed⟩ := mem_everything.mp member
    apply not_inFlight_of_settled sound.single settled
    exact same ▸ (sound.sending name item listed).mp sending

def attempted : Attempt where
  pending :=
    { clientId := "m1", agentId := "crow", text := "hello", createdAt := 0, status := .sending }
  settled := false

/-- A message sent, its command thrown, and sent again. -/
def resent : Store :=
  ((Store.initial.send "crow" "m1" "hello" 0).replied 0 attempted .thrown).retryPending
    "crow" "m1"

theorem resent_run
    : Run [.send "crow" "m1" "hello" 0, .replied 0 .thrown, .retryPending "crow" "m1"]
        resent := by
  have drawn : NewClientMessageId Store.initial.history "m1" :=
    { named := by decide, unsent := by simp [Store.initial], unseen := by simp [Store.initial] }
  have started : (Store.initial.send "crow" "m1" "hello" 0).attempts[0]? = some attempted := rfl
  refine ⟨Store.initial, rfl, .cons (.send drawn) (.cons (.replied started rfl) ?_)⟩
  exact .cons .retryPending (.nil _)

theorem shown_once_resent
    : ((everything resent.conversations.pendingByAgent).map PendingSend.clientId).count "m1" ≤ 1
      ∧ ((∃ item ∈ everything resent.conversations.pendingByAgent, item.clientId = "m1")
          ↔ ∀ reply, Entry.applied reply ∈ [] → ¬ reply.HasUserBlock "m1")
      ∧ ¬ ((∃ item ∈ everything resent.conversations.pendingByAgent, item.clientId = "m1")
          ∧ ∃ block ∈ everything resent.conversations.transcripts,
              block.type = "user" ∧ block.raw.clientMessageId = some "m1")
      ∧ (∀ item ∈ everything resent.conversations.pendingByAgent, item.clientId = "m1" →
          LastAttemptSettled resent.attempts "m1" → item.status ≠ .sending) := by
  have history : resent.history = [] ++ Entry.sent "crow" "m1" :: [] := rfl
  exact shown_once resent_run history

end Murder.Chat

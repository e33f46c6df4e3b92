import Murder.Acp.FrameObserver

/-! Captured frames are faithful in every run of a client whose steps are careful. -/

namespace Murder.Acp

open Library.Runs

/-- The requests none of whose answers is in the queue. -/
def unresolved (requestIds : List RequestId) (requests : List PendingRequest)
    : List PendingRequest :=
  requests.filter (fun request => !requestIds.contains request.id)

section View

variable {view : ViewState} {connection : Connection}

theorem foldl_applyServerRequest (requests : List PendingRequest)
    : requests.foldl ViewState.applyServerRequest view
      = { view with pendingRequests := view.pendingRequests ++ requests } := by
  induction requests generalizing view with
  | nil => simp
  | cons request rest ih =>
    rw [List.foldl_cons, ih]
    simp [ViewState.applyServerRequest]

theorem foldl_removePendingRequest (requestIds : List RequestId)
    : requestIds.foldl ViewState.removePendingRequest view
      = { view with pendingRequests := unresolved requestIds view.pendingRequests } := by
  induction requestIds generalizing view with
  | nil => simp [unresolved]
  | cons requestId rest ih =>
    rw [List.foldl_cons, ih]
    simp [ViewState.removePendingRequest, unresolved, List.filter_filter, Bool.and_comm]

/-- The queues change the requests only. -/
theorem drain_eq (quiet : connection.notifications = [])
    : view.drain connection
      = { view with
          pendingRequests := unresolved connection.resolvedRequestIds
            (view.pendingRequests ++ connection.incomingRequests) } := by
  rw [ViewState.drain, quiet, List.foldl_nil, foldl_applyServerRequest,
    foldl_removePendingRequest]

theorem items_stop (stopReason : Option String)
    : (view.stop stopReason).items = view.items
      ∧ (view.stop stopReason).pendingRequests = view.pendingRequests := by
  cases stopReason <;> exact ⟨rfl, rfl⟩

theorem items_keepStreaming (promptInFlight : Bool)
    : (view.keepStreaming promptInFlight).items = view.items
      ∧ (view.keepStreaming promptInFlight).pendingRequests = view.pendingRequests := by
  unfold ViewState.keepStreaming
  split <;> exact ⟨rfl, rfl⟩

theorem pendingRequests_seed (text : Option String)
    : (view.seed text).pendingRequests = view.pendingRequests := by
  cases text <;> rfl

theorem userTexts_seed (text : Option String)
    : userTexts (view.seed text).items = userTexts view.items ++ text.toList.map some := by
  cases text with
  | none => simp [ViewState.seed]
  | some text => simp [ViewState.seed, ViewState.markPromptStarted, userTexts]

theorem captureView_pendingRequests (quiet : connection.notifications = [])
    : (captureView connection view).pendingRequests
      = unresolved connection.resolvedRequestIds
          (view.pendingRequests ++ connection.incomingRequests) := by
  rw [captureView, (items_stop _).2, (items_keepStreaming _).2, drain_eq quiet]
  dsimp only
  rw [pendingRequests_seed]

theorem captureView_userTexts (quiet : connection.notifications = [])
    : userTexts (captureView connection view).items
      = userTexts view.items ++ connection.pendingPromptText.toList.map some := by
  rw [captureView, (items_stop _).1, (items_keepStreaming _).1, drain_eq quiet]
  exact userTexts_seed _

theorem captureView_streaming (quiet : connection.notifications = [])
    (going : connection.pendingStopReason = none)
    (streams
      : connection.pendingPromptText ≠ none
        ∨ connection.promptInFlight = true
        ∨ view.turnStatus = some .streaming)
    : (captureView connection view).turnStatus = some .streaming := by
  rw [captureView, going, drain_eq quiet]
  change (ViewState.keepStreaming _ _).turnStatus = _
  unfold ViewState.keepStreaming
  split
  · rfl
  · next steady =>
      rcases streams with prompt | flag | already
      · obtain ⟨text, same⟩ := Option.ne_none_iff_exists'.mp prompt
        rw [same]
        rfl
      · exact not_not.mp (fun other => steady ⟨flag, other⟩)
      · cases connection.pendingPromptText with
        | none => exact already
        | some text => rfl

end View

def keptTexts (submissions : List Submission) : List (Option String) :=
  submissions.filterMap (fun submission =>
    if submission.withdrawn then none else some submission.text)

variable {index : Nat}

section Submissions

variable {submissions : List Submission} {submission : Submission}

/-- A change of an item that nothing is read of. -/
theorem filterMap_modify {α β : Type} {read : α → Option β} {change : α → α} {items : List α}
    (same : ∀ item, items[index]? = some item → read (change item) = read item)
    : (items.modify index change).filterMap read = items.filterMap read := by
  induction items generalizing index with
  | nil => simp
  | cons head rest ih =>
    cases index with
    | zero => simp [List.filterMap_cons, same head rfl]
    | succ index =>
      rw [List.modify_succ_cons, List.filterMap_cons, List.filterMap_cons,
        ih (fun item found => same item found)]

theorem mem_of_modify {α : Type} {change : α → α} {items : List α} {item : α}
    (member : item ∈ items.modify index change)
    : item ∈ items ∨ ∃ old, items[index]? = some old ∧ item = change old := by
  obtain ⟨position, found⟩ := List.mem_iff_getElem?.mp member
  rw [List.getElem?_modify] at found
  obtain ⟨old, held, same⟩ := Option.map_eq_some_iff.mp found
  split at same
  · next here => exact .inr ⟨old, here ▸ held, same.symm⟩
  · exact .inl (same ▸ List.mem_of_getElem? held)

/-- A change of the last item. -/
theorem modify_concat {α : Type} {change : α → α} (items : List α) (item : α)
    : (items ++ [item]).modify items.length change = items ++ [change item] := by
  induction items with
  | nil => rfl
  | cons head rest ih =>
    rw [List.cons_append, List.length_cons, List.modify_succ_cons, ih]
    rfl

theorem none_notMem_userTexts (items : List Item) : none ∉ userTexts items := by
  simp [userTexts]

theorem acceptedTexts_sublist
    (withdrawn : ∀ submission ∈ submissions, submission.withdrawn = true
      → submission.outcome = .raised)
    : (acceptedTexts submissions).Sublist (keptTexts submissions) := by
  induction submissions with
  | nil => exact .slnil
  | cons head rest ih =>
    obtain ⟨first, others⟩ := List.forall_mem_cons.mp withdrawn
    have tail := ih others
    unfold acceptedTexts keptTexts at *
    rw [List.filterMap_cons, List.filterMap_cons]
    cases kept : head.withdrawn with
    | true =>
      have raised := first kept
      simpa [raised] using tail
    | false =>
      by_cases returned : head.outcome = .returned
      · simpa [returned] using tail
      · simpa [returned] using tail.trans (List.sublist_cons_self _ _)

theorem keptTexts_sublist : (keptTexts submissions).Sublist (submissions.map (·.text)) := by
  induction submissions with
  | nil => exact .slnil
  | cons head rest ih =>
    rw [keptTexts, List.filterMap_cons, List.map_cons]
    cases head.withdrawn with
    | true => exact ih.trans (List.sublist_cons_self _ _)
    | false => exact ih.cons_cons _

end Submissions

structure ClientSound (client : Client) : Prop where
  quiet : client.connection.notifications = []
  requests
    : unresolved client.connection.resolvedRequestIds
        (client.view.pendingRequests ++ client.connection.incomingRequests) = client.open_
  prompts
    : keptTexts client.submissions
      = userTexts client.view.items ++ client.connection.pendingPromptText.toList.map some
  withdrawn
    : ∀ submission ∈ client.submissions, submission.withdrawn = true
      → submission.outcome = .raised

namespace ClientSound

variable {client next : Client} {event : ClientEvent}

theorem receive (sound : ClientSound client) {request : PendingRequest}
    (fresh : request.id ∉ client.connection.resolvedRequestIds)
    : ClientSound (client.receive request) := by
  refine ⟨sound.quiet, ?_, sound.prompts, sound.withdrawn⟩
  simp only [Client.receive]
  rw [← List.append_assoc, ← sound.requests, unresolved, List.filter_append]
  congr 1
  simpa using fresh

theorem answer (sound : ClientSound client) {requestId : RequestId} {error : Bool}
    (careful : error = true → ∀ request ∈ client.open_, request.id ≠ requestId)
    : ClientSound (client.answer requestId error) := by
  refine ⟨sound.quiet, ?_, sound.prompts, sound.withdrawn⟩
  simp only [Client.answer]
  cases error with
  | true =>
    rw [if_pos rfl, sound.requests]
    exact (List.filter_eq_self.mpr (fun request member =>
      by simpa using careful rfl request member)).symm
  | false =>
    rw [if_neg (by simp), ← sound.requests, unresolved, unresolved, List.filter_filter]
    congr 1
    funext request
    simp [Bool.and_comm]

theorem emitPrompt (sound : ClientSound client) {text : String}
    (free : client.connection.pendingPromptText = none)
    : ClientSound (client.emitPrompt (some text)) := by
  refine ⟨sound.quiet, sound.requests, ?_, ?_⟩
  · have prompts := sound.prompts
    rw [free] at prompts
    simp only [Client.emitPrompt, keptTexts, List.filterMap_append] at prompts ⊢
    rw [prompts]
    simp
  · intro submission member
    rcases List.mem_append.mp member with old | new
    · exact sound.withdrawn submission old
    · rw [List.mem_singleton.mp new]
      exact nofun

theorem promptReturns (sound : ClientSound client) {stopReason : Option String}
    {submission : Submission} (emitted : client.submissions[index]? = some submission)
    (waits : submission.outcome = .inFlight)
    : ClientSound (client.promptReturns index stopReason) := by
  refine ⟨sound.quiet, sound.requests, ?_, ?_⟩
  · simp only [Client.promptReturns]
    refine Eq.trans ?_ sound.prompts
    exact filterMap_modify (fun _ _ => rfl)
  · intro other member gone
    rcases mem_of_modify member with old | ⟨old, found, rfl⟩
    · exact sound.withdrawn other old gone
    · cases emitted.symm.trans found
      have raised := sound.withdrawn submission (List.mem_of_getElem? emitted) gone
      rw [waits] at raised
      cases raised

theorem promptRaises (sound : ClientSound client) {submission : Submission}
    (emitted : client.submissions[index]? = some submission)
    (waits : submission.outcome = .inFlight)
    (careful
      : submission.text = client.connection.pendingPromptText
        → index + 1 = client.submissions.length)
    : ClientSound (client.promptRaises index submission.text) := by
  have stays : submission.withdrawn = false := by
    cases gone : submission.withdrawn with
    | false => rfl
    | true =>
      have raised := sound.withdrawn submission (List.mem_of_getElem? emitted) gone
      rw [waits] at raised
      cases raised
  refine ⟨sound.quiet, sound.requests, ?_, ?_⟩
  · have prompts := sound.prompts
    simp only [Client.promptRaises]
    by_cases holds : client.connection.pendingPromptText = submission.text
    · have last := careful holds.symm
      have ends : client.submissions.getLast? = some submission := by
        rw [List.getLast?_eq_getElem?, ← last]
        exact emitted
      obtain ⟨earlier, parts⟩ := List.getLast?_eq_some_iff.mp ends
      have position : index = earlier.length := by
        rw [parts, List.length_append, List.length_singleton] at last
        omega
      rw [parts, holds] at prompts
      rw [if_pos holds, parts, position, modify_concat]
      simp only [keptTexts, List.filterMap_append] at prompts ⊢
      cases told : submission.text with
      | none =>
        have inside : none ∈ userTexts client.view.items := by
          rw [told] at prompts
          simp only [Option.toList_none, List.map_nil, List.append_nil] at prompts
          rw [← prompts]
          simp [stays, told]
        exact absurd inside (none_notMem_userTexts _)
      | some text =>
        have same : earlier.filterMap (fun submission =>
            if submission.withdrawn = true then none else some submission.text)
              ++ [some text] = userTexts client.view.items ++ [some text] := by
          rw [told] at prompts
          simpa [stays, told] using prompts
        simpa [told, holds] using List.append_cancel_right same
    · rw [if_neg holds]
      refine Eq.trans ?_ prompts
      refine filterMap_modify (fun other found => ?_)
      cases emitted.symm.trans found
      simp [holds, stays]
  · intro other member gone
    rcases mem_of_modify member with old | ⟨old, -, rfl⟩
    · exact sound.withdrawn other old gone
    · rfl

theorem capture (sound : ClientSound client) : ClientSound client.capture := by
  refine ⟨rfl, ?_, ?_, sound.withdrawn⟩
  · simp only [Client.capture, Connection.captured]
    rw [captureView_pendingRequests sound.quiet, sound.requests]
    simp [unresolved]
  · simp only [Client.capture, Connection.captured]
    rw [@captureView_userTexts client.view client.connection sound.quiet, sound.prompts]
    simp

theorem step (sound : ClientSound client) (step : ClientStep client event next)
    (careful : CarefulClient client event)
    : ClientSound next := by
  cases step with
  | receive => exact sound.receive careful
  | answer => exact sound.answer careful
  | @emitPrompt text =>
    cases text with
    | none => exact absurd rfl careful.1
    | some text => exact sound.emitPrompt careful.2
  | promptReturns emitted waits => exact sound.promptReturns emitted waits
  | promptRaises emitted waits =>
    exact sound.promptRaises emitted waits (careful _ emitted)
  | cancel => exact ⟨sound.quiet, sound.requests, sound.prompts, sound.withdrawn⟩
  | capture => exact sound.capture

/-- The frame that is captured next. -/
theorem faithful (sound : ClientSound client) (careful : CarefulClient client .capture)
    : Capture.Faithful
        ⟨(captureView client.connection client.view).frame, client.open_, client.submissions⟩ := by
  have texts := @captureView_userTexts client.view client.connection sound.quiet
  rw [← sound.prompts] at texts
  refine ⟨?_, ?_, ?_, ?_⟩
  · exact (captureView_pendingRequests sound.quiet).trans sound.requests
  · exact texts ▸ acceptedTexts_sublist sound.withdrawn
  · exact texts ▸ keptTexts_sublist
  · intro waits
    obtain ⟨going, streams⟩ := careful waits
    exact captureView_streaming sound.quiet going streams

theorem faithfulFrames_step (sound : ClientSound client) (faithful : FaithfulFrames client)
    (step : ClientStep client event next) (careful : CarefulClient client event)
    : FaithfulFrames next := by
  cases step with
  | receive | answer | emitPrompt | promptReturns | promptRaises | cancel => exact faithful
  | capture =>
    intro capture member
    rcases List.mem_append.mp member with old | new
    · exact faithful capture old
    · rw [List.mem_singleton.mp new]
      exact sound.faithful careful

end ClientSound

theorem sound_of_fresh {client : Client} (fresh : ClientFresh client)
    : ClientSound client ∧ FaithfulFrames client := by
  rw [fresh]
  exact ⟨⟨rfl, rfl, rfl, nofun⟩, nofun⟩

/-- Every captured frame of a run whose steps are careful shows exactly the open requests, every
accepted prompt once and in order, and a streaming turn while a prompt is in flight.
-/
theorem faithfulFrames_of_run {events : List ClientEvent} {client : Client}
    (run
      : Run ClientFresh (fun client event next =>
          ClientStep client event next ∧ CarefulClient client event) events client)
    : FaithfulFrames client := by
  have both : ClientSound client ∧ FaithfulFrames client :=
    run.invariant (fun _ fresh => sound_of_fresh fresh)
      (fun _ _ _ both step => ⟨both.1.step step.1 step.2,
        both.1.faithfulFrames_step both.2 step.1 step.2⟩)
  exact both.2

namespace RefusedRequest

def request : PendingRequest := ⟨.number 7, "session/request_permission", .nil⟩

/-- A prompt is in flight, and a request is open. -/
theorem faithfulFrames_open
    : FaithfulFrames (((({} : Client).receive request).emitPrompt (some "go")).capture) := by
  refine @faithfulFrames_of_run [.receive request, .emitPrompt (some "go"), .capture] _
    ⟨{}, rfl, .cons ⟨.receive, nofun⟩ (.cons ⟨.emitPrompt, nofun, rfl⟩
      (.cons ⟨.capture, ?_⟩ (.nil _)))⟩
  exact fun _ => ⟨rfl, .inl nofun⟩

/-- A request that was answered by an error is still shown. -/
theorem not_faithfulFrames
    : ∃ client, Run ClientFresh ClientStep
        [.receive request, .answer (.number 7) true, .capture] client
        ∧ ¬ FaithfulFrames client := by
  refine ⟨_, ⟨{}, rfl, .cons .receive (.cons .answer (.cons .capture (.nil _)))⟩,
    fun faithful => ?_⟩
  have requests := (faithful _ (List.mem_singleton_self _)).requests
  revert requests
  decide

end RefusedRequest

end Murder.Acp

import Murder.Acp.ViewState
import Murder.Library.Runs

/-! The items of a view read in the order the chunks arrived, exactly where every continued chunk
finds its item at the end of the transcript and no tool call takes the place of a message.
-/

namespace Murder.Acp

open Contracts Library.Firsts Library.Runs

/-- What an item adds to the transcript: the text of a message, a thought or a prompt. -/
def Item.spoken (item : Item) : String :=
  if item.type = .toolCall then "" else item.text.getD ""

def transcriptText : List Item → String
  | [] => ""
  | item :: rest => item.spoken ++ transcriptText rest

inductive TranscriptEvent
  | promptStarted (promptText : Option String)
  | update (update : JsonObject)

/-- A view with the texts it accepted so far, and each item that was continued: its role with those
of the items behind it.
-/
structure Transcribing where
  view : ViewState := {}
  accepted : String := ""
  continued : List (String × List String) := []

def ViewState.accepts (view : ViewState) : Stream → Bool
  | .user => !view.streamUserSeeded
  | .message | .thought => true

/-- The item a chunk continues, with the items around it. -/
def ViewState.continuation (view : ViewState) (stream : Stream)
    : Option (List Item × Item × List Item) :=
  (stream.cursor view).bind (fun itemId =>
    splitFirst (fun item => item.id = some itemId) view.items)

def Transcribing.takeUpdate (state : Transcribing) : SessionUpdate → Transcribing
  | .chunk stream text =>
    if state.view.accepts stream then
      { view := state.view.applySessionUpdate (.chunk stream text)
        accepted := state.accepted ++ text
        continued :=
          state.continued ++ ((state.view.continuation stream).map (fun (_, item, behind) =>
            (item.type.role, behind.map (·.type.role)))).toList }
    else { state with view := state.view.applySessionUpdate (.chunk stream text) }
  | update => { state with view := state.view.applySessionUpdate update }

def Transcribing.take (state : Transcribing) : TranscriptEvent → Transcribing
  | .promptStarted promptText =>
    { state with
      view := state.view.markPromptStarted promptText
      accepted := state.accepted ++ promptText.getD "" }
  | .update update =>
    match sessionUpdate update with
    | some recognized => state.takeUpdate recognized
    | none => state

/-- The items read as the chunks arrived, and no chunk went to an item before one of another role. -/
structure InOrder (state : Transcribing) : Prop where
  arrival : transcriptText state.view.items = state.accepted
  roles : ∀ entry ∈ state.continued, ∀ role ∈ entry.2, role = entry.1

abbrev TranscriptStep (state : Transcribing) (event : TranscriptEvent) (next : Transcribing)
    : Prop :=
  next = state.take event

def TranscriptFresh (state : Transcribing) : Prop := state = {}

/-- Behind the item a chunk continues there are only items of its role, with no text that reads
differently before the chunk than behind it; a tool call holds no text of the transcript.
-/
structure ContinuesEnd (text : String) (item : Item) (behind : List Item) : Prop where
  roles : ∀ later ∈ behind, later.type.role = item.type.role
  text
    : if item.type = .toolCall then text = ""
      else text ++ transcriptText behind = transcriptText behind ++ text

/-- What a tool call takes the place of says nothing. -/
def ReplacesSilent (view : ViewState) (item : Item) : Prop :=
  ∀ itemId, item.itemId = some itemId
    → ∀ before existing behind,
        splitFirst (fun other => other.key = some (.str itemId)) view.items
          = some (before, existing, behind)
        → existing.spoken = ""

def CarefulSessionUpdate (view : ViewState) : SessionUpdate → Prop
  | .chunk stream text =>
    view.accepts stream = true
      → ∀ before item behind, view.continuation stream = some (before, item, behind)
      → ContinuesEnd text item behind
  | .toolCall item | .toolCallUpdate item => ReplacesSilent view item
  | .stopped _ | .turn _ => True

def CarefulUpdate (state : Transcribing) : TranscriptEvent → Prop
  | .promptStarted _ => True
  | .update update =>
    ∀ recognized, sessionUpdate update = some recognized
      → CarefulSessionUpdate state.view recognized

section Items

variable {view : ViewState} {stream : Stream} {text accepted : String} {item : Item}

theorem transcriptText_append (items more : List Item)
    : transcriptText (items ++ more) = transcriptText items ++ transcriptText more := by
  induction items with
  | nil => exact (String.empty_append).symm
  | cons item rest ih =>
    rw [List.cons_append, transcriptText, ih, transcriptText, String.append_assoc]

theorem transcriptText_cons (item : Item) (rest : List Item)
    : transcriptText (item :: rest) = item.spoken ++ transcriptText rest := rfl

theorem transcriptText_concat (items : List Item) (item : Item)
    : transcriptText (items ++ [item]) = transcriptText items ++ item.spoken := by
  rw [transcriptText_append, transcriptText_cons, transcriptText, String.append_empty]

theorem Item.spoken_of_stream (itemId : Option String) (stream : Stream) (text : String)
    : Item.spoken { id := itemId, type := stream.type, text := some text } = text := by
  cases stream <;> rfl

theorem Item.spoken_of_tool (tool : item.type = .toolCall) : item.spoken = "" := if_pos tool

/-- Text added to an item. -/
theorem spoken_extended (item : Item) (text : String)
    : Item.spoken { item with text := some (item.text.getD "" ++ text) }
      = if item.type = .toolCall then "" else item.spoken ++ text := by
  unfold Item.spoken
  dsimp only
  split <;> rfl

/-- An extended item reads at the end exactly where nothing behind it comes before the text. -/
theorem transcript_extended_iff (before behind : List Item) (item : Item) (text : String)
    : transcriptText (before
          ++ { item with text := some (item.text.getD "" ++ text) } :: behind)
        = transcriptText (before ++ item :: behind) ++ text
      ↔ if item.type = .toolCall then text = ""
        else text ++ transcriptText behind = transcriptText behind ++ text := by
  rw [transcriptText_append, transcriptText_append, transcriptText_cons, transcriptText_cons,
    spoken_extended, String.append_assoc, String.append_right_inj]
  split
  · next tool =>
      rw [Item.spoken_of_tool tool, String.empty_append]
      constructor
      · intro same
        have parts : transcriptText behind ++ "" = transcriptText behind ++ text := by
          rw [String.append_empty]
          exact same
        exact ((String.append_right_inj _).mp parts).symm
      · intro none_
        rw [none_, String.append_empty]
  · rw [String.append_assoc, String.append_assoc, String.append_right_inj]

theorem transcript_chunk_iff
    : transcriptText (view.applyChunk stream text).items = transcriptText view.items ++ text
      ↔ ∀ before item behind, view.continuation stream = some (before, item, behind)
        → if item.type = .toolCall then text = ""
          else text ++ transcriptText behind = transcriptText behind ++ text := by
  unfold ViewState.applyChunk ViewState.continuation
  cases cursor : stream.cursor view with
  | none =>
    refine iff_of_true ?_ (fun _ _ _ => nofun)
    have items : ∀ itemId, (stream.setCursor view itemId).items = view.items := by
      cases stream <;> exact fun _ => rfl
    dsimp only
    rw [ViewState.append, transcriptText_concat, items, Item.spoken_of_stream]
  | some itemId =>
    dsimp only [Option.bind_some]
    unfold ViewState.extendItem
    cases split : splitFirst (fun item => decide (item.id = some itemId)) view.items with
    | none =>
      refine iff_of_true ?_ (fun _ _ _ => nofun)
      dsimp only
      rw [ViewState.append, transcriptText_concat, Item.spoken_of_stream]
    | some parts =>
      obtain ⟨before, item, behind⟩ := parts
      have whole := (splitFirst_eq_some split).1
      dsimp only
      rw [whole, transcript_extended_iff]
      constructor
      · rintro careful _ _ _ ⟨⟩
        exact careful
      · exact fun careful => careful before item behind rfl

theorem transcript_upsert_iff (tool : item.type = .toolCall) (merge : Bool)
    : transcriptText (view.upsertItem item merge).items = transcriptText view.items
      ↔ ReplacesSilent view item := by
  unfold ViewState.upsertItem ReplacesSilent
  have silent : ∀ itemId, Item.spoken { item with id := some itemId } = "" :=
    fun _ => Item.spoken_of_tool tool
  cases identified : item.itemId with
  | none =>
    refine iff_of_true ?_ (fun _ => nofun)
    dsimp only
    rw [ViewState.append, transcriptText_concat, Item.spoken_of_tool tool, String.append_empty]
  | some itemId =>
    dsimp only
    cases split : splitFirst (fun existing => decide (existing.key = some (.str itemId)))
        view.items with
    | none =>
      refine iff_of_true ?_ ?_
      · dsimp only
        rw [ViewState.append, transcriptText_concat, silent, String.append_empty]
      · rintro _ ⟨⟩ _ _ _ found
        rw [split] at found
        cases found
    | some parts =>
      obtain ⟨before, existing, behind⟩ := parts
      have replaced : Item.spoken (if merge = true
          then ViewState.mergedItem existing { item with id := some itemId }
          else { item with id := some itemId }) = "" := by
        split
        · exact Item.spoken_of_tool tool
        · exact silent itemId
      have reads : transcriptText view.items
          = transcriptText before ++ (existing.spoken ++ transcriptText behind) := by
        rw [(splitFirst_eq_some split).1, transcriptText_append, transcriptText_cons]
      dsimp only
      rw [reads, transcriptText_append, transcriptText_cons, replaced,
        String.append_right_inj, String.append_left_inj]
      constructor
      · rintro same _ ⟨⟩ _ _ _ found
        cases split.symm.trans found
        exact same.symm
      · exact fun all => (all itemId rfl before existing behind split).symm

end Items

variable {update : JsonObject} {recognized : SessionUpdate}

section Steps

variable {state : Transcribing} {event : TranscriptEvent}

def SessionUpdate.Typed : SessionUpdate → Prop
  | .toolCall item | .toolCallUpdate item => item.type = .toolCall
  | .chunk _ _ | .stopped _ | .turn _ => True

theorem typed_of_text {stream : Stream} (same : textUpdate stream update = some recognized)
    : recognized.Typed := by
  obtain ⟨text, -, rfl⟩ := Option.map_eq_some_iff.mp same
  trivial

theorem typed_of_state (same : stateUpdate update = some recognized)
    : recognized.Typed := by
  unfold stateUpdate at same
  dsimp only at same
  split at same
  · cases same
    trivial
  · split_ifs at same <;> cases same <;> trivial

theorem typed_of_sessionUpdate (same : sessionUpdate update = some recognized)
    : recognized.Typed := by
  unfold sessionUpdate at same
  split at same
  · split_ifs at same
    · exact typed_of_text same
    · exact typed_of_text same
    · exact typed_of_text same
    · cases same
      rfl
    · cases same
      rfl
    · exact typed_of_state same
  · cases same

theorem roles_continued {continued : List (String × List String)}
    (roles : ∀ entry ∈ continued, ∀ role ∈ entry.2, role = entry.1)
    (parts : Option (List Item × Item × List Item))
    : (∀ entry ∈ continued ++ (parts.map (fun (_, item, behind) =>
          (item.type.role, behind.map (·.type.role)))).toList, ∀ role ∈ entry.2, role = entry.1)
      ↔ ∀ before item behind, parts = some (before, item, behind)
        → ∀ later ∈ behind, later.type.role = item.type.role := by
  rw [List.forall_mem_append, and_iff_right roles]
  cases parts with
  | none => exact iff_of_true nofun (fun _ _ _ => nofun)
  | some parts =>
    obtain ⟨before, item, behind⟩ := parts
    simp only [Option.map_some, Option.toList_some, List.forall_mem_singleton,
      List.forall_mem_map, Option.some.injEq, Prod.mk.injEq]
    constructor
    · rintro all _ _ _ ⟨rfl, rfl, rfl⟩
      exact all
    · exact fun all => all before item behind ⟨rfl, rfl, rfl⟩

/-- An accepted chunk reads in order exactly where it continues the end of the transcript. -/
theorem InOrder.chunk_iff (inOrder : InOrder state) {stream : Stream} {text : String}
    (accepted : state.view.accepts stream = true)
    : InOrder (state.takeUpdate (.chunk stream text))
      ↔ CarefulSessionUpdate state.view (.chunk stream text) := by
  have taken : state.takeUpdate (.chunk stream text)
      = { view := state.view.applySessionUpdate (.chunk stream text)
          accepted := state.accepted ++ text
          continued :=
            state.continued ++ ((state.view.continuation stream).map (fun (_, item, behind) =>
              (item.type.role, behind.map (·.type.role)))).toList } := if_pos accepted
  have arrival : transcriptText (state.view.applySessionUpdate (.chunk stream text)).items
      = state.accepted ++ text
      ↔ ∀ before item behind, state.view.continuation stream = some (before, item, behind)
        → if item.type = .toolCall then text = ""
          else text ++ transcriptText behind = transcriptText behind ++ text := by
    rw [← inOrder.arrival]
    cases stream with
    | message => exact @transcript_chunk_iff state.view.startStreaming .message text
    | thought => exact @transcript_chunk_iff state.view.startStreaming .thought text
    | user =>
      have applied : state.view.applySessionUpdate (.chunk .user text)
          = state.view.applyChunk .user text :=
        if_neg (by simpa [ViewState.accepts] using accepted)
      rw [applied]
      exact transcript_chunk_iff
  have roles := roles_continued inOrder.roles (state.view.continuation stream)
  rw [taken]
  constructor
  · intro after _ before item behind found
    exact ⟨roles.mp after.roles before item behind found,
      arrival.mp after.arrival before item behind found⟩
  · intro careful
    refine ⟨arrival.mpr ?_, roles.mpr ?_⟩
    · exact fun before item behind found => (careful accepted before item behind found).text
    · exact fun before item behind found => (careful accepted before item behind found).roles

theorem InOrder.takeUpdate_iff (inOrder : InOrder state) (typed : recognized.Typed)
    : InOrder (state.takeUpdate recognized) ↔ CarefulSessionUpdate state.view recognized := by
  cases recognized with
  | chunk stream text =>
    cases accepted : state.view.accepts stream with
    | true => exact inOrder.chunk_iff accepted
    | false =>
      cases stream with
      | message | thought => cases accepted
      | user =>
        have seeded : state.view.streamUserSeeded = true := by
          simpa [ViewState.accepts] using accepted
        have ignored : state.view.applySessionUpdate (.chunk .user text) = state.view :=
          if_pos seeded
        have taken : state.takeUpdate (.chunk .user text) = state := by
          rw [Transcribing.takeUpdate, if_neg (by simp [accepted]), ignored]
        rw [taken]
        refine iff_of_true inOrder (fun accepts => ?_)
        rw [accepted] at accepts
        cases accepts
  | toolCall item =>
    have reads := @transcript_upsert_iff state.view item typed false
    rw [inOrder.arrival] at reads
    exact ⟨fun after => reads.mp after.arrival,
      fun careful => ⟨reads.mpr careful, inOrder.roles⟩⟩
  | toolCallUpdate item =>
    have reads := @transcript_upsert_iff state.view item typed true
    rw [inOrder.arrival] at reads
    exact ⟨fun after => reads.mp after.arrival,
      fun careful => ⟨reads.mpr careful, inOrder.roles⟩⟩
  | stopped stopReason => exact iff_of_true ⟨inOrder.arrival, inOrder.roles⟩ trivial
  | turn status => exact iff_of_true ⟨inOrder.arrival, inOrder.roles⟩ trivial

theorem InOrder.take_iff (inOrder : InOrder state)
    : InOrder (state.take event) ↔ CarefulUpdate state event := by
  cases event with
  | promptStarted promptText =>
    refine iff_of_true ⟨?_, inOrder.roles⟩ trivial
    cases promptText with
    | none =>
      change transcriptText state.view.items = state.accepted ++ ""
      rw [inOrder.arrival, String.append_empty]
    | some text =>
      change transcriptText (state.view.items ++ [_]) = state.accepted ++ text
      rw [transcriptText_concat, inOrder.arrival]
      rfl
  | update update =>
    rw [Transcribing.take, CarefulUpdate]
    cases recognized : sessionUpdate update with
    | none => exact iff_of_true inOrder nofun
    | some session =>
      dsimp only
      rw [inOrder.takeUpdate_iff (typed_of_sessionUpdate recognized)]
      simp

/-- Every state of a run reads in order exactly when every update of the run is careful: a chunk
continues an item with nothing but its role and no other text behind it, and a tool call takes the
place of no text.
-/
theorem inOrder_iff {events : List TranscriptEvent}
    : Run TranscriptFresh (fun state event next =>
        TranscriptStep state event next ∧ InOrder next) events state
      ↔ Run TranscriptFresh (fun state event next =>
        TranscriptStep state event next ∧ CarefulUpdate state event) events state := by
  apply @Run.iff_of_invariant _ _ _ _ InOrder
  · rintro _ rfl
    exact ⟨rfl, nofun⟩
  · exact fun _ _ _ _ step => step.2
  · intro state event next inOrder
    refine and_congr_right (fun step => ?_)
    rw [step]
    exact inOrder.take_iff

end Steps

def chunkUpdate (kind text : String) : TranscriptEvent :=
  .update (.ofList [("sessionUpdate", .str kind), ("content", .str text)])

/-- A thought between two chunks of a message. -/
def interleaved : List TranscriptEvent :=
  [chunkUpdate "agent_message_chunk" "a", chunkUpdate "agent_thought_chunk" "b",
    chunkUpdate "agent_message_chunk" "c"]

theorem not_inOrder_interleaved
    : ∃ state, Run TranscriptFresh TranscriptStep interleaved state ∧ ¬ InOrder state := by
  have fresh : TranscriptFresh {} := rfl
  refine ⟨_, ⟨{}, fresh, .cons rfl (.cons rfl (.cons rfl (.nil _)))⟩, fun inOrder => ?_⟩
  exact absurd inOrder.arrival (by decide)

end Murder.Acp

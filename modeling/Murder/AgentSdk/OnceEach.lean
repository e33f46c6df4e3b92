import Murder.AgentSdk.Events
import Murder.Library.Runs

/-! Each message of a conversation is one assistant item, exactly where the text that is streamed
goes to the item of its own message.
-/

namespace Murder.AgentSdk

open Contracts Library.Firsts Library.Runs

----------------------------------------
-- Conversations
----------------------------------------

def Item.entry (item : Item) : Option (Option String × Option Phase) :=
  if item.type = .assistant then some (item.text, item.phase) else none

def entries (items : List Item) : List (Option String × Option Phase) :=
  items.filterMap Item.entry

def ToolsSilent (items : List Item) : Prop :=
  ∀ item ∈ items, item.type = .toolCall → item.text = none

/-- A view with the texts of the messages that are complete, and what was streamed of the next. -/
structure Conversation where
  view : ViewState := {}
  texts : List String := []
  streamed : String := ""

section Take

variable [PyRepr]

def deltaText (event : JsonObject) : String :=
  match textDelta event with
  | some (_, delta) => delta
  | none => ""

/-- A message is complete with its text, if it has any. -/
def Conversation.take (conversation : Conversation) (message : SdkMessage) : Conversation where
  view :=
    match normalizeSdkMessage (.message message) with
    | some event => conversation.view.applyEvent event
    | none => conversation.view
  texts :=
    match message with
    | .assistant complete =>
      if complete.text = "" then conversation.texts
      else conversation.texts ++ [complete.text]
    | _ => conversation.texts
  streamed :=
    match message with
    | .assistant _ => ""
    | .streamEvent event => conversation.streamed ++ deltaText event
    | _ => conversation.streamed

/-- A turn ends when all its messages are complete. -/
structure ConversationStep (conversation : Conversation) (message : SdkMessage)
    (next : Conversation) : Prop where
  taken : next = conversation.take message
  complete : ∀ result, message = .result result → conversation.streamed = ""

end Take

def ConversationFresh (conversation : Conversation) : Prop := conversation = {}

def finalEntries (texts : List String) : List (Option String × Option Phase) :=
  texts.map (fun text => (some text, some .final))

def streamedEntries (streamed : String) : List (Option String × Option Phase) :=
  if streamed = "" then [] else [(some streamed, some .intermediate)]

/-- The assistant items are the complete messages in their order, each once and final, and behind
them what was streamed of the next; no other item took their text.
-/
structure OnceEach (conversation : Conversation) : Prop where
  messages
    : entries conversation.view.items
      = finalEntries conversation.texts ++ streamedEntries conversation.streamed
  silent : ToolsSilent conversation.view.items

----------------------------------------
-- Careful messages
----------------------------------------

/-- The first item with the identifier is the last assistant item. -/
def Latest (items : List Item) (itemId : String) : Prop :=
  ∃ before item behind, locate items itemId = some (before, item, behind)
    ∧ item.type = .assistant ∧ ∀ later ∈ behind, later.type ≠ .assistant

/-- A text that was not streamed takes the place of no assistant item, and comes before none with
another text.
-/
def Unclaimed (items : List Item) (itemId text : String) : Prop :=
  ∀ before item behind, locate items itemId = some (before, item, behind)
    → item.type ≠ .assistant
      ∧ ∀ later ∈ behind, later.type = .assistant → later.text = some text

def ToolsApart [PyRepr] (items : List Item) : List ToolUse → Prop
  | [] => True
  | tool :: rest =>
    (∀ item, findItem items (tool.itemId items) = some item → item.text = none)
      ∧ ToolsApart (applyToolUse items tool) rest

/-- The text of a complete message goes to an item of its own or, if something of it was streamed,
to the item that holds this.
-/
def CarefulText (conversation : Conversation) (message : AssistantMessage) : Prop :=
  let itemId := conversation.view.assistantItemId message.uuid message.messageId
  if conversation.streamed = "" then
    message.text ≠ "" → Unclaimed conversation.view.items itemId message.text
  else message.text ≠ "" ∧ Latest conversation.view.items itemId

def CarefulDelta (conversation : Conversation) (itemId : String) : Prop :=
  if conversation.streamed = "" then locate conversation.view.items itemId = none
  else Latest conversation.view.items itemId

def Conversation.withText (conversation : Conversation) (message : AssistantMessage) : List Item :=
  conversation.view.withText {
    text := message.text
    messageId := message.messageId
    uuid := message.uuid }

def CarefulMessage [PyRepr] (conversation : Conversation) : SdkMessage → Prop
  | .assistant message =>
    CarefulText conversation message
      ∧ ToolsApart (conversation.withText message) message.toolUses
  | .streamEvent event =>
    ∀ itemId delta, textDelta event = some (itemId, delta)
      → CarefulDelta conversation (textOr (some itemId) "stream")
  | .result message =>
    message.subtype = some "success" → message.result.getD "" ≠ ""
      → ∃ item ∈ conversation.view.items, item.type = .assistant
  | .user _ | .system _ _ | .other => True

----------------------------------------
-- Items
----------------------------------------

section Items

variable {items before behind : List Item} {item existing : Item} {itemId : String}

theorem Item.entry_of_assistant (assistant : item.type = .assistant)
    : item.entry = some (item.text, item.phase) := if_pos assistant

theorem Item.entry_of_other (other : item.type ≠ .assistant) : item.entry = none := if_neg other

theorem entries_around
    : entries (before ++ item :: behind)
      = entries before ++ item.entry.toList ++ entries behind := by
  rw [entries, List.filterMap_append, List.filterMap_cons, List.append_assoc]
  cases item.entry <;> rfl

theorem entries_concat : entries (items ++ [item]) = entries items ++ item.entry.toList := by
  rw [entries_around]
  exact List.append_nil _

theorem entries_eq_nil : entries items = [] ↔ ∀ item ∈ items, item.type ≠ .assistant := by
  rw [entries, List.filterMap_eq_nil_iff]
  refine forall₂_congr (fun item _ => ?_)
  unfold Item.entry
  split <;> simp_all

theorem silent_around
    : ToolsSilent (before ++ item :: behind)
      ↔ ToolsSilent before ∧ (item.type = .toolCall → item.text = none)
        ∧ ToolsSilent behind := by
  unfold ToolsSilent
  rw [List.forall_mem_append, List.forall_mem_cons]

theorem silent_concat
    : ToolsSilent (items ++ [item])
      ↔ ToolsSilent items ∧ (item.type = .toolCall → item.text = none) := by
  rw [silent_around]
  exact and_congr_right (fun _ => and_iff_left (List.forall_mem_nil _))

theorem locate_eq (located : locate items itemId = some (before, existing, behind))
    : items = before ++ existing :: behind ∧ existing.id = itemId := by
  obtain ⟨parts, found, -⟩ := splitFirst_eq_some located
  exact ⟨parts, of_decide_eq_true found⟩

theorem modifyItem_located {change : Item → Item}
    (located : locate items itemId = some (before, existing, behind))
    : modifyItem items itemId change = before ++ change existing :: behind := by
  rw [modifyItem, located]

theorem upsertItem_new {replace : Bool} (missing : locate items item.id = none)
    : upsertItem items item replace = items ++ [item] := by
  rw [upsertItem, findItem, missing]
  rfl

theorem upsertItem_located {replace : Bool}
    (located : locate items item.id = some (before, existing, behind))
    : upsertItem items item replace = before ++ item.placedOver existing replace :: behind := by
  rw [upsertItem, findItem, located]
  exact modifyItem_located located

theorem entries_modifyItem {change : Item → Item}
    (same : ∀ item, (change item).type = item.type ∧ (change item).text = item.text
      ∧ (change item).phase = item.phase)
    : entries (modifyItem items itemId change) = entries items
      ∧ (ToolsSilent (modifyItem items itemId change) ↔ ToolsSilent items) := by
  cases located : locate items itemId with
  | none =>
    have unchanged : modifyItem items itemId change = items := by rw [modifyItem, located]
    rw [unchanged]
    exact ⟨rfl, Iff.rfl⟩
  | some parts =>
    obtain ⟨before, existing, behind⟩ := parts
    obtain ⟨type, text, phase⟩ := same existing
    rw [modifyItem_located located, (locate_eq located).1, entries_around, entries_around,
      silent_around, silent_around, Item.entry, Item.entry, type, text, phase]
    exact ⟨rfl, Iff.rfl⟩

/-- Entries that are final already stay as they are. -/
theorem finishLast_eq (final : ∀ item ∈ items, item.type = .assistant → item.phase = some .final)
    : finishLast items = items := by
  unfold finishLast
  split
  · next later item earlier split =>
      obtain ⟨parts, passes, -⟩ := splitFirst_eq_some split
      have whole : items = earlier.reverse ++ item :: later.reverse := by
        rw [← List.reverse_reverse items, parts]
        simp
      have phase := final item (by rw [whole]; simp) (of_decide_eq_true passes)
      rw [whole, ← phase]
  · rfl

/-- A new entry before others is at the end exactly if these are all alike. -/
theorem cons_eq_concat_iff {α : Type} {entry : α} {others : List α}
    : entry :: others = others ++ [entry] ↔ ∀ other ∈ others, other = entry := by
  induction others with
  | nil => exact iff_of_true rfl nofun
  | cons head rest ih =>
    rw [List.cons_append, List.cons.injEq, List.forall_mem_cons, ← ih]
    constructor
    · rintro ⟨rfl, same⟩
      exact ⟨rfl, same⟩
    · rintro ⟨rfl, same⟩
      exact ⟨rfl, same⟩

theorem changed_last_iff {α : Type} {before behind others : List α} {old new last next : α}
    (parts : before ++ old :: behind = others ++ [last]) (differs : last ≠ next)
    : before ++ new :: behind = others ++ [next] ↔ behind = [] ∧ new = next := by
  rcases List.eq_nil_or_concat behind with rfl | ⟨init, final, rfl⟩
  · have same := (List.append_inj' parts rfl).1
    rw [same, List.append_right_inj, List.cons.injEq]
    exact and_comm
  · refine iff_of_false (fun changed => ?_) (fun alone => by simp at alone)
    have was : final = last := by
      rw [List.concat_eq_append, ← List.cons_append, ← List.append_assoc] at parts
      exact List.singleton_inj.mp (List.append_inj' parts rfl).2
    have is : final = next := by
      rw [List.concat_eq_append, ← List.cons_append, ← List.append_assoc] at changed
      exact List.singleton_inj.mp (List.append_inj' changed rfl).2
    exact differs (was.symm.trans is)

end Items

----------------------------------------
-- Deltas
----------------------------------------

section Deltas

variable {conversation : Conversation}

theorem streamedEntries_of_ne {streamed : String} (some_ : streamed ≠ "")
    : streamedEntries streamed = [(some streamed, some .intermediate)] := if_neg some_

theorem items_applyStreamDelta {view : ViewState} {itemId delta : String} (some_ : delta ≠ "")
    : (view.applyStreamDelta itemId delta).items
      = match locate view.items (textOr (some itemId) "stream") with
        | none =>
          view.items ++ [{
            id := textOr (some itemId) "stream"
            type := .assistant
            text := some delta
            phase := some .intermediate }]
        | some (before, item, behind) => before ++ item.extend delta :: behind := by
  rw [ViewState.applyStreamDelta, if_neg some_]
  dsimp only
  rw [ensureItem, findItem]
  cases located : locate view.items (textOr (some itemId) "stream") with
  | none =>
    have missing := splitFirst_eq_none.mp located
    have added := @splitFirst_append _ _ _
      { id := textOr (some itemId) "stream", type := .assistant, text := some "" : Item } missing
    rw [if_pos (by simp)] at added
    dsimp only [Option.map_none]
    rw [modifyItem_located added]
    simp [Item.extend]
  | some parts =>
    obtain ⟨before, item, behind⟩ := parts
    exact modifyItem_located located

theorem OnceEach.delta_new_iff (once : OnceEach conversation) {item : Item} {delta : String}
    (entry : item.entry = some (some delta, some .intermediate))
    : entries (conversation.view.items ++ [item])
        = finalEntries conversation.texts ++ [(some (conversation.streamed ++ delta),
            some .intermediate)]
      ↔ conversation.streamed = "" := by
  rw [entries_concat, once.messages, entry]
  by_cases idle : conversation.streamed = ""
  · rw [idle]
    exact iff_of_true (by simp [streamedEntries]) rfl
  · rw [streamedEntries_of_ne idle]
    refine iff_of_false (fun same => ?_) idle
    have lengths := congrArg List.length same
    simp at lengths

/-- A delta that changes an item goes on with the last one. -/
theorem OnceEach.delta_taken_iff (once : OnceEach conversation) {delta : String}
    (some_ : delta ≠ "") {before behind : List Item} {item : Item}
    (whole : conversation.view.items = before ++ item :: behind)
    : entries (before ++ item.extend delta :: behind)
        = finalEntries conversation.texts ++ [(some (conversation.streamed ++ delta),
            some .intermediate)]
      ↔ conversation.streamed ≠ "" ∧ item.type = .assistant
        ∧ ∀ later ∈ behind, later.type ≠ .assistant := by
  have messages := once.messages
  rw [whole, entries_around] at messages
  rw [entries_around, ← entries_eq_nil]
  by_cases assistant : item.type = .assistant
  · rw [Item.entry_of_assistant assistant] at messages
    rw [Item.entry_of_assistant (show (item.extend delta).type = .assistant from assistant)]
    simp only [Option.toList_some, List.append_assoc, List.singleton_append] at messages ⊢
    by_cases idle : conversation.streamed = ""
    · refine iff_of_false (fun same => ?_) (fun going => going.1 idle)
      rw [idle, streamedEntries, if_pos rfl] at messages
      have were := congrArg List.length messages
      have are := congrArg List.length same
      simp only [List.length_append, List.length_cons, List.length_nil] at were are
      omega
    · rw [streamedEntries_of_ne idle] at messages
      have differs : ((some conversation.streamed, some .intermediate)
          : Option String × Option Phase)
          ≠ (some (conversation.streamed ++ delta), some .intermediate) := by
        intro same
        have grown : conversation.streamed ++ "" = conversation.streamed ++ delta := by
          simpa using same
        exact some_ ((String.append_right_inj _).mp grown).symm
      rw [changed_last_iff messages differs]
      constructor
      · exact fun last => ⟨idle, assistant, last.1⟩
      · rintro ⟨-, -, last⟩
        rw [last] at messages
        have held := List.singleton_inj.mp (List.append_inj' messages rfl).2
        have text : item.text = some conversation.streamed := congrArg Prod.fst held
        exact ⟨last, by simp [Item.extend, text]⟩
  · rw [Item.entry_of_other assistant] at messages
    rw [Item.entry_of_other (show (item.extend delta).type ≠ .assistant from assistant), messages]
    refine iff_of_false (fun same => ?_) (fun going => assistant going.2.1)
    have ends := List.append_cancel_left same
    by_cases idle : conversation.streamed = ""
    · simp [idle, streamedEntries] at ends
    · rw [streamedEntries_of_ne idle] at ends
      have grown : conversation.streamed ++ "" = conversation.streamed ++ delta := by
        simpa using ends
      exact some_ ((String.append_right_inj _).mp grown).symm

theorem OnceEach.delta_iff (once : OnceEach conversation) {itemId delta : String}
    (some_ : delta ≠ "")
    : entries (conversation.view.applyStreamDelta itemId delta).items
          = finalEntries conversation.texts ++ streamedEntries (conversation.streamed ++ delta)
        ∧ ToolsSilent (conversation.view.applyStreamDelta itemId delta).items
      ↔ CarefulDelta conversation (textOr (some itemId) "stream") := by
  have grows : conversation.streamed ++ delta ≠ "" := by simp [some_]
  have silent := once.silent
  rw [items_applyStreamDelta some_, streamedEntries_of_ne grows, CarefulDelta]
  cases located : locate conversation.view.items (textOr (some itemId) "stream") with
  | none =>
    dsimp only
    rw [once.delta_new_iff rfl, silent_concat, and_iff_left ⟨silent, nofun⟩]
    by_cases idle : conversation.streamed = ""
    · rw [if_pos idle]
      exact iff_of_true idle rfl
    · rw [if_neg idle]
      refine iff_of_false idle ?_
      rintro ⟨before, item, behind, other, -⟩
      rw [located] at other
      cases other
  | some parts =>
    obtain ⟨before, item, behind⟩ := parts
    have whole := (locate_eq located).1
    rw [whole, silent_around] at silent
    dsimp only
    rw [once.delta_taken_iff some_ whole, silent_around]
    by_cases idle : conversation.streamed = ""
    · rw [if_pos idle]
      exact iff_of_false (fun both => both.1.1 idle) nofun
    · rw [if_neg idle]
      constructor
      · exact fun both => ⟨before, item, behind, located, both.1.2⟩
      · rintro ⟨_, _, _, other, assistant, last⟩
        cases located.symm.trans other
        refine ⟨⟨idle, assistant, last⟩, silent.1, ?_, silent.2.2⟩
        simp [Item.extend, assistant]

end Deltas

----------------------------------------
-- Complete messages
----------------------------------------

section Messages

variable {conversation : Conversation} {message : AssistantMessage} {texts : List String}

theorem finalEntries_concat (text : String)
    : finalEntries (texts ++ [text]) = finalEntries texts ++ [(some text, some .final)] := by
  simp [finalEntries]

theorem final_of_mem {entry : Option String × Option Phase} (member : entry ∈ finalEntries texts)
    : entry.2 = some .final := by
  obtain ⟨text, -, rfl⟩ := List.mem_map.mp member
  rfl

theorem mem_entries {items : List Item} {entry : Option String × Option Phase}
    : entry ∈ entries items
      ↔ ∃ item ∈ items, item.type = .assistant ∧ (item.text, item.phase) = entry := by
  simp [entries, Item.entry]

def completeItem (conversation : Conversation) (message : AssistantMessage) : Item where
  id := conversation.view.assistantItemId message.uuid message.messageId
  type := .assistant
  text := some message.text
  phase := some .final

/-- The items with a text that was not streamed. -/
theorem unclaimed_iff {before behind : List Item} {item : Item} {text : String}
    (messages : entries (before ++ item :: behind) = finalEntries texts)
    : entries before ++ (some text, some .final) :: entries behind
        = finalEntries texts ++ [(some text, some .final)]
      ↔ item.type ≠ .assistant
        ∧ ∀ later ∈ behind, later.type = .assistant → later.text = some text := by
  by_cases assistant : item.type = .assistant
  · refine iff_of_false (fun same => ?_) (fun other => other.1 assistant)
    have were := congrArg List.length messages
    have are := congrArg List.length same
    rw [entries_around, Item.entry_of_assistant assistant] at were
    simp only [List.length_append, List.length_cons, List.length_nil, Option.toList_some]
      at were are
    omega
  · rw [entries_around, Item.entry_of_other assistant] at messages
    simp only [Option.toList_none, List.append_nil] at messages
    rw [and_iff_right assistant, ← messages, List.append_assoc, List.append_right_inj,
      cons_eq_concat_iff]
    constructor
    · intro alike later member held
      exact congrArg Prod.fst (alike _ (mem_entries.mpr ⟨later, member, held, rfl⟩))
    · intro alike entry member
      obtain ⟨later, inside, held, rfl⟩ := mem_entries.mp member
      have final := final_of_mem (messages ▸ List.mem_append_right _ member)
      exact Prod.ext (alike later inside held) final

/-- A text that was streamed is replaced by the whole text, exactly in the last item. -/
theorem latest_iff {before behind : List Item} {item : Item} {text streamed : String}
    (messages
      : entries (before ++ item :: behind)
        = finalEntries texts ++ [(some streamed, some .intermediate)])
    : entries before ++ (some text, some .final) :: entries behind
        = finalEntries texts ++ [(some text, some .final)]
      ↔ item.type = .assistant ∧ ∀ later ∈ behind, later.type ≠ .assistant := by
  rw [entries_around] at messages
  rw [← entries_eq_nil]
  by_cases assistant : item.type = .assistant
  · rw [Item.entry_of_assistant assistant, Option.toList_some, List.append_assoc,
      List.singleton_append] at messages
    have differs : ((some streamed, some .intermediate) : Option String × Option Phase)
        ≠ (some text, some .final) := nofun
    rw [changed_last_iff messages differs, and_iff_left rfl, and_iff_right assistant]
  · refine iff_of_false (fun same => ?_) (fun held => assistant held.1)
    rw [Item.entry_of_other assistant] at messages
    have were := congrArg List.length messages
    have are := congrArg List.length same
    simp only [List.length_append, List.length_cons, List.length_nil, Option.toList_none]
      at were are
    omega

theorem items_withText
    : conversation.withText message
      = if message.text = "" then conversation.view.items
        else upsertItem conversation.view.items (completeItem conversation message) true := rfl

theorem silent_withText (silent : ToolsSilent conversation.view.items)
    : ToolsSilent (conversation.withText message) := by
  rw [items_withText]
  split
  · exact silent
  · cases located : locate conversation.view.items (completeItem conversation message).id with
    | none =>
      rw [upsertItem_new located, silent_concat]
      exact ⟨silent, nofun⟩
    | some parts =>
      obtain ⟨before, item, behind⟩ := parts
      rw [(locate_eq located).1, silent_around] at silent
      rw [upsertItem_located located, silent_around]
      exact ⟨silent.1, nofun, silent.2.2⟩

/-- A complete message is one more item, behind all others. -/
theorem OnceEach.text_iff (once : OnceEach conversation)
    : entries (conversation.withText message)
        = finalEntries (if message.text = "" then conversation.texts
          else conversation.texts ++ [message.text])
      ↔ CarefulText conversation message := by
  have messages := once.messages
  rw [items_withText, CarefulText]
  by_cases silent : message.text = ""
  · rw [if_pos silent, if_pos silent, messages]
    by_cases idle : conversation.streamed = ""
    · rw [if_pos idle, idle]
      exact iff_of_true (List.append_nil _) (fun some_ => absurd silent some_)
    · rw [if_neg idle, streamedEntries_of_ne idle]
      exact iff_of_false (by simp) (fun both => both.1 silent)
  · rw [if_neg silent, if_neg silent, finalEntries_concat, and_iff_right silent]
    cases located : locate conversation.view.items (completeItem conversation message).id with
    | none =>
      have missing : locate conversation.view.items
          (conversation.view.assistantItemId message.uuid message.messageId) = none := located
      rw [upsertItem_new located, entries_concat, messages]
      by_cases idle : conversation.streamed = ""
      · rw [if_pos idle, idle]
        refine iff_of_true ?_ (fun _ _ _ _ found => ?_)
        · rw [streamedEntries, if_pos rfl, List.append_nil]
          rfl
        · rw [missing] at found
          cases found
      · rw [if_neg idle, streamedEntries_of_ne idle]
        refine iff_of_false (fun same => ?_) ?_
        · have lengths := congrArg List.length same
          simp [completeItem, Item.entry] at lengths
        · rintro ⟨_, _, _, found, -⟩
          rw [missing] at found
          cases found
    | some parts =>
      obtain ⟨before, item, behind⟩ := parts
      have found : locate conversation.view.items
          (conversation.view.assistantItemId message.uuid message.messageId)
          = some (before, item, behind) := located
      rw [(locate_eq located).1] at messages
      have items : entries (before ++ completeItem conversation message :: behind)
          = entries before ++ (some message.text, some .final) :: entries behind := by
        rw [entries_around, List.append_assoc]
        rfl
      rw [upsertItem_located located]
      change entries (before ++ completeItem conversation message :: behind) = _ ↔ _
      rw [items]
      by_cases idle : conversation.streamed = ""
      · rw [idle, streamedEntries, if_pos rfl, List.append_nil] at messages
        rw [if_pos idle, unclaimed_iff messages, Unclaimed]
        constructor
        · intro unclaimed _ _ _ _ other
          cases found.symm.trans other
          exact unclaimed
        · exact fun unclaimed => unclaimed silent before item behind found
      · rw [streamedEntries_of_ne idle] at messages
        rw [if_neg idle, latest_iff messages, Latest]
        constructor
        · exact fun latest => ⟨before, item, behind, found, latest⟩
        · rintro ⟨_, _, _, other, latest⟩
          cases found.symm.trans other
          exact latest

def Texted (items : List Item) : Prop := ∀ entry ∈ entries items, entry.1 ≠ none

theorem OnceEach.texted (once : OnceEach conversation) : Texted conversation.view.items := by
  intro entry member
  rw [once.messages] at member
  rcases List.mem_append.mp member with complete | streamed
  · obtain ⟨text, -, rfl⟩ := List.mem_map.mp complete
    exact nofun
  · unfold streamedEntries at streamed
    split at streamed
    · cases streamed
    · rw [List.mem_singleton.mp streamed]
      exact nofun

theorem texted_withText {message : AssistantMessage} (texted : Texted conversation.view.items)
    : Texted (conversation.withText message) := by
  intro entry member
  rw [items_withText] at member
  split at member
  · exact texted entry member
  · cases located : locate conversation.view.items (completeItem conversation message).id with
    | none =>
      rw [upsertItem_new located, entries_concat] at member
      rcases List.mem_append.mp member with old | new
      · exact texted entry old
      · rw [List.mem_singleton.mp new]
        exact nofun
    | some parts =>
      obtain ⟨before, item, behind⟩ := parts
      rw [upsertItem_located located, entries_around] at member
      rw [Texted, (locate_eq located).1, entries_around] at texted
      rcases List.mem_append.mp member with earlier | later
      · rcases List.mem_append.mp earlier with old | new
        · exact texted entry (List.mem_append_left _ (List.mem_append_left _ old))
        · rw [List.mem_singleton.mp new]
          exact nofun
      · exact texted entry (List.mem_append_right _ later)

end Messages

----------------------------------------
-- Tool uses
----------------------------------------

section Tools

variable [PyRepr] {items : List Item} {tool : ToolUse} {tools : List ToolUse}

theorem applyToolUse_eq (items : List Item) (tool : ToolUse)
    : ∃ item : Item, item.type = .toolCall ∧ item.text = none ∧ item.id = tool.itemId items
      ∧ (∀ existing, item.placedOver existing false = existing.update item)
      ∧ applyToolUse items tool = upsertItem items item false :=
  ⟨_, rfl, rfl, rfl, fun _ => rfl, rfl⟩

theorem silent_applyToolUse
    : ToolsSilent (applyToolUse items tool)
      ↔ ToolsSilent items
        ∧ ∀ item, findItem items (tool.itemId items) = some item → item.text = none := by
  obtain ⟨item, type, text, id, placed, applied⟩ := applyToolUse_eq items tool
  rw [applied, ← id, findItem]
  cases located : locate items item.id with
  | none =>
    rw [upsertItem_new located, silent_concat]
    refine and_congr_right (fun _ => iff_of_true (fun _ => text) (fun _ found => ?_))
    cases found
  | some parts =>
    obtain ⟨before, existing, behind⟩ := parts
    have kept : (existing.update item).text = existing.text := by simp [Item.update, text]
    have typed : (existing.update item).type = .toolCall := type
    rw [upsertItem_located located, (locate_eq located).1, silent_around, silent_around, placed,
      kept]
    simp only [Option.map_some, Option.some.injEq, forall_eq']
    constructor
    · exact fun both => ⟨⟨both.1, fun _ => both.2.1 typed, both.2.2⟩, both.2.1 typed⟩
    · exact fun both => ⟨both.1.1, fun _ => both.2, both.1.2.2⟩

theorem entries_applyToolUse (texted : Texted items)
    (apart : ∀ item, findItem items (tool.itemId items) = some item → item.text = none)
    : entries (applyToolUse items tool) = entries items := by
  obtain ⟨item, type, -, id, placed, applied⟩ := applyToolUse_eq items tool
  rw [← id, findItem] at apart
  rw [applied]
  cases located : locate items item.id with
  | none =>
    have other : item.type ≠ .assistant := by simp [type]
    rw [upsertItem_new located, entries_concat, Item.entry_of_other other]
    exact List.append_nil _
  | some parts =>
    obtain ⟨before, existing, behind⟩ := parts
    have whole := (locate_eq located).1
    have textless : existing.text = none := apart existing (by rw [located]; rfl)
    have was : existing.type ≠ .assistant := by
      intro assistant
      have member : (existing.text, existing.phase) ∈ entries items :=
        mem_entries.mpr ⟨existing, by rw [whole]; simp, assistant, rfl⟩
      exact texted _ member textless
    have is : (existing.update item).type ≠ .assistant := by
      rw [show (existing.update item).type = item.type from rfl, type]
      exact nofun
    rw [upsertItem_located located, placed, whole, entries_around, entries_around,
      Item.entry_of_other was, Item.entry_of_other is]

theorem silent_foldl
    : ToolsSilent (tools.foldl applyToolUse items)
      ↔ ToolsSilent items ∧ ToolsApart items tools := by
  induction tools generalizing items with
  | nil => exact (and_iff_left trivial).symm
  | cons tool rest ih =>
    rw [List.foldl_cons, ih, silent_applyToolUse, ToolsApart, and_assoc]

theorem entries_foldl (texted : Texted items) (apart : ToolsApart items tools)
    : entries (tools.foldl applyToolUse items) = entries items := by
  induction tools generalizing items with
  | nil => rfl
  | cons tool rest ih =>
    have same := entries_applyToolUse texted apart.1
    have still : Texted (applyToolUse items tool) := by
      rw [Texted, same]
      exact texted
    rw [List.foldl_cons, ih still apart.2, same]

end Tools

----------------------------------------
-- User messages
----------------------------------------

section Users

variable {conversation : Conversation}

theorem OnceEach.of_items (once : OnceEach conversation) {view : ViewState}
    (same : entries view.items = entries conversation.view.items)
    (silent : ToolsSilent conversation.view.items → ToolsSilent view.items)
    : OnceEach { conversation with view } :=
  ⟨same.trans once.messages, silent once.silent⟩

theorem OnceEach.applyToolResult (once : OnceEach conversation) (toolUseId : Option String)
    (content : String) (isError : Bool)
    : OnceEach { conversation with
        view := conversation.view.applyToolResult toolUseId content isError } := by
  unfold ViewState.applyToolResult
  split
  · split
    · exact once
    · next itemId _ =>
        have kept := @entries_modifyItem conversation.view.items itemId
          (·.withResult content isError) (fun _ => ⟨rfl, rfl, rfl⟩)
        exact once.of_items kept.1 kept.2.mpr
  · exact once

theorem OnceEach.applyUser (once : OnceEach conversation) (text : String) (uuid : Option String)
    : OnceEach { conversation with view := conversation.view.applyUser text uuid } := by
  apply once.of_items
  all_goals
    unfold ViewState.applyUser
    dsimp only
    split
  · rfl
  · rw [entries_concat]
    exact List.append_nil _
  · exact id
  · rw [silent_concat]
    exact fun silent => ⟨silent, nofun⟩

end Users

----------------------------------------
-- Steps
----------------------------------------

section Steps

variable [PyRepr] {conversation : Conversation}

theorem OnceEach.assistant_iff (once : OnceEach conversation) (message : AssistantMessage)
    : OnceEach (conversation.take (.assistant message))
      ↔ CarefulMessage conversation (.assistant message) := by
  have items : (conversation.take (.assistant message)).view.items
      = message.toolUses.foldl applyToolUse (conversation.withText message) := rfl
  have silent := @silent_withText conversation message once.silent
  have texted : Texted (conversation.withText message) := texted_withText once.texted
  constructor
  · intro after
    have apart := (silent_foldl.mp (items ▸ after.silent)).2
    have messages := after.messages
    rw [items, entries_foldl texted apart] at messages
    exact ⟨once.text_iff.mp (messages.trans (List.append_nil _)), apart⟩
  · rintro ⟨text, apart⟩
    refine ⟨?_, ?_⟩
    · rw [items, entries_foldl texted apart, once.text_iff.mpr text]
      exact (List.append_nil _).symm
    · rw [items]
      exact silent_foldl.mpr ⟨silent, apart⟩

theorem textDelta_ne {event : JsonObject} {itemId delta : String}
    (found : textDelta event = some (itemId, delta))
    : delta ≠ "" := by
  unfold textDelta at found
  split at found
  · split at found
    · split at found
      · split at found
        · split at found
          · cases found
          · next some_ =>
              cases found
              exact some_
        · cases found
      · cases found
    · cases found
  · cases found

theorem OnceEach.streamEvent_iff (once : OnceEach conversation) (event : JsonObject)
    : OnceEach (conversation.take (.streamEvent event))
      ↔ CarefulMessage conversation (.streamEvent event) := by
  cases found : textDelta event with
  | none =>
    have same : conversation.take (.streamEvent event) = conversation := by
      simp [Conversation.take, normalizeSdkMessage, deltaText, found]
    rw [same, CarefulMessage, found]
    exact iff_of_true once (fun _ _ => nofun)
  | some parts =>
    obtain ⟨itemId, delta⟩ := parts
    have taken : conversation.take (.streamEvent event)
        = { conversation with
            view := conversation.view.applyStreamDelta itemId delta
            streamed := conversation.streamed ++ delta } := by
      simp [Conversation.take, normalizeSdkMessage, deltaText, found, ViewState.applyEvent]
    have delta_iff := @OnceEach.delta_iff conversation once itemId delta (textDelta_ne found)
    rw [taken, CarefulMessage, found]
    constructor
    · rintro after _ _ ⟨⟩
      exact delta_iff.mp ⟨after.messages, after.silent⟩
    · intro careful
      obtain ⟨messages, silent⟩ := delta_iff.mpr (careful itemId delta rfl)
      exact ⟨messages, silent⟩

/-- A user message leaves the assistant items as they are. -/
theorem OnceEach.user (once : OnceEach conversation) (message : UserMessage)
    : OnceEach (conversation.take (.user message)) := by
  change OnceEach { conversation with
    view := conversation.view.applyEvent (normalizeUser message) }
  unfold normalizeUser
  split
  · exact once.applyToolResult _ _ _
  · exact once.applyUser _ _

/-- The result of a turn adds an item exactly if there is no assistant item. -/
theorem OnceEach.result_iff (once : OnceEach conversation) (idle : conversation.streamed = "")
    (message : ResultMessage)
    : OnceEach (conversation.take (.result message))
      ↔ CarefulMessage conversation (.result message) := by
  have messages := once.messages
  rw [idle, streamedEntries, if_pos rfl, List.append_nil] at messages
  have items : (conversation.take (.result message)).view.items
      = if message.subtype = some "success" ∧ message.result.getD "" ≠ "" then
          keepResult conversation.view.items message.sessionId (message.result.getD "")
        else conversation.view.items := rfl
  by_cases told : message.subtype = some "success" ∧ message.result.getD "" ≠ ""
  · rw [if_pos told, keepResult] at items
    by_cases answered : ∃ item ∈ conversation.view.items, item.type = .assistant
    · refine iff_of_true ?_ (fun _ _ => answered)
      rw [if_pos (by simpa using answered), finishLast_eq] at items
      · exact ⟨items ▸ once.messages, items ▸ once.silent⟩
      · intro item member assistant
        have inside := mem_entries.mpr ⟨item, member, assistant, rfl⟩
        exact final_of_mem (messages ▸ inside)
    · refine iff_of_false (fun after => ?_) (fun careful => answered (careful told.1 told.2))
      rw [if_neg (by simpa using answered)] at items
      have lengths := congrArg List.length (items ▸ after.messages)
      rw [entries_concat, messages] at lengths
      simp [Conversation.take, idle, streamedEntries, Item.entry] at lengths
  · rw [if_neg told] at items
    exact iff_of_true ⟨items ▸ once.messages, items ▸ once.silent⟩
      (fun success some_ => absurd ⟨success, some_⟩ told)

theorem OnceEach.take_iff (once : OnceEach conversation) {message : SdkMessage}
    (complete : ∀ result, message = .result result → conversation.streamed = "")
    : OnceEach (conversation.take message) ↔ CarefulMessage conversation message := by
  cases message with
  | user message => exact iff_of_true (once.user message) trivial
  | assistant message => exact once.assistant_iff message
  | result message => exact once.result_iff (complete message rfl) message
  | system subtype data => exact iff_of_true ⟨once.messages, once.silent⟩ trivial
  | streamEvent event => exact once.streamEvent_iff event
  | other => exact iff_of_true ⟨once.messages, once.silent⟩ trivial

/-- Every state of a conversation has each message once exactly when every message is careful. -/
theorem onceEach_iff {messages : List SdkMessage}
    : Run ConversationFresh (fun conversation message next =>
        ConversationStep conversation message next ∧ OnceEach next) messages conversation
      ↔ Run ConversationFresh (fun conversation message next =>
        ConversationStep conversation message next ∧ CarefulMessage conversation message)
        messages conversation := by
  apply @Run.iff_of_invariant _ _ _ _ OnceEach
  · rintro _ rfl
    exact ⟨rfl, List.forall_mem_nil _⟩
  · exact fun _ _ _ _ step => step.2
  · intro before message next once
    refine and_congr_right (fun step => ?_)
    rw [step.taken]
    exact once.take_iff step.complete

end Steps

namespace StreamedTurn

local instance : PyRepr := ⟨fun _ => ""⟩

def delta : JsonObject := .ofList [("type", .str "content_block_delta"), ("index", .int 0),
  ("delta", .obj (.ofList [("type", .str "text_delta"), ("text", .str "a")]))]

def turn : List SdkMessage :=
  [.user { content := .value (.str "hi"), uuid := some "u" }, .streamEvent delta,
    .assistant { content := [.text (some "a")], uuid := some "m" },
    .result { subtype := some "success", result := some "a" }]

/-- The message is there twice. -/
theorem not_onceEach
    : ∃ conversation, Run ConversationFresh ConversationStep turn conversation
        ∧ ¬ OnceEach conversation := by
  have fresh : ConversationFresh {} := rfl
  refine ⟨_, ⟨{}, fresh, .cons ⟨rfl, nofun⟩ (.cons ⟨rfl, nofun⟩ (.cons ⟨rfl, nofun⟩
    (.cons ⟨rfl, ?_⟩ (.nil _))))⟩, fun once => ?_⟩
  · exact fun _ _ => rfl
  · exact absurd once.messages (by decide)

end StreamedTurn

end Murder.AgentSdk

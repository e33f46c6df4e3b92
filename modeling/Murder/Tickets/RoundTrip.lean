import Murder.Tickets.Markdown

/-! Rows rendered to markdown and parsed again.
A stored row is read back unless its harness or model is missing, or one of its texts does not
stand on a line of its own.
-/

namespace Murder.Tickets

open Contracts Library.Trimming

/-- A text without spaces at its ends that is not empty. -/
structure Trimmed (text : String) : Prop where
  stripped : strip text = text
  some_ : text ≠ ""

section Texts

variable {text other : String}

theorem nonEmptyStrip_trimmed (h : nonEmptyStrip text = some other) : Trimmed other := by
  unfold nonEmptyStrip at h
  split at h
  · cases h
  · next some_ =>
      cases h
      exact ⟨strip_strip text, some_⟩

theorem Trimmed.nonEmptyStrip (trimmed : Trimmed text) : nonEmptyStrip text = some text := by
  unfold Tickets.nonEmptyStrip
  rw [trimmed.stripped, if_neg trimmed.some_]

theorem optionalNonEmptyStr_trimmed {value : Yaml} (h : optionalNonEmptyStr value = some text)
    : Trimmed text := by
  unfold optionalNonEmptyStr at h
  split at h
  · exact nonEmptyStrip_trimmed h
  · cases h

theorem optionalStringField_trimmed {name : String} {value : Yaml}
    (h : (optionalStringField name value).1 = some text)
    : Trimmed text := by
  unfold optionalStringField at h
  split at h
  · cases h
  · exact nonEmptyStrip_trimmed h
  · cases h

theorem optionalStringField_ofOption {name : String} {value : Option String}
    (trimmed : ∀ text ∈ value, Trimmed text)
    : optionalStringField name (.ofOption value) = (value, []) := by
  cases value with
  | none => rfl
  | some text =>
    have same := (trimmed text rfl).nonEmptyStrip
    simp only [Yaml.ofOption, optionalStringField, same]

theorem strItems_trimmed {items : List Yaml} {texts : List String}
    (h : strItems items = some texts)
    : ∀ text ∈ texts, Trimmed text := by
  induction items generalizing texts with
  | nil =>
    cases h
    exact fun _ none_ => absurd none_ List.not_mem_nil
  | cons item rest ih =>
    cases item with
    | str text =>
      obtain ⟨later, read, same⟩ := Option.map_eq_some_iff.mp h
      rw [← same]
      intro other member
      rcases List.mem_append.mp member with first | among
      · exact nonEmptyStrip_trimmed (Option.mem_toList.mp first)
      · exact ih read other among
    | null => cases h
    | list _ => cases h
    | mapping _ => cases h
    | scalar _ => cases h

theorem coerceStrList_trimmed {name : String} {value : Yaml}
    : ∀ text ∈ (coerceStrList name value).1, Trimmed text := by
  intro text member
  unfold coerceStrList at member
  split at member
  · cases member
  · exact nonEmptyStrip_trimmed (Option.mem_toList.mp member)
  · split at member
    · next result read => exact strItems_trimmed read text member
    · cases member
  · cases member

theorem strItems_str {texts : List String} (trimmed : ∀ text ∈ texts, Trimmed text)
    : strItems (texts.map .str) = some texts := by
  induction texts with
  | nil => rfl
  | cons text rest ih =>
    have own := (trimmed text List.mem_cons_self).nonEmptyStrip
    have later := ih (fun other among => trimmed other (List.mem_cons_of_mem _ among))
    simp only [List.map_cons, strItems, own, later, Option.map_some, Option.toList_some,
      List.singleton_append]

end Texts

/-- A trimmed text on one line. -/
structure PlainText (text : String) : Prop where
  trimmed : Trimmed text
  line : ∀ c ∈ text.toList, isLineBreak c = false

variable {items : List TicketChecklistItem}

section Checklists

variable {line : String} {item : TicketChecklistItem}

theorem mem_of_mem_strip {text : String} {c : Char} (member : c ∈ (strip text).toList)
    : c ∈ text.toList := by
  rw [toList_strip] at member
  exact mem_of_mem_trim member

theorem checklistItem?_plain (closed : ∀ c ∈ line.toList, isLineBreak c = false)
    (h : checklistItem? line = some item)
    : PlainText item.text := by
  unfold checklistItem? at h
  split at h
  · next mark space rest chars =>
      split at h
      · obtain ⟨text, read, same⟩ := Option.map_eq_some_iff.mp h
        rw [← same]
        refine ⟨nonEmptyStrip_trimmed read, fun c inside => closed c ?_⟩
        unfold nonEmptyStrip at read
        split at read
        · cases read
        · cases read
          have among := mem_of_mem_strip inside
          rw [String.toList_ofList] at among
          rw [chars]
          simp [among]
      · cases h
  · cases h

theorem checklistItems_plain {lines : List String}
    (closed : ∀ line ∈ lines, ∀ c ∈ line.toList, isLineBreak c = false)
    : ∀ item ∈ checklistItems lines, PlainText item.text := by
  induction lines with
  | nil => exact fun _ none_ => absurd none_ List.not_mem_nil
  | cons line rest ih =>
    have later := ih (fun other among => closed other (List.mem_cons_of_mem _ among))
    intro item member
    unfold checklistItems at member
    split at member
    · cases member
    · rcases List.mem_append.mp member with first | among
      · refine checklistItem?_plain (fun c inside => ?_) (Option.mem_toList.mp first)
        exact closed line List.mem_cons_self c (mem_of_mem_strip inside)
      · exact later item among

/-- Every parsed item stands on a line of its own. -/
theorem parseChecklist_plain {body : String}
    : ∀ item ∈ parseChecklist body, PlainText item.text := by
  refine checklistItems_plain (fun line member => ?_)
  have listed := (List.dropWhile_sublist _).subset (List.mem_of_mem_tail member)
  exact textLines_closed listed

def markOf (item : TicketChecklistItem) : Char := if item.done then 'x' else ' '

theorem toList_renderItem
    : (renderItem item).toList = '[' :: markOf item :: ']' :: ' ' :: item.text.toList := by
  unfold renderItem markOf
  cases item.done with
  | false => simp
  | true => simp

theorem Trimmed.getLast {text : String} (trimmed : Trimmed text)
    : ∃ c, text.toList.getLast? = some c ∧ isSpace c = false := by
  have listed : trim isSpace text.toList = text.toList := by
    rw [← toList_strip, trimmed.stripped]
  have some_ : text.toList ≠ [] := fun empty => trimmed.some_ (String.toList_eq_nil_iff.mp empty)
  refine ⟨_, List.getLast?_eq_some_getLast some_, Bool.eq_false_iff.mpr ?_⟩
  exact (trim_ends listed).2 _ (List.getLast?_eq_some_getLast some_)

theorem getLast_renderItem {c : Char} (last : item.text.toList.getLast? = some c)
    : (renderItem item).toList.getLast? = some c := by
  rw [toList_renderItem]
  cases chars : item.text.toList with
  | nil =>
    rw [chars] at last
    cases last
  | cons first rest =>
    rw [chars] at last
    simpa using last

theorem strip_renderItem (trimmed : Trimmed item.text)
    : strip (renderItem item) = renderItem item := by
  obtain ⟨c, last, solid⟩ := trimmed.getLast
  rw [← String.toList_inj, toList_strip]
  refine trim_of_ends (fun first leads => ?_) (fun other ends => ?_)
  · rw [toList_renderItem] at leads
    cases leads
    decide
  · rw [getLast_renderItem last] at ends
    cases ends
    exact Bool.eq_false_iff.mp solid

theorem checklistItem?_renderItem (trimmed : Trimmed item.text)
    : checklistItem? (renderItem item) = some item := by
  have own := trimmed.nonEmptyStrip
  have marks : markOf item = ' ' ∨ markOf item = 'x' ∨ markOf item = 'X' := by
    unfold markOf
    cases item.done with
    | false => exact .inl rfl
    | true => exact .inr (.inl rfl)
  have done : decide (markOf item ≠ ' ') = item.done := by
    unfold markOf
    cases item.done with
    | false => rfl
    | true => rfl
  have space : isSpace ' ' = true := rfl
  unfold checklistItem?
  simp only [toList_renderItem, String.ofList_toList, own, if_pos (And.intro marks space),
    Option.map_some, done]

theorem isLevelOneHeader_renderItem : isLevelOneHeader (renderItem item) = false := by
  unfold isLevelOneHeader
  rw [toList_renderItem]
  rfl

theorem checklistItems_renderItem (plain : ∀ item ∈ items, PlainText item.text)
    : checklistItems (items.map renderItem) = items := by
  induction items with
  | nil => rfl
  | cons item rest ih =>
    have trimmed := (plain item List.mem_cons_self).trimmed
    have later := ih (fun other among => plain other (List.mem_cons_of_mem _ among))
    rw [List.map_cons, checklistItems, strip_renderItem trimmed, isLevelOneHeader_renderItem,
      checklistItem?_renderItem trimmed, later]
    rfl

def bodyLines (items : List TicketChecklistItem) : List String :=
  checklistHeader :: items.map renderItem

theorem bodyLines_ne_nil : bodyLines items ≠ [] :=
  List.cons_ne_nil _ _

theorem bodyLines_closed (plain : ∀ item ∈ items, PlainText item.text)
    : ∀ line ∈ bodyLines items, ∀ c ∈ line.toList, isLineBreak c = false := by
  intro line member c inside
  rcases List.mem_cons.mp member with header | listed
  · rw [header] at inside
    have closed : ∀ c ∈ checklistHeader.toList, isLineBreak c = false :=
      forall_mem_of_all (by decide)
    exact closed c inside
  · obtain ⟨item, among, rfl⟩ := List.mem_map.mp listed
    rw [toList_renderItem] at inside
    rcases List.mem_cons.mp inside with same | inside
    · rw [same]
      rfl
    · rcases List.mem_cons.mp inside with same | inside
      · rw [same, markOf]
        cases item.done with
        | false => rfl
        | true => rfl
      · rcases List.mem_cons.mp inside with same | inside
        · rw [same]
          rfl
        · rcases List.mem_cons.mp inside with same | inside
          · rw [same]
            rfl
          · exact (plain item among).line c inside

theorem getLast_bodyLines (plain : ∀ item ∈ items, PlainText item.text)
    : ∃ c, (joinLines (bodyLines items)).toList.getLast? = some c ∧ isSpace c = false := by
  rcases List.eq_nil_or_concat items with empty | ⟨front, item, same⟩
  · rw [empty]
    exact ⟨'t', by decide +kernel, rfl⟩
  · obtain ⟨c, last, solid⟩ := (plain item (by simp [same])).trimmed.getLast
    have lines : bodyLines items = bodyLines front ++ [renderItem item] := by
      simp [bodyLines, same]
    refine ⟨c, ?_, solid⟩
    rw [lines, joinLines_concat bodyLines_ne_nil, String.toList_append,
      List.getLast?_append, getLast_renderItem last]
    rfl

/-- Nothing is cut off the end of the rendered lines. -/
theorem renderBody_plain {row : TicketRow} (plain : ∀ item ∈ row.checklist, PlainText item.text)
    : row.renderBody = joinLines (bodyLines row.checklist ++ [""]) := by
  obtain ⟨c, last, solid⟩ := getLast_bodyLines plain
  have kept : rstrip (joinLines (bodyLines row.checklist))
      = joinLines (bodyLines row.checklist) := by
    rw [rstrip, ← String.toList_inj, String.toList_ofList, List.rdropWhile_eq_self_iff]
    intro some_ space
    rw [List.getLast?_eq_some_getLast some_] at last
    cases last
    rw [solid] at space
    cases space
  have body : row.renderBody = rstrip (joinLines (bodyLines row.checklist)) ++ "\n" := rfl
  rw [body, kept, joinLines_concat bodyLines_ne_nil, String.append_empty]

theorem parseChecklist_renderBody {row : TicketRow}
    (plain : ∀ item ∈ row.checklist, PlainText item.text)
    : parseChecklist row.renderBody = row.checklist := by
  have lines : textLines row.renderBody = bodyLines row.checklist := by
    have closed : ∀ line ∈ bodyLines row.checklist ++ [""], ∀ c ∈ line.toList,
        isLineBreak c = false := by
      intro line member
      rcases List.mem_append.mp member with listed | last
      · exact bodyLines_closed plain line listed
      · rw [List.mem_singleton.mp last]
        exact fun c inside => absurd inside List.not_mem_nil
    rw [renderBody_plain plain, textLines_joinLines closed, List.getLast?_concat, if_pos rfl,
      List.dropLast_concat]
  have header : isChecklistHeader (strip checklistHeader) = true := by decide +kernel
  unfold parseChecklist
  rw [lines, bodyLines, List.dropWhile_cons_of_neg (by rw [header]; decide), List.tail_cons]
  exact checklistItems_renderItem plain

end Checklists

end Murder.Tickets

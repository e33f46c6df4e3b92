import Murder.Library.Collapses
import Murder.Transcripts.Segments

/-! Adjacent renders of one block collapse to one segment; what the collapsed list keeps. -/

namespace Murder.Transcripts

open Library.Collapses

----------------------------------------
-- The two loops
----------------------------------------

/-- One segment in the loop of `_dedupe_adjacent`. -/
def dedupeStep (result : List Segment) (segment : Segment) : List Segment :=
  match result.getLast? with
  | some prev =>
    match collapse prev segment with
    | some merged => result.dropLast ++ [merged]
    | none => result ++ [segment]
  | none => result ++ [segment]

/-- `_dedupe_adjacent` -/
def dedupeAdjacent (segments : List Segment) : List Segment := segments.foldl dedupeStep []

theorem dedupeStep_concat (result : List Segment) (prev segment : Segment)
    : dedupeStep (result ++ [prev]) segment
      = match collapse prev segment with
        | some merged => result ++ [merged]
        | none => result ++ [prev] ++ [segment] := by
  rw [dedupeStep, List.getLast?_concat, List.dropLast_concat]

theorem foldl_dedupeStep {result : List Segment} {prev : Segment} {segments : List Segment}
    : segments.foldl dedupeStep (result ++ [prev])
      = result ++ keptBehind collapse prev segments := by
  induction segments generalizing result prev with
  | nil => rfl
  | cons segment rest ih =>
    rw [List.foldl_cons, keptBehind, dedupeStep_concat]
    cases collapse prev segment with
    | some merged => exact ih
    | none =>
      dsimp only
      rw [ih, List.append_assoc]
      rfl

theorem dedupeAdjacent_eq (segments : List Segment)
    : dedupeAdjacent segments = kept collapse segments := by
  cases segments with
  | nil => rfl
  | cons segment rest => exact @foldl_dedupeStep [] segment rest

def collapseSpanned (prev item : SpannedSegment) : Option SpannedSegment :=
  (collapse prev.segment item.segment).map (mergeSpan prev item)

theorem dedupeAdjacentSpanned_eq (spanned : List SpannedSegment)
    : dedupeAdjacentSpanned spanned = kept collapseSpanned spanned := by
  have behind : ∀ (items : List SpannedSegment) (prev : SpannedSegment),
      dedupeBehind prev items = keptBehind collapseSpanned prev items := by
    intro items
    induction items with
    | nil => exact fun prev => rfl
    | cons item rest ih =>
      intro prev
      rw [dedupeBehind, keptBehind, collapseSpanned]
      cases collapse prev.segment item.segment with
      | some merged => exact ih _
      | none => exact congrArg (prev :: ·) (ih item)
  cases spanned with
  | nil => rfl
  | cons item rest => exact behind rest item

/-- The two loops keep the same segments. -/
theorem payloads_dedupe (spanned : List SpannedSegment)
    : payloads (dedupeAdjacentSpanned spanned) = dedupeAdjacent (payloads spanned) := by
  rw [dedupeAdjacentSpanned_eq, dedupeAdjacent_eq]
  apply map_kept
  intro prev item
  unfold collapseSpanned
  cases collapse prev.segment item.segment <;> simp

----------------------------------------
-- What a kept segment contains
----------------------------------------

def ChoicePromptSegment.shown (prompt : ChoicePromptSegment)
    : String × List (Int × String × Option String) × Option String × Bool :=
  (prompt.question,
    prompt.options.map (fun option => (option.number, option.label, option.description)),
    prompt.footer, prompt.multi)

/-- A segment holds the content of another one: an assistant block a prefix of its text, a tool
call its input and its result, a choice prompt what it shows and its answer.
-/
def Segment.contains (kept original : Segment) : Prop :=
  match kept, original with
  | .assistant kept, .assistant original =>
    original.text.toList <+: kept.text.toList
    ∧ (original.phase = .final → kept.phase = .final)
  | .toolCall kept, .toolCall original =>
    kept.title = original.title
    ∧ (original.input = none ∨ kept.input = original.input)
    ∧ (original.result = none ∨ kept.result = original.result)
    ∧ (original.elided = true → kept.elided = true)
  | .choicePrompt kept, .choicePrompt original =>
    kept.shown = original.shown
    ∧ (original.chosen = none ∨ kept.chosen = original.chosen)
    ∧ (original.answered = true → kept.answered = true)
  | kept, original => kept = original

def sameBlock (prev segment : Segment) : Bool :=
  segment == prev
    || match prev, segment with
      | .toolCall before, .toolCall after => after.title == before.title
      | .assistant before, .assistant after => isStreamingExtension before.text after.text
      | .choicePrompt before, .choicePrompt after =>
        segmentKey (.choicePrompt after) == segmentKey (.choicePrompt before)
      | _, _ => false

theorem collapse_isSome (prev segment : Segment)
    : (collapse prev segment).isSome = sameBlock prev segment := by
  unfold collapse sameBlock
  by_cases same : segment = prev
  · simp [same]
  · rw [if_neg same, beq_eq_false_iff_ne.mpr same, Bool.false_or]
    cases prev <;> cases segment <;> first
      | rfl
      | (dsimp only; split <;> simp_all)

theorem isStreamingExtension_iff {a b : String}
    : isStreamingExtension a b = true ↔ b.toList <+: a.toList ∨ a.toList <+: b.toList := by
  simp [isStreamingExtension]

theorem isStreamingExtension_comm (a b : String)
    : isStreamingExtension a b = isStreamingExtension b a := by
  unfold isStreamingExtension
  exact Bool.or_comm _ _

@[simp] theorem mergeTool_self (call : ToolCallSegment) : mergeTool call call = call := by
  simp [mergeTool]

@[simp] theorem mergeAssistant_self (segment : AssistantSegment)
    : mergeAssistant segment segment = segment := by
  have elapsed : orText segment.elapsed segment.elapsed = segment.elapsed := by
    unfold orText
    split <;> simp_all
  obtain ⟨phase, text, time⟩ := segment
  cases phase <;> simpa [mergeAssistant] using elapsed

@[simp] theorem mergeChoicePrompt_self (prompt : ChoicePromptSegment)
    : mergeChoicePrompt prompt prompt = prompt := by
  simp [mergeChoicePrompt]

/-- Segments that collapse with equal ones only. -/
def Segment.plain : Segment → Prop
  | .assistant _ => False
  | .toolCall _ => False
  | .choicePrompt _ => False
  | _ => True

/-- How two segments collapse. -/
inductive Collapsed : Segment → Segment → Segment → Prop
  | calls {before after} (title : after.title = before.title)
    : Collapsed (.toolCall before) (.toolCall after) (.toolCall (mergeTool before after))
  | renders {before after} (extends_ : isStreamingExtension before.text after.text = true)
    : Collapsed (.assistant before) (.assistant after)
        (.assistant (mergeAssistant before after))
  | prompts {before after}
    (key : segmentKey (.choicePrompt after) = segmentKey (.choicePrompt before))
    : Collapsed (.choicePrompt before) (.choicePrompt after)
        (.choicePrompt (mergeChoicePrompt before after))
  | same {segment} (plain : segment.plain) : Collapsed segment segment segment

theorem Collapsed.self (segment : Segment) : Collapsed segment segment segment := by
  cases segment with
  | assistant segment =>
    have merged := @Collapsed.renders segment segment
      (isStreamingExtension_iff.mpr (.inl (List.prefix_refl _)))
    rwa [mergeAssistant_self] at merged
  | toolCall call =>
    have merged := @Collapsed.calls call call rfl
    rwa [mergeTool_self] at merged
  | choicePrompt prompt =>
    have merged := @Collapsed.prompts prompt prompt rfl
    rwa [mergeChoicePrompt_self] at merged
  | user | planUpdate | agentEvent => exact .same trivial

variable {segment : Segment}

theorem Collapsed.of_collapse {prev merged : Segment}
    (collapses : collapse prev segment = some merged)
    : Collapsed prev segment merged := by
  unfold collapse at collapses
  split at collapses
  · next same =>
      cases collapses
      rw [same]
      exact .self prev
  split at collapses
  · split at collapses <;> cases collapses
    exact .calls ‹_›
  · split at collapses <;> cases collapses
    exact .renders ‹_›
  · split at collapses <;> cases collapses
    exact .prompts ‹_›
  · cases collapses

----------------------------------------
-- What a block of renders sums up to
----------------------------------------

def Segment.assistant? : Segment → Option AssistantSegment
  | .assistant segment => some segment
  | _ => none

def Segment.toolCall? : Segment → Option ToolCallSegment
  | .toolCall call => some call
  | _ => none

def Segment.choicePrompt? : Segment → Option ChoicePromptSegment
  | .choicePrompt prompt => some prompt
  | _ => none

def lastCall (calls : List ToolCallSegment) : Option ToolCallSegment :=
  (calls.findRev? (·.result.isSome)).or calls.getLast?

/-- A block of renders holds the content of a segment: its longest text, its last call with a
result, its last prompt with the first answer.
-/
def keptIn (block : List Segment) (original : Segment) : Prop :=
  match original with
  | .assistant original =>
    (∃ render ∈ block.filterMap Segment.assistant?,
      original.text.toList <+: render.text.toList)
    ∧ (original.phase = .final
      → ∃ render ∈ block.filterMap Segment.assistant?, render.phase = .final)
  | .toolCall original =>
    let calls := block.filterMap Segment.toolCall?
    ∃ call, lastCall calls = some call
      ∧ call.title = original.title
      ∧ (original.input = none ∨ call.input = original.input)
      ∧ (original.result = none ∨ call.result = original.result)
      ∧ (original.elided = true → calls.any (·.elided) = true)
  | .choicePrompt original =>
    let prompts := block.filterMap Segment.choicePrompt?
    ∃ prompt, prompts.getLast? = some prompt
      ∧ prompt.shown = original.shown
      ∧ (original.chosen = none ∨ prompts.findSome? (·.chosen) = original.chosen)
      ∧ (original.answered = true → prompts.any (·.answered) = true)
  | original => original ∈ block

/-- The longest render of a block, final once one of them is. -/
structure SumsRenders (renders : List AssistantSegment) (kept : AssistantSegment) : Prop where
  covers : ∀ render ∈ renders, render.text.toList <+: kept.text.toList
  longest : ∃ render ∈ renders, render.text = kept.text
  final : kept.phase = .final ↔ ∃ render ∈ renders, render.phase = .final

structure SumsCalls (calls : List ToolCallSegment) (kept : ToolCallSegment) : Prop where
  titles : ∀ call ∈ calls, call.title = kept.title
  last : ∃ call, lastCall calls = some call ∧ kept = { call with elided := kept.elided }
  elided : kept.elided = calls.any (·.elided)

structure SumsPrompts (prompts : List ChoicePromptSegment) (kept : ChoicePromptSegment)
    : Prop where
  keys
    : ∀ prompt ∈ prompts,
        segmentKey (.choicePrompt prompt) = segmentKey (.choicePrompt kept)
  last
    : ∃ prompt, prompts.getLast? = some prompt
      ∧ kept = { prompt with answered := kept.answered, chosen := kept.chosen }
  answered : kept.answered = prompts.any (·.answered)
  chosen : kept.chosen = prompts.findSome? (·.chosen)

/-- A block of renders and the segment it is kept as. -/
inductive Sums (block : List Segment) : Segment → Prop
  | renders {renders kept} (listed : block = renders.map .assistant)
    (sums : SumsRenders renders kept)
    : Sums block (.assistant kept)
  | calls {calls kept} (listed : block = calls.map .toolCall) (sums : SumsCalls calls kept)
    : Sums block (.toolCall kept)
  | prompts {prompts kept} (listed : block = prompts.map .choicePrompt)
    (sums : SumsPrompts prompts kept)
    : Sums block (.choicePrompt kept)
  | same {kept} (plain : kept.plain) (equal : ∀ segment ∈ block, segment = kept)
    (some_ : kept ∈ block)
    : Sums block kept

theorem Sums.single (segment : Segment) : Sums [segment] segment := by
  cases segment with
  | assistant render =>
    exact @Sums.renders _ [render] _ rfl ⟨by simp, by simp, by simp⟩
  | toolCall call =>
    refine @Sums.calls _ [call] _ rfl ⟨by simp, ⟨call, ?_, rfl⟩, by simp⟩
    cases given : call.result.isSome <;> simp [lastCall, List.findRev?, given]
  | choicePrompt prompt =>
    exact @Sums.prompts _ [prompt] _ rfl ⟨by simp, ⟨prompt, rfl, rfl⟩, by simp,
      by cases given : prompt.chosen <;> simp [given]⟩
  | user | planUpdate | agentEvent => exact .same trivial (by simp) (by simp)

variable {calls : List ToolCallSegment} {after : ToolCallSegment}

theorem lastCall_concat {call : ToolCallSegment} (last : lastCall calls = some call)
    : lastCall (calls ++ [after])
      = some (if after.result.isNone && call.result.isSome then call else after) := by
  unfold lastCall at last ⊢
  simp only [List.findRev?_eq_find?_reverse, List.reverse_append, List.reverse_singleton,
    List.singleton_append, List.getLast?_concat, List.find?_cons] at last ⊢
  cases given : after.result with
  | some result => simp
  | none =>
    simp only [Option.isSome_none, Option.isNone_none, Bool.true_and]
    cases found : calls.reverse.find? (·.result.isSome) with
    | some other =>
      rw [found] at last
      cases last
      rw [if_pos (List.find?_some found)]
      rfl
    | none =>
      rw [found] at last
      have member : call ∈ calls.reverse :=
        List.mem_reverse.mpr (List.mem_of_getLast? last)
      rw [if_neg (List.find?_eq_none.mp found call member)]
      rfl

theorem mergeTool_title {before : ToolCallSegment} (title : after.title = before.title)
    : (mergeTool before after).title = before.title := by
  unfold mergeTool
  split
  · rfl
  · exact title

theorem SumsCalls.exists_call {kept : ToolCallSegment} (sums : SumsCalls calls kept)
    : ∃ call, call ∈ calls := by
  cases calls with
  | nil =>
    obtain ⟨call, last, -⟩ := sums.last
    cases last
  | cons call rest => exact ⟨call, List.mem_cons_self⟩

theorem SumsCalls.concat {kept : ToolCallSegment}
    (sums : SumsCalls calls kept) (title : after.title = kept.title)
    : SumsCalls (calls ++ [after]) (mergeTool kept after) := by
  obtain ⟨titles, ⟨call, last, same⟩, elided⟩ := sums
  have result : kept.result = call.result := by rw [same]
  refine ⟨?_, ⟨_, lastCall_concat last, ?_⟩, ?_⟩
  · rw [mergeTool_title title]
    intro other member
    rcases List.mem_append.mp member with earlier | own
    · exact titles other earlier
    · rw [List.mem_singleton.mp own]
      exact title
  · unfold mergeTool
    rw [result]
    split
    · rw [same]
    · rfl
  · simp [mergeTool, elided, List.any_append]

theorem mergeAssistant_text {before after : AssistantSegment}
    (extends_ : isStreamingExtension before.text after.text = true)
    : before.text.toList <+: (mergeAssistant before after).text.toList
      ∧ after.text.toList <+: (mergeAssistant before after).text.toList
      ∧ ((mergeAssistant before after).text = before.text
        ∨ (mergeAssistant before after).text = after.text) := by
  have text : (mergeAssistant before after).text
      = if before.text.length ≤ after.text.length then after.text else before.text := by
    unfold mergeAssistant
    dsimp only
    split <;> rfl
  rw [text]
  rcases isStreamingExtension_iff.mp extends_ with shorter | longer
  · split
    · next fits =>
        have same : after.text.toList = before.text.toList :=
          shorter.eq_of_length_le (by simpa only [String.length_toList] using fits)
        exact ⟨same ▸ List.prefix_refl _, List.prefix_refl _, .inr rfl⟩
    · exact ⟨List.prefix_refl _, shorter, .inl rfl⟩
  · split
    · exact ⟨longer, List.prefix_refl _, .inr rfl⟩
    · next short => 
        exact absurd (by simpa only [String.length_toList] using longer.length_le) short

theorem mergeAssistant_final {before after : AssistantSegment}
    : (mergeAssistant before after).phase = .final
      ↔ before.phase = .final ∨ after.phase = .final := by
  unfold mergeAssistant
  dsimp only
  constructor
  · intro final
    split at final
    · assumption
    · split at final
      · exact .inr final
      · exact .inl final
  · intro final
    rw [if_pos final]

theorem SumsRenders.concat {renders : List AssistantSegment} {kept after : AssistantSegment}
    (sums : SumsRenders renders kept)
    (extends_ : isStreamingExtension kept.text after.text = true)
    : SumsRenders (renders ++ [after]) (mergeAssistant kept after) := by
  obtain ⟨before, own, one⟩ := mergeAssistant_text extends_
  refine ⟨?_, ?_, ?_⟩
  · intro render member
    rcases List.mem_append.mp member with earlier | last
    · exact (sums.covers render earlier).trans before
    · rw [List.mem_singleton.mp last]
      exact own
  · rcases one with same | same
    · obtain ⟨render, member, text⟩ := sums.longest
      exact ⟨render, List.mem_append_left _ member, text.trans same.symm⟩
    · exact ⟨after, List.mem_append_right _ (List.mem_singleton_self _), same.symm⟩
  · rw [mergeAssistant_final, sums.final]
    simp [or_and_right, exists_or]

theorem SumsPrompts.concat {prompts : List ChoicePromptSegment}
    {kept after : ChoicePromptSegment} (sums : SumsPrompts prompts kept)
    (key : segmentKey (.choicePrompt after) = segmentKey (.choicePrompt kept))
    : SumsPrompts (prompts ++ [after]) (mergeChoicePrompt kept after) := by
  have merged : segmentKey (.choicePrompt (mergeChoicePrompt kept after))
      = segmentKey (.choicePrompt after) := rfl
  refine ⟨?_, ⟨after, List.getLast?_concat, rfl⟩, ?_, ?_⟩
  · rw [merged]
    intro prompt member
    rcases List.mem_append.mp member with earlier | own
    · exact (sums.keys prompt earlier).trans key.symm
    · rw [List.mem_singleton.mp own]
  · simp [mergeChoicePrompt, sums.answered, List.any_append]
  · simp [mergeChoicePrompt, sums.chosen, List.findSome?_append]

theorem Sums.concat {block : List Segment} {prev merged : Segment}
    (sums : Sums block prev) (collapsed : Collapsed prev segment merged)
    : Sums (block ++ [segment]) merged := by
  cases collapsed with
  | calls title =>
    cases sums with
    | calls listed sums =>
      exact .calls (by simp [listed]) (sums.concat title)
    | same plain => cases plain
  | renders extends_ =>
    cases sums with
    | renders listed sums =>
      exact .renders (by simp [listed]) (sums.concat extends_)
    | same plain => cases plain
  | prompts key =>
    cases sums with
    | prompts listed sums =>
      exact .prompts (by simp [listed]) (sums.concat key)
    | same plain => cases plain
  | same plain =>
    cases sums with
    | same _ equal some_ =>
      refine .same plain ?_ (List.mem_append_left _ some_)
      intro other member
      rcases List.mem_append.mp member with earlier | own
      · exact equal other earlier
      · exact List.mem_singleton.mp own
    | renders | calls | prompts => cases plain

theorem sameBlock_iff {prev : Segment}
    : sameBlock prev segment = true ↔ ∃ merged, Collapsed prev segment merged := by
  constructor
  · intro same
    rw [← collapse_isSome] at same
    obtain ⟨merged, collapses⟩ := Option.isSome_iff_exists.mp same
    exact ⟨merged, .of_collapse collapses⟩
  · intro ⟨merged, collapsed⟩
    cases collapsed with
    | calls title => simp [sameBlock, title]
    | renders extends_ => simp [sameBlock, extends_]
    | prompts key => simp [sameBlock, key]
    | same => simp [sameBlock]

theorem sameBlock_assistant {render : AssistantSegment}
    : sameBlock (.assistant render) segment = true
      ↔ ∃ other, segment = .assistant other
        ∧ isStreamingExtension render.text other.text = true := by
  rw [sameBlock_iff]
  constructor
  · intro ⟨merged, collapsed⟩
    cases collapsed with
    | renders extends_ => exact ⟨_, rfl, extends_⟩
    | same plain => cases plain
  · intro ⟨other, same, extends_⟩
    subst same
    exact ⟨_, .renders extends_⟩

theorem sameBlock_toolCall {call : ToolCallSegment}
    : sameBlock (.toolCall call) segment = true
      ↔ ∃ other, segment = .toolCall other ∧ other.title = call.title := by
  rw [sameBlock_iff]
  constructor
  · intro ⟨merged, collapsed⟩
    cases collapsed with
    | calls title => exact ⟨_, rfl, title⟩
    | same plain => cases plain
  · intro ⟨other, same, title⟩
    subst same
    exact ⟨_, .calls title⟩

theorem sameBlock_choicePrompt {prompt : ChoicePromptSegment}
    : sameBlock (.choicePrompt prompt) segment = true
      ↔ ∃ other, segment = .choicePrompt other
        ∧ segmentKey (.choicePrompt other) = segmentKey (.choicePrompt prompt) := by
  rw [sameBlock_iff]
  constructor
  · intro ⟨merged, collapsed⟩
    cases collapsed with
    | prompts key => exact ⟨_, rfl, key⟩
    | same plain => cases plain
  · intro ⟨other, same, key⟩
    subst same
    exact ⟨_, .prompts key⟩

/-- Texts that a longer one extends, and what is comparable with it. -/
theorem extension_of_prefix {short long other : String} (covers : short.toList <+: long.toList)
    (extends_ : isStreamingExtension long other = true)
    : isStreamingExtension short other = true := by
  rw [isStreamingExtension_iff] at extends_ ⊢
  rcases extends_ with shorter | longer
  · exact List.prefix_or_prefix_of_prefix shorter covers
  · exact .inr (covers.trans longer)

theorem Sums.joins {block : List Segment} {prev : Segment} (sums : Sums block prev)
    (segment : Segment)
    : sameBlock prev segment = true ↔ block.all (sameBlock · segment) = true := by
  rw [List.all_eq_true]
  cases sums with
  | same plain equal some_ =>
    constructor
    · intro same render member
      rw [equal render member]
      exact same
    · exact fun all => all prev some_
  | @renders renders kept listed sums =>
    subst listed
    rw [List.forall_mem_map]
    simp only [sameBlock_assistant]
    constructor
    · intro ⟨other, shown, extends_⟩ render member
      exact ⟨other, shown, extension_of_prefix (sums.covers render member) extends_⟩
    · intro all
      obtain ⟨longest, member, text⟩ := sums.longest
      rw [← text]
      exact all longest member
  | @calls calls kept listed sums =>
    subst listed
    rw [List.forall_mem_map]
    simp only [sameBlock_toolCall]
    constructor
    · intro ⟨other, shown, title⟩ call member
      exact ⟨other, shown, title.trans (sums.titles call member).symm⟩
    · intro all
      obtain ⟨call, member⟩ := sums.exists_call
      rw [← sums.titles call member]
      exact all call member
  | @prompts prompts kept listed sums =>
    subst listed
    rw [List.forall_mem_map]
    simp only [sameBlock_choicePrompt]
    constructor
    · intro ⟨other, shown, key⟩ prompt member
      exact ⟨other, shown, key.trans (sums.keys prompt member).symm⟩
    · intro all
      obtain ⟨prompt, last, -⟩ := sums.last
      have member := List.mem_of_getLast? last
      rw [← sums.keys prompt member]
      exact all prompt member

theorem Sums.contains_iff {block : List Segment} {kept : Segment} (sums : Sums block kept)
    (original : Segment)
    : kept.contains original ↔ keptIn block original := by
  cases sums with
  | @renders renders kept listed sums =>
    subst listed
    cases original with
    | assistant original =>
      simp only [Segment.contains, keptIn, List.filterMap_map, Function.comp_def,
        Segment.assistant?, List.filterMap_some, sums.final]
      refine and_congr_left' ⟨?_, ?_⟩
      · intro covered
        obtain ⟨longest, member, text⟩ := sums.longest
        exact ⟨longest, member, text ▸ covered⟩
      · intro ⟨render, member, covered⟩
        exact covered.trans (sums.covers render member)
    | _ =>
      simp [Segment.contains, keptIn, Function.comp_def, Segment.toolCall?,
        Segment.choicePrompt?, lastCall]
  | @calls calls kept listed sums =>
    subst listed
    cases original with
    | toolCall original =>
      obtain ⟨call, last, same⟩ := sums.last
      simp only [Segment.contains, keptIn, List.filterMap_map, Function.comp_def,
        Segment.toolCall?, List.filterMap_some, last, Option.some.injEq, exists_eq_left',
        sums.elided]
      rw [same]
    | _ =>
      simp [Segment.contains, keptIn, Function.comp_def, Segment.assistant?,
        Segment.choicePrompt?]
  | @prompts prompts kept listed sums =>
    subst listed
    cases original with
    | choicePrompt original =>
      obtain ⟨prompt, last, same⟩ := sums.last
      simp only [Segment.contains, keptIn, List.filterMap_map, Function.comp_def,
        Segment.choicePrompt?, List.filterMap_some, last, Option.some.injEq,
        exists_eq_left', sums.answered, sums.chosen]
      rw [same]
      rfl
    | _ =>
      simp [Segment.contains, keptIn, Function.comp_def, Segment.assistant?,
        Segment.toolCall?, lastCall]
  | same plain equal some_ =>
    have listed : original ∈ block ↔ kept = original :=
      ⟨fun member => (equal original member).symm, fun equals => equals ▸ some_⟩
    have others : block.filterMap Segment.assistant? = []
        ∧ block.filterMap Segment.toolCall? = []
        ∧ block.filterMap Segment.choicePrompt? = [] := by
      refine ⟨?_, ?_, ?_⟩ <;> rw [List.filterMap_eq_nil_iff] <;> intro segment member <;>
        rw [equal segment member] <;> cases kept <;> first | rfl | exact False.elim plain
    cases original with
    | assistant | toolCall | choicePrompt =>
      cases kept <;> first
        | exact False.elim plain
        | simp [Segment.contains, keptIn, others, lastCall]
    | user | planUpdate | agentEvent =>
      cases kept <;> first
        | exact False.elim plain
        | simpa [Segment.contains, keptIn] using listed.symm

----------------------------------------
-- Spans
----------------------------------------

/-- The span of a kept segment is the one around the spans of its block, pinned ones apart. -/
structure SumsSpans (block : List SpannedSegment) (kept : SpannedSegment) : Prop where
  pinned : kept.pinned = true ↔ ∀ item ∈ block, item.pinned = true
  stop
    : kept.pinned = false
      → ∀ bound,
        kept.stop ≤ bound ↔ ∀ item ∈ block, item.pinned = false → item.stop ≤ bound
  start
    : kept.pinned = false
      → ∀ bound,
        bound ≤ kept.start ↔ ∀ item ∈ block, item.pinned = false → bound ≤ item.start

theorem SumsSpans.single (item : SpannedSegment) : SumsSpans [item] item := by
  constructor <;> simp_all

/-- A pinned span beside another one adds nothing to it. -/
theorem SumsSpans.beside {block more : List SpannedSegment} {prev kept : SpannedSegment}
    (sums : SumsSpans block prev) (start : kept.start = prev.start) (stop : kept.stop = prev.stop)
    (real : ∀ item, item.pinned = false → (item ∈ more ↔ item ∈ block))
    (pinned : (∀ item ∈ more, item.pinned = true) ↔ ∀ item ∈ block, item.pinned = true)
    : SumsSpans more kept := by
  have same : kept.pinned = prev.pinned := by
    unfold SpannedSegment.pinned
    rw [start, stop]
  have spans : ∀ {property : SpannedSegment → Prop},
      (∀ item ∈ more, item.pinned = false → property item)
        ↔ ∀ item ∈ block, item.pinned = false → property item := by
    intro property
    exact forall_congr' (fun item => ⟨
      fun holds member free => holds ((real item free).mpr member) free,
      fun holds member free => holds ((real item free).mp member) free⟩)
  refine ⟨?_, ?_, ?_⟩
  · rw [same, sums.pinned, pinned]
  · intro free bound
    rw [stop, spans]
    exact sums.stop (same ▸ free) bound
  · intro free bound
    rw [start, spans]
    exact sums.start (same ▸ free) bound

theorem SumsSpans.concat {block : List SpannedSegment} {prev item : SpannedSegment}
    (sums : SumsSpans block prev) (merged : Segment)
    : SumsSpans (block ++ [item]) (mergeSpan prev item merged) := by
  cases first : prev.pinned <;> cases second : item.pinned
  case false.false =>
    have around : mergeSpan prev item merged
        = ⟨merged, min prev.start item.start, max prev.stop item.stop,
          max prev.epoch item.epoch⟩ := by
      simp [mergeSpan, first, second]
    rw [around]
    refine ⟨?_, ?_, ?_⟩
    · refine iff_of_false ?_ (fun all => ?_)
      · simp only [SpannedSegment.pinned, decide_eq_true_eq, decide_eq_false_iff_not] at *
        omega
      · have own := all item (List.mem_append_right _ (List.mem_singleton_self _))
        rw [second] at own
        cases own
    · intro _ bound
      rw [Int.max_le, sums.stop first, List.forall_mem_append]
      simp [second]
    · intro _ bound
      rw [Int.le_min, sums.start first, List.forall_mem_append]
      simp [second]
  case true.false =>
    have none_ := sums.pinned.mp first
    apply (SumsSpans.single item).beside
    · simp [mergeSpan, first, second]
    · simp [mergeSpan, first, second]
    · intro other free
      simp only [List.mem_append, List.mem_singleton, or_iff_right_iff_imp]
      intro member
      rw [none_ other member] at free
      cases free
    · simp [second]
  all_goals
    apply sums.beside
    · simp [mergeSpan, first, second]
    · simp [mergeSpan, first, second]
    · intro other free
      simp only [List.mem_append, List.mem_singleton, or_iff_left_iff_imp]
      rintro rfl
      rw [second] at free
      cases free
    · rw [List.forall_mem_append]
      simp [second]

----------------------------------------
-- What the deduplicated list keeps
----------------------------------------

/-- Renders of one block. -/
def sameSpanned (prev item : SpannedSegment) : Bool := sameBlock prev.segment item.segment

def renderBlocks (spanned : List SpannedSegment) : List (Block SpannedSegment) :=
  blocks sameSpanned spanned

/-- A kept segment with its span, and the block it was merged from. -/
structure SumsSpanned (block : List SpannedSegment) (kept : SpannedSegment) : Prop where
  segments : Sums (payloads block) kept.segment
  spans : SumsSpans block kept

theorem sumsUp_spanned : SumsUp collapseSpanned sameSpanned SumsSpanned where
  single item := ⟨.single item.segment, .single item⟩
  joins members prev item sums := by
    have joins := sums.segments.joins item.segment
    rw [← collapse_isSome] at joins
    simpa [collapseSpanned, payloads, sameSpanned] using joins
  merges members prev item merged sums collapses := by
    obtain ⟨segment, collapsed, rfl⟩ := Option.map_eq_some_iff.mp collapses
    constructor
    · rw [mergeSpan_segment, payloads, List.map_append]
      exact sums.segments.concat (.of_collapse collapsed)
    · exact sums.spans.concat segment

/-- What a segment does not collapse with stays apart from it while it grows. -/
theorem collapse_apart (before prev item merged : Segment) (far : collapse before prev = none)
    (collapses : collapse prev item = some merged)
    : collapse before merged = none := by
  have grown : sameBlock before merged = true → sameBlock before prev = true := by
    simp only [sameBlock_iff]
    intro ⟨_, joined⟩
    cases Collapsed.of_collapse collapses with
    | calls title =>
      cases joined with
      | calls same => exact ⟨_, .calls ((mergeTool_title title).symm.trans same)⟩
      | same plain => exact False.elim plain
    | renders extends_ =>
      cases joined with
      | renders comparable =>
        rw [isStreamingExtension_comm] at comparable
        have shorter := extension_of_prefix (mergeAssistant_text extends_).1 comparable
        rw [isStreamingExtension_comm] at shorter
        exact ⟨_, .renders shorter⟩
      | same plain => exact False.elim plain
    | prompts key =>
      cases joined with
      | prompts same => exact ⟨_, .prompts (key.symm.trans same)⟩
      | same plain => exact False.elim plain
    | same => exact ⟨_, joined⟩
  rw [← Option.not_isSome_iff_eq_none, collapse_isSome] at far ⊢
  exact mt grown far

theorem collapseSpanned_apart (before prev item merged : SpannedSegment)
    (far : collapseSpanned before prev = none)
    (collapses : collapseSpanned prev item = some merged)
    : collapseSpanned before merged = none := by
  obtain ⟨segment, collapsed, rfl⟩ := Option.map_eq_some_iff.mp collapses
  unfold collapseSpanned at far ⊢
  rw [Option.map_eq_none_iff] at far ⊢
  rw [mergeSpan_segment]
  exact collapse_apart _ _ _ _ far collapsed

/-- Deduplication of a list drops only repeats. -/
structure DropsRepeats (spanned : List SpannedSegment) : Prop where
  twins : payloads (dedupeAdjacentSpanned spanned) = dedupeAdjacent (payloads spanned)
  idempotent
    : dedupeAdjacent (dedupeAdjacent (payloads spanned)) = dedupeAdjacent (payloads spanned)
  spannedIdempotent
    : dedupeAdjacentSpanned (dedupeAdjacentSpanned spanned) = dedupeAdjacentSpanned spanned
  represented
    : ∀ segment ∈ payloads spanned,
        ∃ kept ∈ dedupeAdjacent (payloads spanned), kept.contains segment
  ordered
    : (dedupeAdjacentSpanned spanned).Pairwise (fun before after =>
        before.pinned = false → after.pinned = false → before.stop ≤ after.start)
  covers
    : List.Forall₂ (fun block kept => ∀ item ∈ block.members, item.pinned = false
        → kept.start ≤ item.start ∧ item.stop ≤ kept.stop)
      (renderBlocks spanned) (dedupeAdjacentSpanned spanned)

def KeepsContent (spanned : List SpannedSegment) : Prop :=
  ∀ segment ∈ payloads spanned,
    ∃ block ∈ renderBlocks spanned, keptIn (payloads block.members) segment

def OrderedBlocks (spanned : List SpannedSegment) : Prop :=
  (renderBlocks spanned).Pairwise (fun before after =>
    ∀ item ∈ before.members, item.pinned = false
    → ∀ later ∈ after.members, later.pinned = false → item.stop ≤ later.start)

section Blocks

variable {spanned : List SpannedSegment}

/-- The deduplicated list has one segment for each block. -/
theorem dedupe_eq_blocks
    : dedupeAdjacentSpanned spanned
      = (renderBlocks spanned).map (Block.merged collapseSpanned) := by
  rw [dedupeAdjacentSpanned_eq]
  exact sumsUp_spanned.kept_eq spanned

theorem represented_iff
    : (∀ segment ∈ payloads spanned,
        ∃ kept ∈ dedupeAdjacent (payloads spanned), kept.contains segment)
      ↔ KeepsContent spanned := by
  unfold KeepsContent
  refine forall₂_congr (fun segment _ => ?_)
  rw [← payloads_dedupe, dedupe_eq_blocks]
  simp only [payloads, List.map_map, List.mem_map, Function.comp_apply, exists_exists_and_eq_and]
  refine exists_congr (fun block => and_congr_right (fun listed => ?_))
  exact (sumsUp_spanned.summed listed).segments.contains_iff segment

theorem SumsSpans.before_iff {before after : List SpannedSegment}
    {first second : SpannedSegment} (sums : SumsSpans before first)
    (later : SumsSpans after second)
    : (first.pinned = false → second.pinned = false → first.stop ≤ second.start)
      ↔ ∀ item ∈ before, item.pinned = false
        → ∀ other ∈ after, other.pinned = false → item.stop ≤ other.start := by
  cases left : first.pinned with
  | true =>
    refine iff_of_true nofun (fun item member free => ?_)
    rw [sums.pinned.mp left item member] at free
    cases free
  | false =>
    cases right : second.pinned with
    | true =>
      refine iff_of_true (fun _ => nofun) (fun _ _ _ item member free => ?_)
      rw [later.pinned.mp right item member] at free
      cases free
    | false =>
      simp only [forall_const, sums.stop left]
      exact forall₃_congr (fun item _ _ => later.start right item.stop)

theorem ordered_iff
    : (dedupeAdjacentSpanned spanned).Pairwise (fun before after =>
        before.pinned = false → after.pinned = false → before.stop ≤ after.start)
      ↔ OrderedBlocks spanned := by
  rw [dedupe_eq_blocks, List.pairwise_map]
  refine List.Pairwise.iff_of_mem ?_
  intro before after listed later
  exact (sumsUp_spanned.summed listed).spans.before_iff (sumsUp_spanned.summed later).spans

theorem covers_blocks
    : List.Forall₂ (fun block kept => ∀ item ∈ block.members, item.pinned = false
        → kept.start ≤ item.start ∧ item.stop ≤ kept.stop)
      (renderBlocks spanned) (dedupeAdjacentSpanned spanned) := by
  rw [dedupe_eq_blocks, List.forall₂_map_right_iff, List.forall₂_same]
  intro block listed item member free
  have spans := (sumsUp_spanned.summed listed).spans
  have kept : (block.merged collapseSpanned).pinned = false := by
    rw [Bool.eq_false_iff]
    intro pinned
    rw [spans.pinned.mp pinned item member] at free
    cases free
  exact ⟨(spans.start kept _).mp (Int.le_refl _) item member free,
    (spans.stop kept _).mp (Int.le_refl _) item member free⟩

end Blocks

/-- Deduplication drops only repeats exactly when every segment has its content in a block of
renders and the spans of the blocks follow each other.
-/
theorem dropsRepeats_iff (spanned : List SpannedSegment)
    : DropsRepeats spanned ↔ KeepsContent spanned ∧ OrderedBlocks spanned := by
  constructor
  · intro drops
    exact ⟨represented_iff.mp drops.represented, ordered_iff.mp drops.ordered⟩
  · intro ⟨content, ordered⟩
    refine ⟨payloads_dedupe spanned, ?_, ?_, represented_iff.mpr content,
      ordered_iff.mpr ordered, covers_blocks⟩
    · rw [dedupeAdjacent_eq, dedupeAdjacent_eq]
      exact kept_kept collapse_apart _
    · rw [dedupeAdjacentSpanned_eq, dedupeAdjacentSpanned_eq]
      exact kept_kept collapseSpanned_apart _

namespace RepeatedCalls

def call (result : String) : Segment := .toolCall ⟨"Read a.py", none, some result, false, false⟩

/-- Two completed calls of one title: the result of the first one is dropped. -/
theorem not_dropsRepeats
    : ¬ DropsRepeats [⟨call "old", 0, 1, 0⟩, ⟨call "new", 1, 2, 0⟩] := by
  intro drops
  obtain ⟨kept, member, contains⟩ := drops.represented (call "old") List.mem_cons_self
  have one : dedupeAdjacent [call "old", call "new"] = [call "new"] := by decide
  rw [payloads, List.map_cons, List.map_cons, List.map_nil, one] at member
  rw [List.mem_singleton.mp member] at contains
  have lost := contains.2.2.1
  revert lost
  decide

end RepeatedCalls

end Murder.Transcripts

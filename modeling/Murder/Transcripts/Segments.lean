import Murder.Contracts.Common
import Murder.Library.Alignments

/-! Typed transcript segments, their keys, and how adjacent renders of one block collapse. -/

namespace Murder.Transcripts

inductive Phase
  | intermediate
  | final
deriving DecidableEq

structure AssistantSegment where
  phase : Phase
  text : String
  elapsed : Option String
deriving DecidableEq

structure ToolCallSegment where
  title : String
  input : Option String
  result : Option String
  elided : Bool
  running : Bool
deriving DecidableEq

structure PlanItem where
  done : Bool
  text : String
deriving DecidableEq

inductive AgentStatus
  | dispatched
  | completed
deriving DecidableEq

/-- `ChoiceOptionDict` -/
structure ChoiceOption where
  number : Int
  label : String
  description : Option String
  checked : Option Bool
deriving DecidableEq

inductive Chosen
  | one (number : Int)
  | many (numbers : List Int)
deriving DecidableEq

structure ChoicePromptSegment where
  question : String
  options : List ChoiceOption
  footer : Option String
  selected : Option Int
  answered : Bool
  chosen : Option Chosen
  multi : Bool
deriving DecidableEq

inductive Segment
  | user (text : String)
  | assistant (segment : AssistantSegment)
  | toolCall (segment : ToolCallSegment)
  | planUpdate (title : String) (items : List PlanItem)
  | agentEvent (name : String) (status : AgentStatus) (elapsed : Option String)
  | choicePrompt (segment : ChoicePromptSegment)
deriving DecidableEq

/-- A segment with the lines `[start, stop)` it was parsed from. -/
structure SpannedSegment where
  segment : Segment
  start : Int
  stop : Int
  epoch : Nat := 0
deriving DecidableEq

def SpannedSegment.pinned (spanned : SpannedSegment) : Bool := spanned.stop ≤ spanned.start

inductive SegmentKey
  | user (text : String)
  | assistant (text : String)
  | toolCall (title : String)
  | planUpdate (done total : Nat)
  | agentEvent (name : String) (status : AgentStatus)
  | choicePrompt (question : String) (numbers : List Int)
deriving DecidableEq

/-- `text[:48]` -/
def keyPrefix (text : String) : String := String.ofList (text.toList.take 48)

/-- `_segment_key` -/
def segmentKey : Segment → SegmentKey
  | .user text => .user (keyPrefix text)
  | .assistant segment => .assistant (keyPrefix segment.text)
  | .toolCall segment => .toolCall segment.title
  | .planUpdate _ items => .planUpdate (items.countP PlanItem.done) items.length
  | .agentEvent name status _ => .agentEvent name status
  | .choicePrompt segment =>
    .choicePrompt segment.question (segment.options.map ChoiceOption.number)

def SpannedSegment.key (spanned : SpannedSegment) : SegmentKey := segmentKey spanned.segment

/-- `_is_streaming_extension` -/
def isStreamingExtension (a b : String) : Bool :=
  b.toList.isPrefixOf a.toList || a.toList.isPrefixOf b.toList

/-- `a or b` on optional texts, where the empty text counts as none. -/
def orText (a b : Option String) : Option String :=
  match a with
  | some text => if text = "" then b else some text
  | none => b

/-- Two tool calls of one title: the later one, unless only the earlier has a result. -/
def mergeTool (prev segment : ToolCallSegment) : ToolCallSegment :=
  { (if segment.result.isNone && prev.result.isSome then prev else segment) with
    elided := prev.elided || segment.elided }

/-- Two renders of one growing assistant block: the longer text, final once either is. -/
def mergeAssistant (prev segment : AssistantSegment) : AssistantSegment :=
  let longer :=
    if prev.text.length ≤ segment.text.length then segment else prev
  { longer with
    phase := if prev.phase = .final ∨ segment.phase = .final then .final else longer.phase
    elapsed := orText prev.elapsed segment.elapsed }

def mergeChoicePrompt (prev segment : ChoicePromptSegment) : ChoicePromptSegment :=
  { segment with
    answered := prev.answered || segment.answered
    chosen := prev.chosen.or segment.chosen }

/-- `_dedupe_adjacent([prev, segment])`: the one segment the two collapse to, if they do. -/
def collapse (prev segment : Segment) : Option Segment :=
  if segment = prev then some prev
  else
    match prev, segment with
    | .toolCall before, .toolCall after =>
      if after.title = before.title then some (.toolCall (mergeTool before after)) else none
    | .assistant before, .assistant after =>
      if isStreamingExtension before.text after.text then
        some (.assistant (mergeAssistant before after))
      else none
    | .choicePrompt before, .choicePrompt after =>
      if segmentKey (.choicePrompt after) = segmentKey (.choicePrompt before) then
        some (.choicePrompt (mergeChoicePrompt before after))
      else none
    | _, _ => none

/-- `_merge_span`: the span covering both, where a pinned one counts only beside another
pinned one.
-/
def mergeSpan (a b : SpannedSegment) (segment : Segment) : SpannedSegment :=
  match a.pinned, b.pinned with
  | true, true => ⟨segment, a.start, a.stop, max a.epoch b.epoch⟩
  | true, false => ⟨segment, b.start, b.stop, b.epoch⟩
  | false, true => ⟨segment, a.start, a.stop, a.epoch⟩
  | false, false =>
    ⟨segment, min a.start b.start, max a.stop b.stop, max a.epoch b.epoch⟩

@[simp] theorem mergeSpan_segment (a b : SpannedSegment) (segment : Segment)
    : (mergeSpan a b segment).segment = segment := by
  unfold mergeSpan
  split <;> rfl

/-- `dedupe_adjacent_spanned` behind the last segment of the result. -/
def dedupeBehind (prev : SpannedSegment) : List SpannedSegment → List SpannedSegment
  | [] => [prev]
  | item :: rest =>
    match collapse prev.segment item.segment with
    | some segment => dedupeBehind (mergeSpan prev item segment) rest
    | none => prev :: dedupeBehind item rest

def dedupeAdjacentSpanned : List SpannedSegment → List SpannedSegment
  | [] => []
  | item :: rest => dedupeBehind item rest

/-- Two adjacent segments and the one they collapse to. -/
structure Collapse where
  prev : Segment
  item : Segment
  merged : Segment

/-- The collapses `dedupeBehind` makes, in order. -/
def collapsesBehind (prev : SpannedSegment) : List SpannedSegment → List Collapse
  | [] => []
  | item :: rest =>
    match collapse prev.segment item.segment with
    | some segment =>
      ⟨prev.segment, item.segment, segment⟩
        :: collapsesBehind (mergeSpan prev item segment) rest
    | none => collapsesBehind item rest

def collapses : List SpannedSegment → List Collapse
  | [] => []
  | item :: rest => collapsesBehind item rest

def payloads (spanned : List SpannedSegment) : List Segment :=
  spanned.map SpannedSegment.segment

def keys (spanned : List SpannedSegment) : List SegmentKey := spanned.map SpannedSegment.key

/-- A collapse that leaves the settled segments as they are and makes none of them anew. -/
structure Collapse.Spares (settled : List Segment) (made : Collapse) : Prop where
  prev : made.prev ∈ settled → made.merged = made.prev
  item : made.item ∈ settled → made.merged = made.item
  apart : ¬(made.prev ∈ settled ∧ made.item ∈ settled)
  merged : made.merged ∈ settled → made.merged = made.prev ∨ made.merged = made.item

variable {settled : List Segment}

/-- Settled segments survive, in their order, where every collapse spares them. -/
theorem sublist_dedupeBehind {items : List Segment} {prev : SpannedSegment}
    {rest : List SpannedSegment} (spared : ∀ made ∈ collapsesBehind prev rest, made.Spares settled)
    (kept : ∀ item ∈ items, item ∈ settled) (listed : items.Sublist (payloads (prev :: rest)))
    : items.Sublist (payloads (dedupeBehind prev rest)) := by
  induction rest generalizing prev items with
  | nil => exact listed
  | cons item rest ih =>
    simp only [dedupeBehind, collapsesBehind] at spared ⊢
    split at spared
    · rename_i segment merged
      have here := spared _ List.mem_cons_self
      refine ih (fun made member => spared made (List.mem_cons_of_mem _ member)) kept ?_
      simp only [payloads, List.map_cons, mergeSpan_segment] at listed ⊢
      rcases List.sublist_cons_iff.mp listed with skipped | ⟨others, rfl, taken⟩
      · rcases List.sublist_cons_iff.mp skipped with skipped | ⟨others, rfl, taken⟩
        · exact skipped.cons _
        · have same : segment = item.segment := here.item (kept _ List.mem_cons_self)
          rw [same]
          exact taken.cons_cons _
      · have first := kept _ List.mem_cons_self
        have same : segment = prev.segment := here.prev first
        rw [same]
        rcases List.sublist_cons_iff.mp taken with skipped | ⟨_, rfl, _⟩
        · exact skipped.cons_cons _
        · exact absurd ⟨first, kept _ (List.mem_cons_of_mem _ List.mem_cons_self)⟩ here.apart
    · simp only [payloads, List.map_cons] at listed ⊢
      rcases List.sublist_cons_iff.mp listed with skipped | ⟨others, rfl, taken⟩
      · exact (ih spared kept skipped).cons _
      · exact (ih spared (fun _ member => kept _ (List.mem_cons_of_mem _ member))
          taken).cons_cons _

theorem sublist_dedupe {items : List Segment} {spanned : List SpannedSegment}
    (spared : ∀ made ∈ collapses spanned, made.Spares settled)
    (kept : ∀ item ∈ items, item ∈ settled) (listed : items.Sublist (payloads spanned))
    : items.Sublist (payloads (dedupeAdjacentSpanned spanned)) := by
  cases spanned with
  | nil => exact listed
  | cons prev rest => exact sublist_dedupeBehind spared kept listed

/-- No settled segment is duplicated where every collapse spares them. -/
theorem count_dedupeBehind {prev : SpannedSegment} {rest : List SpannedSegment}
    (spared : ∀ made ∈ collapsesBehind prev rest, made.Spares settled) {x : Segment}
    (final : x ∈ settled)
    : (payloads (dedupeBehind prev rest)).count x ≤ (payloads (prev :: rest)).count x := by
  induction rest generalizing prev with
  | nil => exact Nat.le_refl _
  | cons item rest ih =>
    simp only [dedupeBehind, collapsesBehind] at spared ⊢
    split at spared
    · rename_i segment merged
      have here := spared _ List.mem_cons_self
      have below := ih (fun made member => spared made (List.mem_cons_of_mem _ member))
      have source : segment = x → prev.segment = x ∨ item.segment = x := by
        intro same
        subst same
        exact (here.merged final).imp Eq.symm Eq.symm
      simp only [payloads, List.map_cons, mergeSpan_segment, List.count_cons, beq_iff_eq]
        at below ⊢
      split_ifs at below ⊢ <;> grind
    · have below := ih spared
      simp only [payloads, List.map_cons, List.count_cons] at below ⊢
      omega

theorem count_dedupe {spanned : List SpannedSegment}
    (spared : ∀ made ∈ collapses spanned, made.Spares settled) {x : Segment} (final : x ∈ settled)
    : (payloads (dedupeAdjacentSpanned spanned)).count x ≤ (payloads spanned).count x := by
  cases spanned with
  | nil => exact Nat.le_refl _
  | cons prev rest => exact count_dedupeBehind spared final

end Murder.Transcripts

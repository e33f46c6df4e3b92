import Murder.Transcripts.Scrollback
import Murder.Transcripts.Segments

/-! The transcript accumulator: captures spliced into the scrollback, parsed again as a whole
and reconciled with the committed history.
-/

namespace Murder.Transcripts

open Contracts Library.Alignments

/-- An option of a live prompt. -/
structure PromptOption where
  number : Int
  label : String
  description : String := ""
  checked : Option Bool := none

/-- A live prompt as the dialog parser builds it: the cursor stands on one of its options. -/
structure MultipleChoicePrompt where
  question : String
  options : List PromptOption
  selectedIndex : Nat := 0
  footer : String := ""
  multiSelect : Bool := false
  submitSelected : Bool := false
  selectable : selectedIndex < options.length

def MultipleChoicePrompt.selectedOption (prompt : MultipleChoicePrompt) : PromptOption :=
  prompt.options.get ⟨prompt.selectedIndex, prompt.selectable⟩

def MultipleChoicePrompt.checkedNumbers (prompt : MultipleChoicePrompt) : List Int :=
  (prompt.options.filter (fun option => option.checked = some true)).map PromptOption.number

/-- `text or None` -/
def textOrNone (text : String) : Option String := if text = "" then none else some text

def choicePromptSegment (prompt : MultipleChoicePrompt) : Segment :=
  .choicePrompt {
    question := prompt.question
    options := prompt.options.map (fun option => {
      number := option.number
      label := option.label
      description := textOrNone option.description
      checked := option.checked })
    footer := textOrNone prompt.footer
    selected := if prompt.submitSelected then none else some prompt.selectedOption.number
    answered := false
    chosen := none
    multi := prompt.multiSelect }

/-- What the accumulator calls of a harness's grammar. -/
structure Grammar where
  preprocessFrame : String → String := id
  detectLiveChoicePrompt : String → Option MultipleChoicePrompt
  isIdle : String → Bool
  parseSpanned : List String → Option String → List String → List SpannedSegment

/-- `_reconcile`: committed and parsed segments merged along a longest common subsequence of
their keys, a match by the parsed one.
-/
def reconcile (committed parsed : List SpannedSegment) : List SpannedSegment :=
  merge SpannedSegment.key committed parsed

/-- `_count_committed_mutations`; of parsed segments with one start the last one counts. -/
def countCommittedMutations (committed parsed : List SpannedSegment) (liveTop : Int) : Nat :=
  committed.countP (fun c =>
    !c.pinned && c.stop ≤ liveTop
      && (parsed.reverse.find? (fun p => !p.pinned && p.start = c.start)).any
        (fun fresh => fresh.segment ≠ c.segment))

def repeatsQuestion (prompt : MultipleChoicePrompt) (spanned : SpannedSegment) : Bool :=
  let question := strip prompt.question
  match spanned.segment with
  | .assistant segment => question ≠ "" && strip segment.text = question
  | _ => false

def dropQuestion (prompt : MultipleChoicePrompt) (spanned : List SpannedSegment)
    : List SpannedSegment :=
  spanned.filter (fun s => !repeatsQuestion prompt s)

/-- An unanswered choice prompt that an answer to `prompt` resolves: a pinned one, or one of
its key.
-/
def resolvable (prompt : MultipleChoicePrompt) (spanned : SpannedSegment) : Bool :=
  match spanned.segment with
  | .choicePrompt segment =>
    !segment.answered
      && (spanned.pinned || spanned.key = segmentKey (choicePromptSegment prompt))
  | _ => false

/-- A choice prompt answered with what the dialog showed last. -/
def answer (prompt : MultipleChoicePrompt) (spanned : SpannedSegment) : SpannedSegment :=
  match spanned.segment with
  | .choicePrompt segment =>
    { spanned with
      segment := .choicePrompt { segment with
        answered := true
        chosen := some (
          if prompt.multiSelect then .many prompt.checkedNumbers
          else .one prompt.selectedOption.number) } }
  | _ => spanned

def answerFirst (prompt : MultipleChoicePrompt) : List SpannedSegment → List SpannedSegment
  | [] => []
  | spanned :: rest =>
    if resolvable prompt spanned then answer prompt spanned :: rest
    else spanned :: answerFirst prompt rest

/-- `_resolve_choice_prompt`: the last resolvable segment answered, the question dropped. -/
def resolveChoicePrompt (spanned : List SpannedSegment) (prompt : MultipleChoicePrompt)
    : List SpannedSegment :=
  dropQuestion prompt (answerFirst prompt spanned.reverse).reverse

inductive LiveState
  | working
  | awaitingInput
  | awaitingApproval
deriving DecidableEq

structure TranscriptAccumulator where
  systemPrompt : Option String := none
  scrollback : PaneScrollback
  state : LiveState := .working
  committed : List SpannedSegment := []
  activeChoicePrompt : Option MultipleChoicePrompt := none
  spliceResets : Nat := 0
  committedMutations : Nat := 0

/-- `_DEFAULT_LIVE_WINDOW` -/
def defaultLiveWindow : Int := 200

/-- `TranscriptAccumulator(harness, system_prompt=…, pane_height=…)` -/
def TranscriptAccumulator.new (systemPrompt : Option String) (paneHeight : Option Int)
    : TranscriptAccumulator where
  systemPrompt
  scrollback := { liveWindow := paneHeight.getD defaultLiveWindow }

variable (grammar : Option Grammar)

def preprocessed (frame : String) : String :=
  match grammar with
  | some grammar => grammar.preprocessFrame frame
  | none => frame

def livePrompt (frame : String) : Option MultipleChoicePrompt :=
  grammar.bind (fun grammar => grammar.detectLiveChoicePrompt frame)

/-- `_state` behind a frame. -/
def liveState (frame : String) : LiveState :=
  if (livePrompt grammar frame).isSome then .awaitingApproval
  else if grammar.any (fun grammar => grammar.isIdle frame) then .awaitingInput
  else .working

/-- The whole scrollback parsed, and the live dialog pinned below it in the place of its
question.
-/
def parse (systemPrompt : Option String) (userTexts : List String) (lines : List String)
    (prompt : Option MultipleChoicePrompt)
    : List SpannedSegment :=
  let parsed := (grammar.map (fun grammar =>
    grammar.parseSpanned lines systemPrompt userTexts)).getD []
  match prompt with
  | some prompt =>
    dropQuestion prompt parsed
      ++ [⟨choicePromptSegment prompt, lines.length, lines.length, 0⟩]
  | none => parsed

namespace TranscriptAccumulator

variable (acc : TranscriptAccumulator) (userTexts : List String) (frame : String)

def fedScrollback : PaneScrollback := acc.scrollback.feed (preprocessed grammar frame)

def fedParse : List SpannedSegment :=
  parse grammar acc.systemPrompt userTexts (acc.fedScrollback grammar frame).lines
    (livePrompt grammar (preprocessed grammar frame))

/-- The history a feed reconciles with its parse and dedupes. -/
def fedHistory : List SpannedSegment :=
  dedupeAdjacentSpanned (reconcile acc.committed (acc.fedParse grammar userTexts frame))

/-- `feed`, with the ground-truth user turns the producer set before it. -/
def feed : TranscriptAccumulator :=
  let frame' := preprocessed grammar frame
  let scrollback := acc.fedScrollback grammar frame
  let parsed := acc.fedParse grammar userTexts frame
  let committed := acc.fedHistory grammar userTexts frame
  let prompt := livePrompt grammar frame'
  { acc with
    scrollback
    state := liveState grammar frame'
    committed :=
      match prompt, acc.activeChoicePrompt with
      | none, some active => resolveChoicePrompt committed active
      | _, _ => committed
    activeChoicePrompt := prompt
    spliceResets := acc.spliceResets + (if scrollback.lastReset then 1 else 0)
    committedMutations :=
      acc.committedMutations + countCommittedMutations acc.committed parsed scrollback.liveTop }

end TranscriptAccumulator

end Murder.Transcripts

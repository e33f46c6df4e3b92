import Murder.Library.Runs
import Murder.Transcripts.Accumulator

/-! When committed segments are final: over every run of feeds that spare the segments once
committed above the live window.
-/

namespace Murder.Transcripts

open Library.Alignments Library.Runs

variable {settled items : List Segment} {prompt : MultipleChoicePrompt}
  {spanned : List SpannedSegment}

theorem sublist_answerFirst
    (spared : ∀ s, spanned.find? (resolvable prompt) = some s → s.segment ∉ settled)
    (kept : ∀ item ∈ items, item ∈ settled) (listed : items.Sublist (payloads spanned))
    : items.Sublist (payloads (answerFirst prompt spanned)) := by
  induction spanned generalizing items with
  | nil => exact listed
  | cons s rest ih =>
    rw [List.find?_cons] at spared
    simp only [payloads, List.map_cons] at listed
    rw [answerFirst]
    split_ifs with found
    · rw [found] at spared
      rcases List.sublist_cons_iff.mp listed with skipped | ⟨others, rfl, taken⟩
      · exact skipped.cons _
      · exact absurd (kept _ List.mem_cons_self) (spared s rfl)
    · rw [Bool.eq_false_iff.mpr found] at spared
      rcases List.sublist_cons_iff.mp listed with skipped | ⟨others, rfl, taken⟩
      · exact (ih spared kept skipped).cons _
      · exact (ih spared (fun _ member => kept _ (List.mem_cons_of_mem _ member))
          taken).cons_cons _

theorem count_answerFirst
    (spared : ∀ s, spanned.find? (resolvable prompt) = some s
      → (answer prompt s).segment ∉ settled)
    {x : Segment} (final : x ∈ settled)
    : (payloads (answerFirst prompt spanned)).count x ≤ (payloads spanned).count x := by
  induction spanned with
  | nil => exact Nat.le_refl _
  | cons s rest ih =>
    rw [List.find?_cons] at spared
    rw [answerFirst]
    split_ifs with found
    · rw [found] at spared
      have other : (answer prompt s).segment ≠ x := by
        intro same
        exact spared s rfl (same ▸ final)
      simp [payloads, List.count_cons, other]
    · rw [Bool.eq_false_iff.mpr found] at spared
      have below := ih spared
      simp only [payloads, List.map_cons, List.count_cons] at below ⊢
      omega

def answered? (prompt : MultipleChoicePrompt) (history : List SpannedSegment)
    : Option SpannedSegment :=
  history.reverse.find? (resolvable prompt)

/-- An answered dialog leaves the settled segments as they are and makes none of them anew. -/
structure AnswerSpares (settled : List Segment) (prompt : MultipleChoicePrompt)
    (history : List SpannedSegment)
    : Prop where
  before : ∀ s, answered? prompt history = some s → s.segment ∉ settled
  after : ∀ s, answered? prompt history = some s → (answer prompt s).segment ∉ settled
  question : ∀ s ∈ history, repeatsQuestion prompt s = true → s.segment ∉ settled

/-- An answered segment is a choice prompt still, so it never repeats a question. -/
theorem repeatsQuestion_answer (prompt : MultipleChoicePrompt) (s : SpannedSegment)
    : repeatsQuestion prompt (answer prompt s) = repeatsQuestion prompt s := by
  obtain ⟨segment, start, stop, epoch⟩ := s
  cases segment <;> rfl

theorem repeatsQuestion_resolvable {s : SpannedSegment} (found : resolvable prompt s = true)
    : repeatsQuestion prompt s = false := by
  obtain ⟨segment, start, stop, epoch⟩ := s
  cases segment with
  | choicePrompt _ => rfl
  | _ => cases found

theorem repeatsQuestion_answerFirst {s : SpannedSegment}
    (member : s ∈ answerFirst prompt spanned) (repeats : repeatsQuestion prompt s = true)
    : s ∈ spanned := by
  induction spanned with
  | nil => exact member
  | cons head rest ih =>
    rw [answerFirst] at member
    split_ifs at member with found
    · rcases List.mem_cons.mp member with rfl | later
      · rw [repeatsQuestion_answer, repeatsQuestion_resolvable found] at repeats
        cases repeats
      · exact List.mem_cons_of_mem _ later
    · rcases List.mem_cons.mp member with rfl | later
      · exact List.mem_cons_self
      · exact List.mem_cons_of_mem _ (ih later)

theorem sublist_dropQuestion
    (spared : ∀ s ∈ spanned, repeatsQuestion prompt s = true → s.segment ∉ settled)
    (kept : ∀ item ∈ items, item ∈ settled) (listed : items.Sublist (payloads spanned))
    : items.Sublist (payloads (dropQuestion prompt spanned)) := by
  induction spanned generalizing items with
  | nil => exact listed
  | cons s rest ih =>
    have later := fun s member => spared s (List.mem_cons_of_mem _ member)
    simp only [payloads, List.map_cons] at listed
    simp only [dropQuestion, List.filter_cons]
    split_ifs with stays
    · rcases List.sublist_cons_iff.mp listed with skipped | ⟨others, rfl, taken⟩
      · exact (ih later kept skipped).cons _
      · exact (ih later (fun _ member => kept _ (List.mem_cons_of_mem _ member))
          taken).cons_cons _
    · rcases List.sublist_cons_iff.mp listed with skipped | ⟨others, rfl, taken⟩
      · exact ih later kept skipped
      · refine absurd (kept _ List.mem_cons_self) (spared s List.mem_cons_self ?_)
        simpa using stays

theorem sublist_resolve
    {history : List SpannedSegment} (spared : AnswerSpares settled prompt history)
    (kept : ∀ item ∈ items, item ∈ settled) (listed : items.Sublist (payloads history))
    : items.Sublist (payloads (resolveChoicePrompt history prompt)) := by
  have backwards : items.reverse.Sublist (payloads history.reverse) := by
    simpa [payloads] using listed.reverse
  have answered : items.reverse.Sublist (payloads (answerFirst prompt history.reverse)) :=
    sublist_answerFirst spared.before (by simpa using kept) backwards
  refine sublist_dropQuestion ?_ kept ?_
  · intro s member repeats
    rw [List.mem_reverse] at member
    have listed := repeatsQuestion_answerFirst member repeats
    exact spared.question s (List.mem_reverse.mp listed) repeats
  · simpa [payloads] using answered.reverse

theorem count_resolve {history : List SpannedSegment} (spared : AnswerSpares settled prompt history)
    {x : Segment} (final : x ∈ settled)
    : (payloads (resolveChoicePrompt history prompt)).count x
      ≤ (payloads history).count x := by
  have answered := count_answerFirst spared.after final
  have dropped : (payloads (resolveChoicePrompt history prompt)).Sublist
      (payloads (answerFirst prompt history.reverse).reverse) :=
    List.filter_sublist.map _
  have fewer := dropped.count_le x
  simp only [payloads, List.map_reverse, List.count_reverse] at answered fewer ⊢
  omega

/-! ### Runs -/

/-- The segments that are committed above the live window. -/
def TranscriptAccumulator.finals (acc : TranscriptAccumulator) : List Segment :=
  payloads (acc.committed.filter (fun s => !s.pinned && s.stop ≤ acc.scrollback.liveTop))

/-- A capture of the pane, with the user turns known when it is fed. -/
structure Capture where
  userTexts : List String
  frame : String

/-- An accumulator with every segment that was once final and every list of segments parsed. -/
structure Watched where
  acc : TranscriptAccumulator
  settled : List Segment := []
  parses : List (List SpannedSegment) := []

variable (grammar : Option Grammar)

def Fresh (s : Watched) : Prop :=
  ∃ systemPrompt paneHeight, s = { acc := TranscriptAccumulator.new systemPrompt paneHeight }

def Watched.feed (s : Watched) (capture : Capture) : Watched where
  acc := s.acc.feed grammar capture.userTexts capture.frame
  settled := s.settled ++ (s.acc.feed grammar capture.userTexts capture.frame).finals
  parses := s.parses ++ [s.acc.fedParse grammar capture.userTexts capture.frame]

/-- A feed that spares the settled segments: a match, a collapse or an answer that takes one of
them in takes its payload over, and the parse has its keys in the order of the history.
-/
structure Careful (s : Watched) (capture : Capture) : Prop where
  ordered
    : SameOrder (keys s.acc.committed)
        (keys (s.acc.fedParse grammar capture.userTexts capture.frame))
  matched
    : ∀ c p, .matched c p ∈ align SpannedSegment.key s.acc.committed
          (s.acc.fedParse grammar capture.userTexts capture.frame)
        → c.segment ∈ s.settled ∨ p.segment ∈ s.settled → p.segment = c.segment
  collapsed
    : ∀ made ∈ collapses (reconcile s.acc.committed
          (s.acc.fedParse grammar capture.userTexts capture.frame)),
        made.Spares s.settled
  answered
    : livePrompt grammar (preprocessed grammar capture.frame) = none
        → ∀ prompt, s.acc.activeChoicePrompt = some prompt
        → AnswerSpares s.settled prompt
            (s.acc.fedHistory grammar capture.userTexts capture.frame)

def Feeds (s : Watched) (capture : Capture) (t : Watched) : Prop := t = s.feed grammar capture

def FeedsCarefully (s : Watched) (capture : Capture) (t : Watched) : Prop :=
  Feeds grammar s capture t ∧ Careful grammar s capture

variable {grammar}

section Step

variable {s : Watched} {capture : Capture} (careful : Careful grammar s capture)
include careful

/-- A careful feed keeps settled segments in their order. -/
theorem Careful.sublist (kept : ∀ item ∈ items, item ∈ s.settled)
    (listed : items.Sublist (payloads s.acc.committed))
    : items.Sublist (payloads (s.feed grammar capture).acc.committed) := by
  have aligned := aligned_align SpannedSegment.key s.acc.committed
    (s.acc.fedParse grammar capture.userTexts capture.frame)
  have merged : items.Sublist (payloads (reconcile s.acc.committed
      (s.acc.fedParse grammar capture.userTexts capture.frame))) := by
    have agrees : ∀ c p, .matched c p ∈ align SpannedSegment.key s.acc.committed
          (s.acc.fedParse grammar capture.userTexts capture.frame)
        → c.segment ∈ s.settled → p.segment = c.segment :=
      fun c p member final => careful.matched c p member (.inl final)
    have below := aligned.left_sublist agrees kept listed
    simpa [payloads, reconcile, merge, Function.comp_def] using below
  have deduped := sublist_dedupe careful.collapsed kept merged
  simp only [Watched.feed, TranscriptAccumulator.feed]
  split
  · rename_i prompt gone active
    exact sublist_resolve (careful.answered gone prompt active) kept deduped
  · exact deduped

/-- A careful feed shows a settled segment no more often than the history did or the parse. -/
theorem Careful.count {x : Segment} (final : x ∈ s.settled)
    : (payloads (s.feed grammar capture).acc.committed).count x
      ≤ max ((payloads s.acc.committed).count x)
        ((payloads (s.acc.fedParse grammar capture.userTexts capture.frame)).count x) := by
  have aligned := aligned_align SpannedSegment.key s.acc.committed
    (s.acc.fedParse grammar capture.userTexts capture.frame)
  have keyed : ∀ spanned : SpannedSegment, (spanned.segment == x) = true
      → spanned.key = segmentKey x := by
    intro spanned same
    rw [SpannedSegment.key, beq_iff_eq.mp same]
  have agrees : ∀ c p, .matched c p ∈ align SpannedSegment.key s.acc.committed
        (s.acc.fedParse grammar capture.userTexts capture.frame)
      → (c.segment == x) = (p.segment == x) := by
    intro c p member
    have same := careful.matched c p member
    by_cases kept : c.segment = x
    · rw [same (.inl (kept ▸ final))]
    · by_cases taken : p.segment = x
      · rw [same (.inr (taken ▸ final))]
      · simp [kept, taken]
  have merged := aligned.countP_le_max careful.ordered keyed agrees
  have deduped := count_dedupe careful.collapsed final
  have fed : (payloads (s.feed grammar capture).acc.committed).count x
      ≤ (payloads (s.acc.fedHistory grammar capture.userTexts capture.frame)).count x := by
    simp only [Watched.feed, TranscriptAccumulator.feed]
    split
    · rename_i prompt gone active
      exact count_resolve (careful.answered gone prompt active) final
    · exact Nat.le_refl _
  simp only [payloads, List.count, List.countP_map, Function.comp_def] at fed deduped ⊢
  exact Nat.le_trans fed (Nat.le_trans deduped merged)

end Step

/-- What is final stands in the settled segments, in every reachable state. -/
theorem settled_of_final {captures : List Capture} {s : Watched}
    (run : Run Fresh (FeedsCarefully grammar) captures s)
    : ∀ x ∈ s.acc.finals, x ∈ s.settled := by
  have initial : ∀ s, Fresh s → ∀ x ∈ s.acc.finals, x ∈ s.settled := by
    intro s fresh x final
    obtain ⟨systemPrompt, paneHeight, rfl⟩ := fresh
    cases final
  refine run.invariant initial ?_
  intro s capture t _ step x final
  rw [step.1] at final ⊢
  exact List.mem_append_right _ final

/-- The final segments of one state stand in a later one, in their order and with their
content, and no more often than they did or than one parse showed them.
-/
structure Kept (mid stop : Watched) : Prop where
  sublist : mid.acc.finals.Sublist (payloads stop.acc.committed)
  count
    : ∀ x ∈ mid.acc.finals, ∀ n,
        (payloads mid.acc.committed).count x ≤ n
        → (∀ parsed ∈ stop.parses, (payloads parsed).count x ≤ n)
        → (payloads stop.acc.committed).count x ≤ n

theorem Careful.kept {mid s : Watched} {capture : Capture} (careful : Careful grammar s capture)
    (settled : ∀ x ∈ mid.acc.finals, x ∈ s.settled) (kept : Kept mid s)
    : Kept mid (s.feed grammar capture) where
  sublist := careful.sublist settled kept.sublist
  count := by
    intro x final n before parses
    have history := kept.count x final n before
      (fun parsed member => parses parsed (List.mem_append_left _ member))
    have parsed := parses _ (List.mem_append_right _ List.mem_cons_self)
    have fed := careful.count (settled x final)
    omega

/-- Reconciling a list with itself changes nothing; reconciling loses no parsed segment and only
matched committed ones; and in every run of careful feeds what was once final is kept.
-/
theorem finalSegments (grammar : Option Grammar)
    : (∀ spanned, reconcile spanned spanned = spanned)
      ∧ (∀ committed parsed, parsed.Sublist (reconcile committed parsed)
        ∧ ∀ c ∈ committed,
          c ∈ reconcile committed parsed ∨ ∃ p ∈ parsed, p.key = c.key)
      ∧ ∀ before mid after stop,
          Run Fresh (FeedsCarefully grammar) before mid
          → Steps (FeedsCarefully grammar) mid after stop
          → Kept mid stop := by
  refine ⟨fun spanned => merge_self spanned, ?_, ?_⟩
  · intro committed parsed
    have aligned := aligned_align SpannedSegment.key committed parsed
    exact ⟨aligned.right_sublist, fun c member => aligned.left_mem member⟩
  · intro before mid after stop reached steps
    have final := settled_of_final reached
    have start : Kept mid mid :=
      ⟨List.filter_sublist.map _, fun x _ n held _ => held⟩
    have step : ∀ s capture t, (∀ x ∈ mid.acc.finals, x ∈ s.settled) ∧ Kept mid s
        → FeedsCarefully grammar s capture t
        → (∀ x ∈ mid.acc.finals, x ∈ t.settled) ∧ Kept mid t := by
      intro s capture t holds step
      rw [step.1]
      refine ⟨fun x member => ?_, step.2.kept holds.1 holds.2⟩
      exact List.mem_append_left _ (holds.1 x member)
    exact (steps.invariant step ⟨final, start⟩).2

/-! ### A pane of tool calls -/

namespace ToolPane

def calls (start : Nat) : List String → List SpannedSegment
  | title :: result :: rest =>
    ⟨.toolCall ⟨title, none, some result, false, false⟩, start, start + 2, 0⟩
      :: calls (start + 2) rest
  | _ => []

def toolGrammar : Grammar where
  detectLiveChoicePrompt _ := none
  isIdle _ := false
  parseSpanned lines _ _ := calls 0 lines

def start : Watched := { acc := TranscriptAccumulator.new none (some 1) }

/-- One call above the live window, and the pane behind it. -/
def first : Capture := ⟨[], "ls\na\n$"⟩

def one : Watched := start.feed (some toolGrammar) first

/-- A second call of another title. -/
def other : Capture := ⟨[], "ls\na\npwd\nb"⟩

/-- A second call of the same title. -/
def again : Capture := ⟨[], "ls\na\nls\nb"⟩

def lsCall : Segment := .toolCall ⟨"ls", none, some "a", false, false⟩

theorem run_first : Run Fresh (Feeds (some toolGrammar)) [first] one :=
  ⟨start, ⟨none, some 1, rfl⟩, .cons rfl (.nil one)⟩

/-- What the first screen, one with another call and one of the same title come to. -/
theorem screens
    : align SpannedSegment.key start.acc.committed
        (start.acc.fedParse (some toolGrammar) first.userTexts first.frame)
        = [.fresh ⟨lsCall, 0, 2, 0⟩]
      ∧ align SpannedSegment.key one.acc.committed
          (one.acc.fedParse (some toolGrammar) other.userTexts other.frame)
        = [.matched ⟨lsCall, 0, 2, 0⟩ ⟨lsCall, 0, 2, 0⟩,
          .fresh ⟨.toolCall ⟨"pwd", none, some "b", false, false⟩, 2, 4, 0⟩]
      ∧ one.acc.finals = [lsCall]
      ∧ ¬one.acc.finals.Sublist
        (payloads (one.feed (some toolGrammar) again).acc.committed) := by
  decide +kernel

theorem careful_first : Careful (some toolGrammar) start first where
  ordered := .of_sublist (List.nil_sublist _)
  matched c p member _ := by
    rw [screens.1] at member
    cases List.mem_singleton.mp member
  collapsed made member := by
    have none' : collapses (reconcile start.acc.committed
        (start.acc.fedParse (some toolGrammar) first.userTexts first.frame)) = [] := by
      rfl
    rw [none'] at member
    cases member
  answered _ prompt active := by
    have none' : start.acc.activeChoicePrompt = none := rfl
    rw [none'] at active
    cases active

theorem careful_other : Careful (some toolGrammar) one other where
  ordered := .of_sublist (by decide +kernel)
  matched c p member _ := by
    rw [screens.2.1] at member
    rcases List.mem_cons.mp member with here | later
    · cases here
      rfl
    · cases List.mem_singleton.mp later
  collapsed made member := by
    have none' : collapses (reconcile one.acc.committed
        (one.acc.fedParse (some toolGrammar) other.userTexts other.frame)) = [] := by
      rfl
    rw [none'] at member
    cases member
  answered _ prompt active := by
    have none' : one.acc.activeChoicePrompt = none := rfl
    rw [none'] at active
    cases active

/-- A call of another title leaves the first one as it is. -/
theorem finalSegments_other
    : one.acc.finals = [lsCall] ∧ Kept one (one.feed (some toolGrammar) other) :=
  ⟨screens.2.2.1,
    (finalSegments (some toolGrammar)).2.2 [first] one [other] _
      ⟨start, ⟨none, some 1, rfl⟩, .cons ⟨rfl, careful_first⟩ (.nil one)⟩
      (.cons ⟨rfl, careful_other⟩ (.nil _))⟩

/-- A call of the same title takes the place of the first one. -/
theorem sameTitle
    : ¬∀ (grammar : Option Grammar) (before : List Capture) (mid : Watched)
        (after : List Capture) (stop : Watched),
        Run Fresh (Feeds grammar) before mid → Steps (Feeds grammar) mid after stop
        → Kept mid stop := by
  intro claim
  have kept := claim (some toolGrammar) [first] one [again] _ run_first (.cons rfl (.nil _))
  exact screens.2.2.2 kept.sublist

end ToolPane

end Murder.Transcripts

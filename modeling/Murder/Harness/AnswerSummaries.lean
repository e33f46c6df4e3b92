import Murder.Harness.Questions

/-! What an acknowledged question answer says about the summary of it.
The requested texts are looked for anywhere in the summary, ignoring case.
-/

namespace Murder.Harness

/-- What a harness recorded as the answer to a question. -/
inductive RecordedAnswer
  | declined
  | chosen (choices : List ChoiceState) (customAnswer note : Option String)

def RecordedAnswer.lines (front : String) : RecordedAnswer → List String
  | .declined => ["User declined to answer questions"]
  | .chosen choices customAnswer note =>
    (front ++ String.intercalate ", " (choices.map (·.label) ++ customAnswer.toList))
      :: note.toList

def Records (request : QuestionAnswerRequest) (question : QuestionState) : RecordedAnswer → Prop
  | .declined => request.mode = .decline
  | .chosen choices customAnswer note =>
    request.mode ≠ .decline
    ∧ (∀ choice ∈ question.choices, choice ∈ choices ↔ ∃ target ∈ request.selections,
        findChoice question.choices target.stableChoiceId target.label = .found choice)
    ∧ customAnswer = request.customAnswer ∧ note = request.note

def answered (snapshot : ObservationSnapshot) (question : QuestionState) (summary : List String)
    : ObservationSnapshot :=
  { snapshot with question := .present { question with answeredSummary := summary } }

/-- What `str.casefold` does to texts: character by character, and nothing to small letters. -/
class CasefoldLaws [CaseMapping] : Prop where
  casefold_append : ∀ text behind,
    CaseMapping.casefold (text ++ behind) = CaseMapping.casefold text ++ CaseMapping.casefold behind
  casefold_lower : ∀ text, text.toList.all Char.isLower → CaseMapping.casefold text = text

/-- A choice or a custom answer is a text to look for. -/
theorem expectedTexts_ne_nil [CaseMapping] {request : QuestionAnswerRequest}
    (chooses : request.mode ≠ .decline)
    : request.expectedTexts ≠ [] := by
  have admitted := request.admitted
  unfold QuestionAnswerRequest.expectedTexts
  cases mode : request.mode with
  | decline => exact absurd mode chooses
  | single =>
    rw [mode] at admitted
    have some_ : request.selections ≠ [] := List.ne_nil_of_length_pos (by simp [admitted.1])
    simp [some_]
  | multiple =>
    rw [mode] at admitted
    simp [admitted.1]
  | custom =>
    rw [mode] at admitted
    have typed := admitted.2.2
    cases custom : request.customAnswer with
    | none =>
      rw [custom] at typed
      exact absurd rfl typed
    | some text =>
      have some_ : text ≠ "" := by
        intro empty
        rw [custom, empty] at typed
        exact typed rfl
      simp [given, some_]

def QuestionAnswerRequest.texts (request : QuestionAnswerRequest) : List String :=
  request.selections.map (·.label) ++ (given request.customAnswer).toList
    ++ (given request.note).toList

theorem expectedTexts_eq [CaseMapping] (request : QuestionAnswerRequest)
    : request.expectedTexts = request.texts.map CaseMapping.casefold := by
  simp [QuestionAnswerRequest.expectedTexts, QuestionAnswerRequest.texts, Function.comp_def,
    Option.toList_map]

def repeating (texts : List String) : String := texts.foldr (· ++ ·) "" ++ "x"

theorem repeating_parts {texts : List String} {text : String} (member : text ∈ texts)
    : ∃ before behind, repeating texts = before ++ text ++ (behind ++ "x") := by
  have joined : ∃ before behind, texts.foldr (· ++ ·) "" = before ++ text ++ behind := by
    induction texts with
    | nil => cases member
    | cons first later ih =>
      rcases List.mem_cons.mp member with rfl | member
      · exact ⟨"", later.foldr (· ++ ·) "", by simp⟩
      · obtain ⟨before, behind, parts⟩ := ih member
        exact ⟨first ++ before, behind, by simp [parts, String.append_assoc]⟩
  obtain ⟨before, behind, parts⟩ := joined
  exact ⟨before, behind, by rw [repeating, parts, String.append_assoc]⟩

theorem repeating_not_mem (texts : List String) : repeating texts ∉ texts := by
  intro member
  obtain ⟨before, behind, parts⟩ := repeating_parts member
  have lengths := congrArg String.length parts
  rw [String.length_append, String.length_append, String.length_append] at lengths
  have last : "x".length = 1 := rfl
  omega

theorem note_ne_repeating (request : QuestionAnswerRequest)
    : some (repeating request.texts) ≠ request.note := by
  intro same
  refine repeating_not_mem request.texts ?_
  have some_ : repeating request.texts ≠ "" := by
    intro empty
    have lengths := congrArg String.length empty
    rw [repeating, String.length_append] at lengths
    cases lengths
  refine List.mem_append_right _ ?_
  rw [← same]
  simp [given, some_]

theorem occursIn_append (before text behind : String)
    : occursIn text (before ++ text ++ behind) := by
  unfold occursIn
  rw [String.toList_append, String.toList_append]
  exact decide_eq_true ⟨before.toList, behind.toList, rfl⟩

section Summaries

variable [Sha256] [CaseMapping] {op : AnswerQuestionOperation} {snapshot : ObservationSnapshot}
  {question : QuestionState}

def Correlated (op : AnswerQuestionOperation) (snapshot : ObservationSnapshot)
    (question : QuestionState) : Prop :=
  freshSince op.answerActionId op.baselineRevision snapshot.revision = true
  ∧ (questionMatches op.request (answered snapshot question [])).value = .true

def AcknowledgedBy (op : AnswerQuestionOperation) (snapshot : ObservationSnapshot)
    (question : QuestionState) (summary : List String) : Prop :=
  (questionAnswerAcknowledged op (answered snapshot question summary)).value = .true

def NamesAnswer (op : AnswerQuestionOperation) (snapshot : ObservationSnapshot)
    (question : QuestionState) (front : String) : Prop :=
  ∀ recorded : RecordedAnswer, AcknowledgedBy op snapshot question (recorded.lines front) →
    Records op.request question recorded

def TellsChoices (op : AnswerQuestionOperation) (snapshot : ObservationSnapshot)
    (question : QuestionState) (front label : String) : Prop :=
  ∀ other ∈ question.choices, other.label ≠ label →
    ¬AcknowledgedBy op snapshot question ((RecordedAnswer.chosen [other] none none).lines front)

def searched (summary : List String) : String :=
  CaseMapping.casefold (String.intercalate "\n" summary)

/-- The outcome by its tests. -/
theorem acknowledged_value (observed : snapshot.question.value = some question)
    : (questionAnswerAcknowledged op snapshot).value
      = if freshSince op.answerActionId op.baselineRevision snapshot.revision = false then .unknown
        else if (questionMatches op.request snapshot).value ≠ .true then .unknown
        else if op.request.mode = .decline
            ∧ ["declined", "canceled", "interrupted"].any
              (occursIn · (searched question.answeredSummary)) then
          .true
        else if op.request.expectedTexts ≠ [] ∧ searched question.answeredSummary ≠ ""
            ∧ op.request.expectedTexts.all (occursIn · (searched question.answeredSummary)) then
          .true
        else
          .false := by
  unfold questionAnswerAcknowledged
  rw [observed]
  simp only [apply_ite PredicateResult.value]
  rfl

theorem acknowledgedBy_iff {summary : List String}
    : AcknowledgedBy op snapshot question summary
      ↔ Correlated op snapshot question
        ∧ (op.request.mode = .decline
            ∧ ["declined", "canceled", "interrupted"].any (occursIn · (searched summary))
          ∨ op.request.expectedTexts ≠ [] ∧ searched summary ≠ ""
            ∧ op.request.expectedTexts.all (occursIn · (searched summary))) := by
  have outcome := @acknowledged_value _ _ op (answered snapshot question summary)
    { question with answeredSummary := summary } rfl
  have matched : questionMatches op.request (answered snapshot question summary)
      = questionMatches op.request (answered snapshot question []) := rfl
  have revision : (answered snapshot question summary).revision = snapshot.revision := rfl
  rw [matched, revision] at outcome
  unfold AcknowledgedBy Correlated
  rw [outcome]
  by_cases fresh : freshSince op.answerActionId op.baselineRevision snapshot.revision = true
  · rw [if_neg (by rw [fresh]; decide), and_iff_right fresh]
    by_cases correlated :
        (questionMatches op.request (answered snapshot question [])).value = .true
    · rw [if_neg (not_not.mpr correlated), and_iff_right correlated]
      split
      · next declines => exact iff_of_true rfl (.inl declines)
      · next stays =>
          rw [or_iff_right stays]
          split
          · next shown => exact iff_of_true rfl shown
          · next hidden => exact iff_of_false (fun bad => nomatch bad) hidden
    · rw [if_pos correlated]
      exact iff_of_false (fun bad => nomatch bad) (fun both => correlated both.1)
  · rw [if_pos (Bool.eq_false_iff.mpr fresh)]
    exact iff_of_false (fun bad => nomatch bad) (fun both => fresh both.1.1)

section Laws

variable [CasefoldLaws]

omit [Sha256] in
theorem searched_pair (front note : String)
    : searched [front, note]
      = CaseMapping.casefold front ++ CaseMapping.casefold "\n" ++ CaseMapping.casefold note := by
  have joined : String.intercalate "\n" [front, note] = front ++ "\n" ++ note := by
    rw [← String.toList_inj, String.toList_intercalate]
    simp [List.intercalate_cons_cons]
  rw [searched, joined, CasefoldLaws.casefold_append, CasefoldLaws.casefold_append]

omit [Sha256] in
theorem repeating_shows (request : QuestionAnswerRequest) (front : String)
    : searched [front, repeating request.texts] ≠ ""
      ∧ request.expectedTexts.all (occursIn · (searched [front, repeating request.texts])) := by
  have last : CaseMapping.casefold "x" = "x" := CasefoldLaws.casefold_lower "x" rfl
  rw [searched_pair]
  constructor
  · intro empty
    have lengths := congrArg String.length empty
    rw [repeating, CasefoldLaws.casefold_append, last, String.length_append,
      String.length_append, String.length_append] at lengths
    cases lengths
  · rw [List.all_eq_true, expectedTexts_eq]
    intro folded member
    obtain ⟨text, listed, rfl⟩ := List.mem_map.mp member
    obtain ⟨before, behind, parts⟩ := repeating_parts listed
    rw [parts, CasefoldLaws.casefold_append, CasefoldLaws.casefold_append, ← String.append_assoc,
      ← String.append_assoc]
    exact occursIn_append _ _ _

theorem NamesAnswer.not_correlated {front : String}
    (names : NamesAnswer op snapshot question front)
    : ¬Correlated op snapshot question := by
  intro correlated
  by_cases declines : op.request.mode = .decline
  · -- the typed answer of this summary has the word that a declined question is known by
    have acknowledged : AcknowledgedBy op snapshot question
        ((RecordedAnswer.chosen [] (some "declined") none).lines front) := by
      refine acknowledgedBy_iff.mpr ⟨correlated, .inl ⟨declines, ?_⟩⟩
      have line : (RecordedAnswer.chosen [] (some "declined") none).lines front
          = [front ++ "declined"] := rfl
      have folded : CaseMapping.casefold "declined" = "declined" :=
        CasefoldLaws.casefold_lower "declined" rfl
      rw [line, searched, String.intercalate_singleton, CasefoldLaws.casefold_append, folded]
      refine List.any_eq_true.mpr ⟨"declined", List.mem_cons_self, ?_⟩
      have inside := occursIn_append (CaseMapping.casefold front) "declined" ""
      rwa [String.append_empty] at inside
    exact (names _ acknowledged).1 declines
  · have acknowledged : AcknowledgedBy op snapshot question
        ((RecordedAnswer.chosen [] none (some (repeating op.request.texts))).lines front) := by
      have shows := repeating_shows op.request (front ++ "")
      exact acknowledgedBy_iff.mpr ⟨correlated, .inr ⟨expectedTexts_ne_nil declines, shows⟩⟩
    exact note_ne_repeating op.request (names _ acknowledged).2.2.2

end Laws

theorem tellsChoices_iff {front : String} {target : QuestionChoiceSelection}
    (single : op.request.selections = [target]) (noteless : op.request.note = none)
    (correlated : Correlated op snapshot question)
    : TellsChoices op snapshot question front target.label
      ↔ ∀ other ∈ question.choices, other.label ≠ target.label →
        searched [front ++ other.label] = ""
          ∨ ¬occursIn (CaseMapping.casefold target.label) (searched [front ++ other.label]) := by
  have admitted := op.request.admitted
  have mode : op.request.mode ≠ .decline ∧ op.request.customAnswer = none := by
    cases chosen : op.request.mode with
    | single =>
      rw [chosen] at admitted
      exact ⟨nofun, admitted.2⟩
    | multiple =>
      rw [chosen] at admitted
      exact ⟨nofun, admitted.2⟩
    | custom =>
      rw [chosen, single] at admitted
      cases admitted.1
    | decline =>
      rw [chosen, single] at admitted
      cases admitted.1
  have expected : op.request.expectedTexts = [CaseMapping.casefold target.label] := by
    simp [QuestionAnswerRequest.expectedTexts, single, noteless, mode.2, given]
  unfold TellsChoices
  refine forall₂_congr (fun other _ => imp_congr_right (fun _ => ?_))
  have line : (RecordedAnswer.chosen [other] none none).lines front = [front ++ other.label] := rfl
  rw [line, acknowledgedBy_iff, and_iff_right correlated, or_iff_right (fun both => mode.1 both.1),
    expected, and_iff_right (List.cons_ne_nil _ _), not_and_or, not_not]
  simp

/-- No request is told from every other answer; a single choice is told from the choices in
whose summary its label does not occur.
-/
theorem acknowledged_answers_iff [CasefoldLaws] (op : AnswerQuestionOperation)
    (snapshot : ObservationSnapshot) (question : QuestionState) (front : String)
    : (NamesAnswer op snapshot question front ↔ ¬Correlated op snapshot question)
      ∧ ∀ target, op.request.selections = [target] → op.request.note = none →
        Correlated op snapshot question →
          (TellsChoices op snapshot question front target.label
            ↔ ∀ other ∈ question.choices, other.label ≠ target.label →
              searched [front ++ other.label] = ""
                ∨ ¬occursIn (CaseMapping.casefold target.label)
                  (searched [front ++ other.label])) := by
  refine ⟨⟨fun names => names.not_correlated, ?_⟩, fun target => tellsChoices_iff⟩
  intro apart recorded acknowledged
  exact absurd (acknowledgedBy_iff.mp acknowledged).1 apart

end Summaries

namespace Shades

abbrev sha256 : Sha256 := ⟨id⟩

abbrev caseMapping : CaseMapping := ⟨String.toLower, String.toLower⟩

theorem toLower_of_isLower {c : Char} (small : c.isLower) : c.toLower = c := by
  refine dif_neg (fun capital => ?_)
  have high : c.toNat ≤ 90 := UInt32.le_iff_toNat_le.mp capital.2
  have low : 97 ≤ c.toNat := UInt32.le_iff_toNat_le.mp
    (of_decide_eq_true ((Bool.and_eq_true _ _).mp small).1)
  omega

theorem casefoldLaws : @CasefoldLaws caseMapping := by
  refine @CasefoldLaws.mk caseMapping (fun text behind => ?_) (fun text small => ?_)
  · change (text ++ behind).map Char.toLower = text.map Char.toLower ++ behind.map Char.toLower
    rw [← String.toList_inj]
    simp [String.toList_map]
  · change text.map Char.toLower = text
    rw [← String.toList_inj, String.toList_map]
    refine (List.map_congr_left (fun c member => ?_)).trans (List.map_id _)
    exact toLower_of_isLower (List.all_eq_true.mp small c member)

def asks (labels : List String) : QuestionState where
  questionIdHint := some "q"
  promptText := some "Colour?"
  choices := labels.map (fun label => ⟨none, label, none, some false⟩)
  selectionMode := some "single"
  visibleTabs := []
  allowCustomAnswer := some false
  declineLabel := none
  answeredSummary := []

def shows (capture : Nat) : ObservationSnapshot where
  revision := ⟨0, capture, 0⟩
  surface := .unknown
  composer := .unknown
  transcriptTail := .unknown
  health := {}

def blue : AnswerQuestionOperation where
  envelope := {
    operationId := "o"
    status := .running
    phase := .awaitingAcknowledgment
    updatedAt := 0
    deadline := none }
  request := {
    questionIdHint := some "q"
    questionFingerprint := none
    mode := .single
    selections := [⟨none, "Blue", by decide⟩]
    note := none
    bound := hinted_bound
    admitted := ⟨rfl, rfl⟩
    noted := none_noted }
  answerActionId := some "a"
  baselineRevision := some ⟨0, 1, 0⟩

/-- The answer is correlated, and its label occurs in no other. -/
theorem told_from_red
    : ¬@NamesAnswer sha256 caseMapping blue (shows 2) (asks ["Blue", "Red"]) "Selected: "
      ∧ @TellsChoices sha256 caseMapping blue (shows 2) (asks ["Blue", "Red"]) "Selected: "
        "Blue" := by
  have correlated : @Correlated sha256 blue (shows 2) (asks ["Blue", "Red"]) := by
    unfold Correlated
    decide +kernel
  have answers := @acknowledged_answers_iff sha256 caseMapping casefoldLaws blue (shows 2)
    (asks ["Blue", "Red"]) "Selected: "
  refine ⟨fun names => answers.1.mp names correlated, ?_⟩
  exact (answers.2 ⟨none, "Blue", by decide⟩ rfl rfl correlated).mpr (by decide +kernel)

/-- The choice of another shade acknowledges the answer "Blue". -/
theorem lightBlue_acknowledged
    : ¬∀ op snapshot question front,
        @NamesAnswer sha256 caseMapping op snapshot question front := by
  intro names
  have acknowledged : @AcknowledgedBy sha256 caseMapping blue (shows 2)
      (asks ["Blue", "Light blue"])
      ((RecordedAnswer.chosen [⟨none, "Light blue", none, some false⟩] none none).lines
        "Selected: ") := by
    unfold AcknowledgedBy
    decide +kernel
  have records := (names blue (shows 2) (asks ["Blue", "Light blue"]) "Selected: " _
    acknowledged).2.1 ⟨none, "Blue", none, some false⟩ (by decide +kernel)
  have listed := records.mpr ⟨⟨none, "Blue", by decide⟩, by decide +kernel, by decide +kernel⟩
  exact absurd listed (by decide +kernel)

end Shades

end Murder.Harness

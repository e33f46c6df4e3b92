import Murder.Contracts.Text
import Murder.Harness.Permissions
import Murder.Harness.Questions

/-! What the fingerprint of a dialog binds.
Its fields are joined by control characters that a field may hold itself, so that two dialogs
with one text may divide it differently.
-/

namespace Murder.Harness

open Contracts Library.Trimming

/-- What a decision binds to: trimmed fields, and choices with trimmed labels. -/
structure Binding where
  fields : List String
  choices : List (String × String)
deriving DecidableEq

def choiceBindings (choices : List ChoiceState) : List (String × String) :=
  choices.map (fun choice => (choice.stableChoiceId.getD "", strip choice.label))

def PermissionRequestState.binding (request : PermissionRequestState) : Binding where
  fields := [strip (request.toolName.getD ""), strip (request.command.getD ""),
    strip (request.description.getD "")]
  choices := choiceBindings request.choices

def QuestionState.binding (question : QuestionState) : Binding where
  fields := [strip (question.promptText.getD "")]
  choices := choiceBindings question.choices

/-- How many separators of fields, of choices and within choices a text holds. -/
def separatorsIn (text : String) : Nat × Nat × Nat :=
  (text.toList.count '\x1d', text.toList.count '\x1e', text.toList.count '\x1f')

def Binding.shape (binding : Binding)
    : List (Nat × Nat × Nat) × List ((Nat × Nat × Nat) × Nat × Nat × Nat) :=
  (binding.fields.map separatorsIn,
    binding.choices.map (fun choice => (separatorsIn choice.1, separatorsIn choice.2)))

def choiceText (choice : String × String) : List Char :=
  choice.1.toList ++ '\x1f' :: choice.2.toList

def Binding.text (binding : Binding) : List Char :=
  ['\x1d'].intercalate (binding.fields.map String.toList
    ++ [['\x1e'].intercalate (binding.choices.map choiceText)])

theorem toList_fingerprintChoices (choices : List ChoiceState)
    : (fingerprintChoices choices).toList
      = ['\x1e'].intercalate ((choiceBindings choices).map choiceText) := by
  unfold fingerprintChoices choiceBindings
  rw [String.toList_intercalate, List.map_map, List.map_map]
  congr 1
  refine List.map_congr_left (fun choice _ => ?_)
  simp [choiceText]

theorem permissionFingerprint_eq [Sha256] (request : PermissionRequestState)
    : permissionFingerprint request = Sha256.hexdigest (String.ofList request.binding.text) := by
  unfold permissionFingerprint
  refine congrArg Sha256.hexdigest ?_
  rw [← String.toList_inj, String.toList_intercalate, String.toList_ofList]
  simp [Binding.text, PermissionRequestState.binding, toList_fingerprintChoices]

theorem questionFingerprint_eq [Sha256] (question : QuestionState)
    : questionFingerprint question = Sha256.hexdigest (String.ofList question.binding.text) := by
  unfold questionFingerprint
  refine congrArg Sha256.hexdigest ?_
  rw [← String.toList_inj, String.toList_ofList]
  simp [Binding.text, QuestionState.binding, toList_fingerprintChoices,
    List.intercalate_cons_cons]

variable {a b : Binding}

theorem choiceText_inj {choice choice' : String × String}
    (same : choiceText choice = choiceText choice')
    (counts : choice.1.toList.count '\x1f' = choice'.1.toList.count '\x1f')
    : choice = choice' := by
  obtain ⟨ids, labels⟩ := append_cons_inj_of_count same counts
  exact Prod.ext (String.toList_inj.mp ids) (String.toList_inj.mp labels)

theorem choices_eq {choices choices' : List (String × String)}
    (same : choices.map choiceText = choices'.map choiceText)
    (counts : choices.map (fun choice => choice.1.toList.count '\x1f')
      = choices'.map (fun choice => choice.1.toList.count '\x1f'))
    : choices = choices' := by
  induction choices generalizing choices' with
  | nil => exact (List.map_eq_nil_iff.mp same.symm).symm
  | cons choice choices ih =>
    cases choices' with
    | nil => cases same
    | cons choice' choices' =>
      obtain ⟨first, later⟩ := List.cons.inj same
      obtain ⟨count, rest⟩ := List.cons.inj counts
      rw [choiceText_inj first count, ih later rest]

/-- A shape says where to divide a text. -/
theorem Binding.eq_of_shape (same : a.text = b.text) (shapes : a.shape = b.shape) : a = b := by
  obtain ⟨fields, choices⟩ := Prod.mk.inj shapes
  have fieldCounts : (a.fields.map String.toList).map (List.count '\x1d')
      = (b.fields.map String.toList).map (List.count '\x1d') := by
    simpa [separatorsIn, Function.comp_def] using congrArg (List.map Prod.fst) fields
  have choiceCounts : (a.choices.map choiceText).map (List.count '\x1e')
      = (b.choices.map choiceText).map (List.count '\x1e') := by
    simpa [separatorsIn, choiceText, Function.comp_def]
      using congrArg (List.map (fun counts => counts.1.2.1 + counts.2.2.1)) choices
  have idCounts : a.choices.map (fun choice => choice.1.toList.count '\x1f')
      = b.choices.map (fun choice => choice.1.toList.count '\x1f') := by
    simpa [separatorsIn, Function.comp_def]
      using congrArg (List.map (fun counts => counts.1.2.2)) choices
  obtain ⟨fieldTexts, choiceTexts⟩ := intercalate_concat_inj_of_count same fieldCounts
  have sameFields : a.fields = b.fields :=
    List.map_injective_iff.mpr (fun _ _ same => String.toList_inj.mp same) fieldTexts
  have sameChoices := choices_eq (intercalate_inj_of_count choiceTexts choiceCounts) idCounts
  cases a
  cases b
  rw [Binding.mk.injEq]
  exact ⟨sameFields, sameChoices⟩

/-- Under one text, bindings are equal exactly when they hold separators in the same places. -/
theorem Binding.eq_iff_shape (same : a.text = b.text) : a = b ↔ a.shape = b.shape := by
  constructor
  · intro equal
    rw [equal]
  · intro shapes
    exact Binding.eq_of_shape same shapes

section Injective

variable [hash : Sha256]

theorem text_eq_of_hash (injective : Function.Injective hash.hexdigest)
    (same : Sha256.hexdigest (String.ofList a.text) = Sha256.hexdigest (String.ofList b.text))
    : a.text = b.text :=
  String.ofList_injective (injective same)

/-- A fingerprint binds the fields and the choices as far as the separators that they hold
themselves are in the same places.
-/
theorem fingerprints_bind (injective : Function.Injective hash.hexdigest)
    : (∀ a b : PermissionRequestState, permissionFingerprint a = permissionFingerprint b →
        (a.binding = b.binding ↔ a.binding.shape = b.binding.shape))
      ∧ ∀ a b : QuestionState, questionFingerprint a = questionFingerprint b →
        (a.binding = b.binding ↔ a.binding.shape = b.binding.shape) := by
  constructor
  · intro a b same
    rw [permissionFingerprint_eq, permissionFingerprint_eq] at same
    exact Binding.eq_iff_shape (text_eq_of_hash injective same)
  · intro a b same
    rw [questionFingerprint_eq, questionFingerprint_eq] at same
    exact Binding.eq_iff_shape (text_eq_of_hash injective same)

end Injective

namespace MovedSeparator

def request (tool command : String) : PermissionRequestState where
  requestIdHint := none
  toolName := some tool
  command := some command
  description := none
  choices := [⟨some "1", "Yes", none, some false⟩]
  riskAttributes := ∅
  acknowledgedResponseId := none

/-- The digest of the listed request, and another text for each other one. -/
abbrev sha256 : Sha256 where
  hexdigest text :=
    if text = "Bash\x1dls\x1d\x1d1\x1fYes" then
      "e6980fb3ca983cf273c3e37e86990847ef35745b6f7e0b9805de811d96da94bc"
    else
      "-" ++ text

theorem hexdigest_injective : Function.Injective sha256.hexdigest := by
  intro text text' same
  change (if text = _ then _ else _) = (if text' = _ then _ else _) at same
  have other : ∀ rest : String,
      "e6980fb3ca983cf273c3e37e86990847ef35745b6f7e0b9805de811d96da94bc" ≠ "-" ++ rest := by
    intro rest same
    have first := congrArg (fun text => text.toList.head?) same
    rw [String.toList_append] at first
    cases first
  by_cases listed : text = "Bash\x1dls\x1d\x1d1\x1fYes"
  · rw [if_pos listed] at same
    by_cases listed' : text' = "Bash\x1dls\x1d\x1d1\x1fYes"
    · exact listed.trans listed'.symm
    · rw [if_neg listed'] at same
      exact absurd same (other text')
  · rw [if_neg listed] at same
    by_cases listed' : text' = "Bash\x1dls\x1d\x1d1\x1fYes"
    · rw [if_pos listed'] at same
      exact absurd same.symm (other text)
    · rw [if_neg listed'] at same
      have chars := congrArg String.toList same
      rw [String.toList_append, String.toList_append] at chars
      exact String.toList_inj.mp (List.append_cancel_left chars)

theorem listed_binds
    : @permissionFingerprint sha256 (request "Bash" "ls")
        = "e6980fb3ca983cf273c3e37e86990847ef35745b6f7e0b9805de811d96da94bc"
      ∧ ((request "Bash" "ls").binding = (request " Bash" "ls ").binding
        ↔ (request "Bash" "ls").binding.shape = (request " Bash" "ls ").binding.shape) :=
  ⟨by decide +kernel, (@fingerprints_bind sha256 hexdigest_injective).1 (request "Bash" "ls")
    (request " Bash" "ls ") (by decide +kernel)⟩

/-- A separator in the command moves to the tool name: two commands have one fingerprint. -/
theorem commands_collide
    : ¬∀ hash : Sha256, Function.Injective hash.hexdigest → ∀ a b : PermissionRequestState,
        @permissionFingerprint hash a = @permissionFingerprint hash b → a.binding = b.binding := by
  intro binds
  have same := binds ⟨id⟩ Function.injective_id (request "Bash" "ls\x1drm")
    (request "Bash\x1dls" "rm") (by decide +kernel)
  exact absurd same (by decide +kernel)

end MovedSeparator

end Murder.Harness
